import Mathlib.Data.List.Induction

/-!
# Reassembling the SDUs of an ERTM or streaming channel

A start frame announces the length of its SDU and allocates a buffer of that length; the frames
behind it are appended.  The first frame that does not fit disconnects the channel.
-/

namespace BluetoothFormal.L2cap.Sar

open Option List

/-- The segmentation bits of a control word. -/
inductive SarType where
  | unseg
  | start
  | end_
  | cont
  deriving DecidableEq

/-- An I-frame without its headers and its checksum. -/
structure IFrame where
  sar : SarType
  payload : List UInt8

/-- The length that a start frame announces. -/
def IFrame.sduLen (frame : IFrame) : Nat :=
  (frame.payload.getD 0 0).toNat + (frame.payload.getD 1 0).toNat * 256

/-- The part of `tL2C_FCRB` that reassembly uses. -/
structure Fcrb where
  rxSduLen : Nat
  rxSdu : Option (List UInt8)

/-- What a call leaves behind, the SDU it hands up and whether the packet is in order. -/
structure Outcome where
  fcrb : Fcrb
  sdu : Option (List UInt8)
  packetOk : Bool

/-- The payload of a segment is copied behind the SDU if it fits. -/
def appendSegment (fcrb : Fcrb) (sar : SarType) (payload : List UInt8) : Outcome :=
  match fcrb.rxSdu with
  | none => ⟨fcrb, none, false⟩
  | some sdu =>
    if sdu.length + payload.length > fcrb.rxSduLen then ⟨fcrb, none, false⟩
    else if sar = .end_ ∧ sdu.length + payload.length ≠ fcrb.rxSduLen then ⟨fcrb, none, false⟩
    else if sar = .end_ then ⟨{ fcrb with rxSdu := none }, some (sdu ++ payload), true⟩
    else ⟨{ fcrb with rxSdu := some (sdu ++ payload) }, none, true⟩

def doSarReassembly (maxRxMtu : Nat) (fcrb : Fcrb) (frame : IFrame) : Outcome :=
  match frame.sar with
  | .unseg =>
    if fcrb.rxSdu.isSome then ⟨fcrb, none, false⟩ else ⟨fcrb, some frame.payload, true⟩
  | .start =>
    if fcrb.rxSdu.isSome ∨ frame.payload.length < 2 then ⟨fcrb, none, false⟩
    -- the length is stored before it is compared
    else if frame.sduLen > maxRxMtu then ⟨{ fcrb with rxSduLen := frame.sduLen }, none, false⟩
    else appendSegment ⟨frame.sduLen, some []⟩ .start (frame.payload.drop 2)
  | .end_ => appendSegment fcrb .end_ frame.payload
  | .cont => appendSegment fcrb .cont frame.payload

/-- A channel until it is released, and the SDUs handed up with the type of the last frame. -/
structure Channel where
  fcrb : Option Fcrb
  delivered : List (SarType × List UInt8)

def opened : Channel := ⟨some ⟨0, none⟩, []⟩

/-- `process_i_frame` for the frame that is next in order; a failure disconnects the channel. -/
def processIFrame (maxRxMtu : Nat) (channel : Channel) (frame : IFrame) : Channel :=
  match channel.fcrb with
  | none => channel
  | some fcrb =>
    let outcome := doSarReassembly maxRxMtu fcrb frame
    { fcrb := if outcome.packetOk then some outcome.fcrb else none
      delivered := channel.delivered ++ (outcome.sdu.map fun sdu => (frame.sar, sdu)).toList }

/-- The buffer is no longer than announced, and the channel takes an SDU of that length. -/
def Bounded (maxRxMtu : Nat) (fcrb : Fcrb) : Prop :=
  ∀ sdu, fcrb.rxSdu = some sdu → sdu.length ≤ fcrb.rxSduLen ∧ fcrb.rxSduLen ≤ maxRxMtu

/-- The frames end with a start frame that announces this length, and with continuations of it. -/
inductive Begun : List IFrame → Nat → List UInt8 → Prop
  | start {frames : List IFrame} {frame : IFrame} (start : frame.sar = .start) :
      Begun (frames ++ [frame]) frame.sduLen (frame.payload.drop 2)
  | cont {frames : List IFrame} {frame : IFrame} {len : Nat} {sdu : List UInt8}
      (begun : Begun frames len sdu) (cont : frame.sar = .cont) :
      Begun (frames ++ [frame]) len (sdu ++ frame.payload)

/-- Somewhere an end frame completes what has begun to exactly the announced length. -/
inductive Assembled : List IFrame → List UInt8 → Prop
  | here {frames : List IFrame} {frame : IFrame} {sdu : List UInt8}
      (begun : Begun frames (sdu ++ frame.payload).length sdu) (ended : frame.sar = .end_) :
      Assembled (frames ++ [frame]) (sdu ++ frame.payload)
  | before {frames : List IFrame} {sdu : List UInt8} (assembled : Assembled frames sdu)
      (frame : IFrame) : Assembled (frames ++ [frame]) sdu

/-- The buffer holds the segments that the frames end with. -/
def Holds (frames : List IFrame) (fcrb : Fcrb) : Prop :=
  ∀ sdu, fcrb.rxSdu = some sdu → Begun frames fcrb.rxSduLen sdu

/-- What the call for the last frame leaves behind and hands up. -/
structure Filled (maxRxMtu : Nat) (frames : List IFrame) (sar : SarType) (outcome : Outcome) :
    Prop where
  bounded : Bounded maxRxMtu outcome.fcrb
  holds : outcome.packetOk = true → Holds frames outcome.fcrb
  assembled : ∀ sdu, outcome.sdu = some sdu → sar ≠ .unseg → Assembled frames sdu

variable {maxRxMtu : Nat} {frames : List IFrame} {fcrb : Fcrb} {sar : SarType}

theorem filled_refused (bounded : Bounded maxRxMtu fcrb) :
    Filled maxRxMtu frames sar ⟨fcrb, none, false⟩ :=
  ⟨bounded, by rintro ⟨⟩, by rintro _ ⟨⟩⟩

theorem appendSegment_filled {payload : List UInt8} (bounded : Bounded maxRxMtu fcrb)
    (grown : ∀ sdu, fcrb.rxSdu = some sdu → sar ≠ .end_ →
      Begun frames fcrb.rxSduLen (sdu ++ payload))
    (ended : ∀ sdu, fcrb.rxSdu = some sdu → sar = .end_ →
      sdu.length + payload.length = fcrb.rxSduLen → Assembled frames (sdu ++ payload)) :
    Filled maxRxMtu frames sar (appendSegment fcrb sar payload) := by
  rw [appendSegment]
  split
  · exact filled_refused bounded
  case h_2 sdu held =>
    split
    · exact filled_refused bounded
    case isFalse fits =>
      split
      · exact filled_refused bounded
      case isFalse complete =>
        split
        case isTrue last =>
          refine ⟨by rintro _ ⟨⟩, by rintro _ _ ⟨⟩, ?_⟩
          rintro _ ⟨⟩ _
          exact ended sdu held last (Decidable.not_not.mp fun short => complete ⟨last, short⟩)
        case isFalse more =>
          refine ⟨?_, ?_, by rintro _ ⟨⟩⟩
          · rintro _ ⟨⟩
            rw [length_append]
            exact ⟨Nat.le_of_not_gt fits, (bounded sdu held).2⟩
          · rintro _ _ ⟨⟩
            exact grown sdu held more

theorem doSarReassembly_filled (bounded : Bounded maxRxMtu fcrb) (holds : Holds frames fcrb)
    (frame : IFrame) :
    Filled maxRxMtu (frames ++ [frame]) frame.sar (doSarReassembly maxRxMtu fcrb frame) := by
  rw [doSarReassembly]
  cases kind : frame.sar with
  | unseg =>
    dsimp only
    split
    · exact filled_refused bounded
    case isFalse unused =>
      rw [not_isSome_iff_eq_none] at unused
      exact ⟨bounded, by simp [Holds, unused], fun _ _ segmented => absurd rfl segmented⟩
  | start =>
    dsimp only
    split
    · exact filled_refused bounded
    case isFalse unused =>
      rw [not_or, not_isSome_iff_eq_none] at unused
      split
      · exact filled_refused (by simp [Bounded, unused.1])
      case isFalse small =>
        refine appendSegment_filled ?_ ?_ (by rintro _ _ ⟨⟩)
        · rintro _ ⟨⟩
          exact ⟨Nat.zero_le _, Nat.le_of_not_gt small⟩
        · rintro _ ⟨⟩ _
          exact .start kind
  | end_ =>
    refine appendSegment_filled bounded (by simp) fun sdu held _ complete => ?_
    refine .here ?_ kind
    rw [length_append, complete]
    exact holds sdu held
  | cont =>
    exact appendSegment_filled bounded (fun sdu held _ => .cont (holds sdu held) kind) (by simp)

/-- An open channel holds the segments that have arrived, and segmented SDUs were assembled. -/
structure Received (maxRxMtu : Nat) (frames : List IFrame) (channel : Channel) : Prop where
  bounded : ∀ fcrb, channel.fcrb = some fcrb → Bounded maxRxMtu fcrb
  holds : ∀ fcrb, channel.fcrb = some fcrb → Holds frames fcrb
  assembled : ∀ sar sdu, (sar, sdu) ∈ channel.delivered → sar ≠ .unseg → Assembled frames sdu

theorem Received.processIFrame {channel : Channel} (received : Received maxRxMtu frames channel)
    (frame : IFrame) :
    Received maxRxMtu (frames ++ [frame]) (processIFrame maxRxMtu channel frame) := by
  have before : ∀ sar sdu, (sar, sdu) ∈ channel.delivered → sar ≠ .unseg →
      Assembled (frames ++ [frame]) sdu :=
    fun sar sdu old segmented => .before (received.assembled sar sdu old segmented) frame
  rw [Sar.processIFrame]
  split
  case h_1 released => exact ⟨by simp [released], by simp [released], before⟩
  case h_2 fcrb still =>
    have filled := doSarReassembly_filled (received.bounded fcrb still) (received.holds fcrb still)
      frame
    refine ⟨fun next kept => ?_, fun next kept => ?_, fun sar sdu handed segmented => ?_⟩
    · obtain ⟨_, ⟨⟩⟩ := ite_none_right_eq_some.mp kept
      exact filled.bounded
    · obtain ⟨inOrder, ⟨⟩⟩ := ite_none_right_eq_some.mp kept
      exact filled.holds inOrder
    · rcases mem_append.mp handed with old | new
      · exact before sar sdu old segmented
      · simp only [mem_toList, map_eq_some_iff, Prod.mk.injEq] at new
        obtain ⟨_, completed, rfl, rfl⟩ := new
        exact filled.assembled _ completed segmented

theorem received_all (maxRxMtu : Nat) (frames : List IFrame) :
    Received maxRxMtu frames (frames.foldl (processIFrame maxRxMtu) opened) := by
  induction frames using reverseRecOn with
  | nil => exact ⟨by rintro _ ⟨⟩ _ ⟨⟩, by rintro _ ⟨⟩ _ ⟨⟩, by rintro _ _ ⟨⟩⟩
  | append_singleton frames frame ih =>
    rw [foldl_append]
    exact ih.processIFrame frame

/--
Whatever frames arrive, the buffer stays within the announced length and that within the MTU,
also behind a frame that is refused; a segmented SDU is put together from a start frame, its
continuations and its end frame, and has the announced length.
-/
theorem reassembly_safe (maxRxMtu : Nat) (frames : List IFrame) :
    (∀ fcrb, (frames.foldl (processIFrame maxRxMtu) opened).fcrb = some fcrb →
      Bounded maxRxMtu fcrb ∧
        ∀ frame, Bounded maxRxMtu (doSarReassembly maxRxMtu fcrb frame).fcrb) ∧
      ∀ sar sdu, (sar, sdu) ∈ (frames.foldl (processIFrame maxRxMtu) opened).delivered →
        sar ≠ .unseg → Assembled frames sdu := by
  have received := received_all maxRxMtu frames
  refine ⟨fun fcrb still => ?_, received.assembled⟩
  have bounded := received.bounded fcrb still
  exact ⟨bounded, fun frame =>
    (doSarReassembly_filled bounded (received.holds fcrb still) frame).bounded⟩

example : ([⟨.start, [3, 0, 1]⟩, ⟨.cont, [2]⟩, ⟨.end_, [3]⟩].foldl (processIFrame 9)
    opened).delivered = [(.end_, [1, 2, 3])] := by decide

end BluetoothFormal.L2cap.Sar
