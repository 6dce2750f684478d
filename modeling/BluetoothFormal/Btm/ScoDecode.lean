import BluetoothFormal.Foundation.Transition

/-!
# The receive buffer of a wideband SCO link

SCO packets are copied into a buffer of a whole number of mSBC frames; `decode` takes one frame
of 60 bytes after another out of it.  The offsets go back to the start of the buffer only when
the read offset meets the write offset.
-/

namespace BluetoothFormal.Btm.Wbs

open Foundation.Transition List

def msbcPktLen : Nat := 60

def h2HeaderFramesCount : List UInt8 := [0x08, 0x38, 0xc8, 0xf8]

/-- The supported packet sizes with the sizes of their buffers; the first is the fallback. -/
def getSupportedPacketSize (pktSize : Nat) : Nat × Nat :=
  if pktSize = 72 then (72, 360) else (msbcPktLen, msbcPktLen)

/-- The decoding half of `tBTM_MSBC_INFO`; `decodeBuf` is its buffer up to the write offset. -/
structure MsbcInfo where
  packetSize : Nat
  bufSize : Nat
  decodeBuf : List UInt8 := []
  decodeBufRo : Nat := 0
  readCorrupted : Bool := false

open MsbcInfo

variable {tries rp calls : Nat} {info : MsbcInfo}

namespace MsbcInfo

variable (info : MsbcInfo)

def init (pktSize : Nat) : MsbcInfo where
  packetSize := (getSupportedPacketSize pktSize).1
  bufSize := (getSupportedPacketSize pktSize).2

def decodeBufWo : Nat :=
  info.decodeBuf.length

def decodable : Nat :=
  info.decodeBufWo - info.decodeBufRo

def markPktDecoded : MsbcInfo :=
  if info.decodeBufRo + msbcPktLen > info.decodeBufWo then
    info
  else if info.decodeBufRo + msbcPktLen = info.decodeBufWo then
    { info with decodeBuf := [], decodeBufRo := 0 }
  else
    { info with decodeBufRo := info.decodeBufRo + msbcPktLen }

/-- The H2 header and the sync word of a frame stand at an offset of the buffer. -/
def headAt (offset : Nat) : Bool :=
  info.decodeBuf.getD offset 0 == 0x01 &&
    h2HeaderFramesCount.contains (info.decodeBuf.getD (offset + 1) 0) &&
    info.decodeBuf.getD (offset + 2) 0 == 0xad

/-- The loop of `find_msbc_pkt_head`, with the number of offsets it may still try. -/
def seekHead : Nat → Nat → Option Nat
  | 0, _ => none
  | tries + 1, rp =>
    if info.decodeBufRo + rp + msbcPktLen ≤ info.decodeBufWo then
      if info.headAt (info.decodeBufRo + rp) then some rp else seekHead tries (rp + 1)
    else
      none

/--
`decode`, with `none` where it returns 0.  A frame that is not found or that the codec refuses
is concealed; the offsets move in the same way.
-/
def decode : Option MsbcInfo :=
  if info.decodable < msbcPktLen then
    none
  else if info.readCorrupted then
    some { info with readCorrupted := false }.markPktDecoded
  else
    match info.seekHead msbcPktLen 0 with
    | none => some info.markPktDecoded
    | some rp => some { info with decodeBufRo := info.decodeBufRo + rp }.markPktDecoded

/-- `enqueue_packet`: the buffer and the returned size. -/
def enqueuePacket (data : List UInt8) (corrupted : Bool) : MsbcInfo × Nat :=
  if data.length ≠ info.packetSize then
    (info, 0)
  else if data.length > info.bufSize - info.decodeBufWo then
    ({ info with readCorrupted := info.readCorrupted || corrupted }, 0)
  else
    ({ info with
      readCorrupted := info.readCorrupted || corrupted
      decodeBuf := info.decodeBuf ++ data }, data.length)

/-- The calls of `decode` in `btm_route_sco_data`, at most so many. -/
def decodeLoop : Nat → MsbcInfo → MsbcInfo
  | 0, info => info
  | calls + 1, info =>
    match info.decode with
    | none => info
    | some next => decodeLoop calls next

/-- `decode` is called until it returns 0. -/
def decodeAll : MsbcInfo :=
  decodeLoop (info.decodable + 1) info

/-- A packet is received: `none` where it is not taken into the buffer. -/
def receive (packet : List UInt8 × Bool) : Option MsbcInfo :=
  match info.enqueuePacket packet.1 packet.2 with
  | (_, 0) => none
  | (written, _ + 1) => some written.decodeAll

/-! ## The calls of `decode` end -/

variable {info}

theorem seekHead_within {found : Nat} (some : info.seekHead tries rp = some found) :
    info.decodeBufRo + found + msbcPktLen ≤ info.decodeBufWo := by
  induction tries generalizing rp with
  | zero => cases some
  | succ tries ih =>
    obtain ⟨within, some⟩ := Option.ite_none_right_eq_some.mp some
    split at some
    · exact Option.some.inj some ▸ within
    · exact ih some

theorem markPktDecoded_last (last : info.decodeBufRo + msbcPktLen = info.decodeBufWo) :
    info.markPktDecoded = { info with decodeBuf := [], decodeBufRo := 0 } := by
  rw [markPktDecoded, if_neg (by omega), if_pos last]

theorem markPktDecoded_more (more : info.decodeBufRo + msbcPktLen < info.decodeBufWo) :
    info.markPktDecoded = { info with decodeBufRo := info.decodeBufRo + msbcPktLen } := by
  rw [markPktDecoded, if_neg (by omega), if_neg (by omega)]

theorem markPktDecoded_decodable (frame : info.decodeBufRo + msbcPktLen ≤ info.decodeBufWo) :
    info.markPktDecoded.decodable < info.decodable := by
  have positive : 0 < msbcPktLen := by decide
  rcases Nat.eq_or_lt_of_le frame with last | more
  · rw [markPktDecoded_last last]
    unfold decodable decodeBufWo at *
    simp only [length_nil]
    omega
  · rw [markPktDecoded_more more]
    unfold decodable decodeBufWo at *
    dsimp only
    omega

theorem decode_decodable {next : MsbcInfo} (decoded : info.decode = some next) :
    next.decodable < info.decodable := by
  rw [decode] at decoded
  split at decoded
  · cases decoded
  case isFalse enough =>
    have frame : info.decodeBufRo + msbcPktLen ≤ info.decodeBufWo := by
      unfold decodable msbcPktLen at *
      omega
    split at decoded
    · cases decoded
      exact @markPktDecoded_decodable { info with readCorrupted := false } frame
    · split at decoded
      · cases decoded
        exact markPktDecoded_decodable frame
      case h_2 rp found =>
        cases decoded
        have within := seekHead_within found
        have fewer := @markPktDecoded_decodable
          { info with decodeBufRo := info.decodeBufRo + rp } within
        refine Nat.lt_of_lt_of_le fewer ?_
        exact Nat.sub_le_sub_left (Nat.le_add_right _ _) _

theorem decodeLoop_ends (enough : info.decodable < calls) :
    (decodeLoop calls info).decode = none := by
  induction calls generalizing info with
  | zero => cases enough
  | succ calls ih =>
    rw [decodeLoop]
    cases decoded : info.decode with
    | none => exact decoded
    | some next => exact ih (by have := decode_decodable decoded; omega)

/-! ## Frames that stand where they are due -/

/--
Wherever a frame is due, its head stands there or nowhere in the bytes that are searched, so
that no bytes are skipped.
-/
def Unskipped (info : MsbcInfo) : Prop :=
  ∀ frame rp, 0 < rp → rp < msbcPktLen →
    info.headAt (info.decodeBufRo + frame * msbcPktLen) = false →
    info.decodeBufRo + frame * msbcPktLen + rp + msbcPktLen ≤ info.decodeBufWo →
    info.headAt (info.decodeBufRo + frame * msbcPktLen + rp) = false

theorem seekHead_none (absent : ∀ offset, rp ≤ offset → offset < rp + tries →
      info.decodeBufRo + offset + msbcPktLen ≤ info.decodeBufWo →
      info.headAt (info.decodeBufRo + offset) = false) :
    info.seekHead tries rp = none := by
  induction tries generalizing rp with
  | zero => rfl
  | succ tries ih =>
    rw [seekHead]
    split
    case isTrue fits =>
      rw [absent rp (Nat.le_refl rp) (by omega) fits]
      exact ih fun offset later tried => absent offset (Nat.le_of_succ_le later) (by omega)
    case isFalse => rfl

section

variable (unskipped : info.Unskipped)
include unskipped

theorem seekHead_of_unskipped :
    info.seekHead msbcPktLen 0 = none ∨ info.seekHead msbcPktLen 0 = some 0 := by
  cases head : info.headAt info.decodeBufRo with
  | true =>
    rw [msbcPktLen, seekHead]
    split
    · exact .inr (if_pos head)
    · exact .inl rfl
  | false =>
    refine .inl (seekHead_none fun offset _ tried fits => ?_)
    rcases Nat.eq_zero_or_pos offset with rfl | later
    · exact head
    · simpa using unskipped 0 offset later (by omega) (by simpa using head) (by simpa using fits)

theorem decode_of_unskipped (frame : info.decodeBufRo + msbcPktLen ≤ info.decodeBufWo) :
    info.decode = some { info with readCorrupted := false }.markPktDecoded := by
  have enough : ¬info.decodable < msbcPktLen := by
    unfold decodable
    omega
  rw [decode, if_neg enough]
  split
  · rfl
  case isFalse intact =>
    have same : { info with readCorrupted := false } = info := by
      rw [← Bool.eq_false_iff.mpr intact]
    rcases seekHead_of_unskipped unskipped with absent | found
    · rw [absent, same]
    · rw [found, same]
      rfl

theorem Unskipped.advance (flag : Bool) :
    Unskipped { info with
      decodeBufRo := info.decodeBufRo + msbcPktLen, readCorrupted := flag } := by
  intro frame rp positive
  have shift : info.decodeBufRo + msbcPktLen + frame * msbcPktLen =
      info.decodeBufRo + (frame + 1) * msbcPktLen := by
    rw [Nat.succ_mul]
    omega
  rw [shift]
  exact unskipped (frame + 1) rp positive

/--
What is left once `decode` returns 0: nothing, or less than a frame behind a whole number of
frames.
-/
theorem decodeLoop_of_unskipped (behind : info.decodeBufRo < info.decodeBufWo)
    (enough : info.decodable < calls) :
    ∃ buf ro flag, decodeLoop calls info =
        { info with decodeBuf := buf, decodeBufRo := ro, readCorrupted := flag } ∧
      (buf = [] ∧ ro = 0 ∨
        buf = info.decodeBuf ∧ ro < info.decodeBufWo ∧ info.decodeBufWo < ro + msbcPktLen ∧
          ∃ frames, ro = info.decodeBufRo + frames * msbcPktLen) := by
  induction calls generalizing info with
  | zero => cases enough
  | succ calls ih =>
    rw [decodeLoop]
    rcases Nat.lt_or_ge info.decodeBufWo (info.decodeBufRo + msbcPktLen) with short | frame
    · have ended : info.decode = none := if_pos (by unfold decodable; omega)
      rw [ended]
      exact ⟨_, _, _, rfl, .inr ⟨rfl, behind, short, 0, by rw [Nat.zero_mul, Nat.add_zero]⟩⟩
    · have decoded := decode_of_unskipped unskipped frame
      have fewer := decode_decodable decoded
      rw [decoded]
      rcases Nat.eq_or_lt_of_le frame with last | more
      · rw [@markPktDecoded_last { info with readCorrupted := false } last]
        refine ⟨[], 0, false, ?_, .inl ⟨rfl, rfl⟩⟩
        cases calls with
        | zero | succ => rfl
      · rw [@markPktDecoded_more { info with readCorrupted := false } more] at fewer ⊢
        obtain ⟨buf, ro, flag, ended, left⟩ := ih (unskipped.advance false) more
          (Nat.lt_of_lt_of_le fewer (Nat.le_of_lt_succ enough))
        refine ⟨buf, ro, flag, ended, left.imp_right ?_⟩
        rintro ⟨same, before, short, frames, rfl⟩
        refine ⟨same, before, short, frames + 1, ?_⟩
        rw [Nat.succ_mul]
        dsimp only
        omega

end

end MsbcInfo

/-! ## The buffer never fills up -/

/-- A packet of 60 bytes, or one behind which no bytes of the buffer are skipped. -/
def Aligned (info : MsbcInfo) (packet : List UInt8 × Bool) : Prop :=
  info.packetSize = msbcPktLen ∨
    MsbcInfo.Unskipped { info with decodeBuf := info.decodeBuf ++ packet.1 }

structure Waiting (info : MsbcInfo) : Prop where
  sizes : info.packetSize = 60 ∧ info.bufSize = 60 ∨ info.packetSize = 72 ∧ info.bufSize = 360
  packets : info.packetSize ∣ info.decodeBufWo
  frames : msbcPktLen ∣ info.decodeBufRo
  behind : info.decodeBufRo ≤ info.decodeBufWo
  short : info.decodeBufWo < info.decodeBufRo + msbcPktLen
  room : info.decodeBufWo < info.bufSize

theorem Waiting.receive {packet : List UInt8 × Bool} (waiting : Waiting info)
    (sized : packet.1.length = info.packetSize) (aligned : Aligned info packet) :
    ∃ next, info.receive packet = some next ∧ Waiting next ∧ next.packetSize = info.packetSize := by
  obtain ⟨sizes, packets, frames, behind, -, room⟩ := waiting
  obtain ⟨written, writtenEq⟩ : ∃ written : MsbcInfo, written = { info with
      readCorrupted := info.readCorrupted || packet.2
      decodeBuf := info.decodeBuf ++ packet.1 } := ⟨_, rfl⟩
  have length : written.decodeBufWo = info.decodeBufWo + info.packetSize := by
    rw [writtenEq, ← sized]
    exact length_append
  have fits : info.decodeBufWo + info.packetSize ≤ info.bufSize := by
    obtain ⟨count, countEq⟩ := packets
    rcases sizes with ⟨size, buffer⟩ | ⟨size, buffer⟩ <;> rw [size] at countEq ⊢ <;> omega
  have unskipped : written.Unskipped := by
    rcases aligned with sixty | unskipped
    · -- the buffer has no place for a frame behind the one that is due
      intro frame rp positive _ _ within
      rw [length] at within
      unfold msbcPktLen at *
      omega
    · rw [writtenEq]
      exact unskipped
  have ro : written.decodeBufRo = info.decodeBufRo := by rw [writtenEq]
  obtain ⟨buf, last, flag, ended, left⟩ := decodeLoop_of_unskipped unskipped
    (by omega) (Nat.lt_succ_self written.decodable)
  have next : written.decodeAll = { written with
      decodeBuf := buf, decodeBufRo := last, readCorrupted := flag } := ended
  have packetSize : written.decodeAll.packetSize = info.packetSize := by rw [next, writtenEq]
  have bufSize : written.decodeAll.bufSize = info.bufSize := by rw [next, writtenEq]
  refine ⟨written.decodeAll, ?_, ?_, packetSize⟩
  · have taken : info.enqueuePacket packet.1 packet.2 = (written, packet.1.length) := by
      rw [enqueuePacket, if_neg (by simp [sized]), if_neg (by omega), writtenEq]
    obtain ⟨rest, restEq⟩ : ∃ rest, packet.1.length = rest + 1 :=
      Nat.exists_eq_add_one.mpr (by omega)
    rw [MsbcInfo.receive, taken, restEq]
  · rcases left with ⟨rfl, rfl⟩ | ⟨rfl, before, less, count, rfl⟩
    · have wo : written.decodeAll.decodeBufWo = 0 := by rw [next]; rfl
      have readAt : written.decodeAll.decodeBufRo = 0 := by rw [next]
      refine ⟨by rwa [packetSize, bufSize], ?_, ?_, ?_, ?_, ?_⟩
      · simp [wo]
      · simp [readAt]
      · omega
      · simp [wo, readAt, msbcPktLen]
      · omega
    · have wo : written.decodeAll.decodeBufWo = info.decodeBufWo + info.packetSize := by
        rw [next]
        exact length
      have readAt : written.decodeAll.decodeBufRo = info.decodeBufRo + count * msbcPktLen := by
        rw [next, ← ro]
      have whole : msbcPktLen ∣ info.decodeBufRo + count * msbcPktLen :=
        Nat.dvd_add frames (Nat.dvd_mul_left _ _)
      refine ⟨by rwa [packetSize, bufSize], ?_, ?_, ?_, ?_, ?_⟩
      · rw [packetSize, wo]
        exact Nat.dvd_add packets (Nat.dvd_refl _)
      · rwa [readAt]
      · omega
      · omega
      · -- a full buffer is a whole number of frames, so nothing would be left of it
        unfold msbcPktLen at *
        omega

theorem waiting_init {pktSize : Nat} (supported : pktSize = 60 ∨ pktSize = 72) :
    Waiting (init pktSize) := by
  rcases supported with rfl | rfl
  · exact ⟨.inl ⟨rfl, rfl⟩, Nat.dvd_zero _, Nat.dvd_zero _, Nat.le_refl 0, by decide, by decide⟩
  · exact ⟨.inr ⟨rfl, rfl⟩, Nat.dvd_zero _, Nat.dvd_zero _, Nat.le_refl 0, by decide, by decide⟩

/--
While no bytes have to be skipped, every packet is taken into the buffer, and the calls of
`decode` come to an end after each of them.
-/
theorem packets_enqueued (pktSize : Nat) (supported : pktSize = 60 ∨ pktSize = 72)
    (packets : List (List UInt8 × Bool)) (sized : ∀ packet ∈ packets, packet.1.length = pktSize)
    (aligned : Along receive Aligned (init pktSize) packets) :
    (∃ last, run receive (init pktSize) packets = some last) ∧
      ∀ info : MsbcInfo, info.decodeAll.decode = none := by
  refine ⟨?_, fun info => decodeLoop_ends (Nat.lt_succ_self _)⟩
  have progress : ∀ info packet,
      Waiting info ∧ info.packetSize = pktSize → Aligned info packet ∧ packet.1.length = pktSize →
      ∃ next, info.receive packet = some next ∧ Waiting next ∧ next.packetSize = pktSize := by
    rintro info packet ⟨waiting, size⟩ ⟨fits, length⟩
    obtain ⟨next, taken, after, same⟩ := waiting.receive (length.trans size.symm) fits
    exact ⟨next, taken, after, same.trans size⟩
  have start : Waiting (init pktSize) ∧ (init pktSize).packetSize = pktSize := by
    refine ⟨waiting_init supported, ?_⟩
    rcases supported with rfl | rfl <;> rfl
  have guarded := along_and aligned (along_of_mem (fun packet member _ => sized packet member) _)
  obtain ⟨last, reached, _⟩ := run_of_along progress start guarded
  exact ⟨last, reached⟩

/-- A packet of zeros. -/
def silence : List UInt8 × Bool :=
  (replicate 72 0, false)

theorem unskipped_of_silent (silent : info.decodeBuf.all (· == 0) = true) :
    info.Unskipped := by
  intro frame rp _ _ _ _
  have zero : ∀ offset, info.decodeBuf.getD offset 0 = 0 := by
    intro offset
    rw [getD_eq_getElem?_getD]
    cases found : info.decodeBuf[offset]? with
    | none => rfl
    | some byte =>
      have member := all_eq_true.mp silent byte (mem_of_getElem? found)
      exact eq_of_beq member
  rw [headAt, zero]
  rfl

/-- Two packets without a frame; 24 bytes are left of them. -/
theorem packets_enqueued_silence :
    ∃ last, run receive (init 72) [silence, silence] = some last := by
  refine (packets_enqueued 72 (.inr rfl) [silence, silence] (by decide) ⟨?_, ?_, trivial⟩).1
  · exact .inr (unskipped_of_silent (by decide))
  · exact .inr (unskipped_of_silent (by decide))

/-- A head one byte behind the place where it is due, and then silence. -/
def lateFrame : List UInt8 × Bool :=
  ([0, 0x01, 0x08, 0xad] ++ replicate 68 0, false)

/--
After a late frame and four packets the buffer is full with 59 bytes that `decode` leaves; no
packet is taken into it any more.
-/
theorem late_frame_stalls :
    ∃ full, run receive (init 72) [lateFrame, silence, silence, silence, silence] = some full ∧
      full.decodeBufWo = 360 ∧ full.decodeBufRo = 301 ∧ ∀ packet, full.receive packet = none := by
  have reached : (run receive (init 72)
      [lateFrame, silence, silence, silence, silence]).map (fun full =>
        (full.packetSize, full.bufSize, full.decodeBufWo, full.decodeBufRo)) =
      some (72, 360, 360, 301) := by
    decide +kernel
  obtain ⟨full, runs, fields⟩ := Option.map_eq_some_iff.mp reached
  simp only [Prod.mk.injEq] at fields
  obtain ⟨packetSize, bufSize, wo, ro⟩ := fields
  refine ⟨full, runs, wo, ro, fun packet => ?_⟩
  have refused : (full.enqueuePacket packet.1 packet.2).2 = 0 := by
    rw [enqueuePacket]
    split
    · rfl
    case isFalse sized =>
      rw [if_pos (by omega)]
  rw [receive]
  split
  · rfl
  case h_2 written rest taken =>
    rw [taken] at refused
    cases refused

namespace MsbcInfo

inductive Call where
  | enqueuePacket (data : List UInt8) (corrupted : Bool)
  | decode

/-- A call of `decode` that returns 0 changes nothing. -/
def call (info : MsbcInfo) : Call → MsbcInfo
  | .enqueuePacket data corrupted => (info.enqueuePacket data corrupted).1
  | .decode => info.decode.getD info

structure InBounds (size : Nat) (info : MsbcInfo) : Prop where
  read : info.decodeBufRo ≤ info.decodeBufWo
  written : info.decodeBufWo ≤ info.bufSize
  sized : info.bufSize = size

variable {size : Nat}

theorem InBounds.markPktDecoded (inBounds : InBounds size info) :
    InBounds size info.markPktDecoded := by
  obtain ⟨read, written, sized⟩ := inBounds
  rw [MsbcInfo.markPktDecoded]
  split
  · exact ⟨read, written, sized⟩
  · split
    · exact ⟨Nat.le_refl 0, Nat.zero_le _, sized⟩
    · exact ⟨Nat.le_of_not_lt ‹_›, written, sized⟩

theorem InBounds.call (inBounds : InBounds size info) (call : Call) :
    InBounds size (info.call call) := by
  obtain ⟨read, written, sized⟩ := inBounds
  cases call with
  | enqueuePacket data corrupted =>
    rw [MsbcInfo.call, enqueuePacket]
    split
    · exact ⟨read, written, sized⟩
    · split
      · exact ⟨read, written, sized⟩
      · constructor <;> simp [decodeBufWo] at * <;> omega
  | decode =>
    rw [MsbcInfo.call, MsbcInfo.decode]
    split
    · exact ⟨read, written, sized⟩
    · split
      · exact InBounds.markPktDecoded ⟨read, written, sized⟩
      · split
        · exact InBounds.markPktDecoded ⟨read, written, sized⟩
        case h_2 rp found =>
          have within := Nat.le_of_add_right_le (seekHead_within found)
          exact InBounds.markPktDecoded ⟨within, written, sized⟩

/-- The offsets stay inside of the buffer, whatever is received and whenever it is decoded. -/
theorem offsets_in_bounds (pktSize : Nat) (calls : List Call) :
    InBounds (getSupportedPacketSize pktSize).2 (calls.foldl call (init pktSize)) :=
  invariant_foldl (fun _ call inBounds => inBounds.call call) ⟨Nat.le_refl 0, Nat.zero_le _, rfl⟩
    calls

end MsbcInfo

end BluetoothFormal.Btm.Wbs
