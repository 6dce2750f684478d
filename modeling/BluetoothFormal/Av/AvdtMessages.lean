import BluetoothFormal.Av.MsgAssembly

/-!
# The messages of the distribution protocol

A message that is longer than the peer takes is sent in fragments.  How far the message is sent
is kept only in the offset and the length of its buffer, so that a call can be interrupted by
congestion after any packet.
-/

namespace BluetoothFormal.Av.Avdt

open Foundation.Fragments L2cap List Option BtHdr

/-! ## The sender -/

/-- The fields of a message that its buffer carries beside its contents. -/
structure MsgHdr where
  label : Fin 16
  msg : Fin 4
  sig : Fin 64

def msgPktTypeLen : PktType → Nat
  | .single => 2
  | .start => 3
  | .cont => 1
  | .end_ => 1

def avdtNumSeps : Nat := 12
def avdtMsgOffset : Nat := l2capMinOffset + avdtNumSeps + msgPktTypeLen .start
def avdtCmdBufSize : Nat := 660

/-- The header of a packet, in front of its part of the message. -/
def buildHeader (hdr : MsgHdr) (type : PktType) (nosp : Nat) : List UInt8 :=
  match type with
  | .single => [buildHdr hdr.label .single hdr.msg, UInt8.ofNat hdr.sig.val]
  | .start =>
    [buildHdr hdr.label .start hdr.msg, UInt8.ofNat nosp, UInt8.ofNat hdr.sig.val]
  | type => [buildHdr hdr.label type hdr.msg]

/-- A new buffer with a portion of the message. -/
def newFragment : BtHdr → Nat → Nat → Option BtHdr := BtHdr.newFragment avdtCmdBufSize

section

variable (peerMtu : Nat)

/-- The kind of the next packet, and its buffer without the header. -/
def nextPacket (msg : BtHdr) : Option (PktType × BtHdr) :=
  if msg.offset = avdtMsgOffset ∧ msg.len ≤ peerMtu - msgPktTypeLen .single then
    some (.single, msg)
  else if msg.offset = avdtMsgOffset ∧ msg.len > peerMtu - msgPktTypeLen .single then
    (newFragment msg (msgPktTypeLen .start) (peerMtu - msgPktTypeLen .start)).map (.start, ·)
  else if msg.offset > avdtMsgOffset ∧ msg.len > peerMtu - msgPktTypeLen .cont then
    (newFragment msg (msgPktTypeLen .cont) (peerMtu - msgPktTypeLen .cont)).map (.cont, ·)
  else some (.end_, msg)

/-- The number of packets that a start packet tells. -/
def nosp (msg : BtHdr) : Nat :=
  ((msg.len + msgPktTypeLen .start - peerMtu) / (peerMtu - 1) + 2) % 256

/-- One round of the loop of `avdt_msg_send`: a packet, and what is left of the message. -/
def msgSendStep (hdr : MsgHdr) (msg : BtHdr) : Option (BtHdr × Option BtHdr) :=
  (nextPacket peerMtu msg).bind fun (type, buf) =>
    (buf.stepBack (buildHeader hdr type (nosp peerMtu msg))).map fun packet =>
      -- `curr_msg_len` is the length of the current message
      (packet, if msg.len - buf.len = 0 then none else some (msg.advance buf.len))

/-- Calls of `avdt_msg_send` for one message, each until the channel is congested. -/
def msgSends (hdr : MsgHdr) (calls : List Nat) (msg : BtHdr) : Option (List BtHdr × Option BtHdr) :=
  bursts (msgSendStep peerMtu hdr) calls msg

end

def msgAsmbl : Option RxMsg → BtHdr → Option BtHdr × Option RxMsg := Av.msgAsmbl msgPktTypeLen false

/-! ## The packets of a message -/

section Sender

variable {peerMtu : Nat} {hdr : MsgHdr} {msg : BtHdr}

theorem newFragment_eq_none {hdrLen len : Nat} (size : avdtCmdBufSize < len + hdrLen + 21) :
    newFragment msg hdrLen len = none := by
  refine if_neg fun fits => ?_
  have fits := fits.1
  simp only [headerSize, l2capMinOffset] at fits
  omega

theorem msgSendStep_last {type : PktType} (next : nextPacket peerMtu msg = some (type, msg))
    (room : (buildHeader hdr type (nosp peerMtu msg)).length ≤ msg.offset) :
    ∃ packet, msgSendStep peerMtu hdr msg = some (packet, none) ∧
      packet.contents = buildHeader hdr type (nosp peerMtu msg) ++ msg.contents := by
  obtain ⟨packet, stepped, contents, -⟩ := stepBack_of_room _ room
  refine ⟨packet, ?_, contents⟩
  rw [msgSendStep, next, bind_some]
  dsimp only
  rw [stepped, map_some, Nat.sub_self, if_pos rfl]

theorem msgSendStep_more {type : PktType} {buf : BtHdr}
    (next : nextPacket peerMtu msg = some (type, buf)) (less : buf.len < msg.len)
    (room : (buildHeader hdr type (nosp peerMtu msg)).length ≤ buf.offset) :
    ∃ packet, msgSendStep peerMtu hdr msg = some (packet, some (msg.advance buf.len)) ∧
      packet.contents = buildHeader hdr type (nosp peerMtu msg) ++ buf.contents := by
  obtain ⟨packet, stepped, contents, -⟩ := stepBack_of_room _ room
  refine ⟨packet, ?_, contents⟩
  rw [msgSendStep, next, bind_some]
  dsimp only
  rw [stepped, map_some, if_neg (Nat.sub_ne_zero_of_lt less)]

theorem emits_continued {items : List UInt8} {pieces : List (List UInt8)} (large : 48 ≤ peerMtu)
    (small : peerMtu ≤ 639) (cut : Cut (peerMtu - 1) items pieces)
    (begun : avdtMsgOffset < msg.offset) (contents : msg.contents = items) :
    ∃ packets, Emits (msgSendStep peerMtu hdr) msg packets ∧ packets.map BtHdr.contents =
        marked [buildHdr hdr.label .cont hdr.msg] [buildHdr hdr.label .end_ hdr.msg] pieces := by
  induction cut generalizing msg with
  | @last items short =>
    have len : msg.len ≤ peerMtu - 1 := len_eq contents ▸ short
    have next : nextPacket peerMtu msg = some (.end_, msg) := by
      rw [nextPacket, if_neg fun both => Nat.ne_of_gt begun both.1,
        if_neg fun both => Nat.ne_of_gt begun both.1, if_neg fun both => Nat.not_lt.mpr len both.2]
    obtain ⟨packet, taken, same⟩ := @msgSendStep_last peerMtu hdr msg _ next (Nat.one_le_of_lt begun)
    refine ⟨[packet], .last taken, ?_⟩
    rw [map_singleton, same, contents]
    rfl
  | @more items pieces long rest ih =>
    have len : peerMtu - 1 < msg.len := len_eq contents ▸ long
    obtain ⟨buf, fragment, portion, bufLen, bufOffset⟩ :=
      @newFragment_eq msg avdtCmdBufSize 1 (peerMtu - 1) (by simp only [avdtCmdBufSize]; omega)
        (Nat.le_of_lt len)
    have next : nextPacket peerMtu msg = some (.cont, buf) := by
      rw [nextPacket, if_neg fun both => Nat.ne_of_gt begun both.1,
        if_neg fun both => Nat.ne_of_gt begun both.1, if_pos ⟨begun, len⟩]
      exact congrArg (Option.map _) fragment
    obtain ⟨packet, taken, same⟩ := @msgSendStep_more peerMtu hdr msg _ buf next
      (by rw [bufLen]; exact len) (by rw [bufOffset]; exact Nat.le_add_left 1 _)
    have within : buf.len ≤ msg.len := by omega
    have left : (msg.advance buf.len).contents = items.drop (peerMtu - 1) := by
      rw [contents_advance within, contents, bufLen]
    have later : avdtMsgOffset < (msg.advance buf.len).offset :=
      Nat.lt_of_lt_of_le begun (Nat.le_add_right _ _)
    obtain ⟨packets, emits, marks⟩ := ih later left
    refine ⟨packet :: packets, .more taken emits, ?_⟩
    rw [map_cons, marks, same, portion, contents]
    obtain ⟨-, -, rfl⟩ := exists_cons_of_ne_nil rest.ne_nil
    rfl

variable {payload : List UInt8} (offset : msg.offset = avdtMsgOffset)
  (contents : msg.contents = payload)

include offset contents

theorem emits_single (short : payload.length ≤ peerMtu - 2) :
    ∃ packet, Emits (msgSendStep peerMtu hdr) msg [packet] ∧
      packet.contents = [buildHdr hdr.label .single hdr.msg, UInt8.ofNat hdr.sig.val] ++ payload := by
  have len : msg.len ≤ peerMtu - 2 := len_eq contents ▸ short
  have room : 2 ≤ msg.offset := by
    rw [offset]
    decide
  obtain ⟨packet, taken, same⟩ := @msgSendStep_last peerMtu hdr msg .single
    (if_pos ⟨offset, len⟩) room
  exact ⟨packet, .last taken, by rw [same, contents]; rfl⟩

theorem emits_fragments (large : 48 ≤ peerMtu) (small : peerMtu ≤ 639)
    (long : peerMtu - 2 < payload.length) :
    ∃ packets pieces, Emits (msgSendStep peerMtu hdr) msg packets ∧
      Cut (peerMtu - 1) (payload.drop (peerMtu - 3)) pieces ∧ packets.map BtHdr.contents =
        ([buildHdr hdr.label .start hdr.msg, UInt8.ofNat (nosp peerMtu msg),
          UInt8.ofNat hdr.sig.val] ++ payload.take (peerMtu - 3)) ::
        marked [buildHdr hdr.label .cont hdr.msg] [buildHdr hdr.label .end_ hdr.msg] pieces := by
  have len := len_eq contents
  obtain ⟨buf, fragment, portion, bufLen, bufOffset⟩ := @newFragment_eq msg avdtCmdBufSize 3
    (peerMtu - 3) (by simp only [avdtCmdBufSize]; omega) (by omega)
  have next : nextPacket peerMtu msg = some (.start, buf) := by
    have exceeds : msg.len > peerMtu - 2 := by omega
    rw [nextPacket, if_neg fun both => Nat.not_le.mpr exceeds both.2, if_pos ⟨offset, exceeds⟩]
    exact congrArg (Option.map _) fragment
  obtain ⟨packet, taken, same⟩ := @msgSendStep_more peerMtu hdr msg .start buf next (by omega)
    (by rw [bufOffset]; exact Nat.le_add_left 3 _)
  have left : (msg.advance buf.len).contents = payload.drop (peerMtu - 3) := by
    rw [contents_advance (by omega), contents, bufLen]
  have begun : avdtMsgOffset < (msg.advance buf.len).offset := by
    show avdtMsgOffset < msg.offset + min buf.len msg.len
    omega
  obtain ⟨pieces, cut⟩ := exists_cut (show 0 < peerMtu - 1 by omega) (payload.drop (peerMtu - 3))
  obtain ⟨packets, emits, marks⟩ := @emits_continued peerMtu hdr _ _ _ large small cut begun left
  refine ⟨packet :: packets, pieces, .more taken emits, cut, ?_⟩
  rw [map_cons, marks, same, portion, contents]
  rfl

theorem msgSendStep_eq_none (large : 639 < peerMtu) (long : peerMtu - 2 < payload.length) :
    msgSendStep peerMtu hdr msg = none := by
  have exceeds : msg.len > peerMtu - 2 := len_eq contents ▸ long
  have fragment : newFragment msg 3 (peerMtu - 3) = none :=
    newFragment_eq_none (by simp only [avdtCmdBufSize]; omega)
  have next : nextPacket peerMtu msg = none := by
    rw [nextPacket, if_neg fun both => Nat.not_le.mpr exceeds both.2, if_pos ⟨offset, exceeds⟩]
    exact congrArg (Option.map _) fragment
  rw [msgSendStep, next]
  rfl

end Sender

/-! ## Sending and receiving -/

/-- A message with its header fields. -/
structure Carries (hdr : MsgHdr) (payload : List UInt8) (msg : BtHdr) : Prop where
  label : prsLabel (msg.contents.getD 0 0) = hdr.label
  msgType : prsMsg (msg.contents.getD 0 0) = hdr.msg
  sig : (msg.contents.getD 1 0).toNat &&& 0x3F = hdr.sig
  payload : msg.contents.drop 2 = payload

/--
Packets of bounded size, with their number in the start packet, that an idle peer puts together
to one message.  The peer has them in buffers of its own, with some room in front.
-/
structure Exchanged (peerMtu room : Nat) (hdr : MsgHdr) (payload : List UInt8)
    (packets : List BtHdr) : Prop where
  bounded : ∀ packet ∈ packets, packet.len ≤ peerMtu
  counted : ∀ packet ∈ packets, prsPktType (packet.contents.getD 0 0) = .start →
    (packet.contents.getD 1 0).toNat = packets.length
  assembled : ∀ received : List BtHdr,
    received.map contents = packets.map contents → (∀ first ∈ received.head?, first.offset ≤ room) →
        ∃ msg, assembleAll msgAsmbl none received = ([msg], none) ∧ Carries hdr payload msg

theorem carries_of_contents {hdr : MsgHdr} {payload : List UInt8} {msg : BtHdr} {type : PktType}
    (contents : msg.contents =
      buildHdr hdr.label type hdr.msg :: UInt8.ofNat hdr.sig.val :: payload) :
    Carries hdr payload msg := by
  obtain ⟨label, -, msgType⟩ := prs_buildHdr hdr.label type hdr.msg
  have sig : ∀ sig : Fin 64, (UInt8.ofNat sig.val).toNat &&& 0x3F = sig.val := by decide
  refine ⟨?_, ?_, ?_, ?_⟩ <;> rw [contents]
  · exact label
  · exact msgType
  · exact sig hdr.sig
  · rfl

section Exchange

variable {peerMtu room : Nat} {hdr : MsgHdr} {payload : List UInt8} {packets : List BtHdr}

theorem exchanged_single {packet : BtHdr} (large : 48 ≤ peerMtu)
    (short : payload.length ≤ peerMtu - 2)
    (contents : packet.contents =
      [buildHdr hdr.label .single hdr.msg, UInt8.ofNat hdr.sig.val] ++ payload) :
    Exchanged peerMtu room hdr payload [packet] where
  bounded := by
    intro other listed
    rw [mem_singleton.mp listed, ← packet.length_contents, contents]
    show payload.length + 2 ≤ peerMtu
    omega
  counted := by
    intro other listed start
    rw [mem_singleton.mp listed, contents] at start
    have type := (prs_buildHdr hdr.label .single hdr.msg).2.1
    cases type.symm.trans start
  assembled := by
    intro received same _
    rw [map_singleton, contents] at same
    obtain ⟨msg, assembled, whole⟩ := @single_assembled msgPktTypeLen false _ _ received
      (prs_buildHdr hdr.label .single hdr.msg).2.1 (Nat.le_add_left 2 _) same
      fun checks => by cases checks
    exact ⟨msg, assembled, carries_of_contents whole⟩

variable {count : Nat} {pieces : List (List UInt8)} (contents : packets.map contents =
    ([buildHdr hdr.label .start hdr.msg, UInt8.ofNat count, UInt8.ofNat hdr.sig.val] ++
      payload.take (peerMtu - 3)) ::
    marked [buildHdr hdr.label .cont hdr.msg] [buildHdr hdr.label .end_ hdr.msg] pieces)

include contents

theorem exchanged_fragments_iff (large : 48 ≤ peerMtu) (long : peerMtu - 2 < payload.length)
    (fits : room + 3 + payload.length ≤ rxSize)
    (cut : Cut (peerMtu - 1) (payload.drop (peerMtu - 3)) pieces) :
    Exchanged peerMtu room hdr payload packets ↔ count % 256 = pieces.length + 1 := by
  have octets := headerOctets_buildHdr hdr.label hdr.msg
  obtain ⟨front, whole⟩ : ∃ front, front = UInt8.ofNat hdr.sig.val :: payload.take (peerMtu - 3) :=
    ⟨_, rfl⟩
  replace contents : packets.map BtHdr.contents =
      (buildHdr hdr.label .start hdr.msg :: UInt8.ofNat count :: front) ::
        marked [buildHdr hdr.label .cont hdr.msg] [buildHdr hdr.label .end_ hdr.msg] pieces := by
    rw [contents, whole]
    rfl
  have length : front.length = peerMtu - 2 := by
    rw [whole, length_cons, length_take]
    omega
  have size : pieces.flatten.length = payload.length - (peerMtu - 3) := by
    rw [cut.flatten, length_drop]
  refine ⟨fun exchanged => (packets_counted_iff octets contents).mp exchanged.counted,
    fun counted => ⟨?bounded, (packets_counted_iff octets contents).mpr counted, ?assembled⟩⟩
  case bounded =>
    refine packets_bounded contents (by omega) fun piece mem => ?_
    have short := cut.length_le piece mem
    omega
  case assembled =>
    intro received same head
    obtain ⟨msg, assembled, data⟩ := @packets_assembled _ _ _ _ _ _ _ octets contents msgPktTypeLen
      false room ⟨Nat.le_refl 1, Nat.le_refl 1⟩ (by rw [msgPktTypeLen]; omega) cut.ne_nil
      (by omega) received same head fun checks => by cases checks
    refine ⟨msg, assembled, @carries_of_contents hdr payload msg .start ?_⟩
    rw [data, whole, cut.flatten, cons_append, take_append_drop]

end Exchange

theorem div_pred_iff {number size : Nat} (positive : 0 < number) :
    number / size = (number - 1) / size ↔ ¬size ∣ number := by
  obtain ⟨-, rfl⟩ := Nat.exists_eq_succ_of_ne_zero (Nat.ne_zero_of_lt positive)
  rw [Nat.succ_div, Nat.succ_sub_one]
  split
  case isTrue multiple => exact iff_of_false (Nat.succ_ne_self _) (not_not.mpr multiple)
  case isFalse other => exact iff_of_true rfl other

/-- The number in the start packet is one too large if the packets are all full. -/
theorem nosp_eq_iff {peerMtu : Nat} {payload : List UInt8} {msg : BtHdr}
    {pieces : List (List UInt8)} (large : 48 ≤ peerMtu) (bounded : payload.length ≤ rxSize)
    (long : peerMtu - 2 < payload.length) (contents : msg.contents = payload)
    (cut : Cut (peerMtu - 1) (payload.drop (peerMtu - 3)) pieces) :
    nosp peerMtu msg % 256 = pieces.length + 1 ↔
      ¬(peerMtu - 1) ∣ (payload.length + 3 - peerMtu) := by
  have len := len_eq contents
  have left : (payload.drop (peerMtu - 3)).length = payload.length + 3 - peerMtu := by
    rw [length_drop]
    omega
  have bound : (payload.length + 3 - peerMtu) / (peerMtu - 1) ≤ 4104 / 47 :=
    Nat.div_le_div (by simp only [rxSize, btDefaultBufferSize, headerSize] at bounded; omega)
      (by omega) (by decide)
  have count : nosp peerMtu msg % 256 = (payload.length + 3 - peerMtu) / (peerMtu - 1) + 2 := by
    rw [nosp, len, msgPktTypeLen, Nat.mod_mod]
    exact Nat.mod_eq_of_lt (by omega)
  rw [count, cut.length_eq (by omega), left, ← div_pred_iff (by omega)]
  omega

/--
Whatever the congestion between the packets of a message, they are exchanged exactly if the
message is not fragmented, or its fragments fit into their buffers and the last packet is not
full.
-/
theorem message_exchanged_iff {peerMtu room : Nat} (hdr : MsgHdr) {payload : List UInt8}
    {msg : BtHdr} (large : 48 ≤ peerMtu) (fits : room + 3 + payload.length ≤ rxSize)
    (offset : msg.offset = avdtMsgOffset) (contents : msg.contents = payload) (calls : List Nat) :
    (∃ packets, msgSends peerMtu hdr (calls ++ [payload.length + 1]) msg = some (packets, none) ∧
      Exchanged peerMtu room hdr payload packets) ↔ (peerMtu - 2 < payload.length →
        peerMtu ≤ 639 ∧ ¬(peerMtu - 1) ∣ (payload.length + 3 - peerMtu)) := by
  by_cases long : peerMtu - 2 < payload.length
  · rw [forall_prop_of_true long]
    by_cases small : peerMtu ≤ 639
    · obtain ⟨packets, pieces, emits, cut, parts⟩ :=
        @emits_fragments peerMtu hdr msg payload offset contents large small long
      have enough : packets.length ≤ payload.length + 1 := by
        have number := cut.length_eq (show 0 < peerMtu - 1 by omega)
        have few := Nat.div_le_self ((payload.drop (peerMtu - 3)).length - 1) (peerMtu - 1)
        have length := congrArg List.length parts
        rw [length_map, length_cons, length_marked] at length
        rw [length_drop] at few number
        omega
      have sent : msgSends peerMtu hdr (calls ++ [payload.length + 1]) msg = some (packets, none) :=
        bursts_eq emits calls enough
      rw [and_iff_right small, ← nosp_eq_iff large (by omega) long contents cut,
        ← @exchanged_fragments_iff _ room hdr _ _ _ _ parts large long fits cut, sent]
      constructor
      · rintro ⟨_, ⟨⟩, exchanged⟩
        exact exchanged
      · exact fun exchanged => ⟨packets, rfl, exchanged⟩
    · have stuck := @msgSendStep_eq_none peerMtu hdr msg payload offset contents
        (Nat.not_le.mp small) long
      have nothing : msgSends peerMtu hdr (calls ++ [payload.length + 1]) msg = none :=
        bursts_eq_none stuck calls (Nat.succ_pos _)
      rw [nothing]
      exact iff_of_false (by rintro ⟨_, ⟨⟩, _⟩) fun both => small both.1
  · obtain ⟨packet, emits, same⟩ :=
      @emits_single peerMtu hdr msg payload offset contents (Nat.not_lt.mp long)
    have sent : msgSends peerMtu hdr (calls ++ [payload.length + 1]) msg = some ([packet], none) :=
      bursts_eq emits calls (Nat.le_add_left 1 _)
    exact iff_of_true ⟨[packet], sent, exchanged_single large (Nat.not_lt.mp long) same⟩
      fun also => absurd also long

/-- The buffer of a message of some octets. -/
def msgOf (length : Nat) : BtHdr :=
  .withRoom 0 (List.replicate avdtMsgOffset 0) (List.replicate length 0)

theorem message_exchanged_congested :
    ∃ packets, msgSends 48 ⟨1, 2, 12⟩ ([1, 0] ++ [61]) (msgOf 60) = some (packets, none) ∧
      Exchanged 48 8 ⟨1, 2, 12⟩ (List.replicate 60 0) packets :=
  (message_exchanged_iff ⟨1, 2, 12⟩ (by decide) (by decide) rfl
    (contents_withRoom _ _ _) [1, 0]).mpr fun _ => ⟨by decide, by decide⟩

/-- Two packets that are full are announced as three. -/
theorem full_packets_miscounted :
    (msgSends 48 ⟨1, 2, 12⟩ [93] (msgOf 92)).map (fun sent =>
      (sent.1.map fun packet => (packet.len, packet.contents.take 2), sent.2)) =
      some ([(48, [0x16, 3]), (48, [0x1E, 0])], none) := by
  decide

end BluetoothFormal.Av.Avdt
