import BluetoothFormal.Av.MsgAssembly

/-!
# The messages of the control protocol

A message is sent in one call, in a single packet or in fragments.  Packets that the congested
channel does not take wait in a queue, in the order in which they were built.
-/

namespace BluetoothFormal.Av.Avct

open Foundation.Fragments L2cap List BtHdr Option

/-! ## The sender -/

/-- `UINT16_TO_BE_STREAM`: the high byte first. -/
def uint16ToBeStream (value : Nat) : List UInt8 := [UInt8.ofNat (value / 256), UInt8.ofNat value]

/-- `BE_STREAM_TO_UINT16`, if there are two bytes. -/
def beStreamToUint16 : List UInt8 → Option (Nat × List UInt8)
  | high :: low :: p => some (256 * high.toNat + low.toNat, p)
  | _ => none

/-- The fields of a message that are sent with its contents. -/
structure UlMsg where
  label : Fin 16
  cr : Fin 4
  pid : UInt16

def lcbPktTypeLen : PktType → Nat
  | .single => 3
  | .start => 4
  | .cont => 1
  | .end_ => 1

def avctMsgOffset : Nat := 15

/-- The header of a packet, in front of its part of the message. -/
def buildHeader (hdr : UlMsg) (type : PktType) (nosp : Nat) : List UInt8 :=
  match type with
  | .single => buildHdr hdr.label .single hdr.cr :: uint16ToBeStream hdr.pid.toNat
  | .start =>
    buildHdr hdr.label .start hdr.cr :: UInt8.ofNat nosp :: uint16ToBeStream hdr.pid.toNat
  | type => [buildHdr hdr.label type hdr.cr]

/-- Where the loop of `avct_lcb_send_msg` is. -/
structure Sending where
  pktType : PktType
  nosp : Nat
  msg : BtHdr

/-- The number of packets, if `temp` octets of the message go behind the start packet. -/
def nosp (peerMtu temp : Nat) : Nat :=
  (if temp % (peerMtu - 1) ≠ 0 then temp / (peerMtu - 1) + 1 + 1
    else temp / (peerMtu - 1) + 1) % 256

section

variable (peerMtu : Nat)

/-- What `avct_lcb_send_msg` prepares before its loop. -/
def beginSending (msg : BtHdr) : Sending :=
  if msg.len ≤ peerMtu - lcbPktTypeLen .single then ⟨.single, 0, msg⟩
  else ⟨.start, nosp peerMtu (msg.len + lcbPktTypeLen .start - peerMtu), msg⟩

/-- A new buffer with a portion of the message; its size is a number of 16 bits. -/
def newFragment (msg : BtHdr) (hdrLen : Nat) : Option BtHdr :=
  BtHdr.newFragment ((peerMtu + l2capMinOffset + headerSize) % 65536) msg hdrLen (peerMtu - hdrLen)

/-- The buffer of the next packet, without its header. -/
def nextBuf (sending : Sending) : Option BtHdr :=
  let hdrLen := lcbPktTypeLen sending.pktType
  if sending.msg.len > peerMtu - hdrLen then newFragment peerMtu sending.msg hdrLen
  else some sending.msg

/-- The type of the next packet, of the length that is left. -/
def nextType (peerMtu currMsgLen : Nat) : PktType :=
  if currMsgLen > peerMtu - lcbPktTypeLen .end_ then .cont else .end_

def leftToSend (sending : Sending) (sent : Nat) : Option Sending :=
  -- `curr_msg_len` is the length of the message
  if sending.msg.len - sent = 0 then none
  else some ⟨nextType peerMtu (sending.msg.len - sent), sending.nosp, sending.msg.advance sent⟩

/-- One round of the loop: a packet, and what is left of the message. -/
def lcbSendStep (hdr : UlMsg) (sending : Sending) : Option (BtHdr × Option Sending) :=
  (nextBuf peerMtu sending).bind fun buf =>
    (buf.stepBack (buildHeader hdr sending.pktType sending.nosp)).map fun packet =>
      (packet, leftToSend peerMtu sending buf.len)

/--
The packets that are written, and those that are queued.  The channel answers each written
packet whether it is congested now; from then on the packets are queued.
-/
def place : Bool → List Bool → List BtHdr → List BtHdr × List BtHdr
  | _, _, [] => ([], [])
  | true, answers, packet :: rest =>
    let placed := place true answers rest
    (placed.1, packet :: placed.2)
  | false, answers, packet :: rest =>
    let placed := place (answers.headD false) answers.tail rest
    (packet :: placed.1, placed.2)

/-- `avct_lcb_send_msg`: the packets that are written, and those that are queued. -/
def lcbSendMsg (hdr : UlMsg) (cong : Bool) (answers : List Bool) (msg : BtHdr) :
    Option (List BtHdr × List BtHdr) :=
  if msg.len = 0 then some ([], [])
  else
    -- each round of the loop sends at least one octet
    (burst (lcbSendStep peerMtu hdr) msg.len (beginSending peerMtu msg)).map fun sent =>
      place cong answers sent.1

end

def lcbMsgAsmbl : Option RxMsg → BtHdr → Option BtHdr × Option RxMsg :=
  Av.msgAsmbl lcbPktTypeLen true

theorem place_order (cong : Bool) (answers : List Bool) (packets : List BtHdr) :
    (place cong answers packets).1 ++ (place cong answers packets).2 = packets ∧
      (cong = true → (place cong answers packets).1 = []) := by
  induction packets generalizing cong answers with
  | nil =>
    rw [place]
    exact ⟨rfl, fun _ => rfl⟩
  | cons packet rest ih =>
    cases cong with
    | false =>
      rw [place]
      exact ⟨congrArg (packet :: ·) (ih _ _).1, fun congested => by cases congested⟩
    | true =>
      obtain ⟨order, nothing⟩ := ih true answers
      have written := nothing rfl
      rw [written, nil_append] at order
      rw [place, written, order]
      exact ⟨rfl, fun _ => rfl⟩

/-! ## The packets of a message -/

section Sender

variable {peerMtu : Nat} {hdr : UlMsg}

theorem lcbSendStep_last {sending : Sending}
    (short : sending.msg.len ≤ peerMtu - lcbPktTypeLen sending.pktType)
    (room : (buildHeader hdr sending.pktType sending.nosp).length ≤ sending.msg.offset) :
    ∃ packet, lcbSendStep peerMtu hdr sending = some (packet, none) ∧ packet.contents =
        buildHeader hdr sending.pktType sending.nosp ++ sending.msg.contents := by
  obtain ⟨packet, stepped, contents, -⟩ := stepBack_of_room _ room
  have next : nextBuf peerMtu sending = some sending.msg := if_neg (Nat.not_lt.mpr short)
  refine ⟨packet, ?_, contents⟩
  rw [lcbSendStep, next, bind_some, stepped, map_some, leftToSend, Nat.sub_self, if_pos rfl]

theorem lcbSendStep_more {sending : Sending}
    (long : peerMtu - lcbPktTypeLen sending.pktType < sending.msg.len)
    (header : lcbPktTypeLen sending.pktType ≤ peerMtu) (small : peerMtu + 21 < 65536)
    (room : (buildHeader hdr sending.pktType sending.nosp).length ≤ lcbPktTypeLen sending.pktType) :
    ∃ packet, lcbSendStep peerMtu hdr sending = some (packet, some
        ⟨nextType peerMtu (sending.msg.len - (peerMtu - lcbPktTypeLen sending.pktType)),
          sending.nosp, sending.msg.advance (peerMtu - lcbPktTypeLen sending.pktType)⟩) ∧
      packet.contents = buildHeader hdr sending.pktType sending.nosp ++
        sending.msg.contents.take (peerMtu - lcbPktTypeLen sending.pktType) := by
  have fits : peerMtu - lcbPktTypeLen sending.pktType + lcbPktTypeLen sending.pktType + 21 ≤
      (peerMtu + l2capMinOffset + headerSize) % 65536 := by
    rw [headerSize, l2capMinOffset, Nat.mod_eq_of_lt (by omega)]
    omega
  obtain ⟨buf, fragment, portion, len, offset⟩ := newFragment_eq fits (le_of_lt long)
  obtain ⟨packet, stepped, contents, -⟩ := @stepBack_of_room buf
    (buildHeader hdr sending.pktType sending.nosp) (by omega)
  have next : nextBuf peerMtu sending = some buf := (if_pos long).trans fragment
  refine ⟨packet, ?_, by rw [contents, portion]⟩
  rw [lcbSendStep, next, bind_some, stepped, map_some, len, leftToSend,
    if_neg (Nat.sub_ne_zero_of_lt long)]

theorem emits_continued {items : List UInt8} {pieces : List (List UInt8)} {nosp : Nat}
    {msg : BtHdr} (large : 48 ≤ peerMtu) (small : peerMtu + 21 < 65536)
    (cut : Cut (peerMtu - 1) items pieces) (room : 1 ≤ msg.offset)
    (contents : msg.contents = items) :
    ∃ packets, Emits (lcbSendStep peerMtu hdr) ⟨nextType peerMtu msg.len, nosp, msg⟩ packets ∧
      packets.map BtHdr.contents =
        marked [buildHdr hdr.label .cont hdr.cr] [buildHdr hdr.label .end_ hdr.cr] pieces := by
  induction cut generalizing msg with
  | @last items short =>
    have len : msg.len ≤ peerMtu - 1 := len_eq contents ▸ short
    have type : nextType peerMtu msg.len = .end_ := if_neg (Nat.not_lt.mpr len)
    rw [type]
    obtain ⟨packet, taken, same⟩ := @lcbSendStep_last peerMtu hdr ⟨.end_, nosp, msg⟩ len room
    refine ⟨[packet], .last taken, ?_⟩
    rw [map_singleton, same, contents]
    rfl
  | @more items pieces long rest ih =>
    have len : peerMtu - 1 < msg.len := len_eq contents ▸ long
    have type : nextType peerMtu msg.len = .cont := if_pos len
    rw [type]
    obtain ⟨packet, taken, same⟩ := @lcbSendStep_more peerMtu hdr ⟨.cont, nosp, msg⟩ len
      (show 1 ≤ peerMtu by omega) small (Nat.le_refl 1)
    have left : (msg.advance (peerMtu - 1)).contents = items.drop (peerMtu - 1) := by
      rw [contents_advance (le_of_lt len), contents]
    have lenLeft : (msg.advance (peerMtu - 1)).len = msg.len - (peerMtu - 1) := by
      rw [← length_contents, left, length_drop, ← contents, length_contents]
    obtain ⟨packets, emits, marks⟩ := ih (le_trans room (Nat.le_add_right _ _)) left
    rw [lenLeft] at emits
    refine ⟨packet :: packets, .more taken emits, ?_⟩
    rw [map_cons, marks, same, contents]
    obtain ⟨piece, pieces, rfl⟩ := exists_cons_of_ne_nil rest.ne_nil
    rfl

theorem round_up {number size : Nat} (positive : 0 < number) :
    (if number % size ≠ 0 then number / size + 1 + 1 else number / size + 1) =
      (number - 1) / size + 1 + 1 := by
  obtain ⟨number, rfl⟩ := Nat.exists_eq_succ_of_ne_zero (Nat.ne_zero_of_lt positive)
  rw [Nat.succ_div, Nat.succ_sub_one]
  by_cases multiple : size ∣ number + 1
  · rw [if_neg (not_not.mpr (Nat.mod_eq_zero_of_dvd multiple)), if_pos multiple]
  · rw [if_pos (fun none => multiple (Nat.dvd_of_mod_eq_zero none)), if_neg multiple]

variable {msg : BtHdr} {payload : List UInt8} (offset : lcbPktTypeLen .single ≤ msg.offset)
  (contents : msg.contents = payload)

include offset contents

theorem emits_single (short : payload.length ≤ peerMtu - 3) :
    ∃ packet, Emits (lcbSendStep peerMtu hdr) (beginSending peerMtu msg) [packet] ∧
      packet.contents =
        buildHdr hdr.label .single hdr.cr :: (uint16ToBeStream hdr.pid.toNat ++ payload) := by
  have len : msg.len ≤ peerMtu - 3 := len_eq contents ▸ short
  have begun : beginSending peerMtu msg = ⟨.single, 0, msg⟩ := if_pos len
  obtain ⟨packet, taken, same⟩ := @lcbSendStep_last peerMtu hdr ⟨.single, 0, msg⟩ len offset
  rw [begun]
  exact ⟨packet, .last taken, by rw [same, contents]; rfl⟩

theorem emits_fragments (large : 48 ≤ peerMtu) (small : peerMtu + 21 < 65536)
    (long : peerMtu - 3 < payload.length) :
    ∃ packets pieces, Emits (lcbSendStep peerMtu hdr) (beginSending peerMtu msg) packets ∧
      Cut (peerMtu - 1) (payload.drop (peerMtu - 4)) pieces ∧ packets.map BtHdr.contents =
        (buildHdr hdr.label .start hdr.cr :: UInt8.ofNat (beginSending peerMtu msg).nosp ::
          (uint16ToBeStream hdr.pid.toNat ++ payload.take (peerMtu - 4))) ::
        marked [buildHdr hdr.label .cont hdr.cr] [buildHdr hdr.label .end_ hdr.cr] pieces := by
  have len := len_eq contents
  obtain ⟨nosp, begun⟩ : ∃ nosp, beginSending peerMtu msg = ⟨.start, nosp, msg⟩ :=
    ⟨_, if_neg (Nat.not_le.mpr (len ▸ long))⟩
  obtain ⟨packet, taken, same⟩ := @lcbSendStep_more peerMtu hdr ⟨.start, nosp, msg⟩
    (show peerMtu - 4 < msg.len by omega) (show 4 ≤ peerMtu by omega) small (Nat.le_refl 4)
  have left : (msg.advance (peerMtu - 4)).contents = payload.drop (peerMtu - 4) := by
    rw [contents_advance (by omega), contents]
  have lenLeft : (msg.advance (peerMtu - 4)).len = msg.len - (peerMtu - 4) := by
    rw [← length_contents, left, length_drop, len]
  have room : 1 ≤ (msg.advance (peerMtu - 4)).offset :=
    le_trans (le_trans (by decide) offset) (Nat.le_add_right _ _)
  obtain ⟨pieces, cut⟩ := exists_cut (show 0 < peerMtu - 1 by omega) (payload.drop (peerMtu - 4))
  obtain ⟨packets, emits, marks⟩ :=
    @emits_continued peerMtu hdr _ _ nosp _ large small cut room left
  rw [lenLeft] at emits
  rw [begun]
  refine ⟨packet :: packets, pieces, .more taken emits, cut, ?_⟩
  rw [map_cons, marks, same, contents]
  rfl

omit offset in
theorem nosp_eq {pieces : List (List UInt8)} (large : 48 ≤ peerMtu)
    (bounded : payload.length ≤ rxSize) (long : peerMtu - 3 < payload.length)
    (cut : Cut (peerMtu - 1) (payload.drop (peerMtu - 4)) pieces) :
    (beginSending peerMtu msg).nosp % 256 = pieces.length + 1 := by
  have len := len_eq contents
  have left : (payload.drop (peerMtu - 4)).length = payload.length + 4 - peerMtu := by
    rw [length_drop]
    omega
  obtain ⟨temp, rest⟩ : ∃ temp, temp = payload.length + 4 - peerMtu := ⟨_, rfl⟩
  have bound : (temp - 1) / (peerMtu - 1) ≤ 4104 / 47 :=
    Nat.div_le_div (by simp only [rxSize, btDefaultBufferSize, headerSize] at bounded; omega)
      (by omega) (by decide)
  have begun : (beginSending peerMtu msg).nosp = nosp peerMtu temp := by
    rw [beginSending, if_neg (Nat.not_le.mpr (len ▸ long)), rest, len]
    rfl
  rw [begun, nosp, round_up (show 0 < temp by omega), Nat.mod_mod, cut.length_eq (by omega), left,
    ← rest]
  exact Nat.mod_eq_of_lt (by omega)

end Sender

/-! ## Sending and receiving -/

/-- A message with its header fields. -/
structure Carries (hdr : UlMsg) (payload : List UInt8) (msg : BtHdr) : Prop where
  label : prsLabel (msg.contents.getD 0 0) = hdr.label
  cr : prsMsg (msg.contents.getD 0 0) = hdr.cr
  pid : beStreamToUint16 (msg.contents.drop 1) = some (hdr.pid.toNat, payload)

/--
Packets of bounded size, with their number in the start packet, that an idle peer puts together
to one message.  The peer has them in buffers of its own, with some room in front.
-/
structure Exchanged (peerMtu room : Nat) (hdr : UlMsg) (payload : List UInt8)
    (packets : List BtHdr) : Prop where
  bounded : ∀ packet ∈ packets, packet.len ≤ peerMtu
  counted : ∀ packet ∈ packets, prsPktType (packet.contents.getD 0 0) = .start →
    (packet.contents.getD 1 0).toNat = packets.length
  assembled : ∀ received : List BtHdr,
    received.map contents = packets.map contents → (∀ buf ∈ received, buf.offset ≤ room) →
        ∃ msg, assembleAll lcbMsgAsmbl none received = ([msg], none) ∧ Carries hdr payload msg

theorem beStreamToUint16_stream (pid : UInt16) (rest : List UInt8) :
    beStreamToUint16 (uint16ToBeStream pid.toNat ++ rest) = some (pid.toNat, rest) := by
  have word := pid.toNat_lt
  simp only [uint16ToBeStream, cons_append, beStreamToUint16, UInt8.toNat_ofNat', nil_append]
  congr 2
  omega

theorem carries_of_contents {hdr : UlMsg} {payload : List UInt8} {msg : BtHdr} {type : PktType}
    (contents : msg.contents =
      buildHdr hdr.label type hdr.cr :: (uint16ToBeStream hdr.pid.toNat ++ payload)) :
    Carries hdr payload msg := by
  obtain ⟨label, -, cr⟩ := prs_buildHdr hdr.label type hdr.cr
  refine ⟨?_, ?_, ?_⟩ <;> rw [contents]
  · exact label
  · exact cr
  · exact beStreamToUint16_stream hdr.pid payload

section Exchange

variable {peerMtu room : Nat} {hdr : UlMsg} {payload : List UInt8} {packets : List BtHdr}

theorem received_sizes {size : Nat} {received : List BtHdr}
    (same : received.map contents = packets.map contents)
    (bounded : ∀ packet ∈ packets, packet.len ≤ size) (offsets : ∀ buf ∈ received, buf.offset ≤ room)
    (fits : room + size ≤ rxSize) : ∀ buf ∈ received, buf.offset + buf.len ≤ rxSize := by
  intro buf listed
  have own : buf.contents ∈ packets.map contents := same ▸ mem_map_of_mem listed
  obtain ⟨packet, sent, equal⟩ := mem_map.mp own
  have len : buf.len = packet.len := by
    rw [← buf.length_contents, ← equal, packet.length_contents]
  have short := bounded packet sent
  have front := offsets buf listed
  omega

theorem exchanged_single {packet : BtHdr} (large : 48 ≤ peerMtu)
    (short : payload.length ≤ peerMtu - 3) (fits : room + 4 + payload.length ≤ rxSize)
    (contents : packet.contents =
      buildHdr hdr.label .single hdr.cr :: (uint16ToBeStream hdr.pid.toNat ++ payload)) :
    Exchanged peerMtu room hdr payload [packet] := by
  have type := (prs_buildHdr hdr.label .single hdr.cr).2.1
  have len : packet.len = payload.length + 3 := len_eq contents
  refine ⟨?bounded, ?counted, ?assembled⟩
  case bounded =>
    intro other listed
    rw [mem_singleton.mp listed]
    omega
  case counted =>
    intro other listed start
    rw [mem_singleton.mp listed, contents] at start
    cases type.symm.trans start
  case assembled =>
    intro received same offsets
    have sizes := @received_sizes room [packet] (payload.length + 3) received same
      (fun other listed => by rw [mem_singleton.mp listed, len]) offsets (by omega)
    rw [map_singleton, contents] at same
    obtain ⟨msg, assembled, whole⟩ := @single_assembled lcbPktTypeLen true _ _ received type
      (Nat.le_add_left 3 _) same fun _ => sizes
    exact ⟨msg, assembled, carries_of_contents whole⟩

theorem exchanged_fragments {count : Nat} {pieces : List (List UInt8)}
    (contents : packets.map contents = (buildHdr hdr.label .start hdr.cr :: UInt8.ofNat count ::
        (uint16ToBeStream hdr.pid.toNat ++ payload.take (peerMtu - 4))) ::
      marked [buildHdr hdr.label .cont hdr.cr] [buildHdr hdr.label .end_ hdr.cr] pieces)
    (large : 48 ≤ peerMtu) (long : peerMtu - 3 < payload.length)
    (fits : room + 4 + payload.length ≤ rxSize)
    (cut : Cut (peerMtu - 1) (payload.drop (peerMtu - 4)) pieces)
    (counted : count % 256 = pieces.length + 1) :
    Exchanged peerMtu room hdr payload packets := by
  have octets := headerOctets_buildHdr hdr.label hdr.cr
  have length : (uint16ToBeStream hdr.pid.toNat ++ payload.take (peerMtu - 4)).length =
      peerMtu - 2 := by
    rw [length_append, length_take, min_eq_left (by omega)]
    show 2 + (peerMtu - 4) = peerMtu - 2
    omega
  have size : pieces.flatten.length = payload.length - (peerMtu - 4) := by
    rw [cut.flatten, length_drop]
  have bounded : ∀ packet ∈ packets, packet.len ≤ peerMtu := by
    refine packets_bounded contents (by omega) fun piece mem => ?_
    have short := cut.length_le piece mem
    omega
  refine ⟨bounded, (packets_counted_iff octets contents).mpr counted, ?_⟩
  intro received same offsets
  have sizes := received_sizes same bounded offsets (by omega)
  obtain ⟨msg, assembled, data⟩ := @packets_assembled _ _ _ _ _ _ _ octets contents lcbPktTypeLen
    true room ⟨Nat.le_refl 1, Nat.le_refl 1⟩ (by rw [lcbPktTypeLen]; omega) cut.ne_nil
    (by omega) received same
    (fun first head => offsets first (mem_of_mem_head? head)) fun _ => sizes
  refine ⟨msg, assembled, @carries_of_contents hdr payload msg .start ?_⟩
  rw [data, cut.flatten, append_assoc, take_append_drop]

end Exchange

/--
Whatever the congestion of the channel, the packets of a message that is not empty are exchanged
with an idle peer.
-/
theorem lcb_message_exchanged {peerMtu room : Nat} (hdr : UlMsg) {payload : List UInt8}
    {msg : BtHdr} (some : payload ≠ []) (large : 48 ≤ peerMtu)
    (fits : room + 4 + payload.length ≤ rxSize) (offset : lcbPktTypeLen .single ≤ msg.offset)
    (contents : msg.contents = payload) (cong : Bool) (answers : List Bool) :
    ∃ placed, lcbSendMsg peerMtu hdr cong answers msg = Option.some placed ∧
      Exchanged peerMtu room hdr payload (placed.1 ++ placed.2) := by
  have len := len_eq contents
  have positive := length_pos_iff.mpr some
  obtain ⟨packets, emits, enough, exchanged⟩ : ∃ packets,
      Emits (lcbSendStep peerMtu hdr) (beginSending peerMtu msg) packets ∧
        packets.length ≤ msg.len ∧ Exchanged peerMtu room hdr payload packets := by
    rcases lt_or_ge (peerMtu - 3) payload.length with long | short
    · have small : peerMtu + 21 < 65536 := by
        simp only [rxSize, btDefaultBufferSize, BtHdr.headerSize] at fits
        omega
      obtain ⟨packets, pieces, emits, cut, parts⟩ :=
        @emits_fragments peerMtu hdr msg payload offset contents large small long
      have counted := @nosp_eq peerMtu msg payload contents _ large (by omega) long cut
      refine ⟨packets, emits, ?_, exchanged_fragments parts large long fits cut counted⟩
      have number := cut.length_eq (show 0 < peerMtu - 1 by omega)
      have few := Nat.div_le_self ((payload.drop (peerMtu - 4)).length - 1) (peerMtu - 1)
      have length := congrArg List.length parts
      rw [length_map, length_cons, length_marked] at length
      rw [length_drop] at few number
      omega
    · obtain ⟨packet, emits, same⟩ := @emits_single peerMtu hdr msg payload offset contents short
      exact ⟨[packet], emits, by rw [len]; exact positive, exchanged_single large short fits same⟩
  refine ⟨place cong answers packets, ?_, ?_⟩
  · rw [lcbSendMsg, if_neg (by omega), burst_all emits enough, map_some]
  · rw [(place_order cong answers packets).1]
    exact exchanged

/-- A message in three packets, two of which are queued. -/
theorem lcb_message_exchanged_congested :
    ∃ placed, lcbSendMsg 48 ⟨1, 2, 0x110E⟩ false [true]
        (.withRoom 0 (List.replicate avctMsgOffset 0) (List.replicate 100 7)) = some placed ∧
      Exchanged 48 13 ⟨1, 2, 0x110E⟩ (List.replicate 100 7) (placed.1 ++ placed.2) :=
  lcb_message_exchanged ⟨1, 2, 0x110E⟩ (by decide) (by decide) (by decide) (by decide)
    (contents_withRoom _ _ _) false [true]

end BluetoothFormal.Av.Avct
