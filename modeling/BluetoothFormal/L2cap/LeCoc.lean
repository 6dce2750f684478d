import BluetoothFormal.L2cap.Buffer

/-!
# Segmentation and reassembly on LE credit based channels

The sender cuts an SDU into PDUs: it copies the next octets of the buffer at the
head of the hold queue and moves the window of that buffer forward.  The first
PDU starts with the length of the SDU.  The receiver collects the payloads until
the announced length is reached.

The window is moved in 16 bits, and so is the size of each copy computed.  An SDU
is therefore transferred for all its contents exactly if its first copy is not
too large and each PDU starts at an offset of 16 bits.
-/

namespace BluetoothFormal.L2cap.LeCoc

open List Option

def minOffset : Nat := 13

def lccSduLength : Nat := 2

def lccOffset : Nat := minOffset + lccSduLength

def pktOverhead : Nat := 4

/-- The members of `tL2C_CCB` that the sender uses. -/
structure Sender where
  mps : Nat
  localCid : Nat
  remoteCid : Nat
  xmitHoldQ : List BtHdr

/-- The octets that a PDU can take. -/
def segmentSize (mps : Nat) (firstPdu : Bool) : Nat :=
  let maxPdu := (mps + 65536 - 4) % 65536
  if firstPdu then (maxPdu + 65536 - lccSduLength) % 65536 else maxPdu

/-- Move the window of a buffer forward. -/
def advance (buf : BtHdr) (localCid noOfBytes : Nat) (bounded : noOfBytes ≤ buf.len) : BtHdr where
  event := localCid
  len := buf.len - noOfBytes
  offset := (buf.offset + noOfBytes) % 65536
  memory := buf.memory
  inside := by
    have inside := buf.inside
    have wrapped := Nat.mod_le (buf.offset + noOfBytes) 65536
    omega

/--
`l2c_lcc_get_next_xmit_sdu_seg`: the next PDU, whether it is the last piece of the
SDU, and the channel after it.
-/
def getNextXmitSduSeg (ccb : Sender) : Option (BtHdr × Bool × Sender) :=
  match ccb.xmitHoldQ with
  | [] => none
  | buf :: queue => do
    let firstPdu := buf.event = 0
    let noOfBytesToSend := min buf.len (segmentSize ccb.mps firstPdu)
    let lastPdu := noOfBytesToSend = buf.len
    let copy ← buf.clone (if firstPdu then lccOffset else minOffset) noOfBytesToSend
    let xmit ← if firstPdu then copy.stepBack (uint16ToStream buf.len) else some copy
    let rest := advance buf ccb.localCid noOfBytesToSend (Nat.min_le_left _ _)
    let pdu ← xmit.stepBack (uint16ToStream xmit.len ++ uint16ToStream ccb.remoteCid)
    some (pdu, lastPdu, { ccb with xmitHoldQ := if lastPdu then queue else rest :: queue })

def sendSdu : Nat → Sender → Option (List BtHdr × Sender)
  | 0, _ => none
  | fuel + 1, ccb => do
    let (pdu, lastPieceOfSdu, next) ← getNextXmitSduSeg ccb
    if lastPieceOfSdu then some ([pdu], next)
    else
      let (pdus, done) ← sendSdu fuel next
      some (pdu :: pdus, done)

/--
The members of `tL2C_CCB` that the receiver uses, with the SDUs handed to the
channel state machine.  A channel that was disconnected is not connected.
-/
structure Receiver where
  mtu : Nat
  mps : Nat
  localCid : Nat
  isFirstSeg : Bool
  bleSdu : Option (List UInt8)
  bleSduLength : Nat
  delivered : List (List UInt8)
  connected : Bool

namespace Receiver

section

variable (ccb : Receiver)

def disconnectChnl : Receiver := { ccb with connected := false }

/-- The end of `l2c_lcc_proc_pdu`: the payload joins the SDU, which may be complete now. -/
def appendPayload (data payload : List UInt8) : Receiver :=
  let whole := data ++ payload
  if whole.length = ccb.bleSduLength then
    { ccb with
      isFirstSeg := true, bleSdu := none, bleSduLength := 0
      delivered := ccb.delivered ++ [whole] }
  else if whole.length < ccb.bleSduLength then
    { ccb with isFirstSeg := false, bleSdu := some whole }
  else { ccb with bleSdu := some whole }

/-- `l2c_lcc_proc_pdu`. -/
def procPdu (pdu : List UInt8) : Receiver :=
  if ccb.mps < pdu.length then ccb.disconnectChnl
  else if ccb.isFirstSeg then
    if pdu.length < 2 then ccb
    else
      let sduLength := streamToUint16 pdu
      let payload := pdu.drop 2
      if ccb.mtu < sduLength then ccb.disconnectChnl
      else if sduLength < payload.length then ccb
      else
        { ccb with bleSdu := some [], bleSduLength := sduLength }.appendPayload [] payload
  else
    match ccb.bleSdu with
    | none => ccb
    | some data =>
      if ccb.bleSduLength - data.length < pdu.length then
        { ccb with isFirstSeg := true, bleSdu := none, bleSduLength := 0 }.disconnectChnl
      else ccb.appendPayload data pdu

/-- A PDU for a channel that is gone is dropped. -/
def takePdu (pdu : List UInt8) : Receiver :=
  if ccb.connected then ccb.procPdu pdu else ccb

/-- The part of `l2c_rcv_acl_data` for this channel: the basic header is checked and removed. -/
def rcvAclData (packet : List UInt8) : Receiver :=
  if packet.length < pktOverhead then ccb
  else if streamToUint16 (packet.drop 2) ≠ ccb.localCid then ccb
  else if streamToUint16 packet ≠ packet.length - pktOverhead then ccb
  else ccb.takePdu (packet.drop pktOverhead)

end

/-- A connected channel without a partial SDU. -/
structure Idle (ccb : Receiver) : Prop where
  connected : ccb.connected = true
  isFirstSeg : ccb.isFirstSeg = true
  bleSdu : ccb.bleSdu = none
  bleSduLength : ccb.bleSduLength = 0

end Receiver

theorem word_sub {value less : Nat} (bounded : less ≤ value) (word : value < 65536) :
    (value + 65536 - less) % 65536 = value - less := by
  have shifted : value + 65536 - less = value - less + 65536 := by omega
  rw [shifted, Nat.add_mod_right, Nat.mod_eq_of_lt (by omega)]

variable {mps total room : Nat} {ccb : Sender} {queue : List BtHdr} {memory : List UInt8}

theorem segmentSize_later (least : 23 ≤ mps) (word : mps < 65536) :
    segmentSize mps false = mps - 4 := by
  simp only [segmentSize, Bool.false_eq_true, if_false]
  rw [word_sub (by omega) word]

theorem segmentSize_first (least : 23 ≤ mps) (word : mps < 65536) :
    segmentSize mps true = mps - 6 := by
  simp only [segmentSize, lccSduLength, if_true]
  rw [word_sub (by omega) word, word_sub (by omega) (by omega)]
  omega

/-- A payload behind the basic header. -/
def packet (cid : Nat) (payload : List UInt8) : List UInt8 :=
  uint16ToStream payload.length ++ uint16ToStream cid ++ payload

/-- The octets of the next PDU. -/
def nextPiece (buf : BtHdr) (noOfBytes : Nat) : List UInt8 :=
  (buf.memory.drop buf.offset).take noOfBytes

def nextPayload (buf : BtHdr) (noOfBytes : Nat) : List UInt8 :=
  if buf.event = 0 then uint16ToStream buf.len ++ nextPiece buf noOfBytes
  else nextPiece buf noOfBytes

theorem framed {xmit : BtHdr} {payload : List UInt8} (cid : Nat) (room : 4 ≤ xmit.offset)
    (same : xmit.contents = payload) :
    ∃ pdu, xmit.stepBack (uint16ToStream xmit.len ++ uint16ToStream cid) = some pdu ∧
      pdu.contents = packet cid payload := by
  obtain ⟨pdu, stepped, contents, _⟩ :=
    xmit.stepBack_of_room (uint16ToStream xmit.len ++ uint16ToStream cid) room
  refine ⟨pdu, stepped, ?_⟩
  rw [contents, packet, ← same, xmit.length_contents]

variable {count offset size len fuel : Nat} {buf : BtHdr}

theorem getNextXmitSduSeg_of (queued : ccb.xmitHoldQ = buf :: queue)
    (size : min buf.len (segmentSize ccb.mps (buf.event = 0)) = count)
    (fits : count + (if buf.event = 0 then 25 else 23) < 65536) :
    ∃ pdu : BtHdr, getNextXmitSduSeg ccb = some (pdu, decide (count = buf.len),
        { ccb with xmitHoldQ := if count = buf.len then queue
          else advance buf ccb.localCid count (size ▸ Nat.min_le_left _ _) :: queue }) ∧
      pdu.contents = packet ccb.remoteCid (nextPayload buf count) := by
  subst size
  obtain ⟨mps, localCid, remoteCid, xmitHoldQ⟩ := ccb
  subst queued
  have inside := buf.inside
  simp only [getNextXmitSduSeg, nextPayload]
  by_cases first : buf.event = 0
  · simp only [first, decide_true, if_true] at fits ⊢
    obtain ⟨copy, cloned, same, _, offset⟩ := buf.clone_of_fits lccOffset
      (min buf.len (segmentSize mps true))
      (by simp only [lccOffset, minOffset, lccSduLength]; omega) (by omega)
    have room : copy.offset = 15 := offset
    have two := length_uint16ToStream buf.len
    obtain ⟨xmit, stepped, contents, _, left⟩ :=
      copy.stepBack_of_room (uint16ToStream buf.len) (by omega)
    obtain ⟨pdu, sent, whole⟩ := framed remoteCid (by omega) (contents.trans (congrArg _ same))
    refine ⟨pdu, ?_, whole⟩
    simp [cloned, stepped, sent]
  · simp only [first, decide_false, if_false] at fits ⊢
    obtain ⟨copy, cloned, same, _, offset⟩ := buf.clone_of_fits minOffset
      (min buf.len (segmentSize mps false)) (by simp only [minOffset]; omega) (by omega)
    have room : copy.offset = 13 := offset
    obtain ⟨pdu, sent, whole⟩ := framed remoteCid (by omega) same
    refine ⟨pdu, ?_, whole⟩
    simp [cloned, sent]

theorem getNextXmitSduSeg_large (queued : ccb.xmitHoldQ = buf :: queue) (first : buf.event = 0)
    (word : buf.len < 65536) (large : 65536 ≤ min buf.len (segmentSize ccb.mps true) + 25) :
    getNextXmitSduSeg ccb = none := by
  obtain ⟨mps, localCid, remoteCid, xmitHoldQ⟩ := ccb
  subst queued
  have copied : buf.clone lccOffset (min buf.len (segmentSize mps true)) = none := by
    apply BtHdr.clone_wraps
    · simp only [lccOffset, minOffset, lccSduLength]
      omega
    · simp only [lccOffset, minOffset, lccSduLength]
      omega
  simp only [getNextXmitSduSeg, first, decide_true, if_true, copied]
  rfl

/-- The octets read from the memory by the PDUs after the first. -/
def gathered (size : Nat) (memory : List UInt8) : Nat → Nat → Nat → List UInt8
  | 0, _, _ => []
  | fuel + 1, offset, len =>
    if len ≤ size then (memory.drop offset).take len
    else (memory.drop offset).take size ++
      gathered size memory fuel ((offset + size) % 65536) (len - size)

structure Segments (ccb : Sender) (pdus : List BtHdr) (pieces : List (List UInt8))
    (octets : List UInt8) : Prop where
  contents : pdus.map BtHdr.contents = pieces.map (packet ccb.remoteCid)
  bounded : ∀ piece ∈ pieces, piece ≠ [] ∧ piece.length + 4 ≤ ccb.mps
  joined : pieces.flatten = octets

namespace Segments

variable {ccb : Sender} {pdu : BtHdr} {piece : List UInt8}
  (contents : pdu.contents = packet ccb.remoteCid piece) (filled : piece ≠ [])
  (short : piece.length + 4 ≤ ccb.mps)
include contents filled short

theorem single : Segments ccb [pdu] [piece] piece := by
  refine ⟨by simp [contents], ?_, by simp⟩
  intro other member
  rw [mem_singleton.mp member]
  exact ⟨filled, short⟩

theorem cons {pdus : List BtHdr} {octets : List UInt8} {pieces : List (List UInt8)}
    (segments : Segments ccb pdus pieces octets) :
    Segments ccb (pdu :: pdus) (piece :: pieces) (piece ++ octets) := by
  refine ⟨by simp [contents, segments.contents], ?_, by simp [segments.joined]⟩
  intro other member
  rcases mem_cons.mp member with here | later
  · rw [here]
    exact ⟨filled, short⟩
  · exact segments.bounded other later

end Segments

theorem nextPiece_length (bounded : count ≤ buf.len) :
    (nextPiece buf count).length = count := by
  have inside := buf.inside
  rw [nextPiece, length_take, length_drop]
  omega

theorem nextPiece_ne_nil (bounded : count ≤ buf.len) (some : 0 < count) :
    nextPiece buf count ≠ [] := by
  rw [← length_pos_iff, nextPiece_length bounded]
  exact some

/-- The PDUs of a started SDU are cut from the memory, at the offsets the window gets. -/
theorem sendSdu_later {fuel : Nat} {ccb : Sender} {buf : BtHdr} {queue : List BtHdr}
    (queued : ccb.xmitHoldQ = buf :: queue) (least : 23 ≤ ccb.mps) (word : ccb.mps < 65536)
    (cid : ccb.localCid ≠ 0) (started : buf.event ≠ 0) (left : 0 < buf.len)
    (enough : buf.len ≤ fuel) (fits : min buf.len (ccb.mps - 4) + 23 < 65536) :
    ∃ pdus pieces, sendSdu fuel ccb = some (pdus, { ccb with xmitHoldQ := queue }) ∧
      Segments ccb pdus pieces (gathered (ccb.mps - 4) buf.memory fuel buf.offset buf.len) := by
  induction fuel generalizing ccb buf with
  | zero => omega
  | succ fuel ih =>
    have size : segmentSize ccb.mps (buf.event = 0) = ccb.mps - 4 := by
      simp [started, segmentSize_later least word]
    by_cases last : buf.len ≤ ccb.mps - 4
    · have count : min buf.len (segmentSize ccb.mps (buf.event = 0)) = buf.len := by
        rw [size, Nat.min_eq_left last]
      obtain ⟨pdu, next, contents⟩ := getNextXmitSduSeg_of queued count
        (by rw [if_neg started]; omega)
      rw [nextPayload, if_neg started] at contents
      have length := nextPiece_length (Nat.le_refl buf.len)
      refine ⟨[pdu], [nextPiece buf buf.len], by simp [sendSdu, next], ?_⟩
      rw [gathered, if_pos last]
      exact Segments.single contents (nextPiece_ne_nil (Nat.le_refl _) left) (by omega)
    · have count : min buf.len (segmentSize ccb.mps (buf.event = 0)) = ccb.mps - 4 := by
        rw [size, Nat.min_eq_right (by omega)]
      obtain ⟨pdu, next, contents⟩ := getNextXmitSduSeg_of queued count
        (by rw [if_neg started]; omega)
      rw [nextPayload, if_neg started] at contents
      have bounded : ccb.mps - 4 ≤ buf.len := by omega
      have length := nextPiece_length bounded
      have more : ccb.mps - 4 ≠ buf.len := by omega
      rw [if_neg more, decide_eq_false more] at next
      have rest : (advance buf ccb.localCid (ccb.mps - 4) bounded).len =
        buf.len - (ccb.mps - 4) := rfl
      obtain ⟨pdus, pieces, sent, segments⟩ := @ih
        { ccb with xmitHoldQ := advance buf ccb.localCid (ccb.mps - 4) bounded :: queue }
        (advance buf ccb.localCid (ccb.mps - 4) bounded) rfl least word cid cid
        (by omega) (by omega) (by rw [rest]; change min _ (ccb.mps - 4) + 23 < 65536; omega)
      refine ⟨pdu :: pdus, nextPiece buf (ccb.mps - 4) :: pieces, ?_, ?_⟩
      · simp only [sendSdu, next, bind_eq_bind, bind_some]
        rw [sent]
        rfl
      · rw [gathered, if_neg last]
        exact Segments.cons contents (nextPiece_ne_nil bounded (by omega)) (by omega)
          ⟨segments.contents, segments.bounded, segments.joined⟩

/-- The octets that the PDUs of a new SDU carry. -/
def carried (mps : Nat) (buf : BtHdr) : List UInt8 :=
  if buf.len ≤ mps - 6 then nextPiece buf buf.len
  else nextPiece buf (mps - 6) ++ gathered (mps - 4) buf.memory (buf.len - 1)
    ((buf.offset + (mps - 6)) % 65536) (buf.len - (mps - 6))

theorem sendSdu_new {ccb : Sender} {buf : BtHdr} {queue : List BtHdr}
    (queued : ccb.xmitHoldQ = buf :: queue) (least : 23 ≤ ccb.mps) (word : ccb.mps < 65536)
    (cid : ccb.localCid ≠ 0) (first : buf.event = 0) (left : 0 < buf.len)
    (fits : min buf.len (ccb.mps - 6) + 25 < 65536) :
    ∃ (pdus : List BtHdr) (piece : List UInt8) (pieces : List (List UInt8)),
      sendSdu buf.len ccb = some (pdus, { ccb with xmitHoldQ := queue }) ∧
      pdus.map BtHdr.contents = packet ccb.remoteCid (uint16ToStream buf.len ++ piece) ::
        pieces.map (packet ccb.remoteCid) ∧ piece.length + 6 ≤ ccb.mps ∧
      (∀ piece ∈ pieces, piece ≠ [] ∧ piece.length + 4 ≤ ccb.mps) ∧
      piece ++ pieces.flatten = carried ccb.mps buf := by
  have size : segmentSize ccb.mps (buf.event = 0) = ccb.mps - 6 := by
    simp [first, segmentSize_first least word]
  obtain ⟨fuel, fueled⟩ : ∃ fuel, buf.len = fuel + 1 := ⟨buf.len - 1, by omega⟩
  by_cases last : buf.len ≤ ccb.mps - 6
  · have count : min buf.len (segmentSize ccb.mps (buf.event = 0)) = buf.len := by
      rw [size, Nat.min_eq_left last]
    obtain ⟨pdu, next, contents⟩ := getNextXmitSduSeg_of queued count (by rw [if_pos first]; omega)
    rw [nextPayload, if_pos first] at contents
    have length := nextPiece_length (Nat.le_refl buf.len)
    refine ⟨[pdu], nextPiece buf buf.len, [], ?_, by simp [contents], by omega, by simp, ?_⟩
    · rw [fueled]
      simp [sendSdu, next]
    · simp [carried, if_pos last]
  · have count : min buf.len (segmentSize ccb.mps (buf.event = 0)) = ccb.mps - 6 := by
      rw [size, Nat.min_eq_right (by omega)]
    obtain ⟨pdu, next, contents⟩ := getNextXmitSduSeg_of queued count (by rw [if_pos first]; omega)
    rw [nextPayload, if_pos first] at contents
    have bounded : ccb.mps - 6 ≤ buf.len := by omega
    have length := nextPiece_length bounded
    have more : ccb.mps - 6 ≠ buf.len := by omega
    rw [if_neg more, decide_eq_false more] at next
    have rest : (advance buf ccb.localCid (ccb.mps - 6) bounded).len =
      buf.len - (ccb.mps - 6) := rfl
    obtain ⟨pdus, pieces, sent, segments⟩ := @sendSdu_later fuel
      { ccb with xmitHoldQ := advance buf ccb.localCid (ccb.mps - 6) bounded :: queue }
      (advance buf ccb.localCid (ccb.mps - 6) bounded) queue rfl least word cid cid
      (by omega) (by omega) (by rw [rest]; change min _ (ccb.mps - 4) + 23 < 65536; omega)
    refine ⟨pdu :: pdus, nextPiece buf (ccb.mps - 6), pieces, ?_, ?_, by omega,
      segments.bounded, ?_⟩
    · rw [fueled]
      simp only [sendSdu, next, bind_eq_bind, bind_some]
      rw [sent]
      rfl
    · rw [map_cons, contents, segments.contents]
    · have used : fuel = buf.len - 1 := by omega
      rw [carried, if_neg last, segments.joined, used]
      rfl

theorem length_gathered (positive : 0 < size) (enough : len ≤ fuel)
    (inside : offset + len ≤ memory.length) :
    (gathered size memory fuel offset len).length = len := by
  induction fuel generalizing offset len with
  | zero =>
    rw [Nat.le_zero.mp enough]
    rfl
  | succ fuel ih =>
    unfold gathered
    split
    · rw [length_take, length_drop]
      omega
    · rw [length_append, length_take, length_drop, ih (by omega) (by omega)]
      omega

theorem gathered_exact (positive : 0 < size) (enough : len ≤ fuel)
    (starts : ∀ index, size * index < len → offset + size * index < 65536) :
    gathered size memory fuel offset len = (memory.drop offset).take len := by
  induction fuel generalizing offset len with
  | zero =>
    rw [Nat.le_zero.mp enough]
    rfl
  | succ fuel ih =>
    unfold gathered
    split
    · rfl
    · rename_i more
      have below : offset + size < 65536 := by simpa using starts 1 (by omega)
      have later : ∀ index, size * index < len - size → offset + size + size * index < 65536 := by
        intro index short
        have next := starts (index + 1) (by rw [Nat.mul_succ]; omega)
        rw [Nat.mul_succ] at next
        omega
      rw [Nat.mod_eq_of_lt below, ih (by omega) later]
      have split : len = size + (len - size) := by omega
      conv => rhs; rw [split, take_add, drop_drop]

/-- A buffer whose room and whose contents can be told apart. -/
def marked (room total : Nat) : List UInt8 := List.replicate room 0 ++ List.replicate total 1

/-- A new SDU of ones behind a room of zeros. -/
def markedSdu (room total : Nat) : BtHdr :=
  .withRoom 0 (List.replicate room 0) (List.replicate total 1)

theorem markedSdu_offset (room total : Nat) : (markedSdu room total).offset = room :=
  length_replicate

theorem markedSdu_len (room total : Nat) : (markedSdu room total).len = total :=
  length_replicate

theorem zero_mem_room (early : offset < room) (some : 0 < count) :
    (0 : UInt8) ∈ ((marked room total).drop offset).take count := by
  obtain ⟨more, ahead⟩ : ∃ more, room - offset = more + 1 := ⟨room - offset - 1, by omega⟩
  have rest : (marked room total).drop offset =
      0 :: (List.replicate more 0 ++ List.replicate total 1) := by
    rw [marked, drop_append_of_le_length (by rw [length_replicate]; omega),
      drop_replicate, ahead, replicate_succ, cons_append]
  obtain ⟨less, one⟩ : ∃ less, count = less + 1 := ⟨count - 1, by omega⟩
  rw [rest, one, take_succ_cons]
  exact mem_cons_self

theorem zero_mem_gathered_room (positive : 0 < size) (early : offset < room) (some : 0 < len)
    (enough : len ≤ fuel) :
    (0 : UInt8) ∈ gathered size (marked room total) fuel offset len := by
  cases fuel with
  | zero => omega
  | succ fuel =>
    unfold gathered
    split
    · exact zero_mem_room early some
    · exact mem_append_left _ (zero_mem_room early positive)

/-- A PDU that starts behind the last offset of 16 bits reads from the room. -/
theorem zero_mem_gathered (positive : 0 < size) (sizeWord : size < 65536) (enough : len ≤ fuel)
    (word : total < 65536) (ends : offset + len = room + total) (below : offset < 65536)
    {index : Nat} (short : size * index < len) (wraps : 65536 ≤ offset + size * index) :
    (0 : UInt8) ∈ gathered size (marked room total) fuel offset len := by
  induction index generalizing fuel offset len with
  | zero => omega
  | succ index ih =>
    rw [Nat.mul_succ] at short wraps
    cases fuel with
    | zero => omega
    | succ fuel =>
      rw [gathered, if_neg (by omega)]
      apply mem_append_right
      by_cases here : offset + size < 65536
      · rw [Nat.mod_eq_of_lt here]
        exact ih (by omega) (by omega) here (by omega) (by omega)
      · -- the next piece is the first one read from the room
        exact zero_mem_gathered_room positive (by omega) (by omega) (by omega)

end BluetoothFormal.L2cap.LeCoc
