import BluetoothFormal.Foundation.Fragments
import BluetoothFormal.L2cap.Buffer

/-!
# Reassembling the messages of the audio and video protocols

The distribution and the control protocol cut a message into a start packet, continue packets
and an end packet.  The receiver copies the start packet to a larger buffer and appends the
others; the offset of the buffer tells where the next packet goes.
-/

namespace BluetoothFormal.Av

open Foundation.Fragments L2cap List BtHdr

inductive PktType where
  | single
  | start
  | cont
  | end_
  deriving DecidableEq

namespace PktType

def code : PktType → Nat
  | .single => 0
  | .start => 1
  | .cont => 2
  | .end_ => 3

def ofCode : Nat → PktType
  | 0 => .single
  | 1 => .start
  | 2 => .cont
  | _ => .end_

end PktType

/-- The header octet: a label of four bits, a packet type and a message type of two bits. -/
def buildHdr (label : Fin 16) (type : PktType) (msg : Fin 4) : UInt8 :=
  UInt8.ofNat (label.val <<< 4 ||| type.code <<< 2 ||| msg.val)

def prsLabel (octet : UInt8) : Nat := octet.toNat >>> 4 &&& 0x0F
def prsPktType (octet : UInt8) : PktType := .ofCode (octet.toNat >>> 2 &&& 0x03)
def prsMsg (octet : UInt8) : Nat := octet.toNat &&& 0x03

theorem prs_buildHdr (label : Fin 16) (type : PktType) (msg : Fin 4) :
    prsLabel (buildHdr label type msg) = label ∧ prsPktType (buildHdr label type msg) = type ∧
      prsMsg (buildHdr label type msg) = msg := by
  revert label msg
  cases type <;> decide

def btDefaultBufferSize : Nat := 4096 + 16

def rxSize : Nat := btDefaultBufferSize - headerSize

/-- A message that is reassembled: the offset is behind what has arrived. -/
structure RxMsg where
  event : Nat
  len : Nat
  offset : Nat
  memory : List UInt8
  sized : memory.length = rxSize
  behind : len ≤ offset
  inside : offset ≤ rxSize

namespace RxMsg

/-- What has arrived, without the number of packets. -/
def data (rx : RxMsg) : List UInt8 := (rx.memory.drop (rx.offset - rx.len)).take rx.len

/--
A start packet is copied to a new buffer, whose other memory is never read, and its first octet
is copied over the number of packets.
-/
def start (buf : BtHdr) (fits : buf.offset + buf.len ≤ rxSize) : RxMsg where
  event := buf.event
  len := buf.len - 1
  offset := buf.offset + buf.len
  memory :=
    let copied := buf.memory.take (buf.offset + buf.len) ++
      List.replicate (rxSize - (buf.offset + buf.len)) 0
    copied.set (buf.offset + 1) (copied.getD buf.offset 0)
  sized := by
    have inside := buf.inside
    rw [length_set, length_append, length_take, length_replicate]
    omega
  behind := by omega
  inside := fits

/-- A continue packet. -/
def append (rx : RxMsg) (bytes : List UInt8) (fits : rx.offset + bytes.length ≤ rxSize) : RxMsg where
  event := rx.event
  len := rx.len + bytes.length
  offset := rx.offset + bytes.length
  memory := copyAt rx.memory rx.offset bytes
  sized := (length_copyAt (rx.sized.symm ▸ fits)).trans rx.sized
  behind := Nat.add_le_add_right rx.behind _
  inside := fits

/-- An end packet: the offset goes back to the header. -/
def finish (rx : RxMsg) (bytes : List UInt8) (fits : rx.offset + bytes.length ≤ rxSize) : BtHdr where
  event := rx.event
  len := rx.len + bytes.length
  offset := rx.offset - rx.len
  memory := copyAt rx.memory rx.offset bytes
  inside := by
    have behind := rx.behind
    rw [length_copyAt (rx.sized.symm ▸ fits), rx.sized]
    omega

end RxMsg

def takePacket (type : PktType) (rx : Option RxMsg) (buf : BtHdr) : Option BtHdr × Option RxMsg :=
  match type with
  | .single => (some buf, none)
  | .start =>
    if fits : buf.offset + buf.len ≤ rxSize then (none, some (RxMsg.start buf fits))
    else (none, none)
  | type =>
    match rx with
    | none => (none, none)
    | some msg =>
      -- the offset and the length of the packet are adjusted for its header octet
      if fits : msg.offset + (buf.contents.drop 1).length ≤ rxSize then
        if type = .end_ then (some (msg.finish (buf.contents.drop 1) fits), none)
        else (none, some (msg.append (buf.contents.drop 1) fits))
      else (none, none)

/--
The function of both protocols, with the lengths of their headers.  The control protocol checks
the size of every packet.
-/
def msgAsmbl (pktTypeLen : PktType → Nat) (checksSize : Bool) (rx : Option RxMsg) (buf : BtHdr) :
    Option BtHdr × Option RxMsg :=
  if buf.len < 1 then (none, rx)
  else
    let type := prsPktType (buf.contents.getD 0 0)
    if buf.len < pktTypeLen type ∨
        (checksSize = true ∧ headerSize + buf.offset + buf.len > btDefaultBufferSize) then
      (none, rx)
    else takePacket type rx buf

/-- Packets one after the other: the messages they give, and the state at the end. -/
def assembleAll (asmbl : Option RxMsg → BtHdr → Option BtHdr × Option RxMsg) :
    Option RxMsg → List BtHdr → List BtHdr × Option RxMsg
  | rx, [] => ([], rx)
  | rx, buf :: rest =>
    ((asmbl rx buf).1.toList ++ (assembleAll asmbl (asmbl rx buf).2 rest).1,
      (assembleAll asmbl (asmbl rx buf).2 rest).2)

namespace RxMsg

theorem window_copyAt {memory bytes : List UInt8} {offset len : Nat} (behind : len ≤ offset)
    (inside : offset ≤ memory.length) :
    ((copyAt memory offset bytes).drop (offset - len)).take (len + bytes.length) =
      (memory.drop (offset - len)).take len ++ bytes := by
  have front : (memory.take offset).drop (offset - len) = (memory.drop (offset - len)).take len := by
    rw [drop_take]
    congr 1
    omega
  have length : ((memory.drop (offset - len)).take len).length = len := by
    rw [length_take, length_drop]
    omega
  rw [copyAt, append_assoc, drop_append_of_le_length, front, ← append_assoc]
  · refine take_left' ?_
    rw [length_append, length]
  · rw [length_take]
    omega

theorem data_append (rx : RxMsg) (bytes : List UInt8)
    (fits : rx.offset + bytes.length ≤ rxSize) : (rx.append bytes fits).data = rx.data ++ bytes := by
  have behind := rx.behind
  have window := @window_copyAt rx.memory bytes rx.offset rx.len behind
    (rx.inside.trans (le_of_eq rx.sized.symm))
  rw [data, append]
  rw [Nat.add_sub_add_right]
  exact window

theorem contents_finish (rx : RxMsg) (bytes : List UInt8)
    (fits : rx.offset + bytes.length ≤ rxSize) :
    (rx.finish bytes fits).contents = rx.data ++ bytes :=
  window_copyAt rx.behind (rx.inside.trans (le_of_eq rx.sized.symm))

theorem data_start {buf : BtHdr} (fits : buf.offset + buf.len ≤ rxSize) {first count : UInt8}
    {rest : List UInt8} (contents : buf.contents = first :: count :: rest) :
    (start buf fits).data = first :: rest := by
  have inside := buf.inside
  have len : buf.len = rest.length + 2 := len_eq contents
  have copied : buf.memory.take (buf.offset + buf.len) =
      buf.memory.take buf.offset ++ first :: count :: rest := by
    rw [take_add, ← contents]
    rfl
  have room : (buf.memory.take buf.offset).length = buf.offset := by
    rw [length_take]
    omega
  rw [data, start]
  dsimp only
  rw [copied, append_assoc, getD_eq_getElem?_getD,
    List.getElem?_append_right (le_of_eq room), room, Nat.sub_self,
    set_append_right _ _ (by omega), room]
  have behind : buf.offset + buf.len - (buf.len - 1) = buf.offset + 1 := by omega
  have one : buf.offset + 1 - buf.offset = 1 := by omega
  have taken : buf.len - 1 = (first :: rest).length := by
    rw [len]
    rfl
  rw [behind, one, drop_append, drop_of_length_le (by omega), nil_append, room, one, taken]
  exact take_left

end RxMsg

section Asmbl

variable {pktTypeLen : PktType → Nat} {checksSize : Bool} {rx : RxMsg} {buf : BtHdr}
  {octet : UInt8} {piece : List UInt8}

theorem size_ok (size : checksSize = true → buf.offset + buf.len ≤ rxSize) :
    ¬(checksSize = true ∧ headerSize + buf.offset + buf.len > btDefaultBufferSize) := by
  rintro ⟨checks, large⟩
  have small := size checks
  simp only [rxSize, btDefaultBufferSize, headerSize] at small large
  omega

section

variable (state : Option RxMsg) (contents : buf.contents = octet :: piece)
include contents

theorem one_le_len : 1 ≤ buf.len := by
  rw [← buf.length_contents, contents]
  exact Nat.succ_pos _

section

variable (size : checksSize = true → buf.offset + buf.len ≤ rxSize)
include size

theorem msgAsmbl_of_type {type : PktType} (octetType : prsPktType octet = type)
    (header : pktTypeLen type ≤ buf.len) :
    msgAsmbl pktTypeLen checksSize state buf = takePacket type state buf := by
  have len : buf.len = piece.length + 1 := len_eq contents
  have read : prsPktType (buf.contents.getD 0 0) = type := by
    rw [contents]
    exact octetType
  have sane : ¬(buf.len < pktTypeLen type ∨
      (checksSize = true ∧ headerSize + buf.offset + buf.len > btDefaultBufferSize)) :=
    not_or.mpr ⟨Nat.not_lt.mpr header, size_ok size⟩
  rw [msgAsmbl, if_neg (by omega)]
  rw [read, if_neg sane]

theorem msgAsmbl_single (type : prsPktType octet = .single)
    (header : pktTypeLen .single ≤ buf.len) :
    msgAsmbl pktTypeLen checksSize state buf = (some buf, none) :=
  msgAsmbl_of_type state contents size type header

theorem msgAsmbl_cont (type : prsPktType octet = .cont) (header : pktTypeLen .cont ≤ buf.len)
    (fits : rx.offset + piece.length ≤ rxSize) :
    msgAsmbl pktTypeLen checksSize (some rx) buf = (none, some (rx.append piece fits)) := by
  obtain rfl : buf.contents.drop 1 = piece := by rw [contents]; rfl
  rw [msgAsmbl_of_type _ contents size type header]
  exact (dif_pos fits).trans (if_neg (by decide))

theorem msgAsmbl_end (type : prsPktType octet = .end_) (header : pktTypeLen .end_ ≤ buf.len)
    (fits : rx.offset + piece.length ≤ rxSize) :
    msgAsmbl pktTypeLen checksSize (some rx) buf = (some (rx.finish piece fits), none) := by
  obtain rfl : buf.contents.drop 1 = piece := by rw [contents]; rfl
  rw [msgAsmbl_of_type _ contents size type header]
  exact (dif_pos fits).trans (if_pos rfl)

end

theorem msgAsmbl_start (type : prsPktType octet = .start) (header : pktTypeLen .start ≤ buf.len)
    (fits : buf.offset + buf.len ≤ rxSize) :
    msgAsmbl pktTypeLen checksSize state buf = (none, some (RxMsg.start buf fits)) :=
  (msgAsmbl_of_type state contents (fun _ => fits) type header).trans (dif_pos fits)

end

theorem assembleAll_pieces {more last : UInt8} {pieces : List (List UInt8)} {bufs : List BtHdr}
    (headers : pktTypeLen .cont ≤ 1 ∧ pktTypeLen .end_ ≤ 1)
    (types : prsPktType more = .cont ∧ prsPktType last = .end_) (some : pieces ≠ [])
    (contents : bufs.map contents = marked [more] [last] pieces)
    (sizes : checksSize = true → ∀ buf ∈ bufs, buf.offset + buf.len ≤ rxSize)
    (fits : rx.offset + pieces.flatten.length ≤ rxSize) :
    ∃ msg, assembleAll (msgAsmbl pktTypeLen checksSize) (.some rx) bufs = ([msg], none) ∧
      msg.contents = rx.data ++ pieces.flatten := by
  induction pieces generalizing rx bufs with
  | nil => exact absurd rfl some
  | cons piece rest ih =>
    rw [flatten_cons, length_append] at fits
    have here : rx.offset + piece.length ≤ rxSize := by omega
    cases rest with
    | nil =>
      obtain ⟨buf, rfl, own⟩ := map_eq_singleton_iff.mp contents
      have own : buf.contents = last :: piece := own
      have step := msgAsmbl_end own (fun checks => sizes checks buf mem_cons_self) types.2
        (headers.2.trans (one_le_len own)) here
      refine ⟨rx.finish piece here, ?_, ?_⟩
      · rw [assembleAll, step]
        rfl
      · rw [RxMsg.contents_finish, flatten_singleton]
    | cons next rest =>
      obtain ⟨buf, others, rfl, own, behind⟩ := map_eq_cons_iff.mp contents
      have own : buf.contents = more :: piece := own
      have step := msgAsmbl_cont own (fun checks => sizes checks buf mem_cons_self) types.1
        (headers.1.trans (one_le_len own)) here
      obtain ⟨msg, assembled, same⟩ := @ih (rx.append piece here) others (cons_ne_nil _ _)
        behind (fun checks other listed => sizes checks other (mem_cons_of_mem _ listed))
        (by
          show rx.offset + piece.length + _ ≤ rxSize
          omega)
      refine ⟨msg, ?_, ?_⟩
      · rw [assembleAll, step]
        rw [assembled]
        rfl
      · rw [same, RxMsg.data_append, append_assoc]
        rfl

end Asmbl

/-- The header octets of a start packet and of the packets behind it. -/
structure HeaderOctets (start more last : UInt8) : Prop where
  start : prsPktType start = .start
  more : prsPktType more = .cont
  last : prsPktType last = .end_

theorem headerOctets_buildHdr (label : Fin 16) (msg : Fin 4) :
    HeaderOctets (buildHdr label .start msg) (buildHdr label .cont msg) (buildHdr label .end_ msg) :=
  ⟨(prs_buildHdr label .start msg).2.1, (prs_buildHdr label .cont msg).2.1,
    (prs_buildHdr label .end_ msg).2.1⟩

section Fragments

variable {start more last : UInt8} {count : Nat} {front : List UInt8} {pieces : List (List UInt8)}
  {packets : List BtHdr} (octets : HeaderOctets start more last)
  (contents : packets.map contents =
    (start :: UInt8.ofNat count :: front) :: marked [more] [last] pieces)

include contents

theorem packets_bounded {size : Nat} (first : front.length + 2 ≤ size)
    (others : ∀ piece ∈ pieces, piece.length + 1 ≤ size) : ∀ packet ∈ packets, packet.len ≤ size := by
  intro packet listed
  have own : packet.contents ∈ packets.map BtHdr.contents := mem_map_of_mem listed
  rw [← packet.length_contents]
  rw [contents] at own
  rcases mem_cons.mp own with same | later
  · rw [same]
    exact first
  · obtain ⟨piece, mem, same | same⟩ := mem_marked later
    · rw [same]
      exact others piece mem
    · rw [same]
      exact others piece mem

include octets

theorem packets_counted_iff :
    (∀ packet ∈ packets, prsPktType (packet.contents.getD 0 0) = .start →
      (packet.contents.getD 1 0).toNat = packets.length) ↔ count % 256 = pieces.length + 1 := by
  obtain ⟨first, rest, rfl, head, tail⟩ := map_eq_cons_iff.mp contents
  have length : (first :: rest).length = pieces.length + 1 := by
    rw [← length_map (f := BtHdr.contents), contents, length_cons, length_marked]
  have counts : (first.contents.getD 1 0).toNat = count % 256 := by
    rw [head]
    exact UInt8.toNat_ofNat'
  rw [length, ← counts]
  constructor
  · intro counted
    refine counted first mem_cons_self ?_
    rw [head]
    exact octets.start
  · intro counted packet listed begins
    rcases mem_cons.mp listed with rfl | later
    · exact counted
    · have own : packet.contents ∈ rest.map BtHdr.contents := mem_map_of_mem later
      rw [tail] at own
      obtain ⟨piece, -, same | same⟩ := mem_marked own
      · rw [same] at begins
        cases octets.more.symm.trans begins
      · rw [same] at begins
        cases octets.last.symm.trans begins

theorem packets_assembled {pktTypeLen : PktType → Nat} {checksSize : Bool} {room : Nat}
    (headers : pktTypeLen .cont ≤ 1 ∧ pktTypeLen .end_ ≤ 1)
    (header : pktTypeLen .start ≤ front.length + 2) (some : pieces ≠ [])
    (fits : room + (front.length + 2) + pieces.flatten.length ≤ rxSize) {received : List BtHdr}
    (same : received.map BtHdr.contents = packets.map BtHdr.contents)
    (offset : ∀ first ∈ received.head?, first.offset ≤ room)
    (sizes : checksSize = true → ∀ buf ∈ received, buf.offset + buf.len ≤ rxSize) :
    ∃ msg, assembleAll (msgAsmbl pktTypeLen checksSize) none received = ([msg], none) ∧
      msg.contents = start :: (front ++ pieces.flatten) := by
  rw [contents] at same
  obtain ⟨first, rest, rfl, begin, tail⟩ := map_eq_cons_iff.mp same
  have small := offset first rfl
  have len : first.len = front.length + 2 := len_eq begin
  have within : first.offset + first.len ≤ rxSize := by omega
  have begun := @msgAsmbl_start pktTypeLen checksSize first _ _ none begin octets.start
    (header.trans (le_of_eq len.symm)) within
  have rest_fits : (RxMsg.start first within).offset + pieces.flatten.length ≤ rxSize := by
    show first.offset + first.len + _ ≤ rxSize
    omega
  obtain ⟨msg, assembled, whole⟩ := assembleAll_pieces headers ⟨octets.more, octets.last⟩ some tail
    (fun checks buf listed => sizes checks buf (mem_cons_of_mem _ listed)) rest_fits
  refine ⟨msg, ?_, ?_⟩
  · rw [assembleAll, begun]
    rw [assembled]
    rfl
  · rw [whole, RxMsg.data_start within begin]
    rfl

end Fragments

theorem single_assembled {pktTypeLen : PktType → Nat} {checksSize : Bool} {octet : UInt8}
    {front : List UInt8} {received : List BtHdr} (type : prsPktType octet = .single)
    (header : pktTypeLen .single ≤ front.length + 1)
    (same : received.map contents = [octet :: front])
    (sizes : checksSize = true → ∀ buf ∈ received, buf.offset + buf.len ≤ rxSize) :
    ∃ msg, assembleAll (msgAsmbl pktTypeLen checksSize) none received = ([msg], none) ∧
      msg.contents = octet :: front := by
  obtain ⟨buf, rfl, own⟩ := map_eq_singleton_iff.mp same
  have len : buf.len = front.length + 1 := len_eq own
  have step := @msgAsmbl_single pktTypeLen checksSize buf _ _ none own
    (fun checks => sizes checks buf mem_cons_self) type (header.trans (le_of_eq len.symm))
  refine ⟨buf, ?_, own⟩
  rw [assembleAll, step]
  rfl

end BluetoothFormal.Av
