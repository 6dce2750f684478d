import Mathlib.Data.List.Basic

/-!
# The buffers of the L2CAP layer

A buffer is a header followed by memory.  Its contents are a window of the
memory, given by an offset and a length of 16 bits each.  The octets before the
window are room for the headers of the lower layers, which step the offset back
and write in front of the contents.

A step that would leave the memory of the buffer has no result.
-/

namespace BluetoothFormal.L2cap

open List

def uint16ToStream (value : Nat) : List UInt8 := [UInt8.ofNat value, UInt8.ofNat (value / 256)]

def streamToUint16 (bytes : List UInt8) : Nat :=
  (bytes.getD 0 0).toNat + 256 * (bytes.getD 1 0).toNat

theorem length_uint16ToStream (value : Nat) : (uint16ToStream value).length = 2 := rfl

theorem streamToUint16_stream {value : Nat} (small : value < 65536) (rest : List UInt8) :
    streamToUint16 (uint16ToStream value ++ rest) = value := by
  change (UInt8.ofNat value).toNat + 256 * (UInt8.ofNat (value / 256)).toNat = value
  rw [UInt8.toNat_ofNat', UInt8.toNat_ofNat']
  omega

theorem streamToUint16_lt (bytes : List UInt8) : streamToUint16 bytes < 65536 := by
  have low := (bytes.getD 0 0).toNat_lt
  have high := (bytes.getD 1 0).toNat_lt
  unfold streamToUint16
  omega

/-- `memcpy` to an offset. -/
def copyAt (memory : List UInt8) (offset : Nat) (bytes : List UInt8) : List UInt8 :=
  memory.take offset ++ bytes ++ memory.drop (offset + bytes.length)

theorem length_copyAt {memory bytes : List UInt8} {offset : Nat}
    (fits : offset + bytes.length ≤ memory.length) :
    (copyAt memory offset bytes).length = memory.length := by
  rw [copyAt, length_append, length_append, length_take, length_drop]
  omega

/-- `BT_HDR` and the memory behind it, in which the contents lie. -/
structure BtHdr where
  event : Nat
  len : Nat
  offset : Nat
  memory : List UInt8
  inside : offset + len ≤ memory.length
  deriving DecidableEq

variable {buf : BtHdr}

namespace BtHdr

def contents (buf : BtHdr) : List UInt8 := (buf.memory.drop buf.offset).take buf.len

theorem length_contents (buf : BtHdr) : buf.contents.length = buf.len := by
  have inside := buf.inside
  rw [contents, length_take, length_drop]
  omega

theorem len_eq {buf : BtHdr} {bytes : List UInt8} (same : buf.contents = bytes) :
    buf.len = bytes.length := by
  rw [← same, length_contents]

/-- A buffer with room in front of its contents. -/
def withRoom (event : Nat) (room contents : List UInt8) : BtHdr where
  event := event
  len := contents.length
  offset := room.length
  memory := room ++ contents
  inside := Nat.le_of_eq length_append.symm

theorem contents_withRoom (event : Nat) (room contents : List UInt8) :
    (withRoom event room contents).contents = contents := by
  simp [withRoom, BtHdr.contents]

/--
Step back and write in front of the contents.  There is no result if the room is
too small.
-/
def stepBack (buf : BtHdr) (header : List UInt8) : Option BtHdr :=
  if header.length ≤ buf.offset then
    some (withRoom buf.event (buf.memory.take (buf.offset - header.length))
      (header ++ buf.contents))
  else none

theorem stepBack_of_room {buf : BtHdr} (header : List UInt8) (room : header.length ≤ buf.offset) :
    ∃ stepped, buf.stepBack header = some stepped ∧ stepped.contents = header ++ buf.contents ∧
      stepped.len = header.length + buf.len ∧ stepped.offset = buf.offset - header.length := by
  have inside := buf.inside
  refine ⟨_, if_pos room, contents_withRoom _ _ _, ?_, ?_⟩
  · change (header ++ buf.contents).length = _
    rw [length_append, length_contents]
  · change (buf.memory.take (buf.offset - header.length)).length = _
    rw [length_take]
    omega

/-- Leave out contents at the front. -/
def advance (buf : BtHdr) (count : Nat) : BtHdr where
  event := buf.event
  len := buf.len - count
  offset := buf.offset + min count buf.len
  memory := buf.memory
  inside := by
    have inside := buf.inside
    omega

theorem contents_advance {count : Nat} (within : count ≤ buf.len) :
    (buf.advance count).contents = buf.contents.drop count := by
  rw [contents, contents, advance]
  dsimp only
  rw [Nat.min_eq_left within, ← drop_drop, drop_take]

/-- `BT_HDR_SIZE`. -/
def headerSize : Nat := 8

def l2capMinOffset : Nat := 13

/--
A new buffer of a size, with a portion of the message behind room for a header.  There is no
result if the portion does not fit into the buffer.
-/
def newFragment (bufSize : Nat) (msg : BtHdr) (hdrLen len : Nat) : Option BtHdr :=
  if headerSize + (l2capMinOffset + hdrLen) + len ≤ bufSize ∧
      msg.offset + len ≤ msg.memory.length then
    some (withRoom 0 (replicate (l2capMinOffset + hdrLen) 0)
      ((msg.memory.drop msg.offset).take len))
  else none

theorem newFragment_eq {bufSize hdrLen len : Nat} (size : len + hdrLen + 21 ≤ bufSize)
    (within : len ≤ buf.len) :
    ∃ portion, newFragment bufSize buf hdrLen len = some portion ∧
      portion.contents = buf.contents.take len ∧ portion.len = len ∧
      portion.offset = l2capMinOffset + hdrLen := by
  have inside := buf.inside
  have fits : headerSize + (l2capMinOffset + hdrLen) + len ≤ bufSize := by
    simp only [headerSize, l2capMinOffset]
    omega
  have length : ((buf.memory.drop buf.offset).take len).length = len := by
    rw [length_take, length_drop]
    omega
  refine ⟨_, if_pos ⟨fits, by omega⟩, ?_, length, length_replicate⟩
  rw [contents_withRoom, contents, take_take, Nat.min_eq_left within]

def fcsLen : Nat := 2

/--
`l2c_fcr_clone_buf`.  The size of the new buffer is a number of 16 bits, and
there is no result if the copy does not fit into it.
-/
def clone (buf : BtHdr) (newOffset noOfBytes : Nat) : Option BtHdr :=
  let bufSize := (noOfBytes + headerSize + newOffset + fcsLen) % 65536
  if headerSize + newOffset + noOfBytes ≤ bufSize ∧ buf.offset + noOfBytes ≤ buf.memory.length then
    some (withRoom 0 (replicate newOffset 0) ((buf.memory.drop buf.offset).take noOfBytes))
  else none

theorem clone_of_fits (newOffset noOfBytes : Nat) (fits : noOfBytes + newOffset + 10 < 65536)
    (within : buf.offset + noOfBytes ≤ buf.memory.length) :
    ∃ copy, buf.clone newOffset noOfBytes = some copy ∧
      copy.contents = (buf.memory.drop buf.offset).take noOfBytes ∧
      copy.len = noOfBytes ∧ copy.offset = newOffset := by
  have size : (noOfBytes + headerSize + newOffset + fcsLen) % 65536 =
      noOfBytes + headerSize + newOffset + fcsLen := by
    apply Nat.mod_eq_of_lt
    simp only [headerSize, fcsLen]
    omega
  have enough : headerSize + newOffset + noOfBytes ≤
      (noOfBytes + headerSize + newOffset + fcsLen) % 65536 := by
    rw [size]
    omega
  refine ⟨_, if_pos ⟨enough, within⟩, contents_withRoom _ _ _, ?_, length_replicate⟩
  change ((buf.memory.drop buf.offset).take noOfBytes).length = _
  rw [length_take, length_drop]
  omega

/-- The size of the new buffer wraps, and the copy does not fit. -/
theorem clone_wraps {newOffset noOfBytes : Nat} (large : 65536 ≤ noOfBytes + newOffset + 10)
    (bounded : noOfBytes + newOffset + 10 < 131072) :
    buf.clone newOffset noOfBytes = none := by
  refine if_neg fun ⟨fits, _⟩ => ?_
  simp only [headerSize, fcsLen] at fits
  omega

end BtHdr

end BluetoothFormal.L2cap
