import BluetoothFormal.Foundation.Fragments
import BluetoothFormal.Gatt.Legacy.Server

/-!
# Long writes of the legacy GATT client

A value that does not fit one request is sent in Prepare Write requests, each when the
response to the one before is there, and an Execute Write request ends the operation.
A response is compared with what was sent, but not its offset, and one that is too long or
too short ends the operation without an Execute Write request.
-/

namespace BluetoothFormal.Gatt.Legacy

open L2cap Foundation.Fragments List

/-- `GATT_WRITE` and `GATT_WRITE_PREPARE`. -/
inductive WriteType where
  | write
  | prepare
  deriving DecidableEq

/-- The operation `tGATT_CLCB` with the value `tGATT_VALUE` in its buffer. -/
structure WriteClcb where
  opSubtype : WriteType
  handle : Nat
  value : List UInt8
  offset : Nat
  startOffset : Nat
  counter : Nat
  status : GattStatus

/-- An operation that has sent the first of some pieces. -/
structure Sending (payloadSize : Nat) (clcb : WriteClcb) (piece : List UInt8)
    (pieces : List (List UInt8)) : Prop where
  type : clcb.opSubtype = .write
  cut : Cut (payloadSize - 5) (clcb.value.drop clcb.offset) (piece :: pieces)
  counter : clcb.counter = piece.length
  inside : clcb.offset < clcb.value.length

variable {piece : List UInt8} {pieces : List (List UInt8)} {clcb : WriteClcb} {payloadSize : Nat}

theorem Cut.head_eq {size : Nat} {items : List UInt8} (cut : Cut size items (piece :: pieces)) :
    piece = items.take (min items.length size) ∧ (pieces = [] ↔ items.length ≤ size) ∧
      (pieces ≠ [] → Cut size (items.drop piece.length) pieces) := by
  cases cut with
  | last short =>
    refine ⟨?_, iff_of_true rfl short, fun more => absurd rfl more⟩
    rw [Nat.min_eq_left short, take_length]
  | more long rest =>
    have full : (items.take size).length = size := by
      rw [length_take]
      omega
    refine ⟨?_, iff_of_false rest.ne_nil (Nat.not_le.mpr long), fun _ => ?_⟩
    · rw [Nat.min_eq_right (Nat.le_of_lt long)]
    · rw [full]
      exact rest

variable {response : List UInt8}

namespace Sending

theorem sizes (sending : Sending payloadSize clcb piece pieces) :
    piece.length = min (clcb.value.length - clcb.offset) (payloadSize - 5) ∧
      (clcb.value.drop clcb.offset).take piece.length = piece ∧
      (pieces = [] ↔ clcb.value.length - clcb.offset ≤ payloadSize - 5) := by
  obtain ⟨first, lastIff, -⟩ := Cut.head_eq sending.cut
  rw [length_drop] at first lastIff
  have size : piece.length = min (clcb.value.length - clcb.offset) (payloadSize - 5) := by
    rw [first, length_take, length_drop]
    omega
  refine ⟨size, ?_, lastIff⟩
  rw [size, ← first]

end Sending

variable {responses : List (List UInt8)}

end BluetoothFormal.Gatt.Legacy
