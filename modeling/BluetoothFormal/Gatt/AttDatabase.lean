import Mathlib.Data.List.TakeWhile
import BluetoothFormal.Foundation.Ascending
import BluetoothFormal.Foundation.Gather

/-!
# Attribute databases

The attributes of a GATT server with their handles, types and permissions, and what the
requests that list attributes share: the range of handles, the list that is filled up to
the size of a response, and the truncation of a value.
-/

namespace BluetoothFormal.Gatt

open Foundation.Gather List

/-- `Uuid`, as the number that its bytes stand for. -/
abbrev Uuid := BitVec 128

def uuidShift : Nat := 0x1000000000000000000000000

def baseUuid : Nat := 0x0000000000001000800000805F9B34FB

namespace Uuid

def new (val : UInt32) : Uuid := BitVec.ofNat 128 (baseUuid + val.toNat * uuidShift)

/-- `TryFrom<Uuid> for Uuid16Builder`. -/
def toUuid16 (uuid : Uuid) : Option UInt16 :=
  if uuid.toNat % uuidShift = baseUuid then
    if uuid.toNat / uuidShift < 65536 then some (UInt16.ofNat (uuid.toNat / uuidShift)) else none
  else none

theorem new_of_toUuid16 {uuid : Uuid} {data : UInt16} (short : uuid.toUuid16 = some data) :
    new data.toUInt32 = uuid := by
  obtain ⟨base, short⟩ := Option.ite_none_right_eq_some.mp short
  obtain ⟨small, same⟩ := Option.ite_none_right_eq_some.mp short
  cases same
  have value : (UInt16.ofNat (uuid.toNat / uuidShift)).toUInt32.toNat = uuid.toNat / uuidShift := by
    rw [UInt16.toNat_toUInt32, UInt16.toNat_ofNat_of_lt' small]
  rw [new, value, ← base, Nat.mul_comm, Nat.mod_add_div, BitVec.ofNat_toNat, BitVec.setWidth_eq]

end Uuid

def primaryServiceDeclarationUuid : Uuid := .new 0x2800
def secondaryServiceDeclarationUuid : Uuid := .new 0x2801
def characteristicUuid : Uuid := .new 0x2803

inductive AttErrorCode where
  | invalidHandle
  | readNotPermitted
  | writeNotPermitted
  | requestNotSupported
  | attributeNotFound
  | unsupportedGroupType
  | unlikelyError
  deriving DecidableEq

structure AttPermissions where
  readable : Bool
  writable : Bool

structure AttAttribute where
  handle : Nat
  type : Uuid
  permissions : AttPermissions

/-- `AttAttributeDataChild`: raw data, or a structured value with its bytes. -/
inductive AttributeData where
  | raw (bytes : List UInt8)
  | structured (bytes : List UInt8)
  deriving DecidableEq

/-- The bytes of a value. -/
def AttributeData.bytes : AttributeData → List UInt8
  | .raw bytes | .structured bytes => bytes

def truncateAttData (data : AttributeData) (len : Nat) : AttributeData :=
  match data with
  | .raw bytes => .raw (bytes.take len)
  | .structured bytes => .structured bytes

/--
A database that does not change: its attributes in the order of their handles, and
their values.
-/
structure AttDatabase where
  attributes : List AttAttribute
  readAttribute : Nat → Except AttErrorCode AttributeData
  ascending : attributes.Pairwise fun first second => first.handle < second.handle
  handles : ∀ attr ∈ attributes, attr.handle ≤ 0xFFFF

def filterToRange (startHandle endHandle : Nat) (attrs : List AttAttribute) :
    Option (List AttAttribute) :=
  if startHandle = 0 ∨ endHandle < startHandle then none
  else
    some ((attrs.dropWhile fun attr => attr.handle < startHandle).takeWhile
      fun attr => attr.handle ≤ endHandle)

variable {start last : Nat}

namespace AttDatabase

def attributesFrom (db : AttDatabase) (start : Nat) : List AttAttribute :=
  db.attributes.filter fun attr => start ≤ attr.handle

variable {db : AttDatabase}

theorem attributesFrom_one :
    db.attributesFrom 1 = db.attributes.filter fun attr => attr.handle ≠ 0 := by
  refine filter_congr fun attr _ => ?_
  rw [decide_eq_decide]
  exact Nat.one_le_iff_ne_zero

theorem attributesFrom_sublist (start : Nat) : (db.attributesFrom start).Sublist db.attributes :=
  filter_sublist

theorem mem_attributesFrom {start : Nat} {attr : AttAttribute} :
    attr ∈ db.attributesFrom start ↔ attr ∈ db.attributes ∧ start ≤ attr.handle := by
  rw [attributesFrom, mem_filter, decide_eq_true_iff]

theorem dropWhile_eq_filter {attrs : List AttAttribute}
    (ascending : attrs.Pairwise fun first second => first.handle < second.handle) (start : Nat) :
    attrs.dropWhile (fun attr => attr.handle < start) =
      attrs.filter fun attr => start ≤ attr.handle := by
  induction attrs with
  | nil => rfl
  | cons attr rest ih =>
    obtain ⟨smaller, ascendingRest⟩ := pairwise_cons.mp ascending
    by_cases before : attr.handle < start
    · have skipped : ¬decide (start ≤ attr.handle) = true := by
        rw [decide_eq_true_iff]
        exact Nat.not_le.mpr before
      rw [dropWhile_cons, filter_cons, if_pos (decide_eq_true before), if_neg skipped,
        ih ascendingRest]
    · have all : ∀ other ∈ attr :: rest, decide (start ≤ other.handle) = true := by
        intro other member
        rw [decide_eq_true_iff]
        rcases mem_cons.mp member with rfl | member
        · exact Nat.le_of_not_lt before
        · have := smaller other member
          omega
      rw [filter_eq_self.mpr all]
      exact dropWhile_cons_of_neg (by rw [decide_eq_true_iff]; exact before)

theorem filterToRange_last (valid : 1 ≤ start) (last : start ≤ 0xFFFF) :
    filterToRange start 0xFFFF db.attributes = some (db.attributesFrom start) := by
  rw [filterToRange, if_neg (by omega), dropWhile_eq_filter db.ascending]
  refine congrArg some (takeWhile_eq_self_iff.mpr fun attr member => ?_)
  exact decide_eq_true (db.handles attr ((attributesFrom_sublist start).subset member))

theorem attributesFrom_after {before after : List AttAttribute} {last : AttAttribute}
    (split : db.attributesFrom start = before ++ last :: after) :
    db.attributesFrom (last.handle + 1) = after :=
  Foundation.Ascending.filter_after db.ascending split

theorem attributesFrom_end : db.attributesFrom (0xFFFF + 1) = [] := by
  refine filter_eq_nil_iff.mpr fun attr member => ?_
  have := db.handles attr member
  rw [decide_eq_true_iff]
  omega

end AttDatabase

/-- Where a client goes on that has seen the handles up to one. -/
def handleAfter (last : Nat) : Option Nat :=
  if last = 0xFFFF then none else some (last + 1)

theorem handleAfter_eq_none (ended : handleAfter last = none) : last = 0xFFFF := by
  by_contra other
  rw [handleAfter, if_neg other] at ended
  cases ended

theorem handleAfter_eq_some {later : Nat} (goesOn : handleAfter last = some later) :
    last ≠ 0xFFFF ∧ later = last + 1 := by
  by_cases final : last = 0xFFFF
  · rw [handleAfter, if_pos final] at goesOn
    cases goesOn
  · rw [handleAfter, if_neg final] at goesOn
    exact ⟨final, (Option.some.inj goesOn).symm⟩

theorem delivers_behind {Response Item : Type} {items : Response → List Item}
    {lastHandle : Item → Nat} {remaining : Nat → List Item} {start : Nat} {response : Response}
    {left : List Item} (split : remaining start = items response ++ left)
    (complete : items response = [] → left = [])
    (behind : ∀ item, (items response).getLast? = some item →
      lastHandle item ≤ 0xFFFF ∧ remaining (lastHandle item + 1) = left)
    (finished : remaining (0xFFFF + 1) = []) :
    Delivers (fun start => 1 ≤ start ∧ start ≤ 0xFFFF) (fun _ => True) items remaining start
      response ((items response).getLast?.bind fun item => handleAfter (lastHandle item)) := by
  cases seen : (items response).getLast? with
  | none =>
    have nothing := List.getLast?_eq_none_iff.mp seen
    refine ⟨trivial, fun _ => ?_, nofun⟩
    rw [split, complete nothing, append_nil]
  | some item =>
    obtain ⟨bound, rest⟩ := behind item seen
    rw [Option.bind_some]
    refine ⟨trivial, fun ended => ?_, fun later goesOn => ?_⟩
    · rw [handleAfter_eq_none ended, finished] at rest
      rw [split, ← rest, append_nil]
    · obtain ⟨notFinal, rfl⟩ := handleAfter_eq_some goesOn
      refine ⟨⟨by omega, by omega⟩, fun none => ?_, ?_⟩
      · rw [none] at seen
        cases seen
      · rw [split, rest]

structure PayloadAccumulator (Elem : Type) where
  curr : Nat
  lim : Nat
  elems : List Elem

namespace PayloadAccumulator

variable {Elem : Type}

/-- `new`, with a size in bytes. -/
def new (size : Nat) : PayloadAccumulator Elem := ⟨0, size * 8, []⟩

/-- `push`, with the size of the element in bits. -/
def push (accumulator : PayloadAccumulator Elem) (elemSize : Nat) (elem : Elem) :
    Bool × PayloadAccumulator Elem :=
  if accumulator.lim < elemSize + accumulator.curr then (false, accumulator)
  else
    (true, { accumulator with
      curr := accumulator.curr + elemSize
      elems := accumulator.elems ++ [elem] })

/-- A loop that pushes elements until one does not fit. -/
def pushAll (size : Elem → Nat) :
    List Elem → PayloadAccumulator Elem → PayloadAccumulator Elem
  | [], accumulator => accumulator
  | elem :: rest, accumulator =>
    match accumulator.push (size elem) elem with
    | (true, accumulator) => pushAll size rest accumulator
    | (false, accumulator) => accumulator

/-- The loop takes the first elements, at least one if and only if it fits. -/
theorem pushAll_elems (size : Elem → Nat) (elems : List Elem)
    (accumulator : PayloadAccumulator Elem) :
    ∃ sent rest, elems = sent ++ rest ∧
      (pushAll size elems accumulator).elems = accumulator.elems ++ sent ∧
      ∀ first ∈ elems.head?, size first + accumulator.curr ≤ accumulator.lim ↔ sent ≠ [] := by
  induction elems generalizing accumulator with
  | nil => exact ⟨[], [], rfl, (append_nil _).symm, fun _ member => (nomatch member)⟩
  | cons elem others ih =>
    rw [pushAll, push]
    by_cases fits : accumulator.lim < size elem + accumulator.curr
    · rw [if_pos fits]
      refine ⟨[], elem :: others, rfl, (append_nil _).symm, ?_⟩
      rintro first ⟨⟩
      exact ⟨fun enough => absurd fits (Nat.not_lt.mpr enough), fun sent => absurd rfl sent⟩
    · rw [if_neg fits]
      obtain ⟨sent, rest, split, pushed, -⟩ := ih { accumulator with
        curr := accumulator.curr + size elem
        elems := accumulator.elems ++ [elem] }
      refine ⟨elem :: sent, rest, by rw [split]; rfl, ?_, ?_⟩
      · rw [pushed, append_assoc, singleton_append]
      · rintro first ⟨⟩
        exact ⟨fun _ => cons_ne_nil _ _, fun _ => Nat.le_of_not_lt fits⟩

end PayloadAccumulator

end BluetoothFormal.Gatt
