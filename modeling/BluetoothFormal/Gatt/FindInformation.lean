import BluetoothFormal.Gatt.AttDatabase

/-!
# Find Information

A response to Find Information lists attributes with short UUIDs only, or any attributes
with long UUIDs.  A client that goes on behind the last handle of each response finds
every attribute with its type.
-/

namespace BluetoothFormal.Gatt

open Foundation.Gather List AttAttribute PayloadAccumulator

inductive FindInformationResponse where
  | error (handleInError : Nat) (errorCode : AttErrorCode)
  | short (data : List (Nat × UInt16))
  | long (data : List (Nat × Uuid))
  deriving DecidableEq

open FindInformationResponse

/-- The loop of `handle_find_information_request_short`, with entries of four bytes. -/
def pushShortEntries :
    List AttAttribute → PayloadAccumulator (Nat × UInt16) → PayloadAccumulator (Nat × UInt16)
  | [], out => out
  | attr :: rest, out =>
    match attr.type.toUuid16 with
    | some uuid =>
      match out.push (4 * 8) (attr.handle, uuid) with
      | (true, out) => pushShortEntries rest out
      | (false, out) => out
    | none => out

variable {mtu : Nat}

section

variable (attributes : List AttAttribute)

def handleFindInformationRequestShort (mtu : Nat) : Option (List (Nat × UInt16)) :=
  let out := pushShortEntries attributes (.new (mtu - 2))
  if out.elems.isEmpty then none else some out.elems

/-- `handle_find_information_request_long`, with entries of eighteen bytes. -/
def handleFindInformationRequestLong (mtu : Nat) : Option (List (Nat × Uuid)) :=
  let out := pushAll (fun _ => 18 * 8)
    (attributes.map fun attr => (attr.handle, attr.type)) (.new (mtu - 2))
  if out.elems.isEmpty then none else some out.elems

def handleFindInformationRequest (startingHandle endingHandle mtu : Nat) (db : AttDatabase) :
    FindInformationResponse :=
  match filterToRange startingHandle endingHandle db.attributes with
  | none => .error startingHandle .invalidHandle
  | some attrs =>
    match handleFindInformationRequestShort attrs mtu with
    | some data => .short data
    | none =>
      match handleFindInformationRequestLong attrs mtu with
      | some data => .long data
      | none => .error startingHandle .attributeNotFound

/-- The attributes that a response names, with their types. -/
def FindInformationResponse.found : FindInformationResponse → List (Nat × Uuid)
  | .error _ _ => []
  | .short data => data.map fun entry => (entry.1, Uuid.new entry.2.toUInt32)
  | .long data => data

/-- The handle behind the last one of a response, if there is one. -/
def nextHandle (found : List (Nat × Uuid)) : Option Nat :=
  found.getLast?.bind fun entry => handleAfter entry.1

def findInformationFrom (db : AttDatabase) (mtu : Nat) (_turn start : Nat) :
    Option (FindInformationResponse × Option Nat) :=
  let response := handleFindInformationRequest start 0xFFFF mtu db
  some (response, nextHandle response.found)

/-- An attribute as a client sees it. -/
def AttAttribute.information (attr : AttAttribute) : Nat × Uuid := (attr.handle, attr.type)

theorem pushShortEntries_elems (out : PayloadAccumulator (Nat × UInt16)) :
    ∃ sent rest, attributes = sent ++ rest ∧ ∃ data,
      (pushShortEntries attributes out).elems = out.elems ++ data ∧
        data.map (fun entry => (entry.1, Uuid.new entry.2.toUInt32)) = sent.map information := by
  induction attributes generalizing out with
  | nil => exact ⟨[], [], rfl, [], (append_nil _).symm, rfl⟩
  | cons attr others ih =>
    rw [pushShortEntries]
    cases short : attr.type.toUuid16 with
    | none => exact ⟨[], attr :: others, rfl, [], (append_nil _).symm, rfl⟩
    | some uuid =>
      dsimp only
      rw [push]
      by_cases fits : out.lim < 4 * 8 + out.curr
      · rw [if_pos fits]
        exact ⟨[], attr :: others, rfl, [], (append_nil _).symm, rfl⟩
      · rw [if_neg fits]
        obtain ⟨sent, rest, split, data, pushed, same⟩ := ih { out with
          curr := out.curr + 4 * 8
          elems := out.elems ++ [(attr.handle, uuid)] }
        refine ⟨attr :: sent, rest, by rw [split]; rfl, (attr.handle, uuid) :: data, ?_, ?_⟩
        · rw [pushed, append_assoc, singleton_append]
        · rw [map_cons, map_cons, same, Uuid.new_of_toUuid16 short, information]

theorem handleFindInformationRequestShort_some {attributes : List AttAttribute}
    {data : List (Nat × UInt16)}
    (handled : handleFindInformationRequestShort attributes mtu = some data) :
    ∃ sent rest, attributes = sent ++ rest ∧ sent ≠ [] ∧
      (short data).found = sent.map information := by
  obtain ⟨sent, rest, split, listed, pushed, same⟩ :=
    pushShortEntries_elems attributes (.new (mtu - 2))
  rw [new, nil_append] at pushed
  rw [handleFindInformationRequestShort, new, pushed] at handled
  obtain ⟨filled, kept⟩ := Option.ite_none_left_eq_some.mp handled
  cases kept
  refine ⟨sent, rest, split, ?_, same⟩
  rintro rfl
  rw [map_nil, map_eq_nil_iff] at same
  exact filled (isEmpty_iff.mpr same)

theorem handleFindInformationRequestLong_cases (minimum : 23 ≤ mtu) :
    (attributes = [] ∧ handleFindInformationRequestLong attributes mtu = none) ∨
    ∃ sent rest, attributes = sent ++ rest ∧ sent ≠ [] ∧
      handleFindInformationRequestLong attributes mtu = some (sent.map information) := by
  cases attributes with
  | nil => exact .inl ⟨rfl, rfl⟩
  | cons attr others =>
    right
    obtain ⟨sent, rest, split, pushed, nonempty⟩ := pushAll_elems
      (fun _ => 18 * 8) ((attr :: others).map information)
      (.new (mtu - 2))
    have sentSome : sent ≠ [] := by
      refine (nonempty attr.information rfl).mp ?_
      show 18 * 8 + 0 ≤ (mtu - 2) * 8
      omega
    obtain ⟨first, second, same, rfl, -⟩ := map_eq_append_iff.mp split
    refine ⟨first, second, same, fun none => sentSome (by rw [none]; rfl), ?_⟩
    rw [new, nil_append] at pushed
    rw [handleFindInformationRequestLong, new]
    have filled : ¬(first.map information).isEmpty = true := by
      rw [List.isEmpty_iff]
      exact sentSome
    exact (congrArg (fun elems => if elems.isEmpty then none else some elems) pushed).trans
      (if_neg filled)

end

theorem handleFindInformationRequest_found {db : AttDatabase} {mtu start : Nat}
    (minimum : 23 ≤ mtu) (valid : 1 ≤ start) (last : start ≤ 0xFFFF) :
    ∃ sent rest, db.attributesFrom start = sent ++ rest ∧ (sent = [] → rest = []) ∧
      (handleFindInformationRequest start 0xFFFF mtu db).found = sent.map information := by
  rw [handleFindInformationRequest, AttDatabase.filterToRange_last valid last]
  dsimp only
  cases short : handleFindInformationRequestShort (db.attributesFrom start) mtu with
  | some data =>
    obtain ⟨sent, rest, split, nonempty, found⟩ := handleFindInformationRequestShort_some short
    exact ⟨sent, rest, split, fun none => absurd none nonempty, found⟩
  | none =>
    rcases handleFindInformationRequestLong_cases (db.attributesFrom start) minimum with
      ⟨empty, handled⟩ | ⟨sent, rest, split, nonempty, handled⟩
    · rw [handled]
      exact ⟨[], [], empty, fun _ => rfl, rfl⟩
    · rw [handled]
      exact ⟨sent, rest, split, fun none => absurd none nonempty, rfl⟩

theorem findInformationFrom_delivers {db : AttDatabase} (minimum : 23 ≤ mtu) (turn start : Nat)
    (good : 1 ≤ start ∧ start ≤ 0xFFFF) :
    ∃ response next, findInformationFrom db mtu turn start = some (response, next) ∧
      Delivers (fun start => 1 ≤ start ∧ start ≤ 0xFFFF) (fun _ => True) found
        (fun start => (db.attributesFrom start).map information) start response
        next := by
  obtain ⟨sent, rest, split, complete, found⟩ :=
    @handleFindInformationRequest_found db mtu start minimum good.1 good.2
  refine ⟨_, _, rfl, @delivers_behind _ _ _ Prod.fst _ _ _ (rest.map information) ?_ ?_ ?_ ?_⟩
  · rw [found, split, map_append]
  · intro nothing
    rw [found, map_eq_nil_iff] at nothing
    rw [complete nothing, map_nil]
  · intro item seen
    rw [found, List.getLast?_map] at seen
    obtain ⟨last, final, rfl⟩ := Option.map_eq_some_iff.mp seen
    obtain ⟨before, rfl⟩ := List.getLast?_eq_some_iff.mp final
    rw [append_assoc, singleton_append] at split
    have member : last ∈ db.attributesFrom start := by
      rw [split]
      exact mem_append_right _ (mem_cons_self ..)
    refine ⟨db.handles last (AttDatabase.mem_attributesFrom.mp member).1, ?_⟩
    exact congrArg (List.map information) (AttDatabase.attributesFrom_after split)
  · rw [AttDatabase.attributesFrom_end, map_nil]

/-- A client finds all attributes in order, each with its type, but for the handle zero. -/
theorem findInformation_complete (db : AttDatabase) (mtu : Nat) (minimum : 23 ≤ mtu) :
    ∃ responses,
      gather (findInformationFrom db mtu) (db.attributes.length + 1) 0 1 = some responses ∧
      responses.flatMap found = (db.attributes.filter fun attr => attr.handle ≠ 0).map
          fun attr => (attr.handle, attr.type) := by
  have enough : ((db.attributesFrom 1).map information).length < db.attributes.length + 1 := by
    rw [length_map]
    exact Nat.lt_succ_of_le (length_filter_le ..)
  obtain ⟨responses, gathered, -, whole⟩ :=
    gather_of_delivers (findInformationFrom_delivers minimum)
      (⟨Nat.le_refl 1, by decide⟩ : 1 ≤ 1 ∧ 1 ≤ 0xFFFF) enough
  refine ⟨responses, gathered, whole.trans ?_⟩
  rw [AttDatabase.attributesFrom_one]
  rfl

/-- A long type between two short ones. -/
def mixedTypes : AttDatabase where
  attributes := [⟨1, .new 0x2800, ⟨true, false⟩⟩, ⟨2, 0x1234, ⟨true, true⟩⟩,
    ⟨5, .new 0x2803, ⟨true, false⟩⟩]
  readAttribute _ := .error .attributeNotFound
  ascending := by decide
  handles := by decide

theorem findInformation_complete_mixed :
    23 ≤ 23 ∧ ∃ responses, gather (findInformationFrom mixedTypes 23) 4 0 1 = some responses ∧
      responses.flatMap found = [(1, .new 0x2800), (2, 0x1234), (5, .new 0x2803)] :=
  ⟨Nat.le_refl 23, findInformation_complete mixedTypes 23 (Nat.le_refl 23)⟩

def reservedHandle : AttDatabase where
  attributes := [⟨0, .new 0x2800, ⟨true, false⟩⟩]
  readAttribute _ := .error .attributeNotFound
  ascending := by decide
  handles := by decide

/-- The attribute with the handle zero is not found. -/
theorem reservedHandle_not_found :
    gather (findInformationFrom reservedHandle 23) 2 0 1 = some [.error 1 .attributeNotFound] ∧
      reservedHandle.attributes.map (fun attr => (attr.handle, attr.type)) =
        [(0, .new 0x2800)] := by
  decide

end BluetoothFormal.Gatt
