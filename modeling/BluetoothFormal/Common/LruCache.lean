import BluetoothFormal.Common.ListMap
import BluetoothFormal.Foundation.Recency

/-!
# The LRU cache

`LruCache` keeps its entries in a `ListMap`, from the warmest to the coldest key.  A
lookup splices the node of its key to the front, and an insertion into a full cache
extracts the last node.  Along every sequence of operations the cache is the list of
entries by most recent use.
-/

namespace BluetoothFormal.Common

open Foundation Foundation.KeyedList Option Recency ListMap Bool
open List hiding lookup

variable {capacity : Nat}

structure LruCache (Key Value : Type) where
  capacity : Nat
  listMap : ListMap Key Value

namespace LruCache

variable {Key Value : Type} [DecidableEq Key]

/-! ## Operations -/

def new (capacity : Nat) : LruCache Key Value := ⟨capacity, .empty⟩

def clear (cache : LruCache Key Value) : LruCache Key Value :=
  { cache with listMap := cache.listMap.clear }

/-- `find`: the iterator of a key, and the cache with its node in front. -/
def find (cache : LruCache Key Value) (key : Key) :
    Option (Option Nat × LruCache Key Value) :=
  match cache.listMap.find key with
  | none => some (none, cache)
  | some iter => do
    let listMap ← cache.listMap.splice cache.listMap.first iter
    return (some iter, { cache with listMap := listMap })

section

variable (cache : LruCache Key Value)

def contains (key : Key) : Option (Bool × LruCache Key Value) := do
  let (iter, cache) ← cache.find key
  return (iter.isSome, cache)

def makeRoom : Option (Option (Key × Value) × LruCache Key Value) :=
  if cache.listMap.size = cache.capacity then do
    let (_, tail, _) ← cache.listMap.nodeList.getLast?
    let (evicted, listMap) ← cache.listMap.extract tail
    return (evicted, { cache with listMap := listMap })
  else some (none, cache)

/-- `insert_or_assign`: the entry that was evicted. -/
def insertOrAssign (cache : LruCache Key Value) (key : Key) (value : Value) :
    Option (Option (Key × Value) × LruCache Key Value) := do
  let (present, cache) ← cache.contains key
  if present then
    -- the node of the key is the first one now
    let iter ← cache.listMap.first
    let nodeList := update iter (fun entry => (entry.1, value)) cache.listMap.nodeList
    return (none, { cache with listMap := { cache.listMap with nodeList := nodeList } })
  else
    let (evicted, cache) ← cache.makeRoom
    let listMap ← cache.listMap.insertOrAssign cache.listMap.first key value
    return (evicted, { cache with listMap := listMap })

/-- `try_emplace`: the iterator of a new entry, whether there is one, and what was evicted. -/
def tryEmplace (cache : LruCache Key Value) (key : Key) (value : Value) :
    Option ((Option Nat × Bool × Option (Key × Value)) × LruCache Key Value) := do
  let (present, cache) ← cache.contains key
  if present then return ((none, false, none), cache)
  else
    let (evicted, cache) ← cache.makeRoom
    let ((iter, inserted), listMap) := cache.listMap.tryEmplace cache.listMap.first key value
    return ((iter, inserted, evicted), { cache with listMap := listMap })

def extract (cache : LruCache Key Value) (key : Key) :
    Option (Option (Key × Value) × LruCache Key Value) := do
  let (removed, listMap) ← cache.listMap.extract key
  return (removed, { cache with listMap := listMap })

def erase (cache : LruCache Key Value) (iter : Nat) :
    Option (Option Nat × LruCache Key Value) := do
  let (next, listMap) ← cache.listMap.erase iter
  return (next, { cache with listMap := listMap })

def size (cache : LruCache Key Value) : Nat := cache.listMap.size

def entryAt (iter : Option Nat) : Option (Key × Value) :=
  iter.bind fun iter => lookup iter cache.listMap.nodeList

def perform :
    Recency.Operation Key Value → Option (Recency.Reply Key Value × LruCache Key Value)
  | .insertOrAssign key value => do
    let (evicted, cache) ← cache.insertOrAssign key value
    return (.entry evicted, cache)
  | .tryEmplace key value => do
    let ((iter, inserted, evicted), cache) ← cache.tryEmplace key value
    return (.emplaced (cache.entryAt iter) inserted evicted, cache)
  | .find key => do
    let (iter, cache) ← cache.find key
    return (.entry (cache.entryAt iter), cache)
  | .contains key => do
    let (present, cache) ← cache.contains key
    return (.flag present, cache)
  | .extract key => do
    let (removed, cache) ← cache.extract key
    return (.entry removed, cache)
  | .erase place => do
    -- an iterator is reached from the first one
    let (iter, _) ← cache.listMap.nodeList[place]?
    let (next, cache) ← cache.erase iter
    return (.entry (cache.entryAt next), cache)
  | .clear => some (.done, cache.clear)

end

def run : LruCache Key Value → List (Recency.Operation Key Value) →
    Option (List (Recency.Reply Key Value) × LruCache Key Value)
  | cache, [] => some ([], cache)
  | cache, operation :: rest =>
    match cache.perform operation with
    | none => none
    | some (reply, cache) =>
      (cache.run rest).map fun (replies, cache) => (reply :: replies, cache)

/-! ## Refinement -/

/-- The entries from the warmest to the coldest. -/
def entries (cache : LruCache Key Value) : List (Key × Value) := cache.listMap.entries

structure Holds (cache : LruCache Key Value) (capacity : Nat) : Prop where
  consistent : cache.listMap.Consistent
  capacity_eq : cache.capacity = capacity
  bounded : cache.entries.length ≤ capacity

/-- What an operation that succeeds returns and leaves. -/
def Yields {Result : Type} (capacity : Nat) (outcome : Option (Result × LruCache Key Value))
    (result : Result) (entries : List (Key × Value)) : Prop :=
  ∃ next, outcome = some (result, next) ∧ next.Holds capacity ∧ next.entries = entries

omit [DecidableEq Key] in
theorem Holds.distinct {cache : LruCache Key Value}
    (holds : cache.Holds capacity) : (keys cache.entries).Nodup := holds.consistent.distinct

section Operations

variable {cache : LruCache Key Value} {capacity : Nat} (holds : cache.Holds capacity)

include holds

theorem find_spec (key : Key) :
    ∃ next iter, cache.find key = some (iter, next) ∧ next.Holds capacity ∧
      next.entries = toFront key cache.entries ∧
      next.entryAt iter = (lookup key cache.entries).map (key, ·) ∧
      (iter.isSome = true ↔ key ∈ keys cache.entries) := by
  rw [find]
  cases found : cache.listMap.find key with
  | none =>
    have missing := holds.consistent.find_none.mp found
    have none := lookup_eq_none.mpr missing
    refine ⟨cache, .none, rfl, holds, ?_, ?_, ?_⟩
    · rw [toFront, entries, none]
    · rw [entries, none]
      rfl
    · exact iff_of_false false_ne_true missing
  | some iter =>
    obtain ⟨before, value, after, around⟩ := holds.consistent.find_some found
    obtain ⟨map, spliced, consistent, nodes⟩ := holds.consistent.splice_front around
    have entriesEq : map.entries = toFront key cache.entries := by
      rw [entries, around.entries_eq, toFront_split around.distinct, ListMap.entries, nodes,
        map_cons, map_append]
    refine ⟨⟨cache.capacity, map⟩, some iter, ?_, ⟨consistent, holds.capacity_eq, ?_⟩, entriesEq,
      ?_, ?_⟩
    · simp only [spliced]
      rfl
    · rw [entries, entriesEq, length_toFront holds.distinct]
      exact holds.bounded
    · rw [entries, around.entries_eq, lookup_split around.distinct, entryAt, nodes]
      exact if_pos rfl
    · exact iff_of_true rfl (holds.consistent.find_isSome.mp (found ▸ rfl))

theorem contains_spec (key : Key) :
    Yields capacity (cache.contains key) (decide (key ∈ keys cache.entries))
      (toFront key cache.entries) := by
  obtain ⟨next, iter, found, holdsNext, entriesEq, -, present⟩ := find_spec holds key
  refine ⟨next, ?_, holdsNext, entriesEq⟩
  rw [contains, found]
  have same : iter.isSome = decide (key ∈ keys cache.entries) :=
    eq_iff_iff.mpr (present.trans decide_eq_true_iff.symm)
  simp only [bind_eq_bind, bind_some, same]
  rfl

theorem extract_spec (key : Key) :
    Yields capacity (cache.extract key) ((lookup key cache.entries).map (key, ·))
      (remove key cache.entries) := by
  obtain ⟨map, extracted, consistent, entriesEq⟩ := ListMap.extract_spec holds.consistent key
  refine ⟨⟨cache.capacity, map⟩, ?_, ⟨consistent, holds.capacity_eq, ?_⟩, entriesEq⟩
  · rw [extract, extracted]
    rfl
  · rw [entries, entriesEq]
    exact Nat.le_trans (length_filter_le _ _) holds.bounded

theorem makeRoom_spec (positive : 1 ≤ capacity) :
    ∃ next, cache.makeRoom = some
        (if cache.entries.length = capacity then cache.entries.getLast? else none, next) ∧
      next.Holds capacity ∧ next.entries.length < capacity ∧ next.entries =
        if cache.entries.length = capacity then cache.entries.dropLast else cache.entries := by
  have size : cache.listMap.size = cache.capacity ↔ cache.entries.length = capacity := by
    rw [entries, ListMap.entries, length_map, ListMap.size, holds.capacity_eq]
  rw [makeRoom]
  by_cases full : cache.entries.length = capacity
  · rw [if_pos (size.mpr full), if_pos full, if_pos full]
    rcases eq_nil_or_concat cache.listMap.nodeList with empty | ⟨before, node, split⟩
    · rw [entries, ListMap.entries, empty] at full
      exact absurd full (Nat.ne_of_lt positive)
    · obtain ⟨iter, key, value⟩ := node
      rw [concat_eq_append] at split
      have around := holds.consistent.around split
      obtain ⟨next, extracted, holdsNext, entriesEq⟩ := extract_spec holds key
      have whole : cache.entries = before.map Prod.snd ++ [(key, value)] := around.entries_eq
      have kept : remove key cache.entries = before.map Prod.snd := by
        rw [entries, around.entries_eq, remove_split around.distinct]
        exact append_nil _
      have last : lookup key cache.entries = some value := by
        rw [entries, around.entries_eq, lookup_split around.distinct]
      rw [kept] at entriesEq
      rw [last] at extracted
      refine ⟨next, ?_, holdsNext, ?_, ?_⟩
      · rw [split, List.getLast?_concat, whole, List.getLast?_concat]
        exact extracted
      · rw [whole, length_append] at full
        rw [entriesEq]
        exact Nat.lt_of_succ_le (Nat.le_of_eq full)
      · rw [entriesEq, whole, dropLast_concat]
  · rw [if_neg (mt size.mp full), if_neg full, if_neg full]
    exact ⟨cache, rfl, holds, Nat.lt_of_le_of_ne holds.bounded full, rfl⟩

theorem emplace_front (room : cache.entries.length < capacity) {key : Key}
    (missing : key ∉ keys cache.entries) (value : Value) :
    LruCache.Holds ⟨cache.capacity, cache.listMap.emplace cache.listMap.first key value⟩ capacity ∧
      (cache.listMap.emplace cache.listMap.first key value).entries =
        (key, value) :: cache.entries := by
  have entriesEq : (cache.listMap.emplace cache.listMap.first key value).entries =
      (key, value) :: cache.entries := by
    rw [entries, emplace, first, placeBefore_begin]
    rfl
  refine ⟨⟨holds.consistent.emplace _ missing value, holds.capacity_eq, ?_⟩, entriesEq⟩
  rw [entries, entriesEq]
  exact room

theorem insertOrAssign_present {key : Key} (present : key ∈ keys cache.entries) (value : Value) :
    Yields capacity (cache.insertOrAssign key value) none
      ((key, value) :: remove key cache.entries) := by
  obtain ⟨next, contained, holdsNext, entriesEq⟩ := contains_spec holds key
  rw [decide_eq_true present] at contained
  obtain ⟨held, found⟩ := exists_lookup present
  rw [toFront, found] at entriesEq
  obtain ⟨node, rest, split, same, others⟩ := map_eq_cons_iff.mp entriesEq
  obtain ⟨iter, entry⟩ := node
  cases same
  have around : next.listMap.Around [] (iter, key, held) rest := holdsNext.consistent.around split
  have start : next.listMap.first = some iter := by
    rw [first, split]
    rfl
  have nodes : update iter (fun entry => (entry.1, value)) next.listMap.nodeList =
      (iter, key, value) :: rest := by
    rw [split]
    exact update_split around.iters _
  refine ⟨⟨next.capacity, { next.listMap with nodeList := (iter, key, value) :: rest }⟩, ?_,
    ⟨holdsNext.consistent.withValue around value, holdsNext.capacity_eq, ?_⟩, ?_⟩
  · rw [insertOrAssign, contained]
    simp only [bind_eq_bind, bind_some, if_pos, start, nodes]
    rfl
  · have bounded := holdsNext.bounded
    rw [entriesEq, ← others] at bounded
    exact bounded
  · rw [← others]
    rfl

theorem room_for (positive : 1 ≤ capacity) {key : Key} (missing : key ∉ keys cache.entries)
    (value : Value) :
    ∃ looked next, cache.contains key = some (false, looked) ∧
      looked.makeRoom = some ((enter capacity (key, value) cache.entries).1, next) ∧
      next.Holds capacity ∧ next.entries.length < capacity ∧ key ∉ keys next.entries ∧
      (key, value) :: next.entries = (enter capacity (key, value) cache.entries).2 := by
  obtain ⟨looked, contained, holdsLooked, same⟩ := contains_spec holds key
  rw [toFront_of_notMem missing] at same
  obtain ⟨next, made, holdsNext, room, left⟩ := makeRoom_spec holdsLooked positive
  rw [decide_eq_false missing] at contained
  rw [same] at made left
  refine ⟨looked, next, contained, ?_, holdsNext, room, ?_, ?_⟩
  · rw [made, enter]
    split <;> rfl
  · rw [left]
    split
    · exact fun member => missing (((dropLast_sublist _).map _).subset member)
    · exact missing
  · rw [left, enter]
    split <;> rfl

theorem insertOrAssign_missing (positive : 1 ≤ capacity) {key : Key}
    (missing : key ∉ keys cache.entries) (value : Value) :
    Yields capacity (cache.insertOrAssign key value) (enter capacity (key, value) cache.entries).1
      (enter capacity (key, value) cache.entries).2 := by
  obtain ⟨looked, next, contained, made, holdsNext, room, absent, entriesEq⟩ :=
    room_for holds positive missing value
  obtain ⟨holdsLast, last⟩ := emplace_front holdsNext room absent value
  refine ⟨_, ?_, holdsLast, last.trans entriesEq⟩
  have inserted : next.listMap.insertOrAssign next.listMap.first key value =
      some (next.listMap.emplace next.listMap.first key value) := by
    rw [ListMap.insertOrAssign, holdsNext.consistent.find_none.mpr absent]
  rw [insertOrAssign, contained]
  simp only [bind_eq_bind, bind_some, false_eq_true, if_false, made, inserted]
  rfl

theorem tryEmplace_missing (positive : 1 ≤ capacity) {key : Key}
    (missing : key ∉ keys cache.entries) (value : Value) :
    ∃ next iter, cache.tryEmplace key value = some
        ((iter, true, (enter capacity (key, value) cache.entries).1), next) ∧
      next.Holds capacity ∧ next.entryAt iter = some (key, value) ∧
      next.entries = (enter capacity (key, value) cache.entries).2 := by
  obtain ⟨looked, next, contained, made, holdsNext, room, absent, entriesEq⟩ :=
    room_for holds positive missing value
  obtain ⟨holdsLast, last⟩ := emplace_front holdsNext room absent value
  refine ⟨_, some next.listMap.allocated, ?_, holdsLast, ?_, last.trans entriesEq⟩
  · have inserted : next.listMap.tryEmplace next.listMap.first key value =
        ((some next.listMap.allocated, true),
          next.listMap.emplace next.listMap.first key value) := by
      rw [ListMap.tryEmplace, holdsNext.consistent.find_none.mpr absent]
    rw [tryEmplace, contained]
    simp only [bind_eq_bind, bind_some, false_eq_true, if_false, made, inserted]
    rfl
  · rw [entryAt, bind_some, emplace, first, placeBefore_begin]
    exact if_pos rfl

theorem tryEmplace_present {key : Key} (present : key ∈ keys cache.entries) (value : Value) :
    Yields capacity (cache.tryEmplace key value) (none, false, none)
      (toFront key cache.entries) := by
  obtain ⟨next, contained, holdsNext, entriesEq⟩ := contains_spec holds key
  rw [decide_eq_true present] at contained
  refine ⟨next, ?_, holdsNext, entriesEq⟩
  rw [tryEmplace, contained]
  rfl

theorem insertOrAssign_spec (positive : 1 ≤ capacity) (key : Key) (value : Value) :
    Yields capacity (cache.insertOrAssign key value)
      (Recency.insertOrAssign capacity key value cache.entries).1
      (Recency.insertOrAssign capacity key value cache.entries).2 := by
  rw [Recency.insertOrAssign]
  split
  · rename_i present
    exact insertOrAssign_present holds present value
  · rename_i missing
    exact insertOrAssign_missing holds positive missing value

theorem tryEmplace_spec (positive : 1 ≤ capacity) (key : Key) (value : Value) :
    ∃ next iter, cache.tryEmplace key value = some ((iter, decide (key ∉ keys cache.entries),
        (Recency.tryEmplace capacity key value cache.entries).1), next) ∧ next.Holds capacity ∧
      next.entryAt iter = (if key ∉ keys cache.entries then some (key, value) else none) ∧
      next.entries = (Recency.tryEmplace capacity key value cache.entries).2 := by
  rw [Recency.tryEmplace]
  by_cases present : key ∈ keys cache.entries
  · obtain ⟨next, emplaced, holdsNext, entriesEq⟩ := tryEmplace_present holds present value
    rw [if_pos present, if_neg (not_not.mpr present), decide_eq_false (not_not.mpr present)]
    exact ⟨next, none, emplaced, holdsNext, rfl, entriesEq⟩
  · obtain ⟨next, iter, emplaced, holdsNext, pointed, entriesEq⟩ :=
      tryEmplace_missing holds positive present value
    rw [if_neg present, if_pos present, decide_eq_true present]
    exact ⟨next, iter, emplaced, holdsNext, pointed, entriesEq⟩

theorem erase_spec {place iter : Nat} {entry : Key × Value}
    (at_ : cache.listMap.nodeList[place]? = some (iter, entry)) :
    ∃ next behind, cache.erase iter = some (behind, next) ∧ next.Holds capacity ∧
      next.entryAt behind = cache.entries[place + 1]? ∧
      next.entries = cache.entries.eraseIdx place := by
  obtain ⟨inside, node⟩ := List.getElem?_eq_some_iff.mp at_
  have split : cache.listMap.nodeList = cache.listMap.nodeList.take place ++
      (iter, entry) :: cache.listMap.nodeList.drop (place + 1) := by
    rw [← node, getElem_cons_drop, take_append_drop]
  obtain ⟨map, erased, consistent, nodes⟩ :=
    ListMap.erase_spec holds.consistent (holds.consistent.around split)
  have entriesEq : map.entries = cache.entries.eraseIdx place := by
    rw [entries, ListMap.entries, ListMap.entries, nodes, eraseIdx_eq_take_drop_succ,
      map_append, map_take, map_drop]
  refine ⟨⟨cache.capacity, map⟩, beginOf (cache.listMap.nodeList.drop (place + 1)), ?_,
    ⟨consistent, holds.capacity_eq, ?_⟩, ?_, entriesEq⟩
  · rw [erase, erased]
    rfl
  · rw [entries, entriesEq]
    exact Nat.le_trans (length_eraseIdx_le ..) holds.bounded
  · rw [entries, ListMap.entries, List.getElem?_map]
    cases rest : cache.listMap.nodeList.drop (place + 1) with
    | nil =>
      rw [List.getElem?_eq_none (drop_eq_nil_iff.mp rest)]
      rfl
    | cons behind others =>
      rw [← List.head?_drop, rest]
      rw [rest] at nodes
      exact (consistent.around nodes).lookup_iter

end Operations

/-- What an operation of the cache has to agree with. -/
def Agrees (capacity : Nat) (outcome : Option (Recency.Reply Key Value × LruCache Key Value)) :
    Option (Recency.Reply Key Value × List (Key × Value)) → Prop
  | none => outcome = none
  | some (reply, entries) => Yields capacity outcome reply entries

theorem perform_agrees {cache : LruCache Key Value} (positive : 1 ≤ capacity)
    (holds : cache.Holds capacity) (operation : Recency.Operation Key Value) :
    Agrees capacity (cache.perform operation)
      (Recency.perform capacity cache.entries operation) := by
  cases operation with
  | insertOrAssign key value =>
    obtain ⟨next, inserted, holdsNext, entriesEq⟩ := insertOrAssign_spec holds positive key value
    refine ⟨next, ?_, holdsNext, entriesEq⟩
    rw [perform, inserted]
    rfl
  | tryEmplace key value =>
    obtain ⟨next, iter, emplaced, holdsNext, pointed, entriesEq⟩ :=
      tryEmplace_spec holds positive key value
    refine ⟨next, ?_, holdsNext, entriesEq⟩
    rw [perform, emplaced, ← pointed]
    rfl
  | find key =>
    obtain ⟨next, iter, found, holdsNext, entriesEq, pointed, -⟩ := find_spec holds key
    refine ⟨next, ?_, holdsNext, entriesEq⟩
    rw [perform, found, ← pointed]
    rfl
  | contains key =>
    obtain ⟨next, contained, holdsNext, entriesEq⟩ := contains_spec holds key
    refine ⟨next, ?_, holdsNext, entriesEq⟩
    rw [perform, contained]
    rfl
  | extract key =>
    obtain ⟨next, extracted, holdsNext, entriesEq⟩ := extract_spec holds key
    refine ⟨next, ?_, holdsNext, entriesEq⟩
    rw [perform, extracted]
    rfl
  | erase place =>
    rw [Recency.perform, perform]
    have length : cache.entries.length = cache.listMap.nodeList.length := length_map ..
    split
    · rename_i inside
      rw [length] at inside
      obtain ⟨⟨iter, entry⟩, at_⟩ : ∃ node, cache.listMap.nodeList[place]? = some node :=
        ⟨_, List.getElem?_eq_getElem inside⟩
      obtain ⟨next, behind, erased, holdsNext, pointed, entriesEq⟩ := erase_spec holds at_
      refine ⟨next, ?_, holdsNext, entriesEq⟩
      rw [at_, ← pointed]
      simp only [bind_eq_bind, bind_some, erased]
      rfl
    · rename_i outside
      rw [length, Nat.not_lt] at outside
      rw [List.getElem?_eq_none outside]
      exact Option.bind_none _
  | clear =>
    exact ⟨cache.clear, rfl, ⟨cache.listMap.clear_consistent, holds.capacity_eq, Nat.zero_le _⟩,
      rfl⟩

/-- A sequence of operations is the sequence on the entries by most recent use. -/
theorem run_agrees {cache : LruCache Key Value} (positive : 1 ≤ capacity)
    (holds : cache.Holds capacity) (operations : List (Recency.Operation Key Value)) :
    (cache.run operations = none ∧ Recency.run capacity cache.entries operations = none) ∨
      ∃ replies next, cache.run operations = some (replies, next) ∧ next.Holds capacity ∧
        Recency.run capacity cache.entries operations = some (replies, next.entries) := by
  induction operations generalizing cache with
  | nil => exact .inr ⟨[], cache, rfl, holds, rfl⟩
  | cons operation rest ih =>
    have agrees := perform_agrees positive holds operation
    rw [run, Recency.run]
    cases performed : Recency.perform capacity cache.entries operation with
    | none =>
      rw [performed] at agrees
      rw [show cache.perform operation = none from agrees]
      exact .inl ⟨rfl, rfl⟩
    | some result =>
      obtain ⟨reply, entries⟩ := result
      rw [performed] at agrees
      obtain ⟨next, outcome, holdsNext, rfl⟩ := agrees
      rw [outcome]
      rcases ih holdsNext with ⟨stuck, stuckToo⟩ | ⟨replies, last, ran, holdsLast, ranToo⟩
      · left
        simp [stuck, stuckToo]
      · right
        refine ⟨reply :: replies, last, ?_, holdsLast, ?_⟩
        · simp [ran]
        · simp [ranToo]

/--
Along every sequence of operations on a new cache, the cache returns what the list of
entries by most recent use returns, and holds its entries: the index and the node list
are consistent, the size is within the capacity, and the entries are sorted by the time
of their last use.
-/
theorem run_refines_recency {capacity : Nat} (positive : 1 ≤ capacity)
    (operations : List (Recency.Operation Key Value)) :
    ((new capacity).run operations = none ∧ Recency.run capacity [] operations = none) ∨
      ∃ replies cache, (new capacity).run operations = some (replies, cache) ∧
        Recency.run capacity [] operations = some (replies, cache.entries) ∧
        cache.listMap.Consistent ∧ cache.size ≤ capacity ∧
        (keys cache.entries).Pairwise fun first second =>
          lastUse (fun _ => 0) 0 operations second <
            Recency.lastUse (fun _ => 0) 0 operations first := by
  have holds : (new capacity : LruCache Key Value).Holds capacity :=
    ⟨empty_consistent, rfl, Nat.zero_le _⟩
  rcases run_agrees positive holds operations with stuck | ⟨replies, cache, ran, holdsLast, ranToo⟩
  · exact .inl stuck
  · refine .inr ⟨replies, cache, ran, ranToo, holdsLast.consistent, ?_, ?_⟩
    · have bounded := holdsLast.bounded
      rw [entries, ListMap.entries, length_map] at bounded
      exact bounded
    · exact (Recency.run_sorted Recency.Sorted.nil ranToo).order

/-- A cache of two entries evicts the key that was not looked up. -/
theorem run_refines_recency_two :
    ∃ cache : LruCache Nat Nat,
      (new 2).run [.insertOrAssign 1 10, .insertOrAssign 2 20, .find 1, .insertOrAssign 3 30] =
        some ([.entry none, .entry none, .entry (some (1, 10)), .entry (some (2, 20))], cache) ∧
      cache.entries = [(3, 30), (1, 10)] ∧ cache.listMap.Consistent := by
  have runs : Recency.run 2 []
      [.insertOrAssign 1 10, .insertOrAssign 2 20, .find 1, .insertOrAssign 3 30] =
        some ([.entry none, .entry none, .entry (some (1, 10)), .entry (some (2, 20))],
          [(3, 30), (1, 10)]) := by decide
  rcases run_refines_recency (by decide : 1 ≤ 2)
    [.insertOrAssign 1 10, .insertOrAssign 2 20, .find 1, .insertOrAssign 3 30] with
    ⟨-, stuck⟩ | ⟨replies, cache, ran, ranToo, consistent, -⟩
  · rw [runs] at stuck
    cases stuck
  · rw [runs] at ranToo
    obtain ⟨rfl, same⟩ := Prod.mk.inj (some.inj ranToo)
    exact ⟨cache, ran, same.symm, consistent⟩

end LruCache

end BluetoothFormal.Common
