import BluetoothFormal.Foundation.KeyedList

/-!
# Entries by most recent use

The entries of a bounded cache, the most recently used one first.  A use of a key moves
its entry to the front, and a new entry takes the place of the last one if there is no
room.  After any sequence of operations the entries are sorted by their last use.
-/

namespace BluetoothFormal.Foundation.Recency

open Foundation.KeyedList

variable {Key Value : Type} [DecidableEq Key]

/-- The operations on a cache; `erase` is given the place of an entry. -/
inductive Operation (Key Value : Type) where
  | insertOrAssign (key : Key) (value : Value)
  | tryEmplace (key : Key) (value : Value)
  | find (key : Key)
  | contains (key : Key)
  | extract (key : Key)
  | erase (place : Nat)
  | clear

/-- What an operation returns, with entries for the places that it points to. -/
inductive Reply (Key Value : Type) where
  | entry (entry : Option (Key × Value))
  | flag (present : Bool)
  | emplaced (entry : Option (Key × Value)) (inserted : Bool) (evicted : Option (Key × Value))
  | done
  deriving DecidableEq

section

variable (capacity : Nat)

/-- A new entry in front, and the least recently used one if it has to go. -/
def enter (entry : Key × Value) (entries : List (Key × Value)) :
    Option (Key × Value) × List (Key × Value) :=
  if entries.length = capacity then (entries.getLast?, entry :: entries.dropLast)
  else (none, entry :: entries)

def insertOrAssign (key : Key) (value : Value) (entries : List (Key × Value)) :
    Option (Key × Value) × List (Key × Value) :=
  if key ∈ keys entries then (none, (key, value) :: remove key entries)
  else enter capacity (key, value) entries

/-- A new key in front, and the entry that has to go for it; an old key only goes to the front. -/
def tryEmplace (key : Key) (value : Value) (entries : List (Key × Value)) :
    Option (Key × Value) × List (Key × Value) :=
  if key ∈ keys entries then (none, toFront key entries)
  else enter capacity (key, value) entries

def perform (entries : List (Key × Value)) :
    Operation Key Value → Option (Reply Key Value × List (Key × Value))
  | .insertOrAssign key value =>
    let (evicted, entries) := insertOrAssign capacity key value entries
    some (.entry evicted, entries)
  | .tryEmplace key value =>
    let new := key ∉ keys entries
    let (evicted, entries) := tryEmplace capacity key value entries
    some (.emplaced (if new then some (key, value) else none) new evicted, entries)
  | .find key => some (.entry ((lookup key entries).map (key, ·)), toFront key entries)
  | .contains key => some (.flag (key ∈ keys entries), toFront key entries)
  | .extract key => some (.entry ((lookup key entries).map (key, ·)), remove key entries)
  | .erase place =>
    if place < entries.length then some (.entry entries[place + 1]?, entries.eraseIdx place)
    else none
  | .clear => some (.done, [])

end

def run (capacity : Nat) :
    List (Key × Value) → List (Operation Key Value) →
      Option (List (Reply Key Value) × List (Key × Value))
  | entries, [] => some ([], entries)
  | entries, operation :: rest =>
    match perform capacity entries operation with
    | none => none
    | some (reply, entries) =>
      (run capacity entries rest).map fun (replies, entries) => (reply :: replies, entries)

/-! ## Last use -/

def Operation.used : Operation Key Value → Option Key
  | .insertOrAssign key _ | .tryEmplace key _ | .find key | .contains key => some key
  | .extract _ | .erase _ | .clear => none

/-- The times of last use after an operation. -/
def afterUse (earlier : Key → Nat) (now : Nat) (used : Option Key) (key : Key) : Nat :=
  if used = some key then now else earlier key

/-- The time of the last use of each key in a sequence of operations, from some time on. -/
def lastUse (earlier : Key → Nat) : Nat → List (Operation Key Value) → Key → Nat
  | _, [] => earlier
  | now, operation :: rest => lastUse (afterUse earlier now operation.used) (now + 1) rest

/-- The entries are sorted by a time of use, all before now, the most recent one first. -/
structure Sorted (used : Key → Nat) (now : Nat) (entries : List (Key × Value)) : Prop where
  past : ∀ key ∈ keys entries, used key < now
  order : (keys entries).Pairwise fun first second => used second < used first

variable {key : Key} {capacity : Nat} {next : List (Key × Value)}

namespace Sorted

variable {used : Key → Nat} {now : Nat} {entries : List (Key × Value)}

omit [DecidableEq Key] in
theorem nil : Sorted used now ([] : List (Key × Value)) :=
  ⟨fun _ member => (nomatch member), List.Pairwise.nil⟩

section

variable (sorted : Sorted used now entries)
include sorted

omit [DecidableEq Key] in
theorem of_sublist {fewer : List (Key × Value)} (part : (keys fewer).Sublist (keys entries)) :
    Sorted used now fewer :=
  ⟨fun key member => sorted.past key (part.subset member), sorted.order.sublist part⟩

theorem other {use : Option Key} (apart : ∀ key ∈ keys entries, use ≠ some key) :
    Sorted (afterUse used now use) (now + 1) entries := by
  have kept : ∀ key ∈ keys entries, afterUse used now use key = used key :=
    fun key member => if_neg (apart key member)
  constructor
  · intro key member
    rw [kept key member]
    exact Nat.lt_succ_of_lt (sorted.past key member)
  · refine sorted.order.imp_of_mem fun {first second} firstIn secondIn before => ?_
    rw [kept first firstIn, kept second secondIn]
    exact before

theorem front (value : Value) (apart : key ∉ keys entries) :
    Sorted (afterUse used now (some key)) (now + 1) ((key, value) :: entries) := by
  have different : ∀ held ∈ keys entries, some key ≠ some held := by
    intro held member same
    exact apart (Option.some.inj same ▸ member)
  have rest := sorted.other different
  have first : afterUse used now (some key) key = now := if_pos rfl
  constructor
  · intro held member
    rw [keys_cons, List.mem_cons] at member
    rcases member with rfl | member
    · rw [first]
      exact Nat.lt_succ_self now
    · exact rest.past held member
  · rw [keys_cons, List.pairwise_cons]
    refine ⟨fun held member => ?_, rest.order⟩
    rw [first, afterUse, if_neg (different held member)]
    exact sorted.past held member

theorem remove (key : Key) :
    Sorted used now (remove key entries) :=
  sorted.of_sublist (List.filter_sublist.map _)

theorem toFront (key : Key) :
    Sorted (afterUse used now (some key)) (now + 1) (toFront key entries) := by
  rw [KeyedList.toFront]
  split
  · rename_i missing
    refine sorted.other fun held member same => ?_
    exact lookup_eq_none.mp missing (Option.some.inj same ▸ member)
  · exact (sorted.remove key).front _ fun member => (mem_keys_remove.mp member).2 rfl

theorem enter (value : Value) (apart : key ∉ keys entries) (capacity : Nat) :
    Sorted (afterUse used now (some key)) (now + 1) (enter capacity (key, value) entries).2 := by
  rw [Recency.enter]
  split
  · have part : (keys entries.dropLast).Sublist (keys entries) := (List.dropLast_sublist _).map _
    exact (sorted.of_sublist part).front value fun member => apart (part.subset member)
  · exact sorted.front value apart

theorem insertOrAssign (capacity : Nat) (key : Key) (value : Value) :
    Sorted (afterUse used now (some key)) (now + 1)
      (insertOrAssign capacity key value entries).2 := by
  rw [Recency.insertOrAssign]
  split
  · exact (sorted.remove key).front value fun member => (mem_keys_remove.mp member).2 rfl
  · rename_i apart
    exact sorted.enter value apart capacity

theorem tryEmplace (capacity : Nat) (key : Key) (value : Value) :
    Sorted (afterUse used now (some key)) (now + 1) (tryEmplace capacity key value entries).2 := by
  rw [Recency.tryEmplace]
  split
  · exact sorted.toFront key
  · rename_i apart
    exact sorted.enter value apart capacity

theorem perform {operation : Operation Key Value} {reply : Reply Key Value}
    (performed : perform capacity entries operation = some (reply, next)) :
    Sorted (afterUse used now operation.used) (now + 1) next := by
  have unused : ∀ key ∈ keys next, (none : Option Key) ≠ some key := fun _ _ => (nomatch ·)
  cases operation with
  | insertOrAssign key value =>
    cases performed
    exact sorted.insertOrAssign capacity key value
  | tryEmplace key value =>
    cases performed
    exact sorted.tryEmplace capacity key value
  | find key | contains key =>
    cases performed
    exact sorted.toFront key
  | extract key =>
    cases performed
    exact (sorted.remove key).other unused
  | erase place =>
    obtain ⟨-, same⟩ := Option.ite_none_right_eq_some.mp performed
    cases same
    exact (sorted.of_sublist ((List.eraseIdx_sublist ..).map _)).other unused
  | clear =>
    cases performed
    exact nil.other unused

end

end Sorted

theorem run_sorted {used : Key → Nat} {now : Nat} {entries : List (Key × Value)}
    (sorted : Sorted used now entries) {operations : List (Operation Key Value)}
    {replies : List (Reply Key Value)}
    (ran : run capacity entries operations = some (replies, next)) :
    Sorted (lastUse used now operations) (now + operations.length) next := by
  induction operations generalizing used now entries replies with
  | nil =>
    cases ran
    exact sorted
  | cons operation rest ih =>
    rw [run] at ran
    split at ran
    · cases ran
    · rename_i reply after performed
      obtain ⟨⟨later, last⟩, ranRest, same⟩ := Option.map_eq_some_iff.mp ran
      cases same
      rw [List.length_cons, ← Nat.add_assoc, Nat.add_right_comm]
      exact ih (sorted.perform performed) ranRest

end BluetoothFormal.Foundation.Recency
