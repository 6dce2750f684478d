import BluetoothFormal.Foundation.KeyedList

/-!
# The list map

`ListMap` keeps its entries in a `std::list` and an index from keys to iterators of
that list.  A node of the list keeps its identity while it is moved, so an iterator is
the identity of a node.  An operation that follows an iterator to a node that is not in
the list has no result.

As long as the index and the list describe the same entries, every operation is the
operation on the list of entries.
-/

namespace BluetoothFormal.Common

open Foundation Foundation.KeyedList Option
open List hiding lookup

/-- The nodes of a `std::list` of entries, each with its identity. -/
abbrev Nodes (Key Value : Type) := List (Nat × Key × Value)

/-- `ListMap`, with the number of nodes that were allocated; `none` is the end iterator. -/
structure ListMap (Key Value : Type) where
  nodeList : Nodes Key Value
  keyMap : Key → Option Nat
  allocated : Nat

namespace ListMap

variable {Key Value : Type} {before after : Nodes Key Value} {value : Value}

/-- `std::list::begin`. -/
def beginOf (nodes : Nodes Key Value) : Option Nat := nodes.head?.map Prod.fst

/-- Put a node before a position. -/
def placeBefore (pos : Option Nat) (node : Nat × Key × Value) (nodes : Nodes Key Value) :
    Nodes Key Value :=
  match pos with
  | none => nodes ++ [node]
  | some iter =>
    nodes.takeWhile (fun other => other.1 ≠ iter) ++
      node :: nodes.dropWhile (fun other => other.1 ≠ iter)

theorem placeBefore_begin (node : Nat × Key × Value) (nodes : Nodes Key Value) :
    placeBefore (beginOf nodes) node nodes = node :: nodes := by
  cases nodes with
  | nil => rfl
  | cons first rest => simp [placeBefore, beginOf]

def empty : ListMap Key Value := ⟨[], fun _ => none, 0⟩

section

variable (map : ListMap Key Value)

def clear : ListMap Key Value :=
  { map with nodeList := [], keyMap := fun _ => none }

def first : Option Nat := beginOf map.nodeList

def find (key : Key) : Option Nat := map.keyMap key

def contains (key : Key) : Bool := (map.find key).isSome

def size : Nat := map.nodeList.length

/-- `splice` within one list map: move a node before a position. -/
def splice (pos : Option Nat) (iter : Nat) : Option (ListMap Key Value) :=
  match lookup iter map.nodeList with
  | none => none
  | some entry =>
    if pos = some iter then some map
    else
      some { map with nodeList := placeBefore pos (iter, entry) (remove iter map.nodeList) }

end

section Index

variable [DecidableEq Key]

section

variable (map : ListMap Key Value)

/-- A new node before a position, with its place in the index. -/
def emplace (pos : Option Nat) (key : Key) (value : Value) :
    ListMap Key Value where
  nodeList := placeBefore pos (map.allocated, key, value) map.nodeList
  keyMap := Function.update map.keyMap key (some map.allocated)
  allocated := map.allocated + 1

/-- `try_emplace`: the iterator of a new node, and whether there is one. -/
def tryEmplace (pos : Option Nat) (key : Key) (value : Value) :
    (Option Nat × Bool) × ListMap Key Value :=
  match map.keyMap key with
  | some _ => ((none, false), map)
  | none => ((some map.allocated, true), map.emplace pos key value)

def tryEmplaceBack (key : Key) (value : Value) :
    (Option Nat × Bool) × ListMap Key Value := map.tryEmplace none key value

/-- `insert_or_assign` before a position. -/
def insertOrAssign (pos : Option Nat) (key : Key) (value : Value) : Option (ListMap Key Value) :=
  match map.keyMap key with
  | some iter =>
    match lookup iter map.nodeList with
    | none => none
    | some _ =>
      some { map with nodeList := update iter (fun entry => (entry.1, value)) map.nodeList }
  | none => some (map.emplace pos key value)

/-- `extract`: the entry that is removed. -/
def extract (key : Key) : Option (Option (Key × Value) × ListMap Key Value) :=
  match map.keyMap key with
  | none => some (none, map)
  | some iter =>
    match lookup iter map.nodeList with
    | none => none
    | some entry =>
      some (some entry,
        { map with
          nodeList := remove iter map.nodeList
          keyMap := Function.update map.keyMap key none })

/-- `erase`: the iterator behind the removed node. -/
def erase (iter : Nat) : Option (Option Nat × ListMap Key Value) :=
  match lookup iter map.nodeList with
  | none => none
  | some entry =>
    some (beginOf (map.nodeList.dropWhile fun other => other.1 ≠ iter).tail,
      { map with
        nodeList := remove iter map.nodeList
        keyMap := Function.update map.keyMap entry.1 none })

end

end Index

def entries (map : ListMap Key Value) : List (Key × Value) := map.nodeList.map Prod.snd

/-- The index and the list describe the same entries, with distinct keys. -/
structure Consistent (map : ListMap Key Value) : Prop where
  iters : (keys map.nodeList).Nodup
  distinct : (keys map.entries).Nodup
  index : ∀ key iter, map.keyMap key = some iter ↔ ∃ value, (iter, key, value) ∈ map.nodeList
  bounded : ∀ node ∈ map.nodeList, node.1 < map.allocated

theorem empty_consistent : (empty : ListMap Key Value).Consistent :=
  ⟨nodup_nil, nodup_nil, by simp [empty], by simp [empty]⟩

theorem clear_consistent (map : ListMap Key Value) : map.clear.Consistent :=
  ⟨nodup_nil, nodup_nil, by simp [clear], by simp [clear]⟩

structure Around (map : ListMap Key Value) (before : Nodes Key Value) (node : Nat × Key × Value)
    (after : Nodes Key Value) : Prop where
  split : map.nodeList = before ++ node :: after
  iters : (keys (before ++ node :: after)).Nodup
  distinct : (keys (before.map Prod.snd ++ node.2 :: after.map Prod.snd)).Nodup

namespace Consistent

variable {map : ListMap Key Value} {key : Key} {iter : Nat}

section

variable (consistent : map.Consistent)
include consistent

theorem around {node : Nat × Key × Value} (split : map.nodeList = before ++ node :: after) :
    map.Around before node after := by
  refine ⟨split, split ▸ consistent.iters, ?_⟩
  have distinct := consistent.distinct
  rw [entries, split, map_append, map_cons] at distinct
  exact distinct

theorem find_none :
    map.keyMap key = none ↔ key ∉ keys map.entries := by
  rw [eq_none_iff_forall_ne_some]
  constructor
  · intro missing member
    obtain ⟨entry, listed, rfl⟩ := mem_map.mp member
    obtain ⟨node, inList, rfl⟩ := mem_map.mp listed
    exact missing node.1 ((consistent.index _ _).mpr ⟨node.2.2, inList⟩)
  · intro missing iter found
    obtain ⟨value, inList⟩ := (consistent.index _ _).mp found
    exact missing (mem_keys (mem_map_of_mem inList))

theorem find_isSome :
    (map.find key).isSome ↔ key ∈ keys map.entries := by
  rw [← not_iff_not, not_isSome_iff_eq_none]
  exact consistent.find_none

theorem find_some (found : map.keyMap key = some iter) :
    ∃ before value after, map.Around before (iter, key, value) after := by
  obtain ⟨value, member⟩ := (consistent.index key iter).mp found
  obtain ⟨before, after, split⟩ := append_of_mem member
  exact ⟨before, value, after, consistent.around split⟩

end

end Consistent

namespace Around

variable {map : ListMap Key Value} {iter : Nat} {key : Key}

section

variable (around : map.Around before (iter, key, value) after)
include around

theorem entries_eq :
    map.entries = before.map Prod.snd ++ (key, value) :: after.map Prod.snd := by
  rw [entries, around.split, map_append, map_cons]

theorem lookup_iter :
    lookup iter map.nodeList = some (key, value) := by
  rw [around.split, lookup_split around.iters]

theorem remove_iter :
    remove iter map.nodeList = before ++ after := by
  rw [around.split, remove_split around.iters]

end

end Around

namespace Consistent

variable {map : ListMap Key Value} {key : Key} {iter : Nat}

theorem of_perm (consistent : map.Consistent) {nodes : Nodes Key Value}
    (perm : nodes.Perm map.nodeList) : { map with nodeList := nodes }.Consistent where
  iters := (perm.map Prod.fst).nodup_iff.mpr consistent.iters
  distinct := ((perm.map Prod.snd).map Prod.fst).nodup_iff.mpr consistent.distinct
  index key iter := by
    simp only [consistent.index, perm.mem_iff]
  bounded node member := consistent.bounded node (perm.mem_iff.mp member)

theorem placeBefore_perm (pos : Option Nat) (node : Nat × Key × Value) (nodes : Nodes Key Value) :
    (placeBefore pos node nodes).Perm (node :: nodes) := by
  cases pos with
  | none => exact perm_append_singleton node nodes
  | some iter =>
    rw [placeBefore]
    refine perm_middle.trans ?_
    rw [takeWhile_append_dropWhile]

section

variable (consistent : map.Consistent)
include consistent

section

variable (around : map.Around before (iter, key, value) after)
include around

theorem splice_front :
    ∃ next, map.splice map.first iter = some next ∧ next.Consistent ∧
      next.nodeList = (iter, key, value) :: (before ++ after) := by
  rw [splice, around.lookup_iter]
  dsimp only
  cases before with
  | nil =>
    have same : map.first = some iter := by
      rw [first, around.split]
      rfl
    rw [if_pos same]
    exact ⟨map, rfl, consistent, around.split⟩
  | cons front rest =>
    have start : map.first = beginOf (front :: rest ++ after) := by
      rw [first, around.split]
      rfl
    have other : map.first ≠ some iter := by
      rw [start]
      intro same
      refine (notMem_of_split around.iters).1 ?_
      rw [← some.inj same]
      exact mem_cons_self ..
    rw [if_neg other, around.remove_iter, start, placeBefore_begin]
    refine ⟨_, rfl, consistent.of_perm ?_, rfl⟩
    rw [around.split]
    exact perm_middle.symm

theorem without [DecidableEq Key] :
    { map with
      nodeList := before ++ after
      keyMap := Function.update map.keyMap key none }.Consistent where
  iters := by
    refine around.iters.sublist (List.Sublist.map _ ?_)
    exact (sublist_cons_self ..).append_left before
  distinct := by
    rw [entries, map_append]
    refine around.distinct.sublist (List.Sublist.map _ ?_)
    exact (sublist_cons_self ..).append_left _
  index other otherIter := by
    change Function.update map.keyMap key none other = some otherIter ↔
      ∃ value, (otherIter, other, value) ∈ before ++ after
    by_cases same : other = key
    · subst same
      rw [Function.update_self]
      refine ⟨fun absent => (nomatch absent), ?_⟩
      rintro ⟨held, member⟩
      obtain ⟨missing, missingToo⟩ := notMem_of_split around.distinct
      rcases mem_append.mp member with member | member
      · exact absurd (mem_keys (mem_map_of_mem member)) missing
      · exact absurd (mem_keys (mem_map_of_mem member)) missingToo
    · rw [Function.update_of_ne same, consistent.index, around.split]
      refine exists_congr fun held => ?_
      simp only [mem_append, mem_cons, Prod.mk.injEq, same, false_and, and_false, false_or]
  bounded node member := by
    refine consistent.bounded node ?_
    rw [around.split]
    exact ((sublist_cons_self ..).append_left before).subset member

theorem withValue (other : Value) :
    { map with nodeList := before ++ (iter, key, other) :: after }.Consistent where
  iters := by
    have iters := around.iters
    rw [KeyedList.keys_append, KeyedList.keys_cons] at iters ⊢
    exact iters
  distinct := by
    have distinct := around.distinct
    rw [entries, map_append, map_cons]
    rw [KeyedList.keys_append, KeyedList.keys_cons] at distinct ⊢
    exact distinct
  index held heldIter := by
    rw [consistent.index, around.split]
    simp only [mem_append, mem_cons, Prod.mk.injEq, exists_or, exists_and_left, exists_eq, and_true]
  bounded node member := by
    rcases mem_append.mp member with member | member
    · exact consistent.bounded node (around.split ▸ mem_append_left _ member)
    · rcases mem_cons.mp member with rfl | member
      · exact consistent.bounded (iter, key, value)
          (around.split ▸ mem_append_right _ (mem_cons_self ..))
      · exact consistent.bounded node (around.split ▸ mem_append_right _ (mem_cons_of_mem _ member))

end

theorem emplace [DecidableEq Key] (pos : Option Nat) (missing : key ∉ keys map.entries)
    (value : Value) :
    (map.emplace pos key value).Consistent where
  iters := by
    refine ((placeBefore_perm pos _ _).map Prod.fst).nodup_iff.mpr ?_
    rw [map_cons, nodup_cons]
    refine ⟨fun member => ?_, consistent.iters⟩
    obtain ⟨node, listed, same⟩ := mem_map.mp member
    exact absurd same (Nat.ne_of_lt (consistent.bounded node listed))
  distinct := by
    refine (((placeBefore_perm pos _ _).map Prod.snd).map Prod.fst).nodup_iff.mpr ?_
    rw [map_cons, map_cons, nodup_cons]
    exact ⟨missing, consistent.distinct⟩
  index other otherIter := by
    change Function.update map.keyMap key (some map.allocated) other = some otherIter ↔
      ∃ value, (otherIter, other, value) ∈ placeBefore pos _ map.nodeList
    simp only [(placeBefore_perm pos _ _).mem_iff, mem_cons, Prod.mk.injEq]
    by_cases same : other = key
    · subst same
      rw [Function.update_self, some.injEq, eq_comm]
      constructor
      · rintro rfl
        exact ⟨value, .inl ⟨rfl, rfl, rfl⟩⟩
      · rintro ⟨held, ⟨rfl, -⟩ | member⟩
        · rfl
        · exact absurd (mem_keys (mem_map_of_mem member)) missing
    · rw [Function.update_of_ne same, consistent.index]
      refine exists_congr fun held => ?_
      simp only [same, false_and, and_false, false_or]
  bounded node member := by
    rcases mem_cons.mp ((placeBefore_perm pos _ _).mem_iff.mp member) with rfl | member
    · exact Nat.lt_succ_self _
    · exact Nat.lt_succ_of_lt (consistent.bounded node member)

end

end Consistent

section Operations

variable [DecidableEq Key] {map : ListMap Key Value} (consistent : map.Consistent)

include consistent

theorem extract_spec (key : Key) :
    ∃ next, map.extract key = some ((lookup key map.entries).map (key, ·), next) ∧
      next.Consistent ∧ next.entries = remove key map.entries := by
  rw [extract]
  cases found : map.keyMap key with
  | none =>
    have missing := consistent.find_none.mp found
    rw [lookup_eq_none.mpr missing]
    exact ⟨map, rfl, consistent, (remove_of_notMem missing).symm⟩
  | some iter =>
    obtain ⟨before, value, after, around⟩ := consistent.find_some found
    have next := consistent.without around
    dsimp only
    rw [around.lookup_iter, around.entries_eq, lookup_split around.distinct,
      remove_split around.distinct, around.remove_iter]
    exact ⟨_, rfl, next, map_append⟩

theorem erase_spec {iter : Nat} {key : Key} (around : map.Around before (iter, key, value) after) :
    ∃ next, map.erase iter = some (beginOf after, next) ∧ next.Consistent ∧
      next.nodeList = before ++ after := by
  have rest : map.nodeList.dropWhile (fun other => other.1 ≠ iter) =
      (iter, key, value) :: after := by
    rw [around.split, dropWhile_append_of_pos, dropWhile_cons_of_neg (by simp)]
    intro other member
    rw [decide_eq_true_iff]
    rintro rfl
    exact (notMem_of_split around.iters).1 (mem_keys member)
  rw [erase, around.lookup_iter]
  rw [rest, around.remove_iter]
  exact ⟨_, rfl, consistent.without around, rfl⟩

end Operations

end ListMap

end BluetoothFormal.Common
