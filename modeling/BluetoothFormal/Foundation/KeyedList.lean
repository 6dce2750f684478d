import Mathlib.Data.List.Nodup

/-!
# Lists of entries with distinct keys

The entries of a map in a fixed order.  An entry is updated at its place, and a new
entry goes to the end or to the front.
-/

namespace BluetoothFormal.Foundation.KeyedList

open List

variable {Key Value : Type}

def keys (entries : List (Key × Value)) : List Key := entries.map Prod.fst

@[simp] theorem keys_nil : keys ([] : List (Key × Value)) = [] := rfl

@[simp] theorem keys_cons (entry : Key × Value) (entries : List (Key × Value)) :
    keys (entry :: entries) = entry.1 :: keys entries := rfl

@[simp] theorem keys_append (front back : List (Key × Value)) :
    keys (front ++ back) = keys front ++ keys back := map_append

variable {entries : List (Key × Value)} {key other : Key} {value : Value}

theorem mem_keys {entry : Key × Value} (member : entry ∈ entries) :
    entry.1 ∈ keys entries := mem_map_of_mem member

theorem notMem_of_split {before after : List (Key × Value)}
    (distinct : (keys (before ++ (key, value) :: after)).Nodup) :
    key ∉ keys before ∧ key ∉ keys after := by
  rw [keys_append, keys_cons, nodup_append] at distinct
  obtain ⟨-, tail, apart⟩ := distinct
  exact ⟨fun member => apart key member key (mem_cons_self ..) rfl, (nodup_cons.mp tail).1⟩

variable [DecidableEq Key]

def lookup (key : Key) : List (Key × Value) → Option Value
  | [] => none
  | entry :: rest => if entry.1 = key then some entry.2 else lookup key rest

def update (key : Key) (change : Value → Value) (entries : List (Key × Value)) :
    List (Key × Value) :=
  entries.map fun entry => if entry.1 = key then (entry.1, change entry.2) else entry

def remove (key : Key) (entries : List (Key × Value)) : List (Key × Value) :=
  entries.filter fun entry => entry.1 ≠ key

def put (key : Key) (value : Value) (entries : List (Key × Value)) : List (Key × Value) :=
  if key ∈ keys entries then update key (fun _ => value) entries else entries ++ [(key, value)]

def toFront (key : Key) (entries : List (Key × Value)) : List (Key × Value) :=
  match lookup key entries with
  | none => entries
  | some value => (key, value) :: remove key entries

/-! ## Keys -/

@[simp] theorem keys_update (key : Key) (change : Value → Value) (entries : List (Key × Value)) :
    keys (update key change entries) = keys entries := by
  rw [keys, keys, update, map_map]
  refine map_congr_left fun entry _ => ?_
  rw [Function.comp_apply]
  split <;> rfl

theorem keys_remove (key : Key) (entries : List (Key × Value)) :
    keys (remove key entries) = (keys entries).filter (· ≠ key) := by
  rw [keys, keys, remove, filter_map]
  rfl

theorem mem_keys_remove :
    other ∈ keys (remove key entries) ↔ other ∈ keys entries ∧ other ≠ key := by
  rw [keys_remove, mem_filter, decide_eq_true_iff]

theorem nodup_remove (distinct : (keys entries).Nodup) (key : Key) :
    (keys (remove key entries)).Nodup := by
  rw [keys_remove]
  exact distinct.filter _

theorem remove_of_notMem (missing : key ∉ keys entries) : remove key entries = entries := by
  refine filter_eq_self.mpr fun entry member => ?_
  rw [decide_eq_true_iff]
  rintro rfl
  exact missing (mem_keys member)

theorem update_of_notMem (change : Value → Value) (missing : key ∉ keys entries) :
    update key change entries = entries := by
  rw [update]
  conv_rhs => rw [← map_id entries]
  refine map_congr_left fun entry member => ?_
  rw [if_neg, id]
  rintro rfl
  exact missing (mem_keys member)

/-! ## One entry -/

theorem lookup_eq_none :
    lookup key entries = none ↔ key ∉ keys entries := by
  induction entries with
  | nil => simp [lookup]
  | cons entry rest ih =>
    rw [lookup, keys_cons, mem_cons]
    split
    · rename_i same
      simp [same]
    · rename_i apart
      rw [ih, not_or]
      exact ⟨fun missing => ⟨Ne.symm apart, missing⟩, And.right⟩

theorem exists_split (found : lookup key entries = some value) :
    ∃ before after, entries = before ++ (key, value) :: after := by
  induction entries with
  | nil => cases found
  | cons entry rest ih =>
    rw [lookup] at found
    split at found
    · rename_i same
      cases found
      exact ⟨[], rest, by rw [← same]; rfl⟩
    · obtain ⟨before, after, rfl⟩ := ih found
      exact ⟨entry :: before, after, rfl⟩

theorem mem_of_lookup (found : lookup key entries = some value) : (key, value) ∈ entries := by
  obtain ⟨-, -, rfl⟩ := exists_split found
  exact mem_append_right _ (mem_cons_self ..)

section Split

variable {before after : List (Key × Value)}
variable (distinct : (keys (before ++ (key, value) :: after)).Nodup)

include distinct

theorem lookup_split : lookup key (before ++ (key, value) :: after) = some value := by
  obtain ⟨missing, -⟩ := notMem_of_split distinct
  clear distinct
  induction before with
  | nil => exact if_pos rfl
  | cons entry rest ih =>
    rw [keys_cons, mem_cons, not_or] at missing
    rw [cons_append, lookup, if_neg (Ne.symm missing.1)]
    exact ih missing.2

theorem remove_split : remove key (before ++ (key, value) :: after) = before ++ after := by
  obtain ⟨missing, missingToo⟩ := notMem_of_split distinct
  rw [remove, filter_append, filter_cons_of_neg (by simp)]
  exact congrArg₂ (· ++ ·) (remove_of_notMem missing) (remove_of_notMem missingToo)

theorem update_split (change : Value → Value) :
    update key change (before ++ (key, value) :: after) =
      before ++ (key, change value) :: after := by
  obtain ⟨missing, missingToo⟩ := notMem_of_split distinct
  rw [update, map_append, map_cons, if_pos rfl]
  exact congrArg₂ (fun front back => front ++ (key, change value) :: back)
    (update_of_notMem change missing) (update_of_notMem change missingToo)

theorem toFront_split :
    toFront key (before ++ (key, value) :: after) = (key, value) :: (before ++ after) := by
  rw [toFront, lookup_split distinct, remove_split distinct]

end Split

theorem lookup_of_mem (distinct : (keys entries).Nodup) (member : (key, value) ∈ entries) :
    lookup key entries = some value := by
  obtain ⟨before, after, rfl⟩ := append_of_mem member
  exact lookup_split distinct

theorem lookup_update (key : Key) (change : Value → Value) (entries : List (Key × Value)) :
    lookup key (update key change entries) = (lookup key entries).map change := by
  induction entries with
  | nil => rfl
  | cons entry rest ih =>
    rw [update, map_cons, lookup, lookup]
    by_cases same : entry.1 = key
    · rw [if_pos same, if_pos same, if_pos same, Option.map_some]
    · rw [if_neg same, if_neg same, if_neg same]
      exact ih

theorem lookup_update_of_ne (apart : other ≠ key) (change : Value → Value)
    (entries : List (Key × Value)) :
    lookup other (update key change entries) = lookup other entries := by
  induction entries with
  | nil => rfl
  | cons entry rest ih =>
    rw [update, map_cons, lookup, lookup]
    by_cases same : entry.1 = key
    · rw [if_pos same, if_neg (same ▸ Ne.symm apart), if_neg (same ▸ Ne.symm apart)]
      exact ih
    · rw [if_neg same]
      exact if_congr Iff.rfl rfl ih

theorem update_update (key : Key) (first second : Value → Value) (entries : List (Key × Value)) :
    update key second (update key first entries) = update key (second ∘ first) entries := by
  rw [update, update, update, map_map]
  refine map_congr_left fun entry _ => ?_
  rw [Function.comp_apply]
  by_cases same : entry.1 = key
  · rw [if_pos same, if_pos same, if_pos same, Function.comp_apply]
  · rw [if_neg same, if_neg same, if_neg same]

theorem toFront_of_notMem (missing : key ∉ keys entries) : toFront key entries = entries := by
  rw [toFront, lookup_eq_none.mpr missing]

theorem length_toFront (distinct : (keys entries).Nodup) (key : Key) :
    (toFront key entries).length = entries.length := by
  cases found : lookup key entries with
  | none => rw [toFront, found]
  | some value =>
    obtain ⟨before, after, rfl⟩ := exists_split found
    rw [toFront_split distinct, length_cons, length_append, length_append,
      length_cons, Nat.add_assoc]

theorem exists_lookup (present : key ∈ keys entries) :
    ∃ value, lookup key entries = some value := by
  refine Option.isSome_iff_exists.mp ?_
  rw [← Option.ne_none_iff_isSome, Ne, lookup_eq_none, not_not]
  exact present

theorem lookup_append (key : Key) (front back : List (Key × Value)) :
    lookup key (front ++ back) = (lookup key front).or (lookup key back) := by
  induction front with
  | nil => rfl
  | cons entry rest ih =>
    rw [cons_append, lookup, lookup]
    split
    · rfl
    · exact ih

theorem put_of_notMem (value : Value) (missing : key ∉ keys entries) :
    put key value entries = entries ++ [(key, value)] :=
  if_neg missing

theorem nodup_put (distinct : (keys entries).Nodup) (key : Key) (value : Value) :
    (keys (put key value entries)).Nodup := by
  rw [put]
  split
  · rw [keys_update]
    exact distinct
  case isFalse missing =>
    rw [keys_append]
    refine nodup_append.mpr ⟨distinct, nodup_singleton key, ?_⟩
    intro other member same single
    rw [mem_singleton.mp single]
    rintro rfl
    exact missing member

theorem lookup_put (key : Key) (value : Value) (entries : List (Key × Value)) :
    lookup key (put key value entries) = some value := by
  rw [put]
  split
  case isTrue present =>
    obtain ⟨old, found⟩ := exists_lookup present
    rw [lookup_update, found, Option.map_some]
  case isFalse missing =>
    rw [lookup_append, lookup_eq_none.mpr missing, Option.none_or]
    exact if_pos rfl

theorem lookup_put_of_ne (apart : other ≠ key) (value : Value) (entries : List (Key × Value)) :
    lookup other (put key value entries) = lookup other entries := by
  rw [put]
  split
  · exact lookup_update_of_ne apart _ entries
  · rw [lookup_append, lookup, if_neg (Ne.symm apart), lookup, Option.or_none]

theorem put_put (key : Key) (first second : Value) (entries : List (Key × Value)) :
    put key second (put key first entries) = put key second entries := by
  by_cases present : key ∈ keys entries
  · have still : key ∈ keys (update key (fun _ => first) entries) := by
      rw [keys_update]
      exact present
    rw [put, put, if_pos present, if_pos still, update_update, put, if_pos present]
    rfl
  · have there : key ∈ keys (entries ++ [(key, first)]) := by
      rw [keys_append]
      exact mem_append_right _ mem_cons_self
    rw [put, put_of_notMem first present, if_pos there, put_of_notMem second present, update,
      map_append]
    refine congrArg₂ (· ++ ·) (update_of_notMem (fun _ => second) present) ?_
    rw [map_singleton, if_pos rfl]

theorem remove_put (key : Key) (value : Value) (entries : List (Key × Value)) :
    remove key (put key value entries) = remove key entries := by
  by_cases present : key ∈ keys entries
  · rw [put, if_pos present]
    clear present
    induction entries with
    | nil => rfl
    | cons entry rest ih =>
      rw [remove, update, map_cons, remove, filter_cons, filter_cons]
      by_cases same : entry.1 = key
      · rw [if_pos same, if_neg (by simp [same]), if_neg (by simp [same])]
        exact ih
      · rw [if_neg same, if_pos (by simp [same]), if_pos (by simp [same])]
        exact congrArg (entry :: ·) ih
  · rw [put_of_notMem value present, remove, filter_append, filter_cons_of_neg (by simp),
      filter_nil, append_nil]
    rfl

theorem lookup_remove (key : Key) (entries : List (Key × Value)) :
    lookup key (remove key entries) = none :=
  lookup_eq_none.mpr fun member => (mem_keys_remove.mp member).2 rfl

theorem lookup_remove_of_ne (apart : other ≠ key) (entries : List (Key × Value)) :
    lookup other (remove key entries) = lookup other entries := by
  induction entries with
  | nil => rfl
  | cons entry rest ih =>
    rw [remove, filter_cons]
    split
    · rw [lookup, lookup]
      exact if_congr Iff.rfl rfl ih
    case isFalse removed =>
      have same : entry.1 = key := of_not_not fun differ => removed (decide_eq_true differ)
      rw [lookup, if_neg (same ▸ Ne.symm apart)]
      exact ih

theorem countP_le_remove (distinct : (keys entries).Nodup) (key : Key)
    (counts : Key × Value → Bool) :
    entries.countP counts ≤ (remove key entries).countP counts + 1 := by
  cases found : lookup key entries with
  | none =>
    rw [remove_of_notMem (lookup_eq_none.mp found)]
    exact Nat.le_succ _
  | some value =>
    obtain ⟨before, after, rfl⟩ := exists_split found
    rw [remove_split distinct, countP_append, countP_cons, countP_append]
    split <;> omega

end BluetoothFormal.Foundation.KeyedList
