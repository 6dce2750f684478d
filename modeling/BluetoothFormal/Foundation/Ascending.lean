import Mathlib.Data.List.Basic

/-!
# Lists in the order of a key

Items that are listed in the order of a number, and the part of the list from a number
on.  A reader that has seen the first items of such a part finds the others behind the
number of the last one it has seen.
-/

namespace BluetoothFormal.Foundation.Ascending

open List

variable {Item : Type} {key : Item → Nat} {items : List Item}

variable {start later : Nat} {after before : List Item} {last : Item}

theorem filter_narrower (order : start ≤ later) :
    items.filter (fun item => later ≤ key item) =
      (items.filter fun item => start ≤ key item).filter fun item => later ≤ key item := by
  rw [filter_filter]
  refine filter_congr fun item _ => ?_
  rw [Bool.eq_iff_iff, Bool.and_eq_true, decide_eq_true_iff, decide_eq_true_iff]
  omega

section

variable (ascending : items.Pairwise fun first second => key first < key second)
  (split : items.filter (fun item => start ≤ key item) = before ++ last :: after)
include ascending split

theorem filter_behind (passed : key last < later) (reached : ∀ item ∈ after, later ≤ key item) :
    items.filter (fun item => later ≤ key item) = after := by
  have ordered := ascending.sublist (filter_sublist (p := fun item => start ≤ key item))
  rw [split, pairwise_append] at ordered
  obtain ⟨-, -, smaller⟩ := ordered
  have from_ : start ≤ key last := by
    have member : last ∈ items.filter fun item => start ≤ key item := by
      rw [split]
      exact mem_append_right _ (mem_cons_self ..)
    exact of_decide_eq_true (mem_filter.mp member).2
  have none : before.filter (fun item => later ≤ key item) = [] := by
    refine filter_eq_nil_iff.mpr fun item member => ?_
    have := smaller item member last (mem_cons_self ..)
    rw [decide_eq_true_iff]
    omega
  have all : after.filter (fun item => later ≤ key item) = after :=
    filter_eq_self.mpr fun item member => decide_eq_true (reached item member)
  rw [filter_narrower (by omega : start ≤ later), split, filter_append, none,
    filter_cons_of_neg (by rw [decide_eq_true_iff]; omega), all, nil_append]

theorem filter_after : items.filter (fun item => key last + 1 ≤ key item) = after := by
  refine filter_behind ascending split (Nat.lt_succ_self _) fun item member => ?_
  have ordered := ascending.sublist (filter_sublist (p := fun item => start ≤ key item))
  rw [split, pairwise_append, pairwise_cons] at ordered
  exact ordered.2.1.1 item member

end

theorem length_filter_lt {item : Item} (listed : item ∈ items) (reached : start ≤ key item)
    (passed : key item < later) :
    (items.filter fun item => later ≤ key item).length <
      (items.filter fun item => start ≤ key item).length := by
  rw [filter_narrower (by omega : start ≤ later)]
  refine length_filter_lt_length_iff_exists.mpr
    ⟨item, mem_filter.mpr ⟨listed, decide_eq_true reached⟩, ?_⟩
  rw [decide_eq_true_iff]
  omega

end BluetoothFormal.Foundation.Ascending
