import Mathlib.Data.List.Basic
import Mathlib.Algebra.Order.Ring.Nat

/-!
# Fragments of a message, sent in installments

A message is cut into full pieces and a last one that may be short.  A sender produces its
items one at a time, and may be interrupted after any number of them: the items are the same.
-/

namespace BluetoothFormal.Foundation.Fragments

open List Option

variable {Item : Type}

/-- Full pieces of a list, and a last piece with what is left. -/
inductive Cut (size : Nat) : List Item → List (List Item) → Prop where
  | last {items : List Item} (short : items.length ≤ size) : Cut size items [items]
  | more {items : List Item} {pieces : List (List Item)} (long : size < items.length)
      (rest : Cut size (items.drop size) pieces) : Cut size items (items.take size :: pieces)

namespace Cut

variable {size : Nat} {items : List Item} {pieces : List (List Item)}

section

variable (cut : Cut size items pieces)
include cut

theorem flatten : pieces.flatten = items := by
  induction cut with
  | last => exact append_nil _
  | more long rest ih => rw [flatten_cons, ih, take_append_drop]

theorem ne_nil : pieces ≠ [] := by
  cases cut <;> exact cons_ne_nil _ _

theorem length_le : ∀ piece ∈ pieces, piece.length ≤ size := by
  induction cut with
  | last short =>
    intro piece listed
    rw [mem_singleton.mp listed]
    exact short
  | more long rest ih =>
    intro piece listed
    rcases mem_cons.mp listed with rfl | later
    · exact length_take_le _ _
    · exact ih piece later

theorem length_eq (positive : 0 < size) :
    pieces.length = (items.length - 1) / size + 1 := by
  induction cut with
  | last short =>
    rw [length_singleton, Nat.div_eq_of_lt (by omega)]
  | @more items pieces long rest ih =>
    rw [length_cons, ih, length_drop]
    have earlier : items.length - 1 = items.length - size - 1 + size := by omega
    rw [earlier, Nat.add_div_right _ positive]

end

end Cut

theorem exists_cut {size : Nat} (positive : 0 < size) (items : List Item) :
    ∃ pieces, Cut size items pieces := by
  induction bound : items.length using Nat.strong_induction_on generalizing items with
  | h count ih =>
    rcases Nat.lt_or_ge size items.length with long | short
    · have fewer : (items.drop size).length < count := by
        rw [length_drop]
        omega
      obtain ⟨pieces, rest⟩ := ih _ fewer (items.drop size) rfl
      exact ⟨_, .more long rest⟩
    · exact ⟨_, .last short⟩

/-- Each piece behind a mark, the last one behind another mark. -/
def marked (more last : List Item) : List (List Item) → List (List Item)
  | [] => []
  | [piece] => [last ++ piece]
  | piece :: next :: rest => (more ++ piece) :: marked more last (next :: rest)

theorem length_marked (more last : List Item) (pieces : List (List Item)) :
    (marked more last pieces).length = pieces.length := by
  induction pieces with
  | nil => rfl
  | cons piece rest ih =>
    cases rest with
    | nil => rfl
    | cons next rest =>
      rw [marked, length_cons, ih]
      rfl

theorem mem_marked {more last part : List Item} {pieces : List (List Item)}
    (listed : part ∈ marked more last pieces) :
    ∃ piece ∈ pieces, part = more ++ piece ∨ part = last ++ piece := by
  induction pieces with
  | nil => exact absurd listed not_mem_nil
  | cons piece rest ih =>
    cases rest with
    | nil => exact ⟨piece, mem_cons_self, .inr (mem_singleton.mp listed)⟩
    | cons next rest =>
      rcases mem_cons.mp listed with same | later
      · exact ⟨piece, mem_cons_self, .inl same⟩
      · obtain ⟨other, own, either⟩ := ih later
        exact ⟨other, mem_cons_of_mem _ own, either⟩

variable {count final : Nat}

section Installments

variable {State : Type} (step : State → Option (Item × Option State))

/-- Some items in a row, and what is left to do. -/
def burst : Nat → State → Option (List Item × Option State)
  | 0, state => some ([], some state)
  | count + 1, state => (step state).bind fun taken =>
    match taken.2 with
    | none => some ([taken.1], none)
    | some next => (burst count next).map fun later => (taken.1 :: later.1, later.2)

/-- Bursts of given lengths, until nothing is left. -/
def bursts : List Nat → State → Option (List Item × Option State)
  | [], state => some ([], some state)
  | count :: rest, state => (burst step count state).bind fun taken =>
    match taken.2 with
    | none => some (taken.1, none)
    | some next => (bursts rest next).map fun later => (taken.1 ++ later.1, later.2)

/-- The items of a sender that is not interrupted. -/
inductive Emits : State → List Item → Prop where
  | last {state : State} {item : Item} (taken : step state = some (item, none)) :
      Emits state [item]
  | more {state next : State} {item : Item} {items : List Item}
      (taken : step state = some (item, some next)) (rest : Emits next items) :
      Emits state (item :: items)

variable {step}

section

variable {state : State} {items : List Item} (emits : Emits step state items)
include emits

theorem burst_all (enough : items.length ≤ count) :
    burst step count state = some (items, none) := by
  induction emits generalizing count with
  | last taken =>
    obtain ⟨count, rfl⟩ := Nat.exists_eq_succ_of_ne_zero (Nat.ne_zero_of_lt enough)
    rw [burst, taken]
    rfl
  | @more state next item items taken rest ih =>
    obtain ⟨count, rfl⟩ := Nat.exists_eq_succ_of_ne_zero (Nat.ne_zero_of_lt enough)
    rw [burst, taken, bind_some]
    dsimp only
    rw [ih (Nat.le_of_succ_le_succ enough), map_some]

theorem burst_part (less : count < items.length) :
    ∃ next, burst step count state = some (items.take count, some next) ∧
      Emits step next (items.drop count) := by
  induction emits generalizing count with
  | @last state item taken =>
    obtain rfl : count = 0 := by simpa using less
    exact ⟨state, rfl, .last taken⟩
  | @more state next item items taken rest ih =>
    cases count with
    | zero => exact ⟨state, rfl, .more taken rest⟩
    | succ count =>
      obtain ⟨left, part, later⟩ := ih (Nat.lt_of_succ_lt_succ less)
      refine ⟨left, ?_, later⟩
      rw [burst, taken, bind_some]
      dsimp only
      rw [part, map_some, take_succ_cons]

/-- However a sender is interrupted, its items are the same. -/
theorem bursts_eq (counts : List Nat) (enough : items.length ≤ final) :
    bursts step (counts ++ [final]) state = some (items, none) := by
  induction counts generalizing state items with
  | nil =>
    rw [nil_append, bursts, burst_all emits enough]
    rfl
  | cons count rest ih =>
    rw [cons_append, bursts]
    rcases Nat.lt_or_ge count items.length with less | all
    · obtain ⟨next, part, later⟩ := burst_part emits less
      have shorter : (items.drop count).length ≤ final := by
        rw [length_drop]
        omega
      rw [part, bind_some]
      dsimp only
      rw [ih later shorter, map_some, take_append_drop]
    · rw [burst_all emits all]
      rfl

end

theorem bursts_eq_none {state : State} (stuck : step state = none) (counts : List Nat)
    (positive : 0 < final) : bursts step (counts ++ [final]) state = none := by
  have burst_none : ∀ count, 0 < count → burst step count state = none := by
    intro count positive
    obtain ⟨count, rfl⟩ := Nat.exists_eq_succ_of_ne_zero (Nat.ne_zero_of_lt positive)
    rw [burst, stuck]
    rfl
  induction counts with
  | nil =>
    rw [nil_append, bursts, burst_none final positive]
    rfl
  | cons count rest ih =>
    rw [cons_append, bursts]
    cases count with
    | zero =>
      rw [burst, bind_some]
      dsimp only
      rw [ih, Option.map_none]
    | succ count =>
      rw [burst_none _ (Nat.succ_pos count)]
      rfl

end Installments

end BluetoothFormal.Foundation.Fragments
