import Mathlib.Data.List.Perm.Basic

/-!
# Inserting into an ordered list

A new item is put in front of the first item at which a search stops.  If the search stops
where the order wants the new item, the list stays ordered.
-/

namespace BluetoothFormal.Foundation.OrderedInsert

open List

variable {Item : Type} (stops : Item → Bool)

/-- Insert in front of the first item at which the search stops. -/
def insertAt (new : Item) : List Item → List Item
  | [] => [new]
  | item :: rest => if stops item then new :: item :: rest else item :: insertAt new rest

variable {stops}

theorem perm_insertAt (new : Item) (items : List Item) :
    (insertAt stops new items).Perm (new :: items) := by
  induction items with
  | nil => exact .refl _
  | cons item rest ih =>
    rw [insertAt]
    split
    · exact .refl _
    · exact (ih.cons item).trans (.swap new item rest)

variable {items : List Item} {new : Item}

theorem mem_insertAt {item : Item} :
    item ∈ insertAt stops new items ↔ item = new ∨ item ∈ items := by
  rw [(perm_insertAt new items).mem_iff, mem_cons]

theorem pairwise_insertAt {Before : Item → Item → Prop} (ordered : items.Pairwise Before)
    (passed : ∀ item ∈ items, stops item = false → Before item new)
    (stopped : ∀ item ∈ items, stops item = true → Before new item)
    (closed : ∀ first ∈ items, ∀ second ∈ items, Before first second → stops first = true →
      stops second = true) :
    (insertAt stops new items).Pairwise Before := by
  induction items with
  | nil => exact pairwise_singleton ..
  | cons item rest ih =>
    obtain ⟨here, later⟩ := pairwise_cons.mp ordered
    rw [insertAt]
    split
    case isTrue stop =>
      refine pairwise_cons.mpr ⟨fun other listed => stopped other listed ?_, ordered⟩
      rcases mem_cons.mp listed with rfl | behind
      · exact stop
      · exact closed item mem_cons_self other listed (here other behind) stop
    case isFalse going =>
      rw [Bool.not_eq_true] at going
      refine pairwise_cons.mpr ⟨fun other listed => ?_, ih later
        (fun other listed => passed other (mem_cons_of_mem _ listed))
        (fun other listed => stopped other (mem_cons_of_mem _ listed))
        fun first listed second behind =>
          closed first (mem_cons_of_mem _ listed) second (mem_cons_of_mem _ behind)⟩
      rcases mem_insertAt.mp listed with rfl | behind
      · exact passed item mem_cons_self going
      · exact here other behind

theorem insertAt_append {first second : List Item} (passed : ∀ item ∈ first, stops item = false)
    (stopped : ∀ item ∈ second, stops item = true) :
    insertAt stops new (first ++ second) = first ++ new :: second := by
  induction first with
  | nil =>
    cases second with
    | nil => rfl
    | cons item rest => exact if_pos (stopped item mem_cons_self)
  | cons item rest ih =>
    rw [cons_append, insertAt, passed item mem_cons_self, if_neg Bool.false_ne_true,
      ih fun other listed => passed other (mem_cons_of_mem _ listed)]
    rfl

end BluetoothFormal.Foundation.OrderedInsert
