import Mathlib.Data.List.Basic

/-!
# Cutting a stream of items into chunks

A chunker collects items into a current chunk and closes the chunk as soon as
it is full.  At the end the current chunk is closed too, unless it is empty.
The chunks are then a partition of the stream in which only the last one may
be short.
-/

namespace BluetoothFormal.Foundation.Chunks

open List

variable {Item : Type}

/-- Consecutive pieces of a list, all full but possibly the last. -/
structure IsChunking (size : Nat) (items : List Item) (chunks : List (List Item)) : Prop where
  joined : chunks.flatten = items
  nonempty : ∀ chunk ∈ chunks, chunk ≠ []
  full : ∀ chunk ∈ chunks.dropLast, chunk.length = size
  bounded : ∀ chunk ∈ chunks, chunk.length ≤ size

structure Chunker (Item : Type) where
  closed : List (List Item)
  current : List Item

variable {size : Nat} {items : List Item} {chunker : Chunker Item}

namespace Chunker

def empty : Chunker Item := ⟨[], []⟩

def push (size : Nat) (chunker : Chunker Item) (item : Item) : Chunker Item :=
  if size ≤ (chunker.current ++ [item]).length then
    ⟨chunker.closed ++ [chunker.current ++ [item]], []⟩
  else ⟨chunker.closed, chunker.current ++ [item]⟩

def finish (chunker : Chunker Item) : List (List Item) :=
  if chunker.current.length ≠ 0 then chunker.closed ++ [chunker.current] else chunker.closed

structure Holds (size : Nat) (items : List Item) (chunker : Chunker Item) : Prop where
  joined : chunker.closed.flatten ++ chunker.current = items
  full : ∀ chunk ∈ chunker.closed, chunk.length = size
  room : chunker.current.length < size

namespace Holds

theorem push (holds : chunker.Holds size items) (item : Item) :
    (chunker.push size item).Holds size (items ++ [item]) := by
  obtain ⟨joined, full, room⟩ := holds
  unfold Chunker.push
  split
  · rename_i filled
    have exact : (chunker.current ++ [item]).length = size := by
      rw [length_append, length_singleton] at filled ⊢
      omega
    refine ⟨?_, ?_, ?_⟩
    · simp [← joined]
    · exact forall_mem_append.mpr ⟨full, forall_mem_singleton.mpr exact⟩
    · exact Nat.zero_lt_of_lt room
  · rename_i short
    exact ⟨by simp [← joined], full, Nat.not_le.mp short⟩

theorem foldl (holds : chunker.Holds size items) (more : List Item) :
    (more.foldl (Chunker.push size) chunker).Holds size (items ++ more) := by
  induction more generalizing items chunker with
  | nil => simpa using holds
  | cons item rest ih => simpa using ih (holds.push item)

theorem finish (holds : chunker.Holds size items) : IsChunking size items chunker.finish := by
  obtain ⟨joined, full, room⟩ := holds
  have nonempty : ∀ chunk ∈ chunker.closed, chunk ≠ [] := by
    intro chunk member empty
    have := full chunk member
    simp only [empty, length_nil] at this
    omega
  unfold Chunker.finish
  split
  · rename_i some
    have current : chunker.current ≠ [] := fun empty => some (by simp [empty])
    refine ⟨by simpa using joined, ?_, ?_, ?_⟩
    · simpa [or_imp, forall_and, current] using nonempty
    · simpa using full
    · intro chunk member
      rcases mem_append.mp member with before | last
      · exact Nat.le_of_eq (full chunk before)
      · exact mem_singleton.mp last ▸ Nat.le_of_lt room
  · rename_i none
    have current : chunker.current = [] := length_eq_zero_iff.mp (Decidable.not_not.mp none)
    refine ⟨by simpa [current] using joined, nonempty, ?_,
      fun chunk member => Nat.le_of_eq (full chunk member)⟩
    exact fun chunk member => full chunk ((dropLast_sublist _).mem member)

end Holds

theorem isChunking (positive : 0 < size) (items : List Item) :
    IsChunking size items (items.foldl (push size) empty).finish := by
  have start : (empty : Chunker Item).Holds size [] :=
    ⟨rfl, fun _ member => absurd member not_mem_nil, positive⟩
  simpa using (start.foldl items).finish

end Chunker

namespace IsChunking

theorem head_length {first : List Item} {rest : List (List Item)}
    (chunking : IsChunking size items (first :: rest)) :
    first.length = size ∨ (rest = [] ∧ first = items) := by
  cases rest with
  | nil => exact Or.inr ⟨rfl, by simpa using chunking.joined⟩
  | cons second others => exact Or.inl (chunking.full first (by simp))

end IsChunking

end BluetoothFormal.Foundation.Chunks
