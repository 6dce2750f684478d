import Mathlib.Data.List.Basic

/-!
# Queues of buffers

A queue of buffers keeps its number of elements beside the buffers.  Elements
enter as a new buffer or at the end of the last one and leave with the first
buffer, so the queue as a whole is one stream.
-/

namespace BluetoothFormal.Foundation

open List

structure BufferQueue (Element : Type) where
  buffers : List (List Element)
  size : Nat
  counted : size = buffers.flatten.length

namespace BufferQueue

variable {Element : Type}

def empty : BufferQueue Element := ⟨[], 0, rfl⟩

section

variable (queue : BufferQueue Element)

def stream : List Element := queue.buffers.flatten

def length (queue : BufferQueue Element) : Nat := queue.buffers.length

def last? : Option (List Element) := queue.buffers.getLast?

def enqueue (buffer : List Element) : BufferQueue Element where
  buffers := queue.buffers ++ [buffer]
  size := queue.size + buffer.length
  counted := by
    rw [queue.counted, flatten_append, length_append, flatten_singleton]

/-- The first buffer and the queue behind it. -/
def dequeue? : Option (List Element × BufferQueue Element) :=
  match shape : queue.buffers with
  | [] => none
  | buffer :: rest =>
    some (buffer,
      { buffers := rest
        size := queue.size - buffer.length
        counted := by
          rw [queue.counted, shape, flatten_cons, length_append, Nat.add_sub_cancel_left] })

def extendLast (elements : List Element) : BufferQueue Element :=
  match shape : queue.buffers.getLast? with
  | none => queue
  | some last =>
    { buffers := queue.buffers.dropLast ++ [last ++ elements]
      size := queue.size + elements.length
      counted := by
        obtain ⟨front, whole⟩ := List.getLast?_eq_some_iff.mp shape
        rw [queue.counted, whole, dropLast_concat]
        simp only [flatten_append, flatten_singleton, length_append, Nat.add_assoc] }

/-- Remove elements from the front of the first buffer, which stays in the queue. -/
def trimFirst (count : Nat) : BufferQueue Element :=
  match shape : queue.buffers with
  | [] => queue
  | buffer :: rest =>
    { buffers := buffer.drop count :: rest
      size := queue.size - min count buffer.length
      counted := by
        rw [queue.counted, shape]
        simp only [flatten_cons, length_append, length_drop]
        omega }

@[simp] theorem stream_enqueue (buffer : List Element) :
    (queue.enqueue buffer).stream = queue.stream ++ buffer := by
  rw [stream, enqueue, flatten_append, flatten_singleton, stream]

section

variable {queue rest : BufferQueue Element} {buffer : List Element}
  (dequeued : queue.dequeue? = some (buffer, rest))
include dequeued

theorem buffers_eq_of_dequeue? : queue.buffers = buffer :: rest.buffers := by
  unfold dequeue? at dequeued
  split at dequeued
  · cases dequeued
  · cases dequeued
    assumption

theorem stream_eq_of_dequeue? : queue.stream = buffer ++ rest.stream := by
  rw [stream, buffers_eq_of_dequeue? dequeued, flatten_cons, stream]

theorem length_eq_of_dequeue? : queue.length = rest.length + 1 := by
  rw [length, buffers_eq_of_dequeue? dequeued, length_cons, length]

theorem stream_trimFirst {count : Nat} (within : count ≤ buffer.length) :
    (queue.trimFirst count).stream = queue.stream.drop count := by
  have shape := buffers_eq_of_dequeue? dequeued
  unfold trimFirst
  split
  case h_1 empty => cases shape.symm.trans empty
  case h_2 same =>
    cases shape.symm.trans same
    change (buffer.drop count :: rest.buffers).flatten = queue.buffers.flatten.drop count
    rw [shape, flatten_cons, flatten_cons, drop_append_of_le_length within]

end

theorem stream_eq_nil_of_dequeue? {queue : BufferQueue Element} (empty : queue.dequeue? = none) :
    queue.stream = [] := by
  unfold dequeue? at empty
  split at empty
  case h_1 shape => rw [stream, shape, flatten_nil]
  case h_2 => cases empty

@[simp] theorem length_enqueue (buffer : List Element) :
    (queue.enqueue buffer).length = queue.length + 1 := length_append

@[simp] theorem length_trimFirst (count : Nat) : (queue.trimFirst count).length = queue.length := by
  unfold trimFirst
  split
  · rfl
  · rename_i buffer rest shape
    change rest.length + 1 = queue.buffers.length
    rw [shape, length_cons]

end

theorem stream_extendLast {queue : BufferQueue Element} {last : List Element}
    (found : queue.last? = some last) (elements : List Element) :
    (queue.extendLast elements).stream = queue.stream ++ elements := by
  obtain ⟨front, whole⟩ := List.getLast?_eq_some_iff.mp found
  unfold extendLast
  split
  · rename_i missing
    rw [last?, missing] at found
    cases found
  · rename_i same shape
    rw [last?, shape, Option.some.injEq] at found
    subst found
    change (queue.buffers.dropLast ++ [same ++ elements]).flatten =
      queue.buffers.flatten ++ elements
    rw [whole, dropLast_concat]
    simp

end BufferQueue

end BluetoothFormal.Foundation
