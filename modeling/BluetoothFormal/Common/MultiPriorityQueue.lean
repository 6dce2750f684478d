import Mathlib.Data.List.Sort
import Mathlib.Data.Fin.Basic
import BluetoothFormal.Foundation.OrderedInsert

/-!
# Queues with priority levels

`MultiPriorityQueue` keeps one queue for each priority and a priority queue
that holds the priority of every item.  The front is the oldest item of the
greatest priority.  While all items have one priority, the whole is a plain
first-in-first-out queue.
-/

namespace BluetoothFormal.Common

open List Function Foundation.OrderedInsert

structure MultiPriorityQueue (Item : Type) (levels : Nat) where
  queues : Fin levels → List Item
  nextToDequeue : List (Fin levels)
  ordered : nextToDequeue.Pairwise (· ≥ ·)
  counted : ∀ priority, nextToDequeue.count priority = (queues priority).length

namespace MultiPriorityQueue

variable {Item : Type} {levels : Nat} {queue : MultiPriorityQueue Item levels}
  {priority : Fin levels}

def empty : MultiPriorityQueue Item levels where
  queues := fun _ => []
  nextToDequeue := []
  ordered := List.Pairwise.nil
  counted := fun _ => rfl

section

variable (queue)

def size : Nat := queue.nextToDequeue.length

def front? : Option Item :=
  queue.nextToDequeue.head?.bind fun priority => (queue.queues priority).head?

def push (item : Item) (priority : Fin levels) :
    MultiPriorityQueue Item levels where
  queues := update queue.queues priority (queue.queues priority ++ [item])
  nextToDequeue := queue.nextToDequeue.orderedInsert (· ≥ ·) priority
  ordered := queue.ordered.orderedInsert priority _
  counted := by
    intro other
    rw [orderedInsert_count, queue.counted]
    by_cases same : priority = other
    · subst same
      simp
    · simp [same, update_of_ne (Ne.symm same)]

/-- Remove the front, for a queue that is not empty: the source does not define the other case. -/
def pop : MultiPriorityQueue Item levels :=
  match shape : queue.nextToDequeue with
  | [] => queue
  | priority :: rest =>
    { queues := update queue.queues priority (queue.queues priority).tail
      nextToDequeue := rest
      ordered := (pairwise_cons.mp (shape ▸ queue.ordered)).2
      counted := by
        intro other
        have counted := queue.counted other
        rw [shape, count_cons] at counted
        by_cases same : priority = other
        · subst same
          simp only [BEq.rfl, if_true] at counted
          simp [← counted]
        · simpa [same, update_of_ne (Ne.symm same)] using counted }

/-- The items in the order in which they leave the queue. -/
def items : List Item :=
  (List.finRange levels).reverse.flatMap queue.queues

end

theorem priorities_split (priority : Fin levels) :
    ∃ higher lower, (List.finRange levels).reverse = higher ++ priority :: lower ∧
      (∀ other ∈ higher, priority < other) ∧ ∀ other ∈ lower, other < priority := by
  have decreasing : (List.finRange levels).reverse.Pairwise (· > ·) :=
    pairwise_reverse.mpr (pairwise_lt_finRange levels)
  obtain ⟨higher, lower, split⟩ :=
    append_of_mem (mem_reverse.mpr (mem_finRange priority))
  rw [split] at decreasing
  obtain ⟨_, below, above⟩ := pairwise_append.mp decreasing
  exact ⟨higher, lower, split, fun other member => above other member priority mem_cons_self,
    (pairwise_cons.mp below).1⟩

theorem queues_eq_nil (absent : priority ∉ queue.nextToDequeue) : queue.queues priority = [] :=
  length_eq_zero_iff.mp (queue.counted priority ▸ count_eq_zero.mpr absent)

theorem items_eq_of_top {lower : List (Fin levels)} {higher : List (Fin levels)}
    (split : (List.finRange levels).reverse = higher ++ priority :: lower)
    (above : ∀ other ∈ higher, priority < other)
    (top : ∀ other ∈ queue.nextToDequeue, other ≤ priority) :
    queue.items = queue.queues priority ++ lower.flatMap queue.queues := by
  have nothing : higher.flatMap queue.queues = [] := by
    refine flatMap_eq_nil_iff.mpr fun other member => queues_eq_nil fun recorded => ?_
    exact absurd (top other recorded) (not_le.mpr (above other member))
  rw [items, split, flatMap_append, nothing, flatMap_cons, nil_append]

theorem items_eq_front_cons_pop (queue : MultiPriorityQueue Item levels) :
    queue.items = queue.front?.toList ++ queue.pop.items := by
  unfold front? pop
  split
  · rename_i empty
    have nothing : queue.items = [] :=
      flatMap_eq_nil_iff.mpr fun priority _ => queues_eq_nil (by simp [empty])
    simp [empty, nothing]
  · rename_i priority rest shape
    obtain ⟨higher, lower, split, above, below⟩ := priorities_split priority
    have ordered := pairwise_cons.mp (shape ▸ queue.ordered)
    have top : ∀ other ∈ queue.nextToDequeue, other ≤ priority := by
      intro other member
      rw [shape] at member
      rcases mem_cons.mp member with rfl | later
      · exact le_rfl
      · exact ordered.1 other later
    have kept : lower.flatMap (update queue.queues priority
        (queue.queues priority).tail) = lower.flatMap queue.queues :=
      flatMap_congr fun other member => update_of_ne (below other member).ne _ _
    rw [items_eq_of_top split above top,
      items_eq_of_top split above fun other member => ordered.1 other member]
    simp only [shape, List.head?_cons, Option.bind_some, update_self, kept]
    rw [← append_assoc]
    cases queue.queues priority <;> rfl

theorem items_push (lowest : ∀ other ∈ queue.nextToDequeue, priority ≤ other) (item : Item) :
    (queue.push item priority).items = queue.items ++ [item] := by
  obtain ⟨higher, lower, split, above, below⟩ := priorities_split priority
  have nothing : lower.flatMap queue.queues = [] := by
    refine flatMap_eq_nil_iff.mpr fun other member => queues_eq_nil fun recorded => ?_
    exact absurd (lowest other recorded) (not_le.mpr (below other member))
  have keptAbove : higher.flatMap (queue.push item priority).queues = higher.flatMap queue.queues :=
    flatMap_congr fun other member => update_of_ne (above other member).ne' _ _
  have keptBelow : lower.flatMap (queue.push item priority).queues = lower.flatMap queue.queues :=
    flatMap_congr fun other member => update_of_ne (below other member).ne _ _
  simp only [items, split, flatMap_append, flatMap_cons, keptAbove, keptBelow, nothing]
  simp [push]

theorem size_eq_zero_iff :
    queue.size = 0 ↔ queue.items = [] := by
  constructor
  · intro empty
    have none := length_eq_zero_iff.mp empty
    exact flatMap_eq_nil_iff.mpr fun priority _ => queues_eq_nil (by simp [none])
  · intro nothing
    refine length_eq_zero_iff.mpr (eq_nil_iff_forall_not_mem.mpr fun priority member => ?_)
    have empty := flatMap_eq_nil_iff.mp nothing priority (by simp)
    have recorded := count_pos_iff.mpr member
    rw [queue.counted, empty] at recorded
    cases recorded

theorem items_eq_nil_of_front? (none : queue.front? = none) : queue.items = [] := by
  refine size_eq_zero_iff.mp (length_eq_zero_iff.mpr ?_)
  cases recorded : queue.nextToDequeue with
  | nil => rfl
  | cons priority rest =>
    have counted := queue.counted priority
    simp only [front?, recorded, List.head?_cons, Option.bind_some, List.head?_eq_none_iff] at none
    rw [none, recorded, count_cons_self] at counted
    cases counted

@[simp] theorem empty_items : (empty : MultiPriorityQueue Item levels).items = [] :=
  size_eq_zero_iff.mp rfl

/-! ## Items of one priority -/

def Uniform (queue : MultiPriorityQueue Item levels) (priority : Fin levels) : Prop :=
  ∀ other ∈ queue.nextToDequeue, other = priority

namespace Uniform

theorem of_items_eq_nil (nothing : queue.items = []) (priority : Fin levels) :
    queue.Uniform priority := by
  have none := length_eq_zero_iff.mp (size_eq_zero_iff.mpr nothing)
  simp [Uniform, none]

section

variable (uniform : queue.Uniform priority)
include uniform

theorem push (item : Item) :
    (queue.push item priority).Uniform priority ∧
      (queue.push item priority).items = queue.items ++ [item] := by
  refine ⟨fun other member => ?_, items_push (fun other member => (uniform other member).ge) item⟩
  rcases (mem_orderedInsert _).mp member with same | before
  · exact same
  · exact uniform other before

theorem pushAll (more : List Item) :
    (more.foldl (fun queue item => queue.push item priority) queue).Uniform priority ∧
      (more.foldl (fun queue item => queue.push item priority) queue).items =
        queue.items ++ more := by
  induction more generalizing queue with
  | nil => exact ⟨uniform, by simp⟩
  | cons item rest ih =>
    obtain ⟨still, pushed⟩ := uniform.push item
    obtain ⟨last, all⟩ := ih still
    exact ⟨last, by rw [foldl_cons, all, pushed, append_assoc, singleton_append]⟩

theorem pop : queue.pop.Uniform priority := by
  unfold MultiPriorityQueue.pop
  split
  · exact uniform
  · rename_i shape
    exact fun other member => uniform other (shape ▸ mem_cons_of_mem _ member)

theorem size : queue.size = queue.items.length := by
  obtain ⟨higher, lower, split, above, below⟩ := priorities_split priority
  have nothing : lower.flatMap queue.queues = [] := by
    refine flatMap_eq_nil_iff.mpr fun other member => queues_eq_nil fun recorded => ?_
    exact (below other member).ne (uniform other recorded)
  rw [items_eq_of_top split above fun other member => (uniform other member).le, nothing,
    append_nil, ← queue.counted, MultiPriorityQueue.size]
  exact (count_eq_length.mpr fun other member => (uniform other member).symm).symm

end

end Uniform

/-! ## One list of all items -/

section

variable (key : Item → Fin levels)

/-- An item is pushed with its priority, or the front is popped. -/
def step (queue : MultiPriorityQueue Item levels) : Option Item → MultiPriorityQueue Item levels
  | some item => queue.push item (key item)
  | none => queue.pop

/-- A new item goes behind those of at least its priority, and the first one leaves. -/
def stepListed (listed : List Item) : Option Item → List Item
  | some item => insertAt (key · < key item) item listed
  | none => listed.tail

def Keyed (queue : MultiPriorityQueue Item levels) : Prop :=
  ∀ priority, ∀ item ∈ queue.queues priority, key item = priority

end

variable {key : Item → Fin levels}

theorem front?_eq_head? :
    queue.front? = queue.items.head? ∧ queue.pop.items = queue.items.tail := by
  have split := items_eq_front_cons_pop queue
  cases front : queue.front? with
  | none =>
    have nothing := items_eq_nil_of_front? front
    rw [front, nothing] at split
    rw [nothing]
    exact ⟨rfl, split.symm⟩
  | some item =>
    rw [front] at split
    rw [split]
    exact ⟨rfl, rfl⟩

theorem Keyed.items_push (keyed : queue.Keyed key) (item : Item) :
    (queue.push item (key item)).items = insertAt (key · < key item) item queue.items := by
  obtain ⟨higher, lower, split, above, below⟩ := priorities_split (key item)
  have keptAbove :
      higher.flatMap (queue.push item (key item)).queues = higher.flatMap queue.queues :=
    flatMap_congr fun other member => update_of_ne (above other member).ne' _ _
  have keptBelow : lower.flatMap (queue.push item (key item)).queues = lower.flatMap queue.queues :=
    flatMap_congr fun other member => update_of_ne (below other member).ne _ _
  simp only [items, split, flatMap_append, flatMap_cons, keptAbove, keptBelow, ← append_assoc]
  rw [insertAt_append]
  · simp [push]
  · intro other listed
    refine decide_eq_false (not_lt.mpr ?_)
    rcases mem_append.mp listed with listed | here
    · obtain ⟨priority, member, listed⟩ := mem_flatMap.mp listed
      rw [keyed priority other listed]
      exact (above priority member).le
    · exact (keyed _ other here).ge
  · intro other listed
    obtain ⟨priority, member, listed⟩ := mem_flatMap.mp listed
    rw [keyed priority other listed]
    exact decide_eq_true (below priority member)

theorem Keyed.step (keyed : queue.Keyed key) (call : Option Item) :
    (queue.step key call).Keyed key := by
  intro priority item member
  cases call with
  | some new =>
    simp only [MultiPriorityQueue.step, push] at member
    by_cases same : priority = key new
    · subst same
      rw [update_self, mem_append, mem_singleton] at member
      rcases member with listed | rfl
      · exact keyed _ item listed
      · rfl
    · rw [update_of_ne same] at member
      exact keyed _ item member
  | none =>
    refine keyed priority item ?_
    simp only [MultiPriorityQueue.step, pop] at member
    split at member
    · exact member
    · rename_i top rest shape
      by_cases same : priority = top
      · subst same
        simp only [update_self] at member
        exact mem_of_mem_tail member
      · simpa [same] using member

/-- After any calls the queue is one list, whose head is the oldest item of the top priority. -/
theorem run_listed (key : Item → Fin levels) (calls : List (Option Item)) :
    (calls.foldl (step key) empty).items = calls.foldl (stepListed key) [] ∧
      (calls.foldl (step key) empty).front? = (calls.foldl (stepListed key) []).head? := by
  have listed : ∀ queue : MultiPriorityQueue Item levels, queue.Keyed key →
      (calls.foldl (step key) queue).items = calls.foldl (stepListed key) queue.items := by
    induction calls with
    | nil => exact fun _ _ => rfl
    | cons call rest ih =>
      intro queue keyed
      rw [foldl_cons, ih _ (keyed.step call), foldl_cons]
      congr 1
      cases call with
      | some item => exact keyed.items_push item
      | none => exact front?_eq_head?.2
  have same := listed empty fun _ _ absent => absurd absent not_mem_nil
  rw [empty_items] at same
  exact ⟨same, by rw [front?_eq_head?.1, same]⟩

end MultiPriorityQueue

end BluetoothFormal.Common
