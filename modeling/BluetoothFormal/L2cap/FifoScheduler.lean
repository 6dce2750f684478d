import BluetoothFormal.Common.MultiPriorityQueue
import Mathlib.Data.List.Rotate

/-!
# The fifo scheduler of a link

The queue of the scheduler holds the channels that have packets, each with their number.  To
remove a channel, the queue is moved through its own back: every entry comes back with the
low priority, and the number of packets is taken for the channel.
-/

namespace BluetoothFormal.L2cap

open Common Common.MultiPriorityQueue List

abbrev ChannelAndNumPackets := UInt16 × Int

structure Fifo where
  nextToDequeue : MultiPriorityQueue ChannelAndNumPackets 2
  highPriorityCids : List UInt16
  linkQueueEnqueueRegistered : Bool

namespace Fifo

def new : Fifo := ⟨.empty, [], false⟩

def onPacketsReady (fifo : Fifo) (cid : UInt16) (numberPackets : Int) : Fifo :=
  if numberPackets = 0 then fifo
  else
    { fifo with
      nextToDequeue := fifo.nextToDequeue.push (cid, numberPackets)
        ⟨(decide (cid ∈ fifo.highPriorityCids)).toNat, Bool.toNat_lt _⟩
      linkQueueEnqueueRegistered := true }

/-- The loop of `RemoveChannel` from a counter, with as many rounds as it can have. -/
def removeLoop (cid : UInt16) :
    Nat → Nat → MultiPriorityQueue ChannelAndNumPackets 2 →
      MultiPriorityQueue ChannelAndNumPackets 2
  | 0, _, queue => queue
  | rounds + 1, i, queue =>
    if i < queue.size then
      match queue.front? with
      | none => queue
      | some entry =>
        removeLoop cid rounds (i + 1)
          (if entry.2 ≠ cid.toNat then queue.push entry ⟨0, Nat.two_pos⟩ else queue).pop
    else queue

def removeChannel (fifo : Fifo) (cid : UInt16) : Fifo :=
  let queue := removeLoop cid fifo.nextToDequeue.size 0 fifo.nextToDequeue
  { fifo with
    nextToDequeue := queue
    linkQueueEnqueueRegistered := fifo.linkQueueEnqueueRegistered && queue.size ≠ 0 }

/-! ## Moving the queue -/

variable {queue : MultiPriorityQueue ChannelAndNumPackets 2} {entry : ChannelAndNumPackets}

theorem length_eq_counts (priorities : List (Fin 2)) :
    priorities.length = priorities.count 1 + priorities.count 0 := by
  induction priorities with
  | nil => rfl
  | cons priority rest ih =>
    rw [length_cons, ih, count_cons, count_cons]
    match priority with
    | 0 => exact Nat.add_assoc ..
    | 1 => exact Nat.add_right_comm ..

section

variable (queue)

theorem items_eq : queue.items = queue.queues 1 ++ queue.queues 0 :=
  congrArg (queue.queues 1 ++ ·) (append_nil _)

theorem size_eq : queue.size = queue.items.length := by
  rw [MultiPriorityQueue.size, length_eq_counts, queue.counted, queue.counted, items_eq,
    length_append]

theorem pop_high : queue.pop.queues 1 = (queue.queues 1).tail := by
  unfold MultiPriorityQueue.pop
  split
  case h_1 empty =>
    rw [queues_eq_nil (by simp [empty])]
    rfl
  case h_2 priority rest shape =>
    match priority with
    | 1 => rfl
    | 0 =>
      have none : (1 : Fin 2) ∉ queue.nextToDequeue := by
        rw [shape]
        rintro (_ | ⟨_, later⟩)
        exact absurd ((pairwise_cons.mp (shape ▸ queue.ordered)).1 1 later) (by decide)
      change queue.queues 1 = _
      rw [queues_eq_nil none]
      rfl

end

theorem move_front (front : queue.front? = some entry) :
    (queue.push entry 0).pop.items = queue.items.rotate 1 ∧
      (queue.push entry 0).pop.queues 1 = (queue.queues 1).tail := by
  refine ⟨?_, pop_high _⟩
  have split : queue.items = entry :: queue.pop.items := by
    rw [queue.items_eq_front_cons_pop, front]
    rfl
  have pushed : (queue.push entry 0).items = entry :: (queue.pop.items ++ [entry]) := by
    rw [items_push (fun _ _ => Fin.zero_le _), split, cons_append]
  rw [split, rotate_cons_succ, rotate_zero]
  cases found : (queue.push entry 0).front? with
  | none =>
    rw [items_eq_nil_of_front? found] at pushed
    cases pushed
  | some first =>
    rw [items_eq_front_cons_pop, found] at pushed
    exact (cons.inj pushed).2

/-- Rounds that drop nothing move the queue through its back. -/
theorem removeLoop_moves {cid : UInt16} {rounds i : Nat} (size : queue.size = i + rounds)
    (free : ∀ entry ∈ queue.items, entry.2 ≠ cid.toNat) :
    (removeLoop cid rounds i queue).items = queue.items.rotate rounds ∧
      (removeLoop cid rounds i queue).queues 1 = (queue.queues 1).drop rounds := by
  induction rounds generalizing i queue with
  | zero => exact ⟨(rotate_zero _).symm, rfl⟩
  | succ rounds ih =>
    rw [removeLoop, if_pos (by omega)]
    cases front : queue.front? with
    | none =>
      rw [size_eq, items_eq_nil_of_front? front] at size
      cases size
    | some entry =>
      have first : entry ∈ queue.items := by
        rw [queue.items_eq_front_cons_pop, front]
        exact mem_cons_self ..
      obtain ⟨items, high⟩ := move_front front
      have same : (queue.push entry 0).pop.size = i + 1 + rounds := by
        rw [size_eq, items, length_rotate, ← size_eq, size]
        omega
      obtain ⟨itemsAfter, highAfter⟩ := ih same fun other member =>
        free other (mem_rotate.mp (items ▸ member))
      dsimp only
      rw [items, rotate_rotate, Nat.add_comm 1] at itemsAfter
      rw [high, drop_tail] at highAfter
      rw [if_pos (free entry first)]
      exact ⟨itemsAfter, highAfter⟩

/--
While no number of packets is the channel, `RemoveChannel` leaves what it should only if
nothing waits with high priority or for the channel.
-/
theorem removeChannel_removes_iff (fifo : Fifo) (cid : UInt16)
    (free : ∀ entry ∈ fifo.nextToDequeue.items, entry.2 ≠ cid.toNat) :
    (∀ priority, (fifo.removeChannel cid).nextToDequeue.queues priority =
      (fifo.nextToDequeue.queues priority).filter fun entry => entry.1 ≠ cid) ↔
    fifo.nextToDequeue.queues 1 = [] ∧ ∀ entry ∈ fifo.nextToDequeue.items, entry.1 ≠ cid := by
  obtain ⟨items, high⟩ := removeLoop_moves (Nat.zero_add _).symm free
  have all : (fifo.nextToDequeue.queues 1).length ≤ fifo.nextToDequeue.size := by
    rw [size_eq, items_eq, length_append]
    exact Nat.le_add_right ..
  rw [drop_eq_nil_of_le all] at high
  rw [items_eq, high, nil_append, size_eq fifo.nextToDequeue, rotate_length,
    ← size_eq fifo.nextToDequeue] at items
  rw [Fin.forall_fin_two, removeChannel]
  rw [high, items, items_eq]
  constructor
  · rintro ⟨low, -⟩
    have short : (fifo.nextToDequeue.queues 1 ++ fifo.nextToDequeue.queues 0).length ≤
        (fifo.nextToDequeue.queues 0).length := low ▸ length_filter_le ..
    have none : fifo.nextToDequeue.queues 1 = [] := by
      rw [length_append] at short
      exact length_eq_zero_iff.mp (by omega)
    rw [none, nil_append, eq_comm, filter_eq_self] at low
    rw [none, nil_append]
    exact ⟨rfl, fun entry member => of_decide_eq_true (low entry member)⟩
  · rintro ⟨none, apart⟩
    rw [none, nil_append] at apart ⊢
    exact ⟨(filter_eq_self.mpr fun entry member => decide_eq_true (apart entry member)).symm, rfl⟩

theorem removeChannel_removes_iff_otherChannel :
    ((new.onPacketsReady 65 1).removeChannel 64).nextToDequeue.queues 0 =
      ((new.onPacketsReady 65 1).nextToDequeue.queues 0).filter fun entry => entry.1 ≠ 64 :=
  (removeChannel_removes_iff _ 64 (by decide)).mpr ⟨rfl, by decide⟩ 0

theorem removeChannel_keeps_entry :
    ((new.onPacketsReady 64 1).removeChannel 64).nextToDequeue.queues 0 = [(64, 1)] := by
  decide

end Fifo

end BluetoothFormal.L2cap
