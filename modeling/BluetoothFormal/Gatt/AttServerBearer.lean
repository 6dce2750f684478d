import BluetoothFormal.Foundation.Transition
import BluetoothFormal.Gatt.AttDatabase

/-!
# The ATT server bearer

A bearer moves its transaction handler into the task of the packet that it accepts, and
gets it back when the task has answered.  Packets and tasks interleave at every point
where a task waits for the upper layer.
-/

namespace BluetoothFormal.Gatt

open Foundation.Transition List

variable {serializes : AttChild → Bool}

/-- `Att`: an opcode and what follows it. -/
structure AttPacket where
  opcode : UInt8
  payload : List UInt8

/-- `AttChild`: an error response, or a response that a request's handler has built. -/
inductive AttChild where
  | error (opcodeInError : UInt8) (handleInError : Nat) (errorCode : AttErrorCode)
  | response (packet : AttPacket)

/--
`process_packet`, from the outcome of `try_parse_and_process_packet`; a parse error counts
as an unsupported request.
-/
def processPacket (packet : AttPacket) (outcome : Option AttChild) : AttChild :=
  match outcome with
  | some result => result
  | none => .error packet.opcode 0 .requestNotSupported

/-- `AttTransaction`: the handler, or the task that has it. -/
inductive AttTransaction (Handler : Type) where
  | idle (handler : Handler)
  | pending (task : Option Nat)

/-- A task is under way, has ended, or was aborted with its owner. -/
inductive TaskStatus where
  | running
  | ended
  | aborted
  deriving DecidableEq

/-- A spawned task with what it has captured. -/
structure TransactionTask (Handler : Type) where
  packet : AttPacket
  handler : Handler
  mtu : Nat
  status : TaskStatus

/-- `AttServerBearer`, with the tasks that it has spawned and the responses sent by them. -/
structure AttServerBearer (Handler : Type) where
  currOperation : AttTransaction Handler
  mtu : Nat
  alive : Bool
  tasks : List (TransactionTask Handler)
  sent : List (Nat × AttChild)

namespace AttServerBearer

variable {Handler : Type} {index : Nat} {bearer changed : AttServerBearer Handler}

/-- `new`, with the default MTU. -/
def new (handler : Handler) : AttServerBearer Handler := ⟨.idle handler, 23, true, [], []⟩

/-- `handle_packet`; a packet is dropped while a transaction is pending. -/
def handlePacket (bearer : AttServerBearer Handler) (packet : AttPacket) :
    AttServerBearer Handler :=
  let currOperation := bearer.currOperation
  let bearer := { bearer with currOperation := .pending none }
  match currOperation with
  | .idle handler =>
    { bearer with
      tasks := bearer.tasks ++ [⟨packet, handler, bearer.mtu, .running⟩]
      currOperation := .pending (some bearer.tasks.length) }
  | .pending task => { bearer with currOperation := .pending task }

/--
The end of a task: the reply is sent, or an error in place of a reply that does not
serialize, and the handler goes back.  The transport tells whether a packet serializes;
`none` is the failure of the `expect`.
-/
def finish (serializes : AttChild → Bool) (bearer : AttServerBearer Handler) (index : Nat)
    (task : TransactionTask Handler) (outcome : Option AttChild) :
    Option (AttServerBearer Handler) :=
  let reply := processPacket task.packet outcome
  let tasks := bearer.tasks.set index { task with status := .ended }
  if bearer.alive = false then
    -- callback returned after disconnect
    some { bearer with tasks := tasks }
  else if serializes reply = true then
    some { bearer with
      tasks := tasks
      sent := bearer.sent ++ [(index, reply)]
      currOperation := .idle task.handler }
  else
    let failed := AttChild.error task.packet.opcode 0 .unlikelyError
    if serializes failed = true then
      some { bearer with
        tasks := tasks
        sent := bearer.sent ++ [(index, failed)]
        currOperation := .idle task.handler }
    else none

def drop (bearer : AttServerBearer Handler) : AttServerBearer Handler :=
  { bearer with
    alive := false
    tasks :=
      match bearer.currOperation with
      | .pending (some index) =>
        bearer.tasks.modify index fun task => { task with status := .aborted }
      | _ => bearer.tasks }

/-- What happens to a bearer. -/
inductive Event where
  | packet (packet : AttPacket)
  | finish (index : Nat) (outcome : Option AttChild)
  | drop

def step (serializes : AttChild → Bool) : PartialStep (AttServerBearer Handler) Event
  | bearer, .packet packet =>
    if bearer.alive = true then some (bearer.handlePacket packet) else none
  | bearer, .finish index outcome =>
    match bearer.tasks[index]? with
    | some task =>
      if task.status = .running then bearer.finish serializes index task outcome else none
    | none => none
  | bearer, .drop => if bearer.alive = true then some bearer.drop else none

/-- A transaction is in progress. -/
def Running (bearer : AttServerBearer Handler) (index : Nat) : Prop :=
  ∃ task, bearer.tasks[index]? = some task ∧ task.status = .running

/--
A task that runs is the last one, and the bearer waits for it; the responses are those of
earlier tasks, one after another.
-/
structure Exclusive (bearer : AttServerBearer Handler) : Prop where
  waits : ∀ {index}, bearer.Running index → bearer.currOperation = .pending (some index)
  last : ∀ {index}, bearer.Running index → index + 1 = bearer.tasks.length
  pending : bearer.alive = true → ∀ {task}, bearer.currOperation = .pending task →
    ∃ index, task = some index ∧ bearer.Running index
  answered : ∀ entry ∈ bearer.sent, entry.1 < bearer.tasks.length ∧ ¬bearer.Running entry.1
  ordered : bearer.sent.Pairwise fun first second => first.1 < second.1

theorem exclusive_new (handler : Handler) : (new handler).Exclusive where
  waits running := by
    obtain ⟨task, present, -⟩ := running
    cases present
  last running := by
    obtain ⟨task, present, -⟩ := running
    cases present
  pending _ _ waiting := by cases waiting
  answered _ member := by cases member
  ordered := .nil

theorem running_concat {task : TransactionTask Handler}
    (tasks : changed.tasks = bearer.tasks ++ [task]) (started : task.status = .running) :
    changed.Running index ↔ index = bearer.tasks.length ∨ bearer.Running index := by
  rw [Running, tasks]
  rcases Nat.lt_trichotomy index bearer.tasks.length with old | rfl | beyond
  · rw [List.getElem?_append_left old]
    exact ⟨.inr, fun found => found.resolve_left (Nat.ne_of_lt old)⟩
  · rw [List.getElem?_concat_length]
    exact ⟨fun _ => .inl rfl, fun _ => ⟨task, rfl, started⟩⟩
  · rw [List.getElem?_eq_none (by rw [length_append, length_singleton]; omega)]
    refine ⟨nofun, ?_⟩
    rintro (rfl | ⟨found, present, -⟩)
    · exact absurd beyond (Nat.lt_irrefl _)
    · rw [List.getElem?_eq_none (by omega)] at present
      cases present

theorem running_stopped
    (others : ∀ other, other ≠ index → changed.tasks[other]? = bearer.tasks[other]?)
    (stopped : ∀ task, changed.tasks[index]? = some task → task.status ≠ .running) {other : Nat} :
    changed.Running other ↔ other ≠ index ∧ bearer.Running other := by
  by_cases same : other = index
  · subst same
    refine ⟨fun ⟨task, present, running⟩ => absurd running (stopped task present), ?_⟩
    exact fun ⟨different, _⟩ => absurd rfl different
  · rw [Running, others other same]
    exact ⟨fun running => ⟨same, running⟩, fun running => running.2⟩

namespace Exclusive

section

variable (exclusive : bearer.Exclusive)
include exclusive

theorem handlePacket_of_running (running : bearer.Running index) (packet : AttPacket) :
    bearer.handlePacket packet = bearer := by
  rw [AttServerBearer.handlePacket, exclusive.waits running]
  dsimp only
  rw [← exclusive.waits running]

theorem idle_of_not_running (alive : bearer.alive = true) (rest : ∀ index, ¬bearer.Running index) :
    ∃ handler, bearer.currOperation = .idle handler := by
  cases operation : bearer.currOperation with
  | idle handler => exact ⟨handler, rfl⟩
  | pending task =>
    obtain ⟨index, -, running⟩ := exclusive.pending alive operation
    exact absurd running (rest index)

theorem not_running_of_idle {handler : Handler} (idle : bearer.currOperation = .idle handler)
    (index : Nat) : ¬bearer.Running index := by
  intro running
  cases idle.symm.trans (exclusive.waits running)

theorem handlePacket (alive : bearer.alive = true) (packet : AttPacket) :
    (bearer.handlePacket packet).Exclusive := by
  cases operation : bearer.currOperation with
  | pending task =>
    obtain ⟨index, -, running⟩ := exclusive.pending alive operation
    rw [exclusive.handlePacket_of_running running]
    exact exclusive
  | idle handler =>
    have rest := exclusive.not_running_of_idle operation
    rw [AttServerBearer.handlePacket, operation]
    have only : ∀ index, Running { bearer with
        tasks := bearer.tasks ++ [⟨packet, handler, bearer.mtu, .running⟩]
        currOperation := .pending (some bearer.tasks.length) } index ↔
        index = bearer.tasks.length := fun index =>
      (running_concat rfl rfl).trans (or_iff_left (rest index))
    refine ⟨?_, ?_, ?_, ?_, exclusive.ordered⟩
    · intro index running
      rw [(only index).mp running]
    · intro index running
      rw [(only index).mp running, length_append, length_singleton]
    · rintro - task ⟨⟩
      exact ⟨_, rfl, (only _).mpr rfl⟩
    · intro entry member
      have earlier := (exclusive.answered entry member).1
      refine ⟨?_, ?_⟩
      · rw [length_append, length_singleton]
        exact Nat.lt_succ_of_lt earlier
      · rw [only]
        exact Nat.ne_of_lt earlier

theorem running_unique {other : Nat} (running : bearer.Running index)
    (otherRunning : bearer.Running other) : index = other := by
  have first := exclusive.last running
  have second := exclusive.last otherRunning
  omega

theorem stopped (running : bearer.Running index)
    (others : ∀ other, other ≠ index → changed.tasks[other]? = bearer.tasks[other]?)
    (stops : ∀ task, changed.tasks[index]? = some task → task.status ≠ .running) (other : Nat) :
    ¬changed.Running other := by
  intro stillRunning
  obtain ⟨different, otherRunning⟩ := (running_stopped others stops).mp stillRunning
  exact different (exclusive.running_unique otherRunning running)

end

theorem rest (rest : ∀ index, ¬changed.Running index)
    (pending : changed.alive = true → ∀ {task}, changed.currOperation ≠ .pending task)
    (answered : ∀ entry ∈ changed.sent, entry.1 < changed.tasks.length)
    (ordered : changed.sent.Pairwise fun first second => first.1 < second.1) :
    changed.Exclusive where
  waits running := absurd running (rest _)
  last running := absurd running (rest _)
  pending alive _ waiting := absurd waiting (pending alive)
  answered entry member := ⟨answered entry member, rest entry.1⟩
  ordered := ordered

theorem answered_concat (exclusive : bearer.Exclusive) (running : bearer.Running index)
    (reply : AttChild) :
    (∀ entry ∈ bearer.sent ++ [(index, reply)], entry.1 < bearer.tasks.length) ∧
      (bearer.sent ++ [(index, reply)]).Pairwise fun first second => first.1 < second.1 := by
  have last := exclusive.last running
  have earlier : ∀ entry ∈ bearer.sent, entry.1 < index := by
    intro entry member
    obtain ⟨bound, notRunning⟩ := exclusive.answered entry member
    have different : entry.1 ≠ index := fun same => notRunning (same ▸ running)
    omega
  constructor
  · intro entry member
    rcases mem_append.mp member with old | new
    · exact (exclusive.answered entry old).1
    · rw [mem_singleton.mp new]
      exact Nat.lt_of_succ_le (Nat.le_of_eq last)
  · rw [pairwise_append]
    refine ⟨exclusive.ordered, pairwise_singleton .., fun entry member reply new => ?_⟩
    rw [mem_singleton.mp new]
    exact earlier entry member

theorem finish (exclusive : bearer.Exclusive)
    {task : TransactionTask Handler} (present : bearer.tasks[index]? = some task)
    (status : task.status = .running) {outcome : Option AttChild}
    (finished : bearer.finish serializes index task outcome = some changed) :
    changed.Exclusive := by
  have running : bearer.Running index := ⟨task, present, status⟩
  have others : ∀ other, other ≠ index →
      (bearer.tasks.set index { task with status := .ended })[other]? = bearer.tasks[other]? :=
    fun other different => List.getElem?_set_ne (Ne.symm different)
  have ended : ∀ found, (bearer.tasks.set index { task with status := .ended })[index]? =
      some found → found.status ≠ .running := by
    intro found there
    rw [List.getElem?_set_self (List.getElem?_eq_some_iff.mp present).1] at there
    cases there
    nofun
  have length : (bearer.tasks.set index { task with status := .ended }).length =
      bearer.tasks.length := length_set
  have replied : ∀ reply : AttChild, Exclusive { bearer with
      tasks := bearer.tasks.set index { task with status := .ended }
      sent := bearer.sent ++ [(index, reply)]
      currOperation := .idle task.handler } := by
    intro reply
    obtain ⟨bounds, ordered⟩ := exclusive.answered_concat running reply
    refine .rest (exclusive.stopped running others ended) (fun _ _ => nofun) ?_ ordered
    exact fun entry member => length.symm ▸ bounds entry member
  rw [AttServerBearer.finish] at finished
  dsimp only at finished
  split at finished
  · rename_i dead
    cases finished
    refine .rest (exclusive.stopped running others ended) ?_ ?_ exclusive.ordered
    · intro alive
      cases dead.symm.trans alive
    · exact fun entry member => length.symm ▸ (exclusive.answered entry member).1
  · split at finished
    · cases finished
      exact replied _
    · obtain ⟨-, rfl⟩ := guarded_eq_some.mp finished
      exact replied _

theorem drop (exclusive : bearer.Exclusive) (alive : bearer.alive = true) :
    bearer.drop.Exclusive := by
  have dead : bearer.drop.alive = true → ∀ {task}, bearer.drop.currOperation ≠ .pending task :=
    nofun
  cases operation : bearer.currOperation with
  | idle handler =>
    have tasks : bearer.drop.tasks = bearer.tasks := by
      rw [AttServerBearer.drop, operation]
    refine .rest (fun index running => ?_) dead ?_ exclusive.ordered
    · rw [Running, tasks] at running
      exact exclusive.not_running_of_idle operation index running
    · intro entry member
      rw [tasks]
      exact (exclusive.answered entry member).1
  | pending task =>
    obtain ⟨index, rfl, running⟩ := exclusive.pending alive operation
    have tasks : bearer.drop.tasks =
        bearer.tasks.modify index fun task => { task with status := .aborted } := by
      rw [AttServerBearer.drop, operation]
    refine .rest (exclusive.stopped running ?_ ?_) dead ?_ exclusive.ordered
    · intro other different
      rw [tasks, List.getElem?_modify_ne _ _ (Ne.symm different)]
    · intro found there
      rw [tasks, List.getElem?_modify] at there
      obtain ⟨-, -, rfl⟩ := Option.map_eq_some_iff.mp there
      rw [if_pos rfl]
      nofun
    · intro entry member
      rw [tasks, length_modify]
      exact (exclusive.answered entry member).1

end Exclusive

theorem step_exclusive {event : Event} (exclusive : bearer.Exclusive)
    (stepped : step serializes bearer event = some changed) : changed.Exclusive := by
  cases event with
  | packet packet =>
    obtain ⟨alive, rfl⟩ := guarded_eq_some.mp stepped
    exact exclusive.handlePacket alive packet
  | finish index outcome =>
    rw [step] at stepped
    split at stepped
    · rename_i task present
      obtain ⟨status, finished⟩ := Option.ite_none_right_eq_some.mp stepped
      exact exclusive.finish present status finished
    · cases stepped
  | drop =>
    obtain ⟨alive, rfl⟩ := guarded_eq_some.mp stepped
    exact exclusive.drop alive

/--
After any events, at most one transaction is in progress; the responses answer accepted
packets in their order, each at most once; a packet during a transaction changes nothing,
and any other one is accepted behind the earlier ones without a response.
-/
theorem one_transaction_at_a_time (serializes : AttChild → Bool) (handler : Handler)
    (events : List Event) (bearer : AttServerBearer Handler)
    (reached : run (step serializes) (new handler) events = some bearer) :
    (∀ index other, bearer.Running index → bearer.Running other → index = other) ∧
    (bearer.sent.Pairwise fun first second => first.1 < second.1) ∧
    (∀ entry ∈ bearer.sent, entry.1 < bearer.tasks.length) ∧
    (∀ index packet, bearer.Running index → bearer.handlePacket packet = bearer) ∧
    ∀ packet, (∀ index, ¬bearer.Running index) → bearer.alive = true →
      (bearer.handlePacket packet).tasks.map TransactionTask.packet =
          bearer.tasks.map TransactionTask.packet ++ [packet] ∧
        (bearer.handlePacket packet).Running bearer.tasks.length ∧
        (bearer.handlePacket packet).sent = bearer.sent := by
  have exclusive : bearer.Exclusive :=
    invariant_run (fun _ _ _ kept stepped => step_exclusive kept stepped) (exclusive_new handler)
      reached
  refine ⟨fun _ _ => exclusive.running_unique, exclusive.ordered,
    fun entry member => (exclusive.answered entry member).1,
    fun _ packet running => exclusive.handlePacket_of_running running packet, ?_⟩
  intro packet rest alive
  obtain ⟨handler, idle⟩ := exclusive.idle_of_not_running alive rest
  rw [handlePacket, idle]
  refine ⟨?_, ?_, rfl⟩
  · rw [map_append, map_singleton]
  · exact (running_concat rfl rfl).mpr (.inl rfl)

/-- A packet during the transaction of another one, and a third one after it. -/
def overlapping : List Event :=
  [.packet ⟨0x0A, [1, 0]⟩, .packet ⟨0x0A, [2, 0]⟩, .finish 0 (some (.response ⟨0x0B, [7]⟩)),
    .packet ⟨0x0A, [3, 0]⟩, .finish 1 none]

theorem one_transaction_at_a_time_overlapping :
    ∃ bearer : AttServerBearer Unit, run (step fun _ => true) (new ()) overlapping = some bearer ∧
      (∀ index other, bearer.Running index → bearer.Running other → index = other) ∧
      (bearer.sent.Pairwise fun first second => first.1 < second.1) ∧
      (∀ entry ∈ bearer.sent, entry.1 < bearer.tasks.length) ∧
      (∀ index packet, bearer.Running index → bearer.handlePacket packet = bearer) ∧
      ∀ packet, (∀ index, ¬bearer.Running index) → bearer.alive = true →
        (bearer.handlePacket packet).tasks.map TransactionTask.packet =
            bearer.tasks.map TransactionTask.packet ++ [packet] ∧
          (bearer.handlePacket packet).Running bearer.tasks.length ∧
          (bearer.handlePacket packet).sent = bearer.sent :=
  ⟨_, rfl, one_transaction_at_a_time (fun _ => true) () overlapping _ rfl⟩

end AttServerBearer

end BluetoothFormal.Gatt
