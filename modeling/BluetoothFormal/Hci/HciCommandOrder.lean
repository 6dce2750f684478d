import BluetoothFormal.Hci.HciLayer

/-!
# Commands are sent and answered in order

The command waited for is always the front of the queue and the last one sent.
Every answer retires it, so callbacks run in the order of the enqueue calls, and
before the timeout every step that could leave the queue waiting for nothing
ends by sending the next command.
-/

namespace BluetoothFormal.Hci.HciLayer

open Foundation.Transition List Option World Impl CommandQueueEntry

namespace Output

def sentCallback : Output → Option Nat
  | .sent entry => some entry.callback
  | _ => none

/-- A command that was sent and is answered or abandoned. -/
def closedCallback : Output → Option Nat
  | .invoked entry _ _ => some entry.callback
  | .abandoned entry => some entry.callback
  | _ => none

def invokedCallback : Output → Option Nat
  | .invoked entry _ _ => some entry.callback
  | _ => none

def flushedCallback : Output → Option Nat
  | .flushed entry => some entry.callback
  | _ => none

end Output

namespace Impl

/-- The command sent and not yet answered. -/
def outstanding (impl : Impl) : List Nat :=
  if impl.waitingCommand = OpCode.none then []
  else impl.commandQueue.head?.toList.map callback

def unsent (impl : Impl) : List Nat :=
  if impl.waitingCommand = OpCode.none then impl.commandQueue.map callback
  else impl.commandQueue.tail.map callback

end Impl

namespace World

section

variable (world : World)

def sent : List Nat := world.outputs.filterMap Output.sentCallback

def closed : List Nat := world.outputs.filterMap Output.closedCallback

def invoked : List Nat := world.outputs.filterMap Output.invokedCallback

def flushed : List Nat := world.outputs.filterMap Output.flushedCallback

end

end World

/-- The vendor specific commands are those of the opcode group `0x3f`. -/
def vendorGroup (opCode : OpCode) : Bool := opCode.toNat >>> 10 == 0x3f

/-- The status of an unknown command answers a command that awaits its completion. -/
def Unforeseen (entry : CommandQueueEntry) (event : EventView) : Prop :=
  event.isUnknownCommand ∧ entry.waitingForStatus = false
  deriving Decidable

/--
What the callback of a command is given for an event: the event itself, except
that a vendor specific command which awaits its completion and is unknown to the
controller gets an empty command complete view.
-/
def expectedResponse (entry : CommandQueueEntry) (event : EventView) : Response :=
  if vendorGroup entry.command.opCode ∧ Unforeseen entry event then .emptyComplete
  else .received event

/--
The event carries the opcode of the command that it answers.  A command of
another group is not meant to be answered by the status of an unknown command
if it awaits its completion; the test of the opcode group lets that pass.
-/
def Answers : Output → Prop
  | .invoked entry event response =>
    event.commandOpCode = entry.command.opCode ∧
      ((Unforeseen entry event → vendorGroup entry.command.opCode) →
        response = expectedResponse entry event)
  | _ => True

/-! ## What the timeout clears -/

variable {make : CommandQueueEntry → Output} {next world : World} {response : Response}

namespace Impl

theorem filterMap_map_none {Value : Type} {view : Output → Option Value}
    (nothing : ∀ entry, view (make entry) = none) (entries : List CommandQueueEntry) :
    (entries.map make).filterMap view = [] := by
  rw [filterMap_map]
  exact filterMap_eq_nil_iff.mpr fun entry _ => nothing entry

theorem filterMap_map_callback {view : Output → Option Nat}
    (shown : ∀ entry, view (make entry) = some entry.callback) (entries : List CommandQueueEntry) :
    (entries.map make).filterMap view = entries.map callback := by
  have same : view ∘ make = fun entry => some entry.callback := funext shown
  rw [filterMap_map, same]
  exact congrFun filterMap_eq_map entries

theorem cleared_sent (impl : Impl) : impl.cleared.filterMap Output.sentCallback = [] := by
  unfold cleared
  split
  · exact filterMap_map_none (fun _ => rfl) _
  · rw [filterMap_append, filterMap_map_none (fun _ => rfl),
      filterMap_map_none (fun _ => rfl), append_nil]

theorem cleared_closed (impl : Impl) :
    impl.cleared.filterMap Output.closedCallback = impl.outstanding := by
  unfold cleared outstanding
  split
  · exact filterMap_map_none (fun _ => rfl) _
  · rw [filterMap_append, filterMap_map_callback (fun _ => rfl),
      filterMap_map_none (fun _ => rfl), append_nil]

theorem cleared_flushed (impl : Impl) :
    impl.cleared.filterMap Output.flushedCallback = impl.unsent := by
  unfold cleared unsent
  split
  · exact filterMap_map_callback (fun _ => rfl) _
  · rw [filterMap_append, filterMap_map_none (fun _ => rfl),
      filterMap_map_callback (fun _ => rfl), nil_append]

theorem answers_cleared (impl : Impl) : ∀ output ∈ impl.cleared, Answers output := by
  intro output member
  unfold cleared at member
  split at member
  · obtain ⟨entry, _, rfl⟩ := mem_map.mp member
    trivial
  · rcases mem_append.mp member with front | others
    · obtain ⟨entry, _, rfl⟩ := mem_map.mp front
      trivial
    · obtain ⟨-, _, rfl⟩ := mem_map.mp others
      trivial

end Impl

/-! ## The books -/

/-- Every numbered command is sent, waits to be sent or was flushed. -/
structure Books (world : World) : Prop where
  current : world.impl.waitingCommand ≠ OpCode.none →
    ∃ entry rest, world.impl.commandQueue = entry :: rest ∧
      entry.command.opCode = world.impl.waitingCommand
  progress : world.sent = world.closed ++ world.impl.outstanding
  ordered : (world.sent ++ world.impl.unsent).Pairwise (· < ·)
  accounted : (world.sent ++ world.impl.unsent ++ world.flushed).Perm (List.range world.enqueued)
  answers : ∀ output ∈ world.outputs, Answers output

variable {event : EventView} {rest : List CommandQueueEntry} {entry : CommandQueueEntry}
  {reply : Reply}

namespace Books

variable {world : World}

section

variable (books : Books world)
include books

theorem congr (queue : next.impl.commandQueue = world.impl.commandQueue)
    (waiting : next.impl.waitingCommand = world.impl.waitingCommand)
    (enqueued : next.enqueued = world.enqueued) (outputs : next.outputs = world.outputs) :
    Books next := by
  obtain ⟨current, progress, ordered, accounted, answers⟩ := books
  have outstanding : next.impl.outstanding = world.impl.outstanding := by
    simp [outstanding, queue, waiting]
  have unsent : next.impl.unsent = world.impl.unsent := by simp [unsent, queue, waiting]
  refine ⟨by simpa only [queue, waiting] using current, ?_, ?_, ?_, outputs ▸ answers⟩
  · simpa only [sent, closed, outputs, outstanding] using progress
  · simpa only [sent, outputs, unsent] using ordered
  · simpa only [sent, flushed, outputs, unsent, enqueued] using accounted

theorem sendNextCommand : Books (world.apply world.impl.sendNextCommand) := by
  have same : Books (world.apply (world.impl, [])) := by simpa [apply] using books
  unfold Impl.sendNextCommand
  split
  · exact same
  split
  · exact same
  rename_i idle
  have none : world.impl.waitingCommand = OpCode.none := Decidable.not_not.mp idle
  cases queue : world.impl.commandQueue with
  | nil => exact same
  | cons entry rest =>
    obtain ⟨-, progress, ordered, accounted, answers⟩ := books
    have named := entry.command.named
    simp only [sent, closed, flushed, outstanding, unsent, none,
      queue, if_true, append_nil, map_cons] at progress ordered accounted
    refine ⟨fun _ => ⟨entry, rest, rfl, rfl⟩, ?_, ?_, ?_, ?_⟩
    · simp [sent, closed, apply, outstanding, named, progress,
        Output.sentCallback, Output.closedCallback]
    · simpa [sent, apply, unsent, named, Output.sentCallback] using ordered
    · simpa [sent, flushed, apply, unsent, named, filterMap_cons,
        Output.sentCallback, Output.flushedCallback] using accounted
    · simpa [apply, Answers, or_imp, forall_and] using answers

theorem append (command : Command) (waitingForStatus : Bool) :
    Books
      { world with
        impl := { world.impl with
          commandQueue :=
            world.impl.commandQueue ++ [⟨world.enqueued, command, waitingForStatus⟩] }
        enqueued := world.enqueued + 1 } := by
  obtain ⟨current, progress, ordered, accounted, answers⟩ := books
  have below : ∀ callback ∈ world.sent ++ world.impl.unsent, callback < world.enqueued :=
    fun callback member => mem_range.mp (accounted.subset (mem_append_left _ member))
  let appended : Impl :=
    { world.impl with
      commandQueue := world.impl.commandQueue ++ [⟨world.enqueued, command, waitingForStatus⟩] }
  have unsent : appended.unsent = world.impl.unsent ++ [world.enqueued] := by
    by_cases idle : world.impl.waitingCommand = OpCode.none
    · simp [appended, unsent, idle]
    · obtain ⟨entry, rest, queue, _⟩ := current idle
      simp [appended, unsent, idle, queue]
  have outstanding : appended.outstanding = world.impl.outstanding := by
    by_cases idle : world.impl.waitingCommand = OpCode.none
    · simp [appended, outstanding, idle]
    · obtain ⟨entry, rest, queue, _⟩ := current idle
      simp [appended, outstanding, idle, queue]
  refine ⟨?_, progress.trans (by rw [← outstanding]; rfl), ?_, ?_, answers⟩
  · intro waiting
    obtain ⟨entry, rest, queue, opCode⟩ := current waiting
    exact ⟨entry, rest ++ [⟨world.enqueued, command, waitingForStatus⟩], by simp [queue], opCode⟩
  · rw [unsent, ← append_assoc]
    exact pairwise_append.mpr ⟨ordered, pairwise_singleton _ _,
      fun callback member other newest => mem_singleton.mp newest ▸ below callback member⟩
  · rw [unsent, range_succ]
    refine List.Perm.trans ?_ (accounted.append_right [world.enqueued])
    simp only [append_assoc]
    exact List.Perm.append_left _ (List.Perm.append_left _ perm_append_comm)

theorem enqueueCommand (command : Command) (waitingForStatus : Bool) :
    Books ({ world with enqueued := world.enqueued + 1 }.apply
      (world.impl.enqueueCommand ⟨world.enqueued, command, waitingForStatus⟩)) :=
  (books.append command waitingForStatus).sendNextCommand

section

variable (queue : world.impl.commandQueue = entry :: rest)
include queue

section

variable (waiting : world.impl.waitingCommand ≠ OpCode.none)
include waiting

theorem close (answers : Answers (.invoked entry event response)) :
    Books (world.apply ({ world.impl with commandQueue := rest, waitingCommand := OpCode.none },
        [.invoked entry event response])) := by
  obtain ⟨-, progress, ordered, accounted, earlier⟩ := books
  simp only [outstanding, unsent, if_neg waiting, queue, List.head?_cons,
    Option.toList_some, map_cons, map_nil, tail_cons] at progress ordered accounted
  refine ⟨fun distinct => absurd rfl distinct, ?_, ?_, ?_, ?_⟩
  · simpa [sent, closed, apply, outstanding, filterMap_cons,
      Output.sentCallback, Output.closedCallback] using progress
  · simpa [sent, apply, unsent, filterMap_cons, Output.sentCallback] using ordered
  · simpa [sent, flushed, apply, unsent, filterMap_cons,
      Output.sentCallback, Output.flushedCallback] using accounted
  · exact forall_mem_append.mpr ⟨earlier, forall_mem_singleton.mpr answers⟩

theorem retire (answers : Answers (.invoked entry event response)) :
    Books (world.apply (world.impl.retire rest [.invoked entry event response])) := by
  have closed := books.close queue waiting answers
  have cancelled : Books (world.apply ({ world.impl with
          commandQueue := rest
          waitingCommand := OpCode.none
          hciTimeoutAlarm := .idle }, [.invoked entry event response])) :=
    closed.congr rfl rfl rfl rfl
  unfold Impl.retire
  split
  · exact closed
  · simpa [apply, Impl.after] using cancelled.sendNextCommand

theorem answer (opCode : event.commandOpCode = entry.command.opCode)
    (answered : world.impl.answer entry rest event = some reply) :
    Books (world.apply reply) := by
  unfold Impl.answer at answered
  split at answered
  · rename_i unknown
    obtain rfl := some.inj answered
    refine books.retire queue waiting ⟨opCode, fun vendor => ?_⟩
    exact (if_pos ⟨vendor unknown.2, unknown.2⟩).symm
  · split at answered
    · rename_i matching
      obtain rfl := some.inj answered
      refine books.retire queue waiting ⟨opCode, fun _ => (if_neg ?_).symm⟩
      rintro ⟨-, unknown, completes⟩
      rw [completes] at matching
      cases event <;> simp [EventView.isStatus, EventView.isUnknownCommand] at matching unknown
    · cases answered

end

end

theorem hciEvent (handled : world.impl.onHciEvent event = some reply) :
    Books (world.apply reply) := by
  unfold onHciEvent at handled
  split at handled
  · cases handled
  have credited : Books { world with
      impl := { world.impl with commandCredits := event.numHciCommandPackets } } :=
    books.congr rfl rfl rfl rfl
  unfold handleCommandResponse at handled
  dsimp only at handled
  split at handled
  · obtain rfl := some.inj handled
    exact credited.sendNextCommand
  rename_i named
  split at handled
  · cases handled
  rename_i entry rest queue
  split at handled
  · obtain rfl := some.inj handled
    simpa [apply] using credited
  split at handled
  · rename_i matching
    have waiting : world.impl.waitingCommand ≠ OpCode.none := matching ▸ named
    obtain ⟨front, others, shape, opCode⟩ := books.current waiting
    obtain ⟨rfl, rfl⟩ := List.cons.inj (queue.symm.trans shape)
    exact credited.answer queue waiting (matching.symm.trans opCode.symm) handled
  · cases handled

theorem clear :
    Books (world.apply ({ world.impl with
          commandQueue := [], commandCredits := 1, waitingCommand := OpCode.none },
        world.impl.cleared)) := by
  obtain ⟨_, progress, ordered, accounted, answers⟩ := books
  have unsent : ({ world.impl with
      commandQueue := [], commandCredits := 1, waitingCommand := OpCode.none } : Impl).unsent =
        [] := rfl
  refine ⟨fun distinct => absurd rfl distinct, ?_, ?_, ?_, ?_⟩
  · simpa [sent, closed, apply, cleared_sent, cleared_closed, outstanding] using progress
  · simpa [sent, apply, cleared_sent, unsent] using (pairwise_append.mp ordered).1
  · refine List.Perm.trans ?_ accounted
    simp only [sent, flushed, apply, Impl.cleared_sent, Impl.cleared_flushed,
      unsent, filterMap_append, append_nil, append_assoc]
    exact List.Perm.append_left _ perm_append_comm
  · intro output member
    rcases mem_append.mp member with before | last
    · exact answers output before
    · exact world.impl.answers_cleared output last

theorem hciTimeout :
    Books ({ world with enqueued := world.enqueued + 1, timedOut := true }.apply
      (world.impl.onHciTimeout world.enqueued)) := by
  have enqueued := books.clear.enqueueCommand debugInfo false
  refine enqueued.congr rfl rfl rfl ?_
  simp [apply, Impl.onHciTimeout, Impl.after]

end

theorem step (event : Event) (next : World) (books : Books world)
    (moved : world.step event = some next) : Books next := by
  cases event with
  | enqueueCommand command waitingForStatus =>
    exact some.inj moved ▸ books.enqueueCommand command waitingForStatus
  | hciEvent event =>
    obtain ⟨reply, handled, rfl⟩ := map_eq_some_iff.mp moved
    exact books.hciEvent handled
  | hciTimeout =>
    simp only [World.step] at moved
    split at moved
    · exact some.inj moved ▸ books.hciTimeout
    · cases moved

end Books

/-! ## Serving the queue -/

/-- While there is an alarm, commands and credits wait only for an answer. -/
def Impl.Served (impl : Impl) : Prop :=
  impl.hciTimeoutAlarm ≠ .deleted → impl.commandQueue ≠ [] → impl.commandCredits ≠ 0 →
    impl.waitingCommand ≠ OpCode.none

namespace Impl

theorem sendNextCommand_served (impl : Impl) : impl.sendNextCommand.1.Served := by
  unfold sendNextCommand
  split
  · rename_i empty
    exact fun _ _ credits => absurd empty credits
  split
  · rename_i waiting
    exact fun _ _ _ => waiting
  split
  · rename_i empty
    exact fun _ queue => absurd empty queue
  · exact fun _ _ credits => absurd rfl credits

theorem sendNextCommand_deleted (impl : Impl) :
    impl.sendNextCommand.1.hciTimeoutAlarm = .deleted ↔ impl.hciTimeoutAlarm = .deleted := by
  unfold sendNextCommand
  split
  · rfl
  split
  · rfl
  split
  · rfl
  · cases impl.hciTimeoutAlarm <;> simp [Alarm.schedule]

theorem retire_served (impl : Impl) (rest : List CommandQueueEntry) (outputs : List Output) :
    (impl.retire rest outputs).1.Served ∧
      ((impl.retire rest outputs).1.hciTimeoutAlarm = .deleted → impl.hciTimeoutAlarm = .deleted) := by
  unfold retire
  split
  · rename_i deleted
    exact ⟨fun alarm => absurd deleted alarm, fun _ => deleted⟩
  · refine ⟨sendNextCommand_served _, fun deleted => ?_⟩
    have idle := (sendNextCommand_deleted _).mp deleted
    cases idle

theorem onHciEvent_served {impl : Impl} (handled : impl.onHciEvent event = some reply) :
    reply.1.Served ∧ (reply.1.hciTimeoutAlarm = .deleted → impl.hciTimeoutAlarm = .deleted) := by
  unfold onHciEvent at handled
  split at handled
  · cases handled
  unfold handleCommandResponse at handled
  dsimp only at handled
  split at handled
  · obtain rfl := some.inj handled
    exact ⟨sendNextCommand_served _, (sendNextCommand_deleted _).mp⟩
  split at handled
  · cases handled
  split at handled
  · rename_i waiting
    obtain rfl := some.inj handled
    refine ⟨fun _ _ _ => ?_, id⟩
    rw [waiting.1]
    decide
  split at handled
  · unfold answer at handled
    split at handled
    · obtain rfl := some.inj handled
      exact retire_served _ _ _
    · split at handled
      · obtain rfl := some.inj handled
        exact retire_served _ _ _
      · cases handled
  · cases handled

end Impl

theorem World.step_served {event : Event} (moved : world.step event = some next) :
    next.impl.Served ∧ (next.impl.hciTimeoutAlarm = .deleted →
      world.impl.hciTimeoutAlarm = .deleted ∧ next.timedOut = world.timedOut ∨
        next.timedOut = true) := by
  cases event with
  | enqueueCommand command waitingForStatus =>
    obtain rfl := some.inj moved
    refine ⟨sendNextCommand_served _, fun deleted => .inl ⟨?_, rfl⟩⟩
    have before := (sendNextCommand_deleted _).mp deleted
    exact before
  | hciEvent event =>
    obtain ⟨reply, handled, rfl⟩ := map_eq_some_iff.mp moved
    obtain ⟨served, deleted⟩ := onHciEvent_served handled
    exact ⟨served, fun gone => .inl ⟨deleted gone, rfl⟩⟩
  | hciTimeout =>
    simp only [step] at moved
    split at moved
    · obtain rfl := some.inj moved
      exact ⟨fun alarm => absurd rfl alarm, fun _ => .inr rfl⟩
    · cases moved

/-! ## Every run -/

/-- The books, and service of the queue until the timeout. -/
structure Disciplined (world : World) : Prop where
  books : Books world
  served : world.impl.Served
  deleted : world.impl.hciTimeoutAlarm = .deleted → world.timedOut = true

namespace Disciplined

theorem initial : Disciplined initial where
  books := ⟨fun waiting => absurd rfl waiting, rfl, List.Pairwise.nil, List.Perm.nil,
    fun _ member => absurd member not_mem_nil⟩
  served := fun _ queue => absurd rfl queue
  deleted := fun gone => by cases gone

theorem step (event : Event) (next : World) (disciplined : Disciplined world)
    (moved : world.step event = some next) : Disciplined next := by
  obtain ⟨served, deleted⟩ := step_served moved
  refine ⟨disciplined.books.step event next moved, served, fun gone => ?_⟩
  rcases deleted gone with ⟨before, same⟩ | now
  · exact same ▸ disciplined.deleted before
  · exact now

end Disciplined

theorem World.invoked_sublist_closed (world : World) : world.invoked.Sublist world.closed := by
  unfold invoked closed
  induction world.outputs with
  | nil => exact List.Sublist.refl _
  | cons output rest ih =>
    cases output with
    | sent | flushed => exact ih
    | abandoned entry => exact ih.trans (sublist_cons_self _ _)
    | invoked entry event response => exact ih.cons_cons _

/--
In every run that trips no assertion: at most one command is outstanding;
commands are sent in the order of their enqueue calls, and an earlier one is
passed over only if it was flushed; callbacks run at most once and in the same
order; the event carries the command's opcode and is what the callback gets,
except that a status of an unknown command for a vendor specific command that
awaits its completion becomes an empty view (such a status for another command
is left out); and before the timeout commands and credits wait only for an
answer.
-/
theorem command_discipline {events : List Event} {world : World}
    (reached : run step initial events = some world) :
    (world.sent = world.closed ++ world.impl.outstanding ∧ world.impl.outstanding.length ≤ 1) ∧
    (world.sent.Pairwise (· < ·) ∧ ∀ callback ∈ world.sent, ∀ earlier < callback,
      earlier ∈ world.sent ∨ earlier ∈ world.flushed) ∧
    (world.invoked.Pairwise (· < ·) ∧ world.invoked.Sublist world.sent) ∧
    (∀ entry event response, Output.invoked entry event response ∈ world.outputs →
      event.commandOpCode = entry.command.opCode ∧
        ((Unforeseen entry event → vendorGroup entry.command.opCode) →
          response = expectedResponse entry event)) ∧
    (world.timedOut = false → world.impl.commandQueue ≠ [] → world.impl.commandCredits ≠ 0 →
      world.impl.outstanding ≠ []) := by
  have disciplined : Disciplined world :=
    invariant_run (fun _ event next disciplined => disciplined.step event next)
      Disciplined.initial reached
  obtain ⟨⟨current, progress, ordered, accounted, answers⟩, served, deleted⟩ := disciplined
  obtain ⟨sentOrdered, _, apart⟩ := pairwise_append.mp ordered
  have invokedSent : world.invoked.Sublist world.sent :=
    world.invoked_sublist_closed.trans (progress ▸ sublist_append_left _ _)
  refine ⟨⟨progress, ?_⟩, ⟨sentOrdered, ?_⟩, ⟨sentOrdered.sublist invokedSent, invokedSent⟩,
    fun entry event response member => answers _ member, ?_⟩
  · unfold outstanding
    split
    · exact Nat.zero_le 1
    · cases world.impl.commandQueue <;> simp
  · intro callback member earlier before
    have known : callback < world.enqueued := mem_range.mp
      (accounted.subset (mem_append_left _ (mem_append_left _ member)))
    have somewhere := accounted.symm.subset (mem_range.mpr (Nat.lt_trans before known))
    rcases mem_append.mp somewhere with active | flushed
    · rcases mem_append.mp active with sent | unsent
      · exact .inl sent
      · exact absurd (apart callback member earlier unsent) (Nat.lt_asymm before)
    · exact .inr flushed
  · intro early queue credits
    have alarm : world.impl.hciTimeoutAlarm ≠ .deleted := by
      intro gone
      rw [deleted gone] at early
      cases early
    have waiting := served alarm queue credits
    obtain ⟨entry, rest, shape, _⟩ := current waiting
    simp [outstanding, waiting, shape]

def leGetVendorCapabilities : Command := ⟨0xFD53, by decide⟩

/-- Two commands, the first unknown to the controller, a credit-only event and a timeout. -/
def unknownThenTimeout : List Event :=
  [.enqueueCommand leGetVendorCapabilities false, .enqueueCommand ⟨0x0406, by decide⟩ true,
    .hciEvent (.commandStatus 0 0xFD53 ErrorCode.unknownHciCommand),
    .hciEvent (.commandComplete 1 OpCode.none []), .hciTimeout]

theorem command_discipline_unknownThenTimeout :
    ∃ world, run step initial unknownThenTimeout = some world ∧
      world.sent = [0, 1, 2] ∧ world.invoked = [0] ∧
      (world.sent = world.closed ++ world.impl.outstanding ∧ world.impl.outstanding.length ≤ 1) :=
  ⟨_, rfl, rfl, rfl, (command_discipline (rfl : run step initial unknownThenTimeout = some _)).1⟩

/-- The callback of the unknown vendor command gets a view without any opcode. -/
theorem unknown_vendor_command_unnamed :
    ∃ world, run step initial [.enqueueCommand leGetVendorCapabilities false,
          .hciEvent (.commandStatus 1 0xFD53 ErrorCode.unknownHciCommand)] = some world ∧
      ∃ entry event response, Output.invoked entry event response ∈ world.outputs ∧
        entry.command = leGetVendorCapabilities ∧
        response.commandOpCode ≠ some entry.command.opCode :=
  ⟨_, rfl, ⟨0, leGetVendorCapabilities, false⟩,
    .commandStatus 1 0xFD53 ErrorCode.unknownHciCommand, .emptyComplete, by decide, rfl,
    by decide⟩

end BluetoothFormal.Hci.HciLayer
