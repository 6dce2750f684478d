import BluetoothFormal.Foundation.Transition
import Mathlib.Data.Finset.Basic

/-!
# The ACL connection scheduler

`AclScheduler::impl` of the GD stack serializes outgoing connections and remote
name requests and holds them back while incoming connections are pending.  The
scheduler only invokes callbacks; every invocation is returned as an output of
the call, in the order in which the code makes it.
-/

namespace BluetoothFormal.Hci.AclScheduler

open Foundation.Transition List

/-- The two alternatives of the `QueueEntry` variant. -/
inductive EntryKind where
  | aclCreateConnection
  | remoteNameRequest
  deriving DecidableEq

/-- A queued operation; its callbacks are the ones of the numbered enqueue call. -/
structure QueueEntry (Address : Type) where
  kind : EntryKind
  address : Address
  callback : Nat

/-- The fields of `AclScheduler::impl`. -/
structure Impl (Address : Type) where
  outgoingEntry : Option (QueueEntry Address)
  pendingOutgoingOperations : List (QueueEntry Address)
  incomingConnectingAddressSet : Finset Address
  stopped : Bool

open Impl

/-- What a call makes visible: callbacks it invokes and operations it retires. -/
inductive Output (Address : Type) where
  | started (entry : QueueEntry Address)
  | retired (entry : QueueEntry Address)
  | cancelOutgoing (entry : QueueEntry Address)
  | cancelledQueued (entry : QueueEntry Address)
  | handleOutgoingConnection
  | handleIncomingConnection
  | handleUnknownConnection (incoming : Finset Address)

namespace Output

def startedCallback {Address : Type} : Output Address → Option Nat
  | .started entry => some entry.callback
  | _ => none

def retiredCallback {Address : Type} : Output Address → Option Nat
  | .retired entry => some entry.callback
  | _ => none

def cancelledCallback {Address : Type} : Output Address → Option Nat
  | .cancelledQueued entry => some entry.callback
  | _ => none

end Output

/-- A call returns the new fields and its outputs in order. -/
abbrev Reply (Address : Type) := Impl Address × List (Output Address)

variable {Address : Type} [DecidableEq Address]

namespace Impl

/-- The members of a newly built `impl`. -/
def initial : Impl Address where
  outgoingEntry := none
  pendingOutgoingOperations := []
  incomingConnectingAddressSet := ∅
  stopped := false

section

variable (impl : Impl Address)

def tryDequeueNextOperation : Reply Address :=
  if impl.stopped then (impl, [])
  else
    match impl.outgoingEntry, impl.pendingOutgoingOperations with
    | none, entry :: rest =>
      if impl.incomingConnectingAddressSet = ∅ then
        ({ impl with outgoingEntry := some entry, pendingOutgoingOperations := rest },
          [.started entry])
      else (impl, [])
    | _, _ => (impl, [])

/-- Put outputs made earlier in the call before those of its last part. -/
def after (outputs : List (Output Address)) (reply : Reply Address) : Reply Address :=
  (reply.1, outputs ++ reply.2)

/-- Append an operation to the queue and try to start the first one. -/
def enqueue (entry : QueueEntry Address) : Reply Address :=
  tryDequeueNextOperation
    { impl with pendingOutgoingOperations := impl.pendingOutgoingOperations ++ [entry] }

section

variable (address : Address)

def enqueueOutgoingAclConnection (callback : Nat) : Reply Address :=
  enqueue impl ⟨.aclCreateConnection, address, callback⟩

def enqueueRemoteNameRequest (callback : Nat) : Reply Address :=
  enqueue impl ⟨.remoteNameRequest, address, callback⟩

def registerPendingIncomingConnection : Reply Address :=
  ({ impl with
      incomingConnectingAddressSet := insert address impl.incomingConnectingAddressSet }, [])

/-- Clear the current entry, report it and advance the queue. -/
def retire (entry : QueueEntry Address) (outputs : List (Output Address)) : Reply Address :=
  after (.retired entry :: outputs) (tryDequeueNextOperation { impl with outgoingEntry := none })

/-- The part of `ReportAclConnectionCompletion` for connections that are not ours. -/
def reportIncomingCompletion : Reply Address :=
  if address ∈ impl.incomingConnectingAddressSet then
    after [.handleIncomingConnection] (tryDequeueNextOperation
      { impl with
        incomingConnectingAddressSet := impl.incomingConnectingAddressSet.erase address })
  else
    after [.handleUnknownConnection impl.incomingConnectingAddressSet]
      (tryDequeueNextOperation impl)

def reportAclConnectionCompletion : Reply Address :=
  match impl.outgoingEntry with
  | some entry =>
    if entry.kind = .aclCreateConnection ∧ entry.address = address then
      retire impl entry [.handleOutgoingConnection]
    else reportIncomingCompletion impl address
  | none => reportIncomingCompletion impl address

def reportOutgoingAclConnectionFailure : Reply Address :=
  match impl.outgoingEntry with
  | none => (impl, [])
  | some entry =>
    match entry.kind with
    | .remoteNameRequest => (impl, [])
    | .aclCreateConnection => retire impl entry []

/--
`ReportRemoteNameRequestCompletion`: an outstanding connection is assumed to
have failed and is retired as well.
-/
def reportRemoteNameRequestCompletion : Reply Address :=
  match impl.outgoingEntry with
  | none => (impl, [])
  | some entry => retire impl entry []

/-- `cancel_outgoing_or_queued_connection`; a queued match is the first one. -/
def cancelOutgoingOrQueuedConnection (matcher : QueueEntry Address → Bool) : Reply Address :=
  match impl.outgoingEntry.filter matcher with
  | some entry => (impl, [.cancelOutgoing entry])
  | none =>
    match impl.pendingOutgoingOperations.find? matcher with
    | none => (impl, [])
    | some entry =>
      ({ impl with
          pendingOutgoingOperations := impl.pendingOutgoingOperations.eraseP matcher },
        [.cancelledQueued entry])

def cancelAclConnection : Reply Address :=
  cancelOutgoingOrQueuedConnection impl fun entry =>
    entry.kind = .aclCreateConnection ∧ entry.address = address

def cancelRemoteNameRequest : Reply Address :=
  cancelOutgoingOrQueuedConnection impl fun entry =>
    entry.kind = .remoteNameRequest ∧ entry.address = address

end

def stop : Reply Address := ({ impl with stopped := true }, [])

end

end Impl

/-! ## Runs -/

/-- The calls the scheduler's handler executes. -/
inductive Event (Address : Type) where
  | enqueueOutgoingAclConnection (address : Address)
  | registerPendingIncomingConnection (address : Address)
  | reportAclConnectionCompletion (address : Address)
  | reportOutgoingAclConnectionFailure
  | cancelAclConnection (address : Address)
  | enqueueRemoteNameRequest (address : Address)
  | reportRemoteNameRequestCompletion (address : Address)
  | cancelRemoteNameRequest (address : Address)
  | stop

/-- The scheduler with the number of enqueue calls and all outputs so far. -/
structure World (Address : Type) where
  impl : Impl Address
  enqueued : Nat
  outputs : List (Output Address)

namespace World

def initial : World Address := ⟨Impl.initial, 0, []⟩

section

variable (world : World Address)

/-- Take over the fields a call returns and record its outputs. -/
def apply (reply : Reply Address) : World Address :=
  { world with impl := reply.1, outputs := world.outputs ++ reply.2 }

/-- Execute one event; the callbacks of an enqueue call get the next number. -/
def step : Event Address → World Address
  | .enqueueOutgoingAclConnection address =>
    { world with enqueued := world.enqueued + 1 }.apply
      (world.impl.enqueueOutgoingAclConnection address world.enqueued)
  | .registerPendingIncomingConnection address =>
    world.apply (world.impl.registerPendingIncomingConnection address)
  | .reportAclConnectionCompletion address =>
    world.apply (world.impl.reportAclConnectionCompletion address)
  | .reportOutgoingAclConnectionFailure =>
    world.apply world.impl.reportOutgoingAclConnectionFailure
  | .cancelAclConnection address => world.apply (world.impl.cancelAclConnection address)
  | .enqueueRemoteNameRequest address =>
    { world with enqueued := world.enqueued + 1 }.apply
      (world.impl.enqueueRemoteNameRequest address world.enqueued)
  | .reportRemoteNameRequestCompletion _ =>
    world.apply world.impl.reportRemoteNameRequestCompletion
  | .cancelRemoteNameRequest address => world.apply (world.impl.cancelRemoteNameRequest address)
  | .stop => world.apply world.impl.stop

/-- The callbacks of the operations started so far, in the order of their start. -/
def started : List Nat :=
  world.outputs.filterMap Output.startedCallback

/-- The callbacks of the operations retired so far. -/
def retired : List Nat :=
  world.outputs.filterMap Output.retiredCallback

/-- The callbacks of the operations cancelled while they were queued. -/
def cancelled : List Nat :=
  world.outputs.filterMap Output.cancelledCallback

def queued : List Nat :=
  world.impl.pendingOutgoingOperations.map QueueEntry.callback

def inProgress : List Nat :=
  world.impl.outgoingEntry.toList.map QueueEntry.callback

end

end World

open World

/-! ## What one call can do -/

/-- Either nothing happens, for one of four reasons, or the first operation is started. -/
theorem Impl.tryDequeueNextOperation_cases (impl : Impl Address) :
    (impl.tryDequeueNextOperation = (impl, []) ∧ (impl.stopped = true ∨ impl.outgoingEntry ≠ none ∨
        impl.pendingOutgoingOperations = [] ∨ impl.incomingConnectingAddressSet ≠ ∅)) ∨
    (∃ entry rest, impl.outgoingEntry = none ∧ impl.pendingOutgoingOperations = entry :: rest ∧
      impl.incomingConnectingAddressSet = ∅ ∧ impl.tryDequeueNextOperation =
        ({ impl with outgoingEntry := some entry, pendingOutgoingOperations := rest },
          [.started entry])) := by
  unfold tryDequeueNextOperation
  by_cases stopped : impl.stopped = true
  · exact .inl ⟨if_pos stopped, .inl stopped⟩
  · rw [if_neg stopped]
    cases current : impl.outgoingEntry with
    | some entry => exact .inl ⟨rfl, .inr (.inl (by simp))⟩
    | none =>
      cases queue : impl.pendingOutgoingOperations with
      | nil => exact .inl ⟨rfl, .inr (.inr (.inl rfl))⟩
      | cons entry rest =>
        by_cases quiet : impl.incomingConnectingAddressSet = ∅
        · exact .inr ⟨entry, rest, rfl, rfl, quiet, by simp [quiet]⟩
        · exact .inl ⟨by simp [quiet], .inr (.inr (.inr quiet))⟩

/-- The queue waits only for an operation in progress or an incoming connection. -/
def Impl.Served (impl : Impl Address) : Prop :=
  impl.stopped = false → impl.pendingOutgoingOperations ≠ [] →
    impl.outgoingEntry ≠ none ∨ impl.incomingConnectingAddressSet ≠ ∅

theorem Impl.tryDequeueNextOperation_served (impl : Impl Address) :
    impl.tryDequeueNextOperation.1.Served := by
  intro running waiting
  rcases impl.tryDequeueNextOperation_cases with ⟨same, reason⟩ | ⟨entry, rest, _, _, _, taken⟩
  · rw [same] at running waiting ⊢
    rcases reason with stopped | busy | empty | incoming
    · rw [stopped] at running; cases running
    · exact .inl busy
    · exact absurd empty waiting
    · exact .inr incoming
  · rw [taken]
    exact .inl (by simp)

/-- The order and the account of all operations ever enqueued. -/
structure World.Books (world : World Address) : Prop where
  progress : world.started = world.retired ++ world.inProgress
  ordered : (world.started ++ world.queued).Pairwise (· < ·)
  accounted : (world.started ++ world.queued ++ world.cancelled).Perm (List.range world.enqueued)

variable {world : World Address}

variable {outputs : List (Output Address)}

namespace World.Books

theorem tryDequeue (books : world.Books) :
    (world.apply world.impl.tryDequeueNextOperation).Books := by
  rcases world.impl.tryDequeueNextOperation_cases with
    ⟨same, _⟩ | ⟨entry, rest, idle, queue, _, taken⟩
  · rw [same]
    simpa [apply] using books
  · obtain ⟨progress, ordered, accounted⟩ := books
    rw [taken]
    simp only [started, retired, cancelled, queued, inProgress, idle, queue, Option.toList_none,
      map_nil, append_nil, map_cons] at progress ordered accounted
    constructor
    · simp [started, retired, inProgress, apply, Output.startedCallback,
        Output.retiredCallback, progress]
    · simpa [started, queued, apply, Output.startedCallback] using ordered
    · simpa [started, queued, cancelled, apply, filterMap_cons,
        Output.startedCallback, Output.cancelledCallback] using accounted

section

variable (books : world.Books)
include books

omit [DecidableEq Address] in
theorem quiet {impl : Impl Address} (outgoing : impl.outgoingEntry = world.impl.outgoingEntry)
    (queue : impl.pendingOutgoingOperations = world.impl.pendingOutgoingOperations)
    (nothing : ∀ output ∈ outputs, output.startedCallback = none ∧
      output.retiredCallback = none ∧ output.cancelledCallback = none) :
    (world.apply (impl, outputs)).Books := by
  have noStart : outputs.filterMap Output.startedCallback = [] :=
    filterMap_eq_nil_iff.mpr fun output member => (nothing output member).1
  have noRetire : outputs.filterMap Output.retiredCallback = [] :=
    filterMap_eq_nil_iff.mpr fun output member => (nothing output member).2.1
  have noCancel : outputs.filterMap Output.cancelledCallback = [] :=
    filterMap_eq_nil_iff.mpr fun output member => (nothing output member).2.2
  obtain ⟨progress, ordered, accounted⟩ := books
  constructor
  · simpa [started, retired, inProgress, apply, noStart, noRetire, outgoing] using progress
  · simpa [started, queued, apply, noStart, queue] using ordered
  · simpa [started, queued, cancelled, apply, noStart, noCancel, queue] using accounted

theorem enqueue (kind : EntryKind) (address : Address) :
    ({ world with enqueued := world.enqueued + 1 }.apply
      (world.impl.enqueue ⟨kind, address, world.enqueued⟩)).Books := by
  obtain ⟨progress, ordered, accounted⟩ := books
  have below : ∀ callback ∈ world.started ++ world.queued, callback < world.enqueued := by
    intro callback member
    exact mem_range.mp (accounted.subset (mem_append_left _ member))
  let appended : World Address :=
    { world with
      impl := { world.impl with
        pendingOutgoingOperations :=
          world.impl.pendingOutgoingOperations ++ [⟨kind, address, world.enqueued⟩] }
      enqueued := world.enqueued + 1 }
  have booked : appended.Books := by
    have queued_eq : appended.queued = world.queued ++ [world.enqueued] := by
      simp [appended, queued]
    refine ⟨progress, ?_, ?_⟩
    · rw [queued_eq, ← append_assoc]
      exact pairwise_append.mpr ⟨ordered, pairwise_singleton _ _, fun callback member other
        newest => mem_singleton.mp newest ▸ below callback member⟩
    · rw [queued_eq]
      change (world.started ++ (world.queued ++ [world.enqueued]) ++ world.cancelled).Perm
        (List.range (world.enqueued + 1))
      rw [range_succ]
      refine List.Perm.trans ?_ (accounted.append_right [world.enqueued])
      simp only [append_assoc]
      exact List.Perm.append_left _ (List.Perm.append_left _ perm_append_comm)
  exact booked.tryDequeue

theorem retire {entry : QueueEntry Address} (current : world.impl.outgoingEntry = some entry)
    (nothing : ∀ output ∈ outputs, output.startedCallback = none ∧
      output.retiredCallback = none ∧ output.cancelledCallback = none) :
    (world.apply (world.impl.retire entry outputs)).Books := by
  obtain ⟨progress, ordered, accounted⟩ := books
  let cleared : World Address :=
    world.apply ({ world.impl with outgoingEntry := none }, [.retired entry])
  have booked : cleared.Books := by
    simp only [inProgress, current, Option.toList_some, map_cons, map_nil] at progress
    constructor
    · simpa [cleared, started, retired, inProgress, apply, filterMap_cons,
        Output.startedCallback, Output.retiredCallback] using progress
    · simpa [cleared, started, queued, apply, filterMap_cons, Output.startedCallback] using ordered
    · simpa [cleared, started, queued, cancelled, apply, filterMap_cons,
        Output.startedCallback, Output.cancelledCallback] using accounted
  have reported := (booked.quiet rfl rfl nothing).tryDequeue
  simpa [Impl.retire, Impl.after, apply, cleared] using reported

theorem incomingCompletion (address : Address) :
    (world.apply (world.impl.reportIncomingCompletion address)).Books := by
  have reported (impl : Impl Address) (output : Output Address)
      (outgoing : impl.outgoingEntry = world.impl.outgoingEntry)
      (queue : impl.pendingOutgoingOperations = world.impl.pendingOutgoingOperations)
      (nothing : output.startedCallback = none ∧ output.retiredCallback = none ∧
        output.cancelledCallback = none) :
      (world.apply (after [output] impl.tryDequeueNextOperation)).Books := by
    have kept : (world.apply (impl, [output])).Books := books.quiet outgoing queue
      fun other member => mem_singleton.mp member ▸ nothing
    simpa [Impl.after, apply] using kept.tryDequeue
  unfold reportIncomingCompletion
  split <;> exact reported _ _ rfl rfl ⟨rfl, rfl, rfl⟩

theorem completion (address : Address) :
    (world.apply (world.impl.reportAclConnectionCompletion address)).Books := by
  unfold reportAclConnectionCompletion
  cases current : world.impl.outgoingEntry with
  | none => exact books.incomingCompletion address
  | some entry =>
    dsimp only
    split
    · refine books.retire current fun output member => ?_
      rw [mem_singleton.mp member]
      exact ⟨rfl, rfl, rfl⟩
    · exact books.incomingCompletion address

end

omit [DecidableEq Address] in
theorem cancel (books : world.Books) (matcher : QueueEntry Address → Bool) :
    (world.apply (world.impl.cancelOutgoingOrQueuedConnection matcher)).Books := by
  unfold cancelOutgoingOrQueuedConnection
  cases world.impl.outgoingEntry.filter matcher with
  | some entry =>
    refine books.quiet rfl rfl fun output member => ?_
    rw [mem_singleton.mp member]
    exact ⟨rfl, rfl, rfl⟩
  | none =>
    cases found : world.impl.pendingOutgoingOperations.find? matcher with
    | none => exact books.quiet rfl rfl fun output member => absurd member not_mem_nil
    | some entry =>
      obtain ⟨progress, ordered, accounted⟩ := books
      obtain ⟨matched, before, behind, queue, unmatched⟩ :=
        List.find?_eq_some_iff_append.mp found
      have erased : world.impl.pendingOutgoingOperations.eraseP matcher = before ++ behind := by
        rw [queue, eraseP_append_right _ (by simpa using unmatched), eraseP_cons_of_pos matched]
      simp only [started, queued, cancelled, queue, map_append, map_cons] at ordered accounted
      constructor
      · simpa [started, retired, inProgress, apply, filterMap_cons,
          Output.startedCallback, Output.retiredCallback] using progress
      · refine ordered.sublist ?_
        simp [started, queued, apply, filterMap_cons, Output.startedCallback, erased]
      · refine List.Perm.trans ?_ accounted
        simp only [started, queued, cancelled, apply, filterMap_append,
          filterMap_cons, filterMap_nil, Output.startedCallback,
          Output.cancelledCallback, erased, map_append, append_nil,
          append_assoc]
        refine List.Perm.append_left _ (List.Perm.append_left _ ?_)
        rw [← append_assoc]
        exact perm_append_singleton _ _

theorem step (books : world.Books) (event : Event Address) :
    (world.step event).Books := by
  cases event with
  | enqueueOutgoingAclConnection address => exact books.enqueue .aclCreateConnection address
  | enqueueRemoteNameRequest address => exact books.enqueue .remoteNameRequest address
  | registerPendingIncomingConnection address =>
    exact books.quiet rfl rfl fun output member => absurd member not_mem_nil
  | reportAclConnectionCompletion address => exact books.completion address
  | reportOutgoingAclConnectionFailure =>
    simp only [World.step, reportOutgoingAclConnectionFailure]
    cases current : world.impl.outgoingEntry with
    | none => exact books.quiet rfl rfl fun output member => absurd member not_mem_nil
    | some entry =>
      cases kind : entry.kind with
      | remoteNameRequest =>
        simp only [kind]
        exact books.quiet rfl rfl fun output member => absurd member not_mem_nil
      | aclCreateConnection =>
        simp only [kind]
        exact books.retire current fun output member => absurd member not_mem_nil
  | reportRemoteNameRequestCompletion address =>
    simp only [World.step, reportRemoteNameRequestCompletion]
    cases current : world.impl.outgoingEntry with
    | none => exact books.quiet rfl rfl fun output member => absurd member not_mem_nil
    | some entry => exact books.retire current fun output member => absurd member not_mem_nil
  | cancelAclConnection | cancelRemoteNameRequest => exact books.cancel _
  | stop => exact books.quiet rfl rfl fun output member => absurd member not_mem_nil

end World.Books

/-! ## Serving the queue -/

/--
A call keeps the queue served, and it starts operations only in a state without
incoming connections.
-/
structure Serves (before : Impl Address) (reply : Reply Address) : Prop where
  served : before.Served → reply.1.Served
  quietly : reply.2.filterMap Output.startedCallback = [] ∨ reply.1.incomingConnectingAddressSet = ∅

namespace Serves

theorem after (before impl : Impl Address) (outputs : List (Output Address))
    (nothing : outputs.filterMap Output.startedCallback = []) :
    Serves before (after outputs impl.tryDequeueNextOperation) where
  served := fun _ => impl.tryDequeueNextOperation_served
  quietly := by
    rcases impl.tryDequeueNextOperation_cases with ⟨same, _⟩ | ⟨entry, rest, _, _, quiet, taken⟩
    · exact .inl (by simp [Impl.after, same, nothing])
    · exact .inr (by simp [Impl.after, taken, quiet])

section

variable (impl : Impl Address)

omit [DecidableEq Address] in
theorem unchanged (nothing : outputs.filterMap Output.startedCallback = []) :
    Serves impl (impl, outputs) :=
  ⟨id, .inl nothing⟩

theorem enqueue (entry : QueueEntry Address) :
    Serves impl (impl.enqueue entry) :=
  after impl { impl with
    pendingOutgoingOperations := impl.pendingOutgoingOperations ++ [entry] } [] rfl

theorem completion (address : Address) :
    Serves impl (impl.reportAclConnectionCompletion address) := by
  have incoming : Serves impl (impl.reportIncomingCompletion address) := by
    unfold reportIncomingCompletion
    split <;> exact after impl _ _ rfl
  unfold reportAclConnectionCompletion
  cases impl.outgoingEntry with
  | none => exact incoming
  | some entry =>
    dsimp only
    split
    · exact after impl _ _ rfl
    · exact incoming

theorem failure : Serves impl impl.reportOutgoingAclConnectionFailure := by
  unfold reportOutgoingAclConnectionFailure
  cases impl.outgoingEntry with
  | none => exact unchanged impl rfl
  | some entry =>
    cases kind : entry.kind with
    | remoteNameRequest =>
      simp only [kind]
      exact unchanged impl rfl
    | aclCreateConnection =>
      simp only [kind]
      exact after impl _ _ rfl

theorem nameCompletion :
    Serves impl impl.reportRemoteNameRequestCompletion := by
  unfold reportRemoteNameRequestCompletion
  cases impl.outgoingEntry with
  | none => exact unchanged impl rfl
  | some entry => exact after impl _ _ rfl

end

omit [DecidableEq Address] in
theorem cancel (impl : Impl Address) (matcher : QueueEntry Address → Bool) :
    Serves impl (impl.cancelOutgoingOrQueuedConnection matcher) := by
  unfold cancelOutgoingOrQueuedConnection
  cases impl.outgoingEntry.filter matcher with
  | some entry => exact unchanged impl rfl
  | none =>
    cases impl.pendingOutgoingOperations.find? matcher with
    | none => exact unchanged impl rfl
    | some entry =>
      refine ⟨fun served running waiting => served running fun empty => waiting ?_, .inl rfl⟩
      simp [empty]

end Serves

theorem World.step_eq_apply (world : World Address) (event : Event Address) :
    ∃ enqueued reply, world.step event = { world with enqueued := enqueued }.apply reply ∧
      Serves world.impl reply := by
  cases event with
  | enqueueOutgoingAclConnection | enqueueRemoteNameRequest => exact ⟨_, _, rfl, Serves.enqueue _ _⟩
  | registerPendingIncomingConnection address =>
    exact ⟨_, _, rfl, fun _ _ _ => .inr (Finset.insert_ne_empty _ _), .inl rfl⟩
  | reportAclConnectionCompletion address => exact ⟨_, _, rfl, Serves.completion _ _⟩
  | reportOutgoingAclConnectionFailure => exact ⟨_, _, rfl, Serves.failure _⟩
  | reportRemoteNameRequestCompletion address => exact ⟨_, _, rfl, Serves.nameCompletion _⟩
  | cancelAclConnection | cancelRemoteNameRequest => exact ⟨_, _, rfl, Serves.cancel _ _⟩
  | stop =>
    refine ⟨_, _, rfl, fun _ running => ?_, .inl rfl⟩
    cases running

section

variable (events : List (Event Address))

/-- The state of the scheduler after any calls in any order. -/
def World.after : World Address :=
  events.foldl step initial

theorem World.after_books : (after events).Books :=
  invariant_foldl (fun _ event books => books.step event)
    ⟨rfl, List.Pairwise.nil, List.Perm.nil⟩ events

theorem World.after_served : (after events).impl.Served := by
  have start : (initial : World Address).impl.Served := fun _ waiting => absurd rfl waiting
  have kept (world : World Address) (event : Event Address) (served : world.impl.Served) :
      (world.step event).impl.Served := by
    obtain ⟨enqueued, reply, eq, serves⟩ := world.step_eq_apply event
    rw [eq]
    exact serves.served served
  exact invariant_foldl kept start events

end

/--
After any calls in any order: at most one operation is in progress; operations
start at most once, in the order of their enqueue calls and only after every
earlier one has been started or cancelled; none is lost, and none is both
started and cancelled; no call starts one while an incoming connection is
pending; and a scheduler that is not stopped leaves its queue waiting only for
an operation in progress or an incoming connection.
-/
theorem schedule_safe (events : List (Event Address)) :
    let world := after events
    (world.started = world.retired ++ world.inProgress ∧ world.inProgress.length ≤ 1) ∧
    (world.started.Pairwise (· < ·) ∧ world.started.Nodup ∧
      ∀ callback ∈ world.started, ∀ earlier < callback,
        earlier ∈ world.started ∨ earlier ∈ world.cancelled) ∧
    ((world.started ++ world.queued ++ world.cancelled).Perm (List.range world.enqueued) ∧
      ∀ callback ∈ world.started, callback ∉ world.cancelled) ∧
    (∀ event, (world.step event).started ≠ world.started →
      (world.step event).impl.incomingConnectingAddressSet = ∅) ∧
    (world.impl.stopped = false → world.queued ≠ [] →
      world.inProgress ≠ [] ∨ world.impl.incomingConnectingAddressSet ≠ ∅) := by
  intro world
  obtain ⟨progress, ordered, accounted⟩ := after_books events
  have unique := accounted.symm.nodup nodup_range
  obtain ⟨startedOrdered, _, apart⟩ := pairwise_append.mp ordered
  refine ⟨⟨progress, ?_⟩, ⟨startedOrdered, ?_, ?_⟩, ⟨accounted, ?_⟩, ?_, ?_⟩
  · simp only [inProgress, length_map]
    cases world.impl.outgoingEntry <;> simp
  · exact (nodup_append.mp (nodup_append.mp unique).1).1
  · intro callback member earlier before
    have inRange : callback < world.enqueued := mem_range.mp
      (accounted.subset (mem_append_left _ (mem_append_left _ member)))
    have known := accounted.symm.subset (mem_range.mpr (Nat.lt_trans before inRange))
    rcases mem_append.mp known with active | cancelled
    · rcases mem_append.mp active with started | queued
      · exact .inl started
      · exact absurd (apart callback member earlier queued) (Nat.lt_asymm before)
    · exact .inr cancelled
  · intro callback member cancelled
    exact (nodup_append.mp unique).2.2 callback (mem_append_left _ member) callback cancelled rfl
  · intro event changed
    obtain ⟨enqueued, reply, eq, serves⟩ := world.step_eq_apply event
    rcases serves.quietly with nothing | quiet
    · refine absurd ?_ changed
      simp [eq, started, apply, nothing]
    · rw [eq]
      exact quiet
  · intro running waiting
    have served := after_served events running (by simpa [queued] using waiting)
    rcases served with busy | incoming
    · refine .inl ?_
      simpa [inProgress, Option.toList_eq_nil_iff] using busy
    · exact .inr incoming

end BluetoothFormal.Hci.AclScheduler
