import BluetoothFormal.Hci.LeAddressManager

/-!
# Cached commands of the LE address manager are drained

The cache is drained only by the handlers for acknowledgements and completions
and by posted tasks.  Once the policy is set, a manager with a cached command
therefore has to be busy: a client was told to pause and has not answered, a
command is issued, or a task is posted.  Every handler keeps this under a
condition on the state that it finds; where the condition fails, for instance
when the resolving list is cleared while no client is registered, commands are
stranded.
-/

namespace BluetoothFormal.Hci.LeAddressManager

open Foundation.Transition Option List
open Std (TreeMap)

namespace Manager

variable {self next : Manager} {client : Client}

section

variable (self)

/-- A client was told to pause and has not acknowledged. -/
def SomeWaiting : Prop :=
  ∃ entry ∈ self.registeredClients.toList, entry.2 = .waitingForPause
  deriving Decidable

/-- A command awaits its completion or a task is posted. -/
def InFlight : Prop := self.issued ≠ [] ∨ self.posted ≠ []
  deriving Decidable

/-- Something is bound to happen that can drain the cache. -/
def Busy : Prop := self.SomeWaiting ∨ self.InFlight
  deriving Decidable

/-- Cached commands are not stranded. -/
def Live : Prop := self.cachedCommands ≠ [] → self.Busy

/-- A client other than the given one was told to pause and has not acknowledged. -/
def OtherWaiting (client : Client) : Prop :=
  ∃ entry ∈ self.registeredClients.toList, entry.1 ≠ client ∧ entry.2 = .waitingForPause
  deriving Decidable

/-- Every client but the given one is paused. -/
def OthersPaused (client : Client) : Prop :=
  ∀ entry ∈ self.registeredClients.toList, entry.1 ≠ client → entry.2 = .paused
  deriving Decidable

end

/-! ## The condition on a step -/

section

variable (self)

/-- The acknowledgement of a client finds the other clients waiting or all of them paused. -/
def AckDrains (client : Client) : Prop :=
  self.cachedCommands = [] ∨ client ∉ self.registeredClients ∨ self.InFlight ∨
    self.OtherWaiting client ∨ self.OthersPaused client
  deriving Decidable

/-- The condition on a task, in the state from which the task was taken. -/
def TaskDrains : Task → Prop
  | .handleNextCommand | .resumeRegisteredClients =>
    self.cachedCommands = [] ∨ self.someUnpaused = false ∨ self.Busy
  | .pauseRegisteredClients =>
    self.cachedCommands = [] ∨ self.someUnpaused = true ∨ self.InFlight
  | .prepareToUpdateIrk =>
    self.registeredClients.isEmpty = true ∨ self.someUnpaused = true ∨ self.InFlight
  | .checkCachedCommands | .enqueueCommand _ => True

/-- The condition on an event once the policy is set. -/
def EventDrains : Event → Prop
  | .pushCommand _ | .prepareToRotate => self.someUnpaused = true ∨ self.InFlight
  | .ackPause client => self.AckDrains client
  | .unregisterClient client =>
    self.registeredClients[client]? = some .waitingForPause → self.AckDrains client
  | .ackResume client =>
    self.cachedCommands = [] ∨ self.registeredClients[client]? ≠ some .waitingForPause ∨
      self.InFlight ∨ self.OtherWaiting client
  | .onCommandComplete valid =>
    self.cachedCommands = [] ∨ (valid = true ∧ ¬ (self.issued.head? = some .leSetRandomAddress ∧
        self.addressPolicy = some .useStaticAddress)) ∨
      Busy { self with issued := self.issued.tail }
  | .runTask =>
    ∀ task ∈ self.posted.head?, TaskDrains { self with posted := self.posted.tail } task
  | .setPrivacyPolicyForInitiatorAddress _ _ | .registerClient _ | .addDeviceToResolvingList _
  | .removeDeviceFromResolvingList _ | .clearResolvingList => True

/-- The condition on a step: none before the policy is set. -/
def Drains (event : Event) : Prop :=
  self.addressPolicy.isSome = true → self.EventDrains event

end

instance (self : Manager) (task : Task) : Decidable (self.TaskDrains task) := by
  unfold TaskDrains
  split <;> infer_instance

instance (self : Manager) (event : Event) : Decidable (self.EventDrains event) := by
  unfold EventDrains
  split <;> infer_instance

instance (self : Manager) (event : Event) : Decidable (self.Drains event) :=
  inferInstanceAs (Decidable (_ → _))

/-! ## Who is waiting -/

theorem someWaiting_iff (self : Manager) :
    self.SomeWaiting ↔
      ∃ client : Client, self.registeredClients[client]? = some .waitingForPause := by
  simp [SomeWaiting, TreeMap.mem_toList_iff_getElem?_eq_some]

theorem otherWaiting_iff (self : Manager) (client : Client) :
    self.OtherWaiting client ↔ ∃ other : Client, other ≠ client ∧
      self.registeredClients[other]? = some .waitingForPause := by
  simp only [OtherWaiting, Prod.exists, TreeMap.mem_toList_iff_getElem?_eq_some]
  constructor
  · rintro ⟨other, state, found, distinct, rfl⟩
    exact ⟨other, distinct, found⟩
  · rintro ⟨other, distinct, found⟩
    exact ⟨other, _, found, distinct, rfl⟩

theorem SomeWaiting.other (waiting : self.SomeWaiting)
    (idle : self.registeredClients[client]? ≠ some .waitingForPause) :
    self.OtherWaiting client := by
  obtain ⟨other, found⟩ := (someWaiting_iff self).mp waiting
  exact (otherWaiting_iff self client).mpr ⟨other, fun same => idle (same ▸ found), found⟩

theorem OtherWaiting.someWaiting (waiting : self.OtherWaiting client)
    (kept : ∀ other : Client, other ≠ client →
      next.registeredClients[other]? = self.registeredClients[other]?) :
    next.SomeWaiting := by
  obtain ⟨other, distinct, found⟩ := (otherWaiting_iff self client).mp waiting
  exact (someWaiting_iff next).mpr ⟨other, (kept other distinct).trans found⟩

theorem OthersPaused.paused {other : Client} {state : ClientState}
    (paused : self.OthersPaused client) (distinct : other ≠ client)
    (found : self.registeredClients[other]? = some state) : state = .paused :=
  paused (other, state) (TreeMap.mem_toList_iff_getElem?_eq_some.mpr found) distinct

theorem pauseRegisteredClients_someWaiting (unpaused : self.someUnpaused = true) :
    self.pauseRegisteredClients.SomeWaiting := by
  obtain ⟨client, state, found, not_paused⟩ := (someUnpaused_iff self).mp unpaused
  refine (someWaiting_iff _).mpr ⟨client, ?_⟩
  simp only [pauseRegisteredClients, TreeMap.getElem?_map, found, map_some]
  cases state with
  | paused => exact absurd rfl not_paused
  | waitingForPause | waitingForResume | resumed => rfl

theorem post_inFlight (self : Manager) (task : Task) : (self.post task).InFlight :=
  .inr (append_ne_nil_of_right_ne_nil _ (cons_ne_nil _ _))

theorem issue_inFlight (self : Manager) (command : HciCommand) :
    (self.issue command).InFlight :=
  .inl (append_ne_nil_of_right_ne_nil _ (cons_ne_nil _ _))

/-! ## Handlers keep the manager live -/

theorem pauseRegisteredClients_busy (drains : self.someUnpaused = true ∨ self.InFlight) :
    self.pauseRegisteredClients.Busy :=
  drains.imp pauseRegisteredClients_someWaiting id

theorem handleNextCommand_inFlight (all_paused : self.someUnpaused = false)
    (handled : self.handleNextCommand = some next) : next.InFlight := by
  rcases handleNextCommand_cases handled with ⟨unpaused, _⟩ | ⟨_, _, _, scheduled, command, _, rfl⟩
  · rw [all_paused] at unpaused
    cases unpaused
  · exact issue_inFlight _ command

theorem handleNextCommand_live
    (drains : self.cachedCommands = [] ∨ self.someUnpaused = false ∨ self.Busy)
    (handled : self.handleNextCommand = some next) : next.Live := by
  intro some_cached
  cases unpaused : self.someUnpaused with
  | false => exact .inr (handleNextCommand_inFlight unpaused handled)
  | true =>
    rcases handleNextCommand_cases handled with ⟨_, rfl⟩ | ⟨all_paused, _⟩
    · rcases drains with none_cached | all_paused | busy
      · exact absurd none_cached some_cached
      · rw [all_paused] at unpaused
        cases unpaused
      · exact busy
    · rw [all_paused] at unpaused
      cases unpaused

theorem resumeRegisteredClients_live
    (drains : self.cachedCommands = [] ∨ self.someUnpaused = false ∨ self.Busy)
    (resumed : self.resumeRegisteredClients = some next) : next.Live := by
  rcases resumeRegisteredClients_cases resumed with ⟨_, handled⟩ | ⟨none_cached, rfl⟩
  · exact handleNextCommand_live drains handled
  · exact fun some_cached => absurd none_cached some_cached

theorem checkCachedCommands_live (checked : self.checkCachedCommands = some next) :
    next.Live := by
  rcases checkCachedCommands_cases checked with
    ⟨unpaused, rfl⟩ | ⟨none_cached, rfl⟩ | ⟨all_paused, handled⟩
  · exact fun _ => pauseRegisteredClients_busy (.inl unpaused)
  · exact fun some_cached => absurd none_cached some_cached
  · exact fun _ => .inr (handleNextCommand_inFlight all_paused handled)

theorem prepareToUpdateIrk_live (drains : self.TaskDrains .prepareToUpdateIrk)
    (prepared : self.prepareToUpdateIrk = some next) : next.Live := by
  intro _
  unfold prepareToUpdateIrk at prepared
  dsimp only at prepared
  split at prepared
  · rename_i deserted
    refine .inr (handleNextCommand_inFlight ?_ prepared)
    rw [someUnpaused_eq_false_iff]
    intro client state found
    rw [TreeMap.getElem?_of_isEmpty deserted] at found
    cases found
  · rename_i inhabited
    cases prepared
    rcases drains with deserted | drains
    · exact absurd deserted inhabited
    · exact pauseRegisteredClients_busy drains

theorem perform_live {task : Task} (drains : self.TaskDrains task)
    (performed : self.perform task = some next) : next.Live := by
  cases task with
  | handleNextCommand => exact handleNextCommand_live drains performed
  | pauseRegisteredClients =>
    cases performed
    intro some_cached
    rcases drains with none_cached | drains
    · exact absurd none_cached some_cached
    · exact pauseRegisteredClients_busy drains
  | resumeRegisteredClients => exact resumeRegisteredClients_live drains performed
  | checkCachedCommands => exact checkCachedCommands_live performed
  | prepareToUpdateIrk => exact prepareToUpdateIrk_live drains performed
  | enqueueCommand command =>
    cases performed
    exact fun _ => .inr (issue_inFlight self command)

theorem OthersPaused.not_tells {other : Client} (paused : self.OthersPaused client) :
    ackPauseLoop (self.markPaused client).registeredClients.toList ≠ .tells other := by
  intro tells
  obtain ⟨before, state, after, shape, told, _⟩ := ackPauseLoop_tells tells
  have found : (self.markPaused client).registeredClients[other]? = some state := by
    rw [← TreeMap.mem_toList_iff_getElem?_eq_some, shape]
    exact mem_append_right _ mem_cons_self
  have state_paused : state = .paused := by
    by_cases same : other = client
    · subst same
      exact (some.inj ((TreeMap.getElem?_insert_self).symm.trans found)).symm
    · exact paused.paused same ((markPaused_getElem?_of_ne self same).symm.trans found)
  rw [state_paused] at told
  cases told

theorem otherWaiting_of_waits
    (waits : ackPauseLoop (self.markPaused client).registeredClients.toList = .waits) :
    (self.markPaused client).OtherWaiting client := by
  refine SomeWaiting.other (ackPauseLoop_waits waits) ?_
  rw [show (self.markPaused client).registeredClients[client]? = some .paused from
    TreeMap.getElem?_insert_self]
  decide

theorem ackPause_drains (policy_set : self.addressPolicy.isSome = true)
    (registered : client ∈ self.registeredClients) (drains : self.AckDrains client)
    (acknowledged : self.ackPause client = some next) (some_cached : next.cachedCommands ≠ []) :
    next.OtherWaiting client ∨ next.InFlight := by
  rcases ackPause_cases acknowledged with
    ⟨unregistered, _⟩ | ⟨_, ⟨waits, rfl⟩ | ⟨other, tells, rfl⟩ | ⟨all_paused, checked⟩⟩
  · exact absurd registered unregistered
  · exact .inl (otherWaiting_of_waits waits)
  · rcases drains with none_cached | unregistered | flying | waiting | paused
    · exact absurd none_cached some_cached
    · exact absurd registered unregistered
    · exact .inr flying
    · obtain ⟨waiter, distinct, found⟩ := (otherWaiting_iff self client).mp waiting
      exact .inl ((otherWaiting_iff _ client).mpr
        ⟨waiter, distinct, (markPaused_getElem?_of_ne self distinct).trans found⟩)
    · exact absurd tells paused.not_tells
  · rw [if_pos policy_set] at checked
    rcases checkCachedCommands_cases checked with
      ⟨unpaused, _⟩ | ⟨none_cached, rfl⟩ | ⟨_, handled⟩
    · rw [all_paused] at unpaused
      cases unpaused
    · exact absurd none_cached some_cached
    · exact .inr (handleNextCommand_inFlight all_paused handled)

section

variable (live : self.Live)
include live

/-- A handler that touches neither the cache nor what is in flight, and keeps who waits. -/
theorem Live.of_waiting (waiting : self.SomeWaiting → next.SomeWaiting)
    (cached : next.cachedCommands = self.cachedCommands) (issued : next.issued = self.issued)
    (posted : next.posted = self.posted) :
    next.Live := by
  intro some_cached
  rcases live (cached ▸ some_cached) with some_waiting | flying
  · exact .inl (waiting some_waiting)
  · exact .inr (by simpa only [InFlight, issued, posted] using flying)

theorem ackPause_live (policy_set : self.addressPolicy.isSome = true)
    (drains : self.AckDrains client) (acknowledged : self.ackPause client = some next) :
    next.Live := by
  by_cases registered : client ∈ self.registeredClients
  · intro some_cached
    exact (ackPause_drains policy_set registered drains acknowledged some_cached).imp
      (fun waiting => waiting.someWaiting fun _ _ => rfl) id
  · rw [ackPause, if_neg registered] at acknowledged
    cases acknowledged
    exact live

theorem ackResume_live (drains : self.EventDrains (.ackResume client)) :
    (self.ackResume client).Live := by
  intro some_cached
  rcases drains with none_cached | idle | flying | waiting
  · exact absurd none_cached some_cached
  · exact (live some_cached).imp (fun waiting => (waiting.other idle).someWaiting
      fun _ distinct => ackResume_getElem?_of_ne self distinct) id
  · exact .inr flying
  · exact .inl (waiting.someWaiting fun _ distinct => ackResume_getElem?_of_ne self distinct)

theorem forget_live (idle : self.registeredClients[client]? ≠ some .waitingForPause)
    (kept : ∀ other : Client, other ≠ client →
      next.registeredClients[other]? = self.registeredClients[other]?)
    (cached : next.cachedCommands = self.cachedCommands) (issued : next.issued = self.issued)
    (posted : next.posted = self.posted) :
    (next.forget client).cancelIfDeserted.Live := by
  refine live.of_waiting (fun waiting => (waiting.other idle).someWaiting ?_) cached issued posted
  exact fun other distinct => (forget_getElem?_of_ne next distinct).trans (kept other distinct)

theorem unregisterClient_live (policy_set : self.addressPolicy.isSome = true)
    (drains : self.EventDrains (.unregisterClient client))
    (left : self.unregisterClient client = some next) : next.Live := by
  unfold unregisterClient at left
  split at left
  · rename_i registered
    obtain ⟨acknowledged, acknowledges, rfl⟩ := map_eq_some_iff.mp left
    unfold acknowledgeFor at acknowledges
    split at acknowledges
    · rename_i found
      intro some_cached
      exact (ackPause_drains policy_set registered (drains found) acknowledges some_cached).imp
        (fun waiting => waiting.someWaiting
          fun _ distinct => forget_getElem?_of_ne acknowledged distinct) id
    · rename_i found
      cases acknowledges
      refine forget_live live (by rw [found]; decide) ?_ rfl rfl rfl
      exact fun _ distinct => ackResume_getElem?_of_ne self distinct
    · rename_i not_waiting _
      cases acknowledges
      exact forget_live live not_waiting (fun _ _ => rfl) rfl rfl rfl
  · cases left
    exact live.of_waiting id rfl rfl rfl

theorem registerClient_live (policy_set : self.addressPolicy.isSome = true) :
    (self.registerClient client).Live := by
  have waiting : self.SomeWaiting → SomeWaiting { self with
        registeredClients := self.registeredClients.insertIfNew client .resumed } := by
    simp only [someWaiting_iff]
    rintro ⟨other, found⟩
    exact ⟨other, getElem?_insertIfNew_of_some found⟩
  unfold registerClient
  rw [if_neg (by simpa using Option.isSome_iff_ne_none.mp policy_set)]
  split <;> exact live.of_waiting waiting rfl rfl rfl

end

theorem onCommandComplete_live {valid : Bool} (drains : self.EventDrains (.onCommandComplete valid))
    (completed : self.onCommandComplete valid = some next) : next.Live := by
  intro some_cached
  unfold onCommandComplete at completed
  split at completed
  · cases completed
  · rename_i command rest shape
    simp only [EventDrains, shape, head?_cons, tail_cons, some.injEq] at drains
    split at completed
    · rename_i invalid
      cases completed
      rcases drains with none_cached | ⟨is_valid, _⟩ | busy
      · exact absurd none_cached some_cached
      · rw [invalid] at is_valid
        cases is_valid
      · exact busy
    · split at completed
      · rename_i own_address
        cases completed
        rcases drains with none_cached | ⟨_, other_command⟩ | busy
        · exact absurd none_cached some_cached
        · exact absurd own_address other_command
        · exact busy
      · cases completed
        exact .inr (post_inFlight _ _)

theorem postForResolvingList_inFlight (self : Manager) :
    self.postForResolvingList.InFlight := by
  unfold postForResolvingList
  split <;> exact post_inFlight _ _

theorem setPrivacyPolicyForInitiatorAddress_live {policy : AddressPolicy}
    {supportsBlePrivacy : Bool} (live : self.addressPolicy.isSome = true → self.Live)
    (configured : self.setPrivacyPolicyForInitiatorAddress policy supportsBlePrivacy = some next) :
    next.Live := by
  unfold setPrivacyPolicyForInitiatorAddress at configured
  split at configured
  · rename_i current
    cases configured
    split
    · exact fun _ => .inr (post_inFlight _ _)
    · exact live (by rw [current]; rfl)
  · split at configured
    · intro _
      cases policy with
      | usePublicAddress | useStaticAddress =>
        cases configured
        exact .inr (post_inFlight _ _)
      | useNonResolvableAddress | useResolvableAddress =>
        cases configured
        exact .inr (issue_inFlight _ _)
    · cases configured

/-! ## Runs -/

/-- Cached commands are not stranded once the policy is set. -/
def Drained (self : Manager) : Prop := self.addressPolicy.isSome = true → self.Live

theorem Drained.keep {event : Event} (drained : self.Drained) (drains : self.Drains event)
    (policy : next.addressPolicy = self.addressPolicy)
    (keeps : self.Live → self.addressPolicy.isSome = true → self.EventDrains event →
      next.Live) : next.Drained := by
  intro policy_set
  rw [policy] at policy_set
  exact keeps (drained policy_set) policy_set (drains policy_set)

theorem Drained.step (event : Event) (next : Manager) (drained : self.Drained)
    (drains : self.Drains event) (moved : step self event = some next) : next.Drained := by
  cases event with
  | setPrivacyPolicyForInitiatorAddress policy supportsBlePrivacy =>
    exact fun _ => setPrivacyPolicyForInitiatorAddress_live drained moved
  | registerClient client =>
    cases moved
    exact drained.keep drains (registerClient_taken self client).addressPolicy
      fun live policy_set _ => registerClient_live live policy_set
  | unregisterClient client =>
    exact drained.keep drains (unregisterClient_taken moved).addressPolicy
      fun live policy_set condition => unregisterClient_live live policy_set condition moved
  | ackPause client =>
    exact drained.keep drains (ackPause_taken moved).addressPolicy
      fun live policy_set condition => ackPause_live live policy_set condition moved
  | ackResume client =>
    cases moved
    exact drained.keep drains rfl fun live _ condition => ackResume_live live condition
  | pushCommand command =>
    cases moved
    exact drained.keep drains rfl fun _ _ condition _ => pauseRegisteredClients_busy condition
  | prepareToRotate =>
    obtain ⟨_, rfl⟩ := guarded_eq_some.mp moved
    exact drained.keep drains rfl fun _ _ condition _ => pauseRegisteredClients_busy condition
  | addDeviceToResolvingList peer | removeDeviceFromResolvingList peer =>
    cases moved
    dsimp only [addDeviceToResolvingList, removeDeviceFromResolvingList]
    split
    · exact fun _ _ => .inr (postForResolvingList_inFlight _)
    · exact drained
  | clearResolvingList =>
    cases moved
    unfold clearResolvingList
    split
    · exact fun _ _ => .inr (post_inFlight _ _)
    · exact drained
  | onCommandComplete valid =>
    exact drained.keep drains (onCommandComplete_taken moved).addressPolicy
      fun _ _ condition => onCommandComplete_live condition moved
  | runTask =>
    unfold LeAddressManager.step at moved
    dsimp only at moved
    split at moved
    · cases moved
    · rename_i task rest shape
      refine drained.keep drains ((perform_taken moved).addressPolicy.trans rfl)
        fun _ _ condition => perform_live ?_ moved
      have taken := condition task (by rw [shape]; rfl)
      rwa [shape] at taken

end Manager

/-- Once the policy is set, a cached command has something that will drain it. -/
theorem cached_commands_drained {events : List Event} {self : Manager}
    (guarded : Along step Manager.Drains Manager.initial events)
    (reached : run step Manager.initial events = some self)
    (policy_set : self.addressPolicy.isSome = true) (some_cached : self.cachedCommands ≠ []) :
    (∃ client : Client, self.registeredClients[client]? = some .waitingForPause) ∨
      self.issued ≠ [] ∨ self.posted ≠ [] := by
  have drained : self.Drained :=
    invariant_along (fun _ event next drained => drained.step event next)
      (fun policy_set => by cases policy_set) guarded reached
  rw [← Manager.someWaiting_iff]
  exact drained policy_set some_cached

def filterListChanges : List Event :=
  [.setPrivacyPolicyForInitiatorAddress .useResolvableAddress true, .onCommandComplete true,
    .runTask, .registerClient 1, .pushCommand (.leAddDeviceToFilterAcceptList 7),
    .ackPause 1, .pushCommand (.leRemoveDeviceFromFilterAcceptList 7), .prepareToRotate,
    .onCommandComplete true, .clearResolvingList]

theorem cached_commands_drained_filterListChanges :
    ∃ self, run step Manager.initial filterListChanges = some self ∧
      self.cachedCommands.length = 5 ∧
      ((∃ client : Client, self.registeredClients[client]? = some .waitingForPause) ∨
        self.issued ≠ [] ∨ self.posted ≠ []) :=
  ⟨_, rfl, rfl, cached_commands_drained
    (show Along step Manager.Drains Manager.initial filterListChanges by decide) rfl rfl
    (by decide)⟩

/-- Clearing the resolving list while no client is registered strands three commands. -/
theorem clearResolvingList_stranded :
    ∃ self, run step Manager.initial
        [.setPrivacyPolicyForInitiatorAddress .useResolvableAddress true, .onCommandComplete true,
          .runTask, .clearResolvingList, .runTask] = some self ∧
      self.addressPolicy = some .useResolvableAddress ∧ self.cachedCommands.length = 3 ∧
      self.registeredClients.isEmpty = true ∧ self.issued = [] ∧ self.posted = [] :=
  ⟨_, rfl, rfl, rfl, rfl, rfl, rfl⟩

end BluetoothFormal.Hci.LeAddressManager
