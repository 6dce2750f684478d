import BluetoothFormal.Foundation.Transition
import Mathlib.Data.List.Sort

/-!
# The LE address manager

`LeAddressManager` changes the random address and the lists of the controller
only while all of its clients are paused.  Commands wait in a cache; the
handlers for acknowledgements and command completions drain it.  All handlers
run on one thread: public calls, the rotation alarm and the tasks that the
manager posts to its own handler are the events of a run.

The state also records what leaves the manager: the commands issued and not yet
completed, the tasks posted and not yet run, and the notices to and from
clients in order.  Addresses, keys and intervals do not influence the control
flow and are left out.
-/

namespace BluetoothFormal.Hci.LeAddressManager

open Option List
open Std (TreeMap)

/-- A `LeAddressManagerCallback` pointer. -/
abbrev Client := Nat

/-- The address policies other than `POLICY_NOT_SET`. -/
inductive AddressPolicy where
  | usePublicAddress
  | useStaticAddress
  | useNonResolvableAddress
  | useResolvableAddress
  deriving DecidableEq

def AddressPolicy.rotating : AddressPolicy → Bool
  | .useNonResolvableAddress | .useResolvableAddress => true
  | .usePublicAddress | .useStaticAddress => false

inductive ClientState where
  | waitingForPause
  | paused
  | waitingForResume
  | resumed
  deriving DecidableEq

inductive HciCommand where
  | leSetRandomAddress
  | leAddDeviceToFilterAcceptList (peer : Nat)
  | leRemoveDeviceFromFilterAcceptList (peer : Nat)
  | leClearFilterAcceptList
  | leAddDeviceToResolvingList (peer : Nat)
  | leRemoveDeviceFromResolvingList (peer : Nat)
  | leClearResolvingList
  | leSetAddressResolutionEnable (enable : Bool)
  | leSetPrivacyMode (peer : Nat)
  deriving DecidableEq

inductive CachedCommand where
  | rotateRandomAddress
  | updateIrk
  | hci (command : HciCommand)

/-- The tasks that the manager posts to its handler. -/
inductive Task where
  | handleNextCommand
  | pauseRegisteredClients
  | resumeRegisteredClients
  | checkCachedCommands
  | prepareToUpdateIrk
  | enqueueCommand (command : HciCommand)
  deriving DecidableEq

/-- Calls of client callbacks, and what clients tell the manager. -/
inductive Notice where
  | onPause (client : Client)
  | onResume (client : Client)
  | acknowledged (client : Client)
  | unregistered (client : Client)

/-- The members of `LeAddressManager` and what has left it. -/
structure Manager where
  addressPolicy : Option AddressPolicy
  supportsBlePrivacy : Bool
  registeredClients : TreeMap Client ClientState
  cachedCommands : List CachedCommand
  rotationScheduled : Bool
  issued : List HciCommand
  posted : List Task
  notices : List Notice

variable {client other : Client} {self next : Manager}

variable {clients : List (Client × ClientState)}

namespace Manager

def initial : Manager where
  addressPolicy := none
  supportsBlePrivacy := false
  registeredClients := ∅
  cachedCommands := []
  rotationScheduled := false
  issued := []
  posted := []
  notices := []

section

variable (self)

def post (task : Task) : Manager :=
  { self with posted := self.posted ++ [task] }

def issue (command : HciCommand) : Manager :=
  { self with issued := self.issued ++ [command] }

def cache (commands : List CachedCommand) : Manager :=
  { self with cachedCommands := self.cachedCommands ++ commands }

def notify (notices : List Notice) : Manager :=
  { self with notices := self.notices ++ notices }

def rotating (self : Manager) : Bool := self.addressPolicy.any AddressPolicy.rotating

def someUnpaused : Bool :=
  self.registeredClients.toList.any fun entry => entry.2 != .paused

/-! ## Pausing and resuming -/

/-- The state of a client after `pause_registered_clients`. -/
def pauseState : ClientState → ClientState
  | .paused => .paused
  | .waitingForPause | .waitingForResume | .resumed => .waitingForPause

def mustTell : ClientState → Bool
  | .paused | .waitingForPause => false
  | .waitingForResume | .resumed => true

/-- The clients that have to be told to pause, in the order of the map. -/
def untold : List Client :=
  (self.registeredClients.toList.filter fun entry => mustTell entry.2).map Prod.fst

def pauseRegisteredClients : Manager :=
  { self with
    registeredClients := self.registeredClients.map fun _ state => pauseState state
    notices := self.notices ++ self.untold.map .onPause }

/-- `set_random_address`, which is fatal unless the policy rotates the address. -/
def setRandomAddress : Option Manager :=
  if self.rotating then some (self.issue .leSetRandomAddress) else none

def rotateRandomAddress : Option Manager :=
  if self.rotating then setRandomAddress { self with rotationScheduled := true } else none

/-- What `handle_next_command` does with the command it takes. -/
def execute : CachedCommand → Option Manager
  | .updateIrk => self.setRandomAddress
  | .rotateRandomAddress => self.rotateRandomAddress
  | .hci command => some (self.issue command)

/-- `handle_next_command`, which asserts that a command is cached. -/
def handleNextCommand : Option Manager :=
  if self.someUnpaused then some self
  else
    match self.cachedCommands with
    | [] => none
    | command :: rest => execute { self with cachedCommands := rest } command

/-- The loop of `resume_registered_clients`. -/
def tellToResume : Manager :=
  { self with
    registeredClients := self.registeredClients.map fun _ _ => .waitingForResume
    notices := self.notices ++ self.registeredClients.keys.map .onResume }

def resumeRegisteredClients : Option Manager :=
  if self.cachedCommands ≠ [] then self.handleNextCommand else some self.tellToResume

def checkCachedCommands : Option Manager :=
  if self.someUnpaused ∧ self.cachedCommands ≠ [] then some self.pauseRegisteredClients
  else if self.cachedCommands = [] then self.resumeRegisteredClients
  else self.handleNextCommand

/-! ## Handlers for clients -/

/-- How the loop of `ack_pause` over the clients ends. -/
inductive LoopEnd where
  | allPaused
  | waits
  | tells (client : Client)

/-- The loop of `ack_pause`; it runs over copies, so a client it tells keeps its state. -/
def ackPauseLoop : List (Client × ClientState) → LoopEnd
  | [] => .allPaused
  | (_, .paused) :: rest => ackPauseLoop rest
  | (_, .waitingForPause) :: _ => .waits
  | (client, .waitingForResume) :: _ | (client, .resumed) :: _ => .tells client

def markPaused (client : Client) : Manager :=
  { self with
    registeredClients := self.registeredClients.insert client .paused
    notices := self.notices ++ [.acknowledged client] }

def ackPause (client : Client) : Option Manager :=
  if client ∈ self.registeredClients then
    let marked := self.markPaused client
    match ackPauseLoop marked.registeredClients.toList with
    | .waits => some marked
    | .tells other => some (marked.notify [.onPause other])
    | .allPaused => if marked.addressPolicy.isSome then marked.checkCachedCommands else some marked
  else some self

def ackResume (client : Client) : Manager :=
  { self with
    registeredClients := self.registeredClients.modify client fun _ => .resumed }

def registerClient (client : Client) : Manager :=
  let registered :=
    { self with registeredClients := self.registeredClients.insertIfNew client .resumed }
  if registered.addressPolicy.isNone then registered.pauseRegisteredClients
  else if registered.rotating ∧ registered.registeredClients.size = 1 then
    { registered with rotationScheduled := true }
  else registered

/-- The acknowledgement that `unregister_client` makes for the client. -/
def acknowledgeFor (client : Client) : Option Manager :=
  match self.registeredClients[client]? with
  | some .waitingForPause => self.ackPause client
  | some .waitingForResume => some (self.ackResume client)
  | _ => some self

def forget (client : Client) : Manager :=
  { self with
    registeredClients := self.registeredClients.erase client
    notices := self.notices ++ [.unregistered client] }

/-- The alarm is cancelled when no client is left. -/
def cancelIfDeserted : Manager :=
  { self with
    rotationScheduled := self.rotationScheduled && !self.registeredClients.isEmpty }

def unregisterClient (client : Client) : Option Manager :=
  if client ∈ self.registeredClients then
    (self.acknowledgeFor client).map fun acknowledged =>
      (acknowledged.forget client).cancelIfDeserted
  else some self.cancelIfDeserted

/-! ## Handlers that cache commands -/

/-- `push_command`, which the operations on the filter accept list post. -/
def pushCommand (command : HciCommand) : Manager :=
  self.pauseRegisteredClients.cache [.hci command]

/-- `prepare_to_rotate`, run by the alarm. -/
def prepareToRotate : Manager :=
  ({ self with rotationScheduled := false }.cache [.rotateRandomAddress]).pauseRegisteredClients

def prepareToUpdateIrk : Option Manager :=
  let cached := self.cache [.updateIrk]
  if cached.registeredClients.isEmpty then cached.handleNextCommand
  else some cached.pauseRegisteredClients

/-- The end of the additions to and removals from the resolving list. -/
def postForResolvingList : Manager :=
  if self.registeredClients.isEmpty then self.post .handleNextCommand
  else self.post .pauseRegisteredClients

def addDeviceToResolvingList (peer : Nat) : Manager :=
  if self.supportsBlePrivacy then
    (self.cache
      [.hci (.leSetAddressResolutionEnable false), .hci (.leAddDeviceToResolvingList peer),
        .hci (.leSetPrivacyMode peer), .hci (.leSetAddressResolutionEnable true)]
      ).postForResolvingList
  else self

def removeDeviceFromResolvingList (peer : Nat) : Manager :=
  if self.supportsBlePrivacy then
    (self.cache
      [.hci (.leSetAddressResolutionEnable false), .hci (.leRemoveDeviceFromResolvingList peer),
        .hci (.leSetAddressResolutionEnable true)]).postForResolvingList
  else self

/-- `ClearResolvingList`, which posts the pause even without clients. -/
def clearResolvingList : Manager :=
  if self.supportsBlePrivacy then
    (self.cache [.hci (.leSetAddressResolutionEnable false), .hci .leClearResolvingList,
        .hci (.leSetAddressResolutionEnable true)]).post .pauseRegisteredClients
  else self

/--
`OnCommandComplete` for the oldest issued command.  An invalid view and, with a
static address, the completion of `LE_SET_RANDOM_ADDRESS` end it early.
-/
def onCommandComplete (valid : Bool) : Option Manager :=
  match self.issued with
  | [] => none
  | command :: rest =>
    let completed := { self with issued := rest }
    if valid = false then some completed
    else if command = .leSetRandomAddress ∧
        self.addressPolicy = some .useStaticAddress then some completed
    else some (completed.post .checkCachedCommands)

/--
`SetPrivacyPolicyForInitiatorAddress`: a repeated call updates the key, the
first one asserts that there are no clients.
-/
def setPrivacyPolicyForInitiatorAddress (policy : AddressPolicy) (supportsBlePrivacy : Bool) :
    Option Manager :=
  match self.addressPolicy with
  | some _ => some (if supportsBlePrivacy then self.post .prepareToUpdateIrk else self)
  | none =>
    if self.registeredClients.isEmpty then
      let configured :=
        { self with addressPolicy := some policy, supportsBlePrivacy := supportsBlePrivacy }
      match policy with
      | .usePublicAddress => some (configured.post .resumeRegisteredClients)
      | .useStaticAddress => some (configured.post (.enqueueCommand .leSetRandomAddress))
      | .useNonResolvableAddress | .useResolvableAddress => configured.setRandomAddress
    else none

/-- Run a posted task. -/
def perform : Task → Option Manager
  | .handleNextCommand => self.handleNextCommand
  | .pauseRegisteredClients => some self.pauseRegisteredClients
  | .resumeRegisteredClients => self.resumeRegisteredClients
  | .checkCachedCommands => self.checkCachedCommands
  | .prepareToUpdateIrk => self.prepareToUpdateIrk
  | .enqueueCommand command => some (self.issue command)

/-! ## What a handler can do -/

theorem someUnpaused_iff :
    self.someUnpaused = true ↔ ∃ (client : Client) (state : ClientState),
        self.registeredClients[client]? = some state ∧ state ≠ .paused := by
  simp [someUnpaused, List.any_eq_true, TreeMap.mem_toList_iff_getElem?_eq_some]

theorem someUnpaused_eq_false_iff :
    self.someUnpaused = false ↔ ∀ (client : Client) (state : ClientState),
        self.registeredClients[client]? = some state → state = .paused := by
  rw [← Bool.not_eq_true, someUnpaused_iff]
  simp

end

theorem execute_eq {cached : CachedCommand} (executed : self.execute cached = some next) :
    ∃ scheduled command, next =
      { self with rotationScheduled := scheduled, issued := self.issued ++ [command] } := by
  cases cached with
  | rotateRandomAddress =>
    simp only [execute, rotateRandomAddress, setRandomAddress, ite_none_right_eq_some,
      some.injEq] at executed
    exact ⟨_, _, executed.2.2.symm⟩
  | updateIrk =>
    simp only [execute, setRandomAddress, ite_none_right_eq_some, some.injEq] at executed
    exact ⟨_, _, executed.2.symm⟩
  | hci command => exact ⟨_, _, (some.inj executed).symm⟩

theorem handleNextCommand_cases (handled : self.handleNextCommand = some next) :
    (self.someUnpaused = true ∧ next = self) ∨
      (self.someUnpaused = false ∧ ∃ cached rest scheduled command,
        self.cachedCommands = cached :: rest ∧ next = { self with
            cachedCommands := rest
            rotationScheduled := scheduled
            issued := self.issued ++ [command] }) := by
  unfold handleNextCommand at handled
  split at handled
  · rename_i unpaused
    exact .inl ⟨unpaused, (some.inj handled).symm⟩
  · rename_i unpaused
    refine .inr ⟨by simpa using unpaused, ?_⟩
    split at handled
    · cases handled
    · rename_i cached rest shape
      obtain ⟨scheduled, command, issued⟩ := execute_eq handled
      exact ⟨cached, rest, scheduled, command, shape, issued⟩

theorem resumeRegisteredClients_cases (resumed : self.resumeRegisteredClients = some next) :
    (self.cachedCommands ≠ [] ∧ self.handleNextCommand = some next) ∨
      (self.cachedCommands = [] ∧ next = self.tellToResume) := by
  unfold resumeRegisteredClients at resumed
  split at resumed
  · rename_i some_cached
    exact .inl ⟨some_cached, resumed⟩
  · rename_i none_cached
    exact .inr ⟨not_not.mp none_cached, (some.inj resumed).symm⟩

theorem checkCachedCommands_cases (checked : self.checkCachedCommands = some next) :
    (self.someUnpaused = true ∧ next = self.pauseRegisteredClients) ∨
      (self.cachedCommands = [] ∧ next = self.tellToResume) ∨
      (self.someUnpaused = false ∧ self.handleNextCommand = some next) := by
  unfold checkCachedCommands at checked
  split at checked
  · rename_i unpaused
    exact .inl ⟨unpaused.1, (some.inj checked).symm⟩
  · rename_i not_both
    split at checked
    · rename_i none_cached
      rcases resumeRegisteredClients_cases checked with ⟨some_cached, _⟩ | resumed
      · exact absurd none_cached some_cached
      · exact .inr (.inl resumed)
    · rename_i some_cached
      have all_paused : self.someUnpaused = false := by
        rw [← Bool.not_eq_true]
        exact fun unpaused => not_both ⟨unpaused, some_cached⟩
      exact .inr (.inr ⟨all_paused, checked⟩)

theorem ackPauseLoop_allPaused (ended : ackPauseLoop clients = .allPaused) :
    ∀ entry ∈ clients, entry.2 = .paused := by
  induction clients with
  | nil => exact fun _ impossible => absurd impossible not_mem_nil
  | cons entry rest ih =>
    obtain ⟨client, state⟩ := entry
    cases state with
    | paused => exact forall_mem_cons.mpr ⟨rfl, ih ended⟩
    | waitingForPause | waitingForResume | resumed => cases ended

theorem ackPauseLoop_waits (ended : ackPauseLoop clients = .waits) :
    ∃ entry ∈ clients, entry.2 = .waitingForPause := by
  induction clients with
  | nil => cases ended
  | cons entry rest ih =>
    obtain ⟨client, state⟩ := entry
    cases state with
    | paused =>
      obtain ⟨waiting, member, waits⟩ := ih ended
      exact ⟨waiting, mem_cons_of_mem _ member, waits⟩
    | waitingForPause => exact ⟨_, mem_cons_self, rfl⟩
    | waitingForResume | resumed => cases ended

theorem ackPauseLoop_tells (ended : ackPauseLoop clients = .tells client) :
    ∃ before state after, clients = before ++ (client, state) :: after ∧ mustTell state = true ∧
      ∀ entry ∈ before, entry.2 = .paused := by
  induction clients with
  | nil => cases ended
  | cons entry rest ih =>
    obtain ⟨first, state⟩ := entry
    cases state with
    | paused =>
      obtain ⟨before, state, after, rfl, told, paused⟩ := ih ended
      exact ⟨(first, .paused) :: before, state, after, rfl, told, forall_mem_cons.mpr ⟨rfl, paused⟩⟩
    | waitingForPause => cases ended
    | waitingForResume | resumed =>
      cases ended
      exact ⟨[], _, rest, rfl, rfl, fun _ impossible => absurd impossible not_mem_nil⟩

theorem ackPause_cases (acknowledged : self.ackPause client = some next) :
    (client ∉ self.registeredClients ∧ next = self) ∨ (client ∈ self.registeredClients ∧
        ((ackPauseLoop (self.markPaused client).registeredClients.toList = .waits ∧
            next = self.markPaused client) ∨
          (∃ other, ackPauseLoop (self.markPaused client).registeredClients.toList =
              .tells other ∧ next = (self.markPaused client).notify [.onPause other]) ∨
          ((self.markPaused client).someUnpaused = false ∧ if self.addressPolicy.isSome then
              (self.markPaused client).checkCachedCommands = some next
            else next = self.markPaused client))) := by
  unfold ackPause at acknowledged
  split at acknowledged
  · rename_i registered
    refine .inr ⟨registered, ?_⟩
    dsimp only at acknowledged
    split at acknowledged
    · rename_i waits
      exact .inl ⟨waits, (some.inj acknowledged).symm⟩
    · rename_i other tells
      exact .inr (.inl ⟨other, tells, (some.inj acknowledged).symm⟩)
    · rename_i ended
      refine .inr (.inr ⟨?_, ?_⟩)
      · rw [someUnpaused_eq_false_iff]
        intro other state found
        exact ackPauseLoop_allPaused ended (other, state)
          (TreeMap.mem_toList_iff_getElem?_eq_some.mpr found)
      · change (if self.addressPolicy.isSome then _ else _) = _ at acknowledged
        split
        · rename_i policy_set
          rwa [if_pos policy_set] at acknowledged
        · rename_i policy_unset
          rw [if_neg policy_unset] at acknowledged
          exact (some.inj acknowledged).symm
  · rename_i unregistered
    exact .inl ⟨unregistered, (some.inj acknowledged).symm⟩

/-! ## What a handler takes -/

/-- Tasks that may take a cached command and not cache one themselves. -/
def takes : Task → Bool
  | .handleNextCommand | .resumeRegisteredClients | .checkCachedCommands => true
  | .pauseRegisteredClients | .prepareToUpdateIrk | .enqueueCommand _ => false

theorem length_cache (self : Manager) (commands : List CachedCommand) :
    (self.cache commands).cachedCommands.length = self.cachedCommands.length + commands.length :=
  length_append

/-- At most so many commands are taken, and `handle_next_command` is not posted. -/
structure Taken (count : Nat) (manager next : Manager) : Prop where
  addressPolicy : next.addressPolicy = manager.addressPolicy
  posted : ∃ tasks, next.posted = manager.posted ++ tasks ∧ Task.handleNextCommand ∉ tasks
  cached : manager.cachedCommands.length ≤ next.cachedCommands.length + count

theorem Taken.quiet {count : Nat} (addressPolicy : next.addressPolicy = self.addressPolicy)
    (posted : next.posted = self.posted)
    (cached : self.cachedCommands.length ≤ next.cachedCommands.length + count) :
    Taken count self next :=
  ⟨addressPolicy, ⟨[], by rw [posted, append_nil], not_mem_nil⟩, cached⟩

theorem handleNextCommand_taken (handled : self.handleNextCommand = some next) :
    Taken 1 self next := by
  rcases handleNextCommand_cases handled with ⟨_, rfl⟩ | ⟨_, _, rest, _, _, shape, rfl⟩
  · exact .quiet rfl rfl (Nat.le_succ _)
  · refine .quiet rfl rfl ?_
    rw [shape]
    exact le_rfl

theorem checkCachedCommands_taken (checked : self.checkCachedCommands = some next) :
    Taken 1 self next := by
  rcases checkCachedCommands_cases checked with ⟨_, rfl⟩ | ⟨_, rfl⟩ | ⟨_, handled⟩
  · exact .quiet rfl rfl (Nat.le_succ _)
  · exact .quiet rfl rfl (Nat.le_succ _)
  · exact handleNextCommand_taken handled

theorem ackPause_taken (acknowledged : self.ackPause client = some next) :
    Taken 1 self next := by
  rcases ackPause_cases acknowledged with
    ⟨_, rfl⟩ | ⟨_, ⟨_, rfl⟩ | ⟨_, _, rfl⟩ | ⟨_, checked⟩⟩
  · exact .quiet rfl rfl (Nat.le_succ _)
  · exact .quiet rfl rfl (Nat.le_succ _)
  · exact .quiet rfl rfl (Nat.le_succ _)
  · split at checked
    · have taken := checkCachedCommands_taken checked
      exact ⟨taken.addressPolicy, taken.posted, taken.cached⟩
    · rw [checked]
      exact .quiet rfl rfl (Nat.le_succ _)

theorem unregisterClient_taken (left : self.unregisterClient client = some next) :
    Taken 1 self next := by
  unfold unregisterClient at left
  split at left
  · obtain ⟨acknowledged, acknowledges, rfl⟩ := map_eq_some_iff.mp left
    unfold acknowledgeFor at acknowledges
    split at acknowledges
    · have taken := ackPause_taken acknowledges
      exact ⟨taken.addressPolicy, taken.posted, taken.cached⟩
    · cases acknowledges
      exact .quiet rfl rfl (Nat.le_succ _)
    · cases acknowledges
      exact .quiet rfl rfl (Nat.le_succ _)
  · cases left
    exact .quiet rfl rfl (Nat.le_succ _)

theorem perform_taken {task : Task} (performed : self.perform task = some next) :
    Taken (if takes task then 1 else 0) self next := by
  cases task with
  | handleNextCommand => exact handleNextCommand_taken performed
  | resumeRegisteredClients =>
    rcases resumeRegisteredClients_cases performed with ⟨_, handled⟩ | ⟨_, rfl⟩
    · exact handleNextCommand_taken handled
    · exact .quiet rfl rfl (Nat.le_succ _)
  | checkCachedCommands => exact checkCachedCommands_taken performed
  | prepareToUpdateIrk =>
    have more := le_of_eq (length_cache self [.updateIrk]).symm
    unfold perform prepareToUpdateIrk at performed
    dsimp only at performed
    split at performed
    · have taken := handleNextCommand_taken performed
      exact ⟨taken.addressPolicy, taken.posted, Nat.le_of_succ_le_succ (more.trans taken.cached)⟩
    · cases performed
      exact .quiet rfl rfl (Nat.le_of_succ_le more)
  | pauseRegisteredClients | enqueueCommand _ =>
    cases performed
    exact .quiet rfl rfl le_rfl

theorem onCommandComplete_taken {valid : Bool}
    (completed : self.onCommandComplete valid = some next) : Taken 0 self next := by
  unfold onCommandComplete at completed
  split at completed
  · cases completed
  · split at completed
    · cases completed
      exact .quiet rfl rfl le_rfl
    · split at completed
      · cases completed
        exact .quiet rfl rfl le_rfl
      · cases completed
        exact ⟨rfl, ⟨[.checkCachedCommands], rfl, by decide⟩, le_rfl⟩

theorem registerClient_taken (self : Manager) (client : Client) :
    Taken 0 self (self.registerClient client) := by
  unfold registerClient
  dsimp only
  split
  · exact .quiet rfl rfl le_rfl
  · split <;> exact .quiet rfl rfl le_rfl

/-! ## Which clients a handler touches -/

theorem markPaused_getElem?_of_ne (self : Manager) (distinct : other ≠ client) :
    (self.markPaused client).registeredClients[other]? = self.registeredClients[other]? := by
  simp only [markPaused, TreeMap.getElem?_insert, Nat.compare_eq_eq]
  exact if_neg fun same => distinct same.symm

theorem ackResume_getElem?_of_ne (self : Manager) (distinct : other ≠ client) :
    (self.ackResume client).registeredClients[other]? = self.registeredClients[other]? := by
  simp only [ackResume, TreeMap.getElem?_modify, Nat.compare_eq_eq]
  exact if_neg fun same => distinct same.symm

theorem forget_getElem?_of_ne (self : Manager) (distinct : other ≠ client) :
    (self.forget client).registeredClients[other]? = self.registeredClients[other]? := by
  simp only [forget, TreeMap.getElem?_erase, Nat.compare_eq_eq]
  exact if_neg fun same => distinct same.symm

theorem getElem?_insertIfNew_of_some {clients : TreeMap Client ClientState}
    {state fresh : ClientState} (found : clients[other]? = some state) :
    (clients.insertIfNew client fresh)[other]? = some state := by
  rw [TreeMap.getElem?_insertIfNew, if_neg]
  · exact found
  · rintro ⟨same, absent⟩
    rw [Nat.compare_eq_eq] at same
    subst same
    rw [TreeMap.getElem?_eq_none absent] at found
    cases found

end Manager

/-! ## Runs -/

inductive Event where
  | setPrivacyPolicyForInitiatorAddress (policy : AddressPolicy) (supportsBlePrivacy : Bool)
  | registerClient (client : Client)
  | unregisterClient (client : Client)
  | ackPause (client : Client)
  | ackResume (client : Client)
  | pushCommand (command : HciCommand)
  | prepareToRotate
  | addDeviceToResolvingList (peer : Nat)
  | removeDeviceFromResolvingList (peer : Nat)
  | clearResolvingList
  | onCommandComplete (valid : Bool)
  | runTask

/-- The alarm fires only while it is scheduled; posted tasks run in order. -/
def step (self : Manager) : Event → Option Manager
  | .setPrivacyPolicyForInitiatorAddress policy supportsBlePrivacy =>
    self.setPrivacyPolicyForInitiatorAddress policy supportsBlePrivacy
  | .registerClient client => some (self.registerClient client)
  | .unregisterClient client => self.unregisterClient client
  | .ackPause client => self.ackPause client
  | .ackResume client => some (self.ackResume client)
  | .pushCommand command => some (self.pushCommand command)
  | .prepareToRotate => if self.rotationScheduled then some self.prepareToRotate else none
  | .addDeviceToResolvingList peer => some (self.addDeviceToResolvingList peer)
  | .removeDeviceFromResolvingList peer => some (self.removeDeviceFromResolvingList peer)
  | .clearResolvingList => some self.clearResolvingList
  | .onCommandComplete valid => self.onCommandComplete valid
  | .runTask =>
    match self.posted with
    | [] => none
    | task :: rest => Manager.perform { self with posted := rest } task

end BluetoothFormal.Hci.LeAddressManager
