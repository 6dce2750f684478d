import BluetoothFormal.Hci.LeAddressManager
import BluetoothFormal.Foundation.RequestLog

/-!
# The LE address manager asks a client to pause once

A client that was told to pause is waited for until it acknowledges, is told to
resume or is unregistered.  The state of a client records this, so a client is
not told twice, as long as every client that is told is marked as waiting and
keeps the mark.  `ack_pause` breaks the first part, since it marks a copy; a
late `ack_resume` breaks the second.
-/

namespace BluetoothFormal.Hci.LeAddressManager

open Foundation.RequestLog Manager List Option
open Foundation.Transition
open Std (TreeMap)

/-- `OnPause` opens a request to a client, everything else settles it. -/
def noticeEffect : Notice → Effect Client
  | .onPause client => .opens client
  | .onResume client | .acknowledged client | .unregistered client => .closes client

def toldToPause (notices : List Notice) (client : Client) : Bool :=
  pending noticeEffect notices client

variable {client : Client}

namespace Manager

/--
Every client that is neither paused nor waiting comes, in the order of the map,
after a waiting client other than the one that acknowledges.
-/
def AckSpares (self : Manager) (client : Client) : Prop :=
  ∀ entry ∈ self.registeredClients.toList, entry.1 ≠ client → mustTell entry.2 = true →
    ∃ earlier ∈ self.registeredClients.toList, earlier.1 ≠ client ∧ earlier.1 < entry.1 ∧
      earlier.2 = .waitingForPause
  deriving Decidable

/-- The condition on an event. -/
def Spares (self : Manager) : Event → Prop
  | .ackPause client => client ∈ self.registeredClients → self.AckSpares client
  | .unregisterClient client =>
    self.registeredClients[client]? = some .waitingForPause → self.AckSpares client
  | .ackResume client => self.registeredClients[client]? ≠ some .waitingForPause
  | _ => True

instance (self : Manager) (event : Event) : Decidable (self.Spares event) := by
  induction event using Event.casesOn with
  | ackPause | unregisterClient => exact inferInstanceAs (Decidable (_ → _))
  | ackResume => exact inferInstanceAs (Decidable (_ ≠ _))
  | _ => exact isTrue trivial

theorem AckSpares.not_tells {self : Manager} {other : Client} (spares : self.AckSpares client) :
    ackPauseLoop (self.markPaused client).registeredClients.toList ≠ .tells other := by
  intro tells
  obtain ⟨before, state, after, shape, told, paused⟩ := ackPauseLoop_tells tells
  have found : (self.markPaused client).registeredClients[other]? = some state := by
    rw [← TreeMap.mem_toList_iff_getElem?_eq_some, shape]
    exact mem_append_right _ mem_cons_self
  have distinct : other ≠ client := by
    rintro rfl
    rw [show (self.markPaused other).registeredClients[other]? = some .paused from
      TreeMap.getElem?_insert_self, some.injEq] at found
    subst found
    cases told
  rw [markPaused_getElem?_of_ne self distinct] at found
  obtain ⟨⟨earlier, waiting⟩, member, apart, smaller, rfl⟩ :=
    spares (other, state) (TreeMap.mem_toList_iff_getElem?_eq_some.mpr found) distinct told
  have marked : (earlier, ClientState.waitingForPause) ∈ before ++ (other, state) :: after := by
    rw [← shape, TreeMap.mem_toList_iff_getElem?_eq_some, markPaused_getElem?_of_ne self apart]
    exact TreeMap.mem_toList_iff_getElem?_eq_some.mp member
  have ordered : (before ++ (other, state) :: after).Pairwise
      fun first second => first.1 < second.1 := by
    rw [← shape]
    exact TreeMap.ordered_keys_toList.imp fun smaller => Nat.compare_eq_lt.mp smaller
  rcases mem_append.mp marked with first | rest
  · cases paused _ first
  · rcases mem_cons.mp rest with same | later
    · cases same
      exact Nat.lt_irrefl _ smaller
    · have behind := (pairwise_cons.mp (pairwise_append.mp ordered).2.1).1 _ later
      exact Nat.lt_asymm smaller behind

/-- No client was told twice, and every client told to pause is marked as waiting. -/
structure Considerate (manager : Manager) : Prop where
  disciplined : Disciplined noticeEffect manager.notices
  marked : ∀ client : Client, toldToPause manager.notices client = true →
    manager.registeredClients[client]? = some .waitingForPause

namespace Considerate

variable {self next : Manager}

theorem initial : Considerate initial where
  disciplined := disciplined_nil
  marked := by
    intro client told
    cases told

section

variable (considerate : self.Considerate)
include considerate

/-- Handlers that give no notice may change anything but waiting clients. -/
theorem quiet (notices : next.notices = self.notices)
    (kept : ∀ client : Client, self.registeredClients[client]? = some .waitingForPause →
      next.registeredClients[client]? = some .waitingForPause) :
    next.Considerate where
  disciplined := notices ▸ considerate.disciplined
  marked := by
    intro client told
    rw [notices] at told
    exact kept client (considerate.marked client told)

/-- A notice that settles the request to one client, while the others keep their states. -/
theorem settle {notice : Client → Notice}
    (closes : ∀ other, noticeEffect (notice other) = .closes other)
    (notices : next.notices = self.notices ++ [notice client])
    (kept : ∀ other : Client, other ≠ client →
      next.registeredClients[other]? = self.registeredClients[other]?) :
    next.Considerate where
  disciplined := by
    rw [notices]
    exact considerate.disciplined.append_closes closes [client]
  marked := by
    intro other told
    rw [toldToPause, notices] at told
    obtain ⟨distinct, told⟩ := (pending_append_closes closes _ [client] other).mp told
    have apart : other ≠ client := by simpa using distinct
    exact (kept other apart).trans (considerate.marked other told)

theorem cache (commands : List CachedCommand) :
    (self.cache commands).Considerate :=
  considerate.quiet rfl fun _ found => found

theorem markPaused (client : Client) :
    (self.markPaused client).Considerate :=
  considerate.settle (by intro other; rfl) rfl
    fun _ distinct => markPaused_getElem?_of_ne self distinct

theorem forget (client : Client) :
    (self.forget client).cancelIfDeserted.Considerate :=
  considerate.settle (by intro other; rfl) rfl fun _ distinct => forget_getElem?_of_ne self distinct

end

end Considerate

theorem mem_untold_iff (self : Manager) (client : Client) :
    client ∈ self.untold ↔ ∃ state : ClientState, self.registeredClients[client]? = some state ∧
        mustTell state = true := by
  simp [untold, TreeMap.mem_toList_iff_getElem?_eq_some]

theorem untold_nodup (self : Manager) : self.untold.Nodup := by
  have ordered : self.registeredClients.toList.Pairwise fun first second => first.1 < second.1 :=
    TreeMap.ordered_keys_toList.imp fun smaller => Nat.compare_eq_lt.mp smaller
  refine pairwise_map.mpr ((ordered.filter _).imp ?_)
  exact fun smaller same => Nat.lt_irrefl _ (same ▸ smaller)

namespace Considerate

variable {self next : Manager}

section

variable (considerate : self.Considerate)
include considerate

theorem pauseRegisteredClients :
    self.pauseRegisteredClients.Considerate where
  disciplined := by
    refine considerate.disciplined.append_opens (by intro client; rfl) self.untold_nodup ?_
    intro client member
    obtain ⟨state, found, must⟩ := (mem_untold_iff self client).mp member
    rw [← Bool.not_eq_true]
    intro told
    rw [considerate.marked client told, some.injEq] at found
    subst found
    cases must
  marked := by
    intro client told
    have paused : self.pauseRegisteredClients.registeredClients[client]? =
        self.registeredClients[client]?.map pauseState := TreeMap.getElem?_map
    rw [paused]
    rcases (pending_append_opens (by intro key; rfl) _ _ client).mp told with fresh | told
    · obtain ⟨state, found, must⟩ := (mem_untold_iff self client).mp fresh
      rw [found, map_some]
      cases state with
      | paused | waitingForPause => cases must
      | waitingForResume | resumed => rfl
    · rw [considerate.marked client told]
      rfl

theorem tellToResume : self.tellToResume.Considerate where
  disciplined := considerate.disciplined.append_closes (by intro client; rfl) _
  marked := by
    intro client told
    obtain ⟨absent, told⟩ := (pending_append_closes (by intro key; rfl) _ _ client).mp told
    have registered : client ∈ self.registeredClients := by
      rw [TreeMap.mem_iff_isSome_getElem?, considerate.marked client told]
      rfl
    exact absurd (TreeMap.mem_keys.mpr registered) absent

theorem handleNextCommand (handled : self.handleNextCommand = some next) : next.Considerate := by
  rcases handleNextCommand_cases handled with ⟨_, rfl⟩ | ⟨_, _, _, _, _, _, rfl⟩
  · exact considerate
  · exact considerate.quiet rfl fun _ found => found

theorem resumeRegisteredClients (resumed : self.resumeRegisteredClients = some next) :
    next.Considerate := by
  rcases resumeRegisteredClients_cases resumed with ⟨_, handled⟩ | ⟨_, rfl⟩
  · exact considerate.handleNextCommand handled
  · exact considerate.tellToResume

theorem checkCachedCommands (checked : self.checkCachedCommands = some next) :
    next.Considerate := by
  rcases checkCachedCommands_cases checked with ⟨_, rfl⟩ | ⟨_, rfl⟩ | ⟨_, handled⟩
  · exact considerate.pauseRegisteredClients
  · exact considerate.tellToResume
  · exact considerate.handleNextCommand handled

theorem ackPause (spares : client ∈ self.registeredClients → self.AckSpares client)
    (acknowledged : self.ackPause client = some next) : next.Considerate := by
  have marked := considerate.markPaused client
  rcases ackPause_cases acknowledged with
    ⟨_, rfl⟩ | ⟨registered, ⟨_, rfl⟩ | ⟨other, tells, _⟩ | ⟨_, checked⟩⟩
  · exact considerate
  · exact marked
  · exact absurd tells (spares registered).not_tells
  · split at checked
    · exact marked.checkCachedCommands checked
    · exact checked ▸ marked

theorem ackResume (idle : self.registeredClients[client]? ≠ some .waitingForPause) :
    (self.ackResume client).Considerate := by
  refine considerate.quiet rfl fun other found => ?_
  have distinct : other ≠ client := fun same => idle (same ▸ found)
  exact (ackResume_getElem?_of_ne self distinct).trans found

theorem unregisterClient (spares : self.Spares (.unregisterClient client))
    (left : self.unregisterClient client = some next) : next.Considerate := by
  unfold Manager.unregisterClient at left
  split at left
  · obtain ⟨acknowledged, acknowledges, rfl⟩ := map_eq_some_iff.mp left
    refine Considerate.forget ?_ client
    unfold acknowledgeFor at acknowledges
    split at acknowledges
    · rename_i found
      exact considerate.ackPause (fun _ => spares found) acknowledges
    · rename_i found
      cases acknowledges
      exact considerate.ackResume (by rw [found]; decide)
    · cases acknowledges
      exact considerate
  · cases left
    exact considerate.quiet rfl fun _ found => found

theorem registerClient (client : Client) :
    (self.registerClient client).Considerate := by
  have registered : Considerate { self with
      registeredClients := self.registeredClients.insertIfNew client .resumed } :=
    considerate.quiet rfl fun _ found => getElem?_insertIfNew_of_some found
  unfold Manager.registerClient
  dsimp only
  split
  · exact registered.pauseRegisteredClients
  · split
    · exact registered.quiet rfl fun _ found => found
    · exact registered

theorem onCommandComplete {valid : Bool} (completed : self.onCommandComplete valid = some next) :
    next.Considerate := by
  unfold Manager.onCommandComplete at completed
  split at completed
  · cases completed
  · split at completed
    · cases completed
      exact considerate.quiet rfl fun _ found => found
    · split at completed
      all_goals
        cases completed
        exact considerate.quiet rfl fun _ found => found

theorem prepareToUpdateIrk (prepared : self.prepareToUpdateIrk = some next) :
    next.Considerate := by
  have cached := considerate.cache [.updateIrk]
  unfold Manager.prepareToUpdateIrk at prepared
  dsimp only at prepared
  split at prepared
  · exact cached.handleNextCommand prepared
  · cases prepared
    exact cached.pauseRegisteredClients

theorem postForResolvingList :
    self.postForResolvingList.Considerate := by
  unfold Manager.postForResolvingList
  split <;> exact considerate.quiet rfl fun _ found => found

theorem setPrivacyPolicyForInitiatorAddress {policy : AddressPolicy} {supportsBlePrivacy : Bool}
    (configured : self.setPrivacyPolicyForInitiatorAddress policy supportsBlePrivacy = some next) :
    next.Considerate := by
  unfold Manager.setPrivacyPolicyForInitiatorAddress at configured
  split at configured
  · cases configured
    split
    · exact considerate.quiet rfl fun _ found => found
    · exact considerate
  · split at configured
    · cases policy with
      | usePublicAddress | useStaticAddress | useNonResolvableAddress | useResolvableAddress =>
        cases configured
        exact considerate.quiet rfl fun _ found => found
    · cases configured

theorem perform {task : Task} (performed : self.perform task = some next) :
    next.Considerate := by
  cases task with
  | handleNextCommand => exact considerate.handleNextCommand performed
  | pauseRegisteredClients =>
    cases performed
    exact considerate.pauseRegisteredClients
  | resumeRegisteredClients => exact considerate.resumeRegisteredClients performed
  | checkCachedCommands => exact considerate.checkCachedCommands performed
  | prepareToUpdateIrk => exact considerate.prepareToUpdateIrk performed
  | enqueueCommand command =>
    cases performed
    exact considerate.quiet rfl fun _ found => found

end

theorem step (event : Event) (next : Manager) (considerate : self.Considerate)
    (spares : self.Spares event) (moved : step self event = some next) :
    next.Considerate := by
  cases event with
  | setPrivacyPolicyForInitiatorAddress policy supportsBlePrivacy =>
    exact considerate.setPrivacyPolicyForInitiatorAddress moved
  | registerClient client =>
    cases moved
    exact considerate.registerClient client
  | unregisterClient client => exact considerate.unregisterClient spares moved
  | ackPause client => exact considerate.ackPause spares moved
  | ackResume client =>
    cases moved
    exact considerate.ackResume spares
  | pushCommand command =>
    cases moved
    exact considerate.pauseRegisteredClients.quiet rfl fun _ found => found
  | prepareToRotate =>
    obtain ⟨_, rfl⟩ := guarded_eq_some.mp moved
    refine Considerate.pauseRegisteredClients ?_
    exact considerate.quiet rfl fun _ found => found
  | addDeviceToResolvingList peer | removeDeviceFromResolvingList peer =>
    cases moved
    dsimp only [addDeviceToResolvingList, removeDeviceFromResolvingList]
    split
    · exact (considerate.cache _).postForResolvingList
    · exact considerate
  | clearResolvingList =>
    cases moved
    unfold clearResolvingList
    split
    · exact considerate.quiet rfl fun _ found => found
    · exact considerate
  | onCommandComplete valid => exact considerate.onCommandComplete moved
  | runTask =>
    unfold LeAddressManager.step at moved
    dsimp only at moved
    split at moved
    · cases moved
    · refine Considerate.perform ?_ moved
      exact considerate.quiet rfl fun _ found => found

end Considerate

end Manager

/-- `OnPause` is invoked only on clients that have no pause to acknowledge. -/
theorem onPause_considerate {events : List Event} {self : Manager}
    (guarded : Along step Manager.Spares initial events)
    (reached : run step initial events = some self)
    {before after : List Notice} {client : Client}
    (invoked : self.notices = before ++ .onPause client :: after) :
    toldToPause before client = false := by
  have considerate : self.Considerate :=
    invariant_along (fun _ event next considerate => considerate.step event next)
      Manager.Considerate.initial guarded reached
  exact considerate.disciplined before (.onPause client) after client invoked rfl

def twoPauses : List Event :=
  [.setPrivacyPolicyForInitiatorAddress .usePublicAddress true, .runTask, .registerClient 1,
    .registerClient 2, .pushCommand (.leAddDeviceToFilterAcceptList 7), .ackPause 1, .ackPause 2,
    .onCommandComplete true, .runTask, .ackResume 1, .pushCommand .leClearFilterAcceptList]

theorem onPause_considerate_twoPauses :
    ∃ self, run step initial twoPauses = some self ∧
      self.notices = [.onPause 1, .onPause 2, .acknowledged 1, .acknowledged 2, .onResume 1,
        .onResume 2, .onPause 1] ++ .onPause 2 :: [] ∧
      toldToPause [.onPause 1, .onPause 2, .acknowledged 1, .acknowledged 2, .onResume 1,
        .onResume 2, .onPause 1] 2 = false :=
  ⟨_, rfl, rfl, onPause_considerate
    (show Along step Manager.Spares initial twoPauses by decide) rfl rfl⟩

/-- A client that registers during a pause is told twice and has answered neither. -/
theorem late_client_told_twice :
    ∃ self, run step initial
        [.setPrivacyPolicyForInitiatorAddress .usePublicAddress true, .runTask, .registerClient 1,
          .pushCommand (.leAddDeviceToFilterAcceptList 7), .registerClient 2, .ackPause 1,
          .pushCommand .leClearFilterAcceptList] = some self ∧
      self.notices = [.onPause 1, .acknowledged 1, .onPause 2] ++ .onPause 2 :: [] ∧
      toldToPause [.onPause 1, .acknowledged 1, .onPause 2] 2 = true :=
  ⟨_, rfl, rfl, rfl⟩

end BluetoothFormal.Hci.LeAddressManager
