import BluetoothFormal.Hci.LeAddressManager

/-!
# The assertion of `handle_next_command`

`handle_next_command` asserts that a command is cached.  Most of its callers look at the
cache or fill it first, but a request that finds no client posts it, and the tasks posted
before it may take the commands of the request.  The assertion holds as long as the cache
has a command for each of them.
-/

namespace BluetoothFormal.Hci.LeAddressManager

open Foundation.Transition List

namespace Manager

variable {self next : Manager}

/-- How many of the tasks may take a command. -/
def takers (tasks : List Task) : Nat := tasks.countP takes

section

variable (self)

/-- With its own commands, a request without clients leaves one for each posted task. -/
def backsRequest (count : Nat) : Bool :=
  !self.supportsBlePrivacy || !self.registeredClients.isEmpty ||
    takers self.posted < self.cachedCommands.length + count

/-- A client that answers leaves a command for each posted task. -/
def backsAnswer : Bool :=
  !self.posted.contains .handleNextCommand || takers self.posted < self.cachedCommands.length

/-- The condition on a step. -/
def backs : Event → Bool
  | .addDeviceToResolvingList _ => self.backsRequest 4
  | .removeDeviceFromResolvingList _ => self.backsRequest 3
  | .ackPause _ | .unregisterClient _ => self.backsAnswer
  | _ => true

/-- Whatever the tasks before it take, a posted `handle_next_command` finds a command. -/
def Backed : Prop :=
  ∀ front behind, self.posted = front ++ .handleNextCommand :: behind →
    takers front < self.cachedCommands.length

end

theorem Taken.backed {count : Nat} (taken : Taken count self next)
    (spare : ∀ front behind, self.posted = front ++ .handleNextCommand :: behind →
      takers front + count < self.cachedCommands.length) : next.Backed := by
  intro front behind split
  obtain ⟨tasks, posted, other⟩ := taken.posted
  have cached := taken.cached
  rw [posted] at split
  rcases append_eq_append_iff.mp split with ⟨added, _, same⟩ | ⟨left, old, same⟩
  · exact absurd (same ▸ mem_append_right added mem_cons_self) other
  · cases left with
    | nil =>
      rw [nil_append] at same
      exact absurd (same ▸ mem_cons_self) other
    | cons task left =>
      cases same
      have enough := spare front left old
      omega

theorem spare_of_backsAnswer (backs : self.backsAnswer = true) (front behind : List Task)
    (split : self.posted = front ++ .handleNextCommand :: behind) :
    takers front + 1 < self.cachedCommands.length := by
  have counted : takers self.posted = takers front + (takers behind + 1) := by
    rw [split, takers, countP_append, countP_cons_of_pos rfl]
    rfl
  rw [backsAnswer, Bool.or_eq_true] at backs
  rcases backs with absent | fewer
  · rw [split] at absent
    simp at absent
  · have fewer := of_decide_eq_true fewer
    omega

namespace Backed

variable (backed : self.Backed)
include backed

theorem cache (commands : List CachedCommand) : (self.cache commands).Backed := by
  intro front behind split
  rw [length_cache]
  exact Nat.lt_add_right _ (backed front behind split)

theorem post {task : Task} (other : Task.handleNextCommand ≠ task) :
    (self.post task).Backed := by
  have taken : Taken 0 self (self.post task) :=
    ⟨rfl, ⟨[task], rfl, mt mem_singleton.mp other⟩, Nat.le_refl _⟩
  exact taken.backed backed

theorem request {commands : List CachedCommand} (privacy : self.supportsBlePrivacy = true)
    (backs : self.backsRequest commands.length = true) :
    (self.cache commands).postForResolvingList.Backed := by
  unfold postForResolvingList
  split
  case isFalse => exact (backed.cache commands).post (by decide)
  case isTrue deserted =>
    have deserted : self.registeredClients.isEmpty = true := deserted
    rw [backsRequest, privacy, deserted] at backs
    have enough := of_decide_eq_true backs
    intro front behind split
    have lengths := congrArg List.length split
    have early : front <+: self.posted := by
      refine prefix_of_prefix_length_le ⟨_, split.symm⟩ (prefix_append _ _) ?_
      simp only [Manager.post, Manager.cache, length_append, length_cons, length_nil] at lengths
      omega
    have fewer : takers front ≤ takers self.posted := early.sublist.countP_le
    exact (Nat.lt_of_le_of_lt fewer enough).trans_eq (length_cache self commands).symm

theorem step (event : Event) (next : Manager) (backs : self.backs event = true)
    (moved : step self event = some next) : next.Backed := by
  cases event with
  | setPrivacyPolicyForInitiatorAddress policy supportsBlePrivacy =>
    unfold LeAddressManager.step setPrivacyPolicyForInitiatorAddress at moved
    dsimp only at moved
    split at moved
    · cases moved
      split
      · exact backed.post (by decide)
      · exact backed
    · split at moved
      · cases policy with
        | usePublicAddress | useStaticAddress =>
          cases moved
          exact Backed.post backed (by decide)
        | useNonResolvableAddress | useResolvableAddress =>
          cases moved
          exact backed
      · cases moved
  | registerClient client =>
    cases moved
    exact (registerClient_taken self client).backed backed
  | unregisterClient client => exact (unregisterClient_taken moved).backed (spare_of_backsAnswer backs)
  | ackPause client => exact (ackPause_taken moved).backed (spare_of_backsAnswer backs)
  | ackResume client =>
    cases moved
    exact backed
  | pushCommand command =>
    cases moved
    exact Backed.cache backed _
  | prepareToRotate =>
    obtain ⟨_, rfl⟩ := guarded_eq_some.mp moved
    have cached := backed.cache [.rotateRandomAddress]
    exact cached
  | addDeviceToResolvingList peer | removeDeviceFromResolvingList peer =>
    cases moved
    dsimp only [addDeviceToResolvingList, removeDeviceFromResolvingList]
    split
    case isTrue privacy => exact backed.request privacy backs
    case isFalse => exact backed
  | clearResolvingList =>
    cases moved
    unfold clearResolvingList
    split
    · exact (backed.cache _).post (by decide)
    · exact backed
  | onCommandComplete valid => exact (onCommandComplete_taken moved).backed backed
  | runTask =>
    unfold LeAddressManager.step at moved
    dsimp only at moved
    split at moved
    · cases moved
    · rename_i task rest shape
      refine (perform_taken moved).backed fun front behind split => ?_
      have enough := backed (task :: front) behind (by rw [shape]; exact congrArg _ split)
      rwa [takers, countP_cons] at enough

end Backed

end Manager

/--
A posted `handle_next_command` finds a command.  The other callers do not call it without
one: `resume_registered_clients` and `check_cached_commands` resume the clients, and
`prepare_to_update_irk` caches a command first.
-/
theorem handle_next_command_asserted {events : List Event} {self : Manager}
    (guarded : Along step (fun self event => self.backs event = true) .initial events)
    (reached : run step .initial events = some self) :
    (∀ rest, self.posted = .handleNextCommand :: rest → self.cachedCommands ≠ []) ∧
      ∀ caller : Manager, (caller.cache [.updateIrk]).cachedCommands ≠ [] ∧
        (caller.cachedCommands = [] → caller.resumeRegisteredClients = some caller.tellToResume ∧
          caller.checkCachedCommands = some caller.tellToResume) := by
  have backed : self.Backed :=
    invariant_along (fun _ event next backed => Manager.Backed.step backed event next)
      (fun front behind split => by simp [Manager.initial] at split) guarded reached
  refine ⟨fun rest front => length_pos_iff.mp (backed [] rest front), fun caller => ⟨?_, ?_⟩⟩
  · exact append_ne_nil_of_right_ne_nil _ (cons_ne_nil _ _)
  · intro empty
    have resumed : caller.resumeRegisteredClients = some caller.tellToResume :=
      if_neg (not_not.mpr empty)
    refine ⟨resumed, ?_⟩
    rw [Manager.checkCachedCommands, if_neg fun both => both.2 empty, if_pos empty, resumed]

def twoRemovals : List Event :=
  [.setPrivacyPolicyForInitiatorAddress .usePublicAddress true, .runTask,
    .removeDeviceFromResolvingList 1, .removeDeviceFromResolvingList 2]

theorem handle_next_command_asserted_twoRemovals :
    ∃ self, run step .initial twoRemovals = some self ∧
      self.posted = [.handleNextCommand, .handleNextCommand] ∧ self.cachedCommands ≠ [] :=
  ⟨_, rfl, rfl, (@handle_next_command_asserted twoRemovals _ (by decide) rfl).1 _ rfl⟩

/-- Three removals, whose last three commands complete before a fourth removal. -/
def parallelRemovals : List Event :=
  twoRemovals ++ [.removeDeviceFromResolvingList 3, .runTask, .runTask, .runTask] ++
    (List.replicate 6 [Event.onCommandComplete true, .runTask]).flatten ++
    [.onCommandComplete true, .onCommandComplete true, .onCommandComplete true,
      .removeDeviceFromResolvingList 4, .runTask, .runTask, .runTask]

theorem parallelRemovals_fail :
    ∃ self, run step .initial parallelRemovals = some self ∧
      self.posted = [.handleNextCommand] ∧ self.someUnpaused = false ∧
      self.cachedCommands = [] ∧ step self .runTask = none :=
  ⟨_, rfl, rfl, rfl, rfl, rfl⟩

end BluetoothFormal.Hci.LeAddressManager
