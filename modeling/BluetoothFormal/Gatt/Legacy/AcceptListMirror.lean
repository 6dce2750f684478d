import BluetoothFormal.Gatt.Legacy.ConnectionManager

/-!
# The accept list and the records

Every operation of the connection manager changes the accept list of the controller together
with the flag of a record.  An operation is a composition of a few such changes, and each of
them keeps what holds of every device.
-/

namespace BluetoothFormal.Gatt.Legacy.ConnectionManager

open Foundation.Transition Manager

variable {Address : Type} [DecidableEq Address] {self : Manager Address} {address : Address}

variable {Invariant : Manager Address → Prop} {record : AppsConnecting}

theorem filtering_keeps {first : Prop} [Decidable first]
    (kept : Invariant self → Invariant (self.targetAnnouncementsFilteringSet true))
    (holds : Invariant self) :
    Invariant (if first then self.targetAnnouncementsFilteringSet true else self) := by
  split
  · exact kept holds
  · exact holds

/-! ## The flag mirrors the accept list -/

/-- A device is in the accept list exactly if it has a record that says so. -/
def Mirror (self : Manager Address) : Prop :=
  ∀ address, address ∈ self.acceptList ↔
    ∃ record, self.find address = some record ∧ record.isInAcceptList = true

section

variable (mirror : Mirror self)
include mirror

theorem Mirror.mem_iff_entry (address : Address) :
    address ∈ self.acceptList ↔ (self.entry address).isInAcceptList = true := by
  rw [mirror, entry]
  cases self.find address with
  | none => simp [AppsConnecting.new]
  | some record => simp

theorem mirror_of_device {next : Manager Address}
    (records : ∀ other, other ≠ address → next.find other = self.find other)
    (accepted : ∀ other, other ≠ address → (other ∈ next.acceptList ↔ other ∈ self.acceptList))
    (here : address ∈ next.acceptList ↔
      ∃ record, next.find address = some record ∧ record.isInAcceptList = true) : Mirror next := by
  intro other
  by_cases same : other = address
  · rw [same]
    exact here
  · rw [records other same, accepted other same]
    exact mirror other

theorem Mirror.set (flag : record.isInAcceptList = (self.entry address).isInAcceptList) :
    Mirror (self.set address record) := by
  refine mirror_of_device mirror (fun _ apart => self.find_set_of_ne record apart)
    (fun _ _ => Iff.rfl) ?_
  rw [find_set]
  refine (mirror.mem_iff_entry address).trans ?_
  rw [← flag]
  simp

theorem Mirror.add (flag : record.isInAcceptList = true) :
    Mirror ((self.acceptlistAdd address).set address record) := by
  refine mirror_of_device mirror (fun _ apart => self.find_set_of_ne record apart)
    (fun _ apart => Finset.mem_insert.trans (or_iff_right apart)) ?_
  rw [find_set]
  exact iff_of_true (Finset.mem_insert_self _ _) ⟨record, rfl, flag⟩

theorem Mirror.drop (flag : record.isInAcceptList = false) :
    Mirror ((self.acceptlistRemove address).set address record) := by
  refine mirror_of_device mirror (fun _ apart => self.find_set_of_ne record apart)
    (fun _ apart => Finset.mem_erase.trans (and_iff_right apart)) ?_
  rw [find_set]
  refine iff_of_false (Finset.notMem_erase _ _) ?_
  rintro ⟨_, ⟨⟩, set⟩
  rw [flag] at set
  cases set

theorem Mirror.erase :
    Mirror ((self.acceptlistRemove address).erase address) := by
  refine mirror_of_device mirror (fun _ apart => self.find_erase_of_ne apart)
    (fun _ apart => Finset.mem_erase.trans (and_iff_right apart)) ?_
  rw [find_erase]
  exact iff_of_false (Finset.notMem_erase _ _) (by rintro ⟨_, ⟨⟩, _⟩)

theorem Mirror.forget (flag : (self.entry address).isInAcceptList = false) :
    Mirror (self.erase address) := by
  refine mirror_of_device mirror (fun _ apart => self.find_erase_of_ne apart)
    (fun _ _ => Iff.rfl) ?_
  rw [find_erase]
  refine iff_of_false (fun listed => ?_) (by rintro ⟨_, ⟨⟩, _⟩)
  have set := (mirror.mem_iff_entry address).mp listed
  rw [flag] at set
  cases set

theorem Mirror.fast : Mirror self.setLeConnectionModeToFast.2 := by
  obtain ⟨params, same⟩ := self.setLeConnectionModeToFast_eq
  rw [same]
  exact mirror

theorem Mirror.slow : Mirror self.setLeConnectionModeToSlow := by
  obtain ⟨params, same⟩ := self.setLeConnectionModeToSlow_eq
  rw [same]
  exact mirror

/-! ## Each operation keeps the mirror -/

section

variable (appId : AppId)

theorem mirror_backgroundConnectAdd (address : Address) (added : Bool) :
    Mirror (self.backgroundConnectAdd appId address added).2 := by
  rw [backgroundConnectAdd]
  split
  · exact mirror
  · split
    · exact mirror.set rfl
    · split
      · exact mirror.add rfl
      · exact mirror

theorem mirror_targetedAnnouncementAdd (address : Address) :
    Mirror (self.backgroundConnectTargetedAnnouncementAdd appId address).2 := by
  rw [backgroundConnectTargetedAnnouncementAdd]
  split
  · exact mirror
  · refine filtering_keeps id ?_
    split
    · exact mirror.drop rfl
    · exact mirror.set rfl

theorem mirror_removeUnconditional (address : Address) :
    Mirror (self.removeUnconditional address).2 := by
  rw [removeUnconditional]
  split
  · exact mirror
  · exact mirror.erase

theorem mirror_backgroundConnectRemove (address : Address) (added : Bool) :
    Mirror (self.backgroundConnectRemove appId address added).2 := by
  rw [backgroundConnectRemove]
  split
  · exact mirror
  case h_2 record found =>
    have entry := entry_of_find found
    dsimp only
    split
    · exact mirror
    · split
      · split
        · exact mirror.add rfl
        · exact mirror.set (by rw [entry])
      · split
        · exact mirror.erase
        case isFalse flag =>
          have forget : Mirror (self.erase address) :=
            mirror.forget (by rw [entry]; exact Bool.eq_false_of_not_eq_true flag)
          split <;> exact forget

theorem mirror_directConnectAdd (address : Address) (added : Bool) :
    Mirror (self.directConnectAdd appId address added).2 := by
  rw [directConnectAdd]
  dsimp only
  split
  · exact mirror
  · split
    · exact mirror.fast.set (by rw [entry_setLeConnectionModeToFast])
    · split
      · exact mirror.fast.add rfl
      · split
        · exact mirror.fast.slow
        · exact mirror.fast

theorem mirror_directConnectRemove (address : Address) :
    Mirror (self.directConnectRemove appId address).2 := by
  rcases self.directConnectRemove_cases appId address with ⟨-, same⟩ |
    ⟨record, left, params, found, -, rfl, ⟨-, same⟩ | ⟨-, -, same⟩ | ⟨-, -, same⟩⟩
  · rw [same]
    exact mirror
  · rw [same]
    exact mirror.set (by rw [entry_of_find found])
  · rw [same]
    exact mirror.erase
  · rw [same]
    exact mirror.drop rfl

end

end

theorem onConnectionComplete_keeps (kept : ∀ self appId, Invariant self →
      Invariant (self.directConnectRemove appId address).2) (holds : Invariant self) :
    Invariant (self.onConnectionComplete address) := by
  have loop : ∀ (rounds : Nat) (self : Manager Address), Invariant self →
      Invariant (removeAllClients address rounds self) := by
    intro rounds
    induction rounds with
    | zero => exact fun _ holds => holds
    | succ rounds ih =>
      intro self holds
      rw [removeAllClients]
      split
      · exact holds
      · split
        · exact ih _ (kept self _ holds)
        · exact holds
  exact loop _ self holds

theorem mirror_onConnectionComplete (mirror : Mirror self) (address : Address) :
    Mirror (self.onConnectionComplete address) :=
  onConnectionComplete_keeps (fun _ appId before => mirror_directConnectRemove before appId address)
    mirror

theorem mirror_onAppDeregistered (mirror : Mirror self) (appId : AppId) :
    Mirror (self.onAppDeregistered appId) := by
  intro address
  rw [mem_acceptList_onAppDeregistered, find_onAppDeregistered, mirror]
  constructor
  · rintro ⟨⟨record, found, flag⟩, connecting⟩
    rw [found]
    exact ⟨_, if_pos (connecting record found), flag⟩
  · rintro ⟨left, kept, flag⟩
    obtain ⟨record, found, same⟩ := Option.bind_eq_some_iff.mp kept
    split at same
    case isTrue connecting =>
      cases same
      refine ⟨⟨record, found, flag⟩, fun other also => ?_⟩
      rw [found] at also
      cases also
      exact connecting
    · cases same

theorem mirror_reset (self : Manager Address) (afterReset : Bool) :
    Mirror (managerCall self (.reset afterReset)) := by
  intro address
  cases afterReset <;>
    exact iff_of_false (Finset.notMem_empty _) (by rintro ⟨_, ⟨⟩, _⟩)

theorem managerCall_mirror (mirror : Mirror self) (operation : Operation Address) :
    Mirror (managerCall self operation) := by
  cases operation with
  | backgroundConnectAdd appId address added =>
    exact mirror_backgroundConnectAdd mirror appId address added
  | backgroundConnectTargetedAnnouncementAdd appId address =>
    exact mirror_targetedAnnouncementAdd mirror appId address
  | backgroundConnectRemove appId address added =>
    exact mirror_backgroundConnectRemove mirror appId address added
  | directConnectAdd appId address added => exact mirror_directConnectAdd mirror appId address added
  | directConnectRemove appId address | directConnectTimeout appId address =>
    exact mirror_directConnectRemove mirror appId address
  | onConnectionComplete address => exact mirror_onConnectionComplete mirror address
  | removeUnconditional address => exact mirror_removeUnconditional mirror address
  | onAppDeregistered appId => exact mirror_onAppDeregistered mirror appId
  | reset afterReset => exact mirror_reset self afterReset

theorem mirror_initial : Mirror (initial : Manager Address) :=
  fun _ => iff_of_false (Finset.notMem_empty _) (by rintro ⟨_, ⟨⟩, _⟩)

/--
After every sequence of operations a device is in the accept list of the controller exactly if
the manager holds a record for it whose flag is set.
-/
theorem accept_list_mirrored (operations : List (Operation Address)) (address : Address) :
    ∃ self, run managerStep .initial operations = some self ∧ (address ∈ self.acceptList ↔
        ∃ record, self.find address = some record ∧ record.isInAcceptList = true) := by
  obtain ⟨self, reached, mirror⟩ := @run_of_along _ _ managerStep (fun _ _ => True) Mirror
    (fun _ operation mirror _ => ⟨_, rfl, managerCall_mirror mirror operation⟩) _ _ mirror_initial
    (along_of_forall (fun _ _ => trivial) _ operations)
  exact ⟨self, reached, mirror address⟩

end BluetoothFormal.Gatt.Legacy.ConnectionManager
