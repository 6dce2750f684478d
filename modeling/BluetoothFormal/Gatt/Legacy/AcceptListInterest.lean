import BluetoothFormal.Gatt.Legacy.AcceptListMirror

/-!
# Why a device is in the accept list

A device is kept in the accept list for an application that connects to it directly, or in the
background while nobody waits for its announcements.  The operations keep this, except that an
application that is deregistered leaves its announcements behind.
-/

namespace BluetoothFormal.Gatt.Legacy.ConnectionManager

open Foundation.Transition Manager

variable {Address : Type} [DecidableEq Address] {self : Manager Address} {address : Address}

/-- Somebody needs the accept list. -/
def AppsConnecting.Interested (record : AppsConnecting) : Prop :=
  record.doingDirectConn ≠ ∅ ∨ (record.doingBgConn ≠ ∅ ∧ record.doingTargetedAnnouncementsConn = ∅)

variable {record : AppsConnecting} {appId : AppId}

theorem AppsConnecting.isAnyoneInterested_iff :
    record.isAnyoneInterested = true ↔ record.Interested := by
  rw [isAnyoneInterested, Interested]
  split
  case isTrue announced =>
    rw [decide_eq_true_iff]
    exact ⟨.inl, fun either => either.resolve_right fun both => announced both.2⟩
  case isFalse silent =>
    rw [decide_eq_true_iff, or_comm]
    exact or_congr_right ⟨fun background => ⟨background, not_not.mp silent⟩, And.left⟩

/-- Each device whose flag is set is needed in the accept list. -/
def Interest (self : Manager Address) : Prop :=
  ∀ address record, self.find address = some record → record.isInAcceptList = true →
    record.Interested

section

variable (interest : Interest self)
include interest

theorem Interest.entry (flag : (self.entry address).isInAcceptList = true) :
    (self.entry address).Interested := by
  cases found : self.find address with
  | none =>
    rw [Manager.entry, found] at flag
    cases flag
  | some record =>
    rw [entry_of_find found] at flag ⊢
    exact interest address record found flag

theorem Interest.set (needed : record.isInAcceptList = true → record.Interested) :
    Interest (self.set address record) := by
  intro other left found flag
  by_cases same : other = address
  · rw [same, find_set] at found
    cases found
    exact needed flag
  · rw [self.find_set_of_ne record same] at found
    exact interest other left found flag

theorem Interest.erase : Interest (self.erase address) := by
  intro other left found flag
  by_cases same : other = address
  · rw [same, find_erase] at found
    cases found
  · rw [self.find_erase_of_ne same] at found
    exact interest other left found flag

theorem Interest.fast :
    Interest self.setLeConnectionModeToFast.2 := by
  obtain ⟨params, same⟩ := self.setLeConnectionModeToFast_eq
  rw [same]
  exact interest

theorem Interest.slow :
    Interest self.setLeConnectionModeToSlow := by
  obtain ⟨params, same⟩ := self.setLeConnectionModeToSlow_eq
  rw [same]
  exact interest

section

variable (appId : AppId)

theorem interest_backgroundConnectAdd (address : Address) (added : Bool) :
    Interest (self.backgroundConnectAdd appId address added).2 := by
  rw [backgroundConnectAdd]
  split
  · exact interest
  · split
    · refine interest.set fun flag => ?_
      exact (interest.entry flag).imp_right fun both =>
        ⟨Finset.insert_ne_empty _ _, both.2⟩
    case isFalse free =>
      have silent := not_not.mp (not_or.mp free).2
      split
      · exact Interest.set interest fun _ => .inr ⟨Finset.insert_ne_empty _ _, silent⟩
      · exact interest

theorem interest_targetedAnnouncementAdd (address : Address) :
    Interest (self.backgroundConnectTargetedAnnouncementAdd appId address).2 := by
  rw [backgroundConnectTargetedAnnouncementAdd]
  split
  · exact interest
  · refine filtering_keeps id ?_
    split
    case isTrue => exact Interest.set interest fun flag => absurd flag Bool.false_ne_true
    case isFalse keep =>
      refine Interest.set interest fun flag => ?_
      -- a device in the accept list that is not taken from it is connected directly
      rcases interest.entry flag with direct | ⟨background, silent⟩
      · exact .inl direct
      · refine .inl fun none => keep (decide_eq_true ⟨none, silent, background⟩)

theorem interest_removeUnconditional (address : Address) :
    Interest (self.removeUnconditional address).2 := by
  rw [removeUnconditional]
  split
  · exact interest
  · exact Interest.erase interest

theorem interest_backgroundConnectRemove (address : Address) (added : Bool) :
    Interest (self.backgroundConnectRemove appId address added).2 := by
  rw [backgroundConnectRemove]
  split
  · exact interest
  case h_2 record found =>
    dsimp only
    split
    · exact interest
    · split
      case isTrue connecting =>
        split
        case isTrue unused =>
          exact Interest.set interest fun _ => .inr ⟨unused.2.2.1, unused.2.1⟩
        case isFalse =>
          refine Interest.set interest fun flag => ?_
          rcases interest address record found flag with direct | ⟨-, silent⟩
          · exact .inl direct
          · -- without announcements and direct connections, another background one is left
            have silent : record.doingTargetedAnnouncementsConn.erase appId = ∅ := by
              rw [silent, Finset.erase_empty]
            rcases of_decide_eq_true connecting with background | direct | announced
            · exact .inr ⟨background, silent⟩
            · exact .inl direct
            · exact absurd silent announced
      case isFalse =>
        split
        · exact Interest.erase interest
        · split <;> exact Interest.erase interest

theorem interest_directConnectAdd (address : Address) (added : Bool) :
    Interest (self.directConnectAdd appId address added).2 := by
  rw [directConnectAdd]
  dsimp only
  split
  · exact interest
  · split
    · exact interest.fast.set fun _ => .inl (Finset.insert_ne_empty _ _)
    · split
      · exact Interest.set interest.fast fun _ => .inl (Finset.insert_ne_empty _ _)
      · split
        · exact interest.fast.slow
        · exact interest.fast

theorem interest_directConnectRemove (address : Address) :
    Interest (self.directConnectRemove appId address).2 := by
  rcases self.directConnectRemove_cases appId address with ⟨-, same⟩ |
    ⟨record, left, params, -, -, -, ⟨interested, same⟩ | ⟨-, -, same⟩ | ⟨-, -, same⟩⟩
  · rw [same]
    exact interest
  · rw [same]
    exact interest.set fun _ => AppsConnecting.isAnyoneInterested_iff.mp interested
  · rw [same]
    exact Interest.erase interest
  · rw [same]
    exact Interest.set interest fun flag => absurd flag Bool.false_ne_true

end

end

/-- No record mentions an application. -/
def Unmentioned (appId : AppId) (self : Manager Address) : Prop :=
  ∀ address record, self.find address = some record →
    appId ∉ record.doingBgConn ∧ appId ∉ record.doingTargetedAnnouncementsConn ∧
      appId ∉ record.doingDirectConn

/--
An application that is deregistered waits for no announcements, and does not leave a device in
the accept list to the announcements that others wait for.
-/
def Departs (self : Manager Address) : Operation Address → Prop
  | .onAppDeregistered appId => ∀ address record, self.find address = some record →
      appId ∉ record.doingTargetedAnnouncementsConn ∧
        (record.isInAcceptList = true → record.doingTargetedAnnouncementsConn ≠ ∅ →
          record.doingDirectConn.erase appId ≠ ∅)
  | _ => True

theorem find_deregistered_iff {left : AppsConnecting} :
    (self.onAppDeregistered appId).find address = some left ↔
      ∃ record, self.find address = some record ∧ left = deregistered appId record ∧
        left.isAnyoneConnecting = true := by
  rw [find_onAppDeregistered, Option.bind_eq_some_iff]
  refine exists_congr fun record => and_congr_right fun _ => ?_
  constructor
  · intro same
    split at same
    case isTrue connecting =>
      cases same
      exact ⟨rfl, connecting⟩
    · cases same
  · rintro ⟨rfl, connecting⟩
    exact if_pos connecting

theorem unmentioned_iff :
    Unmentioned appId (self.onAppDeregistered appId) ↔
      ∀ address record, self.find address = some record →
        appId ∉ record.doingTargetedAnnouncementsConn := by
  constructor
  · intro unmentioned address record found announced
    have connecting : (deregistered appId record).isAnyoneConnecting = true :=
      decide_eq_true (.inr (.inr (Finset.ne_empty_of_mem announced)))
    exact (unmentioned address _ (find_deregistered_iff.mpr ⟨record, found, rfl, connecting⟩)).2.1
      announced
  · intro silent address left found
    obtain ⟨record, before, rfl, -⟩ := find_deregistered_iff.mp found
    exact ⟨Finset.notMem_erase _ _, silent address record before, Finset.notMem_erase _ _⟩

theorem interest_onAppDeregistered_iff :
    Interest (self.onAppDeregistered appId) ↔
      ∀ address record, self.find address = some record → record.isInAcceptList = true →
        record.doingTargetedAnnouncementsConn ≠ ∅ → record.doingDirectConn.erase appId ≠ ∅ := by
  constructor
  · intro after address record found flag announced
    have connecting : (deregistered appId record).isAnyoneConnecting = true :=
      decide_eq_true (.inr (.inr announced))
    exact (after address _ (find_deregistered_iff.mpr ⟨record, found, rfl, connecting⟩)
      flag).resolve_right fun both => announced both.2
  · intro others address left found flag
    obtain ⟨record, before, rfl, connecting⟩ := find_deregistered_iff.mp found
    by_cases announced : record.doingTargetedAnnouncementsConn = ∅
    · rcases of_decide_eq_true connecting with background | direct | more
      · exact .inr ⟨background, announced⟩
      · exact .inl direct
      · exact absurd announced more
    · exact .inl (others address record before flag announced)

theorem managerCall_interest (interest : Interest self) {operation : Operation Address}
    (departs : Departs self operation) : Interest (managerCall self operation) := by
  cases operation with
  | backgroundConnectAdd appId address added =>
    exact interest_backgroundConnectAdd interest appId address added
  | backgroundConnectTargetedAnnouncementAdd appId address =>
    exact interest_targetedAnnouncementAdd interest appId address
  | backgroundConnectRemove appId address added =>
    exact interest_backgroundConnectRemove interest appId address added
  | directConnectAdd appId address added =>
    exact interest_directConnectAdd interest appId address added
  | directConnectRemove appId address | directConnectTimeout appId address =>
    exact interest_directConnectRemove interest appId address
  | onConnectionComplete address =>
    exact onConnectionComplete_keeps
      (fun _ appId before => interest_directConnectRemove before appId address) interest
  | removeUnconditional address => exact interest_removeUnconditional interest address
  | onAppDeregistered appId =>
    exact interest_onAppDeregistered_iff.mpr fun address record found =>
      (departs address record found).2
  | reset afterReset =>
    intro address record found
    cases afterReset <;> cases found

theorem interest_initial : Interest (initial : Manager Address) :=
  fun _ _ found => by cases found

/--
Every device in the accept list is needed there after each operation, and no record mentions an
application after it is deregistered, exactly if the applications that are deregistered leave no
announcements behind.
-/
theorem accept_list_needed_iff (operations : List (Operation Address)) :
    ((∀ earlier, earlier <+: operations → ∀ self, run managerStep .initial earlier = some self →
        Interest self) ∧
      ∀ earlier appId, earlier ++ [.onAppDeregistered appId] <+: operations → ∀ self,
        run managerStep .initial (earlier ++ [.onAppDeregistered appId]) = some self →
          Unmentioned appId self) ↔ Along managerStep Departs .initial operations := by
  constructor
  · rintro ⟨interests, unmentioned⟩
    refine along_iff_steps.mpr fun earlier operation part self reached => ?_
    cases operation with
    | onAppDeregistered appId =>
      have after : run managerStep .initial (earlier ++ [.onAppDeregistered appId]) =
          some (self.onAppDeregistered appId) := by
        rw [run_append, reached]
        rfl
      have silent := unmentioned_iff.mp (unmentioned earlier appId part _ after)
      have needed := interest_onAppDeregistered_iff.mp (interests _ part _ after)
      exact fun address record found =>
        ⟨silent address record found, needed address record found⟩
    | _ => trivial
  · intro departs
    have steps := along_iff_steps.mp departs
    have interests : ∀ earlier, earlier <+: operations → ∀ self,
        run managerStep .initial earlier = some self → Interest self := by
      rintro earlier ⟨later, rfl⟩ self reached
      have departed : Along managerStep Departs .initial earlier := along_iff_steps.mpr
        fun first operation part => steps first operation (part.trans (List.prefix_append _ _))
      refine invariant_along (fun before operation next interest departs taken => ?_)
        interest_initial departed reached
      cases taken
      exact managerCall_interest interest departs
    refine ⟨interests, fun earlier appId part self reached => ?_⟩
    rw [run_append] at reached
    obtain ⟨before, ran, taken⟩ := Option.bind_eq_some_iff.mp reached
    rw [run_singleton] at taken
    cases taken
    exact unmentioned_iff.mpr fun address record found =>
      (steps earlier _ part before ran address record found).1

/--
An application that is deregistered stays in the record of a device whose announcements it
waited for; and when it connected directly to a device whose announcements another one waits
for, the device stays in the accept list.
-/
theorem announcements_left_behind :
    (∃ self, run managerStep (.initial : Manager Nat)
      [.backgroundConnectTargetedAnnouncementAdd 1 7, .onAppDeregistered 1] = some self ∧
        ¬Unmentioned 1 self) ∧
    ∃ self, run managerStep (.initial : Manager Nat)
      [.directConnectAdd 1 7 true, .backgroundConnectTargetedAnnouncementAdd 2 7,
        .onAppDeregistered 1] = some self ∧ ¬Interest self := by
  refine ⟨⟨_, rfl, fun unmentioned => ?_⟩, _, rfl, fun interest => ?_⟩
  · exact absurd (unmentioned 7 ⟨∅, {1}, false, ∅⟩ (by decide)) (by decide)
  · have needed := interest 7 ⟨∅, {2}, true, ∅⟩ (by decide) rfl
    exact absurd (AppsConnecting.isAnyoneInterested_iff.mpr needed) (by decide)

end BluetoothFormal.Gatt.Legacy.ConnectionManager
