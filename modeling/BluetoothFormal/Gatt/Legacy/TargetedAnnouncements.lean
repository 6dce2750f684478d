import BluetoothFormal.Gatt.Legacy.AcceptListMirror

/-!
# Filtering targeted announcements

Announcements are filtered while some device outside of the accept list is waited for by its
announcements.  The number of these devices is counted anew when an application starts to wait,
and when a record is erased, but other operations change it too.
-/

namespace BluetoothFormal.Gatt.Legacy.ConnectionManager

open Foundation Foundation.Transition Manager AppsConnecting Finset

variable {Address : Type} [DecidableEq Address] {self : Manager Address} {address : Address}

variable {record : AppsConnecting}

section

variable (self)

/-- Filtering is on if it is needed, and off if nobody waits for announcements. -/
def FilteringFits : Prop :=
  ((∃ address record, self.find address = some record ∧ address ∉ self.acceptList ∧
      record.doingTargetedAnnouncementsConn ≠ ∅) → self.filtering = true) ∧
    ((∀ address record, self.find address = some record →
      record.doingTargetedAnnouncementsConn = ∅) → self.filtering = false)

/-- Filtering is on for each device that is waited for by its announcements. -/
def Needed : Prop :=
  ∀ address record, self.find address = some record → record.usesAnnouncements = true →
    self.filtering = true

/-- Nobody waits for announcements. -/
def Silent : Prop :=
  ∀ address record, self.find address = some record → record.doingTargetedAnnouncementsConn = ∅

theorem AppsConnecting.usesAnnouncements_iff :
    record.usesAnnouncements = true ↔
      record.isInAcceptList = false ∧ record.doingTargetedAnnouncementsConn ≠ ∅ := by
  rw [usesAnnouncements, Bool.and_eq_true, Bool.not_eq_true', decide_eq_true_iff]

/-- Filtering as the records need it. -/
def Fits : Prop :=
  Needed self ∧ (Silent self → self.filtering = false)

end

theorem Mirror.filteringFits_iff (mirror : Mirror self) :
    FilteringFits self ↔ Fits self := by
  refine and_congr_left fun _ => ⟨fun on address record found uses => ?_, ?_⟩
  · obtain ⟨flag, announced⟩ := usesAnnouncements_iff.mp uses
    refine on ⟨address, record, found, fun listed => ?_, announced⟩
    rw [mirror.mem_iff_entry, entry_of_find found, flag] at listed
    cases listed
  · rintro needed ⟨address, record, found, outside, announced⟩
    rw [mirror.mem_iff_entry, entry_of_find found, Bool.not_eq_true] at outside
    exact needed address record found (usesAnnouncements_iff.mpr ⟨outside, announced⟩)

theorem Needed.entry (needed : Needed self)
    (uses : (self.entry address).usesAnnouncements = true) : self.filtering = true := by
  cases found : self.find address with
  | none =>
    rw [Manager.entry, found] at uses
    cases uses
  | some record =>
    rw [entry_of_find found] at uses
    exact needed address record found uses

theorem Needed.set (needed : Needed self)
    (here : record.usesAnnouncements = true → self.filtering = true) :
    Needed (self.set address record) := by
  intro other left found uses
  by_cases same : other = address
  · rw [same, find_set] at found
    cases found
    exact here uses
  · rw [self.find_set_of_ne record same] at found
    exact needed other left found uses

theorem Needed.erase (needed : Needed self) : Needed (self.erase address) := by
  intro other left found uses
  by_cases same : other = address
  · rw [same, find_erase] at found
    cases found
  · rw [self.find_erase_of_ne same] at found
    exact needed other left found uses

/-- Nobody waits for the announcements of other devices. -/
def SilentElsewhere (address : Address) (self : Manager Address) : Prop :=
  ∀ other record, other ≠ address → self.find other = some record →
    record.doingTargetedAnnouncementsConn = ∅

theorem silent_iff (address : Address) :
    Silent self ↔ (self.entry address).doingTargetedAnnouncementsConn = ∅ ∧
      SilentElsewhere address self := by
  constructor
  · intro silent
    refine ⟨?_, fun other record _ found => silent other record found⟩
    cases found : self.find address with
    | none => rw [entry, found]; rfl
    | some record => rw [entry_of_find found]; exact silent address record found
  · rintro ⟨here, elsewhere⟩ other record found
    by_cases same : other = address
    · rw [same] at found
      rw [entry_of_find found] at here
      exact here
    · exact elsewhere other record same found

theorem silent_set_iff :
    Silent (self.set address record) ↔ record.doingTargetedAnnouncementsConn = ∅ ∧
      SilentElsewhere address self := by
  rw [silent_iff address, entry_of_find (self.find_set record)]
  refine and_congr_right fun _ => ⟨?_, ?_⟩
  · exact fun elsewhere other left apart found =>
      elsewhere other left apart ((self.find_set_of_ne record apart).trans found)
  · exact fun elsewhere other left apart found =>
      elsewhere other left apart ((self.find_set_of_ne record apart).symm.trans found)

theorem silent_erase_iff : Silent (self.erase address) ↔ SilentElsewhere address self := by
  constructor
  · exact fun silent other left apart found =>
      silent other left ((self.find_erase_of_ne apart).trans found)
  · intro elsewhere other left found
    have apart : other ≠ address := by
      rintro rfl
      rw [find_erase] at found
      cases found
    exact elsewhere other left apart ((self.find_erase_of_ne apart).symm.trans found)

theorem not_silent_set (announced : record.doingTargetedAnnouncementsConn ≠ ∅) :
    ¬Silent (self.set address record) :=
  fun silent => announced (silent_set_iff.mp silent).1

theorem Fits.set (fits : Fits self) {record : AppsConnecting}
    (uses : record.usesAnnouncements = true → (self.entry address).usesAnnouncements = true)
    (same : record.doingTargetedAnnouncementsConn =
      (self.entry address).doingTargetedAnnouncementsConn) :
    Fits (self.set address record) := by
  refine ⟨fits.1.set fun own => fits.1.entry (uses own), fun silent => fits.2 ?_⟩
  rw [silent_set_iff, same] at silent
  exact (silent_iff address).mpr silent

theorem Fits.fast (fits : Fits self) : Fits self.setLeConnectionModeToFast.2 := by
  obtain ⟨params, same⟩ := self.setLeConnectionModeToFast_eq
  rw [same]
  exact fits

theorem Fits.slow (fits : Fits self) : Fits self.setLeConnectionModeToSlow := by
  obtain ⟨params, same⟩ := self.setLeConnectionModeToSlow_eq
  rw [same]
  exact fits

theorem users_pos (found : self.find address = some record)
    (uses : record.usesAnnouncements = true) : 0 < self.numOfTargetedAnnouncementsUsers :=
  List.countP_pos_iff.mpr ⟨(address, record), mem_bgconnDev.mpr found, uses⟩

theorem exists_other_user
    (several : 1 < (self.set address record).numOfTargetedAnnouncementsUsers) :
    ∃ other left, self.find other = some left ∧ left.usesAnnouncements = true := by
  have bound := KeyedList.countP_le_remove (self.set address record).distinct address
    fun entry => entry.2.usesAnnouncements
  have others : 0 < (self.erase address).numOfTargetedAnnouncementsUsers := by
    rw [← self.erase_set record]
    exact Nat.lt_of_lt_of_le (Nat.sub_pos_of_lt several) (Nat.sub_le_of_le_add bound)
  obtain ⟨⟨other, left⟩, listed, uses⟩ := List.countP_pos_iff.mp others
  have found := mem_bgconnDev.mp listed
  have apart : other ≠ address := by
    rintro rfl
    rw [find_erase] at found
    cases found
  exact ⟨other, left, (self.find_erase_of_ne apart).symm.trans found, uses⟩

section

variable (fits : Fits self) (appId : AppId) (address : Address)
include fits

theorem fits_backgroundConnectAdd (added : Bool) :
    Fits (self.backgroundConnectAdd appId address added).2 := by
  rw [backgroundConnectAdd]
  split
  · exact fits
  · split
    · exact fits.set id rfl
    · split
      · refine Fits.set fits (fun uses => ?_) rfl
        exact absurd (usesAnnouncements_iff.mp uses).1 Bool.true_eq_false.mp
      · exact fits

theorem fits_targetedAnnouncementAdd :
    Fits (self.backgroundConnectTargetedAnnouncementAdd appId address).2 := by
  have inserted : ∀ (self : Manager Address) (record : AppsConnecting), Needed self →
      record.doingTargetedAnnouncementsConn ≠ ∅ →
      Fits (if (self.set address record).numOfTargetedAnnouncementsUsers = 1 then
        (self.set address record).targetAnnouncementsFilteringSet true
        else self.set address record) := by
    intro self record needed announced
    split
    case isTrue =>
      exact ⟨fun _ _ _ _ => rfl, fun silent => absurd silent (not_silent_set announced)⟩
    case isFalse several =>
      refine ⟨fun other left found uses => ?_, fun silent => absurd silent (not_silent_set announced)⟩
      have many : 1 < (self.set address record).numOfTargetedAnnouncementsUsers :=
        Nat.lt_of_le_of_ne (users_pos found uses) (Ne.symm several)
      obtain ⟨user, kept, before, also⟩ := exists_other_user many
      exact needed user kept before also
  rw [backgroundConnectTargetedAnnouncementAdd]
  dsimp only
  split
  · exact fits
  · split <;> exact inserted _ _ fits.1 (insert_ne_empty _ _)

theorem fits_directConnectAdd (added : Bool) :
    Fits (self.directConnectAdd appId address added).2 := by
  have entry := @entry_setLeConnectionModeToFast _ _ self address
  rw [directConnectAdd]
  dsimp only
  split
  · exact fits
  · split
    · exact fits.fast.set (fun uses => by rw [entry]; exact uses) (by rw [entry])
    · split
      · refine Fits.set fits.fast (fun uses => ?_) (by rw [entry])
        exact absurd (usesAnnouncements_iff.mp uses).1 Bool.true_eq_false.mp
      · split
        · exact fits.fast.slow
        · exact fits.fast

end

/-- Somebody else waits for announcements, of this device or another one. -/
def OthersAnnounced (self : Manager Address) (appId : AppId) (address : Address) : Prop :=
  (self.entry address).doingTargetedAnnouncementsConn.erase appId ≠ ∅ ∨
    ∃ other record, other ≠ address ∧ self.find other = some record ∧
      record.doingTargetedAnnouncementsConn ≠ ∅

theorem not_othersAnnounced_iff {appId : AppId} :
    ¬OthersAnnounced self appId address ↔
      (self.entry address).doingTargetedAnnouncementsConn.erase appId = ∅ ∧
        SilentElsewhere address self := by
  rw [OthersAnnounced, not_or, not_not]
  refine and_congr_right fun _ => ⟨fun none other record apart found => ?_, ?_⟩
  · exact not_not.mp fun announced => none ⟨other, record, apart, found, announced⟩
  · rintro silent ⟨other, record, apart, found, announced⟩
    exact announced (silent other record apart found)

/--
The last application that waits for announcements stops only while filtering is off, and the
last direct connection to a device that is waited for ends only while it is on.
-/
def FilterFollows (self : Manager Address) : Operation Address → Prop
  | .backgroundConnectRemove appId address _ =>
    appId ∈ (self.entry address).doingTargetedAnnouncementsConn →
      self.filtering = false ∨ OthersAnnounced self appId address
  | .directConnectRemove appId address =>
    (self.entry address).doingDirectConn = {appId} →
      (self.entry address).doingTargetedAnnouncementsConn ≠ ∅ → self.filtering = true
  | _ => True

theorem fits_directConnectRemove_iff (fits : Fits self) (appId : AppId) (address : Address) :
    Fits (self.directConnectRemove appId address).2 ↔
      FilterFollows self (.directConnectRemove appId address) := by
  rcases self.directConnectRemove_cases appId address with ⟨idle, same⟩ |
    ⟨record, left, params, found, doing, rfl, kept⟩
  · rw [same]
    refine iff_of_true fits fun single => ?_
    cases found : self.find address with
    | none =>
      rw [entry, found] at single
      exact absurd (mem_singleton_self appId) (single ▸ notMem_empty _)
    | some record =>
      rw [entry_of_find found] at single
      exact absurd (mem_singleton_self appId) (single ▸ idle record found)
  have entry := entry_of_find found
  rcases kept with ⟨interested, same⟩ | ⟨-, silent, same⟩ | ⟨idle, announced, same⟩
  · rw [same]
    refine iff_of_true (fits.set (by rw [entry]; exact id) (by rw [entry])) ?_
    intro single announced
    rw [entry] at single announced
    rw [isAnyoneInterested, if_pos announced, single] at interested
    exact absurd (erase_singleton appId) (of_decide_eq_true interested)
  · rw [same]
    refine iff_of_true ⟨Needed.erase fits.1, fun quiet => fits.2 ?_⟩ ?_
    · refine (silent_iff address).mpr ⟨?_, silent_erase_iff.mp quiet⟩
      rw [entry]
      exact silent
    · intro _ announced
      rw [entry] at announced
      exact absurd silent announced
  · rw [same]
    have single : record.doingDirectConn = {appId} := by
      rw [isAnyoneInterested, if_pos announced] at idle
      have none : record.doingDirectConn.erase appId = ∅ := not_not.mp (of_decide_eq_false idle)
      rw [← insert_erase doing, none]
      rfl
    constructor
    · intro after _ _
      refine after.1 address _ (self.find_set _) ?_
      exact usesAnnouncements_iff.mpr ⟨rfl, announced⟩
    · intro follows
      have on : self.filtering = true := follows (by rw [entry]; exact single)
        (by rw [entry]; exact announced)
      exact ⟨Needed.set fits.1 fun _ => on, fun silent => absurd silent (not_silent_set announced)⟩

theorem silent_backgroundConnectRemove_iff (appId : AppId) (address : Address) (added : Bool) :
    Silent (self.backgroundConnectRemove appId address added).2 ↔
      ¬OthersAnnounced self appId address := by
  rw [not_othersAnnounced_iff, backgroundConnectRemove]
  split
  case h_1 missing =>
    refine (silent_iff address).trans (and_congr_left fun _ => ?_)
    rw [entry, missing]
    exact iff_of_true rfl rfl
  case h_2 record found =>
    rw [entry_of_find found]
    dsimp only
    split
    case isTrue absent =>
      refine (silent_iff address).trans (and_congr_left fun _ => ?_)
      rw [entry_of_find found, erase_eq_of_notMem absent.2]
    case isFalse =>
      split
      · split <;> exact silent_set_iff
      case isFalse ended =>
        have none : record.doingTargetedAnnouncementsConn.erase appId = ∅ := by
          rw [isAnyoneConnecting, decide_eq_true_iff, not_or, not_or] at ended
          exact not_not.mp ended.2.2
        refine Iff.trans ?_ (and_iff_right none).symm
        split
        · exact silent_erase_iff
        · split <;> exact silent_erase_iff

section

variable (needed : Needed self) (appId : AppId) (address : Address) (added : Bool)
include needed

theorem filtering_backgroundConnectRemove :
    (self.backgroundConnectRemove appId address added).2.filtering = self.filtering := by
  rw [backgroundConnectRemove]
  split
  · rfl
  case h_2 record found =>
    dsimp only
    split
    · rfl
    · split
      · split <;> rfl
      · split
        · rfl
        case isFalse flag =>
          split
          case isTrue last =>
            refine (needed address record found ?_).symm
            exact usesAnnouncements_iff.mpr ⟨Bool.eq_false_of_not_eq_true flag,
              card_ne_zero.mp (Nat.ne_zero_of_lt last.1) |>.ne_empty⟩
          · rfl

theorem needed_backgroundConnectRemove :
    Needed (self.backgroundConnectRemove appId address added).2 := by
  rw [backgroundConnectRemove]
  split
  · exact needed
  case h_2 record found =>
    dsimp only
    split
    · exact needed
    · split
      · split
        · refine Needed.set needed fun uses => ?_
          exact absurd (usesAnnouncements_iff.mp uses).1 Bool.true_eq_false.mp
        · refine needed.set fun uses => needed address record found ?_
          obtain ⟨flag, announced⟩ := usesAnnouncements_iff.mp uses
          refine usesAnnouncements_iff.mpr ⟨flag, fun none => announced ?_⟩
          rw [none, erase_empty]
      · split
        · exact Needed.erase needed
        · split
          · exact fun _ _ _ _ => rfl
          · exact needed.erase

end

theorem fits_backgroundConnectRemove_iff (fits : Fits self) (appId : AppId) (address : Address)
    (added : Bool) :
    Fits (self.backgroundConnectRemove appId address added).2 ↔
      FilterFollows self (.backgroundConnectRemove appId address added) := by
  rw [Fits, silent_backgroundConnectRemove_iff, filtering_backgroundConnectRemove fits.1]
  refine (and_iff_right (needed_backgroundConnectRemove fits.1 appId address added)).trans ?_
  constructor
  · intro off _
    exact or_iff_not_imp_right.mpr off
  · intro follows none
    by_cases announced : appId ∈ (self.entry address).doingTargetedAnnouncementsConn
    · exact (follows announced).resolve_right none
    · obtain ⟨here, elsewhere⟩ := not_othersAnnounced_iff.mp none
      rw [erase_eq_of_notMem announced] at here
      exact fits.2 ((silent_iff address).mpr ⟨here, elsewhere⟩)

/-- The operations that applications ask for. -/
def Operation.Requested : Operation Address → Bool
  | .backgroundConnectAdd _ _ _ => true
  | .backgroundConnectTargetedAnnouncementAdd _ _ => true
  | .backgroundConnectRemove _ _ _ => true
  | .directConnectAdd _ _ _ => true
  | .directConnectRemove _ _ => true
  | _ => false

theorem managerCall_fits_iff (fits : Fits self) {operation : Operation Address}
    (requested : operation.Requested = true) :
    Fits (managerCall self operation) ↔ FilterFollows self operation := by
  cases operation with
  | backgroundConnectAdd appId address added =>
    exact iff_of_true (fits_backgroundConnectAdd fits appId address added) trivial
  | backgroundConnectTargetedAnnouncementAdd appId address =>
    exact iff_of_true (fits_targetedAnnouncementAdd fits appId address) trivial
  | backgroundConnectRemove appId address added =>
    exact fits_backgroundConnectRemove_iff fits appId address added
  | directConnectAdd appId address added =>
    exact iff_of_true (fits_directConnectAdd fits appId address added) trivial
  | directConnectRemove appId address => exact fits_directConnectRemove_iff fits appId address
  | directConnectTimeout | onConnectionComplete | removeUnconditional | onAppDeregistered | reset =>
    cases requested

theorem fits_initial : Fits (initial : Manager Address) := by
  refine ⟨fun _ _ found => ?_, fun _ => rfl⟩
  cases found

/-- Filtering fits after each operation exactly if it is where it should be before each removal. -/
theorem filtering_fits_iff {operations : List (Operation Address)}
    (requested : ∀ operation ∈ operations, operation.Requested = true) :
    (∀ earlier, earlier <+: operations → ∀ self, run managerStep .initial earlier = some self →
      FilteringFits self) ↔ Along managerStep FilterFollows .initial operations := by
  have mirrored : ∀ earlier self, run managerStep .initial earlier = some self →
      Mirror (self : Manager Address) := fun earlier self reached =>
    invariant_run (fun _ operation _ mirror taken => by
      cases taken
      exact managerCall_mirror mirror operation) mirror_initial reached
  have asked : ∀ earlier operation, earlier ++ [operation] <+: operations →
      operation.Requested = true := fun earlier operation part =>
    requested operation (part.subset (List.mem_append_right _ List.mem_cons_self))
  rw [along_iff_steps]
  constructor
  · intro always earlier operation part self reached
    have after : run managerStep .initial (earlier ++ [operation]) =
        some (managerCall self operation) := by
      rw [run_append, reached]
      rfl
    have before := always earlier ((List.prefix_append _ _).trans part) self reached
    have fits := (mirrored _ _ reached).filteringFits_iff.mp before
    refine (managerCall_fits_iff fits (asked earlier operation part)).mp ?_
    exact (mirrored _ _ after).filteringFits_iff.mp (always _ part _ after)
  · rintro steps earlier ⟨later, rfl⟩ self reached
    have guarded : Along managerStep
        (fun self operation => FilterFollows self operation ∧ operation.Requested = true)
        .initial earlier := by
      refine along_iff_steps.mpr fun first operation part before ran => ?_
      have whole := part.trans (List.prefix_append earlier later)
      exact ⟨steps first operation whole before ran, asked first operation whole⟩
    refine (mirrored _ _ reached).filteringFits_iff.mpr (invariant_along
      (fun before operation next fits follows taken => ?_) fits_initial guarded reached)
    cases taken
    exact (managerCall_fits_iff fits follows.2).mpr follows.1

/-- A device that announces itself is connected to directly, and waited for again. -/
def announcedOperations : List (Operation Nat) :=
  [.backgroundConnectTargetedAnnouncementAdd 2 7, .directConnectAdd 2 7 true,
    .directConnectRemove 2 7]

theorem filtering_fits_announced :
    FilteringFits ((run managerStep .initial announcedOperations).getD .initial) := by
  have follows : Along managerStep FilterFollows .initial announcedOperations :=
    ⟨trivial, trivial, fun _ _ => rfl, trivial⟩
  exact (filtering_fits_iff (by decide)).mpr follows announcedOperations (List.prefix_refl _) _ rfl

/--
Filtering is set again when nobody waits any longer; it stays on when the last one that waits
leaves a device to the accept list; and it stays off when a direct connection ends.
-/
theorem filtering_does_not_follow :
    (∃ self, run managerStep (.initial : Manager Nat)
      [.backgroundConnectTargetedAnnouncementAdd 1 7, .backgroundConnectRemove 1 7 true] =
        some self ∧ ¬FilteringFits self) ∧
    (∃ self, run managerStep (.initial : Manager Nat)
      [.backgroundConnectTargetedAnnouncementAdd 1 7, .backgroundConnectAdd 2 7 true,
        .backgroundConnectRemove 1 7 true] = some self ∧ ¬FilteringFits self) ∧
    ∃ self, run managerStep (.initial : Manager Nat)
      [.directConnectAdd 1 7 true, .backgroundConnectTargetedAnnouncementAdd 2 7,
        .directConnectRemove 1 7] = some self ∧ ¬FilteringFits self := by
  refine ⟨⟨_, rfl, fun fits => ?_⟩, ⟨_, rfl, fun fits => ?_⟩, _, rfl, fun fits => ?_⟩
  · exact absurd (fits.2 fun address record found => by cases found) (by decide)
  · refine absurd (fits.2 fun address record found => ?_) (by decide)
    have listed := KeyedList.mem_of_lookup found
    cases List.mem_singleton.mp listed
    rfl
  · exact absurd (fits.1 ⟨7, ⟨∅, {2}, false, ∅⟩, by decide, by decide, by decide⟩) (by decide)

end BluetoothFormal.Gatt.Legacy.ConnectionManager
