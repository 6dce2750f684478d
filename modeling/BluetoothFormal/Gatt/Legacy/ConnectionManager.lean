import BluetoothFormal.Foundation.KeyedList
import BluetoothFormal.Foundation.Transition
import Mathlib.Data.Finset.Max
import Mathlib.Data.Finset.SDiff

/-!
# The connection manager

Applications ask for connections to devices: in the background, when a device announces itself
to them, or directly.  The manager keeps one record for each device and mirrors in it whether
the device is in the accept list of the controller.
-/

namespace BluetoothFormal.Gatt.Legacy.ConnectionManager

open Foundation KeyedList

abbrev AppId := Nat

/-- `tAPPS_CONNECTING`; of a direct connection, the timer is left out. -/
structure AppsConnecting where
  doingBgConn : Finset AppId
  doingTargetedAnnouncementsConn : Finset AppId
  isInAcceptList : Bool
  doingDirectConn : Finset AppId
  deriving DecidableEq

namespace AppsConnecting

/-- A record as it is constructed. -/
def new : AppsConnecting := ⟨∅, ∅, false, ∅⟩

section

variable (record : AppsConnecting)

/-- `is_anyone_interested_to_use_accept_list`. -/
def isAnyoneInterested : Bool :=
  if record.doingTargetedAnnouncementsConn ≠ ∅ then record.doingDirectConn ≠ ∅
  else decide (record.doingBgConn ≠ ∅ ∨ record.doingDirectConn ≠ ∅)

def isAnyoneConnecting : Bool :=
  decide (record.doingBgConn ≠ ∅ ∨ record.doingDirectConn ≠ ∅ ∨
    record.doingTargetedAnnouncementsConn ≠ ∅)

/-- A device that is waited for by its announcements. -/
def usesAnnouncements : Bool :=
  !record.isInAcceptList && decide (record.doingTargetedAnnouncementsConn ≠ ∅)

end

end AppsConnecting

inductive ScanParams where
  | undefined
  | slow
  | fast
  | other
  deriving DecidableEq

/-- The records of the manager, with what it has set outside of itself. -/
structure Manager (Address : Type) [DecidableEq Address] where
  bgconnDev : List (Address × AppsConnecting)
  distinct : (keys bgconnDev).Nodup
  /-- The accept list of the controller. -/
  acceptList : Finset Address
  /-- Whether targeted announcements are filtered. -/
  filtering : Bool
  scanParams : ScanParams

namespace Manager

variable {Address : Type} [DecidableEq Address]

/-- A manager without records. -/
def initial : Manager Address := ⟨[], List.nodup_nil, ∅, false, .undefined⟩

section

variable (self : Manager Address)

section

variable (address : Address)

def find : Option AppsConnecting :=
  lookup address self.bgconnDev

/-- `bgconn_dev[address]`: a device without a record has no applications. -/
def entry : AppsConnecting :=
  (self.find address).getD .new

def set (record : AppsConnecting) : Manager Address :=
  { self with
    bgconnDev := put address record self.bgconnDev
    distinct := nodup_put self.distinct address record }

def erase : Manager Address :=
  { self with
    bgconnDev := remove address self.bgconnDev
    distinct := nodup_remove self.distinct address }

/-- `BTM_AcceptlistAdd`, when it succeeds. -/
def acceptlistAdd : Manager Address :=
  { self with acceptList := insert address self.acceptList }

def acceptlistRemove : Manager Address :=
  { self with acceptList := self.acceptList.erase address }

def acceptlistClear : Manager Address :=
  { self with acceptList := ∅ }

def targetAnnouncementsFilteringSet (enable : Bool) : Manager Address :=
  { self with filtering := enable }

def setScanParams (params : ScanParams) : Manager Address :=
  { self with scanParams := params }

/-- `BTM_SetLeConnectionModeToFast`: whether the parameters change. -/
def setLeConnectionModeToFast : Bool × Manager Address :=
  if self.scanParams = .undefined ∨ self.scanParams = .slow then
    (true, self.setScanParams .fast)
  else (false, self)

def setLeConnectionModeToSlow : Manager Address :=
  if self.scanParams = .undefined ∨ self.scanParams = .fast then
    self.setScanParams .slow
  else self

def numOfTargetedAnnouncementsUsers : Nat :=
  self.bgconnDev.countP fun entry => entry.2.usesAnnouncements

def backgroundConnectTargetedAnnouncementAdd (appId : AppId) (address : Address) :
    Bool × Manager Address :=
  let record := self.entry address
  if appId ∈ record.doingTargetedAnnouncementsConn then (true, self)
  else
    -- a device that is connected in the background is taken from the accept list
    let disableAcceptList := decide (record.doingDirectConn = ∅ ∧
      record.doingTargetedAnnouncementsConn = ∅ ∧ record.doingBgConn ≠ ∅)
    let self := if disableAcceptList then self.acceptlistRemove address else self
    let self := self.set address
      { record with
        isInAcceptList := if disableAcceptList then false else record.isInAcceptList
        doingTargetedAnnouncementsConn := insert appId record.doingTargetedAnnouncementsConn }
    (true, if self.numOfTargetedAnnouncementsUsers = 1 then
        self.targetAnnouncementsFilteringSet true
      else self)

/-- The last argument is the answer of `BTM_AcceptlistAdd`. -/
def backgroundConnectAdd (appId : AppId) (address : Address) (added : Bool) :
    Bool × Manager Address :=
  let record := self.entry address
  if appId ∈ record.doingBgConn then (true, self)
  else if record.isInAcceptList ∨ record.doingTargetedAnnouncementsConn ≠ ∅ then
    (true, self.set address { record with doingBgConn := insert appId record.doingBgConn })
  else if added then
    (true, (self.acceptlistAdd address).set address
      { record with isInAcceptList := true, doingBgConn := insert appId record.doingBgConn })
  else (false, self)

def removeUnconditional : Bool × Manager Address :=
  match self.find address with
  | none => (false, self)
  | some _ => (true, (self.acceptlistRemove address).erase address)

end

section

variable (appId : AppId)

/-- The last argument is the answer of `BTM_AcceptlistAdd`. -/
def backgroundConnectRemove (address : Address) (added : Bool) : Bool × Manager Address :=
  match self.find address with
  | none => (false, self)
  | some record =>
    if appId ∉ record.doingBgConn ∧ appId ∉ record.doingTargetedAnnouncementsConn then
      (false, self)
    else
      let left := { record with
        doingBgConn := record.doingBgConn.erase appId
        doingTargetedAnnouncementsConn := record.doingTargetedAnnouncementsConn.erase appId }
      if left.isAnyoneConnecting then
        -- a device that is no longer waited for by announcements goes to the accept list
        if record.isInAcceptList = false ∧ left.doingTargetedAnnouncementsConn = ∅ ∧
            left.doingBgConn ≠ ∅ ∧ added then
          (true, (self.acceptlistAdd address).set address { left with isInAcceptList := true })
        else (true, self.set address left)
      else
        let self := self.erase address
        if record.isInAcceptList then (true, self.acceptlistRemove address)
        else if record.doingTargetedAnnouncementsConn.card > 0 ∧
            self.numOfTargetedAnnouncementsUsers = 0 then
          (true, self.targetAnnouncementsFilteringSet true)
        else (true, self)

def deregistered (record : AppsConnecting) : AppsConnecting :=
  { record with
    doingBgConn := record.doingBgConn.erase appId
    doingDirectConn := record.doingDirectConn.erase appId }

/-- The loop of `on_app_deregistered`: the records that are left, and the accept list. -/
def deregister (appId : AppId) : List (Address × AppsConnecting) → Finset Address →
    List (Address × AppsConnecting) × Finset Address
  | [], accepted => ([], accepted)
  | (address, record) :: rest, accepted =>
    if (deregistered appId record).isAnyoneConnecting then
      ((address, deregistered appId record) :: (deregister appId rest accepted).1,
        (deregister appId rest accepted).2)
    else deregister appId rest (accepted.erase address)

theorem deregister_sublist (entries : List (Address × AppsConnecting)) (accepted : Finset Address) :
    (keys (deregister appId entries accepted).1).Sublist (keys entries) := by
  induction entries generalizing accepted with
  | nil => exact .slnil
  | cons entry rest ih =>
    rw [deregister]
    split
    · exact (ih accepted).cons_cons entry.1
    · exact (ih _).cons entry.1

def onAppDeregistered : Manager Address :=
  { self with
    bgconnDev := (deregister appId self.bgconnDev self.acceptList).1
    distinct := self.distinct.sublist (deregister_sublist appId _ _)
    acceptList := (deregister appId self.bgconnDev self.acceptList).2 }

/-- After a reset of the controller its accept list is empty already. -/
def reset (afterReset : Bool) : Manager Address :=
  let self := { self with bgconnDev := [], distinct := List.nodup_nil }
  if afterReset then self
  else (self.targetAnnouncementsFilteringSet false).acceptlistClear

/-- The last argument is the answer of `BTM_AcceptlistAdd`. -/
def directConnectAdd (address : Address) (added : Bool) : Bool × Manager Address :=
  let record := self.entry address
  if appId ∈ record.doingDirectConn then (false, self)
  else
    let (paramsChanged, self) := self.setLeConnectionModeToFast
    if record.isInAcceptList then
      (true, self.set address
        { record with doingDirectConn := insert appId record.doingDirectConn })
    else if added then
      (true, (self.acceptlistAdd address).set address
        { record with
          isInAcceptList := true
          doingDirectConn := insert appId record.doingDirectConn })
    else (false, if paramsChanged then self.setLeConnectionModeToSlow else self)

def anyDirectConnectLeft : Bool :=
  self.bgconnDev.any fun entry => decide (entry.2.doingDirectConn ≠ ∅)

def directConnectRemove (address : Address) : Bool × Manager Address :=
  match self.find address with
  | none => (false, self)
  | some record =>
    if appId ∉ record.doingDirectConn then (false, self)
    else
      let left := { record with doingDirectConn := record.doingDirectConn.erase appId }
      let self := self.set address left
      let self :=
        if self.anyDirectConnectLeft then self else self.setLeConnectionModeToSlow
      if left.isAnyoneInterested then (true, self)
      else if record.doingTargetedAnnouncementsConn = ∅ then
        (true, (self.acceptlistRemove address).erase address)
      else
        (true, (self.acceptlistRemove address).set address { left with isInAcceptList := false })

end

end

/-- The loop of `remove_all_clients_with_pending_connections`, with a bound on its rounds. -/
def removeAllClients (address : Address) : Nat → Manager Address → Manager Address
  | 0, self => self
  | rounds + 1, self =>
    match self.find address with
    | none => self
    | some record =>
      if pending : record.doingDirectConn.Nonempty then
        removeAllClients address rounds
          (self.directConnectRemove (record.doingDirectConn.min' pending) address).2
      else self

def onConnectionComplete (self : Manager Address) (address : Address) : Manager Address :=
  removeAllClients address (self.entry address).doingDirectConn.card self

/-- The client is told, and its connection attempt is removed. -/
def wlDirectConnectTimeoutCb (self : Manager Address) (appId : AppId) (address : Address) :
    Manager Address :=
  (self.directConnectRemove appId address).2

end Manager

inductive Operation (Address : Type) where
  | backgroundConnectAdd (appId : AppId) (address : Address) (added : Bool)
  | backgroundConnectTargetedAnnouncementAdd (appId : AppId) (address : Address)
  | backgroundConnectRemove (appId : AppId) (address : Address) (added : Bool)
  | directConnectAdd (appId : AppId) (address : Address) (added : Bool)
  | directConnectRemove (appId : AppId) (address : Address)
  | directConnectTimeout (appId : AppId) (address : Address)
  | onConnectionComplete (address : Address)
  | removeUnconditional (address : Address)
  | onAppDeregistered (appId : AppId)
  | reset (afterReset : Bool)

variable {Address : Type} [DecidableEq Address]

/-- One operation; a reset of the controller empties its accept list first. -/
def managerCall (self : Manager Address) : Operation Address → Manager Address
  | .backgroundConnectAdd appId address added =>
    (self.backgroundConnectAdd appId address added).2
  | .backgroundConnectTargetedAnnouncementAdd appId address =>
    (self.backgroundConnectTargetedAnnouncementAdd appId address).2
  | .backgroundConnectRemove appId address added =>
    (self.backgroundConnectRemove appId address added).2
  | .directConnectAdd appId address added => (self.directConnectAdd appId address added).2
  | .directConnectRemove appId address => (self.directConnectRemove appId address).2
  | .directConnectTimeout appId address => self.wlDirectConnectTimeoutCb appId address
  | .onConnectionComplete address => self.onConnectionComplete address
  | .removeUnconditional address => (self.removeUnconditional address).2
  | .onAppDeregistered appId => self.onAppDeregistered appId
  | .reset afterReset =>
    (if afterReset then self.acceptlistClear else self).reset afterReset

def managerStep (self : Manager Address) (operation : Operation Address) :
    Option (Manager Address) :=
  some (managerCall self operation)

namespace Manager

variable (self : Manager Address) {address other : Address} (record : AppsConnecting)

@[simp] theorem find_set : (self.set address record).find address = some record :=
  lookup_put _ _ _

@[simp] theorem find_set_of_ne (apart : other ≠ address) :
    (self.set address record).find other = self.find other :=
  lookup_put_of_ne apart _ _

@[simp] theorem find_erase : (self.erase address).find address = none :=
  lookup_remove _ _

@[simp] theorem find_erase_of_ne (apart : other ≠ address) :
    (self.erase address).find other = self.find other :=
  lookup_remove_of_ne apart _

theorem mem_bgconnDev {self : Manager Address} {record : AppsConnecting} :
    (address, record) ∈ self.bgconnDev ↔ self.find address = some record :=
  ⟨lookup_of_mem self.distinct, mem_of_lookup⟩

theorem entry_of_find {self : Manager Address} {record : AppsConnecting}
    (found : self.find address = some record) : self.entry address = record := by
  rw [entry, found, Option.getD_some]

theorem setLeConnectionModeToFast_eq :
    ∃ params, self.setLeConnectionModeToFast.2 = self.setScanParams params := by
  rw [setLeConnectionModeToFast]
  split
  · exact ⟨_, rfl⟩
  · exact ⟨self.scanParams, rfl⟩

theorem entry_setLeConnectionModeToFast :
    self.setLeConnectionModeToFast.2.entry address = self.entry address := by
  obtain ⟨params, same⟩ := self.setLeConnectionModeToFast_eq
  rw [same]
  rfl

theorem setLeConnectionModeToSlow_eq :
    ∃ params, self.setLeConnectionModeToSlow = self.setScanParams params := by
  rw [setLeConnectionModeToSlow]
  split
  · exact ⟨_, rfl⟩
  · exact ⟨self.scanParams, rfl⟩

theorem set_set (other : AppsConnecting) :
    (self.set address record).set address other = self.set address other := by
  simp only [set, put_put]

theorem erase_set : (self.set address record).erase address = self.erase address := by
  simp only [set, erase, remove_put]

theorem directConnectRemove_cases (appId : AppId) (address : Address) :
    ((∀ record, self.find address = some record → appId ∉ record.doingDirectConn) ∧
      (self.directConnectRemove appId address).2 = self) ∨
    ∃ record left params, self.find address = some record ∧ appId ∈ record.doingDirectConn ∧
      left = { record with doingDirectConn := record.doingDirectConn.erase appId } ∧
      ((left.isAnyoneInterested = true ∧ (self.directConnectRemove appId address).2 =
          (self.set address left).setScanParams params) ∨
        (left.isAnyoneInterested = false ∧ record.doingTargetedAnnouncementsConn = ∅ ∧
          (self.directConnectRemove appId address).2 =
            ((self.acceptlistRemove address).erase address).setScanParams params) ∨
        (left.isAnyoneInterested = false ∧ record.doingTargetedAnnouncementsConn ≠ ∅ ∧
          (self.directConnectRemove appId address).2 = ((self.acceptlistRemove address).set address
              { left with isInAcceptList := false }).setScanParams params)) := by
  rw [directConnectRemove]
  cases found : self.find address with
  | none => exact .inl ⟨fun _ none => absurd none (Option.some_ne_none _).symm, rfl⟩
  | some record =>
    dsimp only
    by_cases doing : appId ∈ record.doingDirectConn
    · rw [if_neg (not_not.mpr doing)]
      refine .inr ?_
      generalize named : ({ record with
        doingDirectConn := record.doingDirectConn.erase appId } : AppsConnecting) = left
      have lowered : ∃ params, (if (self.set address left).anyDirectConnectLeft then
          self.set address left else (self.set address left).setLeConnectionModeToSlow) =
          (self.set address left).setScanParams params := by
        split
        · exact ⟨self.scanParams, rfl⟩
        · exact (self.set address left).setLeConnectionModeToSlow_eq
      obtain ⟨params, same⟩ := lowered
      refine ⟨record, left, params, rfl, doing, named.symm, ?_⟩
      rw [same]
      split
      case isTrue interested => exact .inl ⟨interested, rfl⟩
      case isFalse idle =>
        have idle := Bool.eq_false_of_not_eq_true idle
        split
        case isTrue silent =>
          refine .inr (.inl ⟨idle, silent, ?_⟩)
          rw [← (self.acceptlistRemove address).erase_set left]
          rfl
        case isFalse announced =>
          refine .inr (.inr ⟨idle, announced, ?_⟩)
          rw [← (self.acceptlistRemove address).set_set left, ← named]
          rfl
    · rw [if_pos doing]
      refine .inl ⟨fun other same => ?_, rfl⟩
      cases same
      exact doing

theorem find_onAppDeregistered (appId : AppId) :
    (self.onAppDeregistered appId).find address = (self.find address).bind fun record =>
        if (deregistered appId record).isAnyoneConnecting then some (deregistered appId record)
        else none := by
  have loop : ∀ (entries : List (Address × AppsConnecting)) (accepted : Finset Address),
      (keys entries).Nodup → lookup address (deregister appId entries accepted).1 =
          (lookup address entries).bind fun record =>
            if (deregistered appId record).isAnyoneConnecting then some (deregistered appId record)
            else none := by
    intro entries
    induction entries with
    | nil => intros; rfl
    | cons entry rest ih =>
      intro accepted distinct
      obtain ⟨missing, distinct⟩ := List.nodup_cons.mp distinct
      rw [deregister, lookup]
      by_cases connecting : (deregistered appId entry.2).isAnyoneConnecting = true
      · rw [if_pos connecting, lookup]
        split
        · exact (if_pos connecting).symm
        · exact ih accepted distinct
      · rw [if_neg connecting, ih _ distinct]
        split
        case isTrue same =>
          rw [← same, lookup_eq_none.mpr missing]
          exact (if_neg connecting).symm
        · rfl
  exact loop self.bgconnDev self.acceptList self.distinct

theorem mem_acceptList_onAppDeregistered (appId : AppId) :
    address ∈ (self.onAppDeregistered appId).acceptList ↔
      address ∈ self.acceptList ∧ ∀ record, self.find address = some record →
        (deregistered appId record).isAnyoneConnecting = true := by
  have loop : ∀ (entries : List (Address × AppsConnecting)) (accepted : Finset Address),
      address ∈ (deregister appId entries accepted).2 ↔
        address ∈ accepted ∧ ∀ record, (address, record) ∈ entries →
          (deregistered appId record).isAnyoneConnecting = true := by
    intro entries
    induction entries with
    | nil => simp [deregister]
    | cons entry rest ih =>
      intro accepted
      rw [deregister]
      split
      case isTrue connecting =>
        refine (ih accepted).trans (and_congr_right fun _ => ⟨fun later record listed => ?_,
          fun all record listed => all record (List.mem_cons_of_mem _ listed)⟩)
        rcases List.mem_cons.mp listed with same | behind
        · rw [← same] at connecting
          exact connecting
        · exact later record behind
      case isFalse ended =>
        rw [ih, Finset.mem_erase]
        constructor
        · rintro ⟨⟨apart, listed⟩, later⟩
          refine ⟨listed, fun record own => later record ?_⟩
          exact (List.mem_cons.mp own).resolve_left fun same => apart (congrArg Prod.fst same)
        · rintro ⟨listed, all⟩
          refine ⟨⟨?_, listed⟩, fun record own => all record (List.mem_cons_of_mem _ own)⟩
          rintro rfl
          exact ended (all entry.2 List.mem_cons_self)
  rw [onAppDeregistered, loop]
  simp only [mem_bgconnDev]

end Manager

end BluetoothFormal.Gatt.Legacy.ConnectionManager
