import BluetoothFormal.Foundation.KeyedList
import BluetoothFormal.Foundation.Transition

/-!
# Advertising data in fragments

The controller reports the data of an advertising set in fragments.  The scanning manager caches
what has come of a device until the data is complete, or until a scan response has come.  The
cache knows a device by its address only.
-/

namespace BluetoothFormal.Hci.LeScanningManager

open Foundation.KeyedList Foundation.Transition Option
open List hiding lookup

/-! ## The cache -/

structure AddressWithType where
  address : BitVec 48
  addressType : UInt8
  deriving DecidableEq

def kEmpty : BitVec 48 := 0

def cacheMax : Nat := 1000

/-- The cached data of devices, the newest first. -/
structure AdvertisingCache where
  items : List (AddressWithType × List UInt8)
  distinct : (keys items).Nodup

open AdvertisingCache

variable {device : AddressWithType} {data : List UInt8}

variable {item : AddressWithType × List UInt8} {cache : AdvertisingCache}

namespace AdvertisingCache

def empty : AdvertisingCache := ⟨[], nodup_nil⟩

section

variable (cache : AdvertisingCache)

def find (device : AddressWithType) : Option (List UInt8) :=
  lookup device cache.items

def exist (device : AddressWithType) : Bool := (cache.find device).isSome

/-- The items, with one less if there are too many. -/
def makeRoom (items : List (AddressWithType × List UInt8)) : List (AddressWithType × List UInt8) :=
  if items.length > cacheMax then items.dropLast else items

theorem makeRoom_sublist (items : List (AddressWithType × List UInt8)) :
    (makeRoom items).Sublist items := by
  rw [makeRoom]
  split
  · exact dropLast_sublist _
  · exact List.Sublist.refl _

/-- The data of an item that is found, changed at its place; or a new item in front. -/
def changeItems (device : AddressWithType) (data : List UInt8) (changed : List UInt8 → List UInt8)
    (items : List (AddressWithType × List UInt8)) : List (AddressWithType × List UInt8) :=
  if device ∈ keys items then update device changed items else (device, data) :: makeRoom items

theorem nodup_changeItems (device : AddressWithType) (data : List UInt8)
    (changed : List UInt8 → List UInt8) {items : List (AddressWithType × List UInt8)}
    (distinct : (keys items).Nodup) : (keys (changeItems device data changed items)).Nodup := by
  rw [changeItems]
  split
  case isTrue =>
    rw [keys_update]
    exact distinct
  case isFalse missing =>
    have kept := (makeRoom_sublist items).map Prod.fst
    exact nodup_cons.mpr ⟨fun member => missing (kept.mem member), distinct.sublist kept⟩

def change (device : AddressWithType) (data : List UInt8) (changed : List UInt8 → List UInt8) :
    List UInt8 × AdvertisingCache :=
  (((cache.find device).map changed).getD data,
    ⟨changeItems device data changed cache.items, nodup_changeItems _ _ _ cache.distinct⟩)

def set (device : AddressWithType) (data : List UInt8) : List UInt8 × AdvertisingCache :=
  cache.change device data fun _ => data

def append (device : AddressWithType) (data : List UInt8) : List UInt8 × AdvertisingCache :=
  cache.change device data fun old => old ++ data

def clear (device : AddressWithType) : AdvertisingCache :=
  ⟨remove device cache.items, nodup_remove cache.distinct device⟩

end

/-! ### What the operations do to the items -/

theorem mem_clear (member : item ∈ (cache.clear device).items) :
    item ∈ cache.items ∧ item.1 ≠ device := by
  obtain ⟨listed, other⟩ := mem_filter.mp member
  exact ⟨listed, of_decide_eq_true other⟩

theorem mem_change {changed : List UInt8 → List UInt8}
    (member : item ∈ (cache.change device data changed).2.items) :
    item = (device, (cache.change device data changed).1) ∨
      (item ∈ cache.items ∧ item.1 ≠ device) := by
  have distinct := (cache.change device data changed).2.distinct
  have found : lookup device (cache.change device data changed).2.items =
      some (cache.change device data changed).1 := by
    show lookup device (changeItems device data changed cache.items) =
      some (((lookup device cache.items).map changed).getD data)
    rw [changeItems]
    split
    case isTrue present =>
      obtain ⟨old, was⟩ := exists_lookup present
      rw [lookup_update, was, map_some, getD_some]
    case isFalse missing =>
      rw [lookup_eq_none.mpr missing]
      exact if_pos rfl
  by_cases same : item.1 = device
  · have own := lookup_of_mem distinct (show (item.1, item.2) ∈ _ from member)
    rw [same, found] at own
    exact .inl (Prod.ext same (some.inj own).symm)
  · refine .inr ⟨?_, same⟩
    change item ∈ changeItems device data changed cache.items at member
    rw [changeItems] at member
    split at member
    · obtain ⟨old, listed, rfl⟩ := mem_map.mp member
      split
      case isTrue equal =>
        rw [if_pos equal] at same
        exact absurd equal same
      case isFalse => exact listed
    · rcases mem_cons.mp member with rfl | later
      · exact absurd rfl same
      · exact (makeRoom_sublist _).mem later

end AdvertisingCache

/-! ## Reports -/

inductive DataStatus where
  | complete
  | continuing
  | truncated
  | reserved

def DataStatus.code : DataStatus → Nat
  | .complete => 0
  | .continuing => 1
  | .truncated => 2
  | .reserved => 3

/-- `LeExtendedAdvertisingResponse`. -/
structure Report where
  connectable : Bool
  scannable : Bool
  directed : Bool
  scanResponse : Bool
  legacy : Bool
  dataStatus : DataStatus
  addressType : UInt8
  address : BitVec 48
  primaryPhy : UInt8
  secondaryPhy : UInt8
  advertisingSid : UInt8
  txPower : Int8
  rssi : Int8
  periodicAdvertisingInterval : UInt16
  advertisingData : List (List UInt8)

namespace Report

/-- The event type that `handle_extended_advertising_report` makes. -/
def eventType (report : Report) : Nat :=
  report.connectable.toNat ||| report.scannable.toNat <<< 1 ||| report.directed.toNat <<< 2 |||
    report.scanResponse.toNat <<< 3 ||| report.legacy.toNat <<< 4 ||| report.dataStatus.code <<< 5

def significantData (report : Report) : List UInt8 :=
  (report.advertisingData.filter fun datum => !datum.isEmpty).flatMap fun datum =>
    UInt8.ofNat datum.length :: datum

def addressWithType (report : Report) : AddressWithType := ⟨report.address, report.addressType⟩

end Report

/-- What `OnScanResult` is called with. -/
structure ScanResult where
  eventType : Nat
  addressType : UInt8
  address : BitVec 48
  primaryPhy : UInt8
  secondaryPhy : UInt8
  advertisingSid : UInt8
  txPower : Int8
  rssi : Int8
  periodicAdvertisingInterval : UInt16
  data : List UInt8

def Report.result (report : Report) (addressType : UInt8) (data : List UInt8) : ScanResult where
  eventType := report.eventType
  addressType := addressType
  address := report.address
  primaryPhy := report.primaryPhy
  secondaryPhy := report.secondaryPhy
  advertisingSid := report.advertisingSid
  txPower := report.txPower
  rssi := report.rssi
  periodicAdvertisingInterval := report.periodicAdvertisingInterval
  data := data

/-! ## The manager -/

inductive LeScanningFilterPolicy where
  | acceptAll
  | filterAcceptListOnly
  | checkInitiatorsIdentity
  | filterAcceptListAndInitiatorsIdentity
  deriving DecidableEq

structure Manager where
  advertisingCache : AdvertisingCache
  filterPolicy : LeScanningFilterPolicy

def noAddressProvided : UInt8 := 0xFF

def deviceAddressType (addressType : UInt8) : UInt8 :=
  if addressType = 0 ∨ addressType = 2 then 0
  else if addressType = 1 ∨ addressType = 3 then 1
  else addressType

namespace Report

section

variable (report : Report)

def isScannable : Bool := report.eventType.testBit 1
def isScanResponse : Bool := report.eventType.testBit 3
def isLegacy : Bool := report.eventType.testBit 4

/-- The report begins the data of a device. -/
def isStart : Bool :=
  report.isLegacy && report.isScannable && !report.isScanResponse

/-- The result waits for more data, or for a scan response. -/
def Waits (policy : LeScanningFilterPolicy) : Prop :=
  (report.eventType >>> 5) % 256 = DataStatus.continuing.code ∨
    (report.isScannable = true ∧ report.isScanResponse = false ∧ policy ≠ .filterAcceptListOnly)
  deriving Decidable

end

end Report

def cacheReport (cache : AdvertisingCache) (report : Report) : List UInt8 × AdvertisingCache :=
  if report.isStart then cache.set report.addressWithType report.significantData
  else cache.append report.addressWithType report.significantData

/-- `process_advertising_package_content`, with the result that is delivered. -/
def processAdvertisingPackageContent (manager : Manager) (report : Report) :
    Manager × Option ScanResult :=
  let cache := manager.advertisingCache
  let cached := cacheReport cache report
  if report.addressType = noAddressProvided then
    (manager, some (report.result report.addressType report.significantData))
  else if report.address = kEmpty then (manager, none)
  else if report.isLegacy ∧ report.isScanResponse ∧ ¬cache.exist report.addressWithType then
    (manager, none)
  else if report.Waits manager.filterPolicy then
    ({ manager with advertisingCache := cached.2 }, none)
  else
    ({ manager with advertisingCache := cached.2.clear report.addressWithType },
      some (report.result (deviceAddressType report.addressType) cached.1))

/-! ## Runs -/

structure Scan where
  manager : Manager
  reports : List Report
  results : List ScanResult

def Scan.initial : Scan := ⟨⟨.empty, .acceptAll⟩, [], []⟩

inductive ScanEvent where
  | report (report : Report)
  | setScanFilterPolicy (policy : LeScanningFilterPolicy)

def scanStep : PartialStep Scan ScanEvent
  | scan, .report report =>
    let processed := processAdvertisingPackageContent scan.manager report
    some ⟨processed.1, scan.reports ++ [report], scan.results ++ processed.2.toList⟩
  | scan, .setScanFilterPolicy policy =>
    some { scan with manager := { scan.manager with filterPolicy := policy } }

structure AdvertisingSet where
  device : AddressWithType
  sid : UInt8
  deriving DecidableEq

def Report.advertisingSet (report : Report) : AdvertisingSet :=
  ⟨report.addressWithType, report.advertisingSid⟩

def ofSet (set : AdvertisingSet) (reports : List Report) : List Report :=
  reports.filter fun report => report.advertisingSet = set

def joined (reports : List Report) : List UInt8 := reports.flatMap Report.significantData

/-- The data is that of consecutive fragments of a set. -/
def Consecutive (reports : List Report) (set : AdvertisingSet) (data : List UInt8) : Prop :=
  ∃ fragments, fragments <:+: ofSet set reports ∧ data = joined fragments

def lastSid (reports : List Report) (device : AddressWithType) : Option UInt8 :=
  (reports.filter fun report => report.addressWithType = device).getLast?.map Report.advertisingSid

/--
A report that goes on with cached data of its device comes behind a report of the same set: the
sets of one device do not interleave.
-/
def Undisturbed (scan : Scan) : ScanEvent → Prop
  | .report report =>
    report.isStart = false → scan.manager.advertisingCache.exist report.addressWithType = true →
      lastSid scan.reports report.addressWithType = some report.advertisingSid
  | .setScanFilterPolicy _ => True

instance (scan : Scan) : ∀ event : ScanEvent, Decidable (Undisturbed scan event)
  | .report _ => inferInstanceAs (Decidable (_ → _ → _))
  | .setScanFilterPolicy _ => isTrue trivial

/-! ## Reports that come later -/

variable {set : AdvertisingSet}

section Later

variable {reports : List Report} {report : Report}

theorem ofSet_other (apart : report.advertisingSet ≠ set) :
    ofSet set (reports ++ [report]) = ofSet set reports := by
  rw [ofSet, filter_append, filter_singleton, decide_eq_false apart]
  exact append_nil _

theorem ofSet_own :
    ofSet report.advertisingSet (reports ++ [report]) =
      ofSet report.advertisingSet reports ++ [report] := by
  rw [ofSet, filter_append, filter_singleton, decide_eq_true rfl]
  rfl

theorem lastSid_other (apart : report.addressWithType ≠ device) :
    lastSid (reports ++ [report]) device = lastSid reports device := by
  rw [lastSid, filter_append, filter_singleton, decide_eq_false apart]
  exact congrArg _ (congrArg _ (append_nil _))

theorem lastSid_own :
    lastSid (reports ++ [report]) report.addressWithType = some report.advertisingSid := by
  rw [lastSid, filter_append, filter_singleton, decide_eq_true rfl]
  show Option.map _ (_ ++ [report]).getLast? = _
  rw [List.getLast?_concat]
  rfl

theorem joined_own : report.significantData = joined [report] :=
  (flatMap_singleton _ _).symm

theorem suffix_own : [report] <:+ ofSet report.advertisingSet (reports ++ [report]) := by
  rw [ofSet_own]
  exact suffix_append _ _

theorem Consecutive.later {set : AdvertisingSet} {data : List UInt8}
    (consecutive : Consecutive reports set data) (report : Report) :
    Consecutive (reports ++ [report]) set data := by
  obtain ⟨fragments, inside, same⟩ := consecutive
  refine ⟨fragments, inside.trans ?_, same⟩
  rw [ofSet, ofSet, filter_append]
  exact (prefix_append _ _).isInfix

end Later

/-! ## Sets that do not interleave -/

/-- An item of the cache has the last fragments of the set that was reported last. -/
structure Whole (reports : List Report) (item : AddressWithType × List UInt8) : Prop where
  typed : item.1.addressType ≠ noAddressProvided
  known : item.1.address ≠ kEmpty
  last : ∃ sid fragments, lastSid reports item.1 = some sid ∧
    fragments <:+ ofSet ⟨item.1, sid⟩ reports ∧ item.2 = joined fragments

theorem Whole.later {reports : List Report} {item : AddressWithType × List UInt8}
    (whole : Whole reports item) {report : Report} (apart : report.addressWithType ≠ item.1) :
    Whole (reports ++ [report]) item := by
  obtain ⟨sid, fragments, last, suffix, same⟩ := whole.last
  have differ : report.advertisingSet ≠ ⟨item.1, sid⟩ :=
    fun equal => apart (congrArg AdvertisingSet.device equal)
  refine ⟨whole.typed, whole.known, sid, fragments, ?_, ?_, same⟩
  · rw [lastSid_other apart, last]
  · rw [ofSet_other differ]
    exact suffix

variable {fragments : List Report}

section Step

variable {cache : AdvertisingCache} {reports : List Report} {report : Report}
  (wholes : ∀ item ∈ cache.items, Whole reports item)

include wholes

theorem joined_cacheReport
    (undisturbed : report.isStart = false → cache.exist report.addressWithType = true →
      lastSid reports report.addressWithType = some report.advertisingSid) :
    ∃ fragments, fragments <:+ ofSet report.advertisingSet (reports ++ [report]) ∧
      (cacheReport cache report).1 = joined fragments := by
  rw [cacheReport]
  cases start : report.isStart with
  | true =>
    refine ⟨[report], suffix_own, ?_⟩
    rw [if_pos rfl, ← joined_own]
    show ((cache.find report.addressWithType).map fun _ => report.significantData).getD _ = _
    cases cache.find report.addressWithType <;> rfl
  | false =>
    rw [if_neg Bool.false_ne_true]
    cases found : cache.find report.addressWithType with
    | none =>
      refine ⟨[report], suffix_own, ?_⟩
      show ((cache.find report.addressWithType).map _).getD _ = _
      rw [found, ← joined_own]
      rfl
    | some old =>
      have exists_ : cache.exist report.addressWithType = true := by
        rw [exist, found]
        rfl
      obtain ⟨sid, fragments, last, suffix, same⟩ := (wholes _ (mem_of_lookup found)).last
      obtain rfl : report.advertisingSid = sid :=
        some.inj ((undisturbed start exists_).symm.trans last)
      refine ⟨fragments ++ [report], ?_, ?_⟩
      · rw [ofSet_own]
        obtain ⟨front, whole⟩ := suffix
        refine ⟨front, ?_⟩
        rw [← append_assoc, whole]
        rfl
      · show ((cache.find report.addressWithType).map _).getD _ = _
        rw [found, joined, flatMap_append, flatMap_singleton, ← joined, ← same]
        rfl

theorem wholes_cacheReport (typed : report.addressType ≠ noAddressProvided)
    (known : report.address ≠ kEmpty)
    (suffix : fragments <:+ ofSet report.advertisingSet (reports ++ [report]))
    (same : (cacheReport cache report).1 = joined fragments) :
    ∀ item ∈ (cacheReport cache report).2.items, Whole (reports ++ [report]) item := by
  intro item member
  have changed : item = (report.addressWithType, (cacheReport cache report).1) ∨
      (item ∈ cache.items ∧ item.1 ≠ report.addressWithType) := by
    revert member
    rw [cacheReport]
    split <;> exact mem_change
  rcases changed with rfl | ⟨listed, apart⟩
  · exact ⟨typed, known, report.advertisingSid, fragments, lastSid_own, suffix, same⟩
  · exact (wholes item listed).later (Ne.symm apart)

end Step

/-- The cached data and the delivered data consist of fragments of one set each. -/
structure Separated (scan : Scan) : Prop where
  wholes : ∀ item ∈ scan.manager.advertisingCache.items, Whole scan.reports item
  results : ∀ result ∈ scan.results, ∃ set : AdvertisingSet,
    set.device.address = result.address ∧ set.sid = result.advertisingSid ∧
      Consecutive scan.reports set result.data

theorem separated_initial : Separated .initial where
  wholes := fun _ member => absurd member not_mem_nil
  results := fun _ member => absurd member not_mem_nil

variable {report : Report} {scan : Scan}

variable {manager : Manager}

theorem Separated.waiting (separated : Separated scan)
    (wholes : ∀ item ∈ manager.advertisingCache.items, Whole (scan.reports ++ [report]) item) :
    Separated ⟨manager, scan.reports ++ [report],
      scan.results ++ (none : Option ScanResult).toList⟩ := by
  refine ⟨wholes, fun result member => ?_⟩
  rw [toList_none, append_nil] at member
  obtain ⟨set, address, sid, consecutive⟩ := separated.results result member
  exact ⟨set, address, sid, consecutive.later report⟩

theorem Separated.delivering (separated : Separated scan) {addressType : UInt8}
    (wholes : ∀ item ∈ manager.advertisingCache.items, Whole (scan.reports ++ [report]) item)
    (suffix : fragments <:+ ofSet report.advertisingSet (scan.reports ++ [report]))
    (same : data = joined fragments) :
    Separated ⟨manager, scan.reports ++ [report],
      scan.results ++ (some (report.result addressType data)).toList⟩ := by
  refine ⟨wholes, fun result member => ?_⟩
  rcases mem_append.mp member with earlier | new
  · obtain ⟨set, address, sid, consecutive⟩ := separated.results result earlier
    exact ⟨set, address, sid, consecutive.later report⟩
  · rw [mem_singleton.mp new]
    exact ⟨report.advertisingSet, rfl, rfl, fragments, suffix.isInfix, same⟩

theorem Separated.others (separated : Separated scan)
    (missing : ∀ item ∈ scan.manager.advertisingCache.items, report.addressWithType ≠ item.1) :
    ∀ item ∈ scan.manager.advertisingCache.items, Whole (scan.reports ++ [report]) item :=
  fun item member => (separated.wholes item member).later (missing item member)

theorem separated_step (scan : Scan) (event : ScanEvent) (next : Scan) (separated : Separated scan)
    (undisturbed : Undisturbed scan event) (taken : scanStep scan event = some next) :
    Separated next := by
  cases event with
  | setScanFilterPolicy policy =>
    cases taken
    exact ⟨separated.wholes, separated.results⟩
  | report report =>
    cases taken
    rw [processAdvertisingPackageContent]
    obtain ⟨fragments, suffix, same⟩ := joined_cacheReport separated.wholes undisturbed
    split
    case isTrue anonymous =>
      refine separated.delivering (separated.others ?_) suffix_own joined_own
      intro item member equal
      exact (separated.wholes item member).typed (equal ▸ anonymous)
    case isFalse typed =>
      split
      case isTrue unknown =>
        refine separated.waiting (separated.others ?_)
        intro item member equal
        exact (separated.wholes item member).known (equal ▸ unknown)
      case isFalse known =>
        split
        case isTrue unexpected =>
          refine separated.waiting (separated.others ?_)
          intro item member equal
          have found := lookup_of_mem scan.manager.advertisingCache.distinct
            (show (item.1, item.2) ∈ _ from member)
          refine unexpected.2.2 ?_
          rw [equal, exist, find, found]
          rfl
        case isFalse =>
          have wholes := wholes_cacheReport separated.wholes typed known suffix same
          split
          case isTrue => exact separated.waiting wholes
          case isFalse =>
            refine separated.delivering (fun item member => ?_) suffix same
            exact wholes item (mem_clear member).1

/--
Where the sets of one device do not interleave, the data of every result is that of consecutive
fragments of a single set.
-/
theorem results_of_one_set {events : List ScanEvent} {scan : Scan}
    (undisturbed : Along scanStep Undisturbed .initial events)
    (reached : run scanStep .initial events = some scan) :
    ∀ result ∈ scan.results, ∃ set : AdvertisingSet,
      set.device.address = result.address ∧ set.sid = result.advertisingSid ∧
        Consecutive scan.reports set result.data :=
  (invariant_along separated_step separated_initial undisturbed reached).results

def extendedReport (sid : UInt8) (status : DataStatus) (datum : List UInt8) : Report where
  connectable := false
  scannable := false
  directed := false
  scanResponse := false
  legacy := false
  dataStatus := status
  addressType := 1
  address := 0xC0FFEE123456
  primaryPhy := 1
  secondaryPhy := 2
  advertisingSid := sid
  txPower := 127
  rssi := -60
  periodicAdvertisingInterval := 0
  advertisingData := [datum]

/-- Two sets of a device, one after the other. -/
def inTurn : List ScanEvent :=
  [.report (extendedReport 1 .continuing [0xFF, 1]), .report (extendedReport 1 .complete [0xFF, 2]),
    .report (extendedReport 2 .complete [0xFF, 3])]

theorem results_of_one_set_inTurn :
    ∃ scan, run scanStep .initial inTurn = some scan ∧
      scan.results.map ScanResult.data = [[2, 0xFF, 1, 2, 0xFF, 2], [2, 0xFF, 3]] ∧
      ∀ result ∈ scan.results, ∃ set : AdvertisingSet,
        set.device.address = result.address ∧ set.sid = result.advertisingSid ∧
          Consecutive scan.reports set result.data := by
  exact ⟨_, rfl, by decide, @results_of_one_set inTurn _ (by decide) rfl⟩

theorem Consecutive.length_le {reports : List Report} (consecutive : Consecutive reports set data) :
    data.length ≤ (joined (ofSet set reports)).length := by
  obtain ⟨fragments, ⟨front, back, whole⟩, rfl⟩ := consecutive
  rw [← whole, joined, joined, flatMap_append, flatMap_append, length_append, length_append]
  omega

/-- A fragment of one set, and all the data of another: the result has both. -/
theorem sets_merged :
    ∃ scan, run scanStep .initial [.report (extendedReport 1 .continuing [0xFF, 1]),
        .report (extendedReport 2 .complete [0xFF, 3])] = some scan ∧
      scan.results.map ScanResult.data = [[2, 0xFF, 1, 2, 0xFF, 3]] ∧
      ¬∀ result ∈ scan.results, ∃ set, Consecutive scan.reports set result.data := by
  refine ⟨_, rfl, by decide, fun all => ?_⟩
  obtain ⟨set, consecutive⟩ := all _ mem_cons_self
  have long : 6 ≤ (joined (ofSet set [extendedReport 1 .continuing [0xFF, 1],
      extendedReport 2 .complete [0xFF, 3]])).length := consecutive.length_le
  rw [ofSet, filter_cons] at long
  split at long
  case isTrue first =>
    have apart : (extendedReport 2 .complete [0xFF, 3]).advertisingSet ≠ set := by
      rw [← of_decide_eq_true first]
      decide
    rw [filter_singleton, decide_eq_false apart] at long
    exact absurd long (by decide)
  case isFalse =>
    rw [filter_cons, filter_nil] at long
    split at long <;> exact absurd long (by decide)

end BluetoothFormal.Hci.LeScanningManager
