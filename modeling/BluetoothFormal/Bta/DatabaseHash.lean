import BluetoothFormal.Bta.GattDatabase
import BluetoothFormal.Gatt.Legacy.GroupDiscovery
import Mathlib.Algebra.BigOperators.Group.List.Basic

/-!
# The hash of a GATT database

The server hashes the attributes of its service list, a client the services that it has
discovered.  Both count the bytes first, write them into a buffer of that size and hash the
buffer backwards.
-/

namespace BluetoothFormal.Bta

open L2cap Gatt Gatt.Legacy List Descriptor

/-- What the attributes of a database declare. -/
inductive DatabaseItem where
  | service (handle : Nat) (isPrimary : Bool) (uuid : Uuid)
  | included (handle startHandle endHandle : Nat) (uuid : Uuid)
  | characteristic (handle : Nat) (properties : UInt8) (valueHandle : Nat) (uuid : Uuid)
  | descriptor (handle : Nat) (uuid : Uuid) (extendedProperties : Nat)
  deriving DecidableEq

/-- The descriptors of which the handle and the type are hashed. -/
def plainDescriptors : List UInt16 := [0x2901, 0x2902, 0x2903, 0x2904, 0x2905]

def isPlainDescriptor (uuid : Uuid) : Bool :=
  plainDescriptors.any fun value => decide (uuid = from16Bit value)

/-- The bytes of a declaration in front of its UUID. -/
def DatabaseItem.front : DatabaseItem → List UInt8
  | .service handle isPrimary _ =>
    uint16ToStream handle ++ uint16ToStream (if isPrimary then 0x2800 else 0x2801)
  | .included handle startHandle endHandle _ =>
    uint16ToStream handle ++ uint16ToStream 0x2802 ++ uint16ToStream startHandle ++
      uint16ToStream endHandle
  | .characteristic handle properties valueHandle _ =>
    uint16ToStream handle ++ uint16ToStream 0x2803 ++ [properties] ++ uint16ToStream valueHandle
  | .descriptor handle _ _ => uint16ToStream handle

def extendedProperties (attr : Attr) : Nat :=
  match attr.value with
  | some (.charExtProp properties) => properties
  | _ => 0

/--
The walk over the attributes of a service that both passes make.  A characteristic takes its
value along; `none` where an iterator or a value would be read that is not there.
-/
def attrItems (isPrimary : Bool) : List Attr → Option (List DatabaseItem)
  | [] => some []
  | attr :: rest =>
    if IsServiceType attr.uuid then
      match attr.value with
      | some (.uuid uuid) =>
        (attrItems isPrimary rest).map (.service attr.handle isPrimary uuid :: ·)
      | _ => none
    else if attr.uuid = includeServiceUuid then
      match attr.value with
      | some (.inclHandle sHandle eHandle uuid) =>
        (attrItems isPrimary rest).map (.included attr.handle sHandle eHandle uuid :: ·)
      | _ => none
    else if attr.uuid = charDeclareUuid then
      match attr.value, rest with
      | some (.charDecl properties valueHandle), value :: rest =>
        (attrItems isPrimary rest).map
          (.characteristic attr.handle properties valueHandle value.uuid :: ·)
      | _, _ => none
    else
      (attrItems isPrimary rest).map
        (.descriptor attr.handle attr.uuid (extendedProperties attr) :: ·)

/-- The declarations of all services. -/
def serverItems : List SrvListElem → Option (List DatabaseItem)
  | [] => some []
  | el :: rest =>
    (attrItems el.isPrimary el.db.attrList).bind fun items => (serverItems rest).map (items ++ ·)

/-- What `calculate_database_info_size` adds for a declaration. -/
def DatabaseItem.infoSize : DatabaseItem → Nat
  | .service _ _ uuid => 4 + gattBuildUuidToStreamLen uuid
  | .included _ _ _ uuid => 8 + gattBuildUuidToStreamLen uuid
  | .characteristic _ _ _ uuid => 7 + gattBuildUuidToStreamLen uuid
  | .descriptor _ uuid _ =>
    if isPlainDescriptor uuid then 4
    else if uuid = charExtPropUuid then 6
    else 0

/-- What `fill_database_info` writes for a declaration. -/
def DatabaseItem.info (item : DatabaseItem) : List UInt8 :=
  match item with
  | .service _ _ uuid => item.front ++ gattBuildUuidToStream uuid
  | .included _ _ _ uuid => item.front ++ gattBuildUuidToStream uuid
  | .characteristic _ _ _ uuid => item.front ++ gattBuildUuidToStream uuid
  | .descriptor _ uuid extendedProperties =>
    if isPlainDescriptor uuid then
      item.front ++ uint16ToStream (as16Bit uuid).toNat
    else if uuid = charExtPropUuid then
      item.front ++ uint16ToStream (as16Bit uuid).toNat ++ uint16ToStream extendedProperties
    else []

def gattsCalculateDatabaseHash {Octet16 : Type} (aesCmac : List UInt8 → Octet16)
    (services : List SrvListElem) : Option Octet16 :=
  (serverItems services).map fun items =>
    aesCmac (zeroFilled (items.map DatabaseItem.infoSize).sum
      (items.flatMap DatabaseItem.info)).reverse

def uuidSize (uuid : Uuid) : Nat :=
  if getShortestRepresentationSize uuid = 4 then 16 else getShortestRepresentationSize uuid

section

variable (descriptor : Descriptor)

def Descriptor.hashSize : Nat :=
  if uuidSize descriptor.uuid ≠ 2 then 0
  else if as16Bit descriptor.uuid ∈ plainDescriptors then 2 + uuidSize descriptor.uuid
  else if as16Bit descriptor.uuid = 0x2900 then 4 + uuidSize descriptor.uuid
  else 0

def Descriptor.hashBytes : List UInt8 :=
  if uuidSize descriptor.uuid ≠ 2 then []
  else if as16Bit descriptor.uuid ∈ plainDescriptors then
    uint16ToStream descriptor.handle ++ uint16ToStream (as16Bit descriptor.uuid).toNat
  else if as16Bit descriptor.uuid = 0x2900 then
    uint16ToStream descriptor.handle ++ uint16ToStream (as16Bit descriptor.uuid).toNat ++
      uint16ToStream descriptor.characteristicExtendedProperties
  else []

def Characteristic.item (c : Characteristic) : DatabaseItem :=
  .characteristic c.declarationHandle c.properties c.valueHandle c.uuid

def IncludedService.item (is : IncludedService) : DatabaseItem :=
  .included is.handle is.startHandle is.endHandle is.uuid

def Service.item (service : Service) : DatabaseItem :=
  .service service.handle service.isPrimary service.uuid

def Descriptor.item (d : Descriptor) : DatabaseItem :=
  .descriptor d.handle d.uuid d.characteristicExtendedProperties

/-- The first loop of `Hash`. -/
def Service.hashSize (service : Service) : Nat :=
  4 + uuidSize service.uuid + (service.includedServices.map fun is => 8 + uuidSize is.uuid).sum +
    (service.characteristics.map fun c =>
      7 + uuidSize c.uuid + (c.descriptors.map Descriptor.hashSize).sum).sum

/-- The second loop of `Hash`. -/
def Service.hashBytes (service : Service) : List UInt8 :=
  service.item.front ++ uuidBytes service.uuid ++
    (service.includedServices.flatMap fun is => is.item.front ++ uuidBytes is.uuid) ++
    service.characteristics.flatMap fun c =>
      c.item.front ++ uuidBytes c.uuid ++ c.descriptors.flatMap Descriptor.hashBytes

def databaseHash {Octet16 : Type} (aesCmac : List UInt8 → Octet16) (services : List Service) :
    Octet16 :=
  aesCmac (zeroFilled (services.map Service.hashSize).sum
    (services.flatMap Service.hashBytes)).reverse

/-- The declarations of a discovered service, in the order of the client's lists. -/
def Service.items (service : Service) : List DatabaseItem :=
  service.item :: (service.includedServices.map IncludedService.item ++
    service.characteristics.flatMap fun c => c.item :: c.descriptors.map Descriptor.item)

/--
The client has discovered the service list exactly: each of its services has the end and the
declarations of the local one.  In particular the included services come first.
-/
def ExactlyDiscovered (services : List Service) (local_ : List SrvListElem) : Prop :=
  List.Forall₂ (fun service el => service.endHandle = el.eHdl ∧
    attrItems el.isPrimary el.db.attrList = some service.items) services local_

theorem ExactlyDiscovered.serverItems {services : List Service} {local_ : List SrvListElem}
    (exactly : ExactlyDiscovered services local_) :
    serverItems local_ = some (services.flatMap Service.items) := by
  induction exactly with
  | nil => rfl
  | cons same _ ih => rw [Bta.serverItems, same.2, Option.bind_some, ih]; rfl

/-- The bytes of a declaration as the client writes them. -/
def DatabaseItem.hashBytes (item : DatabaseItem) : List UInt8 :=
  match item with
  | .service _ _ uuid => item.front ++ uuidBytes uuid
  | .included _ _ _ uuid => item.front ++ uuidBytes uuid
  | .characteristic _ _ _ uuid => item.front ++ uuidBytes uuid
  | .descriptor handle uuid extendedProperties =>
    Descriptor.hashBytes ⟨handle, uuid, extendedProperties⟩

theorem Service.hashBytes_eq (service : Service) :
    service.hashBytes = service.items.flatMap DatabaseItem.hashBytes := by
  have included : (service.includedServices.map IncludedService.item).flatMap
      DatabaseItem.hashBytes =
        service.includedServices.flatMap fun is => is.item.front ++ uuidBytes is.uuid := by
    rw [flatMap_map]
    rfl
  have characteristics : (service.characteristics.flatMap fun c =>
      c.item :: c.descriptors.map Descriptor.item).flatMap DatabaseItem.hashBytes =
        service.characteristics.flatMap fun c =>
          c.item.front ++ uuidBytes c.uuid ++ c.descriptors.flatMap Descriptor.hashBytes := by
    rw [flatMap_assoc]
    refine congrArg (service.characteristics.flatMap ·) (funext fun c => ?_)
    rw [flatMap_cons, flatMap_map]
    rfl
  rw [Service.hashBytes, Service.items, flatMap_cons, flatMap_append, included,
    characteristics, append_assoc]
  rfl

theorem length_descriptor_hashBytes : descriptor.hashBytes.length = descriptor.hashSize := by
  rw [hashBytes, hashSize]
  split
  · rfl
  case isFalse short =>
    rw [not_not.mp short]
    split
    · rfl
    · split <;> rfl

end

theorem mem_plainDescriptors {uuid : Uuid} (short : is16Bit uuid = true) :
    as16Bit uuid ∈ plainDescriptors ↔ isPlainDescriptor uuid = true := by
  rw [isPlainDescriptor, any_eq_true]
  constructor
  · intro member
    exact ⟨_, member, decide_eq_true (from16Bit_as16Bit short).symm⟩
  · rintro ⟨value, listed, same⟩
    rw [of_decide_eq_true same, as16Bit_from16Bit]
    exact listed

theorem descriptor_info (handle : Nat) (uuid : Uuid) (extendedProperties : Nat) :
    (DatabaseItem.descriptor handle uuid extendedProperties).info =
        hashBytes ⟨handle, uuid, extendedProperties⟩ ∧
      (DatabaseItem.descriptor handle uuid extendedProperties).infoSize =
        hashSize ⟨handle, uuid, extendedProperties⟩ := by
  rw [DatabaseItem.info, DatabaseItem.infoSize, hashBytes, hashSize]
  cases short : is16Bit uuid with
  | true =>
    have size : uuidSize uuid = 2 := by
      rw [uuidSize, beq_iff_eq.mp short]
      rfl
    have extended : as16Bit uuid = 0x2900 ↔ uuid = charExtPropUuid := by
      constructor
      · intro same
        rw [← from16Bit_as16Bit short, same]
        rfl
      · rintro rfl
        rfl
    simp only [size, mem_plainDescriptors short, extended, ne_eq, not_true_eq_false, if_false]
    exact ⟨rfl, trivial⟩
  | false =>
    have size : uuidSize uuid ≠ 2 := by
      rw [uuidSize]
      rcases shortestSize_cases uuid with ⟨other, _⟩ | ⟨_, size | size⟩
      · rw [short] at other
        cases other
      · simp [size]
      · simp [size]
    have long : ∀ value, uuid ≠ from16Bit value := by
      rintro value rfl
      rw [is16Bit_from16Bit] at short
      cases short
    have plain : ¬isPlainDescriptor uuid = true := by
      intro member
      obtain ⟨value, _, same⟩ := any_eq_true.mp member
      exact long value (of_decide_eq_true same)
    have extended : uuid ≠ charExtPropUuid := long 0x2900
    rw [if_neg plain, if_neg plain, if_neg extended, if_neg extended, if_pos size, if_pos size]
    exact ⟨rfl, rfl⟩

/-- A service, an included service or a characteristic has a UUID other than the empty one. -/
def DatabaseItem.Named : DatabaseItem → Prop
  | .service _ _ uuid => uuid ≠ emptyUuid
  | .included _ _ _ uuid => uuid ≠ emptyUuid
  | .characteristic _ _ _ uuid => uuid ≠ emptyUuid
  | .descriptor _ _ _ => True

theorem length_item_hashBytes (item : DatabaseItem) : item.hashBytes.length = item.infoSize := by
  cases item with
  | service | included | characteristic =>
    rw [DatabaseItem.hashBytes, length_append, length_uuidBytes]
    rfl
  | descriptor handle uuid extendedProperties =>
    rw [(descriptor_info handle uuid extendedProperties).2]
    exact length_descriptor_hashBytes _

variable {item : DatabaseItem}

theorem info_of_named (named : item.Named) : item.info = item.hashBytes := by
  cases item with
  | service | included | characteristic =>
    rw [DatabaseItem.info, DatabaseItem.hashBytes, gattBuildUuidToStream_of_ne named]
  | descriptor handle uuid extendedProperties =>
    exact (descriptor_info handle uuid extendedProperties).1

/-- Without a name the server writes less than it has counted. -/
theorem length_info_of_not_named (nameless : ¬item.Named) :
    item.info.length < item.infoSize := by
  cases item with
  | service handle isPrimary uuid =>
    obtain rfl := not_not.mp nameless
    exact (by decide : 4 < 20)
  | included handle startHandle endHandle uuid =>
    obtain rfl := not_not.mp nameless
    exact (by decide : 8 < 24)
  | characteristic handle properties valueHandle uuid =>
    obtain rfl := not_not.mp nameless
    exact (by decide : 7 < 23)
  | descriptor handle uuid extendedProperties => exact absurd trivial nameless

theorem length_info_le (item : DatabaseItem) : item.info.length ≤ item.infoSize := by
  by_cases named : item.Named
  · rw [info_of_named named, length_item_hashBytes]
  · exact Nat.le_of_lt (length_info_of_not_named named)

theorem length_infos_le (items : List DatabaseItem) :
    (items.flatMap DatabaseItem.info).length ≤ (items.map DatabaseItem.infoSize).sum := by
  induction items with
  | nil => exact Nat.le_refl 0
  | cons item rest ih =>
    have here := length_info_le item
    rw [flatMap_cons, length_append, map_cons, sum_cons]
    omega

/-- The buffer of the server is filled exactly if all its declarations have names. -/
theorem length_infos_iff (items : List DatabaseItem) :
    (items.flatMap DatabaseItem.info).length = (items.map DatabaseItem.infoSize).sum ↔
      ∀ item ∈ items, item.Named := by
  induction items with
  | nil => simp
  | cons item rest ih =>
    have here := length_info_le item
    have later := length_infos_le rest
    rw [flatMap_cons, length_append, map_cons, sum_cons]
    constructor
    · intro same
      refine forall_mem_cons.mpr ⟨not_not.mp fun nameless => ?_, ih.mp (by omega)⟩
      have short := length_info_of_not_named nameless
      omega
    · intro named
      obtain ⟨first, others⟩ := forall_mem_cons.mp named
      rw [info_of_named first, length_item_hashBytes, ih.mpr others]

theorem length_hashBytes (services : List Service) :
    (services.flatMap Service.hashBytes).length = (services.map Service.hashSize).sum := by
  rw [length_flatMap]
  refine congrArg List.sum (map_congr_left fun service _ => ?_)
  simp only [Service.hashBytes, Service.hashSize, length_append, length_flatMap,
    length_uuidBytes, length_descriptor_hashBytes]
  rfl

/--
The client and the server compute the same hash, whatever the MAC, and fill their buffers, if
and only if no service, included service or characteristic has an empty UUID.
-/
theorem hashes_agree_iff {services : List Service} {local_ : List SrvListElem}
    (exactly : ExactlyDiscovered services local_) :
    ((∀ (Octet16 : Type) (aesCmac : List UInt8 → Octet16),
        gattsCalculateDatabaseHash aesCmac local_ = some (databaseHash aesCmac services)) ∧
      (services.flatMap Service.hashBytes).length = (services.map Service.hashSize).sum ∧
      ∃ items, serverItems local_ = some items ∧
        (items.flatMap DatabaseItem.info).length = (items.map DatabaseItem.infoSize).sum) ↔
      ∀ service ∈ services, ∀ item ∈ service.items, item.Named := by
  have items := exactly.serverItems
  have all : (∀ item ∈ services.flatMap Service.items, item.Named) ↔
      ∀ service ∈ services, ∀ item ∈ service.items, item.Named := by
    simp only [mem_flatMap, forall_exists_index, and_imp]
    exact ⟨fun named service member item listed => named item service member listed,
      fun named item service member listed => named service member item listed⟩
  rw [← all]
  constructor
  · rintro ⟨_, _, listed, same, exact_⟩
    rw [items] at same
    obtain rfl := Option.some.inj same
    exact (length_infos_iff _).mp exact_
  · intro named
    refine ⟨fun Octet16 aesCmac => ?_, length_hashBytes services, _, items,
      (length_infos_iff _).mpr named⟩
    have bytes : (services.flatMap Service.items).flatMap DatabaseItem.info =
        services.flatMap Service.hashBytes := by
      rw [flatMap_def, map_congr_left fun item member => info_of_named
        (named item member), ← flatMap_def, flatMap_assoc]
      exact congrArg (services.flatMap ·) (funext fun service => service.hashBytes_eq.symm)
    have sizes : ((services.flatMap Service.items).map DatabaseItem.infoSize).sum =
        (services.map Service.hashSize).sum := by
      rw [← (length_infos_iff _).mpr named, bytes, length_hashBytes]
    rw [gattsCalculateDatabaseHash, items, Option.map_some, bytes, sizes]
    rfl

def twoDiscovered : List Service :=
  [⟨1, from16Bit 0x180F, true, 3, [], [⟨2, from16Bit 0x2A19, 3, 0x02, []⟩]⟩,
    ⟨4, from16Bit 0x1800, true, 4, [], []⟩]

theorem hashes_agree_twoServices :
    gattsCalculateDatabaseHash id twoServices.services = some (databaseHash id twoDiscovered) := by
  have exactly : ExactlyDiscovered twoDiscovered twoServices.services :=
    .cons ⟨rfl, by decide⟩ (.cons ⟨rfl, by decide⟩ .nil)
  have battery : from16Bit 0x180F ≠ emptyUuid := by decide
  have level : from16Bit 0x2A19 ≠ emptyUuid := by decide
  have access : from16Bit 0x1800 ≠ emptyUuid := by decide
  have named : ∀ service ∈ twoDiscovered, ∀ item ∈ service.items, item.Named :=
    forall_mem_cons.mpr ⟨forall_mem_cons.mpr ⟨battery, forall_mem_singleton.mpr level⟩,
        forall_mem_singleton.mpr (forall_mem_singleton.mpr access)⟩
  exact ((hashes_agree_iff exactly).mpr named).1 _ id

def namelessDiscovered : List Service :=
  [⟨1, emptyUuid, true, 1, [], []⟩, ⟨2, 0xFFFF0002000000000000000000000000, true, 2, [], []⟩]

/-- For an empty UUID the server writes no bytes, and the second service moves up. -/
theorem nameless_hashes_differ :
    ExactlyDiscovered namelessDiscovered namelessFirst.services ∧
      gattsCalculateDatabaseHash id namelessFirst.services ≠
        some (databaseHash id namelessDiscovered) := by
  exact ⟨.cons ⟨rfl, by decide⟩ (.cons ⟨rfl, by decide⟩ .nil), by decide⟩

end BluetoothFormal.Bta
