import Mathlib.Algebra.GroupWithZero.Nat
import Mathlib.Data.List.Range
import BluetoothFormal.Gatt.AttDatabase
import BluetoothFormal.L2cap.Buffer

/-!
# The service databases of the legacy GATT server

A service is a list of attributes with consecutive handles.  The first attribute
is the declaration of the service, each declaration of a characteristic is followed
by the value of the characteristic, and an attribute that the stack does not answer
by itself belongs to a characteristic or to a descriptor of the application.  The
functions that build services keep this.
-/

namespace BluetoothFormal.Gatt.Legacy

open List Option

section

variable (uuid : Uuid)

def getShortestRepresentationSize : Nat :=
  if uuid.toNat % uuidShift ≠ baseUuid then 16
  else if uuid.toNat / uuidShift < 65536 then 2
  else 4

def is16Bit : Bool := getShortestRepresentationSize uuid == 2

def as16Bit : UInt16 := UInt16.ofNat (uuid.toNat / uuidShift)

def from16Bit (uuid16 : UInt16) : Uuid := .new uuid16.toUInt32

/-- `kEmpty`. -/
def emptyUuid : Uuid := 0

/-- The bytes of a number, the lowest first. -/
def bytesOf : Nat → Nat → List UInt8
  | 0, _ => []
  | count + 1, value => UInt8.ofNat value :: bytesOf count (value / 256)

/-- The number that bytes stand for. -/
def valueOf : List UInt8 → Nat
  | [] => 0
  | byte :: rest => byte.toNat + 256 * valueOf rest

def to128BitLE : List UInt8 := bytesOf 16 uuid.toNat

def from128BitLE (bytes : List UInt8) : Uuid := BitVec.ofNat 128 (valueOf (bytes.take 16))

@[simp] theorem length_bytesOf (count value : Nat) : (bytesOf count value).length = count := by
  induction count generalizing value with
  | zero => rfl
  | succ count ih => rw [bytesOf, length_cons, ih]

theorem length_to128BitLE : (to128BitLE uuid).length = 16 := length_bytesOf _ _

theorem valueOf_bytesOf (count value : Nat) : valueOf (bytesOf count value) = value % 256 ^ count := by
  induction count generalizing value with
  | zero => rw [Nat.pow_zero, Nat.mod_one]; rfl
  | succ count ih =>
    rw [bytesOf, valueOf, ih, UInt8.toNat_ofNat', Nat.pow_succ' (n := count), Nat.mod_mul]

theorem from128BitLE_to128BitLE (rest : List UInt8) :
    from128BitLE (to128BitLE uuid ++ rest) = uuid := by
  rw [from128BitLE, take_left' (length_to128BitLE uuid), to128BitLE, valueOf_bytesOf]
  have small : uuid.toNat < 256 ^ 16 := uuid.isLt
  rw [Nat.mod_eq_of_lt small, BitVec.ofNat_toNat, BitVec.setWidth_eq]

theorem shortestSize_cases :
    (is16Bit uuid = true ∧ getShortestRepresentationSize uuid = 2) ∨ (is16Bit uuid = false ∧
        (getShortestRepresentationSize uuid = 16 ∨ getShortestRepresentationSize uuid = 4)) := by
  rw [is16Bit, getShortestRepresentationSize]
  split
  · exact .inr ⟨rfl, .inl rfl⟩
  · split
    · exact .inl ⟨rfl, rfl⟩
    · exact .inr ⟨rfl, .inr rfl⟩

end

variable {uuid : Uuid} {sHdl : Nat}

theorem from16Bit_as16Bit (short : is16Bit uuid = true) :
    from16Bit (as16Bit uuid) = uuid := by
  apply Uuid.new_of_toUuid16
  rw [is16Bit, beq_iff_eq, getShortestRepresentationSize] at short
  rw [Uuid.toUuid16]
  split at short
  · cases short
  · rename_i base
    split at short
    · rename_i small
      rw [if_pos (not_not.mp base), if_pos small, as16Bit]
    · cases short

theorem toNat_from16Bit (uuid16 : UInt16) :
    (from16Bit uuid16).toNat = baseUuid + uuid16.toNat * uuidShift := by
  have small := uuid16.toNat_lt
  rw [from16Bit, Uuid.new, BitVec.toNat_ofNat, UInt16.toNat_toUInt32]
  apply Nat.mod_eq_of_lt
  rw [baseUuid, uuidShift]
  omega

@[simp] theorem is16Bit_from16Bit (uuid16 : UInt16) : is16Bit (from16Bit uuid16) = true := by
  have small := uuid16.toNat_lt
  rw [is16Bit, beq_iff_eq, getShortestRepresentationSize, toNat_from16Bit,
    Nat.add_mul_mod_self_right, Nat.mod_eq_of_lt (by decide : baseUuid < uuidShift),
    if_neg (not_not.mpr rfl), Nat.add_mul_div_right _ _ (by decide),
    Nat.div_eq_of_lt (by decide : baseUuid < uuidShift), Nat.zero_add, if_pos small]

@[simp] theorem as16Bit_from16Bit (uuid16 : UInt16) : as16Bit (from16Bit uuid16) = uuid16 := by
  rw [as16Bit, toNat_from16Bit, Nat.add_mul_div_right _ _ (by decide),
    Nat.div_eq_of_lt (by decide : baseUuid < uuidShift), Nat.zero_add, UInt16.ofNat_toNat]

def priServiceUuid : Uuid := from16Bit 0x2800
def secServiceUuid : Uuid := from16Bit 0x2801
def includeServiceUuid : Uuid := from16Bit 0x2802
def charDeclareUuid : Uuid := from16Bit 0x2803
def charExtPropUuid : Uuid := from16Bit 0x2900

theorem priService_ne_charDeclare : priServiceUuid ≠ charDeclareUuid := by decide

theorem secService_ne_charDeclare : secServiceUuid ≠ charDeclareUuid := by decide

/-- The types of the declaration of a service. -/
def IsServiceType (uuid : Uuid) : Prop := uuid = priServiceUuid ∨ uuid = secServiceUuid
  deriving Decidable

inductive GattStatus where
  | success
  | invalidHandle
  | readNotPermit
  | writeNotPermit
  | invalidPdu
  | insufAuthentication
  | reqNotSupported
  | prepareQFull
  | notFound
  | notLong
  | insufKeySize
  | invalidAttrLen
  | insufEncryption
  | unsupportGrpType
  | insufResource
  | databaseOutOfSync
  | noResources
  | illegalParameter
  | busy
  | error
  | pending
  deriving DecidableEq

/-- The number of a status. -/
def GattStatus.code : GattStatus → UInt8
  | .success => 0x00
  | .invalidHandle => 0x01
  | .readNotPermit => 0x02
  | .writeNotPermit => 0x03
  | .invalidPdu => 0x04
  | .insufAuthentication => 0x05
  | .reqNotSupported => 0x06
  | .prepareQFull => 0x09
  | .notFound => 0x0a
  | .notLong => 0x0b
  | .insufKeySize => 0x0c
  | .invalidAttrLen => 0x0d
  | .insufEncryption => 0x0f
  | .unsupportGrpType => 0x10
  | .insufResource => 0x11
  | .databaseOutOfSync => 0x12
  | .noResources => 0x80
  | .illegalParameter => 0x87
  | .busy => 0x84
  | .error => 0x85
  | .pending => 0x88

/-- `bt_gatt_db_attribute_type_t`. -/
inductive AttrType where
  | primaryService
  | secondaryService
  | includedService
  | characteristic
  | descriptor
  deriving DecidableEq

/-- `tGATT_ATTR_VALUE`, with the member that was stored last. -/
inductive AttrValue where
  | uuid (uuid : Uuid)
  | charDecl (property : UInt8) (charValHandle : Nat)
  | inclHandle (sHandle eHandle : Nat) (serviceType : Uuid)
  | charExtProp (extendedProperties : Nat)
  deriving DecidableEq

/-- `tGATT_ATTR`. -/
structure Attr where
  value : Option AttrValue
  permission : UInt16
  handle : Nat
  uuid : Uuid
  gattType : AttrType
  deriving DecidableEq

def permRead : UInt16 := 1

def isGattAttrType (uuid : Uuid) : Bool :=
  uuid == priServiceUuid || uuid == secServiceUuid || uuid == includeServiceUuid ||
    uuid == charDeclareUuid

/--
The attributes that there are: those that the stack answers by itself have a value of the
kind that their type tells, and the others belong to a characteristic or to a descriptor.
-/
inductive Attr.Built : Attr → Prop
  | service (uuid type : Uuid) (handle : Nat) (kind : IsServiceType type) :
      Built ⟨some (.uuid uuid), permRead, handle, type, .primaryService⟩
  | included (sHandle eHandle : Nat) (service : Uuid) (handle : Nat) :
      Built ⟨some (.inclHandle sHandle eHandle service), permRead, handle, includeServiceUuid,
        .primaryService⟩
  | declaration (property : UInt8) (charValHandle handle : Nat) :
      Built ⟨some (.charDecl property charValHandle), permRead, handle, charDeclareUuid,
        .primaryService⟩
  | extended (extendedProperties handle : Nat) :
      Built ⟨some (.charExtProp extendedProperties), permRead, handle, charExtPropUuid, .descriptor⟩
  | characteristic (uuid : Uuid) (perm : UInt16) (handle : Nat)
      (own : isGattAttrType uuid = false) : Built ⟨none, perm, handle, uuid, .characteristic⟩
  | descriptor (uuid : Uuid) (perm : UInt16) (handle : Nat)
      (own : isGattAttrType uuid = false) : Built ⟨none, perm, handle, uuid, .descriptor⟩

/-- `tGATT_SVC_DB`. -/
structure SvcDb where
  attrList : List Attr
  endHandle : Nat
  nextHandle : Nat
  deriving DecidableEq

/-- What each new attribute keeps. -/
structure SvcDb.Growing (db : SvcDb) (sHdl : Nat) : Prop where
  consecutive : db.attrList.map Attr.handle = List.range' sHdl db.attrList.length
  next : db.nextHandle = sHdl + db.attrList.length
  inside : db.nextHandle ≤ db.endHandle
  word : db.endHandle < 65536
  declared : ∃ declaration rest, db.attrList = declaration :: rest ∧
    IsServiceType declaration.uuid ∧ ∀ attr ∈ rest, ¬IsServiceType attr.uuid
  built : ∀ attr ∈ db.attrList, attr.Built

/-- What the functions that build a service keep. -/
structure SvcDb.Formed (db : SvcDb) (sHdl : Nat) : Prop extends db.Growing sHdl where
  valued : ∀ attr, db.attrList.getLast? = some attr → attr.uuid ≠ charDeclareUuid

section

variable (db : SvcDb)

/--
`allocate_attr_in_db`, with what its caller stores in the new attribute.  There is no
result if the handles are used up.
-/
def allocateAttrInDb (uuid : Uuid) (perm : UInt16) (gattType : AttrType)
    (value : Option AttrValue) : Option SvcDb :=
  if db.nextHandle ≥ db.endHandle then none
  else
    some { db with
      attrList := db.attrList ++ [⟨value, perm, db.nextHandle, uuid, gattType⟩]
      nextHandle := db.nextHandle + 1 }

def gattsInitServiceDb (serviceUuid : Uuid) (isPri : Bool) (sHdl numHandle : Nat) : Option SvcDb :=
  allocateAttrInDb ⟨[], (sHdl + numHandle) % 65536, sHdl⟩
    (from16Bit (if isPri then 0x2800 else 0x2801)) permRead .primaryService
    (some (.uuid serviceUuid))

def gattsAddIncludedService (sHandle eHandle : Nat) (service : Uuid) : Option SvcDb :=
  if service = emptyUuid ∨ sHandle = 0 ∨ eHandle = 0 then some db
  else
    allocateAttrInDb db includeServiceUuid permRead .primaryService
      (some (.inclHandle sHandle eHandle service))

def gattsAddCharacteristic (perm : UInt16) (property : UInt8) (charUuid : Uuid) : Option SvcDb :=
  (allocateAttrInDb db charDeclareUuid permRead .primaryService
    (some (.charDecl property (db.nextHandle + 1)))).bind
    fun db => allocateAttrInDb db charUuid perm .characteristic none

def gattsAddCharExtPropDescr (extendedProperties : Nat) : Option SvcDb :=
  allocateAttrInDb db charExtPropUuid permRead .descriptor (some (.charExtProp extendedProperties))

def gattsAddCharDescr (perm : UInt16) (descrUuid : Uuid) : Option SvcDb :=
  allocateAttrInDb db descrUuid perm .descriptor none

/-- `btgatt_db_element_t`, with the range of an included service looked up. -/
inductive DbElement where
  | includedService (sHandle eHandle : Nat) (service : Uuid)
  | characteristic (uuid : Uuid) (properties : UInt8) (extendedProperties : Nat)
      (permissions : UInt16)
  | descriptor (uuid : Uuid) (permissions : UInt16)

/-- `GATT_CHAR_PROP_BIT_AUTH`, `GATT_WRITE_SIGNED_PERM`: both or none has to be set. -/
def signedMismatch (properties : UInt8) (permissions : UInt16) : Bool :=
  (properties &&& 0x40 != 0) != (permissions &&& 0x180 != 0)

/-- `GATTS_AddService` refuses the element. -/
def DbElement.isRefused : DbElement → Bool
  | .characteristic uuid properties _ permissions =>
    signedMismatch properties permissions || isGattAttrType uuid
  | .descriptor uuid _ => isGattAttrType uuid
  | .includedService _ _ _ => false

/-- The loop of `GATTS_AddService` over one element that is not refused. -/
def addElement : DbElement → Option SvcDb
  | .characteristic uuid properties extendedProperties permissions =>
    (gattsAddCharacteristic db permissions properties uuid).bind fun db =>
      if properties &&& 0x80 != 0 then gattsAddCharExtPropDescr db extendedProperties
      else some db
  | .descriptor uuid permissions => gattsAddCharDescr db permissions uuid
  | .includedService sHandle eHandle service => gattsAddIncludedService db sHandle eHandle service

end

/-- The loop of `GATTS_AddService`. -/
def addElements (db : SvcDb) : List DbElement → Option SvcDb
  | [] => some db
  | element :: rest =>
    if element.isRefused then none else (addElement db element).bind (addElements · rest)

/-- The handles that an element takes. -/
def DbElement.size : DbElement → Nat
  | .characteristic _ properties _ _ => if properties &&& 0x80 != 0 then 3 else 2
  | .descriptor _ _ | .includedService _ _ _ => 1

def computeServiceSize (elements : List DbElement) : Nat :=
  (elements.foldl (fun size element => size + element.size) 1) % 65536

/-- The database that `GATTS_AddService` builds for a service from a handle on. -/
def gattsAddService (serviceUuid : Uuid) (isPri : Bool) (sHdl : Nat) (elements : List DbElement) :
    Option SvcDb :=
  if computeServiceSize elements > 0xFFFF - sHdl + 1 then none
  else
    (gattsInitServiceDb serviceUuid isPri sHdl (computeServiceSize elements)).bind
      (addElements · elements)

variable {db grown : SvcDb}

variable {perm : UInt16} {gattType : AttrType} {value : Option AttrValue}

theorem allocateAttrInDb_eq_some
    (allocated : allocateAttrInDb db uuid perm gattType value = some grown) :
    db.nextHandle < db.endHandle ∧ grown = { db with
      attrList := db.attrList ++ [⟨value, perm, db.nextHandle, uuid, gattType⟩]
      nextHandle := db.nextHandle + 1 } := by
  obtain ⟨room, same⟩ := ite_none_left_eq_some.mp allocated
  exact ⟨Nat.not_le.mp room, (some.inj same).symm⟩

theorem gattsInitServiceDb_formed {serviceUuid : Uuid} {isPri : Bool} {numHandle : Nat}
    (built : gattsInitServiceDb serviceUuid isPri sHdl numHandle = some db) :
    db.Formed sHdl := by
  obtain ⟨room, rfl⟩ := allocateAttrInDb_eq_some built
  have kind : IsServiceType (from16Bit (if isPri then 0x2800 else 0x2801)) := by
    cases isPri
    · exact .inr rfl
    · exact .inl rfl
  refine ⟨⟨rfl, rfl, room, Nat.mod_lt _ (by decide), ⟨_, [], rfl, kind, ?_⟩, ?_⟩, ?_⟩
  · intro attr listed
    cases listed
  · intro attr listed
    cases mem_singleton.mp listed
    exact .service serviceUuid _ sHdl kind
  · intro attr last
    cases last
    cases isPri
    · exact secService_ne_charDeclare
    · exact priService_ne_charDeclare

namespace SvcDb

variable (growing : db.Growing sHdl)
  (built : Attr.Built ⟨value, perm, db.nextHandle, uuid, gattType⟩) (inner : ¬IsServiceType uuid)
  (allocated : allocateAttrInDb db uuid perm gattType value = some grown)
include growing built inner allocated

theorem Growing.allocate : grown.Growing sHdl := by
  obtain ⟨room, rfl⟩ := allocateAttrInDb_eq_some allocated
  obtain ⟨consecutive, next, -, word, ⟨first, rest, same, declares, alone⟩, all⟩ := growing
  refine ⟨?_, ?_, room, word, ⟨first,
    rest ++ [⟨value, perm, db.nextHandle, uuid, gattType⟩], ?_, declares, ?_⟩, ?_⟩
  · rw [map_append, consecutive, length_append, length_singleton,
      List.range'_concat, Nat.one_mul, map_singleton, next]
  · rw [length_append, length_singleton, next, Nat.add_assoc]
  · rw [same, cons_append]
  · exact forall_mem_append.mpr ⟨alone, forall_mem_singleton.mpr inner⟩
  · exact forall_mem_append.mpr ⟨all, forall_mem_singleton.mpr built⟩

theorem Growing.allocate_formed (valued : uuid ≠ charDeclareUuid) : grown.Formed sHdl := by
  refine ⟨growing.allocate built inner allocated, fun attr last => ?_⟩
  obtain ⟨-, rfl⟩ := allocateAttrInDb_eq_some allocated
  rw [List.getLast?_concat] at last
  cases last
  exact valued

end SvcDb

theorem ne_of_isGattAttrType (own : isGattAttrType uuid = false) :
    uuid ≠ priServiceUuid ∧ uuid ≠ secServiceUuid ∧ uuid ≠ includeServiceUuid ∧
      uuid ≠ charDeclareUuid := by
  simpa [isGattAttrType, and_assoc] using own

theorem inner_of_isGattAttrType (own : isGattAttrType uuid = false) :
    ¬IsServiceType uuid := by
  obtain ⟨primary, secondary, -⟩ := ne_of_isGattAttrType own
  rintro (same | same)
  · exact primary same
  · exact secondary same

theorem addElement_formed (formed : db.Formed sHdl) {element : DbElement}
    (accepted : element.isRefused = false) (added : addElement db element = some grown) : grown.Formed sHdl := by
  cases element with
  | includedService sHandle eHandle service =>
    rw [addElement, gattsAddIncludedService] at added
    split at added
    · exact some.inj added ▸ formed
    · exact formed.allocate_formed (.included sHandle eHandle service _) (by decide) added
        (by decide)
  | characteristic uuid properties extendedProperties permissions =>
    have own := (Bool.or_eq_false_iff.mp accepted).2
    obtain ⟨both, characteristic, rest⟩ := bind_eq_some_iff.mp added
    obtain ⟨declared, declaration, value⟩ := bind_eq_some_iff.mp characteristic
    have growing := formed.toGrowing.allocate (.declaration properties _ _) (by decide) declaration
    have formedBoth := growing.allocate_formed (.characteristic uuid permissions _ own)
      (inner_of_isGattAttrType own) value (ne_of_isGattAttrType own).2.2.2
    split at rest
    · exact formedBoth.allocate_formed (.extended extendedProperties _) (by decide) rest (by decide)
    · exact some.inj rest ▸ formedBoth
  | descriptor uuid permissions =>
    exact formed.allocate_formed (.descriptor uuid permissions _ accepted)
      (inner_of_isGattAttrType accepted) added (ne_of_isGattAttrType accepted).2.2.2

theorem addElements_formed (formed : db.Formed sHdl) {elements : List DbElement}
    (added : addElements db elements = some grown) :
    grown.Formed sHdl := by
  induction elements generalizing db with
  | nil => exact some.inj added ▸ formed
  | cons element rest ih =>
    obtain ⟨accepted, added⟩ := ite_none_left_eq_some.mp added
    obtain ⟨more, first, others⟩ := bind_eq_some_iff.mp added
    exact ih (addElement_formed formed (Bool.not_eq_true _ ▸ accepted) first) others

theorem gattsAddService_formed {serviceUuid : Uuid} {isPri : Bool} {sHdl : Nat}
    {elements : List DbElement} {db : SvcDb}
    (added : gattsAddService serviceUuid isPri sHdl elements = some db) : db.Formed sHdl := by
  obtain ⟨-, added⟩ := ite_none_left_eq_some.mp added
  obtain ⟨first, initial, others⟩ := bind_eq_some_iff.mp added
  exact addElements_formed (gattsInitServiceDb_formed initial) others

/-- `tGATT_SRV_LIST_ELEM`. -/
structure SrvListElem where
  sHdl : Nat
  eHdl : Nat
  gattIf : Nat
  isPrimary : Bool
  db : SvcDb
  positive : 0 < sHdl
  formed : db.Formed sHdl
  reach : db.endHandle = eHdl + 1

namespace SrvListElem

theorem eHdl_lt (el : SrvListElem) : el.eHdl < 0xFFFF := by
  have word := el.formed.word
  rw [el.reach] at word
  omega

theorem mem_attrList {el : SrvListElem} {attr : Attr} (listed : attr ∈ el.db.attrList) :
    el.sHdl ≤ attr.handle ∧ attr.handle ≤ el.eHdl := by
  have handle : attr.handle ∈ List.range' el.sHdl el.db.attrList.length :=
    el.formed.consecutive ▸ mem_map_of_mem listed
  rw [mem_range'_1] at handle
  have next := el.formed.next
  have inside := el.formed.inside
  have reach := el.reach
  omega

theorem ascending (el : SrvListElem) :
    el.db.attrList.Pairwise fun first second => first.handle < second.handle := by
  have ordered : (el.db.attrList.map Attr.handle).Pairwise (· < ·) :=
    el.formed.consecutive ▸ pairwise_lt_range'
  exact pairwise_map.mp ordered

theorem declaration (el : SrvListElem) : ∃ declaration rest,
    el.db.attrList = declaration :: rest ∧ IsServiceType declaration.uuid ∧
      declaration.handle = el.sHdl := by
  obtain ⟨first, rest, same, declares, -⟩ := el.formed.declared
  refine ⟨first, rest, same, declares, ?_⟩
  have consecutive := el.formed.consecutive
  rw [same, map_cons, length_cons, List.range'_succ] at consecutive
  exact (List.cons.inj consecutive).1

end SrvListElem

/-- `srv_list_info`: services with disjoint ranges of handles. -/
structure SrvListInfo where
  services : List SrvListElem
  ascending : services.Pairwise fun first second => first.eHdl < second.sHdl

def SrvListInfo.attributes (info : SrvListInfo) : List Attr :=
  info.services.flatMap fun el => el.db.attrList

theorem SrvListInfo.handle_range {info : SrvListInfo} {attr : Attr}
    (listed : attr ∈ info.attributes) : 0 < attr.handle ∧ attr.handle < 0xFFFF := by
  obtain ⟨el, -, member⟩ := mem_flatMap.mp listed
  have range := SrvListElem.mem_attrList member
  have positive := el.positive
  have upper := el.eHdl_lt
  omega

theorem ascending_flatMap {services : List SrvListElem}
    (ascending : services.Pairwise fun first second => first.eHdl < second.sHdl) :
    (services.flatMap fun el => el.db.attrList).Pairwise
      fun first second => first.handle < second.handle := by
  rw [pairwise_flatMap]
  refine ⟨fun el _ => el.ascending, ascending.imp ?_⟩
  intro first second before attr listed other behind
  have upper := (SrvListElem.mem_attrList listed).2
  have lower := (SrvListElem.mem_attrList behind).1
  omega

end BluetoothFormal.Gatt.Legacy
