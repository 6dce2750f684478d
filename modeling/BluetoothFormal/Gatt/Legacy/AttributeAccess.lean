import BluetoothFormal.Gatt.Legacy.Pdu

/-!
# Access to the attributes of the legacy GATT server

Which attributes may be read, and the values of those that the stack answers by itself.
The value of a declaration of a characteristic has the type of the attribute behind it.
-/

namespace BluetoothFormal.Gatt.Legacy

open L2cap List

/-- `tGATT_SEC_FLAG` and the size of the key. -/
structure SecInfo where
  isLinkKeyKnown : Bool
  isLinkKeyAuthed : Bool
  isEncrypted : Bool
  canReadDiscoverableCharacteristics : Bool
  keySize : Nat

def permReadEncrypted : UInt16 := 0x02

def permReadEncMitm : UInt16 := 0x04

def permReadIfEncryptedOrDiscoverable : UInt16 := 0x200

def readAllowed : UInt16 :=
  permRead ||| permReadEncrypted ||| permReadEncMitm ||| permReadIfEncryptedOrDiscoverable

def readEncryptedRequired : UInt16 := permReadEncrypted ||| permReadEncMitm

def minKeySize (perm : UInt16) : Nat :=
  let size := ((perm &&& 0xF000) >>> 12).toNat
  if size ≠ 0 then size + 6 else size

/-- The types that `gatts_check_attr_readability` does not read in parts. -/
def notLongTypes : List UInt16 :=
  [0x2800, 0x2801, 0x2803, 0x2802, 0x2900, 0x2902, 0x2903, 0x2904]

def gattsCheckAttrReadability (attr : Attr) (readLong : Bool) (sec : SecInfo) : GattStatus :=
  let perm := attr.permission
  if perm &&& readAllowed = 0 then .readNotPermit
  else if perm &&& permReadEncrypted ≠ 0 ∧ ¬sec.isLinkKeyKnown ∧ ¬sec.isEncrypted then
    .insufAuthentication
  else if perm &&& permReadEncMitm ≠ 0 ∧ ¬sec.isLinkKeyAuthed then .insufAuthentication
  else if perm &&& readEncryptedRequired ≠ 0 ∧ ¬sec.isEncrypted then .insufEncryption
  else if perm &&& readEncryptedRequired ≠ 0 ∧ sec.isEncrypted ∧
      sec.keySize < minKeySize perm then .insufKeySize
  else if perm &&& permReadIfEncryptedOrDiscoverable ≠ 0 ∧ ¬sec.canReadDiscoverableCharacteristics ∧
      (¬sec.isLinkKeyKnown ∨ ¬sec.isEncrypted) then .insufAuthentication
  else if perm &&& permReadIfEncryptedOrDiscoverable ≠ 0 ∧
      ¬sec.canReadDiscoverableCharacteristics ∧ sec.keySize < minKeySize perm then .insufKeySize
  else if readLong ∧ is16Bit attr.uuid ∧ as16Bit attr.uuid ∈ notLongTypes then .notLong
  else .success

def GattStatus.IsRefusal (status : GattStatus) : Prop :=
  status = .readNotPermit ∨ status = .insufAuthentication ∨ status = .insufEncryption ∨
    status = .insufKeySize ∨ status = .notLong

theorem gattsCheckAttrReadability_cases (attr : Attr) (readLong : Bool) (sec : SecInfo) :
    gattsCheckAttrReadability attr readLong sec = .success ∨
      (gattsCheckAttrReadability attr readLong sec).IsRefusal := by
  rw [gattsCheckAttrReadability]
  repeat' split
  all_goals simp [GattStatus.IsRefusal]

def gattBuildUuidToStreamLen (uuid : Uuid) : Nat :=
  if getShortestRepresentationSize uuid = 4 then 16 else getShortestRepresentationSize uuid

def gattBuildUuidToStream (uuid : Uuid) : List UInt8 :=
  if uuid = emptyUuid then []
  else if getShortestRepresentationSize uuid = 2 then uint16ToStream (as16Bit uuid).toNat
  else to128BitLE uuid

/-- The memory from a place on, to which bytes have been written and which was zero before. -/
def zeroFilled (len : Nat) (bytes : List UInt8) : List UInt8 :=
  bytes ++ replicate (len - bytes.length) 0

structure Entry where
  attr : Attr
  behind : Option Attr

/-- The attributes of a service, each with the one behind it. -/
def entries : List Attr → List Entry
  | [] => []
  | attr :: rest => ⟨attr, rest.head?⟩ :: entries rest

/--
The value that `read_attr_value` finds for an attribute, or none if the application has to
be asked.  There is no result if the value of the attribute is missing or of another kind.
-/
def findValue (entry : Entry) : Option (Option (List UInt8)) :=
  if ¬is16Bit entry.attr.uuid then some none
  else
    let uuid16 := as16Bit entry.attr.uuid
    if uuid16 = 0x2800 ∨ uuid16 = 0x2801 then
      match entry.attr.value with
      | some (.uuid uuid) =>
        some (some (zeroFilled (gattBuildUuidToStreamLen uuid) (gattBuildUuidToStream uuid)))
      | _ => none
    else if uuid16 = 0x2803 then
      match entry.behind, entry.attr.value with
      | some value, some (.charDecl property charValHandle) =>
        some (some (property :: uint16ToStream charValHandle ++
          if getShortestRepresentationSize value.uuid = 2 then
            uint16ToStream (as16Bit value.uuid).toNat
          else to128BitLE value.uuid))
      | _, _ => none
    else if uuid16 = 0x2802 then
      match entry.attr.value with
      | some (.inclHandle sHandle eHandle serviceType) =>
        some (some (uint16ToStream sHandle ++ uint16ToStream eHandle ++
          if is16Bit serviceType then uint16ToStream (as16Bit serviceType).toNat else []))
      | _ => none
    else if uuid16 = 0x2900 then
      match entry.attr.value with
      | some (.charExtProp extendedProperties) => some (some (uint16ToStream extendedProperties))
      | none => some (some (uint16ToStream 0))
      | _ => none
    else some none

/-- `read_attr_value`: the status and the value. -/
def readAttrValue (entry : Entry) (readLong : Bool) (mtu : Nat) (sec : SecInfo) :
    Option (GattStatus × List UInt8) :=
  match gattsCheckAttrReadability entry.attr readLong sec with
  | .success =>
    (findValue entry).map fun
      | none => (.pending, [])
      | some value => if mtu < value.length then (.noResources, []) else (.success, value)
  | status => some (status, [])

/-- The types of the attributes that the stack answers by itself. -/
def internalTypes : List Uuid :=
  [priServiceUuid, secServiceUuid, includeServiceUuid, charDeclareUuid, charExtPropUuid]

variable {entry : Entry} {attrs : List Attr} {uuid : Uuid}

theorem attr_mem_of_entry (listed : entry ∈ entries attrs) :
    entry.attr ∈ attrs := by
  induction attrs with
  | nil => cases listed
  | cons attr rest ih =>
    rcases mem_cons.mp listed with rfl | later
    · exact mem_cons_self ..
    · exact mem_cons_of_mem _ (ih later)

theorem getLast?_of_entry (listed : entry ∈ entries attrs) (alone : entry.behind = none) :
    attrs.getLast? = some entry.attr := by
  induction attrs with
  | nil => cases listed
  | cons attr rest ih =>
    rcases mem_cons.mp listed with rfl | later
    · cases rest with
      | nil => rfl
      | cons next others => cases alone
    · cases rest with
      | nil => cases later
      | cons next others =>
        rw [getLast?_cons_cons]
        exact ih later

theorem length_gattBuildUuidToStream_le (uuid : Uuid) :
    (gattBuildUuidToStream uuid).length ≤ gattBuildUuidToStreamLen uuid ∧
      0 < gattBuildUuidToStreamLen uuid ∧ gattBuildUuidToStreamLen uuid ≤ 16 := by
  rw [gattBuildUuidToStream, gattBuildUuidToStreamLen]
  rcases shortestSize_cases uuid with ⟨-, size⟩ | ⟨-, size | size⟩
  · rw [size]
    split
    · exact ⟨Nat.zero_le _, by decide⟩
    · exact ⟨Nat.le_refl 2, by decide⟩
  all_goals
    rw [size]
    split
    · exact ⟨Nat.zero_le _, by decide⟩
    · exact ⟨Nat.le_of_eq (length_to128BitLE uuid), by decide⟩

def uuidBytes (uuid : Uuid) : List UInt8 :=
  if gattBuildUuidToStreamLen uuid = 2 then uint16ToStream (as16Bit uuid).toNat
  else to128BitLE uuid

theorem length_uuidBytes (uuid : Uuid) :
    (uuidBytes uuid).length = gattBuildUuidToStreamLen uuid := by
  rw [uuidBytes, gattBuildUuidToStreamLen]
  rcases shortestSize_cases uuid with ⟨_, size⟩ | ⟨_, size | size⟩
  · simp [size, length_uint16ToStream]
  · simp [size, length_to128BitLE]
  · simp [size, length_to128BitLE]

theorem gattBuildUuidToStream_of_ne (named : uuid ≠ emptyUuid) :
    gattBuildUuidToStream uuid = uuidBytes uuid := by
  rw [gattBuildUuidToStream, if_neg named, uuidBytes, gattBuildUuidToStreamLen]
  rcases shortestSize_cases uuid with ⟨_, size⟩ | ⟨_, size | size⟩ <;> simp [size]

variable {perm : UInt16} {handle : Nat} {gattType : AttrType} {behind : Option Attr}

theorem findValue_service {type : Uuid} (kind : IsServiceType type) (uuid : Uuid) :
    findValue ⟨⟨some (.uuid uuid), perm, handle, type, gattType⟩, behind⟩ =
      some (some (zeroFilled (gattBuildUuidToStreamLen uuid) (gattBuildUuidToStream uuid))) := by
  rcases kind with rfl | rfl
  · simp [findValue, priServiceUuid]
  · simp [findValue, secServiceUuid]

theorem findValue_included (sHandle eHandle : Nat) (service : Uuid) :
    findValue ⟨⟨some (.inclHandle sHandle eHandle service), perm, handle, includeServiceUuid,
        gattType⟩, behind⟩ = some (some (uint16ToStream sHandle ++ uint16ToStream eHandle ++
        if is16Bit service then uint16ToStream (as16Bit service).toNat else [])) := by
  simp [findValue, includeServiceUuid]

theorem findValue_declaration (property : UInt8) (charValHandle : Nat) (next : Attr) :
    findValue ⟨⟨some (.charDecl property charValHandle), perm, handle, charDeclareUuid, gattType⟩,
        some next⟩ = some (some (property :: uint16ToStream charValHandle ++
        if getShortestRepresentationSize next.uuid = 2 then
          uint16ToStream (as16Bit next.uuid).toNat
        else to128BitLE next.uuid)) := by
  simp [findValue, charDeclareUuid]

theorem findValue_extended (properties : Nat) :
    findValue ⟨⟨some (.charExtProp properties), perm, handle, charExtPropUuid, gattType⟩, behind⟩ =
      some (some (uint16ToStream properties)) := by
  simp [findValue, charExtPropUuid]

theorem findValue_unset :
    findValue ⟨⟨none, perm, handle, charExtPropUuid, gattType⟩, behind⟩ =
      some (some (uint16ToStream 0)) := by
  simp [findValue, charExtPropUuid]

theorem length_zeroFilled_le {len : Nat} {bytes : List UInt8}
    (bounds : bytes.length ≤ len ∧ 0 < len ∧ len ≤ 16) :
    0 < (zeroFilled len bytes).length ∧ (zeroFilled len bytes).length ≤ 19 := by
  rw [zeroFilled, length_append, length_replicate]
  omega

theorem extended_of_internal (own : isGattAttrType uuid = false) (type : uuid ∈ internalTypes) :
    uuid = charExtPropUuid := by
  obtain ⟨primary, secondary, included, declaration⟩ := ne_of_isGattAttrType own
  rw [internalTypes, mem_cons, mem_cons, mem_cons, mem_cons, mem_singleton] at type
  rcases type with same | same | same | same | same
  · exact absurd same primary
  · exact absurd same secondary
  · exact absurd same included
  · exact absurd same declaration
  · exact same

theorem internal_of_type {el : SrvListElem} (listed : entry ∈ entries el.db.attrList)
    (type : entry.attr.uuid ∈ internalTypes) :
    ∃ value, findValue entry = some (some value) ∧ 0 < value.length ∧ value.length ≤ 19 := by
  have built := el.formed.built _ (attr_mem_of_entry listed)
  have followed : entry.attr.uuid = charDeclareUuid → ∃ next, entry.behind = some next := by
    intro declares
    cases behind : entry.behind with
    | some next => exact ⟨next, rfl⟩
    | none =>
      exact absurd declares (el.formed.valued _ (getLast?_of_entry listed behind))
  obtain ⟨attr, behind⟩ := entry
  dsimp only at built followed type
  cases built with
  | service uuid kindUuid handle kind =>
    refine ⟨_, findValue_service kind uuid,
      length_zeroFilled_le (length_gattBuildUuidToStream_le uuid)⟩
  | included sHandle eHandle service handle =>
    refine ⟨_, findValue_included sHandle eHandle service, ?_⟩
    split <;> simp [length_uint16ToStream]
  | declaration property charValHandle handle =>
    obtain ⟨next, rfl⟩ := followed rfl
    refine ⟨_, findValue_declaration property charValHandle next, ?_⟩
    split
    · simp [length_uint16ToStream]
    · simp [length_uint16ToStream, length_to128BitLE]
  | extended properties handle =>
    refine ⟨_, findValue_extended properties, ?_⟩
    rw [length_uint16ToStream]
    decide
  | characteristic uuid perm handle own | descriptor uuid perm handle own =>
    obtain rfl := extended_of_internal own type
    exact ⟨_, findValue_unset, by decide⟩

end BluetoothFormal.Gatt.Legacy
