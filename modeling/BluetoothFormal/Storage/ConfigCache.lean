import BluetoothFormal.Foundation.Recency
import BluetoothFormal.Foundation.Transition

/-!
# The config cache

A config cache holds sections of properties in three maps: sections that do not belong
to a device, devices that are written to disk, and devices that are not.  A device
becomes persistent when one of the persistent properties is set.

The maps are list maps and an LRU cache, which are taken here as their lists of entries.
Strings are lists of bytes.  There is no keystore.
-/

namespace BluetoothFormal.Storage

open Foundation Foundation.KeyedList

/-- `std::string`. -/
abbrev Text := List UInt8

scoped instance text_lawfulBEq : LawfulBEq Text := inferInstance

def ascii (string : String) : Text := string.toList.map fun char => UInt8.ofNat char.toNat

def newline : UInt8 := 0x0A
def space : UInt8 := 0x20

/-- `isspace` in the C locale. -/
def isSpace (byte : UInt8) : Bool := byte = space || (0x09 ≤ byte && byte ≤ 0x0D)

/-- `isxdigit`. -/
def isHexDigit (byte : UInt8) : Bool :=
  (0x30 ≤ byte && byte ≤ 0x39) || (0x41 ≤ byte && byte ≤ 0x46) || (0x61 ≤ byte && byte ≤ 0x66)

def trimAfterNewLine (value : Text) : Text := value.takeWhile fun byte => byte ≠ newline

/-- What `getline` reads from a stream, one after the other. -/
def getlines (delimiter : UInt8) (text : Text) : List Text :=
  let lines := text.splitOn delimiter
  if lines.getLast? = some [] then lines.dropLast else lines

/--
`strtol` in base 16 reads two characters to their end: two digits, or a digit behind
what may come in front of a number.
-/
def readsOctet : Text → Bool
  | [first, second] =>
    isHexDigit second && (isHexDigit first || isSpace first || first = 0x2B || first = 0x2D)
  | _ => false

def isValidAddress (address : Text) : Bool :=
  let octets := getlines 0x3A address
  address.length = 17 && octets.all readsOctet && octets.length = 6

/-- The properties of a section, in a list map. -/
abbrev Properties := List (Text × Text)

abbrev Sections := List (Text × Properties)

structure ConfigCache where
  persistentPropertyNames : List Text
  informationSections : Sections
  persistentDevices : Sections
  temporaryCapacity : Nat
  temporaryDevices : Sections
  deriving DecidableEq

/-- `Device::kLinkKeyProperties`, the persistent properties of the caches that are saved. -/
def linkKeyProperties : List Text :=
  [ascii "LinkKey", ascii "LE_KEY_PENC", ascii "LE_KEY_PID", ascii "LE_KEY_PCSRK",
    ascii "LE_KEY_LENC", ascii "LE_KEY_LCSRK"]

/-- What a call returns and leaves, and whether it notifies that the saved sections change. -/
structure Outcome (Result : Type) where
  cache : ConfigCache
  notified : Bool
  result : Result

namespace ConfigCache

/-- The constructor. -/
def new (tempDeviceCapacity : Nat) (persistentPropertyNames : List Text) : ConfigCache :=
  ⟨persistentPropertyNames, [], [], tempDeviceCapacity, []⟩

def isDeviceSection (name : Text) : Bool := isValidAddress name

section

variable (cache : ConfigCache)

def isPersistentProperty (property : Text) : Bool :=
  property ∈ cache.persistentPropertyNames

section

variable (name : Text)

/-- A section at the end of a list map, if it has none of this name. -/
def tryEmplaceBack (properties : Properties) (sections : Sections) : Sections :=
  if name ∈ keys sections then sections else sections ++ [(name, properties)]

/-- Move a device to the persistent ones, or create it there. -/
def promote : ConfigCache :=
  match lookup name cache.temporaryDevices with
  | some properties =>
    { cache with
      persistentDevices := tryEmplaceBack name properties cache.persistentDevices
      temporaryDevices := remove name cache.temporaryDevices }
  | none =>
    { cache with persistentDevices := tryEmplaceBack name [] cache.persistentDevices }

/-- The temporary devices after a device was looked for and created if it was missing. -/
def findOrEmplace : Sections :=
  let devices := toFront name cache.temporaryDevices
  if name ∈ keys devices then devices
  else (Recency.tryEmplace cache.temporaryCapacity name [] devices).2

/-- `SetProperty` behind the assertions. -/
def storeProperty (name property value : Text) : Outcome Unit :=
  if !isDeviceSection name then
    let sections := tryEmplaceBack name [] cache.informationSections
    ⟨{ cache with informationSections := update name (put property value) sections }, true, ()⟩
  else
    let cache :=
      if name ∉ keys cache.persistentDevices ∧ cache.isPersistentProperty property then
        cache.promote name
      else cache
    if name ∈ keys cache.persistentDevices then
      ⟨{ cache with
        persistentDevices := update name (put property value) cache.persistentDevices }, true, ()⟩
    else
      ⟨{ cache with
        temporaryDevices := update name (put property value) (cache.findOrEmplace name) },
        false, ()⟩

/-- `SetProperty`; an empty name of a section or property is an assertion failure. -/
def setProperty (name property value : Text) : Option (Outcome Unit) :=
  let name := trimAfterNewLine name
  let property := trimAfterNewLine property
  let value := trimAfterNewLine value
  if name = [] then none
  else if property = [] then none
  else some (cache.storeProperty name property value)

def removeSection : Outcome Bool :=
  if name ∈ keys cache.informationSections then
    ⟨{ cache with informationSections := remove name cache.informationSections }, true, true⟩
  else if name ∈ keys cache.persistentDevices then
    ⟨{ cache with persistentDevices := remove name cache.persistentDevices }, true, true⟩
  else
    ⟨{ cache with temporaryDevices := remove name cache.temporaryDevices }, false,
      name ∈ keys cache.temporaryDevices⟩

/-- A section with fewer properties at its place, or none if they are gone. -/
def keepFilled (properties : Properties) (sections : Sections) : Sections :=
  if properties.length = 0 then remove name sections else update name (fun _ => properties) sections

end

def removeProperty (name property : Text) : Outcome Bool :=
  match lookup name cache.informationSections with
  | some properties =>
    ⟨{ cache with
      informationSections :=
        keepFilled name (remove property properties) cache.informationSections },
      property ∈ keys properties, property ∈ keys properties⟩
  | none =>
    match lookup name cache.persistentDevices with
    | some properties =>
      let left := remove property properties
      let cache :=
        if left.length = 0 then
          { cache with persistentDevices := remove name cache.persistentDevices }
        else if property ∈ keys properties ∧ cache.isPersistentProperty property then
          -- move unpaired device
          { cache with
            persistentDevices := remove name cache.persistentDevices
            temporaryDevices :=
              (Recency.insertOrAssign cache.temporaryCapacity name left cache.temporaryDevices).2 }
        else
          { cache with
            persistentDevices := update name (fun _ => left) cache.persistentDevices }
      ⟨cache, property ∈ keys properties, property ∈ keys properties⟩
    | none =>
      match lookup name cache.temporaryDevices with
      | some properties =>
        ⟨{ cache with
          temporaryDevices :=
            keepFilled name (remove property properties) (toFront name cache.temporaryDevices) },
          false, property ∈ keys properties⟩
      | none => ⟨cache, false, false⟩

def withoutProperty (property : Text) (sections : Sections) : Sections :=
  sections.filter fun entry => property ∉ keys entry.2

def removeSectionWithProperty (property : Text) : Outcome Unit :=
  let information := withoutProperty property cache.informationSections
  let persistent := withoutProperty property cache.persistentDevices
  ⟨{ cache with
    informationSections := information
    persistentDevices := persistent
    temporaryDevices := withoutProperty property cache.temporaryDevices },
    0 < (cache.informationSections.length - information.length) +
      (cache.persistentDevices.length - persistent.length), ()⟩

inductive MutationEntry where
  | set (name property value : Text)
  | removeProperty (name property : Text)
  | removeSection (name : Text)

/-- One entry of a commit. -/
def mutate : MutationEntry → Option (Outcome Unit)
  | .set name property value => cache.setProperty name property value
  | .removeProperty name property =>
    let outcome := cache.removeProperty name property
    some ⟨outcome.cache, outcome.notified, ()⟩
  | .removeSection name =>
    let outcome := cache.removeSection name
    some ⟨outcome.cache, outcome.notified, ()⟩

def commit (cache : ConfigCache) : List MutationEntry → Option (Outcome Unit)
  | [] => some ⟨cache, false, ()⟩
  | entry :: rest => do
    let first ← cache.mutate entry
    let last ← first.cache.commit rest
    return ⟨last.cache, first.notified || last.notified, ()⟩

/-- The calls that change a cache; those of a commit are also calls of their own. -/
inductive Call where
  | mutation (entry : MutationEntry)
  | removeSectionWithProperty (property : Text)
  | commit (entries : List MutationEntry)

/-- A call, with what it notifies. -/
def call : Call → Option (Outcome Unit)
  | .mutation entry => cache.mutate entry
  | .removeSectionWithProperty property => some (cache.removeSectionWithProperty property)
  | .commit entries => cache.commit entries

def next (event : Call) : Option ConfigCache :=
  (cache.call event).map Outcome.cache

end

end ConfigCache

end BluetoothFormal.Storage
