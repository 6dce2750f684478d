import BluetoothFormal.Foundation.OrderedInsert
import BluetoothFormal.Foundation.Transition
import BluetoothFormal.Gatt.Legacy.Database

/-!
# The database of a remote device

While the services of a remote device are discovered, a builder collects them with their
included services, characteristics and descriptors.  The database is stored as a flat list
of attributes, all services first, and read back in one pass over the list.
-/

namespace BluetoothFormal.Bta

open Gatt Gatt.Legacy

structure Descriptor where
  handle : Nat
  uuid : Uuid
  characteristicExtendedProperties : Nat
  deriving DecidableEq

structure Characteristic where
  declarationHandle : Nat
  uuid : Uuid
  valueHandle : Nat
  properties : UInt8
  descriptors : List Descriptor
  deriving DecidableEq

structure IncludedService where
  handle : Nat
  uuid : Uuid
  startHandle : Nat
  endHandle : Nat

structure Service where
  handle : Nat
  uuid : Uuid
  isPrimary : Bool
  endHandle : Nat
  includedServices : List IncludedService
  characteristics : List Characteristic

def handleInRange (handle : Nat) (service : Service) : Bool :=
  decide (handle ≥ service.handle ∧ handle ≤ service.endHandle)

def findService (services : List Service) (handle : Nat) : Option Service :=
  services.find? (handleInRange handle)

structure DatabaseBuilder where
  services : List Service
  pendingService : Nat × Nat
  pendingCharacteristic : Nat
  servicesToDiscover : List (Nat × Nat)
  descriptorHandlesToRead : List Nat

/-- `HANDLE_MIN` and `HANDLE_MAX`. -/
def handleMin : Nat := 0x0001
def handleMax : Nat := 0xFFFF

namespace DatabaseBuilder

def empty : DatabaseBuilder := ⟨[], (0, 0), 0, [], []⟩

end DatabaseBuilder

end BluetoothFormal.Bta
