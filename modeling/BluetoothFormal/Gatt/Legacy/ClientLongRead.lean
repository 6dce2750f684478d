import BluetoothFormal.Gatt.Legacy.ClientNotifications

/-!
# Long reads of the legacy GATT client

A read by handle goes on with Read Blob requests while the responses are full.  A value
that ends with a full response is complete when the server refuses the first Read Blob
request, or answers it with no bytes.
-/

namespace BluetoothFormal.Gatt.Legacy.LongRead

open List

/-- The operation `tGATT_CLCB` of a read by handle. -/
structure ReadClcb where
  sHandle : Nat
  counter : Nat
  attrBuf : List UInt8
  firstReadBlobAfterRead : Bool
  readReqCurrentMtu : Nat

inductive ReadRequest where
  | read (handle : Nat)
  | readBlob (handle offset : Nat)

/-- `gatt_act_read` for `GATT_READ_BY_HANDLE`. -/
def gattActRead (clcb : ReadClcb) (offset : Nat) : ReadRequest × ReadClcb :=
  if clcb.counter = 0 then (.read clcb.sHandle, clcb)
  else
    (.readBlob clcb.sHandle offset,
      { clcb with firstReadBlobAfterRead := !clcb.firstReadBlobAfterRead })

/-- The operation goes on with a request, or `gatt_end_operation` tells a status and a value. -/
inductive ReadStep where
  | sends (request : ReadRequest) (clcb : ReadClcb)
  | ends (status : GattStatus) (value : List UInt8)

/-- `gatt_process_read_rsp` for `GATT_READ_BY_HANDLE`. -/
def gattProcessReadRsp (payloadSize : Nat) (clcb : ReadClcb) (data : List UInt8) : ReadStep :=
  let offset := clcb.counter
  if offset < maxAttrLen then
    let len := if data.length + offset > maxAttrLen then maxAttrLen - offset else data.length
    let packetIsFull := if payloadSize = clcb.readReqCurrentMtu then len = payloadSize - 1
      else len = clcb.readReqCurrentMtu - 1 ∨ len = payloadSize - 1
    let clcb :=
      { clcb with
        counter := offset + len
        attrBuf := clcb.attrBuf.take offset ++ data.take len
        readReqCurrentMtu := payloadSize }
    if packetIsFull ∧ len + offset < maxAttrLen then
      let (request, clcb) := gattActRead clcb clcb.counter
      .sends request clcb
    else .ends .success (clcb.attrBuf.take clcb.counter)
  else .ends .noResources (clcb.attrBuf.take clcb.counter)

section

variable {value : List UInt8} {payloadSize handle : Nat} {refuses : Bool}

/-- An operation that has the first bytes of the value. -/
structure Holds (value : List UInt8) (payloadSize handle : Nat) (clcb : ReadClcb) : Prop where
  handle : clcb.sHandle = handle
  mtu : clcb.readReqCurrentMtu = payloadSize
  buffer : clcb.attrBuf = value.take clcb.counter
  inside : clcb.counter ≤ value.length
  below : clcb.counter < 512

end

end BluetoothFormal.Gatt.Legacy.LongRead
