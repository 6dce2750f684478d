import BluetoothFormal.Gatt.Legacy.AttributeAccess

/-!
# Discovery of primary services in the legacy GATT server

Read By Group Type and Find By Type Value are answered by one function.  If the value of
a Find By Type Value request has a length that no UUID has, an error is sent, but the
function goes on and sends a second PDU.
-/

namespace BluetoothFormal.Gatt.Legacy

open L2cap

def gattsGetServiceUuid (db : SvcDb) : Option Uuid :=
  db.attrList.head?.bind fun attr =>
    match attr.value with
    | some (.uuid uuid) => some uuid
    | _ => none

/-- A service that the loop of `gatt_build_primary_service_rsp` does not go past. -/
def InPrimaryRange (sHdl eHdl : Nat) (el : SrvListElem) : Prop :=
  ¬(el.sHdl < sHdl ∨ el.sHdl > eHdl ∨ el.isPrimary = false)
  deriving Decidable

/-- The length of an entry of the response. -/
def primaryHandleLen (opCode : UInt8) (uuid : Uuid) : Nat :=
  if opCode = reqReadByGrpType then 4 + gattBuildUuidToStreamLen uuid else 4

/--
The first service puts the opcode and the length of the entries in front.  The bytes of
the message are those that are written, and the length of the message is kept beside it.
-/
def openPrimaryRsp (opCode : UInt8) (handleLen : Nat) (msg : Msg) (len : Nat) :
    Option (Msg × Nat) :=
  if msg.offset = 0 then
    if opCode = reqReadByGrpType then
      (msg.write [opCode + 1, UInt8.ofNat handleLen]).map
        fun msg => ({ msg with offset := handleLen }, len + 2)
    else (msg.write [opCode + 1]).map fun msg => ({ msg with offset := handleLen }, len + 1)
  else some (msg, len)

def primaryEntry (lastServiceHandle : Nat) (opCode : UInt8) (el : SrvListElem) (uuid : Uuid) :
    List UInt8 :=
  uint16ToStream el.sHdl ++
    uint16ToStream (if lastServiceHandle ≠ 0 ∧ lastServiceHandle = el.sHdl then 0xFFFF
      else el.eHdl) ++ if opCode = reqReadByGrpType then gattBuildUuidToStream uuid else []

/-- The loop of `gatt_build_primary_service_rsp`. -/
def primaryServiceLoop (lastServiceHandle payloadSize : Nat) (opCode : UInt8) (sHdl eHdl : Nat)
    (value : Uuid) : List SrvListElem → GattStatus → Msg → Nat → Option (GattStatus × Msg × Nat)
  | [], status, msg, len => some (status, msg, len)
  | el :: rest, status, msg, len =>
    if ¬InPrimaryRange sHdl eHdl el then
      primaryServiceLoop lastServiceHandle payloadSize opCode sHdl eHdl value rest status msg len
    else
      match gattsGetServiceUuid el.db with
      | none =>
        primaryServiceLoop lastServiceHandle payloadSize opCode sHdl eHdl value rest status msg len
      | some uuid =>
        (openPrimaryRsp opCode (primaryHandleLen opCode uuid) msg len).bind fun (msg, len) =>
          if len + msg.offset > payloadSize ∨ primaryHandleLen opCode uuid ≠ msg.offset then
            some (status, msg, len)
          else if opCode = reqFindTypeValue ∧ value ≠ uuid then
            primaryServiceLoop lastServiceHandle payloadSize opCode sHdl eHdl value rest status
              msg len
          else
            (msg.write (primaryEntry lastServiceHandle opCode el uuid)).bind fun written =>
              primaryServiceLoop lastServiceHandle payloadSize opCode sHdl eHdl value rest
                .success written (len + msg.offset)

/-- `gatt_build_primary_service_rsp` with the buffer of its caller. -/
def gattBuildPrimaryServiceRsp (info : SrvListInfo) (lastServiceHandle : Nat)
    (payloadSize : UInt16) (opCode : UInt8) (sHdl eHdl : Nat) (value : Uuid) :
    Option (GattStatus × List UInt8) :=
  let msgLen := (headroom + payloadSize.toNat) % 65536
  (primaryServiceLoop lastServiceHandle payloadSize.toNat opCode sHdl eHdl value info.services
    .notFound (Msg.alloc msgLen) 0).map fun (status, msg, len) => (status, zeroFilled len msg.data)

/-- `gatts_process_primary_service_req`: the PDUs that are sent. -/
def gattsProcessPrimaryServiceReq (info : SrvListInfo) (lastServiceHandle : Nat)
    (payloadSize : UInt16) (opCode : UInt8) (data : List UInt8) : Option (List (List UInt8)) :=
  match gattsValidatePacketFormat opCode data with
  | (.success, uuid, sHdl, eHdl, rest) =>
    if uuid ≠ priServiceUuid then
      some [errorRsp (if opCode = reqReadByGrpType then .unsupportGrpType else .notFound)
        opCode sHdl]
    else
      let value := if opCode = reqFindTypeValue then
        (gattParseUuidFromCmd emptyUuid rest.length rest).map Prod.fst else some emptyUuid
      -- the function does not return behind this error
      let refused := if value = none then [errorRsp .invalidPdu opCode sHdl] else []
      (gattBuildPrimaryServiceRsp info lastServiceHandle payloadSize opCode sHdl eHdl
        (value.getD emptyUuid)).map fun (reason, pdu) =>
          refused ++ [if reason = .success then pdu else errorRsp reason opCode sHdl]
  | (reason, _, sHdl, _, _) => some [errorRsp reason opCode sHdl]

end BluetoothFormal.Gatt.Legacy
