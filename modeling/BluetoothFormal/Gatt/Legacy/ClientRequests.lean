import BluetoothFormal.Gatt.Legacy.FindInfo
import BluetoothFormal.Gatt.Legacy.PrimaryServices
import BluetoothFormal.Gatt.Legacy.ReadByType
import BluetoothFormal.Gatt.Legacy.Server

/-!
# Client requests in the legacy GATT server

A request is answered at once, or it becomes the command of its channel and an application
is asked.  What a step of the server does is the new state of the connection, the PDUs
that are sent and the questions to applications.
-/

namespace BluetoothFormal.Gatt.Legacy

open L2cap

/-- The parts of `tGATT_CB` that requests use; `clRcb` lists the registered applications. -/
structure GattCb where
  srvListInfo : SrvListInfo
  lastServiceHandle : Nat
  handleOfDatabaseHash : Nat
  clRcb : List Nat

/-- `tGATT_READ_REQ`. -/
structure ReadReq where
  handle : Nat
  offset : Nat
  isLong : Bool
  deriving DecidableEq

/-- `tGATT_WRITE_REQ`. -/
structure WriteReq where
  handle : Nat
  offset : Nat
  value : List UInt8
  needRsp : Bool
  isPrep : Bool
  deriving DecidableEq

/-- `tGATTS_REQ_TYPE` with `tGATTS_DATA`. -/
inductive ReqData where
  | readCharacteristic (req : ReadReq)
  | readDescriptor (req : ReadReq)
  | writeCharacteristic (req : WriteReq)
  | writeDescriptor (req : WriteReq)
  | writeExec (flag : UInt8)
  | mtu (mtu : Nat)
  deriving DecidableEq

/-- The arguments of `gatt_sr_send_req_callback`. -/
structure AppReq where
  gattIf : Nat
  transId : UInt32
  data : ReqData
  deriving DecidableEq

/-- What a step does. -/
structure Outcome where
  tcb : Tcb
  sent : List (Nat × List UInt8)
  asked : List AppReq

namespace Outcome

def silent (tcb : Tcb) : Outcome := ⟨tcb, [], []⟩

def answer (tcb : Tcb) (cid : Nat) (pdu : List UInt8) : Outcome := ⟨tcb, [(cid, pdu)], []⟩

/-- A further PDU. -/
def send (outcome : Outcome) (cid : Nat) (pdu : List UInt8) : Outcome :=
  { outcome with sent := outcome.sent ++ [(cid, pdu)] }

/-- An error response, unless the request is pending. -/
def refuse (outcome : Outcome) (cid : Nat) (reason : GattStatus) (opCode : UInt8)
    (handle : Nat) : Outcome :=
  if reason = .pending ∨ reason = .busy then outcome
  else outcome.send cid (errorRsp reason opCode handle)

end Outcome

def gattSrFindIRcbByHandle (info : SrvListInfo) (handle : Nat) : Option SrvListElem :=
  info.services.find? fun el => el.sHdl ≤ handle ∧ el.eHdl ≥ handle

/-- `find_attr_by_handle`, with the attribute behind the one that is found. -/
def findAttrByHandle (db : SvcDb) (handle : Nat) : Option Entry :=
  (entries db.attrList).find? fun entry => entry.attr.handle = handle

section

variable (cb : GattCb)

/--
`gatts_send_app_read_request`: the status and what is done.  There is no result if no
service has the handle.
-/
def gattsSendAppReadRequest (tcb : Tcb) (cid : Nat) (opCode : UInt8) (attr : Attr)
    (offset : Nat) (transId : UInt32) : Option (GattStatus × Outcome) :=
  (gattSrFindIRcbByHandle cb.srvListInfo attr.handle).bind fun el =>
    (if transId = 0 then
      (gattSrEnqueueCmd tcb cid opCode attr.handle).map fun (transId, tcb) =>
        (transId, gattSrUpdateCbackCnt tcb cid el.gattIf true true)
    else some (transId, tcb)).map fun (transId, tcb) =>
      let req : ReadReq := ⟨attr.handle, offset, opCode == reqReadBlob⟩
      if transId ≠ 0 then
        match attr.gattType with
        | .descriptor => (.pending, ⟨tcb, [], [⟨el.gattIf, transId, .readDescriptor req⟩]⟩)
        | .characteristic => (.pending, ⟨tcb, [], [⟨el.gattIf, transId, .readCharacteristic req⟩]⟩)
        | _ => (.error, .silent tcb)
      else (.busy, .silent tcb)

/-- `gatts_read_attr_value_by_handle`: the status, the value and what is done. -/
def gattsReadAttrValueByHandle (tcb : Tcb) (cid : Nat) (db : SvcDb) (opCode : UInt8)
    (handle offset mtu : Nat) (sec : SecInfo) (transId : UInt32) :
    Option (GattStatus × List UInt8 × Outcome) :=
  match findAttrByHandle db handle with
  | none => some (.notFound, [], .silent tcb)
  | some entry =>
    (readAttrValue entry (opCode == reqReadBlob) mtu sec).bind fun (status, value) =>
      if status = .pending then
        (gattsSendAppReadRequest cb tcb cid opCode entry.attr offset transId).map
          fun (status, outcome) => (status, [], outcome)
      else some (status, value, .silent tcb)

def gattsReadAttrPermCheck (db : SvcDb) (isLong : Bool) (handle : Nat) (sec : SecInfo) :
    GattStatus :=
  match findAttrByHandle db handle with
  | none => .notFound
  | some entry => gattsCheckAttrReadability entry.attr isLong sec

section

variable (sec : SecInfo)

section

variable (tcb : Tcb)

def gattsProcessReadReq (cid : Nat) (el : SrvListElem) (opCode : UInt8) (handle : Nat)
    (data : List UInt8) : Option Outcome :=
  if opCode = reqReadBlob ∧ data.length < 2 then
    some (.answer tcb cid (errorRsp .invalidPdu opCode 0))
  else
    let payloadSize := (gattTcbGetPayloadSizeTx tcb cid).toNat
    let offset := if opCode = reqReadBlob then streamToUint16 data else 0
    ((Msg.alloc (headroom + payloadSize)).write [opCode + 1]).bind fun msg =>
      (gattsReadAttrValueByHandle cb tcb cid el.db opCode handle offset (payloadSize - 1) sec
        0).bind fun (reason, value, outcome) =>
          if reason = .success then (msg.write value).map fun msg => outcome.send cid msg.data
          else some (outcome.refuse cid reason opCode handle)

/-- `gatts_process_read_by_type_req`, with the question to the application. -/
def gattsAnswerReadByTypeReq (cid : Nat) (data : List UInt8) : Option Outcome :=
  (gattsProcessReadByTypeReq cb.srvListInfo (gattTcbGetPayloadSizeTx tcb cid) sec data).bind fun
    | .send pdu => some (.answer tcb cid pdu)
    | .askApp attr =>
      (gattsSendAppReadRequest cb tcb cid reqReadByType attr 0 0).map fun (status, outcome) =>
        outcome.refuse cid status reqReadByType 0

def permWriteEncrypted : UInt16 := 0x20

def permWriteEncMitm : UInt16 := 0x40

def permWriteSigned : UInt16 := 0x80

def permWriteSignedMitm : UInt16 := 0x100

def writeAllowed : UInt16 :=
  0x10 ||| permWriteEncrypted ||| permWriteEncMitm ||| permWriteSigned ||| permWriteSignedMitm

def writeAuthRequired : UInt16 := permWriteEncrypted ||| permWriteSigned

def writeMitmRequired : UInt16 := permWriteEncMitm ||| permWriteSignedMitm

def writeEncryptedPerm : UInt16 := permWriteEncrypted ||| permWriteEncMitm

def writeSignedPerm : UInt16 := permWriteSigned ||| permWriteSignedMitm

/-- The permissions of `gatts_write_attr_perm_check` with the rules for mixed security. -/
def writePermissions (perm : UInt16) (opCode : UInt8) : UInt16 :=
  if (opCode = cmdWrite ∨ opCode = reqWrite) ∧ perm &&& writeSignedPerm ≠ 0 then
    if perm &&& permWriteSigned ≠ 0 ∧ perm &&& permWriteEncrypted ≠ 0 then permWriteEncrypted
    else if (perm &&& permWriteSignedMitm ≠ 0 ∧ perm &&& permWriteEncrypted ≠ 0) ∨
        (perm &&& writeSignedPerm ≠ 0 ∧ perm &&& permWriteEncMitm ≠ 0) then permWriteEncMitm
    else perm
  else perm

/-- The end of `gatts_write_attr_perm_check`, for an attribute that may be written. -/
def writableStatus (uuid : Uuid) (opCode : UInt8) (offset len : Nat) : GattStatus :=
  if is16Bit uuid ∧ (as16Bit uuid = 0x2902 ∨ as16Bit uuid = 0x2903) then
    if opCode = reqPrepareWrite ∧ offset ≠ 0 then .notLong
    else if len ≠ 2 then .invalidAttrLen
    else .success
  else if uuid = emptyUuid then .invalidPdu
  else if is16Bit uuid ∧ as16Bit uuid ∈ [0x2904, 0x2900, 0x2905, 0x2906] then .writeNotPermit
  else .success

/--
`gatts_write_attr_perm_check` for an attribute.  The status that is set before the chain is
set again by each of its branches.
-/
def gattsWriteAttrPermCheck (attr : Attr) (opCode : UInt8) (offset len : Nat) (sec : SecInfo) :
    GattStatus :=
  let perm := writePermissions attr.permission opCode
  if opCode = signCmdWrite ∧ sec.isEncrypted then .invalidPdu
  else if perm &&& writeAllowed = 0 then .writeNotPermit
  else if perm &&& writeAuthRequired ≠ 0 ∧ ¬sec.isLinkKeyKnown then .insufAuthentication
  else if perm &&& writeMitmRequired ≠ 0 ∧ ¬sec.isLinkKeyAuthed then .insufAuthentication
  else if perm &&& writeEncryptedPerm ≠ 0 ∧ ¬sec.isEncrypted then .insufEncryption
  else if perm &&& writeEncryptedPerm ≠ 0 ∧ sec.isEncrypted ∧
      sec.keySize < minKeySize attr.permission then .insufKeySize
  else if perm &&& writeSignedPerm ≠ 0 ∧ opCode ≠ signCmdWrite ∧ ¬sec.isEncrypted ∧
      perm &&& writeAllowed = 0 then .insufAuthentication
  else writableStatus attr.uuid opCode offset len

def writeOffset (opCode : UInt8) (data : List UInt8) : Nat :=
  if opCode = reqPrepareWrite then streamToUint16 data else 0

/-- The value behind the offset, and a signature behind the value. -/
def writeData (opCode : UInt8) (data : List UInt8) : List UInt8 :=
  if opCode = reqPrepareWrite then data.drop 2 else data

/-- The length of the value, which wraps if a signature is too short. -/
def writeLen (opCode : UInt8) (data : List UInt8) : Nat :=
  min 512 (if opCode = signCmdWrite then ((writeData opCode data).length + 65536 - 12) % 65536
    else (writeData opCode data).length)

/-- The error response to a write, if a response is expected. -/
def refuseWrite (cid : Nat) (status : GattStatus) (opCode : UInt8) (handle : Nat) : Outcome :=
  if opCode = reqPrepareWrite ∨ opCode = reqWrite then
    (Outcome.silent tcb).refuse cid status opCode handle
  else .silent tcb

/--
`gatts_process_write_req`.  There is no result if the value is copied from outside of the
request.
-/
def gattsProcessWriteReq (cid : Nat) (el : SrvListElem) (attr : Attr) (opCode : UInt8)
    (data : List UInt8) : Option Outcome :=
  if opCode = reqPrepareWrite ∧ data.length < 2 then
    some (.answer tcb cid (errorRsp .invalidPdu opCode attr.handle))
  else if (writeData opCode data).length < writeLen opCode data then none
  else
    let req : WriteReq := ⟨attr.handle, writeOffset opCode data,
      (writeData opCode data).take (writeLen opCode data),
      opCode == reqWrite || opCode == reqPrepareWrite, opCode == reqPrepareWrite⟩
    match gattsWriteAttrPermCheck attr opCode (writeOffset opCode data) (writeLen opCode data)
        sec with
    | .success =>
      (gattSrEnqueueCmd tcb cid opCode attr.handle).map fun (transId, tcb) =>
        if transId ≠ 0 then
          match attr.gattType with
          | .descriptor => ⟨tcb, [], [⟨el.gattIf, transId, .writeDescriptor req⟩]⟩
          | .characteristic => ⟨tcb, [], [⟨el.gattIf, transId, .writeCharacteristic req⟩]⟩
          | _ => refuseWrite tcb cid .error opCode attr.handle
        else .silent tcb
    | status => some (refuseWrite tcb cid status opCode attr.handle)

/-- The error response of `gatts_process_attribute_req`, which commands do not get. -/
def refuseAttribute (cid : Nat) (status : GattStatus) (opCode : UInt8) (handle : Nat) : Outcome :=
  if opCode ≠ cmdWrite ∧ opCode ≠ signCmdWrite then
    .answer tcb cid (errorRsp status opCode handle)
  else .silent tcb

def gattsProcessAttributeReq (cid : Nat) (opCode : UInt8) (data : List UInt8) : Option Outcome :=
  if data.length < 2 then some (refuseAttribute tcb cid .invalidPdu opCode 0)
  else
    let handle := streamToUint16 data
    if handle = 0 then some (refuseAttribute tcb cid .invalidHandle opCode handle)
    else
      match gattSrFindIRcbByHandle cb.srvListInfo handle with
      | none => some (refuseAttribute tcb cid .invalidHandle opCode handle)
      | some el =>
        match findAttrByHandle el.db handle with
        | none => some (refuseAttribute tcb cid .invalidHandle opCode handle)
        | some entry =>
          if opCode = reqRead ∨ opCode = reqReadBlob then
            gattsProcessReadReq cb sec tcb cid el opCode handle (data.drop 2)
          else gattsProcessWriteReq sec tcb cid el entry.attr opCode (data.drop 2)

def gattProcessExecWriteReq (cid : Nat) (opCode : UInt8) :
    List UInt8 → Option Outcome
  | [] => some (.answer tcb cid (errorRsp .invalidPdu reqExecWrite 0))
  | flag :: _ =>
    if ¬gattSrIsPrepCntZero tcb then
      (gattSrEnqueueCmd tcb cid opCode 0).map fun (transId, enqueued) =>
        let copied := gattSrCopyPrepCntToCbackCnt enqueued
        ⟨{ copied with
            prepCnt := fun index => if index < maxApps then 0 else tcb.prepCnt index },
          [],
          ((List.range maxApps).filter fun index => tcb.prepCnt index ≠ 0).map
            fun index => ⟨index + 1, transId, .writeExec (flag &&& 1)⟩⟩
    else some (.answer tcb cid (errorRsp .error reqExecWrite 0))

end

def maxReadMultiHandles : Nat := 10

/--
The first loop of `gatt_process_read_multi_req`: the status, the handles of the command and
the last handle that was read.
-/
def readMultiHandles (info : SrvListInfo) (sec : SecInfo) :
    List UInt8 → List Nat → Nat → GattStatus × List Nat × Nat
  | low :: high :: rest, handles, last =>
    if handles.length < maxReadMultiHandles then
      let handle := streamToUint16 [low, high]
      match gattSrFindIRcbByHandle info handle with
      | none => (.invalidHandle, handles, handle)
      | some el =>
        match gattsReadAttrPermCheck el.db false handle sec with
        | .success => readMultiHandles info sec rest (handles ++ [handle]) handle
        | err => (err, handles ++ [handle], handle)
    else (.success, handles, last)
  | _, handles, last => (.success, handles, last)

/-- The second loop of `gatt_process_read_multi_req`. -/
def readMultiLoop (cb : GattCb) (sec : SecInfo) (cid : Nat) (opCode : UInt8) (transId : UInt32) :
    List Nat → Outcome → GattStatus → Nat → Option (Outcome × GattStatus × Nat)
  | [], outcome, err, last => some (outcome, err, last)
  | handle :: rest, outcome, _, _ =>
    (gattSrFindIRcbByHandle cb.srvListInfo handle).bind fun el =>
      (gattsReadAttrValueByHandle cb outcome.tcb cid el.db opCode handle 0 512 sec transId).bind
        fun (err, value, more) =>
          let asked := outcome.asked ++ more.asked
          if err = .success then
            if bounded : value.length ≤ 512 then
              (gattSrProcessAppRsp more.tcb cid el.gattIf opCode .success
                ⟨⟨handle, value, bounded⟩, 0⟩).bind fun (tcb, sent) =>
                  readMultiLoop cb sec cid opCode transId rest
                    ⟨tcb, outcome.sent ++ sent, asked⟩ err handle
            else none
          else
            readMultiLoop cb sec cid opCode transId rest ⟨more.tcb, outcome.sent, asked⟩ err handle

/-- The end of `gatt_process_read_multi_req`. -/
def finishReadMulti (cid : Nat) (opCode : UInt8) (outcome : Outcome) (err : GattStatus)
    (handle : Nat) : Outcome :=
  if err = .success then outcome else outcome.refuse cid err opCode handle

def gattProcessReadMultiReq (tcb : Tcb) (cid : Nat) (opCode : UInt8) (data : List UInt8) :
    Option Outcome :=
  match readMultiHandles cb.srvListInfo sec data [] 0 with
  | (checked, handles, handle) =>
    let err := if handles = [] then .invalidHandle else checked
    let tcb := tcb.modify cid fun cmd =>
      { cmd with multiReq := ⟨handles, opCode == reqReadMultiVar⟩ }
    if err = .success then
      (gattSrEnqueueCmd tcb cid opCode (handles.headD 0)).bind fun (transId, tcb) =>
        if transId ≠ 0 then
          (readMultiLoop cb sec cid opCode transId handles
            (.silent (gattSrResetCbackCnt tcb cid)) err handle).map
              fun (outcome, err, handle) => finishReadMulti cid opCode outcome err handle
        else some (finishReadMulti cid opCode (.silent tcb) .noResources handle)
    else some (finishReadMulti cid opCode (.silent tcb) err handle)

end

def l2capAttCid : Nat := 4

/-- The payload size for the MTU of a client. -/
def agreedMtu (mtu : Nat) : UInt16 :=
  if mtu < 23 then 23 else if mtu > 517 then 517 else UInt16.ofNat mtu

theorem agreedMtu_large (mtu : Nat) : 23 ≤ (agreedMtu mtu).toNat := by
  rw [agreedMtu]
  split
  · decide
  · split
    · decide
    · rw [UInt16.toNat_ofNat']
      omega

def gattsProcessMtuReq (tcb : Tcb) (cid : Nat) (data : List UInt8) : Outcome :=
  if cid ≠ l2capAttCid then .answer tcb cid (errorRsp .reqNotSupported reqMtu 0)
  else if data.length < 2 then .answer tcb cid (errorRsp .invalidPdu reqMtu 0)
  else
    let payloadSize := agreedMtu (streamToUint16 data)
    ⟨{ tcb with payloadSize := payloadSize, large := agreedMtu_large _ },
      [(cid, rspMtu :: uint16ToStream payloadSize.toNat)],
      cb.clRcb.map fun gattIf => ⟨gattIf, 0, .mtu payloadSize.toNat⟩⟩

def gattSrIsClChangeAware (tcb : Tcb) : Bool := !tcb.clRobustCaching || tcb.isRobustCacheChangeAware

def gattSrUpdateClStatus (tcb : Tcb) (chgAware : Bool) : Tcb :=
  if tcb.clRobustCaching then { tcb with isRobustCacheChangeAware := chgAware } else tcb

/-- `Uuid::From16Bit(GATT_UUID_DATABASE_HASH)`. -/
def databaseHashUuid : Uuid := from16Bit 0x2B2A

/-- The requests that `gatts_process_db_out_of_sync` ignores. -/
def shouldIgnore (opCode : UInt8) (data : List UInt8) : Bool :=
  if opCode = reqReadByType then
    match gattsValidatePacketFormat opCode data with
    | (.success, uuid, sHdl, eHdl, _) =>
      ¬(sHdl ≤ cb.handleOfDatabaseHash ∧ cb.handleOfDatabaseHash ≤ eHdl ∧ uuid = databaseHashUuid)
    | _ => true
  else if opCode = reqRead then
    ¬(2 ≤ data.length ∧ streamToUint16 data = cb.handleOfDatabaseHash)
  else
    opCode ∈ [reqReadByGrpType, reqFindTypeValue, reqFindInfo, reqReadBlob, reqReadMulti, reqWrite,
      reqPrepareWrite, cmdWrite, signCmdWrite]

/-- `gatts_process_db_out_of_sync` ignores a request. -/
def OutOfSync (tcb : Tcb) (opCode : UInt8) (data : List UInt8) : Prop :=
  gattSrIsClChangeAware tcb = false ∧ shouldIgnore cb opCode data = true
  deriving Decidable

end

/-- What `gatts_process_db_out_of_sync` does with a request that it ignores. -/
def gattsProcessDbOutOfSync (tcb : Tcb) (cid : Nat) (opCode : UInt8) : Outcome :=
  if opCode = cmdWrite ∨ opCode = signCmdWrite then .silent (gattSrUpdateClStatus tcb false)
  else
    .answer (gattSrUpdateClStatus tcb true) cid (errorRsp .databaseOutOfSync opCode 0)

/-- The switch of `gatt_server_handle_client_req`; confirmations are not modelled. -/
def dispatchClientReq (cb : GattCb) (sec : SecInfo) (tcb : Tcb) (cid : Nat) (opCode : UInt8)
    (data : List UInt8) : Option Outcome :=
  if opCode = reqReadByGrpType ∨ opCode = reqFindTypeValue then
    (gattsProcessPrimaryServiceReq cb.srvListInfo cb.lastServiceHandle
      (gattTcbGetPayloadSizeTx tcb cid) opCode data).map
        fun pdus => ⟨tcb, pdus.map fun pdu => (cid, pdu), []⟩
  else if opCode = reqFindInfo then
    (gattsProcessFindInfo cb.srvListInfo (gattTcbGetPayloadSizeTx tcb cid) data).map
      (Outcome.answer tcb cid)
  else if opCode = reqReadByType then gattsAnswerReadByTypeReq cb sec tcb cid data
  else if opCode ∈ [reqRead, reqReadBlob, reqWrite, cmdWrite, signCmdWrite, reqPrepareWrite] then
    gattsProcessAttributeReq cb sec tcb cid opCode data
  else if opCode = reqMtu then some (gattsProcessMtuReq cb tcb cid data)
  else if opCode = reqExecWrite then gattProcessExecWriteReq tcb cid opCode data
  else if opCode = reqReadMulti ∨ opCode = reqReadMultiVar then
    gattProcessReadMultiReq cb sec tcb cid opCode data
  else some (.silent tcb)

def gattServerHandleClientReq (cb : GattCb) (sec : SecInfo) (tcb : Tcb) (cid : Nat)
    (opCode : UInt8) (data : List UInt8) : Option Outcome :=
  (gattSrCmdEmpty tcb cid).bind fun empty =>
    if ¬empty then some (.silent tcb)
    else if data.length ≥ (gattTcbGetPayloadSizeRx tcb cid).toNat then
      if opCode ≠ cmdWrite ∧ opCode ≠ signCmdWrite then
        some (.answer tcb cid (errorRsp .invalidPdu opCode 0))
      else some (.silent tcb)
    else if OutOfSync cb tcb opCode data then some (gattsProcessDbOutOfSync tcb cid opCode)
    else dispatchClientReq cb sec tcb cid opCode data

end BluetoothFormal.Gatt.Legacy
