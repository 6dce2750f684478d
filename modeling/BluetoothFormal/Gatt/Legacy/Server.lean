import BluetoothFormal.Foundation.KeyedList
import BluetoothFormal.Gatt.Legacy.ReadMultiple

/-!
# The commands of the legacy GATT server

A connection has a fixed ATT channel and EATT channels, and on each of them at most one
request waits for an application.  The applications that still have to answer are counted
for each channel, but the check that all have answered looks at the fixed channel only.
-/

namespace BluetoothFormal.Gatt.Legacy

open L2cap Foundation List KeyedList

def reqReadMultiVar : UInt8 := 0x20
def handleValueConf : UInt8 := 0x1E
def cmdWrite : UInt8 := 0x52
def signCmdWrite : UInt8 := 0xD2
def rspReadByType : UInt8 := 0x09
def rspRead : UInt8 := 0x0B
def rspReadBlob : UInt8 := 0x0D
def rspWrite : UInt8 := 0x13
def rspPrepareWrite : UInt8 := 0x17
def rspExecWrite : UInt8 := 0x19

def maxApps : Nat := 32

/-- The counts of an array with a place for each application. -/
abbrev AppCounts : Type := Nat → UInt8

namespace AppCounts

def zero : AppCounts := fun _ => 0

/-- All places of the array are zero. -/
def isZero (counts : AppCounts) : Bool := (List.range maxApps).all fun index => counts index == 0

/-- The count of an application goes up, or down if it is not zero. -/
def change (counts : AppCounts) (gattIf : Nat) (isInc : Bool) : AppCounts :=
  Function.update counts (gattIf - 1) (if isInc then counts (gattIf - 1) + 1
    else if counts (gattIf - 1) ≠ 0 then counts (gattIf - 1) - 1
    else counts (gattIf - 1))

@[simp] theorem isZero_zero : zero.isZero = true := by decide

@[simp] theorem change_zero (gattIf : Nat) : zero.change gattIf false = zero :=
  Function.update_eq_self (gattIf - 1) zero

theorem isZero_change_zero {gattIf : Nat} (positive : 0 < gattIf) (bounded : gattIf ≤ maxApps) :
    (zero.change gattIf true).isZero = false := by
  rw [isZero, all_eq_false]
  refine ⟨gattIf - 1, mem_range.mpr (by omega), ?_⟩
  rw [change, Function.update_self]
  change ¬((0 + 1 : UInt8) == 0) = true
  decide

theorem change_change_zero (gattIf : Nat) :
    (zero.change gattIf true).change gattIf false = zero := by
  have back : (if (0 + 1 : UInt8) ≠ 0 then 0 + 1 - 1 else 0 + 1 : UInt8) = 0 := by decide
  rw [change, change, Function.update_self, Function.update_idem]
  exact (congrArg (Function.update zero (gattIf - 1)) back).trans
    (Function.update_eq_self (gattIf - 1) zero)

end AppCounts

/-- `tGATT_SR_CMD`: the request that is pending on a channel. -/
structure SrCmd where
  rspMsg : Option (List UInt8)
  transId : UInt32
  multiReq : MultiReq
  multiRspQ : List AttrRsp
  handle : Nat
  opCode : UInt8
  status : GattStatus
  cbackCnt : AppCounts

/-- A command that is cleared with `memset`. -/
def SrCmd.cleared : SrCmd := ⟨none, 0, ⟨[], false⟩, [], 0, 0, .success, .zero⟩

structure EattChannel where
  txMtu : UInt16
  rxMtu : UInt16
  serverOutstandingCmd : SrCmd
  large : 23 ≤ txMtu.toNat

/-- `tGATT_TCB`, with the EATT channels of the device. -/
structure Tcb where
  attLcid : Nat
  payloadSize : UInt16
  srCmd : SrCmd
  eattChannels : List (Nat × EattChannel)
  prepCnt : AppCounts
  transId : UInt32
  clRobustCaching : Bool
  isRobustCacheChangeAware : Bool
  large : 23 ≤ payloadSize.toNat
  distinct : (keys eattChannels).Nodup
  apart : attLcid ∉ keys eattChannels

namespace Tcb

section

variable (tcb : Tcb)

/-- `gatt_sr_get_cmd_by_cid`. -/
def cmd? (cid : Nat) : Option SrCmd :=
  if cid = tcb.attLcid then some tcb.srCmd
  else (KeyedList.lookup cid tcb.eattChannels).map EattChannel.serverOutstandingCmd

def modify (cid : Nat) (change : SrCmd → SrCmd) : Tcb :=
  { tcb with
    srCmd := if cid = tcb.attLcid then change tcb.srCmd else tcb.srCmd
    eattChannels := update cid
      (fun channel => { channel with serverOutstandingCmd := change channel.serverOutstandingCmd })
      tcb.eattChannels
    distinct := by
      rw [keys_update]
      exact tcb.distinct
    apart := by
      rw [keys_update]
      exact tcb.apart }

@[simp] theorem cmd?_modify_self (cid : Nat) (change : SrCmd → SrCmd) :
    (tcb.modify cid change).cmd? cid = (tcb.cmd? cid).map change := by
  rw [cmd?, cmd?, modify]
  dsimp only
  by_cases fixed : cid = tcb.attLcid
  · rw [if_pos fixed, if_pos fixed, if_pos fixed]
    rfl
  · rw [if_neg fixed, if_neg fixed, KeyedList.lookup_update, Option.map_map, Option.map_map]
    rfl

@[simp] theorem attLcid_modify (cid : Nat) (change : SrCmd → SrCmd) :
    (tcb.modify cid change).attLcid = tcb.attLcid := rfl

theorem srCmd_modify_of_ne {tcb : Tcb} {cid : Nat} (apart : cid ≠ tcb.attLcid)
    (change : SrCmd → SrCmd) : (tcb.modify cid change).srCmd = tcb.srCmd := if_neg apart

theorem cmd?_attLcid : tcb.cmd? tcb.attLcid = some tcb.srCmd := if_pos rfl

end

end Tcb

section

variable (tcb : Tcb)

section

variable (cid : Nat)

def gattTcbGetPayloadSizeTx : UInt16 :=
  if cid = tcb.attLcid then tcb.payloadSize
  else ((KeyedList.lookup cid tcb.eattChannels).map EattChannel.txMtu).getD tcb.payloadSize

def gattTcbGetPayloadSizeRx : UInt16 :=
  if cid = tcb.attLcid then tcb.payloadSize
  else ((KeyedList.lookup cid tcb.eattChannels).map EattChannel.rxMtu).getD tcb.payloadSize

def transIdMax : UInt32 := 0x0fffffff

/-- The fields that a new command sets. -/
def SrCmd.start (transId : UInt32) (opCode : UInt8) (handle : Nat) (cmd : SrCmd) : SrCmd :=
  { cmd with
    transId := transId
    opCode := opCode
    handle := handle
    status := .notFound }

section

variable (opCode : UInt8)

/-- The connection with a new command. -/
def Tcb.enqueued (handle : Nat) : Tcb :=
  { tcb.modify cid (SrCmd.start (tcb.transId + 1) opCode handle) with
    transId := (tcb.transId + 1) % transIdMax }

/-- `gatt_sr_enqueue_cmd`: the transaction, which is zero if another command is pending. -/
def gattSrEnqueueCmd (handle : Nat) : Option (UInt32 × Tcb) :=
  (tcb.cmd? cid).map fun cmd =>
    if cmd.opCode = 0 ∨ opCode = handleValueConf then
      if opCode ∈ [cmdWrite, signCmdWrite, reqMtu, handleValueConf] then
        (tcb.transId + 1, { tcb with transId := tcb.transId + 1 })
      else (tcb.transId + 1, tcb.enqueued cid opCode handle)
    else (0, tcb)

def gattSrCmdEmpty : Option Bool :=
  (tcb.cmd? cid).map fun cmd => cmd.opCode == 0

def gattDequeueSrCmd : Tcb := tcb.modify cid fun _ => .cleared

def gattSrResetCbackCnt : Tcb :=
  tcb.modify cid fun cmd => { cmd with cbackCnt := .zero }

def gattSrUpdateCbackCnt (cid gattIf : Nat) (isInc isResetFirst : Bool) : Tcb :=
  (if isResetFirst then gattSrResetCbackCnt tcb cid else tcb).modify cid fun cmd =>
    { cmd with cbackCnt := cmd.cbackCnt.change gattIf isInc }

/-- `gatt_sr_is_cback_cnt_zero`, which looks at the fixed channel only. -/
def gattSrIsCbackCntZero : Bool := tcb.srCmd.cbackCnt.isZero

def gattSrIsPrepCntZero : Bool := tcb.prepCnt.isZero

def gattSrUpdatePrepCnt (gattIf : Nat) (isInc isResetFirst : Bool) : Tcb :=
  { tcb with
    prepCnt := (if isResetFirst then AppCounts.zero else tcb.prepCnt).change gattIf isInc }

/-- `gatt_sr_copy_prep_cnt_to_cback_cnt`, to the fixed channel. -/
def gattSrCopyPrepCntToCbackCnt : Tcb :=
  { tcb with
    srCmd :=
      { tcb.srCmd with
        cbackCnt := fun index =>
          if index < maxApps ∧ tcb.prepCnt index ≠ 0 then 1 else tcb.srCmd.cbackCnt index } }

/-- `gatt_sr_get_cmd_by_trans_id`: the channel on which a transaction is pending. -/
def gattSrGetCmdByTransId (transId : UInt32) : Option Nat :=
  if tcb.srCmd.transId = transId then some tcb.attLcid
  else (tcb.eattChannels.find? fun entry =>
    entry.2.serverOutstandingCmd.transId == transId).map Prod.fst

/-- The attribute value of `tGATTS_RSP`. -/
structure AppRsp extends AttrRsp where
  offset : Nat

def attpBuildValueCmd (payloadSize : Nat) (opCode : UInt8) (handle offset : Nat)
    (value : List UInt8) : List UInt8 :=
  let fields :=
    (if opCode ≠ rspReadBlob ∧ opCode ≠ rspRead then uint16ToStream handle else []) ++
      if opCode = reqPrepareWrite ∨ opCode = rspPrepareWrite then uint16ToStream offset else []
  -- the value is cut to what is left of the payload, and the length in front of it too
  if opCode = rspReadByType then
    let data := value.take (payloadSize - (2 + fields.length))
    opCode :: UInt8.ofNat (data.length + 2) :: fields ++ data
  else opCode :: fields ++ value.take (payloadSize - (1 + fields.length))

/-- `attp_build_sr_msg` for the responses of applications; other opcodes abort. -/
def attpBuildSrMsg (rsp : AppRsp) (payloadSize : UInt16) : Option (List UInt8) :=
  if opCode = rspReadBlob ∨ opCode = rspPrepareWrite then
    some (attpBuildValueCmd payloadSize.toNat opCode rsp.handle rsp.offset rsp.value)
  else if opCode = rspReadByType ∨ opCode = rspRead then
    some (attpBuildValueCmd payloadSize.toNat opCode rsp.handle 0 rsp.value)
  else if opCode = rspWrite ∨ opCode = rspExecWrite then some [opCode]
  else none

/--
`process_read_multi_rsp`: whether all responses are there, and the command.
-/
def processReadMultiRsp (cmd : SrCmd) (status : GattStatus) (rsp : AttrRsp) (mtu : UInt16) :
    Option (Bool × SrCmd) :=
  let queued := { cmd with multiRspQ := cmd.multiRspQ ++ [rsp], status := status }
  if status = .success then
    if queued.multiRspQ.length = queued.multiReq.handles.length then
      (buildReadMultiRsp queued.multiReq queued.multiRspQ mtu).map fun (found, pdu) =>
        (true,
          { queued with
            status := if found then status else .notFound
            rspMsg := some (queued.rspMsg.getD pdu) })
    else some (false, queued)
  else some (true, queued)

/-- The end of `gatt_sr_process_app_rsp`: the PDU is sent if all applications have answered. -/
def finishAppRsp (status : GattStatus) : Option (Tcb × List (Nat × List UInt8)) :=
  if gattSrIsCbackCntZero tcb then
    (tcb.cmd? cid).map fun cmd =>
      (gattDequeueSrCmd tcb cid, [(cid,
          if cmd.status = .success then cmd.rspMsg.getD (errorRsp status opCode cmd.handle)
          else errorRsp status opCode cmd.handle)])
  else some (tcb, [])

end

end

/--
`gatt_sr_process_app_rsp` for the command of a channel: the connection and the PDUs that
are sent, each with its channel.
-/
def gattSrProcessAppRsp (cid gattIf : Nat) (opCode : UInt8) (status : GattStatus) (rsp : AppRsp) :
    Option (Tcb × List (Nat × List UInt8)) :=
  let payloadSize := gattTcbGetPayloadSizeTx tcb cid
  let tcb := gattSrUpdateCbackCnt tcb cid gattIf false false
  (tcb.cmd? cid).bind fun cmd =>
    if opCode = reqReadMulti ∨ opCode = reqReadMultiVar then
      (processReadMultiRsp cmd status rsp.toAttrRsp payloadSize).bind fun (complete, cmd) =>
        if complete then finishAppRsp (tcb.modify cid fun _ => cmd) cid opCode status
        else some (tcb.modify cid fun _ => cmd, [])
    else
      let tcb := if opCode = reqPrepareWrite ∧ status = .success then
        gattSrUpdatePrepCnt tcb gattIf true false else tcb
      let tcb := if opCode = reqExecWrite ∧ status ≠ .success then
        gattSrResetCbackCnt tcb cid else tcb
      let tcb := tcb.modify cid fun cmd => { cmd with status := status }
      if gattSrIsCbackCntZero tcb ∧ status = .success ∧ cmd.rspMsg = none then
        (attpBuildSrMsg (opCode + 1) rsp payloadSize).bind fun pdu =>
          finishAppRsp (tcb.modify cid fun cmd => { cmd with rspMsg := some pdu }) cid opCode status
      else finishAppRsp tcb cid opCode status

/-- `GATTS_SendRsp`; a response without a pending transaction is refused. -/
def gattsSendRsp (gattIf : Nat) (transId : UInt32) (status : GattStatus) (rsp : AppRsp) :
    Option (Tcb × List (Nat × List UInt8)) :=
  match gattSrGetCmdByTransId tcb transId with
  | none => some (tcb, [])
  | some cid =>
    (tcb.cmd? cid).bind fun cmd => gattSrProcessAppRsp tcb cid gattIf cmd.opCode status rsp

end

/--
A response with one pair of a handle and a value: the byte in front tells the size of the
pair, and the pair carries the value or the first part of it.
-/
def ListsPair (rsp : AppRsp) (payloadSize : UInt16) (pdu : List UInt8) : Prop :=
  ∃ pairLen pair carried, pdu = rspReadByType :: pairLen :: pair ∧
    pair = uint16ToStream rsp.handle ++ carried ∧ pairLen.toNat = pair.length ∧
    carried <+: rsp.value ∧ pdu.length ≤ payloadSize.toNat

theorem attpBuildSrMsg_readByType (rsp : AppRsp) (payloadSize : UInt16) :
    attpBuildSrMsg rspReadByType rsp payloadSize =
      some (rspReadByType :: UInt8.ofNat ((rsp.value.take (payloadSize.toNat - 4)).length + 2) ::
        (uint16ToStream rsp.handle ++ rsp.value.take (payloadSize.toNat - 4))) := by
  rw [attpBuildSrMsg, if_neg (by decide), if_pos (by decide), attpBuildValueCmd]
  rfl

/-- The byte holds the size of the pair if and only if the value or its room is small. -/
theorem readByType_pair_iff (rsp : AppRsp) {payloadSize : UInt16} (least : 23 ≤ payloadSize.toNat) :
    (∃ pdu, attpBuildSrMsg rspReadByType rsp payloadSize = some pdu ∧
        ListsPair rsp payloadSize pdu) ↔ min rsp.value.length (payloadSize.toNat - 4) ≤ 253 := by
  have size : (rsp.value.take (payloadSize.toNat - 4)).length =
      min rsp.value.length (payloadSize.toNat - 4) := by
    rw [length_take, Nat.min_comm]
  rw [attpBuildSrMsg_readByType]
  constructor
  · rintro ⟨pdu, built, pairLen, pair, carried, rfl, -, counted, -, -⟩
    injection built with same
    injection same with _ rest
    injection rest with byte bytes
    rw [← byte, ← bytes, UInt8.toNat_ofNat', length_append, length_uint16ToStream, size] at counted
    omega
  · intro small
    refine ⟨_, rfl, _, _, _, rfl, rfl, ?_, take_prefix _ _, ?_⟩
    · rw [UInt8.toNat_ofNat', length_append, length_uint16ToStream, size]
      omega
    · rw [length_cons, length_cons, length_append, length_uint16ToStream, size]
      omega

theorem readByType_pair_short :
    ∃ pdu, attpBuildSrMsg rspReadByType ⟨⟨5, [1, 2, 3], by decide⟩, 0⟩ 23 = some pdu ∧
      ListsPair ⟨⟨5, [1, 2, 3], by decide⟩, 0⟩ 23 pdu :=
  (readByType_pair_iff _ (by decide)).mpr (by decide)

/-- The value of a characteristic with 254 bytes. -/
def longAnswer : AppRsp := ⟨⟨5, List.replicate 254 7, by rw [length_replicate]; decide⟩, 0⟩

/-- The size of the pair is 256, and the byte in front of it is zero. -/
theorem readByType_pair_wraps :
    attpBuildSrMsg rspReadByType longAnswer 517 =
      some (rspReadByType :: 0 :: 5 :: 0 :: List.replicate 254 7) := by
  have whole : longAnswer.value.take (517 - 4) = List.replicate 254 7 := take_replicate ..
  rw [attpBuildSrMsg_readByType, show (517 : UInt16).toNat - 4 = 517 - 4 from rfl, whole,
    length_replicate]
  rfl

end BluetoothFormal.Gatt.Legacy
