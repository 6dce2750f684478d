import BluetoothFormal.Foundation.Transition
import BluetoothFormal.Gatt.Legacy.ClientRequests

/-!
# Responses of applications on several channels

Requests for single attributes may be pending on the fixed channel and on EATT channels at
the same time.  The response of an application on an EATT channel is held back while a
read is pending on the fixed channel, because the applications that still have to answer
are looked up there.
-/

namespace BluetoothFormal.Gatt.Legacy

open Foundation Foundation.Transition Option AppCounts Tcb List

def singleReads : List UInt8 := [reqReadByType, reqRead, reqReadBlob]

def singleWrites : List UInt8 := [reqWrite, reqPrepareWrite]

/-- Nothing is pending. -/
structure SrCmd.Clear (cmd : SrCmd) : Prop where
  transaction : cmd.transId = 0
  counts : cmd.cbackCnt = .zero

/-- A read waits for an application, which is counted. -/
structure SrCmd.AwaitsRead (cmd : SrCmd) (gattIf : Nat) : Prop where
  opCode : cmd.opCode ∈ singleReads
  transaction : cmd.transId ≠ 0
  unsent : cmd.rspMsg = none
  counts : cmd.cbackCnt = zero.change gattIf true
  positive : 0 < gattIf
  bounded : gattIf ≤ maxApps

/-- A write waits for an application, which is not counted. -/
structure SrCmd.AwaitsWrite (cmd : SrCmd) : Prop where
  opCode : cmd.opCode ∈ singleWrites
  transaction : cmd.transId ≠ 0
  unsent : cmd.rspMsg = none
  counts : cmd.cbackCnt = .zero

/-- Only requests for single attributes are pending, each with its own transaction. -/
structure Tcb.Single (tcb : Tcb) : Prop where
  commands : ∀ cid cmd, tcb.cmd? cid = some cmd →
    cmd.Clear ∨ (∃ gattIf, cmd.AwaitsRead gattIf) ∨ cmd.AwaitsWrite
  distinct : ∀ cid other cmd cmd', tcb.cmd? cid = some cmd → tcb.cmd? other = some cmd' →
    cmd.transId ≠ 0 → cmd.transId = cmd'.transId → cid = other

variable {tcb : Tcb} {cid : Nat} {cmd : SrCmd}

/-- The fixed channel counts an application exactly while a read is pending on it. -/
theorem Tcb.Single.isCbackCntZero_iff (single : tcb.Single) :
    gattSrIsCbackCntZero tcb = true ↔ ¬∃ gattIf, tcb.srCmd.AwaitsRead gattIf := by
  rw [gattSrIsCbackCntZero]
  rcases single.commands _ _ tcb.cmd?_attLcid with clear | ⟨gattIf, read⟩ | write
  · rw [clear.counts]
    refine iff_of_true isZero_zero ?_
    rintro ⟨gattIf, read⟩
    exact read.transaction clear.transaction
  · rw [read.counts, isZero_change_zero read.positive read.bounded]
    exact iff_of_false Bool.false_ne_true fun none => none ⟨gattIf, read⟩
  · rw [write.counts]
    refine iff_of_true isZero_zero ?_
    rintro ⟨gattIf, read⟩
    have both := read.opCode
    have apart : List.Disjoint singleWrites singleReads := by
      simp [singleWrites, singleReads, reqWrite, reqPrepareWrite, reqReadByType, reqRead, reqReadBlob]
    exact apart write.opCode both

/-! ## Requests for single attributes -/

/-- The requests for several attributes. -/
def severalAttributes : List UInt8 := [reqExecWrite, reqReadMulti, reqReadMultiVar]

/-- The next number of a transaction is not in use. -/
structure Tcb.Fresh (tcb : Tcb) : Prop where
  nonzero : tcb.transId + 1 ≠ 0
  unused : ∀ cid cmd, tcb.cmd? cid = some cmd → cmd.transId ≠ tcb.transId + 1

/-- What a request does: its channel may get a pending command, with a new transaction. -/
def Requested (tcb : Tcb) (cid : Nat) (next : Tcb) : Prop :=
  ∀ other cmd, next.cmd? other = some cmd → tcb.cmd? other = some cmd ∨
    other = cid ∧ cmd.transId = tcb.transId + 1 ∧
      ((∃ gattIf, cmd.AwaitsRead gattIf) ∨ cmd.AwaitsWrite)

/-- Only requests for single attributes are pending, and the other channels are cleared. -/
structure Tcb.Served (tcb : Tcb) : Prop extends tcb.Single where
  free : ∀ cid cmd, tcb.cmd? cid = some cmd → cmd.opCode = 0 → cmd = .cleared

variable {next : Tcb} {opCode : UInt8} {gattIf : Nat}

theorem Tcb.Served.requested (served : tcb.Served) (fresh : tcb.Fresh)
    (requested : Requested tcb cid next) : next.Served where
  commands := by
    intro other cmd found
    rcases requested other cmd found with old | ⟨-, -, awaits⟩
    · exact served.commands other cmd old
    · exact .inr awaits
  distinct := by
    intro first second cmd cmd' found found' transaction same
    rcases requested first cmd found with old | ⟨rfl, new, -⟩ <;>
      rcases requested second cmd' found' with old' | ⟨rfl, new', -⟩
    · exact served.distinct _ _ _ _ old old' transaction same
    · exact absurd (same.trans new') (fresh.unused first cmd old)
    · exact absurd (same.symm.trans new) (fresh.unused second cmd' old')
    · rfl
  free := by
    intro other cmd found none
    rcases requested other cmd found with old | ⟨-, -, ⟨gattIf, read⟩ | write⟩
    · exact served.free other cmd old none
    · exact absurd (none ▸ read.opCode) (by decide)
    · exact absurd (none ▸ write.opCode) (by decide)

theorem Tcb.cmd?_modify_of_ne {other : Nat} (apart : other ≠ cid) (change : SrCmd → SrCmd) :
    (tcb.modify cid change).cmd? other = tcb.cmd? other := by
  rw [cmd?, cmd?, modify]
  dsimp only
  rw [KeyedList.lookup_update_of_ne apart]
  by_cases own : other = tcb.attLcid
  · rw [if_pos own, if_pos own, if_neg fun same => apart (own.trans same.symm)]
  · rw [if_neg own, if_neg own]

theorem Requested.refl (tcb : Tcb) (cid : Nat) : Requested tcb cid tcb := fun _ _ found => .inl found

/-- The only difference is the command of the channel. -/
theorem Requested.pending (others : ∀ other, other ≠ cid → next.cmd? other = tcb.cmd? other)
    (own : next.cmd? cid = some cmd) (transaction : cmd.transId = tcb.transId + 1)
    (awaits : (∃ gattIf, cmd.AwaitsRead gattIf) ∨ cmd.AwaitsWrite) : Requested tcb cid next := by
  intro other cmd' found
  by_cases same : other = cid
  · subst same
    cases own.symm.trans found
    exact .inr ⟨rfl, transaction, awaits⟩
  · exact .inl (others other same ▸ found)

theorem tcb_refuse (outcome : Outcome) (cid : Nat) (reason : GattStatus) (opCode : UInt8)
    (handle : Nat) : (outcome.refuse cid reason opCode handle).tcb = outcome.tcb := by
  rw [Outcome.refuse]
  split <;> rfl

section

variable {cb : GattCb} {sec : SecInfo} {outcome : Outcome} {data : List UInt8} {el : SrvListElem}
  {attr : Attr} (fresh : tcb.Fresh) (channel : tcb.cmd? cid = some .cleared)
include channel

theorem gattSrEnqueueCmd_single (single : opCode ∈ singleReads ++ singleWrites) (handle : Nat) :
    ∃ next, gattSrEnqueueCmd tcb cid opCode handle = some (tcb.transId + 1, next) ∧
      next.cmd? cid = some (SrCmd.start (tcb.transId + 1) opCode handle .cleared) ∧
      ∀ other, other ≠ cid → next.cmd? other = tcb.cmd? other := by
  have stored : ∀ code ∈ singleReads ++ singleWrites,
      code ∉ [cmdWrite, signCmdWrite, reqMtu, handleValueConf] := by decide +kernel
  refine ⟨tcb.enqueued cid opCode handle, ?_, ?_, fun other apart => ?_⟩
  · rw [gattSrEnqueueCmd, channel, map_some, if_pos (.inl rfl), if_neg (stored opCode single)]
  · exact (tcb.cmd?_modify_self cid _).trans (congrArg (Option.map _) channel)
  · exact @cmd?_modify_of_ne tcb cid other apart (SrCmd.start (tcb.transId + 1) opCode handle)

include fresh

theorem gattsProcessWriteReq_requested
    (kind : opCode ∈ singleWrites ∨ opCode = cmdWrite ∨ opCode = signCmdWrite)
    (done : gattsProcessWriteReq sec tcb cid el attr opCode data = some outcome) :
    Requested tcb cid outcome.tcb := by
  have refused : ∀ tcb status, (refuseWrite tcb cid status opCode attr.handle).tcb = tcb := by
    intro tcb status
    rw [refuseWrite]
    split
    · exact tcb_refuse _ _ _ _ _
    · rfl
  have enqueued : ∃ next, gattSrEnqueueCmd tcb cid opCode attr.handle =
      some (tcb.transId + 1, next) ∧ Requested tcb cid next := by
    rcases kind with write | command
    · obtain ⟨next, enqueued, own, others⟩ :=
        gattSrEnqueueCmd_single channel (mem_append_right _ write) attr.handle
      exact ⟨next, enqueued, .pending others own rfl (.inr ⟨write, fresh.nonzero, rfl, rfl⟩)⟩
    · refine ⟨{ tcb with transId := tcb.transId + 1 }, ?_, .refl tcb cid⟩
      rw [gattSrEnqueueCmd, channel, map_some, if_pos (.inl rfl)]
      rcases command with rfl | rfl <;> rfl
  obtain ⟨next, enqueued, requested⟩ := enqueued
  rw [gattsProcessWriteReq, enqueued] at done
  simp only [map_some, if_pos fresh.nonzero] at done
  repeat' split at done
  all_goals cases done
  · exact .refl tcb cid
  · exact requested
  · exact requested
  · rw [refused]
    exact requested
  · rw [refused]
    exact .refl tcb cid

variable (registered : ∀ el ∈ cb.srvListInfo.services, 0 < el.gattIf ∧ el.gattIf ≤ maxApps)
include registered

theorem gattsSendAppReadRequest_requested {offset : Nat} {status : GattStatus}
    (kind : opCode ∈ singleReads)
    (done : gattsSendAppReadRequest cb tcb cid opCode attr offset 0 = some (status, outcome)) :
    Requested tcb cid outcome.tcb := by
  obtain ⟨el, found, done⟩ := bind_eq_some_iff.mp done
  have listed := registered el (mem_of_find?_eq_some found)
  obtain ⟨next, enqueued, own, others⟩ :=
    gattSrEnqueueCmd_single channel (mem_append_left _ kind) attr.handle
  have counted : (gattSrUpdateCbackCnt next cid el.gattIf true true).cmd? cid =
      some { SrCmd.start (tcb.transId + 1) opCode attr.handle .cleared with
        cbackCnt := zero.change el.gattIf true } := by
    rw [gattSrUpdateCbackCnt, if_pos rfl, gattSrResetCbackCnt, cmd?_modify_self, cmd?_modify_self,
      own]
    rfl
  have requested : Requested tcb cid (gattSrUpdateCbackCnt next cid el.gattIf true true) := by
    refine .pending (fun other apart => ?_) counted rfl
      (.inl ⟨el.gattIf, kind, fresh.nonzero, rfl, rfl, listed.1, listed.2⟩)
    rw [gattSrUpdateCbackCnt, if_pos rfl, gattSrResetCbackCnt, cmd?_modify_of_ne apart,
      cmd?_modify_of_ne apart, others other apart]
  rw [if_pos rfl, enqueued, map_some, map_some, some.injEq] at done
  dsimp only at done
  rw [if_pos fresh.nonzero] at done
  split at done
  all_goals
    cases done
    exact requested

theorem gattsProcessReadReq_requested {handle : Nat} (kind : opCode ∈ singleReads)
    (done : gattsProcessReadReq cb sec tcb cid el opCode handle data = some outcome) :
    Requested tcb cid outcome.tcb := by
  rw [gattsProcessReadReq] at done
  split at done
  · cases done
    exact .refl tcb cid
  · obtain ⟨msg, -, done⟩ := bind_eq_some_iff.mp done
    obtain ⟨⟨reason, value, read⟩, answered, done⟩ := bind_eq_some_iff.mp done
    have requested : Requested tcb cid read.tcb := by
      rw [gattsReadAttrValueByHandle] at answered
      split at answered
      · cases answered
        exact .refl tcb cid
      · obtain ⟨⟨status, value⟩, -, answered⟩ := bind_eq_some_iff.mp answered
        dsimp only at answered
        split at answered
        · obtain ⟨⟨status, asked⟩, sent, same⟩ := map_eq_some_iff.mp answered
          cases same
          exact gattsSendAppReadRequest_requested fresh channel registered kind sent
        · cases answered
          exact .refl tcb cid
    dsimp only at done
    split at done
    · obtain ⟨_, -, rfl⟩ := map_eq_some_iff.mp done
      exact requested
    · cases done
      rw [tcb_refuse]
      exact requested

theorem gattsProcessAttributeReq_requested
    (kind : opCode ∈ [reqRead, reqReadBlob, reqWrite, cmdWrite, signCmdWrite, reqPrepareWrite])
    (done : gattsProcessAttributeReq cb sec tcb cid opCode data = some outcome) :
    Requested tcb cid outcome.tcb := by
  have refused : ∀ status handle,
      Requested tcb cid (refuseAttribute tcb cid status opCode handle).tcb := by
    intro status handle
    rw [refuseAttribute]
    split <;> exact .refl tcb cid
  rw [gattsProcessAttributeReq] at done
  dsimp only at done
  repeat' split at done
  case h_2.isTrue read =>
    have kind : opCode ∈ singleReads := by rcases read with rfl | rfl <;> decide
    exact gattsProcessReadReq_requested fresh channel registered kind done
  case h_2.isFalse other =>
    have written : ∀ code ∈ [reqRead, reqReadBlob, reqWrite, cmdWrite, signCmdWrite,
        reqPrepareWrite], ¬(code = reqRead ∨ code = reqReadBlob) →
        code ∈ singleWrites ∨ code = cmdWrite ∨ code = signCmdWrite := by decide +kernel
    exact gattsProcessWriteReq_requested fresh channel (written opCode kind other) done
  all_goals
    cases done
    exact refused _ _

theorem dispatchClientReq_requested (single : opCode ∉ severalAttributes)
    (done : dispatchClientReq cb sec tcb cid opCode data = some outcome) :
    Requested tcb cid outcome.tcb := by
  have execWrite : opCode ≠ reqExecWrite := by
    rintro rfl
    exact single (by decide)
  have readMulti : ¬(opCode = reqReadMulti ∨ opCode = reqReadMultiVar) := by
    rintro (rfl | rfl) <;> exact single (by decide)
  rw [dispatchClientReq, if_neg execWrite, if_neg readMulti] at done
  repeat' split at done
  case isFalse.isFalse.isTrue =>
    obtain ⟨answer, -, done⟩ := bind_eq_some_iff.mp done
    cases answer with
    | send pdu =>
      cases done
      exact .refl tcb cid
    | askApp attr =>
      obtain ⟨⟨status, asked⟩, sent, rfl⟩ := map_eq_some_iff.mp done
      rw [tcb_refuse]
      exact gattsSendAppReadRequest_requested fresh channel registered (by decide) sent
  case isFalse.isFalse.isFalse.isTrue kind =>
    exact gattsProcessAttributeReq_requested fresh channel registered kind done
  case isFalse.isFalse.isFalse.isFalse.isTrue =>
    cases done
    rw [gattsProcessMtuReq]
    repeat' split
    all_goals exact .refl tcb cid
  case isFalse.isFalse.isFalse.isFalse.isFalse =>
    cases done
    exact .refl tcb cid
  all_goals
    obtain ⟨_, -, rfl⟩ := map_eq_some_iff.mp done
    exact .refl tcb cid

end

/-- The connection after a request of the client on a channel. -/
def request (cb : GattCb) (sec : SecInfo) (tcb : Tcb) (req : Nat × UInt8 × List UInt8) :
    Option Tcb :=
  (gattServerHandleClientReq cb sec tcb req.1 req.2.1 req.2.2).map Outcome.tcb

/-- The request is not for several attributes, and its transaction is a new one. -/
def RequestsSingle (tcb : Tcb) (req : Nat × UInt8 × List UInt8) : Prop :=
  tcb.Fresh ∧ req.2.1 ∉ severalAttributes

section

variable {cb : GattCb} {sec : SecInfo}
  (registered : ∀ el ∈ cb.srvListInfo.services, 0 < el.gattIf ∧ el.gattIf ≤ maxApps)
include registered

theorem Tcb.Served.request (served : tcb.Served) {req : Nat × UInt8 × List UInt8}
    (allowed : RequestsSingle tcb req) (done : Legacy.request cb sec tcb req = some next) :
    next.Served := by
  obtain ⟨cid, opCode, data⟩ := req
  obtain ⟨outcome, handled, rfl⟩ := map_eq_some_iff.mp done
  obtain ⟨empty, found, done⟩ := bind_eq_some_iff.mp handled
  obtain ⟨cmd, channel, rfl⟩ := map_eq_some_iff.mp found
  suffices Requested tcb cid outcome.tcb from served.requested allowed.1 this
  split at done
  · cases done
    exact .refl tcb cid
  · next free =>
    cases served.free cid cmd channel (by simpa using free)
    repeat' split at done
    case isFalse.isFalse =>
      exact dispatchClientReq_requested allowed.1 channel registered allowed.2 done
    case isFalse.isTrue =>
      cases done
      rw [gattsProcessDbOutOfSync, gattSrUpdateClStatus, gattSrUpdateClStatus]
      repeat' split
      all_goals exact .refl tcb cid
    all_goals
      cases done
      exact .refl tcb cid

/-- A connection without commands keeps them in order along its requests for single attributes. -/
theorem single_of_requests {reqs : List (Nat × UInt8 × List UInt8)}
    (idle : ∀ cid cmd, tcb.cmd? cid = some cmd → cmd = .cleared)
    (allowed : Along (Legacy.request cb sec) RequestsSingle tcb reqs)
    (reached : run (Legacy.request cb sec) tcb reqs = some next) : next.Single := by
  have start : tcb.Served := by
    refine ⟨⟨?_, ?_⟩, fun cid cmd found _ => idle cid cmd found⟩
    · intro cid cmd found
      cases idle cid cmd found
      exact .inl ⟨rfl, rfl⟩
    · intro cid other cmd cmd' found _ transaction
      cases idle cid cmd found
      exact absurd rfl transaction
  exact (invariant_along (fun _ _ _ served allowed done => served.request registered allowed done)
    start allowed reached).toSingle

end

/-! ## Responses -/

theorem Tcb.cmd?_of_mem {channel : EattChannel} (listed : (cid, channel) ∈ tcb.eattChannels) :
    tcb.cmd? cid = some channel.serverOutstandingCmd := by
  have apart : cid ≠ tcb.attLcid := by
    rintro rfl
    exact tcb.apart (KeyedList.mem_keys listed)
  rw [cmd?, if_neg apart, KeyedList.lookup_of_mem tcb.distinct listed, map_some]

theorem gattSrGetCmdByTransId_eq (single : tcb.Single) (channel : tcb.cmd? cid = some cmd)
    (transaction : cmd.transId ≠ 0) :
    gattSrGetCmdByTransId tcb cmd.transId = some cid := by
  rw [gattSrGetCmdByTransId]
  by_cases fixed : tcb.srCmd.transId = cmd.transId
  · rw [if_pos fixed]
    exact congrArg some
      (single.distinct _ _ _ _ channel tcb.cmd?_attLcid transaction fixed.symm).symm
  · have apart : cid ≠ tcb.attLcid := by
      rintro rfl
      cases tcb.cmd?_attLcid.symm.trans channel
      exact fixed rfl
    rw [if_neg fixed]
    rw [cmd?, if_neg apart] at channel
    obtain ⟨eatt, found, rfl⟩ := map_eq_some_iff.mp channel
    have listed := KeyedList.mem_of_lookup found
    cases first : tcb.eattChannels.find? fun entry =>
        entry.2.serverOutstandingCmd.transId == eatt.serverOutstandingCmd.transId with
    | none =>
      have missing := find?_eq_none.mp first _ listed
      exact absurd (beq_self_eq_true _) missing
    | some entry =>
      have same := find?_some first
      rw [beq_iff_eq] at same
      refine congrArg some (single.distinct _ _ _ _ (cmd?_of_mem listed)
        (cmd?_of_mem (mem_of_find?_eq_some first)) transaction same.symm).symm

theorem attpBuildSrMsg_single {opCode : UInt8} (single : opCode ∈ singleReads ++ singleWrites)
    (rsp : AppRsp) (payloadSize : UInt16) :
    ∃ pdu, attpBuildSrMsg (opCode + 1) rsp payloadSize = some pdu ∧
      pdu.head? = some (opCode + 1) := by
  have begins : ∀ code handle offset value,
      (attpBuildValueCmd payloadSize.toNat code handle offset value).head? = some code := by
    intro code handle offset value
    rw [attpBuildValueCmd]
    split <;> rfl
  simp only [singleReads, singleWrites, cons_append, nil_append, mem_cons,
    not_mem_nil, or_false] at single
  rcases single with rfl | rfl | rfl | rfl | rfl
  · rw [attpBuildSrMsg, if_neg (by decide), if_pos (by decide)]
    exact ⟨_, rfl, begins _ _ _ _⟩
  · rw [attpBuildSrMsg, if_neg (by decide), if_pos (by decide)]
    exact ⟨_, rfl, begins _ _ _ _⟩
  · rw [attpBuildSrMsg, if_pos (by decide)]
    exact ⟨_, rfl, begins _ _ _ _⟩
  · rw [attpBuildSrMsg, if_neg (by decide), if_neg (by decide), if_pos (by decide)]
    exact ⟨_, rfl, rfl⟩
  · rw [attpBuildSrMsg, if_pos (by decide)]
    exact ⟨_, rfl, begins _ _ _ _⟩

/-- The connection after the response of an application is counted. -/
def answeredTcb (tcb : Tcb) (cid gattIf : Nat) (opCode : UInt8) : Tcb :=
  let tcb := gattSrUpdateCbackCnt tcb cid gattIf false false
  (if opCode = reqPrepareWrite then gattSrUpdatePrepCnt tcb gattIf true false else tcb).modify cid
    fun cmd => { cmd with status := .success }

theorem cmd?_answeredTcb (channel : tcb.cmd? cid = some cmd) (gattIf : Nat) (opCode : UInt8) :
    (answeredTcb tcb cid gattIf opCode).cmd? cid =
      some { cmd with cbackCnt := cmd.cbackCnt.change gattIf false, status := .success } := by
  have counted : (gattSrUpdateCbackCnt tcb cid gattIf false false).cmd? cid =
      some { cmd with cbackCnt := cmd.cbackCnt.change gattIf false } := by
    rw [gattSrUpdateCbackCnt, if_neg Bool.false_ne_true, cmd?_modify_self, channel, map_some]
  rw [answeredTcb]
  split
  · rw [cmd?_modify_self]
    exact congrArg (Option.map _) counted
  · rw [cmd?_modify_self, counted, map_some]

theorem srCmd_answeredTcb_of_ne (apart : cid ≠ tcb.attLcid) (gattIf : Nat) (opCode : UInt8) :
    (answeredTcb tcb cid gattIf opCode).srCmd = tcb.srCmd := by
  rw [answeredTcb, gattSrUpdateCbackCnt, if_neg Bool.false_ne_true]
  split
  · rw [srCmd_modify_of_ne (by exact apart)]
    exact if_neg apart
  · rw [srCmd_modify_of_ne (by exact apart), srCmd_modify_of_ne apart]

theorem attLcid_answeredTcb (tcb : Tcb) (cid gattIf : Nat) (opCode : UInt8) :
    (answeredTcb tcb cid gattIf opCode).attLcid = tcb.attLcid := by
  rw [answeredTcb, attLcid_modify]
  split <;> rfl

theorem isCbackCntZero_answeredTcb (channel : tcb.cmd? cid = some cmd)
    (counts : cmd.cbackCnt.change gattIf false = .zero) (opCode : UInt8) :
    gattSrIsCbackCntZero (answeredTcb tcb cid gattIf opCode) = true ↔
      cid = tcb.attLcid ∨ gattSrIsCbackCntZero tcb = true := by
  rw [gattSrIsCbackCntZero]
  by_cases fixed : cid = tcb.attLcid
  · have answered := cmd?_answeredTcb channel gattIf opCode
    have own : cid = (answeredTcb tcb cid gattIf opCode).attLcid :=
      fixed.trans (attLcid_answeredTcb tcb cid gattIf opCode).symm
    rw [cmd?, if_pos own, some.injEq] at answered
    rw [answered, counts]
    exact iff_of_true isZero_zero (.inl fixed)
  · rw [srCmd_answeredTcb_of_ne fixed]
    exact (or_iff_right fixed).symm

/-- One response is sent on the channel, and the channel is free. -/
def AnswersAndFrees (cid : Nat) (opCode : UInt8)
    (result : Option (Tcb × List (Nat × List UInt8))) : Prop :=
  ∃ ended pdu, result = some (ended, [(cid, pdu)]) ∧ pdu.head? = some (opCode + 1) ∧
    ended.cmd? cid = some .cleared

theorem gattSrProcessAppRsp_single (channel : tcb.cmd? cid = some cmd)
    (single : cmd.opCode ∈ singleReads ++ singleWrites) (unsent : cmd.rspMsg = none)
    (counts : cmd.cbackCnt.change gattIf false = .zero) (rsp : AppRsp) :
    AnswersAndFrees cid cmd.opCode (gattSrProcessAppRsp tcb cid gattIf cmd.opCode .success rsp) ↔
      cid = tcb.attLcid ∨ gattSrIsCbackCntZero tcb = true := by
  have kinds : ¬(cmd.opCode = reqReadMulti ∨ cmd.opCode = reqReadMultiVar) := by
    rintro (multi | multi)
    all_goals
      rw [multi] at single
      exact absurd single (by decide)
  have answered := cmd?_answeredTcb channel gattIf cmd.opCode
  rw [← isCbackCntZero_answeredTcb channel counts cmd.opCode]
  have steps : gattSrProcessAppRsp tcb cid gattIf cmd.opCode .success rsp =
      if gattSrIsCbackCntZero (answeredTcb tcb cid gattIf cmd.opCode) = true then
        (attpBuildSrMsg (cmd.opCode + 1) rsp (gattTcbGetPayloadSizeTx tcb cid)).bind fun pdu =>
          finishAppRsp ((answeredTcb tcb cid gattIf cmd.opCode).modify cid
            fun cmd => { cmd with rspMsg := some pdu }) cid cmd.opCode .success
      else finishAppRsp (answeredTcb tcb cid gattIf cmd.opCode) cid cmd.opCode .success := by
    have counted : (gattSrUpdateCbackCnt tcb cid gattIf false false).cmd? cid =
        some { cmd with cbackCnt := cmd.cbackCnt.change gattIf false } := by
      rw [gattSrUpdateCbackCnt, if_neg Bool.false_ne_true, cmd?_modify_self, channel, map_some]
    rw [gattSrProcessAppRsp, counted, bind_some, if_neg kinds]
    simp only [ne_eq, not_true_eq_false, and_false, if_false, and_true, unsent]
    rfl
  rw [steps]
  split
  case isTrue zero =>
    obtain ⟨pdu, built, begins⟩ :=
      attpBuildSrMsg_single single rsp (gattTcbGetPayloadSizeTx tcb cid)
    refine iff_of_true ?_ zero
    have stored : ((answeredTcb tcb cid gattIf cmd.opCode).modify cid
        fun cmd => { cmd with rspMsg := some pdu }).cmd? cid = some { cmd with
            cbackCnt := cmd.cbackCnt.change gattIf false
            status := .success
            rspMsg := some pdu } := by
      rw [cmd?_modify_self, answered, map_some]
    have allAnswered : gattSrIsCbackCntZero ((answeredTcb tcb cid gattIf cmd.opCode).modify cid
        fun cmd => { cmd with rspMsg := some pdu }) = true := by
      rw [gattSrIsCbackCntZero, Tcb.modify]
      split <;> exact zero
    refine ⟨gattDequeueSrCmd ((answeredTcb tcb cid gattIf cmd.opCode).modify cid
      fun cmd => { cmd with rspMsg := some pdu }) cid, pdu, ?_, begins, ?_⟩
    · rw [built, bind_some, finishAppRsp, if_pos allAnswered, stored, map_some,
        if_pos rfl, getD_some]
    · rw [gattDequeueSrCmd, cmd?_modify_self, stored, map_some]
  case isFalse waiting =>
    refine iff_of_false ?_ waiting
    rintro ⟨ended, pdu, sent, -⟩
    rw [finishAppRsp, if_neg waiting] at sent
    cases sent

/--
The response of an application is sent on the channel of its transaction and frees the
channel, if and only if that is the fixed channel or no read is pending on the fixed channel.
-/
theorem gattsSendRsp_frees_iff {tcb : Tcb} (single : tcb.Single) {cid : Nat} {cmd : SrCmd}
    (channel : tcb.cmd? cid = some cmd) {gattIf : Nat}
    (pending : cmd.AwaitsRead gattIf ∨ cmd.AwaitsWrite) (rsp : AppRsp) :
    AnswersAndFrees cid cmd.opCode (gattsSendRsp tcb gattIf cmd.transId .success rsp) ↔
      cid = tcb.attLcid ∨ ¬∃ other, tcb.srCmd.AwaitsRead other := by
  have transaction : cmd.transId ≠ 0 := pending.elim (·.transaction) (·.transaction)
  have opCode : cmd.opCode ∈ singleReads ++ singleWrites :=
    mem_append.mpr (pending.imp (·.opCode) (·.opCode))
  have unsent : cmd.rspMsg = none := pending.elim (·.unsent) (·.unsent)
  have counts : cmd.cbackCnt.change gattIf false = .zero := by
    rcases pending with read | write
    · rw [read.counts, change_change_zero]
    · rw [write.counts, change_zero]
  rw [gattsSendRsp, gattSrGetCmdByTransId_eq single channel transaction]
  dsimp only
  rw [channel, bind_some, ← single.isCbackCntZero_iff]
  exact gattSrProcessAppRsp_single channel opCode unsent counts rsp

def twoBearers (fixed eatt : SrCmd) (transId : UInt32) : Tcb where
  attLcid := l2capAttCid
  payloadSize := 23
  srCmd := fixed
  eattChannels := [(64, ⟨64, 64, eatt, Nat.le_add_left 23 41⟩)]
  prepCnt := .zero
  transId := transId
  clRobustCaching := false
  isRobustCacheChangeAware := true
  large := Nat.le_refl 23
  distinct := nodup_singleton 64
  apart := fun listed => absurd (mem_singleton.mp listed) (Nat.ne_of_lt (by decide : 4 < 64))

theorem cmd?_twoBearers {fixed eatt : SrCmd} {transId : UInt32}
    (channel : (twoBearers fixed eatt transId).cmd? cid = some cmd) :
    (cid = l2capAttCid ∧ cmd = fixed) ∨ (cid = 64 ∧ cmd = eatt) := by
  rw [cmd?] at channel
  split at channel
  case isTrue own => exact .inl ⟨own, (some.inj channel).symm⟩
  case isFalse apart =>
    obtain ⟨entry, found, rfl⟩ := map_eq_some_iff.mp channel
    have listed := mem_singleton.mp (KeyedList.mem_of_lookup found)
    rw [Prod.mk.injEq] at listed
    exact .inr ⟨listed.1, congrArg EattChannel.serverOutstandingCmd listed.2⟩

/-- A write that waits for an application. -/
def pendingWrite : SrCmd := { SrCmd.cleared with opCode := reqWrite, transId := 1, handle := 3 }

/-- A read that waits for an application. -/
def pendingRead : SrCmd :=
  { SrCmd.cleared with
    opCode := reqRead
    transId := 2
    handle := 3
    cbackCnt := zero.change 1 true }

theorem pendingWrite_awaits : pendingWrite.AwaitsWrite := ⟨by decide, by decide, rfl, rfl⟩

theorem pendingRead_awaits : pendingRead.AwaitsRead 1 :=
  ⟨by decide, by decide, rfl, rfl, Nat.one_pos, by decide⟩

theorem twoBearers_single : (twoBearers pendingWrite pendingRead 2).Single := by
  constructor
  case commands =>
    intro cid cmd channel
    rcases cmd?_twoBearers channel with ⟨-, rfl⟩ | ⟨-, rfl⟩
    · exact .inr (.inr pendingWrite_awaits)
    · exact .inr (.inl ⟨1, pendingRead_awaits⟩)
  case distinct =>
    intro cid other cmd cmd' channel otherChannel _ same
    rcases cmd?_twoBearers channel with ⟨rfl, rfl⟩ | ⟨rfl, rfl⟩ <;>
      rcases cmd?_twoBearers otherChannel with ⟨rfl, rfl⟩ | ⟨rfl, rfl⟩
    · rfl
    · exact absurd same (by decide)
    · exact absurd same (by decide)
    · rfl

/-- A write is pending on the fixed channel: the response to the read is sent. -/
theorem gattsSendRsp_frees_iff_read :
    (twoBearers pendingWrite pendingRead 2).cmd? 64 = some pendingRead ∧
      AnswersAndFrees 64 reqRead (gattsSendRsp (twoBearers pendingWrite pendingRead 2) 1 2 .success
        ⟨⟨3, [100], by decide⟩, 0⟩) := by
  refine ⟨rfl, (@gattsSendRsp_frees_iff _ twoBearers_single 64 pendingRead rfl 1
    (.inl pendingRead_awaits) ⟨⟨3, [100], by decide⟩, 0⟩).mpr (.inr ?_)⟩
  rintro ⟨other, read⟩
  exact absurd read.opCode (by decide)

/-- The services of one device, without a database hash. -/
def oneServiceCb : GattCb := ⟨oneService, 0, 0, []⟩

/--
A value is read on both channels.  The application answers the read of the EATT channel, and
nothing is sent.
-/
theorem eatt_response_held_back :
    ((gattServerHandleClientReq oneServiceCb openLink (twoBearers .cleared .cleared 0) 4 reqRead
        [0x03, 0x00]).bind fun first =>
      (gattServerHandleClientReq oneServiceCb openLink first.tcb 64 reqRead
          [0x03, 0x00]).bind fun second =>
        (gattsSendRsp second.tcb 1 2 .success ⟨⟨3, [100], by decide⟩, 0⟩).map fun answered =>
          (first.asked, second.asked, answered.2)) =
      some ([⟨1, 1, .readCharacteristic ⟨3, 0, false⟩⟩],
        [⟨1, 2, .readCharacteristic ⟨3, 0, false⟩⟩], []) := by
  decide

end BluetoothFormal.Gatt.Legacy
