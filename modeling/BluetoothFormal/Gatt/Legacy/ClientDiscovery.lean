import BluetoothFormal.Gatt.Legacy.ClientQueue

/-!
# Discovery by the legacy GATT client

A discovery asks for the attributes in a range of handles.  Each response is followed by a
request that starts behind the last handle the server has told, whatever that handle is, so
the requests go on for ever with a server that tells handles below the range.  With a
server that keeps to the range the requests start at higher and higher handles, and there
are no more of them than handles.
-/

namespace BluetoothFormal.Gatt.Legacy

open L2cap Foundation.Transition List

/-! ## Operations and requests -/

/-- `tGATT_DISC_TYPE`. -/
inductive DiscType where
  | srvcAll
  | srvcByUuid
  | incSrvc
  | char
  | charDscpt
  deriving DecidableEq

def DiscType.attOpcode : DiscType → UInt8
  | .srvcAll => reqReadByGrpType
  | .srvcByUuid => reqFindTypeValue
  | .incSrvc => reqReadByType
  | .char => reqReadByType
  | .charDscpt => reqFindInfo

/-- `disc_type_to_uuid`, with `0` for no type. -/
def DiscType.uuid : DiscType → UInt16
  | .srvcAll => 0x2800
  | .srvcByUuid => 0x2800
  | .incSrvc => 0x2802
  | .char => 0x2803
  | .charDscpt => 0

/-- `tGATT_DISC_VALUE`, with the member that is filled in. -/
inductive DiscValue where
  | unset
  | group (eHandle : Nat) (serviceType : Uuid)
  | inclService (sHandle eHandle : Nat) (serviceType : Uuid)
  | dclrValue (charProp : UInt8) (valHandle : Nat) (charUuid : Uuid)
  deriving DecidableEq

/-- `tGATT_DISC_RES`. -/
structure DiscRes where
  type : Uuid
  handle : Nat
  value : DiscValue
  deriving DecidableEq

/-- `tGATT_READ_INC_UUID128`, while the response to a Read request is awaited. -/
structure ReadIncUuid128 where
  result : DiscRes
  nextDiscStartHdl : Nat
  deriving DecidableEq

/-- The fields of `tGATT_CLCB` that a discovery uses. -/
structure DiscClcb where
  opSubtype : DiscType
  sHandle : Nat
  eHandle : Nat
  uuid : Uuid
  readUuid128 : Option ReadIncUuid128
  deriving DecidableEq

/-- The requests of a discovery, with the fields of `tGATT_CL_MSG`. -/
inductive DiscReq where
  | browse (opCode : UInt8) (sHandle eHandle : Nat) (uuid : UInt16)
  | findTypeValue (sHandle eHandle : Nat) (value : List UInt8)
  | read (handle : Nat)
  deriving DecidableEq

def DiscReq.opCode : DiscReq → UInt8
  | .browse opCode _ _ _ => opCode
  | .findTypeValue _ _ _ => reqFindTypeValue
  | .read _ => reqRead

/-- What `attp_send_cl_msg` returns for a request. -/
inductive AttRet where
  | success
  | cmdStarted
  | congested
  | internalError
  deriving DecidableEq

def AttRet.code : AttRet → UInt8
  | .success => 0x00
  | .cmdStarted => 0x86
  | .congested => 0x8f
  | .internalError => 0x81

inductive DiscNext where
  | request (clcb : DiscClcb) (req : DiscReq)
  | ended (status : UInt8)
  /-- The response to its request was dropped, and nothing follows. -/
  | dropped
  deriving DecidableEq

/-- The results that the application is told, and what becomes of the discovery. -/
structure DiscOutcome where
  results : List DiscRes
  next : DiscNext

section

variable (clcb : DiscClcb)

/-- The request of `gatt_act_discovery`. -/
def discReq : DiscReq :=
  if clcb.opSubtype = .srvcByUuid then
    .findTypeValue clcb.sHandle clcb.eHandle (if getShortestRepresentationSize clcb.uuid = 2 then
        uint16ToStream (as16Bit clcb.uuid).toNat
      else to128BitLE clcb.uuid)
  else .browse clcb.opSubtype.attOpcode clcb.sHandle clcb.eHandle clcb.opSubtype.uuid

def gattActDiscovery (ret : AttRet) : DiscNext :=
  if clcb.sHandle > clcb.eHandle ∨ clcb.sHandle = 0 then .ended GattStatus.success.code
  else if ret = .success ∨ ret = .cmdStarted then .request clcb (discReq clcb)
  else .ended GattStatus.error.code

/-- `gatt_act_read` for the UUID of an included service. -/
def gattActRead (ret : AttRet) : DiscNext :=
  if ret = .success ∨ ret = .cmdStarted then .request clcb (.read clcb.sHandle)
  else .ended ret.code

/-- The handle behind one; no request starts at `0`. -/
def nextStart (handle : Nat) : Nat := if handle = 0 then 0 else (handle + 1) % 65536

/-! ## Responses -/

/-- The records of one size that are complete; a loop reads one after another. -/
def completeRecords (size : Nat) (data : List UInt8) : List (List UInt8) :=
  (List.range (data.length / size)).map fun index => (data.drop (index * size)).take size

def gattProcessFindTypeValueRsp (data : List UInt8) (ret : AttRet) : DiscOutcome :=
  let groups := (completeRecords 4 data).map fun record =>
    (streamToUint16 record, streamToUint16 (record.drop 2))
  let eHandle := (groups.getLast?.map Prod.snd).getD 0
  ⟨groups.map fun group =>
      ⟨from16Bit (DiscType.uuid .srvcByUuid), group.1, .group group.2 clcb.uuid⟩,
    gattActDiscovery { clcb with sHandle := nextStart eHandle } ret⟩

/-- The length of the UUIDs in a Find Information response. -/
def infoUuidLen (format : UInt8) : Nat := if format = 1 then 2 else if format = 2 then 16 else 0

/--
`gatt_process_read_info_rsp`.  The handle of the result is not initialized: `stale` stands
for what is there if the response has no complete pair.
-/
def gattProcessReadInfoRsp (data : List UInt8) (stale : Nat) (ret : AttRet) : DiscOutcome :=
  match data with
  | [] => ⟨[], .ended GattStatus.invalidPdu.code⟩
  | format :: pairs =>
    let uuidLen := infoUuidLen format
    let results := (completeRecords (uuidLen + 2) pairs).map fun record =>
      ⟨if uuidLen = 2 then from16Bit (UInt16.ofNat (streamToUint16 (record.drop 2)))
        else if uuidLen = 16 then from128BitLE (record.drop 2)
        else clcb.uuid,
        streamToUint16 record, .unset⟩
    let handle := (results.getLast?.map DiscRes.handle).getD stale
    ⟨results, gattActDiscovery { clcb with sHandle := nextStart handle } ret⟩

end

/-- What a record of a Read By Type response does to the loop. -/
inductive RecordStep where
  | ends (status : UInt8)
  | stops (handle : Nat)
  | reads (clcb : DiscClcb)
  | skips (handle : Nat)
  | gives (handle : Nat) (result : DiscRes)

def serviceRecord (valueLen handle : Nat) (record : List UInt8) : RecordStep :=
  let eHandle := streamToUint16 (record.drop 2)
  if eHandle = 0 then .ends GattStatus.invalidHandle.code
  else
    match gattParseUuidFromCmd emptyUuid valueLen (record.drop 4) with
    | none => .stops eHandle
    | some (serviceType, _) =>
      .gives eHandle ⟨from16Bit (DiscType.uuid .srvcAll), handle, .group eHandle serviceType⟩

section

variable (clcb : DiscClcb)

def includeRecord (valueLen handle : Nat) (record : List UInt8) : RecordStep :=
  if valueLen < 4 then .ends GattStatus.invalidPdu.code
  else
    let sHandle := streamToUint16 (record.drop 2)
    let eHandle := streamToUint16 (record.drop 4)
    let type := from16Bit (DiscType.uuid .incSrvc)
    if sHandle = 0 ∨ eHandle = 0 then .ends GattStatus.invalidHandle.code
    else if valueLen = 6 then
      .gives handle ⟨type, handle, .inclService sHandle eHandle
        (from16Bit (UInt16.ofNat (streamToUint16 (record.drop 6))))⟩
    else if valueLen = 4 then
      .reads
        { clcb with
          sHandle := sHandle
          readUuid128 := some
            ⟨⟨type, handle, .inclService sHandle eHandle emptyUuid⟩, (handle + 1) % 65536⟩ }
    else .ends GattStatus.invalidPdu.code

def charRecord (valueLen handle : Nat) (record : List UInt8) : RecordStep :=
  if valueLen < 3 then .ends GattStatus.invalidPdu.code
  else
    let valHandle := streamToUint16 (record.drop 3)
    if valHandle = 0 then .ends GattStatus.invalidHandle.code
    else
      match gattParseUuidFromCmd emptyUuid (valueLen - 3) (record.drop 5) with
      | none => .ends GattStatus.success.code
      | some (charUuid, _) =>
        if clcb.uuid ≠ emptyUuid ∧ charUuid ≠ emptyUuid ∧ charUuid ≠ clcb.uuid then .skips handle
        else
          .gives handle ⟨from16Bit clcb.opSubtype.uuid, handle,
            .dclrValue ((record.drop 2).headD 0) valHandle charUuid⟩

section

variable (grouped : Bool)

/-- One turn of the loop of `gatt_process_read_by_type_rsp`. -/
def readByTypeRecord (valueLen : Nat) (record : List UInt8) : RecordStep :=
  let handle := streamToUint16 record
  if handle = 0 then .ends GattStatus.invalidHandle.code
  else if clcb.opSubtype = .srvcAll ∧ grouped then serviceRecord valueLen handle record
  else if clcb.opSubtype = .incSrvc then includeRecord clcb valueLen handle record
  else charRecord clcb valueLen handle record

/-- The loop of `gatt_process_read_by_type_rsp` and what follows it. -/
def readByTypeRecords (clcb : DiscClcb) (grouped : Bool) (valueLen : Nat) (ret : AttRet) :
    Nat → List DiscRes → List (List UInt8) → DiscOutcome
  | handle, results, [] =>
    ⟨results, gattActDiscovery { clcb with sHandle := nextStart handle } ret⟩
  | _, results, record :: rest =>
    match readByTypeRecord clcb grouped valueLen record with
    | .ends status => ⟨results, .ended status⟩
    | .stops last =>
      ⟨results, gattActDiscovery { clcb with sHandle := nextStart last } ret⟩
    | .reads reading => ⟨results, gattActRead reading ret⟩
    | .skips next => readByTypeRecords clcb grouped valueLen ret next results rest
    | .gives next result =>
      readByTypeRecords clcb grouped valueLen ret next (results ++ [result]) rest

def recordHandleLen : Nat := if grouped then 4 else 2

/-- The length of the rest of a record, in a byte. -/
def recordValueLen (pairLen : UInt8) : Nat :=
  (pairLen.toNat + 256 - recordHandleLen grouped) % 256

/-- `gatt_process_read_by_type_rsp` for a discovery. -/
def gattProcessReadByTypeRsp (payloadSize : Nat) (data : List UInt8) (ret : AttRet) : DiscOutcome :=
  match data with
  | [] => ⟨[], .ended GattStatus.invalidPdu.code⟩
  | pairLen :: pairs =>
    if pairLen.toNat > payloadSize - 2 ∨ pairLen.toNat > pairs.length then
      ⟨[], .ended GattStatus.error.code⟩
    else
      let valueLen := recordValueLen grouped pairLen
      readByTypeRecords clcb grouped valueLen ret 0 []
        (completeRecords (recordHandleLen grouped + valueLen) pairs)

end

/-- `gatt_process_read_rsp` for a discovery. -/
def gattProcessReadRsp (data : List UInt8) (ret : AttRet) : DiscOutcome :=
  match clcb.readUuid128 with
  | none => ⟨[], .dropped⟩
  | some waiting =>
    let resumed := { clcb with sHandle := waiting.nextDiscStartHdl, readUuid128 := none }
    if data.length = 16 then
      let value :=
        match waiting.result.value with
        | .inclService sHandle eHandle _ => .inclService sHandle eHandle (from128BitLE data)
        | other => other
      ⟨[{ waiting.result with value := value }], gattActDiscovery resumed ret⟩
    else ⟨[], .ended GattStatus.invalidPdu.code⟩

end

/-- `gatt_process_error_rsp` for a discovery, with `gatt_proc_disc_error_rsp`. -/
def gattProcDiscErrorRsp (data : List UInt8) : DiscOutcome :=
  let opCode := if data.length < 4 then 0 else data.headD 0
  let reason := if data.length < 4 then 0x7f else (data.drop 3).headD 0
  if opCode ∈ [reqReadByGrpType, reqFindTypeValue, reqReadByType, reqFindInfo] ∧
      reason = GattStatus.notFound.code then ⟨[], .ended GattStatus.success.code⟩
  else ⟨[], .ended reason⟩

/-- A response of the server and what the stack adds to it. -/
structure DiscRsp where
  opCode : UInt8
  data : List UInt8
  stale : Nat
  ret : AttRet

/-- `gatt_client_handle_server_rsp` for the request of a discovery. -/
def discHandleServerRsp (payloadSize : Nat) (clcb : DiscClcb) (req : DiscReq) (rsp : DiscRsp) :
    DiscOutcome :=
  if gattCmdToRspCode req.opCode ≠ rsp.opCode ∧ rsp.opCode ≠ rspError then ⟨[], .dropped⟩
  else if rsp.data.length ≥ payloadSize then ⟨[], .ended GattStatus.error.code⟩
  else if rsp.opCode = rspError then gattProcDiscErrorRsp rsp.data
  else
    match req with
    | .read _ => gattProcessReadRsp clcb rsp.data rsp.ret
    | .findTypeValue _ _ _ => gattProcessFindTypeValueRsp clcb rsp.data rsp.ret
    | .browse opCode _ _ _ =>
      if opCode = reqFindInfo then gattProcessReadInfoRsp clcb rsp.data rsp.stale rsp.ret
      else gattProcessReadByTypeRsp clcb (opCode = reqReadByGrpType) payloadSize rsp.data rsp.ret

/-! ## Runs -/

def DiscReq.start : DiscReq → Option Nat
  | .browse _ sHandle _ _ => some sHandle
  | .findTypeValue sHandle _ _ => some sHandle
  | .read _ => none

def DiscNext.requests : DiscNext → List DiscReq
  | .request _ req => [req]
  | .ended _ => []
  | .dropped => []

/-- What becomes of a discovery, and the requests that it has sent. -/
structure DiscRun where
  next : DiscNext
  requests : List DiscReq
  deriving DecidableEq

/-- The start handles of the requests so far. -/
def DiscRun.starts (run : DiscRun) : List Nat := run.requests.filterMap DiscReq.start

/-- `GATTC_Discover`, with handles that are valid. -/
def gattcDiscover (discType : DiscType) (startHandle endHandle : Nat) (uuid : Uuid) (ret : AttRet) :
    DiscRun :=
  let next := gattActDiscovery ⟨discType, startHandle, endHandle, uuid, none⟩ ret
  ⟨next, next.requests⟩

/-- The response to the request that is pending. -/
def discStep (payloadSize : Nat) (run : DiscRun) (rsp : DiscRsp) : Option DiscRun :=
  match run.next with
  | .request clcb req =>
    let next := (discHandleServerRsp payloadSize clcb req rsp).next
    some ⟨next, run.requests ++ next.requests⟩
  | .ended _ => none
  | .dropped => none

/-! ## Servers that keep to the range -/

/-- The handle that a record tells: for a service its last handle. -/
def toldHandle (grouped : Bool) (record : List UInt8) : Nat :=
  streamToUint16 (record.drop (if grouped then 2 else 0))

def toldHandles (req : DiscReq) (data : List UInt8) : List Nat :=
  match req with
  | .read _ => []
  | .findTypeValue _ _ _ => (completeRecords 4 data).map (toldHandle true)
  | .browse opCode _ _ _ =>
    if opCode = reqFindInfo then
      (completeRecords (infoUuidLen (data.headD 0) + 2) data.tail).map (toldHandle false)
    else
      let grouped : Bool := opCode = reqReadByGrpType
      (completeRecords (recordHandleLen grouped + recordValueLen grouped (data.headD 0))
        data.tail).map (toldHandle grouped)

/--
A response tells no handle below the start of its request, and a Find Information response
has a complete pair.
-/
def KeepsToRange (run : DiscRun) (rsp : DiscRsp) : Prop :=
  ∀ clcb req start, run.next = .request clcb req → req.start = some start →
    rsp.opCode = gattCmdToRspCode req.opCode →
      (∀ handle ∈ toldHandles req rsp.data, start ≤ handle) ∧
        (req.opCode = reqFindInfo → toldHandles req rsp.data ≠ [])

theorem gattCmdToRspCode_ne_error (cmdCode : UInt8) : rspError ≠ gattCmdToRspCode cmdCode := by
  rw [gattCmdToRspCode]
  split
  case isTrue request =>
    intro same
    have above : (1 : UInt8).toNat < cmdCode.toNat := UInt8.lt_iff_toNat_lt.mp request.1
    have sum := congrArg UInt8.toNat same
    rw [UInt8.toNat_add] at sum
    change 1 = (cmdCode.toNat + 1) % 256 at sum
    have byte := cmdCode.toNat_lt
    omega
  case isFalse => decide

variable {rsp : DiscRsp} {handle : Nat} {clcb : DiscClcb}

theorem keepsToRange_error (run : DiscRun) (error : rsp.opCode = rspError) :
    KeepsToRange run rsp :=
  fun _ req _ _ _ expected =>
    absurd (error.symm.trans expected) (gattCmdToRspCode_ne_error req.opCode)

/-! ## What follows a response -/

inductive Resumes (floor eHandle : Nat) : DiscNext → Prop where
  | ended (status : UInt8) : Resumes floor eHandle (.ended status)
  | dropped : Resumes floor eHandle .dropped
  | request (clcb : DiscClcb) (behind : floor < clcb.sHandle) (inside : clcb.sHandle ≤ clcb.eHandle)
      (same : clcb.eHandle = eHandle) (free : clcb.readUuid128 = none) :
      Resumes floor eHandle (.request clcb (discReq clcb))
  | read (clcb : DiscClcb) (waiting : ReadIncUuid128) (awaits : clcb.readUuid128 = some waiting)
      (behind : waiting.nextDiscStartHdl = 0 ∨ floor < waiting.nextDiscStartHdl)
      (same : clcb.eHandle = eHandle) :
      Resumes floor eHandle (.request clcb (.read clcb.sHandle))

theorem gattActDiscovery_resumes {clcb : DiscClcb} (free : clcb.readUuid128 = none)
    {floor : Nat} (behind : clcb.sHandle = 0 ∨ floor < clcb.sHandle) (ret : AttRet) :
    Resumes floor clcb.eHandle (gattActDiscovery clcb ret) := by
  rw [gattActDiscovery]
  split
  · exact .ended _
  case isFalse going =>
    rw [not_or] at going
    split
    · exact .request clcb (behind.resolve_left going.2) (Nat.not_lt.mp going.1) rfl free
    · exact .ended _

variable {floor payloadSize : Nat} {grouped : Bool} {waiting : ReadIncUuid128}

theorem nextStart_behind (above : handle = 0 ∨ floor ≤ handle) (word : handle < 65536) :
    nextStart handle = 0 ∨ floor < nextStart handle := by
  rw [nextStart]
  split
  · exact .inl rfl
  · by_cases last : handle + 1 = 65536
    · rw [last]
      exact .inl (Nat.mod_self _)
    · rw [Nat.mod_eq_of_lt (by omega)]
      omega

section

variable {clcb : DiscClcb} (free : clcb.readUuid128 = none) {floor : Nat}

include free

theorem gattActDiscovery_nextStart_resumes (above : handle = 0 ∨ floor ≤ handle)
    (word : handle < 65536) (ret : AttRet) :
    Resumes floor clcb.eHandle (gattActDiscovery { clcb with sHandle := nextStart handle } ret) :=
  @gattActDiscovery_resumes { clcb with sHandle := nextStart handle } free floor
    (nextStart_behind above word) ret

theorem gattProcessFindTypeValueRsp_resumes {data : List UInt8}
    (above : ∀ handle ∈ (completeRecords 4 data).map (toldHandle true), floor ≤ handle)
    (ret : AttRet) :
    Resumes floor clcb.eHandle (gattProcessFindTypeValueRsp clcb data ret).next := by
  rw [gattProcessFindTypeValueRsp]
  rw [List.getLast?_map, Option.map_map]
  cases last : (completeRecords 4 data).getLast? with
  | none => exact gattActDiscovery_nextStart_resumes free (.inl rfl) (by decide) ret
  | some record =>
    refine gattActDiscovery_nextStart_resumes free (.inr ?_) (streamToUint16_lt _) ret
    exact above _ (mem_map_of_mem (mem_of_getLast? last))

theorem gattProcessReadInfoRsp_resumes {format : UInt8} {pairs : List UInt8}
    (above : ∀ handle ∈ (completeRecords (infoUuidLen format + 2) pairs).map (toldHandle false),
      floor ≤ handle)
    (some : (completeRecords (infoUuidLen format + 2) pairs).map (toldHandle false) ≠ [])
    (stale : Nat) (ret : AttRet) :
    Resumes floor clcb.eHandle (gattProcessReadInfoRsp clcb (format :: pairs) stale ret).next := by
  rw [gattProcessReadInfoRsp]
  rw [List.getLast?_map, Option.map_map]
  cases last : (completeRecords (infoUuidLen format + 2) pairs).getLast? with
  | none => exact absurd (map_eq_nil_iff.mpr (List.getLast?_eq_none_iff.mp last)) some
  | some record =>
    refine gattActDiscovery_nextStart_resumes free (.inr ?_) (streamToUint16_lt _) ret
    exact above _ (mem_map_of_mem (mem_of_getLast? last))

end

section

variable (clcb)

def RecordStep.Tells (handle : Nat) : RecordStep → Prop
  | .ends _ => True
  | .stops last => last = handle
  | .reads reading => reading.eHandle = clcb.eHandle ∧
      ∃ result, reading.readUuid128 = some ⟨result, (handle + 1) % 65536⟩
  | .skips next => next = handle
  | .gives next _ => next = handle

theorem serviceRecord_tells (valueLen handle : Nat) (record : List UInt8) :
    (serviceRecord valueLen handle record).Tells clcb (toldHandle true record) := by
  rw [serviceRecord]
  split
  · trivial
  · split <;> rfl

theorem includeRecord_tells (valueLen handle : Nat) (record : List UInt8) :
    (includeRecord clcb valueLen handle record).Tells clcb handle := by
  rw [includeRecord]
  split
  · trivial
  · dsimp only
    split
    · trivial
    · split
      · rfl
      · split
        · exact ⟨rfl, _, rfl⟩
        · trivial

theorem charRecord_tells (valueLen handle : Nat) (record : List UInt8) :
    (charRecord clcb valueLen handle record).Tells clcb handle := by
  rw [charRecord]
  split
  · trivial
  · dsimp only
    split
    · trivial
    · split
      · trivial
      · split <;> rfl

end

theorem readByTypeRecord_tells (kind : grouped = true ↔ clcb.opSubtype = .srvcAll) (valueLen : Nat)
    (record : List UInt8) :
    (readByTypeRecord clcb grouped valueLen record).Tells clcb (toldHandle grouped record) := by
  rw [readByTypeRecord]
  split
  · trivial
  · split
    case isTrue service =>
      rw [service.2]
      exact serviceRecord_tells clcb valueLen _ record
    case isFalse other =>
      have single : grouped = false := by
        cases grouped with
        | false => rfl
        | true => exact absurd ⟨kind.mp rfl, rfl⟩ other
      rw [single]
      split
      · exact includeRecord_tells clcb valueLen _ record
      · exact charRecord_tells clcb valueLen _ record

theorem readByTypeRecords_resumes (free : clcb.readUuid128 = none)
    (kind : grouped = true ↔ clcb.opSubtype = .srvcAll) (valueLen : Nat) (ret : AttRet)
    {records : List (List UInt8)}
    (above : ∀ handle ∈ records.map (toldHandle grouped), floor ≤ handle)
    (start : handle = 0 ∨ floor ≤ handle) (word : handle < 65536) (results : List DiscRes) :
    Resumes floor clcb.eHandle
      (readByTypeRecords clcb grouped valueLen ret handle results records).next := by
  induction records generalizing handle results with
  | nil => exact gattActDiscovery_nextStart_resumes free start word ret
  | cons record rest ih =>
    rw [map_cons] at above
    obtain ⟨here, later⟩ := forall_mem_cons.mp above
    have told : toldHandle grouped record < 65536 := streamToUint16_lt _
    have tells := readByTypeRecord_tells kind valueLen record
    rw [readByTypeRecords]
    cases turn : readByTypeRecord clcb grouped valueLen record with
    | ends status => exact .ended status
    | stops last =>
      rw [turn] at tells
      cases tells
      exact gattActDiscovery_nextStart_resumes free (.inr here) told ret
    | reads reading =>
      rw [turn] at tells
      obtain ⟨same, result, awaits⟩ := tells
      dsimp only
      rw [gattActRead]
      split
      · refine .read reading _ awaits ?_ same
        by_cases last : toldHandle grouped record + 1 = 65536
        · rw [last]
          exact .inl (Nat.mod_self _)
        · rw [Nat.mod_eq_of_lt (by omega)]
          exact .inr (Nat.lt_succ_of_le here)
      · exact .ended _
    | skips next =>
      rw [turn] at tells
      cases tells
      exact ih later (.inr here) told results
    | gives next result =>
      rw [turn] at tells
      cases tells
      exact ih later (.inr here) told _

theorem gattProcDiscErrorRsp_ended (data : List UInt8) :
    ∃ status, (gattProcDiscErrorRsp data).next = .ended status := by
  rw [gattProcDiscErrorRsp]
  split <;> split <;> exact ⟨_, rfl⟩

theorem discReq_start (clcb : DiscClcb) : (discReq clcb).start = some clcb.sHandle := by
  rw [discReq]
  split <;> rfl

theorem discHandleServerRsp_resumes (free : clcb.readUuid128 = none)
    (keeps : rsp.opCode = gattCmdToRspCode (discReq clcb).opCode →
      (∀ handle ∈ toldHandles (discReq clcb) rsp.data, clcb.sHandle ≤ handle) ∧
        ((discReq clcb).opCode = reqFindInfo → toldHandles (discReq clcb) rsp.data ≠ []))
    (payloadSize : Nat) :
    Resumes clcb.sHandle clcb.eHandle
      (discHandleServerRsp payloadSize clcb (discReq clcb) rsp).next := by
  rw [discHandleServerRsp.eq_def]
  split
  · exact .dropped
  case isFalse answers =>
    split
    · exact .ended _
    · split
      · obtain ⟨status, ended⟩ := gattProcDiscErrorRsp_ended rsp.data
        rw [ended]
        exact .ended status
      case isFalse response =>
        have expected : rsp.opCode = gattCmdToRspCode (discReq clcb).opCode := by
          by_contra other
          exact answers ⟨fun same => other same.symm, response⟩
        obtain ⟨above, some⟩ := keeps expected
        rw [discReq] at above some ⊢
        by_cases byUuid : clcb.opSubtype = .srvcByUuid
        · rw [if_pos byUuid] at above ⊢
          exact gattProcessFindTypeValueRsp_resumes free above rsp.ret
        · rw [if_neg byUuid] at above some ⊢
          rw [toldHandles] at above some
          dsimp only at above some ⊢
          by_cases info : clcb.opSubtype.attOpcode = reqFindInfo
          · rw [if_pos info] at above some ⊢
            cases bytes : rsp.data with
            | nil => exact .ended _
            | cons format pairs =>
              rw [bytes] at above some
              exact gattProcessReadInfoRsp_resumes free above (some info) rsp.stale rsp.ret
          · rw [if_neg info] at above ⊢
            have kind : decide (clcb.opSubtype.attOpcode = reqReadByGrpType) = true ↔
                clcb.opSubtype = .srvcAll := by
              rw [decide_eq_true_eq]
              cases clcb.opSubtype <;> decide
            cases bytes : rsp.data with
            | nil => exact .ended _
            | cons pairLen pairs =>
              rw [bytes] at above
              rw [gattProcessReadByTypeRsp]
              split
              · exact .ended _
              · exact readByTypeRecords_resumes free kind _ rsp.ret above (.inl rfl) (by decide) []

theorem discHandleServerRsp_read (awaits : clcb.readUuid128 = some waiting) (handle : Nat)
    (rsp : DiscRsp) (payloadSize : Nat) :
    (∃ status, (discHandleServerRsp payloadSize clcb (.read handle) rsp).next = .ended status) ∨
      (discHandleServerRsp payloadSize clcb (.read handle) rsp).next = .dropped ∨
      (discHandleServerRsp payloadSize clcb (.read handle) rsp).next = gattActDiscovery
          { clcb with sHandle := waiting.nextDiscStartHdl, readUuid128 := none } rsp.ret := by
  rw [discHandleServerRsp]
  split
  · exact .inr (.inl rfl)
  · split
    · exact .inl ⟨_, rfl⟩
    · split
      · exact .inl (gattProcDiscErrorRsp_ended rsp.data)
      · rw [gattProcessReadRsp, awaits]
        dsimp only
        split
        · exact .inr (.inr rfl)
        · exact .inl ⟨_, rfl⟩

/-! ## Discoveries end -/

inductive Pending (first eHandle : Nat) (run : DiscRun) : DiscClcb → DiscReq → Prop where
  | range (clcb : DiscClcb) (free : clcb.readUuid128 = none) (same : clcb.eHandle = eHandle)
      (inside : clcb.sHandle ≤ eHandle) (last : ∀ start ∈ run.starts, start ≤ clcb.sHandle)
      (few : run.requests.length + 2 * first ≤ 2 * clcb.sHandle + 1) :
      Pending first eHandle run clcb (discReq clcb)
  | read (clcb : DiscClcb) (waiting : ReadIncUuid128) (awaits : clcb.readUuid128 = some waiting)
      (same : clcb.eHandle = eHandle)
      (behind : waiting.nextDiscStartHdl = 0 ∨
        ((∀ start ∈ run.starts, start < waiting.nextDiscStartHdl) ∧
          run.requests.length + 2 * first ≤ 2 * waiting.nextDiscStartHdl)) :
      Pending first eHandle run clcb (.read clcb.sHandle)

structure Ascends (first eHandle : Nat) (run : DiscRun) : Prop where
  ascending : run.starts.Pairwise (· < ·)
  few : run.requests.length ≤ 2 * (eHandle + 1 - first)
  pending : ∀ clcb req, run.next = .request clcb req → Pending first eHandle run clcb req

theorem starts_append (next : DiscNext) (requests : List DiscReq) (more : List DiscReq) :
    DiscRun.starts ⟨next, requests ++ more⟩ =
      DiscRun.starts ⟨next, requests⟩ ++ more.filterMap DiscReq.start :=
  filterMap_append

section

variable {first eHandle : Nat} {run : DiscRun} (ascends : Ascends first eHandle run)

include ascends

theorem Ascends.over {next : DiscNext} (none : next.requests = [])
    (last : ∀ clcb req, next ≠ .request clcb req) :
    Ascends first eHandle ⟨next, run.requests ++ next.requests⟩ := by
  rw [none, append_nil]
  exact ⟨ascends.ascending, ascends.few, fun clcb req same => absurd same (last clcb req)⟩

theorem Ascends.request {clcb : DiscClcb} (free : clcb.readUuid128 = none)
    (same : clcb.eHandle = eHandle) (inside : clcb.sHandle ≤ eHandle)
    (behind : ∀ start ∈ run.starts, start < clcb.sHandle)
    (few : run.requests.length + 1 + 2 * first ≤ 2 * clcb.sHandle + 1) :
    Ascends first eHandle ⟨.request clcb (discReq clcb), run.requests ++ [discReq clcb]⟩ := by
  have starts : DiscRun.starts ⟨.request clcb (discReq clcb), run.requests ++ [discReq clcb]⟩ =
      run.starts ++ [clcb.sHandle] := by
    rw [starts_append, filterMap_cons, discReq_start]
    rfl
  constructor
  case ascending =>
    rw [starts]
    refine pairwise_append.mpr ⟨ascends.ascending, pairwise_singleton .., ?_⟩
    intro start listed last equal
    rw [mem_singleton.mp equal]
    exact behind start listed
  case few =>
    rw [length_append, length_singleton]
    omega
  case pending =>
    intro other req equal
    cases equal
    refine .range clcb free same inside ?_ ?_
    · rw [starts]
      intro start listed
      rcases mem_append.mp listed with old | new
      · exact Nat.le_of_lt (behind start old)
      · rw [mem_singleton.mp new]
    · rw [length_append, length_singleton]
      exact few

theorem Ascends.read (awaits : clcb.readUuid128 = some waiting) (same : clcb.eHandle = eHandle)
    (behind : waiting.nextDiscStartHdl = 0 ∨
      ((∀ start ∈ run.starts, start < waiting.nextDiscStartHdl) ∧
        run.requests.length + 1 + 2 * first ≤ 2 * waiting.nextDiscStartHdl))
    (few : run.requests.length + 1 ≤ 2 * (eHandle + 1 - first)) :
    Ascends first eHandle
      ⟨.request clcb (.read clcb.sHandle), run.requests ++ [.read clcb.sHandle]⟩ := by
  have starts : DiscRun.starts
      ⟨.request clcb (.read clcb.sHandle), run.requests ++ [.read clcb.sHandle]⟩ = run.starts := by
    rw [starts_append]
    exact append_nil _
  constructor
  case ascending =>
    rw [starts]
    exact ascends.ascending
  case few =>
    rw [length_append, length_singleton]
    exact few
  case pending =>
    intro other req equal
    cases equal
    refine .read clcb waiting awaits same ?_
    rw [starts, length_append, length_singleton]
    exact behind

theorem Ascends.step (keeps : KeepsToRange run rsp) {after : DiscRun}
    (taken : discStep payloadSize run rsp = some after) :
    Ascends first eHandle after := by
  rw [discStep] at taken
  split at taken
  case h_2 => cases taken
  case h_3 => cases taken
  case h_1 clcb req waits =>
    cases taken
    cases ascends.pending clcb req waits with
    | range free same inside last few =>
      have resumes := discHandleServerRsp_resumes free
        (keeps clcb _ clcb.sHandle waits (discReq_start clcb)) payloadSize
      revert resumes
      generalize (discHandleServerRsp payloadSize clcb (discReq clcb) rsp).next = next
      intro resumes
      cases resumes with
      | ended | dropped => exact ascends.over rfl fun _ _ => DiscNext.noConfusion
      | request following behind within equal idle =>
        refine ascends.request idle (equal.trans same) ?_ ?_ ?_
        · rw [← same, ← equal]
          exact within
        · exact fun start listed => Nat.lt_of_le_of_lt (last start listed) behind
        · omega
      | read following waiting awaits behind equal =>
        refine ascends.read awaits (equal.trans same) (behind.imp_right fun less => ⟨?_, ?_⟩) ?_
        · exact fun start listed => Nat.lt_of_le_of_lt (last start listed) less
        · omega
        · omega
    | read waiting awaits same behind =>
      rcases discHandleServerRsp_read awaits clcb.sHandle rsp payloadSize with
        ⟨status, ended⟩ | dropped | resumed
      · rw [ended]
        exact ascends.over rfl fun _ _ => DiscNext.noConfusion
      · rw [dropped]
        exact ascends.over rfl fun _ _ => DiscNext.noConfusion
      · rw [resumed, gattActDiscovery]
        split
        · exact ascends.over rfl fun _ _ => DiscNext.noConfusion
        case isFalse going =>
          rw [not_or] at going
          obtain ⟨above, few⟩ := behind.resolve_left going.2
          split
          · refine ascends.request rfl same (same ▸ Nat.not_lt.mp going.1) above ?_
            dsimp only
            omega
          · exact ascends.over rfl fun _ _ => DiscNext.noConfusion

end

theorem gattcDiscover_ascends (discType : DiscType) (startHandle endHandle : Nat) (uuid : Uuid)
    (ret : AttRet) :
    Ascends startHandle endHandle (gattcDiscover discType startHandle endHandle uuid ret) := by
  have none : ∀ status, Ascends startHandle endHandle ⟨.ended status, []⟩ :=
    fun status => ⟨.nil, Nat.zero_le _, fun _ _ => DiscNext.noConfusion⟩
  rw [gattcDiscover, gattActDiscovery]
  split
  · exact none _
  case isFalse going =>
    split
    · have inside := Nat.not_lt.mp (not_or.mp going).1
      exact @Ascends.request _ _ ⟨.dropped, []⟩
        ⟨.nil, Nat.zero_le _, fun _ _ => DiscNext.noConfusion⟩
        ⟨discType, startHandle, endHandle, uuid, .none⟩ rfl rfl inside (forall_mem_nil _)
        (by simp only [length_nil]; omega)
    · exact none _

theorem responses_le_requests {responses : List DiscRsp} {start reached : DiscRun}
    (ran : run (discStep payloadSize) start responses = some reached) :
    responses.length + start.requests.length ≤ reached.requests.length + 1 := by
  induction responses generalizing start with
  | nil =>
    cases ran
    rw [length_nil]
    omega
  | cons rsp rest ih =>
    obtain ⟨after, taken, later⟩ := Option.bind_eq_some_iff.mp ran
    have more := ih later
    rw [discStep] at taken
    split at taken
    case h_2 => cases taken
    case h_3 => cases taken
    case h_1 clcb req waits =>
      cases taken
      rw [length_append] at more
      rw [length_cons]
      cases rest with
      | nil =>
        cases later
        rw [length_nil, length_append]
        omega
      | cons second rest =>
        -- a second response is taken, so the first one was followed by a request
        obtain ⟨_, again, -⟩ := Option.bind_eq_some_iff.mp later
        rw [discStep] at again
        split at again
        case h_2 => cases again
        case h_3 => cases again
        case h_1 following next waits =>
          dsimp only at waits
          rw [waits] at more
          change _ + (_ + 1) ≤ _ at more
          omega

/--
With a server that keeps to the range, the requests of a discovery start at higher and higher
handles, there are at most two of them for each handle of the range, and no more responses
are taken.
-/
theorem discovery_ascends (payloadSize : Nat) (discType : DiscType)
    (startHandle endHandle : Nat) (uuid : Uuid) (ret : AttRet) {responses : List DiscRsp}
    {reached : DiscRun}
    (keeps : Along (discStep payloadSize) KeepsToRange
      (gattcDiscover discType startHandle endHandle uuid ret) responses)
    (ran : run (discStep payloadSize)
      (gattcDiscover discType startHandle endHandle uuid ret) responses = some reached) :
    reached.starts.Pairwise (· < ·) ∧ reached.requests.length ≤ 2 * (endHandle + 1 - startHandle) ∧
      responses.length ≤ 2 * (endHandle + 1 - startHandle) := by
  have ascends := invariant_along
    (fun _ _ _ (kept : Ascends startHandle endHandle _) here taken => kept.step here taken)
    (gattcDiscover_ascends discType startHandle endHandle uuid ret) keeps ran
  refine ⟨ascends.ascending, ascends.few, ?_⟩
  cases responses with
  | nil => exact Nat.zero_le _
  | cons rsp rest =>
    have few := ascends.few
    have more := responses_le_requests ran
    obtain ⟨_, taken, -⟩ := Option.bind_eq_some_iff.mp ran
    rw [discStep] at taken
    split at taken
    case h_2 => cases taken
    case h_3 => cases taken
    case h_1 clcb req waits =>
      rw [gattcDiscover] at waits more
      dsimp only at waits more
      rw [waits] at more
      change _ + 1 ≤ _ at more
      omega

/-- One service, and an error that tells the end. -/
theorem discovery_ascends_battery :
    run (discStep 23) (gattcDiscover .srvcAll 1 9 emptyUuid .success)
        [⟨0x11, [6, 0x01, 0x00, 0x03, 0x00, 0x0F, 0x18], 0, .success⟩,
          ⟨rspError, [0x10, 0x04, 0x00, 0x0A], 0, .success⟩] =
        some ⟨.ended 0, [.browse 0x10 1 9 0x2800, .browse 0x10 4 9 0x2800]⟩ ∧
      [1, 4].Pairwise (· < ·) ∧ 2 ≤ 2 * (9 + 1 - 1) ∧ 2 ≤ 2 * (9 + 1 - 1) := by
  have keeps : Along (discStep 23) KeepsToRange (gattcDiscover .srvcAll 1 9 emptyUuid .success)
      [⟨0x11, [6, 0x01, 0x00, 0x03, 0x00, 0x0F, 0x18], 0, .success⟩,
        ⟨rspError, [0x10, 0x04, 0x00, 0x0A], 0, .success⟩] := by
    refine ⟨?_, keepsToRange_error _ rfl, trivial⟩
    intro clcb req start waits begins _
    cases waits
    cases begins
    decide
  have ran : run (discStep 23) (gattcDiscover .srvcAll 1 9 emptyUuid .success)
      [⟨0x11, [6, 0x01, 0x00, 0x03, 0x00, 0x0F, 0x18], 0, .success⟩,
        ⟨rspError, [0x10, 0x04, 0x00, 0x0A], 0, .success⟩] =
      some ⟨.ended 0, [.browse 0x10 1 9 0x2800, .browse 0x10 4 9 0x2800]⟩ := by
    decide +kernel
  exact ⟨ran, discovery_ascends 23 .srvcAll 1 9 emptyUuid .success keeps ran⟩

/-- A server that tells the same service again and again: the requests go on with one start. -/
theorem discovery_does_not_advance :
    (run (discStep 23) (gattcDiscover .srvcAll 1 0xFFFF emptyUuid .success)
        [⟨0x11, [6, 0x01, 0x00, 0x01, 0x00, 0x0F, 0x18], 0, .success⟩,
          ⟨0x11, [6, 0x01, 0x00, 0x01, 0x00, 0x0F, 0x18], 0, .success⟩,
          ⟨0x11, [6, 0x01, 0x00, 0x01, 0x00, 0x0F, 0x18], 0, .success⟩]).map DiscRun.starts =
      some [1, 2, 2, 2] := by
  decide

end BluetoothFormal.Gatt.Legacy
