import BluetoothFormal.Gatt.Legacy.FindInfo
import BluetoothFormal.Gatt.Legacy.PrimaryServices

/-!
# Discovery of all primary services of the legacy GATT server

A client repeats Read By Group Type behind the last end handle it has received.  A response
holds services whose UUIDs have one length; for a UUID of zeros no bytes are written, though
they are counted.
-/

namespace BluetoothFormal.Gatt.Legacy

open L2cap Foundation.Gather List SrvListInfo SrvListElem

/-! ## The client -/

def gattUpdateLastSrvInfo (services : List SrvListElem) : Nat :=
  services.foldl (fun _ el => el.sHdl) 0

/-- A service of a response: its handles and its UUID. -/
def parseGroup (piece : List UInt8) : Nat × Nat × Uuid :=
  (streamToUint16 piece, streamToUint16 (piece.drop 2),
    if piece.length = 6 then from16Bit (UInt16.ofNat (streamToUint16 (piece.drop 4)))
    else from128BitLE (piece.drop 4))

def parseGroupRsp (pdu : List UInt8) : List (Nat × Nat × Uuid) :=
  (cut (pdu.getD 1 0).toNat pdu.length (pdu.drop 2)).map parseGroup

section

variable (info : SrvListInfo)

/--
A request for the primary services from a handle on.  It ends with an error; otherwise the
client goes on behind the last end handle, a 16-bit number.
-/
def readGroupFrom (payloadSize : UInt16) (_turn sHdl : Nat) :
    Option (List (Nat × Nat × Uuid) × Option Nat) :=
  (gattsProcessPrimaryServiceReq info (gattUpdateLastSrvInfo info.services) payloadSize
    reqReadByGrpType (uint16ToStream sHdl ++ (uint16ToStream 0xFFFF ++ uint16ToStream 0x2800))).bind
    fun pdus =>
      let pdu := pdus.headD []
      if pdu.head? = some rspError then some ([], none)
      else (parseGroupRsp pdu).getLast?.map fun last =>
        (parseGroupRsp pdu, some ((last.2.1 + 1) % 65536))

/-! ## What there is to find -/

section

variable (el : SrvListElem)

def SrvListElem.serviceUuid : Uuid :=
  (gattsGetServiceUuid el.db).getD emptyUuid

theorem SrvListElem.gattsGetServiceUuid_eq : gattsGetServiceUuid el.db = some el.serviceUuid := by
  obtain ⟨first, rest, listed, declares, _⟩ := el.declaration
  have built := el.formed.built first (listed ▸ mem_cons_self)
  have value : ∃ uuid, first.value = some (.uuid uuid) := by
    cases built with
    | service uuid => exact ⟨uuid, rfl⟩
    | included => exact absurd declares (show ¬IsServiceType includeServiceUuid by decide)
    | declaration => exact absurd declares (show ¬IsServiceType charDeclareUuid by decide)
    | extended => exact absurd declares (show ¬IsServiceType charExtPropUuid by decide)
    | characteristic uuid _ _ own | descriptor uuid _ _ own =>
      exact absurd declares (inner_of_isGattAttrType own)
  obtain ⟨uuid, value⟩ := value
  have found : gattsGetServiceUuid el.db = some uuid := by
    rw [gattsGetServiceUuid, listed, List.head?_cons, Option.bind_some, value]
  rw [serviceUuid, found]
  rfl

theorem SrvListElem.sHdl_le : el.sHdl ≤ el.eHdl := by
  obtain ⟨first, rest, listed, _, -⟩ := el.declaration
  have range := mem_attrList (listed ▸ mem_cons_self : first ∈ el.db.attrList)
  omega

def SrvListInfo.primaries : List SrvListElem :=
  info.services.filter isPrimary

/-- The end of a service; the one with the highest handle reaches to the last handle. -/
def SrvListInfo.groupEnd : Nat :=
  if ∀ other ∈ info.services, other.sHdl ≤ el.sHdl then 0xFFFF else el.eHdl

/-- A service as a client is to find it. -/
def SrvListInfo.group : Nat × Nat × Uuid :=
  (el.sHdl, info.groupEnd el, el.serviceUuid)

end

/-- The primary services from a handle on. -/
def SrvListInfo.primariesFrom (sHdl : Nat) : List SrvListElem :=
  info.primaries.filter fun el => sHdl ≤ el.sHdl

end

theorem gattUpdateLastSrvInfo_append (services : List SrvListElem) (last : SrvListElem) :
    gattUpdateLastSrvInfo (services ++ [last]) = last.sHdl := by
  rw [gattUpdateLastSrvInfo, foldl_append]
  rfl

variable {el : SrvListElem} {info : SrvListInfo} {els : List SrvListElem} {width : Nat}

theorem lastService_iff (listed : el ∈ info.services) :
    (gattUpdateLastSrvInfo info.services ≠ 0 ∧ gattUpdateLastSrvInfo info.services = el.sHdl) ↔
      ∀ other ∈ info.services, other.sHdl ≤ el.sHdl := by
  obtain ⟨front, last, shape⟩ := (eq_nil_or_concat' info.services).resolve_left
    (ne_nil_of_mem listed)
  have ascending := info.ascending
  rw [shape, pairwise_append] at ascending
  have below : ∀ other ∈ info.services, other.sHdl ≤ last.sHdl := by
    intro other member
    rw [shape] at member
    rcases mem_append.mp member with earlier | final
    · have before := ascending.2.2 other earlier last mem_cons_self
      have ordered := other.sHdl_le
      omega
    · rw [mem_singleton.mp final]
  have final : last ∈ info.services := shape ▸ mem_append_right _ mem_cons_self
  have same : gattUpdateLastSrvInfo info.services = last.sHdl := by
    rw [shape]
    exact gattUpdateLastSrvInfo_append front last
  rw [same]
  constructor
  · rintro ⟨_, equal⟩
    exact equal ▸ below
  · intro highest
    exact ⟨Nat.pos_iff_ne_zero.mp last.positive, le_antisymm (highest last final) (below el listed)⟩

/-! ## The response -/

def SrvListElem.groupWidth (el : SrvListElem) : Nat :=
  4 + gattBuildUuidToStreamLen el.serviceUuid

/-- The handles that the entry of a service begins with. -/
def groupHandles (info : SrvListInfo) (el : SrvListElem) : List UInt8 :=
  uint16ToStream el.sHdl ++ uint16ToStream (info.groupEnd el)

/-- The bytes that are written for a service. -/
def groupEntry (info : SrvListInfo) (el : SrvListElem) : List UInt8 :=
  groupHandles info el ++ gattBuildUuidToStream el.serviceUuid

theorem primaryEntry_eq (listed : el ∈ info.services) :
    primaryEntry (gattUpdateLastSrvInfo info.services) reqReadByGrpType el el.serviceUuid =
      groupEntry info el := by
  rw [primaryEntry, if_pos rfl, if_congr (lastService_iff listed) rfl rfl]
  rfl

theorem length_groupEntry_le (info : SrvListInfo) (el : SrvListElem) :
    (groupEntry info el).length ≤ el.groupWidth := by
  have uuid := (length_gattBuildUuidToStream_le el.serviceUuid).1
  rw [groupEntry, groupHandles, groupWidth, length_append, length_append,
    length_uint16ToStream, length_uint16ToStream]
  omega

theorem groupWidth_le (el : SrvListElem) : 4 < el.groupWidth ∧ el.groupWidth ≤ 20 := by
  obtain ⟨_, positive, short⟩ := length_gattBuildUuidToStream_le el.serviceUuid
  rw [groupWidth]
  omega

/-- The services that are added to a response of the given length. -/
def fitting (payloadSize width : Nat) : Nat → List SrvListElem → List SrvListElem
  | _, [] => []
  | len, el :: rest =>
    if len + width > payloadSize ∨ el.groupWidth ≠ width then []
    else el :: fitting payloadSize width (len + width) rest

theorem fitting_isPrefix (payloadSize width len : Nat) (els : List SrvListElem) :
    fitting payloadSize width len els <+: els := by
  induction els generalizing len with
  | nil => exact nil_prefix
  | cons el rest ih =>
    rw [fitting]
    split
    · exact nil_prefix
    · exact cons_prefix_cons.mpr ⟨rfl, ih _⟩

theorem groupWidth_of_mem_fitting {payloadSize len : Nat}
    (member : el ∈ fitting payloadSize width len els) :
    el.groupWidth = width := by
  induction els generalizing len with
  | nil => cases member
  | cons first rest ih =>
    rw [fitting] at member
    split at member
    · cases member
    case isFalse fits =>
      rcases mem_cons.mp member with rfl | later
      · exact not_not.mp fun other => fits (.inr other)
      · exact ih later

section Loop

variable {payloadSize sHdl : Nat} {value : Uuid}

theorem primaryServiceLoop_filter (lastServiceHandle : Nat) (services : List SrvListElem)
    (status : GattStatus) (msg : Msg) (len : Nat) :
    primaryServiceLoop lastServiceHandle payloadSize reqReadByGrpType sHdl 0xFFFF value services
        status msg len =
      primaryServiceLoop lastServiceHandle payloadSize reqReadByGrpType sHdl 0xFFFF value
        (services.filter fun el => InPrimaryRange sHdl 0xFFFF el) status msg len := by
  induction services generalizing status msg len with
  | nil => rfl
  | cons el rest ih =>
    by_cases inRange : InPrimaryRange sHdl 0xFFFF el
    · rw [filter_cons_of_pos (by simpa using inRange), primaryServiceLoop, primaryServiceLoop]
      simp only [ih]
    · rw [filter_cons_of_neg (by simpa using inRange), primaryServiceLoop, if_pos inRange, ih]

theorem primaryServiceLoop_fitting
    (listed : ∀ el ∈ els, el ∈ info.services ∧ InPrimaryRange sHdl 0xFFFF el) {status : GattStatus}
    {msg : Msg} {len : Nat} (opened : msg.offset ≠ 0) (written : msg.data.length ≤ len)
    (size : headroom + payloadSize ≤ msg.size) :
    primaryServiceLoop (gattUpdateLastSrvInfo info.services) payloadSize reqReadByGrpType sHdl
        0xFFFF value els status msg len =
      some (if fitting payloadSize msg.offset len els = [] then status else .success,
        { msg with data := msg.data ++
            (fitting payloadSize msg.offset len els).flatMap (groupEntry info) },
        len + (fitting payloadSize msg.offset len els).length * msg.offset) := by
  induction els generalizing status msg len with
  | nil => simp [primaryServiceLoop, fitting]
  | cons el rest ih =>
    have width : primaryHandleLen reqReadByGrpType el.serviceUuid = el.groupWidth := if_pos rfl
    have stays : openPrimaryRsp reqReadByGrpType el.groupWidth msg len = some (msg, len) :=
      if_neg opened
    rw [primaryServiceLoop, if_neg (not_not.mpr (listed el mem_cons_self).2),
      el.gattsGetServiceUuid_eq]
    dsimp only
    rw [width, stays, Option.bind_some, fitting]
    dsimp only
    split
    · simp
    case isFalse fits =>
      have short := length_groupEntry_le info el
      have room : msg.HasRoom el.groupWidth := by
        rw [Msg.HasRoom]
        omega
      have longer : (msg.data ++ groupEntry info el).length ≤ len + msg.offset := by
        rw [length_append]
        omega
      rw [if_neg (fun both => absurd both.1 (by decide)),
        primaryEntry_eq (listed el mem_cons_self).1, (room.write short).1,
        Option.bind_some, @ih (fun other later => listed other (mem_cons_of_mem _ later))
          .success { msg with data := msg.data ++ groupEntry info el }
          (len + msg.offset) opened longer size]
      simp [Nat.add_mul, Nat.add_assoc, Nat.add_comm]

end Loop

/-! ## The answer to a request -/

/-- The services of the response to a request. -/
def SrvListInfo.response (info : SrvListInfo) (payloadSize : UInt16) (sHdl : Nat) :
    List SrvListElem :=
  match info.primariesFrom sHdl with
  | [] => []
  | el :: rest => fitting payloadSize.toNat el.groupWidth 2 (el :: rest)

/-- The bytes of a response. -/
def groupRsp (info : SrvListInfo) (width : Nat) (els : List SrvListElem) : List UInt8 :=
  zeroFilled (2 + els.length * width)
    ([reqReadByGrpType + 1, UInt8.ofNat width] ++ els.flatMap (groupEntry info))

section Answer

variable {payloadSize : UInt16} {sHdl : Nat}

theorem filter_inPrimaryRange (info : SrvListInfo) (sHdl : Nat) :
    (info.services.filter fun el => InPrimaryRange sHdl 0xFFFF el) = info.primariesFrom sHdl := by
  rw [primariesFrom, primaries, filter_filter]
  refine filter_congr fun el _ => ?_
  have ordered := el.sHdl_le
  have upper := el.eHdl_lt
  rw [Bool.eq_iff_iff, decide_eq_true_iff, Bool.and_eq_true, decide_eq_true_iff, InPrimaryRange]
  simp only [not_or, Bool.not_eq_false]
  constructor
  · rintro ⟨above, _, primary⟩
    exact ⟨by omega, primary⟩
  · rintro ⟨above, primary⟩
    exact ⟨by omega, by omega, primary⟩

theorem inPrimaryRange_of_mem {el : SrvListElem} (member : el ∈ info.primariesFrom sHdl) :
    el ∈ info.services ∧ InPrimaryRange sHdl 0xFFFF el := by
  rw [← filter_inPrimaryRange] at member
  obtain ⟨listed, inRange⟩ := mem_filter.mp member
  exact ⟨listed, of_decide_eq_true inRange⟩

theorem gattBuildPrimaryServiceRsp_none (lastServiceHandle : Nat) (value : Uuid)
    (none : info.primariesFrom sHdl = []) :
    gattBuildPrimaryServiceRsp info lastServiceHandle payloadSize reqReadByGrpType sHdl 0xFFFF
      value = some (.notFound, []) := by
  rw [gattBuildPrimaryServiceRsp, primaryServiceLoop_filter, filter_inPrimaryRange, none]
  rfl

theorem gattBuildPrimaryServiceRsp_eq (value : Uuid) (large : 23 ≤ payloadSize.toNat)
    (fits : headroom + payloadSize.toNat < 65536) {rest : List SrvListElem}
    (some : info.primariesFrom sHdl = el :: rest) :
    gattBuildPrimaryServiceRsp info (gattUpdateLastSrvInfo info.services) payloadSize
        reqReadByGrpType sHdl 0xFFFF value = Option.some (.success,
        groupRsp info el.groupWidth (info.response payloadSize sHdl)) := by
  obtain ⟨positive, short⟩ := groupWidth_le el
  have listed : ∀ other ∈ el :: rest, other ∈ info.services ∧ InPrimaryRange sHdl 0xFFFF other :=
    fun other member => inPrimaryRange_of_mem (some ▸ member)
  have written := (@Msg.HasRoom.write (Msg.alloc (headroom + payloadSize.toNat)) payloadSize.toNat
    le_rfl [reqReadByGrpType + 1, UInt8.ofNat el.groupWidth] (by simp; omega)).1
  have first : fitting payloadSize.toNat el.groupWidth 2 (el :: rest) =
      el :: fitting payloadSize.toNat el.groupWidth (2 + el.groupWidth) rest :=
    if_neg (by omega)
  -- the first service opens the response; the loop then runs as on an open one
  have opened (last : Nat) : primaryServiceLoop last payloadSize.toNat reqReadByGrpType sHdl
        0xFFFF value (el :: rest) .notFound (Msg.alloc (headroom + payloadSize.toNat)) 0 =
      primaryServiceLoop last payloadSize.toNat reqReadByGrpType sHdl 0xFFFF value
        (el :: rest) .notFound ⟨headroom + payloadSize.toNat, el.groupWidth,
          [reqReadByGrpType + 1, UInt8.ofNat el.groupWidth]⟩ 2 := by
    have width : primaryHandleLen reqReadByGrpType el.serviceUuid = el.groupWidth := if_pos rfl
    have nonzero : ¬el.groupWidth = 0 := by omega
    have here := not_not.mpr (listed el mem_cons_self).2
    rw [primaryServiceLoop, primaryServiceLoop, if_neg here, if_neg here, el.gattsGetServiceUuid_eq]
    simp only [width, openPrimaryRsp, Msg.alloc, if_true, nonzero, if_false] at written ⊢
    rw [written]
    rfl
  rw [gattBuildPrimaryServiceRsp, primaryServiceLoop_filter, filter_inPrimaryRange, some,
    Nat.mod_eq_of_lt fits, opened, primaryServiceLoop_fitting listed (by dsimp only; omega)
      (by simp) le_rfl]
  rw [first, if_neg (cons_ne_nil _ _), response, some]
  dsimp only
  rw [first]
  rfl

theorem gattBuildPrimaryServiceRsp_wraps (lastServiceHandle : Nat) (value : Uuid)
    (wraps : ¬headroom + payloadSize.toNat < 65536) (some : info.primariesFrom sHdl ≠ []) :
    gattBuildPrimaryServiceRsp info lastServiceHandle payloadSize reqReadByGrpType sHdl 0xFFFF
      value = none := by
  obtain ⟨el, rest, shape⟩ := exists_cons_of_ne_nil some
  have inRange := (@inPrimaryRange_of_mem info sHdl el (shape ▸ mem_cons_self)).2
  rw [gattBuildPrimaryServiceRsp, primaryServiceLoop_filter, filter_inPrimaryRange, shape,
    primaryServiceLoop, if_neg (not_not.mpr inRange), el.gattsGetServiceUuid_eq]
  dsimp only
  have unopened : (Msg.alloc ((headroom + payloadSize.toNat) % 65536)).offset = 0 := rfl
  rw [openPrimaryRsp, if_pos unopened, if_pos rfl, Msg.write_alloc_wraps payloadSize.toNat_lt wraps]
  rfl

end Answer

/-! ## Reading a response -/

def fullEntry (info : SrvListInfo) (el : SrvListElem) : List UInt8 :=
  groupHandles info el ++ uuidBytes el.serviceUuid

theorem length_fullEntry (info : SrvListInfo) (el : SrvListElem) :
    (fullEntry info el).length = el.groupWidth := by
  rw [fullEntry, length_append, length_uuidBytes]
  rfl

theorem groupEntry_of_ne (filled : el.serviceUuid ≠ emptyUuid) :
    groupEntry info el = fullEntry info el := by
  rw [groupEntry, fullEntry, gattBuildUuidToStream_of_ne filled]

theorem flatMap_groupEntry (filled : ∀ el ∈ els, el.serviceUuid ≠ emptyUuid) :
    els.flatMap (groupEntry info) = (els.map (fullEntry info)).flatten := by
  rw [flatMap_def]
  exact congrArg List.flatten (map_congr_left fun el member =>
    groupEntry_of_ne (filled el member))

section

variable (info)

theorem length_of_mem_fullEntries (even : ∀ el ∈ els, el.groupWidth = width) :
    ∀ entry ∈ els.map (fullEntry info), entry.length = width := by
  intro entry member
  obtain ⟨el, listed, rfl⟩ := mem_map.mp member
  rw [length_fullEntry, even el listed]

theorem length_fullEntries {width : Nat} {els : List SrvListElem}
    (even : ∀ el ∈ els, el.groupWidth = width) :
    (els.map (fullEntry info)).flatten.length = els.length * width := by
  rw [length_flatten, map_congr_left (length_of_mem_fullEntries info even),
    map_const', sum_replicate_nat, length_map]

theorem groupEntry_filled (el : SrvListElem) :
    groupEntry info el ++ List.replicate (el.groupWidth - (groupEntry info el).length) 0 =
      fullEntry info el := by
  by_cases filled : el.serviceUuid = emptyUuid
  · rw [groupEntry, fullEntry, groupWidth, filled]
    rfl
  · rw [groupEntry_of_ne filled, length_fullEntry, Nat.sub_self, replicate_zero, append_nil]

theorem parseGroup_fullEntry (el : SrvListElem) :
    parseGroup (fullEntry info el) = info.group el := by
  have ordered := el.sHdl_le
  have upper := el.eHdl_lt
  have ends : info.groupEnd el < 65536 := by
    rw [SrvListInfo.groupEnd]
    split <;> omega
  have second (rest : List UInt8) : streamToUint16 ((groupHandles info el ++ rest).drop 2) =
      info.groupEnd el := streamToUint16_stream ends rest
  have third (rest : List UInt8) : (groupHandles info el ++ rest).drop 4 = rest := rfl
  have first (rest : List UInt8) : streamToUint16 (groupHandles info el ++ rest) = el.sHdl :=
    streamToUint16_stream (by omega) (uint16ToStream (info.groupEnd el) ++ rest)
  rw [parseGroup, length_fullEntry, fullEntry, first, second, third, group,
    groupWidth, uuidBytes, gattBuildUuidToStreamLen]
  have long := from128BitLE_to128BitLE el.serviceUuid []
  rw [append_nil] at long
  rcases shortestSize_cases el.serviceUuid with ⟨short, size⟩ | ⟨_, size | size⟩
  · have read := streamToUint16_stream (as16Bit el.serviceUuid).toNat_lt []
    rw [append_nil] at read
    simp [size, read, from16Bit_as16Bit short]
  · simp [size, long]
  · simp [size, long]

theorem parseGroupRsp_eq (small : width < 256) (body : List UInt8) (opCode : UInt8) :
    parseGroupRsp (opCode :: UInt8.ofNat width :: body) =
      (cut width (body.length + 2) body).map parseGroup := by
  have read : (UInt8.ofNat width).toNat = width := by
    rw [UInt8.toNat_ofNat', Nat.mod_eq_of_lt small]
  show (cut (UInt8.ofNat width).toNat (body.length + 2) body).map parseGroup = _
  rw [read]

theorem groupRsp_eq {front : List SrvListElem} {last : SrvListElem}
    (even : ∀ el ∈ front ++ [last], el.groupWidth = width)
    (filled : ∀ el ∈ front, el.serviceUuid ≠ emptyUuid) :
    groupRsp info width (front ++ [last]) = (reqReadByGrpType + 1) ::
      UInt8.ofNat width :: ((front ++ [last]).map (fullEntry info)).flatten := by
  have length := @length_fullEntries info width front fun el member =>
    even el (mem_append_left _ member)
  have final := groupEntry_filled info last
  rw [even last (by simp)] at final
  rw [groupRsp, zeroFilled, flatMap_append, flatMap_groupEntry filled,
    flatMap_singleton, map_append,
    flatten_append, map_singleton, flatten_singleton, ← final]
  simp only [length_append, length, length_cons, length_nil, append_assoc,
    cons_append, nil_append, Nat.add_mul]
  congr 5
  omega

/-! ## Clean and spoilt responses -/

/-- Only the last service of a response has an empty UUID; a request from 0 on is refused. -/
def Clean (payloadSize : UInt16) (sHdl : Nat) : Prop :=
  0 < sHdl → ∀ el ∈ (info.response payloadSize sHdl).dropLast, el.serviceUuid ≠ emptyUuid

end

theorem clean_of_filled (payloadSize : UInt16) (sHdl : Nat)
    (filled : ∀ el ∈ info.services, el.serviceUuid ≠ emptyUuid) : Clean info payloadSize sHdl := by
  intro _ el member
  have taken := dropLast_subset _ member
  rw [response] at taken
  split at taken
  · cases taken
  case h_2 first rest shape =>
    have later := (fitting_isPrefix _ _ _ _).subset taken
    rw [← shape] at later
    exact filled el (mem_filter.mp (mem_filter.mp later).1).1

section Responses

variable {payloadSize : UInt16} {sHdl : Nat}

/-- A response to a request with primary services behind it. -/
structure Responds (info : SrvListInfo) (sHdl : Nat) (els : List SrvListElem) (width : Nat) :
    Prop where
  some : els ≠ []
  begins : els <+: info.primariesFrom sHdl
  even : ∀ el ∈ els, el.groupWidth = width
  small : 4 < width ∧ width ≤ 20

theorem responds (large : 23 ≤ payloadSize.toNat) {el : SrvListElem} {rest : List SrvListElem}
    (shape : info.primariesFrom sHdl = el :: rest) :
    Responds info sHdl (info.response payloadSize sHdl) el.groupWidth := by
  have small := groupWidth_le el
  have taken : info.response payloadSize sHdl =
      fitting payloadSize.toNat el.groupWidth 2 (el :: rest) := by
    rw [response, shape]
  rw [taken]
  refine ⟨?_, shape ▸ fitting_isPrefix _ _ _ _, fun _ => groupWidth_of_mem_fitting, small⟩
  rw [fitting, if_neg (by omega)]
  exact cons_ne_nil _ _

theorem parseGroupRsp_clean (responds : Responds info sHdl els width)
    (clean : ∀ el ∈ els.dropLast, el.serviceUuid ≠ emptyUuid) :
    parseGroupRsp (groupRsp info width els) = els.map info.group := by
  obtain ⟨front, last, rfl⟩ := (eq_nil_or_concat' els).resolve_left responds.some
  rw [dropLast_concat] at clean
  have small := responds.small
  rw [groupRsp_eq info responds.even clean, parseGroupRsp_eq (by omega),
    cut_flatten ?even (by omega) (by omega), map_map]
  case even => exact length_of_mem_fullEntries info responds.even
  exact map_congr_left fun el _ => parseGroup_fullEntry info el

theorem exists_first_empty (spoilt : ¬∀ el ∈ els.dropLast, el.serviceUuid ≠ emptyUuid) :
    ∃ front el next more, els = front ++ el :: next :: more ∧ el.serviceUuid = emptyUuid ∧
      ∀ other ∈ front, other.serviceUuid ≠ emptyUuid := by
  induction els with
  | nil => exact absurd (fun _ member => by cases member) spoilt
  | cons el rest ih =>
    cases rest with
    | nil => exact absurd (fun _ member => by cases member) spoilt
    | cons next more =>
      by_cases empty : el.serviceUuid = emptyUuid
      · exact ⟨[], el, next, more, rfl, empty, fun _ member => by cases member⟩
      · obtain ⟨front, first, second, others, shape, isEmpty, before⟩ := ih fun all => by
          refine spoilt fun other member => ?_
          rw [dropLast_cons_cons] at member
          rcases mem_cons.mp member with rfl | later
          · exact empty
          · exact all other later
        refine ⟨el :: front, first, second, others, by rw [shape]; rfl, isEmpty, ?_⟩
        intro other member
        rcases mem_cons.mp member with rfl | later
        · exact empty
        · exact before other later

theorem valueOf_lt (bytes : List UInt8) : valueOf bytes < 256 ^ bytes.length := by
  induction bytes with
  | nil => exact Nat.one_pos
  | cons byte rest ih =>
    have small := byte.toNat_lt
    rw [valueOf, length_cons, pow_succ]
    omega

theorem from128BitLE_ne_empty {handle : Nat} (positive : 0 < handle) (word : handle < 65536)
    (rest : List UInt8) : from128BitLE (uint16ToStream handle ++ rest) ≠ emptyUuid := by
  have front : (uint16ToStream handle ++ rest).take 16 =
      UInt8.ofNat handle :: UInt8.ofNat (handle / 256) :: rest.take 14 := rfl
  have bound := valueOf_lt ((uint16ToStream handle ++ rest).take 16)
  have short : 256 ^ ((uint16ToStream handle ++ rest).take 16).length ≤ 256 ^ 16 :=
    Nat.pow_le_pow_right (by decide) (length_take_le _ _)
  intro empty
  have value := congrArg BitVec.toNat empty
  rw [from128BitLE, BitVec.toNat_ofNat, show 2 ^ 128 = 256 ^ 16 from rfl,
    Nat.mod_eq_of_lt (lt_of_lt_of_le bound short), front, valueOf, valueOf,
    UInt8.toNat_ofNat', UInt8.toNat_ofNat'] at value
  change _ = 0 at value
  omega

theorem parseGroup_ne_empty {handles : List UInt8} (four : handles.length = 4) {handle : Nat}
    (positive : 0 < handle) (word : handle < 65536) (rest : List UInt8) :
    (parseGroup ((handles ++ (uint16ToStream handle ++ rest)).take 20)).2.2 ≠ emptyUuid := by
  rw [parseGroup]
  split
  · intro empty
    have short := is16Bit_from16Bit (UInt16.ofNat (streamToUint16
      (((handles ++ (uint16ToStream handle ++ rest)).take 20).drop 4)))
    rw [show from16Bit _ = emptyUuid from empty] at short
    exact absurd short (by decide)
  · have uuid : ((handles ++ (uint16ToStream handle ++ rest)).take 20).drop 4 =
        uint16ToStream handle ++ rest.take 14 := by
      rw [drop_take, drop_left' four]
      rfl
    rw [uuid]
    exact from128BitLE_ne_empty positive word _

/-- In a spoilt response the handles of a service stand where an empty UUID should be. -/
theorem parseGroupRsp_spoilt (responds : Responds info sHdl els width)
    (spoilt : ¬∀ el ∈ els.dropLast, el.serviceUuid ≠ emptyUuid) :
    ¬parseGroupRsp (groupRsp info width els) <+: (info.primariesFrom sHdl).map info.group := by
  obtain ⟨front, el, next, more, rfl, empty, filled⟩ := exists_first_empty spoilt
  have wide : width = 20 := by
    rw [← responds.even el (by simp), groupWidth, empty]
    rfl
  subst wide
  obtain ⟨rest, body⟩ : ∃ rest, groupRsp info 20 (front ++ el :: next :: more) =
      (reqReadByGrpType + 1) :: UInt8.ofNat 20 :: ((front.map (fullEntry info)).flatten ++
        (groupHandles info el ++ (uint16ToStream next.sHdl ++ rest))) := by
    have bare : groupEntry info el = groupHandles info el := by
      rw [groupEntry, empty]
      exact append_nil _
    rw [groupRsp, zeroFilled, flatMap_append, flatMap_groupEntry filled, flatMap_cons,
      flatMap_cons, bare, groupEntry, groupHandles]
    simp only [append_assoc, cons_append, nil_append]
    exact ⟨_, rfl⟩
  have even : ∀ other ∈ front, other.groupWidth = 20 := fun other member =>
    responds.even other (mem_append_left _ member)
  have nonempty : groupHandles info el ++ (uint16ToStream next.sHdl ++ rest) ≠ [] :=
    append_ne_nil_of_left_ne_nil (cons_ne_nil _ _) _
  obtain ⟨others, cuts⟩ := @cut_front 20 (((front.map (fullEntry info)).flatten ++
      (groupHandles info el ++ (uint16ToStream next.sHdl ++ rest))).length + 2) _
    (length_of_mem_fullEntries info even) _ nonempty (by
      rw [length_append, length_fullEntries info even, length_map]
      omega)
  have read : front.map (parseGroup ∘ fullEntry info) = front.map info.group :=
    map_congr_left fun other _ => parseGroup_fullEntry info other
  obtain ⟨behind, split⟩ := responds.begins
  rw [body, parseGroupRsp_eq (by decide), cuts, map_append, map_map, read, ← split,
    append_assoc, map_append, map_cons, cons_append, map_cons]
  intro begins
  have same := (cons_prefix_cons.mp ((prefix_append_right_inj _).mp begins)).1
  have upper := next.eHdl_lt
  have ordered := next.sHdl_le
  refine @parseGroup_ne_empty (groupHandles info el) rfl next.sHdl next.positive (by omega) rest ?_
  exact (congrArg (fun group => group.2.2) same).trans empty

end Responses

/-! ## Whole discoveries -/

section Discovery

variable {payloadSize : UInt16} {turn sHdl : Nat}

theorem gattsValidatePacketFormat_group (positive : 0 < sHdl) (word : sHdl ≤ 0xFFFF) :
    gattsValidatePacketFormat reqReadByGrpType
        (uint16ToStream sHdl ++ (uint16ToStream 0xFFFF ++ uint16ToStream 0x2800)) =
      (.success, priServiceUuid, sHdl, 0xFFFF, []) := by
  rw [gattsValidatePacketFormat, readHandles_append positive word (by decide)]
  rfl

theorem readGroupFrom_zero : readGroupFrom info payloadSize turn 0 = some ([], none) := by
  rw [readGroupFrom]
  rfl

theorem readGroupFrom_none (positive : 0 < sHdl) (word : sHdl ≤ 0xFFFF)
    (none : info.primariesFrom sHdl = []) :
    readGroupFrom info payloadSize turn sHdl = some ([], Option.none) := by
  rw [readGroupFrom, gattsProcessPrimaryServiceReq, gattsValidatePacketFormat_group positive word]
  dsimp only
  rw [if_neg (by decide), gattBuildPrimaryServiceRsp_none _ _ none]
  rfl

theorem readGroupFrom_some (large : 23 ≤ payloadSize.toNat)
    (fits : headroom + payloadSize.toNat < 65536) (positive : 0 < sHdl) (word : sHdl ≤ 0xFFFF)
    {rest : List SrvListElem} (shape : info.primariesFrom sHdl = el :: rest) :
    readGroupFrom info payloadSize turn sHdl =
      (parseGroupRsp (groupRsp info el.groupWidth (info.response payloadSize sHdl))).getLast?.map
        fun last => (parseGroupRsp (groupRsp info el.groupWidth (info.response payloadSize sHdl)),
          some ((last.2.1 + 1) % 65536)) := by
  rw [readGroupFrom, gattsProcessPrimaryServiceReq, gattsValidatePacketFormat_group positive word]
  dsimp only
  rw [if_neg (by decide), gattBuildPrimaryServiceRsp_eq _ large fits shape]
  rfl

theorem readGroupFrom_wraps (wraps : ¬headroom + payloadSize.toNat < 65536)
    (some : info.primaries ≠ []) : readGroupFrom info payloadSize turn 1 = none := by
  have all : info.primariesFrom 1 = info.primaries :=
    filter_eq_self.mpr fun el _ => decide_eq_true el.positive
  rw [readGroupFrom, gattsProcessPrimaryServiceReq,
    gattsValidatePacketFormat_group Nat.one_pos (by decide)]
  dsimp only
  rw [if_neg (by decide), gattBuildPrimaryServiceRsp_wraps _ _ wraps (all ▸ some)]
  rfl

/-- What a client has still to find when it asks from a handle on; from 0 on, nothing. -/
def SrvListInfo.groupsFrom (info : SrvListInfo) (sHdl : Nat) : List (Nat × Nat × Uuid) :=
  if sHdl = 0 then [] else (info.primariesFrom sHdl).map info.group

theorem ascending_primaries (info : SrvListInfo) :
    info.primaries.Pairwise fun first second => first.eHdl < second.sHdl :=
  info.ascending.sublist filter_sublist

theorem groupsFrom_next {front behind : List SrvListElem} {last : SrvListElem}
    (split : info.primariesFrom sHdl = front ++ last :: behind) :
    info.groupsFrom (((info.group last).2.1 + 1) % 65536) = behind.map info.group := by
  have ordered := last.sHdl_le
  have upper := last.eHdl_lt
  have rising := (ascending_primaries info).sublist (filter_sublist (p := fun el => sHdl ≤ el.sHdl))
  rw [show info.primaries.filter (fun el => sHdl ≤ el.sHdl) = _ from split, pairwise_append,
    pairwise_cons] at rising
  have reached := rising.2.1.1
  rw [group, SrvListInfo.groupEnd, groupsFrom]
  dsimp only
  split
  case isTrue highest =>
    -- the service with the highest handle: nothing follows, and the client asks from 0
    have none : behind = [] := by
      refine eq_nil_iff_forall_not_mem.mpr fun el member => ?_
      have primary : el ∈ info.primariesFrom sHdl := by
        rw [split]
        simp [member]
      have below := highest el (mem_filter.mp (mem_filter.mp primary).1).1
      have above := reached el member
      omega
    rw [none]
    rfl
  case isFalse =>
    have word : (last.eHdl + 1) % 65536 = last.eHdl + 1 := Nat.mod_eq_of_lt (by omega)
    have sorted : info.primaries.Pairwise fun first second => first.sHdl < second.sHdl :=
      (ascending_primaries info).imp fun {first second} before =>
        lt_of_le_of_lt first.sHdl_le before
    rw [word, if_neg (by omega), primariesFrom,
      Foundation.Ascending.filter_behind sorted split (by omega) reached]

theorem headroom_fits (fits : info.primaries = [] ∨ headroom + payloadSize.toNat < 65536)
    (shape : info.primariesFrom sHdl = el :: rest) : headroom + payloadSize.toNat < 65536 := by
  refine fits.resolve_left fun none => ?_
  rw [primariesFrom, none] at shape
  cases shape

variable (large : 23 ≤ payloadSize.toNat)
  (fits : info.primaries = [] ∨ headroom + payloadSize.toNat < 65536) (turn sHdl : Nat)
  (word : sHdl ≤ 0xFFFF)
include large fits word

theorem readGroupFrom_clean (clean : Clean info payloadSize sHdl) :
    ∃ found next, readGroupFrom info payloadSize turn sHdl = some (found, next) ∧
      Delivers (fun sHdl => sHdl ≤ 0xFFFF) (fun _ => True) id info.groupsFrom sHdl found next := by
  rcases Nat.eq_zero_or_pos sHdl with rfl | positive
  · exact ⟨_, _, readGroupFrom_zero, ⟨trivial, fun _ => rfl, fun _ more => by cases more⟩⟩
  cases shape : info.primariesFrom sHdl with
  | nil =>
    refine ⟨_, _, readGroupFrom_none positive word shape, ⟨trivial, fun _ => ?_, ?_⟩⟩
    · rw [groupsFrom, if_neg (Nat.pos_iff_ne_zero.mp positive), shape]
      rfl
    · intro _ more
      cases more
  | cons el rest =>
    have enough := headroom_fits fits shape
    have answers := @responds info payloadSize sHdl large el rest shape
    have read := parseGroupRsp_clean answers (clean positive)
    obtain ⟨behind, split⟩ := answers.begins
    obtain ⟨front, last, ends⟩ := (eq_nil_or_concat' _).resolve_left answers.some
    rw [ends] at split read
    refine ⟨(front ++ [last]).map info.group, some (((info.group last).2.1 + 1) % 65536), ?_,
      ⟨trivial, ?_, ?_⟩⟩
    · rw [readGroupFrom_some large enough positive word shape, ends, read, map_append,
        map_singleton, List.getLast?_concat, Option.map_some]
    · intro ended
      cases ended
    · rintro _ ⟨⟩
      refine ⟨Nat.le_of_lt_succ (Nat.mod_lt _ (by decide)), by simp, ?_⟩
      rw [append_assoc, singleton_append] at split
      rw [groupsFrom_next split.symm, groupsFrom, if_neg (Nat.pos_iff_ne_zero.mp positive), ← split]
      simp

theorem readGroupFrom_spoilt (spoilt : ¬Clean info payloadSize sHdl)
    (found : List (Nat × Nat × Uuid)) (next : Option Nat)
    (answered : readGroupFrom info payloadSize turn sHdl = some (found, next)) :
    ¬id found <+: info.groupsFrom sHdl := by
  obtain ⟨positive, unclean⟩ := Classical.not_imp.mp spoilt
  cases shape : info.primariesFrom sHdl with
  | nil =>
    refine absurd (fun el member => ?_) unclean
    rw [response, shape] at member
    cases member
  | cons el rest =>
    have enough := headroom_fits fits shape
    rw [readGroupFrom_some large enough positive word shape] at answered
    obtain ⟨last, _, same⟩ := Option.map_eq_some_iff.mp answered
    rw [← (Prod.mk.inj same).1, groupsFrom, if_neg (Nat.pos_iff_ne_zero.mp positive)]
    exact parseGroupRsp_spoilt (responds large shape) unclean

end Discovery

/--
A client finds all primary services, each once and in order, with its end handle and its UUID,
if and only if the buffer of the responses has the size it needs and in no response a service
with an empty UUID stands before another one.
-/
theorem primary_discovery_iff (info : SrvListInfo) (payloadSize : UInt16)
    (large : 23 ≤ payloadSize.toNat) :
    (∃ responses,
        gather (readGroupFrom info payloadSize) (info.primaries.length + 1) 0 1 = some responses ∧
        responses.flatten = info.primaries.map info.group) ↔
      (info.primaries = [] ∨ headroom + payloadSize.toNat < 65536) ∧
        ∀ turn sHdl, Asked (readGroupFrom info payloadSize) 0 1 turn sHdl →
          Clean info payloadSize sHdl := by
  have whole : info.groupsFrom 1 = info.primaries.map info.group := by
    rw [groupsFrom, if_neg (by decide), primariesFrom,
      filter_eq_self.mpr fun el _ => decide_eq_true el.positive]
  by_cases fits : info.primaries = [] ∨ headroom + payloadSize.toNat < 65536
  · have iff := @gather_whole_iff _ _ _ info.groupsFrom (fun sHdl => sHdl ≤ 0xFFFF) id 0 1
      (readGroupFrom info payloadSize) (Clean info payloadSize)
      (readGroupFrom_clean large fits) (readGroupFrom_spoilt large fits)
      (info.primaries.length + 1) (by decide) (by
        rw [whole, length_map]
        exact Nat.lt_succ_self _)
    rw [whole] at iff
    rw [and_iff_right fits, ← iff]
    simp
  · obtain ⟨some, wraps⟩ := not_or.mp fits
    refine ⟨fun ⟨responses, gathered, _⟩ => ?_, fun both => absurd both.1 fits⟩
    rw [gather, readGroupFrom_wraps wraps some] at gathered
    cases gathered

/-- Two services with short UUIDs come in one response; the client then asks behind the end. -/
theorem primary_discovery_twoServices :
    23 ≤ (23 : UInt16).toNat ∧ ∃ responses,
      gather (readGroupFrom twoServices 23) 3 0 1 = some responses ∧
        responses.flatten = [(1, 3, from16Bit 0x180F), (4, 0xFFFF, from16Bit 0x1800)] := by
  refine ⟨by decide, ?_⟩
  have found := (primary_discovery_iff twoServices 23 (by decide)).mpr
    ⟨.inr (by decide), fun _ sHdl _ => clean_of_filled 23 sHdl (by
      rintro el (_ | ⟨_, _ | ⟨_, ⟨⟩⟩⟩)
      · decide
      · decide)⟩
  exact found

def namelessService : SrvListElem where
  sHdl := 1
  eHdl := 1
  gattIf := 1
  isPrimary := true
  db :=
    { attrList := [⟨some (.uuid emptyUuid), permRead, 1, priServiceUuid, .primaryService⟩]
      endHandle := 2
      nextHandle := 2 }
  positive := Nat.one_pos
  formed := @gattsAddService_formed emptyUuid true 1 [] _ (by decide)
  reach := rfl

def vendorService : SrvListElem where
  sHdl := 2
  eHdl := 2
  gattIf := 1
  isPrimary := true
  db :=
    { attrList := [⟨some (.uuid 0xFFFF0002000000000000000000000000), permRead, 2, priServiceUuid,
        .primaryService⟩]
      endHandle := 3
      nextHandle := 3 }
  positive := Nat.zero_lt_succ _
  formed := @gattsAddService_formed 0xFFFF0002000000000000000000000000 true 2 [] _ (by decide)
  reach := rfl

def namelessFirst : SrvListInfo := ⟨[namelessService, vendorService], by decide⟩

/-- The entry of the second service begins where the UUID of the first one should stand. -/
theorem nameless_service_spoils :
    gather (readGroupFrom namelessFirst 64) 3 0 1 =
        some [[(1, 1, 0xFFFF0002), (2, 0xFFFF, 0)], []] ∧
      namelessFirst.primaries.map namelessFirst.group =
        [(1, 1, 0), (2, 0xFFFF, 0xFFFF0002000000000000000000000000)] := by
  decide

end BluetoothFormal.Gatt.Legacy
