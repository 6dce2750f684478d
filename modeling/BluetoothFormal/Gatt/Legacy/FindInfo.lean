import BluetoothFormal.Gatt.Legacy.Pdu

/-!
# Find Information in the legacy GATT server

The response is filled service by service, and from each service it takes only the first
attribute of the range.  A client that goes on behind the last handle it has received
misses the others, unless the services that a response goes past have no more.
-/

namespace BluetoothFormal.Gatt.Legacy

open L2cap Foundation.Gather List Attr SrvListElem Bool

/-! ## The request -/

def infoPairLen (format : Nat) : Nat := if format = 1 then 4 else 18

/-- The pair of an attribute in `gatt_build_find_info_rsp`. -/
def addInfo (attr : Attr) (msg : Msg) (len : Nat) : Option (GattStatus × Msg × Nat) :=
  let uuidLen := getShortestRepresentationSize attr.uuid
  let msg := if msg.offset = 0 then { msg with offset := if uuidLen = 2 then 1 else 2 } else msg
  if len < infoPairLen msg.offset then some (.noResources, msg, len)
  else if msg.offset = 1 ∧ uuidLen = 2 then
    (msg.write (uint16ToStream attr.handle ++ uint16ToStream (as16Bit attr.uuid).toNat)).map
      fun written => (.success, written, len - infoPairLen msg.offset)
  else if msg.offset = 2 ∧ (uuidLen = 16 ∨ uuidLen = 4) then
    (msg.write (uint16ToStream attr.handle ++ to128BitLE attr.uuid)).map
      fun written => (.success, written, len - infoPairLen msg.offset)
  else some (.noResources, msg, len)

/-- The loop of `gatt_build_find_info_rsp`. -/
def findInfoLoop (sHdl eHdl : Nat) (msg : Msg) (len : Nat) :
    List Attr → Option (GattStatus × Msg × Nat)
  | [] => some (.notFound, msg, len)
  | attr :: rest =>
    if attr.handle > eHdl then some (.notFound, msg, len)
    else if attr.handle < sHdl then findInfoLoop sHdl eHdl msg len rest
    else addInfo attr msg len

def gattBuildFindInfoRsp (el : SrvListElem) (msg : Msg) (len sHdl eHdl : Nat) :
    Option (GattStatus × Msg × Nat) :=
  findInfoLoop sHdl eHdl msg len el.db.attrList

/-- The loop of `gatts_process_find_info`. -/
def findInfoServices (sHdl eHdl : Nat) :
    List SrvListElem → GattStatus → Msg → Nat → Option (GattStatus × Msg)
  | [], reason, msg, _ => some (reason, msg)
  | el :: rest, reason, msg, len =>
    if el.sHdl ≤ eHdl ∧ el.eHdl ≥ sHdl then
      (gattBuildFindInfoRsp el msg len sHdl eHdl).bind fun (reason, msg, len) =>
        if reason = .noResources then some (.success, msg)
        else findInfoServices sHdl eHdl rest reason msg len
    else findInfoServices sHdl eHdl rest reason msg len

/-- `gatts_process_find_info`: the PDU that is sent. -/
def gattsProcessFindInfo (info : SrvListInfo) (payloadSize : UInt16) (data : List UInt8) :
    Option (List UInt8) :=
  match readHandles data with
  | (.success, sHdl, eHdl, _) => do
    let bufLen := (headroom + payloadSize.toNat) % 65536
    let msg ← (Msg.alloc bufLen).write [reqFindInfo + 1, 0]
    let (reason, msg) ← findInfoServices sHdl eHdl info.services .notFound msg
      (payloadSize.toNat - 2)
    if reason = .success then some msg.finish else some (errorRsp reason reqFindInfo sHdl)
  | (reason, sHdl, _, _) => some (errorRsp reason reqFindInfo sHdl)

/-! ## The client -/

section

variable (attr : Attr)

/-- An attribute as a client sees it. -/
def Attr.information : Nat × Uuid := (attr.handle, attr.uuid)

/-- The pair of a handle and a type. -/
def parseInfoPair (format : Nat) (pair : List UInt8) : Nat × Uuid :=
  (streamToUint16 pair,
    if format = 1 then from16Bit (UInt16.ofNat (streamToUint16 (pair.drop 2)))
    else from128BitLE (pair.drop 2))

/-- The pairs of a response. -/
def parseFindInfoRsp (pdu : List UInt8) : List (Nat × Uuid) :=
  let format := (pdu.getD 1 0).toNat
  (cut (infoPairLen format) pdu.length (pdu.drop 2)).map (parseInfoPair format)

/--
A request of the client for all handles from one on.  It ends at the error that there are
no more attributes, and any other error has no result.
-/
def findInfoFrom (info : SrvListInfo) (payloadSize : UInt16) (_turn sHdl : Nat) :
    Option (List (Nat × Uuid) × Option Nat) :=
  (gattsProcessFindInfo info payloadSize (uint16ToStream sHdl ++ uint16ToStream 0xFFFF)).bind
    fun pdu =>
      if pdu = errorRsp .notFound reqFindInfo sHdl then some ([], none)
      else if pdu.head? = some (reqFindInfo + 1) then
        (parseFindInfoRsp pdu).getLast?.map fun last => (parseFindInfoRsp pdu, some (last.1 + 1))
      else none

/-! ## The pair of an attribute -/

def Attr.infoFormat : Nat := if is16Bit attr.uuid then 1 else 2

def Attr.infoPair : List UInt8 :=
  uint16ToStream attr.handle ++
    if is16Bit attr.uuid then uint16ToStream (as16Bit attr.uuid).toNat else to128BitLE attr.uuid

theorem Attr.length_infoPair : attr.infoPair.length = infoPairLen attr.infoFormat := by
  rw [infoPair, infoFormat, length_append, length_uint16ToStream]
  split
  · rfl
  · rw [length_to128BitLE]
    rfl

theorem Attr.infoFormat_cases :
    (is16Bit attr.uuid = true ∧ getShortestRepresentationSize attr.uuid = 2 ∧ attr.infoFormat = 1) ∨
      (is16Bit attr.uuid = false ∧ (getShortestRepresentationSize attr.uuid = 16 ∨
          getShortestRepresentationSize attr.uuid = 4) ∧ attr.infoFormat = 2) := by
  rcases shortestSize_cases attr.uuid with ⟨short, size⟩ | ⟨long, size⟩
  · exact .inl ⟨short, size, if_pos short⟩
  · exact .inr ⟨long, size, if_neg (by rw [long]; exact false_ne_true)⟩

end

theorem addInfo_success {attr : Attr} {msg : Msg} {len : Nat} (hasRoom : msg.HasRoom len)
    (format : msg.offset = 0 ∨ msg.offset = attr.infoFormat)
    (room : infoPairLen attr.infoFormat ≤ len) :
    addInfo attr msg len = some (.success,
        { msg with offset := attr.infoFormat, data := msg.data ++ attr.infoPair },
        len - infoPairLen attr.infoFormat) ∧
      Msg.HasRoom { msg with offset := attr.infoFormat, data := msg.data ++ attr.infoPair }
        (len - infoPairLen attr.infoFormat) := by
  have fits : attr.infoPair.length ≤ len := attr.length_infoPair ▸ room
  obtain ⟨written, left⟩ := @Msg.HasRoom.write { msg with offset := attr.infoFormat } len hasRoom
    _ fits
  rw [attr.length_infoPair] at left
  refine ⟨?_, left⟩
  have opened : (if msg.offset = 0 then { msg with
      offset := if getShortestRepresentationSize attr.uuid = 2 then 1 else 2 } else msg) =
        { msg with offset := attr.infoFormat } := by
    rcases format with unset | same
    · rw [if_pos unset, infoFormat, is16Bit]
      simp
    · rw [if_neg, ← same]
      rw [same, infoFormat]
      split <;> decide
  rw [addInfo, opened, if_neg (Nat.not_lt.mpr room)]
  rcases attr.infoFormat_cases with ⟨short, size, one⟩ | ⟨long, size, two⟩
  · rw [if_pos ⟨one, size⟩]
    rw [infoPair, if_pos short] at written
    rw [written, infoPair, if_pos short]
    rfl
  · have other : ¬(attr.infoFormat = 1 ∧ getShortestRepresentationSize attr.uuid = 2) := by
      rw [two]
      exact fun both => absurd both.1 (by decide)
    have notShort : ¬is16Bit attr.uuid = true := by rw [long]; exact false_ne_true
    rw [if_neg other, if_pos ⟨two, size⟩]
    rw [infoPair, if_neg notShort] at written
    rw [written, infoPair, if_neg notShort]
    rfl

variable {attr : Attr} {len sHdl : Nat} {msg : Msg} {services : List SrvListElem}

theorem addInfo_noResources (set : msg.offset = 1 ∨ msg.offset = 2)
    (full : msg.offset ≠ attr.infoFormat ∨ len < infoPairLen msg.offset) :
    addInfo attr msg len = some (.noResources, msg, len) := by
  have opened : msg.offset ≠ 0 := by omega
  rw [addInfo, if_neg opened]
  by_cases short : len < infoPairLen msg.offset
  · rw [if_pos short]
  · have other : msg.offset ≠ attr.infoFormat := full.resolve_right short
    rw [if_neg short]
    rcases attr.infoFormat_cases with ⟨-, size, one⟩ | ⟨-, size, two⟩
    · rw [one] at other
      rw [if_neg (fun both => other both.1), if_neg (by omega)]
    · rw [two] at other
      rw [if_neg (by omega), if_neg (fun both => other both.1)]

/-! ## The response -/

variable {attrs more : List Attr} {el : SrvListElem} {rest : List SrvListElem}
  {later : List (List Attr)} {capacity : Nat} {payloadSize : UInt16} {info : SrvListInfo}
  {info : SrvListInfo} {payloadSize : UInt16}

/-- The loop over the attributes of a service takes the first one in the range. -/
theorem findInfoLoop_eq {eHdl : Nat} (inside : ∀ attr ∈ attrs, attr.handle ≤ eHdl) :
    findInfoLoop sHdl eHdl msg len attrs = match attrs.filter fun attr => sHdl ≤ attr.handle with
      | [] => some (.notFound, msg, len)
      | attr :: _ => addInfo attr msg len := by
  induction attrs with
  | nil => rfl
  | cons attr rest ih =>
    have low := inside attr (mem_cons_self ..)
    rw [findInfoLoop, if_neg (Nat.not_lt.mpr low)]
    by_cases before : attr.handle < sHdl
    · rw [if_pos before, ih fun other listed => inside other (mem_cons_of_mem _ listed),
        filter_cons_of_neg (by simpa using before)]
    · rw [if_neg before, filter_cons_of_pos (by simpa using before)]

/-- The declarations of services, which a response goes on with. -/
def declarations (services : List SrvListElem) : List Attr :=
  services.filterMap fun el => el.db.attrList.head?

theorem infoFormat_of_isServiceType (declares : IsServiceType attr.uuid) :
    attr.infoFormat = 1 := by
  rcases declares with same | same
  all_goals
    rw [infoFormat, same]
    rfl

theorem overlaps_of_behind (behind : sHdl ≤ el.sHdl) :
    el.sHdl ≤ 0xFFFF ∧ el.eHdl ≥ sHdl := by
  obtain ⟨first, rest, same, -⟩ := el.declaration
  have listed : first ∈ el.db.attrList := same ▸ mem_cons_self ..
  have range := mem_attrList listed
  have upper := el.eHdl_lt
  omega

theorem gattBuildFindInfoRsp_behind {el : SrvListElem} {sHdl : Nat} {msg : Msg} {len : Nat}
    (behind : sHdl ≤ el.sHdl) : ∃ declaration rest, el.db.attrList = declaration :: rest ∧
      declaration.infoFormat = 1 ∧
      gattBuildFindInfoRsp el msg len sHdl 0xFFFF = addInfo declaration msg len := by
  obtain ⟨first, rest, same, declares, handle⟩ := el.declaration
  refine ⟨first, rest, same, infoFormat_of_isServiceType declares, ?_⟩
  have upper := el.eHdl_lt
  rw [gattBuildFindInfoRsp, findInfoLoop_eq fun attr listed => by
    have := (mem_attrList listed).2
    omega]
  rw [same, filter_cons_of_pos (by rw [handle]; exact decide_eq_true behind)]

theorem findInfoServices_short (behind : ∀ el ∈ services, sHdl ≤ el.sHdl) (format : msg.offset = 1)
    (hasRoom : msg.HasRoom len) :
    findInfoServices sHdl 0xFFFF services .success msg len = some (.success,
      { msg with data := msg.data ++
        ((declarations services).take (len / 4)).flatMap infoPair }) := by
  induction services generalizing msg len with
  | nil =>
    rw [findInfoServices, declarations, filterMap_nil, take_nil, flatMap_nil, append_nil]
  | cons el rest ih =>
    obtain ⟨declaration, others, same, short, offered⟩ := @gattBuildFindInfoRsp_behind el sHdl
      msg len (behind el (mem_cons_self ..))
    have overlaps := overlaps_of_behind (behind el (mem_cons_self ..))
    have listed : declarations (el :: rest) = declaration :: declarations rest := by
      rw [declarations, filterMap_cons, same]
      rfl
    rw [findInfoServices, if_pos overlaps, offered, listed]
    by_cases room : 4 ≤ len
    · obtain ⟨added, left⟩ := @addInfo_success declaration msg len hasRoom
        (.inr (format.trans short.symm)) (by rw [short]; exact room)
      rw [added, Option.bind_some]
      dsimp only
      rw [if_neg (by decide), short]
      rw [short] at left
      have taken : len / 4 = (len - 4) / 4 + 1 := by omega
      rw [ih (fun other member => behind other (mem_cons_of_mem _ member)) rfl left, taken,
        take_succ_cons, flatMap_cons, append_assoc, format]
      rfl
    · have full : len < infoPairLen msg.offset := by rw [format]; exact Nat.not_le.mp room
      rw [addInfo_noResources (.inl format) (.inr full), Option.bind_some]
      dsimp only
      rw [if_pos rfl, show len / 4 = 0 by omega, take_zero, flatMap_nil, append_nil]

theorem findInfoServices_long (behind : ∀ el ∈ services, sHdl ≤ el.sHdl) (format : msg.offset = 2) :
    findInfoServices sHdl 0xFFFF services .success msg len = some (.success, msg) := by
  cases services with
  | nil => rfl
  | cons el rest =>
    obtain ⟨declaration, -, -, short, offered⟩ := @gattBuildFindInfoRsp_behind el sHdl
      msg len (behind el (mem_cons_self ..))
    have overlaps := overlaps_of_behind (behind el (mem_cons_self ..))
    have mismatch : msg.offset ≠ declaration.infoFormat := by
      rw [format, short]
      decide
    rw [findInfoServices, if_pos overlaps, offered,
      addInfo_noResources (.inr format) (.inl mismatch), Option.bind_some]
    exact if_pos rfl

def remainingServices (sHdl : Nat) (services : List SrvListElem) : List (List Attr) :=
  (services.map fun el => el.db.attrList.filter fun attr => sHdl ≤ attr.handle).filter
    fun attrs => attrs ≠ []

/-- The attributes that a response takes from services, with room for some pairs. -/
def taken (capacity : Nat) : List (List Attr) → List Attr
  | (attr :: _) :: later =>
    if attr.infoFormat = 1 then attr :: (later.filterMap List.head?).take (capacity - 1)
    else [attr]
  | _ => []

theorem remainingServices_cons_of_empty
    (empty : el.db.attrList.filter (fun attr => sHdl ≤ attr.handle) = []) :
    remainingServices sHdl (el :: rest) = remainingServices sHdl rest := by
  rw [remainingServices, map_cons, empty, filter_cons_of_neg (by decide)]
  rfl

theorem remainingServices_cons
    (some : el.db.attrList.filter (fun attr => sHdl ≤ attr.handle) = attr :: more) :
    remainingServices sHdl (el :: rest) = (attr :: more) :: remainingServices sHdl rest := by
  rw [remainingServices, map_cons, some, filter_cons_of_pos (by simp)]
  rfl

theorem remainingServices_behind (behind : ∀ el ∈ services, sHdl ≤ el.sHdl) :
    remainingServices sHdl services = services.map fun el => el.db.attrList := by
  have whole : (services.map fun el => el.db.attrList.filter fun attr => sHdl ≤ attr.handle) =
      services.map fun el => el.db.attrList := by
    refine map_congr_left fun el listed => filter_eq_self.mpr fun attr member => ?_
    have low := (mem_attrList member).1
    have first := behind el listed
    exact decide_eq_true (by omega)
  rw [remainingServices, whole]
  refine filter_eq_self.mpr fun attrs listed => ?_
  obtain ⟨el, -, rfl⟩ := mem_map.mp listed
  obtain ⟨first, rest, same, -⟩ := el.declaration
  rw [same]
  exact decide_eq_true (cons_ne_nil _ _)

theorem findInfoServices_eq {sHdl : Nat} {services : List SrvListElem}
    (ascending : services.Pairwise fun first second => first.eHdl < second.sHdl)
    {msg : Msg} {len : Nat} (unset : msg.offset = 0) (hasRoom : msg.HasRoom len)
    (large : 18 ≤ len) :
    findInfoServices sHdl 0xFFFF services .notFound msg len =
      match remainingServices sHdl services with
      | (attr :: more) :: later => some (.success, { msg with
          offset := attr.infoFormat
          data := msg.data ++ (taken (len / 4) ((attr :: more) :: later)).flatMap infoPair })
      | _ => some (.notFound, msg) := by
  induction services with
  | nil => rfl
  | cons el rest ih =>
    obtain ⟨before, ordered⟩ := pairwise_cons.mp ascending
    have inside : ∀ attr ∈ el.db.attrList, attr.handle ≤ 0xFFFF := by
      intro attr listed
      have range := (mem_attrList listed).2
      have upper := el.eHdl_lt
      omega
    have offered : gattBuildFindInfoRsp el msg len sHdl 0xFFFF = _ := findInfoLoop_eq inside
    rw [findInfoServices]
    cases first : el.db.attrList.filter fun attr => sHdl ≤ attr.handle with
    | nil =>
      rw [remainingServices_cons_of_empty first, ← ih ordered, offered, first]
      split <;> rfl
    | cons attr more =>
      have listed : attr ∈ el.db.attrList.filter fun attr => sHdl ≤ attr.handle :=
        first ▸ mem_cons_self ..
      obtain ⟨member, low⟩ := mem_filter.mp listed
      have range := mem_attrList member
      have upper := el.eHdl_lt
      have reached : sHdl ≤ attr.handle := of_decide_eq_true low
      have behind : ∀ other ∈ rest, sHdl ≤ other.sHdl := by
        intro other listed
        have later := before other listed
        omega
      rw [if_pos ⟨by omega, by omega⟩, offered, remainingServices_cons first, first]
      rw [remainingServices_behind behind]
      obtain ⟨added, left⟩ := @addInfo_success attr msg len hasRoom (.inl unset) (by
        rw [infoFormat]
        split
        · exact Nat.le_trans (by decide) large
        · exact large)
      dsimp only
      rw [added, Option.bind_some]
      dsimp only
      rw [if_neg (by decide), taken]
      by_cases short : attr.infoFormat = 1
      · have heads : (rest.map fun el => el.db.attrList).filterMap List.head? =
            declarations rest := filterMap_map
        have count : len / 4 - 1 = (len - infoPairLen 1) / 4 := by
          rw [show infoPairLen 1 = 4 from rfl]
          omega
        rw [short] at left
        rw [short, findInfoServices_short behind rfl left, if_pos rfl, heads, count,
          flatMap_cons, append_assoc]
      · have long : attr.infoFormat = 2 := by
          rcases attr.infoFormat_cases with ⟨-, -, one⟩ | ⟨-, -, two⟩
          · exact absurd one short
          · exact two
        rw [findInfoServices_long behind long, if_neg short, flatMap_singleton]

/-! ## What a client gets -/

theorem remainingServices_flatten (sHdl : Nat) (services : List SrvListElem) :
    (remainingServices sHdl services).flatten =
      (services.flatMap fun el => el.db.attrList).filter fun attr => sHdl ≤ attr.handle := by
  induction services with
  | nil => rfl
  | cons el rest ih =>
    rw [flatMap_cons, filter_append, ← ih]
    cases first : el.db.attrList.filter fun attr => sHdl ≤ attr.handle with
    | nil => rw [remainingServices_cons_of_empty first, nil_append]
    | cons attr more => rw [remainingServices_cons first, flatten_cons]

theorem remainingServices_tail
    (ascending : services.Pairwise fun first second => first.eHdl < second.sHdl)
    (split : remainingServices sHdl services = attrs :: later) :
    attrs ≠ [] ∧ ∃ behind : List SrvListElem, later = behind.map fun el => el.db.attrList := by
  induction services with
  | nil => cases split
  | cons el rest ih =>
    obtain ⟨before, ordered⟩ := pairwise_cons.mp ascending
    cases first : el.db.attrList.filter fun attr => sHdl ≤ attr.handle with
    | nil => exact ih ordered (remainingServices_cons_of_empty first ▸ split)
    | cons attr more =>
      rw [remainingServices_cons first] at split
      obtain ⟨rfl, rfl⟩ := List.cons.inj split
      refine ⟨cons_ne_nil _ _, rest, remainingServices_behind fun other listed => ?_⟩
      have member : attr ∈ el.db.attrList.filter fun attr => sHdl ≤ attr.handle :=
        first ▸ mem_cons_self ..
      have range := mem_attrList (mem_filter.mp member).1
      have reached := of_decide_eq_true (mem_filter.mp member).2
      have gap := before other listed
      omega

theorem infoFormat_of_mem_taken (behind : List SrvListElem) {other : Attr}
    (listed : other ∈ taken capacity ((attr :: more) :: behind.map fun el => el.db.attrList)) :
    other.infoFormat = attr.infoFormat := by
  rw [taken] at listed
  split at listed
  · rename_i short
    rcases mem_cons.mp listed with rfl | later
    · rfl
    · obtain ⟨attrs, member, head⟩ := mem_filterMap.mp (mem_of_mem_take later)
      obtain ⟨el, -, rfl⟩ := mem_map.mp member
      obtain ⟨first, rest, same, declares, -⟩ := el.declaration
      rw [same] at head
      cases head
      rw [short, infoFormat_of_isServiceType declares]
  · rw [mem_singleton.mp listed]

theorem mem_flatten_of_mem_taken {lists : List (List Attr)} (listed : attr ∈ taken capacity lists) :
    attr ∈ lists.flatten := by
  rw [taken.eq_def] at listed
  split at listed
  · rename_i first more later
    split at listed
    · rcases mem_cons.mp listed with rfl | behind
      · exact mem_flatten.mpr ⟨_, mem_cons_self .., mem_cons_self ..⟩
      · obtain ⟨attrs, member, head⟩ := mem_filterMap.mp (mem_of_mem_take behind)
        exact mem_flatten.mpr ⟨attrs, mem_cons_of_mem _ member, mem_of_mem_head? head⟩
    · rw [mem_singleton.mp listed]
      exact mem_flatten.mpr ⟨_, mem_cons_self .., mem_cons_self ..⟩
  · cases listed

theorem taken_eq_cons (capacity : Nat) (attr : Attr) (more : List Attr) (later : List (List Attr)) :
    ∃ others, taken capacity ((attr :: more) :: later) = attr :: others := by
  rw [taken]
  split
  · exact ⟨_, rfl⟩
  · exact ⟨[], rfl⟩

theorem infoPairLen_positive (format : Nat) : 0 < infoPairLen format := by
  rw [infoPairLen]
  split <;> decide

theorem parseInfoPair_infoPair (word : attr.handle < 65536) :
    parseInfoPair attr.infoFormat attr.infoPair = attr.information := by
  rw [parseInfoPair, infoPair, streamToUint16_stream word,
    drop_left' (length_uint16ToStream _), information]
  rcases attr.infoFormat_cases with ⟨short, -, one⟩ | ⟨long, -, two⟩
  · have read : streamToUint16 (uint16ToStream (as16Bit attr.uuid).toNat) =
        (as16Bit attr.uuid).toNat :=
      (congrArg streamToUint16 (append_nil _).symm).trans
        (streamToUint16_stream (as16Bit attr.uuid).toNat_lt [])
    rw [one, if_pos rfl, if_pos short, read, UInt16.ofNat_toNat, from16Bit_as16Bit short]
  · have notShort : ¬is16Bit attr.uuid = true := by rw [long]; exact false_ne_true
    have read := from128BitLE_to128BitLE attr.uuid []
    rw [append_nil] at read
    rw [two, if_neg (by decide), if_neg notShort, read]

theorem parseFindInfoRsp_eq {format : Nat} (small : format < 256)
    (even : ∀ attr ∈ attrs, attr.infoFormat = format) (word : ∀ attr ∈ attrs, attr.handle < 65536)
    (opCode : UInt8) :
    parseFindInfoRsp (opCode :: UInt8.ofNat format :: attrs.flatMap infoPair) =
      attrs.map information := by
  have read : ((opCode :: UInt8.ofNat format :: attrs.flatMap infoPair).getD 1 0).toNat =
      format := by
    change (UInt8.ofNat format).toNat = format
    rw [UInt8.toNat_ofNat', Nat.mod_eq_of_lt small]
  rw [parseFindInfoRsp, read]
  change (cut (infoPairLen format) _ (attrs.flatMap infoPair)).map _ = _
  rw [flatMap_def, cut_flatten ?pieces (infoPairLen_positive format) ?enough, map_map]
  case pieces =>
    intro piece listed
    obtain ⟨attr, member, rfl⟩ := mem_map.mp listed
    rw [attr.length_infoPair, even attr member]
  case enough =>
    rw [length_cons, length_cons]
    omega
  refine map_congr_left fun attr member => ?_
  rw [Function.comp, ← even attr member, parseInfoPair_infoPair (word attr member)]

theorem gattsProcessFindInfo_eq {sHdl : Nat}
    (large : 23 ≤ payloadSize.toNat) (fits : headroom + payloadSize.toNat < 65536)
    (positive : 0 < sHdl) (word : sHdl ≤ 0xFFFF) :
    gattsProcessFindInfo info payloadSize (uint16ToStream sHdl ++ uint16ToStream 0xFFFF) =
      match remainingServices sHdl info.services with
      | (attr :: more) :: later => some ((reqFindInfo + 1) :: UInt8.ofNat attr.infoFormat ::
          (taken ((payloadSize.toNat - 2) / 4) ((attr :: more) :: later)).flatMap infoPair)
      | _ => some (errorRsp .notFound reqFindInfo sHdl) := by
  obtain ⟨written, left⟩ := Msg.write_alloc (reqFindInfo + 1) (by omega : 2 ≤ payloadSize.toNat)
  have filled := @findInfoServices_eq sHdl info.services info.ascending _ (payloadSize.toNat - 2)
    rfl left (by omega)
  rw [gattsProcessFindInfo, readHandles_stream positive word (by decide)]
  dsimp only
  rw [Nat.mod_eq_of_lt fits, written, Option.bind_eq_bind, Option.bind_some, filled]
  split <;> rfl

/-- A payload size for which the size of the buffer wraps: the first byte is written outside. -/
theorem gattsProcessFindInfo_wraps (wraps : ¬headroom + payloadSize.toNat < 65536)
    (positive : 0 < sHdl) (word : sHdl ≤ 0xFFFF) :
    gattsProcessFindInfo info payloadSize (uint16ToStream sHdl ++ uint16ToStream 0xFFFF) =
      none := by
  rw [gattsProcessFindInfo, readHandles_stream positive word (by decide)]
  dsimp only
  rw [Msg.write_alloc_wraps payloadSize.toNat_lt wraps]
  rfl

theorem findInfoFrom_eq {turn sHdl : Nat}
    (large : 23 ≤ payloadSize.toNat) (fits : headroom + payloadSize.toNat < 65536)
    (positive : 0 < sHdl) (word : sHdl ≤ 0xFFFF) :
    (remainingServices sHdl info.services = [] ∧
        findInfoFrom info payloadSize turn sHdl = some ([], none)) ∨
      ∃ attr more later, remainingServices sHdl info.services = (attr :: more) :: later ∧
        ∃ last, (taken ((payloadSize.toNat - 2) / 4) ((attr :: more) :: later)).getLast? =
            some last ∧ findInfoFrom info payloadSize turn sHdl = some
            ((taken ((payloadSize.toNat - 2) / 4) ((attr :: more) :: later)).map information,
              some (last.handle + 1)) := by
  have answered := @gattsProcessFindInfo_eq info payloadSize sHdl large fits positive word
  rw [findInfoFrom, answered]
  cases split : remainingServices sHdl info.services with
  | nil => exact .inl ⟨rfl, if_pos rfl⟩
  | cons attrs later =>
    obtain ⟨filled, behind, rfl⟩ := remainingServices_tail info.ascending split
    obtain ⟨attr, more, rfl⟩ := exists_cons_of_ne_nil filled
    refine .inr ⟨attr, more, _, rfl, ?_⟩
    dsimp only
    have word : ∀ other ∈ taken ((payloadSize.toNat - 2) / 4)
        ((attr :: more) :: behind.map fun el => el.db.attrList), other.handle < 65536 := by
      intro other listed
      have member := mem_flatten_of_mem_taken listed
      rw [← split, remainingServices_flatten] at member
      have range := SrvListInfo.handle_range (mem_filter.mp member).1
      omega
    have small : attr.infoFormat < 256 := by
      rw [infoFormat]
      split <;> decide
    have parsed := parseFindInfoRsp_eq small (fun other => infoFormat_of_mem_taken behind) word
      (reqFindInfo + 1)
    obtain ⟨others, same⟩ := taken_eq_cons ((payloadSize.toNat - 2) / 4) attr more
      (behind.map fun el => el.db.attrList)
    rw [same] at parsed ⊢
    refine ⟨(attr :: others).getLast (cons_ne_nil _ _),
      List.getLast?_eq_some_getLast (cons_ne_nil _ _), ?_⟩
    rw [Option.bind_some, if_neg, if_pos (List.head?_cons ..), parsed, List.getLast?_map,
      List.getLast?_eq_some_getLast (cons_ne_nil _ _)]
    · rfl
    · intro same
      exact absurd (List.cons.inj same).1 (by decide)

/-! ## Whole discoveries -/

/--
The first items of lists begin the lists joined, up to a number of them, if and only if
the lists that are gone past have no second item.
-/
theorem heads_isPrefix_iff {Item Seen : Type} {see : Item → Seen} {lists : List (List Item)}
    (filled : ∀ list ∈ lists, list ≠ []) (distinct : (lists.flatten.map see).Nodup)
    (capacity : Nat) :
    ((lists.filterMap List.head?).take capacity).map see <+: lists.flatten.map see ↔
      ∀ list ∈ (lists.take capacity).dropLast, list.length = 1 := by
  induction lists generalizing capacity with
  | nil => simp
  | cons list rest ih =>
    obtain ⟨item, more, rfl⟩ := exists_cons_of_ne_nil (filled list (mem_cons_self ..))
    have filledRest : ∀ list ∈ rest, list ≠ [] := fun other listed =>
      filled other (mem_cons_of_mem _ listed)
    rw [flatten_cons, cons_append, map_cons] at distinct
    have distinctBehind := (nodup_cons.mp distinct).2
    cases capacity with
    | zero => simp
    | succ capacity =>
      rw [filterMap_cons, List.head?_cons]
      rw [take_succ_cons, map_cons, flatten_cons, cons_append,
        map_cons, prefix_cons_inj, take_succ_cons]
      cases rest with
      | nil => simp
      | cons next others =>
        obtain ⟨first, behind, rfl⟩ := exists_cons_of_ne_nil (filledRest next (mem_cons_self ..))
        cases capacity with
        | zero => simp
        | succ capacity =>
          cases more with
          | nil =>
            rw [nil_append, ih filledRest distinctBehind, take_succ_cons,
              dropLast_cons_cons, forall_mem_cons]
            exact ⟨fun all => ⟨rfl, all⟩, fun all => all.2⟩
          | cons second more =>
            rw [cons_append, map_cons] at distinctBehind
            constructor
            · intro begins
              rw [filterMap_cons, List.head?_cons] at begins
              rw [take_succ_cons, map_cons, cons_append, map_cons, cons_prefix_cons] at begins
              refine absurd ?_ (nodup_cons.mp distinctBehind).1
              rw [← begins.1]
              exact mem_map_of_mem (mem_append_right _ (mem_append_left _ (mem_cons_self ..)))
            · intro all
              rw [take_succ_cons, dropLast_cons_cons] at all
              have one := all _ (mem_cons_self ..)
              rw [length_cons, length_cons] at one
              omega

section

variable (info : SrvListInfo)

/--
The services that a response goes past have no more than the one attribute that it takes
from each of them.  A long type stands alone, and a short one is followed by as many
declarations as there is room for.
-/
def Unbroken (payloadSize : UInt16) (sHdl : Nat) : Prop :=
  ∀ attr more later, remainingServices sHdl info.services = (attr :: more) :: later →
    is16Bit attr.uuid = true →
      ∀ attrs ∈ (((attr :: more) :: later).take ((payloadSize.toNat - 2) / 4)).dropLast,
        attrs.length = 1

theorem unbroken_of_one_service (one : info.services.length ≤ 1)
    (payloadSize : UInt16) (sHdl : Nat) : Unbroken info payloadSize sHdl := by
  intro attr more later split short attrs listed
  have count : ((attr :: more) :: later).length ≤ 1 := by
    rw [← split, remainingServices]
    exact Nat.le_trans (length_filter_le ..) (by rw [length_map]; exact one)
  have positive := length_pos_of_mem listed
  rw [length_dropLast, length_take] at positive
  omega

/-- The attributes from a handle on, as a client sees them. -/
def remainingInformation (sHdl : Nat) : List (Nat × Uuid) :=
  (info.attributes.filter fun attr => sHdl ≤ attr.handle).map information

theorem remainingInformation_eq (sHdl : Nat) :
    remainingInformation info sHdl =
      (remainingServices sHdl info.services).flatten.map information := by
  rw [remainingServices_flatten]
  rfl

theorem remainingInformation_nodup (sHdl : Nat) : (remainingInformation info sHdl).Nodup := by
  have ordered := (ascending_flatMap info.ascending).sublist
    (filter_sublist (p := fun attr => sHdl ≤ attr.handle))
  refine pairwise_map.mpr (ordered.imp fun {first second} before same => ?_)
  have handles : first.handle = second.handle := congrArg Prod.fst same
  omega

end

/-- A response leaves nothing out if and only if it goes past no further attribute. -/
theorem taken_isPrefix_iff (large : 23 ≤ payloadSize.toNat)
    (split : remainingServices sHdl info.services = (attr :: more) :: later) :
    (taken ((payloadSize.toNat - 2) / 4) ((attr :: more) :: later)).map information <+:
        remainingInformation info sHdl ↔ Unbroken info payloadSize sHdl := by
  have distinct := remainingInformation_nodup info sHdl
  rw [remainingInformation_eq, split] at distinct ⊢
  have unbroken : Unbroken info payloadSize sHdl ↔ (is16Bit attr.uuid = true →
      ∀ attrs ∈ (((attr :: more) :: later).take ((payloadSize.toNat - 2) / 4)).dropLast,
        attrs.length = 1) := by
    rw [Unbroken, split]
    constructor
    · intro all
      exact all attr more later rfl
    · rintro all _ _ _ same
      cases same
      exact all
  rw [unbroken]
  rcases attr.infoFormat_cases with ⟨short, -, one⟩ | ⟨long, -, two⟩
  · have filled : ∀ attrs ∈ (attr :: more) :: later, attrs ≠ [] := by
      intro attrs listed
      rw [← split] at listed
      exact of_decide_eq_true (mem_filter.mp listed).2
    obtain ⟨capacity, count⟩ : ∃ capacity, (payloadSize.toNat - 2) / 4 = capacity + 1 :=
      ⟨(payloadSize.toNat - 2) / 4 - 1, by omega⟩
    have heads : taken (capacity + 1) ((attr :: more) :: later) =
        (((attr :: more) :: later).filterMap List.head?).take (capacity + 1) := by
      rw [taken, if_pos one]
      rfl
    rw [count, heads, heads_isPrefix_iff filled distinct]
    exact ⟨fun all _ => all, fun all => all short⟩
  · have alone : taken ((payloadSize.toNat - 2) / 4) ((attr :: more) :: later) = [attr] := by
      rw [taken, if_neg (by rw [two]; decide)]
    rw [alone, long]
    refine ⟨fun _ short => absurd short false_ne_true, fun _ => ?_⟩
    exact ⟨_, rfl⟩

theorem findInfoFrom_resumes (large : 23 ≤ payloadSize.toNat) (fits : headroom + payloadSize.toNat < 65536)
    (turn sHdl : Nat) (good : 0 < sHdl ∧ sHdl ≤ 0xFFFF) :
    ∃ found next, findInfoFrom info payloadSize turn sHdl = some (found, next) ∧
      Resumes (fun sHdl => 0 < sHdl ∧ sHdl ≤ 0xFFFF) id (remainingInformation info) sHdl found
        next := by
  rcases @findInfoFrom_eq info payloadSize turn sHdl large fits good.1 good.2 with
    ⟨none, answered⟩ | ⟨attr, more, later, split, last, final, answered⟩
  · refine ⟨_, _, answered, ⟨fun _ => ?_, fun _ goesOn => absurd goesOn (Option.some_ne_none _).symm⟩⟩
    rw [remainingInformation_eq, none]
    rfl
  · refine ⟨_, _, answered, ⟨fun ended => absurd ended (Option.some_ne_none _), ?_⟩⟩
    rintro _ ⟨⟩
    obtain ⟨front, shape⟩ := List.getLast?_eq_some_iff.mp final
    have member : last ∈ info.attributes.filter fun attr => sHdl ≤ attr.handle := by
      have listed := remainingServices_flatten sHdl info.services
      rw [split] at listed
      rw [SrvListInfo.attributes, ← listed]
      exact mem_flatten_of_mem_taken (shape ▸ mem_append_right _ (mem_singleton_self _))
    obtain ⟨listed, reached⟩ := mem_filter.mp member
    have range := SrvListInfo.handle_range listed
    refine ⟨⟨by omega, by omega⟩, ?_, ?_⟩
    · rw [remainingInformation, remainingInformation, length_map, length_map]
      exact Foundation.Ascending.length_filter_lt listed (of_decide_eq_true reached)
        (Nat.lt_succ_self _)
    · intro rest same
      rw [id, shape, remainingInformation] at same
      obtain ⟨seen, behind, whole, seenSame, rfl⟩ := map_eq_append_iff.mp same
      rw [map_append, map_singleton] at seenSame
      obtain ⟨before, ends, rfl, -, final⟩ := map_eq_append_iff.mp seenSame
      obtain ⟨end_, rfl, handle⟩ := map_eq_singleton_iff.mp final
      rw [append_assoc, singleton_append] at whole
      have after := Foundation.Ascending.filter_after (ascending_flatMap info.ascending) whole
      rw [show end_.handle = last.handle from congrArg Prod.fst handle] at after
      rw [remainingInformation, ← after]
      rfl

/--
A client finds all attributes, each once and with its type, if and only if the buffer of
the response has the size it needs and each response to the client goes past no further
attribute.
-/
theorem findInfo_complete_iff (info : SrvListInfo) (payloadSize : UInt16)
    (large : 23 ≤ payloadSize.toNat) :
    (∃ responses,
        gather (findInfoFrom info payloadSize) (info.attributes.length + 1) 0 1 = some responses ∧
        responses.flatten = info.attributes.map fun attr => (attr.handle, attr.uuid)) ↔
      headroom + payloadSize.toNat < 65536 ∧
        ∀ turn sHdl, Asked (findInfoFrom info payloadSize) 0 1 turn sHdl →
          Unbroken info payloadSize sHdl := by
  by_cases fits : headroom + payloadSize.toNat < 65536
  · have whole : remainingInformation info 1 =
        info.attributes.map fun attr => (attr.handle, attr.uuid) := by
      rw [remainingInformation, filter_eq_self.mpr]
      · rfl
      · intro attr listed
        exact decide_eq_true (SrvListInfo.handle_range listed).1
    have resumes := @findInfoFrom_resumes info payloadSize large fits
    have first : 0 < 1 ∧ 1 ≤ 0xFFFF := by decide
    obtain ⟨responses, gathered, complete⟩ := @gather_of_resumes _ _ _ _ _ _ 0 1 _ resumes
      (info.attributes.length + 1) first (by
        rw [whole, length_map]
        exact Nat.lt_succ_self _)
    rw [whole, flatMap_id] at complete
    have steps : (∃ found, gather (findInfoFrom info payloadSize) (info.attributes.length + 1) 0 1 =
        some found ∧ found.flatten = info.attributes.map fun attr => (attr.handle, attr.uuid)) ↔
          responses.flatten = info.attributes.map fun attr => (attr.handle, attr.uuid) := by
      rw [gathered]
      constructor
      · rintro ⟨_, ⟨⟩, same⟩
        exact same
      · intro same
        exact ⟨responses, rfl, same⟩
    rw [steps, complete, and_iff_right fits]
    refine forall₃_congr fun turn sHdl asked => ?_
    have good := asked.good resumes first
    rcases @findInfoFrom_eq info payloadSize turn sHdl large fits good.1 good.2 with
      ⟨none, answered⟩ | ⟨attr, more, later, split, last, -, answered⟩
    · refine ⟨fun _ attr more later split => ?_, fun _ found next same => ?_⟩
      · rw [none] at split
        cases split
      · cases Option.some.inj (answered.symm.trans same)
        exact nil_prefix
    · rw [← taken_isPrefix_iff large split]
      constructor
      · intro all
        exact all _ _ answered
      · intro begins found next same
        cases Option.some.inj (answered.symm.trans same)
        exact begins
  · refine ⟨fun ⟨responses, gathered, _⟩ => ?_, fun both => absurd both.1 fits⟩
    have nothing : findInfoFrom info payloadSize 0 1 = none := by
      rw [findInfoFrom, gattsProcessFindInfo_wraps fits Nat.one_pos (by decide)]
      rfl
    rw [gather, nothing] at gathered
    cases gathered

def batteryService : SrvListElem where
  sHdl := 1
  eHdl := 3
  gattIf := 1
  isPrimary := true
  db :=
    { attrList := [⟨some (.uuid (from16Bit 0x180F)), permRead, 1, priServiceUuid, .primaryService⟩,
        ⟨some (.charDecl 0x02 3), permRead, 2, charDeclareUuid, .primaryService⟩,
        ⟨none, permRead, 3, from16Bit 0x2A19, .characteristic⟩]
      endHandle := 4
      nextHandle := 4 }
  positive := Nat.one_pos
  formed := @gattsAddService_formed (from16Bit 0x180F) true 1
    [.characteristic (from16Bit 0x2A19) 0x02 0 permRead] _ (by decide)
  reach := rfl

/-- A service without characteristics. -/
def accessService : SrvListElem where
  sHdl := 4
  eHdl := 4
  gattIf := 1
  isPrimary := true
  db :=
    { attrList := [⟨some (.uuid (from16Bit 0x1800)), permRead, 4, priServiceUuid, .primaryService⟩]
      endHandle := 5
      nextHandle := 5 }
  positive := Nat.zero_lt_succ _
  formed := @gattsAddService_formed (from16Bit 0x1800) true 4 [] _ (by decide)
  reach := rfl

def oneService : SrvListInfo := ⟨[batteryService], pairwise_singleton ..⟩

def twoServices : SrvListInfo := ⟨[batteryService, accessService], by decide⟩

/-- One service: a client finds its attributes. -/
theorem findInfo_complete_iff_battery :
    23 ≤ (23 : UInt16).toNat ∧ ∃ responses,
      gather (findInfoFrom oneService 23) 4 0 1 = some responses ∧ responses.flatten =
          [(1, priServiceUuid), (2, charDeclareUuid), (3, from16Bit 0x2A19)] :=
  ⟨by decide, (findInfo_complete_iff oneService 23 (by decide)).mpr
    ⟨by decide, fun _ sHdl _ => @unbroken_of_one_service oneService (Nat.le_refl 1) 23 sHdl⟩⟩

/-- The characteristic of the first of two services is not found. -/
theorem characteristic_not_found :
    gather (findInfoFrom twoServices 23) 5 0 1 =
        some [[(1, priServiceUuid), (4, priServiceUuid)], []] ∧
      twoServices.attributes.map (fun attr => (attr.handle, attr.uuid)) =
        [(1, priServiceUuid), (2, charDeclareUuid), (3, from16Bit 0x2A19),
          (4, priServiceUuid)] := by
  decide

end BluetoothFormal.Gatt.Legacy
