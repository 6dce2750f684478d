import BluetoothFormal.Rfcomm.Port

/-!
# The frames of an RFCOMM multiplexer

A frame starts with an address, a control field and a length of one or two
bytes.  A frame of user data may carry credits, which its poll bit announces,
and its payload follows.  The last byte is a check sequence over the first
fields, computed with a table and checked through the residue of the table.

The frames built on one side of a multiplexer are accepted on the other side,
with the fields and the payload they were built from, if their channel number is
a valid one.
-/

namespace BluetoothFormal.Rfcomm.Frames

open Port

def crcTable : List UInt8 :=
  [0x00, 0x91, 0xE3, 0x72, 0x07, 0x96, 0xE4, 0x75, 0x0E, 0x9F, 0xED,
    0x7C, 0x09, 0x98, 0xEA, 0x7B, 0x1C, 0x8D, 0xFF, 0x6E, 0x1B, 0x8A,
    0xF8, 0x69, 0x12, 0x83, 0xF1, 0x60, 0x15, 0x84, 0xF6, 0x67, 0x38,
    0xA9, 0xDB, 0x4A, 0x3F, 0xAE, 0xDC, 0x4D, 0x36, 0xA7, 0xD5, 0x44,
    0x31, 0xA0, 0xD2, 0x43, 0x24, 0xB5, 0xC7, 0x56, 0x23, 0xB2, 0xC0,
    0x51, 0x2A, 0xBB, 0xC9, 0x58, 0x2D, 0xBC, 0xCE, 0x5F,
    0x70, 0xE1, 0x93, 0x02, 0x77, 0xE6, 0x94, 0x05, 0x7E, 0xEF, 0x9D,
    0x0C, 0x79, 0xE8, 0x9A, 0x0B, 0x6C, 0xFD, 0x8F, 0x1E, 0x6B, 0xFA,
    0x88, 0x19, 0x62, 0xF3, 0x81, 0x10, 0x65, 0xF4, 0x86, 0x17, 0x48,
    0xD9, 0xAB, 0x3A, 0x4F, 0xDE, 0xAC, 0x3D, 0x46, 0xD7, 0xA5, 0x34,
    0x41, 0xD0, 0xA2, 0x33, 0x54, 0xC5, 0xB7, 0x26, 0x53, 0xC2, 0xB0,
    0x21, 0x5A, 0xCB, 0xB9, 0x28, 0x5D, 0xCC, 0xBE, 0x2F,
    0xE0, 0x71, 0x03, 0x92, 0xE7, 0x76, 0x04, 0x95, 0xEE, 0x7F, 0x0D,
    0x9C, 0xE9, 0x78, 0x0A, 0x9B, 0xFC, 0x6D, 0x1F, 0x8E, 0xFB, 0x6A,
    0x18, 0x89, 0xF2, 0x63, 0x11, 0x80, 0xF5, 0x64, 0x16, 0x87, 0xD8,
    0x49, 0x3B, 0xAA, 0xDF, 0x4E, 0x3C, 0xAD, 0xD6, 0x47, 0x35, 0xA4,
    0xD1, 0x40, 0x32, 0xA3, 0xC4, 0x55, 0x27, 0xB6, 0xC3, 0x52, 0x20,
    0xB1, 0xCA, 0x5B, 0x29, 0xB8, 0xCD, 0x5C, 0x2E, 0xBF,
    0x90, 0x01, 0x73, 0xE2, 0x97, 0x06, 0x74, 0xE5, 0x9E, 0x0F, 0x7D,
    0xEC, 0x99, 0x08, 0x7A, 0xEB, 0x8C, 0x1D, 0x6F, 0xFE, 0x8B, 0x1A,
    0x68, 0xF9, 0x82, 0x13, 0x61, 0xF0, 0x85, 0x14, 0x66, 0xF7, 0xA8,
    0x39, 0x4B, 0xDA, 0xAF, 0x3E, 0x4C, 0xDD, 0xA6, 0x37, 0x45, 0xD4,
    0xA1, 0x30, 0x42, 0xD3, 0xB4, 0x25, 0x57, 0xC6, 0xB3, 0x22, 0x50,
    0xC1, 0xBA, 0x2B, 0x59, 0xC8, 0xBD, 0x2C, 0x5E, 0xCF]

def crcEntry (index : UInt8) : UInt8 := crcTable.getD index.toNat 0

/-- The loop of both check functions. -/
def crc (bytes : List UInt8) : UInt8 := bytes.foldl (fun fcs byte => crcEntry (fcs ^^^ byte)) 0xFF

def calcFcs (bytes : List UInt8) : UInt8 := 0xFF - crc bytes

def checkFcs (bytes : List UInt8) (receivedFcs : UInt8) : Bool :=
  crcEntry (crc bytes ^^^ receivedFcs) = 0xCF

/-- The members of `tRFC_MCB` that the frames depend on. -/
structure Link where
  isInitiator : Bool
  flow : Flow

variable {credit control : UInt8} {payload : List UInt8} {mcb : Link} {isCommand : Bool}

section

variable (mcb : Link)

/-- The other side of the multiplexer. -/
def Link.peer : Link where
  isInitiator := !mcb.isInitiator
  flow := mcb.flow

def ea : UInt8 := 0x01
def crMask : UInt8 := 0x02
def pfMask : UInt8 := 0x10
def sabme : UInt8 := 0x2F
def ua : UInt8 := 0x63
def dm : UInt8 := 0x0F
def disc : UInt8 := 0x43
def uih : UInt8 := 0xEF

/-- `RFCOMM_CR`. -/
def crBit (isInitiator isCommand : Bool) : UInt8 :=
  if (isInitiator && isCommand) || (!isInitiator && !isCommand) then crMask else 0

/-- The address field. -/
def address (isCommand : Bool) (dlci : UInt8) : UInt8 :=
  ea ||| crBit mcb.isInitiator isCommand ||| dlci <<< 2

/-- A frame without payload. -/
def sendControl (isCommand : Bool) (control dlci : UInt8) : List UInt8 :=
  let header := [address mcb isCommand dlci, control, ea ||| 0]
  header ++ [calcFcs header]

section

variable (dlci : UInt8)

def sendSabme : List UInt8 :=
  sendControl mcb true (sabme ||| pfMask) dlci

def sendUa : List UInt8 := sendControl mcb false (ua ||| pfMask) dlci

def sendDm (pf : Bool) : List UInt8 :=
  sendControl mcb false (dm ||| if pf then pfMask else 0) dlci

def sendDisc : List UInt8 :=
  sendControl mcb true (disc ||| pfMask) dlci

def lengthField (length : Nat) : List UInt8 :=
  if length ≤ 127 then [ea ||| UInt8.ofNat (length <<< 1)]
  else [UInt8.ofNat ((length &&& 0x7f) <<< 1), UInt8.ofNat (length >>> 7)]

/-- `rfc_send_buf_uih`, with the credits in the layer specific member of the buffer. -/
def sendBufUih (payload : List UInt8) (layerSpecific : UInt8) : List UInt8 :=
  let credits := if dlci ≠ 0 then layerSpecific else 0
  let header := [address mcb true dlci, uih ||| if credits ≠ 0 then pfMask else 0]
  header ++ lengthField payload.length ++ (if credits ≠ 0 then [credits] else []) ++ payload ++
    [calcFcs header]

end

/-- The events of `rfc_parse_data` for good frames. -/
inductive FrameEvent where
  | sabme
  | ua
  | dm
  | disc
  | uih

/-- The members of `MX_FRAME` that `rfc_parse_data` sets. -/
structure MxFrame where
  cr : Bool
  dlci : UInt8
  type : UInt8
  pf : Bool
  credit : UInt8

def validDlci (dlci : UInt8) : Bool := dlci = 0 || (2 ≤ dlci && dlci ≤ 61)

def frameIsCmd (isInitiator cr : Bool) : Bool := (isInitiator && !cr) || (!isInitiator && cr)

def frameIsRsp (isInitiator cr : Bool) : Bool := (isInitiator && cr) || (!isInitiator && !cr)

/-- The length and what follows it. -/
def parseLength (field : UInt8) (rest : List UInt8) : Option (Nat × List UInt8) :=
  if field &&& ea ≠ 0 then some (field.toNat >>> 1, rest)
  else
    match rest with
    | [] => none
    | second :: body => some ((field.toNat >>> 1) + (second.toNat <<< 7), body)

/-- The credits, if the frame has any, and what follows them. -/
def parseCredit (present : Bool) (body : List UInt8) : Option (UInt8 × List UInt8) :=
  if present then
    match body with
    | credit :: next :: rest => some (credit, next :: rest)
    | _ => none
  else some (0, body)

/-- The checks of the frame types, with the first three bytes of the frame. -/
def checkFrame (frame : MxFrame) (length : Nat) (start : List UInt8) (fcs : UInt8) :
    Option FrameEvent :=
  let wellFormed := length = 0 && validDlci frame.dlci && checkFcs start fcs
  if frame.type = sabme then
    if frameIsRsp mcb.isInitiator frame.cr || !frame.pf || !wellFormed then none else some .sabme
  else if frame.type = ua then
    if frameIsCmd mcb.isInitiator frame.cr || !frame.pf || !wellFormed then none else some .ua
  else if frame.type = dm then
    if frameIsCmd mcb.isInitiator frame.cr || !wellFormed then none else some .dm
  else if frame.type = disc then
    if frameIsRsp mcb.isInitiator frame.cr || !frame.pf || !wellFormed then none else some .disc
  else if frame.type = uih then
    if validDlci frame.dlci && checkFcs (start.take 2) fcs then some .uih else none
  else none

/--
`rfc_parse_data`: the event, the frame and the payload that stays in the buffer,
or nothing for a bad frame.
-/
def parseData (bytes : List UInt8) : Option (FrameEvent × MxFrame × List UInt8) :=
  match bytes with
  | first :: control :: field :: rest => do
    if first &&& ea = 0 then none
    else
      let dlci := first >>> 2
      let type := control &&& ~~~pfMask
      let pf := control &&& pfMask ≠ 0
      let (length, body) ← parseLength field rest
      if body = [] then none
      else
        let (credit, data) ← parseCredit (mcb.flow = .credit && type = uih && dlci ≠ 0 && pf) body
        if data.length - 1 ≠ length then none
        else
          let frame : MxFrame := ⟨first &&& crMask ≠ 0, dlci, type, pf, credit⟩
          let event ← checkFrame mcb frame length [first, control, field] (data.getD length 0)
          some (event, frame, data.take length)
  | _ => none

theorem xor_complement (byte : UInt8) : byte ^^^ (0xFF - byte) = 0xFF := by
  have complement : 0xFF - byte = ~~~byte := by
    apply UInt8.toBitVec_inj.mp
    exact BitVec.allOnes_sub_eq_not byte.toBitVec
  rw [complement]
  apply UInt8.toBitVec_inj.mp
  change byte.toBitVec ^^^ ~~~byte.toBitVec = BitVec.allOnes 8
  ext index below
  rw [BitVec.getElem_xor, BitVec.getElem_not, BitVec.getElem_allOnes]
  cases byte.toBitVec[index] with
  | false | true => rfl

theorem checkFcs_calcFcs (bytes : List UInt8) : checkFcs bytes (calcFcs bytes) = true := by
  rw [checkFcs, calcFcs, xor_complement]
  rfl

theorem validDlci_small {dlci : UInt8} (valid : validDlci dlci = true) : dlci < 64 := by
  simp only [validDlci, Bool.or_eq_true, Bool.and_eq_true, decide_eq_true_eq] at valid
  rcases valid with zero | ⟨_, limit⟩
  · rw [zero]
    decide
  · exact Nat.lt_of_le_of_lt limit (by decide)

theorem address_fields (isCommand : Bool) (mcb : Link) {dlci : UInt8} (small : dlci < 64) :
    address mcb isCommand dlci &&& ea ≠ 0 ∧ address mcb isCommand dlci >>> 2 = dlci ∧
      (address mcb isCommand dlci &&& crMask ≠ 0 ↔ mcb.isInitiator = isCommand) := by
  have table : ∀ number : Fin 64, ∀ cr : Bool,
      (ea ||| (if cr then crMask else 0) ||| UInt8.ofNat number.val <<< 2) &&& ea ≠ 0 ∧
      (ea ||| (if cr then crMask else 0) ||| UInt8.ofNat number.val <<< 2) >>> 2 =
        UInt8.ofNat number.val ∧
      ((ea ||| (if cr then crMask else 0) ||| UInt8.ofNat number.val <<< 2) &&& crMask ≠ 0 ↔
        cr = true) := by decide
  have entry := table ⟨dlci.toNat, small⟩
    ((mcb.isInitiator && isCommand) || (!mcb.isInitiator && !isCommand))
  simp only [UInt8.ofNat_toNat] at entry
  refine ⟨entry.1, entry.2.1, entry.2.2.trans ?_⟩
  cases mcb.isInitiator <;> cases isCommand <;> decide

theorem frameIsRsp_peer : frameIsRsp mcb.peer.isInitiator mcb.isInitiator = false := by
  cases role : mcb.isInitiator <;> simp [frameIsRsp, Link.peer, role]

theorem frameIsCmd_peer : frameIsCmd mcb.peer.isInitiator (!mcb.isInitiator) = false := by
  cases role : mcb.isInitiator <;> simp [frameIsCmd, Link.peer, role]

theorem parseLength_lengthField {length : Nat} (short : length < 32768) (body : List UInt8) :
    ∃ field rest, lengthField length = field :: rest ∧
      parseLength field (rest ++ body) = some (length, body) := by
  by_cases one : length ≤ 127
  · have table : ∀ number : Fin 128, (ea ||| UInt8.ofNat (number.val <<< 1)) &&& ea ≠ 0 ∧
      (ea ||| UInt8.ofNat (number.val <<< 1)).toNat >>> 1 = number.val := by decide
    obtain ⟨odd, half⟩ := table ⟨length, by omega⟩
    refine ⟨_, [], by rw [lengthField, if_pos one], ?_⟩
    unfold parseLength
    rw [if_pos odd, half, List.nil_append]
  · have table : ∀ number : Fin 128, (UInt8.ofNat (number.val <<< 1)) &&& ea = 0 ∧
      (UInt8.ofNat (number.val <<< 1)).toNat >>> 1 = number.val := by decide
    have low : length &&& 0x7f = length % 128 := Nat.and_two_pow_sub_one_eq_mod length 7
    obtain ⟨even, half⟩ := table ⟨length % 128, Nat.mod_lt _ (by decide)⟩
    refine ⟨UInt8.ofNat ((length &&& 0x7f) <<< 1), [UInt8.ofNat (length >>> 7)],
      by rw [lengthField, if_neg one], ?_⟩
    unfold parseLength
    rw [low, if_neg (by rw [even]; decide), half]
    have high : (UInt8.ofNat (length >>> 7)).toNat = length / 128 := by
      rw [UInt8.toNat_ofNat', Nat.shiftRight_eq_div_pow]
      exact Nat.mod_eq_of_lt (by omega)
    change some (length % 128 + (UInt8.ofNat (length >>> 7)).toNat <<< 7, body) = _
    rw [high, Nat.shiftLeft_eq]
    congr 2
    omega

def fields (first control credit : UInt8) : MxFrame where
  cr := first &&& crMask ≠ 0
  dlci := first >>> 2
  type := control &&& ~~~pfMask
  pf := control &&& pfMask ≠ 0
  credit := credit

def announced (first control : UInt8) : Bool :=
  mcb.flow = .credit && control &&& ~~~pfMask = uih && first >>> 2 ≠ 0 && control &&& pfMask ≠ 0

theorem parseCredit_of {present : Bool} (payload : List UInt8) (fcs : UInt8)
    (absent : present = false → credit = 0) :
    parseCredit present ((if present then [credit] else []) ++ payload ++ [fcs]) =
      some (credit, payload ++ [fcs]) := by
  cases present with
  | false => rw [absent rfl]; rfl
  | true =>
    cases payload with
    | nil | cons => rfl

theorem parseData_assembled {first : UInt8} (fcs : UInt8) (extended : first &&& ea ≠ 0)
    (short : payload.length < 32768) (absent : announced mcb first control = false → credit = 0) :
    ∃ field, (lengthField payload.length).head? = some field ∧
    parseData mcb ([first, control] ++ lengthField payload.length ++
        (if announced mcb first control then [credit] else []) ++ payload ++ [fcs]) =
      (checkFrame mcb (fields first control credit) payload.length [first, control, field] fcs).map
        fun event => (event, fields first control credit, payload) := by
  obtain ⟨field, rest, shape, parsed⟩ := parseLength_lengthField short
    ((if announced mcb first control then [credit] else []) ++ payload ++ [fcs])
  refine ⟨field, by rw [shape]; rfl, ?_⟩
  have credits := parseCredit_of payload fcs absent
  have whole : [first, control] ++ lengthField payload.length ++
        (if announced mcb first control then [credit] else []) ++ payload ++ [fcs] =
      first :: control :: field :: (rest ++ ((if announced mcb first control then [credit] else [])
        ++ payload ++ [fcs])) := by
    rw [shape]
    simp
  have complete : (payload ++ [fcs]).length - 1 = payload.length := by simp
  have last : (payload ++ [fcs]).getD payload.length 0 = fcs := by simp
  have kept : (payload ++ [fcs]).take payload.length = payload := List.take_left' rfl
  rw [whole]
  change (if first &&& ea = 0 then none else _) = _
  rw [if_neg extended, parsed]
  change (if (if announced mcb first control then [credit] else []) ++ payload ++ [fcs] = []
    then none else _) = _
  rw [if_neg (by simp)]
  change (parseCredit (announced mcb first control) _ >>= _) = _
  rw [credits]
  change (if (payload ++ [fcs]).length - 1 ≠ payload.length then none else
    checkFrame mcb (fields first control credit) payload.length [first, control, field]
      ((payload ++ [fcs]).getD payload.length 0) >>= fun event =>
        some (event, fields first control credit, (payload ++ [fcs]).take payload.length)) = _
  rw [if_neg (fun different => different complete), last, kept]
  cases checkFrame mcb (fields first control credit) payload.length [first, control, field] fcs with
  | none | some => rfl

end

theorem fields_address {dlci : UInt8} (control credit : UInt8) (valid : validDlci dlci = true) :
    fields (address mcb isCommand dlci) control credit =
      ⟨mcb.isInitiator = isCommand, dlci, control &&& ~~~pfMask, control &&& pfMask ≠ 0, credit⟩ := by
  obtain ⟨_, channel, role⟩ := address_fields isCommand mcb (validDlci_small valid)
  simp only [fields, channel, role]

theorem parseData_sendControl {cr pf : Bool} {type dlci : UInt8} {event : FrameEvent}
    (valid : validDlci dlci = true) (role : decide (mcb.isInitiator = isCommand) = cr)
    (kind : control &&& ~~~pfMask = type) (poll : decide (control &&& pfMask ≠ 0) = pf)
    (other : type ≠ uih)
    (accepted : ∀ start fcs, checkFcs start fcs = true →
      checkFrame mcb.peer ⟨cr, dlci, type, pf, 0⟩ 0 start fcs = some event) :
    parseData mcb.peer (sendControl mcb isCommand control dlci) =
      some (event, ⟨cr, dlci, type, pf, 0⟩, []) := by
  obtain ⟨extended, _⟩ := address_fields isCommand mcb (validDlci_small valid)
  have absent : announced mcb.peer (address mcb isCommand dlci) control = false := by
    simp [announced, kind, other]
  have none : announced mcb.peer (address mcb isCommand dlci) control = false → (0 : UInt8) = 0 :=
    fun _ => rfl
  have empty : ([] : List UInt8).length < 32768 := by decide
  obtain ⟨field, head, parsed⟩ := parseData_assembled mcb.peer
    (calcFcs [address mcb isCommand dlci, control, ea ||| 0]) extended empty none
  obtain rfl : ea ||| 0 = field := Option.some.inj head
  rw [absent, fields_address control 0 valid, role, kind, poll, List.length_nil,
    accepted _ _ (checkFcs_calcFcs _)] at parsed
  exact parsed

theorem parseData_sendBufUih {dlci : UInt8} (valid : validDlci dlci = true)
    (short : payload.length < 32768) (credited : credit ≠ 0 → mcb.flow = .credit ∧ dlci ≠ 0) :
    parseData mcb.peer (sendBufUih mcb dlci payload credit) =
      some (.uih, ⟨mcb.isInitiator, dlci, uih, credit ≠ 0, credit⟩, payload) := by
  obtain ⟨extended, channel, _⟩ := address_fields true mcb (validDlci_small valid)
  have sent : (if dlci ≠ 0 then credit else 0) = credit := by
    by_cases none : credit = 0
    · rw [none, ite_self]
    · rw [if_pos (credited none).2]
  have bits : (uih ||| if credit ≠ 0 then pfMask else 0) &&& ~~~pfMask = uih ∧
      ((uih ||| if credit ≠ 0 then pfMask else 0) &&& pfMask ≠ 0 ↔ credit ≠ 0) := by
    by_cases none : credit = 0
    · rw [if_neg (fun some => some none)]
      exact ⟨by decide, iff_of_false (by decide) (fun some => some none)⟩
    · rw [if_pos none]
      exact ⟨by decide, iff_of_true (by decide) none⟩
  have present : announced mcb.peer (address mcb true dlci)
      (uih ||| if credit ≠ 0 then pfMask else 0) = decide (credit ≠ 0) := by
    simp only [announced, bits, channel, Link.peer]
    by_cases none : credit = 0
    · simp [none]
    · simp [none, credited none]
  have absent : announced mcb.peer (address mcb true dlci)
      (uih ||| if credit ≠ 0 then pfMask else 0) = false → credit = 0 := by
    rw [present, decide_eq_false_iff_not]
    exact Decidable.not_not.mp
  obtain ⟨field, _, parsed⟩ := parseData_assembled mcb.peer
    (calcFcs [address mcb true dlci, uih ||| if credit ≠ 0 then pfMask else 0]) extended short absent
  rw [present, fields_address _ credit valid] at parsed
  simp only [bits, decide_eq_true_eq] at parsed
  rw [sendBufUih, sent]
  refine parsed.trans ?_
  have checked := checkFcs_calcFcs [address mcb true dlci, uih ||| if credit ≠ 0 then pfMask else 0]
  change ((if validDlci dlci &&
    checkFcs [address mcb true dlci, uih ||| if credit ≠ 0 then pfMask else 0] (calcFcs _)
      then some FrameEvent.uih else none).map _) = _
  rw [valid, checked]
  simp

/-- The frames that can be sent. -/
inductive Outgoing where
  | sabme (dlci : UInt8)
  | ua (dlci : UInt8)
  | dm (dlci : UInt8) (pf : Bool)
  | disc (dlci : UInt8)
  | uih (dlci : UInt8) (payload : List UInt8) (credit : UInt8)

namespace Outgoing

def send (mcb : Link) : Outgoing → List UInt8
  | .sabme dlci => sendSabme mcb dlci
  | .ua dlci => sendUa mcb dlci
  | .dm dlci pf => sendDm mcb dlci pf
  | .disc dlci => sendDisc mcb dlci
  | .uih dlci payload credit => sendBufUih mcb dlci payload credit

/-- The event, the fields and the payload that the other side should see. -/
def received (mcb : Link) : Outgoing → FrameEvent × MxFrame × List UInt8
  | .sabme dlci => (.sabme, ⟨mcb.isInitiator, dlci, Frames.sabme, true, 0⟩, [])
  | .ua dlci => (.ua, ⟨!mcb.isInitiator, dlci, Frames.ua, true, 0⟩, [])
  | .dm dlci pf => (.dm, ⟨!mcb.isInitiator, dlci, Frames.dm, pf, 0⟩, [])
  | .disc dlci => (.disc, ⟨mcb.isInitiator, dlci, Frames.disc, true, 0⟩, [])
  | .uih dlci payload credit =>
    (.uih, ⟨mcb.isInitiator, dlci, Frames.uih, credit ≠ 0, credit⟩, payload)

def dlci : Outgoing → UInt8
  | .sabme dlci | .ua dlci | .dm dlci _ | .disc dlci | .uih dlci _ _ => dlci

/-- Credits are sent in credit based flow on a channel of user data. -/
def wellFormed (mcb : Link) : Outgoing → Prop
  | .uih dlci payload credit =>
    payload.length < 32768 ∧ (credit ≠ 0 → mcb.flow = .credit ∧ dlci ≠ 0)
  | _ => True

end Outgoing

theorem types_distinct : ua ≠ sabme ∧ dm ≠ sabme ∧ dm ≠ ua ∧ disc ≠ sabme ∧ disc ≠ ua ∧
    disc ≠ dm := by decide

/--
A frame on a valid channel is accepted by the peer, with its type, channel, poll
bit, credits and payload.
-/
theorem parseData_send (mcb : Link) (frame : Outgoing) (valid : validDlci frame.dlci = true)
    (formed : frame.wellFormed mcb) :
    parseData mcb.peer (frame.send mcb) = some (frame.received mcb) := by
  cases frame with
  | sabme dlci | disc dlci =>
    change validDlci dlci = true at valid
    refine parseData_sendControl valid (by simp) (by decide) (by decide) (by decide) ?_
    intro start fcs checked
    simp [checkFrame, types_distinct, frameIsRsp_peer, valid, checked]
  | ua dlci =>
    change validDlci dlci = true at valid
    refine parseData_sendControl valid (by simp) (by decide) (by decide) (by decide) ?_
    intro start fcs checked
    simp [checkFrame, types_distinct, frameIsCmd_peer, valid, checked]
  | dm dlci pf =>
    change validDlci dlci = true at valid
    refine parseData_sendControl valid (by simp) ?_ ?_ (by decide) ?_
    · cases pf <;> decide
    · cases pf <;> decide
    intro start fcs checked
    simp [checkFrame, types_distinct, frameIsCmd_peer, valid, checked]
  | uih dlci payload credit => exact parseData_sendBufUih valid formed.1 formed.2

theorem parseData_send_credits :
    parseData (Link.peer ⟨true, .credit⟩) (Outgoing.send ⟨true, .credit⟩ (.uih 4 [7, 8, 9] 3)) =
      some (.uih, ⟨true, 4, uih, true, 3⟩, [7, 8, 9]) :=
  parseData_send ⟨true, .credit⟩ (.uih 4 [7, 8, 9] 3) (by decide)
    ⟨by decide, fun _ => ⟨rfl, by decide⟩⟩

/-- Channel 1 is not a valid one: its frames can be built and are refused. -/
theorem reserved_channel_refused :
    ¬ ∀ (mcb : Link) (frame : Outgoing), frame.dlci ≤ 61 → frame.wellFormed mcb →
      parseData mcb.peer (frame.send mcb) = some (frame.received mcb) := by
  intro claim
  have refused : parseData (Link.peer ⟨true, .credit⟩)
      (Outgoing.send ⟨true, .credit⟩ (.sabme 1)) = none := by decide
  have accepted := claim ⟨true, .credit⟩ (.sabme 1) (by decide) trivial
  rw [refused] at accepted
  cases accepted

end BluetoothFormal.Rfcomm.Frames
