import BluetoothFormal.L2cap.Buffer

/-!
# Configurations in AVDTP messages

The capabilities of a stream are sent as elements, each with a category and a length in
front.  The codec and the content protection are kept with their length as the first
byte, which is how they go into the message.  The parser asks for at least two bytes
of either, so an element with fewer bytes is built but not taken back.
-/

namespace BluetoothFormal.Av.Avdt

open List

variable {cfg : SepConfig}

/-! ## Building and parsing -/

structure SepConfig where
  codecInfo : List UInt8
  protectInfo : List UInt8
  numCodec : UInt8
  numProtect : UInt8
  pscMask : UInt16
  recovType : UInt8
  recovMrws : UInt8
  recovMnmp : UInt8
  hdrcmpMask : UInt8

def codecSize : Nat := 20

/-- `AVDT_PROTECT_SIZE`; what follows holds for every size that fits a byte. -/
def avdtProtectSize : Nat := 90

/-- An information element with its length in front: at most what its buffer holds. -/
def infoElem (info : List UInt8) (size : Nat) : List UInt8 :=
  info.take (min (info.headD 0 + 1).toNat size)

section

variable (protectSize : Nat)

/-- `avdt_msg_bld_cfg`. -/
def avdtMsgBldCfg (cfg : SepConfig) : List UInt8 :=
  (if cfg.pscMask &&& 0x0002 ≠ 0 then [1, 0] else []) ++
  (if cfg.pscMask &&& 0x0004 ≠ 0 then [2, 0] else []) ++
  (if cfg.numCodec ≠ 0 then 7 :: infoElem cfg.codecInfo codecSize else []) ++
  (if cfg.numProtect ≠ 0 then 4 :: infoElem cfg.protectInfo protectSize else []) ++
  (if cfg.pscMask &&& 0x0100 ≠ 0 then [8, 0] else [])

/-- The error codes of the parser. -/
inductive ConfigErr where
  | length
  | category
  | payload
  | recovType
  | mediaTrans
  | recovFmt
  | rohcFmt
  | cpFmt
  | muxFmt
  | service
  deriving DecidableEq

/-- `avdt_msg_ie_len_min`, `avdt_msg_ie_len_max` and `avdt_msg_ie_err`, from the first category on. -/
def ieTable : List (Nat × Nat × ConfigErr) :=
  [(0, 0, .mediaTrans), (0, 0, .length), (3, 3, .recovFmt), (2, 255, .cpFmt), (1, 1, .rohcFmt),
    (3, 7, .muxFmt), (2, 255, .service), (0, 0, .service)]

/-- The variables of the parser: `p` is what is left, and `moved` how far it was moved. -/
structure Parser where
  cfg : SepConfig
  p : List UInt8
  moved : Nat
  protectOffset : Nat
  elem : UInt8

section

variable (parser : Parser)

def Parser.skip (count : Nat) : Parser :=
  { parser with p := parser.p.drop count, moved := parser.moved + count }

/-- The bit of the category is set in the mask. -/
def Parser.mark : Parser :=
  { parser with cfg := { parser.cfg with
      pscMask := parser.cfg.pscMask ||| (1 <<< UInt16.ofNat parser.elem.toNat) } }

/-- The case `AVDT_CAT_RECOV`. -/
def prsRecov : Option ConfigErr × Parser :=
  if parser.p.length < 3 then (some .payload, parser)
  else
    let type := parser.p.getD 0 0
    let mrws := parser.p.getD 1 0
    let mnmp := parser.p.getD 2 0
    let parser := { parser.skip 3 with
      cfg := { parser.cfg with recovType := type, recovMrws := mrws, recovMnmp := mnmp } }
    if type ≠ 1 then (some .recovType, parser)
    else if mrws < 0x01 ∨ mrws > 0x18 ∨ mnmp < 0x01 ∨ mnmp > 0x18 then (some .recovFmt, parser)
    else (none, parser)

/-- The case `AVDT_CAT_PROTECT`: the element is left out if the buffer is too small for it. -/
def prsProtect (elemLen : Nat) : Option ConfigErr × Parser :=
  let cfg := { parser.cfg with pscMask := parser.cfg.pscMask &&& ~~~0x0010 }
  if elemLen > parser.p.length then (some .length, { parser with cfg := cfg })
  else if elemLen + parser.protectOffset < protectSize then
    (none, { parser.skip elemLen with
      cfg := { cfg with
        numProtect := cfg.numProtect + 1
        protectInfo := L2cap.copyAt cfg.protectInfo parser.protectOffset
          (UInt8.ofNat elemLen :: parser.p.take elemLen) }
      protectOffset := parser.protectOffset + 1 + elemLen })
  else (none, { parser.skip elemLen with cfg := cfg })

/-- The case `AVDT_CAT_CODEC`: the element is cut to the size of the buffer. -/
def prsCodec (elemLen : Nat) : Option ConfigErr × Parser :=
  let cfg := { parser.cfg with pscMask := parser.cfg.pscMask &&& ~~~0x0080 }
  let tmp := if elemLen ≥ codecSize then codecSize - 1 else elemLen
  if tmp > parser.p.length then (some .length, { parser with cfg := cfg })
  else
    (none, { parser.skip elemLen with
      cfg := { cfg with
        numCodec := cfg.numCodec + 1
        codecInfo := L2cap.copyAt cfg.codecInfo 0 (UInt8.ofNat elemLen :: parser.p.take tmp) } })

/-- The switch over the categories. -/
def prsElem (elemLen : Nat) : Option ConfigErr × Parser :=
  if parser.elem = 3 then prsRecov parser.mark
  else if parser.elem = 4 then prsProtect protectSize parser.mark elemLen
  else if parser.elem = 5 then
    if parser.p.length < 1 then (some .payload, parser.mark)
    else
      (none, { parser.mark.skip 1 with
        cfg := { parser.mark.cfg with hdrcmpMask := parser.p.getD 0 0 } })
  else if parser.elem = 7 then prsCodec parser.mark elemLen
  else if parser.elem = 8 then (none, parser.mark)
  else (none, parser.mark.skip elemLen)

end

/-- The loop of the parser.  A configuration, unlike capabilities, has no unknown category. -/
def prsLoop (protectSize : Nat) (isConfig : Bool) : Nat → Parser → Option ConfigErr × Parser
  | 0, parser => (none, parser)
  | rounds + 1, parser =>
    match parser.p with
    | [] => (none, parser)
    | [_] => (some .payload, parser)
    | elem :: elemLen :: _ =>
      let parser := { parser.skip 2 with elem := elem }
      match ieTable[elem.toNat - 1]? with
      | none =>
        if isConfig then (some .category, parser)
        else prsLoop protectSize isConfig rounds (parser.skip elemLen.toNat)
      | some (least, most, err) =>
        if elem = 0 then
          if isConfig then (some .category, parser)
          else prsLoop protectSize isConfig rounds (parser.skip elemLen.toNat)
        else if elemLen.toNat > most ∨ elemLen.toNat < least then (some err, parser)
        else
          match prsElem protectSize parser elemLen.toNat with
          | (none, parser) => prsLoop protectSize isConfig rounds parser
          | (some err, parser) => (some err, parser)

/-- The parser before its loop. -/
def startParser (cfg : SepConfig) (p : List UInt8) : Parser :=
  ⟨{ cfg with pscMask := 0, numCodec := 0, numProtect := 0 }, p, 0, 0, 0⟩

/-- `avdt_msg_prs_cfg` into a configuration. -/
def avdtMsgPrsCfg (isConfig : Bool) (cfg : SepConfig) (p : List UInt8) :
    Option ConfigErr × Parser :=
  prsLoop protectSize isConfig p.length (startParser cfg p)

/-! ## Elements are taken back -/

/-- Some rounds, or any larger number of them, parse all that is left. -/
def Parses (isConfig : Bool) (parser final : Parser) : Prop :=
  ∀ rounds, parser.p.length ≤ rounds → prsLoop protectSize isConfig rounds parser = (none, final)

end

section

variable {protectSize : Nat} {isConfig : Bool} {final : Parser}

theorem parses_nil {parser : Parser} (empty : parser.p = []) :
    Parses protectSize isConfig parser parser := by
  intro rounds _
  cases rounds with
  | zero => rfl
  | succ rounds => rw [prsLoop, empty]

theorem Parses.element {parser next : Parser} {elem elemLen : UInt8} {rest : List UInt8}
    {least most : Nat} {err : ConfigErr} (bytes : parser.p = elem :: elemLen :: rest)
    (known : elem ≠ 0 ∧ ieTable[elem.toNat - 1]? = some (least, most, err))
    (sized : least ≤ elemLen.toNat ∧ elemLen.toNat ≤ most)
    (taken : prsElem protectSize { parser.skip 2 with elem := elem } elemLen.toNat = (none, next))
    (shorter : next.p.length ≤ rest.length) (parses : Parses protectSize isConfig next final) :
    Parses protectSize isConfig parser final := by
  intro rounds enough
  rw [bytes, length_cons, length_cons] at enough
  obtain ⟨rounds, rfl⟩ : ∃ fewer, rounds = fewer + 1 := ⟨rounds - 1, by omega⟩
  rw [prsLoop, bytes]
  dsimp only
  rw [known.2]
  dsimp only
  rw [if_neg known.1, if_neg (by omega), taken]
  exact parses rounds (by omega)

theorem Parses.flag {moved offset : Nat} {before elem : UInt8}
    {rest : List UInt8} (flag : elem = 1 ∨ elem = 2 ∨ elem = 8)
    (parses : Parses protectSize isConfig ⟨{ cfg with
      pscMask := cfg.pscMask ||| (1 <<< UInt16.ofNat elem.toNat) }, rest, moved + 2, offset, elem⟩
      final) :
    Parses protectSize isConfig ⟨cfg, elem :: 0 :: rest, moved, offset, before⟩ final := by
  rcases flag with rfl | rfl | rfl <;>
    exact .element rfl ⟨by decide, rfl⟩ ⟨by decide, by decide⟩ rfl (Nat.le_refl _) parses

/-- The bits of the three capabilities. -/
def pscBits (trans report delay : Bool) : UInt16 :=
  (if trans then 0x0002 else 0) ||| (if report then 0x0004 else 0) ||| (if delay then 0x0100 else 0)

theorem Parses.codec {moved offset : Nat} {before : UInt8}
    {info rest : List UInt8} (least : 2 ≤ info.length) (fits : info.length < codecSize)
    {trans report : Bool} (mask : cfg.pscMask = pscBits trans report false)
    (parses : Parses protectSize isConfig ⟨{ cfg with
      numCodec := cfg.numCodec + 1
      codecInfo := L2cap.copyAt cfg.codecInfo 0 (UInt8.ofNat info.length :: info) },
      rest, moved + 2 + info.length, offset, 7⟩ final) :
    Parses protectSize isConfig
      ⟨cfg, 7 :: UInt8.ofNat info.length :: (info ++ rest), moved, offset, before⟩ final := by
  have small : ¬info.length ≥ 20 := Nat.not_le.mpr fits
  have size : (UInt8.ofNat info.length).toNat = info.length := by
    rw [UInt8.toNat_ofNat']
    omega
  have bits : (cfg.pscMask ||| (1 : UInt16) <<< 7) &&& ~~~(0x0080 : UInt16) = cfg.pscMask := by
    rw [mask]
    cases trans <;> cases report <;> decide
  have inside : ¬info.length + rest.length < info.length := by omega
  refine @Parses.element protectSize isConfig final _ _ _ _ _ 2 255 .service rfl
    ⟨by decide, rfl⟩ ⟨by omega, by omega⟩ ?_ (length_append ▸ Nat.le_add_left _ _) parses
  change prsCodec _ _ = _
  rw [size, prsCodec]
  simp [Parser.mark, Parser.skip, codecSize, small, bits, inside]

theorem Parses.protect {moved : Nat} {before : UInt8}
    {info rest : List UInt8} (least : 2 ≤ info.length) (fits : info.length < protectSize)
    (byte : protectSize ≤ 256)
    {trans report : Bool} (mask : cfg.pscMask = pscBits trans report false)
    (parses : Parses protectSize isConfig ⟨{ cfg with
      numProtect := cfg.numProtect + 1
      protectInfo := L2cap.copyAt cfg.protectInfo 0 (UInt8.ofNat info.length :: info) },
      rest, moved + 2 + info.length, 1 + info.length, 4⟩ final) :
    Parses protectSize isConfig
      ⟨cfg, 4 :: UInt8.ofNat info.length :: (info ++ rest), moved, 0, before⟩ final := by
  have size : (UInt8.ofNat info.length).toNat = info.length := by
    rw [UInt8.toNat_ofNat']
    omega
  have bits : (cfg.pscMask ||| (1 : UInt16) <<< 4) &&& ~~~(0x0010 : UInt16) = cfg.pscMask := by
    rw [mask]
    cases trans <;> cases report <;> decide
  have inside : ¬info.length + rest.length < info.length := by omega
  refine @Parses.element protectSize isConfig final _ _ _ _ _ 2 255 .cpFmt rfl
    ⟨by decide, rfl⟩ ⟨by omega, by omega⟩ ?_ (length_append ▸ Nat.le_add_left _ _) parses
  change prsProtect _ _ _ = _
  rw [size, prsProtect]
  simp [Parser.mark, Parser.skip, fits, bits, inside]

end

/-! ## The round trip -/

/-- An element with its length in front, of at least two bytes, that fits its buffer. -/
structure Info (info : List UInt8) (size : Nat) : Prop where
  least : 2 ≤ (info.headD 0).toNat
  fits : (info.headD 0).toNat < size
  buffer : info.length = size

variable {size : Nat} {bytes : List UInt8}

theorem infoElem_append {rest : List UInt8} (fits : bytes.length < size) (byte : size ≤ 255) :
    infoElem (UInt8.ofNat bytes.length :: bytes ++ rest) size =
      UInt8.ofNat bytes.length :: bytes := by
  have next : (UInt8.ofNat bytes.length + 1).toNat = bytes.length + 1 := by
    rw [UInt8.toNat_add, UInt8.toNat_ofNat', Nat.mod_eq_of_lt (by omega : bytes.length < 2 ^ 8)]
    exact Nat.mod_eq_of_lt (by show bytes.length + 1 < 256; omega)
  rw [infoElem, cons_append, headD_cons, next, Nat.min_eq_left fits, take_succ_cons, take_left]

theorem Info.exists_bytes {info : List UInt8} (formed : Info info size) (byte : size ≤ 255) :
    ∃ bytes, infoElem info size = UInt8.ofNat bytes.length :: bytes ∧ 2 ≤ bytes.length ∧
      bytes.length < size := by
  obtain ⟨least, fits, buffer⟩ := formed
  cases info with
  | nil => exact absurd least (by decide)
  | cons head tail =>
    rw [headD_cons] at least fits
    rw [length_cons] at buffer
    have length : (tail.take head.toNat).length = head.toNat := by
      rw [length_take]
      omega
    have whole : head :: tail = UInt8.ofNat (tail.take head.toNat).length :: tail.take head.toNat ++
          tail.drop head.toNat := by
      rw [length, UInt8.ofNat_toNat, cons_append, take_append_drop]
    refine ⟨tail.take head.toNat, ?_, by omega, by omega⟩
    rw [whole, infoElem_append (by omega) byte]

/-- The parser goes on behind some bytes with another configuration. -/
def Takes (protectSize : Nat) (isConfig : Bool) (cfg : SepConfig) (offset : Nat)
    (bytes : List UInt8) (next : SepConfig) (nextOffset : Nat) : Prop :=
  ∀ rest moved before, ∃ elem, ∀ final,
    Parses protectSize isConfig ⟨next, rest, moved + bytes.length, nextOffset, elem⟩ final →
      Parses protectSize isConfig ⟨cfg, bytes ++ rest, moved, offset, before⟩ final

section

variable {protectSize : Nat} {isConfig : Bool} {cfg state : SepConfig} {offset : Nat}

theorem Takes.append {next last : SepConfig} {nextOffset lastOffset : Nat} {more : List UInt8}
    (first : Takes protectSize isConfig state offset bytes next nextOffset)
    (second : Takes protectSize isConfig next nextOffset more last lastOffset) :
    Takes protectSize isConfig state offset (bytes ++ more) last lastOffset := by
  intro rest moved before
  obtain ⟨elem, parses⟩ := first (more ++ rest) moved before
  obtain ⟨elem, further⟩ := second rest (moved + bytes.length) elem
  refine ⟨elem, fun final behind => ?_⟩
  rw [append_assoc]
  rw [length_append, ← Nat.add_assoc] at behind
  exact parses final (further final behind)

theorem Takes.nil : Takes protectSize isConfig state offset [] state offset :=
  fun _ _ before => ⟨before, fun _ parses => parses⟩

theorem Takes.flag {elem : UInt8} (flag : elem = 1 ∨ elem = 2 ∨ elem = 8) (sent : Bool) :
    Takes protectSize isConfig state offset (if sent then [elem, 0] else [])
      { state with pscMask :=
          state.pscMask ||| if sent then 1 <<< UInt16.ofNat elem.toNat else 0 } offset := by
  cases sent with
  | false =>
    rw [if_neg Bool.false_ne_true, if_neg Bool.false_ne_true, UInt16.or_zero]
    exact .nil
  | true => exact fun _ _ _ => ⟨elem, fun _ parses => .flag flag parses⟩

theorem Takes.codec {trans report : Bool} (mask : state.pscMask = pscBits trans report false)
    (none : state.numCodec = 0)
    (codecs : cfg.numCodec = 0 ∨ cfg.numCodec = 1 ∧ Info cfg.codecInfo codecSize) :
    ∃ info, Takes protectSize isConfig state offset
        (if cfg.numCodec ≠ 0 then 7 :: infoElem cfg.codecInfo codecSize else [])
        { state with numCodec := cfg.numCodec, codecInfo := info } offset ∧
      (cfg.numCodec ≠ 0 → infoElem info codecSize = infoElem cfg.codecInfo codecSize) := by
  rcases codecs with absent | ⟨one, formed⟩
  · refine ⟨state.codecInfo, ?_, fun sent => absurd absent sent⟩
    rw [if_neg (not_not.mpr absent), absent, ← none]
    exact .nil
  · obtain ⟨bytes, same, least, fits⟩ := formed.exists_bytes (by decide)
    refine ⟨L2cap.copyAt state.codecInfo 0 (UInt8.ofNat bytes.length :: bytes), ?_, fun _ => ?_⟩
    · rw [if_pos (by rw [one]; decide), same]
      intro rest moved before
      refine ⟨7, fun final parses => .codec least fits mask ?_⟩
      rw [none, UInt8.zero_add, ← one, Nat.add_assoc, Nat.add_comm 2]
      exact parses
    · rw [same]
      exact infoElem_append fits (by decide)

theorem Takes.protect {trans report : Bool} (mask : state.pscMask = pscBits trans report false)
    (none : state.numProtect = 0) (byte : protectSize ≤ 255)
    (protects : cfg.numProtect = 0 ∨ cfg.numProtect = 1 ∧ Info cfg.protectInfo protectSize) :
    ∃ info last, Takes protectSize isConfig state 0
        (if cfg.numProtect ≠ 0 then 4 :: infoElem cfg.protectInfo protectSize else [])
        { state with numProtect := cfg.numProtect, protectInfo := info } last ∧
      (cfg.numProtect ≠ 0 → infoElem info protectSize = infoElem cfg.protectInfo protectSize) := by
  rcases protects with absent | ⟨one, formed⟩
  · refine ⟨state.protectInfo, 0, ?_, fun sent => absurd absent sent⟩
    rw [if_neg (not_not.mpr absent), absent, ← none]
    exact .nil
  · obtain ⟨bytes, same, least, fits⟩ := formed.exists_bytes byte
    refine ⟨L2cap.copyAt state.protectInfo 0 (UInt8.ofNat bytes.length :: bytes), 1 + bytes.length, ?_,
      fun _ => ?_⟩
    · rw [if_pos (by rw [one]; decide), same]
      intro rest moved before
      refine ⟨4, fun final parses => .protect least fits (by omega) mask ?_⟩
      rw [none, UInt8.zero_add, ← one, Nat.add_assoc, Nat.add_comm 2]
      exact parses
    · rw [same]
      exact infoElem_append fits byte

end

/--
A message that was built from a configuration is parsed without an error and to its end.
The mask, the codec and the protection are those of the configuration.
-/
theorem config_roundTrip {protectSize : Nat} (byte : protectSize ≤ 255) {cfg : SepConfig}
    {trans report delay : Bool} (mask : cfg.pscMask = pscBits trans report delay)
    (codecs : cfg.numCodec = 0 ∨ cfg.numCodec = 1 ∧ Info cfg.codecInfo codecSize)
    (protects : cfg.numProtect = 0 ∨ cfg.numProtect = 1 ∧ Info cfg.protectInfo protectSize)
    (isConfig : Bool) (old : SepConfig) :
    ∃ final, avdtMsgPrsCfg protectSize isConfig old (avdtMsgBldCfg protectSize cfg) =
        (none, final) ∧ final.p = [] ∧ final.moved = (avdtMsgBldCfg protectSize cfg).length ∧
      final.cfg.pscMask = cfg.pscMask ∧ final.cfg.numCodec = cfg.numCodec ∧
      final.cfg.numProtect = cfg.numProtect ∧
      (cfg.numCodec ≠ 0 → infoElem final.cfg.codecInfo codecSize =
        infoElem cfg.codecInfo codecSize) ∧
      (cfg.numProtect ≠ 0 → infoElem final.cfg.protectInfo protectSize =
        infoElem cfg.protectInfo protectSize) := by
  have bits : (cfg.pscMask &&& 0x0002 ≠ 0 ↔ trans = true) ∧
      (cfg.pscMask &&& 0x0004 ≠ 0 ↔ report = true) ∧ (cfg.pscMask &&& 0x0100 ≠ 0 ↔ delay = true) := by
    rw [mask]
    cases trans <;> cases report <;> cases delay <;> decide
  have early : (0 : UInt16) ||| (if trans then 1 <<< UInt16.ofNat (1 : UInt8).toNat else 0) |||
      (if report then 1 <<< UInt16.ofNat (2 : UInt8).toNat else 0) = pscBits trans report false := by
    cases trans <;> cases report <;> decide
  have whole : pscBits trans report false |||
      (if delay then 1 <<< UInt16.ofNat (8 : UInt8).toNat else 0) = cfg.pscMask := by
    rw [mask]
    cases trans <;> cases report <;> cases delay <;> decide
  have built : avdtMsgBldCfg protectSize cfg =
      (if trans then [1, 0] else []) ++ (if report then [2, 0] else []) ++
        (if cfg.numCodec ≠ 0 then 7 :: infoElem cfg.codecInfo codecSize else []) ++
        (if cfg.numProtect ≠ 0 then 4 :: infoElem cfg.protectInfo protectSize else []) ++
        (if delay then [8, 0] else []) := by
    simp only [avdtMsgBldCfg, bits]
  obtain ⟨codecInfo, second, sameCodec⟩ := @Takes.codec protectSize isConfig cfg
    { (startParser old []).cfg with pscMask := _ } 0 trans report early rfl codecs
  obtain ⟨protectInfo, offset, third, sameProtect⟩ := @Takes.protect protectSize isConfig cfg
    { (startParser old []).cfg with
      pscMask := _, numCodec := cfg.numCodec, codecInfo := codecInfo }
    trans report early rfl byte protects
  have flags := (@Takes.flag protectSize isConfig (startParser old []).cfg 0 1 (.inl rfl)
    trans).append (.flag (.inr (.inl rfl)) report)
  obtain ⟨elem, parses⟩ := (((flags.append second).append third).append
    (.flag (.inr (.inr rfl)) delay)) [] 0 0
  have run := parses _ (parses_nil rfl)
  rw [append_nil] at run
  rw [built]
  refine ⟨_, run _ (Nat.le_refl _), rfl, Nat.zero_add _, ?_, rfl, rfl, sameCodec, sameProtect⟩
  exact (congrArg (· ||| _) early).trans whole

theorem config_roundTrip_sbc :
    ∃ final, avdtMsgPrsCfg avdtProtectSize true ⟨[], [], 0, 0, 0, 0, 0, 0, 0⟩
        (avdtMsgBldCfg avdtProtectSize
        ⟨[6, 0, 0, 0x21, 0x15, 2, 53] ++ List.replicate 13 0, [], 1, 0, 0x0102, 0, 0, 0, 0⟩) =
          (none, final) ∧ final.cfg.pscMask = 0x0102 := by
  obtain ⟨final, parsed, -, -, mask, -⟩ := @config_roundTrip avdtProtectSize (by decide)
    ⟨[6, 0, 0, 0x21, 0x15, 2, 53] ++ List.replicate 13 0, [], 1, 0, 0x0102, 0, 0, 0, 0⟩
    true false true rfl (.inr ⟨rfl, by decide, by decide, by decide⟩) (.inl rfl) true
    ⟨[], [], 0, 0, 0, 0, 0, 0, 0⟩
  exact ⟨final, parsed, mask⟩

/-- A codec of one byte fits its buffer and is refused by the parser. -/
theorem short_codec_refused :
    (avdtMsgPrsCfg avdtProtectSize true ⟨[], [], 0, 0, 0, 0, 0, 0, 0⟩ (avdtMsgBldCfg avdtProtectSize
      ⟨1 :: List.replicate 19 0, [], 1, 0, 0x0002, 0, 0, 0, 0⟩)).1 = some .service := by
  decide

end BluetoothFormal.Av.Avdt
