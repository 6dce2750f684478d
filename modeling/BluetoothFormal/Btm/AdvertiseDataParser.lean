import Mathlib.Data.List.Basic

/-!
# Fields of advertising data

Each field starts with its length.  A length of zero starts the padding.  A field that would end
behind the data is malformed, but one device that sends such a field is excused.  A pointer into
the data is the rest of it.
-/

namespace BluetoothFormal.Btm.AdvertiseDataParser

open List

variable {a rest value back : List UInt8} {len kind type : UInt8} {quirk : List UInt8 → Bool}

def trxQuirk : List UInt8 :=
  [0x14, 0x09, 0x54, 0xFF, 0xFF, 0x20, 0x42, 0x4C, 0x45, 0x05, 0x12, 0xFF, 0x00, 0xE8, 0x03, 0x02,
    0x0A, 0x00]

/-- The test of the data from the malformed field on. -/
def malformedPacketQuirk (ad : List UInt8) : Bool :=
  18 ≤ ad.length && ad.take 3 == trxQuirk.take 3 &&
    (ad.drop 5).take 6 == (trxQuirk.drop 5).take 6 &&
    (ad.drop 12).take 6 == (trxQuirk.drop 12).take 6

theorem shorter {n : Nat} : (rest.drop n).length < (len :: rest).length := by
  rw [length_drop, length_cons]
  omega

def removeTrailingZeros : List UInt8 → List UInt8
  | [] => []
  | len :: rest =>
    if len = 0 then [] else if rest.length < len.toNat then len :: rest
    else len :: rest.take len.toNat ++ removeTrailingZeros (rest.drop len.toNat)
termination_by ad => ad.length
decreasing_by exact shorter

/-- `IsValid`, with the test that excuses a malformed field. -/
def isValid (quirk : List UInt8 → Bool) : List UInt8 → Bool
  | [] => true
  | len :: rest =>
    if len = 0 then rest.all (· == 0)
    else if rest.length < len.toNat then quirk (len :: rest)
    else isValid quirk (rest.drop len.toNat)
termination_by ad => ad.length
decreasing_by exact shorter

/-- The place of the first field of the type, and its length. -/
def getFieldByType (type : UInt8) : List UInt8 → Option (List UInt8 × Nat)
  | [] => none
  | len :: rest =>
    if len = 0 then none else if rest.length < len.toNat then none
    else if rest.headD 0 = type then some (rest.tail, len.toNat - 1)
    else getFieldByType type (rest.drop len.toNat)
termination_by ad => ad.length
decreasing_by exact shorter

/-- The bytes of the field that `GetFieldByType` returns. -/
def fieldOf (type : UInt8) (ad : List UInt8) : Option (List UInt8) :=
  (getFieldByType type ad).map fun found => found.1.take found.2

theorem isValid_of_strict (valid : isValid (fun _ => false) a = true) : isValid quirk a = true := by
  fun_induction isValid quirk a <;> simp_all [isValid]
  exact valid

theorem exists_field (nonzero : len ≠ 0) (fits : ¬rest.length < len.toNat) :
    ∃ kind value back, rest = kind :: (value ++ back) ∧ len.toNat = value.length + 1 := by
  have positive : len.toNat ≠ 0 := fun zero => nonzero (UInt8.toNat_inj.mp zero)
  cases rest with
  | nil => exact absurd (Nat.pos_of_ne_zero positive) fits
  | cons kind rest =>
    refine ⟨kind, rest.take (len.toNat - 1), rest.drop (len.toNat - 1), by simp, ?_⟩
    simp at fits ⊢
    omega

theorem getFieldByType_field (nonzero : len ≠ 0) (size : len.toNat = value.length + 1) :
    getFieldByType type (len :: kind :: (value ++ back)) =
      if kind = type then some (value ++ back, value.length) else getFieldByType type back := by
  rw [getFieldByType, if_neg nonzero, if_neg (by simp [size])]
  simp [size]

/-- A string is glued behind another one without padding between them. -/
theorem removeTrailingZeros_append (a b : List UInt8)
    (first : isValid (fun _ => false) a = true) (second : isValid (fun _ => false) b = true) :
    isValid malformedPacketQuirk (removeTrailingZeros a ++ b) = true ∧
      ∀ type, fieldOf type (removeTrailingZeros a ++ b) = (fieldOf type a).or (fieldOf type b) := by
  fun_induction removeTrailingZeros a with
  | case1 | case2 => simp [isValid_of_strict second, fieldOf, getFieldByType]
  | case3 len rest nonzero short => simp [isValid, nonzero, short] at first
  | case4 len rest nonzero fits ih =>
    rw [isValid, if_neg nonzero, if_neg fits] at first
    obtain ⟨valid, found⟩ := ih first
    obtain ⟨kind, value, back, rfl, size⟩ := exists_field nonzero fits
    simp only [size, take_succ_cons, drop_succ_cons, take_left, drop_left, cons_append,
      append_assoc] at valid found ⊢
    refine ⟨?_, fun type => ?_⟩
    · rw [isValid, if_neg nonzero, if_neg (by simp [size])]
      simp [size, valid]
    · rw [fieldOf, fieldOf, getFieldByType_field nonzero size, getFieldByType_field nonzero size]
      split
      · simp
      · exact found type

theorem removeTrailingZeros_append_padded :
    isValid malformedPacketQuirk (removeTrailingZeros [2, 1, 6, 0] ++ [1, 9]) = true :=
  (removeTrailingZeros_append [2, 1, 6, 0] [1, 9] (by simp [isValid]) (by simp [isValid])).1

/-! ## Targeted announcements -/

def serviceData : UInt8 := 0x16

def isUuid (low high : UInt8) : Bool :=
  low.toNat + 256 * high.toNat = 0x184E || low.toNat + 256 * high.toNat = 0x1853

/-- What is read at a field, if it is inside of the string. -/
def announced : List UInt8 → Option Bool
  | low :: high :: rest => if isUuid low high then rest.head?.map (· == 1) else some false
  | _ => none

theorem getFieldByType_behind {data : List UInt8} {length : Nat}
    (found : getFieldByType type a = some (data, length)) : data.length < a.length := by
  fun_induction getFieldByType type a <;> grind

/-- Nothing, if a byte outside of the string is read. -/
def isTargetedAnnouncement (ad : List UInt8) : Option Bool :=
  match _ : getFieldByType serviceData ad with
  | none => some false
  | some (data, length) =>
    if length < 1 then isTargetedAnnouncement (data.drop length)
    else match announced data with
      | some false => isTargetedAnnouncement (data.drop length)
      | read => read
termination_by ad.length
decreasing_by all_goals
  have := getFieldByType_behind ‹getFieldByType serviceData ad = _›
  simp
  omega

/-- The fields before a malformed one, with their types. -/
def fields : List UInt8 → List (UInt8 × List UInt8 × Nat)
  | [] => []
  | len :: rest =>
    if len = 0 then [] else if rest.length < len.toNat then []
    else (rest.headD 0, rest.tail, len.toNat - 1) :: fields (rest.drop len.toNat)
termination_by ad => ad.length
decreasing_by exact shorter

def isAnnouncement : List UInt8 → Bool
  | low :: high :: type :: _ => isUuid low high && type == 1
  | _ => false

def announces (ad : List UInt8) : Bool :=
  (fields ad).any fun (kind, data, length) =>
    kind == serviceData && isAnnouncement (data.take length)

/-- What is read at a field of one or two bytes is no announcement. -/
def ShortHarmless (ad : List UInt8) : Prop :=
  ∀ data length, (serviceData, data, length) ∈ fields ad → length = 1 ∨ length = 2 →
    announced data = some false

theorem announced_append (long : 3 ≤ value.length) :
    announced (value ++ back) = some (isAnnouncement value) := by
  match value, long with
  | low :: high :: type :: rest, _ =>
    cases known : isUuid low high <;> simp [announced, isAnnouncement, known]

theorem long_of_isAnnouncement (announcement : isAnnouncement a = true) : 3 ≤ a.length := by
  match a, announcement with
  | low :: high :: type :: rest, _ => simp

theorem fields_field (nonzero : len ≠ 0) (size : len.toNat = value.length + 1) :
    fields (len :: kind :: (value ++ back)) =
      (kind, value ++ back, value.length) :: fields back := by
  rw [fields, if_neg nonzero, if_neg (by simp [size])]
  simp [size]

theorem long_of_announces (found : announces a = true) : 3 ≤ a.length := by
  fun_induction fields a with
  | case1 | case2 | case3 => simp_all [announces, fields]
  | case4 len rest nonzero fits ih =>
    obtain ⟨kind, value, back, rfl, size⟩ := exists_field nonzero fits
    simp only [size, drop_succ_cons, drop_left, announces, fields_field nonzero size] at ih found
    grind [long_of_isAnnouncement]

/--
The answer is right, from bytes of the string, exactly if there is an announcement or each short
field is harmless.
-/
theorem isTargetedAnnouncement_iff (ad : List UInt8) :
    isTargetedAnnouncement ad = some (announces ad) ↔
      (announces ad = false → ShortHarmless ad) := by
  fun_induction fields ad with
  | case1 | case2 | case3 =>
    rw [isTargetedAnnouncement]
    split <;> simp_all [announces, ShortHarmless, fields, getFieldByType]
  | case4 len rest nonzero fits ih =>
    obtain ⟨kind, value, back, rfl, size⟩ := exists_field nonzero fits
    have field := @getFieldByType_field value back len kind serviceData nonzero size
    have here := isTargetedAnnouncement.eq_1 (len :: kind :: (value ++ back))
    have next := isTargetedAnnouncement.eq_1 back
    have read := @announced_append (value ++ back) []
    have whole := @announced_append value back
    have later := @long_of_announces back
    simp only [size, drop_succ_cons, drop_left, ShortHarmless, announces, fields_field nonzero size,
      append_nil] at ih read later ⊢
    -- The string may end at the field, or the field may look like an announcement, or not.
    rcases answer : announced (value ++ back) with _ | _ | _ <;> grind [long_of_isAnnouncement]

/-- One byte of a UUID, at the end of the string and before bytes that complete it. -/
theorem short_field_misread :
    isTargetedAnnouncement [2, 0x16, 0x4E] = none ∧
      isTargetedAnnouncement [2, 0x16, 0x4E, 0x18, 1] = some true ∧
        announces [2, 0x16, 0x4E, 0x18, 1] = false := by
  decide +kernel

/-! ## Strings of fields -/

/-- Fields of at most 254 bytes behind their types, each with its length in front. -/
def encode (contents : List (UInt8 × List UInt8)) : List UInt8 :=
  contents.flatMap fun (kind, value) => UInt8.ofNat (value.length + 1) :: kind :: value

theorem encode_read {contents : List (UInt8 × List UInt8)}
    (short : ∀ field ∈ contents, field.2.length ≤ 254) (padding : Nat) :
    isValid (fun _ => false) (encode contents ++ replicate padding 0) = true ∧
      removeTrailingZeros (encode contents ++ replicate padding 0) = encode contents ∧
      ∀ type, fieldOf type (encode contents ++ replicate padding 0) = contents.lookup type := by
  induction contents with
  | nil =>
    cases padding <;>
      simp [encode, isValid, removeTrailingZeros, fieldOf, getFieldByType, replicate_succ]
  | cons field rest ih =>
    obtain ⟨kind, value⟩ := field
    have small : value.length ≤ 254 := short _ mem_cons_self
    obtain ⟨valid, trimmed, found⟩ := ih fun field listed => short field (mem_cons_of_mem _ listed)
    have size : (UInt8.ofNat (value.length + 1)).toNat = value.length + 1 := by
      rw [UInt8.toNat_ofNat']
      omega
    have string : encode ((kind, value) :: rest) =
        UInt8.ofNat (value.length + 1) :: kind :: (value ++ encode rest) := rfl
    generalize UInt8.ofNat (value.length + 1) = len at size string
    have nonzero : len ≠ 0 := fun zero => by simp [zero] at size
    rw [string, cons_append, cons_append, append_assoc]
    refine ⟨?_, ?_, fun type => ?_⟩
    · rw [isValid, if_neg nonzero, if_neg (by simp [size])]
      simp [size, valid]
    · rw [removeTrailingZeros, if_neg nonzero, if_neg (by simp [size])]
      simp [size, trimmed]
    · rw [fieldOf, getFieldByType_field nonzero size, lookup_cons]
      by_cases same : type = kind
      · subst same
        simp
      · rw [if_neg (Ne.symm same), beq_false_of_ne same]
        exact found type

/--
The strings without a malformed field are those of fields with padding behind them.  From each of
them the padding is removed, and the first field of every type is found.
-/
theorem isValid_iff_encoded (ad : List UInt8) :
    isValid (fun _ => false) ad = true ↔
      ∃ contents padding, (∀ field ∈ contents, field.2.length ≤ 254) ∧
        ad = encode contents ++ replicate padding 0 ∧ removeTrailingZeros ad = encode contents ∧
        ∀ type, fieldOf type ad = contents.lookup type := by
  constructor
  · intro valid
    obtain ⟨contents, padding, short, rfl⟩ : ∃ contents padding,
        (∀ field ∈ contents, field.2.length ≤ 254) ∧
          ad = encode contents ++ replicate padding 0 := by
      fun_induction isValid (fun _ => false) ad with
      | case1 => exact ⟨[], 0, by simp, rfl⟩
      | case2 rest =>
        refine ⟨[], rest.length + 1, by simp, ?_⟩
        simp only [encode, flatMap_nil, nil_append, replicate_succ]
        rw [← eq_replicate_of_mem fun byte listed => eq_of_beq (all_eq_true.mp valid byte listed)]
      | case3 => cases valid
      | case4 len rest nonzero fits ih =>
        obtain ⟨contents, padding, short, ahead⟩ := ih valid
        obtain ⟨kind, value, back, rfl, size⟩ := exists_field nonzero fits
        refine ⟨(kind, value) :: contents, padding, ?_, ?_⟩
        · have byte := len.toNat_lt
          simp only [forall_mem_cons]
          exact ⟨by omega, short⟩
        · simp only [size, drop_succ_cons, drop_left] at ahead
          change _ = UInt8.ofNat (value.length + 1) :: kind :: (value ++ encode contents) ++ _
          rw [← size, UInt8.ofNat_toNat, ahead, cons_append, cons_append, append_assoc]
    obtain ⟨-, trimmed, found⟩ := encode_read short padding
    exact ⟨contents, padding, short, rfl, trimmed, found⟩
  · rintro ⟨contents, padding, short, rfl, -⟩
    exact (encode_read short padding).1

end BluetoothFormal.Btm.AdvertiseDataParser
