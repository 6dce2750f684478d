import BluetoothFormal.Smp.Multiprecision

/-!
# The non-adjacent form of a scalar

`ECC_NAF` recodes a scalar with the digits 0, 1 and -1, least significant first.  A
digit takes two bits of an array of bytes, and -1 is written as 3.  The scalar is
halved in place.  The words behind it are not part of the array: a carry out of the
last word has no result here.
-/

namespace BluetoothFormal.Smp.NonAdjacentForm

open Foundation.WordArithmetic Smp.Multiprecision List Option

/-! ## The code -/

/-- `multiprecision_dword_bits` with `i` shifts done and some left. -/
def dwordBitsLoop : Nat → Nat → UInt32 → Nat
  | 0, i, _ => i
  | left + 1, i, a => if a = 0 then i else dwordBitsLoop left (i + 1) (a >>> 1)

def multiprecisionDwordBits (a : UInt32) : Nat := dwordBitsLoop 32 0 a

/-- `multiprecision_most_signdwords`: the number of words up to the last one that is not zero. -/
def multiprecisionMostSigndwords : List UInt32 → Nat
  | [] => 0
  | a :: rest =>
    if multiprecisionMostSigndwords rest = 0 then (if a = 0 then 0 else 1)
    else multiprecisionMostSigndwords rest + 1

def multiprecisionMostSignbits (a : List UInt32) : Nat :=
  let aMostSignDwords := multiprecisionMostSigndwords a
  if aMostSignDwords = 0 then 0
  else (aMostSignDwords - 1) * 32 + multiprecisionDwordBits (a.getD (aMostSignDwords - 1) 0)

/-- The loop of `multiprecision_rshift` down to the first word given, and its carrier. -/
def rshiftLoop : List UInt32 → List UInt32 × UInt32
  | [] => ([], 0)
  | a :: rest =>
    let (shifted, carrier) := rshiftLoop rest
    ((a >>> 1 ||| carrier) :: shifted, a <<< 31)

section

variable (a : List UInt32)

def multiprecisionRshift : List UInt32 := (rshiftLoop a).1

/-- The loop that carries into the words from `k[1]` on. -/
def carryLoop : List UInt32 → Option (List UInt32)
  | [] => none
  | word :: rest =>
    if word + 1 = 0 then (carryLoop rest).map fun rest => (word + 1) :: rest
    else some ((word + 1) :: rest)

/-- The digit of a scalar, and the scalar less the digit. -/
def takeDigit : List UInt32 → Option (UInt32 × List UInt32)
  | [] => none
  | k0 :: rest =>
    if k0 &&& 0x01 ≠ 0 then
      let sign := k0 &&& 0x03
      if sign = 1 then some (sign, (k0 &&& 0xFFFFFFFE) :: rest)
      else if k0 + 1 = 0 then (carryLoop rest).map fun rest => (sign, (k0 + 1) :: rest)
      else some (sign, (k0 + 1) :: rest)
    else some (0, k0 :: rest)

/-- `naf[i / 4] |= sign << ((i % 4) * 2)`. -/
def writeDigit (naf : List UInt8) (i : Nat) (sign : UInt32) : Option (List UInt8) :=
  naf[i / 4]?.map fun byte =>
    naf.set (i / 4) (byte ||| (sign <<< UInt32.ofNat (i % 4 * 2)).toUInt8)

/-- The loop of `ECC_NAF`, with the number of digits written. -/
def nafLoop : Nat → List UInt8 → Nat → List UInt32 → Option (List UInt8 × Nat)
  | 0, _, _, _ => none
  | fuel + 1, naf, i, k =>
    if 1 ≤ multiprecisionMostSignbits k then do
      let (sign, k) ← takeDigit k
      let naf ← writeDigit naf i sign
      nafLoop fuel naf (i + 1) (multiprecisionRshift k)
    else some (naf, i)

/-- The array `naf` as `ECC_PointMult_Bin_NAF` clears it. -/
def clearNaf : List UInt8 := List.replicate (256 / 4 + 1) 0

/-- `ECC_NAF` on the cleared array; a scalar has at most 257 digits. -/
def eccNaf (k : Dwords) : Option (List UInt8 × Nat) := nafLoop 258 clearNaf 0 k.digits

/-- `(naf[i / 4] >> ((i % 4) * 2)) & 0x03`. -/
def readDigit (naf : List UInt8) (i : Nat) : UInt32 :=
  ((naf.getD (i / 4) 0).toUInt32 >>> UInt32.ofNat (i % 4 * 2)) &&& 0x03

/-! ## Words -/

theorem le_dwordBitsLoop (left i : Nat) (a : UInt32) : i ≤ dwordBitsLoop left i a := by
  induction left generalizing i a with
  | zero => exact Nat.le_refl i
  | succ left ih =>
    unfold dwordBitsLoop
    split
    · exact Nat.le_refl i
    · exact Nat.le_of_succ_le (ih (i + 1) _)

theorem mostSigndwords_eq_zero_iff : multiprecisionMostSigndwords a = 0 ↔ wordsValue a = 0 := by
  induction a with
  | nil => exact Iff.rfl
  | cons word rest ih =>
    have zero : word = 0 ↔ word.toNat = 0 := by
      rw [← UInt32.toNat_inj]
      rfl
    rw [multiprecisionMostSigndwords, wordsValue_cons]
    by_cases empty : wordsValue rest = 0
    · rw [if_pos (ih.mpr empty), empty]
      by_cases none : word = 0
      · rw [if_pos none, zero.mp none]
        omega
      · rw [if_neg none]
        have some := mt zero.mpr none
        omega
    · rw [if_neg (mt ih.mp empty)]
      omega

theorem getD_mostSigndwords_ne_zero {a : List UInt32} (some : wordsValue a ≠ 0) :
    a.getD (multiprecisionMostSigndwords a - 1) 0 ≠ 0 := by
  induction a with
  | nil => exact absurd rfl some
  | cons word rest ih =>
    rw [multiprecisionMostSigndwords]
    by_cases empty : wordsValue rest = 0
    · have only : word ≠ 0 := by
        rintro rfl
        rw [wordsValue_cons, empty] at some
        exact some rfl
      rw [if_pos ((mostSigndwords_eq_zero_iff rest).mpr empty), if_neg only]
      exact only
    · have more := mt (mostSigndwords_eq_zero_iff rest).mp empty
      rw [if_neg more, Nat.add_sub_cancel]
      obtain ⟨count, counted⟩ := Nat.exists_eq_succ_of_ne_zero more
      have last := ih empty
      rw [counted] at last ⊢
      exact last

theorem mostSignbits_pos_iff (k : List UInt32) :
    1 ≤ multiprecisionMostSignbits k ↔ wordsValue k ≠ 0 := by
  unfold multiprecisionMostSignbits
  by_cases zero : wordsValue k = 0
  · rw [if_pos ((mostSigndwords_eq_zero_iff k).mpr zero)]
    exact ⟨fun positive => absurd positive (by decide), fun some => absurd zero some⟩
  · rw [if_neg (mt (mostSigndwords_eq_zero_iff k).mp zero)]
    refine ⟨fun _ => zero, fun _ => ?_⟩
    have bits : 1 ≤ multiprecisionDwordBits (k.getD (multiprecisionMostSigndwords k - 1) 0) := by
      unfold multiprecisionDwordBits dwordBitsLoop
      rw [if_neg (getD_mostSigndwords_ne_zero zero)]
      exact le_dwordBitsLoop 31 1 _
    omega

theorem rshift_word (a b : UInt32) :
    (a >>> 1 ||| b <<< 31).toNat = a.toNat / 2 + 2 ^ 31 * (b.toNat % 2) := by
  have aLt := a.toNat_lt
  have low : (a >>> 1).toNat = a.toNat / 2 := by
    rw [UInt32.toNat_shiftRight]
    exact Nat.shiftRight_eq_div_pow a.toNat 1
  have high : (b <<< 31).toNat = 2 ^ 31 * (b.toNat % 2) := by
    rw [UInt32.toNat_shiftLeft]
    change b.toNat <<< 31 % 2 ^ 32 = _
    rw [Nat.shiftLeft_eq]
    omega
  rw [UInt32.toNat_or, low, high, Nat.or_comm, ← Nat.two_pow_add_eq_or_of_lt (by omega)]
  omega

theorem rshiftLoop_carrier :
    ∃ b : UInt32, (rshiftLoop a).2 = b <<< 31 ∧ b.toNat % 2 = wordsValue a % 2 := by
  cases a with
  | nil => exact ⟨0, rfl, rfl⟩
  | cons word rest =>
    refine ⟨word, rfl, ?_⟩
    rw [wordsValue_cons]
    omega

theorem length_multiprecisionRshift : (multiprecisionRshift a).length = a.length := by
  unfold multiprecisionRshift
  induction a with
  | nil => rfl
  | cons word rest ih => rw [rshiftLoop, length_cons, length_cons, ih]

theorem multiprecisionRshift_value : wordsValue (multiprecisionRshift a) = wordsValue a / 2 := by
  unfold multiprecisionRshift
  induction a with
  | nil => rfl
  | cons word rest ih =>
    obtain ⟨b, carrier, bit⟩ := rshiftLoop_carrier rest
    rw [rshiftLoop, wordsValue_cons, wordsValue_cons, carrier, ih, rshift_word]
    omega

end

theorem carryLoop_value {words : List UInt32}
    (room : wordsValue words + 1 < 2 ^ (32 * words.length)) :
    ∃ next, carryLoop words = some next ∧ next.length = words.length ∧
      wordsValue next = wordsValue words + 1 := by
  induction words with
  | nil => exact absurd room (by decide)
  | cons word rest ih =>
    have wordLt := word.toNat_lt
    have sum : (word + 1).toNat = (word.toNat + 1) % 2 ^ 32 := UInt32.toNat_add word 1
    have wraps : word + 1 = 0 ↔ word.toNat + 1 = 2 ^ 32 := by
      rw [← UInt32.toNat_inj, sum]
      change _ = 0 ↔ _
      omega
    rw [length_cons, Nat.mul_succ, add_comm (32 * rest.length), pow_add, wordsValue_cons] at room
    unfold carryLoop
    by_cases overflow : word + 1 = 0
    · have full := wraps.mp overflow
      have above : wordsValue rest + 1 < 2 ^ (32 * rest.length) := by
        generalize 2 ^ (32 * rest.length) = range at room ⊢
        omega
      obtain ⟨next, carried, same, value⟩ := ih above
      rw [if_pos overflow, carried]
      refine ⟨_, rfl, by rw [length_cons, length_cons, same], ?_⟩
      rw [wordsValue_cons, wordsValue_cons, value, sum]
      omega
    · have kept := mt wraps.mpr overflow
      rw [if_neg overflow]
      refine ⟨_, rfl, rfl, ?_⟩
      rw [wordsValue_cons, wordsValue_cons, sum]
      omega

/-! ## Digits -/

def digitOf (number : Nat) : UInt32 :=
  if number % 2 = 0 then 0 else if number % 4 = 1 then 1 else 3

def afterDigit (number : Nat) : Nat :=
  if number % 4 = 3 then (number + 1) / 2 else number / 2

/-- The digits of a number, least significant first. -/
def nafDigits : Nat → Nat → List UInt32
  | 0, _ => []
  | fuel + 1, number =>
    if number = 0 then [] else digitOf number :: nafDigits fuel (afterDigit number)

/-- The integer that a digit stands for. -/
def signOf (digit : UInt32) : Int := if digit = 1 then 1 else if digit = 3 then -1 else 0

theorem digitOf_lt (number : Nat) : (digitOf number).toNat < 4 := by
  unfold digitOf
  split
  · decide
  · split <;> decide

theorem afterDigit_add (number : Nat) :
    (number : Int) = 2 * afterDigit number + signOf (digitOf number) := by
  unfold afterDigit digitOf
  by_cases even : number % 2 = 0
  · rw [if_pos even, if_neg (by omega)]
    change (number : Int) = 2 * (number / 2 : Nat) + 0
    omega
  · rw [if_neg even]
    by_cases one : number % 4 = 1
    · rw [if_pos one, if_neg (by omega)]
      change (number : Int) = 2 * (number / 2 : Nat) + 1
      omega
    · rw [if_neg one, if_pos (by omega)]
      change (number : Int) = 2 * ((number + 1) / 2 : Nat) + -1
      omega

theorem low_and_one (word : UInt32) : word &&& 0x01 ≠ 0 ↔ word.toNat % 2 = 1 := by
  rw [Ne, ← UInt32.toNat_inj, UInt32.toNat_and]
  change ¬ word.toNat &&& 1 = 0 ↔ _
  rw [Nat.and_one_is_mod]
  omega

theorem low_and_three (word : UInt32) : (word &&& 0x03).toNat = word.toNat % 4 := by
  rw [UInt32.toNat_and]
  exact Nat.and_two_pow_sub_one_eq_mod word.toNat 2

theorem clear_low_bit (word : UInt32) : (word &&& 0xFFFFFFFE).toNat = 2 * (word.toNat / 2) := by
  have wordLt := word.toNat_lt
  rw [UInt32.toNat_and]
  change word.toNat &&& 0xFFFFFFFE = _
  have half : (word.toNat &&& 0xFFFFFFFE) / 2 = word.toNat / 2 := by
    rw [Nat.and_div_two]
    change word.toNat / 2 &&& 2 ^ 31 - 1 = _
    rw [Nat.and_two_pow_sub_one_eq_mod]
    omega
  have even : (word.toNat &&& 0xFFFFFFFE) % 2 = 0 := by
    rw [← Nat.and_one_is_mod, Nat.and_assoc]
    exact Nat.and_zero word.toNat
  omega

theorem takeDigit_value {k : List UInt32} (some : k ≠ [])
    (room : wordsValue k + 1 < 2 ^ (32 * k.length)) :
    ∃ next, takeDigit k = .some (digitOf (wordsValue k), next) ∧ next.length = k.length ∧
      wordsValue next / 2 = afterDigit (wordsValue k) := by
  cases k with
  | nil => exact absurd rfl some
  | cons k0 rest =>
    obtain ⟨incremented, carried, same, value⟩ := carryLoop_value room
    have low := low_and_three k0
    have number := wordsValue_cons k0 rest
    by_cases odd : k0.toNat % 2 = 1
    · have oddBit := (low_and_one k0).mpr odd
      by_cases one : k0.toNat % 4 = 1
      · have sign : k0 &&& 0x03 = 1 := by
          rw [← UInt32.toNat_inj, low]
          exact one
        have digit : digitOf (wordsValue (k0 :: rest)) = 1 := by
          rw [digitOf, if_neg (by omega), if_pos (by omega)]
        have after : afterDigit (wordsValue (k0 :: rest)) = wordsValue (k0 :: rest) / 2 :=
          if_neg (by omega)
        rw [digit, after, takeDigit, if_pos oddBit, if_pos sign, sign]
        refine ⟨_, rfl, rfl, ?_⟩
        rw [wordsValue_cons, wordsValue_cons, clear_low_bit]
        omega
      · have sign : k0 &&& 0x03 = 3 := by
          rw [← UInt32.toNat_inj, low]
          change _ = 3
          omega
        have other : ¬ k0 &&& 0x03 = 1 := by
          rw [sign]
          decide
        have digit : digitOf (wordsValue (k0 :: rest)) = 3 := by
          rw [digitOf, if_neg (by omega), if_neg (by omega)]
        have after : afterDigit (wordsValue (k0 :: rest)) =
            (wordsValue (k0 :: rest) + 1) / 2 := if_pos (by omega)
        -- the whole scalar is incremented, with a carry out of the first word or without one
        have increment : takeDigit (k0 :: rest) =
            (carryLoop (k0 :: rest)).map fun next => ((3 : UInt32), next) := by
          rw [takeDigit, if_pos oddBit, if_neg other, sign, carryLoop]
          split
          · rw [Option.map_map]
            rfl
          · rfl
        rw [digit, after, increment, carried]
        exact ⟨incremented, rfl, same, by rw [value]⟩
    · have digit : digitOf (wordsValue (k0 :: rest)) = 0 := if_pos (by omega)
      have after : afterDigit (wordsValue (k0 :: rest)) = wordsValue (k0 :: rest) / 2 :=
        if_neg (by omega)
      rw [digit, after, takeDigit, if_neg (mt (low_and_one k0).mp odd)]
      exact ⟨_, rfl, rfl, rfl⟩

/-! ## The array of digits -/

theorem slot_read : ∀ sign < 4, ∀ slot < 4, ∀ other < 4,
    ((sign <<< (slot * 2)) >>> (other * 2)) % 2 ^ 2 = if other = slot then sign else 0 := by
  decide

theorem slot_write (byte : Nat) {sign : Nat} (small : sign < 4) {slot other : Nat}
    (inside : slot < 4) (within : other < 4) :
    ((byte ||| sign <<< (slot * 2)) >>> (other * 2)) % 4 =
      if other = slot then (byte >>> (slot * 2)) % 4 ||| sign else (byte >>> (other * 2)) % 4 := by
  have both : ((byte ||| sign <<< (slot * 2)) >>> (other * 2)) % 2 ^ 2 =
      (byte >>> (other * 2)) % 2 ^ 2 ||| if other = slot then sign else 0 := by
    rw [Nat.shiftRight_or_distrib, Nat.or_mod_two_pow, slot_read sign small slot inside other within]
  by_cases same : other = slot
  · rw [if_pos same, same] at both
    rw [if_pos same, same]
    exact both
  · rw [if_neg same, Nat.or_zero] at both
    rw [if_neg same]
    exact both

variable {i : Nat} {sign : UInt32}

theorem slot_shift : (UInt32.ofNat (i % 4 * 2)).toNat % 32 = i % 4 * 2 := by
  rw [UInt32.toNat_ofNat']
  omega

theorem readDigit_toNat (naf : List UInt8) (i : Nat) :
    (readDigit naf i).toNat = ((naf.getD (i / 4) 0).toNat >>> (i % 4 * 2)) % 4 := by
  rw [readDigit, low_and_three, UInt32.toNat_shiftRight, slot_shift, UInt8.toNat_toUInt32]

theorem slotBits_toNat (small : sign.toNat < 4) (i : Nat) :
    (sign <<< UInt32.ofNat (i % 4 * 2)).toUInt8.toNat = sign.toNat <<< (i % 4 * 2) := by
  have slot : i % 4 < 4 := Nat.mod_lt i (by decide)
  have fits : ∀ digit < 4, ∀ slot < 4, digit <<< (slot * 2) < 256 := by decide
  have below := fits sign.toNat small (i % 4) slot
  rw [UInt32.toNat_toUInt8, UInt32.toNat_shiftLeft, slot_shift]
  generalize sign.toNat <<< (i % 4 * 2) = bits at below ⊢
  omega

theorem writeDigit_read {naf : List UInt8} (inside : i / 4 < naf.length) (small : sign.toNat < 4)
    (free : readDigit naf i = 0) :
    ∃ next, writeDigit naf i sign = some next ∧ next.length = naf.length ∧
      readDigit next i = sign ∧ ∀ j, j ≠ i → readDigit next j = readDigit naf j := by
  have found : naf[i / 4]? = some (naf.getD (i / 4) 0) := by
    rw [getD_eq_getElem?_getD, List.getElem?_eq_getElem inside, getD_some]
  let byte := naf.getD (i / 4) 0 ||| (sign <<< UInt32.ofNat (i % 4 * 2)).toUInt8
  have written : byte.toNat = (naf.getD (i / 4) 0).toNat ||| sign.toNat <<< (i % 4 * 2) := by
    rw [UInt8.toNat_or, slotBits_toNat small]
  have slot (j : Nat) := slot_write (naf.getD (i / 4) 0).toNat small
    (Nat.mod_lt i (by decide)) (Nat.mod_lt j (by decide))
  refine ⟨naf.set (i / 4) byte, ?_, length_set, ?_, ?_⟩
  · rw [writeDigit, found]
    rfl
  · have read : (naf.set (i / 4) byte).getD (i / 4) 0 = byte := by
      rw [getD_eq_getElem?_getD, List.getElem?_set_self inside, getD_some]
    have zero := congrArg UInt32.toNat free
    rw [readDigit_toNat] at zero
    rw [← UInt32.toNat_inj, readDigit_toNat, read, written, slot i, if_pos rfl, zero]
    exact Nat.zero_or sign.toNat
  · intro j other
    rw [← UInt32.toNat_inj, readDigit_toNat, readDigit_toNat]
    by_cases same : j / 4 = i / 4
    · have read : (naf.set (i / 4) byte).getD (j / 4) 0 = byte := by
        rw [same, getD_eq_getElem?_getD, List.getElem?_set_self inside, getD_some]
      rw [read, written, slot j, if_neg (by omega), same]
    · have read : (naf.set (i / 4) byte).getD (j / 4) 0 = naf.getD (j / 4) 0 := by
        rw [getD_eq_getElem?_getD, List.getElem?_set_ne (Ne.symm same), ← getD_eq_getElem?_getD]
      rw [read]

/-! ## The loop -/

theorem exists_fewer {number bits : Nat} (some : number ≠ 0) (short : 2 * number ≤ 2 ^ bits) :
    ∃ fewer, bits = fewer + 1 := by
  refine Nat.exists_eq_succ_of_ne_zero ?_
  rintro rfl
  omega

theorem afterDigit_le {number bits : Nat} (le : 2 * number ≤ 2 ^ (bits + 1)) :
    2 * afterDigit number ≤ 2 ^ bits := by
  have power : 2 ^ bits % 4 ≠ 3 := by
    match bits with
    | 0 => decide
    | 1 => decide
    | bits + 2 =>
      rw [pow_add]
      omega
  unfold afterDigit
  rw [pow_succ] at le
  split <;> omega

/-- The digits from an index on are the given ones, and the earlier ones are kept. -/
structure Recoded (naf : List UInt8) (i : Nat) (digits : List UInt32) (last : List UInt8) :
    Prop where
  earlier : ∀ j < i, readDigit last j = readDigit naf j
  digits : ∀ j digit, digits[j]? = some digit → readDigit last (i + j) = digit

theorem Recoded.cons {naf next last : List UInt8} {i : Nat} {digit : UInt32}
    {digits : List UInt32} (recoded : Recoded next (i + 1) digits last)
    (written : readDigit next i = digit)
    (kept : ∀ j, j ≠ i → readDigit next j = readDigit naf j) :
    Recoded naf i (digit :: digits) last where
  earlier := by
    intro j before
    rw [recoded.earlier j (Nat.lt_succ_of_lt before), kept j (ne_of_lt before)]
  digits := by
    intro j other found
    cases j with
    | zero =>
      rw [← some.inj found, ← written]
      exact recoded.earlier i (Nat.lt_succ_self i)
    | succ j =>
      rw [← recoded.digits j other found, add_assoc, add_comm 1 j]

theorem nafLoop_recodes {fuel bits : Nat} {naf : List UInt8} {i : Nat} {k : List UInt32}
    (words : k.length = 8) (bytes : naf.length = 65) (enough : bits < fuel)
    (short : 2 * wordsValue k ≤ 2 ^ bits) (word : wordsValue k + 1 < 2 ^ 256)
    (inside : i + bits ≤ 260) (free : ∀ j, i ≤ j → readDigit naf j = 0) :
    ∃ last, nafLoop fuel naf i k = some (last, i + (nafDigits fuel (wordsValue k)).length) ∧
      Recoded naf i (nafDigits fuel (wordsValue k)) last := by
  induction fuel generalizing bits naf i k with
  | zero => exact absurd enough (Nat.not_lt_zero bits)
  | succ fuel ih =>
    have goes := mostSignbits_pos_iff k
    rw [nafLoop, nafDigits]
    by_cases zero : wordsValue k = 0
    · rw [if_neg fun positive => goes.mp positive zero, if_pos zero]
      refine ⟨naf, rfl, fun _ _ => rfl, fun _ _ found => ?_⟩
      cases found
    · rw [if_pos (goes.mpr zero), if_neg zero]
      obtain ⟨bits, rfl⟩ := exists_fewer zero short
      have left := afterDigit_le short
      obtain ⟨less, taken, same, half⟩ := takeDigit_value
        (ne_nil_of_length_pos (by rw [words]; decide)) (by rw [words]; exact word)
      obtain ⟨next, wrote, longer, written, kept⟩ := writeDigit_read
        (show i / 4 < naf.length by rw [bytes]; omega) (digitOf_lt (wordsValue k))
        (free i (Nat.le_refl i))
      have value := multiprecisionRshift_value less
      rw [half] at value
      have rest := @ih bits next (i + 1) (multiprecisionRshift less)
        (by rw [length_multiprecisionRshift, same, words]) (by rw [longer, bytes])
        (Nat.lt_of_succ_lt_succ enough) (by rw [value]; exact left)
        (by rw [value, afterDigit]; split <;> omega) (by omega)
        (fun j after => by rw [kept j (by omega), free j (by omega)])
      rw [value] at rest
      obtain ⟨last, looped, recoded⟩ := rest
      refine ⟨last, ?_, recoded.cons written kept⟩
      simp only [taken, wrote, bind_eq_bind, bind_some, looped, length_cons]
      rw [add_assoc, add_comm 1]

theorem readDigit_clearNaf (i : Nat) : readDigit clearNaf i = 0 := by
  have clear : clearNaf.getD (i / 4) 0 = 0 := by
    rw [getD_eq_getElem?_getD, clearNaf, List.getElem?_replicate]
    split <;> rfl
  rw [← UInt32.toNat_inj, readDigit_toNat, clear]
  exact congrArg (· % 4) (Nat.zero_shiftRight _)

theorem eccNaf_digits {k : Dwords} (word : k.value + 1 < 2 ^ 256) :
    ∃ naf, eccNaf k = some (naf, (nafDigits 258 k.value).length) ∧
      (List.range (nafDigits 258 k.value).length).map (readDigit naf) = nafDigits 258 k.value := by
  have short : 2 * wordsValue k.digits ≤ 2 ^ 257 := by
    have small : wordsValue k.digits + 1 < 2 ^ 256 := word
    omega
  obtain ⟨naf, looped, recoded⟩ := @nafLoop_recodes 258 257 clearNaf 0 k.digits k.length_eq rfl
    (by decide) short word (by decide) fun j _ => readDigit_clearNaf j
  rw [zero_add] at looped
  refine ⟨naf, looped, ?_⟩
  apply ext_getElem?
  intro j
  rw [List.getElem?_map]
  by_cases inside : j < (nafDigits 258 k.value).length
  · have digit := recoded.digits j _ (List.getElem?_eq_getElem inside)
    rw [zero_add] at digit
    rw [List.getElem?_range inside, List.getElem?_eq_getElem inside, map_some, digit]
  · rw [List.getElem?_eq_none (by rw [length_range]; omega), List.getElem?_eq_none (by omega)]
    rfl

/-! ## The number that the digits stand for -/

def horner (number : Int) (digits : List UInt32) : Int :=
  digits.foldl (fun number digit => 2 * number + signOf digit) number

theorem horner_nafDigits {fuel bits number : Nat} (enough : bits ≤ fuel)
    (short : 2 * number ≤ 2 ^ bits) : horner 0 (nafDigits fuel number).reverse = number := by
  induction fuel generalizing bits number with
  | zero =>
    rw [Nat.le_zero.mp enough] at short
    have zero : number = 0 := by omega
    rw [zero]
    rfl
  | succ fuel ih =>
    rw [nafDigits]
    by_cases zero : number = 0
    · rw [if_pos zero, zero]
      rfl
    · rw [if_neg zero]
      obtain ⟨bits, rfl⟩ := exists_fewer zero short
      have rest := ih (Nat.le_of_succ_le_succ enough) (afterDigit_le short)
      rw [horner] at rest
      rw [horner, reverse_cons, foldl_append, rest]
      exact (afterDigit_add number).symm

/-! ## The non-adjacent form -/

theorem digitOf_afterDigit {number : Nat} (some : digitOf number ≠ 0) :
    digitOf (afterDigit number) = 0 := by
  have odd : number % 2 ≠ 0 := fun even => some (if_pos even)
  refine if_pos ?_
  unfold afterDigit
  split <;> omega

theorem head_nafDigits {fuel number : Nat} {digit : UInt32} {rest : List UInt32}
    (shape : nafDigits fuel number = digit :: rest) : digit = digitOf number := by
  cases fuel with
  | zero => cases shape
  | succ fuel =>
    rw [nafDigits] at shape
    split at shape
    · cases shape
    · exact (cons.inj shape).1.symm

theorem nafDigits_sparse {fuel bits number : Nat} (short : 2 * number ≤ 2 ^ bits) :
    (nafDigits fuel number).length ≤ bits ∧
      (∀ digit ∈ nafDigits fuel number, digit = 0 ∨ digit = 1 ∨ digit = 3) ∧
      (nafDigits fuel number).IsChain fun digit next => digit = 0 ∨ next = 0 := by
  induction fuel generalizing bits number with
  | zero => exact ⟨Nat.zero_le bits, forall_mem_nil _, .nil⟩
  | succ fuel ih =>
    rw [nafDigits]
    split
    · exact ⟨Nat.zero_le bits, forall_mem_nil _, .nil⟩
    · next some =>
      obtain ⟨bits, rfl⟩ := exists_fewer some short
      obtain ⟨length, values, chain⟩ := ih (afterDigit_le short)
      refine ⟨Nat.succ_le_succ length, forall_mem_cons.mpr ⟨?_, values⟩, ?_⟩
      · unfold digitOf
        split_ifs <;> decide
      · cases shape : nafDigits fuel (afterDigit number) with
        | nil => exact .singleton _
        | cons next rest =>
          refine .cons_cons ?_ (shape ▸ chain)
          rw [head_nafDigits shape]
          by_cases zero : digitOf number = 0
          · exact .inl zero
          · exact .inr (digitOf_afterDigit zero)

/-- The digits that are written are few, none has a neighbour other than zero, and their sum
with the powers of two as weights is the scalar. -/
theorem eccNaf_nonadjacent {k : Dwords} (word : k.value + 1 < 2 ^ 256) :
    ∃ naf digits, eccNaf k = some (naf, digits.length) ∧
      (List.range digits.length).map (readDigit naf) = digits ∧ digits.length ≤ 257 ∧
      (∀ digit ∈ digits, digit = 0 ∨ digit = 1 ∨ digit = 3) ∧ horner 0 digits.reverse = k.value ∧
      digits.IsChain fun digit next => digit = 0 ∨ next = 0 := by
  obtain ⟨naf, recoded, digits⟩ := eccNaf_digits word
  have short : 2 * k.value ≤ 2 ^ 257 := by omega
  obtain ⟨length, values, chain⟩ := @nafDigits_sparse 258 257 _ short
  exact ⟨naf, _, recoded, digits, length, values, horner_nafDigits (by decide) short, chain⟩

theorem eccNaf_nonadjacent_seven : ∃ naf, ∃ digits : List UInt32,
    eccNaf (Words.ofNat 8 7) = some (naf, digits.length) ∧
      horner 0 digits.reverse = (Words.ofNat 8 7).value := by
  obtain ⟨naf, digits, recoded, -, -, -, number, -⟩ :=
    @eccNaf_nonadjacent (Words.ofNat 8 7) (by decide)
  exact ⟨naf, digits, recoded, number⟩

end BluetoothFormal.Smp.NonAdjacentForm
