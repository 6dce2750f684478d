import BluetoothFormal.Smp.FastModP256Correctness

/-!
# Products and residues of 256-bit numbers

`multiprecision_mult` multiplies word by word into a buffer of sixteen words,
and `multiprecision_mersenns_mult_mod` reduces that product.  Sums and
differences of residues need one correction by the modulus.  The reduction is
not exact on every product, so each product carries the error of its reduction.
-/

namespace BluetoothFormal.Smp.FieldArithmetic

open Foundation.WordArithmetic Smp.Multiprecision Smp.FastModP256 List

/-- The high word `W` of the 64-bit product of two words. -/
def highWord (a b : UInt32) : UInt32 := ((a.toUInt64 * b.toUInt64) >>> 32).toUInt32

/-- The inner loop of `multiprecision_mult` from `c[i + j]` on; `U` goes above the row. -/
def multRow (a : UInt32) : UInt32 → List UInt32 → List UInt32 → List UInt32
  | U, b :: restB, c :: restC =>
    let W := highWord a b
    let V := a * b
    let V := V + U
    let U := flag (V < U)
    let U := U + W
    let V := V + c
    let U := U + flag (V < c)
    V :: multRow a U restB restC
  | U, _, c => U :: c.tail

/-- The outer loop of `multiprecision_mult` from `c[i]` on. -/
def multLoop : List UInt32 → List UInt32 → List UInt32 → List UInt32
  | a :: restA, b, c =>
    match multRow a 0 b c with
    | [] => []
    | word :: rest => word :: multLoop restA b rest
  | [], _, c => c

theorem highWord_toNat (a b : UInt32) :
    (highWord a b).toNat = a.toNat * b.toNat / 2 ^ 32 := by
  have below : a.toNat * b.toNat < 2 ^ 64 := by
    have product := Nat.mul_lt_mul'' a.toNat_lt b.toNat_lt
    simpa [← pow_add] using product
  have quotient : a.toNat * b.toNat / 2 ^ 32 < 2 ^ 32 := Nat.div_lt_of_lt_mul (by simpa using below)
  simp only [highWord, UInt64.toNat_toUInt32, UInt64.toNat_shiftRight, UInt64.toNat_mul,
    UInt32.toNat_toUInt64]
  rw [Nat.mod_eq_of_lt below]
  change (a.toNat * b.toNat) >>> 32 % 2 ^ 32 = _
  rw [Nat.shiftRight_eq_div_pow, Nat.mod_eq_of_lt quotient]

theorem multRow_word (a b c U : UInt32) :
    (a * b + U + c).toNat + 2 ^ 32 *
        (flag (a * b + U < U) + highWord a b + flag (a * b + U + c < c)).toNat =
      a.toNat * b.toNat + U.toNat + c.toNat := by
  have first := add_wrap (a * b) U
  have second := add_wrap (a * b + U) c
  have product : (a * b).toNat + 2 ^ 32 * (highWord a b).toNat = a.toNat * b.toNat := by
    rw [highWord_toNat, UInt32.toNat_mul]
    exact Nat.mod_add_div _ _
  have bound : a.toNat * b.toNat ≤ (2 ^ 32 - 1) * (2 ^ 32 - 1) :=
    Nat.mul_le_mul (Nat.le_pred_of_lt a.toNat_lt) (Nat.le_pred_of_lt b.toNat_lt)
  have Ult := U.toNat_lt
  have clt := c.toNat_lt
  rw [UInt32.toNat_add (flag (a * b + U < U) + highWord a b),
    UInt32.toNat_add (flag (a * b + U < U))]
  omega

theorem multRow_value (a U : UInt32) (b low : List UInt32) (top : UInt32) (high : List UInt32)
    (same : low.length = b.length) :
    ∃ words, multRow a U b (low ++ top :: high) = words ++ high ∧ words.length = b.length + 1 ∧
      wordsValue words = a.toNat * wordsValue b + wordsValue low + U.toNat := by
  induction b generalizing U low with
  | nil =>
    rw [length_eq_zero_iff.mp same]
    exact ⟨[U], rfl, rfl, by simp⟩
  | cons b restB ih =>
    cases low with
    | nil => cases same
    | cons c restC =>
      have word := multRow_word a b c U
      obtain ⟨words, row, length, value⟩ :=
        ih (flag (a * b + U < U) + highWord a b + flag (a * b + U + c < c)) restC
          (Nat.succ.inj same)
      refine ⟨(a * b + U + c) :: words, ?_, by rw [length_cons, length]; rfl, ?_⟩
      · simp [multRow, row]
      · simp only [wordsValue_cons, value, mul_add, Nat.mul_left_comm a.toNat]
        omega

theorem multLoop_value (a b low high : List UInt32) (same : low.length = b.length)
    (room : a.length ≤ high.length) :
    ∃ words, multLoop a b (low ++ high) = words ++ high.drop a.length ∧
      words.length = a.length + b.length ∧
      wordsValue words = wordsValue a * wordsValue b + wordsValue low := by
  induction a generalizing low high with
  | nil => exact ⟨low, rfl, by simp [same], by simp⟩
  | cons a restA ih =>
    cases high with
    | nil => cases room
    | cons top high =>
      obtain ⟨row, rowEq, rowLength, rowValue⟩ := multRow_value a 0 b low top high same
      cases row with
      | nil => cases rowLength
      | cons word rest =>
        obtain ⟨words, loopEq, loopLength, loopValue⟩ :=
          ih rest high (Nat.succ.inj rowLength) (Nat.le_of_succ_le_succ room)
        refine ⟨word :: words, ?_, ?_, ?_⟩
        · simp [multLoop, rowEq, loopEq]
        · simp only [length_cons, loopLength]
          omega
        · rw [wordsValue_cons, loopValue, mul_add, add_comm (2 ^ 32 * _),
            ← add_assoc, ← wordsValue_cons, rowValue, wordsValue_cons]
          change _ + 0 + _ = _
          ring

section

variable (c : Words 16)

/-- The buffer after `multiprecision_init` and the two loops. -/
def multWords (a b : Dwords) : List UInt32 :=
  multLoop a.digits b.digits (List.replicate keyLengthDwordsP256 0 ++ c.digits.drop 8)

theorem wordsValue_replicate_zero (count : Nat) : wordsValue (List.replicate count 0) = 0 := by
  induction count with
  | zero => rfl
  | succ count ih => rw [replicate_succ, wordsValue_cons, ih]; rfl

theorem multWords_value (a b : Dwords) :
    (multWords c a b).length = 16 ∧ wordsValue (multWords c a b) = a.value * b.value := by
  have high : (c.digits.drop 8).length = 8 := by rw [length_drop, c.length_eq]
  obtain ⟨words, loop, length, value⟩ := multLoop_value a.digits b.digits
    (List.replicate keyLengthDwordsP256 0) (c.digits.drop 8)
    (by rw [length_replicate, b.length_eq]) (by rw [a.length_eq, high])
  have whole : multWords c a b = words := by
    rw [multWords, loop, a.length_eq, drop_of_length_le (by rw [high]), append_nil]
  rw [whole, length, value, a.length_eq, b.length_eq, wordsValue_replicate_zero]
  exact ⟨rfl, rfl⟩

/-- `multiprecision_mult` into the buffer `c`, whose words it does not read. -/
def multiprecisionMult (a b : Dwords) : Words 16 :=
  ⟨multWords c a b, (multWords_value c a b).1⟩

theorem multiprecisionMult_value (a b : Dwords) :
    (multiprecisionMult c a b).value = a.value * b.value := (multWords_value c a b).2

/-- All sixteen words are those of the exact product, whatever the buffer held. -/
theorem multiprecisionMult_exact (a b : Dwords) :
    multiprecisionMult c a b = Words.ofNat 16 (a.value * b.value) ∧
      (multiprecisionMult c a b).value = a.value * b.value := by
  have value := multiprecisionMult_value c a b
  exact ⟨by rw [← value, Words.ofNat_value], value⟩

end

/-- `multiprecision_mersenns_mult_mod`; the buffer `cc` starts with any words. -/
def multiprecisionMersennsMultMod (a b : Dwords) : Dwords :=
  let cc := Words.ofNat 16 0
  multiprecisionFastModP256 (multiprecisionMult cc a b)

def multiprecisionMersennsSquaMod (a : Dwords) : Dwords := multiprecisionMersennsMultMod a a

def multiprecisionAddMod (a b : Dwords) : Dwords :=
  let (c, carrier) := multiprecisionAdd a b
  if carrier ≠ 0 then (multiprecisionSub c curveP256p).1
  else if multiprecisionCompare c curveP256p ≥ 0 then (multiprecisionSub c curveP256p).1
  else c

def multiprecisionSubMod (a b : Dwords) : Dwords :=
  let (c, borrow) := multiprecisionSub a b
  if borrow ≠ 0 then (multiprecisionAdd c curveP256p).1 else c

theorem toNat_eq_zero_iff (word : UInt32) : word.toNat = 0 ↔ word = 0 :=
  UInt32.toNat_inj (a := word) (b := 0)

variable {a b : Dwords}

theorem multiprecisionAddMod_value (aLt : a.value < primeP256) (bLt : b.value < primeP256) :
    (multiprecisionAddMod a b).value = (a.value + b.value) % primeP256 := by
  have sum := multiprecisionAdd_exact a b
  have difference := multiprecisionSub_value (multiprecisionAdd a b).1 curveP256p
  rw [curveP256p_value] at difference
  have compared := multiprecisionCompare_nonneg_iff (multiprecisionAdd a b).1 curveP256p
  rw [curveP256p_value] at compared
  simp only [multiprecisionAddMod]
  by_cases carried : (multiprecisionAdd a b).2 ≠ 0
  · have positive := mt (toNat_eq_zero_iff _).mp carried
    rw [if_pos carried]
    simp only [primeP256] at aLt bLt difference ⊢
    omega
  · have none := (toNat_eq_zero_iff _).mpr (not_not.mp carried)
    rw [if_neg carried]
    by_cases large : multiprecisionCompare (multiprecisionAdd a b).1 curveP256p ≥ 0
    · have above := compared.mp large
      rw [if_pos large]
      simp only [primeP256] at aLt bLt difference above ⊢
      omega
    · have below := mt compared.mpr large
      rw [if_neg large]
      simp only [primeP256] at aLt bLt below ⊢
      omega

theorem multiprecisionSubMod_value (aLt : a.value < primeP256) (bLt : b.value < primeP256) :
    ((multiprecisionSubMod a b).value : Int) = ((a.value : Int) - b.value) % primeP256 := by
  have difference := multiprecisionSub_exact a b
  have differenceLt := dwords_value_lt (multiprecisionSub a b).1
  have sum := multiprecisionAdd_value (multiprecisionSub a b).1 curveP256p
  rw [curveP256p_value] at sum
  simp only [multiprecisionSubMod, ne_eq, ← toNat_eq_zero_iff]
  simp only [primeP256] at aLt bLt sum ⊢
  split <;> omega

/--
What the reduction adds to a number: the borrows its columns lose, less the
wraps of folding the total of the columns.
-/
def reductionError (number : Nat) : Int :=
  let list := columns (Words.ofNat 16 number)
  let total := columnsValue list + lostBorrows 0 list
  let U := total / 2 ^ 256
  lostBorrows 0 list - (total - U * primeP256) / 2 ^ 256 * 2 ^ 256

theorem multiprecisionFastModP256_residue (a : Words 16) :
    ((multiprecisionFastModP256 a).value : Int) =
      (a.value + reductionError a.value) % primeP256 := by
  obtain ⟨total, -, -⟩ := reduceColumns_value a
  have wordsLt := dwords_value_lt (reduceColumns a).1
  have folded := foldExcess_value (reduceColumns a).1 (reduceColumns a).2
  have congruent := columnsValue_modEq a
  rw [multiprecisionFastModP256_value, Int.natCast_mod, folded]
  simp only [reductionError, a.ofNat_value]
  generalize lostBorrows 0 (columns a) = lost at total ⊢
  generalize columnsValue (columns a) = sum at total congruent ⊢
  have excess : signed (reduceColumns a).2 = (sum + lost) / 2 ^ 256 := by omega
  have low : ((reduceColumns a).1.value : Int) = sum + lost - 2 ^ 256 * ((sum + lost) / 2 ^ 256) := by
    omega
  rw [excess, low]
  generalize (sum + lost) / 2 ^ 256 = U
  have wrapped : (sum + lost - 2 ^ 256 * U - U * primeP256) % 2 ^ 256 =
      sum + lost - U * primeP256 - 2 ^ 256 * ((sum + lost - U * primeP256) / 2 ^ 256) := by
    have shifted : sum + lost - 2 ^ 256 * U - U * primeP256 =
        sum + lost - U * primeP256 + 2 ^ 256 * -U := by ring
    rw [shifted, Int.add_mul_emod_self_left, Int.emod_def]
  rw [wrapped]
  generalize (sum + lost - U * primeP256) / 2 ^ 256 = wraps
  have dropped : sum + lost - U * primeP256 - 2 ^ 256 * wraps ≡
      sum + (lost - wraps * 2 ^ 256) [ZMOD primeP256] :=
    Int.modEq_iff_dvd.mpr ⟨U, by ring⟩
  exact dropped.trans (congruent.add_right _)

end BluetoothFormal.Smp.FieldArithmetic
