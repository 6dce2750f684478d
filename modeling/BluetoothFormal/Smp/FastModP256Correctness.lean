import BluetoothFormal.Smp.FastModP256

/-!
# When the fast P-256 reduction is right

The value of the columns agrees with the 512-bit input modulo the prime, and
folding the top excess subtracts multiples of the prime modulo `2 ^ 256`.  The
result is therefore off by the lost borrows and by the wraps of folding, and
neither of these errors ever cancels modulo the prime.
-/

namespace BluetoothFormal.Smp.FastModP256

open Foundation.WordArithmetic Smp.Multiprecision

variable {wraps : Int}

section

variable (a : Words 16)

theorem words16_digits :
    a.digits = [a.get 0, a.get 1, a.get 2, a.get 3, a.get 4, a.get 5, a.get 6, a.get 7,
      a.get 8, a.get 9, a.get 10, a.get 11, a.get 12, a.get 13, a.get 14, a.get 15] := by
  rw [← a.ofFn_get]
  rfl

/-- The columns were chosen so that only multiples of the prime are dropped. -/
theorem columnsValue_modEq : columnsValue (columns a) ≡ a.value [ZMOD primeP256] := by
  refine Int.modEq_iff_dvd.mpr ⟨(a.get 8).toNat + 4294967297 * (a.get 9).toNat +
    18446744078004518912 * (a.get 10).toNat + 79228162532711081667253501951 * (a.get 11).toNat +
    340282367000166625977638945021017194495 * (a.get 12).toNat +
    1461501637671185285124623296161210883009696235519 * (a.get 13).toNat +
    6277101736848182401166692341332123086285927382448418586623 * (a.get 14).toNat +
    26959946673427741530053695850515137729844644212646842236464328081408 * (a.get 15).toNat, ?_⟩
  rw [Words.value, words16_digits]
  simp only [wordsValue, columns, columnsValue, primeP256]
  push_cast
  ring

theorem addModpWhile_value (c : Dwords) (U : UInt32) :
    (addModpWhile c U).value = (c.value + (0 - U).toNat * primeP256) % 2 ^ 256 := by
  fun_induction addModpWhile c U with
  | case1 c =>
    have bound := dwords_value_lt c
    change c.value = (c.value + 0 * primeP256) % 2 ^ 256
    omega
  | case2 c U nonzero ih =>
    have step : (0 - U).toNat = (0 - (U + 1)).toNat + 1 := by
      have positive : U.toNat ≠ 0 := fun zero => nonzero (UInt32.toNat_inj.mp zero)
      have bound := U.toNat_lt
      simp only [UInt32.toNat_sub, UInt32.toNat_add, UInt32.toNat_zero, UInt32.toNat_one]
      omega
    rw [ih, multiprecisionAdd_value, curveP256p_value, step, Nat.mod_add_mod]
    congr 1
    ring

theorem subModpWhile_value (c : Dwords) (U : UInt32) :
    ((subModpWhile c U).value : Int) = ((c.value : Int) - U.toNat * primeP256) % 2 ^ 256 := by
  fun_induction subModpWhile c U with
  | case1 c =>
    have bound := dwords_value_lt c
    change (c.value : Int) = ((c.value : Int) - 0 * primeP256) % 2 ^ 256
    omega
  | case2 c U nonzero ih =>
    have step : U.toNat = (U - 1).toNat + 1 := by
      have positive : U.toNat ≠ 0 := fun zero => nonzero (UInt32.toNat_inj.mp zero)
      have bound := U.toNat_lt
      simp only [UInt32.toNat_sub, UInt32.toNat_one]
      omega
    rw [ih, multiprecisionSub_value, curveP256p_value, step, Int.emod_sub_emod]
    congr 1
    push_cast
    ring

theorem foldExcess_value (c : Dwords) (U : UInt32) :
    ((foldExcess c U).value : Int) = ((c.value : Int) - signed U * primeP256) % 2 ^ 256 := by
  have Ult := U.toNat_lt
  unfold foldExcess
  split
  · rename_i negative
    have below := (topBit_ne_zero_iff U).mp negative
    have magnitude : ((0 - U).toNat : Int) = -signed U := by
      simp only [UInt32.toNat_sub, UInt32.toNat_zero]
      unfold signed at below ⊢
      split at below <;> rename_i small
      · omega
      · rw [if_neg small]
        omega
    rw [addModpWhile_value]
    push_cast
    rw [magnitude, Int.neg_mul, ← Int.sub_eq_add_neg]
  · rename_i positive
    have above := mt (topBit_ne_zero_iff U).mpr positive
    have magnitude : signed U = U.toNat := by
      unfold signed at above ⊢
      split at above <;> rename_i small
      · rw [if_pos small]
      · omega
    split
    · rw [subModpWhile_value, magnitude]
    · rename_i zero
      have bound := dwords_value_lt c
      rw [magnitude, show U = 0 from not_not.mp zero]
      change (c.value : Int) = ((c.value : Int) - 0 * primeP256) % 2 ^ 256
      omega

theorem multiprecisionFastModP256_value :
    (multiprecisionFastModP256 a).value =
      (foldExcess (reduceColumns a).1 (reduceColumns a).2).value % primeP256 := by
  have bound := dwords_value_lt (foldExcess (reduceColumns a).1 (reduceColumns a).2)
  unfold multiprecisionFastModP256
  simp only [multiprecisionCompare_nonneg_iff, curveP256p_value]
  generalize foldExcess (reduceColumns a).1 (reduceColumns a).2 = c at bound ⊢
  by_cases large : primeP256 ≤ c.value
  · have subtracted := multiprecisionSub_value c curveP256p
    rw [if_pos large]
    rw [curveP256p_value] at subtracted
    simp only [primeP256] at large subtracted ⊢
    omega
  · rw [if_neg large, Nat.mod_eq_of_lt (Nat.lt_of_not_le large)]

theorem lostBorrow_bit (carry word : Int) :
    ∃ bit, lostBorrow carry word = 2 ^ 33 * bit ∧ 0 ≤ bit ∧ bit ≤ 1 := by
  unfold lostBorrow
  split
  · exact ⟨1, by decide, by decide, by decide⟩
  · exact ⟨0, by decide, by decide, by decide⟩

theorem lostBorrows_bits (carry : Int) (list : List IntColumn) (last : IntColumn) :
    ∃ low top : Int,
      lostBorrows carry (list ++ [last]) = 2 ^ 33 * (low + 2 ^ (32 * list.length) * top) ∧
      0 ≤ low ∧ (2 ^ 32 - 1) * low < 2 ^ (32 * list.length) ∧ 0 ≤ top ∧ top ≤ 1 := by
  induction list generalizing carry with
  | nil =>
    obtain ⟨bit, eq, lower, upper⟩ := lostBorrow_bit carry last.word
    exact ⟨0, bit, by simp [lostBorrows, eq], by decide, by decide, lower, upper⟩
  | cons column rest ih =>
    obtain ⟨bit, eq, lower, upper⟩ := lostBorrow_bit carry column.word
    obtain ⟨low, top, restEq, lowNonneg, lowLt, topNonneg, topLe⟩ :=
      ih (columnSum carry column / 2 ^ 32)
    refine ⟨bit + 2 ^ 32 * low, top, ?_, by omega, ?_, topNonneg, topLe⟩
    · rw [List.cons_append, lostBorrows, restEq, eq, List.length_cons, Nat.mul_succ, pow_add]
      ring
    · rw [List.length_cons, Nat.mul_succ, pow_add]
      omega

/-- Lost borrows of the lower columns stay far below the prime. -/
theorem lostBorrows_shape :
    ∃ low top : Int, lostBorrows 0 (columns a) = 2 ^ 65 * low + 2 ^ 257 * top ∧
      0 ≤ low ∧ low < 2 ^ 161 ∧ 0 ≤ top ∧ top ≤ 1 := by
  obtain ⟨bottom, middle, last, list_eq, length_eq, nonneg⟩ :
      ∃ bottom middle last, columns a = bottom :: (middle ++ [last]) ∧
        middle.length = 6 ∧ 0 ≤ bottom.word :=
    ⟨_, [_, _, _, _, _, _], _, rfl, rfl, Int.natCast_nonneg _⟩
  have first : lostBorrow 0 bottom.word = 0 := if_neg (by omega)
  obtain ⟨low, top, eq, lowNonneg, lowLt, topNonneg, topLe⟩ :=
    lostBorrows_bits (columnSum 0 bottom / 2 ^ 32) middle last
  rw [length_eq] at eq lowLt
  refine ⟨low, top, ?_, lowNonneg, by omega, topNonneg, topLe⟩
  rw [list_eq, lostBorrows, first, eq]
  omega

/-- Neither lost borrows nor a wrapped fold cancel out modulo the prime. -/
theorem prime_dvd_error_iff (low : -1 ≤ wraps) (high : wraps ≤ 1) :
    (primeP256 : Int) ∣ lostBorrows 0 (columns a) - wraps * 2 ^ 256 ↔
      lostBorrows 0 (columns a) = 0 ∧ wraps = 0 := by
  obtain ⟨lost, top, eq, lostNonneg, lostLt, topNonneg, topLe⟩ := lostBorrows_shape a
  constructor
  · rintro ⟨factor, multiple⟩
    have topCases : top = 0 ∨ top = 1 := by omega
    have wrapCases : wraps = -1 ∨ wraps = 0 ∨ wraps = 1 := by omega
    rw [eq] at multiple ⊢
    simp only [primeP256] at multiple
    rcases topCases with rfl | rfl <;> rcases wrapCases with rfl | rfl | rfl <;> omega
  · rintro ⟨none, unwrapped⟩
    rw [none, unwrapped]
    exact ⟨0, by decide⟩

/--
Folding stays inside 256 bits: with `T` the value of the columns and `U` its
part above 256 bits, `T - U * p` neither is negative nor overflows.
-/
def FoldsInRange : Prop :=
  let T := columnsValue (columns a)
  let U := T / 2 ^ 256
  0 ≤ T - U * primeP256 ∧ T - U * primeP256 < 2 ^ 256

theorem foldExcess_reduceColumns :
    ∃ wraps : Int, -1 ≤ wraps ∧ wraps ≤ 1 ∧
      ((foldExcess (reduceColumns a).1 (reduceColumns a).2).value : Int) =
        columnsValue (columns a) - signed (reduceColumns a).2 * primeP256 +
          (lostBorrows 0 (columns a) - wraps * 2 ^ 256) := by
  obtain ⟨total, excessLow, excessHigh⟩ := reduceColumns_value a
  have folded := foldExcess_value (reduceColumns a).1 (reduceColumns a).2
  have wordsLt := dwords_value_lt (reduceColumns a).1
  refine ⟨signed (reduceColumns a).2 + (((reduceColumns a).1.value : Int) -
    signed (reduceColumns a).2 * primeP256) / 2 ^ 256, ?_, ?_, ?_⟩
  all_goals
    simp only [primeP256] at folded ⊢
    omega

theorem foldsInRange_iff (kept : lostBorrows 0 (columns a) = 0)
    (folded : ((foldExcess (reduceColumns a).1 (reduceColumns a).2).value : Int) =
      columnsValue (columns a) - signed (reduceColumns a).2 * primeP256 +
        (lostBorrows 0 (columns a) - wraps * 2 ^ 256)) : FoldsInRange a ↔ wraps = 0 := by
  obtain ⟨total, _, _⟩ := reduceColumns_value a
  have wordsLt := dwords_value_lt (reduceColumns a).1
  have resultLt := dwords_value_lt (foldExcess (reduceColumns a).1 (reduceColumns a).2)
  have upper : columnsValue (columns a) / 2 ^ 256 = signed (reduceColumns a).2 := by omega
  simp only [FoldsInRange, upper]
  omega

theorem residue_iff :
    (multiprecisionFastModP256 a).value < primeP256 ∧
        (multiprecisionFastModP256 a).value ≡ a.value [MOD primeP256] ↔
      KeepsBorrows 0 (columns a) ∧ FoldsInRange a := by
  obtain ⟨wraps, low, high, folded⟩ := foldExcess_reduceColumns a
  have congruent := columnsValue_modEq a
  rw [multiprecisionFastModP256_value, ← lostBorrows_eq_zero_iff]
  have reduced : (foldExcess (reduceColumns a).1 (reduceColumns a).2).value % primeP256 <
      primeP256 := Nat.mod_lt _ (by decide)
  have residue : (foldExcess (reduceColumns a).1 (reduceColumns a).2).value % primeP256 ≡
      a.value [MOD primeP256] ↔ lostBorrows 0 (columns a) = 0 ∧ wraps = 0 := by
    have dropped : columnsValue (columns a) - signed (reduceColumns a).2 * primeP256 ≡
        columnsValue (columns a) [ZMOD primeP256] :=
      Int.modEq_iff_dvd.mpr ⟨signed (reduceColumns a).2, by ring⟩
    have shifted := (dropped.trans congruent).add_right
      (lostBorrows 0 (columns a) - wraps * 2 ^ 256)
    rw [← folded] at shifted
    rw [← prime_dvd_error_iff a low high, ← Int.natCast_modEq_iff, Int.natCast_mod,
      ← Int.modEq_zero_iff_dvd]
    constructor
    · intro same
      have cancelled := shifted.symm.trans ((Int.mod_modEq _ _).symm.trans same)
      exact Int.ModEq.add_left_cancel' (a.value : Int) (by simpa using cancelled)
    · intro exact
      have restored := shifted.trans (exact.add_left a.value)
      exact (Int.mod_modEq _ _).trans (by simpa using restored)
  rw [and_iff_right reduced, residue]
  constructor
  · rintro ⟨kept, unwrapped⟩
    exact ⟨kept, (foldsInRange_iff a kept folded).mpr unwrapped⟩
  · rintro ⟨kept, range⟩
    exact ⟨kept, (foldsInRange_iff a kept folded).mp range⟩

end

/--
The reduction returns the residue below the prime exactly when no column loses
a borrow and folding stays in range; it terminates on every input.
-/
theorem multiprecisionFastModP256_correct_iff (a : Words 16) :
    curveP256p.value = primeP256 ∧ ((multiprecisionFastModP256 a).value < primeP256 ∧
        (multiprecisionFastModP256 a).value ≡ a.value [MOD primeP256] ↔
      KeepsBorrows 0 (columns a) ∧ FoldsInRange a) :=
  ⟨curveP256p_value, residue_iff a⟩

/-- `2 ^ 352`, the square of `2 ^ 176`. -/
def square352 : Words 16 where
  digits := [0, 0, 0, 0, 0, 0, 0, 0, 0, 0, 0, 1, 0, 0, 0, 0]
  length_eq := rfl

/-- The square of `2 ^ 176` loses a borrow and is reduced to a wrong residue. -/
theorem multiprecisionFastModP256_square352 :
    square352.value = 2 ^ 176 * 2 ^ 176 ∧
    ¬ ∀ a : Words 16, (multiprecisionFastModP256 a).value < primeP256 ∧
      (multiprecisionFastModP256 a).value ≡ a.value [MOD primeP256] := by
  refine ⟨by decide, fun always => ?_⟩
  have kept := ((residue_iff square352).mp (always square352)).1
  exact absurd kept (by decide)

end BluetoothFormal.Smp.FastModP256
