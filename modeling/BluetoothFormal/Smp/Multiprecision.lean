import BluetoothFormal.Foundation.WordArithmetic

/-!
# Multi-precision primitives of the SMP P-256 code

The word loops of `p_256_multprecision.cc` and the curve modulus written by
`p_256_init_curve`.  A loop over the eight words of a key is a recursion over
the word list, with the running carrier or borrow as its accumulator.  Each
loop reads `a[i]` and `b[i]` before it writes `c[i]`, so the result is the same
when `c` aliases an operand.
-/

namespace BluetoothFormal.Smp.Multiprecision

open Foundation.WordArithmetic List

abbrev keyLengthDwordsP256 : Nat := 8

/-- A 256-bit number as the code stores it. -/
abbrev Dwords := Words keyLengthDwordsP256

theorem dwords_value_lt (a : Dwords) : a.value < 2 ^ 256 := a.value_lt

/-- The loop of `multiprecision_add` from one word on. -/
def addLoop : UInt32 → List UInt32 → List UInt32 → List UInt32 × UInt32
  | carrier, a :: restA, b :: restB =>
    let temp := a + carrier
    let carrier := flag (temp < carrier)
    let temp := temp + b
    let carrier := carrier ||| flag (temp < b)
    let rest := addLoop carrier restA restB
    (temp :: rest.1, rest.2)
  | carrier, _, _ => ([], carrier)

theorem addLoop_length (carrier : UInt32) (a b : List UInt32) :
    (addLoop carrier a b).1.length = min a.length b.length := by
  induction a generalizing carrier b with
  | nil => simp [addLoop]
  | cons first rest ih =>
    cases b with
    | nil => simp [addLoop]
    | cons second tail => simp [addLoop, ih]

theorem addLoop_word (a b carrier : UInt32) (bit : carrier.toNat ≤ 1) :
    (a + carrier + b).toNat + 2 ^ 32 *
        (flag (a + carrier < carrier) ||| flag (a + carrier + b < b)).toNat =
      a.toNat + b.toNat + carrier.toNat ∧
    (flag (a + carrier < carrier) ||| flag (a + carrier + b < b)).toNat ≤ 1 := by
  have first := add_wrap a carrier
  have second := add_wrap (a + carrier) b
  have firstBit := flag_le_one (a + carrier < carrier)
  have secondBit := flag_le_one (a + carrier + b < b)
  have aLt := a.toNat_lt
  have bLt := b.toNat_lt
  have apart : (flag (a + carrier < carrier)).toNat +
      (flag (a + carrier + b < b)).toNat ≤ 1 := by omega
  rw [or_toNat_of_le_one firstBit secondBit apart]
  omega

theorem addLoop_value (carrier : UInt32) (bit : carrier.toNat ≤ 1) (a b : List UInt32)
    (same : a.length = b.length) :
    wordsValue (addLoop carrier a b).1 + 2 ^ (32 * a.length) * (addLoop carrier a b).2.toNat =
      wordsValue a + wordsValue b + carrier.toNat := by
  induction a generalizing carrier b with
  | nil =>
    cases b with
    | nil => simp [addLoop]
    | cons second tail => cases same
  | cons first rest ih =>
    cases b with
    | nil => cases same
    | cons second tail =>
      obtain ⟨word, nextBit⟩ := addLoop_word first second carrier bit
      have inner := ih _ nextBit tail (Nat.succ.inj same)
      simp only [addLoop, wordsValue_cons, length_cons, Nat.mul_succ,
        add_comm (32 * rest.length), pow_add, mul_assoc]
      omega

/-- `multiprecision_add`: the sum and the carrier out of the top word. -/
def multiprecisionAdd (a b : Dwords) : Dwords × UInt32 :=
  (⟨(addLoop 0 a.digits b.digits).1, by
      rw [addLoop_length, a.length_eq, b.length_eq]; rfl⟩,
    (addLoop 0 a.digits b.digits).2)

theorem multiprecisionAdd_exact (a b : Dwords) :
    (multiprecisionAdd a b).1.value + 2 ^ 256 * (multiprecisionAdd a b).2.toNat =
      a.value + b.value := by
  have exact := addLoop_value 0 (by decide) a.digits b.digits (a.length_eq.trans b.length_eq.symm)
  rwa [a.length_eq] at exact

theorem multiprecisionAdd_value (a b : Dwords) :
    (multiprecisionAdd a b).1.value = (a.value + b.value) % 2 ^ 256 := by
  have exact := multiprecisionAdd_exact a b
  have bound := dwords_value_lt (multiprecisionAdd a b).1
  omega

/-- The loop of `multiprecision_sub` from one word on. -/
def subLoop : UInt32 → List UInt32 → List UInt32 → List UInt32 × UInt32
  | borrow, a :: restA, b :: restB =>
    let temp := a - borrow
    let borrow := flag (temp > a)
    let c := temp - b
    let borrow := borrow ||| flag (c > temp)
    let rest := subLoop borrow restA restB
    (c :: rest.1, rest.2)
  | borrow, _, _ => ([], borrow)

theorem subLoop_length (borrow : UInt32) (a b : List UInt32) :
    (subLoop borrow a b).1.length = min a.length b.length := by
  induction a generalizing borrow b with
  | nil => simp [subLoop]
  | cons first rest ih =>
    cases b with
    | nil => simp [subLoop]
    | cons second tail => simp [subLoop, ih]

theorem subLoop_word (a b borrow : UInt32) (bit : borrow.toNat ≤ 1) :
    (a - borrow - b).toNat + b.toNat + borrow.toNat = a.toNat + 2 ^ 32 *
        (flag (a - borrow > a) ||| flag (a - borrow - b > a - borrow)).toNat ∧
    (flag (a - borrow > a) ||| flag (a - borrow - b > a - borrow)).toNat ≤ 1 := by
  have first := sub_wrap_of_gt a borrow
  have second := sub_wrap_of_gt (a - borrow) b
  have firstBit := flag_le_one (a - borrow > a)
  have secondBit := flag_le_one (a - borrow - b > a - borrow)
  have resultLt := (a - borrow - b).toNat_lt
  have bLt := b.toNat_lt
  simp only [gt_iff_lt] at firstBit secondBit ⊢
  have apart : (flag (a < a - borrow)).toNat +
      (flag (a - borrow < a - borrow - b)).toNat ≤ 1 := by omega
  rw [or_toNat_of_le_one firstBit secondBit apart]
  omega

theorem subLoop_value (borrow : UInt32) (bit : borrow.toNat ≤ 1) (a b : List UInt32)
    (same : a.length = b.length) :
    wordsValue (subLoop borrow a b).1 + wordsValue b + borrow.toNat =
      wordsValue a + 2 ^ (32 * a.length) * (subLoop borrow a b).2.toNat := by
  induction a generalizing borrow b with
  | nil =>
    cases b with
    | nil => simp [subLoop]
    | cons second tail => cases same
  | cons first rest ih =>
    cases b with
    | nil => cases same
    | cons second tail =>
      obtain ⟨word, nextBit⟩ := subLoop_word first second borrow bit
      have inner := ih _ nextBit tail (Nat.succ.inj same)
      simp only [subLoop, wordsValue_cons, length_cons, Nat.mul_succ,
        add_comm (32 * rest.length), pow_add, mul_assoc]
      omega

/-- `multiprecision_sub`: the difference and the borrow out of the top word. -/
def multiprecisionSub (a b : Dwords) : Dwords × UInt32 :=
  (⟨(subLoop 0 a.digits b.digits).1, by
      rw [subLoop_length, a.length_eq, b.length_eq]; rfl⟩,
    (subLoop 0 a.digits b.digits).2)

theorem multiprecisionSub_exact (a b : Dwords) :
    (multiprecisionSub a b).1.value + b.value =
      a.value + 2 ^ 256 * (multiprecisionSub a b).2.toNat := by
  have exact := subLoop_value 0 (by decide) a.digits b.digits (a.length_eq.trans b.length_eq.symm)
  rwa [a.length_eq] at exact

theorem multiprecisionSub_value (a b : Dwords) :
    ((multiprecisionSub a b).1.value : Int) = ((a.value : Int) - b.value) % 2 ^ 256 := by
  have exact := multiprecisionSub_exact a b
  have bound := dwords_value_lt (multiprecisionSub a b).1
  omega

/-- The loop of `multiprecision_compare`, from the top word down. -/
def compareLoop : List UInt32 → List UInt32 → Int
  | a :: restA, b :: restB =>
    if a > b then 1
    else if a < b then -1
    else compareLoop restA restB
  | _, _ => 0

def multiprecisionCompare (a b : Dwords) : Int :=
  compareLoop a.digits.reverse b.digits.reverse

theorem compareLoop_nonneg_iff (a b : List UInt32) (same : a.length = b.length) :
    0 ≤ compareLoop a b ↔ wordsValue b.reverse ≤ wordsValue a.reverse := by
  induction a generalizing b with
  | nil =>
    cases b with
    | nil => simp [compareLoop]
    | cons second tail => cases same
  | cons first rest ih =>
    cases b with
    | nil => cases same
    | cons second tail =>
      have lengths : rest.length = tail.length := Nat.succ.inj same
      have restLt := wordsValue_lt rest.reverse
      have tailLt := wordsValue_lt tail.reverse
      have inner := ih tail lengths
      rw [reverse_cons, reverse_cons, wordsValue_append, wordsValue_append]
      simp only [length_reverse, lengths, wordsValue_cons, wordsValue_nil,
        mul_zero, add_zero] at restLt tailLt ⊢
      simp only [compareLoop, gt_iff_lt, UInt32.lt_iff_toNat_lt]
      by_cases above : second.toNat < first.toNat
      · have step := Nat.mul_le_mul_left (2 ^ (32 * tail.length)) (Nat.succ_le_of_lt above)
        rw [if_pos above]
        rw [Nat.mul_succ] at step
        constructor
        · intro _; omega
        · intro _; decide
      · rw [if_neg above]
        by_cases below : first.toNat < second.toNat
        · have step := Nat.mul_le_mul_left (2 ^ (32 * tail.length)) (Nat.succ_le_of_lt below)
          rw [if_pos below]
          rw [Nat.mul_succ] at step
          constructor
          · intro impossible; exact absurd impossible (by decide)
          · intro _; omega
        · rw [if_neg below, inner, le_antisymm (Nat.le_of_not_lt above) (Nat.le_of_not_lt below)]
          exact (Nat.add_le_add_iff_right).symm

theorem multiprecisionCompare_nonneg_iff (a b : Dwords) :
    0 ≤ multiprecisionCompare a b ↔ b.value ≤ a.value := by
  have compared := compareLoop_nonneg_iff a.digits.reverse b.digits.reverse
    (by rw [length_reverse, length_reverse, a.length_eq, b.length_eq])
  rwa [reverse_reverse, reverse_reverse] at compared

theorem compareLoop_eq_zero_iff (a b : List UInt32) (same : a.length = b.length) :
    compareLoop a b = 0 ↔ a = b := by
  induction a generalizing b with
  | nil =>
    cases b with
    | nil => simp [compareLoop]
    | cons second tail => cases same
  | cons first rest ih =>
    cases b with
    | nil => cases same
    | cons second tail =>
      rw [List.cons.injEq, ← ih tail (Nat.succ.inj same)]
      simp only [compareLoop, gt_iff_lt, UInt32.lt_iff_toNat_lt, ← UInt32.toNat_inj]
      split
      · constructor
        · intro zero; cases zero
        · rintro ⟨equal, -⟩; omega
      · split
        · constructor
          · intro zero; cases zero
          · rintro ⟨equal, -⟩; omega
        · exact (and_iff_right (by omega)).symm

theorem multiprecisionCompare_eq_zero_iff (a b : Dwords) :
    multiprecisionCompare a b = 0 ↔ a.value = b.value := by
  rw [multiprecisionCompare, compareLoop_eq_zero_iff _ _
    (by rw [length_reverse, length_reverse, a.length_eq, b.length_eq]),
    reverse_inj]
  constructor
  · intro same
    rw [Words.value, Words.value, same]
  · intro same
    rw [← a.ofNat_value, same, b.ofNat_value]

/-- `curve_p256.p` as `p_256_init_curve` writes it. -/
def curveP256p : Dwords where
  digits := [0xFFFFFFFF, 0xFFFFFFFF, 0xFFFFFFFF, 0x0, 0x0, 0x0, 0x00000001, 0xFFFFFFFF]
  length_eq := rfl

def primeP256 : Nat := 2 ^ 256 - 2 ^ 224 + 2 ^ 192 + 2 ^ 96 - 1

theorem curveP256p_value : curveP256p.value = primeP256 := by
  decide

end BluetoothFormal.Smp.Multiprecision
