import Mathlib.Data.Int.ModEq
import Mathlib.Data.List.OfFn
import Mathlib.Data.Nat.Bitwise
import Mathlib.Tactic.Ring

/-!
# Multi-word arithmetic on 32-bit words

A number is a list of 32-bit words, least significant first.  Additions and
subtractions work word by word and detect a wrap by comparing a result with an
operand; the lemmas here turn every such comparison into an exact integer
equation.  A column accumulator keeps one result word together with a signed
excess word, so that a whole column sum is known modulo `2 ^ 64`.
-/

namespace BluetoothFormal.Foundation.WordArithmetic

open List

def wordsValue : List UInt32 → Nat
  | [] => 0
  | word :: rest => word.toNat + 2 ^ 32 * wordsValue rest

@[simp] theorem wordsValue_nil : wordsValue [] = 0 := rfl

@[simp] theorem wordsValue_cons (word : UInt32) (rest : List UInt32) :
    wordsValue (word :: rest) = word.toNat + 2 ^ 32 * wordsValue rest := rfl

theorem wordsValue_append (low high : List UInt32) :
    wordsValue (low ++ high) = wordsValue low + 2 ^ (32 * low.length) * wordsValue high := by
  induction low with
  | nil => simp
  | cons word rest ih =>
    rw [cons_append, wordsValue_cons, wordsValue_cons, ih, length_cons, Nat.mul_succ, pow_add]
    ring

theorem wordsValue_lt (words : List UInt32) :
    wordsValue words < 2 ^ (32 * words.length) := by
  induction words with
  | nil => simp
  | cons word rest ih =>
    have wordLt : word.toNat < 2 ^ 32 := word.toNat_lt
    rw [wordsValue_cons, length_cons, Nat.mul_succ, add_comm (32 * rest.length), pow_add]
    have restLe : wordsValue rest + 1 ≤ 2 ^ (32 * rest.length) := ih
    omega

/-- A fixed number of words, least significant first. -/
structure Words (count : Nat) where
  digits : List UInt32
  length_eq : digits.length = count

namespace Words

variable {count : Nat}

/-- The number a fixed-length word array denotes. -/
def value (words : Words count) : Nat := wordsValue words.digits

/-- The word at an index inside the array. -/
def get (words : Words count) (index : Fin count) : UInt32 :=
  words.digits.get (index.cast words.length_eq.symm)

theorem value_lt (words : Words count) : words.value < 2 ^ (32 * count) := by
  have bound := wordsValue_lt words.digits
  rwa [words.length_eq] at bound

theorem ofFn_get (words : Words count) : ofFn words.get = words.digits := by
  obtain ⟨digits, length_eq⟩ := words
  subst length_eq
  exact ofFn_get digits

/-- The lowest `count` words of a number. -/
def digitsOf : Nat → Nat → List UInt32
  | 0, _ => []
  | count + 1, number => UInt32.ofNat number :: digitsOf count (number / 2 ^ 32)

theorem digitsOf_length (count number : Nat) : (digitsOf count number).length = count := by
  induction count generalizing number with
  | zero => rfl
  | succ count ih => rw [digitsOf, length_cons, ih]

def ofNat (count number : Nat) : Words count := ⟨digitsOf count number, digitsOf_length count number⟩

theorem digitsOf_wordsValue (words : List UInt32) :
    digitsOf words.length (wordsValue words) = words := by
  induction words with
  | nil => rfl
  | cons word rest ih =>
    have low : UInt32.ofNat (word.toNat + 2 ^ 32 * wordsValue rest) = word := by
      rw [← UInt32.toNat_inj, UInt32.toNat_ofNat']
      have wordLt := word.toNat_lt
      omega
    have high : (word.toNat + 2 ^ 32 * wordsValue rest) / 2 ^ 32 = wordsValue rest := by
      have wordLt := word.toNat_lt
      omega
    rw [length_cons, wordsValue_cons, digitsOf, low, high, ih]

theorem ofNat_value (words : Words count) : ofNat count words.value = words := by
  obtain ⟨digits, rfl⟩ := words
  simp only [ofNat, value, digitsOf_wordsValue]

theorem value_ofNat {number : Nat} (fits : number < 2 ^ (32 * count)) :
    (ofNat count number).value = number := by
  unfold value ofNat
  induction count generalizing number with
  | zero =>
    rw [Nat.lt_one_iff.mp fits]
    rfl
  | succ count ih =>
    rw [Nat.mul_succ, add_comm, pow_add] at fits
    have above : number / 2 ^ 32 < 2 ^ (32 * count) := Nat.div_lt_of_lt_mul fits
    have inner := ih above
    simp only [digitsOf, wordsValue_cons, inner, UInt32.toNat_ofNat']
    exact Nat.mod_add_div number (2 ^ 32)

end Words

/-- The word `1` when a comparison holds and `0` otherwise, as in C. -/
def flag (condition : Prop) [Decidable condition] : UInt32 :=
  if condition then 1 else 0

theorem flag_toNat (condition : Prop) [Decidable condition] :
    (flag condition).toNat = if condition then 1 else 0 := by
  unfold flag
  split <;> rfl

theorem add_wrap (left right : UInt32) :
    (left + right).toNat + 2 ^ 32 * (flag (left + right < right)).toNat =
      left.toNat + right.toNat := by
  have leftLt := left.toNat_lt
  have rightLt := right.toNat_lt
  rw [flag_toNat]
  simp only [UInt32.lt_iff_toNat_lt, UInt32.toNat_add]
  split <;> omega

theorem sub_wrap (left right : UInt32) :
    (left - right).toNat + right.toNat = left.toNat + 2 ^ 32 * (flag (left < right)).toNat := by
  have leftLt := left.toNat_lt
  have rightLt := right.toNat_lt
  rw [flag_toNat]
  simp only [UInt32.lt_iff_toNat_lt, UInt32.toNat_sub]
  split <;> omega

theorem sub_wrap_of_gt (left right : UInt32) :
    (left - right).toNat + right.toNat =
      left.toNat + 2 ^ 32 * (flag (left < left - right)).toNat := by
  have leftLt := left.toNat_lt
  have rightLt := right.toNat_lt
  rw [flag_toNat]
  simp only [UInt32.lt_iff_toNat_lt, UInt32.toNat_sub]
  split <;> omega

theorem flag_le_one (condition : Prop) [Decidable condition] :
    (flag condition).toNat ≤ 1 := by
  rw [flag_toNat]
  split <;> decide

theorem or_toNat_of_le_one {left right : UInt32}
    (leftLe : left.toNat ≤ 1) (rightLe : right.toNat ≤ 1)
    (apart : left.toNat + right.toNat ≤ 1) :
    (left ||| right).toNat = left.toNat + right.toNat := by
  rw [UInt32.toNat_or]
  have cases : (left.toNat = 0 ∧ right.toNat = 0) ∨ (left.toNat = 1 ∧ right.toNat = 0) ∨
      (left.toNat = 0 ∧ right.toNat = 1) := by omega
  rcases cases with ⟨hl, hr⟩ | ⟨hl, hr⟩ | ⟨hl, hr⟩ <;> rw [hl, hr] <;> rfl

/-- The two's complement reading of a word. -/
def signed (word : UInt32) : Int :=
  if word.toNat < 2 ^ 31 then word.toNat else word.toNat - 2 ^ 32

theorem topBit_ne_zero_iff (word : UInt32) :
    word &&& 0x80000000 ≠ 0 ↔ signed word < 0 := by
  have wordLt := word.toNat_lt
  have masked : (word &&& 0x80000000).toNat = if word.toNat < 2 ^ 31 then 0 else 2 ^ 31 := by
    rw [UInt32.toNat_and]
    change word.toNat &&& 2 ^ 31 = _
    rw [Nat.and_two_pow, Nat.testBit_eq_decide_div_mod_eq]
    split
    · rw [show word.toNat / 2 ^ 31 = 0 by omega]; rfl
    · rw [show word.toNat / 2 ^ 31 = 1 by omega]; rfl
  rw [Ne, ← UInt32.toNat_inj, masked, signed]
  change ¬ (if word.toNat < 2 ^ 31 then 0 else 2 ^ 31) = 0 ↔ _
  split <;> omega

/-- A 32-bit word with an 8-bit count of the wraps it has made. -/
structure Wide where
  low : UInt32
  high : UInt8

namespace Wide

section

variable (wide : Wide)

/-- The number a wide word denotes. -/
def value : Nat := wide.low.toNat + 2 ^ 32 * wide.high.toNat

/-- A single word without wraps. -/
def ofWord (word : UInt32) : Wide := ⟨word, 0⟩

/-- Add a word and count the carry. -/
def add (word : UInt32) : Wide :=
  ⟨wide.low + word, wide.high + (flag (wide.low + word < word)).toUInt8⟩

/-- Subtract a word and count the borrow. -/
def sub (word : UInt32) : Wide :=
  ⟨wide.low - word, wide.high - (flag (wide.low < word)).toUInt8⟩

@[simp] theorem value_ofWord (word : UInt32) : (ofWord word).value = word.toNat := by
  simp [value, ofWord]

theorem value_add (word : UInt32) (room : wide.value < 2 ^ 39) :
    (wide.add word).value = wide.value + word.toNat := by
  have wrap := add_wrap wide.low word
  have bit := flag_le_one (wide.low + word < word)
  simp only [value] at room
  simp only [value, add, UInt8.toNat_add, UInt32.toNat_toUInt8]
  omega

theorem value_sub (word : UInt32) (room : word.toNat ≤ wide.value) :
    (wide.sub word).value + word.toNat = wide.value := by
  have wrap := sub_wrap wide.low word
  have highLt := wide.high.toNat_lt
  have resultLt := (wide.low - word).toNat_lt
  simp only [value] at room
  simp only [value, sub, UInt8.toNat_sub, UInt32.toNat_toUInt8]
  omega

end

end Wide

/-- One result word with the signed excess it passes to the next column. -/
structure Column where
  word : UInt32
  excess : UInt32

variable {column : Column} {total : Int}

namespace Column

section

variable (column)

/-- The column holds an integer total, known modulo `2 ^ 64`. -/
def Holds (total : Int) : Prop :=
  ((column.word.toNat + 2 ^ 32 * column.excess.toNat : Nat) : Int) ≡ total [ZMOD 2 ^ 64]

/-- `c += x; U += (c < x)`. -/
def add (word : UInt32) : Column :=
  ⟨column.word + word, column.excess + flag (column.word + word < word)⟩

/-- `U -= (c < x); c -= x`. -/
def sub (word : UInt32) : Column :=
  ⟨column.word - word, column.excess - flag (column.word < word)⟩

/-- `c += X; U += (c < X); U += UX`. -/
def addWide (wide : Wide) : Column :=
  ⟨column.word + wide.low,
    column.excess + flag (column.word + wide.low < wide.low) + wide.high.toUInt32⟩

/-- `U -= (c < X); U -= UX; c -= X`. -/
def subWide (wide : Wide) : Column :=
  ⟨column.word - wide.low, column.excess - flag (column.word < wide.low) - wide.high.toUInt32⟩

end

section

variable (holds : column.Holds total)
include holds

theorem Holds.add (word : UInt32) :
    (column.add word).Holds (total + word.toNat) := by
  have wrap := add_wrap column.word word
  simp only [Holds, Int.ModEq, Column.add, UInt32.toNat_add] at holds wrap ⊢
  omega

theorem Holds.sub (word : UInt32) :
    (column.sub word).Holds (total - word.toNat) := by
  have wrap := sub_wrap column.word word
  have bit := flag_le_one (column.word < word)
  simp only [Holds, Int.ModEq, Column.sub, UInt32.toNat_sub] at holds wrap ⊢
  omega

theorem Holds.addWide (wide : Wide) :
    (column.addWide wide).Holds (total + wide.value) := by
  have wrap := add_wrap column.word wide.low
  simp only [Holds, Int.ModEq, Column.addWide, Wide.value, UInt32.toNat_add,
    UInt8.toNat_toUInt32] at holds wrap ⊢
  omega

theorem Holds.subWide (wide : Wide) :
    (column.subWide wide).Holds (total - wide.value) := by
  have wrap := sub_wrap column.word wide.low
  have bit := flag_le_one (column.word < wide.low)
  have highLt := wide.high.toNat_lt
  simp only [Holds, Int.ModEq, Column.subWide, Wide.value, UInt32.toNat_sub,
    UInt8.toNat_toUInt32] at holds wrap ⊢
  omega

/-- A total that fits 64 signed bits is recovered from the two words. -/
theorem Holds.settle (lower : -2 ^ 63 ≤ total) (upper : total < 2 ^ 63) :
    (column.word.toNat : Int) = total % 2 ^ 32 ∧ signed column.excess = total / 2 ^ 32 := by
  have wordLt := column.word.toNat_lt
  have excessLt := column.excess.toNat_lt
  simp only [Holds, Int.ModEq] at holds
  refine ⟨by omega, ?_⟩
  rw [signed]
  split <;> omega

end

end Column

end BluetoothFormal.Foundation.WordArithmetic
