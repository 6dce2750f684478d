import BluetoothFormal.Smp.Multiprecision

/-!
# Fast reduction modulo the P-256 prime

`multiprecision_fast_mod_P256` sums shifted words of a 512-bit number column by
column.  Each column passes a signed excess `U` to the next one, and the excess
of the top column is folded back by adding or subtracting the modulus.  When a
negative excess borrows out of the word it is subtracted from, the code records
the borrow with the wrong sign; the model keeps that branch, and the
correctness theorem states exactly which inputs avoid it.
-/

namespace BluetoothFormal.Smp.FastModP256

open Foundation.WordArithmetic Smp.Multiprecision Wide

/-- The partial sums `A` to `G`, each with its wrap count `UA` to `UG`. -/
structure Sums where
  A : Wide
  B : Wide
  C : Wide
  D : Wide
  E : Wide
  F : Wide
  G : Wide

section

variable (a : Words 16)

/-- The partial sums in the order in which the code derives them. -/
def sums : Sums :=
  let C := ((ofWord (a.get 13)).add (a.get 14)).add (a.get 15)
  let E := (ofWord (a.get 8)).add (a.get 9)
  let F := (ofWord (a.get 9)).add (a.get 10)
  let G := (ofWord (a.get 10)).add (a.get 11)
  let B := C.add (a.get 12)
  let A := (B.add (a.get 11)).sub (a.get 15)
  let D := (A.add (a.get 10)).sub (a.get 14)
  ⟨A, B, C, D, E, F, G⟩

/-- Start a column from the excess `U` of the column below and the word `a[i]`. -/
def enterColumn (U a : UInt32) : Column :=
  if U &&& 0x80000000 ≠ 0 then
    let UU := 0 - U
    ⟨a - UU, flag (a < UU)⟩
  else
    ⟨a + U, flag (a + U < a)⟩

section

variable (s : Sums)

section

variable (c : Column)

def column0 : Column := (c.addWide s.E).subWide s.A

def column1 : Column := (c.addWide s.F).subWide s.B

def column2 : Column := (c.addWide s.G).subWide s.C

def column3 : Column :=
  (((((c.addWide s.A).add (a.get 11)).add (a.get 12)).sub (a.get 14)).sub (a.get 15)).subWide s.E

def column4 : Column :=
  ((((c.addWide s.B).sub (a.get 15)).add (a.get 12)).add (a.get 13)).subWide s.F

def column5 : Column :=
  (((c.addWide s.C).add (a.get 13)).add (a.get 14)).subWide s.G

def column6 : Column :=
  ((((c.addWide s.C).add (a.get 14)).add (a.get 14)).add (a.get 15)).subWide s.E

def column7 : Column :=
  ((((c.add (a.get 15)).add (a.get 15)).add (a.get 15)).add (a.get 8)).subWide s.D

end

end

/-- The eight result words before folding, and the excess `U` of the top column. -/
def reduceColumns : Dwords × UInt32 :=
  let s := sums a
  let c0 := column0 s ⟨a.get 0, 0⟩
  let c1 := column1 s (enterColumn c0.excess (a.get 1))
  let c2 := column2 s (enterColumn c1.excess (a.get 2))
  let c3 := column3 a s (enterColumn c2.excess (a.get 3))
  let c4 := column4 a s (enterColumn c3.excess (a.get 4))
  let c5 := column5 a s (enterColumn c4.excess (a.get 5))
  let c6 := column6 a s (enterColumn c5.excess (a.get 6))
  let c7 := column7 a s (enterColumn c6.excess (a.get 7))
  (⟨[c0.word, c1.word, c2.word, c3.word, c4.word, c5.word, c6.word, c7.word], rfl⟩, c7.excess)

/-- `while (U) { multiprecision_add(c, c, modp); U++; }` -/
def addModpWhile (c : Dwords) (U : UInt32) : Dwords :=
  if U = 0 then c else addModpWhile (multiprecisionAdd c curveP256p).1 (U + 1)
termination_by (0 - U).toNat
decreasing_by
  have nonzero : U.toNat ≠ 0 := fun zero => ‹¬ U = 0› (UInt32.toNat_inj.mp zero)
  have bound := U.toNat_lt
  simp only [UInt32.toNat_sub, UInt32.toNat_add, UInt32.toNat_zero, UInt32.toNat_one]
  omega

/-- `while (U) { multiprecision_sub(c, c, modp); U--; }` -/
def subModpWhile (c : Dwords) (U : UInt32) : Dwords :=
  if U = 0 then c else subModpWhile (multiprecisionSub c curveP256p).1 (U - 1)
termination_by U.toNat
decreasing_by
  have nonzero : U.toNat ≠ 0 := fun zero => ‹¬ U = 0› (UInt32.toNat_inj.mp zero)
  have bound := U.toNat_lt
  simp only [UInt32.toNat_sub, UInt32.toNat_one]
  omega

/-- Fold the excess of the top column back into the result words. -/
def foldExcess (c : Dwords) (U : UInt32) : Dwords :=
  if U &&& 0x80000000 ≠ 0 then addModpWhile c U
  else if U ≠ 0 then subModpWhile c U
  else c

def multiprecisionFastModP256 : Dwords :=
  let c := foldExcess (reduceColumns a).1 (reduceColumns a).2
  if 0 ≤ multiprecisionCompare c curveP256p then (multiprecisionSub c curveP256p).1 else c

/-- The word `a[i]` of a column and the signed sum of the words added to it. -/
structure IntColumn where
  word : Int
  addend : Int

/-- What the eight columns add, in the words of the 512-bit input. -/
def columns : List IntColumn :=
  let w : Fin 16 → Int := fun i => (a.get i).toNat
  [⟨w 0, w 8 + w 9 - (w 11 + w 12 + w 13 + w 14)⟩, ⟨w 1, w 9 + w 10 - (w 12 + w 13 + w 14 + w 15)⟩,
   ⟨w 2, w 10 + w 11 - (w 13 + w 14 + w 15)⟩,
   ⟨w 3, 2 * w 11 + 2 * w 12 + w 13 - (w 8 + w 9 + w 15)⟩,
   ⟨w 4, 2 * w 12 + 2 * w 13 + w 14 - (w 9 + w 10)⟩,
   ⟨w 5, 2 * w 13 + 2 * w 14 + w 15 - (w 10 + w 11)⟩,
   ⟨w 6, w 13 + 3 * w 14 + 2 * w 15 - (w 8 + w 9)⟩,
   ⟨w 7, w 8 + 3 * w 15 - (w 10 + w 11 + w 12 + w 13)⟩]

end

/-- The integer a list of columns stands for. -/
def columnsValue : List IntColumn → Int
  | [] => 0
  | column :: rest => column.word + column.addend + 2 ^ 32 * columnsValue rest

/--
No column loses a borrow: the carry out of the columns below never takes the
column's own word below zero.
-/
def KeepsBorrows : Int → List IntColumn → Prop
  | _, [] => True
  | carry, column :: rest =>
    0 ≤ column.word + carry ∧ KeepsBorrows ((column.word + carry + column.addend) / 2 ^ 32) rest

instance decidableKeepsBorrows : ∀ (carry : Int) (list : List IntColumn),
    Decidable (KeepsBorrows carry list)
  | _, [] => isTrue trivial
  | carry, column :: rest =>
    @instDecidableAnd _ _ (inferInstanceAs (Decidable (0 ≤ column.word + carry)))
      (decidableKeepsBorrows ((column.word + carry + column.addend) / 2 ^ 32) rest)

/-- What a lost borrow adds to its column: `+1` is passed on for `-1`. -/
def lostBorrow (carry word : Int) : Int :=
  if word + carry < 0 then 2 ^ 33 else 0

/-- The sum of a column as the code forms it. -/
def columnSum (carry : Int) (column : IntColumn) : Int :=
  column.word + carry + lostBorrow carry column.word + column.addend

def lostBorrows : Int → List IntColumn → Int
  | _, [] => 0
  | carry, column :: rest =>
    lostBorrow carry column.word + 2 ^ 32 * lostBorrows (columnSum carry column / 2 ^ 32) rest

theorem lostBorrow_nonneg (carry word : Int) : 0 ≤ lostBorrow carry word := by
  unfold lostBorrow
  split <;> omega

theorem lostBorrows_nonneg (carry : Int) (list : List IntColumn) :
    0 ≤ lostBorrows carry list := by
  induction list generalizing carry with
  | nil => exact Int.le_refl 0
  | cons column rest ih =>
    have here := lostBorrow_nonneg carry column.word
    have above := ih (columnSum carry column / 2 ^ 32)
    simp only [lostBorrows]
    omega

theorem lostBorrows_eq_zero_iff (carry : Int) (list : List IntColumn) :
    lostBorrows carry list = 0 ↔ KeepsBorrows carry list := by
  induction list generalizing carry with
  | nil => simp [lostBorrows, KeepsBorrows]
  | cons column rest ih =>
    have above := lostBorrows_nonneg (columnSum carry column / 2 ^ 32) rest
    by_cases kept : 0 ≤ column.word + carry
    · have none : lostBorrow carry column.word = 0 := if_neg (by omega)
      have same : columnSum carry column = column.word + carry + column.addend := by
        rw [columnSum, none]; omega
      simp only [lostBorrows, KeepsBorrows, none, same]
      rw [← ih]
      omega
    · have lost : lostBorrow carry column.word = 2 ^ 33 := if_pos (by omega)
      simp only [lostBorrows, KeepsBorrows, lost]
      omega

/-- A column body adds one fixed integer to whatever the column holds. -/
def Adds (body : Column → Column) (addend : Int) : Prop :=
  ∀ column total, column.Holds total → (body column).Holds (total + addend)

theorem enterColumn_holds (U a : UInt32) :
    (enterColumn U a).Holds (a.toNat + signed U + lostBorrow (signed U) a.toNat) := by
  have Ult := U.toNat_lt
  unfold enterColumn
  by_cases negative : U &&& 0x80000000 ≠ 0
  · have below := (topBit_ne_zero_iff U).mp negative
    rw [if_pos negative]
    have wrap := sub_wrap a (0 - U)
    have magnitude : ((0 - U).toNat : Int) = -signed U := by
      rw [UInt32.toNat_sub]
      unfold signed at below ⊢
      split at below <;> rename_i small
      · omega
      · rw [if_neg small]
        simp only [UInt32.toNat_zero]
        omega
    rw [flag_toNat] at wrap
    simp only [Column.Holds, Int.ModEq, flag_toNat, lostBorrow, UInt32.lt_iff_toNat_lt] at wrap ⊢
    split at wrap <;> rename_i borrowed
    · rw [if_pos borrowed, if_pos (by omega)]
      omega
    · rw [if_neg borrowed, if_neg (by omega)]
      omega
  · have above : 0 ≤ signed U := by
      have := mt (topBit_ne_zero_iff U).mpr negative
      omega
    rw [if_neg negative]
    have wrap := add_wrap U a
    rw [UInt32.add_comm] at wrap
    have magnitude : (U.toNat : Int) = signed U := by
      unfold signed at above ⊢
      split at above <;> rename_i small
      · rw [if_pos small]
      · omega
    simp only [Column.Holds, Int.ModEq, lostBorrow]
    rw [if_neg (by omega)]
    omega

section

variable (a : Words 16)

theorem sums_value :
    (sums a).A.value = (a.get 11).toNat + (a.get 12).toNat + (a.get 13).toNat + (a.get 14).toNat ∧
    (sums a).B.value = (a.get 12).toNat + (a.get 13).toNat + (a.get 14).toNat + (a.get 15).toNat ∧
    (sums a).C.value = (a.get 13).toNat + (a.get 14).toNat + (a.get 15).toNat ∧
    (sums a).D.value = (a.get 10).toNat + (a.get 11).toNat + (a.get 12).toNat + (a.get 13).toNat ∧
    (sums a).E.value = (a.get 8).toNat + (a.get 9).toNat ∧
    (sums a).F.value = (a.get 9).toNat + (a.get 10).toNat ∧
    (sums a).G.value = (a.get 10).toNat + (a.get 11).toNat := by
  have bounds : ∀ i, (a.get i).toNat < 2 ^ 32 := fun i => (a.get i).toNat_lt
  have b11 := bounds 11
  have b12 := bounds 12
  have b13 := bounds 13
  have b14 := bounds 14
  have b15 := bounds 15
  let C1 := (ofWord (a.get 13)).add (a.get 14)
  have hC1 : C1.value = (a.get 13).toNat + (a.get 14).toNat := by
    rw [value_add _ _ (by rw [value_ofWord]; omega), value_ofWord]
  have hC : (sums a).C.value = C1.value + (a.get 15).toNat :=
    value_add C1 _ (by omega)
  have hB : (sums a).B.value = (sums a).C.value + (a.get 12).toNat :=
    value_add (sums a).C _ (by omega)
  let A1 := (sums a).B.add (a.get 11)
  have hA1 : A1.value = (sums a).B.value + (a.get 11).toNat :=
    value_add (sums a).B _ (by omega)
  have hA : (sums a).A.value + (a.get 15).toNat = A1.value := value_sub A1 _ (by omega)
  let D1 := (sums a).A.add (a.get 10)
  have hD1 : D1.value = (sums a).A.value + (a.get 10).toNat :=
    value_add (sums a).A _ (by omega)
  have hD : (sums a).D.value + (a.get 14).toNat = D1.value := value_sub D1 _ (by omega)
  have pair (i j : Fin 16) : ((ofWord (a.get i)).add (a.get j)).value =
      (a.get i).toNat + (a.get j).toNat := by
    have bi := bounds i
    rw [value_add _ _ (by rw [value_ofWord]; omega), value_ofWord]
  have hE : (sums a).E.value = _ := pair 8 9
  have hF : (sums a).F.value = _ := pair 9 10
  have hG : (sums a).G.value = _ := pair 10 11
  omega

/-- A column of the code: its word `a[i]` and the operations done on it. -/
structure ColumnCode where
  word : UInt32
  body : Column → Column

/-- Run columns from the bottom up, passing each excess to the next column. -/
def runColumns : UInt32 → List ColumnCode → List UInt32 × UInt32
  | U, [] => ([], U)
  | U, code :: rest =>
    let column := code.body (enterColumn U code.word)
    let above := runColumns column.excess rest
    (column.word :: above.1, above.2)

def columnCodes : List ColumnCode :=
  [⟨a.get 0, column0 (sums a)⟩, ⟨a.get 1, column1 (sums a)⟩, ⟨a.get 2, column2 (sums a)⟩,
   ⟨a.get 3, column3 a (sums a)⟩, ⟨a.get 4, column4 a (sums a)⟩, ⟨a.get 5, column5 a (sums a)⟩,
   ⟨a.get 6, column6 a (sums a)⟩, ⟨a.get 7, column7 a (sums a)⟩]

theorem enterColumn_zero (a : UInt32) : enterColumn 0 a = ⟨a, 0⟩ := by
  have zero : a + 0 = a := UInt32.add_zero a
  simp [enterColumn, flag, zero]

theorem reduceColumns_eq_run :
    (reduceColumns a).1.digits = (runColumns 0 (columnCodes a)).1 ∧
      (reduceColumns a).2 = (runColumns 0 (columnCodes a)).2 := by
  simp only [runColumns, columnCodes, enterColumn_zero]
  exact ⟨rfl, rfl⟩

/-- The code of a column realizes an integer column of moderate size. -/
structure Realizes (code : ColumnCode) (column : IntColumn) : Prop where
  word_eq : (code.word.toNat : Int) = column.word
  adds : Adds code.body column.addend
  lower : -2 ^ 36 ≤ column.addend
  upper : column.addend ≤ 2 ^ 36

theorem Realizes.settle {code : ColumnCode} {column : IntColumn} (realizes : Realizes code column)
    {U : UInt32} (low : -32 ≤ signed U) (high : signed U ≤ 32) :
    let result := code.body (enterColumn U code.word)
    (result.word.toNat : Int) = columnSum (signed U) column % 2 ^ 32 ∧
      signed result.excess = columnSum (signed U) column / 2 ^ 32 ∧
      -32 ≤ signed result.excess ∧ signed result.excess ≤ 32 := by
  intro result
  have wordLt := code.word.toNat_lt
  have entered := enterColumn_holds U code.word
  have held := realizes.adds _ _ entered
  rw [realizes.word_eq] at held
  have lower := realizes.lower
  have upper := realizes.upper
  have word_eq := realizes.word_eq
  have sum_eq : column.word + signed U + lostBorrow (signed U) column.word + column.addend =
      columnSum (signed U) column := rfl
  have small : 0 ≤ lostBorrow (signed U) column.word ∧
      lostBorrow (signed U) column.word ≤ 2 ^ 33 := by
    unfold lostBorrow
    split <;> omega
  obtain ⟨digit, excess⟩ := held.settle (by omega) (by omega)
  rw [sum_eq] at digit excess
  refine ⟨digit, excess, ?_, ?_⟩
  · rw [excess]; omega
  · rw [excess]; omega

theorem runColumns_value {codes : List ColumnCode} {list : List IntColumn}
    (realized : List.Forall₂ Realizes codes list) (U : UInt32)
    (low : -32 ≤ signed U) (high : signed U ≤ 32) :
    (wordsValue (runColumns U codes).1 : Int) +
        2 ^ (32 * codes.length) * signed (runColumns U codes).2 =
      signed U + columnsValue list + lostBorrows (signed U) list ∧
    -32 ≤ signed (runColumns U codes).2 ∧ signed (runColumns U codes).2 ≤ 32 := by
  induction realized generalizing U with
  | nil => simpa [runColumns, columnsValue, lostBorrows] using ⟨low, high⟩
  | @cons code column codes list here rest ih =>
    obtain ⟨digit, excess, nextLow, nextHigh⟩ := here.settle low high
    obtain ⟨value, lastLow, lastHigh⟩ := ih _ nextLow nextHigh
    refine ⟨?_, lastLow, lastHigh⟩
    rw [excess] at value
    simp only [runColumns, columnsValue, lostBorrows, wordsValue_cons, List.length_cons,
      Nat.mul_succ, Nat.add_comm (32 * codes.length), pow_add, mul_assoc, Nat.cast_add,
      Nat.cast_mul] at value ⊢
    have sum_eq : columnSum (signed U) column =
      column.word + signed U + lostBorrow (signed U) column.word + column.addend := rfl
    generalize lostBorrows (columnSum (signed U) column / 2 ^ 32) list = lost at value ⊢
    push_cast
    omega

theorem Realizes.of_holds {word : UInt32} {body : Column → Column} {w addend : Int}
    (word_eq : (word.toNat : Int) = w)
    (holds : ∀ column total, column.Holds total →
      ∃ sum, (body column).Holds sum ∧ sum = total + addend)
    (lower : -2 ^ 36 ≤ addend) (upper : addend ≤ 2 ^ 36) :
    Realizes ⟨word, body⟩ ⟨w, addend⟩ where
  word_eq := word_eq
  adds := by
    intro column total held
    obtain ⟨sum, result, eq⟩ := holds column total held
    exact eq ▸ result
  lower := lower
  upper := upper

theorem columns_realized : List.Forall₂ Realizes (columnCodes a) (columns a) := by
  have bounds : ∀ i, (a.get i).toNat < 2 ^ 32 := fun i => (a.get i).toNat_lt
  have b8 := bounds 8
  have b9 := bounds 9
  have b10 := bounds 10
  have b11 := bounds 11
  have b12 := bounds 12
  have b13 := bounds 13
  have b14 := bounds 14
  have b15 := bounds 15
  obtain ⟨hA, hB, hC, hD, hE, hF, hG⟩ := sums_value a
  simp only [columnCodes, columns]
  refine .cons (.of_holds rfl (fun _ _ held =>
      ⟨_, (held.addWide (sums a).E).subWide (sums a).A, by omega⟩) (by omega) (by omega)) <|
    .cons (.of_holds rfl (fun _ _ held =>
      ⟨_, (held.addWide (sums a).F).subWide (sums a).B, by omega⟩) (by omega) (by omega)) <|
    .cons (.of_holds rfl (fun _ _ held =>
      ⟨_, (held.addWide (sums a).G).subWide (sums a).C, by omega⟩) (by omega) (by omega)) <|
    .cons (.of_holds rfl (fun _ _ held =>
      ⟨_, (((((held.addWide (sums a).A).add (a.get 11)).add (a.get 12)).sub (a.get 14)).sub
        (a.get 15)).subWide (sums a).E, by omega⟩) (by omega) (by omega)) <|
    .cons (.of_holds rfl (fun _ _ held =>
      ⟨_, ((((held.addWide (sums a).B).sub (a.get 15)).add (a.get 12)).add
        (a.get 13)).subWide (sums a).F, by omega⟩) (by omega) (by omega)) <|
    .cons (.of_holds rfl (fun _ _ held =>
      ⟨_, (((held.addWide (sums a).C).add (a.get 13)).add (a.get 14)).subWide (sums a).G,
        by omega⟩) (by omega) (by omega)) <| .cons (.of_holds rfl (fun _ _ held =>
      ⟨_, ((((held.addWide (sums a).C).add (a.get 14)).add (a.get 14)).add
        (a.get 15)).subWide (sums a).E, by omega⟩) (by omega) (by omega)) <|
    .cons (.of_holds rfl (fun _ _ held =>
      ⟨_, ((((held.add (a.get 15)).add (a.get 15)).add (a.get 15)).add
        (a.get 8)).subWide (sums a).D, by omega⟩) (by omega) (by omega)) .nil

/-- The words before folding, the top excess and the lost borrows add up. -/
theorem reduceColumns_value :
    ((reduceColumns a).1.value : Int) + 2 ^ 256 * signed (reduceColumns a).2 =
      columnsValue (columns a) + lostBorrows 0 (columns a) ∧
    -32 ≤ signed (reduceColumns a).2 ∧ signed (reduceColumns a).2 ≤ 32 := by
  obtain ⟨digits, excess⟩ := reduceColumns_eq_run a
  have run := runColumns_value (columns_realized a) 0 (by decide) (by decide)
  rw [Words.value, digits, excess]
  have zero : signed 0 = 0 := rfl
  rw [zero, Int.zero_add] at run
  exact run

end

end BluetoothFormal.Smp.FastModP256
