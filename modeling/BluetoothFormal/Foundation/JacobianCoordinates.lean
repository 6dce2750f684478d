import Mathlib.AlgebraicGeometry.EllipticCurve.Affine.Point
import Mathlib.GroupTheory.Perm.Cycle.Type
import Mathlib.Tactic.FieldSimp
import Mathlib.Tactic.LinearCombination

/-!
# Jacobian coordinates on a short Weierstrass curve

The coordinates `(x, y, z)` stand for the point `(x / z ^ 2, y / z ^ 3)` of the curve
`y ^ 2 = x ^ 3 + a * x + b`, and for the point at infinity if `z` is zero.  The
formulas for doubling and for the addition of an affine point have no division.  A
finite curve has at most two points for each `x`, which with one point of prime order
can be enough to find its order.
-/

namespace BluetoothFormal.Foundation.JacobianCoordinates

open WeierstrassCurve WeierstrassCurve

variable {F : Type} [Field F]

-- The numeral `3` of the tangent and of the curves of the field.
scoped instance three_atLeastTwo : Nat.AtLeastTwo 3 := ⟨by decide⟩

/-- The curve `y ^ 2 = x ^ 3 + a * x + b`. -/
def short (a b : F) : Affine F where
  a₁ := 0
  a₂ := 0
  a₃ := 0
  a₄ := a
  a₆ := b

section Curve

variable (a b : F)

theorem short_equation_iff (x y : F) :
    (short a b).Equation x y ↔ y ^ 2 = x ^ 3 + a * x + b := by
  rw [Affine.equation_iff]
  simp [short]

theorem short_negY (x y : F) : (short a b).negY x y = -y := by
  simp [Affine.negY, short]

theorem short_discriminant : (short a b).Δ = -16 * (4 * a ^ 3 + 27 * b ^ 2) := by
  simp only [WeierstrassCurve.Δ, b₂, b₄, b₆, b₈, short]
  ring

end Curve

variable {a b : F}

variable {y x : F}

theorem some_congr {x' y' : F} (nonsingular : (short a b).Nonsingular x y) (sameX : x = x')
    (sameY : y = y') :
    ∃ other, Affine.Point.some x y nonsingular = Affine.Point.some x' y' other := by
  subst sameX sameY
  exact ⟨nonsingular, rfl⟩

/-- The coordinates stand for a point. -/
def Represents (x y z : F) (point : (short a b).Point) : Prop :=
  (z = 0 ∧ point = 0) ∨ (z ≠ 0 ∧ ∃ nonsingular, point = .some (x / z ^ 2) (y / z ^ 3) nonsingular)

theorem represents_zero (x y : F) : Represents x y 0 (0 : (short a b).Point) := .inl ⟨rfl, rfl⟩

theorem Represents.eq_zero {z : F} {point : (short a b).Point}
    (represents : Represents x y z point) (infinite : z = 0) : point = 0 := by
  rcases represents with ⟨-, zero⟩ | ⟨finite, -⟩
  · exact zero
  · exact absurd infinite finite

theorem represents_affine (nonsingular : (short a b).Nonsingular x y) :
    Represents x y 1 (.some x y nonsingular) := by
  refine .inr ⟨one_ne_zero, some_congr nonsingular ?_ ?_⟩
  · rw [one_pow, div_one]
  · rw [one_pow, div_one]

/-- The slope of the tangent, times `2 * y * z`. -/
def tangent (a x z : F) : F := 3 * x ^ 2 + a * z ^ 4

def doubleX (a x y z : F) : F := tangent a x z ^ 2 - 8 * x * y ^ 2

def doubleY (a x y z : F) : F :=
  tangent a x z * (4 * x * y ^ 2 - doubleX a x y z) - 8 * y ^ 4

theorem add_self_coordinates [DecidableEq F] (nonsingular : (short a b).Nonsingular x y)
    (other : y ≠ -y) :
    ∃ sum, (Affine.Point.some x y nonsingular + Affine.Point.some x y nonsingular) =
      Affine.Point.some (((3 * x ^ 2 + a) / (2 * y)) ^ 2 - 2 * x)
        ((3 * x ^ 2 + a) / (2 * y) * (3 * x - ((3 * x ^ 2 + a) / (2 * y)) ^ 2) - y) sum := by
  have apart : y ≠ (short a b).negY x y := by
    rw [short_negY]
    exact other
  have slope : (short a b).slope x x y y = (3 * x ^ 2 + a) / (2 * y) := by
    rw [Affine.slope_of_Y_ne rfl apart, short_negY]
    simp only [short]
    congr 1
    · ring
    · ring
  rw [Affine.Point.add_self_of_Y_ne apart]
  refine some_congr _ ?_ ?_
  · rw [slope]
    simp only [Affine.addX, short]
    ring
  · rw [slope]
    simp only [Affine.addY, Affine.negAddY, Affine.addX, Affine.negY, short]
    ring

theorem Represents.double [DecidableEq F] {z : F} {point : (short a b).Point}
    (represents : Represents x y z point) (finite : z ≠ 0) :
    Represents (doubleX a x y z) (doubleY a x y z) (2 * y * z) (point + point) := by
  rcases represents with ⟨zero, -⟩ | ⟨-, nonsingular, rfl⟩
  · exact absurd zero finite
  by_cases own : y / z ^ 3 = -(y / z ^ 3)
  · -- the point is its own negative, and `2 * y` is zero
    have double : 2 * y = 0 := by
      field_simp at own
      linear_combination own
    rw [double, zero_mul, Affine.Point.add_self_of_Y_eq (by rw [short_negY]; exact own)]
    exact represents_zero _ _
  · have double : 2 * y ≠ 0 := by
      intro zero
      apply own
      field_simp
      linear_combination zero
    have third : 2 * y * z ≠ 0 := mul_ne_zero double finite
    have yNe : y ≠ 0 := right_ne_zero_of_mul double
    have twoNe : (2 : F) ≠ 0 := left_ne_zero_of_mul double
    obtain ⟨sum, coordinates⟩ := add_self_coordinates nonsingular own
    rw [coordinates]
    refine .inr ⟨third, some_congr sum ?_ ?_⟩
    · simp only [doubleX, tangent]
      field_simp
      ring
    · simp only [doubleY, doubleX, tangent]
      field_simp
      ring

/-- The difference of the abscissas, times `z ^ 2`. -/
def run (x z x' : F) : F := x' * z ^ 2 - x

/-- The difference of the ordinates, times `z ^ 3`. -/
def rise (y z y' : F) : F := y' * z ^ 3 - y

def addX (x y z x' y' : F) : F :=
  rise y z y' ^ 2 - 2 * run x z x' ^ 2 * x - run x z x' ^ 3

def addY (x y z x' y' : F) : F :=
  rise y z y' * (run x z x' ^ 2 * x - addX x y z x' y') - run x z x' ^ 3 * y

section Add

variable {x y z x' y' : F} {point : (short a b).Point}

theorem run_eq_zero_iff (finite : z ≠ 0) : run x z x' = 0 ↔ x / z ^ 2 = x' := by
  rw [run, sub_eq_zero, div_eq_iff (pow_ne_zero 2 finite), eq_comm]

theorem rise_eq_zero_iff (finite : z ≠ 0) : rise y z y' = 0 ↔ y / z ^ 3 = y' := by
  rw [rise, sub_eq_zero, div_eq_iff (pow_ne_zero 3 finite), eq_comm]

variable [DecidableEq F]

theorem Represents.add (represents : Represents x y z point) (finite : z ≠ 0)
    (nonsingular : (short a b).Nonsingular x' y') (apart : run x z x' ≠ 0) :
    Represents (addX x y z x' y') (addY x y z x' y') (z * run x z x')
      (point + .some x' y' nonsingular) := by
  rcases represents with ⟨zero, -⟩ | ⟨-, affine, rfl⟩
  · exact absurd zero finite
  have different : x / z ^ 2 ≠ x' := mt (run_eq_zero_iff finite).mpr apart
  have slope : (short a b).slope (x / z ^ 2) x' (y / z ^ 3) y' =
      rise y z y' / (z * run x z x') := by
    have distance : x / z ^ 2 - x' ≠ 0 := sub_ne_zero.mpr different
    rw [Affine.slope_of_X_ne different, div_eq_div_iff distance (mul_ne_zero finite apart)]
    simp only [rise, run]
    field_simp
    ring
  rw [Affine.Point.add_of_X_ne different]
  refine .inr ⟨mul_ne_zero finite apart, some_congr _ ?_ ?_⟩
  · rw [slope]
    simp only [Affine.addX, short, addX]
    field_simp
    simp only [run]
    ring
  · rw [slope]
    simp only [Affine.addY, Affine.negAddY, Affine.addX, Affine.negY, short, addY, addX]
    field_simp
    simp only [run]
    ring

omit [DecidableEq F] in
theorem Represents.eq_of_run_rise (represents : Represents x y z point) (finite : z ≠ 0)
    (nonsingular : (short a b).Nonsingular x' y') (sameX : run x z x' = 0)
    (sameY : rise y z y' = 0) : point = .some x' y' nonsingular := by
  rcases represents with ⟨zero, -⟩ | ⟨-, affine, rfl⟩
  · exact absurd zero finite
  obtain ⟨other, same⟩ := some_congr affine ((run_eq_zero_iff finite).mp sameX)
    ((rise_eq_zero_iff finite).mp sameY)
  exact same

theorem Represents.add_opposite (represents : Represents x y z point) (finite : z ≠ 0)
    (nonsingular : (short a b).Nonsingular x' y') (sameX : run x z x' = 0)
    (different : rise y z y' ≠ 0) : point + .some x' y' nonsingular = 0 := by
  rcases represents with ⟨zero, -⟩ | ⟨-, affine, rfl⟩
  · exact absurd zero finite
  have abscissa := (run_eq_zero_iff finite).mp sameX
  rcases Affine.Y_eq_of_X_eq affine.1 nonsingular.1 abscissa with equal | opposite
  · exact absurd ((rise_eq_zero_iff finite).mpr equal) different
  · exact Affine.Point.add_of_Y_eq abscissa opposite

end Add

/-- The abscissa of a point, and which of at most two ordinates it has. -/
noncomputable def abscissa [DecidableEq F] (W : Affine F) : W.Point → Option (F × Bool)
  | 0 => none
  | .some x y _ => some (x, decide (y = Classical.epsilon (W.Equation x)))

theorem abscissa_injective [DecidableEq F] (W : Affine F) : Function.Injective (abscissa W) := by
  intro first second same
  match first, second with
  | 0, 0 => rfl
  | 0, .some x y h => cases same
  | .some x y h, 0 => cases same
  | .some x y h, .some x' y' h' =>
    obtain ⟨rfl, side⟩ := Prod.mk.inj (Option.some.inj same)
    have chosen : W.Equation x (Classical.epsilon (W.Equation x)) :=
      Classical.epsilon_spec ⟨y, h.1⟩
    generalize Classical.epsilon (W.Equation x) = ordinate at side chosen
    have equal : y = y' := by
      by_cases here : y = ordinate
      · have there : y' = ordinate := of_decide_eq_true (side ▸ decide_eq_true here)
        rw [here, there]
      · have there : y' ≠ ordinate := of_decide_eq_false (side ▸ decide_eq_false here)
        have negated := (Affine.Y_eq_of_X_eq h.1 chosen rfl).resolve_left here
        have negatedToo := (Affine.Y_eq_of_X_eq h'.1 chosen rfl).resolve_left there
        rw [negated, negatedToo]
    subst equal
    rfl

theorem card_point_le [DecidableEq F] [Finite F] (W : Affine F) :
    Finite W.Point ∧ Nat.card W.Point ≤ 2 * Nat.card F + 1 := by
  have injective := abscissa_injective W
  refine ⟨Finite.of_injective _ injective, ?_⟩
  have bound := Nat.card_le_card_of_injective _ injective
  rw [Finite.card_option, Nat.card_prod, Nat.card_eq_fintype_card (α := Bool),
    Fintype.card_bool, mul_comm] at bound
  exact bound

section Order

variable {Group : Type} [AddCommGroup Group] {order : Nat}

/-- A group that is less than three times as large as one of its prime orders, and has no
element of order two. -/
theorem card_eq_of_torsion [Finite Group] (prime : order.Prime) {generator : Group}
    (nonzero : generator ≠ 0)
    (torsion : order • generator = 0) (few : Nat.card Group < 3 * order)
    (odd : ∀ element : Group, element + element = 0 → element = 0) :
    Nat.card Group = order := by
  have : Fact order.Prime := ⟨prime⟩
  have generated : addOrderOf generator = order := addOrderOf_eq_prime torsion nonzero
  obtain ⟨index, total⟩ : order ∣ Nat.card Group :=
    generated ▸ addOrderOf_dvd_natCard generator
  have positive : 0 < Nat.card Group := Nat.card_pos
  have less : index < 3 := by
    rw [total, mul_comm] at few
    exact Nat.lt_of_mul_lt_mul_right few
  have one : index = 1 := by
    rcases lt_or_ge index 2 with small | two
    · rcases eq_zero_or_pos index with rfl | some
      · rw [total, mul_zero] at positive
        exact absurd positive (lt_irrefl 0)
      · omega
    · have exactly : index = 2 := by omega
      have even : 2 ∣ Nat.card Group := ⟨order, by rw [total, exactly, mul_comm]⟩
      obtain ⟨element, two⟩ := exists_prime_addOrderOf_dvd_card' 2 even
      have zero : element = 0 := by
        apply odd
        rw [← two_nsmul, ← two]
        exact addOrderOf_nsmul_eq_zero element
      rw [zero, addOrderOf_zero] at two
      cases two
  rw [total, one, mul_one]

theorem nsmul_ne_zero_of_lt (prime : order.Prime) (card : Nat.card Group = order)
    {element : Group} (nonzero : element ≠ 0) {count : Nat} (positive : 0 < count)
    (less : count < order) : count • element ≠ 0 := by
  intro zero
  have divides : addOrderOf element ∣ order := card ▸ addOrderOf_dvd_natCard element
  rcases (Nat.dvd_prime prime).mp divides with one | full
  · exact nonzero (AddMonoid.addOrderOf_eq_one_iff.mp one)
  · have multiple := addOrderOf_dvd_of_nsmul_eq_zero zero
    rw [full] at multiple
    exact Nat.not_le.mpr less (Nat.le_of_dvd positive multiple)

end Order

end BluetoothFormal.Foundation.JacobianCoordinates
