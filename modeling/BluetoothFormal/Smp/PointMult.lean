import Mathlib.Algebra.Field.ZMod
import BluetoothFormal.Foundation.JacobianCoordinates
import BluetoothFormal.Smp.NonAdjacentForm

/-!
# Point multiplication by the non-adjacent form

`ECC_PointMult_Bin_NAF` doubles and adds in Jacobian coordinates and returns to affine
coordinates at its end.  The modular primitives are parameters here.  If they are exact
for a prime modulus, the loop keeps one relation: the coordinates of `q` stand for the
multiple of the point that the digits read so far stand for.
-/

namespace BluetoothFormal.Smp.PointMult

open WeierstrassCurve List
open Foundation.WordArithmetic
open Foundation.JacobianCoordinates
open Smp.Multiprecision
open Smp.NonAdjacentForm

/-- The modular primitives of `p_256_multprecision.h`. -/
structure FieldPrimitives (Num : Type) where
  addMod : Num → Num → Num
  subMod : Num → Num → Num
  mersennsMultMod : Num → Num → Num
  lshiftMod : Num → Num
  mersennsSquaMod : Num → Num
  invMod : Num → Num

/-- The primitives with `multiprecision_init` and `multiprecision_iszero`. -/
structure Arithmetic (Num : Type) extends FieldPrimitives Num where
  init : Num
  isZero : Num → Bool

structure Point (Num : Type) where
  x : Num
  y : Num
  z : Num

section Code

variable {Num : Type} (F : Arithmetic Num)

/-- `ECC_Double` into `q`. -/
def eccDouble (q p : Point Num) : Point Num :=
  if F.isZero p.z then { q with z := F.init }
  else
    let t1 := F.mersennsSquaMod p.z
    let t2 := F.subMod p.x t1
    let t1 := F.addMod p.x t1
    let t2 := F.mersennsMultMod t1 t2
    let t3 := F.lshiftMod t2
    let t2 := F.addMod t3 t2
    let z3 := F.mersennsMultMod p.y p.z
    let z3 := F.lshiftMod z3
    let y3 := F.mersennsSquaMod p.y
    let y3 := F.lshiftMod y3
    let t3 := F.mersennsMultMod y3 p.x
    let t3 := F.lshiftMod t3
    let y3 := F.mersennsSquaMod y3
    let y3 := F.lshiftMod y3
    let x3 := F.mersennsSquaMod t2
    let t1 := F.lshiftMod t3
    let x3 := F.subMod x3 t1
    let t1 := F.subMod t3 x3
    let t1 := F.mersennsMultMod t1 t2
    let y3 := F.subMod t1 y3
    ⟨x3, y3, z3⟩

/-- `ECC_Add` into `r`, with `p` as it is left: its coordinate `z` serves as a temporary. -/
def eccAdd (r p q : Point Num) : Point Num × Point Num :=
  if F.isZero q.z then (p, p)
  else if F.isZero p.z then (q, p)
  else
    let t1 := F.mersennsSquaMod p.z
    let t2 := F.mersennsMultMod p.z t1
    let t1 := F.mersennsMultMod q.x t1
    let t2 := F.mersennsMultMod q.y t2
    let t1 := F.subMod t1 p.x
    let t2 := F.subMod t2 p.y
    if F.isZero t1 then
      if F.isZero t2 then (eccDouble F r q, p) else ({ r with z := F.init }, p)
    else
      let z3 := F.mersennsMultMod p.z t1
      let y3 := F.mersennsSquaMod t1
      let z1 := F.mersennsMultMod y3 t1
      let y3 := F.mersennsMultMod y3 p.x
      let t1 := F.lshiftMod y3
      let x3 := F.mersennsSquaMod t2
      let x3 := F.subMod x3 t1
      let x3 := F.subMod x3 z1
      let y3 := F.subMod y3 x3
      let y3 := F.mersennsMultMod y3 t2
      let z1 := F.mersennsMultMod z1 p.y
      let y3 := F.subMod y3 z1
      (⟨x3, y3, z3⟩, { p with z := z1 })

/-- The points that the loop of `ECC_PointMult_Bin_NAF` writes. -/
structure Registers (Num : Type) where
  q : Point Num
  r : Point Num

/-- One turn of the loop. -/
def pointMultStep (p minusP : Point Num) (registers : Registers Num) (sign : UInt32) :
    Registers Num :=
  let r := registers.q
  let q := eccDouble F registers.q r
  if sign = 1 then
    let r := q
    let (q, r) := eccAdd F q r p
    ⟨q, r⟩
  else if sign = 3 then
    let r := q
    let (q, r) := eccAdd F q r minusP
    ⟨q, r⟩
  else ⟨q, r⟩

/-- The loop over the digits from the most significant one on. -/
def pointMultLoop (p minusP : Point Num) (registers : Registers Num) (signs : List UInt32) :
    Registers Num :=
  signs.foldl (pointMultStep F p minusP) registers

/-- The last lines of `ECC_PointMult_Bin_NAF`, which divide by `q->z`. -/
def toAffine (q : Point Num) : Point Num :=
  let inverse := F.invMod q.z
  let z := F.mersennsSquaMod inverse
  let x := F.mersennsMultMod q.x z
  let z := F.mersennsMultMod z inverse
  let y := F.mersennsMultMod q.y z
  ⟨x, y, z⟩

end Code

def multiprecisionInit : Dwords := ⟨replicate keyLengthDwordsP256 0, rfl⟩

def multiprecisionIszero (a : Dwords) : Bool := a.digits.all fun word => word == 0

/-- The coordinate `z` of an affine point. -/
def oneDwords : Dwords := ⟨1 :: replicate 7 0, rfl⟩

/-- Numbers as the code stores them. -/
def dwordArithmetic (primitives : FieldPrimitives Dwords) : Arithmetic Dwords :=
  { primitives with
    init := multiprecisionInit
    isZero := multiprecisionIszero }

def p256InitPoint : Point Dwords := ⟨multiprecisionInit, multiprecisionInit, multiprecisionInit⟩

/-- `ECC_PointMult_Bin_NAF`; the result is `q`. -/
def eccPointMultBinNaf (primitives : FieldPrimitives Dwords) (p : Point Dwords) (n : Dwords) :
    Option (Point Dwords) := do
  let F := dwordArithmetic primitives
  let r := p256InitPoint
  let p := { p with z := oneDwords }
  let q := p256InitPoint
  let minusP : Point Dwords := ⟨p.x, (multiprecisionSub curveP256p p.y).1, oneDwords⟩
  let (naf, numNaf) ← eccNaf n
  let signs := ((range numNaf).map (readDigit naf)).reverse
  some (toAffine F (pointMultLoop F p minusP ⟨q, r⟩ signs).q)

section Exact

variable {Num : Type} (value : Num → Nat) (modulus : Nat)

/-- Every primitive returns the residue of its exact result, for residues as arguments. -/
structure Exact (F : FieldPrimitives Num) : Prop where
  addMod : ∀ {a b}, value a < modulus → value b < modulus →
    value (F.addMod a b) = (value a + value b) % modulus
  subMod : ∀ {a b}, value a < modulus → value b < modulus →
    value (F.subMod a b) = (value a + (modulus - value b)) % modulus
  mersennsMultMod : ∀ {a b}, value a < modulus → value b < modulus →
    value (F.mersennsMultMod a b) = value a * value b % modulus
  lshiftMod : ∀ {a}, value a < modulus → value (F.lshiftMod a) = 2 * value a % modulus
  mersennsSquaMod : ∀ {a}, value a < modulus →
    value (F.mersennsSquaMod a) = value a * value a % modulus
  invMod : ∀ {a}, value a < modulus → value a ≠ 0 →
    value (F.invMod a) < modulus ∧ value a * value (F.invMod a) % modulus = 1

structure Sound (F : Arithmetic Num) : Prop extends Exact value modulus F.toFieldPrimitives where
  init : value F.init = 0
  isZero_iff : ∀ a, F.isZero a = true ↔ value a = 0

variable {value modulus}

/-- The number is the residue of the field element. -/
structure Residue (value : Num → Nat) (a : Num) (element : ZMod modulus) : Prop where
  lt : value a < modulus
  cast : (value a : ZMod modulus) = element

theorem Residue.of_mod [NeZero modulus] {a : Num} {number : Nat} {element : ZMod modulus}
    (is : value a = number % modulus) (cast : (number : ZMod modulus) = element) :
    Residue value a element where
  lt := is ▸ Nat.mod_lt number (NeZero.pos modulus)
  cast := by rw [is, ZMod.natCast_mod, cast]

theorem Residue.congr {a : Num} {element other : ZMod modulus} (residue : Residue value a element)
    (same : element = other) : Residue value a other := same ▸ residue

variable [prime : Fact modulus.Prime] {F : Arithmetic Num} (sound : Sound value modulus F)
variable {a b : Num} {left right : ZMod modulus}

namespace Sound

include sound

theorem residue_init : Residue value F.init (0 : ZMod modulus) where
  lt := sound.init ▸ prime.out.pos
  cast := by rw [sound.init, Nat.cast_zero]

section

variable (isLeft : Residue value a left)
include isLeft

theorem residue_addMod (isRight : Residue value b right) :
    Residue value (F.addMod a b) (left + right) :=
  .of_mod (sound.addMod isLeft.lt isRight.lt) (by rw [Nat.cast_add, isLeft.cast, isRight.cast])

theorem residue_subMod (isRight : Residue value b right) :
    Residue value (F.subMod a b) (left - right) :=
  .of_mod (sound.subMod isLeft.lt isRight.lt) (by
    rw [Nat.cast_add, Nat.cast_sub isRight.lt.le, ZMod.natCast_self, isLeft.cast, isRight.cast,
      zero_sub, sub_eq_add_neg])

theorem residue_multMod (isRight : Residue value b right) :
    Residue value (F.mersennsMultMod a b) (left * right) :=
  .of_mod (sound.mersennsMultMod isLeft.lt isRight.lt) (by
    rw [Nat.cast_mul, isLeft.cast, isRight.cast])

theorem residue_lshiftMod :
    Residue value (F.lshiftMod a) (2 * left) :=
  .of_mod (sound.lshiftMod isLeft.lt) (by rw [Nat.cast_mul, Nat.cast_ofNat, isLeft.cast])

theorem residue_squaMod :
    Residue value (F.mersennsSquaMod a) (left ^ 2) :=
  .of_mod (sound.mersennsSquaMod isLeft.lt) (by rw [Nat.cast_mul, isLeft.cast, sq])

theorem residue_isZero_iff : F.isZero a = true ↔ left = 0 := by
  rw [sound.isZero_iff, ← isLeft.cast, ZMod.natCast_eq_zero_iff]
  constructor
  · intro zero
    rw [zero]
    exact dvd_zero modulus
  · intro divides
    exact Nat.eq_zero_of_dvd_of_lt divides isLeft.lt

theorem residue_invMod (nonzero : left ≠ 0) :
    Residue value (F.invMod a) left⁻¹ := by
  have some : value a ≠ 0 := by
    rw [← isLeft.cast] at nonzero
    rintro zero
    rw [zero, Nat.cast_zero] at nonzero
    exact nonzero rfl
  obtain ⟨lt, product⟩ := sound.invMod isLeft.lt some
  refine ⟨lt, eq_inv_of_mul_eq_one_right ?_⟩
  have one := congrArg (Nat.cast : Nat → ZMod modulus) product
  rw [ZMod.natCast_mod, Nat.cast_mul, isLeft.cast, Nat.cast_one] at one
  exact one

end

end Sound

end Exact

section Points

variable {Num : Type} {value : Num → Nat} {modulus : Nat} [prime : Fact modulus.Prime]
variable {b : ZMod modulus}

/-- The coordinates are residues and stand for a point of the curve with `a = -3`. -/
def Stands (value : Num → Nat) (pt : Point Num) (point : (short (-3) b).Point) : Prop :=
  ∃ x y z, Residue value pt.x x ∧ Residue value pt.y y ∧ Residue value pt.z z ∧
    Represents x y z point

structure IsAffine (value : Num → Nat) (pt : Point Num) {x y : ZMod modulus}
    (nonsingular : (short (-3) b).Nonsingular x y) : Prop where
  x : Residue value pt.x x
  y : Residue value pt.y y
  z : Residue value pt.z (1 : ZMod modulus)

theorem IsAffine.stands {pt : Point Num} {x y : ZMod modulus}
    {nonsingular : (short (-3) b).Nonsingular x y} (affine : IsAffine value pt nonsingular) :
    Stands value pt (.some x y nonsingular) :=
  ⟨x, y, 1, affine.x, affine.y, affine.z, represents_affine nonsingular⟩

variable {F : Arithmetic Num} (sound : Sound value modulus F)
variable {q p : Point Num} {old point : (short (-3) b).Point}

include sound

theorem Stands.clear (was : Stands value q old) :
    Stands value { q with z := F.init } (0 : (short (-3) b).Point) := by
  obtain ⟨x, y, -, isX, isY, -⟩ := was
  exact ⟨x, y, 0, isX, isY, sound.residue_init, represents_zero x y⟩

theorem eccDouble_stands (was : Stands value q old) (stands : Stands value p point) :
    Stands value (eccDouble F q p) (point + point) := by
  obtain ⟨x, y, z, isX, isY, isZ, represents⟩ := stands
  rw [eccDouble]
  by_cases infinite : z = 0
  · rw [if_pos ((sound.residue_isZero_iff isZ).mpr infinite)]
    rw [represents.eq_zero infinite, add_zero]
    exact was.clear sound
  · rw [if_neg (mt (sound.residue_isZero_iff isZ).mp infinite)]
    -- the temporaries in the order in which they are written
    have square := sound.residue_squaMod isZ
    have product := sound.residue_multMod (sound.residue_addMod isX square)
      (sound.residue_subMod isX square)
    have slope := sound.residue_addMod (sound.residue_lshiftMod product) product
    have third := sound.residue_lshiftMod (sound.residue_multMod isY isZ)
    have twice := sound.residue_lshiftMod (sound.residue_squaMod isY)
    have middle := sound.residue_lshiftMod (sound.residue_multMod twice isX)
    have last := sound.residue_lshiftMod (sound.residue_squaMod twice)
    have first := sound.residue_subMod (sound.residue_squaMod slope)
      (sound.residue_lshiftMod middle)
    have second := sound.residue_subMod
      (sound.residue_multMod (sound.residue_subMod middle first) slope) last
    refine ⟨doubleX (-3) x y z, doubleY (-3) x y z, 2 * y * z, first.congr ?_, second.congr ?_,
      third.congr (mul_assoc 2 y z).symm, represents.double infinite⟩
    · rw [doubleX, tangent]
      ring
    · rw [doubleY, doubleX, tangent]
      ring

theorem eccAdd_stands {r : Point Num} (was : Stands value r old) (stands : Stands value p point)
    {x' y' : ZMod modulus} {nonsingular : (short (-3) b).Nonsingular x' y'}
    (affine : IsAffine value q nonsingular) :
    Stands value (eccAdd F r p q).1 (point + .some x' y' nonsingular) := by
  obtain ⟨x, y, z, isX, isY, isZ, represents⟩ := stands
  rw [eccAdd, if_neg (mt (sound.residue_isZero_iff affine.z).mp one_ne_zero)]
  by_cases infinite : z = 0
  · rw [if_pos ((sound.residue_isZero_iff isZ).mpr infinite)]
    rw [represents.eq_zero infinite, zero_add]
    exact affine.stands
  · rw [if_neg (mt (sound.residue_isZero_iff isZ).mp infinite)]
    have square := sound.residue_squaMod isZ
    have across := (sound.residue_subMod (sound.residue_multMod affine.x square) isX).congr
      (show _ = run x z x' from rfl)
    have up := (sound.residue_subMod
      (sound.residue_multMod affine.y (sound.residue_multMod isZ square)) isY).congr
      (show _ = rise y z y' by rw [rise]; ring)
    by_cases sameX : run x z x' = 0
    · rw [if_pos ((sound.residue_isZero_iff across).mpr sameX)]
      by_cases sameY : rise y z y' = 0
      · rw [if_pos ((sound.residue_isZero_iff up).mpr sameY),
          represents.eq_of_run_rise infinite nonsingular sameX sameY]
        exact eccDouble_stands sound was affine.stands
      · rw [if_neg (mt (sound.residue_isZero_iff up).mp sameY),
          represents.add_opposite infinite nonsingular sameX sameY]
        exact was.clear sound
    · rw [if_neg (mt (sound.residue_isZero_iff across).mp sameX)]
      have third := sound.residue_multMod isZ across
      have cube := sound.residue_multMod (sound.residue_squaMod across) across
      have middle := sound.residue_multMod (sound.residue_squaMod across) isX
      have first := sound.residue_subMod (sound.residue_subMod (sound.residue_squaMod up)
        (sound.residue_lshiftMod middle)) cube
      have second := sound.residue_subMod
        (sound.residue_multMod (sound.residue_subMod middle first) up)
        (sound.residue_multMod cube isY)
      refine ⟨addX x y z x' y', addY x y z x' y', z * run x z x', first.congr ?_, second.congr ?_,
        third, represents.add infinite nonsingular sameX⟩
      · rw [addX]
        ring
      · rw [addY, addX]
        ring

variable {minusP : Point Num} {x y x' y' : ZMod modulus}
variable {nonsingular : (short (-3) b).Nonsingular x y}
variable {negated : (short (-3) b).Nonsingular x' y'}

section

variable (affine : IsAffine value p nonsingular) (minus : IsAffine value minusP negated)
  (opposite : Affine.Point.some x' y' negated = -.some x y nonsingular)
include affine minus opposite

theorem pointMultStep_stands {registers : Registers Num}
    (stands : Stands value registers.q point) (sign : UInt32) :
    Stands value (pointMultStep F p minusP registers sign).q
      (point + point + signOf sign • .some x y nonsingular) := by
  have doubled := eccDouble_stands sound stands stands
  rw [pointMultStep, signOf]
  by_cases plus : sign = 1
  · rw [if_pos plus, if_pos plus, one_zsmul]
    exact eccAdd_stands sound doubled doubled affine
  · rw [if_neg plus, if_neg plus]
    by_cases less : sign = 3
    · rw [if_pos less, if_pos less, neg_one_zsmul, ← opposite]
      exact eccAdd_stands sound doubled doubled minus
    · rw [if_neg less, if_neg less, zero_zsmul, add_zero]
      exact doubled

theorem pointMultLoop_stands (signs : List UInt32) {registers : Registers Num} {number : Int}
    (stands : Stands value registers.q (number • Affine.Point.some x y nonsingular)) :
    Stands value (pointMultLoop F p minusP registers signs).q
      (horner number signs • Affine.Point.some x y nonsingular) := by
  induction signs generalizing registers number with
  | nil => exact stands
  | cons sign rest ih =>
    have step := pointMultStep_stands sound affine minus opposite stands sign
    rw [← two_zsmul, ← mul_zsmul, ← add_zsmul] at step
    exact ih step

end

theorem toAffine_stands (stands : Stands value q point) (finite : point ≠ 0) :
    ∃ x y nonsingular, point = .some x y nonsingular ∧
      Residue value (toAffine F q).x x ∧ Residue value (toAffine F q).y y := by
  obtain ⟨x, y, z, isX, isY, isZ, represents⟩ := stands
  rcases represents with ⟨-, zero⟩ | ⟨nonzero, nonsingular, same⟩
  · exact absurd zero finite
  · have inverse := sound.residue_invMod isZ nonzero
    have square := sound.residue_squaMod inverse
    have cube := sound.residue_multMod square inverse
    refine ⟨_, _, nonsingular, same, (sound.residue_multMod isX square).congr ?_,
      (sound.residue_multMod isY cube).congr ?_⟩
    · rw [div_eq_mul_inv, inv_pow]
    · rw [div_eq_mul_inv, ← pow_succ, inv_pow]

end Points

theorem multiprecisionIszero_iff (a : Dwords) : multiprecisionIszero a = true ↔ a.value = 0 := by
  have words : ∀ digits : List UInt32,
      (digits.all fun word => word == 0) = true ↔ wordsValue digits = 0 := by
    intro digits
    induction digits with
    | nil => exact ⟨fun _ => rfl, fun _ => rfl⟩
    | cons word rest ih =>
      have zero : word = 0 ↔ word.toNat = 0 := by
        rw [← UInt32.toNat_inj]
        rfl
      rw [all_cons, Bool.and_eq_true, ih, beq_iff_eq, zero, wordsValue_cons]
      omega
  exact words a.digits

theorem dwordArithmetic_sound {modulus : Nat} {primitives : FieldPrimitives Dwords}
    (exact' : Exact Words.value modulus primitives) :
    Sound Words.value modulus (dwordArithmetic primitives) :=
  { exact' with
    init := rfl
    isZero_iff := multiprecisionIszero_iff }

end BluetoothFormal.Smp.PointMult
