import Mathlib.Tactic.NormNum.Prime
import BluetoothFormal.Foundation.FastPower
import BluetoothFormal.Smp.PointMult
import BluetoothFormal.Smp.ValidatePoint

/-!
# The group of the curve P-256

The modulus and the order of the base point are prime by certificates.  The right side
of the curve equation has no root, so no point has order two.  The order annihilates
the base point, which the point multiplication itself computes over plain numbers.
A count of the points then leaves only one order for the whole group, and a multiple of
a finite point is infinite only at multiples of the order.
-/

namespace BluetoothFormal.Smp.CurveP256

open WeierstrassCurve
open Foundation.FastPower
open Foundation.JacobianCoordinates
open Foundation.WordArithmetic
open Smp.Multiprecision
open Smp.NonAdjacentForm
open Smp.PointMult
open Smp.ValidatePoint (curveP256b OnCurve)

/-- The order of the base point. -/
def orderP256 : Nat := 0xFFFFFFFF00000000FFFFFFFFFFFFFFFFBCE6FAADA7179E84F3B9CAC2FC632551

theorem order_succ_lt : orderP256 + 1 < 2 ^ 256 := by decide

def smallPrimes : List Nat :=
  [2, 3, 5, 7, 11, 13, 17, 19, 23, 29, 31, 37, 41, 43, 53, 71, 97]

/-- Certificates of the modulus, of the order, and of the primes that these rest on. -/
def certificates : List (Nat × Nat × List Nat) :=
  [(257, 3, [2, 2, 2, 2, 2, 2, 2, 2]), (641, 3, [2, 2, 2, 2, 2, 2, 2, 5]),
    (1531, 2, [2, 3, 3, 5, 17]),
    (65537, 3, [2, 2, 2, 2, 2, 2, 2, 2, 2, 2, 2, 2, 2, 2, 2, 2]),
    (661, 2, [2, 2, 3, 5, 11]),
    (490463, 14, [2, 7, 53, 661]),
    (727, 5, [2, 3, 11, 11]),
    (17449, 14, [2, 2, 2, 3, 727]),
    (6700417, 5, [2, 2, 2, 2, 2, 2, 2, 3, 17449]),
    (241, 7, [2, 2, 2, 2, 3, 5]),
    (2411, 6, [2, 5, 241]),
    (107, 2, [2, 53]),
    (157, 5, [2, 2, 3, 13]),
    (3769, 7, [2, 2, 2, 3, 157]),
    (204061199, 11, [2, 11, 23, 107, 3769]),
    (34282281433, 17, [2, 2, 2, 3, 7, 204061199]),
    (173, 2, [2, 2, 43]),
    (197, 2, [2, 2, 7, 7]),
    (919, 7, [2, 3, 3, 3, 17]),
    (3677, 2, [2, 2, 919]),
    (66417393611, 6, [2, 5, 53, 173, 197, 3677]),
    (11290956913871, 13, [2, 5, 17, 66417393611]),
    (757, 2, [2, 2, 3, 3, 3, 7]),
    (18169, 11, [2, 2, 2, 3, 757]),
    (181, 2, [2, 2, 3, 3, 5]),
    (1087, 3, [2, 3, 181]),
    (4349, 2, [2, 2, 1087]),
    (78283, 3, [2, 3, 3, 4349]),
    (313, 10, [2, 2, 2, 3, 13]),
    (704251, 2, [2, 3, 3, 5, 5, 5, 313]),
    (46076956964474543, 5, [2, 23, 18169, 78283, 704251]),
    (774023187263532362759620327192479577272145303, 3,
      [2, 3, 3, 2411, 34282281433, 11290956913871, 46076956964474543]),
    (835945042244614951780389953367877943453916927241, 11,
      [2, 2, 2, 3, 3, 3, 5, 774023187263532362759620327192479577272145303]),
    (115792089210356248762697446949407573530086143415290314195533631308867097853951, 6,
      [2, 3, 5, 5, 17, 257, 641, 1531, 65537, 490463, 6700417,
        835945042244614951780389953367877943453916927241]),
    (131, 2, [2, 5, 13]),
    (373, 2, [2, 2, 3, 31]),
    (3407, 5, [2, 13, 131]),
    (9547, 2, [2, 3, 37, 43]),
    (38189, 2, [2, 2, 9547]),
    (229, 6, [2, 2, 3, 19]),
    (1201, 11, [2, 2, 2, 2, 3, 5, 5]),
    (9350987, 2, [2, 17, 229, 1201]),
    (187019741, 2, [2, 2, 5, 9350987]),
    (311, 17, [2, 5, 31]),
    (311245691, 2, [2, 5, 7, 17, 29, 29, 311]),
    (622491383, 5, [2, 311245691]),
    (263, 5, [2, 131]),
    (126241, 7, [2, 2, 2, 2, 2, 3, 5, 263]),
    (337, 10, [2, 2, 2, 2, 3, 7]),
    (104471, 11, [2, 5, 31, 337]),
    (3969899, 2, [2, 19, 104471]),
    (1002328039319, 19, [2, 126241, 3969899]),
    (1297, 10, [2, 2, 2, 2, 3, 3, 3, 3]),
    (16879, 3, [2, 3, 29, 97]),
    (127, 3, [2, 3, 3, 7]),
    (151, 6, [2, 3, 5, 5]),
    (1511, 11, [2, 5, 151]),
    (3023, 5, [2, 1511]),
    (155317, 5, [2, 2, 3, 7, 43, 43]),
    (191039911, 3, [2, 3, 5, 41, 155317]),
    (208150935158385979, 2, [2, 3, 11, 43, 127, 3023, 191039911]),
    (2624747550333869278416773953, 7, [2, 2, 2, 2, 2, 2, 3, 3, 1297, 16879, 208150935158385979]),
    (115792089210356248762697446949407573529996955224135760342422259061068512044369, 7,
      [2, 2, 2, 2, 3, 71, 131, 373, 3407, 17449, 38189, 187019741, 622491383, 1002328039319,
        2624747550333869278416773953])]

theorem smallPrimes_prime : ∀ factor ∈ smallPrimes, factor.Prime := by
  simp only [smallPrimes, List.forall_mem_cons]
  norm_num

theorem certificates_checked : lucasChain smallPrimes certificates = true := by decide +kernel

theorem primeP256_prime : primeP256.Prime :=
  prime_of_lucasChain smallPrimes_prime certificates_checked (by decide)

theorem orderP256_prime : orderP256.Prime :=
  prime_of_lucasChain smallPrimes_prime certificates_checked (by decide)

instance fact_primeP256 : Fact primeP256.Prime := ⟨primeP256_prime⟩

/-- The constant of the curve equation. -/
def curveB : ZMod primeP256 := (curveP256b.value : Nat)

/-- The curve `y ^ 2 = x ^ 3 - 3 * x + b`. -/
abbrev curve : Affine (ZMod primeP256) := short (-3) curveB

/-- The inverse of `x ^ p - x` modulo `x ^ 3 - 3 * x + b`. -/
def rootInverse : CubicResidue where
  c0 := 76626890310466861426869089647039036757962535851890885406097439786770458211455
  c1 := 74462945259064871768191128030512052509059297803194871526163573358218695456204
  c2 := 34768139465301476436978405170953382516735956999154666452188405812258086013549

theorem rootInverse_checked :
    CubicResidue.noRootCheck primeP256 3 (primeP256 - curveP256b.value) rootInverse = true := by
  decide +kernel

theorem cubic_ne_zero (x : ZMod primeP256) : x ^ 3 + -3 * x + curveB ≠ 0 := by
  intro zero
  apply CubicResidue.no_root_of_noRootCheck rootInverse_checked x
  have le : curveP256b.value ≤ primeP256 := by decide
  rw [Nat.cast_sub le, ZMod.natCast_self]
  rw [curveB] at zero
  linear_combination zero

theorem natCast_ne_zero {number : Nat} (pos : 0 < number) (lt : number < primeP256) :
    (number : ZMod primeP256) ≠ 0 := by
  rw [Ne, ZMod.natCast_eq_zero_iff]
  exact Nat.not_dvd_of_pos_of_lt pos lt

theorem two_ne_zero_field : (2 : ZMod primeP256) ≠ 0 :=
  @natCast_ne_zero 2 (by decide) (by decide)

theorem curve_discriminant : curve.Δ ≠ 0 := by
  have constant : (4 * (-3) ^ 3 + 27 * curveB ^ 2 : ZMod primeP256) =
      ((27 * curveP256b.value ^ 2 - 108 : Nat) : ZMod primeP256) := by
    have le : 108 ≤ 27 * curveP256b.value ^ 2 := by decide
    rw [Nat.cast_sub le, curveB]
    push_cast
    ring
  rw [curve, short_discriminant, constant, ← ZMod.natCast_mod]
  refine mul_ne_zero ?_ (natCast_ne_zero (by decide) (by decide))
  rw [neg_ne_zero]
  exact @natCast_ne_zero 16 (by decide) (by decide)

theorem curve_nonsingular_iff (x y : ZMod primeP256) :
    curve.Nonsingular x y ↔ y ^ 2 = x ^ 3 + -3 * x + curveB := by
  rw [← Affine.equation_iff_nonsingular_of_Δ_ne_zero curve_discriminant, short_equation_iff]

theorem ordinate_ne_zero {x y : ZMod primeP256} (nonsingular : curve.Nonsingular x y) : y ≠ 0 := by
  rintro rfl
  apply cubic_ne_zero x
  rw [← (curve_nonsingular_iff x 0).mp nonsingular]
  exact zero_pow two_ne_zero

theorem eq_zero_of_add_self (point : curve.Point) (zero : point + point = 0) : point = 0 := by
  match point with
  | 0 => rfl
  | .some x y nonsingular =>
    have negated : y = -y := by
      by_contra other
      obtain ⟨sum, coordinates⟩ := add_self_coordinates nonsingular other
      rw [coordinates] at zero
      exact Affine.Point.some_ne_zero sum zero
    have double : 2 * y = 0 := by linear_combination negated
    rcases mul_eq_zero.mp double with two | ordinate
    · exact absurd two two_ne_zero_field
    · exact absurd ordinate (ordinate_ne_zero nonsingular)

/-- Exact primitives over the numbers below the modulus. -/
def natPrimitives : FieldPrimitives Nat where
  addMod a b := (a + b) % primeP256
  subMod a b := (a + (primeP256 - b)) % primeP256
  mersennsMultMod a b := a * b % primeP256
  lshiftMod a := 2 * a % primeP256
  mersennsSquaMod a := a * a % primeP256
  invMod a := powMod primeP256 a (primeP256 - 2) % primeP256

def natArithmetic : Arithmetic Nat :=
  { natPrimitives with
    init := 0
    isZero := fun a => a == 0 }

theorem natPrimitives_exact : Exact id primeP256 natPrimitives where
  addMod _ _ := rfl
  subMod _ _ := rfl
  mersennsMultMod _ _ := rfl
  lshiftMod _ := rfl
  mersennsSquaMod _ := rfl
  invMod := by
    intro a lt some
    refine ⟨Nat.mod_lt _ primeP256_prime.pos, ?_⟩
    have power := ZMod.pow_card_sub_one_eq_one (natCast_ne_zero (Nat.pos_of_ne_zero some) lt)
    have exponent : primeP256 - 1 = primeP256 - 2 + 1 := by decide
    rw [exponent, pow_succ', ← cast_powMod, ← Nat.cast_mul,
      cast_eq_one_iff primeP256_prime.one_lt] at power
    rw [id, id, natPrimitives, Nat.mul_mod_mod]
    exact power

theorem natArithmetic_sound : Sound id primeP256 natArithmetic :=
  { natPrimitives_exact with
    init := rfl
    isZero_iff := fun _ => beq_iff_eq }

/-- The same primitives over the numbers as the code stores them. -/
def wordPrimitives : FieldPrimitives Dwords where
  addMod a b := .ofNat 8 (natPrimitives.addMod a.value b.value)
  subMod a b := .ofNat 8 (natPrimitives.subMod a.value b.value)
  mersennsMultMod a b := .ofNat 8 (natPrimitives.mersennsMultMod a.value b.value)
  lshiftMod a := .ofNat 8 (natPrimitives.lshiftMod a.value)
  mersennsSquaMod a := .ofNat 8 (natPrimitives.mersennsSquaMod a.value)
  invMod a := .ofNat 8 (natPrimitives.invMod a.value)

theorem value_ofNat_residue (number : Nat) :
    (Words.ofNat 8 (number % primeP256)).value = number % primeP256 := by
  have lt : number % primeP256 < primeP256 := Nat.mod_lt _ primeP256_prime.pos
  have fits : primeP256 < 2 ^ (32 * 8) := by decide
  exact Words.value_ofNat (Nat.lt_trans lt fits)

theorem wordPrimitives_exact : Exact Words.value primeP256 wordPrimitives where
  addMod _ _ := value_ofNat_residue _
  subMod _ _ := value_ofNat_residue _
  mersennsMultMod _ _ := value_ofNat_residue _
  lshiftMod _ := value_ofNat_residue _
  mersennsSquaMod _ := value_ofNat_residue _
  invMod := by
    intro a lt some
    have inverse := natPrimitives_exact.invMod lt some
    have value : (wordPrimitives.invMod a).value = natPrimitives.invMod a.value :=
      value_ofNat_residue _
    rw [value]
    exact inverse

theorem onCurve_iff_nonsingular (x y : Nat) :
    OnCurve x y ↔ curve.Nonsingular (x : ZMod primeP256) (y : ZMod primeP256) := by
  rw [curve_nonsingular_iff, OnCurve, ← ZMod.intCast_eq_intCast_iff, curveB]
  push_cast
  constructor
  all_goals
    intro equation
    linear_combination equation

section Opposite

variable {Num : Type} {value : Num → Nat} {p minusP : Point Num}

theorem isAffine_opposite (xLt : value p.x < primeP256) (yLt : value p.y < primeP256)
    (nonsingular : curve.Nonsingular (value p.x : ZMod primeP256) (value p.y : ZMod primeP256))
    (pz : value p.z = 1) (mx : value minusP.x = value p.x)
    (my : value minusP.y = primeP256 - value p.y) (mz : value minusP.z = 1) :
    IsAffine value p nonsingular ∧
      ∃ (y : ZMod primeP256) (negated : curve.Nonsingular (value p.x : ZMod primeP256) y),
        IsAffine value minusP negated ∧ Affine.Point.some _ y negated = -.some _ _ nonsingular := by
  have one : ∀ {a : Num}, value a = 1 → Residue value a (1 : ZMod primeP256) := by
    intro a is
    exact ⟨is ▸ primeP256_prime.one_lt, by rw [is, Nat.cast_one]⟩
  have positive : value p.y ≠ 0 := by
    intro zero
    apply ordinate_ne_zero nonsingular
    rw [zero, Nat.cast_zero]
  refine ⟨⟨⟨xLt, rfl⟩, ⟨yLt, rfl⟩, one pz⟩, _, (Affine.nonsingular_neg ..).mpr nonsingular,
    ⟨⟨mx ▸ xLt, by rw [mx]⟩, ⟨by omega, ?_⟩, one mz⟩, (Affine.Point.neg_some nonsingular).symm⟩
  rw [my, Nat.cast_sub yLt.le, ZMod.natCast_self, short_negY, zero_sub]

end Opposite

def curveP256Gx : Dwords where
  digits := [0xd898c296, 0xf4a13945, 0x2deb33a0, 0x77037d81, 0x63a440f2, 0xf8bce6e5, 0xe12c4247,
    0x6b17d1f2]
  length_eq := rfl

def curveP256Gy : Dwords where
  digits := [0x37bf51f5, 0xcbb64068, 0x6b315ece, 0x2bce3357, 0x7c0f9e16, 0x8ee7eb4a, 0xfe1a7f9b,
    0x4fe342e2]
  length_eq := rfl

theorem basePoint_onCurve : OnCurve curveP256Gx.value curveP256Gy.value := by decide

def basePoint : curve.Point :=
  .some _ _ ((onCurve_iff_nonsingular _ _).mp basePoint_onCurve)

theorem pointMultLoop_order :
    (pointMultLoop natArithmetic ⟨curveP256Gx.value, curveP256Gy.value, 1⟩
      ⟨curveP256Gx.value, primeP256 - curveP256Gy.value, 1⟩ ⟨⟨0, 0, 0⟩, ⟨0, 0, 0⟩⟩
      (nafDigits 258 orderP256).reverse).q.z = 0 := by decide +kernel

theorem order_nsmul_basePoint : orderP256 • basePoint = 0 := by
  have zero : Residue id 0 (0 : ZMod primeP256) := natArithmetic_sound.residue_init
  obtain ⟨affine, _, negated, minus, opposite⟩ := @isAffine_opposite Nat id
    ⟨curveP256Gx.value, curveP256Gy.value, 1⟩
    ⟨curveP256Gx.value, primeP256 - curveP256Gy.value, 1⟩ (by decide) (by decide)
    ((onCurve_iff_nonsingular _ _).mp basePoint_onCurve) rfl rfl rfl rfl
  have start : Stands id (Registers.mk ⟨0, 0, 0⟩ ⟨0, 0, 0⟩).q ((0 : Int) • basePoint) := by
    rw [zero_zsmul]
    exact ⟨0, 0, 0, zero, zero, zero, represents_zero 0 0⟩
  have run := pointMultLoop_stands natArithmetic_sound affine minus opposite
    (nafDigits 258 orderP256).reverse start
  have short : 2 * orderP256 ≤ 2 ^ 257 := by
    have bound := order_succ_lt
    omega
  have digits : horner 0 (nafDigits 258 orderP256).reverse = orderP256 :=
    @horner_nafDigits 258 257 orderP256 (by decide) short
  rw [digits, natCast_zsmul] at run
  obtain ⟨x, y, z, -, -, isZ, represents⟩ := run
  have last : z = 0 := by
    rw [← isZ.cast, pointMultLoop_order]
    exact Nat.cast_zero
  rcases represents with ⟨-, infinite⟩ | ⟨finite, -⟩
  · exact infinite
  · exact absurd last finite

theorem card_curve : Nat.card curve.Point = orderP256 := by
  obtain ⟨finite, few⟩ := card_point_le curve
  rw [Nat.card_zmod] at few
  have bound : 2 * primeP256 + 1 < 3 * orderP256 := by decide
  exact card_eq_of_torsion orderP256_prime (Affine.Point.some_ne_zero _) order_nsmul_basePoint
    (Nat.lt_of_le_of_lt few bound) eq_zero_of_add_self

/-- With exact primitives `ECC_PointMult_Bin_NAF` returns the affine coordinates of the multiple. -/
theorem eccPointMultBinNaf_nsmul {primitives : FieldPrimitives Dwords}
    (primitivesExact : Exact Words.value primeP256 primitives) {p : Point Dwords}
    (xLt : p.x.value < primeP256) (yLt : p.y.value < primeP256)
    (onCurve : OnCurve p.x.value p.y.value) {n : Dwords} (positive : 1 ≤ n.value)
    (less : n.value < orderP256) :
    ∃ (q : Point Dwords) (nonsingular : curve.Nonsingular (q.x.value : ZMod primeP256)
        (q.y.value : ZMod primeP256)),
      eccPointMultBinNaf primitives p n = some q ∧ q.x.value < primeP256 ∧ q.y.value < primeP256 ∧
      n.value • Affine.Point.some _ _ ((onCurve_iff_nonsingular _ _).mp onCurve) =
        .some _ _ nonsingular := by
  have sound := dwordArithmetic_sound primitivesExact
  have nonsingular := (onCurve_iff_nonsingular _ _).mp onCurve
  have bound := order_succ_lt
  obtain ⟨naf, recoded, digits⟩ := eccNaf_digits (show n.value + 1 < 2 ^ 256 by omega)
  have negY : (multiprecisionSub curveP256p p.y).1.value = primeP256 - p.y.value := by
    have difference := multiprecisionSub_exact curveP256p p.y
    have fits := dwords_value_lt (multiprecisionSub curveP256p p.y).1
    rw [curveP256p_value] at difference
    omega
  obtain ⟨affine, _, negated, minus, opposite⟩ := @isAffine_opposite Dwords Words.value
    { p with z := oneDwords } ⟨p.x, (multiprecisionSub curveP256p p.y).1, oneDwords⟩ xLt yLt
    nonsingular rfl rfl negY rfl
  have start : Stands Words.value (Registers.mk p256InitPoint p256InitPoint).q
      ((0 : Int) • Affine.Point.some _ _ nonsingular) := by
    have zero := sound.residue_init
    rw [zero_zsmul]
    exact ⟨0, 0, 0, zero, zero, zero, represents_zero 0 0⟩
  have run := pointMultLoop_stands sound affine minus opposite (nafDigits 258 n.value).reverse start
  rw [@horner_nafDigits 258 257 n.value (by decide) (by omega), natCast_zsmul] at run
  have finite := nsmul_ne_zero_of_lt orderP256_prime card_curve
    (Affine.Point.some_ne_zero nonsingular) positive less
  obtain ⟨x, y, on, same, isX, isY⟩ := toAffine_stands sound run finite
  obtain ⟨on', coordinates⟩ := some_congr on isX.cast.symm isY.cast.symm
  refine ⟨_, on', ?_, isX.lt, isY.lt, same.trans coordinates⟩
  simp [eccPointMultBinNaf, recoded, digits]

/-- The third multiple of the base point. -/
theorem eccPointMultBinNaf_nsmul_three :
    ∃ (q : Point Dwords) (nonsingular : curve.Nonsingular (q.x.value : ZMod primeP256)
        (q.y.value : ZMod primeP256)),
      eccPointMultBinNaf wordPrimitives ⟨curveP256Gx, curveP256Gy, multiprecisionInit⟩
        (Words.ofNat 8 3) = some q ∧ q.x.value < primeP256 ∧ q.y.value < primeP256 ∧
      (Words.ofNat 8 3).value • basePoint = .some _ _ nonsingular :=
  eccPointMultBinNaf_nsmul wordPrimitives_exact (by decide) (by decide)
    basePoint_onCurve (by decide) (by decide)

end BluetoothFormal.Smp.CurveP256
