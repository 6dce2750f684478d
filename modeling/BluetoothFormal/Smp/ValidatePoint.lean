import BluetoothFormal.Smp.FieldArithmetic

/-!
# Validation of a public key point

`ECC_ValidatePoint` compares `y ^ 2` with `x ^ 3 - 3 * x + b`, each computed by
the fast reduction.  It never compares a coordinate with the modulus, and each
of its three products is off by the error of its reduction.  The check accepts
the points whose distance from the curve equation is the combined error of the
three products.  It is right where the products are reduced exactly and a point
of the curve has reduced coordinates.
-/

namespace BluetoothFormal.Smp.ValidatePoint

open Foundation.WordArithmetic Smp.Multiprecision Smp.FastModP256 Smp.FieldArithmetic

/-- The coordinates of a `Point` that the check reads. -/
structure Point where
  x : Dwords
  y : Dwords

/-- `curve_p256.b` as `p_256_init_curve` writes it. -/
def curveP256b : Dwords where
  digits := [0x27d2604b, 0x3bce3c3e, 0xcc53b0f6, 0x651d06b0, 0x769886bc, 0xb3ebbd55, 0xaa3a93e7,
    0x5ac635d8]
  length_eq := rfl

/-- The array `three`. -/
def three : Dwords where
  digits := [3, 0, 0, 0, 0, 0, 0, 0]
  length_eq := rfl

def eccValidatePoint (pt : Point) : Bool :=
  let y2Mod := multiprecisionMersennsSquaMod pt.y
  let rhs := multiprecisionMersennsSquaMod pt.x
  let rhs := multiprecisionSubMod rhs three
  let rhs := multiprecisionMersennsMultMod rhs pt.x
  let rhs := multiprecisionAddMod rhs curveP256b
  multiprecisionCompare rhs y2Mod == 0

/-- The difference of the two sides of the curve equation. -/
def curveDefect (x y : Nat) : Int := (x : Int) ^ 3 - 3 * x + curveP256b.value - (y : Int) ^ 2

/-- The numbers solve the curve equation modulo the prime. -/
def OnCurve (x y : Nat) : Prop :=
  (y : Int) ^ 2 ≡ (x : Int) ^ 3 - 3 * x + curveP256b.value [ZMOD primeP256]

instance decidableOnCurve (x y : Nat) : Decidable (OnCurve x y) :=
  inferInstanceAs (Decidable (_ % _ = _ % _))

theorem onCurve_iff (x y : Nat) : OnCurve x y ↔ curveDefect x y ≡ 0 [ZMOD primeP256] := by
  rw [OnCurve, Int.modEq_iff_dvd, Int.modEq_zero_iff_dvd, curveDefect]

/-- The residue that stands for `x ^ 2 - 3`. -/
def squareLessThree (x : Nat) : Nat :=
  (((x * x : Nat) + reductionError (x * x) - 3) % primeP256).toNat

/-- The error of the whole check: that of `y ^ 2` less those of the two products with `x`. -/
def pointError (x y : Nat) : Int :=
  reductionError (y * y) - (reductionError (x * x) * x + reductionError (squareLessThree x * x))

theorem primeP256_pos : (0 : Int) < primeP256 := by decide

theorem multiprecisionMersennsMultMod_value (a b : Dwords) :
    ((multiprecisionMersennsMultMod a b).value : Int) =
      ((a.value * b.value : Nat) + reductionError (a.value * b.value)) % primeP256 := by
  rw [multiprecisionMersennsMultMod, multiprecisionFastModP256_residue, multiprecisionMult_value]

theorem multiprecisionMersennsMultMod_lt (a b : Dwords) :
    (multiprecisionMersennsMultMod a b).value < primeP256 := by
  have residue := multiprecisionMersennsMultMod_value a b
  have below := Int.emod_lt_of_pos
    ((a.value * b.value : Nat) + reductionError (a.value * b.value)) primeP256_pos
  omega

theorem squareLessThree_value (x : Dwords) :
    (multiprecisionSubMod (multiprecisionMersennsSquaMod x) three).value =
      squareLessThree x.value := by
  have square := multiprecisionMersennsMultMod_value x x
  have difference := multiprecisionSubMod_value (multiprecisionMersennsMultMod_lt x x)
    (b := three) (by decide)
  have constant : three.value = 3 := by decide
  rw [square, constant, Int.sub_emod, Int.emod_emod, ← Int.sub_emod] at difference
  rw [squareLessThree]
  exact (congrArg Int.toNat difference)

theorem y2Mod_modEq (pt : Point) :
    ((multiprecisionMersennsSquaMod pt.y).value : Int) =
      ((pt.y.value : Int) ^ 2 + reductionError (pt.y.value * pt.y.value)) % primeP256 := by
  rw [multiprecisionMersennsSquaMod, multiprecisionMersennsMultMod_value, Nat.cast_mul, ← sq]

theorem rhs_modEq (pt : Point) :
    ((multiprecisionAddMod (multiprecisionMersennsMultMod (multiprecisionSubMod
      (multiprecisionMersennsSquaMod pt.x) three) pt.x) curveP256b).value : Int) =
      ((pt.x.value : Int) ^ 3 - 3 * pt.x.value + curveP256b.value +
        (reductionError (pt.x.value * pt.x.value) * pt.x.value +
          reductionError (squareLessThree pt.x.value * pt.x.value))) % primeP256 := by
  have product := multiprecisionMersennsMultMod_value
    (multiprecisionSubMod (multiprecisionMersennsSquaMod pt.x) three) pt.x
  have sum := multiprecisionAddMod_value (multiprecisionMersennsMultMod_lt
    (multiprecisionSubMod (multiprecisionMersennsSquaMod pt.x) three) pt.x)
    (b := curveP256b) (by decide)
  rw [squareLessThree_value] at product
  have factor : (squareLessThree pt.x.value : Int) ≡
      (pt.x.value : Int) ^ 2 + reductionError (pt.x.value * pt.x.value) - 3 [ZMOD primeP256] := by
    rw [squareLessThree, Int.toNat_of_nonneg (Int.emod_nonneg _ (by decide)), Nat.cast_mul, ← sq]
    exact Int.mod_modEq _ _
  rw [sum, Int.natCast_mod, Nat.cast_add, product, Int.emod_add_emod]
  have scaled := ((factor.mul_right pt.x.value).add_right
    (reductionError (squareLessThree pt.x.value * pt.x.value))).add_right curveP256b.value
  rw [Nat.cast_mul]
  exact scaled.trans (congrArg (· % (primeP256 : Int)) (by ring))

/-- The check accepts exactly when the distance from the curve is its own error. -/
theorem eccValidatePoint_iff (pt : Point) :
    eccValidatePoint pt = true ↔
      curveDefect pt.x.value pt.y.value ≡ pointError pt.x.value pt.y.value [ZMOD primeP256] := by
  rw [eccValidatePoint, beq_iff_eq, multiprecisionCompare_eq_zero_iff, ← Nat.cast_inj (R := Int),
    rhs_modEq, y2Mod_modEq]
  change _ ≡ _ [ZMOD primeP256] ↔ _
  rw [Int.modEq_iff_dvd, Int.modEq_iff_dvd, curveDefect, pointError]
  exact iff_of_eq (congrArg _ (by ring))

/-- No column of the number loses a borrow in its reduction, and folding stays in range. -/
def ReducesExactly (number : Nat) : Prop :=
  KeepsBorrows 0 (columns (Words.ofNat 16 number)) ∧ FoldsInRange (Words.ofNat 16 number)

theorem ReducesExactly.reductionError {number : Nat} (reduces : ReducesExactly number) :
    reductionError number = 0 := by
  obtain ⟨kept, nonneg, below⟩ := reduces
  rw [FieldArithmetic.reductionError]
  simp only [(lostBorrows_eq_zero_iff 0 _).mpr kept, add_zero]
  rw [Int.ediv_eq_zero_of_lt nonneg below]
  rfl

/--
The products that the check forms are reduced exactly, as they stand in the
curve equation.
-/
structure ReducesProducts (x y : Nat) : Prop where
  ordinate : ReducesExactly (y * y)
  square : ReducesExactly (x * x)
  cube : ReducesExactly ((((x : Int) ^ 2 - 3) % primeP256).toNat * x)

theorem ReducesProducts.pointError {x y : Nat} (reduces : ReducesProducts x y) :
    pointError x y = 0 := by
  have factor : squareLessThree x = (((x : Int) ^ 2 - 3) % primeP256).toNat := by
    rw [squareLessThree, reduces.square.reductionError, Nat.cast_mul, add_zero, ← sq]
  rw [ValidatePoint.pointError, factor, reduces.ordinate.reductionError,
    reduces.square.reductionError, reduces.cube.reductionError]
  ring

/--
Where the products are reduced exactly, the check accepts exactly the reduced
points of the curve if and only if a point of the curve has reduced coordinates:
no coordinate is compared with the modulus.
-/
theorem eccValidatePoint_correct_iff (pt : Point)
    (reduces : ReducesProducts pt.x.value pt.y.value) :
    (eccValidatePoint pt = true ↔
      pt.x.value < primeP256 ∧ pt.y.value < primeP256 ∧ OnCurve pt.x.value pt.y.value) ↔
    (OnCurve pt.x.value pt.y.value → pt.x.value < primeP256 ∧ pt.y.value < primeP256) := by
  rw [eccValidatePoint_iff, reduces.pointError, ← onCurve_iff, ← and_assoc]
  constructor
  · intro right on
    exact (right.mp on).1
  · intro reduced
    exact ⟨fun on => ⟨reduced on, on⟩, And.right⟩

/-- A point with the given coordinates. -/
def Point.ofNat (x y : Nat) : Point := ⟨Words.ofNat 8 x, Words.ofNat 8 y⟩

/-- The coordinates of `curve_p256.G`. -/
def generator : Point := Point.ofNat
  0x6b17d1f2e12c4247f8bce6e563a440f277037d812deb33a0f4a13945d898c296
  0x4fe342e2fe1a7f9b8ee7eb4a7c0f9e162bce33576b315ececbb6406837bf51f5

theorem eccValidatePoint_correct_generator : eccValidatePoint generator = true := by
  have exact : ReducesProducts generator.x.value generator.y.value :=
    ⟨⟨by decide, by unfold FoldsInRange; decide⟩, ⟨by decide, by unfold FoldsInRange; decide⟩,
      ⟨by decide, by unfold FoldsInRange; decide⟩⟩
  exact ((eccValidatePoint_correct_iff generator exact).mpr fun _ => by decide).mpr (by decide)

/-- A pair of reduced coordinates that does not solve the curve equation. -/
def offCurve : Point := Point.ofNat 0x180000000000000000000000000000000
  0x63aaec29356cebe84bce556f4b8564d8cc24df5e16c63be2a4a4af14256ea507

/-- A point of the curve whose reductions lose a borrow. -/
def lostPoint : Point := Point.ofNat 0x100000000000000000000000000000000
  0x4d8531d11aecbfe7bc2c6f48e2a1a3fd264a9165a891001f9b7c2d4a19d9d622

/-- A point of the curve with its first coordinate written as the modulus itself. -/
def unreducedPoint : Point := Point.ofNat primeP256
  0x66485c780e2f83d72433bd5d84a06bb6541c2af31dae871728bf856a174f93f4

/--
A point off the curve is accepted, a point of the curve is refused, and a
coordinate that is not reduced is accepted.
-/
theorem eccValidatePoint_wrong :
    (eccValidatePoint offCurve = true ∧ ¬ OnCurve offCurve.x.value offCurve.y.value) ∧
    (eccValidatePoint lostPoint = false ∧ OnCurve lostPoint.x.value lostPoint.y.value) ∧
    (eccValidatePoint unreducedPoint = true ∧ ¬ unreducedPoint.x.value < primeP256) ∧
    ¬ ∀ pt : Point, eccValidatePoint pt = true ↔
      pt.x.value < primeP256 ∧ pt.y.value < primeP256 ∧ OnCurve pt.x.value pt.y.value := by
  have offAccepted : eccValidatePoint offCurve = true :=
    (eccValidatePoint_iff offCurve).mpr (by unfold Int.ModEq; decide)
  have off : ¬ OnCurve offCurve.x.value offCurve.y.value := by decide
  have lostRefused : ¬ eccValidatePoint lostPoint = true :=
    mt (eccValidatePoint_iff lostPoint).mp (by unfold Int.ModEq; decide)
  have unreducedAccepted : eccValidatePoint unreducedPoint = true :=
    (eccValidatePoint_iff unreducedPoint).mpr (by unfold Int.ModEq; decide)
  refine ⟨⟨offAccepted, off⟩, ⟨Bool.eq_false_iff.mpr lostRefused, by decide⟩,
    ⟨unreducedAccepted, by decide⟩, ?_⟩
  intro always
  exact off ((always offCurve).mp offAccepted).2.2

end BluetoothFormal.Smp.ValidatePoint
