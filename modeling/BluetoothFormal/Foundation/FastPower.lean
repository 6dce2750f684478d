import Mathlib.Algebra.BigOperators.Group.List.Lemmas
import Mathlib.Data.List.Prime
import Mathlib.FieldTheory.Finite.Basic
import Mathlib.NumberTheory.LucasPrimality
import Mathlib.Tactic.LinearCombination

/-!
# Powers by squaring, with certificates of primes and of cubics without a root

A power is computed by squaring in any type whose product is sent to the product of a
monoid.  Residues give modular powers that can be evaluated, and with the prime factors
of `n - 1` they certify that `n` is prime.  Residues of polynomials modulo a cubic give
the power of `x` by which the roots of the cubic in a prime field are found.
-/

namespace BluetoothFormal.Foundation.FastPower

open List

/-- `acc * base ^ exponent` for an exponent of as many bits as there is fuel. -/
def fastPower {Carrier : Type} (mul : Carrier → Carrier → Carrier) :
    Nat → Carrier → Nat → Carrier → Carrier
  | 0, _, _, acc => acc
  | fuel + 1, base, exponent, acc =>
    fastPower mul fuel (mul base base) (exponent / 2)
      (if exponent % 2 = 1 then mul acc base else acc)

theorem map_fastPower {Carrier Target : Type} [Monoid Target]
    {mul : Carrier → Carrier → Carrier} {image : Carrier → Target}
    (map_mul : ∀ a b, image (mul a b) = image a * image b) {fuel : Nat} (base : Carrier)
    {exponent : Nat} (acc : Carrier) (small : exponent < 2 ^ fuel) :
    image (fastPower mul fuel base exponent acc) = image acc * image base ^ exponent := by
  induction fuel generalizing base exponent acc with
  | zero =>
    rw [Nat.lt_one_iff.mp small, pow_zero, mul_one]
    rfl
  | succ fuel ih =>
    have half : exponent / 2 < 2 ^ fuel := by
      rw [Nat.pow_succ] at small
      omega
    rw [fastPower, ih _ _ half, map_mul, ← sq, ← pow_mul]
    by_cases odd : exponent % 2 = 1
    · rw [if_pos odd, map_mul, mul_assoc, ← pow_succ']
      congr 2
      omega
    · rw [if_neg odd]
      congr 2
      omega

def powMod (modulus base exponent : Nat) : Nat :=
  fastPower (fun a b => a * b % modulus) (exponent.log2 + 1) base exponent 1

theorem cast_powMod (modulus base exponent : Nat) :
    (powMod modulus base exponent : ZMod modulus) = (base : ZMod modulus) ^ exponent := by
  have map_mul : ∀ a b : Nat, ((a * b % modulus : Nat) : ZMod modulus) = (a : ZMod modulus) * b := by
    intro a b
    rw [ZMod.natCast_mod, Nat.cast_mul]
  have power := map_fastPower map_mul base 1 (Nat.lt_log2_self : exponent < _)
  rw [Nat.cast_one, one_mul] at power
  exact power

/-- The witness has the full order modulo the number, whose predecessor has the given factors. -/
def lucasCheck (number witness : Nat) (factors : List Nat) : Bool :=
  decide (1 < number) && factors.prod == number - 1 &&
    powMod number witness (number - 1) % number == 1 &&
    factors.all fun factor => powMod number witness ((number - 1) / factor) % number != 1

theorem cast_eq_one_iff {modulus : Nat} (large : 1 < modulus) (number : Nat) :
    (number : ZMod modulus) = 1 ↔ number % modulus = 1 := by
  rw [← Nat.cast_one, ZMod.natCast_eq_natCast_iff', Nat.mod_eq_of_lt large]

variable {number : Nat}

theorem prime_of_lucasCheck {witness : Nat} {factors : List Nat}
    (primes : ∀ factor ∈ factors, factor.Prime) (checked : lucasCheck number witness factors = true) :
    number.Prime := by
  simp only [lucasCheck, Bool.and_eq_true, decide_eq_true_eq, beq_iff_eq, all_eq_true,
    bne_iff_ne] at checked
  obtain ⟨⟨⟨large, product⟩, full⟩, proper⟩ := checked
  refine lucas_primality number witness ?_ fun divisor prime divides => ?_
  · rw [← cast_powMod]
    exact (cast_eq_one_iff large _).mpr full
  · rw [← product] at divides
    obtain ⟨factor, listed, shared⟩ := (Nat.Prime.prime prime).dvd_prod_iff.mp divides
    obtain rfl := (Nat.prime_dvd_prime_iff_eq prime (primes factor listed)).mp shared
    rw [← cast_powMod]
    exact fun one => proper divisor listed ((cast_eq_one_iff large _).mp one)

/-- A list of certificates in which each factor is small or was certified before. -/
def lucasChain : List Nat → List (Nat × Nat × List Nat) → Bool
  | _, [] => true
  | known, (number, witness, factors) :: rest =>
    factors.all (fun factor => known.contains factor) && lucasCheck number witness factors &&
      lucasChain (number :: known) rest

theorem prime_of_lucasChain {known : List Nat} {chain : List (Nat × Nat × List Nat)}
    (primes : ∀ factor ∈ known, factor.Prime) (checked : lucasChain known chain = true)
    (listed : number ∈ chain.map Prod.fst) : number.Prime := by
  induction chain generalizing known with
  | nil => cases listed
  | cons entry rest ih =>
    obtain ⟨first, witness, factors⟩ := entry
    simp only [lucasChain, Bool.and_eq_true, all_eq_true, contains_eq_mem,
      decide_eq_true_eq] at checked
    obtain ⟨⟨covered, passes⟩, later⟩ := checked
    have prime := prime_of_lucasCheck (fun factor inside => primes factor (covered factor inside))
      passes
    rcases mem_cons.mp listed with rfl | tail
    · exact prime
    · refine ih (fun factor inside => ?_) later tail
      rcases mem_cons.mp inside with rfl | old
      · exact prime
      · exact primes factor old

/-- The residue `c0 + c1 * x + c2 * x ^ 2` of a polynomial. -/
structure CubicResidue where
  c0 : Nat
  c1 : Nat
  c2 : Nat
deriving DecidableEq

namespace CubicResidue

variable (modulus a b : Nat)

/-- The product, with `a * x + b` for `x ^ 3`. -/
def mul (left right : CubicResidue) : CubicResidue :=
  let third := left.c1 * right.c2 + left.c2 * right.c1
  let fourth := left.c2 * right.c2
  { c0 := (left.c0 * right.c0 + b * third) % modulus
    c1 := (left.c0 * right.c1 + left.c1 * right.c0 + a * third + b * fourth) % modulus
    c2 := (left.c0 * right.c2 + left.c1 * right.c1 + left.c2 * right.c0 + a * fourth) % modulus }

/-- The residue of the modulus-th power of `x`. -/
def frobenius : CubicResidue :=
  fastPower (mul modulus a b) (modulus.log2 + 1) ⟨0, 1, 0⟩ modulus ⟨1, 0, 0⟩

/-- `x` raised to the modulus less `x` has the given inverse. -/
def noRootCheck (inverse : CubicResidue) : Bool :=
  let power := frobenius modulus a b
  mul modulus a b inverse { power with c1 := power.c1 + (modulus - 1) } = ⟨1, 0, 0⟩

variable {modulus a b}

/-- The value of a residue at an element. -/
def eval (root : ZMod modulus) (residue : CubicResidue) : ZMod modulus :=
  residue.c0 + residue.c1 * root + residue.c2 * root ^ 2

theorem eval_mul {root : ZMod modulus} (isRoot : root ^ 3 = a * root + b)
    (left right : CubicResidue) :
    eval root (mul modulus a b left right) = eval root left * eval root right := by
  simp only [eval, mul, ZMod.natCast_mod, Nat.cast_add, Nat.cast_mul]
  linear_combination -(left.c1 * right.c2 + left.c2 * right.c1 + left.c2 * right.c2 * root) * isRoot

theorem no_root_of_noRootCheck [prime : Fact modulus.Prime] {inverse : CubicResidue}
    (checked : noRootCheck modulus a b inverse = true) (root : ZMod modulus) :
    root ^ 3 ≠ a * root + b := by
  intro isRoot
  have power : eval root (frobenius modulus a b) = root := by
    rw [frobenius, map_fastPower (eval_mul isRoot) _ _ Nat.lt_log2_self]
    simp only [eval, Nat.cast_zero, Nat.cast_one, zero_mul, one_mul, zero_add, add_zero]
    exact ZMod.pow_card root
  have unit := congrArg (eval root) (of_decide_eq_true checked)
  rw [eval_mul isRoot] at unit
  have zero : eval root { frobenius modulus a b with
      c1 := (frobenius modulus a b).c1 + (modulus - 1) } = 0 := by
    rw [eval] at power ⊢
    rw [Nat.cast_add, Nat.cast_sub prime.out.one_le, ZMod.natCast_self, Nat.cast_one]
    linear_combination power
  rw [zero, mul_zero] at unit
  simp [eval] at unit

end CubicResidue

end BluetoothFormal.Foundation.FastPower
