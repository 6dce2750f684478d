import Mathlib.Algebra.Group.Nat.Defs
import Mathlib.Logic.Relation

/-!
# Credit accounts

A sender spends one credit for each frame and is blocked when its credits are
used up.  The receiver grants credits, which lifts the block.  The counter of
credits wraps at a modulus, so an account never shows more than was granted,
and it shows exactly what was granted and not spent as long as it does not wrap.
-/

namespace BluetoothFormal.Foundation

/-- The frames sent, the credits left and whether the sender is blocked. -/
structure CreditAccount where
  spent : Nat
  credit : Nat
  blocked : Bool

variable {amount modulus : Nat}

namespace CreditAccount

section

variable (account : CreditAccount)

/-- A frame is sent.  At zero credits the counter stays at zero. -/
def spend : CreditAccount where
  spent := account.spent + 1
  credit := account.credit - 1
  blocked := account.blocked || account.credit - 1 = 0

def grant (modulus amount : Nat) : CreditAccount where
  spent := account.spent
  credit := (account.credit + amount) % modulus
  blocked := false

/-- The counter is set to a number of credits. -/
def restart (amount : Nat) : CreditAccount where
  spent := account.spent
  credit := amount
  blocked := account.blocked || amount = 0

end

/-- A sender that is not blocked sends a frame. -/
def Spend (account next : CreditAccount) : Prop :=
  account.blocked = false ∧ next = account.spend

/-- A sender that is not blocked sends frames one after another. -/
abbrev Spends : CreditAccount → CreditAccount → Prop := Relation.ReflTransGen Spend

/-- No more was spent than was granted, and an open sender has a credit left. -/
structure Within (granted : Nat) (account : CreditAccount) : Prop where
  covered : account.spent + account.credit ≤ granted
  spare : account.blocked = false → account.spent < granted

/-- The counter shows what was granted and not spent, and blocks the sender at zero. -/
structure Exact (granted : Nat) (account : CreditAccount) : Prop where
  balanced : account.spent + account.credit = granted
  blocks : account.credit = 0 → account.blocked = true

variable {granted : Nat} {account next : CreditAccount}

theorem Within.spent_le (within : Within granted account) : account.spent ≤ granted :=
  Nat.le_trans (Nat.le_add_right _ _) within.covered

theorem Within.spend (within : Within granted account) (unblocked : account.blocked = false) :
    Within granted account.spend := by
  have spare := within.spare unblocked
  have covered := within.covered
  constructor
  · change account.spent + 1 + (account.credit - 1) ≤ granted
    omega
  · intro still
    have left : account.credit - 1 ≠ 0 := by
      simpa [CreditAccount.spend, unblocked] using still
    change account.spent + 1 < granted
    omega

theorem Exact.spend (precise : Exact granted account) (unblocked : account.blocked = false) :
    Exact granted account.spend := by
  have left : account.credit ≠ 0 := by
    intro exhausted
    rw [precise.blocks exhausted] at unblocked
    cases unblocked
  have balanced := precise.balanced
  constructor
  · change account.spent + 1 + (account.credit - 1) = granted
    omega
  · intro exhausted
    change (account.blocked || decide (account.credit - 1 = 0)) = true
    rw [unblocked, Bool.false_or, decide_eq_true_eq]
    exact exhausted

theorem Within.spends (within : Within granted account) (spends : Spends account next) :
    Within granted next := by
  induction spends with
  | refl => exact within
  | tail _ sent ih => exact sent.2 ▸ ih.spend sent.1

theorem Exact.spends (precise : Exact granted account) (spends : Spends account next) :
    Exact granted next := by
  induction spends with
  | refl => exact precise
  | tail _ sent ih => exact sent.2 ▸ ih.spend sent.1

theorem Within.grant (within : Within granted account) (some_credit : 0 < amount) :
    Within (granted + amount) (account.grant modulus amount) := by
  have covered := within.covered
  have shown : (account.credit + amount) % modulus ≤ account.credit + amount :=
    Nat.mod_le _ _
  constructor
  · change account.spent + (account.credit + amount) % modulus ≤ granted + amount
    omega
  · intro _
    change account.spent < granted + amount
    omega

theorem Exact.grant (precise : Exact granted account) (some_credit : 0 < amount)
    (room : granted + amount - account.spent < modulus) :
    Exact (granted + amount) (account.grant modulus amount) := by
  have balanced := precise.balanced
  have unwrapped : (account.credit + amount) % modulus = account.credit + amount :=
    Nat.mod_eq_of_lt (by omega)
  constructor
  · change account.spent + (account.credit + amount) % modulus = granted + amount
    omega
  · intro exhausted
    change (account.credit + amount) % modulus = 0 at exhausted
    omega

theorem Within.restart (within : account.spent ≤ granted) (amount : Nat) :
    Within (granted + amount) (account.restart amount) := by
  constructor
  · exact Nat.add_le_add_right within amount
  · intro unblocked
    have left : amount ≠ 0 := by
      intro none_left
      simp [CreditAccount.restart, none_left] at unblocked
    change account.spent < granted + amount
    omega

theorem Exact.restart (unspent : account.spent = 0) (amount : Nat) :
    Exact amount (account.restart amount) := by
  constructor
  · change account.spent + amount = amount
    rw [unspent, Nat.zero_add]
  · intro exhausted
    change (account.blocked || decide (amount = 0)) = true
    rw [Bool.or_eq_true]
    exact Or.inr (decide_eq_true exhausted)

end CreditAccount

end BluetoothFormal.Foundation
