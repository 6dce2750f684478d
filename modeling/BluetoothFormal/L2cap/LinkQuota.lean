import Mathlib.Algebra.BigOperators.Group.List.Basic
import Mathlib.Algebra.GroupWithZero.Nat

/-!
# Transmit quotas of the BR/EDR links

`l2c_link_adjust_allocation` divides the controller's ACL buffers among the links that are in
use: a quota for each high-priority link, what is left for the low-priority links, and a quota
for serving links in turn where there are not enough buffers.  The pool holds BR/EDR links
only; LE links have buffers and quotas of their own.
-/

namespace BluetoothFormal.L2cap.Links

open List

/-- What the allocation reads and writes of a link control block. -/
structure Lcb where
  inUse : Bool := false
  connected : Bool := false
  highPriority : Bool := false
  linkXmitQuota : Nat := 0
  sentNotAcked : Nat := 0
  linkXmitDataQ : Nat := 0

open Lcb

structure L2cb where
  lcbPool : List Lcb
  numLmAclBufs : Nat
  controllerXmitWindow : Nat
  numUsedLcbs : Nat := 0
  roundRobinQuota : Nat := 0
  roundRobinUnacked : Nat := 0
  checkRoundRobin : Bool := false

variable {bufs numHipri found lowQuota qqRemainder qq highQuota : Nat} {pool : List Lcb}

section

variable (measure : Lcb → Nat)

def total (pool : List Lcb) : Nat :=
  (pool.map measure).sum

@[simp]
theorem total_nil : total measure [] = 0 :=
  rfl

@[simp]
theorem total_cons (lcb : Lcb) (pool : List Lcb) :
    total measure (lcb :: pool) = measure lcb + total measure pool :=
  sum_cons

/-- How many links of the pool meet a test. -/
def linkCount (test : Lcb → Bool) (pool : List Lcb) : Nat :=
  total (fun lcb => (test lcb).toNat) pool

theorem linkCount_eq_zero {test : Lcb → Bool} :
    linkCount test pool = 0 ↔ ∀ lcb ∈ pool, test lcb = false := by
  induction pool with
  | nil => simp [linkCount]
  | cons lcb rest ih =>
    simp only [linkCount, total_cons, Nat.add_eq_zero_iff, mem_cons, forall_eq_or_imp]
    exact and_congr Bool.toNat_eq_zero ih

def Lcb.isHighPri (lcb : Lcb) : Bool :=
  lcb.inUse && lcb.highPriority

def Lcb.isLowPri (lcb : Lcb) : Bool :=
  lcb.inUse && !lcb.highPriority

theorem linkCount_inUse (pool : List Lcb) :
    linkCount inUse pool = linkCount isHighPri pool + linkCount isLowPri pool := by
  induction pool with
  | nil => rfl
  | cons lcb rest ih =>
    have here : lcb.inUse.toNat = lcb.isHighPri.toNat + lcb.isLowPri.toNat := by
      unfold isHighPri isLowPri
      cases lcb.inUse <;> cases lcb.highPriority <;> rfl
    simp only [linkCount, total_cons] at ih ⊢
    omega

/-- `L2CAP_HIGH_PRI_MIN_XMIT_QUOTA_A` -/
def highPriMinXmitQuota : Nat := 5

/--
The loop that lowers the quota of the high-priority links.  Below 0 the counter wraps, and the
loop would not end: `none`.
-/
def highPriLinkQuota (numHipri lowQuota controllerXmitQuota : Nat) : Nat → Option Nat
  | 0 => if numHipri * 0 + lowQuota > controllerXmitQuota then none else some 0
  | quota + 1 =>
    if numHipri * (quota + 1) + lowQuota > controllerXmitQuota then
      highPriLinkQuota numHipri lowQuota controllerXmitQuota quota
    else
      some (quota + 1)

/-- The second loop over the pool: the links get their quotas, the first ones one buffer more. -/
def assignQuotas (highQuota qq : Nat) : Nat → List Lcb → List Lcb
  | _, [] => []
  | qqRemainder, lcb :: rest =>
    if lcb.isHighPri then
      { lcb with linkXmitQuota := highQuota } :: assignQuotas highQuota qq qqRemainder rest
    else if lcb.isLowPri then
      { lcb with linkXmitQuota := if qqRemainder > 0 then qq + 1 else qq } ::
        assignQuotas highQuota qq (qqRemainder - 1) rest
    else
      lcb :: assignQuotas highQuota qq qqRemainder rest

/-- What the second loop adds to the unacknowledged packets of the round robin. -/
def switchedUnacked (qq : Nat) (lcb : Lcb) : Nat :=
  if lcb.isLowPri ∧ lcb.linkXmitQuota > 0 ∧ qq = 0 then lcb.sentNotAcked else 0

/-- Give every link its quota. -/
def L2cb.assign (cb : L2cb) (highQuota qq qqRemainder : Nat) : L2cb :=
  { cb with
    lcbPool := assignQuotas highQuota qq qqRemainder cb.lcbPool
    roundRobinUnacked := cb.roundRobinUnacked + total (switchedUnacked qq) cb.lcbPool }

/-- The cases of `l2c_link_adjust_allocation` once the quota of the high-priority links is found. -/
def L2cb.divide (cb : L2cb) (highQuota : Nat) : L2cb :=
  let numLowpri := linkCount isLowPri cb.lcbPool
  let hiQuota := linkCount isHighPri cb.lcbPool * highQuota
  let lowQuota := if hiQuota < cb.numLmAclBufs then cb.numLmAclBufs - hiQuota else 1
  if numLowpri > lowQuota then
    { cb with roundRobinQuota := lowQuota }.assign highQuota 1 1
  else if numLowpri > 0 then
    { cb with roundRobinQuota := 0, roundRobinUnacked := 0 }.assign highQuota
      (lowQuota / numLowpri) (lowQuota % numLowpri)
  else
    { cb with roundRobinQuota := 0, roundRobinUnacked := 0 }.assign highQuota 1 1

/-- `l2c_link_adjust_allocation`; `none` where its first loop would not end. -/
def L2cb.adjustAllocation (cb : L2cb) : Option L2cb :=
  if cb.numUsedLcbs = 0 then
    some { cb with
      controllerXmitWindow := cb.numLmAclBufs, roundRobinQuota := 0, roundRobinUnacked := 0 }
  else
    (highPriLinkQuota (linkCount isHighPri cb.lcbPool)
      (if linkCount isLowPri cb.lcbPool > 0 then 1 else 0) cb.numLmAclBufs
      highPriMinXmitQuota).map cb.divide

theorem highPriLinkQuota_isSome (numHipri : Nat) (room : lowQuota ≤ bufs) (quota : Nat) :
    ∃ found, highPriLinkQuota numHipri lowQuota bufs quota = some found := by
  induction quota with
  | zero =>
    refine ⟨0, if_neg ?_⟩
    omega
  | succ quota ih =>
    rw [highPriLinkQuota]
    split
    · exact ih
    · exact ⟨quota + 1, rfl⟩

theorem highPriLinkQuota_largest {quota : Nat}
    (ends : highPriLinkQuota numHipri lowQuota bufs quota = some found) :
    found ≤ quota ∧ numHipri * found + lowQuota ≤ bufs ∧
      ∀ larger, found < larger → larger ≤ quota → bufs < numHipri * larger + lowQuota := by
  induction quota with
  | zero =>
    rw [highPriLinkQuota] at ends
    split at ends
    · cases ends
    · cases ends
      exact ⟨Nat.le_refl 0, by omega, by omega⟩
  | succ quota ih =>
    rw [highPriLinkQuota] at ends
    split at ends
    case isTrue exceeds =>
      obtain ⟨below, fits, largest⟩ := ih ends
      refine ⟨Nat.le_succ_of_le below, fits, fun larger above within => ?_⟩
      rcases Nat.lt_or_ge quota larger with last | inner
      · obtain rfl : larger = quota + 1 := by omega
        exact exceeds
      · exact largest larger above inner
    case isFalse fits =>
      cases ends
      exact ⟨Nat.le_refl _, by omega, by omega⟩

def Lcb.quota (lcb : Lcb) : Nat :=
  if lcb.inUse then lcb.linkXmitQuota else 0

theorem total_quota_assignQuotas (highQuota qq qqRemainder : Nat) (pool : List Lcb) :
    total quota (assignQuotas highQuota qq qqRemainder pool) =
      linkCount isHighPri pool * highQuota + linkCount isLowPri pool * qq +
        min qqRemainder (linkCount isLowPri pool) := by
  induction pool generalizing qqRemainder with
  | nil => simp [assignQuotas, linkCount]
  | cons lcb rest ih =>
    simp only [linkCount] at ih
    cases used : lcb.inUse with
    | false => simp [assignQuotas, linkCount, isHighPri, isLowPri, quota, used, ih]
    | true =>
      cases high : lcb.highPriority <;>
        simp [assignQuotas, linkCount, isHighPri, isLowPri, quota, used, high, ih, Nat.add_mul]
      · split <;> omega
      · omega

/-- A link with its quota taken away: what the allocation leaves as it is. -/
def Lcb.unquoted (lcb : Lcb) : Lcb :=
  { lcb with linkXmitQuota := 0 }

theorem assignQuotas_unquoted (highQuota qq qqRemainder : Nat) (pool : List Lcb) :
    (assignQuotas highQuota qq qqRemainder pool).map unquoted = pool.map unquoted := by
  induction pool generalizing qqRemainder with
  | nil => rfl
  | cons lcb rest ih =>
    rw [assignQuotas]
    split
    · rw [map_cons, map_cons, ih]
      rfl
    · split
      · rw [map_cons, map_cons, ih]
        rfl
      · rw [map_cons, map_cons, ih]

theorem total_assignQuotas (blind : ∀ lcb, measure lcb.unquoted = measure lcb)
    (highQuota qq qqRemainder : Nat) (pool : List Lcb) :
    total measure (assignQuotas highQuota qq qqRemainder pool) = total measure pool := by
  have through : ∀ links : List Lcb, links.map measure = (links.map unquoted).map measure := by
    intro links
    rw [map_map]
    exact map_congr_left fun lcb _ => (blind lcb).symm
  rw [total, total, through, assignQuotas_unquoted, ← through]

end

theorem quota_of_mem {lcb : Lcb} (member : lcb ∈ assignQuotas highQuota qq qqRemainder pool)
    (used : lcb.inUse = true) :
    lcb.linkXmitQuota = highQuota ∧ 0 < linkCount isHighPri pool ∨ qq ≤ lcb.linkXmitQuota := by
  induction pool generalizing qqRemainder with
  | nil => cases member
  | cons first rest ih =>
    have grows : linkCount isHighPri rest ≤ linkCount isHighPri (first :: rest) := by
      simp [linkCount]
    have later : ∀ remainder, lcb ∈ assignQuotas highQuota qq remainder rest →
        lcb.linkXmitQuota = highQuota ∧ 0 < linkCount isHighPri (first :: rest) ∨
          qq ≤ lcb.linkXmitQuota := by
      intro remainder inside
      rcases ih inside with ⟨high, some⟩ | low
      · exact .inl ⟨high, Nat.lt_of_lt_of_le some grows⟩
      · exact .inr low
    rw [assignQuotas] at member
    split at member
    case isTrue high =>
      rcases mem_cons.mp member with rfl | inside
      · refine .inl ⟨rfl, ?_⟩
        simp only [linkCount, total_cons, high, Bool.toNat_true]
        omega
      · exact later _ inside
    case isFalse notHigh =>
      split at member
      case isTrue low =>
        rcases mem_cons.mp member with rfl | inside
        · refine .inr ?_
          dsimp only
          split <;> omega
        · exact later _ inside
      case isFalse notLow =>
        rcases mem_cons.mp member with rfl | inside
        · simp [isHighPri, isLowPri, used] at notHigh notLow
          simp [notLow] at notHigh
        · exact later _ inside

theorem exists_highPri (some : 0 < linkCount isHighPri pool) :
    ∃ lcb ∈ assignQuotas highQuota qq qqRemainder pool,
      lcb.inUse = true ∧ lcb.linkXmitQuota = highQuota := by
  induction pool generalizing qqRemainder with
  | nil => cases some
  | cons first rest ih =>
    rw [assignQuotas]
    split
    case isTrue high =>
      refine ⟨_, mem_cons_self, ?_, rfl⟩
      simp only [isHighPri, Bool.and_eq_true] at high
      exact high.1
    case isFalse notHigh =>
      have inside : 0 < linkCount isHighPri rest := by
        simpa [linkCount, notHigh] using some
      split
      all_goals
        obtain ⟨lcb, member, found⟩ := ih inside
        exact ⟨lcb, mem_cons_of_mem _ member, found⟩

/-- The quotas stay within the controller's buffers, and every link can send. -/
@[mk_iff]
structure L2cb.Divided (cb : L2cb) : Prop where
  within : total quota cb.lcbPool + cb.roundRobinQuota ≤ cb.numLmAclBufs
  served : ∀ lcb ∈ cb.lcbPool, lcb.inUse = true →
    0 < lcb.linkXmitQuota ∨ lcb.linkXmitQuota = 0 ∧ 0 < cb.roundRobinQuota

instance (cb : L2cb) : Decidable cb.Divided := decidable_of_iff' _ (L2cb.divided_iff cb)

/--
The buffers are enough for the links: without low-priority links one for each link, otherwise
one for each low-priority link beside five for each high-priority link, or beside as many as
leave one buffer over.
-/
def Enough (numHipri numLowpri bufs : Nat) : Prop :=
  numLowpri = 0 ∧ numHipri ≤ bufs ∨ numLowpri + 5 * numHipri ≤ bufs ∨
    numHipri < bufs ∧ bufs ≤ 5 * numHipri ∧ numLowpri ≤ (bufs - 1) % numHipri + 1
  deriving Decidable

theorem enough_none (ends : highPriLinkQuota numHipri 0 bufs highPriMinXmitQuota = some found) :
    Enough numHipri 0 bufs ↔ numHipri = 0 ∨ 0 < found := by
  obtain ⟨_, fits, largest⟩ := highPriLinkQuota_largest ends
  rw [Enough]
  constructor
  · intro room
    rcases Nat.eq_zero_or_pos found with rfl | positive
    · have exceeds := largest 1 Nat.one_pos (by decide)
      omega
    · exact .inr positive
  · rintro (rfl | positive)
    · exact .inl ⟨rfl, Nat.zero_le _⟩
    · have atLeast : numHipri * 1 ≤ numHipri * found := Nat.mul_le_mul_left _ positive
      omega

/-- Where the loop stops below its start, one more buffer for each link would be too much. -/
theorem found_below (below : found < 5) (fits : numHipri * found + 1 ≤ bufs)
    (exceeds : bufs < numHipri * (found + 1) + 1) :
    (bufs - 1) % numHipri + 1 + numHipri * found = bufs ∧ bufs ≤ 5 * numHipri := by
  have most : numHipri * (found + 1) ≤ numHipri * 5 := Nat.mul_le_mul_left _ below
  have split : bufs - 1 = (bufs - 1 - numHipri * found) + numHipri * found := by omega
  have remainder : (bufs - 1) % numHipri = bufs - 1 - numHipri * found := by
    rw [split, Nat.add_mul_mod_self_left, Nat.mod_eq_of_lt]
    · omega
    · rw [Nat.mul_add] at exceeds
      omega
  omega

theorem enough_some {numLowpri : Nat} (low : 0 < numLowpri)
    (ends : highPriLinkQuota numHipri 1 bufs highPriMinXmitQuota = some found) :
    Enough numHipri numLowpri bufs ↔
      numLowpri + numHipri * found ≤ bufs ∧ (numHipri = 0 ∨ 0 < found) := by
  obtain ⟨most, fits, largest⟩ := highPriLinkQuota_largest ends
  rw [Enough]
  rcases Nat.eq_or_lt_of_le most with rfl | below
  · have five : highPriMinXmitQuota = 5 := rfl
    rw [five] at fits ⊢
    omega
  · obtain ⟨remainder, within⟩ := found_below below fits (largest (found + 1) (by omega) below)
    rcases Nat.eq_zero_or_pos found with rfl | positive
    · have exceeds := largest 1 Nat.one_pos (by decide)
      omega
    · have atLeast : numHipri * 1 ≤ numHipri * found := Nat.mul_le_mul_left _ positive
      omega

section Division

variable {cb : L2cb} {found : Nat}

theorem highPri_of_divided
    (divided : ({ cb with roundRobinQuota := 0, roundRobinUnacked := 0 }.assign found qq
      qqRemainder).Divided) :
    linkCount isHighPri cb.lcbPool = 0 ∨ 0 < found := by
  rcases Nat.eq_zero_or_pos (linkCount isHighPri cb.lcbPool) with zero | some
  · exact .inl zero
  · obtain ⟨lcb, member, used, quota⟩ := exists_highPri some
    rcases divided.served lcb member used with positive | ⟨_, robin⟩
    · exact .inr (quota ▸ positive)
    · cases robin

theorem divided_none (none : linkCount isLowPri cb.lcbPool = 0)
    (fits : linkCount isHighPri cb.lcbPool * found ≤ cb.numLmAclBufs) :
    (cb.divide found).Divided ↔ linkCount isHighPri cb.lcbPool = 0 ∨ 0 < found := by
  have shape : cb.divide found =
      { cb with roundRobinQuota := 0, roundRobinUnacked := 0 }.assign found 1 1 := by
    simp [L2cb.divide, none]
  rw [shape]
  constructor
  · exact highPri_of_divided
  · intro enough
    constructor
    · dsimp only [L2cb.assign]
      rw [total_quota_assignQuotas, none]
      omega
    · intro lcb member used
      rcases quota_of_mem member used with ⟨quota, some⟩ | low
      · exact .inl (quota ▸ enough.resolve_left (Nat.pos_iff_ne_zero.mp some))
      · exact .inl low

theorem divided_some (low : 0 < linkCount isLowPri cb.lcbPool)
    (fits : linkCount isHighPri cb.lcbPool * found + 1 ≤ cb.numLmAclBufs) :
    (cb.divide found).Divided ↔
      linkCount isLowPri cb.lcbPool + linkCount isHighPri cb.lcbPool * found ≤
          cb.numLmAclBufs ∧ (linkCount isHighPri cb.lcbPool = 0 ∨ 0 < found) := by
  have left : (if linkCount isHighPri cb.lcbPool * found < cb.numLmAclBufs then
      cb.numLmAclBufs - linkCount isHighPri cb.lcbPool * found else 1) =
      cb.numLmAclBufs - linkCount isHighPri cb.lcbPool * found := if_pos (by omega)
  rw [L2cb.divide, left]
  split
  case isTrue scarce =>
    -- every link has a quota of at least one, and the round robin has the buffers once more
    refine ⟨fun divided => absurd divided.within ?_, fun enough => ?_⟩
    · dsimp only [L2cb.assign]
      rw [total_quota_assignQuotas]
      omega
    · omega
  case isFalse plenty =>
    constructor
    · exact fun divided => ⟨by omega, highPri_of_divided divided⟩
    · rintro ⟨_, enough⟩
      constructor
      · have parts := Nat.div_add_mod (cb.numLmAclBufs - linkCount isHighPri cb.lcbPool * found)
          (linkCount isLowPri cb.lcbPool)
        dsimp only [L2cb.assign]
        rw [total_quota_assignQuotas]
        omega
      · intro lcb member used
        have share : 0 < (cb.numLmAclBufs - linkCount isHighPri cb.lcbPool * found) /
            linkCount isLowPri cb.lcbPool := Nat.div_pos (by omega) low
        rcases quota_of_mem member used with ⟨quota, some⟩ | atLeast
        · exact .inl (quota ▸ enough.resolve_left (Nat.pos_iff_ne_zero.mp some))
        · exact .inl (Nat.lt_of_lt_of_le share atLeast)

end Division

theorem adjustAllocation_isSome {cb : L2cb} (buffers : 1 ≤ cb.numLmAclBufs) :
    ∃ next, cb.adjustAllocation = some next := by
  rw [L2cb.adjustAllocation]
  split
  · exact ⟨_, rfl⟩
  · have room : (if linkCount isLowPri cb.lcbPool > 0 then 1 else 0) ≤ cb.numLmAclBufs := by
      split <;> omega
    obtain ⟨found, ends⟩ := highPriLinkQuota_isSome (linkCount isHighPri cb.lcbPool)
      room highPriMinXmitQuota
    exact ⟨cb.divide found, by rw [ends]; rfl⟩

/--
The allocation ends for every pool of links, and it divides the buffers with every link served
exactly if they are enough.
-/
theorem adjustAllocation_divides_iff (cb : L2cb) (buffers : 1 ≤ cb.numLmAclBufs)
    (counted : cb.numUsedLcbs = linkCount inUse cb.lcbPool) :
    (∃ next, cb.adjustAllocation = some next ∧ next.Divided) ↔
      Enough (linkCount isHighPri cb.lcbPool) (linkCount isLowPri cb.lcbPool) cb.numLmAclBufs := by
  obtain ⟨next, ends⟩ := adjustAllocation_isSome buffers
  have only : (∃ next, cb.adjustAllocation = some next ∧ next.Divided) ↔ next.Divided := by
    rw [ends]
    constructor
    · rintro ⟨other, same, divided⟩
      exact Option.some.inj same ▸ divided
    · exact fun divided => ⟨next, rfl, divided⟩
  rw [only]
  rw [L2cb.adjustAllocation] at ends
  split at ends
  case isTrue unused =>
    rw [unused] at counted
    have free := linkCount_eq_zero.mp counted.symm
    have parts := linkCount_inUse cb.lcbPool
    have empty : total quota cb.lcbPool = 0 := by
      refine sum_eq_zero fun quota member => ?_
      obtain ⟨lcb, inside, rfl⟩ := mem_map.mp member
      simp [quota, free lcb inside]
    cases ends
    refine ⟨fun _ => ?_, fun _ => ⟨by simp [empty], fun lcb member used => ?_⟩⟩
    · rw [Enough]
      omega
    · rw [free lcb member] at used
      cases used
  case isFalse inUse =>
    obtain ⟨found, quota, rfl⟩ := Option.map_eq_some_iff.mp ends
    rcases Nat.eq_zero_or_pos (linkCount isLowPri cb.lcbPool) with none | low
    · rw [none, if_neg (Nat.lt_irrefl 0)] at quota
      rw [none, enough_none quota]
      exact divided_none none (highPriLinkQuota_largest quota).2.1
    · rw [if_pos low] at quota
      rw [enough_some low quota]
      exact divided_some low (highPriLinkQuota_largest quota).2.1

def linksOf (priorities : List Bool) (bufs : Nat) : L2cb where
  lcbPool := priorities.map fun high => { inUse := true, highPriority := high }
  numLmAclBufs := bufs
  controllerXmitWindow := bufs
  numUsedLcbs := priorities.length

theorem adjustAllocation_divides_music :
    (∃ next, (linksOf [true, false, false] 8).adjustAllocation = some next ∧ next.Divided) :=
  (adjustAllocation_divides_iff (linksOf [true, false, false] 8) (by decide) (by decide)).mpr
    (by decide)

/-- Five low-priority links and four buffers: quotas of 6 and 4 more for the round robin. -/
theorem five_links_overcommitted :
    ((linksOf [false, false, false, false, false] 4).adjustAllocation.map fun next =>
      (next.lcbPool.map linkXmitQuota, next.roundRobinQuota, decide next.Divided)) =
      some ([2, 1, 1, 1, 1], 4, false) := by
  decide

end BluetoothFormal.L2cap.Links
