import BluetoothFormal.Hci.RoundRobinOrder

/-!
# The credit books of the round-robin scheduler

A connection is charged for all fragments of a packet when the packet is taken,
while a credit is spent for each fragment that is sent.  The two books agree as
long as a connection that goes away has no fragment left to send: then the
charge is exactly what the controller holds, and reclaiming it restores the
credits.  A connection that is unregistered earlier is given back credits that
were never spent.
-/

namespace BluetoothFormal.Hci.RoundRobinScheduler

open Option Multiset Scheduler
open Foundation.Transition
open Std (TreeMap)

/-- The handle is registered with the given connection type. -/
def OfType (handlers : Handlers) (type : ConnectionType) (handle : Handle) : Prop :=
  (account handlers handle).map Prod.fst = some type
  deriving Decidable

/-- The fragments of registered links of one type that the controller holds. -/
def held (world : World) (type : ConnectionType) : Nat :=
  world.outstanding.countP (OfType world.scheduler.aclQueueHandlers type)

def waiting (scheduler : Scheduler) (handle : Handle) : Nat :=
  scheduler.fragmentsToSend.items.countP (·.builder.handle = handle)

/-- The controller reports completion only of fragments that it holds. -/
def Handed (world : World) : Event → Prop
  | .incomingAclCredits handle credits => credits.toNat ≤ world.outstanding.count handle
  | _ => True

instance (world : World) (event : Event) : Decidable (Handed world event) := by
  induction event using Event.casesOn with
  | incomingAclCredits => exact Nat.decLe _ _
  | _ => exact isTrue trivial

/--
A connection goes away only when none of its fragments waits, and is never
charged for more fragments than its counter holds.
-/
def Settled (world : World) : Event → Prop
  | .unregister handle => waiting world.scheduler handle = 0
  | .bufferPacket handle packet =>
    ∀ entry ∈ account world.scheduler.aclQueueHandlers handle,
      entry.2 + (Dequeued.fragments ⟨entry.1, handle, packet⟩
        (world.scheduler.hciMtu entry.1)).length < 2 ^ 16
  | _ => True

instance (world : World) (event : Event) : Decidable (Settled world event) := by
  induction event using Event.casesOn with
  | unregister => exact Nat.decEq _ _
  | bufferPacket => exact inferInstanceAs (Decidable (∀ entry ∈ _, _ < _))
  | _ => exact isTrue trivial

/-! ## Types of connections -/

variable {after before : Handlers} {type : ConnectionType} {handle : Handle}
  {handler : AclQueueHandler} {number : Nat}

theorem ofType_of_charges {charge : Handle → ConnectionType × Nat → ConnectionType × Nat}
    (changed : ∀ handle, account after handle = (account before handle).map (charge handle))
    (kept : ∀ handle entry, (charge handle entry).1 = entry.1) (type : ConnectionType)
    (handle : Handle) :
    OfType after type handle ↔ OfType before type handle := by
  rw [OfType, OfType, changed, Option.map_map]
  have same : Prod.fst ∘ charge handle = Prod.fst := funext (kept handle)
  rw [same]

theorem countP_ofType_congr {handles : Multiset Handle} (types : ∀ handle ∈ handles,
      OfType after type handle ↔ OfType before type handle) :
    handles.countP (OfType after type) = handles.countP (OfType before type) :=
  countP_congr rfl fun handle member => propext (types handle member)

/-! ## The books -/

/-- Credits and charges against the fragments that the controller holds and those that wait. -/
structure Books (scheduler : Scheduler) (outstanding : Multiset Handle) : Prop where
  bounded : ∀ type, scheduler.maxPacketCredits type < 2 ^ 16
  balanced : ∀ type, scheduler.packetCredits type +
    outstanding.countP (OfType scheduler.aclQueueHandlers type) = scheduler.maxPacketCredits type
  charged : ∀ handle type number, account scheduler.aclQueueHandlers handle = some (type, number) →
      number = outstanding.count handle + waiting scheduler handle
  known : ∀ handle ∈ outstanding, account scheduler.aclQueueHandlers handle ≠ none
  owned : ∀ fragment ∈ scheduler.fragmentsToSend.items,
    OfType scheduler.aclQueueHandlers fragment.connectionType fragment.builder.handle

namespace Books

variable {before after : Scheduler} {outstanding : Multiset Handle}

theorem countP_replicate (property : Handle → Prop) [DecidablePred property] (number : Nat)
    (handle : Handle) :
    (replicate number handle).countP property = if property handle then number else 0 := by
  rw [← coe_replicate, coe_countP, List.countP_replicate]
  simp

theorem countP_flush (outstanding : Multiset Handle) (handle : Handle) (property : Handle → Prop)
    [DecidablePred property] :
    outstanding.countP property = (outstanding.filter (· ≠ handle)).countP property +
      if property handle then outstanding.count handle else 0 := by
  rw [countP_eq_countP_filter_add outstanding property (· ≠ handle)]
  simp only [not_not]
  rw [filter_eq' outstanding handle, countP_replicate]

variable (books : Books before outstanding)
include books

theorem congr (fragments : after.fragmentsToSend = before.fragmentsToSend)
    (credits : after.packetCredits = before.packetCredits)
    (maxCredits : after.maxPacketCredits = before.maxPacketCredits)
    (entries : ∀ handle,
      account after.aclQueueHandlers handle = account before.aclQueueHandlers handle) :
    Books after outstanding := by
  have types : ∀ type handle, OfType after.aclQueueHandlers type handle ↔
        OfType before.aclQueueHandlers type handle := by
    intro type handle
    rw [OfType, entries, OfType]
  refine ⟨maxCredits ▸ books.bounded, ?_, ?_, ?_, ?_⟩
  · intro type
    rw [credits, maxCredits, ← books.balanced type,
      countP_ofType_congr fun handle _ => types type handle]
  · intro handle type number entry
    rw [entries] at entry
    rw [waiting, fragments]
    exact books.charged handle type number entry
  · intro handle member
    rw [entries]
    exact books.known handle member
  · intro fragment member
    rw [fragments] at member
    exact (types _ _).mpr (books.owned fragment member)

theorem restarted (restart : Restarted before after) :
    Books after outstanding :=
  books.congr restart.fragments restart.credits restart.maxCredits restart.account_eq

theorem waiting_eq_zero_of_unknown (unknown : account before.aclQueueHandlers handle = none) :
    waiting before handle = 0 := by
  refine List.countP_eq_zero.mpr fun fragment member same => ?_
  have owned := books.owned fragment member
  rw [OfType, of_decide_eq_true same, unknown] at owned
  cases owned

theorem register (unknown : before.aclQueueHandlers[handle]? = none) (type : ConnectionType) :
    Books
      { before with
        aclQueueHandlers := before.aclQueueHandlers.insert handle
          ⟨type, false, 0, false⟩ } outstanding := by
  have absent := account_eq_none unknown
  have other : ∀ another, handle ≠ another →
      account (before.aclQueueHandlers.insert handle ⟨type, false, 0, false⟩) another =
        account before.aclQueueHandlers another := by
    intro another distinct
    simp [account, TreeMap.getElem?_insert, distinct]
  have distinct : ∀ another ∈ outstanding, handle ≠ another :=
    fun another member same => books.known another member (same ▸ absent)
  refine ⟨books.bounded, ?_, ?_, ?_, ?_⟩
  · intro kind
    rw [← books.balanced kind]
    congr 1
    refine countP_ofType_congr fun another member => ?_
    rw [OfType, OfType, other another (distinct another member)]
  · intro another kind number entry
    by_cases same : handle = another
    · subst same
      have none : outstanding.count handle = 0 :=
        count_eq_zero.mpr fun member => distinct handle member rfl
      have waits := books.waiting_eq_zero_of_unknown absent
      simp only [account, TreeMap.getElem?_insert_self, map_some, some.injEq,
        Prod.mk.injEq] at entry
      change number = outstanding.count handle + waiting before handle
      omega
    · rw [other another same] at entry
      exact books.charged another kind number entry
  · intro another member
    rw [other another (distinct another member)]
    exact books.known another member
  · intro fragment member
    have owned := books.owned fragment member
    have apart : handle ≠ fragment.builder.handle := by
      intro same
      rw [OfType, ← same, absent] at owned
      cases owned
    rw [OfType, other _ apart]
    exact owned

theorem unregister (found : before.aclQueueHandlers[handle]? = some handler)
    (settled : waiting before handle = 0)
    {start : Option Handle} :
    Books
      { before.setCredits handler.connectionType
          (wrap16 (before.packetCredits handler.connectionType + handler.numberOfSentPackets)) with
        aclQueueHandlers := before.aclQueueHandlers.erase handle
        startingPoint := start }
      (outstanding.filter (· ≠ handle)) := by
  have entry := account_eq_some found
  have charged : handler.numberOfSentPackets = outstanding.count handle := by
    rw [books.charged handle _ _ entry, settled, Nat.add_zero]
  have other : ∀ another, handle ≠ another →
      account (before.aclQueueHandlers.erase handle) another =
        account before.aclQueueHandlers another := by
    intro another distinct
    simp [account, TreeMap.getElem?_erase, distinct]
  have erased : account (before.aclQueueHandlers.erase handle) handle = none := by
    simp [account]
  have remains : ∀ kind, (outstanding.filter (· ≠ handle)).countP
        (OfType (before.aclQueueHandlers.erase handle) kind) =
      (outstanding.filter (· ≠ handle)).countP (OfType before.aclQueueHandlers kind) := by
    intro kind
    refine countP_ofType_congr fun another member => ?_
    rw [OfType, OfType, other another (Ne.symm (mem_filter.mp member).2)]
  have type : ∀ kind, OfType before.aclQueueHandlers kind handle ↔
      handler.connectionType = kind := by
    intro kind
    simp [OfType, entry]
  refine ⟨books.bounded, ?_, ?_, ?_, ?_⟩
  · intro kind
    have balanced := books.balanced kind
    have flush := countP_flush outstanding handle (OfType before.aclQueueHandlers kind)
    rw [remains]
    by_cases same : handler.connectionType = kind
    · have small := books.bounded kind
      subst same
      rw [if_pos ((type _).mpr rfl)] at flush
      have exact : wrap16 (before.packetCredits handler.connectionType +
          handler.numberOfSentPackets) =
            before.packetCredits handler.connectionType + outstanding.count handle := by
        rw [charged, wrap16, Nat.mod_eq_of_lt (by omega)]
      simp only [setCredits, Function.update_self, exact]
      omega
    · rw [if_neg fun owned => same ((type kind).mp owned)] at flush
      simp only [setCredits, Function.update_of_ne (Ne.symm same)]
      omega
  · intro another kind number known
    by_cases same : handle = another
    · rw [← same, erased] at known
      cases known
    · rw [other another same] at known
      have distinct : another ≠ handle := Ne.symm same
      rw [count_filter, if_pos distinct]
      exact books.charged another kind number known
  · intro another member
    obtain ⟨member, distinct⟩ := mem_filter.mp member
    rw [other another (Ne.symm distinct)]
    exact books.known another member
  · intro fragment member
    have apart : handle ≠ fragment.builder.handle := by
      intro same
      have none := List.countP_eq_zero.mp settled fragment member
      exact none (decide_eq_true same.symm)
    rw [OfType, other _ apart]
    exact books.owned fragment member

theorem buffered (idle : before.fragmentsToSend.items = []) {dequeued : Dequeued}
    (entry : account before.aclQueueHandlers dequeued.handle =
      some (dequeued.connectionType, number))
    (small : number + (dequeued.fragments (before.hciMtu dequeued.connectionType)).length < 2 ^ 16)
    (buffer : Buffered before after dequeued) : Books after outstanding := by
  have types : ∀ kind handle, OfType after.aclQueueHandlers kind handle ↔
      OfType before.aclQueueHandlers kind handle := by
    refine ofType_of_charges buffer.charged fun handle entry => ?_
    split <;> rfl
  have none : ∀ handle, waiting before handle = 0 := by simp [waiting, idle]
  refine ⟨buffer.maxCredits ▸ books.bounded, ?_, ?_, ?_, ?_⟩
  · intro kind
    rw [buffer.credits, buffer.maxCredits, ← books.balanced kind,
      countP_ofType_congr fun handle _ => types kind handle]
  · intro handle kind charge known
    rw [buffer.charged] at known
    obtain ⟨⟨old, earlier⟩, account_eq, changed⟩ := map_eq_some_iff.mp known
    have before_eq := books.charged handle old earlier account_eq
    rw [none, Nat.add_zero] at before_eq
    rw [waiting, buffer.items]
    by_cases same : dequeued.handle = handle
    · subst same
      have all : (dequeued.fragments (before.hciMtu dequeued.connectionType)).countP
          (fun fragment => decide (fragment.builder.handle = dequeued.handle)) =
            (dequeued.fragments (before.hciMtu dequeued.connectionType)).length :=
        List.countP_eq_length.mpr fun fragment member =>
          decide_eq_true (Dequeued.mem_fragments member).2
      rw [entry] at account_eq
      obtain ⟨rfl, rfl⟩ := Prod.mk.inj (some.inj account_eq)
      rw [if_pos rfl, wrap16, Nat.mod_eq_of_lt small] at changed
      rw [all, ← before_eq]
      exact (congrArg Prod.snd changed).symm
    · have nothing : (dequeued.fragments (before.hciMtu dequeued.connectionType)).countP
          (fun fragment => decide (fragment.builder.handle = handle)) = 0 :=
        List.countP_eq_zero.mpr fun fragment member matched =>
          same ((Dequeued.mem_fragments member).2.symm.trans (of_decide_eq_true matched))
      rw [if_neg same] at changed
      rw [nothing, Nat.add_zero, ← before_eq]
      exact (congrArg Prod.snd changed).symm
  · intro handle member
    rw [buffer.charged]
    exact fun unknown => books.known handle member (Option.map_eq_none_iff.mp unknown)
  · intro fragment member
    rw [buffer.items] at member
    obtain ⟨kind, handle⟩ := Dequeued.mem_fragments member
    rw [kind, handle, types, OfType, entry]
    rfl

theorem send {fragment : Fragment} (step : Sent before after fragment) :
    Books after (fragment.builder.handle ::ₘ outstanding) := by
  have items := step.items
  have own : OfType before.aclQueueHandlers fragment.connectionType fragment.builder.handle :=
    books.owned fragment (items ▸ List.mem_cons_self)
  refine ⟨step.maxCredits ▸ books.bounded, ?_, ?_, ?_, ?_⟩
  · intro kind
    have balanced := books.balanced kind
    rw [step.handlers, step.maxCredits, step.credits, countP_cons]
    by_cases same : fragment.connectionType = kind
    · subst same
      have credit := step.credit
      rw [if_pos own, Function.update_self]
      omega
    · have foreign : ¬ OfType before.aclQueueHandlers kind fragment.builder.handle :=
        fun other => same (some.inj (own.symm.trans other))
      rw [if_neg foreign, Function.update_of_ne (Ne.symm same)]
      omega
  · intro handle kind number entry
    rw [step.handlers] at entry
    have charged := books.charged handle kind number entry
    rw [waiting, items, List.countP_cons] at charged
    rw [count_cons, charged, waiting]
    by_cases same : fragment.builder.handle = handle
    · simp only [same, decide_true, if_true]
      omega
    · simp only [same, decide_false, Ne.symm same, if_false]
      rfl
  · intro handle member
    rw [step.handlers]
    rcases mem_cons.mp member with rfl | earlier
    · intro unknown
      rw [OfType, unknown] at own
      cases own
    · exact books.known handle earlier
  · intro other member
    rw [step.handlers]
    exact books.owned other (items ▸ List.mem_cons_of_mem _ member)

theorem report (found : before.aclQueueHandlers[handle]? = some handler) {credits : Nat}
    (handed : credits ≤ outstanding.count handle) :
    Books ((before.reportSent handle credits).setCredits handler.connectionType
        (before.creditsAfter handler.connectionType credits))
      (outstanding - replicate credits handle) := by
  have entry := account_eq_some found
  have part : replicate credits handle ≤ outstanding :=
    le_count_iff_replicate_le.mp handed
  have changed := before.account_reportSent handle credits
  have types : ∀ kind other, OfType (before.reportSent handle credits).aclQueueHandlers kind other ↔
        OfType before.aclQueueHandlers kind other := by
    refine ofType_of_charges changed fun other old => ?_
    split <;> rfl
  refine ⟨books.bounded, ?_, ?_, ?_, ?_⟩
  · intro kind
    have balanced := books.balanced kind
    have small := books.bounded kind
    have fewer := countP_le_of_le (OfType before.aclQueueHandlers kind) part
    have same : (outstanding - replicate credits handle).countP
        (OfType (before.reportSent handle credits).aclQueueHandlers kind) =
          (outstanding - replicate credits handle).countP (OfType before.aclQueueHandlers kind) :=
      countP_ofType_congr fun other _ => types kind other
    change Function.update before.packetCredits _ _ kind +
      (outstanding - replicate credits handle).countP
        (OfType (before.reportSent handle credits).aclQueueHandlers kind) =
          before.maxPacketCredits kind
    rw [same, countP_sub part]
    rw [countP_replicate] at fewer ⊢
    by_cases own : handler.connectionType = kind
    · subst own
      have type : OfType before.aclQueueHandlers handler.connectionType handle := by
        simp [OfType, entry]
      rw [if_pos type] at fewer ⊢
      have exact : before.creditsAfter handler.connectionType credits =
          before.packetCredits handler.connectionType + credits := by
        rw [creditsAfter, wrap16, Nat.mod_eq_of_lt (by omega)]
        exact if_neg (by omega)
      rw [Function.update_self, exact]
      omega
    · have foreign : ¬ OfType before.aclQueueHandlers kind handle := by
        simpa [OfType, entry] using own
      rw [if_neg foreign, Function.update_of_ne (Ne.symm own)]
      omega
  · intro other kind number known
    change number = (outstanding - replicate credits handle).count other + waiting before other
    rw [count_sub, count_replicate]
    change account (before.reportSent handle credits).aclQueueHandlers other = _ at known
    rw [changed] at known
    obtain ⟨⟨old, earlier⟩, account_eq, after⟩ := map_eq_some_iff.mp known
    have before_eq := books.charged other old earlier account_eq
    by_cases same : handle = other
    · subst same
      rw [if_pos rfl, if_pos (by omega)] at after
      have value : earlier - credits = number := congrArg Prod.snd after
      rw [if_pos rfl]
      omega
    · rw [if_neg same] at after
      have value : earlier = number := congrArg Prod.snd after
      rw [if_neg same]
      omega
  · intro other member
    change account (before.reportSent handle credits).aclQueueHandlers other ≠ none
    rw [changed]
    have earlier := books.known other (Multiset.mem_of_le (Multiset.sub_le_self _ _) member)
    exact fun unknown => earlier (Option.map_eq_none_iff.mp unknown)
  · intro fragment member
    exact (types _ _).mpr (books.owned fragment member)

theorem credits_add_count_le
    (entry : account before.aclQueueHandlers handle = some (type, number)) :
    before.packetCredits type + outstanding.count handle < 2 ^ 16 := by
  have own : OfType before.aclQueueHandlers type handle := by simp [OfType, entry]
  have flush := countP_flush outstanding handle (OfType before.aclQueueHandlers type)
  have balanced := books.balanced type
  have small := books.bounded type
  rw [if_pos own] at flush
  omega

end Books

/-! ## Every event -/

/-- The order of the fragments together with the books. -/
structure Balanced (world : World) : Prop where
  safe : Safe world
  books : Books world.scheduler world.outstanding

namespace Balanced

variable {world next : World}

theorem initial (controller : Controller) : Balanced (World.initial controller) where
  safe := Safe.initial controller
  books := by
    refine ⟨controller.bounded, fun _ => rfl, ?_, ?_, ?_⟩
    · intro handle type number entry
      simp [World.initial, new, account] at entry
    · exact fun handle member => absurd member (notMem_zero handle)
    · intro fragment member
      simp [World.initial, new] at member

section

variable (balanced : Balanced world)
include balanced

theorem noOverflow {event : Event} (handed : Handed world event) (settled : Settled world event) :
    NoOverflow world event := by
  cases event with
  | unregister handle =>
    rintro ⟨type, number⟩ entry
    have charged := balanced.books.charged handle type number entry
    have room := balanced.books.credits_add_count_le entry
    have none : waiting world.scheduler handle = 0 := settled
    dsimp only
    omega
  | incomingAclCredits handle credits =>
    rintro ⟨type, number⟩ entry
    have room := balanced.books.credits_add_count_le entry
    have reported : credits.toNat ≤ world.outstanding.count handle := handed
    dsimp only
    omega
  | register _ _ | setLinkPriority _ _ | bufferPacket _ _ | handleEnqueueNextFragment
  | startRoundRobin => trivial

theorem bufferPacket {packet : UpperPacket} (settled : Settled world (.bufferPacket handle packet))
    (moved : world.step (.bufferPacket handle packet) = some next) :
    Books next.scheduler next.outstanding := by
  rcases balanced.safe.bufferPacket_cases moved with
    rfl | ⟨handler, after, found, -, idle, buffer, rfl⟩
  · exact balanced.books
  · have entry := account_eq_some found
    exact balanced.books.buffered idle entry (settled _ entry) buffer

theorem handleEnqueueNextFragment (moved : world.step .handleEnqueueNextFragment = some next) :
    Books next.scheduler next.outstanding := by
  obtain ⟨-, moved⟩ := ite_none_right_eq_some.mp moved
  obtain ⟨⟨after, fragment⟩, taken, rfl⟩ := map_eq_some_iff.mp moved
  exact balanced.books.send (handleEnqueueNextFragment_sent taken)

theorem incomingAclCredits {credits : UInt16}
    (handed : Handed world (.incomingAclCredits handle credits))
    (moved : world.step (.incomingAclCredits handle credits) = some next) :
    Books next.scheduler next.outstanding := by
  obtain rfl := some.inj moved
  rcases world.scheduler.incomingAclCredits_cases handle credits.toNat with
    ⟨unknown, same⟩ | ⟨handler, found, restart⟩
  · have none : world.outstanding.count handle = 0 := by
      exact count_eq_zero.mpr fun member =>
        balanced.books.known handle member (account_eq_none unknown)
    have nothing : credits.toNat = 0 := Nat.le_zero.mp (none ▸ handed)
    simp only [same]
    simpa [nothing] using balanced.books
  · exact (balanced.books.report found handed).restarted restart

end

theorem step (event : Event) (next : World) (balanced : Balanced world)
    (kept : Handed world event ∧ Settled world event) (moved : world.step event = some next) :
    Balanced next := by
  refine ⟨balanced.safe.step event next (balanced.noOverflow kept.1 kept.2) moved, ?_⟩
  cases event with
  | register type handle =>
    obtain ⟨scheduler, registered, rfl⟩ := map_eq_some_iff.mp moved
    obtain ⟨unknown, restart⟩ := register_cases registered
    exact (balanced.books.register unknown type).restarted restart
  | unregister handle =>
    obtain ⟨scheduler, unregistered, rfl⟩ := map_eq_some_iff.mp moved
    obtain ⟨handler, found, rfl⟩ := unregister_cases unregistered
    exact balanced.books.unregister found kept.2
  | setLinkPriority handle highPriority =>
    obtain rfl := some.inj moved
    exact balanced.books.congr rfl rfl rfl (account_modify (by intro handler; exact ⟨rfl, rfl⟩))
  | bufferPacket handle packet => exact balanced.bufferPacket kept.2 moved
  | handleEnqueueNextFragment => exact balanced.handleEnqueueNextFragment moved
  | startRoundRobin =>
    simp only [World.step] at moved
    split at moved
    · cases moved
    · obtain rfl := some.inj moved
      exact balanced.books.restarted (startRoundRobin_restarted _)
  | incomingAclCredits handle credits => exact balanced.incomingAclCredits kept.1 moved

end Balanced

/--
In every run in which the controller reports only fragments that it holds, no
connection is unregistered while fragments of it wait and no charge exceeds its
counter, the credits of each link type and the fragments that the controller
holds for registered connections of that type add up to the controller's
buffers.
-/
theorem credits_balanced {controller : Controller} {events : List Event} {world : World}
    (kept : Along World.step (fun world event => Handed world event ∧ Settled world event)
      (World.initial controller) events)
    (reached : run World.step (World.initial controller) events = some world)
    (type : ConnectionType) :
    world.scheduler.packetCredits type ≤ world.scheduler.maxPacketCredits type ∧
      world.scheduler.packetCredits type + held world type =
        world.scheduler.maxPacketCredits type := by
  have balanced : Balanced world := invariant_along
    (fun _ event next balanced => balanced.step event next) (Balanced.initial controller) kept
    reached
  have total := balanced.books.balanced type
  exact ⟨Nat.le_of_add_right_le total.le, total⟩

/-- All fragments are sent and two completed before the connection goes away. -/
def settledRun : List Event :=
  nineBytes ++ [.incomingAclCredits 1 2, .handleEnqueueNextFragment, .startRoundRobin,
    .unregister 1]

theorem credits_balanced_settledRun :
    ∃ world, run World.step (World.initial twoBuffers) settledRun = some world ∧
      world.scheduler.packetCredits .classic ≤ world.scheduler.maxPacketCredits .classic ∧
      world.scheduler.packetCredits .classic + held world .classic =
        world.scheduler.maxPacketCredits .classic := by
  have kept : Along World.step (fun world event => Handed world event ∧ Settled world event)
      (World.initial twoBuffers) settledRun := by decide
  exact ⟨_, rfl, credits_balanced kept rfl .classic⟩

/-- The connection goes away while the last of three fragments waits for a buffer. -/
theorem credits_exceed_buffers :
    ∃ world, run World.step (World.initial twoBuffers) (nineBytes ++ [.unregister 1]) = some world ∧
      Along World.step Handed (World.initial twoBuffers) (nineBytes ++ [.unregister 1]) ∧
      world.scheduler.maxPacketCredits .classic = 2 ∧ world.scheduler.packetCredits .classic = 3 :=
  ⟨_, rfl, by decide, rfl, by decide⟩

end BluetoothFormal.Hci.RoundRobinScheduler
