import BluetoothFormal.Hci.RoundRobinScheduler

/-!
# Order and safety of the round-robin scheduler

The fragments that wait always belong to the packet taken last, because a
packet is taken only by a registered dequeue and no dequeue is registered while
fragments wait.  As long as no credit counter wraps, the enqueue callback is
registered only while a fragment waits and its link has a credit, so neither
the assertion on the credit nor the access to the front can fail.
-/

namespace BluetoothFormal.Hci.RoundRobinScheduler

open Common Option Scheduler MultiPriorityQueue
open Foundation.Transition
open Std (TreeMap)

abbrev Handlers := TreeMap Handle AclQueueHandler

/-- The connection type of a handle and the packets it is charged for. -/
def account (handlers : Handlers) (handle : Handle) : Option (ConnectionType × Nat) :=
  handlers[handle]?.map fun handler => (handler.connectionType, handler.numberOfSentPackets)

/-- The dequeue of a connection of the given type is registered. -/
def DequeueRegistered (handlers : Handlers) (handle : Handle) (type : ConnectionType) : Prop :=
  ∃ handler, handlers[handle]? = some handler ∧ handler.dequeueIsRegistered = true ∧
    handler.connectionType = type

/-! ## What the map operations change -/

variable {handle other : Handle} {handlers : Handlers} {type : ConnectionType} {self : Scheduler}

variable {handler : AclQueueHandler} {change : AclQueueHandler → AclQueueHandler}
  {fragment : Fragment} {after : Scheduler} {dequeued : Dequeued}

theorem account_eq_some (found : handlers[handle]? = some handler) :
    account handlers handle = some (handler.connectionType, handler.numberOfSentPackets) := by
  rw [account, found, map_some]

theorem account_eq_none (unknown : handlers[handle]? = none) : account handlers handle = none := by
  rw [account, unknown, Option.map_none]

theorem getElem?_modify (handlers : Handlers) (handle other : Handle)
    (change : AclQueueHandler → AclQueueHandler) :
    (handlers.modify handle change)[other]? =
      handlers[other]?.map fun handler => if handle = other then change handler else handler := by
  rw [TreeMap.getElem?_modify]
  by_cases same : handle = other
  · simp [same]
  · simp [same]

theorem dequeueRegistered_modify
    (kept : ∀ handler, (change handler).dequeueIsRegistered = handler.dequeueIsRegistered ∧
      (change handler).connectionType = handler.connectionType) :
    DequeueRegistered (handlers.modify handle change) other type ↔
      DequeueRegistered handlers other type := by
  unfold DequeueRegistered
  rw [getElem?_modify]
  cases handlers[other]? with
  | none => simp
  | some handler =>
    by_cases same : handle = other
    · simp [same, kept]
    · simp [same]

theorem account_modify (kept : ∀ handler, (change handler).connectionType = handler.connectionType ∧
      (change handler).numberOfSentPackets = handler.numberOfSentPackets) (other : Handle) :
    account (handlers.modify handle change) other = account handlers other := by
  unfold account
  rw [getElem?_modify]
  cases handlers[other]? with
  | none => rfl
  | some handler =>
    by_cases same : handle = other
    · simp [same, kept]
    · simp [same]

theorem Scheduler.account_reportSent (self : Scheduler) (handle : Handle) (credits : Nat)
    (other : Handle) :
    account (self.reportSent handle credits).aclQueueHandlers other =
      (account self.aclQueueHandlers other).map fun old =>
        if handle = other then (old.1, if credits ≤ old.2 then old.2 - credits else 0)
        else old := by
  simp only [account, reportSent, getElem?_modify]
  cases self.aclQueueHandlers[other]? with
  | none => rfl
  | some old =>
    by_cases same : handle = other
    · simp [same]
    · simp [same]

theorem DequeueRegistered.of_erase
    (registered : DequeueRegistered (handlers.erase handle) other type) :
    DequeueRegistered handlers other type := by
  obtain ⟨handler, found, rest⟩ := registered
  rw [TreeMap.getElem?_erase] at found
  split at found
  · cases found
  · exact ⟨handler, found, rest⟩

theorem DequeueRegistered.of_insert {fresh : AclQueueHandler}
    (idle : fresh.dequeueIsRegistered = false)
    (registered : DequeueRegistered (handlers.insert handle fresh) other type) :
    DequeueRegistered handlers other type := by
  obtain ⟨handler, found, active, type⟩ := registered
  rw [TreeMap.getElem?_insert] at found
  split at found
  · obtain rfl := some.inj found
    rw [idle] at active
    cases active
  · exact ⟨handler, found, active, type⟩

theorem not_dequeueRegistered_unregisterAll (self : Scheduler) (handle : Handle)
    (type : ConnectionType) :
    ¬ DequeueRegistered self.unregisterAllConnections.aclQueueHandlers handle type := by
  rintro ⟨handler, found, active, _⟩
  simp only [unregisterAllConnections, TreeMap.getElem?_map] at found
  cases before : self.aclQueueHandlers[handle]? with
  | none => simp [before] at found
  | some old =>
    simp only [before, map_some, some.injEq] at found
    rw [← found] at active
    cases active

theorem Scheduler.dequeueRegistered_charge (self : Scheduler) :
    DequeueRegistered (self.charge handle).aclQueueHandlers other type ↔
      DequeueRegistered self.aclQueueHandlers other type :=
  dequeueRegistered_modify (by intro handler; exact ⟨rfl, rfl⟩)

/-! ## A round -/

/-- What a round may change: registrations for which there is a credit. -/
structure Restarted (before after : Scheduler) : Prop where
  fragments : after.fragmentsToSend = before.fragmentsToSend
  credits : after.packetCredits = before.packetCredits
  maxCredits : after.maxPacketCredits = before.maxPacketCredits
  mtu : after.hciMtu = before.hciMtu
  account_eq : ∀ handle,
    account after.aclQueueHandlers handle = account before.aclQueueHandlers handle
  dequeue : ∀ handle type, DequeueRegistered after.aclQueueHandlers handle type →
      DequeueRegistered before.aclQueueHandlers handle type ∨
        (before.fragmentsToSend.items = [] ∧ 0 < before.packetCredits type)
  enqueue : after.enqueueRegistered = true → before.enqueueRegistered = true ∨
    ∃ fragment, before.fragmentsToSend.front? = some fragment ∧
      0 < before.packetCredits fragment.connectionType

namespace Restarted

theorem refl (self : Scheduler) : Restarted self self :=
  ⟨rfl, rfl, rfl, rfl, fun _ => rfl, fun _ _ => .inl, .inl⟩

theorem trans {first second third : Scheduler} (left : Restarted first second)
    (right : Restarted second third) : Restarted first third where
  fragments := right.fragments.trans left.fragments
  credits := right.credits.trans left.credits
  maxCredits := right.maxCredits.trans left.maxCredits
  mtu := right.mtu.trans left.mtu
  account_eq := fun handle => (right.account_eq handle).trans (left.account_eq handle)
  dequeue := by
    intro handle type registered
    rcases right.dequeue handle type registered with earlier | ⟨idle, credit⟩
    · exact left.dequeue handle type earlier
    · exact .inr ⟨left.fragments ▸ idle, left.credits ▸ credit⟩
  enqueue := by
    intro registered
    rcases right.enqueue registered with earlier | front
    · exact left.enqueue earlier
    · exact .inr (left.fragments ▸ left.credits ▸ front)

theorem registerDequeue (idle : self.fragmentsToSend.items = []) (handle : Handle) :
    Restarted self (self.registerDequeue handle) where
  fragments := rfl
  credits := rfl
  maxCredits := rfl
  mtu := rfl
  account_eq := account_modify fun handler => by split <;> exact ⟨rfl, rfl⟩
  dequeue := by
    rintro other type ⟨handler, found, active, type⟩
    simp only [Scheduler.registerDequeue, getElem?_modify] at found
    cases before : self.aclQueueHandlers[other]? with
    | none => simp [before] at found
    | some old =>
      simp only [before, map_some, some.injEq] at found
      by_cases registers : handle = other ∧ old.dequeueIsRegistered = false ∧
          self.packetCredits old.connectionType ≠ 0
      · rw [if_pos registers.1, if_pos registers.2] at found
        subst found
        exact .inr ⟨idle, type ▸ Nat.pos_of_ne_zero registers.2.2⟩
      · have same : old = handler := by
          rw [← found]
          split
          · rename_i matched
            exact (if_neg fun fresh => registers ⟨matched, fresh⟩).symm
          · rfl
        exact .inl ⟨handler, same ▸ before, active, type⟩
  enqueue := .inl

theorem registerAll (idle : self.fragmentsToSend.items = []) (handles : List Handle) :
    Restarted self (handles.foldl Scheduler.registerDequeue self) := by
  induction handles generalizing self with
  | nil => exact refl self
  | cons handle rest ih => exact (registerDequeue idle handle).trans (ih idle)

theorem sendNextFragment (front : self.fragmentsToSend.front? = some fragment)
    (credit : 0 < self.packetCredits fragment.connectionType) :
    Restarted self self.sendNextFragment :=
  ⟨rfl, rfl, rfl, rfl, fun _ => rfl, fun _ _ => .inl, fun _ => .inr ⟨fragment, front, credit⟩⟩

end Restarted

theorem Scheduler.startRoundRobin_restarted (self : Scheduler) :
    Restarted self self.startRoundRobin := by
  unfold startRoundRobin
  split
  · exact .refl self
  · split
    · rename_i fragment front
      split
      · exact .refl self
      · rename_i credit
        exact .sendNextFragment front (Nat.pos_of_ne_zero credit)
    · rename_i nothing
      split
      · exact .refl self
      · have all := fun handles =>
          Restarted.registerAll (items_eq_nil_of_front? nothing) handles
        exact ⟨(all _).fragments, (all _).credits, (all _).maxCredits, (all _).mtu,
          (all _).account_eq, (all _).dequeue, (all _).enqueue⟩

/-! ## What the calls do -/

theorem Scheduler.register_cases (registered : self.register type handle = some after) :
    self.aclQueueHandlers[handle]? = none ∧ Restarted
        { self with
          aclQueueHandlers := self.aclQueueHandlers.insert handle
            ⟨type, false, 0, false⟩ } after := by
  unfold register at registered
  split at registered
  · cases registered
  · rename_i absent
    refine ⟨?_, ?_⟩
    · exact TreeMap.getElem?_eq_none fun member => absent (TreeMap.contains_iff_mem.mpr member)
    · obtain rfl := some.inj registered
      split
      · exact startRoundRobin_restarted _
      · exact .refl _

theorem Scheduler.unregister_cases (unregistered : self.unregister handle = some after) :
    ∃ handler, self.aclQueueHandlers[handle]? = some handler ∧ after =
        { self.setCredits handler.connectionType
            (wrap16 (self.packetCredits handler.connectionType + handler.numberOfSentPackets)) with
          aclQueueHandlers := self.aclQueueHandlers.erase handle
          startingPoint := (self.aclQueueHandlers.erase handle).minKey? } := by
  unfold unregister at unregistered
  split at unregistered
  · cases unregistered
  · rename_i handler found
    exact ⟨handler, found, (some.inj unregistered).symm⟩

theorem Scheduler.incomingAclCredits_cases (self : Scheduler) (handle : Handle) (credits : Nat) :
    (self.aclQueueHandlers[handle]? = none ∧ self.incomingAclCredits handle credits = self) ∨
      ∃ handler, self.aclQueueHandlers[handle]? = some handler ∧
        Restarted ((self.reportSent handle credits).setCredits handler.connectionType
          (self.creditsAfter handler.connectionType credits))
          (self.incomingAclCredits handle credits) := by
  unfold incomingAclCredits
  split
  · rename_i absent
    exact .inl ⟨absent, rfl⟩
  · rename_i handler found
    refine .inr ⟨handler, found, ?_⟩
    split
    · exact startRoundRobin_restarted _
    · exact .refl _

/-! ## Taking a packet and sending a fragment -/

/-- What `buffer_packet` does with the packet of a connection. -/
structure Buffered (before after : Scheduler) (dequeued : Dequeued) : Prop where
  items : after.fragmentsToSend.items = dequeued.fragments (before.hciMtu dequeued.connectionType)
  uniform : ∃ priority, after.fragmentsToSend.Uniform priority
  credits : after.packetCredits = before.packetCredits
  maxCredits : after.maxPacketCredits = before.maxPacketCredits
  mtu : after.hciMtu = before.hciMtu
  dequeue : ∀ handle type, ¬ DequeueRegistered after.aclQueueHandlers handle type
  charged : ∀ handle, account after.aclQueueHandlers handle =
    (account before.aclQueueHandlers handle).map fun entry =>
      if dequeued.handle = handle then
        (entry.1, wrap16 (entry.2 +
          (dequeued.fragments (before.hciMtu dequeued.connectionType)).length))
      else entry

theorem Scheduler.bufferPacket_buffered (found : self.aclQueueHandlers[handle]? = some handler)
    (idle : self.fragmentsToSend.items = []) (packet : UpperPacket) :
    ∃ after, self.bufferPacket handle packet = some after ∧
      Buffered self after ⟨handler.connectionType, handle, packet⟩ := by
  let dequeued : Dequeued := ⟨handler.connectionType, handle, packet⟩
  let fragments := dequeued.fragments (self.hciMtu handler.connectionType)
  let priority : Fin 2 := if handler.highPriority then 1 else 0
  let buffered := self.pushFragments fragments priority
  obtain ⟨uniform, pushed⟩ :=
    (MultiPriorityQueue.Uniform.of_items_eq_nil idle priority).pushAll fragments
  have items : buffered.fragmentsToSend.items = fragments := by
    rw [idle, List.nil_append] at pushed
    exact pushed
  have size : buffered.fragmentsToSend.size = fragments.length := items ▸ uniform.size
  have some : buffered.fragmentsToSend.size ≠ 0 := by
    rw [size]
    exact fun empty => dequeued.fragments_ne_nil _ (List.length_eq_zero_iff.mp empty)
  refine ⟨(buffered.unregisterAllConnections.charge handle).sendNextFragment, ?_, ?_⟩
  · simp only [bufferPacket, found]
    exact if_neg some
  · refine ⟨items, ⟨priority, uniform⟩, rfl, rfl, rfl, ?_, ?_⟩
    · intro other type registered
      refine not_dequeueRegistered_unregisterAll buffered other type ?_
      exact buffered.unregisterAllConnections.dequeueRegistered_charge.mp registered
    · intro other
      change account ((buffered.unregisterAllConnections.aclQueueHandlers).modify handle _) other = _
      simp only [account, getElem?_modify, unregisterAllConnections, TreeMap.getElem?_map, size]
      change Option.map _ (Option.map _ (Option.map _ self.aclQueueHandlers[other]?)) = _
      cases self.aclQueueHandlers[other]? with
      | none => rfl
      | some old =>
        by_cases same : handle = other
        · simp [same, fragments, dequeued]
        · simp [same]

/-- What `handle_enqueue_next_fragment` does when it does not fail. -/
structure Sent (before after : Scheduler) (fragment : Fragment) : Prop where
  front : before.fragmentsToSend.front? = some fragment
  credit : 0 < before.packetCredits fragment.connectionType
  popped : after.fragmentsToSend = before.fragmentsToSend.pop
  credits : after.packetCredits = Function.update before.packetCredits fragment.connectionType
    (before.packetCredits fragment.connectionType - 1)
  maxCredits : after.maxPacketCredits = before.maxPacketCredits
  mtu : after.hciMtu = before.hciMtu
  handlers : after.aclQueueHandlers = before.aclQueueHandlers
  enqueue : after.enqueueRegistered = true → ∃ next, after.fragmentsToSend.front? = some next ∧
      0 < after.packetCredits next.connectionType

theorem Sent.items {before : Scheduler} (step : Sent before after fragment) :
    before.fragmentsToSend.items = fragment :: after.fragmentsToSend.items := by
  rw [before.fragmentsToSend.items_eq_front_cons_pop, step.front, step.popped]
  rfl

theorem Scheduler.handleEnqueueNextFragment_sent
    (taken : self.handleEnqueueNextFragment = some (after, fragment)) :
    Sent self after fragment := by
  unfold handleEnqueueNextFragment at taken
  split at taken
  · cases taken
  · rename_i next front
    split at taken
    · cases taken
    · rename_i credit
      obtain ⟨rfl, rfl⟩ := Prod.mk.inj (some.inj taken)
      refine ⟨front, Nat.pos_of_ne_zero credit, rfl, rfl, rfl, rfl, rfl, ?_⟩
      intro registered
      dsimp only [setCredits] at registered ⊢
      split at registered
      · cases registered
      · rename_i next front
        obtain ⟨_, positive⟩ := Bool.and_eq_true_iff.mp registered
        exact ⟨next, front, Nat.pos_of_ne_zero (of_decide_eq_true positive)⟩

theorem Scheduler.handleEnqueueNextFragment_isSome
    (front : self.fragmentsToSend.front? = some fragment)
    (credit : 0 < self.packetCredits fragment.connectionType) :
    self.handleEnqueueNextFragment.isSome := by
  simp [handleEnqueueNextFragment, front, if_neg (Nat.ne_of_gt credit)]

/-! ## The order of the fragments -/

def allFragments (mtu : ConnectionType → Nat) (taken : List Dequeued) : List Fragment :=
  taken.flatMap fun dequeued => dequeued.fragments (mtu dequeued.connectionType)

/-- The waiting fragments are the rest of the packet taken last. -/
structure Orderly (scheduler : Scheduler) (taken : List Dequeued) (sent : List Fragment) :
    Prop where
  ledger : sent ++ scheduler.fragmentsToSend.items = allFragments scheduler.hciMtu taken
  single : scheduler.fragmentsToSend.items = [] ∨
    ∃ earlier last already, taken = earlier ++ [last] ∧
      last.fragments (scheduler.hciMtu last.connectionType) =
        already ++ scheduler.fragmentsToSend.items
  uniform : ∃ priority, scheduler.fragmentsToSend.Uniform priority
  idle : ∀ handle type, DequeueRegistered scheduler.aclQueueHandlers handle type →
      scheduler.fragmentsToSend.items = []

namespace Orderly

variable {before after : Scheduler} {taken : List Dequeued} {sent : List Fragment}
  (orderly : Orderly before taken sent)
include orderly

theorem quiet (fragments : after.fragmentsToSend = before.fragmentsToSend)
    (mtu : after.hciMtu = before.hciMtu)
    (dequeue : ∀ handle type, DequeueRegistered after.aclQueueHandlers handle type →
        DequeueRegistered before.aclQueueHandlers handle type ∨
          before.fragmentsToSend.items = []) : Orderly after taken sent where
  ledger := by rw [fragments, mtu]; exact orderly.ledger
  single := by rw [fragments, mtu]; exact orderly.single
  uniform := by rw [fragments]; exact orderly.uniform
  idle := by
    intro handle type registered
    rw [fragments]
    exact (dequeue handle type registered).elim (orderly.idle handle type) id

theorem restarted (restart : Restarted before after) : Orderly after taken sent :=
  orderly.quiet restart.fragments restart.mtu fun handle type registered =>
    (restart.dequeue handle type registered).imp id And.left

theorem buffered (idle : before.fragmentsToSend.items = [])
    (buffer : Buffered before after dequeued) : Orderly after (taken ++ [dequeued]) sent where
  ledger := by
    have ledger := orderly.ledger
    rw [idle, List.append_nil] at ledger
    rw [buffer.items, buffer.mtu, ledger]
    simp [allFragments]
  single := .inr ⟨taken, dequeued, [], rfl, by rw [buffer.items, buffer.mtu]; rfl⟩
  uniform := buffer.uniform
  idle := fun handle type registered =>
    absurd registered (buffer.dequeue handle type)

theorem send {fragment : Fragment}
    (step : Sent before after fragment) : Orderly after taken (sent ++ [fragment]) := by
  have items := step.items
  refine ⟨?_, ?_, ?_, ?_⟩
  · rw [step.mtu, ← orderly.ledger, items]
    simp
  · refine .inr ?_
    rcases orderly.single with empty | ⟨earlier, last, already, split, rest⟩
    · rw [empty] at items
      cases items
    · exact ⟨earlier, last, already ++ [fragment], split, by rw [step.mtu, rest, items]; simp⟩
  · obtain ⟨priority, uniform⟩ := orderly.uniform
    exact ⟨priority, step.popped ▸ uniform.pop⟩
  · intro handle type registered
    rw [step.handlers] at registered
    have empty := orderly.idle handle type registered
    rw [items] at empty
    cases empty

end Orderly

/-! ## Credits for what is registered -/

/-- Whatever is registered has a credit, and only links with buffers ever get one. -/
structure Funded (scheduler : Scheduler) : Prop where
  enqueue : scheduler.enqueueRegistered = true →
    ∃ fragment, scheduler.fragmentsToSend.front? = some fragment ∧
      0 < scheduler.packetCredits fragment.connectionType
  dequeue : ∀ handle type, DequeueRegistered scheduler.aclQueueHandlers handle type →
      0 < scheduler.packetCredits type
  credited : ∀ type, 0 < scheduler.packetCredits type → 0 < scheduler.maxPacketCredits type
  charged : ∀ handle type number,
    account scheduler.aclQueueHandlers handle = some (type, number) → 0 < number →
      0 < scheduler.maxPacketCredits type

namespace Funded

variable {before after : Scheduler} (funded : Funded before)
include funded

theorem restarted (restart : Restarted before after) : Funded after where
  enqueue := by
    intro registered
    rw [restart.fragments, restart.credits]
    exact (restart.enqueue registered).elim funded.enqueue id
  dequeue := by
    intro handle type registered
    rw [restart.credits]
    exact (restart.dequeue handle type registered).elim (funded.dequeue handle type) And.right
  credited := by
    rw [restart.credits, restart.maxCredits]
    exact funded.credited
  charged := by
    intro handle type number entry
    rw [restart.account_eq] at entry
    rw [restart.maxCredits]
    exact funded.charged handle type number entry

theorem raised {credits : Nat} (more : 0 < before.packetCredits type → 0 < credits)
    (buffers : 0 < credits → 0 < before.maxPacketCredits type) :
    Funded (before.setCredits type credits) := by
  have kept : ∀ other, 0 < before.packetCredits other →
      0 < (before.setCredits type credits).packetCredits other := by
    intro other positive
    by_cases same : other = type
    · subst same
      simpa [setCredits] using more positive
    · simpa [setCredits, same] using positive
  refine ⟨?_, ?_, ?_, funded.charged⟩
  · intro registered
    obtain ⟨fragment, front, positive⟩ := funded.enqueue registered
    exact ⟨fragment, front, kept _ positive⟩
  · exact fun handle other registered => kept other (funded.dequeue handle other registered)
  · intro other positive
    by_cases same : other = type
    · subst same
      exact buffers (by simpa [setCredits] using positive)
    · exact funded.credited other (by simpa [setCredits, same] using positive)

theorem changed {start : Option Handle}
    (dequeue : ∀ handle type, DequeueRegistered handlers handle type →
      DequeueRegistered before.aclQueueHandlers handle type)
    (charged : ∀ handle type number, account handlers handle = some (type, number) → 0 < number →
        0 < before.maxPacketCredits type) :
    Funded { before with aclQueueHandlers := handlers, startingPoint := start } :=
  ⟨funded.enqueue, fun handle type registered =>
    funded.dequeue handle type (dequeue handle type registered),
    funded.credited, charged⟩

theorem buffered
    (registered : DequeueRegistered before.aclQueueHandlers dequeued.handle dequeued.connectionType)
    (buffer : Buffered before after dequeued) : Funded after := by
  have credit := funded.dequeue _ _ registered
  refine ⟨fun _ => ?_, ?_, ?_, ?_⟩
  · cases front : after.fragmentsToSend.front? with
    | none =>
      have empty := items_eq_nil_of_front? front
      rw [buffer.items] at empty
      exact absurd empty (dequeued.fragments_ne_nil _)
    | some fragment =>
      have member : fragment ∈ after.fragmentsToSend.items := by
        rw [after.fragmentsToSend.items_eq_front_cons_pop, front]
        simp
      rw [buffer.items] at member
      refine ⟨fragment, rfl, ?_⟩
      rw [buffer.credits, (Dequeued.mem_fragments member).1]
      exact credit
  · exact fun handle type active => absurd active (buffer.dequeue handle type)
  · rw [buffer.credits, buffer.maxCredits]
    exact funded.credited
  · intro handle type number entry positive
    rw [buffer.maxCredits]
    rw [buffer.charged] at entry
    obtain ⟨⟨before, old⟩, known, changed⟩ := map_eq_some_iff.mp entry
    by_cases same : dequeued.handle = handle
    · obtain ⟨handler, found, _, kind⟩ := registered
      have own : before = dequeued.connectionType := by
        rw [← same, account, found, map_some] at known
        rw [← kind]
        exact (congrArg Prod.fst (some.inj known)).symm
      rw [if_pos same] at changed
      have same : before = type := congrArg Prod.fst changed
      rw [← same, own]
      exact funded.credited _ credit
    · rw [if_neg same] at changed
      exact funded.charged handle type number (changed ▸ known) positive

theorem send {fragment : Fragment} (orderly : ∀ handle type,
      ¬ DequeueRegistered before.aclQueueHandlers handle type)
    (step : Sent before after fragment) : Funded after := by
  refine ⟨step.enqueue, ?_, ?_, ?_⟩
  · intro handle type registered
    rw [step.handlers] at registered
    exact absurd registered (orderly handle type)
  · intro type positive
    rw [step.maxCredits]
    refine funded.credited type (Nat.lt_of_lt_of_le positive ?_)
    rw [step.credits]
    by_cases same : type = fragment.connectionType
    · subst same
      simp
    · simp [same]
  · rw [step.handlers, step.maxCredits]
    exact funded.charged

end Funded

/-! ## Every event -/

/-- No addition to a credit counter exceeds its sixteen bits. -/
def NoOverflow (world : World) : Event → Prop
  | .unregister handle => ∀ entry ∈ account world.scheduler.aclQueueHandlers handle,
      world.scheduler.packetCredits entry.1 + entry.2 < 2 ^ 16
  | .incomingAclCredits handle credits =>
    ∀ entry ∈ account world.scheduler.aclQueueHandlers handle,
      world.scheduler.packetCredits entry.1 + credits.toNat < 2 ^ 16
  | _ => True

instance (world : World) (event : Event) : Decidable (NoOverflow world event) := by
  unfold NoOverflow
  split <;> infer_instance

/-- The order of the fragments and a credit for whatever is registered. -/
structure Safe (world : World) : Prop where
  orderly : Orderly world.scheduler world.taken world.sent
  funded : Funded world.scheduler

namespace Safe

variable {world next : World}

theorem initial (controller : Controller) : Safe (World.initial controller) where
  orderly := by
    refine ⟨rfl, .inl empty_items, ⟨0, ?_⟩, fun _ _ _ =>
      empty_items⟩
    exact MultiPriorityQueue.Uniform.of_items_eq_nil empty_items 0
  funded := by
    refine ⟨fun registered => (by cases registered), ?_, fun _ => id, ?_⟩
    · rintro handle type ⟨handler, found, _⟩
      simp [World.initial, new] at found
    · intro handle type number entry
      simp [World.initial, new, account] at entry

section

variable (safe : Safe world)
include safe

theorem restarted (restart : Restarted world.scheduler self) (rounds : Nat) :
    Safe { world with scheduler := self, postedRounds := rounds } :=
  ⟨safe.orderly.restarted restart, safe.funded.restarted restart⟩

theorem register (moved : world.step (.register type handle) = some next) :
    Safe next := by
  obtain ⟨self, registered, rfl⟩ := map_eq_some_iff.mp moved
  obtain ⟨_, restart⟩ := register_cases registered
  have dequeue : ∀ other kind, DequeueRegistered (world.scheduler.aclQueueHandlers.insert handle
      ⟨type, false, 0, false⟩) other kind →
        DequeueRegistered world.scheduler.aclQueueHandlers other kind :=
    fun other kind active => active.of_insert rfl
  refine ⟨Orderly.restarted ?_ restart, (safe.funded.changed dequeue ?_).restarted restart⟩
  · exact safe.orderly.quiet rfl rfl fun other kind active => .inl (dequeue other kind active)
  · intro other kind number entry positive
    simp only [account, TreeMap.getElem?_insert] at entry
    split at entry
    · simp only [map_some, some.injEq, Prod.mk.injEq] at entry
      omega
    · exact safe.funded.charged other kind number entry positive

theorem unregister (bounded : NoOverflow world (.unregister handle))
    (moved : world.step (.unregister handle) = some next) : Safe next := by
  obtain ⟨self, unregistered, rfl⟩ := map_eq_some_iff.mp moved
  obtain ⟨handler, found, rfl⟩ := unregister_cases unregistered
  have entry := account_eq_some found
  have exact : wrap16 (world.scheduler.packetCredits handler.connectionType +
      handler.numberOfSentPackets) = world.scheduler.packetCredits handler.connectionType +
        handler.numberOfSentPackets := Nat.mod_eq_of_lt (bounded _ entry)
  refine ⟨safe.orderly.quiet rfl rfl fun other kind active => .inl active.of_erase, ?_⟩
  rw [exact]
  refine (safe.funded.raised ?_ ?_).changed (fun other kind active => active.of_erase) ?_
  · omega
  · intro positive
    rcases Nat.eq_zero_or_pos handler.numberOfSentPackets with none | charged
    · exact safe.funded.credited _ (by omega)
    · exact safe.funded.charged _ _ _ entry charged
  · intro other kind number entry positive
    simp only [account, TreeMap.getElem?_erase] at entry
    split at entry
    · cases entry
    · exact safe.funded.charged other kind number entry positive

theorem incomingAclCredits {credits : UInt16}
    (bounded : NoOverflow world (.incomingAclCredits handle credits))
    (moved : world.step (.incomingAclCredits handle credits) = some next) : Safe next := by
  obtain rfl := some.inj moved
  rcases world.scheduler.incomingAclCredits_cases handle credits.toNat with
    ⟨_, same⟩ | ⟨handler, found, restart⟩
  · rw [same]
    exact ⟨safe.orderly, safe.funded⟩
  · have entry := account_eq_some found
    have dequeue : ∀ other kind,
        DequeueRegistered (world.scheduler.reportSent handle credits.toNat).aclQueueHandlers
          other kind → DequeueRegistered world.scheduler.aclQueueHandlers other kind :=
      fun other kind =>
        (dequeueRegistered_modify (by intro handler; exact ⟨rfl, rfl⟩)).mp
    have reported : Funded (world.scheduler.reportSent handle credits.toNat) := by
      refine safe.funded.changed dequeue ?_
      intro other kind number after positive
      obtain ⟨⟨type, old⟩, known, changed⟩ := map_eq_some_iff.mp
        ((world.scheduler.account_reportSent handle credits.toNat other).symm.trans after)
      have charged := safe.funded.charged other type old known
      split at changed
      · cases changed
        refine charged ?_
        split at positive <;> omega
      · cases changed
        exact charged positive
    have exact : world.scheduler.packetCredits handler.connectionType + credits.toNat < 2 ^ 16 :=
      bounded _ entry
    have after : world.scheduler.creditsAfter handler.connectionType credits.toNat =
        min (world.scheduler.maxPacketCredits handler.connectionType)
          (world.scheduler.packetCredits handler.connectionType + credits.toNat) := by
      rw [creditsAfter, wrap16, Nat.mod_eq_of_lt exact]
      split <;> omega
    refine ⟨Orderly.restarted ?_ restart, (reported.raised ?_ ?_).restarted restart⟩
    · exact safe.orderly.quiet rfl rfl fun other kind active => .inl (dequeue other kind active)
    · intro positive
      have buffers := safe.funded.credited handler.connectionType positive
      have credit : 0 < world.scheduler.packetCredits handler.connectionType := positive
      rw [after]
      omega
    · intro positive
      rw [after] at positive
      exact Nat.lt_of_lt_of_le positive (Nat.min_le_left _ _)

/-- A packet is taken while nothing waits, or its connection is not known. -/
theorem bufferPacket_cases {packet : UpperPacket}
    (moved : world.step (.bufferPacket handle packet) = some next) :
    next = world ∨ ∃ handler after, world.scheduler.aclQueueHandlers[handle]? = some handler ∧
      DequeueRegistered world.scheduler.aclQueueHandlers handle handler.connectionType ∧
      world.scheduler.fragmentsToSend.items = [] ∧
      Buffered world.scheduler after ⟨handler.connectionType, handle, packet⟩ ∧
      next = { world with
        scheduler := after
        taken := world.taken ++ [⟨handler.connectionType, handle, packet⟩] } := by
  change world.bufferPacket handle packet = some next at moved
  unfold World.bufferPacket at moved
  split at moved
  · exact .inl (some.inj moved).symm
  · rename_i handler found
    obtain ⟨active, moved⟩ := ite_none_right_eq_some.mp moved
    have registered : DequeueRegistered world.scheduler.aclQueueHandlers handle
        handler.connectionType := ⟨handler, found, active, rfl⟩
    have idle := safe.orderly.idle _ _ registered
    obtain ⟨after, buffered, buffer⟩ := bufferPacket_buffered found idle packet
    rw [buffered] at moved
    exact .inr ⟨handler, after, found, registered, idle, buffer, (some.inj moved).symm⟩

theorem bufferPacket {packet : UpperPacket}
    (moved : world.step (.bufferPacket handle packet) = some next) : Safe next := by
  rcases safe.bufferPacket_cases moved with rfl | ⟨handler, after, -, registered, idle, buffer, rfl⟩
  · exact safe
  · exact ⟨safe.orderly.buffered idle buffer, safe.funded.buffered registered buffer⟩

theorem handleEnqueueNextFragment (moved : world.step .handleEnqueueNextFragment = some next) :
    Safe next := by
  obtain ⟨-, moved⟩ := ite_none_right_eq_some.mp moved
  obtain ⟨⟨after, fragment⟩, taken, rfl⟩ := map_eq_some_iff.mp moved
  have step := handleEnqueueNextFragment_sent taken
  refine ⟨safe.orderly.send step, safe.funded.send ?_ step⟩
  intro handle type registered
  cases step.items.symm.trans (safe.orderly.idle handle type registered)

theorem setLinkPriority (handle : Handle) (highPriority : Bool) :
    Safe { world with scheduler := world.scheduler.setLinkPriority handle highPriority } := by
  have dequeue : ∀ other kind,
      DequeueRegistered (world.scheduler.setLinkPriority handle highPriority).aclQueueHandlers
        other kind → DequeueRegistered world.scheduler.aclQueueHandlers other kind :=
    fun other kind => (dequeueRegistered_modify (by intro handler; exact ⟨rfl, rfl⟩)).mp
  refine ⟨safe.orderly.quiet rfl rfl fun other kind active => .inl (dequeue other kind active),
    safe.funded.changed dequeue ?_⟩
  intro other kind number entry
  rw [account_modify (by intro handler; exact ⟨rfl, rfl⟩)] at entry
  exact safe.funded.charged other kind number entry

end

theorem step (event : Event) (next : World) (safe : Safe world)
    (bounded : NoOverflow world event) (moved : world.step event = some next) : Safe next := by
  cases event with
  | register type handle => exact safe.register moved
  | unregister handle => exact safe.unregister bounded moved
  | setLinkPriority handle highPriority =>
    exact some.inj moved ▸ safe.setLinkPriority handle highPriority
  | bufferPacket handle packet => exact safe.bufferPacket moved
  | handleEnqueueNextFragment => exact safe.handleEnqueueNextFragment moved
  | startRoundRobin =>
    simp only [World.step] at moved
    split at moved
    · cases moved
    · rename_i rounds _
      exact some.inj moved ▸ safe.restarted (startRoundRobin_restarted _) rounds
  | incomingAclCredits handle credits => exact safe.incomingAclCredits bounded moved

end Safe

/--
In every run whose credit additions fit sixteen bits: the fragments handed over
and those that wait are the fragments of the packets taken, in order, and those
that wait are the rest of the packet taken last; while fragments wait no dequeue
is registered; and whenever the enqueue callback is registered it finds a
fragment at the front whose link has a credit, so that it does not fail.
-/
theorem fragments_safe {controller : Controller} {events : List Event} {world : World}
    (bounded : Along World.step NoOverflow (World.initial controller) events)
    (reached : run World.step (World.initial controller) events = some world) :
    world.sent ++ world.scheduler.fragmentsToSend.items =
        allFragments world.scheduler.hciMtu world.taken ∧
      (world.scheduler.fragmentsToSend.items = [] ∨
        ∃ earlier last already, world.taken = earlier ++ [last] ∧
          last.fragments (world.scheduler.hciMtu last.connectionType) =
            already ++ world.scheduler.fragmentsToSend.items) ∧
      (world.scheduler.fragmentsToSend.items ≠ [] → ∀ (handle : Handle) (handler : AclQueueHandler),
          world.scheduler.aclQueueHandlers[handle]? = some handler →
            handler.dequeueIsRegistered = false) ∧ (world.scheduler.enqueueRegistered = true →
        (∃ fragment, world.scheduler.fragmentsToSend.front? = some fragment ∧
          0 < world.scheduler.packetCredits fragment.connectionType) ∧
        (world.step .handleEnqueueNextFragment).isSome) := by
  have safe : Safe world := invariant_along (fun _ event next safe => safe.step event next)
    (Safe.initial controller) bounded reached
  refine ⟨safe.orderly.ledger, safe.orderly.single, ?_, ?_⟩
  · intro waiting handle handler found
    by_contra active
    exact waiting (safe.orderly.idle handle handler.connectionType
      ⟨handler, found, Bool.not_eq_false _ ▸ active, rfl⟩)
  · intro registered
    obtain ⟨fragment, front, credit⟩ := safe.funded.enqueue registered
    refine ⟨⟨fragment, front, credit⟩, ?_⟩
    have some := handleEnqueueNextFragment_isSome front credit
    simpa [World.step, World.handleEnqueueNextFragment, registered] using some

/-- A controller with two buffers of four bytes for classic links. -/
def twoBuffers : Controller where
  numPacketBuffers := fun
    | .classic => 2
    | .le => 0
  packetLength := fun
    | .classic => 4
    | .le => 0
  bounded := fun type => by cases type <;> decide

/-- A connection, and a packet of nine bytes of which two fragments are sent. -/
def nineBytes : List Event :=
  [.register .classic 1, .bufferPacket 1 (.raw [5, 0, 64, 0, 1, 2, 3, 4, 5] true),
    .handleEnqueueNextFragment, .handleEnqueueNextFragment]

theorem fragments_safe_nineBytes :
    ∃ world, run World.step (World.initial twoBuffers) nineBytes = some world ∧
      world.scheduler.fragmentsToSend.items =
        [⟨.classic, 1, .continuingFragment, .pointToPoint, [5]⟩] ∧
      world.sent ++ world.scheduler.fragmentsToSend.items =
        allFragments world.scheduler.hciMtu world.taken := by
  have bounded : Along World.step NoOverflow (World.initial twoBuffers) nineBytes := by decide
  exact ⟨_, rfl, by decide, (fragments_safe bounded rfl).1⟩

end BluetoothFormal.Hci.RoundRobinScheduler
