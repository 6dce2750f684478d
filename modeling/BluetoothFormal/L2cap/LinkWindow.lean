import BluetoothFormal.Foundation.Transition
import BluetoothFormal.L2cap.LinkQuota

/-!
# The controller's transmit window

L2CAP counts the free ACL buffers of the controller in `controller_xmit_window`.  A packet takes
one when it is sent to the lower layer, in the round robin over the links without a quota or in
one of the two loops that serve a single link; completed packets and released links give them
back.
-/

namespace BluetoothFormal.L2cap.Links

open Foundation.Transition Option L2cb Links Lcb List Bool

/-- What the rest of the stack answers during one call. -/
structure Surroundings where
  /-- `is_cong_cback_context` -/
  inCongestionCallback : Bool := false
  /-- `l2c_link_check_power_mode` of a link: its packets wait for a mode change. -/
  powerModePending : Nat → Bool := fun _ => false
  /-- How many buffers `l2cu_get_next_buffer_to_send` has for a link before it returns null. -/
  nextBuffers : Nat → Nat := fun _ => 0

/-! ## Sending -/

/-- `l2c_link_send_to_lower_br_edr` on a link whose control block is `lcb`. -/
def L2cb.sendToLower (cb : L2cb) (index : Nat) (lcb : Lcb) : L2cb :=
  { cb with
    lcbPool := cb.lcbPool.set index { lcb with sentNotAcked := lcb.sentNotAcked + 1 }
    controllerXmitWindow := cb.controllerXmitWindow - 1
    roundRobinUnacked := if lcb.linkXmitQuota = 0 then cb.roundRobinUnacked + 1
      else cb.roundRobinUnacked }

/-- Take the front packet from the queue of a link. -/
def Lcb.dequeue (lcb : Lcb) : Lcb :=
  { lcb with linkXmitDataQ := lcb.linkXmitDataQ - 1 }

/-- The round robin over the links that are still to be visited. -/
def roundRobin (around : Surroundings) (singleWrite : Bool) : List Nat → L2cb → L2cb
  | [], cb => cb
  | index :: rest, cb =>
    match cb.lcbPool[index]? with
    | none => roundRobin around singleWrite rest cb
    | some lcb =>
      if cb.controllerXmitWindow = 0 ∨ cb.roundRobinUnacked ≥ cb.roundRobinQuota then
        roundRobin around singleWrite rest cb
      else if !lcb.inUse ∨ !lcb.connected ∨ lcb.linkXmitQuota ≠ 0 ∨
          around.powerModePending index then
        roundRobin around singleWrite rest cb
      else if lcb.linkXmitDataQ > 0 then
        roundRobin around singleWrite rest (cb.sendToLower index lcb.dequeue)
      else if singleWrite then
        cb
      else if around.nextBuffers index > 0 then
        roundRobin around singleWrite rest (cb.sendToLower index lcb)
      else
        roundRobin around singleWrite rest cb

/-- The links in the order of a round that begins at `start`. -/
def roundFrom (start links : Nat) : List Nat :=
  (range links).map fun turn => (start + turn) % links

/-- A whole round, and the safety check that follows it. -/
def L2cb.serveInTurn (cb : L2cb) (around : Surroundings) (singleWrite : Bool) (start : Nat) :
    L2cb :=
  let served := roundRobin around singleWrite (roundFrom start cb.lcbPool.length) cb
  if served.controllerXmitWindow > 0 ∧ served.roundRobinUnacked < served.roundRobinQuota then
    { served with checkRoundRobin := false }
  else
    served

def sendWhile (take : Lcb → Lcb) (index : Nat) : Nat → L2cb → L2cb
  | 0, cb => cb
  | packets + 1, cb =>
    match cb.lcbPool[index]? with
    | none => cb
    | some lcb =>
      if cb.controllerXmitWindow ≠ 0 ∧ lcb.sentNotAcked < lcb.linkXmitQuota then
        sendWhile take index packets (cb.sendToLower index (take lcb))
      else
        cb

section

variable (cb : L2cb)

/-- `l2c_link_check_send_pkts` behind the part that appends a packet. -/
def L2cb.checkSendPkts (around : Surroundings) (singleWrite : Bool) :
    Option Nat → L2cb
  | none => if around.inCongestionCallback then cb else cb.serveInTurn around singleWrite 0
  | some index =>
    if around.inCongestionCallback then
      cb
    else
      match cb.lcbPool[index]? with
      | none => cb
      | some lcb =>
        if lcb.linkXmitQuota = 0 then
          cb.serveInTurn around singleWrite (if singleWrite then index else index + 1)
        else if !lcb.connected ∨ around.powerModePending index then
          cb
        else
          let queued := sendWhile dequeue index lcb.linkXmitDataQ cb
          if singleWrite then queued else sendWhile id index (around.nextBuffers index) queued

def L2cb.appendPacket (index : Nat) (lcb : Lcb) : L2cb :=
  { cb with
    lcbPool := cb.lcbPool.set index { lcb with linkXmitDataQ := lcb.linkXmitDataQ + 1 }
    checkRoundRobin := cb.checkRoundRobin || lcb.linkXmitQuota = 0 }

/-- `l2c_link_check_send_pkts` with a packet. -/
def L2cb.sendPacket (around : Surroundings) (singleWrite : Bool) (index : Nat) (lcb : Lcb) : L2cb :=
  (cb.appendPacket index lcb).checkSendPkts around singleWrite (some index)

/-! ## Completed packets -/

/-- `update_outstanding_packets` and `update_outstanding_classic_packets` -/
def lessAcked (outstanding packetsAcked : Nat) : Nat :=
  if outstanding > packetsAcked then outstanding - packetsAcked else 0

/-- The counters after `numSent` packets of a link were completed. -/
def L2cb.acknowledge (numSent index : Nat) (lcb : Lcb) : L2cb :=
  { cb with
    lcbPool := cb.lcbPool.set index
      { lcb with sentNotAcked := lessAcked lcb.sentNotAcked numSent }
    controllerXmitWindow := cb.controllerXmitWindow + numSent
    roundRobinUnacked := if lcb.linkXmitQuota = 0 then lessAcked cb.roundRobinUnacked numSent
      else cb.roundRobinUnacked }

/-- `l2c_packets_completed` for a link that was found. -/
def L2cb.packetsCompleted (first second : Surroundings) (numSent index : Nat) (lcb : Lcb) : L2cb :=
  let sent := (cb.acknowledge numSent index lcb).checkSendPkts first false (some index)
  if lcb.highPriority ∧ sent.checkRoundRobin ∧ sent.roundRobinUnacked < sent.roundRobinQuota then
    sent.checkSendPkts second false none
  else
    sent

/-! ## Links -/

/-- `l2cu_allocate_lcb` once it found a free control block. -/
def L2cb.allocateLcb (index : Nat) : Option L2cb :=
  { cb with
    lcbPool := cb.lcbPool.set index { inUse := true }
    numUsedLcbs := cb.numUsedLcbs + 1 }.adjustAllocation

def L2cb.releaseLcb (index : Nat) (lcb : Lcb) : Option L2cb :=
  { cb with
    lcbPool := cb.lcbPool.set index { lcb with inUse := false, linkXmitDataQ := 0 }
    controllerXmitWindow :=
      if lcb.sentNotAcked > 0 then
        if cb.controllerXmitWindow + lcb.sentNotAcked > cb.numLmAclBufs then cb.numLmAclBufs
        else cb.controllerXmitWindow + lcb.sentNotAcked
      else cb.controllerXmitWindow
    numUsedLcbs := cb.numUsedLcbs - 1 }.adjustAllocation

/-- `set_priority`, and the allocation for the new priorities. -/
def L2cb.setPriority (high : Bool) (index : Nat) (lcb : Lcb) : Option L2cb :=
  if lcb.highPriority = high then
    some cb
  else
    { cb with
      lcbPool := cb.lcbPool.set index { lcb with highPriority := high } }.adjustAllocation

inductive LinkEvent where
  | allocate
  | release (index : Nat)
  | connected (index : Nat)
  | priority (high : Bool) (index : Nat)
  | packet (around : Surroundings) (singleWrite : Bool) (index : Nat)
  /-- A timer, a mode change or a client makes L2CAP look for packets to send. -/
  | check (around : Surroundings) (link : Option Nat)
  | completed (first second : Surroundings) (numSent index : Nat)

def LinkEvent.link : LinkEvent → Option Nat
  | .allocate => none
  | .release index => some index
  | .connected index => some index
  | .priority _ index => some index
  | .packet _ _ index => some index
  | .check _ link => link
  | .completed _ _ _ index => some index

def LinkEvent.numSent : LinkEvent → Nat
  | .completed _ _ numSent _ => numSent
  | _ => 0

def step : LinkEvent → Option L2cb
  | .allocate =>
    match cb.lcbPool.findIdx? (fun lcb => !lcb.inUse) with
    | none => some cb
    | some index => cb.allocateLcb index
  | .release index => cb.lcbPool[index]?.bind (cb.releaseLcb index)
  | .connected index =>
    cb.lcbPool[index]?.map fun lcb =>
      { cb with lcbPool := cb.lcbPool.set index { lcb with connected := true } }
  | .priority high index => cb.lcbPool[index]?.bind (cb.setPriority high index)
  | .packet around singleWrite index =>
    cb.lcbPool[index]?.map (cb.sendPacket around singleWrite index)
  | .check around link => some (cb.checkSendPkts around false link)
  | .completed first second numSent index =>
    cb.lcbPool[index]?.map (cb.packetsCompleted first second numSent index)

/-- `lcb` is the control block of a link that is in use. -/
def L2cb.Live (index : Nat) (lcb : Lcb) : Prop :=
  cb.lcbPool[index]? = some lcb ∧ lcb.inUse = true

/--
An event is about a link that is in use, so nobody sends on a link that is being released, and
the controller completes packets that are outstanding on it.
-/
def Proper (event : LinkEvent) : Prop :=
  ∀ index, event.link = some index → ∃ lcb, cb.Live index lcb ∧ event.numSent ≤ lcb.sentNotAcked

end

/-! ## Conservation -/

/-- The unacknowledged packets of a link that is in use. -/
def Lcb.unacked (lcb : Lcb) : Nat :=
  if lcb.inUse then lcb.sentNotAcked else 0

/-- Free and taken buffers together are the controller's, and the links in use are counted. -/
structure Conserved (bufs : Nat) (cb : L2cb) : Prop where
  buffers : cb.numLmAclBufs = bufs
  balanced : cb.controllerXmitWindow + total unacked cb.lcbPool = bufs
  counted : cb.numUsedLcbs = linkCount inUse cb.lcbPool

variable {index : Nat} {lcb : Lcb} {event : LinkEvent}

theorem total_set {pool : List Lcb} (found : pool[index]? = some lcb) (measure : Lcb → Nat)
    (new : Lcb) :
    total measure (pool.set index new) + measure lcb = total measure pool + measure new := by
  induction pool generalizing index with
  | nil => cases found
  | cons first rest ih =>
    cases index with
    | zero =>
      obtain rfl : first = lcb := some.inj found
      simp only [set_cons_zero, total_cons]
      omega
    | succ index =>
      have later := @ih index found
      simp only [set_cons_succ, total_cons]
      omega

section Steps

variable {bufs index : Nat} {cb next : L2cb} {lcb new : Lcb}

theorem Conserved.replace (kept : Conserved bufs cb) (found : cb.lcbPool[index]? = some lcb)
    (pool : next.lcbPool = cb.lcbPool.set index new)
    (same : next.numLmAclBufs = cb.numLmAclBufs)
    (count : next.numUsedLcbs + lcb.inUse.toNat = cb.numUsedLcbs + new.inUse.toNat)
    (window : next.controllerXmitWindow + new.unacked = cb.controllerXmitWindow + lcb.unacked) :
    Conserved bufs next := by
  have packets := total_set found unacked new
  have links := total_set found (fun link => link.inUse.toNat) new
  have balanced := kept.balanced
  have counted := kept.counted
  rw [linkCount] at counted
  constructor
  · rw [same, kept.buffers]
  · rw [pool]
    omega
  · rw [pool, linkCount]
    omega

theorem Conserved.sendToLower (kept : Conserved bufs cb) (live : cb.Live index lcb)
    (window : cb.controllerXmitWindow ≠ 0) (used : new.inUse = true)
    (sent : new.sentNotAcked = lcb.sentNotAcked) : Conserved bufs (cb.sendToLower index new) := by
  refine kept.replace live.1 rfl rfl ?_ ?_
  · simp only [L2cb.sendToLower, live.2, used]
  · simp only [L2cb.sendToLower, unacked, live.2, used, if_true, sent]
    omega

theorem Conserved.roundRobin (around : Surroundings) (singleWrite : Bool) (visits : List Nat)
    (kept : Conserved bufs cb) : Conserved bufs (roundRobin around singleWrite visits cb) := by
  induction visits generalizing cb with
  | nil => exact kept
  | cons index rest ih =>
    rw [roundRobin]
    split
    · exact ih kept
    case h_2 lcb found =>
      split
      · exact ih kept
      case isFalse window =>
        split
        · exact ih kept
        case isFalse ready =>
          have used : lcb.inUse = true := by
            cases inUse : lcb.inUse with
            | false => simp [inUse] at ready
            | true => rfl
          have some : cb.controllerXmitWindow ≠ 0 := fun zero => window (.inl zero)
          split
          · exact ih (kept.sendToLower ⟨found, used⟩ some used rfl)
          · split
            · exact kept
            · split
              · exact ih (kept.sendToLower ⟨found, used⟩ some used rfl)
              · exact ih kept

theorem Conserved.serveInTurn (kept : Conserved bufs cb) (around : Surroundings)
    (singleWrite : Bool) (start : Nat) :
    Conserved bufs (cb.serveInTurn around singleWrite start) := by
  have served := kept.roundRobin around singleWrite (roundFrom start cb.lcbPool.length)
  rw [L2cb.serveInTurn]
  split
  · exact ⟨served.buffers, served.balanced, served.counted⟩
  · exact served

theorem Conserved.sendWhile (take : Lcb → Lcb) (uses : ∀ link, (take link).inUse = link.inUse)
    (sent : ∀ link, (take link).sentNotAcked = link.sentNotAcked) (packets : Nat)
    (kept : Conserved bufs cb) (live : ∃ lcb, cb.Live index lcb) :
    Conserved bufs (sendWhile take index packets cb) ∧
      ∃ lcb, (sendWhile take index packets cb).Live index lcb := by
  induction packets generalizing cb with
  | zero => exact ⟨kept, live⟩
  | succ packets ih =>
    obtain ⟨lcb, found, used⟩ := live
    rw [sendWhile, found]
    dsimp only
    split
    case isTrue may =>
      have inside : index < cb.lcbPool.length := (List.getElem?_eq_some_iff.mp found).1
      have stillUsed : (take lcb).inUse = true := (uses lcb).trans used
      refine ih (kept.sendToLower ⟨found, used⟩ may.1 stillUsed (sent lcb))
        ⟨{ take lcb with sentNotAcked := (take lcb).sentNotAcked + 1 }, ?_, stillUsed⟩
      exact getElem?_set_self inside
    case isFalse => exact ⟨kept, lcb, found, used⟩

section

variable (kept : Conserved bufs cb)
include kept

theorem Conserved.checkSendPkts (around : Surroundings) (singleWrite : Bool) (link : Option Nat)
    (live : ∀ index, link = some index → ∃ lcb, cb.Live index lcb) :
    Conserved bufs (cb.checkSendPkts around singleWrite link) := by
  cases link with
  | none =>
    rw [L2cb.checkSendPkts]
    split
    · exact kept
    · exact kept.serveInTurn around singleWrite 0
  | some index =>
    obtain ⟨lcb, found, used⟩ := live index rfl
    rw [L2cb.checkSendPkts, found]
    dsimp only
    split
    · exact kept
    · split
      · exact kept.serveInTurn around singleWrite _
      · split
        · exact kept
        · obtain ⟨queued, still⟩ := kept.sendWhile dequeue (fun _ => rfl)
            (fun _ => rfl) lcb.linkXmitDataQ ⟨lcb, found, used⟩
          split
          · exact queued
          · exact (queued.sendWhile id (fun _ => rfl) (fun _ => rfl) _ still).1

theorem Conserved.sendPacket (around : Surroundings) (singleWrite : Bool)
    (live : cb.Live index lcb) : Conserved bufs (cb.sendPacket around singleWrite index lcb) := by
  have inside : index < cb.lcbPool.length := (List.getElem?_eq_some_iff.mp live.1).1
  have appended : Conserved bufs (cb.appendPacket index lcb) :=
    kept.replace live.1 rfl rfl rfl rfl
  refine appended.checkSendPkts around singleWrite (some index) ?_
  rintro _ ⟨⟩
  exact ⟨_, getElem?_set_self inside, live.2⟩

theorem Conserved.packetsCompleted (first second : Surroundings) {numSent : Nat}
    (live : cb.Live index lcb) (outstanding : numSent ≤ lcb.sentNotAcked) :
    Conserved bufs (cb.packetsCompleted first second numSent index lcb) := by
  have inside : index < cb.lcbPool.length := (List.getElem?_eq_some_iff.mp live.1).1
  have fewer : lessAcked lcb.sentNotAcked numSent + numSent = lcb.sentNotAcked := by
    rw [lessAcked]
    split <;> omega
  have acknowledged : Conserved bufs (cb.acknowledge numSent index lcb) := by
    refine kept.replace live.1 rfl rfl rfl ?_
    simp only [acknowledge, unacked, live.2, if_true]
    omega
  have sent := acknowledged.checkSendPkts first false (some index) (by
    rintro _ ⟨⟩
    exact ⟨_, getElem?_set_self inside, live.2⟩)
  rw [L2cb.packetsCompleted]
  split
  · exact sent.checkSendPkts second false none (by rintro _ ⟨⟩)
  · exact sent

theorem Conserved.adjustAllocation (adjusted : cb.adjustAllocation = some next) :
    Conserved bufs next := by
  rw [L2cb.adjustAllocation] at adjusted
  split at adjusted
  case isTrue unused =>
    cases adjusted
    have counted := kept.counted
    rw [unused] at counted
    have free := linkCount_eq_zero.mp counted.symm
    have empty : total unacked cb.lcbPool = 0 := by
      refine sum_eq_zero fun packets member => ?_
      obtain ⟨lcb, inside, rfl⟩ := mem_map.mp member
      simp [unacked, free lcb inside]
    exact ⟨kept.buffers, by simp [empty, kept.buffers], by simpa [unused] using counted⟩
  case isFalse used =>
    obtain ⟨found, _, rfl⟩ := map_eq_some_iff.mp adjusted
    have assigned : ∀ start : L2cb, Conserved bufs start → ∀ qq remainder,
        Conserved bufs (start.assign found qq remainder) := by
      intro start balanced qq remainder
      refine ⟨balanced.buffers, ?_, ?_⟩
      · simpa [assign, total_assignQuotas unacked fun _ => rfl] using balanced.balanced
      · have same := total_assignQuotas (fun lcb => lcb.inUse.toNat) (fun _ => rfl)
          found qq remainder start.lcbPool
        exact balanced.counted.trans same.symm
    have reset : ∀ quota unacked, Conserved bufs
        { cb with roundRobinQuota := quota, roundRobinUnacked := unacked } := fun _ _ =>
      ⟨kept.buffers, kept.balanced, kept.counted⟩
    rw [divide]
    generalize (if linkCount isHighPri cb.lcbPool * found < cb.numLmAclBufs then
      cb.numLmAclBufs - linkCount isHighPri cb.lcbPool * found else 1) = lowQuota
    split
    · exact assigned _ (reset _ _) _ _
    · split <;> exact assigned _ (reset _ _) _ _

theorem Conserved.allocateLcb (found : cb.lcbPool[index]? = some lcb) (free : lcb.inUse = false)
    (allocated : cb.allocateLcb index = some next) :
    Conserved bufs next := by
  rw [L2cb.allocateLcb] at allocated
  refine Conserved.adjustAllocation ?_ allocated
  refine kept.replace found rfl rfl ?_ ?_
  · simp [free]
  · simp [unacked, free]

/-- The window of a released link comes back in full: the clip at the buffers is not needed. -/
theorem Conserved.releaseLcb (live : cb.Live index lcb)
    (released : cb.releaseLcb index lcb = some next) : Conserved bufs next := by
  have packets := total_set live.1 unacked { lcb with inUse := false }
  have links := total_set live.1 (fun link => link.inUse.toNat) { lcb with inUse := false }
  have balanced := kept.balanced
  have counted := kept.counted
  have buffers := kept.buffers
  simp only [unacked, live.2, if_true, false_eq_true, if_false] at packets
  simp only [live.2, toNat_true, toNat_false] at links
  rw [linkCount] at counted
  rw [L2cb.releaseLcb] at released
  refine Conserved.adjustAllocation ?_ released
  refine kept.replace live.1 rfl rfl ?_ ?_
  · simp only [live.2, toNat_false, toNat_true]
    omega
  · simp only [unacked, live.2, if_true, false_eq_true, if_false]
    split
    · rw [if_neg (by omega)]
      omega
    · omega

theorem Conserved.setPriority (found : cb.lcbPool[index]? = some lcb) {high : Bool}
    (changed : cb.setPriority high index lcb = some next) : Conserved bufs next := by
  rw [L2cb.setPriority] at changed
  split at changed
  · exact some.inj changed ▸ kept
  · refine Conserved.adjustAllocation ?_ changed
    exact kept.replace found rfl rfl rfl rfl

theorem Conserved.step (proper : Proper cb event) (taken : step cb event = some next) :
    Conserved bufs next := by
  cases event with
  | allocate =>
    rw [step] at taken
    split at taken
    · exact some.inj taken ▸ kept
    case h_2 index free =>
      obtain ⟨inside, notUsed, _⟩ := findIdx?_eq_some_iff_getElem.mp free
      exact kept.allocateLcb (getElem?_eq_getElem inside) (by simpa using notUsed) taken
  | release index =>
    obtain ⟨lcb, live, _⟩ := proper index rfl
    rw [step, live.1] at taken
    exact kept.releaseLcb live taken
  | connected index =>
    obtain ⟨lcb, live, _⟩ := proper index rfl
    rw [step, live.1] at taken
    exact some.inj taken ▸ kept.replace live.1 rfl rfl rfl rfl
  | priority high index =>
    obtain ⟨lcb, live, _⟩ := proper index rfl
    rw [step, live.1] at taken
    exact kept.setPriority live.1 taken
  | packet around singleWrite index =>
    obtain ⟨lcb, live, _⟩ := proper index rfl
    rw [step, live.1] at taken
    exact some.inj taken ▸ kept.sendPacket around singleWrite live
  | check around link =>
    refine some.inj taken ▸ kept.checkSendPkts around false link fun index same => ?_
    obtain ⟨lcb, live, _⟩ := proper index same
    exact ⟨lcb, live⟩
  | completed first second numSent index =>
    obtain ⟨lcb, live, outstanding⟩ := proper index rfl
    rw [step, live.1] at taken
    exact some.inj taken ▸ kept.packetsCompleted first second live outstanding

theorem Conserved.progress (some : 0 < bufs) (proper : Proper cb event) :
    ∃ next, Links.step cb event = Option.some next := by
  have buffers : 1 ≤ cb.numLmAclBufs := Nat.lt_of_lt_of_eq some kept.buffers.symm
  cases event with
  | allocate =>
    rw [Links.step]
    split
    · exact ⟨cb, rfl⟩
    · exact adjustAllocation_isSome buffers
  | release index =>
    obtain ⟨lcb, live, _⟩ := proper index rfl
    rw [Links.step, live.1]
    exact adjustAllocation_isSome buffers
  | connected index | packet around singleWrite index | completed first second numSent index =>
    obtain ⟨lcb, live, _⟩ := proper index rfl
    rw [Links.step, live.1]
    exact ⟨_, rfl⟩
  | priority high index =>
    obtain ⟨lcb, live, _⟩ := proper index rfl
    rw [Links.step, live.1, bind_some, L2cb.setPriority]
    split
    · exact ⟨cb, rfl⟩
    · exact adjustAllocation_isSome buffers
  | check around link => exact ⟨_, rfl⟩

end

end Steps

/-- The pool after `l2c_link_init`: no link in use, and the window open. -/
def L2cb.init (links bufs : Nat) : L2cb where
  lcbPool := replicate links {}
  numLmAclBufs := bufs
  controllerXmitWindow := bufs

theorem conserved_init (links bufs : Nat) : Conserved bufs (init links bufs) := by
  have free : ∀ measure : Lcb → Nat, measure {} = 0 → total measure (replicate links {}) = 0 := by
    intro measure zero
    simp [total, zero]
  constructor
  · rfl
  · simp [init, free unacked rfl]
  · exact (free (fun lcb => lcb.inUse.toNat) rfl).symm

/--
Whatever links come and go and whatever is sent on them: free buffers and unacknowledged packets
are together the controller's buffers, so that never more packets are in flight.
-/
theorem window_conserved (links bufs : Nat) (events : List LinkEvent)
    (proper : Along step Proper (init links bufs) events) :
    (0 < bufs → ∃ last, run step (init links bufs) events = some last) ∧
      ∀ last, run step (init links bufs) events = some last →
        last.controllerXmitWindow + total unacked last.lcbPool = bufs ∧
          total unacked last.lcbPool ≤ bufs := by
  constructor
  · intro some
    have progress : ∀ cb event, Conserved bufs cb → Proper cb event →
        ∃ next, step cb event = Option.some next ∧ Conserved bufs next := by
      intro cb event kept allowed
      obtain ⟨next, taken⟩ := kept.progress some allowed
      exact ⟨next, taken, kept.step allowed taken⟩
    obtain ⟨last, reached, _⟩ := run_of_along progress (conserved_init links bufs) proper
    exact ⟨last, reached⟩
  · intro last reached
    have kept : Conserved bufs last := invariant_along
      (fun cb event next kept allowed taken => kept.step allowed taken)
      (conserved_init links bufs) proper reached
    exact ⟨kept.balanced, kept.balanced ▸ Nat.le_add_left _ _⟩

def twoPackets : List LinkEvent :=
  [.allocate, .connected 0, .packet {} true 0, .packet {} true 0, .completed {} {} 1 0, .release 0]

theorem proper_of_live {cb : L2cb} (about : event.link = some index) (live : cb.Live index lcb)
    (outstanding : event.numSent ≤ lcb.sentNotAcked) : Proper cb event := by
  intro other same
  obtain rfl : index = other := some.inj (about.symm.trans same)
  exact ⟨lcb, live, outstanding⟩

theorem window_conserved_twoPackets :
    (0 < 4 → ∃ last, run step (init 16 4) twoPackets = some last) ∧
      ∀ last, run step (init 16 4) twoPackets = some last →
        last.controllerXmitWindow + total unacked last.lcbPool = 4 ∧
          total unacked last.lcbPool ≤ 4 := by
  refine window_conserved 16 4 twoPackets ⟨?_, ?_, ?_, ?_, ?_, ?_, trivial⟩
  · rintro _ ⟨⟩
  · exact proper_of_live rfl ⟨rfl, rfl⟩ (Nat.zero_le _)
  · exact proper_of_live rfl ⟨rfl, rfl⟩ (Nat.zero_le _)
  · exact proper_of_live rfl ⟨rfl, rfl⟩ (Nat.zero_le _)
  · exact proper_of_live rfl ⟨rfl, rfl⟩ (by decide)
  · exact proper_of_live rfl ⟨rfl, rfl⟩ (Nat.zero_le _)

end BluetoothFormal.L2cap.Links
