import BluetoothFormal.Rfcomm.PortCredits

/-!
# The credits an RFCOMM port gives to its peer

`credit_rx` counts the credits that the peer holds together with the buffers
that the application has not consumed, be they queued for it or refused by its
callout callback.  Received data moves a unit from the one
to the other, consuming a buffer removes one, and every grant fills the counter
up to `credit_rx_max`, so the sum stays within that limit.
`PORT_FlowControl_MaxCredit` starts from zero instead of the counter and grants
the whole limit on top of what the peer holds.
-/

namespace BluetoothFormal.Rfcomm

open Foundation Foundation.Transition List Option

variable {next : Port} {event : Port.Event} {count mtu k : Nat} {middle : Session}
  {payload : List UInt8} {mcb : Multiplexer} {creditBased : Bool}

namespace Port

def creditsOf (frames : List DataFrame) : Nat := (frames.map DataFrame.credits).sum

/-- The connection of the port is or was open, so that data may be queued for the user. -/
def established (port : Port) : Bool := port.rfcState = .opened || port.rfcState = .discWaitUa

theorem established_of_closed {port : Port} (closed : port.rfcState = .closed) :
    port.established = false := by
  rw [established, closed]
  rfl

/-- The largest window that `port_select_mtu` allows for a frame size. -/
def window (mtu : Nat) : Nat := min (rfcMtuSize * rxBufHighWm / mtu) rxBufHighWm

/-- What a step does that gives credits to the peer in data frames only. -/
structure Feeds (port next : Port) : Prop where
  frames : ∃ sent, next.frames = port.frames ++ sent ∧
    port.creditRx + creditsOf sent ≤ next.creditRx
  capped : port.creditRx ≤ port.creditRxMax → next.creditRx ≤ next.creditRxMax
  creditRxMax : next.creditRxMax = port.creditRxMax
  mtu : next.mtu = port.mtu
  queue : next.rx.queue = port.rx.queue

namespace Feeds

variable {port middle next : Port}

theorem of_fields (frames : next.frames = port.frames) (creditRx : next.creditRx = port.creditRx)
    (creditRxMax : next.creditRxMax = port.creditRxMax) (mtu : next.mtu = port.mtu)
    (queue : next.rx.queue = port.rx.queue) : Feeds port next where
  frames := ⟨[], by rw [frames, append_nil], Nat.le_of_eq creditRx.symm⟩
  capped := by
    rw [creditRx, creditRxMax]
    exact id
  creditRxMax := creditRxMax
  mtu := mtu
  queue := queue

theorem refl (port : Port) : Feeds port port := .of_fields rfl rfl rfl rfl rfl

theorem trans (first : Feeds port middle) (second : Feeds middle next) : Feeds port next where
  frames := by
    obtain ⟨sent, appended, given⟩ := first.frames
    obtain ⟨more, further, also⟩ := second.frames
    refine ⟨sent ++ more, by rw [further, appended, append_assoc], ?_⟩
    rw [creditsOf, map_append, sum_append, ← creditsOf, ← creditsOf]
    omega
  capped := fun within => second.capped (first.capped within)
  creditRxMax := second.creditRxMax.trans first.creditRxMax
  mtu := second.mtu.trans first.mtu
  queue := second.queue.trans first.queue

end Feeds

theorem Quiet.feeds {port : Port} (quiet : Quiet port next) : Feeds port next := by
  cases quiet
  exact .of_fields rfl rfl rfl rfl rfl

section

variable (port : Port)

theorem decCredit_feeds : Feeds port port.decCredit := by
  unfold decCredit
  split
  · exact .of_fields rfl rfl rfl rfl rfl
  · exact .refl port

theorem creditsFor_le (buffer : List UInt8) :
    port.creditRx ≤ port.creditRxMax →
      port.creditRx + port.creditsFor buffer ≤ port.creditRxMax := by
  intro within
  unfold creditsFor
  split
  · omega
  · exact within

theorem sendFrame_feeds (buffer : List UInt8) : Feeds port (port.sendFrame buffer) := by
  have booked : Feeds port
      { port with
        frames := port.frames ++ [⟨buffer, port.creditsFor buffer % 2 ^ 8⟩]
        creditRx := port.creditRx + port.creditsFor buffer } := by
    refine ⟨⟨_, rfl, ?_⟩, creditsFor_le port buffer, rfl, rfl, rfl⟩
    change port.creditRx + (port.creditsFor buffer % 2 ^ 8 + 0) ≤
      port.creditRx + port.creditsFor buffer
    omega
  exact booked.trans (decCredit_feeds _)

theorem dataReq_feeds (buffer : List UInt8) : Feeds port (port.dataReq buffer) := by
  have handed : Feeds port { port with handed := port.handed ++ [buffer] } :=
    .of_fields rfl rfl rfl rfl rfl
  unfold dataReq
  split
  · exact handed.trans (sendFrame_feeds _ buffer)
  · exact handed

theorem Transmit.feeds {port : Port} (moved : Transmit port next) : Feeds port next := by
  cases moved with
  | move moved =>
    cases moved with
    | quiet quiet => exact quiet.feeds
    | @send buffer rest unblocked dequeued =>
      have dropped : Feeds port { port with tx := { port.tx with queue := rest } } :=
        .of_fields rfl rfl rfl rfl rfl
      exact dropped.trans (dataReq_feeds _ buffer)
  | store => exact .of_fields rfl rfl rfl rfl rfl
  | send unblocked buffer => exact dataReq_feeds port buffer

theorem Transmits.feeds {port : Port} (moves : Transmits port next) : Feeds port next := by
  induction moves with
  | refl => exact .refl port
  | tail _ moved ih => exact ih.trans moved.feeds

theorem Moves.feeds {port : Port} (moves : Moves port next) : Feeds port next :=
  moves.transmits.feeds

/-! ## Handlers that change the state of the connection -/

theorem Reconnects.feeds {port : Port} (moved : Reconnects port next) : Feeds port next := by
  cases moved
  exact .of_fields rfl rfl rfl rfl rfl

theorem incCredit_feeds (credit : UInt8) : Feeds port (port.incCredit credit) := by
  by_cases credited : port.usesCredits = true
  · refine Feeds.trans ?_ (incCredit_moves credited credit).feeds
    exact .of_fields rfl rfl rfl rfl rfl
  · rw [incCredit, if_neg credited]
    exact .refl port

theorem processMscCommand_feeds (pars : ModemControl) :
    Feeds port (port.processMscCommand pars) := by
  refine Feeds.trans ?_ (controlInd_moves _ pars).feeds
  rcases obeyFlowBit_moves port pars.fc with ⟨_, same⟩ | ⟨_, moves⟩
  · rw [same]
    exact .refl port
  · refine Feeds.trans ?_ moves.feeds
    exact .of_fields rfl rfl rfl rfl rfl

theorem aggregateFlowInd_feeds (enable : Bool) : Feeds port (port.aggregateFlowInd enable) := by
  refine Feeds.trans ?_ (aggregateFlowInd_moves port enable).feeds
  exact .of_fields rfl rfl rfl rfl rfl

end

end Port

namespace Session

open Port

/-! ## The books of the receive path -/

/--
The peer's credits, the unconsumed buffers and a number of buffers that were just
consumed are within the counter, and the counter is within its limit.
-/
structure Owes (count : Nat) (session : Session) : Prop where
  counted : session.peerCredits + session.unconsumed + count ≤ session.port.creditRx
  capped : session.port.creditRx ≤ session.port.creditRxMax

/-- Nothing that the limit and the queues depend on is written. -/
structure Shaped (session next : Session) : Prop where
  creditRxMax : next.port.creditRxMax = session.port.creditRxMax
  mtu : next.port.mtu = session.port.mtu
  queue : next.port.rx.queue = session.port.rx.queue
  incomingQueue : next.incomingQueue = session.incomingQueue
  rfcState : next.port.rfcState = session.port.rfcState

theorem Shaped.trans {self next : Session} (first : Shaped self middle)
    (second : Shaped middle next) : Shaped self next where
  creditRxMax := second.creditRxMax.trans first.creditRxMax
  mtu := second.mtu.trans first.mtu
  queue := second.queue.trans first.queue
  incomingQueue := second.incomingQueue.trans first.incomingQueue
  rfcState := second.rfcState.trans first.rfcState

theorem Shaped.unconsumed {self next : Session} (shaped : Shaped self next) :
    next.unconsumed = self.unconsumed := by
  rw [Session.unconsumed, shaped.queue, shaped.incomingQueue, Session.unconsumed]

/-- What a handler of the receive path does to the books. -/
structure Settles (count : Nat) (session next : Session) : Prop extends Shaped session next where
  owes : session.Owes count → next.Owes 0

theorem Owes.weaken {self : Session} (owes : self.Owes count) :
    self.Owes 0 :=
  ⟨Nat.le_trans (Nat.add_le_add_left (Nat.zero_le count) _) owes.counted, owes.capped⟩

theorem Settles.of_fields {self next : Session} (shaped : Shaped self next)
    (peerCredits : next.peerCredits = self.peerCredits)
    (creditRx : next.port.creditRx = self.port.creditRx) : Settles count self next where
  toShaped := shaped
  owes := by
    intro owes
    constructor
    · rw [peerCredits, shaped.unconsumed, creditRx]
      exact owes.weaken.counted
    · rw [creditRx, shaped.creditRxMax]
      exact owes.capped

theorem Settles.trans {self next : Session} (first : Settles count self middle)
    (second : Settles 0 middle next) :
    Settles count self next :=
  ⟨first.toShaped.trans second.toShaped, fun owes => second.owes (first.owes owes)⟩

section

variable (self : Session)

theorem returnCredits_settles (count : Nat) :
    Settles count self (self.returnCredits count) := by
  unfold returnCredits
  dsimp only
  split
  · refine ⟨⟨rfl, rfl, rfl, rfl, rfl⟩, fun owes => ⟨?_, Nat.le_refl _⟩⟩
    have counted := owes.counted
    change self.peerCredits + (self.port.creditRxMax - (self.port.creditRx - count)) % 2 ^ 8 +
        self.unconsumed + 0 ≤ self.port.creditRxMax
    omega
  · refine ⟨⟨rfl, rfl, rfl, rfl, rfl⟩, fun owes => ⟨?_, ?_⟩⟩
    · have counted := owes.counted
      change self.peerCredits + self.unconsumed + 0 ≤ self.port.creditRx - count
      omega
    · exact Nat.le_trans (Nat.sub_le _ _) owes.capped

theorem flowReq_settles (enable : Bool) : Settles 0 self (self.flowReq enable) := by
  unfold flowReq
  split <;> exact .of_fields ⟨rfl, rfl, rfl, rfl, rfl⟩ rfl rfl

theorem flowTs710_settles (enable : Bool) (count : Nat) :
    Settles count self (self.flowTs710 enable) := by
  have marked : ∀ peerFc, Settles count self (self.setRx { self.port.rx with peerFc := peerFc }) :=
    fun _ => .of_fields ⟨rfl, rfl, rfl, rfl, rfl⟩ rfl rfl
  unfold flowTs710
  dsimp only
  split
  · split
    · split
      · exact marked false
      · exact (marked false).trans (flowReq_settles _ true)
    · exact .of_fields ⟨rfl, rfl, rfl, rfl, rfl⟩ rfl rfl
  · split
    · exact (marked true).trans (flowReq_settles _ false)
    · exact .of_fields ⟨rfl, rfl, rfl, rfl, rfl⟩ rfl rfl

theorem flowControlPeer_settles (enable : Bool) (count : Nat) :
    Settles count self (self.flowControlPeer enable count) := by
  unfold flowControlPeer
  split
  · exact .of_fields ⟨rfl, rfl, rfl, rfl, rfl⟩ rfl rfl
  · split
    · unfold flowCredits
      split
      · exact returnCredits_settles self count
      · split <;> exact .of_fields ⟨rfl, rfl, rfl, rfl, rfl⟩ rfl rfl
    · exact flowTs710_settles self enable count

theorem quiet_settles {self : Session} {port : Port} (quiet : Quiet self.port port)
    (localFc : Bool) : Settles 0 self { self with port := port, localFc := localFc } := by
  cases quiet
  exact .of_fields ⟨rfl, rfl, rfl, rfl, rfl⟩ rfl rfl

theorem notify_settles (events : UInt32) : Settles 0 self (self.notify events) :=
  quiet_settles (notify_quiet self.port events) self.localFc

end

/-- The books of the receive path are in order. -/
structure Supplied (session : Session) : Prop where
  owes : session.Owes 0
  limited : session.port.creditRxMax ≤ window session.port.mtu
  framed : 0 < session.port.mtu
  idle : session.port.established = false → session.unconsumed = 0

variable {self next : Session}

theorem Shaped.supplied (shaped : Shaped self next) (books : self.Supplied)
    (owes : next.Owes 0) : next.Supplied where
  owes := owes
  limited := by
    rw [shaped.creditRxMax, shaped.mtu]
    exact books.limited
  framed := shaped.mtu.symm ▸ books.framed
  idle := by
    rw [established, shaped.rfcState, shaped.unconsumed]
    exact books.idle

section

variable (books : self.Supplied)
include books

theorem Supplied.settles (settles : Settles 0 self next) :
    next.Supplied :=
  settles.toShaped.supplied books (settles.owes books.owes)

/-- One more buffer waits for the application. -/
theorem Supplied.more (opened : self.port.rfcState = .opened) (owes : self.Owes 1)
    (port : next.port = { self.port with rx := next.port.rx })
    (peerCredits : next.peerCredits = self.peerCredits)
    (one : next.unconsumed = self.unconsumed + 1) : next.Supplied := by
  refine ⟨⟨?_, ?_⟩, ?_, ?_, ?_⟩
  · rw [peerCredits, one, port]
    exact owes.counted
  · rw [port]
    exact owes.capped
  · rw [port]
    exact books.limited
  · rw [port]
    exact books.framed
  · rw [established, port, opened]
    rintro ⟨⟩

theorem enqueue_supplied (opened : self.port.rfcState = .opened) (owes : self.Owes 1)
    (payload : List UInt8) : (self.enqueue payload).Supplied := by
  have queued : Supplied (self.setRx
      { self.port.rx with queue := self.port.rx.queue.enqueue payload }) := by
    refine books.more opened owes rfl rfl ?_
    have one := BufferQueue.length_enqueue self.port.rx.queue payload
    simp only [BufferQueue.length] at one
    simp only [setRx, unconsumed]
    omega
  have checked := queued.settles (flowControlPeer_settles _ false 0)
  unfold enqueue
  dsimp only
  split
  · exact checked.settles (.of_fields ⟨rfl, rfl, rfl, rfl, rfl⟩ rfl rfl)
  · exact checked.settles (notify_settles _ _)

theorem dataInd_supplied (opened : self.port.rfcState = .opened) (owes : self.Owes 1)
    (payload : List UInt8) (taken : Bool) :
    (self.dataInd payload taken).Supplied := by
  have returned : (self.flowControlPeer true 1).Supplied := by
    have settles := flowControlPeer_settles self true 1
    exact settles.toShaped.supplied books (settles.owes owes)
  unfold dataInd
  split
  · split
    · exact returned
    · refine Supplied.settles ?_ (flowControlPeer_settles _ false 0)
      refine books.more opened owes rfl rfl ?_
      simp only [unconsumed, length_append, length_singleton]
      omega
  · split
    · exact returned
    · split
      · exact books
      · exact enqueue_supplied books opened owes payload

theorem receive_supplied (credit : payload ≠ [] → 0 < self.peerCredits) (taken : Bool) :
    (self.receive payload taken).Supplied := by
  unfold receive
  split
  · exact books
  · rename_i data
    have positive := credit data
    have owes : Owes 1 { self with peerCredits := self.peerCredits - 1 } := by
      refine ⟨?_, books.owes.capped⟩
      have counted := books.owes.counted
      change self.peerCredits - 1 + self.unconsumed + 1 ≤ self.port.creditRx
      omega
    have spent : Supplied { self with peerCredits := self.peerCredits - 1 } :=
      ⟨owes.weaken, books.limited, books.framed, books.idle⟩
    split
    · rename_i opened
      exact dataInd_supplied spent opened owes payload taken
    · exact spent

end

theorem readLoop_length (fuel : Nat) (queue : BufferQueue UInt8) (maxLength : Nat) :
    (readLoop fuel queue maxLength).2.2.length + (readLoop fuel queue maxLength).2.1 =
      queue.length := by
  induction fuel generalizing queue maxLength with
  | zero => rfl
  | succ fuel ih =>
    unfold readLoop
    split
    · rfl
    · split
      · rfl
      · rename_i buffer rest dequeued
        split
        · exact BufferQueue.length_trimFirst queue maxLength
        · have shorter := BufferQueue.length_eq_of_dequeue? dequeued
          have read := ih rest (maxLength - buffer.length)
          dsimp only
          omega

theorem readLoop_stream {fuel : Nat} {queue : BufferQueue UInt8} (enough : queue.length < fuel)
    (maxLength : Nat) :
    (readLoop fuel queue maxLength).1 = queue.stream.take maxLength ∧
      (readLoop fuel queue maxLength).2.2.stream = queue.stream.drop maxLength := by
  induction fuel generalizing queue maxLength with
  | zero => cases enough
  | succ fuel ih =>
    unfold readLoop
    split
    case isTrue zero =>
      rw [zero]
      exact ⟨rfl, rfl⟩
    case isFalse =>
      cases dequeued : queue.dequeue? with
      | none =>
        rw [BufferQueue.stream_eq_nil_of_dequeue? dequeued, take_nil, drop_nil]
        exact ⟨rfl, rfl⟩
      | some first =>
        obtain ⟨buffer, rest⟩ := first
        have whole := BufferQueue.stream_eq_of_dequeue? dequeued
        have shorter := BufferQueue.length_eq_of_dequeue? dequeued
        dsimp only
        by_cases long : maxLength < buffer.length
        · rw [if_pos long]
          refine ⟨?_, BufferQueue.stream_trimFirst dequeued (Nat.le_of_lt long)⟩
          rw [whole, take_append_of_le_length (Nat.le_of_lt long)]
        · obtain ⟨read, left⟩ := @ih rest (by omega) (maxLength - buffer.length)
          rw [if_neg long, whole, take_append, drop_append, take_of_length_le (Nat.not_lt.mp long),
            drop_eq_nil_of_le (Nat.not_lt.mp long), nil_append, ← read, ← left]
          exact ⟨rfl, rfl⟩

/--
A read splits the queued stream and keeps the count of its bytes; one that is
not refused takes as much as fits.
-/
theorem readData_takes (self : Session) (maxLength : Nat) :
    (self.readData maxLength).2 ++ (self.readData maxLength).1.port.rx.queue.stream =
        self.port.rx.queue.stream ∧ (self.readData maxLength).1.port.rx.queue.size =
        ((self.readData maxLength).1.port.rx.queue.buffers.map length).sum ∧
      (self.port.state ≠ .closed → self.lineStatus = 0 →
        (self.readData maxLength).2 = self.port.rx.queue.stream.take maxLength) := by
  obtain ⟨read, left⟩ := readLoop_stream (Nat.lt_succ_self self.port.rx.queue.length) maxLength
  rw [← length_flatten, ← BufferQueue.counted, readData]
  dsimp only
  split
  case isTrue refused =>
    refine ⟨rfl, rfl, fun opened clean => ?_⟩
    have empty := (refused.resolve_left opened).resolve_left (not_not.mpr clean)
    rw [BufferQueue.stream, length_eq_zero_iff.mp empty, flatten_nil, take_nil]
  case isFalse =>
    refine ⟨?_, rfl, fun _ _ => read⟩
    rw [(flowControlPeer_settles _ true _).queue]
    exact read.symm ▸ left.symm ▸ take_append_drop maxLength _

section

variable (books : self.Supplied)
include books

theorem readData_supplied (maxLength : Nat) :
    (self.readData maxLength).1.Supplied := by
  have read := readLoop_length (self.port.rx.queue.length + 1) self.port.rx.queue maxLength
  unfold readData
  dsimp only
  split
  · exact books
  · generalize readLoop (self.port.rx.queue.length + 1) self.port.rx.queue maxLength = outcome
      at read
    have fewer : (self.setRx { self.port.rx with queue := outcome.2.2 }).unconsumed +
        outcome.2.1 = self.unconsumed := by
      simp only [BufferQueue.length] at read
      simp only [setRx, unconsumed]
      omega
    have owes : Owes outcome.2.1 (self.setRx { self.port.rx with queue := outcome.2.2 }) := by
      refine ⟨?_, books.owes.capped⟩
      rw [Nat.add_assoc, fewer]
      exact books.owes.counted
    have shorter : Supplied (self.setRx { self.port.rx with queue := outcome.2.2 }) := by
      refine ⟨owes.weaken, books.limited, books.framed, ?_⟩
      intro idle
      have empty := books.idle idle
      omega
    have settles := flowControlPeer_settles
      (self.setRx { self.port.rx with queue := outcome.2.2 }) true outcome.2.1
    exact settles.toShaped.supplied shorter (settles.owes owes)

/-- The whole limit may be granted if the peer holds nothing and everything is consumed. -/
theorem applyUserFc_supplied (spent : self.port.rx.userFc = false → self.port.usesCredits = true →
      self.port.creditRxMax = 0 ∨ self.peerCredits + self.unconsumed = 0) :
    self.applyUserFc.Supplied := by
  unfold applyUserFc
  dsimp only
  split
  · rename_i credited
    split
    · exact books
    · rename_i enabled
      have owes : self.Owes self.port.creditRx := by
        refine ⟨?_, books.owes.capped⟩
        have counted := books.owes.counted
        have capped := books.owes.capped
        rcases spent (Bool.not_eq_true _ ▸ enabled) credited with no_limit | nothing
        · omega
        · omega
      have settles := flowControlPeer_settles self true self.port.creditRx
      exact settles.toShaped.supplied books (settles.owes owes)
  · split
    · exact books.settles (quiet_settles (controlReq_quiet _) _)
    · exact books

theorem flowControlMaxCredit_supplied {enable : Bool}
    (spent : enable = true → self.port.usesCredits = true →
      self.port.creditRxMax = 0 ∨ self.peerCredits + self.unconsumed = 0) :
    (self.flowControlMaxCredit enable).Supplied := by
  have told : Supplied (self.setRx { self.port.rx with userFc := !enable }) :=
    books.settles (.of_fields ⟨rfl, rfl, rfl, rfl, rfl⟩ rfl rfl)
  have applied := applyUserFc_supplied told fun enabled credited =>
    spent (by simpa [setRx] using enabled) credited
  unfold flowControlMaxCredit
  dsimp only
  split
  · exact books
  · split
    · have informed : Supplied { (self.setRx
          { self.port.rx with userFc := !enable }).applyUserFc with rxFlagPending := false } :=
        applied.settles (.of_fields ⟨rfl, rfl, rfl, rfl, rfl⟩ rfl rfl)
      exact informed.settles (notify_settles _ _)
    · exact applied

/-! ## Steps of the port -/

theorem Supplied.feeds {port : Port} (feeds : Feeds self.port port)
    (before : port.established = false → self.port.established = false)
    (unoffered : offered self.port port event = none) :
    (self.account event port).Supplied := by
  obtain ⟨sent, appended, given⟩ := feeds.frames
  have piggyback : piggybacked self.port port = creditsOf sent := by
    rw [piggybacked, appended, drop_left, creditsOf]
  refine ⟨⟨?_, feeds.capped books.owes.capped⟩, ?_, feeds.mtu.symm ▸ books.framed, ?_⟩
  · have counted := books.owes.counted
    change (offered self.port port event).getD self.peerCredits + piggybacked self.port port +
        (port.rx.queue.buffers.length + self.incomingQueue.length) + 0 ≤ port.creditRx
    rw [unoffered, getD_none, piggyback, feeds.queue, ← unconsumed]
    omega
  · change port.creditRxMax ≤ window port.mtu
    rw [feeds.creditRxMax, feeds.mtu]
    exact books.limited
  · intro idle
    change port.rx.queue.buffers.length + self.incomingQueue.length = 0
    rw [feeds.queue]
    exact books.idle (before idle)

theorem Supplied.offers {port : Port} (idle : self.port.established = false)
    (queue : port.rx.queue = self.port.rx.queue) (frames : port.frames = self.port.frames)
    (limited : port.creditRxMax ≤ window port.mtu) (framed : 0 < port.mtu)
    (capped : port.creditRx ≤ port.creditRxMax)
    (offer : offered self.port port event = some port.creditRx) :
    (self.account event port).Supplied := by
  have empty : port.rx.queue.buffers.length + self.incomingQueue.length = 0 :=
    queue ▸ books.idle idle
  have piggyback : piggybacked self.port port = 0 := by
    rw [piggybacked, frames, drop_length, map_nil, sum_nil]
  refine ⟨⟨?_, capped⟩, limited, framed, fun _ => empty⟩
  change (offered self.port port event).getD self.peerCredits + piggybacked self.port port +
      (port.rx.queue.buffers.length + self.incomingQueue.length) + 0 ≤ port.creditRx
  rw [offer, getD_some, piggyback, empty]
  omega

end

theorem window_antitone {small large : Nat} (positive : 0 < small) (smaller : small ≤ large) :
    window large ≤ window small := by
  have fewer : rfcMtuSize * rxBufHighWm / large ≤ rfcMtuSize * rxBufHighWm / small :=
    Nat.div_le_div_left smaller positive
  unfold window
  omega

theorem Supplied.parNegReq (books : self.Supplied)
    (attached : self.port.multiplexer = some mcb) (idle : self.port.established = false) :
    (self.account .parNegReq (self.port.parNegReq mcb)).Supplied := by
  by_cases ts710 : mcb.flow = .ts710
  · have shape : self.port.parNegReq mcb = { self.port with expectsPn := true } :=
      if_pos ts710
    rw [shape]
    refine books.feeds (.of_fields rfl rfl rfl rfl rfl) id ?_
    exact if_pos (by rw [attached]; exact decide_eq_true ts710)
  · have shape : self.port.parNegReq mcb = { self.port with
          expectsPn := true
          creditRx := min self.port.creditRxMax maxK } := if_neg ts710
    rw [shape]
    refine books.offers idle rfl rfl books.limited books.framed (Nat.min_le_left _ _) ?_
    exact if_neg (by rw [attached]; exact ts710 ∘ of_decide_eq_true)

theorem Supplied.parNegInd (books : self.Supplied) {found : Multiplexer} (valid : 0 < mtu)
    (idle : creditBased = true → self.port.established = false) :
    (self.account (.parNegInd found mtu creditBased k)
      (self.port.parNegInd found mtu creditBased k)).Supplied := by
  have positive : 0 < min self.port.mtu mtu := Nat.lt_min.mpr ⟨books.framed, valid⟩
  have limited : self.port.selectMtu.creditRxMax ≤ window (min self.port.mtu mtu) :=
    window_antitone positive (Nat.min_le_left _ _)
  by_cases granted : creditBased = true ∧
      ((self.port.multiplexer.getD found).negotiateFlow creditBased).flow = .credit
  · have shape : self.port.parNegInd found mtu creditBased k =
        { (self.port.selectMtu.negotiate
            ((self.port.multiplexer.getD found).negotiateFlow creditBased) mtu).getCredits k with
          creditRx := min self.port.selectMtu.creditRxMax maxK } := if_pos granted
    rw [shape]
    refine books.offers (idle granted.1) rfl rfl limited positive (Nat.min_le_left _ _) ?_
    exact if_pos ⟨granted.1, decide_eq_true granted.2⟩
  · have shape : self.port.parNegInd found mtu creditBased k = self.port.selectMtu.negotiate
        ((self.port.multiplexer.getD found).negotiateFlow creditBased) mtu := if_neg granted
    rw [shape]
    have unoffered : offered self.port (self.port.selectMtu.negotiate
        ((self.port.multiplexer.getD found).negotiateFlow creditBased) mtu)
        (.parNegInd found mtu creditBased k) = none :=
      if_neg fun both => granted ⟨both.1, of_decide_eq_true both.2⟩
    have piggyback : piggybacked self.port (self.port.selectMtu.negotiate
        ((self.port.multiplexer.getD found).negotiateFlow creditBased) mtu) = 0 := by
      change ((self.port.frames.drop _).map DataFrame.credits).sum = 0
      rw [drop_length, map_nil, sum_nil]
    refine ⟨⟨?_, ?_⟩, limited, positive, books.idle⟩
    · change (offered _ _ _).getD self.peerCredits + piggybacked _ _ +
        self.unconsumed + 0 ≤ self.port.creditRx
      rw [unoffered, piggyback]
      exact books.owes.counted
    · exact Nat.le_trans books.owes.capped books.limited

theorem Supplied.parNegCnf (books : self.Supplied) (valid : 0 < mtu) :
    (self.account (.parNegCnf mtu creditBased k)
      (self.port.processPnResponse mcb mtu creditBased k)).Supplied := by
  by_cases expected : self.port.expectsPn = true
  · have positive : 0 < min self.port.mtu mtu := Nat.lt_min.mpr ⟨books.framed, valid⟩
    have limited : self.port.creditRxMax ≤ window (min self.port.mtu mtu) :=
      Nat.le_trans books.limited (window_antitone positive (Nat.min_le_left _ _))
    have smaller : ∀ multiplexer tx peerMtu creditTx rfcState,
        (Port.established { self.port with rfcState := rfcState } = false →
          self.port.established = false) → (self.account (.parNegCnf mtu creditBased k)
          { self.port with
            expectsPn := false
            multiplexer := multiplexer
            mtu := min self.port.mtu mtu
            peerMtu := peerMtu
            tx := tx
            creditTx := creditTx
            rfcState := rfcState }).Supplied := by
      intro multiplexer tx peerMtu creditTx rfcState before
      refine ⟨⟨?_, books.owes.capped⟩, limited, positive, fun idle => books.idle (before idle)⟩
      change self.peerCredits + ((self.port.frames.drop _).map DataFrame.credits).sum +
        self.unconsumed + 0 ≤ self.port.creditRx
      rw [drop_length, map_nil, sum_nil]
      exact books.owes.counted
    rw [processPnResponse, if_pos expected]
    unfold Port.parNegCnf
    dsimp only
    split
    all_goals
      split
      · next waits => exact smaller _ _ _ _ _ fun _ => established_of_closed waits.2
      · exact smaller _ _ _ _ _ id
  · rw [processPnResponse, if_neg expected]
    exact books.feeds (.refl _) id rfl

/-! ## Runs -/

/--
The conditions on a step.  The peer sends data on a credit only, parameters are
negotiated before the connection is established, and the application enables
the flow only when the peer holds no credit and every buffer is consumed.
-/
def Fair (self : Session) : Event → Prop
  | .bufDataInd payload _ _ => payload ≠ [] → 0 < self.peerCredits
  | .port .parNegReq => self.port.established = false
  | .port (.parNegInd _ _ creditBased _) =>
    creditBased = true → self.port.established = false
  | .flowControlMaxCredit enable =>
    enable = true → self.port.usesCredits = true →
      self.port.creditRxMax = 0 ∨ self.peerCredits + self.unconsumed = 0
  | _ => True

section

variable (books : self.Supplied)
include books

theorem Supplied.secComplete {port : Port} (completed : self.port.secComplete mtu = some port) :
    (self.account (.secComplete mtu) port).Supplied := by
  unfold Port.secComplete at completed
  split at completed
  · rename_i waits
    cases completed
    refine books.feeds (.of_fields rfl rfl rfl rfl rfl) (fun _ => ?_) rfl
    rw [established, waits]
    rfl
  · rename_i waits
    cases completed
    refine books.feeds (dlcEstablishInd_reconnects self.port mtu).feeds (fun _ => ?_) rfl
    rw [established, waits]
    rfl
  · cases completed

theorem Supplied.proceeds {port : Port} (feeds : Feeds self.port port)
    (proceeds : Proceeds self.port port) (unoffered : offered self.port port event = none) :
    (self.account event port).Supplied := by
  refine books.feeds feeds ?_ unoffered
  rw [established, proceeds.rfcState, ← established]
  exact id

theorem Supplied.port {port : Port} (frame : wellFormed event = true)
    (fair : self.Fair (.port event)) (moved : self.port.step event = some port) :
    (self.account event port).Supplied := by
  cases event with
  | multiplexerConnected =>
    obtain ⟨mcb, _, rfl⟩ := map_eq_some_iff.mp moved
    exact books.feeds (.of_fields rfl rfl rfl rfl rfl) id rfl
  | parNegReq =>
    obtain ⟨mcb, attached, rfl⟩ := map_eq_some_iff.mp moved
    exact books.parNegReq attached fair
  | parNegInd found mtu creditBased k =>
    cases moved
    have valid : minMtu ≤ mtu := by
      simp only [wellFormed, Bool.and_eq_true, decide_eq_true_eq] at frame
      exact frame.1.1
    exact books.parNegInd (Nat.lt_of_lt_of_le (by decide) valid) fair
  | parNegCnf mtu creditBased k =>
    obtain ⟨mcb, _, rfl⟩ := map_eq_some_iff.mp moved
    have valid : minMtu ≤ mtu := by
      simp only [wellFormed, Bool.and_eq_true, decide_eq_true_eq] at frame
      exact frame.1.1
    exact books.parNegCnf (Nat.lt_of_lt_of_le (by decide) valid)
  | sabme found =>
    obtain ⟨closed, rfl⟩ := guarded_eq_some.mp moved
    exact books.feeds (.of_fields rfl rfl rfl rfl rfl) (fun _ => established_of_closed closed) rfl
  | secComplete mtu => exact books.secComplete moved
  | ua mtu =>
    obtain ⟨waits, rfl⟩ := guarded_eq_some.mp moved
    have opened : Feeds self.port { self.port with rfcState := .opened } :=
      .of_fields rfl rfl rfl rfl rfl
    refine books.feeds (opened.trans (dlcEstablishCnf_reconnects _ mtu).feeds) (fun _ => ?_) rfl
    rw [established, waits]
    rfl
  | portNegCnf =>
    obtain ⟨_, rfl⟩ := guarded_eq_some.mp moved
    exact books.proceeds (portNegCnf_moves _).feeds (portNegCnf_moves _).proceeds rfl
  | mscCommand pars =>
    obtain ⟨_, rfl⟩ := guarded_eq_some.mp moved
    exact books.proceeds (processMscCommand_feeds _ pars) (processMscCommand_proceeds _ pars) rfl
  | mscResponse =>
    obtain ⟨_, rfl⟩ := guarded_eq_some.mp moved
    exact books.proceeds (processMscResponse_moves _).feeds (processMscResponse_moves _).proceeds
      rfl
  | aggregateFlowInd enable =>
    obtain ⟨_, rfl⟩ := guarded_eq_some.mp moved
    exact books.proceeds (aggregateFlowInd_feeds _ enable) (aggregateFlowInd_proceeds _ enable) rfl
  | incCredit credit => cases frame
  | removeConnection =>
    obtain ⟨_, rfl⟩ := guarded_eq_some.mp moved
    refine books.feeds (removeConnection_reconnects self.port).feeds ?_ rfl
    rintro ⟨⟩
  | writeData data =>
    cases moved
    have wrote := writeData_transmits self.port data
    exact books.proceeds wrote.feeds wrote.proceeds rfl
  | writeDataCO offered reads =>
    cases moved
    have wrote := writeDataCO_transmits self.port offered reads
    exact books.proceeds wrote.feeds wrote.proceeds rfl

theorem Supplied.bufDataInd {credit : UInt8} {taken : Bool}
    (fair : payload ≠ [] → 0 < self.peerCredits)
    (credited : credit ≠ 0 → self.port.usesCredits = true) :
    (self.bufDataInd payload credit taken).Supplied := by
  have received := receive_supplied books fair taken
  unfold Session.bufDataInd
  split
  · rename_i some_credit
    have still : (self.receive payload taken).port.usesCredits = true := by
      rw [usesCredits, (receive_aside self payload taken).still.multiplexer]
      exact credited some_credit
    refine received.feeds (incCredit_feeds _ credit) ?_ rfl
    rw [established, (incCredit_moves still credit).proceeds.rfcState, ← established]
    exact id
  · exact received

theorem Supplied.step {event : Event} (fair : self.Fair event)
    (moved : self.step event = some next) : next.Supplied := by
  cases event with
  | port event =>
    obtain ⟨frame, moved⟩ := ite_none_right_eq_some.mp moved
    obtain ⟨port, stepped, rfl⟩ := map_eq_some_iff.mp moved
    exact books.port frame fair stepped
  | bufDataInd payload credit taken =>
    obtain ⟨⟨_, credited⟩, rfl⟩ := guarded_eq_some.mp moved
    exact books.bufDataInd fair credited
  | readData maxLength =>
    cases moved
    exact readData_supplied books maxLength
  | flowControlMaxCredit enable =>
    cases moved
    exact flowControlMaxCredit_supplied books fair
  | lineStatusInd status =>
    obtain ⟨_, rfl⟩ := guarded_eq_some.mp moved
    have marked : Supplied { self with lineStatus := self.lineStatus ||| status } :=
      books.settles (.of_fields ⟨rfl, rfl, rfl, rfl, rfl⟩ rfl rfl)
    exact marked.settles (notify_settles _ _)
  | setDataCOCallback registered =>
    cases moved
    refine books.settles ?_
    unfold setDataCOCallback
    split <;> exact .of_fields ⟨rfl, rfl, rfl, rfl, rfl⟩ rfl rfl
  | flushIncomingQue count =>
    cases moved
    have fewer : (self.flushIncomingQue count).unconsumed ≤ self.unconsumed := by
      simp only [flushIncomingQue, unconsumed, length_drop]
      omega
    refine ⟨⟨?_, books.owes.capped⟩, books.limited, books.framed, fun idle => ?_⟩
    · have counted := books.owes.counted
      change self.peerCredits + _ + 0 ≤ self.port.creditRx
      omega
    · exact Nat.le_zero.mp (Nat.le_trans fewer (Nat.le_of_eq (books.idle idle)))

end

variable {isServer usesRpn hasCallback hasDataCallback hasDataCOCallback : Bool}
  {requestedMtu : Nat} {multiplexer : Option Multiplexer} {evMask : UInt32} {rxChar : UInt8}

theorem opening_supplied :
    (opening (Port.opening isServer usesRpn requestedMtu multiplexer hasCallback evMask)
      hasDataCallback hasDataCOCallback rxChar).Supplied := by
  have framed : 0 < (Port.created isServer usesRpn requestedMtu multiplexer hasCallback
      evMask).mtu := by
    change 0 < if requestedMtu = 0 then _ else _
    split
    · decide
    · exact Nat.lt_min.mpr ⟨Nat.pos_of_ne_zero ‹_›, by decide⟩
  cases isServer with
  | false => exact ⟨⟨Nat.zero_le _, Nat.zero_le _⟩, Nat.le_refl _, framed, fun _ => rfl⟩
  | true => exact ⟨⟨Nat.zero_le _, Nat.zero_le _⟩, Nat.zero_le _, framed, fun _ => rfl⟩

instance (self : Session) (event : Event) : Decidable (self.Fair event) := by
  induction event using Event.casesOn with
  | bufDataInd | flowControlMaxCredit => exact inferInstanceAs (Decidable (_ → _))
  | port event =>
    induction event using Port.Event.casesOn with
    | parNegReq => exact inferInstanceAs (Decidable (_ = _))
    | parNegInd => exact inferInstanceAs (Decidable (_ → _))
    | _ => exact isTrue trivial
  | _ => exact isTrue trivial

/-- The credits of the peer and the buffers that the user has not consumed stay within the limit. -/
theorem peer_within_creditRxMax {events : List Event} {self : Session} (fair : Along step Fair
      (opening (Port.opening isServer usesRpn requestedMtu multiplexer hasCallback evMask)
        hasDataCallback hasDataCOCallback rxChar) events)
    (reached : run step
      (opening (Port.opening isServer usesRpn requestedMtu multiplexer hasCallback evMask)
        hasDataCallback hasDataCOCallback rxChar) events = some self) :
    self.peerCredits + self.unconsumed ≤ self.port.creditRxMax := by
  have books : self.Supplied :=
    invariant_along (fun _ _ _ books fair moved => books.step fair moved)
      opening_supplied fair reached
  exact Nat.le_trans books.owes.counted books.owes.capped

/-- The peer of a server uses four of its seven credits; then what follows. -/
def peerSends (following : List Event) : List Event :=
  serverOpens true 7 [.bufDataInd [1] 0 true, .bufDataInd [2] 0 true, .bufDataInd [3] 0 true,
    .bufDataInd [4] 0 true] ++ following

theorem peer_within_creditRxMax_read :
    ∃ self, run step server (peerSends [.setDataCOCallback true, .bufDataInd [5] 0 false,
        .readData 3, .port (.writeData [6])]) = some self ∧
      self.peerCredits = 7 ∧ self.port.rx.queue.buffers = [[4]] ∧
      self.incomingQueue = [[5]] ∧ self.port.creditRxMax = 9 ∧
      self.peerCredits + self.unconsumed ≤ self.port.creditRxMax := by
  refine ⟨_, rfl, by decide, by decide, by decide, by decide, ?_⟩
  exact peer_within_creditRxMax (show Along step Fair server (peerSends [.setDataCOCallback true,
    .bufDataInd [5] 0 false, .readData 3, .port (.writeData [6])]) by decide) rfl

theorem readData_takes_part :
    ((server.setRx { server.port.rx with queue := ⟨[[1, 2], [3]], 3, rfl⟩ }).readData 1).2 = [1] :=
  (readData_takes _ 1).2.2 (by decide) rfl

/-- The user enables the flow while the peer holds credits, and the limit is exceeded. -/
theorem maxCredit_exceeds_limit :
    ∃ self, run step server (serverOpens true 7 [.flowControlMaxCredit true]) = some self ∧
      self.port.usesCredits = true ∧ self.peerCredits = 16 ∧ self.port.creditRxMax = 9 ∧
      ¬ self.peerCredits + self.unconsumed ≤ self.port.creditRxMax := by
  refine ⟨_, rfl, by decide, by decide, by decide, by decide⟩

end Session

end BluetoothFormal.Rfcomm
