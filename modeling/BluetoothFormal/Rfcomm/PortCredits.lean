import BluetoothFormal.Foundation.CreditAccount
import BluetoothFormal.Rfcomm.PortMoves
import BluetoothFormal.Rfcomm.PortSession

/-!
# The credits an RFCOMM port sends on

In credit based flow every data frame spends a credit of the port, and a port
without credits is blocked until the peer grants some.  A parameter negotiation
sets the counter and blocks the port if no credits come with it.  A port that is
established without such a negotiation has no credits and is not blocked, so
that it sends one frame nobody granted.
-/

namespace BluetoothFormal.Rfcomm

open Foundation Foundation.Transition Foundation.CreditAccount Option

variable {next : Port} {mcb : Multiplexer} {credit : UInt8} {mtu : Nat}

namespace Port

/-- The frames sent, the credits left and the block of the port. -/
def account (port : Port) : CreditAccount where
  spent := port.frames.length
  credit := port.creditTx
  blocked := port.tx.peerFc

/-- The multiplexer of the port has agreed on the flow control of TS 07.10. -/
def usesTs710 (port : Port) : Bool := port.multiplexer.any (·.flow = .ts710)

/-- What a step does that neither negotiates nor grants credits. -/
structure Pays (port next : Port) : Prop where
  credit : port.usesCredits = true → next.usesCredits = true ∧ Spends port.account next.account
  ts710 : port.usesTs710 = true → next.usesTs710 = true
  silent : port.rfcState ≠ .opened → next.frames = port.frames

theorem Pays.of_fields {port : Port} (multiplexer : next.multiplexer = port.multiplexer)
    (account : next.account = port.account) (frames : next.frames = port.frames) :
    Pays port next := by
  constructor
  · intro credited
    rw [usesCredits, multiplexer, account]
    exact ⟨credited, .refl⟩
  · intro agreed
    rw [usesTs710, multiplexer]
    exact agreed
  · exact fun _ => frames

/-- The same for a step within one state of the connection. -/
structure Proceeds (port next : Port) : Prop extends Pays port next where
  rfcState : next.rfcState = port.rfcState

namespace Proceeds

variable {port middle next : Port}

theorem refl (port : Port) : Proceeds port port := ⟨.of_fields rfl rfl rfl, rfl⟩

theorem trans (first : Proceeds port middle) (second : Proceeds middle next) :
    Proceeds port next := by
  refine ⟨⟨?_, ?_, ?_⟩, second.rfcState.trans first.rfcState⟩
  · intro credited
    obtain ⟨still, spends⟩ := first.credit credited
    exact ⟨(second.credit still).1, spends.trans (second.credit still).2⟩
  · exact fun agreed => second.ts710 (first.ts710 agreed)
  · intro unopened
    have silent := second.silent (first.rfcState.symm ▸ unopened)
    exact silent.trans (first.silent unopened)

end Proceeds

theorem Quiet.proceeds {port : Port} (quiet : Quiet port next) : Proceeds port next := by
  cases quiet
  exact ⟨.of_fields rfl rfl rfl, rfl⟩

theorem sendFrame_account {port : Port} (credited : port.usesCredits = true)
    (buffer : List UInt8) : (port.sendFrame buffer).account = port.account.spend := by
  have still : usesCredits
      { port with
        frames := port.frames ++ [⟨buffer, port.creditsFor buffer % 2 ^ 8⟩]
        creditRx := port.creditRx + port.creditsFor buffer } = true := credited
  unfold sendFrame decCredit
  rw [if_pos still]
  simp only [account, CreditAccount.spend, List.length_append, List.length_singleton]
  rfl

section

variable (port : Port)

theorem sendFrame_multiplexer (buffer : List UInt8) :
    (port.sendFrame buffer).multiplexer = port.multiplexer ∧
      (port.sendFrame buffer).rfcState = port.rfcState := by
  unfold sendFrame decCredit
  dsimp only
  split <;> exact ⟨rfl, rfl⟩

theorem dataReq_proceeds {port : Port} (unblocked : port.unblocked = true)
    (buffer : List UInt8) : Proceeds port (port.dataReq buffer) := by
  have handed : Proceeds port { port with handed := port.handed ++ [buffer] } :=
    ⟨.of_fields rfl rfl rfl, rfl⟩
  unfold dataReq
  split
  · rename_i opened
    have blocked : port.account.blocked = false := by
      simp only [Port.unblocked, Bool.and_eq_true, Bool.not_eq_true'] at unblocked
      exact unblocked.1
    obtain ⟨multiplexer, rfcState⟩ :=
      sendFrame_multiplexer { port with handed := port.handed ++ [buffer] } buffer
    refine handed.trans ⟨⟨?_, ?_, fun unopened => absurd opened unopened⟩, rfcState⟩
    · intro credited
      rw [usesCredits, multiplexer]
      exact ⟨credited, .single ⟨blocked, sendFrame_account credited buffer⟩⟩
    · intro agreed
      rw [usesTs710, multiplexer]
      exact agreed
  · exact handed

theorem Move.proceeds {port : Port} (moved : Move port next) : Proceeds port next := by
  cases moved with
  | quiet quiet => exact quiet.proceeds
  | @send buffer rest unblocked dequeued =>
    have dropped : Proceeds port { port with tx := { port.tx with queue := rest } } :=
      ⟨.of_fields rfl rfl rfl, rfl⟩
    have still : Port.unblocked { port with tx := { port.tx with queue := rest } } = true :=
      unblocked
    exact dropped.trans (dataReq_proceeds still buffer)

theorem Transmit.proceeds {port : Port} (moved : Transmit port next) :
    Proceeds port next := by
  cases moved with
  | move moved => exact moved.proceeds
  | store => exact ⟨.of_fields rfl rfl rfl, rfl⟩
  | send unblocked buffer => exact dataReq_proceeds unblocked buffer

theorem Transmits.proceeds {port : Port} (moves : Transmits port next) :
    Proceeds port next := by
  induction moves with
  | refl => exact .refl port
  | tail _ moved ih => exact ih.trans moved.proceeds

theorem Moves.proceeds {port : Port} (moves : Moves port next) : Proceeds port next :=
  moves.transmits.proceeds

/-! ## Handlers that neither negotiate nor grant -/

theorem setPeerReady_proceeds (enable : Bool) :
    Proceeds port
      { port with
        multiplexer := port.multiplexer.map fun mcb => { mcb with peerReady := enable } } := by
  refine ⟨⟨?_, ?_, fun _ => rfl⟩, rfl⟩
  · intro credited
    refine ⟨?_, .refl⟩
    simpa only [usesCredits, Option.any_map] using credited
  · intro agreed
    simpa only [usesTs710, Option.any_map] using agreed

theorem aggregateFlowInd_proceeds (enable : Bool) : Proceeds port (port.aggregateFlowInd enable) :=
  (setPeerReady_proceeds port enable).trans (aggregateFlowInd_moves port enable).proceeds

theorem processMscCommand_proceeds (pars : ModemControl) :
    Proceeds port (port.processMscCommand pars) := by
  refine Proceeds.trans ?_ (controlInd_moves _ pars).proceeds
  rcases obeyFlowBit_moves port pars.fc with ⟨_, same⟩ | ⟨uncredited, moves⟩
  · rw [same]
    exact .refl port
  · refine Proceeds.trans ?_ moves.proceeds
    refine ⟨⟨?_, id, fun _ => rfl⟩, rfl⟩
    intro credited
    rw [uncredited] at credited
    cases credited

theorem parNegReq_proceeds (mcb : Multiplexer) : Proceeds port (port.parNegReq mcb) := by
  unfold parNegReq
  split <;> exact ⟨.of_fields rfl rfl rfl, rfl⟩

end

/-! ## Handlers that change the state of the connection -/

/-- Nothing that the account depends on is written. -/
structure Still (port next : Port) : Prop where
  multiplexer : next.multiplexer = port.multiplexer
  account : next.account = port.account
  frames : next.frames = port.frames

theorem Still.trans {port middle : Port} (first : Still port middle) (second : Still middle next) :
    Still port next where
  multiplexer := second.multiplexer.trans first.multiplexer
  account := second.account.trans first.account
  frames := second.frames.trans first.frames

theorem Still.pays {port : Port} (still : Still port next) : Pays port next :=
  .of_fields still.multiplexer still.account still.frames

theorem Reconnects.still {port : Port} (moved : Reconnects port next) : Still port next := by
  cases moved
  exact ⟨rfl, rfl, rfl⟩

theorem sabme_pays (port : Port) (found : Multiplexer) :
    Pays port
      { port with
        multiplexer := some (port.multiplexer.getD found)
        rfcState := .termWaitSecCheck } := by
  cases attached : port.multiplexer with
  | none =>
    refine ⟨?_, ?_, fun _ => rfl⟩
    · intro credited
      rw [usesCredits, attached] at credited
      cases credited
    · intro agreed
      rw [usesTs710, attached] at agreed
      cases agreed
  | some mcb => exact .of_fields attached.symm rfl rfl

/-! ## Negotiations -/

theorem negotiateFlow_cases (mcb : Multiplexer) (creditBased : Bool) :
    (mcb.negotiateFlow creditBased).flow = .credit ∨
      (mcb.negotiateFlow creditBased).flow = .ts710 := by
  unfold Multiplexer.negotiateFlow
  split
  · cases creditBased with
    | false => exact .inr rfl
    | true => exact .inl rfl
  · rename_i agreed
    cases flow : mcb.flow with
    | undefined => exact absurd flow agreed
    | ts710 => exact .inr rfl
    | credit => exact .inl rfl

theorem negotiateFlow_kept {multiplexer : Option Multiplexer} {flow : Flow}
    (agreed : multiplexer.any (·.flow = flow) = true) (settled : flow ≠ .undefined)
    (found : Multiplexer) (creditBased : Bool) :
    ((multiplexer.getD found).negotiateFlow creditBased).flow = flow := by
  obtain ⟨mcb, attached, same⟩ := (any_eq_true _ _).mp agreed
  have same : mcb.flow = flow := of_decide_eq_true same
  rw [attached, getD_some, Multiplexer.negotiateFlow, if_neg (same ▸ settled), same]

/-- What a step does that sets the counter of credits. -/
structure Restarts (k : Nat) (port next : Port) : Prop where
  credited : next.usesCredits = true
  account : next.account = port.account.restart k

/-- A negotiation with credits sets the counter; without credits it writes other fields. -/
theorem parNegInd_cases (port : Port) (found : Multiplexer) (mtu : Nat) (creditBased : Bool)
    (k : Nat) :
    let next := port.parNegInd found mtu creditBased k
    next.rfcState = port.rfcState ∧
      ((creditBased = true ∧ next.usesCredits = true ∧ Restarts k port next) ∨
        (¬ (creditBased = true ∧ next.usesCredits = true) ∧ Pays port next)) := by
  intro next
  by_cases granted : creditBased = true ∧
      ((port.multiplexer.getD found).negotiateFlow creditBased).flow = .credit
  · have shape : next = { (port.selectMtu.negotiate
        ((port.multiplexer.getD found).negotiateFlow creditBased) mtu).getCredits k with
        creditRx := min port.selectMtu.creditRxMax maxK } := if_pos granted
    have credited : next.usesCredits = true := by
      rw [shape]
      exact decide_eq_true granted.2
    rw [shape] at credited ⊢
    exact ⟨rfl, .inl ⟨granted.1, credited, credited, rfl⟩⟩
  · have shape : next = port.selectMtu.negotiate
        ((port.multiplexer.getD found).negotiateFlow creditBased) mtu := if_neg granted
    rw [shape]
    refine ⟨rfl, .inr ⟨?_, ?_, ?_, fun _ => rfl⟩⟩
    · rintro ⟨offered, credited⟩
      exact granted ⟨offered, of_decide_eq_true credited⟩
    · intro credited
      have kept := negotiateFlow_kept credited (by rintro ⟨⟩) found creditBased
      exact ⟨decide_eq_true kept, .refl⟩
    · intro agreed
      exact decide_eq_true (negotiateFlow_kept agreed (by rintro ⟨⟩) found creditBased)

theorem parNegCnf_cases {port : Port} (attached : port.multiplexer = some mcb) (mtu : Nat)
    (creditBased : Bool) (k : Nat) :
    let next := port.parNegCnf mcb mtu creditBased k
    (next.usesCredits = true ∧ Restarts k port next ∧
        (next.rfcState = port.rfcState ∨ next.rfcState = .origWaitSecCheck)) ∨
      (next.usesCredits = false ∧ next.usesTs710 = true ∧ Pays port next ∧
        (next.rfcState = port.rfcState ∨ next.rfcState = .origWaitSecCheck)) := by
  intro next
  rcases negotiateFlow_cases mcb creditBased with credit | ts710
  · refine .inl ?_
    have shape : next = if port.state = .opening ∧ port.rfcState = .closed then
        { (port.negotiate (mcb.negotiateFlow creditBased) mtu).getCredits k with
          rfcState := .origWaitSecCheck }
        else (port.negotiate (mcb.negotiateFlow creditBased) mtu).getCredits k := by
      change parNegCnf port mcb mtu creditBased k = _
      unfold parNegCnf
      dsimp only
      rw [if_pos credit]
      rfl
    rw [shape]
    split
    · exact ⟨decide_eq_true credit, ⟨decide_eq_true credit, rfl⟩, .inr rfl⟩
    · exact ⟨decide_eq_true credit, ⟨decide_eq_true credit, rfl⟩, .inl rfl⟩
  · refine .inr ?_
    have other : (mcb.negotiateFlow creditBased).flow ≠ .credit := by
      rw [ts710]
      rintro ⟨⟩
    have uncredited : port.usesCredits ≠ true := by
      intro credited
      have kept := negotiateFlow_kept credited (by rintro ⟨⟩) mcb creditBased
      rw [attached, getD_some] at kept
      exact other kept
    have shape : next = if port.state = .opening ∧ port.rfcState = .closed then
        { port.negotiate (mcb.negotiateFlow creditBased) mtu with rfcState := .origWaitSecCheck }
        else port.negotiate (mcb.negotiateFlow creditBased) mtu := by
      change parNegCnf port mcb mtu creditBased k = _
      unfold parNegCnf
      dsimp only
      rw [if_neg other]
      rfl
    rw [shape]
    split <;> refine ⟨decide_eq_false other, decide_eq_true ts710,
      ⟨fun credited => absurd credited uncredited, fun _ => decide_eq_true ts710, fun _ => rfl⟩, ?_⟩
    · exact .inr rfl
    · exact .inl rfl

end Port

namespace Session

open Port

/-! ## The receive path leaves the account alone -/

/-- Nothing that the books of the transmit path depend on is written. -/
structure Aside (session next : Session) : Prop where
  still : Still session.port next.port
  rfcState : next.port.rfcState = session.port.rfcState
  granted : next.granted = session.granted
  negotiations : next.negotiations = session.negotiations

namespace Aside

variable {self middle next : Session}

theorem refl (self : Session) : Aside self self := ⟨⟨rfl, rfl, rfl⟩, rfl, rfl, rfl⟩

theorem trans (first : Aside self middle) (second : Aside middle next) :
    Aside self next where
  still := first.still.trans second.still
  rfcState := second.rfcState.trans first.rfcState
  granted := second.granted.trans first.granted
  negotiations := second.negotiations.trans first.negotiations

end Aside

section

variable (self : Session)

theorem setRx_aside (rx : PortData) : Aside self (self.setRx rx) :=
  ⟨⟨rfl, rfl, rfl⟩, rfl, rfl, rfl⟩

theorem notify_aside (events : UInt32) :
    Aside self (self.notify events) :=
  ⟨(notify_quiet _ _).reconnects.still, (notify_quiet _ _).proceeds.rfcState, rfl, rfl⟩

section

variable (enable : Bool)

theorem flowReq_aside : Aside self (self.flowReq enable) := by
  unfold flowReq
  split
  · exact ⟨⟨rfl, rfl, rfl⟩, rfl, rfl, rfl⟩
  · exact .refl self

theorem returnCredits_aside (count : Nat) :
    Aside self (self.returnCredits count) := by
  unfold returnCredits
  dsimp only
  split <;> exact ⟨⟨rfl, rfl, rfl⟩, rfl, rfl, rfl⟩

theorem flowCredits_aside (count : Nat) : Aside self (self.flowCredits enable count) := by
  unfold flowCredits
  split
  · exact returnCredits_aside self count
  · split
    · exact setRx_aside self _
    · exact .refl self

theorem flowTs710_aside : Aside self (self.flowTs710 enable) := by
  unfold flowTs710
  dsimp only
  split
  · split
    · split
      · exact setRx_aside self _
      · exact (setRx_aside self _).trans (flowReq_aside _ true)
    · exact .refl self
  · split
    · exact (setRx_aside self _).trans (flowReq_aside _ false)
    · exact .refl self

theorem flowControlPeer_aside (count : Nat) :
    Aside self (self.flowControlPeer enable count) := by
  unfold flowControlPeer
  split
  · exact .refl self
  · split
    · exact flowCredits_aside self enable count
    · exact flowTs710_aside self enable

theorem enqueue_aside (payload : List UInt8) :
    Aside self (self.enqueue payload) := by
  have checked := (setRx_aside self
    { self.port.rx with queue := self.port.rx.queue.enqueue payload }).trans
    (flowControlPeer_aside _ false 0)
  unfold enqueue
  dsimp only
  split
  · exact checked.trans ⟨⟨rfl, rfl, rfl⟩, rfl, rfl, rfl⟩
  · exact checked.trans (notify_aside _ _)

theorem dataInd_aside (payload : List UInt8) (taken : Bool) :
    Aside self (self.dataInd payload taken) := by
  unfold dataInd
  split
  · split
    · exact flowControlPeer_aside self true 1
    · refine Aside.trans ?_ (flowControlPeer_aside _ false 0)
      exact ⟨⟨rfl, rfl, rfl⟩, rfl, rfl, rfl⟩
  · split
    · exact flowControlPeer_aside self true 1
    · split
      · exact .refl self
      · exact enqueue_aside self payload

theorem readData_aside (maxLength : Nat) :
    Aside self (self.readData maxLength).1 := by
  unfold readData
  dsimp only
  split
  · exact .refl self
  · exact (setRx_aside self _).trans (flowControlPeer_aside _ true _)

theorem applyUserFc_aside : Aside self self.applyUserFc := by
  unfold applyUserFc
  dsimp only
  split
  · split
    · exact .refl self
    · exact flowControlPeer_aside self true _
  · split
    · exact ⟨(controlReq_quiet _).reconnects.still, (controlReq_quiet _).proceeds.rfcState, rfl, rfl⟩
    · exact .refl self

theorem flowControlMaxCredit_aside : Aside self (self.flowControlMaxCredit enable) := by
  have applied := (setRx_aside self { self.port.rx with userFc := !enable }).trans
    (applyUserFc_aside _)
  unfold flowControlMaxCredit
  dsimp only
  split
  · exact .refl self
  · split
    · refine applied.trans (Aside.trans ?_ (notify_aside _ _))
      exact ⟨⟨rfl, rfl, rfl⟩, rfl, rfl, rfl⟩
    · exact applied

end

theorem lineStatusInd_aside (status : UInt8) :
    Aside self (self.lineStatusInd status) := by
  refine Aside.trans ?_ (notify_aside _ _)
  exact ⟨⟨rfl, rfl, rfl⟩, rfl, rfl, rfl⟩

theorem setDataCOCallback_aside (registered : Bool) :
    Aside self (self.setDataCOCallback registered) := by
  unfold setDataCOCallback
  split
  · exact .refl self
  · exact ⟨⟨rfl, rfl, rfl⟩, rfl, rfl, rfl⟩

theorem receive_aside (payload : List UInt8) (taken : Bool) :
    Aside self (self.receive payload taken) := by
  have spent : Aside self { self with peerCredits := self.peerCredits - 1 } :=
    ⟨⟨rfl, rfl, rfl⟩, rfl, rfl, rfl⟩
  unfold receive
  split
  · exact .refl self
  · split
    · exact spent.trans (dataInd_aside _ payload taken)
    · exact spent

end

/-! ## The books of the transmit path -/

/-- Before a negotiation with credits nothing is granted and nothing is sent. -/
structure Unnegotiated (session : Session) : Prop where
  negotiations : session.negotiations = 0
  granted : session.granted = 0
  unsent : session.port.frames = []
  unopened : session.port.rfcState ≠ .opened
  waiting : session.port.rfcState = .origWaitSecCheck ∨ session.port.rfcState = .sabmeWaitUa →
    session.port.usesTs710 = true

/-- After it the frames are covered, and the account is exact if it cannot wrap. -/
structure Covered (roomy : Prop) (session : Session) : Prop where
  negotiated : 0 < session.negotiations
  credited : session.port.usesCredits = true
  within : Within session.granted session.port.account
  precise : roomy → session.negotiations = 1 → Exact session.granted session.port.account

/-- The books of the transmit path are in order. -/
def Booked (roomy : Prop) (self : Session) : Prop :=
  self.Unnegotiated ∨ self.Covered roomy

variable {roomy : Prop} {self next : Session}

theorem Unnegotiated.aside (books : self.Unnegotiated) (aside : Aside self next) :
    next.Unnegotiated where
  negotiations := aside.negotiations.trans books.negotiations
  granted := aside.granted.trans books.granted
  unsent := aside.still.frames.trans books.unsent
  unopened := aside.rfcState.symm ▸ books.unopened
  waiting := by
    rw [aside.rfcState, usesTs710, aside.still.multiplexer]
    exact books.waiting

theorem Covered.aside (books : self.Covered roomy) (aside : Aside self next) :
    next.Covered roomy where
  negotiated := aside.negotiations.symm ▸ books.negotiated
  credited := by
    rw [usesCredits, aside.still.multiplexer]
    exact books.credited
  within := by
    rw [aside.granted, aside.still.account]
    exact books.within
  precise := by
    rw [aside.granted, aside.still.account, aside.negotiations]
    exact books.precise

theorem Booked.aside (books : self.Booked roomy) (aside : Aside self next) :
    next.Booked roomy := by
  rcases books with unnegotiated | covered
  · exact .inl (unnegotiated.aside aside)
  · exact .inr (covered.aside aside)

theorem Covered.incCredit (books : self.Covered roomy) (some_credit : credit ≠ 0)
    (room : roomy → self.granted + credit.toNat - self.port.frames.length < 2 ^ 16) :
    (self.account (.incCredit credit) (self.port.incCredit credit)).Covered roomy := by
  have positive : 0 < credit.toNat := by
    refine Nat.pos_of_ne_zero fun zero => some_credit ?_
    exact UInt8.toNat_inj.mp zero
  have credited : usesCredits
      { self.port with
        creditTx := (self.port.creditTx + credit.toNat) % 2 ^ 16
        tx := { self.port.tx with peerFc := false } } = true := books.credited
  obtain ⟨still, spends⟩ :=
    (incCredit_moves books.credited credit).proceeds.credit credited
  constructor
  · exact books.negotiated
  · exact still
  · exact (books.within.grant positive).spends spends
  · intro roomy_ once
    exact ((books.precise roomy_ once).grant positive (room roomy_)).spends spends

theorem Covered.pays (books : self.Covered roomy) (pays : Pays self.port next.port)
    (granted : next.granted = self.granted)
    (negotiations : next.negotiations = self.negotiations) : next.Covered roomy := by
  obtain ⟨credited, spends⟩ := pays.credit books.credited
  constructor
  · exact negotiations.symm ▸ books.negotiated
  · exact credited
  · exact granted.symm ▸ books.within.spends spends
  · intro roomy_ once
    exact granted.symm ▸ (books.precise roomy_ (negotiations ▸ once)).spends spends

theorem Unnegotiated.pays (books : self.Unnegotiated) (pays : Pays self.port next.port)
    (granted : next.granted = self.granted)
    (negotiations : next.negotiations = self.negotiations)
    (unopened : next.port.rfcState ≠ .opened)
    (waiting : next.port.rfcState = .origWaitSecCheck ∨ next.port.rfcState = .sabmeWaitUa →
      next.port.usesTs710 = true ∨ self.port.rfcState = .origWaitSecCheck ∨
        self.port.rfcState = .sabmeWaitUa) :
    next.Unnegotiated where
  negotiations := negotiations.trans books.negotiations
  granted := granted.trans books.granted
  unsent := (pays.silent books.unopened).trans books.unsent
  unopened := unopened
  waiting := by
    intro waits
    rcases waiting waits with agreed | before
    · exact agreed
    · exact pays.ts710 (books.waiting before)

theorem Booked.proceeds (books : self.Booked roomy)
    (proceeds : Proceeds self.port next.port) (granted : next.granted = self.granted)
    (negotiations : next.negotiations = self.negotiations) : next.Booked roomy := by
  rcases books with unnegotiated | covered
  · refine .inl (unnegotiated.pays proceeds.toPays granted negotiations ?_ ?_)
    · exact proceeds.rfcState.symm ▸ unnegotiated.unopened
    · exact fun waits => .inr (proceeds.rfcState ▸ waits)
  · exact .inr (covered.pays proceeds.toPays granted negotiations)

theorem Booked.restarts (books : self.Booked roomy) {k : Nat}
    (restarts : Restarts k self.port next.port) (granted : next.granted = self.granted + k)
    (negotiations : next.negotiations = self.negotiations + 1) : next.Booked roomy := by
  refine .inr ?_
  have positive : 0 < next.negotiations := negotiations.symm ▸ Nat.succ_pos _
  rcases books with unnegotiated | covered
  · have unspent : self.port.account.spent = 0 :=
      congrArg List.length unnegotiated.unsent
    refine ⟨positive, restarts.credited, ?_, fun _ _ => ?_⟩
    · rw [granted, restarts.account]
      exact Within.restart (unspent.symm ▸ Nat.zero_le _) k
    · rw [granted, restarts.account, unnegotiated.granted, Nat.zero_add]
      exact Exact.restart unspent k
  · refine ⟨positive, restarts.credited, ?_, fun _ once => ?_⟩
    · rw [granted, restarts.account]
      exact Within.restart covered.within.spent_le k
    · have before := covered.negotiated
      omega

/-! ## Runs -/

/--
The conditions on a step.  The flow of the port is credit based when the peer
accepts its connection; a connection of the peer is established, and credits
arrive, only after a negotiation with credits.
-/
def NegotiatedFirst (self : Session) : Event → Prop
  | .port (.secComplete _) =>
    self.port.rfcState = .termWaitSecCheck → 0 < self.negotiations
  | .port (.ua _) => self.port.usesCredits = true
  | .bufDataInd _ credit _ => credit ≠ 0 → 0 < self.negotiations
  | _ => True

/-- The credits that were granted and not used stay below the modulus of the counter. -/
def RoomForCredit (self : Session) : Event → Prop
  | .bufDataInd _ credit _ =>
    self.granted + credit.toNat - self.port.frames.length < 2 ^ 16
  | _ => True

section

variable (books : self.Booked roomy)
include books

theorem Booked.bufDataInd {payload : List UInt8} {taken : Bool}
    (negotiated : credit ≠ 0 → 0 < self.negotiations)
    (room : roomy → self.granted + credit.toNat - self.port.frames.length < 2 ^ 16) :
    (self.bufDataInd payload credit taken).Booked roomy := by
  have aside := receive_aside self payload taken
  unfold Session.bufDataInd
  split
  · rename_i some_credit
    rcases books with unnegotiated | covered
    · have first := negotiated some_credit
      rw [unnegotiated.negotiations] at first
      cases first
    · refine .inr ((covered.aside aside).incCredit some_credit ?_)
      rw [aside.granted, aside.still.frames]
      exact room
  · exact books.aside aside

theorem Booked.secComplete {port : Port}
    (negotiated : self.port.rfcState = .termWaitSecCheck → 0 < self.negotiations)
    (completed : self.port.secComplete mtu = some port) :
    (self.account (.secComplete mtu) port).Booked roomy := by
  unfold Port.secComplete at completed
  split at completed
  · rename_i waits
    cases completed
    have still : Still self.port { self.port with rfcState := .sabmeWaitUa } :=
      ⟨rfl, rfl, rfl⟩
    rcases books with unnegotiated | covered
    · refine .inl (unnegotiated.pays still.pays rfl rfl (by rintro ⟨⟩) ?_)
      exact fun _ => .inr (.inl waits)
    · exact .inr (covered.pays still.pays rfl rfl)
  · rename_i waits
    cases completed
    rcases books with unnegotiated | covered
    · have first := negotiated waits
      rw [unnegotiated.negotiations] at first
      cases first
    · exact .inr (covered.pays (dlcEstablishInd_reconnects self.port mtu).still.pays rfl rfl)
  · cases completed

theorem Booked.ua (credited : self.port.usesCredits = true)
    (waits : self.port.rfcState = .sabmeWaitUa) :
    (self.account (.ua mtu)
      (dlcEstablishCnf { self.port with rfcState := .opened } mtu)).Booked roomy := by
  have opened : Still self.port { self.port with rfcState := .opened } := ⟨rfl, rfl, rfl⟩
  have pays := (opened.trans (dlcEstablishCnf_reconnects _ mtu).still).pays
  rcases books with unnegotiated | covered
  · have agreed := unnegotiated.waiting (.inr waits)
    obtain ⟨mcb, attached, ts710⟩ := (any_eq_true _ _).mp agreed
    rw [usesCredits, attached, Option.any_some, of_decide_eq_true ts710] at credited
    cases credited
  · exact .inr (covered.pays pays rfl rfl)

section

omit books

variable {event : Port.Event} {port : Port} (grants : (self.account event port).granted =
    self.granted + (negotiated self.port port event).getD 0)
include grants

theorem account_of_some {k : Nat} (entry : negotiated self.port port event = some k) :
    (self.account event port).granted = self.granted + k ∧
      (self.account event port).negotiations = self.negotiations + 1 := by
  rw [grants, entry]
  exact ⟨rfl, if_pos (entry ▸ rfl)⟩

theorem account_of_none (entry : negotiated self.port port event = none) :
    (self.account event port).granted = self.granted ∧
      (self.account event port).negotiations = self.negotiations := by
  rw [grants, entry]
  exact ⟨rfl, if_neg (entry ▸ Bool.false_ne_true)⟩

end

theorem Booked.parNegInd (found : Multiplexer) (mtu : Nat) (creditBased : Bool) (k : Nat) :
    (self.account (.parNegInd found mtu creditBased k)
      (self.port.parNegInd found mtu creditBased k)).Booked roomy := by
  obtain ⟨rfcState, outcome⟩ := parNegInd_cases self.port found mtu creditBased k
  rcases outcome with ⟨offered, credited, restarts⟩ | ⟨refused, pays⟩
  · have entry : negotiated self.port (self.port.parNegInd found mtu creditBased k)
        (.parNegInd found mtu creditBased k) = some k := if_pos ⟨offered, credited⟩
    obtain ⟨granted, negotiations⟩ := account_of_some rfl entry
    exact books.restarts restarts granted negotiations
  · have entry : negotiated self.port (self.port.parNegInd found mtu creditBased k)
        (.parNegInd found mtu creditBased k) = none := if_neg refused
    obtain ⟨granted, negotiations⟩ := account_of_none rfl entry
    exact books.proceeds ⟨pays, rfcState⟩ granted negotiations

theorem Booked.parNegCnf (attached : self.port.multiplexer = some mcb) (mtu : Nat)
    (creditBased : Bool) (k : Nat) :
    (self.account (.parNegCnf mtu creditBased k)
      (self.port.processPnResponse mcb mtu creditBased k)).Booked roomy := by
  by_cases expected : self.port.expectsPn = true
  · rw [processPnResponse, if_pos expected]
    have answered : Still self.port { self.port with expectsPn := false } := ⟨rfl, rfl, rfl⟩
    rcases parNegCnf_cases (answered.multiplexer.trans attached) mtu creditBased k with
      ⟨credited, restarts, _⟩ | ⟨uncredited, agreed, pays, rfcState⟩
    · have entry : negotiated self.port
          (Port.parNegCnf { self.port with expectsPn := false } mcb mtu creditBased k)
          (.parNegCnf mtu creditBased k) = some k := if_pos ⟨expected, credited⟩
      obtain ⟨granted, negotiations⟩ := account_of_some rfl entry
      exact books.restarts ⟨restarts.credited, restarts.account⟩ granted negotiations
    · have entry : negotiated self.port
          (Port.parNegCnf { self.port with expectsPn := false } mcb mtu creditBased k)
          (.parNegCnf mtu creditBased k) = none := if_neg (by simp [uncredited])
      obtain ⟨granted, negotiations⟩ := account_of_none rfl entry
      have paid : Pays self.port
          (Port.parNegCnf { self.port with expectsPn := false } mcb mtu creditBased k) :=
        ⟨pays.credit, pays.ts710, pays.silent⟩
      rcases books with unnegotiated | covered
      · refine .inl (unnegotiated.pays paid granted negotiations ?_ fun _ => .inl agreed)
        rcases rfcState with same | waits
        · exact fun opened => unnegotiated.unopened (same.symm.trans opened)
        · change Port.rfcState (Port.parNegCnf _ _ _ _ _) ≠ _
          rw [waits]
          rintro ⟨⟩
      · exact .inr (covered.pays paid granted negotiations)
  · have entry : negotiated self.port (self.port.processPnResponse mcb mtu creditBased k)
        (.parNegCnf mtu creditBased k) = none := if_neg fun both => expected both.1
    obtain ⟨granted, negotiations⟩ := account_of_none rfl entry
    refine books.proceeds ?_ granted negotiations
    rw [processPnResponse, if_neg expected]
    exact .refl _

theorem Booked.port {event : Port.Event} {port : Port} (frame : wellFormed event = true)
    (first : self.NegotiatedFirst (.port event)) (moved : self.port.step event = some port) :
    (self.account event port).Booked roomy := by
  cases event with
  | multiplexerConnected =>
    obtain ⟨mcb, attached, rfl⟩ := map_eq_some_iff.mp moved
    have ready := setPeerReady_proceeds self.port true
    rw [attached] at ready
    exact books.proceeds ready rfl rfl
  | parNegReq =>
    obtain ⟨mcb, _, rfl⟩ := map_eq_some_iff.mp moved
    exact books.proceeds (parNegReq_proceeds self.port mcb) rfl rfl
  | parNegInd found mtu creditBased k =>
    cases moved
    exact books.parNegInd found mtu creditBased k
  | parNegCnf mtu creditBased k =>
    obtain ⟨mcb, attached, rfl⟩ := map_eq_some_iff.mp moved
    exact books.parNegCnf attached mtu creditBased k
  | sabme found =>
    obtain ⟨_, rfl⟩ := guarded_eq_some.mp moved
    have pays := sabme_pays self.port found
    rcases books with unnegotiated | covered
    · refine .inl (unnegotiated.pays pays rfl rfl (by rintro ⟨⟩) ?_)
      rintro (⟨⟨⟩⟩ | ⟨⟨⟩⟩)
    · exact .inr (covered.pays pays rfl rfl)
  | secComplete mtu => exact books.secComplete first moved
  | ua mtu =>
    obtain ⟨waits, rfl⟩ := guarded_eq_some.mp moved
    exact books.ua first waits
  | portNegCnf =>
    obtain ⟨_, rfl⟩ := guarded_eq_some.mp moved
    exact books.proceeds (portNegCnf_moves self.port).proceeds rfl rfl
  | mscCommand pars =>
    obtain ⟨_, rfl⟩ := guarded_eq_some.mp moved
    exact books.proceeds (processMscCommand_proceeds self.port pars) rfl rfl
  | mscResponse =>
    obtain ⟨_, rfl⟩ := guarded_eq_some.mp moved
    exact books.proceeds (processMscResponse_moves self.port).proceeds rfl rfl
  | aggregateFlowInd enable =>
    obtain ⟨_, rfl⟩ := guarded_eq_some.mp moved
    exact books.proceeds (aggregateFlowInd_proceeds self.port enable) rfl rfl
  | incCredit credit => cases frame
  | removeConnection =>
    obtain ⟨_, rfl⟩ := guarded_eq_some.mp moved
    have pays := (removeConnection_reconnects self.port).still.pays
    rcases books with unnegotiated | covered
    · refine .inl (unnegotiated.pays pays rfl rfl (by rintro ⟨⟩) ?_)
      rintro (⟨⟨⟩⟩ | ⟨⟨⟩⟩)
    · exact .inr (covered.pays pays rfl rfl)
  | writeData data =>
    cases moved
    exact books.proceeds (writeData_transmits self.port data).proceeds rfl rfl
  | writeDataCO offered reads =>
    cases moved
    exact books.proceeds (writeDataCO_transmits self.port offered reads).proceeds rfl rfl

theorem Booked.step {event : Event}
    (guarded : self.NegotiatedFirst event ∧ (roomy → self.RoomForCredit event))
    (moved : self.step event = some next) : next.Booked roomy := by
  cases event with
  | port event =>
    obtain ⟨frame, moved⟩ := ite_none_right_eq_some.mp moved
    obtain ⟨port, stepped, rfl⟩ := map_eq_some_iff.mp moved
    exact books.port frame guarded.1 stepped
  | bufDataInd payload credit taken =>
    obtain ⟨_, rfl⟩ := guarded_eq_some.mp moved
    exact books.bufDataInd guarded.1 guarded.2
  | readData maxLength =>
    cases moved
    exact books.aside (readData_aside self maxLength)
  | flowControlMaxCredit enable =>
    cases moved
    exact books.aside (flowControlMaxCredit_aside self enable)
  | lineStatusInd status =>
    obtain ⟨_, rfl⟩ := guarded_eq_some.mp moved
    exact books.aside (lineStatusInd_aside self status)
  | setDataCOCallback registered =>
    cases moved
    exact books.aside (setDataCOCallback_aside self registered)
  | flushIncomingQue count =>
    cases moved
    exact books.aside ⟨⟨rfl, rfl, rfl⟩, rfl, rfl, rfl⟩

end

variable {isServer usesRpn hasCallback hasDataCallback hasDataCOCallback : Bool}
  {requestedMtu : Nat} {multiplexer : Option Multiplexer} {evMask : UInt32} {rxChar : UInt8}

theorem opening_booked (roomy : Prop) :
    (opening (Port.opening isServer usesRpn requestedMtu multiplexer hasCallback evMask)
      hasDataCallback hasDataCOCallback rxChar).Booked roomy := by
  refine .inl ?_
  cases isServer with
  | false | true => exact ⟨rfl, rfl, rfl, by rintro ⟨⟩, by rintro (⟨⟨⟩⟩ | ⟨⟨⟩⟩)⟩

instance (self : Session) (event : Event) : Decidable (self.NegotiatedFirst event) := by
  unfold NegotiatedFirst
  split <;> infer_instance

instance (self : Session) (event : Event) : Decidable (self.RoomForCredit event) := by
  unfold RoomForCredit
  split <;> infer_instance

/--
The data frames sent never exceed the credits granted in negotiations and in
frames of the peer.  After a single negotiation, and if the counter does not
wrap, it shows exactly the credits left, and at zero the port is blocked.
-/
theorem frames_within_credits {events : List Event} {self : Session}
    (guarded : Along step NegotiatedFirst
      (opening (Port.opening isServer usesRpn requestedMtu multiplexer hasCallback evMask)
        hasDataCallback hasDataCOCallback rxChar) events)
    (reached : run step
      (opening (Port.opening isServer usesRpn requestedMtu multiplexer hasCallback evMask)
        hasDataCallback hasDataCOCallback rxChar) events = some self) :
    self.port.frames.length ≤ self.granted ∧ (Along step RoomForCredit
          (opening (Port.opening isServer usesRpn requestedMtu multiplexer hasCallback evMask)
            hasDataCallback hasDataCOCallback rxChar) events → self.negotiations = 1 →
        self.port.creditTx = self.granted - self.port.frames.length ∧
          (self.port.creditTx = 0 → self.port.tx.peerFc = true)) := by
  constructor
  · have books : self.Booked False := by
      refine invariant_along (fun _ _ _ books first moved => books.step ⟨first, ?_⟩ moved)
        (opening_booked False) guarded reached
      rintro ⟨⟩
    rcases books with unnegotiated | covered
    · rw [unnegotiated.unsent]
      exact Nat.zero_le _
    · exact covered.within.spent_le
  · intro roomy once
    have books : self.Booked True :=
      invariant_along (fun _ _ _ books conditions moved =>
        books.step ⟨conditions.1, fun _ => conditions.2⟩ moved)
        (opening_booked True) (along_and guarded roomy) reached
    rcases books with unnegotiated | covered
    · rw [unnegotiated.negotiations] at once
      cases once
    · have precise := covered.precise trivial once
      have balanced : self.port.frames.length + self.port.creditTx = self.granted :=
        precise.balanced
      exact ⟨by omega, precise.blocks⟩

/-- A server whose multiplexer has agreed on credits for another channel. -/
def server : Session :=
  opening (Port.opening true false 0 none true 0) false false 0

/-- The peer negotiates with the server, connects and lets it send; then what follows. -/
def serverOpens (creditBased : Bool) (k : Nat) (following : List Event) : List Event :=
  [.port (.parNegInd ⟨true, .credit⟩ 100 creditBased k), .port (.sabme ⟨true, .credit⟩),
    .port (.secComplete 0), .port (.mscCommand ⟨0x0b, 0, false⟩), .port .mscResponse] ++ following

theorem frames_within_credits_twoFrames :
    ∃ self, run step server (serverOpens true 1 [.port (.writeData [1]),
        .port (.writeData [2]), .bufDataInd [] 1 false, .port (.writeData [3])]) = some self ∧
      self.port.frames.map DataFrame.payload = [[1], [2]] ∧
      self.port.tx.queue.buffers = [[3]] ∧ self.port.frames.length ≤ self.granted ∧
      self.port.creditTx = self.granted - self.port.frames.length ∧
      self.port.tx.peerFc = true := by
  have law := frames_within_credits (show Along step NegotiatedFirst server
    (serverOpens true 1 [.port (.writeData [1]), .port (.writeData [2]), .bufDataInd [] 1 false,
      .port (.writeData [3])]) by decide) rfl
  refine ⟨_, rfl, rfl, rfl, law.1, ?_⟩
  obtain ⟨balanced, blocks⟩ := law.2 (by decide) rfl
  exact ⟨balanced, blocks rfl⟩

/-- Without a negotiation of credits the first frame is sent on none. -/
theorem uncredited_frame_sent :
    ∃ self, run step server (serverOpens false 0 [.port (.writeData [1])]) = some self ∧
      self.port.usesCredits = true ∧ self.port.frames.map DataFrame.payload = [[1]] ∧
      self.granted = 0 ∧ ¬ self.port.frames.length ≤ self.granted := by
  refine ⟨_, rfl, rfl, rfl, rfl, by decide⟩

end Session

end BluetoothFormal.Rfcomm
