import BluetoothFormal.Rfcomm.PortMoves

/-!
# The byte stream of an RFCOMM port

The bytes that write calls accepted are the bytes handed to the RFCOMM layer
followed by the bytes still queued.  Every handler keeps this: a drained buffer
moves from the head of the queue to the end of what was handed over.  A write
that is sent at once keeps it only if nothing is queued, which the flags do not
ensure: a modem status command that arrives before the port's own command is
confirmed lets writes pass the queue.
-/

namespace BluetoothFormal.Rfcomm.Port

open Foundation Foundation.Transition Option List

/-- The bytes handed over and then those still queued. -/
def outbound (port : Port) : List UInt8 := port.handed.flatten ++ port.tx.queue.stream

/-- Every accepted byte was handed over or is queued, in the order of acceptance. -/
def Ordered (port : Port) : Prop := port.accepted = port.outbound

/-- A write that is sent at once passes no queued byte. -/
def Prompt (port : Port) : Prop := port.direct = true → port.tx.queue.stream = []

/-- The stream of the port is the same before and after. -/
structure Carries (port next : Port) : Prop where
  accepted : next.accepted = port.accepted
  outbound : next.outbound = port.outbound

namespace Carries

variable {port middle next : Port}

theorem refl (port : Port) : Carries port port := ⟨rfl, rfl⟩

theorem trans (first : Carries port middle) (second : Carries middle next) : Carries port next :=
  ⟨second.accepted.trans first.accepted, second.outbound.trans first.outbound⟩

theorem ordered (carries : Carries port next) (ordered : port.Ordered) : next.Ordered :=
  carries.accepted.trans (ordered.trans carries.outbound.symm)

theorem of_fields (accepted : next.accepted = port.accepted) (handed : next.handed = port.handed)
    (queue : next.tx.queue = port.tx.queue) : Carries port next :=
  ⟨accepted, by rw [Port.outbound, Port.outbound, handed, queue]⟩

end Carries

theorem flowControlUser_eq (port : Port) :
    ∃ userFc, port.flowControlUser.1 = { port with tx := { port.tx with userFc := userFc } } := by
  unfold flowControlUser
  dsimp only
  split <;> exact ⟨_, rfl⟩

theorem dataReq_eq (port : Port) (buffer : List UInt8) :
    ∃ frames creditRx creditTx peerFc, port.dataReq buffer = { port with
        handed := port.handed ++ [buffer]
        frames := frames
        creditRx := creditRx
        creditTx := creditTx
        tx := { port.tx with peerFc := peerFc } } := by
  unfold dataReq sendFrame decCredit
  dsimp only
  split
  · split <;> exact ⟨_, _, _, _, rfl⟩
  · exact ⟨_, _, _, _, rfl⟩

/-- What `RFCOMM_DataReq` does to the stream. -/
structure Hands (port : Port) (buffer : List UInt8) (next : Port) : Prop where
  accepted : next.accepted = port.accepted
  handed : next.handed = port.handed ++ [buffer]
  queue : next.tx.queue = port.tx.queue

theorem dataReq_hands (port : Port) (buffer : List UInt8) :
    Hands port buffer (port.dataReq buffer) := by
  obtain ⟨frames, creditRx, creditTx, peerFc, written⟩ := dataReq_eq port buffer
  rw [written]
  exact ⟨rfl, rfl, rfl⟩

variable {port next : Port} {writing : Writing}

theorem dataReq_carries {buffer : List UInt8} {rest : BufferQueue UInt8}
    (dequeued : port.tx.queue.dequeue? = some (buffer, rest)) :
    Carries port (dataReq { port with tx := { port.tx with queue := rest } } buffer) := by
  have hands := dataReq_hands { port with tx := { port.tx with queue := rest } } buffer
  refine ⟨hands.accepted, ?_⟩
  rw [outbound, hands.handed, hands.queue, outbound, BufferQueue.stream_eq_of_dequeue? dequeued]
  simp

theorem Move.carries (moved : Move port next) : Carries port next := by
  cases moved with
  | quiet quiet =>
    cases quiet
    exact .of_fields rfl rfl rfl
  | send _ dequeued => exact dataReq_carries dequeued

theorem Moves.carries (moves : Moves port next) : Carries port next := by
  induction moves with
  | refl => exact .refl port
  | tail _ moved ih => exact ih.trans moved.carries

section

variable (port)

theorem aggregateFlowInd_carries (enable : Bool) :
    Carries port (port.aggregateFlowInd enable) := by
  refine Carries.trans ?_ (aggregateFlowInd_moves port enable).carries
  exact .of_fields rfl rfl rfl

theorem incCredit_carries (credit : UInt8) :
    Carries port (port.incCredit credit) := by
  by_cases credited : port.usesCredits = true
  · refine Carries.trans ?_ (incCredit_moves credited credit).carries
    exact .of_fields rfl rfl rfl
  · rw [incCredit, if_neg credited]
    exact .refl port

theorem obeyFlowBit_carries (fc : Bool) : Carries port (port.obeyFlowBit fc) := by
  rcases obeyFlowBit_moves port fc with ⟨_, same⟩ | ⟨_, moves⟩
  · rw [same]
    exact .refl port
  · refine Carries.trans ?_ moves.carries
    exact .of_fields rfl rfl rfl

theorem processMscCommand_carries (pars : ModemControl) :
    Carries port (port.processMscCommand pars) :=
  (obeyFlowBit_carries port pars.fc).trans (controlInd_moves _ pars).carries

theorem parNegInd_carries (found : Multiplexer) (mtu : Nat) (creditBased : Bool) (k : Nat) :
    Carries port (port.parNegInd found mtu creditBased k) := by
  unfold parNegInd
  dsimp only
  split <;> exact .of_fields rfl rfl rfl

theorem parNegCnf_carries (found : Multiplexer) (mtu : Nat) (creditBased : Bool) (k : Nat) :
    Carries port (port.parNegCnf found mtu creditBased k) := by
  unfold parNegCnf
  dsimp only
  split
  all_goals
    split <;> exact .of_fields rfl rfl rfl

theorem parNegReq_carries (mcb : Multiplexer) :
    Carries port (port.parNegReq mcb) := by
  unfold parNegReq
  split <;> exact .of_fields rfl rfl rfl

theorem processPnResponse_carries (mcb : Multiplexer) (mtu : Nat) (creditBased : Bool) (k : Nat) :
    Carries port (port.processPnResponse mcb mtu creditBased k) := by
  have answered : Carries port { port with expectsPn := false } := .of_fields rfl rfl rfl
  unfold processPnResponse
  split
  · exact answered.trans (parNegCnf_carries _ mcb mtu creditBased k)
  · exact .refl port

end

theorem Reconnects.carries (moved : Reconnects port next) : Carries port next := by
  cases moved
  exact .of_fields rfl rfl rfl

theorem flowControlUser_prompt (prompt : port.Prompt) :
    port.flowControlUser.1.Prompt := by
  obtain ⟨userFc, written⟩ := flowControlUser_eq port
  rw [written]
  exact prompt

/-- What `port_write` does with a buffer: it joins the stream or is refused. -/
structure Takes (port : Port) (buffer : List UInt8) (next : Port) : Prop where
  accepted : next.accepted = port.accepted
  outbound : next.outbound = port.outbound ++ buffer
  prompt : next.Prompt

/-- A buffer sent at once joins the stream at its end, since nothing is queued. -/
theorem dataReq_takes (direct : port.direct = true) (prompt : port.Prompt) (buffer : List UInt8) :
    Takes port buffer (port.dataReq buffer) := by
  have hands := dataReq_hands port buffer
  have drained := prompt direct
  refine ⟨hands.accepted, ?_, ?_⟩
  · rw [outbound, outbound, hands.handed, hands.queue, drained]
    simp
  · intro _
    rw [hands.queue]
    exact drained

theorem enqueue_takes (indirect : port.direct ≠ true) (buffer : List UInt8) :
    Takes port buffer
      { port with tx := { port.tx with queue := port.tx.queue.enqueue buffer } } := by
  refine ⟨rfl, ?_, fun direct => absurd direct indirect⟩
  simp [outbound, BufferQueue.stream_enqueue]

theorem portWrite_cases (prompt : port.Prompt) (buffer : List UInt8) :
    ((port.portWrite buffer).2.taken = true ∧ Takes port buffer (port.portWrite buffer).1) ∨
      ((port.portWrite buffer).2.taken = false ∧ Carries port (port.portWrite buffer).1) := by
  unfold portWrite
  split
  · exact .inr ⟨rfl, .refl port⟩
  · split
    · rename_i direct
      exact .inl ⟨rfl, dataReq_takes direct prompt buffer⟩
    · rename_i indirect
      split
      · exact .inr ⟨rfl, (notify_move port _).carries⟩
      · exact .inl ⟨rfl, enqueue_takes indirect buffer⟩

namespace Writing

/-- The stream of the port is in order and a write does not pass the queue. -/
structure Sound (writing : Writing) : Prop where
  ordered : writing.port.Ordered
  prompt : writing.port.Prompt

theorem Sound.accept (sound : writing.Sound) (taken : writing.writeChunk.rc.taken = true) :
    (writing.writeChunk.accept writing.chunk).Sound := by
  have checked := (flowControlUser_move (writing.port.portWrite writing.chunk).1).carries
  rcases portWrite_cases sound.prompt writing.chunk with ⟨_, takes⟩ | ⟨refused, _⟩
  · refine ⟨?_, flowControlUser_prompt takes.prompt⟩
    calc writing.writeChunk.port.accepted ++ writing.chunk
        = writing.port.accepted ++ writing.chunk :=
          congrArg (· ++ writing.chunk) (checked.accepted.trans takes.accepted)
      _ = writing.port.outbound ++ writing.chunk := congrArg (· ++ writing.chunk) sound.ordered
      _ = writing.writeChunk.port.outbound := (checked.outbound.trans takes.outbound).symm
  · exact absurd (taken.symm.trans refused) (by decide)

theorem Sound.refused (sound : writing.Sound) (refused : writing.writeChunk.rc.taken ≠ true) :
    writing.writeChunk.port.Ordered := by
  rcases portWrite_cases sound.prompt writing.chunk with ⟨taken, _⟩ | ⟨_, carried⟩
  · exact absurd taken refused
  · exact (carried.trans (flowControlUser_move _).carries).ordered sound.ordered

theorem writeLoop_ordered (fuel : Nat) (sound : writing.Sound) :
    (writeLoop fuel writing).port.Ordered := by
  induction fuel generalizing writing with
  | zero => exact sound.ordered
  | succ fuel ih =>
    unfold writeLoop
    dsimp only
    split
    · exact sound.ordered
    · split
      · exact sound.ordered
      · split
        · rename_i taken
          exact ih (sound.accept taken)
        · rename_i refused
          exact sound.refused refused

theorem writeLoopCO_ordered (fuel reads : Nat) (sound : writing.Sound) :
    (writeLoopCO fuel reads writing).1.port.Ordered := by
  induction fuel generalizing reads writing with
  | zero => exact sound.ordered
  | succ fuel ih =>
    unfold writeLoopCO
    split
    · exact sound.ordered
    · split
      · exact (flowControlUser_move writing.port).carries.ordered sound.ordered
      · cases reads with
        | zero => exact sound.ordered
        | succ reads =>
          dsimp only
          split
          · rename_i taken
            exact ih reads (sound.accept taken)
          · rename_i refused
            exact sound.refused refused

theorem finish_carries (writing : Writing) : Carries writing.port writing.finish :=
  (notify_move _ _).carries

end Writing

variable {data : List UInt8}

theorem joinLast_ordered (ordered : port.Ordered) (fits : port.fits data = true) :
    (port.joinLast data).Ordered := by
  obtain ⟨last, found, _⟩ := (any_eq_true _ _).mp fits
  change port.accepted ++ data = port.handed.flatten ++ (port.tx.queue.extendLast data).stream
  rw [BufferQueue.stream_extendLast found, ordered, outbound, append_assoc]

/-- A write sent at once finds the queue empty, unless it joins the last queued buffer. -/
def InTurn (port : Port) (data : List UInt8) : Prop :=
  port.direct = true → port.tx.queue.stream = [] ∨ port.fits data = true
  deriving Decidable

theorem InTurn.sound (in_turn : port.InTurn data) (ordered : port.Ordered)
    (unfit : port.fits data ≠ true) :
    (port.startWriting data).Sound :=
  ⟨ordered, fun direct => (in_turn direct).resolve_right unfit⟩

theorem writeData_ordered (ordered : port.Ordered) (in_turn : port.InTurn data) :
    (port.writeData data).1.Ordered := by
  unfold writeData
  split
  · exact ordered
  · split
    · exact ordered
    · split
      · rename_i fits
        exact joinLast_ordered ordered fits
      · rename_i unfit
        exact (Writing.finish_carries _).ordered
          (Writing.writeLoop_ordered _ (in_turn.sound ordered unfit))

theorem writeDataCO_ordered {offered : Option (List UInt8)} {reads : Nat} (ordered : port.Ordered)
    (in_turn : ∀ available ∈ offered, port.InTurn available) :
    (port.writeDataCO offered reads).1.Ordered := by
  unfold writeDataCO
  split
  · exact ordered
  · split
    · exact ordered
    · split
      · exact ordered
      · rename_i available
        split
        · exact ordered
        · split
          · rename_i fits
            split
            · exact ordered
            · exact joinLast_ordered ordered fits
          · rename_i unfit
            have wrote := Writing.writeLoopCO_ordered available.length reads
              ((in_turn available rfl).sound ordered unfit)
            dsimp only
            split
            · exact (Writing.finish_carries _).ordered wrote
            · exact wrote

/-- The condition on a step: only writes have one. -/
def WritesInTurn (port : Port) : Event → Prop
  | .writeData data => port.InTurn data
  | .writeDataCO offered _ => ∀ available ∈ offered, port.InTurn available
  | _ => True

instance (port : Port) (event : Event) : Decidable (port.WritesInTurn event) := by
  unfold WritesInTurn
  split <;> infer_instance

theorem secComplete_carries {mtu : Nat} (completed : port.secComplete mtu = some next) :
    Carries port next := by
  unfold secComplete at completed
  split at completed
  · cases completed
    exact .of_fields rfl rfl rfl
  · cases completed
    exact (dlcEstablishInd_reconnects port mtu).carries
  · cases completed

theorem step_carries {event : Event} (moved : step port event = some next)
    (no_write : ∀ data, event ≠ .writeData data)
    (no_write_co : ∀ offered reads, event ≠ .writeDataCO offered reads) : Carries port next := by
  cases event with
  | multiplexerConnected =>
    obtain ⟨mcb, _, rfl⟩ := map_eq_some_iff.mp moved
    exact .of_fields rfl rfl rfl
  | parNegReq =>
    obtain ⟨mcb, _, rfl⟩ := map_eq_some_iff.mp moved
    exact parNegReq_carries port mcb
  | parNegInd found mtu creditBased k =>
    cases moved
    exact parNegInd_carries port found mtu creditBased k
  | parNegCnf mtu creditBased k =>
    obtain ⟨mcb, _, rfl⟩ := map_eq_some_iff.mp moved
    exact processPnResponse_carries port mcb mtu creditBased k
  | sabme found =>
    obtain ⟨_, rfl⟩ := guarded_eq_some.mp moved
    exact .of_fields rfl rfl rfl
  | secComplete mtu => exact secComplete_carries moved
  | ua mtu =>
    obtain ⟨_, rfl⟩ := guarded_eq_some.mp moved
    have opened : Carries port { port with rfcState := .opened } := .of_fields rfl rfl rfl
    exact opened.trans (dlcEstablishCnf_reconnects _ mtu).carries
  | portNegCnf =>
    obtain ⟨_, rfl⟩ := guarded_eq_some.mp moved
    exact (portNegCnf_moves port).carries
  | mscCommand pars =>
    obtain ⟨_, rfl⟩ := guarded_eq_some.mp moved
    exact processMscCommand_carries port pars
  | mscResponse =>
    obtain ⟨_, rfl⟩ := guarded_eq_some.mp moved
    exact (processMscResponse_moves port).carries
  | aggregateFlowInd enable =>
    obtain ⟨_, rfl⟩ := guarded_eq_some.mp moved
    exact aggregateFlowInd_carries port enable
  | incCredit credit =>
    obtain ⟨_, rfl⟩ := guarded_eq_some.mp moved
    exact incCredit_carries port credit
  | removeConnection =>
    obtain ⟨_, rfl⟩ := guarded_eq_some.mp moved
    exact (removeConnection_reconnects port).carries
  | writeData data => exact absurd rfl (no_write data)
  | writeDataCO offered reads => exact absurd rfl (no_write_co offered reads)

theorem Ordered.step (event : Event) (next : Port) (ordered : port.Ordered)
    (in_turn : port.WritesInTurn event) (moved : step port event = some next) :
    next.Ordered := by
  cases event with
  | writeData data =>
    cases moved
    exact writeData_ordered ordered in_turn
  | writeDataCO offered reads =>
    cases moved
    exact writeDataCO_ordered ordered in_turn
  | multiplexerConnected | parNegReq | parNegInd | parNegCnf | sabme | secComplete | ua | portNegCnf
  | mscCommand | mscResponse | aggregateFlowInd | incCredit | removeConnection =>
    exact (step_carries moved (by rintro _ ⟨⟩) (by rintro _ _ ⟨⟩)).ordered ordered

/--
What was handed to the RFCOMM layer is a prefix of what was accepted, and the
rest is queued: no byte is reordered, duplicated or lost.
-/
theorem handed_prefix_accepted {isServer usesRpn hasCallback : Bool} {requestedMtu : Nat}
    {multiplexer : Option Multiplexer} {evMask : UInt32} {events : List Event} {port : Port}
    (guarded : Along step WritesInTurn
      (opening isServer usesRpn requestedMtu multiplexer hasCallback evMask) events)
    (reached : run step
      (opening isServer usesRpn requestedMtu multiplexer hasCallback evMask) events = some port) :
    port.handed.flatten <+: port.accepted ∧
      port.accepted = port.handed.flatten ++ port.tx.queue.buffers.flatten := by
  have start : Ordered (opening isServer usesRpn requestedMtu multiplexer hasCallback evMask) := by
    cases isServer with
    | false | true => rfl
  have ordered : port.Ordered :=
    invariant_along (fun _ event next ordered => ordered.step event next) start guarded reached
  exact ⟨⟨_, ordered.symm⟩, ordered⟩

/-- A client connects with credits and writes as soon as it is told so; then what follows. -/
def clientOpens (following : List Event) : List Event :=
  [.multiplexerConnected, .parNegReq, .parNegCnf 23 true 7, .secComplete 0, .ua 0,
    .writeData (replicate 20 1)] ++ following

/-- The client's port and its new multiplexer. -/
def client : Port := opening false false 0 (some ⟨false, .undefined⟩) true 0

theorem handed_prefix_accepted_confirmed :
    ∃ port, run step client (clientOpens [.mscResponse, .mscCommand ⟨0x0b, 0, false⟩,
        .writeData (replicate 50 2)]) = some port ∧
      port.handed = [replicate 20 1, replicate 23 2, replicate 23 2,
        replicate 4 2] ∧ port.handed.flatten <+: port.accepted := by
  refine ⟨_, rfl, by decide, ?_⟩
  exact (handed_prefix_accepted (show Along step WritesInTurn client (clientOpens
    [.mscResponse, .mscCommand ⟨0x0b, 0, false⟩, .writeData (replicate 50 2)]) by decide)
    rfl).1

/-- Before the peer confirms, a write is sent ahead of the data queued earlier. -/
theorem unconfirmed_write_overtakes :
    ∃ port, run step client (clientOpens [.mscCommand ⟨0x0b, 0, false⟩,
        .writeData (replicate 10 2), .mscResponse]) = some port ∧
      port.accepted = replicate 20 1 ++ replicate 10 2 ∧
      port.handed = [replicate 10 2, replicate 20 1] ∧
      ¬ port.handed.flatten <+: port.accepted := by
  refine ⟨_, rfl, by decide, by decide, by decide⟩

end BluetoothFormal.Rfcomm.Port
