import BluetoothFormal.Rfcomm.Port
import Mathlib.Logic.Relation

/-!
# What the handlers of an RFCOMM port do

The handlers of the transmit path make two kinds of moves.  A quiet move writes
flags and notices that neither the byte stream nor the credits depend on.  The
other move hands the head of the queue to the RFCOMM layer while the peer lets
the port send.  Each handler is described once as a sequence of such moves after
the writes of its own, and the facts about streams and credits follow from what
one move keeps.
-/

namespace BluetoothFormal.Rfcomm.Port

open Foundation Bool

inductive Quiet : Port → Port → Prop
  | write (port : Port) (userFc : Bool) (peerCtrl : ModemControl) (portCtrl : ControlFlags)
      (expectsMsc : Bool) (notified : List UInt32) :
      Quiet port
        { port with
          tx := { port.tx with userFc := userFc }
          peerCtrl := peerCtrl
          portCtrl := portCtrl
          expectsMsc := expectsMsc
          notified := notified }

/-- One move of a handler. -/
inductive Move : Port → Port → Prop
  | quiet {port next : Port} (quiet : Quiet port next) : Move port next
  | send {port : Port} {buffer : List UInt8} {rest : BufferQueue UInt8}
      (unblocked : port.unblocked = true)
      (dequeued : port.tx.queue.dequeue? = some (buffer, rest)) :
      Move port (dataReq { port with tx := { port.tx with queue := rest } } buffer)

/-- The moves of a handler, one after another. -/
abbrev Moves : Port → Port → Prop := Relation.ReflTransGen Move

section

variable (port : Port)

theorem notify_quiet (events : UInt32) : Quiet port (port.notify events) := by
  unfold notify
  split <;> exact .write port _ _ _ _ _

theorem flowControlUser_quiet : Quiet port port.flowControlUser.1 := by
  unfold flowControlUser
  dsimp only
  split <;> exact .write port _ _ _ _ _

theorem controlReq_quiet : Quiet port port.controlReq := by
  unfold controlReq
  split <;> exact .write port _ _ _ _ _

theorem notify_move (events : UInt32) : Move port (port.notify events) :=
  .quiet (notify_quiet port events)

theorem flowControlUser_move : Move port port.flowControlUser.1 :=
  .quiet (flowControlUser_quiet port)

theorem controlReq_move : Move port port.controlReq :=
  .quiet (controlReq_quiet port)

theorem sendLoop_moves (fuel : Nat) (port : Port) (events : UInt32) :
    Moves port (sendLoop fuel port events).1 := by
  induction fuel generalizing port events with
  | zero => exact .refl
  | succ fuel ih =>
    unfold sendLoop
    split
    · rename_i unblocked
      split
      · exact .refl
      · rename_i buffer rest dequeued
        have sent := Move.send unblocked dequeued
        dsimp only
        split
        · exact .single sent
        · exact .head sent (ih _ _)
    · exact .refl

theorem sendTxData_moves : Moves port port.sendTxData.1 := by
  unfold sendTxData
  split
  · exact .refl
  · exact (sendLoop_moves _ port 0).tail (flowControlUser_move _)

theorem resumeFlow_moves : Moves port port.resumeFlow :=
  .head (flowControlUser_move port) ((sendTxData_moves _).tail (notify_move _ _))

theorem flowInd_moves (enable : Bool) :
    Moves { port with tx := { port.tx with peerFc := !enable } } (port.flowInd enable) :=
  resumeFlow_moves _

theorem aggregateFlowInd_moves (enable : Bool) :
    Moves
      { port with
        multiplexer := port.multiplexer.map fun mcb => { mcb with peerReady := enable } }
      (port.aggregateFlowInd enable) := by
  unfold aggregateFlowInd
  dsimp only
  split
  · exact resumeFlow_moves _
  · exact .refl

theorem incCredit_moves {port : Port} (credited : port.usesCredits = true) (credit : UInt8) :
    Moves
      { port with
        creditTx := (port.creditTx + credit.toNat) % 2 ^ 16
        tx := { port.tx with peerFc := false } }
      (port.incCredit credit) := by
  unfold incCredit
  rw [if_pos credited]
  dsimp only
  split
  · exact flowInd_moves
      { port with creditTx := (port.creditTx + credit.toNat) % 2 ^ 16 } true
  · rename_i unblocked
    rw [not_eq_true] at unblocked
    rw [← unblocked]

theorem answerInd_moves : Moves port port.answerInd.1 := by
  unfold answerInd
  dsimp only
  split
  · exact .single (controlReq_move port)
  · split
    · exact sendTxData_moves port
    · exact .refl

theorem controlInd_moves (pars : ModemControl) : Moves port (port.controlInd pars) := by
  have informed : Move port { port with peerCtrl := pars } := .quiet (.write port _ _ _ _ _)
  refine .head informed ((answerInd_moves _).trans (.head ?_ (.single (notify_move _ _))))
  exact .quiet (.write _ _ _ _ _ _)

theorem controlCnf_moves : Moves port port.controlCnf := by
  have confirmed : Move port
      { port with portCtrl := { port.portCtrl with reqConfirmed := true } } :=
    .quiet (.write port _ _ _ _ _)
  unfold controlCnf
  dsimp only
  split
  · exact .head confirmed ((sendTxData_moves _).tail (notify_move _ _))
  · exact .head confirmed (.single (notify_move _ _))

theorem processMscResponse_moves : Moves port port.processMscResponse := by
  have answered : Move port { port with expectsMsc := false } := .quiet (.write port _ _ _ _ _)
  unfold processMscResponse
  split
  · exact .head answered (controlCnf_moves _)
  · exact .refl

theorem portNegCnf_moves : Moves port port.portNegCnf := by
  unfold portNegCnf
  split
  · exact .single (controlReq_move port)
  · exact .refl

/-- In credit based flow the flow control bit of a modem status command is not obeyed. -/
theorem obeyFlowBit_moves (fc : Bool) :
    (port.usesCredits = true ∧ port.obeyFlowBit fc = port) ∨ (port.usesCredits = false ∧
        Moves { port with tx := { port.tx with peerFc := fc } } (port.obeyFlowBit fc)) := by
  unfold obeyFlowBit
  dsimp only
  split
  · rename_i credited
    exact Or.inl ⟨credited, rfl⟩
  · rename_i uncredited
    refine Or.inr ⟨not_eq_true _ ▸ uncredited, ?_⟩
    have told : Move { port with tx := { port.tx with peerFc := fc } }
        { port with
          tx := { port.tx with peerFc := fc }
          peerCtrl := { port.peerCtrl with fc := fc } } := .quiet (.write _ _ _ _ _ _)
    split
    · rw [flowInd, Bool.not_not]
      exact .head told (resumeFlow_moves _)
    · rename_i same
      rw [ne_eq, Decidable.not_not] at same
      refine .head told ?_
      rw [same]

end

/-! ## Handlers that change the state of the connection -/

inductive Reconnects : Port → Port → Prop
  | write {port : Port} {userFc expectsPn expectsMsc : Bool} {peerCtrl : ModemControl}
      {portCtrl : ControlFlags} {notified : List UInt32} {peerMtu : Nat} {state : ConnectionState}
      {rfcState : RfcState} :
      Reconnects port
        { port with
          tx := { port.tx with userFc := userFc }
          peerCtrl := peerCtrl
          portCtrl := portCtrl
          expectsPn := expectsPn
          expectsMsc := expectsMsc
          notified := notified
          peerMtu := peerMtu
          state := state
          rfcState := rfcState }

variable {next port : Port}

theorem Reconnects.trans {middle : Port} (first : Reconnects port middle)
    (second : Reconnects middle next) : Reconnects port next := by
  cases first
  cases second
  exact .write

theorem Quiet.reconnects (quiet : Quiet port next) : Reconnects port next := by
  cases quiet
  exact .write

theorem limitMtu_reconnects (port : Port) (mtu : Nat) : Reconnects port (port.limitMtu mtu) := by
  unfold limitMtu
  split <;> exact .write

theorem dlcEstablishInd_reconnects (port : Port) (mtu : Nat) :
    Reconnects port (port.dlcEstablishInd mtu) := by
  have established : Reconnects port { port.limitMtu mtu with rfcState := .opened } :=
    (limitMtu_reconnects port mtu).trans .write
  exact (established.trans (notify_quiet _ _).reconnects).trans .write

theorem dlcEstablishCnf_reconnects (port : Port) (mtu : Nat) :
    Reconnects port (port.dlcEstablishCnf mtu) := by
  have notified := (limitMtu_reconnects port mtu).trans
    (notify_quiet _ (evConnected &&& port.evMask)).reconnects
  have established : Reconnects port { (port.limitMtu mtu).notify
      (evConnected &&& port.evMask) with state := .opened } :=
    notified.trans .write
  unfold dlcEstablishCnf
  split
  · exact established
  · exact established.trans (controlReq_quiet _).reconnects

theorem removeConnection_reconnects (port : Port) : Reconnects port port.removeConnection := by
  have informed : ∀ pars : ModemControl,
      Reconnects port { port with state := .closing, peerCtrl := pars } :=
    fun _ => .write
  exact ((informed _).trans (notify_quiet _ _).reconnects).trans .write

/-! ## Writes -/

/-- One move of a write: a move of a handler, a change of the queue or a direct send. -/
inductive Transmit : Port → Port → Prop
  | move {port next : Port} (moved : Move port next) : Transmit port next
  | store (port : Port) (queue : BufferQueue UInt8) (accepted : List UInt8) :
      Transmit port
        { port with tx := { port.tx with queue := queue }, accepted := accepted }
  | send {port : Port} (unblocked : port.unblocked = true) (buffer : List UInt8) :
      Transmit port (port.dataReq buffer)

/-- The moves of a write, one after another. -/
abbrev Transmits : Port → Port → Prop := Relation.ReflTransGen Transmit

theorem Moves.transmits (moves : Moves port next) : Transmits port next :=
  Relation.ReflTransGen.mono (fun _ _ moved => Transmit.move moved) _ _ moves

theorem portWrite_transmits (port : Port) (buffer : List UInt8) :
    Transmits port (port.portWrite buffer).1 := by
  unfold portWrite
  split
  · exact .refl
  · split
    · rename_i direct
      have unblocked : port.unblocked = true := by
        simp only [Port.direct, and_eq_true] at direct
        exact direct.1.1.1
      exact .single (.send unblocked buffer)
    · split
      · exact .single (.move (notify_move port _))
      · exact .single (.store port _ _)

namespace Writing

theorem writeChunk_transmits (writing : Writing) :
    Transmits writing.port writing.writeChunk.port :=
  (portWrite_transmits _ _).tail (.move (flowControlUser_move _))

theorem accept_transmits (writing : Writing) (chunk : List UInt8) :
    Transmits writing.port (writing.accept chunk).port :=
  .single (.store writing.port _ _)

theorem writeLoop_transmits (fuel : Nat) (writing : Writing) :
    Transmits writing.port (writeLoop fuel writing).port := by
  induction fuel generalizing writing with
  | zero => exact .refl
  | succ fuel ih =>
    have wrote := writeChunk_transmits writing
    unfold writeLoop
    dsimp only
    split
    · exact .refl
    · split
      · exact .refl
      · split
        · exact (wrote.trans (accept_transmits _ _)).trans (ih _)
        · exact wrote

theorem writeLoopCO_transmits (fuel reads : Nat) (writing : Writing) :
    Transmits writing.port (writeLoopCO fuel reads writing).1.port := by
  induction fuel generalizing reads writing with
  | zero => exact .refl
  | succ fuel ih =>
    have wrote := writeChunk_transmits writing
    unfold writeLoopCO
    split
    · exact .refl
    · split
      · exact .single (.move (flowControlUser_move _))
      · cases reads with
        | zero => exact .refl
        | succ reads =>
          dsimp only
          split
          · exact (wrote.trans (accept_transmits _ _)).trans (ih _ _)
          · exact wrote

theorem finish_transmits (writing : Writing) : Transmits writing.port writing.finish :=
  .single (.move (notify_move _ _))

end Writing

theorem joinLast_transmits (port : Port) (data : List UInt8) :
    Transmits port (port.joinLast data) :=
  .single (.store port _ _)

theorem writeData_transmits (port : Port) (data : List UInt8) :
    Transmits port (port.writeData data).1 := by
  unfold writeData
  split
  · exact .refl
  · split
    · exact .refl
    · split
      · exact joinLast_transmits port data
      · exact (Writing.writeLoop_transmits _ (port.startWriting data)).trans
          (Writing.finish_transmits _)

theorem writeDataCO_transmits (port : Port) (offered : Option (List UInt8)) (reads : Nat) :
    Transmits port (port.writeDataCO offered reads).1 := by
  unfold writeDataCO
  split
  · exact .refl
  · split
    · exact .refl
    · cases offered with
      | none => exact .refl
      | some available =>
        dsimp only
        split
        · exact .refl
        · split
          · split
            · exact .refl
            · exact joinLast_transmits port available
          · have wrote := Writing.writeLoopCO_transmits available.length reads
              (port.startWriting available)
            split
            · exact wrote.trans (Writing.finish_transmits _)
            · exact wrote

end BluetoothFormal.Rfcomm.Port
