import BluetoothFormal.Foundation.BufferQueue
import BluetoothFormal.Foundation.Transition
import Mathlib.Algebra.GroupWithZero.Nat

/-!
# The transmit path of an RFCOMM port

A port carries the byte stream of an application to its peer.  A write extends
the last queued buffer, queues new buffers or hands them to the RFCOMM layer at
once, depending on flags that the peer sets through parameter negotiation,
modem status commands, aggregate flow control and credits.  The handlers of
those messages drain the queue.

One port and the multiplexer under it are modelled from the opening of the port
to its close.  The model also records the buffers handed to `RFCOMM_DataReq`,
the bytes that write calls accepted, the data frames sent with the credits in
them, and the events passed to the application.
-/

namespace BluetoothFormal.Rfcomm.Port

open Foundation

/-! ## Control blocks -/

inductive ConnectionState where
  | closed
  | opening
  | opened
  | closing
  deriving DecidableEq

inductive RfcState where
  | closed
  | sabmeWaitUa
  | origWaitSecCheck
  | termWaitSecCheck
  | opened
  | discWaitUa
  deriving DecidableEq

/-- The flow control mechanism of the multiplexer. -/
inductive Flow where
  | undefined
  | ts710
  | credit
  deriving DecidableEq

/-- The result codes of the port functions. -/
inductive Result where
  | success
  | unknownError
  | cmdPending
  | notOpened
  | closed
  | txFull
  deriving DecidableEq

/-- The results of `port_write` for a buffer that was sent or queued. -/
def Result.taken : Result → Bool
  | .success | .cmdPending => true
  | .unknownError | .notOpened | .closed | .txFull => false

/-- The members of `tRFC_MCB` that the data path reads. -/
structure Multiplexer where
  peerReady : Bool
  flow : Flow

/-- `tPORT_DATA`. -/
structure PortData where
  queue : BufferQueue UInt8
  peerFc : Bool
  userFc : Bool

/-- `tPORT_CTRL`. -/
structure ModemControl where
  modemSignal : UInt8
  breakSignal : UInt8
  fc : Bool

/-- The flags of `port_ctrl` that are read. -/
structure ControlFlags where
  reqSent : Bool
  reqConfirmed : Bool
  indReceived : Bool

structure DataFrame where
  payload : List UInt8
  credits : Nat

end Port

/-- `tPORT`, and what has passed through the port. -/
structure Port where
  state : Port.ConnectionState
  isServer : Bool
  usesRpn : Bool
  mtu : Nat
  peerMtu : Nat
  tx : Port.PortData
  rx : Port.PortData
  peerCtrl : Port.ModemControl
  portCtrl : Port.ControlFlags
  rfcState : Port.RfcState
  expectsPn : Bool
  expectsMsc : Bool
  multiplexer : Option Port.Multiplexer
  hasCallback : Bool
  evMask : UInt32
  creditTx : Nat
  creditRx : Nat
  creditRxMax : Nat
  creditRxLow : Nat
  rxBufCritical : Nat
  handed : List (List UInt8)
  accepted : List UInt8
  frames : List Port.DataFrame
  notified : List UInt32

namespace Port

/-! ## Constants -/

def evTxEmpty : UInt32 := 0x00000004
def evCts : UInt32 := 0x00000008
def evDsr : UInt32 := 0x00000010
def evRlsd : UInt32 := 0x00000020
def evBreak : UInt32 := 0x00000040
def evErr : UInt32 := 0x00000080
def evRing : UInt32 := 0x00000100
def evConnected : UInt32 := 0x00000200
def evCtss : UInt32 := 0x00000400
def evDsrs : UInt32 := 0x00000800
def evRlsds : UInt32 := 0x00001000
def evTxChar : UInt32 := 0x00004000
def evConnectErr : UInt32 := 0x00008000
def evFc : UInt32 := 0x00010000
def evFcs : UInt32 := 0x00020000

def l2capMtuSize : Nat := 1691

/-- `RFCOMM_DATA_OVERHEAD`. -/
def dataOverhead : Nat := 6

/-- `RFCOMM_DEFAULT_MTU`. -/
def defaultMtu : Nat := 127

/-- `RFCOMM_K_MAX`. -/
def maxK : Nat := 7

/-- `BTA_RFC_MTU_SIZE`, with `L2CAP_MIN_OFFSET` being 13. -/
def rfcMtuSize : Nat := l2capMtuSize - 13 - dataOverhead

/-- The data that fits into a buffer of `RFCOMM_DATA_BUF_SIZE` bytes behind its headers. -/
def bufferRoom : Nat := 4096 + 16 - (8 + 13 + dataOverhead)

def txBufHighWm : Nat := 10
def txBufCriticalWm : Nat := 15
def txHighWm : Nat := rfcMtuSize * txBufHighWm
def txCriticalWm : Nat := rfcMtuSize * txBufCriticalWm
def rxBufLowWm : Nat := 4
def rxBufHighWm : Nat := 10
def rxBufCriticalWm : Nat := 15

/-! ## Opening -/

def emptyData : PortData := ⟨.empty, false, false⟩

/--
A port that `RFCOMM_CreateConnection` has allocated.  The application asks for a
maximal frame size, which a value of zero leaves to the stack.
-/
def created (isServer usesRpn : Bool) (requestedMtu : Nat) (multiplexer : Option Multiplexer)
    (hasCallback : Bool) (evMask : UInt32) : Port where
  state := .opening
  isServer := isServer
  usesRpn := usesRpn
  mtu :=
    if requestedMtu = 0 then l2capMtuSize - dataOverhead
    else min requestedMtu (l2capMtuSize - dataOverhead)
  peerMtu := defaultMtu
  tx := emptyData
  rx := emptyData
  peerCtrl := ⟨0, 0, false⟩
  portCtrl := ⟨false, false, false⟩
  rfcState := .closed
  expectsPn := false
  expectsMsc := false
  multiplexer := multiplexer
  hasCallback := hasCallback
  evMask := evMask
  creditTx := 0
  creditRx := 0
  creditRxMax := 0
  creditRxLow := 0
  rxBufCritical := 0
  handed := []
  accepted := []
  frames := []
  notified := []

/-- The end of `port_select_mtu`, for a port whose application selected a frame size. -/
def selectMtu (port : Port) : Port :=
  { port with
    creditRxMax := min (rfcMtuSize * rxBufHighWm / port.mtu) rxBufHighWm
    creditRxLow := min (rfcMtuSize * rxBufLowWm / port.mtu) rxBufLowWm
    rxBufCritical := min (rfcMtuSize * rxBufCriticalWm / port.mtu) rxBufCriticalWm }

/--
A port after `RFCOMM_CreateConnection`: a client has found or allocated its
multiplexer and selected its frame size, a server waits for a multiplexer.
-/
def opening (isServer usesRpn : Bool) (requestedMtu : Nat) (multiplexer : Option Multiplexer)
    (hasCallback : Bool) (evMask : UInt32) : Port :=
  let port := created isServer usesRpn requestedMtu multiplexer hasCallback evMask
  if isServer then port else port.selectMtu

section

variable (port : Port)

def getCredits (k : Nat) : Port :=
  { port with
    creditTx := k
    tx := { port.tx with peerFc := port.tx.peerFc || k = 0 } }

/-- The events are passed to the callback of the application, if there are any. -/
def notify (events : UInt32) : Port :=
  if port.hasCallback ∧ events ≠ 0 then { port with notified := port.notified ++ [events] }
  else port

/-! ## Sending -/

/-- The peer lets the port send. -/
def unblocked : Bool :=
  !port.tx.peerFc && port.multiplexer.any (·.peerReady)

def usesCredits : Bool := port.multiplexer.any (·.flow = .credit)

/-- `rfc_dec_credit`. -/
def decCredit : Port :=
  if port.usesCredits then
    let creditTx := port.creditTx - 1
    { port with
      creditTx := creditTx
      tx := { port.tx with peerFc := port.tx.peerFc || creditTx = 0 } }
  else port

/-- The credits that `rfc_port_sm_opened` puts into a data frame. -/
def creditsFor (buffer : List UInt8) : Nat :=
  if port.usesCredits ∧ buffer.length < port.peerMtu ∧ port.rx.userFc = false ∧
      port.creditRx < port.creditRxMax then
    port.creditRxMax - port.creditRx
  else 0

/-- `RFC_PORT_EVENT_DATA` in the opened state. -/
def sendFrame (buffer : List UInt8) : Port :=
  let credits := port.creditsFor buffer
  decCredit
    { port with
      frames := port.frames ++ [⟨buffer, credits % 2 ^ 8⟩]
      creditRx := port.creditRx + credits }

/-- `RFCOMM_DataReq`: in every other state of the port the buffer is freed. -/
def dataReq (buffer : List UInt8) : Port :=
  let given := { port with handed := port.handed ++ [buffer] }
  if port.rfcState = .opened then given.sendFrame buffer else given

def overHighWm : Bool :=
  port.tx.queue.size > txHighWm || port.tx.queue.length > txBufHighWm

def flowControlUser : Port × UInt32 :=
  let fc := !port.unblocked || port.overHighWm
  if port.tx.userFc = fc then (port, 0)
  else
    ({ port with tx := { port.tx with userFc := fc } }, if fc then evFc else evFc ||| evFcs)

end

/-- The loop of `port_rfc_send_tx_data`; the fuel bounds the number of buffers. -/
def sendLoop : Nat → Port → UInt32 → Port × UInt32
  | 0, port, events => (port, events)
  | fuel + 1, port, events =>
    if port.unblocked then
      match port.tx.queue.dequeue? with
      | none => (port, events ||| evTxEmpty)
      | some (buffer, rest) =>
        let sent := dataReq { port with tx := { port.tx with queue := rest } } buffer
        if sent.tx.queue.size = 0 then (sent, events ||| evTxChar ||| evTxEmpty)
        else sendLoop fuel sent (events ||| evTxChar)
    else (port, events)

section

variable (port : Port)

/-- `port_rfc_send_tx_data`. -/
def sendTxData : Port × UInt32 :=
  if port.tx.queue.size = 0 then (port, 0)
  else
    let sent := sendLoop (port.tx.queue.length + 1) port 0
    let resumed := sent.1.flowControlUser
    (resumed.1, (sent.2 ||| resumed.2) &&& port.evMask)

/-! ## Flow control by the peer -/

/-- What `PORT_FlowInd` does with each port it applies to. -/
def resumeFlow : Port :=
  let checked := port.flowControlUser
  let sent := checked.1.sendTxData
  sent.1.notify ((checked.2 ||| sent.2) &&& port.evMask)

/-- `PORT_FlowInd` for the channel of the port. -/
def flowInd (enable : Bool) : Port :=
  resumeFlow { port with tx := { port.tx with peerFc := !enable } }

/-- `PORT_FlowInd` for channel zero, as it applies to the port. -/
def aggregateFlowInd (enable : Bool) : Port :=
  let indicated :=
    { port with multiplexer := port.multiplexer.map fun mcb => { mcb with peerReady := enable } }
  if indicated.multiplexer.isSome ∧ indicated.rfcState = .opened then indicated.resumeFlow
  else indicated

/-- `rfc_inc_credit`. -/
def incCredit (credit : UInt8) : Port :=
  if port.usesCredits then
    let granted := { port with creditTx := (port.creditTx + credit.toNat) % 2 ^ 16 }
    if granted.tx.peerFc then granted.flowInd true else granted
  else port

/-! ## Modem status -/

/-- `port_get_signal_changes`. -/
def getSignalChanges (evMask : UInt32) (old new : UInt8) : UInt32 :=
  let changed := new ^^^ old
  let signalEvents (signal : UInt8) (change present : UInt32) : UInt32 :=
    if changed &&& signal = 0 then 0
    else if new &&& signal = 0 then change else change ||| present
  evMask &&& (signalEvents 0x01 evDsr evDsrs ||| signalEvents 0x02 evCts evCtss |||
    signalEvents 0x04 evRing 0 ||| signalEvents 0x08 evRlsd evRlsds)

/-- `RFCOMM_ControlReq`. -/
def controlReq : Port :=
  if port.state = .opened ∧ port.rfcState = .opened then
    { port with
      portCtrl := { port.portCtrl with reqSent := true }
      expectsMsc := true }
  else port

/--
How `PORT_ControlInd` answers: with the port's own command if it was not sent,
else with the queued data, but only if that command was confirmed.
-/
def answerInd : Port × UInt32 :=
  if port.portCtrl.reqSent = false then (port.controlReq, 0)
  else
    let connected := if port.portCtrl.indReceived then 0 else evConnected &&& port.evMask
    if port.portCtrl.reqConfirmed then
      let sent := port.sendTxData
      (sent.1, connected ||| sent.2)
    else (port, connected)

def controlInd (pars : ModemControl) : Port :=
  let changes := getSignalChanges port.evMask port.peerCtrl.modemSignal pars.modemSignal
  let answered := answerInd { port with peerCtrl := pars }
  let received :=
    { answered.1 with portCtrl := { answered.1.portCtrl with indReceived := true } }
  let broken := if pars.breakSignal = 0 then 0 else evBreak &&& port.evMask
  received.notify (changes ||| answered.2 ||| broken)

def controlCnf : Port :=
  let connected :=
    if port.portCtrl.reqConfirmed = false ∧ port.portCtrl.indReceived then
      port.evMask &&& evConnected
    else 0
  let confirmed := { port with portCtrl := { port.portCtrl with reqConfirmed := true } }
  if confirmed.portCtrl.indReceived then
    let sent := confirmed.sendTxData
    sent.1.notify (connected ||| sent.2)
  else confirmed.notify connected

/-- Without credits the flow control bit of a modem status command is obeyed. -/
def obeyFlowBit (fc : Bool) : Port :=
  if port.usesCredits then port
  else
    let told := { port with peerCtrl := { port.peerCtrl with fc := fc } }
    if fc ≠ told.tx.peerFc then told.flowInd (!fc) else told

/-- `rfc_process_msc` for a command. -/
def processMscCommand (pars : ModemControl) : Port :=
  (port.obeyFlowBit pars.fc).controlInd pars

/-- `rfc_process_msc` for a response. -/
def processMscResponse : Port :=
  if port.expectsMsc then controlCnf { port with expectsMsc := false } else port

/-- `PORT_PortNegCnf` with success. -/
def portNegCnf : Port :=
  if port.portCtrl.reqSent = false then port.controlReq else port

/-! ## Establishing the connection -/

/-- The first negotiation sets the flow control mechanism of the multiplexer. -/
def Multiplexer.negotiateFlow (mcb : Multiplexer) (creditBased : Bool) : Multiplexer :=
  if mcb.flow = .undefined then { mcb with flow := if creditBased then .credit else .ts710 }
  else mcb

/-- The multiplexer and the frame size after a negotiation. -/
def negotiate (mcb : Multiplexer) (mtu : Nat) : Port :=
  { port with multiplexer := some mcb, mtu := min port.mtu mtu, peerMtu := min port.mtu mtu }

/--
`PORT_ParNegInd`, for a port that has the multiplexer already or takes it now.
Without credit based flow in the request (`RFCOMM_PN_CONV_LAYER_TYPE_1`) no
credits are exchanged.
-/
def parNegInd (found : Multiplexer) (mtu : Nat) (creditBased : Bool) (k : Nat) : Port :=
  let mcb := (port.multiplexer.getD found).negotiateFlow creditBased
  let negotiated := port.selectMtu.negotiate mcb mtu
  if creditBased ∧ mcb.flow = .credit then
    { negotiated.getCredits k with creditRx := min negotiated.creditRxMax maxK }
  else negotiated

/--
`RFCOMM_ParameterNegotiationRequest`: without a flow control mechanism of the
multiplexer, credits are proposed.
-/
def parNegReq (mcb : Multiplexer) : Port :=
  let asked := { port with expectsPn := true }
  if mcb.flow = .ts710 then asked else { asked with creditRx := min port.creditRxMax maxK }

/--
`PORT_ParNegCnf`: the answer accepts credit based flow or not; a port that is
opening goes on to establish the connection.
-/
def parNegCnf (found : Multiplexer) (mtu : Nat) (creditBased : Bool) (k : Nat) : Port :=
  let mcb := found.negotiateFlow creditBased
  let negotiated := port.negotiate mcb mtu
  let credited := if mcb.flow = .credit then negotiated.getCredits k else negotiated
  if credited.state = .opening ∧ credited.rfcState = .closed then
    { credited with rfcState := .origWaitSecCheck }
  else credited

/-- `rfc_process_pn` for a response. -/
def processPnResponse (mcb : Multiplexer) (mtu : Nat) (creditBased : Bool) (k : Nat) : Port :=
  if port.expectsPn then parNegCnf { port with expectsPn := false } mcb mtu creditBased k
  else port

/-- A smaller frame size of L2CAP is taken over. -/
def limitMtu (mtu : Nat) : Port :=
  if mtu ≠ 0 ∧ mtu < port.peerMtu then { port with peerMtu := mtu } else port

/-- `PORT_DlcEstablishInd` after the port was opened by the peer. -/
def dlcEstablishInd (mtu : Nat) : Port :=
  let limited := port.limitMtu mtu
  let established := { limited with rfcState := .opened }
  { established.notify (evConnected &&& port.evMask) with state := .opened }

/-- `PORT_DlcEstablishCnf` with success. -/
def dlcEstablishCnf (mtu : Nat) : Port :=
  let limited := port.limitMtu mtu
  let established := { limited.notify (evConnected &&& port.evMask) with state := .opened }
  if port.usesRpn then established else established.controlReq

/--
`RFCOMM_RemoveConnection` of a port that is open or about to be: its signals are
dropped and the peer is asked to disconnect.
-/
def removeConnection : Port :=
  let dropped := port.peerCtrl.modemSignal &&& ~~~0x0b
  let changes := getSignalChanges port.evMask port.peerCtrl.modemSignal dropped
  let informed :=
    { port with
      state := .closing
      peerCtrl := { port.peerCtrl with modemSignal := dropped } }
  { informed.notify (changes ||| (evConnectErr ||| evErr) &&& port.evMask) with
    rfcState := .discWaitUa
    expectsPn := false
    expectsMsc := false }

/-! ## Writing -/

/-- The conditions under which `port_write` sends at once. -/
def direct : Bool :=
  port.unblocked && port.rfcState = .opened && port.portCtrl.reqSent && port.portCtrl.indReceived

def portWrite (buffer : List UInt8) : Port × Result :=
  if port.isServer ∧ port.rfcState ≠ .opened then (port, .closed)
  else if port.direct then (port.dataReq buffer, .success)
  else if port.tx.queue.size > txCriticalWm ∨ port.tx.queue.length > txBufCriticalWm then
    (port.notify (port.evMask &&& evErr), .txFull)
  else
    ({ port with tx := { port.tx with queue := port.tx.queue.enqueue buffer } }, .cmdPending)

def fits (data : List UInt8) : Bool :=
  port.tx.queue.last?.any fun last =>
    last.length + data.length ≤ port.peerMtu && last.length + data.length ≤ bufferRoom

def joinLast (data : List UInt8) : Port :=
  { port with
    tx := { port.tx with queue := port.tx.queue.extendLast data }
    accepted := port.accepted ++ data }

end

/-- The local variables of the write loops. -/
structure Writing where
  port : Port
  remaining : List UInt8
  length : Nat
  rc : Result
  event : UInt32
  written : Nat

namespace Writing

section

variable (writing : Writing)

/-- The next buffer takes no more than the frame size and the data that remains. -/
def chunkLength : Nat :=
  min (min writing.length writing.port.peerMtu) writing.remaining.length

def chunk : List UInt8 := writing.remaining.take writing.chunkLength

def writeChunk : Writing :=
  let wrote := writing.port.portWrite writing.chunk
  let checked := wrote.1.flowControlUser
  { writing with
    port := checked.1
    length := writing.chunkLength
    rc := wrote.2
    event := writing.event ||| checked.2 ||| (if wrote.2 = .success then evTxChar else 0) }

/-- The last buffer was written: its bytes are accepted. -/
def accept (chunk : List UInt8) : Writing :=
  { writing with
    port := { writing.port with accepted := writing.port.accepted ++ chunk }
    remaining := writing.remaining.drop chunk.length
    written := writing.written + chunk.length }

end

/-- The loop of `PORT_WriteData`; the fuel bounds the number of bytes. -/
def writeLoop : Nat → Writing → Writing
  | 0, writing => writing
  | fuel + 1, writing =>
    if writing.remaining = [] then writing
    else if writing.port.overHighWm then writing
    else
      let wrote := writing.writeChunk
      if wrote.rc.taken then writeLoop fuel (wrote.accept writing.chunk) else wrote

/--
The loop of `PORT_WriteDataCO`.  It reads each buffer through a callback, which
succeeds the given number of times; the flag tells whether no read failed.
-/
def writeLoopCO : Nat → Nat → Writing → Writing × Bool
  | 0, _, writing => (writing, true)
  | fuel + 1, reads, writing =>
    if writing.remaining = [] then (writing, true)
    else if writing.port.overHighWm then
      ({ writing with port := writing.port.flowControlUser.1, event := writing.event ||| evFc },
        true)
    else
      match reads with
      | 0 => (writing, false)
      | reads + 1 =>
        let wrote := writing.writeChunk
        if wrote.rc.taken then writeLoopCO fuel reads (wrote.accept writing.chunk)
        else (wrote, true)

/-- The end of both write functions. -/
def finish (writing : Writing) : Port :=
  let emptied :=
    if writing.remaining = [] ∧ writing.rc ≠ .cmdPending then writing.event ||| evTxEmpty
    else writing.event
  writing.port.notify (emptied &&& writing.port.evMask)

end Writing

section

variable (port : Port)

/-- The local variables before the first buffer. -/
def startWriting (data : List UInt8) : Writing where
  port := port
  remaining := data
  length := bufferRoom
  rc := .success
  event := 0
  written := 0

/-- `PORT_WriteData`, with the number of bytes accepted. -/
def writeData (data : List UInt8) : Port × Result × Nat :=
  if port.state = .closed then (port, .notOpened, 0)
  else if data = [] ∨ port.peerMtu = 0 then (port, .unknownError, 0)
  else if port.fits data then (port.joinLast data, .success, data.length)
  else
    let writing := (port.startWriting data).writeLoop data.length
    (writing.finish, .success, writing.written)

/--
`PORT_WriteDataCO`: a callback of the application tells which data is available,
or fails, and its reads succeed the given number of times.
-/
def writeDataCO (offered : Option (List UInt8)) (reads : Nat) : Port × Result × Nat :=
  if port.state = .closed then (port, .notOpened, 0)
  else if port.peerMtu = 0 then (port, .unknownError, 0)
  else
    match offered with
    | none => (port, .unknownError, 0)
    | some available =>
      if available = [] then (port, .success, 0)
      else if port.fits available then
        if reads = 0 then (port, .unknownError, 0)
        else (port.joinLast available, .success, available.length)
      else
        let writing := (port.startWriting available).writeLoopCO available.length reads
        if writing.2 then (writing.1.finish, .success, writing.1.written)
        else (writing.1.port, .unknownError, writing.1.written)

/-! ## Runs -/

inductive Event where
  | multiplexerConnected
  | parNegReq
  | parNegInd (found : Multiplexer) (mtu : Nat) (creditBased : Bool) (k : Nat)
  | parNegCnf (mtu : Nat) (creditBased : Bool) (k : Nat)
  | sabme (found : Multiplexer)
  | secComplete (mtu : Nat)
  | ua (mtu : Nat)
  | portNegCnf
  | mscCommand (pars : ModemControl)
  | mscResponse
  | aggregateFlowInd (enable : Bool)
  | incCredit (credit : UInt8)
  | removeConnection
  | writeData (data : List UInt8)
  | writeDataCO (offered : Option (List UInt8)) (reads : Nat)

/-- Security is granted: the opening side sends its `SABME`, the other side is established. -/
def secComplete (mtu : Nat) : Option Port :=
  match port.rfcState with
  | .origWaitSecCheck => some { port with rfcState := .sabmeWaitUa }
  | .termWaitSecCheck => some (port.dlcEstablishInd mtu)
  | _ => none

/--
A message of the peer reaches a port through its multiplexer.  A port without
one takes the multiplexer that a parameter negotiation or a `SABME` came from.
Messages that release the port end its run and are not admitted.
-/
def step : Event → Option Port
  | .multiplexerConnected =>
    port.multiplexer.map fun mcb =>
      { port with multiplexer := some { mcb with peerReady := true } }
  | .parNegReq => port.multiplexer.map port.parNegReq
  | .parNegInd found mtu creditBased k => some (port.parNegInd found mtu creditBased k)
  | .parNegCnf mtu creditBased k =>
    port.multiplexer.map fun mcb => port.processPnResponse mcb mtu creditBased k
  | .sabme found =>
    if port.rfcState = .closed then
      some { port with
        multiplexer := some (port.multiplexer.getD found)
        rfcState := .termWaitSecCheck }
    else none
  | .secComplete mtu => port.secComplete mtu
  | .ua mtu =>
    if port.rfcState = .sabmeWaitUa then
      some (dlcEstablishCnf { port with rfcState := .opened } mtu)
    else none
  | .portNegCnf => if port.multiplexer.isSome then some port.portNegCnf else none
  | .mscCommand pars =>
    if port.multiplexer.isSome then some (port.processMscCommand pars) else none
  | .mscResponse => if port.multiplexer.isSome then some port.processMscResponse else none
  | .aggregateFlowInd enable =>
    if port.multiplexer.isSome then some (port.aggregateFlowInd enable) else none
  | .incCredit credit =>
    if port.multiplexer.isSome ∧ credit ≠ 0 then some (port.incCredit credit) else none
  | .removeConnection =>
    if port.multiplexer.isSome ∧ (port.rfcState = .opened ∨ port.rfcState = .sabmeWaitUa) then
      some port.removeConnection
    else none
  | .writeData data => some (port.writeData data).1
  | .writeDataCO offered reads => some (port.writeDataCO offered reads).1

end

end Port

end BluetoothFormal.Rfcomm
