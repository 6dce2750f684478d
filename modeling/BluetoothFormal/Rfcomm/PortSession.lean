import BluetoothFormal.Rfcomm.Port

/-!
# An RFCOMM port with its receive path

Received data is queued until the application reads it, or is passed to a
callback of the application at once.  A callout callback may refuse a buffer, which
the application then keeps until it can consume it.  In credit based flow the peer may send as
many frames as the port has given it credits.  Credits are given by parameter
negotiation, in data frames of the port and in frames of their own, whenever
the application has consumed enough.

A session is the port of `Port` together with the state of the receive path.
It also keeps the books of both directions: the credits that the peer granted
in negotiations and frames, and the credits that the peer holds.
-/

namespace BluetoothFormal.Rfcomm

open Foundation

/--
The receive path of a port and its books of credits.  The incoming queue of the
application has the buffers that its callout callback refused.
-/
structure Session where
  port : Port
  hasDataCallback : Bool
  hasDataCOCallback : Bool
  incomingQueue : List (List UInt8)
  rxChar : UInt8
  rxFlagPending : Bool
  lineStatus : UInt8
  localFc : Bool
  granted : Nat
  negotiations : Nat
  peerCredits : Nat

namespace Session

open Port

def evRxChar : UInt32 := 0x00000001
def evRxFlag : UInt32 := 0x00000002
def evOverrun : UInt32 := 0x00002000

def rxLowWm : Nat := rfcMtuSize * rxBufLowWm
def rxHighWm : Nat := rfcMtuSize * rxBufHighWm
def rxCriticalWm : Nat := rfcMtuSize * rxBufCriticalWm

/-- `LINE_STATUS_OVERRUN`, as `PORT_ERR_OVERRUN` too. -/
def lineStatusOverrun : UInt8 := 0x02

/-- `PORT_ERR_BREAK`. -/
def lineStatusBreak : UInt8 := 0x01

def lineStatusFailed : UInt8 := 0x10

/-- `RFCOMM_MIN_MTU` and `RFCOMM_MAX_MTU`. -/
def minMtu : Nat := 23
def maxMtu : Nat := 32767

/-- `RFCOMM_PN_K_MASK`. -/
def kMask : Nat := 7

section

variable (self : Session)

def takesData : Bool := self.hasDataCallback || self.hasDataCOCallback

/-- The buffers that the application has not consumed. -/
def unconsumed : Nat := self.port.rx.queue.buffers.length + self.incomingQueue.length

/-- The receive queue of the port is replaced. -/
def setRx (rx : PortData) : Session :=
  { self with port := { self.port with rx := rx } }

section

variable (enable : Bool)

/-- `RFCOMM_FlowReq`. -/
def flowReq : Session :=
  if self.port.state = .opened ∧ self.port.rfcState = .opened then
    { self with
      port := { self.port with expectsMsc := true }
      localFc := !enable }
  else self

/-- `rfc_send_credit` for all the credits that the peer may still get. -/
def sendCredit : Session :=
  { self with
    port := { self.port with
      creditRx := self.port.creditRxMax
      rx := { self.port.rx with peerFc := false } }
    peerCredits :=
      self.peerCredits + (self.port.creditRxMax - self.port.creditRx) % 2 ^ 8 }

/-- The credits of the given number of buffers are returned, at the low water mark. -/
def returnCredits (count : Nat) : Session :=
  let counted :=
    { self with port := { self.port with creditRx := self.port.creditRx - count } }
  if counted.port.creditRx ≤ counted.port.creditRxLow ∧ counted.port.rx.userFc = false ∧
      counted.port.creditRx < counted.port.creditRxMax then
    counted.sendCredit
  else counted

/-- `port_flow_control_peer` for credit based flow. -/
def flowCredits (count : Nat) : Session :=
  if enable then self.returnCredits count
  else if self.takesData ∨ self.port.creditRxMax ≤ self.port.rx.queue.length then
    self.setRx { self.port.rx with peerFc := true }
  else self

/-- `port_flow_control_peer` for the flow control of TS 07.10. -/
def flowTs710 : Session :=
  let rx := self.port.rx
  if enable then
    if rx.peerFc ∧ rx.queue.size < rxLowWm ∧ rx.queue.length < rxBufLowWm then
      let resumed := self.setRx { rx with peerFc := false }
      if rx.userFc then resumed else resumed.flowReq true
    else self
  else if self.takesData ∨
      ((rx.queue.size > rxHighWm ∨ rx.queue.length > rxBufHighWm) ∧ rx.peerFc = false) then
    (self.setRx { rx with peerFc := true }).flowReq false
  else self

def flowControlPeer (count : Nat) : Session :=
  match self.port.multiplexer with
  | none => self
  | some mcb =>
    if mcb.flow = .credit then self.flowCredits enable count else self.flowTs710 enable

def negotiated (port next : Port) : Port.Event → Option Nat
  | .parNegInd _ _ creditBased k => if creditBased ∧ next.usesCredits then some k else none
  | .parNegCnf _ _ k => if port.expectsPn ∧ next.usesCredits then some k else none
  | _ => none

/-- The credits that the peer is given in a negotiation of the port. -/
def offered (port next : Port) : Port.Event → Option Nat
  | .parNegReq =>
    if port.multiplexer.any (·.flow = .ts710) then none else some next.creditRx
  | .parNegInd _ _ creditBased _ =>
    if creditBased ∧ next.usesCredits then some next.creditRx else none
  | _ => none

def piggybacked (port next : Port) : Nat :=
  ((next.frames.drop port.frames.length).map DataFrame.credits).sum

/-- A step of the port is entered into the books. -/
def account (event : Port.Event) (next : Port) : Session :=
  { self with
    port := next
    lineStatus :=
      match event with
      | .removeConnection => self.lineStatus ||| lineStatusFailed
      | _ => self.lineStatus
    granted :=
      match event with
      | .incCredit credit => self.granted + credit.toNat
      | _ => self.granted + (negotiated self.port next event).getD 0
    negotiations :=
      if (negotiated self.port next event).isSome then self.negotiations + 1
      else self.negotiations
    peerCredits :=
      (offered self.port next event).getD self.peerCredits + piggybacked self.port next }

def notify (self : Session) (events : UInt32) : Session :=
  { self with port := self.port.notify events }

section

variable (payload : List UInt8)

/-- The character that the application waits for is in the data. -/
def flagEvents : UInt32 :=
  if self.rxChar ≠ 0 ∧ self.port.evMask &&& evRxFlag ≠ 0 ∧ self.rxChar ∈ payload then
    evRxFlag
  else 0

/-- The receive queue would exceed one of its critical water marks. -/
def overrun : Bool :=
  self.port.rx.queue.size + payload.length > rxCriticalWm ||
    self.port.rx.queue.length + 1 > self.port.rxBufCritical

/-- A buffer is queued for the application. -/
def enqueue (self : Session) (payload : List UInt8) : Session :=
  let rx := self.port.rx
  let queued := self.setRx { rx with queue := rx.queue.enqueue payload }
  let checked := queued.flowControlPeer false 0
  let events := self.flagEvents payload
  if checked.port.rx.userFc then
    { checked with rxFlagPending := checked.rxFlagPending || events ≠ 0 }
  else checked.notify ((events ||| evRxChar) &&& self.port.evMask)

/--
`PORT_DataInd`.  A callout callback tells whether it takes the data, and keeps what
it does not take; without any callback the buffer is queued, or dropped if the queue
is too long.
-/
def dataInd (taken : Bool) : Session :=
  if self.hasDataCOCallback then
    if taken then self.flowControlPeer true 1
    else
      { self with incomingQueue := self.incomingQueue ++ [payload] }.flowControlPeer false 0
  else if self.hasDataCallback then self.flowControlPeer true 1
  else if self.overrun payload then self
  else self.enqueue payload

def receive (taken : Bool) : Session :=
  if payload = [] then self
  else
    let spent := { self with peerCredits := self.peerCredits - 1 }
    if self.port.rfcState = .opened then spent.dataInd payload taken else spent

/-- `RFCOMM_BufDataInd` for a frame of user data, with the credits in it. -/
def bufDataInd (credit : UInt8) (taken : Bool) : Session :=
  let received := self.receive payload taken
  if credit ≠ 0 then received.account (.incCredit credit) (received.port.incCredit credit)
  else received

end

/-- The loop of `PORT_ReadData`: the data, the number of buffers used up and what remains. -/
def readLoop : Nat → BufferQueue UInt8 → Nat → List UInt8 × Nat × BufferQueue UInt8
  | 0, queue, _ => ([], 0, queue)
  | fuel + 1, queue, maxLength =>
    if maxLength = 0 then ([], 0, queue)
    else
      match queue.dequeue? with
      | none => ([], 0, queue)
      | some (buffer, rest) =>
        if maxLength < buffer.length then
          (buffer.take maxLength, 0, queue.trimFirst maxLength)
        else
          let more := readLoop fuel rest (maxLength - buffer.length)
          (buffer ++ more.1, more.2.1 + 1, more.2.2)

/-- `PORT_ReadData`, with the data read. -/
def readData (maxLength : Nat) : Session × List UInt8 :=
  let rx := self.port.rx
  if self.port.state = .closed ∨ self.lineStatus ≠ 0 ∨ rx.queue.length = 0 then (self, [])
  else
    let read := readLoop (rx.queue.length + 1) rx.queue maxLength
    ((self.setRx { rx with queue := read.2.2 }).flowControlPeer true read.2.1, read.1)

/-- The user's wish reaches the peer: as credits or as a modem status command. -/
def applyUserFc : Session :=
  if self.port.usesCredits then
    if self.port.rx.userFc then self
    else self.flowControlPeer true self.port.creditRx
  else
    let fc := self.port.rx.userFc || self.port.rx.peerFc
    if fc ≠ self.localFc then
      { self with port := self.port.controlReq, localFc := fc }
    else self

def flowControlMaxCredit : Session :=
  if self.port.state = .closed ∨ self.port.multiplexer = none then self
  else
    let applied := (self.setRx { self.port.rx with userFc := !enable }).applyUserFc
    if enable ∧ applied.port.rx.queue.size ≠ 0 then
      let events := if applied.rxFlagPending then evRxChar ||| evRxFlag else evRxChar
      { applied with rxFlagPending := false }.notify (events &&& applied.port.evMask)
    else applied

end

def lineStatusInd (status : UInt8) : Session :=
  let overrun := if status &&& lineStatusOverrun = 0 then 0 else evOverrun
  let broken := if status &&& lineStatusBreak = 0 then 0 else evBreak
  let other := if status &&& ~~~(lineStatusOverrun ||| lineStatusBreak) = 0 then 0 else evErr
  { self with lineStatus := self.lineStatus ||| status }.notify
    (self.port.evMask &&& (overrun ||| broken ||| other))

def setDataCOCallback (registered : Bool) : Session :=
  if self.port.state = .closed then self
  else { self with hasDataCOCallback := registered }

/--
`flush_incoming_que_on_wr_signal`, with the number of buffers that it gets rid of; the call of
`PORT_FlowControl_MaxCredit` at its end is a step of its own.
-/
def flushIncomingQue (count : Nat) : Session :=
  { self with incomingQueue := self.incomingQueue.drop count }

end

inductive Event where
  | port (event : Port.Event)
  | bufDataInd (payload : List UInt8) (credit : UInt8) (taken : Bool)
  | readData (maxLength : Nat)
  | flowControlMaxCredit (enable : Bool)
  | lineStatusInd (status : UInt8)
  | setDataCOCallback (registered : Bool)
  | flushIncomingQue (count : Nat)

/--
The events of the port alone.  Parameter negotiations have passed the checks of
`rfc_process_mx_message`, and credits come in frames of user data.
-/
def wellFormed : Port.Event → Bool
  | .parNegInd _ mtu _ k | .parNegCnf mtu _ k => minMtu ≤ mtu && mtu ≤ maxMtu && k ≤ kMask
  | .incCredit _ => false
  | _ => true

def step (self : Session) : Event → Option Session
  | .port event =>
    if wellFormed event then (self.port.step event).map (self.account event) else none
  | .bufDataInd payload credit taken =>
    if self.port.multiplexer.isSome ∧ (credit ≠ 0 → self.port.usesCredits = true) then
      some (self.bufDataInd payload credit taken)
    else none
  | .readData maxLength => some (self.readData maxLength).1
  | .flowControlMaxCredit enable => some (self.flowControlMaxCredit enable)
  | .lineStatusInd status =>
    if self.port.multiplexer.isSome then some (self.lineStatusInd status) else none
  | .setDataCOCallback registered => some (self.setDataCOCallback registered)
  | .flushIncomingQue count => some (self.flushIncomingQue count)

def opening (port : Port) (hasDataCallback hasDataCOCallback : Bool) (rxChar : UInt8) :
    Session where
  port := port
  hasDataCallback := hasDataCallback
  hasDataCOCallback := hasDataCOCallback
  incomingQueue := []
  rxChar := rxChar
  rxFlagPending := false
  lineStatus := 0
  localFc := false
  granted := 0
  negotiations := 0
  peerCredits := 0

end Session

end BluetoothFormal.Rfcomm
