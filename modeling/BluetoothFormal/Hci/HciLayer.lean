import BluetoothFormal.Foundation.Transition

/-!
# The command queue of the HCI layer

`HciLayer::impl` sends one command at a time: the queue, the credit counter and
the opcode waited for are shared by the enqueue calls, the command status and
command complete events and the timeout.  A step that trips an assertion has no
result.  Commands are numbered in the order of their enqueue calls, and every
command sent, answered or flushed is an output of the step that does it.
-/

namespace BluetoothFormal.Hci.HciLayer

abbrev OpCode := UInt16

abbrev ErrorCode := UInt8

def OpCode.none : OpCode := 0x0000

def OpCode.controllerDebugInfo : OpCode := 0xFD5B

def ErrorCode.unknownHciCommand : ErrorCode := 0x01

/-- A command packet; no packet definition uses the opcode for credit-only events. -/
structure Command where
  opCode : OpCode
  named : opCode ≠ OpCode.none
  deriving DecidableEq

/-- `CommandQueueEntry`, whose callbacks are those of the numbered enqueue call. -/
structure CommandQueueEntry where
  callback : Nat
  command : Command
  waitingForStatus : Bool
  deriving DecidableEq

/-- The two events that answer commands. -/
inductive EventView where
  | commandStatus (numHciCommandPackets : UInt8) (commandOpCode : OpCode) (status : ErrorCode)
  | commandComplete (numHciCommandPackets : UInt8) (commandOpCode : OpCode)
      (payload : List UInt8)
  deriving DecidableEq

namespace EventView

def numHciCommandPackets : EventView → UInt8
  | .commandStatus packets _ _ => packets
  | .commandComplete packets _ _ => packets

def commandOpCode : EventView → OpCode
  | .commandStatus _ opCode _ => opCode
  | .commandComplete _ opCode _ => opCode

def isStatus : EventView → Bool
  | .commandStatus _ _ _ => true
  | .commandComplete _ _ _ => false

def isUnknownCommand : EventView → Bool
  | .commandStatus _ _ status => status == ErrorCode.unknownHciCommand
  | .commandComplete _ _ _ => false

end EventView

/-- What a callback is given: the event, or a command complete view of no bytes. -/
inductive Response where
  | received (event : EventView)
  | emptyComplete
  deriving DecidableEq

/-- The opcode that a response carries. -/
def Response.commandOpCode : Response → Option OpCode
  | .received event => some event.commandOpCode
  | .emptyComplete => Option.none

/-- `hci_timeout_alarm_`, which is deleted after it has fired. -/
inductive Alarm where
  | deleted
  | idle
  | scheduled (opCode : OpCode)

def Alarm.schedule (opCode : OpCode) : Alarm → Alarm
  | .deleted => .deleted
  | _ => .scheduled opCode

/-- The members of `HciLayer::impl` for commands. -/
structure Impl where
  commandQueue : List CommandQueueEntry
  waitingCommand : OpCode
  commandCredits : UInt8
  hciTimeoutAlarm : Alarm

/--
What a step makes visible.  The timeout abandons the command that was sent last
and flushes those that were not sent.
-/
inductive Output where
  | sent (entry : CommandQueueEntry)
  | invoked (entry : CommandQueueEntry) (event : EventView) (response : Response)
  | abandoned (entry : CommandQueueEntry)
  | flushed (entry : CommandQueueEntry)
  deriving DecidableEq

/-- A step returns the new members and its outputs in order. -/
abbrev Reply := Impl × List Output

namespace Impl

def initial : Impl where
  commandQueue := []
  waitingCommand := OpCode.none
  commandCredits := 1
  hciTimeoutAlarm := .idle

section

variable (impl : Impl)

def sendNextCommand : Reply :=
  if impl.commandCredits = 0 then (impl, [])
  else if impl.waitingCommand ≠ OpCode.none then (impl, [])
  else
    match impl.commandQueue with
    | [] => (impl, [])
    | entry :: _ =>
      ({ impl with
          waitingCommand := entry.command.opCode
          commandCredits := 0
          hciTimeoutAlarm := impl.hciTimeoutAlarm.schedule entry.command.opCode },
        [.sent entry])

/-- Put outputs made earlier in the step before those of its last part. -/
def after (outputs : List Output) (reply : Reply) : Reply := (reply.1, outputs ++ reply.2)

def enqueueCommand (entry : CommandQueueEntry) : Reply :=
  sendNextCommand { impl with commandQueue := impl.commandQueue ++ [entry] }

/-- The test of the opcode group: any bit of the field passes it. -/
def isVendorSpecific (opCode : OpCode) : Bool := opCode.toNat &&& (0x3f <<< 10) != 0

/-- The end of `handle_command_response`, with the rest of the queue. -/
def retire (rest : List CommandQueueEntry) (outputs : List Output) : Reply :=
  let retired := { impl with commandQueue := rest, waitingCommand := OpCode.none }
  match impl.hciTimeoutAlarm with
  | .deleted => (retired, outputs)
  | _ => after outputs (sendNextCommand { retired with hciTimeoutAlarm := .idle })

/-- The part of `handle_command_response` for the command waited for. -/
def answer (entry : CommandQueueEntry) (rest : List CommandQueueEntry) (event : EventView) :
    Option Reply :=
  if isVendorSpecific event.commandOpCode ∧ event.isUnknownCommand ∧
      entry.waitingForStatus = false then
    some (impl.retire rest [.invoked entry event .emptyComplete])
  else if entry.waitingForStatus = event.isStatus then
    some (impl.retire rest [.invoked entry event (.received event)])
  else none

def handleCommandResponse (event : EventView) : Option Reply :=
  let credited := { impl with commandCredits := event.numHciCommandPackets }
  if event.commandOpCode = OpCode.none then some credited.sendNextCommand
  else
    match credited.commandQueue with
    | [] => none
    | entry :: rest =>
      if credited.waitingCommand = OpCode.controllerDebugInfo ∧
          event.commandOpCode ≠ OpCode.controllerDebugInfo then some (credited, [])
      else if credited.waitingCommand = event.commandOpCode then
        credited.answer entry rest event
      else none

/-- `on_hci_event` for the two events; without commands only credits may arrive. -/
def onHciEvent (event : EventView) : Option Reply :=
  if impl.commandQueue = [] ∧ event.commandOpCode ≠ OpCode.none then none
  else impl.handleCommandResponse event

def debugInfo : Command := ⟨OpCode.controllerDebugInfo, by decide⟩

def cleared : List Output :=
  if impl.waitingCommand = OpCode.none then impl.commandQueue.map .flushed
  else impl.commandQueue.head?.toList.map .abandoned ++ impl.commandQueue.tail.map .flushed

/-- `on_hci_timeout`; the number is that of its own enqueue call. -/
def onHciTimeout (callback : Nat) : Reply :=
  let emptied :=
    { impl with commandQueue := [], commandCredits := 1, waitingCommand := OpCode.none }
  let reply := emptied.enqueueCommand ⟨callback, debugInfo, false⟩
  after impl.cleared ({ reply.1 with hciTimeoutAlarm := .deleted }, reply.2)

end

end Impl

/-! ## Runs -/

inductive Event where
  | enqueueCommand (command : Command) (waitingForStatus : Bool)
  | hciEvent (event : EventView)
  | hciTimeout

/-- The layer with the number of enqueue calls, all outputs so far and whether it timed out. -/
structure World where
  impl : Impl
  enqueued : Nat
  outputs : List Output
  timedOut : Bool

namespace World

def initial : World := ⟨Impl.initial, 0, [], false⟩

def apply (world : World) (reply : Reply) : World :=
  { world with impl := reply.1, outputs := world.outputs ++ reply.2 }

def step (world : World) : Event → Option World
  | .enqueueCommand command waitingForStatus =>
    some ({ world with enqueued := world.enqueued + 1 }.apply
      (world.impl.enqueueCommand ⟨world.enqueued, command, waitingForStatus⟩))
  | .hciEvent event => (world.impl.onHciEvent event).map world.apply
  | .hciTimeout =>
    match world.impl.hciTimeoutAlarm with
    | .scheduled _ =>
      some ({ world with enqueued := world.enqueued + 1, timedOut := true }.apply
        (world.impl.onHciTimeout world.enqueued))
    | _ => none

end World

end BluetoothFormal.Hci.HciLayer
