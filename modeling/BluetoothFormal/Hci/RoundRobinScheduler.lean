import BluetoothFormal.Common.MultiPriorityQueue
import BluetoothFormal.Hci.AclRecombination
import BluetoothFormal.Packet.Inserters
import Mathlib.Data.Multiset.Filter

/-!
# The ACL round-robin scheduler

`RoundRobinScheduler` takes one packet at a time from the connections whose
queues are registered, cuts it into fragments and hands these to the HCI queue
while the controller has buffers.  The code keeps two sets of members, one for
classic and one for LE links; here they are functions of the connection type.

A run interleaves the public calls, the registered queue callbacks, completed
packet reports and the rounds posted to the handler.
-/

namespace BluetoothFormal.Hci.RoundRobinScheduler

open Common
open Hci.AclRecombination
open Packet.Inserters
open Std (TreeMap)

abbrev Handle := UInt16

inductive ConnectionType where
  | classic
  | le
  deriving DecidableEq

/-- The value of a sixteen-bit counter. -/
def wrap16 (value : Nat) : Nat := value % 2 ^ 16

/-- What the controller tells the constructor about its buffers. -/
structure Controller where
  numPacketBuffers : ConnectionType → Nat
  packetLength : ConnectionType → Nat
  bounded : ∀ connectionType, numPacketBuffers connectionType < 2 ^ 16

/-- `acl_queue_handler`, without the queue itself. -/
structure AclQueueHandler where
  connectionType : ConnectionType
  dequeueIsRegistered : Bool
  numberOfSentPackets : Nat
  highPriority : Bool

structure UpperPacket where
  builder : PacketBuilder
  bytes : Bytes
  serialized : serializeToBytes builder = some bytes
  flushable : Bool

def UpperPacket.raw (payload : Bytes) (flushable : Bool) : UpperPacket where
  builder := RawBuilder.serialize ⟨0xffff, payload⟩
  bytes := payload
  serialized := RawBuilder.serializeToBytes_serialize _
  flushable := flushable

structure AclBuilder where
  handle : Handle
  packetBoundaryFlag : PacketBoundaryFlag
  broadcastFlag : BroadcastFlag
  payload : Bytes
  deriving DecidableEq

/-- An entry of `fragments_to_send_`. -/
structure Fragment where
  connectionType : ConnectionType
  builder : AclBuilder
  deriving DecidableEq

/-! ## Fragments of a packet -/

/-- The payloads that `buffer_packet` makes of a packet. -/
def pieces (mtu : Nat) (packet : UpperPacket) : List Bytes :=
  if packet.bytes.length ≤ mtu then [packet.bytes]
  else ((getFragments mtu packet.builder).getD []).map RawBuilder.payload

/-- The loop over the payloads: all but the first one continue the packet. -/
def label (connectionType : ConnectionType) (handle : Handle) :
    PacketBoundaryFlag → List Bytes → List Fragment
  | _, [] => []
  | flag, piece :: rest =>
    ⟨connectionType, handle, flag, .pointToPoint, piece⟩ ::
      label connectionType handle .continuingFragment rest

structure Dequeued where
  connectionType : ConnectionType
  handle : Handle
  packet : UpperPacket

namespace Dequeued

def firstFlag (dequeued : Dequeued) : PacketBoundaryFlag :=
  if dequeued.packet.flushable then .firstAutomaticallyFlushable
  else .firstNonAutomaticallyFlushable

def fragments (dequeued : Dequeued) (mtu : Nat) : List Fragment :=
  label dequeued.connectionType dequeued.handle dequeued.firstFlag (pieces mtu dequeued.packet)

end Dequeued

theorem pieces_ne_nil (mtu : Nat) (packet : UpperPacket) : pieces mtu packet ≠ [] := by
  unfold pieces
  split
  · exact List.cons_ne_nil _ _
  · rename_i long
    have some : packet.bytes ≠ [] := by
      intro empty
      simp [empty] at long
    obtain ⟨fragments, produced, nonempty⟩ := getFragments_ne_nil mtu packet.serialized some
    simpa [produced] using nonempty

variable {payloads : List Bytes} {handle : Handle} {connectionType : ConnectionType}
  {flag : PacketBoundaryFlag} {fragment : Fragment}

theorem label_eq_nil_iff :
    label connectionType handle flag payloads = [] ↔ payloads = [] := by
  cases payloads <;> simp [label]

theorem mem_label (member : fragment ∈ label connectionType handle flag payloads) :
    fragment.connectionType = connectionType ∧ fragment.builder.handle = handle := by
  induction payloads generalizing flag with
  | nil => cases member
  | cons piece rest ih =>
    rcases List.mem_cons.mp member with rfl | later
    · exact ⟨rfl, rfl⟩
    · exact ih later

namespace Dequeued

theorem fragments_ne_nil (dequeued : Dequeued) (mtu : Nat) : dequeued.fragments mtu ≠ [] :=
  fun empty => pieces_ne_nil mtu dequeued.packet (label_eq_nil_iff.mp empty)

theorem mem_fragments {dequeued : Dequeued} {mtu : Nat}
    (member : fragment ∈ dequeued.fragments mtu) :
    fragment.connectionType = dequeued.connectionType ∧ fragment.builder.handle = dequeued.handle :=
  mem_label member

end Dequeued

/-! ## The scheduler -/

/-- The members of `RoundRobinScheduler`; no starting point is the end of the map. -/
structure Scheduler where
  aclQueueHandlers : TreeMap Handle AclQueueHandler
  fragmentsToSend : MultiPriorityQueue Fragment 2
  maxPacketCredits : ConnectionType → Nat
  packetCredits : ConnectionType → Nat
  hciMtu : ConnectionType → Nat
  enqueueRegistered : Bool
  startingPoint : Option Handle

namespace Scheduler

def new (controller : Controller) : Scheduler where
  aclQueueHandlers := ∅
  fragmentsToSend := MultiPriorityQueue.empty
  maxPacketCredits := controller.numPacketBuffers
  packetCredits := controller.numPacketBuffers
  hciMtu := controller.packetLength
  enqueueRegistered := false
  startingPoint := none

section

variable (self : Scheduler)

section

variable (connectionType : ConnectionType)

def setCredits (credits : Nat) : Scheduler :=
  { self with
    packetCredits := Function.update self.packetCredits connectionType credits }

def sendNextFragment : Scheduler :=
  { self with enqueueRegistered := true }

/-- Register one dequeue unless it is registered or its buffer is full. -/
def registerDequeue (handle : Handle) : Scheduler :=
  { self with
    aclQueueHandlers := self.aclQueueHandlers.modify handle fun handler =>
      if handler.dequeueIsRegistered = false ∧ self.packetCredits handler.connectionType ≠ 0 then
        { handler with dequeueIsRegistered := true }
      else handler }

/-- The handles once around, from a starting point on. -/
def roundFrom (start : Handle) (handles : List Handle) : List Handle :=
  handles.dropWhile (· ≠ start) ++ handles.takeWhile (· ≠ start)

def startRoundRobin : Scheduler :=
  if self.packetCredits .classic = 0 ∧ self.packetCredits .le = 0 then self
  else
    match self.fragmentsToSend.front? with
    | some fragment =>
      if self.packetCredits fragment.connectionType = 0 then self
      else self.sendNextFragment
    | none =>
      match self.aclQueueHandlers.keys with
      | [] => self
      | first :: others =>
        let start := if others = [] then first else self.startingPoint.getD first
        { (roundFrom start (first :: others)).foldl registerDequeue self with
          startingPoint := ((first :: others).dropWhile (· ≠ start)).tail.head? }

/-- `Register`, which asserts that the handle is new. -/
def register (handle : Handle) : Option Scheduler :=
  if self.aclQueueHandlers.contains handle then none
  else
    let registered :=
      { self with
        aclQueueHandlers := self.aclQueueHandlers.insert handle ⟨connectionType, false, 0, false⟩ }
    some (if registered.fragmentsToSend.size = 0 then registered.startRoundRobin else registered)

/-- `Unregister`, which asserts that the handle is known. -/
def unregister (handle : Handle) : Option Scheduler :=
  match self.aclQueueHandlers[handle]? with
  | none => none
  | some handler =>
    let reclaimed := self.setCredits handler.connectionType
      (wrap16 (self.packetCredits handler.connectionType + handler.numberOfSentPackets))
    let handlers := self.aclQueueHandlers.erase handle
    some { reclaimed with aclQueueHandlers := handlers, startingPoint := handlers.minKey? }

/-- `SetLinkPriority`; an unknown handle is only logged. -/
def setLinkPriority (handle : Handle) (highPriority : Bool) : Scheduler :=
  { self with
    aclQueueHandlers := self.aclQueueHandlers.modify handle fun handler =>
      { handler with highPriority := highPriority } }

def unregisterAllConnections : Scheduler :=
  { self with
    aclQueueHandlers := self.aclQueueHandlers.map fun _ handler =>
      { handler with dequeueIsRegistered := false } }

def charge (handle : Handle) : Scheduler :=
  { self with
    aclQueueHandlers := self.aclQueueHandlers.modify handle fun handler =>
      { handler with
        numberOfSentPackets :=
          wrap16 (handler.numberOfSentPackets + self.fragmentsToSend.size) } }

def pushFragments (fragments : List Fragment) (priority : Fin 2) : Scheduler :=
  { self with
    fragmentsToSend := fragments.foldl (fun queue fragment => queue.push fragment priority)
      self.fragmentsToSend }

/-- `buffer_packet`; it asserts that fragments wait to be sent after it. -/
def bufferPacket (handle : Handle) (packet : UpperPacket) : Option Scheduler :=
  match self.aclQueueHandlers[handle]? with
  | none => some self
  | some handler =>
    let dequeued : Dequeued := ⟨handler.connectionType, handle, packet⟩
    let buffered := self.pushFragments (dequeued.fragments (self.hciMtu handler.connectionType))
      (if handler.highPriority then 1 else 0)
    if buffered.fragmentsToSend.size = 0 then none
    else some ((buffered.unregisterAllConnections.charge handle).sendNextFragment)

/--
`handle_enqueue_next_fragment`; it takes the front of the queue and asserts that
its link has a credit.
-/
def handleEnqueueNextFragment : Option (Scheduler × Fragment) :=
  match self.fragmentsToSend.front? with
  | none => none
  | some fragment =>
    if self.packetCredits fragment.connectionType = 0 then none
    else
      let sent :=
        { self.setCredits fragment.connectionType
            (self.packetCredits fragment.connectionType - 1) with
          fragmentsToSend := self.fragmentsToSend.pop }
      let registered :=
        match sent.fragmentsToSend.front? with
        | none => false
        | some next =>
          sent.enqueueRegistered && decide (sent.packetCredits next.connectionType ≠ 0)
      some ({ sent with enqueueRegistered := registered }, fragment)

/-- The packets a connection still has with the controller after a report. -/
def reportSent (handle : Handle) (credits : Nat) : Scheduler :=
  { self with
    aclQueueHandlers := self.aclQueueHandlers.modify handle fun handler =>
      { handler with
        numberOfSentPackets :=
          if credits ≤ handler.numberOfSentPackets then handler.numberOfSentPackets - credits
          else 0 } }

/-- The credits of a link after a report, at most its number of buffers. -/
def creditsAfter (credits : Nat) : Nat :=
  let sum := wrap16 (self.packetCredits connectionType + credits)
  if self.maxPacketCredits connectionType < sum then
    self.maxPacketCredits connectionType
  else sum

end

def incomingAclCredits (handle : Handle) (credits : Nat) : Scheduler :=
  match self.aclQueueHandlers[handle]? with
  | none => self
  | some handler =>
    let reported := (self.reportSent handle credits).setCredits handler.connectionType
      (self.creditsAfter handler.connectionType credits)
    if self.packetCredits handler.connectionType = 0 then reported.startRoundRobin
    else reported

end

end Scheduler

/-! ## Runs -/

inductive Event where
  | register (connectionType : ConnectionType) (handle : Handle)
  | unregister (handle : Handle)
  | setLinkPriority (handle : Handle) (highPriority : Bool)
  | bufferPacket (handle : Handle) (packet : UpperPacket)
  | handleEnqueueNextFragment
  | startRoundRobin
  | incomingAclCredits (handle : Handle) (credits : UInt16)

/--
The scheduler with the rounds posted to its handler, the packets it has taken,
the fragments it has handed over, and the handles of those fragments that the
controller has neither completed nor flushed at a disconnection.
-/
structure World where
  scheduler : Scheduler
  postedRounds : Nat
  taken : List Dequeued
  sent : List Fragment
  outstanding : Multiset Handle

namespace World

def initial (controller : Controller) : World := ⟨Scheduler.new controller, 0, [], [], 0⟩

/-- A dequeue callback of a connection runs only while it is registered. -/
def bufferPacket (world : World) (handle : Handle) (packet : UpperPacket) : Option World :=
  match world.scheduler.aclQueueHandlers[handle]? with
  | none => some world
  | some handler =>
    if handler.dequeueIsRegistered then
      (world.scheduler.bufferPacket handle packet).map fun self =>
        { world with
          scheduler := self
          taken := world.taken ++ [⟨handler.connectionType, handle, packet⟩] }
    else none

/-- The enqueue callback runs only while it is registered; the last fragment posts a round. -/
def handleEnqueueNextFragment (world : World) : Option World :=
  if world.scheduler.enqueueRegistered then
    world.scheduler.handleEnqueueNextFragment.map fun reply =>
      { world with
        scheduler := reply.1
        postedRounds :=
          if reply.1.fragmentsToSend.size = 0 then world.postedRounds + 1 else world.postedRounds
        sent := world.sent ++ [reply.2]
        outstanding := reply.2.builder.handle ::ₘ world.outstanding }
  else none

def step (world : World) : Event → Option World
  | .register connectionType handle =>
    (world.scheduler.register connectionType handle).map fun self =>
      { world with scheduler := self }
  | .unregister handle =>
    (world.scheduler.unregister handle).map fun self =>
      { world with
        scheduler := self
        outstanding := world.outstanding.filter (· ≠ handle) }
  | .setLinkPriority handle highPriority =>
    some { world with scheduler := world.scheduler.setLinkPriority handle highPriority }
  | .bufferPacket handle packet => world.bufferPacket handle packet
  | .handleEnqueueNextFragment => world.handleEnqueueNextFragment
  | .startRoundRobin =>
    match world.postedRounds with
    | 0 => none
    | rounds + 1 =>
      some
        { world with
          scheduler := world.scheduler.startRoundRobin
          postedRounds := rounds }
  | .incomingAclCredits handle credits =>
    some
      { world with
        scheduler := world.scheduler.incomingAclCredits handle credits.toNat
        outstanding := world.outstanding - Multiset.replicate credits.toNat handle }

end World

end BluetoothFormal.Hci.RoundRobinScheduler
