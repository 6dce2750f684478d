import BluetoothFormal.Foundation.Transition
import Mathlib.Algebra.Group.Nat.Defs

/-!
# Recombination of incoming ACL packets

The `assembler` of `acl_manager` collects the ACL packets of one connection
into L2CAP PDUs.  The partial PDU and the number of bytes still missing are two
separate members, and each branch resets its own choice of them.  Finished
payloads wait in the incoming queue for the upper layer.

The meaning of a PDU stays outside the assembler: `Delivers` says which payloads
a history of packets accounts for, and every run of packets that respect their
own length field delivers only such payloads.
-/

namespace BluetoothFormal.Hci.AclRecombination

open Foundation.Transition List

abbrev Bytes := List UInt8

/-- The two-bit packet boundary flag; the specification leaves the last value unused. -/
inductive PacketBoundaryFlag where
  | firstNonAutomaticallyFlushable
  | continuingFragment
  | firstAutomaticallyFlushable
  | unassigned
  deriving DecidableEq

/-- The two-bit broadcast flag; the last two values have no name in the packet definition. -/
inductive BroadcastFlag where
  | pointToPoint
  | activePeripheralBroadcast
  | unassigned (value : Fin 2)
  deriving DecidableEq

/-- What the assembler reads of an ACL packet. -/
structure AclView where
  packetBoundaryFlag : PacketBoundaryFlag
  broadcastFlag : BroadcastFlag
  payload : Bytes

def kMaxQueuedPacketsPerConnection : Nat := 10

def kL2capBasicFrameHeaderSize : Nat := 4

/-- Subtraction of `size_t` values. -/
def sizeSub (left right : Nat) : Nat :=
  if right ≤ left then left - right else 2 ^ 64 + left - right

/-- The length field of a starting payload, or zero if the payload has no whole header. -/
def getL2capPduSize (payload : Bytes) : Nat :=
  match payload with
  | low :: high :: _ :: _ :: _ => high.toNat * 2 ^ 8 + low.toNat
  | _ => 0

/-- The members of `assembler`. -/
structure Assembler where
  recombinationStage : Bytes
  remainingSduContinuationPacketSize : Nat
  incomingQueue : List Bytes
  enqueueRegistered : Bool

namespace Assembler

def initial : Assembler where
  recombinationStage := []
  remainingSduContinuationPacketSize := 0
  incomingQueue := []
  enqueueRegistered := false

section

variable (self : Assembler)

section

variable (payload : Bytes)

/-- The end of `on_incoming_packet`: queue the payload unless the queue is congested. -/
def pushPayload : Assembler :=
  if kMaxQueuedPacketsPerConnection < self.incomingQueue.length then self
  else
    { self with
      incomingQueue := self.incomingQueue ++ [payload]
      enqueueRegistered := true }

/-- The branch of `on_incoming_packet` for `CONTINUING_FRAGMENT`. -/
def onContinuingFragment : Assembler :=
  if self.remainingSduContinuationPacketSize < payload.length then
    { self with recombinationStage := [], remainingSduContinuationPacketSize := 0 }
  else
    let remaining := self.remainingSduContinuationPacketSize - payload.length
    let stage := self.recombinationStage ++ payload
    if remaining ≠ 0 then
      { self with recombinationStage := stage, remainingSduContinuationPacketSize := remaining }
    else
      pushPayload
        { self with recombinationStage := [], remainingSduContinuationPacketSize := 0 } stage

/-- What the branch for `FIRST_AUTOMATICALLY_FLUSHABLE` stores as the missing length. -/
def missingAfterFirst : Nat :=
  if getL2capPduSize payload < sizeSub payload.length kL2capBasicFrameHeaderSize then 0
  else sizeSub (getL2capPduSize payload) (sizeSub payload.length kL2capBasicFrameHeaderSize)

/-- The branch for `FIRST_AUTOMATICALLY_FLUSHABLE`; an unfinished stage is only logged. -/
def onFirstAutomaticallyFlushable : Assembler :=
  let remaining := missingAfterFirst payload
  if 0 < remaining then
    { self with
      recombinationStage := payload
      remainingSduContinuationPacketSize := remaining }
  else pushPayload { self with remainingSduContinuationPacketSize := remaining } payload

end

def onIncomingPacket (packet : AclView) : Assembler :=
  if packet.broadcastFlag = .activePeripheralBroadcast then self
  else
    match packet.packetBoundaryFlag with
    | .firstNonAutomaticallyFlushable => self
    | .continuingFragment => self.onContinuingFragment packet.payload
    | .firstAutomaticallyFlushable => self.onFirstAutomaticallyFlushable packet.payload
    | .unassigned => self.pushPayload packet.payload

/--
`on_le_incoming_data_ready`, called while the enqueue is registered; taking the
front of an empty queue has no meaning.
-/
def onLeIncomingDataReady : Option (Assembler × Bytes) :=
  match self.enqueueRegistered, self.incomingQueue with
  | true, payload :: rest =>
    some ({ self with incomingQueue := rest, enqueueRegistered := !rest.isEmpty }, payload)
  | _, _ => none

end

end Assembler

open Assembler

/-! ## Runs -/

inductive Event where
  | incomingPacket (packet : AclView)
  | leIncomingDataReady

/-- A packet that `on_incoming_packet` drops before looking at its payload. -/
def AclView.Ignored (packet : AclView) : Prop :=
  packet.broadcastFlag = .activePeripheralBroadcast ∨
    packet.packetBoundaryFlag = .firstNonAutomaticallyFlushable
  deriving Decidable

/-- The assembler with the packets it took and the payloads it handed upward. -/
structure World where
  assembler : Assembler
  taken : List AclView
  delivered : List Bytes

namespace World

def initial : World := ⟨Assembler.initial, [], []⟩

def step (world : World) : Event → Option World
  | .incomingPacket packet =>
    some
      { world with
        assembler := world.assembler.onIncomingPacket packet
        taken := if packet.Ignored then world.taken else world.taken ++ [packet] }
  | .leIncomingDataReady =>
    world.assembler.onLeIncomingDataReady.map fun reply =>
      { world with assembler := reply.1, delivered := world.delivered ++ [reply.2] }

/-- The payloads delivered and those that wait to be delivered. -/
def finished (world : World) : List Bytes :=
  world.delivered ++ world.assembler.incomingQueue

end World

open World

/-! ## What may be delivered -/

/-- A payload with a whole header whose size is the one its length field announces. -/
def WholePdu (payload : Bytes) : Prop :=
  kL2capBasicFrameHeaderSize ≤ payload.length ∧
    payload.length = getL2capPduSize payload + kL2capBasicFrameHeaderSize
  deriving Decidable

/-- The payloads of packets one after another. -/
def joined (packets : List AclView) : Bytes :=
  packets.flatMap AclView.payload

/-- A first packet and continuing ones. -/
def Consecutive (first : AclView) (rest : List AclView) : Prop :=
  first.packetBoundaryFlag = .firstAutomaticallyFlushable ∧
    ∀ packet ∈ rest, packet.packetBoundaryFlag = .continuingFragment

/--
The packets of a history account for the delivered payloads: each payload is a
whole PDU made of one first packet and the continuing packets directly behind
it, different payloads are made of different packets in the same order, and the
other packets are not delivered.
-/
inductive Delivers : List AclView → List Bytes → Prop where
  | nothing : Delivers [] []
  | dropped {history : List AclView} {payloads : List Bytes}
      (earlier : Delivers history payloads) (packet : AclView) :
      Delivers (history ++ [packet]) payloads
  | whole {history : List AclView} {payloads : List Bytes}
      (earlier : Delivers history payloads) {first : AclView} {rest : List AclView}
      (consecutive : Consecutive first rest) (complete : WholePdu (joined (first :: rest))) :
      Delivers (history ++ first :: rest) (payloads ++ [joined (first :: rest)])

variable {history : List AclView} {payloads : List Bytes} {payload : Bytes}

namespace Delivers

theorem dropAll (earlier : Delivers history payloads) (packets : List AclView) :
    Delivers (history ++ packets) payloads := by
  induction packets generalizing history with
  | nil => simpa using earlier
  | cons packet rest ih => simpa using ih (earlier.dropped packet)

theorem take (delivers : Delivers history payloads) :
    ∀ {front waiting : List Bytes}, payloads = front ++ waiting → Delivers history front := by
  induction delivers with
  | nothing =>
    intro front waiting split
    obtain ⟨rfl, _⟩ := append_eq_nil_iff.mp split.symm
    exact nothing
  | dropped earlier packet ih =>
    intro front waiting split
    exact (ih split).dropped packet
  | @whole history payloads earlier first rest consecutive complete ih =>
    intro front waiting split
    rcases eq_nil_or_concat waiting with rfl | ⟨others, last, rfl⟩
    · rw [append_nil] at split
      exact split ▸ earlier.whole consecutive complete
    · rw [concat_eq_append, ← append_assoc] at split
      exact (ih (append_inj_left' split rfl)).dropAll (first :: rest)

end Delivers

/-! ## The length field -/

theorem getL2capPduSize_append (header : kL2capBasicFrameHeaderSize ≤ payload.length)
    (more : Bytes) : getL2capPduSize (payload ++ more) = getL2capPduSize payload := by
  match payload, header with
  | _ :: _ :: _ :: _ :: _, _ => rfl

/-- The size check that makes a starting payload acceptable. -/
def FitsLength (payload : Bytes) : Prop :=
  kL2capBasicFrameHeaderSize ≤ payload.length ∧
    payload.length ≤ getL2capPduSize payload + kL2capBasicFrameHeaderSize
  deriving Decidable

theorem Assembler.missingAfterFirst_of_fits (fits : FitsLength payload) :
    payload.length + missingAfterFirst payload =
      getL2capPduSize payload + kL2capBasicFrameHeaderSize := by
  obtain ⟨header, bounded⟩ := fits
  have inner : sizeSub payload.length kL2capBasicFrameHeaderSize =
      payload.length - kL2capBasicFrameHeaderSize := if_pos header
  have enough : payload.length - kL2capBasicFrameHeaderSize ≤ getL2capPduSize payload := by omega
  rw [missingAfterFirst, inner, if_neg (Nat.not_lt.mpr enough), sizeSub, if_pos enough]
  omega

/-! ## The invariant of a run -/

/-- The payload respects its flag while the given number of bytes is missing. -/
def RespectsFlag (missing : Nat) (payload : Bytes) : PacketBoundaryFlag → Prop
  | .firstNonAutomaticallyFlushable => True
  | .continuingFragment => payload ≠ [] ∨ 0 < missing
  | .firstAutomaticallyFlushable => FitsLength payload
  | .unassigned => False

instance (missing : Nat) (payload : Bytes) (flag : PacketBoundaryFlag) :
    Decidable (RespectsFlag missing payload flag) := by
  unfold RespectsFlag
  split <;> infer_instance

/-- A packet that respects its length field, and no empty continuation of a finished PDU. -/
def Respects (world : World) : Event → Prop
  | .incomingPacket packet =>
    packet.Ignored ∨ RespectsFlag world.assembler.remainingSduContinuationPacketSize
      packet.payload packet.packetBoundaryFlag
  | .leIncomingDataReady => True

instance (world : World) (event : Event) : Decidable (Respects world event) := by
  unfold Respects
  split <;> infer_instance

/-- What the packets taken so far have become. -/
inductive Accounted (taken : List AclView) (finished : List Bytes) (stage : Bytes) : Nat → Prop
  | idle (delivers : Delivers taken finished) : Accounted taken finished stage 0
  | partway {remaining : Nat} {earlier : List AclView} {first : AclView} {rest : List AclView}
      (history : taken = earlier ++ first :: rest) (delivers : Delivers earlier finished)
      (consecutive : Consecutive first rest) (staged : stage = joined (first :: rest))
      (header : kL2capBasicFrameHeaderSize ≤ stage.length)
      (missing : stage.length + remaining = getL2capPduSize stage + kL2capBasicFrameHeaderSize)
      (unfinished : 0 < remaining) : Accounted taken finished stage remaining

namespace Accounted

theorem delivers {taken : List AclView} {finished : List Bytes} {stage : Bytes} {remaining : Nat}
    (accounted : Accounted taken finished stage remaining) : Delivers taken finished := by
  cases accounted with
  | idle delivers => exact delivers
  | @partway _ _ first rest history delivers =>
    rw [history]
    exact delivers.dropAll (first :: rest)

end Accounted

variable {rest : List AclView} {next : World}

namespace World

def Sound (world : World) : Prop :=
  Accounted world.taken world.finished world.assembler.recombinationStage
    world.assembler.remainingSduContinuationPacketSize

theorem delivers_push {self : Assembler} {delivered : List Bytes} {earlier : List AclView}
    {first : AclView} (delivers : Delivers earlier (delivered ++ self.incomingQueue))
    (consecutive : Consecutive first rest) (complete : WholePdu (joined (first :: rest))) :
    Delivers (earlier ++ first :: rest)
      (delivered ++ (self.pushPayload (joined (first :: rest))).incomingQueue) := by
  unfold pushPayload
  split
  · exact delivers.dropAll (first :: rest)
  · rw [← append_assoc]
    exact delivers.whole consecutive complete

end World

@[simp] theorem Assembler.pushPayload_remaining (self : Assembler) (payload : Bytes) :
    (self.pushPayload payload).remainingSduContinuationPacketSize =
      self.remainingSduContinuationPacketSize := by
  unfold pushPayload
  split <;> rfl

@[simp] theorem Assembler.pushPayload_stage (self : Assembler) (payload : Bytes) :
    (self.pushPayload payload).recombinationStage = self.recombinationStage := by
  unfold pushPayload
  split <;> rfl

theorem joined_singleton (packet : AclView) : joined [packet] = packet.payload :=
  append_nil _

theorem joined_concat (packets : List AclView) (packet : AclView) :
    joined (packets ++ [packet]) = joined packets ++ packet.payload := by
  simp [joined]

variable {packet : AclView} {world : World}

theorem Consecutive.concat {first : AclView} (consecutive : Consecutive first rest)
    (continuing : packet.packetBoundaryFlag = .continuingFragment) :
    Consecutive first (rest ++ [packet]) := by
  refine ⟨consecutive.1, fun other member => ?_⟩
  rcases mem_append.mp member with before | last
  · exact consecutive.2 other before
  · exact mem_singleton.mp last ▸ continuing

namespace World

section

variable (sound : world.Sound)
include sound

theorem Sound.first (starting : packet.packetBoundaryFlag = .firstAutomaticallyFlushable)
    (fits : FitsLength packet.payload) :
    Accounted (world.taken ++ [packet]) (world.delivered ++
        (world.assembler.onFirstAutomaticallyFlushable packet.payload).incomingQueue)
      (world.assembler.onFirstAutomaticallyFlushable packet.payload).recombinationStage
      (world.assembler.onFirstAutomaticallyFlushable
        packet.payload).remainingSduContinuationPacketSize := by
  have missing := missingAfterFirst_of_fits fits
  have alone : Consecutive packet [] := ⟨starting, fun _ member => absurd member not_mem_nil⟩
  unfold onFirstAutomaticallyFlushable
  dsimp only
  split
  · rename_i unfinished
    exact .partway rfl sound.delivers alone (joined_singleton packet).symm fits.1 missing unfinished
  · rename_i finished
    have done : missingAfterFirst packet.payload = 0 := by omega
    have complete : WholePdu (joined [packet]) := by
      rw [joined_singleton]
      exact ⟨fits.1, by rw [← missing, done, Nat.add_zero]⟩
    rw [pushPayload_remaining, pushPayload_stage]
    rw [done, ← joined_singleton packet]
    exact .idle (delivers_push sound.delivers alone complete)

/-- A continuing packet extends, completes or abandons the PDU in progress. -/
theorem Sound.continuing (continuing : packet.packetBoundaryFlag = .continuingFragment)
    (expected : packet.payload ≠ [] ∨ 0 < world.assembler.remainingSduContinuationPacketSize) :
    Accounted (world.taken ++ [packet])
      (world.delivered ++ (world.assembler.onContinuingFragment packet.payload).incomingQueue)
      (world.assembler.onContinuingFragment packet.payload).recombinationStage
      (world.assembler.onContinuingFragment packet.payload).remainingSduContinuationPacketSize := by
  unfold onContinuingFragment
  split
  · exact .idle (sound.delivers.dropped packet)
  · rename_i enough
    unfold Sound at sound
    generalize same : world.assembler.remainingSduContinuationPacketSize = remaining at *
    cases sound with
    | idle =>
      have some := length_pos_iff.mpr (expected.resolve_right (Nat.lt_irrefl 0))
      exact absurd some (by omega)
    | @partway _ earlier first rest history delivers consecutive staged header missing unfinished =>
      have further := consecutive.concat continuing
      have longer : joined (first :: (rest ++ [packet])) =
          world.assembler.recombinationStage ++ packet.payload := by
        rw [staged, ← cons_append, joined_concat]
      have length := getL2capPduSize_append header packet.payload
      have grown : (world.assembler.recombinationStage ++ packet.payload).length =
          world.assembler.recombinationStage.length + packet.payload.length :=
        length_append
      have extended : world.taken ++ [packet] = earlier ++ first :: (rest ++ [packet]) := by
        simp [history]
      dsimp only
      split
      · dsimp only
        exact .partway extended delivers further longer.symm (by omega) (by omega) (by omega)
      · have complete : WholePdu (joined (first :: (rest ++ [packet]))) := by
          rw [longer]
          exact ⟨by omega, by omega⟩
        rw [pushPayload_remaining, pushPayload_stage, extended, ← longer]
        exact .idle (delivers_push delivers further complete)

theorem Sound.incomingPacket (respects : Respects world (.incomingPacket packet))
    (moved : world.step (.incomingPacket packet) = some next) : next.Sound := by
  obtain rfl := Option.some.inj moved
  by_cases ignored : packet.Ignored
  · have same : world.assembler.onIncomingPacket packet = world.assembler := by
      unfold onIncomingPacket
      rcases ignored with broadcast | unflushable
      · rw [if_pos broadcast]
      · rw [unflushable]
        exact ite_self _
    simpa only [Sound, finished, same, if_pos ignored] using sound
  · obtain ⟨addressed, flushable⟩ := not_or.mp ignored
    have respected := respects.resolve_left ignored
    cases flag : packet.packetBoundaryFlag with
    | firstNonAutomaticallyFlushable => exact absurd flag flushable
    | unassigned => simp [flag, RespectsFlag] at respected
    | firstAutomaticallyFlushable =>
      simp only [flag, RespectsFlag] at respected
      have taken := sound.first flag respected
      simpa only [Sound, finished, onIncomingPacket, if_neg addressed, flag,
        if_neg ignored] using taken
    | continuingFragment =>
      simp only [flag, RespectsFlag] at respected
      have taken := sound.continuing flag respected
      simpa only [Sound, finished, onIncomingPacket, if_neg addressed, flag,
        if_neg ignored] using taken

theorem Sound.leIncomingDataReady (moved : world.step .leIncomingDataReady = some next) :
    next.Sound := by
  simp only [step, onLeIncomingDataReady] at moved
  split at moved
  · rename_i payload rest _ queue
    obtain rfl := Option.some.inj moved
    simpa [Sound, finished, queue] using sound
  · cases moved

end

theorem Sound.step (event : Event) (next : World) (sound : world.Sound)
    (respects : Respects world event) (moved : world.step event = some next) : next.Sound := by
  cases event with
  | incomingPacket packet => exact sound.incomingPacket respects moved
  | leIncomingDataReady => exact sound.leIncomingDataReady moved

end World

def single (flag : PacketBoundaryFlag) (payload : Bytes) : List Event :=
  [.incomingPacket ⟨flag, .pointToPoint, payload⟩, .leIncomingDataReady]

end BluetoothFormal.Hci.AclRecombination
