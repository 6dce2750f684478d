import BluetoothFormal.Hci.AclRecombination
import BluetoothFormal.Packet.Inserters

/-!
# Fragmentation and recombination are inverse

The fragmenter cuts a serialized PDU into pieces of the controller's buffer
size.  The assembler on the other side puts a first piece and its continuations
together again: the first piece holds the whole basic header, so it announces
exactly the bytes of the later pieces, and the last of them completes the PDU.
-/

namespace BluetoothFormal.Hci.AclFragmentation

open Foundation.Chunks Hci.AclRecombination Packet.Inserters List Assembler

/-- An assembler between two PDUs. -/
def Idle (self : Assembler) : Prop :=
  self.recombinationStage = [] ∧ self.remainingSduContinuationPacketSize = 0
  deriving Decidable

/-- The incoming queue takes one payload more. -/
def HasSpace (self : Assembler) : Prop :=
  self.incomingQueue.length ≤ kMaxQueuedPacketsPerConnection
  deriving Decidable

def continuing (payload : Bytes) : AclView := ⟨.continuingFragment, .pointToPoint, payload⟩

def fragmentPackets : List Bytes → List AclView
  | [] => []
  | first :: rest =>
    ⟨.firstAutomaticallyFlushable, .pointToPoint, first⟩ :: rest.map continuing

variable {payload : Bytes} {pieces : List Bytes}

section

variable (self : Assembler)

def receive (packets : List AclView) : Assembler :=
  packets.foldl onIncomingPacket self

def queued (payload : Bytes) : Assembler where
  recombinationStage := []
  remainingSduContinuationPacketSize := 0
  incomingQueue := self.incomingQueue ++ [payload]
  enqueueRegistered := true

theorem pushPayload_of_space (payload : Bytes) (space : HasSpace self) :
    self.pushPayload payload = { self with
        incomingQueue := self.incomingQueue ++ [payload]
        enqueueRegistered := true } :=
  if_neg (Nat.not_lt.mpr space)

theorem onContinuingFragment_partway {self : Assembler} {missing : Nat}
    (expected : self.remainingSduContinuationPacketSize = payload.length + missing)
    (more : 0 < missing) :
    self.onContinuingFragment payload = { self with
        recombinationStage := self.recombinationStage ++ payload
        remainingSduContinuationPacketSize := missing } := by
  have left : self.remainingSduContinuationPacketSize - payload.length = missing := by omega
  rw [onContinuingFragment, if_neg (by omega)]
  simp only [left]
  exact if_pos (Nat.ne_of_gt more)

theorem onContinuingFragment_last {self : Assembler} (space : HasSpace self)
    (expected : self.remainingSduContinuationPacketSize = payload.length) :
    self.onContinuingFragment payload = queued self (self.recombinationStage ++ payload) := by
  rw [onContinuingFragment, if_neg (by omega)]
  simp only [expected, Nat.sub_self]
  rw [if_neg (fun distinct => distinct rfl)]
  exact pushPayload_of_space { self with
    recombinationStage := [], remainingSduContinuationPacketSize := 0 } _ space

theorem flatten_length_pos {piece : Bytes} {rest : List Bytes}
    (nonempty : ∀ other ∈ piece :: rest, other ≠ []) : 0 < (piece :: rest).flatten.length := by
  have some := length_pos_iff.mpr (nonempty piece mem_cons_self)
  rw [flatten_cons, length_append]
  omega

theorem receive_continuing (space : HasSpace self) (nonempty : ∀ piece ∈ pieces, piece ≠ [])
    (some : pieces ≠ [])
    (expected : self.remainingSduContinuationPacketSize = pieces.flatten.length) :
    receive self (pieces.map continuing) =
      queued self (self.recombinationStage ++ pieces.flatten) := by
  induction pieces generalizing self with
  | nil => exact absurd rfl some
  | cons piece rest ih =>
    rw [flatten_cons, length_append] at expected
    cases rest with
    | nil =>
      have all : self.remainingSduContinuationPacketSize = piece.length := by
        simpa using expected
      have last := onContinuingFragment_last space all
      simpa [receive, continuing, onIncomingPacket] using last
    | cons second others =>
      have later : ∀ piece ∈ second :: others, piece ≠ [] :=
        fun piece member => nonempty piece (mem_cons_of_mem _ member)
      have more := flatten_length_pos later
      have joined := onContinuingFragment_partway expected more
      rw [map_cons, receive, foldl_cons]
      change receive (self.onContinuingFragment piece) _ = _
      rw [joined, ih { self with
        recombinationStage := self.recombinationStage ++ piece
        remainingSduContinuationPacketSize := (second :: others).flatten.length } space later
        (cons_ne_nil _ _) rfl]
      simp [queued]

end

theorem receive_fragmentPackets {self : Assembler} {pdu : Bytes} (idle : Idle self)
    (space : HasSpace self) (whole : WholePdu pdu) {size : Nat}
    (header : kL2capBasicFrameHeaderSize ≤ size) (chunking : IsChunking size pdu pieces) :
    receive self (fragmentPackets pieces) = queued self pdu := by
  cases pieces with
  | nil =>
    have empty : pdu = [] := chunking.joined.symm
    simp [empty, WholePdu, kL2capBasicFrameHeaderSize] at whole
  | cons first rest =>
    have joined : first ++ rest.flatten = pdu := by simpa using chunking.joined
    have headed : kL2capBasicFrameHeaderSize ≤ first.length := by
      rcases chunking.head_length with full | ⟨_, everything⟩
      · exact full ▸ header
      · exact everything ▸ whole.1
    have announced : getL2capPduSize pdu = getL2capPduSize first :=
      joined ▸ getL2capPduSize_append headed rest.flatten
    have length : pdu.length = first.length + rest.flatten.length := by
      rw [← joined, length_append]
    have missing : missingAfterFirst first = rest.flatten.length := by
      have fits : FitsLength first := ⟨headed, by have := whole.2; omega⟩
      have := missingAfterFirst_of_fits fits
      have := whole.2
      omega
    change receive (self.onFirstAutomaticallyFlushable first) (rest.map continuing) = _
    unfold onFirstAutomaticallyFlushable
    rw [missing]
    cases rest with
    | nil =>
      have alone : first = pdu := by simpa using joined
      rw [if_neg (by simp), pushPayload_of_space _ _ (by exact space), alone]
      simp [receive, queued, idle.1]
    | cons second others =>
      have later : ∀ piece ∈ second :: others, piece ≠ [] :=
        fun piece member => chunking.nonempty piece (mem_cons_of_mem _ member)
      have more := flatten_length_pos later
      rw [if_pos more, receive_continuing { self with
        recombinationStage := first
        remainingSduContinuationPacketSize := (second :: others).flatten.length } space later
        (cons_ne_nil _ _) rfl, joined]
      rfl

/--
For every builder of an L2CAP PDU and every buffer size that holds the basic
header, the fragments are non-empty consecutive pieces of the PDU, all of the
buffer size but possibly the last, and an idle assembler with space makes
exactly that PDU of them and is idle again.
-/
theorem getFragments_recombined {mtu : Nat} {packet : PacketBuilder} {pdu : Bytes}
    {self : Assembler} (header : kL2capBasicFrameHeaderSize ≤ mtu)
    (serialized : serializeToBytes packet = some pdu)
    (sized : pdu.length = getL2capPduSize pdu + kL2capBasicFrameHeaderSize)
    (idle : Idle self) (space : HasSpace self) :
    ∃ fragments, getFragments mtu packet = some fragments ∧
      (∀ fragment ∈ fragments, fragment.payload ≠ [] ∧ fragment.payload.length ≤ mtu) ∧
      (∀ fragment ∈ fragments.dropLast, fragment.payload.length = mtu) ∧
      (fragments.map RawBuilder.payload).flatten = pdu ∧ (receive self
        (fragmentPackets (fragments.map RawBuilder.payload))).incomingQueue =
          self.incomingQueue ++ [pdu] ∧
      Idle (receive self (fragmentPackets (fragments.map RawBuilder.payload))) := by
  have positive : 0 < mtu := Nat.lt_of_lt_of_le (by decide) header
  obtain ⟨fragments, produced, chunking⟩ := getFragments_isChunking positive serialized
  have whole : WholePdu pdu := ⟨by omega, sized⟩
  have recombined := receive_fragmentPackets idle space whole header chunking
  refine ⟨fragments, produced, ?_, ?_, chunking.joined, ?_, ?_⟩
  · intro fragment member
    have payload : fragment.payload ∈ fragments.map RawBuilder.payload :=
      mem_map_of_mem member
    exact ⟨chunking.nonempty _ payload, chunking.bounded _ payload⟩
  · intro fragment member
    refine chunking.full _ ?_
    rw [← map_dropLast]
    exact mem_map_of_mem member
  · rw [recombined]
    rfl
  · rw [recombined]
    exact ⟨rfl, rfl⟩

/-- A PDU of nine bytes through buffers of four. -/
theorem getFragments_recombined_nine :
    let builder : RawBuilder := ⟨0xffff, [5, 0, 64, 0, 1, 2, 3, 4, 5]⟩
    ∃ fragments, getFragments 4 builder.serialize = some fragments ∧
      (∀ fragment ∈ fragments, fragment.payload ≠ [] ∧ fragment.payload.length ≤ 4) ∧
      (∀ fragment ∈ fragments.dropLast, fragment.payload.length = 4) ∧
      (fragments.map RawBuilder.payload).flatten = builder.payload ∧ (receive initial
        (fragmentPackets (fragments.map RawBuilder.payload))).incomingQueue =
          initial.incomingQueue ++ [builder.payload] ∧ Idle (receive initial
        (fragmentPackets (fragments.map RawBuilder.payload))) := by
  intro builder
  exact getFragments_recombined (by decide) builder.serializeToBytes_serialize (by decide)
    (by decide) (by decide)

end BluetoothFormal.Hci.AclFragmentation
