import BluetoothFormal.L2cap.LeCreditBased

/-!
# Reassembly on an LE credit-based channel

The sender cuts segments that leave room for the SDU length in a payload of the size of
the MPS.  The receiver compares the MPS with the size of the whole frame, with its header,
so it drops each frame that the sender fills.

The receiver counts what remains of an SDU in 16 bits without sign.  What it has put
together agrees with the announced length up to multiples of 65536, which matters only if
an MTU and a frame together reach beyond that.
-/

namespace BluetoothFormal.L2cap

open Foundation.Transition Foundation.Chunks Packet Packet.Inserters List PacketView LeFrame

namespace LeFrameView

/-- The view has the header of a basic frame, and the payload that the header tells of. -/
def Complete (view : PacketView) : Prop :=
  4 ≤ view.size ∧ 4 + streamToUint16 view.bytes ≤ view.size
  deriving Decidable

variable {view : PacketView}

theorem basicIsValid_eq (view : PacketView) :
    basicIsValid view = some (decide (Complete view)) := by
  unfold basicIsValid
  by_cases short : view.size < 4
  · rw [if_pos short, decide_eq_false fun complete => Nat.not_le.mpr short complete.1]
  · rw [if_neg short, getUint16_eq (by omega), drop_zero, Option.map_some]
    refine congrArg some (decide_eq_decide.mpr ⟨fun inside => ⟨by omega, inside⟩, And.right⟩)

theorem firstIsValid_eq (view : PacketView) :
    firstIsValid view = some (decide (Complete view ∧ 6 ≤ view.size)) := by
  rw [firstIsValid, basicIsValid_eq, Option.map_some, Bool.decide_and]

theorem basicPayload_eq (complete : Complete view) :
    ∃ payload, basicPayload view = some payload ∧
      payload.bytes = (view.bytes.drop 4).take (streamToUint16 view.bytes) := by
  obtain ⟨-, inside⟩ := complete
  have last : (if 4 + streamToUint16 view.bytes < view.size then 4 + streamToUint16 view.bytes
      else view.size) = 4 + streamToUint16 view.bytes := by
    split <;> omega
  obtain ⟨payload, cut, bytes, _⟩ := view.getSubview_eq
    (Nat.le_add_right 4 (streamToUint16 view.bytes)) (view.size_eq ▸ inside)
  refine ⟨payload, ?_, ?_⟩
  · rw [basicPayload, getUint16_eq (by omega), drop_zero]
    dsimp only [Option.bind_eq_bind, Option.bind_some]
    rw [last, cut]
  · rw [bytes, Nat.add_sub_cancel_left]

theorem firstPayload_eq (header : 6 ≤ view.size) :
    ∃ payload, firstPayload view = some payload ∧ payload.bytes = view.bytes.drop 6 ∧
      (payload.fragments = [] ↔ view.size ≤ 6) := by
  obtain ⟨payload, cut, bytes, empty⟩ := view.getSubview_eq header (Nat.le_of_eq view.size_eq)
  refine ⟨payload, cut, ?_, ?_⟩
  · rw [bytes]
    refine take_of_length_le (Nat.le_of_eq ?_)
    rw [length_drop, ← view.size_eq]
  · rw [empty, ← view.size_eq]

end LeFrameView

variable {channelId : UInt16} {payload : List UInt8} {view : PacketView}

namespace LeCreditBasedDataController

open LeFrameView

variable {self after : LeCreditBasedDataController} {pdu : PacketView}

/-! ## What a frame does -/

theorem onPdu_dropped (unfit : ¬ Complete pdu ∨ self.mps.toNat < pdu.size) :
    self.onPdu pdu = some self := by
  simp only [onPdu, basicIsValid_eq, Option.bind_eq_bind, Option.bind_some]
  by_cases complete : Complete pdu
  · rw [if_neg (by simpa using complete), if_pos (unfit.resolve_left fun broken => broken complete)]
    rfl
  · rw [if_pos (by simpa using complete)]
    rfl

theorem onPdu_short (idle : self.remainingSduContinuationPacketSize = 0)
    (short : pdu.size < 6) : self.onPdu pdu = some self := by
  by_cases unfit : ¬ Complete pdu ∨ self.mps.toNat < pdu.size
  · exact onPdu_dropped unfit
  · rw [not_or, Decidable.not_not] at unfit
    simp only [onPdu, onFirstPdu, basicIsValid_eq, firstIsValid_eq, Option.bind_eq_bind,
      Option.bind_some]
    rw [if_neg (by simpa using unfit.1), if_neg unfit.2, if_pos idle,
      if_pos (decide_eq_false fun both => Nat.not_le.mpr short both.2)]
    rfl

theorem onPdu_first (idle : self.remainingSduContinuationPacketSize = 0)
    (complete : Complete pdu) (header : 6 ≤ pdu.size) (fits : pdu.size ≤ self.mps.toNat) :
    ∃ payload, payload.bytes = pdu.bytes.drop 6 ∧ (payload.fragments = [] ↔ pdu.size ≤ 6) ∧
      self.onPdu pdu =
        some (self.startSdu (streamToUint16 (pdu.bytes.drop 4)) payload).finishPdu := by
  obtain ⟨payload, cut, bytes, empty⟩ := firstPayload_eq header
  refine ⟨payload, bytes, empty, ?_⟩
  simp only [onPdu, onFirstPdu, basicIsValid_eq, firstIsValid_eq, cut, l2capSduLength,
    Option.bind_eq_bind, Option.bind_some]
  rw [if_neg (by simpa using complete), if_neg (Nat.not_lt.mpr fits), if_pos idle,
    if_neg (by simpa using ⟨complete, header⟩), getUint16_eq header]
  rfl

theorem onPdu_continuation (busy : self.remainingSduContinuationPacketSize ≠ 0)
    (complete : Complete pdu) (fits : pdu.size ≤ self.mps.toNat) :
    ∃ payload, payload.bytes = (pdu.bytes.drop 4).take (streamToUint16 pdu.bytes) ∧
      self.onPdu pdu = (self.reassemblyStage.append payload).map fun appended =>
        (self.continueSdu payload.size appended).finishPdu := by
  obtain ⟨payload, cut, bytes⟩ := basicPayload_eq complete
  refine ⟨payload, bytes, ?_⟩
  simp only [onPdu, onContinuationPdu, basicIsValid_eq, cut, Option.bind_eq_bind, Option.bind_some]
  rw [if_neg (by simpa using complete), if_neg (Nat.not_lt.mpr fits), if_neg busy]
  cases self.reassemblyStage.append payload with
  | none | some => rfl

/-! ## The announced length -/

/-- No SDU is delivered whose length is not the one that was announced. -/
def KeepsLength (receiver : LeCreditBasedDataController) : Prop :=
  ∀ views final, run onPdu receiver views = some final →
    ∃ since, final.enqueueBuffer = receiver.enqueueBuffer ++ since ∧
      ∀ delivery ∈ since, delivery.sdu.size = delivery.announced

/--
What was delivered has its announced length, and an SDU that is not complete has what
remains of its announced length, up to wrapping.
-/
structure Sound (receiver controller : LeCreditBasedDataController) : Prop where
  mtu : controller.mtu = receiver.mtu
  mps : controller.mps = receiver.mps
  delivered : ∃ since, controller.enqueueBuffer = receiver.enqueueBuffer ++ since ∧
    ∀ delivery ∈ since, delivery.sdu.size = delivery.announced
  staged : controller.remainingSduContinuationPacketSize ≠ 0 →
    controller.reassemblyStage.size ≤ receiver.mtu.toNat ∧
      (controller.remainingSduContinuationPacketSize + controller.reassemblyStage.size) % 65536 =
        controller.announced ∧ (receiver.mps.toNat < 7 → controller.reassemblyStage.fragments = [])

variable {receiver : LeCreditBasedDataController}

theorem Sound.finishPdu (mtu : self.mtu = receiver.mtu) (mps : self.mps = receiver.mps)
    (delivered : ∃ since, self.enqueueBuffer = receiver.enqueueBuffer ++ since ∧
      ∀ delivery ∈ since, delivery.sdu.size = delivery.announced)
    (staged : (self.remainingSduContinuationPacketSize +
      self.reassemblyStage.size) % 65536 = self.announced)
    (small : self.reassemblyStage.size < 65536)
    (narrow : receiver.mps.toNat < 7 → self.reassemblyStage.fragments = []) :
    Sound receiver self.finishPdu := by
  unfold LeCreditBasedDataController.finishPdu
  by_cases whole : self.remainingSduContinuationPacketSize = 0
  · rw [if_pos whole]
    refine ⟨mtu, mps, ?_, fun more => absurd whole more⟩
    obtain ⟨since, appended, sized⟩ := delivered
    refine ⟨since ++ [⟨self.announced, self.reassemblyStage⟩], ?_, ?_⟩
    · rw [← append_assoc, ← appended]
      rfl
    · intro delivery member
      rcases mem_append.mp member with before | last
      · exact sized delivery before
      · rw [mem_singleton.mp last]
        change self.reassemblyStage.size = self.announced
        omega
  · rw [if_neg whole]
    split
    · exact ⟨mtu, mps, delivered, fun more => absurd rfl more⟩
    · rename_i within
      rw [mtu] at within
      exact ⟨mtu, mps, delivered, fun _ =>
        ⟨Nat.not_lt.mp fun beyond => within (.inr beyond), staged, narrow⟩⟩

/-- The MTU and a payload stay below 65536, or no payload fits into the first frame. -/
def Narrow (self : LeCreditBasedDataController) : Prop :=
  self.mtu.toNat + self.mps.toNat < 65540 ∨ self.mps.toNat < 7

theorem Sound.onPdu (narrow : receiver.Narrow) (sound : Sound receiver self)
    (done : self.onPdu pdu = some after) : Sound receiver after := by
  by_cases unfit : ¬ Complete pdu ∨ self.mps.toNat < pdu.size
  · rw [onPdu_dropped unfit] at done
    exact Option.some.inj done ▸ sound
  · rw [not_or, Decidable.not_not, Nat.not_lt] at unfit
    obtain ⟨complete, fits⟩ := unfit
    have mpsWord := receiver.mps.toNat_lt
    have mpsSame : self.mps.toNat = receiver.mps.toNat := congrArg UInt16.toNat sound.mps
    by_cases idle : self.remainingSduContinuationPacketSize = 0
    · by_cases short : pdu.size < 6
      · rw [onPdu_short idle short] at done
        exact Option.some.inj done ▸ sound
      · obtain ⟨payload, bytes, empty, taken⟩ :=
          onPdu_first idle complete (Nat.not_lt.mp short) fits
        rw [taken] at done
        have size : payload.size = pdu.size - 6 := by
          rw [payload.size_eq, bytes, length_drop, ← pdu.size_eq]
        have word := streamToUint16_lt (pdu.bytes.drop 4)
        rw [← Option.some.inj done]
        refine Sound.finishPdu sound.mtu sound.mps sound.delivered ?_ ?_ fun tiny => ?_
        · dsimp only [startSdu]
          omega
        · dsimp only [startSdu]
          omega
        · exact empty.mpr (by omega)
    · obtain ⟨payload, bytes, taken⟩ := onPdu_continuation idle complete fits
      obtain ⟨within, staged, tiny⟩ := sound.staged idle
      by_cases absent : self.reassemblyStage.fragments = []
      · rw [taken, append_eq_none absent] at done
        cases done
      · obtain ⟨appended, added, joined, _⟩ :=
          self.reassemblyStage.append_eq payload absent
        rw [taken, added] at done
        have wide : receiver.mtu.toNat + receiver.mps.toNat < 65540 :=
          narrow.resolve_right fun tinyMps => absent (tiny tinyMps)
        have payloadSize : payload.size = streamToUint16 pdu.bytes := by
          rw [payload.size_eq, bytes, length_take, length_drop, ← pdu.size_eq]
          have inside := complete.2
          omega
        have appendedSize :
            appended.size = self.reassemblyStage.size + streamToUint16 pdu.bytes := by
          rw [appended.size_eq, joined, length_append, ← size_eq, ← size_eq, payloadSize]
        have inside := complete.2
        rw [← Option.some.inj done]
        refine Sound.finishPdu sound.mtu sound.mps sound.delivered ?_ ?_ fun tinyMps =>
          absurd (tiny tinyMps) absent
        · dsimp only [continueSdu]
          omega
        · dsimp only [continueSdu]
          omega

theorem keepsLength_of_narrow (idle : receiver.remainingSduContinuationPacketSize = 0)
    (narrow : receiver.Narrow) : receiver.KeepsLength := by
  intro views final reached
  have start : Sound receiver receiver :=
    ⟨rfl, rfl, ⟨[], by rw [append_nil], fun _ member => absurd member not_mem_nil⟩,
      fun more => absurd idle more⟩
  exact (invariant_run (fun _ _ _ sound done => Sound.onPdu narrow sound done) start
    reached).delivered

/-! ## An SDU that wraps -/

def arriving (frame : LeFrame) : PacketView := ofPacket frame.serialize

theorem bytes_arriving (frame : LeFrame) : (arriving frame).bytes = frame.serialize :=
  bytes_ofPacket _

theorem complete_of_serialize {view : PacketView} {frame : LeFrame}
    (bytes : view.bytes = frame.serialize) {size : Nat} (sized : frame.serialize.length = 4 + size)
    (small : size < 65536) (told : ∃ rest, frame.serialize = uint16ToStream size ++ rest) :
    view.size = 4 + size ∧ streamToUint16 view.bytes = size ∧ Complete view := by
  obtain ⟨rest, whole⟩ := told
  have told : streamToUint16 view.bytes = size := by
    rw [bytes, whole, streamToUint16_stream small]
  have viewSize : view.size = 4 + size := by rw [view.size_eq, bytes, sized]
  exact ⟨viewSize, told, by omega, by omega⟩

theorem basic_complete (bytes : view.bytes = (basic channelId payload).serialize)
    (small : payload.length < 65536) :
    view.size = 4 + payload.length ∧ streamToUint16 view.bytes = payload.length ∧ Complete view :=
  complete_of_serialize bytes (by simp [serialize, length_uint16ToStream]; omega) small ⟨_, rfl⟩

theorem first_complete {l2capSduLength : UInt16}
    (bytes : view.bytes = (firstLeInformation channelId l2capSduLength payload).serialize)
    (small : payload.length + 2 < 65536) :
    view.size = 6 + payload.length ∧ Complete view := by
  obtain ⟨size, _, complete⟩ := @complete_of_serialize view _ bytes (payload.length + 2)
    (by simp [serialize, length_uint16ToStream]; omega) small ⟨_, rfl⟩
  exact ⟨by omega, complete⟩

structure Grown (receiver : LeCreditBasedDataController) (size : Nat)
    (controller : LeCreditBasedDataController) : Prop where
  mtu : controller.mtu = receiver.mtu
  mps : controller.mps = receiver.mps
  buffer : controller.enqueueBuffer = receiver.enqueueBuffer
  remaining : controller.remainingSduContinuationPacketSize = 65536 - size
  staged : controller.reassemblyStage.size = size
  present : controller.reassemblyStage.fragments ≠ []
  announced : controller.announced = 0
  positive : 0 < size

theorem finishPdu_more (more : self.remainingSduContinuationPacketSize ≠ 0)
    (within : self.reassemblyStage.size ≤ self.mtu.toNat) :
    self.finishPdu = self.call (.sendLeCredit self.cid 1) := by
  unfold finishPdu
  rw [if_neg more, if_neg fun beyond => Nat.not_lt.mpr within (beyond.resolve_left (by omega))]

theorem enqueueBuffer_finishPdu (whole : self.remainingSduContinuationPacketSize = 0) :
    self.finishPdu.enqueueBuffer =
      self.enqueueBuffer ++ [⟨self.announced, self.reassemblyStage⟩] := by
  unfold finishPdu
  rw [if_pos whole]
  rfl

theorem grown_first (idle : receiver.remainingSduContinuationPacketSize = 0)
    (room : 1 ≤ receiver.mtu.toNat) (wide : 7 ≤ receiver.mps.toNat) :
    ∃ next, receiver.onPdu (arriving (.firstLeInformation 0 0 [0])) = some next ∧
      Grown receiver 1 next := by
  have bytes := bytes_arriving (.firstLeInformation 0 0 [0])
  obtain ⟨size, complete⟩ := first_complete bytes (by decide)
  rw [length_singleton] at size
  obtain ⟨payload, payloadBytes, empty, taken⟩ :=
    onPdu_first idle complete (by omega) (by omega)
  have announced : streamToUint16 ((arriving (.firstLeInformation 0 0 [0])).bytes.drop 4) = 0 := by
    rw [bytes]
    decide
  have payloadSize : payload.size = 1 := by
    rw [payload.size_eq, payloadBytes, length_drop, ← size_eq, size]
  rw [announced] at taken
  refine ⟨_, taken, ?_⟩
  have remaining : (receiver.startSdu 0 payload).remainingSduContinuationPacketSize = 65535 := by
    dsimp only [startSdu]
    rw [payloadSize]
  have more : (receiver.startSdu 0 payload).remainingSduContinuationPacketSize ≠ 0 := by omega
  rw [finishPdu_more more (by dsimp only [startSdu]; omega)]
  refine ⟨rfl, rfl, rfl, remaining, payloadSize, ?_, rfl, Nat.one_pos⟩
  intro absent
  have short := empty.mp absent
  omega

section

variable {size : Nat} (grown : Grown receiver size self)
include grown

section

variable (payload : List UInt8) (fits : 4 + payload.length ≤ receiver.mps.toNat)
include fits

theorem Grown.continued (below : size < 65536) (small : payload.length < 65536) :
    ∃ appended : PacketView, self.onPdu (arriving (.basic 0 payload)) =
        some (self.continueSdu payload.length appended).finishPdu ∧
      appended.size = size + payload.length ∧ appended.fragments ≠ [] := by
  obtain ⟨viewSize, told, complete⟩ := basic_complete (bytes_arriving (.basic 0 payload)) small
  have busy : self.remainingSduContinuationPacketSize ≠ 0 := by
    rw [grown.remaining]
    omega
  have mps : (arriving (.basic 0 payload)).size ≤ self.mps.toNat := by
    rw [grown.mps, viewSize]
    exact fits
  obtain ⟨taken, takenBytes, result⟩ := onPdu_continuation busy complete mps
  obtain ⟨appended, added, joined, present⟩ :=
    self.reassemblyStage.append_eq taken grown.present
  have takenSize : taken.size = payload.length := by
    rw [taken.size_eq, takenBytes, told, length_take, length_drop, ← size_eq, viewSize]
    omega
  refine ⟨appended, ?_, ?_, present⟩
  · rw [result, added, takenSize]
    rfl
  · rw [appended.size_eq, joined, length_append, ← size_eq, ← size_eq, grown.staged, takenSize]

theorem Grown.onPdu (below : size + payload.length < 65536)
    (room : size + payload.length ≤ receiver.mtu.toNat) :
    ∃ next, self.onPdu (arriving (.basic 0 payload)) = some next ∧
      Grown receiver (size + payload.length) next := by
  obtain ⟨appended, taken, appendedSize, present⟩ :=
    grown.continued payload fits (by omega) (by omega)
  have positive := grown.positive
  refine ⟨_, taken, ?_⟩
  have remaining : (self.continueSdu payload.length
      appended).remainingSduContinuationPacketSize = 65536 - (size + payload.length) := by
    dsimp only [continueSdu]
    rw [grown.remaining]
    omega
  have more : (self.continueSdu payload.length
      appended).remainingSduContinuationPacketSize ≠ 0 := by omega
  have within : appended.size ≤ self.mtu.toNat := by
    rw [grown.mtu, appendedSize]
    exact room
  rw [finishPdu_more more within]
  exact ⟨grown.mtu, grown.mps, grown.buffer, remaining, appendedSize, present, grown.announced,
    by omega⟩

/-- At 65536 bytes nothing remains of the SDU, and it is delivered. -/
theorem Grown.onPdu_wraps (wraps : size + payload.length = 65536) (below : size < 65536) :
    ∃ next sdu, self.onPdu (arriving (.basic 0 payload)) = some next ∧
      next.enqueueBuffer = receiver.enqueueBuffer ++ [⟨0, sdu⟩] ∧ sdu.size = 65536 := by
  have positive := grown.positive
  obtain ⟨appended, taken, appendedSize, _⟩ := grown.continued payload fits below (by omega)
  refine ⟨_, appended, taken, ?_, by omega⟩
  rw [enqueueBuffer_finishPdu]
  · dsimp only [continueSdu]
    rw [grown.buffer, grown.announced]
  · dsimp only [continueSdu]
    rw [grown.remaining]
    omega

end

theorem Grown.run (count : Nat) (below : size + count < 65536)
    (room : size + count ≤ receiver.mtu.toNat) (wide : 7 ≤ receiver.mps.toNat) :
    ∃ next, run LeCreditBasedDataController.onPdu self
        (List.replicate count (arriving (.basic 0 [0]))) = some next ∧
      Grown receiver (size + count) next := by
  induction count generalizing size self with
  | zero => exact ⟨self, rfl, grown⟩
  | succ count ih =>
    obtain ⟨middle, first, larger⟩ := grown.onPdu [0]
      (by rw [length_singleton]; omega) (by rw [length_singleton]; omega)
      (by rw [length_singleton]; omega)
    obtain ⟨next, rest, grownNext⟩ := ih larger (by rw [length_singleton]; omega)
      (by rw [length_singleton]; omega)
    refine ⟨next, ?_, ?_⟩
    · rw [replicate_succ, run_cons, first]
      exact rest
    · rwa [length_singleton, Nat.add_assoc, Nat.add_comm 1] at grownNext

end

theorem narrow_of_keepsLength (idle : receiver.remainingSduContinuationPacketSize = 0)
    (keeps : receiver.KeepsLength) : receiver.Narrow := by
  by_contra wide
  rw [Narrow, not_or, Nat.not_lt, Nat.not_lt] at wide
  obtain ⟨reaches, payloads⟩ := wide
  have mpsWord := receiver.mps.toNat_lt
  obtain ⟨second, begun, one⟩ := grown_first idle (by omega) payloads
  obtain ⟨third, filled, full⟩ := one.run (65539 - receiver.mps.toNat) (by omega) (by omega) payloads
  have length : (List.replicate (receiver.mps.toNat - 4) (0 : UInt8)).length =
      receiver.mps.toNat - 4 := length_replicate
  obtain ⟨last, sdu, ended, buffer, size⟩ := full.onPdu_wraps
    (List.replicate (receiver.mps.toNat - 4) 0) (by omega) (by omega) (by omega)
  have reached : run onPdu receiver (arriving (.firstLeInformation 0 0 [0]) ::
      (List.replicate (65539 - receiver.mps.toNat) (arriving (.basic 0 [0])) ++
        [arriving (.basic 0 (List.replicate (receiver.mps.toNat - 4) 0))])) = some last := by
    rw [run_cons, begun, Option.bind_some, run_append, filled, Option.bind_some, run_singleton]
    exact ended
  obtain ⟨since, appended, sized⟩ := keeps _ _ reached
  rw [buffer, append_cancel_left_eq] at appended
  have wrong := sized ⟨0, sdu⟩ (appended ▸ mem_singleton_self _)
  rw [size] at wrong
  cases wrong

/-! ## From a sender to a receiver -/

variable {sender : LeCreditBasedDataController} {sdu : PacketBuilder} {bytes : List UInt8}

def deliveredBytes (self : LeCreditBasedDataController) : List (List UInt8) :=
  self.enqueueBuffer.map fun delivery => delivery.sdu.bytes

/-- The frames that an SDU adds to the queue bring its bytes to the receiver, once. -/
def Transfers (sender receiver : LeCreditBasedDataController) (sdu : PacketBuilder)
    (bytes : List UInt8) : Prop :=
  ∃ after frames, sender.onSdu sdu = some after ∧ after.pduQueue = sender.pduQueue ++ frames ∧
    ∀ views, views.map PacketView.bytes = frames.map serialize →
      ∃ final, run onPdu receiver views = some final ∧
        final.deliveredBytes = receiver.deliveredBytes ++ [bytes]

theorem segmentSize_eq {mps : UInt16} (enough : 2 ≤ mps.toNat) :
    segmentSize mps = mps.toNat - 2 := by
  have word := mps.toNat_lt
  change (((mps.toNat : Int) - 2) % 0x10000000000000000).toNat = mps.toNat - 2
  omega

theorem pduQueue_release (self : LeCreditBasedDataController) (count : Nat) :
    (self.release count).pduQueue = self.pduQueue := by
  unfold release
  split
  · rfl
  · split <;> rfl

theorem onSdu_frames (sender : LeCreditBasedDataController)
    (serialized : serializeToBytes sdu = some bytes) (nonempty : bytes ≠ [])
    (enough : 3 ≤ sender.mps.toNat) :
    ∃ after segments, sender.onSdu sdu = some after ∧
      after.pduQueue = sender.pduQueue ++ framesOf sender.remoteCid bytes.length segments ∧
      IsChunking (sender.mps.toNat - 2) bytes segments := by
  obtain ⟨fragments, cut, chunking⟩ := getFragments_isChunking
    (show 0 < sender.mps.toNat - 2 by omega) serialized
  refine ⟨(sender.queueFrames (framesOf sender.remoteCid bytes.length
    (fragments.map RawBuilder.payload))).release fragments.length,
    fragments.map RawBuilder.payload, ?_, pduQueue_release _ _, chunking⟩
  · rw [onSdu, serialized]
    simp only [Option.bind_eq_bind, Option.bind_some]
    rw [if_neg fun empty => nonempty (length_eq_zero_iff.mp empty), segmentSize_eq (by omega), cut]
    rfl

theorem transfers_of_small (idle : receiver.remainingSduContinuationPacketSize = 0)
    (same : sender.mps = receiver.mps) (serialized : serializeToBytes sdu = some bytes)
    (nonempty : bytes ≠ []) (small : bytes.length + 6 ≤ receiver.mps.toNat) :
    Transfers sender receiver sdu bytes := by
  have word := receiver.mps.toNat_lt
  obtain ⟨after, segments, done, queued, chunking⟩ :=
    onSdu_frames sender serialized nonempty (by rw [same]; omega)
  have single : segments = [bytes] := by
    cases segments with
    | nil => exact absurd chunking.joined.symm nonempty
    | cons first rest =>
      rcases chunking.head_length with full | ⟨rfl, rfl⟩
      · have part : first.length ≤ bytes.length := by
          rw [← chunking.joined, flatten_cons, length_append]
          exact Nat.le_add_right _ _
        rw [same] at full
        omega
      · rfl
  refine ⟨after, _, done, queued, fun views arrived => ?_⟩
  rw [single, framesOf, map_nil, map_cons, map_nil] at arrived
  obtain ⟨view, rfl, viewBytes⟩ : ∃ view, views = [view] ∧ view.bytes = _ := by
    simpa [map_eq_cons_iff] using arrived
  obtain ⟨size, complete⟩ := first_complete viewBytes (by omega)
  obtain ⟨payload, payloadBytes, _, taken⟩ := onPdu_first idle complete (by omega) (by omega)
  have behind : payload.bytes = bytes := by rw [payloadBytes, viewBytes]; rfl
  have announced : streamToUint16 (view.bytes.drop 4) = bytes.length := by
    rw [viewBytes]
    change streamToUint16 (uint16ToStream (UInt16.ofNat bytes.length).toNat ++ bytes) = _
    rw [UInt16.toNat_ofNat', Nat.mod_eq_of_lt (by omega), streamToUint16_stream (by omega)]
  have whole : (receiver.startSdu (streamToUint16 (view.bytes.drop 4))
      payload).remainingSduContinuationPacketSize = 0 := by
    dsimp only [startSdu]
    rw [announced, payload.size_eq, behind]
    omega
  refine ⟨_, by rw [run_singleton, taken], ?_⟩
  rw [deliveredBytes, enqueueBuffer_finishPdu whole, map_append]
  exact congrArg (receiver.deliveredBytes ++ [·]) behind

theorem deliveredBytes_onPdu_idle (idle : receiver.remainingSduContinuationPacketSize = 0)
    (done : receiver.onPdu pdu = some after) :
    after.deliveredBytes = receiver.deliveredBytes ∨
      ∃ sdu : List UInt8, after.deliveredBytes = receiver.deliveredBytes ++ [sdu] ∧
        sdu.length + 6 = pdu.size := by
  by_cases unfit : ¬ Complete pdu ∨ receiver.mps.toNat < pdu.size
  · rw [onPdu_dropped unfit] at done
    exact .inl (by rw [← Option.some.inj done])
  · rw [not_or, Decidable.not_not, Nat.not_lt] at unfit
    by_cases short : pdu.size < 6
    · rw [onPdu_short idle short] at done
      exact .inl (by rw [← Option.some.inj done])
    · obtain ⟨payload, bytes, _, taken⟩ :=
        onPdu_first idle unfit.1 (Nat.not_lt.mp short) unfit.2
      rw [taken] at done
      rw [← Option.some.inj done]
      by_cases whole : (receiver.startSdu (streamToUint16 (pdu.bytes.drop 4))
          payload).remainingSduContinuationPacketSize = 0
      · refine .inr ⟨payload.bytes, ?_, ?_⟩
        · rw [deliveredBytes, enqueueBuffer_finishPdu whole, map_append]
          rfl
        · rw [bytes, length_drop, ← pdu.size_eq]
          omega
      · refine .inl ?_
        unfold finishPdu
        rw [if_neg whole]
        split <;> rfl

theorem run_onPdu_dropped {views : List PacketView}
    (large : ∀ view ∈ views, receiver.mps.toNat < view.size) :
    run onPdu receiver views = some receiver := by
  induction views with
  | nil => rfl
  | cons view rest ih =>
    rw [run_cons, onPdu_dropped (.inr (large view mem_cons_self)), Option.bind_some]
    exact ih fun other member => large other (mem_cons_of_mem _ member)

theorem size_arriving (frame : LeFrame) : (arriving frame).size = frame.serialize.length := by
  rw [size_eq, bytes_arriving]

theorem length_serialize_basic (channelId : UInt16) (payload : List UInt8) :
    (basic channelId payload).serialize.length = 4 + payload.length := by
  simp only [serialize, length_append, length_uint16ToStream]
  omega

theorem length_serialize_first (channelId l2capSduLength : UInt16) (payload : List UInt8) :
    (firstLeInformation channelId l2capSduLength payload).serialize.length =
      6 + payload.length := by
  simp only [serialize, length_append, length_uint16ToStream]
  omega

/-- Only the last segment can be in a frame that the receiver takes, and it is not enough. -/
theorem small_of_transfers (idle : receiver.remainingSduContinuationPacketSize = 0)
    (same : sender.mps = receiver.mps) (enough : 3 ≤ receiver.mps.toNat)
    (serialized : serializeToBytes sdu = some bytes)
    (nonempty : bytes ≠ []) (transfers : Transfers sender receiver sdu bytes) :
    bytes.length + 6 ≤ receiver.mps.toNat := by
  by_contra large
  rw [Nat.not_le] at large
  obtain ⟨after, frames, done, queued, arrives⟩ := transfers
  obtain ⟨other, segments, doneToo, queuedToo, chunking⟩ :=
    onSdu_frames sender serialized nonempty (by rw [same]; exact enough)
  rw [same] at chunking
  obtain rfl := Option.some.inj (done.symm.trans doneToo)
  obtain rfl := append_cancel_left (queued.symm.trans queuedToo)
  obtain ⟨final, reached, delivered⟩ := arrives
    ((framesOf sender.remoteCid bytes.length segments).map arriving) (by
      rw [map_map]
      exact map_congr_left fun frame _ => bytes_arriving frame)
  cases segments with
  | nil => exact nonempty chunking.joined.symm
  | cons first rest =>
    rcases eq_nil_or_concat' rest with rfl | ⟨middle, last, rfl⟩
    · have whole : first = bytes := by simpa using chunking.joined
      rw [run_onPdu_dropped] at reached
      · obtain rfl := Option.some.inj reached
        exact absurd (self_eq_append_right.mp delivered) (cons_ne_nil _ _)
      · intro view member
        rw [mem_singleton.mp member, size_arriving, length_serialize_first, whole]
        omega
    · have full : ∀ chunk ∈ first :: middle, chunk.length = receiver.mps.toNat - 2 := by
        have all := chunking.full
        rwa [← cons_append, dropLast_concat] at all
      have part : last.length ≤ bytes.length := by
        rw [← chunking.joined, ← cons_append, flatten_append, length_append]
        simp
      rw [framesOf, map_append, ← cons_append, map_append, run_append,
        run_onPdu_dropped, Option.bind_some] at reached
      · rw [map_singleton, map_singleton, run_singleton] at reached
        rcases deliveredBytes_onPdu_idle idle reached with none | ⟨sdu, appended, size⟩
        · rw [none] at delivered
          exact absurd (self_eq_append_right.mp delivered) (cons_ne_nil _ _)
        · rw [appended, append_cancel_left_eq] at delivered
          obtain rfl := singleton_inj.mp delivered
          rw [size_arriving, length_serialize_basic] at size
          omega
      · intro view member
        simp only [map_cons, map_map, mem_cons, mem_map] at member
        rcases member with rfl | ⟨chunk, listed, rfl⟩
        · rw [size_arriving, length_serialize_first, full first mem_cons_self]
          omega
        · rw [Function.comp_apply, size_arriving, length_serialize_basic,
            full chunk (mem_cons_of_mem _ listed)]
          omega

/--
An SDU gets through exactly if its first frame fits into the MPS with its header, and lengths
are kept exactly if an MTU and a payload stay below 65536.
-/
theorem transfer_exact (sender receiver : LeCreditBasedDataController)
    (idle : receiver.remainingSduContinuationPacketSize = 0) (same : sender.mps = receiver.mps) :
    (∀ sdu bytes, serializeToBytes sdu = some bytes → 1 ≤ bytes.length →
      bytes.length ≤ receiver.mtu.toNat → 23 ≤ receiver.mps.toNat →
      (Transfers sender receiver sdu bytes ↔ bytes.length + 6 ≤ receiver.mps.toNat)) ∧
    (receiver.KeepsLength ↔
      receiver.mtu.toNat + receiver.mps.toNat < 65540 ∨ receiver.mps.toNat < 7) := by
  constructor
  · intro sdu bytes serialized some _ wide
    have nonempty : bytes ≠ [] := length_pos_iff.mp some
    exact ⟨small_of_transfers idle same (by omega) serialized nonempty,
      transfers_of_small idle same serialized nonempty⟩
  · exact ⟨narrow_of_keepsLength idle, keepsLength_of_narrow idle⟩

/-- An SDU of equal bytes. -/
def plainSdu (length : Nat) : PacketBuilder := (List.replicate length 7).map BitCall.ofByte

theorem serialize_plainSdu (length : Nat) :
    serializeToBytes (plainSdu length) = some (List.replicate length 7) := by
  rw [plainSdu, serializeToBytes_eq, SavedBits.insertAll_ofByte]
  exact if_pos rfl

theorem transfer_exact_seventeen :
    Transfers (opened 0x40 0x41 23 23 0) (opened 0x41 0x40 23 23 0) (plainSdu 17)
        (List.replicate 17 7) ∧ (opened 0x41 0x40 23 23 0).KeepsLength := by
  have all := transfer_exact (opened 0x40 0x41 23 23 0) (opened 0x41 0x40 23 23 0) rfl rfl
  refine ⟨(all.1 _ _ (serialize_plainSdu 17) ?_ ?_ ?_).mpr ?_, all.2.mpr (.inl ?_)⟩
  all_goals decide

/-- An SDU of 18 bytes is one frame of 24 bytes, which is larger than an MPS of 23. -/
theorem eighteen_bytes_dropped :
    ((opened 0x40 0x41 23 23 0).onSdu (plainSdu 18)).map pduQueue =
        some [.firstLeInformation 0x41 18 (List.replicate 18 7)] ∧
      ¬ Transfers (opened 0x40 0x41 23 23 0) (opened 0x41 0x40 23 23 0) (plainSdu 18)
        (List.replicate 18 7) := by
  refine ⟨by decide, fun transfers => ?_⟩
  have idle : (opened 0x41 0x40 23 23 0).remainingSduContinuationPacketSize = 0 := rfl
  have same : (opened 0x40 0x41 23 23 0).mps = (opened 0x41 0x40 23 23 0).mps := rfl
  have small := small_of_transfers idle same (by decide) (serialize_plainSdu 18) (by decide)
    transfers
  exact absurd small (by decide)

end LeCreditBasedDataController

end BluetoothFormal.L2cap
