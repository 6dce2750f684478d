import Mathlib.Data.List.Induction
import BluetoothFormal.L2cap.LeCoc

/-!
# What an LE credit based channel delivers

The PDUs of an SDU are put together again by an idle receiver.  The octets they
carry are those of the SDU, whatever these are, exactly if the sender's 16 bit
numbers do not wrap.  For any PDUs at all, what is delivered has the announced
length, and a continuation that goes beyond it ends the channel.
-/

namespace BluetoothFormal.L2cap.LeCoc

open List Receiver

variable {ccb receiver : Receiver} {data : List UInt8} {pdus : List (List UInt8)}

variable {pdu payload piece : List UInt8} {pieces : List (List UInt8)} {mps index total room : Nat}
  {buf : BtHdr} {ccb : Receiver}

namespace Receiver

/-! ## PDUs and packets -/

theorem appendPayload_localCid (ccb : Receiver) (data payload : List UInt8) :
    (ccb.appendPayload data payload).localCid = ccb.localCid := by
  unfold appendPayload
  dsimp only
  split_ifs <;> rfl

theorem procPdu_localCid (ccb : Receiver) (pdu : List UInt8) :
    (ccb.procPdu pdu).localCid = ccb.localCid := by
  unfold procPdu
  dsimp only
  split_ifs with long first small exceeding inconsistent
  · rfl
  · rfl
  · rfl
  · rfl
  · exact appendPayload_localCid _ _ _
  · cases ccb.bleSdu with
    | none => rfl
    | some data =>
      dsimp only
      split_ifs
      · rfl
      · exact appendPayload_localCid _ _ _

theorem takePdu_localCid (ccb : Receiver) (pdu : List UInt8) :
    (ccb.takePdu pdu).localCid = ccb.localCid := by
  unfold takePdu
  split
  · exact ccb.procPdu_localCid pdu
  · rfl

theorem rcvAclData_packet (cid : ccb.localCid < 65536) (short : payload.length < 65536) :
    ccb.rcvAclData (packet ccb.localCid payload) = ccb.takePdu payload := by
  have length : (packet ccb.localCid payload).length = payload.length + 4 := by
    simp only [packet, length_append, length_uint16ToStream]
    omega
  have announced : streamToUint16 (packet ccb.localCid payload) = payload.length := by
    rw [packet, append_assoc]
    exact streamToUint16_stream short _
  have channel : streamToUint16 ((packet ccb.localCid payload).drop 2) = ccb.localCid :=
    streamToUint16_stream cid payload
  rw [rcvAclData, length, announced, channel, if_neg (by simp only [pktOverhead]; omega),
    if_neg (fun other => other rfl), if_neg (by simp only [pktOverhead]; omega)]
  rfl

theorem foldl_rcvAclData {payloads : List (List UInt8)} (cid : ccb.localCid < 65536)
    (short : ∀ payload ∈ payloads, payload.length < 65536) :
    (payloads.map (packet ccb.localCid)).foldl rcvAclData ccb = payloads.foldl takePdu ccb := by
  induction payloads generalizing ccb with
  | nil => rfl
  | cons payload rest ih =>
    have same := ccb.takePdu_localCid payload
    rw [map_cons, foldl_cons, foldl_cons,
      rcvAclData_packet cid (short payload mem_cons_self), ← same]
    exact ih (same ▸ cid) fun other member => short other (mem_cons_of_mem _ member)

/-! ## One SDU -/

theorem procPdu_continuing (continuing : ccb.isFirstSeg = false) (pending : ccb.bleSdu = some data)
    (short : ¬ ccb.mps < pdu.length) :
    ccb.procPdu pdu = if ccb.bleSduLength - data.length < pdu.length then
        { ccb with isFirstSeg := true, bleSdu := none, bleSduLength := 0 }.disconnectChnl
      else ccb.appendPayload data pdu := by
  unfold procPdu
  rw [if_neg short, if_neg (by rw [continuing]; exact Bool.false_ne_true), pending]

theorem takePdu_overflow (connected : ccb.connected = true) (continuing : ccb.isFirstSeg = false)
    (pending : ccb.bleSdu = some data) (overflow : ccb.bleSduLength - data.length < pdu.length) :
    (ccb.takePdu pdu).delivered = ccb.delivered ∧ (ccb.takePdu pdu).connected = false := by
  rw [takePdu, if_pos connected]
  by_cases long : ccb.mps < pdu.length
  · rw [procPdu, if_pos long]
    exact ⟨rfl, rfl⟩
  · rw [procPdu_continuing continuing pending long, if_pos overflow]
    exact ⟨rfl, rfl⟩

/-- The channel after the delivery of an SDU. -/
def delivering (ccb : Receiver) (sdu : List UInt8) : Receiver :=
  { ccb with
    isFirstSeg := true, bleSdu := none, bleSduLength := 0, delivered := ccb.delivered ++ [sdu] }

structure Pending (ccb : Receiver) (data : List UInt8) (missing : Nat) : Prop where
  connected : ccb.connected = true
  isFirstSeg : ccb.isFirstSeg = false
  bleSdu : ccb.bleSdu = some data
  bleSduLength : ccb.bleSduLength = data.length + missing

namespace Pending

theorem takePdu {missing : Nat} (pending : ccb.Pending data missing) (short : pdu.length ≤ ccb.mps)
    (room : pdu.length ≤ missing) :
    ccb.takePdu pdu = ccb.appendPayload data pdu := by
  obtain ⟨connected, isFirstSeg, bleSdu, bleSduLength⟩ := pending
  have fits : ¬ ccb.bleSduLength - data.length < pdu.length := by omega
  rw [Receiver.takePdu, if_pos connected, procPdu_continuing isFirstSeg bleSdu (by omega),
    if_neg fits]

theorem last {data pdu : List UInt8} (pending : ccb.Pending data pdu.length)
    (short : pdu.length ≤ ccb.mps) : ccb.takePdu pdu = ccb.delivering (data ++ pdu) := by
  rw [pending.takePdu short (Nat.le_refl _), appendPayload]
  exact if_pos (by rw [length_append, pending.bleSduLength])

theorem partway {data pdu : List UInt8} {missing : Nat}
    (pending : ccb.Pending data (pdu.length + missing)) (more : 0 < missing)
    (short : pdu.length ≤ ccb.mps) :
    ccb.takePdu pdu = { ccb with bleSdu := some (data ++ pdu) } ∧
      Pending { ccb with bleSdu := some (data ++ pdu) } (data ++ pdu) missing := by
  have total := pending.bleSduLength
  have kept : ccb.isFirstSeg = false := pending.isFirstSeg
  constructor
  · rw [pending.takePdu short (by omega), appendPayload]
    simp only [length_append]
    rw [if_neg (by omega), if_pos (by omega), ← kept]
  · refine ⟨pending.connected, pending.isFirstSeg, rfl, ?_⟩
    change ccb.bleSduLength = _
    rw [length_append]
    omega

theorem complete (pending : ccb.Pending data pieces.flatten.length) (some : pieces ≠ [])
    (bounded : ∀ piece ∈ pieces, piece ≠ [] ∧ piece.length ≤ ccb.mps) :
    pieces.foldl Receiver.takePdu ccb = ccb.delivering (data ++ pieces.flatten) := by
  induction pieces generalizing ccb data with
  | nil => exact absurd rfl some
  | cons piece rest ih =>
    have short := (bounded piece mem_cons_self).2
    have later : ∀ other ∈ rest, other ≠ [] ∧ other.length ≤ ccb.mps :=
      fun other member => bounded other (mem_cons_of_mem _ member)
    rw [flatten_cons, length_append] at pending
    cases rest with
    | nil =>
      have all : ccb.Pending data piece.length := by simpa using pending
      simpa using all.last short
    | cons second others =>
      have more : 0 < (second :: others).flatten.length := by
        have filled := length_pos_iff.mpr (later second mem_cons_self).1
        rw [flatten_cons, length_append]
        omega
      obtain ⟨taken, next⟩ := pending.partway more short
      rw [foldl_cons, taken, ih next (cons_ne_nil _ _) later, flatten_cons, append_assoc]
      rfl

end Pending

theorem takePdu_first (idle : ccb.Idle) {sduLength : Nat} (word : sduLength < 65536)
    (accepted : sduLength ≤ ccb.mtu) (short : piece.length + 2 ≤ ccb.mps)
    (room : piece.length ≤ sduLength) :
    ccb.takePdu (uint16ToStream sduLength ++ piece) =
      { ccb with bleSdu := some [], bleSduLength := sduLength }.appendPayload [] piece := by
  obtain ⟨connected, isFirstSeg, -, -⟩ := idle
  have length : (uint16ToStream sduLength ++ piece).length = piece.length + 2 := by
    rw [length_append, length_uint16ToStream, Nat.add_comm]
  rw [takePdu, if_pos connected, procPdu, length, isFirstSeg, streamToUint16_stream word]
  rw [if_neg (by omega), if_pos rfl, if_neg (by omega)]
  change (if ccb.mtu < sduLength then _ else if sduLength < piece.length then _ else _) = _
  rw [if_neg (by omega), if_neg (by omega)]
  rfl

theorem receive_sdu (idle : ccb.Idle) {sdu : List UInt8} (joined : piece ++ pieces.flatten = sdu)
    (word : sdu.length < 65536) (accepted : sdu.length ≤ ccb.mtu)
    (short : piece.length + 2 ≤ ccb.mps)
    (bounded : ∀ piece ∈ pieces, piece ≠ [] ∧ piece.length ≤ ccb.mps) :
    ((uint16ToStream sdu.length ++ piece) :: pieces).foldl takePdu ccb =
      { ccb with delivered := ccb.delivered ++ [sdu] } := by
  have length : sdu.length = piece.length + pieces.flatten.length := by
    rw [← joined, length_append]
  have cleared : ccb.delivering sdu = { ccb with delivered := ccb.delivered ++ [sdu] } := by
    obtain ⟨-, isFirstSeg, bleSdu, bleSduLength⟩ := idle
    rw [delivering, ← isFirstSeg, ← bleSdu, ← bleSduLength]
  rw [foldl_cons, takePdu_first idle word accepted short (by omega), appendPayload,
    nil_append, ← cleared]
  cases pieces with
  | nil =>
    have whole : piece = sdu := by simpa using joined
    rw [whole, if_pos rfl]
    rfl
  | cons second others =>
    have filled := length_pos_iff.mpr (bounded second mem_cons_self).1
    have more : piece.length < sdu.length := by
      rw [length, flatten_cons, length_append]
      omega
    rw [if_neg (Nat.ne_of_lt more), if_pos more]
    have pending : Pending { ccb with
        bleSdu := some piece, bleSduLength := sdu.length, isFirstSeg := false } piece
        (second :: others).flatten.length := ⟨idle.connected, rfl, rfl, length⟩
    rw [pending.complete (cons_ne_nil _ _) bounded, joined]
    rfl

/-! ## Any PDUs -/

/-- The PDUs carry octets of the announced length. -/
structure Announced (first : List UInt8) (rest : List (List UInt8)) (sdu : List UInt8) : Prop where
  joined : sdu = first.drop 2 ++ rest.flatten
  length : sdu.length = streamToUint16 first

structure Collects (pdus : List (List UInt8)) (ccb : Receiver) : Prop where
  whole : ∀ sdu ∈ ccb.delivered, ∃ first rest, first :: rest <:+: pdus ∧ Announced first rest sdu
  partly : ccb.connected = true → ccb.isFirstSeg = false →
    ∃ first rest, first :: rest <:+ pdus ∧ ccb.bleSdu = some (first.drop 2 ++ rest.flatten) ∧
      ccb.bleSduLength = streamToUint16 first ∧
      (first.drop 2 ++ rest.flatten).length < ccb.bleSduLength

namespace Collects

theorem later {pdus : List (List UInt8)} (collects : Collects pdus ccb)
    (pdu : List UInt8) : ∀ sdu ∈ ccb.delivered, ∃ first rest, first :: rest <:+: pdus ++ [pdu] ∧
      Announced first rest sdu := by
  intro sdu member
  obtain ⟨first, rest, within, announced⟩ := collects.whole sdu member
  exact ⟨first, rest, within.trans (prefix_append pdus [pdu]).isInfix, announced⟩

theorem ended {next : Receiver} (collects : Collects pdus ccb) (pdu : List UInt8)
    (same : next.delivered = ccb.delivered) (gone : next.connected = false) :
    Collects (pdus ++ [pdu]) next := by
  refine ⟨same ▸ collects.later pdu, fun connected => ?_⟩
  rw [gone] at connected
  cases connected

theorem append (first : List UInt8) (rest : List (List UInt8))
    (delivered : ∀ sdu ∈ ccb.delivered, ∃ first rest, first :: rest <:+: pdus ∧
      Announced first rest sdu) (suffix : first :: rest <:+ pdus)
    (joined : data ++ payload = first.drop 2 ++ rest.flatten)
    (length : ccb.bleSduLength = streamToUint16 first)
    (bounded : (data ++ payload).length ≤ ccb.bleSduLength) :
    Collects pdus (ccb.appendPayload data payload) := by
  unfold appendPayload
  dsimp only
  split_ifs with complete partly
  · refine ⟨fun sdu member => ?_, fun _ first => by cases first⟩
    rcases mem_append.mp member with before | last
    · exact delivered sdu before
    · rw [mem_singleton.mp last]
      exact ⟨first, rest, suffix.isInfix, joined, complete.trans length⟩
  · refine ⟨delivered, fun _ _ => ⟨first, rest, suffix, ?_, length, ?_⟩⟩
    · exact congrArg some joined
    · exact joined ▸ partly
  · omega

section

variable (collects : Collects pdus ccb) (pdu : List UInt8)
include collects

theorem dropped (between : ccb.connected = true → ccb.isFirstSeg = true) :
    Collects (pdus ++ [pdu]) ccb := by
  refine ⟨collects.later pdu, fun connected continuing => ?_⟩
  rw [between connected] at continuing
  cases continuing

theorem continuation (connected : ccb.connected = true) (continuing : ccb.isFirstSeg = false)
    (short : ¬ ccb.mps < pdu.length) : Collects (pdus ++ [pdu]) (ccb.procPdu pdu) := by
  obtain ⟨first, rest, suffix, pending, length, part⟩ := collects.partly connected continuing
  rw [procPdu_continuing continuing pending short]
  split_ifs with overflow
  · exact collects.ended pdu rfl rfl
  · obtain ⟨before, all⟩ := suffix
    refine append first (rest ++ [pdu]) (collects.later pdu) ?_ ?_ length ?_
    · exact ⟨before, by rw [← all]; simp⟩
    · simp
    · rw [length_append]
      omega

theorem takePdu : Collects (pdus ++ [pdu]) (ccb.takePdu pdu) := by
  by_cases connected : ccb.connected = true
  · rw [Receiver.takePdu, if_pos connected]
    by_cases long : ccb.mps < pdu.length
    · rw [procPdu, if_pos long]
      exact collects.ended pdu rfl rfl
    · cases start : ccb.isFirstSeg with
      | false => exact collects.continuation pdu connected start long
      | true =>
        rw [procPdu, if_neg long, if_pos start]
        dsimp only
        split_ifs with small exceeding inconsistent
        · exact collects.dropped pdu fun _ => start
        · exact collects.ended pdu rfl rfl
        · exact collects.dropped pdu fun _ => start
        · refine append pdu [] (collects.later pdu) (suffix_append _ _) (by simp) rfl ?_
          rw [nil_append]
          exact Nat.not_lt.mp inconsistent
  · rw [Receiver.takePdu, if_neg connected]
    exact collects.dropped pdu fun is => absurd is connected

end

theorem receive (idle : ccb.Idle) (fresh : ccb.delivered = []) (pdus : List (List UInt8)) :
    Collects pdus (pdus.foldl Receiver.takePdu ccb) := by
  induction pdus using List.reverseRecOn with
  | nil =>
    refine ⟨?_, fun _ continuing => ?_⟩
    · rw [foldl_nil, fresh]
      intro sdu member
      cases member
    · rw [foldl_nil, idle.isFirstSeg] at continuing
      cases continuing
  | append_singleton before pdu ih =>
    rw [foldl_append]
    exact ih.takePdu pdu

end Collects

end Receiver

/-! ## The channel -/

/-- A sender and an idle receiver at the two ends of a channel. -/
structure Joined (ccb : Sender) (receiver : Receiver) : Prop where
  least : 23 ≤ ccb.mps
  word : ccb.mps < 65536
  localCid : ccb.localCid ≠ 0
  remoteCid : ccb.remoteCid < 65536
  mps : receiver.mps = ccb.mps
  cid : receiver.localCid = ccb.remoteCid
  mtu : receiver.mtu < 65536
  idle : receiver.Idle

/--
The SDU in a buffer is sent in PDUs that are not too long, and the receiver
delivers it once and is left without a partial SDU.
-/
def Transfers (ccb : Sender) (receiver : Receiver) (buf : BtHdr) : Prop :=
  ∃ pdus, sendSdu buf.len { ccb with xmitHoldQ := buf :: ccb.xmitHoldQ } = some (pdus, ccb) ∧
    (∀ pdu ∈ pdus, (pdu.contents.drop pktOverhead).length ≤ ccb.mps) ∧
    (pdus.map BtHdr.contents).foldl rcvAclData receiver =
      { receiver with delivered := receiver.delivered ++ [buf.contents] }

theorem length_carried (least : 23 ≤ mps) (buf : BtHdr) :
    (carried mps buf).length = buf.len := by
  have inside := buf.inside
  unfold carried
  split
  · exact nextPiece_length (Nat.le_refl _)
  · rw [length_append, nextPiece_length (by omega),
      length_gathered (by omega) (by omega) (by omega)]
    omega

theorem transfer_carried {ccb : Sender} (joined : Joined ccb receiver) (buf : BtHdr)
    (first : buf.event = 0) (left : 0 < buf.len) (accepted : buf.len ≤ receiver.mtu)
    (fits : min buf.len (ccb.mps - 6) + 25 < 65536) :
    ∃ pdus, sendSdu buf.len { ccb with xmitHoldQ := buf :: ccb.xmitHoldQ } = some (pdus, ccb) ∧
      (∀ pdu ∈ pdus, (pdu.contents.drop pktOverhead).length ≤ ccb.mps) ∧
      (pdus.map BtHdr.contents).foldl rcvAclData receiver =
        { receiver with delivered := receiver.delivered ++ [carried ccb.mps buf] } := by
  obtain ⟨least, word, localCid, remoteCid, mps, cid, mtu, idle⟩ := joined
  obtain ⟨pdus, piece, pieces, sent, contents, short, bounded, whole⟩ :=
    @sendSdu_new { ccb with xmitHoldQ := buf :: ccb.xmitHoldQ } buf ccb.xmitHoldQ rfl least word
      localCid first left fits
  dsimp only at contents short bounded whole
  have length := length_carried least buf
  have shorter : ∀ piece ∈ pieces, piece ≠ [] ∧ piece.length ≤ receiver.mps := by
    intro piece member
    obtain ⟨filled, short⟩ := bounded piece member
    exact ⟨filled, by omega⟩
  have delivered := receive_sdu idle whole (by omega) (by omega) (by omega) shorter
  rw [length] at delivered
  have payloads : ∀ payload ∈ (uint16ToStream buf.len ++ piece) :: pieces,
      payload.length ≤ ccb.mps := by
    intro payload member
    rcases mem_cons.mp member with start | later
    · rw [start, length_append, length_uint16ToStream]
      omega
    · exact mps ▸ (shorter payload later).2
  rw [← map_cons] at contents
  refine ⟨pdus, sent, ?_, ?_⟩
  · intro pdu member
    obtain ⟨payload, carried, same⟩ :=
      mem_map.mp (contents ▸ mem_map_of_mem member)
    rw [← same]
    exact payloads payload carried
  · rw [contents, ← delivered, ← cid]
    refine foldl_rcvAclData (cid ▸ remoteCid) fun payload member => ?_
    have short := payloads payload member
    omega

/--
The numbers of 16 bits do not wrap: neither the size of the first copy, nor the
offset at which a later PDU starts.
-/
def Representable (mps offset length : Nat) : Prop :=
  min length (mps - 6) + 25 < 65536 ∧ ∀ index, mps - 6 + (mps - 4) * index < length →
      offset + (mps - 6 + (mps - 4) * index) < 65536

theorem carried_of_representable (least : 23 ≤ mps)
    (representable : Representable mps buf.offset buf.len) : carried mps buf = buf.contents := by
  unfold carried
  split
  · rfl
  · rename_i more
    have start : buf.offset + (mps - 6) < 65536 := by
      simpa using representable.2 0 (by omega)
    have later : ∀ index, (mps - 4) * index < buf.len - (mps - 6) →
        buf.offset + (mps - 6) + (mps - 4) * index < 65536 := by
      intro index short
      have next := representable.2 index (by omega)
      omega
    have split : buf.len = mps - 6 + (buf.len - (mps - 6)) := by omega
    rw [Nat.mod_eq_of_lt start, gathered_exact (by omega) (by omega) later, BtHdr.contents]
    conv => rhs; rw [split, take_add, drop_drop]
    rfl

theorem zero_mem_carried (least : 23 ≤ mps) (word : mps < 65536) (small : total < 65536)
    (below : room < 65536) (short : mps - 6 + (mps - 4) * index < total)
    (wraps : 65536 ≤ room + (mps - 6 + (mps - 4) * index)) :
    (0 : UInt8) ∈ carried mps (markedSdu room total) := by
  have memory : (markedSdu room total).memory = marked room total := rfl
  rw [carried, markedSdu_len, markedSdu_offset, memory, if_neg (by omega)]
  apply mem_append_right
  by_cases here : room + (mps - 6) < 65536
  · have inner : (mps - 4) * index < total - (mps - 6) := by omega
    rw [Nat.mod_eq_of_lt here]
    exact zero_mem_gathered (by omega) (by omega) (by omega) small (by omega) here inner (by omega)
  · exact zero_mem_gathered_room (by omega) (by omega) (by omega) (by omega)

section

variable {ccb : Sender} (joined : Joined ccb receiver)
include joined

/-- If an offset wraps, the octets of the room are sent instead of the last ones. -/
theorem marked_not_transferred (below : room < 65536) (accepted : total ≤ receiver.mtu)
    (fits : min total (ccb.mps - 6) + 25 < 65536)
    (short : ccb.mps - 6 + (ccb.mps - 4) * index < total)
    (wraps : 65536 ≤ room + (ccb.mps - 6 + (ccb.mps - 4) * index)) :
    ¬ Transfers ccb receiver (markedSdu room total) := by
  rintro ⟨pdus, sent, -, delivered⟩
  have mtu := joined.mtu
  have zero := zero_mem_carried joined.least joined.word (by omega) below short wraps
  have length := markedSdu_len room total
  obtain ⟨others, sentToo, -, deliveredToo⟩ := transfer_carried joined (markedSdu room total)
    rfl (by omega) (by omega) (by rwa [length])
  obtain rfl : pdus = others := (Prod.mk.inj (Option.some.inj (sent.symm.trans sentToo))).1
  have same := congrArg Receiver.delivered (delivered.symm.trans deliveredToo)
  have contents : carried ccb.mps (markedSdu room total) = List.replicate total 1 := by
    have last := (append_cancel_left same)
    rw [singleton_inj] at last
    rw [← last]
    exact BtHdr.contents_withRoom _ _ _
  rw [contents] at zero
  exact absurd (eq_of_mem_replicate zero) (by decide)

theorem large_not_transferred (first : buf.event = 0) (left : 0 < buf.len)
    (accepted : buf.len ≤ receiver.mtu) (large : 65536 ≤ min buf.len (ccb.mps - 6) + 25) :
    ¬ Transfers ccb receiver buf := by
  rintro ⟨pdus, sent, -⟩
  have mtu := joined.mtu
  have none : getNextXmitSduSeg { ccb with xmitHoldQ := buf :: ccb.xmitHoldQ } = none :=
    getNextXmitSduSeg_large rfl first (by omega)
      (by rwa [segmentSize_first joined.least joined.word])
  obtain ⟨fuel, fueled⟩ : ∃ fuel, buf.len = fuel + 1 := ⟨buf.len - 1, by omega⟩
  rw [fueled, sendSdu, none] at sent
  cases sent

/-- An SDU is transferred for all its contents exactly if no number wraps. -/
theorem transfers_iff_representable {offset length : Nat} (below : offset < 65536)
    (left : 0 < length) (accepted : length ≤ receiver.mtu) :
    (∀ buf : BtHdr, buf.event = 0 → buf.offset = offset → buf.len = length →
      Transfers ccb receiver buf) ↔ Representable ccb.mps offset length := by
  constructor
  · intro transfers
    have marked := transfers (markedSdu offset length) rfl (markedSdu_offset _ _)
      (markedSdu_len _ _)
    have len := markedSdu_len offset length
    have fits : min length (ccb.mps - 6) + 25 < 65536 := by
      by_contra large
      exact large_not_transferred joined rfl (by omega) (by omega) (by rw [len]; omega) marked
    refine ⟨fits, fun index short => ?_⟩
    by_contra wraps
    exact marked_not_transferred joined below accepted fits short (by omega) marked
  · rintro representable buf first rfl rfl
    obtain ⟨pdus, sent, short, delivered⟩ :=
      transfer_carried joined buf first left accepted representable.1
    rw [carried_of_representable joined.least representable] at delivered
    exact ⟨pdus, sent, short, delivered⟩

end

/--
An SDU is transferred for all its contents exactly if no number wraps.  Whatever
the PDUs are, each delivered SDU was announced with its length, and a PDU that
continues an SDU beyond the announced length delivers nothing and disconnects.
-/
theorem channel_transfers {ccb : Sender} {receiver : Receiver} (joined : Joined ccb receiver)
    {offset length : Nat} (below : offset < 65536) (left : 0 < length)
    (accepted : length ≤ receiver.mtu) :
    ((∀ buf : BtHdr, buf.event = 0 → buf.offset = offset → buf.len = length →
      Transfers ccb receiver buf) ↔ Representable ccb.mps offset length) ∧
    ∀ (fresh : Receiver) (pdus : List (List UInt8)), fresh.Idle → fresh.delivered = [] →
      (∀ sdu ∈ (pdus.foldl takePdu fresh).delivered,
        ∃ first rest, first :: rest <:+: pdus ∧ Receiver.Announced first rest sdu) ∧
      ∀ last, pdus.foldl Receiver.takePdu fresh = last → last.connected = true →
        last.isFirstSeg = false → ∃ first rest, first :: rest <:+ pdus ∧
          last.bleSdu = some (first.drop 2 ++ rest.flatten) ∧
          last.bleSduLength = streamToUint16 first ∧
          ∀ pdu, streamToUint16 first < (first.drop 2 ++ rest.flatten ++ pdu).length →
            (last.takePdu pdu).delivered = last.delivered ∧
              (last.takePdu pdu).connected = false := by
  refine ⟨transfers_iff_representable joined below left accepted, ?_⟩
  intro fresh pdus idle none
  have collects := Receiver.Collects.receive idle none pdus
  refine ⟨collects.whole, ?_⟩
  rintro last rfl connected continuing
  obtain ⟨first, rest, suffix, pending, announced, part⟩ := collects.partly connected continuing
  refine ⟨first, rest, suffix, pending, announced, fun pdu overflow => ?_⟩
  rw [length_append] at overflow
  exact takePdu_overflow connected continuing pending (by omega)

/-- A sender with the smallest MPS and an idle receiver that takes SDUs of any length. -/
def smallSender : Sender := ⟨23, 0x40, 0x41, []⟩

def largeReceiver : Receiver := ⟨65535, 23, 0x41, true, none, 0, [], true⟩

theorem joined_small : Joined smallSender largeReceiver where
  least := by decide
  word := by decide
  localCid := by decide
  remoteCid := by decide
  mps := rfl
  cid := rfl
  mtu := by decide
  idle := ⟨rfl, rfl, rfl, rfl⟩

theorem channel_transfers_twoPdus : Transfers smallSender largeReceiver (markedSdu 13 30) := by
  refine (@channel_transfers _ _ joined_small 13 30 (by decide) (by decide) (by decide)).1.mpr
    ⟨by decide, fun index short => ?_⟩ (markedSdu 13 30) rfl rfl rfl
  omega

/-- The last PDU of a full SDU is read from the room in front of it. -/
theorem full_sdu_not_transferred :
    ¬ Transfers smallSender largeReceiver (markedSdu 13 65535) := by
  have short : 23 - 6 + (23 - 4) * 3448 < 65535 := by decide
  exact marked_not_transferred joined_small (by decide) (by decide) (by decide) short (by decide)

end BluetoothFormal.L2cap.LeCoc
