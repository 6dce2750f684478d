import BluetoothFormal.Foundation.Transition
import BluetoothFormal.L2cap.Buffer
import BluetoothFormal.Packet.Inserters
import BluetoothFormal.Packet.PacketView

/-!
# The data controller of an LE credit-based channel

`LeCreditBasedDataController` cuts an SDU into frames and tells the scheduler how many of
them it may take; the others wait for credits.  A received frame is a view of bytes, and
so is the SDU that is put together from the frames.

The calls to the scheduler and to the link stay in a list.  The numbers of the frames that
were queued and of the credits that were granted, and the length that the first frame of an
SDU announced, are recorded too; nothing reads them.

The credits, the frames that wait and the frames that were released are a book of their own,
which a whole SDU or a grant changes in one step.
-/

namespace BluetoothFormal.L2cap

open Foundation.Transition Packet Packet.Inserters List Option

/-! ## Frames -/

/-- `BasicFrameBuilder` and `FirstLeInformationFrameBuilder`. -/
inductive LeFrame where
  | basic (channelId : UInt16) (payload : List UInt8)
  | firstLeInformation (channelId l2capSduLength : UInt16) (payload : List UInt8)
  deriving DecidableEq

def LeFrame.serialize : LeFrame → List UInt8
  | .basic channelId payload =>
    uint16ToStream payload.length ++ (uint16ToStream channelId.toNat ++ payload)
  | .firstLeInformation channelId l2capSduLength payload =>
    uint16ToStream (payload.length + 2) ++ (uint16ToStream channelId.toNat ++
      (uint16ToStream l2capSduLength.toNat ++ payload))

namespace LeFrameView

section

variable (view : PacketView)

/-- The getter of a field of 16 bits; `none` is a failed assertion. -/
def getUint16 (offset : Nat) : Option Nat :=
  ((view.beginIterator.add offset).extract true 2).map fun extracted =>
    streamToUint16 extracted.1

theorem getUint16_eq {view : PacketView} {offset : Nat} (inside : offset + 2 ≤ view.size) :
    getUint16 view offset = some (streamToUint16 (view.bytes.drop offset)) := by
  have rest : (view.beginIterator.add offset).rest = view.bytes.drop offset := by
    rw [Iterator.rest_add (Nat.le_refl 0), PacketView.rest_beginIterator]
  have enough : 2 ≤ (view.beginIterator.add offset).rest.length := by
    rw [rest, length_drop, ← view.size_eq]
    omega
  obtain ⟨after, extracted, _⟩ := Iterator.extract_eq true (Nat.zero_le _) enough
  rw [getUint16, extracted, rest]
  simp only [map_some, if_true, streamToUint16, getD_eq_getElem?_getD, List.getElem?_take]
  rfl

/-- `BasicFrameView::IsValid_`. -/
def basicIsValid : Option Bool :=
  if view.size < 4 then some false
  else (getUint16 view 0).map fun payloadSize => decide (4 + payloadSize ≤ view.size)

/-- `FirstLeInformationFrameView::IsValid_`; the payload has no size of its own. -/
def firstIsValid : Option Bool :=
  (basicIsValid view).map fun valid => valid && decide (6 ≤ view.size)

/-- `BasicFrameView::GetPayload`. -/
def basicPayload : Option PacketView := do
  let payloadSize ← getUint16 view 0
  view.getSubview 4 (if 4 + payloadSize < view.size then 4 + payloadSize else view.size)

/-- `FirstLeInformationFrameView::GetPayload`, which runs to the end of the view. -/
def firstPayload : Option PacketView := view.getSubview 6 view.size

def l2capSduLength : Option Nat := getUint16 view 4

end

end LeFrameView

/-! ## The controller -/

/-- What the controller calls. -/
inductive LeCall where
  | onPacketsReady (cid : UInt16) (numberPackets : Nat)
  | sendDisconnectionRequest (cid remoteCid : UInt16)
  | sendLeCredit (cid : UInt16) (credits : Nat)

/-- An SDU that was passed on, with the length that its first frame announced. -/
structure LeDelivery where
  announced : Nat
  sdu : PacketView

structure LeCreditBasedDataController where
  cid : UInt16
  remoteCid : UInt16
  pduQueue : List LeFrame
  mtu : UInt16
  mps : UInt16
  credits : Nat
  pendingFramesCount : Nat
  reassemblyStage : PacketView
  remainingSduContinuationPacketSize : Nat
  enqueueBuffer : List LeDelivery
  calls : List LeCall
  framed : Nat
  granted : Nat
  announced : Nat

namespace LeCreditBasedDataController

def new (cid remoteCid : UInt16) : LeCreditBasedDataController where
  cid := cid
  remoteCid := remoteCid
  pduQueue := []
  mtu := 512
  mps := 251
  credits := 0
  pendingFramesCount := 0
  reassemblyStage := PacketView.ofPacket []
  remainingSduContinuationPacketSize := 0
  enqueueBuffer := []
  calls := []
  framed := 0
  granted := 0
  announced := 0

section

variable (self : LeCreditBasedDataController)

def call (made : LeCall) : LeCreditBasedDataController :=
  { self with calls := self.calls ++ [made] }

/-- `mps_ - 2` as a `size_t`. -/
def segmentSize (mps : UInt16) : Nat :=
  ((mps.toNat : Int) - 2).emod 0x10000000000000000 |>.toNat

def framesOf (remoteCid : UInt16) (sduSize : Nat) : List (List UInt8) → List LeFrame
  | [] => []
  | first :: rest =>
    .firstLeInformation remoteCid (UInt16.ofNat sduSize) first :: rest.map (.basic remoteCid)

theorem length_framesOf (remoteCid : UInt16) (sduSize : Nat) (segments : List (List UInt8)) :
    (framesOf remoteCid sduSize segments).length = segments.length := by
  cases segments with
  | nil => rfl
  | cons first rest => rw [framesOf, length_cons, length_map, length_cons]

def queueFrames (frames : List LeFrame) : LeCreditBasedDataController :=
  { self with
    pduQueue := self.pduQueue ++ frames
    framed := self.framed + frames.length }

/-- The part of `OnSdu` after the frames are queued. -/
def release (segments : Nat) : LeCreditBasedDataController :=
  if segments ≤ self.credits then
    { self.call (.onPacketsReady self.cid segments) with
      credits := self.credits - segments }
  else if 0 < self.credits then
    { self.call (.onPacketsReady self.cid self.credits) with
      pendingFramesCount :=
        (self.pendingFramesCount + (segments - self.credits)) % 65536
      credits := 0 }
  else
    { self with
      pendingFramesCount := (self.pendingFramesCount + segments) % 65536 }

/-- `OnSdu`; an SDU that is longer than the MTU only leaves a warning. -/
def onSdu (sdu : PacketBuilder) :
    Option LeCreditBasedDataController := do
  let bytes ← serializeToBytes sdu
  if bytes.length = 0 then return self
  let segments ← getFragments (segmentSize self.mps) sdu
  let frames := framesOf self.remoteCid bytes.length (segments.map RawBuilder.payload)
  return (self.queueFrames frames).release segments.length

/-- The last part of `OnPdu`; what remains is unsigned, and never less than zero. -/
def finishPdu : LeCreditBasedDataController :=
  if self.remainingSduContinuationPacketSize = 0 then
    call
      { self with
        enqueueBuffer :=
          self.enqueueBuffer ++ [⟨self.announced, self.reassemblyStage⟩] }
      (.sendLeCredit self.cid 1)
  else if self.remainingSduContinuationPacketSize < 0 ∨
      self.mtu.toNat < self.reassemblyStage.size then
    (call
      { self with
        reassemblyStage := PacketView.ofPacket []
        remainingSduContinuationPacketSize := 0 }
      (.sendDisconnectionRequest self.cid self.remoteCid)).call
      (.sendLeCredit self.cid 1)
  else self.call (.sendLeCredit self.cid 1)

def startSdu (sduSize : Nat) (payload : PacketView) : LeCreditBasedDataController :=
  { self with
    remainingSduContinuationPacketSize := (sduSize + 65536 - payload.size % 65536) % 65536
    reassemblyStage := payload
    announced := sduSize }

def continueSdu (size : Nat) (appended : PacketView) : LeCreditBasedDataController :=
  { self with
    remainingSduContinuationPacketSize :=
      (self.remainingSduContinuationPacketSize + 65536 - size % 65536) % 65536
    reassemblyStage := appended }

/-- `OnPdu` for the first frame of an SDU. -/
def onFirstPdu (pdu : PacketView) :
    Option LeCreditBasedDataController := do
  let valid ← LeFrameView.firstIsValid pdu
  if valid = false then return self
  let payload ← LeFrameView.firstPayload pdu
  let sduSize ← LeFrameView.l2capSduLength pdu
  return (self.startSdu sduSize payload).finishPdu

/-- `OnPdu` for a frame that continues an SDU. -/
def onContinuationPdu (pdu : PacketView) :
    Option LeCreditBasedDataController := do
  let payload ← LeFrameView.basicPayload pdu
  let appended ← self.reassemblyStage.append payload
  return (self.continueSdu payload.size appended).finishPdu

/-- `OnPdu`; `none` is a failed assertion. -/
def onPdu (pdu : PacketView) :
    Option LeCreditBasedDataController := do
  let valid ← LeFrameView.basicIsValid pdu
  if valid = false then return self
  if self.mps.toNat < pdu.size then return self
  if self.remainingSduContinuationPacketSize = 0 then self.onFirstPdu pdu
  else self.onContinuationPdu pdu

/-- `GetNextPacket` with its assertion. -/
def getNextPacket : Option LeCreditBasedDataController :=
  match self.pduQueue with
  | [] => none
  | _ :: rest => some { self with pduQueue := rest }

def setMtu (mtu : UInt16) : LeCreditBasedDataController :=
  { self with mtu := mtu }

def setMps (mps : UInt16) : LeCreditBasedDataController :=
  { self with mps := mps }

/-- The sum is kept in 16 bits. -/
def storeCredits (credits : Nat) : LeCreditBasedDataController :=
  { self with
    credits := (self.credits + credits) % 65536
    granted := self.granted + credits }

/-- The part of `OnCredit` after the credits are stored. -/
def releasePending : LeCreditBasedDataController :=
  if 0 < self.pendingFramesCount ∧ self.pendingFramesCount ≤ self.credits then
    -- The count is set to zero before it is subtracted from the credits.
    let emptied :=
      { self.call (.onPacketsReady self.cid self.pendingFramesCount) with
        pendingFramesCount := 0 }
    { emptied with credits := emptied.credits - emptied.pendingFramesCount }
  else if 0 < self.pendingFramesCount then
    { self.call (.onPacketsReady self.cid self.credits) with
      pendingFramesCount := self.pendingFramesCount - self.credits
      credits := 0 }
  else self

/-- `OnCredit`, which goes on after it has asked for the disconnection. -/
def onCredit (credits : UInt16) : LeCreditBasedDataController :=
  let totalCredits := self.credits + credits.toNat
  let checked :=
    if 0xffff < totalCredits then
      self.call (.sendDisconnectionRequest self.cid self.remoteCid)
    else self
  (checked.storeCredits credits.toNat).releasePending

end

/-- The controller of a channel with its first credits, as the signalling manager sets it up. -/
def opened (cid remoteCid mtu mps initialCredits : UInt16) : LeCreditBasedDataController :=
  (((new cid remoteCid).setMtu mtu).setMps mps).onCredit initialCredits

/-- What happens to a controller. -/
inductive Event where
  | sdu (sdu : PacketBuilder)
  | pdu (pdu : PacketView)
  | credit (credits : UInt16)
  | nextPacket
  | mtu (mtu : UInt16)
  | mps (mps : UInt16)

def step : PartialStep LeCreditBasedDataController Event
  | self, .sdu sdu => self.onSdu sdu
  | self, .pdu pdu => self.onPdu pdu
  | self, .credit credits => some (self.onCredit credits)
  | self, .nextPacket => self.getNextPacket
  | self, .mtu mtu => some (self.setMtu mtu)
  | self, .mps mps => some (self.setMps mps)

end LeCreditBasedDataController

/-! ## The book of credits -/

/-- The frames that a call tells the scheduler to take. -/
def LeCall.ready : LeCall → Nat
  | .onPacketsReady _ numberPackets => numberPackets
  | .sendDisconnectionRequest _ _ => 0
  | .sendLeCredit _ _ => 0

/-- The frames queued and released, the credits granted, and the two counters. -/
structure CreditBook where
  framed : Nat
  released : Nat
  granted : Nat
  credits : Nat
  pending : Nat
  deriving DecidableEq

variable {amount : Nat} {pdu : PacketView} {event : Event}

namespace CreditBook

section

variable (book : CreditBook)

/-- The frames that were queued and not yet released. -/
def waiting : Nat := book.framed - book.released

def queue (count : Nat) : CreditBook :=
  if count ≤ book.credits then
    { book with
      framed := book.framed + count
      released := book.released + count
      credits := book.credits - count }
  else
    { book with
      framed := book.framed + count
      released := book.released + book.credits
      credits := 0
      pending := (book.pending + (count - book.credits)) % 65536 }

/-- Store credits, and release the frames that wait, without paying for all of them. -/
def grant (amount : Nat) : CreditBook :=
  let credits := (book.credits + amount) % 65536
  if 0 < book.pending ∧ book.pending ≤ credits then
    { book with
      granted := book.granted + amount
      released := book.released + book.pending
      credits := credits
      pending := 0 }
  else if 0 < book.pending then
    { book with
      granted := book.granted + amount
      released := book.released + credits
      credits := 0
      pending := book.pending - credits }
  else { book with granted := book.granted + amount, credits := credits }

/--
No more is released than was granted, and either no frame waits and the credits are those
that were granted and not used, or frames wait and there is no credit.
-/
def Balanced : Prop :=
  book.released ≤ book.granted ∧ ((book.waiting = 0 ∧ book.credits = book.granted - book.released) ∨
      (0 < book.waiting ∧ book.credits = 0))
  deriving Decidable

end

/-- No frame waits and there is room for the credits, or they do not pay for all that wait. -/
def Honours (book : CreditBook) (amount : Nat) : Prop :=
  (book.waiting = 0 ∧ book.credits + amount ≤ 65535) ∨
    (0 < book.waiting ∧ (amount < book.pending ∨ amount = 0))
  deriving Decidable

/-- Every credit is accounted for, and the counter of pending frames is right up to wrapping. -/
structure Accounted (book : CreditBook) : Prop where
  framed : book.released ≤ book.framed
  spent : book.credits + book.released = book.granted
  settled : book.waiting = 0 ∨ book.credits = 0
  pending : book.pending = book.waiting % 65536
  word : book.credits < 65536

variable {book : CreditBook}

section

variable (accounted : book.Accounted)
include accounted

theorem Accounted.balanced : book.Balanced := by
  have spent := accounted.spent
  refine ⟨by omega, ?_⟩
  rcases accounted.settled with none | used
  · exact .inl ⟨none, by omega⟩
  · rcases Nat.eq_zero_or_pos book.waiting with none | some
    · exact .inl ⟨none, by omega⟩
    · exact .inr ⟨some, used⟩

theorem Accounted.queue {count : Nat} (positive : 0 < count) :
    (book.queue count).Accounted := by
  obtain ⟨framed, spent, settled, pending, word⟩ := accounted
  unfold waiting at settled pending
  unfold CreditBook.queue
  split <;> constructor <;> dsimp only [waiting] <;> omega

theorem Accounted.honours_of_balanced (small : amount < 65536)
    (balanced : (book.grant amount).Balanced) : book.Honours amount := by
  obtain ⟨-, spent, settled, pending, -⟩ := accounted
  unfold waiting at settled pending
  obtain ⟨_, settledAfter⟩ := balanced
  unfold CreditBook.grant waiting at settledAfter
  unfold Honours waiting
  dsimp only at settledAfter
  split at settledAfter
  · dsimp only at settledAfter
    omega
  · split at settledAfter
    · omega
    · dsimp only at settledAfter
      omega

theorem Accounted.grant (honours : book.Honours amount) :
    (book.grant amount).Accounted := by
  obtain ⟨framed, spent, settled, pending, -⟩ := accounted
  unfold Honours waiting at honours
  unfold waiting at settled pending
  unfold CreditBook.grant
  dsimp only
  split
  · constructor <;> dsimp only [waiting] <;> omega
  · split <;> constructor <;> dsimp only [waiting] <;> omega

theorem Accounted.pending_of_beyond (small : amount < 65536)
    (beyond : 65535 < book.credits + amount) : book.pending = 0 := by
  have pending := accounted.pending
  rcases accounted.settled with none | used
  · rw [pending, none]
  · omega

end

end CreditBook

namespace LeCreditBasedDataController

def released (self : LeCreditBasedDataController) : Nat :=
  (self.calls.map LeCall.ready).sum

def book (self : LeCreditBasedDataController) : CreditBook where
  framed := self.framed
  released := self.released
  granted := self.granted
  credits := self.credits
  pending := self.pendingFramesCount

variable {self after : LeCreditBasedDataController}

@[simp]
theorem released_call (self : LeCreditBasedDataController) (made : LeCall) :
    (self.call made).released = self.released + made.ready := by
  simp [released, call]

theorem book_call {made : LeCall} (nothing : made.ready = 0) :
    (self.call made).book = self.book := by
  have same : (self.call made).released = self.released := by
    rw [released_call, nothing, Nat.add_zero]
  rw [book, book, same]
  rfl

theorem book_finishPdu (self : LeCreditBasedDataController) :
    self.finishPdu.book = self.book := by
  unfold finishPdu
  split
  · exact book_call rfl
  · split
    · exact (book_call rfl).trans (book_call rfl)
    · exact book_call rfl

theorem book_onFirstPdu (done : self.onFirstPdu pdu = some after) :
    after.book = self.book := by
  simp only [onFirstPdu, bind_eq_bind, bind_eq_some_iff] at done
  obtain ⟨valid, _, done⟩ := done
  split at done
  · rw [← some.inj done]
  · rw [bind_eq_some_iff] at done
    obtain ⟨payload, _, done⟩ := done
    rw [bind_eq_some_iff] at done
    obtain ⟨sduSize, _, done⟩ := done
    rw [← some.inj done, book_finishPdu]
    rfl

theorem book_onContinuationPdu (done : self.onContinuationPdu pdu = some after) :
    after.book = self.book := by
  simp only [onContinuationPdu, bind_eq_bind, bind_eq_some_iff] at done
  obtain ⟨payload, _, appended, _, done⟩ := done
  rw [← some.inj done, book_finishPdu]
  rfl

theorem book_onPdu (done : self.onPdu pdu = some after) :
    after.book = self.book := by
  simp only [onPdu, bind_eq_bind, bind_eq_some_iff] at done
  obtain ⟨valid, _, done⟩ := done
  split at done
  · rw [← some.inj done]
  · split at done
    · rw [← some.inj done]
    · split at done
      · exact book_onFirstPdu done
      · exact book_onContinuationPdu done

theorem book_release (self : LeCreditBasedDataController) (frames : List LeFrame) :
    ((self.queueFrames frames).release frames.length).book = self.book.queue frames.length := by
  unfold release CreditBook.queue
  by_cases enough : frames.length ≤ self.credits
  · rw [if_pos (show _ ≤ (self.queueFrames frames).credits from enough),
      if_pos (show _ ≤ self.book.credits from enough)]
    simp only [book, released, call, queueFrames, map_append, sum_append]
    rfl
  · rw [if_neg (show ¬ _ ≤ (self.queueFrames frames).credits from enough),
      if_neg (show ¬ _ ≤ self.book.credits from enough)]
    by_cases some : 0 < (self.queueFrames frames).credits
    · rw [if_pos some]
      simp only [book, released, call, queueFrames, map_append, sum_append]
      rfl
    · rw [if_neg some]
      have none : self.credits = 0 := Nat.eq_zero_of_not_pos some
      simp only [book, queueFrames, none, Nat.add_zero, Nat.sub_zero]
      rfl

theorem book_onSdu {sdu : PacketBuilder} (done : self.onSdu sdu = some after) :
    after.book = self.book ∨ ∃ count, 0 < count ∧ after.book = self.book.queue count := by
  simp only [onSdu, bind_eq_bind, bind_eq_some_iff] at done
  obtain ⟨bytes, serialized, done⟩ := done
  split at done
  · exact .inl (by rw [← some.inj done])
  · rename_i nonempty
    obtain ⟨segments, cut, present⟩ := getFragments_ne_nil (segmentSize self.mps) serialized
      fun empty => nonempty (length_eq_zero_iff.mpr empty)
    rw [cut] at done
    have count : (framesOf self.remoteCid bytes.length
        (segments.map RawBuilder.payload)).length = segments.length := by
      rw [length_framesOf, length_map]
    refine .inr ⟨segments.length, length_pos_iff.mpr present, ?_⟩
    rw [← some.inj done, ← count]
    exact book_release self _

theorem book_releasePending (self : LeCreditBasedDataController) (amount : Nat) :
    (self.storeCredits amount).releasePending.book = self.book.grant amount := by
  by_cases covered : 0 < self.pendingFramesCount ∧
      self.pendingFramesCount ≤ (self.credits + amount) % 65536
  · refine (congrArg book (if_pos covered)).trans (Eq.trans ?_ (if_pos covered).symm)
    simp only [book, released, call, storeCredits, map_append, sum_append]
    rfl
  · refine (congrArg book (if_neg covered)).trans (Eq.trans ?_ (if_neg covered).symm)
    by_cases some : 0 < self.pendingFramesCount
    · refine (congrArg book (if_pos some)).trans (Eq.trans ?_ (if_pos some).symm)
      simp only [book, released, call, storeCredits, map_append, sum_append]
      rfl
    · exact (congrArg book (if_neg some)).trans (if_neg some).symm

theorem book_onCredit (self : LeCreditBasedDataController) (credits : UInt16) :
    (self.onCredit credits).book = self.book.grant credits.toNat := by
  unfold onCredit
  dsimp only
  split
  · rw [book_releasePending, book_call rfl]
  · exact book_releasePending self credits.toNat

/-! ## Runs -/

/-- What balance asks of a step: only a grant can break it. -/
def Honours (self : LeCreditBasedDataController) : Event → Prop
  | .credit credits => self.book.Honours credits.toNat
  | _ => True

instance (self : LeCreditBasedDataController) (event : Event) :
    Decidable (self.Honours event) := by
  unfold Honours
  split <;> infer_instance

theorem book_step (taken : step self event = some after) :
    after.book = self.book ∨ (∃ count, 0 < count ∧ after.book = self.book.queue count) ∨
      ∃ credits, event = .credit credits ∧ after.book = self.book.grant credits.toNat := by
  cases event with
  | sdu sdu =>
    rcases book_onSdu taken with same | queued
    · exact .inl same
    · exact .inr (.inl queued)
  | pdu pdu => exact .inl (book_onPdu taken)
  | credit credits =>
    rw [← some.inj taken]
    exact .inr (.inr ⟨credits, rfl, book_onCredit self credits⟩)
  | nextPacket =>
    refine .inl ?_
    change self.getNextPacket = some after at taken
    unfold getNextPacket at taken
    split at taken
    · cases taken
    · rw [← some.inj taken]
      rfl
  | mtu | mps =>
    rw [← some.inj taken]
    exact .inl rfl

theorem accounted_step (accounted : self.book.Accounted) (honours : self.Honours event)
    (taken : step self event = some after) :
    after.book.Accounted := by
  rcases book_step taken with same | ⟨count, positive, queued⟩ | ⟨credits, rfl, granted⟩
  · exact same ▸ accounted
  · exact queued ▸ accounted.queue positive
  · exact granted ▸ accounted.grant honours

theorem opened_accounted (cid remoteCid mtu mps initialCredits : UInt16) :
    (opened cid remoteCid mtu mps initialCredits).book.Accounted := by
  rw [opened, book_onCredit]
  refine CreditBook.Accounted.grant
    ⟨Nat.le_refl 0, rfl, .inl rfl, rfl, Nat.zero_lt_succ _⟩ (.inl ⟨rfl, ?_⟩)
  have word := initialCredits.toNat_lt
  change 0 + initialCredits.toNat ≤ 65535
  omega

theorem calls_onCredit_beyond (accounted : self.book.Accounted) {credits : UInt16}
    (beyond : 0xffff < self.credits + credits.toNat) :
    (self.onCredit credits).calls =
      self.calls ++ [.sendDisconnectionRequest self.cid self.remoteCid] := by
  have none : self.pendingFramesCount = 0 :=
    accounted.pending_of_beyond credits.toNat_lt beyond
  have idle : ¬ 0 < self.pendingFramesCount := by omega
  unfold onCredit releasePending
  dsimp only
  rw [if_pos beyond]
  exact (congrArg calls ((if_neg fun covered => idle covered.1).trans (if_neg idle)))

/--
The book of a channel is balanced in all states of a run exactly if each grant finds frames
that wait and more of them than it pays for, or no frame and room for the credits.
-/
theorem balanced_along (cid remoteCid mtu mps initialCredits : UInt16) (events : List Event) :
    (Along step Honours (opened cid remoteCid mtu mps initialCredits) events ↔
      ∀ earlier, earlier <+: events → ∀ state,
        run step (opened cid remoteCid mtu mps initialCredits) earlier = some state →
          state.book.Balanced) ∧
    ∀ state credits, Along step Honours (opened cid remoteCid mtu mps initialCredits) events →
      run step (opened cid remoteCid mtu mps initialCredits) events = some state →
      0xffff < state.credits + UInt16.toNat credits → (state.onCredit credits).calls =
        state.calls ++ [.sendDisconnectionRequest state.cid state.remoteCid] := by
  have start := opened_accounted cid remoteCid mtu mps initialCredits
  have kept (state : LeCreditBasedDataController) (event : Event)
      (next : LeCreditBasedDataController) (accounted : state.book.Accounted)
      (honours : state.Honours event) (taken : step state event = some next) :
      next.book.Accounted := accounted_step accounted honours taken
  refine ⟨along_iff_reached (fun state accounted => accounted.balanced) kept ?_ start, ?_⟩
  · intro state event accounted balanced
    cases event with
    | credit credits =>
      refine accounted.honours_of_balanced credits.toNat_lt ?_
      rw [← book_onCredit]
      exact balanced _ rfl
    | sdu _ | pdu _ | nextPacket | mtu _ | mps _ => trivial
  · intro state credits along reached beyond
    exact calls_onCredit_beyond (invariant_along kept start along reached) beyond

def twoFrames : PacketBuilder := [BitCall.ofByte 7, BitCall.ofByte 8]

/-- Two frames wait on a channel, and one credit comes. -/
def oneCredit : LeCreditBasedDataController :=
  (((opened 0x40 0x41 23 3 0).onSdu twoFrames).getD (new 0 0)).onCredit 1

theorem balanced_along_oneCredit : oneCredit.book.Balanced ∧ oneCredit.book.waiting = 1 := by
  have along : Along step Honours (opened 0x40 0x41 23 3 0) [.sdu twoFrames, .credit 1] := by decide
  refine ⟨?_, by decide⟩
  exact (balanced_along 0x40 0x41 23 3 0 [.sdu twoFrames, .credit 1]).1.mp along
    [.sdu twoFrames, .credit 1] (prefix_refl _) oneCredit rfl

/-- Three credits release four frames: the first two are not paid for. -/
theorem surplus_credits_unpaid :
    (run step (opened 0x40 0x41 23 3 0) [.sdu twoFrames, .credit 3, .sdu twoFrames]).map book =
      some ⟨4, 4, 3, 1, 0⟩ ∧ ¬ (⟨4, 4, 3, 1, 0⟩ : CreditBook).Balanced := by
  decide

end LeCreditBasedDataController

end BluetoothFormal.L2cap
