import Mathlib.Logic.Function.Basic
import BluetoothFormal.Foundation.Transition
import BluetoothFormal.Gatt.AttDatabase

/-!
# The callback transaction manager

Reads and writes of characteristics are suspended calls that the upper layer answers by
connection and transaction.  The manager keeps a sender for each pending call; the calls
stand here in the order in which they were made, with what became of them.
-/

namespace BluetoothFormal.Gatt

open Foundation.Transition List Option Function

abbrev ConnectionId := UInt16
abbrev TransactionId := UInt32

/-! ## Calls -/

/-- A call of `read_characteristic` or `write_characteristic`. -/
inductive Operation where
  | read (handle : Nat)
  | write (handle : Nat) (data : List UInt8)

/-- What a call makes of a response; the data passed back is irrelevant for a write. -/
def Operation.deliver (operation : Operation) (value : Except AttErrorCode AttributeData) :
    Except AttErrorCode (Option AttributeData) :=
  match operation with
  | .read _ => value.map some
  | .write _ _ => value.map fun _ => none

/-- What became of a call. -/
inductive Progress where
  | waiting
  | resolved (value : Except AttErrorCode AttributeData)
  /-- The sender was dropped. -/
  | failed
  /-- The connection was down when the call was made. -/
  | refused
  /-- The caller was dropped. -/
  | hungUp

/-- A call with its connection and the transaction that the upper layer was told. -/
structure Request where
  operation : Operation
  connId : ConnectionId
  transId : TransactionId
  progress : Progress

open Request

variable {request : Request} {connId other : ConnectionId} {index : Nat} {transId : TransactionId}

namespace Request

/-- What the caller gets, as far as it gets something. -/
def result (request : Request) : Option (Except AttErrorCode (Option AttributeData)) :=
  match request.progress with
  | .resolved value => some (request.operation.deliver value)
  | .failed | .refused => some (.error .unlikelyError)
  | .waiting | .hungUp => none

def stopWaiting (outcome : Progress) (request : Request) : Request :=
  match request.progress with
  | .waiting => { request with progress := outcome }
  | _ => request

/-- A call that waits ends when its sender is dropped. -/
def dropSender : Request → Request := stopWaiting .failed

def hangUp : Request → Request := stopWaiting .hungUp

def resolve (value : Except AttErrorCode AttributeData) (request : Request) : Request :=
  { request with progress := .resolved value }

/-- The call waits for an answer under a connection and a transaction. -/
def PendingFor (request : Request) (connId : ConnectionId) (transId : TransactionId) : Prop :=
  request.connId = connId ∧ request.transId = transId ∧ request.progress = .waiting

section

variable (outcome : Progress)
include outcome

theorem stopWaiting_connId (request : Request) :
    (request.stopWaiting outcome).connId = request.connId := by
  rw [stopWaiting]
  split <;> rfl

theorem stopWaiting_transId (request : Request) :
    (request.stopWaiting outcome).transId = request.transId := by
  rw [stopWaiting]
  split <;> rfl

theorem stopWaiting_of_waiting (waiting : request.progress = .waiting) :
    request.stopWaiting outcome = { request with progress := outcome } := by
  rw [stopWaiting, waiting]

theorem stopWaiting_of_ne (other : request.progress ≠ .waiting) :
    request.stopWaiting outcome = request := by
  rw [stopWaiting]
  split
  · exact absurd (by assumption) other
  · rfl

theorem stopWaiting_progress (stopped : outcome ≠ .waiting) (request : Request) :
    (request.stopWaiting outcome).progress ≠ .waiting := by
  by_cases waiting : request.progress = .waiting
  · rw [stopWaiting_of_waiting outcome waiting]
    exact stopped
  · rw [stopWaiting_of_ne outcome waiting]
    exact waiting

end

theorem stopWaiting_ne {outcome avoided : Progress} (stopped : outcome ≠ avoided)
    (request : Request) (other : request.progress ≠ avoided) :
    (request.stopWaiting outcome).progress ≠ avoided := by
  rw [stopWaiting]
  split
  · exact stopped
  · exact other

end Request

/-! ## The manager -/

inductive CallbackResponseError where
  | nonExistentConnection (connId : ConnectionId)
  | nonExistentTransaction (transId : TransactionId)
  | listenerHungUp (transId : TransactionId)

/--
`CallbackTransactionManager`: for each connection the senders of its pending calls by
transaction, as the places of the calls.
-/
structure CallbackTransactionManager where
  pendingTransactions : ConnectionId → Option (TransactionId → Option Nat)
  nextTransactionId : TransactionId
  requests : List Request

variable {added : Request} {otherTrans : TransactionId}

namespace CallbackTransactionManager

variable {self changed last : CallbackTransactionManager}
  {transactions : TransactionId → Option Nat}

def new : CallbackTransactionManager := ⟨fun _ => none, 1, []⟩

section

variable (self)

/--
`start_new_transaction`, with the call that waits for it; a sender that the new one
displaces is dropped.
-/
def startNewTransaction (operation : Operation) (connId : ConnectionId) :
    CallbackTransactionManager :=
  let transId := self.nextTransactionId
  match self.pendingTransactions connId with
  | some transactions =>
    { pendingTransactions := update self.pendingTransactions connId
        (some (update transactions transId (some self.requests.length)))
      nextTransactionId := self.nextTransactionId + 1
      requests :=
        (match transactions transId with
        | some displaced => self.requests.modify displaced dropSender
        | none => self.requests) ++ [⟨operation, connId, transId, .waiting⟩] }
  | none =>
    { self with
      nextTransactionId := self.nextTransactionId + 1
      requests := self.requests ++ [⟨operation, connId, transId, .refused⟩] }

def sendResponse (connId : ConnectionId) (transId : TransactionId)
    (value : Except AttErrorCode AttributeData) :
    Except CallbackResponseError Unit × CallbackTransactionManager :=
  match self.pendingTransactions connId with
  | some transactions =>
    match transactions transId with
    | some index =>
      let removed := update self.pendingTransactions connId
        (some (update transactions transId none))
      match self.requests[index]?.map progress with
      | some .waiting =>
        (.ok (), { self with
          pendingTransactions := removed
          requests := self.requests.modify index (resolve value) })
      | _ => (.error (.listenerHungUp transId), { self with pendingTransactions := removed })
    | none => (.error (.nonExistentTransaction transId), self)
  | none => (.error (.nonExistentConnection connId), self)

/-- `add_connection`, with its assertion. -/
def addConnection (connId : ConnectionId) : Option CallbackTransactionManager :=
  match self.pendingTransactions connId with
  | some _ => none
  | none =>
    some { self with
      pendingTransactions :=
        update self.pendingTransactions connId (some fun _ => none) }

/-- `remove_connection`, with its assertion; the senders of the connection are dropped. -/
def removeConnection (connId : ConnectionId) : Option CallbackTransactionManager :=
  match self.pendingTransactions connId with
  | none => none
  | some transactions =>
    some { self with
      pendingTransactions := update self.pendingTransactions connId none
      requests := self.requests.mapIdx fun index request =>
        if transactions request.transId = some index then request.dropSender else request }

end

/-- What happens to a manager. -/
inductive Event where
  | call (operation : Operation) (connId : ConnectionId)
  | response (connId : ConnectionId) (transId : TransactionId)
      (value : Except AttErrorCode AttributeData)
  | addConnection (connId : ConnectionId)
  | removeConnection (connId : ConnectionId)
  | hangUp (index : Nat)

def Event.isCall : Event → Bool
  | .call _ _ => true
  | _ => false

/-- One event; `none` is a failed assertion. -/
def step : PartialStep CallbackTransactionManager Event
  | self, .call operation connId => some (self.startNewTransaction operation connId)
  | self, .response connId transId value =>
    some (self.sendResponse connId transId value).2
  | self, .addConnection connId => self.addConnection connId
  | self, .removeConnection connId => self.removeConnection connId
  | self, .hangUp index =>
    some { self with requests := self.requests.modify index hangUp }

/-! ## Senders and callers -/

/-- The place holds the sender of a transaction. -/
def Holds (self : CallbackTransactionManager) (connId : ConnectionId)
    (transId : TransactionId) (index : Nat) : Prop :=
  ∃ transactions, self.pendingTransactions connId = some transactions ∧
    transactions transId = some index

/--
Every sender belongs to the call made under its connection and transaction, and every
call that waits has a sender; the calls are numbered from one.
-/
structure Consistent (manager : CallbackTransactionManager) : Prop where
  sender : ∀ {connId transId index}, manager.Holds connId transId index →
    ∃ request, manager.requests[index]? = some request ∧ request.connId = connId ∧
      request.transId = transId ∧ (request.progress = .waiting ∨ request.progress = .hungUp)
  caller : ∀ {index request}, manager.requests[index]? = some request →
    request.progress = .waiting → manager.Holds request.connId request.transId index
  number : ∀ {index request}, manager.requests[index]? = some request →
    request.transId = UInt32.ofNat (index + 1)
  next : manager.nextTransactionId = UInt32.ofNat (manager.requests.length + 1)

theorem consistent_new : new.Consistent where
  sender := by
    rintro _ _ _ ⟨_, registered, _⟩
    cases registered
  caller present := by cases present
  number present := by cases present
  next := rfl

theorem holds_update {entry : Option (TransactionId → Option Nat)}
    (update : changed.pendingTransactions = update self.pendingTransactions connId entry) :
    changed.Holds other transId index ↔
      (other = connId ∧ ∃ transactions, entry = some transactions ∧
        transactions transId = some index) ∨
      (other ≠ connId ∧ self.Holds other transId index) := by
  rw [Holds, update]
  by_cases same : other = connId
  · subst same
    simp
  · simp [same, Holds]

theorem holds_removed
    (update : changed.pendingTransactions = update self.pendingTransactions connId none) :
    changed.Holds other transId index ↔ other ≠ connId ∧ self.Holds other transId index := by
  rw [holds_update update]
  simp

theorem getElem?_concat_eq_some {requests : List Request} :
    (requests ++ [added])[index]? = some request ↔
      requests[index]? = some request ∨ (index = requests.length ∧ request = added) := by
  rcases Nat.lt_trichotomy index requests.length with old | rfl | beyond
  · rw [List.getElem?_append_left old]
    exact ⟨.inl, fun found => found.resolve_right fun new => by omega⟩
  · rw [List.getElem?_concat_length, some.injEq, List.getElem?_eq_none (Nat.le_refl _)]
    simp only [reduceCtorEq, true_and, false_or]
    exact eq_comm
  · rw [List.getElem?_eq_none (by rw [length_append, length_singleton]; omega),
      List.getElem?_eq_none (by omega)]
    simp only [reduceCtorEq, false_or, false_iff]
    omega

namespace Consistent

section

variable (consistent : self.Consistent)
include consistent

theorem holds_unique (held : self.Holds connId transId index)
    (otherHeld : self.Holds other otherTrans index) :
    connId = other ∧ transId = otherTrans := by
  obtain ⟨request, present, rfl, rfl, -⟩ := consistent.sender held
  obtain ⟨same, samePresent, rfl, rfl, -⟩ := consistent.sender otherHeld
  obtain rfl := some.inj (present.symm.trans samePresent)
  exact ⟨rfl, rfl⟩

theorem next_fresh (few : self.requests.length + 1 < UInt32.size) :
    ¬self.Holds connId self.nextTransactionId index := by
  intro held
  obtain ⟨request, present, -, same, -⟩ := consistent.sender held
  have bound : index < self.requests.length := (List.getElem?_eq_some_iff.mp present).1
  rw [consistent.number present, consistent.next] at same
  have equal := congrArg UInt32.toNat same
  rw [UInt32.toNat_ofNat_of_lt' (by omega), UInt32.toNat_ofNat_of_lt' few] at equal
  omega

theorem sender_concat (held : self.Holds connId transId index) (added : Request) :
    ∃ request, (self.requests ++ [added])[index]? = some request ∧
      request.connId = connId ∧ request.transId = transId ∧
      (request.progress = .waiting ∨ request.progress = .hungUp) := by
  obtain ⟨request, present, rest⟩ := consistent.sender held
  exact ⟨request, getElem?_concat_eq_some.mpr (.inl present), rest⟩

theorem number_concat (numbered : added.transId = self.nextTransactionId)
    (present : (self.requests ++ [added])[index]? = some request) :
    request.transId = UInt32.ofNat (index + 1) := by
  rcases getElem?_concat_eq_some.mp present with old | ⟨rfl, rfl⟩
  · exact consistent.number old
  · rw [numbered, consistent.next]

theorem next_concat (added : Request) :
    self.nextTransactionId + 1 = UInt32.ofNat ((self.requests ++ [added]).length + 1) := by
  rw [UInt32.ofNat_add, length_append, length_singleton, consistent.next]
  rfl

theorem refuse (operation : Operation) (connId : ConnectionId) :
    Consistent { self with
      nextTransactionId := self.nextTransactionId + 1
      requests := self.requests ++ [⟨operation, connId, self.nextTransactionId, .refused⟩] } where
  sender held := consistent.sender_concat held _
  caller present waiting := by
    rcases getElem?_concat_eq_some.mp present with old | ⟨-, rfl⟩
    · exact consistent.caller old waiting
    · cases waiting
  number := consistent.number_concat rfl
  next := consistent.next_concat _

theorem await (few : self.requests.length + 1 < UInt32.size) (operation : Operation)
    (registered : self.pendingTransactions connId = some transactions) :
    Consistent
      { pendingTransactions := update self.pendingTransactions connId
          (some (update transactions self.nextTransactionId (some self.requests.length)))
        nextTransactionId := self.nextTransactionId + 1
        requests := self.requests ++ [⟨operation, connId, self.nextTransactionId, .waiting⟩] } where
  sender {other transId index} held := by
    rcases (holds_update rfl).mp held with ⟨rfl, updated, entry, held⟩ | ⟨-, held⟩
    · cases entry
      by_cases same : transId = self.nextTransactionId
      · subst same
        rw [update_self] at held
        cases held
        exact ⟨_, List.getElem?_concat_length, rfl, rfl, .inl rfl⟩
      · rw [update_of_ne same] at held
        exact consistent.sender_concat ⟨transactions, registered, held⟩ _
    · exact consistent.sender_concat held _
  caller {index request} present waiting := by
    refine (holds_update rfl).mpr ?_
    rcases getElem?_concat_eq_some.mp present with old | ⟨rfl, rfl⟩
    · have held := consistent.caller old waiting
      by_cases same : request.connId = connId
      · refine .inl ⟨same, _, rfl, ?_⟩
        have other : request.transId ≠ self.nextTransactionId := by
          intro equal
          rw [equal] at held
          exact consistent.next_fresh few held
        rw [update_of_ne other]
        obtain ⟨found, entry, held⟩ := held
        rw [same, registered] at entry
        cases entry
        exact held
      · exact .inr ⟨same, held⟩
    · exact .inl ⟨rfl, _, rfl, update_self ..⟩
  number := consistent.number_concat rfl
  next := consistent.next_concat _

theorem startNewTransaction (few : self.requests.length + 1 < UInt32.size)
    (operation : Operation) (connId : ConnectionId) :
    (self.startNewTransaction operation connId).Consistent := by
  rw [CallbackTransactionManager.startNewTransaction]
  cases registered : self.pendingTransactions connId with
  | none => exact consistent.refuse operation connId
  | some transactions =>
    have fresh : transactions self.nextTransactionId = none := by
      refine Option.eq_none_iff_forall_ne_some.mpr fun index held => ?_
      exact consistent.next_fresh few ⟨transactions, registered, held⟩
    simp only [fresh]
    exact consistent.await few operation registered

/--
Calls that change in place keep their senders: none starts to wait, a sender that stays
has a caller, and a call that still waits has its sender.
-/
theorem change (update : Nat → Request → Request)
    (requests : ∀ index, changed.requests[index]? = self.requests[index]?.map (update index))
    (key : ∀ index request, (update index request).connId = request.connId ∧
      (update index request).transId = request.transId)
    (fewer : ∀ {connId transId index}, changed.Holds connId transId index →
      self.Holds connId transId index)
    (open_ : ∀ {connId transId index request}, changed.Holds connId transId index →
      self.requests[index]? = some request →
      request.progress = .waiting ∨ request.progress = .hungUp →
      (update index request).progress = .waiting ∨ (update index request).progress = .hungUp)
    (still : ∀ {index request}, self.requests[index]? = some request →
      (update index request).progress = .waiting → request.progress = .waiting ∧
        (self.Holds request.connId request.transId index →
          changed.Holds request.connId request.transId index))
    (next : changed.nextTransactionId = self.nextTransactionId)
    (length : changed.requests.length = self.requests.length) : changed.Consistent where
  sender held := by
    obtain ⟨request, present, rfl, rfl, progress⟩ := consistent.sender (fewer held)
    refine ⟨update _ request, ?_, (key _ request).1, (key _ request).2, open_ held present progress⟩
    rw [requests, present, map_some]
  caller present waiting := by
    rw [requests] at present
    obtain ⟨request, old, rfl⟩ := map_eq_some_iff.mp present
    obtain ⟨waited, keeps⟩ := still old waiting
    rw [(key _ request).1, (key _ request).2]
    exact keeps (consistent.caller old waited)
  number present := by
    rw [requests] at present
    obtain ⟨request, old, rfl⟩ := map_eq_some_iff.mp present
    rw [(key _ request).2]
    exact consistent.number old
  next := by rw [next, length, consistent.next]

end

end Consistent

/-! ## Responses -/

inductive Responds (self : CallbackTransactionManager) (connId : ConnectionId)
    (transId : TransactionId) (value : Except AttErrorCode AttributeData) :
    Except CallbackResponseError Unit × CallbackTransactionManager → Prop where
  /-- The one call that waits is resolved. -/
  | resolves (index : Nat) (request : Request) (changed : CallbackTransactionManager)
      (present : self.requests[index]? = some request)
      (pending : request.PendingFor connId transId)
      (alone : ∀ {other found}, self.requests[other]? = some found →
        found.PendingFor connId transId → other = index)
      (requests : changed.requests = self.requests.set index (request.resolve value))
      (result : (request.resolve value).result = some (request.operation.deliver value)) :
      Responds self connId transId value (.ok (), changed)
  /-- The response is rejected and changes nothing. -/
  | rejected (error : CallbackResponseError)
      (none : ∀ request ∈ self.requests, ¬request.PendingFor connId transId) :
      Responds self connId transId value (.error error, self)
  /-- The response is rejected, and the sender without a caller is dropped. -/
  | hungUp (request : Request) (changed : CallbackTransactionManager)
      (member : request ∈ self.requests) (gone : request.progress = .hungUp)
      (none : ∀ request ∈ self.requests, ¬request.PendingFor connId transId)
      (requests : changed.requests = self.requests) :
      Responds self connId transId value (.error (.listenerHungUp transId), changed)

/-- The table after a sender was taken out of it. -/
def without (self : CallbackTransactionManager) (connId : ConnectionId)
    (transId : TransactionId) (transactions : TransactionId → Option Nat) :
    ConnectionId → Option (TransactionId → Option Nat) :=
  update self.pendingTransactions connId (some (update transactions transId none))

theorem holds_without (registered : self.pendingTransactions connId = some transactions)
    (update : changed.pendingTransactions = self.without connId transId transactions) :
    changed.Holds other otherTrans index ↔
      self.Holds other otherTrans index ∧ ¬(other = connId ∧ otherTrans = transId) := by
  rw [holds_update update]
  by_cases same : other = connId
  · subst same
    simp only [true_and, some.injEq, exists_eq_left', ne_eq, not_true_eq_false, false_and,
      or_false, Holds, registered]
    by_cases sameTrans : otherTrans = transId
    · subst sameTrans
      simp
    · simp [sameTrans]
  · simp [same]

theorem sendResponse_cases (self : CallbackTransactionManager) (connId : ConnectionId)
    (transId : TransactionId) (value : Except AttErrorCode AttributeData) :
    ((∀ index, ¬self.Holds connId transId index) ∧
      ∃ error, self.sendResponse connId transId value = (.error error, self)) ∨
    ∃ transactions index, self.pendingTransactions connId = some transactions ∧
      transactions transId = some index ∧ ((self.requests[index]?.map progress = some .waiting ∧
        self.sendResponse connId transId value = (.ok (), { self with
            pendingTransactions := self.without connId transId transactions
            requests := self.requests.modify index (resolve value) })) ∨
      (self.requests[index]?.map progress ≠ some .waiting ∧ self.sendResponse connId transId value =
          (.error (.listenerHungUp transId), { self with
            pendingTransactions := self.without connId transId transactions }))) := by
  rw [sendResponse]
  cases registered : self.pendingTransactions connId with
  | none =>
    refine .inl ⟨?_, _, rfl⟩
    rintro index ⟨transactions, entry, -⟩
    cases registered.symm.trans entry
  | some transactions =>
    dsimp only
    cases there : transactions transId with
    | none =>
      refine .inl ⟨?_, _, rfl⟩
      rintro index ⟨found, entry, held⟩
      obtain rfl := some.inj (registered.symm.trans entry)
      cases there.symm.trans held
    | some index =>
      refine .inr ⟨transactions, index, rfl, there, ?_⟩
      dsimp only
      split
      · rename_i waiting
        exact .inl ⟨waiting, rfl⟩
      · rename_i other
        exact .inr ⟨other, rfl⟩

namespace Consistent

theorem holds_of_pendingFor (consistent : self.Consistent)
    (present : self.requests[index]? = some request)
    (pending : request.PendingFor connId transId) : self.Holds connId transId index := by
  obtain ⟨rfl, rfl, waiting⟩ := pending
  exact consistent.caller present waiting

theorem not_pendingFor (consistent : self.Consistent)
    (absent : ∀ index, ¬self.Holds connId transId index) :
    ∀ request ∈ self.requests, ¬request.PendingFor connId transId := by
  intro request member pending
  obtain ⟨index, present⟩ := mem_iff_getElem?.mp member
  exact absent index (consistent.holds_of_pendingFor present pending)

theorem holds_inj {other : Nat} (held : self.Holds connId transId index)
    (otherHeld : self.Holds connId transId other) :
    other = index := by
  obtain ⟨transactions, entry, there⟩ := held
  obtain ⟨same, sameEntry, otherThere⟩ := otherHeld
  obtain rfl := some.inj (entry.symm.trans sameEntry)
  exact some.inj (otherThere.symm.trans there)

theorem responds (consistent : self.Consistent) (connId : ConnectionId)
    (transId : TransactionId) (value : Except AttErrorCode AttributeData) :
    Responds self connId transId value (self.sendResponse connId transId value) := by
  rcases self.sendResponse_cases connId transId value with
    ⟨absent, error, sent⟩ | ⟨transactions, index, registered, there, outcome⟩
  · rw [sent]
    exact .rejected error (consistent.not_pendingFor absent)
  · have held : self.Holds connId transId index := ⟨transactions, registered, there⟩
    obtain ⟨request, present, connected, numbered, progress⟩ := consistent.sender held
    have alone : ∀ {other found}, self.requests[other]? = some found →
        found.PendingFor connId transId → other = index := fun presentOther pending =>
      holds_inj held (consistent.holds_of_pendingFor presentOther pending)
    rw [present, map_some] at outcome
    rcases outcome with ⟨waiting, sent⟩ | ⟨notWaiting, sent⟩
    · rw [sent]
      refine .resolves index request _ present ⟨connected, numbered, some.inj waiting⟩ alone ?_ rfl
      rw [modify_eq_set_getElem?, present]
      rfl
    · rw [sent]
      have gone : request.progress = .hungUp :=
        progress.resolve_left fun waiting => notWaiting (congrArg some waiting)
      refine .hungUp request _ (mem_of_getElem? present) gone ?_ rfl
      intro other member pending
      obtain ⟨place, presentOther⟩ := mem_iff_getElem?.mp member
      obtain rfl := alone presentOther pending
      obtain rfl := some.inj (present.symm.trans presentOther)
      exact nomatch gone.symm.trans pending.2.2

section

variable (consistent : self.Consistent)
include consistent

theorem removeConnection_requests
    (registered : self.pendingTransactions connId = some transactions) :
    (self.requests.mapIdx fun index request =>
        if transactions request.transId = some index then request.dropSender else request) =
      self.requests.map fun request =>
        if request.connId = connId then request.dropSender else request := by
  refine ext_getElem? fun index => ?_
  rw [List.getElem?_mapIdx, List.getElem?_map]
  cases present : self.requests[index]? with
  | none => rfl
  | some request =>
    rw [map_some, map_some, some.injEq]
    by_cases held : transactions request.transId = some index
    · obtain ⟨same, presentSame, connected, -⟩ :=
        consistent.sender ⟨transactions, registered, held⟩
      obtain rfl := some.inj (present.symm.trans presentSame)
      rw [if_pos held, if_pos connected]
    · rw [if_neg held]
      by_cases connected : request.connId = connId
      · rw [if_pos connected, dropSender, stopWaiting_of_ne]
        intro waiting
        obtain ⟨found, entry, there⟩ := consistent.caller present waiting
        rw [connected] at entry
        obtain rfl := some.inj (registered.symm.trans entry)
        exact held there
      · rw [if_neg connected]

/-! ## Whole runs -/

theorem sendResponse (connId : ConnectionId) (transId : TransactionId)
    (value : Except AttErrorCode AttributeData) :
    (self.sendResponse connId transId value).2.Consistent := by
  rcases self.sendResponse_cases connId transId value with
    ⟨-, error, sent⟩ | ⟨transactions, index, registered, there, outcome⟩
  · rw [sent]
    exact consistent
  · have held : self.Holds connId transId index := ⟨transactions, registered, there⟩
    have away : ∀ {other otherTrans place}, self.Holds other otherTrans place →
        ¬(other = connId ∧ otherTrans = transId) → index ≠ place := by
      rintro other otherTrans place otherHeld different rfl
      exact different (consistent.holds_unique otherHeld held)
    have keeps : ∀ {place : Nat} {request : Request}, index ≠ place →
        self.Holds request.connId request.transId place →
        self.Holds request.connId request.transId place ∧
          ¬(request.connId = connId ∧ request.transId = transId) := by
      rintro place request different otherHeld
      refine ⟨otherHeld, fun ⟨same, sameTrans⟩ => different ?_⟩
      rw [same, sameTrans] at otherHeld
      exact (holds_inj held otherHeld).symm
    rcases outcome with ⟨-, sent⟩ | ⟨notWaiting, sent⟩
    · rw [sent]
      refine consistent.change _ (fun place => List.getElem?_modify ..) ?_ ?_ ?_ ?_ rfl
        (length_modify ..)
      · intro place request
        split <;> exact ⟨rfl, rfl⟩
      · exact fun stillHeld => ((holds_without registered rfl).mp stillHeld).1
      · intro other otherTrans place request stillHeld _ progress
        obtain ⟨otherHeld, different⟩ := (holds_without registered rfl).mp stillHeld
        rw [if_neg (away otherHeld different)]
        exact progress
      · intro place request _ waiting
        split at waiting
        · cases waiting
        · rename_i different
          exact ⟨waiting, fun otherHeld =>
            (holds_without registered rfl).mpr (keeps different otherHeld)⟩
    · rw [sent]
      refine consistent.change (fun _ => id) (fun place => Option.map_id_apply.symm)
        (fun _ _ => ⟨rfl, rfl⟩) ?_ (fun _ _ progress => progress) ?_ rfl rfl
      · exact fun stillHeld => ((holds_without registered rfl).mp stillHeld).1
      · intro place request present waiting
        refine ⟨waiting, fun otherHeld => (holds_without registered rfl).mpr (keeps ?_ otherHeld)⟩
        rintro rfl
        exact notWaiting (by rw [present]; exact congrArg some waiting)

theorem addConnection (added : self.addConnection connId = some changed) :
    changed.Consistent := by
  rw [CallbackTransactionManager.addConnection] at added
  split at added
  · cases added
  · rename_i unregistered
    cases added
    refine ⟨?_, ?_, consistent.number, consistent.next⟩
    · intro other transId index held
      rcases (holds_update rfl).mp held with ⟨-, entry, same, there⟩ | ⟨-, held⟩
      · cases same
        cases there
      · exact consistent.sender held
    · intro index request present waiting
      obtain ⟨transactions, entry, there⟩ := consistent.caller present waiting
      refine (holds_update rfl).mpr (.inr ⟨?_, transactions, entry, there⟩)
      intro same
      rw [same] at entry
      cases unregistered.symm.trans entry

theorem removeConnection (removed : self.removeConnection connId = some changed) :
    changed.Consistent := by
  rw [CallbackTransactionManager.removeConnection] at removed
  split at removed
  · cases removed
  · rename_i transactions registered
    cases removed
    refine consistent.change _ (fun place => List.getElem?_mapIdx) ?_ ?_ ?_ ?_ rfl length_mapIdx
    · intro index request
      split
      · exact ⟨stopWaiting_connId _ request, stopWaiting_transId _ request⟩
      · exact ⟨rfl, rfl⟩
    · exact fun held => ((holds_removed rfl).mp held).2
    · intro other transId index request held present progress
      obtain ⟨different, otherHeld⟩ := (holds_removed rfl).mp held
      rw [if_neg]
      · exact progress
      · intro there
        exact different (consistent.holds_unique otherHeld ⟨transactions, registered, there⟩).1
    · intro index request present waiting
      split at waiting
      · exact absurd waiting (stopWaiting_progress .failed nofun request)
      · rename_i absent
        refine ⟨waiting, fun held => (holds_removed rfl).mpr ⟨?_, held⟩⟩
        intro same
        obtain ⟨found, entry, there⟩ := held
        rw [same] at entry
        obtain rfl := some.inj (registered.symm.trans entry)
        exact absent there

theorem hangUp (index : Nat) :
    Consistent { self with requests := self.requests.modify index hangUp } := by
  refine consistent.change _ (fun place => List.getElem?_modify ..) ?_ id ?_ ?_ rfl
    (length_modify ..)
  · intro place request
    split
    · exact ⟨stopWaiting_connId _ request, stopWaiting_transId _ request⟩
    · exact ⟨rfl, rfl⟩
  · intro _ _ place request _ _ progress
    split
    · right
      rcases progress with waiting | gone
      · rw [Request.hangUp, Request.stopWaiting_of_waiting _ waiting]
      · rw [Request.hangUp, Request.stopWaiting_of_ne _ (by rw [gone]; nofun), gone]
    · exact progress
  · intro place request _ waiting
    split at waiting
    · exact absurd waiting (stopWaiting_progress .hungUp nofun request)
    · exact ⟨waiting, id⟩

end

end Consistent

variable {event : Event} {events : List Event}

theorem step_length (stepped : step self event = some changed) :
    changed.requests.length = self.requests.length + if event.isCall then 1 else 0 := by
  cases event with
  | call operation connId =>
    cases stepped
    rw [startNewTransaction]
    split
    · rw [length_append]
      congr 1
      split
      · exact length_modify ..
      · rfl
    · exact length_append
  | response connId transId value =>
    cases stepped
    rcases self.sendResponse_cases connId transId value with
      ⟨-, error, sent⟩ | ⟨transactions, index, -, -, ⟨-, sent⟩ | ⟨-, sent⟩⟩
    · rw [sent]
      rfl
    · rw [sent]
      exact length_modify ..
    · rw [sent]
      rfl
  | addConnection connId =>
    rw [step, addConnection] at stepped
    split at stepped
    · cases stepped
    · cases stepped
      rfl
  | removeConnection connId =>
    rw [step, removeConnection] at stepped
    split at stepped
    · cases stepped
    · cases stepped
      exact length_mapIdx
  | hangUp index =>
    cases stepped
    exact length_modify ..

theorem run_length (reached : run step self events = some last) :
    last.requests.length = self.requests.length + events.countP Event.isCall := by
  induction events generalizing self with
  | nil =>
    cases reached
    rfl
  | cons event rest ih =>
    rw [run_cons] at reached
    obtain ⟨next, stepped, reached⟩ := bind_eq_some_iff.mp reached
    rw [ih reached, step_length stepped, countP_cons]
    omega

/-- One event keeps senders and callers together, while the numbers do not wrap. -/
theorem step_consistent (consistent : self.Consistent)
    (stepped : step self event = some changed) (few : changed.requests.length < UInt32.size) :
    changed.Consistent := by
  cases event with
  | call operation connId =>
    rw [step_length stepped] at few
    cases stepped
    exact consistent.startNewTransaction few operation connId
  | response connId transId value =>
    cases stepped
    exact consistent.sendResponse connId transId value
  | addConnection connId => exact consistent.addConnection stepped
  | removeConnection connId => exact consistent.removeConnection stepped
  | hangUp index =>
    cases stepped
    exact consistent.hangUp index

theorem run_consistent (reached : run step new events = some last)
    (few : last.requests.length < UInt32.size) :
    last.Consistent := by
  have preserved : ∀ (self : CallbackTransactionManager) (event : Event)
      (changed : CallbackTransactionManager),
      (self.requests.length < UInt32.size → self.Consistent) →
      step self event = some changed →
      changed.requests.length < UInt32.size → changed.Consistent := by
    intro self event changed kept stepped fewAfter
    refine step_consistent (kept ?_) stepped fewAfter
    rw [step_length stepped] at fewAfter
    omega
  exact invariant_run preserved (fun _ => consistent_new) reached few

def Attended (self : CallbackTransactionManager) : Prop :=
  ∀ (index : Nat) (request : Request), self.requests[index]? = some request →
    request.progress ≠ .hungUp

theorem attended_change (attended : self.Attended) (update : Nat → Request → Request)
    (requests : ∀ index, changed.requests[index]? = self.requests[index]?.map (update index))
    (stays : ∀ index request, request.progress ≠ .hungUp →
      (update index request).progress ≠ .hungUp) : changed.Attended := by
  intro index request present
  rw [requests] at present
  obtain ⟨old, presentOld, rfl⟩ := map_eq_some_iff.mp present
  exact stays index old (attended index old presentOld)

theorem step_attended (attended : self.Attended) (other : ∀ index, event ≠ .hangUp index)
    (stepped : step self event = some changed) :
    changed.Attended := by
  have dropped : ∀ request : Request, request.progress ≠ .hungUp →
      request.dropSender.progress ≠ .hungUp := fun request present =>
    stopWaiting_ne (nofun : Progress.failed ≠ .hungUp) request present
  cases event with
  | call operation connId =>
    cases stepped
    rw [startNewTransaction]
    split
    all_goals
      intro index request present
      rcases getElem?_concat_eq_some.mp present with old | ⟨-, rfl⟩
    · split at old
      · rw [List.getElem?_modify] at old
        obtain ⟨original, presentOriginal, rfl⟩ := map_eq_some_iff.mp old
        split
        · exact dropped original (attended index original presentOriginal)
        · exact attended index original presentOriginal
      · exact attended index request old
    · nofun
    · exact attended index request old
    · nofun
  | response connId transId value =>
    cases stepped
    rcases self.sendResponse_cases connId transId value with
      ⟨-, error, sent⟩ | ⟨transactions, index, -, -, ⟨-, sent⟩ | ⟨-, sent⟩⟩
    · rw [sent]
      exact attended
    · rw [sent]
      refine attended_change attended _ (fun place => List.getElem?_modify ..) ?_
      intro place request present
      split
      · nofun
      · exact present
    · rw [sent]
      exact attended
  | addConnection connId =>
    rw [step, addConnection] at stepped
    split at stepped
    · cases stepped
    · cases stepped
      exact attended
  | removeConnection connId =>
    rw [step, removeConnection] at stepped
    split at stepped
    · cases stepped
    · cases stepped
      refine attended_change attended _ (fun place => List.getElem?_mapIdx) ?_
      intro place request present
      split
      · exact dropped request present
      · exact present
  | hangUp index => exact absurd rfl (other index)

theorem run_attended (reached : run step new events = some last)
    (attended : ∀ index, Event.hangUp index ∉ events) : last.Attended := by
  have guarded : Along step (fun _ event => ∀ index, event ≠ .hangUp index) new events := by
    refine along_of_mem ?_ new
    rintro event member - index rfl
    exact attended index member
  have initial : new.Attended := by
    intro index request present
    cases present
  exact invariant_along (fun _ _ _ kept other stepped => step_attended kept other stepped)
    initial guarded reached

/--
After any events, every call is on record; a response resolves the one call that waits for it
under its connection and transaction, or is rejected; the removal of a connection fails the
calls that wait on it, and no others; and no call is without its caller unless a caller has
hung up.
-/
theorem responses_resolve (events : List Event)
    (few : events.countP Event.isCall < UInt32.size) (self : CallbackTransactionManager)
    (reached : run step new events = some self) :
    self.requests.length = events.countP Event.isCall ∧
    (∀ connId transId value,
      Responds self connId transId value (self.sendResponse connId transId value)) ∧
    (∀ connId changed, self.removeConnection connId = some changed →
      changed.requests = self.requests.map fun request =>
        if request.connId = connId then request.dropSender else request) ∧
    (∀ request ∈ self.requests, request.progress = .waiting →
      request.dropSender.result = some (.error .unlikelyError)) ∧
    ((∀ index, .hangUp index ∉ events) →
      ∀ request ∈ self.requests, request.progress ≠ .hungUp) := by
  have recorded : self.requests.length = events.countP Event.isCall :=
    (run_length reached).trans (Nat.zero_add _)
  have consistent := run_consistent reached (recorded ▸ few)
  refine ⟨recorded, consistent.responds, ?_, ?_, ?_⟩
  · intro connId changed removed
    rw [removeConnection] at removed
    split at removed
    · cases removed
    · rename_i transactions registered
      cases removed
      exact consistent.removeConnection_requests registered
  · intro request _ waiting
    rw [dropSender, stopWaiting_of_waiting _ waiting]
    rfl
  · intro attended request member
    obtain ⟨index, present⟩ := mem_iff_getElem?.mp member
    exact run_attended reached attended index request present

def twoReads : List Event :=
  [.addConnection 0x0102, .call (.read 3) 0x0102, .call (.read 5) 0x0102]

/-- The response under the second transaction resolves the second read. -/
theorem responses_resolve_twoReads :
    ∃ self changed, run step new twoReads = some self ∧ self.requests.length = 2 ∧
      Responds self 0x0102 2 (.ok (.raw [7])) (.ok (), changed) ∧
      changed.requests.map progress = [.waiting, .resolved (.ok (.raw [7]))] := by
  obtain ⟨recorded, responds, -⟩ := responses_resolve twoReads (by decide) _ rfl
  exact ⟨_, _, rfl, recorded, responds 0x0102 2 (.ok (.raw [7])), rfl⟩

end CallbackTransactionManager

end BluetoothFormal.Gatt
