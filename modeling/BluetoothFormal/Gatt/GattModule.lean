import BluetoothFormal.Gatt.CallbackTransactionManager

/-!
# Isolated connections

The arbiter decides on the main thread which connections belong to a server of the Rust
stack, and posts what happens to them to the Rust thread, where the GATT module and the
transaction manager keep the connections of the servers that are open.  The assertions of
the manager hold as long as the arbiter takes over a connection only when the module will
take it as well.
-/

namespace BluetoothFormal.Gatt

open Foundation.Transition Option Function CallbackTransactionManager List

abbrev TransportIndex := UInt8
abbrev ServerId := UInt8
abbrev AdvertiserId := UInt8

/-! ## Connection ids -/

namespace ConnectionId

section

variable (tcbIdx : TransportIndex)

section

variable (serverId : ServerId)

def new : ConnectionId :=
  (tcbIdx.toUInt16 <<< 8) + serverId.toUInt16

def getTcbIdx (connId : ConnectionId) : TransportIndex := (connId >>> 8).toUInt8

def getServerId (connId : ConnectionId) : ServerId := (connId &&& 0xFF).toUInt8

theorem toNat_new : (new tcbIdx serverId).toNat = tcbIdx.toNat * 256 + serverId.toNat := by
  have transport := tcbIdx.toNat_lt
  have server := serverId.toNat_lt
  simp only [new, UInt16.toNat_add, UInt16.toNat_shiftLeft, UInt8.toNat_toUInt16,
    UInt16.reduceToNat, Nat.reduceMod, Nat.shiftLeft_eq, Nat.reducePow]
  omega

@[simp] theorem getTcbIdx_new : getTcbIdx (new tcbIdx serverId) = tcbIdx := by
  apply UInt8.toNat_inj.mp
  have transport := tcbIdx.toNat_lt
  have server := serverId.toNat_lt
  simp only [getTcbIdx, UInt16.toNat_toUInt8, UInt16.toNat_shiftRight, toNat_new,
    UInt16.reduceToNat, Nat.reduceMod, Nat.shiftRight_eq_div_pow, Nat.reducePow]
  omega

@[simp] theorem getServerId_new : getServerId (new tcbIdx serverId) = serverId := by
  apply UInt8.toNat_inj.mp
  have server := serverId.toNat_lt
  have mask : (tcbIdx.toNat * 256 + serverId.toNat) &&& 255 =
      (tcbIdx.toNat * 256 + serverId.toNat) % 256 := Nat.and_two_pow_sub_one_eq_mod _ 8
  simp only [getServerId, UInt16.toNat_toUInt8, UInt16.toNat_and, toNat_new, UInt16.reduceToNat,
    mask, Nat.reducePow]
  omega

end

end

theorem new_parts (connId : ConnectionId) :
    new (getTcbIdx connId) (getServerId connId) = connId := by
  apply UInt16.toNat_inj.mp
  have bound := connId.toNat_lt
  have mask : connId.toNat &&& 255 = connId.toNat % 256 := Nat.and_two_pow_sub_one_eq_mod _ 8
  simp only [toNat_new, getTcbIdx, getServerId, UInt16.toNat_toUInt8, UInt16.toNat_shiftRight,
    UInt16.toNat_and, UInt16.reduceToNat, Nat.reduceMod, Nat.shiftRight_eq_div_pow, Nat.reducePow,
    mask]
  omega

end ConnectionId

open ConnectionId

/-! ## The arbiter -/

structure Arbiter where
  advertiserToServer : AdvertiserId → Option ServerId
  transportToOwnedConnection : TransportIndex → Option ConnectionId

namespace Arbiter

def new : Arbiter := ⟨fun _ => none, fun _ => none⟩

section

variable (arbiter : Arbiter)

def associateServerWithAdvertiser (serverId : ServerId) (advertiserId : AdvertiserId) : Arbiter :=
  { arbiter with
    advertiserToServer := update arbiter.advertiserToServer advertiserId (some serverId) }

def clearServer (serverId : ServerId) : Arbiter :=
  { arbiter with
    advertiserToServer := fun advertiserId =>
      (arbiter.advertiserToServer advertiserId).filter (· ≠ serverId) }

def clearAdvertiser (advertiserId : AdvertiserId) : Arbiter :=
  { arbiter with
    advertiserToServer := update arbiter.advertiserToServer advertiserId none }

def onLeConnect (tcbIdx : TransportIndex) (advertiser : AdvertiserId) :
    Option ConnectionId × Arbiter :=
  match arbiter.advertiserToServer advertiser with
  | none => (none, arbiter)
  | some serverId =>
    let connId := ConnectionId.new tcbIdx serverId
    (some connId, { arbiter with
      transportToOwnedConnection :=
        update arbiter.transportToOwnedConnection tcbIdx (some connId) })

def onLeDisconnect (tcbIdx : TransportIndex) : Option ConnectionId × Arbiter :=
  (arbiter.transportToOwnedConnection tcbIdx, { arbiter with
    transportToOwnedConnection :=
      update arbiter.transportToOwnedConnection tcbIdx none })

end

end Arbiter

/-! ## The module -/

/-- `GattModule`: the connections with a bearer, the servers that are open, the datastore. -/
structure GattModule where
  connectionBearers : ConnectionId → Bool
  databases : ServerId → Bool
  datastore : CallbackTransactionManager

namespace GattModule

def new : GattModule := ⟨fun _ => false, fun _ => false, .new⟩

section

variable (gatt : GattModule)

/-- `on_le_connect`; a connection to a server that does not exist is only logged. -/
def onLeConnect (connId : ConnectionId) : Option GattModule :=
  if gatt.databases connId.getServerId then
    (gatt.datastore.addConnection connId).map fun datastore =>
      { gatt with
        connectionBearers := update gatt.connectionBearers connId true
        datastore := datastore }
  else some gatt

def onLeDisconnect (connId : ConnectionId) : Option GattModule :=
  (gatt.datastore.removeConnection connId).map fun datastore =>
    { gatt with
      connectionBearers := update gatt.connectionBearers connId false
      datastore := datastore }

def openGattServer (serverId : ServerId) : GattModule :=
  { gatt with databases := update gatt.databases serverId true }

def closeGattServer (serverId : ServerId) : GattModule :=
  { gatt with databases := update gatt.databases serverId false }

end

end GattModule

open GattModule

/-- What is posted to the Rust thread. -/
inductive Task where
  | openServer (serverId : ServerId)
  | closeServer (serverId : ServerId)
  | leConnect (connId : ConnectionId)
  | leDisconnect (connId : ConnectionId)

/-- A task of the Rust thread; `none` is a failed assertion. -/
def GattModule.perform : PartialStep GattModule Task
  | gatt, .openServer serverId => some (gatt.openGattServer serverId)
  | gatt, .closeServer serverId => some (gatt.closeGattServer serverId)
  | gatt, .leConnect connId => gatt.onLeConnect connId
  | gatt, .leDisconnect connId => gatt.onLeDisconnect connId

/-! ## Both threads -/

/-- The arbiter, what waits for the Rust thread, and the module. -/
structure Isolation where
  arbiter : Arbiter
  tasks : List Task
  gatt : GattModule

variable {connId : ConnectionId} {gatt : GattModule} {self : Isolation}
  {tcbIdx : TransportIndex} {serverId : ServerId}

variable {next settled : GattModule} {task : Task} {event : Event} {displaced : ServerId}

namespace Isolation

def new : Isolation := ⟨.new, [], .new⟩

def doInRustThread (self : Isolation) (task : Task) : Isolation :=
  { self with tasks := self.tasks ++ [task] }

/-- What happens on the main thread, and the next task of the Rust thread. -/
inductive Event where
  | openServer (serverId : ServerId)
  | closeServer (serverId : ServerId)
  | associate (serverId : ServerId) (advertiserId : AdvertiserId)
  | clearAdvertiser (advertiserId : AdvertiserId)
  | leConnect (tcbIdx : TransportIndex) (advertiser : AdvertiserId)
  | leDisconnect (tcbIdx : TransportIndex)
  | deliver

/--
One event; `none` is a failed assertion.  With `always_use_private_gatt_for_debugging`, an
open server takes all connections of the first advertiser, also after it is closed.
-/
def step (alwaysPrivate : Bool) : PartialStep Isolation Event
  | self, .openServer serverId =>
    let self := if alwaysPrivate then
        { self with
          arbiter := self.arbiter.associateServerWithAdvertiser serverId 0 }
      else self
    some (self.doInRustThread (.openServer serverId))
  | self, .closeServer serverId =>
    let self := if alwaysPrivate then self
      else { self with arbiter := self.arbiter.clearServer serverId }
    some (self.doInRustThread (.closeServer serverId))
  | self, .associate serverId advertiserId =>
    some { self with
      arbiter := self.arbiter.associateServerWithAdvertiser serverId advertiserId }
  | self, .clearAdvertiser advertiserId =>
    some { self with arbiter := self.arbiter.clearAdvertiser advertiserId }
  | self, .leConnect tcbIdx advertiser =>
    match self.arbiter.onLeConnect tcbIdx advertiser with
    | (some connId, arbiter) =>
      some (doInRustThread { self with arbiter := arbiter } (.leConnect connId))
    | (none, arbiter) => some { self with arbiter := arbiter }
  | self, .leDisconnect tcbIdx =>
    match self.arbiter.onLeDisconnect tcbIdx with
    | (some connId, arbiter) =>
      some (doInRustThread { self with arbiter := arbiter } (.leDisconnect connId))
    | (none, arbiter) => some { self with arbiter := arbiter }
  | self, .deliver =>
    match self.tasks with
    | [] => some self
    | task :: rest =>
      (self.gatt.perform task).map fun gatt =>
        { self with tasks := rest, gatt := gatt }

/-! ## When connections are taken over -/

def openAfterTask (serverId : ServerId) (isOpen : Bool) : Task → Bool
  | .openServer other => if other = serverId then true else isOpen
  | .closeServer other => if other = serverId then false else isOpen
  | _ => isOpen

/-- A server is open once the Rust thread has done what waits for it. -/
def openAfter (self : Isolation) (serverId : ServerId) : Bool :=
  self.tasks.foldl (openAfterTask serverId) (self.gatt.databases serverId)

/--
A connection for an isolated advertiser comes on a transport without an isolated
connection if the server is open, and on that of the same connection if it is not.
-/
def Sound (self : Isolation) : Event → Prop
  | .leConnect tcbIdx advertiser =>
    ∀ serverId ∈ self.arbiter.advertiserToServer advertiser,
      self.arbiter.transportToOwnedConnection tcbIdx =
        if self.openAfter serverId then none else some (.new tcbIdx serverId)
  | _ => True

instance (self : Isolation) (event : Event) : Decidable (self.Sound event) := by
  induction event using Event.casesOn with
  | leConnect => exact Option.decidableForallMem _
  | _ => exact isTrue trivial

/-! ## The connections of the three tables -/

def Owns (owned : TransportIndex → Option ConnectionId) (connId : ConnectionId) : Prop :=
  owned connId.getTcbIdx = some connId

/-- Module and manager have the connections of the arbiter. -/
structure Agrees (owned : TransportIndex → Option ConnectionId) (gatt : GattModule) : Prop where
  bearers : ∀ connId, gatt.connectionBearers connId = true ↔ Owns owned connId
  registered : ∀ connId,
    (gatt.datastore.pendingTransactions connId).isSome = true ↔ Owns owned connId
  transports : ∀ {tcbIdx connId}, owned tcbIdx = some connId → getTcbIdx connId = tcbIdx

section

variable {owned : TransportIndex → Option ConnectionId} {tcbIdx : TransportIndex}
  {connId other : ConnectionId} (transport : connId.getTcbIdx = tcbIdx)
include transport

theorem owns_connect (free : owned tcbIdx = none) :
    Owns (update owned tcbIdx (some connId)) other ↔ other = connId ∨ Owns owned other := by
  rw [Owns, Owns]
  by_cases same : other.getTcbIdx = tcbIdx
  · rw [same, update_self, free, some.injEq]
    exact ⟨fun equal => .inl equal.symm, fun found => (found.resolve_right nofun).symm⟩
  · rw [update_of_ne same]
    refine ⟨.inr, fun found => found.resolve_left ?_⟩
    rintro rfl
    exact same transport

theorem owns_disconnect (taken : owned tcbIdx = some connId) :
    Owns (update owned tcbIdx none) other ↔ other ≠ connId ∧ Owns owned other := by
  rw [Owns, Owns]
  by_cases same : other.getTcbIdx = tcbIdx
  · rw [same, update_self, taken, some.injEq]
    exact ⟨nofun, fun ⟨different, equal⟩ => absurd equal.symm different⟩
  · rw [update_of_ne same]
    refine ⟨fun found => ⟨?_, found⟩, fun found => found.2⟩
    rintro rfl
    exact same transport

end

namespace Agrees

variable {owned : TransportIndex → Option ConnectionId}

section

variable (agrees : Agrees owned gatt)
include agrees

theorem unregistered (unowned : ¬Owns owned connId) :
    gatt.datastore.pendingTransactions connId = none := by
  cases entry : gatt.datastore.pendingTransactions connId with
  | none => rfl
  | some transactions =>
    exact absurd ((agrees.registered connId).mp (by rw [entry]; rfl)) unowned

theorem of_registered (owns : Owns owned connId) :
    ∃ transactions, gatt.datastore.pendingTransactions connId = some transactions :=
  isSome_iff_exists.mp ((agrees.registered connId).mpr owns)

theorem connect (isOpen : gatt.databases serverId = true) (free : owned tcbIdx = none) :
    ∃ next, gatt.onLeConnect (.new tcbIdx serverId) = some next ∧
      Agrees (update owned tcbIdx (some (.new tcbIdx serverId))) next := by
  have owns := fun other => @owns_connect owned tcbIdx (.new tcbIdx serverId) other
    (getTcbIdx_new tcbIdx serverId) free
  have unowned : ¬Owns owned (.new tcbIdx serverId) := by
    rw [Owns, getTcbIdx_new, free]
    nofun
  rw [onLeConnect, getServerId_new, if_pos isOpen, addConnection, agrees.unregistered unowned]
  refine ⟨_, rfl, ?_, ?_, ?_⟩
  · intro other
    rw [owns, ← agrees.bearers]
    by_cases same : other = .new tcbIdx serverId
    · subst same
      simp
    · simp [same]
  · intro other
    rw [owns, ← agrees.registered]
    by_cases same : other = .new tcbIdx serverId
    · subst same
      simp
    · simp [same]
  · intro other connId found
    by_cases same : other = tcbIdx
    · subst same
      rw [update_self] at found
      cases found
      exact getTcbIdx_new ..
    · rw [update_of_ne same] at found
      exact agrees.transports found

theorem disconnect (taken : owned tcbIdx = some connId) :
    ∃ next, gatt.onLeDisconnect connId = some next ∧ Agrees (update owned tcbIdx none) next := by
  have transport := agrees.transports taken
  have owns := fun other => @owns_disconnect owned tcbIdx connId other transport taken
  obtain ⟨transactions, entry⟩ := agrees.of_registered (by rw [Owns, transport, taken])
  rw [onLeDisconnect, removeConnection, entry]
  refine ⟨_, rfl, ?_, ?_, ?_⟩
  · intro other
    rw [owns, ← agrees.bearers]
    by_cases same : other = connId
    · subst same
      simp
    · simp [same]
  · intro other
    rw [owns, ← agrees.registered]
    by_cases same : other = connId
    · subst same
      simp
    · simp [same]
  · intro other found owned
    by_cases same : other = tcbIdx
    · subst same
      rw [update_self] at owned
      cases owned
    · rw [update_of_ne same] at owned
      exact agrees.transports owned

end

end Agrees

/-! ## Whole runs -/

/-- The tasks run without a failed assertion, up to a module that agrees with the arbiter. -/
structure Settles (isolation : Isolation) (settled : GattModule) : Prop where
  runs : run perform isolation.gatt isolation.tasks = some settled
  agrees : Agrees isolation.arbiter.transportToOwnedConnection settled

theorem settles_new : new.Settles .new where
  runs := rfl
  agrees := ⟨fun _ => ⟨nofun, nofun⟩, fun _ => ⟨nofun, nofun⟩, fun owned => nomatch owned⟩

theorem update_databases (other serverId : ServerId) (isOpen : Bool) :
    update gatt.databases other isOpen serverId =
      if other = serverId then isOpen else gatt.databases serverId := by
  rw [update_apply, if_congr eq_comm rfl rfl]

theorem perform_databases (performed : gatt.perform task = some next) (serverId : ServerId) :
    next.databases serverId = openAfterTask serverId (gatt.databases serverId) task := by
  cases task with
  | openServer | closeServer =>
    cases performed
    exact update_databases _ _ _
  | leConnect connId =>
    rw [perform, onLeConnect] at performed
    split at performed
    · obtain ⟨datastore, -, rfl⟩ := map_eq_some_iff.mp performed
      rfl
    · cases performed
      rfl
  | leDisconnect connId =>
    obtain ⟨-, -, rfl⟩ := map_eq_some_iff.mp performed
    rfl

theorem run_databases {tasks : List Task} (runs : run perform gatt tasks = some settled)
    (serverId : ServerId) :
    settled.databases serverId =
      tasks.foldl (openAfterTask serverId) (gatt.databases serverId) := by
  induction tasks generalizing gatt with
  | nil =>
    cases runs
    rfl
  | cons task rest ih =>
    rw [run_cons] at runs
    obtain ⟨next, performed, runs⟩ := bind_eq_some_iff.mp runs
    rw [foldl_cons, ← perform_databases performed]
    exact ih runs

namespace Settles

variable {settled : GattModule}

theorem openAfter_eq (settles : self.Settles settled) (serverId : ServerId) :
    self.openAfter serverId = settled.databases serverId :=
  (run_databases settles.runs serverId).symm

theorem post (settles : self.Settles settled) {arbiter : Arbiter}
    (performed : settled.perform task = some next)
    (agrees : Agrees arbiter.transportToOwnedConnection next) :
    Settles (doInRustThread { self with arbiter := arbiter } task) next where
  runs := by
    rw [doInRustThread, run_append, settles.runs, bind_some, run_singleton, performed]
  agrees := agrees

end Settles

section

variable (alwaysPrivate : Bool)

/-- A sound event trips no assertion, neither now nor when everything is delivered. -/
theorem step_settles (settles : self.Settles settled) (sound : self.Sound event) :
    ∃ next nextSettled, step alwaysPrivate self event = some next ∧ next.Settles nextSettled := by
  cases event with
  | openServer serverId =>
    refine ⟨_, settled.openGattServer serverId, rfl, ?_⟩
    cases alwaysPrivate <;>
      exact settles.post rfl ⟨settles.agrees.1, settles.agrees.2, settles.agrees.3⟩
  | closeServer serverId =>
    refine ⟨_, settled.closeGattServer serverId, rfl, ?_⟩
    cases alwaysPrivate <;>
      exact settles.post rfl ⟨settles.agrees.1, settles.agrees.2, settles.agrees.3⟩
  | associate | clearAdvertiser => exact ⟨_, settled, rfl, settles.runs, settles.agrees⟩
  | leConnect tcbIdx advertiser =>
    rw [step, Arbiter.onLeConnect]
    cases server : self.arbiter.advertiserToServer advertiser with
    | none => exact ⟨_, settled, rfl, settles⟩
    | some serverId =>
      have owned := sound serverId server
      rw [settles.openAfter_eq] at owned
      cases isOpen : settled.databases serverId with
      | true =>
        rw [isOpen, if_pos rfl] at owned
        obtain ⟨next, connected, agrees⟩ := settles.agrees.connect isOpen owned
        exact ⟨_, next, rfl, settles.post connected agrees⟩
      | false =>
        rw [isOpen, if_neg Bool.false_ne_true] at owned
        refine ⟨_, settled, rfl, settles.post ?_ ?_⟩
        · rw [perform, onLeConnect, getServerId_new, isOpen, if_neg Bool.false_ne_true]
        · rw [← owned, update_eq_self]
          exact settles.agrees
  | leDisconnect tcbIdx =>
    rw [step, Arbiter.onLeDisconnect]
    cases owned : self.arbiter.transportToOwnedConnection tcbIdx with
    | none =>
      refine ⟨_, settled, rfl, settles.runs, ?_⟩
      rw [← owned, update_eq_self]
      exact settles.agrees
    | some connId =>
      obtain ⟨next, disconnected, agrees⟩ := settles.agrees.disconnect owned
      exact ⟨_, next, rfl, settles.post disconnected agrees⟩
  | deliver =>
    obtain ⟨runs, agrees⟩ := settles
    rw [step]
    cases tasks : self.tasks with
    | nil =>
      rw [tasks] at runs
      exact ⟨_, settled, rfl, by rw [tasks]; exact runs, agrees⟩
    | cons task rest =>
      rw [tasks, run_cons] at runs
      obtain ⟨gatt, performed, runs⟩ := bind_eq_some_iff.mp runs
      dsimp only
      rw [performed]
      exact ⟨_, settled, rfl, runs, agrees⟩

/-! ## What follows an unsound connection -/

/-- The arbiter takes over a connection. -/
def connect (self : Isolation) (tcbIdx : TransportIndex) (serverId : ServerId) : Isolation :=
  doInRustThread { self with
    arbiter := { self.arbiter with
      transportToOwnedConnection :=
        update self.arbiter.transportToOwnedConnection tcbIdx
          (some (.new tcbIdx serverId)) } } (.leConnect (.new tcbIdx serverId))

def disconnect (self : Isolation) (tcbIdx : TransportIndex) (connId : ConnectionId) :
    Isolation :=
  doInRustThread { self with
    arbiter := { self.arbiter with
      transportToOwnedConnection :=
        update self.arbiter.transportToOwnedConnection tcbIdx none } }
    (.leDisconnect connId)

theorem step_leConnect (tcbIdx : TransportIndex) {advertiser : AdvertiserId}
    (server : self.arbiter.advertiserToServer advertiser = some serverId) :
    step alwaysPrivate self (.leConnect tcbIdx advertiser) =
      some (self.connect tcbIdx serverId) := by
  rw [step, Arbiter.onLeConnect, server]
  rfl

theorem step_leDisconnect (owned : self.arbiter.transportToOwnedConnection tcbIdx = some connId) :
    step alwaysPrivate self (.leDisconnect tcbIdx) = some (self.disconnect tcbIdx connId) := by
  rw [step, Arbiter.onLeDisconnect, owned]
  rfl

theorem step_openServer (self : Isolation) (serverId : ServerId) :
    ∃ next, step alwaysPrivate self (.openServer serverId) = some next ∧
      next.arbiter.transportToOwnedConnection = self.arbiter.transportToOwnedConnection ∧
      next.tasks = self.tasks ++ [.openServer serverId] ∧ next.gatt = self.gatt := by
  refine ⟨_, rfl, ?_⟩
  cases alwaysPrivate <;> exact ⟨rfl, rfl, rfl⟩

theorem openAfter_opened {self : Isolation} {before : List Task} {serverId : ServerId}
    (opened : self.tasks = before ++ [.openServer serverId]) :
    self.openAfter serverId = true := by
  rw [openAfter, opened, foldl_append, foldl_cons, openAfterTask, if_pos rfl, foldl_nil]

theorem run_deliver (self : Isolation) :
    run (step alwaysPrivate) self (replicate self.tasks.length .deliver) =
      (run perform self.gatt self.tasks).map fun gatt =>
        { self with tasks := [], gatt := gatt } := by
  obtain ⟨-, tasks, gatt⟩ := self
  induction tasks generalizing gatt with
  | nil => rfl
  | cons task rest ih =>
    rw [length_cons, replicate_succ, run_cons, run_cons, step]
    dsimp only
    cases performed : gatt.perform task with
    | none => rfl
    | some next => exact ih next

theorem onLeConnect_eq_none (isOpen : gatt.databases serverId = true)
    (registered : (gatt.datastore.pendingTransactions (.new tcbIdx serverId)).isSome = true) :
    gatt.onLeConnect (.new tcbIdx serverId) = none := by
  obtain ⟨transactions, entry⟩ := isSome_iff_exists.mp registered
  rw [onLeConnect, getServerId_new, if_pos isOpen, addConnection, entry]
  rfl

theorem onLeDisconnect_eq_none (unregistered : gatt.datastore.pendingTransactions connId = none) :
    gatt.onLeDisconnect connId = none := by
  rw [onLeDisconnect, removeConnection, unregistered]
  rfl

theorem perform_registered (performed : gatt.perform task = some next)
    (other : task ≠ .leDisconnect connId)
    (registered : (gatt.datastore.pendingTransactions connId).isSome = true) :
    (next.datastore.pendingTransactions connId).isSome = true := by
  cases task with
  | openServer | closeServer =>
    cases performed
    exact registered
  | leConnect connected =>
    rw [perform, onLeConnect] at performed
    split at performed
    · obtain ⟨datastore, added, rfl⟩ := map_eq_some_iff.mp performed
      rw [addConnection] at added
      split at added
      · cases added
      · cases added
        by_cases same : connId = connected
        · subst same
          simp
        · simp only [update_of_ne same, registered]
    · cases performed
      exact registered
  | leDisconnect disconnected =>
    have different : connId ≠ disconnected := by
      rintro rfl
      exact other rfl
    obtain ⟨datastore, removed, rfl⟩ := map_eq_some_iff.mp performed
    rw [removeConnection] at removed
    split at removed
    · cases removed
    · cases removed
      simp only [update_of_ne different, registered]

theorem run_displaced (different : displaced ≠ serverId)
    (registered : (gatt.datastore.pendingTransactions (.new tcbIdx displaced)).isSome = true) :
    run perform gatt [.leConnect (.new tcbIdx serverId), .leDisconnect (.new tcbIdx serverId),
        .openServer displaced, .leConnect (.new tcbIdx displaced)] = none := by
  have others : Task.leDisconnect (.new tcbIdx serverId) ≠
      .leDisconnect (.new tcbIdx displaced) := by
    intro same
    have servers := congrArg getServerId (Task.leDisconnect.inj same)
    rw [getServerId_new, getServerId_new] at servers
    exact different servers.symm
  rw [run_cons]
  cases connected : gatt.perform (.leConnect (.new tcbIdx serverId)) with
  | none => rfl
  | some first =>
    have stays := perform_registered connected nofun registered
    rw [bind_some, run_cons]
    cases disconnected : first.perform (.leDisconnect (.new tcbIdx serverId)) with
    | none => rfl
    | some second =>
      have stays := perform_registered disconnected others stays
      rw [bind_some, run_cons, perform, bind_some, run_singleton, perform]
      refine onLeConnect_eq_none ?_ stays
      exact update_self ..

/-- Sound events can follow up to a failed assertion. -/
def Fails (self : Isolation) : Prop :=
  ∃ later, Along (step alwaysPrivate) Sound self later ∧ run (step alwaysPrivate) self later = none

theorem fails_of_run (fails : run perform self.gatt self.tasks = none) :
    Fails alwaysPrivate self := by
  refine ⟨replicate self.tasks.length .deliver, along_of_mem ?_ self, ?_⟩
  · intro event member state
    rw [eq_of_mem_replicate member]
    trivial
  · rw [run_deliver, fails]
    rfl

end

theorem fails_of_step {alwaysPrivate : Bool} {next : Isolation} (event : Event)
    (sound : self.Sound event) (stepped : step alwaysPrivate self event = some next)
    (fails : Fails alwaysPrivate next) : Fails alwaysPrivate self := by
  obtain ⟨later, guarded, fails⟩ := fails
  refine ⟨event :: later, ⟨sound, ?_⟩, ?_⟩
  · rw [stepped]
    exact guarded
  · rw [run_cons, stepped]
    exact fails

section

variable {settled : GattModule}

section

variable (alwaysPrivate : Bool)

theorem fails_of_reopen (free : self.arbiter.transportToOwnedConnection tcbIdx = none)
    (fails : run perform self.gatt (self.tasks ++
      [.openServer serverId, .leConnect (.new tcbIdx serverId)]) = none) :
    Fails alwaysPrivate self := by
  obtain ⟨opened, stepped, owned, tasks, gatt⟩ :=
    step_openServer alwaysPrivate self serverId
  have associated : (opened.arbiter.associateServerWithAdvertiser serverId 0).advertiserToServer 0
      = some serverId := by
    rw [Arbiter.associateServerWithAdvertiser]
    dsimp only
    rw [update_self]
  refine fails_of_step (.openServer serverId) trivial stepped ?_
  refine fails_of_step (.associate serverId 0) trivial rfl ?_
  refine fails_of_step (.leConnect tcbIdx 0) ?_ (step_leConnect alwaysPrivate tcbIdx associated)
    (fails_of_run alwaysPrivate ?_)
  · intro server found
    cases associated.symm.trans found
    rw [@openAfter_opened { opened with
      arbiter := opened.arbiter.associateServerWithAdvertiser serverId 0 } _ serverId tasks,
      if_pos rfl]
    exact (congrFun owned tcbIdx).trans free
  · rw [connect, doInRustThread]
    rw [tasks, gatt, append_assoc]
    exact fails

theorem connect_again_fails (settles : self.Settles settled)
    (isOpen : settled.databases serverId = true)
    (taken : self.arbiter.transportToOwnedConnection tcbIdx = some (.new tcbIdx serverId)) :
    Fails alwaysPrivate (self.connect tcbIdx serverId) := by
  have registered := (settles.agrees.registered (.new tcbIdx serverId)).mpr (by
    rw [Owns, getTcbIdx_new, taken])
  refine fails_of_run alwaysPrivate ?_
  rw [connect, doInRustThread, run_append, settles.runs, bind_some, run_singleton]
  exact onLeConnect_eq_none isOpen registered

theorem connect_closed_fails (settles : self.Settles settled)
    (closed : settled.databases serverId = false)
    (other : self.arbiter.transportToOwnedConnection tcbIdx ≠ some (.new tcbIdx serverId)) :
    Fails alwaysPrivate (self.connect tcbIdx serverId) := by
  have unowned : ¬Owns self.arbiter.transportToOwnedConnection (.new tcbIdx serverId) := by
    rw [Owns, getTcbIdx_new]
    exact other
  refine fails_of_step (.leDisconnect tcbIdx) trivial
    (step_leDisconnect alwaysPrivate (update_self ..))
    (fails_of_run alwaysPrivate ?_)
  rw [disconnect, connect, doInRustThread, doInRustThread, run_append, run_append, settles.runs,
    bind_some, run_singleton, perform, onLeConnect,
    getServerId_new, closed, if_neg Bool.false_ne_true, bind_some,
    run_singleton]
  exact onLeDisconnect_eq_none (settles.agrees.unregistered unowned)

theorem connect_displaced_fails (settles : self.Settles settled) (different : displaced ≠ serverId)
    (taken : self.arbiter.transportToOwnedConnection tcbIdx = some (.new tcbIdx displaced)) :
    Fails alwaysPrivate (self.connect tcbIdx serverId) := by
  have registered := (settles.agrees.registered (.new tcbIdx displaced)).mpr (by
    rw [Owns, getTcbIdx_new, taken])
  refine fails_of_step (.leDisconnect tcbIdx) trivial
    (step_leDisconnect alwaysPrivate (update_self ..))
    (@fails_of_reopen _ tcbIdx displaced alwaysPrivate (update_self ..) ?_)
  rw [disconnect, connect, doInRustThread, doInRustThread, append_assoc, append_assoc,
    run_append, settles.runs]
  exact run_displaced different registered

end

end

/-- An unsound connection can be followed by sound events up to a failed assertion. -/
theorem unsound_fails (alwaysPrivate : Bool) (settles : self.Settles settled)
    (unsound : ¬self.Sound event) :
    ∃ next, step alwaysPrivate self event = some next ∧ Fails alwaysPrivate next := by
  cases event with
  | leConnect tcbIdx advertiser =>
    rw [Sound] at unsound
    push Not at unsound
    obtain ⟨serverId, server, other⟩ := unsound
    rw [settles.openAfter_eq] at other
    refine ⟨_, step_leConnect alwaysPrivate tcbIdx server, ?_⟩
    cases isOpen : settled.databases serverId with
    | false =>
      rw [isOpen, if_neg Bool.false_ne_true] at other
      exact connect_closed_fails alwaysPrivate settles isOpen other
    | true =>
      rw [isOpen, if_pos rfl] at other
      obtain ⟨connId, taken⟩ := Option.ne_none_iff_exists'.mp other
      have parts := new_parts connId
      rw [settles.agrees.transports taken] at parts
      rw [← parts] at taken
      by_cases same : connId.getServerId = serverId
      · rw [same] at taken
        exact connect_again_fails alwaysPrivate settles isOpen taken
      · exact connect_displaced_fails alwaysPrivate settles same taken
  | openServer | closeServer | associate | clearAdvertiser | leDisconnect | deliver =>
    exact absurd trivial unsound

/--
No assertion fails in a run of sound events, and the three tables agree once everything
is delivered; and every unsound event can be followed by sound ones up to a failure.
-/
theorem sound_iff_safe (alwaysPrivate : Bool) (events : List Event)
    (sound : Along (step alwaysPrivate) Sound new events) :
    ∃ self, run (step alwaysPrivate) new events = some self ∧
      (∃ settled, self.Settles settled) ∧ ∀ event, self.Sound event ↔
        ∃ next, step alwaysPrivate self event = some next ∧
          ∀ later, Along (step alwaysPrivate) Sound next later →
            run (step alwaysPrivate) next later ≠ none := by
  have progress : ∀ (self : Isolation) (event : Event),
      (∃ settled, self.Settles settled) → self.Sound event →
      ∃ next, step alwaysPrivate self event = some next ∧ ∃ settled, next.Settles settled := by
    rintro self event ⟨settled, settles⟩ sound
    obtain ⟨next, nextSettled, stepped, settlesNext⟩ :=
      step_settles alwaysPrivate settles sound
    exact ⟨next, stepped, nextSettled, settlesNext⟩
  obtain ⟨self, reached, settled, settles⟩ :=
    run_of_along progress ⟨.new, settles_new⟩ sound
  refine ⟨self, reached, ⟨settled, settles⟩, fun event => ⟨fun sound => ?_, fun safe => ?_⟩⟩
  · obtain ⟨next, stepped, settledNext⟩ := progress self event ⟨settled, settles⟩ sound
    refine ⟨next, stepped, fun later guarded => ?_⟩
    obtain ⟨last, reachedLast, -⟩ := run_of_along progress settledNext guarded
    rw [reachedLast]
    nofun
  · by_contra unsound
    obtain ⟨next, stepped, safe⟩ := safe
    obtain ⟨failing, steppedToo, later, guarded, fails⟩ :=
      unsound_fails alwaysPrivate settles unsound
    cases stepped.symm.trans steppedToo
    exact safe later guarded fails

/-- A server that is open takes a connection, also after another one was closed. -/
def openAndConnect : List Event :=
  [.openServer 3, .associate 3 2, .openServer 4, .closeServer 4, .deliver, .leConnect 1 2,
    .closeServer 3, .leDisconnect 1, .deliver]

theorem sound_iff_safe_openAndConnect :
    Along (step false) Sound new openAndConnect ∧
    ∃ self, run (step false) new openAndConnect = some self ∧
      (∃ settled, self.Settles settled) ∧ ∀ event, self.Sound event ↔
        ∃ next, step false self event = some next ∧
          ∀ later, Along (step false) Sound next later → run (step false) next later ≠ none :=
  have sound : Along (step false) Sound new openAndConnect := by decide +kernel
  ⟨sound, sound_iff_safe false openAndConnect sound⟩

/-- A server is closed before its isolation is used; the disconnection trips the assertion. -/
theorem closed_server_fails :
    (run (step false) new [.openServer 3, .closeServer 3, .associate 3 2, .leConnect 1 2,
      .leDisconnect 1, .deliver, .deliver, .deliver]).isSome = true ∧
    run (step false) new [.openServer 3, .closeServer 3, .associate 3 2, .leConnect 1 2,
      .leDisconnect 1, .deliver, .deliver, .deliver, .deliver] = none :=
  ⟨by decide, Option.isNone_iff_eq_none.mp (by decide)⟩

end Isolation

end BluetoothFormal.Gatt
