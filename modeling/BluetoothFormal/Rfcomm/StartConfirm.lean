import BluetoothFormal.Rfcomm.Port

/-!
# The outcome of starting an RFCOMM multiplexer

`PORT_StartCnf` walks the pool of ports and passes the outcome to those attached
to the multiplexer.  On a failure it detaches the multiplexer from the whole pool
at the first such port, so the walk does not recognise the others.
-/

namespace BluetoothFormal.Rfcomm.StartConfirm

open Port (ConnectionState RfcState evConnectErr)
open Function List

/-- The members of `tPORT` that a confirmed start reads or resets. -/
structure PortBlock where
  handle : UInt8 := 0
  state : ConnectionState := .closed
  rfcState : RfcState := .closed
  mcb : Option Nat := none
  isServer : Bool := false
  dlci : UInt8 := 0
  error : UInt8 := 0
  mtu : Nat := 0
  hasCallback : Bool := false
  hasMgmtCallback : Bool := false
  evMask : UInt32 := 0
  keepPortHandle : Bool := false
  keepMtu : Nat := 0

inductive Call where
  | parameterNegotiationRequest (mcb : Nat) (dlci : UInt8) (mtu : Nat)
  | callback (event : UInt32) (handle : UInt8)
  | mgmtCallback (code handle : UInt8)
  | releasePort
  deriving DecidableEq

/-- The ports, the calls made for each of them, and the multiplexers given to
`rfc_check_mcb_active`. -/
structure Pool (size : Nat) where
  ports : Fin size → PortBlock
  calls : Fin size → List Call
  checked : List Nat

def hciErrPageTimeout : Nat := 4
def portStartFailed : UInt8 := 12
def portPageTimeout : UInt8 := 24

def startError (result : Nat) : UInt8 :=
  if result = hciErrPageTimeout then portPageTimeout else portStartFailed

namespace PortBlock

def detached (mcb : Nat) (port : PortBlock) : PortBlock :=
  if port.mcb = some mcb then { port with mcb := none } else port

/-- What `port_release_port` leaves of a port. -/
def released (port : PortBlock) : PortBlock :=
  if port.rfcState ≠ .closed then { port with state := .closed }
  else if port.keepPortHandle then
    -- port_set_defaults, and the members restored after it
    { port with
      error := 0
      mtu := port.keepMtu
      state := .opening
      mcb := none
      dlci := if port.isServer then port.dlci &&& 0xfe else port.dlci }
  else {}

/-- The calls of the application's functions for a port whose start failed. -/
def failureEvents (port : PortBlock) : List Call :=
  (if port.hasCallback ∧ port.evMask &&& evConnectErr ≠ 0 then
    [.callback evConnectErr port.handle] else []) ++
  (if port.hasMgmtCallback then [.mgmtCallback portStartFailed port.handle] else [])

end PortBlock

namespace Pool

variable {size : Nat} (pool : Pool size) (mcb result : Nat) (index : Fin size)

def record (calls : List Call) : Pool size :=
  { pool with calls := update pool.calls index (pool.calls index ++ calls) }

def setPort (port : PortBlock) : Pool size :=
  { pool with ports := update pool.ports index port }

def rfcReleaseMultiplexerChannel : Pool size :=
  { pool with ports := fun index => (pool.ports index).detached mcb }

def portReleasePort : Pool size :=
  let port := pool.ports index
  let checked := if port.rfcState = .closed then port.mcb.toList else []
  ({ pool with checked := pool.checked ++ checked }.setPort index port.released).record index
    [.releasePort]

/-- The body of the loop, for a port that is attached to the multiplexer. -/
def confirmPort : Pool size :=
  let port := pool.ports index
  if result = 0 then
    pool.record index [.parameterNegotiationRequest mcb port.dlci port.mtu]
  else
    let pool := pool.setPort index { port with error := startError result }
    let pool := pool.rfcReleaseMultiplexerChannel mcb
    (pool.record index port.failureEvents).portReleasePort index

/-- The loop over the pool, with `no_ports_up`. -/
def startCnfLoop : List (Fin size) → Bool → Pool size → Bool × Pool size
  | [], noPortsUp, pool => (noPortsUp, pool)
  | index :: indices, noPortsUp, pool =>
    if (pool.ports index).mcb = some mcb then
      startCnfLoop indices false (pool.confirmPort mcb result index)
    else startCnfLoop indices noPortsUp pool

def portStartCnf : Pool size :=
  let (noPortsUp, pool) := startCnfLoop mcb result (finRange size) true pool
  -- no port is left when the user closed it during the start
  if noPortsUp then { pool with checked := pool.checked ++ [mcb] } else pool

end Pool

/-! ## A failed start -/

section failed

open Pool

variable {size mcb result : Nat} {pool : Pool size} {index : Fin size}

/-- Every attached port is told of the failure and released, and no other port is
called or changed. -/
def FailureHandled (mcb result : Nat) (before after : Pool size) : Prop :=
  ∀ index, let port := before.ports index
    if port.mcb = some mcb then
      after.calls index = before.calls index ++ port.failureEvents ++ [.releasePort] ∧
      after.ports index = { port with mcb := none, error := startError result }.released
    else after.calls index = before.calls index ∧ after.ports index = port

theorem confirmPort_calls (failed : result ≠ 0) (other : Fin size) :
    (pool.confirmPort mcb result index).calls other =
      if other = index then
        pool.calls index ++ (pool.ports index).failureEvents ++ [.releasePort]
      else pool.calls other := by
  by_cases same : other = index <;>
    simp [confirmPort, failed, portReleasePort, record, setPort, rfcReleaseMultiplexerChannel, same]

theorem confirmPort_ports (failed : result ≠ 0) (attached : (pool.ports index).mcb = some mcb)
    (other : Fin size) :
    (pool.confirmPort mcb result index).ports other =
      if other = index then
        { pool.ports index with mcb := none, error := startError result }.released
      else (pool.ports other).detached mcb := by
  by_cases same : other = index <;>
    simp [confirmPort, failed, portReleasePort, record, setPort, rfcReleaseMultiplexerChannel, same,
      PortBlock.detached, attached]

theorem confirmPort_detaches (failed : result ≠ 0) (attached : (pool.ports index).mcb = some mcb)
    (other : Fin size) : ((pool.confirmPort mcb result index).ports other).mcb ≠ some mcb := by
  rw [confirmPort_ports failed attached]
  split
  · unfold PortBlock.released
    split_ifs <;> simp
  · unfold PortBlock.detached
    split_ifs <;> simp [*]

theorem startCnfLoop_unattached (noPortsUp : Bool) {indices : List (Fin size)}
    (unattached : ∀ index ∈ indices, (pool.ports index).mcb ≠ some mcb) :
    startCnfLoop mcb result indices noPortsUp pool = (noPortsUp, pool) := by
  induction indices with
  | nil => rfl
  | cons index indices ih =>
    obtain ⟨here, rest⟩ := forall_mem_cons.mp unattached
    rw [startCnfLoop, if_neg here, ih rest]

theorem startCnfLoop_failed (failed : result ≠ 0) (indices : List (Fin size)) :
    (∀ index ∈ indices, (pool.ports index).mcb ≠ some mcb) ∨
      ∃ index, (pool.ports index).mcb = some mcb ∧ startCnfLoop mcb result indices true pool =
          (false, pool.confirmPort mcb result index) := by
  induction indices with
  | nil => exact .inl (forall_mem_nil _)
  | cons index indices ih =>
    rw [startCnfLoop]
    split
    · next attached =>
      refine .inr ⟨index, attached, startCnfLoop_unattached _ ?_⟩
      exact fun other _ => confirmPort_detaches failed attached other
    · next here => exact ih.imp_left fun rest => forall_mem_cons.mpr ⟨here, rest⟩

/-- A failed start is handled exactly when at most one port is attached. -/
theorem portStartCnf_handled_iff (pool : Pool size) (mcb result : Nat) :
    (result ≠ 0 → FailureHandled mcb result pool (pool.portStartCnf mcb result)) ↔
      (result ≠ 0 → ∀ first second, (pool.ports first).mcb = some mcb →
        (pool.ports second).mcb = some mcb → first = second) := by
  refine imp_congr_right fun failed => ?_
  rw [portStartCnf]
  obtain unattached | ⟨served, attached, walked⟩ := startCnfLoop_failed failed (finRange size)
  · have nowhere index := unattached index (mem_finRange index)
    refine iff_of_true (fun index => ?_) fun first _ attached => absurd attached (nowhere first)
    rw [startCnfLoop_unattached true unattached]
    exact if_neg (nowhere index) ▸ ⟨rfl, rfl⟩
  · rw [walked]
    constructor
    · intro handled
      have is_served index (also : (pool.ports index).mcb = some mcb) : index = served := by
        by_contra other
        have told := handled index
        dsimp only at told
        rw [if_pos also, if_neg Bool.false_ne_true, confirmPort_calls failed, if_neg other] at told
        simp at told
      intro first second first_attached second_attached
      rw [is_served first first_attached, is_served second second_attached]
    · intro unique index
      dsimp only
      rw [if_neg Bool.false_ne_true, confirmPort_calls failed, confirmPort_ports failed attached]
      by_cases also : (pool.ports index).mcb = some mcb
      · cases unique index served also attached
        rw [if_pos also, if_pos rfl, if_pos rfl]
        exact ⟨rfl, rfl⟩
      · have other : index ≠ served := by
          rintro rfl
          exact also attached
        rw [if_neg also, if_neg other, if_neg other, PortBlock.detached, if_neg also]
        exact ⟨rfl, rfl⟩

/-- Two ports opened to one device before its multiplexer is up. -/
def twoOpening : Pool 2 where
  ports index :=
    { handle := .ofNat (index + 1), state := .opening, mcb := some 0,
      dlci := .ofNat (2 * index + 4), hasMgmtCallback := true }
  calls _ := []
  checked := []

/-- The second port stays opening, attached to nothing, and hears of no failure. -/
theorem second_port_unserved :
    ¬FailureHandled 0 4 twoOpening (twoOpening.portStartCnf 0 4) := by
  intro handled
  have told : (twoOpening.portStartCnf 0 4).calls 1 = [.mgmtCallback 12 2, .releasePort] :=
    (handled 1).1
  exact absurd told (by decide)

end failed

end BluetoothFormal.Rfcomm.StartConfirm
