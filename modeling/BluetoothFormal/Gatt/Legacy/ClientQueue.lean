import BluetoothFormal.Foundation.Transition
import BluetoothFormal.Gatt.Legacy.Server

/-!
# The command queue of the legacy GATT client

The commands of a client wait in one queue, the one that is sent at its front and those
that are still to be sent behind it.  A response takes the command at the front out of the
queue before its opcode is looked at, so a response with a wrong opcode removes the
request that is outstanding, and the next response is taken for a command that was never
sent.  As long as every response is one for the command at the front, that command is sent.

Every command has a number, and the numbers of the commands that are sent and of those that
are answered are recorded.
-/

namespace BluetoothFormal.Gatt.Legacy

open Foundation.Transition List Option

def handleValueNotif : UInt8 := 0x1B
def handleValueInd : UInt8 := 0x1D
def handleMultiValueNotif : UInt8 := 0x23

/-- The PDUs of a server that answer no request. -/
def serverInitiated : List UInt8 := [handleValueInd, handleValueNotif, handleMultiValueNotif]

def gattCmdToRspCode (cmdCode : UInt8) : UInt8 :=
  if cmdCode > 1 ∧ cmdCode ≠ cmdWrite then cmdCode + 1 else 0

/-- What L2CAP tells about a PDU: `GATT_SUCCESS`, `GATT_CONGESTED` or an error. -/
inductive L2capResult where
  | success
  | congested
  | failed
  deriving DecidableEq

/-- `tGATT_CMD_Q`; the number stands for the operation and its request. -/
structure CmdQ where
  serial : Nat
  pCmd : Option (List UInt8)
  opCode : UInt8
  toSend : Bool
  deriving DecidableEq

/-- A command of the client, with what L2CAP tells if it is sent at once. -/
structure ClCommand where
  opCode : UInt8
  pdu : List UInt8
  result : L2capResult

/-- What the queue of a bearer holds, and which commands were sent and answered. -/
structure ClBearer where
  clCmdQ : List CmdQ
  issued : Nat
  sent : List Nat
  answered : List Nat
  deriving DecidableEq

namespace ClBearer

def fresh : ClBearer := ⟨[], 0, [], []⟩

/-- `gatt_cmd_enq` for a command with a new number. -/
def enqueue (bearer : ClBearer) (toSend : Bool) (opCode : UInt8) (pCmd : Option (List UInt8)) :
    ClBearer :=
  { bearer with
    clCmdQ := bearer.clCmdQ ++ [⟨bearer.issued, pCmd, opCode, toSend⟩]
    issued := bearer.issued + 1 }

end ClBearer

def attpClSendCmd (bearer : ClBearer) (command : ClCommand) : ClBearer :=
  let cmdCode := command.opCode &&& 0x7F
  if bearer.clCmdQ ≠ [] ∧ cmdCode ≠ handleValueConf then
    bearer.enqueue true cmdCode (some command.pdu)
  else if command.result = .failed then { bearer with issued := bearer.issued + 1 }
  else
    let sent := { bearer with sent := bearer.sent ++ [bearer.issued] }
    if cmdCode = handleValueConf ∨ cmdCode = cmdWrite then
      { sent with issued := bearer.issued + 1 }
    else sent.enqueue false cmdCode none

/--
One turn of the loop that sends commands: what L2CAP tells, and the commands of applications
that are told of the end of their operation.
-/
structure Turn where
  result : L2capResult
  commands : List ClCommand

/-- The command at the front is sent; the loop may go on. -/
def sendTurn (bearer : ClBearer) (cmd : CmdQ) (rest : List CmdQ) (turn : Turn) :
    Bool × ClBearer :=
  if turn.result = .failed then (true, { bearer with clCmdQ := rest })
  else
    let sent := bearer.sent ++ [cmd.serial]
    if cmd.opCode = cmdWrite ∨ cmd.opCode = signCmdWrite then
      (turn.result = .success,
        turn.commands.foldl attpClSendCmd { bearer with clCmdQ := rest, sent := sent })
    else
      (false,
        { bearer with
          clCmdQ := { cmd with toSend := false, pCmd := none } :: rest
          sent := sent })

/-- The command at the front if it is to be sent, and those behind it. -/
def ClBearer.nextToSend (bearer : ClBearer) : Option (CmdQ × List CmdQ) :=
  match bearer.clCmdQ with
  | [] => none
  | cmd :: rest => if cmd.toSend = true ∧ cmd.pCmd ≠ none then some (cmd, rest) else none

/-- `gatt_cl_send_next_cmd_inq`; there is no result if more turns are needed. -/
def gattClSendNextCmdInq : List Turn → ClBearer → Option ClBearer
  | [], bearer => if bearer.nextToSend = none then some bearer else none
  | turn :: turns, bearer =>
    match bearer.nextToSend with
    | none => some bearer
    | some (cmd, rest) =>
      let next := sendTurn bearer cmd rest turn
      if next.1 then gattClSendNextCmdInq turns next.2 else some next.2

/-- The response is one for the command. -/
def AnswersCmd (opCode : UInt8) (cmd : CmdQ) : Prop :=
  gattCmdToRspCode cmd.opCode = opCode ∨ opCode = rspError
  deriving Decidable

/--
`gatt_client_handle_server_rsp`: the command that the response is taken for, and the bearer.
While the response is processed, the operation and the applications issue commands.
-/
def gattClientHandleServerRsp (bearer : ClBearer) (opCode : UInt8) (commands : List ClCommand)
    (turns : List Turn) : Option (Option Nat × ClBearer) :=
  if opCode ∈ serverInitiated then some (none, bearer)
  else
    match bearer.clCmdQ with
    | [] => (gattClSendNextCmdInq turns bearer).map (none, ·)
    | cmd :: rest =>
      if AnswersCmd opCode cmd then
        let answered :=
          { bearer with clCmdQ := rest, answered := bearer.answered ++ [cmd.serial] }
        (gattClSendNextCmdInq turns (commands.foldl attpClSendCmd answered)).map
          (some cmd.serial, ·)
      else some (none, { bearer with clCmdQ := rest })

inductive ClEvent where
  | command (command : ClCommand)
  | response (opCode : UInt8) (commands : List ClCommand) (turns : List Turn)
  /-- `gatt_channel_congestion`, when L2CAP is no longer congested. -/
  | uncongested (turns : List Turn)

def clStep (bearer : ClBearer) : ClEvent → Option ClBearer
  | .command command => some (attpClSendCmd bearer command)
  | .response opCode commands turns =>
    (gattClientHandleServerRsp bearer opCode commands turns).map Prod.snd
  | .uncongested turns => gattClSendNextCmdInq turns bearer

/--
A command in the queue is not answered, it is sent if and only if it is marked so, and it has
a PDU as long as it is to be sent.
-/
structure Tracked (bearer : ClBearer) : Prop where
  ascending : bearer.clCmdQ.Pairwise (·.serial < ·.serial)
  queued : ∀ cmd ∈ bearer.clCmdQ, cmd.serial < bearer.issued
  sent : ∀ serial ∈ bearer.sent, serial < bearer.issued
  answered : ∀ serial ∈ bearer.answered, serial < bearer.issued
  marked : ∀ cmd ∈ bearer.clCmdQ, cmd.toSend = false ↔ cmd.serial ∈ bearer.sent
  unanswered : ∀ cmd ∈ bearer.clCmdQ, cmd.serial ∉ bearer.answered
  ready : ∀ cmd ∈ bearer.clCmdQ, cmd.toSend = true → cmd.pCmd ≠ none

theorem tracked_fresh : Tracked .fresh where
  ascending := .nil
  queued := forall_mem_nil _
  sent := forall_mem_nil _
  answered := forall_mem_nil _
  marked := forall_mem_nil _
  unanswered := forall_mem_nil _
  ready := forall_mem_nil _

theorem mem_concat_of_ne {numbers : List Nat} {number last : Nat} (apart : number ≠ last) :
    number ∈ numbers ++ [last] ↔ number ∈ numbers := by
  rw [mem_append, mem_singleton, or_iff_left apart]

variable {cmd : CmdQ} {opCode : UInt8} {taken : Option Nat}

namespace Tracked

variable {bearer : ClBearer}

section

variable (tracked : Tracked bearer)
include tracked

theorem skip : Tracked { bearer with issued := bearer.issued + 1 } :=
  { tracked with
    queued := fun cmd listed => Nat.lt_succ_of_lt (tracked.queued cmd listed)
    sent := fun serial listed => Nat.lt_succ_of_lt (tracked.sent serial listed)
    answered := fun serial listed => Nat.lt_succ_of_lt (tracked.answered serial listed) }

theorem sendNew :
    Tracked { bearer with sent := bearer.sent ++ [bearer.issued], issued := bearer.issued + 1 } where
  ascending := tracked.ascending
  queued := tracked.skip.queued
  sent := by
    intro serial listed
    rcases mem_append.mp listed with old | new
    · exact Nat.lt_succ_of_lt (tracked.sent serial old)
    · rw [mem_singleton.mp new]
      exact Nat.lt_succ_self _
  answered := tracked.skip.answered
  marked := by
    intro cmd listed
    rw [mem_concat_of_ne (Nat.ne_of_lt (tracked.queued cmd listed))]
    exact tracked.marked cmd listed
  unanswered := tracked.unanswered
  ready := tracked.ready

theorem push (behind : ∀ other ∈ bearer.clCmdQ, other.serial < cmd.serial)
    (known : cmd.serial < bearer.issued) (mark : cmd.toSend = false ↔ cmd.serial ∈ bearer.sent)
    (pending : cmd.serial ∉ bearer.answered) (ready : cmd.toSend = true → cmd.pCmd ≠ none) :
    Tracked { bearer with clCmdQ := bearer.clCmdQ ++ [cmd] } where
  ascending := by
    refine pairwise_append.mpr ⟨tracked.ascending, pairwise_singleton .., ?_⟩
    intro other listed last same
    rw [mem_singleton.mp same]
    exact behind other listed
  queued := forall_mem_append.mpr ⟨tracked.queued, forall_mem_singleton.mpr known⟩
  sent := tracked.sent
  answered := tracked.answered
  marked := forall_mem_append.mpr ⟨tracked.marked, forall_mem_singleton.mpr mark⟩
  unanswered := by
    exact forall_mem_append.mpr ⟨tracked.unanswered, forall_mem_singleton.mpr pending⟩
  ready := forall_mem_append.mpr ⟨tracked.ready, forall_mem_singleton.mpr ready⟩

theorem attpClSendCmd (command : ClCommand) :
    Tracked (attpClSendCmd bearer command) := by
  have unanswered : bearer.issued ∉ bearer.answered :=
    fun listed => Nat.lt_irrefl _ (tracked.answered _ listed)
  rw [Legacy.attpClSendCmd]
  split
  · refine tracked.skip.push tracked.queued (Nat.lt_succ_self _) ?_ unanswered
      fun _ => some_ne_none _
    exact iff_of_false Bool.noConfusion fun listed => Nat.lt_irrefl _ (tracked.sent _ listed)
  · split
    · exact tracked.skip
    · split
      · exact tracked.sendNew
      · refine tracked.sendNew.push tracked.queued (Nat.lt_succ_self _) ?_ unanswered
          Bool.noConfusion
        exact iff_of_true rfl (mem_append_right _ (mem_singleton_self _))

theorem commands (commands : List ClCommand) :
    Tracked (commands.foldl Legacy.attpClSendCmd bearer) :=
  invariant_foldl (fun _ command kept => kept.attpClSendCmd command) tracked commands

end

section

variable {cmd : CmdQ} {rest : List CmdQ} (front : bearer.clCmdQ = cmd :: rest)

include front

section

variable (tracked : Tracked bearer)
include tracked

theorem front_lt : ∀ other ∈ rest, cmd.serial < other.serial :=
  (pairwise_cons.mp (front ▸ tracked.ascending)).1

theorem pop : Tracked { bearer with clCmdQ := rest } :=
  have within : ∀ other ∈ rest, other ∈ bearer.clCmdQ := fun other listed => by
    rw [front]
    exact mem_cons_of_mem _ listed
  { ascending := (pairwise_cons.mp (front ▸ tracked.ascending)).2
    queued := fun other listed => tracked.queued other (within other listed)
    sent := tracked.sent
    answered := tracked.answered
    marked := fun other listed => tracked.marked other (within other listed)
    unanswered := fun other listed => tracked.unanswered other (within other listed)
    ready := fun other listed => tracked.ready other (within other listed) }

theorem front_known : cmd.serial < bearer.issued :=
  tracked.queued cmd (front ▸ mem_cons_self)

theorem popSent :
    Tracked { bearer with clCmdQ := rest, sent := bearer.sent ++ [cmd.serial] } :=
  have known := tracked.front_known front
  { tracked.pop front with
    sent := forall_mem_append.mpr ⟨tracked.sent, forall_mem_singleton.mpr known⟩
    marked := by
      intro other listed
      rw [mem_concat_of_ne (Nat.ne_of_gt (tracked.front_lt front other listed))]
      exact (tracked.pop front).marked other listed }

theorem markSent :
    Tracked
      { bearer with
        clCmdQ := { cmd with toSend := false, pCmd := none } :: rest
        sent := bearer.sent ++ [cmd.serial] } :=
  have ahead := tracked.front_lt front
  have known := tracked.front_known front
  { ascending := pairwise_cons.mpr ⟨ahead, (tracked.pop front).ascending⟩
    queued := forall_mem_cons.mpr ⟨known, (tracked.pop front).queued⟩
    sent := (tracked.popSent front).sent
    answered := tracked.answered
    marked := forall_mem_cons.mpr
      ⟨iff_of_true rfl (mem_append_right _ (mem_singleton_self _)), (tracked.popSent front).marked⟩
    unanswered := forall_mem_cons.mpr
      ⟨tracked.unanswered cmd (front ▸ mem_cons_self), (tracked.pop front).unanswered⟩
    ready := forall_mem_cons.mpr ⟨Bool.noConfusion, (tracked.pop front).ready⟩ }

theorem popAnswered :
    Tracked { bearer with clCmdQ := rest, answered := bearer.answered ++ [cmd.serial] } :=
  have known := tracked.front_known front
  { tracked.pop front with
    answered := forall_mem_append.mpr ⟨tracked.answered, forall_mem_singleton.mpr known⟩
    unanswered := by
      intro other listed
      rw [mem_concat_of_ne (Nat.ne_of_gt (tracked.front_lt front other listed))]
      exact (tracked.pop front).unanswered other listed }

theorem sendTurn (turn : Turn) :
    Tracked (sendTurn bearer cmd rest turn).2 := by
  rw [Legacy.sendTurn]
  split
  · exact tracked.pop front
  · split
    · exact (tracked.popSent front).commands turn.commands
    · exact tracked.markSent front

end

end

end Tracked

variable {bearer next : ClBearer} {turns : List Turn}

theorem ClBearer.nextToSend_eq_some {rest : List CmdQ}
    (next : bearer.nextToSend = some (cmd, rest)) :
    bearer.clCmdQ = cmd :: rest ∧ cmd.toSend = true := by
  rw [nextToSend] at next
  split at next
  · cases next
  · obtain ⟨waiting, same⟩ := ite_none_right_eq_some.mp next
    cases same
    exact ⟨‹_›, waiting.1⟩

theorem gattClSendNextCmdInq_invariant {Invariant : ClBearer → Prop}
    (turnKeeps : ∀ bearer cmd rest turn, Invariant bearer → bearer.clCmdQ = cmd :: rest →
      Invariant (sendTurn bearer cmd rest turn).2) (start : Invariant bearer)
    (ended : gattClSendNextCmdInq turns bearer = some next) : Invariant next := by
  induction turns generalizing bearer with
  | nil =>
    obtain ⟨-, rfl⟩ := guarded_eq_some.mp ended
    exact start
  | cons turn turns ih =>
    rw [gattClSendNextCmdInq] at ended
    split at ended
    case h_1 =>
      cases ended
      exact start
    case h_2 cmd rest waiting =>
      have kept := turnKeeps bearer cmd rest turn start (ClBearer.nextToSend_eq_some waiting).1
      dsimp only at ended
      split at ended
      · exact ih kept ended
      · cases ended
        exact kept

theorem Tracked.sendNext (tracked : Tracked bearer)
    (ended : gattClSendNextCmdInq turns bearer = some next) : Tracked next :=
  gattClSendNextCmdInq_invariant
    (fun _ _ _ turn kept front => kept.sendTurn front turn) tracked ended

section

variable {commands : List ClCommand}
  (handled : gattClientHandleServerRsp bearer opCode commands turns = some (taken, next))
include handled

theorem gattClientHandleServerRsp_cases (response : opCode ∉ serverInitiated) :
    (bearer.clCmdQ = [] ∧ taken = none ∧ gattClSendNextCmdInq turns bearer = some next) ∨
      ∃ cmd rest, bearer.clCmdQ = cmd :: rest ∧ ((AnswersCmd opCode cmd ∧ taken = some cmd.serial ∧
            gattClSendNextCmdInq turns (commands.foldl attpClSendCmd
              { bearer with clCmdQ := rest, answered := bearer.answered ++ [cmd.serial] }) =
                some next) ∨
          (¬AnswersCmd opCode cmd ∧ taken = none ∧ next = { bearer with clCmdQ := rest })) := by
  rw [gattClientHandleServerRsp, if_neg response] at handled
  split at handled
  case h_1 empty =>
    obtain ⟨last, ended, same⟩ := map_eq_some_iff.mp handled
    cases same
    exact .inl ⟨empty, rfl, ended⟩
  case h_2 cmd rest front =>
    refine .inr ⟨cmd, rest, front, ?_⟩
    split at handled
    case isTrue answers =>
      obtain ⟨last, ended, same⟩ := map_eq_some_iff.mp handled
      cases same
      exact .inl ⟨answers, rfl, ended⟩
    case isFalse wrong =>
      cases handled
      exact .inr ⟨wrong, rfl, rfl⟩

theorem Tracked.handleServerRsp (tracked : Tracked bearer) : Tracked next := by
  by_cases response : opCode ∈ serverInitiated
  · rw [gattClientHandleServerRsp, if_pos response] at handled
    cases handled
    exact tracked
  · rcases gattClientHandleServerRsp_cases handled response with
      ⟨-, -, ended⟩ | ⟨cmd, rest, front, ⟨-, -, ended⟩ | ⟨-, -, rfl⟩⟩
    · exact tracked.sendNext ended
    · exact ((tracked.popAnswered front).commands commands).sendNext ended
    · exact tracked.pop front

end

theorem Tracked.step {event : ClEvent} (tracked : Tracked bearer)
    (taken : clStep bearer event = some next) : Tracked next := by
  cases event with
  | command command =>
    cases taken
    exact tracked.attpClSendCmd command
  | response opCode commands turns =>
    obtain ⟨⟨serial, last⟩, handled, rfl⟩ := map_eq_some_iff.mp taken
    exact tracked.handleServerRsp handled
  | uncongested turns => exact tracked.sendNext taken

theorem tracked_of_run {events : List ClEvent} (reached : run clStep .fresh events = some bearer) :
    Tracked bearer :=
  invariant_run (fun _ _ _ kept taken => kept.step taken) tracked_fresh reached

/-! ## Regular runs -/

/-- No Write Command that is sent from the queue meets congestion. -/
def WritesFlow : List Turn → ClBearer → Prop
  | [], _ => True
  | turn :: turns, bearer =>
    match bearer.nextToSend with
    | none => True
    | some (cmd, rest) =>
      (turn.result = .congested → ¬(cmd.opCode = cmdWrite ∨ cmd.opCode = signCmdWrite)) ∧
        ((sendTurn bearer cmd rest turn).1 = true →
          WritesFlow turns (sendTurn bearer cmd rest turn).2)

/-- The response is one for the command at the front. -/
def AnswersFront (bearer : ClBearer) (opCode : UInt8) : Prop :=
  ∀ cmd, bearer.clCmdQ.head? = some cmd → AnswersCmd opCode cmd

/--
A response is one for the command at the front, and the commands that are sent behind it meet
no congestion that matters.
-/
def Regular (bearer : ClBearer) : ClEvent → Prop
  | .response opCode commands turns => opCode ∉ serverInitiated → AnswersFront bearer opCode ∧
      ∀ cmd rest, bearer.clCmdQ = cmd :: rest → WritesFlow turns (commands.foldl attpClSendCmd
        { bearer with clCmdQ := rest, answered := bearer.answered ++ [cmd.serial] })
  | _ => True

/-- The command at the front is sent. -/
def ClBearer.FrontSent (bearer : ClBearer) : Prop :=
  ∀ cmd, bearer.clCmdQ.head? = some cmd → cmd.toSend = false

theorem ClBearer.FrontSent.attpClSendCmd (served : bearer.FrontSent) (command : ClCommand) :
    (attpClSendCmd bearer command).FrontSent := by
  rw [Legacy.attpClSendCmd]
  split
  case isTrue busy =>
    intro cmd first
    obtain ⟨front, rest, shape⟩ := exists_cons_of_ne_nil busy.1
    refine served cmd ?_
    simpa [enqueue, shape] using first
  case isFalse idle =>
    split
    · exact served
    · split
      · exact served
      case isFalse answered =>
        have empty : bearer.clCmdQ = [] :=
          not_not.mp fun queue => idle ⟨queue, fun conf => answered (.inl conf)⟩
        intro cmd first
        simp only [enqueue, empty, nil_append, List.head?_cons, some.injEq] at first
        exact first ▸ rfl

theorem Tracked.frontSent_of_idle (tracked : Tracked bearer) (idle : bearer.nextToSend = none) :
    bearer.FrontSent := by
  intro cmd first
  by_contra waits
  have listed := mem_of_head? first
  have waiting : cmd.toSend = true := Bool.not_eq_false _ ▸ waits
  obtain ⟨rest, shape⟩ := head?_eq_some_iff.mp first
  rw [ClBearer.nextToSend, shape] at idle
  simp [waiting, tracked.ready cmd listed waiting] at idle

/-- A turn after which the loop ends has sent the command at the front. -/
theorem sendTurn_frontSent {rest : List CmdQ} {turn : Turn}
    (flows : turn.result = .congested → ¬(cmd.opCode = cmdWrite ∨ cmd.opCode = signCmdWrite))
    (stops : ¬(sendTurn bearer cmd rest turn).1 = true) :
    (sendTurn bearer cmd rest turn).2.FrontSent := by
  rw [Legacy.sendTurn] at stops ⊢
  split at stops
  · exact absurd rfl stops
  case isFalse taken =>
    rw [if_neg taken]
    split at stops
    case isTrue write =>
      have congested : turn.result = .congested := by
        cases result : turn.result with
        | success => exact absurd (decide_eq_true result) stops
        | congested => rfl
        | failed => exact absurd result taken
      exact absurd write (flows congested)
    case isFalse request =>
      rw [if_neg request]
      rintro _ ⟨⟩
      rfl

/-- Without congestion the loop ends when the command at the front is sent. -/
theorem Tracked.sendNext_frontSent (tracked : Tracked bearer) (flows : WritesFlow turns bearer)
    (ended : gattClSendNextCmdInq turns bearer = some next) : next.FrontSent := by
  induction turns generalizing bearer with
  | nil =>
    obtain ⟨idle, rfl⟩ := guarded_eq_some.mp ended
    exact tracked.frontSent_of_idle idle
  | cons turn turns ih =>
    rw [gattClSendNextCmdInq] at ended
    rw [WritesFlow] at flows
    split at ended
    case h_1 idle =>
      cases ended
      exact tracked.frontSent_of_idle idle
    case h_2 cmd rest waiting =>
      rw [waiting] at flows
      have front := (ClBearer.nextToSend_eq_some waiting).1
      dsimp only at ended
      split at ended
      case isTrue again => exact ih (tracked.sendTurn front turn) (flows.2 again) ended
      case isFalse stops =>
        cases ended
        exact sendTurn_frontSent flows.1 stops

theorem gattClSendNextCmdInq_of_frontSent (served : bearer.FrontSent) (turns : List Turn) :
    gattClSendNextCmdInq turns bearer = some bearer := by
  have idle : bearer.nextToSend = none := by
    cases waiting : bearer.nextToSend with
    | none => rfl
    | some pair =>
      obtain ⟨shape, waits⟩ := ClBearer.nextToSend_eq_some waiting
      rw [served pair.1 (by rw [shape, List.head?_cons])] at waits
      cases waits
  cases turns <;> simp [gattClSendNextCmdInq, idle]

theorem ClBearer.FrontSent.step {event : ClEvent} (served : bearer.FrontSent)
    (tracked : Tracked bearer) (regular : Regular bearer event)
    (taken : clStep bearer event = some next) : next.FrontSent := by
  cases event with
  | command command =>
    cases taken
    exact served.attpClSendCmd command
  | response opCode commands turns =>
    obtain ⟨⟨serial, last⟩, handled, rfl⟩ := map_eq_some_iff.mp taken
    by_cases response : opCode ∈ serverInitiated
    · rw [gattClientHandleServerRsp, if_pos response] at handled
      cases handled
      exact served
    obtain ⟨answers, flows⟩ := regular response
    rcases gattClientHandleServerRsp_cases handled response with
      ⟨-, -, ended⟩ | ⟨cmd, rest, front, ⟨-, -, ended⟩ | ⟨wrong, -, -⟩⟩
    · rw [gattClSendNextCmdInq_of_frontSent served] at ended
      exact some.inj ended ▸ served
    · exact ((tracked.popAnswered front).commands commands).sendNext_frontSent
        (flows cmd rest front) ended
    · exact absurd (answers cmd (by rw [front, List.head?_cons])) wrong
  | uncongested turns =>
    rw [clStep, gattClSendNextCmdInq_of_frontSent served] at taken
    exact some.inj taken ▸ served

theorem frontSent_of_regular {events : List ClEvent} (regular : Along clStep Regular .fresh events)
    (reached : run clStep .fresh events = some bearer) : bearer.FrontSent := by
  have kept : ∀ state event next, Tracked state ∧ state.FrontSent → Regular state event →
      clStep state event = some next → Tracked next ∧ next.FrontSent :=
    fun _ _ _ before guard taken =>
      ⟨before.1.step taken, before.2.step before.1 guard taken⟩
  exact (invariant_along kept ⟨tracked_fresh, fun _ first => by cases first⟩ regular reached).2

/--
A response is taken for a command only if the command is sent and not answered, and a
request that is outstanding stays at the front if the response is not one for it.
-/
structure Paired (bearer : ClBearer) (opCode : UInt8) (taken : Option Nat) (next : ClBearer) :
    Prop where
  answers : ∀ serial, taken = some serial → serial ∈ bearer.sent ∧ serial ∉ bearer.answered
  stays : ∀ cmd, bearer.clCmdQ.head? = some cmd → cmd.serial ∈ bearer.sent →
    ¬AnswersCmd opCode cmd → next.clCmdQ.head? = some cmd

/-- The command at the front is one that is sent if and only if the response is one for it. -/
def FitsFront (bearer : ClBearer) (opCode : UInt8) : Prop :=
  ∀ cmd, bearer.clCmdQ.head? = some cmd → (cmd.toSend = false ↔ AnswersCmd opCode cmd)

theorem Tracked.paired_iff (tracked : Tracked bearer) (response : opCode ∉ serverInitiated)
    {commands : List ClCommand}
    (handled : gattClientHandleServerRsp bearer opCode commands turns = some (taken, next)) :
    Paired bearer opCode taken next ↔ FitsFront bearer opCode := by
  rcases gattClientHandleServerRsp_cases handled response with
    ⟨empty, rfl, ended⟩ | ⟨cmd, rest, front, responds⟩
  · have nothing : ∀ cmd, bearer.clCmdQ.head? ≠ some cmd := by
      intro cmd first
      rw [empty] at first
      cases first
    exact iff_of_true ⟨fun serial none => absurd none (some_ne_none serial).symm,
      fun cmd first => absurd first (nothing cmd)⟩ fun cmd first => absurd first (nothing cmd)
  · have first : bearer.clCmdQ.head? = some cmd := by rw [front, List.head?_cons]
    have listed : cmd ∈ bearer.clCmdQ := front ▸ mem_cons_self
    have marked := tracked.marked cmd listed
    have fits : FitsFront bearer opCode ↔ (cmd.toSend = false ↔ AnswersCmd opCode cmd) := by
      refine ⟨fun all => all cmd first, fun this other same => ?_⟩
      cases first.symm.trans same
      exact this
    rw [fits, marked]
    rcases responds with ⟨answers, rfl, -⟩ | ⟨wrong, rfl, rfl⟩
    · rw [iff_true_intro answers, iff_true]
      constructor
      · intro paired
        exact (paired.answers cmd.serial rfl).1
      · intro sent
        refine ⟨fun serial same => ?_, fun other same _ wrong => ?_⟩
        · cases same
          exact ⟨sent, tracked.unanswered cmd listed⟩
        · cases first.symm.trans same
          exact absurd answers wrong
    · rw [iff_false_intro wrong, iff_false]
      constructor
      · intro paired sent
        have ahead := tracked.front_lt front cmd (mem_of_head? (paired.stays cmd first sent wrong))
        exact Nat.lt_irrefl _ ahead
      · intro unsent
        refine ⟨fun serial none => ?_, fun other same sent _ => ?_⟩
        · cases none
        · cases first.symm.trans same
          exact absurd sent unsent

theorem fitsFront_of_regular {events : List ClEvent} (regular : Along clStep Regular .fresh events)
    (reached : run clStep .fresh events = some bearer) :
    FitsFront bearer opCode ↔ AnswersFront bearer opCode := by
  have served := frontSent_of_regular regular reached
  refine forall₂_congr fun cmd first => ?_
  rw [iff_true_intro (served cmd first), true_iff]

/--
In every state that is reached, a response is taken for a request that is outstanding, and a
wrong response leaves it outstanding, if and only if the response fits the command at the
front.  In a regular run this is so if and only if the response is one for that command.
-/
theorem handleServerRsp_paired_iff {events : List ClEvent} {bearer : ClBearer}
    (reached : run clStep .fresh events = some bearer) {opCode : UInt8}
    (response : opCode ∉ serverInitiated) {commands : List ClCommand} {turns : List Turn}
    {taken : Option Nat} {next : ClBearer}
    (handled : gattClientHandleServerRsp bearer opCode commands turns = some (taken, next)) :
    (Paired bearer opCode taken next ↔ FitsFront bearer opCode) ∧
      (Along clStep Regular .fresh events →
        (Paired bearer opCode taken next ↔ AnswersFront bearer opCode)) := by
  have exactly := (tracked_of_run reached).paired_iff response handled
  refine ⟨exactly, fun regular => ?_⟩
  rw [exactly, fitsFront_of_regular regular reached]

/-- Two Read requests, of which the second waits for the response to the first. -/
def twoReads (opCode : UInt8) (turns : List Turn) : List ClEvent :=
  [.command ⟨reqRead, [0x0A, 0x03, 0x00], .success⟩,
    .command ⟨reqRead, [0x0A, 0x05, 0x00], .success⟩, .response opCode [] turns]

theorem handleServerRsp_paired_twoReads :
    run clStep .fresh (twoReads rspRead [⟨.success, []⟩]) =
        some ⟨[⟨1, none, reqRead, false⟩], 2, [0, 1], [0]⟩ ∧
      Paired ⟨[⟨1, none, reqRead, false⟩], 2, [0, 1], [0]⟩ rspRead (some 1)
        ⟨[], 2, [0, 1], [0, 1]⟩ := by
  have reached : run clStep .fresh (twoReads rspRead [⟨.success, []⟩]) =
      some ⟨[⟨1, none, reqRead, false⟩], 2, [0, 1], [0]⟩ := by decide
  have regular : Along clStep Regular .fresh (twoReads rspRead [⟨.success, []⟩]) := by
    refine ⟨trivial, trivial, fun _ => ⟨?_, ?_⟩, trivial⟩
    · rintro _ ⟨⟩
      decide
    · rintro _ _ ⟨⟩
      exact ⟨fun _ => by decide, Bool.noConfusion⟩
  refine ⟨reached, ((@handleServerRsp_paired_iff _ _ reached rspRead (by decide) [] [] (some 1)
    ⟨[], 2, [0, 1], [0, 1]⟩ (by decide)).2 regular).mpr ?_⟩
  rintro _ ⟨⟩
  decide

/--
A Write response is ignored, and the response to the first request is taken for the second
one, which was not sent.
-/
theorem response_taken_for_unsent :
    ∃ bearer next, run clStep .fresh (twoReads rspWrite []) = some bearer ∧
      gattClientHandleServerRsp bearer rspRead [] [] = some (some 1, next) ∧
      ¬Paired bearer rspRead (some 1) next := by
  refine ⟨⟨[⟨1, some [0x0A, 0x05, 0x00], reqRead, true⟩], 2, [0], []⟩, ⟨[], 2, [0], [1]⟩,
    by decide, by decide, fun paired => ?_⟩
  exact absurd (paired.answers 1 rfl).1 (by decide)

end BluetoothFormal.Gatt.Legacy
