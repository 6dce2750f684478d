import BluetoothFormal.Foundation.Transition

/-!
# Timeouts of a retransmission channel

Each timeout of a channel in enhanced retransmission mode counts one more try, and a channel
with more tries than the peer allows is disconnected.  Frames of the peer keep the tries within
that limit; from some moment on none arrives any more.
-/

namespace BluetoothFormal.L2cap

open Foundation.Transition List Option Bool

/-- What timeouts read and write: the limit of the peer, and some of the `fcrb`. -/
structure Fcrb where
  maxTransmit : UInt8
  numTries : UInt8
  waitAck : Bool
  srejSent : Bool
  rejSent : Bool
  timerScheduled : Bool
  disconnected : Bool
  deriving DecidableEq

namespace Fcrb

/-- An SDU is written, and a frame may be sent for it; or the timer runs out. -/
inductive Event where
  | write (sends : Bool)
  | timeout
  deriving DecidableEq

variable (fcrb : Fcrb)

/--
A frame of the peer: the final bit, whether it is in order, acknowledges frames, leaves some that
wait, asks for them again or tells that the peer is busy; and the rejections sent after it.
-/
structure Frame where
  final : Bool
  valid : Bool
  acks : Bool
  waiting : Bool
  retransmits : Bool
  busy : Bool
  srejSent : Bool
  rejSent : Bool

/-- `l2c_fcr_send_S_frame` with the poll bit, which restarts the timer. -/
def poll : Fcrb := { fcrb with waitAck := true, timerScheduled := true }

/-- `l2c_fcr_proc_tout` when the timer has run out. -/
def procTout : Fcrb :=
  let counted := { fcrb with
    numTries := if fcrb.maxTransmit ≠ 0 then fcrb.numTries + 1 else fcrb.numTries
    timerScheduled := false }
  if fcrb.maxTransmit ≠ 0 ∧ counted.numTries > fcrb.maxTransmit then
    { counted with disconnected := true }
  else if !fcrb.srejSent && !fcrb.rejSent then counted.poll
  else counted

/--
`l2c_fcr_proc_pdu` with `process_reqseq` and `retransmit_i_frames`; a frame without the final bit
does not end the wait for it.
-/
def procPdu (frame : Frame) : Fcrb :=
  if fcrb.waitAck && !frame.final then fcrb
  else if !frame.valid then { fcrb with waitAck := false, disconnected := true }
  else
    let acked := { fcrb with
      waitAck := false
      numTries := if frame.acks || (fcrb.waitAck && !frame.waiting) then 0 else fcrb.numTries
      timerScheduled := frame.waiting || (!frame.acks && !fcrb.waitAck && fcrb.timerScheduled)
      srejSent := frame.srejSent
      rejSent := frame.rejSent }
    if frame.retransmits && frame.waiting then
      if fcrb.maxTransmit ≠ 0 ∧ acked.numTries ≥ fcrb.maxTransmit then
        { acked with disconnected := true }
      else { acked with numTries := acked.numTries + 1, timerScheduled := true }
    else if frame.busy then { acked with timerScheduled := false }
    else acked

/--
A timeout needs a scheduled timer, and nothing is sent while an acknowledgement is awaited; a
disconnected channel ignores both.
-/
def step (event : Event) : Option Fcrb :=
  if fcrb.disconnected then some fcrb
  else
    match event with
    | .write sends =>
      some { fcrb with timerScheduled := (sends && !fcrb.waitAck) || fcrb.timerScheduled }
    | .timeout =>
      if fcrb.timerScheduled then some fcrb.procTout else none

/-- A step, or a frame of the peer. -/
def anyStep : Event ⊕ Frame → Option Fcrb
  | .inl event => fcrb.step event
  | .inr frame => some (if fcrb.disconnected then fcrb else fcrb.procPdu frame)

/-- A channel that was opened with the limit of the peer. -/
def opening (maxTransmit : UInt8) : Fcrb := ⟨maxTransmit, 0, false, false, false, false, false⟩

/-- The tries are within the limit, and a poll was sent without rejections and with the timer. -/
structure Sound : Prop where
  low : fcrb.maxTransmit ≠ 0 → fcrb.disconnected = false → fcrb.numTries ≤ fcrb.maxTransmit
  polled : fcrb.waitAck = true → fcrb.disconnected = false →
    fcrb.timerScheduled = true ∧ fcrb.srejSent = false ∧ fcrb.rejSent = false

variable {fcrb}

theorem procTout_eq (limited : fcrb.maxTransmit ≠ 0) :
    fcrb.procTout.maxTransmit = fcrb.maxTransmit ∧ fcrb.procTout.numTries = fcrb.numTries + 1 ∧
      (fcrb.procTout.disconnected = true ↔
        fcrb.disconnected = true ∨ fcrb.numTries + 1 > fcrb.maxTransmit) := by
  rw [procTout, if_pos limited]
  split
  case isTrue exceeds => exact ⟨rfl, rfl, iff_of_true rfl (.inr exceeds.2)⟩
  case isFalse within =>
    have low : ¬fcrb.numTries + 1 > fcrb.maxTransmit := fun exceeds => within ⟨limited, exceeds⟩
    split <;> exact ⟨rfl, rfl, (or_iff_left low).symm⟩

theorem Sound.procTout (sound : fcrb.Sound) : fcrb.procTout.Sound := by
  obtain ⟨low, polled⟩ := sound
  constructor <;> grind [Fcrb.procTout, poll]

theorem Sound.procPdu (sound : fcrb.Sound) (opened : fcrb.disconnected = false) (frame : Frame) :
    (fcrb.procPdu frame).Sound := by
  obtain ⟨low, polled⟩ := sound
  constructor <;> grind [Fcrb.procPdu]

theorem Sound.step {event : Event} {next : Fcrb} (sound : fcrb.Sound)
    (moved : fcrb.step event = some next) : next.Sound := by
  rw [Fcrb.step.eq_def] at moved
  split at moved
  · exact some.inj moved ▸ sound
  · cases event with
    | write sends =>
      cases moved
      refine ⟨sound.low, fun waits opened => ?_⟩
      obtain ⟨scheduled, unrejected⟩ := sound.polled waits opened
      exact ⟨or_eq_true_iff.mpr (.inr scheduled), unrejected⟩
    | timeout =>
      obtain ⟨-, ⟨⟩⟩ := ite_none_right_eq_some.mp moved
      exact sound.procTout

theorem sound_of_run {maxTransmit : UInt8} {inputs : List (Event ⊕ Frame)}
    (reached : run anyStep (opening maxTransmit) inputs = some fcrb) : fcrb.Sound := by
  have start : (opening maxTransmit).Sound := ⟨fun _ _ => UInt8.zero_le, by rintro ⟨⟩⟩
  refine invariant_run (fun before input next sound moved => ?_) start reached
  cases input with
  | inl event => exact sound.step moved
  | inr frame =>
    cases moved
    split
    case isTrue => exact sound
    case isFalse opened => exact sound.procPdu (eq_false_iff.mpr opened) frame

variable {after : Fcrb} {events : List Event}

theorem disconnected_of_run (gone : fcrb.disconnected = true)
    (reached : run step fcrb events = some after) : after.disconnected = true := by
  have stays : ∀ (fcrb : Fcrb) event next, fcrb.disconnected = true →
      fcrb.step event = some next → next.disconnected = true := by
    intro fcrb event next gone stepped
    rw [step.eq_def, if_pos gone] at stepped
    exact some.inj stepped ▸ gone
  exact invariant_run stays gone reached

theorem run_counted (limited : fcrb.maxTransmit ≠ 0)
    (low : fcrb.numTries ≤ fcrb.maxTransmit) (small : fcrb.maxTransmit ≠ 255)
    (reached : run step fcrb events = some after) (opened : after.disconnected ≠ true) :
    fcrb.numTries.toNat + events.count .timeout ≤ fcrb.maxTransmit.toNat := by
  induction events generalizing fcrb with
  | nil => exact UInt8.le_iff_toNat_le.mp low
  | cons event rest ih =>
    have still : fcrb.disconnected ≠ true := fun gone => opened (disconnected_of_run gone reached)
    rw [run_cons, step.eq_def, if_neg still] at reached
    cases event with
    | write sends =>
      rw [count_cons_of_ne (by nofun)]
      exact @ih { fcrb with timerScheduled := (sends && !fcrb.waitAck) || fcrb.timerScheduled }
        limited low small reached
    | timeout =>
      obtain ⟨next, taken, later⟩ := bind_eq_some_iff.mp reached
      obtain ⟨-, ⟨⟩⟩ := ite_none_right_eq_some.mp taken
      obtain ⟨same, counted, ends⟩ := procTout_eq limited
      have within : fcrb.numTries + 1 ≤ fcrb.maxTransmit := by
        refine UInt8.not_lt.mp fun exceeds => opened ?_
        exact disconnected_of_run (ends.mpr (.inr exceeds)) later
      have rest := ih (by rwa [same]) (by rwa [same, counted]) (by rwa [same]) later
      rw [same, counted] at rest
      rw [count_cons_self]
      have bound := UInt8.le_iff_toNat_le.mp low
      have apart : fcrb.maxTransmit.toNat ≠ 255 := fun same => small (UInt8.toNat_inj.mp same)
      have limit := fcrb.maxTransmit.toNat_lt
      rw [UInt8.toNat_add, UInt8.toNat_one, Nat.mod_eq_of_lt (by omega)] at rest
      omega

theorem timeouts_endless (sound : fcrb.Sound) (greatest : fcrb.maxTransmit = 255)
    (opened : fcrb.disconnected = false) (number : Nat) :
    ∃ events after, run step fcrb events = some after ∧ events.count .timeout = number ∧
      after.disconnected = false := by
  induction number generalizing fcrb with
  | zero => exact ⟨[], fcrb, rfl, rfl, opened⟩
  | succ number ih =>
    have scheduled : { fcrb with timerScheduled := true }.Sound :=
      ⟨sound.low, fun waits opened => ⟨rfl, (sound.polled waits opened).2⟩⟩
    obtain ⟨same, -, ends⟩ :=
      @procTout_eq { fcrb with timerScheduled := true } (greatest ▸ by decide)
    have goes : { fcrb with timerScheduled := true }.procTout.disconnected = false := by
      refine eq_false_iff.mpr fun gone => ?_
      rcases ends.mp gone with before | exceeds
      · exact false_ne_true (opened.symm.trans before)
      · rw [greatest] at exceeds
        exact Nat.not_lt.mpr (Nat.le_of_lt_succ (UInt8.toNat_lt _)) (UInt8.lt_iff_toNat_lt.mp exceeds)
    obtain ⟨events, after, reached, counted, last⟩ := ih scheduled.procTout (same.trans greatest) goes
    refine ⟨.write true :: .timeout :: events, after, ?_, ?_, last⟩
    · have still : fcrb.disconnected ≠ true := eq_false_iff.mp opened
      have set : ((true && !fcrb.waitAck) || fcrb.timerScheduled) = true := by
        cases waits : fcrb.waitAck with
        | false => rfl
        | true => exact (sound.polled waits opened).1
      rw [run_cons, step.eq_def, if_neg still, bind_some, set, run_cons, step.eq_def, if_neg still]
      exact reached
    · rw [count_cons_of_ne (by nofun), count_cons_self, counted]

/--
A channel that no frame reaches any more is disconnected after more timeouts than its limit,
whatever is written between them, exactly if the limit is not the greatest.
-/
theorem timeouts_disconnect_iff {maxTransmit : UInt8} {inputs : List (Event ⊕ Frame)}
    (reached : run anyStep (opening maxTransmit) inputs = some fcrb)
    (limited : fcrb.maxTransmit ≠ 0) (opened : fcrb.disconnected = false) :
    (∀ events after, run step fcrb events = some after →
      fcrb.maxTransmit.toNat < events.count .timeout → after.disconnected = true) ↔
      fcrb.maxTransmit ≠ 255 := by
  have sound := sound_of_run reached
  constructor
  · intro ends greatest
    obtain ⟨events, after, reached, counted, still⟩ := timeouts_endless sound greatest opened 256
    have gone := ends events after reached (by rw [greatest, counted]; decide)
    exact false_ne_true (still.symm.trans gone)
  · intro small events after reached many
    by_contra still
    have few := run_counted limited (sound.low limited opened) small reached still
    omega

/-- The peer acknowledges a frame and leaves one that waits; then it is silent. -/
theorem timeouts_disconnect_iff_oneTry :
    ∃ fcrb, run anyStep (opening 1) [.inl (.write true),
        .inr ⟨false, true, true, true, false, false, false, false⟩] = some fcrb ∧
      (run step fcrb [.timeout, .timeout]).map disconnected = some true :=
  ⟨_, rfl, congrArg some ((@timeouts_disconnect_iff _ 1 [.inl (.write true),
    .inr ⟨false, true, true, true, false, false, false, false⟩] rfl (by decide) rfl).mpr (by decide)
      [.timeout, .timeout] _ rfl (by decide))⟩

theorem timeouts_wrap :
    run step ⟨255, 0, false, false, false, true, false⟩ (replicate 256 .timeout) =
      some ⟨255, 0, true, false, false, true, false⟩ := by
  decide +kernel

end Fcrb

end BluetoothFormal.L2cap
