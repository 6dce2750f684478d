import Mathlib.Data.List.Basic

/-!
# Event-driven transition systems

A component reacts to one event at a time.  Its step is partial: `none` marks
an event that the state does not admit, such as a callback that is not
registered or a call that trips an assertion.  A run feeds a list of events;
an invariant that every step keeps holds after every run, and a condition on
the state before each step can be required all along a run.
-/

namespace BluetoothFormal.Foundation.Transition

open List Option

variable {State Event : Type}

abbrev PartialStep (State Event : Type) := State → Event → Option State

theorem guarded_eq_some {guard : Prop} [Decidable guard] {state next : State} :
    (if guard then some state else none) = some next ↔ guard ∧ state = next := by
  rw [ite_none_right_eq_some, some.injEq]

/-- Feed events one after another, stopping at the first one not admitted. -/
def run (step : PartialStep State Event) : State → List Event → Option State
  | state, [] => some state
  | state, event :: rest => (step state event).bind fun next => run step next rest

section

variable (step : PartialStep State Event)

theorem run_cons (state : State) (event : Event) (rest : List Event) :
    run step state (event :: rest) = (step state event).bind fun next => run step next rest :=
  rfl

theorem run_append (state : State) (first second : List Event) :
    run step state (first ++ second) =
      (run step state first).bind fun middle => run step middle second := by
  induction first generalizing state with
  | nil => rfl
  | cons event rest ih =>
    rw [cons_append, run_cons, run_cons, bind_assoc]
    exact congrArg _ (funext ih)

theorem run_singleton (state : State) (event : Event) :
    run step state [event] = step state event := by
  rw [run_cons]
  exact bind_fun_some _

end

/-- The condition holds in the state before each step of the run. -/
def Along (step : PartialStep State Event) (guard : State → Event → Prop) :
    State → List Event → Prop
  | _, [] => True
  | state, event :: rest =>
    guard state event ∧ match step state event with
      | none => True
      | some next => Along step guard next rest

instance decidableAlong (step : PartialStep State Event) (guard : State → Event → Prop)
    [∀ state event, Decidable (guard state event)] :
    ∀ (state : State) (events : List Event), Decidable (Along step guard state events)
  | _, [] => isTrue trivial
  | state, event :: rest =>
    @instDecidableAnd _ _ inferInstance (match step state event with
      | none => isTrue trivial
      | some next => decidableAlong step guard next rest)

variable {step : PartialStep State Event} {events : List Event} {guard : State → Event → Prop}
  {first : State} {Invariant : State → Prop}

/-- What every admitted step keeps, under a condition met all along, holds after the run. -/
theorem invariant_along (preserved : ∀ state event next, Invariant state → guard state event →
      step state event = some next → Invariant next) {last : State} (start : Invariant first)
    (guarded : Along step guard first events) (reached : run step first events = some last) :
    Invariant last := by
  induction events generalizing first with
  | nil => exact some.inj reached ▸ start
  | cons event rest ih =>
    obtain ⟨here, after⟩ := guarded
    rw [run_cons] at reached
    cases taken : step first event with
    | none => rw [taken] at reached; cases reached
    | some next =>
      rw [taken] at reached after
      exact ih (preserved first event next start here taken) after reached

theorem along_append {state : State} {first second : List Event}
    (guarded : Along step guard state (first ++ second)) :
    Along step guard state first ∧
      ∀ middle, run step state first = some middle → Along step guard middle second := by
  induction first generalizing state with
  | nil => exact ⟨trivial, fun middle reached => some.inj reached ▸ guarded⟩
  | cons event rest ih =>
    obtain ⟨here, after⟩ := guarded
    cases taken : step state event with
    | none =>
      refine ⟨⟨here, by rw [taken]; trivial⟩, fun middle reached => ?_⟩
      rw [run_cons, taken] at reached
      cases reached
    | some next =>
      rw [append_eq, taken] at after
      obtain ⟨front, back⟩ := ih after
      refine ⟨⟨here, by rw [taken]; exact front⟩, fun middle reached => back middle ?_⟩
      rw [run_cons, taken] at reached
      exact reached

/--
Where a step from a state with the invariant ends in a state with a property exactly if it
meets a condition, and then keeps the invariant, every state that is reached has the property
exactly if the condition is met all along.
-/
theorem along_iff_reached {Property : State → Prop}
    (sound : ∀ state, Invariant state → Property state)
    (preserved : ∀ state event next, Invariant state → guard state event →
      step state event = some next → Invariant next)
    (needed : ∀ state event, Invariant state →
      (∀ next, step state event = some next → Property next) → guard state event)
    (start : Invariant first) :
    Along step guard first events ↔
      ∀ earlier, earlier <+: events → ∀ state, run step first earlier = some state →
        Property state := by
  constructor
  · rintro guarded earlier ⟨later, rfl⟩ state reached
    exact sound state (invariant_along preserved start (along_append guarded).1 reached)
  · intro reached
    induction events generalizing first with
    | nil => trivial
    | cons event rest ih =>
      have here : guard first event := by
        refine needed first event start fun next taken => ?_
        refine reached [event] (prefix_append [event] rest) next ?_
        rw [run_singleton, taken]
      refine ⟨here, ?_⟩
      cases taken : step first event with
      | none => trivial
      | some next =>
        refine ih (preserved first event next start here taken) fun earlier before state ended => ?_
        refine reached (event :: earlier) (cons_prefix_cons.mpr ⟨rfl, before⟩) state ?_
        rw [run_cons, taken]
        exact ended

/-- A condition holds along a run exactly if it holds before the last event of each of its parts. -/
theorem along_iff_steps :
    Along step guard first events ↔ ∀ earlier event, earlier ++ [event] <+: events →
        ∀ state, run step first earlier = some state → guard state event := by
  induction events generalizing first with
  | nil =>
    refine iff_of_true trivial fun earlier event part => ?_
    exact absurd (prefix_nil.mp part) (append_ne_nil_of_right_ne_nil _ (by simp))
  | cons head rest ih =>
    constructor
    · rintro ⟨here, after⟩ earlier event part state reached
      cases earlier with
      | nil =>
        obtain ⟨rfl, -⟩ := cons_prefix_cons.mp part
        cases reached
        exact here
      | cons second earlier =>
        obtain ⟨rfl, inner⟩ := cons_prefix_cons.mp part
        obtain ⟨next, taken, later⟩ := bind_eq_some_iff.mp reached
        rw [taken] at after
        exact ih.mp after earlier event inner state later
    · intro steps
      refine ⟨steps [] head (cons_prefix_cons.mpr ⟨rfl, nil_prefix⟩) first rfl, ?_⟩
      cases taken : step first head with
      | none => trivial
      | some next =>
        refine ih.mpr fun earlier event part state reached => ?_
        refine steps (head :: earlier) event (cons_prefix_cons.mpr ⟨rfl, part⟩) state ?_
        rw [run_cons, taken]
        exact reached

/-- If every event that meets a condition is admitted, so is a run that meets it all along. -/
theorem run_of_along {step : PartialStep State Event} {guard : State → Event → Prop}
    {Invariant : State → Prop}
    (progress : ∀ state event, Invariant state → guard state event →
      ∃ next, step state event = some next ∧ Invariant next)
    {events : List Event} {first : State} (start : Invariant first)
    (guarded : Along step guard first events) :
    ∃ last, run step first events = some last ∧ Invariant last := by
  induction events generalizing first with
  | nil => exact ⟨first, rfl, start⟩
  | cons event rest ih =>
    obtain ⟨here, after⟩ := guarded
    obtain ⟨next, taken, kept⟩ := progress first event start here
    rw [taken] at after
    obtain ⟨last, reached, holds⟩ := ih kept after
    exact ⟨last, by rw [run_cons, taken]; exact reached, holds⟩

theorem along_of_mem (always : ∀ event ∈ events, ∀ state, guard state event) (state : State) :
    Along step guard state events := by
  induction events generalizing state with
  | nil => trivial
  | cons event rest ih =>
    refine ⟨always event (mem_cons_self ..) state, ?_⟩
    cases step state event with
    | none => trivial
    | some next => exact ih (fun other member => always other (mem_cons_of_mem _ member)) next

theorem along_of_forall (always : ∀ state event, guard state event) (state : State)
    (events : List Event) :
    Along step guard state events :=
  along_of_mem (fun event _ state => always state event) state

theorem along_and {other : State → Event → Prop} {state : State}
    (guarded : Along step guard state events) (also : Along step other state events) :
    Along step (fun state event => guard state event ∧ other state event) state events := by
  induction events generalizing state with
  | nil => trivial
  | cons event rest ih =>
    obtain ⟨here, after⟩ := guarded
    obtain ⟨hereToo, afterToo⟩ := also
    refine ⟨⟨here, hereToo⟩, ?_⟩
    cases taken : step state event with
    | none => trivial
    | some next =>
      rw [taken] at after afterToo
      exact ih after afterToo

/-- What every admitted step keeps holds after every run. -/
theorem invariant_run
    (preserved : ∀ state event next, Invariant state → step state event = some next →
      Invariant next) {last : State} (start : Invariant first)
    (reached : run step first events = some last) : Invariant last := by
  have guarded : Along step (fun _ _ => True) first events :=
    along_of_forall (fun _ _ => trivial) first events
  exact invariant_along (fun state event next kept (_ : True) taken =>
    preserved state event next kept taken) start guarded reached

theorem invariant_foldl_mem {step : State → Event → State}
    (preserved : ∀ state, ∀ event ∈ events, Invariant state → Invariant (step state event))
    (start : Invariant first) : Invariant (events.foldl step first) := by
  induction events generalizing first with
  | nil => exact start
  | cons event rest ih =>
    exact ih (fun state other listed => preserved state other (mem_cons_of_mem _ listed))
      (preserved first event mem_cons_self start)

/-- What every step of a total reaction keeps holds after every run. -/
theorem invariant_foldl {step : State → Event → State}
    (preserved : ∀ state event, Invariant state → Invariant (step state event))
    (start : Invariant first) (events : List Event) :
    Invariant (events.foldl step first) :=
  invariant_foldl_mem (fun state event _ => preserved state event) start

end BluetoothFormal.Foundation.Transition
