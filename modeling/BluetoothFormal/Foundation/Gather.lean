import Mathlib.Data.List.Basic

/-!
# Collecting a stream from turns

A source answers turn after turn with a piece of its stream, and each answer tells
whether another turn follows.  If every turn sends something of what remains, the
turns end, and the pieces are the whole stream.
-/

namespace BluetoothFormal.Foundation.Gather

open List Option

variable {State Piece Item : Type}

/-- The pieces of all turns from a turn on; a turn may fail, and the turns may not end. -/
def gather (answer : Nat → State → Option (Piece × Option State)) :
    Nat → Nat → State → Option (List Piece)
  | 0, _, _ => none
  | fuel + 1, turn, state =>
    match answer turn state with
    | none => none
    | some (piece, none) => some [piece]
    | some (piece, some next) => (gather answer fuel (turn + 1) next).map (piece :: ·)

/-- What a turn has to do for a state from which some items remain. -/
structure Delivers (Good : State → Prop) (Fine : Piece → Prop) (items : Piece → List Item)
    (remaining : State → List Item) (state : State) (piece : Piece) (next : Option State) :
    Prop where
  fine : Fine piece
  last : next = none → items piece = remaining state
  more : ∀ later, next = some later →
    Good later ∧ items piece ≠ [] ∧ remaining state = items piece ++ remaining later

variable {remaining : State → List Item} {Good : State → Prop} {items : Piece → List Item}
  {turn : Nat} {state : State} {answer : Nat → State → Option (Piece × Option State)}

theorem gather_of_delivers {Fine : Piece → Prop}
    (delivers : ∀ turn state, Good state → ∃ piece next, answer turn state = some (piece, next) ∧
        Delivers Good Fine items remaining state piece next) {fuel : Nat} (good : Good state)
    (enough : (remaining state).length < fuel) :
    ∃ pieces, gather answer fuel turn state = some pieces ∧ (∀ piece ∈ pieces, Fine piece) ∧
      pieces.flatMap items = remaining state := by
  induction fuel generalizing turn state with
  | zero => exact absurd enough (Nat.not_lt_zero _)
  | succ fuel ih =>
    obtain ⟨piece, next, answered, delivered⟩ := delivers turn state good
    cases next with
    | none =>
      refine ⟨[piece], ?_, ?_, ?_⟩
      · rw [gather, answered]
      · intro other listed
        rw [mem_singleton.mp listed]
        exact delivered.fine
      · rw [flatMap_singleton]
        exact delivered.last rfl
    | some later =>
      obtain ⟨goodLater, some, split⟩ := delivered.more later rfl
      have shorter : (remaining later).length < fuel := by
        have positive := length_pos_iff.mpr some
        rw [split, length_append] at enough
        omega
      obtain ⟨pieces, gathered, fine, whole⟩ := @ih (turn + 1) later goodLater shorter
      refine ⟨piece :: pieces, ?_, ?_, ?_⟩
      · rw [gather, answered]
        simp [gathered]
      · intro other listed
        rcases mem_cons.mp listed with rfl | tail
        · exact delivered.fine
        · exact fine other tail
      · rw [flatMap_cons, whole, split]

/-! ## Turns that may leave something out -/

/-- The turns that are taken from a turn on, with their states. -/
inductive Asked (answer : Nat → State → Option (Piece × Option State)) :
    Nat → State → Nat → State → Prop
  | here (turn : Nat) (state : State) : Asked answer turn state turn state
  | later {turn : Nat} {state next : State} {piece : Piece} {at_ : Nat} {asked : State}
      (answered : answer turn state = some (piece, some next))
      (rest : Asked answer (turn + 1) next at_ asked) : Asked answer turn state at_ asked

/--
What a turn has to do if it may leave items out: it gets on, and if it left nothing out,
the next one goes on with what remains.
-/
structure Resumes (Good : State → Prop) (items : Piece → List Item)
    (remaining : State → List Item) (state : State) (piece : Piece) (next : Option State) :
    Prop where
  last : next = none → items piece = remaining state
  more : ∀ later, next = some later →
    Good later ∧ (remaining later).length < (remaining state).length ∧
      ∀ rest, remaining state = items piece ++ rest → rest = remaining later

section

variable (resumes : ∀ turn state, Good state → ∃ piece next,
  answer turn state = some (piece, next) ∧ Resumes Good items remaining state piece next)
include resumes

theorem Asked.good {at_ : Nat} {asked : State} (turns : Asked answer turn state at_ asked)
    (good : Good state) : Good asked := by
  induction turns with
  | here => exact good
  | @later turn state next _ _ _ answered _ ih =>
    obtain ⟨piece, after, same, resumed⟩ := resumes turn state good
    cases Option.some.inj (same.symm.trans answered)
    exact ih (resumed.more next rfl).1

/-- Such turns end, with all items if and only if no turn left anything out. -/
theorem gather_of_resumes {fuel : Nat} (good : Good state)
    (enough : (remaining state).length < fuel) :
    ∃ pieces, gather answer fuel turn state = some pieces ∧
      (pieces.flatMap items = remaining state ↔
        ∀ at_ asked, Asked answer turn state at_ asked → ∀ piece next,
          answer at_ asked = some (piece, next) → items piece <+: remaining asked) := by
  induction fuel generalizing turn state with
  | zero => exact absurd enough (Nat.not_lt_zero _)
  | succ fuel ih =>
    obtain ⟨piece, next, answered, resumed⟩ := resumes turn state good
    cases next with
    | none =>
      have ended := resumed.last rfl
      refine ⟨[piece], by rw [gather, answered], ?_⟩
      rw [flatMap_singleton]
      refine ⟨fun _ at_ asked turns other next same => ?_, fun _ => ended⟩
      cases turns with
      | here =>
        cases Option.some.inj (answered.symm.trans same)
        exact ended ▸ prefix_refl _
      | later went => cases Option.some.inj (answered.symm.trans went)
    | some later =>
      obtain ⟨goodLater, shorter, behind⟩ := resumed.more later rfl
      obtain ⟨pieces, gathered, whole⟩ := @ih (turn + 1) later goodLater (by omega)
      refine ⟨piece :: pieces, by rw [gather, answered]; simp only [gathered, map_some], ?_⟩
      rw [flatMap_cons]
      constructor
      · intro same at_ asked turns
        have rest := behind _ same.symm
        cases turns with
        | here =>
          intro other next again
          cases Option.some.inj (answered.symm.trans again)
          exact ⟨_, same⟩
        | later went turns =>
          cases Option.some.inj (answered.symm.trans went)
          exact whole.mp rest at_ asked turns
      · intro kept
        obtain ⟨rest, same⟩ := kept turn state (.here turn state) piece (some later) answered
        have onward := whole.mpr fun at_ asked turns => kept at_ asked (.later answered turns)
        rw [onward, ← behind rest same.symm, same]

end

/--
Where each turn either delivers or sends something that does not begin what remains, the pieces
are all items if and only if every turn that is taken delivers.
-/
theorem gather_whole_iff {Clean : State → Prop}
    (clean : ∀ turn state, Good state → Clean state → ∃ piece next,
      answer turn state = some (piece, next) ∧
        Delivers Good (fun _ => True) items remaining state piece next)
    (spoilt : ∀ turn state, Good state → ¬Clean state → ∀ piece next,
      answer turn state = some (piece, next) → ¬items piece <+: remaining state)
    {fuel : Nat} (good : Good state)
    (enough : (remaining state).length < fuel) :
    (∃ pieces, gather answer fuel turn state = some pieces ∧
        pieces.flatMap items = remaining state) ↔
      ∀ at_ asked, Asked answer turn state at_ asked → Clean asked := by
  induction fuel generalizing turn state with
  | zero => exact absurd enough (Nat.not_lt_zero _)
  | succ fuel ih =>
    by_cases isClean : Clean state
    · obtain ⟨piece, next, answered, delivered⟩ := clean turn state good isClean
      cases next with
      | none =>
        refine iff_of_true ⟨[piece], by rw [gather, answered], ?_⟩ fun at_ asked turns => ?_
        · rw [flatMap_singleton]
          exact delivered.last rfl
        · cases turns with
          | here => exact isClean
          | later went => cases Option.some.inj (answered.symm.trans went)
      | some later =>
        obtain ⟨goodLater, some, split⟩ := delivered.more later rfl
        have positive := length_pos_iff.mpr some
        rw [split, length_append] at enough
        have rest := @ih (turn + 1) later goodLater (by omega)
        rw [gather, answered]
        constructor
        · rintro ⟨pieces, gathered, whole⟩ at_ asked turns
          obtain ⟨others, onward, rfl⟩ := map_eq_some_iff.mp gathered
          rw [flatMap_cons, split] at whole
          cases turns with
          | here => exact isClean
          | later went turns =>
            cases Option.some.inj (answered.symm.trans went)
            exact rest.mp ⟨others, onward, append_cancel_left whole⟩ at_ asked turns
        · intro all
          obtain ⟨others, onward, whole⟩ := rest.mpr fun at_ asked turns =>
            all at_ asked (.later answered turns)
          refine ⟨piece :: others, by simp only [onward, map_some], ?_⟩
          rw [flatMap_cons, whole, split]
    · refine iff_of_false ?_ fun all => isClean (all turn state (.here turn state))
      rintro ⟨pieces, gathered, whole⟩
      cases answered : answer turn state with
      | none =>
        rw [gather, answered] at gathered
        cases gathered
      | some reply =>
        obtain ⟨piece, next⟩ := reply
        refine spoilt turn state good isClean piece next answered ?_
        rw [gather, answered] at gathered
        cases next with
        | none =>
          obtain rfl := Option.some.inj gathered
          exact ⟨[], by rw [← whole, flatMap_singleton, append_nil]⟩
        | some later =>
          obtain ⟨others, -, rfl⟩ := map_eq_some_iff.mp gathered
          exact ⟨others.flatMap items, by rw [← whole, flatMap_cons]⟩

end BluetoothFormal.Foundation.Gather
