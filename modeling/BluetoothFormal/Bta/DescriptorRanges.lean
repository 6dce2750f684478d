import BluetoothFormal.Bta.GattDatabase

/-!
# Exploring descriptors

The descriptors of a service are asked for one range after the other.  A range lies between
the value of a characteristic and the next declaration, and a cursor remembers how far the
exploration has come.
-/

namespace BluetoothFormal.Bta

open Gatt.Legacy List DatabaseBuilder

variable {chars : List Characteristic}

def exploreEnd : Nat × Nat := (handleMax, handleMax)

def lastHandle (endHandle : Nat) : List Characteristic → Nat
  | [] => endHandle
  | next :: _ => (next.declarationHandle + 0xFFFF) % 0x10000

/-- The loop of `NextDescriptorRangeToExplore`. -/
def nextRange (endHandle pending : Nat) : List Characteristic → Option (Nat × Nat)
  | [] => none
  | char :: rest =>
    if char.declarationHandle > pending then
      -- the value follows the declaration, and the first descriptor follows the value
      let first := (char.declarationHandle + 2) % 0x10000
      if first > lastHandle endHandle rest then nextRange endHandle pending rest
      else some (first, lastHandle endHandle rest)
    else nextRange endHandle pending rest

namespace DatabaseBuilder

/-- The loop of `StartNextServiceExploration` over the services that remain. -/
def exploreServices (builder : DatabaseBuilder) : List (Nat × Nat) → Bool × DatabaseBuilder
  | [] => (false, { builder with servicesToDiscover := [] })
  | range :: rest =>
    -- nothing to explore
    if range.1 = range.2 then exploreServices { builder with pendingService := range } rest
    else
      (true,
        { builder with
          pendingService := range
          pendingCharacteristic := handleMin
          servicesToDiscover := rest })

def startNextServiceExploration (builder : DatabaseBuilder) : Bool × DatabaseBuilder :=
  builder.exploreServices builder.servicesToDiscover

def nextDescriptorRangeToExplore (builder : DatabaseBuilder) : (Nat × Nat) × DatabaseBuilder :=
  match findService builder.services builder.pendingService.1 with
  | none => (exploreEnd, builder)
  | some service =>
    if service.characteristics = [] then (exploreEnd, builder)
    else
      match nextRange service.endHandle builder.pendingCharacteristic service.characteristics with
      | none => (exploreEnd, { builder with pendingCharacteristic := handleMax })
      | some range => (range, { builder with pendingCharacteristic := range.1 })

/-- The ranges of repeated calls before the end, if it is reached with the calls allowed. -/
def explore : Nat → DatabaseBuilder → Option (List (Nat × Nat))
  | 0, _ => none
  | calls + 1, builder =>
    if builder.nextDescriptorRangeToExplore.1 = exploreEnd then some []
    else
      (explore calls builder.nextDescriptorRangeToExplore.2).map
        (builder.nextDescriptorRangeToExplore.1 :: ·)

end DatabaseBuilder

def spans (endHandle : Nat) : List Characteristic → List (Characteristic × Nat)
  | [] => []
  | char :: rest => (char, lastHandle endHandle rest) :: spans endHandle rest

def Service.DescriptorHandle (service : Service) (handle : Nat) : Prop :=
  ∃ span ∈ spans service.endHandle service.characteristics,
    span.1.valueHandle < handle ∧ handle ≤ span.2

/-- The exploration ends, and has covered exactly the handles of descriptors. -/
def Explores (builder : DatabaseBuilder) (service : Service) : Prop :=
  ∃ calls ranges, builder.explore calls = some ranges ∧ (∀ range ∈ ranges, range.1 ≤ range.2) ∧
    (ranges.Pairwise fun first second => first.2 < second.1) ∧
    ∀ handle, (∃ range ∈ ranges, range.1 ≤ handle ∧ handle ≤ range.2) ↔
      service.DescriptorHandle handle

/-- Ascending declarations in the range of a service, each followed by its value. -/
structure Service.Declared (service : Service) : Prop where
  word : service.endHandle ≤ 0xFFFF
  inside : ∀ char ∈ service.characteristics,
    service.handle ≤ char.declarationHandle ∧ char.declarationHandle ≤ service.endHandle
  declared : ∀ char ∈ service.characteristics, char.declarationHandle ≤ 0xFFFE
  value : ∀ char ∈ service.characteristics, char.valueHandle = char.declarationHandle + 1
  ascending : service.characteristics.Pairwise fun first second =>
    first.declarationHandle < second.declarationHandle

/--
No characteristic is declared at `0xFFFE`, and one with room for descriptors is declared neither
at `0xFFFD` nor where the cursor starts.
-/
def Service.Explorable (service : Service) : Prop :=
  ∀ span ∈ spans service.endHandle service.characteristics,
    span.1.declarationHandle ≠ 0xFFFE ∧ (span.1.declarationHandle + 2 ≤ span.2 →
        handleMin < span.1.declarationHandle ∧ span.1.declarationHandle ≠ 0xFFFD)

/-- Spans that follow each other. -/
structure Spread (parts : List (Characteristic × Nat)) : Prop where
  apart : parts.Pairwise fun first second => first.2 < second.1.declarationHandle
  ordered : ∀ span ∈ parts, span.1.declarationHandle ≤ span.2
  word : ∀ span ∈ parts, span.2 ≤ 0xFFFF
  declared : ∀ span ∈ parts, span.1.declarationHandle ≤ 0xFFFE
  value : ∀ span ∈ parts, span.1.valueHandle = span.1.declarationHandle + 1

theorem mem_of_mem_spans {endHandle : Nat}
    {span : Characteristic × Nat} (listed : span ∈ spans endHandle chars) : span.1 ∈ chars := by
  induction chars with
  | nil => exact absurd listed not_mem_nil
  | cons char rest ih =>
    rcases mem_cons.mp listed with rfl | later
    · exact mem_cons_self
    · exact mem_cons_of_mem _ (ih later)

theorem spread_spans {endHandle : Nat} (word : endHandle ≤ 0xFFFF)
    (inside : ∀ char ∈ chars, char.declarationHandle ≤ endHandle)
    (declared : ∀ char ∈ chars, char.declarationHandle ≤ 0xFFFE)
    (ascending : chars.Pairwise fun first second =>
      first.declarationHandle < second.declarationHandle) :
    ((spans endHandle chars).Pairwise fun first second => first.2 < second.1.declarationHandle) ∧
      ∀ span ∈ spans endHandle chars, span.1.declarationHandle ≤ span.2 ∧ span.2 ≤ 0xFFFF := by
  induction chars with
  | nil => exact ⟨.nil, fun _ listed => absurd listed not_mem_nil⟩
  | cons char rest ih =>
    obtain ⟨before, later⟩ := pairwise_cons.mp ascending
    obtain ⟨apart, bounds⟩ := ih (fun other mem => inside other (mem_cons_of_mem _ mem))
      (fun other mem => declared other (mem_cons_of_mem _ mem)) later
    cases rest with
    | nil =>
      refine ⟨pairwise_singleton .., fun span listed => ?_⟩
      rw [mem_singleton.mp listed]
      exact ⟨inside char mem_cons_self, word⟩
    | cons next rest =>
      have follows := before next mem_cons_self
      have small := declared next (mem_cons_of_mem _ mem_cons_self)
      have last : lastHandle endHandle (next :: rest) = next.declarationHandle - 1 := by
        rw [lastHandle]
        omega
      refine ⟨pairwise_cons.mpr ⟨fun span listed => ?_, apart⟩, fun span listed => ?_⟩
      · rw [last]
        rcases mem_cons.mp listed with rfl | behind
        · show next.declarationHandle - 1 < next.declarationHandle
          omega
        · have := (pairwise_cons.mp later).1 span.1 (mem_of_mem_spans behind)
          omega
      · rcases mem_cons.mp listed with rfl | behind
        · rw [last]
          show char.declarationHandle ≤ _ ∧ _
          omega
        · exact bounds span behind

variable {service : Service} {builder : DatabaseBuilder}

theorem Service.Declared.spread (declared : service.Declared) :
    Spread (spans service.endHandle service.characteristics) := by
  obtain ⟨apart, bounds⟩ := spread_spans declared.word
    (fun char listed => (declared.inside char listed).2) declared.declared declared.ascending
  exact ⟨apart, fun span listed => (bounds span listed).1, fun span listed => (bounds span listed).2,
    fun span listed => declared.declared span.1 (mem_of_mem_spans listed),
    fun span listed => declared.value span.1 (mem_of_mem_spans listed)⟩

/-- Two spans share no handle. -/
def Apart (first second : Characteristic × Nat) : Prop :=
  first.2 < second.1.declarationHandle ∨ second.2 < first.1.declarationHandle

instance : Std.Symm Apart := ⟨fun _ _ => Or.symm⟩

variable {parts : List (Characteristic × Nat)} {range : Nat × Nat}

theorem Spread.apart_of_ne (spread : Spread parts) {first second : Characteristic × Nat}
    (one : first ∈ parts) (other : second ∈ parts) (differ : first ≠ second) :
    Apart first second := by
  have pairwise : parts.Pairwise Apart := spread.apart.imp fun before => .inl before
  exact pairwise.forall one other differ

/-- The range of a characteristic that is ahead of the cursor and has room for descriptors. -/
def rangeOf (pending : Nat) (span : Characteristic × Nat) : Option (Nat × Nat) :=
  if span.1.declarationHandle > pending ∧ (span.1.declarationHandle + 2) % 0x10000 ≤ span.2 then
    some ((span.1.declarationHandle + 2) % 0x10000, span.2)
  else none

def rangesAhead (pending : Nat) (parts : List (Characteristic × Nat)) : List (Nat × Nat) :=
  parts.filterMap (rangeOf pending)

theorem nextRange_eq_head (endHandle pending : Nat) (chars : List Characteristic) :
    nextRange endHandle pending chars = (rangesAhead pending (spans endHandle chars)).head? := by
  induction chars with
  | nil => rfl
  | cons char rest ih =>
    rw [nextRange, spans, rangesAhead, filterMap_cons, rangeOf]
    by_cases ahead : char.declarationHandle > pending
    · by_cases room : (char.declarationHandle + 2) % 0x10000 ≤ lastHandle endHandle rest
      · rw [if_pos ahead, if_neg (Nat.not_lt.mpr room), if_pos ⟨ahead, room⟩]
        rfl
      · rw [if_pos ahead, if_pos (Nat.not_le.mp room), if_neg fun both => room both.2]
        exact ih
    · rw [if_neg ahead, if_neg fun both => ahead both.1]
      exact ih

theorem mem_rangesAhead {pending : Nat} :
    range ∈ rangesAhead pending parts ↔ ∃ span ∈ parts,
      span.1.declarationHandle > pending ∧ (span.1.declarationHandle + 2) % 0x10000 ≤ span.2 ∧
        range = ((span.1.declarationHandle + 2) % 0x10000, span.2) := by
  rw [rangesAhead, mem_filterMap]
  refine exists_congr fun span => and_congr_right fun _ => ?_
  rw [rangeOf]
  split
  case isTrue both =>
    rw [Option.some_inj, eq_comm]
    exact ⟨fun same => ⟨both.1, both.2, same⟩, fun all => all.2.2⟩
  case isFalse none =>
    exact ⟨fun same => absurd same (by rintro ⟨⟩), fun all => absurd ⟨all.1, all.2.1⟩ none⟩

theorem rangesAhead_congr {one other : Nat}
    (ahead : ∀ span ∈ parts, one < span.1.declarationHandle ∧ other < span.1.declarationHandle) :
    rangesAhead one parts = rangesAhead other parts := by
  refine filterMap_congr fun span listed => ?_
  rw [rangeOf, rangeOf]
  refine if_congr (and_congr_left fun _ => ?_) rfl rfl
  exact ⟨fun _ => (ahead span listed).2, fun _ => (ahead span listed).1⟩

theorem rangesAhead_tail {pending : Nat} {tail : List (Nat × Nat)} (spread : Spread parts)
    (below : ∀ span ∈ parts, span.1.declarationHandle ≠ 0xFFFE)
    (ahead : rangesAhead pending parts = range :: tail) : rangesAhead range.1 parts = tail := by
  induction parts with
  | nil => cases ahead
  | cons span rest ih =>
    obtain ⟨before, apart⟩ := pairwise_cons.mp spread.apart
    have declared := spread.declared span mem_cons_self
    have own := below span mem_cons_self
    have later : Spread rest :=
      ⟨apart, fun other mem => spread.ordered other (mem_cons_of_mem _ mem),
        fun other mem => spread.word other (mem_cons_of_mem _ mem),
        fun other mem => spread.declared other (mem_cons_of_mem _ mem),
        fun other mem => spread.value other (mem_cons_of_mem _ mem)⟩
    rw [rangesAhead, filterMap_cons] at ahead
    rw [rangesAhead, filterMap_cons]
    by_cases here : span.1.declarationHandle > pending ∧
        (span.1.declarationHandle + 2) % 0x10000 ≤ span.2
    · rw [rangeOf, if_pos here] at ahead
      obtain ⟨rfl, rfl⟩ := List.cons.inj ahead
      have passed : ¬(span.1.declarationHandle > (span.1.declarationHandle + 2) % 0x10000 ∧
          (span.1.declarationHandle + 2) % 0x10000 ≤ span.2) := by omega
      rw [rangeOf, if_neg passed]
      refine rangesAhead_congr fun other mem => ?_
      have := before other mem
      omega
    · rw [rangeOf, if_neg here] at ahead
      have rest : rangesAhead pending rest = range :: tail := ahead
      obtain ⟨source, listed, -, -, rfl⟩ := mem_rangesAhead.mp
        (show range ∈ rangesAhead pending _ by rw [rest]; exact mem_cons_self)
      have follows := before source listed
      have small := spread.declared source (mem_cons_of_mem _ listed)
      have other := below source (mem_cons_of_mem _ listed)
      have passed : ¬(span.1.declarationHandle > (source.1.declarationHandle + 2) % 0x10000 ∧
          (span.1.declarationHandle + 2) % 0x10000 ≤ span.2) := by omega
      rw [rangeOf, if_neg passed]
      exact ih later (fun other mem => below other (mem_cons_of_mem _ mem)) rest

namespace DatabaseBuilder

variable {builder : DatabaseBuilder} {service : Service}
  (found : findService builder.services builder.pendingService.1 = some service)

include found

theorem next_of_none (none : rangesAhead builder.pendingCharacteristic
      (spans service.endHandle service.characteristics) = []) :
    builder.nextDescriptorRangeToExplore.1 = exploreEnd := by
  rw [nextDescriptorRangeToExplore, found]
  dsimp only
  split
  · rfl
  · rw [nextRange_eq_head, none]
    rfl

theorem next_of_ahead {tail : List (Nat × Nat)} (ahead : rangesAhead builder.pendingCharacteristic
      (spans service.endHandle service.characteristics) = range :: tail) :
    builder.nextDescriptorRangeToExplore =
      (range, { builder with pendingCharacteristic := range.1 }) := by
  have some : service.characteristics ≠ [] := by
    intro empty
    rw [empty] at ahead
    cases ahead
  rw [nextDescriptorRangeToExplore, found]
  dsimp only
  rw [if_neg some, nextRange_eq_head, ahead]
  rfl

section

variable (spread : Spread (spans service.endHandle service.characteristics))
  (below : ∀ span ∈ spans service.endHandle service.characteristics,
    span.1.declarationHandle ≠ 0xFFFE)
include spread below

theorem explore_rangesAhead {ranges : List (Nat × Nat)}
    (ahead : rangesAhead builder.pendingCharacteristic
      (spans service.endHandle service.characteristics) = ranges) (proper : exploreEnd ∉ ranges) :
    builder.explore (ranges.length + 1) = some ranges := by
  induction ranges generalizing builder with
  | nil => rw [explore, if_pos (next_of_none found ahead)]
  | cons range tail ih =>
    have going : range ≠ exploreEnd := by
      rintro rfl
      exact proper mem_cons_self
    rw [length_cons, explore, next_of_ahead found ahead, if_neg going]
    rw [@ih { builder with pendingCharacteristic := range.1 } found
      (rangesAhead_tail spread below ahead) fun mem => proper (mem_cons_of_mem _ mem)]
    rfl

theorem mem_explore {calls : Nat} {ranges : List (Nat × Nat)}
    (ended : builder.explore calls = some ranges) (listed : range ∈ ranges) :
    range ≠ exploreEnd ∧ range ∈ rangesAhead builder.pendingCharacteristic
      (spans service.endHandle service.characteristics) := by
  induction calls generalizing builder ranges with
  | zero => cases ended
  | succ calls ih =>
    rw [explore] at ended
    split at ended
    · cases ended
      exact absurd listed not_mem_nil
    case isFalse going =>
      cases ahead : rangesAhead builder.pendingCharacteristic
          (spans service.endHandle service.characteristics) with
      | nil => exact absurd (next_of_none found ahead) going
      | cons first tail =>
        rw [next_of_ahead found ahead] at ended going
        obtain ⟨others, rest, rfl⟩ := Option.map_eq_some_iff.mp ended
        rcases mem_cons.mp listed with rfl | behind
        · exact ⟨going, mem_cons_self⟩
        · obtain ⟨proper, mem⟩ :=
            @ih { builder with pendingCharacteristic := first.1 } found _ rest behind
          rw [rangesAhead_tail spread below ahead] at mem
          exact ⟨proper, mem_cons_of_mem _ mem⟩

omit below in
/-- A declaration at `0xFFFE` puts the cursor back to zero, and the end is never reached. -/
theorem explore_top {top : Characteristic × Nat}
    (listed : top ∈ spans service.endHandle service.characteristics)
    (high : top.1.declarationHandle = 0xFFFE) (low : builder.pendingCharacteristic ≤ 0xFFFD)
    (calls : Nat) : builder.explore calls = none := by
  induction calls generalizing builder with
  | zero => rfl
  | succ calls ih =>
    have start : (0, top.2) ∈ rangesAhead builder.pendingCharacteristic
        (spans service.endHandle service.characteristics) := by
      refine mem_rangesAhead.mpr ⟨top, listed, ?_, ?_, ?_⟩ <;> rw [high]
      · omega
      · exact Nat.zero_le _
    obtain ⟨range, tail, ahead⟩ := exists_cons_of_ne_nil (ne_nil_of_mem start)
    have small : range.1 ≤ 0xFFFD := by
      obtain ⟨source, mem, -, room, rfl⟩ := mem_rangesAhead.mp
        (ahead ▸ mem_cons_self : range ∈ rangesAhead _ _)
      show (source.1.declarationHandle + 2) % 0x10000 ≤ 0xFFFD
      have ordered := spread.ordered top listed
      by_cases same : source = top
      · rw [same, high]
        decide
      · have declared := spread.declared source mem
        rcases spread.apart_of_ne mem listed same with before | behind
        · omega
        · omega
    have going : range ≠ exploreEnd := by
      rintro rfl
      exact absurd small (by decide)
    rw [explore, next_of_ahead found ahead, if_neg going]
    exact congrArg _ (@ih { builder with pendingCharacteristic := range.1 } found small)

end

end DatabaseBuilder

theorem mem_rangesAhead_handleMin {parts : List (Characteristic × Nat)} (spread : Spread parts)
    (clear : ∀ span ∈ parts, span.1.declarationHandle ≠ 0xFFFE ∧
      (span.1.declarationHandle + 2 ≤ span.2 →
        handleMin < span.1.declarationHandle ∧ span.1.declarationHandle ≠ 0xFFFD))
    {range : Nat × Nat} :
    range ∈ rangesAhead handleMin parts ↔ ∃ span ∈ parts,
      span.1.declarationHandle + 2 ≤ span.2 ∧ range = (span.1.declarationHandle + 2, span.2) := by
  rw [mem_rangesAhead]
  refine exists_congr fun span => and_congr_right fun listed => ?_
  have declared := spread.declared span listed
  have below := (clear span listed).1
  have noWrap : (span.1.declarationHandle + 2) % 0x10000 = span.1.declarationHandle + 2 := by omega
  rw [noWrap]
  exact ⟨fun all => all.2, fun both => ⟨((clear span listed).2 both.1).1, both⟩⟩

theorem pairwise_rangesAhead (spread : Spread parts)
    (below : ∀ span ∈ parts, span.1.declarationHandle ≠ 0xFFFE) (pending : Nat) :
    (rangesAhead pending parts).Pairwise fun first second => first.2 < second.1 := by
  refine pairwise_filterMap.mpr (spread.apart.imp_of_mem ?_)
  intro first second _ listed before range taken other also
  have declared := spread.declared second listed
  have high := below second listed
  rw [rangeOf] at taken also
  split at taken
  case isFalse => cases taken
  split at also
  case isFalse => cases also
  cases taken
  cases also
  omega

section

variable (found : findService builder.services builder.pendingService.1 = some service)
  (started : builder.pendingCharacteristic = handleMin) (declared : service.Declared)
include found started declared

theorem explores_of_explorable (clear : service.Explorable) : Explores builder service := by
  have spread := declared.spread
  have below : ∀ span ∈ spans service.endHandle service.characteristics,
      span.1.declarationHandle ≠ 0xFFFE := fun span listed => (clear span listed).1
  have ranges := fun range => @mem_rangesAhead_handleMin _ spread clear range
  have proper : exploreEnd ∉ rangesAhead handleMin
      (spans service.endHandle service.characteristics) := by
    intro listed
    obtain ⟨span, mem, room, same⟩ := (ranges _).mp listed
    have high : 0xFFFF = span.1.declarationHandle + 2 := congrArg Prod.fst same
    exact ((clear span mem).2 room).2 (by omega)
  refine ⟨_, _, explore_rangesAhead found spread below (by rw [started]) proper, ?_,
    pairwise_rangesAhead spread below _, fun handle => ⟨?_, ?_⟩⟩
  · intro range listed
    obtain ⟨span, mem, room, rfl⟩ := (ranges range).mp listed
    exact room
  · rintro ⟨range, listed, first, last⟩
    obtain ⟨span, mem, -, rfl⟩ := (ranges range).mp listed
    have value := spread.value span mem
    exact ⟨span, mem, by rw [value]; exact first, last⟩
  · rintro ⟨span, mem, value, last⟩
    rw [spread.value span mem] at value
    exact ⟨_, (ranges _).mpr ⟨span, mem, Nat.le_trans value last, rfl⟩, value, last⟩

theorem explorable_of_explores (explores : Explores builder service) : service.Explorable := by
  obtain ⟨calls, ranges, ended, -, -, covers⟩ := explores
  have spread := declared.spread
  have below : ∀ span ∈ spans service.endHandle service.characteristics,
      span.1.declarationHandle ≠ 0xFFFE := by
    intro span listed high
    rw [explore_top found spread listed high (by rw [started]; decide)] at ended
    cases ended
  have returned : ∀ range ∈ ranges, range ≠ exploreEnd ∧ ∃ span ∈
      spans service.endHandle service.characteristics, handleMin < span.1.declarationHandle ∧
        range = (span.1.declarationHandle + 2, span.2) := by
    intro range listed
    obtain ⟨proper, ahead⟩ := mem_explore found spread below ended listed
    rw [started] at ahead
    obtain ⟨span, mem, beyond, -, rfl⟩ := mem_rangesAhead.mp ahead
    have small := spread.declared span mem
    have high := below span mem
    refine ⟨proper, span, mem, beyond, ?_⟩
    rw [Nat.mod_eq_of_lt (by omega)]
  intro span listed
  refine ⟨below span listed, fun room => ⟨?_, fun high => ?_⟩⟩
  · -- the first descriptor of a characteristic the cursor starts behind
    have value := spread.value span listed
    obtain ⟨range, mem, first, -⟩ := (covers (span.1.declarationHandle + 2)).mpr
      ⟨span, listed, by omega, room⟩
    obtain ⟨-, source, -, beyond, rfl⟩ := returned range mem
    exact Nat.lt_of_lt_of_le beyond (Nat.le_of_add_le_add_right first)
  · -- the range of the last handle alone is the end marker
    have word := spread.word span listed
    have value := spread.value span listed
    obtain ⟨range, mem, -, last⟩ := (covers 0xFFFF).mpr ⟨span, listed, by omega, by omega⟩
    obtain ⟨proper, source, own, -, rfl⟩ := returned range mem
    have declared := spread.declared source own
    by_cases same : source = span
    · subst same
      have full : source.2 = 0xFFFF := by omega
      exact proper (by rw [full, high]; rfl)
    · rcases spread.apart_of_ne own listed same with before | behind <;> omega

end

theorem exploreServices_pending {before : DatabaseBuilder} {left : List (Nat × Nat)}
    (started : before.exploreServices left = (true, builder)) :
    builder.pendingCharacteristic = handleMin := by
  induction left generalizing before with
  | nil => cases started
  | cons range rest ih =>
    rw [exploreServices] at started
    split at started
    · exact ih started
    · cases started
      rfl

/--
When the exploration of a service starts, repeated calls end and cover exactly the handles of
descriptors if and only if the declarations leave out the handles at which the cursor fails.
-/
theorem explores_iff_explorable {before builder : DatabaseBuilder} {service : Service}
    (started : before.startNextServiceExploration = (true, builder))
    (found : findService builder.services builder.pendingService.1 = some service)
    (declared : service.Declared) : Explores builder service ↔ service.Explorable := by
  have cursor := exploreServices_pending started
  exact ⟨explorable_of_explores found cursor declared, explores_of_explorable found cursor declared⟩

/-- A builder that has found one service, with characteristics declared at some handles. -/
def builderOf (service : Service) : DatabaseBuilder :=
  { empty with
    services := [service], servicesToDiscover := [(service.handle, service.endHandle)] }

def declaredAt (handle : Nat) : Characteristic := ⟨handle, from16Bit 0x2A19, handle + 1, 0x12, []⟩

def batteryService : Service :=
  ⟨1, from16Bit 0x180F, true, 9, [], [declaredAt 2, declaredAt 4, declaredAt 7]⟩

theorem batteryService_explores :
    Explores (builderOf batteryService).startNextServiceExploration.2 batteryService := by
  have declared : batteryService.Declared :=
    ⟨by decide, by decide, by decide, by decide, by decide⟩
  have clear : batteryService.Explorable := by
    rw [Service.Explorable]
    decide
  exact (@explores_iff_explorable (builderOf batteryService) _ _ rfl rfl declared).mpr clear

/-- A service at the end of the handles, with one characteristic. -/
def topService (handle : Nat) : Service :=
  ⟨0xFFF0, from16Bit 0x180F, true, 0xFFFF, [], [declaredAt handle]⟩

/--
A descriptor at `0xFFFF` is not explored, as its range is the end marker; and with a declaration
at `0xFFFE` the exploration does not end.
-/
theorem top_not_explored :
    ((topService 0xFFFD).Declared ∧
      ¬Explores (builderOf (topService 0xFFFD)).startNextServiceExploration.2
        (topService 0xFFFD)) ∧ ((topService 0xFFFE).Declared ∧
      ¬Explores (builderOf (topService 0xFFFE)).startNextServiceExploration.2
        (topService 0xFFFE)) := by
  have lost : (topService 0xFFFD).Declared :=
    ⟨by decide, by decide, by decide, by decide, by decide⟩
  have endless : (topService 0xFFFE).Declared :=
    ⟨by decide, by decide, by decide, by decide, by decide⟩
  refine ⟨⟨lost, fun explores => ?_⟩, endless, fun explores => ?_⟩
  · have clear := explorable_of_explores rfl rfl lost explores _ mem_cons_self
    exact (clear.2 (Nat.le_refl 0xFFFF)).2 rfl
  · have clear := explorable_of_explores rfl rfl endless explores _ mem_cons_self
    exact clear.1 rfl

end BluetoothFormal.Bta
