import BluetoothFormal.Storage.LegacyConfigFile

/-!
# Notified changes

A call that changes the saved text notifies.
-/

namespace BluetoothFormal.Storage

open Foundation.KeyedList Foundation.Transition
open List hiding lookup

variable {outcome : Outcome Unit}

namespace ConfigCache

variable {cache : ConfigCache} {name property value : Text}

/-- The sections are in their maps. -/
abbrev Tidy (cache : ConfigCache) : Prop := cache.Stored (fun _ _ => True) fun _ _ => True

/-- What is written to disk. -/
def saved (cache : ConfigCache) : Sections := cache.informationSections ++ cache.persistentDevices

/-- A call leaves the sections in their maps, and it notifies if it changes what is saved. -/
structure Observed (cache : ConfigCache) (outcome : Outcome Unit) : Prop where
  tidy : outcome.cache.Tidy
  notified : outcome.notified = true ∨ outcome.cache.saved = cache.saved

theorem storeProperty_observed (tidy : cache.Tidy) :
    cache.Observed (cache.storeProperty name property value) := by
  refine ⟨tidy.storeProperty (fun _ _ => trivial) fun _ _ _ => trivial, ?_⟩
  by_cases promotes : name ∉ keys cache.persistentDevices ∧ cache.isPersistentProperty property
  · refine .inl ?_
    rw [storeProperty]
    split
    · rfl
    · exact congrArg Outcome.notified (if_pos (mem_keys_promote promotes.1))
  · rw [storeProperty]
    split
    · exact .inl rfl
    · dsimp only
      split
      · exact .inl rfl
      · exact .inr rfl

theorem keepFilled_self {sections : Sections} {properties : Properties}
    (distinct : (keys sections).Nodup) (found : lookup name sections = some properties)
    (filled : properties ≠ []) : keepFilled name properties sections = sections := by
  rw [keepFilled, if_neg (mt length_eq_zero_iff.mp filled)]
  obtain ⟨before, after, rfl⟩ := exists_split found
  exact update_split distinct _

section

variable (tidy : cache.Tidy)
include tidy

theorem removeProperty_notified :
    (cache.removeProperty name property).notified = true ∨
      (cache.removeProperty name property).cache.saved = cache.saved := by
  rw [removeProperty]
  split
  case h_1 properties found =>
    by_cases present : property ∈ keys properties
    · exact .inl (decide_eq_true present)
    · have filled := (tidy.information.fits name properties (mem_of_lookup found)).2.1
      refine .inr ?_
      rw [remove_of_notMem present, saved, keepFilled_self tidy.information.distinct found filled]
      rfl
  case h_2 =>
    split
    case h_1 properties found =>
      by_cases present : property ∈ keys properties
      · exact .inl (decide_eq_true present)
      · have filled := (tidy.persistent.fits name properties (mem_of_lookup found)).2.1.ne_nil
        have same := keepFilled_self tidy.persistent.distinct found filled
        rw [keepFilled, if_neg (mt length_eq_zero_iff.mp filled)] at same
        refine .inr ?_
        rw [remove_of_notMem present]
        dsimp only
        rw [if_neg (mt length_eq_zero_iff.mp filled), if_neg fun both => present both.1, saved,
          same]
        rfl
    case h_2 => split <;> exact .inr rfl

theorem mutate_observed {entry : MutationEntry} (done : cache.mutate entry = some outcome) :
    cache.Observed outcome := by
  cases entry with
  | set name property value =>
    rw [← setProperty_eq_some done]
    exact storeProperty_observed tidy
  | removeProperty name property =>
    cases done
    exact ⟨tidy.removeProperty (fun _ _ => trivial) (fun _ _ => trivial) fun _ _ _ _ => trivial,
      removeProperty_notified tidy⟩
  | removeSection name =>
    cases done
    refine ⟨tidy.removeSection name, ?_⟩
    rw [removeSection]
    split
    · exact .inl rfl
    · split
      · exact .inl rfl
      · exact .inr rfl

theorem commit_observed {entries : List MutationEntry}
    (done : cache.commit entries = some outcome) : cache.Observed outcome := by
  induction entries generalizing cache outcome with
  | nil =>
    cases done
    exact ⟨tidy, .inr rfl⟩
  | cons entry rest ih =>
    obtain ⟨first, mutates, done⟩ := Option.bind_eq_some_iff.mp done
    obtain ⟨last, commits, done⟩ := Option.bind_eq_some_iff.mp done
    cases done
    obtain ⟨tidyFirst, one⟩ := mutate_observed tidy mutates
    obtain ⟨tidyLast, others⟩ := ih tidyFirst commits
    refine ⟨tidyLast, ?_⟩
    rw [Bool.or_eq_true, or_assoc]
    exact one.imp id fun same => others.imp id (·.trans same)

theorem removeSectionWithProperty_observed :
    cache.Observed (cache.removeSectionWithProperty property) := by
  refine ⟨tidy.removeSectionWithProperty property, ?_⟩
  by_cases fewer : (cache.removeSectionWithProperty property).notified = true
  · exact .inl fewer
  · rw [removeSectionWithProperty, decide_eq_true_iff, Nat.not_lt, Nat.le_zero,
      Nat.add_eq_zero_iff, Nat.sub_eq_zero_iff_le, Nat.sub_eq_zero_iff_le] at fewer
    exact .inr (congrArg₂ (· ++ ·) (filter_sublist.eq_of_length_le fewer.1)
      (filter_sublist.eq_of_length_le fewer.2))

theorem call_observed {event : Call} (done : cache.call event = some outcome) :
    cache.Observed outcome := by
  cases event with
  | mutation entry => exact mutate_observed tidy done
  | removeSectionWithProperty property =>
    cases done
    exact removeSectionWithProperty_observed tidy
  | commit entries => exact commit_observed tidy done

end

section Run

variable {capacity : Nat} {names : List Text} {calls : List Call}
variable (reached : run next (new capacity names) calls = some cache)

include reached

theorem tidy_of_run : cache.Tidy := by
  refine invariant_run (fun state event after tidy done => ?_) (new_stored capacity names) reached
  obtain ⟨outcome, called, rfl⟩ := Option.map_eq_some_iff.mp done
  exact (call_observed tidy called).tidy

/-- A call that changes the text of a cache notifies that it did. -/
theorem serialized_change_notified {event : Call} {outcome : Outcome Unit}
    (done : cache.call event = some outcome)
    (differs : outcome.cache.serializeToLegacyFormat ≠ cache.serializeToLegacyFormat) :
    outcome.notified = true := by
  refine (call_observed (tidy_of_run reached) done).notified.resolve_right fun same => differs ?_
  exact congrArg (flatMap fun entry => (sectionLines entry).flatMap (· ++ [newline])) same

end Run

/-- A temporary device. -/
def oneDevice : ConfigCache :=
  ⟨linkKeyProperties, [], [], 1, [(ascii "11:22:33:44:55:66", [(ascii "Name", ascii "a")])]⟩

theorem serialized_change_notified_pairing :
    ∃ outcome, oneDevice.call (.mutation
      (.set (ascii "11:22:33:44:55:66") (ascii "LinkKey") (ascii "00"))) = some outcome ∧
      outcome.notified = true :=
  ⟨_, rfl, @serialized_change_notified oneDevice 1 linkKeyProperties
    [.mutation (.set (ascii "11:22:33:44:55:66") (ascii "Name") (ascii "a"))] rfl
    (.mutation (.set (ascii "11:22:33:44:55:66") (ascii "LinkKey") (ascii "00"))) _ rfl
    (by decide)⟩

end ConfigCache

end BluetoothFormal.Storage
