import BluetoothFormal.Storage.SectionPlacement
import Mathlib.Data.List.TakeWhile

/-!
# The legacy config file

A cache is written as text: for each saved section a line with its name in brackets, a
line for each property, and an empty line.  The reader takes the text line by line and
sets each property in a new cache, in which a device is temporary until its first
persistent property is read.  A cache whose names and values are trimmed comes back with
the same saved sections.
-/

namespace BluetoothFormal.Storage

open Foundation Foundation.KeyedList Foundation.Transition ConfigCache
open List hiding lookup

def openBracket : UInt8 := 0x5B
def closeBracket : UInt8 := 0x5D
def hash : UInt8 := 0x23
def equals : UInt8 := 0x3D

/-! ## Writing -/

def propertyLine (entry : Text × Text) : Text := entry.1 ++ [space, equals, space] ++ entry.2

/-- The lines of a section, with the empty one behind it. -/
def sectionLines (entry : Text × Properties) : List Text :=
  (openBracket :: entry.1 ++ [closeBracket]) :: entry.2.map propertyLine ++ [[]]

def ConfigCache.serializeToLegacyFormat (cache : ConfigCache) : Text :=
  (cache.informationSections ++ cache.persistentDevices).flatMap fun entry =>
    (sectionLines entry).flatMap fun line => line ++ [newline]

/-! ## Reading -/

def stringTrim (str : Text) : Text :=
  ((str.dropWhile isSpace).reverse.dropWhile isSpace).reverse

/-- The tokens of a string, with at most the given number of cuts. -/
def splitTokens (delim : UInt8) : Nat → Text → List Text
  | 0, str => [str]
  | cuts + 1, str =>
    match str.dropWhile fun byte => byte ≠ delim with
    | [] => [str]
    | _ :: rest => (str.takeWhile fun byte => byte ≠ delim) :: splitTokens delim cuts rest

/-- `StringSplit` at a character; a maximum of zero is none. -/
def stringSplit (str : Text) (delim : UInt8) (maxToken : Nat) : List Text :=
  splitTokens delim (if maxToken = 0 then str.length else maxToken - 1) str

/-- Why a text is not read: the last one is an assertion failure of the cache. -/
inductive ReadError where
  | unterminatedSection
  | noSeparator
  | emptyName
  deriving DecidableEq

def readLine (state : Text × ConfigCache) (line : Text) : Except ReadError (Text × ConfigCache) :=
  match stringTrim line with
  | [] => .ok state
  | front :: rest =>
    if front = 0 || front = hash then .ok state
    else if front = openBracket then
      if (front :: rest).getLast? ≠ some closeBracket then .error .unterminatedSection
      else .ok (rest.take (rest.length - 1), state.2)
    else
      match stringSplit (front :: rest) equals 2 with
      | [property, value] =>
        match state.2.setProperty state.1 (stringTrim property) (stringTrim value) with
        | none => .error .emptyName
        | some outcome => .ok (state.1, outcome.cache)
      | _ => .error .noSeparator

/-- `LegacyConfigFile::Read` of a text, with the persistent property names of the new cache. -/
def read (names : List Text) (tempDevicesCapacity : Nat) (text : Text) :
    Except ReadError ConfigCache := do
  let state ← (getlines newline text).foldlM readLine
    (ascii "Global", new tempDevicesCapacity names)
  return state.2

/-! ## Lines -/

theorem getlines_ended {lines : List Text} (clean : ∀ line ∈ lines, newline ∉ line) :
    getlines newline (lines.flatMap fun line => line ++ [newline]) = lines := by
  have split : (lines.flatMap fun line => line ++ [newline]).splitOn newline = lines ++ [[]] := by
    induction lines with
    | nil => rfl
    | cons line rest ih =>
      rw [flatMap_cons, append_assoc]
      rw [splitOn_eq_splitOnP] at ih ⊢
      rw [singleton_append, splitOnP_append_cons_of_forall_mem, ih]
      · rfl
      · exact fun other member => clean other (mem_cons_of_mem _ member)
      · intro byte member
        rw [beq_eq_false_iff_ne]
        rintro rfl
        exact clean line (mem_cons_self ..) member
      · exact beq_self_eq_true newline
  rw [getlines]
  simp [split]

/-- Without a newline, and without space at its ends. -/
@[mk_iff]
structure Trimmed (text : Text) : Prop where
  line : newline ∉ text
  front : ∀ byte ∈ text.head?, isSpace byte = false
  back : ∀ byte ∈ text.getLast?, isSpace byte = false

theorem stringTrim_padded {before core after : Text} (left : ∀ byte ∈ before, isSpace byte = true)
    (right : ∀ byte ∈ after, isSpace byte = true)
    (front : ∀ byte ∈ core.head?, isSpace byte = false)
    (back : ∀ byte ∈ core.getLast?, isSpace byte = false) :
    stringTrim (before ++ core ++ after) = core := by
  rw [stringTrim, append_assoc, dropWhile_append_of_pos left]
  cases core with
  | nil =>
    rw [nil_append, dropWhile_eq_nil_iff.mpr right]
    rfl
  | cons first rest =>
    have start := front first rfl
    rw [cons_append, dropWhile_cons_of_neg (by rw [start]; exact Bool.false_ne_true),
      ← cons_append, reverse_append, dropWhile_append_of_pos]
    · cases ends : (first :: rest).reverse with
      | nil => exact absurd ends (by simp)
      | cons last others =>
        have stop := back last (by rw [← List.head?_reverse, ends]; rfl)
        rw [dropWhile_cons_of_neg (by rw [stop]; exact Bool.false_ne_true), ← ends, reverse_reverse]
    · exact fun byte member => right byte (mem_reverse.mp member)

variable {text : Text} {cache : ConfigCache} {sections : Sections}

theorem stringTrim_ends (front : ∀ byte ∈ text.head?, isSpace byte = false)
    (back : ∀ byte ∈ text.getLast?, isSpace byte = false) : stringTrim text = text := by
  have none : ∀ byte ∈ ([] : Text), isSpace byte = true := fun _ member => (nomatch member)
  have padded := stringTrim_padded none none front back
  rwa [nil_append, append_nil] at padded

/-- A name of a section that comes back. -/
structure LegalName (name : Text) : Prop extends Trimmed name where
  filled : name ≠ []

/-- A name of a property that comes back; it does not look like another kind of line. -/
structure LegalProperty (property : Text) : Prop extends Trimmed property where
  filled : property ≠ []
  undivided : equals ∉ property
  ordinary : ∀ byte ∈ property.head?, byte ≠ 0 ∧ byte ≠ hash ∧ byte ≠ openBracket

theorem space_isSpace : ∀ byte ∈ [space], isSpace byte = true := by
  intro byte member
  rw [mem_singleton.mp member]
  rfl

theorem readLine_header (state : Text × ConfigCache) (name : Text) :
    readLine state (openBracket :: name ++ [closeBracket]) = .ok (name, state.2) := by
  have trimmed : stringTrim (openBracket :: name ++ [closeBracket]) =
      openBracket :: (name ++ [closeBracket]) := by
    refine stringTrim_ends ?_ ?_
    · rintro byte ⟨⟩
      decide
    · rw [List.getLast?_concat]
      rintro byte ⟨⟩
      decide
  rw [readLine, trimmed]
  dsimp only
  rw [if_neg (by decide), if_pos rfl, if_neg, length_append, length_singleton,
    Nat.add_sub_cancel, take_left]
  rw [← cons_append, List.getLast?_concat]
  exact not_not.mpr rfl

theorem stringSplit_two {delim : UInt8} {before : Text} (free : delim ∉ before) (after : Text) :
    stringSplit (before ++ delim :: after) delim 2 = [before, after] := by
  have passes : ∀ byte ∈ before, decide (byte ≠ delim) = true := by
    intro byte member
    rw [decide_eq_true_iff]
    rintro rfl
    exact free member
  have dropped : (before ++ delim :: after).dropWhile (fun byte => byte ≠ delim) =
      delim :: after := by
    rw [dropWhile_append_of_pos passes, dropWhile_cons_of_neg (by simp)]
  have taken : (before ++ delim :: after).takeWhile (fun byte => byte ≠ delim) = before := by
    rw [takeWhile_append_of_pos passes, takeWhile_cons_of_neg (by simp), append_nil]
  rw [stringSplit, if_neg (by decide), splitTokens, dropped, taken]
  rfl

variable {property value name : Text} {pairs : Properties}

theorem stringTrim_propertyLine (legal : LegalProperty property) (trimmed : Trimmed value) :
    ∃ after, stringTrim (propertyLine (property, value)) = property ++ [space] ++ equals :: after ∧
      stringTrim after = value := by
  obtain ⟨first, rest, rfl⟩ := exists_cons_of_ne_nil legal.filled
  have front := legal.front first rfl
  by_cases empty : value = []
  · refine ⟨[], ?_, by rw [empty]; rfl⟩
    have padded := @stringTrim_padded [] (first :: rest ++ [space] ++ [equals]) [space]
      (fun _ member => (nomatch member)) space_isSpace (by rintro byte ⟨⟩; exact front)
      (by rw [List.getLast?_concat]; rintro byte ⟨⟩; decide)
    rw [propertyLine, empty]
    simpa using padded
  · refine ⟨space :: value, ?_, ?_⟩
    · have whole : first :: rest ++ [space] ++ equals :: space :: value =
          propertyLine (first :: rest, value) := by
        simp [propertyLine]
      rw [whole]
      refine stringTrim_ends (by rintro byte ⟨⟩; exact front) ?_
      rw [propertyLine, List.getLast?_append, List.getLast?_eq_some_getLast empty, Option.some_or,
        ← List.getLast?_eq_some_getLast empty]
      exact trimmed.back
    · have padded := @stringTrim_padded [space] value [] space_isSpace
        (fun _ member => (nomatch member)) trimmed.front trimmed.back
      rwa [append_nil] at padded

theorem trimAfterNewLine_eq (line : newline ∉ text) : trimAfterNewLine text = text := by
  rw [trimAfterNewLine, takeWhile_eq_self_iff]
  intro byte member
  rw [decide_eq_true_iff]
  rintro rfl
  exact line member

theorem setProperty_legal (legalName : LegalName name) (legal : LegalProperty property)
    (trimmed : Trimmed value) :
    cache.setProperty name property value = some (cache.storeProperty name property value) := by
  rw [setProperty, trimAfterNewLine_eq legalName.line, trimAfterNewLine_eq legal.line,
    trimAfterNewLine_eq trimmed.line, if_neg legalName.filled, if_neg legal.filled]

theorem readLine_property (legalName : LegalName name) (legal : LegalProperty property)
    (trimmed : Trimmed value) :
    readLine (name, cache) (propertyLine (property, value)) =
      .ok (name, (cache.storeProperty name property value).cache) := by
  obtain ⟨after, line, valueEq⟩ := stringTrim_propertyLine legal trimmed
  have free : equals ∉ property ++ [space] := by
    rw [mem_append, not_or]
    exact ⟨legal.undivided, by decide⟩
  have tokens := stringSplit_two free after
  have propertyEq : stringTrim (property ++ [space]) = property := by
    have padded := @stringTrim_padded [] property [space] (fun _ member => (nomatch member))
      space_isSpace legal.front legal.back
    rwa [nil_append] at padded
  obtain ⟨first, rest, rfl⟩ := exists_cons_of_ne_nil legal.filled
  obtain ⟨notNul, notHash, notBracket⟩ := legal.ordinary first rfl
  rw [cons_append, cons_append] at line tokens
  rw [readLine, line]
  dsimp only
  rw [if_neg (by simp [notNul, notHash]), if_neg notBracket, tokens]
  dsimp only
  rw [← cons_append, propertyEq, valueEq, setProperty_legal legalName legal trimmed]

/-! ## Sections -/

namespace ConfigCache

/-- A cache into which the first properties of a new section are read. -/
def partly (cache : ConfigCache) (name : Text) (pairs : Properties) : ConfigCache :=
  if pairs = [] then cache
  else if isDeviceSection name = false then
    { cache with informationSections := cache.informationSections ++ [(name, pairs)] }
  else if (keys pairs).any cache.isPersistentProperty then
    { cache with persistentDevices := cache.persistentDevices ++ [(name, pairs)] }
  else { cache with temporaryDevices := [(name, pairs)] }

theorem append_singleton_ne_nil {α : Type} (list : List α) (last : α) : list ++ [last] ≠ [] :=
  append_ne_nil_of_right_ne_nil _ (cons_ne_nil _ _)

theorem update_last {sections : Sections} {name property : Text} {pairs : Properties}
    (missing : name ∉ keys sections) (new : property ∉ keys pairs) (value : Text) :
    update name (put property value) (sections ++ [(name, pairs)]) =
      sections ++ [(name, pairs ++ [(property, value)])] := by
  rw [update, map_append]
  refine congrArg₂ (· ++ ·) (update_of_notMem _ missing) ?_
  rw [map_singleton, if_pos rfl, put_of_notMem value new]

section Partly

variable {cache : ConfigCache} (value : Text)

theorem storeProperty_information (kind : isDeviceSection name = false)
    (unlisted : name ∉ keys cache.informationSections) (new : property ∉ keys pairs) :
    ((cache.partly name pairs).storeProperty name property value).cache =
      cache.partly name (pairs ++ [(property, value)]) := by
  have before : cache.partly name pairs = { cache with
      informationSections := (cache.partly name pairs).informationSections } := by
    rw [partly, if_pos kind]
    split <;> rfl
  have there : tryEmplaceBack name [] (cache.partly name pairs).informationSections =
      cache.informationSections ++ [(name, pairs)] := by
    rw [partly, if_pos kind, tryEmplaceBack]
    by_cases none : pairs = []
    · rw [if_pos none, if_neg unlisted, none]
    · rw [if_neg none, if_pos]
      rw [KeyedList.keys_append]
      exact mem_append_right _ (mem_singleton_self name)
  have after : cache.partly name (pairs ++ [(property, value)]) = { cache with
      informationSections :=
        cache.informationSections ++ [(name, pairs ++ [(property, value)])] } := by
    rw [partly, if_neg (append_singleton_ne_nil _ _), if_pos kind]
  rw [storeProperty_of_information kind, there, update_last unlisted new, before, after]

variable (kind : isDeviceSection name = true)
include kind

theorem partly_keyed (keyed : (keys pairs).any cache.isPersistentProperty = true) :
    cache.partly name pairs = { cache with
      persistentDevices := cache.persistentDevices ++ [(name, pairs)] } := by
  have filled : pairs ≠ [] := by
    rintro rfl
    cases keyed
  rw [partly, if_neg filled, if_neg (by rw [kind]; exact Bool.noConfusion), if_pos keyed]

theorem partly_keyless (none : cache.temporaryDevices = [])
    (keyless : (keys pairs).any cache.isPersistentProperty = false) :
    cache.partly name pairs = { cache with
      temporaryDevices := if pairs = [] then [] else [(name, pairs)] } := by
  rw [partly]
  split
  · rw [← none]
  · rw [if_neg (by rw [kind]; exact Bool.noConfusion),
      if_neg (by rw [keyless]; exact Bool.false_ne_true)]

variable (unsaved : name ∉ keys cache.persistentDevices) (new : property ∉ keys pairs)
include unsaved new

theorem storeProperty_saved (keyed : (keys pairs).any cache.isPersistentProperty = true) :
    ((cache.partly name pairs).storeProperty name property value).cache =
      cache.partly name (pairs ++ [(property, value)]) := by
  have there : name ∈ keys (cache.persistentDevices ++ [(name, pairs)]) := by
    rw [KeyedList.keys_append]
    exact mem_append_right _ (mem_singleton_self name)
  have keyedToo : (keys (pairs ++ [(property, value)])).any cache.isPersistentProperty =
      true := by
    rw [KeyedList.keys_append, any_append, keyed, Bool.true_or]
  rw [partly_keyed kind keyed, partly_keyed kind keyedToo, storeProperty_of_persistent kind there,
    update_last unsaved new]

variable (none : cache.temporaryDevices = [])
  (keyless : (keys pairs).any cache.isPersistentProperty = false)
include none keyless

theorem storeProperty_promoted (persists : cache.isPersistentProperty property = true) :
    ((cache.partly name pairs).storeProperty name property value).cache =
      cache.partly name (pairs ++ [(property, value)]) := by
  have keyed : (keys (pairs ++ [(property, value)])).any cache.isPersistentProperty = true := by
    rw [KeyedList.keys_append, any_append, Bool.or_eq_true]
    exact .inr (by rw [KeyedList.keys_cons, any_cons, persists, Bool.true_or])
  have promoted : ∀ devices, devices = (if pairs = [] then [] else [(name, pairs)]) →
      promote { cache with temporaryDevices := devices } name = { cache with
        persistentDevices := cache.persistentDevices ++ [(name, pairs)] } := by
    rintro devices rfl
    rw [promote]
    by_cases empty : pairs = []
    · rw [if_pos empty, lookup]
      rw [tryEmplaceBack, if_neg unsaved, empty, none]
    · rw [if_neg empty, lookup, if_pos rfl]
      dsimp only
      rw [tryEmplaceBack, if_neg unsaved, none, remove, filter_cons_of_neg (by simp), filter_nil]
  have stored := @storeProperty_of_promoted { cache with
    temporaryDevices := if pairs = [] then [] else [(name, pairs)] } name property value
    kind unsaved persists
  rw [partly_keyless kind none keyless, partly_keyed kind keyed, stored, promoted _ rfl]
  rw [update_last unsaved new]

theorem storeProperty_unsaved (transient : cache.isPersistentProperty property = false) :
    ((cache.partly name pairs).storeProperty name property value).cache =
      cache.partly name (pairs ++ [(property, value)]) := by
  have keylessToo : (keys (pairs ++ [(property, value)])).any cache.isPersistentProperty =
      false := by
    rw [KeyedList.keys_append, any_append, keyless, KeyedList.keys_cons, any_cons, transient]
    rfl
  have found : ∀ devices, devices = (if pairs = [] then [] else [(name, pairs)]) →
      findOrEmplace { cache with temporaryDevices := devices } name = [(name, pairs)] := by
    rintro devices rfl
    rw [findOrEmplace]
    by_cases empty : pairs = []
    · rw [if_pos empty, empty, toFront, lookup]
      dsimp only
      rw [KeyedList.keys_nil, if_neg not_mem_nil, Recency.tryEmplace, KeyedList.keys_nil,
        if_neg not_mem_nil, Recency.enter]
      split <;> rfl
    · rw [if_neg empty, toFront, lookup, if_pos rfl]
      rw [remove, filter_cons_of_neg (by simp), filter_nil,
        if_pos (show name ∈ keys [(name, pairs)] from mem_singleton_self name)]
  have last := @update_last [] name property pairs not_mem_nil new value
  rw [nil_append, nil_append] at last
  have stored := @storeProperty_of_temporary { cache with
    temporaryDevices := if pairs = [] then [] else [(name, pairs)] } name property value
    kind unsaved transient
  rw [partly_keyless kind none keyless, partly_keyless kind none keylessToo,
    if_neg (append_singleton_ne_nil _ _), stored, found _ rfl, last]

end Partly

section

variable {cache : ConfigCache} (unlisted : name ∉ keys cache.informationSections)
  (unsaved : name ∉ keys cache.persistentDevices) (none : cache.temporaryDevices = [])
include unlisted unsaved none

theorem storeProperty_partly (new : property ∉ keys pairs) (value : Text) :
    ((cache.partly name pairs).storeProperty name property value).cache =
      cache.partly name (pairs ++ [(property, value)]) := by
  cases kind : isDeviceSection name with
  | false => exact storeProperty_information value kind unlisted new
  | true =>
    cases keyed : (keys pairs).any cache.isPersistentProperty with
    | true => exact storeProperty_saved value kind unsaved new keyed
    | false =>
      cases persists : cache.isPersistentProperty property with
      | true => exact storeProperty_promoted value kind unsaved new none keyed persists
      | false => exact storeProperty_unsaved value kind unsaved new none keyed persists

theorem readLines_properties (legalName : LegalName name) {pairs left : Properties}
    (distinct : (keys (pairs ++ left)).Nodup)
    (legal : ∀ entry ∈ left, LegalProperty entry.1 ∧ Trimmed entry.2) :
    (left.map propertyLine).foldlM readLine (name, cache.partly name pairs) =
      .ok (name, cache.partly name (pairs ++ left)) := by
  induction left generalizing pairs with
  | nil =>
    rw [append_nil]
    rfl
  | cons entry rest ih =>
    obtain ⟨property, value⟩ := entry
    obtain ⟨legalHere, trimmed⟩ := legal (property, value) (mem_cons_self ..)
    have new := (notMem_of_split distinct).1
    have together : pairs ++ (property, value) :: rest = pairs ++ [(property, value)] ++ rest := by
      rw [append_assoc, singleton_append]
    rw [together] at distinct ⊢
    rw [map_cons, foldlM_cons, readLine_property legalName legalHere trimmed,
      storeProperty_partly unlisted unsaved none new]
    exact ih distinct fun other member => legal other (mem_cons_of_mem _ member)

end

/-- Properties that come back. -/
structure LegalProperties (pairs : Properties) : Prop where
  distinct : (keys pairs).Nodup
  legal : ∀ entry ∈ pairs, LegalProperty entry.1 ∧ Trimmed entry.2

/-- A section that can be saved and read. -/
structure LegalSection (names : List Text) (name : Text) (pairs : Properties) : Prop
    extends LegalProperties pairs where
  legalName : LegalName name
  filled : pairs ≠ []
  keyed : isDeviceSection name = true → ∃ property ∈ keys pairs, property ∈ names

/-- A cache with one more saved section. -/
def withSection (cache : ConfigCache) (entry : Text × Properties) : ConfigCache :=
  if isDeviceSection entry.1 = false then
    { cache with informationSections := cache.informationSections ++ [entry] }
  else { cache with persistentDevices := cache.persistentDevices ++ [entry] }

theorem readLines_section {cache : ConfigCache} {name current : Text} {pairs : Properties}
    (unlisted : name ∉ keys cache.informationSections)
    (unsaved : name ∉ keys cache.persistentDevices) (none : cache.temporaryDevices = [])
    (legal : LegalSection cache.persistentPropertyNames name pairs) :
    (sectionLines (name, pairs)).foldlM readLine (current, cache) =
      .ok (name, cache.withSection (name, pairs)) := by
  have start : cache.partly name [] = cache := if_pos rfl
  have whole : cache.partly name pairs = cache.withSection (name, pairs) := by
    rw [partly, if_neg legal.filled, withSection]
    split
    · rfl
    · rename_i device
      rw [Bool.not_eq_false] at device
      obtain ⟨key, member, persists⟩ := legal.keyed device
      rw [if_pos (any_eq_true.mpr ⟨key, member, decide_eq_true persists⟩)]
  have body := @readLines_properties name cache unlisted unsaved none legal.legalName []
    pairs legal.distinct legal.legal
  rw [start, nil_append, whole] at body
  rw [sectionLines, cons_append, foldlM_cons, readLine_header]
  change ((pairs.map propertyLine) ++ [[]]).foldlM readLine (name, cache) = _
  rw [foldlM_append, body]
  rfl

theorem readLines_sections {cache : ConfigCache} {sections : Sections} {current : Text}
    (none : cache.temporaryDevices = []) (distinct : (keys sections).Nodup)
    (new : ∀ name ∈ keys sections, name ∉ keys cache.informationSections ∧
      name ∉ keys cache.persistentDevices)
    (legal : ∀ name pairs, (name, pairs) ∈ sections →
      LegalSection cache.persistentPropertyNames name pairs) :
    ∃ last, (sections.flatMap sectionLines).foldlM readLine (current, cache) =
      .ok (last, sections.foldl withSection cache) := by
  induction sections generalizing cache current with
  | nil => exact ⟨current, rfl⟩
  | cons entry rest ih =>
    obtain ⟨name, pairs⟩ := entry
    obtain ⟨apart, distinctRest⟩ := nodup_cons.mp distinct
    obtain ⟨unlisted, unsaved⟩ := new name (mem_cons_self ..)
    have here := @readLines_section cache name current pairs unlisted unsaved none
      (legal name pairs (mem_cons_self ..))
    have after : (cache.withSection (name, pairs)).temporaryDevices = [] ∧
        (cache.withSection (name, pairs)).persistentPropertyNames =
          cache.persistentPropertyNames ∧ ∀ other ∈ keys rest,
          other ∉ keys (cache.withSection (name, pairs)).informationSections ∧
            other ∉ keys (cache.withSection (name, pairs)).persistentDevices := by
      have others : ∀ other ∈ keys rest, ∀ sections : Sections, other ∉ keys sections →
          other ∉ keys (sections ++ [(name, pairs)]) := by
        intro other member sections missing
        rw [KeyedList.keys_append, mem_append, not_or]
        refine ⟨missing, fun same => apart ?_⟩
        rw [← mem_singleton.mp same]
        exact member
      rw [withSection]
      split
      all_goals
        refine ⟨none, rfl, fun other member => ?_⟩
        obtain ⟨otherUnlisted, otherUnsaved⟩ := new other (mem_cons_of_mem _ member)
      · exact ⟨others other member _ otherUnlisted, otherUnsaved⟩
      · exact ⟨otherUnlisted, others other member _ otherUnsaved⟩
    obtain ⟨noneAfter, names, newAfter⟩ := after
    obtain ⟨last, ends⟩ := @ih (cache.withSection (name, pairs)) name noneAfter distinctRest
      newAfter (fun other held member =>
        names ▸ legal other held (mem_cons_of_mem _ member))
    refine ⟨last, ?_⟩
    rw [flatMap_cons, foldlM_append, here]
    exact ends

theorem foldl_withSection_information {cache : ConfigCache}
    (kinds : ∀ entry ∈ sections, isDeviceSection entry.1 = false) :
    sections.foldl withSection cache =
      { cache with informationSections := cache.informationSections ++ sections } := by
  induction sections generalizing cache with
  | nil => rw [append_nil]; rfl
  | cons entry rest ih =>
    rw [foldl_cons, withSection, if_pos (kinds entry (mem_cons_self ..)),
      ih fun other member => kinds other (mem_cons_of_mem _ member), append_assoc]
    rfl

theorem foldl_withSection_devices {cache : ConfigCache}
    (kinds : ∀ entry ∈ sections, isDeviceSection entry.1 = true) :
    sections.foldl withSection cache =
      { cache with persistentDevices := cache.persistentDevices ++ sections } := by
  induction sections generalizing cache with
  | nil => rw [append_nil]; rfl
  | cons entry rest ih =>
    have device : ¬ isDeviceSection entry.1 = false := by
      rw [kinds entry (mem_cons_self ..)]
      exact Bool.noConfusion
    rw [foldl_cons, withSection, if_neg device,
      ih fun other member => kinds other (mem_cons_of_mem _ member), append_assoc]
    rfl

/-! ## Round trip -/

/-- A legal name with legal properties. -/
def Legal (name : Text) (pairs : Properties) : Prop :=
  LegalName name ∧ LegalProperties pairs

theorem sectionLines_clean (legal : Legal name pairs) :
    ∀ line ∈ sectionLines (name, pairs), newline ∉ line := by
  intro line member
  rw [sectionLines, cons_append, mem_cons, mem_append, mem_map, mem_singleton] at member
  rcases member with rfl | ⟨⟨property, value⟩, listed, rfl⟩ | rfl
  · rw [cons_append, mem_cons, mem_append, not_or, not_or]
    exact ⟨by decide, legal.1.line, by decide⟩
  · obtain ⟨legalHere, trimmed⟩ := legal.2.legal (property, value) listed
    rw [propertyLine, mem_append, mem_append, not_or, not_or]
    exact ⟨⟨legalHere.line, by decide⟩, trimmed.line⟩
  · exact not_mem_nil

theorem Stored.read_back {cache : ConfigCache} {names : List Text}
    (stored : cache.Stored Legal fun _ _ => True) (same : cache.persistentPropertyNames = names)
    (capacity : Nat) :
    read names capacity cache.serializeToLegacyFormat = .ok
      ⟨names, cache.informationSections, cache.persistentDevices, capacity, []⟩ := by
  obtain ⟨information, persistent, -⟩ := stored
  have legal : ∀ name pairs, (name, pairs) ∈ cache.informationSections ++ cache.persistentDevices →
        Legal name pairs ∧ LegalSection names name pairs := by
    intro name pairs member
    rcases mem_append.mp member with member | member
    · obtain ⟨kind, filled, good⟩ := information.fits name pairs member
      refine ⟨good, good.2, good.1, filled, fun device => ?_⟩
      exact absurd (kind.symm.trans device) Bool.false_ne_true
    · obtain ⟨-, keyed, good⟩ := persistent.fits name pairs member
      refine ⟨good, good.2, good.1, keyed.ne_nil, fun _ => ?_⟩
      obtain ⟨property, listed, persists⟩ := keyed
      exact ⟨property, listed, (isPersistentProperty_iff same).mp persists⟩
  have distinct : (keys (cache.informationSections ++ cache.persistentDevices)).Nodup := by
    rw [KeyedList.keys_append]
    refine nodup_append.mpr ⟨information.distinct, persistent.distinct, ?_⟩
    rintro name member other memberToo rfl
    obtain ⟨⟨held, pairs⟩, listed, rfl⟩ := mem_map.mp member
    obtain ⟨⟨heldToo, others⟩, listedToo, same⟩ := mem_map.mp memberToo
    have kind := (information.fits held pairs listed).1
    have kindToo := (persistent.fits heldToo others listedToo).1
    rw [show heldToo = held from same] at kindToo
    exact Bool.false_ne_true (kind.symm.trans kindToo)
  obtain ⟨last, ends⟩ := @readLines_sections (new capacity names)
    (cache.informationSections ++ cache.persistentDevices) (ascii "Global") rfl distinct
    (fun _ _ => ⟨not_mem_nil, not_mem_nil⟩)
    fun name pairs member => (legal name pairs member).2
  have lines : getlines newline cache.serializeToLegacyFormat =
      (cache.informationSections ++ cache.persistentDevices).flatMap sectionLines := by
    rw [serializeToLegacyFormat, ← flatMap_assoc]
    refine getlines_ended fun line member => ?_
    obtain ⟨⟨name, pairs⟩, listed, inside⟩ := mem_flatMap.mp member
    exact sectionLines_clean (legal name pairs listed).1 line inside
  have kinds : ∀ entry ∈ cache.informationSections, isDeviceSection entry.1 = false :=
    fun entry member => (information.fits entry.1 entry.2 member).1
  have kindsToo : ∀ entry ∈ cache.persistentDevices, isDeviceSection entry.1 = true :=
    fun entry member => (persistent.fits entry.1 entry.2 member).1
  rw [foldl_append, foldl_withSection_information kinds, foldl_withSection_devices kindsToo] at ends
  rw [read, lines, ends]
  rfl

/-- A mutation that sets only what comes back. -/
def LegalEntry : MutationEntry → Prop
  | .set name property value => LegalName name ∧ LegalProperty property ∧ Trimmed value
  | .removeProperty _ _ | .removeSection _ => True

/-- A call that sets only what comes back. -/
def LegalCall : Call → Prop
  | .mutation entry => LegalEntry entry
  | .removeSectionWithProperty _ => True
  | .commit entries => ∀ entry ∈ entries, LegalEntry entry

theorem LegalProperties.put (legal : LegalProperties pairs)
    (legalHere : LegalProperty property) (trimmed : Trimmed value) :
    LegalProperties (put property value pairs) := by
  rw [KeyedList.put]
  split
  · refine ⟨by rw [keys_update]; exact legal.distinct, fun entry member => ?_⟩
    obtain ⟨before, listed, rfl⟩ := mem_map.mp member
    obtain ⟨legalBefore, trimmedBefore⟩ := legal.legal before listed
    split
    · exact ⟨legalBefore, trimmed⟩
    · exact ⟨legalBefore, trimmedBefore⟩
  · rename_i missing
    constructor
    · rw [KeyedList.keys_append]
      refine nodup_append.mpr ⟨legal.distinct, nodup_singleton _, ?_⟩
      rintro other member last lastMember rfl
      rw [mem_singleton.mp lastMember] at member
      exact missing member
    · exact forall_mem_append.mpr ⟨legal.legal, forall_mem_singleton.mpr ⟨legalHere, trimmed⟩⟩

theorem LegalProperties.remove (legal : LegalProperties pairs) (property : Text) :
    LegalProperties (remove property pairs) :=
  ⟨nodup_remove legal.distinct property,
    fun entry member => legal.legal entry (mem_filter.mp member).1⟩

/-- The sections of a cache are in their maps, and they are legal. -/
structure Readable (names : List Text) (cache : ConfigCache) : Prop where
  names_eq : cache.persistentPropertyNames = names
  stored : cache.Stored Legal fun _ _ => True

variable {cache : ConfigCache} {names : List Text}

theorem Readable.mutate (readable : cache.Readable names) {entry : MutationEntry}
    (legal : LegalEntry entry) {outcome : Outcome Unit}
    (done : cache.mutate entry = some outcome) : outcome.cache.Readable names := by
  refine ⟨(mutate_names done).trans readable.names_eq, ?_⟩
  have stored := readable.stored
  cases entry with
  | set name property value =>
    obtain ⟨legalName, legalProperty, trimmed⟩ := legal
    rw [ConfigCache.mutate, setProperty_legal legalName legalProperty trimmed] at done
    cases done
    refine stored.storeProperty (fun pairs before => ⟨legalName, ?_⟩) fun _ _ _ => trivial
    have legalBefore : LegalProperties pairs := by
      rcases before with rfl | legalBefore
      · exact ⟨nodup_nil, fun _ member => absurd member not_mem_nil⟩
      · exact legalBefore.2
    exact legalBefore.put legalProperty trimmed
  | removeProperty name property =>
    cases done
    refine stored.removeProperty ?_ (fun _ _ => trivial) fun _ _ _ _ => trivial
    exact fun pairs legalBefore => ⟨legalBefore.1, legalBefore.2.remove property⟩
  | removeSection name =>
    cases done
    exact stored.removeSection name

theorem Readable.next (readable : cache.Readable names) {event : Call} (legal : LegalCall event)
    {after : ConfigCache} (done : cache.next event = some after) : after.Readable names := by
  cases event with
  | mutation entry =>
    obtain ⟨outcome, mutates, rfl⟩ := Option.map_eq_some_iff.mp done
    exact readable.mutate legal mutates
  | removeSectionWithProperty property =>
    cases done
    exact ⟨readable.names_eq, readable.stored.removeSectionWithProperty property⟩
  | commit entries =>
    have ran : run mutated cache entries = some after := (commit_eq_run ..).symm.trans done
    have guarded : Along mutated (fun _ entry => LegalEntry entry) cache entries :=
      along_of_mem (fun entry member _ => legal entry member) cache
    refine invariant_along ?_ readable guarded ran
    intro state entry later readableState legalEntry mutates
    obtain ⟨outcome, done, rfl⟩ := Option.map_eq_some_iff.mp mutates
    exact readableState.mutate legalEntry done

/--
The text of a cache that was filled with legal names and values is read as a cache with
the same saved sections, in the same order, and without temporary devices.
-/
theorem read_serialized {capacity : Nat} {calls : List Call}
    (legal : ∀ event ∈ calls, LegalCall event)
    (reached : run next (new capacity names) calls = some cache) (readCapacity : Nat) :
    read names readCapacity cache.serializeToLegacyFormat = .ok
      ⟨names, cache.informationSections, cache.persistentDevices, readCapacity, []⟩ := by
  have guarded : Along next (fun _ event => LegalCall event) (new capacity names) calls :=
    along_of_mem (fun event member _ => legal event member) _
  have readable : cache.Readable names := by
    refine invariant_along ?_ ⟨rfl, new_stored capacity names⟩ guarded reached
    exact fun state event later readableState legalEvent done => readableState.next legalEvent done
  exact readable.stored.read_back readable.names_eq readCapacity

/-! ### Fixed texts -/

instance (text : Text) : Decidable (Trimmed text) :=
  have ends (byte : Option UInt8) : Decidable (∀ last ∈ byte, isSpace last = false) :=
    @Option.decidableForallMem _ (fun last => isSpace last = false) (fun _ => inferInstance) byte
  @decidable_of_iff' _ _ (trimmed_iff text)
    (@instDecidableAnd _ _ inferInstance (@instDecidableAnd _ _ (ends text.head?)
      (ends text.getLast?)))

/-- A saved device whose name is set before its key. -/
def savedCalls : List Call :=
  [.mutation (.set (ascii "11:22:33:44:55:66") (ascii "Name") (ascii "a = b")),
    .mutation (.set (ascii "Adapter") (ascii "Name") []),
    .mutation (.set (ascii "11:22:33:44:55:66") (ascii "LinkKey") (ascii "aa"))]

theorem savedCalls_legal : ∀ event ∈ savedCalls, LegalCall event := by
  have device : LegalName (ascii "11:22:33:44:55:66") := ⟨by decide, by decide⟩
  have adapter : LegalName (ascii "Adapter") := ⟨by decide, by decide⟩
  have name : LegalProperty (ascii "Name") :=
    ⟨by decide, by decide, by decide, by rintro byte ⟨⟩; decide⟩
  have key : LegalProperty (ascii "LinkKey") :=
    ⟨by decide, by decide, by decide, by rintro byte ⟨⟩; decide⟩
  intro event member
  rcases mem_cons.mp member with rfl | member
  · exact ⟨device, name, by decide⟩
  · rcases mem_cons.mp member with rfl | member
    · exact ⟨adapter, name, by decide⟩
    · rw [mem_singleton.mp member]
      exact ⟨device, key, by decide⟩

theorem read_serialized_saved : ∃ cache,
    run next (new 2 linkKeyProperties) savedCalls = some cache ∧
      keys cache.persistentDevices = [ascii "11:22:33:44:55:66"] ∧
      read linkKeyProperties 1 cache.serializeToLegacyFormat =
        .ok { cache with temporaryCapacity := 1 } :=
  ⟨_, rfl, by decide, read_serialized savedCalls_legal rfl 1⟩

/-- A property whose name starts with a zero byte is not read. -/
theorem nul_property_lost :
    Trimmed [0, 0x78] ∧ equals ∉ [0, 0x78] ∧ (0 : UInt8) ≠ hash ∧ (0 : UInt8) ≠ openBracket ∧
      ∃ cache result, run next (new 1 linkKeyProperties)
          [.mutation (.set (ascii "Adapter") [0, 0x78] (ascii "v"))] = some cache ∧
        cache.informationSections = [(ascii "Adapter", [([0, 0x78], ascii "v")])] ∧
        read linkKeyProperties 1 cache.serializeToLegacyFormat = .ok result ∧
        result.informationSections = [] :=
  ⟨by decide, by decide, by decide, by decide, _, _, rfl, by decide, rfl, by decide⟩

end ConfigCache

/-! ## Empty names -/

/-- What a line is, whatever section it stands in. -/
inductive Line where
  | skipped
  | header (name : Text)
  | assignment (property value : Text)
  | unterminated
  | unseparated

def parseLine (line : Text) : Line :=
  match stringTrim line with
  | [] => .skipped
  | front :: rest =>
    if front = 0 || front = hash then .skipped
    else if front = openBracket then
      if (front :: rest).getLast? ≠ some closeBracket then .unterminated
      else .header (rest.take (rest.length - 1))
    else
      match stringSplit (front :: rest) equals 2 with
      | [property, value] => .assignment (stringTrim property) (stringTrim value)
      | _ => .unseparated

theorem readLine_eq (state : Text × ConfigCache) (line : Text) :
    readLine state line = match parseLine line with
      | .skipped => .ok state
      | .header name => .ok (name, state.2)
      | .assignment property value =>
        match state.2.setProperty state.1 property value with
        | none => .error .emptyName
        | some outcome => .ok (state.1, outcome.cache)
      | .unterminated => .error .unterminatedSection
      | .unseparated => .error .noSeparator := by
  unfold readLine parseLine
  split
  · rfl
  · split
    · rfl
    · split
      all_goals
        split <;> rfl

/--
In some lines, in front of the first one that is malformed, a property has no name or stands in
a section without one.
-/
def Nameless (name : Text) : List Text → Prop
  | [] => False
  | line :: rest =>
    match parseLine line with
    | .skipped => Nameless name rest
    | .header other => Nameless other rest
    | .assignment property _ =>
      trimAfterNewLine name = [] ∨ trimAfterNewLine property = [] ∨ Nameless name rest
    | .unterminated | .unseparated => False

theorem readLines_emptyName_iff {lines : List Text} {name : Text} {cache : ConfigCache} :
    lines.foldlM readLine (name, cache) = .error .emptyName ↔ Nameless name lines := by
  induction lines generalizing name cache with
  | nil => exact ⟨nofun, nofun⟩
  | cons line rest ih =>
    rw [foldlM_cons, readLine_eq, Nameless]
    cases parseLine line with
    | skipped | header => exact ih
    | unterminated | unseparated => exact ⟨nofun, nofun⟩
    | assignment property value =>
      dsimp only
      rw [setProperty]
      by_cases section_ : trimAfterNewLine name = []
      · rw [if_pos section_]
        exact iff_of_true rfl (.inl section_)
      · by_cases key : trimAfterNewLine property = []
        · rw [if_neg section_, if_pos key]
          exact iff_of_true rfl (.inr (.inl key))
        · rw [if_neg section_, if_neg key, or_iff_right section_, or_iff_right key]
          exact ih

/-- No assertion of the cache fails exactly if no name in front of a malformed line is empty. -/
theorem read_asserted_iff (names : List Text) (tempDevicesCapacity : Nat) (text : Text) :
    read names tempDevicesCapacity text ≠ .error .emptyName ↔
      ¬Nameless (ascii "Global") (getlines newline text) := by
  rw [not_iff_not, ← @readLines_emptyName_iff _ _ (new tempDevicesCapacity names), read]
  cases (getlines newline text).foldlM readLine (ascii "Global", new tempDevicesCapacity names) with
  | ok state => exact ⟨nofun, nofun⟩
  | error error =>
    constructor
    all_goals
      intro failed
      cases failed
      rfl

/-- A line without a key. -/
theorem read_keyless_line : read linkKeyProperties 1 (ascii "=1") = .error .emptyName := by
  decide

end BluetoothFormal.Storage
