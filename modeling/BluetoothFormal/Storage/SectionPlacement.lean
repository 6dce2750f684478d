import BluetoothFormal.Storage.ConfigCache

/-!
# Where the config cache keeps its sections

A section is in one of the three maps only, and no section is empty.  A device is
persistent as long as it has a persistent property: a persistent device always has
one, and a temporary device has none, unless the removal of one persistent property has
moved a device that still has another.
-/

namespace BluetoothFormal.Storage

open Foundation Foundation.KeyedList Foundation.Transition ConfigCache Option
open List hiding lookup

/-! ## Shelves -/

structure Shelf (Fits : Text → Properties → Prop) (sections : Sections) : Prop where
  distinct : (keys sections).Nodup
  fits : ∀ name pairs, (name, pairs) ∈ sections → Fits name pairs

variable {pairs : Properties} {names : List Text}

namespace Shelf

variable {Fits Other : Text → Properties → Prop} {sections : Sections} {name : Text}

theorem nil : Shelf Fits [] := ⟨nodup_nil, fun _ _ member => (nomatch member)⟩

section

variable (shelf : Shelf Fits sections)
include shelf

theorem mono (weaker : ∀ name pairs, Fits name pairs → Other name pairs) :
    Shelf Other sections :=
  ⟨shelf.distinct, fun name pairs member => weaker _ _ (shelf.fits name pairs member)⟩

theorem sublist {fewer : Sections} (part : fewer.Sublist sections) :
    Shelf Fits fewer :=
  ⟨shelf.distinct.sublist (part.map _),
    fun name pairs member => shelf.fits name pairs (part.subset member)⟩

theorem remove (name : Text) :
    Shelf (fun other pairs => other ≠ name ∧ Fits other pairs) (remove name sections) := by
  refine ⟨(shelf.sublist filter_sublist).distinct, fun other pairs member => ?_⟩
  obtain ⟨listed, apart⟩ := mem_filter.mp member
  exact ⟨of_decide_eq_true apart, shelf.fits other pairs listed⟩

theorem update {change : Properties → Properties}
    (others : ∀ other pairs, other ≠ name → Fits other pairs → Other other pairs)
    (changed : ∀ pairs, Fits name pairs → Other name (change pairs)) :
    Shelf Other (update name change sections) := by
  refine ⟨?_, fun other pairs member => ?_⟩
  · rw [keys_update]
    exact shelf.distinct
  · obtain ⟨⟨held, before⟩, listed, same⟩ := mem_map.mp member
    have fits := shelf.fits held before listed
    split at same
    · rename_i here
      obtain ⟨rfl, rfl⟩ := Prod.mk.inj same
      exact here ▸ changed before (here ▸ fits)
    · rename_i apart
      obtain ⟨rfl, rfl⟩ := Prod.mk.inj same
      exact others held before apart fits

theorem of_perm {more : Sections} (missing : name ∉ keys sections) (fits : Fits name pairs)
    (perm : more.Perm ((name, pairs) :: sections)) :
    Shelf Fits more := by
  refine ⟨(perm.map _).nodup_iff.mpr ?_, fun other held member => ?_⟩
  · rw [map_cons, nodup_cons]
    exact ⟨missing, shelf.distinct⟩
  · rcases mem_cons.mp (perm.mem_iff.mp member) with same | listed
    · cases same
      exact fits
    · exact shelf.fits other held listed

theorem emplaceBack (fits : Fits name pairs) :
    Shelf Fits (tryEmplaceBack name pairs sections) := by
  rw [tryEmplaceBack]
  split
  · exact shelf
  · rename_i missing
    exact shelf.of_perm missing fits (perm_append_singleton ..)

theorem enter (missing : name ∉ keys sections) (fits : Fits name pairs) (capacity : Nat) :
    Shelf Fits (Recency.enter capacity (name, pairs) sections).2 := by
  rw [Recency.enter]
  split
  · refine (shelf.sublist (dropLast_sublist _)).of_perm ?_ fits (.refl _)
    exact fun member => missing (((dropLast_sublist _).map _).subset member)
  · exact shelf.of_perm missing fits (.refl _)

theorem toFront (name : Text) :
    Shelf Fits (toFront name sections) := by
  rw [KeyedList.toFront]
  cases found : lookup name sections with
  | none => exact shelf
  | some pairs =>
    refine ((shelf.remove name).mono fun _ _ both => both.2).of_perm ?_ ?_ (.refl _)
    · exact fun member => (mem_keys_remove.mp member).2 rfl
    · exact shelf.fits name pairs (mem_of_lookup found)

theorem insertOrAssign (fits : Fits name pairs) (capacity : Nat) :
    Shelf Fits (Recency.insertOrAssign capacity name pairs sections).2 := by
  rw [Recency.insertOrAssign]
  split
  · refine ((shelf.remove name).mono fun _ _ both => both.2).of_perm ?_ fits (.refl _)
    exact fun member => (mem_keys_remove.mp member).2 rfl
  · rename_i missing
    exact shelf.enter missing fits capacity

theorem keepFilled (fits : pairs ≠ [] → Fits name pairs) :
    Shelf Fits (keepFilled name pairs sections) := by
  rw [ConfigCache.keepFilled]
  split
  · exact (shelf.remove name).mono fun _ _ both => both.2
  · rename_i some
    exact shelf.update (fun _ _ _ fits => fits) fun _ _ => fits (mt length_eq_zero_iff.mpr some)

end

theorem findOrEmplace {cache : ConfigCache} (shelf : Shelf Fits cache.temporaryDevices)
    (fits : Fits name []) : Shelf Fits (cache.findOrEmplace name) := by
  rw [ConfigCache.findOrEmplace]
  split
  · exact shelf.toFront name
  · rename_i missing
    rw [Recency.tryEmplace, if_neg missing]
    exact (shelf.toFront name).enter missing fits _

end Shelf

/-! ## The maps -/

variable {entry : MutationEntry} {outcome : Outcome Unit}

namespace ConfigCache

def HasKey (cache : ConfigCache) (pairs : Properties) : Prop :=
  ∃ property ∈ keys pairs, cache.isPersistentProperty property = true

/--
The sections are in their maps: a section that is good has the right kind of name and some
property, a persistent device has a persistent property, and what is temporary is spare.
-/
structure Stored (Good Spare : Text → Properties → Prop) (cache : ConfigCache) : Prop where
  information : Shelf (fun name pairs =>
    isDeviceSection name = false ∧ pairs ≠ [] ∧ Good name pairs)
    cache.informationSections
  persistent : Shelf (fun name pairs =>
    isDeviceSection name = true ∧ cache.HasKey pairs ∧ Good name pairs)
    cache.persistentDevices
  temporary : Shelf (fun name pairs =>
    isDeviceSection name = true ∧ pairs ≠ [] ∧ name ∉ keys cache.persistentDevices ∧
      Good name pairs ∧ Spare name pairs) cache.temporaryDevices

variable {Good Spare : Text → Properties → Prop} {cache : ConfigCache}
variable {name property value : Text}

theorem new_stored (capacity : Nat) (names : List Text) : (new capacity names).Stored Good Spare :=
  ⟨.nil, .nil, .nil⟩

theorem put_ne_nil (pairs : Properties) : put property value pairs ≠ [] := by
  rw [put]
  split
  · rename_i present
    intro empty
    rw [← keys_update property (fun _ => value), empty] at present
    cases present
  · exact append_ne_nil_of_right_ne_nil _ (cons_ne_nil _ _)

theorem mem_keys_put {other : Text} :
    other ∈ keys (put property value pairs) ↔ other = property ∨ other ∈ keys pairs := by
  rw [put]
  split
  · rename_i present
    rw [keys_update]
    exact ⟨.inr, fun member => member.elim (fun same => same ▸ present) id⟩
  · rw [KeyedList.keys_append, mem_append, or_comm]
    exact Iff.or mem_singleton Iff.rfl

/-! ## Setting a property -/

theorem storeProperty_of_information (kind : isDeviceSection name = false) :
    (cache.storeProperty name property value).cache = { cache with
      informationSections := update name (put property value)
        (tryEmplaceBack name [] cache.informationSections) } := by
  rw [storeProperty, if_pos (by rw [kind]; rfl)]

theorem storeProperty_of_persistent (kind : isDeviceSection name = true)
    (there : name ∈ keys cache.persistentDevices) :
    (cache.storeProperty name property value).cache = { cache with
      persistentDevices := update name (put property value) cache.persistentDevices } := by
  have stays : ¬ (name ∉ keys cache.persistentDevices ∧
      cache.isPersistentProperty property = true) := fun both => both.1 there
  rw [storeProperty, if_neg (by rw [kind]; exact Bool.false_ne_true)]
  simp only [if_neg stays, if_pos there]

section

variable (kind : isDeviceSection name = true) (missing : name ∉ keys cache.persistentDevices)
include missing

/-- A device that is promoted comes behind the persistent ones, with what it had. -/
theorem promote_eq : cache.promote name = { cache with
      persistentDevices :=
        cache.persistentDevices ++ [(name, (lookup name cache.temporaryDevices).getD [])]
      temporaryDevices := remove name cache.temporaryDevices } := by
  rw [promote]
  cases found : lookup name cache.temporaryDevices with
  | none =>
    rw [tryEmplaceBack, if_neg missing, remove_of_notMem (lookup_eq_none.mp found)]
    rfl
  | some pairs =>
    dsimp only
    rw [tryEmplaceBack, if_neg missing]
    rfl

theorem mem_keys_promote : name ∈ keys (cache.promote name).persistentDevices := by
  rw [promote_eq missing, KeyedList.keys_append]
  exact mem_append_right _ (mem_singleton_self name)

include kind

theorem storeProperty_of_promoted (persists : cache.isPersistentProperty property = true) :
    (cache.storeProperty name property value).cache = { cache.promote name with
      persistentDevices :=
        update name (put property value) (cache.promote name).persistentDevices } := by
  rw [storeProperty, if_neg (by rw [kind]; exact Bool.false_ne_true)]
  simp only [if_pos (And.intro missing persists), if_pos (mem_keys_promote missing)]

theorem storeProperty_of_temporary (transient : cache.isPersistentProperty property = false) :
    (cache.storeProperty name property value).cache = { cache with
      temporaryDevices := update name (put property value) (cache.findOrEmplace name) } := by
  have stays : ¬ (name ∉ keys cache.persistentDevices ∧
      cache.isPersistentProperty property = true) :=
    fun both => Bool.false_ne_true (transient.symm.trans both.2)
  rw [storeProperty, if_neg (by rw [kind]; exact Bool.false_ne_true)]
  simp only [if_neg stays, if_neg missing]

end

section Set

variable (stored : cache.Stored Good Spare)
variable (good : ∀ pairs, pairs = [] ∨ Good name pairs → Good name (put property value pairs))

include stored good

theorem Stored.setInformation (kind : isDeviceSection name = false) :
    Stored Good Spare { cache with
      informationSections := update name (put property value)
        (tryEmplaceBack name [] cache.informationSections) } := by
  refine ⟨?_, stored.persistent, stored.temporary⟩
  have more : Shelf (fun other pairs => (other = name ∧ pairs = []) ∨
      isDeviceSection other = false ∧ pairs ≠ [] ∧ Good other pairs)
      (tryEmplaceBack name [] cache.informationSections) :=
    (stored.information.mono fun _ _ fits => .inr fits).emplaceBack (.inl ⟨rfl, rfl⟩)
  refine more.update ?_ fun pairs held => ⟨kind, put_ne_nil pairs, good pairs ?_⟩
  · exact fun other pairs apart held => held.resolve_left fun both => apart both.1
  · exact held.imp And.right fun fits => fits.2.2

theorem Stored.setPersistent :
    Stored Good Spare { cache with
      persistentDevices := update name (put property value) cache.persistentDevices } := by
  refine ⟨stored.information, ?_, ?_⟩
  · refine stored.persistent.update (fun _ _ _ fits => fits) ?_
    rintro pairs ⟨kind, ⟨key, member, persists⟩, held⟩
    exact ⟨kind, ⟨key, mem_keys_put.mpr (.inr member), persists⟩, good pairs (.inr held)⟩
  · rw [keys_update]
    exact stored.temporary

theorem Stored.setPromoted (kind : isDeviceSection name = true)
    (missing : name ∉ keys cache.persistentDevices)
    (persists : cache.isPersistentProperty property = true) :
    Stored Good Spare { cache.promote name with
      persistentDevices :=
        update name (put property value) (cache.promote name).persistentDevices } := by
  have held : (lookup name cache.temporaryDevices).getD [] = [] ∨
      Good name ((lookup name cache.temporaryDevices).getD []) := by
    cases found : lookup name cache.temporaryDevices with
    | none => exact .inl rfl
    | some pairs =>
      exact .inr (stored.temporary.fits name pairs (mem_of_lookup found)).2.2.2.1
  rw [promote_eq missing]
  refine ⟨stored.information, ?_, ?_⟩
  · have more : Shelf (fun other pairs =>
        (other = name ∧ (pairs = [] ∨ Good name pairs)) ∨
          isDeviceSection other = true ∧ cache.HasKey pairs ∧ Good other pairs)
        (cache.persistentDevices ++ [(name, (lookup name cache.temporaryDevices).getD [])]) :=
      (stored.persistent.mono fun _ _ fits => .inr fits).of_perm missing (.inl ⟨rfl, held⟩)
        (perm_append_singleton ..)
    refine more.update ?_ fun pairs fits =>
      ⟨kind, ⟨property, mem_keys_put.mpr (.inl rfl), persists⟩, good pairs ?_⟩
    · exact fun other pairs apart fits => fits.resolve_left fun both => apart both.1
    · exact fits.elim And.right fun fits => .inr fits.2.2
  · refine (stored.temporary.remove name).mono ?_
    rintro other pairs ⟨apart, kindToo, filled, unsaved, rest⟩
    refine ⟨kindToo, filled, ?_, rest⟩
    rw [keys_update, KeyedList.keys_append, mem_append, not_or]
    exact ⟨unsaved, fun same => apart (mem_singleton.mp same)⟩

theorem Stored.setTemporary (kind : isDeviceSection name = true)
    (missing : name ∉ keys cache.persistentDevices)
    (spare : ∀ pairs, pairs = [] ∨ Spare name pairs → Spare name (put property value pairs)) :
    Stored Good Spare { cache with
      temporaryDevices := update name (put property value) (cache.findOrEmplace name) } := by
  refine ⟨stored.information, stored.persistent, ?_⟩
  have more : Shelf (fun other pairs => (other = name ∧ pairs = []) ∨
      isDeviceSection other = true ∧ pairs ≠ [] ∧ other ∉ keys cache.persistentDevices ∧
        Good other pairs ∧ Spare other pairs) (cache.findOrEmplace name) :=
    (stored.temporary.mono fun _ _ fits => .inr fits).findOrEmplace (.inl ⟨rfl, rfl⟩)
  refine more.update ?_ fun pairs held =>
    ⟨kind, put_ne_nil pairs, missing, good pairs ?_, spare pairs ?_⟩
  · exact fun other pairs apart held => held.resolve_left fun both => apart both.1
  · exact held.imp And.right fun fits => fits.2.2.2.1
  · exact held.imp And.right fun fits => fits.2.2.2.2

theorem Stored.storeProperty (spare : cache.isPersistentProperty property = false →
      ∀ pairs, pairs = [] ∨ Spare name pairs → Spare name (put property value pairs)) :
    (cache.storeProperty name property value).cache.Stored Good Spare := by
  cases kind : isDeviceSection name with
  | false =>
    rw [storeProperty_of_information kind]
    exact stored.setInformation good kind
  | true =>
    by_cases there : name ∈ keys cache.persistentDevices
    · rw [storeProperty_of_persistent kind there]
      exact stored.setPersistent good
    · cases persists : cache.isPersistentProperty property with
      | true =>
        rw [storeProperty_of_promoted kind there persists]
        exact stored.setPromoted good kind there persists
      | false =>
        rw [storeProperty_of_temporary kind there persists]
        exact stored.setTemporary good kind there (spare persists)

end Set

/-! ## Removing -/

section Remove

variable (stored : cache.Stored Good Spare)

include stored

theorem Stored.removeSection (name : Text) :
    (cache.removeSection name).cache.Stored Good Spare := by
  rw [ConfigCache.removeSection]
  split
  · exact ⟨stored.information.sublist filter_sublist, stored.persistent, stored.temporary⟩
  · split
    · refine ⟨stored.information, stored.persistent.sublist filter_sublist,
        stored.temporary.mono ?_⟩
      rintro other pairs ⟨kind, filled, unsaved, rest⟩
      exact ⟨kind, filled, fun member => unsaved (mem_keys_remove.mp member).1, rest⟩
    · exact ⟨stored.information, stored.persistent, stored.temporary.sublist filter_sublist⟩

theorem Stored.removeSectionWithProperty (property : Text) :
    (cache.removeSectionWithProperty property).cache.Stored Good Spare := by
  refine ⟨stored.information.sublist filter_sublist, stored.persistent.sublist filter_sublist,
    (stored.temporary.sublist filter_sublist).mono ?_⟩
  rintro other pairs ⟨kind, filled, unsaved, rest⟩
  exact ⟨kind, filled, fun member => unsaved ((filter_sublist.map _).subset member), rest⟩

theorem Stored.removeFromPersistent (found : lookup name cache.persistentDevices = some pairs)
    (good : Good name pairs → Good name (remove property pairs))
    (moved : property ∈ keys pairs → cache.isPersistentProperty property = true →
      Spare name (remove property pairs)) :
    Stored Good Spare (if (remove property pairs).length = 0 then
        { cache with persistentDevices := remove name cache.persistentDevices }
      else if property ∈ keys pairs ∧ cache.isPersistentProperty property then
        { cache with
          persistentDevices := remove name cache.persistentDevices
          temporaryDevices := (Recency.insertOrAssign cache.temporaryCapacity name
            (remove property pairs) cache.temporaryDevices).2 }
      else
        { cache with
          persistentDevices :=
            update name (fun _ => remove property pairs) cache.persistentDevices }) := by
  obtain ⟨kind, ⟨key, member, persists⟩, held⟩ :=
    stored.persistent.fits name pairs (mem_of_lookup found)
  have unsaved : Shelf (fun other pairs => isDeviceSection other = true ∧ pairs ≠ [] ∧
      other ∉ keys (remove name cache.persistentDevices) ∧ Good other pairs ∧
      Spare other pairs) cache.temporaryDevices := by
    refine stored.temporary.mono ?_
    rintro other pairs ⟨kind, filled, unsaved, rest⟩
    exact ⟨kind, filled, fun member => unsaved (mem_keys_remove.mp member).1, rest⟩
  have fewer := stored.persistent.sublist (filter_sublist (p := fun entry => entry.1 ≠ name))
  split
  · exact ⟨stored.information, fewer, unsaved⟩
  · rename_i some
    have filled : remove property pairs ≠ [] := mt length_eq_zero_iff.mpr some
    split
    · rename_i leaves
      refine ⟨stored.information, fewer, unsaved.insertOrAssign ?_ _⟩
      exact ⟨kind, filled, fun member => (mem_keys_remove.mp member).2 rfl, good held,
        moved leaves.1 leaves.2⟩
    · rename_i stays
      refine ⟨stored.information, ?_, ?_⟩
      · refine stored.persistent.update (fun _ _ _ fits => fits) fun _ _ => ⟨kind, ?_, good held⟩
        refine ⟨key, mem_keys_remove.mpr ⟨member, ?_⟩, persists⟩
        rintro rfl
        exact stays ⟨member, persists⟩
      · rw [keys_update]
        exact stored.temporary

theorem Stored.removeProperty (good : ∀ pairs, Good name pairs → Good name (remove property pairs))
    (spare : ∀ pairs, Spare name pairs → Spare name (remove property pairs))
    (moved : ∀ pairs, lookup name cache.persistentDevices = some pairs →
      property ∈ keys pairs → cache.isPersistentProperty property = true →
        Spare name (remove property pairs)) :
    (cache.removeProperty name property).cache.Stored Good Spare := by
  rw [ConfigCache.removeProperty]
  split
  · rename_i pairs found
    obtain ⟨kind, -, held⟩ := stored.information.fits name pairs (mem_of_lookup found)
    exact ⟨stored.information.keepFilled fun some => ⟨kind, some, good pairs held⟩,
      stored.persistent, stored.temporary⟩
  · split
    · rename_i pairs found
      exact stored.removeFromPersistent found (good pairs) (moved pairs found)
    · split
      · rename_i pairs found
        obtain ⟨kind, -, unsaved, held, extra⟩ :=
          stored.temporary.fits name pairs (mem_of_lookup found)
        exact ⟨stored.information, stored.persistent, (stored.temporary.toFront name).keepFilled
          fun some => ⟨kind, some, unsaved, good pairs held, spare pairs extra⟩⟩
      · exact stored

end Remove

/-! ## Calls -/

section

variable (cache)

/-- The cache after one entry of a commit. -/
def mutated (entry : MutationEntry) : Option ConfigCache :=
  (cache.mutate entry).map Outcome.cache

theorem commit_eq_run (entries : List MutationEntry) :
    (cache.commit entries).map Outcome.cache = run mutated cache entries := by
  induction entries generalizing cache with
  | nil => rfl
  | cons entry rest ih =>
    rw [commit, run_cons, mutated]
    cases cache.mutate entry with
    | none => rfl
    | some first =>
      change _ = run mutated first.cache rest
      rw [← ih first.cache, bind_eq_bind, bind_some]
      cases first.cache.commit rest with
      | none | some => rfl

theorem storeProperty_names (name property value : Text) :
    (cache.storeProperty name property value).cache.persistentPropertyNames =
      cache.persistentPropertyNames := by
  cases kind : isDeviceSection name with
  | false => rw [storeProperty_of_information kind]
  | true =>
    by_cases there : name ∈ keys cache.persistentDevices
    · rw [storeProperty_of_persistent kind there]
    · cases persists : cache.isPersistentProperty property with
      | true =>
        rw [storeProperty_of_promoted kind there persists, promote]
        split <;> rfl
      | false => rw [storeProperty_of_temporary kind there persists]

theorem removeProperty_names (name property : Text) :
    (cache.removeProperty name property).cache.persistentPropertyNames =
      cache.persistentPropertyNames := by
  rw [removeProperty]
  split
  · rfl
  · split
    · dsimp only
      split
      · rfl
      · split <;> rfl
    · split <;> rfl

theorem removeSection_names (name : Text) :
    (cache.removeSection name).cache.persistentPropertyNames = cache.persistentPropertyNames := by
  rw [removeSection]
  split
  · rfl
  · split <;> rfl

end

theorem setProperty_eq_some {name property value : Text}
    (done : cache.setProperty name property value = some outcome) :
    cache.storeProperty (trimAfterNewLine name) (trimAfterNewLine property)
      (trimAfterNewLine value) = outcome := by
  simp only [setProperty, ite_none_left_eq_some, some.injEq] at done
  exact done.2.2

theorem mutate_names (done : cache.mutate entry = some outcome) :
    outcome.cache.persistentPropertyNames = cache.persistentPropertyNames := by
  cases entry with
  | set name property value =>
    rw [← setProperty_eq_some done]
    exact storeProperty_names ..
  | removeProperty name property =>
    cases done
    exact removeProperty_names ..
  | removeSection name =>
    cases done
    exact removeSection_names ..

/-! ## Placement -/

/-- Each section has one place, and a device with a persistent property is persistent. -/
structure Placed (cache : ConfigCache) : Prop where
  unique : (keys cache.informationSections ++
    (keys cache.persistentDevices ++ keys cache.temporaryDevices)).Nodup
  filled : ∀ entry ∈ cache.informationSections ++
    (cache.persistentDevices ++ cache.temporaryDevices), entry.2 ≠ []
  information : ∀ name ∈ keys cache.informationSections, isDeviceSection name = false
  devices : ∀ name ∈ keys cache.persistentDevices ++ keys cache.temporaryDevices,
    isDeviceSection name = true
  keyed : ∀ name pairs, (name, pairs) ∈ cache.persistentDevices ++ cache.temporaryDevices →
    (name ∈ keys cache.persistentDevices ↔ cache.HasKey pairs)

/-- No property has one of the names. -/
def Keyless (names : List Text) (_ : Text) (pairs : Properties) : Prop :=
  ∀ property ∈ keys pairs, property ∉ names

/-- The sections are in their maps, and a temporary device has no persistent property. -/
structure Ordered (names : List Text) (cache : ConfigCache) : Prop where
  names_eq : cache.persistentPropertyNames = names
  stored : cache.Stored (fun _ _ => True) (Keyless names)

theorem HasKey.ne_nil (keyed : cache.HasKey pairs) :
    pairs ≠ [] := by
  rintro rfl
  obtain ⟨_, member, -⟩ := keyed
  cases member

theorem isPersistentProperty_iff (same : cache.persistentPropertyNames = names) :
    cache.isPersistentProperty property = true ↔ property ∈ names := by
  rw [isPersistentProperty, decide_eq_true_iff, same]

theorem Ordered.placed (ordered : cache.Ordered names) : cache.Placed := by
  obtain ⟨same, information, persistent, temporary⟩ := ordered
  have kindsToo : ∀ name ∈ keys cache.persistentDevices ++ keys cache.temporaryDevices,
      isDeviceSection name = true := by
    intro name member
    rcases mem_append.mp member with member | member
    · obtain ⟨⟨held, pairs⟩, listed, rfl⟩ := mem_map.mp member
      exact (persistent.fits held pairs listed).1
    · obtain ⟨⟨held, pairs⟩, listed, rfl⟩ := mem_map.mp member
      exact (temporary.fits held pairs listed).1
  have kinds : ∀ name ∈ keys cache.informationSections, isDeviceSection name = false := by
    intro name member
    obtain ⟨⟨held, pairs⟩, listed, rfl⟩ := mem_map.mp member
    exact (information.fits held pairs listed).1
  have apart : ∀ name ∈ keys cache.temporaryDevices, name ∉ keys cache.persistentDevices := by
    intro name member
    obtain ⟨⟨held, pairs⟩, listed, rfl⟩ := mem_map.mp member
    exact (temporary.fits held pairs listed).2.2.1
  refine ⟨?_, ?_, kinds, kindsToo, ?_⟩
  · refine nodup_append.mpr ⟨information.distinct, nodup_append.mpr
      ⟨persistent.distinct, temporary.distinct, ?_⟩, ?_⟩
    · rintro name member other memberToo rfl
      exact apart name memberToo member
    · rintro name member other memberToo rfl
      exact Bool.false_ne_true ((kinds name member).symm.trans (kindsToo name memberToo))
  · rintro ⟨name, pairs⟩ member
    rcases mem_append.mp member with member | member
    · exact (information.fits name pairs member).2.1
    · rcases mem_append.mp member with member | member
      · exact (persistent.fits name pairs member).2.1.ne_nil
      · exact (temporary.fits name pairs member).2.1
  · intro name pairs member
    rcases mem_append.mp member with member | member
    · exact iff_of_true (mem_keys member) (persistent.fits name pairs member).2.1
    · obtain ⟨-, -, unsaved, -, keyless⟩ := temporary.fits name pairs member
      refine iff_of_false unsaved ?_
      rintro ⟨property, listed, persists⟩
      exact keyless property listed ((isPersistentProperty_iff same).mp persists)

/-- A persistent property is removed from a persistent device only if it has no other one. -/
def SparesKeys (cache : ConfigCache) : MutationEntry → Prop
  | .removeProperty name property =>
    match lookup name cache.persistentDevices with
    | none => True
    | some pairs =>
      property ∈ keys pairs → cache.isPersistentProperty property = true →
        ∀ other ∈ keys pairs, other ≠ property → cache.isPersistentProperty other = false
  | .set _ _ _ | .removeSection _ => True

instance (cache : ConfigCache) (entry : MutationEntry) : Decidable (cache.SparesKeys entry) := by
  unfold SparesKeys
  repeat' split
  all_goals infer_instance

/-- What `SparesKeys` asks for, along a commit too. -/
def KeepsKeys (cache : ConfigCache) : Call → Prop
  | .mutation entry => cache.SparesKeys entry
  | .removeSectionWithProperty _ => True
  | .commit entries => Along mutated SparesKeys cache entries

instance (cache : ConfigCache) (event : Call) : Decidable (cache.KeepsKeys event) := by
  unfold KeepsKeys
  split <;> infer_instance

theorem keyless_put (transient : property ∉ names) (pairs : Properties)
    (before : pairs = [] ∨ Keyless names name pairs) :
    Keyless names name (put property value pairs) := by
  intro other member
  rcases mem_keys_put.mp member with rfl | member
  · exact transient
  · rcases before with rfl | keyless
    · cases member
    · exact keyless other member

theorem Ordered.mutate (ordered : cache.Ordered names) (spares : cache.SparesKeys entry)
    (done : cache.mutate entry = some outcome) : outcome.cache.Ordered names := by
  refine ⟨(mutate_names done).trans ordered.names_eq, ?_⟩
  have stored := ordered.stored
  cases entry with
  | set name property value =>
    rw [← setProperty_eq_some done]
    refine stored.storeProperty (fun _ _ => trivial) fun transient => keyless_put ?_
    rw [← isPersistentProperty_iff ordered.names_eq, transient]
    exact Bool.false_ne_true
  | removeProperty name property =>
    cases done
    refine stored.removeProperty (fun _ _ => trivial) ?_ ?_
    · intro pairs keyless other member
      exact keyless other (mem_keys_remove.mp member).1
    · intro pairs found there persists other member
      rw [SparesKeys, found] at spares
      obtain ⟨listed, apart⟩ := mem_keys_remove.mp member
      rw [← isPersistentProperty_iff ordered.names_eq, spares there persists other listed apart]
      exact Bool.false_ne_true
  | removeSection name =>
    cases done
    exact stored.removeSection name

/-- A mutation that does not spare them leaves a device with a key among the temporary ones. -/
theorem Ordered.not_placed (ordered : cache.Ordered names) (careless : ¬ cache.SparesKeys entry)
    (done : cache.mutate entry = some outcome) : ¬ outcome.cache.Placed := by
  cases entry with
  | set | removeSection => exact absurd trivial careless
  | removeProperty name property =>
    cases done
    rw [SparesKeys] at careless
    split at careless
    · exact absurd trivial careless
    · rename_i pairs found
      push Not at careless
      obtain ⟨there, persists, other, listed, apart, otherPersists⟩ := careless
      replace otherPersists := eq_true_of_ne_false otherPersists
      have kept : other ∈ keys (remove property pairs) :=
        mem_keys_remove.mpr ⟨listed, apart⟩
      have filled : (remove property pairs).length ≠ 0 := by
        intro empty
        rw [length_eq_zero_iff.mp empty] at kept
        cases kept
      have device := (ordered.stored.persistent.fits name pairs (mem_of_lookup found)).1
      have unlisted : lookup name cache.informationSections = none := by
        refine lookup_eq_none.mpr fun member => ?_
        obtain ⟨⟨held, others⟩, informs, rfl⟩ := mem_map.mp member
        have kind := (ordered.stored.information.fits held others informs).1
        exact Bool.false_ne_true (kind.symm.trans device)
      rw [removeProperty, unlisted, found]
      simp only [if_neg filled, if_pos (And.intro there persists)]
      intro placed
      have moved : (name, remove property pairs) ∈ (Recency.insertOrAssign
          cache.temporaryCapacity name (remove property pairs) cache.temporaryDevices).2 := by
        rw [Recency.insertOrAssign]
        split
        · exact mem_cons_self ..
        · rw [Recency.enter]
          split <;> exact mem_cons_self ..
      have saved := (placed.keyed _ _ (mem_append_right _ moved)).mpr ⟨other, kept, otherPersists⟩
      exact (mem_keys_remove.mp saved).2 rfl

theorem Ordered.next (ordered : cache.Ordered names) {event : Call} (keeps : cache.KeepsKeys event)
    {after : ConfigCache} (done : cache.next event = some after) :
    after.Ordered names := by
  cases event with
  | mutation entry =>
    obtain ⟨outcome, mutates, rfl⟩ := map_eq_some_iff.mp done
    exact ordered.mutate keeps mutates
  | removeSectionWithProperty property =>
    cases done
    exact ⟨ordered.names_eq, ordered.stored.removeSectionWithProperty property⟩
  | commit entries =>
    have ran : run mutated cache entries = some after := (commit_eq_run ..).symm.trans done
    refine invariant_along ?_ ordered keeps ran
    intro state entry later orderedState spares mutates
    obtain ⟨outcome, done, rfl⟩ := map_eq_some_iff.mp mutates
    exact orderedState.mutate spares done

/--
In every state that is reached by calls that keep the keys, each section has its place; and
a mutation leaves each section at its place exactly if it spares the keys of the persistent
devices.
-/
theorem run_placed {capacity : Nat} {names : List Text} {calls : List Call} {last : ConfigCache}
    (guarded : Along next KeepsKeys (new capacity names) calls)
    (reached : run next (new capacity names) calls = some last) :
    last.Placed ∧ (∀ property, (last.removeSectionWithProperty property).cache.Placed) ∧
      ∀ entry outcome, last.mutate entry = some outcome →
        (outcome.cache.Placed ↔ last.SparesKeys entry) := by
  have ordered : last.Ordered names := by
    refine invariant_along ?_ ⟨rfl, new_stored capacity names⟩ guarded reached
    exact fun state event later orderedState keeps done => orderedState.next keeps done
  refine ⟨ordered.placed, ?_, ?_⟩
  · intro property
    have after : (last.removeSectionWithProperty property).cache.Ordered names :=
      ⟨ordered.names_eq, ordered.stored.removeSectionWithProperty property⟩
    exact after.placed
  · intro entry outcome done
    constructor
    · intro placed
      by_contra careless
      exact ordered.not_placed careless done placed
    · intro spares
      exact (ordered.mutate spares done).placed

/-- A device with two keys, next to a property of the adapter. -/
def pairedCalls : List Call :=
  [.mutation (.set (ascii "Adapter") (ascii "Name") (ascii "phone")),
    .commit [.set (ascii "11:22:33:44:55:66") (ascii "Name") (ascii "watch"),
      .set (ascii "11:22:33:44:55:66") (ascii "LinkKey") (ascii "aa")],
    .mutation (.set (ascii "11:22:33:44:55:66") (ascii "LE_KEY_PENC") (ascii "bb"))]

theorem run_placed_paired : ∃ last, run next (new 2 linkKeyProperties) pairedCalls = some last ∧
    last.Placed ∧ keys last.persistentDevices = [ascii "11:22:33:44:55:66"] := by
  have guarded : Along next KeepsKeys (new 2 linkKeyProperties) pairedCalls := by decide
  exact ⟨_, rfl, (run_placed guarded rfl).1, by decide⟩

/-- One key is removed, and the device leaves the persistent ones with the other key. -/
theorem removed_key_unplaces :
    ∃ last outcome, run next (new 2 linkKeyProperties) pairedCalls = some last ∧
      last.mutate (.removeProperty (ascii "11:22:33:44:55:66") (ascii "LE_KEY_PENC")) =
        some outcome ∧ outcome.cache.persistentDevices = [] ∧
      outcome.cache.temporaryDevices = [(ascii "11:22:33:44:55:66",
        [(ascii "Name", ascii "watch"), (ascii "LinkKey", ascii "aa")])] ∧
      ¬ outcome.cache.Placed := by
  refine ⟨_, _, rfl, rfl, by decide, by decide, ?_⟩
  intro placed
  have saved := (placed.keyed (ascii "11:22:33:44:55:66")
    [(ascii "Name", ascii "watch"), (ascii "LinkKey", ascii "aa")] (by decide)).mpr
    ⟨ascii "LinkKey", by decide, by decide⟩
  exact absurd saved (by decide)

end ConfigCache

end BluetoothFormal.Storage
