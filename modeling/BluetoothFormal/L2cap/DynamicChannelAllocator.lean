import BluetoothFormal.Foundation.KeyedList
import BluetoothFormal.Foundation.Transition

/-!
# The allocator of dynamic channels

`DynamicChannelAllocator` keeps the local cids that are taken, the open channels by their
local cid, and the remote cids of the open channels.  A local cid can be reserved before its
channel is opened.

The search for a local cid counts in 16 bits up to the largest number of 16 bits, so its
counter is never beyond the last cid: it wraps, and goes on with the cids of fixed channels.
-/

namespace BluetoothFormal.L2cap

open Foundation Foundation.Transition Foundation.KeyedList Option
open List hiding lookup

def kInvalidCid : UInt16 := 0
def kLastFixedChannel : UInt16 := 63
def kFirstDynamicChannel : UInt16 := kLastFixedChannel + 1
def kLastDynamicChannel : UInt16 := 0xffff

/-- `DynamicChannelImpl`, by what the allocator reads. -/
structure DynamicChannelImpl where
  psm : UInt16
  cid : UInt16
  remoteCid : UInt16

/-- The constructor with its assertions. -/
def DynamicChannelImpl.make (psm cid remoteCid : UInt16) : Option DynamicChannelImpl :=
  if 0 < cid ∧ 0 < remoteCid then some ⟨psm, cid, remoteCid⟩ else none

structure DynamicChannelAllocator where
  usedCid : List UInt16
  channels : List (UInt16 × DynamicChannelImpl)
  usedRemoteCid : List UInt16

variable {cid remoteCid psm : UInt16} {count : Nat}

variable {rounds : Nat}

namespace DynamicChannelAllocator

def new : DynamicChannelAllocator := ⟨[], [], []⟩

/-- The search for a cid that is not used; `none` after the given number of rounds. -/
def searchLoop (used : List UInt16) : Nat → UInt16 → Option UInt16
  | 0, _ => none
  | rounds + 1, cid =>
    if cid ≤ kLastDynamicChannel then
      if cid ∈ used then searchLoop used rounds (cid + 1) else some cid
    else some cid

/-- The search; its counter has taken all its values after 65536 rounds. -/
def search (used : List UInt16) : Option UInt16 := searchLoop used 65536 kFirstDynamicChannel

section

variable (self : DynamicChannelAllocator)

/-- `try_emplace` with the assertion that it has inserted the channel. -/
def emplace (channel : DynamicChannelImpl) : Option DynamicChannelAllocator :=
  if channel.cid ∈ keys self.channels then none
  else some
    { self with
      channels := self.channels ++ [(channel.cid, channel)]
      usedRemoteCid := self.usedRemoteCid.insert channel.remoteCid }

/-- What a call returns. -/
inductive Result where
  | channel (channel : Option DynamicChannelImpl)
  | cid (cid : UInt16)
  | done

/-- `AllocateChannel`; `none` if the search does not end or an assertion fails. -/
def allocateChannel (psm remoteCid : UInt16) : Option (DynamicChannelAllocator × Result) :=
  if remoteCid ∈ self.usedRemoteCid then some (self, .channel none)
  else do
    let cid ← search self.usedCid
    if kLastDynamicChannel < cid then return (self, .channel none)
    let channel ← DynamicChannelImpl.make psm cid remoteCid
    let emplaced ← self.emplace channel
    return ({ emplaced with usedCid := emplaced.usedCid.insert cid }, .channel (some channel))

/-- `AllocateReservedChannel`, which leaves the used cids as they are. -/
def allocateReservedChannel (reservedCid psm remoteCid : UInt16) :
    Option (DynamicChannelAllocator × Result) :=
  if remoteCid ∈ self.usedRemoteCid then some (self, .channel none)
  else do
    let channel ← DynamicChannelImpl.make psm reservedCid remoteCid
    let emplaced ← self.emplace channel
    return (emplaced, .channel (some channel))

def reserveChannel :
    Option (DynamicChannelAllocator × Result) := do
  let cid ← search self.usedCid
  if kLastDynamicChannel < cid then return (self, .cid kInvalidCid)
  return ({ self with usedCid := self.usedCid.insert cid }, .cid cid)

def freeChannel (cid : UInt16) : DynamicChannelAllocator :=
  let erased := { self with usedCid := self.usedCid.filter (· ≠ cid) }
  match lookup cid erased.channels with
  | none => erased
  | some channel =>
    { erased with
      usedRemoteCid := erased.usedRemoteCid.filter (· ≠ channel.remoteCid)
      channels := remove cid erased.channels }

inductive Call where
  | allocate (psm remoteCid : UInt16)
  | allocateReserved (reservedCid psm remoteCid : UInt16)
  | reserve
  | free (cid : UInt16)

def perform : Call → Option (DynamicChannelAllocator × Result)
  | .allocate psm remoteCid => self.allocateChannel psm remoteCid
  | .allocateReserved reservedCid psm remoteCid =>
    self.allocateReservedChannel reservedCid psm remoteCid
  | .reserve => self.reserveChannel
  | .free cid => some (self.freeChannel cid, .done)

end

def step : PartialStep DynamicChannelAllocator Call :=
  fun self call => (self.perform call).map Prod.fst

/-! ## The search -/

variable {used : List UInt16}

theorem searchLoop_succ (used : List UInt16) (rounds : Nat) (cid : UInt16) :
    searchLoop used (rounds + 1) cid =
      if cid ∈ used then searchLoop used rounds (cid + 1) else some cid :=
  if_pos (UInt16.le_iff_toNat_le.mpr (Nat.le_of_lt_succ cid.toNat_lt))

section

variable (cid)

/-- The counter after a number of rounds. -/
def counted (rounds : Nat) : UInt16 := cid + UInt16.ofNat rounds

theorem counted_zero : counted cid 0 = cid := UInt16.add_zero cid

theorem counted_succ (rounds : Nat) : counted (cid + 1) rounds = counted cid (rounds + 1) := by
  rw [counted, counted, UInt16.ofNat_add, UInt16.add_assoc, UInt16.add_comm 1]
  rfl

theorem toNat_counted (rounds : Nat) :
    (counted cid rounds).toNat = (cid.toNat + rounds) % 65536 := by
  rw [counted, UInt16.toNat_add, UInt16.toNat_ofNat']
  omega

end

theorem searchLoop_eq_none :
    searchLoop used rounds cid = none ↔ ∀ i < rounds, counted cid i ∈ used := by
  induction rounds generalizing cid with
  | zero => exact ⟨fun _ i below => absurd below (Nat.not_lt_zero i), fun _ => rfl⟩
  | succ rounds ih =>
    rw [searchLoop_succ]
    by_cases taken : cid ∈ used
    · rw [if_pos taken, ih]
      constructor
      · intro all i below
        cases i with
        | zero => rwa [counted_zero]
        | succ i =>
          rw [← counted_succ]
          exact all i (Nat.lt_of_succ_lt_succ below)
      · intro all i below
        rw [counted_succ]
        exact all (i + 1) (Nat.succ_lt_succ below)
    · rw [if_neg taken]
      refine ⟨fun ended => absurd ended (some_ne_none cid), fun all => absurd ?_ taken⟩
      have first := all 0 (Nat.zero_lt_succ rounds)
      rwa [counted_zero] at first

theorem searchLoop_eq_some {found : UInt16} (ended : searchLoop used rounds cid = some found) :
    ∃ passed < rounds, found = counted cid passed ∧ found ∉ used ∧
      ∀ i < passed, counted cid i ∈ used := by
  induction rounds generalizing cid with
  | zero => cases ended
  | succ rounds ih =>
    rw [searchLoop_succ] at ended
    by_cases taken : cid ∈ used
    · rw [if_pos taken] at ended
      obtain ⟨passed, below, at_, free, before⟩ := ih ended
      refine ⟨passed + 1, Nat.succ_lt_succ below, by rw [at_, counted_succ], free, ?_⟩
      intro i earlier
      cases i with
      | zero => rwa [counted_zero]
      | succ i =>
        rw [← counted_succ]
        exact before i (Nat.lt_of_succ_lt_succ earlier)
    · rw [if_neg taken] at ended
      obtain rfl := some.inj ended
      exact ⟨0, Nat.zero_lt_succ rounds, (counted_zero cid).symm, taken,
        fun i earlier => absurd earlier (Nat.not_lt_zero i)⟩

theorem cid_in_range (cid : UInt16) : ¬ kLastDynamicChannel < cid := by
  rw [UInt16.not_lt]
  exact UInt16.le_iff_toNat_le.mpr (Nat.le_of_lt_succ cid.toNat_lt)

def IsDynamic (cid : UInt16) : Prop := kFirstDynamicChannel ≤ cid

theorem search_of_free {free : UInt16} (dynamic : IsDynamic free) (unused : free ∉ used) :
    ∃ found, search used = some found ∧ IsDynamic found ∧ found ∉ used ∧
      found.toNat ≤ free.toNat := by
  have reach := free.toNat_lt
  have start : kFirstDynamicChannel.toNat = 64 := rfl
  have above : 64 ≤ free.toNat := UInt16.le_iff_toNat_le.mp dynamic
  have counter : counted kFirstDynamicChannel (free.toNat - 64) = free := by
    apply UInt16.toNat_inj.mp
    rw [toNat_counted, start]
    omega
  cases result : search used with
  | none =>
    have taken := searchLoop_eq_none.mp result (free.toNat - 64) (by omega)
    rw [counter] at taken
    exact absurd taken unused
  | some found =>
    obtain ⟨passed, _, rfl, notUsed, before⟩ := searchLoop_eq_some result
    have early : passed ≤ free.toNat - 64 := by
      rw [← Nat.not_lt]
      intro later
      have taken := before (free.toNat - 64) later
      rw [counter] at taken
      exact unused taken
    refine ⟨_, rfl, ?_, notUsed, ?_⟩
    · rw [IsDynamic, UInt16.le_iff_toNat_le, toNat_counted, start]
      omega
    · rw [toNat_counted, start]
      omega

/-- Without one, the counter wraps and the search ends at zero. -/
theorem search_of_full (full : ∀ cid, IsDynamic cid → cid ∈ used) (zero : 0 ∉ used) :
    search used = some 0 := by
  have start : kFirstDynamicChannel.toNat = 64 := rfl
  have counter : counted kFirstDynamicChannel 65472 = 0 := by decide
  cases result : search used with
  | none =>
    have taken := searchLoop_eq_none.mp result 65472 (by decide)
    rw [counter] at taken
    exact absurd taken zero
  | some found =>
    obtain ⟨passed, _, rfl, notUsed, before⟩ := searchLoop_eq_some result
    rcases Nat.lt_trichotomy passed 65472 with early | rfl | late
    · refine absurd (full _ ?_) notUsed
      rw [IsDynamic, UInt16.le_iff_toNat_le, toNat_counted, start]
      omega
    · rw [counter]
    · have taken := before 65472 late
      rw [counter] at taken
      exact absurd taken zero

/-! ## The tables -/

/-- The tables agree with the open channels. -/
structure Consistent (allocator : DynamicChannelAllocator) : Prop where
  distinct : (keys allocator.channels).Nodup
  keyed : ∀ entry ∈ allocator.channels, entry.2.cid = entry.1
  dynamic : ∀ cid ∈ allocator.usedCid, IsDynamic cid
  marked : ∀ cid ∈ keys allocator.channels, cid ∈ allocator.usedCid
  remotes : ∀ remoteCid, remoteCid ∈ allocator.usedRemoteCid ↔
    ∃ entry ∈ allocator.channels, entry.2.remoteCid = remoteCid
  apart : (allocator.channels.map fun entry => entry.2.remoteCid).Nodup

def IsOpen (self : DynamicChannelAllocator) (channel : DynamicChannelImpl) : Prop :=
  (channel.cid, channel) ∈ self.channels

/-- What a call has to return, and what it has to leave behind. -/
def Answers (before : DynamicChannelAllocator) :
    Call → Result → DynamicChannelAllocator → Prop
  | .allocate psm remoteCid, .channel (some channel), after =>
    channel.psm = psm ∧ channel.remoteCid = remoteCid ∧ IsDynamic channel.cid ∧
      channel.cid ∉ before.usedCid ∧ after.IsOpen channel
  | .allocate _ remoteCid, .channel none, after =>
    (remoteCid ∈ before.usedRemoteCid ∨ ∀ cid, IsDynamic cid → cid ∈ before.usedCid) ∧
      after = before
  | .allocateReserved reservedCid psm remoteCid, .channel (some channel), after =>
    channel = ⟨psm, reservedCid, remoteCid⟩ ∧ IsDynamic reservedCid ∧
      reservedCid ∉ keys before.channels ∧ after.IsOpen channel
  | .allocateReserved _ _ remoteCid, .channel none, after =>
    remoteCid ∈ before.usedRemoteCid ∧ after = before
  | .reserve, .cid cid, after =>
    IsDynamic cid ∧ cid ∉ before.usedCid ∧ cid ∈ after.usedCid
  | .free cid, .done, after =>
    cid ∉ after.usedCid ∧ cid ∉ keys after.channels ∧
      ∀ channel, channel.cid = cid → before.IsOpen channel → channel.remoteCid ∉ after.usedRemoteCid
  | _, _, _ => False

/--
A remote cid that is not taken is a valid one, a reserved cid is used and not open, and a
dynamic cid is free when one is needed.
-/
def Admissible (self : DynamicChannelAllocator) : Call → Prop
  | .allocate _ remoteCid =>
    remoteCid ∈ self.usedRemoteCid ∨
      (remoteCid ≠ kInvalidCid ∧ ∃ cid, IsDynamic cid ∧ cid ∉ self.usedCid)
  | .allocateReserved reservedCid _ remoteCid =>
    remoteCid ∈ self.usedRemoteCid ∨ (remoteCid ≠ kInvalidCid ∧ reservedCid ∈ self.usedCid ∧
        reservedCid ∉ keys self.channels)
  | .reserve => ∃ cid, IsDynamic cid ∧ cid ∉ self.usedCid
  | .free _ => True

variable {self : DynamicChannelAllocator}

theorem new_consistent : new.Consistent where
  distinct := nodup_nil
  keyed _ member := absurd member not_mem_nil
  dynamic _ member := absurd member not_mem_nil
  marked _ member := absurd member not_mem_nil
  remotes _ := ⟨fun member => absurd member not_mem_nil,
    fun ⟨_, member, _⟩ => absurd member not_mem_nil⟩
  apart := nodup_nil

theorem make_eq (dynamic : IsDynamic cid) (valid : remoteCid ≠ kInvalidCid) :
    DynamicChannelImpl.make psm cid remoteCid = some ⟨psm, cid, remoteCid⟩ := by
  refine if_pos ⟨UInt16.lt_of_lt_of_le (by decide) dynamic, ?_⟩
  exact UInt16.pos_iff_ne_zero.mpr valid

section

variable (consistent : self.Consistent)
include consistent

theorem Consistent.emplace (channel : DynamicChannelImpl)
    (closed : channel.cid ∉ keys self.channels)
    (fresh : channel.remoteCid ∉ self.usedRemoteCid) (usedCid : List UInt16)
    (dynamic : ∀ cid ∈ usedCid, IsDynamic cid) (marked : channel.cid ∈ usedCid)
    (kept : ∀ cid ∈ self.usedCid, cid ∈ usedCid) :
    ∃ emplaced, self.emplace channel = some emplaced ∧ emplaced.usedCid = self.usedCid ∧
      { emplaced with usedCid := usedCid }.Consistent ∧ emplaced.IsOpen channel := by
  refine ⟨_, if_neg closed, rfl, ⟨?_, ?_, dynamic, ?_, ?_, ?_⟩, mem_append_right _ ?_⟩
  · rw [KeyedList.keys_append, nodup_append]
    refine ⟨consistent.distinct, nodup_singleton _, fun cid open_ other last same => ?_⟩
    rw [mem_singleton.mp last] at same
    subst same
    exact closed open_
  · intro entry member
    rcases mem_append.mp member with before | last
    · exact consistent.keyed entry before
    · rw [mem_singleton.mp last]
  · intro cid member
    rw [KeyedList.keys_append, mem_append] at member
    rcases member with before | last
    · exact kept cid (consistent.marked cid before)
    · rw [mem_singleton.mp last]
      exact marked
  · intro remoteCid
    rw [mem_insert_iff, consistent.remotes remoteCid]
    constructor
    · rintro (rfl | ⟨entry, member, same⟩)
      · exact ⟨_, mem_append_right _ (mem_singleton_self _), rfl⟩
      · exact ⟨entry, mem_append_left _ member, same⟩
    · rintro ⟨entry, member, same⟩
      rcases mem_append.mp member with before | last
      · exact .inr ⟨entry, before, same⟩
      · rw [mem_singleton.mp last] at same
        exact .inl same.symm
  · rw [map_append, nodup_append]
    refine ⟨consistent.apart, nodup_singleton _, fun remoteCid open_ other last same => ?_⟩
    rw [mem_singleton.mp last] at same
    obtain ⟨entry, member, rfl⟩ := mem_map.mp open_
    exact fresh ((consistent.remotes _).mpr ⟨entry, member, same⟩)
  · exact mem_singleton_self _

theorem mem_usedCid_free {other : UInt16} (open_ : other ∈ keys self.channels)
    (apart : other ≠ cid) :
    other ∈ self.usedCid.filter (· ≠ cid) := by
  refine mem_filter.mpr ⟨consistent.marked other open_, ?_⟩
  rw [decide_eq_true_eq]
  exact apart

theorem Consistent.remotes_remove {channel : DynamicChannelImpl}
    (found : lookup cid self.channels = some channel) (remoteCid : UInt16) :
    remoteCid ∈ self.usedRemoteCid.filter (· ≠ channel.remoteCid) ↔
      ∃ entry ∈ remove cid self.channels, entry.2.remoteCid = remoteCid := by
  obtain ⟨before, after, whole⟩ := exists_split found
  have distinct := consistent.distinct
  have apart := consistent.apart
  rw [whole] at distinct apart
  have removed : remove cid self.channels = before ++ after := by
    rw [whole, remove_split distinct]
  rw [removed, mem_filter, consistent.remotes remoteCid, decide_eq_true_eq, whole]
  rw [map_append, map_cons, nodup_middle, nodup_cons] at apart
  constructor
  · rintro ⟨⟨entry, member, rfl⟩, other⟩
    refine ⟨entry, ?_, rfl⟩
    rcases mem_append.mp member with front | back
    · exact mem_append_left _ front
    · rcases mem_cons.mp back with rfl | back
      · exact absurd rfl other
      · exact mem_append_right _ back
  · rintro ⟨entry, member, rfl⟩
    refine ⟨⟨entry, ?_, rfl⟩, fun same => apart.1 ?_⟩
    · rcases mem_append.mp member with front | back
      · exact mem_append_left _ front
      · exact mem_append_right _ (mem_cons_of_mem _ back)
    · rw [← map_append, ← same]
      exact mem_map_of_mem member

theorem Consistent.free (cid : UInt16) :
    (self.freeChannel cid).Consistent ∧ Answers self (.free cid) .done (self.freeChannel cid) := by
  have unmarked : cid ∉ self.usedCid.filter (· ≠ cid) := by simp
  have dynamic (other : UInt16) (member : other ∈ self.usedCid.filter (· ≠ cid)) :
      IsDynamic other := consistent.dynamic other (mem_of_mem_filter member)
  unfold freeChannel
  dsimp only
  cases found : lookup cid self.channels with
  | none =>
    have closed := lookup_eq_none.mp found
    refine ⟨⟨consistent.distinct, consistent.keyed, dynamic, ?_, consistent.remotes,
      consistent.apart⟩, unmarked, closed, ?_⟩
    · intro other member
      exact mem_usedCid_free consistent member fun same => closed (same ▸ member)
    · rintro channel rfl isOpen
      exact absurd (mem_keys isOpen) closed
  | some channel =>
    refine ⟨⟨nodup_remove consistent.distinct cid, ?_, dynamic, ?_,
      consistent.remotes_remove found, ?_⟩, unmarked, ?_, ?_⟩
    · exact fun entry member => consistent.keyed entry (mem_of_mem_filter member)
    · intro other member
      obtain ⟨open_, apart⟩ := mem_keys_remove.mp member
      exact mem_usedCid_free consistent open_ apart
    · exact consistent.apart.sublist (filter_sublist.map _)
    · exact fun member => (mem_keys_remove.mp member).2 rfl
    · rintro other rfl isOpen
      rw [lookup_of_mem consistent.distinct isOpen] at found
      obtain rfl := some.inj found
      simp

/-! ## Calls -/

theorem Consistent.allocate (admissible : self.Admissible (.allocate psm remoteCid)) :
    ∃ after result, self.allocateChannel psm remoteCid = some (after, result) ∧
      after.Consistent ∧ Answers self (.allocate psm remoteCid) result after := by
  unfold allocateChannel
  by_cases taken : remoteCid ∈ self.usedRemoteCid
  · exact ⟨self, .channel none, if_pos taken, consistent, .inl taken, rfl⟩
  · obtain ⟨valid, free, freeDynamic, unused⟩ := admissible.resolve_left taken
    obtain ⟨cid, found, dynamic, notUsed, _⟩ := search_of_free freeDynamic unused
    have closed : cid ∉ keys self.channels := fun open_ =>
      notUsed (consistent.marked cid open_)
    have allDynamic (other : UInt16) (member : other ∈ self.usedCid.insert cid) :
        IsDynamic other := by
      rcases mem_insert_iff.mp member with rfl | before
      · exact dynamic
      · exact consistent.dynamic other before
    obtain ⟨emplaced, inserted, sameUsed, consistentAfter, isOpen⟩ :=
      consistent.emplace ⟨psm, cid, remoteCid⟩ closed taken
        (self.usedCid.insert cid) allDynamic (mem_insert_self)
        (fun other before => mem_insert_of_mem before)
    refine ⟨{ emplaced with usedCid := emplaced.usedCid.insert cid },
      .channel (some ⟨psm, cid, remoteCid⟩), ?_, ?_, rfl, rfl, dynamic, notUsed, isOpen⟩
    · rw [if_neg taken, found]
      dsimp only [bind_eq_bind, bind_some]
      rw [if_neg (cid_in_range cid), make_eq dynamic valid, bind_some, inserted]
      rfl
    · rw [sameUsed]
      exact consistentAfter

theorem Consistent.allocateReserved {reservedCid : UInt16}
    (admissible : self.Admissible (.allocateReserved reservedCid psm remoteCid)) :
    ∃ after result, self.allocateReservedChannel reservedCid psm remoteCid = some (after, result) ∧
      after.Consistent ∧
      Answers self (.allocateReserved reservedCid psm remoteCid) result after := by
  unfold allocateReservedChannel
  by_cases taken : remoteCid ∈ self.usedRemoteCid
  · exact ⟨self, .channel none, if_pos taken, consistent, taken, rfl⟩
  · obtain ⟨valid, reserved, closed⟩ := admissible.resolve_left taken
    have dynamic := consistent.dynamic reservedCid reserved
    obtain ⟨emplaced, inserted, sameUsed, consistentAfter, isOpen⟩ :=
      consistent.emplace ⟨psm, reservedCid, remoteCid⟩ closed taken
        self.usedCid consistent.dynamic reserved (fun other before => before)
    refine ⟨emplaced, .channel (some ⟨psm, reservedCid, remoteCid⟩), ?_, ?_, rfl, dynamic, closed,
      isOpen⟩
    · rw [if_neg taken, make_eq dynamic valid, bind_eq_bind, bind_some, inserted]
      rfl
    · rw [← sameUsed] at consistentAfter
      exact consistentAfter

theorem Consistent.reserve (admissible : self.Admissible .reserve) :
    ∃ after result, self.reserveChannel = some (after, result) ∧ after.Consistent ∧
      Answers self .reserve result after := by
  obtain ⟨free, freeDynamic, unused⟩ := admissible
  obtain ⟨cid, found, dynamic, notUsed, _⟩ := search_of_free freeDynamic unused
  refine ⟨{ self with usedCid := self.usedCid.insert cid }, .cid cid, ?_,
    ⟨consistent.distinct, consistent.keyed, ?_, ?_, consistent.remotes, consistent.apart⟩,
    dynamic, notUsed, mem_insert_self⟩
  · rw [reserveChannel, found]
    dsimp only [bind_eq_bind, bind_some]
    rw [if_neg (cid_in_range cid)]
    rfl
  · intro other member
    rcases mem_insert_iff.mp member with rfl | before
    · exact dynamic
    · exact consistent.dynamic other before
  · exact fun other open_ => mem_insert_of_mem (consistent.marked other open_)

theorem Consistent.perform (call : Call) (admissible : self.Admissible call) :
    ∃ after result, self.perform call = some (after, result) ∧ after.Consistent ∧
      Answers self call result after := by
  cases call with
  | allocate psm remoteCid => exact consistent.allocate admissible
  | allocateReserved reservedCid psm remoteCid => exact consistent.allocateReserved admissible
  | reserve => exact consistent.reserve admissible
  | free cid =>
    obtain ⟨consistentAfter, answers⟩ := consistent.free cid
    exact ⟨_, _, rfl, consistentAfter, answers⟩

end

theorem Consistent.step (state : DynamicChannelAllocator) (call : Call)
    (consistent : state.Consistent) (admissible : state.Admissible call) :
    ∃ next, DynamicChannelAllocator.step state call = some next ∧ next.Consistent := by
  obtain ⟨after, result, returned, consistentAfter, _⟩ := consistent.perform call admissible
  exact ⟨after, by rw [DynamicChannelAllocator.step, returned]; rfl, consistentAfter⟩

/-- Along admissible calls, each call returns as it should and the tables stay consistent. -/
theorem calls_answered (calls : List Call) (call : Call)
    (admissible : Along step Admissible new (calls ++ [call])) :
    ∃ before after result, run step new calls = some before ∧ before.Consistent ∧
      before.perform call = some (after, result) ∧ after.Consistent ∧
      Answers before call result after := by
  obtain ⟨earlier, last⟩ := along_append admissible
  obtain ⟨before, reached, consistent⟩ := run_of_along Consistent.step new_consistent earlier
  obtain ⟨after, result, returned, consistentAfter, answers⟩ :=
    consistent.perform call (last before reached).1
  exact ⟨before, after, result, reached, consistent, returned, consistentAfter, answers⟩

/-- A channel on a cid that was reserved for it. -/
def oneChannel : DynamicChannelAllocator := ⟨[64], [(64, ⟨1, 64, 0x50⟩)], [0x50]⟩

theorem calls_answered_reserved :
    run step new [.reserve, .allocateReserved 64 1 0x50] = some oneChannel ∧
      oneChannel.Consistent := by
  have first : step new .reserve = some ⟨[64], [], []⟩ := by rfl
  have admissible : Along step Admissible new [.reserve, .allocateReserved 64 1 0x50] := by
    refine ⟨⟨64, UInt16.le_refl _, not_mem_nil⟩, ?_⟩
    rw [first]
    refine ⟨.inr ⟨by decide, mem_singleton_self _, not_mem_nil⟩, ?_⟩
    split <;> trivial
  obtain ⟨before, after, result, reached, _, returned, consistent, _⟩ :=
    calls_answered [.reserve] (.allocateReserved 64 1 0x50) admissible
  rw [run_singleton, first] at reached
  obtain rfl := some.inj reached
  obtain rfl : oneChannel = after := congrArg Prod.fst (some.inj returned)
  exact ⟨by rw [run_cons, first]; rfl, consistent⟩

/-! ## All cids used -/

/-- The cids that a number of reservations take, the last one first. -/
def reserved (count : Nat) : List UInt16 :=
  (List.range count).reverse.map (counted kFirstDynamicChannel)

theorem mem_reserved (bounded : count ≤ 65472) :
    cid ∈ reserved count ↔ 64 ≤ cid.toNat ∧ cid.toNat < 64 + count := by
  have start : kFirstDynamicChannel.toNat = 64 := rfl
  simp only [reserved, List.mem_map, mem_reverse, mem_range]
  constructor
  · rintro ⟨i, below, rfl⟩
    rw [toNat_counted, start]
    omega
  · rintro ⟨least, most⟩
    refine ⟨cid.toNat - 64, by omega, UInt16.toNat_inj.mp ?_⟩
    rw [toNat_counted, start]
    omega

theorem search_reserved (room : count < 65472) :
    search (reserved count) = some (counted kFirstDynamicChannel count) := by
  have start : kFirstDynamicChannel.toNat = 64 := rfl
  have next : (counted kFirstDynamicChannel count).toNat = 64 + count := by
    rw [toNat_counted, start]
    omega
  have dynamic : IsDynamic (counted kFirstDynamicChannel count) := by
    rw [IsDynamic, UInt16.le_iff_toNat_le, next, start]
    omega
  have unused : counted kFirstDynamicChannel count ∉ reserved count := by
    rw [mem_reserved (by omega), next]
    omega
  obtain ⟨found, ended, foundDynamic, foundUnused, least⟩ := search_of_free dynamic unused
  rw [mem_reserved (by omega), not_and] at foundUnused
  have above : 64 ≤ found.toNat := UInt16.le_iff_toNat_le.mp foundDynamic
  have same : found = counted kFirstDynamicChannel count := UInt16.toNat_inj.mp (by omega)
  rw [ended, same]

theorem run_reserve (bounded : count ≤ 65472) :
    run step new (List.replicate count .reserve) = some ⟨reserved count, [], []⟩ := by
  induction count with
  | zero => rfl
  | succ count ih =>
    have search := search_reserved (Nat.lt_of_succ_le bounded)
    have unused : counted kFirstDynamicChannel count ∉ reserved count := by
      have start : kFirstDynamicChannel.toNat = 64 := rfl
      rw [mem_reserved (by omega), toNat_counted, start]
      omega
    have grown : (reserved count).insert (counted kFirstDynamicChannel count) =
        reserved (count + 1) := by
      rw [insert_of_not_mem unused, reserved, reserved, range_succ, reverse_append]
      rfl
    rw [replicate_succ', run_append, ih (by omega), bind_some, run_singleton]
    change Option.map Prod.fst (reserveChannel _) = _
    rw [reserveChannel, search]
    dsimp only [bind_eq_bind, bind_some]
    rw [if_neg (cid_in_range _), grown]
    rfl

/-- With all dynamic cids reserved, the next channel would get the cid zero. -/
theorem exhausted_allocation_fails :
    (run step new (List.replicate 65472 .reserve)).isSome = true ∧
      ((run step new (List.replicate 65472 .reserve)).bind fun state =>
        state.perform (.allocate 1 0x50)) = none := by
  have full : search (reserved 65472) = some 0 := by
    refine search_of_full (fun cid dynamic => ?_) ?_
    · rw [mem_reserved (Nat.le_refl _)]
      exact ⟨UInt16.le_iff_toNat_le.mp dynamic, cid.toNat_lt⟩
    · rw [mem_reserved (Nat.le_refl _)]
      exact fun inside => absurd inside.1 (by decide)
  rw [run_reserve (Nat.le_refl _)]
  refine ⟨rfl, ?_⟩
  rw [bind_some, perform, allocateChannel, if_neg not_mem_nil, full]
  rfl

end DynamicChannelAllocator

end BluetoothFormal.L2cap
