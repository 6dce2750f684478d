import Mathlib.Algebra.GroupWithZero.Nat
import Mathlib.Data.List.Basic

/-!
# Views of packets

A `PacketView` is a list of views into shared buffers and stands for the bytes of its
fragments, one after another.  A subview and an appended view share the buffers.  Fragments
may be empty, and a view may have no fragment at all; only the last kind cannot be
appended to.
-/

namespace BluetoothFormal.Packet

open List

/-! ## Views of a buffer -/

/-- `View`: the part of a shared buffer between two bounds. -/
structure View where
  data : List UInt8
  beginIndex : Nat
  endIndex : Nat
  ordered : beginIndex ≤ endIndex
  bounded : endIndex ≤ data.length

namespace View

section

variable (view : View)

def size : Nat := view.endIndex - view.beginIndex

/-- `operator[]`; `none` is the failed assertion. -/
def get (i : Nat) : Option UInt8 :=
  if i + view.beginIndex < view.endIndex then view.data[i + view.beginIndex]? else none

/-- The constructor from a buffer, which clips the bounds. -/
def ofData (data : List UInt8) (first last : Nat) (ordered : first ≤ last) : View where
  data := data
  beginIndex := if first < data.length then first else data.length
  endIndex := if last < data.length then last else data.length
  ordered := by split <;> split <;> omega
  bounded := by split <;> omega

/-- The constructor from a view, which clips the bounds. -/
def ofView (first last : Nat) (ordered : first ≤ last) : View where
  data := view.data
  beginIndex := (if first < view.size then first else view.size) + view.beginIndex
  endIndex := (if last < view.size then last else view.size) + view.beginIndex
  ordered := by split <;> split <;> omega
  bounded := by
    have := view.ordered
    have := view.bounded
    unfold size
    split <;> omega

def bytes : List UInt8 := (view.data.drop view.beginIndex).take view.size

@[simp]
theorem length_bytes : view.bytes.length = view.size := by
  have := view.ordered
  have := view.bounded
  simp only [bytes, size, length_take, length_drop]
  omega

theorem get_eq (i : Nat) : view.get i = view.bytes[i]? := by
  unfold get bytes size
  rw [List.getElem?_take, List.getElem?_drop, Nat.add_comm view.beginIndex i]
  by_cases inside : i + view.beginIndex < view.endIndex
  · rw [if_pos inside, if_pos (by omega)]
  · rw [if_neg inside, if_neg (by omega)]

@[simp]
theorem bytes_ofData_all (data : List UInt8) :
    (ofData data 0 data.length (Nat.zero_le _)).bytes = data := by
  have start : (ofData data 0 data.length (Nat.zero_le _)).beginIndex = 0 := by
    simp only [ofData]
    split <;> omega
  have finish : (ofData data 0 data.length (Nat.zero_le _)).endIndex = data.length := by
    simp [ofData]
  rw [bytes, size, start, finish, drop_zero]
  exact take_length

theorem bytes_ofView (first last : Nat) (ordered : first ≤ last) :
    (view.ofView first last ordered).bytes = (view.bytes.drop first).take (last - first) := by
  have starts : (if first < view.size then first else view.size) = min first view.size := by
    split <;> omega
  have finishes : (if last < view.size then last else view.size) = min last view.size := by
    split <;> omega
  rw [bytes, bytes, size, ofView]
  dsimp only
  rw [starts, finishes, drop_take, drop_drop, take_take]
  rcases Nat.le_total first view.size with inside | outside
  · rw [Nat.min_eq_left inside, Nat.add_comm first]
    exact congrArg (fun count => List.take count _) (by omega)
  · rw [Nat.min_eq_right outside, Nat.min_eq_right (Nat.le_trans outside ordered),
      Nat.sub_self, Nat.sub_eq_zero_of_le outside, Nat.min_zero, take_zero, take_zero]

end

end View

open View

/-! ## Fragments -/

section

variable (fragments : List View)

/-- The sum that the constructors compute. -/
def totalSize : Nat := (fragments.map size).sum

/-- The bytes of the fragments, one after another. -/
def fragmentBytes : List UInt8 := fragments.flatMap bytes

@[simp]
theorem fragmentBytes_nil : fragmentBytes [] = [] := rfl

@[simp]
theorem fragmentBytes_cons (fragment : View) (rest : List View) :
    fragmentBytes (fragment :: rest) = fragment.bytes ++ fragmentBytes rest := rfl

@[simp]
theorem fragmentBytes_append (first second : List View) :
    fragmentBytes (first ++ second) = fragmentBytes first ++ fragmentBytes second :=
  flatMap_append

theorem totalSize_cons (fragment : View) (rest : List View) :
    totalSize (fragment :: rest) = fragment.size + totalSize rest := rfl

@[simp]
theorem length_fragmentBytes : (fragmentBytes fragments).length = totalSize fragments := by
  induction fragments with
  | nil => rfl
  | cons fragment rest ih =>
    rw [fragmentBytes_cons, length_append, length_bytes, ih, totalSize_cons]

/-- The loop of `at` and of the iterator's `operator*`. -/
def fragmentAt : List View → Nat → Option UInt8
  | [], _ => none
  | fragment :: rest, index =>
    if index < fragment.size then fragment.get index else fragmentAt rest (index - fragment.size)

theorem fragmentAt_eq (index : Nat) :
    fragmentAt fragments index = (fragmentBytes fragments)[index]? := by
  induction fragments generalizing index with
  | nil => rfl
  | cons fragment rest ih =>
    rw [fragmentAt, fragmentBytes_cons]
    by_cases inside : index < fragment.size
    · rw [if_pos inside, get_eq, List.getElem?_append_left (by rwa [length_bytes])]
    · rw [if_neg inside, ih, List.getElem?_append_right
        (by rw [length_bytes]; exact Nat.le_of_not_lt inside), length_bytes]

/-- The loop of `GetSubviewList`; fragments after the last byte are cut to empty ones. -/
def subviewLoop : List View → Nat → Nat → List View
  | [], _, _ => []
  | fragment :: rest, start, length =>
    if fragment.size ≤ start then subviewLoop rest (start - fragment.size) length
    else
      let view := fragment.ofView start (start + min length (fragment.size - start))
        (Nat.le_add_right _ _)
      view :: subviewLoop rest 0 (length - view.size)

theorem fragmentBytes_subviewLoop (start length : Nat) :
    fragmentBytes (subviewLoop fragments start length) =
      ((fragmentBytes fragments).drop start).take length := by
  induction fragments generalizing start length with
  | nil => simp [subviewLoop]
  | cons fragment rest ih =>
    rw [subviewLoop, fragmentBytes_cons]
    by_cases skipped : fragment.size ≤ start
    · have passed : fragment.bytes.drop start = [] :=
        drop_of_length_le (by rwa [length_bytes])
      rw [if_pos skipped, ih, drop_append, length_bytes, passed, nil_append]
    · have taken : (fragment.ofView start (start + min length (fragment.size - start))
          (Nat.le_add_right _ _)).bytes = (fragment.bytes.drop start).take length := by
        rw [bytes_ofView, Nat.add_sub_cancel_left, take_eq_take_iff, length_drop, length_bytes]
        omega
      rw [if_neg skipped]
      generalize fragment.ofView start _ _ = view at taken ⊢
      rw [fragmentBytes_cons, ih, ← length_bytes view, taken, drop_zero,
        drop_append, length_bytes, Nat.sub_eq_zero_of_le (Nat.le_of_not_le skipped),
        drop_zero, take_append, length_take, length_drop, length_bytes]
      exact congrArg (fun count => _ ++ List.take count _) (by omega)

theorem subviewLoop_eq_nil_iff (start length : Nat) :
    subviewLoop fragments start length = [] ↔ totalSize fragments ≤ start := by
  induction fragments generalizing start with
  | nil => exact iff_of_true rfl (Nat.zero_le _)
  | cons fragment rest ih =>
    rw [subviewLoop, totalSize_cons]
    by_cases skipped : fragment.size ≤ start
    · rw [if_pos skipped, ih]
      omega
    · rw [if_neg skipped]
      exact iff_of_false (cons_ne_nil _ _) (by omega)

/-! ## Insertion -/

/--
The loop of `Append` that looks for the insertion point, and its assertion; `none` when
the list ends first.
-/
def insertionPoint : Nat → List View → Option Nat
  | _, [] => none
  | remaining, fragment :: rest =>
    if remaining = 0 then some 0
    else if 0 < remaining - fragment.size then
      (insertionPoint (remaining - fragment.size) rest).map (· + 1)
    else some 0

def insertAfter (point : Nat) (fragment : View) : List View :=
  fragments.take (point + 1) ++ fragment :: fragments.drop (point + 1)

end

/-- The loop of `Append` that inserts. -/
def insertAll : List View → List View → Nat → List View
  | [], fragments, _ => fragments
  | fragment :: rest, fragments, point =>
    insertAll rest (insertAfter fragments point fragment) (point + 1)

theorem totalSize_append (first second : List View) :
    totalSize (first ++ second) = totalSize first + totalSize second := by
  rw [totalSize, map_append, sum_append]
  rfl

theorem totalSize_insertAll (added fragments : List View) (point : Nat) :
    totalSize (insertAll added fragments point) = totalSize fragments + totalSize added := by
  induction added generalizing fragments point with
  | nil => rfl
  | cons fragment rest ih =>
    have split := congrArg totalSize (take_append_drop (point + 1) fragments)
    rw [totalSize_append] at split
    rw [insertAll, ih, insertAfter, totalSize_append, totalSize_cons, totalSize_cons]
    omega

theorem insertAll_eq (added before after : List View) {point : Nat}
    (here : before.length = point + 1) :
    insertAll added (before ++ after) point = before ++ added ++ after := by
  induction added generalizing before point with
  | nil => rw [insertAll, append_nil]
  | cons fragment rest ih =>
    have inserted : insertAfter (before ++ after) point fragment =
        (before ++ [fragment]) ++ after := by
      rw [insertAfter, ← here, take_left, drop_left, append_assoc]
      rfl
    rw [insertAll, inserted, ih (before ++ [fragment]) (by rw [length_append, here]; rfl)]
    simp

theorem insertionPoint_eq {fragments : List View} (present : fragments ≠ []) :
    ∃ before after point, fragments = before ++ after ∧ before.length = point + 1 ∧
      fragmentBytes after = [] ∧ insertionPoint (totalSize fragments) fragments = some point := by
  induction fragments with
  | nil => exact absurd rfl present
  | cons fragment rest ih =>
    by_cases more : 0 < totalSize rest
    · have remains : rest ≠ [] := by
        rintro rfl
        exact Nat.lt_irrefl 0 more
      obtain ⟨before, after, point, rfl, here, nothing, found⟩ := ih remains
      refine ⟨fragment :: before, after, point + 1, rfl, congrArg (· + 1) here, nothing, ?_⟩
      rw [insertionPoint, totalSize_cons, Nat.add_sub_cancel_left, if_neg (by omega),
        if_pos more, found]
      rfl
    · refine ⟨[fragment], rest, 0, rfl, rfl, ?_, ?_⟩
      · rw [← length_eq_zero_iff, length_fragmentBytes]
        omega
      · rw [insertionPoint, totalSize_cons, Nat.add_sub_cancel_left, if_neg more]
        split <;> rfl

/-! ## Packet views -/

/-- `PacketView`; its length is the sum over the fragments. -/
structure PacketView where
  fragments : List View
  length : Nat
  length_eq : length = totalSize fragments

variable {view : PacketView}

namespace PacketView

/-- The constructor from fragments. -/
def ofFragments (fragments : List View) : PacketView := ⟨fragments, totalSize fragments, rfl⟩

/-- The constructor from a buffer. -/
def ofPacket (packet : List UInt8) : PacketView where
  fragments := [ofData packet 0 packet.length (Nat.zero_le _)]
  length := packet.length
  length_eq := by
    rw [← length_fragmentBytes, fragmentBytes_cons, fragmentBytes_nil, append_nil, bytes_ofData_all]

section

variable (view : PacketView)

def size : Nat := view.length

/-- `at`, and `operator[]`; `none` is a failed assertion. -/
def at? (index : Nat) : Option UInt8 :=
  if index < view.length then fragmentAt view.fragments index else none

/-- `GetSubviewList` with its assertions. -/
def getSubviewList (first last : Nat) : Option (List View) :=
  if first ≤ last ∧ last ≤ view.length then
    some (subviewLoop view.fragments first (last - first))
  else none

/-- `GetLittleEndianSubview`, and `GetBigEndianSubview`. -/
def getSubview (first last : Nat) : Option PacketView :=
  (view.getSubviewList first last).map ofFragments

/-- `Append`; `none` is the failed assertion. -/
def append (view toAdd : PacketView) : Option PacketView :=
  (insertionPoint view.length view.fragments).map fun point =>
    { fragments := insertAll toAdd.fragments view.fragments point
      length := view.length + toAdd.length
      length_eq := by rw [totalSize_insertAll, view.length_eq, toAdd.length_eq] }

/-- The bytes that a packet view stands for. -/
def bytes : List UInt8 := fragmentBytes view.fragments

theorem size_eq : view.size = view.bytes.length := by
  rw [size, view.length_eq, bytes, length_fragmentBytes]

theorem at_eq (index : Nat) : view.at? index = view.bytes[index]? := by
  rw [at?, fragmentAt_eq]
  split
  · rfl
  · rename_i outside
    exact (List.getElem?_eq_none (Nat.le_of_not_lt (view.size_eq ▸ outside))).symm

theorem bytes_ofPacket (packet : List UInt8) : (ofPacket packet).bytes = packet := by
  rw [bytes, ofPacket, fragmentBytes_cons, fragmentBytes_nil, append_nil, bytes_ofData_all]

/-- A subview stands for a slice, and has no fragments only if it starts at the end. -/
theorem getSubview_eq {first last : Nat} (ordered : first ≤ last)
    (bounded : last ≤ view.bytes.length) :
    ∃ sub, view.getSubview first last = some sub ∧
      sub.bytes = (view.bytes.drop first).take (last - first) ∧
      (sub.fragments = [] ↔ view.bytes.length ≤ first) := by
  refine ⟨ofFragments (subviewLoop view.fragments first (last - first)), ?_, ?_, ?_⟩
  · rw [← size_eq] at bounded
    rw [getSubview, getSubviewList, if_pos ⟨ordered, bounded⟩]
    rfl
  · exact fragmentBytes_subviewLoop view.fragments first (last - first)
  · rw [bytes, length_fragmentBytes]
    exact subviewLoop_eq_nil_iff view.fragments first (last - first)

end

theorem append_eq (view toAdd : PacketView) (present : view.fragments ≠ []) :
    ∃ appended, view.append toAdd = some appended ∧
      appended.bytes = view.bytes ++ toAdd.bytes ∧ appended.fragments ≠ [] := by
  obtain ⟨before, after, point, whole, here, nothing, found⟩ := insertionPoint_eq present
  have inserted : insertAll toAdd.fragments view.fragments point =
      before ++ toAdd.fragments ++ after := by
    rw [whole]
    exact insertAll_eq toAdd.fragments before after here
  rw [← view.length_eq] at found
  refine ⟨_, by rw [append, found]; rfl, ?_, ?_⟩
  · calc fragmentBytes (insertAll toAdd.fragments view.fragments point)
        = fragmentBytes before ++ fragmentBytes toAdd.fragments := by
          rw [inserted, fragmentBytes_append, fragmentBytes_append, nothing, append_nil]
      _ = view.bytes ++ toAdd.bytes := by
          rw [bytes, bytes, whole, fragmentBytes_append, nothing, append_nil]
  · intro empty
    have allEmpty : before ++ toAdd.fragments ++ after = [] := inserted ▸ empty
    simp only [append_eq_nil_iff] at allEmpty
    rw [allEmpty.1.1] at here
    cases here

theorem append_eq_none (absent : view.fragments = []) (toAdd : PacketView) :
    view.append toAdd = none := by
  have ended : insertionPoint view.length view.fragments = none := by
    rw [absent]
    rfl
  rw [append, ended]
  rfl

end PacketView

/-! ## Iterators -/

structure Iterator where
  data : List View
  index : Nat
  beginIndex : Nat
  endIndex : Nat
  bounded : endIndex ≤ totalSize data

variable {self : Iterator}

namespace Iterator

def new (data : List View) (offset : Nat) : Iterator :=
  ⟨data, offset, 0, totalSize data, Nat.le_refl _⟩

section

variable (self)

/-- `operator++`. -/
def next : Iterator := { self with index := self.index + 1 }

/-- `operator+`. -/
def add (offset : Nat) : Iterator :=
  { self with index := self.index + offset }

/-- `operator*`; `none` is a failed assertion. -/
def deref : Option UInt8 :=
  if self.index < self.endIndex ∧ ¬ self.index < self.beginIndex then
    fragmentAt self.data self.index
  else none

def numBytesRemaining : Nat :=
  if self.index < self.endIndex ∧ ¬ self.index < self.beginIndex then
    self.endIndex - self.index
  else 0

end

theorem add_le_endIndex {count : Nat}
    (inside : count < self.numBytesRemaining ∨ (count ≤ self.numBytesRemaining ∧
      self.index ≤ self.endIndex)) : self.index + count ≤ self.endIndex := by
  unfold numBytesRemaining at inside
  split at inside <;> omega

/-- The first part of `Subrange`. -/
def moved (self : Iterator) (index : Nat) : Iterator :=
  { self with
    index := self.index + index
    beginIndex := self.index + index }

def subrange (self : Iterator) (index length : Nat) : Iterator :=
  if inside : index < self.numBytesRemaining then
    if enough : length ≤ (self.moved index).numBytesRemaining then
      { self.moved index with
        endIndex := (self.moved index).index + length
        bounded := Nat.le_trans (add_le_endIndex (.inr ⟨enough, add_le_endIndex (.inl inside)⟩))
          self.bounded }
    else self.moved index
  else { self with endIndex := 0, bounded := Nat.zero_le _ }

def rest (self : Iterator) : List UInt8 :=
  if self.beginIndex ≤ self.index then
    ((fragmentBytes self.data).take self.endIndex).drop self.index
  else []

theorem rest_of_le (started : self.beginIndex ≤ self.index) :
    self.rest = ((fragmentBytes self.data).take self.endIndex).drop self.index :=
  if_pos started

theorem length_rest (self : Iterator) : self.rest.length = self.numBytesRemaining := by
  have bounded := self.bounded
  unfold rest numBytesRemaining
  by_cases started : self.beginIndex ≤ self.index
  · rw [if_pos started, length_drop, length_take, length_fragmentBytes]
    split <;> omega
  · rw [if_neg started, if_neg fun within => started (Nat.le_of_not_lt within.2)]
    rfl

theorem deref_eq (self : Iterator) : self.deref = self.rest.head? := by
  unfold deref
  by_cases within : self.index < self.endIndex ∧ ¬ self.index < self.beginIndex
  · rw [if_pos within, fragmentAt_eq, rest_of_le (Nat.le_of_not_lt within.2), List.head?_drop,
      List.getElem?_take, if_pos within.1]
  · have empty : self.rest = [] := by
      rw [← length_eq_zero_iff, length_rest, numBytesRemaining, if_neg within]
    rw [if_neg within, empty]
    rfl

section

variable (started : self.beginIndex ≤ self.index)
include started

theorem rest_next : self.next.rest = self.rest.tail := by
  rw [rest_of_le started, tail_drop]
  exact rest_of_le (Nat.le_succ_of_le started)

theorem rest_add (offset : Nat) : (self.add offset).rest = self.rest.drop offset := by
  rw [rest_of_le started, drop_drop]
  exact rest_of_le (Nat.le_trans started (Nat.le_add_right _ _))

theorem rest_moved (index : Nat) : (self.moved index).rest = self.rest.drop index := by
  rw [rest_of_le started, drop_drop]
  exact rest_of_le (Nat.le_refl _)

end

theorem rest_subrange (self : Iterator) (index length : Nat) :
    (self.subrange index length).rest = (self.rest.drop index).take length := by
  unfold subrange
  split
  · rename_i inside
    have started : self.beginIndex ≤ self.index := by
      unfold numBytesRemaining at inside
      split at inside <;> omega
    rw [← rest_moved started]
    split
    · rename_i enough
      have within := add_le_endIndex (.inr ⟨enough, add_le_endIndex (.inl inside)⟩)
      rw [rest_of_le (Nat.le_refl _), rest_of_le (Nat.le_refl _), drop_take, drop_take,
        take_take, Nat.add_sub_cancel_left, Nat.min_eq_left (Nat.le_sub_of_add_le' within)]
    · rename_i short
      rw [take_of_length_le]
      rw [length_rest]
      omega
  · rename_i outside
    rw [← length_rest] at outside
    rw [drop_of_length_le (Nat.le_of_not_lt outside), take_nil]
    unfold rest
    split <;> simp

/-- A loop from an iterator to another; `none` when it does not end. -/
def collect : Nat → Iterator → Iterator → Option (List UInt8)
  | 0, _, _ => none
  | fuel + 1, self, last =>
    if self.index = last.index then some []
    else do
      let byte ← self.deref
      let bytes ← collect fuel self.next last
      return byte :: bytes

theorem collect_eq {fuel : Nat} {last : Iterator} (started : self.beginIndex ≤ self.index)
    (finish : last.index = self.index + self.rest.length)
    (enough : self.rest.length < fuel) : collect fuel self last = some self.rest := by
  induction fuel generalizing self with
  | zero => exact absurd enough (Nat.not_lt_zero _)
  | succ fuel ih =>
    rw [collect, finish]
    have moved := rest_next started
    have deref := deref_eq self
    cases left : self.rest with
    | nil => rw [length_nil, Nat.add_zero, if_pos rfl]
    | cons byte bytes =>
      rw [left] at moved deref finish enough
      have finishNext : last.index = self.next.index + self.next.rest.length := by
        rw [moved, finish]
        exact Nat.add_right_comm _ bytes.length 1
      have collected := ih (Nat.le_succ_of_le started) finishNext
        (by rw [moved]; exact Nat.lt_of_succ_lt_succ enough)
      rw [if_neg (by rw [length_cons]; omega), deref, collected, moved]
      rfl

/-- The loop of `extract`, which writes the bytes of the value in one order or the other. -/
def extractLoop (littleEndian : Bool) (width : Nat) :
    Nat → Nat → List UInt8 → Iterator → Option (List UInt8 × Iterator)
  | 0, _, value, self => some (value, self)
  | rounds + 1, i, value, self => do
    let byte ← self.deref
    extractLoop littleEndian width rounds (i + 1)
      (value.set (if littleEndian then i else width - i - 1) byte) self.next

/-- `extract` for a type of the given width; the bytes are those of the value in memory. -/
def extract (self : Iterator) (littleEndian : Bool) (width : Nat) :
    Option (List UInt8 × Iterator) :=
  extractLoop littleEndian width width 0 (List.replicate width 0) self

section

variable (littleEndian : Bool)

/-- What the loop has written before a round, with the bytes to come still zero. -/
def partialValue (rounds : Nat) (done : List UInt8) : List UInt8 :=
  if littleEndian then done ++ List.replicate rounds 0 else List.replicate rounds 0 ++ done.reverse

theorem partialValue_set (rounds : Nat) (done : List UInt8) (byte : UInt8) :
    (partialValue littleEndian (rounds + 1) done).set
        (if littleEndian then done.length else rounds + 1 + done.length - done.length - 1) byte =
      partialValue littleEndian rounds (done ++ [byte]) := by
  cases littleEndian with
  | true =>
    simp only [partialValue, if_true, replicate_succ]
    rw [set_append_right _ _ (Nat.le_refl _), Nat.sub_self, set_cons_zero, append_assoc]
    rfl
  | false =>
    simp only [partialValue, Bool.false_eq_true, if_false, reverse_append]
    rw [replicate_succ', append_assoc, set_append_right _ _ (by simp)]
    simp

theorem extractLoop_eq {rounds : Nat} {done : List UInt8} {self : Iterator}
    (started : self.beginIndex ≤ self.index) (enough : rounds ≤ self.rest.length) :
    ∃ after, extractLoop littleEndian (rounds + done.length) rounds done.length
        (partialValue littleEndian rounds done) self =
      some (partialValue littleEndian 0 (done ++ self.rest.take rounds), after) ∧
      after.rest = self.rest.drop rounds := by
  induction rounds generalizing done self with
  | zero => exact ⟨self, by rw [take_zero, append_nil]; rfl, rfl⟩
  | succ rounds ih =>
    cases left : self.rest with
    | nil => rw [left] at enough; exact absurd enough (Nat.not_succ_le_zero _)
    | cons byte bytes =>
      have moved := rest_next started
      have deref := deref_eq self
      rw [left] at moved deref enough
      obtain ⟨after, ended, remaining⟩ := @ih (done ++ [byte]) self.next
        (Nat.le_succ_of_le started) (by rw [moved]; exact Nat.le_of_succ_le_succ enough)
      have width : rounds + (done.length + 1) = rounds + 1 + done.length := by omega
      rw [length_append, length_singleton, ← partialValue_set, moved, tail_cons,
        append_assoc, width] at ended
      refine ⟨after, ?_, ?_⟩
      · rw [extractLoop, deref]
        exact ended
      · rw [remaining, moved]
        rfl

theorem extract_eq {width : Nat} (started : self.beginIndex ≤ self.index)
    (enough : width ≤ self.rest.length) :
    ∃ after, self.extract littleEndian width = some (if littleEndian then self.rest.take width
          else (self.rest.take width).reverse, after) ∧
      after.rest = self.rest.drop width := by
  obtain ⟨after, ended, remaining⟩ := @extractLoop_eq littleEndian width [] self started enough
  refine ⟨after, ?_, remaining⟩
  simpa [extract, partialValue] using ended

end

end Iterator

namespace PacketView

def beginIterator (view : PacketView) : Iterator := Iterator.new view.fragments 0

def endIterator (view : PacketView) : Iterator := Iterator.new view.fragments view.size

theorem rest_beginIterator (view : PacketView) : view.beginIterator.rest = view.bytes := by
  rw [Iterator.rest_of_le (Nat.le_refl 0)]
  exact take_of_length_le (Nat.le_of_eq (length_fragmentBytes view.fragments))

/-- A view stands for a list of bytes in all that can be read from it. -/
structure Denotes (view : PacketView) (bytes : List UInt8) : Prop where
  size : view.size = bytes.length
  index : ∀ i, view.at? i = bytes[i]?
  iteration : ∀ fuel, bytes.length < fuel →
    Iterator.collect fuel view.beginIterator view.endIterator = some bytes
  subrange : ∀ i length, (view.beginIterator.subrange i length).rest = (bytes.drop i).take length

theorem denotes_bytes (view : PacketView) : view.Denotes view.bytes where
  size := view.size_eq
  index := view.at_eq
  iteration fuel enough := by
    rw [← rest_beginIterator] at enough
    have finish : view.endIterator.index =
        view.beginIterator.index + view.beginIterator.rest.length := by
      rw [rest_beginIterator, ← size_eq]
      exact (Nat.zero_add _).symm
    rw [Iterator.collect_eq (Nat.le_refl 0) finish enough, rest_beginIterator]
  subrange i length := by rw [Iterator.rest_subrange, rest_beginIterator]

end PacketView

/-! ## Views built from buffers -/

/-- How a view is built from buffers. -/
inductive Construction where
  | packet (bytes : List UInt8)
  | subview (parent : Construction) (first last : Nat)
  | append (view toAdd : Construction)

variable {construction : Construction}

namespace Construction

/-- The view, unless an assertion fails on the way. -/
def build : Construction → Option PacketView
  | packet bytes => some (PacketView.ofPacket bytes)
  | subview parent first last => parent.build.bind (·.getSubview first last)
  | append view toAdd => view.build.bind fun built => toAdd.build.bind built.append

/-- The bytes that the view should stand for. -/
def bytes : Construction → List UInt8
  | packet bytes => bytes
  | subview parent first last => (parent.bytes.drop first).take (last - first)
  | append view toAdd => view.bytes ++ toAdd.bytes

/-- Every subview is a slice of its parent. -/
def Sliced : Construction → Prop
  | packet _ => True
  | subview parent first last => parent.Sliced ∧ first ≤ last ∧ last ≤ parent.bytes.length
  | append view toAdd => view.Sliced ∧ toAdd.Sliced

/-- Anything but a subview that starts at the end of its parent. -/
def Appendable : Construction → Prop
  | subview parent first _ => first < parent.bytes.length
  | packet _ | append _ _ => True

/-- Nothing is appended to a subview that starts at the end of its parent. -/
def Safe : Construction → Prop
  | packet _ => True
  | subview parent _ _ => parent.Safe
  | append view toAdd => view.Safe ∧ toAdd.Safe ∧ view.Appendable

instance decidableSliced : (construction : Construction) → Decidable construction.Sliced
  | packet _ => isTrue trivial
  | subview parent _ _ => @instDecidableAnd _ _ (decidableSliced parent) inferInstance
  | append view toAdd => @instDecidableAnd _ _ (decidableSliced view) (decidableSliced toAdd)

instance decidableAppendable : (construction : Construction) → Decidable construction.Appendable
  | subview parent first _ => inferInstanceAs (Decidable (first < parent.bytes.length))
  | packet _ | append _ _ => isTrue trivial

instance decidableSafe : (construction : Construction) → Decidable construction.Safe
  | packet _ => isTrue trivial
  | subview parent _ _ => decidableSafe parent
  | append view toAdd =>
    @instDecidableAnd _ _ (decidableSafe view)
      (@instDecidableAnd _ _ (decidableSafe toAdd) (decidableAppendable view))

theorem build_of_safe (sliced : construction.Sliced) (safe : construction.Safe) :
    ∃ view, construction.build = some view ∧ view.bytes = construction.bytes ∧
      (view.fragments ≠ [] ↔ construction.Appendable) := by
  induction construction with
  | packet bytes =>
    exact ⟨_, rfl, PacketView.bytes_ofPacket bytes, iff_of_true (cons_ne_nil _ _) trivial⟩
  | subview parent first last ih =>
    obtain ⟨parentSliced, ordered, bounded⟩ := sliced
    obtain ⟨view, built, same, -⟩ := ih parentSliced safe
    rw [← same] at bounded
    obtain ⟨sub, taken, slice, empty⟩ := view.getSubview_eq ordered bounded
    refine ⟨sub, ?_, ?_, ?_⟩
    · rw [build, built]
      exact taken
    · rw [slice, same]
      rfl
    · rw [Ne, empty, same, Nat.not_le]
      rfl
  | append view toAdd viewIH toAddIH =>
    obtain ⟨viewSafe, toAddSafe, appendable⟩ := safe
    obtain ⟨first, firstBuilt, firstSame, present⟩ := viewIH sliced.1 viewSafe
    obtain ⟨second, secondBuilt, secondSame, -⟩ := toAddIH sliced.2 toAddSafe
    obtain ⟨appended, taken, both, nonempty⟩ := first.append_eq second (present.mpr appendable)
    refine ⟨appended, ?_, ?_, iff_of_true nonempty trivial⟩
    · rw [build, firstBuilt, secondBuilt]
      exact taken
    · rw [both, firstSame, secondSame]
      rfl

theorem safe_of_build (sliced : construction.Sliced) (built : construction.build = some view) :
    construction.Safe := by
  induction construction generalizing view with
  | packet bytes => trivial
  | subview parent first last ih =>
    obtain ⟨parentView, parentBuilt, -⟩ := Option.bind_eq_some_iff.mp built
    exact ih sliced.1 parentBuilt
  | append first second firstIH secondIH =>
    obtain ⟨firstView, firstBuilt, rest⟩ := Option.bind_eq_some_iff.mp built
    obtain ⟨secondView, secondBuilt, appended⟩ := Option.bind_eq_some_iff.mp rest
    have firstSafe := firstIH sliced.1 firstBuilt
    refine ⟨firstSafe, secondIH sliced.2 secondBuilt, ?_⟩
    obtain ⟨same, known, -, present⟩ := build_of_safe sliced.1 firstSafe
    cases firstBuilt.symm.trans known
    refine present.mp fun absent => ?_
    rw [PacketView.append_eq_none absent] at appended
    cases appended

/--
A view built from buffers by slices and appends stands for the slices and concatenations,
and no assertion fails, exactly when nothing is appended to a subview that starts at the
end of its parent.
-/
theorem builds_denoted_iff_safe (construction : Construction) (sliced : construction.Sliced) :
    (∃ view, construction.build = some view ∧ view.Denotes construction.bytes) ↔
      construction.Safe := by
  constructor
  · rintro ⟨view, built, -⟩
    exact safe_of_build sliced built
  · intro safe
    obtain ⟨view, built, same, -⟩ := build_of_safe sliced safe
    exact ⟨view, built, same ▸ view.denotes_bytes⟩

theorem builds_denoted_iff_safe_middle :
    ∃ view, (append (subview (packet [1, 2, 3]) 1 1) (packet [4])).build = some view ∧
      view.Denotes [4] :=
  (builds_denoted_iff_safe (append (subview (packet [1, 2, 3]) 1 1) (packet [4]))
    (by decide)).mpr (by decide)

/-- The empty subview at the end of a buffer cannot be appended to. -/
theorem append_to_end_fails :
    (append (subview (packet [1, 2, 3]) 3 3) (packet [4])).build = none := by
  decide

end Construction

end BluetoothFormal.Packet
