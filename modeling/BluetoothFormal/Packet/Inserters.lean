import BluetoothFormal.Foundation.Chunks
import Mathlib.Algebra.Group.Nat.Defs

/-!
# Serialization of packets and its fragmentation

A packet builder serializes itself by calls to `insert_bits`.  `BitInserter`
collects the bytes in a vector, `FragmentingInserter` in raw builders of at most
the given size.  The two share the arithmetic on the saved bits, so a builder
emits the same bytes into either of them.
-/

namespace BluetoothFormal.Packet.Inserters

open Foundation.Chunks List

/-- A call of `insert_bits`; a byte has eight bits to insert. -/
structure BitCall where
  byte : UInt8
  numBits : Nat
  bounded : numBits ≤ 8

/-- `insert_byte` is `insert_bits` of all eight bits. -/
def BitCall.ofByte (byte : UInt8) : BitCall := ⟨byte, 8, Nat.le_refl 8⟩

/-- The members `saved_bits_` and `num_saved_bits_`. -/
structure SavedBits where
  savedBits : UInt8
  numSavedBits : Nat
  bounded : numSavedBits < 8

namespace SavedBits

def none : SavedBits := ⟨0, 0, by decide⟩

def newValue (saved : SavedBits) (call : BitCall) : UInt16 :=
  saved.savedBits.toUInt16 ||| call.byte.toUInt16 <<< UInt16.ofNat saved.numSavedBits

def keep (value : UInt16) (count : Nat) (bounded : count < 8) : SavedBits :=
  ⟨value.toUInt8 &&& UInt8.ofNat (0xff >>> (8 - count)), count, bounded⟩

/-- The common arithmetic of `insert_bits`: a finished byte, and the bits left over. -/
def insertBits (saved : SavedBits) (call : BitCall) : Option UInt8 × SavedBits :=
  if enough : 8 ≤ call.numBits + saved.numSavedBits then
    (some (saved.newValue call).toUInt8,
      keep (saved.newValue call >>> 8) (call.numBits + saved.numSavedBits - 8)
        (by have := call.bounded; have := saved.bounded; omega))
  else
    (Option.none,
      keep (saved.newValue call) (call.numBits + saved.numSavedBits) (Nat.not_le.mp enough))

/-- The bytes that a list of calls finishes, and the bits left over. -/
def insertAll : SavedBits → List BitCall → List UInt8 × SavedBits
  | saved, [] => ([], saved)
  | saved, call :: rest =>
    let step := saved.insertBits call
    let after := insertAll step.2 rest
    (step.1.toList ++ after.1, after.2)

theorem insertAll_ofByte (bytes : List UInt8) :
    insertAll none (bytes.map BitCall.ofByte) = (bytes, none) := by
  have step (byte : UInt8) : none.insertBits (BitCall.ofByte byte) = (some byte, none) := by
    simp [insertBits, BitCall.ofByte, none, newValue, keep]
  induction bytes with
  | nil => rfl
  | cons byte rest ih => simp [insertAll, step, ih]

end SavedBits

structure BitInserter where
  saved : SavedBits
  vector : List UInt8

namespace BitInserter

def new : BitInserter := ⟨SavedBits.none, []⟩

def insertBits (self : BitInserter) (call : BitCall) : BitInserter :=
  let step := self.saved.insertBits call
  ⟨step.2, self.vector ++ step.1.toList⟩

theorem foldl_insertBits (self : BitInserter) (calls : List BitCall) :
    calls.foldl insertBits self = ⟨(self.saved.insertAll calls).2,
        self.vector ++ (self.saved.insertAll calls).1⟩ := by
  induction calls generalizing self with
  | nil => simp [SavedBits.insertAll]
  | cons call rest ih => simp [ih, insertBits, SavedBits.insertAll]

end BitInserter

/-- A builder, by the calls that its `Serialize` makes. -/
abbrev PacketBuilder := List BitCall

/-- `SerializeToBytes`; the inserter must not be destroyed while it has saved bits. -/
def serializeToBytes (packet : PacketBuilder) : Option (List UInt8) :=
  let inserter := packet.foldl BitInserter.insertBits BitInserter.new
  if inserter.saved.numSavedBits = 0 then some inserter.vector else none

theorem serializeToBytes_eq (packet : PacketBuilder) :
    serializeToBytes packet = if (SavedBits.none.insertAll packet).2.numSavedBits = 0 then
        some (SavedBits.none.insertAll packet).1
      else none := by
  simp [serializeToBytes, BitInserter.foldl_insertBits, BitInserter.new]

structure RawBuilder where
  maxBytes : Nat
  payload : List UInt8

namespace RawBuilder

def new (maxBytes : Nat) : RawBuilder := ⟨maxBytes, []⟩

section

variable (builder : RawBuilder)

/-- `AddOctets` of a vector that must have the stated size. -/
def addOctets (octets : Nat) (bytes : List UInt8) : RawBuilder × Bool :=
  if builder.maxBytes < builder.payload.length + octets then (builder, false)
  else if octets ≠ bytes.length then (builder, false)
  else ({ builder with payload := builder.payload ++ bytes }, true)

/-- The low octets of a value, and what is left of it. -/
def splitOctets : Nat → Nat → List UInt8 × Nat
  | 0, value => ([], value)
  | octets + 1, value =>
    let rest := splitOctets octets (value / 2 ^ 8)
    (UInt8.ofNat (value % 2 ^ 8) :: rest.1, rest.2)

/-- `AddOctets` of a value that must fit into the octets. -/
def addOctetsOfValue (octets value : Nat) : RawBuilder × Bool :=
  if 8 < octets then (builder, false)
  else if (splitOctets octets value).2 ≠ 0 then (builder, false)
  else builder.addOctets octets (splitOctets octets value).1

def addOctets1 (value : UInt8) : RawBuilder × Bool :=
  builder.addOctetsOfValue 1 value.toNat

theorem addOctets1_eq (value : UInt8) :
    builder.addOctets1 value = if builder.payload.length < builder.maxBytes then
        ({ builder with payload := builder.payload ++ [value] }, true)
      else (builder, false) := by
  have below : value.toNat < 256 := value.toNat_lt
  have nothing : value.toNat / 256 = 0 := Nat.div_eq_of_lt below
  by_cases room : builder.payload.length < builder.maxBytes
  · have fits : ¬ builder.maxBytes < builder.payload.length + 1 := by omega
    simp [addOctets1, addOctetsOfValue, splitOctets, addOctets, room, fits, nothing]
  · have tight : builder.maxBytes < builder.payload.length + 1 := by omega
    simp [addOctets1, addOctetsOfValue, splitOctets, addOctets, room, tight, nothing]

def serialize : PacketBuilder := builder.payload.map BitCall.ofByte

theorem serializeToBytes_serialize : serializeToBytes builder.serialize = some builder.payload := by
  rw [serializeToBytes_eq, serialize, SavedBits.insertAll_ofByte]
  exact if_pos rfl

end

end RawBuilder

structure FragmentingInserter where
  mtu : Nat
  saved : SavedBits
  currPacket : RawBuilder
  output : List RawBuilder

open FragmentingInserter

variable {mtu : Nat} {self : FragmentingInserter} {bytes : List UInt8} {packet : PacketBuilder}

namespace FragmentingInserter

def new (mtu : Nat) : FragmentingInserter := ⟨mtu, SavedBits.none, RawBuilder.new mtu, []⟩

section

variable (self : FragmentingInserter)

/-- What `insert_bits` does with a finished byte. -/
def addByte (byte : UInt8) : FragmentingInserter :=
  let added := (self.currPacket.addOctets1 byte).1
  if self.mtu ≤ added.payload.length then
    { self with
      currPacket := RawBuilder.new self.mtu
      output := self.output ++ [added] }
  else { self with currPacket := added }

def save (saved : SavedBits) : FragmentingInserter :=
  { self with saved := saved }

def insertBits (self : FragmentingInserter) (call : BitCall) : FragmentingInserter :=
  match self.saved.insertBits call with
  | (some byte, saved) => (self.addByte byte).save saved
  | (none, saved) => self.save saved

/-- `finalize` passes on the last packet unless it is empty. -/
def finalize : List RawBuilder :=
  if self.currPacket.payload.length ≠ 0 then self.output ++ [self.currPacket]
  else self.output

theorem foldl_addByte_save (saved : SavedBits) (bytes : List UInt8) :
    bytes.foldl addByte (self.save saved) = (bytes.foldl addByte self).save saved := by
  have one (self : FragmentingInserter) (byte : UInt8) :
      (self.save saved).addByte byte = (self.addByte byte).save saved := by
    unfold addByte save
    dsimp only
    split <;> rfl
  induction bytes generalizing self with
  | nil => rfl
  | cons byte rest ih => rw [foldl_cons, one, ih, foldl_cons]

theorem foldl_insertBits (calls : List BitCall) :
    calls.foldl insertBits self = ((self.saved.insertAll calls).1.foldl addByte self).save
        (self.saved.insertAll calls).2 := by
  induction calls generalizing self with
  | nil => rfl
  | cons call rest ih =>
    rw [foldl_cons, ih, insertBits, SavedBits.insertAll]
    rcases self.saved.insertBits call with ⟨_ | byte, saved⟩
    all_goals
      rw [foldl_addByte_save]
      rfl

/-- The fragments as chunks of bytes. -/
def chunker : Chunker UInt8 :=
  ⟨self.output.map RawBuilder.payload, self.currPacket.payload⟩

end

/-- The current packet takes a byte more. -/
structure Ready (inserter : FragmentingInserter) : Prop where
  maxBytes : inserter.currPacket.maxBytes = inserter.mtu
  room : inserter.currPacket.payload.length < inserter.mtu

namespace Ready

theorem new (positive : 0 < mtu) : (new mtu).Ready := ⟨rfl, positive⟩

/-- A ready inserter chunks: its bytes fill the current packet and close it when it is full. -/
theorem addByte (ready : self.Ready) (byte : UInt8) :
    (self.addByte byte).Ready ∧ (self.addByte byte).mtu = self.mtu ∧
      (self.addByte byte).chunker = self.chunker.push self.mtu byte := by
  obtain ⟨maxBytes, room⟩ := ready
  have added : (self.currPacket.addOctets1 byte).1 =
      { self.currPacket with payload := self.currPacket.payload ++ [byte] } := by
    rw [RawBuilder.addOctets1_eq, if_pos (maxBytes ▸ room)]
  unfold FragmentingInserter.addByte Chunker.push
  rw [added]
  by_cases full : self.mtu ≤ (self.currPacket.payload ++ [byte]).length
  · simp only [chunker, full, if_true]
    exact ⟨⟨rfl, Nat.zero_lt_of_lt room⟩, trivial, by simp [RawBuilder.new]⟩
  · simp only [chunker, full, if_false]
    exact ⟨⟨maxBytes, Nat.not_le.mp full⟩, trivial, trivial⟩

theorem foldl (ready : self.Ready) (bytes : List UInt8) :
    (bytes.foldl FragmentingInserter.addByte self).chunker =
      bytes.foldl (Chunker.push self.mtu) self.chunker := by
  induction bytes generalizing self with
  | nil => rfl
  | cons byte rest ih =>
    obtain ⟨still, mtu, pushed⟩ := ready.addByte byte
    rw [foldl_cons, foldl_cons, ih still, mtu, pushed]

end Ready

theorem finalize_payload (self : FragmentingInserter) :
    self.finalize.map RawBuilder.payload = self.chunker.finish := by
  unfold finalize Chunker.finish chunker
  split <;> simp

end FragmentingInserter

/-- `AclFragmenter::GetFragments`; the inserter is destroyed when it has no saved bits. -/
def getFragments (mtu : Nat) (packet : PacketBuilder) : Option (List RawBuilder) :=
  let inserter := packet.foldl insertBits (new mtu)
  if inserter.saved.numSavedBits = 0 then some inserter.finalize else none

theorem getFragments_isChunking (positive : 0 < mtu)
    (serialized : serializeToBytes packet = some bytes) :
    ∃ fragments, getFragments mtu packet = some fragments ∧
      IsChunking mtu bytes (fragments.map RawBuilder.payload) := by
  rw [serializeToBytes_eq] at serialized
  split at serialized
  · rename_i whole
    obtain rfl := Option.some.inj serialized
    refine ⟨_, if_pos ?_, ?_⟩
    · simpa [foldl_insertBits, new, save] using whole
    · rw [finalize_payload, foldl_insertBits]
      change IsChunking mtu _ ((SavedBits.none.insertAll packet).1.foldl addByte
          (FragmentingInserter.new mtu)).chunker.finish
      rw [(FragmentingInserter.Ready.new positive).foldl]
      exact Chunker.isChunking positive _
  · cases serialized

theorem FragmentingInserter.foldl_addByte_zero (bytes : List UInt8) (output : List RawBuilder) :
    bytes.foldl addByte
        ⟨0, SavedBits.none, RawBuilder.new 0, output⟩ = ⟨0, SavedBits.none, RawBuilder.new 0,
        output ++ replicate bytes.length (RawBuilder.new 0)⟩ := by
  induction bytes generalizing output with
  | nil => simp
  | cons byte rest ih =>
    have one : addByte ⟨0, SavedBits.none, RawBuilder.new 0, output⟩ byte =
        ⟨0, SavedBits.none, RawBuilder.new 0, output ++ [RawBuilder.new 0]⟩ := by
      simp [addByte, RawBuilder.addOctets1_eq, RawBuilder.new]
    rw [foldl_cons, one, ih]
    simp [replicate_succ]

theorem getFragments_ne_nil (mtu : Nat) (serialized : serializeToBytes packet = some bytes)
    (some : bytes ≠ []) :
    ∃ fragments, getFragments mtu packet = Option.some fragments ∧ fragments ≠ [] := by
  rcases Nat.eq_zero_or_pos mtu with rfl | positive
  · rw [serializeToBytes_eq] at serialized
    split at serialized
    · rename_i whole
      obtain rfl := Option.some.inj serialized
      refine ⟨_, if_pos ?_, ?_⟩
      · simpa [foldl_insertBits, new, save] using whole
      · rw [foldl_insertBits, new, foldl_addByte_zero]
        simpa [save, finalize, RawBuilder.new] using some
    · cases serialized
  · obtain ⟨fragments, produced, chunking⟩ := getFragments_isChunking positive serialized
    refine ⟨fragments, produced, fun empty => some ?_⟩
    rw [← chunking.joined, empty]
    rfl

end BluetoothFormal.Packet.Inserters
