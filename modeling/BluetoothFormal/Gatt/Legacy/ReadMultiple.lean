import BluetoothFormal.Gatt.Legacy.Pdu

/-!
# Responses to Read Multiple

The values of several attributes are put into one response, and the value that does not
fit is shortened.  All lengths are numbers of 16 bits.  With lengths in front of the
values, the length of a shortened value is computed below zero if there is no room for
the length itself, and the copy then leaves the buffer and the value.
-/

namespace BluetoothFormal.Gatt.Legacy

open L2cap List Option

/-- The value of an attribute in `tGATTS_RSP`; its length is at most `GATT_MAX_ATTR_LEN`. -/
structure AttrRsp where
  handle : Nat
  value : List UInt8
  bounded : value.length ≤ 512

open AttrRsp

/-- `tGATT_READ_MULTI`. -/
structure MultiReq where
  handles : List Nat
  variableLen : Bool

section

variable (variableLen : Bool)

/-- The length in front of a value. -/
def lenField (len : Nat) : List UInt8 :=
  if variableLen then uint16ToStream len else []

/-- The length of this length. -/
def fieldLen : Nat := if variableLen then 2 else 0

/-- `memcpy` of a number of bytes of a value to the end of the message. -/
def Msg.copy (msg : Msg) (value : List UInt8) (len : Nat) : Option Msg :=
  if value.length < len then none else msg.write (value.take len)

/--
The loop of `build_read_multi_rsp`: whether all handles were found, and the message.
There is no result if it reads outside of a value or writes outside of the buffer.
-/
def multiLoop (variableLen : Bool) (mtu : Nat) :
    List Nat → List AttrRsp → Msg → Option (Bool × Msg)
  | [], _, msg => some (true, msg)
  | _ :: _, [], msg => some (false, msg)
  | handle :: handles, rsp :: rsps, msg =>
    let totalLen :=
      (msg.data.length + rsp.value.length + fieldLen variableLen) % 65536
    let isOverflow := decide (totalLen > mtu)
    let len :=
      if isOverflow then (rsp.value.length + 65536 - (totalLen - mtu)) % 65536
      else rsp.value.length
    (msg.write (lenField variableLen len)).bind fun msg =>
      if rsp.handle = handle then
        (msg.copy rsp.value len).bind fun msg =>
          if isOverflow then some (true, msg) else multiLoop variableLen mtu handles rsps msg
      else some (false, msg)

/-- The opcode of the response. -/
def rspReadMulti : UInt8 := if variableLen then 0x21 else 0x0F

/-- `build_read_multi_rsp`: whether all handles were found, and the response. -/
def buildReadMultiRsp (req : MultiReq) (rsps : List AttrRsp) (mtu : UInt16) :
    Option (Bool × List UInt8) :=
  ((Msg.alloc ((headroom + mtu.toNat) % 65536)).write [rspReadMulti req.variableLen]).bind
    fun msg =>
      (multiLoop req.variableLen mtu.toNat req.handles rsps msg).map
        fun (found, msg) => (found, msg.data)

def encodeValue (value : List UInt8) : List UInt8 :=
  lenField variableLen value.length ++ value

end

/-- Values of which only the last one may be shortened, and all behind it left out. -/
inductive Included : List (List UInt8) → List (List UInt8) → Prop
  | none (values : List (List UInt8)) : Included values []
  | shortened {value part : List UInt8} (rest : List (List UInt8)) (begins : part <+: value) :
      Included (value :: rest) [part]
  | whole (value : List UInt8) {rest included : List (List UInt8)}
      (more : Included rest included) : Included (value :: rest) (value :: included)

/-- A response with at least one value, of at most the length of the MTU. -/
structure IsMultiRsp (variableLen : Bool) (mtu : Nat) (values : List (List UInt8))
    (pdu : List UInt8) : Prop where
  bounded : pdu.length ≤ mtu
  listed : ∃ included, included ≠ [] ∧ Included values included ∧
    pdu = rspReadMulti variableLen :: included.flatMap (encodeValue variableLen)

variable {mtu len : Nat}

section

variable (variableLen : Bool)

/-- The length of a response with whole values. -/
def rspLength (values : List (List UInt8)) : Nat :=
  1 + (values.map fun value => (encodeValue variableLen value).length).sum

/--
Wherever the values so far leave the response within the MTU, there is room for the
length of the next value, and the length with this value is a number of 16 bits.
-/
def HasSpace (mtu : Nat) (values : List (List UInt8)) : Prop :=
  ∀ front value rest, values = front ++ value :: rest → rspLength variableLen front ≤ mtu →
    rspLength variableLen front + fieldLen variableLen ≤ mtu ∧
      rspLength variableLen (front ++ [value]) < 65536

/-- The same from a length of the response on. -/
def HasSpaceFrom (variableLen : Bool) (mtu : Nat) : Nat → List (List UInt8) → Prop
  | _, [] => True
  | length, value :: rest =>
    length ≤ mtu → length + fieldLen variableLen ≤ mtu ∧
      length + (encodeValue variableLen value).length < 65536 ∧
      HasSpaceFrom variableLen mtu (length + (encodeValue variableLen value).length) rest

theorem hasSpaceFrom_iff {variableLen : Bool} (length : Nat) (values : List (List UInt8)) :
    HasSpaceFrom variableLen mtu length values ↔
      ∀ front value rest, values = front ++ value :: rest →
        length + (front.map fun value => (encodeValue variableLen value).length).sum ≤ mtu →
          length + (front.map fun value => (encodeValue variableLen value).length).sum +
            fieldLen variableLen ≤ mtu ∧ length + ((front ++ [value]).map
            fun value => (encodeValue variableLen value).length).sum < 65536 := by
  induction values generalizing length with
  | nil =>
    refine ⟨fun _ front value rest split => ?_, fun _ => trivial⟩
    cases front <;> cases split
  | cons value rest ih =>
    rw [HasSpaceFrom]
    constructor
    · intro space front other behind split inside
      cases front with
      | nil =>
        obtain ⟨rfl, rfl⟩ := List.cons.inj split
        obtain ⟨room, word, -⟩ := space (by simpa using inside)
        exact ⟨by simpa using room, by simpa using word⟩
      | cons first front =>
        obtain ⟨rfl, rfl⟩ := List.cons.inj split
        rw [map_cons, sum_cons] at inside ⊢
        obtain ⟨-, -, more⟩ := space (by omega)
        have further := (ih _).mp more front other behind rfl (by omega)
        rw [cons_append, map_cons, sum_cons]
        omega
    · intro all inside
      obtain ⟨room, word⟩ := all [] value rest rfl (by simpa using inside)
      refine ⟨by simpa using room, by simpa using word, (ih _).mpr ?_⟩
      intro front other behind split further
      have whole := all (value :: front) other behind (by rw [split]; rfl)
      rw [map_cons, sum_cons, cons_append, map_cons, sum_cons] at whole
      obtain ⟨roomBehind, wordBehind⟩ := whole (by omega)
      omega

theorem hasSpaceFrom_of_full {variableLen : Bool} {length : Nat} (full : mtu < length)
    (values : List (List UInt8)) : HasSpaceFrom variableLen mtu length values := by
  cases values with
  | nil => trivial
  | cons value rest => exact fun inside => absurd inside (Nat.not_le.mpr full)

theorem length_lenField (len : Nat) : (lenField variableLen len).length = fieldLen variableLen := by
  cases variableLen <;> rfl

theorem length_encodeValue (value : List UInt8) :
    (encodeValue variableLen value).length = fieldLen variableLen + value.length := by
  rw [encodeValue, length_append, length_lenField]

theorem Msg.write_eq {msg : Msg} {mtu : Nat} (size : msg.size = headroom + mtu)
    (bytes : List UInt8) :
    msg.write bytes = if msg.data.length + bytes.length ≤ mtu then
      some { msg with data := msg.data ++ bytes } else none := by
  rw [Msg.write, size]
  refine if_congr ?_ rfl rfl
  omega

/-- A value that is written, with the length that was found for it. -/
def Msg.writeValue (msg : Msg) (variableLen : Bool) (value : List UInt8) (len : Nat) : Option Msg :=
  (msg.write (lenField variableLen len)).bind fun msg => msg.copy value len

theorem Msg.writeValue_eq {msg : Msg} (size : msg.size = headroom + mtu) (variableLen : Bool)
    {value : List UInt8} (part : len ≤ value.length) :
    msg.writeValue variableLen value len =
      if msg.data.length + (encodeValue variableLen (value.take len)).length ≤ mtu then
        some { msg with data := msg.data ++ encodeValue variableLen (value.take len) }
      else none := by
  have taken : (value.take len).length = len := by rw [length_take]; omega
  rw [writeValue, Msg.write_eq size, length_encodeValue, taken, length_lenField]
  by_cases field : msg.data.length + fieldLen variableLen ≤ mtu
  · rw [if_pos field, bind_some, Msg.copy, if_neg (Nat.not_lt.mpr part),
      @Msg.write_eq { msg with data := msg.data ++ lenField variableLen len } mtu size,
      length_append, length_lenField, taken, add_assoc]
    refine if_congr Iff.rfl ?_ rfl
    rw [append_assoc, encodeValue, taken]
  · rw [if_neg field, if_neg (by omega)]
    rfl

theorem multiLoop_cons (mtu : Nat) (rsp : AttrRsp) (rest : List AttrRsp) (msg : Msg)
    {totalLen : Nat}
    (total : (msg.data.length + (encodeValue variableLen rsp.value).length) % 65536 = totalLen)
    (length : (if totalLen > mtu then (rsp.value.length + 65536 - (totalLen - mtu)) % 65536
      else rsp.value.length) = len) :
    multiLoop variableLen mtu ((rsp :: rest).map handle) (rsp :: rest) msg =
      (msg.writeValue variableLen rsp.value len).bind fun msg =>
        if totalLen > mtu then some (true, msg)
        else multiLoop variableLen mtu (rest.map handle) rest msg := by
  have same : (msg.data.length + rsp.value.length + fieldLen variableLen) % 65536 = totalLen := by
    rw [← total, length_encodeValue]
    congr 1
    omega
  rw [map_cons, multiLoop, Msg.writeValue, bind_assoc]
  simp [same, length]

end

/-! The three things that a value can do to the message. -/

section

variable {variableLen : Bool} {mtu : Nat} {rsp : AttrRsp} {rest : List AttrRsp} {msg : Msg}

theorem multiLoop_whole (word : mtu < 65536) (size : msg.size = headroom + mtu)
    (fits : msg.data.length + (encodeValue variableLen rsp.value).length ≤ mtu) :
    multiLoop variableLen mtu ((rsp :: rest).map handle) (rsp :: rest) msg =
      multiLoop variableLen mtu (rest.map handle) rest
        { msg with data := msg.data ++ encodeValue variableLen rsp.value } := by
  have within : ¬msg.data.length + (encodeValue variableLen rsp.value).length > mtu :=
    Nat.not_lt.mpr fits
  have step := multiLoop_cons variableLen mtu rsp rest msg (Nat.mod_eq_of_lt (by omega))
    (if_neg within)
  rw [Msg.writeValue_eq size _ le_rfl, take_length, if_pos fits, bind_some, if_neg within] at step
  exact step

theorem multiLoop_shortened (word : mtu < 65536) (size : msg.size = headroom + mtu)
    (exceeds : mtu < msg.data.length + (encodeValue variableLen rsp.value).length)
    (total : msg.data.length + (encodeValue variableLen rsp.value).length < 65536)
    (room : msg.data.length + fieldLen variableLen ≤ mtu) :
    ∃ part, part <+: rsp.value ∧ msg.data.length + (encodeValue variableLen part).length = mtu ∧
      multiLoop variableLen mtu ((rsp :: rest).map handle) (rsp :: rest) msg =
        some (true, { msg with data := msg.data ++ encodeValue variableLen part }) := by
  have encoded := length_encodeValue variableLen rsp.value
  have len : (rsp.value.length + 65536 -
      (msg.data.length + (encodeValue variableLen rsp.value).length - mtu)) % 65536 =
        mtu - (msg.data.length + fieldLen variableLen) := by omega
  have inside : mtu - (msg.data.length + fieldLen variableLen) ≤ rsp.value.length := by omega
  have full : msg.data.length + (encodeValue variableLen (rsp.value.take
      (mtu - (msg.data.length + fieldLen variableLen)))).length = mtu := by
    rw [length_encodeValue, length_take]
    omega
  have step := multiLoop_cons variableLen mtu rsp rest msg (Nat.mod_eq_of_lt total) (if_pos exceeds)
  rw [len, Msg.writeValue_eq size _ inside, if_pos (le_of_eq full), bind_some,
    if_pos exceeds] at step
  exact ⟨_, take_prefix _ _, full, step⟩

/-- Without room for the length, it is written outside of the buffer. -/
theorem multiLoop_no_room (size : msg.size = headroom + mtu)
    (none : ¬msg.data.length + fieldLen variableLen ≤ mtu) :
    multiLoop variableLen mtu ((rsp :: rest).map handle) (rsp :: rest) msg = .none := by
  rw [multiLoop_cons variableLen mtu rsp rest msg rfl rfl, Msg.writeValue, Msg.write_eq size,
    length_lenField, if_neg none]
  rfl

/-- If the total length wraps, the value is taken to fit and written outside of the buffer. -/
theorem multiLoop_wraps (word : mtu < 65536) (size : msg.size = headroom + mtu)
    (inside : msg.data.length ≤ mtu) (field : fieldLen variableLen ≤ 2)
    (wraps : 65536 ≤ msg.data.length + (encodeValue variableLen rsp.value).length) :
    multiLoop variableLen mtu ((rsp :: rest).map handle) (rsp :: rest) msg = none := by
  have small := rsp.bounded
  have encoded := length_encodeValue variableLen rsp.value
  have wrapped : (msg.data.length + (encodeValue variableLen rsp.value).length) % 65536 =
      msg.data.length + (encodeValue variableLen rsp.value).length - 65536 := by omega
  have within : ¬msg.data.length + (encodeValue variableLen rsp.value).length - 65536 > mtu := by
    omega
  have step := multiLoop_cons variableLen mtu rsp rest msg wrapped (if_neg within)
  rw [Msg.writeValue_eq size _ le_rfl, take_length, if_neg (by omega)] at step
  exact step

end

theorem multiLoop_cases {variableLen : Bool} {mtu : Nat} (word : mtu < 65536)
    {rsps : List AttrRsp} {msg : Msg} (size : msg.size = headroom + mtu)
    (inside : msg.data.length ≤ mtu) :
    (HasSpaceFrom variableLen mtu msg.data.length (rsps.map value) ∧
      ∃ included, Included (rsps.map value) included ∧ (rsps ≠ [] → included ≠ []) ∧
        msg.data.length + (included.flatMap (encodeValue variableLen)).length ≤ mtu ∧
        multiLoop variableLen mtu (rsps.map handle) rsps msg = some (true,
          { msg with data := msg.data ++ included.flatMap (encodeValue variableLen) })) ∨
    (¬HasSpaceFrom variableLen mtu msg.data.length (rsps.map value) ∧
      multiLoop variableLen mtu (rsps.map handle) rsps msg = none) := by
  induction rsps generalizing msg with
  | nil =>
    refine .inl ⟨trivial, [], .none _, fun some => absurd rfl some, ?_, ?_⟩
    · rw [flatMap_nil, length_nil]
      exact inside
    · rw [flatMap_nil, append_nil]
      rfl
  | cons rsp rest ih =>
    have encoded := length_encodeValue variableLen rsp.value
    have field : fieldLen variableLen ≤ 2 := by
      rw [fieldLen]
      split <;> decide
    rw [map_cons (f := value), HasSpaceFrom]
    rcases lt_or_ge mtu
      (msg.data.length + (encodeValue variableLen rsp.value).length) with exceeds | fits
    · rcases lt_or_ge (msg.data.length + (encodeValue variableLen rsp.value).length) 65536 with
        total | wraps
      · by_cases room : msg.data.length + fieldLen variableLen ≤ mtu
        · obtain ⟨part, begins, full, step⟩ := @multiLoop_shortened variableLen mtu rsp rest msg
            word size exceeds total room
          refine .inl ⟨fun _ => ⟨room, total, hasSpaceFrom_of_full exceeds _⟩, [part],
            .shortened _ begins, fun _ => cons_ne_nil _ _, ?_, ?_⟩
          · rw [flatMap_singleton, full]
          · rw [flatMap_singleton, step]
        · exact .inr ⟨fun space => room (space inside).1, multiLoop_no_room size room⟩
      · exact .inr ⟨fun space => absurd (space inside).2.1 (Nat.not_lt.mpr wraps),
          multiLoop_wraps word size inside field wraps⟩
    · rw [multiLoop_whole word size fits]
      have next := @ih { msg with data := msg.data ++ encodeValue variableLen rsp.value } size (by
        rw [length_append]
        exact fits)
      rw [length_append] at next
      rcases next with ⟨space, included, listed, -, bounded, more⟩ | ⟨none, failed⟩
      · refine .inl ⟨fun _ => ⟨by omega, by omega, space⟩, rsp.value :: included,
          .whole _ listed, fun _ => cons_ne_nil _ _, ?_, ?_⟩
        · rw [flatMap_cons, length_append]
          omega
        · rw [more, flatMap_cons, append_assoc]
      · exact .inr ⟨fun space => none (space inside).2.2, failed⟩

theorem write_rspReadMulti (variableLen : Bool) (positive : 1 ≤ mtu) :
    (Msg.alloc (headroom + mtu)).write [rspReadMulti variableLen] =
      some ⟨headroom + mtu, 0, [rspReadMulti variableLen]⟩ := by
  refine if_pos ?_
  change headroom + 0 + 1 ≤ headroom + mtu
  omega

/--
The response is built of the values, within the buffer and the values, if and only if the
size of the buffer does not wrap and there is space for every length that is written.
-/
theorem buildReadMultiRsp_iff (variableLen : Bool) (mtu : UInt16) (large : 23 ≤ mtu.toNat)
    (rsps : List AttrRsp) (some_ : rsps ≠ []) :
    (∃ pdu, buildReadMultiRsp ⟨rsps.map handle, variableLen⟩ rsps mtu = some (true, pdu) ∧
        IsMultiRsp variableLen mtu.toNat (rsps.map value) pdu) ↔
      headroom + mtu.toNat < 65536 ∧ HasSpace variableLen mtu.toNat (rsps.map value) := by
  have small := mtu.toNat_lt
  have space : HasSpace variableLen mtu.toNat (rsps.map value) ↔
      HasSpaceFrom variableLen mtu.toNat 1 (rsps.map value) :=
    (hasSpaceFrom_iff 1 _).symm
  rw [space, buildReadMultiRsp]
  by_cases word : headroom + mtu.toNat < 65536
  · rw [Nat.mod_eq_of_lt word, write_rspReadMulti variableLen (by omega), bind_some,
      and_iff_right word]
    rcases @multiLoop_cases variableLen mtu.toNat small rsps
      ⟨headroom + mtu.toNat, 0, [rspReadMulti variableLen]⟩ rfl (by
        change 1 ≤ mtu.toNat
        omega) with ⟨enough, included, listed, filled, bounded, step⟩ | ⟨short, failed⟩
    · rw [step]
      refine ⟨fun _ => enough, fun _ => ⟨_, rfl, ?_, included, filled some_, listed, rfl⟩⟩
      rw [length_append]
      exact bounded
    · rw [failed]
      refine ⟨fun ⟨_, built, _⟩ => ?_, fun enough => absurd enough short⟩
      cases built
  · rw [Msg.write_alloc_wraps small word]
    refine ⟨fun ⟨_, built, _⟩ => ?_, fun both => absurd both.1 word⟩
    cases built

/-- A value with a number of bytes. -/
def zeroRsp (handle len : Nat) : AttrRsp :=
  ⟨handle, (List.replicate len 0).take 512, length_take_le ..⟩

/-- Values of 20 and 3 bytes: the second is shortened to the two bytes that are left. -/
theorem buildReadMultiRsp_iff_shortened :
    23 ≤ (23 : UInt16).toNat ∧ [zeroRsp 3 20, zeroRsp 5 3] ≠ [] ∧
      ∃ pdu, buildReadMultiRsp ⟨[3, 5], false⟩ [zeroRsp 3 20, zeroRsp 5 3] 23 = some (true, pdu) ∧
        IsMultiRsp false 23 ([zeroRsp 3 20, zeroRsp 5 3].map value) pdu :=
  ⟨by decide, cons_ne_nil _ _,
    (buildReadMultiRsp_iff false 23 (by decide) [zeroRsp 3 20, zeroRsp 5 3]
      (cons_ne_nil _ _)).mpr ⟨by decide, (hasSpaceFrom_iff 1 _).mp
        fun _ => ⟨by decide, by decide, fun _ => ⟨by decide, by decide, trivial⟩⟩⟩⟩

/-- A value of 19 bytes ends one byte before the end, and the next one leaves the buffer. -/
theorem length_outside_buffer :
    buildReadMultiRsp ⟨[3, 5], true⟩ [zeroRsp 3 19, zeroRsp 5 1] 23 = none := by
  decide

end BluetoothFormal.Gatt.Legacy
