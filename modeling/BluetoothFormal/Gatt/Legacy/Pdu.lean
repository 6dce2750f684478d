import BluetoothFormal.Gatt.Legacy.Database

/-!
# The PDUs of the legacy GATT server

A response is built in a buffer behind a header and room for the lower layers.  The
size of some buffers is a number of 16 bits, so a large payload size makes it wrap, and
a step that writes outside of the buffer has no result.
-/

namespace BluetoothFormal.Gatt.Legacy

open L2cap List

def rspError : UInt8 := 0x01
def reqMtu : UInt8 := 0x02
def rspMtu : UInt8 := 0x03
def reqFindInfo : UInt8 := 0x04
def reqFindTypeValue : UInt8 := 0x06
def reqReadByType : UInt8 := 0x08
def reqRead : UInt8 := 0x0A
def reqReadBlob : UInt8 := 0x0C
def reqReadMulti : UInt8 := 0x0E
def reqReadByGrpType : UInt8 := 0x10
def reqWrite : UInt8 := 0x12
def reqPrepareWrite : UInt8 := 0x16
def reqExecWrite : UInt8 := 0x18

/-- `sizeof(BT_HDR)` and `L2CAP_MIN_OFFSET`. -/
def headroom : Nat := 8 + 13

/-- A message that is being built: `data` is what its length counts. -/
structure Msg where
  size : Nat
  offset : Nat
  data : List UInt8

variable {payload sHdl eHdl : Nat}

namespace Msg

/-- `osi_calloc`. -/
def alloc (size : Nat) : Msg := ⟨size, 0, []⟩

def write (msg : Msg) (bytes : List UInt8) : Option Msg :=
  if headroom + msg.data.length + bytes.length ≤ msg.size then
    some { msg with data := msg.data ++ bytes }
  else none

/-- There are `room` bytes behind the data. -/
def HasRoom (msg : Msg) (room : Nat) : Prop := headroom + msg.data.length + room ≤ msg.size

theorem HasRoom.write {msg : Msg} {room : Nat} (hasRoom : msg.HasRoom room)
    {bytes : List UInt8} (fits : bytes.length ≤ room) :
    msg.write bytes = some { msg with data := msg.data ++ bytes } ∧
      Msg.HasRoom { msg with data := msg.data ++ bytes } (room - bytes.length) := by
  rw [HasRoom] at hasRoom
  refine ⟨if_pos (by omega), ?_⟩
  rw [HasRoom, length_append]
  dsimp only
  omega

theorem write_alloc (opCode : UInt8) (large : 2 ≤ payload) :
    (alloc (headroom + payload)).write [opCode, 0] = some ⟨headroom + payload, 0, [opCode, 0]⟩ ∧
      HasRoom ⟨headroom + payload, 0, [opCode, 0]⟩ (payload - 2) := by
  have whole : (alloc (headroom + payload)).HasRoom payload := Nat.le_refl _
  exact @HasRoom.write _ _ whole [opCode, 0] large

/-- If the size of a buffer wraps, there is no room for a first byte. -/
theorem write_alloc_wraps (word : payload < 65536) (wraps : ¬headroom + payload < 65536)
    (byte : UInt8) (bytes : List UInt8) :
    (alloc ((headroom + payload) % 65536)).write (byte :: bytes) = none := by
  refine if_neg fun inside => ?_
  change headroom + 0 + (bytes.length + 1) ≤ (headroom + payload) % 65536 at inside
  rw [headroom] at inside wraps
  omega

/-- The second byte, which was left out, tells the length or the format of the rest. -/
def finish (msg : Msg) : List UInt8 := msg.data.set 1 (UInt8.ofNat msg.offset)

end Msg

/-- The error response of `gatt_send_error_rsp`. -/
def errorRsp (reason : GattStatus) (opCode : UInt8) (handle : Nat) : List UInt8 :=
  rspError :: opCode :: uint16ToStream handle ++ [reason.code]

/-- `read_handles`: the status, the handles and the rest of the parameters. -/
def readHandles (data : List UInt8) : GattStatus × Nat × Nat × List UInt8 :=
  if data.length < 4 then (.invalidPdu, 0, 0, data)
  else
    let sHdl := streamToUint16 data
    let eHdl := streamToUint16 (data.drop 2)
    if sHdl > eHdl ∨ sHdl = 0 ∨ eHdl = 0 then (.invalidHandle, sHdl, eHdl, data.drop 4)
    else (.success, sHdl, eHdl, data.drop 4)

theorem readHandles_append (positive : 0 < sHdl) (ordered : sHdl ≤ eHdl) (word : eHdl < 65536)
    (rest : List UInt8) :
    readHandles (uint16ToStream sHdl ++ (uint16ToStream eHdl ++ rest)) =
      (.success, sHdl, eHdl, rest) := by
  have first : streamToUint16 (uint16ToStream sHdl ++ (uint16ToStream eHdl ++ rest)) = sHdl :=
    streamToUint16_stream (by omega) _
  have second : streamToUint16 ((uint16ToStream sHdl ++ (uint16ToStream eHdl ++ rest)).drop 2) =
      eHdl := streamToUint16_stream word rest
  have long : ¬(uint16ToStream sHdl ++ (uint16ToStream eHdl ++ rest)).length < 4 :=
    Nat.not_lt.mpr (Nat.le_add_left 4 rest.length)
  rw [readHandles, if_neg long]
  rw [first, second, if_neg (by omega)]
  rfl

theorem readHandles_stream (positive : 0 < sHdl) (ordered : sHdl ≤ eHdl) (word : eHdl < 65536) :
    readHandles (uint16ToStream sHdl ++ uint16ToStream eHdl) = (.success, sHdl, eHdl, []) := by
  have whole := readHandles_append positive ordered word []
  rwa [append_nil] at whole

/-- `gatt_parse_uuid_from_cmd` with the UUID that is there before. -/
def gattParseUuidFromCmd (uuid : Uuid) (uuidSize : Nat) (data : List UInt8) :
    Option (Uuid × List UInt8) :=
  if uuidSize = 2 then some (from16Bit (UInt16.ofNat (streamToUint16 data)), data.drop 2)
  else if uuidSize = 16 then some (from128BitLE data, data.drop 16)
  else if uuidSize = 0 then some (uuid, data)
  else none

/-- `gatts_validate_packet_format`: the status, the UUID, the handles and the rest. -/
def gattsValidatePacketFormat (opCode : UInt8) (data : List UInt8) :
    GattStatus × Uuid × Nat × Nat × List UInt8 :=
  match readHandles data with
  | (.success, sHdl, eHdl, rest) =>
    if rest.length < 2 then (.invalidPdu, emptyUuid, sHdl, eHdl, rest)
    else
      match gattParseUuidFromCmd emptyUuid (if opCode = reqFindTypeValue then 2 else rest.length)
          rest with
      | some (uuid, rest) => (.success, uuid, sHdl, eHdl, rest)
      | none => (.invalidPdu, emptyUuid, sHdl, eHdl, rest)
  | (reason, sHdl, eHdl, rest) => (reason, emptyUuid, sHdl, eHdl, rest)

/-- Pieces of one width. -/
def cut (width : Nat) : Nat → List UInt8 → List (List UInt8)
  | 0, _ => []
  | fuel + 1, bytes =>
    if bytes = [] then [] else bytes.take width :: cut width fuel (bytes.drop width)

variable {width fuel : Nat} {pieces : List (List UInt8)}
  (even : ∀ piece ∈ pieces, piece.length = width)
include even

theorem cut_flatten (positive : 0 < width) (enough : pieces.flatten.length ≤ fuel) :
    cut width fuel pieces.flatten = pieces := by
  induction pieces generalizing fuel with
  | nil => cases fuel <;> rfl
  | cons piece rest ih =>
    have exact := even piece (mem_cons_self ..)
    rw [flatten_cons, length_append] at enough
    obtain ⟨fuel, rfl⟩ : ∃ less, fuel = less + 1 := ⟨fuel - 1, by omega⟩
    have filled : ¬(piece ++ rest.flatten) = [] := by
      intro empty
      rw [(append_eq_nil_iff.mp empty).1, length_nil] at exact
      omega
    rw [flatten_cons, cut, if_neg filled, take_left' exact, drop_left' exact,
      ih (fun other listed => even other (mem_cons_of_mem _ listed)) (by omega)]

theorem cut_front {rest : List UInt8} (some : rest ≠ []) (enough : pieces.length < fuel) :
    ∃ more, cut width fuel (pieces.flatten ++ rest) = pieces ++ rest.take width :: more := by
  induction pieces generalizing fuel with
  | nil =>
    obtain ⟨less, rfl⟩ := Nat.exists_eq_add_one.mpr (Nat.lt_of_le_of_lt (Nat.zero_le _) enough)
    exact ⟨_, if_neg some⟩
  | cons piece later ih =>
    have exact := even piece (mem_cons_self ..)
    rw [length_cons] at enough
    obtain ⟨less, rfl⟩ : ∃ less, fuel = less + 1 := ⟨fuel - 1, by omega⟩
    obtain ⟨more, cuts⟩ := @ih less (fun other listed => even other (mem_cons_of_mem _ listed))
      (by omega)
    refine ⟨more, ?_⟩
    rw [flatten_cons, append_assoc, cut, if_neg (by simp [some]),
      take_left' exact, drop_left' exact, cuts, cons_append]

end BluetoothFormal.Gatt.Legacy
