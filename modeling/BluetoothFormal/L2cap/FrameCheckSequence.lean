import Mathlib.Data.BitVec

/-!
# Frame check sequences

The checksum of a frame is computed byte by byte with a table, in `Fcs` and in the legacy code.
Both compute the reflected cyclic redundancy check with the polynomial `0xA001`.
-/

namespace BluetoothFormal.L2cap

open List

/-- A byte is added to a checksum with a table. -/
def addByteWith (crctab : List (BitVec 16)) (crc : BitVec 16) (byte : BitVec 8) : BitVec 16 :=
  (crc >>> 8 &&& 0x00ff) ^^^ crctab.getD ((crc &&& 0x00ff) ^^^ byte.setWidth 16).toNat 0

namespace Fcs

def crctab : List (BitVec 16) :=
  [0x0000, 0xc0c1, 0xc181, 0x0140, 0xc301, 0x03c0, 0x0280, 0xc241, 0xc601, 0x06c0, 0x0780, 0xc741,
    0x0500, 0xc5c1, 0xc481, 0x0440, 0xcc01, 0x0cc0, 0x0d80, 0xcd41, 0x0f00, 0xcfc1, 0xce81, 0x0e40,
    0x0a00, 0xcac1, 0xcb81, 0x0b40, 0xc901, 0x09c0, 0x0880, 0xc841, 0xd801, 0x18c0, 0x1980, 0xd941,
    0x1b00, 0xdbc1, 0xda81, 0x1a40, 0x1e00, 0xdec1, 0xdf81, 0x1f40, 0xdd01, 0x1dc0, 0x1c80, 0xdc41,
    0x1400, 0xd4c1, 0xd581, 0x1540, 0xd701, 0x17c0, 0x1680, 0xd641, 0xd201, 0x12c0, 0x1380, 0xd341,
    0x1100, 0xd1c1, 0xd081, 0x1040, 0xf001, 0x30c0, 0x3180, 0xf141, 0x3300, 0xf3c1, 0xf281, 0x3240,
    0x3600, 0xf6c1, 0xf781, 0x3740, 0xf501, 0x35c0, 0x3480, 0xf441, 0x3c00, 0xfcc1, 0xfd81, 0x3d40,
    0xff01, 0x3fc0, 0x3e80, 0xfe41, 0xfa01, 0x3ac0, 0x3b80, 0xfb41, 0x3900, 0xf9c1, 0xf881, 0x3840,
    0x2800, 0xe8c1, 0xe981, 0x2940, 0xeb01, 0x2bc0, 0x2a80, 0xea41, 0xee01, 0x2ec0, 0x2f80, 0xef41,
    0x2d00, 0xedc1, 0xec81, 0x2c40, 0xe401, 0x24c0, 0x2580, 0xe541, 0x2700, 0xe7c1, 0xe681, 0x2640,
    0x2200, 0xe2c1, 0xe381, 0x2340, 0xe101, 0x21c0, 0x2080, 0xe041, 0xa001, 0x60c0, 0x6180, 0xa141,
    0x6300, 0xa3c1, 0xa281, 0x6240, 0x6600, 0xa6c1, 0xa781, 0x6740, 0xa501, 0x65c0, 0x6480, 0xa441,
    0x6c00, 0xacc1, 0xad81, 0x6d40, 0xaf01, 0x6fc0, 0x6e80, 0xae41, 0xaa01, 0x6ac0, 0x6b80, 0xab41,
    0x6900, 0xa9c1, 0xa881, 0x6840, 0x7800, 0xb8c1, 0xb981, 0x7940, 0xbb01, 0x7bc0, 0x7a80, 0xba41,
    0xbe01, 0x7ec0, 0x7f80, 0xbf41, 0x7d00, 0xbdc1, 0xbc81, 0x7c40, 0xb401, 0x74c0, 0x7580, 0xb541,
    0x7700, 0xb7c1, 0xb681, 0x7640, 0x7200, 0xb2c1, 0xb381, 0x7340, 0xb101, 0x71c0, 0x7080, 0xb041,
    0x5000, 0x90c1, 0x9181, 0x5140, 0x9301, 0x53c0, 0x5280, 0x9241, 0x9601, 0x56c0, 0x5780, 0x9741,
    0x5500, 0x95c1, 0x9481, 0x5440, 0x9c01, 0x5cc0, 0x5d80, 0x9d41, 0x5f00, 0x9fc1, 0x9e81, 0x5e40,
    0x5a00, 0x9ac1, 0x9b81, 0x5b40, 0x9901, 0x59c0, 0x5880, 0x9841, 0x8801, 0x48c0, 0x4980, 0x8941,
    0x4b00, 0x8bc1, 0x8a81, 0x4a40, 0x4e00, 0x8ec1, 0x8f81, 0x4f40, 0x8d01, 0x4dc0, 0x4c80, 0x8c41,
    0x4400, 0x84c1, 0x8581, 0x4540, 0x8701, 0x47c0, 0x4680, 0x8641, 0x8201, 0x42c0, 0x4380, 0x8341,
    0x4100, 0x81c1, 0x8081, 0x4040]

def addByte : BitVec 16 → BitVec 8 → BitVec 16 := addByteWith crctab

/-- The checksum of bytes that are added after `Initialize`. -/
def checksum (bytes : List (BitVec 8)) : BitVec 16 := bytes.foldl addByte 0

end Fcs

namespace Fcr

def crctab : List (BitVec 16) :=
  [0x0000, 0xc0c1, 0xc181, 0x0140, 0xc301, 0x03c0, 0x0280, 0xc241, 0xc601, 0x06c0, 0x0780, 0xc741,
    0x0500, 0xc5c1, 0xc481, 0x0440, 0xcc01, 0x0cc0, 0x0d80, 0xcd41, 0x0f00, 0xcfc1, 0xce81, 0x0e40,
    0x0a00, 0xcac1, 0xcb81, 0x0b40, 0xc901, 0x09c0, 0x0880, 0xc841, 0xd801, 0x18c0, 0x1980, 0xd941,
    0x1b00, 0xdbc1, 0xda81, 0x1a40, 0x1e00, 0xdec1, 0xdf81, 0x1f40, 0xdd01, 0x1dc0, 0x1c80, 0xdc41,
    0x1400, 0xd4c1, 0xd581, 0x1540, 0xd701, 0x17c0, 0x1680, 0xd641, 0xd201, 0x12c0, 0x1380, 0xd341,
    0x1100, 0xd1c1, 0xd081, 0x1040, 0xf001, 0x30c0, 0x3180, 0xf141, 0x3300, 0xf3c1, 0xf281, 0x3240,
    0x3600, 0xf6c1, 0xf781, 0x3740, 0xf501, 0x35c0, 0x3480, 0xf441, 0x3c00, 0xfcc1, 0xfd81, 0x3d40,
    0xff01, 0x3fc0, 0x3e80, 0xfe41, 0xfa01, 0x3ac0, 0x3b80, 0xfb41, 0x3900, 0xf9c1, 0xf881, 0x3840,
    0x2800, 0xe8c1, 0xe981, 0x2940, 0xeb01, 0x2bc0, 0x2a80, 0xea41, 0xee01, 0x2ec0, 0x2f80, 0xef41,
    0x2d00, 0xedc1, 0xec81, 0x2c40, 0xe401, 0x24c0, 0x2580, 0xe541, 0x2700, 0xe7c1, 0xe681, 0x2640,
    0x2200, 0xe2c1, 0xe381, 0x2340, 0xe101, 0x21c0, 0x2080, 0xe041, 0xa001, 0x60c0, 0x6180, 0xa141,
    0x6300, 0xa3c1, 0xa281, 0x6240, 0x6600, 0xa6c1, 0xa781, 0x6740, 0xa501, 0x65c0, 0x6480, 0xa441,
    0x6c00, 0xacc1, 0xad81, 0x6d40, 0xaf01, 0x6fc0, 0x6e80, 0xae41, 0xaa01, 0x6ac0, 0x6b80, 0xab41,
    0x6900, 0xa9c1, 0xa881, 0x6840, 0x7800, 0xb8c1, 0xb981, 0x7940, 0xbb01, 0x7bc0, 0x7a80, 0xba41,
    0xbe01, 0x7ec0, 0x7f80, 0xbf41, 0x7d00, 0xbdc1, 0xbc81, 0x7c40, 0xb401, 0x74c0, 0x7580, 0xb541,
    0x7700, 0xb7c1, 0xb681, 0x7640, 0x7200, 0xb2c1, 0xb381, 0x7340, 0xb101, 0x71c0, 0x7080, 0xb041,
    0x5000, 0x90c1, 0x9181, 0x5140, 0x9301, 0x53c0, 0x5280, 0x9241, 0x9601, 0x56c0, 0x5780, 0x9741,
    0x5500, 0x95c1, 0x9481, 0x5440, 0x9c01, 0x5cc0, 0x5d80, 0x9d41, 0x5f00, 0x9fc1, 0x9e81, 0x5e40,
    0x5a00, 0x9ac1, 0x9b81, 0x5b40, 0x9901, 0x59c0, 0x5880, 0x9841, 0x8801, 0x48c0, 0x4980, 0x8941,
    0x4b00, 0x8bc1, 0x8a81, 0x4a40, 0x4e00, 0x8ec1, 0x8f81, 0x4f40, 0x8d01, 0x4dc0, 0x4c80, 0x8c41,
    0x4400, 0x84c1, 0x8581, 0x4540, 0x8701, 0x47c0, 0x4680, 0x8641, 0x8201, 0x42c0, 0x4380, 0x8341,
    0x4100, 0x81c1, 0x8081, 0x4040]

/-- `l2c_fcr_updcrc`. -/
def updcrc (icrc : BitVec 16) (bytes : List (BitVec 8)) : BitVec 16 :=
  bytes.foldl (addByteWith crctab) icrc

end Fcr

/-! ## Bit by bit -/

namespace Crc

/-- One bit leaves at the right, and the polynomial is added if it was set. -/
def bitStep (crc : BitVec 16) : BitVec 16 :=
  crc >>> 1 ^^^ if crc.getLsbD 0 then 0xA001 else 0

/-- The bits of a byte enter together and leave one by one. -/
def byteStep (crc : BitVec 16) (byte : BitVec 8) : BitVec 16 :=
  bitStep^[8] (crc ^^^ byte.setWidth 16)

def checksum (bytes : List (BitVec 8)) : BitVec 16 := bytes.foldl byteStep 0

theorem bitStep_xor (a b : BitVec 16) : bitStep (a ^^^ b) = bitStep a ^^^ bitStep b := by
  have feedback : ∀ p q : Bool, (if (p ^^ q) then (0xA001 : BitVec 16) else 0) =
      (if p then 0xA001 else 0) ^^^ if q then 0xA001 else 0 := by decide
  rw [bitStep, bitStep, bitStep, BitVec.ushiftRight_xor_distrib, BitVec.getLsbD_xor, feedback]
  ac_rfl

theorem iterate_xor (steps : Nat) (a b : BitVec 16) :
    bitStep^[steps] (a ^^^ b) = bitStep^[steps] a ^^^ bitStep^[steps] b := by
  induction steps generalizing a b with
  | zero => rfl
  | succ steps ih =>
    rw [Function.iterate_succ_apply, bitStep_xor, ih]
    rfl

theorem iterate_clear {crc : BitVec 16} {steps : Nat} (clear : ∀ i < steps, crc.getLsbD i = false) :
    bitStep^[steps] crc = crc >>> steps := by
  induction steps with
  | zero => simp
  | succ steps ih =>
    rw [Function.iterate_succ_apply', ih fun i below => clear i (Nat.lt_succ_of_lt below), bitStep]
    simp [clear steps (Nat.lt_succ_self _), BitVec.shiftRight_add]

/-- A table of what the bytes leave behind adds a byte as its bits do. -/
theorem addByteWith_eq {crctab : List (BitVec 16)}
    (entries : ∀ low : BitVec 8, bitStep^[8] (low.setWidth 16) = crctab.getD low.toNat 0)
    (crc : BitVec 16) (byte : BitVec 8) : addByteWith crctab crc byte = byteStep crc byte := by
  have low : ∀ word : BitVec 16, word &&& 0x00ff = (word.setWidth 8).setWidth 16 := by
    intro word
    refine BitVec.eq_of_toNat_eq ?_
    simp [Nat.and_two_pow_sub_one_eq_mod _ 8]
    omega
  have high : (crc ^^^ (crc.setWidth 8).setWidth 16) >>> 8 =
      ((crc >>> 8).setWidth 8).setWidth 16 := by
    ext i below
    simp
    grind
  have split : crc ^^^ byte.setWidth 16 =
      (crc ^^^ (crc.setWidth 8).setWidth 16) ^^^ (crc.setWidth 8 ^^^ byte).setWidth 16 := by
    rw [BitVec.setWidth_xor, BitVec.xor_assoc, ← BitVec.xor_assoc (BitVec.setWidth 16 _),
      BitVec.xor_self, BitVec.zero_xor]
  rw [byteStep, split, iterate_xor, entries, iterate_clear, high, addByteWith, low, low,
    ← BitVec.setWidth_xor, BitVec.toNat_setWidth_of_le (by decide)]
  intro i below
  simp [BitVec.getLsbD_setWidth, below]
  omega

/-- Both tables compute the cyclic redundancy check, for every string of bytes. -/
theorem checksums_agree (bytes : List (BitVec 8)) :
    Fcs.checksum bytes = checksum bytes ∧ Fcr.updcrc 0 bytes = checksum bytes := by
  have fcs : Fcs.addByte = byteStep :=
    funext fun crc => funext fun byte => addByteWith_eq (by decide +kernel) crc byte
  -- the two tables have the same entries
  have fcr : addByteWith Fcr.crctab = byteStep := fcs
  rw [Fcs.checksum, Fcr.updcrc, fcs, fcr]
  exact ⟨rfl, rfl⟩

/-! ## What the check sequence protects -/

theorem eq_zero_of_bitStep {crc : BitVec 16} (zero : bitStep crc = 0) : crc = 0 := by
  have half := congrArg BitVec.toNat (BitVec.xor_eq_zero_iff.mp zero)
  rw [BitVec.toNat_ushiftRight, BitVec.getLsbD, Nat.testBit_zero, Nat.shiftRight_eq_div_pow] at half
  by_cases odd : crc.toNat % 2 = 1
  · rw [if_pos (decide_eq_true odd)] at half
    change crc.toNat / 2 = 0xA001 at half
    omega
  · rw [if_neg (by simpa using odd)] at half
    change crc.toNat / 2 = 0 at half
    exact BitVec.eq_of_toNat_eq (show crc.toNat = 0 by omega)

theorem bitStep_injective : Function.Injective bitStep := by
  intro a b same
  have zero : bitStep (a ^^^ b) = 0 := by
    rw [bitStep_xor, same, BitVec.xor_self]
    rfl
  exact BitVec.xor_eq_zero_iff.mp (eq_zero_of_bitStep zero)

theorem byteStep_left_injective (byte : BitVec 8) : Function.Injective (byteStep · byte) :=
  fun _ _ same => (BitVec.xor_left_inj _).mp (bitStep_injective.iterate 8 same)

theorem foldl_injective (bytes : List (BitVec 8)) :
    Function.Injective (bytes.foldl byteStep) := by
  induction bytes with
  | nil => exact fun _ _ same => same
  | cons byte bytes ih => exact fun _ _ same => byteStep_left_injective byte (ih same)

/-- What a byte leaves behind reaches the upper half, where the next byte does not enter. -/
theorem upper_ne_zero :
    ∀ byte : BitVec 8, bitStep^[8] (byte.setWidth 16) >>> 8 = 0#16 → byte = 0 := by
  decide +kernel

theorem setWidth_inj {a b : BitVec 8} (same : a.setWidth 16 = b.setWidth 16) : a = b := by
  simpa using congrArg (BitVec.setWidth 8) same

theorem byteStep_right_injective (crc : BitVec 16) : Function.Injective (byteStep crc) :=
  fun _ _ same => setWidth_inj ((BitVec.xor_right_inj _).mp (bitStep_injective.iterate 8 same))

theorem byteStep_xor (crc : BitVec 16) (a b : BitVec 8) :
    byteStep crc a ^^^ byteStep crc b = bitStep^[8] ((a ^^^ b).setWidth 16) := by
  rw [byteStep, byteStep, ← iterate_xor, BitVec.setWidth_xor]
  congr 1
  rw [BitVec.xor_comm crc, BitVec.xor_assoc, ← BitVec.xor_assoc crc, BitVec.xor_self,
    BitVec.zero_xor]

/-- Two bytes are read back from a checksum and the one before them. -/
theorem pair_injective {crc : BitVec 16} {a b c d : BitVec 8}
    (same : byteStep (byteStep crc a) b = byteStep (byteStep crc c) d) : a = c ∧ b = d := by
  have clear : ∀ byte : BitVec 8, byte.setWidth 16 >>> 8 = 0#16 := by decide
  have upper : byteStep crc a >>> 8 = byteStep crc c >>> 8 := by
    have shifted := congrArg (fun word : BitVec 16 => word >>> 8) (bitStep_injective.iterate 8 same)
    simpa only [BitVec.ushiftRight_xor_distrib, clear, BitVec.xor_zero] using shifted
  have first : a = c := by
    refine BitVec.xor_eq_zero_iff.mp (upper_ne_zero (a ^^^ c) ?_)
    rw [← byteStep_xor crc, BitVec.ushiftRight_xor_distrib, upper, BitVec.xor_self]
  subst first
  exact ⟨rfl, byteStep_right_injective _ same⟩

/-- A change of at most two neighbouring bytes changes the checksum. -/
theorem eq_of_foldl_eq {front back good bad : List (BitVec 8)} (length : good.length = bad.length)
    (short : good.length ≤ 2)
    (same : (front ++ good ++ back).foldl byteStep 0 = (front ++ bad ++ back).foldl byteStep 0) :
    good = bad := by
  simp only [foldl_append] at same
  have middle := foldl_injective back same
  match good, bad, length, short with
  | [], [], _, _ => rfl
  | [a], [c], _, _ => rw [byteStep_right_injective _ middle]
  | [a, b], [c, d], _, _ =>
    obtain ⟨rfl, rfl⟩ := pair_injective middle
    rfl

/-- A checksum that is followed by its own bytes ends at zero. -/
theorem residue (crc : BitVec 16) :
    byteStep (byteStep crc (crc.setWidth 8)) ((crc >>> 8).setWidth 8) = 0 := by
  have low : byteStep crc (crc.setWidth 8) = crc >>> 8 := by
    rw [byteStep, iterate_clear]
    · ext i below
      simp
    · intro i below
      simp [below]
      omega
  have high : crc >>> 8 ^^^ ((crc >>> 8).setWidth 8).setWidth 16 = 0 := by
    ext i below
    simp
    grind
  rw [low, byteStep, high]
  rfl

end Crc

namespace Fcr

/-- A frame that is sent, with its check sequence behind it. -/
def putFcs (pdu : List (BitVec 8)) : List (BitVec 8) :=
  let fcs := updcrc 0 pdu
  pdu ++ [fcs.setWidth 8, (fcs >>> 8).setWidth 8]

/-- The part of `l2c_fcr_proc_pdu` that verifies the last two bytes and drops them. -/
def verifyFcs (frame : List (BitVec 8)) : Option (List (BitVec 8)) :=
  match frame.reverse with
  | high :: low :: pdu =>
    if updcrc 0 pdu.reverse = low.setWidth 16 + high.setWidth 16 <<< 8 then some pdu.reverse
    else none
  | _ => none

theorem word_eq_iff {word : BitVec 16} {low high : BitVec 8} :
    word = low.setWidth 16 + high.setWidth 16 <<< 8 ↔
      word.setWidth 8 = low ∧ (word >>> 8).setWidth 8 = high := by
  simp only [← BitVec.toNat_inj, BitVec.toNat_add, BitVec.toNat_shiftLeft, BitVec.toNat_setWidth,
    BitVec.toNat_ushiftRight, Nat.shiftRight_eq_div_pow, Nat.shiftLeft_eq]
  omega

theorem residue_of_verified {frame pdu : List (BitVec 8)} (verified : verifyFcs frame = some pdu) :
    frame.foldl Crc.byteStep 0 = 0 := by
  have step : addByteWith crctab = Crc.byteStep :=
    funext fun crc => funext fun byte => Crc.addByteWith_eq (by decide +kernel) crc byte
  rw [verifyFcs] at verified
  split at verified
  case h_1 high low pdu shape =>
    split at verified
    case isTrue same =>
      rw [updcrc, step] at same
      obtain ⟨rfl, rfl⟩ := word_eq_iff.mp same
      rw [← frame.reverse_reverse, shape, reverse_cons, reverse_cons, append_assoc, foldl_append]
      exact Crc.residue _
    case isFalse => cases verified
  case h_2 => cases verified

/--
A frame is taken as it was sent, and dropped if at most two neighbouring bytes of it were changed:
bytes of the frame, of its check sequence, or one of both.
-/
theorem changed_frame_dropped {pdu front good bad back : List (BitVec 8)}
    (sent : putFcs pdu = front ++ good ++ back) (length : good.length = bad.length)
    (short : good.length ≤ 2) (changed : good ≠ bad) :
    verifyFcs (front ++ good ++ back) = some pdu ∧ verifyFcs (front ++ bad ++ back) = none := by
  have verified : verifyFcs (front ++ good ++ back) = some pdu := by
    simp [← sent, putFcs, verifyFcs, word_eq_iff]
  refine ⟨verified, ?_⟩
  cases other : verifyFcs (front ++ bad ++ back) with
  | none => rfl
  | some _ =>
    have same := (residue_of_verified verified).trans (residue_of_verified other).symm
    exact absurd (Crc.eq_of_foldl_eq length short same) changed

theorem changed_frame_dropped_once : verifyFcs ([5] ++ [7, 8] ++ (putFcs [5, 6]).drop 3) = none :=
  (@changed_frame_dropped [5, 6] [5] [6, (putFcs [5, 6]).getD 2 0] [7, 8] _ rfl rfl (by decide)
    (by decide)).2

end Fcr

end BluetoothFormal.L2cap
