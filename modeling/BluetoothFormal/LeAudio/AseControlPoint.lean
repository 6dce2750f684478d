import Mathlib.Algebra.GroupWithZero.Nat
import BluetoothFormal.L2cap.Buffer

/-!
# Metadata in ASE control point requests

An Enable and an Update Metadata request carry the metadata of several ASEs.  The length of the
message is compared with the maximum before the metadata of an ASE is added to it, so that of
the last ASE is never looked at.
-/

namespace BluetoothFormal.LeAudio

open List

/-- `ctp_enable` and `ctp_update_metadata` -/
structure AseMetadata where
  aseId : UInt8
  metadata : List UInt8

/-- The loop that adds up `msg_len`, a number of 16 bits. -/
def msgLenLoop : Nat → List AseMetadata → Option Nat
  | msgLen, [] => some msgLen
  | msgLen, conf :: rest =>
    if msgLen > 512 then none
    else if conf.metadata.length > 255 then none
    else msgLenLoop ((msgLen + conf.metadata.length) % 65536) rest

def ctpMessage (opcode : UInt8) (confs : List AseMetadata) : List UInt8 :=
  opcode :: UInt8.ofNat confs.length :: confs.flatMap fun conf =>
    conf.aseId :: UInt8.ofNat conf.metadata.length :: conf.metadata

def prepareAseCtpMetadata (opcode : UInt8) (minLen : Nat) (confs : List AseMetadata)
    (value : List UInt8) : Option (List UInt8) :=
  if confs.length = 0 then none
  else if confs.length > 255 then none
  else
    (msgLenLoop ((confs.length * minLen + 1 + 1) % 65536) confs).map fun msgLen =>
      L2cap.copyAt ((value ++ List.replicate msgLen 0).take msgLen) 0 (ctpMessage opcode confs)

def prepareAseCtpEnable : List AseMetadata → List UInt8 → Option (List UInt8) :=
  prepareAseCtpMetadata 0x03 2

def prepareAseCtpUpdateMetadata : List AseMetadata → List UInt8 → Option (List UInt8) :=
  prepareAseCtpMetadata 0x07 2

def metadataLen (confs : List AseMetadata) : Nat :=
  (confs.map fun conf => conf.metadata.length).sum

variable {confs : List AseMetadata}

theorem msgLenLoop_eq_some {msgLen found : Nat} :
    msgLenLoop msgLen confs = some found ↔
      (confs ≠ [] → msgLen + metadataLen confs.dropLast ≤ 512) ∧
        (∀ conf ∈ confs, conf.metadata.length ≤ 255) ∧ msgLen + metadataLen confs = found := by
  induction confs generalizing msgLen with
  | nil => simp [msgLenLoop, metadataLen]
  | cons conf rest ih =>
    have front : metadataLen (conf :: rest).dropLast =
        if rest = [] then 0 else conf.metadata.length + metadataLen rest.dropLast := by
      cases rest <;> rfl
    have all : metadataLen (conf :: rest) = conf.metadata.length + metadataLen rest :=
      sum_cons
    rw [msgLenLoop, front, all, forall_mem_cons]
    split
    · simp only [reduceCtorEq, false_iff]
      rintro ⟨small, _⟩
      have := small (cons_ne_nil _ _)
      omega
    · split
      · simp only [reduceCtorEq, false_iff]
        rintro ⟨_, ⟨short, _⟩, _⟩
        omega
      · rw [Nat.mod_eq_of_lt (by omega), ih]
        by_cases last : rest = []
        · subst last
          simp [metadataLen]
          omega
        · simp only [last, ne_eq, not_false_eq_true, forall_const, if_false, reduceCtorEq,
            Nat.add_assoc]
          refine and_congr_right fun _ => and_congr_left fun _ => ?_
          exact (and_iff_right (by omega)).symm

theorem length_ctpMessage (opcode : UInt8) (confs : List AseMetadata) :
    (ctpMessage opcode confs).length = 2 + 2 * confs.length + metadataLen confs := by
  have entries : (confs.flatMap fun conf =>
      conf.aseId :: UInt8.ofNat conf.metadata.length :: conf.metadata).length =
        2 * confs.length + metadataLen confs := by
    induction confs with
    | nil => rfl
    | cons conf rest ih =>
      simp only [flatMap_cons, length_append, length_cons, ih, metadataLen, map_cons, sum_cons]
      omega
  simp only [ctpMessage, length_cons, entries]
  omega

/-- A message within the maximum, in which no count has wrapped. -/
structure ExactMessage (opcode : UInt8) (confs : List AseMetadata) (msg : List UInt8) : Prop where
  small : msg.length ≤ 512
  bytes : msg = ctpMessage opcode confs
  counted : confs.length < 256 ∧ ∀ conf ∈ confs, conf.metadata.length < 256

/-- If the message is short enough without the metadata of the last ASE, then also with it. -/
def LastFits (confs : List AseMetadata) : Prop :=
  (∀ conf ∈ confs, conf.metadata.length ≤ 255) →
    2 + 2 * confs.length + metadataLen confs.dropLast ≤ 512 →
      2 + 2 * confs.length + metadataLen confs ≤ 512

theorem prepareAseCtpMetadata_eq_some {opcode : UInt8} {value msg : List UInt8} :
    prepareAseCtpMetadata opcode 2 confs value = some msg ↔
      confs ≠ [] ∧ 2 + 2 * confs.length + metadataLen confs.dropLast ≤ 512 ∧
        (∀ conf ∈ confs, conf.metadata.length ≤ 255) ∧ msg = ctpMessage opcode confs := by
  simp only [prepareAseCtpMetadata, length_eq_zero_iff]
  split
  · simp [*]
  case isFalse some =>
    split
    · simp only [reduceCtorEq, false_iff]
      rintro ⟨_, small, _⟩
      omega
    · rw [Nat.mod_eq_of_lt (by omega), Option.map_eq_some_iff]
      simp only [msgLenLoop_eq_some]
      have whole : L2cap.copyAt ((value ++ List.replicate
          (confs.length * 2 + 1 + 1 + metadataLen confs) 0).take
            (confs.length * 2 + 1 + 1 + metadataLen confs)) 0 (ctpMessage opcode confs) =
          ctpMessage opcode confs := by
        rw [L2cap.copyAt, take_zero, nil_append, drop_of_length_le, append_nil]
        rw [length_take, length_ctpMessage]
        omega
      constructor
      · rintro ⟨_, ⟨small, short, rfl⟩, rfl⟩
        have := small some
        exact ⟨some, by omega, short, whole⟩
      · rintro ⟨_, small, short, rfl⟩
        exact ⟨_, ⟨fun _ => by omega, short, rfl⟩, whole⟩

theorem exactMessage_iff (opcode : UInt8) (confs : List AseMetadata) (value : List UInt8) :
    (∀ msg, prepareAseCtpMetadata opcode 2 confs value = some msg →
      ExactMessage opcode confs msg) ↔ LastFits confs := by
  constructor
  · intro exact_ short small
    by_cases none : confs = []
    · subst none
      decide
    · have message := (exact_ _ (prepareAseCtpMetadata_eq_some.mpr ⟨none, small, short, rfl⟩)).small
      rwa [length_ctpMessage] at message
  · rintro fits _ made
    obtain ⟨_, small, short, rfl⟩ := prepareAseCtpMetadata_eq_some.mp made
    refine ⟨?_, rfl, by omega, fun conf member => Nat.lt_succ_of_le (short conf member)⟩
    rw [length_ctpMessage]
    exact fits short small

/-- The messages of both functions are right exactly if the last metadata still fits. -/
theorem ase_messages_iff (confs : List AseMetadata) (value : List UInt8) :
    ((∀ msg, prepareAseCtpEnable confs value = some msg → ExactMessage 0x03 confs msg) ∧
      ∀ msg, prepareAseCtpUpdateMetadata confs value = some msg → ExactMessage 0x07 confs msg) ↔
      LastFits confs := by
  rw [prepareAseCtpEnable, prepareAseCtpUpdateMetadata, exactMessage_iff, exactMessage_iff, and_self]

/-- An ASE with as much metadata as a length byte can tell. -/
def fullAse (aseId : UInt8) : AseMetadata := ⟨aseId, List.replicate 255 0⟩

theorem length_fullAse (aseId : UInt8) : (fullAse aseId).metadata.length = 255 :=
  length_replicate

/-- Two such ASEs make a message of 516 bytes. -/
theorem last_metadata_unchecked :
    ∃ msg, prepareAseCtpEnable [fullAse 1, fullAse 2] [] = some msg ∧ msg.length = 516 := by
  refine ⟨_, prepareAseCtpMetadata_eq_some.mpr ⟨cons_ne_nil _ _, ?_, ?_, rfl⟩, ?_⟩
  · simp [metadataLen, length_fullAse]
  · simp [length_fullAse]
  · simp [length_ctpMessage, metadataLen, length_fullAse]

end BluetoothFormal.LeAudio
