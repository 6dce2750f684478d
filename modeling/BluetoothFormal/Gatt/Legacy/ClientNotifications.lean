import BluetoothFormal.Gatt.Legacy.ClientQueue

/-!
# Notifications of several values

The client takes pairs of a handle and a value from the bytes of a notification.  The
first pair is checked, and the loop over the later ones counts the bytes that remain.
It ends with four bytes left, so a last pair with an empty value is not delivered.
Before all this, `gatt_client_handle_server_rsp` drops notifications as long as the
payload size or longer.
-/

namespace BluetoothFormal.Gatt.Legacy

open L2cap List Option

def maxAttrLen : Nat := 512

/-- What each registered client is told: `tGATT_VALUE`. -/
structure Notified where
  handle : Nat
  value : List UInt8
  deriving DecidableEq

open Notified

/-- `STREAM_TO_UINT16`; there is no result outside of the received bytes. -/
def readUint16 : List UInt8 → Option (Nat × List UInt8)
  | low :: high :: p => some (streamToUint16 [low, high], p)
  | _ => none

/-- `STREAM_TO_ARRAY`, with the same bound. -/
def readArray (len : Nat) (p : List UInt8) : Option (List UInt8 × List UInt8) :=
  if len ≤ p.length then some (p.take len, p.drop len) else none

/-- A number as an `int16_t`. -/
def int16 (number : Int) : Int := (number + 32768) % 65536 - 32768

/-- The loop over the later values, with the number of rounds that it may take. -/
def notifyRest : Nat → Int → List UInt8 → Option (List Notified)
  | 0, remLen, _ => if remLen > 4 then none else some []
  | rounds + 1, remLen, p =>
    if remLen > 4 then
      (readUint16 p).bind fun (handle, p) =>
        (readUint16 p).bind fun (len, p) =>
          (readArray (min (remLen - 4).toNat len) p).bind fun (value, p) =>
            (notifyRest rounds (remLen - 4 - value.length) p).map (⟨handle, value⟩ :: ·)
    else some []

/-- `gatt_process_notification` for notifications: what the clients are told, in this order. -/
def gattProcessNotification (opCode : UInt8) (data : List UInt8) : Option (List Notified) :=
  if data.length < 2 then some []
  else
    (readUint16 data).bind fun (handle, p) =>
      if handle = 0 then some []
      else if opCode = handleMultiValueNotif then
        if data.length < 4 then some []
        else
          (readUint16 p).bind fun (len, p) =>
            if len > data.length - 4 ∨ len > maxAttrLen then some []
            else
              (readArray len p).bind fun (value, p) =>
                (notifyRest data.length (int16 (int16 data.length - (4 + len))) p).map
                  (⟨handle, value⟩ :: ·)
      else if data.length - 2 > maxAttrLen then some []
      else (readArray (data.length - 2) p).map fun (value, _) => [⟨handle, value⟩]

theorem readUint16_of_length {p : List UInt8} (long : 2 ≤ p.length) :
    ∃ number, readUint16 p = some (number, p.drop 2) := by
  obtain ⟨low, high, rest, rfl⟩ : ∃ low high rest, p = low :: high :: rest := by
    rcases p with - | ⟨low, - | ⟨high, rest⟩⟩
    · exact absurd long (by decide)
    · exact absurd long (Nat.not_succ_le_self 1)
    · exact ⟨low, high, rest, rfl⟩
  exact ⟨_, rfl⟩

variable {rounds : Nat}

/-- The loop has at least as many bytes as it counts, and takes some of them in each round. -/
theorem notifyRest_isSome {remLen : Int} {p : List UInt8} (counted : remLen ≤ p.length)
    (enough : remLen ≤ rounds) :
    (notifyRest rounds remLen p).isSome = true := by
  induction rounds generalizing remLen p with
  | zero => simp [notifyRest, show ¬remLen > 4 by omega]
  | succ rounds ih =>
    unfold notifyRest
    split
    case isTrue more =>
      obtain ⟨handle, first⟩ := @readUint16_of_length p (by omega)
      obtain ⟨len, second⟩ := @readUint16_of_length (p.drop 2) (by rw [length_drop]; omega)
      rw [drop_drop] at second
      have inside : min (remLen - 4).toNat len ≤ (p.drop 4).length := by
        rw [length_drop]
        omega
      simp only [first, second, bind_some, readArray, if_pos inside, Option.isSome_map]
      refine ih ?_ ?_
      · simp only [length_take, length_drop] at inside ⊢
        omega
      · omega
    case isFalse => rfl

/-- The counter of the loop is at most what is left, also where it wraps. -/
theorem int16_remaining {total len : Nat} (word : total < 65536) (inside : 4 + len ≤ total) :
    int16 (int16 total - (4 + len)) ≤ total - (4 + len) ∧
      (total < 32768 → int16 (int16 total - (4 + len)) = total - (4 + len)) := by
  unfold int16
  omega

theorem gattProcessNotification_isSome (opCode : UInt8) {data : List UInt8}
    (word : data.length < 65536) : (gattProcessNotification opCode data).isSome = true := by
  unfold gattProcessNotification
  split
  · rfl
  case isFalse long =>
    obtain ⟨handle, first⟩ := @readUint16_of_length data (by omega)
    rw [first, bind_some]
    dsimp only
    split
    · rfl
    split
    · split
      · rfl
      case isFalse longer =>
        obtain ⟨len, second⟩ := @readUint16_of_length (data.drop 2) (by rw [length_drop]; omega)
        rw [second, bind_some, drop_drop]
        split
        · rfl
        case isFalse fits =>
          have inside : len ≤ (data.drop 4).length := by
            rw [length_drop]
            omega
          have counted := (@int16_remaining data.length len word (by omega)).1
          simp only [readArray, if_pos inside, bind_some, Option.isSome_map]
          refine notifyRest_isSome ?_ ?_
          · simp only [length_drop]
            omega
          · omega
    · split
      · rfl
      · simp [readArray, length_drop]

def Notified.encode (pair : Notified) : List UInt8 :=
  uint16ToStream pair.handle ++ uint16ToStream pair.value.length ++ pair.value

/-- A pair that a server may send. -/
structure Notified.Sound (pair : Notified) : Prop where
  valid : pair.handle ≠ 0
  word : pair.handle < 65536
  bounded : pair.value.length ≤ 512

theorem readUint16_stream {number : Nat} (word : number < 65536) (p : List UInt8) :
    readUint16 (uint16ToStream number ++ p) = some (number, p) :=
  congrArg (fun read => some (read, p)) (streamToUint16_stream word [])

theorem readArray_append (value p : List UInt8) :
    readArray value.length (value ++ p) = some (value, p) := by
  simp [readArray]

theorem Notified.length_encode (pair : Notified) :
    pair.encode.length = 4 + pair.value.length := by
  simp only [encode, length_append, length_uint16ToStream]

/-- The later pairs that are delivered: all but a last one with an empty value. -/
def heard : List Notified → List Notified
  | [] => []
  | [last] => if last.value = [] then [] else [last]
  | pair :: rest => pair :: heard rest

theorem notifyRest_pairs {pairs : List Notified} (sound : ∀ pair ∈ pairs, pair.Sound)
    (enough : (pairs.flatMap encode).length ≤ rounds) :
    notifyRest rounds (pairs.flatMap encode).length (pairs.flatMap encode) =
      some (heard pairs) := by
  induction pairs generalizing rounds with
  | nil => cases rounds <;> rfl
  | cons pair rest ih =>
    obtain ⟨own, others⟩ := forall_mem_cons.mp sound
    have size : ((pair :: rest).flatMap encode).length =
        4 + pair.value.length + (rest.flatMap encode).length := by
      rw [flatMap_cons, length_append, pair.length_encode]
    cases rounds with
    | zero => omega
    | succ rounds =>
      by_cases final : pair.value = [] ∧ rest = []
      · obtain ⟨empty, rfl⟩ := final
        rw [size, empty]
        simp [notifyRest, heard, empty]
      · have more : ((4 + pair.value.length + (rest.flatMap encode).length : Nat) : Int) > 4 := by
          cases rest with
          | nil =>
            have nonempty := length_pos_iff.mpr fun empty => final ⟨empty, rfl⟩
            omega
          | cons next rest =>
            rw [flatMap_cons, length_append, next.length_encode]
            omega
        have delivered : heard (pair :: rest) = pair :: heard rest := by
          cases rest with
          | nil => simp [heard, show pair.value ≠ [] from fun empty => final ⟨empty, rfl⟩]
          | cons next rest => rfl
        have whole : min (((4 + pair.value.length + (rest.flatMap encode).length : Nat) :
            Int) - 4).toNat pair.value.length = pair.value.length := by
          omega
        have left : ((4 + pair.value.length + (rest.flatMap encode).length : Nat) : Int) -
            4 - pair.value.length = (rest.flatMap encode).length := by
          omega
        rw [notifyRest, size, if_pos more, flatMap_cons, encode, append_assoc,
          append_assoc, readUint16_stream own.word, bind_some]
        dsimp only
        rw [readUint16_stream (by have := own.bounded; omega), bind_some]
        rw [whole, readArray_append, bind_some]
        rw [left, ih others (by omega), delivered]
        rfl

theorem heard_eq_iff (pairs : List Notified) :
    heard pairs = pairs ↔ ∀ last, pairs.getLast? = some last → last.value ≠ [] := by
  induction pairs with
  | nil => simp [heard]
  | cons pair rest ih =>
    cases rest with
    | nil => by_cases empty : pair.value = [] <;> simp [heard, empty]
    | cons next rest =>
      rw [heard, List.cons.injEq, List.getLast?_cons_cons, ← ih]
      · exact and_iff_right rfl
      · exact cons_ne_nil _ _

/--
The pairs of a notification are delivered as they were sent if and only if the last of
several pairs has a value that is not empty, and any bytes are read inside of what was
received.
-/
theorem notification_delivered_iff {first : Notified} {rest : List Notified}
    (sound : ∀ pair ∈ first :: rest, pair.Sound)
    (fits : 1 + ((first :: rest).flatMap encode).length ≤ 517) :
    (gattProcessNotification handleMultiValueNotif ((first :: rest).flatMap encode) =
        some (first :: rest) ↔ ∀ last, rest.getLast? = some last → last.value ≠ []) ∧
      ∀ data : List UInt8, data.length < 65536 →
        (gattProcessNotification handleMultiValueNotif data).isSome = true := by
  refine ⟨?_, fun data word => gattProcessNotification_isSome _ word⟩
  obtain ⟨own, others⟩ := forall_mem_cons.mp sound
  have size : ((first :: rest).flatMap encode).length =
      4 + first.value.length + (rest.flatMap encode).length := by
    rw [flatMap_cons, length_append, first.length_encode]
  have word : first.value.length < 65536 := by
    have bounded := own.bounded
    omega
  have counted := (@int16_remaining ((first :: rest).flatMap encode).length
    first.value.length (by omega) (by omega)).2 (by omega)
  have left : (((first :: rest).flatMap encode).length : Int) -
      (4 + first.value.length) = (rest.flatMap encode).length := by
    omega
  have step : gattProcessNotification handleMultiValueNotif
      ((first :: rest).flatMap encode) = some (first :: heard rest) := by
    rw [gattProcessNotification, if_neg (by omega)]
    nth_rewrite 1 [flatMap_cons]
    rw [encode, append_assoc, append_assoc, readUint16_stream own.word, bind_some]
    dsimp only
    rw [if_neg own.valid, if_pos rfl, if_neg (by omega), readUint16_stream word, bind_some]
    rw [if_neg (by rw [maxAttrLen]; omega), readArray_append, bind_some]
    rw [counted, left, notifyRest_pairs others (by omega)]
    rfl
  rw [step, some.injEq, List.cons.injEq, ← heard_eq_iff]
  exact and_iff_right rfl

theorem notification_delivered_twoPairs :
    gattProcessNotification handleMultiValueNotif
        ([⟨3, []⟩, ⟨5, [1, 2]⟩].flatMap encode) = some [⟨3, []⟩, ⟨5, [1, 2]⟩] :=
  (notification_delivered_iff (by
      intro pair listed
      simp only [mem_cons, not_mem_nil, or_false] at listed
      rcases listed with rfl | rfl <;> exact ⟨by decide, by decide, by decide⟩)
    (by decide)).1.mpr (by rintro last ⟨⟩; decide)

/-- The second pair has an empty value and is not delivered. -/
theorem last_empty_value_dropped :
    gattProcessNotification handleMultiValueNotif
      ([⟨3, [1]⟩, ⟨5, []⟩].flatMap encode) = some [⟨3, [1]⟩] := by
  decide

end BluetoothFormal.Gatt.Legacy
