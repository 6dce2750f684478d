import BluetoothFormal.Rfcomm.Frames
import BluetoothFormal.Rfcomm.PortSession

/-!
# The messages of the multiplexer channel

`rfc_parse_data` and `rfc_process_mx_message` follow a pointer through the
received bytes.  Here each byte is taken from the front of those that remain, and
there is no result if none remains.
-/

namespace BluetoothFormal.Rfcomm.Frames

open Session List Option

section

variable (mcb : Link) (first control field : UInt8) (length : Nat)

/-- The end of `rfc_parse_data`; the inner result is missing for a bad frame. -/
def readFcs (credit : UInt8) (data : List UInt8) :
    Option (Option (FrameEvent × MxFrame × List UInt8)) :=
  if data.length - 1 ≠ length then some none
  else
    data[length]?.map fun fcs =>
      (checkFrame mcb (fields first control credit) length [first, control, field] fcs).bind
        fun event => some (event, fields first control credit, data.take length)

/-- The part of `rfc_parse_data` behind the length. -/
def readPayload (body : List UInt8) : Option (Option (FrameEvent × MxFrame × List UInt8)) :=
  if body.length < 1 then some none
  else if announced mcb first control then
    if body.length - 1 < 1 then some none
    else
      match body with
      | [] => none
      | credit :: data => readFcs mcb first control field length credit data
  else readFcs mcb first control field length 0 body

end

/-- `rfc_parse_data` with its reads. -/
def readData (mcb : Link) (bytes : List UInt8) :
    Option (Option (FrameEvent × MxFrame × List UInt8)) :=
  if bytes.length < 3 then some none
  else
    match bytes with
    | first :: control :: field :: rest =>
      -- the second byte of a long address would be the one taken for the control field
      if first &&& ea = 0 then some none
      else if field &&& ea = 0 then
        if bytes.length ≤ 3 then some none
        else
          match rest with
          | [] => none
          | second :: body =>
            readPayload mcb first control field ((field.toNat >>> 1) + (second.toNat <<< 7)) body
      else readPayload mcb first control field (field.toNat >>> 1) rest
    | _ => none

/-- The parameters of a remote port negotiation. -/
structure RpnPars where
  baudRate : UInt8
  byteSize : UInt8
  stopBits : UInt8
  parity : UInt8
  parityType : UInt8
  fcType : UInt8
  xonChar : UInt8
  xoffChar : UInt8
  paramMask : Nat

/-- What is done with a message: its handler is called, or a test is answered. -/
inductive MxAction where
  | dropped
  | unsupported (isCommand : Bool)
  | pn (isCommand : Bool) (dlci frameType convLayer priority t1 : UInt8) (mtu : Nat) (n2 k : UInt8)
  | testCommand (answer : List UInt8)
  | testResponse (data : List UInt8)
  | fcon (isCommand : Bool)
  | fcoff (isCommand : Bool)
  | msc (isCommand : Bool) (dlci signals breakPresent breakDuration : UInt8)
  | nsc (ea cr type : UInt8)
  | rpn (isCommand : Bool) (dlci : UInt8) (pars : Option RpnPars)
  | rls (isCommand : Bool) (dlci lineStatus : UInt8)

/-- `rfc_send_test`, up to the frame: the response with the contents of the buffer. -/
def sendTest (contents : List UInt8) : List UInt8 :=
  [ea ||| 0x20, ea ||| UInt8.ofNat (contents.length <<< 1)] ++ contents

def goodAddress (byte : UInt8) : Bool :=
  byte &&& ea ≠ 0 && byte &&& crMask ≠ 0 && byte >>> 2 ≠ 0 && validDlci (byte >>> 2)

section

variable (isCommand : Bool)

def readPn : List UInt8 → Option MxAction
  | dlci :: layer :: priority :: t1 :: low :: high :: n2 :: k :: _ =>
    let dlci := dlci &&& 0x3F
    let mtu := low.toNat + (high.toNat <<< 8)
    some (if dlci = 0 ∨ !validDlci dlci ∨ mtu < minMtu ∨ maxMtu < mtu then .unsupported isCommand
      else .pn isCommand dlci (layer &&& 0x0F) (layer &&& 0xF0) (priority &&& 0x3F) t1 mtu n2
        (k &&& 7))
  | _ => none

/-- A message that starts with the address of its channel. -/
def readAddressed (read : UInt8 → List UInt8 → Option MxAction) : List UInt8 → Option MxAction
  | address :: rest =>
    if goodAddress address then read (address >>> 2) rest else some (.unsupported isCommand)
  | _ => none

def readMsc (length : Nat) (dlci : UInt8) : List UInt8 → Option MxAction
  | signals :: rest =>
    if length = 3 then
      rest.head?.map fun brk => .msc isCommand dlci signals (brk &&& 0x02) ((brk &&& 0xF0) >>> 4)
    else some (.msc isCommand dlci signals 0 0)
  | _ => none

def readRpn (length : Nat) (dlci : UInt8) (data : List UInt8) : Option MxAction :=
  if length = 1 then some (.rpn isCommand dlci none)
  else
    match data with
    | baudRate :: bits :: fc :: xon :: xoff :: low :: high :: _ =>
      some (.rpn isCommand dlci (some ⟨baudRate, bits &&& 3, (bits >>> 2) &&& 1,
        (bits >>> 3) &&& 1, (bits >>> 4) &&& 3, fc &&& 0x3F, xon, xoff,
        (low.toNat + (high.toNat <<< 8)) &&& 0x3F7F⟩))
    | _ => none

def readRls : List UInt8 → Option MxAction
  | address :: status :: _ =>
    some (if !goodAddress address then .unsupported isCommand
      else .rls isCommand (address >>> 2) (status &&& ~~~1))
  | _ => none

def readNsc : List UInt8 → Option MxAction
  | byte :: _ => some (.nsc (byte &&& ea) ((byte &&& crMask) >>> 1) (byte >>> 2))
  | _ => none

/-- The messages by their type.  A test reuses the buffer two places behind its start. -/
def readBody (message : List UInt8) (type : UInt8) (data : List UInt8) : Option MxAction :=
  if type = 0x80 ∧ data.length = 8 then readPn isCommand data
  else if type = 0x20 ∧ data.length ≠ 0 then
    if isCommand then some (.testCommand (sendTest (message.drop 2)))
    else some (.testResponse (message.drop 2))
  else if type = 0xA0 ∧ data.length = 0 then some (.fcon isCommand)
  else if type = 0x60 ∧ data.length = 0 then some (.fcoff isCommand)
  else if type = 0xE0 then
    if data.length = 3 ∨ data.length = 2 then
      readAddressed isCommand (readMsc isCommand data.length) data
    else some .dropped
  else if type = 0x10 ∧ data.length = 1 ∧ isCommand then readNsc data
  else if type = 0x90 ∧ (data.length = 1 ∨ data.length = 8) then
    readAddressed isCommand (readRpn isCommand data.length) data
  else if type = 0x50 ∧ data.length = 2 then readRls isCommand data
  else some (.unsupported isCommand)

end

/-- The part of `rfc_process_mx_message` behind the length, which has eight bits. -/
def readMessage (message : List UInt8) (first mxLen : UInt8) (data : List UInt8) :
    Option MxAction :=
  if mxLen.toNat ≠ data.length then some .dropped
  else readBody (first &&& crMask ≠ 0) message (first &&& ~~~(crMask ||| ea)) data

def processMxMessage (message : List UInt8) : Option MxAction :=
  if message.length < 2 then some .dropped
  else
    match message with
    | first :: field :: rest =>
      if first &&& ea = 0 then some .dropped
      else if field &&& ea = 0 then
        if rest.length < 1 then some .dropped
        else
          match rest with
          | [] => none
          | second :: data => readMessage message first ((field >>> 1) + (second <<< 7)) data
      else readMessage message first (field >>> 1) rest
    | _ => none

theorem readAddressed_isSome {isCommand : Bool} {read : UInt8 → List UInt8 → Option MxAction}
    {rest : List UInt8} (reads : ∀ dlci, (read dlci rest).isSome) (address : UInt8) :
    (readAddressed isCommand read (address :: rest)).isSome := by
  rw [readAddressed]
  split
  · exact reads _
  · rfl

theorem readBody_isSome (isCommand : Bool) (message data : List UInt8) (type : UInt8) :
    (readBody isCommand message type data).isSome := by
  unfold readBody
  split_ifs with pn test command fcon fcoff kind msc nsc rpn rls
  case pos =>
    match data, pn.2 with
    | [_, _, _, _, _, _, _, _], _ => rfl
  iterate 4 rfl
  case pos =>
    match data, msc with
    | [_, _, _], _ | [_, _], _ => exact readAddressed_isSome (fun _ => rfl) _
  case neg => rfl
  case pos =>
    match data, nsc.2.1 with
    | [_], _ => rfl
  case pos =>
    match data, rpn.2 with
    | [_], _ | [_, _, _, _, _, _, _, _], _ => exact readAddressed_isSome (fun _ => rfl) _
  case pos =>
    match data, rls.2 with
    | [_, _], _ => rfl
  case neg => rfl

theorem readMessage_isSome (message data : List UInt8) (first mxLen : UInt8) :
    (readMessage message first mxLen data).isSome := by
  unfold readMessage
  split
  · rfl
  · exact readBody_isSome ..

theorem processMxMessage_isSome (message : List UInt8) : (processMxMessage message).isSome := by
  match message with
  | [] | [_] => rfl
  | first :: field :: rest =>
    unfold processMxMessage
    rw [if_neg (by simp)]
    dsimp only
    split_ifs
    case pos => rfl
    case pos => rfl
    case neg long =>
      cases rest with
      | nil => exact absurd Nat.one_pos long
      | cons second data => exact readMessage_isSome ..
    case neg => exact readMessage_isSome ..

section

variable (mcb : Link) (first control field : UInt8) (length : Nat)

theorem readFcs_eq (credit : UInt8) {data : List UInt8} (some_data : data ≠ []) :
    readFcs mcb first control field length credit data = some
      (if data.length - 1 ≠ length then none else
        (checkFrame mcb (fields first control credit) length [first, control, field]
          (data.getD length 0)).bind fun event =>
            some (event, fields first control credit, data.take length)) := by
  unfold readFcs
  split
  case isTrue => rfl
  case isFalse same =>
    have positive := length_pos_iff.mpr some_data
    have inside : length < data.length := by omega
    rw [getD_eq_getElem?_getD, getElem?_eq_getElem inside]
    rfl

theorem readPayload_eq (body : List UInt8) :
    readPayload mcb first control field length body = some (if body = [] then none else
        (parseCredit (announced mcb first control) body).bind fun (credit, data) =>
          if data.length - 1 ≠ length then none else
            (checkFrame mcb (fields first control credit) length [first, control, field]
              (data.getD length 0)).bind fun event =>
                some (event, fields first control credit, data.take length)) := by
  unfold readPayload
  cases body with
  | nil => rfl
  | cons byte rest =>
    rw [if_neg (by simp), if_neg (cons_ne_nil _ _)]
    cases announced mcb first control with
    | false => exact readFcs_eq mcb first control field length 0 (cons_ne_nil _ _)
    | true =>
      cases rest with
      | nil => rfl
      | cons second rest => exact readFcs_eq mcb first control field length byte (cons_ne_nil _ _)

end

theorem readData_eq_parseData (mcb : Link) (bytes : List UInt8) :
    readData mcb bytes = some (parseData mcb bytes) := by
  match bytes with
  | [] | [_] | [_, _] => rfl
  | first :: control :: field :: rest =>
    unfold readData parseData
    rw [if_neg (by simp)]
    dsimp only
    split
    case isTrue => rfl
    case isFalse =>
      by_cases wide : field &&& ea = 0
      · rw [if_pos wide]
        cases rest with
        | nil =>
          have missing : parseLength field [] = none := if_neg (not_not.mpr wide)
          rw [missing]
          rfl
        | cons second body =>
          have parsed : parseLength field (second :: body) =
              some ((field.toNat >>> 1) + (second.toNat <<< 7), body) := if_neg (not_not.mpr wide)
          rw [if_neg (by simp), parsed]
          exact readPayload_eq mcb first control field _ body
      · have parsed : parseLength field rest = some (field.toNat >>> 1, rest) := if_pos wide
        rw [if_neg wide, parsed]
        exact readPayload_eq mcb first control field _ rest

/-- No read is outside of the frame, or of the message in it. -/
theorem reads_inside (mcb : Link) (bytes : List UInt8) :
    readData mcb bytes = some (parseData mcb bytes) ∧
      ∀ received ∈ parseData mcb bytes, ∃ action, processMxMessage received.2.2 = some action :=
  ⟨readData_eq_parseData mcb bytes,
    fun received _ => isSome_iff_exists.mp (processMxMessage_isSome received.2.2)⟩

end BluetoothFormal.Rfcomm.Frames
