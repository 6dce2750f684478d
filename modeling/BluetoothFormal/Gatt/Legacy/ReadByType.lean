import BluetoothFormal.Gatt.Legacy.AttributeAccess

/-!
# Read By Type in the legacy GATT server

The loop over the services looks at the range of handles, but the loop over the attributes
of a service only at its first handle.  So the response may list attributes behind the
last handle of the range, in the service that holds this handle.
-/

namespace BluetoothFormal.Gatt.Legacy

open L2cap List

/-! ## The request -/

/-- How the loop over a service ends: with a status, or with a question to the application. -/
inductive TypeOutcome where
  | done (status : GattStatus)
  | askApp (attr : Attr)

/-- What `gatts_db_read_attr_value_by_type` returns and stores. -/
structure TypeLoop where
  outcome : TypeOutcome
  msg : Msg
  len : Nat
  curHandle : Nat

/-- The loop of `gatts_db_read_attr_value_by_type`. -/
def readByTypeLoop (sec : SecInfo) (type : Uuid) (sHandle : Nat) :
    List Attr → GattStatus → Msg → Nat → Option TypeLoop
  | [], status, msg, len => some ⟨.done status, msg, len, 0⟩
  | attr :: rest, status, msg, len =>
    if attr.handle ≥ sHandle ∧ type = attr.uuid then
      if len ≤ 2 then some ⟨.done .noResources, msg, len, 0⟩
      else
        (msg.write (uint16ToStream attr.handle)).bind fun _ =>
          (readAttrValue ⟨attr, rest.head?⟩ false (len - 2) sec).bind fun
            | (.pending, _) => some ⟨.askApp attr, msg, len, 0⟩
            | (.success, value) =>
              if msg.offset = 0 ∨ msg.offset = value.length + 2 then
                (Msg.write { msg with offset := value.length + 2 }
                  (uint16ToStream attr.handle ++ value)).bind fun msg =>
                    readByTypeLoop sec type sHandle rest .success msg (len - (value.length + 2))
              else some ⟨.done .noResources, msg, len, 0⟩
            | (status, _) => some ⟨.done status, msg, len, attr.handle⟩
    else readByTypeLoop sec type sHandle rest status msg len

/-- Where the loop over the services ends. -/
inductive TypeAnswer where
  | finished (reason : GattStatus) (sHdl : Nat) (msg : Msg)
  | askApp (attr : Attr)

/-- What `gatts_process_read_by_type_req` does behind a service, with the later services. -/
def afterService (later : GattStatus → Msg → Nat → Option TypeAnswer) (reason : GattStatus)
    (loop : TypeLoop) : Option TypeAnswer :=
  match loop.outcome with
  | .askApp attr => some (.askApp attr)
  | .done .notFound => later reason loop.msg loop.len
  | .done .success => later .success loop.msg loop.len
  | .done .noResources => some (.finished .success loop.curHandle loop.msg)
  | .done ret => some (.finished ret loop.curHandle loop.msg)

/-- The loop of `gatts_process_read_by_type_req`. -/
def readByTypeServices (sec : SecInfo) (type : Uuid) (sHdl eHdl : Nat) :
    List SrvListElem → GattStatus → Msg → Nat → Option TypeAnswer
  | [], reason, msg, _ => some (.finished reason sHdl msg)
  | el :: rest, reason, msg, len =>
    if el.sHdl ≤ eHdl ∧ el.eHdl ≥ sHdl then
      (readByTypeLoop sec type sHdl el.db.attrList .notFound msg len).bind
        (afterService (readByTypeServices sec type sHdl eHdl rest) reason)
    else readByTypeServices sec type sHdl eHdl rest reason msg len

/-- The answer to a request: a PDU, or a question to the application. -/
inductive ReadAnswer where
  | send (pdu : List UInt8)
  | askApp (attr : Attr)
  deriving DecidableEq

/-- `gatts_process_read_by_type_req`, up to the question to the application. -/
def gattsProcessReadByTypeReq (info : SrvListInfo) (payloadSize : UInt16) (sec : SecInfo)
    (data : List UInt8) : Option ReadAnswer :=
  match gattsValidatePacketFormat reqReadByType data with
  | (.success, type, sHdl, eHdl, _) =>
    ((Msg.alloc (headroom + payloadSize.toNat)).write [reqReadByType + 1, 0]).bind fun msg =>
      (readByTypeServices sec type sHdl eHdl info.services .notFound msg
        (payloadSize.toNat - 2)).map fun
        | .askApp attr => .askApp attr
        | .finished .success _ msg => .send msg.finish
        | .finished reason sHdl _ => .send (errorRsp reason reqReadByType sHdl)
  | (reason, _, sHdl, _, _) => some (.send (errorRsp reason reqReadByType sHdl))

/-! ## The attributes in question -/

namespace Entry

/-- The security of the link lets the attribute be read. -/
def Readable (sec : SecInfo) (entry : Entry) : Prop :=
  gattsCheckAttrReadability entry.attr false sec = .success
  deriving Decidable

section

variable (entry : Entry)

/-- The value that the stack answers by itself. -/
def value : List UInt8 := (findValue entry).join.getD []

/-- The length of the pair of a handle and a value. -/
def width : Nat := entry.value.length + 2

def pair : List UInt8 := uint16ToStream entry.attr.handle ++ entry.value

theorem length_pair : entry.pair.length = entry.width := by
  rw [pair, length_append, length_uint16ToStream, width, add_comm]

/-- The stack answers by itself. -/
def Internal : Prop := findValue entry = some (some entry.value)

end

end Entry

def matching (type : Uuid) (sHandle : Nat) (attrs : List Attr) : List Entry :=
  (entries attrs).filter fun entry => sHandle ≤ entry.attr.handle ∧ type = entry.attr.uuid

/-- The attributes that the loops look at, in their order. -/
def typeMatches (type : Uuid) (sHdl eHdl : Nat) (services : List SrvListElem) : List Entry :=
  (services.filter fun el => el.sHdl ≤ eHdl ∧ el.eHdl ≥ sHdl).flatMap
    fun el => matching type sHdl el.db.attrList

/--
Pairs of one width are listed while there is room, up to an attribute that may not be
read, which turns the response into an error.
-/
def serve (sec : SecInfo) (width : Nat) : Nat → List Entry → Except (GattStatus × Nat) (List Entry)
  | _, [] => .ok []
  | room, entry :: rest =>
    if room ≤ 2 then .ok []
    else if ¬entry.Readable sec then
      .error (gattsCheckAttrReadability entry.attr false sec, entry.attr.handle)
    else if entry.width ≠ width ∨ room < width then .ok []
    else (serve sec width (room - width) rest).map (entry :: ·)

/-! ## The loops -/

/-- How the loops end from a state on, if some attributes are left. -/
def Ends (sec : SecInfo) (width : Nat) (left : List Entry) (reason : GattStatus) (msg : Msg)
    (len : Nat) (answer : Option TypeAnswer) : Prop :=
  match serve sec width len left with
  | .error (status, handle) => ∃ msg, answer = some (.finished status handle msg)
  | .ok listed => ∃ handle, answer = some (.finished (if left = [] then reason else .success) handle
      { msg with
        offset := if listed = [] then msg.offset else width
        data := msg.data ++ listed.flatMap Entry.pair })

/-- The width is that of the pairs so far, or of the first one. -/
def WidthSet (width : Nat) (left : List Entry) (msg : Msg) : Prop :=
  msg.offset = width ∨ msg.offset = 0 ∧ ∀ entry, left.head? = some entry → entry.width = width

variable {sec : SecInfo} {entry first : Entry} {width room eHdl sHdl : Nat}
  {rest behind listed : List Entry} {type : Uuid} {info : SrvListInfo}

theorem readAttrValue_internal (internal : entry.Internal) (readable : entry.Readable sec)
    (mtu : Nat) :
    readAttrValue entry false mtu sec =
      some (if mtu < entry.value.length then (.noResources, []) else (.success, entry.value)) := by
  rw [readAttrValue, show gattsCheckAttrReadability entry.attr false sec = .success from readable]
  rw [internal]
  rfl

theorem serve_stopped (readable : entry.Readable sec)
    (stops : room ≤ 2 ∨ entry.width ≠ width ∨ room < width) :
    serve sec width room (entry :: rest) = .ok [] := by
  rw [serve]
  by_cases none : room ≤ 2
  · rw [if_pos none]
  · rw [if_neg none, if_neg (not_not.mpr readable), if_pos (stops.resolve_left none)]

theorem serve_cons (readable : entry.Readable sec) (same : entry.width = width)
    (fits : width ≤ room) (wide : 2 < width) :
    serve sec width room (entry :: rest) =
      (serve sec width (room - width) rest).map (entry :: ·) := by
  rw [serve, if_neg (by omega), if_neg (not_not.mpr readable), if_neg]
  rintro (other | short)
  · exact other same
  · omega

variable {handle len : Nat} {msg : Msg} {status : GattStatus} {left front : List Entry}
  {services : List SrvListElem}

namespace Ends

theorem stopped {reason : GattStatus} (stops : serve sec width len (entry :: rest) = .ok []) :
    Ends sec width (entry :: rest) reason msg len (some (.finished .success handle msg)) := by
  rw [Ends, stops]
  refine ⟨handle, ?_⟩
  rw [if_neg (cons_ne_nil _ _), if_pos rfl, flatMap_nil, append_nil]

theorem cons {sec : SecInfo} {width len : Nat} {entry : Entry} {rest : List Entry}
    {reason : GattStatus} {msg : Msg} {answer : Option TypeAnswer}
    (readable : entry.Readable sec) (same : entry.width = width) (fits : width ≤ len)
    (wide : 2 < width)
    (ends : Ends sec width rest .success { msg with
      offset := width
      data := msg.data ++ entry.pair } (len - width) answer) :
    Ends sec width (entry :: rest) reason msg len answer := by
  rw [Ends] at ends ⊢
  rw [serve_cons readable same fits wide]
  cases served : serve sec width (len - width) rest with
  | error refusal =>
    rw [served] at ends
    exact ends
  | ok listed =>
    rw [served] at ends
    obtain ⟨handle, rfl⟩ := ends
    refine ⟨handle, ?_⟩
    rw [if_neg (cons_ne_nil _ _), if_neg (cons_ne_nil _ _), ite_self, ite_self,
      flatMap_cons, append_assoc]

end Ends

theorem readAttrValue_refused (refused : ¬entry.Readable sec) (mtu : Nat) :
    (gattsCheckAttrReadability entry.attr false sec).IsRefusal ∧ readAttrValue entry false mtu sec =
        some (gattsCheckAttrReadability entry.attr false sec, []) := by
  have refusal := (gattsCheckAttrReadability_cases entry.attr false sec).resolve_left refused
  refine ⟨refusal, ?_⟩
  rw [readAttrValue]
  rcases refusal with same | same | same | same | same <;> rw [same]

theorem matching_cons (type : Uuid) (sHandle : Nat) (attr : Attr) (rest : List Attr) :
    matching type sHandle (attr :: rest) = if attr.handle ≥ sHandle ∧ type = attr.uuid then
        ⟨attr, rest.head?⟩ :: matching type sHandle rest
      else matching type sHandle rest := by
  rw [matching, entries, filter_cons]
  simp only [decide_eq_true_eq]
  rfl

/--
The loop over the attributes of a service, with what comes behind the service.
-/
theorem readByTypeLoop_ends (wide : 2 < width) {sHandle : Nat}
    {later : GattStatus → Msg → Nat → Option TypeAnswer}
    (goesOn : ∀ reason msg len, WidthSet width behind msg → msg.HasRoom len →
      Ends sec width behind reason msg len (later reason msg len)) {attrs : List Attr}
    (internal : ∀ entry ∈ matching type sHandle attrs, entry.Internal)
    (open_ : status = .notFound ∨ status = .success) (reason : GattStatus)
    (set : WidthSet width (matching type sHandle attrs ++ behind) msg) (hasRoom : msg.HasRoom len) :
    Ends sec width (matching type sHandle attrs ++ behind)
      (if status = .notFound then reason else .success) msg len
      ((readByTypeLoop sec type sHandle attrs status msg len).bind (afterService later reason)) := by
  induction attrs generalizing status msg len with
  | nil =>
    rw [readByTypeLoop, Option.bind_some]
    rcases open_ with rfl | rfl
    · exact goesOn reason msg len set hasRoom
    · exact goesOn .success msg len set hasRoom
  | cons attr rest ih =>
    rw [matching_cons] at internal set ⊢
    rw [readByTypeLoop]
    by_cases wanted : attr.handle ≥ sHandle ∧ type = attr.uuid
    · rw [if_pos wanted] at internal set ⊢
      rw [if_pos wanted, cons_append]
      obtain ⟨own, others⟩ := forall_mem_cons.mp internal
      by_cases short : len ≤ 2
      · rw [if_pos short, Option.bind_some]
        refine Ends.stopped ?_
        rw [serve, if_pos short]
      · obtain ⟨written, -⟩ := @Msg.HasRoom.write _ _ hasRoom (uint16ToStream attr.handle)
          (by rw [length_uint16ToStream]; omega)
        rw [if_neg short, written, Option.bind_some]
        by_cases readable : Entry.Readable sec ⟨attr, rest.head?⟩
        · rw [readAttrValue_internal own readable, Option.bind_some]
          by_cases narrow : len - 2 < (Entry.value ⟨attr, rest.head?⟩).length
          · rw [if_pos narrow]
            refine Ends.stopped (serve_stopped readable (.inr ?_))
            by_contra fits
            rw [not_or, not_not, Entry.width] at fits
            omega
          · rw [if_neg narrow]
            dsimp only
            by_cases format : msg.offset = 0 ∨
                msg.offset = (Entry.value ⟨attr, rest.head?⟩).length + 2
            · have same : Entry.width ⟨attr, rest.head?⟩ = width := by
                rcases set with given | ⟨-, first⟩
                · rcases format with unset | again
                  · omega
                  · exact again.symm.trans given
                · exact first _ rfl
              have fits : (Entry.pair ⟨attr, rest.head?⟩).length ≤ len := by
                rw [Entry.length_pair, Entry.width]
                omega
              obtain ⟨added, left⟩ := @Msg.HasRoom.write
                { msg with offset := (Entry.value ⟨attr, rest.head?⟩).length + 2 } len hasRoom
                (Entry.pair ⟨attr, rest.head?⟩) fits
              rw [Entry.length_pair, same] at left fits
              have ends := ih others (.inr rfl) (.inl same) left
              refine Ends.cons readable same fits wide ?_
              rw [if_pos format]
              change Ends sec width _ _ _ _
                ((((Msg.write _ (Entry.pair ⟨attr, rest.head?⟩)).bind _)).bind _)
              rw [added, Option.bind_some]
              subst same
              exact ends
            · rw [if_neg format, Option.bind_some]
              refine Ends.stopped (serve_stopped readable (.inr (.inl fun same => format ?_)))
              rcases set with given | ⟨unset, -⟩
              · exact .inr (given.trans same.symm)
              · exact .inl unset
        · obtain ⟨refusal, read⟩ := readAttrValue_refused readable (len - 2)
          rw [read, Option.bind_some, Ends, serve, if_neg short, if_pos readable]
          refine ⟨msg, ?_⟩
          generalize gattsCheckAttrReadability attr false sec = refusedWith at refusal
          rcases refusal with rfl | rfl | rfl | rfl | rfl <;> rfl
    · rw [if_neg wanted] at internal set ⊢
      rw [if_neg wanted]
      exact ih internal open_ set hasRoom

theorem typeMatches_cons (type : Uuid) (sHdl eHdl : Nat) (el : SrvListElem)
    (rest : List SrvListElem) :
    typeMatches type sHdl eHdl (el :: rest) = if el.sHdl ≤ eHdl ∧ el.eHdl ≥ sHdl then
        matching type sHdl el.db.attrList ++ typeMatches type sHdl eHdl rest
      else typeMatches type sHdl eHdl rest := by
  rw [typeMatches, filter_cons]
  simp only [decide_eq_true_eq]
  split
  · rw [flatMap_cons]
    rfl
  · rfl

theorem readByTypeServices_ends {sec : SecInfo} {width : Nat} (wide : 2 < width) {type : Uuid}
    {sHdl eHdl : Nat} {services : List SrvListElem}
    (internal : ∀ entry ∈ typeMatches type sHdl eHdl services, entry.Internal)
    (reason : GattStatus) {msg : Msg} {len : Nat}
    (set : WidthSet width (typeMatches type sHdl eHdl services) msg) (hasRoom : msg.HasRoom len) :
    Ends sec width (typeMatches type sHdl eHdl services) reason msg len
      (readByTypeServices sec type sHdl eHdl services reason msg len) := by
  induction services generalizing reason msg len with
  | nil =>
    refine ⟨sHdl, ?_⟩
    rw [readByTypeServices, if_pos rfl, flatMap_nil, append_nil]
    rfl
  | cons el rest ih =>
    rw [typeMatches_cons] at internal set ⊢
    rw [readByTypeServices]
    by_cases overlaps : el.sHdl ≤ eHdl ∧ el.eHdl ≥ sHdl
    · rw [if_pos overlaps] at internal set ⊢
      rw [if_pos overlaps]
      exact readByTypeLoop_ends wide (fun reason msg len => @ih
          (fun entry listed => internal entry (mem_append_right _ listed)) reason msg len)
        (fun entry listed => internal entry (mem_append_left _ listed)) (.inl rfl) reason set
        hasRoom
    · rw [if_neg overlaps] at internal set ⊢
      rw [if_neg overlaps]
      exact ih internal reason set hasRoom

/-! ## What is listed -/

/-- A list of pairs that a response has room for: all may be read, and they have one width. -/
structure Served (sec : SecInfo) (room : Nat) (listed : List Entry) : Prop where
  readable : ∀ entry ∈ listed, entry.Readable sec
  even : ∀ first ∈ listed, ∀ second ∈ listed, first.width = second.width
  fits : (listed.map Entry.width).sum ≤ room

/-- The same for pairs of a given width. -/
structure ServedAt (sec : SecInfo) (width room : Nat) (listed : List Entry) : Prop where
  readable : ∀ entry ∈ listed, entry.Readable sec
  even : ∀ entry ∈ listed, entry.width = width
  fits : listed.length * width ≤ room

theorem sum_width (even : ∀ entry ∈ listed, entry.width = width) :
    (listed.map Entry.width).sum = listed.length * width := by
  induction listed with
  | nil => rw [map_nil, sum_nil, length_nil, zero_mul]
  | cons entry rest ih =>
    obtain ⟨own, others⟩ := forall_mem_cons.mp even
    rw [map_cons, sum_cons, ih others, own, length_cons, Nat.succ_mul, add_comm]

namespace ServedAt

theorem nil : ServedAt sec width room [] :=
  ⟨fun _ listed => absurd listed (not_mem_nil), fun _ listed => absurd listed (not_mem_nil),
    by rw [length_nil, Nat.zero_mul]; exact Nat.zero_le _⟩

theorem cons_iff :
    ServedAt sec width room (entry :: rest) ↔
      entry.Readable sec ∧ entry.width = width ∧ width ≤ room ∧
        ServedAt sec width (room - width) rest := by
  constructor
  · rintro ⟨readable, even, fits⟩
    rw [length_cons, Nat.succ_mul] at fits
    obtain ⟨ownRead, othersRead⟩ := forall_mem_cons.mp readable
    obtain ⟨ownWidth, othersWidth⟩ := forall_mem_cons.mp even
    exact ⟨ownRead, ownWidth, by omega, othersRead, othersWidth, by omega⟩
  · rintro ⟨ownRead, ownWidth, room, othersRead, othersWidth, fits⟩
    refine ⟨forall_mem_cons.mpr ⟨ownRead, othersRead⟩,
      forall_mem_cons.mpr ⟨ownWidth, othersWidth⟩, ?_⟩
    rw [length_cons, Nat.succ_mul]
    omega

end ServedAt

/-- A response goes on with an attribute, stops before it, or is refused because of it. -/
theorem serve_cases (sec : SecInfo) (wide : 2 < width) (room : Nat) (entry : Entry)
    (rest : List Entry) :
    (entry.Readable sec ∧ entry.width = width ∧ width ≤ room ∧
        serve sec width room (entry :: rest) =
          (serve sec width (room - width) rest).map (entry :: ·)) ∨
      (¬(entry.Readable sec ∧ entry.width = width ∧ width ≤ room) ∧
        (entry.Readable sec ∨ room ≤ 2) ∧ serve sec width room (entry :: rest) = .ok []) ∨
      (¬entry.Readable sec ∧ 2 < room ∧ serve sec width room (entry :: rest) =
        .error (gattsCheckAttrReadability entry.attr false sec, entry.attr.handle)) := by
  by_cases readable : entry.Readable sec
  · by_cases goesOn : entry.width = width ∧ width ≤ room
    · exact .inl ⟨readable, goesOn.1, goesOn.2, serve_cons readable goesOn.1 goesOn.2 wide⟩
    · have stops : entry.width ≠ width ∨ room < width := by
        by_contra both
        rw [not_or, not_not, not_lt] at both
        exact goesOn both
      exact .inr (.inl ⟨fun all => goesOn all.2, .inl readable,
        serve_stopped readable (.inr stops)⟩)
  · by_cases short : room ≤ 2
    · refine .inr (.inl ⟨fun all => readable all.1, .inr short, ?_⟩)
      rw [serve, if_pos short]
    · refine .inr (.inr ⟨readable, Nat.not_le.mp short, ?_⟩)
      rw [serve, if_neg short, if_pos readable]

theorem serve_refusal (wide : 2 < width)
    (served : serve sec width room left = .error (status, handle)) : status.IsRefusal := by
  induction left generalizing room with
  | nil => cases served
  | cons entry rest ih =>
    rcases serve_cases sec wide room entry rest with ⟨-, -, -, step⟩ | ⟨-, -, step⟩ |
      ⟨readable, -, step⟩
    · rw [step] at served
      cases more : serve sec width (room - width) rest with
      | error refusal =>
        rw [more] at served
        cases served
        exact ih more
      | ok listed =>
        rw [more] at served
        cases served
    · rw [step] at served
      cases served
    · rw [step] at served
      cases served
      exact (gattsCheckAttrReadability_cases entry.attr false sec).resolve_left readable

theorem serve_ok (wide : 2 < width) (served : serve sec width room left = .ok listed) :
    listed <+: left ∧ ServedAt sec width room listed ∧
      ∀ front, front <+: left → ServedAt sec width room front → front <+: listed := by
  induction left generalizing room listed with
  | nil =>
    cases served
    exact ⟨prefix_refl _, .nil, fun front begins _ => begins⟩
  | cons entry rest ih =>
    rcases serve_cases sec wide room entry rest with ⟨readable, same, fits, step⟩ |
      ⟨stops, -, step⟩ | ⟨-, -, step⟩
    · rw [step] at served
      cases more : serve sec width (room - width) rest with
      | error refusal =>
        rw [more] at served
        cases served
      | ok others =>
        rw [more] at served
        cases served
        obtain ⟨begins, servedOthers, largest⟩ := ih more
        refine ⟨(prefix_cons_inj entry).mpr begins,
          ServedAt.cons_iff.mpr ⟨readable, same, fits, servedOthers⟩, ?_⟩
        intro front inFront servedFront
        cases front with
        | nil => exact nil_prefix
        | cons first behind =>
          obtain ⟨rfl, further⟩ := cons_prefix_cons.mp inFront
          exact (prefix_cons_inj _).mpr
            (largest behind further (ServedAt.cons_iff.mp servedFront).2.2.2)
    · rw [step] at served
      cases served
      refine ⟨ nil_prefix, .nil, fun front inFront servedFront => ?_⟩
      cases front with
      | nil => exact nil_prefix
      | cons first behind =>
        obtain ⟨rfl, -⟩ := cons_prefix_cons.mp inFront
        obtain ⟨readable, same, fits, -⟩ := ServedAt.cons_iff.mp servedFront
        exact absurd ⟨readable, same, fits⟩ stops
    · rw [step] at served
      cases served

/-- An attribute that is come to and may not be read. -/
def Refused (sec : SecInfo) (width room : Nat) (left : List Entry) : Prop :=
  ∃ front refused rest, left = front ++ refused :: rest ∧ ServedAt sec width room front ∧
    ¬refused.Readable sec ∧ front.length * width + 2 < room

theorem refused_cons (readable : entry.Readable sec) (same : entry.width = width)
    (fits : width ≤ room) :
    Refused sec width room (entry :: rest) ↔ Refused sec width (room - width) rest := by
  constructor
  · rintro ⟨front, refused, others, split, served, unreadable, more⟩
    cases front with
    | nil =>
      obtain ⟨rfl, -⟩ := List.cons.inj split
      exact absurd readable unreadable
    | cons first front =>
      obtain ⟨rfl, rfl⟩ := List.cons.inj split
      rw [length_cons, Nat.succ_mul] at more
      exact ⟨front, refused, others, rfl, (ServedAt.cons_iff.mp served).2.2.2, unreadable, by omega⟩
  · rintro ⟨front, refused, others, rfl, served, unreadable, more⟩
    refine ⟨entry :: front, refused, others, rfl,
      ServedAt.cons_iff.mpr ⟨readable, same, fits, served⟩, unreadable, ?_⟩
    rw [length_cons, Nat.succ_mul]
    omega

/-- The response is an error if and only if an attribute that it comes to may not be read. -/
theorem serve_error_iff (wide : 2 < width) :
    (∃ refusal, serve sec width room left = .error refusal) ↔ Refused sec width room left := by
  induction left generalizing room with
  | nil =>
    constructor
    · rintro ⟨refusal, served⟩
      cases served
    · rintro ⟨front, refused, rest, split, -⟩
      cases front <;> cases split
  | cons entry rest ih =>
    rcases serve_cases sec wide room entry rest with ⟨readable, same, fits, step⟩ |
      ⟨stops, open_, step⟩ | ⟨readable, more, step⟩
    · rw [refused_cons readable same fits, ← ih, step]
      cases serve sec width (room - width) rest with
      | error refusal => exact ⟨fun _ => ⟨refusal, rfl⟩, fun _ => ⟨refusal, rfl⟩⟩
      | ok listed =>
        constructor
        all_goals
          rintro ⟨_, served⟩
          cases served
    · rw [step]
      constructor
      · rintro ⟨refusal, served⟩
        cases served
      · rintro ⟨front, refused, others, split, served, unreadable, more⟩
        cases front with
        | nil =>
          obtain ⟨rfl, -⟩ := List.cons.inj split
          rcases open_ with readable | short
          · exact absurd readable unreadable
          · omega
        | cons first front =>
          obtain ⟨rfl, -⟩ := List.cons.inj split
          obtain ⟨readable, same, fits, -⟩ := ServedAt.cons_iff.mp served
          exact absurd ⟨readable, same, fits⟩ stops
    · refine ⟨fun _ => ⟨[], entry, rest, rfl, .nil, readable, ?_⟩, fun _ => ⟨_, step⟩⟩
      rw [length_nil, zero_mul]
      omega

namespace ServedAt

theorem isPrefix (served : ServedAt sec width room listed) (begins : front <+: listed) :
    ServedAt sec width room front := by
  refine ⟨fun entry member => served.readable entry (begins.subset member),
    fun entry member => served.even entry (begins.subset member), ?_⟩
  exact le_trans (Nat.mul_le_mul_right _ begins.length_le) served.fits

end ServedAt

theorem served_iff (begins : front <+: first :: behind) :
    Served sec room front ↔ ServedAt sec first.width room front := by
  have even : (∀ one ∈ front, ∀ other ∈ front, one.width = other.width) ↔
      ∀ entry ∈ front, entry.width = first.width := by
    cases front with
    | nil => exact ⟨fun _ _ listed => absurd listed (not_mem_nil),
        fun _ _ listed => absurd listed (not_mem_nil)⟩
    | cons head rest =>
      obtain ⟨rfl, -⟩ := cons_prefix_cons.mp begins
      exact ⟨fun same entry listed => same entry listed head (mem_cons_self ..),
        fun same one listed other also => (same one listed).trans (same other also).symm⟩
  constructor
  · rintro ⟨readable, same, fits⟩
    rw [sum_width (even.mp same)] at fits
    exact ⟨readable, even.mp same, fits⟩
  · rintro ⟨readable, same, fits⟩
    rw [← sum_width same] at fits
    exact ⟨readable, even.mpr same, fits⟩

/-! ## The property -/

/-- All attributes with those behind them. -/
def SrvListInfo.entries (info : SrvListInfo) : List Entry :=
  info.services.flatMap fun el => Legacy.entries el.db.attrList

/-- A response that lists attributes of a type in a range of handles. -/
def ListsType (info : SrvListInfo) (sec : SecInfo) (payloadSize : UInt16) (type : Uuid)
    (sHdl eHdl : Nat) (pdu : List UInt8) : Prop :=
  ∃ (width : Nat) (first : Entry) (rest : List Entry), width < 256 ∧
    pdu = (reqReadByType + 1) :: UInt8.ofNat width :: (first :: rest).flatMap Entry.pair ∧
    (∀ entry ∈ first :: rest, entry ∈ info.entries ∧ sHdl ≤ entry.attr.handle ∧
      entry.attr.handle ≤ eHdl ∧ entry.attr.uuid = type ∧ entry.pair.length = width) ∧
    (first :: rest).Pairwise (fun one other => one.attr.handle < other.attr.handle) ∧
    (info.entries.filter fun entry => sHdl ≤ entry.attr.handle ∧ entry.attr.handle ≤ eHdl ∧
      entry.attr.uuid = type ∧ entry.Readable sec).head? = some first ∧
    pdu.length ≤ payloadSize.toNat

/--
A response is an error, or it has no room for the first attribute behind the range.  The
attributes are those from the first handle on of the services that the range meets.
-/
def Contained (sec : SecInfo) (room eHdl : Nat) (found : List Entry) : Prop :=
  (∃ front refused rest, found = front ++ refused :: rest ∧ Served sec room front ∧
      ¬refused.Readable sec ∧ (front.map Entry.width).sum + 2 < room) ∨
    ∀ front entry rest, found = front ++ entry :: rest → Served sec room (front ++ [entry]) →
      entry.attr.handle ≤ eHdl

theorem contained_iff (wide : 2 < first.width) :
    Contained sec room eHdl (first :: behind) ↔
      ∀ listed, serve sec first.width room (first :: behind) = .ok listed →
        ∀ entry ∈ listed, entry.attr.handle ≤ eHdl := by
  have refused : (∃ front refused rest, first :: behind = front ++ refused :: rest ∧
      Served sec room front ∧ ¬refused.Readable sec ∧ (front.map Entry.width).sum + 2 < room) ↔
        Refused sec first.width room (first :: behind) := by
    refine exists₃_congr fun front other rest => and_congr_right fun split => ?_
    rw [served_iff ⟨_, split.symm⟩]
    refine and_congr_right fun served => ?_
    rw [sum_width served.even]
  rw [Contained, refused, ← serve_error_iff wide]
  cases result : serve sec first.width room (first :: behind) with
  | error refusal =>
    refine ⟨fun _ listed same => ?_, fun _ => .inl ⟨refusal, rfl⟩⟩
    cases same
  | ok listed =>
    obtain ⟨begins, served, largest⟩ := serve_ok wide result
    constructor
    · rintro (⟨_, failed⟩ | all) other same entry member
      · cases failed
      · cases same
        obtain ⟨front, rest, rfl⟩ := mem_iff_append.mp member
        obtain ⟨more, split⟩ := begins
        have inFront : front ++ [entry] <+: front ++ entry :: rest := ⟨rest, by simp⟩
        refine all front entry (rest ++ more) (by rw [← split]; simp) ?_
        exact (served_iff (inFront.trans ⟨more, split⟩)).mpr (served.isPrefix inFront)
    · intro all
      refine .inr fun front entry rest split servedFront => ?_
      have inFront : front ++ [entry] <+: first :: behind := ⟨rest, by rw [split]; simp⟩
      have inside := largest _ inFront ((served_iff inFront).mp servedFront)
      exact all listed rfl entry (inside.subset (mem_append_right _ (mem_singleton_self _)))

/-! ## The attributes of a response -/

theorem mem_typeMatches (listed : entry ∈ typeMatches type sHdl eHdl services) :
    ∃ el ∈ services, entry ∈ entries el.db.attrList ∧ sHdl ≤ entry.attr.handle ∧
      type = entry.attr.uuid := by
  obtain ⟨el, chosen, member⟩ := mem_flatMap.mp listed
  obtain ⟨inEntries, wanted⟩ := mem_filter.mp member
  exact ⟨el, (mem_filter.mp chosen).1, inEntries, of_decide_eq_true wanted⟩

theorem entries_map_attr (attrs : List Attr) : (entries attrs).map Entry.attr = attrs := by
  induction attrs with
  | nil => rfl
  | cons attr rest ih => rw [entries, map_cons, ih]

theorem typeMatches_ascending
    (ascending : services.Pairwise fun first second => first.eHdl < second.sHdl) (type : Uuid)
    (sHdl eHdl : Nat) :
    (typeMatches type sHdl eHdl services).Pairwise
      fun one other => one.attr.handle < other.attr.handle := by
  rw [typeMatches, pairwise_flatMap]
  refine ⟨fun el _ => ?_, (ascending.sublist filter_sublist).imp ?_⟩
  · have ordered := el.ascending
    rw [← entries_map_attr el.db.attrList, pairwise_map] at ordered
    exact ordered.sublist filter_sublist
  · intro first second before one listed other also
    have upper := (SrvListElem.mem_attrList (attr_mem_of_entry (mem_filter.mp listed).1)).2
    have lower := (SrvListElem.mem_attrList (attr_mem_of_entry (mem_filter.mp also).1)).1
    omega

theorem filter_entries (info : SrvListInfo) (sec : SecInfo) (type : Uuid) (sHdl eHdl : Nat) :
    (info.entries.filter fun entry => sHdl ≤ entry.attr.handle ∧ entry.attr.handle ≤ eHdl ∧
        entry.attr.uuid = type ∧ entry.Readable sec) =
      (typeMatches type sHdl eHdl info.services).filter
        fun entry => entry.attr.handle ≤ eHdl ∧ entry.Readable sec := by
  rw [SrvListInfo.entries, typeMatches]
  induction info.services with
  | nil => rfl
  | cons el rest ih =>
    rw [flatMap_cons, filter_append, ih]
    by_cases overlaps : el.sHdl ≤ eHdl ∧ el.eHdl ≥ sHdl
    · rw [filter_cons_of_pos (by rw [decide_eq_true_iff]; exact overlaps),
        flatMap_cons, filter_append, matching, filter_filter]
      congr 1
      refine filter_congr fun entry _ => ?_
      rw [← Bool.decide_and, decide_eq_decide]
      constructor
      · rintro ⟨low, high, same, readable⟩
        exact ⟨⟨high, readable⟩, low, same.symm⟩
      · rintro ⟨⟨high, readable⟩, low, same⟩
        exact ⟨low, high, same.symm, readable⟩
    · rw [filter_cons_of_neg (by rw [decide_eq_true_iff]; exact overlaps)]
      refine (congrArg (· ++ _) (filter_eq_nil_iff.mpr fun entry listed => ?_)).trans (nil_append _)
      have range := SrvListElem.mem_attrList (attr_mem_of_entry listed)
      rw [decide_eq_true_iff]
      rintro ⟨low, high, -⟩
      exact overlaps ⟨by omega, by omega⟩

theorem pairs_injective (positive : 0 < width) {one other : List Entry}
    (evenOne : ∀ entry ∈ one, entry.pair.length = width)
    (evenOther : ∀ entry ∈ other, entry.pair.length = width)
    (same : one.flatMap Entry.pair = other.flatMap Entry.pair) :
    one.map Entry.pair = other.map Entry.pair := by
  rw [flatMap_def, flatMap_def] at same
  have pieces : ∀ {listed : List Entry}, (∀ entry ∈ listed, entry.pair.length = width) →
      ∀ piece ∈ listed.map Entry.pair, piece.length = width := by
    intro listed even piece member
    obtain ⟨entry, inside, rfl⟩ := mem_map.mp member
    exact even entry inside
  rw [← cut_flatten (pieces evenOne) positive le_rfl, same,
    cut_flatten (pieces evenOther) positive le_rfl]

theorem handle_of_mem_entries (listed : entry ∈ info.entries) : entry.attr.handle < 65536 := by
  obtain ⟨el, service, member⟩ := mem_flatMap.mp listed
  have range := @SrvListInfo.handle_range info _
    (mem_flatMap.mpr ⟨el, service, attr_mem_of_entry member⟩)
  omega

theorem mem_entries_of_typeMatches (listed : entry ∈ typeMatches type sHdl eHdl info.services) :
    entry ∈ info.entries := by
  obtain ⟨el, service, member, -⟩ := mem_typeMatches listed
  exact mem_flatMap.mpr ⟨el, service, member⟩

theorem handle_eq_of_pair {one other : Entry} (same : one.pair = other.pair)
    (word : one.attr.handle < 65536) (otherWord : other.attr.handle < 65536) :
    one.attr.handle = other.attr.handle := by
  have read := congrArg streamToUint16 same
  rw [Entry.pair, Entry.pair, streamToUint16_stream word, streamToUint16_stream otherWord] at read
  exact read

theorem serve_first (wide : 2 < first.width) (fits : first.width ≤ room)
    (served : serve sec first.width room (first :: behind) = .ok listed) :
    first.Readable sec ∧ ∃ others, listed = first :: others := by
  rcases serve_cases sec wide room first behind with ⟨readable, -, -, step⟩ |
    ⟨stops, open_, -⟩ | ⟨-, -, step⟩
  · refine ⟨readable, ?_⟩
    rw [step] at served
    cases more : serve sec first.width (room - first.width) behind with
    | error refusal =>
      rw [more] at served
      cases served
    | ok others =>
      rw [more] at served
      cases served
      exact ⟨others, rfl⟩
  · rcases open_ with readable | short
    · exact absurd ⟨readable, rfl, fits⟩ stops
    · omega
  · rw [step] at served
    cases served

theorem listsType_iff {payloadSize : UInt16} (large : 23 ≤ payloadSize.toNat)
    (found : typeMatches type sHdl eHdl info.services = first :: behind) (wide : 2 < first.width)
    (narrow : first.width ≤ 21)
    (served : serve sec first.width (payloadSize.toNat - 2) (first :: behind) = .ok listed) :
    ListsType info sec payloadSize type sHdl eHdl
        ((reqReadByType + 1) :: UInt8.ofNat first.width :: listed.flatMap Entry.pair) ↔
      ∀ entry ∈ listed, entry.attr.handle ≤ eHdl := by
  obtain ⟨begins, ⟨-, even, fits⟩, -⟩ := serve_ok wide served
  obtain ⟨readable, others, rfl⟩ := serve_first wide (by omega) served
  have pairLength : ∀ entry ∈ first :: others, entry.pair.length = first.width :=
    fun entry member => (Entry.length_pair entry).trans (even entry member)
  have members : ∀ entry ∈ first :: others, entry ∈ typeMatches type sHdl eHdl info.services :=
    fun entry member => found ▸ begins.subset member
  constructor
  · rintro ⟨width, head, rest, small, same, all, -⟩ entry member
    have widths : first.width = width := by
      have bytes := congrArg UInt8.toNat (List.cons.inj (List.cons.inj same).2).1
      rw [UInt8.toNat_ofNat', UInt8.toNat_ofNat'] at bytes
      omega
    have listedPairs := pairs_injective (by omega) pairLength
      (fun other inside => widths ▸ (all other inside).2.2.2.2)
      (List.cons.inj (List.cons.inj same).2).2
    have pair : entry.pair ∈ (head :: rest).map Entry.pair :=
      listedPairs ▸ mem_map_of_mem member
    obtain ⟨other, inside, samePair⟩ := mem_map.mp pair
    obtain ⟨inEntries, -, high, -⟩ := all other inside
    rw [← handle_eq_of_pair samePair (handle_of_mem_entries inEntries)
      (handle_of_mem_entries (mem_entries_of_typeMatches (members entry member)))]
    exact high
  · intro inRange
    refine ⟨first.width, first, others, by omega, rfl, ?_, ?_, ?_, ?_⟩
    · intro entry member
      obtain ⟨-, -, -, low, same⟩ := mem_typeMatches (members entry member)
      exact ⟨mem_entries_of_typeMatches (members entry member), low, inRange entry member,
        same.symm, pairLength entry member⟩
    · have ascending := typeMatches_ascending info.ascending type sHdl eHdl
      rw [found] at ascending
      exact ascending.sublist begins.sublist
    · rw [filter_entries, found, filter_cons_of_pos, List.head?_cons]
      rw [decide_eq_true_iff]
      exact ⟨inRange first (mem_cons_self ..), readable⟩
    · have lengths : (first :: others).map (fun entry => entry.pair.length) =
          (first :: others).map Entry.width :=
        map_congr_left fun entry _ => Entry.length_pair entry
      rw [length_cons, length_cons, length_flatMap, lengths, sum_width even]
      omega

theorem typeMatches_internal
    (internal : ∀ attr ∈ info.attributes, attr.uuid = type → attr.uuid ∈ internalTypes)
    (listed : entry ∈ typeMatches type sHdl eHdl info.services) :
    entry.Internal ∧ 2 < entry.width ∧ entry.width ≤ 21 := by
  obtain ⟨el, service, member, -, same⟩ := mem_typeMatches listed
  have known := internal entry.attr
    (mem_flatMap.mpr ⟨el, service, attr_mem_of_entry member⟩) same.symm
  obtain ⟨value, found, positive, narrow⟩ := internal_of_type member known
  have isValue : entry.value = value := by
    rw [Entry.value, found]
    rfl
  rw [Entry.Internal, Entry.width, isValue]
  exact ⟨found, by omega, by omega⟩

/-! ## Types of the stack -/

/--
The response to a request holds attributes of the type in the range only, in their order and
from the first one that may be read on, if and only if none behind the range is listed too.
-/
theorem readByType_lists_iff (info : SrvListInfo) (sec : SecInfo) (payloadSize : UInt16)
    (large : 23 ≤ payloadSize.toNat) {data rest : List UInt8} {type : Uuid} {sHdl eHdl : Nat}
    (valid : gattsValidatePacketFormat reqReadByType data = (.success, type, sHdl, eHdl, rest))
    (internal : ∀ attr ∈ info.attributes, attr.uuid = type → attr.uuid ∈ internalTypes) :
    (∃ pdu, gattsProcessReadByTypeReq info payloadSize sec data = some (.send pdu) ∧
        (pdu.head? = some (reqReadByType + 1) →
          ListsType info sec payloadSize type sHdl eHdl pdu)) ↔
      Contained sec (payloadSize.toNat - 2) eHdl (typeMatches type sHdl eHdl info.services) := by
  obtain ⟨written, left⟩ := Msg.write_alloc (reqReadByType + 1) (by omega : 2 ≤ payloadSize.toNat)
  have known : ∀ entry ∈ typeMatches type sHdl eHdl info.services, entry.Internal :=
    fun entry listed => (typeMatches_internal internal listed).1
  rw [gattsProcessReadByTypeReq, valid]
  dsimp only
  rw [written, Option.bind_some]
  cases found : typeMatches type sHdl eHdl info.services with
  | nil =>
    have ends := @readByTypeServices_ends sec 3 (by decide) type sHdl eHdl info.services known
      .notFound _ _ (.inr ⟨rfl, by rw [found]; rintro _ ⟨⟩⟩) left
    rw [found] at ends
    obtain ⟨handle, answered⟩ := ends
    rw [answered]
    refine ⟨fun _ => .inr ?_, fun _ => ⟨_, rfl, fun listed => ?_⟩⟩
    · intro front entry rest split
      cases front <;> cases split
    · cases Option.some.inj listed
  | cons first behind =>
    obtain ⟨-, wide, narrow⟩ := typeMatches_internal internal
      (found ▸ mem_cons_self .. : first ∈ typeMatches type sHdl eHdl info.services)
    have ends := @readByTypeServices_ends sec first.width wide type sHdl eHdl info.services known
      .notFound _ _ (.inr ⟨rfl, by rw [found]; rintro _ ⟨⟩; rfl⟩) left
    rw [found] at ends
    rw [contained_iff wide]
    rw [Ends] at ends
    cases served : serve sec first.width (payloadSize.toNat - 2) (first :: behind) with
    | error refusal =>
      obtain ⟨status, handle⟩ := refusal
      rw [served] at ends
      obtain ⟨msg, answered⟩ := ends
      rw [answered, Option.map_some]
      refine ⟨fun _ listed same => ?_, fun _ => ⟨errorRsp status reqReadByType handle, ?_,
        fun listed => ?_⟩⟩
      · cases same
      · have refusal := serve_refusal wide served
        rcases refusal with rfl | rfl | rfl | rfl | rfl <;> rfl
      · cases Option.some.inj listed
    | ok listed =>
      rw [served] at ends
      obtain ⟨handle, answered⟩ := ends
      obtain ⟨-, others, rfl⟩ := serve_first wide (by omega) served
      rw [answered, if_neg (cons_ne_nil _ _), if_neg (cons_ne_nil _ _), Option.map_some]
      constructor
      · rintro ⟨-, ⟨⟩, lists⟩ _ ⟨⟩
        exact (listsType_iff large found wide narrow served).mp (lists rfl)
      · intro inRange
        exact ⟨_, rfl, fun _ =>
          (listsType_iff large found wide narrow served).mpr (inRange _ rfl)⟩

def alertService : SrvListElem where
  sHdl := 1
  eHdl := 5
  gattIf := 1
  isPrimary := true
  db :=
    { attrList := [⟨some (.uuid (from16Bit 0x1811)), permRead, 1, priServiceUuid, .primaryService⟩,
        ⟨some (.charDecl 0x02 3), permRead, 2, charDeclareUuid, .primaryService⟩,
        ⟨none, permRead, 3, from16Bit 0x2A47, .characteristic⟩,
        ⟨some (.charDecl 0x02 5), permRead, 4, charDeclareUuid, .primaryService⟩,
        ⟨none, permRead, 5, from16Bit 0x2A48, .characteristic⟩]
      endHandle := 6
      nextHandle := 6 }
  positive := Nat.one_pos
  formed := @gattsAddService_formed (from16Bit 0x1811) true 1
    [.characteristic (from16Bit 0x2A47) 0x02 0 permRead,
      .characteristic (from16Bit 0x2A48) 0x02 0 permRead] _ (by decide)
  reach := rfl

def twoCharacteristics : SrvListInfo := ⟨[alertService], pairwise_singleton ..⟩

def openLink : SecInfo := ⟨false, false, false, false, 0⟩

/-- The declarations of characteristics in the whole range of handles. -/
theorem readByType_lists_iff_declarations :
    gattsValidatePacketFormat reqReadByType [0x01, 0x00, 0xFF, 0xFF, 0x03, 0x28] =
        (.success, charDeclareUuid, 1, 0xFFFF, []) ∧
      ∃ pdu, gattsProcessReadByTypeReq twoCharacteristics 23 openLink
          [0x01, 0x00, 0xFF, 0xFF, 0x03, 0x28] = some (.send pdu) ∧
        (pdu.head? = some (reqReadByType + 1) →
          ListsType twoCharacteristics openLink 23 charDeclareUuid 1 0xFFFF pdu) := by
  refine ⟨by decide, (@readByType_lists_iff twoCharacteristics openLink 23 (by decide) _ [] _ _ _
    (by decide) (by decide)).mpr (.inr fun front entry rest split _ => ?_)⟩
  have listed : entry ∈ typeMatches charDeclareUuid 1 0xFFFF twoCharacteristics.services :=
    split ▸ mem_append_right _ (mem_cons_self ..)
  exact Nat.le_of_lt_succ (handle_of_mem_entries (mem_entries_of_typeMatches listed))

/-- A request for the handles 1 and 2 is answered with the declaration at the handle 4 too. -/
theorem declaration_behind_range :
    gattsValidatePacketFormat reqReadByType [0x01, 0x00, 0x02, 0x00, 0x03, 0x28] =
        (.success, charDeclareUuid, 1, 2, []) ∧
      gattsProcessReadByTypeReq twoCharacteristics 23 openLink
          [0x01, 0x00, 0x02, 0x00, 0x03, 0x28] =
        some (.send [0x09, 7, 2, 0, 0x02, 3, 0, 0x47, 0x2A, 4, 0, 0x02, 5, 0, 0x48, 0x2A]) := by
  decide

end BluetoothFormal.Gatt.Legacy
