import Mathlib.Data.List.Forall2
import Mathlib.Order.Bounds.Defs
import BluetoothFormal.Gatt.AttDatabase

/-!
# Read By Group Type

A response to Read By Group Type lists service declarations with values of one size, each
with the end of its group.  A client that goes on behind the last group of each response
sees the primary services in order, up to the first one that no response can carry.
-/

namespace BluetoothFormal.Gatt

open Foundation.Gather List AttDatabase PayloadAccumulator

/-! ## Groups -/

def getGroupingLevel (uuid : Uuid) : Nat :=
  if uuid = primaryServiceDeclarationUuid ∨ uuid = secondaryServiceDeclarationUuid then 1
  else if uuid = characteristicUuid then 2
  else 3

def groupingAttributes : List Uuid :=
  [primaryServiceDeclarationUuid, secondaryServiceDeclarationUuid, characteristicUuid]

section

variable (db : AttDatabase)

def groupEnd (groupStart : AttAttribute) : AttAttribute :=
  (((db.attributes.dropWhile fun attr => attr.handle ≤ groupStart.handle).takeWhile
    fun attr => getGroupingLevel groupStart.type < getGroupingLevel attr.type).getLast?).getD
      groupStart

def findGroupEnd (groupStart : AttAttribute) : Option AttAttribute :=
  if groupStart.type ∉ groupingAttributes then none else some (groupEnd db groupStart)

/-! ## Attributes of one type and size -/

structure AttributeWithValue where
  attr : AttAttribute
  value : AttributeData

/-- `size_in_bits` of a value. -/
def AttributeData.sizeInBits (data : AttributeData) : Nat := data.bytes.length * 8

/-- The loop of `filter_read_attributes_by_size_type` over the attributes of the type. -/
def readSameSize (db : AttDatabase) (sizeLimit : Nat) :
    List AttAttribute → Option Nat → List AttributeWithValue →
      Except AttErrorCode (List AttributeWithValue)
  | [], _, out => .ok out
  | attr :: rest, currElemSize, out =>
    match db.readAttribute attr.handle with
    | .ok data =>
      let value := truncateAttData data sizeLimit
      match currElemSize with
      | some size =>
        -- no more attributes of the same size
        if size ≠ value.sizeInBits then .ok out
        else readSameSize db sizeLimit rest (some size) (out ++ [⟨attr, value⟩])
      | none =>
        readSameSize db sizeLimit rest (some value.sizeInBits) (out ++ [⟨attr, value⟩])
    | .error err => if out.isEmpty then .error err else .ok out

def filterReadAttributesBySizeType (attrs : List AttAttribute) (target : Uuid) (sizeLimit : Nat) :
    Except AttErrorCode (List AttributeWithValue) :=
  readSameSize db sizeLimit (attrs.filter fun attr => attr.type = target) none []

/-! ## The request -/

/-- `AttReadByGroupTypeDataElement`. -/
structure GroupElement where
  handle : Nat
  endGroupHandle : Nat
  value : AttributeData
  deriving DecidableEq

/-- `size_in_bits` of an element, with its two handles. -/
def GroupElement.sizeInBits (element : GroupElement) : Nat := 2 * 16 + element.value.sizeInBits

inductive ReadByGroupTypeResponse where
  | error (handleInError : Nat) (errorCode : AttErrorCode)
  | data (elements : List GroupElement)
  deriving DecidableEq

/-- The loop that fills the response; `none` is the failure of its `expect`. -/
def pushElements (db : AttDatabase) :
    List AttributeWithValue → PayloadAccumulator GroupElement →
      Option (PayloadAccumulator GroupElement)
  | [], found => some found
  | ⟨attr, value⟩ :: rest, found =>
    match findGroupEnd db attr with
    | none => none
    | some last =>
      let element : GroupElement := ⟨attr.handle, last.handle, value⟩
      match found.push element.sizeInBits element with
      | (true, found) => pushElements db rest found
      | (false, found) => some found

def handleReadByGroupTypeRequest (startingHandle endingHandle : Nat) (groupType : Uuid)
    (mtu : Nat) (db : AttDatabase) : Option ReadByGroupTypeResponse :=
  match filterToRange startingHandle endingHandle db.attributes with
  | none => some (.error startingHandle .invalidHandle)
  | some attrs =>
    if groupType ≠ primaryServiceDeclarationUuid ∧ groupType ≠ secondaryServiceDeclarationUuid then
      some (.error startingHandle .unsupportedGroupType)
    else
      match filterReadAttributesBySizeType db attrs groupType (mtu - 6) with
      | .error err => some (.error startingHandle err)
      | .ok attrs =>
        (pushElements db attrs (.new (mtu - 2))).map fun found =>
          if found.elems.isEmpty then .error startingHandle .attributeNotFound
          else .data found.elems

/--
What the bearer sends: the size of an element has one byte in the response, and an error
stands for a response that does not serialize.
-/
def sendReadByGroupTypeResponse : ReadByGroupTypeResponse → ReadByGroupTypeResponse
  | .data (element :: rest) =>
    if 0xFF < element.sizeInBits / 8 then .error 0 .unlikelyError else .data (element :: rest)
  | response => response

/-! ## The client -/

/-- The services that a response names. -/
def ReadByGroupTypeResponse.elements : ReadByGroupTypeResponse → List GroupElement
  | .error _ _ => []
  | .data elements => elements

def nextGroup (elements : List GroupElement) : Option Nat :=
  elements.getLast?.bind fun element => handleAfter element.endGroupHandle

def readServicesFrom (mtu : Nat) (_turn start : Nat) :
    Option (ReadByGroupTypeResponse × Option Nat) :=
  (handleReadByGroupTypeRequest start 0xFFFF primaryServiceDeclarationUuid mtu db).map
    fun response =>
      (sendReadByGroupTypeResponse response,
        nextGroup (sendReadByGroupTypeResponse response).elements)

/-! ## What a client is to see -/

def AttAttribute.declaresService (attr : AttAttribute) : Prop :=
  attr.type = primaryServiceDeclarationUuid ∨ attr.type = secondaryServiceDeclarationUuid

/-- The handles of the group of a service: those before the next service. -/
def AttDatabase.groupHandles (service : AttAttribute) : Set Nat :=
  { handle | ∃ attr ∈ db.attributes, attr.handle = handle ∧ service.handle ≤ handle ∧
    ∀ other ∈ db.attributes, other.declaresService →
      ¬(service.handle < other.handle ∧ other.handle ≤ handle) }

end

structure Shows (db : AttDatabase) (mtu : Nat) (service : AttAttribute)
    (element : GroupElement) : Prop where
  handle : element.handle = service.handle
  groupEnd : IsGreatest (db.groupHandles service) element.endGroupHandle
  value : ∃ data, db.readAttribute service.handle = .ok data ∧
    element.value = truncateAttData data (mtu - 6)

def AttDatabase.carries (db : AttDatabase) (mtu : Nat) (service : AttAttribute) : Bool :=
  match db.readAttribute service.handle with
  | .ok data => (truncateAttData data (mtu - 6)).bytes.length ≤ min (mtu - 6) 251
  | .error _ => false

/-- The primary services before the first one that no response can carry. -/
def AttDatabase.visibleServices (db : AttDatabase) (mtu : Nat) : List AttAttribute :=
  (db.attributes.filter fun attr =>
    attr.handle ≠ 0 ∧ attr.type = primaryServiceDeclarationUuid).takeWhile (db.carries mtu)

/-! ## The end of a group -/

variable {attr service : AttAttribute}

theorem getGroupingLevel_service (service : attr.declaresService) :
    getGroupingLevel attr.type = 1 :=
  if_pos service

theorem not_declaresService_of_level (inner : 1 < getGroupingLevel attr.type) :
    ¬attr.declaresService := by
  intro service
  rw [getGroupingLevel_service service] at inner
  exact lt_irrefl 1 inner

theorem declaresService_of_level (outer : ¬1 < getGroupingLevel attr.type) :
    attr.declaresService := by
  rw [getGroupingLevel] at outer
  split at outer
  · rename_i service
    exact service
  · split at outer <;> exact absurd (by decide) outer

variable {start : Nat} {data : AttributeData}

namespace AttDatabase

variable {db : AttDatabase}

theorem attributesFrom_handle (member : attr ∈ db.attributes) :
    db.attributesFrom attr.handle = attr :: db.attributesFrom (attr.handle + 1) := by
  have listed : attr ∈ db.attributesFrom attr.handle :=
    mem_attributesFrom.mpr ⟨member, le_rfl⟩
  obtain ⟨before, after, split⟩ := append_of_mem listed
  have first : before = [] := by
    refine eq_nil_iff_forall_not_mem.mpr fun other earlier => ?_
    have ascending := db.ascending.sublist (attributesFrom_sublist attr.handle)
    rw [split, pairwise_append] at ascending
    have smaller := ascending.2.2 other earlier attr (mem_cons_self ..)
    have larger : attr.handle ≤ other.handle := by
      refine (@mem_attributesFrom db _ _).mp ?_ |>.2
      rw [split]
      exact mem_append_left _ earlier
    omega
  rw [attributesFrom_after split, split, first, nil_append]

theorem groupEnd_split (member : service ∈ db.attributes) (declares : service.declaresService) :
    ∃ inside before, db.attributesFrom (service.handle + 1) =
        inside ++ db.attributesFrom ((groupEnd db service).handle + 1) ∧
      service :: inside = before ++ [groupEnd db service] ∧
      (∀ attr ∈ inside, ¬attr.declaresService) ∧
      ∀ attr ∈ (db.attributesFrom ((groupEnd db service).handle + 1)).head?,
        attr.declaresService := by
  let inner : AttAttribute → Bool := fun attr =>
    getGroupingLevel service.type < getGroupingLevel attr.type
  let inside := (db.attributesFrom (service.handle + 1)).takeWhile inner
  let outside := (db.attributesFrom (service.handle + 1)).dropWhile inner
  have skipped : (db.attributes.dropWhile fun attr => attr.handle ≤ service.handle) =
      db.attributesFrom (service.handle + 1) := by
    rw [attributesFrom, ← dropWhile_eq_filter db.ascending]
    congr 1
    funext attr
    rw [decide_eq_decide]
    exact Nat.lt_succ_iff.symm
  have ends : groupEnd db service = inside.getLast?.getD service := by
    rw [groupEnd, skipped]
  obtain ⟨before, last⟩ : ∃ before, service :: inside = before ++ [groupEnd db service] := by
    rw [ends]
    rcases eq_nil_or_concat' inside with empty | ⟨others, final, same⟩
    · exact ⟨[], by rw [empty]; rfl⟩
    · exact ⟨service :: others, by rw [same, List.getLast?_concat]; rfl⟩
  have whole : db.attributesFrom service.handle = before ++ groupEnd db service :: outside := by
    rw [attributesFrom_handle member, append_cons, ← last, cons_append]
    exact congrArg (service :: ·) takeWhile_append_dropWhile.symm
  have behind : db.attributesFrom ((groupEnd db service).handle + 1) = outside :=
    attributesFrom_after whole
  refine ⟨inside, before, ?_, last, ?_, ?_⟩
  · rw [behind, takeWhile_append_dropWhile]
  · intro attr listed
    have deeper := mem_takeWhile_imp listed
    rw [decide_eq_true_iff, getGroupingLevel_service declares] at deeper
    exact not_declaresService_of_level deeper
  · rw [behind]
    intro attr head
    have notInner := List.head?_dropWhile_not inner (db.attributesFrom (service.handle + 1))
    rw [Option.mem_def.mp head] at notInner
    refine declaresService_of_level fun deeper => ?_
    rw [← getGroupingLevel_service declares] at deeper
    exact absurd deeper (of_decide_eq_false notInner)

theorem groupEnd_isGreatest (member : service ∈ db.attributes)
    (declares : service.declaresService) :
    IsGreatest (db.groupHandles service) (groupEnd db service).handle := by
  obtain ⟨inside, before, behind, last, inner, outer⟩ := groupEnd_split member declares
  have group : ∀ attr, attr ∈ service :: inside → attr ∈ db.attributes ∧
      service.handle ≤ attr.handle := by
    intro attr listed
    refine mem_attributesFrom.mp ?_
    rw [attributesFrom_handle member, behind, ← cons_append]
    exact mem_append_left _ listed
  obtain ⟨ended, after⟩ := group (groupEnd db service) (by rw [last]; simp)
  refine ⟨⟨groupEnd db service, ended, rfl, after, ?_⟩, ?_⟩
  · intro other listed otherDeclares between
    have later : other ∈ db.attributesFrom (service.handle + 1) :=
      mem_attributesFrom.mpr ⟨listed, between.1⟩
    rw [behind] at later
    rcases mem_append.mp later with inGroup | outside
    · exact inner other inGroup otherDeclares
    · have := (mem_attributesFrom.mp outside).2
      omega
  · rintro handle ⟨attr, listed, rfl, -, alone⟩
    by_contra larger
    have outside : attr ∈ db.attributesFrom ((groupEnd db service).handle + 1) :=
      mem_attributesFrom.mpr ⟨listed, Nat.lt_of_not_le larger⟩
    have ascending :=
      db.ascending.sublist (attributesFrom_sublist ((groupEnd db service).handle + 1))
    cases next : db.attributesFrom ((groupEnd db service).handle + 1) with
    | nil =>
      rw [next] at outside
      cases outside
    | cons first rest =>
      have listedFirst := mem_attributesFrom.mp (next ▸ mem_cons_self .. :
        first ∈ db.attributesFrom ((groupEnd db service).handle + 1))
      have least : first.handle ≤ attr.handle := by
        rw [next] at outside ascending
        rcases mem_cons.mp outside with rfl | behindFirst
        · exact le_rfl
        · exact le_of_lt ((pairwise_cons.mp ascending).1 attr behindFirst)
      refine alone first listedFirst.1 (outer first (by rw [next]; rfl)) ⟨?_, least⟩
      omega

def servicesFrom (db : AttDatabase) (start : Nat) : List AttAttribute :=
  (db.attributesFrom start).filter fun attr => attr.type = primaryServiceDeclarationUuid

theorem mem_servicesFrom :
    attr ∈ db.servicesFrom start ↔ (attr ∈ db.attributes ∧ start ≤ attr.handle) ∧
      attr.type = primaryServiceDeclarationUuid := by
  rw [servicesFrom, mem_filter, mem_attributesFrom, decide_eq_true_iff]

theorem servicesFrom_after {before after : List AttAttribute}
    (split : db.servicesFrom start = before ++ service :: after) :
    db.servicesFrom ((groupEnd db service).handle + 1) = after := by
  have member : service ∈ db.servicesFrom start := by
    rw [split]
    exact mem_append_right _ (mem_cons_self ..)
  obtain ⟨⟨listed, -⟩, primary⟩ := mem_servicesFrom.mp member
  obtain ⟨inside, -, behind, -, inner, -⟩ := groupEnd_split listed (.inl primary)
  obtain ⟨first, second, whole, -, filtered⟩ := filter_eq_append_iff.mp split
  obtain ⟨skipped, rest, same, -, -, filteredRest⟩ := filter_eq_cons_iff.mp filtered
  have placed : db.attributesFrom start = (first ++ skipped) ++ service :: rest := by
    rw [whole, same, append_assoc]
  have later := attributesFrom_after placed
  have none : inside.filter (fun attr => attr.type = primaryServiceDeclarationUuid) = [] := by
    refine filter_eq_nil_iff.mpr fun attr inGroup other => ?_
    exact inner attr inGroup (.inl (of_decide_eq_true other))
  rw [← filteredRest, ← later, behind, filter_append, none, nil_append, servicesFrom]

end AttDatabase

/-! ## What a response lists -/

/-- The value of a service as a response carries it. -/
def AttDatabase.valueOf (db : AttDatabase) (mtu : Nat) (service : AttAttribute) : AttributeData :=
  match db.readAttribute service.handle with
  | .ok data => truncateAttData data (mtu - 6)
  | .error _ => .raw []

/-- What a response lists for a service. -/
def AttDatabase.element (db : AttDatabase) (mtu : Nat) (service : AttAttribute) : GroupElement :=
  ⟨service.handle, (groupEnd db service).handle, db.valueOf mtu service⟩

def AttDatabase.withValue (db : AttDatabase) (mtu : Nat) (service : AttAttribute) :
    AttributeWithValue :=
  ⟨service, db.valueOf mtu service⟩

section

variable {db : AttDatabase} {mtu : Nat}

theorem valueOf_of_ok (read : db.readAttribute service.handle = .ok data) :
    db.valueOf mtu service = truncateAttData data (mtu - 6) := by
  rw [valueOf, read]

theorem carries_of_ok (read : db.readAttribute service.handle = .ok data) :
    db.carries mtu service =
      decide ((db.valueOf mtu service).bytes.length ≤ min (mtu - 6) 251) := by
  rw [carries, valueOf_of_ok read, read]

theorem readSameSize_some {size : Nat} (services : List AttAttribute)
    {out : List AttributeWithValue} (filled : out ≠ []) :
    ∃ taken rest, services = taken ++ rest ∧ readSameSize db (mtu - 6) services (some size) out =
        .ok (out ++ taken.map (db.withValue mtu)) ∧
      ∀ service ∈ taken, (∃ data, db.readAttribute service.handle = .ok data) ∧
        (db.valueOf mtu service).sizeInBits = size := by
  induction services generalizing out with
  | nil =>
    exact ⟨[], [], rfl, by rw [map_nil, append_nil]; rfl, fun _ none => (nomatch none)⟩
  | cons service others ih =>
    have stops : ∃ taken rest, service :: others = taken ++ rest ∧
        (Except.ok out : Except AttErrorCode _) = .ok (out ++ taken.map (db.withValue mtu)) ∧
        ∀ service ∈ taken, (∃ data, db.readAttribute service.handle = .ok data) ∧
          (db.valueOf mtu service).sizeInBits = size :=
      ⟨[], service :: others, rfl, by rw [map_nil, append_nil], fun _ none => (nomatch none)⟩
    rw [readSameSize]
    cases read : db.readAttribute service.handle with
    | error err =>
      dsimp only
      rw [if_neg (by rw [List.isEmpty_iff]; exact filled)]
      exact stops
    | ok data =>
      dsimp only
      rw [← valueOf_of_ok read]
      by_cases other : size ≠ (db.valueOf mtu service).sizeInBits
      · rw [if_pos other]
        exact stops
      · rw [if_neg other]
        obtain ⟨taken, rest, split, taking, same⟩ :=
          @ih (out ++ [⟨service, db.valueOf mtu service⟩]) (by simp)
        refine ⟨service :: taken, rest, by rw [split]; rfl, ?_, ?_⟩
        · rw [taking, append_assoc, singleton_append, map_cons]
          rfl
        · intro found member
          rcases mem_cons.mp member with rfl | later
          · exact ⟨⟨data, read⟩, (not_ne_iff.mp other).symm⟩
          · exact same found later

theorem pushElements_eq (services : List AttAttribute)
    (primary : ∀ service ∈ services, service.type = primaryServiceDeclarationUuid)
    (found : PayloadAccumulator GroupElement) :
    pushElements db (services.map (db.withValue mtu)) found = some (pushAll GroupElement.sizeInBits
        (services.map (db.element mtu)) found) := by
  induction services generalizing found with
  | nil => rfl
  | cons service others ih =>
    have grouped : ¬service.type ∉ groupingAttributes := by
      rw [primary service (mem_cons_self ..)]
      decide
    have later := ih fun other member => primary other (mem_cons_of_mem _ member)
    rw [map_cons, map_cons, withValue, pushElements, pushAll, findGroupEnd, if_neg grouped]
    dsimp only
    rw [← element]
    split <;> rename_i pushed
    · rw [pushed, later]
    · rw [pushed]

theorem sizeInBits_element (service : AttAttribute) :
    (db.element mtu service).sizeInBits = 32 + (db.valueOf mtu service).bytes.length * 8 :=
  rfl

/-- A response lists some services, and none only if it cannot carry the first one. -/
structure Lists (db : AttDatabase) (mtu : Nat) (services : List AttAttribute)
    (sent rest : List AttAttribute) (response : ReadByGroupTypeResponse) : Prop where
  split : services = sent ++ rest
  carried : ∀ service ∈ sent, db.carries mtu service = true
  stuck : sent = [] → ∀ service ∈ rest.head?, db.carries mtu service = false
  elements : (sendReadByGroupTypeResponse response).elements = sent.map (db.element mtu)

theorem lists_error {services : List AttAttribute} (handle : Nat) (code : AttErrorCode)
    (stuck : ∀ service ∈ services.head?, db.carries mtu service = false) :
    Lists db mtu services [] services (.error handle code) :=
  ⟨rfl, fun _ none => (nomatch none), fun _ => stuck, rfl⟩

theorem lists_sameSize {service : AttAttribute} {taken rest : List AttAttribute} (start : Nat)
    (minimum : 23 ≤ mtu)
    (same : ∀ other ∈ service :: taken, (∃ data, db.readAttribute other.handle = .ok data) ∧
        (db.valueOf mtu other).sizeInBits = (db.valueOf mtu service).sizeInBits) :
    let found := pushAll GroupElement.sizeInBits
      ((service :: taken).map (db.element mtu)) (.new (mtu - 2))
    ∃ sent unsent, Lists db mtu (service :: taken ++ rest) sent unsent
      (if found.elems.isEmpty then .error start .attributeNotFound else .data found.elems) := by
  intro found
  obtain ⟨pushed, left, split, elems, nonempty⟩ := pushAll_elems
    GroupElement.sizeInBits ((service :: taken).map (db.element mtu)) (.new (mtu - 2))
  obtain ⟨sent, unsent, whole, rfl, -⟩ := map_eq_append_iff.mp split
  have elems : found.elems = sent.map (db.element mtu) := elems
  have fits : 32 + (db.valueOf mtu service).bytes.length * 8 ≤ (mtu - 2) * 8 ↔ sent ≠ [] := by
    rw [← map_eq_nil_iff.ne]
    exact nonempty (db.element mtu service) rfl
  obtain ⟨data, read⟩ := (same service (mem_cons_self ..)).1
  have carried : db.carries mtu service =
      decide ((db.valueOf mtu service).bytes.length ≤ min (mtu - 6) 251) := carries_of_ok read
  rw [elems]
  cases sent with
  | nil =>
    refine ⟨[], _, lists_error start .attributeNotFound ?_⟩
    rintro first ⟨⟩
    rw [carried, decide_eq_false_iff_not]
    intro small
    exact fits.mp (by omega) rfl
  | cons first others =>
    obtain ⟨rfl, -⟩ := List.cons.inj whole
    have small := fits.mpr (cons_ne_nil _ _)
    rw [map_cons, if_neg (by rw [isEmpty_cons]; decide)]
    by_cases large : 0xFF < (db.element mtu service).sizeInBits / 8
    · refine ⟨[], service :: taken ++ rest, rfl, fun _ none => (nomatch none), fun _ => ?_, ?_⟩
      · rintro first ⟨⟩
        rw [carried, decide_eq_false_iff_not]
        rw [sizeInBits_element] at large
        omega
      · rw [sendReadByGroupTypeResponse, if_pos large]
        rfl
    · refine ⟨service :: others, unsent ++ rest, ?_, ?_, fun none => (nomatch none), ?_⟩
      · rw [whole, append_assoc]
      · intro other member
        have listed : other ∈ service :: taken := by
          rw [whole]
          exact mem_append_left _ member
        obtain ⟨⟨data, readOther⟩, size⟩ := same other listed
        rw [carries_of_ok readOther, decide_eq_true_iff]
        rw [sizeInBits_element] at large
        rw [AttributeData.sizeInBits, AttributeData.sizeInBits] at size
        omega
      · rw [sendReadByGroupTypeResponse, if_neg large]
        rfl

theorem handleReadByGroupTypeRequest_lists {start : Nat} (minimum : 23 ≤ mtu)
    (valid : 1 ≤ start) (last : start ≤ 0xFFFF) :
    ∃ response sent rest,
      handleReadByGroupTypeRequest start 0xFFFF primaryServiceDeclarationUuid mtu db =
        some response ∧ Lists db mtu (db.servicesFrom start) sent rest response := by
  rw [handleReadByGroupTypeRequest, filterToRange_last valid last]
  dsimp only
  rw [if_neg (fun other => other.1 rfl), filterReadAttributesBySizeType, ← servicesFrom]
  cases services : db.servicesFrom start with
  | nil => exact ⟨_, [], [], rfl, lists_error _ _ fun _ none => (nomatch none)⟩
  | cons service others =>
    rw [readSameSize]
    cases read : db.readAttribute service.handle with
    | error err =>
      refine ⟨_, [], service :: others, rfl, lists_error _ _ ?_⟩
      rintro first ⟨⟩
      rw [carries, read]
    | ok data =>
      dsimp only
      obtain ⟨taken, rest, split, taking, same⟩ :=
        @readSameSize_some db mtu (db.valueOf mtu service).sizeInBits others
          [db.withValue mtu service] (cons_ne_nil _ _)
      have primary : ∀ other ∈ service :: taken, other.type = primaryServiceDeclarationUuid := by
        intro other member
        refine (mem_servicesFrom.mp (?_ : other ∈ db.servicesFrom start)).2
        rw [services, split, ← cons_append]
        exact mem_append_left _ member
      rw [← valueOf_of_ok read, nil_append, ← withValue, taking, singleton_append, ← map_cons]
      dsimp only
      rw [pushElements_eq (service :: taken) primary, Option.map_some, split, ← cons_append]
      obtain ⟨sent, unsent, lists⟩ := @lists_sameSize db mtu service taken rest start minimum
        fun other member => by
          rcases mem_cons.mp member with rfl | later
          · exact ⟨⟨data, read⟩, rfl⟩
          · exact same other later
      exact ⟨_, sent, unsent, rfl, lists⟩

/-! ## Whole discoveries -/

/-- The elements that remain to be seen from a handle on. -/
def remainingElements (db : AttDatabase) (mtu start : Nat) : List GroupElement :=
  ((db.servicesFrom start).takeWhile (db.carries mtu)).map (db.element mtu)

theorem readServicesFrom_delivers (minimum : 23 ≤ mtu) (turn start : Nat)
    (good : 1 ≤ start ∧ start ≤ 0xFFFF) :
    ∃ response next, readServicesFrom db mtu turn start = some (response, next) ∧
      Delivers (fun start => 1 ≤ start ∧ start ≤ 0xFFFF) (fun _ => True)
        ReadByGroupTypeResponse.elements (remainingElements db mtu) start response next := by
  obtain ⟨response, sent, rest, handled, lists⟩ :=
    @handleReadByGroupTypeRequest_lists db mtu start minimum good.1 good.2
  refine ⟨_, _, by rw [readServicesFrom, handled]; rfl,
    @delivers_behind _ _ _ GroupElement.endGroupHandle _ _ _
      ((rest.takeWhile (db.carries mtu)).map (db.element mtu)) ?_ ?_ ?_ ?_⟩
  · rw [lists.elements, remainingElements, lists.split,
      takeWhile_append_of_pos lists.carried, map_append]
  · intro nothing
    rw [lists.elements, map_eq_nil_iff] at nothing
    cases rest with
    | nil => rfl
    | cons first others =>
      rw [takeWhile_cons, lists.stuck nothing first rfl, if_neg Bool.false_ne_true, map_nil]
  · intro item seen
    rw [lists.elements, List.getLast?_map] at seen
    obtain ⟨last, final, rfl⟩ := Option.map_eq_some_iff.mp seen
    obtain ⟨before, rfl⟩ := List.getLast?_eq_some_iff.mp final
    have placed := lists.split
    rw [append_assoc, singleton_append] at placed
    have member : last ∈ db.servicesFrom start := by
      rw [placed]
      exact mem_append_right _ (mem_cons_self ..)
    obtain ⟨⟨listed, -⟩, primary⟩ := mem_servicesFrom.mp member
    obtain ⟨ending, endingListed, same, -⟩ :=
      (groupEnd_isGreatest listed (.inl primary)).1
    have bound := db.handles ending endingListed
    rw [same] at bound
    refine ⟨bound, ?_⟩
    rw [remainingElements, element, servicesFrom_after placed]
  · rw [remainingElements, servicesFrom, attributesFrom_end, filter_nil, takeWhile_nil, map_nil]

end

namespace AttDatabase

variable {db : AttDatabase} {mtu : Nat}

theorem visibleServices_eq :
    db.visibleServices mtu = (db.servicesFrom 1).takeWhile (db.carries mtu) := by
  rw [visibleServices, servicesFrom, attributesFrom_one, filter_filter]
  congr 2
  funext attr
  rw [Bool.decide_and, Bool.and_comm]

theorem visibleServices_sublist : (db.visibleServices mtu).Sublist (db.servicesFrom 1) := by
  rw [visibleServices_eq]
  exact takeWhile_sublist _

theorem visibleServices_sublist_attributes :
    (db.visibleServices mtu).Sublist db.attributes :=
  visibleServices_sublist.trans (filter_sublist.trans (attributesFrom_sublist 1))

theorem shows_element (visible : service ∈ db.visibleServices mtu) :
    Shows db mtu service (db.element mtu service) := by
  obtain ⟨⟨listed, -⟩, primary⟩ := mem_servicesFrom.mp (visibleServices_sublist.subset visible)
  refine ⟨rfl, groupEnd_isGreatest listed (.inl primary), ?_⟩
  have carried := mem_takeWhile_imp visible
  cases read : db.readAttribute service.handle with
  | error err =>
    rw [carries, read] at carried
    cases carried
  | ok data => exact ⟨data, rfl, valueOf_of_ok read⟩

theorem visibleServices_disjoint :
    ((db.visibleServices mtu).map (db.element mtu)).Pairwise
      fun first second => first.endGroupHandle < second.handle := by
  rw [pairwise_map]
  have ascending : (db.visibleServices mtu).Pairwise fun first second =>
      first.handle < second.handle :=
    db.ascending.sublist visibleServices_sublist_attributes
  refine ascending.imp_of_mem fun {first second} visible visibleSecond smaller => ?_
  have group := (shows_element visible).groupEnd.1
  obtain ⟨-, -, -, -, alone⟩ := group
  obtain ⟨⟨listed, -⟩, primary⟩ :=
    mem_servicesFrom.mp (visibleServices_sublist.subset visibleSecond)
  by_contra notBefore
  exact alone second listed (.inl primary) ⟨smaller, Nat.le_of_not_lt notBefore⟩

end AttDatabase

/--
A client sees the primary services before the first one that no response can carry, in
order, with their values and the ends of their groups, which do not overlap.
-/
theorem readServices_visible (db : AttDatabase) (mtu : Nat) (minimum : 23 ≤ mtu) :
    ∃ responses, gather (readServicesFrom db mtu) (db.attributes.length + 1) 0 1 = some responses ∧
      List.Forall₂ (Shows db mtu) (db.visibleServices mtu)
        (responses.flatMap ReadByGroupTypeResponse.elements) ∧
      (responses.flatMap ReadByGroupTypeResponse.elements).Pairwise
        fun first second => first.endGroupHandle < second.handle := by
  have enough : (remainingElements db mtu 1).length < db.attributes.length + 1 := by
    rw [remainingElements, length_map, ← visibleServices_eq]
    exact Nat.lt_succ_of_le visibleServices_sublist_attributes.length_le
  obtain ⟨responses, gathered, -, whole⟩ :=
    gather_of_delivers (readServicesFrom_delivers minimum)
      (⟨Nat.le_refl 1, by decide⟩ : 1 ≤ 1 ∧ 1 ≤ 0xFFFF) enough
  rw [remainingElements, ← visibleServices_eq] at whole
  refine ⟨responses, gathered, ?_, ?_⟩
  · rw [whole, forall₂_map_right_iff, forall₂_same]
    exact fun service visible => shows_element visible
  · rw [whole]
    exact visibleServices_disjoint

def twoServices : AttDatabase where
  attributes := [⟨1, primaryServiceDeclarationUuid, ⟨true, false⟩⟩,
    ⟨2, characteristicUuid, ⟨true, false⟩⟩, ⟨3, .new 0x2A00, ⟨true, true⟩⟩,
    ⟨4, primaryServiceDeclarationUuid, ⟨true, false⟩⟩]
  readAttribute handle :=
    if handle = 1 then .ok (.raw [0x00, 0x18])
    else if handle = 4 then .ok (.raw [0x01, 0x18])
    else .error .readNotPermitted
  ascending := by decide
  handles := by decide

theorem readServices_visible_two :
    23 ≤ 23 ∧ ∃ responses, gather (readServicesFrom twoServices 23) 5 0 1 = some responses ∧
      List.Forall₂ (Shows twoServices 23) (twoServices.visibleServices 23)
        (responses.flatMap ReadByGroupTypeResponse.elements) ∧
      (responses.flatMap ReadByGroupTypeResponse.elements).Pairwise
        fun first second => first.endGroupHandle < second.handle :=
  ⟨Nat.le_refl 23, readServices_visible twoServices 23 (Nat.le_refl 23)⟩

/-- A primary service that cannot be read before one that can. -/
def guardedFirst : AttDatabase where
  attributes := [⟨1, primaryServiceDeclarationUuid, ⟨false, false⟩⟩,
    ⟨2, primaryServiceDeclarationUuid, ⟨true, false⟩⟩]
  readAttribute handle :=
    if handle = 2 then .ok (.raw [0x01, 0x18]) else .error .readNotPermitted
  ascending := by decide
  handles := by decide

/-- The client stops at the error, before the service that can be read. -/
theorem guardedFirst_hides :
    gather (readServicesFrom guardedFirst 23) 3 0 1 = some [.error 1 .readNotPermitted] ∧
      (∃ service ∈ guardedFirst.attributes, service.handle = 2 ∧
        service.type = primaryServiceDeclarationUuid) ∧
      guardedFirst.readAttribute 2 = .ok (.raw [0x01, 0x18]) := by
  refine ⟨by decide, ?_, rfl⟩
  exact ⟨_, mem_cons_of_mem _ (mem_cons_self ..), rfl, rfl⟩

end BluetoothFormal.Gatt
