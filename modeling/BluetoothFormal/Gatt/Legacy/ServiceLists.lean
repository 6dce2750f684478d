import BluetoothFormal.Foundation.OrderedInsert
import BluetoothFormal.Foundation.Transition
import BluetoothFormal.Gatt.Legacy.Database

/-!
# Adding and deleting services

A service gets the handles behind those of the other services.  Its range is put into the
list of ranges before its elements are looked at, so an element that is refused leaves the
range in the list, and a service that would end at handle `0xFFFF` aborts the process,
because the end of its attributes wraps to zero.
-/

namespace BluetoothFormal.Gatt.Legacy

open Foundation.OrderedInsert Foundation.Transition List

/-! ## Services and lists -/

/-- `tGATT_HDL_CFG`. -/
structure HdlCfg where
  gattStartHdl : Nat
  gapStartHdl : Nat
  gmcsStartHdl : Nat
  gtbsStartHdl : Nat
  tmasStartHdl : Nat
  appStartHdl : Nat
  positive : 0 < appStartHdl
  word : appStartHdl < 65536

/-- The start handles that `gatt_init` sets. -/
def HdlCfg.default : HdlCfg := ⟨1, 20, 40, 90, 130, 134, by decide, by decide⟩

def gattServerUuid : Uuid := from16Bit 0x1801
def gapServerUuid : Uuid := from16Bit 0x1800
def gmcsServerUuid : Uuid := from16Bit 0x1849
def gtbsServerUuid : Uuid := from16Bit 0x184C
def tmasServerUuid : Uuid := from16Bit 0x1855

/-- The services with start handles of their own. -/
def configuredServices : List Uuid :=
  [gattServerUuid, gapServerUuid, gmcsServerUuid, gtbsServerUuid, tmasServerUuid]

/-- `tGATT_HDL_LIST_ELEM`. -/
structure HdlListElem where
  appUuid128 : Uuid
  svcUuid : Uuid
  sHandle : Nat
  eHandle : Nat
  isPrimary : Bool
  svcDb : SvcDb

open HdlListElem

/-- `tGATT_SRV_LIST_ELEM`, with the database that `p_db` points to. -/
structure ActiveService where
  gattIf : Nat
  appUuid : Uuid
  sHdl : Nat
  eHdl : Nat
  isPrimary : Bool
  db : SvcDb

/-- `hdl_list_info` and `srv_list_info`. -/
structure ServiceLists where
  hdlListInfo : List HdlListElem
  srvListInfo : List ActiveService

/-- `btgatt_db_element_t` behind the first one; `other` has no element type of its own. -/
inductive ServiceElement where
  | includedService (attributeHandle : Nat)
  | characteristic (uuid : Uuid) (properties : UInt8) (extendedProperties : Nat)
      (permissions : UInt16)
  | descriptor (uuid : Uuid) (permissions : UInt16)
  | service
  | other

/-- A service of an application. -/
structure NewService where
  uuid : Uuid
  isPrimary : Bool
  elements : List ServiceElement

/-! ## Calls -/

/-- The handles that `compute_service_size` counts for an element. -/
def ServiceElement.size : ServiceElement → Nat
  | .includedService _ => 1
  | .characteristic _ properties _ _ => if properties &&& 0x80 != 0 then 3 else 2
  | .descriptor _ _ => 1
  | .service => 1
  | .other => 0

/-- The handles that a service needs, with the one of its declaration. -/
def NewService.size (service : NewService) : Nat :=
  1 + (service.elements.map ServiceElement.size).sum

/-- The start handle in `GATTS_AddService`. -/
def startHandle (cfg : HdlCfg) (lists : ServiceLists) (svcUuid : Uuid) : Nat :=
  if svcUuid = gattServerUuid then cfg.gattStartHdl
  else if svcUuid = gapServerUuid then cfg.gapStartHdl
  else if svcUuid = gmcsServerUuid then cfg.gmcsStartHdl
  else if svcUuid = gtbsServerUuid then cfg.gtbsStartHdl
  else if svcUuid = tmasServerUuid then cfg.tmasStartHdl
  else
    let sHdl :=
      match lists.hdlListInfo with
      | [] => 0
      | front :: _ => (front.eHandle + 1) % 65536
    if sHdl < cfg.appStartHdl then cfg.appStartHdl else sHdl

/-- `gatt_add_an_item_to_list`: the list is in descending order of the start handles. -/
def gattAddAnItemToList (item : HdlListElem) (list : List HdlListElem) : List HdlListElem :=
  insertAt (fun other => decide (item.sHandle > other.sHandle)) item list

variable {db : SvcDb} {size sHdl : Nat} {item : HdlListElem} {service : ActiveService}
  {next : ServiceLists}

section

variable (list : List HdlListElem)

def gattFindHdlBufferByHandle (handle : Nat) : Option HdlListElem :=
  list.find? fun elem => elem.sHandle == handle

/-- What becomes of the attributes of a service. -/
inductive Building where
  | built (db : SvcDb)
  | refused (db : SvcDb)
  | aborted

/-- An element that is not refused aborts if its handles are used up. -/
def Building.add (db : SvcDb) (element : DbElement) : Building :=
  if element.isRefused then .refused db
  else
    match addElement db element with
    | none => .aborted
    | some db => .built db

/-- The loop of `GATTS_AddService` over one element. -/
def addServiceElement (db : SvcDb) : ServiceElement → Building
  | .characteristic uuid properties extendedProperties permissions =>
    .add db (.characteristic uuid properties extendedProperties permissions)
  | .descriptor uuid permissions => .add db (.descriptor uuid permissions)
  | .includedService attributeHandle =>
    match gattFindHdlBufferByHandle list attributeHandle with
    | none => .refused db
    | some incl => .add db (.includedService incl.sHandle incl.eHandle incl.svcUuid)
  | .service => .built db
  | .other => .built db

/-- The loop of `GATTS_AddService`. -/
def addServiceElements (list : List HdlListElem) (db : SvcDb) : List ServiceElement → Building
  | [] => .built db
  | element :: rest =>
    match addServiceElement list db element with
    | .built more => addServiceElements list more rest
    | .refused more => .refused more
    | .aborted => .aborted

/-- The place of an active service: the list is in ascending order of the start handles. -/
def startService (elem : ActiveService) (list : List ActiveService) : List ActiveService :=
  insertAt (fun other => decide (elem.sHdl < other.sHdl)) elem list

/--
`GATTS_AddService`: whether the service is started, and the lists.  There is no result if
the process aborts; `regcb` tells the UUIDs of the applications that are registered.
-/
def addServiceCall (cfg : HdlCfg) (regcb : Nat → Option Uuid) (lists : ServiceLists)
    (gattIf : Nat) (service : NewService) : Option (Bool × ServiceLists) :=
  match regcb gattIf with
  | none => some (false, lists)
  | some appUuid =>
    let numHandles := service.size % 65536
    let sHdl := startHandle cfg lists service.uuid
    if numHandles > 0xFFFF - sHdl + 1 then some (false, lists)
    else
      let item (db : SvcDb) : HdlListElem :=
        ⟨appUuid, service.uuid, sHdl, (sHdl + numHandles - 1) % 65536, service.isPrimary, db⟩
      (gattsInitServiceDb service.uuid service.isPrimary sHdl numHandles).bind fun initial =>
        match addServiceElements (gattAddAnItemToList (item initial) lists.hdlListInfo) initial
            service.elements with
        | .aborted => none
        | .refused db =>
          some (false,
            { lists with hdlListInfo := gattAddAnItemToList (item db) lists.hdlListInfo })
        | .built db =>
          some (true,
            { hdlListInfo := gattAddAnItemToList (item db) lists.hdlListInfo
              srvListInfo := startService
                ⟨gattIf, appUuid, sHdl, (sHdl + numHandles - 1) % 65536, service.isPrimary, db⟩
                lists.srvListInfo })

/-- `gatt_sr_find_i_rcb_by_handle`, as the test of an element. -/
def coversHandle (handle : Nat) (elem : ActiveService) : Bool :=
  decide (elem.sHdl ≤ handle ∧ elem.eHdl ≥ handle)

/-- `GATTS_StopService`; the handle may be any one of the service. -/
def gattsStopService (lists : ServiceLists) (serviceHandle : Nat) : ServiceLists :=
  { lists with srvListInfo := lists.srvListInfo.eraseP (coversHandle serviceHandle) }

/-- `gatts_get_service_uuid`. -/
def serviceUuidOf (db : SvcDb) : Option Uuid :=
  match db.attrList with
  | [] => none
  | attr :: _ =>
    match attr.value with
    | some (.uuid uuid) => some uuid
    | _ => none

def isActiveService (lists : ServiceLists) (appUuid128 svcUuid : Uuid) (startHandle : Nat) :
    Bool :=
  lists.srvListInfo.any fun info =>
    decide (serviceUuidOf info.db = some svcUuid ∧ appUuid128 = info.appUuid ∧
      startHandle = info.sHdl)

/-- `gatt_find_hdl_buffer_by_app_id`, as the test of an element. -/
def isHdlBuffer (appUuid128 svcUuid : Uuid) (startHandle : Nat) (elem : HdlListElem) : Bool :=
  decide (appUuid128 = elem.appUuid128 ∧ svcUuid = elem.svcUuid ∧ startHandle = elem.sHandle)

def gattsDeleteService (regcb : Nat → Option Uuid) (lists : ServiceLists) (gattIf : Nat)
    (svcUuid : Uuid) (svcInst : Nat) : Bool × ServiceLists :=
  match regcb gattIf with
  | none => (false, lists)
  | some appUuid =>
    match lists.hdlListInfo.find? (isHdlBuffer appUuid svcUuid svcInst) with
    | none => (false, lists)
    | some elem =>
      let stopped :=
        if isActiveService lists appUuid svcUuid svcInst then gattsStopService lists elem.sHandle
        else lists
      (true,
        { stopped with
          hdlListInfo := stopped.hdlListInfo.eraseP (isHdlBuffer appUuid svcUuid svcInst) })

inductive ServiceCall where
  | addService (gattIf : Nat) (service : NewService)
  | stopService (serviceHandle : Nat)
  | deleteService (gattIf : Nat) (svcUuid : Uuid) (svcInst : Nat)

/-- A call: whether it succeeds, and the lists. -/
def serviceCall (cfg : HdlCfg) (regcb : Nat → Option Uuid) (lists : ServiceLists) :
    ServiceCall → Option (Bool × ServiceLists)
  | .addService gattIf service => addServiceCall cfg regcb lists gattIf service
  | .stopService serviceHandle => some (true, gattsStopService lists serviceHandle)
  | .deleteService gattIf svcUuid svcInst =>
    some (gattsDeleteService regcb lists gattIf svcUuid svcInst)

def serviceStep (cfg : HdlCfg) (regcb : Nat → Option Uuid) (lists : ServiceLists)
    (call : ServiceCall) : Option ServiceLists :=
  (serviceCall cfg regcb lists call).map Prod.snd

/-! ## Elements -/

structure SvcDb.Extends (db grown : SvcDb) (size : Nat) : Prop where
  attributes : ∃ more, grown.attrList = db.attrList ++ more
  endHandle : grown.endHandle = db.endHandle
  nextHandle : grown.nextHandle ≤ db.nextHandle + size

theorem SvcDb.Extends.refl (db : SvcDb) (size : Nat) : db.Extends db size :=
  ⟨⟨[], (append_nil _).symm⟩, rfl, Nat.le_add_right _ _⟩

theorem allocateAttrInDb_extends {db : SvcDb} (room : db.nextHandle + 1 ≤ db.endHandle)
    (uuid : Uuid) (perm : UInt16) (gattType : AttrType) (value : Option AttrValue) :
    ∃ grown, allocateAttrInDb db uuid perm gattType value = some grown ∧ db.Extends grown 1 := by
  rw [allocateAttrInDb, if_neg (Nat.not_le.mpr room)]
  exact ⟨_, rfl, ⟨_, rfl⟩, rfl, Nat.le_refl _⟩

theorem SvcDb.Extends.trans {first second third : SvcDb} {more : Nat}
    (one : first.Extends second size) (two : second.Extends third more) :
    first.Extends third (size + more) := by
  obtain ⟨⟨front, begins⟩, ends, next⟩ := one
  obtain ⟨⟨back, follows⟩, endsToo, nextToo⟩ := two
  refine ⟨⟨front ++ back, ?_⟩, endsToo.trans ends, by omega⟩
  rw [follows, begins, append_assoc]

theorem addElement_extends {element : DbElement}
    (room : db.nextHandle + element.size ≤ db.endHandle) :
    ∃ grown, addElement db element = some grown ∧ db.Extends grown element.size := by
  cases element with
  | includedService sHandle eHandle service =>
    rw [addElement, gattsAddIncludedService]
    split
    · exact ⟨db, rfl, .refl _ _⟩
    · exact allocateAttrInDb_extends room _ _ _ _
  | descriptor uuid permissions =>
    exact allocateAttrInDb_extends room _ _ _ _
  | characteristic uuid properties extendedProperties permissions =>
    have two : 2 ≤ DbElement.size (.characteristic uuid properties extendedProperties permissions) := by
      rw [DbElement.size]
      split <;> decide
    obtain ⟨declared, declaration, first⟩ := @allocateAttrInDb_extends db (by omega) charDeclareUuid
      permRead .primaryService (some (.charDecl properties (db.nextHandle + 1)))
    have ends := first.endHandle
    have next := first.nextHandle
    obtain ⟨both, value, second⟩ := @allocateAttrInDb_extends declared (by omega) uuid permissions
      .characteristic none
    have characteristic : gattsAddCharacteristic db permissions properties uuid = some both := by
      rw [gattsAddCharacteristic, declaration, Option.bind_some, value]
    rw [addElement, characteristic, Option.bind_some]
    rw [DbElement.size] at room ⊢
    split
    case isTrue extended =>
      rw [if_pos extended] at room
      have endsBoth := (first.trans second).endHandle
      have nextBoth := (first.trans second).nextHandle
      obtain ⟨grown, added, third⟩ := @allocateAttrInDb_extends both (by omega) charExtPropUuid
        permRead .descriptor (some (.charExtProp extendedProperties))
      exact ⟨grown, added, (first.trans second).trans third⟩
    case isFalse => exact ⟨both, rfl, first.trans second⟩

/--
The element is one that `GATTS_AddService` does not refuse; a service that is included
starts at one of the handles.
-/
def ServiceElement.Accepted (starts : List Nat) : ServiceElement → Prop
  | .characteristic uuid properties _ permissions =>
    signedMismatch properties permissions = false ∧ isGattAttrType uuid = false
  | .descriptor uuid _ => isGattAttrType uuid = false
  | .includedService attributeHandle => attributeHandle ∈ starts
  | .service => True
  | .other => True

theorem addServiceElement_cases {sHdl : Nat} {db : SvcDb} (formed : db.Formed sHdl)
    {element : ServiceElement} (room : db.nextHandle + element.size ≤ db.endHandle) :
    (element.Accepted (list.map sHandle) ∧
        ∃ grown, addServiceElement list db element = .built grown ∧ grown.Formed sHdl ∧
          db.Extends grown element.size) ∨ (¬element.Accepted (list.map sHandle) ∧
        addServiceElement list db element = .refused db) := by
  have added : ∀ {dbElement : DbElement}, dbElement.size = element.size →
      (dbElement.isRefused = false ↔ element.Accepted (list.map sHandle)) →
      addServiceElement list db element = .add db dbElement →
      (element.Accepted (list.map sHandle) ∧
        ∃ grown, addServiceElement list db element = .built grown ∧ grown.Formed sHdl ∧
          db.Extends grown element.size) ∨ (¬element.Accepted (list.map sHandle) ∧
        addServiceElement list db element = .refused db) := by
    intro dbElement size accepted added
    rw [← size] at room ⊢
    obtain ⟨grown, some, more⟩ := addElement_extends room
    rw [added, Building.add, some, ← accepted]
    cases refused : dbElement.isRefused with
    | true => exact .inr ⟨Bool.true_eq_false.mp, rfl⟩
    | false => exact .inl ⟨rfl, grown, rfl, addElement_formed formed refused some, more⟩
  cases element with
  | characteristic uuid properties extendedProperties permissions =>
    exact @added (.characteristic uuid properties extendedProperties permissions) rfl
      Bool.or_eq_false_iff rfl
  | descriptor uuid permissions => exact added rfl Iff.rfl rfl
  | includedService attributeHandle =>
    cases found : gattFindHdlBufferByHandle list attributeHandle with
    | none =>
      refine .inr ⟨fun present => ?_, by rw [addServiceElement, found]⟩
      obtain ⟨elem, listed, handle⟩ := mem_map.mp present
      exact List.find?_eq_none.mp found elem listed (beq_iff_eq.mpr handle)
    | some incl =>
      have matched := List.find?_some found
      refine added rfl (iff_of_true rfl (mem_map.mpr ⟨incl, mem_of_find?_eq_some found, ?_⟩))
        (by rw [addServiceElement, found])
      exact beq_iff_eq.mp matched
  | service | other => exact .inl ⟨trivial, db, rfl, formed, .refl _ _⟩

theorem addServiceElements_cases (formed : db.Formed sHdl) {elements : List ServiceElement}
    (room : db.nextHandle + (elements.map ServiceElement.size).sum ≤ db.endHandle) :
    ∃ grown, grown.Formed sHdl ∧ db.Extends grown (elements.map ServiceElement.size).sum ∧
      (((∀ element ∈ elements, element.Accepted (list.map sHandle)) ∧
          addServiceElements list db elements = .built grown) ∨
        (¬(∀ element ∈ elements, element.Accepted (list.map sHandle)) ∧
          addServiceElements list db elements = .refused grown)) := by
  induction elements generalizing db with
  | nil =>
    exact ⟨db, formed, .refl _ _, .inl ⟨forall_mem_nil _, rfl⟩⟩
  | cons element rest ih =>
    rw [map_cons, sum_cons] at room ⊢
    rw [addServiceElements, forall_mem_cons]
    rcases @addServiceElement_cases list sHdl db formed element (by omega) with
      ⟨accepted, more, built, formedMore, first⟩ | ⟨wrong, refused⟩
    · have next := first.nextHandle
      have ends := first.endHandle
      obtain ⟨grown, formedGrown, others, later⟩ := ih formedMore (by omega)
      rw [built]
      refine ⟨grown, formedGrown, first.trans others, later.imp ?_ ?_⟩
      · exact fun all => ⟨⟨accepted, all.1⟩, all.2⟩
      · exact fun wrong => ⟨fun all => wrong.1 all.2, wrong.2⟩
    · rw [refused]
      refine ⟨db, formed, .refl _ _, .inr ?_⟩
      exact ⟨fun all => wrong all.1, rfl⟩

end

/-! ## Ranges -/

/-- A range of handles with the attributes of its service. -/
structure HdlListElem.Sound (elem : HdlListElem) : Prop where
  positive : 0 < elem.sHandle
  formed : elem.svcDb.Formed elem.sHandle
  reach : elem.svcDb.endHandle = elem.eHandle + 1
  owner : serviceUuidOf elem.svcDb = some elem.svcUuid

theorem HdlListElem.Sound.ordered {elem : HdlListElem} (sound : elem.Sound) :
    elem.sHandle ≤ elem.eHandle ∧ elem.eHandle < 0xFFFF := by
  obtain ⟨declaration, rest, same, -⟩ := sound.formed.declared
  have next := sound.formed.next
  have inside := sound.formed.inside
  have word := sound.formed.word
  have reach := sound.reach
  rw [same, length_cons] at next
  omega

structure ActiveService.IsOf (service : ActiveService) (elem : HdlListElem) : Prop where
  app : service.appUuid = elem.appUuid128
  sHdl : service.sHdl = elem.sHandle
  eHdl : service.eHdl = elem.eHandle
  db : service.db = elem.svcDb

/-- The ranges are disjoint, and the active services are those of some of them. -/
structure Arranged (lists : ServiceLists) : Prop where
  sound : ∀ elem ∈ lists.hdlListInfo, elem.Sound
  descending : lists.hdlListInfo.Pairwise fun first second => second.eHandle < first.sHandle
  active : ∀ service ∈ lists.srvListInfo, ∃ elem ∈ lists.hdlListInfo, service.IsOf elem
  ascending : lists.srvListInfo.Pairwise fun first second => first.eHdl < second.sHdl

theorem arranged_empty : Arranged ⟨[], []⟩ :=
  ⟨forall_mem_nil _, .nil, forall_mem_nil _, .nil⟩

variable {lists : ServiceLists} {regcb : Nat → Option Uuid} {cfg : HdlCfg}

theorem startHandle_behind (cfg : HdlCfg) (arranged : Arranged lists) {svcUuid : Uuid}
    (own : svcUuid ∉ configuredServices) :
    (∀ elem ∈ lists.hdlListInfo, elem.eHandle < startHandle cfg lists svcUuid) ∧
      0 < startHandle cfg lists svcUuid ∧ startHandle cfg lists svcUuid < 65536 := by
  simp only [configuredServices, mem_cons, not_mem_nil, or_false, not_or] at own
  obtain ⟨gatt, gap, gmcs, gtbs, tmas⟩ := own
  rw [startHandle, if_neg gatt, if_neg gap, if_neg gmcs, if_neg gtbs, if_neg tmas]
  have positive := cfg.positive
  have word := cfg.word
  cases ranges : lists.hdlListInfo with
  | nil =>
    rw [if_pos positive]
    exact ⟨forall_mem_nil _, positive, word⟩
  | cons front rest =>
    have last := (arranged.sound front (ranges ▸ mem_cons_self)).ordered
    have behind : ∀ elem ∈ front :: rest, elem.eHandle ≤ front.eHandle := by
      intro elem listed
      rcases mem_cons.mp listed with rfl | later
      · exact Nat.le_refl _
      · have lower := (pairwise_cons.mp (ranges ▸ arranged.descending)).1 elem later
        omega
    have inner : (front.eHandle + 1) % 65536 = front.eHandle + 1 := Nat.mod_eq_of_lt (by omega)
    simp only [inner]
    split
    · exact ⟨fun elem listed => by have := behind elem listed; omega, positive, word⟩
    · exact ⟨fun elem listed => by have := behind elem listed; omega, by omega, by omega⟩

/-! ## Calls keep the ranges disjoint -/

theorem serviceUuidOf_extends {grown : SvcDb} (more : db.Extends grown size) {uuid : Uuid}
    (owner : serviceUuidOf db = some uuid) : serviceUuidOf grown = some uuid := by
  obtain ⟨rest, same⟩ := more.attributes
  rw [serviceUuidOf] at owner ⊢
  rw [same]
  cases attributes : db.attrList with
  | nil =>
    rw [attributes] at owner
    cases owner
  | cons first others =>
    rw [attributes] at owner
    exact owner

/-- The declaration of a service needs a handle below the end, which wraps at 65536. -/
theorem gattsInitServiceDb_cases (serviceUuid : Uuid) (isPri : Bool) {numHandle : Nat}
    (word : sHdl < 65536) (positive : 0 < numHandle) (space : numHandle ≤ 0xFFFF - sHdl + 1) :
    (sHdl + numHandle = 65536 ∧ gattsInitServiceDb serviceUuid isPri sHdl numHandle = none) ∨
      (sHdl + numHandle < 65536 ∧ ∃ db, gattsInitServiceDb serviceUuid isPri sHdl numHandle = some db ∧
        serviceUuidOf db = some serviceUuid ∧ db.endHandle = sHdl + numHandle ∧
        db.nextHandle = sHdl + 1) := by
  rw [gattsInitServiceDb, allocateAttrInDb]
  by_cases top : sHdl + numHandle = 65536
  · rw [top]
    exact .inl ⟨rfl, if_pos (Nat.zero_le _)⟩
  · have below : sHdl + numHandle < 65536 := by omega
    rw [Nat.mod_eq_of_lt below, if_neg (by dsimp only; omega)]
    exact .inr ⟨below, _, rfl, rfl, rfl, rfl⟩

namespace Arranged

variable (arranged : Arranged lists)

include arranged

theorem insertRange (sound : item.Sound)
    (behind : ∀ elem ∈ lists.hdlListInfo, elem.eHandle < item.sHandle) :
    Arranged { lists with hdlListInfo := gattAddAnItemToList item lists.hdlListInfo } where
  sound := by
    intro elem listed
    rcases mem_insertAt.mp listed with rfl | old
    · exact sound
    · exact arranged.sound elem old
  descending := by
    refine pairwise_insertAt arranged.descending ?_ ?_ ?_
    · intro elem listed below
      have upper := behind elem listed
      have ordered := (arranged.sound elem listed).ordered
      have above := of_decide_eq_false below
      omega
    · exact fun elem listed _ => behind elem listed
    · intro first _ second listed before stop
      have ordered := (arranged.sound second listed).ordered
      have above := of_decide_eq_true stop
      exact decide_eq_true (by omega)
  active := by
    intro service listed
    obtain ⟨elem, old, same⟩ := arranged.active service listed
    exact ⟨elem, mem_insertAt.mpr (.inr old), same⟩
  ascending := arranged.ascending

theorem startService (listed : item ∈ lists.hdlListInfo) (same : service.IsOf item)
    (behind : ∀ other ∈ lists.srvListInfo, other.eHdl < item.sHandle) :
    Arranged { lists with srvListInfo := Legacy.startService service lists.srvListInfo } where
  sound := arranged.sound
  descending := arranged.descending
  active := by
    intro other active
    rcases mem_insertAt.mp active with rfl | old
    · exact ⟨item, listed, same⟩
    · exact arranged.active other old
  ascending := by
    have before : ∀ other ∈ lists.srvListInfo, other.eHdl < service.sHdl := by
      rw [same.sHdl]
      exact behind
    have ordered : ∀ other ∈ lists.srvListInfo, other.sHdl ≤ other.eHdl := by
      intro other active
      obtain ⟨elem, old, equal⟩ := arranged.active other active
      rw [equal.sHdl, equal.eHdl]
      exact (arranged.sound elem old).ordered.1
    refine pairwise_insertAt arranged.ascending (fun other active _ => before other active) ?_ ?_
    · intro other active stop
      have above := of_decide_eq_true stop
      have upper := before other active
      have range := ordered other active
      omega
    · intro first active second _ less stop
      have range := ordered first active
      have above := of_decide_eq_true stop
      exact decide_eq_true (by omega)

theorem stopService (serviceHandle : Nat) : Arranged (gattsStopService lists serviceHandle) where
  sound := arranged.sound
  descending := arranged.descending
  active := fun service listed => arranged.active service (mem_of_mem_eraseP listed)
  ascending := arranged.ascending.sublist eraseP_sublist

theorem stopService_apart {serviceHandle : Nat}
    (left : service ∈ (gattsStopService lists serviceHandle).srvListInfo) :
    ¬(service.sHdl ≤ serviceHandle ∧ serviceHandle ≤ service.eHdl) := by
  rintro ⟨lower, upper⟩
  have listed := mem_of_mem_eraseP left
  have holds : coversHandle serviceHandle service = true := decide_eq_true ⟨lower, upper⟩
  obtain ⟨first, before, behind, apart, found, split, erased⟩ := exists_of_eraseP listed holds
  have ascending := arranged.ascending
  rw [split] at ascending
  have later := (pairwise_cons.mp (pairwise_append.mp ascending).2.1).1
  have reaches := (of_decide_eq_true found).2
  rw [gattsStopService, erased] at left
  rcases mem_append.mp left with early | late
  · exact apart service early holds
  · have above := later service late
    omega

theorem deleteService (regcb : Nat → Option Uuid) (gattIf : Nat) (svcUuid : Uuid) (svcInst : Nat) :
    Arranged (gattsDeleteService regcb lists gattIf svcUuid svcInst).2 := by
  rw [gattsDeleteService]
  split
  · exact arranged
  case h_2 appUuid registered =>
    split
    · exact arranged
    case h_2 elem found =>
      have matched := List.find?_some found
      have start : svcInst = elem.sHandle := (of_decide_eq_true matched).2.2
      have stopped : Arranged (if isActiveService lists appUuid svcUuid svcInst then
          gattsStopService lists elem.sHandle else lists) := by
        split
        · exact arranged.stopService _
        · exact arranged
      refine ⟨?_, ?_, ?_, stopped.ascending⟩
      · exact fun other left => stopped.sound other (mem_of_mem_eraseP left)
      · exact stopped.descending.sublist eraseP_sublist
      · intro service left
        obtain ⟨range, listed, same⟩ := stopped.active service left
        refine ⟨range, (mem_eraseP_of_neg ?_).mpr listed, same⟩
        -- the service of the range that is deleted is no longer active
        intro deleted
        obtain ⟨app, uuid, inst⟩ := of_decide_eq_true deleted
        have sound := stopped.sound range listed
        split at left
        case isTrue active =>
          refine arranged.stopService_apart left ⟨?_, ?_⟩
          · rw [same.sHdl, ← start, inst]
          · rw [same.eHdl, ← start, inst]
            exact sound.ordered.1
        case isFalse inactive =>
          refine inactive (any_eq_true.mpr ⟨service, left, decide_eq_true ⟨?_, ?_, ?_⟩⟩)
          · rw [same.db, sound.owner, uuid]
          · rw [same.app, app]
          · rw [same.sHdl, inst]

end Arranged

theorem accepted_insert {list : List HdlListElem} (element : ServiceElement) :
    element.Accepted ((gattAddAnItemToList item list).map sHandle) ↔
      element.Accepted (item.sHandle :: list.map sHandle) := by
  cases element with
  | includedService attributeHandle =>
    exact ((perm_insertAt item list).map sHandle).mem_iff
  | characteristic | descriptor | service | other => exact .rfl

/-- All elements of a service are accepted, with the services that there are and its own handle. -/
def AllAccepted (cfg : HdlCfg) (lists : ServiceLists) (service : NewService) : Prop :=
  ∀ element ∈ service.elements, element.Accepted
    (startHandle cfg lists service.uuid :: lists.hdlListInfo.map sHandle)

section

variable (arranged : Arranged lists) {gattIf : Nat} {service : NewService}
  (own : service.uuid ∉ configuredServices) (small : service.size < 65536)
include arranged own small

theorem addServiceCall_cases {appUuid : Uuid} (registered : regcb gattIf = some appUuid) :
    (0xFFFF - startHandle cfg lists service.uuid + 1 < service.size ∧
        addServiceCall cfg regcb lists gattIf service = some (false, lists)) ∨
      (startHandle cfg lists service.uuid + service.size = 65536 ∧
        addServiceCall cfg regcb lists gattIf service = none) ∨
      (startHandle cfg lists service.uuid + service.size < 65536 ∧
        ∃ item : HdlListElem, item.sHandle = startHandle cfg lists service.uuid ∧ item.Sound ∧
          ((¬AllAccepted cfg lists service ∧
            addServiceCall cfg regcb lists gattIf service = some (false,
              { lists with hdlListInfo := gattAddAnItemToList item lists.hdlListInfo })) ∨
          (AllAccepted cfg lists service ∧ ∃ started : ActiveService, started.IsOf item ∧
            addServiceCall cfg regcb lists gattIf service = some (true,
              { hdlListInfo := gattAddAnItemToList item lists.hdlListInfo
                srvListInfo := startService started lists.srvListInfo })))) := by
  obtain ⟨-, positive, word⟩ := startHandle_behind cfg arranged own
  have one : 0 < service.size := by
    rw [NewService.size]
    exact Nat.add_pos_left Nat.one_pos _
  rw [addServiceCall, registered]
  dsimp only
  rw [Nat.mod_eq_of_lt small]
  by_cases space : service.size > 0xFFFF - startHandle cfg lists service.uuid + 1
  · rw [if_pos space]
    exact .inl ⟨space, rfl⟩
  · rw [if_neg space]
    rcases gattsInitServiceDb_cases service.uuid service.isPrimary word one (Nat.not_lt.mp space)
      with ⟨top, none⟩ | ⟨below, db, some, owner, ends, next⟩
    · rw [none]
      exact .inr (.inl ⟨top, rfl⟩)
    · refine .inr (.inr ⟨below, ?_⟩)
      rw [some, Option.bind_some, Nat.mod_eq_of_lt (by omega)]
      have room : db.nextHandle + (service.elements.map ServiceElement.size).sum ≤ db.endHandle := by
        rw [next, ends, NewService.size]
        omega
      obtain ⟨grown, formed, more, outcome⟩ := addServiceElements_cases
        (gattAddAnItemToList ⟨appUuid, service.uuid, startHandle cfg lists service.uuid,
          startHandle cfg lists service.uuid + service.size - 1, service.isPrimary, db⟩
          lists.hdlListInfo) (gattsInitServiceDb_formed some) room
      refine ⟨⟨appUuid, service.uuid, startHandle cfg lists service.uuid,
        startHandle cfg lists service.uuid + service.size - 1, service.isPrimary, grown⟩, rfl,
        ⟨positive, formed, ?_, serviceUuidOf_extends more owner⟩, ?_⟩
      · rw [more.endHandle, ends]
        dsimp only
        omega
      · simp only [accepted_insert] at outcome
        rcases outcome with ⟨accepted, built⟩ | ⟨wrong, refused⟩
        · rw [built]
          exact .inr ⟨accepted, _, ⟨rfl, rfl, rfl, rfl⟩, rfl⟩
        · rw [refused]
          exact .inl ⟨wrong, rfl⟩

theorem Arranged.addServiceCall {success : Bool}
    (done : addServiceCall cfg regcb lists gattIf service = some (success, next)) :
    Arranged next := by
  cases registered : regcb gattIf with
  | none =>
    rw [Legacy.addServiceCall, registered] at done
    cases done
    exact arranged
  | some appUuid =>
    have behind := (startHandle_behind cfg arranged own).1
    rcases @addServiceCall_cases _ _ cfg arranged _ _ own small _ registered with
      ⟨-, same⟩ | ⟨-, none⟩ | ⟨-, item, start, sound, ⟨-, refused⟩ | ⟨-, started, isOf, added⟩⟩
    · cases same.symm.trans done
      exact arranged
    · cases none.symm.trans done
    · cases refused.symm.trans done
      exact arranged.insertRange sound (start ▸ behind)
    · cases added.symm.trans done
      have inserted := arranged.insertRange sound (start ▸ behind)
      refine inserted.startService (mem_insertAt.mpr (.inl rfl)) isOf ?_
      intro other active
      obtain ⟨elem, listed, same⟩ := arranged.active other active
      rw [same.eHdl, start]
      exact behind elem listed

end

/-! ## Sequences of calls -/

/-- A service of an application that needs at most 65535 handles. -/
def ServiceCall.Ordinary : ServiceCall → Prop
  | .addService _ service => service.uuid ∉ configuredServices ∧ service.size ≤ 65535
  | .stopService _ => True
  | .deleteService _ _ _ => True

theorem Arranged.step (arranged : Arranged lists) {call : ServiceCall} (ordinary : call.Ordinary)
    (taken : serviceStep cfg regcb lists call = some next) :
    Arranged next := by
  obtain ⟨⟨success, after⟩, done, rfl⟩ := Option.map_eq_some_iff.mp taken
  cases call with
  | addService gattIf service =>
    exact arranged.addServiceCall ordinary.1 (Nat.lt_succ_of_le ordinary.2) done
  | stopService serviceHandle =>
    cases done
    exact arranged.stopService serviceHandle
  | deleteService gattIf svcUuid svcInst =>
    rw [serviceCall] at done
    exact Option.some.inj done ▸ arranged.deleteService regcb gattIf svcUuid svcInst

theorem arranged_of_run {calls : List ServiceCall} (ordinary : ∀ call ∈ calls, call.Ordinary)
    (reached : run (serviceStep cfg regcb) ⟨[], []⟩ calls = some lists) : Arranged lists :=
  invariant_along (fun _ _ _ kept here taken => kept.step here taken) arranged_empty
    (along_of_mem (fun call listed _ => ordinary call listed) _) reached

/--
The attributes of each service have consecutive handles from the start of its range on, the
ranges are disjoint, and the active services are sorted.
-/
structure WellArranged (lists : ServiceLists) : Prop where
  consecutive : ∀ elem ∈ lists.hdlListInfo,
    elem.svcDb.attrList.map Attr.handle = List.range' elem.sHandle elem.svcDb.attrList.length
  inside : ∀ elem ∈ lists.hdlListInfo, ∀ attr ∈ elem.svcDb.attrList,
    elem.sHandle ≤ attr.handle ∧ attr.handle ≤ elem.eHandle
  disjoint : lists.hdlListInfo.Pairwise fun first second =>
    first.eHandle < second.sHandle ∨ second.eHandle < first.sHandle
  sorted : lists.srvListInfo.Pairwise fun first second => first.sHdl < second.sHdl

theorem Arranged.wellArranged (arranged : Arranged lists) :
    WellArranged lists where
  consecutive := fun elem listed => (arranged.sound elem listed).formed.consecutive
  inside := by
    intro elem listed attr member
    have sound := arranged.sound elem listed
    have handle : attr.handle ∈ List.range' elem.sHandle elem.svcDb.attrList.length :=
      sound.formed.consecutive ▸ mem_map_of_mem member
    rw [mem_range'_1] at handle
    have next := sound.formed.next
    have inside := sound.formed.inside
    have reach := sound.reach
    omega
  disjoint := arranged.descending.imp .inr
  sorted := by
    refine arranged.ascending.imp_of_mem fun {first second} listed _ less => ?_
    obtain ⟨elem, range, same⟩ := arranged.active first listed
    have ordered := (arranged.sound elem range).ordered.1
    rw [← same.sHdl, ← same.eHdl] at ordered
    omega

/-- What an active service needs to be one of the services that requests are answered from. -/
structure ActiveService.Served (service : ActiveService) : Prop where
  positive : 0 < service.sHdl
  formed : service.db.Formed service.sHdl
  reach : service.db.endHandle = service.eHdl + 1

def ActiveService.toElem (service : ActiveService) (served : service.Served) : SrvListElem :=
  ⟨service.sHdl, service.eHdl, service.gattIf, service.isPrimary, service.db, served.positive,
    served.formed, served.reach⟩

theorem Arranged.served (arranged : Arranged lists) :
    ∀ service ∈ lists.srvListInfo, service.Served := by
  intro service listed
  obtain ⟨elem, range, same⟩ := arranged.active service listed
  have sound := arranged.sound elem range
  refine ⟨?_, ?_, ?_⟩
  · rw [same.sHdl]
    exact sound.positive
  · rw [same.sHdl, same.db]
    exact sound.formed
  · rw [same.db, same.eHdl]
    exact sound.reach

/-- The services that requests are answered from, after any calls. -/
def Arranged.srvListInfo {lists : ServiceLists} (arranged : Arranged lists) : SrvListInfo where
  services := lists.srvListInfo.pmap ActiveService.toElem arranged.served
  ascending := by
    refine arranged.ascending.pmap arranged.served fun first _ second _ less => ?_
    exact less

/-- The call does not abort, and if it fails, the lists are as before. -/
def CallSafe (cfg : HdlCfg) (regcb : Nat → Option Uuid) (lists : ServiceLists)
    (call : ServiceCall) : Prop :=
  ∃ success next, serviceCall cfg regcb lists call = some (success, next) ∧
    (success = false → next = lists)

/--
A service of a registered application that finds its handles does not reach handle `0xFFFF`,
and all its elements are accepted.
-/
def Acceptable (cfg : HdlCfg) (regcb : Nat → Option Uuid) (lists : ServiceLists) :
    ServiceCall → Prop
  | .addService gattIf service => regcb gattIf ≠ none →
      service.size ≤ 0xFFFF - startHandle cfg lists service.uuid + 1 →
        startHandle cfg lists service.uuid + service.size - 1 ≠ 0xFFFF ∧
          AllAccepted cfg lists service
  | .stopService _ => True
  | .deleteService _ _ _ => True

theorem addService_safe_iff (arranged : Arranged lists) {service : NewService}
    (own : service.uuid ∉ configuredServices) (small : service.size < 65536) (gattIf : Nat) :
    CallSafe cfg regcb lists (.addService gattIf service) ↔
      Acceptable cfg regcb lists (.addService gattIf service) := by
  rw [CallSafe, serviceCall]
  cases registered : regcb gattIf with
  | none =>
    rw [addServiceCall, registered]
    exact iff_of_true ⟨false, lists, rfl, fun _ => rfl⟩ fun some => absurd registered some
  | some appUuid =>
    have known : regcb gattIf ≠ none := by
      rw [registered]
      exact Option.some_ne_none appUuid
    obtain ⟨-, -, -⟩ := startHandle_behind cfg arranged own
    rcases @addServiceCall_cases _ _ cfg arranged _ _ own small _ registered with
      ⟨full, same⟩ | ⟨top, none⟩ | ⟨below, item, -, -, ⟨wrong, refused⟩ | ⟨accepted, _, -, added⟩⟩
    · rw [same]
      exact iff_of_true ⟨false, lists, rfl, fun _ => rfl⟩
        fun _ space => absurd full (Nat.not_lt.mpr space)
    · rw [none]
      refine iff_of_false ?_ fun acceptable => (acceptable known (by omega)).1 (by omega)
      rintro ⟨success, next, done, -⟩
      cases done
    · rw [refused]
      refine iff_of_false ?_ fun acceptable => wrong (acceptable known (by omega)).2
      rintro ⟨success, next, done, unchanged⟩
      cases done
      have longer := congrArg (fun lists => lists.hdlListInfo.length) (unchanged rfl)
      rw [gattAddAnItemToList, (perm_insertAt item lists.hdlListInfo).length_eq,
        length_cons] at longer
      omega
    · rw [added]
      exact iff_of_true ⟨true, _, rfl, fun false => absurd false.symm Bool.false_ne_true⟩
        fun _ _ => ⟨by omega, accepted⟩

theorem deleteService_safe (cfg : HdlCfg) (regcb : Nat → Option Uuid) (lists : ServiceLists)
    (gattIf : Nat) (svcUuid : Uuid) (svcInst : Nat) :
    CallSafe cfg regcb lists (.deleteService gattIf svcUuid svcInst) := by
  rw [CallSafe, serviceCall, gattsDeleteService]
  split
  · exact ⟨false, lists, rfl, fun _ => rfl⟩
  · split
    · exact ⟨false, lists, rfl, fun _ => rfl⟩
    · exact ⟨true, _, rfl, fun false => absurd false.symm Bool.false_ne_true⟩

/--
After any calls the services are well arranged, and the next call is safe if and only if it is
acceptable.
-/
theorem services_arranged_iff {cfg : HdlCfg} {regcb : Nat → Option Uuid}
    {calls : List ServiceCall} (ordinary : ∀ call ∈ calls, call.Ordinary) {lists : ServiceLists}
    (reached : run (serviceStep cfg regcb) ⟨[], []⟩ calls = some lists) {call : ServiceCall}
    (next : call.Ordinary) :
    WellArranged lists ∧ (CallSafe cfg regcb lists call ↔ Acceptable cfg regcb lists call) := by
  have arranged := arranged_of_run ordinary reached
  refine ⟨arranged.wellArranged, ?_⟩
  cases call with
  | addService gattIf service =>
    exact addService_safe_iff arranged next.1 (Nat.lt_succ_of_le next.2) gattIf
  | stopService serviceHandle =>
    exact iff_of_true ⟨true, _, rfl, fun false => absurd false.symm Bool.false_ne_true⟩ trivial
  | deleteService gattIf svcUuid svcInst =>
    exact iff_of_true (deleteService_safe cfg regcb lists gattIf svcUuid svcInst) trivial

/-- One application is registered. -/
def oneApp (gattIf : Nat) : Option Uuid := if gattIf = 1 then some emptyUuid else none

def batteryLevel : NewService :=
  ⟨from16Bit 0x180F, true, [.characteristic (from16Bit 0x2A19) 0x02 0 permRead]⟩

/-- A second battery service is added to the first one. -/
theorem services_arranged_iff_battery : ∃ lists,
    run (serviceStep .default oneApp) ⟨[], []⟩ [.addService 1 batteryLevel] = some lists ∧
      lists.srvListInfo.length = 1 ∧ WellArranged lists ∧
      CallSafe .default oneApp lists (.addService 1 batteryLevel) := by
  have ordinary : (ServiceCall.addService 1 batteryLevel).Ordinary := ⟨by decide, by decide⟩
  have safe := @services_arranged_iff .default oneApp [.addService 1 batteryLevel]
    (forall_mem_singleton.mpr ordinary) _ rfl (.addService 1 batteryLevel) ordinary
  refine ⟨_, rfl, by decide, safe.1, safe.2.mpr fun _ _ => ⟨by decide, ?_⟩⟩
  exact forall_mem_singleton.mpr ⟨by decide, by decide⟩

/-- A characteristic with a type that structures a service is refused, and its range stays. -/
theorem refused_service_keeps_range :
    ¬CallSafe .default oneApp ⟨[], []⟩
      (.addService 1 ⟨from16Bit 0x180F, true, [.descriptor charDeclareUuid permRead]⟩) := by
  rintro ⟨success, next, called, kept⟩
  have listed : (serviceCall .default oneApp ⟨[], []⟩
      (.addService 1 ⟨from16Bit 0x180F, true, [.descriptor charDeclareUuid permRead]⟩)).map
        (fun result => (result.1, result.2.hdlListInfo.length)) = some (false, 1) := by decide
  rw [called, Option.map_some] at listed
  obtain ⟨failed, one⟩ := Prod.mk.inj (Option.some.inj listed)
  rw [kept failed] at one
  cases one

/--
After any calls, the attributes of the active services are those of a list that requests are
answered from: their handles increase, and none is 0 or `0xFFFF`.
-/
theorem attributes_of_calls {cfg : HdlCfg} {regcb : Nat → Option Uuid}
    {calls : List ServiceCall} (ordinary : ∀ call ∈ calls, call.Ordinary) {lists : ServiceLists}
    (reached : run (serviceStep cfg regcb) ⟨[], []⟩ calls = some lists) :
    ∃ info : SrvListInfo,
      info.attributes = lists.srvListInfo.flatMap (fun service => service.db.attrList) ∧
      info.attributes.Pairwise (fun first second => first.handle < second.handle) ∧
      ∀ attr ∈ info.attributes, 0 < attr.handle ∧ attr.handle < 0xFFFF := by
  have arranged := arranged_of_run ordinary reached
  refine ⟨arranged.srvListInfo, ?_, ascending_flatMap arranged.srvListInfo.ascending,
    fun _ => SrvListInfo.handle_range⟩
  rw [SrvListInfo.attributes, Arranged.srvListInfo, flatMap_def, map_pmap, flatMap_def]
  simp only [ActiveService.toElem, pmap_eq_map]

theorem attributes_of_calls_battery : ∃ lists,
    run (serviceStep .default oneApp) ⟨[], []⟩ [.addService 1 batteryLevel] = some lists ∧
      ∃ info : SrvListInfo,
        info.attributes = lists.srvListInfo.flatMap fun service => service.db.attrList := by
  obtain ⟨lists, reached⟩ := Option.isSome_iff_exists.mp
    (show (run (serviceStep .default oneApp) ⟨[], []⟩ [.addService 1 batteryLevel]).isSome by decide)
  obtain ⟨info, same, -⟩ := attributes_of_calls (fun call listed => by
    cases mem_singleton.mp listed
    exact ⟨by decide, by decide⟩) reached
  exact ⟨lists, reached, info, same⟩

end BluetoothFormal.Gatt.Legacy
