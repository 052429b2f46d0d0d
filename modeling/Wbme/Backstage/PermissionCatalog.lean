import Wbme.Backstage.FunctionAccess
import Wbme.Lib.Upsert

/-! # The permission catalog

At every start the registry of systems, sections and functions is brought to the catalog of the
code, in one transaction. The catalog has a version, which tells the readers of old grants that
what they have may mean something else.
-/

namespace Wbme.Backstage.PermissionCatalog

open Lib

structure CatalogFunction where
  code : String
  name : String
  description : String
  dataScopeOptions : List DataScope

structure CatalogSection where
  code : String
  name : String
  description : Option String
  functions : List CatalogFunction

structure CatalogSystem where
  code : String
  name : String
  productStatus : ProductStatus
  sections : List CatalogSection

def sectionKey (systemCode sectionCode : String) : String := systemCode ++ ":" ++ sectionCode

structure CatalogFunctionEntry where
  systemCode : String
  sectionCode : String
  definition : CatalogFunction
  functionSort : Nat

def flattenPermissionCatalog (catalog : List CatalogSystem) : List CatalogFunctionEntry :=
  catalog.flatMap fun system => system.sections.flatMap fun group =>
    group.functions.zipIdx.map fun fn => ⟨system.code, group.code, fn.1, fn.2⟩

def sectionKeys (catalog : List CatalogSystem) : List String :=
  catalog.flatMap fun system => system.sections.map fun group => sectionKey system.code group.code

/-- Codes are there once: those of sections in their system, the others everywhere. -/
structure WellFormed (catalog : List CatalogSystem) : Prop where
  systems : (catalog.map (·.code)).Nodup
  sections : (sectionKeys catalog).Nodup
  functions : ((flattenPermissionCatalog catalog).map (·.definition.code)).Nodup

/-! ## The registry -/

structure SystemRow where
  code : String
  name : String
  productStatus : ProductStatus
  sort : Nat

structure SectionRow where
  systemId : Nat
  code : String
  name : String
  description : Option String
  sort : Nat
deriving DecidableEq

structure FunctionRow where
  systemId : Nat
  sectionId : Nat
  code : String
  name : String
  dataScopeOptions : List DataScope
  sort : Nat
  description : Option String

/-- The tables with the numbers their next rows get, and the one row of the version. -/
structure Registry where
  systems : Table SystemRow
  sections : Table SectionRow
  functions : Table FunctionRow
  nextSystem : Nat
  nextSection : Nat
  nextFunction : Nat
  catalogVersion : Option Nat

def SectionRow.key (row : SectionRow) : Nat × String := (row.systemId, row.code)

/-- The unique indexes, and numbers that no row has yet. -/
structure Registry.Sound (r : Registry) : Prop where
  systems : KeysUnique SystemRow.code r.systems
  sections : KeysUnique SectionRow.key r.sections
  functions : KeysUnique FunctionRow.code r.functions
  nextSystem : r.systems.Below r.nextSystem
  nextSection : r.sections.Below r.nextSection
  nextFunction : r.functions.Below r.nextFunction

structure PermissionCatalogReconcileReport where
  systemsCreated : Nat
  systemsUpdated : Nat
  sectionsCreated : Nat
  sectionsUpdated : Nat
  sectionsRemoved : Nat
  functionsCreated : Nat
  functionsUpdated : Nat
  functionsRemoved : Nat
  semanticChanged : Bool
  catalogVersion : Nat

def emptyReport : PermissionCatalogReconcileReport := ⟨0, 0, 0, 0, 0, 0, 0, 0, false, 0⟩

/-! ## Reconciling -/

def systemDiffers (d : CatalogSystem × Nat) (existing : SystemRow) : Bool :=
  existing.name != d.1.name || existing.sort != d.2

def reconcileSystem : Upsert String (CatalogSystem × Nat) SystemRow
    PermissionCatalogReconcileReport where
  keyOf := SystemRow.code
  key d := d.1.code
  label d := d.1.code
  make d := ⟨d.1.code, d.1.name, d.1.productStatus, d.2⟩
  fix d row := { row with name := d.1.name, sort := d.2 }
  differs := systemDiffers
  note d existing report :=
    match existing with
    | none => { report with systemsCreated := report.systemsCreated + 1 }
    | some row =>
        if systemDiffers d row then { report with systemsUpdated := report.systemsUpdated + 1 }
        else report

structure SectionDef where
  systemCode : String
  systemId : Nat
  definition : CatalogSection
  sort : Nat

def sectionDiffers (d : SectionDef) (existing : SectionRow) : Bool :=
  existing.name != d.definition.name || existing.sort != d.sort

def reconcileSection : Upsert (Nat × String) SectionDef SectionRow
    PermissionCatalogReconcileReport where
  keyOf := SectionRow.key
  key d := (d.systemId, d.definition.code)
  label d := sectionKey d.systemCode d.definition.code
  make d := ⟨d.systemId, d.definition.code, d.definition.name, d.definition.description, d.sort⟩
  fix d row := { row with name := d.definition.name, sort := d.sort }
  differs := sectionDiffers
  note d existing report :=
    match existing with
    | none => { report with sectionsCreated := report.sectionsCreated + 1 }
    | some row =>
        if sectionDiffers d row then { report with sectionsUpdated := report.sectionsUpdated + 1 }
        else report

structure FunctionDef where
  systemId : Nat
  sectionId : Nat
  entry : CatalogFunctionEntry

/-- What changes the meaning of grants: the places of a function, or its scopes. -/
def semanticChanged (d : FunctionDef) (existing : FunctionRow) : Bool :=
  existing.systemId != d.systemId || existing.sectionId != d.sectionId ||
    existing.dataScopeOptions != d.entry.definition.dataScopeOptions

def displayChanged (d : FunctionDef) (existing : FunctionRow) : Bool :=
  existing.name != d.entry.definition.name || existing.sort != d.entry.functionSort

def reconcileFunction : Upsert String FunctionDef FunctionRow
    PermissionCatalogReconcileReport where
  keyOf := FunctionRow.code
  key d := d.entry.definition.code
  label d := d.entry.definition.code
  make d :=
    { systemId := d.systemId
      sectionId := d.sectionId
      code := d.entry.definition.code
      name := d.entry.definition.name
      dataScopeOptions := d.entry.definition.dataScopeOptions
      sort := d.entry.functionSort
      description := some d.entry.definition.description }
  fix d row :=
    { row with
      systemId := d.systemId
      sectionId := d.sectionId
      name := d.entry.definition.name
      dataScopeOptions := d.entry.definition.dataScopeOptions
      sort := d.entry.functionSort }
  differs d row := semanticChanged d row || displayChanged d row
  note d existing report :=
    match existing with
    | none =>
        { report with functionsCreated := report.functionsCreated + 1, semanticChanged := true }
    | some row =>
        if semanticChanged d row || displayChanged d row then
          { report with
            functionsUpdated := report.functionsUpdated + 1
            semanticChanged := report.semanticChanged || semanticChanged d row }
        else report

def sectionDefs (systemIds : String → Option Nat) (catalog : List CatalogSystem) :
    List SectionDef :=
  catalog.flatMap fun system => system.sections.zipIdx.map fun group =>
    ⟨system.code, (systemIds system.code).getD 0, group.1, group.2⟩

def functionDef (systemIds sectionIds : String → Option Nat) (entry : CatalogFunctionEntry) :
    FunctionDef where
  systemId := (systemIds entry.systemCode).getD 0
  sectionId := (sectionIds (sectionKey entry.systemCode entry.sectionCode)).getD 0
  entry

def functionDefs (systemIds sectionIds : String → Option Nat) (catalog : List CatalogSystem) :
    List FunctionDef := (flattenPermissionCatalog catalog).map (functionDef systemIds sectionIds)

def staleFunctions (catalog : List CatalogSystem) (functions : Table FunctionRow) :
    List (Nat × FunctionRow) :=
  functions.select fun _ row =>
    row.code ∉ (flattenPermissionCatalog catalog).map (·.definition.code)

def staleSections (catalog : List CatalogSystem) (systems : Table SystemRow)
    (sections : Table SectionRow) (functions : Table FunctionRow) : List (Nat × SectionRow) :=
  sections.select fun id row =>
    ((systems.find? row.systemId).all fun system =>
      sectionKey system.code row.code ∉ sectionKeys catalog) &&
    (functions.select fun _ f => f.sectionId = id).isEmpty

/-- The first name that no row is noted under. -/
def unregistered (ids : String → Option Nat) (labels : List String) : Option String :=
  labels.find? fun label => (ids label).isNone

def reconcileSystems (catalog : List CatalogSystem) (r : Registry) :
    Upserting SystemRow PermissionCatalogReconcileReport :=
  reconcileSystem.all r.systems r.nextSystem emptyReport catalog.zipIdx

def reconcileSections (catalog : List CatalogSystem) (r : Registry) :
    Upserting SectionRow PermissionCatalogReconcileReport :=
  reconcileSection.all r.sections r.nextSection (reconcileSystems catalog r).report
    (sectionDefs (reconcileSystems catalog r).ids catalog)

/-- The new and the changed functions; those to be removed are still there. -/
def reconcileFunctions (catalog : List CatalogSystem) (r : Registry) :
    Upserting FunctionRow PermissionCatalogReconcileReport :=
  reconcileFunction.all r.functions r.nextFunction (reconcileSections catalog r).report
    (functionDefs (reconcileSystems catalog r).ids (reconcileSections catalog r).ids catalog)

def keptFunctions (catalog : List CatalogSystem) (r : Registry) : Table FunctionRow :=
  (reconcileFunctions catalog r).table.deleteMany fun id _ =>
    (staleFunctions catalog r.functions).any fun row => row.1 == id

def emptiedSections (catalog : List CatalogSystem) (r : Registry) : List (Nat × SectionRow) :=
  staleSections catalog (reconcileSystems catalog r).table (reconcileSections catalog r).table
    (keptFunctions catalog r)

/-- Whether the catalog gives grants another meaning. -/
def meaningChanged (catalog : List CatalogSystem) (r : Registry) : Bool :=
  (reconcileFunctions catalog r).report.semanticChanged ||
    !(staleFunctions catalog r.functions).isEmpty

/-- The state and the report behind the last step, when every name was noted. -/
def reconciled (catalog : List CatalogSystem) (r : Registry) :
    Registry × PermissionCatalogReconcileReport :=
  let version := r.catalogVersion.getD 0 + if meaningChanged catalog r then 1 else 0
  ({ systems := (reconcileSystems catalog r).table
     sections := (reconcileSections catalog r).table.deleteMany fun id _ =>
       (emptiedSections catalog r).any fun row => row.1 == id
     functions := keptFunctions catalog r
     nextSystem := (reconcileSystems catalog r).nextId
     nextSection := (reconcileSections catalog r).nextId
     nextFunction := (reconcileFunctions catalog r).nextId
     catalogVersion := some version },
   { (reconcileFunctions catalog r).report with
     sectionsRemoved := (emptiedSections catalog r).length
     functionsRemoved := (staleFunctions catalog r.functions).length
     semanticChanged := meaningChanged catalog r
     catalogVersion := version })

def reconcilePermissionCatalog (catalog : List CatalogSystem) (r : Registry) :
    Except String (Registry × PermissionCatalogReconcileReport) :=
  match unregistered (reconcileSystems catalog r).ids (catalog.map (·.code)) with
  | some code => .error s!"权限目录对账内部错误：系统 {code} 未注册"
  | none =>
      match unregistered (reconcileSections catalog r).ids (sectionKeys catalog) with
      | some key => .error s!"权限目录对账内部错误：板块 {key} 未注册"
      | none => .ok (reconciled catalog r)

/-! ## The three levels -/

theorem lawful_system : reconcileSystem.Lawful where
  keyOf_make _ := rfl
  keyOf_fix _ _ := rfl
  same d row h := by
    simp only [reconcileSystem, systemDiffers, Bool.or_eq_false_iff, bne_eq_false_iff_eq] at h ⊢
    rw [← h.1, ← h.2]
  quiet d row report h := if_neg (ne_true_of_eq_false h)
  fixed d row := by simp [reconcileSystem, systemDiffers]
  made d := by simp [reconcileSystem, systemDiffers]

theorem lawful_section : reconcileSection.Lawful where
  keyOf_make _ := rfl
  keyOf_fix _ _ := rfl
  same d row h := by
    simp only [reconcileSection, sectionDiffers, Bool.or_eq_false_iff, bne_eq_false_iff_eq] at h ⊢
    rw [← h.1, ← h.2]
  quiet d row report h := if_neg (ne_true_of_eq_false h)
  fixed d row := by simp [reconcileSection, sectionDiffers]
  made d := by simp [reconcileSection, sectionDiffers]

theorem lawful_function : reconcileFunction.Lawful where
  keyOf_make _ := rfl
  keyOf_fix _ _ := rfl
  same d row h := by
    simp only [reconcileFunction, semanticChanged, displayChanged, Bool.or_eq_false_iff,
      bne_eq_false_iff_eq] at h ⊢
    obtain ⟨⟨⟨hsystem, hsection⟩, hoptions⟩, hname, hsort⟩ := h
    rw [← hsystem, ← hsection, ← hoptions, ← hname, ← hsort]
  quiet d row report h := if_neg (ne_true_of_eq_false h)
  fixed d row := by simp [reconcileFunction, semanticChanged, displayChanged]
  made d := by simp [reconcileFunction, semanticChanged, displayChanged]

variable {functions : Table FunctionRow} {catalog : List CatalogSystem} {e : CatalogFunctionEntry}
  {α : Type}

theorem exists_zipIdx {xs : List α} {x : α} (h : x ∈ xs) : ∃ i, (x, i) ∈ xs.zipIdx := by
  obtain ⟨i, hi, hx⟩ := List.getElem_of_mem h
  exact ⟨i, List.mk_mem_zipIdx_iff_getElem?.mpr (by rw [List.getElem?_eq_getElem hi, hx])⟩

theorem map_zipIdx {α β : Type} (xs : List α) (f : α → β) :
    xs.zipIdx.map (fun x => f x.1) = xs.map f := by
  rw [show (fun x : α × Nat => f x.1) = f ∘ Prod.fst from rfl, ← List.map_map,
    List.zipIdx_map_fst]

theorem unregistered_eq_none {ids : String → Option Nat} {labels : List String} :
    unregistered ids labels = none ↔ ∀ label ∈ labels, ∃ id, ids label = some id := by
  simp [unregistered, Option.ne_none_iff_exists']

theorem map_label_sectionDefs (ids : String → Option Nat) (catalog : List CatalogSystem) :
    (sectionDefs ids catalog).map reconcileSection.label = sectionKeys catalog := by
  rw [sectionDefs, List.map_flatMap, sectionKeys]
  congr 1
  funext system
  rw [List.map_map]
  exact map_zipIdx system.sections fun group => sectionKey system.code group.code

section Levels

variable {catalog : List CatalogSystem} {r : Registry} (hw : WellFormed catalog) (hr : r.Sound)

include hw hr

theorem systems_done :
    reconcileSystem.Done r.systems catalog.zipIdx (reconcileSystems catalog r) := by
  have hcodes : (catalog.zipIdx.map fun d => d.1.code).Nodup := by
    rw [map_zipIdx catalog (·.code)]
    exact hw.systems
  exact Upsert.done_all lawful_system hr.systems hr.nextSystem _ hcodes hcodes

theorem system_row {system : CatalogSystem} (h : system ∈ catalog) : ∃ id row,
    (reconcileSystems catalog r).ids system.code = some id ∧
      (reconcileSystems catalog r).table.find? id = some row ∧ row.code = system.code := by
  obtain ⟨i, hi⟩ := exists_zipIdx h
  obtain ⟨id, row, hid, hrow, hkey, -⟩ := (systems_done hw hr).right lawful_system hi
  exact ⟨id, row, hid, hrow, hkey⟩

theorem sections_done : reconcileSection.Done r.sections
    (sectionDefs (reconcileSystems catalog r).ids catalog) (reconcileSections catalog r) := by
  have hlabels : ((sectionDefs (reconcileSystems catalog r).ids catalog).map
      reconcileSection.label).Nodup := by
    rw [map_label_sectionDefs]
    exact hw.sections
  refine Upsert.done_all lawful_section hr.sections hr.nextSection _ ?_ hlabels
  -- two systems do not share a number
  refine (List.nodup_map_iff_inj_on hlabels.of_map).mpr fun d hd d' hd' hkey =>
    List.inj_on_of_nodup_map hlabels hd hd' ?_
  simp only [sectionDefs, List.mem_flatMap, List.mem_map] at hd hd'
  obtain ⟨system, hsystem, group, -, rfl⟩ := hd
  obtain ⟨system', hsystem', group', -, rfl⟩ := hd'
  obtain ⟨id, row, hid, hrow, hcode⟩ := system_row hw hr hsystem
  obtain ⟨id', row', hid', hrow', hcode'⟩ := system_row hw hr hsystem'
  obtain ⟨hids, hcodes⟩ := Prod.mk.inj hkey
  simp only [hid, hid', Option.getD_some] at hids
  subst hids
  obtain rfl := Option.some.inj (hrow.symm.trans hrow')
  show sectionKey system.code group.1.code = sectionKey system'.code group'.1.code
  rw [← hcode, ← hcode', show group.1.code = group'.1.code from hcodes]

theorem functions_done : reconcileFunction.Done r.functions
    (functionDefs (reconcileSystems catalog r).ids (reconcileSections catalog r).ids catalog)
      (reconcileFunctions catalog r) := by
  have hcodes : ((functionDefs (reconcileSystems catalog r).ids
      (reconcileSections catalog r).ids catalog).map reconcileFunction.key).Nodup := by
    rw [functionDefs, List.map_map]
    exact hw.functions
  exact Upsert.done_all lawful_function hr.functions hr.nextFunction _ hcodes hcodes

theorem section_row {key : String} (h : key ∈ sectionKeys catalog) : ∃ d ∈ sectionDefs
    (reconcileSystems catalog r).ids catalog, reconcileSection.label d = key ∧ ∃ id row,
      (reconcileSections catalog r).ids key = some id ∧
        (reconcileSections catalog r).table.find? id = some row ∧
          row.key = (d.systemId, d.definition.code) := by
  rw [← map_label_sectionDefs (reconcileSystems catalog r).ids] at h
  obtain ⟨d, hd, hlabel⟩ := List.mem_map.mp h
  obtain ⟨id, row, hid, hrow, hkey, -⟩ := (sections_done hw hr).right lawful_section hd
  exact ⟨d, hd, hlabel, id, row, hlabel ▸ hid, hrow, hkey⟩

theorem reconcile_ok : reconcilePermissionCatalog catalog r = .ok (reconciled catalog r) := by
  have hsystems : unregistered (reconcileSystems catalog r).ids (catalog.map (·.code)) = none := by
    refine unregistered_eq_none.mpr fun code hcode => ?_
    obtain ⟨system, hsystem, rfl⟩ := List.mem_map.mp hcode
    obtain ⟨id, -, hid, -⟩ := system_row hw hr hsystem
    exact ⟨id, hid⟩
  have hsections : unregistered (reconcileSections catalog r).ids (sectionKeys catalog) = none := by
    refine unregistered_eq_none.mpr fun key hkey => ?_
    obtain ⟨-, -, -, id, -, hid, -⟩ := section_row hw hr hkey
    exact ⟨id, hid⟩
  rw [reconcilePermissionCatalog, hsystems]
  dsimp only
  rw [hsections]

end Levels

/-! ## What is removed -/

def codes (catalog : List CatalogSystem) : List String :=
  (flattenPermissionCatalog catalog).map (·.definition.code)

variable {id : Nat} {row : FunctionRow}

theorem find?_deleteIds {t : Table α} {rows : List (Nat × α)} {row : α} :
    (t.deleteMany fun id _ => rows.any fun x => x.1 == id).find? id = some row ↔
      t.find? id = some row ∧ ∀ x ∈ rows, x.1 ≠ id := by
  have hany : (rows.any fun x => x.1 == id) = false ↔ ∀ x ∈ rows, x.1 ≠ id := by simp
  rw [Table.find?_deleteMany, Option.bind_eq_some_iff, ← hany]
  cases rows.any fun x => x.1 == id <;> simp

theorem deleteIds_nil (t : Table α) :
    (t.deleteMany fun id _ => ([] : List (Nat × α)).any fun row => row.1 == id) = t :=
  Table.ext_find? fun id => by
    ext row
    rw [find?_deleteIds]
    simp

theorem mem_staleFunctions {x : Nat × FunctionRow} : x ∈ staleFunctions catalog functions ↔
      functions.find? x.1 = some x.2 ∧ x.2.code ∉ codes catalog := by
  rw [staleFunctions, Table.mem_select, codes, decide_eq_true_iff]

theorem mem_staleSections {systems : Table SystemRow} {sections : Table SectionRow}
    {x : Nat × SectionRow} :
    x ∈ staleSections catalog systems sections functions ↔ sections.find? x.1 = some x.2 ∧
      (∀ system, systems.find? x.2.systemId = some system →
        sectionKey system.code x.2.code ∉ sectionKeys catalog) ∧
      ∀ j f, functions.find? j = some f → f.sectionId ≠ x.1 := by
  rw [staleSections, Table.mem_select, Bool.and_eq_true, Option.all_eq_true, List.isEmpty_iff,
    List.eq_nil_iff_forall_not_mem]
  simp [Table.mem_select]

section Removal

variable {catalog : List CatalogSystem} {r : Registry} (hw : WellFormed catalog) (hr : r.Sound)

theorem mem_functionDefs_codes {systemIds sectionIds : String → Option Nat} {d : FunctionDef}
    (hd : d ∈ functionDefs systemIds sectionIds catalog) :
    d.entry.definition.code ∈ codes catalog := by
  obtain ⟨entry, hentry, rfl⟩ := List.mem_map.mp hd
  exact List.mem_map_of_mem hentry

include hw hr

theorem find?_keptFunctions :
    (keptFunctions catalog r).find? id = some row ↔
      (reconcileFunctions catalog r).table.find? id = some row ∧ row.code ∈ codes catalog := by
  have hothers : ∀ i f, f.code ∉ codes catalog →
      ((reconcileFunctions catalog r).table.find? i = some f ↔ r.functions.find? i = some f) :=
    fun i f hf => (functions_done hw hr).others i f fun d hd hkey =>
      hf ((show d.entry.definition.code = f.code from hkey) ▸ mem_functionDefs_codes hd)
  rw [keptFunctions, find?_deleteIds]
  refine and_congr_right fun hrow => ?_
  constructor
  · intro hkept
    by_contra hcode
    exact hkept (id, row) (mem_staleFunctions.mpr ⟨(hothers id row hcode).mp hrow, hcode⟩) rfl
  · intro hcode x hx hid
    obtain ⟨hold, hstale⟩ := mem_staleFunctions.mp hx
    have hthere := (hothers x.1 x.2 hstale).mpr hold
    rw [hid, hrow] at hthere
    exact hstale (Option.some.inj hthere ▸ hcode)

theorem entry_places (he : e ∈ flattenPermissionCatalog catalog) :
    ∃ systemId sectionId system group,
      (reconcileSystems catalog r).ids e.systemCode = some systemId ∧
      (reconcileSystems catalog r).table.find? systemId = some system ∧
      system.code = e.systemCode ∧
      (reconcileSections catalog r).ids (sectionKey e.systemCode e.sectionCode) = some sectionId ∧
      (reconcileSections catalog r).table.find? sectionId = some group ∧
      group.key = (systemId, e.sectionCode) ∧
      sectionKey e.systemCode e.sectionCode ∈ sectionKeys catalog := by
  simp only [flattenPermissionCatalog, List.mem_flatMap, List.mem_map] at he
  obtain ⟨system, hsystem, group, hgroup, fn, -, rfl⟩ := he
  obtain ⟨id, row, hid, hrow, hcode⟩ := system_row hw hr hsystem
  obtain ⟨i, hi⟩ := exists_zipIdx hgroup
  have hd : (⟨system.code, id, group, i⟩ : SectionDef) ∈
      sectionDefs (reconcileSystems catalog r).ids catalog :=
    List.mem_flatMap.mpr ⟨system, hsystem, List.mem_map.mpr ⟨(group, i), hi, by rw [hid]; rfl⟩⟩
  obtain ⟨id', row', hid', hrow', hkey, -⟩ := (sections_done hw hr).right lawful_section hd
  have hlabel := List.mem_map_of_mem (f := reconcileSection.label) hd
  rw [map_label_sectionDefs] at hlabel
  exact ⟨id, id', row, row', hid, hrow, hcode, hid', hrow', hkey, hlabel⟩

end Removal

/-! ## What a run leaves -/

structure Matches (r : Registry) (e : CatalogFunctionEntry) (f : FunctionRow) : Prop where
  code : f.code = e.definition.code
  name : f.name = e.definition.name
  dataScopeOptions : f.dataScopeOptions = e.definition.dataScopeOptions
  sort : f.sort = e.functionSort
  system : ∃ system, r.systems.find? f.systemId = some system ∧ system.code = e.systemCode
  group : ∃ group, r.sections.find? f.sectionId = some group ∧
    group.systemId = f.systemId ∧ group.code = e.sectionCode

/-- A function came or went, or has other places or scopes. -/
def GrantsChanged (r r' : Registry) : Prop :=
  ∃ id, match r.functions.find? id, r'.functions.find? id with
    | none, none => False
    | some f, some f' => f'.systemId ≠ f.systemId ∨ f'.sectionId ≠ f.sectionId ∨
        f'.dataScopeOptions ≠ f.dataScopeOptions
    | _, _ => True

structure Reconciled (catalog : List CatalogSystem) (r r' : Registry) : Prop where
  /-- The stored functions are those of the catalog, each once. -/
  complete : ∀ e ∈ flattenPermissionCatalog catalog, ∃ id f,
    r'.functions.find? id = some f ∧ Matches r' e f
  only : ∀ id f, r'.functions.find? id = some f →
    ∃ e ∈ flattenPermissionCatalog catalog, Matches r' e f
  sound : r'.Sound
  /-- Nothing goes but stale functions, and stale sections that no function is in. -/
  systems : ∀ id row, r.systems.find? id = some row → ∃ row', r'.systems.find? id = some row' ∧
    row'.code = row.code ∧ row'.productStatus = row.productStatus
  sections : ∀ id row, r.sections.find? id = some row →
    (∃ row', r'.sections.find? id = some row' ∧ row'.key = row.key ∧
      row'.description = row.description) ∨
    (r'.sections.find? id = none ∧ (∀ j f, r'.functions.find? j = some f → f.sectionId ≠ id) ∧
      ∀ system, r'.systems.find? row.systemId = some system →
        sectionKey system.code row.code ∉ sectionKeys catalog)
  functions : ∀ id row, r.functions.find? id = some row →
    (∃ row', r'.functions.find? id = some row' ∧ row'.code = row.code ∧
      row'.description = row.description) ∨
    (r'.functions.find? id = none ∧ row.code ∉ codes catalog)
  version : (GrantsChanged r r' ∧ r'.catalogVersion = some (r.catalogVersion.getD 0 + 1)) ∨
    (¬ GrantsChanged r r' ∧ r'.catalogVersion = some (r.catalogVersion.getD 0))

section Runs

variable {catalog : List CatalogSystem} {r : Registry} (hw : WellFormed catalog) (hr : r.Sound)

theorem find?_sections {row : SectionRow} :
    (reconciled catalog r).1.sections.find? id = some row ↔
      (reconcileSections catalog r).table.find? id = some row ∧
        (id, row) ∉ emptiedSections catalog r := by
  refine find?_deleteIds.trans (and_congr_right fun hrow => ?_)
  constructor
  · exact fun hkept hmem => hkept _ hmem rfl
  · intro hkept x hx hid
    have hthere := (mem_staleSections.mp hx).1
    rw [hid, hrow] at hthere
    exact hkept (by rw [← hid, Option.some.inj hthere]; exact hx)

theorem semanticChanged_foldl (look : FunctionDef → Option FunctionRow) (defs : List FunctionDef)
    (report : PermissionCatalogReconcileReport) :
    (defs.foldl (fun report d => reconcileFunction.note d (look d) report) report).semanticChanged =
      (report.semanticChanged || defs.any fun d => (look d).all (semanticChanged d)) := by
  induction defs generalizing report with
  | nil => simp
  | cons d defs ih =>
      rw [List.foldl_cons, ih, List.any_cons, ← Bool.or_assoc]
      congr 1
      cases hlook : look d with
      | none => simp [reconcileFunction]
      | some row =>
          cases hsemantic : semanticChanged d row with
          | true => simp [reconcileFunction, hsemantic]
          | false =>
              simp only [reconcileFunction, hsemantic, Bool.false_or, Option.all_some]
              split <;> simp

theorem semanticChanged_iff {d : FunctionDef} :
    semanticChanged d row = true ↔ (reconcileFunction.fix d row).systemId ≠ row.systemId ∨
      (reconcileFunction.fix d row).sectionId ≠ row.sectionId ∨
        (reconcileFunction.fix d row).dataScopeOptions ≠ row.dataScopeOptions := by
  rw [semanticChanged, Bool.or_eq_true, Bool.or_eq_true, bne_iff_ne, bne_iff_ne, bne_iff_ne,
    or_assoc, ne_comm, ne_comm (a := row.sectionId), ne_comm (a := row.dataScopeOptions)]
  rfl

theorem meaningChanged_eq : meaningChanged catalog r = true ↔
    (∃ d ∈ functionDefs (reconcileSystems catalog r).ids (reconcileSections catalog r).ids catalog,
      (lookup FunctionRow.code r.functions d.entry.definition.code).all
        (fun x => semanticChanged d x.2) = true) ∨
      ∃ x, x ∈ staleFunctions catalog r.functions := by
  have hsystems : (reconcileSystems catalog r).report.semanticChanged = false := by
    refine Upsert.report_keeps (u := reconcileSystem)
      (P := fun report => report.semanticChanged = false) _ rfl fun d found report h => ?_
    cases found with
    | none => exact h
    | some row =>
        simp only [reconcileSystem]
        split <;> exact h
  have hstart : (reconcileSections catalog r).report.semanticChanged = false := by
    refine Upsert.report_keeps (u := reconcileSection)
      (P := fun report => report.semanticChanged = false) _ hsystems fun d found report h => ?_
    cases found with
    | none => exact h
    | some row =>
        simp only [reconcileSection]
        split <;> exact h
  rw [meaningChanged, reconcileFunctions, Upsert.report_all, semanticChanged_foldl, hstart,
    Bool.false_or, Bool.or_eq_true, List.any_eq_true, Bool.not_eq_true',
    List.isEmpty_eq_false_iff_exists_mem]
  simp only [Option.all_map]
  rfl

theorem not_emptied {row : SectionRow} {system : SystemRow}
    (hsystem : (reconcileSystems catalog r).table.find? row.systemId = some system)
    (hdefined : sectionKey system.code row.code ∈ sectionKeys catalog) :
    (id, row) ∉ emptiedSections catalog r :=
  fun hmem => (mem_staleSections.mp hmem).2.1 system hsystem hdefined

include hw hr

theorem matches_entry (he : e ∈ flattenPermissionCatalog catalog) :
    ∃ id f, (keptFunctions catalog r).find? id = some f ∧
      Matches (reconciled catalog r).1 e f := by
  obtain ⟨systemId, sectionId, system, group, hsystemId, hsystem, hcode, hsectionId, hgroup, hkey,
    hdefined⟩ := entry_places hw hr he
  have hd := List.mem_map_of_mem (f := functionDef (reconcileSystems catalog r).ids
    (reconcileSections catalog r).ids) he
  obtain ⟨id, f, -, hf, hfkey, hright⟩ := (functions_done hw hr).right lawful_function hd
  have hfields : f.systemId = systemId ∧ f.sectionId = sectionId ∧
      f.dataScopeOptions = e.definition.dataScopeOptions ∧ f.name = e.definition.name ∧
        f.sort = e.functionSort := by
    simpa [reconcileFunction, semanticChanged, displayChanged, functionDef, hsystemId, hsectionId,
      and_assoc] using hright
  obtain ⟨hfs, hfg, hoptions, hname, hsort⟩ := hfields
  obtain ⟨hgroupSystem, hgroupCode⟩ := Prod.mk.inj hkey
  refine ⟨id, f, (find?_keptFunctions hw hr).mpr ⟨hf, ?_⟩, hfkey, hname, hoptions, hsort,
    ⟨system, hfs ▸ hsystem, hcode⟩, ⟨group, ?_, hgroupSystem.trans hfs.symm, hgroupCode⟩⟩
  · rw [show f.code = e.definition.code from hfkey]
    exact List.mem_map_of_mem he
  · refine find?_sections.mpr ⟨hfg ▸ hgroup, not_emptied (hgroupSystem.symm ▸ hsystem) ?_⟩
    rw [hcode, hgroupCode]
    exact hdefined

theorem only_entries {f : FunctionRow} (hf : (keptFunctions catalog r).find? id = some f) :
    ∃ e ∈ flattenPermissionCatalog catalog, Matches (reconciled catalog r).1 e f := by
  obtain ⟨hrow, hcode⟩ := (find?_keptFunctions hw hr).mp hf
  obtain ⟨e, he, hecode⟩ := List.mem_map.mp hcode
  obtain ⟨id', f', hf', hmatches⟩ := matches_entry hw hr he
  have hrow' := ((find?_keptFunctions hw hr).mp hf').1
  obtain rfl := (functions_done hw hr).unique id' id f' f hrow' hrow (hmatches.code.trans hecode)
  exact ⟨e, he, Option.some.inj (hrow'.symm.trans hrow) ▸ hmatches⟩

theorem sound_reconciled : (reconciled catalog r).1.Sound where
  systems := (systems_done hw hr).unique
  sections := (sections_done hw hr).unique.of_sub fun _ _ h => (find?_sections.mp h).1
  functions := (functions_done hw hr).unique.of_sub fun _ _ h =>
    ((find?_keptFunctions hw hr).mp h).1
  nextSystem := (systems_done hw hr).below
  nextSection id row h := (sections_done hw hr).below id row (find?_sections.mp h).1
  nextFunction id row h :=
    (functions_done hw hr).below id row ((find?_keptFunctions hw hr).mp h).1

theorem function_outcome (hrow : r.functions.find? id = some row) :
    (∃ d ∈ functionDefs (reconcileSystems catalog r).ids (reconcileSections catalog r).ids catalog,
      lookup FunctionRow.code r.functions d.entry.definition.code = some (id, row) ∧
        (keptFunctions catalog r).find? id = some (reconcileFunction.fix d row)) ∨
      (row.code ∉ codes catalog ∧ (keptFunctions catalog r).find? id = none) := by
  by_cases hcode : row.code ∈ codes catalog
  · obtain ⟨e, he, hecode⟩ := List.mem_map.mp hcode
    have hd := List.mem_map_of_mem (f := functionDef (reconcileSystems catalog r).ids
      (reconcileSections catalog r).ids) he
    refine .inl ⟨_, hd, hr.functions.lookup_iff.mpr ⟨hrow, hecode.symm⟩, ?_⟩
    refine (find?_keptFunctions hw hr).mpr ⟨(functions_done hw hr).find?_fix hr.functions hd hrow
      hecode.symm, hcode⟩
  · refine .inr ⟨hcode, Option.eq_none_iff_forall_ne_some.mpr fun f hf => ?_⟩
    obtain ⟨hthere, hkept⟩ := (find?_keptFunctions hw hr).mp hf
    have hsame := ((functions_done hw hr).others id row fun d hd hkey => hcode
      ((show d.entry.definition.code = row.code from hkey) ▸ mem_functionDefs_codes hd)).mpr hrow
    exact hcode (Option.some.inj (hsame.symm.trans hthere) ▸ hkept)

theorem meaningChanged_iff :
    meaningChanged catalog r = true ↔ GrantsChanged r (reconciled catalog r).1 := by
  rw [meaningChanged_eq]
  constructor
  · intro h
    rcases h with ⟨d, hd, hall⟩ | ⟨x, hx⟩
    · cases hlook : lookup FunctionRow.code r.functions d.entry.definition.code with
      | none =>
          obtain ⟨id, row, -, hrow, hsettled⟩ := (functions_done hw hr).rows d hd
          have hcode : row.code = d.entry.definition.code := hsettled.key lawful_function
          have hkept := (find?_keptFunctions hw hr).mpr
            ⟨hrow, hcode ▸ mem_functionDefs_codes hd⟩
          cases hsettled with
          | kept hold hkey => exact absurd hkey (lookup_none hlook hold)
          | made _ hnew =>
              refine ⟨id, ?_⟩
              rw [hnew, show (reconciled catalog r).1.functions.find? id = _ from hkept]
              trivial
      | some x =>
          obtain ⟨id, row⟩ := x
          obtain ⟨hold, hkey⟩ := lookup_some hlook
          have hkept := (find?_keptFunctions hw hr).mpr
            ⟨(functions_done hw hr).find?_fix hr.functions hd hold hkey,
              (hkey : row.code = _) ▸ mem_functionDefs_codes hd⟩
          refine ⟨id, ?_⟩
          rw [hold, show (reconciled catalog r).1.functions.find? id = _ from hkept]
          rw [hlook] at hall
          exact semanticChanged_iff.mp hall
    · obtain ⟨hold, hcode⟩ := mem_staleFunctions.mp hx
      rcases function_outcome hw hr hold with ⟨d, hd, hlook, -⟩ | ⟨-, hgone⟩
      · exact absurd ((lookup_some hlook).2 ▸ mem_functionDefs_codes hd) hcode
      · refine ⟨x.1, ?_⟩
        rw [hold, show (reconciled catalog r).1.functions.find? x.1 = _ from hgone]
        trivial
  · intro ⟨id, h⟩
    cases hold : r.functions.find? id with
    | none =>
        cases hnew : (keptFunctions catalog r).find? id with
        | none =>
            rw [hold, show (reconciled catalog r).1.functions.find? id = _ from hnew] at h
            exact h.elim
        | some f =>
            obtain ⟨hrow, hcode⟩ := (find?_keptFunctions hw hr).mp hnew
            obtain ⟨e, he, hecode⟩ := List.mem_map.mp hcode
            have hd := List.mem_map_of_mem (f := functionDef (reconcileSystems catalog r).ids
              (reconcileSections catalog r).ids) he
            obtain ⟨id', row, -, hrow', hsettled⟩ := (functions_done hw hr).rows _ hd
            obtain rfl := (functions_done hw hr).unique id' id row f hrow' hrow
              ((hsettled.key lawful_function).trans hecode)
            refine .inl ⟨_, hd, ?_⟩
            cases hsettled with
            | kept hthere _ => cases hold.symm.trans hthere
            | made hnone _ =>
                have hlook : lookup FunctionRow.code r.functions e.definition.code = none := hnone
                show (lookup FunctionRow.code r.functions e.definition.code).all _ = true
                rw [hlook]
                rfl
    | some row =>
        rcases function_outcome hw hr hold with ⟨d, hd, hlook, hkept⟩ | ⟨hcode, hgone⟩
        · refine .inl ⟨d, hd, ?_⟩
          rw [hold, show (reconciled catalog r).1.functions.find? id = _ from hkept] at h
          rw [hlook]
          exact semanticChanged_iff.mpr h
        · exact .inr ⟨(id, row), mem_staleFunctions.mpr ⟨hold, hcode⟩⟩

theorem reconciled_spec : Reconciled catalog r (reconciled catalog r).1 where
  complete _ he := matches_entry hw hr he
  only _ _ hf := only_entries hw hr hf
  sound := sound_reconciled hw hr
  systems id row hrow := by
    obtain ⟨row', hrow', hsame | ⟨d, -, hfix⟩⟩ := (systems_done hw hr).stays hr.systems hrow
    · exact ⟨row', hrow', by rw [hsame], by rw [hsame]⟩
    · exact ⟨row', hrow', by rw [hfix]; rfl, by rw [hfix]; rfl⟩
  sections id row hrow := by
    obtain ⟨row', hrow', hstays⟩ := (sections_done hw hr).stays hr.sections hrow
    have hsame : row'.key = row.key ∧ row'.description = row.description := by
      rcases hstays with hsame | ⟨d, -, hfix⟩
      · exact ⟨by rw [hsame], by rw [hsame]⟩
      · exact ⟨by rw [hfix]; rfl, by rw [hfix]; rfl⟩
    by_cases hmem : (id, row') ∈ emptiedSections catalog r
    · obtain ⟨-, hstale, hempty⟩ := mem_staleSections.mp hmem
      obtain ⟨hsystem, hcode⟩ := Prod.mk.inj hsame.1
      refine .inr ⟨Option.eq_none_iff_forall_ne_some.mpr fun q hq => ?_, hempty, ?_⟩
      · obtain ⟨hq, hkept⟩ := find?_sections.mp hq
        exact hkept (Option.some.inj (hrow'.symm.trans hq) ▸ hmem)
      · rw [← hsystem, ← hcode]
        exact hstale
    · exact .inl ⟨row', find?_sections.mpr ⟨hrow', hmem⟩, hsame⟩
  functions id row hrow := by
    rcases function_outcome hw hr hrow with ⟨d, -, hlook, hkept⟩ | ⟨hcode, hgone⟩
    · exact .inl ⟨_, hkept, rfl, rfl⟩
    · exact .inr ⟨hgone, hcode⟩
  version := by
    have hiff := meaningChanged_iff hw hr
    cases hchanged : meaningChanged catalog r with
    | true => exact .inl ⟨hiff.mp hchanged, by simp [reconciled, hchanged]⟩
    | false =>
        refine .inr ⟨fun h => ?_, by simp [reconciled, hchanged]⟩
        exact absurd (hiff.mpr h) (by simp [hchanged])

/-! ### Running again -/

theorem systems_again :
    (reconcileSystems catalog (reconciled catalog r).1).table = (reconcileSystems catalog r).table ∧
    (reconcileSystems catalog (reconciled catalog r).1).nextId =
      (reconcileSystems catalog r).nextId ∧
    (reconcileSystems catalog (reconciled catalog r).1).report = emptyReport := by
  refine Upsert.all_of_right lawful_system _ _ fun d hd => ?_
  obtain ⟨id, row, -, hrow, hkey, hdiff⟩ := (systems_done hw hr).right lawful_system hd
  exact ⟨(id, row), (systems_done hw hr).unique.lookup_iff.mpr ⟨hrow, hkey⟩, hdiff⟩

theorem sectionDefs_again : sectionDefs (reconcileSystems catalog (reconciled catalog r).1).ids
    catalog = sectionDefs (reconcileSystems catalog r).ids catalog := by
  refine List.flatMap_congr fun system hsystem => ?_
  obtain ⟨i, hi⟩ := exists_zipIdx hsystem
  have hids := (systems_done hw hr).ids_eq lawful_system (systems_done hw (sound_reconciled hw hr))
    (fun id row h => by rwa [(systems_again hw hr).1] at h) hi
  have hcode : (reconcileSystems catalog (reconciled catalog r).1).ids system.code =
      (reconcileSystems catalog r).ids system.code := hids
  rw [hcode]

theorem sections_again :
    (reconcileSections catalog (reconciled catalog r).1).table = (reconciled catalog r).1.sections ∧
    (reconcileSections catalog (reconciled catalog r).1).nextId =
      (reconcileSections catalog r).nextId ∧
    (reconcileSections catalog (reconciled catalog r).1).report = emptyReport := by
  have hright : ∀ d ∈ sectionDefs (reconcileSystems catalog r).ids catalog,
      ∃ x, lookup SectionRow.key (reconciled catalog r).1.sections (reconcileSection.key d) =
        some x ∧ reconcileSection.differs d x.2 = false := by
    intro d hd
    obtain ⟨id, row, -, hrow, hkey, hdiff⟩ := (sections_done hw hr).right lawful_section hd
    have hlabel := List.mem_map_of_mem (f := reconcileSection.label) hd
    rw [map_label_sectionDefs] at hlabel
    simp only [sectionDefs, List.mem_flatMap, List.mem_map] at hd
    obtain ⟨system, hsystem, group, -, rfl⟩ := hd
    obtain ⟨systemId, systemRow, hid, hsystemRow, hcode⟩ := system_row hw hr hsystem
    obtain ⟨hsystemId, hgroup⟩ := Prod.mk.inj (hkey : row.key = (_, _))
    have hsame : row.systemId = systemId := hsystemId.trans (by simp [hid])
    refine ⟨(id, row), (sound_reconciled hw hr).sections.lookup_iff.mpr
      ⟨find?_sections.mpr ⟨hrow, not_emptied (hsame.symm ▸ hsystemRow) ?_⟩, hkey⟩, hdiff⟩
    rw [hcode, hgroup]
    exact hlabel
  have hagain := Upsert.all_of_right lawful_section (reconciled catalog r).1.nextSection emptyReport
    hright
  rw [reconcileSections, (systems_again hw hr).2.2, sectionDefs_again hw hr]
  exact hagain

theorem functionDefs_again :
    functionDefs (reconcileSystems catalog (reconciled catalog r).1).ids
      (reconcileSections catalog (reconciled catalog r).1).ids catalog =
    functionDefs (reconcileSystems catalog r).ids (reconcileSections catalog r).ids catalog := by
  refine List.map_congr_left fun e he => ?_
  obtain ⟨systemId, sectionId, system, group, hsystemId, hsystem, hcode, hsectionId, hgroup, hkey,
    -⟩ := entry_places hw hr he
  obtain ⟨systemId', sectionId', system', group', hsystemId', hsystem', hcode', hsectionId',
    hgroup', hkey', -⟩ := entry_places hw (sound_reconciled hw hr) he
  rw [(systems_again hw hr).1] at hsystem'
  rw [(sections_again hw hr).1] at hgroup'
  obtain rfl := (systems_done hw hr).unique _ _ _ _ hsystem hsystem' (hcode.trans hcode'.symm)
  obtain rfl := (sections_done hw hr).unique _ _ _ _ hgroup (find?_sections.mp hgroup').1
    (hkey.trans hkey'.symm)
  simp only [functionDef, hsystemId, hsystemId', hsectionId, hsectionId']

theorem functions_again :
    (reconcileFunctions catalog (reconciled catalog r).1).table = keptFunctions catalog r ∧
    (reconcileFunctions catalog (reconciled catalog r).1).nextId =
      (reconcileFunctions catalog r).nextId ∧
    (reconcileFunctions catalog (reconciled catalog r).1).report = emptyReport := by
  have hright : ∀ d ∈ functionDefs (reconcileSystems catalog r).ids
      (reconcileSections catalog r).ids catalog,
      ∃ x, lookup FunctionRow.code (keptFunctions catalog r) (reconcileFunction.key d) = some x ∧
        reconcileFunction.differs d x.2 = false := by
    intro d hd
    obtain ⟨id, row, -, hrow, hkey, hdiff⟩ := (functions_done hw hr).right lawful_function hd
    have hcode : row.code = d.entry.definition.code := hkey
    exact ⟨(id, row), (sound_reconciled hw hr).functions.lookup_iff.mpr
      ⟨(find?_keptFunctions hw hr).mpr ⟨hrow, hcode ▸ mem_functionDefs_codes hd⟩, hkey⟩, hdiff⟩
  have hagain := Upsert.all_of_right lawful_function (reconciled catalog r).1.nextFunction
    emptyReport hright
  rw [reconcileFunctions, (sections_again hw hr).2.2, functionDefs_again hw hr]
  exact hagain

theorem reconciled_again : reconciled catalog (reconciled catalog r).1 =
    ((reconciled catalog r).1,
      { emptyReport with catalogVersion := (reconciled catalog r).2.catalogVersion }) := by
  have hstale : staleFunctions catalog (reconciled catalog r).1.functions = [] :=
    List.eq_nil_iff_forall_not_mem.mpr fun x hx => by
      obtain ⟨hrow, hcode⟩ := mem_staleFunctions.mp hx
      exact hcode ((find?_keptFunctions hw hr).mp hrow).2
  have hkept : keptFunctions catalog (reconciled catalog r).1 = keptFunctions catalog r := by
    rw [keptFunctions, hstale, (functions_again hw hr).1, deleteIds_nil]
  have hemptied : emptiedSections catalog (reconciled catalog r).1 = [] := by
    refine List.eq_nil_iff_forall_not_mem.mpr fun x hx => ?_
    obtain ⟨hrow, hrest⟩ := mem_staleSections.mp hx
    rw [(sections_again hw hr).1] at hrow
    rw [(systems_again hw hr).1, hkept] at hrest
    obtain ⟨hthere, hnot⟩ := find?_sections.mp hrow
    exact hnot (mem_staleSections.mpr ⟨hthere, hrest⟩)
  have hmeaning : meaningChanged catalog (reconciled catalog r).1 = false := by
    rw [meaningChanged, (functions_again hw hr).2.2, hstale]
    rfl
  rw [reconciled, hstale, hkept, hemptied, hmeaning, (systems_again hw hr).1,
    (systems_again hw hr).2.1, (sections_again hw hr).1, (sections_again hw hr).2.1,
    (functions_again hw hr).2.1, (functions_again hw hr).2.2, deleteIds_nil]
  rfl

end Runs

def oneFunction : List CatalogSystem :=
  [⟨"FIN", "财务", .open, [⟨"project", "项目", none,
    [⟨"finance_maintain", "财务维护", "维护项目", [.company]⟩]⟩]⟩]

def emptyRegistry : Registry := ⟨.empty, .empty, .empty, 1, 1, 1, none⟩

end Wbme.Backstage.PermissionCatalog
