import Mathlib.Data.List.Perm.Basic
import Wbme.Backstage.Store

/-! # Access to functions

Whether a user may enter a function, and how far the data reaches, is answered in two places: the
platform asks its own tables and filters the grants by the catalog, the other services ask three
views of the database. Rows come in any order.
-/

namespace Wbme.Backstage

open Lib

/-! ## Permissions -/

inductive ProductStatus where
  | comingSoon
  | open
deriving DecidableEq

structure SystemRow where
  code : String
  name : String
  productStatus : ProductStatus

structure CatalogFunction where
  systemId : Nat
  code : String

/-- Accounts, grants and the catalog, with the unique index on codes and the foreign key. -/
structure PermissionState where
  users : Table User
  systems : Table SystemRow
  functions : Table CatalogFunction
  employeeGrants : Table EmployeeGrant
  code_unique : ∀ i j f g, functions.find? i = some f → functions.find? j = some g →
    f.code = g.code → i = j
  system_exists : ∀ i f, functions.find? i = some f → (systems.find? f.systemId).isSome = true

structure RowOrder where
  arrange : ∀ α : Type, List α → List α
  perm : ∀ (α : Type) (rows : List α), (arrange α rows).Perm rows

structure FunctionAccess where
  registered : Bool
  systemCode : Option String
  systemName : Option String
  systemOpen : Bool
  allowed : Bool
  dataScope : Option DataScope

def FunctionAccess.unregistered : FunctionAccess := ⟨false, none, none, false, false, none⟩

def FunctionAccess.ofSystem (system : SystemRow) (allowed : Bool) (dataScope : Option DataScope) :
    FunctionAccess :=
  ⟨true, some system.code, some system.name, system.productStatus == .open, allowed, dataScope⟩

/-! ## The widest scope -/

def DataScope.rank : DataScope → Nat
  | .self => 0
  | .department => 1
  | .company => 2

def wider (widest : Option DataScope) (scope : DataScope) : Option DataScope :=
  match widest with
  | none => some scope
  | some w => if w.rank < scope.rank then some scope else some w

def widestScope (scopes : List DataScope) : Option DataScope := scopes.foldl wider none

theorem wider_comm (w : Option DataScope) (a b : DataScope) :
    wider (wider w a) b = wider (wider w b) a := by
  cases w with
  | none => cases a <;> cases b <;> rfl
  | some w => cases w <;> cases a <;> cases b <;> rfl

theorem widestScope_perm {scopes scopes' : List DataScope} (h : scopes.Perm scopes') :
    widestScope scopes = widestScope scopes' := by
  have hcomm : RightCommutative wider := ⟨wider_comm⟩
  exact h.foldl_eq none

namespace AuthorizationService

/-- What the authorisation of a user comes from. -/
structure AuthContext where
  isSuperAdmin : Bool
  grants : List EmployeeGrant

section Platform

variable (o : RowOrder) (s : PermissionState)

/-- The system of a function, which the foreign key keeps. -/
def findFunction (functionCode : String) : Option SystemRow :=
  match s.functions.rows.find? fun f => f.2.code == functionCode with
  | none => none
  | some f => s.systems.find? f.2.systemId

def registeredFunctionCodes (codes : List String) : List String :=
  (o.arrange _ (s.functions.select fun _ f => codes.contains f.code)).map (·.2.code)

def rebuildAuthContext (userId : Nat) : AuthContext :=
  match (s.users.find? userId).filter (·.deletedAt.isNone) with
  | none => ⟨false, []⟩
  | some user =>
      if user.isSuperAdmin then ⟨true, []⟩
      else
        let rows := (o.arrange _ (s.employeeGrants.select fun _ g => g.userId == userId)).map (·.2)
        if rows.length = 0 then ⟨false, []⟩
        else
          let registered := registeredFunctionCodes o s (rows.map (·.functionCode))
          ⟨false, rows.filter fun row => registered.contains row.functionCode⟩

def getFunctionAccess (userId : Nat) (functionCode : String) : FunctionAccess :=
  match findFunction s functionCode with
  | none => .unregistered
  | some system =>
      let context := rebuildAuthContext o s userId
      if context.isSuperAdmin then .ofSystem system true none
      else
        let matched := context.grants.filter (·.functionCode == functionCode)
        if matched.length = 0 then .ofSystem system false none
        else .ofSystem system true (widestScope (matched.map (·.dataScope)))

end Platform

end AuthorizationService

namespace CrossSchemaAuth

section Views

variable (o : RowOrder) (s : PermissionState)

def functionRegistry : List (String × SystemRow) :=
  o.arrange _ (s.functions.rows.filterMap fun f =>
    (s.systems.find? f.2.systemId).map fun system => (f.2.code, system))

def functionGrants (userId : Nat) (functionCode : String) : List DataScope :=
  (o.arrange _ (s.employeeGrants.select fun _ g =>
    g.userId == userId && g.functionCode == functionCode)).map (·.2.dataScope)

/-- The account in `backstage.user_accounts`, unless it is deleted. -/
def loadSessionUser (userId : Nat) : Option User :=
  match s.users.find? userId with
  | none => none
  | some user => if user.deletedAt.isSome then none else some user

def getFunctionAccess (userId : Nat) (functionCode : String) (includeImplicitSuperAdmin : Bool) :
    FunctionAccess :=
  match ((functionRegistry o s).filter fun row => row.1 == functionCode).head? with
  | none => .unregistered
  | some row =>
      match loadSessionUser s userId with
      | none => .ofSystem row.2 false none
      | some user =>
          if user.isSuperAdmin && includeImplicitSuperAdmin then .ofSystem row.2 true none
          else
            let grantRows := functionGrants o s userId functionCode
            if grantRows.length = 0 then .ofSystem row.2 false none
            else .ofSystem row.2 true (widestScope grantRows)

end Views

end CrossSchemaAuth

section Agreement

variable {o o' : RowOrder} {s : PermissionState} {userId : Nat} {functionCode : String}
  {system : SystemRow}

theorem findFunction_eq_some : AuthorizationService.findFunction s functionCode = some system ↔
    ∃ id f, s.functions.find? id = some f ∧ f.code = functionCode ∧
      s.systems.find? f.systemId = some system := by
  unfold AuthorizationService.findFunction
  constructor
  · intro h
    split at h
    · cases h
    · rename_i f hf
      have hcode := List.find?_some hf
      rw [beq_iff_eq] at hcode
      exact ⟨f.1, f.2, Table.find?_eq_some_iff.mpr (List.mem_of_find?_eq_some hf), hcode, h⟩
  · rintro ⟨id, f, hf, hcode, hsystem⟩
    split
    · rename_i hnone
      rw [List.find?_eq_none] at hnone
      have hnot := hnone (id, f) (Table.find?_eq_some_iff.mp hf)
      rw [beq_iff_eq] at hnot
      exact absurd hcode hnot
    · rename_i g hg
      have hgcode := List.find?_some hg
      rw [beq_iff_eq] at hgcode
      have hgrow := Table.find?_eq_some_iff.mpr (List.mem_of_find?_eq_some hg)
      -- the index lets no other function have the code
      have hid := s.code_unique _ _ _ _ hgrow hf (hgcode.trans hcode.symm)
      rw [hid, hf] at hgrow
      cases hgrow
      exact hsystem

theorem mem_functionRegistry {row : String × SystemRow} :
    row ∈ CrossSchemaAuth.functionRegistry o s ↔
      ∃ id f, s.functions.find? id = some f ∧ f.code = row.1 ∧
        s.systems.find? f.systemId = some row.2 := by
  unfold CrossSchemaAuth.functionRegistry
  rw [(o.perm _ _).mem_iff, List.mem_filterMap]
  constructor
  · rintro ⟨⟨id, f⟩, hf, hrow⟩
    obtain ⟨system, hsystem, rfl⟩ := Option.map_eq_some_iff.mp hrow
    exact ⟨id, f, Table.find?_eq_some_iff.mpr hf, rfl, hsystem⟩
  · rintro ⟨id, f, hf, hcode, hsystem⟩
    refine ⟨(id, f), Table.find?_eq_some_iff.mp hf, ?_⟩
    rw [hsystem, Option.map_some, hcode]

theorem registry_head? :
    ((CrossSchemaAuth.functionRegistry o s).filter fun row => row.1 == functionCode).head? =
      (AuthorizationService.findFunction s functionCode).map fun system =>
        (functionCode, system) := by
  cases hhead : ((CrossSchemaAuth.functionRegistry o s).filter
      fun row => row.1 == functionCode).head? with
  | none =>
      rw [List.head?_eq_none_iff, List.filter_eq_nil_iff] at hhead
      cases hfind : AuthorizationService.findFunction s functionCode with
      | none => rfl
      | some system =>
          have hmem := findFunction_eq_some.mp hfind
          exact absurd (beq_self_eq_true functionCode)
            (hhead (functionCode, system) (mem_functionRegistry.mpr hmem))
  | some row =>
      have hrow := List.mem_of_mem_head? (Option.mem_def.mpr hhead)
      rw [List.mem_filter, beq_iff_eq] at hrow
      obtain ⟨id, f, hf, hcode, hsystem⟩ := mem_functionRegistry.mp hrow.1
      rw [findFunction_eq_some.mpr ⟨id, f, hf, hcode.trans hrow.2, hsystem⟩, Option.map_some,
        ← hrow.2]

theorem contains_registeredFunctionCodes {codes : List String} (hcode : functionCode ∈ codes)
    (hfind : AuthorizationService.findFunction s functionCode = some system) :
    (AuthorizationService.registeredFunctionCodes o s codes).contains functionCode = true := by
  obtain ⟨id, f, hf, hfcode, -⟩ := findFunction_eq_some.mp hfind
  unfold AuthorizationService.registeredFunctionCodes
  rw [List.contains_iff_mem, List.mem_map]
  refine ⟨(id, f), ?_, hfcode⟩
  rw [(o.perm _ _).mem_iff, Table.mem_select, List.contains_iff_mem]
  exact ⟨hf, hfcode ▸ hcode⟩

/-- The scopes of a user for a function of the catalog are the same in both places, but for
their order. -/
theorem scopes_perm (o o' : RowOrder)
    (hfind : AuthorizationService.findFunction s functionCode = some system)
    {rows : List EmployeeGrant}
    (hrows : rows =
      (o.arrange _ (s.employeeGrants.select fun _ g => g.userId == userId)).map (·.2)) :
    (((rows.filter fun row => (AuthorizationService.registeredFunctionCodes o s
      (rows.map (·.functionCode))).contains row.functionCode).filter
        (·.functionCode == functionCode)).map (·.dataScope)).Perm
      (CrossSchemaAuth.functionGrants o' s userId functionCode) := by
  have hfilter : (rows.filter fun row => (AuthorizationService.registeredFunctionCodes o s
      (rows.map (·.functionCode))).contains row.functionCode).filter
        (·.functionCode == functionCode) = rows.filter (·.functionCode == functionCode) := by
    rw [List.filter_filter]
    apply List.filter_congr
    intro row hrow
    by_cases hcode : row.functionCode = functionCode
    · rw [hcode, contains_registeredFunctionCodes (List.mem_map.mpr ⟨row, hrow, hcode⟩) hfind,
        Bool.and_true]
    · rw [beq_false_of_ne hcode, Bool.false_and]
  have hselect : (s.employeeGrants.select fun _ g => g.userId == userId &&
      g.functionCode == functionCode) = (s.employeeGrants.select fun _ g => g.userId == userId).filter
        fun row => row.2.functionCode == functionCode := by
    unfold Table.select
    rw [List.filter_filter]
    apply List.filter_congr
    intro row _
    exact Bool.and_comm _ _
  rw [hfilter, hrows, List.filter_map, List.map_map]
  unfold CrossSchemaAuth.functionGrants
  rw [hselect]
  apply List.Perm.trans
  · exact (((o.perm _ _).filter _).map _)
  · exact ((o'.perm _ _).map _).symm

theorem rebuildAuthContext_of_user (o : RowOrder) {user : User} (huser : s.users.find? userId = some user)
    (hlive : user.deletedAt = none) (hplain : user.isSuperAdmin = false) :
    ∃ rows, rows = (o.arrange _ (s.employeeGrants.select fun _ g => g.userId == userId)).map (·.2) ∧
      AuthorizationService.rebuildAuthContext o s userId =
        ⟨false, rows.filter fun row => (AuthorizationService.registeredFunctionCodes o s
          (rows.map (·.functionCode))).contains row.functionCode⟩ := by
  refine ⟨_, rfl, ?_⟩
  unfold AuthorizationService.rebuildAuthContext
  rw [huser, Option.filter_some, hlive, Option.isNone_none, if_pos rfl]
  dsimp only
  rw [hplain, if_neg Bool.false_ne_true]
  split
  · rename_i hempty
    rw [List.length_eq_zero_iff.mp hempty]
    rfl
  · rfl

theorem rebuildAuthContext_of_none
    (huser : (s.users.find? userId).filter (·.deletedAt.isNone) = none) :
    AuthorizationService.rebuildAuthContext o s userId = ⟨false, []⟩ := by
  unfold AuthorizationService.rebuildAuthContext
  rw [huser]

theorem rebuildAuthContext_of_superAdmin {user : User} (huser : s.users.find? userId = some user)
    (hlive : user.deletedAt = none) (hsuper : user.isSuperAdmin = true) :
    AuthorizationService.rebuildAuthContext o s userId = ⟨true, []⟩ := by
  unfold AuthorizationService.rebuildAuthContext
  rw [huser, Option.filter_some, hlive, Option.isNone_none, if_pos rfl]
  dsimp only
  rw [hsuper, if_pos rfl]

end Agreement

end Wbme.Backstage
