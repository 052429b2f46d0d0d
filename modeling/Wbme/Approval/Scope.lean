import Wbme.Contracts

/-! # Approver scope

Which departments an approver covers, which department ids a snapshot holds, and
when a scope covers every department of a request.
-/

namespace Wbme.Approval

inductive ApproverScope where
  | company
  | department (departmentIds : List Nat)

/-- A missing data scope is the super administrator's. -/
def toApproverScope (dataScope : Option DataScope) (departmentIds : List Nat) : ApproverScope :=
  match dataScope with
  | none => .company
  | some .company => .company
  | some .department => .department departmentIds
  | some .self => .department departmentIds

/-- Does the scope cover every department id? No department at all is covered by the company
only. `companyOnly` says that the request type is reserved for company scope. -/
def scopeCoversAll (scope : ApproverScope) (objectDepartmentIds : List (Option Int))
    (companyOnly : Bool) : Bool :=
  match scope with
  | .company => true
  | .department departmentIds =>
      !companyOnly && !objectDepartmentIds.isEmpty &&
        objectDepartmentIds.all fun departmentId =>
          match departmentId with
          | none => false
          | some id => departmentIds.any (fun d => (d : Int) == id)

def assertScopeCoversAll (scope : ApproverScope) (objectDepartmentIds : List (Option Int))
    (companyOnly : Bool) (requestType : String) : Except Failure Unit :=
  if scopeCoversAll scope objectDepartmentIds companyOnly then .ok ()
  else .error (.business .scopeNotCovered [("requestType", requestType)])

/-- The department id of one snapshot element: a number, or the `id` of an object, or its
`departmentId` where `id` is missing or null. -/
def extractDepartmentIdFromSnapshot (snapshot : Json) : Option Int :=
  match snapshot with
  | .num n => some n
  | .obj fields =>
      let id :=
        match Json.field? fields "id" with
        | some .null => Json.field? fields "departmentId"
        | some value => some value
        | none => Json.field? fields "departmentId"
      match id with
      | some (.num n) => some n
      | _ => none
  | _ => none

def extractDepartmentIdsFromSnapshot (snapshot : Json) : List (Option Int) :=
  match snapshot with
  | .arr xs => xs.map extractDepartmentIdFromSnapshot
  | other => [extractDepartmentIdFromSnapshot other]

theorem extractDepartmentIds_departmentsJson (ds : List DepartmentRef) :
    extractDepartmentIdsFromSnapshot (departmentsJson ds) =
      ds.map (fun d => some (d.id : Int)) := by
  simp only [departmentsJson, extractDepartmentIdsFromSnapshot, List.map_map]
  rfl

end Wbme.Approval
