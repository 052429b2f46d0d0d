import Wbme.Hr.Statements

/-! # Departments, positions and assignments

The maintenance of the organisation. Each operation checks that the position of every user
it touches, or of every holder of the position it touches, applies to all departments of
that user, and is executed once per idempotency key.
-/

namespace Wbme.Hr

open Lib

namespace DepartmentService

structure DepartmentCreate where
  name : String
  parentId : Option Nat
  leaders : Option (List Nat)
  idempotencyKey : Option String
  fingerprint : String

structure DepartmentUpdate where
  name : Option String
  status : Option OrgStatus
  leaders : Option (List Nat)
  idempotencyKey : Option String
  fingerprint : String

/-- The parent a department is put under exists and is active. -/
def assertParent (parentId : Nat) : HrTx Unit := do
  let found ← Txn.query fun v => v.departments.find? parentId
  let parent ← Txn.orThrow found (.of .resourceNotFound)
  Txn.guard (parent.status == .active) (.because .validationFailed "停用部门不能作为新建下级的选择目标")

/-- The distinct leaders with their names; they are employees in service. -/
def loadLeaders (env : HrEnvironment) (userIds : List Nat) : HrTx (List (Nat × String)) := do
  let rows := userIds.dedup.filterMap fun userId =>
    match env.account userId with
    | some account => if account.active && !account.deleted then some (userId, account.name) else none
    | none => none
  Txn.guard (rows.length == userIds.dedup.length) (.because .validationFailed "负责人必须为在职员工")
  pure rows

def createLeaders (departmentId operatorId : Nat) (leaders : List (Nat × String)) : HrTx Unit :=
  leaders.forM fun leader => do
    let _ ← departmentLeaderCreate ⟨departmentId, leader.1, leader.2, operatorId⟩
    pure ()

/-- What the log says about the leaders of a new department. -/
def leadersText (leaders : List (Nat × String)) : String :=
  if leaders.isEmpty then "" else s!"（负责人 {leaders.length} 人）"

def createRun (env : HrEnvironment) (operatorId : Nat) (input : DepartmentCreate) :
    HrTx (IdempotentOutcome HrReply) := do
  match input.parentId with
  | some parentId => assertParent parentId
  | none => pure ()
  let leaders ← loadLeaders env (input.leaders.getD [])
  let id ← departmentCreate ⟨input.parentId, input.name, .active⟩
  createLeaders id operatorId leaders
  bumpOrgTreeVersion
  pure ⟨.created id, .create, s!"在部门管理中新增了部门：{input.name}{leadersText leaders}"⟩

def create (env : HrEnvironment) (operator : OperationLogOperator) (input : DepartmentCreate) :
    HrCall :=
  executeIdempotentOperation hrLog
    ⟨operator, "department_manage", "hr.department.create", input.idempotencyKey,
      input.fingerprint⟩
    (createRun env operator.id input)

/-- Replace the leaders, when new ones are given. -/
def replaceLeaders (env : HrEnvironment) (id operatorId : Nat) (leaders : Option (List Nat)) :
    HrTx Unit :=
  match leaders with
  | none => pure ()
  | some userIds => do
      let leaders ← loadLeaders env userIds
      departmentLeaderDeleteMany id
      createLeaders id operatorId leaders

def updateRun (env : HrEnvironment) (operatorId id : Nat) (input : DepartmentUpdate) :
    HrTx (IdempotentOutcome HrReply) := do
  let found ← Txn.query fun v => v.departments.find? id
  let existing ← Txn.orThrow found (.of .resourceNotFound)
  departmentUpdate id fun r =>
    { r with
      name := input.name.getD existing.name, status := input.status.getD existing.status }
  replaceLeaders env id operatorId input.leaders
  bumpOrgTreeVersion
  pure ⟨.done, .update, s!"更新了部门：{existing.name}"⟩

def update (env : HrEnvironment) (operator : OperationLogOperator) (id : Nat)
    (input : DepartmentUpdate) : HrCall :=
  executeIdempotentOperation hrLog
    ⟨operator, "department_manage", "hr.department.update", input.idempotencyKey,
      input.fingerprint⟩
    (updateRun env operator.id id input)

/-- Climb from a department until the ancestor, the top or a department seen before. Each
department on the way is read by a statement of its own; a transaction that is given too
few steps expires. -/
def isDescendant (ancestorId : Nat) : Nat → Option Nat → List Nat → HrTx Bool
  | 0, _, _ => .throw .transactionExpired
  | _ + 1, none, _ => pure false
  | steps + 1, some current, visited =>
      if current ∈ visited then pure false
      else if current = ancestorId then pure true
      else do
        let row ← Txn.query fun v => v.departments.find? current
        isDescendant ancestorId steps (row.bind (·.parentId)) (current :: visited)

def moveRun (steps id : Nat) (parentId : Option Nat) : HrTx (IdempotentOutcome HrReply) := do
  let found ← Txn.query fun v => v.departments.find? id
  let existing ← Txn.orThrow found (.of .resourceNotFound)
  match parentId with
  | none => departmentUpdate id fun r => { r with parentId := none }
  | some parentId => do
      assertParent parentId
      Txn.guard (parentId != id) (.of .organizationCycle)
      let below ← isDescendant id steps (some parentId) []
      Txn.guard (!below) (.of .organizationCycle)
      departmentUpdate id fun r => { r with parentId := some parentId }
  bumpOrgTreeVersion
  pure ⟨.done, .update, s!"移动了部门：{existing.name}"⟩

/-- Put a department under another one or at the top; the climb may take some steps. -/
def move (steps : Nat) (operator : OperationLogOperator) (id : Nat) (parentId : Option Nat)
    (idempotencyKey : Option String) (fingerprint : String) : HrCall :=
  executeIdempotentOperation hrLog
    ⟨operator, "department_manage", "hr.department.move", idempotencyKey, fingerprint⟩
    (moveRun steps id parentId)

def deleteRun (ids : List Nat) : HrTx (IdempotentOutcome HrReply) := do
  let existing ← Txn.query fun v => v.departments.select fun id _ => id ∈ ids
  Txn.guard (existing.length == ids.length) (.of .resourceNotFound)
  let children ← Txn.query fun v => v.departments.select fun _ r => r.parentId.any (· ∈ ids)
  Txn.guard children.isEmpty
    (.business .departmentHasChildren [("departmentIds", toString (children.map (·.1)))])
  departmentDeleteMany ids
  bumpOrgTreeVersion
  bumpUserOrgVersion
  pure ⟨.deleted ids.length, .delete, s!"删除了 {ids.length} 个部门"⟩

def deleteBatch (operator : OperationLogOperator) (ids : List Nat)
    (idempotencyKey : Option String) (fingerprint : String) : HrCall :=
  executeIdempotentOperation hrLog
    ⟨operator, "department_manage", "hr.department.delete", idempotencyKey, fingerprint⟩
    (deleteRun ids)

end DepartmentService

namespace PositionService

structure PositionCreate where
  name : String
  status : Option OrgStatus
  allowSelfApply : Option Bool
  departmentIds : Option (List Nat)
  idempotencyKey : Option String
  fingerprint : String

structure PositionUpdate where
  name : Option String
  status : Option OrgStatus
  allowSelfApply : Option Bool
  idempotencyKey : Option String
  fingerprint : String

/-- The departments exist, and are active unless they are among the current ones. -/
def assertDepartmentsExist (departmentIds currentDepartmentIds : List Nat) : HrTx Unit :=
  if departmentIds = [] then pure ()
  else do
    let found ← Txn.query fun v => v.departments.select fun id _ => id ∈ departmentIds
    Txn.guard (found.length == departmentIds.length) (.of .resourceNotFound)
    Txn.guard (found.all fun p => p.2.status == .active || p.1 ∈ currentDepartmentIds)
      (.because .validationFailed "停用部门不能作为岗位适用部门")

def createRun (input : PositionCreate) : HrTx (IdempotentOutcome HrReply) := do
  assertDepartmentsExist (input.departmentIds.getD []) []
  let id ← positionCreate
    ⟨input.name, input.status.getD .active, input.allowSelfApply.getD false⟩
  (input.departmentIds.getD []).forM fun departmentId => do
    let _ ← positionDepartmentCreate ⟨id, departmentId⟩
    pure ()
  pure ⟨.created id, .create, s!"在岗位管理中新增了岗位：{input.name}"⟩

def create (operator : OperationLogOperator) (input : PositionCreate) : HrCall :=
  executeIdempotentOperation hrLog
    ⟨operator, "position_manage", "hr.position.create", input.idempotencyKey, input.fingerprint⟩
    (createRun input)

def updateRun (id : Nat) (input : PositionUpdate) : HrTx (IdempotentOutcome HrReply) := do
  let found ← Txn.query fun v => v.positions.find? id
  let existing ← Txn.orThrow found (.of .resourceNotFound)
  positionUpdate id
    ⟨input.name.getD existing.name, input.status.getD existing.status,
      input.allowSelfApply.getD existing.allowSelfApply⟩
  pure ⟨.done, .update, s!"更新了岗位：{existing.name}"⟩

def update (operator : OperationLogOperator) (id : Nat) (input : PositionUpdate) : HrCall :=
  executeIdempotentOperation hrLog
    ⟨operator, "position_manage", "hr.position.update", input.idempotencyKey, input.fingerprint⟩
    (updateRun id input)

/-- The holders of a position with a department that the new ones leave out. -/
def affectedUsers (holders : List Nat) (departmentIds : List Nat) : HrTx (List Nat) := do
  let marks ← holders.mapM fun userId => do
    let current ← Txn.query fun v => v.departmentIdsOf userId
    pure (if !current.isEmpty && current.any (fun d => !(d ∈ departmentIds)) then [userId] else [])
  pure marks.flatten

def updateDepartmentsRun (id : Nat) (departmentIds : List Nat) :
    HrTx (IdempotentOutcome HrReply) := do
  let found ← Txn.query fun v => v.positions.find? id
  let existing ← Txn.orThrow found (.of .resourceNotFound)
  let current ← Txn.query fun v => v.applicableTo id
  assertDepartmentsExist departmentIds current
  let holders ← Txn.query fun v =>
    (v.userPositions.select fun _ r => r.positionId == some id).map (·.1)
  let affected ← affectedUsers holders departmentIds
  Txn.guard affected.isEmpty
    (.business .positionDepartmentMismatch [("affectedUserIds", toString affected)])
  positionDepartmentDeleteMany id
  departmentIds.forM fun departmentId => do
    let _ ← positionDepartmentCreate ⟨id, departmentId⟩
    pure ()
  pure ⟨.done, .update, s!"更新了岗位适用部门：{existing.name}"⟩

def updateDepartments (operator : OperationLogOperator) (id : Nat) (departmentIds : List Nat)
    (idempotencyKey : Option String) (fingerprint : String) : HrCall :=
  executeIdempotentOperation hrLog
    ⟨operator, "position_manage", "hr.position.departments", idempotencyKey, fingerprint⟩
    (updateDepartmentsRun id departmentIds)

def deleteRun (ids : List Nat) : HrTx (IdempotentOutcome HrReply) := do
  let existing ← Txn.query fun v => v.positions.select fun id _ => id ∈ ids
  Txn.guard (existing.length == ids.length) (.of .resourceNotFound)
  positionDeleteMany ids
  bumpUserOrgVersion
  pure ⟨.deleted ids.length, .delete, s!"删除了 {ids.length} 个岗位"⟩

def deleteBatch (operator : OperationLogOperator) (ids : List Nat)
    (idempotencyKey : Option String) (fingerprint : String) : HrCall :=
  executeIdempotentOperation hrLog
    ⟨operator, "position_manage", "hr.position.delete", idempotencyKey, fingerprint⟩
    (deleteRun ids)

end PositionService

namespace OrgStructureService

def assertActiveDepartments (departmentIds : List Nat) : HrTx Unit := do
  let found ← Txn.query fun v => v.departments.select fun id _ => id ∈ departmentIds
  Txn.guard (found.length == departmentIds.length) (.of .resourceNotFound)
  Txn.guard (found.all fun p => p.2.status == .active)
    (.because .validationFailed "停用部门不能作为新组织关系的选择目标")

def assignDepartmentsRun (operatorId userId : Nat) (departmentIds : List Nat) :
    HrTx (IdempotentOutcome HrReply) := do
  assertActiveDepartments departmentIds
  let position ← Txn.query fun v => v.positionOf userId
  match position with
  | none => pure ()
  | some positionId => do
      let applicable ← Txn.query fun v => v.applicableTo positionId
      Txn.guard (departmentIds.all (· ∈ applicable)) (.of .positionDepartmentMismatch)
  userDepartmentDeleteMany userId fun _ => true
  departmentIds.forM fun departmentId => do
    let _ ← userDepartmentCreate ⟨userId, departmentId, operatorId⟩
    pure ()
  bumpUserOrgVersion
  pure ⟨.done, .update, s!"调整了员工 {userId} 的所属部门"⟩

def assignDepartments (operator : OperationLogOperator) (userId : Nat) (departmentIds : List Nat)
    (idempotencyKey : Option String) (fingerprint : String) : HrCall :=
  executeIdempotentOperation hrLog
    ⟨operator, "org_structure", "hr.org.assign-departments", idempotencyKey, fingerprint⟩
    (assignDepartmentsRun operator.id userId departmentIds)

def assignPositionRun (operatorId userId positionId : Nat) :
    HrTx (IdempotentOutcome HrReply) := do
  let found ← Txn.query fun v => v.positions.find? positionId
  let position ← Txn.orThrow found (.of .resourceNotFound)
  Txn.guard (position.status == .active) (.because .positionDepartmentMismatch "岗位已停用")
  let userDepartments ← Txn.query fun v => v.departmentIdsOf userId
  if userDepartments.isEmpty then pure ()
  else do
    let applicable ← Txn.query fun v => v.applicableTo positionId
    Txn.guard (userDepartments.all (· ∈ applicable)) (.of .positionDepartmentMismatch)
  userPositionUpsert userId ⟨some positionId, operatorId⟩
  bumpUserOrgVersion
  pure ⟨.done, .update, s!"调整了员工 {userId} 的岗位"⟩

def assignPosition (operator : OperationLogOperator) (userId positionId : Nat)
    (idempotencyKey : Option String) (fingerprint : String) : HrCall :=
  executeIdempotentOperation hrLog
    ⟨operator, "org_structure", "hr.org.assign-position", idempotencyKey, fingerprint⟩
    (assignPositionRun operator.id userId positionId)

end OrgStructureService

end Wbme.Hr
