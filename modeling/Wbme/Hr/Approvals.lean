import Wbme.Approval.Scope
import Wbme.Hr.Statements

/-! # HR approvals

Submitting a position change, processing and cancelling heads, and the cancellations the
system runs by itself: for overdue heads, and for the heads of a deactivated account. The
conditional update of a head comes before the side effect of an approval.
-/

namespace Wbme.Hr

open Lib Approval

/-! ## Heads -/

structure CreateRequestHeadInput where
  requestType : HrRequestType
  applicantId : Nat
  applicantName : String
  applicantDepartmentSnapshot : Json
  proxyId : Option Nat
  proxyName : Option String

def applicationNoPrefix : HrRequestType → String
  | .overtime => "OT"
  | .positionChange => "POS"

def HrRequestType.text : HrRequestType → String
  | .overtime => "OVERTIME"
  | .positionChange => "POSITION_CHANGE"

def HrRequestType.function : HrRequestType → HrFunction
  | .overtime => .overtimeApproval
  | .positionChange => .orgStructure

def HrFunction.code : HrFunction → String
  | .overtimeApply => "overtime_apply"
  | .proxyOvertime => "proxy_overtime"
  | .overtimeApproval => "overtime_approval"
  | .orgStructure => "org_structure"

/-- The head row a submission writes. -/
def pendingHead (env : HrEnvironment) (input : CreateRequestHeadInput) : HrApprovalRequest where
  applicationNo := applicationNoPrefix input.requestType ++ env.applicationNoSuffix
  requestType := input.requestType
  applicantId := input.applicantId
  applicantName := input.applicantName
  applicantDepartmentSnapshot := input.applicantDepartmentSnapshot
  proxyId := input.proxyId
  proxyName := input.proxyName
  status := .pending
  version := 1
  submittedAt := some env.now
  cancelledBy := none
  cancelledAt := none
  cancelSource := none
  processorId := none
  processorName := none
  processedAt := none
  opinion := none

/-- Create a pending head and its SUBMIT action. -/
def createRequestHead (env : HrEnvironment) (input : CreateRequestHeadInput) :
    HrTx (Nat × String) := do
  let row := pendingHead env input
  let id ← approvalRequestCreate row
  let _ ← approvalActionCreate
    { requestId := id, action := .submit, actorId := input.applicantId,
      actorName := input.applicantName, opinion := none, cancelSource := none }
  pure (id, row.applicationNo)

namespace PositionApplicationService

/-- The department is active, and the position is active, open to applications and applies
to the department. -/
def assertTarget (departmentId positionId : Nat)
    (departmentGone positionGone inapplicable : Failure) : HrTx (Department × Position) := do
  let foundDepartment ← Txn.query fun v => v.departments.find? departmentId
  let department ← Txn.orThrow foundDepartment departmentGone
  Txn.guard (department.status == .active) departmentGone
  let foundPosition ← Txn.query fun v => v.positions.find? positionId
  let position ← Txn.orThrow foundPosition positionGone
  Txn.guard (position.status == .active && position.allowSelfApply) positionGone
  let applicable ← Txn.query fun v => v.applicableTo positionId
  Txn.guard (departmentId ∈ applicable) inapplicable
  pure (department, position)

def assertSubmittable (userId targetDepartmentId targetPositionId : Nat) :
    HrTx (Department × Position) := do
  let departments ← Txn.query fun v => v.departmentIdsOf userId
  Txn.guard (departments.length ≤ 1) (.of .multiDepartmentApplyForbidden)
  assertTarget targetDepartmentId targetPositionId (.of .positionApplyTargetUnavailable)
    (.of .positionApplyTargetUnavailable) (.of .positionApplyTargetUnavailable)

def submitRun (env : HrEnvironment) (operator : OperationLogOperator)
    (targetDepartmentId targetPositionId : Nat) : HrTx (IdempotentOutcome HrReply) := do
  let target ← assertSubmittable operator.id targetDepartmentId targetPositionId
  let departments ← Txn.query fun v => v.departmentsOf operator.id
  let head ← createRequestHead env
    { requestType := .positionChange, applicantId := operator.id, applicantName := operator.name,
      applicantDepartmentSnapshot := departmentsJson departments, proxyId := none,
      proxyName := none }
  let _ ← positionChangeRequestCreate
    { requestId := head.1, userId := operator.id, userName := operator.name,
      departmentSnapshot := departmentsJson departments,
      targetDepartmentId, targetDepartmentName := target.1.name,
      targetPositionId, targetPositionName := target.2.name }
  pure ⟨.submitted head.1 head.2, .create,
    s!"提交了岗位变更申请：{target.1.name} / {target.2.name}"⟩

def submit (env : HrEnvironment) (operator : OperationLogOperator)
    (targetDepartmentId targetPositionId : Nat) (idempotencyKey : Option String)
    (fingerprint : String) : HrCall :=
  executeIdempotentOperation hrLog
    ⟨operator, "org_structure", "hr.position-application.submit", idempotencyKey, fingerprint⟩
    (submitRun env operator targetDepartmentId targetPositionId)

def stale (reason : String) : Failure := .because .positionApplyStale reason

/-- The side effect of an approval: the target becomes the only department and the position
of the applicant, when it still may. -/
def apply (requestId processorId : Nat) : HrTx Unit := do
  let found ← Txn.query fun v => v.positionChangeOf requestId
  let detail ← Txn.orThrow found (.of .resourceNotFound)
  let current ← Txn.query fun v => v.departmentIdsOf detail.userId
  Txn.guard (current.length ≤ 1) (stale "员工已变为多部门归属，请由组织管理员处理")
  let _ ← assertTarget detail.targetDepartmentId detail.targetPositionId
    (stale "目标部门已停用或不存在") (stale "目标岗位已停用或不再允许自助申请")
    (stale "目标岗位不再适用于目标部门")
  userDepartmentDeleteMany detail.userId fun _ => true
  let _ ← userDepartmentCreate ⟨detail.userId, detail.targetDepartmentId, processorId⟩
  userPositionUpsert detail.userId ⟨some detail.targetPositionId, processorId⟩
  bumpUserOrgVersion

end PositionApplicationService

namespace HrApprovalService

/-- Intents the processing endpoint accepts. -/
inductive Decision where
  | approve
  | reject
deriving DecidableEq

def Decision.intent : Decision → ProcessAction
  | .approve => .approve
  | .reject => .reject

def Decision.text : Decision → String
  | .approve => "批准"
  | .reject => "驳回"

def requestTypeText : HrRequestType → String
  | .overtime => "加班"
  | .positionChange => "岗位变更"

/-- Registered, open and allowed. -/
def assertCanAccessType (access : FunctionAccess) : HrTx Unit := do
  Txn.guard access.registered (.of .resourceNotFound)
  Txn.guard access.systemOpen (.business .systemNotOpen [("system", access.systemName)])
  Txn.guard access.allowed (.of .resourceNotFound)

/-- The snapshots of the objects of a request: of every employee of an overtime batch, or of
the applicant of a position change. -/
def objectSnapshots (v : HrStore) (id : Nat) (requestType : HrRequestType) : List Json :=
  match requestType with
  | .overtime => (v.overtimeItemsOf id).map (·.departmentSnapshot)
  | .positionChange => ((v.positionChangeOf id).map (·.departmentSnapshot)).toList

def resolveObjectDepartmentIds (v : HrStore) (id : Nat) (requestType : HrRequestType) :
    List (Option Int) :=
  (objectSnapshots v id requestType).flatMap extractDepartmentIdsFromSnapshot

def assertScopeCovers (env : HrEnvironment) (id : Nat) (requestType : HrRequestType)
    (userId : Nat) : HrTx Unit := do
  let scope := toApproverScope (env.access userId requestType.function).dataScope
    (env.closureOfUser userId)
  let ids ← Txn.query fun v => resolveObjectDepartmentIds v id requestType
  Txn.liftExcept (assertScopeCoversAll scope ids false requestType.text)

/-- A position change of a deactivated account is not approved. -/
def assertApplicantActive (env : HrEnvironment) (head : HrApprovalRequest) (decision : Decision) :
    HrTx Unit :=
  if decision = .approve ∧ head.requestType = .positionChange then
    Txn.guard (!((env.account head.applicantId).any (·.deleted))) (.of .applicantDeactivated)
  else pure ()

/-- The columns a processing transition writes. -/
def markProcessed (env : HrEnvironment) (status : ApprovalStatus) (processorId : Nat)
    (opinion : Option String) (head : HrApprovalRequest) : HrApprovalRequest :=
  { head with
    status, version := head.version + 1, processorId := some processorId,
    processorName := some (env.userName processorId), processedAt := some env.now, opinion }

/-- After the conditional update: the side effect of an approved position change, then the
action row. -/
def completeProcess (env : HrEnvironment) (id : Nat) (requestType : HrRequestType)
    (decision : Decision) (action : ApprovalAction) (processorId : Nat)
    (opinion : Option String) : HrTx Unit := do
  if decision = .approve ∧ requestType = .positionChange then
    PositionApplicationService.apply id processorId
  else pure ()
  let _ ← approvalActionCreate
    { requestId := id, action, actorId := processorId, actorName := env.userName processorId,
      opinion, cancelSource := none }
  pure ()

def processInner (env : HrEnvironment) (id : Nat) (decision : Decision)
    (transition : ResolvedTransition) (processorId : Nat) (opinion : Option String) :
    HrTx Unit := do
  let found ← Txn.query fun v => v.approvalRequests.find? id
  let head ← Txn.orThrow found (.of .resourceNotFound)
  assertCanAccessType (env.access processorId head.requestType.function)
  Txn.guard (head.status == .pending) (.of .statusConflict)
  Txn.liftExcept (assertTransitionAllowed head.status transition.status)
  assertScopeCovers env id head.requestType processorId
  assertApplicantActive env head decision
  let updated ← approvalRequestTransition id head.version
    (markProcessed env transition.status processorId opinion)
  Txn.liftExcept (throwIfTransitionLost updated)
  completeProcess env id head.requestType decision transition.action processorId opinion

def processRun (env : HrEnvironment) (id : Nat) (decision : Decision)
    (transition : ResolvedTransition) (requestType : HrRequestType) (processorId : Nat)
    (opinion : Option String) : HrTx (IdempotentOutcome HrReply) := do
  processInner env id decision transition processorId opinion
  pure ⟨.done, .update, s!"处理了{requestTypeText requestType}审批（{decision.text}）"⟩

/-- What is looked up before the transaction: the type of the head. -/
def probe (id : Nat) : HrTx HrRequestType := do
  let found ← Txn.query fun v => v.approvalRequests.find? id
  let head ← Txn.orThrow found (.of .resourceNotFound)
  pure head.requestType

def processOptions (operator : OperationLogOperator) (id : Nat) (requestType : HrRequestType)
    (idempotencyKey : Option String) (fingerprint : String) : IdempotentOptions :=
  ⟨operator, requestType.function.code, s!"hr.approval.process/{id}", idempotencyKey, fingerprint⟩

/-- Approve or reject a head. -/
def process (env : HrEnvironment) (operator : OperationLogOperator) (id : Nat)
    (decision : Decision) (opinion : Option String) (idempotencyKey : Option String)
    (fingerprint : String) : HrCall where
  main := do
    let transition ← Txn.liftExcept (resolveProcessTransition decision.intent none)
    Txn.liftExcept (assertOpinionIfRequired transition.requiresOpinion opinion)
    let requestType ← probe id
    (executeIdempotentOperation hrLog
      (processOptions operator id requestType idempotencyKey fingerprint)
      (processRun env id decision transition requestType operator.id opinion)).main
  recover := replayAfterConflict hrLog
    (processOptions operator id .overtime idempotencyKey fingerprint)

/-! ## Cancelling -/

/-- The columns a cancellation writes. -/
def markCancelled (env : HrEnvironment) (actorId : Nat) (head : HrApprovalRequest) :
    HrApprovalRequest :=
  { head with
    status := .cancelled, version := head.version + 1, cancelledBy := some actorId,
    cancelledAt := some env.now, cancelSource := some .user }

def cancelInner (env : HrEnvironment) (id actorId : Nat) (expectedType : Option HrRequestType)
    (transition : ResolvedTransition) : HrTx Unit := do
  let found ← Txn.query fun v => v.approvalRequests.find? id
  let head ← Txn.orThrow found (.of .resourceNotFound)
  Txn.guard (expectedType.all (· == head.requestType)) (.of .resourceNotFound)
  Txn.guard (head.applicantId == actorId || head.proxyId == some actorId) (.of .resourceNotFound)
  Txn.liftExcept (assertPending head.status)
  Txn.liftExcept (assertTransitionAllowed head.status transition.status)
  let updated ← approvalRequestTransition id head.version (markCancelled env actorId)
  Txn.liftExcept (throwIfTransitionLost updated)
  let _ ← approvalActionCreate
    { requestId := id, action := .cancel, actorId, actorName := env.userName actorId,
      opinion := none, cancelSource := some .user }
  pure ()

def cancelRun (env : HrEnvironment) (id actorId : Nat) (expectedType : Option HrRequestType)
    (transition : ResolvedTransition) (requestType : HrRequestType) :
    HrTx (IdempotentOutcome HrReply) := do
  cancelInner env id actorId expectedType transition
  pure ⟨.done, .update, s!"取消了{requestTypeText requestType}审批"⟩

def cancelOptions (operator : OperationLogOperator) (id : Nat) (requestType : HrRequestType)
    (idempotencyKey : Option String) (fingerprint : String) : IdempotentOptions :=
  ⟨operator, requestType.function.code, s!"hr.approval.cancel/{id}", idempotencyKey, fingerprint⟩

/-- Cancel a pending head of one's own, or one submitted for others. -/
def cancel (env : HrEnvironment) (operator : OperationLogOperator) (id : Nat)
    (expectedType : Option HrRequestType) (idempotencyKey : Option String)
    (fingerprint : String) : HrCall where
  main := do
    let transition ← Txn.liftExcept (resolveProcessTransition .cancel (some .user))
    let requestType ← probe id
    (executeIdempotentOperation hrLog
      (cancelOptions operator id requestType idempotencyKey fingerprint)
      (cancelRun env id operator.id expectedType transition requestType)).main
  recover := replayAfterConflict hrLog
    (cancelOptions operator id .overtime idempotencyKey fingerprint)

end HrApprovalService

namespace OverdueWorker

/-- An overdue head as the scan read it. -/
structure OverdueApprovalRow where
  id : Nat
  version : Nat

/-- The columns an overdue cancellation writes. -/
def markOverdue (now : Int) (head : HrApprovalRequest) : HrApprovalRequest :=
  { head with
    status := .cancelled, version := head.version + 1, cancelledAt := some now,
    cancelSource := some .overdue }

/-- Cancel one overdue head, or report that someone else was faster. -/
def autoCancelOverdueRow (row : OverdueApprovalRow) (now : Int) : HrTx Bool := do
  let updated ← approvalRequestTransition row.id row.version (markOverdue now)
  if updated = 0 then pure false
  else do
    let _ ← approvalActionCreate
      { requestId := row.id, action := .autoCancel, actorId := 0, actorName := "system",
        opinion := none, cancelSource := some .overdue }
    pure true

/-- The scan, cut to one head: pending and submitted before the cutoff. -/
def scanOverdue (v : HrStore) (cutoff : Int) (id : Nat) : Option OverdueApprovalRow :=
  (v.approvalRequests.find? id).bind fun r =>
    if r.status = .pending ∧ r.submittedAt.any (fun t => t < cutoff) = true then
      some ⟨id, r.version⟩
    else none

def cancelOverdue (cutoff now : Int) (id : Nat) : HrTx Bool := do
  let row ← Txn.query fun v => scanOverdue v cutoff id
  match row with
  | none => pure false
  | some row => autoCancelOverdueRow row now

end OverdueWorker

end Wbme.Hr
