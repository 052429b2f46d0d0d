import Wbme.Hr.Statements

/-! # Account lifecycle

Restoring accounts clears the assignments that no longer fit, once per restore request, and
cancels the position changes that were pending when the account was deactivated; a worker
asks for the same cancellation when an account is deactivated.
-/

namespace Wbme.Hr.LifecycleService

open Lib Approval

/-! ## Pending position changes -/

def pendingBefore (v : HrStore) (userId : Nat) (deactivatedAt : Int) : List Nat :=
  (v.approvalRequests.select fun _ r => r.requestType == .positionChange &&
    r.applicantId == userId && r.status == .pending &&
    r.submittedAt.any fun t => t ≤ deactivatedAt).map (·.1)

/-- The columns the cancellation writes. -/
def markDeactivated (now : Int) (head : HrApprovalRequest) : HrApprovalRequest :=
  { head with
    status := .cancelled, version := head.version + 1, cancelledAt := some now,
    cancelSource := some .accountDeactivated }

def stillPending (v : HrStore) (ids : List Nat) : List Nat :=
  (v.approvalRequests.select fun id r => id ∈ ids && r.status == .pending).map (·.1)

def cancelStillPending (ids : List Nat) (now : Int) : HrTx Unit :=
  Txn.exec (fun v => (stillPending v ids).map .approvalRequest) fun v s =>
    { s with
      approvalRequests := s.approvalRequests.updateMany (fun id _ => id ∈ stillPending v ids)
        (markDeactivated now) }

/-- Cancel what was pending before the deactivation; the answer is the number of heads read. -/
def cancelPendingPositionApplications (env : HrEnvironment) (userId : Nat) (deactivatedAt : Int) :
    HrTx Nat := do
  let pending ← Txn.query fun v => pendingBefore v userId deactivatedAt
  if pending = [] then pure 0
  else do
    cancelStillPending pending env.now
    pending.forM fun id => do
      let _ ← approvalActionCreate
        { requestId := id, action := .autoCancel, actorId := userId,
          actorName := env.userName userId, opinion := none,
          cancelSource := some .accountDeactivated }
      pure ()
    pure pending.length

/-- The cancellation a worker asks for. -/
def cancelPositionApplications (env : HrEnvironment) (userId : Nat) (deactivatedAt : Int) :
    HrCall :=
  Call.single do
    let count ← cancelPendingPositionApplications env userId deactivatedAt
    pure (.cancelled count)

/-! ## Restoring -/

structure RestoreTarget where
  userId : Nat
  lifecycleVersion : Nat
  deactivatedAt : Int

structure RestoreApply where
  restoreRequestId : String
  targets : List RestoreTarget

/-- Why an account cannot be restored. -/
def checkCompatibility (env : HrEnvironment) (userId lifecycleVersion : Nat) : Option String :=
  match env.account userId with
  | none => some "USER_NOT_FOUND"
  | some account =>
      if account.lifecycleVersion ≠ lifecycleVersion then some "LIFECYCLE_VERSION_CHANGED" else none

structure CompatibilityCheck where
  clearedDepartments : List DepartmentRef
  positionCleared : Bool

def departmentRows (v : HrStore) (userId : Nat) : List (DepartmentRef × OrgStatus) :=
  (v.userDepartments.select fun _ r => r.userId == userId).filterMap fun p =>
    (v.departments.find? p.2.departmentId).map fun d => (⟨p.2.departmentId, d.name⟩, d.status)

/-- Disabled departments are cleared; the position is cleared unless it is active and applies
to all departments that are kept. -/
def computeCompatibility (v : HrStore) (userId : Nat) : CompatibilityCheck :=
  let rows := departmentRows v userId
  let cleared := (rows.filter fun row => row.2 != .active).map (·.1)
  let kept := (rows.filter fun row => row.2 == .active).map (·.1.id)
  let positionCleared :=
    match v.positionOf userId with
    | none => false
    | some positionId =>
        kept.isEmpty ||
          match v.positions.find? positionId with
          | none => true
          | some position =>
              position.status != .active ||
                (v.positionDepartments.select fun _ r =>
                  r.positionId == positionId && r.departmentId ∈ kept).length != kept.length
  ⟨cleared, positionCleared⟩

def restoredUsers (v : HrStore) (restoreRequestId : String) : List Nat :=
  ((v.orgCompatRecords.select fun _ r => r.restoreRequestId == restoreRequestId).map
    (·.2.userId)).dedup

/-- Is the request the one that was applied? -/
def sameTargets (existing : List Nat) (dto : RestoreApply) : Bool :=
  let targets := (dto.targets.map (·.userId)).dedup
  existing.length == targets.length && targets.all (· ∈ existing)

/-- Take from a user the departments and the position that do not fit any more. -/
def clearIncompatible (userId : Nat) (compatibility : CompatibilityCheck) : HrTx Unit := do
  if compatibility.clearedDepartments = [] then pure ()
  else userDepartmentDeleteMany userId fun d => d ∈ compatibility.clearedDepartments.map (·.id)
  if compatibility.positionCleared then do
    let current ← Txn.query fun v => v.positionOf userId
    if current.isSome then userPositionClear userId else pure ()
  else pure ()

/-- Restore one target. The checks read what is committed, not what the transaction has
written so far. -/
def restoreTarget (env : HrEnvironment) (committed : HrStore) (restoreRequestId : String)
    (target : RestoreTarget) : HrTx Unit := do
  match checkCompatibility env target.userId target.lifecycleVersion with
  | some reason =>
      .throw (.business .restoreTargetStale
        [("userId", toString target.userId), ("reason", reason)])
  | none => pure ()
  let _ ← cancelPendingPositionApplications env target.userId target.deactivatedAt
  let compatibility := computeCompatibility committed target.userId
  clearIncompatible target.userId compatibility
  let _ ← orgCompatRecordCreate
    { userId := target.userId, restoreRequestId
      clearedDepartments :=
        if compatibility.clearedDepartments = [] then none
        else some compatibility.clearedDepartments
      positionCleared := compatibility.positionCleared }
  bumpUserOrgVersion

def restoreApplyMain (env : HrEnvironment) (dto : RestoreApply) : HrTx HrReply := do
  Txn.queryForUpdate (fun _ => [.restore dto.restoreRequestId]) fun _ => ()
  let existing ← Txn.query fun v => restoredUsers v dto.restoreRequestId
  if existing ≠ [] then do
    Txn.guard (sameTargets existing dto) (.of .restoreTargetStale)
    pure .applied
  else do
    let committed ← Txn.query id
    dto.targets.forM (restoreTarget env committed dto.restoreRequestId)
    pure .applied

/-- Apply a restore request once; a request that lost the race answers by what was applied. -/
def restoreApply (env : HrEnvironment) (dto : RestoreApply) : HrCall where
  main := restoreApplyMain env dto
  recover e :=
    if e = .uniqueViolation "org_compat_records_restore_request_id_user_id_key" then some do
      let applied ← Txn.query fun v => restoredUsers v dto.restoreRequestId
      Txn.guard (sameTargets applied dto) (.of .restoreTargetStale)
      pure .applied
    else none

end Wbme.Hr.LifecycleService
