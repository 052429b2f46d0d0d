import Wbme.Backstage.SuperAdmin

/-! # Deactivating and restoring accounts

A batch is deactivated in one transaction, or not at all: the targets are read and checked,
then every account is marked, its invitations are revoked, its pending profile changes are
cancelled and a task tells the organisation. A restore first has the organisation apply its
part, then marks the accounts in a transaction of its own.
-/

namespace Wbme.Backstage

open Lib Approval

namespace UserLifecycleService

/-! ## Deactivation -/

structure BatchDeactivate where
  userIds : List Nat
  idempotencyKey : Option String

/-- Why one account of a batch is refused. -/
structure TargetFailure where
  userId : Nat
  code : String
  message : String

def TargetFailure.details (failure : TargetFailure) : List (String × String) :=
  [(s!"failures.{failure.userId}.code", failure.code),
    (s!"failures.{failure.userId}.message", failure.message)]

def batchBlocked (failures : List TargetFailure) : Failure :=
  .business .userBatchBlocked (failures.flatMap TargetFailure.details)

def targetNotFound (userId : Nat) : TargetFailure := ⟨userId, "TARGET_NOT_FOUND", "目标账号不存在"⟩

def targetDeactivated (userId : Nat) : TargetFailure :=
  ⟨userId, "TARGET_DEACTIVATED", "目标账号已注销"⟩

def selfModification (userId : Nat) : TargetFailure :=
  ⟨userId, "SELF_MODIFICATION", "不能注销自己的账号"⟩

def superAdminTarget (userId : Nat) : TargetFailure :=
  ⟨userId, "SUPER_ADMIN_TARGET", "超级管理员账号仅可由超级管理员管理"⟩

def lastSuperAdmin (userId : Nat) : TargetFailure :=
  ⟨userId, "LAST_SUPER_ADMIN", "系统必须保留至少一名超级管理员"⟩

def checkTarget (operator : BackstageOperator) (rows : Table User) (userId : Nat) :
    Except TargetFailure (Nat × User) :=
  match rows.find? userId with
  | none => .error (targetNotFound userId)
  | some target =>
      if target.deletedAt.isSome || target.status == .deactivated then
        .error (targetDeactivated userId)
      else if userId = operator.id then .error (selfModification userId)
      else if target.isSuperAdmin && !operator.isSuperAdmin then .error (superAdminTarget userId)
      else .ok (userId, target)

def isFailure {α : Type} : Except TargetFailure α → Option TargetFailure
  | .error failure => some failure
  | .ok _ => none

/-- An account of a batch that counts among the active super administrators. -/
def countsAsSuper (target : Nat × User) : Bool :=
  target.2.isSuperAdmin && target.2.status == .active

/-- The checks of a whole batch, against the accounts as they were read and the number of
active super administrators. -/
def checkTargets (operator : BackstageOperator) (rows : Table User) (activeSuperCount : Nat)
    (userIds : List Nat) : Except Failure (List (Nat × User)) :=
  let checks := userIds.map (checkTarget operator rows)
  let targets := checks.filterMap Except.toOption
  let activeSuperInBatch := targets.countP countsAsSuper
  let failures := checks.filterMap isFailure ++
    if 0 < activeSuperInBatch ∧ (activeSuperCount : Int) - activeSuperInBatch < 1 then
      (targets.filter countsAsSuper).map fun target => lastSuperAdmin target.1
    else []
  if failures.isEmpty then .ok (targets.mergeSort fun a b => decide (a.1 ≤ b.1))
  else .error (batchBlocked failures)

/-- The targets are read before the super administrators are locked. -/
def loadDeactivationTargets (userIds : List Nat) (operator : BackstageOperator) :
    BackstageTx (List (Nat × User)) := do
  let rows ← Txn.query fun v => v.users
  let activeSupers ← lockActiveSupers
  Txn.liftExcept (checkTargets operator rows activeSupers.length userIds)

def pendingProfileChanges (v : BackstageStore) (userId : Nat) : List (Nat × ProfileChange) :=
  v.approvalRequests.select fun _ r => r.applicantId == userId && r.status == .pending

def cancelPendingProfileChanges (userId : Nat) (operator : BackstageOperator) (now : Int) :
    BackstageTx Unit := do
  let pending ← Txn.query fun v => pendingProfileChanges v userId
  pending.forM fun request => do
    let cancelled ← Txn.act
      (fun v => if (v.approvalRequests.find? request.1).any fun r =>
          r.status == .pending && r.version == request.2.version
        then [.approvalRequest request.1] else [])
      fun v =>
        if (v.approvalRequests.find? request.1).any fun r =>
            r.status == .pending && r.version == request.2.version then
          .ok (true, fun s => { s with
            approvalRequests := s.approvalRequests.update request.1 fun r =>
              { r with
                status := .cancelled
                cancelledAt := some now
                cancelledBy := some operator.id
                cancelSource := some .accountDeactivated
                version := r.version + 1 } })
        else .ok (false, fun s => s)
    Txn.guard cancelled (.of .statusConflict)
    let action : ApprovalActionRecord :=
      ⟨request.1, .cancel, operator.id, operator.name, some .accountDeactivated⟩
    let _ ← Txn.create (fun _ => []) (fun _ => []) fun id s =>
      { s with approvalActions := s.approvalActions.insert id action }
    pure ()

/-- A task that is there already counts as written, but the failed insert has aborted the
transaction: its next statement fails. -/
def createPendingTask (task : AccountLifecycleTask) : BackstageTx Unit := do
  let _ ← Txn.create (fun _ => [.taskUuid task.taskUuid])
    (fun v => [(!(v.backgroundTasks.select fun _ t => t.taskUuid == task.taskUuid).isEmpty,
      .transactionAborted)])
    fun id s => { s with backgroundTasks := s.backgroundTasks.insert id task }
  pure ()

/-- A row of the operation log that records no request. -/
def writeBackstageOperationLog (operator : BackstageOperator) (actionType : LogAction)
    (summary : String) : BackstageTx Unit := do
  let _ ← writeOperationLog backstageLog
    ⟨operator.toOperationLogOperator, "user_manage", "", none, ""⟩
    (⟨.ok, actionType, summary⟩ : IdempotentOutcome BackstageReply)
  pure ()

/-- The invitations of an account that can still be used. -/
def validInvitations (v : BackstageStore) (userId : Nat) : List Nat :=
  (v.activationInvitations.select fun _ i => i.userId == userId && i.status == .valid).map (·.1)

def revokeAll (invitations : Table ActivationInvitation) (ids : List Nat) (now : Int) :
    Table ActivationInvitation :=
  invitations.updateMany (fun id _ => ids.contains id) fun i =>
    { i with status := .revoked, revokedAt := some now }

def statusLabel : UserStatus → String
  | .pendingActivation => "待激活"
  | _ => "正常"

/-- One account of a batch is deactivated. -/
def deactivateOne (env : BackstageEnvironment) (operator : BackstageOperator)
    (target : Nat × User) : BackstageTx Unit := do
  let lifecycleVersion := target.2.lifecycleVersion + 1
  let updated ← updateUserWhere target.1
    (fun u => u.lifecycleVersion == target.2.lifecycleVersion)
    fun u => { u with
      status := .deactivated
      deletedAt := some env.now
      sessionVersion := u.sessionVersion + 1
      lifecycleVersion := u.lifecycleVersion + 1 }
  Txn.guard updated (batchBlocked [targetDeactivated target.1])
  Txn.exec (fun v => (validInvitations v target.1).map .invitation) fun v s =>
    { s with activationInvitations :=
        revokeAll s.activationInvitations (validInvitations v target.1) env.now }
  cancelPendingProfileChanges target.1 operator env.now
  createPendingTask
    ⟨env.stableTaskUuid s!"ACCOUNT_LIFECYCLE:DEACTIVATED:{target.1}:{lifecycleVersion}",
      target.1, env.now, lifecycleVersion⟩
  writeBackstageOperationLog operator .delete
    s!"注销用户：{target.2.name}（{maskPhone target.2.phone}，{statusLabel target.2.status}→已注销）"

def deactivateScope : String := "users.batch-deactivate"

def batchDeactivateRun (env : BackstageEnvironment) (operator : BackstageOperator)
    (userIds : List Nat) : BackstageTx (IdempotentOutcome BackstageReply) := do
  let targets ← loadDeactivationTargets userIds operator
  lockUserRowsForUpdate userIds
  targets.forM (deactivateOne env operator)
  let names := "、".intercalate (targets.map fun target => target.2.name)
  pure ⟨.okFor userIds, .delete, s!"批量注销：{targets.length} 人（{names}）"⟩

def batchDeactivate (env : BackstageEnvironment) (operatorId : Nat) (dto : BatchDeactivate)
    (fingerprint : String) : BackstageCall where
  main := do
    let operator ← loadOperationLogOperator env operatorId
    (executeIdempotentOperation backstageLog
      (SuperAdminService.options deactivateScope operator.toOperationLogOperator
        dto.idempotencyKey fingerprint)
      (batchDeactivateRun env operator dto.userIds)).main
  recover :=
    SuperAdminService.recovery deactivateScope operatorId dto.idempotencyKey fingerprint

/-! ## Restore -/

structure RestoreTarget where
  userId : Nat
  lifecycleVersion : Nat

structure RestoreConfirm where
  restoreRequestId : String
  targets : List RestoreTarget
  idempotencyKey : Option String

/-- Numbers of other accounts that are pending or active. -/
def occupiedPhones (v : BackstageStore) (phones : List String) (excludeUserIds : List Nat) :
    List String :=
  (v.users.select fun id u => phones.contains u.phone && !excludeUserIds.contains id &&
    (u.status == .pendingActivation || u.status == .active) && u.deletedAt.isNone).map (·.2.phone)

def restoreFailure (operator : BackstageOperator) (rows : Table User) (occupied : List String)
    (target : RestoreTarget) : Option TargetFailure :=
  match rows.find? target.userId with
  | none => some (targetNotFound target.userId)
  | some user =>
      if user.deletedAt.isNone then
        some ⟨target.userId, "TARGET_NOT_DEACTIVATED", "目标账号未处于已注销状态"⟩
      else if user.lifecycleVersion ≠ target.lifecycleVersion then
        some ⟨target.userId, "VERSION_CONFLICT", "账号状态已变化，请重新预览"⟩
      else if user.isSuperAdmin && !operator.isSuperAdmin then
        some (superAdminTarget target.userId)
      else if occupied.contains user.phone then
        some ⟨target.userId, "PHONE_OCCUPIED", "手机号已被其他待激活/正常账号占用"⟩
      else none

def assertRestorable (operator : BackstageOperator) (rows : Table User) (occupied : List String)
    (targets : List RestoreTarget) : Except Failure Unit :=
  let failures := targets.filterMap (restoreFailure operator rows occupied)
  if failures.isEmpty then .ok () else .error (batchBlocked failures)

def dataScopeLabel : DataScope → String
  | .self => "本人"
  | .department => "部门"
  | .company => "公司"

def catalogOf (v : BackstageStore) : List FunctionRow :=
  (v.functions.select fun _ _ => true).map (·.2)

def functionOf (catalog : List FunctionRow) (code : String) : Option FunctionRow :=
  catalog.find? fun fn => fn.code == code

def grantLabel (catalog : List FunctionRow) (functionCode : String) (dataScope : DataScope) :
    String :=
  s!"{((functionOf catalog functionCode).map (·.name)).getD functionCode}（{dataScopeLabel dataScope}）"

/-- A grant of a function that left the catalog, or of a scope it no longer offers. -/
def isInvalidGrant (catalog : List FunctionRow) (grant : EmployeeGrant) : Bool :=
  match functionOf catalog grant.functionCode with
  | none => true
  | some fn => !fn.dataScopeOptions.contains grant.dataScope

/-- A status for which the number of an account must be its own. -/
def isLive (u : User) : Bool :=
  (u.status == .pendingActivation || u.status == .active) && u.deletedAt.isNone

/-- Where an account stands after a restore. -/
def restoredStatus (user : User) : UserStatus :=
  if user.passwordHash.isNone then .pendingActivation else .active

/-- One account is restored, if it is as the preview has shown it. -/
def restoreOne (operator : BackstageOperator) (rows : Table User) (catalog : List FunctionRow)
    (target : RestoreTarget) : BackstageTx Unit := do
  let user ← Txn.orThrow (rows.find? target.userId) (.of .resourceNotFound)
  let matching : User → Bool := fun u =>
    u.lifecycleVersion == target.lifecycleVersion && u.deletedAt.isSome
  let restored ← Txn.act
    (fun v => match (v.users.find? target.userId).filter matching with
      | some u => [.user target.userId, .phone u.phone]
      | none => [])
    fun v => match (v.users.find? target.userId).filter matching with
      | none => .ok (false, fun s => s)
      | some u =>
          if (v.users.select fun id w =>
              id != target.userId && w.phone == u.phone && isLive w).isEmpty then
            .ok (true, fun s => { s with
              users := s.users.update target.userId fun u =>
                { u with
                  status := restoredStatus user
                  deletedAt := none
                  lifecycleVersion := u.lifecycleVersion + 1
                  permissionVersion := u.permissionVersion + 1 } })
          else .error (.uniqueViolation "users_phone_active_unique")
  Txn.guard restored (.of .conflict)
  let grants ← Txn.query fun v => v.employeeGrants.select fun _ g => g.userId == target.userId
  let invalid := grants.filter fun g => isInvalidGrant catalog g.2
  Txn.exec (fun _ => invalid.map fun g => .employeeGrant g.1) fun _ s =>
    { s with employeeGrants :=
        s.employeeGrants.deleteMany fun id _ => (invalid.map (·.1)).contains id }
  let revoked := invalid.map fun g => grantLabel catalog g.2.functionCode g.2.dataScope
  let labels := "、".intercalate revoked
  writeBackstageOperationLog operator .update
    (s!"恢复用户：{user.name}（{maskPhone user.phone}，恢复为{statusLabel (restoredStatus user)}）" ++
      if revoked.isEmpty then "" else s!"，移除失效授权 [{labels}]")

def restoreScope : String := "users.batch-restore"

def confirmRestoreRun (operator : BackstageOperator) (rows : Table User)
    (catalog : List FunctionRow) (dto : RestoreConfirm) :
    BackstageTx (IdempotentOutcome BackstageReply) := do
  lockUserRowsForUpdate (dto.targets.map (·.userId))
  let sorted := dto.targets.mergeSort fun a b => decide (a.userId ≤ b.userId)
  sorted.forM (restoreOne operator rows catalog)
  pure ⟨.okFor (dto.targets.map (·.userId)), .update,
    s!"批量恢复：{sorted.length} 人（恢复请求 {dto.restoreRequestId}）"⟩

/-- What the organisation is told: every target with the time it was deactivated. -/
def hrTargets (rows : Table User) (targets : List RestoreTarget) : List HrRestoreTarget :=
  targets.map fun target =>
    ⟨target.userId, ((rows.find? target.userId).bind (·.deletedAt)).getD 0,
      target.lifecycleVersion⟩

/-- The steps after the look for a recorded result. -/
def applyRestore (env : BackstageEnvironment) (operator : BackstageOperator)
    (options : IdempotentOptions) (dto : RestoreConfirm) : BackstageTx BackstageReply := do
  let targetIds := dto.targets.map (·.userId)
  let rows ← Txn.query fun v => v.users
  let phones := targetIds.filterMap fun id => (rows.find? id).map (·.phone)
  let occupied ← Txn.query fun v => occupiedPhones v phones targetIds
  Txn.liftExcept (assertRestorable operator rows occupied dto.targets)
  Txn.liftExcept (env.hrRestoreApply dto.restoreRequestId (hrTargets rows dto.targets))
  let catalog ← Txn.query catalogOf
  commitIdempotentOperation backstageLog options (confirmRestoreRun operator rows catalog dto)

def confirmRestore (env : BackstageEnvironment) (operatorId : Nat) (dto : RestoreConfirm)
    (fingerprint : String) : BackstageCall where
  main := do
    let operator ← loadOperationLogOperator env operatorId
    let options := SuperAdminService.options restoreScope operator.toOperationLogOperator
      dto.idempotencyKey fingerprint
    replayOr backstageLog options (applyRestore env operator options dto)
  recover :=
    SuperAdminService.recovery restoreScope operatorId dto.idempotencyKey fingerprint

end UserLifecycleService

end Wbme.Backstage
