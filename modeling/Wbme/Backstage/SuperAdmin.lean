import Wbme.Backstage.Store

/-! # Appointing and demoting super administrators

Only super administrators do either; the transaction checks the acting user once more. The
last account that may act as one cannot be demoted: a demotion locks all of them before it
counts.
-/

namespace Wbme.Backstage

open Lib

namespace SuperAdminService

def loadSuperOperator (env : BackstageEnvironment) (operatorId : Nat) :
    BackstageTx BackstageOperator := do
  let operator ← loadOperationLogOperator env operatorId
  Txn.guard operator.isSuperAdmin (.of .forbidden)
  pure operator

def assertOperatorStillSuper (operatorId : Nat) : BackstageTx Unit := do
  let operator ← Txn.query fun v => v.users.find? operatorId
  Txn.guard (operator.any fun u => u.deletedAt.isNone && u.isSuperAdmin) (.of .forbidden)

def options (scope : String) (operator : OperationLogOperator) (idempotencyKey : Option String)
    (fingerprint : String) : IdempotentOptions :=
  ⟨operator, "user_manage", scope, idempotencyKey, fingerprint⟩

/-- What a failed call looks up depends on the acting user's id only. -/
def recovery (scope : String) (operatorId : Nat) (idempotencyKey : Option String)
    (fingerprint : String) (e : Failure) : Option (BackstageTx BackstageReply) :=
  replayAfterConflict backstageLog
    (options scope ⟨operatorId, "", []⟩ idempotencyKey fingerprint) e

def appointScope : String := "users.super-admin.appoint"

def demoteScope : String := "users.super-admin.demote"

def appointRun (operatorId targetUserId : Nat) :
    BackstageTx (IdempotentOutcome BackstageReply) := do
  assertOperatorStillSuper operatorId
  let found ← Txn.query fun v => v.users.find? targetUserId
  let target ← Txn.orThrow found (.of .resourceNotFound)
  Txn.guard (target.status != .deactivated && target.deletedAt.isNone) (.of .accountDeactivated)
  Txn.guard (target.status == .active) (.of .userNotActive)
  Txn.guard (!target.isSuperAdmin) (.of .alreadySuperAdmin)
  updateUser targetUserId fun u =>
    { u with isSuperAdmin := true, permissionVersion := u.permissionVersion + 1 }
  pure ⟨.ok, .update,
    s!"任命超级管理员：{target.name}（{maskPhone target.phone}）：站点角色 员工 → 超级管理员"⟩

def appoint (env : BackstageEnvironment) (operatorId targetUserId : Nat)
    (idempotencyKey : Option String) (fingerprint : String) : BackstageCall where
  main := do
    let operator ← loadSuperOperator env operatorId
    (executeIdempotentOperation backstageLog
      (options appointScope operator.toOperationLogOperator idempotencyKey fingerprint)
      (appointRun operatorId targetUserId)).main
  recover := recovery appointScope operatorId idempotencyKey fingerprint

def demoteRun (operatorId targetUserId : Nat) :
    BackstageTx (IdempotentOutcome BackstageReply) := do
  let activeSupers ← lockActiveSupers
  Txn.guard (activeSupers.contains operatorId) (.of .forbidden)
  let found ← Txn.query fun v => v.users.find? targetUserId
  let target ← Txn.orThrow (found.filter fun u => u.deletedAt.isNone) (.of .resourceNotFound)
  Txn.guard target.isSuperAdmin (.of .notSuperAdmin)
  Txn.guard (!(target.status == .active && activeSupers.length ≤ 1)) (.of .lastSuperAdmin)
  updateUser targetUserId fun u =>
    { u with isSuperAdmin := false, permissionVersion := u.permissionVersion + 1 }
  pure ⟨.ok, .update,
    s!"超级管理员降级：{target.name}（{maskPhone target.phone}）：站点角色 超级管理员 → 员工"⟩

def demote (env : BackstageEnvironment) (operatorId targetUserId : Nat)
    (idempotencyKey : Option String) (fingerprint : String) : BackstageCall where
  main := do
    let operator ← loadSuperOperator env operatorId
    (executeIdempotentOperation backstageLog
      (options demoteScope operator.toOperationLogOperator idempotencyKey fingerprint)
      (demoteRun operatorId targetUserId)).main
  recover := recovery demoteScope operatorId idempotencyKey fingerprint

end SuperAdminService

end Wbme.Backstage
