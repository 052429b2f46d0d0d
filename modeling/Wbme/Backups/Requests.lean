import Wbme.Backups.Store
import Wbme.IdempotencyReplay

/-! # Asking for a backup or a restore

A backup may be asked for by a user or by another service, a restore is confirmed by a super
administrator. Each request passes its checks, and a confirmation waits for an emergency backup,
before it becomes an idempotent operation. Between any two of its calls the others go on, so a
call meets a state of its own.
-/

namespace Wbme.Backups

open Lib

/-! ## Rows -/

/-- What the requests read of an account. -/
structure PlatformUser where
  name : String
  isSuperAdmin : Bool
  deletedAt : Option Int

structure BackupRow where
  taskType : BackupType
  status : BackupStatus
  createdBy : Nat
  createdAt : Int
  taskUuid : Option Nat

inductive RestoreStatus where
  | pending
  | precheck
  | maintenance
  | restoring
  | succeeded
  | failed

def RestoreStatus.isActive : RestoreStatus → Bool
  | .pending => true
  | .precheck => true
  | .maintenance => true
  | .restoring => true
  | .succeeded => false
  | .failed => false

structure Restore where
  restoreUuid : Nat
  backupId : Nat
  status : RestoreStatus
  initiatedBy : Nat

inductive TaskRef where
  | backup (backupId : Nat)
  | restore (restoreUuid backupId : Nat)

structure PendingTask where
  taskUuid : Nat
  taskType : String
  initiatorId : Nat
  ref : TaskRef

inductive BackupReply where
  | backup (backupId taskUuid : Nat)
  | restore (restoreUuid restoreId taskUuid : Nat)

structure PlatformStore where
  users : Table PlatformUser
  backups : Table BackupRow
  restores : Table Restore
  backgroundTasks : Table PendingTask
  operationLogs : Table (OperationLog BackupReply)

inductive PlatformLock where
  | taskUuid (uuid : Nat)
  | restoreUuid (uuid : Nat)
  | idempotency (operatorId : Nat) (scope key : String)

abbrev PlatformTx (α : Type) := Txn PlatformStore PlatformLock Failure α

def platformLog : LogTable PlatformStore PlatformLock BackupReply where
  system := "BACKSTAGE"
  get := PlatformStore.operationLogs
  set s t := { s with operationLogs := t }
  lock := PlatformLock.idempotency
  get_set _ _ := rfl

/-- What the service computes with. -/
structure PlatformEnvironment where
  fingerprintPayload : Json → String
  /-- `stableTaskUuid`. -/
  stableTaskUuid : String → Nat
  /-- The first sixteen characters of a time: up to the minute. -/
  windowKey : Int → String

/-! ## Shared statements -/

/-- The insert of a backup under the next id, which others may have taken. -/
def createBackup (row : BackupRow) : PlatformTx Nat := do
  let id ← Txn.nextId
  Txn.act (fun _ => []) fun v =>
    if (v.backups.find? id).isSome then .error (.uniqueViolation "backups_pkey")
    else .ok (id, fun s => { s with backups := s.backups.insert id row })

/-- A task that is there already fails the transaction, whoever catches the violation. -/
def createPendingTask (task : PendingTask) : PlatformTx Unit := do
  let _ ← Txn.create (fun _ => [.taskUuid task.taskUuid])
    (fun v => [(!(v.backgroundTasks.select fun _ t => t.taskUuid == task.taskUuid).isEmpty,
      .transactionAborted)])
    fun id s => { s with backgroundTasks := s.backgroundTasks.insert id task }
  pure ()

def createBackupWithTask (env : PlatformEnvironment) (now : Int) (taskType : BackupType)
    (initiatorId : Nat) : PlatformTx (Nat × Nat) := do
  let backupId ← createBackup ⟨taskType, .running, initiatorId, now, none⟩
  let taskUuid := env.stableTaskUuid s!"{taskType.code}_BACKUP:{backupId}"
  Txn.exec (fun _ => []) fun _ s =>
    { s with backups := s.backups.update backupId fun r => { r with taskUuid := some taskUuid } }
  createPendingTask ⟨taskUuid, s!"{taskType.code}_BACKUP", initiatorId, .backup backupId⟩
  pure (backupId, taskUuid)

/-! ## Checks -/

structure DiskStatus where
  measurementAvailable : Bool
  isCritical : Bool

def assertDiskAcceptsCapacityWrites (disk : DiskStatus) : Except Failure Unit :=
  if !disk.measurementAvailable then
    .error (.business .dependencyUnavailable [("target", "磁盘空间检测")])
  else if disk.isCritical then .error (.of .diskSpaceCritical)
  else .ok ()

def hasActiveRestore (s : PlatformStore) : Bool :=
  !(s.restores.select fun _ r => r.status.isActive).isEmpty

def assertNoActiveRestore (s : PlatformStore) : Except Failure Unit :=
  if hasActiveRestore s then .error (.of .restoreInProgress) else .ok ()

def isLiveSuperAdmin (s : PlatformStore) (operatorId : Nat) : Bool :=
  (s.users.find? operatorId).any fun u => u.deletedAt.isNone && u.isSuperAdmin

def assertSuperAdmin (s : PlatformStore) (operatorId : Nat) : Except Failure Unit :=
  if isLiveSuperAdmin s operatorId then .ok () else .error (.of .restoreSuperAdminOnly)

def isSucceededBackup (s : PlatformStore) (backupId : Nat) : Bool :=
  (s.backups.find? backupId).any fun b => b.status == .succeeded

def assertTargetSucceeded (s : PlatformStore) (backupId : Nat) : Except Failure Unit :=
  if isSucceededBackup s backupId then .ok () else .error (.of .backupUnverified)

def runningBackup? (s : PlatformStore) : Option Nat :=
  ((s.backups.select fun _ b => b.status == .running && b.taskType != .emergency).head?).map (·.1)

def assertNoRunningBackup (s : PlatformStore) : Except Failure Unit :=
  match runningBackup? s with
  | some id => .error (.business .backupLockBusy [("backupId", toString id)])
  | none => .ok ()

def liveUser? (s : PlatformStore) (operatorId : Nat) : Option PlatformUser :=
  (s.users.find? operatorId).filter fun u => u.deletedAt.isNone

def loadOperationLogOperator (s : PlatformStore) (departments : List DepartmentRef)
    (operatorId : Nat) : Except Failure OperationLogOperator :=
  match liveUser? s operatorId with
  | some user => .ok ⟨operatorId, user.name, departments⟩
  | none => .error (.of .unauthorized)

/-! ## The emergency backup -/

def emergencyBackupRecentWindowMs : Int := 2 * 60 * 60 * 1000

/-- The latest emergency backup of the window that is running or has succeeded. -/
def recentEmergency? (now : Int) (s : PlatformStore) : Option Nat :=
  ((s.backups.select fun _ b =>
    b.taskType == .emergency && (b.status == .running || b.status == .succeeded) &&
      decide (now - emergencyBackupRecentWindowMs ≤ b.createdAt)).getLast?).map (·.1)

/-- The backup that is waited for, with the state it leaves. -/
def ensureEmergencyBackup (env : PlatformEnvironment) (now : Int) (operatorId : Nat) (n : Nat)
    (s : PlatformStore) : Except Failure (Nat × PlatformStore) :=
  match recentEmergency? now s with
  | some id => .ok (id, s)
  | none =>
      ((createBackupWithTask env now .emergency operatorId).run n s).map fun r => (r.1.1, r.2.2)

/-- The states that the polls meet until the deadline. -/
def waitForEmergencyBackup (backupId : Nat) : List PlatformStore → Bool
  | [] => false
  | s :: polls =>
      match s.backups.find? backupId with
      | none => false
      | some b =>
          if b.status = .succeeded then true
          else if b.status = .failed then false
          else waitForEmergencyBackup backupId polls

/-! ## Requests -/

inductive Request where
  | immediate (operatorId : Nat) (idempotencyKey : Option String)
  | internal (caller : String) (idempotencyKey : Option String)
  | confirm (operatorId backupId : Nat) (proceedWithoutEmergency : Option Bool)
      (idempotencyKey : Option String)

/-- What the calls of one request meet, each a state of its own, and the random values it
draws. -/
structure Attempt where
  now : Int
  disk : DiskStatus
  superAdminAt : PlatformStore
  targetAt : PlatformStore
  restoresAt : PlatformStore
  runningAt : PlatformStore
  emergencyAt : Nat × PlatformStore
  pollsAt : List PlatformStore
  operatorAt : PlatformStore
  departments : List DepartmentRef
  executedAt : Nat × PlatformStore
  randomUuid : Nat
  randomKey : String

/-- What becomes of a request: its answer with the state its operation leaves, and the states
that its other writing call met and left. -/
structure Sent where
  answer : Except Failure (BackupReply × Nat × PlatformStore)
  written : Option (PlatformStore × PlatformStore)

section Calls

variable (env : PlatformEnvironment)

def backupOptions (operator : OperationLogOperator) (idempotencyKey : String) (payload : Json) :
    IdempotentOptions where
  operator
  feature := "data_backup"
  scope := "backups.immediate"
  idempotencyKey := some idempotencyKey
  fingerprint := env.fingerprintPayload payload

def immediateRun (now : Int) (initiatorId : Nat) (summary : String) :
    PlatformTx (IdempotentOutcome BackupReply) := do
  let (backupId, taskUuid) ← createBackupWithTask env now .immediate initiatorId
  pure ⟨.backup backupId taskUuid, .create, summary⟩

def triggerImmediateBackup (operatorId : Nat) (idempotencyKey : Option String) (a : Attempt) :
    Except Failure (BackupReply × Nat × PlatformStore) := do
  assertDiskAcceptsCapacityWrites a.disk
  assertNoActiveRestore a.restoresAt
  let operator ← loadOperationLogOperator a.operatorAt a.departments operatorId
  (executeIdempotentOperation platformLog
    (backupOptions env operator
      (idempotencyKey.getD s!"immediate:{operatorId}:{a.randomKey}")
      (.obj [("operatorId", .num operatorId)]))
    (immediateRun env a.now operatorId "发起立即备份")).exec a.executedAt.1 a.executedAt.2

def internalPayload (caller : String) (now : Int) : Json :=
  .obj [("caller", .str caller), ("windowKey", .str (env.windowKey now))]

def triggerImmediateBackupInternal (caller : String) (idempotencyKey : Option String)
    (a : Attempt) : Except Failure (BackupReply × Nat × PlatformStore) := do
  assertDiskAcceptsCapacityWrites a.disk
  assertNoActiveRestore a.restoresAt
  (executeIdempotentOperation platformLog
    (backupOptions env ⟨0, s!"system:{caller}", []⟩
      (idempotencyKey.getD s!"internal:{caller}:{env.windowKey a.now}")
      (internalPayload env caller a.now))
    (immediateRun env a.now 0 s!"系统调用方 {caller} 发起立即备份")).exec
      a.executedAt.1 a.executedAt.2

def confirmOptions (operator : OperationLogOperator) (idempotencyKey : Option String)
    (backupId : Nat) : IdempotentOptions where
  operator
  feature := "data_backup"
  scope := "restores.confirm"
  idempotencyKey
  fingerprint := env.fingerprintPayload (.obj [("backupId", .num backupId)])

def confirmRun (operatorId backupId restoreUuid : Nat) :
    PlatformTx (IdempotentOutcome BackupReply) := do
  let found ← Txn.query fun v => isSucceededBackup v backupId
  Txn.guard found (.of .backupUnverified)
  let active ← Txn.query hasActiveRestore
  Txn.guard (!active) (.of .restoreInProgress)
  let restoreId ← Txn.create (fun _ => [.restoreUuid restoreUuid])
    (fun v => [(!(v.restores.select fun _ r => r.restoreUuid == restoreUuid).isEmpty,
      .uniqueViolation "restores_restore_uuid_key")])
    fun id s =>
      { s with restores := s.restores.insert id ⟨restoreUuid, backupId, .pending, operatorId⟩ }
  let taskUuid := env.stableTaskUuid s!"RESTORE_DELIVERY:{restoreUuid}"
  createPendingTask ⟨taskUuid, "RESTORE_DELIVERY", operatorId, .restore restoreUuid backupId⟩
  pure ⟨.restore restoreUuid restoreId taskUuid, .create, s!"确认整库恢复（备份 #{backupId}）"⟩

def confirmChecks (operatorId backupId : Nat) (a : Attempt) : Except Failure Unit := do
  assertSuperAdmin a.superAdminAt operatorId
  assertTargetSucceeded a.targetAt backupId
  assertNoActiveRestore a.restoresAt
  assertNoRunningBackup a.runningAt

/-- What follows once there is one. -/
def confirmWith (operatorId backupId emergencyBackupId : Nat)
    (proceedWithoutEmergency : Option Bool) (idempotencyKey : Option String) (a : Attempt) :
    Except Failure (BackupReply × Nat × PlatformStore) := do
  if !waitForEmergencyBackup emergencyBackupId a.pollsAt && !proceedWithoutEmergency.getD false then
    throw (.business .emergencyBackupFailed [("emergencyBackupId", toString emergencyBackupId)])
  let operator ← loadOperationLogOperator a.operatorAt a.departments operatorId
  (executeIdempotentOperation platformLog (confirmOptions env operator idempotencyKey backupId)
    (confirmRun env operatorId backupId a.randomUuid)).exec a.executedAt.1 a.executedAt.2

def confirmRestore (operatorId backupId : Nat) (proceedWithoutEmergency : Option Bool)
    (idempotencyKey : Option String) (a : Attempt) : Sent :=
  match confirmChecks operatorId backupId a with
  | .error e => ⟨.error e, none⟩
  | .ok () =>
      match ensureEmergencyBackup env a.now operatorId a.emergencyAt.1 a.emergencyAt.2 with
      | .error e => ⟨.error e, none⟩
      | .ok (emergencyBackupId, left) =>
          ⟨confirmWith env operatorId backupId emergencyBackupId proceedWithoutEmergency
            idempotencyKey a, some (a.emergencyAt.2, left)⟩

def Request.send (a : Attempt) : Request → Sent
  | .immediate operatorId key => ⟨triggerImmediateBackup env operatorId key a, none⟩
  | .internal caller key => ⟨triggerImmediateBackupInternal env caller key a, none⟩
  | .confirm operatorId backupId proceed key =>
      confirmRestore env operatorId backupId proceed key a

end Calls

def Request.idempotencyKey : Request → Option String
  | .immediate _ key => key
  | .internal _ key => key
  | .confirm _ _ _ key => key

end Wbme.Backups
