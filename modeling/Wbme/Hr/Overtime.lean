import Wbme.Hr.Approvals

/-! # Overtime submission

A batch is submitted for oneself or for others, all or nothing. Access, the date window and
the employees are checked before the transaction; inside it the overtime of every employee
on the day is locked and the overlap is checked again.
-/

namespace Wbme.Hr

open Lib Approval

/-! ## Overlap -/

/-- Do two half-open intervals of minutes overlap? -/
def overlaps (aStart aEnd bStart bEnd : Int) : Bool := aStart < bEnd && bStart < aEnd

/-- The intervals that a new one overlaps. -/
def findOverlapping (start end_ : Int) (existing : List (Int × Int)) : List (Int × Int) :=
  existing.filter fun item => overlaps start end_ item.1 item.2

/-! ## The date window -/

def dayMillis : Int := 86400000

def beijingDay (now : Int) : Int := (now + 8 * 3600000) / dayMillis

def windowRange (advanceDays backfillDays now : Int) : Int × Int :=
  (beijingDay (now - backfillDays * dayMillis), beijingDay (now + advanceDays * dayMillis))

def isWithinWindow (date : Int) (range : Int × Int) : Bool := range.1 ≤ date && date ≤ range.2

/-- Two digits of a number below one hundred. -/
def padded (n : Int) : String := if n < 10 then s!"0{n}" else s!"{n}"

def formatTime (minute : Int) : String :=
  if minute = 1440 then "24:00" else s!"{padded (minute / 60)}:{padded (minute % 60)}"

namespace OvertimeSubmissionService

/-- A batch; the date as it was sent and as a number. -/
structure OvertimeSubmit where
  overtimeDate : Int
  dateText : String
  startMinute : Int
  endMinute : Int
  reason : String
  userIds : List Nat
  idempotencyKey : Option String

/-- Why an employee cannot be submitted. -/
structure OvertimeBatchFailure where
  userId : Nat
  code : ErrorCode
  message : String

def FunctionAccess.granted (access : FunctionAccess) : Bool :=
  access.registered && access.systemOpen && access.allowed

section Checks

variable (env : HrEnvironment) (operator : OperationLogOperator) (dto : OvertimeSubmit)

def hasApply : Bool := FunctionAccess.granted (env.access operator.id .overtimeApply)

def hasProxy : Bool := FunctionAccess.granted (env.access operator.id .proxyOvertime)

/-- May the operator submit for others? -/
def canProxy : Bool :=
  hasProxy env operator && (env.access operator.id .proxyOvertime).dataScope != some .self

/-- The employees of the batch. -/
def targets : List Nat := if canProxy env operator then dto.userIds.dedup else dto.userIds

/-- Some function is granted, and without the right to submit for others the batch is one's
own. -/
def assertFunction : HrTx Unit := do
  Txn.guard (hasApply env operator || hasProxy env operator) (.of .resourceNotFound)
  Txn.guard (canProxy env operator || dto.userIds == [operator.id])
    (.because .validationFailed "仅持\"加班申请\"功能时名单只能包含本人")

def assertWindow : HrTx Unit :=
  Txn.guard
    (isWithinWindow dto.overtimeDate
      (windowRange env.overtimeAdvanceDays env.overtimeBackfillDays env.now))
    (.of .overtimeDateOutOfWindow)

/-- The departments whose employees the operator may submit for; none for the whole company. -/
def proxyClosure : Option (List Nat) :=
  if canProxy env operator && (env.access operator.id .proxyOvertime).dataScope == some .department
  then some (env.closureOfUser operator.id)
  else none

/-- Does a head count against other overtime? -/
def isLive (status : ApprovalStatus) : Bool := status == .pending || status == .approved

def liveItems (v : HrStore) (userId : Nat) (date : Int) : List (Nat × OvertimeItem) :=
  v.overtimeItems.select fun _ item => item.userId == userId && item.overtimeDate == date &&
    (v.approvalRequests.find? item.requestId).any fun head => isLive head.status

/-- Does the batch overlap a live item of the employee? -/
def hasOverlap (v : HrStore) (userId : Nat) : Bool :=
  !(findOverlapping dto.startMinute dto.endMinute
    ((liveItems v userId dto.overtimeDate).map fun p => (p.2.startMinute, p.2.endMinute))).isEmpty

def isActive (userId : Nat) : Bool := (env.account userId).any fun a => a.active && !a.deleted

/-- The failures of one employee; the operator is not checked here. -/
def targetFailures (v : HrStore) (userId : Nat) : List OvertimeBatchFailure :=
  if userId = operator.id then []
  else if !isActive env userId then [⟨userId, .overtimeEmployeeNotActive, "加班员工账号状态异常"⟩]
  else
    (if (proxyClosure env operator).any fun closure =>
        (v.departmentsOf userId).any fun d => !(d.id ∈ closure)
      then [⟨userId, .scopeNotCovered, "当前数据范围未覆盖该申请的全部对象"⟩] else []) ++
      if hasOverlap dto v userId then [⟨userId, .overtimeOverlap, "加班时间段与已有记录重叠"⟩] else []

/-- Every employee is checked, outside the transaction. -/
def validateBatch : HrTx (List OvertimeBatchFailure) := do
  let failures ← (targets env operator dto).mapM fun userId =>
    Txn.query fun v => targetFailures env operator dto v userId
  pure failures.flatten

def batchRejected (failures : List OvertimeBatchFailure) : Failure :=
  .business .overtimeBatchRejected (failures.map fun f => (s!"failures.{f.userId}", f.message))

end Checks

/-! ## The transaction -/

/-- The live items of the employees on the day, with their heads. -/
def lockedItems (v : HrStore) (dto : OvertimeSubmit) : List (Nat × OvertimeItem) :=
  v.overtimeItems.select fun _ item => item.userId ∈ dto.userIds &&
    item.overtimeDate == dto.overtimeDate &&
    (v.approvalRequests.find? item.requestId).any fun head => isLive head.status

/-- Lock the day of every employee, in the order of their ids. -/
def lockDays (dto : OvertimeSubmit) : HrTx Unit :=
  (dto.userIds.dedup.insertionSort (· ≤ ·)).forM fun userId =>
    Txn.queryForUpdate (fun _ => [.overtime userId dto.overtimeDate]) fun _ => ()

def assertNoOverlapInTransaction (dto : OvertimeSubmit) : HrTx Unit := do
  lockDays dto
  let rows ← Txn.queryForUpdate
    (fun v => (lockedItems v dto).flatMap fun p =>
      [.overtimeItem p.1, .approvalRequest p.2.requestId])
    fun v => lockedItems v dto
  dto.userIds.forM fun userId =>
    Txn.guard
      (findOverlapping dto.startMinute dto.endMinute
        ((rows.filter fun p => p.2.userId == userId).map fun p =>
          (p.2.startMinute, p.2.endMinute))).isEmpty
      (.business .overtimeOverlap [("userId", toString userId)])

/-- The item of one employee, with the departments and the position of the moment. -/
def createItem (env : HrEnvironment) (dto : OvertimeSubmit) (holiday : HolidayResult)
    (requestId userId : Nat) : HrTx Unit := do
  let departments ← Txn.query fun v => v.departmentsOf userId
  let position ← Txn.query fun v =>
    (v.positionOf userId).map fun id => (id, (v.positions.find? id).map (·.name))
  let _ ← overtimeItemCreate
    { requestId, userId, userName := env.userName userId
      departmentSnapshot := departmentsJson departments
      positionIdSnapshot := position.map (·.1)
      positionNameSnapshot := position.bind (·.2)
      overtimeDate := dto.overtimeDate
      startMinute := dto.startMinute
      endMinute := dto.endMinute
      reason := dto.reason
      holidaySnapshot := holiday
      isBackfill := dto.overtimeDate < beijingDay env.now }
  pure ()

def submitRun (env : HrEnvironment) (operator : OperationLogOperator) (dto : OvertimeSubmit)
    (holiday : HolidayResult) : HrTx (IdempotentOutcome HrReply) := do
  assertNoOverlapInTransaction dto
  let userIds := targets env operator dto
  let forOthers := canProxy env operator && !(userIds.all (· == operator.id))
  let head ← createRequestHead env
    { requestType := .overtime, applicantId := operator.id, applicantName := operator.name
      applicantDepartmentSnapshot := departmentsJson operator.departments
      proxyId := if forOthers then some operator.id else none
      proxyName := if forOthers then some operator.name else none }
  userIds.forM (createItem env dto holiday head.1)
  pure ⟨.submitted head.1 head.2, .create,
    s!"提交了加班申请：{dto.dateText} {formatTime dto.startMinute}-{formatTime dto.endMinute}，{userIds.length} 人"⟩

/-- The feature a submission is logged under. -/
def feature (env : HrEnvironment) (operator : OperationLogOperator) : String :=
  if canProxy env operator then HrFunction.proxyOvertime.code else HrFunction.overtimeApply.code

def submitOptions (env : HrEnvironment) (operator : OperationLogOperator) (dto : OvertimeSubmit)
    (fingerprint : String) : IdempotentOptions :=
  ⟨operator, feature env operator, "hr.overtime.submit", dto.idempotencyKey, fingerprint⟩

/-- The submission behind its checks. -/
def execute (env : HrEnvironment) (operator : OperationLogOperator) (dto : OvertimeSubmit)
    (fingerprint : String) (holiday : HolidayResult) : HrCall :=
  executeIdempotentOperation hrLog (submitOptions env operator dto fingerprint)
    (submitRun env operator dto holiday)

def submit (env : HrEnvironment) (operator : OperationLogOperator) (dto : OvertimeSubmit)
    (fingerprint : String) : HrCall where
  main := do
    assertFunction env operator dto
    assertWindow env dto
    let failures ← validateBatch env operator dto
    Txn.guard failures.isEmpty (batchRejected failures)
    let holiday ← Txn.orThrow (env.holiday dto.overtimeDate) (.of .holidayApiUnavailable)
    (execute env operator dto fingerprint holiday).main
  recover := replayAfterConflict hrLog (submitOptions env operator dto fingerprint)

end OvertimeSubmissionService

end Wbme.Hr
