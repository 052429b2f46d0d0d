import Wbme.Approval.StateMachine
import Wbme.Idempotency

/-! # The HR store

The tables of the HR schema that the organisation, its approvals and overtime read or
write, with the locks PostgreSQL takes for them. Rows carry no key of their own: the table
holds it. What other schemas and the clock contribute is an environment of the operation.
-/

namespace Wbme.Hr

open Lib Approval

/-! ## Rows -/

/-- Status of a department or of a position. -/
inductive OrgStatus where
  | active
  | disabled
deriving DecidableEq

inductive HrRequestType where
  | overtime
  | positionChange
deriving DecidableEq

structure Department where
  parentId : Option Nat
  name : String
  status : OrgStatus

structure DepartmentLeader where
  departmentId : Nat
  userId : Nat
  userName : String
  createdBy : Nat

structure Position where
  name : String
  status : OrgStatus
  allowSelfApply : Bool

structure PositionDepartment where
  positionId : Nat
  departmentId : Nat
deriving DecidableEq

structure UserDepartment where
  userId : Nat
  departmentId : Nat
  createdBy : Nat

structure UserPosition where
  positionId : Option Nat
  assignedBy : Nat

structure OrgCompatRecord where
  userId : Nat
  restoreRequestId : String
  clearedDepartments : Option (List DepartmentRef)
  positionCleared : Bool

structure HrApprovalRequest where
  applicationNo : String
  requestType : HrRequestType
  applicantId : Nat
  applicantName : String
  applicantDepartmentSnapshot : Json
  proxyId : Option Nat
  proxyName : Option String
  status : ApprovalStatus
  version : Nat
  submittedAt : Option Int
  cancelledBy : Option Nat
  cancelledAt : Option Int
  cancelSource : Option CancelSource
  processorId : Option Nat
  processorName : Option String
  processedAt : Option Int
  opinion : Option String

structure HrApprovalAction where
  requestId : Nat
  action : ApprovalAction
  actorId : Nat
  actorName : String
  opinion : Option String
  cancelSource : Option CancelSource

structure HolidayResult where
  dateType : String
  source : String
  digest : String
  fetchedAt : String

/-- One employee of an overtime batch; the date counts days. -/
structure OvertimeItem where
  requestId : Nat
  userId : Nat
  userName : String
  departmentSnapshot : Json
  positionIdSnapshot : Option Nat
  positionNameSnapshot : Option String
  overtimeDate : Int
  startMinute : Int
  endMinute : Int
  reason : String
  holidaySnapshot : HolidayResult
  isBackfill : Bool

structure PositionChangeRequest where
  requestId : Nat
  userId : Nat
  userName : String
  departmentSnapshot : Json
  targetDepartmentId : Nat
  targetDepartmentName : String
  targetPositionId : Nat
  targetPositionName : String

/-- What the operations answer, and the log records. -/
inductive HrReply where
  | done
  | created (id : Nat)
  | deleted (count : Nat)
  | submitted (requestId : Nat) (applicationNo : String)
  | applied
  | cancelled (count : Nat)
  | autoCancelled (cancelled : Bool)

/-! ## The store -/

structure HrStore where
  departments : Table Department
  departmentLeaders : Table DepartmentLeader
  positions : Table Position
  positionDepartments : Table PositionDepartment
  userDepartments : Table UserDepartment
  userPositions : Table UserPosition
  orgCompatRecords : Table OrgCompatRecord
  approvalRequests : Table HrApprovalRequest
  approvalActions : Table HrApprovalAction
  overtimeItems : Table OvertimeItem
  positionChangeRequests : Table PositionChangeRequest
  operationLogs : Table (OperationLog HrReply)
  userOrgVersion : Nat
  orgTreeVersion : Nat

def HrStore.empty : HrStore :=
  ⟨.empty, .empty, .empty, .empty, .empty, .empty, .empty, .empty, .empty, .empty, .empty,
    .empty, 0, 0⟩

/-- Row locks, advisory locks, and the waits on unique indexes. -/
inductive HrLock where
  | department (id : Nat)
  | position (id : Nat)
  | positionName (name : String)
  | positionDepartment (positionId departmentId : Nat)
  | userDepartment (userId departmentId : Nat)
  | userPosition (userId : Nat)
  | compatRecord (restoreRequestId : String) (userId : Nat)
  | approvalRequest (id : Nat)
  | applicationNo (no : String)
  | pendingPositionChange (applicantId : Nat)
  | overtimeItem (id : Nat)
  | idempotency (operatorId : Nat) (scope key : String)
  | orgMeta
  /-- The advisory lock of a restore. -/
  | restore (restoreRequestId : String)
  /-- The advisory lock of a user's overtime on one day. -/
  | overtime (userId : Nat) (date : Int)

abbrev HrTx (α : Type) := Txn HrStore HrLock Failure α

abbrev HrCall := Call HrStore HrLock Failure HrReply

def hrLog : LogTable HrStore HrLock HrReply where
  system := "HR"
  get := HrStore.operationLogs
  set s t := { s with operationLogs := t }
  lock := HrLock.idempotency
  get_set _ _ := rfl

/-! ## The outside world -/

/-- An account of the backstage schema. -/
structure Account where
  name : String
  active : Bool
  deleted : Bool
  lifecycleVersion : Nat

/-- Functions whose access the modelled services ask for. -/
inductive HrFunction where
  | overtimeApply
  | proxyOvertime
  | overtimeApproval
  | orgStructure

structure HrEnvironment where
  /-- Milliseconds since the epoch. -/
  now : Int
  account : Nat → Option Account
  access : Nat → HrFunction → FunctionAccess
  /-- The departments at or below a user's own. -/
  closureOfUser : Nat → List Nat
  overtimeAdvanceDays : Int
  overtimeBackfillDays : Int
  /-- The day's type, unless the holiday service fails and no offline data covers the day. -/
  holiday : Int → Option HolidayResult
  /-- The time and random part of the application number. -/
  applicationNoSuffix : String

/-- The display name of an account; empty for a missing one. -/
def HrEnvironment.userName (env : HrEnvironment) (userId : Nat) : String :=
  ((env.account userId).map (·.name)).getD ""

/-! ## Views -/

def HrStore.departmentsOf (v : HrStore) (userId : Nat) : List DepartmentRef :=
  (v.userDepartments.select fun _ r => r.userId == userId).filterMap fun p =>
    (v.departments.find? p.2.departmentId).map fun d => ⟨p.2.departmentId, d.name⟩

def HrStore.departmentIdsOf (v : HrStore) (userId : Nat) : List Nat :=
  (v.userDepartments.select fun _ r => r.userId == userId).map (·.2.departmentId)

/-- The departments a position applies to. -/
def HrStore.applicableTo (v : HrStore) (positionId : Nat) : List Nat :=
  (v.positionDepartments.select fun _ r => r.positionId == positionId).map (·.2.departmentId)

def HrStore.positionOf (v : HrStore) (userId : Nat) : Option Nat :=
  (v.userPositions.find? userId).bind (·.positionId)

end Wbme.Hr
