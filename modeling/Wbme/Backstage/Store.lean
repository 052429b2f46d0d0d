import Wbme.Approval.StateMachine
import Wbme.Idempotency

/-! # The platform store

Accounts with their site role and lifecycle, the functions of the permission catalog and
the grants of employees, with what the deactivation of an account writes besides, and the
locks PostgreSQL takes for them.
-/

namespace Wbme.Backstage

open Lib Approval

/-! ## Rows -/

inductive UserStatus where
  | pendingActivation
  | active
  | deactivated
deriving DecidableEq

structure User where
  name : String
  phone : String
  passwordHash : Option String
  status : UserStatus
  isSuperAdmin : Bool
  sessionVersion : Nat
  permissionVersion : Nat
  lifecycleVersion : Nat
  deletedAt : Option Int
deriving DecidableEq

inductive DataScope where
  | self
  | department
  | company
deriving DecidableEq

structure FunctionRow where
  code : String
  name : String
  dataScopeOptions : List DataScope

structure EmployeeGrant where
  userId : Nat
  functionCode : String
  dataScope : DataScope
  grantedBy : Nat

inductive InvitationStatus where
  | valid
  | used
  | revoked
deriving DecidableEq

structure ActivationInvitation where
  userId : Nat
  status : InvitationStatus
  revokedAt : Option Int

/-- A request to change the own profile; the schema has no other type of request. -/
structure ProfileChange where
  applicantId : Nat
  status : ApprovalStatus
  version : Nat
  cancelledAt : Option Int
  cancelledBy : Option Nat
  cancelSource : Option CancelSource

structure ApprovalActionRecord where
  requestId : Nat
  action : ApprovalAction
  actorId : Nat
  actorName : String
  cancelSource : Option CancelSource

structure AccountLifecycleTask where
  taskUuid : String
  userId : Nat
  deactivatedAt : Int
  lifecycleVersion : Nat

/-- What the operations answer, and the log records. -/
inductive BackstageReply where
  | ok
  | okFor (userIds : List Nat)

/-! ## The store -/

structure BackstageStore where
  users : Table User
  functions : Table FunctionRow
  employeeGrants : Table EmployeeGrant
  activationInvitations : Table ActivationInvitation
  approvalRequests : Table ProfileChange
  approvalActions : Table ApprovalActionRecord
  backgroundTasks : Table AccountLifecycleTask
  operationLogs : Table (OperationLog BackstageReply)

def BackstageStore.empty : BackstageStore :=
  ⟨.empty, .empty, .empty, .empty, .empty, .empty, .empty, .empty⟩

/-- Row locks and the waits on unique indexes. -/
inductive BackstageLock where
  | user (id : Nat)
  | phone (phone : String)
  | employeeGrant (id : Nat)
  | invitation (id : Nat)
  | approvalRequest (id : Nat)
  | taskUuid (uuid : String)
  | idempotency (operatorId : Nat) (scope key : String)
deriving DecidableEq

abbrev BackstageTx (α : Type) := Txn BackstageStore BackstageLock Failure α

abbrev BackstageCall := Call BackstageStore BackstageLock Failure BackstageReply

/-- The operation log of the platform. -/
def backstageLog : LogTable BackstageStore BackstageLock BackstageReply where
  system := "BACKSTAGE"
  get := BackstageStore.operationLogs
  set s t := { s with operationLogs := t }
  lock := BackstageLock.idempotency
  get_set _ _ := rfl

/-! ## The outside world -/

structure HrRestoreTarget where
  userId : Nat
  deactivatedAt : Int
  lifecycleVersion : Nat

structure BackstageEnvironment where
  /-- Milliseconds since the epoch. -/
  now : Int
  /-- The departments of a user, unless the view cannot be read. -/
  departmentsOf : Nat → Option (List DepartmentRef)
  /-- The UUID that is derived from a business key. -/
  stableTaskUuid : String → String
  /-- Whether the organisation has applied a restore. -/
  hrRestoreApply : String → List HrRestoreTarget → Except Failure Unit

/-! ## Shared statements -/

/-- An account that may act as a super administrator. -/
def User.isActiveSuper (u : User) : Bool :=
  u.isSuperAdmin && u.status == .active && u.deletedAt.isNone

/-- The acting user with the site role. -/
structure BackstageOperator extends OperationLogOperator where
  isSuperAdmin : Bool

def loadOperationLogOperator (env : BackstageEnvironment) (operatorId : Nat) :
    BackstageTx BackstageOperator := do
  let found ← Txn.query fun v => v.users.find? operatorId
  let operator ← Txn.orThrow (found.filter fun u => u.deletedAt.isNone) (.of .unauthorized)
  let departments ← Txn.query fun _ => env.departmentsOf operatorId
  pure ⟨⟨operatorId, operator.name, departments.getD []⟩, operator.isSuperAdmin⟩

/-- `SELECT … FOR UPDATE` of rows: the statement finds the candidates, then locks one after the
other in the order of their ids and looks at each again. -/
def lockUsersWhere (p : Nat → User → Bool) : BackstageTx (List Nat) := do
  let candidates ← Txn.query fun v => (v.users.select p).map (·.1)
  candidates.foldlM
    (fun locked id => do
      let found ← Txn.queryForUpdate (fun _ => [.user id])
        fun v => (v.users.find? id).any (p id)
      pure (if found then locked ++ [id] else locked))
    []

def lockUserRowsForUpdate (userIds : List Nat) : BackstageTx Unit := do
  let _ ← lockUsersWhere fun id _ => userIds.contains id
  pure ()

def lockActiveSupers : BackstageTx (List Nat) := lockUsersWhere fun _ u => u.isActiveSuper

/-- A conditional update of one account: whether it was found. -/
def updateUserWhere (id : Nat) (p : User → Bool) (f : User → User) : BackstageTx Bool :=
  Txn.act (fun v => if (v.users.find? id).any p then [.user id] else []) fun v =>
    if (v.users.find? id).any p then
      .ok (true, fun s => { s with users := s.users.update id f })
    else .ok (false, fun s => s)

def updateUser (id : Nat) (f : User → User) : BackstageTx Unit :=
  Txn.act (fun _ => [.user id]) fun v =>
    match v.users.find? id with
    | none => .error (.recordMissing "users")
    | some _ => .ok ((), fun s => { s with users := s.users.update id f })

/-- Digits of a number behind its country code, as they are shown. -/
def maskDigits (code : String) (digits : List Char) : String :=
  s!"+{code} {String.ofList (digits.take 3)}****{String.ofList (digits.drop (digits.length - 4))}"

/-- A number keeps its country code, the first three and the last four digits. -/
def maskPhone (normalized : String) : String :=
  match normalized.toList with
  | '+' :: digits =>
      let n := digits.length
      if !digits.all Char.isDigit then "***"
      else if digits.take 2 = ['8', '6'] ∧ 7 ≤ n ∧ n ≤ 17 then maskDigits "86" (digits.drop 2)
      else
        -- the country code takes as many digits as it can
        match [3, 2, 1].find? fun k => 5 + k ≤ n ∧ n ≤ 15 + k with
        | some k => maskDigits (String.ofList (digits.take k)) (digits.drop k)
        | none => "***"
  | _ => "***"

end Wbme.Backstage
