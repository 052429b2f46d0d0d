import Wbme.Hr.Store

/-! # Statements of the HR store

One definition per kind of write the services issue, with the constraints the database
checks and the cascades it runs. An insert takes its key from the sequence; an update by
key fails when the row is missing; a conditional update reports how many rows it hit.
-/

namespace Wbme.Hr

open Lib Approval

/-! ## Departments and positions -/

def departmentCreate (row : Department) : HrTx Nat :=
  Txn.create (fun _ => [])
    (fun v => [(row.parentId.any fun p => (v.departments.find? p).isNone,
      .foreignKeyViolation "departments_parent_id_fkey")])
    (fun id s => { s with departments := s.departments.insert id row })

def departmentUpdate (id : Nat) (f : Department → Department) : HrTx Unit :=
  Txn.act (fun _ => [.department id]) fun v =>
    match v.departments.find? id with
    | none => .error (.recordMissing "Department")
    | some _ => .ok ((), fun s => { s with departments := s.departments.update id f })

def departmentLeaderCreate (row : DepartmentLeader) : HrTx Nat :=
  Txn.create (fun _ => [])
    (fun v => [(!(v.departmentLeaders.select fun _ r =>
        r.departmentId == row.departmentId && r.userId == row.userId).isEmpty,
      .uniqueViolation "department_leaders_department_id_user_id_key")])
    (fun id s => { s with departmentLeaders := s.departmentLeaders.insert id row })

def departmentLeaderDeleteMany (departmentId : Nat) : HrTx Unit :=
  Txn.exec (fun _ => []) fun _ s =>
    { s with
      departmentLeaders :=
        s.departmentLeaders.deleteMany fun _ r => r.departmentId == departmentId }

/-- Delete departments; their leaders and the assignments of users and of positions go with
them. -/
def departmentDeleteMany (ids : List Nat) : HrTx Unit :=
  Txn.act
    (fun v => ids.map .department ++
      (v.userDepartments.select fun _ r => r.departmentId ∈ ids).map (fun p =>
        .userDepartment p.2.userId p.2.departmentId) ++
      (v.positionDepartments.select fun _ r => r.departmentId ∈ ids).map fun p =>
        .positionDepartment p.2.positionId p.2.departmentId)
    fun v =>
      if (v.departments.select fun id r => r.parentId.any (· ∈ ids) && !(id ∈ ids)).isEmpty then
        .ok ((), fun s =>
          { s with
            departments := s.departments.deleteMany fun id _ => id ∈ ids
            departmentLeaders := s.departmentLeaders.deleteMany fun _ r => r.departmentId ∈ ids
            userDepartments := s.userDepartments.deleteMany fun _ r => r.departmentId ∈ ids
            positionDepartments :=
              s.positionDepartments.deleteMany fun _ r => r.departmentId ∈ ids })
      else .error (.foreignKeyViolation "departments_parent_id_fkey")

def positionNameTaken (v : HrStore) (id : Option Nat) (name : String) : Bool :=
  !(v.positions.select fun i r => r.name == name && some i != id).isEmpty

def nameTaken : Failure := .because .validationFailed "岗位名称已存在"

def positionCreate (row : Position) : HrTx Nat :=
  Txn.create (fun _ => [.positionName row.name])
    (fun v => [(positionNameTaken v none row.name, nameTaken)])
    (fun id s => { s with positions := s.positions.insert id row })

def positionUpdate (id : Nat) (row : Position) : HrTx Unit :=
  Txn.act (fun _ => [.position id, .positionName row.name]) fun v =>
    if (v.positions.find? id).isNone then .error (.recordMissing "Position")
    else if positionNameTaken v (some id) row.name then .error nameTaken
    else .ok ((), fun s => { s with positions := s.positions.update id fun _ => row })

/-- Delete positions; their departments go with them, and their holders have none. -/
def positionDeleteMany (ids : List Nat) : HrTx Unit :=
  Txn.exec
    (fun v => ids.map .position ++
      (v.positionDepartments.select fun _ r => r.positionId ∈ ids).map (fun p =>
        .positionDepartment p.2.positionId p.2.departmentId) ++
      (v.userPositions.select fun _ r => r.positionId.any (· ∈ ids)).map fun p =>
        .userPosition p.1)
    fun _ s =>
      { s with
        positions := s.positions.deleteMany fun id _ => id ∈ ids
        positionDepartments := s.positionDepartments.deleteMany fun _ r => r.positionId ∈ ids
        userPositions := s.userPositions.updateMany (fun _ r => r.positionId.any (· ∈ ids))
          fun r => { r with positionId := none } }

def positionDepartmentCreate (row : PositionDepartment) : HrTx Nat :=
  Txn.create (fun _ => [.positionDepartment row.positionId row.departmentId])
    (fun v => [(!(v.positionDepartments.select fun _ r => r == row).isEmpty,
      .uniqueViolation "position_departments_position_id_department_id_key")])
    (fun id s => { s with positionDepartments := s.positionDepartments.insert id row })

def positionDepartmentDeleteMany (positionId : Nat) : HrTx Unit :=
  Txn.exec
    (fun v => (v.positionDepartments.select fun _ r => r.positionId == positionId).map fun p =>
      .positionDepartment p.2.positionId p.2.departmentId)
    fun _ s =>
      { s with
        positionDepartments :=
          s.positionDepartments.deleteMany fun _ r => r.positionId == positionId }

/-! ## Assignments -/

def userDepartmentCreate (row : UserDepartment) : HrTx Nat :=
  Txn.create (fun _ => [.userDepartment row.userId row.departmentId])
    (fun v => [(!(v.userDepartments.select fun _ r =>
        r.userId == row.userId && r.departmentId == row.departmentId).isEmpty,
      .uniqueViolation "user_departments_user_id_department_id_key")])
    (fun id s => { s with userDepartments := s.userDepartments.insert id row })

/-- Drop the assignments of a user to the departments a condition selects. -/
def userDepartmentDeleteMany (userId : Nat) (which : Nat → Bool) : HrTx Unit :=
  Txn.exec
    (fun v => (v.userDepartments.select fun _ r => r.userId == userId && which r.departmentId).map
      fun p => .userDepartment p.2.userId p.2.departmentId)
    fun _ s =>
      { s with
        userDepartments := s.userDepartments.deleteMany fun _ r =>
          r.userId == userId && which r.departmentId }

def userPositionUpsert (userId : Nat) (row : UserPosition) : HrTx Unit :=
  Txn.exec (fun _ => [.userPosition userId]) fun _ s =>
    { s with userPositions := s.userPositions.insert userId row }

/-- Take the position from a user; who assigned it stays. -/
def userPositionClear (userId : Nat) : HrTx Unit :=
  Txn.exec (fun _ => [.userPosition userId]) fun _ s =>
    { s with userPositions := s.userPositions.update userId fun r => { r with positionId := none } }

def bumpUserOrgVersion : HrTx Unit :=
  Txn.exec (fun _ => [.orgMeta]) fun _ s => { s with userOrgVersion := s.userOrgVersion + 1 }

def bumpOrgTreeVersion : HrTx Unit :=
  Txn.exec (fun _ => [.orgMeta]) fun _ s => { s with orgTreeVersion := s.orgTreeVersion + 1 }

def orgCompatRecordCreate (row : OrgCompatRecord) : HrTx Nat :=
  Txn.create (fun _ => [.compatRecord row.restoreRequestId row.userId])
    (fun v => [(!(v.orgCompatRecords.select fun _ r =>
        r.restoreRequestId == row.restoreRequestId && r.userId == row.userId).isEmpty,
      .uniqueViolation "org_compat_records_restore_request_id_user_id_key")])
    (fun id s => { s with orgCompatRecords := s.orgCompatRecords.insert id row })

/-! ## Approvals -/

/-- The foreign key of a row that belongs to an approval head. -/
def requestMissing (v : HrStore) (requestId : Nat) (constraint : String) : Bool × Failure :=
  ((v.approvalRequests.find? requestId).isNone, .foreignKeyViolation constraint)

def pendingPositionChanges (v : HrStore) (applicantId : Nat) : List (Nat × HrApprovalRequest) :=
  v.approvalRequests.select fun _ r => r.requestType == .positionChange &&
    r.status == .pending && r.applicantId == applicantId

/-- Does the partial unique index cover the row? -/
def HrApprovalRequest.isPendingPositionChange (row : HrApprovalRequest) : Bool :=
  row.requestType == .positionChange && row.status == .pending

/-- Insert a head; a second pending position change is mapped to the reached limit. -/
def approvalRequestCreate (row : HrApprovalRequest) : HrTx Nat :=
  Txn.create
    (fun v => .applicationNo row.applicationNo ::
      (if row.isPendingPositionChange then
        .pendingPositionChange row.applicantId ::
          (pendingPositionChanges v row.applicantId).map fun p => .approvalRequest p.1
      else []))
    (fun v =>
      [(!(v.approvalRequests.select fun _ r => r.applicationNo == row.applicationNo).isEmpty,
          .uniqueViolation "application_no"),
        (row.isPendingPositionChange && !(pendingPositionChanges v row.applicantId).isEmpty,
          .of .pendingLimitReached)])
    (fun id s => { s with approvalRequests := s.approvalRequests.insert id row })

def approvalActionCreate (row : HrApprovalAction) : HrTx Nat :=
  Txn.create (fun _ => [])
    (fun v => [requestMissing v row.requestId "approval_actions_request_id_fkey"])
    (fun id s => { s with approvalActions := s.approvalActions.insert id row })

def pendingAt (v : HrStore) (id version : Nat) : Bool :=
  (v.approvalRequests.find? id).any fun r => r.status == .pending && r.version == version

/-- Close a pending head of the expected version; the number of rows hit. -/
def approvalRequestTransition (id version : Nat) (f : HrApprovalRequest → HrApprovalRequest) :
    HrTx Nat :=
  Txn.act (fun v => if pendingAt v id version then [.approvalRequest id] else []) fun v =>
    if pendingAt v id version then
      .ok (1, fun s => { s with approvalRequests := s.approvalRequests.update id f })
    else .ok (0, fun s => s)

def overtimeItemCreate (row : OvertimeItem) : HrTx Nat :=
  Txn.create (fun _ => [])
    (fun v =>
      [(!(0 ≤ row.startMinute), .checkViolation "overtime_items_start_minute_check"),
        (!(row.startMinute < row.endMinute), .checkViolation "overtime_items_minute_range_check"),
        (!(row.endMinute ≤ 1440), .checkViolation "overtime_items_end_minute_check"),
        (!(v.overtimeItems.select fun _ r =>
            r.requestId == row.requestId && r.userId == row.userId).isEmpty,
          .uniqueViolation "overtime_items_request_id_user_id_key"),
        requestMissing v row.requestId "overtime_items_request_id_fkey"])
    (fun id s => { s with overtimeItems := s.overtimeItems.insert id row })

def positionChangeRequestCreate (row : PositionChangeRequest) : HrTx Nat :=
  Txn.create (fun _ => [])
    (fun v =>
      [(!(v.positionChangeRequests.select fun _ r => r.requestId == row.requestId).isEmpty,
          .uniqueViolation "position_change_requests_request_id_key"),
        requestMissing v row.requestId "position_change_requests_request_id_fkey"])
    (fun id s => { s with positionChangeRequests := s.positionChangeRequests.insert id row })

def HrStore.positionChangeOf (v : HrStore) (requestId : Nat) : Option PositionChangeRequest :=
  ((v.positionChangeRequests.select fun _ r => r.requestId == requestId).head?).map (·.2)

def HrStore.overtimeItemsOf (v : HrStore) (requestId : Nat) : List OvertimeItem :=
  (v.overtimeItems.select fun _ r => r.requestId == requestId).map (·.2)

end Wbme.Hr
