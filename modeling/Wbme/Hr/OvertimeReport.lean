import Mathlib.Data.List.Sort
import Wbme.Hr.Store
import Wbme.Lib.Grouping
import Wbme.Lib.Paging
import Wbme.TableQuery.Requests
import Wbme.TableQuery.SqlFields

/-! # Overtime reports

The history of approved overtime and its statistics by employee, each read page by page under
one where clause. The statistics start from the records when a filter picks persons, and else
from the accounts in service, so that employees without overtime have a row of zeros. There a
record of an employee who is out of service has no row to be counted in.
-/

namespace Wbme.Hr.OvertimeReport

open Lib TableQuery

/-! ## The where clause -/

structure OvertimeReportQuery where
  month : Option String
  keyword : Option String
  departmentId : Option Nat
  filters : Option (Option Json)

/-- A condition on an item and the request it belongs to. -/
abbrev Condition := OvertimeItem → HrApprovalRequest → Bool

structure OvertimeReportSql where
  conditions : List Condition
  userIds : List Nat
  includeZeroStatistics : Bool

def isApproved : Condition := fun _ r => decide (r.status = .approved)

def isOfUsers (userIds : List Nat) : Condition := fun oi _ => userIds.contains oi.userId

def monthCondition (month : String) : Except Failure Condition :=
  (SqlText.monthRange month).map fun range oi _ =>
    decide (range.1 ≤ oi.overtimeDate * dayMs) && decide (oi.overtimeDate * dayMs < range.2)

/-- Wildcards in a keyword stand for themselves. -/
def escapeLike (value : String) : String :=
  String.ofList (value.toList.flatMap fun c => if LikeToken.isWild c then ['\\', c] else [c])

def keywordCondition (folding : CaseFolding) (keyword : String) : Condition := fun oi _ =>
  match evalIlike folding (some (.text oi.userName))
      (some (.text ("%" ++ escapeLike keyword ++ "%"))) with
  | .ok (some holds) => holds
  | _ => false

/-- The snapshot of the departments contains one with this id. -/
def departmentCondition (departmentId : Nat) : Condition := fun oi _ =>
  match oi.departmentSnapshot with
  | .arr departments => departments.any fun department =>
      match department with
      | .obj fields => (Json.field? fields "id").any fun id => id.beq (.num departmentId)
      | _ => false
  | _ => false

def collectTableFilterFields (tree : Option TableFilterTreeNode) : List String :=
  (tree.elim [] TableFilterTreeNode.leaves).map (·.field)

/-- A named parameter, unless it is absent or the filters have a field that stands for it. -/
def conditionOf {α : Type} (parameter : Option α) (covered : Bool)
    (condition : α → Except Failure Condition) : Except Failure (List Condition) :=
  match parameter with
  | some a => if covered then .ok [] else (condition a).map fun c => [c]
  | none => .ok []

/-- The fields that pick persons. -/
def cohortFilterFields : List String :=
  ["employeeName", "keyword", "applicantName", "submitterName", "departmentId", "positionName",
    "reason", "processorName"]

section Report

/- `compile` is what the compiler of table filters makes of a tree over the fields of the
report. -/
variable (folding : CaseFolding) (compile : TableFilterTreeNode → Except Failure Condition)

def buildOvertimeReportSql (userIds : List Nat) (query : OvertimeReportQuery) :
    Except Failure OvertimeReportSql :=
  if userIds.isEmpty then .ok ⟨[isApproved, fun _ _ => false], [], false⟩
  else do
    let keyword := query.keyword.filter (· ≠ "")
    let tree ← parseFilters query.filters
    let fields := collectTableFilterFields tree
    let inMonth ← conditionOf (query.month.filter (· ≠ ""))
      (fields.contains "month" || fields.contains "overtimeDate") monthCondition
    let hasKeyword ← conditionOf keyword
      (fields.contains "keyword" || fields.contains "employeeName") fun keyword =>
        .ok (keywordCondition folding keyword)
    let inDepartment ← conditionOf query.departmentId (fields.contains "departmentId")
      fun departmentId => .ok (departmentCondition departmentId)
    let compiled ← conditionOf tree false compile
    return {
      conditions := isApproved :: isOfUsers userIds ::
        (inMonth ++ hasKeyword ++ inDepartment ++ compiled)
      userIds := userIds
      includeZeroStatistics := keyword.isNone && query.departmentId.isNone &&
        !cohortFilterFields.any fun field => fields.contains field }

/-! ## The listings -/

/-- What the statistics call a working day, a day of rest and a holiday. -/
def workday : List String := ["WORKDAY", "ADJUSTED_WORKDAY"]

def restDay : List String := ["WEEKEND"]

def holiday : List String := ["HOLIDAY", "ADJUSTED_HOLIDAY"]

/-- The HR tables and the accounts. Items keep the type of their day as the holiday service
has it. -/
structure ReportStore where
  hr : HrStore
  accounts : Table Account
  dateTypes : ∀ row ∈ hr.overtimeItems.rows, row.2.holidaySnapshot.dateType ∈
    ["WORKDAY", "WEEKEND", "HOLIDAY", "ADJUSTED_HOLIDAY", "ADJUSTED_WORKDAY"]

structure OvertimeRecord where
  id : Nat
  item : OvertimeItem
  request : HrApprovalRequest

def OvertimeRecord.minutes (r : OvertimeRecord) : Int := r.item.endMinute - r.item.startMinute

structure Page (α : Type) where
  data : List α
  totalItems : Nat
  totalPages : Nat

/-- A page of rows, beside the answer of a count query. -/
def paginate {α : Type} (total : Nat) (rows : List α) (page pageSize : Nat) : Page α :=
  ⟨Paging.page pageSize (page - 1) rows, total, (total + pageSize - 1) / pageSize⟩

variable (store : ReportStore) (report : OvertimeReportSql)

/-- The items that meet the where clause, joined with their requests. -/
def filtered : List OvertimeRecord :=
  store.hr.overtimeItems.rows.filterMap fun row =>
    ((store.hr.approvalRequests.find? row.2.requestId).filter fun r =>
      report.conditions.all fun condition => condition row.2 r).map fun r => ⟨row.1, row.2, r⟩

def countRows : Nat := (filtered store report).length

/-- Later days first, and on one day later items. -/
def fetchRecordRows : List OvertimeRecord :=
  (filtered store report).insertionSort fun a b => b.item.overtimeDate < a.item.overtimeDate ∨
    a.item.overtimeDate = b.item.overtimeDate ∧ b.id ≤ a.id

def listRecords (page pageSize : Nat) : Page OvertimeRecord :=
  paginate (countRows store report) (fetchRecordRows store report) page pageSize

structure OvertimeStatistics where
  userId : Nat
  userName : String
  workdayMinutes : Int
  weekendMinutes : Int
  holidayMinutes : Int
  totalMinutes : Int
  recordCount : Nat

/-- `SUM(CASE WHEN date_type IN (…) THEN minutes ELSE 0 END)` -/
def minutesOn (dateTypes : List String) (records : List OvertimeRecord) : Int :=
  (records.map fun r =>
    if r.item.holidaySnapshot.dateType ∈ dateTypes then r.minutes else 0).sum

def statisticsOf (userId : Nat) (userName : String) (records : List OvertimeRecord) :
    OvertimeStatistics where
  userId := userId
  userName := userName
  workdayMinutes := minutesOn workday records
  weekendMinutes := minutesOn restDay records
  holidayMinutes := minutesOn holiday records
  totalMinutes := (records.map OvertimeRecord.minutes).sum
  recordCount := records.length

/-- The accounts in service among the users. -/
def scopedAccounts : List (Nat × Account) :=
  store.accounts.select fun userId a => report.userIds.contains userId && a.active && !a.deleted

def countStatisticsRows : Nat :=
  if report.includeZeroStatistics then (scopedAccounts store report).length
  else ((filtered store report).map (·.item.userId)).eraseDups.length

def statisticsRows : List OvertimeStatistics :=
  if report.includeZeroStatistics then
    (scopedAccounts store report).map fun ua => statisticsOf ua.1 ua.2.name
      ((filtered store report).filter fun r => r.item.userId = ua.1)
  else
    (groupsBy (·.item.userId) (filtered store report)).map fun group =>
      statisticsOf group.1 ((group.2.map (·.item.userName)).foldl max "") group.2

/-- By name, and under one name by id. -/
def fetchStatisticsRows : List OvertimeStatistics :=
  (statisticsRows store report).insertionSort fun a b => a.userName < b.userName ∨
    a.userName = b.userName ∧ a.userId ≤ b.userId

def listStatistics (page pageSize : Nat) : Page OvertimeStatistics :=
  paginate (countStatisticsRows store report) (fetchStatisticsRows store report) page pageSize

/-! ## The law -/

/-- Every page of a listing, from the first to the last that it announces. -/
def allPages {α : Type} (list : Nat → Page α) : List α :=
  (List.range (list 1).totalPages).flatMap fun i => (list (i + 1)).data

/-- Statistics and history of one report agree. -/
structure Agreement (pageSize : Nat) : Prop where
  recordCounts : ((allPages fun page => listStatistics store report page pageSize).map
    (·.recordCount)).sum = (allPages fun page => listRecords store report page pageSize).length
  minutes : ((allPages fun page => listStatistics store report page pageSize).map
    (·.totalMinutes)).sum = ((allPages fun page => listRecords store report page pageSize).map
      OvertimeRecord.minutes).sum
  once : ((allPages fun page => listStatistics store report page pageSize).map (·.userId)).Nodup
  statisticsTotal : ∀ page, (listStatistics store report page pageSize).totalItems =
    (allPages fun page => listStatistics store report page pageSize).length
  recordsTotal : ∀ page, (listRecords store report page pageSize).totalItems =
    (allPages fun page => listRecords store report page pageSize).length
  parts : ∀ row ∈ allPages fun page => listStatistics store report page pageSize,
    row.workdayMinutes + row.weekendMinutes + row.holidayMinutes = row.totalMinutes

variable (userIds : List Nat) (query : OvertimeReportQuery)

/-- Whatever the size of the pages, both listings that a query has agree. -/
def ReportsAgree : Prop :=
  ∀ report, buildOvertimeReportSql folding compile userIds query = .ok report →
    ∀ pageSize, 0 < pageSize → Agreement store report pageSize

/-- Where the statistics start from the accounts, every employee with a record is in service. -/
def EveryoneInService : Prop :=
  ∀ report, buildOvertimeReportSql folding compile userIds query = .ok report →
    report.includeZeroStatistics = true → ∀ r ∈ filtered store report,
      ∃ a, store.accounts.find? r.item.userId = some a ∧ a.active = true ∧ a.deleted = false

end Report

section Pages

variable {α : Type}

/-- Pages of one list, as many as its length asks for, are the list. -/
theorem allPages_paginate (rows : List α) {pageSize : Nat} (h : 0 < pageSize) :
    allPages (fun page => paginate rows.length rows page pageSize) = rows := by
  have hcovers : rows.length ≤ (rows.length + pageSize - 1) / pageSize * pageSize := by
    have := Nat.lt_div_mul_add h (a := rows.length + pageSize - 1)
    omega
  show Paging.pages pageSize (fun _ => rows) ((rows.length + pageSize - 1) / pageSize) = rows
  rw [Paging.pages_const, List.take_of_length_le hcovers]

end Pages

section Rows

variable {folding : CaseFolding} {compile : TableFilterTreeNode → Except Failure Condition}
  {store : ReportStore} {report : OvertimeReportSql} {userIds : List Nat}
  {query : OvertimeReportQuery}

/-- The employees that the statistics have a row for. -/
def employees (store : ReportStore) (report : OvertimeReportSql) : List (Nat × String) :=
  if report.includeZeroStatistics then
    (scopedAccounts store report).map fun ua => (ua.1, ua.2.name)
  else
    (groupsBy (·.item.userId) (filtered store report)).map fun group =>
      (group.1, (group.2.map (·.item.userName)).foldl max "")

theorem statisticsRows_eq : statisticsRows store report =
    (employees store report).map fun e => statisticsOf e.1 e.2
      ((filtered store report).filter fun r => r.item.userId = e.1) := by
  unfold statisticsRows employees
  split
  · rw [List.map_map]
    rfl
  · rw [List.map_map]
    apply List.map_congr_left
    intro group hgroup
    show statisticsOf _ _ group.2 = statisticsOf _ _ _
    congr 1
    exact (mem_groupsBy.mp hgroup).2

theorem employees_ids : (employees store report).map Prod.fst =
    if report.includeZeroStatistics then (scopedAccounts store report).map Prod.fst
    else ((filtered store report).map (·.item.userId)).eraseDups := by
  unfold employees
  split
  · rw [List.map_map]
    rfl
  · rw [List.map_map, groupsBy, List.map_map]
    exact List.map_id _

theorem countStatisticsRows_eq :
    countStatisticsRows store report = (employees store report).length := by
  rw [← List.length_map Prod.fst, employees_ids]
  unfold countStatisticsRows
  split
  · rw [List.length_map]
  · rfl

theorem nodup_employees : ((employees store report).map Prod.fst).Nodup := by
  rw [employees_ids]
  split
  · rw [List.Nodup, List.pairwise_map]
    exact (store.accounts.sorted.filter _).imp fun hlt => Nat.ne_of_lt hlt
  · exact eraseDups_nodup _

theorem mem_scopedAccounts {userId : Nat} :
    userId ∈ (scopedAccounts store report).map Prod.fst ↔ report.userIds.contains userId = true ∧
      ∃ a, store.accounts.find? userId = some a ∧ a.active = true ∧ a.deleted = false := by
  simp only [scopedAccounts, List.mem_map, Table.mem_select, Prod.exists, exists_and_right,
    exists_eq_right, Bool.and_eq_true, Bool.not_eq_true']
  constructor
  · intro h
    obtain ⟨a, ha, ⟨hin, hactive⟩, hdeleted⟩ := h
    exact ⟨hin, a, ha, hactive, hdeleted⟩
  · intro h
    obtain ⟨hin, a, ha, hactive, hdeleted⟩ := h
    exact ⟨a, ha, ⟨hin, hactive⟩, hdeleted⟩

/-- Statistics that start from the accounts have users to ask for. -/
theorem isOfUsers_mem (h : buildOvertimeReportSql folding compile userIds query = .ok report)
    (hzero : report.includeZeroStatistics = true) :
    isOfUsers report.userIds ∈ report.conditions := by
  unfold buildOvertimeReportSql at h
  split at h
  · cases h
    cases hzero
  · simp only [bind, Except.bind, pure, Except.pure] at h
    repeat' split at h
    all_goals cases h
    exact List.mem_cons_of_mem _ List.mem_cons_self

variable {r : OvertimeRecord}

theorem contains_of_filtered (h : buildOvertimeReportSql folding compile userIds query = .ok report)
    (hzero : report.includeZeroStatistics = true) (hr : r ∈ filtered store report) :
    report.userIds.contains r.item.userId = true := by
  obtain ⟨row, -, hrow⟩ := List.mem_filterMap.mp hr
  obtain ⟨request, hrequest, heq⟩ := Option.map_eq_some_iff.mp hrow
  have hall := (Option.filter_eq_some_iff.mp hrequest).2
  rw [← heq]
  exact List.all_eq_true.mp hall _ (isOfUsers_mem h hzero)

/-- Every record is counted in some row exactly when everyone is in service. -/
theorem counted_iff (h : buildOvertimeReportSql folding compile userIds query = .ok report) :
    (∀ r ∈ filtered store report, r.item.userId ∈ (employees store report).map Prod.fst) ↔
      (report.includeZeroStatistics = true → ∀ r ∈ filtered store report,
        ∃ a, store.accounts.find? r.item.userId = some a ∧ a.active = true ∧
          a.deleted = false) := by
  rw [employees_ids]
  by_cases hzero : report.includeZeroStatistics = true
  · simp only [if_pos hzero, mem_scopedAccounts]
    constructor
    · intro hall _ r hr
      exact (hall r hr).2
    · intro hall r hr
      exact ⟨contains_of_filtered h hzero hr, hall hzero r hr⟩
  · simp only [if_neg hzero, List.mem_eraseDups]
    constructor
    · intro _ htrue
      exact absurd htrue hzero
    · intro _ r hr
      exact List.mem_map_of_mem hr

/-- The three kinds of days are all there are, and no two of them share a type. -/
theorem parts_statisticsOf {userId : Nat} {userName : String} {records : List OvertimeRecord}
    (h : ∀ r ∈ records, r.item.holidaySnapshot.dateType ∈
      ["WORKDAY", "WEEKEND", "HOLIDAY", "ADJUSTED_HOLIDAY", "ADJUSTED_WORKDAY"]) :
    minutesOn workday records + minutesOn restDay records + minutesOn holiday records =
      (statisticsOf userId userName records).totalMinutes := by
  show _ = (records.map OvertimeRecord.minutes).sum
  induction records with
  | nil => rfl
  | cons r records ih =>
      have hrest := ih fun r' hr' => h r' (List.mem_cons_of_mem r hr')
      have hone : (if r.item.holidaySnapshot.dateType ∈ workday then r.minutes else 0) +
          (if r.item.holidaySnapshot.dateType ∈ restDay then r.minutes else 0) +
          (if r.item.holidaySnapshot.dateType ∈ holiday then r.minutes else 0) = r.minutes := by
        have hr := h r List.mem_cons_self
        simp only [List.mem_cons, List.not_mem_nil, or_false] at hr
        rcases hr with hr | hr | hr | hr | hr <;>
          simp [hr, workday, restDay, holiday]
      simp only [minutesOn, List.map_cons, List.sum_cons] at hrest ⊢
      omega

theorem dateType_filtered (hr : r ∈ filtered store report) :
    r.item.holidaySnapshot.dateType ∈
      ["WORKDAY", "WEEKEND", "HOLIDAY", "ADJUSTED_HOLIDAY", "ADJUSTED_WORKDAY"] := by
  obtain ⟨row, hmem, hrow⟩ := List.mem_filterMap.mp hr
  obtain ⟨request, -, heq⟩ := Option.map_eq_some_iff.mp hrow
  rw [← heq]
  exact store.dateTypes row hmem

end Rows

section Agreement

variable {folding : CaseFolding} {compile : TableFilterTreeNode → Except Failure Condition}
  {store : ReportStore} {report : OvertimeReportSql} {userIds : List Nat}
  {query : OvertimeReportQuery} {pageSize : Nat}

theorem allPages_records (hsize : 0 < pageSize) :
    allPages (fun page => listRecords store report page pageSize) =
      fetchRecordRows store report := by
  have hcount : countRows store report = (fetchRecordRows store report).length :=
    (List.length_insertionSort _ _).symm
  simp only [listRecords, hcount]
  exact allPages_paginate _ hsize

theorem allPages_statistics (hsize : 0 < pageSize) :
    allPages (fun page => listStatistics store report page pageSize) =
      fetchStatisticsRows store report := by
  have hcount : countStatisticsRows store report = (fetchStatisticsRows store report).length := by
    rw [countStatisticsRows_eq, fetchStatisticsRows, List.length_insertionSort, statisticsRows_eq,
      List.length_map]
  simp only [listStatistics, hcount]
  exact allPages_paginate _ hsize

theorem perm_statistics : (fetchStatisticsRows store report).Perm (statisticsRows store report) :=
  List.perm_insertionSort _ _

theorem perm_records : (fetchRecordRows store report).Perm (filtered store report) :=
  List.perm_insertionSort _ _

theorem sum_recordCount : ((fetchStatisticsRows store report).map (·.recordCount)).sum =
    ((filtered store report).filter fun r =>
      r.item.userId ∈ (employees store report).map Prod.fst).length := by
  rw [(perm_statistics.map _).sum_eq, statisticsRows_eq, List.map_map,
    ← (flatMap_filter_perm _ nodup_employees _).length_eq, List.length_flatMap, List.map_map]
  rfl

theorem sum_totalMinutes : ((fetchStatisticsRows store report).map (·.totalMinutes)).sum =
    (((filtered store report).filter fun r =>
      r.item.userId ∈ (employees store report).map Prod.fst).map OvertimeRecord.minutes).sum := by
  rw [(perm_statistics.map _).sum_eq, statisticsRows_eq, List.map_map,
    ← ((flatMap_filter_perm _ nodup_employees _).map _).sum_eq, List.map_flatMap,
    List.flatMap_map, List.flatMap_def, List.sum_flatten, List.map_map]
  rfl

theorem agreement_iff (hsize : 0 < pageSize) : Agreement store report pageSize ↔
    ∀ r ∈ filtered store report, r.item.userId ∈ (employees store report).map Prod.fst := by
  constructor
  · intro h r hr
    have hcount := h.recordCounts
    rw [allPages_statistics hsize, allPages_records hsize, sum_recordCount,
      perm_records.length_eq, List.length_filter_eq_length_iff] at hcount
    exact of_decide_eq_true (hcount r hr)
  · intro h
    have hall : (filtered store report).filter (fun r =>
        r.item.userId ∈ (employees store report).map Prod.fst) = filtered store report :=
      List.filter_eq_self.mpr fun r hr => decide_eq_true (h r hr)
    constructor
    · rw [allPages_statistics hsize, allPages_records hsize, sum_recordCount, hall,
        perm_records.length_eq]
    · rw [allPages_statistics hsize, allPages_records hsize, sum_totalMinutes, hall,
        (perm_records.map _).sum_eq]
    · rw [allPages_statistics hsize, (perm_statistics.map _).nodup_iff, statisticsRows_eq,
        List.map_map]
      exact nodup_employees
    · intro page
      rw [allPages_statistics hsize, perm_statistics.length_eq, statisticsRows_eq,
        List.length_map]
      exact countStatisticsRows_eq
    · intro page
      rw [allPages_records hsize, perm_records.length_eq]
      rfl
    · intro row hrow
      rw [allPages_statistics hsize, perm_statistics.mem_iff, statisticsRows_eq] at hrow
      obtain ⟨e, -, rfl⟩ := List.mem_map.mp hrow
      exact parts_statisticsOf fun r hr => dateType_filtered (List.mem_of_mem_filter hr)

/-- The statistics agree with the history exactly when nobody whose records they start
without is out of service. -/
theorem reportsAgree_iff (folding : CaseFolding)
    (compile : TableFilterTreeNode → Except Failure Condition) (store : ReportStore)
    (userIds : List Nat) (query : OvertimeReportQuery) :
    ReportsAgree folding compile store userIds query ↔
      EveryoneInService folding compile store userIds query := by
  constructor
  · intro h report hreport
    exact (counted_iff hreport).mp ((agreement_iff Nat.one_pos).mp (h report hreport 1 Nat.one_pos))
  · intro h report hreport pageSize hsize
    exact (agreement_iff hsize).mpr ((counted_iff hreport).mpr (h report hreport))

/-! ### An employee who left -/

/-- Two hours of an employee whose account was deactivated after the approval. -/
def leftStore : ReportStore where
  hr := { HrStore.empty with
    approvalRequests := Table.empty.insert 1
      { applicationNo := "OT-1", requestType := .overtime, applicantId := 7,
        applicantName := "Ann", applicantDepartmentSnapshot := .arr [], proxyId := none,
        proxyName := none, status := .approved, version := 1, submittedAt := some 0,
        cancelledBy := none, cancelledAt := none, cancelSource := none, processorId := some 2,
        processorName := some "Bob", processedAt := some 1, opinion := none }
    overtimeItems := Table.empty.insert 1
      { requestId := 1, userId := 7, userName := "Ann", departmentSnapshot := .arr [],
        positionIdSnapshot := none, positionNameSnapshot := none, overtimeDate := 20000,
        startMinute := 1080, endMinute := 1200, reason := "Release",
        holidaySnapshot := ⟨"WORKDAY", "api", "", ""⟩, isBackfill := false } }
  accounts := Table.empty.insert 7 ⟨"Ann", false, false, 1⟩
  dateTypes := by decide

def everything : OvertimeReportQuery := ⟨none, none, none, none⟩

theorem not_reportsAgree_left : ¬ ReportsAgree asciiFolding (fun _ => .ok fun _ _ => true)
    leftStore [7] everything := by
  intro h
  exact absurd (h ⟨[isApproved, isOfUsers [7]], [7], true⟩ rfl 20 (by decide)).recordCounts
    (by decide)

end Agreement

end Wbme.Hr.OvertimeReport
