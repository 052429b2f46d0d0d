import Wbme.Approval.Coverage
import Wbme.Hr.Runs

/-! # Listed and covered HR requests

Overtime batches have one snapshot per employee, position changes a single one. The list
selects by single snapshots, detail and processing check all of them together.
-/

namespace Wbme.Hr

open Lib Approval

namespace HrApprovalService

/-! ## The pending list -/

def allHrTypes : List HrRequestType := [.overtime, .positionChange]

def resolveVisibleTypes (env : HrEnvironment) (userId : Nat) :
    List (HrRequestType × Option DataScope) :=
  (allHrTypes.filter fun type =>
    (env.access userId type.function).registered && (env.access userId type.function).systemOpen &&
      (env.access userId type.function).allowed).map fun type =>
    (type, (env.access userId type.function).dataScope)

/-- The requests with an object within the closure, of the types that are asked for. -/
def findCoveredRequestIds (closure : List Nat) (overtime position : Bool) (v : HrStore) :
    List Nat :=
  if closure.isEmpty then []
  else
    ((if overtime then
        (v.overtimeItems.select fun _ item => snapshotWithin closure item.departmentSnapshot).map
          (·.2.requestId)
      else []) ++
      if position then
        (v.positionChangeRequests.select fun _ r =>
          snapshotWithin closure r.departmentSnapshot).map (·.2.requestId)
      else []).dedup

/-- The access rule of a visible type: within the closure in department scope. -/
def typeClause (closure : List Nat) (departmentScoped : HrRequestType → Bool) (v : HrStore)
    (type : HrRequestType) (id : Nat) : Bool :=
  !departmentScoped type ||
    (findCoveredRequestIds closure (type == .overtime) (type == .positionChange) v).contains id

/-- The pending requests an approver is shown, and counts. -/
def pendingIds (env : HrEnvironment) (v : HrStore) (userId : Nat) : List Nat :=
  let visibleTypes := resolveVisibleTypes env userId
  let departmentScoped := fun type => visibleTypes.any fun entry =>
    entry.1 == type && entry.2 == some .department
  (v.approvalRequests.select fun id r => r.status == .pending &&
    visibleTypes.any (fun entry => entry.1 == r.requestType) &&
    visibleTypes.any fun entry => entry.1 == r.requestType &&
      typeClause (env.closureOfUser userId) departmentScoped v entry.1 id).map (·.1)

/-- The check of the detail view, on the head with its details. -/
def assertHeadCovered (env : HrEnvironment) (v : HrStore) (id : Nat) (requestType : HrRequestType)
    (userId : Nat) : Except Failure Unit :=
  let access := env.access userId requestType.function
  if access.dataScope == none || access.dataScope == some .company then .ok ()
  else
    let ids :=
      match requestType with
      | .positionChange => extractDepartmentIdsFromSnapshot
          (((v.positionChangeOf id).map (·.departmentSnapshot)).getD .null)
      | .overtime => ((v.overtimeItemsOf id).map (·.departmentSnapshot)).flatMap
          extractDepartmentIdsFromSnapshot
    assertScopeCoversAll (toApproverScope access.dataScope (env.closureOfUser userId)) ids false
      requestType.text

/-! ## One detail per position change -/

/-- A request has one detail, under a key drawn from the sequence. -/
structure OneDetail (n : Nat) (s : HrStore) : Prop where
  below : s.positionChangeRequests.Below n
  unique : ∀ k r k' r', s.positionChangeRequests.find? k = some r →
    s.positionChangeRequests.find? k' = some r' → r.requestId = r'.requestId → k = k'

theorem looksAtRecords_oneDetail : LooksAtRecords OneDetail where
  mono n _ h := ⟨h.below.mono (Nat.le_succ n), h.unique⟩
  congr n s s' hchanges _ h := by
    constructor
    · rw [hchanges]
      exact h.below
    · rw [hchanges]
      exact h.unique

theorem positionChangeRequestCreate_oneDetail (row : PositionChangeRequest) :
    (positionChangeRequestCreate row).Preserves OneDetail := by
  apply Txn.preserves_create
  intro n s hchecks h
  have hfree : ∀ k r, s.positionChangeRequests.find? k = some r → r.requestId ≠ row.requestId := by
    intro k r hr heq
    have hmem : (k, r) ∈ s.positionChangeRequests.select fun _ r => r.requestId == row.requestId :=
      Table.mem_select.mpr ⟨hr, by simpa using heq⟩
    have hempty : (s.positionChangeRequests.select fun _ r =>
        r.requestId == row.requestId).isEmpty = false := by
      simpa using List.ne_nil_of_mem hmem
    simp [Txn.firstViolated, hempty] at hchecks
  refine ⟨h.below.insert_succ row, ?_⟩
  intro k r k' r' hr hr' heq
  rw [Table.find?_insert] at hr hr'
  by_cases hk : k = n
  · by_cases hk' : k' = n
    · omega
    · obtain rfl : row = r := by simpa [hk] using hr
      exact absurd heq.symm (hfree k' r' (by simpa [hk'] using hr'))
  · by_cases hk' : k' = n
    · obtain rfl : row = r' := by simpa [hk'] using hr'
      exact absurd heq (hfree k r (by simpa [hk] using hr))
    · exact h.unique k r k' r' (by simpa [hk] using hr) (by simpa [hk'] using hr') heq

theorem oneDetail_of_reachable {w : HrWorld} (h : Reachable w) : OneDetail w.seq w.store := by
  have hmain := HrOp.main_preserves looksAtRecords_oneDetail.looksAtAssignments
    (fun n _ _ h => ⟨h.below.mono (Nat.le_succ n), h.unique⟩)
    (looksAtRecords_oneDetail.keptByAssigning positionChangeRequestCreate_oneDetail)
  refine Steps.preserves (I := OneDetail) looksAtRecords_oneDetail.mono hmain h ?_
  exact ⟨Table.below_empty 1, fun k r _ _ hr => by simp [HrWorld.init, HrStore.empty] at hr⟩

section Listed

variable {closure : List Nat} {v : HrStore} {id : Nat}

theorem mem_findCoveredRequestIds_overtime :
    id ∈ findCoveredRequestIds closure true false v ↔ closure ≠ [] ∧
      ∃ s ∈ objectSnapshots v id .overtime, snapshotWithin closure s = true := by
  have hitems : id ∈ (v.overtimeItems.select fun _ item =>
      snapshotWithin closure item.departmentSnapshot).map (·.2.requestId) ↔
        ∃ s ∈ objectSnapshots v id .overtime, snapshotWithin closure s = true := by
    simp only [objectSnapshots, HrStore.overtimeItemsOf, List.mem_map, Table.mem_select,
      beq_iff_eq]
    constructor
    · rintro ⟨x, ⟨hx, hwithin⟩, hid⟩
      exact ⟨x.2.departmentSnapshot, ⟨x.2, ⟨x, ⟨hx, hid⟩, rfl⟩, rfl⟩, hwithin⟩
    · rintro ⟨s, ⟨item, ⟨x, ⟨hx, hid⟩, rfl⟩, rfl⟩, hwithin⟩
      exact ⟨x, ⟨hx, hwithin⟩, hid⟩
  cases closure with
  | nil => simp [findCoveredRequestIds]
  | cons d ds =>
      simpa [findCoveredRequestIds] using hitems

theorem mem_findCoveredRequestIds_position {n : Nat} (hone : OneDetail n v) :
    id ∈ findCoveredRequestIds closure false true v ↔ closure ≠ [] ∧
      ∃ s ∈ objectSnapshots v id .positionChange, snapshotWithin closure s = true := by
  have hof : ∀ x : Nat × PositionChangeRequest,
      v.positionChangeRequests.find? x.1 = some x.2 → x.2.requestId = id →
        v.positionChangeOf id = some x.2 := by
    intro x hx hid
    have hmem : x ∈ v.positionChangeRequests.select fun _ r => r.requestId == id :=
      Table.mem_select.mpr ⟨hx, by simpa using hid⟩
    cases hsel : v.positionChangeRequests.select fun _ r => r.requestId == id with
    | nil => simp [hsel] at hmem
    | cons y ys =>
        have hy := Table.mem_select.mp (hsel ▸ List.mem_cons_self :
          y ∈ v.positionChangeRequests.select fun _ r => r.requestId == id)
        have hkey := hone.unique y.1 y.2 x.1 x.2 hy.1 hx (by
          rw [hid]
          simpa using hy.2)
        have hrow : y.2 = x.2 := by
          have := hy.1
          rw [hkey, hx] at this
          exact (Option.some.inj this).symm
        simp [HrStore.positionChangeOf, hsel, hrow]
  have hdetails : id ∈ (v.positionChangeRequests.select fun _ r =>
      snapshotWithin closure r.departmentSnapshot).map (·.2.requestId) ↔
        ∃ s ∈ objectSnapshots v id .positionChange, snapshotWithin closure s = true := by
    constructor
    · intro hmem
      obtain ⟨x, hx, hid⟩ := List.mem_map.mp hmem
      obtain ⟨hfind, hwithin⟩ := Table.mem_select.mp hx
      exact ⟨x.2.departmentSnapshot, by simp [objectSnapshots, hof x hfind hid], hwithin⟩
    · rintro ⟨s, hs, hwithin⟩
      simp only [objectSnapshots, Option.mem_toList, Option.map_eq_some_iff,
        HrStore.positionChangeOf] at hs
      obtain ⟨r, ⟨x, hx, rfl⟩, rfl⟩ := hs
      obtain ⟨hfind, hid⟩ := Table.mem_select.mp (List.mem_of_mem_head? hx)
      exact List.mem_map.mpr ⟨x, Table.mem_select.mpr ⟨hfind, hwithin⟩, by simpa using hid⟩
  cases closure with
  | nil => simp [findCoveredRequestIds]
  | cons d ds =>
      simpa [findCoveredRequestIds] using hdetails

structure DepartmentApprover (access : FunctionAccess) : Prop where
  registered : access.registered = true
  systemOpen : access.systemOpen = true
  allowed : access.allowed = true
  dataScope : access.dataScope = some .department

variable {env : HrEnvironment}

theorem DepartmentApprover.mem_pendingIds_iff {userId n : Nat} {head : HrApprovalRequest}
    (h : DepartmentApprover (env.access userId head.requestType.function)) (hone : OneDetail n v)
    (hhead : v.approvalRequests.find? id = some head) (hpending : head.status = .pending)
    {objects : List (List DepartmentRef)}
    (hobjects : objectSnapshots v id head.requestType = objects.map departmentsJson) :
    id ∈ pendingIds env v userId ↔ ∃ s ∈ objects.map departmentsJson,
      snapshotWithin (env.closureOfUser userId) s = true := by
  have hmem : (head.requestType, some DataScope.department) ∈ resolveVisibleTypes env userId := by
    refine List.mem_map.mpr ⟨head.requestType, List.mem_filter.mpr ⟨?_, ?_⟩, by rw [h.dataScope]⟩
    · cases head.requestType <;> decide
    · simp [h.registered, h.systemOpen, h.allowed]
  have hvisible : (resolveVisibleTypes env userId).any
      (fun entry => entry.1 == head.requestType) = true :=
    List.any_eq_true.mpr ⟨_, hmem, by simp⟩
  have hscoped : (resolveVisibleTypes env userId).any (fun entry =>
      entry.1 == head.requestType && entry.2 == some .department) = true :=
    List.any_eq_true.mpr ⟨_, hmem, by simp⟩
  have hcovered : (findCoveredRequestIds (env.closureOfUser userId)
      (head.requestType == .overtime) (head.requestType == .positionChange) v).contains id = true ↔
        ∃ s ∈ objects.map departmentsJson,
          snapshotWithin (env.closureOfUser userId) s = true := by
    -- without departments of one's own no snapshot is within
    have hclosure : (∃ s ∈ objects.map departmentsJson,
        snapshotWithin (env.closureOfUser userId) s = true) → env.closureOfUser userId ≠ [] := by
      rintro ⟨s, hs, hwithin⟩ hnil
      obtain ⟨ds, -, rfl⟩ := List.mem_map.mp hs
      rw [snapshotWithin_departmentsJson, hnil] at hwithin
      cases ds with
      | nil => exact hwithin.1 rfl
      | cons d ds => exact absurd (hwithin.2 d (by simp)) (by simp)
    rw [List.contains_iff_mem]
    cases htype : head.requestType with
    | overtime =>
        rw [htype] at hobjects
        show id ∈ findCoveredRequestIds _ true false v ↔ _
        rw [mem_findCoveredRequestIds_overtime, hobjects]
        exact ⟨fun hin => hin.2, fun hin => ⟨hclosure hin, hin⟩⟩
    | positionChange =>
        rw [htype] at hobjects
        show id ∈ findCoveredRequestIds _ false true v ↔ _
        rw [mem_findCoveredRequestIds_position hone, hobjects]
        exact ⟨fun hin => hin.2, fun hin => ⟨hclosure hin, hin⟩⟩
  rw [← hcovered]
  simp only [pendingIds, List.mem_map, Table.mem_select, Prod.exists, exists_and_right,
    exists_eq_right, Bool.and_eq_true, beq_iff_eq]
  constructor
  · rintro ⟨r, hr, -, hclause⟩
    obtain rfl : head = r := by simpa [hhead] using hr
    obtain ⟨entry, -, hentry⟩ := List.any_eq_true.mp hclause
    obtain ⟨htype, hclause⟩ := Bool.and_eq_true_iff.mp hentry
    obtain htype : entry.1 = head.requestType := by simpa using htype
    simpa [typeClause, htype, hscoped] using hclause
  · intro hin
    refine ⟨head, hhead, ⟨hpending, hvisible⟩, List.any_eq_true.mpr ⟨_, hmem, ?_⟩⟩
    simp only [beq_self_eq_true, Bool.true_and, typeClause, hin, Bool.or_true]

/-- In department scope the check of processing passes when all departments of all objects are
covered. -/
theorem assertScopeCovers_run {userId : Nat} {requestType : HrRequestType}
    (hscope : (env.access userId requestType.function).dataScope = some .department) (n : Nat) :
    (assertScopeCovers env id requestType userId).run n v = .ok ((), n, v) ↔
      scopeCoversAll (.department (env.closureOfUser userId))
        (resolveObjectDepartmentIds v id requestType) false = true := by
  have hrun : (assertScopeCovers env id requestType userId).run n v =
      (Txn.liftExcept (assertScopeCoversAll (.department (env.closureOfUser userId))
        (resolveObjectDepartmentIds v id requestType) false requestType.text) :
          HrTx Unit).run n v := by
    unfold assertScopeCovers
    rw [hscope]
    rfl
  rw [hrun]
  by_cases hcovers : scopeCoversAll (.department (env.closureOfUser userId))
      (resolveObjectDepartmentIds v id requestType) false = true
  · simp [assertScopeCoversAll, hcovers, Txn.liftExcept, Txn.run]
  · simp [assertScopeCoversAll, hcovers, Txn.liftExcept, Txn.run]

/-- The detail view of a request is open where its processing is, and refuses with the same
error, whatever the scope. -/
theorem assertScopeCovers_eq_head (env : HrEnvironment) (v : HrStore) (id userId n : Nat)
    (requestType : HrRequestType) : (assertScopeCovers env id requestType userId).run n v =
      (assertHeadCovered env v id requestType userId).map fun _ => ((), n, v) := by
  have hlift : ∀ r : Except Failure Unit,
      (Txn.liftExcept r : HrTx Unit).run n v = r.map fun _ => ((), n, v) := by
    intro r
    cases r <;> rfl
  unfold assertScopeCovers assertHeadCovered resolveObjectDepartmentIds objectSnapshots
  rw [Txn.run_bind, Txn.run_query]
  dsimp only
  rw [hlift]
  congr 1
  generalize (env.access userId requestType.function).dataScope = dataScope
  cases dataScope with
  | none => rfl
  | some scope =>
      cases requestType with
      | overtime => cases scope <;> rfl
      | positionChange =>
          -- without its detail a request is refused on both sides
          cases v.positionChangeOf id with
          | none => cases scope <;> rfl
          | some detail =>
              simp only [Option.map_some, Option.toList_some, Option.getD_some,
                List.flatMap_cons, List.flatMap_nil, List.append_nil]
              cases scope <;> rfl

end Listed

end HrApprovalService

end Wbme.Hr
