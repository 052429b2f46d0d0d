import Wbme.Approval.Coverage
import Wbme.Asset.Runs

/-! # Listed and covered asset requests

The pending list of an approver and the number shown beside it select the requests by the
snapshots of single objects; detail and processing check the departments of all objects.
-/

namespace Wbme.Asset

open Lib Approval

namespace AssetApprovalService

/-! ## The pending list -/

def allAssetTypes : List RequestType :=
  [.stockIn, .stockChange, .consumableRequest, .agentRequest, .return, .writeOff,
    .agentSettlement]

def resolveVisibleTypes (access : FunctionAccess) : List (RequestType × Option DataScope) :=
  if !access.registered || !access.systemOpen then []
  else if !access.allowed then []
  else if access.dataScope == none || access.dataScope == some .company then
    allAssetTypes.map fun type => (type, access.dataScope)
  else
    (allAssetTypes.filter fun type => !isCompanyOnlyRequestType type).map fun type =>
      (type, access.dataScope)

/-- The column holds no snapshot. -/
def isNull : Json → Bool
  | .null => true
  | _ => false

def recipientWithin (closure : List Nat) (v : Store) (requestId : Nat) : Bool :=
  !(v.agentRecipients.select fun _ r => r.requestId == requestId &&
    snapshotWithin closure r.departmentSnapshot).isEmpty

/-- The requests a type's query returns. -/
def coveredOfType (closure : List Nat) (v : Store) (type : RequestType) : List Nat :=
  match type with
  | .return | .writeOff =>
      ((v.borrowActionItems.select fun _ l =>
        (v.borrowRecords.find? l.borrowRecordId).any fun r =>
          !isNull r.departmentSnapshot && snapshotWithin closure r.departmentSnapshot).map
            (·.2.requestId)).dedup
  | .agentRequest =>
      (v.approvalRequests.select fun id r => r.requestType == .agentRequest &&
        recipientWithin closure v id).map (·.1)
  | .agentSettlement =>
      (v.approvalRequests.select fun _ r => r.requestType == .agentSettlement &&
        r.refRequestId.any (recipientWithin closure v)).map (·.1)
  | type =>
      (v.approvalRequests.select fun _ r => r.requestType == type &&
        !isNull r.applicantDepartmentSnapshot &&
        snapshotWithin closure r.applicantDepartmentSnapshot).map (·.1)

def findCoveredRequestIds (closure : List Nat)
    (visibleTypes : List (RequestType × Option DataScope)) (v : Store) : List Nat :=
  let departmentScoped := visibleTypes.filter fun entry => entry.2 == some .department
  if closure.isEmpty || departmentScoped.isEmpty then []
  else (departmentScoped.flatMap fun entry => coveredOfType closure v entry.1).dedup

/-- The pending requests an approver is shown, and counts. -/
def pendingIds (env : Environment) (v : Store) (userId : Nat) : List Nat :=
  let visibleTypes := resolveVisibleTypes (env.access userId)
  let covered :=
    if visibleTypes.any fun entry => entry.2 == some .department then
      some (findCoveredRequestIds (env.closureOfUser userId) visibleTypes v)
    else none
  (v.approvalRequests.select fun id r => r.status == .pending &&
    visibleTypes.any (fun entry => entry.1 == r.requestType) &&
    covered.all fun ids => ids.contains id).map (·.1)

section Listed

variable {closure : List Nat} {v : Store} {id : Nat}

theorem recipientWithin_iff : recipientWithin closure v id = true ↔
    ∃ s ∈ recipientSnapshots v id, snapshotWithin closure s = true := by
  simp only [recipientWithin, recipientSnapshots, Bool.not_eq_true', List.isEmpty_eq_false_iff]
  constructor
  · intro hne
    obtain ⟨x, hx⟩ := List.exists_mem_of_ne_nil _ hne
    obtain ⟨hr, hp⟩ := Table.mem_select.mp hx
    rw [Bool.and_eq_true] at hp
    exact ⟨x.2.departmentSnapshot,
      List.mem_map_of_mem (Table.mem_select.mpr ⟨hr, hp.1⟩), hp.2⟩
  · rintro ⟨s, hs, hwithin⟩
    obtain ⟨x, hx, rfl⟩ := List.mem_map.mp hs
    obtain ⟨hr, hid⟩ := Table.mem_select.mp hx
    exact List.ne_nil_of_mem (Table.mem_select.mpr ⟨hr, by simp only [hid, hwithin, Bool.and_self]⟩)

variable {head : ApprovalRequest} {env : Environment}

theorem snapshotWithin_of_covered {type : RequestType}
    (hlines : ActionLinesOk v.approvalRequests v.borrowRecords v.borrowActionItems
      v.agentSettlementItems) (hhead : v.approvalRequests.find? id = some head)
    (hid : id ∈ coveredOfType closure v type) :
    ∃ s ∈ objectSnapshots v id head.requestType, snapshotWithin closure s = true := by
  have haction : id ∈ coveredOfType closure v .return →
      ∃ s ∈ objectSnapshots v id head.requestType, snapshotWithin closure s = true := by
    intro hid
    simp only [coveredOfType, List.mem_dedup, List.mem_map, Table.mem_select, Prod.exists] at hid
    obtain ⟨k, l, ⟨hl, hany⟩, rfl⟩ := hid
    obtain ⟨r, hr, hwithin⟩ := (Option.any_eq_true _ _).mp hany
    obtain ⟨-, ⟨h, hh, htype⟩, -⟩ := hlines.action k l hl
    obtain rfl : head = h := by simpa [hhead] using hh
    have hsnapshots : objectSnapshots v l.requestId head.requestType =
        actionSnapshots v l.requestId := by
      rcases List.mem_cons.mp htype with ht | ht
      · rw [ht]
        rfl
      · rw [List.mem_singleton.mp ht]
        rfl
    rw [hsnapshots]
    refine ⟨r.departmentSnapshot, ?_, (Bool.and_eq_true_iff.mp hwithin).2⟩
    exact List.mem_filterMap.mpr ⟨(k, l), Table.mem_select.mpr ⟨hl, by simp⟩, by simp [hr]⟩
  have happlicant : ∀ t : RequestType,
      id ∈ (v.approvalRequests.select fun _ r => r.requestType == t &&
        !isNull r.applicantDepartmentSnapshot &&
        snapshotWithin closure r.applicantDepartmentSnapshot).map (·.1) →
      head.requestType = t ∧ snapshotWithin closure head.applicantDepartmentSnapshot = true := by
    intro t hmem
    simp only [List.mem_map, Table.mem_select, Prod.exists, exists_and_right, exists_eq_right,
      Bool.and_eq_true, beq_iff_eq] at hmem
    obtain ⟨r, hr, ⟨ht, -⟩, hwithin⟩ := hmem
    obtain rfl : head = r := by simpa [hhead] using hr
    exact ⟨ht, hwithin⟩
  cases type with
  | «return» => exact haction hid
  | writeOff => exact haction hid
  | agentRequest =>
      simp only [coveredOfType, List.mem_map, Table.mem_select, Prod.exists, exists_and_right,
        exists_eq_right, Bool.and_eq_true, beq_iff_eq] at hid
      obtain ⟨r, hr, ht, hwithin⟩ := hid
      obtain rfl : head = r := by simpa [hhead] using hr
      rw [ht]
      exact recipientWithin_iff.mp hwithin
  | agentSettlement =>
      simp only [coveredOfType, List.mem_map, Table.mem_select, Prod.exists, exists_and_right,
        exists_eq_right, Bool.and_eq_true, beq_iff_eq] at hid
      obtain ⟨r, hr, ht, href⟩ := hid
      obtain rfl : head = r := by simpa [hhead] using hr
      obtain ⟨refId, hrefId, hwithin⟩ := (Option.any_eq_true _ _).mp href
      rw [ht]
      simpa [objectSnapshots, hhead, hrefId] using recipientWithin_iff.mp hwithin
  | stockIn =>
      obtain ⟨ht, hwithin⟩ := happlicant .stockIn hid
      exact ⟨_, by rw [ht]; simp [objectSnapshots, hhead], hwithin⟩
  | stockChange =>
      obtain ⟨ht, hwithin⟩ := happlicant .stockChange hid
      exact ⟨_, by rw [ht]; simp [objectSnapshots, hhead], hwithin⟩
  | consumableRequest =>
      obtain ⟨ht, hwithin⟩ := happlicant .consumableRequest hid
      exact ⟨_, by rw [ht]; simp [objectSnapshots, hhead], hwithin⟩

theorem covered_of_snapshotWithin {s : Json} (hhead : v.approvalRequests.find? id = some head)
    (hs : s ∈ objectSnapshots v id head.requestType) (hwithin : snapshotWithin closure s = true)
    (hnull : isNull s = false) : id ∈ coveredOfType closure v head.requestType := by
  have haction : s ∈ actionSnapshots v id → id ∈ coveredOfType closure v .return := by
    intro hs
    obtain ⟨⟨k, l⟩, hl, hsnapshot⟩ := List.mem_filterMap.mp hs
    obtain ⟨r, hr, rfl⟩ := Option.map_eq_some_iff.mp hsnapshot
    obtain ⟨hfind, hid⟩ := Table.mem_select.mp hl
    obtain rfl : l.requestId = id := by simpa using hid
    simp only [coveredOfType, List.mem_dedup]
    exact List.mem_map.mpr ⟨(k, l), Table.mem_select.mpr ⟨hfind,
      by simp [hr, hnull, hwithin]⟩, rfl⟩
  have happlicant : ∀ t : RequestType, head.requestType = t →
      s = head.applicantDepartmentSnapshot →
      id ∈ (v.approvalRequests.select fun _ r => r.requestType == t &&
        !isNull r.applicantDepartmentSnapshot &&
        snapshotWithin closure r.applicantDepartmentSnapshot).map (·.1) := by
    intro t ht hsnapshot
    subst hsnapshot
    exact List.mem_map.mpr ⟨(id, head), Table.mem_select.mpr ⟨hhead, by simp [ht, hnull, hwithin]⟩,
      rfl⟩
  cases ht : head.requestType with
  | «return» =>
      rw [ht] at hs
      exact haction hs
  | writeOff =>
      rw [ht] at hs
      exact haction hs
  | agentRequest =>
      rw [ht] at hs
      exact List.mem_map.mpr ⟨(id, head), Table.mem_select.mpr ⟨hhead, by
        simpa [ht] using recipientWithin_iff.mpr ⟨s, hs, hwithin⟩⟩, rfl⟩
  | agentSettlement =>
      rw [ht] at hs
      cases href : head.refRequestId with
      | none => simp [objectSnapshots, hhead, href] at hs
      | some refId =>
          have hrecipient : s ∈ recipientSnapshots v refId := by
            simpa [objectSnapshots, hhead, href] using hs
          exact List.mem_map.mpr ⟨(id, head), Table.mem_select.mpr ⟨hhead, by
            simpa [ht, href] using recipientWithin_iff.mpr ⟨s, hrecipient, hwithin⟩⟩, rfl⟩
  | stockIn => exact happlicant .stockIn ht (by rw [ht] at hs; simpa [objectSnapshots, hhead] using hs)
  | stockChange =>
      exact happlicant .stockChange ht (by rw [ht] at hs; simpa [objectSnapshots, hhead] using hs)
  | consumableRequest =>
      exact happlicant .consumableRequest ht
        (by rw [ht] at hs; simpa [objectSnapshots, hhead] using hs)

/-! ## An approver in department scope -/

structure DepartmentApprover (access : FunctionAccess) : Prop where
  registered : access.registered = true
  systemOpen : access.systemOpen = true
  allowed : access.allowed = true
  dataScope : access.dataScope = some .department

theorem mem_allAssetTypes (type : RequestType) : type ∈ allAssetTypes := by
  cases type <;> decide

theorem DepartmentApprover.visibleTypes {access : FunctionAccess} (h : DepartmentApprover access) :
    resolveVisibleTypes access =
      (allAssetTypes.filter fun type => !isCompanyOnlyRequestType type).map fun type =>
        (type, some .department) := by
  simp [resolveVisibleTypes, h.registered, h.systemOpen, h.allowed, h.dataScope]

variable {userId : Nat}

theorem DepartmentApprover.mem_pendingIds (h : DepartmentApprover (env.access userId))
    (hhead : v.approvalRequests.find? id = some head) (hpending : head.status = .pending) :
    id ∈ pendingIds env v userId ↔ isCompanyOnlyRequestType head.requestType = false ∧
      env.closureOfUser userId ≠ [] ∧ ∃ type, isCompanyOnlyRequestType type = false ∧
        id ∈ coveredOfType (env.closureOfUser userId) v type := by
  have hany : (resolveVisibleTypes (env.access userId)).any
      (fun entry => entry.2 == some .department) = true := by
    rw [h.visibleTypes]
    decide
  have hvisible : (resolveVisibleTypes (env.access userId)).any
      (fun entry => entry.1 == head.requestType) = true ↔
        isCompanyOnlyRequestType head.requestType = false := by
    rw [h.visibleTypes]
    cases head.requestType <;> decide
  have hcovered : id ∈ findCoveredRequestIds (env.closureOfUser userId)
      (resolveVisibleTypes (env.access userId)) v ↔ env.closureOfUser userId ≠ [] ∧
        ∃ type, isCompanyOnlyRequestType type = false ∧
          id ∈ coveredOfType (env.closureOfUser userId) v type := by
    have hscoped : (resolveVisibleTypes (env.access userId)).filter
        (fun entry => entry.2 == some .department) = resolveVisibleTypes (env.access userId) := by
      rw [h.visibleTypes]
      decide
    have hsome : (resolveVisibleTypes (env.access userId)).isEmpty = false := by
      rw [h.visibleTypes]
      decide
    cases hclosure : env.closureOfUser userId with
    | nil => simp [findCoveredRequestIds]
    | cons d ds =>
        simp only [findCoveredRequestIds, hscoped, hsome, List.isEmpty_cons, Bool.or_self,
          Bool.false_eq_true, ↓reduceIte, List.mem_dedup, List.mem_flatMap, ne_eq, reduceCtorEq,
          not_false_eq_true, true_and]
        rw [h.visibleTypes]
        simp only [List.mem_map, List.mem_filter, mem_allAssetTypes, true_and,
          Bool.not_eq_true', exists_exists_and_eq_and]
  unfold pendingIds
  simp only [hany, ↓reduceIte, Option.all_some, List.mem_map, Table.mem_select, Prod.exists,
    exists_and_right, exists_eq_right, Bool.and_eq_true, beq_iff_eq, List.contains_eq_mem,
    decide_eq_true_eq]
  rw [hcovered]
  constructor
  · rintro ⟨r, hr, ⟨-, htype⟩, hin⟩
    obtain rfl : head = r := by simpa [hhead] using hr
    exact ⟨hvisible.mp htype, hin⟩
  · intro hin
    exact ⟨head, hhead, ⟨hpending, hvisible.mpr hin.1⟩, hin.2⟩

theorem isNull_departmentsJson (ds : List DepartmentRef) : isNull (departmentsJson ds) = false :=
  rfl

theorem DepartmentApprover.mem_pendingIds_iff (h : DepartmentApprover (env.access userId))
    (hlines : ActionLinesOk v.approvalRequests v.borrowRecords v.borrowActionItems
      v.agentSettlementItems) (hhead : v.approvalRequests.find? id = some head)
    (hpending : head.status = .pending) {objects : List (List DepartmentRef)}
    (hobjects : objectSnapshots v id head.requestType = objects.map departmentsJson) :
    id ∈ pendingIds env v userId ↔ isCompanyOnlyRequestType head.requestType = false ∧
      ∃ s ∈ objects.map departmentsJson,
        snapshotWithin (env.closureOfUser userId) s = true := by
  rw [h.mem_pendingIds hhead hpending, ← hobjects]
  constructor
  · rintro ⟨hcompany, -, type, -, hin⟩
    exact ⟨hcompany, snapshotWithin_of_covered hlines hhead hin⟩
  · rintro ⟨hcompany, s, hs, hwithin⟩
    obtain ⟨ds, -, rfl⟩ := List.mem_map.mp (hobjects ▸ hs)
    refine ⟨hcompany, ?_, head.requestType, hcompany,
      covered_of_snapshotWithin hhead hs hwithin (isNull_departmentsJson ds)⟩
    intro hnil
    rw [snapshotWithin_departmentsJson, hnil] at hwithin
    cases ds with
    | nil => exact hwithin.1 rfl
    | cons d ds => exact absurd (hwithin.2 d (by simp)) (by simp)

theorem assertScopeCovers_run (hscope : (env.access userId).dataScope = some .department)
    (type : RequestType) (n : Nat) :
    (assertScopeCovers env id type userId).run n v = .ok ((), n, v) ↔
      scopeCoversAll (.department (env.closureOfUser userId))
        (resolveObjectDepartmentIds v id type) (isCompanyOnlyRequestType type) = true := by
  have hrun : (assertScopeCovers env id type userId).run n v =
      (liftExcept (assertScopeCoversAll (.department (env.closureOfUser userId))
        (resolveObjectDepartmentIds v id type) (isCompanyOnlyRequestType type) type.text)).run n
          v := by
    unfold assertScopeCovers
    rw [hscope]
    rfl
  rw [hrun]
  by_cases hcovers : scopeCoversAll (.department (env.closureOfUser userId))
      (resolveObjectDepartmentIds v id type) (isCompanyOnlyRequestType type) = true
  · simp [assertScopeCoversAll, hcovers, liftExcept, Txn.run]
  · simp [assertScopeCoversAll, hcovers, liftExcept, Txn.run]

end Listed

end AssetApprovalService

end Wbme.Asset
