import Wbme.Asset.Coverage
import Wbme.Asset.Stock
import Wbme.Hr.Coverage

/-! # Coverage in both services

What an approver in department scope is shown and what the approver may open and process,
over the asset and the HR service; and what objects without a department do to the check.
-/

namespace Wbme

open Approval

/-! ## Listed and passed -/

/-- A pending request is in the list and the count of an approver in department scope if and
only if the coverage check passes, unless one object lies within the closure and another has
a department outside it. -/
theorem pending_listed_iff_passes_iff (userId id : Nat) (objects : List (List DepartmentRef)) :
    (∀ {w : Asset.World}, Asset.Reachable w → ∀ {env : Asset.Environment},
      Asset.AssetApprovalService.DepartmentApprover (env.access userId) →
      ∀ {head : Asset.ApprovalRequest}, w.store.approvalRequests.find? id = some head →
      head.status = .pending →
      Asset.AssetApprovalService.objectSnapshots w.store id head.requestType =
        objects.map departmentsJson →
      ((id ∈ Asset.AssetApprovalService.pendingIds env w.store userId ↔
          (Asset.AssetApprovalService.assertScopeCovers env id head.requestType userId).run w.seq
            w.store = .ok ((), w.seq, w.store)) ↔
        ¬ (Asset.isCompanyOnlyRequestType head.requestType = false ∧
          Mixed (env.closureOfUser userId) objects))) ∧
    (∀ {w : Hr.HrWorld}, Hr.Reachable w → ∀ {env : Hr.HrEnvironment}
      {head : Hr.HrApprovalRequest},
      Hr.HrApprovalService.DepartmentApprover (env.access userId head.requestType.function) →
      w.store.approvalRequests.find? id = some head → head.status = .pending →
      Hr.HrApprovalService.objectSnapshots w.store id head.requestType =
        objects.map departmentsJson →
      ((id ∈ Hr.HrApprovalService.pendingIds env w.store userId ↔
          (Hr.HrApprovalService.assertScopeCovers env id head.requestType userId).run w.seq
            w.store = .ok ((), w.seq, w.store)) ↔
        ¬ Mixed (env.closureOfUser userId) objects)) := by
  constructor
  · intro w hw env h head hhead hpending hobjects
    rw [h.mem_pendingIds_iff hw.ok.actionLines hhead hpending hobjects, 
      Asset.AssetApprovalService.assertScopeCovers_run h.dataScope,
      Asset.AssetApprovalService.resolveObjectDepartmentIds, hobjects]
    exact listed_iff_covered_iff objects _
  · intro w hw env head h hhead hpending hobjects
    rw [h.mem_pendingIds_iff (Hr.HrApprovalService.oneDetail_of_reachable hw) hhead hpending
      hobjects, Hr.HrApprovalService.assertScopeCovers_run h.dataScope,
      Hr.HrApprovalService.resolveObjectDepartmentIds, hobjects]
    simpa using listed_iff_covered_iff objects false

namespace Sample

def departmentAccess : FunctionAccess := ⟨true, true, "", true, some .department⟩

/-- Everyone approves for department 1; employee 5 is in it, the others are where it says. -/
def assetEnvironment (others : DepartmentRef) : Asset.Environment :=
  { Asset.Sample.environment "2" with
    access := fun _ => departmentAccess
    closureOfUser := fun _ => [1]
    departmentsOf := fun userId => if userId = 5 then [⟨1, "assembly"⟩] else [others] }

/-- The four drills are claimed for employees 5 and 6, with head 9. -/
def claimingForOthers (others : DepartmentRef) : List Asset.Op :=
  Asset.Sample.claiming.take 3 ++
    [.agentClaimSubmit (assetEnvironment others) Asset.Sample.employee
      ⟨[5, 6], [⟨5, 4, Int.natCast_pos.mpr (Nat.succ_pos 3), none⟩]⟩]

def claimed (others : DepartmentRef) : Asset.World :=
  Asset.World.init.run (claimingForOthers others)

/-- Everyone approves for department 1. -/
def hrEnvironment : Hr.HrEnvironment :=
  { Hr.quietEnvironment with
    access := fun _ _ => departmentAccess
    closureOfUser := fun _ => [1] }

def evening : Hr.OvertimeSubmissionService.OvertimeSubmit where
  overtimeDate := 0
  dateText := "1970-01-01"
  startMinute := 1080
  endMinute := 1200
  reason := "上线"
  userIds := [7, 8]
  idempotencyKey := some "k1"

/-- Employee 7 is in department 1, employee 8 in none; their overtime is submitted, with head
10. -/
def overtime : Hr.HrWorld :=
  Hr.HrWorld.init.run (Hr.staffing ++
    [.overtimeSubmit Hr.quietEnvironment Hr.admin evening "f"])

/-- The same with employee 8 in department 1 too, with head 11. -/
def staffedOvertime : Hr.HrWorld :=
  Hr.HrWorld.init.run (Hr.staffing ++
    [.assignDepartments Hr.admin 8 [1] none "",
      .overtimeSubmit Hr.quietEnvironment Hr.admin evening "f"])

end Sample

open Sample

theorem departmentApprover_asset (others : DepartmentRef) :
    Asset.AssetApprovalService.DepartmentApprover ((assetEnvironment others).access 3) :=
  ⟨rfl, rfl, rfl, rfl⟩

theorem departmentApprover_hr (type : Hr.HrRequestType) :
    Hr.HrApprovalService.DepartmentApprover (hrEnvironment.access 3 type.function) :=
  ⟨rfl, rfl, rfl, rfl⟩

/-- Two objects in department 1 are listed and pass. -/
theorem pending_listed_claimed :
    (∃ head, (claimed ⟨1, "assembly"⟩).store.approvalRequests.find? 9 = some head ∧
      (9 ∈ Asset.AssetApprovalService.pendingIds (assetEnvironment ⟨1, "assembly"⟩)
          (claimed ⟨1, "assembly"⟩).store 3 ↔
        (Asset.AssetApprovalService.assertScopeCovers (assetEnvironment ⟨1, "assembly"⟩) 9
          head.requestType 3).run (claimed ⟨1, "assembly"⟩).seq (claimed ⟨1, "assembly"⟩).store =
            .ok ((), (claimed ⟨1, "assembly"⟩).seq, (claimed ⟨1, "assembly"⟩).store))) ∧
    ∃ head, staffedOvertime.store.approvalRequests.find? 11 = some head ∧
      (11 ∈ Hr.HrApprovalService.pendingIds hrEnvironment staffedOvertime.store 3 ↔
        (Hr.HrApprovalService.assertScopeCovers hrEnvironment 11 head.requestType 3).run
          staffedOvertime.seq staffedOvertime.store =
            .ok ((), staffedOvertime.seq, staffedOvertime.store)) := by
  constructor
  · have hhead : ((claimed ⟨1, "assembly"⟩).store.approvalRequests.find? 9).map
        (fun h => (h.status, h.requestType)) = some (.pending, .agentRequest) := by
      decide +kernel
    obtain ⟨head, hfind, hview⟩ := Option.map_eq_some_iff.mp hhead
    obtain ⟨hpending, htype⟩ := Prod.mk.inj hview
    have hobjects : Asset.AssetApprovalService.objectSnapshots (claimed ⟨1, "assembly"⟩).store 9
        head.requestType = [[⟨1, "assembly"⟩], [⟨1, "assembly"⟩]].map departmentsJson := by
      rw [htype]
      exact Json.eq_of_beqList _ _ (by decide +kernel)
    refine ⟨head, hfind, ((pending_listed_iff_passes_iff 3 9 _).1 (Asset.reachable_run _)
      (departmentApprover_asset ⟨1, "assembly"⟩) hfind hpending hobjects).mpr ?_⟩
    intro hmixed
    exact absurd hmixed.2 (by decide)
  · have hhead : (staffedOvertime.store.approvalRequests.find? 11).map
        (fun h => (h.status, h.requestType)) = some (.pending, .overtime) := by
      decide +kernel
    obtain ⟨head, hfind, hview⟩ := Option.map_eq_some_iff.mp hhead
    obtain ⟨hpending, htype⟩ := Prod.mk.inj hview
    have hobjects : Hr.HrApprovalService.objectSnapshots staffedOvertime.store 11
        head.requestType = [[⟨1, "研发部"⟩], [⟨1, "研发部"⟩]].map departmentsJson := by
      rw [htype]
      exact Json.eq_of_beqList _ _ (by decide +kernel)
    refine ⟨head, hfind, ((pending_listed_iff_passes_iff 3 11 _).2 (Hr.reachable_run _)
      (departmentApprover_hr head.requestType) hfind hpending hobjects).mpr ?_⟩
    intro hmixed
    exact absurd hmixed (by decide)

/-- One recipient in department 1 and one in department 2: the request is listed, and the check
refuses. -/
theorem pending_listed_not_passed :
    Asset.Reachable (claimed ⟨2, "testing"⟩) ∧
      ¬ (9 ∈ Asset.AssetApprovalService.pendingIds (assetEnvironment ⟨2, "testing"⟩)
          (claimed ⟨2, "testing"⟩).store 3 ↔
        (Asset.AssetApprovalService.assertScopeCovers (assetEnvironment ⟨2, "testing"⟩) 9
          .agentRequest 3).run (claimed ⟨2, "testing"⟩).seq (claimed ⟨2, "testing"⟩).store =
            .ok ((), (claimed ⟨2, "testing"⟩).seq, (claimed ⟨2, "testing"⟩).store)) := by
  refine ⟨Asset.reachable_run _, fun hiff => ?_⟩
  have hpasses := hiff.mp (by decide +kernel)
  rw [Asset.AssetApprovalService.assertScopeCovers_run rfl] at hpasses
  exact absurd hpasses (by decide +kernel)

/-! ## Objects without departments -/

end Wbme
