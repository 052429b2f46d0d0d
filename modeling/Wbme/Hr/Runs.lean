import Wbme.Hr.Assignments

/-! # Runs of the HR system

An invariant that only looks at assignments and the log is kept by every operation when the
operations on the assignments and the logging itself keep it. From there it holds in every
reachable world.
-/

namespace Wbme.Hr

open Lib Approval

/-- The operations that write assignments keep the invariant. -/
structure KeptByAssigning (I : Nat → HrStore → Prop) : Prop where
  departmentDelete : ∀ ids, (DepartmentService.deleteRun ids).Preserves I
  positionCreate : ∀ input, (PositionService.createRun input).Preserves I
  positionDepartments : ∀ id departmentIds,
    (PositionService.updateDepartmentsRun id departmentIds).Preserves I
  positionDelete : ∀ ids, (PositionService.deleteRun ids).Preserves I
  assignDepartments : ∀ operatorId userId departmentIds,
    (OrgStructureService.assignDepartmentsRun operatorId userId departmentIds).Preserves I
  assignPosition : ∀ operatorId userId positionId,
    (OrgStructureService.assignPositionRun operatorId userId positionId).Preserves I
  apply : ∀ requestId processorId,
    (PositionApplicationService.apply requestId processorId).Preserves I
  restoreApply : ∀ env dto, (LifecycleService.restoreApplyMain env dto).Preserves I
  positionChange : ∀ row, (positionChangeRequestCreate row).Preserves I

theorem LooksAtRecords.keptByAssigning {I : Nat → HrStore → Prop} (hI : LooksAtRecords I)
    (hchange : ∀ row, (positionChangeRequestCreate row).Preserves I) : KeptByAssigning I where
  departmentDelete ids := DepartmentService.deleteRun_preserves hI.looksAtAssignments ids
    (departmentDeleteMany_keeps hI ids)
  positionCreate input := PositionService.createRun_preserves hI.looksAtAssignments input
    (positionDepartmentCreate_keeps hI)
  positionDepartments := PositionService.updateDepartmentsRun_keeps hI
  positionDelete ids := PositionService.deleteRun_preserves hI.looksAtAssignments ids
    (positionDeleteMany_keeps hI ids)
  assignDepartments := OrgStructureService.assignDepartmentsRun_keeps hI
  assignPosition := OrgStructureService.assignPositionRun_keeps hI
  apply := PositionApplicationService.apply_keeps hI
  restoreApply := LifecycleService.restoreApplyMain_preserves hI.looksAtAssignments
    (userDepartmentDeleteMany_keeps hI) (userPositionClear_keeps hI)
  positionChange := hchange

/-- Logging keeps the invariant. -/
def KeptByLogging (I : Nat → HrStore → Prop) : Prop :=
  ∀ n s row, I n s → I (n + 1) { s with operationLogs := s.operationLogs.insert n row }

section Operations

variable {I : Nat → HrStore → Prop}

theorem HrOp.main_preserves (hI : LooksAtAssignments I) (hlog : KeptByLogging I)
    (h : KeptByAssigning I) (op : HrOp) : op.call.main.Preserves I := by
  have hexec : ∀ o {run}, run.Preserves I →
      (executeIdempotentOperation hrLog o run).main.Preserves I :=
    fun o _ hrun => preserves_executeIdempotentOperation hrLog hlog o hrun
  cases op with
  | departmentCreate env operator input =>
      exact hexec _ (DepartmentService.createRun_preserves hI env operator.id input)
  | departmentUpdate env operator id input =>
      exact hexec _ (DepartmentService.updateRun_preserves hI env operator.id id input)
  | departmentMove steps operator id parentId key fingerprint =>
      exact hexec _ (DepartmentService.moveRun_preserves hI steps id parentId)
  | departmentDelete operator ids key fingerprint => exact hexec _ (h.departmentDelete ids)
  | positionCreate operator input => exact hexec _ (h.positionCreate input)
  | positionUpdate operator id input =>
      exact hexec _ (PositionService.updateRun_preserves hI id input)
  | positionDepartments operator id departmentIds key fingerprint =>
      exact hexec _ (h.positionDepartments id departmentIds)
  | positionDelete operator ids key fingerprint => exact hexec _ (h.positionDelete ids)
  | assignDepartments operator userId departmentIds key fingerprint =>
      exact hexec _ (h.assignDepartments operator.id userId departmentIds)
  | assignPosition operator userId positionId key fingerprint =>
      exact hexec _ (h.assignPosition operator.id userId positionId)
  | positionApplication env operator departmentId positionId key fingerprint =>
      exact hexec _ (PositionApplicationService.submitRun_preserves hI env operator _ _ h.positionChange)
  | process env operator id decision opinion key fingerprint =>
      exact (Txn.preserves_liftExcept _).bind fun transition =>
        (Txn.preserves_liftExcept _).bind fun _ =>
          (HrApprovalService.probe_preserves id).bind fun _ => hexec _
            ((HrApprovalService.processInner_preserves hI env id decision transition operator.id
              opinion (h.apply id operator.id)).bind fun _ => Txn.preserves_pure _)
  | cancel env operator id expectedType key fingerprint =>
      exact (Txn.preserves_liftExcept _).bind fun transition =>
        (HrApprovalService.probe_preserves id).bind fun _ => hexec _
          ((HrApprovalService.cancelInner_preserves hI env id operator.id expectedType
            transition).bind fun _ => Txn.preserves_pure _)
  | overdue cutoff now id =>
      exact (OverdueWorker.cancelOverdue_preserves hI cutoff now id).bind fun _ =>
        Txn.preserves_pure _
  | cancelPositionApplications env userId deactivatedAt =>
      exact (LifecycleService.cancelPendingPositionApplications_preserves hI env userId _).bind
        fun _ => Txn.preserves_pure _
  | restoreApply env dto => exact h.restoreApply env dto
  | overtimeSubmit env operator dto fingerprint =>
      exact OvertimeSubmissionService.submit_preserves env operator dto fingerprint fun holiday =>
        hexec _ (OvertimeSubmissionService.submitRun_preserves hI env operator dto holiday)

theorem HrOp.readOnly_recover (op : HrOp) (e : Failure) (p : HrTx HrReply)
    (h : op.call.recover e = some p) : p.ReadOnly := by
  cases op with
  | overdue cutoff now id => simp [HrOp.call, Call.single] at h
  | cancelPositionApplications env userId deactivatedAt =>
      simp [HrOp.call, LifecycleService.cancelPositionApplications, Call.single] at h
  | restoreApply env dto =>
      simp only [HrOp.call, LifecycleService.restoreApply] at h
      split at h
      · obtain rfl := Option.some.inj h
        exact (Txn.readOnly_query _).bind fun _ => (Txn.readOnly_guard _ _).bind fun _ =>
          Txn.readOnly_pure _
      · simp at h
  | _ => exact readOnly_replayAfterConflict hrLog _ e p h

theorem Step.preserves (hI : ∀ n s, I n s → I (n + 1) s)
    (hmain : ∀ op : HrOp, op.call.main.Preserves I) {w w' : HrWorld} (hs : Step w w')
    (h : I w.seq w.store) : I w'.seq w'.store := by
  obtain ⟨op, ⟨reply, hanswer⟩ | ⟨e, -, hseq, hstore⟩⟩ := hs
  · rcases Call.exec_ok_cases op.readOnly_recover hanswer with hrun | ⟨hseq, hstore⟩
    · exact Txn.wp_of_run_ok (hmain op w.seq w.store h) hrun
    · rw [hseq, hstore]
      exact h
  · rw [hstore]
    exact Nat.le_induction h (fun n _ hn => hI n _ hn) w'.seq hseq

theorem Steps.preserves (hI : ∀ n s, I n s → I (n + 1) s)
    (hmain : ∀ op : HrOp, op.call.main.Preserves I) {w w' : HrWorld}
    (hs : Relation.ReflTransGen Step w w') (h : I w.seq w.store) : I w'.seq w'.store := by
  induction hs with
  | refl => exact h
  | tail _ hstep ih => exact hstep.preserves hI hmain ih

end Operations

/-! ## Positions and departments agree -/

theorem keptByAssigning_assigned : KeptByAssigning Assigned where
  departmentDelete ids := DepartmentService.deleteRun_preserves looksAtAssignments_assigned ids
    (departmentDeleteMany_preserves ids)
  positionCreate input := PositionService.createRun_preserves looksAtAssignments_assigned input
    positionDepartmentCreate_preserves
  positionDepartments := PositionService.updateDepartmentsRun_preserves
  positionDelete ids := PositionService.deleteRun_preserves looksAtAssignments_assigned ids
    (positionDeleteMany_preserves ids)
  assignDepartments := OrgStructureService.assignDepartmentsRun_preserves
  assignPosition := OrgStructureService.assignPositionRun_preserves
  apply := PositionApplicationService.apply_preserves
  restoreApply := LifecycleService.restoreApplyMain_preserves looksAtAssignments_assigned
    userDepartmentDeleteMany_preserves userPositionClear_preserves
  positionChange _ := Txn.preserves_create fun n _ _ h =>
    ⟨h.userDepartments.mono (Nat.le_succ n), h.positionDepartments.mono (Nat.le_succ n), h.fits⟩

theorem keptByLogging_assigned : KeptByLogging Assigned := fun n _ _ h =>
  ⟨h.userDepartments.mono (Nat.le_succ n), h.positionDepartments.mono (Nat.le_succ n), h.fits⟩

theorem Reachable.assigned {w : HrWorld} (h : Reachable w) : Assigned w.seq w.store :=
  Steps.preserves (I := Assigned) looksAtAssignments_assigned.mono
    (HrOp.main_preserves looksAtAssignments_assigned keptByLogging_assigned
      keptByAssigning_assigned) h (assigned_empty 1)

/-- In every reachable world the departments of a user who holds a position are among those the
position applies to. -/
theorem departments_applicable_of_reachable {w : HrWorld} (h : Reachable w) (userId p : Nat)
    (hposition : w.store.positionOf userId = some p) :
    ∀ d ∈ w.store.departmentIdsOf userId, d ∈ w.store.applicableTo p := fun d hd =>
  h.assigned.fits userId d hd p hposition

/-- An administrator without departments. -/
def admin : OperationLogOperator := ⟨1, "管理员", []⟩

/-- The clock of the runs. -/
def quietEnvironment : HrEnvironment where
  now := 0
  account _ := some ⟨"张三", true, false, 0⟩
  access _ _ := ⟨true, true, "HR", true, some .company⟩
  closureOfUser _ := []
  overtimeAdvanceDays := 7
  overtimeBackfillDays := 7
  holiday _ := some ⟨"WORKDAY", "OFFLINE", "", ""⟩
  applicationNoSuffix := "0001"

/-- A department, a position that applies to it, and an employee who is given both. -/
def staffing : List HrOp :=
  [.departmentCreate quietEnvironment admin ⟨"研发部", none, none, none, ""⟩,
    .positionCreate admin ⟨"工程师", none, none, some [1], none, ""⟩,
    .assignDepartments admin 7 [1] none "",
    .assignPosition admin 7 3 none ""]

theorem departments_applicable_staffing :
    (HrWorld.init.run staffing).store.departmentIdsOf 7 = [1] ∧
      ∀ d ∈ (HrWorld.init.run staffing).store.departmentIdsOf 7,
        d ∈ (HrWorld.init.run staffing).store.applicableTo 3 :=
  ⟨by decide +kernel,
    departments_applicable_of_reachable (reachable_run staffing) 7 3 (by decide +kernel)⟩

end Wbme.Hr
