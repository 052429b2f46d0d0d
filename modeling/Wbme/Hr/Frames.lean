import Wbme.Hr.Operations

/-! # What the operations leave alone

Most operations write neither an assignment nor, before their last statement, the log. An
invariant about these tables is kept by every statement that writes other ones; what is
left to prove of an invariant are the statements on its own tables.
-/

namespace Wbme.Hr

open Lib Approval

/-- An invariant that reads the assignments of users and positions, the details of position
changes and the log only. -/
structure LooksAtAssignments (I : Nat → HrStore → Prop) : Prop where
  mono : ∀ n s, I n s → I (n + 1) s
  congr : ∀ n s s', s'.userDepartments = s.userDepartments → s'.userPositions = s.userPositions →
    s'.positionDepartments = s.positionDepartments →
    s'.positionChangeRequests = s.positionChangeRequests → s'.operationLogs = s.operationLogs →
    I n s → I n s'

structure LooksAtRecords (I : Nat → HrStore → Prop) : Prop where
  mono : ∀ n s, I n s → I (n + 1) s
  congr : ∀ n s s', s'.positionChangeRequests = s.positionChangeRequests →
    s'.operationLogs = s.operationLogs → I n s → I n s'

theorem LooksAtRecords.looksAtAssignments {I : Nat → HrStore → Prop} (h : LooksAtRecords I) :
    LooksAtAssignments I :=
  ⟨h.mono, fun n s s' _ _ _ hchanges hlog hi => h.congr n s s' hchanges hlog hi⟩

section Statements

variable {I : Nat → HrStore → Prop} (hI : LooksAtAssignments I)
include hI

theorem departmentCreate_preserves (row : Department) : (departmentCreate row).Preserves I :=
  Txn.preserves_create fun n s _ hi => hI.congr _ s _ rfl rfl rfl rfl rfl (hI.mono n s hi)

theorem departmentUpdate_preserves (id : Nat) (f : Department → Department) :
    (departmentUpdate id f).Preserves I := by
  apply Txn.preserves_act
  intro n s a c h hi
  cases hd : s.departments.find? id with
  | none => simp [hd] at h
  | some row =>
      simp only [hd, Except.ok.injEq, Prod.mk.injEq, true_and] at h
      subst h
      exact hI.congr n s _ rfl rfl rfl rfl rfl hi

theorem departmentLeaderCreate_preserves (row : DepartmentLeader) :
    (departmentLeaderCreate row).Preserves I :=
  Txn.preserves_create fun n s _ hi => hI.congr _ s _ rfl rfl rfl rfl rfl (hI.mono n s hi)

theorem departmentLeaderDeleteMany_preserves (departmentId : Nat) :
    (departmentLeaderDeleteMany departmentId).Preserves I :=
  Txn.preserves_exec fun n s hi => hI.congr n s _ rfl rfl rfl rfl rfl hi

theorem positionUpdate_preserves (id : Nat) (row : Position) :
    (positionUpdate id row).Preserves I := by
  apply Txn.preserves_act
  intro n s a c h hi
  by_cases hp : (s.positions.find? id).isNone = true
  · simp [hp] at h
  · by_cases ht : positionNameTaken s (some id) row.name = true
    · simp [hp, ht] at h
    · simp only [hp, ht, Bool.false_eq_true, ↓reduceIte, Except.ok.injEq, Prod.mk.injEq,
        true_and] at h
      subst h
      exact hI.congr n s _ rfl rfl rfl rfl rfl hi

theorem positionCreate_preserves (row : Position) : (positionCreate row).Preserves I :=
  Txn.preserves_create fun n s _ hi => hI.congr _ s _ rfl rfl rfl rfl rfl (hI.mono n s hi)

theorem bumpUserOrgVersion_preserves : bumpUserOrgVersion.Preserves I :=
  Txn.preserves_exec fun n s hi => hI.congr n s _ rfl rfl rfl rfl rfl hi

theorem bumpOrgTreeVersion_preserves : bumpOrgTreeVersion.Preserves I :=
  Txn.preserves_exec fun n s hi => hI.congr n s _ rfl rfl rfl rfl rfl hi

theorem orgCompatRecordCreate_preserves (row : OrgCompatRecord) :
    (orgCompatRecordCreate row).Preserves I :=
  Txn.preserves_create fun n s _ hi => hI.congr _ s _ rfl rfl rfl rfl rfl (hI.mono n s hi)

theorem approvalRequestCreate_preserves (row : HrApprovalRequest) :
    (approvalRequestCreate row).Preserves I :=
  Txn.preserves_create fun n s _ hi => hI.congr _ s _ rfl rfl rfl rfl rfl (hI.mono n s hi)

theorem approvalActionCreate_preserves (row : HrApprovalAction) :
    (approvalActionCreate row).Preserves I :=
  Txn.preserves_create fun n s _ hi => hI.congr _ s _ rfl rfl rfl rfl rfl (hI.mono n s hi)

theorem approvalRequestTransition_preserves (id version : Nat)
    (f : HrApprovalRequest → HrApprovalRequest) :
    (approvalRequestTransition id version f).Preserves I := by
  apply Txn.preserves_act
  intro n s a c h hi
  by_cases hp : pendingAt s id version = true
  · simp only [hp, ↓reduceIte, Except.ok.injEq, Prod.mk.injEq] at h
    obtain ⟨-, rfl⟩ := h
    exact hI.congr n s _ rfl rfl rfl rfl rfl hi
  · simp only [hp, Bool.false_eq_true, ↓reduceIte, Except.ok.injEq, Prod.mk.injEq] at h
    obtain ⟨-, rfl⟩ := h
    exact hi

theorem overtimeItemCreate_preserves (row : OvertimeItem) : (overtimeItemCreate row).Preserves I :=
  Txn.preserves_create fun n s _ hi => hI.congr _ s _ rfl rfl rfl rfl rfl (hI.mono n s hi)

theorem cancelStillPending_preserves (ids : List Nat) (now : Int) :
    (LifecycleService.cancelStillPending ids now).Preserves I :=
  Txn.preserves_exec fun n s hi => hI.congr n s _ rfl rfl rfl rfl rfl hi

end Statements

section Assignments

variable {I : Nat → HrStore → Prop} (hI : LooksAtRecords I)
include hI

theorem departmentDeleteMany_keeps (ids : List Nat) : (departmentDeleteMany ids).Preserves I := by
  apply Txn.preserves_act
  intro n s a c h hi
  split at h
  · simp only [Except.ok.injEq, Prod.mk.injEq, true_and] at h
    subst h
    exact hI.congr n s _ rfl rfl hi
  · simp at h

theorem positionDeleteMany_keeps (ids : List Nat) : (positionDeleteMany ids).Preserves I :=
  Txn.preserves_exec fun n s hi => hI.congr n s _ rfl rfl hi

theorem positionDepartmentCreate_keeps (row : PositionDepartment) :
    (positionDepartmentCreate row).Preserves I :=
  Txn.preserves_create fun n s _ hi => hI.congr _ s _ rfl rfl (hI.mono n s hi)

theorem positionDepartmentDeleteMany_keeps (positionId : Nat) :
    (positionDepartmentDeleteMany positionId).Preserves I :=
  Txn.preserves_exec fun n s hi => hI.congr n s _ rfl rfl hi

theorem userDepartmentCreate_keeps (row : UserDepartment) :
    (userDepartmentCreate row).Preserves I :=
  Txn.preserves_create fun n s _ hi => hI.congr _ s _ rfl rfl (hI.mono n s hi)

theorem userDepartmentDeleteMany_keeps (userId : Nat) (which : Nat → Bool) :
    (userDepartmentDeleteMany userId which).Preserves I :=
  Txn.preserves_exec fun n s hi => hI.congr n s _ rfl rfl hi

theorem userPositionUpsert_keeps (userId : Nat) (row : UserPosition) :
    (userPositionUpsert userId row).Preserves I :=
  Txn.preserves_exec fun n s hi => hI.congr n s _ rfl rfl hi

theorem userPositionClear_keeps (userId : Nat) : (userPositionClear userId).Preserves I :=
  Txn.preserves_exec fun n s hi => hI.congr n s _ rfl rfl hi

end Assignments

section Organization

variable {I : Nat → HrStore → Prop}

theorem DepartmentService.assertParent_preserves (parentId : Nat) :
    (DepartmentService.assertParent parentId).Preserves I :=
  (Txn.preserves_query _).bind fun _ => (Txn.preserves_orThrow _ _).bind fun _ =>
    Txn.preserves_guard _ _

theorem DepartmentService.loadLeaders_preserves (env : HrEnvironment) (userIds : List Nat) :
    (DepartmentService.loadLeaders env userIds).Preserves I :=
  (Txn.preserves_guard _ _).bind fun _ => Txn.preserves_pure _

theorem DepartmentService.isDescendant_preserves (ancestorId steps : Nat) (current : Option Nat)
    (visited : List Nat) :
    (DepartmentService.isDescendant ancestorId steps current visited).Preserves I := by
  induction steps generalizing current visited with
  | zero => exact Txn.preserves_throw _
  | succ steps ih =>
      cases current with
      | none => exact Txn.preserves_pure _
      | some id =>
          unfold DepartmentService.isDescendant
          by_cases hseen : id ∈ visited
          · simpa [hseen] using Txn.preserves_pure false
          · by_cases hanc : id = ancestorId
            · subst hanc
              simpa [hseen] using Txn.preserves_pure true
            · simp only [hseen, hanc, ↓reduceIte]
              exact (Txn.preserves_query _).bind fun row => ih _ _

theorem PositionService.assertDepartmentsExist_preserves (departmentIds current : List Nat) :
    (PositionService.assertDepartmentsExist departmentIds current).Preserves I := by
  unfold PositionService.assertDepartmentsExist
  by_cases hnil : departmentIds = []
  · simpa [hnil] using Txn.preserves_pure ()
  · simp only [hnil, ↓reduceIte]
    exact (Txn.preserves_query _).bind fun _ => (Txn.preserves_guard _ _).bind fun _ =>
      Txn.preserves_guard _ _

variable (hI : LooksAtAssignments I)
include hI

theorem DepartmentService.createLeaders_preserves (departmentId operatorId : Nat)
    (leaders : List (Nat × String)) :
    (DepartmentService.createLeaders departmentId operatorId leaders).Preserves I :=
  Txn.preserves_forM fun _ => (departmentLeaderCreate_preserves hI _).bind fun _ =>
    Txn.preserves_pure ()

theorem DepartmentService.createRun_preserves (env : HrEnvironment) (operatorId : Nat)
    (input : DepartmentService.DepartmentCreate) :
    (DepartmentService.createRun env operatorId input).Preserves I := by
  have hrest : ∀ leaders id, (do
      DepartmentService.createLeaders id operatorId leaders
      bumpOrgTreeVersion
      pure (⟨.created id, .create,
        s!"在部门管理中新增了部门：{input.name}{DepartmentService.leadersText leaders}"⟩ :
          IdempotentOutcome HrReply)).Preserves I := fun leaders id =>
    (createLeaders_preserves hI id operatorId leaders).bind fun _ =>
      (bumpOrgTreeVersion_preserves hI).bind fun _ => Txn.preserves_pure _
  unfold DepartmentService.createRun
  cases input.parentId with
  | none =>
      exact (loadLeaders_preserves env _).bind fun leaders =>
        (departmentCreate_preserves hI _).bind fun id => hrest leaders id
  | some parentId =>
      exact (assertParent_preserves parentId).bind fun _ =>
        (loadLeaders_preserves env _).bind fun leaders =>
          (departmentCreate_preserves hI _).bind fun id => hrest leaders id

theorem DepartmentService.replaceLeaders_preserves (env : HrEnvironment) (id operatorId : Nat)
    (leaders : Option (List Nat)) :
    (DepartmentService.replaceLeaders env id operatorId leaders).Preserves I := by
  cases leaders with
  | none => exact Txn.preserves_pure ()
  | some userIds =>
      exact (loadLeaders_preserves env userIds).bind fun leaders =>
        (departmentLeaderDeleteMany_preserves hI id).bind fun _ =>
          createLeaders_preserves hI id operatorId leaders

theorem DepartmentService.updateRun_preserves (env : HrEnvironment) (operatorId id : Nat)
    (input : DepartmentService.DepartmentUpdate) :
    (DepartmentService.updateRun env operatorId id input).Preserves I :=
  (Txn.preserves_query _).bind fun _ => (Txn.preserves_orThrow _ _).bind fun _ =>
    (departmentUpdate_preserves hI _ _).bind fun _ =>
      (replaceLeaders_preserves hI env id operatorId input.leaders).bind fun _ =>
        (bumpOrgTreeVersion_preserves hI).bind fun _ => Txn.preserves_pure _

theorem DepartmentService.moveRun_preserves (steps id : Nat) (parentId : Option Nat) :
    (DepartmentService.moveRun steps id parentId).Preserves I := by
  apply (Txn.preserves_query _).bind
  intro found
  apply (Txn.preserves_orThrow _ _).bind
  intro existing
  cases parentId with
  | none =>
      exact (departmentUpdate_preserves hI _ _).bind fun _ =>
        (bumpOrgTreeVersion_preserves hI).bind fun _ => Txn.preserves_pure _
  | some parentId =>
      exact (assertParent_preserves parentId).bind fun _ =>
        (Txn.preserves_guard _ _).bind fun _ =>
          (isDescendant_preserves id steps (some parentId) []).bind fun _ =>
            (Txn.preserves_guard _ _).bind fun _ =>
              (departmentUpdate_preserves hI _ _).bind fun _ =>
                (bumpOrgTreeVersion_preserves hI).bind fun _ => Txn.preserves_pure _

theorem PositionService.updateRun_preserves (id : Nat) (input : PositionService.PositionUpdate) :
    (PositionService.updateRun id input).Preserves I :=
  (Txn.preserves_query _).bind fun _ => (Txn.preserves_orThrow _ _).bind fun _ =>
    (positionUpdate_preserves hI _ _).bind fun _ => Txn.preserves_pure _

end Organization

section Approvals

variable {I : Nat → HrStore → Prop}

theorem PositionApplicationService.assertTarget_preserves (departmentId positionId : Nat)
    (departmentGone positionGone inapplicable : Failure) :
    (PositionApplicationService.assertTarget departmentId positionId departmentGone positionGone
      inapplicable).Preserves I :=
  (Txn.preserves_query _).bind fun _ => (Txn.preserves_orThrow _ _).bind fun _ =>
    (Txn.preserves_guard _ _).bind fun _ => (Txn.preserves_query _).bind fun _ =>
      (Txn.preserves_orThrow _ _).bind fun _ => (Txn.preserves_guard _ _).bind fun _ =>
        (Txn.preserves_query _).bind fun _ => (Txn.preserves_guard _ _).bind fun _ =>
          Txn.preserves_pure _

theorem HrApprovalService.assertCanAccessType_preserves (access : FunctionAccess) :
    (HrApprovalService.assertCanAccessType access).Preserves I :=
  (Txn.preserves_guard _ _).bind fun _ => (Txn.preserves_guard _ _).bind fun _ =>
    Txn.preserves_guard _ _

theorem HrApprovalService.assertScopeCovers_preserves (env : HrEnvironment) (id : Nat)
    (requestType : HrRequestType) (userId : Nat) :
    (HrApprovalService.assertScopeCovers env id requestType userId).Preserves I :=
  (Txn.preserves_query _).bind fun _ => Txn.preserves_liftExcept _

theorem HrApprovalService.assertApplicantActive_preserves (env : HrEnvironment)
    (head : HrApprovalRequest) (decision : HrApprovalService.Decision) :
    (HrApprovalService.assertApplicantActive env head decision).Preserves I := by
  unfold HrApprovalService.assertApplicantActive
  split
  · exact Txn.preserves_guard _ _
  · exact Txn.preserves_pure ()

theorem HrApprovalService.probe_preserves (id : Nat) : (HrApprovalService.probe id).Preserves I :=
  (Txn.preserves_query _).bind fun _ => (Txn.preserves_orThrow _ _).bind fun _ =>
    Txn.preserves_pure _

variable (hI : LooksAtAssignments I)
include hI

theorem createRequestHead_preserves (env : HrEnvironment) (input : CreateRequestHeadInput) :
    (createRequestHead env input).Preserves I :=
  (approvalRequestCreate_preserves hI _).bind fun _ =>
    (approvalActionCreate_preserves hI _).bind fun _ => Txn.preserves_pure _

theorem PositionApplicationService.submitRun_preserves (env : HrEnvironment)
    (operator : OperationLogOperator) (departmentId positionId : Nat)
    (hchange : ∀ row, (positionChangeRequestCreate row).Preserves I) :
    (PositionApplicationService.submitRun env operator departmentId positionId).Preserves I := by
  have hsubmittable : (PositionApplicationService.assertSubmittable operator.id departmentId
      positionId).Preserves I :=
    (Txn.preserves_query _).bind fun _ => (Txn.preserves_guard _ _).bind fun _ =>
      assertTarget_preserves _ _ _ _ _
  exact hsubmittable.bind fun _ => (Txn.preserves_query _).bind fun _ =>
    (createRequestHead_preserves hI env _).bind fun _ =>
      (hchange _).bind fun _ => Txn.preserves_pure _

theorem HrApprovalService.processInner_preserves (env : HrEnvironment) (id : Nat)
    (decision : HrApprovalService.Decision) (transition : ResolvedTransition) (processorId : Nat)
    (opinion : Option String)
    (happly : (PositionApplicationService.apply id processorId).Preserves I) :
    (HrApprovalService.processInner env id decision transition processorId opinion).Preserves
      I := by
  have hcomplete : ∀ requestType, (HrApprovalService.completeProcess env id requestType decision
      transition.action processorId opinion).Preserves I := by
    intro requestType
    unfold HrApprovalService.completeProcess
    by_cases heffect : decision = .approve ∧ requestType = .positionChange
    · simp only [heffect, and_self, ↓reduceIte]
      exact happly.bind fun _ => (approvalActionCreate_preserves hI _).bind fun _ =>
        Txn.preserves_pure ()
    · simp only [heffect, ↓reduceIte]
      exact (approvalActionCreate_preserves hI _).bind fun _ => Txn.preserves_pure ()
  exact (Txn.preserves_query _).bind fun _ => (Txn.preserves_orThrow _ _).bind fun head =>
    (assertCanAccessType_preserves _).bind fun _ => (Txn.preserves_guard _ _).bind fun _ =>
      (Txn.preserves_liftExcept _).bind fun _ =>
        (assertScopeCovers_preserves env id head.requestType processorId).bind fun _ =>
          (assertApplicantActive_preserves env head decision).bind fun _ =>
            (approvalRequestTransition_preserves hI _ _ _).bind fun _ =>
              (Txn.preserves_liftExcept _).bind fun _ => hcomplete head.requestType

theorem HrApprovalService.cancelInner_preserves (env : HrEnvironment) (id actorId : Nat)
    (expectedType : Option HrRequestType) (transition : ResolvedTransition) :
    (HrApprovalService.cancelInner env id actorId expectedType transition).Preserves I :=
  (Txn.preserves_query _).bind fun _ => (Txn.preserves_orThrow _ _).bind fun _ =>
    (Txn.preserves_guard _ _).bind fun _ => (Txn.preserves_guard _ _).bind fun _ =>
      (Txn.preserves_liftExcept _).bind fun _ => (Txn.preserves_liftExcept _).bind fun _ =>
        (approvalRequestTransition_preserves hI _ _ _).bind fun _ =>
          (Txn.preserves_liftExcept _).bind fun _ =>
            (approvalActionCreate_preserves hI _).bind fun _ => Txn.preserves_pure ()

theorem OverdueWorker.cancelOverdue_preserves (cutoff now : Int) (id : Nat) :
    (OverdueWorker.cancelOverdue cutoff now id).Preserves I := by
  apply (Txn.preserves_query _).bind
  intro row
  cases row with
  | none => exact Txn.preserves_pure false
  | some row =>
      apply (approvalRequestTransition_preserves hI _ _ _).bind
      intro updated
      by_cases hlost : updated = 0
      · simpa [hlost] using Txn.preserves_pure false
      · simp only [hlost, ↓reduceIte]
        exact (approvalActionCreate_preserves hI _).bind fun _ => Txn.preserves_pure true

theorem LifecycleService.cancelPendingPositionApplications_preserves (env : HrEnvironment)
    (userId : Nat) (deactivatedAt : Int) :
    (LifecycleService.cancelPendingPositionApplications env userId deactivatedAt).Preserves I := by
  apply (Txn.preserves_query _).bind
  intro pending
  by_cases hnil : pending = []
  · simpa [hnil] using Txn.preserves_pure 0
  · simp only [hnil, ↓reduceIte]
    exact (cancelStillPending_preserves hI _ _).bind fun _ =>
      (Txn.preserves_forM fun _ => (approvalActionCreate_preserves hI _).bind fun _ =>
        Txn.preserves_pure ()).bind fun _ => Txn.preserves_pure _

end Approvals

namespace OvertimeSubmissionService

variable {I : Nat → HrStore → Prop}

theorem assertFunction_preserves (env : HrEnvironment) (operator : OperationLogOperator)
    (dto : OvertimeSubmit) : (assertFunction env operator dto).Preserves I :=
  (Txn.preserves_guard _ _).bind fun _ => Txn.preserves_guard _ _

theorem readOnly_validateBatch (env : HrEnvironment) (operator : OperationLogOperator)
    (dto : OvertimeSubmit) : (validateBatch env operator dto).ReadOnly :=
  (Txn.readOnly_mapM fun _ => Txn.readOnly_query _).bind fun _ => Txn.readOnly_pure _

theorem assertNoOverlapInTransaction_preserves (dto : OvertimeSubmit) :
    (assertNoOverlapInTransaction dto).Preserves I :=
  (Txn.preserves_forM fun _ => Txn.preserves_queryForUpdate _ _).bind fun _ =>
    (Txn.preserves_queryForUpdate _ _).bind fun _ =>
      Txn.preserves_forM fun _ => Txn.preserves_guard _ _

theorem submitRun_preserves (hI : LooksAtAssignments I) (env : HrEnvironment)
    (operator : OperationLogOperator) (dto : OvertimeSubmit) (holiday : HolidayResult) :
    (submitRun env operator dto holiday).Preserves I := by
  have hitem : ∀ requestId userId, (createItem env dto holiday requestId userId).Preserves I :=
    fun requestId userId => (Txn.preserves_query _).bind fun _ =>
      (Txn.preserves_query _).bind fun _ => (overtimeItemCreate_preserves hI _).bind fun _ =>
        Txn.preserves_pure ()
  exact (assertNoOverlapInTransaction_preserves dto).bind fun _ =>
    (createRequestHead_preserves hI env _).bind fun head =>
      (Txn.preserves_forM fun userId => hitem head.1 userId).bind fun _ => Txn.preserves_pure _

theorem submit_preserves (env : HrEnvironment) (operator : OperationLogOperator)
    (dto : OvertimeSubmit) (fingerprint : String)
    (hexecute : ∀ holiday, (execute env operator dto fingerprint holiday).main.Preserves I) :
    (submit env operator dto fingerprint).main.Preserves I :=
  (assertFunction_preserves env operator dto).bind fun _ => (Txn.preserves_guard _ _).bind fun _ =>
    (readOnly_validateBatch env operator dto).preserves.bind fun _ =>
      (Txn.preserves_guard _ _).bind fun _ => (Txn.preserves_orThrow _ _).bind fun holiday =>
        hexecute holiday

end OvertimeSubmissionService

section Assigning

variable {I : Nat → HrStore → Prop}

theorem OrgStructureService.assertActiveDepartments_preserves (departmentIds : List Nat) :
    (OrgStructureService.assertActiveDepartments departmentIds).Preserves I :=
  (Txn.preserves_query _).bind fun _ => (Txn.preserves_guard _ _).bind fun _ =>
    Txn.preserves_guard _ _

theorem PositionService.readOnly_affectedUsers (holders departmentIds : List Nat) :
    (PositionService.affectedUsers holders departmentIds).ReadOnly :=
  (Txn.readOnly_mapM fun _ => (Txn.readOnly_query _).bind fun _ => Txn.readOnly_pure _).bind
    fun _ => Txn.readOnly_pure _

variable (hI : LooksAtAssignments I)
include hI

theorem DepartmentService.deleteRun_preserves (ids : List Nat)
    (hdelete : (departmentDeleteMany ids).Preserves I) :
    (DepartmentService.deleteRun ids).Preserves I :=
  (Txn.preserves_query _).bind fun _ => (Txn.preserves_guard _ _).bind fun _ =>
    (Txn.preserves_query _).bind fun _ => (Txn.preserves_guard _ _).bind fun _ =>
      hdelete.bind fun _ => (bumpOrgTreeVersion_preserves hI).bind fun _ =>
        (bumpUserOrgVersion_preserves hI).bind fun _ => Txn.preserves_pure _

theorem PositionService.createRun_preserves (input : PositionService.PositionCreate)
    (hcreate : ∀ row, (positionDepartmentCreate row).Preserves I) :
    (PositionService.createRun input).Preserves I :=
  (assertDepartmentsExist_preserves _ _).bind fun _ => (positionCreate_preserves hI _).bind fun _ =>
    (Txn.preserves_forM fun _ => (hcreate _).bind fun _ => Txn.preserves_pure ()).bind fun _ =>
      Txn.preserves_pure _

theorem PositionService.deleteRun_preserves (ids : List Nat)
    (hdelete : (positionDeleteMany ids).Preserves I) :
    (PositionService.deleteRun ids).Preserves I :=
  (Txn.preserves_query _).bind fun _ => (Txn.preserves_guard _ _).bind fun _ =>
    hdelete.bind fun _ => (bumpUserOrgVersion_preserves hI).bind fun _ => Txn.preserves_pure _

namespace LifecycleService

omit hI in
theorem clearIncompatible_preserves
    (hdelete : ∀ userId which, (userDepartmentDeleteMany userId which).Preserves I)
    (hclear : ∀ userId, (userPositionClear userId).Preserves I) (userId : Nat)
    (compatibility : CompatibilityCheck) :
    (clearIncompatible userId compatibility).Preserves I := by
  have hposition : (if compatibility.positionCleared then do
      let current ← Txn.query fun v => v.positionOf userId
      if current.isSome then userPositionClear userId else pure ()
    else pure () : HrTx Unit).Preserves I := by
    by_cases hcleared : compatibility.positionCleared = true
    · simp only [hcleared, ↓reduceIte]
      apply (Txn.preserves_query _).bind
      intro current
      by_cases hsome : current.isSome = true
      · simpa [hsome] using hclear userId
      · simpa [hsome] using Txn.preserves_pure ()
    · simpa [hcleared] using Txn.preserves_pure ()
  unfold clearIncompatible
  by_cases hnil : compatibility.clearedDepartments = []
  · simpa [hnil] using hposition
  · simp only [hnil, ↓reduceIte]
    exact (hdelete userId _).bind fun _ => hposition

theorem restoreTarget_preserves
    (hdelete : ∀ userId which, (userDepartmentDeleteMany userId which).Preserves I)
    (hclear : ∀ userId, (userPositionClear userId).Preserves I) (env : HrEnvironment)
    (committed : HrStore) (restoreRequestId : String) (target : RestoreTarget) :
    (restoreTarget env committed restoreRequestId target).Preserves I := by
  unfold restoreTarget
  cases checkCompatibility env target.userId target.lifecycleVersion with
  | some reason => exact Txn.preserves_throw _
  | none =>
      exact (cancelPendingPositionApplications_preserves hI env _ _).bind fun _ =>
        (clearIncompatible_preserves hdelete hclear _ _).bind fun _ =>
          (orgCompatRecordCreate_preserves hI _).bind fun _ => bumpUserOrgVersion_preserves hI

theorem restoreApplyMain_preserves
    (hdelete : ∀ userId which, (userDepartmentDeleteMany userId which).Preserves I)
    (hclear : ∀ userId, (userPositionClear userId).Preserves I) (env : HrEnvironment)
    (dto : RestoreApply) : (restoreApplyMain env dto).Preserves I := by
  apply (Txn.preserves_queryForUpdate _ _).bind
  intro _
  apply (Txn.preserves_query _).bind
  intro existing
  by_cases happlied : existing ≠ []
  · simp only [happlied, ↓reduceIte, ne_eq, not_false_eq_true]
    exact (Txn.preserves_guard _ _).bind fun _ => Txn.preserves_pure _
  · simp only [happlied, ↓reduceIte]
    exact (Txn.preserves_query _).bind fun committed =>
      (Txn.preserves_forM fun target => restoreTarget_preserves hI hdelete hclear env committed
        dto.restoreRequestId target).bind fun _ => Txn.preserves_pure _

end LifecycleService

end Assigning

section Records

variable {I : Nat → HrStore → Prop} (hI : LooksAtRecords I)
include hI

theorem PositionService.updateDepartmentsRun_keeps (id : Nat) (departmentIds : List Nat) :
    (PositionService.updateDepartmentsRun id departmentIds).Preserves I :=
  (Txn.preserves_query _).bind fun _ => (Txn.preserves_orThrow _ _).bind fun _ =>
    (Txn.preserves_query _).bind fun _ => (assertDepartmentsExist_preserves _ _).bind fun _ =>
      (Txn.preserves_query _).bind fun _ => (readOnly_affectedUsers _ _).preserves.bind fun _ =>
        (Txn.preserves_guard _ _).bind fun _ =>
          (positionDepartmentDeleteMany_keeps hI id).bind fun _ =>
            (Txn.preserves_forM fun _ => (positionDepartmentCreate_keeps hI _).bind fun _ =>
              Txn.preserves_pure ()).bind fun _ => Txn.preserves_pure _

theorem OrgStructureService.assignDepartmentsRun_keeps (operatorId userId : Nat)
    (departmentIds : List Nat) :
    (OrgStructureService.assignDepartmentsRun operatorId userId departmentIds).Preserves I := by
  have hreplace : (do
      userDepartmentDeleteMany userId fun _ => true
      departmentIds.forM fun departmentId => do
        let _ ← userDepartmentCreate ⟨userId, departmentId, operatorId⟩
        pure ()
      bumpUserOrgVersion
      pure (⟨.done, .update, s!"调整了员工 {userId} 的所属部门"⟩ :
        IdempotentOutcome HrReply)).Preserves I :=
    (userDepartmentDeleteMany_keeps hI userId _).bind fun _ =>
      (Txn.preserves_forM fun _ => (userDepartmentCreate_keeps hI _).bind fun _ =>
        Txn.preserves_pure ()).bind fun _ =>
          (bumpUserOrgVersion_preserves hI.looksAtAssignments).bind fun _ => Txn.preserves_pure _
  apply (assertActiveDepartments_preserves departmentIds).bind
  intro _
  apply (Txn.preserves_query _).bind
  intro position
  cases position with
  | none => exact hreplace
  | some positionId =>
      exact (Txn.preserves_query _).bind fun _ => (Txn.preserves_guard _ _).bind fun _ => hreplace

theorem OrgStructureService.assignPositionRun_keeps (operatorId userId positionId : Nat) :
    (OrgStructureService.assignPositionRun operatorId userId positionId).Preserves I := by
  have hupsert : (do
      userPositionUpsert userId ⟨some positionId, operatorId⟩
      bumpUserOrgVersion
      pure (⟨.done, .update, s!"调整了员工 {userId} 的岗位"⟩ :
        IdempotentOutcome HrReply)).Preserves I :=
    (userPositionUpsert_keeps hI userId _).bind fun _ =>
      (bumpUserOrgVersion_preserves hI.looksAtAssignments).bind fun _ => Txn.preserves_pure _
  apply (Txn.preserves_query _).bind
  intro found
  apply (Txn.preserves_orThrow _ _).bind
  intro position
  apply (Txn.preserves_guard _ _).bind
  intro _
  apply (Txn.preserves_query _).bind
  intro departments
  cases departments with
  | nil => exact hupsert
  | cons first others =>
      exact (Txn.preserves_query _).bind fun _ => (Txn.preserves_guard _ _).bind fun _ => hupsert

theorem PositionApplicationService.apply_keeps (requestId processorId : Nat) :
    (PositionApplicationService.apply requestId processorId).Preserves I :=
  (Txn.preserves_query _).bind fun _ => (Txn.preserves_orThrow _ _).bind fun _ =>
    (Txn.preserves_query _).bind fun _ => (Txn.preserves_guard _ _).bind fun _ =>
      (assertTarget_preserves _ _ _ _ _).bind fun _ =>
        (userDepartmentDeleteMany_keeps hI _ _).bind fun _ =>
          (userDepartmentCreate_keeps hI _).bind fun _ =>
            (userPositionUpsert_keeps hI _ _).bind fun _ =>
              bumpUserOrgVersion_preserves hI.looksAtAssignments

end Records

end Wbme.Hr
