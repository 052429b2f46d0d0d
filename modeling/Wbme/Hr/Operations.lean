import Wbme.Hr.Lifecycle
import Wbme.Hr.Organization
import Wbme.Hr.Overtime

/-! # Operations of the HR system

Every entry point that writes the store, as one call. A serial run executes calls one after
another; a call that fails leaves the store as it was, but for the keys it drew from the
sequence.
-/

namespace Wbme.Hr

open Lib

inductive HrOp where
  | departmentCreate (env : HrEnvironment) (operator : OperationLogOperator)
      (input : DepartmentService.DepartmentCreate)
  | departmentUpdate (env : HrEnvironment) (operator : OperationLogOperator) (id : Nat)
      (input : DepartmentService.DepartmentUpdate)
  | departmentMove (steps : Nat) (operator : OperationLogOperator) (id : Nat)
      (parentId : Option Nat) (idempotencyKey : Option String) (fingerprint : String)
  | departmentDelete (operator : OperationLogOperator) (ids : List Nat)
      (idempotencyKey : Option String) (fingerprint : String)
  | positionCreate (operator : OperationLogOperator) (input : PositionService.PositionCreate)
  | positionUpdate (operator : OperationLogOperator) (id : Nat)
      (input : PositionService.PositionUpdate)
  | positionDepartments (operator : OperationLogOperator) (id : Nat) (departmentIds : List Nat)
      (idempotencyKey : Option String) (fingerprint : String)
  | positionDelete (operator : OperationLogOperator) (ids : List Nat)
      (idempotencyKey : Option String) (fingerprint : String)
  | assignDepartments (operator : OperationLogOperator) (userId : Nat) (departmentIds : List Nat)
      (idempotencyKey : Option String) (fingerprint : String)
  | assignPosition (operator : OperationLogOperator) (userId positionId : Nat)
      (idempotencyKey : Option String) (fingerprint : String)
  | positionApplication (env : HrEnvironment) (operator : OperationLogOperator)
      (targetDepartmentId targetPositionId : Nat) (idempotencyKey : Option String)
      (fingerprint : String)
  | process (env : HrEnvironment) (operator : OperationLogOperator) (id : Nat)
      (decision : HrApprovalService.Decision) (opinion : Option String)
      (idempotencyKey : Option String) (fingerprint : String)
  | cancel (env : HrEnvironment) (operator : OperationLogOperator) (id : Nat)
      (expectedType : Option HrRequestType) (idempotencyKey : Option String)
      (fingerprint : String)
  | overdue (cutoff now : Int) (id : Nat)
  | cancelPositionApplications (env : HrEnvironment) (userId : Nat) (deactivatedAt : Int)
  | restoreApply (env : HrEnvironment) (dto : LifecycleService.RestoreApply)
  | overtimeSubmit (env : HrEnvironment) (operator : OperationLogOperator)
      (dto : OvertimeSubmissionService.OvertimeSubmit) (fingerprint : String)

def HrOp.call : HrOp → HrCall
  | .departmentCreate env operator input => DepartmentService.create env operator input
  | .departmentUpdate env operator id input => DepartmentService.update env operator id input
  | .departmentMove steps operator id parentId key fingerprint =>
      DepartmentService.move steps operator id parentId key fingerprint
  | .departmentDelete operator ids key fingerprint =>
      DepartmentService.deleteBatch operator ids key fingerprint
  | .positionCreate operator input => PositionService.create operator input
  | .positionUpdate operator id input => PositionService.update operator id input
  | .positionDepartments operator id departmentIds key fingerprint =>
      PositionService.updateDepartments operator id departmentIds key fingerprint
  | .positionDelete operator ids key fingerprint =>
      PositionService.deleteBatch operator ids key fingerprint
  | .assignDepartments operator userId departmentIds key fingerprint =>
      OrgStructureService.assignDepartments operator userId departmentIds key fingerprint
  | .assignPosition operator userId positionId key fingerprint =>
      OrgStructureService.assignPosition operator userId positionId key fingerprint
  | .positionApplication env operator departmentId positionId key fingerprint =>
      PositionApplicationService.submit env operator departmentId positionId key fingerprint
  | .process env operator id decision opinion key fingerprint =>
      HrApprovalService.process env operator id decision opinion key fingerprint
  | .cancel env operator id expectedType key fingerprint =>
      HrApprovalService.cancel env operator id expectedType key fingerprint
  | .overdue cutoff now id =>
      Call.single (HrReply.autoCancelled <$> OverdueWorker.cancelOverdue cutoff now id)
  | .cancelPositionApplications env userId deactivatedAt =>
      LifecycleService.cancelPositionApplications env userId deactivatedAt
  | .restoreApply env dto => LifecycleService.restoreApply env dto
  | .overtimeSubmit env operator dto fingerprint =>
      OvertimeSubmissionService.submit env operator dto fingerprint

/-- The store with the sequence its keys come from. -/
structure HrWorld where
  seq : Nat
  store : HrStore

/-- Before the first operation. -/
def HrWorld.init : HrWorld := ⟨1, .empty⟩

def Answers (w : HrWorld) (op : HrOp) (reply : HrReply) (w' : HrWorld) : Prop :=
  op.call.exec w.seq w.store = .ok (reply, w'.seq, w'.store)

/-- An operation throws: the store stays, the keys it drew are lost. -/
def Throws (w : HrWorld) (op : HrOp) (w' : HrWorld) : Prop :=
  ∃ e, op.call.exec w.seq w.store = .error e ∧ w.seq ≤ w'.seq ∧ w'.store = w.store

/-- One operation. -/
def Step (w w' : HrWorld) : Prop := ∃ op, (∃ reply, Answers w op reply w') ∨ Throws w op w'

/-- The worlds a sequence of operations leads to. -/
def Reachable (w : HrWorld) : Prop := Relation.ReflTransGen Step HrWorld.init w

/-! ## Executing -/

/-- Execute one operation; a failure changes nothing. -/
def HrWorld.step (w : HrWorld) (op : HrOp) : HrWorld :=
  match op.call.exec w.seq w.store with
  | .ok (_, n, s) => ⟨n, s⟩
  | .error _ => w

/-- Execute a sequence of operations. -/
def HrWorld.run (w : HrWorld) (ops : List HrOp) : HrWorld := ops.foldl HrWorld.step w

theorem HrWorld.step_step (w : HrWorld) (op : HrOp) : Step w (w.step op) := by
  unfold HrWorld.step
  cases hexec : op.call.exec w.seq w.store with
  | ok r => exact ⟨op, Or.inl ⟨r.1, hexec⟩⟩
  | error e => exact ⟨op, Or.inr ⟨e, hexec, Nat.le_refl _, rfl⟩⟩

theorem HrWorld.steps_run (w : HrWorld) (ops : List HrOp) :
    Relation.ReflTransGen Step w (w.run ops) := by
  induction ops generalizing w with
  | nil => exact .refl
  | cons op ops ih => exact .head (w.step_step op) (ih (w.step op))

theorem reachable_run (ops : List HrOp) : Reachable (HrWorld.init.run ops) :=
  HrWorld.init.steps_run ops

end Wbme.Hr
