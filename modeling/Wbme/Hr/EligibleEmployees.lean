import Wbme.Hr.Overtime

/-! # Eligible employees

The form offers the employees a submitter may name, and the submission checks the ones that
were named. Both read the same organisation view, with different queries: the form asks for
some department and none outside the closure, the check only for none outside.
-/

namespace Wbme.Hr

open Lib

def HrEnvironment.withAccounts (env : HrEnvironment) (accounts : Table Account) :
    HrEnvironment :=
  { env with account := accounts.find? }

namespace OvertimeSubmissionService

/-- An employee the form offers. -/
structure EmployeeOption where
  id : Nat
  name : String

/-- The order of the form: names, then ids. -/
def EmployeeOption.le (a b : EmployeeOption) : Bool :=
  decide (a.name < b.name) || (a.name == b.name && decide (a.id ≤ b.id))

section Form

variable (env : HrEnvironment) (accounts : Table Account) (operator : OperationLogOperator)
  (v : HrStore)

/-- Some department inside the closure, and none outside of it. -/
def isEligible (closure : List Nat) (userId : Nat) : Bool :=
  ((v.departmentsOf userId).any fun d => d.id ∈ closure) &&
    !((v.departmentsOf userId).any fun d => !(d.id ∈ closure))

/-- The accounts in service that pass a condition, in the order of the form. -/
def selectEmployees (condition : Nat → Bool) : List EmployeeOption :=
  ((accounts.select fun userId a => a.active && !a.deleted && condition userId).map fun p =>
    (⟨p.1, p.2.name⟩ : EmployeeOption)).mergeSort EmployeeOption.le

def listEligibleEmployees : Except Failure (List EmployeeOption) :=
  if !hasApply env operator && !canProxy env operator then .error (.of .resourceNotFound)
  else if !canProxy env operator then .ok [⟨operator.id, operator.name⟩]
  else if (env.access operator.id .proxyOvertime).dataScope == some .department then
    let closure := env.closureOfUser operator.id
    if closure.isEmpty then .ok []
    else .ok (selectEmployees accounts fun userId => isEligible v closure userId)
  else .ok (selectEmployees accounts fun _ => true)

/-- Does the form offer an employee? -/
def isOffered (userId : Nat) : Bool :=
  match listEligibleEmployees env accounts operator v with
  | .ok employees => employees.any fun e => e.id == userId
  | .error _ => false

end Form

def OvertimeBatchFailure.ofScope (failure : OvertimeBatchFailure) : Bool :=
  failure.code == .overtimeEmployeeNotActive || failure.code == .scopeNotCovered

/-- Does the scope check accept an employee of the batch? -/
def acceptsTarget (failures : List OvertimeBatchFailure) (userId : Nat) : Bool :=
  !(failures.any fun failure => failure.userId == userId && failure.ofScope)

/-! ## The check of a batch -/

variable {userId : Nat}

section Check

variable (env : HrEnvironment) (operator : OperationLogOperator) (dto : OvertimeSubmit)
  (v : HrStore)

theorem run_validateBatch (n : Nat) :
    (validateBatch env operator dto).run n v =
      .ok ((targets env operator dto).flatMap (targetFailures env operator dto v), n, v) := by
  have h : ∀ us : List Nat,
      ((us.mapM fun u => Txn.query fun w => targetFailures env operator dto w u) :
        HrTx (List (List OvertimeBatchFailure))).run n v =
        .ok (us.map (targetFailures env operator dto v), n, v) := by
    intro us
    induction us with
    | nil => rfl
    | cons u us ih =>
        rw [List.mapM_cons, Txn.run_bind]
        show ((us.mapM _ >>= fun rest => pure (_ :: rest)) : HrTx _).run n v = _
        rw [Txn.run_bind, ih]
        rfl
  rw [validateBatch, Txn.run_bind, h, List.flatMap_def]
  rfl

theorem userId_of_mem_targetFailures {failure : OvertimeBatchFailure}
    (h : failure ∈ targetFailures env operator dto v userId) : failure.userId = userId := by
  unfold targetFailures at h
  split at h
  · cases h
  · split at h
    · rw [List.mem_singleton.mp h]
    · rcases List.mem_append.mp h with h | h
      · split at h
        · rw [List.mem_singleton.mp h]
        · cases h
      · split at h
        · rw [List.mem_singleton.mp h]
        · cases h

theorem acceptsTarget_flatMap {userIds : List Nat} (h : userId ∈ userIds) :
    acceptsTarget (userIds.flatMap (targetFailures env operator dto v)) userId =
      !((targetFailures env operator dto v userId).any OvertimeBatchFailure.ofScope) := by
  unfold acceptsTarget
  congr 1
  rw [Bool.eq_iff_iff, List.any_eq_true, List.any_eq_true]
  constructor
  · intro hf
    obtain ⟨failure, hm, hf⟩ := hf
    obtain ⟨other, _, hm⟩ := List.mem_flatMap.mp hm
    rw [Bool.and_eq_true, beq_iff_eq] at hf
    have : other = userId := (userId_of_mem_targetFailures _ _ _ _ hm).symm.trans hf.1
    exact ⟨failure, this ▸ hm, hf.2⟩
  · intro hf
    obtain ⟨failure, hm, hf⟩ := hf
    refine ⟨failure, List.mem_flatMap.mpr ⟨userId, h, hm⟩, ?_⟩
    rw [Bool.and_eq_true, beq_iff_eq]
    exact ⟨userId_of_mem_targetFailures _ _ _ _ hm, hf⟩

/-- An employee passes the scope check in service and without a department outside the
operator's. -/
theorem ofScope_targetFailures {userId : Nat} (other : userId ≠ operator.id) :
    (targetFailures env operator dto v userId).any OvertimeBatchFailure.ofScope = false ↔
      isActive env userId = true ∧
        ∀ closure, proxyClosure env operator = some closure →
          ∀ d ∈ v.departmentsOf userId, d.id ∈ closure := by
  unfold targetFailures
  rw [if_neg other]
  cases hactive : isActive env userId with
  | false => simp [OvertimeBatchFailure.ofScope]
  | true =>
      cases hclosure : proxyClosure env operator with
      | none =>
          by_cases hoverlap : hasOverlap dto v userId = true
          · simp [hoverlap, OvertimeBatchFailure.ofScope]
          · simp [hoverlap]
      | some closure =>
          cases hout : (v.departmentsOf userId).any fun d => !decide (d.id ∈ closure) with
          | true =>
              have : ¬ ∀ d ∈ v.departmentsOf userId, d.id ∈ closure := by simpa using hout
              simp [hout, this, OvertimeBatchFailure.ofScope]
          | false =>
              have : ∀ d ∈ v.departmentsOf userId, d.id ∈ closure := by simpa using hout
              by_cases hoverlap : hasOverlap dto v userId = true
              · simpa [hout, hoverlap, OvertimeBatchFailure.ofScope] using this
              · simpa [hout, hoverlap] using this

end Check

section Agreement

variable (env : HrEnvironment) (accounts : Table Account) (operator : OperationLogOperator)
  (v : HrStore)

theorem any_selectEmployees {condition : Nat → Bool} :
    ((selectEmployees accounts condition).any fun e => e.id == userId) = true ↔
      isActive (env.withAccounts accounts) userId = true ∧ condition userId = true := by
  rw [List.any_eq_true]
  constructor
  · intro h
    obtain ⟨e, he, hid⟩ := h
    obtain ⟨p, hp, rfl⟩ := List.mem_map.mp (List.mem_mergeSort.mp he)
    obtain ⟨hfind, hp⟩ := Table.mem_select.mp hp
    have hid : p.1 = userId := beq_iff_eq.mp hid
    rw [Bool.and_eq_true] at hp
    subst hid
    refine ⟨?_, hp.2⟩
    show (accounts.find? p.1).any _ = true
    rw [hfind]
    exact hp.1
  · intro h
    obtain ⟨hactive, hcondition⟩ := h
    have hactive : (accounts.find? userId).any (fun a => a.active && !a.deleted) = true := hactive
    obtain ⟨a, hfind, ha⟩ := (Option.any_eq_true _ _).mp hactive
    refine ⟨⟨userId, a.name⟩, ?_, beq_self_eq_true _⟩
    refine List.mem_mergeSort.mpr (List.mem_map.mpr ⟨(userId, a), ?_, rfl⟩)
    exact Table.mem_select.mpr ⟨hfind, by rw [ha, hcondition]; rfl⟩

theorem isEligible_iff {closure : List Nat} {userId : Nat} :
    isEligible v closure userId = true ↔
      v.departmentsOf userId ≠ [] ∧ ∀ d ∈ v.departmentsOf userId, d.id ∈ closure := by
  cases hd : v.departmentsOf userId with
  | nil => simp [isEligible, hd]
  | cons d ds =>
      simp only [isEligible, hd]
      simp
      grind

/-- A submitter with department scope is offered the employees in service that have
departments, all of them in the closure. -/
theorem isOffered_iff (proxy : canProxy env operator = true)
    (scope : (env.access operator.id .proxyOvertime).dataScope = some .department)
    {userId : Nat} :
    isOffered env accounts operator v userId = true ↔
      isActive (env.withAccounts accounts) userId = true ∧ v.departmentsOf userId ≠ [] ∧
        ∀ d ∈ v.departmentsOf userId, d.id ∈ env.closureOfUser operator.id := by
  have hnone : ∀ closure : List Nat, closure.isEmpty = true →
      ¬ (v.departmentsOf userId ≠ [] ∧ ∀ d ∈ v.departmentsOf userId, d.id ∈ closure) := by
    intro closure hempty h
    obtain ⟨hne, h⟩ := h
    obtain ⟨d, hd⟩ := List.exists_mem_of_ne_nil _ hne
    rw [List.isEmpty_iff.mp hempty] at h
    cases h d hd
  cases hempty : (env.closureOfUser operator.id).isEmpty with
  | true =>
      have hlist : listEligibleEmployees env accounts operator v = .ok [] := by
        simp [listEligibleEmployees, proxy, scope, List.isEmpty_iff.mp hempty]
      rw [isOffered, hlist]
      constructor
      · intro h
        cases h
      · intro h
        exact absurd h.2 (hnone _ hempty)
  | false =>
      have hlist : listEligibleEmployees env accounts operator v =
          .ok (selectEmployees accounts fun u => isEligible v (env.closureOfUser operator.id) u) := by
        simp [listEligibleEmployees, proxy, scope, hempty]
      rw [isOffered, hlist]
      show (List.any _ _ = true) ↔ _
      rw [any_selectEmployees env, isEligible_iff]

end Agreement

/-- The check of a batch accepts exactly whom the form offers, but for an employee in service
without any department: the check accepts it, the form never offers it. -/
theorem accepted_iff_offered (env : HrEnvironment) (accounts : Table Account)
    (operator : OperationLogOperator) (dto : OvertimeSubmit) (v : HrStore) (n userId : Nat)
    (proxy : canProxy env operator = true)
    (scope : (env.access operator.id .proxyOvertime).dataScope = some .department)
    (named : userId ∈ dto.userIds) (other : userId ≠ operator.id) :
    ∃ failures,
      (validateBatch (env.withAccounts accounts) operator dto).run n v = .ok (failures, n, v) ∧
      ((acceptsTarget failures userId = true ↔
          isOffered env accounts operator v userId = true) ↔
        ¬ (isActive (env.withAccounts accounts) userId = true ∧
          v.departmentsOf userId = [])) := by
  refine ⟨_, run_validateBatch _ operator dto v n, ?_⟩
  have hproxy : canProxy (env.withAccounts accounts) operator = true := proxy
  have hmem : userId ∈ targets (env.withAccounts accounts) operator dto := by
    rw [targets, if_pos hproxy]
    exact List.mem_dedup.mpr named
  have hclosure : proxyClosure (env.withAccounts accounts) operator =
      some (env.closureOfUser operator.id) := by
    have hscope : ((env.withAccounts accounts).access operator.id .proxyOvertime).dataScope =
        some .department := scope
    rw [proxyClosure, hproxy, hscope]
    rfl
  rw [acceptsTarget_flatMap _ _ _ _ hmem, Bool.not_eq_true', ofScope_targetFailures _ _ _ _ other,
    isOffered_iff env accounts operator v proxy scope, hclosure]
  grind

/-! ### One department, one employee in it and one in none -/

/-- The operator and the second employee are in department 10, the third is in none. -/
def oneDepartment : HrStore :=
  { HrStore.empty with
    departments := Table.empty.insert 10 ⟨none, "Workshop", .active⟩
    userDepartments := (Table.empty.insert 1 ⟨1, 10, 1⟩).insert 2 ⟨2, 10, 1⟩ }

def threeAccounts : Table Account :=
  ((Table.empty.insert 1 ⟨"Lead", true, false, 0⟩).insert 2 ⟨"Fitter", true, false, 0⟩).insert 3
    ⟨"Joiner", true, false, 0⟩

def departmentProxy : HrEnvironment where
  now := 0
  account := fun _ => none
  access := fun _ _ => ⟨true, true, "HR", true, some .department⟩
  closureOfUser := fun userId => if userId = 1 then [10] else []
  overtimeAdvanceDays := 0
  overtimeBackfillDays := 0
  holiday := fun _ => none
  applicationNoSuffix := ""

def lead : OperationLogOperator := ⟨1, "Lead", [⟨10, "Workshop"⟩]⟩

def evening : OvertimeSubmit := ⟨0, "1970-01-01", 1080, 1200, "Inventory", [2, 3], none⟩

theorem accepted_iff_offered_in_department :
    ∃ failures,
      (validateBatch (departmentProxy.withAccounts threeAccounts) lead evening).run 3
        oneDepartment = .ok (failures, 3, oneDepartment) ∧
      (acceptsTarget failures 2 = true ↔
        isOffered departmentProxy threeAccounts lead oneDepartment 2 = true) := by
  obtain ⟨failures, hrun, h⟩ := accepted_iff_offered departmentProxy threeAccounts lead evening
    oneDepartment 3 2 (by decide) rfl (by decide) (by decide)
  exact ⟨failures, hrun, h.mpr (by decide)⟩

/-- The employee without a department passes the check and is not offered. -/
theorem accepted_not_offered :
    ∃ failures,
      (validateBatch (departmentProxy.withAccounts threeAccounts) lead evening).run 3
        oneDepartment = .ok (failures, 3, oneDepartment) ∧
      acceptsTarget failures 3 = true ∧
        isOffered departmentProxy threeAccounts lead oneDepartment 3 = false := by
  refine ⟨_, run_validateBatch _ lead evening oneDepartment 3, by decide, ?_⟩
  rw [Bool.eq_false_iff]
  intro h
  exact ((isOffered_iff departmentProxy threeAccounts lead oneDepartment (by decide) rfl).mp h).2.1
    (by decide)

end OvertimeSubmissionService

end Wbme.Hr
