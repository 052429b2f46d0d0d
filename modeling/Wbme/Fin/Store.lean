import Wbme.Fin.Fields
import Wbme.Idempotency

/-! # The finance store

Projects with their three kinds of amounts, the record of what was done to them, and the
dictionary their choices come from, with the locks PostgreSQL takes for them. A deleted
project keeps its row and its business key.
-/

namespace Wbme.Fin

open Lib

/-! ## Rows -/

inductive AmountSemantic where
  | tentative
  | audited
deriving DecidableEq

inductive FinanceDictType where
  | progress
  | completeness
  | bizCategory
  | region
deriving DecidableEq

inductive DictStatus where
  | active
  | disabled
deriving DecidableEq

structure FinanceDictItem where
  dictType : FinanceDictType
  name : String
  semantic : Option AmountSemantic
  sort : Int
  status : DictStatus

/-- A dictionary item as a project remembers it. -/
structure DictRef where
  id : Nat
  name : String
deriving DecidableEq

def DictRef.toJson (ref : DictRef) : Json := .obj [("id", .num ref.id), ("name", .str ref.name)]

/-- The columns of a project that its forms and imports write. -/
structure ProjectData where
  name : String
  year : Nat
  businessKey : String
  completenessDocs : Option (List DictRef)
  regionId : Option Nat
  regionName : Option String
  progressId : Option Nat
  progressName : Option String
  progressSemantic : Option AmountSemantic
  bizCategoryId : Option Nat
  bizCategoryName : Option String
  partyA : Option String
  generalContractor : Option String
  managementFee : Option String
  subcontractors : List String
  contractStartDate : Option Int
  contractEndDate : Option Int
  contractAmount : Option Decimal
  paymentNode : Option String
  tentativeAuditedAmount : Option Decimal
  settlement : Option Decimal
  miscExpense : Option Decimal
  remark : Option String
deriving DecidableEq

structure Project extends ProjectData where
  dataRevision : Nat
  updatedAt : Int
  deletedBy : Option Nat
  deletedAt : Option Int
deriving DecidableEq

def Project.isLive (p : Project) : Bool := p.deletedAt.isNone

/-- The columns of the unique index. -/
def ProjectData.key (p : ProjectData) : String × Nat := (p.businessKey, p.year)

inductive DetailKind where
  | invoice
  | receipt
  | subcontractPayment
deriving DecidableEq

structure DetailItem where
  amount : Decimal
  occurredDate : Option Int
  remark : Option String
deriving DecidableEq

structure Detail extends DetailItem where
  projectId : Nat
deriving DecidableEq

inductive ProjectAction where
  | create
  | edit
  | delete
  | importCreate
  | importOverwrite
  | importSkip

structure ProjectOperation where
  projectId : Nat
  operatorId : Nat
  operatorName : String
  action : ProjectAction
  field : Option String
  before : Option Json
  after : Option Json

/-- What the operations answer, and the log records. -/
inductive FinReply where
  | ok
  | id (id : Nat)
  | deleted (count : Nat)
  | restored (count : Nat)
  | detailDeleted (dataRevision : Nat) (auto : ProjectCalcResult)
  | cellSaved (field : String) (value : Json) (auto : ProjectCalcResult) (dataRevision : Nat)
  | imported (created overwritten skipped : Nat)

/-! ## The store -/

structure FinStore where
  projects : Table Project
  invoices : Table Detail
  receipts : Table Detail
  subcontractPayments : Table Detail
  projectOperations : Table ProjectOperation
  financeDictItems : Table FinanceDictItem
  operationLogs : Table (OperationLog FinReply)

def FinStore.empty : FinStore := ⟨.empty, .empty, .empty, .empty, .empty, .empty, .empty⟩

def FinStore.details (s : FinStore) : DetailKind → Table Detail
  | .invoice => s.invoices
  | .receipt => s.receipts
  | .subcontractPayment => s.subcontractPayments

def FinStore.withDetails (s : FinStore) (kind : DetailKind) (t : Table Detail) : FinStore :=
  match kind with
  | .invoice => { s with invoices := t }
  | .receipt => { s with receipts := t }
  | .subcontractPayment => { s with subcontractPayments := t }

variable (s : FinStore)

@[simp] theorem FinStore.details_withDetails (kind kind' : DetailKind) (t : Table Detail) :
    (s.withDetails kind t).details kind' = if kind' = kind then t else s.details kind' := by
  cases kind <;> cases kind' <;> rfl

@[simp] theorem FinStore.projects_withDetails (kind : DetailKind) (t : Table Detail) :
    (s.withDetails kind t).projects = s.projects := by cases kind <;> rfl

@[simp] theorem FinStore.details_projects (t : Table Project) (kind : DetailKind) :
    { s with projects := t }.details kind = s.details kind := by cases kind <;> rfl

@[simp] theorem FinStore.details_projectOperations (t : Table ProjectOperation)
    (kind : DetailKind) : { s with projectOperations := t }.details kind = s.details kind := by
  cases kind <;> rfl

@[simp] theorem FinStore.details_operationLogs (t : Table (OperationLog FinReply))
    (kind : DetailKind) : { s with operationLogs := t }.details kind = s.details kind := by cases kind <;> rfl

@[simp] theorem FinStore.details_financeDictItems (t : Table FinanceDictItem) (kind : DetailKind) :
    { s with financeDictItems := t }.details kind = s.details kind := by
  cases kind <;> rfl

/-- The amounts of a project, in the order of their ids. -/
def FinStore.detailsOf (s : FinStore) (kind : DetailKind) (projectId : Nat) :
    List (Nat × Detail) := (s.details kind).select fun _ d => d.projectId == projectId

/-- Row locks and the waits on unique indexes. -/
inductive FinLock where
  | project (id : Nat)
  | projectKey (businessKey : String) (year : Nat)
  | detail (kind : DetailKind) (id : Nat)
  | dictItem (id : Nat)
  | dictName (dictType : FinanceDictType) (name : String)
  | idempotency (operatorId : Nat) (scope key : String)
deriving DecidableEq

abbrev FinTx (α : Type) := Txn FinStore FinLock Failure α

abbrev FinCall := Call FinStore FinLock Failure FinReply

def finLog : LogTable FinStore FinLock FinReply where
  system := "FIN"
  get := FinStore.operationLogs
  set s t := { s with operationLogs := t }
  lock := FinLock.idempotency
  get_set _ _ := rfl

/-- The runtime around an operation. -/
structure FinEnvironment where
  unicode : Unicode
  /-- Milliseconds since the epoch. -/
  now : Int

/-! ## Failures -/

/-- A request refused for one of its fields. -/
def invalidField (field reason : String) : Failure :=
  .business .validationFailed [("fields.field", field), ("fields.reason", reason)]

def projectKeyIndex : String := "projects_business_key_year_key"

/-! ## Statements on projects -/

/-- Another project has the key, deleted or not. -/
def keyTaken (v : FinStore) (self : Option Nat) (key : String × Nat) : Bool :=
  (v.projects.select fun id p => p.key == key && some id != self).isEmpty == false

def keyLock (key : String × Nat) : FinLock := .projectKey key.1 key.2

/-- The insert of a project; `e` is what a taken key fails with. -/
def createProject (row : Project) (e : Failure) : FinTx Nat :=
  Txn.create (fun _ => [keyLock row.key]) (fun v => [(keyTaken v none row.key, e)])
    fun id s => { s with projects := s.projects.insert id row }

def updateLocks (id : Nat) (p p' : Project) : List FinLock :=
  .project id :: if p.key = p'.key then [] else [keyLock p.key, keyLock p'.key]

def updateProject (id : Nat) (f : Project → Project) (e : Failure) : FinTx Project :=
  Txn.act
    (fun v => match v.projects.find? id with
      | none => []
      | some p => updateLocks id p (f p))
    fun v => match v.projects.find? id with
      | none => .error (.recordMissing "projects")
      | some p =>
          if (f p).key ≠ p.key ∧ keyTaken v (some id) (f p).key = true then .error e
          else .ok (f p, fun s => { s with projects := s.projects.update id f })

def updateProjectAt (id dataRevision : Nat) (f : Project → Project) : FinTx Bool :=
  Txn.act
    (fun v => match (v.projects.find? id).filter fun p => p.dataRevision == dataRevision with
      | none => []
      | some p => updateLocks id p (f p))
    fun v => match (v.projects.find? id).filter fun p => p.dataRevision == dataRevision with
      | none => .ok (false, fun s => s)
      | some p =>
          if (f p).key ≠ p.key ∧ keyTaken v (some id) (f p).key = true then
            .error (.uniqueViolation projectKeyIndex)
          else .ok (true, fun s => { s with projects := s.projects.update id f })

def projectIds (v : FinStore) (ids : List Nat) : List Nat :=
  (v.projects.select fun id _ => ids.contains id).map (·.1)

def updateProjects (ids : List Nat) (f : Project → Project) : FinTx Unit :=
  Txn.exec (fun v => (projectIds v ids).map .project) fun v s =>
    { s with projects := s.projects.updateMany (fun id _ => (projectIds v ids).contains id) f }

/-- The next revision of a row, at the time it was written. -/
def Project.revised (env : FinEnvironment) (p : Project) : Project :=
  { p with dataRevision := p.dataRevision + 1, updatedAt := env.now }

def findLiveProject (id : Nat) : FinTx Project := do
  let found ← Txn.query fun v => v.projects.find? id
  Txn.orThrow (found.filter Project.isLive) (.of .resourceNotFound)

/-- The computed fields of a project over its amounts as a statement finds them. -/
def recalcAuto (id : Nat) (p : Project) : FinTx ProjectCalcResult := do
  let invoices ← Txn.query fun v => v.detailsOf .invoice id
  let receipts ← Txn.query fun v => v.detailsOf .receipt id
  let payments ← Txn.query fun v => v.detailsOf .subcontractPayment id
  pure (calcProjectAutoFields p.tentativeAuditedAmount p.miscExpense
    (invoices.map (·.2.amount)) (receipts.map (·.2.amount)) (payments.map (·.2.amount)))

/-! ## The record of operations -/

def writeProjectOperation (operation : ProjectOperation) : FinTx Unit := do
  let _ ← Txn.create (fun _ => []) (fun _ => []) fun id s =>
    { s with projectOperations := s.projectOperations.insert id operation }
  pure ()

/-- A change as it is recorded; `null` and nothing are both stored as no value. -/
def writeProjectChange (operator : OperationLogOperator) (projectId : Nat)
    (action : ProjectAction) (field : Option String) (before after : Option Json) : FinTx Unit :=
  writeProjectOperation ⟨projectId, operator.id, operator.name, action, field, before, after⟩

end Wbme.Fin
