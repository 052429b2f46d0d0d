import Wbme.Fin.Projects

/-! # Amounts of a project

Invoices, receipts and payments are written one at a time. Whoever changes one raises the
revision of the project in the same transaction, behind the change.
-/

namespace Wbme.Fin

open Lib

/-! ## Statements on details -/

def DetailKind.table : DetailKind → String
  | .invoice => "invoices"
  | .receipt => "receipts"
  | .subcontractPayment => "subcontract_payments"

def createDetail (kind : DetailKind) (projectId : Nat) (item : DetailItem) : FinTx Nat :=
  Txn.create (fun _ => [])
    (fun v => [((v.projects.find? projectId).isNone, .foreignKeyViolation kind.table)])
    fun id s => s.withDetails kind ((s.details kind).insert id ⟨item, projectId⟩)

def updateDetail (kind : DetailKind) (id : Nat) (item : DetailItem) : FinTx Unit :=
  Txn.act (fun v => if ((v.details kind).find? id).isSome then [.detail kind id] else []) fun v =>
    match (v.details kind).find? id with
    | none => .error (.recordMissing kind.table)
    | some _ => .ok ((), fun s => s.withDetails kind ((s.details kind).update id fun d =>
        { d with toDetailItem := item }))

def deleteDetail (kind : DetailKind) (id : Nat) : FinTx Unit :=
  Txn.act (fun v => if ((v.details kind).find? id).isSome then [.detail kind id] else []) fun v =>
    match (v.details kind).find? id with
    | none => .error (.recordMissing kind.table)
    | some _ => .ok ((), fun s =>
        s.withDetails kind ((s.details kind).deleteMany fun i _ => i == id))

def findDetail (kind : DetailKind) (id projectId : Nat) : FinTx Detail := do
  let found ← Txn.query fun v => (v.details kind).find? id
  Txn.orThrow (found.filter fun d => d.projectId == projectId) (.of .resourceNotFound)

/-! ## Requests -/

structure AmountItemDto where
  amount : String
  occurredDate : Option String
  remark : Option String

structure DetailDto where
  item : AmountItemDto
  idempotencyKey : Option String

def parseDetailItem (item : AmountItemDto) : Except Failure DetailItem := do
  let amount ← storeDecimal "amount" item.amount
  let occurredDate ← storeOptionalDate "occurred_date" item.occurredDate
  pure { amount, occurredDate, remark := item.remark }

/-- The word for a kind in paths and scopes. -/
def DetailKind.code : DetailKind → String
  | .invoice => "invoice"
  | .receipt => "receipt"
  | .subcontractPayment => "subcontract-payment"

/-- The name under which changes of a kind are recorded. -/
def DetailKind.field : DetailKind → String
  | .invoice => "invoices"
  | .receipt => "receipts"
  | .subcontractPayment => "subcontractPayments"

def DetailKind.label : DetailKind → String
  | .invoice => "开票金额"
  | .receipt => "已收回款"
  | .subcontractPayment => "已付分包款"

def detailSnapshot (id : Nat) (item : DetailItem) : Json :=
  .obj [("id", .num id), ("amount", .str item.amount.toFixed),
    ("occurredDate", jsonText (item.occurredDate.map formatCalendarDate)),
    ("remark", jsonText item.remark)]

namespace DetailService

structure DetailOutcome extends IdempotentOutcome FinReply where
  changed : Bool

def bumpRevision (env : FinEnvironment) (projectId : Nat) : FinTx Project :=
  updateProject projectId (Project.revised env) (.uniqueViolation projectKeyIndex)

/-- The project is found first, and its revision raised last. -/
def detailChangeRun (env : FinEnvironment) (projectId : Nat)
    (run : Project → FinTx DetailOutcome) : FinTx (IdempotentOutcome FinReply) := do
  let project ← findLiveProject projectId
  let outcome ← run project
  if outcome.changed then do
    let _ ← bumpRevision env projectId
    pure outcome.toIdempotentOutcome
  else pure outcome.toIdempotentOutcome

def createBody (operator : OperationLogOperator) (projectId : Nat) (kind : DetailKind)
    (dto : DetailDto) (row : Project) : FinTx DetailOutcome := do
  let parsed ← Txn.liftExcept (parseDetailItem dto.item)
  let id ← createDetail kind projectId parsed
  writeProjectChange operator projectId .edit (some kind.field) none
    (some (detailSnapshot id parsed))
  pure { result := .id id, actionType := .create, changed := true
         summary := s!"在财务数据维护中为项目 {row.name} 新增了{kind.label}记录" }

def updateBody (operator : OperationLogOperator) (projectId : Nat) (kind : DetailKind)
    (detailId : Nat) (dto : DetailDto) (row : Project) : FinTx DetailOutcome := do
  let existing ← findDetail kind detailId projectId
  let next ← Txn.liftExcept (parseDetailItem dto.item)
  let before := detailSnapshot detailId existing.toDetailItem
  let after := detailSnapshot detailId next
  let summary := s!"在财务数据维护中修改了项目 {row.name} 的{kind.label}记录"
  if before.beq after then
    pure { result := .id detailId, actionType := .update, summary, changed := false }
  else do
    updateDetail kind detailId next
    writeProjectChange operator projectId .edit (some kind.field) (some before) (some after)
    pure { result := .id detailId, actionType := .update, summary, changed := true }

def removeBody (env : FinEnvironment) (operator : OperationLogOperator) (projectId : Nat)
    (kind : DetailKind) (detailId : Nat) (row : Project) : FinTx DetailOutcome := do
  let existing ← findDetail kind detailId projectId
  deleteDetail kind detailId
  writeProjectChange operator projectId .edit (some kind.field)
    (some (detailSnapshot detailId existing.toDetailItem)) none
  -- the revision is raised here, since the answer carries it
  let updated ← bumpRevision env projectId
  let auto ← recalcAuto projectId updated
  pure { result := .detailDeleted updated.dataRevision auto, actionType := .delete
         summary := s!"在财务数据维护中删除了项目 {row.name} 的一条{kind.label}记录"
         changed := false }

def create (env : FinEnvironment) (operator : OperationLogOperator) (projectId : Nat)
    (kind : DetailKind) (dto : DetailDto) (fingerprint : String) : FinCall :=
  executeIdempotentOperation finLog
    (ProjectService.options s!"fin.detail.{kind.code}.create" operator dto.idempotencyKey
      fingerprint)
    (detailChangeRun env projectId (createBody operator projectId kind dto))

def update (env : FinEnvironment) (operator : OperationLogOperator) (projectId : Nat)
    (kind : DetailKind) (detailId : Nat) (dto : DetailDto) (fingerprint : String) : FinCall :=
  executeIdempotentOperation finLog
    (ProjectService.options s!"fin.detail.{kind.code}.update" operator dto.idempotencyKey
      fingerprint)
    (detailChangeRun env projectId (updateBody operator projectId kind detailId dto))

def remove (env : FinEnvironment) (operator : OperationLogOperator) (projectId : Nat)
    (kind : DetailKind) (detailId : Nat) (idempotencyKey : Option String)
    (fingerprint : String) : FinCall :=
  executeIdempotentOperation finLog
    (ProjectService.options s!"fin.detail.{kind.code}.delete" operator idempotencyKey fingerprint)
    (detailChangeRun env projectId (removeBody env operator projectId kind detailId))

end DetailService

end Wbme.Fin
