import Wbme.Fin.Details
import Wbme.Fin.ImportPreview

/-! # Confirming an import

The file is parsed and matched once more, and what was chosen for its rows is carried out in
one transaction: new projects are inserted, chosen ones are written over at the revision that
the preview has shown, and the amounts of these are built anew.
-/

namespace Wbme.Fin

open Lib

/-! ## Choices -/

inductive ImportDecision where
  | overwrite
  | skip
deriving DecidableEq

structure ImportChoiceDto where
  rowNumber : Nat
  decision : ImportDecision
  projectId : Option Nat
  dataRevision : Option Nat
  confirmDataLossWarning : Option Bool

def choiceFor (choices : List ImportChoiceDto) (rowNumber : Nat) : Option ImportChoiceDto :=
  choices.reverse.find? fun choice => choice.rowNumber == rowNumber

def pendingFor (preview : ImportPreviewResult) (rowNumber : Nat) : Option PendingChoiceItem :=
  preview.pendingChoice.reverse.find? fun item => item.rowNumber == rowNumber

def isCreatedRow (preview : ImportPreviewResult) (rowNumber : Nat) : Bool :=
  preview.created.any fun item => item.rowNumber == rowNumber

structure OverwriteItem where
  input : ProjectRowInput
  targetId : Nat
  dataRevision : Nat

structure ImportPlan where
  toCreate : List ProjectRowInput
  toOverwrite : List OverwriteItem
  skipped : Nat

namespace ImportService

def rowFailure (code : ErrorCode) (rowNumber : Nat) (reason : String) : Failure :=
  .business code [("fields.rowNumber", toString rowNumber), ("fields.reason", reason)]

def unknownRow (rowNumber : Nat) : Failure :=
  rowFailure .importConfirmMismatch rowNumber "该行号在本次解析结果中不存在，请重新预览"

def notAnOverwrite (rowNumber : Nat) : Failure :=
  rowFailure .importPreviewStale rowNumber
    "该行在预览中为新增项目，不能选择覆盖（预览已过期，请重新预览）"

def lossUnconfirmed (rowNumber : Nat) : Failure :=
  rowFailure .importConfirmMismatch rowNumber
    "该目标覆盖将丢失明细日期/备注，请确认覆盖数据丢失警告"

/-- The target of a chosen overwrite, if it is the one that the row points to. -/
def overwriteOf (input : ProjectRowInput) (pending : PendingChoiceItem)
    (choice : ImportChoiceDto) : Except Failure OverwriteItem :=
  match choice.projectId, choice.dataRevision with
  | some projectId, some dataRevision =>
      if projectId ≠ pending.projectId then .error (.of .importConfirmMismatch)
      else if pending.dataLossWarning ∧ choice.confirmDataLossWarning ≠ some true then
        .error (lossUnconfirmed input.rowNumber)
      else .ok ⟨input, projectId, dataRevision⟩
  | _, _ => .error (.of .importConfirmMismatch)

/-- One row is planned behind those before it. -/
def planRow (preview : ImportPreviewResult) (choices : List ImportChoiceDto) (plan : ImportPlan)
    (input : ProjectRowInput) : Except Failure ImportPlan :=
  let choice := choiceFor choices input.rowNumber
  if isCreatedRow preview input.rowNumber then
    match choice.map ImportChoiceDto.decision with
    | some .overwrite => .error (notAnOverwrite input.rowNumber)
    | some .skip => .ok { plan with skipped := plan.skipped + 1 }
    | none => .ok { plan with toCreate := plan.toCreate ++ [input] }
  else
    match pendingFor preview input.rowNumber with
    | none => .ok plan
    | some pending =>
        match choice with
        | none => .ok { plan with skipped := plan.skipped + 1 }
        | some choice =>
            if choice.decision = .skip then .ok { plan with skipped := plan.skipped + 1 }
            else do
              let item ← overwriteOf input pending choice
              .ok { plan with toOverwrite := plan.toOverwrite ++ [item] }

def planRows (preview : ImportPreviewResult) (choices : List ImportChoiceDto)
    (inputs : List ProjectRowInput) : Except Failure ImportPlan :=
  inputs.foldlM (planRow preview choices) ⟨[], [], 0⟩

def checkChoices (inputs : List ProjectRowInput) (choices : List ImportChoiceDto) :
    Except Failure Unit :=
  choices.forM fun choice =>
    if inputs.any fun input => input.rowNumber == choice.rowNumber then .ok ()
    else .error (unknownRow choice.rowNumber)

/-! ## The dictionary by names -/

def dictFailure (rowNumber : Nat) (field reason : String) : Failure :=
  .business .validationFailed
    [("fields.rowNumber", toString rowNumber), ("fields.field", field), ("fields.reason", reason)]

/-- The last item of a type under the normal form of a name. -/
def itemNamed (u : Unicode) (items : Table FinanceDictItem) (dictType : FinanceDictType)
    (name : String) : Option (Nat × FinanceDictItem) :=
  ((items.select fun _ item => item.dictType == dictType &&
    normalizeProjectName u item.name == normalizeProjectName u name).reverse).head?

def resolveDictRef (u : Unicode) (items : Table FinanceDictItem) (dictType : FinanceDictType)
    (name : Option String) (currentId : Option Nat) (fieldLabel : String) (rowNumber : Nat)
    (allowDisabledRetention : Bool) : Except Failure (Option (Nat × FinanceDictItem)) :=
  match name with
  | none => .ok none
  | some name =>
      match itemNamed u items dictType name with
      | none => .error (dictFailure rowNumber fieldLabel s!"字典项“{name}”不存在")
      | some (id, item) =>
          if item.status = .disabled ∧ ¬ (allowDisabledRetention = true ∧ currentId = some id) then
            .error (dictFailure rowNumber fieldLabel s!"字典项“{name}”已停用，不能选择")
          else .ok (some (id, item))

def resolveCompleteness (u : Unicode) (items : Table FinanceDictItem) (currentDocs : List DictRef)
    (rowNumber : Nat) (resolved : List DictRef) (name : String) : Except Failure (List DictRef) :=
  let invalid (reason : String) := Except.error (dictFailure rowNumber "资料齐全度" reason)
  match itemNamed u items .completeness name with
  | none => invalid s!"字典项“{name}”不存在"
  | some (id, item) =>
      if resolved.any fun ref => ref.name == item.name then invalid s!"字典项“{item.name}”重复"
      else if item.status = .disabled ∧ ¬ currentDocs.any (fun ref => ref.id == id) then
        invalid s!"停用项“{name}”不能新增引用"
      else .ok (resolved ++ [⟨id, item.name⟩])

/-- The year of a row that names one, or else that of the project it is written over. -/
def yearFor (year : RowYear) (existing : Option Project) : Except Failure Nat :=
  match year, existing with
  | .number n, _ => .ok n
  | .missing, some existing => .ok existing.year
  | .missing, none => .error (.of .importYearRequiredForNew)
  | .other, _ => .error (refusedBy "year")

/-- The columns of a row, for a new project or for one that is written over. -/
def buildProjectDataFromInput (u : Unicode) (items : Table FinanceDictItem)
    (input : ProjectRowInput) (existing : Option Project) : Except Failure ProjectData := do
  let currentDocs := (existing.bind (·.completenessDocs)).getD []
  let docs ← input.completenessDocs.foldlM
    (resolveCompleteness u items currentDocs input.rowNumber) []
  let region ← resolveDictRef u items .region input.regionName (existing.bind (·.regionId))
    "地区" input.rowNumber existing.isSome
  let progress ← resolveDictRef u items .progress input.progressName
    (existing.bind (·.progressId)) "项目进度" input.rowNumber existing.isSome
  let category ← resolveDictRef u items .bizCategory input.groupName
    (existing.bind (·.bizCategoryId)) "业务分类" input.rowNumber existing.isSome
  let year ← yearFor input.year existing
  let contractStartDate ← storeOptionalDate "contract_start_date" input.contractStartDate
  let contractEndDate ← storeOptionalDate "contract_end_date" input.contractEndDate
  let contractAmount ← storeOptional "contract_amount" input.contractAmount
  let tentativeAuditedAmount ←
    storeOptional "tentative_audited_amount" input.tentativeAuditedAmount
  let settlement ← storeOptional "settlement" input.settlement
  let miscExpense ← storeOptional "misc_expense" input.miscExpense
  pure
    { name := input.name
      year
      businessKey := normalizeProjectName u input.name
      completenessDocs := some docs
      regionId := region.map (·.1)
      regionName := region.map (·.2.name)
      progressId := progress.map (·.1)
      progressName := progress.map (·.2.name)
      progressSemantic := some (semanticOr (progress.bind (·.2.semantic)))
      bizCategoryId := category.map (·.1)
      bizCategoryName := category.map (·.2.name)
      partyA := input.partyA
      generalContractor := input.generalContractor
      managementFee := input.managementFee
      subcontractors := input.subcontractors
      contractStartDate
      contractEndDate
      contractAmount
      paymentNode := input.paymentNode
      tentativeAuditedAmount
      settlement
      miscExpense
      remark := input.remark }

/-! ## Carrying out the plan -/

/-- The places where a deadline or a cancelled request ends an import. -/
inductive Checkpoint where
  | parsed
  | matched
  | grouped
  | keysUnchecked
  | keysChecked
  | batchCreated (n : Nat)
  | overwriting
  | rowBuilt (n : Nat)
  | overwritten
  | written
  | recorded
  | ran
  | beforeCommit

/-- The runtime of an import with the outcome of its checks of the time. -/
structure ConfirmEnvironment extends ImportEnvironment where
  checkTimeout : Checkpoint → Except Failure Unit

def createBatchSize : Nat := 500

def keyOf (u : Unicode) (input : ProjectRowInput) : String × RowYear :=
  (normalizeProjectName u input.name, input.year)

/-- The keys among some that stored projects have. -/
def clashingKeys (v : FinStore) (keys : List (String × RowYear)) : List (String × RowYear) :=
  keys.filter fun key => (v.projects.select fun _ p =>
    (p.businessKey, RowYear.number p.year) == key).isEmpty == false

def keysClash (u : Unicode) (inputs : List ProjectRowInput) (clashes : List (String × RowYear)) :
    Failure :=
  .business .importPreviewStale
    ((inputs.filter fun input => clashes.contains (keyOf u input)).map fun input =>
      (s!"fields.{input.rowNumber}", "该业务键已在预览后被创建或恢复"))

def createdMeanwhile : Failure :=
  rowFailure .importPreviewStale 0 "业务键在写入瞬间被并发创建（预览已过期，请重新预览）"

/-- The inserts of the new projects, a batch at a time. -/
def createBatches (env : ConfirmEnvironment) :
    List (Nat × List ProjectData) → FinTx (List Nat)
  | [] => pure []
  | (n, batch) :: rest => do
      let ids ← batch.mapM fun data =>
        createProject (data.newRow env.toFinEnvironment) createdMeanwhile
      Txn.liftExcept (env.checkTimeout (.batchCreated n))
      let more ← createBatches env rest
      pure (ids ++ more)

def batchesOf (data : List ProjectData) : List (Nat × List ProjectData) :=
  (data.toChunks createBatchSize).zipIdx.map fun p => (p.2, p.1)

def createAll (env : ConfirmEnvironment) (items : Table FinanceDictItem)
    (toCreate : List ProjectRowInput) : FinTx (List Nat) :=
  if toCreate.isEmpty then pure []
  else do
    Txn.liftExcept (env.checkTimeout .keysUnchecked)
    let clashes ← Txn.query fun v => clashingKeys v (toCreate.map (keyOf env.unicode))
    Txn.guard clashes.isEmpty (keysClash env.unicode toCreate clashes)
    Txn.liftExcept (env.checkTimeout .keysChecked)
    let data ← Txn.liftExcept
      (toCreate.mapM fun input => buildProjectDataFromInput env.unicode items input none)
    createBatches env (batchesOf data)

def targetGone (rowNumber : Nat) : Failure :=
  rowFailure .importPreviewStale rowNumber "目标项目不存在或已被删除"

def targetChanged (rowNumber : Nat) : Failure :=
  rowFailure .importPreviewStale rowNumber "目标项目数据已在预览后变化"

/-- The targets are there, and as the preview has shown them. -/
def checkTargets (rows : Table Project) (toOverwrite : List OverwriteItem) : Except Failure Unit :=
  toOverwrite.forM fun item =>
    match (rows.find? item.targetId).filter Project.isLive with
    | none => .error (targetGone item.input.rowNumber)
    | some existing =>
        if existing.dataRevision ≠ item.dataRevision then
          .error (targetChanged item.input.rowNumber)
        else .ok ()

/-- One project is written over, if it is still at the chosen revision. -/
def overwriteOne (env : ConfirmEnvironment) (items : Table FinanceDictItem)
    (rows : Table Project) (item : Nat × OverwriteItem) : FinTx Unit := do
  let data ← Txn.liftExcept (buildProjectDataFromInput env.unicode items item.2.input
    (rows.find? item.2.targetId))
  Txn.liftExcept (env.checkTimeout (.rowBuilt item.1))
  let updated ← updateProjectAt item.2.targetId item.2.dataRevision
    (data.writeOver env.toFinEnvironment)
  Txn.guard updated (.of .importPreviewStale)

def detailIdsOf (v : FinStore) (kind : DetailKind) (projectIds : List Nat) : List Nat :=
  ((v.details kind).select fun _ d => projectIds.contains d.projectId).map (·.1)

def deleteDetailsOf (kind : DetailKind) (projectIds : List Nat) : FinTx Unit :=
  Txn.exec (fun v => (detailIdsOf v kind projectIds).map fun id => .detail kind id)
    fun v s => s.withDetails kind
      ((s.details kind).deleteMany fun id _ => (detailIdsOf v kind projectIds).contains id)

def amountsOf (input : ProjectRowInput) : DetailKind → List String
  | .invoice => input.invoices
  | .receipt => input.receipts
  | .subcontractPayment => input.subcontractPayments

def bareItem (amount : Decimal) : DetailItem := { amount, occurredDate := none, remark := none }

def detailRows (toOverwrite : List OverwriteItem) (kind : DetailKind) :
    Except Failure (List (Nat × DetailItem)) := do
  let rows ← toOverwrite.mapM fun item => do
    let amounts ← (amountsOf item.input kind).mapM (storeDecimal kind.table)
    pure (amounts.map fun amount => (item.targetId, bareItem amount))
  pure rows.flatten

def createDetails (kind : DetailKind) (rows : List (Nat × DetailItem)) : FinTx Unit :=
  rows.forM fun row => do
    let _ ← createDetail kind row.1 row.2
    pure ()

/-- The amounts of the rows, in the order of the file. -/
def batchRebuildDetails (toOverwrite : List OverwriteItem) : FinTx Unit := do
  let invoices ← Txn.liftExcept (detailRows toOverwrite .invoice)
  let receipts ← Txn.liftExcept (detailRows toOverwrite .receipt)
  let payments ← Txn.liftExcept (detailRows toOverwrite .subcontractPayment)
  createDetails .invoice invoices
  createDetails .receipt receipts
  createDetails .subcontractPayment payments

/-- The amounts of a project as they are recorded. -/
def snapshotOf (v : FinStore) (kind : DetailKind) (projectId : Nat) : Json :=
  .arr ((v.detailsOf kind projectId).map fun d =>
    .obj [("amount", .str d.2.amount.toFixed),
      ("occurredDate", jsonText (d.2.occurredDate.map formatCalendarDate)),
      ("remark", jsonText d.2.remark)])

/-- The amounts of some projects, a kind at a time. -/
def batchSnapshotDetails (projectIds : List Nat) : FinTx (List (Nat × List (String × Json))) := do
  let invoices ← Txn.query fun v => projectIds.map (snapshotOf v .invoice)
  let receipts ← Txn.query fun v => projectIds.map (snapshotOf v .receipt)
  let payments ← Txn.query fun v => projectIds.map (snapshotOf v .subcontractPayment)
  pure (projectIds.zipWith
    (fun id (invoices, receipts, payments) => (id, [("invoices", invoices),
      ("receipts", receipts), ("subcontractPayments", payments)]))
    (invoices.zip (receipts.zip payments)))

/-- What is recorded of an overwritten project: its amounts before and after, and whether the
loss of their dates and remarks was confirmed. -/
structure OverwriteDetail where
  projectId : Nat
  before : List (String × Json)
  after : List (String × Json)

def overwriteAll (env : ConfirmEnvironment) (items : Table FinanceDictItem)
    (toOverwrite : List OverwriteItem) : FinTx (List OverwriteDetail) :=
  if toOverwrite.isEmpty then pure []
  else do
    Txn.liftExcept (env.checkTimeout .overwriting)
    let targetIds := toOverwrite.map (·.targetId)
    let rows ← Txn.query fun v => v.projects
    Txn.liftExcept (checkTargets rows toOverwrite)
    let before ← batchSnapshotDetails targetIds
    (toOverwrite.zipIdx.map Prod.swap).forM (overwriteOne env items rows)
    Txn.liftExcept (env.checkTimeout .overwritten)
    deleteDetailsOf .invoice targetIds
    deleteDetailsOf .receipt targetIds
    deleteDetailsOf .subcontractPayment targetIds
    batchRebuildDetails toOverwrite
    let after ← batchSnapshotDetails targetIds
    pure (List.zipWith (fun b a => ⟨b.1, b.2, a.2⟩) before after)

def createdOperation (operator : OperationLogOperator) (id : Nat) : ProjectOperation :=
  ⟨id, operator.id, operator.name, .importCreate, none, none,
    some (.obj [("source", .str "Excel 导入")])⟩

def overwriteOperation (operator : OperationLogOperator) (preview : ImportPreviewResult)
    (item : OverwriteItem) (detail : OverwriteDetail) : ProjectOperation :=
  ⟨detail.projectId, operator.id, operator.name, .importOverwrite, none, some (.obj detail.before),
    some (.obj (detail.after ++ [("dataLossWarningConfirmed",
      .bool ((pendingFor preview item.input.rowNumber).any (·.dataLossWarning)))]))⟩

/-- A row that could have been written over and was not. -/
def skipOperation (operator : OperationLogOperator) (preview : ImportPreviewResult)
    (choices : List ImportChoiceDto) (input : ProjectRowInput) : Option ProjectOperation :=
  match pendingFor preview input.rowNumber with
  | none => none
  | some pending =>
      if (choiceFor choices input.rowNumber).map ImportChoiceDto.decision = some .overwrite then none
      else some ⟨pending.projectId, operator.id, operator.name, .importSkip, none, none,
        some (.obj [("source", .str "Excel 导入（跳过）")])⟩

structure ImportSummary where
  created : Nat
  overwritten : Nat
  skipped : Nat

def applyImport (env : ConfirmEnvironment) (operator : OperationLogOperator)
    (inputs : List ProjectRowInput) (preview : ImportPreviewResult)
    (choices : List ImportChoiceDto) : FinTx ImportSummary :=
  if inputs.isEmpty then pure ⟨0, 0, 0⟩
  else do
    Txn.liftExcept (checkChoices inputs choices)
    let items ← Txn.query fun v => v.financeDictItems
    let plan ← Txn.liftExcept (planRows preview choices inputs)
    let createdIds ← createAll env items plan.toCreate
    let overwritten ← overwriteAll env items plan.toOverwrite
    Txn.liftExcept (env.checkTimeout .written)
    let operations := createdIds.map (createdOperation operator) ++
      List.zipWith (overwriteOperation operator preview) plan.toOverwrite overwritten ++
      inputs.filterMap (skipOperation operator preview choices)
    operations.forM writeProjectOperation
    Txn.liftExcept (env.checkTimeout .recorded)
    pure ⟨createdIds.length, plan.toOverwrite.length, plan.skipped⟩

structure ImportConfirmDto where
  choices : List ImportChoiceDto
  idempotencyKey : Option String

def importOutcome (result : ImportSummary) : IdempotentOutcome FinReply :=
  ⟨.imported result.created result.overwritten result.skipped, .update,
    s!"在利润分析中导入了 {result.created + result.overwritten} 个项目（新增 {result.created}、覆盖 {result.overwritten}、跳过 {result.skipped}）"⟩

def confirmRun (env : ConfirmEnvironment) (operator : OperationLogOperator)
    (inputs : List ProjectRowInput) (preview : ImportPreviewResult)
    (choices : List ImportChoiceDto) : FinTx (IdempotentOutcome FinReply) := do
  let result ← applyImport env operator inputs preview choices
  Txn.liftExcept (env.checkTimeout .ran)
  Txn.liftExcept (env.checkTimeout .beforeCommit)
  pure (importOutcome result)

def options (operator : OperationLogOperator) (idempotencyKey : Option String)
    (fingerprint : String) : IdempotentOptions :=
  ProjectService.options "fin.import.confirm" operator idempotencyKey fingerprint

/-- The file is matched outside of the transaction that writes. -/
def confirm (env : ConfirmEnvironment) (operator : OperationLogOperator) (file : ParsedFile)
    (dto : ImportConfirmDto) (fingerprint : String) : FinCall where
  main := do
    Txn.liftExcept (env.checkTimeout .parsed)
    let preview ← matchRows env.toImportEnvironment file
    Txn.liftExcept (env.checkTimeout .matched)
    let inputs ← buildRowInputsWithGroups env.toImportEnvironment file
    Txn.liftExcept (env.checkTimeout .grouped)
    (executeIdempotentOperation finLog (options operator dto.idempotencyKey fingerprint)
      (confirmRun env operator inputs preview dto.choices)).main
  recover := replayAfterConflict finLog (options operator dto.idempotencyKey fingerprint)

end ImportService

end Wbme.Fin
