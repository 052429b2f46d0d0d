import Wbme.Fin.Store

/-! # Projects

Creating, editing, deleting and restoring projects. An edit reads the project, compares what
it was handed with what is stored, and writes every column when the two differ.
-/

namespace Wbme.Fin

open Lib

/-! ## Requests -/

structure DictRefItem where
  id : Nat
  name : Option String

/-- The form of a project; what is left out is `none`. -/
structure ProjectCreateDto where
  name : String
  year : Nat
  completenessDocs : Option (List DictRefItem)
  regionId : Option Nat
  progressId : Option Nat
  bizCategoryId : Option Nat
  partyA : Option String
  generalContractor : Option String
  managementFee : Option String
  subcontractors : Option (List String)
  contractStartDate : Option String
  contractEndDate : Option String
  contractAmount : Option String
  paymentNode : Option String
  tentativeAuditedAmount : Option String
  settlement : Option String
  miscExpense : Option String
  remark : Option String
  idempotencyKey : Option String

/-- What the choices of a form stand for. -/
structure DictSnapshots where
  regionName : Option String
  progressName : Option String
  progressSemantic : Option AmountSemantic
  bizCategoryName : Option String
  completenessDocs : List DictRef

/-! ## Fields -/

/-- The fields of a project that can be edited. -/
inductive ProjectField where
  | name
  | year
  | completenessDocs
  | regionId
  | progressId
  | bizCategoryId
  | partyA
  | generalContractor
  | managementFee
  | subcontractors
  | contractStartDate
  | contractEndDate
  | contractAmount
  | paymentNode
  | tentativeAuditedAmount
  | settlement
  | miscExpense
  | remark
deriving DecidableEq

/-- The source's word for a field. -/
def ProjectField.code : ProjectField → String
  | .name => "name"
  | .year => "year"
  | .completenessDocs => "completenessDocs"
  | .regionId => "regionId"
  | .progressId => "progressId"
  | .bizCategoryId => "bizCategoryId"
  | .partyA => "partyA"
  | .generalContractor => "generalContractor"
  | .managementFee => "managementFee"
  | .subcontractors => "subcontractors"
  | .contractStartDate => "contractStartDate"
  | .contractEndDate => "contractEndDate"
  | .contractAmount => "contractAmount"
  | .paymentNode => "paymentNode"
  | .tentativeAuditedAmount => "tentativeAuditedAmount"
  | .settlement => "settlement"
  | .miscExpense => "miscExpense"
  | .remark => "remark"

def projectFields : List ProjectField :=
  [.name, .year, .completenessDocs, .regionId, .progressId, .bizCategoryId, .partyA,
    .generalContractor, .managementFee, .subcontractors, .contractStartDate, .contractEndDate,
    .contractAmount, .paymentNode, .tentativeAuditedAmount, .settlement, .miscExpense, .remark]

def jsonText : Option String → Json
  | none => .null
  | some text => .str text

def jsonId : Option Nat → Json
  | none => .null
  | some id => .num id

def jsonTexts (texts : List String) : Json := .arr (texts.map .str)

def jsonRefs (refs : List DictRef) : Json := .arr (refs.map DictRef.toJson)

def jsonSemantic : AmountSemantic → Json
  | .tentative => .str "TENTATIVE"
  | .audited => .str "AUDITED"

/-- A stored field as it is compared and recorded. -/
def fieldValue (row : Project) : ProjectField → Json
  | .name => .str row.name
  | .year => .num row.year
  | .completenessDocs => (row.completenessDocs.map jsonRefs).getD .null
  | .regionId => jsonId row.regionId
  | .progressId => jsonId row.progressId
  | .bizCategoryId => jsonId row.bizCategoryId
  | .partyA => jsonText row.partyA
  | .generalContractor => jsonText row.generalContractor
  | .managementFee => jsonText row.managementFee
  | .subcontractors => jsonTexts row.subcontractors
  | .contractStartDate => jsonText (row.contractStartDate.map formatCalendarDate)
  | .contractEndDate => jsonText (row.contractEndDate.map formatCalendarDate)
  | .contractAmount => jsonText (row.contractAmount.map Decimal.toFixed)
  | .paymentNode => jsonText row.paymentNode
  | .tentativeAuditedAmount => jsonText (row.tentativeAuditedAmount.map Decimal.toFixed)
  | .settlement => jsonText (row.settlement.map Decimal.toFixed)
  | .miscExpense => jsonText (row.miscExpense.map Decimal.toFixed)
  | .remark => jsonText row.remark

def projectSnapshot (row : Project) : Json :=
  .obj (projectFields.map fun field => (field.code, fieldValue row field))

/-- An empty amount counts as left out. -/
def submittedAmount (amount : Option String) : Json := jsonText (amount.filter (· ≠ ""))

/-- A field of a form as it is compared and recorded. -/
def dtoValue (dto : ProjectCreateDto) (snapshots : DictSnapshots) : ProjectField → Json
  | .name => .str dto.name
  | .year => .num dto.year
  | .completenessDocs => jsonRefs snapshots.completenessDocs
  | .regionId => jsonId dto.regionId
  | .progressId => jsonId dto.progressId
  | .bizCategoryId => jsonId dto.bizCategoryId
  | .partyA => jsonText dto.partyA
  | .generalContractor => jsonText dto.generalContractor
  | .managementFee => jsonText dto.managementFee
  | .subcontractors => jsonTexts (dto.subcontractors.getD [])
  | .contractStartDate => jsonText dto.contractStartDate
  | .contractEndDate => jsonText dto.contractEndDate
  | .contractAmount => submittedAmount dto.contractAmount
  | .paymentNode => jsonText dto.paymentNode
  | .tentativeAuditedAmount => submittedAmount dto.tentativeAuditedAmount
  | .settlement => submittedAmount dto.settlement
  | .miscExpense => submittedAmount dto.miscExpense
  | .remark => jsonText dto.remark

/-! ## Differences -/

def isEmptyFieldValue : Json → Bool
  | .null => true
  | .arr [] => true
  | _ => false

def fieldValuesEqual (oldValue newValue : Json) : Bool :=
  (isEmptyFieldValue oldValue && isEmptyFieldValue newValue) || oldValue.beq newValue

attribute [grind =] jsonText jsonId jsonTexts jsonRefs isEmptyFieldValue fieldValuesEqual

structure FieldChange where
  field : String
  before : Json
  after : Json

/-- The names that were stored with the choices, next to the names they have now. -/
def snapshotPairs (existing : Project) (snapshots : DictSnapshots) :
    List (String × Option String × Option String) :=
  [("regionName", existing.regionName, snapshots.regionName),
    ("progressName", existing.progressName, snapshots.progressName),
    ("bizCategoryName", existing.bizCategoryName, snapshots.bizCategoryName)]

/-- An amount counts as tentative unless its project says otherwise. -/
def semanticOr (semantic : Option AmountSemantic) : AmountSemantic := semantic.getD .tentative

/-- Every field and every remembered name that would change. -/
def diffProject (existing : Project) (dto : ProjectCreateDto) (snapshots : DictSnapshots) :
    List FieldChange :=
  let fields := projectFields.filterMap fun field =>
    if fieldValuesEqual (fieldValue existing field) (dtoValue dto snapshots field) then none
    else some ⟨field.code, fieldValue existing field, dtoValue dto snapshots field⟩
  let names := (snapshotPairs existing snapshots).filterMap fun (key, oldName, newName) =>
    if oldName = newName then none else some ⟨key, jsonText oldName, jsonText newName⟩
  let semantic :=
    if semanticOr existing.progressSemantic = semanticOr snapshots.progressSemantic then []
    else [⟨"progressSemantic", jsonSemantic (semanticOr existing.progressSemantic),
      jsonSemantic (semanticOr snapshots.progressSemantic)⟩]
  fields ++ names ++ semantic

def changesBefore (changes : List FieldChange) : Json :=
  .obj (changes.map fun c => (c.field, c.before))

def changesAfter (changes : List FieldChange) : Json :=
  .obj (changes.map fun c => (c.field, c.after))

/-- A form without the arrays keeps the stored ones. -/
def mergeProjectUpdateDto (dto : ProjectCreateDto) (existing : Project) : ProjectCreateDto :=
  { dto with
    subcontractors := some (dto.subcontractors.getD existing.subcontractors)
    completenessDocs := dto.completenessDocs.or
      (existing.completenessDocs.map fun docs => docs.map fun doc => ⟨doc.id, some doc.name⟩) }

/-! ## The dictionary -/

/-- One choice of a form, with the item the project has chosen already. -/
def resolveRef (items : Table FinanceDictItem) (kind : String) (id currentId : Option Nat) :
    Except Failure (Option FinanceDictItem) :=
  match id with
  | none => .ok none
  | some id =>
      match items.find? id with
      | none => .error (invalidField kind "字典项不存在")
      | some item =>
          if item.status = .disabled ∧ currentId ≠ some id then
            .error (invalidField kind "字典项已停用，不能新选择")
          else .ok (some item)

/-- One of the documents of a form, behind those before it. -/
def resolveDoc (items : Table FinanceDictItem) (currentDocs : List DictRef)
    (resolved : List DictRef) (doc : DictRefItem) : Except Failure (List DictRef) :=
  let invalid (reason : String) := Except.error (invalidField "completenessDocs" reason)
  if resolved.any fun ref => ref.id == doc.id then invalid "资料齐全度不得重复"
  else
    match items.find? doc.id with
    | none => invalid "字典项不存在"
    | some item =>
        if item.dictType ≠ .completeness then invalid "只能选择资料齐全度字典项"
        else if item.status = .disabled ∧ ¬ currentDocs.any (fun ref => ref.id == doc.id) then
          invalid "字典项已停用，不能新选择"
        else .ok (resolved ++ [⟨doc.id, item.name⟩])

/-- The choices of a form, against the dictionary as one statement finds it. -/
def resolveSnapshots (items : Table FinanceDictItem) (dto : ProjectCreateDto)
    (existing : Option Project) : Except Failure DictSnapshots := do
  let region ← resolveRef items "regionName" dto.regionId (existing.bind (·.regionId))
  let progress ← resolveRef items "progressName" dto.progressId (existing.bind (·.progressId))
  let category ←
    resolveRef items "bizCategoryName" dto.bizCategoryId (existing.bind (·.bizCategoryId))
  let currentDocs := (existing.bind (·.completenessDocs)).getD []
  let docs ← (dto.completenessDocs.getD []).foldlM (resolveDoc items currentDocs) []
  pure
    { regionName := region.map (·.name)
      progressName := progress.map (·.name)
      progressSemantic := progress.map fun item => semanticOr item.semantic
      bizCategoryName := category.map (·.name)
      completenessDocs := docs }

def resolveDictSnapshots (dto : ProjectCreateDto) (existing : Option Project) :
    FinTx DictSnapshots := do
  let items ← Txn.query fun v => v.financeDictItems
  Txn.liftExcept (resolveSnapshots items dto existing)

/-! ## Writing -/

def buildProjectData (dto : ProjectCreateDto) (businessKey : String) (snapshots : DictSnapshots) :
    Except Failure ProjectData := do
  let contractStartDate ← storeOptionalDate "contract_start_date" dto.contractStartDate
  let contractEndDate ← storeOptionalDate "contract_end_date" dto.contractEndDate
  let contractAmount ← storeOptional "contract_amount" dto.contractAmount
  let tentativeAuditedAmount ←
    storeOptional "tentative_audited_amount" dto.tentativeAuditedAmount
  let settlement ← storeOptional "settlement" dto.settlement
  let miscExpense ← storeOptional "misc_expense" dto.miscExpense
  pure
    { name := dto.name
      year := dto.year
      businessKey
      completenessDocs := some snapshots.completenessDocs
      regionId := dto.regionId
      regionName := snapshots.regionName
      progressId := dto.progressId
      progressName := snapshots.progressName
      progressSemantic := snapshots.progressSemantic
      bizCategoryId := dto.bizCategoryId
      bizCategoryName := snapshots.bizCategoryName
      partyA := dto.partyA
      generalContractor := dto.generalContractor
      managementFee := dto.managementFee
      subcontractors := dto.subcontractors.getD []
      contractStartDate
      contractEndDate
      contractAmount
      paymentNode := dto.paymentNode
      tentativeAuditedAmount
      settlement
      miscExpense
      remark := dto.remark }

def ProjectData.newRow (env : FinEnvironment) (data : ProjectData) : Project :=
  { toProjectData := data, dataRevision := 0, updatedAt := env.now, deletedBy := none
    deletedAt := none }

/-- A row with all its columns written over, at its next revision. -/
def ProjectData.writeOver (env : FinEnvironment) (data : ProjectData) (p : Project) : Project :=
  { p.revised env with toProjectData := data }

namespace ProjectService

def feature : String := "finance_maintain"

def options (scope : String) (operator : OperationLogOperator) (idempotencyKey : Option String)
    (fingerprint : String) : IdempotentOptions :=
  ⟨operator, feature, scope, idempotencyKey, fingerprint⟩

def keyConflict : Failure := .of .projectKeyConflict

def createRun (env : FinEnvironment) (operator : OperationLogOperator) (dto : ProjectCreateDto) :
    FinTx (IdempotentOutcome FinReply) := do
  let snapshots ← resolveDictSnapshots dto none
  let businessKey := normalizeProjectName env.unicode dto.name
  let data ← Txn.liftExcept (buildProjectData dto businessKey snapshots)
  let row := data.newRow env
  let id ← createProject row keyConflict
  writeProjectChange operator id .create none none (some (projectSnapshot row))
  pure ⟨.id id, .create, s!"在工程合同管理中新增了项目 {dto.name}"⟩

def create (env : FinEnvironment) (operator : OperationLogOperator) (dto : ProjectCreateDto)
    (fingerprint : String) : FinCall :=
  executeIdempotentOperation finLog
    (options "fin.project.create" operator dto.idempotencyKey fingerprint)
    (createRun env operator dto)

def updateRun (env : FinEnvironment) (operator : OperationLogOperator) (id : Nat)
    (dto : ProjectCreateDto) : FinTx (IdempotentOutcome FinReply) := do
  let existing ← findLiveProject id
  let effectiveDto := mergeProjectUpdateDto dto existing
  let snapshots ← resolveDictSnapshots effectiveDto (some existing)
  let businessKey := normalizeProjectName env.unicode effectiveDto.name
  let diff := diffProject existing effectiveDto snapshots
  if diff.isEmpty then pure ⟨.id id, .update, s!"更新了项目 {dto.name}"⟩
  else do
    let data ← Txn.liftExcept (buildProjectData effectiveDto businessKey snapshots)
    let _ ← updateProject id (data.writeOver env) keyConflict
    writeProjectChange operator id .edit none (some (changesBefore diff)) (some (changesAfter diff))
    pure ⟨.id id, .update, s!"在工程合同管理中修改了项目 {existing.name}"⟩

def update (env : FinEnvironment) (operator : OperationLogOperator) (id : Nat)
    (dto : ProjectCreateDto) (fingerprint : String) : FinCall :=
  executeIdempotentOperation finLog
    (options "fin.project.update" operator dto.idempotencyKey fingerprint)
    (updateRun env operator id dto)

def missingIds (ids : List Nat) (rows : List (Nat × Project)) (reason : String) : Failure :=
  .business .validationFailed
    ((ids.filter fun id => !rows.any fun row => row.1 == id).map fun id =>
      (s!"fields.{id}", reason))

def batchDeleteRun (env : FinEnvironment) (operator : OperationLogOperator) (ids : List Nat) :
    FinTx (IdempotentOutcome FinReply) := do
  let rows ← Txn.query fun v => v.projects.select fun id _ => ids.contains id
  let existing := rows.filter fun row => row.2.isLive
  Txn.guard (existing.length == ids.length) (missingIds ids existing "项目不存在或已删除")
  updateProjects (existing.map (·.1)) fun p =>
    { p with deletedBy := some operator.id, deletedAt := some env.now, updatedAt := env.now }
  existing.forM fun row =>
    writeProjectChange operator row.1 .delete none (some (projectSnapshot row.2)) none
  pure ⟨.deleted existing.length, .delete, s!"在工程合同管理中删除了 {existing.length} 个项目"⟩

def batchDelete (env : FinEnvironment) (operator : OperationLogOperator) (ids : List Nat)
    (idempotencyKey : Option String) (fingerprint : String) : FinCall :=
  executeIdempotentOperation finLog
    (options "fin.project.delete" operator idempotencyKey fingerprint)
    (batchDeleteRun env operator ids)

def batchRestoreRun (env : FinEnvironment) (operator : OperationLogOperator) (ids : List Nat) :
    FinTx (IdempotentOutcome FinReply) := do
  let rows ← Txn.query fun v => v.projects.select fun id _ => ids.contains id
  let deleted := rows.filter fun row => !row.2.isLive
  Txn.guard (deleted.length == ids.length) (missingIds ids deleted "项目不存在或未删除")
  updateProjects (deleted.map (·.1)) fun p =>
    { p.revised env with deletedBy := none, deletedAt := none }
  deleted.forM fun row =>
    writeProjectChange operator row.1 .edit (some "deletedAt")
      (some (.obj [("deletedAt", jsonText (row.2.deletedAt.map isoString))])) none
  pure ⟨.restored deleted.length, .update, s!"在工程合同管理中恢复了 {deleted.length} 个项目"⟩

def batchRestore (env : FinEnvironment) (operator : OperationLogOperator) (ids : List Nat)
    (idempotencyKey : Option String) (fingerprint : String) : FinCall :=
  executeIdempotentOperation finLog
    (options "fin.project.restore" operator idempotencyKey fingerprint)
    (batchRestoreRun env operator ids)

end ProjectService

end Wbme.Fin
