import Wbme.Fin.Projects

/-! # Saving one cell

One field of a project is written at a time, with the columns that follow from it: a choice
writes its name, a project name and a year write the business key.
-/

namespace Wbme.Fin

open Lib

structure CellSaveDto where
  projectId : Nat
  field : String
  value : Json
  idempotencyKey : Option String

def ProjectField.ofCode? (code : String) : Option ProjectField :=
  projectFields.find? fun field => field.code == code

inductive CellValueType where
  | string
  | year
  | date
  | money
  | stringArray
  | dictId
  | dictRefArray

def cellFieldType : ProjectField → CellValueType
  | .name => .string
  | .year => .year
  | .partyA => .string
  | .generalContractor => .string
  | .managementFee => .string
  | .subcontractors => .stringArray
  | .contractStartDate => .date
  | .contractEndDate => .date
  | .contractAmount => .money
  | .paymentNode => .string
  | .tentativeAuditedAmount => .money
  | .settlement => .money
  | .miscExpense => .money
  | .remark => .string
  | .completenessDocs => .dictRefArray
  | .regionId => .dictId
  | .progressId => .dictId
  | .bizCategoryId => .dictId

def textLength (s : String) : Nat :=
  (s.toList.map fun c => if c.toNat < 0x10000 then 1 else 2).sum

/-- What a value writes, and how it is shown and compared. -/
structure CellValue where
  write : ProjectData → ProjectData
  displayValue : Json

/-! ## Parsing values -/

/-- The column of a text field; names are written with their key. -/
def ProjectField.writeText (field : ProjectField) (text : Option String) (p : ProjectData) :
    ProjectData :=
  match field with
  | .partyA => { p with partyA := text }
  | .generalContractor => { p with generalContractor := text }
  | .managementFee => { p with managementFee := text }
  | .paymentNode => { p with paymentNode := text }
  | .remark => { p with remark := text }
  | _ => p

def ProjectField.writeDate (field : ProjectField) (date : Option Int) (p : ProjectData) :
    ProjectData :=
  match field with
  | .contractStartDate => { p with contractStartDate := date }
  | .contractEndDate => { p with contractEndDate := date }
  | _ => p

def ProjectField.writeAmount (field : ProjectField) (amount : Option Decimal) (p : ProjectData) :
    ProjectData :=
  match field with
  | .contractAmount => { p with contractAmount := amount }
  | .tentativeAuditedAmount => { p with tentativeAuditedAmount := amount }
  | .settlement => { p with settlement := amount }
  | .miscExpense => { p with miscExpense := amount }
  | _ => p

/-- A choice with its name; nothing chosen leaves the meaning of the amount as it was. -/
def ProjectField.writeChoice (field : ProjectField) (item : Option (Nat × FinanceDictItem))
    (p : ProjectData) : ProjectData :=
  let id := item.map (·.1)
  let name := item.map (·.2.name)
  match field with
  | .regionId => { p with regionId := id, regionName := name }
  | .progressId =>
      { p with
        progressId := id
        progressName := name
        progressSemantic := match item with
          | none => p.progressSemantic
          | some item => some (semanticOr item.2.semantic) }
  | .bizCategoryId => { p with bizCategoryId := id, bizCategoryName := name }
  | _ => p

def parseCellText (field : ProjectField) : Json → Except Failure (Option String)
  | .null =>
      if field = .name then .error (invalidField field.code "项目名称不能为空") else .ok none
  | .str text =>
      if 200 < textLength text ∧ field ≠ .remark ∧ field ≠ .paymentNode then
        .error (invalidField field.code "文本过长")
      else if field = .name ∧ trim text = "" then
        .error (invalidField field.code "项目名称不能为空")
      else .ok (some text)
  | _ => .error (invalidField field.code "必须为字符串或 null")

/-- A year as a number, or as a text of four digits. -/
def parseCellYear (field : ProjectField) (value : Json) : Except Failure Nat :=
  let year : Option Int :=
    match value with
    | .num n => some n
    | .str text =>
        if text.toList.length = 4 ∧ text.toList.all Char.isDigit then
          some (natOfDigits text.toList)
        else none
    | _ => none
  match year with
  | some n =>
      if 1000 ≤ n ∧ n ≤ 9999 then .ok n.toNat
      else .error (invalidField field.code "年度必须是 1000～9999 的整数")
  | none => .error (invalidField field.code "年度必须是 1000～9999 的整数")

/-- A date is shown and compared as it was typed. -/
def parseCellDate (field : ProjectField) : Json → Except Failure (Option Int)
  | .null => .ok none
  | .str text =>
      if (dateParts text).isNone then .error (invalidField field.code "日期必须是 YYYY-MM-DD")
      else (storeDate field.code text).map some
  | _ => .error (invalidField field.code "日期必须是 YYYY-MM-DD")

def parseCellMoney (field : ProjectField) : Json → Except Failure (Option Decimal)
  | .null => .ok none
  | .str text =>
      if isNonNegativeAmount text then (storeDecimal field.code text).map some
      else .error (invalidField field.code "金额必须是 ≥ 0 且最多两位小数的十进制字符串")
  | _ => .error (invalidField field.code "金额必须是 ≥ 0 且最多两位小数的十进制字符串")

def textOf? : Json → Option String
  | .str text => some text
  | _ => none

def parseCellTexts (field : ProjectField) : Json → Except Failure (List String)
  | .arr items =>
      let texts := items.filterMap textOf?
      if 50 < items.length ∨ texts.length ≠ items.length ∨ texts.any fun t => 200 < textLength t
      then .error (invalidField field.code "数组长度或元素长度超限")
      else .ok texts
  | _ => .error (invalidField field.code "必须为字符串数组")

def refId? : Json → Option Int
  | .obj fields =>
      match Json.field? fields "id" with
      | some (.num n) => some n
      | _ => none
  | _ => none

def parseCellRefs (field : ProjectField) : Json → Except Failure (List Int)
  | .arr items =>
      let ids := items.filterMap refId?
      if 20 < items.length ∨ ids.length ≠ items.length then
        .error (invalidField field.code "数组长度或引用格式非法")
      else if ids.eraseDups.length ≠ ids.length then
        .error (invalidField field.code "字典引用不得重复")
      else .ok ids
  | _ => .error (invalidField field.code "必须为字典引用数组")

def findItem (items : Table FinanceDictItem) (id : Int) : Option (Nat × FinanceDictItem) :=
  if 0 ≤ id then (items.find? id.toNat).map fun item => (id.toNat, item) else none

/-- One of the submitted documents, with the name the dictionary has for it. -/
def resolveCellRef (items : Table FinanceDictItem) (currentDocs : List DictRef)
    (field : ProjectField) (id : Int) : Except Failure DictRef :=
  match findItem items id with
  | none => .error (invalidField field.code "字典项不存在")
  | some (id, item) =>
      if item.dictType ≠ .completeness then
        .error (invalidField field.code "只能选择资料齐全度字典项")
      else if item.status = .disabled ∧ ¬ currentDocs.any (fun ref => ref.id == id) then
        .error (invalidField field.code "字典项已停用，不能新选择")
      else .ok ⟨id, item.name⟩

def ProjectField.currentChoice (field : ProjectField) (p : Project) : Option Nat :=
  match field with
  | .regionId => p.regionId
  | .progressId => p.progressId
  | .bizCategoryId => p.bizCategoryId
  | _ => none

def parseCellChoice (field : ProjectField) : Json → Except Failure (Option Int)
  | .null => .ok none
  | .num n =>
      if 1 ≤ n then .ok (some n) else .error (invalidField field.code "必须为字典项 id 或 null")
  | _ => .error (invalidField field.code "必须为字典项 id 或 null")

def resolveCellChoice (items : Table FinanceDictItem) (project : Project) (field : ProjectField)
    (id : Int) : Except Failure (Nat × FinanceDictItem) :=
  match findItem items id with
  | none => .error (invalidField field.code "字典项不存在")
  | some (id, item) =>
      if item.status = .disabled ∧ field.currentChoice project ≠ some id then
        .error (invalidField field.code "字典项已停用，不能新选择")
      else .ok (id, item)

/-- A row with the columns of one cell written over, at its next revision. -/
def CellValue.writeOver (cell : CellValue) (env : FinEnvironment) (p : Project) : Project :=
  { p.revised env with toProjectData := cell.write p.toProjectData }

namespace ProfitService

def assertBusinessKeyFree (projectId : Nat) (key : String × Nat) : FinTx Unit := do
  let clash ← Txn.query fun v => keyTaken v (some projectId) key
  Txn.guard (!clash) ProjectService.keyConflict

def resolveCellValue (env : FinEnvironment) (projectId : Nat) (project : Project)
    (field : ProjectField) (value : Json) : FinTx CellValue :=
  match cellFieldType field with
  | .string => do
      let text ← Txn.liftExcept (parseCellText field value)
      if field = .name then do
        let name := text.getD ""
        let businessKey := normalizeProjectName env.unicode name
        assertBusinessKeyFree projectId (businessKey, project.year)
        pure ⟨fun p => { p with name, businessKey }, jsonText text⟩
      else pure ⟨field.writeText text, jsonText text⟩
  | .year => do
      let year ← Txn.liftExcept (parseCellYear field value)
      -- the name comes from the row as it was read
      let businessKey := normalizeProjectName env.unicode project.name
      assertBusinessKeyFree projectId (businessKey, year)
      pure ⟨fun p => { p with year, businessKey }, .num year⟩
  | .date => do
      let date ← Txn.liftExcept (parseCellDate field value)
      pure ⟨field.writeDate date, value⟩
  | .money => do
      let amount ← Txn.liftExcept (parseCellMoney field value)
      pure ⟨field.writeAmount amount, jsonText (amount.map Decimal.toFixed)⟩
  | .stringArray => do
      let texts ← Txn.liftExcept (parseCellTexts field value)
      pure ⟨fun p => { p with subcontractors := texts }, jsonTexts texts⟩
  | .dictRefArray => do
      let ids ← Txn.liftExcept (parseCellRefs field value)
      let items ← Txn.query fun v => v.financeDictItems
      let currentDocs := project.completenessDocs.getD []
      let refs ← Txn.liftExcept (ids.mapM (resolveCellRef items currentDocs field))
      pure ⟨fun p => { p with completenessDocs := some refs }, jsonRefs refs⟩
  | .dictId => do
      let choice ← Txn.liftExcept (parseCellChoice field value)
      match choice with
      | none => pure ⟨field.writeChoice none, .null⟩
      | some id => do
          let items ← Txn.query fun v => v.financeDictItems
          let item ← Txn.liftExcept (resolveCellChoice items project field id)
          pure ⟨field.writeChoice (some item), .num id⟩

/-- `findUniqueOrThrow` of a project. -/
def findProject (id : Nat) : FinTx Project := do
  let found ← Txn.query fun v => v.projects.find? id
  Txn.orThrow found (.recordMissing "projects")

def cellSaveRun (env : FinEnvironment) (operator : OperationLogOperator) (projectId : Nat)
    (field : ProjectField) (value : Json) : FinTx (IdempotentOutcome FinReply) := do
  let project ← findLiveProject projectId
  let cell ← resolveCellValue env projectId project field value
  let before := fieldValue project field
  let summary := s!"在利润分析中保存了项目 {project.name} 的{field.code}"
  if before.beq cell.displayValue then do
    let current ← findProject projectId
    let auto ← recalcAuto projectId current
    pure ⟨.cellSaved field.code cell.displayValue auto current.dataRevision, .update, summary⟩
  else do
    let updated ← updateProject projectId (cell.writeOver env) ProjectService.keyConflict
    writeProjectChange operator projectId .edit (some field.code) (some before)
      (some cell.displayValue)
    let auto ← recalcAuto projectId updated
    pure ⟨.cellSaved field.code cell.displayValue auto updated.dataRevision, .update, summary⟩

def cellSave (env : FinEnvironment) (operator : OperationLogOperator) (dto : CellSaveDto)
    (fingerprint : String) : FinCall :=
  match ProjectField.ofCode? dto.field with
  | none => Call.single (.throw (.of .cellFieldNotAllowed))
  | some field =>
      executeIdempotentOperation finLog
        (ProjectService.options "fin.profit.cell-save" operator dto.idempotencyKey fingerprint)
        (cellSaveRun env operator dto.projectId field dto.value)

end ProfitService

end Wbme.Fin
