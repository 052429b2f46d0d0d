import Wbme.Fin.Projects

/-! # The finance dictionary

Items of four types that projects choose from. Projects keep the names of deleted items.
-/

namespace Wbme.Fin

open Lib

structure DictItemCreateDto where
  dictType : FinanceDictType
  name : String
  semantic : Option AmountSemantic
  sort : Option Int
  idempotencyKey : Option String

structure DictItemUpdateDto where
  name : String
  semantic : Option AmountSemantic
  sort : Int
  status : DictStatus
  idempotencyKey : Option String

def FinanceDictType.label : FinanceDictType → String
  | .progress => "项目进度"
  | .completeness => "资料齐全度"
  | .bizCategory => "业务分类"
  | .region => "地区"

/-- An item with the columns of a form written over. -/
def DictItemUpdateDto.writeOver (dto : DictItemUpdateDto) (existing : FinanceDictItem)
    (item : FinanceDictItem) : FinanceDictItem :=
  { item with
    name := dto.name
    semantic := if existing.dictType = .progress then dto.semantic.or existing.semantic else none
    sort := dto.sort
    status := dto.status }

namespace DictService

def feature : String := "finance_config"

def options (scope : String) (operator : OperationLogOperator) (idempotencyKey : Option String)
    (fingerprint : String) : IdempotentOptions :=
  ⟨operator, feature, scope, idempotencyKey, fingerprint⟩

def semanticRequired : Failure := invalidField "semantic" "项目进度必须声明金额语义"

def nameTaken : Failure := invalidField "name" "同类型下已存在同名字典项"

/-- Another item has the name. -/
def isTaken (v : FinStore) (self : Option Nat) (dictType : FinanceDictType) (name : String) :
    Bool :=
  (v.financeDictItems.select fun id item =>
    item.dictType == dictType && item.name == name && some id != self).isEmpty == false

def createRun (env : FinEnvironment) (dto : DictItemCreateDto) :
    FinTx (IdempotentOutcome FinReply) := do
  Txn.guard (!(dto.dictType == .progress && dto.semantic.isNone)) semanticRequired
  Txn.guard (!(dto.dictType == .bizCategory && isUnclassifiedReservedName env.unicode dto.name))
    (.of .unclassifiedNameConflict)
  let row : FinanceDictItem :=
    ⟨dto.dictType, dto.name, dto.semantic, dto.sort.getD 0, .active⟩
  let id ← Txn.create (fun _ => [.dictName dto.dictType dto.name])
    (fun v => [(isTaken v none dto.dictType dto.name, nameTaken)])
    fun id s => { s with financeDictItems := s.financeDictItems.insert id row }
  pure ⟨.id id, .create, s!"在财务配置中新增了字典项：{dto.name}（{dto.dictType.label}）"⟩

def create (env : FinEnvironment) (operator : OperationLogOperator) (dto : DictItemCreateDto)
    (fingerprint : String) : FinCall :=
  executeIdempotentOperation finLog
    (options "fin.dict.create" operator dto.idempotencyKey fingerprint) (createRun env dto)

/-- The projects that chose an item as their progress. -/
def progressRefs (v : FinStore) (id : Nat) : Nat :=
  (v.projects.select fun _ p => p.progressId == some id).length

def updateItem (id : Nat) (f : FinanceDictItem → FinanceDictItem) : FinTx Unit :=
  Txn.act
    (fun v => match v.financeDictItems.find? id with
      | none => []
      | some item => .dictItem id :: if item.name = (f item).name then []
          else [.dictName item.dictType item.name, .dictName item.dictType (f item).name])
    fun v => match v.financeDictItems.find? id with
      | none => .error (.recordMissing "finance_dict_items")
      | some item =>
          if isTaken v (some id) item.dictType (f item).name then .error nameTaken
          else .ok ((), fun s =>
            { s with financeDictItems := s.financeDictItems.update id f })

def updateRun (env : FinEnvironment) (id : Nat) (dto : DictItemUpdateDto) :
    FinTx (IdempotentOutcome FinReply) := do
  let found ← Txn.query fun v => v.financeDictItems.find? id
  let existing ← Txn.orThrow found (.of .resourceNotFound)
  Txn.guard (!(existing.dictType == .progress && dto.semantic.isNone && existing.semantic.isNone))
    semanticRequired
  Txn.guard
    (!(existing.dictType == .bizCategory && isUnclassifiedReservedName env.unicode dto.name))
    (.of .unclassifiedNameConflict)
  let changesSemantic :=
    existing.dictType == .progress && dto.semantic.isSome && dto.semantic != existing.semantic
  let refs ← if changesSemantic then Txn.query fun v => progressRefs v id else pure 0
  Txn.guard (refs == 0) (.of .dictSemanticLocked)
  updateItem id (dto.writeOver existing)
  pure ⟨.ok, .update,
    s!"在财务配置中更新了字典项：{existing.name} → {dto.name}（{existing.dictType.label}）"⟩

def update (env : FinEnvironment) (operator : OperationLogOperator) (id : Nat)
    (dto : DictItemUpdateDto) (fingerprint : String) : FinCall :=
  executeIdempotentOperation finLog
    (options "fin.dict.update" operator dto.idempotencyKey fingerprint) (updateRun env id dto)

def itemIds (v : FinStore) (ids : List Nat) : List Nat :=
  (v.financeDictItems.select fun id _ => ids.contains id).map (·.1)

/-- `deleteMany`, with the number of rows it found. -/
def deleteItems (ids : List Nat) : FinTx Nat :=
  Txn.act (fun v => (itemIds v ids).map .dictItem) fun v =>
    .ok ((itemIds v ids).length, fun s => { s with
      financeDictItems := s.financeDictItems.deleteMany fun id _ => (itemIds v ids).contains id })

def batchDeleteRun (ids : List Nat) : FinTx (IdempotentOutcome FinReply) := do
  let rows ← Txn.query fun v => v.financeDictItems.select fun id _ => ids.contains id
  Txn.guard (rows.length == ids.length) (.of .resourceNotFound)
  let count ← deleteItems ids
  pure ⟨.deleted count, .delete, s!"在财务配置中删除了 {count} 个字典项"⟩

def batchDelete (operator : OperationLogOperator) (ids : List Nat)
    (idempotencyKey : Option String) (fingerprint : String) : FinCall :=
  executeIdempotentOperation finLog
    (options "fin.dict.delete" operator idempotencyKey fingerprint) (batchDeleteRun ids)

end DictService

end Wbme.Fin
