import Wbme.Fin.CellSave
import Wbme.Fin.Dictionary
import Wbme.Fin.Import

/-! # Finance operations

Every operation that writes, with the payload its fingerprint is taken of.
-/

namespace Wbme.Fin

open Lib

/-! ## Fingerprints -/

abbrev Buffer := List UInt8

/-- The functions of the runtime that all operations share. -/
structure FinRuntime where
  unicode : Unicode
  /-- `Number` of a text, where it is an integer from zero on. -/
  number : String → Option Nat
  /-- What the parser makes of a file. -/
  parse : Buffer → Except Failure ParsedFile
  /-- `JSON.stringify`. -/
  stringify : Json → String
  /-- Whether `localeCompare` puts a text before another, or finds them equal. -/
  precedes : String → String → Bool
  sha256 : Buffer → String

mutual

/-- Fields in the order of their names, the items of arrays in the order of their texts. -/
def canonicalize (r : FinRuntime) : Json → Json
  | .arr xs => .arr ((canonicalizeItems r xs).mergeSort fun a b =>
      r.precedes (r.stringify a) (r.stringify b))
  | .obj fields => .obj ((canonicalizeFields r fields).mergeSort fun a b => r.precedes a.1 b.1)
  | .null => .null
  | .bool b => .bool b
  | .num n => .num n
  | .str s => .str s

def canonicalizeItems (r : FinRuntime) : List Json → List Json
  | [] => []
  | x :: xs => canonicalize r x :: canonicalizeItems r xs

def canonicalizeFields (r : FinRuntime) : List (String × Json) → List (String × Json)
  | [] => []
  | (key, x) :: fields => (key, canonicalize r x) :: canonicalizeFields r fields

end

def fingerprintPayload (r : FinRuntime) (payload : Json) : String :=
  r.sha256 (r.stringify (canonicalize r payload)).toUTF8.toList

/-! ## Payloads -/

def optionalField (name : String) (value : Option Json) : List (String × Json) :=
  (value.map fun x => (name, x)).toList

def keyField (idempotencyKey : Option String) : List (String × Json) :=
  optionalField "idempotencyKey" (idempotencyKey.map .str)

def idsJson (ids : List Nat) : Json := .arr (ids.map fun id => .num id)

def DictRefItem.toJson (doc : DictRefItem) : Json :=
  .obj ([("id", .num doc.id)] ++ optionalField "name" (doc.name.map .str))

def ProjectCreateDto.fields (dto : ProjectCreateDto) : List (String × Json) :=
  [("name", .str dto.name), ("year", .num dto.year)] ++
    optionalField "completenessDocs"
      (dto.completenessDocs.map fun docs => .arr (docs.map DictRefItem.toJson)) ++
    optionalField "regionId" (dto.regionId.map fun id => .num id) ++
    optionalField "progressId" (dto.progressId.map fun id => .num id) ++
    optionalField "bizCategoryId" (dto.bizCategoryId.map fun id => .num id) ++
    optionalField "partyA" (dto.partyA.map .str) ++
    optionalField "generalContractor" (dto.generalContractor.map .str) ++
    optionalField "managementFee" (dto.managementFee.map .str) ++
    optionalField "subcontractors" (dto.subcontractors.map jsonTexts) ++
    optionalField "contractStartDate" (dto.contractStartDate.map .str) ++
    optionalField "contractEndDate" (dto.contractEndDate.map .str) ++
    optionalField "contractAmount" (dto.contractAmount.map .str) ++
    optionalField "paymentNode" (dto.paymentNode.map .str) ++
    optionalField "tentativeAuditedAmount" (dto.tentativeAuditedAmount.map .str) ++
    optionalField "settlement" (dto.settlement.map .str) ++
    optionalField "miscExpense" (dto.miscExpense.map .str) ++
    optionalField "remark" (dto.remark.map .str) ++
    keyField dto.idempotencyKey

def DetailDto.fields (dto : DetailDto) : List (String × Json) :=
  [("item", .obj ([("amount", .str dto.item.amount)] ++
    optionalField "occurredDate" (dto.item.occurredDate.map .str) ++
    optionalField "remark" (dto.item.remark.map .str)))] ++ keyField dto.idempotencyKey

def FinanceDictType.toJson : FinanceDictType → Json
  | .progress => .str "PROGRESS"
  | .completeness => .str "COMPLETENESS"
  | .bizCategory => .str "BIZ_CATEGORY"
  | .region => .str "REGION"

def DictItemCreateDto.fields (dto : DictItemCreateDto) : List (String × Json) :=
  [("dictType", dto.dictType.toJson), ("name", .str dto.name)] ++
    optionalField "semantic" (dto.semantic.map jsonSemantic) ++
    optionalField "sort" (dto.sort.map .num) ++ keyField dto.idempotencyKey

def DictItemUpdateDto.fields (dto : DictItemUpdateDto) : List (String × Json) :=
  [("name", .str dto.name)] ++ optionalField "semantic" (dto.semantic.map jsonSemantic) ++
    [("sort", .num dto.sort),
      ("status", .str (match dto.status with | .active => "ACTIVE" | .disabled => "DISABLED"))] ++
    keyField dto.idempotencyKey

def CellSaveDto.fields (dto : CellSaveDto) : List (String × Json) :=
  [("projectId", .num dto.projectId), ("field", .str dto.field), ("value", dto.value)] ++
    keyField dto.idempotencyKey

def ImportChoiceDto.toJson (choice : ImportChoiceDto) : Json :=
  .obj ([("rowNumber", .num choice.rowNumber),
    ("decision", .str (match choice.decision with | .overwrite => "OVERWRITE" | .skip => "SKIP"))] ++
    optionalField "projectId" (choice.projectId.map fun id => .num id) ++
    optionalField "dataRevision" (choice.dataRevision.map fun n => .num n) ++
    optionalField "confirmDataLossWarning" (choice.confirmDataLossWarning.map .bool))

def choicesJson (choices : List ImportChoiceDto) : Json := .arr (choices.map ImportChoiceDto.toJson)

/-- What the changes of amounts have in common. -/
def detailFields (projectId : Nat) (kind : DetailKind) : List (String × Json) :=
  [("projectId", .num projectId), ("kind", .str kind.code)]

/-! ## Operations -/

inductive FinOperation where
  | projectCreate (dto : ProjectCreateDto)
  | projectUpdate (id : Nat) (dto : ProjectCreateDto)
  | projectDelete (ids : List Nat) (idempotencyKey : Option String)
  | projectRestore (ids : List Nat) (idempotencyKey : Option String)
  | detailCreate (projectId : Nat) (kind : DetailKind) (dto : DetailDto)
  | detailUpdate (projectId : Nat) (kind : DetailKind) (detailId : Nat) (dto : DetailDto)
  | detailRemove (projectId : Nat) (kind : DetailKind) (detailId : Nat)
      (idempotencyKey : Option String)
  | dictCreate (dto : DictItemCreateDto)
  | dictUpdate (id : Nat) (dto : DictItemUpdateDto)
  | dictDelete (ids : List Nat) (idempotencyKey : Option String)
  | cellSave (dto : CellSaveDto)
  | importConfirm (buffer : Buffer) (dto : ImportService.ImportConfirmDto)

/-- What the fingerprint of an operation is taken of. -/
def FinOperation.payload (r : FinRuntime) : FinOperation → Json
  | .projectCreate dto => .obj dto.fields
  | .projectUpdate id dto => .obj (("id", .num id) :: dto.fields)
  | .projectDelete ids _ => .obj [("ids", idsJson ids)]
  | .projectRestore ids _ => .obj [("ids", idsJson ids)]
  | .detailCreate projectId kind dto => .obj (detailFields projectId kind ++ dto.fields)
  | .detailUpdate projectId kind _ dto => .obj (detailFields projectId kind ++ dto.fields)
  | .detailRemove projectId kind detailId _ =>
      .obj (detailFields projectId kind ++ [("id", .num detailId)])
  | .dictCreate dto => .obj dto.fields
  | .dictUpdate _ dto => .obj dto.fields
  | .dictDelete ids _ => .obj [("ids", idsJson ids)]
  | .cellSave dto => .obj dto.fields
  | .importConfirm buffer dto =>
      .obj [("choices", choicesJson dto.choices), ("fileSha256", .str (r.sha256 buffer))]

def FinOperation.fingerprint (r : FinRuntime) (op : FinOperation) : String :=
  fingerprintPayload r (op.payload r)

structure FinActivity where
  now : Int
  checkTimeout : ImportService.Checkpoint → Except Failure Unit
  operator : OperationLogOperator
  operation : FinOperation

def FinActivity.env (r : FinRuntime) (a : FinActivity) : ImportService.ConfirmEnvironment where
  unicode := r.unicode
  now := a.now
  number := r.number
  checkTimeout := a.checkTimeout

def FinActivity.call (r : FinRuntime) (a : FinActivity) : FinCall :=
  let env := a.env r
  let fingerprint := a.operation.fingerprint r
  match a.operation with
  | .projectCreate dto => ProjectService.create env.toFinEnvironment a.operator dto fingerprint
  | .projectUpdate id dto =>
      ProjectService.update env.toFinEnvironment a.operator id dto fingerprint
  | .projectDelete ids idempotencyKey =>
      ProjectService.batchDelete env.toFinEnvironment a.operator ids idempotencyKey fingerprint
  | .projectRestore ids idempotencyKey =>
      ProjectService.batchRestore env.toFinEnvironment a.operator ids idempotencyKey fingerprint
  | .detailCreate projectId kind dto =>
      DetailService.create env.toFinEnvironment a.operator projectId kind dto fingerprint
  | .detailUpdate projectId kind detailId dto =>
      DetailService.update env.toFinEnvironment a.operator projectId kind detailId dto fingerprint
  | .detailRemove projectId kind detailId idempotencyKey =>
      DetailService.remove env.toFinEnvironment a.operator projectId kind detailId idempotencyKey
        fingerprint
  | .dictCreate dto => DictService.create env.toFinEnvironment a.operator dto fingerprint
  | .dictUpdate id dto => DictService.update env.toFinEnvironment a.operator id dto fingerprint
  | .dictDelete ids idempotencyKey =>
      DictService.batchDelete a.operator ids idempotencyKey fingerprint
  | .cellSave dto => ProfitService.cellSave env.toFinEnvironment a.operator dto fingerprint
  | .importConfirm buffer dto =>
      match r.parse buffer with
      | .error e => Call.single (.throw e)
      | .ok file => ImportService.confirm env a.operator file dto fingerprint

end Wbme.Fin
