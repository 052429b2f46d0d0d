import Wbme.FixedAsset.Store

/-! # The ledger of fixed assets

Assets are edited, handed to another department or person, scrapped and deleted. The status of
an asset under repair belongs to its repair order; the operations here look at the asset before
they write it.
-/

namespace Wbme.FixedAsset

open Lib

namespace AssetService

inductive EditStatus where
  | idle
  | inUse

def EditStatus.toAssetStatus : EditStatus → AssetStatus
  | .idle => .idle
  | .inUse => .inUse

structure AssetUpdateDto where
  name : String
  categoryId : Option Nat
  specModel : Option String
  amount : String
  purchaseAt : Option String
  ownership : AssetOwnership
  ownerName : Option String
  currentUserId : Option Nat
  imageOssKey : Option String
  remark : Option String
  usageStatus : EditStatus

/-! ## Names of what is chosen -/

def fixedAssets : String := "固定资产"

/-- The name of a category; one that is disabled is kept by the asset that has it. -/
def categoryName (env : FixedEnvironment) (currentId : Option Nat) :
    Option Nat → Except Failure (Option String)
  | none => .ok none
  | some id =>
      match env.category id with
      | none => .error (.because .validationFailed "分类不存在")
      | some category =>
          if category.topName ≠ fixedAssets then
            .error (.because .validationFailed "固定资产只能归入固定资产分类")
          else if ¬ category.isActive ∧ currentId ≠ some id then
            .error (.because .validationFailed "分类已停用，不能选择")
          else .ok (some category.name)

/-- The name of a user; one whose account is closed is kept by the asset that has it. -/
def userName (env : FixedEnvironment) (currentId : Option Nat) :
    Option Nat → Except Failure (Option String)
  | none => .ok none
  | some id =>
      match env.userAccount id with
      | none => .error (.because .validationFailed "用户不存在")
      | some user =>
          if ¬ user.isActive ∧ currentId ≠ some id then
            .error (.because .validationFailed "该员工已注销，不能设为责任人或当前使用人")
          else .ok (some user.name)

/-! ## Editing -/

/-- The row that an edit writes. -/
def AssetUpdateDto.writeOver (env : FixedEnvironment) (dto : AssetUpdateDto)
    (categoryName currentUserName : Option String) (a : Asset) : Asset :=
  { a with
    name := dto.name
    categoryId := dto.categoryId
    categoryName
    specModel := dto.specModel
    amount := env.decimal dto.amount
    purchaseAt := dto.purchaseAt.map env.date
    ownership := dto.ownership
    ownerName := dto.ownerName
    currentUserId := dto.currentUserId
    currentUserName
    imageOssKey := dto.imageOssKey
    remark := dto.remark
    usageStatus := dto.usageStatus.toAssetStatus }

def AssetStatus.code : AssetStatus → String
  | .idle => "IDLE"
  | .inUse => "IN_USE"
  | .pendingRepair => "PENDING_REPAIR"
  | .repairing => "REPAIRING"
  | .scrapped => "SCRAPPED"

def jsonText : Option String → Json
  | none => .null
  | some text => .str text

def jsonId : Option Nat → Json
  | none => .null
  | some id => .num id

/-- `String(value ?? '')` of the values that are compared. -/
def plainText : Json → String
  | .str text => text
  | .num n => toString n
  | _ => ""

/-- The fields whose texts differ, before and after. -/
def changedFields (env : FixedEnvironment) (existing : Asset) (dto : AssetUpdateDto) :
    List (String × Json × Json) :=
  [("name", .str existing.name, .str dto.name),
    ("specModel", jsonText existing.specModel, jsonText dto.specModel),
    ("amount", .str (env.decimalText existing.amount), .str dto.amount),
    ("usageStatus", .str (AssetStatus.code existing.usageStatus),
      .str (AssetStatus.code dto.usageStatus.toAssetStatus)),
    ("currentUserId", jsonId existing.currentUserId, jsonId dto.currentUserId),
    ("remark", jsonText existing.remark, jsonText dto.remark)].filter
      fun change => plainText change.2.1 ≠ plainText change.2.2

def isUnderRepair (a : Asset) : Bool :=
  a.usageStatus == .pendingRepair || a.usageStatus == .repairing

def statusInvalid : Failure := .of .assetStatusInvalid

def updateRun (env : FixedEnvironment) (operator : OperationLogOperator) (userId id : Nat)
    (dto : AssetUpdateDto) : FixedTx (IdempotentOutcome FixedReply) := do
  let existing ← findLiveAsset id
  assertMaintainScope env userId existing.departmentId
  Txn.guard (!isUnderRepair existing) statusInvalid
  let categoryName ← Txn.liftExcept (categoryName env existing.categoryId dto.categoryId)
  let currentUserName ← Txn.liftExcept (userName env existing.currentUserId dto.currentUserId)
  let changed := changedFields env existing dto
  updateAsset id (dto.writeOver env categoryName currentUserName)
  let outcome : IdempotentOutcome FixedReply := ⟨.ok, .update, s!"编辑了固定资产：{dto.name}"⟩
  if changed.isEmpty then pure outcome
  else do
    writeAssetChange operator id (.obj (changed.map fun c => (c.1, c.2.1)))
      (.obj (changed.map fun c => (c.1, c.2.2)))
    pure outcome

/-! ## Handing over -/

structure AssetScheduleDto where
  toDepartmentId : Nat
  toUserId : Nat

def scheduleRun (env : FixedEnvironment) (operator : OperationLogOperator) (userId id : Nat)
    (dto : AssetScheduleDto) : FixedTx (IdempotentOutcome FixedReply) := do
  let existing ← findLiveAsset id
  assertMaintainScope env userId existing.departmentId
  assertMaintainScope env userId (some dto.toDepartmentId)
  Txn.guard (!(existing.departmentId == some dto.toDepartmentId &&
    existing.responsibleUserId == some dto.toUserId)) (.of .assetTransferNoChange)
  Txn.guard (env.belongs dto.toUserId dto.toDepartmentId) (.of .assigneeDepartmentMismatch)
  let departmentName := (env.department dto.toDepartmentId).getD ""
  let targetUser := (env.userAccount dto.toUserId).map UserAccount.name
  let transfer : AssetTransfer :=
    ⟨id, existing.departmentId, existing.departmentName, dto.toDepartmentId, departmentName,
      existing.responsibleUserId, existing.responsibleUserName, dto.toUserId,
      targetUser.getD "", operator.id, operator.name⟩
  let _ ← Txn.create (fun _ => []) (fun _ => []) fun n s =>
    { s with assetTransfers := s.assetTransfers.insert n transfer }
  updateAsset id fun a =>
    { a with
      departmentId := some dto.toDepartmentId
      departmentName := some departmentName
      responsibleUserId := some dto.toUserId
      responsibleUserName := some (targetUser.getD "") }
  pure ⟨.ok, .update,
    s!"调度了固定资产 {existing.name}：责任人 → {targetUser.getD (toString dto.toUserId)}（{departmentName}）"⟩

/-! ## Scrapping and deleting -/

def scrapRun (env : FixedEnvironment) (operator : OperationLogOperator) (userId id : Nat) :
    FixedTx (IdempotentOutcome FixedReply) := do
  let existing ← findLiveAsset id
  assertMaintainScope env userId existing.departmentId
  Txn.guard (existing.usageStatus != .scrapped) statusInvalid
  Txn.guard (!isUnderRepair existing) statusInvalid
  updateAsset id fun a => { a with usageStatus := .scrapped }
  writeAssetChange operator id
    (.obj [("usageStatus", .str (AssetStatus.code existing.usageStatus))])
    (.obj [("usageStatus", .str (AssetStatus.code .scrapped))])
  pure ⟨.ok, .update, s!"报废了固定资产：{existing.name}"⟩

/-- Is an asset among some, and not deleted? -/
def isTarget (ids : List Nat) (id : Nat) (a : Asset) : Bool := ids.contains id && a.isLive

/-- The ids among some whose assets are not deleted. -/
def targetIds (v : FixedStore) (ids : List Nat) : List Nat :=
  (v.assets.select (isTarget ids)).map (·.1)

def markDeleted (env : FixedEnvironment) (ids : List Nat) (assets : Table Asset) : Table Asset :=
  assets.updateMany (fun id _ => ids.contains id) fun a => { a with deletedAt := some env.now }

/-- `asset.updateMany` of those that are not deleted: how many there were. -/
def deleteAssets (env : FixedEnvironment) (ids : List Nat) : FixedTx Nat :=
  Txn.act (fun v => (targetIds v ids).map .asset) fun v =>
    let targets := targetIds v ids
    .ok (targets.length, fun s => { s with assets := markDeleted env targets s.assets })

def batchDeleteRun (env : FixedEnvironment) (userId : Nat) (ids : List Nat) :
    FixedTx (IdempotentOutcome FixedReply) := do
  let rows ← Txn.query fun v => v.assets.select (isTarget ids)
  Txn.guard (rows.length == ids.length) (.of .resourceNotFound)
  rows.forM fun row => assertMaintainScope env userId row.2.departmentId
  let inUse ← Txn.query fun v =>
    (v.assets.select fun id a => isTarget ids id a && a.usageStatus == .inUse).length
  let activeRepairs ← Txn.query fun v =>
    (v.repairOrders.select fun _ o => ids.contains o.assetId && o.status.isActive).length
  let referenced := inUse + activeRepairs
  Txn.guard (referenced == 0)
    (.business .assetReferenced [("referenced", toString referenced)])
  let count ← deleteAssets env ids
  pure ⟨.deleted count, .delete, s!"删除了 {count} 条固定资产台账"⟩

/-! ## Operations -/

def options (scope : String) (operator : OperationLogOperator) (idempotencyKey : Option String)
    (fingerprint : String) : IdempotentOptions :=
  ⟨operator, fixedAssetMaintain, scope, idempotencyKey, fingerprint⟩

def update (env : FixedEnvironment) (operator : OperationLogOperator) (userId id : Nat)
    (dto : AssetUpdateDto) (idempotencyKey : Option String) (fingerprint : String) : FixedCall :=
  executeIdempotentOperation assetLog
    (options "asset.fixed.update" operator idempotencyKey fingerprint)
    (updateRun env operator userId id dto)

def schedule (env : FixedEnvironment) (operator : OperationLogOperator) (userId id : Nat)
    (dto : AssetScheduleDto) (idempotencyKey : Option String) (fingerprint : String) : FixedCall :=
  executeIdempotentOperation assetLog
    (options "asset.fixed.schedule" operator idempotencyKey fingerprint)
    (scheduleRun env operator userId id dto)

def scrap (env : FixedEnvironment) (operator : OperationLogOperator) (userId id : Nat)
    (confirm : Bool) (idempotencyKey : Option String) (fingerprint : String) : FixedCall :=
  if confirm then
    executeIdempotentOperation assetLog
      (options "asset.fixed.scrap" operator idempotencyKey fingerprint)
      (scrapRun env operator userId id)
  else Call.single (.throw (.because .validationFailed "需要二次确认"))

def batchDelete (env : FixedEnvironment) (operator : OperationLogOperator) (userId : Nat)
    (ids : List Nat) (idempotencyKey : Option String) (fingerprint : String) : FixedCall :=
  executeIdempotentOperation assetLog
    (options "asset.fixed.delete" operator idempotencyKey fingerprint)
    (batchDeleteRun env userId ids)

end AssetService

end Wbme.FixedAsset
