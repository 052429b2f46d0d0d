import Wbme.FixedAsset.Store

/-! # Repair orders

An asset that is idle or in use is registered for repair and waits; the registration is
cancelled, or the repair starts and is completed. Every step moves the order by its status and
version, and the asset by its id.
-/

namespace Wbme.FixedAsset

open Lib

namespace RepairService

def statusInvalid : Failure := .of .assetStatusInvalid

/-! ## Registering -/

structure RepairOrderCreateDto where
  assetId : Nat
  faultDescription : String
  reportedAt : Option String
  idempotencyKey : Option String

def updateAssetInStatus (id : Nat) (status : AssetStatus) (f : Asset → Asset) : FixedTx Bool :=
  Txn.act
    (fun v => if (v.assets.find? id).any fun a => a.usageStatus == status then [.asset id] else [])
    fun v =>
      if (v.assets.find? id).any fun a => a.usageStatus == status then
        .ok (true, fun s => { s with assets := s.assets.update id f })
      else .ok (false, fun s => s)

/-- The insert of an order; another one of the asset that is not over is in its way. -/
def createRepairOrder (order : RepairOrder) : FixedTx Nat :=
  Txn.create (fun _ => [.activeRepair order.assetId])
    (fun v => [(!(activeOrders v order.assetId).isEmpty, .of .maintenanceActiveExists)])
    fun id s => { s with repairOrders := s.repairOrders.insert id order }

def registerRun (env : FixedEnvironment) (operator : OperationLogOperator) (userId : Nat)
    (dto : RepairOrderCreateDto) : FixedTx (IdempotentOutcome FixedReply) := do
  let asset ← findLiveAsset dto.assetId
  assertMaintainScope env userId asset.departmentId
  Txn.guard (asset.usageStatus == .idle || asset.usageStatus == .inUse) statusInvalid
  let updated ← updateAssetInStatus dto.assetId asset.usageStatus fun a =>
    { a with usageStatus := .pendingRepair }
  Txn.guard updated statusInvalid
  let orderId ← createRepairOrder
    { assetId := dto.assetId, status := .pending, version := 1
      faultDescription := dto.faultDescription
      reportedAt := (dto.reportedAt.map env.time).getD env.now
      preStatus := asset.usageStatus, startedAt := none, completedAt := none, result := none
      actualCost := none, postStatus := none }
  writeRepairAction operator orderId .register .pending .pending
  pure ⟨.id orderId, .create,
    s!"登记了资产维修：{asset.name}（{String.ofList (dto.faultDescription.toList.take 20)}）"⟩

/-! ## Moving on -/

def updateOrderAt (id : Nat) (status : RepairStatus) (version : Nat)
    (f : RepairOrder → RepairOrder) : FixedTx Bool :=
  Txn.act
    (fun v => match (v.repairOrders.find? id).filter fun o =>
        o.status == status && o.version == version with
      | none => []
      | some o => [.repairOrder id, .activeRepair o.assetId])
    fun v =>
      if (v.repairOrders.find? id).any fun o => o.status == status && o.version == version then
        .ok (true, fun s => { s with repairOrders := s.repairOrders.update id f })
      else .ok (false, fun s => s)

/-- What an action does: the status it needs and the one it leaves, the other columns of the
order, and the status of the asset. -/
structure Transition where
  action : RepairAction
  fromStatus : RepairStatus
  toStatus : RepairStatus
  columns : RepairOrder → RepairOrder
  assetStatus : RepairOrder → AssetStatus

/-- The body of every action on an order. -/
def transitionRun (env : FixedEnvironment) (operator : OperationLogOperator) (userId id : Nat)
    (t : Transition) (summary : String) : FixedTx (IdempotentOutcome FixedReply) := do
  let found ← Txn.query fun v => v.repairOrders.find? id
  let order ← Txn.orThrow found (.of .resourceNotFound)
  let asset ← findLiveAsset order.assetId
  assertMaintainScope env userId asset.departmentId
  let updated ← updateOrderAt id t.fromStatus order.version fun o =>
    { t.columns o with status := t.toStatus, version := o.version + 1 }
  Txn.guard updated statusInvalid
  updateAsset order.assetId fun a => { a with usageStatus := t.assetStatus order }
  writeRepairAction operator id t.action t.fromStatus t.toStatus
  pure ⟨.ok, .update, summary⟩

/-- The asset goes back to the status it was registered in. -/
def cancelTransition : Transition where
  action := .cancel
  fromStatus := .pending
  toStatus := .cancelled
  columns := id
  assetStatus order := order.preStatus

def startTransition (env : FixedEnvironment) (startedAt : Option String) : Transition where
  action := .start
  fromStatus := .pending
  toStatus := .repairing
  columns o := { o with startedAt := some ((startedAt.map env.time).getD env.now) }
  assetStatus _ := .repairing

/-- The status that a completed repair leaves its asset in. -/
inductive PostStatus where
  | inUse
  | idle

def PostStatus.toAssetStatus : PostStatus → AssetStatus
  | .inUse => .inUse
  | .idle => .idle

structure RepairCompleteDto where
  result : String
  actualCost : String
  postStatus : PostStatus
  completedAt : Option String
  idempotencyKey : Option String

def completeTransition (env : FixedEnvironment) (dto : RepairCompleteDto) : Transition where
  action := .complete
  fromStatus := .repairing
  toStatus := .completed
  columns o :=
    { o with
      completedAt := some ((dto.completedAt.map env.time).getD env.now)
      result := some dto.result
      actualCost := some (env.decimal dto.actualCost)
      postStatus := some dto.postStatus.toAssetStatus }
  assetStatus _ := dto.postStatus.toAssetStatus

/-! ## Operations -/

def options (scope : String) (operator : OperationLogOperator) (idempotencyKey : Option String)
    (fingerprint : String) : IdempotentOptions :=
  ⟨operator, fixedAssetMaintain, scope, idempotencyKey, fingerprint⟩

def register (env : FixedEnvironment) (operator : OperationLogOperator) (userId : Nat)
    (dto : RepairOrderCreateDto) (fingerprint : String) : FixedCall :=
  executeIdempotentOperation assetLog
    (options "asset.repair.register" operator dto.idempotencyKey fingerprint)
    (registerRun env operator userId dto)

def cancel (env : FixedEnvironment) (operator : OperationLogOperator) (userId id : Nat)
    (idempotencyKey : Option String) (fingerprint : String) : FixedCall :=
  executeIdempotentOperation assetLog
    (options "asset.repair.cancel" operator idempotencyKey fingerprint)
    (transitionRun env operator userId id cancelTransition s!"取消了维修登记（单号 {id}）")

def start (env : FixedEnvironment) (operator : OperationLogOperator) (userId id : Nat)
    (startedAt : Option String) (idempotencyKey : Option String) (fingerprint : String) :
    FixedCall :=
  executeIdempotentOperation assetLog
    (options "asset.repair.start" operator idempotencyKey fingerprint)
    (transitionRun env operator userId id (startTransition env startedAt) s!"开始维修（单号 {id}）")

def complete (env : FixedEnvironment) (operator : OperationLogOperator) (userId id : Nat)
    (dto : RepairCompleteDto) (fingerprint : String) : FixedCall :=
  executeIdempotentOperation assetLog
    (options "asset.repair.complete" operator dto.idempotencyKey fingerprint)
    (transitionRun env operator userId id (completeTransition env dto)
      s!"完成维修（单号 {id}，费用 {dto.actualCost} 元）")

end RepairService

end Wbme.FixedAsset
