import Wbme.Idempotency
import Wbme.Lib.Interleave

/-! # QR codes

A code stands for an asset, an inventory item or the catalogue under a random public id. It is
disabled and enabled again, or revoked for good and replaced by another one of the same target.
A unique index admits one code of a target that is not revoked.
-/

namespace Wbme.Qr

open Lib

inductive QrTargetType where
  | asset
  | inventoryItem
  | scanCatalog
deriving DecidableEq

def QrTargetType.text : QrTargetType → String
  | .asset => "ASSET"
  | .inventoryItem => "INVENTORY_ITEM"
  | .scanCatalog => "SCAN_CATALOG"

inductive QrStatus where
  | active
  | disabled
  | revoked
deriving DecidableEq

/-- What the unique index compares: a target without an id counts as the one with `0`. -/
structure QrTarget where
  targetType : QrTargetType
  targetId : Nat
deriving DecidableEq

structure QrCode where
  publicId : String
  targetType : QrTargetType
  targetId : Option Nat
  status : QrStatus

def QrCode.target (c : QrCode) : QrTarget := ⟨c.targetType, c.targetId.getD 0⟩

def QrCode.withStatus (status : QrStatus) (c : QrCode) : QrCode := { c with status := status }

/-- The entry that a scanned code leads to. -/
inductive QrEntry where
  | asset (id : Nat) (name : String)
  | inventoryItem (id : Nat) (consumableName spec warehouseName : String)
  | scanCatalog

inductive QrReply where
  | created (id : Nat) (publicId : String)
  | ok
  | regenerated (id : Nat) (publicId : String)
  | parsed (targetType : QrTargetType) (targetId : Option Nat) (entry : QrEntry)

structure QrStore where
  qrCodes : Table QrCode
  operationLogs : Table (OperationLog QrReply)

def QrStore.empty : QrStore := ⟨.empty, .empty⟩

/-- Row locks and the waits on unique indexes. -/
inductive QrLock where
  | code (id : Nat)
  | publicId (publicId : String)
  | target (target : QrTarget)
  | idempotency (operatorId : Nat) (scope key : String)
deriving DecidableEq

abbrev QrTx (α : Type) := Txn QrStore QrLock Failure α

abbrev QrCall := Call QrStore QrLock Failure QrReply

def qrLog : LogTable QrStore QrLock QrReply where
  system := "ASSET"
  get := QrStore.operationLogs
  set s t := { s with operationLogs := t }
  lock := QrLock.idempotency
  get_set _ _ := rfl

/-! ## The outside world -/

/-- An asset that is not deleted, as a scan needs it. -/
structure ScannedAsset where
  name : String
  responsibleUserId : Option Nat
  currentUserId : Option Nat
  departmentId : Option Nat

structure ScannedItem where
  consumableName : String
  consumableActive : Bool
  spec : String
  warehouseName : String
  bookQty : Int
  reservedQty : Int

/-- What an operation finds around the codes. -/
structure QrEnvironment where
  access : Nat → String → FunctionAccess
  closureOfUser : Nat → List Nat
  asset : Nat → Option ScannedAsset
  inventoryItem : Nat → Option ScannedItem

def myAssets : String := "my_assets"

def fixedAssetView : String := "fixed_asset_view"

def fixedAssetMaintain : String := "fixed_asset_maintain"

def consumableApply : String := "consumable_apply"

def inventoryManage : String := "inventory_manage"

/-- The functions of the asset system; any of them opens the catalogue. -/
def assetFunctionCodes : List String :=
  [myAssets, fixedAssetView, fixedAssetMaintain, consumableApply, "consumable_apply_history",
    "proxy_apply", "my_borrow", "borrow_history", inventoryManage, "stock_in_apply",
    "stock_in_history", "stock_change_apply", "stock_change_history", "asset_config"]

def requiredCode : QrTargetType → String
  | .asset => fixedAssetMaintain
  | .inventoryItem => inventoryManage
  | .scanCatalog => inventoryManage

def liveCodes (v : QrStore) (target : QrTarget) : List (Nat × QrCode) :=
  v.qrCodes.select fun _ c => c.target == target && c.status != .revoked

def codesNamed (v : QrStore) (publicId : String) : List (Nat × QrCode) :=
  v.qrCodes.select fun _ c => c.publicId == publicId

/-- The insert of a code, with what the caller makes of a violated index. -/
def createQrCode (code : QrCode) (conflict : String → Failure) : QrTx Nat :=
  Txn.create (fun _ => [.publicId code.publicId, .target code.target])
    (fun v => [(!(codesNamed v code.publicId).isEmpty, conflict "qr_codes_public_id_key"),
      (!(liveCodes v code.target).isEmpty, conflict "qr_codes_target_active_unique")])
    fun id s => { s with qrCodes := s.qrCodes.insert id code }

/-- What the update of a status locks: the row, and its place in the index before or after. -/
def statusLocks (v : QrStore) (id : Nat) (status : QrStatus) : List QrLock :=
  match v.qrCodes.find? id with
  | none => []
  | some c =>
      if c.status == .revoked && status == .revoked then [.code id]
      else [.code id, .target c.target]

def updateStatus (id : Nat) (status : QrStatus) : QrTx Unit :=
  Txn.act (fun v => statusLocks v id status) fun v =>
    match v.qrCodes.find? id with
    | none => .error (.recordMissing "qr_codes")
    | some c =>
        if status != .revoked && (liveCodes v c.target).any (fun p => p.1 != id) then
          .error (.uniqueViolation "qr_codes_target_active_unique")
        else .ok ((), fun s => { s with qrCodes := s.qrCodes.update id (.withStatus status) })

namespace QrService

/-! ## Creating -/

structure QrCodeCreateDto where
  targetType : QrTargetType
  targetId : Option Nat
  idempotencyKey : Option String

def targetExists (env : QrEnvironment) (dto : QrCodeCreateDto) : Bool :=
  match dto.targetType with
  | .asset => (dto.targetId.bind env.asset).isSome
  | .inventoryItem => (dto.targetId.bind env.inventoryItem).isSome
  | .scanCatalog => true

/-- The id of a target behind its type, unless there is none. -/
def idSuffix (targetId : Option Nat) : String :=
  match targetId with
  | none => ""
  | some id => if id = 0 then "" else s!" #{id}"

def createRun (env : QrEnvironment) (dto : QrCodeCreateDto) (publicId : String) :
    QrTx (IdempotentOutcome QrReply) := do
  Txn.guard (targetExists env dto) (.of .resourceNotFound)
  let targetId := match dto.targetType with
    | .scanCatalog => none
    | _ => dto.targetId
  let id ← createQrCode ⟨publicId, dto.targetType, targetId, .active⟩ fun _ =>
    .because .validationFailed "该目标已存在有效二维码，请先作废"
  pure ⟨.created id publicId, .create,
    s!"生成了二维码（{dto.targetType.text}{idSuffix dto.targetId}）"⟩

def create (env : QrEnvironment) (operator : OperationLogOperator) (dto : QrCodeCreateDto)
    (publicId fingerprint : String) : QrCall :=
  executeIdempotentOperation qrLog
    ⟨operator, requiredCode dto.targetType, "asset.qr.create", dto.idempotencyKey, fingerprint⟩
    (createRun env dto publicId)

/-! ## Disabling, enabling and regenerating -/

inductive QrAction where
  | disable
  | enable
  | regenerate

def actionRun (id : Nat) (action : QrAction) (publicId : String) :
    QrTx (IdempotentOutcome QrReply) := do
  let found ← Txn.query fun v => v.qrCodes.find? id
  let qr ← Txn.orThrow found (.of .resourceNotFound)
  Txn.guard (qr.status != .revoked) (.of .qrRevoked)
  let target := s!"{qr.targetType.text}{idSuffix qr.targetId}"
  match action with
  | .regenerate => do
      updateStatus id .revoked
      let row ← createQrCode ⟨publicId, qr.targetType, qr.targetId, .active⟩ .uniqueViolation
      pure ⟨.regenerated row publicId, .update, s!"作废并重新生成了二维码（{target}）"⟩
  | .disable => do
      updateStatus id .disabled
      pure ⟨.ok, .update, s!"停用了二维码（{target}）"⟩
  | .enable => do
      updateStatus id .active
      pure ⟨.ok, .update, s!"恢复了二维码（{target}）"⟩

def actionOptions (operator : OperationLogOperator) (feature : String)
    (idempotencyKey : Option String) (fingerprint : String) : IdempotentOptions :=
  ⟨operator, feature, "asset.qr.action", idempotencyKey, fingerprint⟩

/-- The type of the target says which function is needed, ahead of the transaction; a replay
does not ask for the function. -/
def action (env : QrEnvironment) (operator : OperationLogOperator) (id : Nat) (action : QrAction)
    (publicId : String) (idempotencyKey : Option String) (fingerprint : String) : QrCall where
  main := do
    let found ← Txn.query fun v => (v.qrCodes.find? id).map QrCode.targetType
    let targetType ← Txn.orThrow found (.of .resourceNotFound)
    let access := env.access operator.id (requiredCode targetType)
    Txn.guard (access.registered && access.allowed) (.of .resourceNotFound)
    (executeIdempotentOperation qrLog
      (actionOptions operator (requiredCode targetType) idempotencyKey fingerprint)
      (actionRun id action publicId)).main
  recover := replayAfterConflict qrLog
    (actionOptions operator inventoryManage idempotencyKey fingerprint)

/-! ## Scanning -/

def isOpen (access : FunctionAccess) : Bool :=
  access.registered && access.systemOpen && access.allowed

def canUseAssetAny (env : QrEnvironment) (userId : Nat) : Bool :=
  assetFunctionCodes.any fun code => isOpen (env.access userId code)

/-- A holder of the asset sees it, and so do those whose reach its department is in. -/
def canViewAsset (env : QrEnvironment) (userId : Nat) (asset : ScannedAsset) : Bool :=
  [myAssets, fixedAssetView, fixedAssetMaintain].any fun code =>
    let access := env.access userId code
    isOpen access &&
      if code = myAssets then
        asset.responsibleUserId == some userId || asset.currentUserId == some userId
      else
        match access.dataScope with
        | none => true
        | some .company => true
        | some _ => asset.departmentId.any fun id => (env.closureOfUser userId).contains id

/-- An item can be applied for while its consumable is in use and some of it is left. -/
def ScannedItem.isAvailable (item : ScannedItem) : Bool :=
  item.consumableActive && decide (0 < item.bookQty - item.reservedQty)

def parse (env : QrEnvironment) (userId : Nat) (publicId : String) : QrTx QrReply := do
  let found ← Txn.query fun v => (codesNamed v publicId).head?.map (·.2)
  let qr ← Txn.orThrow (found.filter fun qr => qr.status == .active) (.of .qrInvalid)
  match qr.targetType with
  | .asset => do
      let id ← Txn.orThrow qr.targetId (.of .qrInvalid)
      let asset ← Txn.orThrow (env.asset id) (.of .qrInvalid)
      Txn.guard (canViewAsset env userId asset) (.of .qrInvalid)
      pure (.parsed .asset (some id) (.asset id asset.name))
  | .inventoryItem => do
      Txn.guard (isOpen (env.access userId consumableApply)) (.of .qrInvalid)
      let id ← Txn.orThrow qr.targetId (.of .qrInvalid)
      let item ← Txn.orThrow ((env.inventoryItem id).filter ScannedItem.isAvailable)
        (.of .qrInvalid)
      pure (.parsed .inventoryItem (some id)
        (.inventoryItem id item.consumableName item.spec item.warehouseName))
  | .scanCatalog => do
      Txn.guard (canUseAssetAny env userId) (.of .qrInvalid)
      pure (.parsed .scanCatalog none .scanCatalog)

end QrService

/-! ## Operations -/

inductive QrOperation where
  | create (dto : QrService.QrCodeCreateDto) (publicId : String)
  | action (id : Nat) (action : QrService.QrAction) (publicId : String)
  | parse (publicId : String)

/-- An operation of an operator, with what it finds around the codes. -/
structure QrActivity where
  env : QrEnvironment
  operator : OperationLogOperator
  operation : QrOperation
  idempotencyKey : Option String
  fingerprint : String

def QrActivity.call (a : QrActivity) : QrCall :=
  match a.operation with
  | .create dto publicId => QrService.create a.env a.operator dto publicId a.fingerprint
  | .action id action publicId =>
      QrService.action a.env a.operator id action publicId a.idempotencyKey a.fingerprint
  | .parse publicId => .single (QrService.parse a.env a.operator.id publicId)

end Wbme.Qr
