import Wbme.Idempotency

/-! # The store of fixed assets

The ledger of fixed assets with its transfers and changes, and the repair orders with their
history. A deleted asset keeps its row; an asset has at most one order that is not over.
-/

namespace Wbme.FixedAsset

open Lib

/-! ## Rows -/

inductive AssetStatus where
  | idle
  | inUse
  | pendingRepair
  | repairing
  | scrapped
deriving DecidableEq

inductive AssetOwnership where
  | company
  | partner
deriving DecidableEq

structure Asset where
  name : String
  categoryId : Option Nat
  categoryName : Option String
  specModel : Option String
  amount : Int
  purchaseAt : Option Int
  usageStatus : AssetStatus
  ownership : AssetOwnership
  ownerName : Option String
  departmentId : Option Nat
  departmentName : Option String
  responsibleUserId : Option Nat
  responsibleUserName : Option String
  currentUserId : Option Nat
  currentUserName : Option String
  imageOssKey : Option String
  remark : Option String
  deletedAt : Option Int
deriving DecidableEq

def Asset.isLive (a : Asset) : Bool := a.deletedAt.isNone

structure AssetTransfer where
  assetId : Nat
  fromDepartmentId : Option Nat
  fromDepartmentName : Option String
  toDepartmentId : Nat
  toDepartmentName : String
  fromUserId : Option Nat
  fromUserName : Option String
  toUserId : Nat
  toUserName : String
  operatorId : Nat
  operatorName : String

/-- The fields that an edit or a write-off changed, before and after. -/
structure AssetChange where
  assetId : Nat
  before : Json
  after : Json
  operatorId : Nat
  operatorName : String

inductive RepairStatus where
  | pending
  | repairing
  | cancelled
  | completed
deriving DecidableEq

/-- The condition of the unique index. -/
def RepairStatus.isActive : RepairStatus → Bool
  | .pending => true
  | .repairing => true
  | .cancelled => false
  | .completed => false

inductive RepairAction where
  | register
  | cancel
  | start
  | complete

structure RepairOrder where
  assetId : Nat
  status : RepairStatus
  version : Nat
  faultDescription : String
  reportedAt : Int
  preStatus : AssetStatus
  startedAt : Option Int
  completedAt : Option Int
  result : Option String
  actualCost : Option Int
  postStatus : Option AssetStatus

structure RepairOrderAction where
  orderId : Nat
  action : RepairAction
  fromStatus : RepairStatus
  toStatus : RepairStatus
  operatorId : Nat
  operatorName : String

/-- What the operations answer, and the log records. -/
inductive FixedReply where
  | ok
  | id (id : Nat)
  | deleted (count : Nat)

/-! ## The store -/

structure FixedStore where
  assets : Table Asset
  assetTransfers : Table AssetTransfer
  assetChanges : Table AssetChange
  repairOrders : Table RepairOrder
  repairOrderActions : Table RepairOrderAction
  operationLogs : Table (OperationLog FixedReply)

def FixedStore.empty : FixedStore := ⟨.empty, .empty, .empty, .empty, .empty, .empty⟩

/-- Row locks and the waits on unique indexes. -/
inductive FixedLock where
  | asset (id : Nat)
  | repairOrder (id : Nat)
  | activeRepair (assetId : Nat)
  | idempotency (operatorId : Nat) (scope key : String)
deriving DecidableEq

abbrev FixedTx (α : Type) := Txn FixedStore FixedLock Failure α

abbrev FixedCall := Call FixedStore FixedLock Failure FixedReply

def assetLog : LogTable FixedStore FixedLock FixedReply where
  system := "ASSET"
  get := FixedStore.operationLogs
  set s t := { s with operationLogs := t }
  lock := FixedLock.idempotency
  get_set _ _ := rfl

/-! ## The outside world -/

structure AssetCategory where
  name : String
  topName : String
  isActive : Bool

/-- An account as the view shows it. -/
structure UserAccount where
  name : String
  isActive : Bool

/-- What an operation finds around its own tables. -/
structure FixedEnvironment where
  /-- Milliseconds since the epoch. -/
  now : Int
  /-- The grant of `fixed_asset_maintain` of a user. -/
  access : Nat → FunctionAccess
  closureOfUser : Nat → List Nat
  category : Nat → Option AssetCategory
  department : Nat → Option String
  userAccount : Nat → Option UserAccount
  /-- Whether an active account belongs to a department. -/
  belongs : Nat → Nat → Bool
  /-- The hundredths that an amount says. -/
  decimal : String → Int
  /-- The text of an amount in hundredths. -/
  decimalText : Int → String
  /-- Times and days as they are written in requests. -/
  time : String → Int
  date : String → Int

def fixedAssetMaintain : String := "fixed_asset_maintain"

def assertMaintainScope (env : FixedEnvironment) (userId : Nat) (departmentId : Option Nat) :
    FixedTx Unit := do
  let access := env.access userId
  Txn.guard (access.registered && access.systemOpen && access.allowed) (.of .resourceNotFound)
  match access.dataScope with
  | none => pure ()
  | some .company => pure ()
  | some _ => do
      let departmentId ← Txn.orThrow departmentId (.of .resourceNotFound)
      Txn.guard ((env.closureOfUser userId).contains departmentId) (.of .resourceNotFound)

def inMaintainScope (env : FixedEnvironment) (userId : Nat) (departmentId : Option Nat) : Bool :=
  let access := env.access userId
  access.registered && access.systemOpen && access.allowed &&
    match access.dataScope with
    | none => true
    | some .company => true
    | some _ => departmentId.any fun id => (env.closureOfUser userId).contains id

theorem wp_assertMaintainScope {env : FixedEnvironment} {userId n : Nat} {s : FixedStore}
    {departmentId : Option Nat} {Q : Unit → Nat → FixedStore → Prop} {E : Failure → Prop} :
    (assertMaintainScope env userId departmentId).wp Q E n s ↔
      (inMaintainScope env userId departmentId = true → Q () n s) ∧
      (inMaintainScope env userId departmentId = false → E (.of .resourceNotFound)) := by
  unfold assertMaintainScope inMaintainScope
  rw [Txn.wp_bind, Txn.wp_guard]
  dsimp only
  cases ((env.access userId).registered && (env.access userId).systemOpen &&
    (env.access userId).allowed) with
  | false => simp
  | true =>
      cases (env.access userId).dataScope with
      | none => simp
      | some scope =>
          cases scope with
          | company => simp
          | _ =>
              cases departmentId with
              | none => simp [Txn.wp_bind, Txn.wp_orThrow]
              | some id => simp [Txn.wp_bind, Txn.wp_orThrow, Txn.wp_guard]

/-! ## Statements -/

def findLiveAsset (id : Nat) : FixedTx Asset := do
  let found ← Txn.query fun v => v.assets.find? id
  Txn.orThrow (found.filter Asset.isLive) (.of .resourceNotFound)

def updateAsset (id : Nat) (f : Asset → Asset) : FixedTx Unit :=
  Txn.act (fun v => if (v.assets.find? id).isSome then [.asset id] else []) fun v =>
    match v.assets.find? id with
    | none => .error (.recordMissing "assets")
    | some _ => .ok ((), fun s => { s with assets := s.assets.update id f })

variable {Q : Unit → Nat → FixedStore → Prop} {E : Failure → Prop}

theorem wp_updateAsset {id n : Nat} {s : FixedStore} {x : Asset} {f : Asset → Asset}
    (hx : s.assets.find? id = some x) (h : Q () n { s with assets := s.assets.update id f }) :
    (updateAsset id f).wp Q E n s := by
  refine (Txn.wp_act _ _).mpr ?_
  rw [hx]
  exact h

def activeOrders (v : FixedStore) (assetId : Nat) : List (Nat × RepairOrder) :=
  v.repairOrders.select fun _ o => o.assetId == assetId && o.status.isActive

def writeAssetChange (operator : OperationLogOperator) (assetId : Nat) (before after : Json) :
    FixedTx Unit := do
  let change : AssetChange := ⟨assetId, before, after, operator.id, operator.name⟩
  let _ ← Txn.create (fun _ => []) (fun _ => []) fun id s =>
    { s with assetChanges := s.assetChanges.insert id change }
  pure ()

theorem wp_writeAssetChange {operator : OperationLogOperator} {id n : Nat} {s : FixedStore}
    {before after : Json} (h : Q () (n + 1) { s with
      assetChanges := s.assetChanges.insert n ⟨id, before, after, operator.id, operator.name⟩ }) :
    (writeAssetChange operator id before after).wp Q E n s :=
  (Txn.wp_bind _ _).mpr (Txn.wp_create rfl h)

def writeRepairAction (operator : OperationLogOperator) (orderId : Nat) (action : RepairAction)
    (fromStatus toStatus : RepairStatus) : FixedTx Unit := do
  let row : RepairOrderAction :=
    ⟨orderId, action, fromStatus, toStatus, operator.id, operator.name⟩
  let _ ← Txn.create (fun _ => []) (fun _ => []) fun id s =>
    { s with repairOrderActions := s.repairOrderActions.insert id row }
  pure ()

end Wbme.FixedAsset
