import Wbme.Approval.StateMachine
import Wbme.Lib.Table
import Wbme.Lib.Txn

/-! # The asset store

The tables of the asset schema that stock, claims and approvals read or write,
with the columns those services use, the locks PostgreSQL takes for them, and
the CHECK, UNIQUE and foreign key constraints the migrations declare. Rows carry
no key of their own: the table holds it.
-/

namespace Wbme.Asset

open Lib Approval

/-! ## Enumerations -/

inductive DictStatus where
  | active
  | disabled
deriving DecidableEq

inductive ConsumableType where
  | disposable
  | reusable
deriving DecidableEq

inductive QuotaCycle where
  | month
  | quarter
  | year

inductive StockFlowType where
  | stockIn
  | issue
  | deduction
  | return
  | transferOut
  | transferIn
  | correction
deriving DecidableEq

inductive FlowDirection where
  | in
  | out
deriving DecidableEq

inductive RequestType where
  | stockIn
  | stockChange
  | consumableRequest
  | agentRequest
  | return
  | writeOff
  | agentSettlement
deriving DecidableEq

inductive QuotaType where
  | disposableCycle
  | reusableHolding
deriving DecidableEq

inductive QuotaStatus where
  | reserved
  | consumed
  | released
deriving DecidableEq

inductive BorrowType where
  | personal
  | agent
deriving DecidableEq

inductive WriteOffType where
  | lost
  | damaged

inductive SettleMethod where
  | return
  | writeOff
deriving DecidableEq

inductive DisposalType where
  | return
  | writeOff
  | agentSettle
deriving DecidableEq

/-! ## Rows -/

/-- The name columns that stock rows copy at the moment they are written. -/
structure StockSnapshot where
  consumableName : String
  spec : String
  warehouseName : String
  warehousePath : String

/-- Purchase columns of a batch. -/
structure PurchaseInfo where
  supplierId : Option Nat
  supplierName : Option String
  brandId : Option Nat
  brandName : Option String
  unitPrice : Option String

structure Consumable where
  name : String
  categoryId : Option Nat
  categoryName : Option String
  unitId : Option Nat
  unitName : String
  type : ConsumableType
  quotaCycle : Option QuotaCycle
  quotaLimit : Option Int
  returnDays : Option Int
  maxHolding : Option Int
  referencePrice : Option String
  safetyStock : Int
  imageOssKey : Option String
  remark : Option String
  status : DictStatus

structure InventoryItem where
  consumableId : Nat
  spec : String
  warehouseId : Option Nat
  warehouseName : String
  warehousePath : String
  bookQty : Int
  reservedQty : Int

structure Batch where
  inventoryItemId : Nat
  sourceBatchId : Option Nat
  consumableId : Nat
  snapshot : StockSnapshot
  purchase : PurchaseInfo
  remark : Option String
  receivedAt : Int
  remainingQty : Int
  updatedBy : Option Nat

structure StockFlow where
  flowType : StockFlowType
  direction : FlowDirection
  inventoryItemId : Nat
  batchId : Option Nat
  snapshot : StockSnapshot
  qty : Int
  bookBefore : Int
  bookAfter : Int
  refType : String
  refId : Nat
  operatorId : Nat
  operatorName : String

structure ApprovalRequest where
  applicationNo : String
  requestType : RequestType
  applicantId : Nat
  applicantName : String
  applicantDepartmentSnapshot : Json
  proxyId : Option Nat
  proxyName : Option String
  refRequestId : Option Nat
  remark : Option String
  status : ApprovalStatus
  version : Nat
  submittedAt : Option Int
  cancelledBy : Option Nat
  cancelledAt : Option Int
  cancelSource : Option CancelSource
  processorId : Option Nat
  processorName : Option String
  processedAt : Option Int
  opinion : Option String

structure ApprovalActionRecord where
  requestId : Nat
  action : ApprovalAction
  actorId : Nat
  actorName : String
  opinion : Option String
  cancelSource : Option CancelSource

structure StockInItem where
  requestId : Nat
  consumableId : Nat
  snapshot : StockSnapshot
  purchase : PurchaseInfo
  warehouseId : Nat
  qty : Int
  receivedAt : Int

structure StockChangeItem where
  requestId : Nat
  inventoryItemId : Nat
  snapshot : StockSnapshot
  changeTypeId : Option Nat
  changeTypeName : Option String
  reason : String
  qty : Int
  changedAt : Int

structure ConsumableRequestItem where
  requestId : Nat
  inventoryItemId : Nat
  snapshot : StockSnapshot
  qty : Int
  purpose : Option String

structure AgentRecipient where
  requestId : Nat
  userId : Nat
  userName : String
  departmentSnapshot : Json

structure BorrowActionItem where
  requestId : Nat
  borrowRecordId : Nat
  qty : Int
  writeOffType : Option WriteOffType
  reason : Option String

structure AgentSettlementItem where
  requestId : Nat
  borrowRecordId : Nat
  qty : Int
  method : SettleMethod
  writeOffType : Option WriteOffType
  reason : Option String

structure QuotaOccupation where
  userId : Nat
  consumableId : Nat
  consumableName : String
  quotaType : QuotaType
  cycle : Option QuotaCycle
  cycleKey : Option String
  requestId : Nat
  qty : Int
  status : QuotaStatus

structure BorrowRecord where
  recordType : BorrowType
  userId : Option Nat
  userName : Option String
  departmentSnapshot : Json
  agentRequestId : Option Nat
  requestId : Nat
  inventoryItemId : Nat
  snapshot : StockSnapshot
  qty : Int
  borrowedAt : Int
  dueAt : Int
  returnedQty : Int
  writtenOffQty : Int

structure BorrowBatchAllocation where
  borrowRecordId : Nat
  batchId : Nat
  issuedQty : Int
  returnedQty : Int

structure InventoryTransfer where
  fromInventoryItemId : Nat
  toInventoryItemId : Nat
  fromWarehouseName : String
  fromWarehousePath : String
  toWarehouseName : String
  toWarehousePath : String
  qty : Int
  remark : Option String
  operatorId : Nat
  operatorName : String

structure TransferBatchItem where
  transferId : Nat
  sourceBatchId : Nat
  targetBatchId : Nat
  qty : Int

/-- The audited fields of a batch before or after a correction. -/
structure BatchAudit where
  purchase : PurchaseInfo
  remark : Option String
  spec : String
  warehouseId : Option Nat
  warehouseName : String

structure BatchCorrection where
  batchId : Nat
  before : BatchAudit
  after : BatchAudit
  reason : String
  operatorId : Nat
  operatorName : String

structure DirectDisposalRecord where
  disposalType : DisposalType
  borrowRecordId : Nat
  agentRequestId : Option Nat
  userId : Option Nat
  userName : Option String
  departmentSnapshot : Json
  inventoryItemId : Nat
  snapshot : StockSnapshot
  qty : Int
  writeOffType : Option WriteOffType
  reason : Option String
  processorId : Nat
  processorName : String
  stockFlowRefs : List Nat

/-- The tables. -/
structure Store where
  consumables : Table Consumable
  inventoryItems : Table InventoryItem
  batches : Table Batch
  stockFlows : Table StockFlow
  approvalRequests : Table ApprovalRequest
  approvalActions : Table ApprovalActionRecord
  stockInItems : Table StockInItem
  stockChangeItems : Table StockChangeItem
  consumableRequestItems : Table ConsumableRequestItem
  agentRecipients : Table AgentRecipient
  borrowActionItems : Table BorrowActionItem
  agentSettlementItems : Table AgentSettlementItem
  quotaOccupations : Table QuotaOccupation
  borrowRecords : Table BorrowRecord
  borrowBatchAllocations : Table BorrowBatchAllocation
  inventoryTransfers : Table InventoryTransfer
  transferBatchItems : Table TransferBatchItem
  batchCorrections : Table BatchCorrection
  directDisposalRecords : Table DirectDisposalRecord

/-- The store before the first operation. -/
def Store.empty : Store where
  consumables := .empty
  inventoryItems := .empty
  batches := .empty
  stockFlows := .empty
  approvalRequests := .empty
  approvalActions := .empty
  stockInItems := .empty
  stockChangeItems := .empty
  consumableRequestItems := .empty
  agentRecipients := .empty
  borrowActionItems := .empty
  agentSettlementItems := .empty
  quotaOccupations := .empty
  borrowRecords := .empty
  borrowBatchAllocations := .empty
  inventoryTransfers := .empty
  transferBatchItems := .empty
  batchCorrections := .empty
  directDisposalRecords := .empty

def BorrowRecord.openQty (r : BorrowRecord) : Int := r.qty - r.returnedQty - r.writtenOffQty

/-- Quantity free for new requests. -/
def InventoryItem.available (r : InventoryItem) : Int := r.bookQty - r.reservedQty

/-! ## Locks -/

/-- The advisory key `asset.quota.<userId>.<consumableId>.<cycleKey>`; borrowed goods use
the word `holding` in place of a cycle key. -/
structure QuotaKey where
  userId : Nat
  consumableId : Nat
  cycleKey : Option String
deriving DecidableEq

/-- Row locks, advisory locks, and the waits on unique indexes. -/
inductive Lock where
  | consumable (id : Nat)
  | inventoryItem (id : Nat)
  | batch (id : Nat)
  | approvalRequest (id : Nat)
  | quotaOccupation (id : Nat)
  | borrowRecord (id : Nat)
  | borrowBatchAllocation (id : Nat)
  | directDisposalRecord (id : Nat)
  | quota (key : QuotaKey)
  | consumableName (name : String)
  | inventoryKey (consumableId : Nat) (spec : String) (warehouseId : Nat)
  | applicationNo (no : String)
  | pendingSettlement (refRequestId : Nat)

/-- Transactions over the asset store. -/
abbrev Tx (α : Type) := Txn Store Lock Failure α

/-- Lift a check that does not touch the store. -/
def liftExcept {α : Type} (r : Except Failure α) : Tx α :=
  match r with
  | .ok a => .pure a
  | .error e => .throw e

/-! ## The outside world

What the services read from other schemas, from settings, and from the clock.
One operation sees one such environment; different operations may see different
ones.
-/

structure WarehouseRow where
  parentId : Option Nat
  name : String
  active : Bool

/-- Dictionary types the modelled services look up. -/
inductive AssetDictType where
  | unit
  | changeType
  | supplier
  | brand
deriving DecidableEq

def AssetDictType.text : AssetDictType → String
  | .unit => "UNIT"
  | .changeType => "CHANGE_TYPE"
  | .supplier => "SUPPLIER"
  | .brand => "BRAND"

structure DictItem where
  dictType : AssetDictType
  name : String
  active : Bool

structure CategoryRow where
  name : String
  underConsumables : Bool
  active : Bool

structure Environment where
  now : Int
  quotaResetDay : Nat
  /-- Access to the approval function. -/
  access : Nat → FunctionAccess
  /-- The departments at or below a user's own. -/
  closureOfUser : Nat → List Nat
  userName : Nat → String
  /-- Is the account deactivated? -/
  deactivated : Nat → Bool
  warehouse : Nat → Option WarehouseRow
  dictItem : Nat → Option DictItem
  category : Nat → Option CategoryRow
  /-- The employees a user may claim for. -/
  eligibleRecipients : Nat → List Nat
  departmentsOf : Nat → List DepartmentRef
  /-- The random and time part of the application number. -/
  applicationNoSuffix : String

/-- The acting user as the operation log loads it. -/
structure Operator where
  id : Nat
  name : String
  departments : List DepartmentRef

end Wbme.Asset
