import Wbme.Asset.RequestHead

/-! # Stock-in and stock-change requests

A stock-in reserves nothing: its approval finds or creates the items, adds one
batch per line and raises the book. A stock change reserves at submission; its
approval takes the reserved quantity out of the batches, and a release gives the
reservation back. Issuing a line is the same loop for stock changes and claims.
-/

namespace Wbme.Asset

open Lib

/-! ## Shared lookups -/

/-- A dictionary item that exists, has the type and is active. -/
def loadDictName (env : Environment) (dictId : Nat) (dictType : AssetDictType) :
    Tx (Nat × String) :=
  match env.dictItem dictId with
  | some item =>
      if item.dictType = dictType ∧ item.active = true then pure (dictId, item.name)
      else .throw (.because .validationFailed s!"字典项不存在或已停用（{dictType.text}）")
  | none => .throw (.because .validationFailed s!"字典项不存在或已停用（{dictType.text}）")

/-- An optional dictionary item; a missing id looks nothing up. -/
def loadDictOption (env : Environment) (dictId : Option Nat) (dictType : AssetDictType) :
    Tx (Option (Nat × String)) :=
  match dictId with
  | none => pure none
  | some id => do
      let item ← loadDictName env id dictType
      pure (some item)

/-! ## Stock in -/

structure StockInRequestItem where
  consumableId : Nat
  supplierId : Option Nat
  brandId : Option Nat
  spec : String
  warehouseId : Nat
  qty : Int
  qty_pos : 1 ≤ qty
  unitPrice : Option String

structure StockInRequestCreate where
  items : List StockInRequestItem
  receivedAt : Option Int
  remark : Option String

/-- The key that a stock-in may hold once: `<consumableId>:<spec>:<warehouseId>`. -/
def StockInRequestItem.key (item : StockInRequestItem) : Nat × String × Nat :=
  (item.consumableId, item.spec, item.warehouseId)

structure StockInLine where
  consumableId : Nat
  snapshot : StockSnapshot
  purchase : PurchaseInfo
  warehouseId : Nat
  qty : Int
  qty_pos : 1 ≤ qty

/-- Check one line: new key, active consumable, active warehouse, known supplier and brand. -/
def prepareStockInLine (env : Environment) (seen : List (Nat × String × Nat))
    (item : StockInRequestItem) : Tx StockInLine := do
  Txn.guard (!seen.contains item.key) (.of .itemDuplicated)
  let consumable ← Txn.query (fun v => v.consumables.find? item.consumableId)
  match consumable with
  | none => .throw (.of .consumableDisabled)
  | some c =>
      Txn.guard (c.status == .active) (.of .consumableDisabled)
      let warehouse ← Txn.orThrow (loadWarehouseWithPath env (some item.warehouseId))
        (.because .validationFailed "目标库位不存在或已停用")
      let supplier ← loadDictOption env item.supplierId .supplier
      let brand ← loadDictOption env item.brandId .brand
      pure
        { consumableId := item.consumableId,
          snapshot := ⟨c.name, item.spec, warehouse.name, warehouse.path⟩,
          purchase := ⟨supplier.map (·.1), supplier.map (·.2), brand.map (·.1), brand.map (·.2),
            item.unitPrice.filter (· != "")⟩,
          warehouseId := warehouse.id, qty := item.qty, qty_pos := item.qty_pos }

/-- Check the lines in order, remembering the keys already seen. -/
def prepareStockInLines (env : Environment) :
    List StockInRequestItem → List (Nat × String × Nat) → Tx (List StockInLine)
  | [], _ => pure []
  | item :: items, seen => do
      let line ← prepareStockInLine env seen item
      let lines ← prepareStockInLines env items (item.key :: seen)
      pure (line :: lines)

namespace StockInService

def submit (env : Environment) (operator : Operator) (dto : StockInRequestCreate) :
    Tx (Nat × String) := do
  let prepared ← prepareStockInLines env dto.items []
  let head ← createRequestHead env
    { requestType := .stockIn, applicantId := operator.id, applicantName := operator.name,
      applicantDepartmentSnapshot := departmentsJson operator.departments, proxyId := none,
      proxyName := none, refRequestId := none, remark := dto.remark }
  prepared.forM fun line => do
    let _ ← stockInItemCreate
      { requestId := head.1, consumableId := line.consumableId, snapshot := line.snapshot,
        purchase := line.purchase, warehouseId := line.warehouseId, qty := line.qty,
        receivedAt := dto.receivedAt.getD env.now }
  pure head

def linesOf (v : Store) (requestId : Nat) : List (Nat × StockInItem) :=
  v.stockInItems.select (fun _ l => l.requestId == requestId)

def sameKey (r : InventoryItem) (line : StockInItem) : Bool :=
  r.consumableId == line.consumableId && r.spec == line.snapshot.spec &&
    r.warehouseId == some line.warehouseId

/-- The items that exist already for some line, without locking them. -/
def existingItems (v : Store) (lines : List (Nat × StockInItem)) : List (Nat × InventoryItem) :=
  v.inventoryItems.select (fun _ r => lines.any (fun l => sameKey r l.2))

def itemOfLine (existing : List (Nat × InventoryItem)) (locked : List InventoryItemLockRow)
    (line : StockInItem) : Tx (Nat × Int) :=
  match (existing.find? (fun p => sameKey p.2 line)).bind (fun p => lockedById locked p.1) with
  | some row => pure (row.id, row.bookQty)
  | none => lockOrCreateItem
      { consumableId := line.consumableId, spec := line.snapshot.spec,
        warehouseId := some line.warehouseId, warehouseName := line.snapshot.warehouseName,
        warehousePath := line.snapshot.warehousePath }

/-- Book one line: batch, item, flow. -/
def applyLine (head : SideHead) (processorId : Nat) (existing : List (Nat × InventoryItem))
    (locked : List InventoryItemLockRow) (line : StockInItem) : Tx Unit := do
  let item ← itemOfLine existing locked line
  let batchId ← batchCreate
    { inventoryItemId := item.1, sourceBatchId := none, consumableId := line.consumableId,
      snapshot := line.snapshot, purchase := line.purchase, remark := none,
      receivedAt := line.receivedAt, remainingQty := line.qty, updatedBy := none }
  inventoryItemUpdate item.1 (fun r => { r with bookQty := r.bookQty + line.qty })
  let _ ← writeStockFlow
    { flowType := .stockIn, direction := .in,
      item :=
        { id := item.1, consumableId := line.consumableId,
          consumableName := line.snapshot.consumableName, spec := line.snapshot.spec,
          warehouseId := some line.warehouseId, warehouseName := line.snapshot.warehouseName,
          warehousePath := line.snapshot.warehousePath, bookQty := item.2, reservedQty := 0 },
      batchId := some batchId, qty := line.qty, bookBefore := item.2,
      bookAfter := item.2 + line.qty, refType := "STOCK_IN", refId := head.id,
      operatorId := processorId, operatorName := head.processorName.getD approvalSystemName }

def applyApproved (head : SideHead) (processorId : Nat) : Tx Unit := do
  let lines ← Txn.query (fun v => linesOf v head.id)
  if lines.isEmpty then pure ()
  else do
    let existing ← Txn.query (fun v => existingItems v lines)
    let locked ← if existing.isEmpty then pure []
      else lockInventoryItems (existing.map (·.1))
    lines.forM fun line => applyLine head processorId existing locked line.2

end StockInService

/-! ## Issuing reserved lines -/

structure ReservedLine where
  inventoryItemId : Nat
  qty : Int

/-- What an issued line writes into its flows. -/
structure IssueKind where
  flowType : StockFlowType
  refType : String
  operatorId : Nat
  operatorName : String

/-- Write one OUT flow per allocation, threading the book through the loop. -/
def writeIssueFlows (kind : IssueKind) (refId : Nat) (row : InventoryItemLockRow) :
    List BatchAllocation → Int → Tx Unit
  | [], _ => pure ()
  | allocation :: rest, before => do
      let after := before - allocation.qty
      let _ ← writeStockFlow
        { flowType := kind.flowType, direction := .out, item := row,
          batchId := some allocation.batchId, qty := allocation.qty, bookBefore := before,
          bookAfter := after, refType := kind.refType, refId := refId,
          operatorId := kind.operatorId, operatorName := kind.operatorName }
      writeIssueFlows kind refId row rest after

/-- Turn the reservation of a line into an issue: allocate batches, lower book and
reservation, write the flows. The row is the one locked before the loop over the lines. -/
def issueLine (kind : IssueKind) (refId : Nat) (locked : List InventoryItemLockRow)
    (line : ReservedLine) : Tx (InventoryItemLockRow × List BatchAllocation) := do
  let row ← Txn.orThrow (lockedById locked line.inventoryItemId) (.of .resourceNotFound)
  Txn.guard (line.qty ≤ row.reservedQty) (.of .stockConflict)
  let allocations ← allocateFifoBatches line.inventoryItemId line.qty
  inventoryItemUpdate line.inventoryItemId
    (fun r => { r with bookQty := r.bookQty - line.qty, reservedQty := r.reservedQty - line.qty })
  writeIssueFlows kind refId row allocations row.bookQty
  pure (row, allocations)

def releaseLines (lines : List ReservedLine) : Tx Unit :=
  lines.forM fun line => inventoryItemRelease line.inventoryItemId line.qty

/-! ## Stock change -/

structure StockChangeRequestItem where
  inventoryItemId : Nat
  changeTypeId : Nat
  reason : String
  qty : Int
  qty_pos : 1 ≤ qty

structure StockChangeRequestCreate where
  items : List StockChangeRequestItem
  changedAt : Option Int
  remark : Option String

structure StockChangeLine where
  inventoryItemId : Nat
  snapshot : StockSnapshot
  changeTypeId : Option Nat
  changeTypeName : Option String
  reason : String
  qty : Int

/-- Reserve a quantity on an item that is locked already. -/
def reserveItem (id : Nat) (qty : Int) : Tx Unit :=
  inventoryItemUpdate id (fun r => { r with reservedQty := r.reservedQty + qty })

namespace StockChangeService

/-- Check one line against the locked row and copy its names. -/
def prepareLine (env : Environment) (locked : List InventoryItemLockRow)
    (item : StockChangeRequestItem) : Tx StockChangeLine := do
  let row ← Txn.orThrow (lockedById locked item.inventoryItemId) (.of .resourceNotFound)
  Txn.guard (item.qty ≤ row.bookQty - row.reservedQty) (.of .insufficientStock)
  let changeType ← loadDictName env item.changeTypeId .changeType
  pure
    { inventoryItemId := item.inventoryItemId, snapshot := row.snapshot,
      changeTypeId := some changeType.1, changeTypeName := some changeType.2,
      reason := item.reason, qty := item.qty }

def submit (env : Environment) (operator : Operator) (dto : StockChangeRequestCreate) :
    Tx (Nat × String) := do
  let itemIds := dto.items.map (·.inventoryItemId)
  Txn.guard (decide itemIds.Nodup) (.of .itemDuplicated)
  let locked ← lockInventoryItems itemIds
  Txn.guard (locked.length == itemIds.length) (.of .resourceNotFound)
  let lines ← dto.items.mapM (prepareLine env locked)
  lines.forM fun line => reserveItem line.inventoryItemId line.qty
  let head ← createRequestHead env
    { requestType := .stockChange, applicantId := operator.id, applicantName := operator.name,
      applicantDepartmentSnapshot := departmentsJson operator.departments, proxyId := none,
      proxyName := none, refRequestId := none, remark := dto.remark }
  lines.forM fun line => do
    let _ ← stockChangeItemCreate
      { requestId := head.1, inventoryItemId := line.inventoryItemId, snapshot := line.snapshot,
        changeTypeId := line.changeTypeId, changeTypeName := line.changeTypeName,
        reason := line.reason, qty := line.qty, changedAt := dto.changedAt.getD env.now }
  pure head

/-- The lines of a stock-change head. -/
def linesOf (v : Store) (requestId : Nat) : List ReservedLine :=
  (v.stockChangeItems.select (fun _ l => l.requestId == requestId)).map
    (fun p => ⟨p.2.inventoryItemId, p.2.qty⟩)

/-- Deductions name the processor, or the applicant where there is none. -/
def issueKind (head : SideHead) : IssueKind where
  flowType := .deduction
  refType := "STOCK_CHANGE"
  operatorId := head.processorId.getD head.applicantId
  operatorName := head.processorName.getD approvalSystemName

def applyApproved (head : SideHead) : Tx Unit := do
  let lines ← Txn.query (fun v => linesOf v head.id)
  let locked ← lockInventoryItems (lines.map (·.inventoryItemId))
  lines.forM fun line => do
    let _ ← issueLine (issueKind head) head.id locked line
    cleanupEmptyItem line.inventoryItemId

def applyRelease (head : SideHead) : Tx Unit := do
  let lines ← Txn.query (fun v => linesOf v head.id)
  releaseLines lines

end StockChangeService

end Wbme.Asset
