import Wbme.Asset.StockRequests

/-! # Transfers and batch corrections

A transfer takes from the source batches first in first out and creates one
child batch per segment at the target. A correction edits a batch; a change of
specification or warehouse moves the whole batch to another item, and is allowed
only while the batch has no flow but its stock-in and its item reserves nothing.
-/

namespace Wbme.Asset

open Lib

abbrev TargetItem := Nat × Int

def lockedCandidate (locked : List InventoryItemLockRow) (candidate : Option Nat) :
    Tx (Option TargetItem) :=
  match candidate with
  | none => pure none
  | some id => do
      let row ← Txn.orThrow (lockedById locked id) (.of .resourceNotFound)
      pure (some (row.id, row.bookQty))

def orLockOrCreate (target : Option TargetItem) (key : ItemKey) : Tx TargetItem :=
  match target with
  | some found => pure found
  | none => lockOrCreateItem key

namespace TransferService

structure InventoryTransferCreate where
  fromInventoryItemId : Nat
  toWarehouseId : Nat
  qty : Int
  qty_pos : 1 ≤ qty
  remark : Option String

structure TransferResult where
  transferId : Nat
  fromInventoryItemId : Nat
  toInventoryItemId : Nat
  qty : Int

def targetRow (source : InventoryItemLockRow) (warehouse : WarehousePathRow)
    (target : TargetItem) : InventoryItemLockRow :=
  { id := target.1, consumableId := source.consumableId, consumableName := source.consumableName,
    spec := source.spec, warehouseId := some warehouse.id, warehouseName := warehouse.name,
    warehousePath := warehouse.path, bookQty := target.2, reservedQty := 0 }

def moveSegment (operator : Operator) (transferId : Nat) (source : InventoryItemLockRow)
    (warehouse : WarehousePathRow) (target : TargetItem) (allocation : BatchAllocation)
    (outBefore inBefore : Int) : Tx Unit := do
  let sourceBatch ← Txn.query (fun v => v.batches.find? allocation.batchId)
  match sourceBatch with
  | none => .throw (.of .resourceNotFound)
  | some batch =>
      let subBatchId ← batchCreate
        { inventoryItemId := target.1, sourceBatchId := some allocation.batchId,
          consumableId := batch.consumableId,
          snapshot := ⟨batch.snapshot.consumableName, batch.snapshot.spec, warehouse.name,
            warehouse.path⟩,
          purchase := batch.purchase, remark := none, receivedAt := batch.receivedAt,
          remainingQty := allocation.qty, updatedBy := none }
      let _ ← transferBatchItemCreate
        { transferId, sourceBatchId := allocation.batchId, targetBatchId := subBatchId,
          qty := allocation.qty }
      inventoryItemUpdate source.id (fun r => { r with bookQty := r.bookQty - allocation.qty })
      inventoryItemUpdate target.1 (fun r => { r with bookQty := r.bookQty + allocation.qty })
      let _ ← writeStockFlow
        { flowType := .transferOut, direction := .out, item := source,
          batchId := some allocation.batchId, qty := allocation.qty, bookBefore := outBefore,
          bookAfter := outBefore - allocation.qty, refType := "TRANSFER", refId := transferId,
          operatorId := operator.id, operatorName := operator.name }
      let _ ← writeStockFlow
        { flowType := .transferIn, direction := .in, item := targetRow source warehouse target,
          batchId := some subBatchId, qty := allocation.qty, bookBefore := inBefore,
          bookAfter := inBefore + allocation.qty, refType := "TRANSFER", refId := transferId,
          operatorId := operator.id, operatorName := operator.name }

/-- Move the segments in order, threading both books. -/
def moveSegments (operator : Operator) (transferId : Nat) (source : InventoryItemLockRow)
    (warehouse : WarehousePathRow) (target : TargetItem) :
    List BatchAllocation → Int → Int → Tx Unit
  | [], _, _ => pure ()
  | allocation :: rest, outBefore, inBefore => do
      moveSegment operator transferId source warehouse target allocation outBefore inBefore
      moveSegments operator transferId source warehouse target rest
        (outBefore - allocation.qty) (inBefore + allocation.qty)

/-- Did the source keep its consumable, specification and warehouse while it was locked? -/
def sameSource (peek : InventoryItem) (row : InventoryItemLockRow) : Bool :=
  row.consumableId == peek.consumableId && row.spec == peek.spec &&
    row.warehouseId == peek.warehouseId

def targetWarehouse (env : Environment) (peek : InventoryItem) (toWarehouseId : Nat) :
    Tx WarehousePathRow :=
  match loadWarehouseWithPath env (some toWarehouseId) with
  | none => .throw (.of .locationInvalidTarget)
  | some warehouse =>
      if some warehouse.id = peek.warehouseId then .throw (.of .locationInvalidTarget)
      else pure warehouse

def create (env : Environment) (operator : Operator) (dto : InventoryTransferCreate) :
    Tx TransferResult := do
  let found ← Txn.query (fun v => v.inventoryItems.find? dto.fromInventoryItemId)
  let sourcePeek ← Txn.orThrow found (.of .resourceNotFound)
  let warehouse ← targetWarehouse env sourcePeek dto.toWarehouseId
  let targetCandidate ← Txn.query (fun v =>
    ((itemsOfKey v sourcePeek.consumableId sourcePeek.spec (some warehouse.id)).head?).map (·.1))
  let lockedItems ← lockInventoryItems (dto.fromInventoryItemId :: targetCandidate.toList)
  let sourceItem ← Txn.orThrow (lockedById lockedItems dto.fromInventoryItemId)
    (.of .resourceNotFound)
  Txn.guard (sameSource sourcePeek sourceItem)
    (.because .validationFailed "来源条目已被并发修改，请重试")
  let lockedTarget ← lockedCandidate lockedItems targetCandidate
  Txn.guard (0 < sourceItem.bookQty && dto.qty ≤ sourceItem.bookQty - sourceItem.reservedQty)
    (.of .stockConflict)
  let allocations ← allocateFifoBatches sourceItem.id dto.qty
  let target ← orLockOrCreate lockedTarget
    { consumableId := sourceItem.consumableId, spec := sourceItem.spec,
      warehouseId := some warehouse.id, warehouseName := warehouse.name,
      warehousePath := warehouse.path }
  let transferId ← inventoryTransferCreate
    { fromInventoryItemId := sourceItem.id, toInventoryItemId := target.1,
      fromWarehouseName := sourceItem.warehouseName,
      fromWarehousePath := sourceItem.warehousePath, toWarehouseName := warehouse.name,
      toWarehousePath := warehouse.path, qty := dto.qty, remark := dto.remark,
      operatorId := operator.id, operatorName := operator.name }
  moveSegments operator transferId sourceItem warehouse target allocations sourceItem.bookQty
    target.2
  cleanupEmptyItem sourceItem.id
  pure ⟨transferId, sourceItem.id, target.1, dto.qty⟩

end TransferService

namespace InventoryService

structure BatchCorrectionInput where
  reason : String
  supplierId : Option Nat
  brandId : Option Nat
  unitPrice : Option String
  remark : Option String
  spec : Option String
  warehouseId : Option Nat

/-- The locked batch differs from the one read before locking. -/
def batchMoved (peek batch : Batch) : Bool :=
  batch.inventoryItemId != peek.inventoryItemId || batch.snapshot.spec != peek.snapshot.spec ||
    batch.snapshot.warehouseName != peek.snapshot.warehouseName

/-- A missing item: the batch has moved meanwhile, or it is gone too. -/
def itemGone (batchId : Nat) {α : Type} : Tx α := do
  let batch ← Txn.query (fun v => v.batches.find? batchId)
  match batch with
  | some _ => .throw (.because .validationFailed "批次资料已被并发修改，请重试")
  | none => .throw (.of .resourceNotFound)

/-- The value of an option, or the report of a missing item. -/
def orItemGone {α : Type} (o : Option α) (batchId : Nat) : Tx α :=
  match o with
  | some a => pure a
  | none => itemGone batchId

/-- Supplier or brand of a correction: untouched, cleared by zero, or looked up. -/
def loadCorrectedDict (env : Environment) (dictId : Option Nat) (dictType : AssetDictType) :
    Tx (Option (Nat × String)) :=
  match dictId with
  | none => pure none
  | some id =>
      if id = 0 then pure none
      else do
        let item ← loadDictName env id dictType
        pure (some item)

/-- An input field that is present replaces the id. -/
def correctedId (input old : Option Nat) : Option Nat :=
  match input with
  | none => old
  | some id => if id = 0 then none else some id

/-- An input field that is present replaces the name. -/
def correctedName (input : Option Nat) (item : Option (Nat × String)) (old : Option String) :
    Option String :=
  match input with
  | none => old
  | some _ => item.map (·.2)

def hasLaterFlow (v : Store) (batchId : Nat) : Bool :=
  !(v.stockFlows.select (fun _ f => f.batchId == some batchId &&
    f.flowType != .stockIn)).isEmpty

def correctionFlow (operator : Operator) (batchId itemId : Nat) (direction : FlowDirection)
    (snapshot : StockSnapshot) (qty bookBefore bookAfter : Int) : StockFlow where
  flowType := .correction
  direction := direction
  inventoryItemId := itemId
  batchId := some batchId
  snapshot := snapshot
  qty := qty
  bookBefore := bookBefore
  bookAfter := bookAfter
  refType := "batch-correction"
  refId := batchId
  operatorId := operator.id
  operatorName := operator.name

def moveBatch (operator : Operator) (batchId : Nat) (batch : Batch)
    (source : InventoryItemLockRow) (target : TargetItem) (spec : String)
    (warehouse : WarehousePathRow) : Tx Unit := do
  let moved := batch.remainingQty
  if target.1 ≠ source.id ∧ 0 < moved then do
    inventoryItemUpdate source.id (fun r => { r with bookQty := r.bookQty - moved })
    inventoryItemUpdate target.1 (fun r => { r with bookQty := r.bookQty + moved })
    let _ ← stockFlowCreate (correctionFlow operator batchId source.id .out batch.snapshot moved
      source.bookQty (source.bookQty - moved))
    let _ ← stockFlowCreate (correctionFlow operator batchId target.1 .in
      ⟨batch.snapshot.consumableName, spec, warehouse.name, warehouse.path⟩ moved target.2
      (target.2 + moved))
    batchUpdate batchId (fun b =>
      { b with
        inventoryItemId := target.1,
        snapshot := ⟨b.snapshot.consumableName, spec, warehouse.name, warehouse.path⟩ })
    cleanupEmptyItem source.id
  else pure ()

/-- A change of specification or warehouse: allowed only before any later flow and without a
reservation. The result is the warehouse's name and path. -/
def correctPlace (env : Environment) (operator : Operator) (batchId : Nat) (batch : Batch)
    (source : InventoryItemLockRow) (lockedTarget : Option TargetItem) (finalSpec : String)
    (finalWarehouseId : Option Nat) : Tx (String × String) := do
  let later ← Txn.query (fun v => hasLaterFlow v batchId)
  Txn.guard (!later && source.reservedQty ≤ 0) (.of .batchCorrectionForbidden)
  let warehouse ← Txn.orThrow (loadWarehouseWithPath env finalWarehouseId)
    (.because .validationFailed "目标库位不存在或已停用")
  let target ← orLockOrCreate lockedTarget
    { consumableId := batch.consumableId, spec := finalSpec, warehouseId := some warehouse.id,
      warehouseName := warehouse.name, warehousePath := warehouse.path }
  moveBatch operator batchId batch source target finalSpec warehouse
  pure (warehouse.name, warehouse.path)

/-- The item a changed place points to, looked up without locking. -/
def findCandidate (peek : Batch) (sourceWarehouseId : Option Nat)
    (input : BatchCorrectionInput) : Tx (Option Nat) :=
  let spec := input.spec.getD peek.snapshot.spec
  let warehouseId := input.warehouseId.or sourceWarehouseId
  if spec ≠ peek.snapshot.spec ∨ warehouseId ≠ sourceWarehouseId then
    Txn.query fun v => ((itemsOfKey v peek.consumableId spec warehouseId).head?).map (·.1)
  else pure none

def correctBatch (env : Environment) (operator : Operator) (batchId : Nat)
    (input : BatchCorrectionInput) : Tx Unit := do
  let foundBatch ← Txn.query (fun v => v.batches.find? batchId)
  let peek ← Txn.orThrow foundBatch (.of .resourceNotFound)
  let foundItem ← Txn.query (fun v => v.inventoryItems.find? peek.inventoryItemId)
  let sourcePeek ← orItemGone foundItem batchId
  let targetCandidate ← findCandidate peek sourcePeek.warehouseId input
  let lockedItems ← lockInventoryItems (peek.inventoryItemId :: targetCandidate.toList)
  let source ← orItemGone (lockedById lockedItems peek.inventoryItemId) batchId
  let lockedTarget ← lockedCandidate lockedItems targetCandidate
  let lockedBatch ← Txn.queryForUpdate (fun _ => [.batch batchId])
    (fun v => v.batches.find? batchId)
  let batch ← Txn.orThrow lockedBatch (.of .resourceNotFound)
  Txn.guard (!batchMoved peek batch) (.because .validationFailed "批次资料已被并发修改，请重试")
  let supplier ← loadCorrectedDict env input.supplierId .supplier
  let brand ← loadCorrectedDict env input.brandId .brand
  let purchase : PurchaseInfo :=
    { supplierId := correctedId input.supplierId batch.purchase.supplierId,
      supplierName := correctedName input.supplierId supplier batch.purchase.supplierName,
      brandId := correctedId input.brandId batch.purchase.brandId,
      brandName := correctedName input.brandId brand batch.purchase.brandName,
      unitPrice :=
        match input.unitPrice with
        | none => batch.purchase.unitPrice
        | some price => if price = "" then none else some price }
  let finalRemark := input.remark.or batch.remark
  let finalSpec := input.spec.getD batch.snapshot.spec
  let finalWarehouseId := input.warehouseId.or source.warehouseId
  let place ←
    if finalSpec ≠ batch.snapshot.spec ∨ finalWarehouseId ≠ source.warehouseId then
      correctPlace env operator batchId batch source lockedTarget finalSpec finalWarehouseId
    else pure (batch.snapshot.warehouseName, batch.snapshot.warehousePath)
  batchUpdate batchId (fun b =>
    { b with
      purchase, remark := finalRemark,
      snapshot := ⟨b.snapshot.consumableName, finalSpec, place.1, place.2⟩,
      updatedBy := some operator.id })
  let _ ← batchCorrectionCreate
    { batchId,
      before := ⟨batch.purchase, batch.remark, batch.snapshot.spec, source.warehouseId,
        batch.snapshot.warehouseName⟩,
      after := ⟨purchase, finalRemark, finalSpec, finalWarehouseId, place.1⟩,
      reason := input.reason, operatorId := operator.id, operatorName := operator.name }
  pure ()

end InventoryService

end Wbme.Asset
