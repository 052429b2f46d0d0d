import Wbme.Asset.Statements

/-! # Inventory core

The shared stock tools: locking items in ascending order, first-in-first-out
allocation of batches, the append-only stock flow, the removal of empty items,
warehouse paths, and locking or creating the item of a consumable, specification
and warehouse.
-/

namespace Wbme.Asset

open Lib

structure InventoryItemLockRow where
  id : Nat
  consumableId : Nat
  consumableName : String
  spec : String
  warehouseId : Option Nat
  warehouseName : String
  warehousePath : String
  bookQty : Int
  reservedQty : Int

/-- The name columns a flow copies from the item. -/
def InventoryItemLockRow.snapshot (row : InventoryItemLockRow) : StockSnapshot :=
  ⟨row.consumableName, row.spec, row.warehouseName, row.warehousePath⟩

/-- One segment of a first-in-first-out allocation. -/
structure BatchAllocation where
  batchId : Nat
  qty : Int

def lockRow (v : Store) (id : Nat) (r : InventoryItem) : Option InventoryItemLockRow :=
  (v.consumables.find? r.consumableId).map fun c =>
    { id, consumableId := r.consumableId, consumableName := c.name, spec := r.spec,
      warehouseId := r.warehouseId, warehouseName := r.warehouseName,
      warehousePath := r.warehousePath, bookQty := r.bookQty, reservedQty := r.reservedQty }

/-- The inner join of items and consumables, in ascending item order. -/
def lockRows (v : Store) (ids : List Nat) : List InventoryItemLockRow :=
  (v.inventoryItems.select (fun id _ => ids.contains id)).filterMap (fun p => lockRow v p.1 p.2)

/-- Lock items `FOR UPDATE`, in ascending order; the join locks the consumables too. -/
def lockInventoryItems (ids : List Nat) : Tx (List InventoryItemLockRow) :=
  Txn.queryForUpdate
    (fun v => (lockRows v ids).flatMap
      (fun row => [.inventoryItem row.id, .consumable row.consumableId]))
    (fun v => lockRows v ids)

def lockedById (locked : List InventoryItemLockRow) (id : Nat) : Option InventoryItemLockRow :=
  locked.find? (fun row => row.id == id)

/-- Batches are consumed by time of receipt, then by key. -/
def fifoBefore (a b : Nat × Batch) : Prop :=
  a.2.receivedAt < b.2.receivedAt ∨ (a.2.receivedAt = b.2.receivedAt ∧ a.1 ≤ b.1)

instance : DecidableRel fifoBefore := fun _ _ => inferInstanceAs (Decidable (_ ∨ _))

/-- The batches of an item that have anything left, in consumption order. -/
def fifoRows (v : Store) (itemId : Nat) : List (Nat × Batch) :=
  (v.batches.select (fun _ b => b.inventoryItemId == itemId && 0 < b.remainingQty)).insertionSort
    fifoBefore

/-- Take from the batches one after another until nothing remains to be taken. -/
def takeBatches : List (Nat × Batch) → Int → List BatchAllocation → Tx (List BatchAllocation)
  | [], remaining, allocations =>
      if 0 < remaining then .throw (.of .insufficientStock) else pure allocations
  | row :: rows, remaining, allocations =>
      if remaining ≤ 0 then pure allocations
      else do
        let take := min row.2.remainingQty remaining
        batchTake row.1 take
        takeBatches rows (remaining - take) (allocations ++ [⟨row.1, take⟩])

def allocateFifoBatches (itemId : Nat) (qty : Int) : Tx (List BatchAllocation) := do
  let rows ← Txn.queryForUpdate (fun v => (fifoRows v itemId).map (fun p => .batch p.1))
    (fun v => fifoRows v itemId)
  takeBatches rows qty []

structure StockFlowInput where
  flowType : StockFlowType
  direction : FlowDirection
  item : InventoryItemLockRow
  batchId : Option Nat
  qty : Int
  bookBefore : Int
  bookAfter : Int
  refType : String
  refId : Nat
  operatorId : Nat
  operatorName : String

def writeStockFlow (flow : StockFlowInput) : Tx Nat :=
  stockFlowCreate
    { flowType := flow.flowType, direction := flow.direction, inventoryItemId := flow.item.id,
      batchId := flow.batchId, snapshot := flow.item.snapshot, qty := flow.qty,
      bookBefore := flow.bookBefore, bookAfter := flow.bookAfter, refType := flow.refType,
      refId := flow.refId, operatorId := flow.operatorId, operatorName := flow.operatorName }

def hasOpenBorrow (v : Store) (itemId : Nat) : Bool :=
  !(v.borrowRecords.select (fun _ r => r.inventoryItemId == itemId &&
    r.returnedQty + r.writtenOffQty < r.qty)).isEmpty

/-- May the item be removed: nothing on the books, nothing reserved, nothing borrowed. -/
def removable (v : Store) (itemId : Nat) : Bool :=
  (v.inventoryItems.find? itemId).any (fun r => r.bookQty == 0 && r.reservedQty == 0) &&
    !hasOpenBorrow v itemId

def cleanupEmptyItem (itemId : Nat) : Tx Unit :=
  Txn.exec (fun v => if removable v itemId then [.inventoryItem itemId] else []) fun v s =>
    if removable v itemId then
      { s with inventoryItems := s.inventoryItems.deleteMany (fun id _ => id == itemId) }
    else s

/-! ## Warehouses -/

/-- An active warehouse with the path of its ancestors' names. -/
structure WarehousePathRow where
  id : Nat
  name : String
  path : String

/-- Climb the parents, at most as many as the fuel allows; only the first node has to be
active. -/
def climbWarehouses (env : Environment) : Nat → Bool → Option Nat → List String →
    Option (List String)
  | 0, _, _, names => some names
  | _ + 1, _, none, names => some names
  | fuel + 1, first, some id, names =>
      match env.warehouse id with
      | none => none
      | some row =>
          if first && !row.active then none
          else climbWarehouses env fuel false row.parentId (row.name :: names)

def loadWarehouseWithPath (env : Environment) (warehouseId : Option Nat) :
    Option WarehousePathRow :=
  match warehouseId with
  | none => none
  | some id =>
      (climbWarehouses env 64 true (some id) []).map fun names =>
        ⟨id, names.getLast?.getD "", String.intercalate "/" names⟩

/-! ## Lock or create -/

structure ItemKey where
  consumableId : Nat
  spec : String
  warehouseId : Option Nat
  warehouseName : String
  warehousePath : String

def itemsOfKey (v : Store) (consumableId : Nat) (spec : String) (warehouseId : Option Nat) :
    List (Nat × InventoryItem) :=
  v.inventoryItems.select (fun _ r => r.consumableId == consumableId && r.spec == spec &&
    r.warehouseId == warehouseId)

/-- The unique index compares a missing warehouse as zero. -/
def itemKeyTaken (v : Store) (key : ItemKey) : Bool :=
  !(v.inventoryItems.select (fun _ r => r.consumableId == key.consumableId &&
    r.spec == key.spec && r.warehouseId.getD 0 == key.warehouseId.getD 0)).isEmpty

def lockItemOfKey (key : ItemKey) : Tx (Option (Nat × Int)) :=
  Txn.queryForUpdate
    (fun v => (itemsOfKey v key.consumableId key.spec key.warehouseId).map
      (fun p => .inventoryItem p.1))
    (fun v => ((itemsOfKey v key.consumableId key.spec key.warehouseId).head?).map
      (fun p => (p.1, p.2.bookQty)))

/-- Insert the item of a key; `none` when the unique index refuses it. -/
def inventoryItemCreate (key : ItemKey) : Tx (Option Nat) := do
  let id ← Txn.nextId
  Txn.act
    (fun _ => [.inventoryKey key.consumableId key.spec (key.warehouseId.getD 0)]) fun v =>
    if itemKeyTaken v key then .ok (none, fun s => s)
    else if (v.consumables.find? key.consumableId).isNone then
      .error (.foreignKeyViolation "inventory_items_consumable_id_fkey")
    else
      .ok (some id, fun s =>
        { s with
          inventoryItems := s.inventoryItems.insert id
            { consumableId := key.consumableId, spec := key.spec,
              warehouseId := key.warehouseId, warehouseName := key.warehouseName,
              warehousePath := key.warehousePath, bookQty := 0, reservedQty := 0 } })

/-- Lock the item of a key, or create it; after a lost insert, read it again. -/
def lockOrCreateItem (key : ItemKey) : Tx (Nat × Int) := do
  match ← lockItemOfKey key with
  | some found => pure found
  | none =>
      match ← inventoryItemCreate key with
      | some id => pure (id, 0)
      | none =>
          match ← lockItemOfKey key with
          | some found => pure found
          | none => .throw (.uniqueViolation "inventory_items_consumable_spec_warehouse_unique")

end Wbme.Asset
