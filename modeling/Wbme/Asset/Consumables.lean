import Wbme.Asset.InventoryCore

/-! # Consumables

Creating, editing and deleting consumables. The type never changes; the unit is
locked once stock facts exist; deletion is refused while stock, open borrow
records or pending lines refer to the consumable, and takes its empty items with
it.
-/

namespace Wbme.Asset.ConsumableService

open Lib

structure ConsumableInput where
  name : String
  categoryId : Option Nat
  unitId : Option Nat
  type : ConsumableType
  quotaCycle : Option QuotaCycle
  quotaLimit : Option Int
  returnDays : Option Int
  maxHolding : Option Int
  referencePrice : Option String
  safetyStock : Int
  imageOssKey : Option String
  remark : Option String
  status : Option DictStatus

def assertTypeParams (input : ConsumableInput) : Tx Unit := do
  Txn.guard (!(input.type == .disposable && (input.quotaCycle.isNone || input.quotaLimit.isNone)))
    (.because .validationFailed "一次性用品必须填写申领上限周期与数量上限")
  Txn.guard (!(input.type == .reusable && (input.returnDays.isNone || input.maxHolding.isNone)))
    (.because .validationFailed "借还用品必须填写归还期限与同时持有上限")

/-- An active category of consumables, or the one the row already has. -/
def loadCategory (env : Environment) (categoryId currentId : Option Nat) :
    Tx (Option (Nat × String)) :=
  match categoryId with
  | none => pure none
  | some id =>
      match (env.category id).filter (fun c =>
          c.underConsumables && (c.active || currentId == some id)) with
      | some category => pure (some (id, category.name))
      | none => .throw (.because .validationFailed "分类不存在、不是消耗品分类或已停用")

/-- An active unit, or the one the row already has. -/
def loadUnit (env : Environment) (unitId currentId : Option Nat) : Tx (Option (Nat × String)) :=
  match unitId with
  | none => pure none
  | some id =>
      match (env.dictItem id).filter (fun d =>
          d.dictType == .unit && (d.active || currentId == some id)) with
      | some unit => pure (some (id, unit.name))
      | none => .throw (.because .validationFailed "单位不存在、不是单位类型或已停用")

def typeChecks (row : Consumable) : List (Bool × Failure) :=
  [(row.type == .disposable && (row.quotaCycle.isNone || row.quotaLimit.isNone),
      .checkViolation "consumables_disposable_quota_check"),
    (row.type == .reusable && (row.returnDays.isNone || row.maxHolding.isNone),
      .checkViolation "consumables_reusable_terms_check")]

/-- Is the name used by a row other than the given one? -/
def nameTaken (v : Store) (name : String) (except : Option Nat) : Bool :=
  !(v.consumables.select (fun id c => c.name == name && some id != except)).isEmpty

def priceOf (price : Option String) : Option String := price.filter (· != "")

def create (env : Environment) (input : ConsumableInput) : Tx Nat := do
  assertTypeParams input
  let category ← loadCategory env input.categoryId none
  let unit ← loadUnit env input.unitId none
  let row : Consumable :=
    { name := input.name, categoryId := category.map (·.1), categoryName := category.map (·.2),
      unitId := unit.map (·.1), unitName := (unit.map (·.2)).getD "", type := input.type,
      quotaCycle := input.quotaCycle, quotaLimit := input.quotaLimit,
      returnDays := input.returnDays, maxHolding := input.maxHolding,
      referencePrice := priceOf input.referencePrice, safetyStock := input.safetyStock,
      imageOssKey := input.imageOssKey, remark := input.remark, status := .active }
  Asset.create (fun _ => [.consumableName input.name])
    (fun v => typeChecks row ++
      [(nameTaken v input.name none, .because .validationFailed "品种名称已存在")])
    (fun id s => { s with consumables := s.consumables.insert id row })

/-- Does the item belong to one of the consumables? -/
def itemOf (v : Store) (ids : List Nat) (itemId : Nat) : Bool :=
  (v.inventoryItems.find? itemId).any (fun i => ids.contains i.consumableId)

def isPending (v : Store) (requestId : Nat) : Bool :=
  (v.approvalRequests.find? requestId).any (fun r => r.status == .pending)

/-- Pending claim and stock-change lines on items of the consumables. -/
def pendingStockLines (v : Store) (ids : List Nat) : Nat :=
  (v.consumableRequestItems.select (fun _ l =>
      itemOf v ids l.inventoryItemId && isPending v l.requestId)).length +
    (v.stockChangeItems.select (fun _ l =>
      itemOf v ids l.inventoryItemId && isPending v l.requestId)).length

/-- Batches, stock-in lines, flows or pending lines of a consumable. -/
def hasBusinessFacts (v : Store) (id : Nat) : Bool :=
  0 < (v.batches.select (fun _ b => b.consumableId == id)).length +
    (v.stockInItems.select (fun _ l => l.consumableId == id)).length +
    (v.stockFlows.select (fun _ f => itemOf v [id] f.inventoryItemId)).length +
    pendingStockLines v [id]

def update (env : Environment) (id : Nat) (input : ConsumableInput) : Tx Unit := do
  assertTypeParams input
  let found ← Txn.query (fun v => v.consumables.find? id)
  let existing ← Txn.orThrow found (.of .resourceNotFound)
  Txn.guard (input.type == existing.type)
    (.because .validationFailed "品种类型创建后不可变更")
  let facts ← Txn.query (fun v => hasBusinessFacts v id)
  -- a missing unit in the input never equals the stored one
  Txn.guard (!((input.unitId.isNone || input.unitId != existing.unitId) && facts))
    (.of .unitLocked)
  let category ← loadCategory env input.categoryId existing.categoryId
  let unit ← loadUnit env input.unitId existing.unitId
  let edit : Consumable → Consumable := fun row =>
    { row with
      name := input.name, categoryId := category.map (·.1), categoryName := category.map (·.2),
      unitId := unit.map (·.1), unitName := (unit.map (·.2)).getD "",
      quotaCycle := input.quotaCycle, quotaLimit := input.quotaLimit,
      returnDays := input.returnDays, maxHolding := input.maxHolding,
      referencePrice := priceOf input.referencePrice, safetyStock := input.safetyStock,
      imageOssKey := input.imageOssKey, remark := input.remark,
      status := input.status.getD .active }
  Txn.act (fun _ => [.consumable id, .consumableName input.name]) fun v =>
    match v.consumables.find? id with
    | none => .error (.recordMissing "consumables")
    | some row =>
        match firstViolated (typeChecks (edit row) ++
          [(nameTaken v input.name (some id), .uniqueViolation "consumables_name_key")]) with
        | some e => .error e
        | none => .ok ((), fun s => { s with consumables := s.consumables.update id edit })

/-- Stock, open borrow records and pending lines of the consumables. -/
def countReferenced (v : Store) (ids : List Nat) : Nat :=
  (v.inventoryItems.select (fun _ i => ids.contains i.consumableId &&
      (0 < i.bookQty || 0 < i.reservedQty))).length +
    (v.borrowRecords.select (fun _ r => itemOf v ids r.inventoryItemId &&
      0 < r.openQty)).length +
    (v.stockInItems.select (fun _ l => ids.contains l.consumableId &&
      isPending v l.requestId)).length +
    pendingStockLines v ids

def deleteItemsOf (ids : List Nat) : Tx Unit :=
  Txn.exec
    (fun v => (v.inventoryItems.select (fun _ i => ids.contains i.consumableId)).map
      (fun p => .inventoryItem p.1))
    (fun v s =>
      let doomed := (v.inventoryItems.select (fun _ i => ids.contains i.consumableId)).map (·.1)
      { s with inventoryItems := s.inventoryItems.deleteMany (fun id _ => doomed.contains id) })

/-- `deleteMany` on the consumables; items that still refer to one forbid it. -/
def deleteConsumables (ids : List Nat) : Tx Nat :=
  Txn.act
    (fun v => (v.consumables.select (fun id _ => ids.contains id)).map (fun p => .consumable p.1))
    fun v =>
      if (v.inventoryItems.select (fun _ i => ids.contains i.consumableId)).isEmpty then
        .ok ((v.consumables.select (fun id _ => ids.contains id)).length, fun s =>
          { s with consumables := s.consumables.deleteMany (fun id _ => ids.contains id) })
      else .error (.foreignKeyViolation "inventory_items_consumable_id_fkey")

def batchDelete (ids : List Nat) : Tx Nat := do
  let rows ← Txn.query (fun v => v.consumables.select (fun id _ => ids.contains id))
  Txn.guard (rows.length == ids.length) (.of .resourceNotFound)
  let referenced ← Txn.query (fun v => countReferenced v ids)
  Txn.guard (referenced == 0)
    (.business .consumableReferenced [("referenced", toString referenced)])
  deleteItemsOf ids
  deleteConsumables ids

end Wbme.Asset.ConsumableService
