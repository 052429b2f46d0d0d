import Wbme.Asset.Claims

/-! # Borrow records

Submitting returns and write-offs, and the two ways a borrowed quantity is
settled: restoring it to the batches it was issued from, newest allocation
first, or writing it off. Both check first how much of the record is still free
of pending actions.
-/

namespace Wbme.Asset

open Lib

abbrev BorrowRecordLockRow := Nat × BorrowRecord

/-- An allocation joined with the item its batch belongs to now. -/
structure AllocationRow where
  id : Nat
  batchId : Nat
  issuedQty : Int
  returnedQty : Int
  inventoryItemId : Nat

def lockBorrowRecord (recordId : Nat) : Tx (Option BorrowRecordLockRow) :=
  Txn.queryForUpdate
    (fun v => if (v.borrowRecords.find? recordId).isSome then [.borrowRecord recordId] else [])
    (fun v => (v.borrowRecords.find? recordId).map (fun r => (recordId, r)))

def lockInventoryItem (itemId : Nat) : Tx (Option InventoryItemLockRow) :=
  Txn.queryForUpdate
    (fun v => ((v.inventoryItems.find? itemId).bind (lockRow v itemId)).toList.flatMap
      (fun row => [.inventoryItem row.id, .consumable row.consumableId]))
    (fun v => (v.inventoryItems.find? itemId).bind (lockRow v itemId))

/-- Is a head a pending return or write-off? -/
def isPendingAction (v : Store) (requestId : Nat) : Bool :=
  (v.approvalRequests.find? requestId).any (fun r =>
    (r.requestType == .return || r.requestType == .writeOff) && r.status == .pending)

/-- Quantity of a record that pending returns and write-offs occupy. -/
def pendingActionQty (v : Store) (recordId : Nat) : Int :=
  v.borrowActionItems.total fun _ l =>
    if l.borrowRecordId = recordId ∧ isPendingAction v l.requestId = true then l.qty else 0

def availableActionQty (record : BorrowRecordLockRow) : Tx Int :=
  Txn.query fun v => record.2.openQty - pendingActionQty v record.1

/-- The allocations of a record, newest first, joined with their batches. -/
def allocationRows (v : Store) (recordId : Nat) : List AllocationRow :=
  ((v.borrowBatchAllocations.select (fun _ a => a.borrowRecordId == recordId)).filterMap
    (fun p => (v.batches.find? p.2.batchId).map (fun b =>
      { id := p.1, batchId := p.2.batchId, issuedQty := p.2.issuedQty,
        returnedQty := p.2.returnedQty, inventoryItemId := b.inventoryItemId }))).reverse

structure RestoreRef where
  refType : String
  refId : Nat
  operatorId : Nat
  operatorName : String

/-- Restore to the allocations one after another; the quantity left over and the flows. -/
def restoreAllocations (ref : RestoreRef) (item : InventoryItemLockRow) :
    List AllocationRow → Int → Int → List Nat → Tx (Int × List Nat)
  | [], remaining, _, flowIds => pure (remaining, flowIds)
  | allocation :: rest, remaining, bookQty, flowIds =>
      if remaining ≤ 0 then pure (remaining, flowIds)
      else if allocation.issuedQty - allocation.returnedQty ≤ 0 then
        restoreAllocations ref item rest remaining bookQty flowIds
      else do
        let take := min (allocation.issuedQty - allocation.returnedQty) remaining
        borrowBatchAllocationUpdate allocation.id
          (fun a => { a with returnedQty := a.returnedQty + take })
        batchUpdate allocation.batchId (fun b => { b with remainingQty := b.remainingQty + take })
        inventoryItemUpdate item.id (fun r => { r with bookQty := r.bookQty + take })
        let flowId ← writeStockFlow
          { flowType := .return, direction := .in, item, batchId := some allocation.batchId,
            qty := take, bookBefore := bookQty, bookAfter := bookQty + take,
            refType := ref.refType, refId := ref.refId, operatorId := ref.operatorId,
            operatorName := ref.operatorName }
        restoreAllocations ref item rest (remaining - take) (bookQty + take)
          (flowIds ++ [flowId])

/-- Do all allocations still belong to the item of the record? -/
def allocationsHome (record : BorrowRecordLockRow) (allocations : List AllocationRow) : Bool :=
  allocations.all (fun a => a.inventoryItemId == record.2.inventoryItemId)

/-- Issued and not returned. -/
def allocatedQty (allocations : List AllocationRow) : Int :=
  (allocations.map (fun a => a.issuedQty - a.returnedQty)).sum

def restoreRecord (record : BorrowRecordLockRow) (qty : Int) (ref : RestoreRef) :
    Tx (List Nat) := do
  let available ← availableActionQty record
  Txn.guard (qty ≤ available) (.of .stockConflict)
  let peekAllocations ← Txn.query (fun v => allocationRows v record.1)
  Txn.guard (!peekAllocations.isEmpty && allocationsHome record peekAllocations)
    (.of .stockConflict)
  let itemRow ← lockInventoryItem record.2.inventoryItemId
  match itemRow with
  | none => .throw (.of .resourceNotFound)
  | some item =>
      let allocations ← Txn.queryForUpdate
        (fun v => (allocationRows v record.1).flatMap
          (fun a => [.borrowBatchAllocation a.id, .batch a.batchId]))
        (fun v => allocationRows v record.1)
      Txn.guard (qty ≤ allocatedQty allocations && allocationsHome record allocations)
        (.of .stockConflict)
      let (remaining, flowIds) ← restoreAllocations ref item allocations qty item.bookQty []
      Txn.guard (remaining ≤ 0) (.of .stockConflict)
      borrowRecordUpdate record.1 (fun r => { r with returnedQty := r.returnedQty + qty })
      pure flowIds

/-- Write a quantity of a locked record off; nothing goes back to stock. -/
def writeOffRecord (record : BorrowRecordLockRow) (qty : Int) : Tx Unit := do
  let available ← availableActionQty record
  Txn.guard (qty ≤ available) (.of .stockConflict)
  borrowRecordUpdate record.1 (fun r => { r with writtenOffQty := r.writtenOffQty + qty })

def lockExistingRecord (recordId : Nat) : Tx BorrowRecordLockRow := do
  let record ← lockBorrowRecord recordId
  Txn.orThrow record (.of .resourceNotFound)

namespace BorrowService

structure BorrowActionRequestItem where
  borrowRecordId : Nat
  qty : Int
  qty_pos : 1 ≤ qty
  writeOffType : Option WriteOffType
  reason : Option String

def ownPersonal (operatorId : Nat) (record : BorrowRecord) : Bool :=
  record.userId == some operatorId && record.recordType == .personal

/-- Lock the record of one item, check whose it is and how much is free. -/
def prepareAction (operator : Operator) (item : BorrowActionRequestItem) : Tx Unit := do
  let record ← lockExistingRecord item.borrowRecordId
  Txn.guard (ownPersonal operator.id record.2) (.of .resourceNotFound)
  let available ← availableActionQty record
  Txn.guard (item.qty ≤ available) (.of .stockConflict)

/-- Submit a return or a write-off. -/
def submitBorrowAction (env : Environment) (operator : Operator) (requestType : RequestType)
    (items : List BorrowActionRequestItem) : Tx (Nat × String) := do
  Txn.guard (decide (items.map (·.borrowRecordId)).Nodup) (.of .itemDuplicated)
  items.forM fun item => prepareAction operator item
  let head ← createRequestHead env
    { requestType, applicantId := operator.id, applicantName := operator.name,
      applicantDepartmentSnapshot := departmentsJson operator.departments, proxyId := none,
      proxyName := none, refRequestId := none, remark := none }
  items.forM fun item => do
    let _ ← borrowActionItemCreate
      { requestId := head.1, borrowRecordId := item.borrowRecordId, qty := item.qty,
        writeOffType := if requestType = .writeOff then item.writeOffType else none,
        reason := item.reason }
  pure head

def submitReturn (env : Environment) (operator : Operator)
    (items : List BorrowActionRequestItem) : Tx (Nat × String) :=
  submitBorrowAction env operator .return items

def submitWriteOff (env : Environment) (operator : Operator)
    (items : List BorrowActionRequestItem) : Tx (Nat × String) :=
  submitBorrowAction env operator .writeOff items

/-- The lines of a return or write-off head. -/
def linesOf (v : Store) (requestId : Nat) : List (Nat × BorrowActionItem) :=
  v.borrowActionItems.select (fun _ l => l.requestId == requestId)

def applyReturnApproved (head : SideHead) : Tx Unit := do
  let items ← Txn.query (fun v => linesOf v head.id)
  items.forM fun item => do
    let record ← lockExistingRecord item.2.borrowRecordId
    let available ← availableActionQty record
    Txn.guard (item.2.qty ≤ available) (.of .stockConflict)
    let _ ← restoreRecord record item.2.qty
      { refType := "RETURN", refId := head.id,
        operatorId := head.processorId.getD head.applicantId,
        operatorName := head.processorName.getD approvalSystemName }

def applyWriteOffApproved (head : SideHead) : Tx Unit := do
  let items ← Txn.query (fun v => linesOf v head.id)
  items.forM fun item => do
    let record ← lockExistingRecord item.2.borrowRecordId
    writeOffRecord record item.2.qty

end BorrowService

/-! ## Settling a whole agent list -/

structure SettlementRequestItem where
  borrowRecordId : Nat
  qty : Int
  qty_pos : 1 ≤ qty
  method : SettleMethod
  writeOffType : Option WriteOffType
  reason : Option String

def openAgentRecords (v : Store) (agentRequestId : Nat) : List (Nat × BorrowRecord) :=
  v.borrowRecords.select (fun _ r => r.recordType == .agent &&
    r.agentRequestId == some agentRequestId && 0 < r.openQty)

def claimedByRecord (items : List SettlementRequestItem) (recordId : Nat) : Int :=
  (items.map (fun item => if item.borrowRecordId = recordId then item.qty else 0)).sum

def itemsOnList (openRecords : List (Nat × BorrowRecord))
    (items : List SettlementRequestItem) : Bool :=
  !openRecords.isEmpty &&
    items.all (fun item => openRecords.any (fun p => p.1 == item.borrowRecordId))

def coversOpenQty (openRecords : List (Nat × BorrowRecord))
    (items : List SettlementRequestItem) : Bool :=
  openRecords.all (fun p => claimedByRecord items p.1 == p.2.openQty)

/-- Read the open records of a list and check that the items settle all of it. -/
def assertCoverage (agentRequestId : Nat) (items : List SettlementRequestItem) : Tx Unit := do
  let openRecords ← Txn.query (fun v => openAgentRecords v agentRequestId)
  Txn.guard (itemsOnList openRecords items) (.of .resourceNotFound)
  Txn.guard (coversOpenQty openRecords items) (.of .settlementCoverageIncomplete)

/-- Lock distinct records in ascending order. -/
def lockRecords (recordIds : List Nat) : Tx (List BorrowRecordLockRow) :=
  (recordIds.dedup.insertionSort (· ≤ ·)).mapM lockExistingRecord

def lockedRecord (locked : List BorrowRecordLockRow) (recordId : Nat) :
    Tx BorrowRecordLockRow :=
  Txn.orThrow (locked.find? (fun p => p.1 == recordId)) (.of .resourceNotFound)

/-- Restore or write off, as the line says. -/
def settleRecord (record : BorrowRecordLockRow) (qty : Int) (method : SettleMethod)
    (ref : RestoreRef) : Tx (List Nat) :=
  match method with
  | .return => restoreRecord record qty ref
  | .writeOff => do
      writeOffRecord record qty
      pure []

namespace AgentSettlementService

def submit (env : Environment) (operator : Operator) (refRequestId : Nat)
    (items : List SettlementRequestItem) : Tx (Nat × String) := do
  let source ← Txn.query (fun v => v.approvalRequests.find? refRequestId)
  Txn.guard (source.any (fun r => r.requestType == .agentRequest &&
    r.applicantId == operator.id)) (.of .resourceNotFound)
  assertCoverage refRequestId items
  let head ← createRequestHead env
    { requestType := .agentSettlement, applicantId := operator.id,
      applicantName := operator.name,
      applicantDepartmentSnapshot := departmentsJson operator.departments, proxyId := none,
      proxyName := none, refRequestId := some refRequestId, remark := none }
  items.forM fun item => do
    let _ ← agentSettlementItemCreate
      { requestId := head.1, borrowRecordId := item.borrowRecordId, qty := item.qty,
        method := item.method,
        writeOffType := if item.method = .writeOff then item.writeOffType else none,
        reason := item.reason }
  pure head

def linesOf (v : Store) (requestId : Nat) : List (Nat × AgentSettlementItem) :=
  v.agentSettlementItems.select (fun _ l => l.requestId == requestId)

def applyApproved (head : SideHead) (processorId : Nat) : Tx Unit := do
  let items ← Txn.query (fun v => linesOf v head.id)
  let locked ← lockRecords (items.map (·.2.borrowRecordId))
  items.forM fun item => do
    let record ← lockedRecord locked item.2.borrowRecordId
    let _ ← settleRecord record item.2.qty item.2.method
      { refType := "AGENT_SETTLEMENT", refId := head.id, operatorId := processorId,
        operatorName := head.processorName.getD approvalSystemName }

end AgentSettlementService

end Wbme.Asset
