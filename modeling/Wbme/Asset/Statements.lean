import Wbme.Asset.Store

/-! # Statements of the asset store

One definition per kind of write the services issue, with the constraints the
database checks when it executes it. An insert takes its key from the sequence;
an update by key fails when the row is missing; a conditional update reports how
many rows it hit. Reads are issued where they are used.
-/

namespace Wbme.Asset

open Lib Approval

/-! ## Inserts -/

def firstViolated (checks : List (Bool × Failure)) : Option Failure :=
  (checks.find? (·.1)).map (·.2)

/-- Insert a row under a fresh key, unless it violates a constraint. -/
def create (locks : Store → List Lock) (checks : Store → List (Bool × Failure))
    (put : Nat → Store → Store) : Tx Nat := do
  let id ← Txn.nextId
  Txn.act locks fun v =>
    match firstViolated (checks v) with
    | some e => .error e
    | none => .ok (id, put id)

/-- The foreign key of a row that belongs to an approval head. -/
def requestMissing (v : Store) (requestId : Nat) (constraint : String) : Bool × Failure :=
  ((v.approvalRequests.find? requestId).isNone, .foreignKeyViolation constraint)

def stockFlowCreate (row : StockFlow) : Tx Nat :=
  create (fun _ => [])
    (fun _ => [(!(0 < row.qty && 0 ≤ row.bookBefore && 0 ≤ row.bookAfter),
      .checkViolation "stock_flows_qty_check")])
    (fun id s => { s with stockFlows := s.stockFlows.insert id row })

def batchCreate (row : Batch) : Tx Nat :=
  create (fun _ => [])
    (fun _ => [(!(0 ≤ row.remainingQty), .checkViolation "batches_remaining_qty_check")])
    (fun id s => { s with batches := s.batches.insert id row })

def approvalActionCreate (row : ApprovalActionRecord) : Tx Nat :=
  create (fun _ => [])
    (fun v => [requestMissing v row.requestId "approval_actions_request_id_fkey"])
    (fun id s => { s with approvalActions := s.approvalActions.insert id row })

def stockInItemCreate (row : StockInItem) : Tx Nat :=
  create (fun _ => [])
    (fun v =>
      [(!(0 < row.qty), .checkViolation "stock_in_items_qty_check"),
        (!(v.stockInItems.select (fun _ l => l.requestId == row.requestId &&
            l.consumableId == row.consumableId && l.snapshot.spec == row.snapshot.spec &&
            l.warehouseId == row.warehouseId)).isEmpty,
          .uniqueViolation "stock_in_items_request_id_consumable_id_spec_warehouse_id_key"),
        requestMissing v row.requestId "stock_in_items_request_id_fkey"])
    (fun id s => { s with stockInItems := s.stockInItems.insert id row })

def stockChangeItemCreate (row : StockChangeItem) : Tx Nat :=
  create (fun _ => [])
    (fun v =>
      [(!(0 < row.qty), .checkViolation "stock_change_items_qty_check"),
        (!(v.stockChangeItems.select (fun _ l => l.requestId == row.requestId &&
            l.inventoryItemId == row.inventoryItemId)).isEmpty,
          .uniqueViolation "stock_change_items_request_id_inventory_item_id_key"),
        requestMissing v row.requestId "stock_change_items_request_id_fkey"])
    (fun id s => { s with stockChangeItems := s.stockChangeItems.insert id row })

def consumableRequestItemCreate (row : ConsumableRequestItem) : Tx Nat :=
  create (fun _ => [])
    (fun v =>
      [(!(0 < row.qty), .checkViolation "consumable_request_items_qty_check"),
        (!(v.consumableRequestItems.select (fun _ l => l.requestId == row.requestId &&
            l.inventoryItemId == row.inventoryItemId)).isEmpty,
          .uniqueViolation "consumable_request_items_request_id_inventory_item_id_key"),
        requestMissing v row.requestId "consumable_request_items_request_id_fkey"])
    (fun id s => { s with consumableRequestItems := s.consumableRequestItems.insert id row })

def agentRecipientCreate (row : AgentRecipient) : Tx Nat :=
  create (fun _ => [])
    (fun v =>
      [(!(v.agentRecipients.select (fun _ l => l.requestId == row.requestId &&
            l.userId == row.userId)).isEmpty,
          .uniqueViolation "agent_recipients_request_id_user_id_key")])
    (fun id s => { s with agentRecipients := s.agentRecipients.insert id row })

def borrowActionItemCreate (row : BorrowActionItem) : Tx Nat :=
  create (fun _ => [])
    (fun v =>
      [(!(0 < row.qty), .checkViolation "borrow_action_items_qty_check"),
        (!(v.borrowActionItems.select (fun _ l => l.requestId == row.requestId &&
            l.borrowRecordId == row.borrowRecordId)).isEmpty,
          .uniqueViolation "borrow_action_items_request_id_borrow_record_id_key"),
        requestMissing v row.requestId "borrow_action_items_request_id_fkey",
        ((v.borrowRecords.find? row.borrowRecordId).isNone,
          .foreignKeyViolation "borrow_action_items_borrow_record_id_fkey")])
    (fun id s => { s with borrowActionItems := s.borrowActionItems.insert id row })

def agentSettlementItemCreate (row : AgentSettlementItem) : Tx Nat :=
  create (fun _ => [])
    (fun v =>
      [(!(0 < row.qty), .checkViolation "agent_settlement_items_qty_check"),
        (!(v.agentSettlementItems.select (fun _ l => l.requestId == row.requestId &&
            l.borrowRecordId == row.borrowRecordId && l.method == row.method)).isEmpty,
          .uniqueViolation "agent_settlement_items_request_id_borrow_record_id_method_key"),
        requestMissing v row.requestId "agent_settlement_items_request_id_fkey",
        ((v.borrowRecords.find? row.borrowRecordId).isNone,
          .foreignKeyViolation "agent_settlement_items_borrow_record_id_fkey")])
    (fun id s => { s with agentSettlementItems := s.agentSettlementItems.insert id row })

def quotaOccupationCreate (row : QuotaOccupation) : Tx Nat :=
  create (fun _ => [])
    (fun _ => [(!(0 < row.qty), .checkViolation "quota_occupations_qty_check")])
    (fun id s => { s with quotaOccupations := s.quotaOccupations.insert id row })

def BorrowRecord.quantitiesOk (r : BorrowRecord) : Bool :=
  0 < r.qty && r.returnedQty + r.writtenOffQty ≤ r.qty

def borrowRecordCreate (row : BorrowRecord) : Tx Nat :=
  create (fun _ => [])
    (fun _ => [(!row.quantitiesOk, .checkViolation "borrow_records_qty_check")])
    (fun id s => { s with borrowRecords := s.borrowRecords.insert id row })

def BorrowBatchAllocation.quantitiesOk (r : BorrowBatchAllocation) : Bool :=
  0 < r.issuedQty && 0 ≤ r.returnedQty && r.returnedQty ≤ r.issuedQty

def borrowBatchAllocationCreate (row : BorrowBatchAllocation) : Tx Nat :=
  create (fun _ => [])
    (fun v =>
      [(!row.quantitiesOk, .checkViolation "borrow_batch_allocations_issued_qty_check"),
        (!(v.borrowBatchAllocations.select (fun _ a => a.borrowRecordId == row.borrowRecordId &&
            a.batchId == row.batchId)).isEmpty,
          .uniqueViolation "borrow_batch_allocations_borrow_record_id_batch_id_key")])
    (fun id s => { s with borrowBatchAllocations := s.borrowBatchAllocations.insert id row })

def inventoryTransferCreate (row : InventoryTransfer) : Tx Nat :=
  create (fun _ => [])
    (fun _ => [(!(0 < row.qty), .checkViolation "inventory_transfers_qty_check")])
    (fun id s => { s with inventoryTransfers := s.inventoryTransfers.insert id row })

def transferBatchItemCreate (row : TransferBatchItem) : Tx Nat :=
  create (fun _ => [])
    (fun _ => [(!(0 < row.qty), .checkViolation "transfer_batch_items_qty_check")])
    (fun id s => { s with transferBatchItems := s.transferBatchItems.insert id row })

def batchCorrectionCreate (row : BatchCorrection) : Tx Nat :=
  create (fun _ => [])
    (fun v => [((v.batches.find? row.batchId).isNone,
      .foreignKeyViolation "batch_corrections_batch_id_fkey")])
    (fun id s => { s with batchCorrections := s.batchCorrections.insert id row })

def directDisposalRecordCreate (row : DirectDisposalRecord) : Tx Nat :=
  create (fun _ => []) (fun _ => [])
    (fun id s => { s with directDisposalRecords := s.directDisposalRecords.insert id row })

/-! ## Updates -/

def InventoryItem.quantitiesOk (r : InventoryItem) : Bool :=
  0 ≤ r.bookQty && 0 ≤ r.reservedQty && r.reservedQty ≤ r.bookQty

def inventoryItemUpdate (id : Nat) (f : InventoryItem → InventoryItem) : Tx Unit :=
  Txn.act (fun _ => [.inventoryItem id]) fun v =>
    match v.inventoryItems.find? id with
    | none => .error (.recordMissing "inventory_items")
    | some r =>
        if (f r).quantitiesOk then
          .ok ((), fun s => { s with inventoryItems := s.inventoryItems.update id f })
        else .error (.checkViolation "inventory_items_qty_check")

/-- Lower an item's reservation where it is large enough: `updateMany` with a condition. -/
def inventoryItemRelease (id : Nat) (qty : Int) : Tx Unit :=
  Txn.act (fun v => if (v.inventoryItems.find? id).any (fun r => qty ≤ r.reservedQty)
      then [.inventoryItem id] else []) fun v =>
    match v.inventoryItems.find? id with
    | none => .ok ((), fun s => s)
    | some r =>
        if qty ≤ r.reservedQty then
          if { r with reservedQty := r.reservedQty - qty : InventoryItem }.quantitiesOk then
            .ok ((), fun s =>
              { s with
                inventoryItems := s.inventoryItems.update id
                  (fun r => { r with reservedQty := r.reservedQty - qty }) })
          else .error (.checkViolation "inventory_items_qty_check")
        else .ok ((), fun s => s)

def batchUpdate (id : Nat) (f : Batch → Batch) : Tx Unit :=
  Txn.act (fun _ => [.batch id]) fun v =>
    match v.batches.find? id with
    | none => .error (.recordMissing "batches")
    | some r =>
        if 0 ≤ (f r).remainingQty then
          .ok ((), fun s => { s with batches := s.batches.update id f })
        else .error (.checkViolation "batches_remaining_qty_check")

/-- `UPDATE batches SET remaining_qty = remaining_qty - take`: a missing row is no error. -/
def batchTake (id : Nat) (take : Int) : Tx Unit :=
  Txn.act (fun _ => [.batch id]) fun v =>
    match v.batches.find? id with
    | none => .ok ((), fun s => s)
    | some r =>
        if 0 ≤ r.remainingQty - take then
          .ok ((), fun s =>
            { s with
              batches := s.batches.update id
                (fun r => { r with remainingQty := r.remainingQty - take }) })
        else .error (.checkViolation "batches_remaining_qty_check")

def borrowRecordUpdate (id : Nat) (f : BorrowRecord → BorrowRecord) : Tx Unit :=
  Txn.act (fun _ => [.borrowRecord id]) fun v =>
    match v.borrowRecords.find? id with
    | none => .error (.recordMissing "borrow_records")
    | some r =>
        if (f r).quantitiesOk then
          .ok ((), fun s => { s with borrowRecords := s.borrowRecords.update id f })
        else .error (.checkViolation "borrow_records_qty_check")

def borrowBatchAllocationUpdate (id : Nat) (f : BorrowBatchAllocation → BorrowBatchAllocation) :
    Tx Unit :=
  Txn.act (fun _ => [.borrowBatchAllocation id]) fun v =>
    match v.borrowBatchAllocations.find? id with
    | none => .error (.recordMissing "borrow_batch_allocations")
    | some r =>
        if (f r).quantitiesOk then
          .ok ((), fun s =>
            { s with borrowBatchAllocations := s.borrowBatchAllocations.update id f })
        else .error (.checkViolation "borrow_batch_allocations_returned_qty_check")

def directDisposalRecordUpdate (id : Nat) (f : DirectDisposalRecord → DirectDisposalRecord) :
    Tx Unit :=
  Txn.act (fun _ => [.directDisposalRecord id]) fun v =>
    match v.directDisposalRecords.find? id with
    | none => .error (.recordMissing "direct_disposal_records")
    | some _ => .ok ((), fun s =>
        { s with directDisposalRecords := s.directDisposalRecords.update id f })

def pendingAt (v : Store) (id version : Nat) : Bool :=
  (v.approvalRequests.find? id).any (fun r => r.status == .pending && r.version == version)

/-- Close a pending head of the expected version; the number of rows hit. -/
def approvalRequestTransition (id version : Nat) (f : ApprovalRequest → ApprovalRequest) :
    Tx Nat :=
  Txn.act (fun v => if pendingAt v id version then [.approvalRequest id] else []) fun v =>
    if pendingAt v id version then
      .ok (1, fun s => { s with approvalRequests := s.approvalRequests.update id f })
    else .ok (0, fun s => s)

def reservedQuotas (v : Store) (requestId : Nat) : List Nat :=
  (v.quotaOccupations.select
    (fun _ q => q.requestId == requestId && q.status == .reserved)).map (·.1)

/-- Give the reserved quota rows of a request a new status. -/
def quotaOccupationSettle (requestId : Nat) (status : QuotaStatus) : Tx Unit :=
  Txn.exec (fun v => (reservedQuotas v requestId).map .quotaOccupation) fun v s =>
    { s with
      quotaOccupations := s.quotaOccupations.updateMany
        (fun id _ => (reservedQuotas v requestId).contains id)
        (fun q => { q with status := status }) }

end Wbme.Asset
