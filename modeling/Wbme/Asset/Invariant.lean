import Wbme.Asset.Operations
import Wbme.Lib.Ledger

/-! # The invariant of the asset store

The stock of an item is kept in three places: on the item, on its batches and in
its flows; its reservations on the item and on the pending lines; its loans on
the borrow records and on their allocations. Each group of tables has one
predicate saying that the places agree, over the tables it speaks of only, so
that a write to another table leaves it as it is. In the middle of an operation
the places disagree by known amounts, which the slack records.
-/

namespace Wbme.Asset

open Lib Approval

/-! ## Quantities -/

def bookOf (items : Table InventoryItem) : Nat → Int := items.valueAt (·.bookQty)

def reservedOf (items : Table InventoryItem) : Nat → Int := items.valueAt (·.reservedQty)

/-- What is left in the batches of an item. -/
def remainingOf (batches : Table Batch) : Nat → Int :=
  batches.sumBy (·.inventoryItemId) (·.remainingQty)

/-- What is left in a batch; nothing for a missing batch. -/
def remainingAt (batches : Table Batch) : Nat → Int := batches.valueAt (·.remainingQty)

def RequestType.holdsStock : RequestType → Bool
  | .stockChange => true
  | .consumableRequest => true
  | .agentRequest => true
  | _ => false

/-- Is a head pending and of a type that reserves stock? -/
def stockPending (requests : Table ApprovalRequest) (id : Nat) : Bool :=
  (requests.find? id).any (fun r => r.requestType.holdsStock && r.status == .pending)

/-- The quantity a line of a head holds: its own while the head is pending. -/
def heldQty (requests : Table ApprovalRequest) (requestId : Nat) (qty : Int) : Int :=
  if stockPending requests requestId = true then qty else 0

def pendingLineQty (requests : Table ApprovalRequest) (changes : Table StockChangeItem)
    (claims : Table ConsumableRequestItem) (i : Nat) : Int :=
  changes.sumBy (·.inventoryItemId) (fun l => heldQty requests l.requestId l.qty) i +
    claims.sumBy (·.inventoryItemId) (fun l => heldQty requests l.requestId l.qty) i

def StockFlow.change (f : StockFlow) : Int :=
  match f.direction with
  | .in => f.qty
  | .out => -f.qty

/-- A flow as an entry of its item's ledger. -/
def StockFlow.entry (f : StockFlow) : Entry := ⟨f.bookBefore, f.bookAfter, f.change⟩

/-- The flows of an item, in creation order. -/
def flowsOf (flows : Table StockFlow) (i : Nat) : List StockFlow :=
  (flows.select (fun _ f => f.inventoryItemId == i)).map (·.2)

/-- Total in minus total out over the flows of a batch. -/
def netFlow (flows : Table StockFlow) (b : Nat) : Int :=
  flows.sumBy (·.batchId) StockFlow.change (some b)

def LaterFlow (flows : Table StockFlow) (b : Nat) : Prop :=
  ∃ k f, flows.find? k = some f ∧ f.batchId = some b ∧ f.flowType ≠ .stockIn

/-- Issued quantity over the allocations of a record. -/
def issuedOf (allocs : Table BorrowBatchAllocation) : Nat → Int :=
  allocs.sumBy (·.borrowRecordId) (·.issuedQty)

/-- Returned quantity over the allocations of a record. -/
def returnedOf (allocs : Table BorrowBatchAllocation) : Nat → Int :=
  allocs.sumBy (·.borrowRecordId) (·.returnedQty)

def openOf (borrows : Table BorrowRecord) : Nat → Int := borrows.valueAt BorrowRecord.openQty

/-- Open quantity over the records of an item. -/
def openOn (borrows : Table BorrowRecord) : Nat → Int :=
  borrows.sumBy (·.inventoryItemId) BorrowRecord.openQty

/-- Is a head a pending return or write-off? -/
def actionPending (requests : Table ApprovalRequest) (id : Nat) : Bool :=
  (requests.find? id).any (fun r =>
    (r.requestType == .return || r.requestType == .writeOff) && r.status == .pending)

/-- The quantity an action line occupies: its own while the head is pending. -/
def occupyingQty (requests : Table ApprovalRequest) (requestId : Nat) (qty : Int) : Int :=
  if actionPending requests requestId = true then qty else 0

/-- Quantity of a record that pending returns and write-offs occupy. -/
def occupiedQty (requests : Table ApprovalRequest) (actions : Table BorrowActionItem) :
    Nat → Int :=
  actions.sumBy (·.borrowRecordId) (fun l => occupyingQty requests l.requestId l.qty)

theorem pendingActionQty_eq (v : Store) (k : Nat) :
    pendingActionQty v k = occupiedQty v.approvalRequests v.borrowActionItems k := by
  unfold pendingActionQty occupiedQty Table.sumBy
  refine Table.total_congr (fun i l _ => ?_)
  change (if l.borrowRecordId = k ∧ actionPending v.approvalRequests l.requestId = true
    then l.qty else 0) = _
  by_cases hk : l.borrowRecordId = k <;> simp [hk, occupyingQty]

/-! ## Groups -/

/-- Book quantities agree with the batches, up to what is in transit: taken from a batch and
still on the book. -/
structure StockOk (transit : Nat → Int) (items : Table InventoryItem) (batches : Table Batch) :
    Prop where
  quantities : ∀ i r, items.find? i = some r → 0 ≤ r.reservedQty ∧ r.reservedQty ≤ r.bookQty
  remaining_nonneg : ∀ b r, batches.find? b = some r → 0 ≤ r.remainingQty
  book : ∀ i, remainingOf batches i + transit i = bookOf items i

/-- Reservations agree with the pending lines, up to what is owed. -/
def ReserveOk (owed : Nat → Int) (items : Table InventoryItem)
    (requests : Table ApprovalRequest) (changes : Table StockChangeItem)
    (claims : Table ConsumableRequestItem) : Prop :=
  ∀ i, reservedOf items i = pendingLineQty requests changes claims i + owed i

def HeadOfType (requests : Table ApprovalRequest) (id : Nat) (types : List RequestType) : Prop :=
  ∃ h, requests.find? id = some h ∧ h.requestType ∈ types

def RecordOfType (borrows : Table BorrowRecord) (id : Nat) (type : BorrowType) : Prop :=
  ∃ r, borrows.find? id = some r ∧ r.recordType = type

/-- Lines have a head of their type, a positive quantity, and no twin under the same head. -/
structure LinesOk (requests : Table ApprovalRequest) (stockIns : Table StockInItem)
    (changes : Table StockChangeItem) (claims : Table ConsumableRequestItem) : Prop where
  stockIn : ∀ k l, stockIns.find? k = some l →
    0 < l.qty ∧ HeadOfType requests l.requestId [.stockIn]
  change : ∀ k l, changes.find? k = some l →
    0 < l.qty ∧ HeadOfType requests l.requestId [.stockChange]
  claim : ∀ k l, claims.find? k = some l →
    0 < l.qty ∧ HeadOfType requests l.requestId [.consumableRequest, .agentRequest]
  stockIn_unique : ∀ k l k' l', stockIns.find? k = some l → stockIns.find? k' = some l' →
    l.requestId = l'.requestId → l.consumableId = l'.consumableId →
    l.snapshot.spec = l'.snapshot.spec → l.warehouseId = l'.warehouseId → k = k'
  change_unique : ∀ k l k' l', changes.find? k = some l → changes.find? k' = some l' →
    l.requestId = l'.requestId → l.inventoryItemId = l'.inventoryItemId → k = k'
  claim_unique : ∀ k l k' l', claims.find? k = some l → claims.find? k' = some l' →
    l.requestId = l'.requestId → l.inventoryItemId = l'.inventoryItemId → k = k'

structure ActionLinesOk (requests : Table ApprovalRequest) (borrows : Table BorrowRecord)
    (actions : Table BorrowActionItem) (settlements : Table AgentSettlementItem) : Prop where
  action : ∀ k l, actions.find? k = some l →
    0 < l.qty ∧ HeadOfType requests l.requestId [.return, .writeOff] ∧
      RecordOfType borrows l.borrowRecordId .personal
  settlement : ∀ k l, settlements.find? k = some l →
    0 < l.qty ∧ HeadOfType requests l.requestId [.agentSettlement] ∧
      RecordOfType borrows l.borrowRecordId .agent

/-- The flows are a ledger: per item a chain from zero, per batch a net quantity. -/
structure LedgerOk (flows : Table StockFlow) (book net : Nat → Int) : Prop where
  chain : ∀ i, Chained 0 ((flowsOf flows i).map StockFlow.entry) (book i)
  net : ∀ b, netFlow flows b = net b
  qty_pos : ∀ k f, flows.find? k = some f → 0 < f.qty
  stockIn_in : ∀ k f, flows.find? k = some f → f.flowType = .stockIn → f.direction = .in

def BatchesHaveFlows (bare : Nat → Prop) (batches : Table Batch) (flows : Table StockFlow) :
    Prop :=
  ∀ b r, batches.find? b = some r → ¬ bare b →
    ∃ k f, flows.find? k = some f ∧ f.batchId = some b

structure AllocationsOk (lent back : Nat → Int) (borrows : Table BorrowRecord)
    (allocs : Table BorrowBatchAllocation) (batches : Table Batch) (flows : Table StockFlow) :
    Prop where
  issued : ∀ k, issuedOf allocs k + lent k = borrows.valueAt (·.qty) k
  returned : ∀ k, returnedOf allocs k = borrows.valueAt (·.returnedQty) k + back k
  quantities : ∀ k a, allocs.find? k = some a →
    0 < a.issuedQty ∧ 0 ≤ a.returnedQty ∧ a.returnedQty ≤ a.issuedQty
  home : ∀ k a, allocs.find? k = some a → ∃ b r, batches.find? a.batchId = some b ∧
    borrows.find? a.borrowRecordId = some r ∧ b.inventoryItemId = r.inventoryItemId
  later : ∀ k a, allocs.find? k = some a → LaterFlow flows a.batchId

/-- Borrow records are within bounds, and their item exists while something is open. -/
structure RecordsOk (borrows : Table BorrowRecord) (items : Table InventoryItem) : Prop where
  quantities : ∀ k r, borrows.find? k = some r →
    0 < r.qty ∧ 0 ≤ r.returnedQty ∧ 0 ≤ r.writtenOffQty ∧ r.returnedQty + r.writtenOffQty ≤ r.qty
  item : ∀ k r, borrows.find? k = some r → 0 < r.openQty →
    (items.find? r.inventoryItemId).isSome

/-- Pending actions, and what is still to be settled, fit into the open quantity. -/
def OccupiedOk (act : Nat → Int) (requests : Table ApprovalRequest)
    (actions : Table BorrowActionItem) (borrows : Table BorrowRecord) : Prop :=
  ∀ k, occupiedQty requests actions k + act k ≤ openOf borrows k

def ItemsHaveConsumables (items : Table InventoryItem) (consumables : Table Consumable) : Prop :=
  ∀ i r, items.find? i = some r → (consumables.find? r.consumableId).isSome

/-- Every item holds, reserves or lends something, unless it is exempt. -/
def NoEmptyItem (exempt : Nat → Prop) (items : Table InventoryItem)
    (borrows : Table BorrowRecord) : Prop :=
  ∀ i r, items.find? i = some r → r.bookQty = 0 → r.reservedQty = 0 → openOn borrows i = 0 →
    exempt i

/-! ## Fresh keys -/

structure Fresh (n : Nat) (s : Store) : Prop where
  consumables : s.consumables.Below n
  inventoryItems : s.inventoryItems.Below n
  batches : s.batches.Below n
  stockFlows : s.stockFlows.Below n
  approvalRequests : s.approvalRequests.Below n
  approvalActions : s.approvalActions.Below n
  stockInItems : s.stockInItems.Below n
  stockChangeItems : s.stockChangeItems.Below n
  consumableRequestItems : s.consumableRequestItems.Below n
  agentRecipients : s.agentRecipients.Below n
  borrowActionItems : s.borrowActionItems.Below n
  agentSettlementItems : s.agentSettlementItems.Below n
  quotaOccupations : s.quotaOccupations.Below n
  borrowRecords : s.borrowRecords.Below n
  borrowBatchAllocations : s.borrowBatchAllocations.Below n
  inventoryTransfers : s.inventoryTransfers.Below n
  transferBatchItems : s.transferBatchItems.Below n
  batchCorrections : s.batchCorrections.Below n
  directDisposalRecords : s.directDisposalRecords.Below n

theorem Fresh.mono {n m : Nat} {s : Store} (h : Fresh n s) (hm : n ≤ m) : Fresh m s :=
  ⟨h.consumables.mono hm, h.inventoryItems.mono hm, h.batches.mono hm, h.stockFlows.mono hm,
    h.approvalRequests.mono hm, h.approvalActions.mono hm, h.stockInItems.mono hm,
    h.stockChangeItems.mono hm, h.consumableRequestItems.mono hm, h.agentRecipients.mono hm,
    h.borrowActionItems.mono hm, h.agentSettlementItems.mono hm, h.quotaOccupations.mono hm,
    h.borrowRecords.mono hm, h.borrowBatchAllocations.mono hm, h.inventoryTransfers.mono hm,
    h.transferBatchItems.mono hm, h.batchCorrections.mono hm, h.directDisposalRecords.mono hm⟩

theorem fresh_empty (n : Nat) : Fresh n Store.empty := by
  constructor <;> exact Table.below_empty n

/-! ## The invariant -/

/-- By how much the places disagree in the middle of an operation. -/
structure Slack where
  /-- Reserved on an item beyond its pending lines. -/
  owed : Nat → Int
  /-- On the book of an item, and in none of its batches. -/
  transit : Nat → Int
  /-- In the flows of an item beyond its book. -/
  unposted : Nat → Int
  /-- In the flows of a batch beyond what remains in it. -/
  unbooked : Nat → Int
  /-- Still to be settled on a record, under a head that is no longer pending. -/
  act : Nat → Int
  /-- Lent under a record, and not allocated to a batch. -/
  lent : Nat → Int
  /-- Returned to allocations of a record, and not on the record. -/
  back : Nat → Int
  /-- Items that may be empty. -/
  exempt : Nat → Prop
  /-- Batches that may be without a flow. -/
  bare : Nat → Prop

/-- Everything agrees; the exempt items may be empty. -/
def Slack.exempting (exempt : Nat → Prop) : Slack where
  owed := fun _ => 0
  transit := fun _ => 0
  unposted := fun _ => 0
  unbooked := fun _ => 0
  act := fun _ => 0
  lent := fun _ => 0
  back := fun _ => 0
  exempt := exempt
  bare := fun _ => False

/-- The invariant of the store under a sequence and a slack. -/
structure Inv (k : Slack) (n : Nat) (s : Store) : Prop where
  fresh : Fresh n s
  stock : StockOk k.transit s.inventoryItems s.batches
  reserve : ReserveOk k.owed s.inventoryItems s.approvalRequests s.stockChangeItems
    s.consumableRequestItems
  lines : LinesOk s.approvalRequests s.stockInItems s.stockChangeItems s.consumableRequestItems
  actionLines : ActionLinesOk s.approvalRequests s.borrowRecords s.borrowActionItems
    s.agentSettlementItems
  ledger : LedgerOk s.stockFlows (fun i => bookOf s.inventoryItems i + k.unposted i)
    (fun b => remainingAt s.batches b + k.unbooked b)
  batchFlows : BatchesHaveFlows k.bare s.batches s.stockFlows
  allocations : AllocationsOk k.lent k.back s.borrowRecords s.borrowBatchAllocations s.batches
    s.stockFlows
  records : RecordsOk s.borrowRecords s.inventoryItems
  occupied : OccupiedOk k.act s.approvalRequests s.borrowActionItems s.borrowRecords
  consumables : ItemsHaveConsumables s.inventoryItems s.consumables
  noEmpty : NoEmptyItem k.exempt s.inventoryItems s.borrowRecords

theorem inv_empty (exempt : Nat → Prop) (n : Nat) : Inv (.exempting exempt) n Store.empty where
  fresh := fresh_empty n
  stock := ⟨fun _ _ h => by simp [Store.empty] at h, fun _ _ h => by simp [Store.empty] at h,
    fun _ => rfl⟩
  reserve := fun _ => rfl
  lines := by constructor <;> intros <;> simp_all [Store.empty]
  actionLines := by constructor <;> intros <;> simp_all [Store.empty]
  ledger := ⟨fun _ => rfl, fun _ => rfl, fun _ _ h => by simp [Store.empty] at h,
    fun _ _ h => by simp [Store.empty] at h⟩
  batchFlows := fun _ _ h => by simp [Store.empty] at h
  allocations := by constructor <;> intros <;> first | rfl | simp_all [Store.empty]
  records := by constructor <;> intros <;> simp_all [Store.empty]
  occupied := fun _ => Int.le_refl 0
  consumables := fun _ _ h => by simp [Store.empty] at h
  noEmpty := fun _ _ h => by simp [Store.empty] at h

theorem Inv.weaken {k : Slack} {n : Nat} {s : Store} (h : Inv k n s) {e : Nat → Prop}
    {a : Nat → Int} {q : Nat → Prop} (hx : ∀ i, k.exempt i → e i) (ha : ∀ r, a r ≤ k.act r)
    (hb : ∀ b, k.bare b → q b) : Inv { k with exempt := e, act := a, bare := q } n s where
  fresh := h.fresh
  stock := h.stock
  reserve := h.reserve
  lines := h.lines
  actionLines := h.actionLines
  ledger := h.ledger
  batchFlows := fun b r hr hn => h.batchFlows b r hr fun hbare => hn (hb b hbare)
  allocations := h.allocations
  records := h.records
  occupied := fun r => Int.le_trans (Int.add_le_add_left (ha r) _) (h.occupied r)
  consumables := h.consumables
  noEmpty := fun i r hr hb hq ho => hx i (h.noEmpty i r hr hb hq ho)

end Wbme.Asset
