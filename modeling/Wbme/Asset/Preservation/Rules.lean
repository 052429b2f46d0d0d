import Wbme.Asset.Preservation.LoanSteps

/-! # Rules of statements

What has to be shown of a store so that a statement establishes a postcondition.
A rule named `_safe` is for results only and hands over the constraints the
statement has checked; a rule named `_ok` asks for them and excludes errors.
-/

namespace Wbme.Asset

open Lib Approval

variable {n : Nat} {s : Store} {E : Failure → Prop}

/-! ## Inserts -/

@[simp] theorem firstViolated_nil : firstViolated [] = none := rfl

theorem firstViolated_cons_eq_none {b : Bool} {e : Failure} {checks : List (Bool × Failure)} :
    firstViolated ((b, e) :: checks) = none ↔ b = false ∧ firstViolated checks = none := by
  cases b <;> simp [firstViolated]

section Create

variable {Q : Nat → Nat → Store → Prop} {locks : Store → List Lock}
  {checks : Store → List (Bool × Failure)} {put : Nat → Store → Store}

theorem create_safe (h : firstViolated (checks s) = none → Q n (n + 1) (put n s)) :
    (create locks checks put).safe Q n s := by
  unfold create
  rw [Txn.safe, Txn.wp_bind, Txn.wp_nextId, Txn.wp_act]
  cases hv : firstViolated (checks s) with
  | none => exact h hv
  | some e => trivial

theorem create_ok (hv : firstViolated (checks s) = none) (h : Q n (n + 1) (put n s)) :
    (create locks checks put).wp Q E n s := by
  unfold create
  rw [Txn.wp_bind, Txn.wp_nextId, Txn.wp_act, hv]
  exact h

theorem isEmpty_select {α : Type} {t : Table α} {p : Nat → α → Bool} :
    (!(t.select p).isEmpty) = false ↔ ∀ j r, t.find? j = some r → p j r = false := by
  rw [Bool.not_eq_false', List.isEmpty_iff, List.eq_nil_iff_forall_not_mem]
  constructor
  · intro h j r hr
    by_contra hp
    exact h (j, r) (Table.mem_select.mpr ⟨hr, by simpa using hp⟩)
  · intro h x hx
    obtain ⟨hr, hp⟩ := Table.mem_select.mp hx
    rw [h x.1 x.2 hr] at hp
    cases hp

theorem stockFlowCreate_ok {row : StockFlow} (hq : 0 < row.qty) (hb : 0 ≤ row.bookBefore)
    (ha : 0 ≤ row.bookAfter)
    (h : Q n (n + 1) { s with stockFlows := s.stockFlows.insert n row }) :
    (stockFlowCreate row).wp Q E n s :=
  create_ok (by simp [firstViolated_cons_eq_none, hq, hb, ha]) h

theorem stockFlowCreate_safe {row : StockFlow}
    (h : 0 < row.qty → Q n (n + 1) { s with stockFlows := s.stockFlows.insert n row }) :
    (stockFlowCreate row).safe Q n s :=
  create_safe fun hv => h (by simp [firstViolated_cons_eq_none] at hv; omega)

theorem batchCreate_safe {row : Batch}
    (h : 0 ≤ row.remainingQty → Q n (n + 1) { s with batches := s.batches.insert n row }) :
    (batchCreate row).safe Q n s :=
  create_safe fun hv => h (by simpa [firstViolated_cons_eq_none] using hv)

variable {row : ApprovalActionRecord}

theorem approvalActionCreate_ok (hhead : (s.approvalRequests.find? row.requestId).isSome)
    (h : Q n (n + 1) { s with approvalActions := s.approvalActions.insert n row }) :
    (approvalActionCreate row).wp Q E n s :=
  create_ok (by
    rw [requestMissing, firstViolated_cons_eq_none]
    exact ⟨by simpa using hhead, rfl⟩) h

theorem approvalActionCreate_safe
    (h : Q n (n + 1) { s with approvalActions := s.approvalActions.insert n row }) :
    (approvalActionCreate row).safe Q n s := create_safe fun _ => h

theorem stockInItemCreate_safe {row : StockInItem}
    (h : 0 < row.qty →
      (∀ j l, s.stockInItems.find? j = some l → ¬ (l.requestId = row.requestId ∧
        l.consumableId = row.consumableId ∧ l.snapshot.spec = row.snapshot.spec ∧
        l.warehouseId = row.warehouseId)) →
      Q n (n + 1) { s with stockInItems := s.stockInItems.insert n row }) :
    (stockInItemCreate row).safe Q n s :=
  create_safe fun hv => by
    simp only [firstViolated_cons_eq_none, isEmpty_select, requestMissing] at hv
    refine h (by simpa using hv.1) fun j l hl => ?_
    have hno := hv.2.1 j l hl
    rintro ⟨h₁, h₂, h₃, h₄⟩
    simp [h₁, h₂, h₃, h₄] at hno

theorem stockChangeItemCreate_safe {row : StockChangeItem}
    (h : 0 < row.qty →
      (∀ j l, s.stockChangeItems.find? j = some l → ¬ (l.requestId = row.requestId ∧
        l.inventoryItemId = row.inventoryItemId)) →
      Q n (n + 1) { s with stockChangeItems := s.stockChangeItems.insert n row }) :
    (stockChangeItemCreate row).safe Q n s :=
  create_safe fun hv => by
    simp only [firstViolated_cons_eq_none, isEmpty_select, requestMissing] at hv
    refine h (by simpa using hv.1) fun j l hl => ?_
    have hno := hv.2.1 j l hl
    rintro ⟨h₁, h₂⟩
    simp [h₁, h₂] at hno

theorem consumableRequestItemCreate_safe {row : ConsumableRequestItem}
    (h : 0 < row.qty →
      (∀ j l, s.consumableRequestItems.find? j = some l → ¬ (l.requestId = row.requestId ∧
        l.inventoryItemId = row.inventoryItemId)) →
      Q n (n + 1) { s with consumableRequestItems := s.consumableRequestItems.insert n row }) :
    (consumableRequestItemCreate row).safe Q n s :=
  create_safe fun hv => by
    simp only [firstViolated_cons_eq_none, isEmpty_select, requestMissing] at hv
    refine h (by simpa using hv.1) fun j l hl => ?_
    have hno := hv.2.1 j l hl
    rintro ⟨h₁, h₂⟩
    simp [h₁, h₂] at hno

theorem agentRecipientCreate_safe {row : AgentRecipient}
    (h : Q n (n + 1) { s with agentRecipients := s.agentRecipients.insert n row }) :
    (agentRecipientCreate row).safe Q n s := create_safe fun _ => h

theorem borrowActionItemCreate_safe {row : BorrowActionItem}
    (h : 0 < row.qty →
      Q n (n + 1) { s with borrowActionItems := s.borrowActionItems.insert n row }) :
    (borrowActionItemCreate row).safe Q n s :=
  create_safe fun hv => h (by
    simp only [firstViolated_cons_eq_none] at hv
    simpa using hv.1)

theorem agentSettlementItemCreate_safe {row : AgentSettlementItem}
    (h : 0 < row.qty →
      Q n (n + 1) { s with agentSettlementItems := s.agentSettlementItems.insert n row }) :
    (agentSettlementItemCreate row).safe Q n s :=
  create_safe fun hv => h (by
    simp only [firstViolated_cons_eq_none] at hv
    simpa using hv.1)

theorem quotaOccupationCreate_safe {row : QuotaOccupation}
    (h : Q n (n + 1) { s with quotaOccupations := s.quotaOccupations.insert n row }) :
    (quotaOccupationCreate row).safe Q n s := create_safe fun _ => h

theorem borrowRecordCreate_safe {row : BorrowRecord}
    (h : row.quantitiesOk = true →
      Q n (n + 1) { s with borrowRecords := s.borrowRecords.insert n row }) :
    (borrowRecordCreate row).safe Q n s :=
  create_safe fun hv => h (by simpa [firstViolated_cons_eq_none] using hv)

theorem borrowBatchAllocationCreate_safe {row : BorrowBatchAllocation}
    (h : row.quantitiesOk = true →
      Q n (n + 1) { s with borrowBatchAllocations := s.borrowBatchAllocations.insert n row }) :
    (borrowBatchAllocationCreate row).safe Q n s :=
  create_safe fun hv => h (by
    simp only [firstViolated_cons_eq_none] at hv
    simpa using hv.1)

theorem inventoryTransferCreate_safe {row : InventoryTransfer}
    (h : Q n (n + 1) { s with inventoryTransfers := s.inventoryTransfers.insert n row }) :
    (inventoryTransferCreate row).safe Q n s := create_safe fun _ => h

theorem transferBatchItemCreate_safe {row : TransferBatchItem}
    (h : Q n (n + 1) { s with transferBatchItems := s.transferBatchItems.insert n row }) :
    (transferBatchItemCreate row).safe Q n s := create_safe fun _ => h

theorem batchCorrectionCreate_safe {row : BatchCorrection}
    (h : Q n (n + 1) { s with batchCorrections := s.batchCorrections.insert n row }) :
    (batchCorrectionCreate row).safe Q n s := create_safe fun _ => h

theorem directDisposalRecordCreate_safe {row : DirectDisposalRecord}
    (h : Q n (n + 1) { s with directDisposalRecords := s.directDisposalRecords.insert n row }) :
    (directDisposalRecordCreate row).safe Q n s := create_safe fun _ => h

end Create

section Update

variable {Q : Unit → Nat → Store → Prop} {id : Nat}

theorem inventoryItemUpdate_ok {f : InventoryItem → InventoryItem} {r : InventoryItem}
    (hr : s.inventoryItems.find? id = some r) (hok : (f r).quantitiesOk = true)
    (h : Q () n { s with inventoryItems := s.inventoryItems.update id f }) :
    (inventoryItemUpdate id f).wp Q E n s := by
  rw [inventoryItemUpdate, Txn.wp_act, hr]
  simp only [hok, if_true]
  exact h

theorem inventoryItemUpdate_safe {f : InventoryItem → InventoryItem}
    (h : ∀ r, s.inventoryItems.find? id = some r → (f r).quantitiesOk = true →
      Q () n { s with inventoryItems := s.inventoryItems.update id f }) :
    (inventoryItemUpdate id f).safe Q n s := by
  cases hr : s.inventoryItems.find? id with
  | none => rw [Txn.safe, inventoryItemUpdate, Txn.wp_act, hr]; trivial
  | some r =>
      by_cases hok : (f r).quantitiesOk = true
      · exact inventoryItemUpdate_ok hr hok (h r hr hok)
      · rw [Txn.safe, inventoryItemUpdate, Txn.wp_act, hr]
        simp [hok]

theorem batchUpdate_ok {f : Batch → Batch} {r : Batch} (hr : s.batches.find? id = some r)
    (h0 : 0 ≤ (f r).remainingQty) (h : Q () n { s with batches := s.batches.update id f }) :
    (batchUpdate id f).wp Q E n s := by
  rw [batchUpdate, Txn.wp_act, hr]
  simp only [h0, if_true]
  exact h

theorem batchUpdate_safe {f : Batch → Batch}
    (h : ∀ r, s.batches.find? id = some r → 0 ≤ (f r).remainingQty →
      Q () n { s with batches := s.batches.update id f }) :
    (batchUpdate id f).safe Q n s := by
  cases hr : s.batches.find? id with
  | none => rw [Txn.safe, batchUpdate, Txn.wp_act, hr]; trivial
  | some r =>
      by_cases h0 : 0 ≤ (f r).remainingQty
      · exact batchUpdate_ok hr h0 (h r hr h0)
      · rw [Txn.safe, batchUpdate, Txn.wp_act, hr]
        simp [h0]

theorem batchTake_safe {take : Int} {r : Batch} (hr : s.batches.find? id = some r)
    (h : 0 ≤ r.remainingQty - take → Q () n
      { s with
        batches := s.batches.update id
          (fun r => { r with remainingQty := r.remainingQty - take }) }) :
    (batchTake id take).safe Q n s := by
  rw [Txn.safe, batchTake, Txn.wp_act, hr]
  by_cases h0 : 0 ≤ r.remainingQty - take
  · simp only [h0, if_true]
    exact h h0
  · simp only [h0, if_false]

theorem borrowRecordUpdate_wp {f : BorrowRecord → BorrowRecord} {r : BorrowRecord}
    (hr : s.borrowRecords.find? id = some r)
    (hok : (f r).quantitiesOk = true → Q () n { s with borrowRecords := s.borrowRecords.update id f })
    (herr : (f r).quantitiesOk = false → E (.checkViolation "borrow_records_qty_check")) :
    (borrowRecordUpdate id f).wp Q E n s := by
  rw [borrowRecordUpdate, Txn.wp_act, hr]
  cases hq : (f r).quantitiesOk with
  | true => simpa only [hq, if_true] using hok hq
  | false => simpa only [hq, Bool.false_eq_true, if_false] using herr hq

theorem borrowBatchAllocationUpdate_ok {f : BorrowBatchAllocation → BorrowBatchAllocation}
    {r : BorrowBatchAllocation} (hr : s.borrowBatchAllocations.find? id = some r)
    (hok : (f r).quantitiesOk = true)
    (h : Q () n { s with borrowBatchAllocations := s.borrowBatchAllocations.update id f }) :
    (borrowBatchAllocationUpdate id f).wp Q E n s := by
  rw [borrowBatchAllocationUpdate, Txn.wp_act, hr]
  simp only [hok, if_true]
  exact h

theorem directDisposalRecordUpdate_safe {f : DirectDisposalRecord → DirectDisposalRecord}
    (h : Q () n { s with directDisposalRecords := s.directDisposalRecords.update id f }) :
    (directDisposalRecordUpdate id f).safe Q n s := by
  rw [Txn.safe, directDisposalRecordUpdate, Txn.wp_act]
  cases s.directDisposalRecords.find? id with
  | none => trivial
  | some r => exact h

end Update

section Transition

variable {Q : Nat → Nat → Store → Prop} {id version : Nat} {f : ApprovalRequest → ApprovalRequest}

theorem pendingAt_iff : pendingAt s id version = true ↔
    ∃ r, s.approvalRequests.find? id = some r ∧ r.status = .pending ∧ r.version = version := by
  rw [pendingAt, Option.any_eq_true]
  simp

theorem wp_approvalRequestTransition :
    (approvalRequestTransition id version f).wp Q E n s ↔
      (pendingAt s id version = true →
        Q 1 n { s with approvalRequests := s.approvalRequests.update id f }) ∧
      (pendingAt s id version = false → Q 0 n s) := by
  rw [approvalRequestTransition, Txn.wp_act]
  cases pendingAt s id version <;> simp

end Transition

end Wbme.Asset
