import Wbme.Asset.Preservation.StockSteps

/-! # Steps of heads and lines

A pending head holds the quantities of its lines. Writing a line moves its
quantity from the slack to the head; closing the head moves the quantities of all
its lines back to the slack, where the side effects of the transition take them
from.
-/

namespace Wbme.Asset

open Lib Approval

/-! ## Heads -/

variable {types : List RequestType}

section Heads

variable {requests : Table ApprovalRequest} {id : Nat} {row : ApprovalRequest}
  {f : ApprovalRequest → ApprovalRequest}

def headLineQty (changes : Table StockChangeItem) (claims : Table ConsumableRequestItem)
    (id i : Nat) : Int :=
  changes.sumBy (·.inventoryItemId) (fun l => if l.requestId = id then l.qty else 0) i +
    claims.sumBy (·.inventoryItemId) (fun l => if l.requestId = id then l.qty else 0) i

/-- Quantity on a record of the action lines of one head. -/
def headActionQty (actions : Table BorrowActionItem) (id : Nat) : Nat → Int :=
  actions.sumBy (·.borrowRecordId) (fun l => if l.requestId = id then l.qty else 0)

theorem HeadOfType.insert {j n : Nat} (h : HeadOfType requests j types)
    (hn : requests.find? n = none) : HeadOfType (requests.insert n row) j types := by
  obtain ⟨r, hr, ht⟩ := h
  have hne : j ≠ n := fun hj => by rw [hj, hn] at hr; cases hr
  exact ⟨r, by rw [Table.find?_insert_ne _ _ hne, hr], ht⟩

variable {requests' : Table ApprovalRequest} {j : Nat}

theorem HeadOfType.update (h : HeadOfType requests j types)
    (hf : ∀ r, (f r).requestType = r.requestType) : HeadOfType (requests.update id f) j types := by
  obtain ⟨r, hr, ht⟩ := h
  rw [HeadOfType, Table.find?_update, hr]
  by_cases hj : j = id
  · exact ⟨f r, by simp [hj], by rw [hf]; exact ht⟩
  · exact ⟨r, by simp [hj], ht⟩

theorem LinesOk.mapHeads {stockIns : Table StockInItem} {changes : Table StockChangeItem}
    {claims : Table ConsumableRequestItem} (h : LinesOk requests stockIns changes claims)
    (hmap : ∀ j types, HeadOfType requests j types → HeadOfType requests' j types) :
    LinesOk requests' stockIns changes claims :=
  { h with
    stockIn := fun j l hl => ⟨(h.stockIn j l hl).1, hmap _ _ (h.stockIn j l hl).2⟩
    change := fun j l hl => ⟨(h.change j l hl).1, hmap _ _ (h.change j l hl).2⟩
    claim := fun j l hl => ⟨(h.claim j l hl).1, hmap _ _ (h.claim j l hl).2⟩ }

theorem ActionLinesOk.mapHeads {borrows : Table BorrowRecord} {actions : Table BorrowActionItem}
    {settlements : Table AgentSettlementItem}
    (h : ActionLinesOk requests borrows actions settlements)
    (hmap : ∀ j types, HeadOfType requests j types → HeadOfType requests' j types) :
    ActionLinesOk requests' borrows actions settlements where
  action := fun j l hl =>
    ⟨(h.action j l hl).1, hmap _ _ (h.action j l hl).2.1, (h.action j l hl).2.2⟩
  settlement := fun j l hl =>
    ⟨(h.settlement j l hl).1, hmap _ _ (h.settlement j l hl).2.1, (h.settlement j l hl).2.2⟩

theorem heldQty_insert {j n : Nat} (h : HeadOfType requests j types) (hn : requests.find? n = none)
    (q : Int) : heldQty (requests.insert n row) j q = heldQty requests j q := by
  obtain ⟨r, hr, -⟩ := h
  have hne : j ≠ n := fun hj => by rw [hj, hn] at hr; cases hr
  unfold heldQty stockPending
  rw [Table.find?_insert_ne _ _ hne]

theorem occupyingQty_insert {j n : Nat} (h : HeadOfType requests j types)
    (hn : requests.find? n = none) (q : Int) :
    occupyingQty (requests.insert n row) j q = occupyingQty requests j q := by
  obtain ⟨r, hr, -⟩ := h
  have hne : j ≠ n := fun hj => by rw [hj, hn] at hr; cases hr
  unfold occupyingQty actionPending
  rw [Table.find?_insert_ne _ _ hne]

theorem heldQty_close (h : HeadOfType requests j types) (htypes : ∀ t ∈ types, t.holdsStock = true)
    (hid : requests.find? id = some row) (hpending : row.status = .pending)
    (hclosed : (f row).status ≠ .pending) (q : Int) :
    heldQty (requests.update id f) j q + (if j = id then q else 0) = heldQty requests j q := by
  unfold heldQty stockPending
  by_cases hj : j = id
  · subst hj
    obtain ⟨r, hr, ht⟩ := h
    obtain rfl : row = r := by simpa [hid] using hr
    simp [hid, hpending, hclosed, htypes _ ht]
  · simp [Table.find?_update_ne _ _ hj, hj]

theorem occupyingQty_close (h : HeadOfType requests j types)
    (htypes : ∀ t ∈ types, t = .return ∨ t = .writeOff) (hid : requests.find? id = some row)
    (hpending : row.status = .pending) (hclosed : (f row).status ≠ .pending) (q : Int) :
    occupyingQty (requests.update id f) j q + (if j = id then q else 0) =
      occupyingQty requests j q := by
  unfold occupyingQty actionPending
  by_cases hj : j = id
  · subst hj
    obtain ⟨r, hr, ht⟩ := h
    obtain rfl : row = r := by simpa [hid] using hr
    have hty := htypes _ ht
    simp [hid, hpending, hclosed, hty]
  · simp [Table.find?_update_ne _ _ hj, hj]

variable {k : Slack} {n : Nat} {s : Store}

theorem Inv.insertHead (h : Inv k n s) (row : ApprovalRequest) :
    Inv k (n + 1) { s with approvalRequests := s.approvalRequests.insert n row } := by
  have hnone := h.fresh.approvalRequests.find?_none (Nat.le_refl n)
  exact
    { h with
      fresh := { h.fresh.mono n.le_succ with
        approvalRequests := (h.fresh.approvalRequests.mono n.le_succ).insert n.lt_succ_self row }
      reserve := fun i => by
        rw [h.reserve i]
        unfold pendingLineQty
        rw [Table.sumBy_congr fun j l hl => (heldQty_insert (h.lines.change j l hl).2 hnone l.qty),
          Table.sumBy_congr fun j l hl => (heldQty_insert (h.lines.claim j l hl).2 hnone l.qty)]
      lines := h.lines.mapHeads fun j types hj => hj.insert hnone
      actionLines := h.actionLines.mapHeads fun j types hj => hj.insert hnone
      occupied := fun b => by
        refine Int.le_trans (Int.le_of_eq ?_) (h.occupied b)
        unfold occupiedQty
        rw [Table.sumBy_congr fun j l hl =>
          (occupyingQty_insert (h.actionLines.action j l hl).2.1 hnone l.qty)] }

theorem Inv.closeHead (h : Inv k n s) (hid : s.approvalRequests.find? id = some row)
    (hpending : row.status = .pending) (hclosed : (f row).status ≠ .pending)
    (hf : ∀ r, (f r).requestType = r.requestType) :
    Inv
      { k with
        owed := fun i => headLineQty s.stockChangeItems s.consumableRequestItems id i + k.owed i,
        act := fun b => headActionQty s.borrowActionItems id b + k.act b }
      n { s with approvalRequests := s.approvalRequests.update id f } :=
  { h with
    fresh := { h.fresh with approvalRequests := h.fresh.approvalRequests.alter _ }
    reserve := fun i => by
      have hchange : s.stockChangeItems.sumBy (·.inventoryItemId)
          (fun l => heldQty s.approvalRequests l.requestId l.qty) i =
          s.stockChangeItems.sumBy (·.inventoryItemId) (fun l =>
            heldQty (s.approvalRequests.update id f) l.requestId l.qty +
              (if l.requestId = id then l.qty else 0)) i :=
        congrFun (Table.sumBy_congr fun j l hl =>
          (heldQty_close (h.lines.change j l hl).2 (by decide) hid hpending hclosed l.qty).symm) i
      have hclaim : s.consumableRequestItems.sumBy (·.inventoryItemId)
          (fun l => heldQty s.approvalRequests l.requestId l.qty) i =
          s.consumableRequestItems.sumBy (·.inventoryItemId) (fun l =>
            heldQty (s.approvalRequests.update id f) l.requestId l.qty +
              (if l.requestId = id then l.qty else 0)) i :=
        congrFun (Table.sumBy_congr fun j l hl =>
          (heldQty_close (h.lines.claim j l hl).2 (by decide) hid hpending hclosed l.qty).symm) i
      rw [h.reserve i]
      unfold pendingLineQty headLineQty
      rw [hchange, hclaim, Table.sumBy_add, Table.sumBy_add]
      dsimp only
      omega
    lines := h.lines.mapHeads fun j types hj => hj.update hf
    actionLines := h.actionLines.mapHeads fun j types hj => hj.update hf
    occupied := fun b => by
      have haction : s.borrowActionItems.sumBy (·.borrowRecordId)
          (fun l => occupyingQty s.approvalRequests l.requestId l.qty) b =
          s.borrowActionItems.sumBy (·.borrowRecordId) (fun l =>
            occupyingQty (s.approvalRequests.update id f) l.requestId l.qty +
              (if l.requestId = id then l.qty else 0)) b :=
        congrFun (Table.sumBy_congr fun j l hl => (occupyingQty_close
          (h.actionLines.action j l hl).2.1 (by decide) hid hpending hclosed l.qty).symm) b
      have hb := h.occupied b
      unfold occupiedQty at hb ⊢
      rw [haction, Table.sumBy_add] at hb
      unfold headActionQty
      dsimp only
      omega }

end Heads

section Lines

variable {k : Slack} {n : Nat} {s : Store}

def PendingHead (s : Store) (id : Nat) (types : List RequestType) : Prop :=
  ∃ r, s.approvalRequests.find? id = some r ∧ r.requestType ∈ types ∧ r.status = .pending

variable {id : Nat}

theorem PendingHead.headOfType (h : PendingHead s id types) :
    HeadOfType s.approvalRequests id types := by
  obtain ⟨r, hr, ht, -⟩ := h
  exact ⟨r, hr, ht⟩

theorem PendingHead.heldQty (h : PendingHead s id types) (htypes : ∀ t ∈ types, t.holdsStock = true)
    (q : Int) : heldQty s.approvalRequests id q = q := by
  obtain ⟨r, hr, ht, hp⟩ := h
  simp [Asset.heldQty, stockPending, hr, hp, htypes _ ht]

theorem PendingHead.occupyingQty (h : PendingHead s id types)
    (htypes : ∀ t ∈ types, t = .return ∨ t = .writeOff) (q : Int) :
    occupyingQty s.approvalRequests id q = q := by
  obtain ⟨r, hr, ht, hp⟩ := h
  have hty := htypes _ ht
  simp [Asset.occupyingQty, actionPending, hr, hp, hty]

theorem unique_insert {α : Type} {t : Table α} {n : Nat} {row : α} {R : α → α → Prop}
    (hsymm : ∀ a b, R a b → R b a)
    (h : ∀ j l j' l', t.find? j = some l → t.find? j' = some l' → R l l' → j = j')
    (hrow : ∀ j l, t.find? j = some l → ¬ R l row) :
    ∀ j l j' l', (t.insert n row).find? j = some l → (t.insert n row).find? j' = some l' →
      R l l' → j = j' := by
  intro j l j' l' hj hj' hs
  obtain ⟨rfl, rfl⟩ | ⟨-, ht⟩ := find?_insert_cases hj
  · obtain ⟨rfl, rfl⟩ | ⟨-, ht'⟩ := find?_insert_cases hj'
    · rfl
    · exact absurd (hsymm _ _ hs) (hrow j' l' ht')
  · obtain ⟨rfl, rfl⟩ | ⟨-, ht'⟩ := find?_insert_cases hj'
    · exact absurd hs (hrow j l ht)
    · exact h j l j' l' ht ht' hs

theorem Inv.insertStockInLine (h : Inv k n s) {row : StockInItem} (hq : 0 < row.qty)
    (hhead : HeadOfType s.approvalRequests row.requestId [.stockIn])
    (hnew : ∀ j l, s.stockInItems.find? j = some l → ¬ (l.requestId = row.requestId ∧
      l.consumableId = row.consumableId ∧ l.snapshot.spec = row.snapshot.spec ∧
      l.warehouseId = row.warehouseId)) :
    Inv k (n + 1) { s with stockInItems := s.stockInItems.insert n row } := by
  have hunique := unique_insert (n := n)
    (R := fun a b : StockInItem => a.requestId = b.requestId ∧
      a.consumableId = b.consumableId ∧ a.snapshot.spec = b.snapshot.spec ∧
      a.warehouseId = b.warehouseId)
    (fun a b hab => ⟨hab.1.symm, hab.2.1.symm, hab.2.2.1.symm, hab.2.2.2.symm⟩)
    (fun j l j' l' hj hj' hs =>
      h.lines.stockIn_unique j l j' l' hj hj' hs.1 hs.2.1 hs.2.2.1 hs.2.2.2) hnew
  exact
    { h with
      fresh := { h.fresh.mono n.le_succ with
        stockInItems := (h.fresh.stockInItems.mono n.le_succ).insert n.lt_succ_self row }
      lines :=
        { h.lines with
          stockIn := fun j l hl => by
            obtain ⟨rfl, rfl⟩ | ⟨-, hl⟩ := find?_insert_cases hl
            · exact ⟨hq, hhead⟩
            · exact h.lines.stockIn j l hl
          stockIn_unique := fun j l j' l' hj hj' h₁ h₂ h₃ h₄ =>
            hunique j l j' l' hj hj' ⟨h₁, h₂, h₃, h₄⟩ } }

theorem Inv.insertChangeLine (h : Inv k n s) {row : StockChangeItem} (hq : 0 < row.qty)
    (hhead : PendingHead s row.requestId [.stockChange])
    (hnew : ∀ j l, s.stockChangeItems.find? j = some l → ¬ (l.requestId = row.requestId ∧
      l.inventoryItemId = row.inventoryItemId)) :
    Inv { k with owed := bump k.owed row.inventoryItemId (-row.qty) } (n + 1)
      { s with stockChangeItems := s.stockChangeItems.insert n row } := by
  have hnone := h.fresh.stockChangeItems.find?_none (Nat.le_refl n)
  have hunique := unique_insert (n := n)
    (R := fun a b : StockChangeItem => a.requestId = b.requestId ∧
      a.inventoryItemId = b.inventoryItemId)
    (fun a b hab => ⟨hab.1.symm, hab.2.symm⟩)
    (fun j l j' l' hj hj' hs => h.lines.change_unique j l j' l' hj hj' hs.1 hs.2) hnew
  exact
    { h with
      fresh := { h.fresh.mono n.le_succ with
        stockChangeItems := (h.fresh.stockChangeItems.mono n.le_succ).insert n.lt_succ_self row }
      reserve := fun i => by
        rw [h.reserve i]
        unfold pendingLineQty
        rw [Table.sumBy_insert hnone, hhead.heldQty (by decide)]
        simp only [bump]
        split <;> omega
      lines :=
        { h.lines with
          change := fun j l hl => by
            obtain ⟨rfl, rfl⟩ | ⟨-, hl⟩ := find?_insert_cases hl
            · exact ⟨hq, hhead.headOfType⟩
            · exact h.lines.change j l hl
          change_unique := fun j l j' l' hj hj' h₁ h₂ => hunique j l j' l' hj hj' ⟨h₁, h₂⟩ } }

theorem Inv.insertClaimLine (h : Inv k n s) {row : ConsumableRequestItem} (hq : 0 < row.qty)
    (hhead : PendingHead s row.requestId [.consumableRequest, .agentRequest])
    (hnew : ∀ j l, s.consumableRequestItems.find? j = some l →
      ¬ (l.requestId = row.requestId ∧ l.inventoryItemId = row.inventoryItemId)) :
    Inv { k with owed := bump k.owed row.inventoryItemId (-row.qty) } (n + 1)
      { s with consumableRequestItems := s.consumableRequestItems.insert n row } := by
  have hnone := h.fresh.consumableRequestItems.find?_none (Nat.le_refl n)
  have hunique := unique_insert (n := n)
    (R := fun a b : ConsumableRequestItem => a.requestId = b.requestId ∧
      a.inventoryItemId = b.inventoryItemId)
    (fun a b hab => ⟨hab.1.symm, hab.2.symm⟩)
    (fun j l j' l' hj hj' hs => h.lines.claim_unique j l j' l' hj hj' hs.1 hs.2) hnew
  exact
    { h with
      fresh := { h.fresh.mono n.le_succ with
        consumableRequestItems :=
          (h.fresh.consumableRequestItems.mono n.le_succ).insert n.lt_succ_self row }
      reserve := fun i => by
        rw [h.reserve i]
        unfold pendingLineQty
        rw [Table.sumBy_insert hnone, hhead.heldQty (by decide)]
        simp only [bump]
        split <;> omega
      lines :=
        { h.lines with
          claim := fun j l hl => by
            obtain ⟨rfl, rfl⟩ | ⟨-, hl⟩ := find?_insert_cases hl
            · exact ⟨hq, hhead.headOfType⟩
            · exact h.lines.claim j l hl
          claim_unique := fun j l j' l' hj hj' h₁ h₂ => hunique j l j' l' hj hj' ⟨h₁, h₂⟩ } }

theorem Inv.insertActionLine (h : Inv k n s) {row : BorrowActionItem} (hq : 0 < row.qty)
    (hhead : PendingHead s row.requestId [.return, .writeOff])
    (hrec : RecordOfType s.borrowRecords row.borrowRecordId .personal) :
    Inv { k with act := bump k.act row.borrowRecordId (-row.qty) } (n + 1)
      { s with borrowActionItems := s.borrowActionItems.insert n row } := by
  have hnone := h.fresh.borrowActionItems.find?_none (Nat.le_refl n)
  exact
    { h with
      fresh := { h.fresh.mono n.le_succ with
        borrowActionItems := (h.fresh.borrowActionItems.mono n.le_succ).insert n.lt_succ_self row }
      actionLines :=
        { h.actionLines with
          action := fun j l hl => by
            obtain ⟨rfl, rfl⟩ | ⟨-, hl⟩ := find?_insert_cases hl
            · exact ⟨hq, hhead.headOfType, hrec⟩
            · exact h.actionLines.action j l hl }
      occupied := fun b => by
        have hb := h.occupied b
        unfold occupiedQty at hb ⊢
        rw [Table.sumBy_insert hnone, hhead.occupyingQty (by decide)]
        simp only [bump]
        split <;> omega }

theorem Inv.insertSettlementLine (h : Inv k n s) {row : AgentSettlementItem} (hq : 0 < row.qty)
    (hhead : HeadOfType s.approvalRequests row.requestId [.agentSettlement])
    (hrec : RecordOfType s.borrowRecords row.borrowRecordId .agent) :
    Inv k (n + 1) { s with agentSettlementItems := s.agentSettlementItems.insert n row } :=
  { h with
    fresh := { h.fresh.mono n.le_succ with
      agentSettlementItems :=
        (h.fresh.agentSettlementItems.mono n.le_succ).insert n.lt_succ_self row }
    actionLines :=
      { h.actionLines with
        settlement := fun j l hl => by
          obtain ⟨rfl, rfl⟩ | ⟨-, hl⟩ := find?_insert_cases hl
          · exact ⟨hq, hhead, hrec⟩
          · exact h.actionLines.settlement j l hl } }

end Lines

section Other

variable {k : Slack} {n : Nat} {s : Store}

theorem Inv.insertAction (h : Inv k n s) (row : ApprovalActionRecord) :
    Inv k (n + 1) { s with approvalActions := s.approvalActions.insert n row } :=
  { h with
    fresh := { h.fresh.mono n.le_succ with
      approvalActions := (h.fresh.approvalActions.mono n.le_succ).insert n.lt_succ_self row } }

theorem Inv.insertRecipient (h : Inv k n s) (row : AgentRecipient) :
    Inv k (n + 1) { s with agentRecipients := s.agentRecipients.insert n row } :=
  { h with
    fresh := { h.fresh.mono n.le_succ with
      agentRecipients := (h.fresh.agentRecipients.mono n.le_succ).insert n.lt_succ_self row } }

theorem Inv.insertQuota (h : Inv k n s) (row : QuotaOccupation) :
    Inv k (n + 1) { s with quotaOccupations := s.quotaOccupations.insert n row } :=
  { h with
    fresh := { h.fresh.mono n.le_succ with
      quotaOccupations := (h.fresh.quotaOccupations.mono n.le_succ).insert n.lt_succ_self row } }

theorem Inv.updateQuotas (h : Inv k n s) (p : Nat → QuotaOccupation → Bool)
    (f : QuotaOccupation → QuotaOccupation) :
    Inv k n { s with quotaOccupations := s.quotaOccupations.updateMany p f } :=
  { h with fresh := { h.fresh with quotaOccupations := h.fresh.quotaOccupations.alter _ } }

theorem Inv.insertTransfer (h : Inv k n s) (row : InventoryTransfer) :
    Inv k (n + 1) { s with inventoryTransfers := s.inventoryTransfers.insert n row } :=
  { h with
    fresh := { h.fresh.mono n.le_succ with
      inventoryTransfers :=
        (h.fresh.inventoryTransfers.mono n.le_succ).insert n.lt_succ_self row } }

theorem Inv.insertTransferLine (h : Inv k n s) (row : TransferBatchItem) :
    Inv k (n + 1) { s with transferBatchItems := s.transferBatchItems.insert n row } :=
  { h with
    fresh := { h.fresh.mono n.le_succ with
      transferBatchItems :=
        (h.fresh.transferBatchItems.mono n.le_succ).insert n.lt_succ_self row } }

theorem Inv.insertCorrection (h : Inv k n s) (row : BatchCorrection) :
    Inv k (n + 1) { s with batchCorrections := s.batchCorrections.insert n row } :=
  { h with
    fresh := { h.fresh.mono n.le_succ with
      batchCorrections := (h.fresh.batchCorrections.mono n.le_succ).insert n.lt_succ_self row } }

theorem Inv.insertDisposal (h : Inv k n s) (row : DirectDisposalRecord) :
    Inv k (n + 1) { s with directDisposalRecords := s.directDisposalRecords.insert n row } :=
  { h with
    fresh := { h.fresh.mono n.le_succ with
      directDisposalRecords :=
        (h.fresh.directDisposalRecords.mono n.le_succ).insert n.lt_succ_self row } }

theorem Inv.updateDisposal (h : Inv k n s) (id : Nat)
    (f : DirectDisposalRecord → DirectDisposalRecord) :
    Inv k n { s with directDisposalRecords := s.directDisposalRecords.update id f } :=
  { h with
    fresh := { h.fresh with directDisposalRecords := h.fresh.directDisposalRecords.alter _ } }

end Other

end Wbme.Asset
