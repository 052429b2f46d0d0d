import Wbme.Asset.Preservation.Claims

/-! # Settling borrow records keeps the invariant

A restored quantity goes back to allocations, batches and the item before it
reaches the record. The invariant guarantees everything the restoring code
checks: the allocations are at home, they hold what is open, and the item of an
open record exists. So settling fails only when more is asked for than is open
and free.
-/

namespace Wbme.Asset

open Lib Approval

variable {k : Slack} {n : Nat} {s : Store} {E : Failure → Prop}

/-! ## Allocations of a record -/

def AllocationRow.stored (a : AllocationRow) (recordId : Nat) : BorrowBatchAllocation :=
  ⟨recordId, a.batchId, a.issuedQty, a.returnedQty⟩

def CurrentAllocations (s : Store) (recordId : Nat) (rows : List AllocationRow) : Prop :=
  (∀ a ∈ rows, s.borrowBatchAllocations.find? a.id = some (a.stored recordId)) ∧
    (rows.map (·.id)).Nodup

variable {exempt : Nat → Prop} {r : BorrowRecord} {line : SettleLine} {s₀ : Store} {id : Nat}
  {a : AllocationRow}

variable {Q : BorrowRecordLockRow → Nat → Store → Prop} {head : SideHead} {recordId : Nat}
  {p : BorrowRecordLockRow} {qty : Int} {r₀ : BorrowRecord} {i : Nat}

theorem mem_allocationRows (h : a ∈ allocationRows s recordId) :
    s.borrowBatchAllocations.find? a.id = some (a.stored recordId) ∧
      ∃ b, s.batches.find? a.batchId = some b ∧ a.inventoryItemId = b.inventoryItemId := by
  obtain ⟨p, hp, ha⟩ := List.mem_filterMap.mp (List.mem_reverse.mp h)
  obtain ⟨b, hb, rfl⟩ := Option.map_eq_some_iff.mp ha
  obtain ⟨hfind, hrec⟩ := Table.mem_select.mp hp
  rw [beq_iff_eq] at hrec
  subst hrec
  exact ⟨hfind, b, hb, rfl⟩

theorem allocationRows_eq (h : Inv k n s) (recordId : Nat) :
    allocationRows s recordId =
      ((s.borrowBatchAllocations.select (fun _ a => a.borrowRecordId == recordId)).map (fun p =>
        { id := p.1, batchId := p.2.batchId, issuedQty := p.2.issuedQty,
          returnedQty := p.2.returnedQty,
          inventoryItemId := ((s.batches.find? p.2.batchId).map (·.inventoryItemId)).getD 0 :
          AllocationRow })).reverse := by
  unfold allocationRows
  rw [← List.filterMap_eq_map]
  congr 1
  refine List.filterMap_congr fun p hp => ?_
  obtain ⟨b, r, hb, -, -⟩ := h.allocations.home p.1 p.2 (Table.mem_select.mp hp).1
  simp [hb]

theorem currentAllocations_allocationRows (h : Inv k n s) (recordId : Nat) :
    CurrentAllocations s recordId (allocationRows s recordId) := by
  refine ⟨fun a ha => (mem_allocationRows ha).1, ?_⟩
  rw [allocationRows_eq h, List.map_reverse, List.nodup_reverse, List.map_map]
  exact List.pairwise_map.mpr ((Table.select_pairwise _ _).imp fun hlt => Nat.ne_of_lt hlt)

theorem allocatedQty_allocationRows (h : Inv k n s) (hr : s.borrowRecords.find? recordId = some r)
    (hlent : k.lent recordId = 0) (hback : k.back recordId = 0) :
    allocatedQty (allocationRows s recordId) = r.qty - r.returnedQty := by
  have hissued := h.allocations.issued recordId
  have hreturned := h.allocations.returned recordId
  rw [Table.valueAt_of_find? hr] at hissued hreturned
  have hsum : allocatedQty (allocationRows s recordId) =
      issuedOf s.borrowBatchAllocations recordId - returnedOf s.borrowBatchAllocations recordId := by
    rw [allocationRows_eq h, allocatedQty, List.map_reverse, List.sum_reverse, List.map_map]
    refine (Table.sum_select _ _ _).trans ?_
    unfold issuedOf returnedOf Table.sumBy
    rw [← Table.total_sub]
    refine Table.total_congr fun _ a _ => ?_
    by_cases ha : a.borrowRecordId = recordId <;> simp [ha]
  omega

theorem allocationsHome_allocationRows (h : Inv k n s)
    (hr : s.borrowRecords.find? recordId = some r) {w : BorrowRecordLockRow}
    (hitem : w.2.inventoryItemId = r.inventoryItemId) :
    allocationsHome w (allocationRows s recordId) = true := by
  refine List.all_eq_true.mpr fun a ha => ?_
  obtain ⟨hfind, b, hb, hab⟩ := mem_allocationRows ha
  obtain ⟨b', r', hb', hr', heq⟩ := h.allocations.home a.id _ hfind
  obtain rfl : b = b' := by simpa [AllocationRow.stored, hb] using hb'
  obtain rfl : r = r' := by simpa [AllocationRow.stored, hr] using hr'
  rw [beq_iff_eq, hab, heq, hitem]

theorem allocationRows_ne_nil (h : Inv k n s) {recordId : Nat} {r : BorrowRecord}
    (hr : s.borrowRecords.find? recordId = some r) (hlent : k.lent recordId = 0)
    (hback : k.back recordId = 0) (hopen : r.qty ≠ r.returnedQty) :
    (allocationRows s recordId).isEmpty = false := by
  have hqty := allocatedQty_allocationRows h hr hlent hback
  cases hrows : allocationRows s recordId with
  | nil =>
      rw [hrows] at hqty
      simp only [allocatedQty, List.map_nil, List.sum_nil] at hqty
      omega
  | cons a as => rfl

/-! ## Restoring -/

/-- What restoring a quantity to an item leaves alone: everything but allocations, batches, the
item's book and the flows. -/
structure Restored (s : Store) (i : Nat) (qty : Int) (s' : Store) : Prop where
  frame : ∃ items batches flows allocs,
    s' = { s with
      inventoryItems := items, batches := batches, stockFlows := flows,
      borrowBatchAllocations := allocs }
  book : bookOf s'.inventoryItems = bump (bookOf s.inventoryItems) i qty
  reserved : reservedOf s'.inventoryItems = reservedOf s.inventoryItems
  item : ∀ j, ((s'.inventoryItems.find? j).isSome ↔ (s.inventoryItems.find? j).isSome)
  batches : ∀ b r, s.batches.find? b = some r →
    ∃ r', s'.batches.find? b = some r' ∧ r'.inventoryItemId = r.inventoryItemId

theorem Restored.refl (s : Store) (i : Nat) : Restored s i 0 s where
  frame := ⟨_, _, _, _, rfl⟩
  book := (bump_zero _ _).symm
  reserved := rfl
  item := fun _ => Iff.rfl
  batches := fun _ r hr => ⟨r, hr, rfl⟩

theorem Restored.trans {s₁ s₂ s₃ : Store} {x y : Int} (h₁ : Restored s₁ i x s₂)
    (h₂ : Restored s₂ i y s₃) : Restored s₁ i (x + y) s₃ where
  frame := by
    obtain ⟨_, _, _, _, rfl⟩ := h₁.frame
    obtain ⟨_, _, _, _, rfl⟩ := h₂.frame
    exact ⟨_, _, _, _, rfl⟩
  book := by rw [h₂.book, h₁.book, bump_bump]
  reserved := h₂.reserved.trans h₁.reserved
  item := fun j => (h₂.item j).trans (h₁.item j)
  batches := fun b r hr => by
    obtain ⟨r', hr', he'⟩ := h₁.batches b r hr
    obtain ⟨r'', hr'', he''⟩ := h₂.batches b r' hr'
    exact ⟨r'', hr'', he''.trans he'⟩

theorem restoreSegment {recordId i : Nat} {b : Batch} {r : InventoryItem} {q : Int} {w : StockFlow}
    (h : Inv k n s) (ha : s.borrowBatchAllocations.find? a.id = some (a.stored recordId))
    (hb : s.batches.find? a.batchId = some b) (hbi : b.inventoryItemId = i)
    (hr : s.inventoryItems.find? i = some r) (hk : k.unposted i = 0) (htake : 0 < q)
    (hle : q ≤ a.issuedQty - a.returnedQty)
    (hflow : w.flowType = .return ∧ w.direction = .in ∧ w.inventoryItemId = i ∧
      w.batchId = some a.batchId ∧ w.qty = q ∧ w.bookBefore = r.bookQty ∧
      w.bookAfter = r.bookQty + q) :
    Inv { k with back := bump k.back recordId q } (n + 1)
      { s with
        borrowBatchAllocations := s.borrowBatchAllocations.update a.id
          (fun a => { a with returnedQty := a.returnedQty + q }),
        batches := s.batches.update a.batchId
          (fun b => { b with remainingQty := b.remainingQty + q }),
        inventoryItems := s.inventoryItems.update i
          (fun r => { r with bookQty := r.bookQty + q }),
        stockFlows := s.stockFlows.insert n w } := by
  obtain ⟨htype, hdir, hitem, hbatch, hqty, hbefore, hafter⟩ := hflow
  obtain ⟨hissued, hret, hret'⟩ := h.allocations.quantities a.id _ ha
  dsimp only [AllocationRow.stored] at hissued hret hret'
  have h₁ := h.updateAlloc ha (x := q)
    (f := fun a => { a with returnedQty := a.returnedQty + q }) rfl rfl rfl rfl (by
      rw [BorrowBatchAllocation.quantitiesOk_iff]
      dsimp only [AllocationRow.stored]
      omega)
  have h₂ := h₁.updateBatch hb (x := q)
    (f := fun b => { b with remainingQty := b.remainingQty + q }) rfl rfl (by
      have := h.stock.remaining_nonneg _ _ hb
      dsimp only
      omega)
  have hquantities := h.stock.quantities i r hr
  have h₃ := h₂.updateItem hr (x := q) (y := 0)
    (f := fun r => { r with bookQty := r.bookQty + q }) (e := k.exempt) rfl (by simp) rfl
    (quantitiesOk_iff.mpr (by dsimp only; omega)) (fun _ _ hx => hx)
    (fun hzero _ _ => by dsimp only at hzero; omega)
  have h₄ := h₃.insertFlow (w := w) (b := a.batchId) (by omega)
    (fun ht => by rw [htype] at ht; cases ht) hbatch
    (by
      dsimp only
      rw [hitem, bookOf_update hr (x := q) rfl, bump_self, bump_self, hk, hbefore, bookOf,
        Table.valueAt_of_find? hr]
      omega)
    (by rw [hafter, hbefore, StockFlow.change, hdir, hqty])
  have hchange : w.change = q := by rw [StockFlow.change, hdir, hqty]
  simp only [hchange, hitem, hbi, bump_bump, Int.add_left_neg, bump_zero,
    AllocationRow.stored] at h₄
  exact h₄.weaken (fun _ hx => hx) (fun _ => Int.le_refl _) (fun _ hb => hb.2)

theorem restored_segment {r : InventoryItem} {q : Int} {w : StockFlow}
    (hr : s.inventoryItems.find? i = some r) :
    Restored s i q
      { s with
        borrowBatchAllocations := s.borrowBatchAllocations.update a.id
          (fun a => { a with returnedQty := a.returnedQty + q }),
        batches := s.batches.update a.batchId
          (fun b => { b with remainingQty := b.remainingQty + q }),
        inventoryItems := s.inventoryItems.update i
          (fun r => { r with bookQty := r.bookQty + q }),
        stockFlows := s.stockFlows.insert n w } where
  frame := ⟨_, _, _, _, rfl⟩
  book := bookOf_update hr rfl
  reserved := Table.valueAt_update_of_eq _ _ fun _ => rfl
  item := fun j => by simp [Table.find?_update]
  batches := fun b r hb => by
    dsimp only
    rw [Table.find?_update, hb]
    refine ⟨_, rfl, ?_⟩
    dsimp only
    split <;> rfl

theorem restoreAllocations_wp {recordId i : Nat} {ref : RestoreRef} {item : InventoryItemLockRow}
    {rows : List AllocationRow} {remaining bookQty : Int} {flowIds : List Nat} (h : Inv k n s)
    (hrows : CurrentAllocations s recordId rows)
    (hbatches : ∀ a ∈ rows, ∃ b, s.batches.find? a.batchId = some b ∧ b.inventoryItemId = i)
    (hitem : (s.inventoryItems.find? i).isSome) (hid : item.id = i)
    (hbook : bookQty = bookOf s.inventoryItems i) (hk : k.unposted i = 0) (h0 : 0 ≤ remaining) :
    (restoreAllocations ref item rows remaining bookQty flowIds).wp
      (fun res n' s' => 0 ≤ res.1 ∧ res.1 ≤ max 0 (remaining - allocatedQty rows) ∧
        Inv { k with back := bump k.back recordId (remaining - res.1) } n' s' ∧
        Restored s i (remaining - res.1) s') E n s := by
  induction rows generalizing k n s remaining bookQty flowIds with
  | nil =>
      unfold restoreAllocations
      refine ⟨h0, ?_, ?_, ?_⟩
      · simp only [allocatedQty, List.map_nil, List.sum_nil]
        omega
      · simpa using h
      · simpa using Restored.refl s i
  | cons a rows ih =>
      have ha := hrows.1 a List.mem_cons_self
      have hnodup := hrows.2
      rw [List.map_cons, List.nodup_cons] at hnodup
      have hquantities := h.allocations.quantities a.id _ ha
      dsimp only [AllocationRow.stored] at hquantities
      have htail : CurrentAllocations s recordId rows :=
        ⟨fun b hb => hrows.1 b (List.mem_cons_of_mem _ hb), hnodup.2⟩
      have hrest : 0 ≤ allocatedQty rows := List.sum_nonneg fun x hx => by
        obtain ⟨b, hb, rfl⟩ := List.mem_map.mp hx
        have := h.allocations.quantities b.id _ (htail.1 b hb)
        dsimp only [AllocationRow.stored] at this
        omega
      have hsum : allocatedQty (a :: rows) = a.issuedQty - a.returnedQty + allocatedQty rows := by
        simp [allocatedQty]
      have htailBatches : ∀ b ∈ rows, ∃ c, s.batches.find? b.batchId = some c ∧
          c.inventoryItemId = i := fun b hb => hbatches b (List.mem_cons_of_mem _ hb)
      unfold restoreAllocations
      split
      · refine ⟨h0, by omega, ?_, ?_⟩
        · simpa using h
        · simpa using Restored.refl s i
      · split
        · refine Txn.wp_mono (ih h htail htailBatches hitem hbook hk h0) ?_
          rintro res n' s' ⟨hres, hle, hinv, hframe⟩
          exact ⟨hres, by omega, hinv, hframe⟩
        · obtain ⟨b, hb, hbi⟩ := hbatches a List.mem_cons_self
          obtain ⟨r, hr⟩ := Option.isSome_iff_exists.mp hitem
          have hitemOk := h.stock.quantities i r hr
          have hbatchOk := h.stock.remaining_nonneg _ b hb
          rw [bookOf, Table.valueAt_of_find? hr] at hbook
          generalize htake : min (a.issuedQty - a.returnedQty) remaining = take
          dsimp only
          rw [Txn.wp_bind]
          refine borrowBatchAllocationUpdate_ok ha (by
            rw [BorrowBatchAllocation.quantitiesOk_iff]
            dsimp only [AllocationRow.stored]
            omega) ?_
          rw [Txn.wp_bind]
          refine batchUpdate_ok hb (by dsimp only; omega) ?_
          rw [Txn.wp_bind, hid]
          refine inventoryItemUpdate_ok hr (quantitiesOk_iff.mpr (by dsimp only; omega)) ?_
          rw [Txn.wp_bind]
          refine stockFlowCreate_ok (by dsimp only; omega) (by dsimp only; omega)
            (by dsimp only; omega) ?_
          have hstep := restoreSegment (q := take) (w :=
            { flowType := .return, direction := .in, inventoryItemId := item.id,
              batchId := some a.batchId, snapshot := item.snapshot, qty := take,
              bookBefore := bookQty, bookAfter := bookQty + take, refType := ref.refType,
              refId := ref.refId, operatorId := ref.operatorId,
              operatorName := ref.operatorName }) h ha hb hbi hr hk (by omega) (by omega)
            ⟨rfl, rfl, hid, rfl, rfl, hbook, by dsimp only; omega⟩
          have hframe := restored_segment (n := n) (a := a) (q := take) (w :=
            { flowType := .return, direction := .in, inventoryItemId := item.id,
              batchId := some a.batchId, snapshot := item.snapshot, qty := take,
              bookBefore := bookQty, bookAfter := bookQty + take, refType := ref.refType,
              refId := ref.refId, operatorId := ref.operatorId,
              operatorName := ref.operatorName }) hr
          refine Txn.wp_mono (ih hstep ⟨fun c hc => ?_, htail.2⟩ (fun c hc => ?_)
            ((hframe.item i).mpr hitem) ?_ hk (by omega)) ?_
          · have hne : c.id ≠ a.id := fun he => hnodup.1 (he ▸ List.mem_map_of_mem hc)
            dsimp only
            rw [Table.find?_update_ne _ _ hne]
            exact htail.1 c hc
          · obtain ⟨d, hd, hdi⟩ := htailBatches c hc
            obtain ⟨d', hd', hdi'⟩ := hframe.batches _ d hd
            exact ⟨d', hd', hdi'.trans hdi⟩
          · rw [hframe.book, bump_self, bookOf, Table.valueAt_of_find? hr]
            omega
          · rintro res n' s' ⟨hres, hle, hinv, hframe'⟩
            have hqty : take + (remaining - take - res.1) = remaining - res.1 := by omega
            refine ⟨hres, by omega, ?_, ?_⟩
            · simpa only [bump_bump, hqty] using hinv
            · rw [← hqty]
              exact hframe.trans hframe'

/-! ## Settling a record -/

/-- Nothing is half posted, half lent or half returned. -/
structure Slack.Even (k : Slack) : Prop where
  unposted : ∀ i, k.unposted i = 0
  lent : ∀ j, k.lent j = 0
  back : ∀ j, k.back j = 0

structure Settled (s : Store) (id : Nat) (r : BorrowRecord) (x y : Int) (s' : Store) : Prop where
  frame : ∃ items batches flows allocs borrows,
    s' = { s with
      inventoryItems := items, batches := batches, stockFlows := flows,
      borrowBatchAllocations := allocs, borrowRecords := borrows }
  record : ∃ r', s'.borrowRecords.find? id = some r' ∧ r'.inventoryItemId = r.inventoryItemId ∧
    r'.recordType = r.recordType ∧ r'.openQty = r.openQty + -(x + y)
  others : ∀ j, j ≠ id → s'.borrowRecords.find? j = s.borrowRecords.find? j
  book : bookOf s'.inventoryItems = bump (bookOf s.inventoryItems) r.inventoryItemId x
  loans : openOn s'.borrowRecords = bump (openOn s.borrowRecords) r.inventoryItemId (-(x + y))

theorem Settled.requests {x y : Int} {s' : Store} (h : Settled s id r x y s') :
    s'.approvalRequests = s.approvalRequests := by
  obtain ⟨_, _, _, _, _, rfl⟩ := h.frame
  rfl

theorem writeOffRecord_wp (h : Inv k n s) (hr : s.borrowRecords.find? p.1 = some r) (hq : 0 < qty)
    {x : Nat → Prop} (hother : ∀ j, k.exempt j → x j)
    (hself : ∀ row, s.inventoryItems.find? r.inventoryItemId = some row → row.bookQty = 0 →
      row.reservedQty = 0 → openOn s.borrowRecords r.inventoryItemId = qty →
      x r.inventoryItemId) (hE : r.openQty < qty ∨ p.2.openQty -
      occupiedQty s.approvalRequests s.borrowActionItems p.1 < qty → ∀ e, E e) :
    (writeOffRecord p qty).wp
      (fun _ n' s' => Inv { k with act := bump k.act p.1 (-qty), exempt := x } n' s' ∧
        Settled s p.1 r 0 qty s' ∧ qty ≤ p.2.openQty -
          occupiedQty s.approvalRequests s.borrowActionItems p.1) E n s := by
  unfold writeOffRecord
  rw [Txn.wp_bind, availableActionQty, Txn.wp_query, Txn.wp_bind, Txn.wp_guard]
  rw [pendingActionQty_eq]
  refine ⟨fun hfree => ?_, fun hle => hE (.inr (by simpa using hle)) _⟩
  refine borrowRecordUpdate_wp hr (fun hok => ?_) fun hok => hE (.inl ?_) _
  · have hstep := h.updateRecord hr (x := 0) (y := qty)
      (f := fun r => { r with writtenOffQty := r.writtenOffQty + qty }) rfl rfl rfl (by simp) rfl
      (Int.le_refl 0) (Int.le_of_lt hq) hok hother (by simpa using hself)
    simp only [Int.neg_zero, Int.zero_add, bump_zero] at hstep
    refine ⟨hstep, ⟨⟨_, _, _, _, _, rfl⟩, ⟨_, Table.find?_update_of_find? hr _, rfl, rfl, ?_⟩,
      fun j hj => Table.find?_update_ne _ _ hj, (bump_zero _ _).symm, ?_⟩, by simpa using hfree⟩
    · simp only [BorrowRecord.openQty]
      omega
    · exact openOn_update hr rfl rfl (by simp) rfl
  · have hnot := mt BorrowRecord.quantitiesOk_iff.mpr (Bool.eq_false_iff.mp hok)
    have := h.records.quantities _ r hr
    dsimp only at hnot
    unfold BorrowRecord.openQty
    omega

theorem lockInventoryItem_wp {Q : Option InventoryItemLockRow → Nat → Store → Prop} {i : Nat}
    (h : Inv k n s) (hnone : s.inventoryItems.find? i = none → Q none n s)
    (hsome : ∀ r row, s.inventoryItems.find? i = some r → lockRow s i r = some row →
      Q (some row) n s) : (lockInventoryItem i).wp Q E n s := by
  unfold lockInventoryItem
  rw [Txn.wp_queryForUpdate]
  cases hr : s.inventoryItems.find? i with
  | none => exact hnone hr
  | some r =>
      obtain ⟨c, hc⟩ := Option.isSome_iff_exists.mp (h.consumables i r hr)
      rw [Option.bind_some, lockRow, hc]
      exact hsome r _ hr (by rw [lockRow, hc]; rfl)

theorem restoreRecord_wp {ref : RestoreRef} (h : Inv k n s) (hk : k.Even)
    (hr : s.borrowRecords.find? p.1 = some r) (hitem : p.2.inventoryItemId = r.inventoryItemId)
    (hq : 0 < qty) (hE : r.openQty < qty ∨ p.2.openQty -
      occupiedQty s.approvalRequests s.borrowActionItems p.1 < qty → ∀ e, E e) :
    (restoreRecord p qty ref).wp
      (fun _ n' s' => Inv { k with act := bump k.act p.1 (-qty) } n' s' ∧
        Settled s p.1 r qty 0 s' ∧ qty ≤ p.2.openQty -
          occupiedQty s.approvalRequests s.borrowActionItems p.1) E n s := by
  have hrec := h.records.quantities _ r hr
  have hopen : r.openQty = r.qty - r.returnedQty - r.writtenOffQty := rfl
  have hhome := allocationsHome_allocationRows h hr (w := p) hitem
  have halloc := allocatedQty_allocationRows h hr (hk.lent _) (hk.back _)
  unfold restoreRecord
  rw [Txn.wp_bind, availableActionQty, Txn.wp_query, Txn.wp_bind, Txn.wp_guard]
  rw [pendingActionQty_eq]
  refine ⟨fun hfree => ?_, fun hle => hE (.inr (by simpa using hle)) _⟩
  rw [decide_eq_true_eq] at hfree
  rw [Txn.wp_bind, Txn.wp_query, Txn.wp_bind, Txn.wp_guard, hhome, Bool.and_true]
  refine ⟨fun _ => ?_, fun hempty => hE (.inl ?_) _⟩
  swap
  · by_contra hle
    rw [allocationRows_ne_nil h hr (hk.lent _) (hk.back _) (by omega)] at hempty
    cases hempty
  rw [Txn.wp_bind]
  refine lockInventoryItem_wp h (fun hnone => hE (.inl ?_) _) fun item row hi hlock => ?_
  · by_contra hle
    have hsome := h.records.item _ r hr (by omega)
    rw [← hitem, hnone] at hsome
    cases hsome
  obtain ⟨hid, -, -, -, hbook, -⟩ := lockRow_eq_some hlock
  dsimp only
  rw [Txn.wp_bind, Txn.wp_queryForUpdate, Txn.wp_bind, Txn.wp_guard, hhome, Bool.and_true, halloc]
  refine ⟨fun _ => ?_, fun hle => hE (.inl ?_) _⟩
  swap
  · have : r.qty - r.returnedQty < qty := by simpa using hle
    omega
  rw [hitem] at hi hid
  rw [Txn.wp_bind]
  refine Txn.wp_mono (restoreAllocations_wp (i := r.inventoryItemId) h
    (currentAllocations_allocationRows h p.1) (fun a ha => ?_) (by rw [hi]; rfl) hid
    (by rw [hbook, bookOf, Table.valueAt_of_find? hi]) (hk.unposted _) (Int.le_of_lt hq)) ?_
  · obtain ⟨-, b, hb, hab⟩ := mem_allocationRows ha
    have hai := List.all_eq_true.mp hhome a ha
    rw [beq_iff_eq, hab, hitem] at hai
    exact ⟨b, hb, hai⟩
  · rintro ⟨remaining, flowIds⟩ n₁ s₁ ⟨hrem, hle, hinv, hframe⟩
    dsimp only at hrem hle hinv hframe ⊢
    rw [halloc] at hle
    rw [Txn.wp_bind, Txn.wp_guard]
    refine ⟨fun hzero => ?_, fun hpos => hE (.inl ?_) _⟩
    swap
    · have : 0 < remaining := by simpa using hpos
      omega
    obtain rfl : remaining = 0 := by
      have : remaining ≤ 0 := by simpa using hzero
      omega
    rw [Int.sub_zero] at hinv hframe
    obtain ⟨items, batches, flows, allocs, rfl⟩ := hframe.frame
    rw [Txn.wp_bind]
    refine borrowRecordUpdate_wp hr (fun hok => ?_) fun hok => hE (.inl ?_) _
    · have hbookOf := congrFun hframe.book r.inventoryItemId
      rw [bump_self] at hbookOf
      have hitemOk := h.stock.quantities _ item hi
      have hstep := hinv.updateRecord hr (x := qty) (y := 0) (e := k.exempt)
        (f := fun r => { r with returnedQty := r.returnedQty + qty }) rfl rfl rfl rfl (by simp)
        (Int.le_of_lt hq) (Int.le_refl 0) hok (fun _ hx => hx) (fun row hrow hzero _ _ => by
          rw [bookOf, Table.valueAt_of_find? hrow, bookOf, Table.valueAt_of_find? hi] at hbookOf
          omega)
      simp only [Int.add_zero, bump_bump, Int.add_right_neg, bump_zero] at hstep
      refine ⟨hstep, ⟨⟨_, _, _, _, _, rfl⟩, ⟨_, Table.find?_update_of_find? hr _, rfl, rfl, ?_⟩,
        fun j hj => Table.find?_update_ne _ _ hj, hframe.book, ?_⟩, hfree⟩
      · simp only [BorrowRecord.openQty]
        omega
      · exact openOn_update hr rfl rfl rfl (by simp)
    · have hnot := mt BorrowRecord.quantitiesOk_iff.mpr (Bool.eq_false_iff.mp hok)
      dsimp only at hnot
      omega

/-! ## Settling several lines -/

structure SettleLine where
  recordId : Nat
  qty : Int
  method : SettleMethod

def settledBy (lines : List SettleLine) : Nat → Int := sumOn (·.recordId) (·.qty) lines

def SettleLine.item (borrows : Table BorrowRecord) (line : SettleLine) : Option Nat :=
  (borrows.find? line.recordId).map (·.inventoryItemId)

def returnedOn (borrows : Table BorrowRecord) (lines : List SettleLine) (i : Nat) : Int :=
  sumOn (·.item borrows) (fun l => if l.method = .return then l.qty else 0) lines (some i)

def writtenOffOn (borrows : Table BorrowRecord) (lines : List SettleLine) (i : Nat) : Int :=
  sumOn (·.item borrows) (fun l => if l.method = .writeOff then l.qty else 0) lines (some i)

/-- The lines write off the last borrowed units of an item that has nothing on the book. -/
def Strips (items : Table InventoryItem) (borrows : Table BorrowRecord) (lines : List SettleLine)
    (i : Nat) : Prop :=
  bookOf items i = 0 ∧ 0 < openOn borrows i ∧ openOn borrows i ≤ writtenOffOn borrows lines i

structure Progress (s₀ : Store) (done : List SettleLine) (s : Store) : Prop where
  records : ∀ id r, s₀.borrowRecords.find? id = some r → ∃ r', s.borrowRecords.find? id = some r' ∧
    r'.inventoryItemId = r.inventoryItemId ∧ r'.recordType = r.recordType
  untouched : ∀ id, (∀ l ∈ done, l.recordId ≠ id) →
    s.borrowRecords.find? id = s₀.borrowRecords.find? id
  loans : ∀ i, openOn s.borrowRecords i + returnedOn s₀.borrowRecords done i +
    writtenOffOn s₀.borrowRecords done i = openOn s₀.borrowRecords i
  book : ∀ i, bookOf s.inventoryItems i =
    bookOf s₀.inventoryItems i + returnedOn s₀.borrowRecords done i

theorem Progress.refl (s : Store) : Progress s [] s where
  records := fun _ r hr => ⟨r, hr, rfl, rfl⟩
  untouched := fun _ _ => rfl
  loans := fun _ => by simp [returnedOn, writtenOffOn]
  book := fun _ => by simp [returnedOn]

/-- The quantity a line returns, and the one it writes off. -/
def SettleLine.returned (line : SettleLine) : Int := if line.method = .return then line.qty else 0

def SettleLine.writtenOff (line : SettleLine) : Int :=
  if line.method = .writeOff then line.qty else 0

theorem Progress.step {s₀ s' : Store} {done : List SettleLine} {r₀ r : BorrowRecord}
    (h : Progress s₀ done s) (hr₀ : s₀.borrowRecords.find? line.recordId = some r₀)
    (hitem : r.inventoryItemId = r₀.inventoryItemId) (htype : r.recordType = r₀.recordType)
    (hs : Settled s line.recordId r line.returned line.writtenOff s') :
    Progress s₀ (done ++ [line]) s' where
  records := fun id r₁ hr₁ => by
    by_cases hid : id = line.recordId
    · subst hid
      obtain rfl : r₀ = r₁ := by simpa [hr₀] using hr₁
      obtain ⟨r', hr', hi', ht', -⟩ := hs.record
      exact ⟨r', hr', hi'.trans hitem, ht'.trans htype⟩
    · rw [hs.others id hid]
      exact h.records id r₁ hr₁
  untouched := fun id hid => by
    rw [hs.others id (fun he => hid line (by simp) he.symm)]
    exact h.untouched id fun l hl => hid l (List.mem_append_left _ hl)
  loans := fun i => by
    have hi := h.loans i
    have hline : line.item s₀.borrowRecords = some r₀.inventoryItemId := by
      simp [SettleLine.item, hr₀]
    unfold returnedOn writtenOffOn at hi ⊢
    rw [hs.loans, hitem]
    simp only [sumOn_append, sumOn_cons, hline]
    simp only [bump, Option.some.injEq, sumOn_nil, SettleLine.returned, SettleLine.writtenOff]
    split <;> omega
  book := fun i => by
    have hi := h.book i
    have hline : line.item s₀.borrowRecords = some r₀.inventoryItemId := by
      simp [SettleLine.item, hr₀]
    unfold returnedOn at hi ⊢
    rw [hs.book, hitem]
    simp only [sumOn_append, sumOn_cons, hline]
    simp only [bump, Option.some.injEq, sumOn_nil, SettleLine.returned]
    split <;> omega

theorem Progress.strips {done rest : List SettleLine} (h : Progress s₀ done s)
    (hbook₀ : 0 ≤ bookOf s₀.inventoryItems i) (hpos : ∀ l ∈ done ++ line :: rest, 0 < l.qty)
    (hline : line.item s₀.borrowRecords = some i) (hmethod : line.method = .writeOff)
    (hbook : bookOf s.inventoryItems i = 0) (hopen : openOn s.borrowRecords i = line.qty) :
    Strips s₀.inventoryItems s₀.borrowRecords (done ++ line :: rest) i := by
  have hret : 0 ≤ returnedOn s₀.borrowRecords done i :=
    sumOn_nonneg (fun l hl => by
      have := hpos l (List.mem_append_left _ hl)
      split <;> omega) _
  have hwoDone : 0 ≤ writtenOffOn s₀.borrowRecords done i :=
    sumOn_nonneg (fun l hl => by
      have := hpos l (List.mem_append_left _ hl)
      split <;> omega) _
  have hwoRest : 0 ≤ writtenOffOn s₀.borrowRecords rest i :=
    sumOn_nonneg (fun l hl => by
      have := hpos l (List.mem_append_right _ (List.mem_cons_of_mem _ hl))
      split <;> omega) _
  have hq := hpos line (by simp)
  have hsplit : writtenOffOn s₀.borrowRecords (done ++ line :: rest) i =
      writtenOffOn s₀.borrowRecords done i + (writtenOffOn s₀.borrowRecords rest i + line.qty) := by
    unfold writtenOffOn
    rw [sumOn_append, sumOn_cons, hline, bump_self, if_pos hmethod]
  have hb := h.book i
  have hl := h.loans i
  exact ⟨by omega, by omega, by omega⟩

theorem occupiedQty_nonneg (h : Inv k n s) (j : Nat) :
    0 ≤ occupiedQty s.approvalRequests s.borrowActionItems j :=
  Table.sumBy_nonneg (fun i l hl => by
    have := (h.actionLines.action i l hl).1
    unfold occupyingQty
    split <;> omega) j

/-! ## Returns and write-offs -/

variable (env : Environment)

namespace BorrowService

def toLine (method : SettleMethod) (p : Nat × BorrowActionItem) : SettleLine :=
  ⟨p.2.borrowRecordId, p.2.qty, method⟩

/-- The lines of a return or write-off head. -/
def settleLines (s : Store) (id : Nat) (method : SettleMethod) : List SettleLine :=
  (linesOf s id).map (toLine method)

theorem headActionQty_eq (s : Store) (id : Nat) (method : SettleMethod) :
    headActionQty s.borrowActionItems id = settledBy (settleLines s id method) :=
  (Table.sumOn_select s.borrowActionItems (toLine method) SettleLine.recordId SettleLine.qty
    BorrowActionItem.requestId BorrowActionItem.borrowRecordId BorrowActionItem.qty
    (fun _ => rfl) (fun _ => rfl) id).symm

theorem lockExistingRecord_wp (hr : s.borrowRecords.find? id = some r) (h : Q (id, r) n s) :
    (lockExistingRecord id).wp Q E n s := by
  unfold lockExistingRecord lockBorrowRecord
  rw [Txn.wp_bind, Txn.wp_queryForUpdate, hr]
  exact h

theorem settledBy_fits {lines : List SettleLine}
    (h : Inv { Slack.exempting exempt with act := settledBy (line :: lines) } n s)
    (hr : s.borrowRecords.find? line.recordId = some r) (hpos : ∀ l ∈ lines, 0 < l.qty) :
    line.qty ≤ r.openQty -
      occupiedQty s.approvalRequests s.borrowActionItems line.recordId := by
  have hfit := h.occupied line.recordId
  have hrest : 0 ≤ settledBy lines line.recordId :=
    sumOn_nonneg (fun l hl => Int.le_of_lt (hpos l hl)) _
  have hcons : settledBy (line :: lines) line.recordId =
      settledBy lines line.recordId + line.qty := by
    rw [settledBy, sumOn_cons, bump_self, settledBy]
  rw [openOf, Table.valueAt_of_find? hr] at hfit
  dsimp only at hfit
  omega

theorem settledBy_take (line : SettleLine) (lines : List SettleLine) :
    bump (settledBy (line :: lines)) line.recordId (-line.qty) = settledBy lines := by
  rw [settledBy, sumOn_cons, bump_bump, Int.add_right_neg, bump_zero, settledBy]

theorem applyReturnApproved_wp (h : Inv
      { Slack.exempting exempt with act := settledBy (settleLines s head.id .return) } n s) :
    (applyReturnApproved head).wp (fun _ n' s' => Inv (.exempting exempt) n' s' ∧
      s'.approvalRequests = s.approvalRequests) E n s := by
  unfold applyReturnApproved
  rw [Txn.wp_bind, Txn.wp_query]
  have hlines : ∀ p ∈ linesOf s head.id, 0 < p.2.qty ∧
      RecordOfType s.borrowRecords p.2.borrowRecordId .personal := fun p hp => by
    have := h.actionLines.action _ _ (Table.mem_select.mp hp).1
    exact ⟨this.1, this.2.2⟩
  unfold settleLines at h
  generalize linesOf s head.id = items at h hlines
  induction items generalizing n s with
  | nil => exact ⟨h, rfl⟩
  | cons p items ih =>
      obtain ⟨hq, r, hr, -⟩ := hlines p List.mem_cons_self
      have hpos : ∀ l ∈ items.map (toLine .return), 0 < l.qty := fun l hl => by
        obtain ⟨p', hp', rfl⟩ := List.mem_map.mp hl
        exact (hlines p' (List.mem_cons_of_mem _ hp')).1
      rw [List.map_cons] at h
      have hfit := settledBy_fits h hr hpos
      have hocc := occupiedQty_nonneg h p.2.borrowRecordId
      dsimp only [toLine] at hfit
      rw [Txn.wp_forM_cons, Txn.wp_bind]
      refine lockExistingRecord_wp hr ?_
      rw [Txn.wp_bind, availableActionQty, Txn.wp_query, Txn.wp_bind, Txn.wp_guard,
        pendingActionQty_eq]
      refine ⟨fun _ => ?_, fun hle => absurd hfit (by simpa using hle)⟩
      rw [Txn.wp_bind]
      refine Txn.wp_mono (restoreRecord_wp h
        ⟨fun _ => rfl, fun _ => rfl, fun _ => rfl⟩ hr rfl hq ?_) ?_
      · dsimp only
        omega
      · rintro - n₁ s₁ ⟨hinv, hsettled, -⟩
        have hact := settledBy_take (toLine .return p) (items.map (toLine .return))
        dsimp only [toLine] at hact hinv
        rw [hact] at hinv
        rw [Txn.wp_pure]
        refine Txn.wp_mono (ih hinv fun p' hp' => ⟨(hlines p' (List.mem_cons_of_mem _ hp')).1, ?_⟩)
          fun _ _ _ hdone => ⟨hdone.1, hdone.2.trans hsettled.requests⟩
        obtain ⟨r', hr', ht'⟩ := (hlines p' (List.mem_cons_of_mem _ hp')).2
        by_cases hid : p'.2.borrowRecordId = p.2.borrowRecordId
        · rw [hid] at hr' ⊢
          obtain rfl : r = r' := by simpa [hr] using hr'
          obtain ⟨r₁, hr₁, -, ht₁, -⟩ := hsettled.record
          exact ⟨r₁, hr₁, ht₁.trans ht'⟩
        · exact ⟨r', by rw [hsettled.others _ hid, hr'], ht'⟩

theorem writeOffLines_wp {exempt : Nat → Prop} {s₀ : Store} {done : List SettleLine}
    {items : List (Nat × BorrowActionItem)} (h : Inv
      { Slack.exempting exempt with act := settledBy (items.map (toLine .writeOff)) } n s)
    (hprogress : Progress s₀ done s) (hbook₀ : ∀ i, 0 ≤ bookOf s₀.inventoryItems i)
    (hlines : ∀ p ∈ items, 0 < p.2.qty ∧
      RecordOfType s₀.borrowRecords p.2.borrowRecordId .personal) (hdone : ∀ l ∈ done, 0 < l.qty)
    (hstrips : ∀ i, Strips s₀.inventoryItems s₀.borrowRecords
      (done ++ items.map (toLine .writeOff)) i → exempt i) :
    (items.forM fun item => do
      let record ← lockExistingRecord item.2.borrowRecordId
      writeOffRecord record item.2.qty).wp
      (fun _ n' s' => Inv (.exempting exempt) n' s' ∧
        s'.approvalRequests = s.approvalRequests) E n s := by
  induction items generalizing done n s with
  | nil => exact ⟨h, rfl⟩
  | cons p items ih =>
      obtain ⟨hq, r₀, hr₀, -⟩ := hlines p List.mem_cons_self
      obtain ⟨r, hr, hri, hrt⟩ := hprogress.records _ r₀ hr₀
      have hpos : ∀ l ∈ items.map (toLine .writeOff), 0 < l.qty := fun l hl => by
        obtain ⟨p', hp', rfl⟩ := List.mem_map.mp hl
        exact (hlines p' (List.mem_cons_of_mem _ hp')).1
      rw [List.map_cons] at h hstrips
      have hfit := settledBy_fits h hr hpos
      have hocc := occupiedQty_nonneg h p.2.borrowRecordId
      dsimp only [toLine] at hfit
      have hitem : (toLine .writeOff p).item s₀.borrowRecords = some r.inventoryItemId := by
        simp [SettleLine.item, toLine, hr₀, hri]
      have hposAll : ∀ l ∈ done ++ toLine .writeOff p :: items.map (toLine .writeOff),
          0 < l.qty := fun l hl => by
        rcases List.mem_append.mp hl with hl | hl
        · exact hdone l hl
        · rcases List.mem_cons.mp hl with rfl | hl
          · exact hq
          · exact hpos l hl
      rw [Txn.wp_forM_cons, Txn.wp_bind]
      refine lockExistingRecord_wp hr ?_
      refine Txn.wp_mono (writeOffRecord_wp (p := (p.2.borrowRecordId, r)) (x := exempt)
        h hr hq (fun _ hx => hx) (fun row hrow hzero _ hopen => hstrips _ ?_) ?_) ?_
      · refine hprogress.strips (hbook₀ _) hposAll hitem rfl ?_ hopen
        rw [bookOf, Table.valueAt_of_find? hrow, hzero]
      · dsimp only
        omega
      · rintro - n₁ s₁ ⟨hinv, hsettled, -⟩
        have hact := settledBy_take (toLine .writeOff p) (items.map (toLine .writeOff))
        dsimp only [toLine] at hact hinv
        rw [hact] at hinv
        have hnext : Progress s₀ (done ++ [toLine .writeOff p]) s₁ :=
          hprogress.step hr₀ hri hrt (by simpa [toLine, SettleLine.returned,
            SettleLine.writtenOff] using hsettled)
        refine Txn.wp_mono (ih hinv hnext
          (fun p' hp' => hlines p' (List.mem_cons_of_mem _ hp')) (fun l hl => ?_) (fun i hi => ?_))
          fun _ _ _ hdone => ⟨hdone.1, hdone.2.trans hsettled.requests⟩
        · rcases List.mem_append.mp hl with hl | hl
          · exact hdone l hl
          · obtain rfl := List.mem_singleton.mp hl
            exact hq
        · exact hstrips i (by simpa using hi)

/-- The approval of a write-off never fails and settles all its lines; what it strips has to be
exempt. -/
theorem applyWriteOffApproved_wp (h : Inv
      { Slack.exempting exempt with act := settledBy (settleLines s head.id .writeOff) } n s)
    (hstrips : ∀ i, Strips s.inventoryItems s.borrowRecords (settleLines s head.id .writeOff) i →
      exempt i) :
    (applyWriteOffApproved head).wp (fun _ n' s' => Inv (.exempting exempt) n' s' ∧
      s'.approvalRequests = s.approvalRequests) E n s := by
  unfold applyWriteOffApproved
  rw [Txn.wp_bind, Txn.wp_query]
  refine writeOffLines_wp h (.refl s) (bookOf_nonneg h) (fun p hp => ?_) (by simp)
    hstrips
  have := h.actionLines.action _ _ (Table.mem_select.mp hp).1
  exact ⟨this.1, this.2.2⟩

/-! ### Submission -/

/-- An action that fits: a personal record with enough open and free. -/
def ActionFits (s : Store) (item : BorrowActionRequestItem) : Prop :=
  ∃ r, s.borrowRecords.find? item.borrowRecordId = some r ∧ r.recordType = .personal ∧
    item.qty ≤ r.openQty - occupiedQty s.approvalRequests s.borrowActionItems item.borrowRecordId

theorem prepareActions_safe (operator : Operator) (items : List BorrowActionRequestItem) :
    (items.forM fun item => prepareAction operator item).safe
      (fun _ n' s' => n' = n ∧ s' = s ∧ ∀ item ∈ items, ActionFits s item) n s := by
  induction items with
  | nil => exact ⟨rfl, rfl, by simp⟩
  | cons item items ih =>
      rw [Txn.safe, Txn.wp_forM_cons]
      unfold prepareAction lockExistingRecord lockBorrowRecord availableActionQty
      rw [Txn.wp_bind, Txn.wp_bind, Txn.wp_queryForUpdate]
      refine Txn.safe_orThrow fun record hrecord => ?_
      obtain ⟨r, hr, rfl⟩ := Option.map_eq_some_iff.mp hrecord
      rw [Txn.wp_bind]
      refine Txn.safe_guard fun hown => ?_
      rw [Txn.wp_bind, Txn.wp_query]
      refine Txn.safe_guard fun hfree => ?_
      refine Txn.wp_mono ih ?_
      rintro - n' s' ⟨rfl, rfl, hfits⟩
      refine ⟨rfl, rfl, fun item' hitem => ?_⟩
      rcases List.mem_cons.mp hitem with rfl | hitem
      · refine ⟨r, hr, ?_, ?_⟩
        · simp only [ownPersonal, Bool.and_eq_true, beq_iff_eq] at hown
          exact hown.2
        · rw [pendingActionQty_eq] at hfree
          simpa using hfree
      · exact hfits item' hitem

/-- A requested action as a line; the method plays no part yet. -/
def requested (item : BorrowActionRequestItem) : SettleLine :=
  ⟨item.borrowRecordId, item.qty, .return⟩

theorem occupiedOk_requested {items : List BorrowActionRequestItem} {exempt : Nat → Prop}
    (h : Inv (.exempting exempt) n s) (hnodup : (items.map (·.borrowRecordId)).Nodup)
    (hfits : ∀ item ∈ items, ActionFits s item) :
    OccupiedOk (settledBy (items.map requested)) s.approvalRequests s.borrowActionItems
      s.borrowRecords := by
  induction items with
  | nil => exact h.occupied
  | cons item items ih =>
      rw [List.map_cons, List.nodup_cons] at hnodup
      intro j
      have hj := ih hnodup.2 (fun item' hi => hfits item' (List.mem_cons_of_mem _ hi)) j
      rw [List.map_cons, settledBy, sumOn_cons, ← settledBy]
      by_cases hji : j = item.borrowRecordId
      · subst hji
        obtain ⟨r, hr, -, hfit⟩ := hfits item List.mem_cons_self
        have hzero : settledBy (items.map requested) item.borrowRecordId = 0 :=
          sumOn_eq_zero fun l hl he => by
            obtain ⟨item', hi, rfl⟩ := List.mem_map.mp hl
            exact hnodup.1 (he ▸ List.mem_map_of_mem hi)
        have hself : bump (settledBy (items.map requested)) (requested item).recordId
            (requested item).qty item.borrowRecordId = item.qty := by
          rw [show (requested item).recordId = item.borrowRecordId from rfl, bump_self, hzero,
            Int.zero_add]
          rfl
        rw [hself, openOf, Table.valueAt_of_find? hr]
        omega
      · rw [bump_ne _ _ (show j ≠ (requested item).recordId from hji)]
        exact hj

theorem submitBorrowAction_safe (operator : Operator) {requestType : RequestType}
    (htype : requestType = .return ∨ requestType = .writeOff) (items : List BorrowActionRequestItem)
    (h : Inv (.exempting exempt) n s) :
    (submitBorrowAction env operator requestType items).safe
      (fun _ => Inv (.exempting exempt)) n s := by
  unfold submitBorrowAction
  rw [Txn.safe, Txn.wp_bind]
  refine Txn.safe_guard fun hnodup => ?_
  rw [decide_eq_true_eq] at hnodup
  rw [Txn.wp_bind]
  refine Txn.wp_mono (prepareActions_safe operator items) ?_
  rintro - n' s' ⟨rfl, rfl, hfits⟩
  have hact : Inv { Slack.exempting exempt with act := settledBy (items.map requested) } n' s' :=
    { h with occupied := occupiedOk_requested h hnodup hfits }
  have hrecs : ∀ item ∈ items, RecordOfType s'.borrowRecords item.borrowRecordId .personal :=
    fun item hi => by
      obtain ⟨r, hr, ht, -⟩ := hfits item hi
      exact ⟨r, hr, ht⟩
  rw [Txn.wp_bind]
  refine Txn.wp_mono (createRequestHead_safe env _ hact) ?_
  rintro head n₁ s₁ ⟨hinv, hhead, requests, actions, rfl⟩
  have hhead' : PendingHead _ head.1 [.return, .writeOff] :=
    hhead.mono (by rcases htype with rfl | rfl <;> simp)
  clear hhead hact hfits hnodup h
  rw [Txn.wp_bind]
  refine Txn.wp_mono (Txn.wp_forM (fun rest n' s' =>
    Inv { Slack.exempting exempt with act := settledBy (rest.map requested) } n' s' ∧
      PendingHead s' head.1 [.return, .writeOff] ∧
      ∀ item ∈ rest, RecordOfType s'.borrowRecords item.borrowRecordId .personal) ?_
    ⟨hinv, hhead', hrecs⟩) fun _ n' s' hdone => hdone.1
  rintro item rest n₂ s₂ ⟨hinv₂, hhead₂, hrecs₂⟩
  rw [Txn.wp_bind]
  refine borrowActionItemCreate_safe fun hq => ?_
  have hstep := hinv₂.insertActionLine hq hhead₂ (hrecs₂ item List.mem_cons_self)
  rw [List.map_cons] at hstep
  have hact := settledBy_take (requested item) (rest.map requested)
  dsimp only [requested] at hact hstep
  rw [hact] at hstep
  exact ⟨hstep, hhead₂, fun item' hi => hrecs₂ item' (List.mem_cons_of_mem _ hi)⟩

end BorrowService

/-! ## Settlements -/

theorem occupiedQty_agent (h : Inv k n s) (hr : s.borrowRecords.find? id = some r)
    (ht : r.recordType = .agent) : occupiedQty s.approvalRequests s.borrowActionItems id = 0 :=
  Table.sumBy_eq_zero fun j l hl he => by
    obtain ⟨-, -, r', hr', ht'⟩ := h.actionLines.action j l hl
    rw [he, hr, Option.some.injEq] at hr'
    subst hr'
    rw [ht] at ht'
    cases ht'

theorem Inv.settleUncounted
    (h : Inv { Slack.exempting exempt with act := bump (fun _ => 0) id (-qty) } n s)
    (hfit : occupiedQty s.approvalRequests s.borrowActionItems id ≤ openOf s.borrowRecords id) :
    Inv (.exempting exempt) n s :=
  { h with
    occupied := fun j => by
      by_cases hj : j = id
      · subst hj
        simpa [Slack.exempting] using hfit
      · have hocc := h.occupied j
        dsimp only at hocc
        rwa [bump_ne _ _ hj] at hocc }

/-- Lines that are settled against rows locked in `s₀`: a row is either of an agent list, where
nothing competes with the lines, or still as it was locked. -/
structure LineReady (exempt : Nat → Prop) (s₀ : Store) (done : List SettleLine)
    (line : SettleLine) (rest : List SettleLine) (r₀ : BorrowRecord) : Prop where
  stored : s₀.borrowRecords.find? line.recordId = some r₀
  kind : r₀.recordType = .agent ∨ ∀ l ∈ done, l.recordId ≠ line.recordId
  positive : ∀ l ∈ done ++ line :: rest, 0 < l.qty
  book : ∀ i, 0 ≤ bookOf s₀.inventoryItems i
  strips : ∀ i, Strips s₀.inventoryItems s₀.borrowRecords (done ++ line :: rest) i → exempt i

theorem LineReady.fits {s₀ s' : Store} {done rest : List SettleLine} {r₀ r : BorrowRecord}
    {k' : Slack} {n' : Nat} {x y : Int} (hready : LineReady exempt s₀ done line rest r₀)
    (hprogress : Progress s₀ done s) (hr : s.borrowRecords.find? line.recordId = some r)
    (hrt : r.recordType = r₀.recordType) (h' : Inv k' n' s') (hs : Settled s line.recordId r x y s')
    (hxy : x + y = line.qty) (hfree : line.qty ≤ r₀.openQty -
      occupiedQty s.approvalRequests s.borrowActionItems line.recordId) :
    occupiedQty s'.approvalRequests s'.borrowActionItems line.recordId ≤
      openOf s'.borrowRecords line.recordId := by
  obtain ⟨r', hr', -, ht', ho'⟩ := hs.record
  have hopen := h'.records.openQty_nonneg _ r' hr'
  rw [openOf, Table.valueAt_of_find? hr']
  rcases hready.kind with hagent | hfresh
  · rw [occupiedQty_agent h' hr' (ht'.trans (hrt.trans hagent))]
    exact hopen
  · obtain rfl : r = r₀ := by
      have := hprogress.untouched _ hfresh
      rw [hr, hready.stored] at this
      simpa using this
    obtain ⟨_, _, _, _, _, rfl⟩ := hs.frame
    dsimp only
    omega

theorem restoreLine_safe {done rest : List SettleLine} {l : SettleLine} {ref : RestoreRef}
    (h : Inv (.exempting exempt) n s) (hprogress : Progress s₀ done s)
    (hready : LineReady exempt s₀ done l rest r₀) (hmethod : l.method = .return) :
    (restoreRecord (l.recordId, r₀) l.qty ref).safe
      (fun _ n' s' => Inv (.exempting exempt) n' s' ∧ Progress s₀ (done ++ [l]) s') n s := by
  obtain ⟨r, hr, hri, hrt⟩ := hprogress.records _ r₀ hready.stored
  refine Txn.wp_mono (restoreRecord_wp h
    ⟨fun _ => rfl, fun _ => rfl, fun _ => rfl⟩ hr hri.symm (hready.positive l (by simp))
    fun _ _ => trivial) ?_
  rintro - n' s' ⟨hinv, hsettled, hfree⟩
  refine ⟨hinv.settleUncounted
    (hready.fits hprogress hr hrt hinv hsettled (Int.add_zero _) hfree), ?_⟩
  exact hprogress.step hready.stored hri hrt (by
    simpa [SettleLine.returned, SettleLine.writtenOff, hmethod] using hsettled)

theorem writeOffLine_safe {done rest : List SettleLine} {l : SettleLine}
    (h : Inv (.exempting exempt) n s) (hprogress : Progress s₀ done s)
    (hready : LineReady exempt s₀ done l rest r₀) (hmethod : l.method = .writeOff) :
    (writeOffRecord (l.recordId, r₀) l.qty).safe
      (fun _ n' s' => Inv (.exempting exempt) n' s' ∧ Progress s₀ (done ++ [l]) s') n s := by
  obtain ⟨r, hr, hri, hrt⟩ := hprogress.records _ r₀ hready.stored
  have hitem : l.item s₀.borrowRecords = some r.inventoryItemId := by
    simp [SettleLine.item, hready.stored, hri]
  refine Txn.wp_mono (writeOffRecord_wp (p := (l.recordId, r₀)) (x := exempt) h hr
    (hready.positive l (by simp)) (fun _ hx => hx)
    (fun row hrow hzero _ hopen => hready.strips _ ?_) fun _ _ => trivial) ?_
  · refine hprogress.strips (hready.book _) hready.positive hitem hmethod ?_ hopen
    rw [bookOf, Table.valueAt_of_find? hrow, hzero]
  · rintro - n' s' ⟨hinv, hsettled, hfree⟩
    refine ⟨hinv.settleUncounted
      (hready.fits hprogress hr hrt hinv hsettled (Int.zero_add _) hfree), ?_⟩
    exact hprogress.step hready.stored hri hrt (by
      simpa [SettleLine.returned, SettleLine.writtenOff, hmethod] using hsettled)

def LockedRows (s : Store) (locked : List BorrowRecordLockRow) : Prop :=
  ∀ p ∈ locked, s.borrowRecords.find? p.1 = some p.2

theorem lockRecords_safe (ids : List Nat) :
    (lockRecords ids).safe (fun locked n' s' => n' = n ∧ s' = s ∧ LockedRows s locked) n s := by
  unfold lockRecords
  refine Txn.wp_mapM (fun _ done n' s' => n' = n ∧ s' = s ∧ LockedRows s done) ?_
    ⟨rfl, rfl, by simp [LockedRows]⟩
  rintro id rest done n' s' ⟨rfl, rfl, hdone⟩
  unfold lockExistingRecord lockBorrowRecord
  rw [Txn.wp_bind, Txn.wp_queryForUpdate]
  refine Txn.safe_orThrow fun record hrecord => ?_
  obtain ⟨r, hr, rfl⟩ := Option.map_eq_some_iff.mp hrecord
  refine ⟨rfl, rfl, fun p hp => ?_⟩
  rcases List.mem_append.mp hp with hp | hp
  · exact hdone p hp
  · obtain rfl := List.mem_singleton.mp hp
    exact hr

theorem lockedRecord_safe {locked : List BorrowRecordLockRow} (hlocked : LockedRows s₀ locked)
    (h : ∀ r, s₀.borrowRecords.find? id = some r → Q (id, r) n s) :
    (lockedRecord locked id).safe Q n s := by
  unfold lockedRecord
  refine Txn.safe_orThrow fun p hp => ?_
  have hid : p.1 = id := by simpa using List.find?_some hp
  have hstored := hlocked p (List.mem_of_find?_eq_some hp)
  rw [hid] at hstored
  have hq := h p.2 hstored
  rwa [← hid] at hq

namespace AgentSettlementService

def toLine (p : Nat × AgentSettlementItem) : SettleLine :=
  ⟨p.2.borrowRecordId, p.2.qty, p.2.method⟩

def settleLines (s : Store) (id : Nat) : List SettleLine := (linesOf s id).map toLine

theorem settleItems_safe {exempt : Nat → Prop} {s₀ : Store} {done : List SettleLine}
    {items : List (Nat × AgentSettlementItem)} {locked : List BorrowRecordLockRow}
    {ref : RestoreRef} (h : Inv (.exempting exempt) n s) (hprogress : Progress s₀ done s)
    (hlocked : LockedRows s₀ locked) (hbook : ∀ i, 0 ≤ bookOf s₀.inventoryItems i)
    (hagent : ∀ p ∈ items, RecordOfType s₀.borrowRecords p.2.borrowRecordId .agent)
    (hpos : ∀ l ∈ done ++ items.map toLine, 0 < l.qty)
    (hstrips : ∀ i, Strips s₀.inventoryItems s₀.borrowRecords (done ++ items.map toLine) i →
      exempt i) :
    (items.forM fun item => do
      let record ← lockedRecord locked item.2.borrowRecordId
      let _ ← settleRecord record item.2.qty item.2.method ref).safe
      (fun _ => Inv (.exempting exempt)) n s := by
  induction items generalizing done n s with
  | nil => exact h
  | cons p items ih =>
      rw [Txn.safe, Txn.wp_forM_cons, Txn.wp_bind]
      refine lockedRecord_safe hlocked fun r₀ hr₀ => ?_
      have hready : LineReady exempt s₀ done (toLine p) (items.map toLine) r₀ :=
        { stored := hr₀
          kind := .inl (by
            obtain ⟨r', hr', ht'⟩ := hagent p List.mem_cons_self
            obtain rfl : r₀ = r' := by simpa [hr₀] using hr'
            exact ht')
          positive := hpos
          book := hbook
          strips := hstrips }
      have hrest : ∀ n₁ s₁,
          Inv (.exempting exempt) n₁ s₁ ∧ Progress s₀ (done ++ [toLine p]) s₁ →
          (items.forM fun item => do
            let record ← lockedRecord locked item.2.borrowRecordId
            let _ ← settleRecord record item.2.qty item.2.method ref).safe
            (fun _ => Inv (.exempting exempt)) n₁ s₁ := fun n₁ s₁ h₁ =>
        ih h₁.1 h₁.2 (fun p' hp' => hagent p' (List.mem_cons_of_mem _ hp'))
          (by simpa using hpos) (by simpa using hstrips)
      unfold settleRecord
      split
      · rename_i hmethod
        rw [Txn.wp_bind]
        refine Txn.wp_mono (restoreLine_safe (l := toLine p) h hprogress hready hmethod) ?_
        rintro - n₁ s₁ h₁
        exact hrest n₁ s₁ h₁
      · rename_i hmethod
        rw [Txn.wp_bind, Txn.wp_bind]
        refine Txn.wp_mono (writeOffLine_safe (l := toLine p) h hprogress hready hmethod) ?_
        rintro - n₁ s₁ h₁
        exact hrest n₁ s₁ h₁

theorem applyApproved_safe {processorId : Nat} (h : Inv (.exempting exempt) n s)
    (hstrips : ∀ i, Strips s.inventoryItems s.borrowRecords (settleLines s head.id) i →
      exempt i) :
    (applyApproved head processorId).safe (fun _ => Inv (.exempting exempt)) n s := by
  unfold applyApproved
  rw [Txn.safe, Txn.wp_bind, Txn.wp_query, Txn.wp_bind]
  refine Txn.wp_mono (lockRecords_safe _) ?_
  rintro locked n' s' ⟨rfl, rfl, hlocked⟩
  refine settleItems_safe h (.refl _) hlocked (bookOf_nonneg h) (fun p hp => ?_)
    (fun l hl => ?_) hstrips
  · exact (h.actionLines.settlement _ _ (Table.mem_select.mp hp).1).2.2
  · obtain ⟨p, hp, rfl⟩ := List.mem_map.mp hl
    exact (h.actionLines.settlement _ _ (Table.mem_select.mp hp).1).1

theorem assertCoverage_safe (agentRequestId : Nat) (items : List SettlementRequestItem) :
    (assertCoverage agentRequestId items).safe
      (fun _ n' s' => n' = n ∧ s' = s ∧
        ∀ item ∈ items, RecordOfType s.borrowRecords item.borrowRecordId .agent) n s := by
  unfold assertCoverage
  rw [Txn.safe, Txn.wp_bind, Txn.wp_query, Txn.wp_bind]
  refine Txn.safe_guard fun hlist => ?_
  refine Txn.safe_guard fun _ => ⟨rfl, rfl, fun item hitem => ?_⟩
  simp only [itemsOnList, Bool.and_eq_true, List.all_eq_true, List.any_eq_true, beq_iff_eq]
    at hlist
  obtain ⟨p, hp, hid⟩ := hlist.2 item hitem
  obtain ⟨hfind, hopen⟩ := Table.mem_select.mp hp
  simp only [Bool.and_eq_true, beq_iff_eq] at hopen
  exact ⟨p.2, by rw [← hid, hfind], hopen.1.1⟩

theorem submit_safe (operator : Operator) (refRequestId : Nat) (items : List SettlementRequestItem)
    (h : Inv (.exempting exempt) n s) :
    (submit env operator refRequestId items).safe (fun _ => Inv (.exempting exempt)) n s := by
  unfold submit
  rw [Txn.safe, Txn.wp_bind, Txn.wp_query, Txn.wp_bind]
  refine Txn.safe_guard fun _ => ?_
  rw [Txn.wp_bind]
  refine Txn.wp_mono (assertCoverage_safe refRequestId items) ?_
  rintro - n' s' ⟨rfl, rfl, hagent⟩
  rw [Txn.wp_bind]
  refine Txn.wp_mono (createRequestHead_safe env _ h) ?_
  rintro head n₁ s₁ ⟨hinv, hhead, requests, actions, rfl⟩
  rw [Txn.wp_bind]
  refine Txn.wp_mono (Txn.wp_forM (fun rest n' s' => Inv (.exempting exempt) n' s' ∧
    HeadOfType s'.approvalRequests head.1 [.agentSettlement] ∧
    ∀ item ∈ rest, RecordOfType s'.borrowRecords item.borrowRecordId .agent) ?_
    ⟨hinv, hhead.headOfType, hagent⟩) fun _ n' s' hdone => hdone.1
  rintro item rest n₂ s₂ ⟨hinv₂, hhead₂, hagent₂⟩
  rw [Txn.wp_bind]
  exact agentSettlementItemCreate_safe fun hq =>
    ⟨hinv₂.insertSettlementLine hq hhead₂ (hagent₂ item List.mem_cons_self), hhead₂,
      fun item' hi => hagent₂ item' (List.mem_cons_of_mem _ hi)⟩

end AgentSettlementService

end Wbme.Asset
