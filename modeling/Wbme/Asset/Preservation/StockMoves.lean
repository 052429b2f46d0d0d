import Wbme.Asset.Preservation.StockRequests

/-! # Transfers and corrections keep the invariant

A transfer puts the whole quantity in transit and books it segment by segment at
the target, which is another item because it is in another warehouse. A
correction moves a whole batch; nothing has been lent from it, because it has no
flow but its stock-in.
-/

namespace Wbme.Asset

open Lib Approval

variable {k : Slack} {n : Nat} {s : Store}

/-! ## Targets -/

theorem lockedCandidate_safe {Q : Option TargetItem → Nat → Store → Prop} {ids : List Nat}
    {candidate : Option Nat} (key : ItemKey)
    (hcandidate : ∀ i, candidate = some i →
      ∃ r, s.inventoryItems.find? i = some r ∧ r.HasKey key)
    (h : ∀ target : Option TargetItem, (∀ t, target = some t → OnKey s key t) → Q target n s) :
    (lockedCandidate (lockRows s ids) candidate).safe Q n s := by
  unfold lockedCandidate
  split
  · exact h none fun t ht => by cases ht
  · rename_i i
    obtain ⟨r, hr, hkey⟩ := hcandidate i rfl
    rw [Txn.safe, Txn.wp_bind]
    refine Txn.safe_orThrow fun row hrow => ?_
    obtain ⟨r', hr', hlock⟩ := lockedById_lockRows hrow
    obtain rfl : r = r' := by simpa [hr] using hr'
    obtain ⟨hid, -, -, -, hbook, -⟩ := lockRow_eq_some hlock
    refine h (some (row.id, row.bookQty)) fun t ht => ?_
    obtain rfl := Option.some.inj ht
    exact ⟨r, by dsimp only; rw [hid, hr], hkey, hbook⟩

variable {exempt : Nat → Prop} {source : InventoryItemLockRow} {warehouseId : Option Nat}
  {operator : Operator}

theorem head?_itemsOfKey {consumableId : Nat} {spec : String} {i : Nat}
    (h : ((itemsOfKey s consumableId spec warehouseId).head?).map (·.1) = some i)
    (name path : String) :
    ∃ r, s.inventoryItems.find? i = some r ∧
      r.HasKey ⟨consumableId, spec, warehouseId, name, path⟩ := by
  obtain ⟨p, hp, rfl⟩ := Option.map_eq_some_iff.mp h
  obtain ⟨hfind, hkey⟩ := mem_itemsOfKey ⟨consumableId, spec, warehouseId, name, path⟩
    (List.mem_of_mem_head? hp)
  exact ⟨p.2, hfind, hkey⟩

theorem orLockOrCreate_safe (h : Inv k n s) {target : Option TargetItem} {key key' : ItemKey}
    (htarget : ∀ t, target = some t → OnKey s key' t) :
    (orLockOrCreate target key).safe
      (fun t n' s' => (OnKey s' key t ∨ OnKey s' key' t) ∧ FoundOrCreated k s t.1 n' s') n s := by
  unfold orLockOrCreate
  split
  · exact ⟨.inr (htarget _ rfl), .inl ⟨rfl, h⟩⟩
  · refine Txn.wp_mono (lockOrCreateItem_safe h key) ?_
    rintro t n' s' ⟨hon, hfound⟩
    exact ⟨.inl hon, hfound⟩

/-! ## Transfers -/

variable (env : Environment)

namespace TransferService

theorem moveSegment_safe {transferId : Nat} {warehouse : WarehousePathRow} {target : TargetItem}
    {a : BatchAllocation} {as : List BatchAllocation} {outBefore inBefore : Int} (h : Inv
      { k with
        transit := bump k.transit source.id (takenQty (a :: as)),
        unbooked := fun b => k.unbooked b + takenFrom (a :: as) b } n s)
    (hne : target.1 ≠ source.id) (hunposted : ∀ i, k.unposted i = 0) (hsource : k.exempt source.id)
    (htarget : k.exempt target.1) (hout : outBefore = bookOf s.inventoryItems source.id)
    (hin : inBefore = bookOf s.inventoryItems target.1) :
    (moveSegment operator transferId source warehouse target a outBefore inBefore).safe
      (fun _ n' s' => Inv
          { k with
            transit := bump k.transit source.id (takenQty as),
            unbooked := fun b => k.unbooked b + takenFrom as b } n' s' ∧
        outBefore - a.qty = bookOf s'.inventoryItems source.id ∧
        inBefore + a.qty = bookOf s'.inventoryItems target.1) n s := by
  unfold moveSegment
  rw [Txn.safe, Txn.wp_bind, Txn.wp_query]
  split
  · trivial
  rename_i batch _
  rw [Txn.wp_bind]
  refine batchCreate_safe fun h0 => ?_
  have h₁ := h.insertBatch (w :=
    { inventoryItemId := target.1, sourceBatchId := some a.batchId,
      consumableId := batch.consumableId,
      snapshot := ⟨batch.snapshot.consumableName, batch.snapshot.spec, warehouse.name,
        warehouse.path⟩,
      purchase := batch.purchase, remark := none, receivedAt := batch.receivedAt,
      remainingQty := a.qty, updatedBy := none }) h0
  rw [Txn.wp_bind]
  refine transferBatchItemCreate_safe ?_
  have h₂ := h₁.insertTransferLine ⟨transferId, a.batchId, n, a.qty⟩
  rw [Txn.wp_bind]
  refine inventoryItemUpdate_safe fun r hr hok => ?_
  have h₃ := h₂.updateItem hr (x := -a.qty) (y := 0) (e := k.exempt)
    (f := fun r => { r with bookQty := r.bookQty - a.qty }) rfl (by simp) rfl hok
    (fun _ _ hx => hx) (fun _ _ _ => hsource)
  rw [Txn.wp_bind]
  refine inventoryItemUpdate_safe fun t ht hok' => ?_
  have h₄ := h₃.updateItem ht (x := a.qty) (y := 0) (e := k.exempt)
    (f := fun r => { r with bookQty := r.bookQty + a.qty }) rfl (by simp) rfl hok'
    (fun _ _ hx => hx) (fun _ _ _ => htarget)
  have htarget' : s.inventoryItems.find? target.1 = some t := by
    rwa [Table.find?_update_ne _ _ hne] at ht
  have hbookOut : bookOf ((s.inventoryItems.update source.id
      (fun r => { r with bookQty := r.bookQty - a.qty })).update target.1
      (fun r => { r with bookQty := r.bookQty + a.qty })) source.id = outBefore - a.qty := by
    rw [bookOf_update ht (x := a.qty) rfl, bump_ne _ _ (Ne.symm hne),
      bookOf_update hr (x := -a.qty) rfl, bump_self, hout]
    rfl
  have hbookIn : bookOf ((s.inventoryItems.update source.id
      (fun r => { r with bookQty := r.bookQty - a.qty })).update target.1
      (fun r => { r with bookQty := r.bookQty + a.qty })) target.1 = inBefore + a.qty := by
    rw [bookOf_update ht (x := a.qty) rfl, bump_self, bookOf_update hr (x := -a.qty) rfl,
      bump_ne _ _ hne, hin]
  simp only [Int.neg_neg, bump_zero] at h₄
  rw [Txn.wp_bind]
  refine stockFlowCreate_safe fun hq => ?_
  have h₅ := h₄.insertFlow (b := a.batchId)
    (w :=
      { flowType := .transferOut, direction := .out, inventoryItemId := source.id,
        batchId := some a.batchId, snapshot := source.snapshot, qty := a.qty,
        bookBefore := outBefore, bookAfter := outBefore - a.qty, refType := "TRANSFER",
        refId := transferId, operatorId := operator.id, operatorName := operator.name })
    hq (fun hty => by cases hty) rfl
    (by
      dsimp only
      rw [hbookOut, bump_ne _ _ (Ne.symm hne), bump_self, hunposted]
      omega)
    rfl
  rw [Txn.wp_bind]
  refine stockFlowCreate_safe fun _ => ?_
  have h₆ := h₅.insertFlow (b := n)
    (w :=
      { flowType := .transferIn, direction := .in, inventoryItemId := target.1,
        batchId := some n, snapshot := (targetRow source warehouse target).snapshot,
        qty := a.qty, bookBefore := inBefore, bookAfter := inBefore + a.qty,
        refType := "TRANSFER", refId := transferId, operatorId := operator.id,
        operatorName := operator.name })
    hq (fun hty => by cases hty) rfl
    (by
      simp only [StockFlow.change]
      rw [hbookIn, bump_ne _ _ hne, bump_self, bump_ne _ _ hne, hunposted]
      omega)
    rfl
  have htransit : bump (bump (bump (bump k.transit source.id (takenQty (a :: as))) target.1
      (-a.qty)) source.id (-a.qty)) target.1 a.qty = bump k.transit source.id (takenQty as) := by
    rw [bump_comm _ source.id target.1, bump_bump, Int.add_left_neg, bump_zero, bump_bump,
      takenQty_cons]
    congr 1
    omega
  have hunposted' : bump (bump (bump (bump k.unposted source.id a.qty) target.1 (-a.qty)) source.id
      (-a.qty)) target.1 a.qty = k.unposted := bump_cancel _ _ _ (by omega) (by omega)
  have hunbooked : bump (bump (bump (fun b => k.unbooked b + takenFrom (a :: as) b) n (-a.qty))
      a.batchId (-a.qty)) n a.qty = fun b => k.unbooked b + takenFrom as b := by
    rw [bump_comm _ a.batchId n, bump_bump, Int.add_left_neg, bump_zero, bump_add_takenFrom_cons]
  simp only [StockFlow.change, hunposted', hunbooked, htransit] at h₆
  refine ⟨h₆.weaken (fun _ hx => hx) (fun _ => Int.le_refl _) ?_, hbookOut.symm, hbookIn.symm⟩
  rintro b ⟨hb, -, hbare⟩
  exact hbare.resolve_left hb

theorem moveSegments_safe {operator : Operator} {transferId : Nat}
    {source : InventoryItemLockRow} {warehouse : WarehousePathRow} {target : TargetItem}
    {as : List BatchAllocation} {outBefore inBefore : Int}
    (h : Inv
      { k with
        transit := bump k.transit source.id (takenQty as),
        unbooked := fun b => k.unbooked b + takenFrom as b } n s)
    (hne : target.1 ≠ source.id) (hunposted : ∀ i, k.unposted i = 0)
    (hsource : k.exempt source.id) (htarget : k.exempt target.1)
    (hout : outBefore = bookOf s.inventoryItems source.id)
    (hin : inBefore = bookOf s.inventoryItems target.1) :
    (moveSegments operator transferId source warehouse target as outBefore inBefore).safe
      (fun _ n' s' => Inv k n' s' ∧ inBefore + takenQty as = bookOf s'.inventoryItems target.1)
      n s := by
  induction as generalizing outBefore inBefore n s with
  | nil => exact ⟨by simpa using h, by simpa using hin⟩
  | cons a as ih =>
      unfold moveSegments
      rw [Txn.safe, Txn.wp_bind]
      refine Txn.wp_mono (moveSegment_safe h hne hunposted hsource htarget hout hin) ?_
      rintro - n₁ s₁ ⟨hinv, hout', hin'⟩
      refine Txn.wp_mono (ih hinv hout' hin') ?_
      rintro - n₂ s₂ ⟨hdone, hbook⟩
      refine ⟨hdone, ?_⟩
      rw [← hbook, takenQty_cons]
      omega

theorem create_safe (operator : Operator) (dto : InventoryTransferCreate)
    (h : Inv (.exempting exempt) n s) :
    (create env operator dto).safe (fun _ => Inv (.exempting exempt)) n s := by
  unfold create
  rw [Txn.safe, Txn.wp_bind, Txn.wp_query, Txn.wp_bind]
  refine Txn.safe_orThrow fun peek hpeek => ?_
  rw [Txn.wp_bind]
  unfold targetWarehouse
  split
  · trivial
  rename_i warehouse _
  split
  · trivial
  rename_i hother
  rw [Txn.wp_pure, Txn.wp_bind, Txn.wp_query, Txn.wp_bind, lockInventoryItems,
    Txn.wp_queryForUpdate, Txn.wp_bind]
  refine Txn.safe_orThrow fun source hsource => ?_
  obtain ⟨r, hr, hlock⟩ := lockedById_lockRows hsource
  obtain ⟨hid, -, -, hwarehouse, hbook, -⟩ := lockRow_eq_some hlock
  rw [Txn.wp_bind]
  refine Txn.safe_guard fun hsame => ?_
  simp only [sameSource, Bool.and_eq_true, beq_iff_eq] at hsame
  obtain ⟨⟨hcons, hspec⟩, hwh⟩ := hsame
  rw [Txn.wp_bind]
  generalize hkey : ItemKey.mk source.consumableId source.spec (some warehouse.id) warehouse.name
    warehouse.path = key
  have hqty := dto.qty_pos
  -- the target is on a key of another warehouse, so it is another item
  have hdiffer : ∀ s' : Store, s'.inventoryItems.find? source.id = some r →
      ∀ t, OnKey s' key t → t.1 ≠ source.id := by
    rintro s' hr₀ t ⟨r', hr', hkey', -⟩ he
    rw [he, hr₀, Option.some.injEq] at hr'
    subst hr' hkey
    exact hother (hkey'.2.2.symm.trans (hwarehouse.symm.trans hwh))
  refine lockedCandidate_safe key (fun i hi => ?_) fun lockedTarget htarget => ?_
  · subst hkey
    rw [← hcons, ← hspec] at hi
    exact head?_itemsOfKey hi _ _
  rw [Txn.wp_bind]
  refine Txn.safe_guard fun _ => ?_
  rw [Txn.wp_bind]
  refine Txn.wp_mono (allocateFifoBatches_safe h source.id (by omega)) ?_
  rintro as n₁ s₁ ⟨⟨hinv₁, ⟨batches, rfl⟩, -, -⟩, hsum⟩
  rw [Txn.wp_bind]
  refine Txn.wp_mono (orLockOrCreate_safe hinv₁ htarget) ?_
  rintro target n₂ s₂ ⟨hon, hfound⟩
  rw [or_self] at hon
  have hr₂ : s₂.inventoryItems.find? source.id = some r := hfound.keeps (hid ▸ hr)
  have hne := hdiffer s₂ hr₂ target hon
  obtain ⟨t, ht, -, htbook⟩ := hon
  have ht0 := hfound.inv.stock.quantities _ t ht
  have hinv₂ := (hfound.inv.weaken (e := fun j => j = source.id ∨ j = target.1 ∨ exempt j)
    (fun _ hx => .inr hx) (fun _ => Int.le_refl _) (fun _ hb => hb)).insertTransfer
    { fromInventoryItemId := source.id, toInventoryItemId := target.1,
      fromWarehouseName := source.warehouseName, fromWarehousePath := source.warehousePath,
      toWarehouseName := warehouse.name, toWarehousePath := warehouse.path, qty := dto.qty,
      remark := dto.remark, operatorId := operator.id, operatorName := operator.name }
  rw [Txn.wp_bind]
  refine inventoryTransferCreate_safe ?_
  rw [Txn.wp_bind]
  refine Txn.wp_mono (moveSegments_safe
    (k := .exempting fun j => j = source.id ∨ j = target.1 ∨ exempt j) hinv₂ hne (fun _ => rfl)
    (.inl rfl) (.inr (.inl rfl)) ?_ ?_) ?_
  · rw [hbook, bookOf]
    exact (Table.valueAt_of_find? hr₂ _).symm
  · rw [htbook, bookOf]
    exact (Table.valueAt_of_find? ht _).symm
  · rintro - n₃ s₃ ⟨hinv₃, hbook₃⟩
    have hinv₄ := hinv₃.unexempt (i := target.1) (e := fun j => j = source.id ∨ exempt j)
      (by omega) (fun j hj hx => hx.imp_right fun hx => hx.resolve_left hj)
    rw [Txn.wp_bind]
    refine Txn.wp_mono (cleanupEmptyItem_wp (k := .exempting exempt) hinv₄) ?_
    rintro - n₅ s₅ ⟨hdone, -, -⟩
    exact hdone

end TransferService

namespace InventoryService

theorem hasLaterFlow_eq_false {b : Nat} : hasLaterFlow s b = false ↔ ¬ LaterFlow s.stockFlows b := by
  rw [hasLaterFlow, isEmpty_select]
  constructor
  · rintro h ⟨j, f, hf, hb, ht⟩
    have hno := h j f hf
    simp [hb, ht] at hno
  · intro h j f hf
    by_contra hyes
    simp only [Bool.not_eq_false, Bool.and_eq_true, beq_iff_eq, bne_iff_ne] at hyes
    exact h ⟨j, f, hf, hyes⟩

theorem remaining_pos (h : Inv k n s) {b : Nat} {r : Batch} (hr : s.batches.find? b = some r)
    (hlater : ¬ LaterFlow s.stockFlows b) (hbare : ¬ k.bare b) (hk : k.unbooked b = 0) :
    0 < r.remainingQty := by
  obtain ⟨j, f, hf, hfb⟩ := h.batchFlows b r hr hbare
  have hchange : ∀ j f, s.stockFlows.find? j = some f → f.batchId = some b →
      0 < f.change := fun j f hf hfb => by
    have hpos := h.ledger.qty_pos j f hf
    have htype : f.flowType = .stockIn := by
      by_contra ht
      exact hlater ⟨j, f, hf, hfb, ht⟩
    simpa [StockFlow.change, h.ledger.stockIn_in j f hf htype] using hpos
  have hle := Table.le_total
    (w := fun _ f => if f.batchId = some b then StockFlow.change f else 0)
    (fun j f hf => by
      split
      · exact Int.le_of_lt (hchange j f hf ‹_›)
      · exact Int.le_refl 0) hf
  have hnet := h.ledger.net b
  rw [netFlow, Table.sumBy, remainingAt, Table.valueAt_of_find? hr, hk] at hnet
  have hpos := hchange j f hf hfb
  rw [if_pos hfb] at hle
  omega

theorem no_allocation (h : Inv k n s) {b : Nat} (hlater : ¬ LaterFlow s.stockFlows b) (j : Nat)
    (a : BorrowBatchAllocation) (ha : s.borrowBatchAllocations.find? j = some a) :
    a.batchId ≠ b := fun hb => hlater (hb ▸ h.allocations.later j a ha)

variable {batchId : Nat}

theorem moveBatch_safe {batch : Batch} {target : TargetItem} {spec : String}
    {warehouse : WarehousePathRow} {s₀ : Store}
    (hfound : FoundOrCreated (.exempting exempt) s₀ target.1 n s)
    (hbatch : s.batches.find? batchId = some batch) (hitem : batch.inventoryItemId = source.id)
    (hsource : (s₀.inventoryItems.find? source.id).isSome)
    (hbook : source.bookQty = bookOf s.inventoryItems source.id)
    (htarget : target.2 = bookOf s.inventoryItems target.1)
    (hlater : ¬ LaterFlow s.stockFlows batchId) :
    (moveBatch operator batchId batch source target spec warehouse).safe
      (fun _ => Inv (.exempting exempt)) n s := by
  have hpos := remaining_pos hfound.inv hbatch hlater id rfl
  unfold moveBatch
  dsimp only
  split
  · rename_i hmoves
    have hne := hmoves.1
    have h₀ := hfound.inv.weaken (e := fun j => j = source.id ∨ j = target.1 ∨ exempt j)
      (fun _ hx => .inr hx) (fun _ => Int.le_refl _) (fun _ hb => hb)
    have ht0 := bookOf_nonneg h₀ target.1
    rw [Txn.safe, Txn.wp_bind]
    refine inventoryItemUpdate_safe fun r hr hok => ?_
    have h₁ := h₀.updateItem hr (x := -batch.remainingQty) (y := 0)
      (e := fun j => j = source.id ∨ j = target.1 ∨ exempt j)
      (f := fun r => { r with bookQty := r.bookQty - batch.remainingQty }) rfl (by simp) rfl hok
      (fun _ _ hx => hx) (fun _ _ _ => .inl rfl)
    rw [Txn.wp_bind]
    refine inventoryItemUpdate_safe fun t ht hok' => ?_
    have h₂ := h₁.updateItem ht (x := batch.remainingQty) (y := 0)
      (e := fun j => j = source.id ∨ j = target.1 ∨ exempt j)
      (f := fun r => { r with bookQty := r.bookQty + batch.remainingQty }) rfl (by simp) rfl hok'
      (fun _ _ hx => hx) (fun _ _ _ => .inr (.inl rfl))
    simp only [Int.neg_neg, bump_zero] at h₂
    have hbookIn := bookOf_update ht (x := batch.remainingQty)
      (f := fun r => { r with bookQty := r.bookQty + batch.remainingQty }) rfl
    rw [bookOf_update hr (x := -batch.remainingQty)
      (f := fun r => { r with bookQty := r.bookQty - batch.remainingQty }) rfl] at hbookIn
    rw [Txn.wp_bind]
    refine stockFlowCreate_safe fun hq => ?_
    have h₃ := h₂.insertFlow (b := batchId)
      (w := correctionFlow operator batchId source.id .out batch.snapshot batch.remainingQty
        source.bookQty (source.bookQty - batch.remainingQty))
      hq (fun hty => by cases hty) rfl
      (by
        dsimp only [correctionFlow]
        rw [hbookIn, bump_ne _ _ (Ne.symm hne), bump_self, bump_ne _ _ (Ne.symm hne), bump_self,
          hbook]
        simp only [Slack.exempting]
        omega)
      rfl
    rw [Txn.wp_bind]
    refine stockFlowCreate_safe fun _ => ?_
    have h₄ := h₃.insertFlow (b := batchId)
      (w := correctionFlow operator batchId target.1 .in
        ⟨batch.snapshot.consumableName, spec, warehouse.name, warehouse.path⟩ batch.remainingQty
        target.2 (target.2 + batch.remainingQty))
      hq (fun hty => by cases hty) rfl
      (by
        simp only [correctionFlow, StockFlow.change]
        rw [hbookIn, bump_self, bump_ne _ _ hne, bump_ne _ _ hne, bump_self, bump_ne _ _ hne,
          htarget]
        simp only [Slack.exempting]
        omega)
      rfl
    rw [Txn.wp_bind]
    refine batchUpdate_safe fun b hb _ => ?_
    obtain rfl : batch = b := by
      have := hbatch.symm.trans hb
      simpa using this
    have h₅ := h₄.moveBatch (f := fun b =>
        { b with
          inventoryItemId := target.1,
          snapshot := ⟨b.snapshot.consumableName, spec, warehouse.name, warehouse.path⟩ })
      hb rfl (no_allocation hfound.inv hlater)
    have htransit : bump (bump (bump (bump (fun _ => (0 : Int)) source.id (-batch.remainingQty))
        target.1 batch.remainingQty) source.id batch.remainingQty) target.1
          (-batch.remainingQty) = fun _ => 0 := bump_cancel _ _ _ (by omega) (by omega)
    have hunposted : bump (bump (bump (bump (fun _ => (0 : Int)) source.id batch.remainingQty)
        target.1 (-batch.remainingQty)) source.id (-batch.remainingQty)) target.1
          batch.remainingQty = fun _ => 0 := bump_cancel _ _ _ (by omega) (by omega)
    simp only [correctionFlow, StockFlow.change, hitem, Slack.exempting, htransit, hunposted,
      bump_bump, Int.add_left_neg, bump_zero] at h₅
    have h₆ := (h₅.weaken (fun _ hx => hx) (fun _ => Int.le_refl _)
      (fun _ hb => hb.2.2)).unexempt (i := target.1) (e := fun j => j = source.id ∨ exempt j)
      (by
        dsimp only
        rw [hbookIn, bump_self, bump_ne _ _ hne]
        omega)
      (fun j hj hx => hx.imp_right fun hx => hx.resolve_left hj)
    refine Txn.wp_mono (cleanupEmptyItem_wp (k := .exempting exempt) h₆) ?_
    rintro - n₅ s₅ ⟨hdone, -, -⟩
    exact hdone
  · rename_i hstays
    have hsame : target.1 = source.id := by
      by_contra hne
      exact hstays ⟨hne, hpos⟩
    rcases hfound with ⟨-, hinv⟩ | ⟨hnone, -, -⟩
    · exact hinv
    · rw [hsame] at hnone
      simp [hnone] at hsource

theorem correctPlace_safe {env : Environment} {batch : Batch} {lockedTarget : Option TargetItem}
    {spec : String} {r : InventoryItem} {key : ItemKey} (h : Inv (.exempting exempt) n s)
    (hbatch : s.batches.find? batchId = some batch) (hitem : batch.inventoryItemId = source.id)
    (hr : s.inventoryItems.find? source.id = some r) (hbook : source.bookQty = r.bookQty)
    (htarget : ∀ t, lockedTarget = some t → OnKey s key t) :
    (correctPlace env operator batchId batch source lockedTarget spec warehouseId).safe
      (fun _ => Inv (.exempting exempt)) n s := by
  unfold correctPlace
  rw [Txn.safe, Txn.wp_bind, Txn.wp_query, Txn.wp_bind]
  refine Txn.safe_guard fun hallowed => ?_
  have hlater : ¬ LaterFlow s.stockFlows batchId := by
    refine hasLaterFlow_eq_false.mp ?_
    simp only [Bool.and_eq_true, Bool.not_eq_true'] at hallowed
    exact hallowed.1
  rw [Txn.wp_bind]
  refine Txn.safe_orThrow fun warehouse _ => ?_
  rw [Txn.wp_bind]
  refine Txn.wp_mono (orLockOrCreate_safe h htarget) ?_
  rintro target n₁ s₁ ⟨hon, hfound⟩
  have hr₁ := hfound.keeps hr
  obtain ⟨t, ht, htbook⟩ : ∃ t, s₁.inventoryItems.find? target.1 = some t ∧
      target.2 = t.bookQty := by
    rcases hon with ⟨t, ht, -, htbook⟩ | ⟨t, ht, -, htbook⟩ <;> exact ⟨t, ht, htbook⟩
  rw [Txn.wp_bind]
  refine Txn.wp_mono (moveBatch_safe hfound ?_ hitem (by rw [hr]; rfl) ?_ ?_ ?_)
    fun _ n' s' hdone => hdone
  · obtain ⟨items, rfl⟩ := hfound.frame
    exact hbatch
  · rw [hbook, bookOf, Table.valueAt_of_find? hr₁]
  · rw [htbook, bookOf, Table.valueAt_of_find? ht]
  · obtain ⟨items, rfl⟩ := hfound.frame
    exact hlater

theorem orItemGone_safe {α : Type} {Q : α → Nat → Store → Prop} {o : Option α}
    (h : ∀ a, o = some a → Q a n s) : (orItemGone o batchId).safe Q n s := by
  unfold orItemGone
  split
  · exact h _ rfl
  · rw [itemGone, Txn.safe, Txn.wp_bind, Txn.wp_query]
    split <;> trivial

theorem readOnly_loadCorrectedDict (dictId : Option Nat) (dictType : AssetDictType) :
    (loadCorrectedDict env dictId dictType).ReadOnly := by
  unfold loadCorrectedDict
  split
  · exact Txn.readOnly_pure _
  · split
    · exact Txn.readOnly_pure _
    · exact (readOnly_loadDictName env _ _).bind fun item => Txn.readOnly_pure _

theorem findCandidate_safe {Q : Option Nat → Nat → Store → Prop} {peek : Batch}
    {input : BatchCorrectionInput} (h : ∀ candidate : Option Nat, (∀ i, candidate = some i →
      ∃ r, s.inventoryItems.find? i = some r ∧ r.HasKey ⟨peek.consumableId,
        input.spec.getD peek.snapshot.spec, input.warehouseId.or warehouseId, "", ""⟩) →
      Q candidate n s) : (findCandidate peek warehouseId input).safe Q n s := by
  unfold findCandidate
  dsimp only
  split
  · exact h _ fun i hi => head?_itemsOfKey hi _ _
  · exact h none fun i hi => by cases hi

theorem correctRow_safe {f : Batch → Batch} {row : BatchCorrection} (h : Inv k n s)
    (hitem : ∀ b, (f b).inventoryItemId = b.inventoryItemId)
    (hqty : ∀ b, (f b).remainingQty = b.remainingQty) :
    Txn.safe (do
      batchUpdate batchId f
      let _ ← batchCorrectionCreate row
      pure ()) (fun _ => Inv k) n s := by
  rw [Txn.safe, Txn.wp_bind]
  refine batchUpdate_safe fun b hb h0 => ?_
  have hstep := h.updateBatch (x := 0) hb (hitem b) (by rw [hqty, Int.add_zero]) h0
  simp only [Int.neg_zero, bump_zero] at hstep
  rw [Txn.wp_bind]
  exact batchCorrectionCreate_safe (hstep.insertCorrection _)

theorem correctBatch_safe (operator : Operator) (batchId : Nat) (input : BatchCorrectionInput)
    (h : Inv (.exempting exempt) n s) :
    (correctBatch env operator batchId input).safe (fun _ => Inv (.exempting exempt)) n s := by
  unfold correctBatch
  rw [Txn.safe, Txn.wp_bind, Txn.wp_query, Txn.wp_bind]
  refine Txn.safe_orThrow fun peek hpeek => ?_
  rw [Txn.wp_bind, Txn.wp_query, Txn.wp_bind]
  refine orItemGone_safe fun sourcePeek _ => ?_
  rw [Txn.wp_bind]
  refine findCandidate_safe fun candidate hcandidate => ?_
  rw [Txn.wp_bind, lockInventoryItems, Txn.wp_queryForUpdate, Txn.wp_bind]
  refine orItemGone_safe fun source hsource => ?_
  obtain ⟨r, hr, hlock⟩ := lockedById_lockRows hsource
  obtain ⟨hid, -, -, -, hbook, -⟩ := lockRow_eq_some hlock
  rw [← hid] at hr
  rw [Txn.wp_bind]
  refine lockedCandidate_safe _ hcandidate fun lockedTarget htarget => ?_
  rw [Txn.wp_bind, Txn.wp_queryForUpdate, Txn.wp_bind]
  refine Txn.safe_orThrow fun batch hbatch => ?_
  rw [Txn.wp_bind]
  refine Txn.safe_guard fun _ => ?_
  have hitem : batch.inventoryItemId = source.id := by
    obtain rfl : peek = batch := by simpa [hpeek] using hbatch
    exact hid.symm
  rw [Txn.wp_bind]
  refine (readOnly_loadCorrectedDict _ _ _).safe fun supplier => ?_
  rw [Txn.wp_bind]
  refine (readOnly_loadCorrectedDict _ _ _).safe fun brand => ?_
  dsimp only
  split
  · rw [Txn.wp_bind]
    refine Txn.wp_mono (correctPlace_safe h hbatch hitem hr hbook htarget) fun place n₁ s₁ h₁ => ?_
    exact correctRow_safe h₁ (fun _ => rfl) fun _ => rfl
  · exact correctRow_safe h (fun _ => rfl) fun _ => rfl

end InventoryService

end Wbme.Asset
