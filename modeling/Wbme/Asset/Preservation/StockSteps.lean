import Wbme.Asset.Invariant

/-! # Steps of stock

What one write to items, batches, flows or consumables does to the invariant. A
write that puts two places out of step changes the slack by what it moved; the
writes that follow it change the slack back.
-/

namespace Wbme.Asset

open Lib

/-! ## Rows after a write -/

variable {α : Type}

theorem find?_update_cases {t : Table α} {i j : Nat} {f : α → α} {r r' : α}
    (hr : t.find? i = some r) (hj : (t.update i f).find? j = some r') :
    (j = i ∧ r' = f r) ∨ (j ≠ i ∧ t.find? j = some r') := by
  by_cases hji : j = i
  · subst hji
    exact .inl ⟨rfl, by simpa [hr] using hj.symm⟩
  · exact .inr ⟨hji, by rwa [Table.find?_update_ne _ _ hji] at hj⟩

theorem find?_insert_cases {t : Table α} {i j : Nat} {row r' : α}
    (hj : (t.insert i row).find? j = some r') :
    (j = i ∧ r' = row) ∨ (j ≠ i ∧ t.find? j = some r') := by
  rw [Table.find?_insert] at hj
  split at hj
  · exact .inl ⟨‹_›, by simpa using hj.symm⟩
  · exact .inr ⟨‹_›, hj⟩

theorem find?_deleteMany_cases {α : Type} {t : Table α} {p : Nat → α → Bool} {j : Nat} {r' : α}
    (hj : (t.deleteMany p).find? j = some r') : t.find? j = some r' ∧ p j r' = false := by
  rw [Table.find?_deleteMany, Option.bind_eq_some_iff] at hj
  obtain ⟨r, hr, hj⟩ := hj
  cases hp : p j r with
  | true => simp [hp] at hj
  | false =>
      obtain rfl : r = r' := by simpa [hp] using hj
      exact ⟨hr, hp⟩

theorem isSome_update {t : Table α} {i j : Nat} {f : α → α} (h : (t.find? j).isSome) :
    ((t.update i f).find? j).isSome := by
  simpa [Table.find?_update] using h

theorem isSome_insert {t : Table α} {i j : Nat} {row : α} (h : (t.find? j).isSome) :
    ((t.insert i row).find? j).isSome := by
  rw [Table.find?_insert]
  split
  · rfl
  · exact h

/-! ## Items -/

variable {flows : Table StockFlow}

section Items

variable {items : Table InventoryItem} {i : Nat} {r : InventoryItem}
  {f : InventoryItem → InventoryItem} {x y : Int}

theorem bookOf_update (hr : items.find? i = some r) (hx : (f r).bookQty = r.bookQty + x) :
    bookOf (items.update i f) = bump (bookOf items) i x := Table.valueAt_update hr hx

theorem reservedOf_update (hr : items.find? i = some r)
    (hy : (f r).reservedQty = r.reservedQty + y) :
    reservedOf (items.update i f) = bump (reservedOf items) i y := Table.valueAt_update hr hy

theorem quantitiesOk_iff : r.quantitiesOk = true ↔ 0 ≤ r.reservedQty ∧ r.reservedQty ≤ r.bookQty := by
  simp only [InventoryItem.quantitiesOk, Bool.and_eq_true, decide_eq_true_eq]
  omega

theorem StockOk.updateItem {transit : Nat → Int} {batches : Table Batch}
    (h : StockOk transit items batches) (hr : items.find? i = some r)
    (hx : (f r).bookQty = r.bookQty + x) (hok : (f r).quantitiesOk = true) :
    StockOk (bump transit i x) (items.update i f) batches where
  quantities := fun j r' hj => by
    obtain ⟨rfl, rfl⟩ | ⟨-, hj⟩ := find?_update_cases hr hj
    · exact quantitiesOk_iff.mp hok
    · exact h.quantities j r' hj
  remaining_nonneg := h.remaining_nonneg
  book := fun j => by
    have hj := h.book j
    rw [bookOf_update hr hx]
    simp only [bump]
    split <;> omega

theorem ReserveOk.updateItem {owed : Nat → Int} {requests : Table ApprovalRequest}
    {changes : Table StockChangeItem} {claims : Table ConsumableRequestItem}
    (h : ReserveOk owed items requests changes claims) (hr : items.find? i = some r)
    (hy : (f r).reservedQty = r.reservedQty + y) :
    ReserveOk (bump owed i y) (items.update i f) requests changes claims := fun j => by
  have hj := h j
  rw [reservedOf_update hr hy]
  simp only [bump]
  split <;> omega

theorem LedgerOk.updateItem {unposted net : Nat → Int}
    (h : LedgerOk flows (fun j => bookOf items j + unposted j) net) (hr : items.find? i = some r)
    (hx : (f r).bookQty = r.bookQty + x) :
    LedgerOk flows (fun j => bookOf (items.update i f) j + bump unposted i (-x) j) net where
  chain := fun j => by
    have hj : bookOf (items.update i f) j + bump unposted i (-x) j =
        bookOf items j + unposted j := by
      rw [bookOf_update hr hx]
      simp only [bump]
      split <;> omega
    rw [hj]
    exact h.chain j
  net := h.net
  qty_pos := h.qty_pos
  stockIn_in := h.stockIn_in

theorem ItemsHaveConsumables.updateItem {consumables : Table Consumable}
    (h : ItemsHaveConsumables items consumables) (hr : items.find? i = some r)
    (hc : (f r).consumableId = r.consumableId) :
    ItemsHaveConsumables (items.update i f) consumables := fun j r' hj => by
  obtain ⟨rfl, rfl⟩ | ⟨-, hj⟩ := find?_update_cases hr hj
  · rw [hc]
    exact h j r hr
  · exact h j r' hj

variable {k : Slack} {n : Nat} {s : Store}

theorem bookOf_nonneg (h : Inv k n s) (j : Nat) : 0 ≤ bookOf s.inventoryItems j := by
  rw [bookOf]
  cases hr : s.inventoryItems.find? j with
  | none => rw [Table.valueAt_of_find?_none hr]
  | some r =>
      rw [Table.valueAt_of_find? hr]
      have := h.stock.quantities j r hr
      omega

variable {e : Nat → Prop}

theorem Inv.updateItem (h : Inv k n s) (hr : s.inventoryItems.find? i = some r)
    (hx : (f r).bookQty = r.bookQty + x) (hy : (f r).reservedQty = r.reservedQty + y)
    (hc : (f r).consumableId = r.consumableId) (hok : (f r).quantitiesOk = true)
    (hother : ∀ j, j ≠ i → k.exempt j → e j)
    (hself : (f r).bookQty = 0 → (f r).reservedQty = 0 → openOn s.borrowRecords i = 0 →
      e i) :
    Inv
      { k with
        owed := bump k.owed i y, transit := bump k.transit i x,
        unposted := bump k.unposted i (-x), exempt := e }
      n { s with inventoryItems := s.inventoryItems.update i f } :=
  { h with
    fresh := { h.fresh with inventoryItems := h.fresh.inventoryItems.alter _ }
    stock := h.stock.updateItem hr hx hok
    reserve := h.reserve.updateItem hr hy
    ledger := h.ledger.updateItem hr hx
    records := { h.records with item := fun b rec hb ho => isSome_update (h.records.item b rec hb ho) }
    consumables := h.consumables.updateItem hr hc
    noEmpty := fun j r' hj hb hq ho => by
      obtain ⟨rfl, rfl⟩ | ⟨hji, hj⟩ := find?_update_cases hr hj
      · exact hself hb hq ho
      · exact hother j hji (h.noEmpty j r' hj hb hq ho) }

theorem Inv.unexempt (h : Inv k n s) {i : Nat} (hb : bookOf s.inventoryItems i ≠ 0)
    (hother : ∀ j, j ≠ i → k.exempt j → e j) : Inv { k with exempt := e } n s :=
  { h with
    noEmpty := fun j r hr hbook hres ho => by
      refine hother j ?_ (h.noEmpty j r hr hbook hres ho)
      rintro rfl
      exact hb (by rw [bookOf, Table.valueAt_of_find? hr, hbook]) }

theorem Inv.insertItem (h : Inv k n s) {row : InventoryItem} (hbook : row.bookQty = 0)
    (hres : row.reservedQty = 0) (hc : (s.consumables.find? row.consumableId).isSome)
    {exempt : Nat → Prop} (hother : ∀ j, k.exempt j → exempt j) (hself : exempt n) :
    Inv { k with exempt } (n + 1)
      { s with inventoryItems := s.inventoryItems.insert n row } := by
  have hnone := h.fresh.inventoryItems.find?_none (Nat.le_refl n)
  have hbookOf : bookOf (s.inventoryItems.insert n row) = bookOf s.inventoryItems :=
    (Table.valueAt_insert hnone row _).trans (by rw [hbook, bump_zero]; rfl)
  have hreservedOf : reservedOf (s.inventoryItems.insert n row) = reservedOf s.inventoryItems :=
    (Table.valueAt_insert hnone row _).trans (by rw [hres, bump_zero]; rfl)
  exact
    { h with
      fresh := { h.fresh.mono n.le_succ with
        inventoryItems := (h.fresh.inventoryItems.mono n.le_succ).insert n.lt_succ_self row }
      stock :=
        { h.stock with
          quantities := fun j r' hj => by
            obtain ⟨rfl, rfl⟩ | ⟨-, hj⟩ := find?_insert_cases hj
            · omega
            · exact h.stock.quantities j r' hj
          book := fun j => by rw [hbookOf]; exact h.stock.book j }
      reserve := fun j => by rw [hreservedOf]; exact h.reserve j
      ledger := by rw [hbookOf]; exact h.ledger
      records :=
        { h.records with item := fun b rec hb ho => isSome_insert (h.records.item b rec hb ho) }
      consumables := fun j r' hj => by
        obtain ⟨rfl, rfl⟩ | ⟨-, hj⟩ := find?_insert_cases hj
        · exact hc
        · exact h.consumables j r' hj
      noEmpty := fun j r' hj hb hq ho => by
        obtain ⟨rfl, rfl⟩ | ⟨-, hj⟩ := find?_insert_cases hj
        · exact hself
        · exact hother j (h.noEmpty j r' hj hb hq ho) }

theorem Inv.deleteItems (h : Inv k n s) {p : Nat → InventoryItem → Bool}
    (hp : ∀ i r, s.inventoryItems.find? i = some r → p i r = true →
      r.bookQty = 0 ∧ r.reservedQty = 0)
    (hopen : ∀ b rec, s.borrowRecords.find? b = some rec → 0 < rec.openQty →
      ∀ r, s.inventoryItems.find? rec.inventoryItemId = some r → p rec.inventoryItemId r = false)
    (hother : ∀ i r, s.inventoryItems.find? i = some r → p i r = false → k.exempt i → e i) :
    Inv { k with exempt := e } n
      { s with inventoryItems := s.inventoryItems.deleteMany p } := by
  have hbookOf : bookOf (s.inventoryItems.deleteMany p) = bookOf s.inventoryItems :=
    Table.valueAt_deleteMany fun i r hr hpi => (hp i r hr hpi).1
  have hreservedOf : reservedOf (s.inventoryItems.deleteMany p) = reservedOf s.inventoryItems :=
    Table.valueAt_deleteMany fun i r hr hpi => (hp i r hr hpi).2
  exact
    { h with
      fresh := { h.fresh with inventoryItems := h.fresh.inventoryItems.alter _ }
      stock :=
        { h.stock with
          quantities := fun j r' hj => h.stock.quantities j r' (find?_deleteMany_cases hj).1
          book := fun j => by rw [hbookOf]; exact h.stock.book j }
      reserve := fun j => by rw [hreservedOf]; exact h.reserve j
      ledger := by rw [hbookOf]; exact h.ledger
      records :=
        { h.records with
          item := fun b rec hb ho => by
            obtain ⟨r, hr⟩ := Option.isSome_iff_exists.mp (h.records.item b rec hb ho)
            rw [Table.find?_deleteMany, hr]
            simp [hopen b rec hb ho r hr] }
      consumables := fun j r' hj => h.consumables j r' (find?_deleteMany_cases hj).1
      noEmpty := fun j r' hj hb hq ho => by
        obtain ⟨hj, hpj⟩ := find?_deleteMany_cases hj
        exact hother j r' hj hpj (h.noEmpty j r' hj hb hq ho) }

end Items

section Batches

variable {items : Table InventoryItem} {batches : Table Batch} {transit : Nat → Int} {b : Nat}
  {r : Batch} {f : Batch → Batch} {x : Int}

theorem remainingAt_update (hr : batches.find? b = some r)
    (hx : (f r).remainingQty = r.remainingQty + x) :
    remainingAt (batches.update b f) = bump (remainingAt batches) b x :=
  Table.valueAt_update hr hx

theorem StockOk.updateBatch (h : StockOk transit items batches) (hr : batches.find? b = some r)
    (hi : (f r).inventoryItemId = r.inventoryItemId)
    (hx : (f r).remainingQty = r.remainingQty + x) (h0 : 0 ≤ (f r).remainingQty) :
    StockOk (bump transit r.inventoryItemId (-x)) items (batches.update b f) where
  quantities := h.quantities
  remaining_nonneg := fun j r' hj => by
    obtain ⟨rfl, rfl⟩ | ⟨-, hj⟩ := find?_update_cases hr hj
    · exact h0
    · exact h.remaining_nonneg j r' hj
  book := fun j => by
    have hj := h.book j
    have hsum : remainingOf (batches.update b f) = bump (remainingOf batches) r.inventoryItemId x :=
      Table.sumBy_update hr hi hx
    rw [hsum]
    simp only [bump]
    split <;> omega

theorem StockOk.insertBatch (h : StockOk transit items batches) (hb : batches.find? b = none)
    (h0 : 0 ≤ r.remainingQty) :
    StockOk (bump transit r.inventoryItemId (-r.remainingQty)) items (batches.insert b r) where
  quantities := h.quantities
  remaining_nonneg := fun j r' hj => by
    obtain ⟨rfl, rfl⟩ | ⟨-, hj⟩ := find?_insert_cases hj
    · exact h0
    · exact h.remaining_nonneg j r' hj
  book := fun j => by
    have hj := h.book j
    have hsum : remainingOf (batches.insert b r) =
        bump (remainingOf batches) r.inventoryItemId r.remainingQty := Table.sumBy_insert hb r _ _
    rw [hsum]
    simp only [bump]
    split <;> omega

theorem StockOk.moveBatch (h : StockOk transit items batches) (hr : batches.find? b = some r)
    (hx : (f r).remainingQty = r.remainingQty) :
    StockOk (bump (bump transit r.inventoryItemId r.remainingQty) (f r).inventoryItemId
      (-r.remainingQty)) items (batches.update b f) where
  quantities := h.quantities
  remaining_nonneg := fun j r' hj => by
    obtain ⟨rfl, rfl⟩ | ⟨-, hj⟩ := find?_update_cases hr hj
    · rw [hx]
      exact h.remaining_nonneg j r hr
    · exact h.remaining_nonneg j r' hj
  book := fun j => by
    have hj := h.book j
    have hsum : remainingOf (batches.update b f) =
        bump (bump (remainingOf batches) r.inventoryItemId (-r.remainingQty))
          (f r).inventoryItemId r.remainingQty := Table.sumBy_move hr hx _
    rw [hsum]
    simp only [bump]
    split <;> split <;> omega

theorem LedgerOk.changeNet {book unbooked : Nat → Int} {batches' : Table Batch}
    (h : LedgerOk flows book (fun j => remainingAt batches j + unbooked j))
    (hx : remainingAt batches' = bump (remainingAt batches) b x) :
    LedgerOk flows book (fun j => remainingAt batches' j + bump unbooked b (-x) j) where
  chain := h.chain
  net := fun j => by
    have hj : remainingAt batches' j + bump unbooked b (-x) j =
        remainingAt batches j + unbooked j := by
      rw [hx]
      simp only [bump]
      split <;> omega
    rw [hj]
    exact h.net j
  qty_pos := h.qty_pos
  stockIn_in := h.stockIn_in

variable {k : Slack} {n : Nat} {s : Store}

theorem BatchesHaveFlows.updateBatch {bare : Nat → Prop} (h : BatchesHaveFlows bare batches flows)
    (f : Batch → Batch) : BatchesHaveFlows bare (batches.update b f) flows := fun j r' hj hb => by
  rw [Table.find?_update] at hj
  obtain ⟨r, hr, -⟩ := Option.map_eq_some_iff.mp hj
  exact h j r hr hb

theorem AllocationsOk.updateBatch {lent back : Nat → Int} {borrows : Table BorrowRecord}
    {allocs : Table BorrowBatchAllocation}
    (h : AllocationsOk lent back borrows allocs batches flows) (hr : batches.find? b = some r)
    (hi : (f r).inventoryItemId = r.inventoryItemId) :
    AllocationsOk lent back borrows allocs (batches.update b f) flows :=
  { h with
    home := fun j a ha => by
      obtain ⟨r', rec, hb, hrec, heq⟩ := h.home j a ha
      by_cases hab : a.batchId = b
      · subst hab
        obtain rfl : r = r' := by simpa [hr] using hb
        exact ⟨f r, rec, by simp [hr], hrec, by rw [hi, heq]⟩
      · exact ⟨r', rec, by rw [Table.find?_update_ne _ _ hab, hb], hrec, heq⟩ }

theorem Inv.updateBatch (h : Inv k n s) (hr : s.batches.find? b = some r)
    (hi : (f r).inventoryItemId = r.inventoryItemId)
    (hx : (f r).remainingQty = r.remainingQty + x) (h0 : 0 ≤ (f r).remainingQty) :
    Inv
      { k with
        transit := bump k.transit r.inventoryItemId (-x),
        unbooked := bump k.unbooked b (-x) }
      n { s with batches := s.batches.update b f } :=
  { h with
    fresh := { h.fresh with batches := h.fresh.batches.alter _ }
    stock := h.stock.updateBatch hr hi hx h0
    ledger := h.ledger.changeNet (remainingAt_update hr hx)
    batchFlows := h.batchFlows.updateBatch f
    allocations := h.allocations.updateBatch hr hi }

theorem Inv.insertBatch (h : Inv k n s) {w : Batch} (h0 : 0 ≤ w.remainingQty) :
    Inv
      { k with
        transit := bump k.transit w.inventoryItemId (-w.remainingQty),
        unbooked := bump k.unbooked n (-w.remainingQty), bare := fun b => b = n ∨ k.bare b }
      (n + 1) { s with batches := s.batches.insert n w } := by
  have hnone := h.fresh.batches.find?_none (Nat.le_refl n)
  exact
    { h with
      fresh := { h.fresh.mono n.le_succ with
        batches := (h.fresh.batches.mono n.le_succ).insert n.lt_succ_self w }
      stock := h.stock.insertBatch hnone h0
      ledger := h.ledger.changeNet (Table.valueAt_insert hnone w _)
      batchFlows := fun j r' hj hb => by
        obtain ⟨rfl, rfl⟩ | ⟨-, hj⟩ := find?_insert_cases hj
        · exact absurd (.inl rfl) hb
        · exact h.batchFlows j r' hj (fun hbare => hb (.inr hbare))
      allocations :=
        { h.allocations with
          home := fun j a ha => by
            obtain ⟨r', rec, hb, hrec, heq⟩ := h.allocations.home j a ha
            have hne : a.batchId ≠ n := fun hn => by rw [hn, hnone] at hb; cases hb
            exact ⟨r', rec, by rw [Table.find?_insert_ne _ _ hne, hb], hrec, heq⟩ } }

theorem Inv.moveBatch (h : Inv k n s) (hr : s.batches.find? b = some r)
    (hx : (f r).remainingQty = r.remainingQty)
    (hfree : ∀ j a, s.borrowBatchAllocations.find? j = some a → a.batchId ≠ b) :
    Inv
      { k with
        transit := bump (bump k.transit r.inventoryItemId r.remainingQty) (f r).inventoryItemId
          (-r.remainingQty) }
      n { s with batches := s.batches.update b f } := by
  have hrem : remainingAt (s.batches.update b f) = remainingAt s.batches :=
    (remainingAt_update hr (x := 0) (by omega)).trans (bump_zero _ _)
  exact
    { h with
      fresh := { h.fresh with batches := h.fresh.batches.alter _ }
      stock := h.stock.moveBatch hr hx
      ledger := by rw [hrem]; exact h.ledger
      batchFlows := h.batchFlows.updateBatch f
      allocations :=
        { h.allocations with
          home := fun j a ha => by
            obtain ⟨r', rec, hb, hrec, heq⟩ := h.allocations.home j a ha
            exact ⟨r', rec, by rw [Table.find?_update_ne _ _ (hfree j a ha), hb], hrec, heq⟩ } }

end Batches

section Flows

variable {flows : Table StockFlow} {n : Nat} {row : StockFlow} {book net : Nat → Int}

theorem flowsOf_insert (h : flows.Below n) (i : Nat) :
    flowsOf (flows.insert n row) i =
      flowsOf flows i ++ (if row.inventoryItemId = i then [row] else []) := by
  rw [flowsOf, Table.select_insert_of_below h, List.map_append, flowsOf]
  by_cases hi : row.inventoryItemId = i <;> simp [hi]

variable {b : Nat}

theorem LaterFlow.insert (h : LaterFlow flows b) (hn : flows.find? n = none) :
    LaterFlow (flows.insert n row) b := by
  obtain ⟨j, f, hf, hb, ht⟩ := h
  have hne : j ≠ n := fun hj => by rw [hj, hn] at hf; cases hf
  exact ⟨j, f, by rw [Table.find?_insert_ne _ _ hne, hf], hb, ht⟩

/-- A flow that starts at the end of its item's chain moves the chain and the net quantity of
its batch by its change. -/
theorem LedgerOk.insertFlow (h : LedgerOk flows book net) (hn : flows.Below n) (hpos : 0 < row.qty)
    (hin : row.flowType = .stockIn → row.direction = .in) (hbatch : row.batchId = some b)
    (hbefore : row.bookBefore = book row.inventoryItemId)
    (hafter : row.bookAfter = row.bookBefore + row.change) :
    LedgerOk (flows.insert n row) (bump book row.inventoryItemId row.change)
      (bump net b row.change) where
  chain := fun i => by
    rw [flowsOf_insert hn]
    by_cases hi : row.inventoryItemId = i
    · subst hi
      have hsnoc := (h.chain row.inventoryItemId).snoc (e := row.entry) hbefore hafter
      have hend : row.entry.after = book row.inventoryItemId + row.change := by
        rw [← hbefore]
        exact hafter
      simpa [hend] using hsnoc
    · rw [if_neg hi, List.append_nil, bump_ne _ _ (Ne.symm hi)]
      exact h.chain i
  net := fun j => by
    have hj := h.net j
    unfold netFlow at hj ⊢
    rw [Table.sumBy_insert (hn.find?_none (Nat.le_refl n)), hbatch]
    simp only [bump, Option.some.injEq]
    split <;> omega
  qty_pos := fun j f hf => by
    obtain ⟨rfl, rfl⟩ | ⟨-, hf⟩ := find?_insert_cases hf
    · exact hpos
    · exact h.qty_pos j f hf
  stockIn_in := fun j f hf => by
    obtain ⟨rfl, rfl⟩ | ⟨-, hf⟩ := find?_insert_cases hf
    · exact hin
    · exact h.stockIn_in j f hf

variable {k : Slack} {s : Store}

theorem Inv.insertFlow {w : StockFlow} (h : Inv k n s) (hpos : 0 < w.qty)
    (hin : w.flowType = .stockIn → w.direction = .in) (hbatch : w.batchId = some b)
    (hbefore : w.bookBefore =
      bookOf s.inventoryItems w.inventoryItemId + k.unposted w.inventoryItemId)
    (hafter : w.bookAfter = w.bookBefore + w.change) :
    Inv
      { k with
        unposted := bump k.unposted w.inventoryItemId w.change,
        unbooked := bump k.unbooked b w.change, bare := fun j => j ≠ b ∧ k.bare j }
      (n + 1) { s with stockFlows := s.stockFlows.insert n w } := by
  have hnone := h.fresh.stockFlows.find?_none (Nat.le_refl n)
  exact
    { h with
      fresh := { h.fresh.mono n.le_succ with
        stockFlows := (h.fresh.stockFlows.mono n.le_succ).insert n.lt_succ_self w }
      ledger := by
        dsimp only
        rw [add_bump, add_bump]
        exact h.ledger.insertFlow h.fresh.stockFlows hpos hin hbatch hbefore hafter
      batchFlows := fun j r hj hbare => by
        by_cases hjb : j = b
        · subst hjb
          exact ⟨n, w, by simp, hbatch⟩
        · obtain ⟨i, f, hf, hfb⟩ := h.batchFlows j r hj (fun hb => hbare ⟨hjb, hb⟩)
          have hne : i ≠ n := fun hi => by rw [hi, hnone] at hf; cases hf
          exact ⟨i, f, by rw [Table.find?_insert_ne _ _ hne, hf], hfb⟩
      allocations :=
        { h.allocations with
          later := fun j a ha => (h.allocations.later j a ha).insert hnone } }

end Flows

section Consumables

variable {k : Slack} {n : Nat} {s : Store}

theorem Inv.insertConsumable (h : Inv k n s) (row : Consumable) :
    Inv k (n + 1) { s with consumables := s.consumables.insert n row } :=
  { h with
    fresh := { h.fresh.mono n.le_succ with
      consumables := (h.fresh.consumables.mono n.le_succ).insert n.lt_succ_self row }
    consumables := fun i r hr => isSome_insert (h.consumables i r hr) }

theorem Inv.updateConsumable (h : Inv k n s) (id : Nat) (f : Consumable → Consumable) :
    Inv k n { s with consumables := s.consumables.update id f } :=
  { h with
    fresh := { h.fresh with consumables := h.fresh.consumables.alter _ }
    consumables := fun i r hr => isSome_update (h.consumables i r hr) }

theorem Inv.deleteConsumables (h : Inv k n s) {p : Nat → Consumable → Bool}
    (hp : ∀ i r, s.inventoryItems.find? i = some r →
      ∀ c, s.consumables.find? r.consumableId = some c → p r.consumableId c = false) :
    Inv k n { s with consumables := s.consumables.deleteMany p } :=
  { h with
    fresh := { h.fresh with consumables := h.fresh.consumables.alter _ }
    consumables := fun i r hr => by
      obtain ⟨c, hc⟩ := Option.isSome_iff_exists.mp (h.consumables i r hr)
      rw [Table.find?_deleteMany, hc]
      simp [hp i r hr c hc] }

end Consumables

end Wbme.Asset
