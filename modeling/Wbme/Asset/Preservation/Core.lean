import Wbme.Asset.Preservation.Rules

/-! # The shared stock tools keep the invariant

Allocation takes from the batches of one item and puts what it took in transit;
the flows of an issue post it; cleaning up ends the exemption of an empty item;
locking or creating yields an item with the key that was asked for.
-/

namespace Wbme.Asset

open Lib

variable {k : Slack} {n : Nat} {s : Store}

/-! ## Taking from batches -/

def takenFrom (allocations : List BatchAllocation) : Nat → Int :=
  sumOn (·.batchId) (·.qty) allocations

/-- What the allocations take altogether. -/
def takenQty (allocations : List BatchAllocation) : Int := (allocations.map (·.qty)).sum

@[simp] theorem takenFrom_nil (b : Nat) : takenFrom [] b = 0 := rfl

@[simp] theorem takenQty_nil : takenQty [] = 0 := rfl

@[simp] theorem takenQty_cons (a : BatchAllocation) (as : List BatchAllocation) :
    takenQty (a :: as) = a.qty + takenQty as := by simp [takenQty]

theorem takenQty_append (as bs : List BatchAllocation) :
    takenQty (as ++ bs) = takenQty as + takenQty bs := by simp [takenQty]

theorem add_takenFrom_append (u : Nat → Int) (as : List BatchAllocation) (a : BatchAllocation) :
    (fun b => u b + takenFrom (as ++ [a]) b) =
      bump (fun b => u b + takenFrom as b) a.batchId a.qty := by
  funext b
  rw [takenFrom, sumOn_append, sumOn_cons, takenFrom]
  simp only [bump, sumOn_nil]
  split <;> omega

theorem bump_add_takenFrom_cons (u : Nat → Int) (a : BatchAllocation) (as : List BatchAllocation) :
    bump (fun b => u b + takenFrom (a :: as) b) a.batchId (-a.qty) =
      fun b => u b + takenFrom as b := by
  funext b
  rw [takenFrom, sumOn_cons, takenFrom]
  simp only [bump]
  split <;> omega

def AllPositive (allocations : List BatchAllocation) : Prop := ∀ a ∈ allocations, 0 < a.qty

def TakenFromItem (batches : Table Batch) (i : Nat) (allocations : List BatchAllocation) : Prop :=
  ∀ a ∈ allocations, ∃ b, batches.find? a.batchId = some b ∧ b.inventoryItemId = i

/-- Segments of an item have been taken from its batches and nothing else has happened. -/
structure Taken (k : Slack) (n : Nat) (s : Store) (i : Nat) (allocations : List BatchAllocation)
    (n' : Nat) (s' : Store) : Prop where
  inv : Inv
    { k with
      transit := bump k.transit i (takenQty allocations),
      unbooked := fun b => k.unbooked b + takenFrom allocations b } n' s'
  frame : ∃ batches, s' = { s with batches := batches }
  positive : AllPositive allocations
  home : TakenFromItem s'.batches i allocations

theorem Taken.nil (h : Inv k n s) (i : Nat) : Taken k n s i [] n s where
  inv := by simpa using h
  frame := ⟨s.batches, rfl⟩
  positive := by simp [AllPositive]
  home := by simp [TakenFromItem]

theorem Taken.take {n₀ : Nat} {s₀ : Store} {i id : Nat} {taken : List BatchAllocation} {b : Batch}
    (h : Taken k n₀ s₀ i taken n s) (hb : s.batches.find? id = some b) (hi : b.inventoryItemId = i)
    {take : Int} (htake : 0 < take) (h0 : 0 ≤ b.remainingQty - take) :
    Taken k n₀ s₀ i (taken ++ [⟨id, take⟩]) n
      { s with
        batches := s.batches.update id
          (fun r => { r with remainingQty := r.remainingQty - take }) } where
  inv := by
    have hstep := h.inv.updateBatch hb (x := -take)
      (f := fun r => { r with remainingQty := r.remainingQty - take }) rfl rfl h0
    rw [hi] at hstep
    rw [add_takenFrom_append, takenQty_append]
    simpa using hstep
  frame := by
    obtain ⟨batches, rfl⟩ := h.frame
    exact ⟨_, rfl⟩
  positive := by
    intro a ha
    rcases List.mem_append.mp ha with ha | ha
    · exact h.positive a ha
    · obtain rfl := List.mem_singleton.mp ha
      exact htake
  home := by
    intro a ha
    have hkeep : ∀ j r, s.batches.find? j = some r → r.inventoryItemId = i →
        ∃ r', (s.batches.update id
          (fun r => { r with remainingQty := r.remainingQty - take })).find? j = some r' ∧
          r'.inventoryItemId = i := by
      intro j r hr hri
      rw [Table.find?_update, hr]
      by_cases hj : j = id <;> simp [hj, hri]
    rcases List.mem_append.mp ha with ha | ha
    · obtain ⟨r, hr, hri⟩ := h.home a ha
      exact hkeep _ r hr hri
    · obtain rfl := List.mem_singleton.mp ha
      exact hkeep _ b hb hi

/-- Rows that are still as they were read: batches of the item with something left, each once. -/
def CurrentRows (batches : Table Batch) (i : Nat) (rows : List (Nat × Batch)) : Prop :=
  (∀ p ∈ rows, batches.find? p.1 = some p.2 ∧ p.2.inventoryItemId = i ∧ 0 < p.2.remainingQty) ∧
    (rows.map (·.1)).Nodup

variable {i : Nat} {locked : List InventoryItemLockRow} {row : InventoryItemLockRow}
  {r : InventoryItem}

theorem CurrentRows.tail {batches : Table Batch} {row : Nat × Batch} {rows : List (Nat × Batch)}
    (h : CurrentRows batches i (row :: rows)) (f : Batch → Batch) :
    CurrentRows (batches.update row.1 f) i rows := by
  obtain ⟨hrows, hnodup⟩ := h
  rw [List.map_cons, List.nodup_cons] at hnodup
  refine ⟨fun p hp => ?_, hnodup.2⟩
  have hne : p.1 ≠ row.1 := fun he => hnodup.1 (he ▸ List.mem_map_of_mem hp)
  rw [Table.find?_update_ne _ _ hne]
  exact hrows p (List.mem_cons_of_mem _ hp)

theorem takeBatches_safe {n₀ : Nat} {s₀ : Store} {i : Nat} {rows : List (Nat × Batch)}
    {remaining : Int} {taken : List BatchAllocation} (h : Taken k n₀ s₀ i taken n s)
    (hrows : CurrentRows s.batches i rows) (h0 : 0 ≤ remaining) :
    (takeBatches rows remaining taken).safe
      (fun as n' s' => Taken k n₀ s₀ i as n' s' ∧ takenQty as = takenQty taken + remaining)
      n s := by
  induction rows generalizing remaining taken n s with
  | nil =>
      unfold takeBatches
      split
      · trivial
      · exact ⟨h, by omega⟩
  | cons row rows ih =>
      unfold takeBatches
      split
      · exact ⟨h, by omega⟩
      · obtain ⟨hfind, hitem, hleft⟩ := hrows.1 row List.mem_cons_self
        dsimp only
        rw [Txn.safe, Txn.wp_bind]
        refine batchTake_safe hfind fun hok => ?_
        have hmin : 0 < min row.2.remainingQty remaining := by omega
        refine Txn.wp_mono (ih (h.take hfind hitem hmin hok) (hrows.tail _) (by omega)) ?_
        rintro as n' s' ⟨htaken, hsum⟩
        refine ⟨htaken, ?_⟩
        rw [hsum, takenQty_append]
        simp only [takenQty_cons, takenQty_nil]
        omega

theorem currentRows_fifoRows (s : Store) (i : Nat) : CurrentRows s.batches i (fifoRows s i) := by
  refine ⟨fun p hp => ?_, ?_⟩
  · obtain ⟨hfind, hp⟩ := Table.mem_select.mp ((List.mem_insertionSort _).mp hp)
    simp only [Bool.and_eq_true, beq_iff_eq, decide_eq_true_eq] at hp
    exact ⟨hfind, hp.1, hp.2⟩
  · have hperm := (List.perm_insertionSort fifoBefore (s.batches.select
      (fun _ b => b.inventoryItemId == i && 0 < b.remainingQty))).map (·.1)
    refine hperm.nodup_iff.mpr ?_
    exact List.pairwise_map.mpr ((Table.select_pairwise _ _).imp fun hlt => Nat.ne_of_lt hlt)

theorem allocateFifoBatches_safe (h : Inv k n s) (i : Nat) {qty : Int} (h0 : 0 ≤ qty) :
    (allocateFifoBatches i qty).safe
      (fun as n' s' => Taken k n s i as n' s' ∧ takenQty as = qty) n s := by
  unfold allocateFifoBatches
  rw [Txn.safe, Txn.wp_bind, Txn.wp_queryForUpdate]
  refine Txn.wp_mono (takeBatches_safe (.nil h i) (currentRows_fifoRows s i) h0) ?_
  rintro as n' s' ⟨htaken, hsum⟩
  exact ⟨htaken, by simpa using hsum⟩

/-! ## Flows of an issue -/

/-- What an issue leaves in the flows: later flows stay, and every segment has one. -/
def FlowsWritten (flows flows' : Table StockFlow) (allocations : List BatchAllocation) : Prop :=
  (∀ b, LaterFlow flows b → LaterFlow flows' b) ∧ ∀ a ∈ allocations, LaterFlow flows' a.batchId

theorem FlowsWritten.cons {flows flows₁ flows₂ : Table StockFlow} {a : BatchAllocation}
    {as : List BatchAllocation} (h₁ : ∀ b, LaterFlow flows b → LaterFlow flows₁ b)
    (ha : LaterFlow flows₁ a.batchId) (h₂ : FlowsWritten flows₁ flows₂ as) :
    FlowsWritten flows flows₂ (a :: as) := by
  refine ⟨fun b hb => h₂.1 b (h₁ b hb), fun a' ha' => ?_⟩
  rcases List.mem_cons.mp ha' with rfl | ha'
  · exact h₂.1 _ ha
  · exact h₂.2 a' ha'

theorem writeIssueFlows_safe {kind : IssueKind} {refId i : Nat} {row : InventoryItemLockRow}
    {as : List BatchAllocation} {before : Int} (h : Inv
      { k with
        unposted := bump k.unposted i (takenQty as),
        unbooked := fun b => k.unbooked b + takenFrom as b } n s) (hk : k.unposted i = 0)
    (hid : row.id = i) (hbefore : before = bookOf s.inventoryItems i + takenQty as)
    (htype : kind.flowType ≠ .stockIn) :
    (writeIssueFlows kind refId row as before).safe
      (fun _ n' s' => Inv k n' s' ∧ ∃ flows, s' = { s with stockFlows := flows } ∧
        FlowsWritten s.stockFlows flows as) n s := by
  induction as generalizing before n s with
  | nil =>
      unfold writeIssueFlows
      exact ⟨by simpa using h, s.stockFlows, rfl, fun b hb => hb, by simp⟩
  | cons a as ih =>
      unfold writeIssueFlows
      dsimp only
      rw [Txn.safe, Txn.wp_bind]
      refine stockFlowCreate_safe fun hq => ?_
      have hnone := h.fresh.stockFlows.find?_none (Nat.le_refl n)
      rw [takenQty_cons] at hbefore
      have hstep := h.insertFlow (b := a.batchId)
        (w :=
          { flowType := kind.flowType, direction := .out, inventoryItemId := row.id,
            batchId := some a.batchId, snapshot := row.snapshot, qty := a.qty,
            bookBefore := before, bookAfter := before - a.qty, refType := kind.refType,
            refId := refId, operatorId := kind.operatorId, operatorName := kind.operatorName })
        hq (fun ht => absurd ht htype) rfl
        (by
          dsimp only
          rw [hid, bump_self, hk, takenQty_cons]
          omega)
        rfl
      have hchange : bump (bump k.unposted i (takenQty (a :: as))) row.id (-a.qty) =
          bump k.unposted i (takenQty as) := by
        rw [hid, bump_bump, takenQty_cons]
        congr 1
        omega
      simp only [StockFlow.change] at hstep
      rw [hchange, bump_add_takenFrom_cons] at hstep
      have hinv := hstep.weaken (e := k.exempt) (a := k.act) (q := k.bare)
        (fun _ hx => hx) (fun _ => Int.le_refl _) (fun _ hb => hb.2)
      refine Txn.wp_mono (ih hinv (by dsimp only; omega)) ?_
      rintro - n' s' ⟨hdone, flows, rfl, hwritten⟩
      refine ⟨hdone, flows, rfl, FlowsWritten.cons (fun b hb => hb.insert hnone) ?_ hwritten⟩
      exact ⟨n, _, Table.find?_insert_self _ _ _, rfl, htype⟩

/-! ## Locked rows -/

theorem lockRow_eq_some (h : lockRow s i r = some row) :
    row.id = i ∧ row.consumableId = r.consumableId ∧ row.spec = r.spec ∧
      row.warehouseId = r.warehouseId ∧ row.bookQty = r.bookQty ∧
      row.reservedQty = r.reservedQty := by
  obtain ⟨c, -, rfl⟩ := Option.map_eq_some_iff.mp h
  exact ⟨rfl, rfl, rfl, rfl, rfl, rfl⟩

theorem lockedById_lockRows {ids : List Nat} (h : lockedById (lockRows s ids) i = some row) :
    ∃ r, s.inventoryItems.find? i = some r ∧ lockRow s i r = some row := by
  have hid : row.id = i := by simpa using List.find?_some h
  obtain ⟨p, hp, hrow⟩ := List.mem_filterMap.mp (List.mem_of_find?_eq_some h)
  have hpid : p.1 = i := (lockRow_eq_some hrow).1.symm.trans hid
  refine ⟨p.2, ?_, ?_⟩
  · rw [← hpid]
    exact (Table.mem_select.mp hp).1
  · rw [← hpid]
    exact hrow

def CurrentBook (s : Store) (locked : List InventoryItemLockRow) (i : Nat) : Prop :=
  ∀ row, lockedById locked i = some row → row.id = i ∧ row.bookQty = bookOf s.inventoryItems i

theorem currentBook_lockRows (s : Store) (ids : List Nat) (i : Nat) :
    CurrentBook s (lockRows s ids) i := by
  intro row hrow
  obtain ⟨r, hr, hlock⟩ := lockedById_lockRows hrow
  obtain ⟨hid, -, -, -, hbook, -⟩ := lockRow_eq_some hlock
  exact ⟨hid, by rw [hbook, bookOf, Table.valueAt_of_find? hr]⟩

theorem CurrentBook.of_same {s' : Store} (h : CurrentBook s locked i)
    (hsame : s'.inventoryItems.find? i = s.inventoryItems.find? i) : CurrentBook s' locked i := by
  intro row hrow
  obtain ⟨hid, hbook⟩ := h row hrow
  exact ⟨hid, by rw [hbook, bookOf, bookOf, Table.valueAt, Table.valueAt, hsame]⟩

/-! ## Issuing -/

/-- What an issued line leaves: the item still there, everything of other items untouched, and
the segments ready to be lent. -/
structure Issued (k : Slack) (s : Store) (i : Nat) (qty : Int) (as : List BatchAllocation)
    (n' : Nat) (s' : Store) : Prop where
  inv : Inv { k with exempt := fun j => j = i ∨ k.exempt j } n' s'
  frame : ∃ items batches flows,
    s' = { s with inventoryItems := items, batches := batches, stockFlows := flows }
  same : ∀ j, j ≠ i → s'.inventoryItems.find? j = s.inventoryItems.find? j
  item : (s'.inventoryItems.find? i).isSome
  sum : takenQty as = qty
  positive : AllPositive as
  home : TakenFromItem s'.batches i as
  later : ∀ a ∈ as, LaterFlow s'.stockFlows a.batchId

theorem issueLine_safe {kind : IssueKind} {refId : Nat} {line : ReservedLine}
    (h : Inv { k with owed := bump k.owed line.inventoryItemId line.qty } n s) (hq : 0 < line.qty)
    (hk : k.unposted line.inventoryItemId = 0) (hlocked : CurrentBook s locked line.inventoryItemId)
    (htype : kind.flowType ≠ .stockIn) :
    (issueLine kind refId locked line).safe
      (fun r n' s' => Issued k s line.inventoryItemId line.qty r.2 n' s') n s := by
  unfold issueLine
  rw [Txn.safe, Txn.wp_bind]
  refine Txn.safe_orThrow fun row hrow => ?_
  obtain ⟨hid, hbook⟩ := hlocked row hrow
  rw [Txn.wp_bind]
  refine Txn.safe_guard fun _ => ?_
  rw [Txn.wp_bind]
  refine Txn.wp_mono (allocateFifoBatches_safe h line.inventoryItemId (Int.le_of_lt hq)) ?_
  rintro as n₁ s₁ ⟨⟨hinv₁, ⟨batches, rfl⟩, hpos, hhome⟩, hsum⟩
  rw [Txn.wp_bind]
  refine inventoryItemUpdate_safe fun r hr hok => ?_
  have hinv₂ := hinv₁.updateItem hr (x := -line.qty) (y := -line.qty)
    (e := fun j => j = line.inventoryItemId ∨ k.exempt j)
    (f := fun r =>
      { r with bookQty := r.bookQty - line.qty, reservedQty := r.reservedQty - line.qty })
    rfl rfl rfl hok (fun j _ hx => .inr hx) (fun _ _ _ => .inl rfl)
  simp only [hsum, bump_bump, Int.add_right_neg, bump_zero, Int.neg_neg] at hinv₂
  have hbookOf : bookOf (s.inventoryItems.update line.inventoryItemId (fun r =>
      { r with bookQty := r.bookQty - line.qty, reservedQty := r.reservedQty - line.qty }))
      line.inventoryItemId = bookOf s.inventoryItems line.inventoryItemId + -line.qty := by
    rw [bookOf_update hr (x := -line.qty) rfl, bump_self]
  rw [Txn.wp_bind]
  refine Txn.wp_mono (writeIssueFlows_safe
    (k := { k with exempt := fun j => j = line.inventoryItemId ∨ k.exempt j })
    (by rw [hsum]; exact hinv₂) hk hid
    (by dsimp only; rw [hbookOf, hbook, hsum]; omega) htype) ?_
  rintro - n₃ s₃ ⟨hinv₃, flows, rfl, hwritten⟩
  exact
    { inv := hinv₃
      frame := ⟨_, _, _, rfl⟩
      same := fun j hj => Table.find?_update_ne _ _ hj
      item := by
        dsimp only at hr ⊢
        rw [Table.find?_update_self, hr]
        rfl
      sum := hsum
      positive := hpos
      home := hhome
      later := hwritten.2 }

/-! ## Cleaning up -/

theorem cleanupEmptyItem_wp {E : Failure → Prop}
    (h : Inv { k with exempt := fun j => j = i ∨ k.exempt j } n s) :
    (cleanupEmptyItem i).wp
      (fun _ n' s' => Inv k n' s' ∧ (∃ items, s' = { s with inventoryItems := items }) ∧
        ∀ j, j ≠ i → s'.inventoryItems.find? j = s.inventoryItems.find? j) E n s := by
  unfold cleanupEmptyItem
  rw [Txn.wp_exec]
  have hclosed : hasOpenBorrow s i = false ↔
      ∀ b rec, s.borrowRecords.find? b = some rec → rec.inventoryItemId = i → rec.openQty ≤ 0 := by
    unfold hasOpenBorrow
    rw [isEmpty_select]
    refine forall_congr' fun b => forall_congr' fun rec => forall_congr' fun _ => ?_
    simp only [Bool.and_eq_false_iff, beq_eq_false_iff_ne, decide_eq_false_iff_not,
      BorrowRecord.openQty]
    constructor
    · rintro (hne | hle) hi
      · exact absurd hi hne
      · omega
    · intro hle
      by_cases hi : rec.inventoryItemId = i
      · exact .inr (by have := hle hi; omega)
      · exact .inl hi
  cases hrem : removable s i with
  | true =>
      simp only [if_true]
      simp only [removable, Bool.and_eq_true, Bool.not_eq_true', Option.any_eq_true] at hrem
      obtain ⟨⟨r, hr, hzero⟩, hborrow⟩ := hrem
      simp only [beq_iff_eq] at hzero
      refine ⟨?_, ⟨_, rfl⟩, fun j hj => ?_⟩
      · refine h.deleteItems (fun j r' hj hp => ?_) (fun b rec hb ho r' _ => ?_) ?_
        · obtain rfl : j = i := by simpa using hp
          obtain rfl : r = r' := by simpa [hr] using hj
          exact hzero
        · by_contra hp
          have := hclosed.mp hborrow b rec hb (by simpa using hp)
          omega
        · intro j r' hj hp hx
          exact hx.resolve_left (by simpa using hp)
      · rw [Table.find?_deleteMany]
        cases s.inventoryItems.find? j <;> simp [hj]
  | false =>
      simp only [Bool.false_eq_true, if_false]
      refine ⟨?_, ⟨s.inventoryItems, rfl⟩, fun _ _ => trivial⟩
      refine { h with noEmpty := fun j r hr hb hq ho => ?_ }
      refine (h.noEmpty j r hr hb hq ho).resolve_left ?_
      rintro rfl
      simp only [removable, hr, Option.any_some, hb, hq, beq_self_eq_true, Bool.and_self,
        Bool.true_and, Bool.not_eq_false'] at hrem
      have hopen : hasOpenBorrow s j = false := hclosed.mpr fun b rec hb' hi => by
        have hle := Table.le_sumBy (g := (·.inventoryItemId)) h.records.openQty_nonneg hb'
        rw [hi] at hle
        exact hle.trans (Int.le_of_eq ho)
      rw [hopen] at hrem
      cases hrem

/-! ## Locking or creating -/

def InventoryItem.HasKey (r : InventoryItem) (key : ItemKey) : Prop :=
  r.consumableId = key.consumableId ∧ r.spec = key.spec ∧ r.warehouseId = key.warehouseId

def OnKey (s : Store) (key : ItemKey) (target : Nat × Int) : Prop :=
  ∃ r, s.inventoryItems.find? target.1 = some r ∧ r.HasKey key ∧ target.2 = r.bookQty

/-- The item of the key was there already, or it has just been created and is empty. -/
def FoundOrCreated (k : Slack) (s : Store) (target : Nat) (n' : Nat) (s' : Store) : Prop :=
  (s' = s ∧ Inv k n' s') ∨
    (s.inventoryItems.find? target = none ∧
      (∃ row, s' = { s with inventoryItems := s.inventoryItems.insert target row }) ∧
      Inv { k with exempt := fun j => j = target ∨ k.exempt j } n' s')

theorem FoundOrCreated.inv {s s' : Store} {target n' : Nat} (h : FoundOrCreated k s target n' s') :
    Inv { k with exempt := fun j => j = target ∨ k.exempt j } n' s' := by
  rcases h with ⟨-, h⟩ | ⟨-, -, h⟩
  · exact h.weaken (fun _ hx => .inr hx) (fun _ => Int.le_refl _) (fun _ hb => hb)
  · exact h

theorem FoundOrCreated.keeps {s s' : Store} {target n' : Nat} (h : FoundOrCreated k s target n' s')
    {j : Nat} (hr : s.inventoryItems.find? j = some r) : s'.inventoryItems.find? j = some r := by
  rcases h with ⟨rfl, -⟩ | ⟨hnone, ⟨row, rfl⟩, -⟩
  · exact hr
  · have hne : j ≠ target := fun hj => by rw [hj, hnone] at hr; cases hr
    rw [Table.find?_insert_ne _ _ hne, hr]

theorem FoundOrCreated.frame {s s' : Store} {target n' : Nat}
    (h : FoundOrCreated k s target n' s') : ∃ items, s' = { s with inventoryItems := items } := by
  rcases h with ⟨rfl, -⟩ | ⟨-, ⟨row, rfl⟩, -⟩
  · exact ⟨s'.inventoryItems, rfl⟩
  · exact ⟨_, rfl⟩

theorem mem_itemsOfKey (key : ItemKey) {p : Nat × InventoryItem}
    (h : p ∈ itemsOfKey s key.consumableId key.spec key.warehouseId) :
    s.inventoryItems.find? p.1 = some p.2 ∧ p.2.HasKey key := by
  obtain ⟨hfind, hp⟩ := Table.mem_select.mp h
  simp only [Bool.and_eq_true, beq_iff_eq] at hp
  exact ⟨hfind, hp.1.1, hp.1.2, hp.2⟩

theorem lockItemOfKey_wp {E : Failure → Prop} {Q : Option (Nat × Int) → Nat → Store → Prop}
    {key : ItemKey} (hnone : Q none n s) (hsome : ∀ target, OnKey s key target → Q (some target) n s) :
    (lockItemOfKey key).wp Q E n s := by
  unfold lockItemOfKey
  rw [Txn.wp_queryForUpdate]
  cases hhead : (itemsOfKey s key.consumableId key.spec key.warehouseId).head? with
  | none => exact hnone
  | some p =>
      obtain ⟨hfind, hkey⟩ := mem_itemsOfKey key (List.mem_of_mem_head? hhead)
      exact hsome _ ⟨p.2, hfind, hkey, rfl⟩

theorem lockOrCreateItem_safe (h : Inv k n s) (key : ItemKey) :
    (lockOrCreateItem key).safe
      (fun target n' s' => OnKey s' key target ∧ FoundOrCreated k s target.1 n' s') n s := by
  unfold lockOrCreateItem
  rw [Txn.safe, Txn.wp_bind]
  refine lockItemOfKey_wp ?_ fun target htarget => ⟨htarget, .inl ⟨rfl, h⟩⟩
  dsimp only
  unfold inventoryItemCreate
  rw [Txn.wp_bind, Txn.wp_bind, Txn.wp_nextId, Txn.wp_act]
  split
  · rename_i r hr
    split at hr
    · cases hr
      dsimp only
      rw [Txn.wp_bind]
      have hlater : Inv k (n + 1) s := { h with fresh := h.fresh.mono n.le_succ }
      exact lockItemOfKey_wp trivial fun target htarget => ⟨htarget, .inl ⟨rfl, hlater⟩⟩
    · split at hr
      · cases hr
      · rename_i hcons
        cases hr
        refine ⟨⟨_, Table.find?_insert_self _ _ _, ⟨rfl, rfl, rfl⟩, rfl⟩, .inr ⟨?_, ⟨_, rfl⟩, ?_⟩⟩
        · exact h.fresh.inventoryItems.find?_none (Nat.le_refl n)
        · exact h.insertItem rfl rfl (by simpa [Option.isSome_iff_ne_none] using hcons) (fun j hx => .inr hx) (.inl rfl)
  · trivial

end Wbme.Asset
