import Wbme.Asset.Runs

/-! # Stock in every reachable world

What the invariant says about stock, in the terms of the tables: the quantities
of an item agree with its batches and with the pending lines, the flows of an
item are an exact ledger, and an item stays empty only where a write-off left it.
-/

namespace Wbme.Asset

open Lib Approval

namespace Sample

/-- Everyone has company access; one active warehouse and dictionary item answer every lookup. -/
def environment (applicationNoSuffix : String) : Environment where
  now := 1786270496789
  quotaResetDay := 1
  access := fun _ => ⟨true, true, "asset", true, some .company⟩
  closureOfUser := fun _ => []
  userName := fun _ => "approver"
  deactivated := fun _ => false
  warehouse := fun _ => some ⟨none, "W1", true⟩
  dictItem := fun _ => some ⟨.changeType, "loss", true⟩
  category := fun _ => none
  eligibleRecipients := fun _ => [5, 6]
  departmentsOf := fun _ => [⟨1, "assembly"⟩]
  applicationNoSuffix := applicationNoSuffix

def employee : Operator := ⟨9, "employee", [⟨1, "assembly"⟩]⟩

/-- A consumable that is borrowed for three days, five at most. -/
def drill : ConsumableService.ConsumableInput where
  name := "drill"
  categoryId := none
  unitId := none
  type := .reusable
  quotaCycle := none
  quotaLimit := none
  returnDays := some 3
  maxHolding := some 5
  referencePrice := none
  safetyStock := 0
  imageOssKey := none
  remark := none
  status := none

/-- Four drills come in as item 5 and are claimed, with head 9. -/
def claiming : List Op :=
  [.consumableCreate (environment "0") drill,
    .stockInSubmit (environment "1") employee
      ⟨[⟨1, none, none, "18V", 1, 4, by decide, none⟩], none, none⟩,
    .process (environment "") 2 .approve 7 none,
    .claimSubmit (environment "2") employee [⟨5, 4, by decide, none⟩]]

def lending : List Op := claiming ++ [.process (environment "") 9 .approve 7 none]

/-- The return of three of them is asked for, with head 17. -/
def asking : List Op :=
  lending ++ [.returnSubmit (environment "3") employee [⟨14, 3, by decide, none, none⟩]]

def returning : List Op := asking ++ [.process (environment "") 17 .approve 7 none]

/-- All four are reported lost, with head 17, and the write-off is approved. -/
def losing : List Op :=
  lending ++
    [.writeOffSubmit (environment "3") employee [⟨14, 4, by decide, none, none⟩],
      .process (environment "") 17 .approve 7 none]

end Sample

/-! ## Quantities of an item -/

/-- The quantities of an item are those of its batches and of the pending lines on it. -/
structure StockAgrees (s : Store) (i : Nat) (r : InventoryItem) : Prop where
  reserved_nonneg : 0 ≤ r.reservedQty
  reserved_le : r.reservedQty ≤ r.bookQty
  book : r.bookQty = remainingOf s.batches i
  reserved : r.reservedQty =
    pendingLineQty s.approvalRequests s.stockChangeItems s.consumableRequestItems i

theorem stockAgrees_of_reachable {w : World} (h : Reachable w) {i : Nat} {r : InventoryItem}
    (hr : w.store.inventoryItems.find? i = some r) : StockAgrees w.store i r := by
  have hok := h.ok
  obtain ⟨hres, hle⟩ := hok.stock.quantities i r hr
  have hbook := hok.stock.book i
  have hreserve := hok.reserve i
  rw [bookOf, Table.valueAt_of_find? hr] at hbook
  rw [reservedOf, Table.valueAt_of_find? hr] at hreserve
  exact ⟨hres, hle, hbook.symm.trans (Int.add_zero _), hreserve.trans (Int.add_zero _)⟩

/-- While the claim on the drills is pending, all four are on the book and reserved. -/
theorem stockAgrees_claiming : ∃ r, r.bookQty = 4 ∧ r.reservedQty = 4 ∧
    StockAgrees (World.init.run Sample.claiming).store 5 r := by
  have hr : ((World.init.run Sample.claiming).store.inventoryItems.find? 5).map
      (fun r => (r.bookQty, r.reservedQty)) = some (4, 4) := by decide +kernel
  obtain ⟨r, hfind, hqty⟩ := Option.map_eq_some_iff.mp hr
  simp only [Prod.mk.injEq] at hqty
  exact ⟨r, hqty.1, hqty.2, stockAgrees_of_reachable (reachable_run _) hfind⟩

/-! ## Flows of an item -/

structure ExactLedger (flows : List StockFlow) (book : Int) : Prop where
  start : ∀ f, flows.head? = some f → f.bookBefore = 0
  step : ∀ f ∈ flows, f.bookAfter = f.bookBefore + f.change
  link : flows.IsChain (fun f g => g.bookBefore = f.bookAfter)
  finish : ∀ f, flows.getLast? = some f → f.bookAfter = book
  empty : flows = [] → book = 0

theorem exactLedger_of_chained {flows : List StockFlow} {book : Int}
    (h : Chained 0 (flows.map StockFlow.entry) book) : ExactLedger flows book where
  start := fun f hf => h.head f.entry (by rw [List.head?_map, hf]; rfl)
  step := fun f hf => h.entry f.entry (List.mem_map_of_mem hf)
  link := (List.isChain_map StockFlow.entry).mp h.isChain
  finish := fun f hf => h.last f.entry (by rw [List.getLast?_map, hf]; rfl)
  empty := by
    rintro rfl
    exact h.symm

def flowQty (flows : Table StockFlow) (direction : FlowDirection) (b : Nat) : Int :=
  flows.sumBy (·.batchId) (fun f => if f.direction = direction then f.qty else 0) (some b)

theorem netFlow_eq (flows : Table StockFlow) (b : Nat) :
    netFlow flows b = flowQty flows .in b - flowQty flows .out b := by
  unfold netFlow flowQty Table.sumBy
  rw [← Table.total_sub]
  refine Table.total_congr fun _ f _ => ?_
  cases hd : f.direction <;> by_cases hb : f.batchId = some b <;> simp [StockFlow.change, hd, hb]

/-- In every reachable world the flows of an item lead from nothing to its book, and what is left
in a batch is what its flows brought in, less what they took out. -/
theorem exactLedger_of_reachable {w : World} (h : Reachable w) :
    (∀ i, ExactLedger (flowsOf w.store.stockFlows i) (bookOf w.store.inventoryItems i)) ∧
      ∀ b r, w.store.batches.find? b = some r → r.remainingQty =
        flowQty w.store.stockFlows .in b - flowQty w.store.stockFlows .out b := by
  have hledger := h.ok.ledger
  refine ⟨fun i => exactLedger_of_chained ?_, fun b r hr => ?_⟩
  · have hchain := hledger.chain i
    rwa [show bookOf w.store.inventoryItems i + (Slack.exempting fun _ => True).unposted i =
      bookOf w.store.inventoryItems i from Int.add_zero _] at hchain
  · have hnet := hledger.net b
    rw [netFlow_eq, remainingAt, Table.valueAt_of_find? hr] at hnet
    rw [hnet]
    exact (Int.add_zero _).symm

/-- The drills came in and went out. -/
theorem exactLedger_lending :
    ((flowsOf (World.init.run Sample.lending).store.stockFlows 5).map
      (fun f => (f.bookBefore, f.bookAfter)) = [(0, 4), (4, 0)]) ∧
    ExactLedger (flowsOf (World.init.run Sample.lending).store.stockFlows 5)
      (bookOf (World.init.run Sample.lending).store.inventoryItems 5) :=
  ⟨by decide +kernel, (exactLedger_of_reachable (reachable_run Sample.lending)).1 5⟩

/-! ## Empty items -/

/-- No item has nothing on the book, nothing reserved and nothing lent. -/
def NoItemEmpty (s : Store) : Prop :=
  ∀ i r, s.inventoryItems.find? i = some r → ¬ (r.bookQty = 0 ∧ r.reservedQty = 0 ∧
    ∀ j b, s.borrowRecords.find? j = some b → b.inventoryItemId = i → b.openQty = 0)

/-- After the loss of the drills was written off, their item is empty and still there. -/
theorem not_noItemEmpty_losing :
    ¬ ∀ w, Reachable w → NoItemEmpty w.store := by
  intro h
  have hitem : ((World.init.run Sample.losing).store.inventoryItems.find? 5).map
      (fun r => (r.bookQty, r.reservedQty)) = some (0, 0) := by decide +kernel
  have hborrows : (World.init.run Sample.losing).store.borrowRecords.rows.all
      (fun p => p.2.openQty == 0) = true := by decide +kernel
  obtain ⟨r, hr, hqty⟩ := Option.map_eq_some_iff.mp hitem
  simp only [Prod.mk.injEq] at hqty
  refine h _ (reachable_run Sample.losing) 5 r hr ⟨hqty.1, hqty.2, fun j b hb _ => ?_⟩
  have hzero := List.all_eq_true.mp hborrows (j, b) (Table.find?_eq_some_iff.mp hb)
  simpa using hzero

/-- A step that strips no item when it commits. -/
def CleanStep (w w' : World) : Prop :=
  ∃ op, (Commits w op w' ∧ ∀ i, ¬ op.StripsItem w.store i) ∨ Throws w op w'

theorem noItemEmpty_of_ok {w : World} (h : w.Ok fun _ => False) : NoItemEmpty w.store := by
  rintro i r hr ⟨hbook, hres, hopen⟩
  refine h.noEmpty i r hr hbook hres ?_
  exact Table.sumBy_eq_zero fun j b hb hi => hopen j b hb hi

/-- As long as no step writes off the last borrowed units of an item with an empty book, no item
is ever empty. -/
theorem noItemEmpty_of_cleanSteps {w : World}
    (h : Relation.ReflTransGen CleanStep World.init w) : NoItemEmpty w.store := by
  refine noItemEmpty_of_ok ?_
  induction h with
  | refl => exact World.ok_init _
  | tail _ hstep ih =>
      obtain ⟨op, ⟨hc, hclean⟩ | ht⟩ := hstep
      · exact ih.commits hc fun i hi => hclean i hi
      · exact ih.throws ht

theorem not_stripsItem_of_returns {op : Op} {s : Store} (i : Nat)
    (h : (op.settles s).all (fun l => l.method == .return) = true) : ¬ op.StripsItem s i := by
  rintro ⟨-, hopen, hle⟩
  have hzero : writtenOffOn s.borrowRecords (op.settles s) i = 0 := by
    refine List.sum_eq_zero fun x hx => ?_
    obtain ⟨l, hl, rfl⟩ := List.mem_map.mp hx
    have hmethod : l.method = .return := by simpa using List.all_eq_true.mp h l hl
    simp [hmethod]
  omega

/-- Does a sequence of operations write off nothing? -/
def returnsOnly : World → List Op → Bool
  | _, [] => true
  | w, op :: ops => (op.settles w.store).all (fun l => l.method == .return) &&
      returnsOnly (w.step op) ops

theorem cleanSteps_of_returnsOnly {w : World} {ops : List Op} (h : returnsOnly w ops = true) :
    Relation.ReflTransGen CleanStep w (w.run ops) := by
  induction ops generalizing w with
  | nil => exact .refl
  | cons op ops ih =>
      rw [returnsOnly, Bool.and_eq_true] at h
      refine .head ⟨op, ?_⟩ (ih h.2)
      exact (w.step_cases op).imp_left fun hc => ⟨hc, fun i => not_stripsItem_of_returns i h.1⟩

/-- The drills that come back keep their item. -/
theorem noItemEmpty_returning : NoItemEmpty (World.init.run Sample.returning).store :=
  noItemEmpty_of_cleanSteps (cleanSteps_of_returnsOnly (by decide +kernel))

/-- What the rows refer to is there: no operation deletes it, or creates them without it. -/
structure ReferencesKept (s : Store) : Prop where
  consumable : ∀ i r, s.inventoryItems.find? i = some r →
    (s.consumables.find? r.consumableId).isSome
  flow : ∀ b r, s.batches.find? b = some r → ∃ k f, s.stockFlows.find? k = some f ∧
    f.batchId = some b
  lent : ∀ k a, s.borrowBatchAllocations.find? k = some a → ∃ b r,
    s.batches.find? a.batchId = some b ∧ s.borrowRecords.find? a.borrowRecordId = some r ∧
      b.inventoryItemId = r.inventoryItemId
  item : ∀ k r, s.borrowRecords.find? k = some r → 0 < r.openQty →
    (s.inventoryItems.find? r.inventoryItemId).isSome

theorem referencesKept_of_run (ops : List Op) : ReferencesKept (World.init.run ops).store := by
  have h := (reachable_run ops).ok
  exact ⟨h.consumables, fun b r hr => h.batchFlows b r hr id, h.allocations.home, h.records.item⟩

end Wbme.Asset
