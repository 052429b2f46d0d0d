import Wbme.Asset.Fifo
import Wbme.Asset.Stock

/-! # Issues and their returns

An approved claim draws from the batches of every line what it allocates to the line's borrow
record. A return moves stock back from allocations to their batches. So a record that is
returned altogether has given back to every batch what its issue drew, however the returns were
cut.
-/

namespace Wbme.Asset

open Lib Approval

variable {n : Nat} {s : Store}

/-! ## Allocations by record and batch -/

def issuedAt (allocs : Table BorrowBatchAllocation) : Nat × Nat → Int :=
  allocs.sumBy (fun a => (a.borrowRecordId, a.batchId)) (·.issuedQty)

def returnedAt (allocs : Table BorrowBatchAllocation) : Nat × Nat → Int :=
  allocs.sumBy (fun a => (a.borrowRecordId, a.batchId)) (·.returnedQty)

def RecordsBelow (n : Nat) (allocs : Table BorrowBatchAllocation) : Prop :=
  ∀ j a, allocs.find? j = some a → a.borrowRecordId < n

theorem Inv.recordsBelow {k : Slack} (h : Inv k n s) : RecordsBelow n s.borrowBatchAllocations := by
  intro j a ha
  obtain ⟨-, r, -, hr, -⟩ := h.allocations.home j a ha
  by_contra hge
  rw [h.fresh.borrowRecords.find?_none (Nat.le_of_not_lt hge)] at hr
  cases hr

theorem RecordsBelow.issuedAt {m : Nat} {allocs : Table BorrowBatchAllocation}
    (h : RecordsBelow n allocs) (hm : n ≤ m) (b : Nat) : issuedAt allocs (m, b) = 0 :=
  Table.sumBy_eq_zero fun j a ha he => by
    have hlt := h j a ha
    simp only [Prod.mk.injEq] at he
    omega

/-! ## What an issue draws and allocates -/

theorem writeIssueFlows_frame {kind : IssueKind} {refId : Nat} {row : InventoryItemLockRow}
    {as : List BatchAllocation} {before : Int} :
    (writeIssueFlows kind refId row as before).safe
      (fun _ n' s' => n ≤ n' ∧ ∃ flows, s' = { s with stockFlows := flows }) n s := by
  induction as generalizing n s before with
  | nil => exact ⟨Nat.le_refl n, s.stockFlows, rfl⟩
  | cons a as ih =>
      unfold writeIssueFlows
      rw [Txn.safe, Txn.wp_bind]
      refine stockFlowCreate_safe fun _ => Txn.wp_mono ih ?_
      intro _ n' s' hdone
      obtain ⟨hle, flows, rfl⟩ := hdone
      exact ⟨by omega, flows, rfl⟩

structure LineDrawn (s : Store) (i : Nat) (as : List BatchAllocation) (s' : Store) : Prop where
  home : TakenFromItem s.batches i as
  frame : ∃ items batches flows,
    s' = { s with inventoryItems := items, batches := batches, stockFlows := flows } ∧
      Drawn s as { s with batches := batches }

variable {locked : List InventoryItemLockRow} {parts : List (Int × RestoreRef)} {qty : Int}
  {processorId : Nat} {i : Nat}

theorem issueLine_drawn {kind : IssueKind} {refId : Nat} {line : ReservedLine} (hq : 0 < line.qty) :
    (issueLine kind refId locked line).safe
      (fun r n' s' => n ≤ n' ∧ LineDrawn s line.inventoryItemId r.2 s') n s := by
  unfold issueLine
  rw [Txn.safe, Txn.wp_bind]
  refine Txn.safe_orThrow fun row _ => ?_
  rw [Txn.wp_bind]
  refine Txn.safe_guard fun _ => ?_
  rw [Txn.wp_bind]
  refine Txn.wp_mono (allocateFifoBatches_wp (Int.le_of_lt hq) fun _ => trivial) ?_
  intro as n₁ s₁ hdone
  obtain ⟨-, rfl, halloc⟩ := hdone
  obtain ⟨batches, rfl, hbatches⟩ := halloc.drawn
  rw [Txn.wp_bind]
  refine inventoryItemUpdate_safe fun _ _ _ => ?_
  rw [Txn.wp_bind]
  refine Txn.wp_mono writeIssueFlows_frame ?_
  intro _ n₂ s₂ hflows
  obtain ⟨hle, flows, rfl⟩ := hflows
  exact ⟨hle, halloc.home, _, batches, flows, rfl, batches, rfl, hbatches⟩

theorem createAllocations_issuedAt {recordId : Nat} {as : List BatchAllocation}
    (hbelow : s.borrowBatchAllocations.Below n) :
    (as.forM fun a => do
      let _ ← borrowBatchAllocationCreate
        { borrowRecordId := recordId, batchId := a.batchId, issuedQty := a.qty,
          returnedQty := 0 }).safe
      (fun _ _ s' => ∃ allocs, s' = { s with borrowBatchAllocations := allocs } ∧
        ∀ key, issuedAt allocs key = issuedAt s.borrowBatchAllocations key +
          if key.1 = recordId then takenFrom as key.2 else 0) n s := by
  induction as generalizing n s with
  | nil =>
      refine ⟨s.borrowBatchAllocations, rfl, fun key => ?_⟩
      simp
  | cons a as ih =>
      rw [Txn.safe, Txn.wp_forM_cons, Txn.wp_bind]
      refine borrowBatchAllocationCreate_safe fun _ => ?_
      change Txn.wp (List.forM as _) _ _ _ _
      refine Txn.wp_mono (ih (hbelow.insert_succ _)) ?_
      intro _ n' s' hdone
      obtain ⟨allocs, rfl, hallocs⟩ := hdone
      refine ⟨allocs, rfl, fun key => ?_⟩
      have hinsert := congrFun (Table.sumBy_insert (hbelow.find?_none (Nat.le_refl n))
        (⟨recordId, a.batchId, a.qty, 0⟩ : BorrowBatchAllocation)
        (fun a => (a.borrowRecordId, a.batchId)) (·.issuedQty)) key
      have htaken : takenFrom (a :: as) key.2 = bump (takenFrom as) a.batchId a.qty key.2 := by
        rw [takenFrom, sumOn_cons]
        rfl
      rw [hallocs key, htaken]
      rw [show issuedAt (s.borrowBatchAllocations.insert n ⟨recordId, a.batchId, a.qty, 0⟩) key =
        bump (issuedAt s.borrowBatchAllocations) (recordId, a.batchId) a.qty key from hinsert]
      obtain ⟨record, batch⟩ := key
      by_cases hrecord : record = recordId
      · by_cases hbatch : batch = a.batchId
        · simp only [hrecord, hbatch, bump_self, if_true]
          omega
        · rw [bump_ne _ _ (fun he => hbatch (congrArg Prod.snd he)), bump_ne _ _ hbatch]
      · rw [bump_ne _ _ (fun he => hrecord (congrArg Prod.fst he)), if_neg hrecord,
          if_neg hrecord]

/-- A line has been issued: other items' batches are as before, and a borrow record that came
with it has been allocated what was drawn. -/
structure LineIssued (s : Store) (i : Nat) (s' : Store) : Prop where
  batches : ∀ b r, s.batches.find? b = some r → ∃ r', s'.batches.find? b = some r' ∧
    r'.inventoryItemId = r.inventoryItemId ∧
      (r.inventoryItemId ≠ i → r'.remainingQty = r.remainingQty)
  lent : (s'.borrowRecords = s.borrowRecords ∧
      s'.borrowBatchAllocations = s.borrowBatchAllocations) ∨
    ∃ k row, s.borrowRecords.find? k = none ∧ s'.borrowRecords = s.borrowRecords.insert k row ∧
      row.inventoryItemId = i ∧ row.returnedQty = 0 ∧ row.writtenOffQty = 0 ∧
      (∀ key, key.1 ≠ k →
        issuedAt s'.borrowBatchAllocations key = issuedAt s.borrowBatchAllocations key) ∧
      ∀ b r, s.batches.find? b = some r → r.inventoryItemId = i →
        remainingAt s'.batches b + issuedAt s'.borrowBatchAllocations (k, b) = r.remainingQty
  actions : s'.borrowActionItems = s.borrowActionItems

theorem LineDrawn.batches {i : Nat} {as : List BatchAllocation} {s' : Store}
    (h : LineDrawn s i as s') {b : Nat} {r : Batch} (hr : s.batches.find? b = some r) :
    ∃ r', s'.batches.find? b = some r' ∧ r'.inventoryItemId = r.inventoryItemId ∧
      r'.remainingQty = r.remainingQty - takenFrom as b ∧
        (r.inventoryItemId ≠ i → r'.remainingQty = r.remainingQty) := by
  obtain ⟨items, batches, flows, rfl, batches', hsame, hbatches⟩ := h.frame
  obtain rfl : batches = batches' := congrArg Store.batches hsame
  have hb := hbatches b
  rw [hr, Option.map_some] at hb
  refine ⟨_, hb, rfl, rfl, fun hne => ?_⟩
  have hzero : takenFrom as b = 0 := takenFrom_of_not_mem fun hmem => by
    obtain ⟨a, ha, rfl⟩ := List.mem_map.mp hmem
    obtain ⟨r', hr', hi⟩ := h.home a ha
    rw [hr, Option.some.injEq] at hr'
    subst hr'
    exact hne hi
  dsimp only
  omega

variable {exempt : Nat → Prop} {r : BorrowRecord} {env : Environment} {opinion : Option String}
  {k : Nat}

theorem issueClaimLine_issued {issue : IssueKind} {borrow : BorrowKind} {requestId : Nat}
    {snapshot : Tx Json} {line : ConsumableRequestItem} (hfresh : Fresh n s)
    (hbelow : RecordsBelow n s.borrowBatchAllocations) (hq : 0 < line.qty)
    (hsnapshot : snapshot.ReadOnly) :
    (issueClaimLine env issue borrow requestId snapshot locked line).safe
      (fun _ _ s' => LineIssued s line.inventoryItemId s') n s := by
  have hcleanup : ∀ n₁ s₁, LineIssued s line.inventoryItemId s₁ →
      (cleanupEmptyItem line.inventoryItemId).safe
        (fun _ _ s' => LineIssued s line.inventoryItemId s') n₁ s₁ := by
    intro n₁ s₁ h
    unfold cleanupEmptyItem
    rw [Txn.safe, Txn.wp_exec]
    split
    · exact ⟨h.batches, h.lent, h.actions⟩
    · exact h
  unfold issueClaimLine
  rw [Txn.safe, Txn.wp_bind]
  refine Txn.wp_mono (issueLine_drawn hq) ?_
  intro issued n₁ s₁ hdone
  obtain ⟨row, as⟩ := issued
  obtain ⟨hle, hdrawn⟩ := hdone
  have hnone : LineIssued s line.inventoryItemId s₁ := by
    obtain ⟨items, batches, flows, rfl, -⟩ := hdrawn.frame
    refine ⟨fun b r hr => ?_, .inl ⟨rfl, rfl⟩, rfl⟩
    obtain ⟨r', hr', hitem, -, hother⟩ := hdrawn.batches hr
    exact ⟨r', hr', hitem, hother⟩
  dsimp only
  rw [Txn.wp_bind, Txn.wp_query]
  split
  · split
    · rw [Txn.wp_bind]
      refine hsnapshot.safe fun json => ?_
      rw [Txn.wp_bind]
      unfold createBorrowRecord
      rw [Txn.wp_bind]
      refine borrowRecordCreate_safe fun _ => ?_
      have hallocs : s₁.borrowBatchAllocations = s.borrowBatchAllocations := by
        obtain ⟨items, batches, flows, rfl, -⟩ := hdrawn.frame
        rfl
      have hrecords : s₁.borrowRecords = s.borrowRecords := by
        obtain ⟨items, batches, flows, rfl, -⟩ := hdrawn.frame
        rfl
      refine Txn.wp_mono (createAllocations_issuedAt (by
        rw [show _ = s.borrowBatchAllocations from hallocs]
        exact hfresh.borrowBatchAllocations.mono (by omega))) ?_
      intro _ n₂ s₂ hcreated
      obtain ⟨allocs, rfl, hissued⟩ := hcreated
      dsimp only at hissued
      rw [hallocs] at hissued
      refine hcleanup _ _ ⟨fun b r hr => ?_, .inr ⟨n₁, _, ?_,
        congrArg (fun t => Table.insert t n₁ _) hrecords, rfl, rfl, rfl, ?_, ?_⟩, ?_⟩
      · obtain ⟨r', hr', hitem, -, hother⟩ := hdrawn.batches hr
        exact ⟨r', hr', hitem, hother⟩
      · exact hfresh.borrowRecords.find?_none hle
      · intro key hkey
        rw [hissued key, if_neg hkey, Int.add_zero]
      · intro b r hr hitem
        obtain ⟨r', hr', -, hremaining, -⟩ := hdrawn.batches hr
        dsimp only
        rw [hissued (n₁, b), if_pos rfl, hbelow.issuedAt hle, remainingAt,
          Table.valueAt_of_find? hr', hremaining]
        dsimp only
        omega
      · obtain ⟨items, batches, flows, rfl, -⟩ := hdrawn.frame
        rfl
    · exact hcleanup n₁ s₁ hnone
  · exact hcleanup n₁ s₁ hnone

/-! ## All lines of a claim -/

/-- Since the first store, lines have been issued; the items left have kept their batches, and
every new record has been allocated what its item's batches gave. -/
structure IssuedLines (s₀ : Store) (left : List Nat) (s : Store) : Prop where
  batches : ∀ b r, s₀.batches.find? b = some r → ∃ r', s.batches.find? b = some r' ∧
    r'.inventoryItemId = r.inventoryItemId ∧
      (r.inventoryItemId ∈ left → r'.remainingQty = r.remainingQty)
  lent : ∀ k r, s.borrowRecords.find? k = some r → s₀.borrowRecords.find? k = none →
    r.inventoryItemId ∉ left ∧ r.returnedQty = 0 ∧ r.writtenOffQty = 0 ∧
      ∀ b row, s₀.batches.find? b = some row → row.inventoryItemId = r.inventoryItemId →
        remainingAt s.batches b + issuedAt s.borrowBatchAllocations (k, b) = row.remainingQty
  actions : s.borrowActionItems = s₀.borrowActionItems

theorem IssuedLines.refl (s : Store) (left : List Nat) : IssuedLines s left s where
  batches := fun _ r hr => ⟨r, hr, rfl, fun _ => rfl⟩
  lent := fun k r hr hnone => by
    rw [hnone] at hr
    cases hr
  actions := rfl

theorem IssuedLines.of_same {s₀ s s' : Store} {left : List Nat} (h : IssuedLines s₀ left s)
    (hb : s'.batches = s.batches) (hr : s'.borrowRecords = s.borrowRecords)
    (ha : s'.borrowBatchAllocations = s.borrowBatchAllocations)
    (hi : s'.borrowActionItems = s.borrowActionItems) : IssuedLines s₀ left s' where
  batches := by rw [hb]; exact h.batches
  lent := by rw [hr, hb, ha]; exact h.lent
  actions := hi.trans h.actions

theorem IssuedLines.step {s₀ s s' : Store} {left : List Nat} (h : IssuedLines s₀ (i :: left) s)
    (hi : i ∉ left) (hline : LineIssued s i s') : IssuedLines s₀ left s' where
  batches := by
    intro b r hr
    obtain ⟨r₁, hr₁, hitem₁, hleft₁⟩ := h.batches b r hr
    obtain ⟨r₂, hr₂, hitem₂, hother₂⟩ := hline.batches b r₁ hr₁
    refine ⟨r₂, hr₂, hitem₂.trans hitem₁, fun hmem => ?_⟩
    have hne : r₁.inventoryItemId ≠ i := fun he => hi (by rwa [← he, hitem₁])
    rw [hother₂ hne, hleft₁ (List.mem_cons_of_mem _ hmem)]
  lent := by
    intro k r hr hnone
    -- a record that was there before the line, or the record of the line
    have hkept : s.borrowRecords.find? k = some r →
        (∀ key, key.1 = k → issuedAt s'.borrowBatchAllocations key =
          issuedAt s.borrowBatchAllocations key) →
        r.inventoryItemId ∉ left ∧ r.returnedQty = 0 ∧ r.writtenOffQty = 0 ∧
          ∀ b row, s₀.batches.find? b = some row → row.inventoryItemId = r.inventoryItemId →
            remainingAt s'.batches b + issuedAt s'.borrowBatchAllocations (k, b) =
              row.remainingQty := by
      intro hold hissued
      obtain ⟨hnot, hret, hoff, hsum⟩ := h.lent k r hold hnone
      rw [List.mem_cons, not_or] at hnot
      refine ⟨hnot.2, hret, hoff, fun b row hrow hitem => ?_⟩
      obtain ⟨r₁, hr₁, hitem₁, -⟩ := h.batches b row hrow
      obtain ⟨r₂, hr₂, -, hother⟩ := hline.batches b r₁ hr₁
      have hsame := hother (by rw [hitem₁, hitem]; exact hnot.1)
      have hbefore := hsum b row hrow hitem
      rw [remainingAt, Table.valueAt_of_find? hr₁] at hbefore
      rw [hissued (k, b) rfl, remainingAt, Table.valueAt_of_find? hr₂, hsame, hbefore]
    rcases hline.lent with ⟨hrecords, hallocs⟩ | ⟨k', row', hfree, hinsert, hitem', hret, hoff,
      hothers, hsum⟩
    · rw [hrecords] at hr
      exact hkept hr fun key _ => by rw [hallocs]
    · by_cases hk : k = k'
      · subst hk
        rw [hinsert, Table.find?_insert_self, Option.some.injEq] at hr
        subst hr
        refine ⟨hitem' ▸ hi, hret, hoff, fun b row hrow hitem => ?_⟩
        obtain ⟨r₁, hr₁, hitem₁, hleft₁⟩ := h.batches b row hrow
        rw [hsum b r₁ hr₁ (hitem₁.trans (hitem.trans hitem')),
          hleft₁ (by rw [hitem, hitem']; exact List.mem_cons_self)]
      · rw [hinsert, Table.find?_insert_ne _ _ hk] at hr
        exact hkept hr fun key hkey => hothers key (hkey ▸ hk)
  actions := hline.actions.trans h.actions

theorem issueClaimLines_issued {exempt : Nat → Prop} {env : Environment} {issue : IssueKind}
    {borrow : BorrowKind} {requestId : Nat} {snapshot : Tx Json}
    {locked : List InventoryItemLockRow} {lines : List (Nat × ConsumableRequestItem)} {s₀ : Store}
    (h : Inv { Slack.exempting exempt with owed := reservedBy (lines.map (·.2.reserved)) } n s)
    (hlines : LinesDistinct (lines.map (·.2.reserved)))
    (hlocked : ∀ line ∈ lines, CurrentBook s locked line.2.inventoryItemId)
    (htype : issue.flowType ≠ .stockIn) (hsnapshot : snapshot.ReadOnly)
    (hissued : IssuedLines s₀ (lines.map (·.2.inventoryItemId)) s) :
    (lines.forM fun line =>
      issueClaimLine env issue borrow requestId snapshot locked line.2).safe
      (fun _ n' s' => Inv (.exempting exempt) n' s' ∧ IssuedLines s₀ [] s') n s := by
  induction lines generalizing n s with
  | nil => exact ⟨h, hissued⟩
  | cons line lines ih =>
      rw [Txn.safe, Txn.wp_forM_cons]
      rw [List.map_cons] at hlines hissued
      rw [List.map_cons, reservedBy_cons] at h
      have hline : (issueClaimLine env issue borrow requestId snapshot locked line.2).safe
          (fun _ _ s' => LineIssued s line.2.inventoryItemId s') n s :=
        issueClaimLine_issued h.fresh h.recordsBelow hlines.head.1 hsnapshot
      refine Txn.wp_mono (Txn.wp_and (issueClaimLine_safe
        (k := { Slack.exempting exempt with owed := reservedBy (lines.map (·.2.reserved)) }) h
        hlines.head.1 rfl (hlocked line List.mem_cons_self) htype hsnapshot) hline) ?_
      intro _ n₁ s₁ hdone
      obtain ⟨⟨hinv₁, hsame⟩, hline₁⟩ := hdone
      refine ih hinv₁ hlines.tail (fun l hl => ?_) (hissued.step ?_ hline₁)
      · have hne := hlines.head.2 _ (List.mem_map_of_mem (f := (·.2.reserved)) hl)
        exact (hlocked l (List.mem_cons_of_mem _ hl)).of_same (hsame _ hne)
      · intro hmem
        obtain ⟨l, hl, he⟩ := List.mem_map.mp hmem
        exact hlines.head.2 _ (List.mem_map_of_mem (f := (·.2.reserved)) hl) he

def claimItems (s : Store) (id : Nat) : List Nat :=
  (claimLinesOf s id).map (·.2.inventoryItemId)

theorem ClaimService.applyApproved_issued {head : SideHead} {s₀ : Store}
    (h : Inv { Slack.exempting exempt with owed := reservedBy (claimReserved s head.id) } n s)
    (hissued : IssuedLines s₀ (claimItems s head.id) s) :
    (applyApproved env head processorId).safe (fun _ _ s' => IssuedLines s₀ [] s') n s := by
  unfold applyApproved
  rw [Txn.safe, Txn.wp_bind, Txn.wp_query, Txn.wp_bind, lockInventoryItems,
    Txn.wp_queryForUpdate, Txn.wp_bind]
  refine Txn.wp_mono (issueClaimLines_issued h (linesDistinct_claims h head.id)
    (fun line _ => currentBook_lockRows s _ _) (by simp) (Txn.readOnly_pure _) hissued) ?_
  intro _ n' s' hdone
  exact quotaOccupationSettle_wp (hdone.2.of_same rfl rfl rfl rfl)

theorem AgentClaimService.applyApproved_issued {head : SideHead} {s₀ : Store}
    (h : Inv { Slack.exempting exempt with owed := reservedBy (claimReserved s head.id) } n s)
    (hissued : IssuedLines s₀ (claimItems s head.id) s) :
    (applyApproved env head processorId).safe (fun _ _ s' => IssuedLines s₀ [] s') n s := by
  unfold applyApproved
  rw [Txn.safe, Txn.wp_bind, Txn.wp_query, Txn.wp_bind, lockInventoryItems,
    Txn.wp_queryForUpdate]
  refine Txn.wp_mono (issueClaimLines_issued h (linesDistinct_claims h head.id)
    (fun line _ => currentBook_lockRows s _ _) (by simp) (Txn.readOnly_query _) hissued) ?_
  intro _ n' s' hdone
  exact hdone.2

/-- Types of requests whose approval issues stock to be lent. -/
def RequestType.lends : RequestType → Bool
  | .consumableRequest | .agentRequest => true
  | _ => false

namespace AssetApprovalService

theorem process_issued {id processorId : Nat} (h : Inv (.exempting exempt) n s)
    (hlends : ∀ head, s.approvalRequests.find? id = some head →
      head.requestType.lends = true) :
    (process env id .approve processorId opinion).safe (fun _ _ s' => IssuedLines s [] s') n s := by
  unfold process
  rw [Txn.safe, Txn.wp_bind, wp_liftExcept]
  refine ⟨fun transition htransition => ?_, fun _ _ => trivial⟩
  have hterminal : transition.status ≠ .pending := fun hpending => by
    have hcloses := (resolveProcessTransition_closes htransition).1
    rw [hpending] at hcloses
    cases hcloses
  rw [Txn.wp_bind]
  refine (readOnly_liftExcept _).safe fun _ => ?_
  unfold processInner
  rw [Txn.wp_bind, Txn.wp_query, Txn.wp_bind]
  refine Txn.safe_orThrow fun head hid => ?_
  rw [Txn.wp_bind]
  refine (readOnly_assertCanAccessRequest _ _).safe fun _ => ?_
  rw [Txn.wp_bind]
  refine Txn.safe_guard fun _ => ?_
  rw [Txn.wp_bind]
  refine (readOnly_liftExcept _).safe fun _ => ?_
  rw [Txn.wp_bind]
  refine (readOnly_assertScopeCovers env _ _ _).safe fun _ => ?_
  rw [Txn.wp_bind, wp_approvalRequestTransition]
  refine ⟨fun hat => ?_, fun _ => trivial⟩
  have hc := closes_of_pendingAt (f := markProcessed env transition.status processorId opinion)
    hid hat hterminal fun _ => rfl
  rw [Txn.wp_bind]
  refine (readOnly_liftExcept _).safe fun _ => ?_
  unfold completeProcess
  dsimp only
  rw [Txn.wp_bind]
  have hheld := h.closeHeld hc
  have hstart : ∀ left, IssuedLines s left (closedBy s id
      (markProcessed env transition.status processorId opinion)) := fun left =>
    (IssuedLines.refl s left).of_same rfl rfl rfl rfl
  have hside : (AssetApprovalSideEffect.applyApprove env
      (sideHead id head (some processorId) (some (env.userName processorId))) processorId).safe
      (fun _ _ s' => IssuedLines s [] s') n
      (closedBy s id (markProcessed env transition.status processorId opinion)) := by
    have htype := hlends head hid
    unfold AssetApprovalSideEffect.applyApprove
    rw [show (sideHead id head (some processorId) (some (env.userName processorId))).requestType =
      head.requestType from rfl]
    cases ht : head.requestType with
    | consumableRequest =>
        rw [ht] at hheld
        exact ClaimService.applyApproved_issued hheld (hstart _)
    | agentRequest =>
        rw [ht] at hheld
        exact AgentClaimService.applyApproved_issued hheld (hstart _)
    | _ =>
        rw [ht] at htype
        cases htype
  refine Txn.wp_mono hside ?_
  intro _ n₁ s₁ h₁
  rw [Txn.wp_bind]
  exact approvalActionCreate_safe (h₁.of_same rfl rfl rfl rfl)

end AssetApprovalService

/-! ## What a return gives back -/

structure Restocked (k : Nat) (s s' : Store) : Prop where
  stock : ∀ b, remainingAt s'.batches b - returnedAt s'.borrowBatchAllocations (k, b) =
    remainingAt s.batches b - returnedAt s.borrowBatchAllocations (k, b)
  issued : issuedAt s'.borrowBatchAllocations = issuedAt s.borrowBatchAllocations

theorem Restocked.refl (k : Nat) (s : Store) : Restocked k s s := ⟨fun _ => rfl, rfl⟩

theorem Restocked.trans {s₁ s₂ s₃ : Store} (h₁ : Restocked k s₁ s₂) (h₂ : Restocked k s₂ s₃) :
    Restocked k s₁ s₃ :=
  ⟨fun b => (h₂.stock b).trans (h₁.stock b), h₂.issued.trans h₁.issued⟩

theorem restocked_segment {a : AllocationRow} {take : Int} {b : Batch} {items : Table InventoryItem}
    {flows : Table StockFlow} (ha : s.borrowBatchAllocations.find? a.id = some (a.stored k))
    (hb : s.batches.find? a.batchId = some b) :
    Restocked k s
      { s with
        borrowBatchAllocations := s.borrowBatchAllocations.update a.id
          (fun a => { a with returnedQty := a.returnedQty + take }),
        batches := s.batches.update a.batchId
          (fun b => { b with remainingQty := b.remainingQty + take }),
        inventoryItems := items, stockFlows := flows } where
  stock := by
    intro c
    have hreturned : returnedAt (s.borrowBatchAllocations.update a.id
        (fun a => { a with returnedQty := a.returnedQty + take })) =
        bump (returnedAt s.borrowBatchAllocations) (k, a.batchId) take :=
      Table.sumBy_update ha rfl rfl
    have hremaining : remainingAt (s.batches.update a.batchId
        (fun b => { b with remainingQty := b.remainingQty + take })) =
        bump (remainingAt s.batches) a.batchId take :=
      Table.valueAt_update hb rfl
    dsimp only
    rw [hreturned, hremaining]
    by_cases hc : c = a.batchId
    · subst hc
      rw [bump_self, bump_self]
      omega
    · rw [bump_ne _ _ hc, bump_ne _ _ fun he => hc (congrArg Prod.snd he)]
  issued := by
    unfold issuedAt
    dsimp only
    exact Table.sumBy_update_of_eq _ _ (fun _ => rfl) fun _ => rfl

theorem borrowBatchAllocationUpdate_safe {Q : Unit → Nat → Store → Prop} {id : Nat}
    {f : BorrowBatchAllocation → BorrowBatchAllocation}
    (h : Q () n { s with borrowBatchAllocations := s.borrowBatchAllocations.update id f }) :
    (borrowBatchAllocationUpdate id f).safe Q n s := by
  cases hr : s.borrowBatchAllocations.find? id with
  | none => rw [Txn.safe, borrowBatchAllocationUpdate, Txn.wp_act, hr]; trivial
  | some r =>
      by_cases hok : (f r).quantitiesOk = true
      · exact borrowBatchAllocationUpdate_ok hr hok h
      · rw [Txn.safe, borrowBatchAllocationUpdate, Txn.wp_act, hr]
        simp [hok]

theorem restoreAllocations_restocked {k : Nat} {ref : RestoreRef} {item : InventoryItemLockRow}
    {rows : List AllocationRow} {remaining bookQty : Int} {flowIds : List Nat}
    (hrows : CurrentAllocations s k rows) :
    (restoreAllocations ref item rows remaining bookQty flowIds).safe
      (fun _ _ s' => Restocked k s s' ∧ s'.borrowRecords = s.borrowRecords) n s := by
  induction rows generalizing n s remaining bookQty flowIds with
  | nil => exact ⟨.refl k s, rfl⟩
  | cons a rows ih =>
      have ha := hrows.1 a List.mem_cons_self
      have hnodup := hrows.2
      rw [List.map_cons, List.nodup_cons] at hnodup
      unfold restoreAllocations
      split
      · exact ⟨.refl k s, rfl⟩
      · split
        · exact ih ⟨fun c hc => hrows.1 c (List.mem_cons_of_mem _ hc), hnodup.2⟩
        · dsimp only
          rw [Txn.safe, Txn.wp_bind]
          refine borrowBatchAllocationUpdate_safe ?_
          rw [Txn.wp_bind]
          refine batchUpdate_safe fun b hb _ => ?_
          rw [Txn.wp_bind]
          refine inventoryItemUpdate_safe fun _ _ _ => ?_
          rw [Txn.wp_bind]
          refine stockFlowCreate_safe fun _ => ?_
          refine Txn.wp_mono (ih ⟨fun c hc => ?_, hnodup.2⟩) ?_
          · have hne : c.id ≠ a.id := fun he => hnodup.1 (he ▸ List.mem_map_of_mem hc)
            dsimp only
            rw [Table.find?_update_ne _ _ hne]
            exact hrows.1 c (List.mem_cons_of_mem _ hc)
          · intro _ n' s' hdone
            exact ⟨(restocked_segment ha hb).trans hdone.1, hdone.2⟩

theorem restoreRecord_restocked {k : Slack} {p : BorrowRecordLockRow} {ref : RestoreRef}
    (h : Inv k n s) (hr : s.borrowRecords.find? p.1 = some r) :
    (restoreRecord p qty ref).safe
      (fun _ _ s' => Restocked p.1 s s' ∧ s'.borrowRecords.find? p.1 =
        some { r with returnedQty := r.returnedQty + qty }) n s := by
  unfold restoreRecord
  rw [Txn.safe, Txn.wp_bind, availableActionQty, Txn.wp_query, Txn.wp_bind]
  refine Txn.safe_guard fun _ => ?_
  rw [Txn.wp_bind, Txn.wp_query, Txn.wp_bind]
  refine Txn.safe_guard fun _ => ?_
  rw [Txn.wp_bind, lockInventoryItem, Txn.wp_queryForUpdate]
  split
  · trivial
  · rw [Txn.wp_bind, Txn.wp_queryForUpdate, Txn.wp_bind]
    refine Txn.safe_guard fun _ => ?_
    rw [Txn.wp_bind]
    refine Txn.wp_mono (restoreAllocations_restocked
      (currentAllocations_allocationRows h p.1)) ?_
    intro res n₁ s₁ hdone
    obtain ⟨hstock, hrecords⟩ := hdone
    obtain ⟨remaining, flowIds⟩ := res
    dsimp only
    rw [Txn.wp_bind]
    refine Txn.safe_guard fun _ => ?_
    rw [Txn.wp_bind]
    rw [← hrecords] at hr
    refine borrowRecordUpdate_wp hr (fun _ => ?_) fun _ => trivial
    exact ⟨⟨hstock.stock, hstock.issued⟩, Table.find?_update_of_find? hr _⟩

/-! ## Returns one after another -/

def returnOnce (recordId : Nat) (part : Int × RestoreRef) : Tx (List Nat) := do
  let record ← lockExistingRecord recordId
  restoreRecord record part.1 part.2

def returnEach (recordId : Nat) : List (Int × RestoreRef) → Nat → Store →
    Except Failure (Nat × Store)
  | [], n, s => .ok (n, s)
  | part :: parts, n, s =>
      match (returnOnce recordId part).run n s with
      | .error e => .error e
      | .ok (_, n', s') => returnEach recordId parts n' s'

/-- What the parts return together. -/
def partsQty (parts : List (Int × RestoreRef)) : Int := (parts.map (·.1)).sum

structure Unasked (s : Store) (k : Nat) (r : BorrowRecord) : Prop where
  stored : s.borrowRecords.find? k = some r
  free : occupiedQty s.approvalRequests s.borrowActionItems k = 0

theorem returnOnce_wp {part : Int × RestoreRef} (h : Inv (.exempting exempt) n s)
    (hr : Unasked s k r) (hpos : 0 < part.1) {E : Failure → Prop}
    (hE : r.openQty < part.1 → ∀ e, E e) :
    (returnOnce k part).wp
      (fun _ n' s' => Inv (.exempting exempt) n' s' ∧ Restocked k s s' ∧
        Unasked s' k { r with returnedQty := r.returnedQty + part.1 }) E n s := by
  unfold returnOnce
  rw [Txn.wp_bind]
  refine BorrowService.lockExistingRecord_wp hr.stored ?_
  refine Txn.wp_mono (Txn.wp_and (restoreRecord_wp h ⟨fun _ => rfl, fun _ => rfl, fun _ => rfl⟩
    hr.stored rfl hpos fun hless => hE ?_) (restoreRecord_restocked h hr.stored)) ?_
  · rcases hless with hless | hless
    · exact hless
    · rw [hr.free] at hless
      dsimp only at hless
      omega
  · intro _ n' s' hdone
    obtain ⟨⟨hinv, hsettled, -⟩, hstock, hrecord⟩ := hdone
    have hfree : occupiedQty s'.approvalRequests s'.borrowActionItems k = 0 := by
      obtain ⟨_, _, _, _, _, rfl⟩ := hsettled.frame
      exact hr.free
    refine ⟨hinv.settleUncounted ?_, hstock, ⟨hrecord, hfree⟩⟩
    rw [hfree, openOf, Table.valueAt_of_find? hrecord]
    exact hinv.records.openQty_nonneg _ _ hrecord

theorem returnEach_ok {exempt : Nat → Prop} {k : Nat} {r : BorrowRecord}
    {parts : List (Int × RestoreRef)} (h : Inv (.exempting exempt) n s) (hr : Unasked s k r)
    (hpos : ∀ part ∈ parts, 0 < part.1) (hle : partsQty parts ≤ r.openQty) :
    ∃ n' s', returnEach k parts n s = .ok (n', s') ∧ Inv (.exempting exempt) n' s' ∧
      Restocked k s s' ∧
        Unasked s' k { r with returnedQty := r.returnedQty + partsQty parts } := by
  induction parts generalizing n s r with
  | nil => exact ⟨n, s, rfl, h, .refl k s, by simpa [partsQty] using hr⟩
  | cons part parts ih =>
      have hsum : partsQty (part :: parts) = part.1 + partsQty parts := by simp [partsQty]
      have hrest : 0 ≤ partsQty parts := List.sum_nonneg fun x hx => by
        obtain ⟨p, hp, rfl⟩ := List.mem_map.mp hx
        exact Int.le_of_lt (hpos p (List.mem_cons_of_mem _ hp))
      obtain ⟨flowIds, n₁, s₁, hrun, hinv, hstock, hr₁⟩ := Txn.run_ok_of_wp
        (returnOnce_wp h hr (hpos part List.mem_cons_self) (E := fun _ => False)
          fun hless => absurd hless (by omega))
      have hopen : ({ r with returnedQty := r.returnedQty + part.1 } : BorrowRecord).openQty =
          r.openQty - part.1 := by
        simp only [BorrowRecord.openQty]
        omega
      obtain ⟨n₂, s₂, hrest₂, hinv₂, hstock₂, hr₂⟩ := ih hinv hr₁
        (fun p hp => hpos p (List.mem_cons_of_mem _ hp)) (by rw [hopen]; omega)
      refine ⟨n₂, s₂, ?_, hinv₂, hstock.trans hstock₂, ?_⟩
      · rw [returnEach, hrun]
        exact hrest₂
      · rw [hsum, ← Int.add_assoc]
        exact hr₂

theorem returnEach_inv {exempt : Nat → Prop} {k : Nat} {r : BorrowRecord}
    {parts : List (Int × RestoreRef)} (h : Inv (.exempting exempt) n s) (hr : Unasked s k r)
    (hpos : ∀ part ∈ parts, 0 < part.1) {n' : Nat} {s' : Store}
    (hrun : returnEach k parts n s = .ok (n', s')) : Inv (.exempting exempt) n' s' := by
  induction parts generalizing n s r with
  | nil =>
      cases hrun
      exact h
  | cons part parts ih =>
      rw [returnEach] at hrun
      cases hone : (returnOnce k part).run n s with
      | error e =>
          rw [hone] at hrun
          cases hrun
      | ok res =>
          obtain ⟨flowIds, n₁, s₁⟩ := res
          rw [hone] at hrun
          obtain ⟨hinv, -, hr₁⟩ := Txn.wp_of_run_ok (returnOnce_wp h hr
            (hpos part List.mem_cons_self) (E := fun _ => True) fun _ _ => trivial) hone
          exact ih hinv hr₁ (fun p hp => hpos p (List.mem_cons_of_mem _ hp)) hrun

/-! ## Altogether returned -/

def NoneOverReturned (allocs : Table BorrowBatchAllocation) : Prop :=
  ∀ j a, allocs.find? j = some a → a.returnedQty ≤ a.issuedQty

theorem Inv.noneOverReturned {k : Slack} (h : Inv k n s) :
    NoneOverReturned s.borrowBatchAllocations :=
  fun j a ha => (h.allocations.quantities j a ha).2.2

theorem returnedAt_of_returned (h : Inv (.exempting exempt) n s)
    (hr : s.borrowRecords.find? k = some r) (hall : r.returnedQty = r.qty) (b : Nat) :
    returnedAt s.borrowBatchAllocations (k, b) = issuedAt s.borrowBatchAllocations (k, b) := by
  have hissued := h.allocations.issued k
  have hreturned := h.allocations.returned k
  rw [Table.valueAt_of_find? hr] at hissued hreturned
  simp only [Slack.exempting, Int.add_zero] at hissued hreturned
  have hopen : ∀ j a, s.borrowBatchAllocations.find? j = some a → 0 ≤ a.issuedQty - a.returnedQty :=
    fun j a ha => by
      have := h.noneOverReturned j a ha
      omega
  have hsum : s.borrowBatchAllocations.sumBy (·.borrowRecordId)
      (fun a => a.issuedQty - a.returnedQty) k = 0 := by
    have hadd := Table.sumBy_add s.borrowBatchAllocations (·.borrowRecordId) (·.returnedQty)
      (fun a => a.issuedQty - a.returnedQty) k
    have hissued' : s.borrowBatchAllocations.sumBy (·.borrowRecordId)
        (fun a => a.returnedQty + (a.issuedQty - a.returnedQty)) k =
        issuedOf s.borrowBatchAllocations k :=
      congrFun (Table.sumBy_congr fun _ _ _ => by omega) k
    unfold issuedOf returnedOf at *
    omega
  unfold returnedAt issuedAt Table.sumBy
  refine Table.total_congr fun j a ha => ?_
  by_cases hkey : (a.borrowRecordId, a.batchId) = (k, b)
  · rw [if_pos hkey, if_pos hkey]
    show a.returnedQty = a.issuedQty
    have hle := Table.le_sumBy (g := (·.borrowRecordId)) hopen ha
    have hnonneg := hopen j a ha
    rw [(Prod.mk.inj hkey).1, hsum] at hle
    omega
  · rw [if_neg hkey, if_neg hkey]

theorem returnedAt_of_unreturned (h : Inv (.exempting exempt) n s)
    (hr : s.borrowRecords.find? k = some r) (hnone : r.returnedQty = 0) (b : Nat) :
    returnedAt s.borrowBatchAllocations (k, b) = 0 := by
  have hreturned := h.allocations.returned k
  rw [Table.valueAt_of_find? hr, hnone] at hreturned
  simp only [Slack.exempting, Int.add_zero] at hreturned
  refine Table.sumBy_eq_zero fun j a ha hkey => ?_
  have hle := Table.le_sumBy (g := (·.borrowRecordId)) (w := (·.returnedQty))
    (fun j a ha => (h.allocations.quantities j a ha).2.1) ha
  have hnonneg := (h.allocations.quantities j a ha).2.1
  rw [(Prod.mk.inj hkey).1, ← returnedOf, hreturned] at hle
  omega

theorem issuedAt_of_elsewhere {k : Slack} {id b : Nat} {row : Batch} (h : Inv k n s)
    (hr : s.borrowRecords.find? id = some r) (hrow : s.batches.find? b = some row)
    (hne : row.inventoryItemId ≠ r.inventoryItemId) :
    issuedAt s.borrowBatchAllocations (id, b) = 0 := by
  refine Table.sumBy_eq_zero fun j a ha hkey => ?_
  obtain ⟨row', r', hrow', hr', heq⟩ := h.allocations.home j a ha
  rw [(Prod.mk.inj hkey).1, hr, Option.some.injEq] at hr'
  rw [(Prod.mk.inj hkey).2, hrow, Option.some.injEq] at hrow'
  subst hr' hrow'
  exact absurd heq hne

theorem issuedLines_of_commits {w w₁ : World} (h : Reachable w) {id processorId : Nat}
    (hlends : ∀ head, w.store.approvalRequests.find? id = some head →
      head.requestType.lends = true)
    (hc : Commits w (.process env id .approve processorId opinion) w₁) :
    IssuedLines w.store [] w₁.store := by
  obtain ⟨reply, hrun⟩ := hc
  have hsafe : (Op.process env id .approve processorId opinion).program.safe
      (fun _ _ s' => IssuedLines w.store [] s') w.seq w.store :=
    (Txn.wp_bind _ _).mpr (AssetApprovalService.process_issued h.ok hlends)
  exact Txn.wp_of_run_ok hsafe hrun

theorem unasked_of_issued {w w₁ : World} (hok : w.Ok exempt)
    (hissued : IssuedLines w.store [] w₁.store) (hnew : w.store.borrowRecords.find? k = none)
    (hr : w₁.store.borrowRecords.find? k = some r) : Unasked w₁.store k r where
  stored := hr
  free := Table.sumBy_eq_zero fun j l hl he => by
    rw [hissued.actions] at hl
    obtain ⟨-, -, r', hr', -⟩ := hok.actionLines.action j l hl
    rw [he, hnew] at hr'
    cases hr'

/-- What an issue lent under a new record comes back to the batches it was drawn from, in
whatever parts it is returned; the other batches stay as the issue left them. -/
theorem returnEach_restores {w w₁ : World} (h : Reachable w) {id processorId : Nat}
    (hlends : ∀ head, w.store.approvalRequests.find? id = some head →
      head.requestType.lends = true)
    (hc : Commits w (.process env id .approve processorId opinion) w₁)
    (hnew : w.store.borrowRecords.find? k = none) (hr : w₁.store.borrowRecords.find? k = some r)
    (hpos : ∀ part ∈ parts, 0 < part.1) (hall : partsQty parts = r.qty) :
    ∃ n' s', returnEach k parts w₁.seq w₁.store = .ok (n', s') ∧
      ∀ b row, w.store.batches.find? b = some row →
        if row.inventoryItemId = r.inventoryItemId then
          remainingAt s'.batches b = row.remainingQty
        else remainingAt s'.batches b = remainingAt w₁.store.batches b := by
  have hok₁ : w₁.Ok fun _ => True := h.ok.commits hc fun _ _ => trivial
  have hissued := issuedLines_of_commits h hlends hc
  have hunasked := unasked_of_issued h.ok hissued hnew hr
  obtain ⟨-, hret, hoff, hsum⟩ := hissued.lent k r hr hnew
  have hopen : r.openQty = r.qty := by
    rw [BorrowRecord.openQty, hret, hoff]
    omega
  obtain ⟨n', s', hrun', hinv, hstock, hafter⟩ := returnEach_ok hok₁ hunasked hpos
    (by rw [hopen, hall])
  refine ⟨n', s', hrun', fun b row hrow => ?_⟩
  have hreturned := returnedAt_of_returned hinv hafter.stored (by
    rw [hret, hall]
    exact Int.zero_add _) b
  have hbefore := returnedAt_of_unreturned hok₁ hr hret b
  have hbalance := hstock.stock b
  rw [hreturned, hstock.issued, hbefore] at hbalance
  split
  · rename_i hitem
    have hdrawn := hsum b row hrow hitem
    omega
  · rename_i hitem
    obtain ⟨row₁, hrow₁, hsame, -⟩ := hissued.batches b row hrow
    rw [issuedAt_of_elsewhere hok₁ hr hrow₁ (by rw [hsame]; exact hitem)] at hbalance
    omega

theorem returnEach_noneOverReturned {w w₁ : World} (h : Reachable w) {id processorId : Nat}
    (hlends : ∀ head, w.store.approvalRequests.find? id = some head →
      head.requestType.lends = true)
    (hc : Commits w (.process env id .approve processorId opinion) w₁)
    (hnew : w.store.borrowRecords.find? k = none) (hr : w₁.store.borrowRecords.find? k = some r)
    (hpos : ∀ part ∈ parts, 0 < part.1) {n' : Nat} {s' : Store}
    (hrun : returnEach k parts w₁.seq w₁.store = .ok (n', s')) :
    NoneOverReturned s'.borrowBatchAllocations := by
  have hok₁ : w₁.Ok fun _ => True := h.ok.commits hc fun _ _ => trivial
  have hissued := issuedLines_of_commits h hlends hc
  exact (returnEach_inv hok₁ (unasked_of_issued h.ok hissued hnew hr) hpos hrun).noneOverReturned

/-! ## Allocation, failure, issue and return -/

/-- The store a transaction leaves: what it commits, or what was there when it throws. -/
def committed {α : Type} (p : Tx α) (n : Nat) (s : Store) : Store :=
  match p.run n s with
  | .ok (_, _, s') => s'
  | .error _ => s

theorem allocateFifoBatches_error (hcheck : ∀ b r, s.batches.find? b = some r → 0 ≤ r.remainingQty)
    {i : Nat} {qty : Int} (h0 : 0 ≤ qty) (hless : remainingOf s.batches i < qty) :
    (allocateFifoBatches i qty).run n s = .error (.of .insufficientStock) := by
  have hwp := allocateFifoBatches_wp (n := n) (s := s) (i := i)
    (E := fun e => e = .of .insufficientStock) h0 fun _ => rfl
  rw [Txn.wp_iff_run] at hwp
  cases hrun : (allocateFifoBatches i qty).run n s with
  | error e =>
      rw [hrun] at hwp
      exact congrArg _ hwp
  | ok res =>
      rw [hrun] at hwp
      rw [← rowsQty_fifoRows hcheck] at hless
      exact absurd hwp.1 (by omega)

theorem allocateFifoBatches_ok (hcheck : ∀ b r, s.batches.find? b = some r → 0 ≤ r.remainingQty)
    (h0 : 0 ≤ qty) (henough : qty ≤ remainingOf s.batches i) :
    ∃ as s', (allocateFifoBatches i qty).run n s = .ok (as, n, s') := by
  obtain ⟨as, n', s', hrun, -, rfl, -⟩ := Txn.run_ok_of_wp
    (allocateFifoBatches_wp (n := n) (i := i) (E := fun _ => False) h0 fun hless => by
      rw [rowsQty_fifoRows hcheck] at hless
      omega)
  exact ⟨as, s', hrun⟩

/-- A transaction that has come to an allocation of more than there is throws, and leaves every
batch as it was before the transaction. -/
theorem enclosing_fails {α β : Type} {before : Tx α} {after : α → List BatchAllocation → Tx β}
    (hcheck : ∀ b r, s.batches.find? b = some r → 0 ≤ r.remainingQty) (h0 : 0 ≤ qty)
    (hless : remainingOf s.batches i < qty) {m : Nat} {t : Store} {a : α}
    (hbefore : before.run m t = .ok (a, n, s)) :
    (before >>= fun a => allocateFifoBatches i qty >>= after a).run m t =
        .error (.of .insufficientStock) ∧
      (committed (before >>= fun a => allocateFifoBatches i qty >>= after a) m t).batches =
        t.batches := by
  have hrun : (before >>= fun a => allocateFifoBatches i qty >>= after a).run m t =
      .error (.of .insufficientStock) := by
    rw [Txn.run_bind, hbefore]
    dsimp only
    rw [Txn.run_bind, allocateFifoBatches_error hcheck h0 hless]
  refine ⟨hrun, ?_⟩
  rw [committed, hrun]

/-- Allocation takes first in first out or fails as a whole; what an approved claim lends comes
back to its batches in whatever parts it is returned, and no allocation takes back more than it
issued. -/
theorem fifo_issue_and_return :
    (∀ (n : Nat) (s : Store) (i : Nat) (qty : Int), 0 < qty →
      (∀ b r, s.batches.find? b = some r → 0 ≤ r.remainingQty) →
      ((∃ as s', (allocateFifoBatches i qty).run n s = .ok (as, n, s')) ↔
        qty ≤ remainingOf s.batches i) ∧
      (∀ as n' s', (allocateFifoBatches i qty).run n s = .ok (as, n', s') →
        FifoAllocated s i qty as s') ∧
      ∀ (α β : Type) (before : Tx α) (after : α → List BatchAllocation → Tx β) (m : Nat)
        (t : Store) (a : α), before.run m t = .ok (a, n, s) → remainingOf s.batches i < qty →
        (before >>= fun a => allocateFifoBatches i qty >>= after a).run m t =
            .error (.of .insufficientStock) ∧
          (committed (before >>= fun a => allocateFifoBatches i qty >>= after a) m t).batches =
            t.batches) ∧
    ∀ (w w₁ : World) (env : Environment) (id processorId : Nat) (opinion : Option String),
      Reachable w →
      (∀ head, w.store.approvalRequests.find? id = some head → head.requestType.lends = true) →
      Commits w (.process env id .approve processorId opinion) w₁ →
      ∀ k r, w.store.borrowRecords.find? k = none → w₁.store.borrowRecords.find? k = some r →
        ∀ parts : List (Int × RestoreRef), (∀ part ∈ parts, 0 < part.1) →
          (partsQty parts = r.qty →
            ∃ n' s', returnEach k parts w₁.seq w₁.store = .ok (n', s') ∧
              ∀ b row, w.store.batches.find? b = some row →
                if row.inventoryItemId = r.inventoryItemId then
                  remainingAt s'.batches b = row.remainingQty
                else remainingAt s'.batches b = remainingAt w₁.store.batches b) ∧
          ∀ n' s', returnEach k parts w₁.seq w₁.store = .ok (n', s') →
            NoneOverReturned s'.borrowBatchAllocations := by
  constructor
  · intro n s i qty hq hcheck
    have hwp := allocateFifoBatches_wp (n := n) (E := fun _ => True) (i := i) (s := s)
      (Int.le_of_lt hq) fun _ => trivial
    refine ⟨⟨?_, allocateFifoBatches_ok hcheck (Int.le_of_lt hq)⟩, ?_, ?_⟩
    · intro hsome
      obtain ⟨as, s', hrun⟩ := hsome
      rw [← rowsQty_fifoRows hcheck]
      exact (Txn.wp_of_run_ok hwp hrun).1
    · intro as n' s' hrun
      exact (Txn.wp_of_run_ok hwp hrun).2.2
    · intro α β before after m t a hbefore hless
      exact enclosing_fails hcheck (Int.le_of_lt hq) hless hbefore
  · intro w w₁ env id processorId opinion h hlends hc k r hnew hr parts hpos
    constructor
    · intro hall
      exact returnEach_restores h hlends hc hnew hr hpos hall
    · intro n' s' hrun
      exact returnEach_noneOverReturned h hlends hc hnew hr hpos hrun

theorem commits_lending : Commits (World.init.run Sample.claiming)
    (.process (Sample.environment "") 9 .approve 7 none) (World.init.run Sample.lending) := by
  have hstep : World.init.run Sample.lending = (World.init.run Sample.claiming).step
      (.process (Sample.environment "") 9 .approve 7 none) := by
    rw [Sample.lending, World.run, List.foldl_append]
    rfl
  rw [hstep]
  rcases World.step_cases (World.init.run Sample.claiming)
    (.process (Sample.environment "") 9 .approve 7 none) with hc | ht
  · exact hc
  · -- a failed approval would have lent nothing
    obtain ⟨-, -, -, hstore⟩ := ht
    have hlent : ((World.init.run Sample.lending).store.borrowRecords.find? 14).isSome = true := by
      decide +kernel
    have hnone : ((World.init.run Sample.claiming).store.borrowRecords.find? 14).isSome = false :=
      by decide +kernel
    rw [hstep, hstore, hnone] at hlent
    cases hlent

/-- Four of the four drills can be allocated, and the four that are lent come back in parts of
one and three. -/
theorem fifo_issue_and_return_drills :
    (∃ as s', (allocateFifoBatches 5 4).run 12 (World.init.run Sample.claiming).store =
      .ok (as, 12, s')) ∧
    ∃ n' s', returnEach 14 [(1, ⟨"RETURN", 1, 7, "approver"⟩), (3, ⟨"RETURN", 2, 7, "approver"⟩)]
        (World.init.run Sample.lending).seq (World.init.run Sample.lending).store =
        .ok (n', s') ∧ remainingAt s'.batches 6 = 4 := by
  constructor
  · have hok := (reachable_run Sample.claiming).ok
    exact ((fifo_issue_and_return.1 12 _ 5 4 (by decide)
      hok.stock.remaining_nonneg).1).mpr (by decide +kernel)
  · have hrecord : ((World.init.run Sample.lending).store.borrowRecords.find? 14).map
        (fun r => (r.qty, r.inventoryItemId)) = some (4, 5) := by decide +kernel
    have hbatch : ((World.init.run Sample.claiming).store.batches.find? 6).map
        (fun r => (r.remainingQty, r.inventoryItemId)) = some (4, 5) := by decide +kernel
    have hhead : ((World.init.run Sample.claiming).store.approvalRequests.find? 9).map
        (·.requestType.lends) = some true := by decide +kernel
    have hnone : ((World.init.run Sample.claiming).store.borrowRecords.find? 14).isNone = true := by
      decide +kernel
    obtain ⟨r, hr, hqty⟩ := Option.map_eq_some_iff.mp hrecord
    obtain ⟨row, hrow, hleft⟩ := Option.map_eq_some_iff.mp hbatch
    simp only [Prod.mk.injEq] at hqty hleft
    obtain ⟨n', s', hrun, hback⟩ := (fifo_issue_and_return.2 _ _ _ 9 7 none
      (reachable_run Sample.claiming) (fun head hid => by simpa [hid] using hhead)
      commits_lending 14 r (Option.isNone_iff_eq_none.mp hnone) hr
      [(1, ⟨"RETURN", 1, 7, "approver"⟩), (3, ⟨"RETURN", 2, 7, "approver"⟩)]
      (by simp)).1 (by rw [hqty.1]; rfl)
    have hsix := hback 6 row hrow
    rw [if_pos (hleft.2.trans hqty.2.symm), hleft.1] at hsix
    exact ⟨n', s', hrun, hsix⟩

end Wbme.Asset
