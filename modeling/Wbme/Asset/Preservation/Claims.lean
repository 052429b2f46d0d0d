import Wbme.Asset.Preservation.StockRequests

/-! # Claims keep the invariant

A claim reserves like a stock change. Its approval issues each line and, for
borrowed goods, lends the issued segments under a new record before the item may
be cleaned up.
-/

namespace Wbme.Asset

open Lib Approval

variable {k : Slack} {n : Nat} {s : Store}

theorem PendingHead.mono {id : Nat} {types types' : List RequestType} (h : PendingHead s id types)
    (ht : ∀ t ∈ types, t ∈ types') : PendingHead s id types' := by
  obtain ⟨r, hr, hmem, hp⟩ := h
  exact ⟨r, hr, ht _ hmem, hp⟩

/-! ## Submission -/

def ClaimLine.reservation (line : ClaimLine) : ReservedLine := ⟨line.inventoryItemId, line.qty⟩

variable (locked : List InventoryItemLockRow)

theorem prepareClaimLine_safe (item : ClaimRequestItem) :
    (prepareClaimLine locked item).safe
      (fun p n' s' => n' = n ∧ s' = s ∧ 0 < p.1.reservation.qty) n s := by
  unfold prepareClaimLine
  rw [Txn.safe, Txn.wp_bind]
  refine Txn.safe_orThrow fun row _ => ?_
  rw [Txn.wp_bind]
  refine Txn.safe_guard fun _ => ?_
  rw [Txn.wp_bind, Txn.wp_query]
  have hq := item.qty_pos
  split
  · trivial
  · rw [Txn.wp_bind]
    exact Txn.safe_guard fun _ => ⟨rfl, rfl, by dsimp only [ClaimLine.reservation]; omega⟩

theorem prepareClaimLines_safe (items : List ClaimRequestItem) :
    (items.mapM (prepareClaimLine locked)).safe
      (fun ps n' s' => n' = n ∧ s' = s ∧ ∀ l ∈ ps.map (·.1), 0 < l.reservation.qty) n s := by
  refine Txn.wp_mapM (fun _ (done : List (ClaimLine × Consumable)) n' s' => n' = n ∧ s' = s ∧
    ∀ l ∈ done.map (·.1), 0 < l.reservation.qty) ?_ ⟨rfl, rfl, by simp⟩
  rintro item rest done n' s' ⟨rfl, rfl, hdone⟩
  refine Txn.wp_mono (prepareClaimLine_safe locked item) ?_
  rintro p n' s' ⟨rfl, rfl, hp⟩
  refine ⟨rfl, rfl, fun l hl => ?_⟩
  rw [List.map_append, List.mem_append] at hl
  rcases hl with hl | hl
  · exact hdone l hl
  · obtain rfl : l = p.1 := by simpa using hl
    exact hp

theorem createClaimLines_safe {requestId : Nat} {lines : List ClaimLine}
    (h : Inv { k with owed := fun i => k.owed i + reservedBy (lines.map ClaimLine.reservation) i }
      n s) (hhead : PendingHead s requestId [.consumableRequest, .agentRequest]) :
    (createClaimLines requestId lines).safe (fun _ => Inv k) n s := by
  unfold createClaimLines
  induction lines generalizing n s with
  | nil => simpa using h
  | cons line lines ih =>
      rw [Txn.safe, Txn.wp_forM_cons, Txn.wp_bind]
      refine consumableRequestItemCreate_safe fun hq hnew => ih ?_ hhead
      rw [List.map_cons, add_reservedBy_cons] at h
      have hstep := h.insertClaimLine hq hhead hnew
      simpa only [ClaimLine.reservation, bump_bump, Int.add_right_neg, bump_zero] using hstep

theorem readOnly_acquireQuotaAdvisoryLocks (keys : List QuotaKey) :
    (acquireQuotaAdvisoryLocks keys).ReadOnly :=
  Txn.readOnly_forM fun _ => Txn.readOnly_queryForUpdate _ _

theorem ClaimService.readOnly_assertQuota (userId : Nat) (check : QuotaCheck) :
    (assertQuota userId check).ReadOnly := fun n s => by
  unfold assertQuota
  rw [Txn.safe, Txn.wp_act]
  cases quotaFits s userId check <;> simp

variable {exempt : Nat → Prop} {E : Failure → Prop} {env : Environment} {head : SideHead}

theorem ClaimService.submit_safe (env : Environment) (operator : Operator)
    (items : List ClaimRequestItem) (h : Inv (.exempting exempt) n s) :
    (submit env operator items).safe (fun _ => Inv (.exempting exempt)) n s := by
  unfold submit
  dsimp only
  rw [Txn.safe, Txn.wp_bind]
  refine Txn.safe_guard fun _ => ?_
  rw [Txn.wp_bind, lockInventoryItems, Txn.wp_queryForUpdate, Txn.wp_bind]
  refine Txn.safe_guard fun _ => ?_
  rw [Txn.wp_bind]
  refine Txn.wp_mono (prepareClaimLines_safe _ items) ?_
  rintro prepared n' s' ⟨rfl, rfl, hlines⟩
  rw [Txn.wp_bind]
  refine (readOnly_acquireQuotaAdvisoryLocks _).safe fun _ => ?_
  rw [Txn.wp_bind]
  refine (Txn.readOnly_forM fun check => readOnly_assertQuota operator.id check).safe fun _ => ?_
  rw [Txn.wp_bind]
  refine Txn.wp_mono (reserveLines_safe (g := ClaimLine.reservation) h hlines) ?_
  rintro - n₁ s₁ ⟨hinv₁, -⟩
  rw [Txn.wp_bind]
  refine Txn.wp_mono (createRequestHead_safe env _ hinv₁) ?_
  rintro head n₂ s₂ ⟨hinv₂, hhead, -⟩
  rw [Txn.wp_bind]
  refine Txn.wp_mono (createClaimLines_safe hinv₂ (hhead.mono (by simp))) ?_
  rintro - n₃ s₃ hinv₃
  rw [Txn.wp_bind]
  refine Txn.wp_mono (Txn.wp_forM (fun _ => Inv (.exempting exempt)) ?_ hinv₃)
    fun _ n' s' hdone => hdone
  intro check rest n' s' hinv
  rw [Txn.wp_bind]
  exact quotaOccupationCreate_safe (hinv.insertQuota _)

theorem AgentClaimService.readOnly_prepareRecipients (env : Environment) (operator : Operator)
    (ids : List Nat) : (prepareRecipients env operator ids).ReadOnly :=
  (Txn.readOnly_guard _ _).bind fun _ => (Txn.readOnly_guard _ _).bind fun _ =>
    Txn.readOnly_mapM fun _ => (Txn.readOnly_guard _ _).bind fun _ => Txn.readOnly_pure _

theorem AgentClaimService.submit_safe (env : Environment) (operator : Operator)
    (dto : AgentRequestCreate) (h : Inv (.exempting exempt) n s) :
    (submit env operator dto).safe (fun _ => Inv (.exempting exempt)) n s := by
  unfold submit
  dsimp only
  rw [Txn.safe, Txn.wp_bind]
  refine (readOnly_prepareRecipients env operator dto.recipientIds).safe fun recipients => ?_
  rw [Txn.wp_bind]
  refine Txn.safe_guard fun _ => ?_
  rw [Txn.wp_bind, lockInventoryItems, Txn.wp_queryForUpdate, Txn.wp_bind]
  refine Txn.safe_guard fun _ => ?_
  rw [Txn.wp_bind]
  refine Txn.wp_mono (prepareClaimLines_safe _ dto.items) ?_
  rintro prepared n' s' ⟨rfl, rfl, hlines⟩
  rw [Txn.wp_bind]
  refine Txn.wp_mono (reserveLines_safe (g := ClaimLine.reservation) h hlines) ?_
  rintro - n₁ s₁ ⟨hinv₁, -⟩
  rw [Txn.wp_bind]
  refine Txn.wp_mono (createRequestHead_safe env _ hinv₁) ?_
  rintro head n₂ s₂ ⟨hinv₂, hhead, -⟩
  rw [Txn.wp_bind]
  refine Txn.wp_mono (createClaimLines_safe hinv₂ (hhead.mono (by simp))) ?_
  rintro - n₃ s₃ hinv₃
  rw [Txn.wp_bind]
  refine Txn.wp_mono (Txn.wp_forM (fun _ => Inv (.exempting exempt)) ?_ hinv₃)
    fun _ n' s' hdone => hdone
  intro recipient rest n' s' hinv
  rw [Txn.wp_bind]
  exact agentRecipientCreate_safe (hinv.insertRecipient _)

/-! ## Lending -/

theorem createAllocations_safe {recordId i : Nat} {as : List BatchAllocation} {r : BorrowRecord}
    (h : Inv { k with lent := bump k.lent recordId (takenQty as) } n s)
    (hr : s.borrowRecords.find? recordId = some r) (hi : r.inventoryItemId = i)
    (hhome : TakenFromItem s.batches i as) (hlater : ∀ a ∈ as, LaterFlow s.stockFlows a.batchId) :
    (as.forM fun a => do
      let _ ← borrowBatchAllocationCreate
        { borrowRecordId := recordId, batchId := a.batchId, issuedQty := a.qty,
          returnedQty := 0 }).safe
      (fun _ n' s' => Inv k n' s' ∧
        ∃ allocs, s' = { s with borrowBatchAllocations := allocs }) n s := by
  induction as generalizing n s with
  | nil => exact ⟨by simpa using h, s.borrowBatchAllocations, rfl⟩
  | cons a as ih =>
      rw [Txn.safe, Txn.wp_forM_cons, Txn.wp_bind]
      refine borrowBatchAllocationCreate_safe fun hok => ?_
      rw [BorrowBatchAllocation.quantitiesOk_iff] at hok
      obtain ⟨b, hb, hbi⟩ := hhome a List.mem_cons_self
      have hstep := h.insertAlloc
        (w := ⟨recordId, a.batchId, a.qty, 0⟩)
        hok.1 rfl ⟨b, r, hb, hr, hbi.trans hi.symm⟩ (hlater a List.mem_cons_self)
      have hlent : a.qty + takenQty as + -a.qty = takenQty as := by omega
      simp only [bump_bump, takenQty_cons, hlent] at hstep
      change Txn.wp (List.forM as _) _ _ _ _
      refine Txn.wp_mono (ih hstep hr (fun a' ha => hhome a' (List.mem_cons_of_mem _ ha))
        fun a' ha => hlater a' (List.mem_cons_of_mem _ ha)) ?_
      rintro - n' s' ⟨hinv, allocs, rfl⟩
      exact ⟨hinv, allocs, rfl⟩

variable {requestId : Nat} {line : ConsumableRequestItem} {processorId : Nat}

theorem createBorrowRecord_safe {kind : BorrowKind} {snapshot : Json} {returnDays : Option Int}
    {as : List BatchAllocation} (h : Inv k n s) (hq : 0 < line.qty)
    (hitem : (s.inventoryItems.find? line.inventoryItemId).isSome) (hsum : takenQty as = line.qty)
    (hhome : TakenFromItem s.batches line.inventoryItemId as)
    (hlater : ∀ a ∈ as, LaterFlow s.stockFlows a.batchId) :
    (createBorrowRecord env kind requestId snapshot line returnDays as).safe
      (fun _ n' s' => Inv k n' s' ∧ s'.inventoryItems = s.inventoryItems) n s := by
  unfold createBorrowRecord
  rw [Txn.safe, Txn.wp_bind]
  refine borrowRecordCreate_safe fun _ => ?_
  have hstep := h.insertRecord
    (w :=
      { recordType := kind.recordType, userId := kind.userId, userName := kind.userName,
        departmentSnapshot := snapshot, agentRequestId := kind.agentRequestId, requestId,
        inventoryItemId := line.inventoryItemId, snapshot := line.snapshot, qty := line.qty,
        borrowedAt := env.now, dueAt := env.now + returnDays.getD 0 * msPerDay,
        returnedQty := 0, writtenOffQty := 0 })
    hq rfl rfl hitem
  dsimp only at hstep
  rw [← hsum] at hstep
  refine Txn.wp_mono (createAllocations_safe (by rw [← hsum]; exact hstep)
    (Table.find?_insert_self _ _ _) rfl hhome hlater) ?_
  rintro - n' s' ⟨hinv, allocs, rfl⟩
  exact ⟨hinv, rfl⟩

theorem issueClaimLine_safe {issue : IssueKind} {borrow : BorrowKind} {snapshot : Tx Json}
    {locked : List InventoryItemLockRow}
    (h : Inv { k with owed := bump k.owed line.inventoryItemId line.qty } n s) (hq : 0 < line.qty)
    (hk : k.unposted line.inventoryItemId = 0) (hlocked : CurrentBook s locked line.inventoryItemId)
    (htype : issue.flowType ≠ .stockIn) (hsnapshot : snapshot.ReadOnly) :
    (issueClaimLine env issue borrow requestId snapshot locked line).safe
      (fun _ n' s' => Inv k n' s' ∧ ∀ j, j ≠ line.inventoryItemId →
        s'.inventoryItems.find? j = s.inventoryItems.find? j) n s := by
  unfold issueClaimLine
  rw [Txn.safe, Txn.wp_bind]
  refine Txn.wp_mono (issueLine_safe h hq hk hlocked htype) ?_
  rintro ⟨row, as⟩ n₁ s₁ hissued
  have hcleanup : ∀ n₂ s₂,
      Inv { k with exempt := fun j => j = line.inventoryItemId ∨ k.exempt j } n₂ s₂ →
      s₂.inventoryItems = s₁.inventoryItems →
      (cleanupEmptyItem line.inventoryItemId).safe
        (fun _ n' s' => Inv k n' s' ∧ ∀ j, j ≠ line.inventoryItemId →
          s'.inventoryItems.find? j = s.inventoryItems.find? j) n₂ s₂ := by
    intro n₂ s₂ hinv hitems
    refine Txn.wp_mono (cleanupEmptyItem_wp hinv) ?_
    rintro - n' s' ⟨hdone, -, hsame⟩
    exact ⟨hdone, fun j hj => by rw [hsame j hj, hitems, hissued.same j hj]⟩
  dsimp only
  rw [Txn.wp_bind, Txn.wp_query]
  split
  · split
    · rw [Txn.wp_bind]
      refine hsnapshot.safe fun json => ?_
      rw [Txn.wp_bind]
      refine Txn.wp_mono (createBorrowRecord_safe hissued.inv hq hissued.item hissued.sum
        hissued.home hissued.later) ?_
      rintro - n₂ s₂ ⟨hinv, hitems⟩
      exact hcleanup n₂ s₂ hinv hitems
    · exact hcleanup n₁ s₁ hissued.inv rfl
  · exact hcleanup n₁ s₁ hissued.inv rfl

/-! ## Approval and release -/

def claimReserved (s : Store) (id : Nat) : List ReservedLine :=
  (claimLinesOf s id).map (·.2.reserved)

theorem linesDistinct_claims (h : Inv k n s) (id : Nat) : LinesDistinct (claimReserved s id) := by
  constructor
  · intro line hline
    obtain ⟨p, hp, rfl⟩ := List.mem_map.mp hline
    exact (h.lines.claim _ _ (Table.mem_select.mp hp).1).1
  · rw [claimReserved, claimLinesOf, List.map_map]
    refine nodup_map_select fun j l j' l' hj hj' hp hp' he => ?_
    simp only [beq_iff_eq] at hp hp'
    exact h.lines.claim_unique j l j' l' hj hj' (hp.trans hp'.symm) he

theorem headLineQty_claim {id i : Nat} {row : ApprovalRequest} (h : Inv k n s)
    (hid : s.approvalRequests.find? id = some row)
    (ht : row.requestType = .consumableRequest ∨ row.requestType = .agentRequest) :
    headLineQty s.stockChangeItems s.consumableRequestItems id i =
      reservedBy (claimReserved s id) i := by
  have hchange : s.stockChangeItems.sumBy (·.inventoryItemId)
      (fun l => if l.requestId = id then l.qty else 0) i = 0 :=
    Table.sumBy_eq_zero fun j l hl _ => by
      obtain ⟨-, r, hr, htypes⟩ := h.lines.change j l hl
      refine if_neg fun he => ?_
      rw [he, hid, Option.some.injEq] at hr
      subst hr
      rw [List.mem_singleton.mp htypes] at ht
      simp at ht
  have hsum : reservedBy (claimReserved s id) = s.consumableRequestItems.sumBy
      (·.inventoryItemId) (fun l => if l.requestId = id then l.qty else 0) :=
    Table.sumOn_select s.consumableRequestItems (fun p => ReservedLine.mk p.2.inventoryItemId p.2.qty)
      ReservedLine.inventoryItemId ReservedLine.qty ConsumableRequestItem.requestId
      ConsumableRequestItem.inventoryItemId ConsumableRequestItem.qty (fun _ => rfl) (fun _ => rfl) id
  rw [headLineQty, hchange, Int.zero_add, hsum]

theorem issueClaimLines_safe {exempt : Nat → Prop} {env : Environment} {issue : IssueKind}
    {borrow : BorrowKind} {requestId : Nat} {snapshot : Tx Json}
    {locked : List InventoryItemLockRow} {lines : List (Nat × ConsumableRequestItem)}
    (h : Inv { Slack.exempting exempt with owed := reservedBy (lines.map (·.2.reserved)) } n s)
    (hlines : LinesDistinct (lines.map (·.2.reserved)))
    (hlocked : ∀ line ∈ lines, CurrentBook s locked line.2.inventoryItemId)
    (htype : issue.flowType ≠ .stockIn) (hsnapshot : snapshot.ReadOnly) :
    (lines.forM fun line =>
      issueClaimLine env issue borrow requestId snapshot locked line.2).safe
      (fun _ => Inv (.exempting exempt)) n s := by
  induction lines generalizing n s with
  | nil => exact h
  | cons line lines ih =>
      rw [Txn.safe, Txn.wp_forM_cons]
      rw [List.map_cons] at hlines
      rw [List.map_cons, reservedBy_cons] at h
      refine Txn.wp_mono (issueClaimLine_safe
        (k := { Slack.exempting exempt with owed := reservedBy (lines.map (·.2.reserved)) }) h
        hlines.head.1 rfl (hlocked line List.mem_cons_self) htype hsnapshot) ?_
      rintro - n₁ s₁ ⟨hinv, hsame⟩
      refine ih hinv hlines.tail fun l hl => ?_
      have hne := hlines.head.2 _ (List.mem_map_of_mem (f := (·.2.reserved)) hl)
      exact (hlocked l (List.mem_cons_of_mem _ hl)).of_same (hsame _ hne)

theorem quotaOccupationSettle_wp {Q : Unit → Nat → Store → Prop} {status : QuotaStatus} (h : Q () n
      { s with
        quotaOccupations := s.quotaOccupations.updateMany
          (fun id _ => (reservedQuotas s requestId).contains id)
          (fun q => { q with status := status }) }) :
    (quotaOccupationSettle requestId status).wp Q E n s := h

theorem ClaimService.applyApproved_safe
    (h : Inv { Slack.exempting exempt with owed := reservedBy (claimReserved s head.id) } n s) :
    (applyApproved env head processorId).safe (fun _ => Inv (.exempting exempt)) n s := by
  unfold applyApproved
  rw [Txn.safe, Txn.wp_bind, Txn.wp_query, Txn.wp_bind, lockInventoryItems,
    Txn.wp_queryForUpdate, Txn.wp_bind]
  refine Txn.wp_mono (issueClaimLines_safe h (linesDistinct_claims h head.id)
    (fun line _ => currentBook_lockRows s _ _) (by simp) (Txn.readOnly_pure _)) ?_
  intro _ n' s' hinv
  exact quotaOccupationSettle_wp (hinv.updateQuotas _ _)

theorem AgentClaimService.applyApproved_safe
    (h : Inv { Slack.exempting exempt with owed := reservedBy (claimReserved s head.id) } n s) :
    (applyApproved env head processorId).safe (fun _ => Inv (.exempting exempt)) n s := by
  unfold applyApproved
  rw [Txn.safe, Txn.wp_bind, Txn.wp_query, Txn.wp_bind, lockInventoryItems,
    Txn.wp_queryForUpdate]
  exact issueClaimLines_safe h (linesDistinct_claims h head.id)
    (fun line _ => currentBook_lockRows s _ _) (by simp) (Txn.readOnly_query _)

theorem releaseClaimLines_wp {id : Nat}
    (h : Inv { Slack.exempting exempt with owed := reservedBy (claimReserved s id) } n s) :
    (releaseLines (claimReserved s id)).wp
      (fun _ n' s' => Inv (.exempting exempt) n' s' ∧ n' = n ∧
        ∃ items, s' = { s with inventoryItems := items } ∧
          Lowered s.inventoryItems items (claimReserved s id)) E n s := by
  refine releaseLines_wp (k := .exempting exempt) ?_ (linesDistinct_claims h id).1
    fun i => Int.le_refl 0
  simpa [Slack.exempting] using h

/-- A store after the quota rows a request reserved got another status. -/
def settleQuotas (s : Store) (requestId : Nat) (status : QuotaStatus) : Store :=
  { s with
    quotaOccupations := s.quotaOccupations.updateMany
      (fun id _ => (reservedQuotas s requestId).contains id) (fun q => { q with status := status }) }

theorem ClaimService.applyRelease_wp
    (h : Inv { Slack.exempting exempt with owed := reservedBy (claimReserved s head.id) } n s) :
    (applyRelease head).wp
      (fun _ n' s' => Inv (.exempting exempt) n' s' ∧ n' = n ∧
        ∃ items, s' = settleQuotas { s with inventoryItems := items } head.id .released ∧
          Lowered s.inventoryItems items (claimReserved s head.id)) E n s := by
  unfold applyRelease
  rw [Txn.wp_bind, Txn.wp_query, Txn.wp_bind]
  refine Txn.wp_mono (releaseClaimLines_wp h) ?_
  rintro - n' s' ⟨hinv, rfl, items, rfl, hlow⟩
  exact quotaOccupationSettle_wp ⟨hinv.updateQuotas _ _, rfl, items, rfl, hlow⟩

theorem AgentClaimService.applyRelease_wp
    (h : Inv { Slack.exempting exempt with owed := reservedBy (claimReserved s head.id) } n s) :
    (applyRelease head).wp
      (fun _ n' s' => Inv (.exempting exempt) n' s' ∧ n' = n ∧
        ∃ items, s' = { s with inventoryItems := items } ∧
          Lowered s.inventoryItems items (claimReserved s head.id)) E n s := by
  unfold applyRelease
  rw [Txn.wp_bind, Txn.wp_query]
  exact releaseClaimLines_wp h

end Wbme.Asset
