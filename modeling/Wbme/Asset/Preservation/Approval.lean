import Wbme.Asset.Preservation.Borrow

/-! # Processing and cancelling keep the invariant

Closing a head puts all it holds into the slack. Each request type has its
reading of what that is, and its approval or release takes exactly that out
again. A lost race leaves before anything is written.
-/

namespace Wbme.Asset

open Lib Approval

variable {n : Nat} {s : Store} {exempt : Nat → Prop} {E : Failure → Prop}

/-! ## What a closed head leaves behind -/

theorem headActionQty_nonneg {k : Slack} (h : Inv k n s) (id j : Nat) :
    0 ≤ headActionQty s.borrowActionItems id j :=
  Table.sumBy_nonneg (fun i l hl => by
    have := (h.actionLines.action i l hl).1
    split <;> omega) j

def heldLines (s : Store) (id : Nat) : RequestType → List ReservedLine
  | .stockChange => StockChangeService.linesOf s id
  | .consumableRequest => claimReserved s id
  | .agentRequest => claimReserved s id
  | _ => []

theorem headLineQty_other {k : Slack} {id i : Nat} {row : ApprovalRequest} (h : Inv k n s)
    (hid : s.approvalRequests.find? id = some row) (ht : row.requestType.holdsStock = false) :
    headLineQty s.stockChangeItems s.consumableRequestItems id i = 0 := by
  have hno : ∀ {types : List RequestType} {j : Nat}, HeadOfType s.approvalRequests j types →
      (∀ t ∈ types, t.holdsStock = true) → j ≠ id := by
    rintro types j ⟨r, hr, hmem⟩ htypes rfl
    obtain rfl : row = r := by simpa [hid] using hr
    rw [htypes _ hmem] at ht
    cases ht
  have hchange := Table.sumBy_eq_zero (t := s.stockChangeItems) (g := (·.inventoryItemId))
    (w := fun l => if l.requestId = id then l.qty else 0) (i := i) fun j l hl _ =>
      if_neg (hno (h.lines.change j l hl).2 (by decide))
  have hclaim := Table.sumBy_eq_zero (t := s.consumableRequestItems)
    (g := (·.inventoryItemId)) (w := fun l => if l.requestId = id then l.qty else 0) (i := i)
    fun j l hl _ => if_neg (hno (h.lines.claim j l hl).2 (by decide))
  rw [headLineQty, hchange, hclaim, Int.add_zero]

theorem headLineQty_eq {k : Slack} {id i : Nat} {row : ApprovalRequest} (h : Inv k n s)
    (hid : s.approvalRequests.find? id = some row) :
    headLineQty s.stockChangeItems s.consumableRequestItems id i =
      reservedBy (heldLines s id row.requestType) i := by
  cases ht : row.requestType with
  | stockChange => exact headLineQty_change h hid ht
  | consumableRequest => exact headLineQty_claim h hid (.inl ht)
  | agentRequest => exact headLineQty_claim h hid (.inr ht)
  | stockIn => exact headLineQty_other h hid (by rw [ht]; rfl)
  | «return» => exact headLineQty_other h hid (by rw [ht]; rfl)
  | writeOff => exact headLineQty_other h hid (by rw [ht]; rfl)
  | agentSettlement => exact headLineQty_other h hid (by rw [ht]; rfl)

theorem heldLines_pos {k : Slack} (h : Inv k n s) (id : Nat) (type : RequestType) :
    ∀ line ∈ heldLines s id type, 0 < line.qty := by
  cases type with
  | stockChange => exact (linesDistinct_changes h id).1
  | consumableRequest => exact (linesDistinct_claims h id).1
  | agentRequest => exact (linesDistinct_claims h id).1
  | _ => simp [heldLines]

/-- The store after the conditional update of a head. -/
def closedBy (s : Store) (id : Nat) (f : ApprovalRequest → ApprovalRequest) : Store :=
  { s with approvalRequests := s.approvalRequests.update id f }

structure Closes (s : Store) (id : Nat) (head : ApprovalRequest)
    (f : ApprovalRequest → ApprovalRequest) : Prop where
  stored : s.approvalRequests.find? id = some head
  pending : head.status = .pending
  closed : (f head).status ≠ .pending
  type : ∀ r, (f r).requestType = r.requestType

section Closed

variable {id : Nat} {head : ApprovalRequest} {f : ApprovalRequest → ApprovalRequest}

theorem Inv.closeHeld (h : Inv (.exempting exempt) n s) (hc : Closes s id head f) :
    Inv { Slack.exempting exempt with owed := reservedBy (heldLines s id head.requestType) } n
      (closedBy s id f) := by
  have hstep := (h.closeHead hc.stored hc.pending hc.closed hc.type).weaken (e := exempt)
    (a := fun _ => 0) (q := fun _ => False) (fun _ hx => hx)
    (fun b => by
      have := headActionQty_nonneg h id b
      simp only [Slack.exempting]
      omega)
    (fun _ hb => hb)
  refine (congrArg (fun u => Inv { Slack.exempting exempt with owed := u } n _) ?_).mp hstep
  funext i
  exact (Int.add_zero _).trans (headLineQty_eq h hc.stored)

theorem Inv.closeActing (h : Inv (.exempting exempt) n s) (hc : Closes s id head f)
    (ht : head.requestType.holdsStock = false) :
    Inv { Slack.exempting exempt with act := headActionQty s.borrowActionItems id } n
      (closedBy s id f) := by
  have hstep := h.closeHead hc.stored hc.pending hc.closed hc.type
  refine (congrArg₂ (fun u a => Inv { Slack.exempting exempt with owed := u, act := a } n _)
    ?_ ?_).mp hstep
  · funext i
    exact (Int.add_zero _).trans (headLineQty_other h hc.stored ht)
  · funext b
    exact Int.add_zero _

end Closed

/-! ## Side effects -/

def headSettleLines (s : Store) (id : Nat) : RequestType → List SettleLine
  | .return => BorrowService.settleLines s id .return
  | .writeOff => BorrowService.settleLines s id .writeOff
  | .agentSettlement => AgentSettlementService.settleLines s id
  | _ => []

/-- The quota rows after a release: a personal claim releases what it reserved. -/
def quotasReleased (s : Store) (id : Nat) : RequestType → Table QuotaOccupation
  | .consumableRequest => (settleQuotas s id .released).quotaOccupations
  | _ => s.quotaOccupations

/-- A store after a request gave back what it held: items lowered and quotas released. -/
def Released (s : Store) (id : Nat) (type : RequestType) (s' : Store) : Prop :=
  ∃ items, Lowered s.inventoryItems items (heldLines s id type) ∧
    s' = { s with inventoryItems := items, quotaOccupations := quotasReleased s id type }

namespace AssetApprovalSideEffect

variable {id : Nat} {head : ApprovalRequest} {f : ApprovalRequest → ApprovalRequest}

theorem applyApprove_safe {env : Environment} {side : SideHead} {processorId : Nat}
    (h : Inv (.exempting exempt) n s) (hc : Closes s id head f) (hid : side.id = id)
    (htype : side.requestType = head.requestType)
    (hstrips : ∀ i, Strips s.inventoryItems s.borrowRecords
      (headSettleLines s id head.requestType) i → exempt i) :
    (applyApprove env side processorId).safe (fun _ => Inv (.exempting exempt)) n
      (closedBy s id f) := by
  subst hid
  have hheld := h.closeHeld hc
  unfold applyApprove
  rw [htype]
  cases ht : head.requestType with
  | stockIn =>
      rw [ht] at hheld
      exact StockInService.applyApproved_safe hheld
  | stockChange =>
      rw [ht] at hheld
      exact StockChangeService.applyApproved_safe hheld
  | consumableRequest =>
      rw [ht] at hheld
      exact ClaimService.applyApproved_safe hheld
  | agentRequest =>
      rw [ht] at hheld
      exact AgentClaimService.applyApproved_safe hheld
  | «return» =>
      have hacting := h.closeActing hc (by rw [ht]; rfl)
      rw [BorrowService.headActionQty_eq s side.id .return] at hacting
      exact Txn.wp_mono (BorrowService.applyReturnApproved_wp hacting) fun _ _ _ hd => hd.1
  | writeOff =>
      have hacting := h.closeActing hc (by rw [ht]; rfl)
      rw [BorrowService.headActionQty_eq s side.id .writeOff] at hacting
      rw [ht] at hstrips
      exact Txn.wp_mono (BorrowService.applyWriteOffApproved_wp hacting hstrips)
        fun _ _ _ hd => hd.1
  | agentSettlement =>
      rw [ht] at hheld hstrips
      exact AgentSettlementService.applyApproved_safe hheld hstrips

theorem applyRelease_wp {side : SideHead} (h : Inv
      { Slack.exempting exempt with owed := reservedBy (heldLines s side.id side.requestType) }
      n s) :
    (applyRelease side).wp
      (fun _ n' s' => Inv (.exempting exempt) n' s' ∧ n' = n ∧
        Released s side.id side.requestType s') E n s := by
  unfold applyRelease Released
  cases ht : side.requestType with
  | stockChange =>
      rw [ht] at h
      refine Txn.wp_mono (StockChangeService.applyRelease_wp h) ?_
      rintro - n' s' ⟨hinv, rfl, items, rfl, hlow⟩
      exact ⟨hinv, rfl, items, hlow, rfl⟩
  | consumableRequest =>
      rw [ht] at h
      refine Txn.wp_mono (ClaimService.applyRelease_wp h) ?_
      rintro - n' s' ⟨hinv, rfl, items, rfl, hlow⟩
      exact ⟨hinv, rfl, items, hlow, rfl⟩
  | agentRequest =>
      rw [ht] at h
      refine Txn.wp_mono (AgentClaimService.applyRelease_wp h) ?_
      rintro - n' s' ⟨hinv, rfl, items, rfl, hlow⟩
      exact ⟨hinv, rfl, items, hlow, rfl⟩
  | _ =>
      rw [ht] at h
      exact ⟨h, rfl, s.inventoryItems, .nil _, rfl⟩

end AssetApprovalSideEffect

/-! ## Processing -/

theorem wp_liftExcept {α : Type} {Q : α → Nat → Store → Prop} {r : Except Failure α} :
    (liftExcept r).wp Q E n s ↔ (∀ a, r = .ok a → Q a n s) ∧ (∀ e, r = .error e → E e) := by
  cases r <;> simp [liftExcept]

theorem readOnly_liftExcept {α : Type} (r : Except Failure α) : (liftExcept r : Tx α).ReadOnly := by
  cases r with
  | ok a => exact Txn.readOnly_pure a
  | error e => exact Txn.readOnly_throw e

variable {head : ApprovalRequest}

namespace AssetApprovalService

theorem readOnly_assertCanAccessRequest (access : FunctionAccess) (requestType : RequestType) :
    (assertCanAccessRequest access requestType).ReadOnly :=
  (Txn.readOnly_guard _ _).bind fun _ => (Txn.readOnly_guard _ _).bind fun _ =>
    (Txn.readOnly_guard _ _).bind fun _ => Txn.readOnly_guard _ _

theorem readOnly_assertScopeCovers (env : Environment) (id : Nat) (requestType : RequestType)
    (userId : Nat) : (assertScopeCovers env id requestType userId).ReadOnly := by
  unfold assertScopeCovers
  split
  · exact (Txn.readOnly_query _).bind fun _ => readOnly_liftExcept _
  · exact Txn.readOnly_pure _

theorem closes_of_pendingAt {id version : Nat} {f : ApprovalRequest → ApprovalRequest}
    (hid : s.approvalRequests.find? id = some head) (hat : pendingAt s id version = true)
    (hclosed : (f head).status ≠ .pending) (htype : ∀ r, (f r).requestType = r.requestType) :
    Closes s id head f := by
  obtain ⟨r, hr, hp, -⟩ := pendingAt_iff.mp hat
  obtain rfl : head = r := by simpa [hid] using hr
  exact ⟨hid, hp, hclosed, htype⟩

variable {env : Environment}

variable {transition : ResolvedTransition} {opinion : Option String} {decision : Decision}

theorem processInner_safe {id processorId : Nat} (h : Inv (.exempting exempt) n s)
    (hterminal : transition.status ≠ .pending)
    (hstrips : ∀ head, s.approvalRequests.find? id = some head → decision = .approve →
      ∀ i, Strips s.inventoryItems s.borrowRecords
        (headSettleLines s id head.requestType) i → exempt i) :
    (processInner env id decision transition processorId opinion).safe
      (fun _ => Inv (.exempting exempt)) n s := by
  unfold processInner
  rw [Txn.safe, Txn.wp_bind, Txn.wp_query, Txn.wp_bind]
  refine Txn.safe_orThrow fun head hid => ?_
  rw [Txn.wp_bind]
  refine (readOnly_assertCanAccessRequest _ _).safe fun _ => ?_
  rw [Txn.wp_bind]
  refine Txn.safe_guard fun _ => ?_
  rw [Txn.wp_bind]
  refine (readOnly_liftExcept _).safe fun _ => ?_
  rw [Txn.wp_bind]
  refine (readOnly_assertScopeCovers env _ _ _).safe fun _ => ?_
  rw [Txn.wp_bind, wp_approvalRequestTransition]
  refine ⟨fun hat => ?_, fun _ => trivial⟩
  have hc := closes_of_pendingAt (f := markProcessed env transition.status processorId opinion)
    hid hat hterminal fun _ => rfl
  rw [Txn.wp_bind]
  refine (readOnly_liftExcept _).safe fun _ => ?_
  unfold completeProcess
  dsimp only
  cases decision with
  | approve =>
      rw [Txn.wp_bind]
      refine Txn.wp_mono (AssetApprovalSideEffect.applyApprove_safe h hc rfl rfl
        (hstrips head hid rfl)) ?_
      rintro - n₁ s₁ h₁
      rw [Txn.wp_bind]
      exact approvalActionCreate_safe (h₁.insertAction _)
  | reject =>
      rw [Txn.wp_bind]
      refine Txn.wp_mono (AssetApprovalSideEffect.applyRelease_wp (h.closeHeld hc)) ?_
      rintro - n₁ s₁ ⟨h₁, -, -⟩
      rw [Txn.wp_bind]
      exact approvalActionCreate_safe (h₁.insertAction _)

theorem process_safe {id processorId : Nat} (h : Inv (.exempting exempt) n s)
    (hstrips : ∀ head, s.approvalRequests.find? id = some head → decision = .approve →
      ∀ i, Strips s.inventoryItems s.borrowRecords
        (headSettleLines s id head.requestType) i → exempt i) :
    (process env id decision processorId opinion).safe (fun _ => Inv (.exempting exempt)) n s := by
  unfold process
  rw [Txn.safe, Txn.wp_bind, wp_liftExcept]
  refine ⟨fun transition htransition => ?_, fun _ _ => trivial⟩
  rw [Txn.wp_bind]
  refine (readOnly_liftExcept _).safe fun _ => processInner_safe h ?_ hstrips
  have hcloses := (resolveProcessTransition_closes htransition).1
  rintro hpending
  rw [hpending] at hcloses
  cases hcloses

theorem cancelInner_safe {id actorId : Nat} (h : Inv (.exempting exempt) n s) :
    (cancelInner env id actorId transition).safe (fun _ => Inv (.exempting exempt)) n s := by
  unfold cancelInner
  rw [Txn.safe, Txn.wp_bind, Txn.wp_query, Txn.wp_bind]
  refine Txn.safe_orThrow fun head hid => ?_
  rw [Txn.wp_bind]
  refine Txn.safe_guard fun _ => ?_
  rw [Txn.wp_bind]
  refine (readOnly_liftExcept _).safe fun _ => ?_
  rw [Txn.wp_bind]
  refine (readOnly_liftExcept _).safe fun _ => ?_
  rw [Txn.wp_bind, wp_approvalRequestTransition]
  refine ⟨fun hat => ?_, fun _ => trivial⟩
  have hc := closes_of_pendingAt (f := markCancelled env actorId) hid hat
    (by simp [markCancelled]) fun _ => rfl
  rw [Txn.wp_bind]
  refine (readOnly_liftExcept _).safe fun _ => ?_
  unfold completeCancel
  rw [Txn.wp_bind]
  refine Txn.wp_mono (AssetApprovalSideEffect.applyRelease_wp (h.closeHeld hc)) ?_
  rintro - n₁ s₁ ⟨h₁, -, -⟩
  rw [Txn.wp_bind]
  exact approvalActionCreate_safe (h₁.insertAction _)

theorem cancel_safe {id actorId : Nat} (h : Inv (.exempting exempt) n s) :
    (cancel env id actorId).safe (fun _ => Inv (.exempting exempt)) n s := by
  unfold cancel
  rw [Txn.safe, Txn.wp_bind]
  exact (readOnly_liftExcept _).safe fun transition => cancelInner_safe h

end AssetApprovalService

/-! ## Overdue heads -/

variable {lines : List ReservedLine}

theorem Lowered.unique {items items₁ items₂ : Table InventoryItem} (h₁ : Lowered items items₁ lines)
    (h₂ : Lowered items items₂ lines) : items₁ = items₂ :=
  Table.ext_find? fun j => (h₁ j).trans (h₂ j).symm

theorem exists_lowered (h : Inv { Slack.exempting exempt with owed := reservedBy lines } n s)
    (hq : ∀ line ∈ lines, 0 < line.qty) :
    ∃ items, Lowered s.inventoryItems items lines ∧
      Inv (.exempting exempt) n { s with inventoryItems := items } := by
  have hrelease := releaseLines_wp (E := fun _ => False) (k := .exempting exempt)
    (by simpa [Slack.exempting] using h) hq fun i => Int.le_refl 0
  obtain ⟨-, n', s', -, hinv, rfl, items, rfl, hlow⟩ := Txn.run_ok_of_wp hrelease
  exact ⟨items, hlow, hinv⟩

namespace OverdueWorker

theorem releasedQty_eq (lines : List ReservedLine) (i : Nat) :
    releasedQty lines i = reservedBy lines i := rfl

theorem reservedBy_eq_zero {i : Nat}
    (h : lines.any (fun line => line.inventoryItemId == i) = false) : reservedBy lines i = 0 :=
  sumOn_eq_zero fun line hline he => by
    rw [List.any_eq_false] at h
    exact h line hline (by simpa using he)

theorem releaseGrouped_wp {linesOf : Store → List ReservedLine}
    (h : Inv { Slack.exempting exempt with owed := reservedBy (linesOf s) } n s)
    (hq : ∀ line ∈ linesOf s, 0 < line.qty) :
    (releaseGrouped linesOf).wp
      (fun _ n' s' => Inv (.exempting exempt) n' s' ∧ n' = n ∧
        ∃ items, s' = { s with inventoryItems := items } ∧
          Lowered s.inventoryItems items (linesOf s)) E n s := by
  obtain ⟨items, hlow, hinv⟩ := exists_lowered h hq
  have hgrouped : Lowered s.inventoryItems (s.inventoryItems.alter (fun id r =>
      some (if (linesOf s).any (fun line => line.inventoryItemId == id) = true then
        { r with reservedQty := r.reservedQty - releasedQty (linesOf s) id } else r)))
      (linesOf s) := by
    intro j
    rw [Table.find?_alter]
    cases s.inventoryItems.find? j with
    | none => rfl
    | some r =>
        cases hhit : (linesOf s).any (fun line => line.inventoryItemId == j) with
        | true => simp [releasedQty_eq]
        | false => simp [reservedBy_eq_zero hhit]
  have hsame := hgrouped.unique hlow
  unfold releaseGrouped
  rw [Txn.wp_act]
  dsimp only
  have hchecks : (s.inventoryItems.select (fun id r =>
      (linesOf s).any (fun line => line.inventoryItemId == id) &&
        !({ r with reservedQty := r.reservedQty - releasedQty (linesOf s) id } :
          InventoryItem).quantitiesOk)).isEmpty = true := by
    rw [← Bool.not_eq_false', isEmpty_select]
    intro j r hr
    have hj := hlow j
    rw [hr, Option.map_some] at hj
    have hok := quantitiesOk_iff.mpr (hinv.stock.quantities j _ hj)
    rw [releasedQty_eq, hok, Bool.not_true, Bool.and_false]
  rw [if_pos hchecks]
  dsimp only
  rw [hsame]
  exact ⟨hinv, rfl, items, rfl, hlow⟩

theorem releaseAssetReservation_wp (row : OverdueApprovalRow) (h : Inv
      { Slack.exempting exempt with owed := reservedBy (heldLines s row.id row.requestType) }
      n s) :
    (releaseAssetReservation row).wp
      (fun _ n' s' => Inv (.exempting exempt) n' s' ∧ n' = n ∧
        Released s row.id row.requestType s') E n s := by
  have hpos := heldLines_pos h row.id row.requestType
  unfold releaseAssetReservation Released
  cases ht : row.requestType with
  | stockChange =>
      rw [ht] at h hpos
      refine Txn.wp_mono (releaseGrouped_wp h hpos) ?_
      rintro - n' s' ⟨hinv, rfl, items, rfl, hlow⟩
      exact ⟨hinv, rfl, items, hlow, rfl⟩
  | consumableRequest =>
      rw [ht] at h hpos
      rw [Txn.wp_bind]
      refine Txn.wp_mono (releaseGrouped_wp h hpos) ?_
      rintro - n' s' ⟨hinv, rfl, items, rfl, hlow⟩
      exact quotaOccupationSettle_wp ⟨hinv.updateQuotas _ _, rfl, items, hlow, rfl⟩
  | agentRequest =>
      rw [ht] at h hpos
      refine Txn.wp_mono (releaseGrouped_wp h hpos) ?_
      rintro - n' s' ⟨hinv, rfl, items, rfl, hlow⟩
      exact ⟨hinv, rfl, items, hlow, rfl⟩
  | _ =>
      rw [ht] at h
      exact ⟨h, rfl, s.inventoryItems, .nil _, rfl⟩

variable {row : OverdueApprovalRow}

theorem autoCancelOverdueRow_safe {now : Int} (h : Inv (.exempting exempt) n s)
    (hid : s.approvalRequests.find? row.id = some head)
    (htype : row.requestType = head.requestType) :
    (autoCancelOverdueRow row now).safe (fun _ => Inv (.exempting exempt)) n s := by
  unfold autoCancelOverdueRow
  rw [Txn.safe, Txn.wp_bind, wp_approvalRequestTransition]
  refine ⟨fun hat => ?_, fun _ => h⟩
  have hc := AssetApprovalService.closes_of_pendingAt (f := markOverdue now) hid hat
    (by simp [markOverdue]) fun _ => rfl
  have hheld := h.closeHeld hc
  rw [← htype] at hheld
  rw [if_neg Nat.one_ne_zero, Txn.wp_bind]
  refine approvalActionCreate_safe ?_
  rw [Txn.wp_bind]
  refine Txn.wp_mono (releaseAssetReservation_wp row (hheld.insertAction _)) ?_
  rintro - n' s' ⟨hinv, -, -⟩
  exact hinv

theorem scanOverdue_eq_some {cutoff : Int} {id : Nat} :
    scanOverdue s cutoff id = some row ↔ ∃ r, s.approvalRequests.find? id = some r ∧
      r.status = .pending ∧ r.submittedAt.any (fun t => t < cutoff) = true ∧
        row = ⟨id, r.version, r.requestType⟩ := by
  unfold scanOverdue
  rw [Option.bind_eq_some_iff]
  refine exists_congr fun r => and_congr_right fun _ => ?_
  constructor
  · intro h
    split at h
    · exact ⟨(‹_ ∧ _›).1, (‹_ ∧ _›).2, (Option.some.inj h).symm⟩
    · cases h
  · rintro ⟨hp, ho, rfl⟩
    rw [if_pos ⟨hp, ho⟩]

theorem cancelOverdue_safe {cutoff now : Int} {id : Nat} (h : Inv (.exempting exempt) n s) :
    (cancelOverdue cutoff now id).safe (fun _ => Inv (.exempting exempt)) n s := by
  unfold cancelOverdue
  rw [Txn.safe, Txn.wp_bind, Txn.wp_query]
  split
  · exact h
  · rename_i row hrow
    obtain ⟨r, hr, -, -, rfl⟩ := scanOverdue_eq_some.mp hrow
    exact autoCancelOverdueRow_safe h hr rfl

end OverdueWorker

end Wbme.Asset
