import Wbme.Asset.Stock

/-! # Loans in every reachable world

A borrow record carries what is returned, written off and asked for by pending
actions; its allocations carry the same issue and the same returns. Therefore
nothing but the approver's own access can stop the approval of a return or a
write-off.
-/

namespace Wbme.Asset

open Lib Approval

/-! ## Records -/

/-- A borrow record has room for its pending actions and agrees with its allocations, whose
batches are where the record's item is. -/
structure LoanAgrees (s : Store) (id : Nat) (r : BorrowRecord) : Prop where
  room : r.returnedQty + r.writtenOffQty +
    occupiedQty s.approvalRequests s.borrowActionItems id ≤ r.qty
  issued : issuedOf s.borrowBatchAllocations id = r.qty
  returned : returnedOf s.borrowBatchAllocations id = r.returnedQty
  home : ∀ k a, s.borrowBatchAllocations.find? k = some a → a.borrowRecordId = id →
    ∃ b, s.batches.find? a.batchId = some b ∧ b.inventoryItemId = r.inventoryItemId
  item : 0 < r.openQty → (s.inventoryItems.find? r.inventoryItemId).isSome

variable {exempt : Nat → Prop}

theorem World.Ok.loanAgrees {w : World} (h : w.Ok exempt) {id : Nat} {r : BorrowRecord}
    (hr : w.store.borrowRecords.find? id = some r) : LoanAgrees w.store id r where
  room := by
    have hocc := h.occupied id
    rw [openOf, Table.valueAt_of_find? hr] at hocc
    simp only [Slack.exempting, BorrowRecord.openQty] at hocc
    omega
  issued := by
    have hissued := h.allocations.issued id
    rw [Table.valueAt_of_find? hr] at hissued
    exact (Int.add_zero _).symm.trans hissued
  returned := by
    have hreturned := h.allocations.returned id
    rw [Table.valueAt_of_find? hr] at hreturned
    exact hreturned.trans (Int.add_zero _)
  home := by
    rintro k a ha rfl
    obtain ⟨b, r', hb, hr', hitem⟩ := h.allocations.home k a ha
    obtain rfl : r = r' := by simpa [hr] using hr'
    exact ⟨b, hb, hitem⟩
  item := h.records.item id r hr

namespace AssetApprovalService

/-- What an approver has to pass before a head is touched. -/
def approverCheck (env : Environment) (id : Nat) (requestType : RequestType)
    (processorId : Nat) : Tx Unit := do
  assertCanAccessRequest (env.access processorId) requestType
  assertScopeCovers env id requestType processorId

variable (env : Environment)

theorem readOnly_approverCheck (id : Nat) (requestType : RequestType) (processorId : Nat) :
    (approverCheck env id requestType processorId).ReadOnly :=
  (readOnly_assertCanAccessRequest _ _).bind fun _ => readOnly_assertScopeCovers env _ _ _

theorem approverCheck_error {n : Nat} {s : Store} (id : Nat) (requestType : RequestType)
    (processorId : Nat) :
    (approverCheck env id requestType processorId).wp (fun _ _ _ => True)
      (fun e => e ≠ .of .stockConflict) n s := by
  unfold approverCheck assertCanAccessRequest assertScopeCovers
  simp only [Txn.wp_bind, Txn.wp_guard]
  refine ⟨fun _ => ⟨fun _ => ⟨fun _ => ⟨fun _ => ?_, fun _ => ?_⟩, fun _ => ?_⟩, fun _ => ?_⟩,
    fun _ => ?_⟩
  · split
    · rw [Txn.wp_bind, Txn.wp_query, wp_liftExcept]
      refine ⟨fun _ _ => trivial, fun e he => ?_⟩
      unfold assertScopeCoversAll at he
      split at he <;> cases he
      simp [Failure.of]
    · trivial
  all_goals simp [Failure.of]

variable {head : ApprovalRequest}

theorem completeProcess_settles {n : Nat} {s : Store} {env : Environment} {id processorId : Nat}
    {action : ApprovalAction} {opinion : Option String} {f : ApprovalRequest → ApprovalRequest}
    (h : Inv (.exempting exempt) n s) (hc : Closes s id head f)
    (ht : head.requestType = .return ∨ head.requestType = .writeOff) :
    (completeProcess env id head .approve action processorId opinion).wp (fun _ _ _ => True)
      (fun _ => False) n (closedBy s id f) := by
  have hhead : ((closedBy s id f).approvalRequests.find? id).isSome := by
    rw [closedBy, Table.find?_update_of_find? hc.stored]
    rfl
  have hany := h.weaken (e := fun _ => True) (fun _ _ => trivial)
    (fun _ => Int.le_refl _) (fun _ hb => hb)
  have hacting := hany.closeActing hc (by rcases ht with ht | ht <;> rw [ht] <;> rfl)
  have hside : (AssetApprovalSideEffect.applyApprove env
      (sideHead id head (some processorId) (some (env.userName processorId))) processorId).wp
      (fun _ n' s' => s'.approvalRequests = (closedBy s id f).approvalRequests)
      (fun _ => False) n (closedBy s id f) := by
    unfold AssetApprovalSideEffect.applyApprove
    rcases ht with ht | ht
    · rw [BorrowService.headActionQty_eq s id .return] at hacting
      rw [show (sideHead id head (some processorId) (some (env.userName processorId))).requestType =
        .return from ht]
      exact Txn.wp_mono (BorrowService.applyReturnApproved_wp hacting) fun _ _ _ hd => hd.2
    · rw [BorrowService.headActionQty_eq s id .writeOff] at hacting
      rw [show (sideHead id head (some processorId) (some (env.userName processorId))).requestType =
        .writeOff from ht]
      exact Txn.wp_mono (BorrowService.applyWriteOffApproved_wp hacting fun _ _ => trivial)
        fun _ _ _ hd => hd.2
  unfold completeProcess
  dsimp only
  rw [Txn.wp_bind]
  refine Txn.wp_mono hside ?_
  rintro - n' s' hsame
  rw [Txn.wp_bind]
  exact approvalActionCreate_ok (by rw [hsame]; exact hhead) trivial

def closeApproved (env : Environment) (id : Nat) (head : ApprovalRequest) (processorId : Nat)
    (opinion : Option String) : Tx Unit := do
  let updated ← approvalRequestTransition id head.version
    (markProcessed env .approved processorId opinion)
  liftExcept (throwIfTransitionLost updated)
  completeProcess env id head .approve .approve processorId opinion

theorem run_process_approve {env : Environment} {id processorId n : Nat} {s : Store}
    {opinion : Option String} (hid : s.approvalRequests.find? id = some head)
    (hp : head.status = .pending) :
    (process env id .approve processorId opinion).run n s =
      (approverCheck env id head.requestType processorId >>= fun _ =>
        closeApproved env id head processorId opinion).run n s := by
  have hpending : (Txn.guard (head.status == .pending) (.of .statusConflict) : Tx Unit) =
      pure () := by rw [hp]; rfl
  have hallowed : (liftExcept (assertTransitionAllowed head.status .approved) : Tx Unit) =
      pure () := by rw [hp]; rfl
  change (processInner env id .approve ⟨.approved, .approve, none, false⟩ processorId
    opinion).run n s = _
  unfold processInner
  change ((Txn.orThrow (s.approvalRequests.find? id) (.of .resourceNotFound) : Tx _) >>=
    _).run n s = _
  rw [hid]
  change (assertCanAccessRequest (env.access processorId) head.requestType >>= fun _ =>
    Txn.guard (head.status == .pending) (.of .statusConflict) >>= fun _ =>
      liftExcept (assertTransitionAllowed head.status .approved) >>= _).run n s = _
  rw [hpending, hallowed, approverCheck, bind_assoc]
  rfl

theorem process_error_iff {n : Nat} {s : Store} {id : Nat} (processorId : Nat)
    (opinion : Option String) (h : Inv (.exempting exempt) n s)
    (hid : s.approvalRequests.find? id = some head) (hp : head.status = .pending)
    (ht : head.requestType = .return ∨ head.requestType = .writeOff) (e : Failure) :
    (process env id .approve processorId opinion).run n s = .error e ↔
      (approverCheck env id head.requestType processorId).run n s = .error e := by
  have hclose : (closeApproved env id head processorId opinion).wp (fun _ _ _ => True)
      (fun _ => False) n s := by
    have hat : pendingAt s id head.version = true := pendingAt_iff.mpr ⟨head, hid, hp, rfl⟩
    unfold closeApproved
    rw [Txn.wp_bind, wp_approvalRequestTransition]
    refine ⟨fun _ => ?_, fun hno => by rw [hat] at hno; cases hno⟩
    rw [Txn.wp_bind]
    exact completeProcess_settles h (closes_of_pendingAt hid hat (by simp [markProcessed])
      fun _ => rfl) ht
  obtain ⟨u, n', s', hrun, -⟩ := Txn.run_ok_of_wp hclose
  rw [run_process_approve hid hp, Txn.run_bind]
  obtain ⟨u', hcheck⟩ | ⟨e', hcheck⟩ :=
    (readOnly_approverCheck env id head.requestType processorId).run n s
  · rw [hcheck]
    dsimp only
    rw [hrun]
    simp
  · rw [hcheck]

end AssetApprovalService

/-- In every reachable world every record agrees with its allocations and has room for its
pending actions. So the approval of a pending return or write-off succeeds for every approver
with access to it; without access it fails for that reason, and never for want of stock. -/
theorem loans_of_reachable {w : World} (h : Reachable w) :
    (∀ id r, w.store.borrowRecords.find? id = some r → LoanAgrees w.store id r) ∧
      ∀ env id head processorId opinion, w.store.approvalRequests.find? id = some head →
        head.status = .pending → (head.requestType = .return ∨ head.requestType = .writeOff) →
        ((∃ r, (AssetApprovalService.approverCheck env id head.requestType processorId).run
            w.seq w.store = .ok r) →
          ∃ r, (AssetApprovalService.process env id .approve processorId opinion).run
            w.seq w.store = .ok r) ∧
        ∀ e, (AssetApprovalService.process env id .approve processorId opinion).run
            w.seq w.store = .error e →
          (AssetApprovalService.approverCheck env id head.requestType processorId).run
            w.seq w.store = .error e ∧ e ≠ .of .stockConflict := by
  refine ⟨fun _ _ hr => h.ok.loanAgrees hr, fun env id head processorId opinion hid hp ht => ?_⟩
  have hiff := AssetApprovalService.process_error_iff env processorId opinion h.ok hid hp ht
  refine ⟨fun ⟨r, hr⟩ => ?_, fun e he => ?_⟩
  · cases hrun : (AssetApprovalService.process env id .approve processorId opinion).run
      w.seq w.store with
    | ok r => exact ⟨r, rfl⟩
    | error e =>
        rw [(hiff e).mp hrun] at hr
        cases hr
  · have hcheck := (hiff e).mp he
    have herror := Txn.wp_of_run_error
      (AssetApprovalService.approverCheck_error env id head.requestType processorId) hcheck
    exact ⟨hcheck, herror⟩

/-- The drills' record has room for the return that is asked for, and the return can be
approved. -/
theorem loans_asking :
    (∃ r, r.qty = 4 ∧ LoanAgrees (World.init.run Sample.asking).store 14 r) ∧
      ∃ r, (AssetApprovalService.process (Sample.environment "") 17 .approve 7 none).run
        (World.init.run Sample.asking).seq (World.init.run Sample.asking).store = .ok r := by
  have hloans := loans_of_reachable (reachable_run Sample.asking)
  have hrecord : ((World.init.run Sample.asking).store.borrowRecords.find? 14).map
      BorrowRecord.qty = some 4 := by decide +kernel
  have hhead : ((World.init.run Sample.asking).store.approvalRequests.find? 17).map
      (fun h => (h.status, h.requestType)) = some (.pending, .return) := by decide +kernel
  obtain ⟨r, hr, hqty⟩ := Option.map_eq_some_iff.mp hrecord
  obtain ⟨head, hid, hfields⟩ := Option.map_eq_some_iff.mp hhead
  simp only [Prod.mk.injEq] at hfields
  refine ⟨⟨r, hqty, hloans.1 14 r hr⟩, ?_⟩
  refine (hloans.2 _ 17 head 7 none hid hfields.1 (.inl hfields.2)).1 ?_
  rw [hfields.2]
  exact ⟨_, rfl⟩

end Wbme.Asset
