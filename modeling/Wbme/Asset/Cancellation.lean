import Wbme.Asset.Loans

/-! # The two ways to cancel

The service cancels for the applicant, the worker for heads that are overdue. The
service gives back line by line what the worker gives back with one grouped
update; both always succeed on a pending head, and leave the same items, quotas
and head states.
-/

namespace Wbme.Asset

open Lib Approval

variable {n : Nat} {s : Store} {exempt : Nat → Prop} {E : Failure → Prop}

def pendingHeads (s : Store) : Table ApprovalRequest :=
  s.approvalRequests.deleteMany (fun _ r => r.status != .pending)

def headState (s : Store) (id : Nat) : Option (RequestType × ApprovalStatus × Nat) :=
  (s.approvalRequests.find? id).map (fun r => (r.requestType, r.status, r.version))

structure CancelEffect (s : Store) (id : Nat) (head : ApprovalRequest) (s' : Store) : Prop where
  items : Lowered s.inventoryItems s'.inventoryItems (heldLines s id head.requestType)
  quotas : s'.quotaOccupations = quotasReleased s id head.requestType
  self : headState s' id = some (head.requestType, .cancelled, head.version + 1)
  others : ∀ j, j ≠ id → s'.approvalRequests.find? j = s.approvalRequests.find? j

variable {head : ApprovalRequest}

variable {id : Nat}

theorem CancelEffect.unique {s₁ s₂ : Store} (h₁ : CancelEffect s id head s₁)
    (h₂ : CancelEffect s id head s₂) :
    s₁.inventoryItems = s₂.inventoryItems ∧ s₁.quotaOccupations = s₂.quotaOccupations ∧
      headState s₁ = headState s₂ := by
  refine ⟨h₁.items.unique h₂.items, h₁.quotas.trans h₂.quotas.symm, funext fun j => ?_⟩
  by_cases hj : j = id
  · subst hj
    exact h₁.self.trans h₂.self.symm
  · rw [headState, headState, h₁.others j hj, h₂.others j hj]

theorem CancelEffect.pendingHeads {s' : Store} (h : CancelEffect s id head s') :
    pendingHeads s' = (pendingHeads s).deleteMany (fun j _ => j == id) := by
  refine Table.ext_find? fun j => ?_
  unfold Asset.pendingHeads
  rw [Table.find?_deleteMany, Table.find?_deleteMany, Table.find?_deleteMany]
  by_cases hj : j = id
  · subst hj
    obtain ⟨r, hr, hstate⟩ := Option.map_eq_some_iff.mp h.self
    simp only [Prod.mk.injEq] at hstate
    rw [hr]
    cases s.approvalRequests.find? j with
    | none => simp [hstate.2.1]
    | some r' => by_cases hp : r'.status = .pending <;> simp [hstate.2.1, hp]
  · rw [h.others j hj]
    cases s.approvalRequests.find? j with
    | none => rfl
    | some r' => by_cases hp : r'.status = .pending <;> simp [hp, hj]

theorem cancelEffect_of_released {f : ApprovalRequest → ApprovalRequest}
    {actions : Table ApprovalActionRecord} {s' : Store} (hc : Closes s id head f)
    (hcancelled : (f head).status = .cancelled) (hversion : (f head).version = head.version + 1)
    (hreleased : Released { closedBy s id f with approvalActions := actions } id
      head.requestType s') : CancelEffect s id head s' := by
  obtain ⟨items, hlow, rfl⟩ := hreleased
  refine ⟨hlow, rfl, ?_, fun j hj => Table.find?_update_ne _ _ hj⟩
  simp [headState, closedBy, hc.stored, hcancelled, hversion, hc.type]

/-! ## Both cancellations succeed -/

theorem AssetApprovalService.cancel_wp {env : Environment} {id actorId : Nat}
    (h : Inv (.exempting exempt) n s) (hid : s.approvalRequests.find? id = some head)
    (hp : head.status = .pending)
    (hactor : head.applicantId = actorId ∨ head.proxyId = some actorId) :
    (cancel env id actorId).wp (fun _ _ s' => CancelEffect s id head s') E n s := by
  have hat : pendingAt s id head.version = true := pendingAt_iff.mpr ⟨head, hid, hp, rfl⟩
  have hc : Closes s id head (markCancelled env actorId) :=
    ⟨hid, hp, by simp [markCancelled], fun _ => rfl⟩
  change Txn.wp (cancelInner env id actorId ⟨.cancelled, .cancel, some .user, false⟩) _ _ _ _
  unfold cancelInner
  rw [Txn.wp_bind, Txn.wp_query, Txn.wp_bind, hid]
  change Txn.wp (Txn.guard (head.applicantId == actorId || head.proxyId == some actorId) _ >>= _)
    _ _ _ _
  rw [Txn.wp_bind, Txn.wp_guard]
  refine ⟨fun _ => ?_, fun hno => ?_⟩
  swap
  · rw [Bool.or_eq_false_iff] at hno
    rcases hactor with ha | ha <;> simp [ha] at hno
  rw [Txn.wp_bind, hp]
  change Txn.wp (approvalRequestTransition id head.version _ >>= _) _ _ _ _
  rw [Txn.wp_bind, wp_approvalRequestTransition]
  refine ⟨fun _ => ?_, fun hno => by rw [hat] at hno; cases hno⟩
  change Txn.wp (completeCancel env id head actorId) _ _ _ _
  unfold completeCancel
  rw [Txn.wp_bind]
  refine Txn.wp_mono (AssetApprovalSideEffect.applyRelease_wp (h.closeHeld hc)) ?_
  rintro - n' s' ⟨-, rfl, hreleased⟩
  have heffect := cancelEffect_of_released hc rfl rfl hreleased
  rw [Txn.wp_bind]
  refine approvalActionCreate_ok ?_ { heffect with }
  obtain ⟨r, hr, -⟩ := Option.map_eq_some_iff.mp heffect.self
  rw [hr]
  rfl

theorem OverdueWorker.autoCancelOverdueRow_wp {now : Int} (h : Inv (.exempting exempt) n s)
    (hid : s.approvalRequests.find? id = some head) (hp : head.status = .pending) :
    (autoCancelOverdueRow ⟨id, head.version, head.requestType⟩ now).wp
      (fun cancelled _ s' => cancelled = true ∧ CancelEffect s id head s') E n s := by
  have hat : pendingAt s id head.version = true := pendingAt_iff.mpr ⟨head, hid, hp, rfl⟩
  have hc : Closes s id head (markOverdue now) :=
    ⟨hid, hp, by simp [markOverdue], fun _ => rfl⟩
  unfold autoCancelOverdueRow
  rw [Txn.wp_bind, wp_approvalRequestTransition]
  refine ⟨fun _ => ?_, fun hno => by rw [hat] at hno; cases hno⟩
  rw [if_neg Nat.one_ne_zero, Txn.wp_bind]
  refine approvalActionCreate_ok (by simp [hid]) ?_
  rw [Txn.wp_bind]
  refine Txn.wp_mono (releaseAssetReservation_wp
    ⟨id, head.version, head.requestType⟩ ((h.closeHeld hc).insertAction _)) ?_
  rintro - n' s' ⟨-, rfl, hreleased⟩
  exact ⟨rfl, cancelEffect_of_released hc rfl rfl hreleased⟩

/-- In every reachable world a pending head can be cancelled by its applicant, its proxy and the
worker. All leave the same items, quotas, head states and pending heads: the items lowered by the
lines of the head, the quotas it reserved released, the head cancelled one version later, and
every other head as it was. -/
theorem cancel_eq_autoCancel {w : World} (h : Reachable w) (env : Environment) (now : Int)
    {id actorId : Nat} {head : ApprovalRequest}
    (hid : w.store.approvalRequests.find? id = some head) (hp : head.status = .pending)
    (hactor : head.applicantId = actorId ∨ head.proxyId = some actorId) :
    ∃ n₁ s₁ n₂ s₂,
      (AssetApprovalService.cancel env id actorId).run w.seq w.store = .ok ((), n₁, s₁) ∧
      (OverdueWorker.autoCancelOverdueRow ⟨id, head.version, head.requestType⟩ now).run
        w.seq w.store = .ok (true, n₂, s₂) ∧
      CancelEffect w.store id head s₁ ∧ CancelEffect w.store id head s₂ ∧
      s₁.inventoryItems = s₂.inventoryItems ∧ s₁.quotaOccupations = s₂.quotaOccupations ∧
      headState s₁ = headState s₂ ∧ pendingHeads s₁ = pendingHeads s₂ := by
  obtain ⟨u, n₁, s₁, hrun₁, heffect₁⟩ := Txn.run_ok_of_wp
    (AssetApprovalService.cancel_wp h.ok hid hp hactor)
  obtain ⟨b, n₂, s₂, hrun₂, rfl, heffect₂⟩ := Txn.run_ok_of_wp
    (OverdueWorker.autoCancelOverdueRow_wp h.ok hid hp)
  obtain ⟨hitems, hquotas, hheads⟩ := heffect₁.unique heffect₂
  exact ⟨n₁, s₁, n₂, s₂, hrun₁, hrun₂, heffect₁, heffect₂, hitems, hquotas, hheads,
    heffect₁.pendingHeads.trans heffect₂.pendingHeads.symm⟩

/-- The pending claim on the drills, cancelled either way, gives back all four. -/
theorem cancel_eq_autoCancel_claiming : ∃ s₁ s₂ : Store,
    (s₁.inventoryItems.find? 5).map (·.reservedQty) = some 0 ∧
      s₁.inventoryItems = s₂.inventoryItems ∧ s₁.quotaOccupations = s₂.quotaOccupations := by
  have hhead : ((World.init.run Sample.claiming).store.approvalRequests.find? 9).map
      (fun h => (h.status, h.applicantId)) = some (.pending, 9) := by decide +kernel
  obtain ⟨head, hid, hfields⟩ := Option.map_eq_some_iff.mp hhead
  simp only [Prod.mk.injEq] at hfields
  obtain ⟨n₁, s₁, n₂, s₂, hrun, -, -, -, hitems, hquotas, -⟩ :=
    cancel_eq_autoCancel (reachable_run Sample.claiming) (Sample.environment "") 0 hid hfields.1
      (.inl hfields.2)
  have hreserved : ((AssetApprovalService.cancel (Sample.environment "") 9 9).run
      (World.init.run Sample.claiming).seq (World.init.run Sample.claiming).store).toOption.map
      (fun r => (r.2.2.inventoryItems.find? 5).map (·.reservedQty)) = some (some 0) := by
    decide +kernel
  rw [hrun] at hreserved
  exact ⟨s₁, s₂, Option.some.inj hreserved, hitems, hquotas⟩

end Wbme.Asset
