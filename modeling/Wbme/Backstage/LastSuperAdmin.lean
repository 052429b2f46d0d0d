import Wbme.Backstage.UserLocks

/-! # The last super administrator

Every operation that changes the site role or the lifecycle of accounts, amid any others of
them. Appointments and restores take the role of no account that can use it, and a demotion
locks all that can before it counts them. A batch of deactivations reads its targets before
it locks: an account that became a super administrator in between is not counted.
-/

namespace Wbme.Backstage

open Lib UserLifecycleService

/-! ## Operations -/

/-- A request to the user administration. -/
inductive UserOperation where
  | appoint (operatorId targetUserId : Nat) (idempotencyKey : Option String) (fingerprint : String)
  | demote (operatorId targetUserId : Nat) (idempotencyKey : Option String) (fingerprint : String)
  | batchDeactivate (operatorId : Nat) (dto : BatchDeactivate) (fingerprint : String)
  | confirmRestore (operatorId : Nat) (dto : RestoreConfirm) (fingerprint : String)

/-- A request with the outside world as it meets it. -/
structure UserActivity where
  env : BackstageEnvironment
  operation : UserOperation

def UserActivity.call (a : UserActivity) : BackstageCall :=
  match a.operation with
  | .appoint operatorId targetUserId idempotencyKey fingerprint =>
      SuperAdminService.appoint a.env operatorId targetUserId idempotencyKey fingerprint
  | .demote operatorId targetUserId idempotencyKey fingerprint =>
      SuperAdminService.demote a.env operatorId targetUserId idempotencyKey fingerprint
  | .batchDeactivate operatorId dto fingerprint =>
      UserLifecycleService.batchDeactivate a.env operatorId dto fingerprint
  | .confirmRestore operatorId dto fingerprint =>
      UserLifecycleService.confirmRestore a.env operatorId dto fingerprint

/-! ## The discipline -/

/-- An account can be used as a super administrator. -/
def IsActiveSuper (s : BackstageStore) (id : Nat) : Prop :=
  (s.users.find? id).any User.isActiveSuper = true

def HasActiveSuper (s : BackstageStore) : Prop := ∃ id, IsActiveSuper s id

instance (s : BackstageStore) (id : Nat) : Decidable (IsActiveSuper s id) :=
  inferInstanceAs (Decidable (_ = true))

theorem hasActiveSuper_iff (s : BackstageStore) :
    HasActiveSuper s ↔ (s.users.select fun _ u => u.isActiveSuper) ≠ [] := by
  constructor
  · rintro ⟨id, hid⟩
    obtain ⟨u, hu, hactive⟩ := (Option.any_eq_true _ _).mp hid
    exact List.ne_nil_of_mem (Table.mem_select.mpr ⟨hu, hactive⟩ : (id, u) ∈ _)
  · intro hne
    obtain ⟨x, hx⟩ := List.exists_mem_of_ne_nil _ hne
    obtain ⟨hu, hactive⟩ := Table.mem_select.mp hx
    exact ⟨x.1, by simp [IsActiveSuper, hu, hactive]⟩

instance (s : BackstageStore) : Decidable (HasActiveSuper s) :=
  decidable_of_iff _ (hasActiveSuper_iff s).symm

/-- Where the look at the targets stands among the statements of a deactivation: behind those
that find the acting user, its departments, and the record of the request. -/
def targetsReadAt (dto : BatchDeactivate) : Nat :=
  2 + if (dto.idempotencyKey.filter (· ≠ "")).isSome then 1 else 0

/-- A target is a super administrator and was none when the targets were read. -/
def UserActivity.Misreads (a : UserActivity) (seen : List BackstageStore) (s : BackstageStore) :
    Prop :=
  match a.operation with
  | .batchDeactivate _ dto _ => ∃ id ∈ dto.userIds, IsActiveSuper s id ∧
      ∃ v, seen[targetsReadAt dto]? = some v ∧ ¬ IsActiveSuper v id
  | _ => False

instance (a : UserActivity) (seen : List BackstageStore) (s : BackstageStore) :
    Decidable (a.Misreads seen s) :=
  match a with
  | ⟨_, .batchDeactivate _ dto _⟩ =>
      haveI : ∀ id, Decidable (∃ v, seen[targetsReadAt dto]? = some v ∧ ¬ IsActiveSuper v id) :=
        fun id => match h : seen[targetsReadAt dto]? with
          | none => isFalse (by simp)
          | some v => decidable_of_iff (¬ IsActiveSuper v id) (by simp)
      inferInstanceAs (Decidable (∃ id ∈ dto.userIds, IsActiveSuper s id ∧
        ∃ v, seen[targetsReadAt dto]? = some v ∧ ¬ IsActiveSuper v id))
  | ⟨_, .appoint _ _ _ _⟩ => inferInstanceAs (Decidable False)
  | ⟨_, .demote _ _ _ _⟩ => inferInstanceAs (Decidable False)
  | ⟨_, .confirmRestore _ _ _⟩ => inferInstanceAs (Decidable False)

structure UserCommit (a : UserActivity) (d : BackstageDraft) (s s' : BackstageStore) : Prop where
  locked : ∀ id, s'.users.find? id = s.users.find? id ∨ .lock (.user id) ∈ d.holds
  keeps : HasActiveSuper s → HasActiveSuper s' ∨ a.Misreads d.seen s

theorem UserActivity.Misreads.mono {a : UserActivity} {seen seen' : List BackstageStore}
    {s : BackstageStore} (h : a.Misreads seen s) (hseen : seen <+: seen') : a.Misreads seen' s := by
  unfold UserActivity.Misreads at h ⊢
  split at h
  · obtain ⟨id, hid, hactive, v, hv, hnot⟩ := h
    obtain ⟨later, rfl⟩ := hseen
    refine ⟨id, hid, hactive, v, ?_, hnot⟩
    rw [List.getElem?_append_left (List.getElem?_eq_some_iff.mp hv).1, hv]
  · exact h

def userDiscipline : Discipline BackstageStore BackstageLock BackstageReply UserActivity where
  invariant _ := True
  unused _ _ := True
  commits a _ d s s' := UserCommit a d s s'
  invariant_of_commits _ _ _ _ _ _ _ := trivial
  unused_of_le _ _ _ _ _ := trivial
  unused_of_commits _ _ _ _ _ _ _ _ _ := trivial

theorem userDiscipline_logs : backstageLog.Logs userDiscipline where
  idle _ _ _ _ _ := ⟨fun _ => .inl rfl, fun h => .inl h⟩
  insert _ _ _ _ _ _ _ _ h hholds hseen _ :=
    ⟨fun id => (h.locked id).imp_right fun hl => hholds hl,
      fun hs => (h.keeps hs).imp_right fun hm => hm.mono hseen⟩

theorem framesUsers_rely : FramesUsers userDiscipline.Rely := by
  intro H s s' id hrely hlock
  apply hrely.induction (P := fun s s' => s'.users.find? id = s.users.find? id)
  · exact fun _ => rfl
  · exact fun _ _ _ h h' => Eq.trans h' h
  intro a x d s s' hcommit hapart
  exact (hcommit.locked id).resolve_right fun hmem => hapart _ hmem hlock

theorem rely_refl (H : List (Hold BackstageLock)) (s : BackstageStore) :
    userDiscipline.Rely H s s := Discipline.Rely.refl trivial

section Commit

variable {a : UserActivity} {d : BackstageDraft} {s : BackstageStore}

theorem TouchesUsers.locked {P : Nat → Option User → Prop} (h : TouchesUsers P d s) (id : Nat) :
    (d.change s).users.find? id = s.users.find? id ∨ .lock (.user id) ∈ d.holds :=
  (h id).imp (fun hid => hid s) And.left

theorem TouchesUsers.keeps {P : Nat → Option User → Prop} (h : TouchesUsers P d s) {id : Nat}
    (hid : IsActiveSuper s id) (hp : ¬ P id (s.users.find? id)) : HasActiveSuper (d.change s) := by
  rcases h id with hsame | ⟨_, hp'⟩
  · exact ⟨id, by rwa [IsActiveSuper, hsame s]⟩
  · exact absurd hp' hp

end Commit

/-! ## The acting user -/

variable (env : BackstageEnvironment) (operator : BackstageOperator)

section Operator

variable {unused : Nat → BackstageStore → Prop} {R : BackstageRely} {d : BackstageDraft}
  {s : BackstageStore}

theorem amid_loadOperationLogOperator (operatorId : Nat) (hidle : d.Idle) :
    (loadOperationLogOperator env operatorId).amid R unused
      (fun _ d' _ => d'.Idle ∧ d'.seen.length = d.seen.length + 2) d s := by
  refine Txn.amid_query_bind fun s₁ _ => Txn.amid_orThrow_bind fun operator _ => ?_
  refine Txn.amid_query_bind fun s₂ _ => ?_
  exact ⟨(hidle.execute s₁ []).execute s₂ [], by simp⟩

theorem amid_loadSuperOperator (operatorId : Nat) (hidle : d.Idle) :
    (SuperAdminService.loadSuperOperator env operatorId).amid R unused
      (fun _ d' _ => d'.Idle ∧ d'.seen.length = d.seen.length + 2) d s := by
  refine Txn.amid_seq (amid_loadOperationLogOperator env operatorId hidle) ?_
  exact fun operator d' s' h => Txn.amid_guard_bind fun _ => h

theorem amid_updateUser {Q : Unit → BackstageDraft → BackstageStore → Prop} {id : Nat}
    {f : User → User}
    (h : ∀ s' u, R d.holds s s' → (d.change s').users.find? id = some u →
      Q () (d.execute s' [.user id] fun t => { t with users := t.users.update id f }) s') :
    (updateUser id f).amid R unused Q d s := by
  refine (Txn.amid_act _ _).mpr fun s' hs' x c hc => ?_
  cases hfind : (d.change s').users.find? id with
  | none => simp [hfind] at hc
  | some u =>
      simp only [hfind, Except.ok.injEq, Prod.mk.injEq] at hc
      obtain ⟨-, rfl⟩ := hc
      exact h s' u hs' hfind

end Operator

section SuperAdmin

open SuperAdminService

variable {a : UserActivity} {d : BackstageDraft} {s : BackstageStore}

theorem TouchesUsers.update {R : BackstageRely} (hframe : FramesUsers R) (hidle : d.Idle)
    {s' : BackstageStore} (hs : R d.holds s s') (id : Nat) (f : User → User) :
    TouchesUsers (fun j _ => j = id)
      (d.execute s' [.user id] fun t => { t with users := t.users.update id f }) s' := by
  refine (touchesUsers_of_idle (s := s) hidle).execute hframe hs fun j _ => ?_
  by_cases hj : j = id
  · exact .inr ⟨by simp [hj], hj⟩
  · exact .inl fun t => Table.find?_update_ne t.users f hj

theorem allowedRun_appoint (operatorId targetUserId : Nat) (hidle : d.Idle) :
    AllowedRun userDiscipline a (appointRun operatorId targetUserId) d s := by
  have hquiet : (assertOperatorStillSuper operatorId).Quiet :=
    (Txn.leaves_query _).bind fun operator => Txn.leaves_guard _ _
  refine Txn.amid_seq hquiet.amid fun _ d s hd => ?_
  have hidle : d.Idle := fun t => (hd t).trans (hidle t)
  refine Txn.amid_query_bind fun s₁ _ => Txn.amid_orThrow_bind fun target _ => ?_
  refine Txn.amid_guard_bind fun _ => Txn.amid_guard_bind fun _ => Txn.amid_guard_bind fun _ => ?_
  refine (Txn.amid_bind _ _).mpr (amid_updateUser fun s₂ u hs₂ _ => ?_)
  intro s₃ hs₃
  have htouch := (TouchesUsers.update framesUsers_rely (hidle.execute s₁ []) hs₂ targetUserId
    _).later framesUsers_rely (.wait hs₃) fun _ => rfl
  refine ⟨htouch.locked, fun ⟨i, hi⟩ => .inl ⟨i, ?_⟩⟩
  -- an appointment takes the role of nobody
  unfold IsActiveSuper at hi ⊢
  show Option.any _ ((Table.update (d.change s₃).users targetUserId _).find? i) = true
  rw [hidle s₃]
  by_cases heq : i = targetUserId
  · subst heq
    rw [Table.find?_update_self]
    cases hu : s₃.users.find? i with
    | none => simp [hu] at hi
    | some u =>
        simp only [hu, Option.any_some, User.isActiveSuper, Bool.and_eq_true] at hi
        simp [User.isActiveSuper, hi.1.2, hi.2]
  · rwa [Table.find?_update_ne _ _ heq]

theorem exists_ne_target {locked : List Nat} {d : BackstageDraft} {s : BackstageStore}
    (h : LockedUsers (fun _ u => u.isActiveSuper) locked d s) {operatorId targetUserId : Nat}
    (hoperator : operatorId ∈ locked) {target : User}
    (htarget : s.users.find? targetUserId = some target)
    (hlast : (!(target.status == .active && locked.length ≤ 1)) = true) :
    ∃ i ∈ locked, i ≠ targetUserId := by
  by_cases hlength : locked.length ≤ 1
  · -- the target is not active, so it is not the acting user
    refine ⟨operatorId, hoperator, ?_⟩
    rintro rfl
    have hfound := h.found operatorId hoperator
    simp only [htarget, Option.any_some, User.isActiveSuper, Bool.and_eq_true] at hfound
    simp [hlength, hfound.1.2] at hlast
  · by_contra hall
    push Not at hall
    have hsub : locked ⊆ [targetUserId] := fun i hi => List.mem_singleton.mpr (hall i hi)
    exact hlength (List.subperm_of_subset h.nodup hsub).length_le

theorem allowedRun_demote (operatorId targetUserId : Nat) (hidle : d.Idle) :
    AllowedRun userDiscipline a (demoteRun operatorId targetUserId) d s := by
  refine Txn.amid_seq (amid_lockUsersWhere framesUsers_rely hidle) ?_
  rintro locked d s ⟨hidle, hlocked⟩
  refine Txn.amid_guard_bind fun hoperator => Txn.amid_query_bind fun s₁ hs₁ => ?_
  refine Txn.amid_orThrow_bind fun target htarget => ?_
  refine Txn.amid_guard_bind fun _ => Txn.amid_guard_bind fun hlast => ?_
  refine (Txn.amid_bind _ _).mpr (amid_updateUser fun s₂ u hs₂ _ => ?_)
  intro s₃ hs₃
  have htouch := (TouchesUsers.update framesUsers_rely (hidle.execute s₁ []) hs₂ targetUserId
    _).later framesUsers_rely (.wait hs₃) fun _ => rfl
  refine ⟨htouch.locked, fun _ => .inl ?_⟩
  have hlocked₁ : LockedUsers _ locked d s₁ :=
    hlocked.later framesUsers_rely (List.Subset.refl _) hs₁
  rw [hidle s₁] at htarget
  have hfind : s₁.users.find? targetUserId = some target := (Option.filter_eq_some_iff.mp htarget).1
  obtain ⟨i, hi, hne⟩ := exists_ne_target hlocked₁ (List.contains_iff_mem.mp hoperator) hfind hlast
  have hactive : IsActiveSuper s₃ i := by
    have hmoved : userDiscipline.Rely d.holds s₁ s₃ :=
      (hs₂.mono fun _ hx => by simpa using hx).trans
        (hs₃.mono fun _ hx => by simp [hx])
    exact (hlocked₁.later framesUsers_rely (List.Subset.refl _) hmoved).found i hi
  exact htouch.keeps hactive hne

end SuperAdmin

variable {userIds : List Nat}

section LockRows

variable {d : BackstageDraft} {s : BackstageStore}

theorem amid_lockUserRowsForUpdate {R : BackstageRely} {unused : Nat → BackstageStore → Prop}
    (hidle : d.Idle) :
    (lockUserRowsForUpdate userIds).amid R unused (fun _ d' _ => d'.Idle) d s := by
  have hquiet : (lockUserRowsForUpdate userIds).Quiet :=
    leaves_lockUsersWhere.bind fun _ => Txn.leaves_pure _
  exact Txn.amid_mono hquiet.amid fun _ d' _ hd t => (hd t).trans (hidle t)

end LockRows

section Deactivate

variable {a : UserActivity} {d : BackstageDraft} {s : BackstageStore}

variable {targets : List (Nat × User)} {rows : Table User}

theorem checkTarget_ok {operator : BackstageOperator} {userId : Nat} {target : Nat × User}
    (h : checkTarget operator rows userId = .ok target) :
    target.1 = userId ∧ rows.find? userId = some target.2 ∧ target.2.deletedAt = none := by
  unfold checkTarget at h
  split at h
  · cases h
  · rename_i user hfind
    split_ifs at h with hdeleted hself hsuper
    cases h
    simp only [Bool.or_eq_true, not_or] at hdeleted
    exact ⟨rfl, hfind, by simpa using hdeleted.1⟩

/-- Without failures, the targets that count are the accounts of the batch that were read as
active super administrators. -/
theorem countP_targets (operator : BackstageOperator) (rows : Table User) (userIds : List Nat)
    (h : (userIds.map (checkTarget operator rows)).filterMap isFailure = []) :
    ((userIds.map (checkTarget operator rows)).filterMap Except.toOption).countP countsAsSuper =
      userIds.countP fun i => (rows.find? i).any User.isActiveSuper := by
  induction userIds with
  | nil => rfl
  | cons userId rest ih =>
      cases hcheck : checkTarget operator rows userId with
      | error failure => simp [hcheck, isFailure] at h
      | ok target =>
          have ⟨_, hfind, hdeleted⟩ := checkTarget_ok hcheck
          have hrest := ih (by simpa [hcheck, isFailure] using h)
          have hcounts : countsAsSuper target = target.2.isActiveSuper := by
            simp [countsAsSuper, User.isActiveSuper, hdeleted]
          simp only [List.map_cons, hcheck, List.filterMap_cons, Except.toOption,
            List.countP_cons, hfind, Option.any_some, hcounts, ← hrest]

structure Checked (rows : Table User) (activeSuperCount : Nat) (userIds : List Nat)
    (targets : List (Nat × User)) : Prop where
  targets_mem : ∀ target ∈ targets, target.1 ∈ userIds
  remains : 0 < (userIds.countP fun i => (rows.find? i).any User.isActiveSuper) →
    (userIds.countP fun i => (rows.find? i).any User.isActiveSuper) < activeSuperCount

theorem checked_of_checkTargets {operator : BackstageOperator} {activeSuperCount : Nat}
    (h : checkTargets operator rows activeSuperCount userIds = .ok targets) :
    Checked rows activeSuperCount userIds targets := by
  unfold checkTargets at h
  dsimp only at h
  split_ifs at h with hlast hempty hempty
  · -- with the last super administrators in the batch there is a failure
    simp only [List.isEmpty_iff, List.append_eq_nil_iff, List.map_eq_nil_iff,
      List.filter_eq_nil_iff] at hempty
    obtain ⟨x, hx, hcounts⟩ := List.countP_pos_iff.mp hlast.1
    exact absurd hcounts (hempty.2 x hx)
  · simp only [List.append_nil, List.isEmpty_iff] at hempty
    rw [countP_targets operator rows userIds hempty] at hlast
    simp only [Except.ok.injEq] at h
    refine ⟨fun target ht => ?_, fun hpos => by omega⟩
    subst h
    rw [List.mem_mergeSort, List.mem_filterMap] at ht
    obtain ⟨check, hcheck, hok⟩ := ht
    obtain ⟨userId, hmem, rfl⟩ := List.mem_map.mp hcheck
    cases hc : checkTarget operator rows userId with
    | error failure => simp [hc, Except.toOption] at hok
    | ok r =>
        simp only [hc, Except.toOption, Option.some.injEq] at hok
        subst hok
        rwa [(checkTarget_ok hc).1]

/-- When the targets were read as they are, a super administrator outside of the batch is
locked. -/
theorem Checked.exists_outside {locked userIds : List Nat}
    (h : Checked rows locked.length userIds targets)
    (hlocked : LockedUsers (fun _ u => u.isActiveSuper) locked d s)
    (hread : ∀ i ∈ userIds, IsActiveSuper s i → (rows.find? i).any User.isActiveSuper = true)
    (hs : HasActiveSuper s) : ∃ i, IsActiveSuper s i ∧ i ∉ userIds := by
  by_contra hall
  push Not at hall
  obtain ⟨i, hi⟩ := hs
  have hpos : 0 < userIds.countP fun i => (rows.find? i).any User.isActiveSuper :=
    List.countP_pos_iff.mpr ⟨i, hall i hi, hread i (hall i hi) hi⟩
  have hsub : locked ⊆ userIds.filter fun i => (rows.find? i).any User.isActiveSuper := by
    intro j hj
    have hactive : IsActiveSuper s j := hlocked.found j hj
    exact List.mem_filter.mpr ⟨hall j hactive, hread j (hall j hactive) hactive⟩
  have hle := (List.subperm_of_subset hlocked.nodup hsub).length_le
  rw [← List.countP_eq_length_filter] at hle
  exact absurd (h.remains hpos) (Nat.not_lt.mpr hle)

theorem leaves_cancelPendingProfileChanges (userId : Nat) (operator : BackstageOperator)
    (now : Int) :
    (cancelPendingProfileChanges userId operator now).Leaves BackstageStore.users := by
  refine (Txn.leaves_query _).bind fun pending => Txn.leaves_forM fun request => ?_
  refine Txn.Leaves.bind (Txn.leaves_act fun v x c h s => ?_) fun cancelled => ?_
  · split at h <;> cases h <;> rfl
  · refine (Txn.leaves_guard _ _).bind fun _ => Txn.Leaves.bind (Txn.leaves_create ?_) fun _ => ?_
    · exact fun _ _ => rfl
    · exact Txn.leaves_pure _

theorem leaves_writeBackstageOperationLog (actionType : LogAction) (summary : String) :
    (writeBackstageOperationLog operator actionType summary).Leaves BackstageStore.users :=
  (leaves_writeOperationLog backstageLog (fun _ _ => rfl) _ _).bind fun _ => Txn.leaves_pure _

theorem amid_deactivateOne (operator : BackstageOperator) {target : Nat × User}
    (hmem : target.1 ∈ userIds) (h : TouchesUsers (fun i _ => i ∈ userIds) d s) :
    (deactivateOne env operator target).amid userDiscipline.Rely userDiscipline.unused
      (fun _ d s => TouchesUsers (fun i _ => i ∈ userIds) d s) d s := by
  refine Txn.amid_seq (amid_act_touchesUsers framesUsers_rely h fun s₁ updated c hc i _ => ?_)
    fun updated d s htouch => ?_
  · split at hc <;> cases hc
    · rename_i hfound
      by_cases hi : i = target.1
      · exact .inr ⟨by simp [hfound, hi], hi ▸ hmem⟩
      · exact .inl fun t => Table.find?_update_ne t.users _ hi
    · exact .inl fun _ => rfl
  refine Txn.amid_guard_bind fun _ => amid_touchesUsers Discipline.isRely framesUsers_rely
    (Txn.Leaves.bind (Txn.leaves_exec fun _ _ => rfl) fun _ => ?_) (rely_refl _ _) htouch
  refine (leaves_cancelPendingProfileChanges _ _ _).bind fun _ => Txn.Leaves.bind ?_ fun _ =>
    leaves_writeBackstageOperationLog _ _ _
  exact Txn.Leaves.bind (Txn.leaves_create fun _ _ => rfl) fun _ => Txn.leaves_pure _

theorem amid_deactivateTargets (operator : BackstageOperator) (hidle : d.Idle)
    (hmem : ∀ target ∈ targets, target.1 ∈ userIds) (outcome : IdempotentOutcome BackstageReply) :
    (do
      lockUserRowsForUpdate userIds
      targets.forM (deactivateOne env operator)
      pure outcome : BackstageTx (IdempotentOutcome BackstageReply)).amid
      userDiscipline.Rely userDiscipline.unused
      (fun _ d s => TouchesUsers (fun i _ => i ∈ userIds) d s) d s := by
  refine Txn.amid_seq (amid_lockUserRowsForUpdate hidle) fun _ d s hidle => ?_
  refine Txn.amid_seq (Txn.amid_forM (fun rest d s =>
    TouchesUsers (fun i _ => i ∈ userIds) d s ∧ ∀ target ∈ rest, target.1 ∈ userIds) ?_
    ⟨touchesUsers_of_idle hidle, hmem⟩) fun _ d s h => h.1
  intro target rest d s ⟨htouch, hmem⟩
  refine Txn.amid_mono (amid_deactivateOne env operator (hmem target List.mem_cons_self) htouch) ?_
  exact fun _ d s h => ⟨h, fun t ht => hmem t (List.mem_cons_of_mem _ ht)⟩

theorem amid_loadDeactivationTargets {dto : BatchDeactivate} (hidle : d.Idle)
    (hseen : d.seen.length = targetsReadAt dto) :
    (loadDeactivationTargets dto.userIds operator).amid userDiscipline.Rely userDiscipline.unused
      (fun targets d s => d.Idle ∧ ∃ v locked, d.seen[targetsReadAt dto]? = some v ∧
        LockedUsers (fun _ u => u.isActiveSuper) locked d s ∧
        Checked v.users locked.length dto.userIds targets) d s := by
  refine Txn.amid_query_bind fun s₁ _ => ?_
  rw [hidle s₁]
  have hat : (d.execute s₁ [] id).seen[targetsReadAt dto]? = some s₁ := by
    simp [← hseen]
  refine Txn.amid_seq (Txn.amid_and_later Discipline.isRely (rely_refl _ _)
    (amid_lockUsersWhere framesUsers_rely (hidle.execute s₁ []))) ?_
  rintro locked d s ⟨⟨hidle, hlocked⟩, hlater⟩
  refine Txn.amid_liftExcept fun targets hcheck => ⟨hidle, s₁, locked, ?_, hlocked, ?_⟩
  · obtain ⟨more, hmore⟩ := hlater.seen
    rw [← hmore, List.getElem?_append_left (List.getElem?_eq_some_iff.mp hat).1, hat]
  · exact checked_of_checkTargets hcheck

theorem allowedRun_batchDeactivate (operator : BackstageOperator) {operatorId : Nat}
    {dto : BatchDeactivate} {fingerprint : String}
    (ha : a.operation = .batchDeactivate operatorId dto fingerprint) (hidle : d.Idle)
    (hseen : d.seen.length = targetsReadAt dto) :
    AllowedRun userDiscipline a (batchDeactivateRun env operator dto.userIds) d s := by
  refine Txn.amid_seq (amid_loadDeactivationTargets operator hidle hseen) ?_
  rintro targets d s ⟨hidle, v, locked, hread, hlocked, hchecked⟩
  refine Txn.amid_mono (Txn.amid_and_later Discipline.isRely (rely_refl _ _)
    (amid_deactivateTargets env operator hidle hchecked.targets_mem _)) ?_
  rintro outcome d' s' ⟨htouch, hlater⟩ s₁ hs₁
  have htouch₁ := htouch.later framesUsers_rely (.wait hs₁) fun _ => rfl
  refine ⟨htouch₁.locked, fun hs => ?_⟩
  -- either a target was read as something else, or one outside of the batch is locked
  by_cases hsame : ∀ i ∈ dto.userIds, IsActiveSuper s₁ i →
      (v.users.find? i).any User.isActiveSuper = true
  · have hlocked₁ := hlocked.later framesUsers_rely hlater.holds
      (hlater.moved.trans (hs₁.mono hlater.holds))
    obtain ⟨i, hi, hout⟩ := hchecked.exists_outside hlocked₁ hsame hs
    exact .inl (htouch₁.keeps hi hout)
  · push Not at hsame
    obtain ⟨i, hi, hactive, hnot⟩ := hsame
    refine .inr ?_
    unfold UserActivity.Misreads
    rw [ha]
    refine ⟨i, hi, hactive, v, ?_, hnot⟩
    obtain ⟨more, hmore⟩ := hlater.seen
    rw [← hmore, List.getElem?_append_left (List.getElem?_eq_some_iff.mp hread).1, hread]

end Deactivate

section Restore

variable {a : UserActivity} {d : BackstageDraft} {s : BackstageStore}

/-- A restore touches accounts that cannot be used. -/
def Unusable (_ : Nat) (row : Option User) : Prop := ¬ row.any User.isActiveSuper = true

theorem amid_restoreOne (rows : Table User) (catalog : List FunctionRow) (target : RestoreTarget)
    (h : TouchesUsers Unusable d s) :
    (restoreOne operator rows catalog target).amid userDiscipline.Rely userDiscipline.unused
      (fun _ d s => TouchesUsers Unusable d s) d s := by
  refine Txn.amid_orThrow_bind fun user _ => ?_
  refine Txn.amid_seq (amid_act_touchesUsers framesUsers_rely h fun s₁ restored c hc i hsame => ?_)
    fun restored d s htouch => ?_
  · split at hc
    · cases hc
      exact .inl fun _ => rfl
    · rename_i u hu
      split_ifs at hc
      cases hc
      by_cases hi : i = target.userId
      · obtain ⟨hfind, hmatch⟩ := Option.filter_eq_some_iff.mp hu
        refine .inr ⟨by simp [hu, hi], ?_⟩
        rw [← hi, hsame s₁] at hfind
        simp only [Bool.and_eq_true, beq_iff_eq] at hmatch
        simp [Unusable, hfind, User.isActiveSuper, Option.isNone_eq_false_iff.mpr hmatch.2]
      · exact .inl fun t => Table.find?_update_ne t.users _ hi
  refine Txn.amid_guard_bind fun _ => amid_touchesUsers Discipline.isRely framesUsers_rely
    ((Txn.leaves_query _).bind fun grants => ?_) (rely_refl _ _) htouch
  exact Txn.Leaves.bind (Txn.leaves_exec fun _ _ => rfl) fun _ =>
    leaves_writeBackstageOperationLog _ _ _

theorem allowedRun_confirmRestore (rows : Table User) (catalog : List FunctionRow)
    (dto : RestoreConfirm) (hidle : d.Idle) :
    AllowedRun userDiscipline a (confirmRestoreRun operator rows catalog dto) d s := by
  refine Txn.amid_seq (amid_lockUserRowsForUpdate hidle) fun _ d s hidle => ?_
  refine Txn.amid_seq (Txn.amid_forM (fun _ d s => TouchesUsers Unusable d s) ?_
    (touchesUsers_of_idle hidle)) fun _ d s htouch s₁ hs₁ => ?_
  · exact fun target _ d s htouch => amid_restoreOne operator rows catalog target htouch
  · have htouch₁ := htouch.later framesUsers_rely (.wait hs₁) fun _ => rfl
    exact ⟨htouch₁.locked, fun ⟨i, hi⟩ => .inl (htouch₁.keeps hi fun hnot => hnot hi)⟩

theorem allowed_applyRestore (operator : BackstageOperator) (options : IdempotentOptions)
    (dto : RestoreConfirm) (hidle : d.Idle) :
    userDiscipline.Allowed a (applyRestore env operator options dto) d s := by
  refine Txn.amid_query_bind fun s₁ _ => Txn.amid_query_bind fun s₂ _ => ?_
  refine Txn.amid_liftExcept_bind fun _ _ => Txn.amid_liftExcept_bind fun _ _ => ?_
  refine Txn.amid_query_bind fun s₃ _ => ?_
  have hidle₃ := ((hidle.execute s₁ []).execute s₂ []).execute s₃ []
  exact allowed_commitIdempotentOperation options
    ((allowedRun_confirmRestore _ _ _ _ hidle₃).logged userDiscipline_logs)

end Restore

section Runs

variable {a : UserActivity} {s : BackstageStore}

theorem allowed_recovery {scope : String} {operatorId : Nat} {idempotencyKey : Option String}
    {fingerprint : String} {e : Failure} {p : BackstageTx BackstageReply}
    (h : SuperAdminService.recovery scope operatorId idempotencyKey fingerprint e = some p) :
    userDiscipline.Allowed a p .empty s :=
  Discipline.allowed_of_quiet (quiet_replayAfterConflict _ _ _ _ h) Draft.idle_empty
    fun x d s hd => userDiscipline_logs.idle a x d s hd

theorem userDiscipline_kept : userDiscipline.Kept UserActivity.call := by
  intro a s _
  obtain ⟨env, operation⟩ := a
  cases operation with
  | appoint operatorId targetUserId idempotencyKey fingerprint =>
      refine ⟨?_, fun e p => allowed_recovery⟩
      refine Txn.amid_seq (amid_loadSuperOperator env operatorId Draft.idle_empty) ?_
      rintro operator d s ⟨hidle, _⟩
      exact allowed_executeIdempotentOperation userDiscipline_logs _ hidle (rely_refl _ _)
        fun d' s' hfrom => allowedRun_appoint operatorId targetUserId hfrom.idle
  | demote operatorId targetUserId idempotencyKey fingerprint =>
      refine ⟨?_, fun e p => allowed_recovery⟩
      refine Txn.amid_seq (amid_loadSuperOperator env operatorId Draft.idle_empty) ?_
      rintro operator d s ⟨hidle, _⟩
      exact allowed_executeIdempotentOperation userDiscipline_logs _ hidle (rely_refl _ _)
        fun d' s' hfrom => allowedRun_demote operatorId targetUserId hfrom.idle
  | batchDeactivate operatorId dto fingerprint =>
      refine ⟨?_, fun e p => allowed_recovery⟩
      refine Txn.amid_seq (amid_loadOperationLogOperator env operatorId Draft.idle_empty) ?_
      rintro operator d s ⟨hidle, hseen⟩
      refine allowed_executeIdempotentOperation userDiscipline_logs _ hidle (rely_refl _ _)
        fun d' s' hfrom => allowedRun_batchDeactivate env operator rfl hfrom.idle ?_
      rw [hfrom.seen, hseen]
      rfl
  | confirmRestore operatorId dto fingerprint =>
      refine ⟨?_, fun e p => allowed_recovery⟩
      refine Txn.amid_seq (amid_loadOperationLogOperator env operatorId Draft.idle_empty) ?_
      rintro operator d s ⟨hidle, _⟩
      exact allowed_replayOr userDiscipline_logs.idle _ hidle (rely_refl _ _)
        fun d' s' hfrom => allowed_applyRestore env operator _ dto hfrom.idle

/-- No transaction that is about to commit has a target that became a super administrator after
it read its targets. -/
def TargetsAsRead (b : Database BackstageStore BackstageLock Failure BackstageReply UserActivity)
    (e : DatabaseEvent UserActivity) : Prop :=
  ∀ t x, b.committing e = some (t, x) → ¬ t.activity.Misreads t.draft.seen b.store

/-- Operations that commit with their targets as they were read always leave a super
administrator. -/
theorem hasActiveSuper_of_run {n : Nat} {s : BackstageStore} (hs : HasActiveSuper s)
    {es : List (DatabaseEvent UserActivity)}
    (hes : (Database.init n s).Steps UserActivity.call TargetsAsRead es) :
    HasActiveSuper ((Database.init n s).run UserActivity.call es).store := by
  refine Database.Sound.run_induction userDiscipline_kept (I := fun b => HasActiveSuper b.store)
    (fun b e hsound hb hread => ?_) (Database.sound_init trivial trivial) hs hes
  cases hc : b.committing e with
  | none => rwa [Database.store_step, hc]
  | some r => exact ((hsound.committed hc).keeps hb).resolve_right (hread r.1 r.2 hc)

instance (b : Database BackstageStore BackstageLock Failure BackstageReply UserActivity)
    (e : DatabaseEvent UserActivity) : Decidable (TargetsAsRead b e) :=
  match h : b.committing e with
  | none => isTrue fun t x hc => by cases h.symm.trans hc
  | some r => decidable_of_iff (¬ r.1.activity.Misreads r.1.draft.seen b.store)
      ⟨fun hr t x hc => by
        obtain rfl := Option.some.inj (h.symm.trans hc)
        exact hr, fun hall => hall r.1 r.2 h⟩

/-- An organisation without departments that has applied every restore. -/
def quietEnvironment : BackstageEnvironment :=
  ⟨0, fun _ => some [], fun key => key, fun _ _ => .ok ()⟩

def account (name : String) (isSuperAdmin : Bool) : User :=
  ⟨name, "+8613800000000", some "hash", .active, isSuperAdmin, 0, 0, 0, none⟩

/-- One super administrator and two employees, the second of whom manages users. -/
def threeAccounts : BackstageStore :=
  { BackstageStore.empty with
    users := ((Table.empty.insert 1 (account "root" true)).insert 2 (account "next" false)).insert 3
      (account "clerk" false) }

def deactivateNext : UserActivity := ⟨quietEnvironment, .batchDeactivate 3 ⟨[2], none⟩ "2"⟩

def appointNext : UserActivity := ⟨quietEnvironment, .appoint 1 2 none "2"⟩

def demoteRoot : UserActivity := ⟨quietEnvironment, .demote 1 1 none "1"⟩

/-- A session carries out its operation. -/
def session (i : Nat) (a : UserActivity) : List (DatabaseEvent UserActivity) :=
  .start i a :: List.replicate 24 (.advance i)

/-- The batch has read its target when the target is appointed and its predecessor demoted. -/
def handover : List (DatabaseEvent UserActivity) :=
  .start 0 deactivateNext :: List.replicate 3 (.advance 0) ++ session 1 appointNext ++
    session 2 demoteRoot ++ List.replicate 24 (.advance 0)

theorem handover_leaves_nobody : HasActiveSuper threeAccounts ∧
    ¬ HasActiveSuper ((Database.init 0 threeAccounts).run UserActivity.call handover).store := by
  decide +kernel

/-- One after the other, all of them leave a super administrator. -/
theorem hasActiveSuper_of_run_in_order :
    HasActiveSuper ((Database.init 0 threeAccounts).run UserActivity.call
      (session 1 appointNext ++ session 2 demoteRoot ++ session 0 deactivateNext)).store :=
  hasActiveSuper_of_run (by decide) (by decide +kernel)

end Runs

end Wbme.Backstage
