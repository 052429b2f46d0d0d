import Wbme.FixedAsset.Discipline

/-! # Operations on fixed assets amid others

Whatever goes on beside it, every operation commits what the discipline says: it looks at an
asset or an order, writes it behind a lock, and notes what it did.
-/

namespace Wbme.FixedAsset

open Lib AssetService RepairService

/-! ## Programs -/

/-- Nothing is changed so far. -/
structure FixedStart (d : FixedDraft) (s : FixedStore) : Prop where
  idle : d.Idle
  sound : OrdersSound s

/-- What would be committed is what the activity may commit. -/
def Settled (a : FixedActivity) (d : FixedDraft) (s : FixedStore) : Prop :=
  ∀ s', fixedDiscipline.Rely d.holds s s' → FixedEffect a d.holds s' (d.change s')

/-- What the effects are about. -/
def FixedStore.ledger (s : FixedStore) : Table Asset × Table RepairOrder :=
  (s.assets, s.repairOrders)

variable (env : FixedEnvironment)

variable {run : FixedTx (IdempotentOutcome FixedReply)}

section Programs

variable {a : FixedActivity} {d : FixedDraft} {s s' : FixedStore} {α β : Type}

theorem FixedStart.read (h : FixedStart d s) (hs : fixedDiscipline.Rely d.holds s s') :
    FixedStart (d.execute s' [] id) s' := ⟨h.idle.execute s' [], hs.1⟩

theorem Settled.rest {p : FixedTx α} (h : Settled a d s) (hsound : OrdersSound s)
    (hp : p.Leaves FixedStore.ledger) :
    p.amid fixedDiscipline.Rely fixedDiscipline.unused (fun _ d' s' => Settled a d' s') d s := by
  refine Txn.amid_mono (Txn.amid_and_later Discipline.isRely (Discipline.Rely.refl hsound)
    hp.amid) fun _ d' s' hq s'' hs'' => ?_
  obtain ⟨hsame, hlater⟩ := hq
  have heffect := h s'' (hlater.moved.trans (hs''.mono hlater.holds))
  have hledger := hsame s''
  exact (heffect.mono hlater.holds).congr (congrArg Prod.fst hledger) (congrArg Prod.snd hledger)

theorem allowedRun_of_settled
    (h : run.amid fixedDiscipline.Rely fixedDiscipline.unused (fun _ d' s' => Settled a d' s') d s) :
    AllowedRun fixedDiscipline a run d s := h

theorem amid_findLiveAsset (h : FixedStart d s) (id : Nat) :
    (findLiveAsset id).amid fixedDiscipline.Rely fixedDiscipline.unused
      (fun x d' s' => FixedStart d' s' ∧ fixedDiscipline.Rely d.holds s s' ∧
        d'.holds = d.holds ∧ s'.assets.find? id = some x) d s := by
  refine Txn.amid_query_bind fun s' hs => Txn.amid_orThrow fun x hx => ?_
  rw [h.idle s'] at hx
  exact ⟨h.read hs, hs, by simp, (Option.filter_eq_some_iff.mp hx).1⟩

theorem amid_assertMaintainScope {Q : Unit → FixedDraft → FixedStore → Prop}
    (env : FixedEnvironment) (userId : Nat) (departmentId : Option Nat) (h : Q () d s) :
    (assertMaintainScope env userId departmentId).amid fixedDiscipline.Rely
      fixedDiscipline.unused Q d s := by
  refine Txn.amid_guard_bind fun _ => ?_
  cases (env.access userId).dataScope with
  | none => exact h
  | some scope =>
      cases scope with
      | company => exact h
      | _ => exact Txn.amid_orThrow_bind fun _ _ => Txn.amid_guard fun _ => h

theorem amid_assertMaintainScope_bind {Q : β → FixedDraft → FixedStore → Prop}
    {f : Unit → FixedTx β} (userId : Nat) (departmentId : Option Nat)
    (h : (f ()).amid fixedDiscipline.Rely fixedDiscipline.unused Q d s) :
    (assertMaintainScope env userId departmentId >>= f).amid fixedDiscipline.Rely
      fixedDiscipline.unused Q d s :=
  (Txn.amid_bind _ f).mpr (amid_assertMaintainScope env userId departmentId h)

theorem leaves_writeAssetChange (operator : OperationLogOperator) (assetId : Nat)
    (before after : Json) :
    (writeAssetChange operator assetId before after).Leaves FixedStore.ledger := by
  apply Txn.Leaves.bind
  · exact Txn.leaves_create fun _ _ => rfl
  · exact fun _ => Txn.leaves_pure _

theorem leaves_writeRepairAction (operator : OperationLogOperator) (orderId : Nat)
    (action : RepairAction) (fromStatus toStatus : RepairStatus) :
    (writeRepairAction operator orderId action fromStatus toStatus).Leaves FixedStore.ledger := by
  apply Txn.Leaves.bind
  · exact Txn.leaves_create fun _ _ => rfl
  · exact fun _ => Txn.leaves_pure _

theorem amid_updateAsset {id : Nat} {f : Asset → Asset}
    (hledger : ∀ t, (d.change t).ledger = t.ledger) (hdeleted : ∀ x, (f x).deletedAt = x.deletedAt)
    (hstatus : ∀ x, (f x).usageStatus = x.usageStatus ∨
      (a.overwrites = true ∧ isUnderRepair (f x) = false)) :
    (updateAsset id f).amid fixedDiscipline.Rely fixedDiscipline.unused
      (fun _ d' s' => OrdersSound s' ∧ Settled a d' s') d s := by
  refine (Txn.amid_act _ _).mpr fun s₁ hs₁ x c hc => ?_
  have hassets : ∀ t, (d.change t).assets = t.assets := fun t => congrArg Prod.fst (hledger t)
  have horders : ∀ t, (d.change t).repairOrders = t.repairOrders :=
    fun t => congrArg Prod.snd (hledger t)
  rw [hassets] at hc ⊢
  cases hx : s₁.assets.find? id with
  | none => simp [hx] at hc
  | some row =>
      simp only [hx, Except.ok.injEq, Prod.mk.injEq, true_and] at hc
      subst hc
      refine ⟨hs₁.1, fun s₂ hs₂ => ?_⟩
      have hlock : Hold.lock (FixedLock.asset id) ∈
          (d.execute s₁ (if (some row).isSome = true then [FixedLock.asset id] else [])
            fun s => { s with assets := s.assets.update id f }).holds := by simp
      refine .edited id row f hlock ((asset_kept hs₂ hlock).trans hx) (hdeleted row) (hstatus row)
        ?_ (horders s₂)
      show (d.change s₂).assets.update id f = _
      rw [hassets]

end Programs

section Assets

variable {a : FixedActivity} {d : FixedDraft} {s : FixedStore}

theorem isUnderRepair_writeOver (dto : AssetUpdateDto)
    (categoryName currentUserName : Option String) (x : Asset) :
    isUnderRepair (dto.writeOver env categoryName currentUserName x) = false := by
  show isUnderRepair { x with usageStatus := dto.usageStatus.toAssetStatus } = false
  cases dto.usageStatus <;> rfl

theorem allowedRun_update (hoverwrites : a.overwrites = true) (env : FixedEnvironment)
    (operator : OperationLogOperator) (userId id : Nat) (dto : AssetUpdateDto)
    (h : FixedStart d s) :
    AllowedRun fixedDiscipline a (updateRun env operator userId id dto) d s := by
  refine Txn.amid_seq (amid_findLiveAsset h id) fun existing d₁ s₁ ⟨h₁, _, _, _⟩ => ?_
  refine amid_assertMaintainScope_bind _ _ _ (Txn.amid_guard_bind fun _ => ?_)
  refine Txn.amid_liftExcept_bind fun categoryName _ => ?_
  refine Txn.amid_liftExcept_bind fun currentUserName _ => ?_
  refine Txn.amid_seq (amid_updateAsset (fun t => congrArg _ (h₁.idle t)) (fun x => rfl)
    fun x => .inr ⟨hoverwrites, isUnderRepair_writeOver env dto _ _ x⟩) fun _ d₂ s₂ ⟨h₂, hset⟩ => ?_
  split
  · exact hset
  · exact allowedRun_of_settled (hset.rest h₂
      ((leaves_writeAssetChange operator id _ _).bind fun _ => Txn.leaves_pure _))

theorem allowedRun_schedule (operator : OperationLogOperator) (userId id : Nat)
    (dto : AssetScheduleDto) (h : FixedStart d s) :
    AllowedRun fixedDiscipline a (scheduleRun env operator userId id dto) d s := by
  refine Txn.amid_seq (amid_findLiveAsset h id) fun existing d₁ s₁ ⟨h₁, _, _, _⟩ => ?_
  refine amid_assertMaintainScope_bind _ _ _ (amid_assertMaintainScope_bind _ _ _ ?_)
  refine Txn.amid_guard_bind fun _ => Txn.amid_guard_bind fun _ => ?_
  refine (Txn.amid_bind _ _).mpr (Txn.amid_create fun s₂ n s₃ hs₂ _ _ hs₃ _ => ?_)
  refine Txn.amid_seq (amid_updateAsset (fun t => ?_) (fun x => rfl) fun x => .inl rfl)
    fun _ d₄ s₄ ⟨_, hset⟩ => hset
  show (d₁.change t).ledger = t.ledger
  rw [h₁.idle t]

theorem allowedRun_scrap (hoverwrites : a.overwrites = true) (env : FixedEnvironment)
    (operator : OperationLogOperator) (userId id : Nat) (h : FixedStart d s) :
    AllowedRun fixedDiscipline a (scrapRun env operator userId id) d s := by
  refine Txn.amid_seq (amid_findLiveAsset h id) fun existing d₁ s₁ ⟨h₁, _, _, _⟩ => ?_
  refine amid_assertMaintainScope_bind _ _ _ (Txn.amid_guard_bind fun _ => ?_)
  refine Txn.amid_guard_bind fun _ => ?_
  refine Txn.amid_seq (amid_updateAsset (fun t => congrArg _ (h₁.idle t)) (fun x => rfl)
    fun x => .inr ⟨hoverwrites, rfl⟩) fun _ d₂ s₂ ⟨h₂, hset⟩ => ?_
  exact allowedRun_of_settled (hset.rest h₂
    ((leaves_writeAssetChange operator id _ _).bind fun _ => Txn.leaves_pure _))

theorem allowedRun_batchDelete (hoverwrites : a.overwrites = true)
    (userId : Nat) (ids : List Nat) (h : FixedStart d s) :
    AllowedRun fixedDiscipline a (batchDeleteRun a.env userId ids) d s := by
  refine Txn.amid_query_bind fun s₁ hs₁ => ?_
  have h₁ := h.read hs₁
  generalize d.execute s₁ [] id = d₁ at h₁ ⊢
  refine Txn.amid_guard_bind fun _ => ?_
  refine Txn.amid_seq (M := fun _ => FixedStart) ?_ fun _ d₂ s₂ h₂ => ?_
  · exact Txn.amid_forM (fun _ => FixedStart)
      (fun row rest d s h => amid_assertMaintainScope _ _ _ h) h₁
  refine Txn.amid_query_bind fun s₃ hs₃ => Txn.amid_query_bind fun s₄ hs₄ => ?_
  have h₄ := (h₂.read hs₃).read hs₄
  generalize (d₂.execute s₃ [] id).execute s₄ [] id = d₄ at h₄ ⊢
  refine Txn.amid_guard_bind fun _ => ?_
  refine (Txn.amid_bind _ _).mpr ((Txn.amid_act _ _).mpr fun s₅ hs₅ count c hc => ?_)
  obtain ⟨-, rfl⟩ := Prod.mk.inj (Except.ok.inj hc)
  rw [h₄.idle s₅]
  refine allowedRun_of_settled fun s₆ _ => .deleted (targetIds s₅ ids) (fun id hid => ?_)
    hoverwrites ?_ ?_
  · exact List.mem_append_right _ (List.mem_map_of_mem (List.mem_map_of_mem hid))
  · show markDeleted a.env (targetIds s₅ ids) (d₄.change s₆).assets = _
    rw [h₄.idle s₆]
  · show (d₄.change s₆).repairOrders = _
    rw [h₄.idle s₆]

end Assets

section Repairs

variable {a : FixedActivity} {d : FixedDraft} {s s' : FixedStore}

/-- The asset of an order and the status to go back to, for good. -/
def SameOrder (n : Nat) (s s' : FixedStore) : Prop :=
  ∀ o, s.repairOrders.find? n = some o → ∃ o', s'.repairOrders.find? n = some o' ∧
    o'.assetId = o.assetId ∧ o'.preStatus = o.preStatus

theorem FixedEffect.sameOrder {H : List (Hold FixedLock)} (h : FixedEffect a H s s') (n : Nat) :
    SameOrder n s s' := by
  intro o ho
  cases h with
  | still _ horders => exact ⟨o, by rw [horders]; exact ho, rfl, rfl⟩
  | edited _ _ _ _ _ _ _ _ horders => exact ⟨o, by rw [horders]; exact ho, rfl, rfl⟩
  | deleted _ _ _ _ horders => exact ⟨o, by rw [horders]; exact ho, rfl, rfl⟩
  | registered m x p _ _ _ _ hnone _ _ _ _ _ _ horders =>
      have hne : n ≠ m := by
        intro heq
        subst heq
        cases hnone.symm.trans ho
      rw [horders, Table.find?_insert_ne _ p hne]
      exact ⟨o, ho, rfl, rfl⟩
  | moved m x p g status _ _ _ _ hp hmoves _ horders =>
      rw [horders]
      by_cases hn : n = m
      · subst hn
        obtain rfl := Option.some.inj (hp.symm.trans ho)
        exact ⟨g p, Table.find?_update_of_find? hp g, hmoves.assetId, hmoves.preStatus⟩
      · rw [Table.find?_update_ne _ g hn]
        exact ⟨o, ho, rfl, rfl⟩

theorem sameOrder_of_rely {H : List (Hold FixedLock)} (h : fixedDiscipline.Rely H s s') (n : Nat) :
    SameOrder n s s' := by
  apply h.induction (P := SameOrder n)
  · exact fun _ o ho => ⟨o, ho, rfl, rfl⟩
  · intro s₁ s₂ s₃ h₁ h₂ o ho
    obtain ⟨o', ho', hasset, hpre⟩ := h₁ o ho
    obtain ⟨o'', ho'', hasset', hpre'⟩ := h₂ o' ho'
    exact ⟨o'', ho'', hasset'.trans hasset, hpre'.trans hpre⟩
  · exact fun _ _ _ _ _ h _ => h.sameOrder n

/-- An asset was found in a status and given another. -/
structure AssetTaken (id : Nat) (x : Asset) (status : AssetStatus) (d : FixedDraft)
    (s : FixedStore) : Prop where
  sound : OrdersSound s
  lock : .lock (.asset id) ∈ d.holds
  row : s.assets.find? id = some x
  assets : ∀ t, (d.change t).assets = t.assets.update id (Asset.withStatus status)
  orders : ∀ t, (d.change t).repairOrders = t.repairOrders

theorem amid_updateAssetInStatus (h : FixedStart d s) (id : Nat) (status status' : AssetStatus) :
    (updateAssetInStatus id status (Asset.withStatus status')).amid fixedDiscipline.Rely
      fixedDiscipline.unused (fun updated d' s' => updated = true →
        ∃ x, AssetTaken id x status' d' s' ∧ x.usageStatus = status) d s := by
  refine (Txn.amid_act _ _).mpr fun s₁ hs₁ updated c hc hupdated => ?_
  subst hupdated
  rw [h.idle s₁] at hc ⊢
  split at hc
  · rename_i hfound
    obtain ⟨-, rfl⟩ := Prod.mk.inj (Except.ok.inj hc)
    obtain ⟨x, hx, hsame⟩ := (Option.any_eq_true _ _).mp hfound
    refine ⟨x, ⟨hs₁.1, by simp [hfound], hx, fun t => ?_, fun t => ?_⟩, beq_iff_eq.mp hsame⟩
    · show (d.change t).assets.update id _ = _
      rw [h.idle t]
    · show (d.change t).repairOrders = _
      rw [h.idle t]
  · cases (Prod.mk.inj (Except.ok.inj hc)).1

theorem AssetTaken.amid_createRepairOrder {x : Asset} {o : RepairOrder}
    (h : AssetTaken o.assetId x .pendingRepair d s) (hregisters : a.registers = true)
    (hpre : o.preStatus = x.usageStatus) (hstatus : x.usageStatus = .idle ∨ x.usageStatus = .inUse)
    (hpending : o.status = .pending) :
    (createRepairOrder o).amid fixedDiscipline.Rely fixedDiscipline.unused
      (fun _ d' s' => OrdersSound s' ∧ Settled a d' s') d s := by
  refine Txn.amid_create fun s₁ n s₂ hs₁ hunused _ hs₂ hfree => ⟨hs₂.1, fun s₃ hs₃ => ?_⟩
  have hdrawn : ∀ {r}, r ∈ d.holds → r ∈ Hold.key n :: d.holds :=
    fun hr => List.mem_cons_of_mem _ hr
  have hlocked : ∀ {r}, r ∈ Hold.key n :: d.holds →
      r ∈ (Hold.key n :: d.holds) ++ [.lock (.activeRepair o.assetId)] :=
    fun hr => List.mem_append_left _ hr
  have hactive : Hold.lock (FixedLock.activeRepair o.assetId) ∈
      (Hold.key n :: d.holds) ++ [.lock (.activeRepair o.assetId)] :=
    List.mem_append_right _ List.mem_cons_self
  have hrow : s₃.assets.find? o.assetId = some x := by
    rw [asset_kept hs₃ (hlocked (hdrawn h.lock)), asset_kept hs₂ (hdrawn h.lock),
      asset_kept hs₁ h.lock]
    exact h.row
  have hnone : s₃.repairOrders.find? n = none :=
    unborn_kept hs₃ (hlocked List.mem_cons_self)
      (unborn_kept hs₂ List.mem_cons_self (hunused n (Nat.le_refl n)))
  have hfree₂ : activeOrders s₂ o.assetId = [] := by
    have hsame : activeOrders (d.change s₂) o.assetId = activeOrders s₂ o.assetId :=
      congrArg (fun t : Table RepairOrder => t.select fun _ p =>
        p.assetId == o.assetId && p.status.isActive) (h.orders s₂)
    rw [hsame] at hfree
    cases hlist : activeOrders s₂ o.assetId with
    | nil => rfl
    | cons y ys => simp [Txn.firstViolated, hlist] at hfree
  refine .registered n x o hregisters (hlocked (hdrawn h.lock)) hactive
    (hlocked List.mem_cons_self) hnone hrow hpre hstatus hpending ?_ (h.assets s₃) ?_
  · exact (active_kept hs₃ hactive).trans hfree₂
  · show (d.change s₃).repairOrders.insert n o = _
    rw [h.orders s₃]

theorem allowedRun_register (hregisters : a.registers = true) (env : FixedEnvironment)
    (operator : OperationLogOperator) (userId : Nat) (dto : RepairOrderCreateDto)
    (h : FixedStart d s) :
    AllowedRun fixedDiscipline a (registerRun env operator userId dto) d s := by
  refine Txn.amid_seq (amid_findLiveAsset h dto.assetId) fun asset d₁ s₁ ⟨h₁, _, _, _⟩ => ?_
  refine amid_assertMaintainScope_bind _ _ _ (Txn.amid_guard_bind fun hstatus => ?_)
  refine Txn.amid_seq (amid_updateAssetInStatus h₁ dto.assetId asset.usageStatus .pendingRepair)
    fun updated d₂ s₂ htaken => Txn.amid_guard_bind fun hupdated => ?_
  obtain ⟨x, htaken, hsame⟩ := htaken hupdated
  refine Txn.amid_seq (AssetTaken.amid_createRepairOrder htaken hregisters hsame.symm ?_ rfl)
    fun n d₃ s₃ ⟨h₃, hset⟩ => ?_
  · rw [hsame]
    simpa using hstatus
  · exact allowedRun_of_settled (hset.rest h₃
      ((leaves_writeRepairAction operator n _ _ _).bind fun _ => Txn.leaves_pure _))

theorem amid_updateOrderAt {id version : Nat} {status : RepairStatus}
    {f : RepairOrder → RepairOrder} {o : RepairOrder} (h : FixedStart d s)
    (ho : s.repairOrders.find? id = some o) :
    (updateOrderAt id status version f).amid fixedDiscipline.Rely fixedDiscipline.unused
      (fun updated d' s' => updated = true → ∃ p, OrdersSound s' ∧
        s'.repairOrders.find? id = some p ∧ p.assetId = o.assetId ∧ p.preStatus = o.preStatus ∧
        p.status = status ∧ .lock (.repairOrder id) ∈ d'.holds ∧
        .lock (.activeRepair o.assetId) ∈ d'.holds ∧
        (∀ t, (d'.change t).assets = t.assets) ∧
        ∀ t, (d'.change t).repairOrders = t.repairOrders.update id f) d s := by
  refine (Txn.amid_act _ _).mpr fun s₁ hs₁ updated c hc hupdated => ?_
  subst hupdated
  rw [h.idle s₁] at hc ⊢
  split at hc
  · rename_i hfound
    obtain ⟨-, rfl⟩ := Prod.mk.inj (Except.ok.inj hc)
    obtain ⟨p, hp, hat⟩ := (Option.any_eq_true _ _).mp hfound
    obtain ⟨q, hq, hasset, hpre⟩ := sameOrder_of_rely hs₁ id o ho
    obtain rfl := Option.some.inj (hp.symm.trans hq)
    have hstatus : p.status = status := by
      simp only [Bool.and_eq_true, beq_iff_eq] at hat
      exact hat.1
    have hlocks : ((s₁.repairOrders.find? id).filter fun o =>
        o.status == status && o.version == version) = some p := by
      rw [hp]
      simpa [Option.filter] using hat
    refine ⟨p, hs₁.1, hp, hasset, hpre, hstatus, ?_, ?_, fun t => ?_, fun t => ?_⟩
    · simp [hlocks]
    · simp [hlocks, hasset]
    · show (d.change t).assets = _
      rw [h.idle t]
    · show (d.change t).repairOrders.update id f = _
      rw [h.idle t]
  · cases (Prod.mk.inj (Except.ok.inj hc)).1

/-- What an action does to an order is a move. -/
def Lawful (t : Transition) : Prop :=
  ∀ o p : RepairOrder, p.assetId = o.assetId → p.preStatus = o.preStatus → p.status = t.fromStatus →
    Moves p { t.columns p with status := t.toStatus, version := p.version + 1 } (t.assetStatus o)

theorem lawful_cancelTransition : Lawful cancelTransition := fun _ _ _ hpre hstatus =>
  ⟨rfl, rfl, .inl ⟨hstatus, rfl, hpre.symm⟩⟩

theorem lawful_startTransition (startedAt : Option String) :
    Lawful (startTransition env startedAt) := fun _ _ _ _ hstatus =>
  ⟨rfl, rfl, .inr (.inl ⟨hstatus, rfl, rfl⟩)⟩

theorem lawful_completeTransition (dto : RepairCompleteDto) :
    Lawful (completeTransition env dto) := by
  intro o p _ _ hstatus
  refine ⟨rfl, rfl, .inr (.inr ⟨hstatus, rfl, ?_⟩)⟩
  show dto.postStatus.toAssetStatus = .idle ∨ dto.postStatus.toAssetStatus = .inUse
  cases dto.postStatus
  · exact .inr rfl
  · exact .inl rfl

theorem allowedRun_transition {t : Transition} (ht : Lawful t) (env : FixedEnvironment)
    (operator : OperationLogOperator) (userId id : Nat) (summary : String)
    (h : FixedStart d s) :
    AllowedRun fixedDiscipline a (transitionRun env operator userId id t summary) d s := by
  refine Txn.amid_query_bind fun s₁ hs₁ => Txn.amid_orThrow_bind fun order horder => ?_
  rw [h.idle s₁] at horder
  refine Txn.amid_seq (amid_findLiveAsset (h.read hs₁) order.assetId)
    fun asset d₂ s₂ ⟨h₂, hs₂, _, _⟩ => ?_
  refine amid_assertMaintainScope_bind _ _ _ ?_
  obtain ⟨o, ho, hasset, hpre⟩ := sameOrder_of_rely hs₂ id order horder
  refine Txn.amid_seq (amid_updateOrderAt h₂ ho) fun updated d₃ s₃ hmoved =>
    Txn.amid_guard_bind fun hupdated => ?_
  obtain ⟨p, h₃, hp, hpasset, hppre, hstatus, horderLock, hactive, hassets, horders⟩ :=
    hmoved hupdated
  have hid : p.assetId = order.assetId := hpasset.trans hasset
  refine (Txn.amid_bind _ _).mpr ((Txn.amid_act _ _).mpr fun s₄ hs₄ _ c hc => ?_)
  rw [hassets s₄] at hc ⊢
  cases hx : s₄.assets.find? order.assetId with
  | none => simp [hx] at hc
  | some x =>
      simp only [hx, Except.ok.injEq, Prod.mk.injEq, true_and] at hc
      subst hc
      refine allowedRun_of_settled (Settled.rest (fun s₅ hs₅ => ?_) hs₄.1
        ((leaves_writeRepairAction operator id _ _ _).bind fun _ => Txn.leaves_pure _))
      have hlocked : ∀ {r}, r ∈ d₃.holds →
          r ∈ d₃.holds ++ [Hold.lock (FixedLock.asset order.assetId)] :=
        fun hr => List.mem_append_left _ hr
      have hlock : Hold.lock (FixedLock.asset p.assetId) ∈
          d₃.holds ++ [Hold.lock (FixedLock.asset order.assetId)] := by simp [hid]
      have hrow : s₅.assets.find? p.assetId = some x := by
        rw [asset_kept hs₅ hlock, hid]
        exact hx
      have hp₅ : s₅.repairOrders.find? id = some p :=
        order_kept hs₅ (hlocked horderLock) (order_kept hs₄ horderLock hp)
      refine .moved id x p _ (t.assetStatus order) hlock (hlocked horderLock) ?_ hrow hp₅
        (ht order p hid (hppre.trans hpre) hstatus) ?_ (horders s₅)
      · rw [hpasset]
        exact hlocked hactive
      · rw [Draft.change_execute, hassets s₅, hid]
        rfl

end Repairs

section Kept

variable {a : FixedActivity} {s : FixedStore}

theorem kept_execute (o : IdempotentOptions) (hs : OrdersSound s)
    (hrun : ∀ d s, FixedStart d s → AllowedRun fixedDiscipline a run d s) :
    fixedDiscipline.Allowed a (executeIdempotentOperation assetLog o run).main .empty s ∧
      ∀ e p, (executeIdempotentOperation assetLog o run).recover e = some p →
        fixedDiscipline.Allowed a p .empty s := by
  constructor
  · exact allowed_executeIdempotentOperation fixedDiscipline_logs o Draft.idle_empty
      (Discipline.Rely.refl hs) fun d' s' hfrom => hrun d' s' ⟨hfrom.idle, hfrom.later.moved.1⟩
  · intro e p h
    exact Discipline.allowed_of_quiet (quiet_replayAfterConflict assetLog o e p h)
      Draft.idle_empty fun x d s hd => fixedDiscipline_logs.idle a x d s hd

theorem fixedDiscipline_kept : fixedDiscipline.Kept FixedActivity.call := by
  intro a s hs
  obtain ⟨env, operator, operation, idempotencyKey, fingerprint⟩ := a
  cases operation with
  | update id dto =>
      exact kept_execute _ hs fun d s h => allowedRun_update rfl env operator _ id dto h
  | schedule id dto =>
      exact kept_execute _ hs fun d s h => allowedRun_schedule env operator _ id dto h
  | scrap id confirm =>
      simp only [FixedActivity.call, AssetService.scrap]
      split
      · exact kept_execute _ hs fun d s h => allowedRun_scrap rfl env operator _ id h
      · exact ⟨trivial, fun e p h => nomatch h⟩
  | batchDelete ids =>
      refine kept_execute _ hs fun d s h => ?_
      exact allowedRun_batchDelete (a := ⟨env, operator, .batchDelete ids, idempotencyKey,
        fingerprint⟩) rfl operator.id ids h
  | register dto =>
      exact kept_execute _ hs fun d s h => allowedRun_register rfl env operator _ dto h
  | cancel id =>
      exact kept_execute _ hs fun d s h =>
        allowedRun_transition lawful_cancelTransition env operator _ id _ h
  | start id startedAt =>
      exact kept_execute _ hs fun d s h =>
        allowedRun_transition (lawful_startTransition env startedAt) env operator _ id _ h
  | complete id dto =>
      exact kept_execute _ hs fun d s h =>
        allowedRun_transition (lawful_completeTransition env dto) env operator _ id _ h

end Kept

end Wbme.FixedAsset
