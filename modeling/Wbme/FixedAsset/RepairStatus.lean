import Wbme.FixedAsset.Commits

/-! # The status of assets under repair

The status of an asset says what its repair orders say, as long as nobody edits, scraps or
deletes it once it has an order under way, or registers it once it is deleted: the look that each
of these takes at the asset is not repeated where it is written.
-/

namespace Wbme.FixedAsset

open Lib AssetService RepairService

/-! ## Assets and their orders -/

def HasOrder (s : FixedStore) (id : Nat) (status : RepairStatus) : Prop :=
  ∃ n o, s.repairOrders.find? n = some o ∧ o.assetId = id ∧ o.status = status

structure AssetAgrees (s : FixedStore) (id : Nat) (x : Asset) : Prop where
  pending : x.isLive = true → (x.usageStatus = .pendingRepair ↔ HasOrder s id .pending)
  repairing : x.isLive = true → (x.usageStatus = .repairing ↔ HasOrder s id .repairing)
  one : ∀ p ∈ activeOrders s id, ∀ q ∈ activeOrders s id, p = q
  free : x.isLive = false ∨ x.usageStatus = .scrapped → activeOrders s id = []

def StatusAgrees (s : FixedStore) : Prop :=
  ∀ id x, s.assets.find? id = some x → AssetAgrees s id x

/-! ## An asset and its order -/

def RepairStatus.ofAsset : RepairStatus → AssetStatus
  | .pending => .pendingRepair
  | .repairing => .repairing
  | .cancelled => .idle
  | .completed => .idle

structure Follows (orders : List (Nat × RepairOrder)) (x : Asset) : Prop where
  free : orders = [] → x.isLive = true → isUnderRepair x = false
  under : ∀ p ∈ orders, x.isLive = true ∧ x.usageStatus = p.2.status.ofAsset

section Follows

variable {s s' : FixedStore} {id : Nat} {x : Asset}

theorem not_isUnderRepair_iff :
    isUnderRepair x = false ↔ x.usageStatus ≠ .pendingRepair ∧ x.usageStatus ≠ .repairing := by
  simp [isUnderRepair]

theorem AssetAgrees.follows (h : AssetAgrees s id x) : Follows (activeOrders s id) x := by
  constructor
  · intro hfree hlive
    have hnone : ∀ status : RepairStatus, status.isActive = true → ¬ HasOrder s id status := by
      intro status hactive horder
      obtain ⟨n, o, ho, hasset, hstatus⟩ := horder
      have hmem := not_active_of_free hfree ho hasset
      rw [hstatus, hactive] at hmem
      cases hmem
    rw [not_isUnderRepair_iff]
    exact ⟨fun heq => hnone .pending rfl ((h.pending hlive).mp heq),
      fun heq => hnone .repairing rfl ((h.repairing hlive).mp heq)⟩
  · intro p hmem
    obtain ⟨n, o⟩ := p
    have hlive : x.isLive = true := by
      by_contra hdead
      rw [h.free (.inl (Bool.not_eq_true _ ▸ hdead))] at hmem
      cases hmem
    obtain ⟨ho, hasset, hactive⟩ := mem_activeOrders.mp hmem
    refine ⟨hlive, ?_⟩
    cases hstatus : o.status with
    | pending => exact (h.pending hlive).mpr ⟨n, o, ho, hasset, hstatus⟩
    | repairing => exact (h.repairing hlive).mpr ⟨n, o, ho, hasset, hstatus⟩
    | cancelled => simp [hstatus, RepairStatus.isActive] at hactive
    | completed => simp [hstatus, RepairStatus.isActive] at hactive

theorem Follows.hasOrder_iff (h : Follows (activeOrders s id) x) (hlive : x.isLive = true)
    {status : RepairStatus} (hactive : status.isActive = true) :
    x.usageStatus = status.ofAsset ↔ HasOrder s id status := by
  constructor
  · intro heq
    cases horders : activeOrders s id with
    | nil =>
        have hnot := not_isUnderRepair_iff.mp (h.free horders hlive)
        rw [heq] at hnot
        cases status <;> simp [RepairStatus.ofAsset, RepairStatus.isActive] at hnot hactive
    | cons p ps =>
        have hmem : p ∈ activeOrders s id := by
          rw [horders]
          exact List.mem_cons_self
        obtain ⟨hp, hasset, hpactive⟩ := mem_activeOrders.mp hmem
        refine ⟨p.1, p.2, hp, hasset, ?_⟩
        have hsame := (h.under p hmem).2.symm.trans heq
        generalize p.2.status = st at hsame hpactive
        cases st <;> cases status <;>
          simp_all [RepairStatus.ofAsset, RepairStatus.isActive]
  · intro horder
    obtain ⟨n, o, ho, hasset, hstatus⟩ := horder
    have hmem : (n, o) ∈ activeOrders s id :=
      mem_activeOrders.mpr ⟨ho, hasset, by rw [hstatus]; exact hactive⟩
    rw [← hstatus]
    exact (h.under _ hmem).2

theorem Follows.agrees (h : Follows (activeOrders s id) x) (hs : OrdersSound s) :
    AssetAgrees s id x where
  pending hlive := h.hasOrder_iff hlive (show RepairStatus.pending.isActive = true from rfl)
  repairing hlive := h.hasOrder_iff hlive (show RepairStatus.repairing.isActive = true from rfl)
  one := by
    intro x ho y hp
    obtain ⟨m, o⟩ := x
    obtain ⟨n, p⟩ := y
    obtain ⟨ho, hoasset, hoactive⟩ := mem_activeOrders.mp ho
    obtain ⟨hp, hpasset, hpactive⟩ := mem_activeOrders.mp hp
    obtain rfl := hs.one m n o p ho hp hoactive hpactive (hoasset.trans hpasset.symm)
    rw [Option.some.inj (ho.symm.trans hp)]
  free hover := by
    rw [List.eq_nil_iff_forall_not_mem]
    intro p hmem
    obtain ⟨hlive, hstatus⟩ := h.under p hmem
    rcases hover with hdead | hscrapped
    · rw [hlive] at hdead
      cases hdead
    · rw [hscrapped] at hstatus
      generalize p.2.status = st at hstatus
      cases st <;> cases hstatus

def AllFollow (s : FixedStore) : Prop :=
  ∀ id x, s.assets.find? id = some x → Follows (activeOrders s id) x

theorem allFollow_iff (hs : OrdersSound s) : AllFollow s ↔ StatusAgrees s :=
  ⟨fun h id x hx => (h id x hx).agrees hs, fun h id x hx => (h id x hx).follows⟩

end Follows

/-! ## Writers -/

/-- An asset that is edited, scrapped or deleted has no order under way, and one that is
registered is not deleted. -/
def AvoidsOrders (a : FixedActivity) (_ : List FixedStore) : FixedLock → FixedStore → Prop
  | .asset id, s => (a.overwrites = true → activeOrders s id = []) ∧
      (a.registers = true → (s.assets.find? id).any Asset.isLive = true)
  | _, _ => True

instance (a : FixedActivity) (seen : List FixedStore) (l : FixedLock) (s : FixedStore) :
    Decidable (AvoidsOrders a seen l s) := by
  cases l <;> unfold AvoidsOrders <;> infer_instance

variable {n : Nat}

section Commit

variable {a : FixedActivity} {H : List (Hold FixedLock)} {s s' : FixedStore}

theorem activeOrders_congr (h : s'.repairOrders = s.repairOrders) (id : Nat) :
    activeOrders s' id = activeOrders s id :=
  congrArg (fun t : Table RepairOrder => t.select fun _ o => o.assetId == id && o.status.isActive) h

theorem Follows.congr {orders : List (Nat × RepairOrder)} {x y : Asset} (h : Follows orders x)
    (hdeleted : y.deletedAt = x.deletedAt) (hstatus : y.usageStatus = x.usageStatus) :
    Follows orders y := by
  have hlive : y.isLive = x.isLive := congrArg Option.isNone hdeleted
  constructor
  · intro hfree hy
    show (y.usageStatus == _ || y.usageStatus == _) = false
    rw [hstatus]
    exact h.free hfree (hlive ▸ hy)
  · intro p hp
    rw [hlive, hstatus]
    exact h.under p hp

theorem follows_registered {x : Asset} {o : RepairOrder} (hlive : x.isLive = true)
    (hpending : o.status = .pending) (hfree : activeOrders s o.assetId = [])
    (horders : s'.repairOrders = s.repairOrders.insert n o) :
    Follows (activeOrders s' o.assetId) (Asset.withStatus .pendingRepair x) := by
  have hmem : ∀ p, p ∈ activeOrders s' o.assetId → p = (n, o) := by
    intro x hp
    obtain ⟨m, p⟩ := x
    obtain ⟨hp, hasset, hactive⟩ := mem_activeOrders.mp hp
    rw [horders, Table.find?_insert] at hp
    split at hp
    · rename_i hm
      rw [hm, Option.some.inj hp]
    · rw [not_active_of_free hfree hp hasset] at hactive
      cases hactive
  constructor
  · intro hnil
    have hin : (n, o) ∈ activeOrders s' o.assetId := by
      refine mem_activeOrders.mpr ⟨?_, rfl, by rw [hpending]; rfl⟩
      rw [horders]
      exact Table.find?_insert_self _ _ _
    rw [hnil] at hin
    cases hin
  · intro p hp
    rw [hmem p hp, hpending]
    exact ⟨hlive, rfl⟩

theorem follows_moved {x : Asset} {o : RepairOrder} {g : RepairOrder → RepairOrder}
    {status : AssetStatus} (hs : OrdersSound s) (h : Follows (activeOrders s o.assetId) x)
    (ho : s.repairOrders.find? n = some o) (hmoves : Moves o (g o) status)
    (horders : s'.repairOrders = s.repairOrders.update n g) :
    Follows (activeOrders s' o.assetId) (Asset.withStatus status x) := by
  have hrow : s'.repairOrders.find? n = some (g o) := by
    rw [horders]
    exact Table.find?_update_of_find? ho g
  have hmem : ∀ p, p ∈ activeOrders s' o.assetId → p = (n, g o) := by
    intro x hp
    obtain ⟨m, p⟩ := x
    obtain ⟨hp, hasset, hactive⟩ := mem_activeOrders.mp hp
    by_cases hm : m = n
    · subst hm
      rw [Option.some.inj (hrow.symm.trans hp)]
    · rw [horders, Table.find?_update_ne _ g hm] at hp
      exact absurd (hs.one m n p o hp ho hactive hmoves.active hasset) hm
  have hlive : x.isLive = true :=
    (h.under (n, o) (mem_activeOrders.mpr ⟨ho, rfl, hmoves.active⟩)).1
  constructor
  · intro hnil _
    rw [not_isUnderRepair_iff]
    show status ≠ _ ∧ status ≠ _
    rcases hmoves.steps with ⟨-, -, heq⟩ | ⟨-, hgo, -⟩ | ⟨-, -, heq⟩
    · rw [heq]
      rcases hs.pre n o ho with hpre | hpre <;> rw [hpre] <;> decide
    · have hin : (n, g o) ∈ activeOrders s' o.assetId :=
        mem_activeOrders.mpr ⟨hrow, hmoves.assetId, by rw [hgo]; rfl⟩
      rw [hnil] at hin
      cases hin
    · rcases heq with heq | heq <;> rw [heq] <;> decide
  · intro p hp
    obtain rfl := hmem p hp
    have hactive := (mem_activeOrders.mp hp).2.2
    refine ⟨hlive, ?_⟩
    rcases hmoves.steps with ⟨-, hgo, -⟩ | ⟨-, hgo, heq⟩ | ⟨-, hgo, -⟩
    · simp [hgo, RepairStatus.isActive] at hactive
    · rw [hgo]
      exact heq
    · simp [hgo, RepairStatus.isActive] at hactive

theorem FixedEffect.allFollow (h : FixedEffect a H s s') (hs : OrdersSound s) {seen : List FixedStore}
    (havoids : ∀ id, .lock (.asset id) ∈ H → AvoidsOrders a seen (.asset id) s)
    (hfollow : AllFollow s) : AllFollow s' := by
  intro id y hy
  cases h with
  | still hassets horders =>
      rw [activeOrders_congr horders]
      exact hfollow id y (hassets ▸ hy)
  | edited k x f hlock hx hdeleted hstatus hassets horders =>
      rw [activeOrders_congr horders]
      rw [hassets] at hy
      by_cases hid : id = k
      · subst hid
        rw [Table.find?_update_of_find? hx] at hy
        obtain rfl := Option.some.inj hy
        rcases hstatus with hstatus | ⟨hoverwrites, hnot⟩
        · exact (hfollow id x hx).congr hdeleted hstatus
        · have hfree := (havoids id hlock).1 hoverwrites
          rw [hfree]
          exact ⟨fun _ _ => hnot, fun p hp => absurd hp List.not_mem_nil⟩
      · rw [Table.find?_update_ne _ f hid] at hy
        exact hfollow id y hy
  | deleted ids hlocks hoverwrites hassets horders =>
      rw [activeOrders_congr horders]
      rw [hassets, markDeleted, Table.find?_updateMany] at hy
      cases hx : s.assets.find? id with
      | none => simp [hx] at hy
      | some x =>
          by_cases hid : id ∈ ids
          · have hfree := (havoids id (hlocks id hid)).1 hoverwrites
            simp [hx, hid] at hy
            subst hy
            rw [hfree]
            exact ⟨fun _ hlive => Bool.noConfusion hlive, fun p hp => absurd hp List.not_mem_nil⟩
          · simp [hx, hid] at hy
            subst hy
            exact hfollow id x hx
  | registered n x o hregisters hlock hactive hkey hnone hx hpre hstatus hpending hfree hassets
      horders =>
      rw [hassets] at hy
      by_cases hid : id = o.assetId
      · subst hid
        rw [Table.find?_update_of_find? hx] at hy
        obtain rfl := Option.some.inj hy
        obtain ⟨z, hz, hlive⟩ := (Option.any_eq_true _ _).mp ((havoids _ hlock).2 hregisters)
        obtain rfl := Option.some.inj (hx.symm.trans hz)
        exact follows_registered hlive hpending hfree horders
      · rw [Table.find?_update_ne _ _ hid] at hy
        rw [activeOrders_insert_ne hnone horders (Ne.symm hid)]
        exact hfollow id y hy
  | moved n x o g status hlock horder hactive hx ho hmoves hassets horders =>
      rw [hassets] at hy
      by_cases hid : id = o.assetId
      · subst hid
        rw [Table.find?_update_of_find? hx] at hy
        obtain rfl := Option.some.inj hy
        exact follows_moved hs (hfollow _ x hx) ho hmoves horders
      · rw [Table.find?_update_ne _ _ hid] at hy
        rw [activeOrders_update_ne ho hmoves.assetId horders (Ne.symm hid)]
        exact hfollow id y hy

theorem FixedEffect.orders_frame (h : FixedEffect a H s s') {id : Nat}
    (hid : .lock (.asset id) ∉ H) : activeOrders s' id = activeOrders s id := by
  have hne : ∀ {i}, .lock (.asset i) ∈ H → i ≠ id := fun hi heq => hid (heq ▸ hi)
  cases h with
  | still _ horders => exact activeOrders_congr horders id
  | edited _ _ _ _ _ _ _ _ horders => exact activeOrders_congr horders id
  | deleted _ _ _ _ horders => exact activeOrders_congr horders id
  | registered m x o _ hlock _ _ hnone _ _ _ _ _ _ horders =>
      exact activeOrders_insert_ne hnone horders (hne hlock)
  | moved m x o g status hlock _ _ _ ho hmoves _ horders =>
      exact activeOrders_update_ne ho hmoves.assetId horders (hne hlock)

theorem FixedEffect.created (h : FixedEffect a H s s') {n : Nat} {o : RepairOrder}
    (hnone : s.repairOrders.find? n = none) (ho : s'.repairOrders.find? n = some o) :
    ∃ x, s.assets.find? o.assetId = some x ∧ o.preStatus = x.usageStatus := by
  have hsame : s'.repairOrders = s.repairOrders → False := by
    intro heq
    rw [heq, hnone] at ho
    cases ho
  cases h with
  | still _ horders => exact (hsame horders).elim
  | edited _ _ _ _ _ _ _ _ horders => exact (hsame horders).elim
  | deleted _ _ _ _ horders => exact (hsame horders).elim
  | registered m x p _ _ _ _ _ hx hpre _ _ _ _ horders =>
      rw [horders, Table.find?_insert] at ho
      split at ho
      · obtain rfl := Option.some.inj ho
        exact ⟨x, hx, hpre⟩
      · cases hnone.symm.trans ho
  | moved m x p g status _ _ _ _ hp _ _ horders =>
      have hne : n ≠ m := by
        intro heq
        subst heq
        cases hnone.symm.trans hp
      rw [horders, Table.find?_update_ne _ g hne] at ho
      cases hnone.symm.trans ho

theorem FixedEffect.cancelled (h : FixedEffect a H s s') {n : Nat} {p q : RepairOrder}
    (hp : s.repairOrders.find? n = some p) (hpending : p.status = .pending)
    (hq : s'.repairOrders.find? n = some q) (hcancelled : q.status = .cancelled) :
    q.assetId = p.assetId ∧ ∃ y, s'.assets.find? q.assetId = some y ∧
      y.usageStatus = p.preStatus := by
  have hsame : s'.repairOrders.find? n = s.repairOrders.find? n → False := by
    intro heq
    obtain rfl := Option.some.inj (hp.symm.trans (heq.symm.trans hq))
    rw [hpending] at hcancelled
    cases hcancelled
  cases h with
  | still _ horders => exact (hsame (by rw [horders])).elim
  | edited _ _ _ _ _ _ _ _ horders => exact (hsame (by rw [horders])).elim
  | deleted _ _ _ _ horders => exact (hsame (by rw [horders])).elim
  | registered m x o _ _ _ _ hnone _ _ _ _ _ _ horders =>
      have hne : n ≠ m := by
        intro heq
        subst heq
        cases hnone.symm.trans hp
      exact (hsame (by rw [horders, Table.find?_insert_ne _ o hne])).elim
  | moved m x o g status _ _ _ hx ho hmoves hassets horders =>
      by_cases hn : n = m
      · subst hn
        obtain rfl := Option.some.inj (hp.symm.trans ho)
        rw [horders, Table.find?_update_of_find? ho] at hq
        obtain rfl := Option.some.inj hq
        refine ⟨hmoves.assetId, Asset.withStatus status x, ?_, ?_⟩
        · rw [hassets, hmoves.assetId]
          exact Table.find?_update_of_find? hx _
        · rcases hmoves.steps with ⟨-, -, heq⟩ | ⟨-, hgo, -⟩ | ⟨hstatus, -, -⟩
          · exact heq
          · rw [hcancelled] at hgo
            cases hgo
          · rw [hpending] at hstatus
            cases hstatus
      · exact (hsame (by rw [horders, Table.find?_update_ne _ g hn])).elim

end Commit

section Runs

variable {b : FixedDatabase}

theorem held_step (hsound : b.Sound fixedDiscipline) (h : b.Held AvoidsOrders)
    {e : DatabaseEvent FixedActivity} (he : b.Acquires AvoidsOrders e) :
    (b.step FixedActivity.call e).Held AvoidsOrders := by
  refine h.step hsound ?_ (fun _ _ _ _ _ hl => hl) he
  intro a x d s s' a' seen l hcommit hapart hlocked
  cases l with
  | asset id =>
      constructor
      · intro hoverwrites
        rw [FixedEffect.orders_frame hcommit hapart]
        exact hlocked.1 hoverwrites
      · intro hregisters
        rw [FixedEffect.asset_frame hcommit hapart]
        exact hlocked.2 hregisters
  | repairOrder id => trivial
  | activeRepair assetId => trivial
  | idempotency operatorId scope key => trivial

theorem allFollow_step (hsound : b.Sound fixedDiscipline) (h : b.Held AvoidsOrders)
    (hfollow : AllFollow b.store) (e : DatabaseEvent FixedActivity) :
    AllFollow (b.step FixedActivity.call e).store := by
  cases hc : b.committing e with
  | none =>
      rw [Database.store_step, hc]
      exact hfollow
  | some tx =>
      obtain ⟨t, x⟩ := tx
      exact FixedEffect.allFollow (hsound.committed hc) hsound.invariant
        (fun id hlock => h.committing hc _ hlock) hfollow

theorem allFollow_run (hsound : b.Sound fixedDiscipline) (h : b.Held AvoidsOrders)
    (hfollow : AllFollow b.store) {es : List (DatabaseEvent FixedActivity)}
    (hes : b.Steps FixedActivity.call (Database.Acquires AvoidsOrders) es) :
    AllFollow (b.run FixedActivity.call es).store := by
  refine (Database.Sound.run_induction fixedDiscipline_kept
    (I := fun b => b.Held AvoidsOrders ∧ AllFollow b.store) ?_ hsound ⟨h, hfollow⟩ hes).2
  exact fun b e hsound ⟨h, hfollow⟩ he => ⟨held_step hsound h he, allFollow_step hsound h hfollow e⟩

theorem effect_of_step (hsound : b.Sound fixedDiscipline) (e : DatabaseEvent FixedActivity) :
    (b.step FixedActivity.call e).store = b.store ∨
      ∃ a H, FixedEffect a H b.store (b.step FixedActivity.call e).store := by
  cases hc : b.committing e with
  | none =>
      rw [Database.store_step, hc]
      exact .inl rfl
  | some tx => exact .inr ⟨_, _, hsound.committed hc⟩

theorem sameOrder_run (hsound : b.Sound fixedDiscipline) (n : Nat)
    (es : List (DatabaseEvent FixedActivity)) :
    SameOrder n b.store (b.run FixedActivity.call es).store := by
  induction es generalizing b with
  | nil => exact fun o ho => ⟨o, ho, rfl, rfl⟩
  | cons e es ih =>
      intro o ho
      have hstep : SameOrder n b.store (b.step FixedActivity.call e).store := by
        rcases effect_of_step hsound e with hsame | ⟨a, H, heffect⟩
        · rw [hsame]
          exact fun o ho => ⟨o, ho, rfl, rfl⟩
        · exact heffect.sameOrder n
      obtain ⟨o₁, ho₁, hasset₁, hpre₁⟩ := hstep o ho
      obtain ⟨o₂, ho₂, hasset₂, hpre₂⟩ := ih (hsound.step fixedDiscipline_kept e) o₁ ho₁
      exact ⟨o₂, ho₂, hasset₂.trans hasset₁, hpre₂.trans hpre₁⟩

end Runs

/-- What the repairs mean for assets after a run: every status agrees with the orders, and the
cancellation of an order gives back the status that its asset had when it was registered. -/
structure RepairLaw (b : FixedDatabase) (es : List (DatabaseEvent FixedActivity)) : Prop where
  agrees : StatusAgrees (b.run FixedActivity.call es).store
  restores : ∀ ps e qs e', es = ps ++ e :: (qs ++ [e']) → ∀ n o p q,
    (b.run FixedActivity.call ps).store.repairOrders.find? n = none →
    (b.run FixedActivity.call (ps ++ [e])).store.repairOrders.find? n = some o →
    (b.run FixedActivity.call (ps ++ e :: qs)).store.repairOrders.find? n = some p →
    (b.run FixedActivity.call es).store.repairOrders.find? n = some q →
    p.status = .pending → q.status = .cancelled →
      ∃ x y, (b.run FixedActivity.call ps).store.assets.find? q.assetId = some x ∧
        (b.run FixedActivity.call es).store.assets.find? q.assetId = some y ∧
        y.usageStatus = x.usageStatus

theorem restores_of_run {b : FixedDatabase} (hsound : b.Sound fixedDiscipline)
    {ps qs : List (DatabaseEvent FixedActivity)} {e e' : DatabaseEvent FixedActivity}
    {o p q : RepairOrder} (hnone : (b.run FixedActivity.call ps).store.repairOrders.find? n = none)
    (ho : (b.run FixedActivity.call (ps ++ [e])).store.repairOrders.find? n = some o)
    (hp : (b.run FixedActivity.call (ps ++ e :: qs)).store.repairOrders.find? n = some p)
    (hq : (b.run FixedActivity.call (ps ++ e :: (qs ++ [e']))).store.repairOrders.find? n = some q)
    (hpending : p.status = .pending) (hcancelled : q.status = .cancelled) :
    ∃ x y, (b.run FixedActivity.call ps).store.assets.find? q.assetId = some x ∧
      (b.run FixedActivity.call (ps ++ e :: (qs ++ [e']))).store.assets.find? q.assetId = some y ∧
      y.usageStatus = x.usageStatus := by
  have hsound₀ := hsound.run fixedDiscipline_kept ps
  have hsound₁ := hsound.run fixedDiscipline_kept (ps ++ [e])
  have hsound₂ := hsound.run fixedDiscipline_kept (ps ++ e :: qs)
  have hstep₁ : b.run FixedActivity.call (ps ++ [e]) =
      (b.run FixedActivity.call ps).step FixedActivity.call e := by
    rw [Database.run_append]
    rfl
  have hrun₂ : b.run FixedActivity.call (ps ++ e :: qs) =
      (b.run FixedActivity.call (ps ++ [e])).run FixedActivity.call qs := by
    rw [← Database.run_append, List.append_assoc]
    rfl
  have hstep₃ : b.run FixedActivity.call (ps ++ e :: (qs ++ [e'])) =
      (b.run FixedActivity.call (ps ++ e :: qs)).step FixedActivity.call e' := by
    rw [← List.cons_append, ← List.append_assoc, Database.run_append]
    rfl
  obtain ⟨x, hx, hpre⟩ : ∃ x, (b.run FixedActivity.call ps).store.assets.find? o.assetId = some x ∧
      o.preStatus = x.usageStatus := by
    rw [hstep₁] at ho
    rcases effect_of_step hsound₀ e with hsame | ⟨a, H, heffect⟩
    · rw [hsame, hnone] at ho
      cases ho
    · exact heffect.created hnone ho
  obtain ⟨p', hp', hasset, hpre'⟩ := sameOrder_run hsound₁ n qs o ho
  rw [← hrun₂] at hp'
  obtain rfl := Option.some.inj (hp.symm.trans hp')
  rw [hstep₃] at hq ⊢
  rcases effect_of_step hsound₂ e' with hsame | ⟨a, H, heffect⟩
  · rw [hsame] at hq
    obtain rfl := Option.some.inj (hp.symm.trans hq)
    rw [hpending] at hcancelled
    cases hcancelled
  · obtain ⟨hqasset, y, hy, hstatus⟩ := heffect.cancelled hp hpending hq hcancelled
    refine ⟨x, y, ?_, hy, hstatus.trans (hpre'.trans hpre)⟩
    rw [hqasset, hasset]
    exact hx

/-- Where nothing writes an asset that has an order under way but its repair, and nothing that
is deleted is registered, assets and orders agree. -/
theorem repairLaw_of_run {n : Nat} {s : FixedStore} (hs : OrdersSound s)
    (hn : ∀ k, n ≤ k → s.repairOrders.find? k = none) (hagrees : StatusAgrees s)
    {es : List (DatabaseEvent FixedActivity)}
    (hes : (Database.init n s).Steps FixedActivity.call (Database.Acquires AvoidsOrders) es) :
    RepairLaw (Database.init n s) es := by
  have hinit : (Database.init n s : FixedDatabase).Sound fixedDiscipline := Database.sound_init hs hn
  have hsound := hinit.run fixedDiscipline_kept es
  constructor
  · exact (allFollow_iff hsound.invariant).mp (allFollow_run hinit (Database.held_init _ _ _)
      ((allFollow_iff hs).mpr hagrees) hes)
  · intro ps e qs e' heq k o p q hnone ho hp hq hpending hcancelled
    subst heq
    exact restores_of_run hinit hnone ho hp hq hpending hcancelled

/-! ## An edit and a registration -/

def plainAsset : Asset where
  name := "press"
  categoryId := none
  categoryName := none
  specModel := none
  amount := 0
  purchaseAt := none
  usageStatus := .idle
  ownership := .company
  ownerName := none
  departmentId := some 1
  departmentName := some "workshop"
  responsibleUserId := none
  responsibleUserName := none
  currentUserId := none
  currentUserName := none
  imageOssKey := none
  remark := none
  deletedAt := none

def oneAsset : FixedStore := { FixedStore.empty with assets := Table.empty.insert 1 plainAsset }

def plainEnvironment : FixedEnvironment where
  now := 0
  access _ := ⟨true, true, "asset", true, some .company⟩
  closureOfUser _ := []
  category _ := none
  department _ := none
  userAccount _ := none
  belongs _ _ := true
  decimal _ := 0
  decimalText _ := "0"
  time _ := 0
  date _ := 0

def activityOf (operation : FixedOperation) : FixedActivity :=
  ⟨plainEnvironment, ⟨1, "operator", []⟩, operation, none, ""⟩

/-- The asset is set to be in use. -/
def edit : FixedActivity := activityOf <| .update 1
  { name := "press", categoryId := none, specModel := none, amount := "0", purchaseAt := none
    ownership := .company, ownerName := none, currentUserId := none, imageOssKey := none
    remark := none, usageStatus := .inUse }

def registration : FixedActivity := activityOf (.register ⟨1, "noise", none, none⟩)

/-- A session from its begin to its end. -/
def session (i : Nat) (a : FixedActivity) : List (DatabaseEvent FixedActivity) :=
  .start i a :: List.replicate 20 (.advance i)

/-- An edit has looked at the asset when it is registered for repair. -/
def registerAmidEdit : List (DatabaseEvent FixedActivity) :=
  [.start 0 edit, .advance 0] ++ session 1 registration ++ List.replicate 20 (.advance 0)

theorem not_repairLaw_registerAmidEdit :
    ¬ RepairLaw (Database.init 2 oneAsset) registerAmidEdit := by
  intro h
  have hasset : (((Database.init 2 oneAsset).run FixedActivity.call
      registerAmidEdit).store.assets.find? 1).map (fun x => (x.isLive, x.usageStatus)) =
        some (true, .inUse) := by
    decide +kernel
  have horder : (((Database.init 2 oneAsset).run FixedActivity.call
      registerAmidEdit).store.repairOrders.find? 2).map (fun o => (o.assetId, o.status)) =
        some (1, .pending) := by
    decide +kernel
  obtain ⟨x, hx, hxs⟩ := Option.map_eq_some_iff.mp hasset
  obtain ⟨o, ho, hos⟩ := Option.map_eq_some_iff.mp horder
  obtain ⟨hlive, hstatus⟩ := Prod.mk.inj hxs
  obtain ⟨hid, hpending⟩ := Prod.mk.inj hos
  have hunder := ((h.agrees 1 x hx).pending hlive).mpr ⟨2, o, ho, hid, hpending⟩
  rw [hstatus] at hunder
  cases hunder

theorem ordersSound_oneAsset : OrdersSound oneAsset where
  one _ _ _ _ hm := by simp [oneAsset, FixedStore.empty] at hm
  pre _ _ hn := by simp [oneAsset, FixedStore.empty] at hn

theorem statusAgrees_oneAsset : StatusAgrees oneAsset := by
  rw [← allFollow_iff ordersSound_oneAsset]
  intro id x hx
  have hrow : x = plainAsset := by
    simp only [oneAsset, FixedStore.empty, Table.find?_insert, Table.find?_empty] at hx
    split at hx
    · exact (Option.some.inj hx).symm
    · cases hx
  subst hrow
  constructor
  · exact fun _ _ => rfl
  · intro p hp
    obtain ⟨hp, -⟩ := mem_activeOrders.mp hp
    simp [oneAsset, FixedStore.empty] at hp

/-- An asset that is edited and then registered, one after the other. -/
theorem repairLaw_of_run_in_order :
    RepairLaw (Database.init 2 oneAsset) (session 0 edit ++ session 1 registration) :=
  repairLaw_of_run ordersSound_oneAsset (fun _ _ => rfl) statusAgrees_oneAsset (by decide +kernel)

end Wbme.FixedAsset
