import Wbme.FixedAsset.Operations
import Wbme.IdempotencyAmid

/-! # What the operations on fixed assets commit

An edit or a write-off, a deletion, a registration for repair, or a step of a repair order: what
each does to the assets and the orders, and what it leaves alone behind the locks of others.
-/

namespace Wbme.FixedAsset

open Lib AssetService RepairService

abbrev FixedDraft := Draft FixedStore FixedLock

abbrev FixedDatabase := Database FixedStore FixedLock Failure FixedReply FixedActivity

/-! ## Activities -/

/-- Edits, write-offs and deletions. -/
def FixedActivity.overwrites (a : FixedActivity) : Bool :=
  match a.operation with
  | .update _ _ => true
  | .scrap _ _ => true
  | .batchDelete _ => true
  | _ => false

def FixedActivity.registers (a : FixedActivity) : Bool :=
  match a.operation with
  | .register _ => true
  | _ => false

/-! ## Commits -/

structure Moves (o o' : RepairOrder) (status : AssetStatus) : Prop where
  assetId : o'.assetId = o.assetId
  preStatus : o'.preStatus = o.preStatus
  steps : (o.status = .pending ∧ o'.status = .cancelled ∧ status = o.preStatus) ∨
    (o.status = .pending ∧ o'.status = .repairing ∧ status = .repairing) ∨
    (o.status = .repairing ∧ o'.status = .completed ∧ (status = .idle ∨ status = .inUse))

def Asset.withStatus (status : AssetStatus) (x : Asset) : Asset := { x with usageStatus := status }

inductive FixedEffect (a : FixedActivity) (H : List (Hold FixedLock)) (s s' : FixedStore) :
    Prop where
  | still (hassets : s'.assets = s.assets) (horders : s'.repairOrders = s.repairOrders)
  | edited (id : Nat) (x : Asset) (f : Asset → Asset) (hlock : .lock (.asset id) ∈ H)
      (hx : s.assets.find? id = some x) (hdeleted : (f x).deletedAt = x.deletedAt)
      (hstatus : (f x).usageStatus = x.usageStatus ∨
        (a.overwrites = true ∧ isUnderRepair (f x) = false))
      (hassets : s'.assets = s.assets.update id f) (horders : s'.repairOrders = s.repairOrders)
  | deleted (ids : List Nat) (hlocks : ∀ id ∈ ids, .lock (.asset id) ∈ H)
      (hoverwrites : a.overwrites = true)
      (hassets : s'.assets = markDeleted a.env ids s.assets)
      (horders : s'.repairOrders = s.repairOrders)
  | registered (n : Nat) (x : Asset) (o : RepairOrder) (hregisters : a.registers = true)
      (hlock : .lock (.asset o.assetId) ∈ H) (hactive : .lock (.activeRepair o.assetId) ∈ H)
      (hkey : .key n ∈ H) (hnone : s.repairOrders.find? n = none)
      (hx : s.assets.find? o.assetId = some x) (hpre : o.preStatus = x.usageStatus)
      (hstatus : x.usageStatus = .idle ∨ x.usageStatus = .inUse) (hpending : o.status = .pending)
      (hfree : activeOrders s o.assetId = [])
      (hassets : s'.assets = s.assets.update o.assetId (Asset.withStatus .pendingRepair))
      (horders : s'.repairOrders = s.repairOrders.insert n o)
  | moved (n : Nat) (x : Asset) (o : RepairOrder) (g : RepairOrder → RepairOrder)
      (status : AssetStatus) (hlock : .lock (.asset o.assetId) ∈ H)
      (horder : .lock (.repairOrder n) ∈ H) (hactive : .lock (.activeRepair o.assetId) ∈ H)
      (hx : s.assets.find? o.assetId = some x) (ho : s.repairOrders.find? n = some o)
      (hmoves : Moves o (g o) status)
      (hassets : s'.assets = s.assets.update o.assetId (Asset.withStatus status))
      (horders : s'.repairOrders = s.repairOrders.update n g)

/-- The orders of an asset exclude one another, and each remembers a status to go back to. -/
structure OrdersSound (s : FixedStore) : Prop where
  one : ∀ m n o p, s.repairOrders.find? m = some o → s.repairOrders.find? n = some p →
    o.status.isActive = true → p.status.isActive = true → o.assetId = p.assetId → m = n
  pre : ∀ n o, s.repairOrders.find? n = some o → o.preStatus = .idle ∨ o.preStatus = .inUse

variable {o : RepairOrder}

section Effect

variable {a : FixedActivity} {H : List (Hold FixedLock)} {s s' : FixedStore}

theorem mem_activeOrders {s : FixedStore} {assetId n : Nat} :
    (n, o) ∈ activeOrders s assetId ↔
      s.repairOrders.find? n = some o ∧ o.assetId = assetId ∧ o.status.isActive = true := by
  simp [activeOrders, Table.mem_select]

theorem not_active_of_free {assetId n : Nat} (h : activeOrders s assetId = [])
    (ho : s.repairOrders.find? n = some o) (hasset : o.assetId = assetId) :
    o.status.isActive = false := by
  rw [← Bool.not_eq_true]
  intro hactive
  have hmem := mem_activeOrders.mpr ⟨ho, hasset, hactive⟩
  rw [h] at hmem
  cases hmem

theorem Moves.active {o o' : RepairOrder} {status : AssetStatus} (h : Moves o o' status) :
    o.status.isActive = true := by
  rcases h.steps with ⟨hs, -⟩ | ⟨hs, -⟩ | ⟨hs, -⟩ <;> rw [hs] <;> rfl

theorem FixedEffect.mono {H' : List (Hold FixedLock)} (h : FixedEffect a H s s') (hsub : H ⊆ H') :
    FixedEffect a H' s s' := by
  cases h with
  | still hassets horders => exact .still hassets horders
  | edited id x f hlock hx hdeleted hstatus hassets horders =>
      exact .edited id x f (hsub hlock) hx hdeleted hstatus hassets horders
  | deleted ids hlocks hoverwrites hassets horders =>
      exact .deleted ids (fun id hid => hsub (hlocks id hid)) hoverwrites hassets horders
  | registered n x o hregisters hlock hactive hkey hnone hx hpre hstatus hpending hfree hassets
      horders =>
      exact .registered n x o hregisters (hsub hlock) (hsub hactive) (hsub hkey) hnone hx hpre
        hstatus hpending hfree hassets horders
  | moved n x o g status hlock horder hactive hx ho hmoves hassets horders =>
      exact .moved n x o g status (hsub hlock) (hsub horder) (hsub hactive) hx ho hmoves hassets
        horders

theorem FixedEffect.congr {s'' : FixedStore} (h : FixedEffect a H s s')
    (hassets : s''.assets = s'.assets) (horders : s''.repairOrders = s'.repairOrders) :
    FixedEffect a H s s'' := by
  cases h with
  | still h₁ h₂ => exact .still (hassets.trans h₁) (horders.trans h₂)
  | edited id x f hlock hx hdeleted hstatus h₁ h₂ =>
      exact .edited id x f hlock hx hdeleted hstatus (hassets.trans h₁) (horders.trans h₂)
  | deleted ids hlocks hoverwrites h₁ h₂ =>
      exact .deleted ids hlocks hoverwrites (hassets.trans h₁) (horders.trans h₂)
  | registered n x o hregisters hlock hactive hkey hnone hx hpre hstatus hpending hfree h₁ h₂ =>
      exact .registered n x o hregisters hlock hactive hkey hnone hx hpre hstatus hpending hfree
        (hassets.trans h₁) (horders.trans h₂)
  | moved n x o g status hlock horder hactive hx ho hmoves h₁ h₂ =>
      exact .moved n x o g status hlock horder hactive hx ho hmoves (hassets.trans h₁)
        (horders.trans h₂)

/-! ## What others leave alone -/

theorem activeOrders_insert_ne {n id : Nat} (hnone : s.repairOrders.find? n = none)
    (horders : s'.repairOrders = s.repairOrders.insert n o) (hne : o.assetId ≠ id) :
    activeOrders s' id = activeOrders s id := by
  refine Table.select_congr fun k => ?_
  rw [horders]
  by_cases hk : k = n
  · subst hk
    rw [Table.find?_insert_self, hnone]
    simp [Option.filter, hne]
  · rw [Table.find?_insert_ne _ o hk]

theorem activeOrders_update_ne {n id : Nat} {g : RepairOrder → RepairOrder}
    (ho : s.repairOrders.find? n = some o) (hg : (g o).assetId = o.assetId)
    (horders : s'.repairOrders = s.repairOrders.update n g) (hne : o.assetId ≠ id) :
    activeOrders s' id = activeOrders s id := by
  refine Table.select_congr fun k => ?_
  rw [horders]
  by_cases hk : k = n
  · subst hk
    rw [Table.find?_update_of_find? ho, ho]
    simp [Option.filter, hg, hne]
  · rw [Table.find?_update_ne _ g hk]

theorem FixedEffect.asset_frame (h : FixedEffect a H s s') {id : Nat}
    (hid : .lock (.asset id) ∉ H) : s'.assets.find? id = s.assets.find? id := by
  have hne : ∀ {i}, .lock (.asset i) ∈ H → id ≠ i := fun hi heq => hid (heq ▸ hi)
  cases h with
  | still hassets _ => rw [hassets]
  | edited i x f hlock _ _ _ hassets _ =>
      rw [hassets]
      exact Table.find?_update_ne _ f (hne hlock)
  | deleted ids hlocks _ hassets _ =>
      rw [hassets, markDeleted, Table.find?_updateMany]
      have hnot : id ∉ ids := fun hmem => hid (hlocks id hmem)
      cases s.assets.find? id <;> simp [hnot]
  | registered n x o _ hlock _ _ _ _ _ _ _ _ hassets _ =>
      rw [hassets]
      exact Table.find?_update_ne _ _ (hne hlock)
  | moved n x o g status hlock _ _ _ _ _ hassets _ =>
      rw [hassets]
      exact Table.find?_update_ne _ _ (hne hlock)

theorem FixedEffect.order_frame (h : FixedEffect a H s s') {n : Nat}
    (hlock : .lock (.repairOrder n) ∉ H) (hkey : .key n ∉ H ∨ s.repairOrders.find? n ≠ none) :
    s'.repairOrders.find? n = s.repairOrders.find? n := by
  cases h with
  | still _ horders => rw [horders]
  | edited _ _ _ _ _ _ _ _ horders => rw [horders]
  | deleted _ _ _ _ horders => rw [horders]
  | registered m x o _ _ _ hm hnone _ _ _ _ _ _ horders =>
      have hne : n ≠ m := by
        intro heq
        subst heq
        exact hkey.elim (fun h => h hm) fun h => h hnone
      rw [horders]
      exact Table.find?_insert_ne _ o hne
  | moved m x o g status _ hm _ _ _ _ _ horders =>
      have hne : n ≠ m := fun heq => hlock (heq ▸ hm)
      rw [horders]
      exact Table.find?_update_ne _ g hne

theorem FixedEffect.active_frame (h : FixedEffect a H s s') {id : Nat}
    (hid : .lock (.activeRepair id) ∉ H) : activeOrders s' id = activeOrders s id := by
  have hne : ∀ {i}, .lock (.activeRepair i) ∈ H → i ≠ id := fun hi heq => hid (heq ▸ hi)
  cases h with
  | still _ horders => simp [activeOrders, horders]
  | edited _ _ _ _ _ _ _ _ horders => simp [activeOrders, horders]
  | deleted _ _ _ _ horders => simp [activeOrders, horders]
  | registered m x o _ _ hactive _ hnone _ _ _ _ _ _ horders =>
      exact activeOrders_insert_ne hnone horders (hne hactive)
  | moved m x o g status _ _ hactive _ ho hmoves _ horders =>
      exact activeOrders_update_ne ho hmoves.assetId horders (hne hactive)

/-! ## What every commit keeps of the orders -/

theorem FixedEffect.ordersSound (h : FixedEffect a H s s') (hs : OrdersSound s) :
    OrdersSound s' := by
  cases h with
  | still _ horders => exact ⟨by rw [horders]; exact hs.one, by rw [horders]; exact hs.pre⟩
  | edited _ _ _ _ _ _ _ _ horders =>
      exact ⟨by rw [horders]; exact hs.one, by rw [horders]; exact hs.pre⟩
  | deleted _ _ _ _ horders =>
      exact ⟨by rw [horders]; exact hs.one, by rw [horders]; exact hs.pre⟩
  | registered k x o _ _ _ _ _ _ hpre hstatus _ hfree _ horders =>
      have hother : ∀ m p, s.repairOrders.find? m = some p → p.status.isActive = true →
          p.assetId ≠ o.assetId := by
        intro m p hp hactive hasset
        rw [not_active_of_free hfree hp hasset] at hactive
        cases hactive
      constructor
      · intro m n p q hp hq hpa hqa hasset
        rw [horders, Table.find?_insert] at hp hq
        split at hp <;> split at hq
        · rename_i hm hn
          rw [hm, hn]
        · cases hp
          exact absurd hasset.symm (hother n q hq hqa)
        · cases hq
          exact absurd hasset (hother m p hp hpa)
        · exact hs.one m n p q hp hq hpa hqa hasset
      · intro n p hp
        rw [horders, Table.find?_insert] at hp
        split at hp
        · cases hp
          rw [hpre]
          exact hstatus
        · exact hs.pre n p hp
  | moved k x o g status _ _ _ _ ho hmoves _ horders =>
      have hback : ∀ n p, s'.repairOrders.find? n = some p → ∃ q, s.repairOrders.find? n = some q ∧
          q.assetId = p.assetId ∧ q.preStatus = p.preStatus ∧
          (p.status.isActive = true → q.status.isActive = true) := by
        intro n p hp
        rw [horders] at hp
        by_cases hn : n = k
        · subst hn
          rw [Table.find?_update_of_find? ho] at hp
          cases hp
          exact ⟨o, ho, hmoves.assetId.symm, hmoves.preStatus.symm, fun _ => hmoves.active⟩
        · rw [Table.find?_update_ne _ g hn] at hp
          exact ⟨p, hp, rfl, rfl, id⟩
      constructor
      · intro m n p q hp hq hpa hqa hasset
        obtain ⟨p₀, hp₀, hpasset, -, hpactive⟩ := hback m p hp
        obtain ⟨q₀, hq₀, hqasset, -, hqactive⟩ := hback n q hq
        exact hs.one m n p₀ q₀ hp₀ hq₀ (hpactive hpa) (hqactive hqa)
          (hpasset.trans (hasset.trans hqasset.symm))
      · intro n p hp
        obtain ⟨p₀, hp₀, -, hpre, -⟩ := hback n p hp
        rw [← hpre]
        exact hs.pre n p₀ hp₀

end Effect

/-! ## The discipline -/

def fixedDiscipline : Discipline FixedStore FixedLock FixedReply FixedActivity where
  invariant := OrdersSound
  unused n s := ∀ k, n ≤ k → s.repairOrders.find? k = none
  commits a _ d s s' := FixedEffect a d.holds s s'
  invariant_of_commits _ _ _ _ _ h hs := h.ordersSound hs
  unused_of_le _ _ _ h hle k hk := h k (Nat.le_trans hle hk)
  unused_of_commits := by
    intro a x d s s' n h hs hkeys k hk
    cases h with
    | still _ horders => rw [horders]; exact hs k hk
    | edited _ _ _ _ _ _ _ _ horders => rw [horders]; exact hs k hk
    | deleted _ _ _ _ horders => rw [horders]; exact hs k hk
    | registered m x o _ _ _ hm _ _ _ _ _ _ _ horders =>
        have hlt := hkeys m hm
        rw [horders, Table.find?_insert_ne _ o (by omega)]
        exact hs k hk
    | moved m x o g status _ _ _ _ ho _ _ horders =>
        have hne : k ≠ m := by
          intro heq
          subst heq
          cases (hs k hk).symm.trans ho
        rw [horders, Table.find?_update_ne _ g hne]
        exact hs k hk

theorem fixedDiscipline_logs : assetLog.Logs fixedDiscipline where
  idle _ _ _ _ _ := .still rfl rfl
  insert _ _ _ _ _ _ _ _ h hsub _ _ := (h.mono hsub).congr rfl rfl

section Rely

variable {H : List (Hold FixedLock)} {s s' : FixedStore}

theorem asset_kept (h : fixedDiscipline.Rely H s s') {id : Nat} (hlock : .lock (.asset id) ∈ H) :
    s'.assets.find? id = s.assets.find? id := by
  apply h.induction (P := fun s s' => s'.assets.find? id = s.assets.find? id)
  · exact fun _ => rfl
  · exact fun _ _ _ h h' => h'.trans h
  · exact fun a x d s s' h hapart => h.asset_frame fun hmem => hapart _ hmem hlock

theorem order_kept (h : fixedDiscipline.Rely H s s') {n : Nat} (hlock : .lock (.repairOrder n) ∈ H)
    (ho : s.repairOrders.find? n = some o) : s'.repairOrders.find? n = some o := by
  revert ho
  apply h.induction (P := fun s s' => s.repairOrders.find? n = some o →
    s'.repairOrders.find? n = some o)
  · exact fun _ ho => ho
  · exact fun _ _ _ h h' ho => h' (h ho)
  · intro a x d s s' h hapart ho
    rw [h.order_frame (fun hmem => hapart _ hmem hlock) (.inr (by simp [ho]))]
    exact ho

theorem unborn_kept (h : fixedDiscipline.Rely H s s') {n : Nat} (hkey : .key n ∈ H)
    (hn : s.repairOrders.find? n = none) : s'.repairOrders.find? n = none := by
  revert hn
  apply h.induction (P := fun s s' => s.repairOrders.find? n = none →
    s'.repairOrders.find? n = none)
  · exact fun _ hn => hn
  · exact fun _ _ _ h h' hn => h' (h hn)
  intro a x d s s' h hapart hn
  have hnot : .key n ∉ d.holds := fun hmem => hapart _ hmem hkey
  cases h with
  | moved m x o g status _ hm _ _ ho _ _ horders =>
      have hne : n ≠ m := by
        intro heq
        subst heq
        cases hn.symm.trans ho
      rw [horders, Table.find?_update_ne _ g hne]
      exact hn
  | still _ horders => rw [horders]; exact hn
  | edited _ _ _ _ _ _ _ _ horders => rw [horders]; exact hn
  | deleted _ _ _ _ horders => rw [horders]; exact hn
  | registered m x o _ _ _ hm _ _ _ _ _ _ _ horders =>
      have hne : n ≠ m := fun heq => hnot (heq ▸ hm)
      rw [horders, Table.find?_insert_ne _ o hne]
      exact hn

theorem active_kept (h : fixedDiscipline.Rely H s s') {id : Nat}
    (hlock : .lock (.activeRepair id) ∈ H) : activeOrders s' id = activeOrders s id := by
  apply h.induction (P := fun s s' => activeOrders s' id = activeOrders s id)
  · exact fun _ => rfl
  · exact fun _ _ _ h h' => h'.trans h
  · exact fun a x d s s' h hapart => h.active_frame fun hmem => hapart _ hmem hlock

end Rely

end Wbme.FixedAsset
