import Wbme.Asset.Preservation.Rules

/-! # Editing consumables keeps the invariant

A consumable is deleted together with its items. Nothing refers to it by then,
so these items are empty and no open record needs them.
-/

namespace Wbme.Asset.ConsumableService

open Lib

variable {k : Slack} {n : Nat} {s : Store}

theorem readOnly_assertTypeParams (input : ConsumableInput) : (assertTypeParams input).ReadOnly :=
  (Txn.readOnly_guard _ _).bind fun _ => Txn.readOnly_guard _ _

variable (env : Environment)

theorem readOnly_loadCategory (categoryId currentId : Option Nat) :
    (loadCategory env categoryId currentId).ReadOnly := by
  unfold loadCategory
  split
  · exact Txn.readOnly_pure _
  · split
    · exact Txn.readOnly_pure _
    · exact Txn.readOnly_throw _

theorem readOnly_loadUnit (unitId currentId : Option Nat) :
    (loadUnit env unitId currentId).ReadOnly := by
  unfold loadUnit
  split
  · exact Txn.readOnly_pure _
  · split
    · exact Txn.readOnly_pure _
    · exact Txn.readOnly_throw _

theorem create_safe (input : ConsumableInput) (h : Inv k n s) :
    (create env input).safe (fun _ => Inv k) n s := by
  unfold create
  rw [Txn.safe, Txn.wp_bind]
  refine (readOnly_assertTypeParams input).safe fun _ => ?_
  rw [Txn.wp_bind]
  refine (readOnly_loadCategory env _ _).safe fun category => ?_
  rw [Txn.wp_bind]
  refine (readOnly_loadUnit env _ _).safe fun unit => ?_
  exact Asset.create_safe fun _ => h.insertConsumable _

theorem update_safe (id : Nat) (input : ConsumableInput) (h : Inv k n s) :
    (update env id input).safe (fun _ => Inv k) n s := by
  unfold update
  rw [Txn.safe, Txn.wp_bind]
  refine (readOnly_assertTypeParams input).safe fun _ => ?_
  rw [Txn.wp_bind, Txn.wp_query, Txn.wp_bind]
  refine Txn.safe_orThrow fun existing _ => ?_
  rw [Txn.wp_bind]
  refine Txn.safe_guard fun _ => ?_
  rw [Txn.wp_bind, Txn.wp_query, Txn.wp_bind]
  refine Txn.safe_guard fun _ => ?_
  rw [Txn.wp_bind]
  refine (readOnly_loadCategory env _ _).safe fun category => ?_
  rw [Txn.wp_bind]
  refine (readOnly_loadUnit env _ _).safe fun unit => ?_
  dsimp only
  rw [Txn.wp_act]
  split
  · rename_i result hresult
    split at hresult
    · cases hresult
    · split at hresult
      · cases hresult
      · cases hresult
        exact h.updateConsumable id _
  · trivial

/-! ## Deletion -/

theorem length_select_eq_zero {α : Type} {t : Table α} {p : Nat → α → Bool} :
    (t.select p).length = 0 ↔ ∀ j r, t.find? j = some r → p j r = false := by
  rw [← isEmpty_select, Bool.not_eq_false', List.isEmpty_iff, List.length_eq_zero_iff]

theorem unreferenced {ids : List Nat} (h : Inv k n s) (hnone : countReferenced s ids = 0)
    {i : Nat} {r : InventoryItem} (hr : s.inventoryItems.find? i = some r)
    (hids : ids.contains r.consumableId = true) :
    r.bookQty = 0 ∧ r.reservedQty = 0 ∧
      ∀ b rec, s.borrowRecords.find? b = some rec → rec.inventoryItemId = i → rec.openQty ≤ 0 := by
  unfold countReferenced at hnone
  have hitems := length_select_eq_zero.mp (show (s.inventoryItems.select (fun _ i =>
    ids.contains i.consumableId && (0 < i.bookQty || 0 < i.reservedQty))).length = 0 by omega)
    i r hr
  have hborrows := length_select_eq_zero.mp (show (s.borrowRecords.select (fun _ r =>
    itemOf s ids r.inventoryItemId && 0 < r.openQty)).length = 0 by omega)
  have hquantities := h.stock.quantities i r hr
  rw [hids, Bool.true_and, Bool.or_eq_false_iff, decide_eq_false_iff_not,
    decide_eq_false_iff_not] at hitems
  refine ⟨by omega, by omega, fun b rec hb hi => ?_⟩
  have hrec := hborrows b rec hb
  rw [itemOf, hi, hr, Option.any_some, hids, Bool.true_and, decide_eq_false_iff_not] at hrec
  omega

theorem batchDelete_safe (ids : List Nat) (h : Inv k n s) :
    (batchDelete ids).safe (fun _ => Inv k) n s := by
  unfold batchDelete
  rw [Txn.safe, Txn.wp_bind, Txn.wp_query, Txn.wp_bind]
  refine Txn.safe_guard fun _ => ?_
  rw [Txn.wp_bind, Txn.wp_query, Txn.wp_bind]
  refine Txn.safe_guard fun hnone => ?_
  rw [beq_iff_eq] at hnone
  rw [Txn.wp_bind, deleteItemsOf, Txn.wp_exec, deleteConsumables, Txn.wp_act]
  have hdoomed : ∀ i r, s.inventoryItems.find? i = some r →
      (((s.inventoryItems.select (fun _ i => ids.contains i.consumableId)).map
        (·.1)).contains i = true ↔ ids.contains r.consumableId = true) := by
    intro i r hr
    rw [List.contains_iff_mem, List.mem_map]
    constructor
    · rintro ⟨p, hp, rfl⟩
      obtain ⟨hfind, hids⟩ := Table.mem_select.mp hp
      obtain rfl : r = p.2 := by simpa [hr] using hfind
      exact hids
    · intro hids
      exact ⟨(i, r), Table.mem_select.mpr ⟨hr, hids⟩, rfl⟩
  have hstep := h.deleteItems (e := k.exempt)
    (p := fun id _ => ((s.inventoryItems.select (fun _ i => ids.contains i.consumableId)).map
      (·.1)).contains id)
    (fun i r hr hp => by
      have := unreferenced h hnone hr ((hdoomed i r hr).mp hp)
      exact ⟨this.1, this.2.1⟩)
    (fun b rec hb ho r hr => by
      by_contra hp
      have := (unreferenced h hnone hr ((hdoomed _ r hr).mp (by simpa using hp))).2.2 b rec hb rfl
      omega)
    (fun _ _ _ _ hx => hx)
  dsimp only
  split
  · rename_i result hresult
    split at hresult
    · rename_i hgone
      cases hresult
      refine hstep.deleteConsumables fun i r hr c _ => ?_
      rw [← Bool.not_eq_false', isEmpty_select] at hgone
      exact hgone i r hr
    · cases hresult
  · trivial

end Wbme.Asset.ConsumableService
