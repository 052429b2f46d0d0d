import Wbme.Asset.Preservation.HeadSteps

/-! # Steps of loans

Lending writes the record first and then its allocations; restoring raises the
allocations first and then the record. In between, the lent quantity is not yet
allocated, or the returned quantity is not yet on the record.
-/

namespace Wbme.Asset

open Lib

theorem BorrowRecord.quantitiesOk_iff {r : BorrowRecord} :
    r.quantitiesOk = true ↔ 0 < r.qty ∧ r.returnedQty + r.writtenOffQty ≤ r.qty := by
  simp only [BorrowRecord.quantitiesOk, Bool.and_eq_true, decide_eq_true_eq]

variable {a : BorrowBatchAllocation}

theorem BorrowBatchAllocation.quantitiesOk_iff :
    a.quantitiesOk = true ↔ 0 < a.issuedQty ∧ 0 ≤ a.returnedQty ∧ a.returnedQty ≤ a.issuedQty := by
  simp only [BorrowBatchAllocation.quantitiesOk, Bool.and_eq_true, decide_eq_true_eq, and_assoc]

section Loans

variable {borrows : Table BorrowRecord} {id : Nat} {r : BorrowRecord}
  {f : BorrowRecord → BorrowRecord} {x y : Int}

variable {type : BorrowType}

theorem RecordOfType.insert {j n : Nat} {row : BorrowRecord} (h : RecordOfType borrows j type)
    (hn : borrows.find? n = none) : RecordOfType (borrows.insert n row) j type := by
  obtain ⟨r, hr, ht⟩ := h
  have hne : j ≠ n := fun hj => by rw [hj, hn] at hr; cases hr
  exact ⟨r, by rw [Table.find?_insert_ne _ _ hne, hr], ht⟩

theorem RecordOfType.update {j : Nat} (h : RecordOfType borrows j type)
    (hr : borrows.find? id = some r) (hf : (f r).recordType = r.recordType) :
    RecordOfType (borrows.update id f) j type := by
  obtain ⟨r', hr', ht⟩ := h
  by_cases hj : j = id
  · subst hj
    obtain rfl : r = r' := by simpa [hr] using hr'
    exact ⟨f r, by simp [hr], by rw [hf, ht]⟩
  · exact ⟨r', by rw [Table.find?_update_ne _ _ hj, hr'], ht⟩

theorem openQty_update (hq : (f r).qty = r.qty) (hx : (f r).returnedQty = r.returnedQty + x)
    (hy : (f r).writtenOffQty = r.writtenOffQty + y) : (f r).openQty = r.openQty + -(x + y) := by
  unfold BorrowRecord.openQty
  omega

theorem openOn_update (hr : borrows.find? id = some r)
    (hi : (f r).inventoryItemId = r.inventoryItemId) (hq : (f r).qty = r.qty)
    (hx : (f r).returnedQty = r.returnedQty + x) (hy : (f r).writtenOffQty = r.writtenOffQty + y) :
    openOn (borrows.update id f) = bump (openOn borrows) r.inventoryItemId (-(x + y)) :=
  Table.sumBy_update hr hi (openQty_update hq hx hy)

theorem RecordsOk.openQty_nonneg {items : Table InventoryItem} (h : RecordsOk borrows items) :
    ∀ j r, borrows.find? j = some r → 0 ≤ r.openQty := fun j r hr => by
  have := h.quantities j r hr
  unfold BorrowRecord.openQty
  omega

variable {k : Slack} {n : Nat} {s : Store}

theorem Inv.insertRecord (h : Inv k n s) {w : BorrowRecord} (hq : 0 < w.qty)
    (hret : w.returnedQty = 0) (hoff : w.writtenOffQty = 0)
    (hitem : (s.inventoryItems.find? w.inventoryItemId).isSome) :
    Inv { k with lent := bump k.lent n w.qty } (n + 1)
      { s with borrowRecords := s.borrowRecords.insert n w } := by
  have hnone := h.fresh.borrowRecords.find?_none (Nat.le_refl n)
  have hopen : w.openQty = w.qty := by
    unfold BorrowRecord.openQty
    omega
  exact
    { h with
      fresh := { h.fresh.mono n.le_succ with
        borrowRecords := (h.fresh.borrowRecords.mono n.le_succ).insert n.lt_succ_self w }
      actionLines :=
        { action := fun j l hl =>
            ⟨(h.actionLines.action j l hl).1, (h.actionLines.action j l hl).2.1,
              (h.actionLines.action j l hl).2.2.insert hnone⟩
          settlement := fun j l hl =>
            ⟨(h.actionLines.settlement j l hl).1, (h.actionLines.settlement j l hl).2.1,
              (h.actionLines.settlement j l hl).2.2.insert hnone⟩ }
      allocations :=
        { h.allocations with
          issued := fun j => by
            have hj := h.allocations.issued j
            rw [Table.valueAt_insert hnone]
            simp only [bump]
            split <;> omega
          returned := fun j => by
            have hj := h.allocations.returned j
            rw [Table.valueAt_insert hnone, hret, bump_zero]
            exact hj
          home := fun j a ha => by
            obtain ⟨b, r', hb, hr', heq⟩ := h.allocations.home j a ha
            have hne : a.borrowRecordId ≠ n := fun hn => by rw [hn, hnone] at hr'; cases hr'
            exact ⟨b, r', hb, by rw [Table.find?_insert_ne _ _ hne, hr'], heq⟩ }
      records :=
        { quantities := fun j r' hj => by
            obtain ⟨rfl, rfl⟩ | ⟨-, hj⟩ := find?_insert_cases hj
            · omega
            · exact h.records.quantities j r' hj
          item := fun j r' hj ho => by
            obtain ⟨rfl, rfl⟩ | ⟨-, hj⟩ := find?_insert_cases hj
            · exact hitem
            · exact h.records.item j r' hj ho }
      occupied := fun j => by
        have hj := h.occupied j
        unfold openOf at hj ⊢
        rw [Table.valueAt_insert hnone, hopen]
        simp only [bump]
        split <;> omega
      noEmpty := fun j r' hj hb hq' ho => by
        refine h.noEmpty j r' hj hb hq' ?_
        have h0 := Table.sumBy_nonneg (g := (·.inventoryItemId)) h.records.openQty_nonneg j
        have hj' : bump (openOn s.borrowRecords) w.inventoryItemId w.openQty j = 0 :=
          (congrFun (Table.sumBy_insert hnone w (·.inventoryItemId) _) j).symm.trans ho
        unfold openOn at hj' ⊢
        simp only [bump] at hj'
        split at hj' <;> omega }

theorem Inv.updateRecord (h : Inv k n s) (hr : s.borrowRecords.find? id = some r)
    (hi : (f r).inventoryItemId = r.inventoryItemId) (ht : (f r).recordType = r.recordType)
    (hq : (f r).qty = r.qty) (hx : (f r).returnedQty = r.returnedQty + x)
    (hy : (f r).writtenOffQty = r.writtenOffQty + y) (hx0 : 0 ≤ x) (hy0 : 0 ≤ y)
    (hok : (f r).quantitiesOk = true) {e : Nat → Prop} (hother : ∀ j, k.exempt j → e j)
    (hself : ∀ row, s.inventoryItems.find? r.inventoryItemId = some row → row.bookQty = 0 →
      row.reservedQty = 0 → openOn s.borrowRecords r.inventoryItemId = x + y →
      e r.inventoryItemId) :
    Inv
      { k with
        back := bump k.back id (-x), act := bump k.act id (-(x + y)), exempt := e }
      n { s with borrowRecords := s.borrowRecords.update id f } := by
  have hopenQty := openQty_update hq hx hy
  have hq0 := h.records.quantities id r hr
  rw [BorrowRecord.quantitiesOk_iff] at hok
  exact
    { h with
      fresh := { h.fresh with borrowRecords := h.fresh.borrowRecords.alter _ }
      actionLines :=
        { action := fun j l hl =>
            ⟨(h.actionLines.action j l hl).1, (h.actionLines.action j l hl).2.1,
              (h.actionLines.action j l hl).2.2.update hr ht⟩
          settlement := fun j l hl =>
            ⟨(h.actionLines.settlement j l hl).1, (h.actionLines.settlement j l hl).2.1,
              (h.actionLines.settlement j l hl).2.2.update hr ht⟩ }
      allocations :=
        { h.allocations with
          issued := fun j => by
            rw [Table.valueAt_update hr (x := 0) (by omega), bump_zero]
            exact h.allocations.issued j
          returned := fun j => by
            have hj := h.allocations.returned j
            have hval : (s.borrowRecords.update id f).valueAt (·.returnedQty) =
                bump (s.borrowRecords.valueAt (·.returnedQty)) id x := Table.valueAt_update hr hx
            rw [hval]
            simp only [bump]
            split <;> omega
          home := fun j a ha => by
            obtain ⟨b, r', hb, hr', heq⟩ := h.allocations.home j a ha
            by_cases hid : a.borrowRecordId = id
            · rw [hid] at hr' ⊢
              obtain rfl : r = r' := by simpa [hr] using hr'
              exact ⟨b, f r, hb, by simp [hr], by rw [hi, heq]⟩
            · exact ⟨b, r', hb, by rw [Table.find?_update_ne _ _ hid, hr'], heq⟩ }
      records :=
        { quantities := fun j r' hj => by
            obtain ⟨rfl, rfl⟩ | ⟨-, hj⟩ := find?_update_cases hr hj
            · omega
            · exact h.records.quantities j r' hj
          item := fun j r' hj ho => by
            obtain ⟨rfl, rfl⟩ | ⟨-, hj⟩ := find?_update_cases hr hj
            · rw [hi]
              exact h.records.item j r hr (by omega)
            · exact h.records.item j r' hj ho }
      occupied := fun j => by
        have hj := h.occupied j
        have hopen : openOf (s.borrowRecords.update id f) =
            bump (openOf s.borrowRecords) id (-(x + y)) := Table.valueAt_update hr hopenQty
        rw [hopen]
        simp only [bump]
        split <;> omega
      noEmpty := fun j row hj hb hq' ho => by
        have hj' : bump (openOn s.borrowRecords) r.inventoryItemId (-(x + y)) j = 0 := by
          rw [← openOn_update hr hi hq hx hy]
          exact ho
        by_cases hji : j = r.inventoryItemId
        · subst hji
          rw [bump_self] at hj'
          exact hself row hj hb hq' (by omega)
        · rw [bump_ne _ _ hji] at hj'
          exact hother j (h.noEmpty j row hj hb hq' hj') }

end Loans

section Allocations

variable {k : Slack} {n : Nat} {s : Store}

theorem Inv.insertAlloc (h : Inv k n s) {w : BorrowBatchAllocation} (hq : 0 < w.issuedQty)
    (hret : w.returnedQty = 0) (hhome : ∃ b r, s.batches.find? w.batchId = some b ∧
      s.borrowRecords.find? w.borrowRecordId = some r ∧ b.inventoryItemId = r.inventoryItemId)
    (hlater : LaterFlow s.stockFlows w.batchId) :
    Inv { k with lent := bump k.lent w.borrowRecordId (-w.issuedQty) } (n + 1)
      { s with borrowBatchAllocations := s.borrowBatchAllocations.insert n w } := by
  have hnone := h.fresh.borrowBatchAllocations.find?_none (Nat.le_refl n)
  exact
    { h with
      fresh := { h.fresh.mono n.le_succ with
        borrowBatchAllocations :=
          (h.fresh.borrowBatchAllocations.mono n.le_succ).insert n.lt_succ_self w }
      allocations :=
        { issued := fun j => by
            have hj := h.allocations.issued j
            unfold issuedOf at hj ⊢
            rw [Table.sumBy_insert hnone]
            simp only [bump]
            split <;> omega
          returned := fun j => by
            unfold returnedOf
            rw [Table.sumBy_insert hnone, hret, bump_zero]
            exact h.allocations.returned j
          quantities := fun j a ha => by
            obtain ⟨rfl, rfl⟩ | ⟨-, ha⟩ := find?_insert_cases ha
            · omega
            · exact h.allocations.quantities j a ha
          home := fun j a ha => by
            obtain ⟨rfl, rfl⟩ | ⟨-, ha⟩ := find?_insert_cases ha
            · exact hhome
            · exact h.allocations.home j a ha
          later := fun j a ha => by
            obtain ⟨rfl, rfl⟩ | ⟨-, ha⟩ := find?_insert_cases ha
            · exact hlater
            · exact h.allocations.later j a ha } }

theorem Inv.updateAlloc (h : Inv k n s) {id : Nat} (ha : s.borrowBatchAllocations.find? id = some a)
    {f : BorrowBatchAllocation → BorrowBatchAllocation} {x : Int}
    (hrec : (f a).borrowRecordId = a.borrowRecordId) (hbatch : (f a).batchId = a.batchId)
    (hissued : (f a).issuedQty = a.issuedQty) (hx : (f a).returnedQty = a.returnedQty + x)
    (hok : (f a).quantitiesOk = true) :
    Inv { k with back := bump k.back a.borrowRecordId x } n
      { s with borrowBatchAllocations := s.borrowBatchAllocations.update id f } := by
  rw [BorrowBatchAllocation.quantitiesOk_iff] at hok
  exact
    { h with
      fresh := { h.fresh with borrowBatchAllocations := h.fresh.borrowBatchAllocations.alter _ }
      allocations :=
        { issued := fun j => by
            unfold issuedOf
            rw [Table.sumBy_update ha hrec (x := 0) (by omega), bump_zero]
            exact h.allocations.issued j
          returned := fun j => by
            have hj := h.allocations.returned j
            have hsum : returnedOf (s.borrowBatchAllocations.update id f) =
                bump (returnedOf s.borrowBatchAllocations) a.borrowRecordId x :=
              Table.sumBy_update ha hrec hx
            rw [hsum]
            simp only [bump]
            split <;> omega
          quantities := fun j a' hj => by
            obtain ⟨rfl, rfl⟩ | ⟨-, hj⟩ := find?_update_cases ha hj
            · omega
            · exact h.allocations.quantities j a' hj
          home := fun j a' hj => by
            obtain ⟨rfl, rfl⟩ | ⟨-, hj⟩ := find?_update_cases ha hj
            · rw [hbatch, hrec]
              exact h.allocations.home j a ha
            · exact h.allocations.home j a' hj
          later := fun j a' hj => by
            obtain ⟨rfl, rfl⟩ | ⟨-, hj⟩ := find?_update_cases ha hj
            · rw [hbatch]
              exact h.allocations.later j a ha
            · exact h.allocations.later j a' hj } }

end Allocations

end Wbme.Asset
