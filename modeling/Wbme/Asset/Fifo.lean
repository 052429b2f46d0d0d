import Wbme.Asset.Preservation.Core

/-! # First in, first out

What an allocation takes, exactly: it succeeds when the batches of the item hold enough, the
segments are then determined by the batches in the order of consumption, and nothing but the
remaining quantities changes. What encloses a failed allocation fails with it.
-/

namespace Wbme.Asset

open Lib

variable {n : Nat} {s : Store}

/-! ## Segments -/

/-- The segments that a quantity takes from rows in order. -/
def fifoSegments : List (Nat × Batch) → Int → List BatchAllocation
  | [], _ => []
  | row :: rows, remaining =>
      if remaining ≤ 0 then []
      else
        ⟨row.1, min row.2.remainingQty remaining⟩ ::
          fifoSegments rows (remaining - min row.2.remainingQty remaining)

/-- What the rows hold together. -/
def rowsQty (rows : List (Nat × Batch)) : Int := (rows.map (·.2.remainingQty)).sum

@[simp] theorem rowsQty_nil : rowsQty [] = 0 := rfl

@[simp] theorem rowsQty_cons (row : Nat × Batch) (rows : List (Nat × Batch)) :
    rowsQty (row :: rows) = row.2.remainingQty + rowsQty rows := by
  simp [rowsQty]

theorem fifoSegments_of_nonpos (rows : List (Nat × Batch)) {remaining : Int}
    (h : remaining ≤ 0) : fifoSegments rows remaining = [] := by
  cases rows with
  | nil => rfl
  | cons row rows => rw [fifoSegments, if_pos h]

theorem mem_of_fifoSegments {rows : List (Nat × Batch)} {remaining : Int} {a : BatchAllocation}
    (h : a ∈ fifoSegments rows remaining) : a.batchId ∈ rows.map (·.1) := by
  induction rows generalizing remaining with
  | nil => cases h
  | cons row rows ih =>
      rw [fifoSegments] at h
      split at h
      · cases h
      · rcases List.mem_cons.mp h with rfl | h
        · exact List.mem_cons_self
        · exact List.mem_cons_of_mem _ (ih h)

theorem fifoSegments_positive {rows : List (Nat × Batch)} {remaining : Int}
    (hrows : ∀ row ∈ rows, 0 < row.2.remainingQty) : AllPositive (fifoSegments rows remaining) := by
  induction rows generalizing remaining with
  | nil => exact fun _ h => by cases h
  | cons row rows ih =>
      intro a ha
      rw [fifoSegments] at ha
      split at ha
      · cases ha
      · rcases List.mem_cons.mp ha with rfl | ha
        · have hrow := hrows row List.mem_cons_self
          dsimp only
          omega
        · exact ih (fun r hr => hrows r (List.mem_cons_of_mem _ hr)) a ha

theorem rowsQty_nonneg {rows : List (Nat × Batch)}
    (hrows : ∀ row ∈ rows, 0 < row.2.remainingQty) : 0 ≤ rowsQty rows :=
  List.sum_nonneg fun x hx => by
    obtain ⟨row, hrow, rfl⟩ := List.mem_map.mp hx
    exact Int.le_of_lt (hrows row hrow)

theorem takenQty_fifoSegments {rows : List (Nat × Batch)} {remaining : Int} (h0 : 0 ≤ remaining)
    (henough : remaining ≤ rowsQty rows) : takenQty (fifoSegments rows remaining) = remaining := by
  induction rows generalizing remaining with
  | nil =>
      rw [rowsQty_nil] at henough
      rw [fifoSegments, takenQty_nil]
      omega
  | cons row rows ih =>
      rw [fifoSegments]
      split
      · rw [takenQty_nil]
        omega
      · rw [rowsQty_cons] at henough
        rw [takenQty_cons]
        dsimp only
        by_cases hlast : remaining ≤ row.2.remainingQty
        · rw [fifoSegments_of_nonpos _ (by omega), takenQty_nil]
          omega
        · rw [ih (by omega) (by omega)]
          omega

theorem fifoSegments_nodup {rows : List (Nat × Batch)} {remaining : Int}
    (hrows : (rows.map (·.1)).Nodup) : ((fifoSegments rows remaining).map (·.batchId)).Nodup := by
  induction rows generalizing remaining with
  | nil => exact List.nodup_nil
  | cons row rows ih =>
      rw [List.map_cons, List.nodup_cons] at hrows
      rw [fifoSegments]
      split
      · exact List.nodup_nil
      · rw [List.map_cons, List.nodup_cons]
        constructor
        · intro hmem
          obtain ⟨a, ha, hid⟩ := List.mem_map.mp hmem
          dsimp only at hid
          exact hrows.1 (hid ▸ mem_of_fifoSegments ha)
        · exact ih hrows.2

variable {as : List BatchAllocation} {i : Nat} {E : Failure → Prop}

theorem takenFrom_of_not_mem {b : Nat} (h : b ∉ as.map (·.batchId)) : takenFrom as b = 0 :=
  sumOn_eq_zero fun a ha he => absurd (List.mem_map.mpr ⟨a, ha, he⟩) h

theorem fifoSegments_drained {rows : List (Nat × Batch)} {remaining : Int}
    (hpos : ∀ row ∈ rows, 0 < row.2.remainingQty) (hnodup : (rows.map (·.1)).Nodup)
    {before after : List (Nat × Batch)} {older newer : Nat × Batch}
    (hsplit : rows = before ++ older :: after) (hnewer : newer ∈ after)
    (htouched : newer.1 ∈ (fifoSegments rows remaining).map (·.batchId)) :
    takenFrom (fifoSegments rows remaining) older.1 = older.2.remainingQty := by
  induction rows generalizing remaining before with
  | nil => cases before <;> cases hsplit
  | cons row rows ih =>
      rw [List.map_cons, List.nodup_cons] at hnodup
      have hrow := hpos row List.mem_cons_self
      have hcons : fifoSegments (row :: rows) remaining =
          if remaining ≤ 0 then []
          else ⟨row.1, min row.2.remainingQty remaining⟩ ::
            fifoSegments rows (remaining - min row.2.remainingQty remaining) := rfl
      by_cases hzero : remaining ≤ 0
      · rw [hcons, if_pos hzero] at htouched
        cases htouched
      · rw [hcons, if_neg hzero] at htouched ⊢
        rw [List.map_cons] at htouched
        have hmem : newer ∈ rows := by
          cases before with
          | nil =>
              cases hsplit
              exact hnewer
          | cons b before =>
              cases hsplit
              exact List.mem_append_right _ (List.mem_cons_of_mem _ hnewer)
        have hne : newer.1 ≠ row.1 := fun he =>
          hnodup.1 (he ▸ List.mem_map_of_mem hmem)
        have htail : newer.1 ∈ (fifoSegments rows
            (remaining - min row.2.remainingQty remaining)).map (·.batchId) := by
          rcases List.mem_cons.mp htouched with he | htail
          · exact absurd he hne
          · exact htail
        rw [takenFrom, sumOn_cons, ← takenFrom]
        cases before with
        | nil =>
            cases hsplit
            -- something is left to take behind the older row, so all of it was taken
            have hleft : ¬ remaining - min older.2.remainingQty remaining ≤ 0 := by
              intro hle
              rw [fifoSegments_of_nonpos _ hle] at htail
              cases htail
            have hzeroTail : takenFrom (fifoSegments after
                (remaining - min older.2.remainingQty remaining)) older.1 = 0 :=
              takenFrom_of_not_mem fun hmem => by
                obtain ⟨a, ha, hid⟩ := List.mem_map.mp hmem
                exact hnodup.1 (hid ▸ mem_of_fifoSegments ha)
            rw [bump_self, hzeroTail]
            dsimp only
            omega
        | cons b before =>
            cases hsplit
            have hold : older.1 ≠ row.1 := fun he =>
              hnodup.1 (he ▸ List.mem_map_of_mem (List.mem_append_right _ List.mem_cons_self))
            rw [bump_ne _ _ hold]
            exact ih (fun r hr => hpos r (List.mem_cons_of_mem _ hr)) hnodup.2 rfl htail

/-! ## The allocation -/

/-- The segments have been taken from their batches, and nothing else has happened. -/
def Drawn (s : Store) (as : List BatchAllocation) (s' : Store) : Prop :=
  ∃ batches, s' = { s with batches := batches } ∧
    ∀ b, batches.find? b = (s.batches.find? b).map fun r =>
      { r with remainingQty := r.remainingQty - takenFrom as b }

theorem Drawn.nil (s : Store) : Drawn s [] s := by
  refine ⟨s.batches, rfl, fun b => ?_⟩
  cases s.batches.find? b with
  | none => rfl
  | some r => simp

theorem Drawn.cons {s s' : Store} {id : Nat} {take : Int} (h : Drawn
      { s with
        batches := s.batches.update id
          (fun r => { r with remainingQty := r.remainingQty - take }) } as s') :
    Drawn s (⟨id, take⟩ :: as) s' := by
  obtain ⟨batches, rfl, hbatches⟩ := h
  refine ⟨batches, rfl, fun b => ?_⟩
  have htaken : takenFrom (⟨id, take⟩ :: as) b = bump (takenFrom as) id take b := by
    rw [takenFrom, sumOn_cons]
    rfl
  rw [hbatches b]
  simp only [htaken]
  by_cases hb : b = id
  · subst hb
    rw [Table.find?_update_self, bump_self]
    cases s.batches.find? b with
    | none => rfl
    | some r =>
        simp only [Option.map_some, Option.some.injEq, Batch.mk.injEq, true_and, and_true]
        omega
  · rw [Table.find?_update_ne _ _ hb, bump_ne _ _ hb]

theorem Drawn.remainingAt {s s' : Store} (h : Drawn s as s') {b : Nat} {r : Batch}
    (hr : s.batches.find? b = some r) :
    remainingAt s'.batches b = r.remainingQty - takenFrom as b := by
  obtain ⟨batches, rfl, hbatches⟩ := h
  have hb := hbatches b
  rw [hr, Option.map_some] at hb
  exact Table.valueAt_of_find? hb _

theorem batchTake_ok {Q : Unit → Nat → Store → Prop} {id : Nat} {take : Int} {r : Batch}
    (hr : s.batches.find? id = some r) (hle : take ≤ r.remainingQty) (h : Q () n
      { s with
        batches := s.batches.update id
          (fun r => { r with remainingQty := r.remainingQty - take }) }) :
    (batchTake id take).wp Q E n s := by
  rw [batchTake, Txn.wp_act, hr]
  dsimp only
  rw [if_pos (by omega)]
  exact h

/-- Taking from rows that are as they were read: it draws the segments, or the rows hold too
little. -/
theorem takeBatches_wp {E : Failure → Prop} {i : Nat} {rows : List (Nat × Batch)}
    {remaining : Int} {taken : List BatchAllocation} (hrows : CurrentRows s.batches i rows)
    (h0 : 0 ≤ remaining) (hE : rowsQty rows < remaining → E (.of .insufficientStock)) :
    (takeBatches rows remaining taken).wp
      (fun as n' s' => remaining ≤ rowsQty rows ∧ as = taken ++ fifoSegments rows remaining ∧
        n' = n ∧ Drawn s (fifoSegments rows remaining) s') E n s := by
  induction rows generalizing remaining taken s with
  | nil =>
      unfold takeBatches
      split
      · exact hE (by rw [rowsQty_nil]; omega)
      · refine ⟨by rw [rowsQty_nil]; omega, ?_, rfl, Drawn.nil s⟩
        rw [fifoSegments, List.append_nil]
  | cons row rows ih =>
      have hpos : 0 ≤ rowsQty rows :=
        rowsQty_nonneg fun r hr => (hrows.1 r (List.mem_cons_of_mem _ hr)).2.2
      obtain ⟨hfind, -, hleft⟩ := hrows.1 row List.mem_cons_self
      unfold takeBatches
      rw [fifoSegments, rowsQty_cons]
      split
      · exact ⟨by omega, by rw [List.append_nil], rfl, Drawn.nil s⟩
      · dsimp only
        rw [Txn.wp_bind]
        refine batchTake_ok hfind (by omega) ?_
        refine Txn.wp_mono (ih (hrows.tail _) (by omega) fun hlt => hE ?_) ?_
        · rw [rowsQty_cons]
          omega
        · intro as n' s' hdone
          obtain ⟨hle, rfl, rfl, hdrawn⟩ := hdone
          refine ⟨by omega, ?_, rfl, hdrawn.cons⟩
          rw [List.append_assoc, List.singleton_append]

theorem rowsQty_fifoRows (hcheck : ∀ b r, s.batches.find? b = some r → 0 ≤ r.remainingQty)
    (i : Nat) : rowsQty (fifoRows s i) = remainingOf s.batches i := by
  unfold rowsQty fifoRows remainingOf Table.sumBy
  have hperm := (List.perm_insertionSort fifoBefore (s.batches.select
    (fun _ b => b.inventoryItemId == i && 0 < b.remainingQty))).map (·.2.remainingQty)
  rw [hperm.sum_eq]
  refine (Table.sum_select s.batches _ (·.2.remainingQty)).trans ?_
  refine Table.total_congr fun b r hr => ?_
  have hnonneg := hcheck b r hr
  by_cases hitem : r.inventoryItemId = i
  · by_cases hzero : 0 < r.remainingQty
    · simp [hitem, hzero]
    · have : r.remainingQty = 0 := by omega
      simp [hitem, this]
  · simp [hitem]

/-- Is a batch consumed strictly before another one? -/
def OlderBatch (older newer : Nat × Batch) : Prop := fifoBefore older newer ∧ older.1 ≠ newer.1

instance : Std.Total fifoBefore where
  total a b := by
    unfold fifoBefore
    omega

instance : IsTrans (Nat × Batch) fifoBefore where
  trans a b c hab hbc := by
    unfold fifoBefore at *
    omega

theorem fifoRows_split {older newer : Nat × Batch} (hold : older ∈ fifoRows s i)
    (hnew : newer ∈ fifoRows s i) (h : OlderBatch older newer) :
    ∃ before after, fifoRows s i = before ++ older :: after ∧ newer ∈ after := by
  obtain ⟨before, after, hsplit⟩ := List.append_of_mem hold
  refine ⟨before, after, hsplit, ?_⟩
  have hsorted : (fifoRows s i).Pairwise fifoBefore := List.pairwise_insertionSort _ _
  rw [hsplit] at hnew hsorted
  rcases List.mem_append.mp hnew with hmem | hmem
  · have hback := (List.pairwise_append.mp hsorted).2.2 newer hmem older List.mem_cons_self
    obtain ⟨hbefore, hne⟩ := h
    unfold fifoBefore at hbefore hback
    omega
  · rcases List.mem_cons.mp hmem with rfl | hmem
    · exact absurd rfl h.2
    · exact hmem

/-- What an allocation has done: positive segments of distinct batches of the item that sum to
the quantity, every batch that is older than a touched one drained, and nothing else changed. -/
structure FifoAllocated (s : Store) (i : Nat) (qty : Int) (as : List BatchAllocation)
    (s' : Store) : Prop where
  positive : AllPositive as
  sum : takenQty as = qty
  distinct : (as.map (·.batchId)).Nodup
  home : TakenFromItem s.batches i as
  drawn : Drawn s as s'
  drained : ∀ older newer, s.batches.find? older.1 = some older.2 →
    s.batches.find? newer.1 = some newer.2 → older.2.inventoryItemId = i →
    newer.1 ∈ as.map (·.batchId) → OlderBatch older newer → 0 < older.2.remainingQty →
    remainingAt s'.batches older.1 = 0

theorem mem_fifoRows {p : Nat × Batch} :
    p ∈ fifoRows s i ↔ s.batches.find? p.1 = some p.2 ∧ p.2.inventoryItemId = i ∧
      0 < p.2.remainingQty := by
  rw [fifoRows, List.mem_insertionSort, Table.mem_select]
  simp

theorem fifoAllocated_segments {qty : Int} {s' : Store} (h0 : 0 ≤ qty)
    (henough : qty ≤ rowsQty (fifoRows s i)) (h : Drawn s (fifoSegments (fifoRows s i) qty) s') :
    FifoAllocated s i qty (fifoSegments (fifoRows s i) qty) s' := by
  have hrows := currentRows_fifoRows s i
  have hpos : ∀ row ∈ fifoRows s i, 0 < row.2.remainingQty := fun row hr => (hrows.1 row hr).2.2
  have hmem : ∀ b, b ∈ (fifoSegments (fifoRows s i) qty).map (·.batchId) →
      ∃ r, s.batches.find? b = some r ∧ (b, r) ∈ fifoRows s i := by
    intro b hb
    obtain ⟨a, ha, rfl⟩ := List.mem_map.mp hb
    obtain ⟨row, hrow, hid⟩ := List.mem_map.mp (mem_of_fifoSegments ha)
    obtain ⟨hfind, -, -⟩ := hrows.1 row hrow
    rw [← hid]
    exact ⟨row.2, hfind, hrow⟩
  refine ⟨fifoSegments_positive hpos, takenQty_fifoSegments h0 henough,
    fifoSegments_nodup hrows.2, fun a ha => ?_, h, ?_⟩
  · obtain ⟨r, hfind, hrow⟩ := hmem a.batchId (List.mem_map_of_mem ha)
    exact ⟨r, hfind, (hrows.1 _ hrow).2.1⟩
  · intro older newer hold hnew hitem htouched holder hleft
    obtain ⟨r, hfind, hrow⟩ := hmem newer.1 htouched
    obtain rfl : newer.2 = r := by
      rw [hnew] at hfind
      exact Option.some.inj hfind
    obtain ⟨before, after, hsplit, hafter⟩ :=
      fifoRows_split (mem_fifoRows.mpr ⟨hold, hitem, hleft⟩) hrow holder
    rw [h.remainingAt hold, fifoSegments_drained hpos hrows.2 hsplit hafter htouched]
    omega

theorem allocateFifoBatches_wp {qty : Int} (h0 : 0 ≤ qty)
    (hE : rowsQty (fifoRows s i) < qty → E (.of .insufficientStock)) :
    (allocateFifoBatches i qty).wp
      (fun as n' s' => qty ≤ rowsQty (fifoRows s i) ∧ n' = n ∧ FifoAllocated s i qty as s')
      E n s := by
  unfold allocateFifoBatches
  rw [Txn.wp_bind, Txn.wp_queryForUpdate]
  refine Txn.wp_mono (takeBatches_wp (currentRows_fifoRows s i) h0 hE) ?_
  intro as n' s' hdone
  obtain ⟨hle, rfl, rfl, hdrawn⟩ := hdone
  exact ⟨hle, rfl, fifoAllocated_segments h0 hle hdrawn⟩

end Wbme.Asset
