import Mathlib

/-! # Keyed tables

A table is a finite list of rows under pairwise distinct numeric keys, kept in
ascending key order, so that the order of the rows is the order in which a
serial writer created them. The order is a field of the structure: no operation
can build a table with a repeated key. Sums over the rows are integer totals of
a weight, and every operation has one lemma saying how totals move under it.
-/

namespace Wbme.Lib

section Amounts

variable {κ : Type} [DecidableEq κ]

/-- Add an amount at one index. -/
def bump (f : κ → Int) (i : κ) (x : Int) : κ → Int := fun j => if j = i then f j + x else f j

variable (f : κ → Int)

@[simp] theorem bump_self (i : κ) (x : Int) : bump f i x i = f i + x := if_pos rfl

theorem bump_ne {i j : κ} (x : Int) (h : j ≠ i) : bump f i x j = f j := if_neg h

@[simp] theorem bump_zero (i : κ) : bump f i 0 = f := by
  funext j
  simp [bump]

@[simp] theorem bump_bump (i : κ) (x y : Int) : bump (bump f i x) i y = bump f i (x + y) := by
  funext j
  by_cases h : j = i
  · simp [bump, h, Int.add_assoc]
  · simp [bump, h]

theorem bump_comm (i j : κ) (x y : Int) : bump (bump f i x) j y = bump (bump f j y) i x := by
  funext k
  unfold bump
  split <;> split <;> omega

/-- Two amounts that are added and taken back around each other. -/
theorem bump_cancel (i j : κ) {x x' y y' : Int} (hx : x + x' = 0) (hy : y + y' = 0) :
    bump (bump (bump (bump f i x) j y) i x') j y' = f := by
  rw [bump_comm (bump f i x) j i, bump_bump, hy, bump_zero, bump_bump, hx, bump_zero]

theorem add_bump (f g : κ → Int) (i : κ) (x : Int) :
    (fun j => f j + bump g i x j) = bump (fun j => f j + g j) i x := by
  funext j
  simp only [bump]
  split <;> omega

/-- The sum over a list of the weights at one key. -/
def sumOn {β : Type} (key : β → κ) (w : β → Int) (xs : List β) (i : κ) : Int :=
  (xs.map (fun x => if key x = i then w x else 0)).sum

variable {β : Type}

@[simp] theorem sumOn_nil (key : β → κ) (w : β → Int) : sumOn key w [] = fun _ => 0 := rfl

theorem sumOn_cons (key : β → κ) (w : β → Int) (x : β) (xs : List β) :
    sumOn key w (x :: xs) = bump (sumOn key w xs) (key x) (w x) := by
  funext i
  simp only [sumOn, bump, List.map_cons, List.sum_cons, eq_comm (a := i)]
  split <;> omega

theorem sumOn_append (key : β → κ) (w : β → Int) (xs ys : List β) (i : κ) :
    sumOn key w (xs ++ ys) i = sumOn key w xs i + sumOn key w ys i := by simp [sumOn]

theorem sumOn_nonneg {key : β → κ} {w : β → Int} {xs : List β} (h : ∀ x ∈ xs, 0 ≤ w x) (i : κ) :
    0 ≤ sumOn key w xs i := by
  refine List.sum_nonneg fun y hy => ?_
  obtain ⟨x, hx, rfl⟩ := List.mem_map.mp hy
  have := h x hx
  split <;> omega

theorem sumOn_eq_zero {key : β → κ} {w : β → Int} {xs : List β} {i : κ} (h : ∀ x ∈ xs, key x ≠ i) :
    sumOn key w xs i = 0 := by
  refine List.sum_eq_zero fun y hy => ?_
  obtain ⟨x, hx, rfl⟩ := List.mem_map.mp hy
  exact if_neg (h x hx)

end Amounts

/-- Rows of type `α` under distinct keys, in ascending key order. -/
structure Table (α : Type) where
  rows : List (Nat × α)
  sorted : rows.Pairwise (fun a b => a.1 < b.1)

namespace Table

variable {α β : Type}

@[ext] theorem ext_rows {t u : Table α} (h : t.rows = u.rows) : t = u := by
  cases t
  cases u
  cases h
  rfl

instance [DecidableEq α] : DecidableEq (Table α) := fun t u =>
  decidable_of_iff (t.rows = u.rows) ⟨ext_rows, fun h => h ▸ rfl⟩

/-! ## Operations -/

/-- The table without rows. -/
def empty : Table α := ⟨[], .nil⟩

/-- The row under a key. -/
def find? (t : Table α) (k : Nat) : Option α :=
  (t.rows.find? (fun p => p.1 == k)).map (·.2)

/-- Put a row under a key, replacing the one that is there. -/
def insert (t : Table α) (k : Nat) (r : α) : Table α where
  rows := t.rows.filter (fun p => p.1 < k) ++ (k, r) :: t.rows.filter (fun p => k < p.1)
  sorted := by
    rw [List.pairwise_append]
    refine ⟨t.sorted.filter _, List.pairwise_cons.mpr ⟨?_, t.sorted.filter _⟩, ?_⟩
    · intro p hp
      simpa using (List.mem_filter.mp hp).2
    · intro p hp q hq
      have hpk : p.1 < k := by simpa using (List.mem_filter.mp hp).2
      rcases List.mem_cons.mp hq with rfl | hq
      · exact hpk
      · have hqk : k < q.1 := by simpa using (List.mem_filter.mp hq).2
        exact Nat.lt_trans hpk hqk

/-- Rewrite or drop every row. -/
def alter (t : Table α) (g : Nat → α → Option α) : Table α where
  rows := t.rows.filterMap (fun p => (g p.1 p.2).map (fun r => (p.1, r)))
  sorted := by
    refine List.Pairwise.filterMap _ ?_ t.sorted
    intro a a' haa b hb b' hb'
    obtain ⟨r, -, rfl⟩ := Option.map_eq_some_iff.mp hb
    obtain ⟨r', -, rfl⟩ := Option.map_eq_some_iff.mp hb'
    exact haa

/-- Rewrite the row under a key. -/
def update (t : Table α) (k : Nat) (f : α → α) : Table α :=
  t.alter (fun i r => some (if i = k then f r else r))

/-- Rewrite the rows a predicate selects. -/
def updateMany (t : Table α) (p : Nat → α → Bool) (f : α → α) : Table α :=
  t.alter (fun i r => some (if p i r then f r else r))

/-- Drop the rows a predicate selects. -/
def deleteMany (t : Table α) (p : Nat → α → Bool) : Table α :=
  t.alter (fun i r => if p i r then none else some r)

/-- The rows a predicate selects, in key order. -/
def select (t : Table α) (p : Nat → α → Bool) : List (Nat × α) :=
  t.rows.filter (fun x => p x.1 x.2)

/-- The sum of a weight over all rows. -/
def total (t : Table α) (w : Nat → α → Int) : Int :=
  (t.rows.map (fun p => w p.1 p.2)).sum

/-! ## Looking rows up -/

@[simp] theorem find?_empty (k : Nat) : (empty : Table α).find? k = none := rfl

private theorem find?_rows_eq {l : List (Nat × α)} (hs : l.Pairwise (fun a b => a.1 < b.1))
    {k : Nat} {r : α} (hm : (k, r) ∈ l) : l.find? (fun p => p.1 == k) = some (k, r) := by
  induction l with
  | nil => cases hm
  | cons p l ih =>
      rw [List.pairwise_cons] at hs
      rcases List.mem_cons.mp hm with rfl | hm
      · simp
      · have hlt : p.1 < k := hs.1 _ hm
        rw [List.find?_cons_of_neg (by simp; omega)]
        exact ih hs.2 hm

variable {t : Table α} {k : Nat} {w : α → Int} {r : α} {p : Nat → α → Bool} {f : α → α}

theorem find?_eq_some_iff : t.find? k = some r ↔ (k, r) ∈ t.rows := by
  constructor
  · intro h
    obtain ⟨p, hp, rfl⟩ := Option.map_eq_some_iff.mp h
    have hk : p.1 = k := by simpa using List.find?_some hp
    have hm := List.mem_of_find?_eq_some hp
    rwa [← hk]
  · intro h
    simp [find?, find?_rows_eq t.sorted h]

theorem find?_eq_none_iff : t.find? k = none ↔ ∀ r, (k, r) ∉ t.rows := by
  constructor
  · intro h r hr
    rw [find?_eq_some_iff.mpr hr] at h
    cases h
  · intro h
    cases hf : t.find? k with
    | none => rfl
    | some r => exact absurd (find?_eq_some_iff.mp hf) (h r)

theorem mem_select {x : Nat × α} : x ∈ t.select p ↔ t.find? x.1 = some x.2 ∧ p x.1 x.2 = true := by
  simp [select, find?_eq_some_iff]

/-- Two tables with the same lookups are equal. -/
theorem ext_find? {t u : Table α} (h : ∀ k, t.find? k = u.find? k) : t = u := by
  have hmem : ∀ x, x ∈ t.rows ↔ x ∈ u.rows := by
    rintro ⟨k, r⟩
    rw [← find?_eq_some_iff, ← find?_eq_some_iff, h]
  have nodup : ∀ v : Table α, v.rows.Nodup := fun v =>
    v.sorted.imp (fun {a b} hab hEq => by subst hEq; exact Nat.lt_irrefl _ hab)
  have hperm : t.rows.Perm u.rows := (List.perm_ext_iff_of_nodup (nodup t) (nodup u)).mpr hmem
  refine ext_rows (hperm.eq_of_pairwise ?_ t.sorted u.sorted)
  intro a b _ _ hab hba
  omega

/-- A predicate that holds of one row only selects that row. -/
theorem select_eq_singleton (h : t.find? k = some r)
    (hp : ∀ i r', t.find? i = some r' → (p i r' = true ↔ i = k)) : t.select p = [(k, r)] := by
  have hnodup : (t.select p).Nodup := (t.sorted.filter _).imp
    (fun {a b} hab heq => by subst heq; exact Nat.lt_irrefl _ hab)
  refine List.perm_singleton.mp
    ((List.perm_ext_iff_of_nodup hnodup (List.nodup_singleton _)).mpr fun x => ?_)
  rw [mem_select, List.mem_singleton]
  constructor
  · rintro ⟨hx, hpx⟩
    have hk : x.1 = k := (hp x.1 x.2 hx).mp hpx
    rw [hk, h] at hx
    exact Prod.ext hk (Option.some.inj hx).symm
  · rintro rfl
    exact ⟨h, (hp k r h).mpr rfl⟩

theorem find?_insert (t : Table α) (k : Nat) (r : α) (i : Nat) :
    (t.insert k r).find? i = if i = k then some r else t.find? i := by
  by_cases hik : i = k
  · subst hik
    simp [find?_eq_some_iff, insert]
  · rw [if_neg hik]
    apply Option.ext
    intro r'
    rw [find?_eq_some_iff, find?_eq_some_iff]
    simp only [insert, List.mem_append, List.mem_filter, List.mem_cons, Prod.mk.injEq, hik,
      false_and, false_or, decide_eq_true_eq]
    constructor
    · rintro (h | h)
      · exact h.1
      · exact h.1
    · intro h
      rcases Nat.lt_or_gt_of_ne hik with hlt | hlt
      · exact .inl ⟨h, hlt⟩
      · exact .inr ⟨h, hlt⟩

@[simp] theorem find?_insert_self (t : Table α) (k : Nat) (r : α) :
    (t.insert k r).find? k = some r := by
  simp [find?_insert]

theorem find?_insert_ne (t : Table α) {k i : Nat} (r : α) (h : i ≠ k) :
    (t.insert k r).find? i = t.find? i := by
  simp [find?_insert, h]

@[simp] theorem find?_alter (t : Table α) (g : Nat → α → Option α) (k : Nat) :
    (t.alter g).find? k = (t.find? k).bind (g k) := by
  apply Option.ext
  intro r
  rw [find?_eq_some_iff, Option.bind_eq_some_iff]
  simp only [alter, List.mem_filterMap, Option.map_eq_some_iff, Prod.mk.injEq, Prod.exists]
  constructor
  · rintro ⟨i, r₀, hm, r', hg, rfl, rfl⟩
    exact ⟨r₀, find?_eq_some_iff.mpr hm, hg⟩
  · rintro ⟨r₀, hf, hg⟩
    exact ⟨k, r₀, find?_eq_some_iff.mp hf, r, hg, rfl, rfl⟩

theorem find?_update (t : Table α) (k : Nat) (f : α → α) (i : Nat) :
    (t.update k f).find? i = (t.find? i).map (fun r => if i = k then f r else r) := by
  simp [update, Option.map_eq_bind]

@[simp] theorem find?_update_self (t : Table α) (k : Nat) (f : α → α) :
    (t.update k f).find? k = (t.find? k).map f := by
  simp [find?_update]

theorem find?_update_of_find? (h : t.find? k = some r) (f : α → α) :
    (t.update k f).find? k = some (f r) := by
  simp [h]

theorem find?_update_ne (t : Table α) {k i : Nat} (f : α → α) (h : i ≠ k) :
    (t.update k f).find? i = t.find? i := by
  simp [find?_update, h]

theorem find?_updateMany (t : Table α) (p : Nat → α → Bool) (f : α → α) (i : Nat) :
    (t.updateMany p f).find? i = (t.find? i).map (fun r => if p i r then f r else r) := by
  simp [updateMany, Option.map_eq_bind]

theorem find?_deleteMany (t : Table α) (p : Nat → α → Bool) (i : Nat) :
    (t.deleteMany p).find? i = (t.find? i).bind (fun r => if p i r then none else some r) := by
  simp [deleteMany]

/-! ## Totals -/

@[simp] theorem total_empty (w : Nat → α → Int) : (empty : Table α).total w = 0 := rfl

private theorem sum_map_congr {l : List β} {f g : β → Int} (h : ∀ x ∈ l, f x = g x) :
    (l.map f).sum = (l.map g).sum := by
  rw [List.map_congr_left h]

theorem total_congr {w v : Nat → α → Int} (h : ∀ k r, t.find? k = some r → w k r = v k r) :
    t.total w = t.total v :=
  sum_map_congr (fun x hx => h x.1 x.2 (find?_eq_some_iff.mpr hx))

theorem total_eq_zero {w : Nat → α → Int} (h : ∀ k r, t.find? k = some r → w k r = 0) :
    t.total w = 0 := by
  rw [total_congr (v := fun _ _ => 0) h]
  simp [total]

theorem total_le_total {w w' : Nat → α → Int} (h : ∀ k r, t.find? k = some r → w k r ≤ w' k r) :
    t.total w ≤ t.total w' :=
  List.sum_le_sum (fun x hx => h x.1 x.2 (find?_eq_some_iff.mpr hx))

theorem total_nonneg {w : Nat → α → Int} (h : ∀ k r, t.find? k = some r → 0 ≤ w k r) : 0 ≤ t.total w := by
  have h0 : t.total (fun _ _ => 0) = 0 := by simp [total]
  rw [← h0]
  exact total_le_total h

theorem total_add (t : Table α) (w w' : Nat → α → Int) :
    t.total (fun k r => w k r + w' k r) = t.total w + t.total w' := by
  simp [total, List.sum_map_add]

theorem total_sub (t : Table α) (w w' : Nat → α → Int) :
    t.total (fun k r => w k r - w' k r) = t.total w - t.total w' := by
  have h := total_add t (fun k r => w k r - w' k r) w'
  have hw : t.total (fun k r => w k r - w' k r + w' k r) = t.total w :=
    total_congr (fun k r _ => Int.sub_add_cancel _ _)
  omega

private theorem sum_map_single {l : List (Nat × α)} (hs : l.Pairwise (fun a b => a.1 < b.1))
    {k : Nat} {r : α} (hm : (k, r) ∈ l) (x : Nat → α → Int)
    (hx : ∀ i r', i ≠ k → x i r' = 0) :
    (l.map (fun p => x p.1 p.2)).sum = x k r := by
  induction l with
  | nil => cases hm
  | cons p l ih =>
      rw [List.pairwise_cons] at hs
      rw [List.map_cons, List.sum_cons]
      rcases List.mem_cons.mp hm with rfl | hm
      · have htail : (l.map (fun p => x p.1 p.2)).sum = (l.map (fun _ => (0 : Int))).sum :=
          sum_map_congr (fun q hq => hx q.1 q.2 (by have := hs.1 q hq; simp at this; omega))
        rw [htail]
        simp
      · have hlt : p.1 < k := hs.1 _ hm
        rw [ih hs.2 hm, hx p.1 p.2 (by omega)]
        omega

/-- A weight that vanishes off one key totals to its value there. -/
theorem total_single (h : t.find? k = some r) {w : Nat → α → Int}
    (hw : ∀ i r', i ≠ k → w i r' = 0) : t.total w = w k r :=
  sum_map_single t.sorted (find?_eq_some_iff.mp h) w hw

/-- A row's weight is at most the total of nonnegative weights. -/
theorem le_total {w : Nat → α → Int} (h0 : ∀ k r, t.find? k = some r → 0 ≤ w k r)
    (h : t.find? k = some r) : w k r ≤ t.total w := by
  have hs : t.total (fun i r' => if i = k then w i r' else 0) = w k r := by
    rw [total_single h (fun i r' hi => by simp [hi])]
    simp
  rw [← hs]
  refine total_le_total (fun i r' hi => ?_)
  by_cases hik : i = k
  · simp [hik]
  · simpa [hik] using h0 i r' hi

private theorem filter_split (l : List (Nat × α)) (k : Nat) (f : Nat × α → Int)
    (h : ∀ p ∈ l, p.1 ≠ k) :
    (l.map f).sum = ((l.filter (fun p => p.1 < k)).map f).sum +
      ((l.filter (fun p => k < p.1)).map f).sum := by
  induction l with
  | nil => simp
  | cons p l ih =>
      have hp : p.1 ≠ k := h p List.mem_cons_self
      have hl := ih (fun q hq => h q (List.mem_cons_of_mem p hq))
      rcases Nat.lt_or_gt_of_ne hp with hlt | hlt
      · have hn : ¬ k < p.1 := by omega
        simp [hlt, hn, hl]
        omega
      · have hn : ¬ p.1 < k := by omega
        simp [hlt, hn, hl]
        omega

/-- A new row adds its weight. -/
theorem total_insert (h : t.find? k = none) (r : α) (w : Nat → α → Int) :
    (t.insert k r).total w = t.total w + w k r := by
  have hne : ∀ p ∈ t.rows, p.1 ≠ k := by
    rintro ⟨i, r'⟩ hp rfl
    exact find?_eq_none_iff.mp h r' hp
  simp only [total, insert, List.map_append, List.map_cons, List.sum_append, List.sum_cons]
  rw [filter_split t.rows k _ hne]
  omega

/-- Rewriting rows is rewriting the weight; a dropped row weighs nothing. -/
theorem total_alter (t : Table α) (g : Nat → α → Option α) (w : Nat → α → Int) :
    (t.alter g).total w = t.total (fun k r => (g k r).elim 0 (w k)) := by
  unfold total alter
  dsimp only
  induction t.rows with
  | nil => rfl
  | cons p l ih =>
      cases hg : g p.1 p.2 with
      | none => simp [hg, ih]
      | some r => simp [hg, ih]

theorem total_update (h : t.find? k = some r) (f : α → α) (w : Nat → α → Int) :
    (t.update k f).total w = t.total w + (w k (f r) - w k r) := by
  have hs : t.total (fun i r' => (if i = k then w i (f r') else w i r') - w i r') =
      w k (f r) - w k r := by
    rw [total_single h (fun i r' hi => by simp [hi])]
    simp
  rw [total_sub] at hs
  rw [update, total_alter]
  have hc : t.total (fun i r' => (some (if i = k then f r' else r')).elim 0 (w i)) =
      t.total (fun i r' => if i = k then w i (f r') else w i r') := by
    refine total_congr (fun i r' _ => ?_)
    by_cases hi : i = k <;> simp [hi]
  omega

theorem update_of_find?_none (h : t.find? k = none) (f : α → α) : t.update k f = t := by
  refine ext_find? (fun i => ?_)
  by_cases hi : i = k
  · subst hi
    simp [h]
  · exact find?_update_ne t f hi

theorem total_updateMany (t : Table α) (p : Nat → α → Bool) (f : α → α) (w : Nat → α → Int) :
    (t.updateMany p f).total w = t.total (fun k r => if p k r then w k (f r) else w k r) := by
  rw [updateMany, total_alter]
  refine total_congr (fun k r _ => ?_)
  cases hp : p k r <;> simp

/-- An update that a weight does not see leaves its total alone. -/
theorem total_update_of_eq (t : Table α) (k : Nat) (f : α → α) {w : Nat → α → Int}
    (hw : ∀ r, w k (f r) = w k r) : (t.update k f).total w = t.total w := by
  cases h : t.find? k with
  | none => rw [update_of_find?_none h]
  | some r => simp [total_update h, hw]

/-- The sum over the selected rows is the total of the weight cut to them. -/
theorem sum_select (t : Table α) (p : Nat → α → Bool) (f : Nat × α → Int) :
    ((t.select p).map f).sum = t.total (fun k r => if p k r then f (k, r) else 0) := by
  unfold select total
  induction t.rows with
  | nil => rfl
  | cons x l ih => cases hp : p x.1 x.2 <;> simp [hp, ih]

/-! ### Values by key -/

/-- The weight of the row under a key; nothing for a missing row. -/
def valueAt (t : Table α) (w : α → Int) (k : Nat) : Int := (t.find? k).elim 0 w

theorem valueAt_of_find? (h : t.find? k = some r) (w : α → Int) : t.valueAt w k = w r := by simp [valueAt, h]

theorem valueAt_of_find?_none (h : t.find? k = none) (w : α → Int) : t.valueAt w k = 0 := by simp [valueAt, h]

theorem valueAt_insert (h : t.find? k = none) (r : α) (w : α → Int) :
    (t.insert k r).valueAt w = bump (t.valueAt w) k (w r) := by
  funext i
  by_cases hi : i = k
  · subst hi
    simp [valueAt, h]
  · rw [bump_ne _ _ hi, valueAt, find?_insert_ne t r hi, valueAt]

theorem valueAt_update (h : t.find? k = some r) {x : Int} (hx : w (f r) = w r + x) :
    (t.update k f).valueAt w = bump (t.valueAt w) k x := by
  funext i
  by_cases hi : i = k
  · subst hi
    simp [valueAt, h, hx]
  · rw [bump_ne _ _ hi, valueAt, find?_update_ne t f hi, valueAt]

theorem valueAt_update_of_eq (t : Table α) (k : Nat) {f : α → α} {w : α → Int}
    (hw : ∀ r, w (f r) = w r) : (t.update k f).valueAt w = t.valueAt w := by
  funext i
  rw [valueAt, find?_update, valueAt]
  cases t.find? i with
  | none => rfl
  | some r => by_cases hi : i = k <;> simp [hi, hw]

/-- Dropping rows that weigh nothing changes no value. -/
theorem valueAt_deleteMany {t : Table α} {p : Nat → α → Bool} {w : α → Int}
    (h : ∀ k r, t.find? k = some r → p k r = true → w r = 0) :
    (t.deleteMany p).valueAt w = t.valueAt w := by
  funext i
  rw [valueAt, find?_deleteMany, valueAt]
  cases hr : t.find? i with
  | none => rfl
  | some r => cases hp : p i r <;> simp [hp, h i r hr]

section SumBy

variable {κ : Type} [DecidableEq κ]

/-- The total of a weight over the rows of each group. -/
def sumBy (t : Table α) (group : α → κ) (w : α → Int) (i : κ) : Int :=
  t.total fun _ r => if group r = i then w r else 0

theorem sumBy_insert (h : t.find? k = none) (r : α) (group : α → κ) (w : α → Int) :
    (t.insert k r).sumBy group w = bump (t.sumBy group w) (group r) (w r) := by
  funext i
  rw [sumBy, total_insert h]
  by_cases hi : i = group r
  · subst hi
    simp [sumBy]
  · rw [bump_ne _ _ hi, if_neg (Ne.symm hi), Int.add_zero, sumBy]

variable {group : α → κ}

/-- An update inside a group changes the group's total by the change of the weight. -/
theorem sumBy_update (h : t.find? k = some r) (hf : group (f r) = group r) {x : Int}
    (hx : w (f r) = w r + x) :
    (t.update k f).sumBy group w = bump (t.sumBy group w) (group r) x := by
  funext i
  rw [sumBy, total_update h, hf, hx]
  by_cases hi : i = group r
  · subst hi
    simp [sumBy]
  · rw [bump_ne _ _ hi, if_neg (Ne.symm hi), sumBy]
    simp [Ne.symm hi]

/-- An update that moves a row of unchanged weight moves the weight. -/
theorem sumBy_move (h : t.find? k = some r) (hw : w (f r) = w r) (group : α → κ) :
    (t.update k f).sumBy group w =
      bump (bump (t.sumBy group w) (group r) (-w r)) (group (f r)) (w r) := by
  funext i
  rw [sumBy, total_update h, hw]
  by_cases hi : i = group r <;> by_cases hj : i = group (f r) <;>
    simp [bump, sumBy, hi, hj, eq_comm] <;> split <;> simp_all

theorem sumBy_update_of_eq (t : Table α) (k : Nat) (hg : ∀ r, group (f r) = group r)
    (hw : ∀ r, w (f r) = w r) : (t.update k f).sumBy group w = t.sumBy group w :=
  funext fun _ => total_update_of_eq t k f fun r => by rw [hg, hw]

theorem sumBy_add (t : Table α) (group : α → κ) (w w' : α → Int) (i : κ) :
    t.sumBy group (fun r => w r + w' r) i = t.sumBy group w i + t.sumBy group w' i := by
  rw [sumBy, sumBy, sumBy, ← total_add]
  exact total_congr fun k r _ => by split <;> simp

theorem sumBy_congr {w w' : α → Int} (h : ∀ k r, t.find? k = some r → w r = w' r) :
    t.sumBy group w = t.sumBy group w' :=
  funext fun _ => total_congr fun k r hr => by rw [h k r hr]

variable {g : α → κ}

theorem sumBy_nonneg (h : ∀ k r, t.find? k = some r → 0 ≤ w r) (i : κ) : 0 ≤ t.sumBy g w i :=
  total_nonneg fun k r hr => by
    split
    · exact h k r hr
    · exact Int.le_refl 0

theorem sumBy_eq_zero {i : κ} (h : ∀ k r, t.find? k = some r → g r = i → w r = 0) :
    t.sumBy g w i = 0 :=
  total_eq_zero fun k r hr => by
    split
    · exact h k r hr ‹_›
    · rfl

/-- A row weighs at most what its group does. -/
theorem le_sumBy (h0 : ∀ k r, t.find? k = some r → 0 ≤ w r) (h : t.find? k = some r) :
    w r ≤ t.sumBy g w (g r) := by
  have hle := le_total (w := fun _ r' => if g r' = g r then w r' else 0)
    (fun k r' hr => by
      split
      · exact h0 k r' hr
      · exact Int.le_refl 0) h
  rwa [if_pos rfl] at hle

/-- The sum over the rows of one owner is the total of the weight cut to that owner. -/
theorem sumOn_select (t : Table α) (g : Nat × α → β) (key : β → κ) (w : β → Int) (owner : α → Nat)
    (group : α → κ) (v : α → Int) (hkey : ∀ x, key (g x) = group x.2) (hw : ∀ x, w (g x) = v x.2)
    (id : Nat) :
    sumOn key w ((t.select (fun _ r => owner r == id)).map g) =
      t.sumBy group (fun r => if owner r = id then v r else 0) := by
  funext i
  rw [sumOn, List.map_map]
  refine (sum_select t _ _).trans (total_congr fun k r _ => ?_)
  simp only [Function.comp_apply, hkey, hw, beq_iff_eq]
  split <;> split <;> rfl

end SumBy

/-! ## New keys -/

/-- Every key of the table is below a bound. -/
def Below (t : Table α) (n : Nat) : Prop := ∀ k r, t.find? k = some r → k < n

theorem below_empty (n : Nat) : (empty : Table α).Below n := fun _ _ h => by simp at h

theorem Below.find?_none {t : Table α} {n k : Nat} (h : t.Below n) (hk : n ≤ k) :
    t.find? k = none := by
  cases hf : t.find? k with
  | none => rfl
  | some r => exact absurd (h k r hf) (by omega)

theorem Below.mono {n m : Nat} (h : t.Below n) (hm : n ≤ m) : t.Below m :=
  fun k r hf => Nat.lt_of_lt_of_le (h k r hf) hm

theorem Below.insert {n k : Nat} (h : t.Below n) (hk : k < n) (r : α) : (t.insert k r).Below n := by
  intro i r' hf
  rw [find?_insert] at hf
  by_cases hi : i = k
  · omega
  · exact h i r' (by simpa [hi] using hf)

theorem Below.alter {n : Nat} (h : t.Below n) (g : Nat → α → Option α) : (t.alter g).Below n := by
  intro k r hf
  rw [find?_alter] at hf
  obtain ⟨r₀, h₀, -⟩ := Option.bind_eq_some_iff.mp hf
  exact h k r₀ h₀

/-- The next key keeps all keys below the one after it. -/
theorem Below.insert_succ {n : Nat} (h : t.Below n) (r : α) : (t.insert n r).Below (n + 1) := (h.mono (Nat.le_succ n)).insert (Nat.lt_succ_self n) r

/-- A row under a key above all others comes last. -/
theorem rows_insert_of_below (h : t.Below k) (r : α) :
    (t.insert k r).rows = t.rows ++ [(k, r)] := by
  have hlt : ∀ p ∈ t.rows, p.1 < k := fun p hp => h p.1 p.2 (find?_eq_some_iff.mpr hp)
  have h₁ : t.rows.filter (fun p => p.1 < k) = t.rows :=
    List.filter_eq_self.mpr (fun p hp => by simpa using hlt p hp)
  have h₂ : t.rows.filter (fun p => k < p.1) = [] :=
    List.filter_eq_nil_iff.mpr (fun p hp => by have := hlt p hp; simp; omega)
  simp [insert, h₁, h₂]

theorem select_insert_of_below (h : t.Below k) (r : α) (p : Nat → α → Bool) :
    (t.insert k r).select p = t.select p ++ (if p k r then [(k, r)] else []) := by
  rw [select, rows_insert_of_below h, List.filter_append]
  cases hp : p k r <;> simp [select, hp]

theorem mem_select_deleteMany {p q : Nat → α → Bool} {x : Nat × α} :
    x ∈ (t.deleteMany p).select q ↔ x ∈ t.select q ∧ p x.1 x.2 = false := by
  rw [mem_select, mem_select, find?_deleteMany, Option.bind_eq_some_iff]
  constructor
  · rintro ⟨⟨r, hr, hpr⟩, hq⟩
    by_cases hp : p x.1 r = true
    · simp [hp] at hpr
    · obtain rfl : r = x.2 := by simpa [hp] using hpr
      exact ⟨⟨hr, hq⟩, by simpa using hp⟩
  · rintro ⟨⟨hr, hq⟩, hp⟩
    exact ⟨⟨x.2, hr, by simp [hp]⟩, hq⟩

theorem select_pairwise (t : Table α) (p : Nat → α → Bool) :
    (t.select p).Pairwise (fun a b => a.1 < b.1) := t.sorted.filter _

/-- Two tables select the same rows where the selected ones are the same. -/
theorem select_congr {t u : Table α}
    (h : ∀ k, (t.find? k).filter (p k) = (u.find? k).filter (p k)) : t.select p = u.select p := by
  have hmem : ∀ x, x ∈ t.select p ↔ x ∈ u.select p := by
    intro x
    rw [mem_select, mem_select, ← Option.filter_eq_some_iff, ← Option.filter_eq_some_iff, h]
  have nodup : ∀ v : Table α, (v.select p).Nodup := fun v =>
    (v.select_pairwise p).imp (fun {a b} hab hEq => by subst hEq; exact Nat.lt_irrefl _ hab)
  have hperm := (List.perm_ext_iff_of_nodup (nodup t) (nodup u)).mpr hmem
  refine hperm.eq_of_pairwise ?_ (t.select_pairwise p) (u.select_pairwise p)
  intro a b _ _ hab hba
  omega

end Table

end Wbme.Lib
