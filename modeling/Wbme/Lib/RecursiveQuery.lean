import Mathlib.Data.List.Dedup

/-! # Recursive queries

`WITH RECURSIVE` with `UNION`: the rows of the first term are the result so far, and the working
table. A round takes the rows that the recursive term finds from the working table, drops those
that are in the result, adds the others to it and works on them next. The query is over when a
round begins with nothing to work on, and never before.
-/

namespace Wbme.Lib

/-- The rows that were found so far, and those of the last round. -/
structure RecursiveQuery (α : Type) where
  result : List α
  working : List α

namespace RecursiveQuery

variable {α : Type} [DecidableEq α]

def start (base : List α) : RecursiveQuery α := ⟨base.dedup, base.dedup⟩

/-- The rows that a round finds. -/
def found (next : α → List α) (q : RecursiveQuery α) : List α :=
  (q.working.flatMap next).dedup.filter (· ∉ q.result)

def round (next : α → List α) (q : RecursiveQuery α) : RecursiveQuery α :=
  ⟨q.result ++ q.found next, q.found next⟩

/-- The result after at most so many rounds, if the query is over by then. -/
def finish (next : α → List α) : Nat → RecursiveQuery α → Option (List α)
  | 0, q => if q.working.isEmpty then some q.result else none
  | rounds + 1, q => if q.working.isEmpty then some q.result else finish next rounds (q.round next)

def evaluate (rounds : Nat) (base : List α) (next : α → List α) : Option (List α) :=
  finish next rounds (start base)

/-- The rows that the terms of the query derive. -/
inductive Derives (base : List α) (next : α → List α) : α → Prop where
  | base {x : α} (hx : x ∈ base) : Derives base next x
  | next {x y : α} (hx : Derives base next x) (hy : y ∈ next x) : Derives base next y

/-! ## Rounds -/

variable {base : List α} {next : α → List α} {q : RecursiveQuery α} {rows : List α} {x : α}

theorem mem_found : x ∈ q.found next ↔ (∃ y ∈ q.working, x ∈ next y) ∧ x ∉ q.result := by
  unfold found
  rw [List.mem_filter, List.mem_dedup, List.mem_flatMap, decide_eq_true_iff]

/-- Every row of the result is derived, once, and what the rows behind the working table lead to
is in the result. -/
structure Sound (base : List α) (next : α → List α) (q : RecursiveQuery α) : Prop where
  derived : ∀ x ∈ q.result, Derives base next x
  nodup : q.result.Nodup
  working : ∀ x ∈ q.working, x ∈ q.result
  base : ∀ x ∈ base, x ∈ q.result
  closed : ∀ x ∈ q.result, x ∉ q.working → ∀ y ∈ next x, y ∈ q.result

theorem sound_start : Sound base next (start base) where
  derived _ hx := .base (List.mem_dedup.mp hx)
  nodup := List.nodup_dedup base
  working _ hx := hx
  base _ hx := List.mem_dedup.mpr hx
  closed _ hx hnot := absurd hx hnot

theorem Sound.round (h : Sound base next q) : Sound base next (q.round next) := by
  refine ⟨?_, ?_, ?_, ?_, ?_⟩
  · intro x hx
    rcases List.mem_append.mp hx with hx | hx
    · exact h.derived x hx
    · obtain ⟨⟨y, hy, hxy⟩, -⟩ := mem_found.mp hx
      exact .next (h.derived y (h.working y hy)) hxy
  · apply List.Nodup.append h.nodup
    · exact (List.nodup_dedup _).filter _
    · intro x hx hfound
      exact (mem_found.mp hfound).2 hx
  · intro x hx
    exact List.mem_append_right _ hx
  · intro x hx
    exact List.mem_append_left _ (h.base x hx)
  · intro x hx hnot y hy
    rcases List.mem_append.mp hx with hx | hx
    · by_cases hyresult : y ∈ q.result
      · exact List.mem_append_left _ hyresult
      · -- a row that is new comes from the working table
        by_cases hworking : x ∈ q.working
        · exact List.mem_append_right _ (mem_found.mpr ⟨⟨x, hworking, hy⟩, hyresult⟩)
        · exact absurd (h.closed x hx hworking y hy) hyresult
    · exact absurd hx hnot

/-- A query that is over has found what it derives, each row once. -/
theorem Sound.result_of_finish (h : Sound base next q) {rounds : Nat}
    (hrows : finish next rounds q = some rows) :
    rows.Nodup ∧ ∀ x, x ∈ rows ↔ Derives base next x := by
  have hover : ∀ q : RecursiveQuery α, Sound base next q → q.working = [] →
      q.result.Nodup ∧ ∀ x, x ∈ q.result ↔ Derives base next x := by
    intro q hq hempty
    refine ⟨hq.nodup, ?_⟩
    intro x
    constructor
    · exact hq.derived x
    · intro hx
      induction hx with
      | base hx => exact hq.base _ hx
      | next hx hy ih => exact hq.closed _ ih (by rw [hempty]; exact List.not_mem_nil) _ hy
  induction rounds generalizing q with
  | zero =>
      unfold finish at hrows
      split at hrows
      · rename_i hempty
        cases hrows
        exact hover q h (List.isEmpty_iff.mp hempty)
      · cases hrows
  | succ rounds ih =>
      unfold finish at hrows
      split at hrows
      · rename_i hempty
        cases hrows
        exact hover q h (List.isEmpty_iff.mp hempty)
      · exact ih h.round hrows

theorem evaluate_spec {rounds : Nat} (h : evaluate rounds base next = some rows) :
    rows.Nodup ∧ ∀ x, x ∈ rows ↔ Derives base next x := sound_start.result_of_finish h

/-- A query that is over stays so with more rounds. -/
theorem finish_mono {rounds more : Nat} (hle : rounds ≤ more)
    (h : finish next rounds q = some rows) : finish next more q = some rows := by
  induction rounds generalizing q more with
  | zero =>
      unfold finish at h
      split at h
      · rename_i hempty
        cases more with
        | zero =>
            unfold finish
            rw [if_pos hempty]
            exact h
        | succ more =>
            unfold finish
            rw [if_pos hempty]
            exact h
      · cases h
  | succ rounds ih =>
      cases more with
      | zero => cases hle
      | succ more =>
          unfold finish at h ⊢
          split
          · rename_i hempty
            rw [if_pos hempty] at h
            exact h
          · rename_i hempty
            rw [if_neg hempty] at h
            exact ih (Nat.le_of_succ_le_succ hle) h

/-! ## Queries that end -/

/-- A query is over after as many rounds as there are ranks, when every row is of a higher rank
than the one it is found from. -/
theorem evaluate_isSome (rank : α → Nat) {rounds : Nat}
    (hgrows : ∀ x, Derives base next x → ∀ y ∈ next x, rank x < rank y)
    (hbound : ∀ x, Derives base next x → rank x < rounds) :
    ∃ rows, evaluate rounds base next = some rows := by
  suffices hgen : ∀ (left k : Nat) (q : RecursiveQuery α), Sound base next q →
      (∀ x ∈ q.working, k ≤ rank x) → rounds ≤ k + left → ∃ rows, finish next left q = some rows by
    apply hgen rounds 0 (start base) sound_start
    · intro x _
      exact Nat.zero_le _
    · omega
  intro left
  induction left with
  | zero =>
      intro k q hq hrank hle
      have hempty : q.working = [] := by
        apply List.eq_nil_iff_forall_not_mem.mpr
        intro x hx
        have hlt := hbound x (hq.derived x (hq.working x hx))
        have hk := hrank x hx
        omega
      unfold finish
      rw [hempty]
      exact ⟨q.result, rfl⟩
  | succ left ih =>
      intro k q hq hrank hle
      unfold finish
      split
      · exact ⟨q.result, rfl⟩
      · apply ih (k + 1) (q.round next) hq.round
        · intro y hy
          obtain ⟨⟨x, hx, hxy⟩, -⟩ := mem_found.mp hy
          have hlt := hgrows x (hq.derived x (hq.working x hx)) y hxy
          have hk := hrank x hx
          omega
        · omega

end RecursiveQuery

end Wbme.Lib
