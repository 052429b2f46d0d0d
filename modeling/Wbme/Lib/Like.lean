import Mathlib.Data.List.Infix

/-!
# Patterns with wildcards

A pattern is read into tokens: one that any run of letters fits, one that any single letter
fits, letters that stand for themselves, and the escape that nothing follows. Matching goes
along the text from the left; it fails outright when it arrives at a dangling escape with
text left. Patterns of letters only, with or without a free run at either end, are the
comparisons for equality, prefix, suffix and infix.
-/

namespace Wbme.Lib

inductive LikeToken (α : Type) where
  | any
  | one
  | lit (a : α)
  | dangling
  deriving DecidableEq

namespace LikeToken

variable {α : Type}

/-- The first position of a text at which a search does not just say no. -/
def search (f : List α → Option Bool) : List α → Option Bool
  | [] => f []
  | a :: t =>
      match f (a :: t) with
      | some false => search f t
      | r => r

theorem search_of_fits {f : List α → Option Bool} {t : List α} (h : f t = some true) :
    search f t = some true := by
  cases t with
  | nil => exact h
  | cons a t => simp [search, h]

theorem search_some (f : List α → Bool) (t : List α) :
    search (fun t => some (f t)) t = some (t.tails.any f) := by
  induction t with
  | nil => simp [search]
  | cons a t ih =>
      rw [search, List.tails_cons, List.any_cons]
      cases h : f (a :: t) with
      | true => simp
      | false => simpa using ih

variable [DecidableEq α]

/-- Whether a text fits a pattern, `none` if the pattern turns out to be malformed. -/
def fits : List (LikeToken α) → List α → Option Bool
  | [], t => some t.isEmpty
  | .any :: p, t => search (fits p) t
  | .one :: _, [] => some false
  | .one :: p, _ :: t => fits p t
  | .lit _ :: _, [] => some false
  | .lit a :: p, b :: t => if a = b then fits p t else some false
  | .dangling :: _, [] => some false
  | .dangling :: _, _ :: _ => none

/-- A shortest text that fits: free runs are empty, single letters are `x`. -/
def shortest (x : α) : List (LikeToken α) → List α
  | [] => []
  | .any :: p => shortest x p
  | .one :: p => x :: shortest x p
  | .lit a :: p => a :: shortest x p
  | .dangling :: p => shortest x p

attribute [grind =] search fits shortest

/-! ## Letters -/

theorem fits_lits_append (xs : List α) (p : List (LikeToken α)) (t : List α) :
    fits (xs.map .lit ++ p) t =
      if xs <+: t then fits p (t.drop xs.length) else some false := by
  induction xs generalizing t with
  | nil => simp
  | cons a xs ih =>
      cases t with
      | nil => simp [fits]
      | cons b t =>
          rw [List.map_cons, List.cons_append, fits]
          by_cases hab : a = b
          · simp [hab, ih, List.cons_prefix_cons]
          · simp [hab, List.cons_prefix_cons]

/-- Letters fit themselves. -/
theorem fits_lits (xs t : List α) : fits (xs.map .lit) t = some (decide (xs = t)) := by
  have h := fits_lits_append xs [] t
  rw [List.append_nil] at h
  rw [h]
  split
  · next hp =>
      obtain ⟨u, rfl⟩ := hp
      cases u with
      | nil => simp [fits]
      | cons b u => simp [fits]
  · next hp =>
      have hne : xs ≠ t := fun heq => hp (heq ▸ List.prefix_refl xs)
      simp [hne]

theorem fits_any (t : List α) : fits [LikeToken.any] t = some true := by
  show search (fun t => some t.isEmpty) t = some true
  rw [search_some]
  simp

/-- Letters and a free run fit a text that begins with the letters. -/
theorem fits_lits_any (xs t : List α) :
    fits (xs.map .lit ++ [.any]) t = some (decide (xs <+: t)) := by
  rw [fits_lits_append, fits_any]
  by_cases h : xs <+: t <;> simp [h]

/-- A free run and letters fit a text that ends with the letters. -/
theorem fits_any_lits (xs t : List α) :
    fits (.any :: xs.map .lit) t = some (decide (xs <:+ t)) := by
  show search (fits (xs.map .lit)) t = _
  rw [show fits (xs.map .lit) = fun t => some (decide (xs = t)) from funext (fits_lits xs),
    search_some]
  congr 1
  rw [Bool.eq_iff_iff, List.any_eq_true]
  simp [List.mem_tails]

/-- Letters between free runs fit a text that contains the letters. -/
theorem fits_any_lits_any (xs t : List α) :
    fits (.any :: (xs.map .lit ++ [.any])) t = some (decide (xs <:+: t)) := by
  show search (fits (xs.map .lit ++ [.any])) t = _
  rw [show fits (xs.map .lit ++ [.any]) = fun t => some (decide (xs <+: t)) from
    funext (fits_lits_any xs), search_some]
  congr 1
  rw [Bool.eq_iff_iff, List.any_eq_true]
  simp [List.mem_tails, List.infix_iff_prefix_suffix, and_comm]

/-! ## Shortest texts -/

theorem fits_shortest (x : α) {p : List (LikeToken α)} (h : .dangling ∉ p) :
    fits p (shortest x p) = some true := by
  induction p with
  | nil => rfl
  | cons token p ih =>
      have hp : fits p (shortest x p) = some true :=
        ih fun hmem => h (List.mem_cons_of_mem token hmem)
      cases token with
      | any => exact search_of_fits hp
      | one => exact hp
      | lit a => simpa [shortest, fits] using hp
      | dangling => exact absurd List.mem_cons_self h

theorem fits_dangling {p : List (LikeToken α)} (h : .dangling ∈ p) (t : List α) :
    fits p t ≠ some true := by
  induction p generalizing t with
  | nil => cases h
  | cons token p ih =>
      rcases List.mem_cons.mp h with rfl | hp
      · cases t <;> simp [fits]
      · cases token with
        | any =>
            show search (fits p) t ≠ some true
            induction t with
            | nil => exact ih hp []
            | cons a t iht =>
                rw [search]
                split
                · exact iht
                · exact ih hp (a :: t)
        | one =>
            cases t with
            | nil => simp [fits]
            | cons a t => exact ih hp t
        | lit a =>
            cases t with
            | nil => simp [fits]
            | cons b t =>
                rw [fits]
                split
                · exact ih hp t
                · simp
        | dangling => cases t <;> simp [fits]

/-! ## Reading a pattern -/

/-- The letters that do not stand for themselves. -/
def isWild (c : Char) : Bool := c == '%' || c == '_' || c == '\\'

/-- The tokens of a pattern in which the backslash escapes. -/
def read : List Char → List (LikeToken Char)
  | [] => []
  | ['\\'] => [.dangling]
  | '\\' :: c :: p => .lit c :: read p
  | '%' :: p => .any :: read p
  | '_' :: p => .one :: read p
  | c :: p => .lit c :: read p

theorem read_cons {c : Char} (h : isWild c = false) (p : List Char) :
    read (c :: p) = .lit c :: read p := by
  have hne : c ≠ '%' ∧ c ≠ '_' ∧ c ≠ '\\' := by simpa [isWild, not_or, and_assoc] using h
  rw [read.eq_def]
  split <;> simp_all

/-- A pattern without wildcards stands for itself. -/
theorem read_append {xs : List Char} (h : ∀ c ∈ xs, isWild c = false) (p : List Char) :
    read (xs ++ p) = xs.map .lit ++ read p := by
  induction xs with
  | nil => rfl
  | cons c xs ih =>
      rw [List.cons_append, read_cons (h c List.mem_cons_self),
        ih fun d hd => h d (List.mem_cons_of_mem c hd)]
      rfl

/-- Induction along the tokens of a pattern. -/
theorem pattern_induction {motive : List Char → Prop} (nil : motive []) (dangling : motive ['\\'])
    (escaped : ∀ c p, motive p → motive ('\\' :: c :: p)) (any : ∀ p, motive p → motive ('%' :: p))
    (one : ∀ p, motive p → motive ('_' :: p))
    (lit : ∀ c p, isWild c = false → motive p → motive (c :: p)) (p : List Char) : motive p := by
  induction p using read.induct with
  | case1 => exact nil
  | case2 => exact dangling
  | case3 c p ih => exact escaped c p ih
  | case4 p ih => exact any p ih
  | case5 p ih => exact one p ih
  | case6 c p hd he ha ho ih =>
      refine lit c p ?_ ih
      have hb : c ≠ '\\' := by
        intro h
        cases p with
        | nil => exact hd h rfl
        | cons b p => exact he b p h rfl
      have ha' : c ≠ '%' := ha
      have ho' : c ≠ '_' := ho
      simp [isWild, ha', ho', hb]

/-- The shortest text of a pattern is no longer than the pattern, whether or not a free run
follows, and it is the pattern only if nothing in it is wild. -/
theorem shortest_read_append {s : List Char} (hs : s = [] ∨ s = ['%']) (p : List Char) :
    (shortest 'x' (read (p ++ s))).length ≤ p.length ∧
      (shortest 'x' (read (p ++ s)) = p → ∀ c ∈ p, isWild c = false) := by
  induction p using pattern_induction with
  | nil => rcases hs with rfl | rfl <;> simp [read, shortest]
  | dangling => rcases hs with rfl | rfl <;> simp [read, shortest]
  | escaped c p ih =>
      simp only [List.cons_append, read, shortest, List.length_cons]
      refine ⟨by omega, fun h => ?_⟩
      have := congrArg List.length h
      simp only [List.length_cons] at this
      omega
  | any p ih =>
      simp only [List.cons_append, read, shortest, List.length_cons]
      refine ⟨by omega, fun h => ?_⟩
      have := congrArg List.length h
      simp only [List.length_cons] at this
      omega
  | one p ih =>
      simp only [List.cons_append, read, shortest, List.length_cons]
      refine ⟨by omega, fun h => ?_⟩
      simp at h
  | lit c p hc ih =>
      simp only [List.cons_append, read_cons hc, shortest, List.length_cons]
      refine ⟨by omega, fun h => ?_⟩
      have hp := ih.2 (List.cons.inj h).2
      intro d hd
      rcases List.mem_cons.mp hd with rfl | hd
      · exact hc
      · exact hp d hd

/-- The letters of a shortest text come from the pattern. -/
theorem mem_shortest_read {p : List Char} {c : Char} (h : c ∈ shortest 'x' (read p)) :
    c = 'x' ∨ c ∈ p := by
  induction p using pattern_induction with
  | nil => simp [read, shortest] at h
  | dangling => simp [read, shortest] at h
  | escaped d p ih =>
      simp only [read, shortest, List.mem_cons] at h ⊢
      rcases h with rfl | h
      · exact Or.inr (Or.inr (Or.inl rfl))
      · exact (ih h).imp_right fun h => Or.inr (Or.inr h)
  | any p ih =>
      simp only [read, shortest, List.mem_cons] at h ⊢
      exact (ih h).imp_right Or.inr
  | one p ih =>
      simp only [read, shortest, List.mem_cons] at h ⊢
      rcases h with rfl | h
      · exact Or.inl rfl
      · exact (ih h).imp_right Or.inr
  | lit d p hd ih =>
      rw [read_cons hd] at h
      simp only [shortest, List.mem_cons] at h ⊢
      rcases h with rfl | h
      · exact Or.inr (Or.inl rfl)
      · exact (ih h).imp_right Or.inr

end LikeToken

end Wbme.Lib
