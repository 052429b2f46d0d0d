import Wbme.Lib.Footprint

/-!
# Rows behind locks

A family of rows under keys, with a lock on each. A transaction that changes a row behind its
lock, or under a key it has drawn, and by what the row is alone, changes it to the same row
whenever it commits: nobody else changes it before. What its statements make of a row is then
what its commit makes of it.
-/

namespace Wbme.Lib

/-- Rows of a store, with the lock on each, if there is one, and its key. -/
structure RowFamily (σ ρ κ τ : Type) where
  row : κ → σ → Option τ
  lockOf : κ → Option ρ
  keyOf : κ → Nat

/-- How rows may change, and what a new row may be. -/
structure RowRule (κ τ : Type) where
  rel : κ → Option τ → Option τ → Prop
  born : κ → Option τ → Prop
  refl : ∀ k o, rel k o o
  trans : ∀ k o o' o'', rel k o o' → rel k o' o'' → rel k o o''
  born_rel : ∀ k o o', born k o → rel k o o' → born k o'
  absent : ∀ k o, rel k none o → o = none

namespace RowFamily

variable {σ ρ κ τ : Type} (F : RowFamily σ ρ κ τ) (W : RowRule κ τ)

/-- A row is there and locked, or it is not there and its key was drawn. -/
def Guards (H : List (Hold ρ)) (s : σ) (k : κ) : Prop :=
  (∃ r, F.lockOf k = some r ∧ .lock r ∈ H ∧ F.row k s ≠ none) ∨
    (F.row k s = none ∧ .key (F.keyOf k) ∈ H)

/-- Nobody else changes a guarded row. -/
def Freezes (R : List (Hold ρ) → σ → σ → Prop) : Prop :=
  ∀ H s s' k, R H s s' → F.Guards H s k → F.row k s' = F.row k s

/-- A statement that keeps to a rule. -/
structure Orderly (drawn : List Nat) (l : σ → List ρ) (c : σ → σ → σ) : Prop where
  behind : ∀ v k, (∀ t, F.row k (c v t) = F.row k t) ∨
    (∃ r, F.lockOf k = some r ∧ r ∈ l v ∧ F.row k v ≠ none) ∨ F.keyOf k ∈ drawn
  alone : ∀ v t t' k, F.row k t = F.row k t' → F.row k (c v t) = F.row k (c v t')
  changes : ∀ v k, W.rel k (F.row k v) (F.row k (c v v)) ∨
    (F.keyOf k ∈ drawn ∧ W.born k (F.row k (c v v)))

/-- A draft whose statements have kept to a rule. -/
structure Careful (d : Draft σ ρ) (s : σ) : Prop where
  behind : ∀ k, (∀ t, F.row k (d.change t) = F.row k t) ∨ F.Guards d.holds s k
  alone : ∀ t t' k, F.row k t = F.row k t' → F.row k (d.change t) = F.row k (d.change t')
  fresh : ∀ k, .key (F.keyOf k) ∈ d.holds → F.row k s = none
  changes : ∀ k, W.rel k (F.row k s) (F.row k (d.change s)) ∨
    (.key (F.keyOf k) ∈ d.holds ∧ W.born k (F.row k (d.change s)))

/-- What a commit that keeps to a rule does to the rows. -/
structure Commits (H : List (Hold ρ)) (s s' : σ) : Prop where
  guarded : ∀ k, F.row k s' = F.row k s ∨ F.Guards H s k
  changes : ∀ k, W.rel k (F.row k s) (F.row k s') ∨
    (F.row k s = none ∧ .key (F.keyOf k) ∈ H ∧ W.born k (F.row k s'))

variable {F W}

/-! ## Statements -/

variable {c : σ → σ → σ} {l : σ → List ρ}

variable {drawn : List Nat} {k : κ}

theorem orderly_of_leaves (h : ∀ v t k, F.row k (c v t) = F.row k t) : F.Orderly W drawn l c where
  behind v k := .inl fun t => h v t k
  alone v t t' k ht := by rw [h, h, ht]
  changes v k := .inl (by rw [h]; exact W.refl k _)

/-- A statement that changes nothing, or puts one row under a key that was drawn. -/
theorem orderly_of_insert (k₀ : κ) (x : τ) (hn : F.keyOf k₀ ∈ drawn) (hborn : W.born k₀ (some x))
    (h : ∀ v, (∀ t k, F.row k (c v t) = F.row k t) ∨
      ∀ t, F.row k₀ (c v t) = some x ∧ ∀ k, k ≠ k₀ → F.row k (c v t) = F.row k t) :
    F.Orderly W drawn l c where
  behind v k := by
    by_cases hk : k = k₀
    · exact .inr (.inr (hk ▸ hn))
    · rcases h v with hsame | hput
      · exact .inl fun t => hsame t k
      · exact .inl fun t => (hput t).2 k hk
  alone v t t' k ht := by
    rcases h v with hsame | hput
    · rw [hsame, hsame, ht]
    · by_cases hk : k = k₀
      · rw [hk, (hput t).1, (hput t').1]
      · rw [(hput t).2 k hk, (hput t').2 k hk, ht]
  changes v k := by
    rcases h v with hsame | hput
    · exact .inl (by rw [hsame]; exact W.refl k _)
    · by_cases hk : k = k₀
      · subst hk
        exact .inr ⟨hn, by rw [(hput v).1]; exact hborn⟩
      · exact .inl (by rw [(hput v).2 k hk]; exact W.refl k _)

theorem Orderly.mono {drawn drawn' : List Nat} (h : F.Orderly W drawn l c) (hsub : drawn ⊆ drawn') :
    F.Orderly W drawn' l c where
  behind v k := (h.behind v k).imp_right fun h => h.imp_right fun hk => hsub hk
  alone := h.alone
  changes v k := (h.changes v k).imp_right fun h => ⟨hsub h.1, h.2⟩

theorem Guards.mono {H H' : List (Hold ρ)} {s : σ} (h : F.Guards H s k) (hsub : H ⊆ H') :
    F.Guards H' s k :=
  h.imp (fun ⟨r, hr, hlock, hsome⟩ => ⟨r, hr, hsub hlock, hsome⟩) fun hkey => ⟨hkey.1, hsub hkey.2⟩

theorem Guards.of_row_eq {H : List (Hold ρ)} {s s' : σ} (h : F.Guards H s k)
    (hs : F.row k s' = F.row k s) : F.Guards H s' k := by
  unfold Guards at h ⊢
  rwa [hs]

section Drafts

variable {R : List (Hold ρ) → σ → σ → Prop} {d : Draft σ ρ} {s s' : σ}

theorem careful_of_idle (hidle : d.Idle) (hkeys : ∀ n, .key n ∉ d.holds) : F.Careful W d s where
  behind k := .inl fun t => by rw [hidle t]
  alone t t' k ht := by rw [hidle t, hidle t', ht]
  fresh k hk := absurd hk (hkeys _)
  changes k := .inl (by rw [hidle s]; exact W.refl k _)

/-- What is changed comes out the same after the others moved. -/
theorem Careful.kept (hfreeze : F.Freezes R) (h : F.Careful W d s) (hs : R d.holds s s') (k : κ) :
    (∀ t, F.row k (d.change t) = F.row k t) ∨
      (F.row k s' = F.row k s ∧ F.row k (d.change s') = F.row k (d.change s)) := by
  rcases h.behind k with hk | hk
  · exact .inl hk
  · have hrow := hfreeze _ _ _ _ hs hk
    exact .inr ⟨hrow, h.alone _ _ _ hrow⟩

theorem Careful.later (hfreeze : F.Freezes R) (h : F.Careful W d s) (hs : R d.holds s s') :
    F.Careful W d s' where
  behind k := (h.behind k).imp_right fun hk => hk.of_row_eq (hfreeze _ _ _ _ hs hk)
  alone := h.alone
  fresh k hk := by
    have hnone := h.fresh k hk
    exact (hfreeze _ _ _ _ hs (.inr ⟨hnone, hk⟩)).trans hnone
  changes k := by
    rcases h.kept hfreeze hs k with hsame | ⟨hrow, hchange⟩
    · rw [hsame s']
      exact .inl (W.refl k _)
    · rw [hrow, hchange]
      exact h.changes k

/-- One statement more. -/
theorem Careful.execute (h : F.Careful W d s) (hdrawn : ∀ n ∈ drawn, .key n ∈ d.holds)
    (hc : F.Orderly W drawn l c) : F.Careful W (d.execute s (l (d.change s)) (c (d.change s))) s where
  behind k := by
    rw [Draft.holds_execute]
    have hkeyGuard : .key (F.keyOf k) ∈ d.holds →
        F.Guards (d.holds ++ (l (d.change s)).map .lock) s k :=
      fun hk => .inr ⟨h.fresh k hk, List.mem_append_left _ hk⟩
    rcases h.behind k with hsame | hguard
    · rcases hc.behind (d.change s) k with hleft | ⟨r, hr, hlock, hsome⟩ | hkey
      · exact .inl fun t => (hleft _).trans (hsame t)
      · refine .inr (.inl ⟨r, hr, List.mem_append_right _ (List.mem_map_of_mem hlock), ?_⟩)
        rwa [hsame s] at hsome
      · exact .inr (hkeyGuard (hdrawn _ hkey))
    · exact .inr (hguard.mono (List.subset_append_left _ _))
  alone t t' k ht := hc.alone _ _ _ k (h.alone t t' k ht)
  fresh k hk := by
    rw [Draft.holds_execute, List.mem_append] at hk
    rcases hk with hk | hk
    · exact h.fresh k hk
    · simp at hk
  changes k := by
    rw [Draft.holds_execute, Draft.change_execute]
    rcases hc.changes (d.change s) k with hrel | ⟨hkey, hborn⟩
    · rcases h.changes k with hbefore | ⟨hkey, hborn⟩
      · exact .inl (W.trans k _ _ _ hbefore hrel)
      · exact .inr ⟨List.mem_append_left _ hkey, W.born_rel k _ _ hborn hrel⟩
    · exact .inr ⟨List.mem_append_left _ (hdrawn _ hkey), hborn⟩

/-- One key more, that no row has. -/
theorem Careful.draw (h : F.Careful W d s) {n : Nat} (hn : ∀ k, F.keyOf k = n → F.row k s = none) :
    F.Careful W (d.draw n) s where
  behind k := (h.behind k).imp_right fun hk => hk.mono (List.subset_cons_self _ _)
  alone := h.alone
  fresh k hk := by
    rcases List.mem_cons.mp hk with hk | hk
    · exact hn k (Hold.key.inj hk)
    · exact h.fresh k hk
  changes k := (h.changes k).imp_right fun hk => ⟨List.mem_cons_of_mem _ hk.1, hk.2⟩

theorem Careful.commits (h : F.Careful W d s) : F.Commits W d.holds s (d.change s) where
  guarded k := (h.behind k).imp_left fun hk => hk s
  changes k := (h.changes k).imp_right fun hk => ⟨h.fresh k hk.1, hk.1, hk.2⟩

end Drafts

section Commits

variable {H H' : List (Hold ρ)} {s s' : σ}

theorem commits_refl (H : List (Hold ρ)) (s : σ) : F.Commits W H s s where
  guarded _ := .inl rfl
  changes k := .inl (W.refl k _)

theorem Commits.mono (h : F.Commits W H s s') (hsub : H ⊆ H') : F.Commits W H' s s' where
  guarded k := (h.guarded k).imp_right fun hk => hk.mono hsub
  changes k := (h.changes k).imp_right fun hk => ⟨hk.1, hsub hk.2.1, hk.2.2⟩

/-- The rows alone count. -/
theorem Commits.congr (h : F.Commits W H s s') {s'' : σ} (hs : ∀ k, F.row k s'' = F.row k s') :
    F.Commits W H s s'' where
  guarded k := by rw [hs k]; exact h.guarded k
  changes k := by rw [hs k]; exact h.changes k

/-- A row comes under a key that was drawn. -/
theorem Commits.born (h : F.Commits W H s s') (hk : F.row k s = none) :
    F.row k s' = none ∨ .key (F.keyOf k) ∈ H := by
  rcases h.changes k with hrel | ⟨-, hkey, -⟩
  · rw [hk] at hrel
    exact .inl (W.absent k _ hrel)
  · exact .inr hkey

/-- What becomes of a row that is there. -/
theorem Commits.rel (h : F.Commits W H s s') {x : τ} (hx : F.row k s = some x) :
    W.rel k (some x) (F.row k s') := by
  rcases h.changes k with hrel | ⟨hnone, -⟩
  · rwa [hx] at hrel
  · rw [hnone] at hx
    cases hx

theorem Commits.unused (h : F.Commits W H s s') {n : Nat}
    (hs : ∀ k, n ≤ F.keyOf k → F.row k s = none) (hH : ∀ m, .key m ∈ H → m < n) :
    ∀ k, n ≤ F.keyOf k → F.row k s' = none := by
  intro k hk
  rcases h.born (hs k hk) with hnone | hkey
  · exact hnone
  · have := hH _ hkey
    omega

/-- Two transactions that hold different things guard different rows. -/
theorem Guards.apart (h : F.Guards H s k) (h' : F.Guards H' s k) : ∃ r ∈ H', r ∈ H := by
  rcases h with ⟨r, hr, hlock, hsome⟩ | ⟨hnone, hkey⟩ <;>
    rcases h' with ⟨r', hr', hlock', hsome'⟩ | ⟨hnone', hkey'⟩
  · obtain rfl := Option.some.inj (hr.symm.trans hr')
    exact ⟨_, hlock', hlock⟩
  · exact absurd hnone' hsome
  · exact absurd hnone hsome'
  · exact ⟨_, hkey', hkey⟩

/-- Where every commit keeps to rules, guarded rows are left alone by the others. -/
theorem freezes_rely {α ι : Type} {D : Discipline σ ρ α ι}
    (h : ∀ a x d s s', D.commits a x d s s' → ∃ W, F.Commits W d.holds s s') :
    F.Freezes D.Rely := by
  intro H s s' k hrely
  apply hrely.induction (P := fun s s' => F.Guards H s k → F.row k s' = F.row k s)
  · exact fun _ _ => rfl
  · intro s s' s'' h h' hguard
    have hsame := h hguard
    exact (h' (hguard.of_row_eq hsame)).trans hsame
  intro a x d s s' hcommit hapart hguard
  obtain ⟨W, hW⟩ := h a x d s s' hcommit
  refine (hW.guarded k).resolve_right fun hother => ?_
  obtain ⟨r, hr, hr'⟩ := hguard.apart hother
  exact hapart r hr hr'

end Commits

end RowFamily

end Wbme.Lib
