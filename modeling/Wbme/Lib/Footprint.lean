import Wbme.Lib.Interleave

/-!
# What the statements of a transaction have in common

A fact about every statement of a transaction, for every view it may meet, is proved along
the program without looking at a run. Whatever such statements keep of a draft, amid others,
then holds of what the transaction comes to.

A key is drawn once. What was seen under a key is the same for as long as it is there.
-/

namespace Wbme.Lib

namespace Txn

variable {σ ρ ε α β γ : Type}

/-- A condition on a statement: the keys drawn before it, its locks and its changes. -/
abbrev StatementRule (σ ρ : Type) := List Nat → (σ → List ρ) → (σ → σ → σ) → Prop

/-- Every statement satisfies a condition. -/
def Statements (S : StatementRule σ ρ) : Txn σ ρ ε α → List Nat → Prop
  | .pure _, _ => True
  | .throw _, _ => True
  | .stmt l c k, drawn => S drawn l c ∧ ∀ v, (k v).Statements S drawn
  | .fresh k, drawn => ∀ n, (k n).Statements S (n :: drawn)

/-- Every result satisfies a condition. -/
def Yields (Q : α → Prop) : Txn σ ρ ε α → Prop
  | .pure a => Q a
  | .throw _ => True
  | .stmt _ _ k => ∀ v, (k v).Yields Q
  | .fresh k => ∀ n, (k n).Yields Q

/-- Reads satisfy the condition, and more keys do no harm. -/
structure StatementRule.Admits (S : StatementRule σ ρ) : Prop where
  quiet : ∀ drawn l, S drawn l fun _ s => s
  mono : ∀ drawn drawn' l c, drawn ⊆ drawn' → S drawn l c → S drawn' l c

section Yields

variable {Q : α → Prop} {M : β → Prop}

theorem yields_trivial (p : Txn σ ρ ε α) : p.Yields fun _ => True := by
  induction p with
  | pure a => trivial
  | throw e => trivial
  | stmt l c k ih => exact ih
  | fresh k ih => exact ih

theorem yields_pure {a : α} (h : Q a) : (Pure.pure a : Txn σ ρ ε α).Yields Q := h

theorem Yields.bind {p : Txn σ ρ ε β} {f : β → Txn σ ρ ε α} (hp : p.Yields M)
    (hf : ∀ b, M b → (f b).Yields Q) : (p >>= f).Yields Q := by
  induction p with
  | pure b => exact hf b hp
  | throw e => trivial
  | stmt l c k ih => exact fun v => ih v (hp v)
  | fresh k ih => exact fun n => ih n (hp n)

theorem yields_liftExcept {r : Except ε α} (h : ∀ a, r = .ok a → Q a) :
    (liftExcept r : Txn σ ρ ε α).Yields Q := by
  cases r with
  | ok a => exact h a rfl
  | error e => trivial

/-- Executed with nothing in between, a program that changes nothing leaves its result alone. -/
theorem Yields.safe_quiet {p : Txn σ ρ ε α} (h : p.Yields Q) (hquiet : p.Quiet) {n : Nat} {s : σ} :
    p.safe (fun a _ s' => Q a ∧ s' = s) n s := by
  induction p generalizing n s with
  | pure a => exact ⟨h, rfl⟩
  | throw e => trivial
  | stmt l c k ih =>
      show (k s).safe _ n (c s s)
      rw [show c s s = s from hquiet.1 s s]
      exact ih s (h s) (hquiet.2 s)
  | fresh k ih => exact ih n (h n) (hquiet n)

end Yields

variable {p : Txn σ ρ ε α}

section Statements

variable {S : StatementRule σ ρ} {drawn drawn' : List Nat}

theorem Statements.mono (hS : S.Admits) {p : Txn σ ρ ε α} (h : p.Statements S drawn)
    (hsub : drawn ⊆ drawn') : p.Statements S drawn' := by
  induction p generalizing drawn drawn' with
  | pure a => trivial
  | throw e => trivial
  | stmt l c k ih => exact ⟨hS.mono _ _ _ _ hsub h.1, fun v => ih v (h.2 v) hsub⟩
  | fresh k ih => exact fun n => ih n (h n) (List.cons_subset_cons n hsub)

theorem statements_pure (a : α) : (Pure.pure a : Txn σ ρ ε α).Statements S drawn := trivial

/-- One program after another that is known for its results. -/
theorem Statements.bind_yields (hS : S.Admits) {Q : α → Prop} {p : Txn σ ρ ε α}
    {f : α → Txn σ ρ ε β} (hp : p.Statements S drawn) (hq : p.Yields Q)
    (hf : ∀ a, Q a → (f a).Statements S []) : (p >>= f).Statements S drawn := by
  induction p generalizing drawn with
  | pure a => exact (hf a hq).mono hS (List.nil_subset _)
  | throw e => trivial
  | stmt l c k ih => exact ⟨hp.1, fun v => ih v (hp.2 v) (hq v)⟩
  | fresh k ih => exact fun n => ih n (hp n) (hq n)

theorem Statements.bind (hS : S.Admits) {f : α → Txn σ ρ ε β} (hp : p.Statements S drawn)
    (hf : ∀ a, (f a).Statements S []) : (p >>= f).Statements S drawn := hp.bind_yields hS (yields_trivial p) fun a _ => hf a

theorem statements_guard (c : Bool) (e : ε) :
    (guard c e : Txn σ ρ ε Unit).Statements S drawn := by
  cases c <;> trivial

theorem statements_orThrow (o : Option α) (e : ε) :
    (orThrow o e : Txn σ ρ ε α).Statements S drawn := by
  cases o <;> trivial

theorem statements_liftExcept (r : Except ε α) :
    (liftExcept r : Txn σ ρ ε α).Statements S drawn := by
  cases r <;> trivial

variable {l : σ → List ρ}

/-- A statement that may fail. -/
theorem statements_act {f : σ → Except ε (α × (σ → σ))} (h : S drawn l fun v => match f v with
      | .ok r => r.2
      | .error _ => id) : (act l f).Statements S drawn := by
  refine ⟨h, fun v => ?_⟩
  dsimp only
  cases f v <;> trivial

theorem statements_query (hS : S.Admits) (f : σ → α) :
    (query f : Txn σ ρ ε α).Statements S drawn := statements_act (hS.quiet _ _)

theorem statements_exec {c : σ → σ → σ} (h : S drawn l c) :
    (exec l c : Txn σ ρ ε Unit).Statements S drawn := statements_act h

theorem statements_create {checks : σ → List (Bool × ε)} {put : Nat → σ → σ}
    (h : ∀ n, S (n :: drawn) l fun v => if firstViolated (checks v) = none then put n else id) :
    (create l checks put : Txn σ ρ ε Nat).Statements S drawn := by
  refine fun n => statements_act ?_
  convert h n using 2
  rename_i v
  cases firstViolated (checks v) <;> rfl

theorem statements_forM (hS : S.Admits) {xs : List β} {f : β → Txn σ ρ ε PUnit}
    (h : ∀ x ∈ xs, (f x).Statements S []) : (xs.forM f).Statements S [] := by
  induction xs with
  | nil => trivial
  | cons x rest ih =>
      exact (h x List.mem_cons_self).bind hS fun _ => ih fun y hy => h y (List.mem_cons_of_mem _ hy)

theorem statements_mapM (hS : S.Admits) {xs : List β} {f : β → Txn σ ρ ε γ}
    (h : ∀ x ∈ xs, (f x).Statements S []) : (xs.mapM f).Statements S [] := by
  induction xs with
  | nil => trivial
  | cons x rest ih =>
      rw [List.mapM_cons]
      refine (h x List.mem_cons_self).bind hS fun c => ?_
      exact (ih fun y hy => h y (List.mem_cons_of_mem _ hy)).bind hS fun cs => trivial

/-- Statements of a kind that leave a part of the store alone. -/
theorem Statements.and_leaves {τ : Type} {g : σ → τ} {p : Txn σ ρ ε α}
    (h : p.Statements S drawn) (hg : p.Leaves g) :
    p.Statements (fun drawn l c => S drawn l c ∧ ∀ v s, g (c v s) = g s) drawn := by
  induction p generalizing drawn with
  | pure a => trivial
  | throw e => trivial
  | stmt l c k ih => exact ⟨⟨h.1, hg.1⟩, fun v => ih v (h.2 v) (hg.2 v)⟩
  | fresh k ih => exact fun n => ih n (h n) (hg n)

end Statements

/-! ## What statements keep of a draft -/

variable {R : List (Hold ρ) → σ → σ → Prop} {unused : Nat → σ → Prop}

/-- A fact about drafts that survives the statements of a kind. -/
structure Tracks (S : StatementRule σ ρ) (R : List (Hold ρ) → σ → σ → Prop)
    (unused : Nat → σ → Prop) (I : Draft σ ρ → σ → Prop) : Prop where
  statement : ∀ d s s' drawn l c, I d s → R d.holds s s' → (∀ n ∈ drawn, .key n ∈ d.holds) →
    S drawn l c → I (d.execute s' (l (d.change s')) (c (d.change s'))) s'
  draw : ∀ d s s' n, I d s → R d.holds s s' → unused n s' → .key n ∉ d.holds → I (d.draw n) s'

theorem Statements.amid_drawn {S : StatementRule σ ρ} {I : Draft σ ρ → σ → Prop}
    (h : Tracks S R unused I) {p : Txn σ ρ ε α} {drawn : List Nat} (hp : p.Statements S drawn)
    {d : Draft σ ρ} {s : σ} (hd : ∀ n ∈ drawn, .key n ∈ d.holds) (hi : I d s) :
    p.amid R unused (fun _ d' s' => I d' s') d s := by
  induction p generalizing drawn d s with
  | pure a => exact hi
  | throw e => trivial
  | stmt l c k ih =>
      intro s' hs
      refine ih _ (hp.2 _) (fun n hn => ?_) (h.statement d s s' drawn l c hi hs hd hp.1)
      exact List.mem_append_left _ (hd n hn)
  | fresh k ih =>
      intro s' hs n hn hnd
      refine ih n (hp n) (fun m hm => ?_) (h.draw d s s' n hi hs hn hnd)
      rcases List.mem_cons.mp hm with rfl | hm
      · exact List.mem_cons_self
      · exact List.mem_cons_of_mem _ (hd m hm)

theorem Statements.amid {S : StatementRule σ ρ} {I : Draft σ ρ → σ → Prop} (h : Tracks S R unused I)
    (hp : p.Statements S []) {d : Draft σ ρ} {s : σ} (hi : I d s) :
    p.amid R unused (fun _ d' s' => I d' s') d s :=
  hp.amid_drawn h (by simp) hi

theorem Yields.amid {Q : α → Prop} {p : Txn σ ρ ε α} (h : p.Yields Q) {d : Draft σ ρ} {s : σ} :
    p.amid R unused (fun a _ _ => Q a) d s := by
  induction p generalizing d s with
  | pure a => exact h
  | throw e => trivial
  | stmt l c k ih => exact fun s' _ => ih _ (h _)
  | fresh k ih => exact fun s' _ n _ _ => ih n (h n)

/-- What is known of a draft goes along with what a program comes to. -/
theorem amid_and {p : Txn σ ρ ε α} {Q Q' : α → Draft σ ρ → σ → Prop} {d : Draft σ ρ} {s : σ}
    (h : p.amid R unused Q d s) (h' : p.amid R unused Q' d s) :
    p.amid R unused (fun a d s => Q a d s ∧ Q' a d s) d s := by
  induction p generalizing d s with
  | pure a => exact ⟨h, h'⟩
  | throw e => trivial
  | stmt l c k ih => exact fun s' hs => ih _ (h s' hs) (h' s' hs)
  | fresh k ih => exact fun s' hs n hn hd => ih n (h s' hs n hn hd) (h' s' hs n hn hd)

end Txn

section Remember

variable {σ ρ ε α ι κ τ : Type}

/-- Facts under keys that nobody changes: a commit keeps one, drops it, or states it first. -/
structure Discipline.Remembers (D : Discipline σ ρ α ι) (fact : κ → σ → Option τ)
    (keyOf : κ → Nat) : Prop where
  unused : ∀ n s k, D.unused n s → n ≤ keyOf k → fact k s = none
  commits : ∀ a x d s s', D.commits a x d s s' → ∀ k, fact k s' = fact k s ∨ fact k s' = none ∨
    (fact k s = none ∧ .key (keyOf k) ∈ d.holds)

namespace Database

/-- What sessions have seen under keys, and where the keys are. -/
structure Remembered (fact : κ → σ → Option τ) (keyOf : κ → Nat)
    (b : Database σ ρ ε α ι) : Prop where
  fresh : ∀ i t, b.sessions.find? i = some t → ∀ k, .key (keyOf k) ∈ t.draft.holds →
    fact k b.store = none
  old : ∀ i t, b.sessions.find? i = some t → ∀ v ∈ t.draft.seen, ∀ k, fact k v ≠ none →
    keyOf k < b.sequence ∧
      ∀ j u, b.sessions.find? j = some u → Hold.key (keyOf k) ∉ u.draft.holds
  agree : ∀ i t, b.sessions.find? i = some t → ∀ v ∈ t.draft.seen, ∀ k x y,
    fact k v = some x → fact k b.store = some y → x = y

variable {D : Discipline σ ρ α ι} {fact : κ → σ → Option τ} {keyOf : κ → Nat}
  {b : Database σ ρ ε α ι}

theorem remembered_init (fact : κ → σ → Option τ) (keyOf : κ → Nat) (n : Nat) (s : σ) :
    (init n s : Database σ ρ ε α ι).Remembered fact keyOf := by
  constructor <;> intro i t hi <;> simp [init] at hi

theorem Remembered.kill (h : b.Remembered fact keyOf) (i : Nat) :
    (b.kill i).Remembered fact keyOf where
  fresh j t hj := h.fresh j t (find?_kill hj).1
  old j t hj v hv k hk :=
    have hold := h.old j t (find?_kill hj).1 v hv k hk
    ⟨hold.1, fun l u hl => hold.2 l u (find?_kill hl).1⟩
  agree j t hj := h.agree j t (find?_kill hj).1

/-- One session goes on: what it holds beyond is about nothing that is known, what it sees
beyond is the store. -/
theorem Remembered.insert (h : b.Remembered fact keyOf) {i n : Nat} {t : Session σ ρ ε α ι}
    (hn : b.sequence ≤ n)
    (hfresh : ∀ k, .key (keyOf k) ∈ t.draft.holds → fact k b.store = none)
    (hkeys : ∀ j u, b.sessions.find? j = some u → ∀ v ∈ u.draft.seen, ∀ k, fact k v ≠ none →
      Hold.key (keyOf k) ∉ t.draft.holds)
    (hseen : ∀ v ∈ t.draft.seen, v = b.store ∨
      ∃ j u, b.sessions.find? j = some u ∧ v ∈ u.draft.seen)
    (hstore : ∀ k, fact k b.store ≠ none → keyOf k < n) :
    (⟨n, b.store, b.sessions.insert i t⟩ : Database σ ρ ε α ι).Remembered fact keyOf := by
  have hfind : ∀ j u, (b.sessions.insert i t).find? j = some u →
      u = t ∨ b.sessions.find? j = some u := by
    intro j u hj
    rw [Table.find?_insert] at hj
    split at hj
    · exact .inl (Option.some.inj hj).symm
    · exact .inr hj
  have hfacts : ∀ j u, (b.sessions.insert i t).find? j = some u → ∀ k,
      .key (keyOf k) ∈ u.draft.holds → fact k b.store = none := by
    intro j u hj k hk
    rcases hfind j u hj with rfl | hj
    · exact hfresh k hk
    · exact h.fresh j u hj k hk
  have hpast : ∀ j u, (b.sessions.insert i t).find? j = some u → ∀ v ∈ u.draft.seen,
      v = b.store ∨ ∃ j' u', b.sessions.find? j' = some u' ∧ v ∈ u'.draft.seen := by
    intro j u hj v hv
    rcases hfind j u hj with rfl | hj
    · exact hseen v hv
    · exact .inr ⟨j, u, hj, hv⟩
  refine ⟨hfacts, ?_, ?_⟩
  · intro j u hj v hv k hk
    rcases hpast j u hj v hv with rfl | ⟨j', u', hj', hv'⟩
    · exact ⟨hstore k hk, fun l w hl hmem => hk (hfacts l w hl k hmem)⟩
    · have hold := h.old j' u' hj' v hv' k hk
      refine ⟨Nat.lt_of_lt_of_le hold.1 hn, fun l w hl => ?_⟩
      rcases hfind l w hl with rfl | hl
      · exact hkeys j' u' hj' v hv' k hk
      · exact hold.2 l w hl
  · intro j u hj v hv k x y hx hy
    rcases hpast j u hj v hv with rfl | ⟨j', u', hj', hv'⟩
    · exact Option.some.inj (hx.symm.trans hy)
    · exact h.agree j' u' hj' v hv' k x y hx hy

/-- A session under way goes on without a new key. -/
theorem Remembered.goOn (hD : D.Remembers fact keyOf) (hsound : b.Sound D)
    (h : b.Remembered fact keyOf) {i : Nat} {t t' : Session σ ρ ε α ι}
    (hi : b.sessions.find? i = some t)
    (hholds : ∀ n, .key n ∈ t'.draft.holds → .key n ∈ t.draft.holds)
    (hseen : ∀ v ∈ t'.draft.seen, v ∈ t.draft.seen ∨ v = b.store) :
    (⟨b.sequence, b.store, b.sessions.insert i t'⟩ :
      Database σ ρ ε α ι).Remembered fact keyOf := by
  refine h.insert (Nat.le_refl _) (fun k hk => h.fresh i t hi k (hholds _ hk)) ?_ ?_ ?_
  · exact fun j u hj v hv k hk hmem => (h.old j u hj v hv k hk).2 i t hi (hholds _ hmem)
  · exact fun v hv => (hseen v hv).symm.imp id fun hv => ⟨i, t, hi, hv⟩
  · intro k hk
    by_contra hle
    exact hk (hD.unused _ _ k hsound.unused (Nat.le_of_not_lt hle))

variable [DecidableEq ρ]

theorem Remembered.step (hD : D.Remembers fact keyOf) {script : ι → Call σ ρ ε α}
    (hsound : b.Sound D) (h : b.Remembered fact keyOf) (e : DatabaseEvent ι) :
    (b.step script e).Remembered fact keyOf := by
  have hstore : ∀ k, fact k b.store ≠ none → keyOf k < b.sequence := by
    intro k hk
    by_contra hle
    exact hk (hD.unused _ _ k hsound.unused (Nat.le_of_not_lt hle))
  cases e with
  | kill i => exact h.kill i
  | start i a =>
      simp only [Database.step, Database.start]
      split
      · exact h
      · exact h.insert (Nat.le_refl _) (by simp) (by simp) (by simp) hstore
  | advance i =>
      simp only [Database.step]
      cases hi : b.sessions.find? i with
      | none => exact h
      | some t =>
          simp only [Database.advance]
          cases hp : t.program with
          | pure x =>
              have hcommit := hD.commits _ _ _ _ _ (hsound.commit hi hp)
              refine ⟨?_, (h.kill i).old, ?_⟩
              · intro j u hj k hk
                obtain ⟨hj, hne⟩ := find?_kill hj
                have hnone := h.fresh j u hj k hk
                rcases hcommit k with hsame | hgone | ⟨_, hmem⟩
                · exact hsame.trans hnone
                · exact hgone
                · exact absurd hk (hsound.apart i j t u hi hj (Ne.symm hne) _ hmem)
              · intro j u hj v hv k x y hx hy
                obtain ⟨hj, hne⟩ := find?_kill hj
                rcases hcommit k with hsame | hgone | ⟨_, hmem⟩
                · exact h.agree j u hj v hv k x y hx (hsame ▸ hy)
                · rw [hgone] at hy
                  cases hy
                · exact absurd hmem ((h.old j u hj v hv k (by simp [hx])).2 i t hi)
          | throw e =>
              dsimp only
              split
              · exact h.goOn hD hsound hi (by simp) (by simp)
              · exact h.kill i
          | stmt l c k =>
              dsimp only
              split
              · refine h.goOn hD hsound hi (fun n hn => ?_) fun v hv => ?_
                · simpa using hn
                · simpa using hv
              · exact h
          | fresh k =>
              refine h.insert (Nat.le_succ _) (fun k' hk => ?_) ?_ ?_ fun k' hk => ?_
              · rw [Draft.holds_draw, List.mem_cons] at hk
                rcases hk with hk | hk
                · exact hD.unused _ _ k' hsound.unused (Nat.le_of_eq (Hold.key.inj hk).symm)
                · exact h.fresh i t hi k' hk
              · intro j u hj v hv k' hk' hmem
                rw [Draft.holds_draw, List.mem_cons] at hmem
                have hold := h.old j u hj v hv k' hk'
                rcases hmem with hmem | hmem
                · exact absurd hold.1 (Nat.not_lt.mpr (Nat.le_of_eq (Hold.key.inj hmem).symm))
                · exact hold.2 i t hi hmem
              · exact fun v hv => .inr ⟨i, t, hi, hv⟩
              · exact Nat.lt_succ_of_lt (hstore k' hk)

end Database

end Remember

end Wbme.Lib
