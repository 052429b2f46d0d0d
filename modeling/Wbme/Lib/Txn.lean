import Mathlib.Control.Basic

/-! # Transactions

A transaction is a tree of statements over a store. A statement reads the view
the transaction has at that moment, names the locks it takes, and contributes a
change of the store; a fresh key comes from a sequence outside the store. The
same tree is executed atomically by `run` and, statement by statement, by the
interleaving machine. `wp` is the weakest precondition of the atomic execution,
with one postcondition for results and one for errors.
-/

namespace Wbme.Lib

section Results

variable {α β ε : Type}

/-- Every result of a list is that of one of its elements. -/
theorem mem_mapM {f : α → Except ε β} {xs : List α} {ys : List β} (h : xs.mapM f = .ok ys)
    {y : β} (hy : y ∈ ys) : ∃ x ∈ xs, f x = .ok y := by
  induction xs generalizing ys with
  | nil =>
      cases h
      cases hy
  | cons x xs ih =>
      rw [List.mapM_cons] at h
      cases hx : f x with
      | error e => rw [hx] at h; cases h
      | ok z =>
          cases hxs : xs.mapM f with
          | error e => rw [hx, hxs] at h; cases h
          | ok zs =>
              rw [hx, hxs] at h
              cases h
              rcases List.mem_cons.mp hy with rfl | hy
              · exact ⟨x, List.mem_cons_self, hx⟩
              · obtain ⟨x', hx', hfx'⟩ := ih hxs hy
                exact ⟨x', List.mem_cons_of_mem _ hx', hfx'⟩

/-- What every step keeps, a run over a list keeps. -/
theorem foldlM_keeps {f : β → α → Except ε β} {P : β → Prop}
    (hf : ∀ b x b', P b → f b x = .ok b' → P b') {xs : List α} {b b' : β} (hb : P b)
    (h : xs.foldlM f b = .ok b') : P b' := by
  induction xs generalizing b with
  | nil =>
      cases h
      exact hb
  | cons x xs ih =>
      rw [List.foldlM_cons] at h
      cases hx : f b x with
      | error e => rw [hx] at h; cases h
      | ok c =>
          rw [hx] at h
          exact ih (hf b x c hb hx) h

end Results

/-- Transactions over stores `σ` with locks `ρ`, errors `ε` and results `α`. -/
inductive Txn (σ ρ ε α : Type) : Type where
  | pure (a : α)
  | throw (e : ε)
  | stmt (locks : σ → List ρ) (change : σ → σ → σ) (next : σ → Txn σ ρ ε α)
  | fresh (next : Nat → Txn σ ρ ε α)

namespace Txn

variable {σ ρ ε α β γ : Type}

/-- Run one transaction after another, as one transaction. -/
def bind : Txn σ ρ ε α → (α → Txn σ ρ ε β) → Txn σ ρ ε β
  | .pure a, f => f a
  | .throw e, _ => .throw e
  | .stmt l c k, f => .stmt l c (fun v => (k v).bind f)
  | .fresh k, f => .fresh (fun n => (k n).bind f)

instance : Monad (Txn σ ρ ε) where
  pure := .pure
  bind := bind

@[simp] theorem pure_bind' (a : α) (f : α → Txn σ ρ ε β) : (Txn.pure a >>= f) = f a := rfl

@[simp] theorem throw_bind (e : ε) (f : α → Txn σ ρ ε β) : (Txn.throw e >>= f) = .throw e := rfl

@[simp] theorem stmt_bind (l : σ → List ρ) (c : σ → σ → σ) (k : σ → Txn σ ρ ε α)
    (f : α → Txn σ ρ ε β) : (Txn.stmt l c k >>= f) = .stmt l c (fun v => k v >>= f) := rfl

@[simp] theorem fresh_bind (k : Nat → Txn σ ρ ε α) (f : α → Txn σ ρ ε β) :
    (Txn.fresh k >>= f) = .fresh (fun n => k n >>= f) := rfl

private theorem bind_pure' (p : Txn σ ρ ε α) : (p >>= Txn.pure) = p := by
  induction p with
  | pure a => rfl
  | throw e => rfl
  | stmt l c k ih => exact congrArg (Txn.stmt l c) (funext ih)
  | fresh k ih => exact congrArg Txn.fresh (funext ih)

private theorem bind_assoc' (p : Txn σ ρ ε α) (f : α → Txn σ ρ ε β) (g : β → Txn σ ρ ε γ) :
    (p >>= f) >>= g = p >>= fun a => f a >>= g := by
  induction p with
  | pure a => rfl
  | throw e => rfl
  | stmt l c k ih => exact congrArg (Txn.stmt l c) (funext ih)
  | fresh k ih => exact congrArg Txn.fresh (funext ih)

instance : LawfulMonad (Txn σ ρ ε) :=
  LawfulMonad.mk' _ bind_pure' (fun _ _ => rfl) bind_assoc'

/-! ## Statements -/

/-- One statement: it fails, or it yields a result and a change of the store. -/
def act (locks : σ → List ρ) (f : σ → Except ε (α × (σ → σ))) : Txn σ ρ ε α :=
  .stmt locks
    (fun v => match f v with
      | .ok r => r.2
      | .error _ => id)
    (fun v => match f v with
      | .ok r => .pure r.1
      | .error e => .throw e)

/-- A read without locks. -/
def query (f : σ → α) : Txn σ ρ ε α := act (fun _ => []) (fun v => .ok (f v, id))

/-- A read that locks what it reads. -/
def queryForUpdate (locks : σ → List ρ) (f : σ → α) : Txn σ ρ ε α :=
  act locks (fun v => .ok (f v, id))

/-- A write that cannot fail. -/
def exec (locks : σ → List ρ) (change : σ → σ → σ) : Txn σ ρ ε Unit :=
  act locks (fun v => .ok ((), change v))

/-- A key no one else gets. -/
def nextId : Txn σ ρ ε Nat := .fresh .pure

/-- Fail unless a condition holds. -/
def guard (c : Bool) (e : ε) : Txn σ ρ ε Unit := if c then .pure () else .throw e

/-- The value of an option, or failure. -/
def orThrow (o : Option α) (e : ε) : Txn σ ρ ε α :=
  match o with
  | some a => .pure a
  | none => .throw e

/-- Lift a check that does not touch the store. -/
def liftExcept (r : Except ε α) : Txn σ ρ ε α :=
  match r with
  | .ok a => .pure a
  | .error e => .throw e

/-- The first of the constraints that is violated. -/
def firstViolated (checks : List (Bool × ε)) : Option ε := (checks.find? (·.1)).map (·.2)

/-- Insert a row under a fresh key, unless it violates a constraint. -/
def create (locks : σ → List ρ) (checks : σ → List (Bool × ε)) (put : Nat → σ → σ) :
    Txn σ ρ ε Nat :=
  nextId.bind fun id => act locks fun v =>
    match firstViolated (checks v) with
    | some e => .error e
    | none => .ok (id, put id)

/-! ## Atomic execution -/

/-- Execute with nothing in between: the result, the sequence and the store, or the error. -/
def run : Txn σ ρ ε α → Nat → σ → Except ε (α × Nat × σ)
  | .pure a, n, s => .ok (a, n, s)
  | .throw e, _, _ => .error e
  | .stmt _ c k, n, s => (k s).run n (c s s)
  | .fresh k, n, s => (k n).run (n + 1) s

theorem run_bind (p : Txn σ ρ ε α) (f : α → Txn σ ρ ε β) (n : Nat) (s : σ) :
    (p >>= f).run n s =
      match p.run n s with
      | .ok (a, n', s') => (f a).run n' s'
      | .error e => .error e := by
  induction p generalizing n s with
  | pure a => rfl
  | throw e => rfl
  | stmt l c k ih => exact ih s n (c s s)
  | fresh k ih => exact ih n (n + 1) s

variable (o : Option α) (f : σ → α)

theorem run_query (n : Nat) (s : σ) : (query f : Txn σ ρ ε α).run n s = .ok (f s, n, s) := rfl

theorem run_guard (c : Bool) (e : ε) (n : Nat) (s : σ) :
    (guard c e : Txn σ ρ ε Unit).run n s = if c then .ok ((), n, s) else .error e := by
  cases c <;> rfl

theorem run_orThrow (e : ε) (n : Nat) (s : σ) :
    (orThrow o e : Txn σ ρ ε α).run n s = (o.elim (.error e) fun a => .ok (a, n, s)) := by
  cases o <;> rfl

/-- Weakest precondition of `run`: `Q` for results, `E` for errors. -/
def wp : Txn σ ρ ε α → (α → Nat → σ → Prop) → (ε → Prop) → Nat → σ → Prop
  | .pure a, Q, _, n, s => Q a n s
  | .throw e, _, E, _, _ => E e
  | .stmt _ c k, Q, E, n, s => (k s).wp Q E n (c s s)
  | .fresh k, Q, E, n, s => (k n).wp Q E (n + 1) s

variable {p : Txn σ ρ ε α} {l : σ → List ρ}

section WeakestPrecondition

variable {Q : α → Nat → σ → Prop} {E : ε → Prop} {n : Nat} {s : σ}

@[simp] theorem wp_pure (a : α) : (Pure.pure a : Txn σ ρ ε α).wp Q E n s ↔ Q a n s := Iff.rfl

@[simp] theorem wp_pure' (a : α) : (Txn.pure a : Txn σ ρ ε α).wp Q E n s ↔ Q a n s := Iff.rfl

@[simp] theorem wp_throw (e : ε) : (Txn.throw e : Txn σ ρ ε α).wp Q E n s ↔ E e := Iff.rfl

theorem wp_iff_run (p : Txn σ ρ ε α) : p.wp Q E n s ↔
    match p.run n s with
    | .ok (a, n', s') => Q a n' s'
    | .error e => E e := by
  induction p generalizing n s with
  | pure a => rfl
  | throw e => rfl
  | stmt l c k ih => exact ih s
  | fresh k ih => exact ih n

theorem wp_of_run_ok {a : α} {n' : Nat} {s' : σ} (hw : p.wp Q E n s)
    (hr : p.run n s = .ok (a, n', s')) : Q a n' s' := by
  rw [wp_iff_run, hr] at hw
  exact hw

theorem wp_of_run_error {e : ε} (hw : p.wp Q E n s) (hr : p.run n s = .error e) : E e := by
  rw [wp_iff_run, hr] at hw
  exact hw

/-- Without an error the execution returns. -/
theorem run_ok_of_wp {p : Txn σ ρ ε α} (hw : p.wp Q (fun _ => False) n s) :
    ∃ a n' s', p.run n s = .ok (a, n', s') ∧ Q a n' s' := by
  rw [wp_iff_run] at hw
  cases hr : p.run n s with
  | error e => simp [hr] at hw
  | ok r => exact ⟨r.1, r.2.1, r.2.2, rfl, by simpa [hr] using hw⟩

theorem wp_bind (p : Txn σ ρ ε β) (f : β → Txn σ ρ ε α) :
    (p >>= f).wp Q E n s ↔ p.wp (fun b n s => (f b).wp Q E n s) E n s := by
  induction p generalizing n s with
  | pure a => rfl
  | throw e => rfl
  | stmt l c k ih => exact ih s
  | fresh k ih => exact ih n

theorem wp_mono {p : Txn σ ρ ε α} {Q' : α → Nat → σ → Prop} (hw : p.wp Q E n s)
    (h : ∀ a n s, Q a n s → Q' a n s) : p.wp Q' E n s := by
  rw [wp_iff_run] at hw ⊢
  cases hr : p.run n s with
  | error e => simpa [hr] using hw
  | ok r => simpa [hr] using h _ _ _ (by simpa [hr] using hw)

@[simp] theorem wp_act (l : σ → List ρ) (f : σ → Except ε (α × (σ → σ))) :
    (act l f).wp Q E n s ↔
      match f s with
      | .ok r => Q r.1 n (r.2 s)
      | .error e => E e := by
  unfold act wp
  cases hf : f s <;> simp [hf]

@[simp] theorem wp_query : (query f : Txn σ ρ ε α).wp Q E n s ↔ Q (f s) n s := Iff.rfl

@[simp] theorem wp_queryForUpdate (l : σ → List ρ) (f : σ → α) :
    (queryForUpdate l f : Txn σ ρ ε α).wp Q E n s ↔ Q (f s) n s := Iff.rfl

@[simp] theorem wp_exec {Q : Unit → Nat → σ → Prop} (l : σ → List ρ) (c : σ → σ → σ) :
    (exec l c : Txn σ ρ ε Unit).wp Q E n s ↔ Q () n (c s s) := Iff.rfl

@[simp] theorem wp_nextId {Q : Nat → Nat → σ → Prop} :
    (nextId : Txn σ ρ ε Nat).wp Q E n s ↔ Q n (n + 1) s := Iff.rfl

theorem wp_guard {Q : Unit → Nat → σ → Prop} (c : Bool) (e : ε) :
    (guard c e : Txn σ ρ ε Unit).wp Q E n s ↔ (c = true → Q () n s) ∧ (c = false → E e) := by
  cases c <;> simp [guard]

theorem wp_orThrow (e : ε) :
    (orThrow o e : Txn σ ρ ε α).wp Q E n s ↔ (∀ a, o = some a → Q a n s) ∧ (o = none → E e) := by
  cases o <;> simp [orThrow]

/-- Every result satisfies `Q`; errors are allowed. -/
abbrev safe (p : Txn σ ρ ε α) (Q : α → Nat → σ → Prop) (n : Nat) (s : σ) : Prop :=
  p.wp Q (fun _ => True) n s

theorem safe_guard {Q : Unit → Nat → σ → Prop} {c : Bool} {e : ε} (h : c = true → Q () n s) :
    (guard c e : Txn σ ρ ε Unit).safe Q n s := (wp_guard c e).mpr ⟨h, fun _ => trivial⟩

theorem safe_orThrow {o : Option α} {e : ε} (h : ∀ a, o = some a → Q a n s) :
    (orThrow o e : Txn σ ρ ε α).safe Q n s := (wp_orThrow o e).mpr ⟨h, fun _ => trivial⟩

theorem safe_bind {p : Txn σ ρ ε β} {f : β → Txn σ ρ ε α} {R : β → Nat → σ → Prop}
    (hp : p.safe R n s) (hf : ∀ b n s, R b n s → (f b).safe Q n s) : (p >>= f).safe Q n s :=
  (wp_bind p f).mpr (wp_mono hp hf)

/-- An insert puts its row under the next key, when no constraint is violated. -/
theorem safe_create {Q : Nat → Nat → σ → Prop} {l : σ → List ρ} {checks : σ → List (Bool × ε)}
    {put : Nat → σ → σ} (h : firstViolated (checks s) = none → Q n (n + 1) (put n s)) :
    (create l checks put).safe Q n s := by
  show (nextId >>= _).wp _ _ n s
  rw [wp_bind, wp_nextId, wp_act]
  cases hv : firstViolated (checks s) with
  | some e => trivial
  | none => exact h hv

/-- An insert that violates no constraint succeeds. -/
theorem wp_create {Q : Nat → Nat → σ → Prop} {checks : σ → List (Bool × ε)} {put : Nat → σ → σ}
    (hchecks : firstViolated (checks s) = none) (h : Q n (n + 1) (put n s)) :
    (create l checks put).wp Q E n s := by
  show (nextId >>= _).wp _ _ n s
  rw [wp_bind, wp_nextId, wp_act, hchecks]
  exact h

/-- Two safe postconditions hold together. -/
theorem wp_and {p : Txn σ ρ ε α} {Q' : α → Nat → σ → Prop} (h : p.wp Q E n s)
    (h' : p.safe Q' n s) : p.wp (fun a n s => Q a n s ∧ Q' a n s) E n s := by
  rw [wp_iff_run] at h ⊢
  rw [safe, wp_iff_run] at h'
  cases hr : p.run n s with
  | error e => simpa [hr] using h
  | ok r => simpa [hr] using And.intro (by simpa [hr] using h) (by simpa [hr] using h')

/-! ### Loops -/

@[simp] theorem wp_forM_nil {f : β → Txn σ ρ ε PUnit} {Q : PUnit → Nat → σ → Prop} :
    (([] : List β).forM f).wp Q E n s ↔ Q () n s := Iff.rfl

theorem wp_forM_cons {x : β} {xs : List β} {f : β → Txn σ ρ ε PUnit}
    {Q : PUnit → Nat → σ → Prop} :
    ((x :: xs).forM f).wp Q E n s ↔
      (f x).wp (fun _ n s => (xs.forM f).wp Q E n s) E n s := wp_bind (f x) fun _ => xs.forM f

/-- A loop keeps an invariant indexed by what is still to be done. -/
theorem wp_forM {xs : List β} {f : β → Txn σ ρ ε PUnit} (I : List β → Nat → σ → Prop)
    (hstep : ∀ x rest n s, I (x :: rest) n s → (f x).wp (fun _ n s => I rest n s) E n s)
    (h : I xs n s) : (xs.forM f).wp (fun _ n s => I [] n s) E n s := by
  induction xs generalizing n s with
  | nil => exact h
  | cons x rest ih => exact wp_forM_cons.mpr (wp_mono (hstep x rest n s h) fun _ n s h => ih h)

/-- A loop that collects one result per element. -/
theorem wp_mapM {l : List β} {f : β → Txn σ ρ ε γ} (I : List β → List γ → Nat → σ → Prop)
    (hstep : ∀ x rest done n s, I (x :: rest) done n s →
      (f x).wp (fun c n s => I rest (done ++ [c]) n s) E n s)
    (h : I l [] n s) : (l.mapM f).wp (fun cs n s => I [] cs n s) E n s := by
  suffices hgen : ∀ done, I l done n s →
      (l.mapM f).wp (fun cs n s => I [] (done ++ cs) n s) E n s by simpa using hgen [] h
  clear h
  induction l generalizing n s with
  | nil => intro done h; simpa using h
  | cons x rest ih =>
      intro done h
      rw [List.mapM_cons, wp_bind]
      refine wp_mono (hstep x rest done n s h) (fun c n s h => ?_)
      rw [wp_bind]
      refine wp_mono (ih (done ++ [c]) h) (fun cs n s h => ?_)
      simpa using h

end WeakestPrecondition

/-! ## Reading transactions -/

/-- The transaction takes no key and leaves the store alone. -/
def ReadOnly (p : Txn σ ρ ε α) : Prop := ∀ n s, p.safe (fun _ n' s' => n' = n ∧ s' = s) n s

theorem ReadOnly.safe (h : p.ReadOnly) {Q : α → Nat → σ → Prop} {n : Nat} {s : σ}
    (hq : ∀ a, Q a n s) : p.safe Q n s :=
  wp_mono (h n s) fun a n' s' hs => by
    obtain ⟨rfl, rfl⟩ := hs
    exact hq a

/-- A reading transaction answers or fails, and changes nothing. -/
theorem ReadOnly.run {p : Txn σ ρ ε α} (h : p.ReadOnly) (n : Nat) (s : σ) :
    (∃ a, p.run n s = .ok (a, n, s)) ∨ ∃ e, p.run n s = .error e := by
  cases hrun : p.run n s with
  | error e => exact .inr ⟨e, rfl⟩
  | ok r =>
      obtain ⟨a, n', s'⟩ := r
      obtain ⟨rfl, rfl⟩ := wp_of_run_ok (h n s) hrun
      exact .inl ⟨a, rfl⟩

theorem readOnly_pure (a : α) : (Pure.pure a : Txn σ ρ ε α).ReadOnly := fun _ _ => ⟨rfl, rfl⟩

theorem readOnly_throw (e : ε) : (Txn.throw e : Txn σ ρ ε α).ReadOnly := fun _ _ => trivial

theorem ReadOnly.bind {f : α → Txn σ ρ ε β} (hp : p.ReadOnly) (hf : ∀ a, (f a).ReadOnly) :
    (p >>= f).ReadOnly := fun n s =>
  (wp_bind p f).mpr (hp.safe fun a => hf a n s)

theorem readOnly_guard (c : Bool) (e : ε) : (guard c e : Txn σ ρ ε Unit).ReadOnly :=
  fun _ _ => safe_guard fun _ => ⟨rfl, rfl⟩

theorem readOnly_orThrow (e : ε) : (orThrow o e : Txn σ ρ ε α).ReadOnly :=
  fun _ _ => safe_orThrow fun _ _ => ⟨rfl, rfl⟩

theorem readOnly_query : (query f : Txn σ ρ ε α).ReadOnly := fun _ _ => ⟨rfl, rfl⟩

theorem readOnly_queryForUpdate (l : σ → List ρ) (f : σ → α) :
    (queryForUpdate l f : Txn σ ρ ε α).ReadOnly := fun _ _ => ⟨rfl, rfl⟩

theorem readOnly_forM {xs : List β} {f : β → Txn σ ρ ε PUnit} (hf : ∀ x, (f x).ReadOnly) :
    (xs.forM f).ReadOnly := by
  induction xs with
  | nil => exact fun _ _ => ⟨rfl, rfl⟩
  | cons x xs ih => exact (hf x).bind fun _ => ih

theorem readOnly_mapM {xs : List β} {f : β → Txn σ ρ ε γ} (hf : ∀ x, (f x).ReadOnly) :
    (xs.mapM f).ReadOnly := by
  induction xs with
  | nil => exact fun _ _ => ⟨rfl, rfl⟩
  | cons x xs ih =>
      rw [List.mapM_cons]
      exact (hf x).bind fun c => ih.bind fun cs => readOnly_pure _

/-! ## What a transaction keeps -/

/-- The transaction keeps an invariant of the sequence and the store. -/
def Preserves (I : Nat → σ → Prop) (p : Txn σ ρ ε α) : Prop :=
  ∀ n s, I n s → p.safe (fun _ => I) n s

section Preserves

variable {I : Nat → σ → Prop}

theorem ReadOnly.preserves (h : p.ReadOnly) : p.Preserves I :=
  fun n s hi => wp_mono (h n s) fun a n' s' hs => by
    obtain ⟨rfl, rfl⟩ := hs
    exact hi

theorem preserves_pure (a : α) : (Pure.pure a : Txn σ ρ ε α).Preserves I := fun _ _ hi => hi

theorem preserves_throw (e : ε) : (Txn.throw e : Txn σ ρ ε α).Preserves I :=
  fun _ _ _ => trivial

theorem preserves_query : (query f : Txn σ ρ ε α).Preserves I := fun _ _ hi => hi

theorem preserves_queryForUpdate (l : σ → List ρ) (f : σ → α) :
    (queryForUpdate l f : Txn σ ρ ε α).Preserves I := fun _ _ hi => hi

theorem preserves_guard (c : Bool) (e : ε) : (guard c e : Txn σ ρ ε Unit).Preserves I :=
  (readOnly_guard c e).preserves

theorem preserves_orThrow (e : ε) : (orThrow o e : Txn σ ρ ε α).Preserves I :=
  (readOnly_orThrow o e).preserves

theorem readOnly_liftExcept (r : Except ε α) : (liftExcept r : Txn σ ρ ε α).ReadOnly := by
  cases r with
  | ok a => exact readOnly_pure a
  | error e => exact readOnly_throw e

theorem preserves_liftExcept (r : Except ε α) : (liftExcept r : Txn σ ρ ε α).Preserves I :=
  (readOnly_liftExcept r).preserves

theorem Preserves.bind {f : α → Txn σ ρ ε β} (hp : p.Preserves I) (hf : ∀ a, (f a).Preserves I) :
    (p >>= f).Preserves I := fun n s hi =>
  (wp_bind p f).mpr (wp_mono (hp n s hi) fun a n' s' hi => hf a n' s' hi)

theorem preserves_forM {xs : List β} {f : β → Txn σ ρ ε PUnit} (hf : ∀ x, (f x).Preserves I) :
    (xs.forM f).Preserves I := by
  induction xs with
  | nil => exact fun _ _ hi => hi
  | cons x xs ih => exact (hf x).bind fun _ => ih

/-- A statement keeps an invariant when its change does. -/
theorem preserves_act {l : σ → List ρ} {f : σ → Except ε (α × (σ → σ))}
    (h : ∀ n s a c, f s = .ok (a, c) → I n s → I n (c s)) : (act l f).Preserves I := by
  intro n s hi
  rw [safe, wp_act]
  cases hf : f s with
  | error e => trivial
  | ok r => exact h n s r.1 r.2 hf hi

theorem preserves_exec {c : σ → σ → σ} (h : ∀ n s, I n s → I n (c s s)) :
    (exec l c : Txn σ ρ ε Unit).Preserves I := fun n s hi => h n s hi

/-- An insert keeps an invariant when putting a row under the next key does. -/
theorem preserves_create {checks : σ → List (Bool × ε)} {put : Nat → σ → σ}
    (h : ∀ n s, firstViolated (checks s) = none → I n s → I (n + 1) (put n s)) :
    (create l checks put).Preserves I := fun n s hi => safe_create fun hv => h n s hv hi

end Preserves

end Txn

/-! ## Calls -/

/-- A call: one transaction, and what is tried in a new one when it fails. -/
structure Call (σ ρ ε α : Type) where
  main : Txn σ ρ ε α
  recover : ε → Option (Txn σ ρ ε α)

namespace Call

variable {σ ρ ε α : Type}

/-- A transaction whose failure is final. -/
def single (p : Txn σ ρ ε α) : Call σ ρ ε α := ⟨p, fun _ => none⟩

/-- Execute a call with nothing in between; a failed transaction leaves the store alone. -/
def exec (c : Call σ ρ ε α) (n : Nat) (s : σ) : Except ε (α × Nat × σ) :=
  match c.main.run n s with
  | .ok r => .ok r
  | .error e =>
      match c.recover e with
      | some p => p.run n s
      | none => .error e

/-- A call whose recovery only reads succeeds by its main transaction or changes nothing. -/
theorem exec_ok_cases {c : Call σ ρ ε α} (hrecover : ∀ e p, c.recover e = some p → p.ReadOnly)
    {n n' : Nat} {s s' : σ} {a : α} (h : c.exec n s = .ok (a, n', s')) :
    c.main.run n s = .ok (a, n', s') ∨ (n' = n ∧ s' = s) := by
  unfold exec at h
  cases hmain : c.main.run n s with
  | ok r =>
      simp only [hmain] at h
      exact Or.inl h
  | error e =>
      simp only [hmain] at h
      cases hp : c.recover e with
      | none => simp [hp] at h
      | some p =>
          simp only [hp] at h
          right
          exact Txn.wp_of_run_ok (hrecover e p hp n s) h

end Call

end Wbme.Lib
