import Wbme.Lib.Table
import Wbme.Lib.Txn

/-!
# Interleaved transactions

Sessions execute their transactions a statement at a time over one committed store. A
statement sees what is committed at that moment, under the changes its own transaction has
made so far, and waits while another session holds a lock it needs; locks and drawn keys are
held to the end. A transaction that ends well commits its changes at once, one that fails
leaves nothing behind.

What a transaction may rely on between two of its statements is that others commit only
what they are allowed to, without touching what it holds. `Txn.amid` is the weakest
precondition under such an environment.
-/

namespace Wbme.Lib

/-! ## Drafts -/

/-- What a transaction keeps from the others until it ends. -/
inductive Hold (ρ : Type) where
  | lock (r : ρ)
  | key (n : Nat)
deriving DecidableEq

/-- A transaction under way: the changes it would commit, what it holds, and the committed
stores its statements met. -/
structure Draft (σ ρ : Type) where
  change : σ → σ
  holds : List (Hold ρ)
  seen : List σ

namespace Draft

variable {σ ρ : Type}

def empty : Draft σ ρ := ⟨id, [], []⟩

/-- After a statement. -/
def execute (d : Draft σ ρ) (s : σ) (locks : List ρ) (c : σ → σ) : Draft σ ρ :=
  ⟨fun s' => c (d.change s'), d.holds ++ locks.map .lock, d.seen ++ [s]⟩

/-- After a key was drawn. -/
def draw (d : Draft σ ρ) (n : Nat) : Draft σ ρ := { d with holds := .key n :: d.holds }

/-- Nothing is changed so far. -/
def Idle (d : Draft σ ρ) : Prop := ∀ s, d.change s = s

theorem idle_empty : (empty : Draft σ ρ).Idle := fun _ => rfl

theorem Idle.execute {d : Draft σ ρ} (h : d.Idle) (s : σ) (locks : List ρ) :
    (d.execute s locks id).Idle := h

@[simp] theorem change_empty (s : σ) : (empty : Draft σ ρ).change s = s := rfl

@[simp] theorem holds_empty : (empty : Draft σ ρ).holds = [] := rfl

@[simp] theorem seen_empty : (empty : Draft σ ρ).seen = [] := rfl

variable (d : Draft σ ρ)

@[simp] theorem change_execute (s : σ) (locks : List ρ) (c : σ → σ) (s' : σ) :
    (d.execute s locks c).change s' = c (d.change s') := rfl

@[simp] theorem holds_execute (s : σ) (locks : List ρ) (c : σ → σ) :
    (d.execute s locks c).holds = d.holds ++ locks.map .lock := rfl

@[simp] theorem seen_execute (s : σ) (locks : List ρ) (c : σ → σ) :
    (d.execute s locks c).seen = d.seen ++ [s] := rfl

@[simp] theorem change_draw (n : Nat) : (d.draw n).change = d.change := rfl

@[simp] theorem holds_draw (n : Nat) : (d.draw n).holds = .key n :: d.holds := rfl

@[simp] theorem seen_draw (n : Nat) : (d.draw n).seen = d.seen := rfl

end Draft

namespace Txn

variable {σ ρ ε α β γ : Type}

/-- Every result satisfies `Q`, when the committed store moves by `R` between statements and
only unused keys are drawn. -/
def amid (R : List (Hold ρ) → σ → σ → Prop) (unused : Nat → σ → Prop) :
    Txn σ ρ ε α → (α → Draft σ ρ → σ → Prop) → Draft σ ρ → σ → Prop
  | .pure a, Q, d, s => Q a d s
  | .throw _, _, _, _ => True
  | .stmt l c k, Q, d, s => ∀ s', R d.holds s s' →
      (k (d.change s')).amid R unused Q (d.execute s' (l (d.change s')) (c (d.change s'))) s'
  | .fresh k, Q, d, s => ∀ s', R d.holds s s' → ∀ n, unused n s' → .key n ∉ d.holds →
      (k n).amid R unused Q (d.draw n) s'

variable (l : σ → List ρ)

section Amid

variable {R : List (Hold ρ) → σ → σ → Prop} {unused : Nat → σ → Prop}
  {Q : α → Draft σ ρ → σ → Prop} {d : Draft σ ρ} {s : σ}

@[simp] theorem amid_pure (a : α) :
    (Pure.pure a : Txn σ ρ ε α).amid R unused Q d s ↔ Q a d s := Iff.rfl

@[simp] theorem amid_pure' (a : α) :
    (Txn.pure a : Txn σ ρ ε α).amid R unused Q d s ↔ Q a d s := Iff.rfl

@[simp] theorem amid_throw (e : ε) :
    (Txn.throw e : Txn σ ρ ε α).amid R unused Q d s ↔ True := Iff.rfl

theorem amid_bind (p : Txn σ ρ ε β) (f : β → Txn σ ρ ε α) :
    (p >>= f).amid R unused Q d s ↔
      p.amid R unused (fun b d s => (f b).amid R unused Q d s) d s := by
  induction p generalizing d s with
  | pure a => rfl
  | throw e => rfl
  | stmt l c k ih => exact forall_congr' fun s' => forall_congr' fun _ => ih _
  | fresh k ih =>
      exact forall_congr' fun s' => forall_congr' fun _ => forall_congr' fun n =>
        forall_congr' fun _ => forall_congr' fun _ => ih n

theorem amid_mono {p : Txn σ ρ ε α} {Q' : α → Draft σ ρ → σ → Prop}
    (h : p.amid R unused Q d s) (hq : ∀ a d s, Q a d s → Q' a d s) :
    p.amid R unused Q' d s := by
  induction p generalizing d s with
  | pure a => exact hq a d s h
  | throw e => trivial
  | stmt l c k ih => exact fun s' hs => ih _ (h s' hs)
  | fresh k ih => exact fun s' hs n hn hd => ih n (h s' hs n hn hd)

variable {f : β → Txn σ ρ ε α}

/-- One transaction after another. -/
theorem amid_seq {p : Txn σ ρ ε β} {M : β → Draft σ ρ → σ → Prop} (hp : p.amid R unused M d s)
    (hf : ∀ b d s, M b d s → (f b).amid R unused Q d s) : (p >>= f).amid R unused Q d s := (amid_bind p f).mpr (amid_mono hp hf)

/-- What holds amid others still holds after they moved. -/
theorem amid_later {p : Txn σ ρ ε α}
    (htrans : ∀ H s s' s'', R H s s' → R H s' s'' → R H s s'')
    (hq : ∀ a d s s', Q a d s → R d.holds s s' → Q a d s') {s' : σ}
    (h : p.amid R unused Q d s) (hs : R d.holds s s') : p.amid R unused Q d s' := by
  cases p with
  | pure a => exact hq a d s s' h hs
  | throw e => trivial
  | stmt l c k => exact fun s'' hs' => h s'' (htrans _ _ _ _ hs hs')
  | fresh k => exact fun s'' hs' => h s'' (htrans _ _ _ _ hs hs')

@[simp] theorem amid_act (l : σ → List ρ) (f : σ → Except ε (α × (σ → σ))) :
    (act l f).amid R unused Q d s ↔ ∀ s', R d.holds s s' →
      ∀ a c, f (d.change s') = .ok (a, c) → Q a (d.execute s' (l (d.change s')) c) s' := by
  refine forall_congr' fun s' => forall_congr' fun _ => ?_
  cases hf : f (d.change s') with
  | error e => simp [hf]
  | ok r =>
      obtain ⟨a, c⟩ := r
      simp [hf]

@[simp] theorem amid_query (f : σ → α) :
    (query f : Txn σ ρ ε α).amid R unused Q d s ↔ ∀ s', R d.holds s s' →
      Q (f (d.change s')) (d.execute s' [] id) s' := Iff.rfl

@[simp] theorem amid_queryForUpdate (f : σ → α) :
    (queryForUpdate l f : Txn σ ρ ε α).amid R unused Q d s ↔ ∀ s', R d.holds s s' →
      Q (f (d.change s')) (d.execute s' (l (d.change s')) id) s' := Iff.rfl

@[simp] theorem amid_exec {Q : Unit → Draft σ ρ → σ → Prop} (c : σ → σ → σ) :
    (exec l c : Txn σ ρ ε Unit).amid R unused Q d s ↔ ∀ s', R d.holds s s' →
      Q () (d.execute s' (l (d.change s')) (c (d.change s'))) s' := Iff.rfl

theorem amid_guard {Q : Unit → Draft σ ρ → σ → Prop} {c : Bool} {e : ε}
    (h : c = true → Q () d s) : (guard c e : Txn σ ρ ε Unit).amid R unused Q d s := by
  cases c
  · trivial
  · exact h rfl

theorem amid_orThrow {o : Option α} {e : ε} (h : ∀ a, o = some a → Q a d s) :
    (orThrow o e : Txn σ ρ ε α).amid R unused Q d s := by
  cases o with
  | none => trivial
  | some a => exact h a rfl

theorem amid_liftExcept {r : Except ε α} (h : ∀ a, r = .ok a → Q a d s) :
    (liftExcept r : Txn σ ρ ε α).amid R unused Q d s := by
  cases r with
  | error e => trivial
  | ok a => exact h a rfl

theorem amid_guard_bind {c : Bool} {e : ε} {f : Unit → Txn σ ρ ε α}
    (h : c = true → (f ()).amid R unused Q d s) : (guard c e >>= f).amid R unused Q d s :=
  (amid_bind _ f).mpr (amid_guard h)

theorem amid_orThrow_bind {o : Option β} {e : ε} (h : ∀ b, o = some b → (f b).amid R unused Q d s) :
    (orThrow o e >>= f).amid R unused Q d s := (amid_bind _ f).mpr (amid_orThrow h)

theorem amid_liftExcept_bind {r : Except ε β} (h : ∀ b, r = .ok b → (f b).amid R unused Q d s) :
    (liftExcept r >>= f).amid R unused Q d s := (amid_bind _ f).mpr (amid_liftExcept h)

theorem amid_query_bind {f : σ → β} {g : β → Txn σ ρ ε α}
    (h : ∀ s', R d.holds s s' →
      (g (f (d.change s'))).amid R unused Q (d.execute s' [] id) s') :
    (query f >>= g).amid R unused Q d s := (amid_bind _ g).mpr ((amid_query f).mpr h)

theorem amid_create {Q : Nat → Draft σ ρ → σ → Prop} {l : σ → List ρ}
    {checks : σ → List (Bool × ε)} {put : Nat → σ → σ}
    (h : ∀ s' n s'', R d.holds s s' → unused n s' → .key n ∉ d.holds →
      R (.key n :: d.holds) s' s'' → firstViolated (checks (d.change s'')) = none →
      Q n ((d.draw n).execute s'' (l (d.change s'')) (put n)) s'') :
    (create l checks put : Txn σ ρ ε Nat).amid R unused Q d s := by
  intro s' hs n hn hd
  refine (amid_act _ _).mpr fun s'' hs' a c hf => ?_
  rw [Draft.change_draw] at hf ⊢
  cases hv : firstViolated (checks (d.change s'')) with
  | some e => simp [hv] at hf
  | none =>
      simp only [hv, Except.ok.injEq, Prod.mk.injEq] at hf
      obtain ⟨rfl, rfl⟩ := hf
      exact h s' n s'' hs hn hd hs' hv

theorem amid_forM {xs : List β} {f : β → Txn σ ρ ε PUnit}
    (I : List β → Draft σ ρ → σ → Prop)
    (hstep : ∀ x rest d s, I (x :: rest) d s →
      (f x).amid R unused (fun _ d s => I rest d s) d s)
    (h : I xs d s) : (xs.forM f).amid R unused (fun _ d s => I [] d s) d s := by
  induction xs generalizing d s with
  | nil => exact h
  | cons x rest ih =>
      exact (amid_bind (f x) fun _ => rest.forM f).mpr
        (amid_mono (hstep x rest d s h) fun _ d s h => ih h)

theorem amid_foldlM {xs : List β} {f : γ → β → Txn σ ρ ε γ} {c : γ}
    (I : List β → γ → Draft σ ρ → σ → Prop)
    (hstep : ∀ x rest c d s, I (x :: rest) c d s →
      (f c x).amid R unused (fun c d s => I rest c d s) d s)
    (h : I xs c d s) : (xs.foldlM f c).amid R unused (fun c d s => I [] c d s) d s := by
  induction xs generalizing c d s with
  | nil => exact h
  | cons x rest ih =>
      rw [List.foldlM_cons, amid_bind]
      exact amid_mono (hstep x rest c d s h) fun c d s h => ih h

end Amid

/-! ### Going on -/

/-- The moves between statements compose, and a transaction that holds more relies on more. -/
structure IsRely (R : List (Hold ρ) → σ → σ → Prop) : Prop where
  trans : ∀ H s s' s'', R H s s' → R H s' s'' → R H s s''
  mono : ∀ H H' s s', H ⊆ H' → R H' s s' → R H s s'
  refl : ∀ H H' s s', R H s s' → R H' s' s'

/-- A transaction has gone on from one draft and store to another. -/
structure Later (R : List (Hold ρ) → σ → σ → Prop) (d : Draft σ ρ) (s : σ) (d' : Draft σ ρ)
    (s' : σ) : Prop where
  moved : R d.holds s s'
  holds : d.holds ⊆ d'.holds
  seen : d.seen <+: d'.seen

section Later

variable {R : List (Hold ρ) → σ → σ → Prop} {unused : Nat → σ → Prop}
  {d d' d'' : Draft σ ρ} {s s' s'' : σ}

theorem Later.refl (hs : R d.holds s s) : Later R d s d s :=
  ⟨hs, List.Subset.refl _, List.prefix_rfl⟩

theorem Later.wait (hs : R d.holds s s') : Later R d s d s' :=
  ⟨hs, List.Subset.refl _, List.prefix_rfl⟩

theorem Later.trans (hR : IsRely R) (h : Later R d s d' s') (h' : Later R d' s' d'' s'') :
    Later R d s d'' s'' :=
  ⟨hR.trans _ _ _ _ h.moved (hR.mono _ _ _ _ h.holds h'.moved), fun _ hx => h'.holds (h.holds hx),
    h.seen.trans h'.seen⟩

theorem Later.execute (hs : R d.holds s s') (locks : List ρ) (c : σ → σ) :
    Later R d s (d.execute s' locks c) s' :=
  ⟨hs, fun _ hx => List.mem_append_left _ hx, List.prefix_append _ _⟩

theorem Later.draw (hs : R d.holds s s') (n : Nat) : Later R d s (d.draw n) s' :=
  ⟨hs, fun _ hx => List.mem_cons_of_mem _ hx, List.prefix_rfl⟩

/-- Whatever a transaction comes to, it went on to it. -/
theorem amid_and_later (hR : IsRely R) {p : Txn σ ρ ε α} {Q : α → Draft σ ρ → σ → Prop}
    (hs : R d.holds s s) (h : p.amid R unused Q d s) :
    p.amid R unused (fun a d' s' => Q a d' s' ∧ Later R d s d' s') d s := by
  suffices hgen : ∀ d₁ s₁, Later R d s d₁ s₁ → p.amid R unused Q d₁ s₁ →
      p.amid R unused (fun a d' s' => Q a d' s' ∧ Later R d s d' s') d₁ s₁ from
    hgen d s (Later.refl hs) h
  clear h
  induction p with
  | pure a => exact fun d₁ s₁ hl h => ⟨h, hl⟩
  | throw e => exact fun _ _ _ _ => trivial
  | stmt l c k ih =>
      exact fun d₁ s₁ hl h s₂ hs₂ => ih _ _ _ (hl.trans hR (.execute hs₂ _ _)) (h s₂ hs₂)
  | fresh k ih =>
      exact fun d₁ s₁ hl h s₂ hs₂ n hn hd =>
        ih n _ _ (hl.trans hR (.draw hs₂ n)) (h s₂ hs₂ n hn hd)

end Later

/-! ### What a transaction leaves alone -/

/-- No statement changes what `g` reads of the store. -/
def Leaves {τ : Type} (g : σ → τ) : Txn σ ρ ε α → Prop
  | .pure _ => True
  | .throw _ => True
  | .stmt _ c k => (∀ v s, g (c v s) = g s) ∧ ∀ v, (k v).Leaves g
  | .fresh k => ∀ n, (k n).Leaves g

/-- No statement changes anything. -/
abbrev Quiet (p : Txn σ ρ ε α) : Prop := p.Leaves fun s => s

section Leaves

variable {τ : Type} {g : σ → τ}

theorem leaves_pure (a : α) : (Pure.pure a : Txn σ ρ ε α).Leaves g := trivial

theorem leaves_throw (e : ε) : (Txn.throw e : Txn σ ρ ε α).Leaves g := trivial

theorem Leaves.bind {p : Txn σ ρ ε α} {f : α → Txn σ ρ ε β} (hp : p.Leaves g)
    (hf : ∀ a, (f a).Leaves g) : (p >>= f).Leaves g := by
  induction p with
  | pure a => exact hf a
  | throw e => trivial
  | stmt l c k ih => exact ⟨hp.1, fun v => ih v (hp.2 v)⟩
  | fresh k ih => exact fun n => ih n (hp n)

theorem leaves_act {l : σ → List ρ} {f : σ → Except ε (α × (σ → σ))}
    (h : ∀ v a c, f v = .ok (a, c) → ∀ s, g (c s) = g s) : (act l f).Leaves g := by
  refine ⟨fun v s => ?_, fun v => ?_⟩
  · dsimp only
    cases hf : f v with
    | error e => rfl
    | ok r => exact h v r.1 r.2 hf s
  · dsimp only
    cases f v <;> trivial

theorem leaves_query (f : σ → α) : (query f : Txn σ ρ ε α).Leaves g :=
  ⟨fun _ _ => rfl, fun _ => trivial⟩

theorem leaves_queryForUpdate (f : σ → α) : (queryForUpdate l f : Txn σ ρ ε α).Leaves g := ⟨fun _ _ => rfl, fun _ => trivial⟩

theorem leaves_exec {l : σ → List ρ} {c : σ → σ → σ} (h : ∀ v s, g (c v s) = g s) :
    (exec l c : Txn σ ρ ε Unit).Leaves g := ⟨h, fun _ => trivial⟩

theorem leaves_create {l : σ → List ρ} {checks : σ → List (Bool × ε)} {put : Nat → σ → σ}
    (h : ∀ n s, g (put n s) = g s) : (create l checks put : Txn σ ρ ε Nat).Leaves g := by
  refine fun n => leaves_act fun v a c hf s => ?_
  cases hv : firstViolated (checks v) with
  | some e => simp [hv] at hf
  | none =>
      simp only [hv, Except.ok.injEq, Prod.mk.injEq] at hf
      obtain ⟨-, rfl⟩ := hf
      exact h n s

theorem leaves_guard (c : Bool) (e : ε) : (guard c e : Txn σ ρ ε Unit).Leaves g := by
  cases c <;> trivial

theorem leaves_orThrow (o : Option α) (e : ε) : (orThrow o e : Txn σ ρ ε α).Leaves g := by
  cases o <;> trivial

theorem leaves_liftExcept (r : Except ε α) : (liftExcept r : Txn σ ρ ε α).Leaves g := by
  cases r <;> trivial

theorem leaves_forM {xs : List β} {f : β → Txn σ ρ ε PUnit} (h : ∀ x, (f x).Leaves g) :
    (xs.forM f).Leaves g := by
  induction xs with
  | nil => trivial
  | cons x rest ih => exact (h x).bind fun _ => ih

theorem leaves_foldlM {xs : List β} {f : γ → β → Txn σ ρ ε γ} (h : ∀ c x, (f c x).Leaves g)
    (c : γ) : (xs.foldlM f c).Leaves g := by
  induction xs generalizing c with
  | nil => trivial
  | cons x rest ih =>
      rw [List.foldlM_cons]
      exact (h c x).bind ih

/-- A draft changes no more of what `g` reads than before. -/
theorem Leaves.amid {R : List (Hold ρ) → σ → σ → Prop} {unused : Nat → σ → Prop}
    {p : Txn σ ρ ε α} (hp : p.Leaves g) {d : Draft σ ρ} {s : σ} :
    p.amid R unused (fun _ d' _ => ∀ t, g (d'.change t) = g (d.change t)) d s := by
  suffices hgen : ∀ d₁ s₁, (∀ t, g (d₁.change t) = g (d.change t)) →
      p.amid R unused (fun _ d' _ => ∀ t, g (d'.change t) = g (d.change t)) d₁ s₁ from
    hgen d s fun _ => rfl
  induction p with
  | pure a => exact fun d₁ s₁ h => h
  | throw e => exact fun _ _ _ => trivial
  | stmt l c k ih =>
      exact fun d₁ s₁ h s' _ => ih _ (hp.2 _) _ s' fun t => (hp.1 _ _).trans (h t)
  | fresh k ih => exact fun d₁ s₁ h s' _ n _ _ => ih n (hp n) _ s' h

end Leaves

end Txn

/-! ## The database -/

/-- A transaction of an activity under way; a failed call may be in its recovery. -/
structure Session (σ ρ ε α ι : Type) where
  activity : ι
  program : Txn σ ρ ε α
  draft : Draft σ ρ
  recovering : Bool

structure Database (σ ρ ε α ι : Type) where
  sequence : Nat
  store : σ
  sessions : Table (Session σ ρ ε α ι)

/-- A session begins its call, executes a statement or ends, or is killed. -/
inductive DatabaseEvent (ι : Type) where
  | start (i : Nat) (a : ι)
  | advance (i : Nat)
  | kill (i : Nat)

namespace Database

variable {σ ρ ε α ι : Type}

def init (n : Nat) (s : σ) : Database σ ρ ε α ι := ⟨n, s, .empty⟩

def start (c : Call σ ρ ε α) (i : Nat) (a : ι) (b : Database σ ρ ε α ι) :
    Database σ ρ ε α ι :=
  match b.sessions.find? i with
  | some _ => b
  | none => { b with sessions := b.sessions.insert i ⟨a, c.main, .empty, false⟩ }

def kill (i : Nat) (b : Database σ ρ ε α ι) : Database σ ρ ε α ι :=
  { b with sessions := b.sessions.deleteMany fun j _ => j == i }

variable [DecidableEq ρ]

/-- No session but one holds any of the locks. -/
def isFree (b : Database σ ρ ε α ι) (i : Nat) (locks : List ρ) : Bool :=
  (b.sessions.select fun j t =>
    j != i && locks.any fun r => t.draft.holds.contains (.lock r)).isEmpty

/-- What a session does next. -/
def advance (script : ι → Call σ ρ ε α) (i : Nat) (t : Session σ ρ ε α ι)
    (b : Database σ ρ ε α ι) : Database σ ρ ε α ι :=
  match t.program with
  | .pure _ => { b.kill i with store := t.draft.change b.store }
  | .throw e =>
      match if t.recovering then none else (script t.activity).recover e with
      | some p => { b with sessions := b.sessions.insert i ⟨t.activity, p, .empty, true⟩ }
      | none => b.kill i
  | .stmt l c k =>
      let v := t.draft.change b.store
      if b.isFree i (l v) then
        { b with
          sessions := b.sessions.insert i
            { t with program := k v, draft := t.draft.execute b.store (l v) (c v) } }
      else b
  | .fresh k =>
      { b with
        sequence := b.sequence + 1
        sessions := b.sessions.insert i
          { t with program := k b.sequence, draft := t.draft.draw b.sequence } }

def step (script : ι → Call σ ρ ε α) (b : Database σ ρ ε α ι) :
    DatabaseEvent ι → Database σ ρ ε α ι
  | .start i a => b.start (script a) i a
  | .kill i => b.kill i
  | .advance i =>
      match b.sessions.find? i with
      | none => b
      | some t => b.advance script i t

def run (script : ι → Call σ ρ ε α) (b : Database σ ρ ε α ι)
    (es : List (DatabaseEvent ι)) : Database σ ρ ε α ι := es.foldl (step script) b

variable (script : ι → Call σ ρ ε α)

@[simp] theorem run_nil (b : Database σ ρ ε α ι) : b.run script [] = b := rfl

@[simp] theorem run_cons (b : Database σ ρ ε α ι) (e : DatabaseEvent ι)
    (es : List (DatabaseEvent ι)) : b.run script (e :: es) = (b.step script e).run script es := rfl

theorem run_append (b : Database σ ρ ε α ι) (es fs : List (DatabaseEvent ι)) :
    b.run script (es ++ fs) = (b.run script es).run script fs := List.foldl_append

end Database

/-! ## Disciplines -/

/-- What the commits of a family of activities keep to, as a relation between the committed
stores before and after, and an invariant of the committed store that all of them keep. -/
structure Discipline (σ ρ α ι : Type) where
  invariant : σ → Prop
  /-- No row has a key from `n` on. -/
  unused : Nat → σ → Prop
  commits : ι → α → Draft σ ρ → σ → σ → Prop
  invariant_of_commits : ∀ a x d s s', commits a x d s s' → invariant s → invariant s'
  unused_of_le : ∀ n m s, unused n s → n ≤ m → unused m s
  unused_of_commits : ∀ a x d s s' n, commits a x d s s' → unused n s →
    (∀ m, Hold.key m ∈ d.holds → m < n) → unused n s'

namespace Discipline

variable {σ ρ ε α ι : Type} (D : Discipline σ ρ α ι)

/-- A commit of a session that holds nothing of `H`. -/
def Others (H : List (Hold ρ)) (s s' : σ) : Prop :=
  ∃ a x d, (∀ h ∈ d.holds, h ∉ H) ∧ D.commits a x d s s'

/-- What may be committed around a transaction that holds `H`. -/
def Rely (H : List (Hold ρ)) (s s' : σ) : Prop :=
  D.invariant s' ∧ Relation.ReflTransGen (D.Others H) s s'

variable {D}

theorem Rely.trans {H : List (Hold ρ)} {s s' s'' : σ} (h : D.Rely H s s')
    (h' : D.Rely H s' s'') : D.Rely H s s'' := ⟨h'.1, h.2.trans h'.2⟩

theorem Rely.refl {H : List (Hold ρ)} {s : σ} (h : D.invariant s) : D.Rely H s s := ⟨h, .refl⟩

theorem Others.mono {H H' : List (Hold ρ)} (hsub : H ⊆ H') {s s' : σ} (h : D.Others H' s s') :
    D.Others H s s' := by
  obtain ⟨a, x, d, hd, hc⟩ := h
  exact ⟨a, x, d, fun r hr hr' => hd r hr (hsub hr'), hc⟩

theorem Rely.mono {H H' : List (Hold ρ)} (hsub : H ⊆ H') {s s' : σ} (h : D.Rely H' s s') :
    D.Rely H s s' :=
  ⟨h.1, Relation.ReflTransGen.mono (p := D.Others H) (fun _ _ h => h.mono hsub) _ _ h.2⟩

/-- What every commit of the others keeps is kept around a transaction. -/
theorem Rely.induction {H : List (Hold ρ)} {P : σ → σ → Prop} (hrefl : ∀ s, P s s)
    (htrans : ∀ s s' s'', P s s' → P s' s'' → P s s'')
    (hstep : ∀ a x d s s', D.commits a x d s s' → (∀ h ∈ d.holds, h ∉ H) → P s s')
    {s s' : σ} (h : D.Rely H s s') : P s s' := by
  obtain ⟨-, h⟩ := h
  induction h with
  | refl => exact hrefl s
  | tail _ hlast ih =>
      obtain ⟨a, x, d, hd, hc⟩ := hlast
      exact htrans _ _ _ ih (hstep a x d _ _ hc hd)

theorem Rely.keeps {H : List (Hold ρ)} {P : σ → Prop} {s s' : σ} (h : D.Rely H s s')
    (hstep : ∀ a x d s s', D.commits a x d s s' → (∀ h ∈ d.holds, h ∉ H) → P s → P s')
    (hs : P s) : P s' :=
  h.induction (P := fun s s' => P s → P s') (fun _ => id) (fun _ _ _ h h' => h' ∘ h) hstep hs

variable (D)

/-- From here on a transaction of an activity commits only what the discipline allows. -/
def Allowed (a : ι) (p : Txn σ ρ ε α) (d : Draft σ ρ) (s : σ) : Prop :=
  p.amid D.Rely D.unused
    (fun x d s => ∀ s', D.Rely d.holds s s' → D.commits a x d s' (d.change s')) d s

/-- Every activity keeps to the discipline. -/
def Kept (script : ι → Call σ ρ ε α) : Prop :=
  ∀ a s, D.invariant s → D.Allowed a (script a).main .empty s ∧
    ∀ e p, (script a).recover e = some p → D.Allowed a p .empty s

variable {D}

theorem Allowed.later {a : ι} {p : Txn σ ρ ε α} {d : Draft σ ρ} {s s' : σ}
    (h : D.Allowed a p d s) (hs : D.Rely d.holds s s') : D.Allowed a p d s' :=
  Txn.amid_later (fun _ _ _ _ => Rely.trans) (fun _ _ _ _ hq hs s'' hs' => hq s'' (hs.trans hs')) h hs

theorem isRely : Txn.IsRely D.Rely where
  trans _ _ _ _ := Rely.trans
  mono _ _ _ _ hsub h := h.mono hsub
  refl _ _ _ _ h := Rely.refl h.1

/-- A transaction that only reads is allowed whatever may be committed without a change. -/
theorem allowed_of_quiet {a : ι} {p : Txn σ ρ ε α} (hp : p.Quiet) {d : Draft σ ρ} {s : σ}
    (hd : d.Idle) (h : ∀ x d s, d.Idle → D.commits a x d s s) : D.Allowed a p d s := by
  refine Txn.amid_mono hp.amid fun x d' s' hd' t _ => ?_
  have hidle : d'.Idle := fun t => (hd' t).trans (hd t)
  rw [hidle t]
  exact h x d' t hidle

end Discipline

namespace Database

variable {σ ρ ε α ι : Type} {D : Discipline σ ρ α ι} {b : Database σ ρ ε α ι}

/-- The sessions hold different things and keep to a discipline. -/
structure Sound (D : Discipline σ ρ α ι) (b : Database σ ρ ε α ι) : Prop where
  invariant : D.invariant b.store
  unused : D.unused b.sequence b.store
  keys : ∀ i t, b.sessions.find? i = some t → ∀ n, Hold.key n ∈ t.draft.holds → n < b.sequence
  apart : ∀ i j t u, b.sessions.find? i = some t → b.sessions.find? j = some u → i ≠ j →
    ∀ h ∈ t.draft.holds, h ∉ u.draft.holds
  allowed : ∀ i t, b.sessions.find? i = some t → D.Allowed t.activity t.program t.draft b.store

theorem sound_init {n : Nat} {s : σ} (h : D.invariant s) (hn : D.unused n s) :
    (init n s : Database σ ρ ε α ι).Sound D where
  invariant := h
  unused := hn
  keys i t hi := by simp [init] at hi
  apart i j t u hi := by simp [init] at hi
  allowed i t hi := by simp [init] at hi

theorem find?_kill {i j : Nat} {t : Session σ ρ ε α ι} (h : (b.kill i).sessions.find? j = some t) :
    b.sessions.find? j = some t ∧ j ≠ i := by
  rw [kill, Table.find?_deleteMany] at h
  cases hj : b.sessions.find? j with
  | none => simp [hj] at h
  | some u =>
      rw [hj] at h
      by_cases hij : j = i
      · simp [hij] at h
      · simpa [hij] using h

theorem Sound.kill (h : b.Sound D) (i : Nat) : (b.kill i).Sound D where
  invariant := h.invariant
  unused := h.unused
  keys j t hj := h.keys j t (find?_kill hj).1
  apart j k t u hj hk := h.apart j k t u (find?_kill hj).1 (find?_kill hk).1
  allowed j t hj := h.allowed j t (find?_kill hj).1

variable {t : Session σ ρ ε α ι} {i : Nat}

/-- One session is replaced by another that holds nothing the others hold. -/
theorem Sound.insert (h : b.Sound D) {n : Nat} (hn : b.sequence ≤ n)
    (hkeys : ∀ m, Hold.key m ∈ t.draft.holds → m < n)
    (hapart : ∀ j u, b.sessions.find? j = some u → j ≠ i →
      ∀ r ∈ t.draft.holds, r ∉ u.draft.holds)
    (hallowed : D.Allowed t.activity t.program t.draft b.store) :
    (⟨n, b.store, b.sessions.insert i t⟩ : Database σ ρ ε α ι).Sound D where
  invariant := h.invariant
  unused := D.unused_of_le _ _ _ h.unused hn
  keys j u hj := by
    rw [Table.find?_insert] at hj
    split at hj
    · cases hj
      exact hkeys
    · exact fun m hm => Nat.lt_of_lt_of_le (h.keys j u hj m hm) hn
  apart j k u v hj hk hne := by
    rw [Table.find?_insert] at hj hk
    split at hj <;> split at hk
    · omega
    · rename_i hji hki
      cases hj
      exact hapart k v hk hki
    · rename_i hji hki
      cases hk
      exact fun r hr hr' => hapart j u hj hji r hr' hr
    · exact h.apart j k u v hj hk hne
  allowed j u hj := by
    rw [Table.find?_insert] at hj
    split at hj
    · cases hj
      exact hallowed
    · exact h.allowed j u hj

theorem not_mem_of_isFree [DecidableEq ρ] {locks : List ρ} (h : b.isFree i locks = true) {j : Nat}
    {u : Session σ ρ ε α ι} (hj : b.sessions.find? j = some u) (hne : j ≠ i) :
    ∀ r ∈ locks, Hold.lock r ∉ u.draft.holds := by
  intro r hr hmem
  have hin : (j, u) ∈ b.sessions.select (fun j t =>
      j != i && locks.any fun r => t.draft.holds.contains (.lock r)) := by
    refine Table.mem_select.mpr ⟨hj, ?_⟩
    simp only [bne_iff_ne, ne_eq, hne, not_false_eq_true, Bool.and_eq_true, true_and,
      List.any_eq_true, List.contains_iff_mem]
    exact ⟨r, hr, hmem⟩
  rw [isFree, List.isEmpty_iff] at h
  rw [h] at hin
  cases hin

/-- What a commit does. -/
theorem Sound.commit (h : b.Sound D) {x : α} (hi : b.sessions.find? i = some t)
    (hx : t.program = .pure x) :
    D.commits t.activity x t.draft b.store (t.draft.change b.store) := by
  have hallowed := h.allowed i t hi
  rw [hx] at hallowed
  exact hallowed b.store (Discipline.Rely.refl h.invariant)

theorem Sound.commit_sound (h : b.Sound D) {x : α} (hi : b.sessions.find? i = some t)
    (hx : t.program = .pure x) :
    ({ b.kill i with store := t.draft.change b.store } : Database σ ρ ε α ι).Sound D := by
  have hcommit := h.commit hi hx
  have hinv := D.invariant_of_commits _ _ _ _ _ hcommit h.invariant
  refine ⟨hinv, D.unused_of_commits _ _ _ _ _ _ hcommit h.unused (h.keys i t hi),
    (h.kill i).keys, (h.kill i).apart, ?_⟩
  intro j u hj
  obtain ⟨hj, hne⟩ := find?_kill hj
  refine (h.allowed j u hj).later ⟨hinv, .single ⟨t.activity, x, t.draft, ?_, hcommit⟩⟩
  exact h.apart i j t u hi hj (Ne.symm hne)

variable [DecidableEq ρ]

/-- A statement without locks never waits. -/
theorem isFree_nil (b : Database σ ρ ε α ι) (i : Nat) : b.isFree i [] = true := by
  rw [isFree, List.isEmpty_iff, List.eq_nil_iff_forall_not_mem]
  intro p hp
  simp [Table.mem_select] at hp

omit [DecidableEq ρ] in
theorem find?_kill_ne {i j : Nat} (hne : j ≠ i) :
    (b.kill i).sessions.find? j = b.sessions.find? j := by
  rw [kill, Table.find?_deleteMany]
  cases b.sessions.find? j <;> simp [hne]

/-- What a session does next is no matter of the sessions beside it. -/
theorem find?_advance_ne (script : ι → Call σ ρ ε α) {i j : Nat} (t : Session σ ρ ε α ι)
    (hne : j ≠ i) : (b.advance script i t).sessions.find? j = b.sessions.find? j := by
  unfold Database.advance
  cases t.program with
  | pure x => exact find?_kill_ne hne
  | throw e =>
      dsimp only
      split
      · exact Table.find?_insert_ne _ _ hne
      · exact find?_kill_ne hne
  | stmt l c k =>
      dsimp only
      split
      · exact Table.find?_insert_ne _ _ hne
      · rfl
  | fresh k => exact Table.find?_insert_ne _ _ hne

/-- A session goes on with the activity that it began. -/
theorem activity_advance {script : ι → Call σ ρ ε α} {i : Nat} {t u : Session σ ρ ε α ι}
    (hi : b.sessions.find? i = some t)
    (h : (b.advance script i t).sessions.find? i = some u) : u.activity = t.activity := by
  unfold Database.advance at h
  cases hp : t.program with
  | pure x =>
      rw [hp] at h
      exact absurd rfl (find?_kill h).2
  | throw e =>
      rw [hp] at h
      dsimp only at h
      split at h
      · rw [Table.find?_insert_self] at h
        cases h
        rfl
      · exact absurd rfl (find?_kill h).2
  | stmt l c k =>
      rw [hp] at h
      dsimp only at h
      split at h
      · rw [Table.find?_insert_self] at h
        cases h
        rfl
      · cases hi.symm.trans h
        rfl
  | fresh k =>
      rw [hp] at h
      rw [Table.find?_insert_self] at h
      cases h
      rfl

theorem Sound.advance {script : ι → Call σ ρ ε α} (h : b.Sound D) (hs : D.Kept script) {i : Nat}
    {t : Session σ ρ ε α ι} (hi : b.sessions.find? i = some t) :
    (b.advance script i t).Sound D := by
  have hrefl : D.Rely t.draft.holds b.store b.store := Discipline.Rely.refl h.invariant
  have hallowed := h.allowed i t hi
  have hothers : ∀ j u, b.sessions.find? j = some u → j ≠ i →
      ∀ r ∈ t.draft.holds, r ∉ u.draft.holds :=
    fun j u hj hne => h.apart i j t u hi hj (Ne.symm hne)
  unfold Database.advance
  cases hp : t.program with
  | pure x => exact h.commit_sound hi hp
  | throw e =>
      simp only
      split
      · rename_i p hrecover
        refine h.insert (Nat.le_refl _) (by simp) (by simp) ?_
        refine (hs t.activity b.store h.invariant).2 e p ?_
        by_cases hr : t.recovering = true
        · simp [hr] at hrecover
        · simpa [hr] using hrecover
      · exact h.kill i
  | stmt l c k =>
      rw [hp] at hallowed
      simp only
      split
      · rename_i hfree
        refine h.insert (Nat.le_refl _) ?_ ?_ (hallowed b.store hrefl)
        · intro m hm
          simp only [Draft.holds_execute, List.mem_append, List.mem_map] at hm
          rcases hm with hm | ⟨r, -, hr⟩
          · exact h.keys i t hi m hm
          · cases hr
        · intro j u hj hne r hr
          simp only [Draft.holds_execute, List.mem_append, List.mem_map] at hr
          rcases hr with hr | ⟨q, hq, rfl⟩
          · exact hothers j u hj hne r hr
          · exact not_mem_of_isFree hfree hj hne q hq
      · exact h
  | fresh k =>
      rw [hp] at hallowed
      refine h.insert (Nat.le_succ _) ?_ ?_ (hallowed b.store hrefl b.sequence h.unused ?_)
      · intro m hm
        simp only [Draft.holds_draw, List.mem_cons] at hm
        rcases hm with hm | hm
        · cases hm
          exact Nat.lt_succ_self _
        · exact Nat.lt_succ_of_lt (h.keys i t hi m hm)
      · intro j u hj hne r hr hr'
        simp only [Draft.holds_draw, List.mem_cons] at hr
        rcases hr with rfl | hr
        · exact absurd (h.keys j u hj _ hr') (Nat.lt_irrefl _)
        · exact hothers j u hj hne r hr hr'
      · exact fun hmem => absurd (h.keys i t hi _ hmem) (Nat.lt_irrefl _)

theorem Sound.step {script : ι → Call σ ρ ε α} (h : b.Sound D) (hs : D.Kept script)
    (e : DatabaseEvent ι) : (b.step script e).Sound D := by
  cases e with
  | start i a =>
      simp only [Database.step, Database.start]
      split
      · exact h
      · exact h.insert (Nat.le_refl _) (by simp) (by simp) (hs a b.store h.invariant).1
  | kill i => exact h.kill i
  | advance i =>
      simp only [Database.step]
      split
      · exact h
      · rename_i t hi
        exact h.advance hs hi

theorem Sound.run {script : ι → Call σ ρ ε α} (h : b.Sound D) (hs : D.Kept script)
    (es : List (DatabaseEvent ι)) : (b.run script es).Sound D := by
  induction es generalizing b with
  | nil => exact h
  | cons e es ih => exact ih (h.step hs e)

/-- The session that an event lets commit, with its result. -/
def committing (b : Database σ ρ ε α ι) : DatabaseEvent ι → Option (Session σ ρ ε α ι × α)
  | .advance i =>
      match b.sessions.find? i with
      | none => none
      | some t =>
          match t.program with
          | .pure x => some (t, x)
          | _ => none
  | _ => none

/-- The store changes only by a commit. -/
theorem store_step (script : ι → Call σ ρ ε α) (b : Database σ ρ ε α ι)
    (e : DatabaseEvent ι) : (b.step script e).store =
      match b.committing e with
      | some (t, _) => t.draft.change b.store
      | none => b.store := by
  cases e with
  | start i a =>
      simp only [Database.step, Database.start, committing]
      split <;> rfl
  | kill i => rfl
  | advance i =>
      simp only [Database.step, committing]
      cases hi : b.sessions.find? i with
      | none => rfl
      | some t =>
          simp only [Database.advance]
          cases t.program with
          | pure x => rfl
          | throw e => dsimp only; split <;> rfl
          | stmt l c k => dsimp only; split <;> rfl
          | fresh k => rfl

/-- Every change of the store is a commit that the discipline allows. -/
theorem Sound.committed {script : ι → Call σ ρ ε α} (h : b.Sound D) {e : DatabaseEvent ι}
    {t : Session σ ρ ε α ι} {x : α} (hc : b.committing e = some (t, x)) :
    D.commits t.activity x t.draft b.store (b.step script e).store := by
  rw [store_step, hc]
  cases e with
  | start i a => cases hc
  | kill i => cases hc
  | advance i =>
      simp only [committing] at hc
      cases hi : b.sessions.find? i with
      | none => simp [hi] at hc
      | some u =>
          simp only [hi] at hc
          cases hp : u.program with
          | pure y =>
              simp only [hp, Option.some.injEq, Prod.mk.injEq] at hc
              obtain ⟨rfl, rfl⟩ := hc
              exact h.commit hi hp
          | throw e => simp [hp] at hc
          | stmt l c k => simp [hp] at hc
          | fresh k => simp [hp] at hc

/-- What every commit keeps is kept by a run. -/
theorem Sound.keeps {script : ι → Call σ ρ ε α} {P : σ → Prop} (h : b.Sound D) (hs : D.Kept script)
    (hstep : ∀ a x d s s', D.commits a x d s s' → P s → P s') (hb : P b.store)
    (es : List (DatabaseEvent ι)) : P (b.run script es).store := by
  induction es generalizing b with
  | nil => exact hb
  | cons e es ih =>
      refine ih (h.step hs e) ?_
      cases hc : b.committing e with
      | none =>
          rw [store_step, hc]
          exact hb
      | some p => exact hstep _ _ _ _ _ (h.committed hc) hb

/-! ### Conditions on steps -/

/-- Every step of a run meets `P` in the state before it. -/
def Steps (script : ι → Call σ ρ ε α) (P : Database σ ρ ε α ι → DatabaseEvent ι → Prop) :
    Database σ ρ ε α ι → List (DatabaseEvent ι) → Prop
  | _, [] => True
  | b, e :: es => P b e ∧ (b.step script e).Steps script P es

def decidableSteps (script : ι → Call σ ρ ε α)
    (P : Database σ ρ ε α ι → DatabaseEvent ι → Prop) [∀ b e, Decidable (P b e)] :
    ∀ b es, Decidable (Steps script P b es)
  | _, [] => isTrue trivial
  | b, e :: es =>
      haveI := decidableSteps script P (b.step script e) es
      inferInstanceAs (Decidable (P b e ∧ (b.step script e).Steps script P es))

instance (script : ι → Call σ ρ ε α) (P : Database σ ρ ε α ι → DatabaseEvent ι → Prop)
    [∀ b e, Decidable (P b e)] (b : Database σ ρ ε α ι) (es : List (DatabaseEvent ι)) :
    Decidable (b.Steps script P es) := decidableSteps script P b es

theorem steps_append {script : ι → Call σ ρ ε α}
    {P : Database σ ρ ε α ι → DatabaseEvent ι → Prop} (es fs : List (DatabaseEvent ι)) :
    b.Steps script P (es ++ fs) ↔ b.Steps script P es ∧ (b.run script es).Steps script P fs := by
  induction es generalizing b with
  | nil => exact (iff_of_eq (true_and _)).symm
  | cons e es ih =>
      show P b e ∧ (b.step script e).Steps script P (es ++ fs) ↔ _
      rw [ih, ← and_assoc]
      exact Iff.rfl

/-- What holds at first and is kept by the steps that meet `P` holds after a run of such. -/
theorem Sound.run_induction {script : ι → Call σ ρ ε α} (hs : D.Kept script)
    {P : Database σ ρ ε α ι → DatabaseEvent ι → Prop} {I : Database σ ρ ε α ι → Prop}
    (hstep : ∀ b e, b.Sound D → I b → P b e → I (b.step script e))
    (h : b.Sound D) (hb : I b) {es : List (DatabaseEvent ι)} (hes : b.Steps script P es) :
    I (b.run script es) := by
  induction es generalizing b with
  | nil => exact hb
  | cons e es ih => exact ih (h.step hs e) (hstep b e h hb hes.1) hes.2

/-! ### Conditions on statements -/

/-- The session that an event lets execute a statement, with the locks the statement takes. -/
def executing (b : Database σ ρ ε α ι) : DatabaseEvent ι → Option (Session σ ρ ε α ι × List ρ)
  | .advance i =>
      match b.sessions.find? i with
      | none => none
      | some t =>
          match t.program with
          | .stmt l _ _ => some (t, l (t.draft.change b.store))
          | _ => none
  | _ => none

/-- What an event locks satisfies `P` of the activity, the stores it has seen so far, and the
store. -/
def Acquires (P : ι → List σ → ρ → σ → Prop) (b : Database σ ρ ε α ι)
    (e : DatabaseEvent ι) : Prop :=
  ∀ t locks, b.executing e = some (t, locks) →
    ∀ r ∈ locks, P t.activity t.draft.seen r b.store

instance (P : ι → List σ → ρ → σ → Prop) [∀ a seen r s, Decidable (P a seen r s)]
    (b : Database σ ρ ε α ι) (e : DatabaseEvent ι) : Decidable (b.Acquires P e) :=
  match h : b.executing e with
  | none => isTrue fun t locks he => by cases h.symm.trans he
  | some x => decidable_of_iff (∀ r ∈ x.2, P x.1.activity x.1.draft.seen r b.store)
      ⟨fun hx t locks he => by
        obtain rfl := Option.some.inj (h.symm.trans he)
        exact hx, fun hall => hall x.1 x.2 h⟩

/-- Everything that is locked satisfies `P`. -/
def Held (P : ι → List σ → ρ → σ → Prop) (b : Database σ ρ ε α ι) : Prop :=
  ∀ i t, b.sessions.find? i = some t → ∀ r, Hold.lock r ∈ t.draft.holds →
    P t.activity t.draft.seen r b.store

omit [DecidableEq ρ] in
theorem held_init (P : ι → List σ → ρ → σ → Prop) (n : Nat) (s : σ) :
    (init n s : Database σ ρ ε α ι).Held P := by
  intro i t hi
  simp [init] at hi

section Held

variable {P : ι → List σ → ρ → σ → Prop}

omit [DecidableEq ρ] in
/-- What a session has locked when it commits. -/
theorem Held.committing (h : b.Held P) {e : DatabaseEvent ι} {t : Session σ ρ ε α ι} {x : α}
    (hc : b.committing e = some (t, x)) :
    ∀ r, Hold.lock r ∈ t.draft.holds → P t.activity t.draft.seen r b.store := by
  cases e with
  | start i a => cases hc
  | kill i => cases hc
  | advance i =>
      simp only [Database.committing] at hc
      split at hc
      · cases hc
      · rename_i u hi
        split at hc
        · cases hc
          exact h i t hi
        · cases hc

omit [DecidableEq ρ] in
theorem Held.insert (h : b.Held P) {n : Nat}
    (ht : ∀ r, Hold.lock r ∈ t.draft.holds → P t.activity t.draft.seen r b.store) :
    (⟨n, b.store, b.sessions.insert i t⟩ : Database σ ρ ε α ι).Held P := by
  intro j u hj
  rw [Table.find?_insert] at hj
  split at hj
  · cases hj
    exact ht
  · exact h j u hj

omit [DecidableEq ρ] in
theorem Held.kill (h : b.Held P) (i : Nat) : (b.kill i).Held P :=
  fun j t hj => h j t (find?_kill hj).1

/-- What no commit changes behind a lock stays true of everything that is locked, as long as
statements lock nothing else. -/
theorem Held.step {script : ι → Call σ ρ ε α} (h : b.Held P) (hsound : b.Sound D)
    (hframe : ∀ a x d s s' a' seen r, D.commits a x d s s' → Hold.lock r ∉ d.holds →
      P a' seen r s → P a' seen r s')
    (hseen : ∀ a seen s₁ r s, P a seen r s → P a (seen ++ [s₁]) r s)
    {e : DatabaseEvent ι} (he : b.Acquires P e) : (b.step script e).Held P := by
  cases e with
  | start i a =>
      simp only [Database.step, Database.start]
      split
      · exact h
      · exact h.insert (by simp)
  | kill i => exact h.kill i
  | advance i =>
      simp only [Database.step]
      cases hi : b.sessions.find? i with
      | none => exact h
      | some t =>
          simp only [Database.advance]
          cases hp : t.program with
          | pure x =>
              intro j u hj r hr
              obtain ⟨hj, hne⟩ := find?_kill hj
              refine hframe _ _ _ _ _ _ _ _ (hsound.commit hi hp) ?_ (h j u hj r hr)
              exact fun hmem => hsound.apart i j t u hi hj (Ne.symm hne) _ hmem hr
          | throw e =>
              dsimp only
              split
              · exact h.insert (by simp)
              · exact h.kill i
          | stmt l c k =>
              dsimp only
              split
              · refine h.insert fun r hr => hseen _ _ _ _ _ ?_
                simp only [Draft.holds_execute, List.mem_append, List.mem_map] at hr
                rcases hr with hr | ⟨q, hq, hqr⟩
                · exact h i t hi r hr
                · cases hqr
                  exact he t _ (by simp only [executing, hi, hp]) r hq
              · exact h
          | fresh k =>
              refine h.insert fun r hr => h i t hi r ?_
              simpa using hr

end Held

end Database

end Wbme.Lib
