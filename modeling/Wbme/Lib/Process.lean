import Mathlib.Data.List.Basic

/-!
# Processes over a shared state

A process works on a state that others share, one atomic statement at a time. Between two
statements it may read the clock and ask the outside world, whose answers nothing fixes.
A world holds the clock, the state and the processes under way. An event starts a
process, advances one of them by a single step, drops one (a crash loses whatever it had
not yet written), or lets time pass, so a list of events is one interleaving.

What a process may do to the state is a relation it ensures at every statement, at
whatever time and in whatever state that statement happens to run. Along any interleaving
every change is then of that kind.
-/

namespace Wbme.Lib

/-- A process over states `σ`, with answers `ω` of the outside world. -/
inductive Process (σ ω α : Type) : Type 1
  | done (a : α)
  | atomic {β : Type} (f : σ → β × σ) (k : β → Process σ ω α)
  | readClock (k : Nat → Process σ ω α)
  | ask (k : ω → Process σ ω α)

namespace Process

variable {σ ω α β ι : Type}

def bind (p : Process σ ω α) (q : α → Process σ ω β) : Process σ ω β :=
  match p with
  | .done a => q a
  | .atomic f k => .atomic f (fun b => (k b).bind q)
  | .readClock k => .readClock (fun t => (k t).bind q)
  | .ask k => .ask (fun c => (k c).bind q)

instance : Monad (Process σ ω) where
  pure := .done
  bind := bind

/-- One step at a time of the clock, with the answer the outside gives if it is asked. -/
def advance (now : Nat) (answer : ω) (s : σ) : Process σ ω α → σ × Process σ ω α
  | .done a => (s, .done a)
  | .atomic f k => ((f s).2, k (f s).1)
  | .readClock k => (s, k now)
  | .ask k => (s, k answer)

/-- The state after a process ran by itself at one time, one step for each answer. -/
def solo (now : Nat) (s : σ) : List ω → Process σ ω α → σ
  | [], _ => s
  | c :: cs, p => solo now (p.advance now c s).1 cs (p.advance now c s).2

/-! ## What a process ensures -/

/-- Every statement that a process makes from a time on changes the state as `G` says. -/
def Ensures (G : Nat → σ → σ → Prop) : Process σ ω α → Nat → Prop
  | .done _, _ => True
  | .atomic f k, t => ∀ t', t ≤ t' → ∀ s, G t' s (f s).2 ∧ (k (f s).1).Ensures G t'
  | .readClock k, t => ∀ t', t ≤ t' → (k t').Ensures G t'
  | .ask k, t => ∀ c, (k c).Ensures G t

variable {G : Nat → σ → σ → Prop}

theorem Ensures.mono {p : Process σ ω α} {t t' : Nat} (h : p.Ensures G t) (ht : t ≤ t') :
    p.Ensures G t' := by
  induction p with
  | done a => trivial
  | atomic f k ih => exact fun t₂ h₂ s => h t₂ (Nat.le_trans ht h₂) s
  | readClock k ih => exact fun t₂ h₂ => h t₂ (Nat.le_trans ht h₂)
  | ask k ih => exact fun c => ih c (h c)

/-- What a process ensures, said more weakly. -/
theorem Ensures.imp {G' : Nat → σ → σ → Prop} {p : Process σ ω α} {t : Nat} (h : p.Ensures G t)
    (hG : ∀ t s s', G t s s' → G' t s s') : p.Ensures G' t := by
  induction p generalizing t with
  | done a => trivial
  | atomic f k ih =>
      intro t' ht s
      obtain ⟨hf, hk⟩ := h t' ht s
      exact ⟨hG _ _ _ hf, ih _ hk⟩
  | readClock k ih => exact fun t' ht => ih t' (h t' ht)
  | ask k ih => exact fun c => ih c (h c)

theorem Ensures.bind {p : Process σ ω α} {q : α → Process σ ω β} {t : Nat}
    (hp : p.Ensures G t) (hq : ∀ a t', t ≤ t' → (q a).Ensures G t') :
    (p.bind q).Ensures G t := by
  induction p generalizing t with
  | done a => exact hq a t (Nat.le_refl t)
  | atomic f k ih =>
      intro t' ht s
      obtain ⟨hG, hk⟩ := hp t' ht s
      exact ⟨hG, ih _ hk fun a t₂ h₂ => hq a t₂ (Nat.le_trans ht h₂)⟩
  | readClock k ih =>
      intro t' ht
      exact ih t' (hp t' ht) fun a t₂ h₂ => hq a t₂ (Nat.le_trans ht h₂)
  | ask k ih => exact fun c => ih c (hp c) hq

/-- A step of a process that ensures `G` makes a change of that kind, or none, and leaves
a process that ensures it. -/
theorem Ensures.advance {p : Process σ ω α} {t : Nat} (h : p.Ensures G t) (c : ω) (s : σ) :
    ((p.advance t c s).1 = s ∨ G t s (p.advance t c s).1) ∧
      (p.advance t c s).2.Ensures G t := by
  cases p with
  | done a => exact ⟨Or.inl rfl, trivial⟩
  | atomic f k =>
      obtain ⟨hG, hk⟩ := h t (Nat.le_refl t) s
      exact ⟨Or.inr hG, hk⟩
  | readClock k => exact ⟨Or.inl rfl, h t (Nat.le_refl t)⟩
  | ask k => exact ⟨Or.inl rfl, h c⟩

end Process

/-! ## Processes that may throw -/

/-- A process that ends with a value or throws a message. -/
abbrev Script (σ ω α : Type) : Type 1 := ExceptT String (Process σ ω) α

namespace Script

variable {σ ω α β : Type} {G : Nat → σ → σ → Prop}

def atomic (f : σ → α × σ) : Script σ ω α := ExceptT.mk (.atomic f (fun a => .done (.ok a)))

def readClock : Script σ ω Nat := ExceptT.mk (.readClock (fun t => .done (.ok t)))

def ask : Script σ ω ω := ExceptT.mk (.ask (fun c => .done (.ok c)))

/-- Every statement that a script makes from a time on changes the state as `G` says. -/
def Ensures (G : Nat → σ → σ → Prop) (p : Script σ ω α) (t : Nat) : Prop :=
  Process.Ensures G p.run t

theorem ensures_pure (a : α) (t : Nat) : Ensures G (pure a : Script σ ω α) t := trivial

theorem ensures_throw (m : String) (t : Nat) : Ensures G (throw m : Script σ ω α) t := trivial

theorem ensures_ask (t : Nat) : Ensures G (ask : Script σ ω ω) t := fun _ => trivial

theorem ensures_atomic {f : σ → α × σ} {t : Nat} (h : ∀ t', t ≤ t' → ∀ s, G t' s (f s).2) :
    Ensures G (atomic f : Script σ ω α) t := fun t' ht s => ⟨h t' ht s, trivial⟩

theorem Ensures.bind {p : Script σ ω α} {q : α → Script σ ω β} {t : Nat} (hp : Ensures G p t)
    (hq : ∀ a t', t ≤ t' → Ensures G (q a) t') : Ensures G (p >>= q) t := by
  refine Process.Ensures.bind hp fun r t' ht => ?_
  cases r with
  | ok a => exact hq a t' ht
  | error m => trivial

/-- A script after the clock was read knows a time that is not in the future. -/
theorem ensures_readClock {q : Nat → Script σ ω β} {t : Nat}
    (hq : ∀ t', t ≤ t' → Ensures G (q t') t') : Ensures G (readClock >>= q) t :=
  fun t' ht => hq t' ht

theorem Ensures.tryCatch {p : Script σ ω α} {q : String → Script σ ω α} {t : Nat}
    (hp : Ensures G p t) (hq : ∀ m t', t ≤ t' → Ensures G (q m) t') :
    Ensures G (tryCatch p q) t := by
  refine Process.Ensures.bind hp fun r t' ht => ?_
  cases r with
  | ok a => trivial
  | error m => exact hq m t' ht

theorem ensures_forM {xs : List β} {body : β → Script σ ω PUnit} {t : Nat}
    (h : ∀ x ∈ xs, ∀ t', t ≤ t' → Ensures G (body x) t') : Ensures G (xs.forM body) t := by
  induction xs generalizing t with
  | nil => trivial
  | cons x xs ih =>
      refine Ensures.bind (h x List.mem_cons_self t (Nat.le_refl t)) fun _ t' ht => ?_
      exact ih fun y hy t₂ h₂ => h y (List.mem_cons_of_mem x hy) t₂ (Nat.le_trans ht h₂)

end Script

/-! ## Interleavings -/

/-- The clock, the shared state and the processes under way, each for an activity. -/
structure World (σ ω ι : Type) : Type 1 where
  clock : Nat
  store : σ
  running : List (ι × Process σ ω (Except String Unit))

/-- What may happen next: an activity starts, the process at a position makes one step,
it is lost, or time passes. -/
inductive Event (ω ι : Type) where
  | start (a : ι)
  | advance (i : Nat) (answer : ω)
  | crash (i : Nat)
  | pass (d : Nat)

namespace World

variable {σ ω ι : Type} (script : ι → Script σ ω Unit)

def step (w : World σ ω ι) : Event ω ι → World σ ω ι
  | .start a => { w with running := w.running ++ [(a, (script a).run)] }
  | .advance i c =>
      match w.running[i]? with
      | none => w
      | some (a, p) =>
          { w with
            store := (p.advance w.clock c w.store).1
            running := w.running.set i (a, (p.advance w.clock c w.store).2) }
  | .crash i => { w with running := w.running.eraseIdx i }
  | .pass d => { w with clock := w.clock + d }

def run (w : World σ ω ι) (es : List (Event ω ι)) : World σ ω ι := es.foldl (step script) w

variable (w : World σ ω ι)

@[simp] theorem run_nil : w.run script [] = w := rfl

@[simp] theorem run_cons (e : Event ω ι) (es : List (Event ω ι)) :
    w.run script (e :: es) = (w.step script e).run script es := rfl

theorem run_append (es fs : List (Event ω ι)) :
    w.run script (es ++ fs) = (w.run script es).run script fs := List.foldl_append

/-- The activity whose process an event advances. -/
def actor (w : World σ ω ι) : Event ω ι → Option ι
  | .advance i _ => (w.running[i]?).map (·.1)
  | _ => none

/-- Every process under way ensures what its activity stands for. -/
def Ensured (G : ι → Nat → σ → σ → Prop) (w : World σ ω ι) : Prop :=
  ∀ x ∈ w.running, x.2.Ensures (G x.1) w.clock

variable {script} {G : ι → Nat → σ → σ → Prop}

theorem Ensured.step {w : World σ ω ι} (h : w.Ensured G)
    (hs : ∀ a t, Script.Ensures (G a) (script a) t) (e : Event ω ι) :
    (w.step script e).Ensured G := by
  cases e with
  | start a =>
      intro x hx
      rcases List.mem_append.mp hx with hx | hx
      · exact h x hx
      · obtain rfl := List.mem_singleton.mp hx
        exact hs a w.clock
  | advance i c =>
      simp only [World.step]
      cases hi : w.running[i]? with
      | none => exact h
      | some y =>
          intro x hx
          rcases List.mem_or_eq_of_mem_set hx with hx | rfl
          · exact h x hx
          · exact ((h y (List.mem_of_getElem? hi)).advance c w.store).2
  | crash i => exact fun x hx => h x (List.mem_of_mem_eraseIdx hx)
  | pass d => exact fun x hx => (h x hx).mono (Nat.le_add_right _ d)

variable (script) in
/-- An event changes the state only by advancing a process, and then as its activity's
relation says. -/
theorem Ensured.store_step {w : World σ ω ι} (h : w.Ensured G) (e : Event ω ι) :
    (w.step script e).store = w.store ∨
      ∃ a, w.actor e = some a ∧ G a w.clock w.store (w.step script e).store := by
  cases e with
  | start a => exact Or.inl rfl
  | crash i => exact Or.inl rfl
  | pass d => exact Or.inl rfl
  | advance i c =>
      simp only [World.step, actor]
      cases hi : w.running[i]? with
      | none => exact Or.inl rfl
      | some y =>
          rcases ((h y (List.mem_of_getElem? hi)).advance c w.store).1 with hsame | hG
          · exact Or.inl hsame
          · exact Or.inr ⟨y.1, rfl, hG⟩

theorem Ensured.run {w : World σ ω ι} (h : w.Ensured G)
    (hs : ∀ a t, Script.Ensures (G a) (script a) t) (es : List (Event ω ι)) :
    (w.run script es).Ensured G := by
  induction es generalizing w with
  | nil => exact h
  | cons e es ih => exact ih (h.step hs e)

/-! ### Entries into a set of states -/

variable (script)

/-- How often a run enters a set of states from outside it. -/
def entries (P : σ → Prop) [DecidablePred P] (w : World σ ω ι) : List (Event ω ι) → Nat
  | [] => 0
  | e :: es =>
      (if ¬ P w.store ∧ P (w.step script e).store then 1 else 0) +
        entries P (w.step script e) es

variable {script}

/-- A set that no change leaves is entered once by the runs that end in it, never by the
others. -/
theorem Ensured.entries_eq {P : σ → Prop} [DecidablePred P] {w : World σ ω ι}
    (h : w.Ensured G) (hs : ∀ a t, Script.Ensures (G a) (script a) t)
    (hP : ∀ a t s s', G a t s s' → P s → P s') (es : List (Event ω ι)) :
    (P w.store → P (w.run script es).store) ∧
      entries script P w es = if ¬ P w.store ∧ P (w.run script es).store then 1 else 0 := by
  induction es generalizing w with
  | nil =>
      refine ⟨fun hw => hw, ?_⟩
      show 0 = _
      by_cases hw : P w.store <;> simp [hw]
  | cons e es ih =>
      have hstep : P w.store → P (w.step script e).store := by
        intro hw
        rcases h.store_step script e with hsame | ⟨a, -, hG⟩
        · rw [hsame]; exact hw
        · exact hP _ _ _ _ hG hw
      obtain ⟨hrun, hcount⟩ := ih (h.step hs e)
      refine ⟨fun hw => hrun (hstep hw), ?_⟩
      show _ + entries script P (w.step script e) es = _
      rw [hcount, run_cons]
      by_cases hw : P w.store
      · simp [hw, hstep hw]
      · by_cases hw' : P (w.step script e).store
        · simp [hw, hw', hrun hw']
        · simp [hw, hw']

/-! ### A process that runs by itself -/

/-- Advancing the last process only, once for each answer. -/
def soloEvents (w : World σ ω ι) (a : ι) (answers : List ω) : List (Event ω ι) :=
  .start a :: answers.map (Event.advance w.running.length)

theorem store_run_advance (running : List (ι × Process σ ω (Except String Unit)))
    (clock : Nat) (s : σ) (a : ι) (p : Process σ ω (Except String Unit)) (answers : List ω) :
    ∃ q, (World.run script ⟨clock, s, running ++ [(a, p)]⟩
      (answers.map (Event.advance running.length))) =
        ⟨clock, p.solo clock s answers, running ++ [(a, q)]⟩ := by
  induction answers generalizing s p with
  | nil => exact ⟨p, rfl⟩
  | cons c cs ih =>
      obtain ⟨q, hq⟩ := ih (p.advance clock c s).1 (p.advance clock c s).2
      refine ⟨q, ?_⟩
      rw [List.map_cons, run_cons]
      simpa [World.step, Process.solo] using hq

/-- Started and advanced alone, an activity does to the state what its script does. -/
theorem store_run_solo (a : ι) (answers : List ω) :
    (w.run script (soloEvents w a answers)).store =
      (script a).run.solo w.clock w.store answers ∧
    (w.run script (soloEvents w a answers)).clock = w.clock := by
  obtain ⟨q, hq⟩ := @store_run_advance _ _ _ script w.running w.clock w.store a
    (script a).run answers
  rw [soloEvents, run_cons]
  rw [show w.step script (.start a) = ⟨w.clock, w.store, w.running ++ [(a, (script a).run)]⟩
    from rfl, hq]
  exact ⟨rfl, rfl⟩

end World

end Wbme.Lib
