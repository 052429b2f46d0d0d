import Wbme.Fin.Revisions

/-! # Deleted projects

A project that is deleted stays as it is until it is restored, as long as nobody but a restore
locks its row once it is deleted: the look that every operation takes at a project is not
repeated where it writes.
-/

namespace Wbme.Fin

open Lib

/-! ## Writers -/

def LocksLive (a : FinActivity) (_ : List FinStore) : FinLock → FinStore → Prop
  | .project id, s => a.isRestore = false → (s.projects.find? id).any Project.isLive = true
  | _, _ => True

instance (a : FinActivity) (seen : List FinStore) (l : FinLock) (s : FinStore) :
    Decidable (LocksLive a seen l s) := by
  cases l <;> unfold LocksLive <;> infer_instance

theorem LocksLive.row {a : FinActivity} {seen : List FinStore} {id : Nat} {s : FinStore}
    (h : LocksLive a seen (.project id) s) (hrestore : a.isRestore = false) :
    ∃ p, s.projects.find? id = some p ∧ p.isLive = true :=
  (Option.any_eq_true _ _).mp (h hrestore)

section Step

variable {r : FinRuntime} {b : FinDatabase}

theorem held_step (hsound : b.Sound (finDiscipline r.unicode)) (h : b.Held LocksLive)
    {e : DatabaseEvent FinActivity} (he : b.Acquires LocksLive e) :
    (b.step (FinActivity.call r) e).Held LocksLive := by
  refine h.step hsound ?_ (fun _ _ _ _ _ hl => hl) he
  intro a x d s s' a' seen l ⟨w, hcommit⟩ hapart hlocked
  cases l with
  | project id =>
      intro hrestore
      obtain ⟨p, hp, hlive⟩ := hlocked.row hrestore
      have hsame : s'.projects.find? id = some p := by
        rcases hcommit.project hp with hsame | ⟨_, _, _, hlock⟩
        · exact hsame
        · exact absurd hlock hapart
      rw [hsame]
      exact hlive
  | projectKey businessKey year => trivial
  | detail kind id => trivial
  | dictItem id => trivial
  | dictName dictType name => trivial
  | idempotency operatorId scope key => trivial

theorem isRestore_of_held (h : b.Held LocksLive) {e : DatabaseEvent FinActivity}
    {t : Session FinStore FinLock Failure FinReply FinActivity} {x : FinReply}
    (hc : b.committing e = some (t, x)) {id : Nat} (hlock : .lock (.project id) ∈ t.draft.holds)
    {p : Project} (hp : b.store.projects.find? id = some p) (hdeleted : p.isLive = false) :
    t.activity.isRestore = true := by
  by_contra hrestore
  rw [Bool.not_eq_true] at hrestore
  have hlocked : LocksLive t.activity t.draft.seen (.project id) b.store := h.committing hc _ hlock
  obtain ⟨q, hq, hlive⟩ := hlocked.row hrestore
  obtain rfl := Option.some.inj (hp.symm.trans hq)
  rw [hdeleted] at hlive
  cases hlive

def Unchanged (id : Nat) (p : Project) (s s' : FinStore) : Prop :=
  s'.projects.find? id = some p ∧ ∀ kind, s'.detailsOf kind id = s.detailsOf kind id

def IsLive (id : Nat) (s : FinStore) : Prop := ∃ p, s.projects.find? id = some p ∧ p.isLive = true

theorem FinReached.deleted_step (hreached : FinReached r b) (h : b.Held LocksLive) {id : Nat}
    {p : Project} (hp : b.store.projects.find? id = some p) (hdeleted : p.isLive = false)
    (e : DatabaseEvent FinActivity) :
    IsLive id (b.step (FinActivity.call r) e).store ∨
      Unchanged id p b.store (b.step (FinActivity.call r) e).store := by
  cases hc : b.committing e with
  | none =>
      rw [Database.store_step, hc]
      exact .inr ⟨hp, fun _ => rfl⟩
  | some tx =>
      obtain ⟨t, x⟩ := tx
      obtain ⟨hkept, w, hcommit⟩ := hreached.committed hc
      rcases hcommit.project hp with hsame | ⟨p', hp', hwrites, hlock⟩
      · refine .inr ⟨hsame, (hcommit.detailsOf_kept hkept hp).resolve_right ?_⟩
        intro ⟨_, q, q', hq, hq', hlt⟩
        obtain rfl := Option.some.inj (hp.symm.trans hq)
        obtain rfl := Option.some.inj (hsame.symm.trans hq')
        exact Nat.lt_irrefl _ hlt
      · have hrestore := isRestore_of_held h hc hlock hp hdeleted
        exact .inl ⟨p', hp', hwrites.restored (hcommit.permit.restores hrestore)⟩

end Step

section Runs

variable {r : FinRuntime} {b : FinDatabase}

theorem FinReached.held_run (hreached : FinReached r b) (h : b.Held LocksLive)
    {es : List (DatabaseEvent FinActivity)}
    (hes : b.Steps (FinActivity.call r) (Database.Acquires LocksLive) es) :
    (b.run (FinActivity.call r) es).Held LocksLive :=
  Database.Sound.run_induction (finDiscipline_kept r) (fun _ _ hsound hheld he =>
    held_step hsound hheld he) hreached.sound h hes

theorem FinReached.deleted_run (hreached : FinReached r b) (h : b.Held LocksLive) {id : Nat}
    {p : Project} (hp : b.store.projects.find? id = some p) (hdeleted : p.isLive = false)
    {es : List (DatabaseEvent FinActivity)}
    (hes : b.Steps (FinActivity.call r) (Database.Acquires LocksLive) es) :
    (∃ fs, fs <+: es ∧ IsLive id (b.run (FinActivity.call r) fs).store) ∨
      Unchanged id p b.store (b.run (FinActivity.call r) es).store := by
  induction es generalizing b with
  | nil => exact .inr ⟨hp, fun _ => rfl⟩
  | cons e es ih =>
      rcases hreached.deleted_step h hp hdeleted e with hlive | ⟨hrow, hdetails⟩
      · exact .inl ⟨[e], ⟨es, rfl⟩, hlive⟩
      · rcases ih (hreached.step e) (held_step hreached.sound h hes.1) hrow hes.2 with
          ⟨fs, hfs, hlive⟩ | ⟨hrow', hdetails'⟩
        · exact .inl ⟨e :: fs, List.cons_prefix_cons.mpr ⟨rfl, hfs⟩, hlive⟩
        · exact .inr ⟨hrow', fun kind => (hdetails' kind).trans (hdetails kind)⟩

end Runs

/-- What a deletion means from a state on: the project stays as it is until it is restored, and
whoever writes it is a restore. -/
structure DeletionLaw (r : FinRuntime) (b : FinDatabase) (es : List (DatabaseEvent FinActivity)) :
    Prop where
  kept : ∀ id p, b.store.projects.find? id = some p → p.isLive = false →
    (∃ fs, fs <+: es ∧ IsLive id (b.run (FinActivity.call r) fs).store) ∨
      Unchanged id p b.store (b.run (FinActivity.call r) es).store
  refused : ∀ e t x, b.committing e = some (t, x) → ∀ id p,
    .lock (.project id) ∈ t.draft.holds → b.store.projects.find? id = some p →
      p.isLive = false → t.activity.isRestore = true

/-- Where nobody but a restore locks a project that is deleted, a deletion holds. -/
theorem deletionLaw_of_run (r : FinRuntime) {n : Nat} {s : FinStore} (hn : UnusedFrom n s)
    (hkeyed : Keyed s) {es fs : List (DatabaseEvent FinActivity)}
    (hes : (Database.init n s).Steps (FinActivity.call r) (Database.Acquires LocksLive)
      (es ++ fs)) :
    DeletionLaw r ((Database.init n s).run (FinActivity.call r) es) fs := by
  have hinit : FinReached r (Database.init n s) := finReached_init hn hkeyed
  obtain ⟨hbefore, hafter⟩ := (Database.steps_append _ _).mp hes
  have hheld := hinit.held_run (Database.held_init _ _ _) hbefore
  exact
    { kept := fun id p hp hdeleted => (hinit.run es).deleted_run hheld hp hdeleted hafter
      refused := fun e t x hc id p hlock hp hdeleted => isRestore_of_held hheld hc hlock hp hdeleted }

/-! ## A deletion and a cell -/

/-- A name is being saved when the project is deleted. -/
def deleteAmidCell : List (DatabaseEvent FinActivity) :=
  [.start 0 (saveCell "name" (.str "beta")), .advance 0] ++
    session 1 (activityOf (.projectDelete [1] none))

/-- The save goes on, and commits. -/
def cellAfterDelete : List (DatabaseEvent FinActivity) := List.replicate 24 (.advance 0)

theorem not_deletionLaw_cellAfterDelete :
    ¬ DeletionLaw plainRuntime ((Database.init 2 oneProject).run (FinActivity.call plainRuntime)
      deleteAmidCell) cellAfterDelete := by
  intro h
  have hdeleted : ((Database.init 2 oneProject).run (FinActivity.call plainRuntime)
      deleteAmidCell).store.projects.find? 1 =
        some { plainProject "alpha" 2024 with deletedBy := some 1, deletedAt := some 0 } := by
    decide +kernel
  have hdead : ∀ fs ∈ cellAfterDelete.inits, ((((Database.init 2 oneProject).run
      (FinActivity.call plainRuntime) deleteAmidCell).run (FinActivity.call plainRuntime)
        fs).store.projects.find? 1).any Project.isLive = false := by
    decide +kernel
  have hwritten : ((((Database.init 2 oneProject).run (FinActivity.call plainRuntime)
      deleteAmidCell).run (FinActivity.call plainRuntime) cellAfterDelete).store.projects.find?
        1).map (·.name) = some "beta" := by
    decide +kernel
  rcases h.kept 1 _ hdeleted rfl with ⟨fs, hfs, p, hp, hlive⟩ | ⟨hrow, -⟩
  · have hdead := hdead fs ((List.mem_inits _ _).mpr hfs)
    simp [hp, hlive] at hdead
  · rw [hrow] at hwritten
    exact absurd hwritten (by decide)

/-- A project that is deleted when nothing else is under way stays deleted. -/
theorem deletionLaw_of_run_in_order : DeletionLaw plainRuntime
    ((Database.init 2 oneProject).run (FinActivity.call plainRuntime)
      (session 0 (saveCell "name" (.str "beta")) ++
        session 1 (activityOf (.projectDelete [1] none))))
    (session 2 (saveCell "name" (.str "gamma"))) :=
  deletionLaw_of_run plainRuntime unusedFrom_oneProject keyed_oneProject (by decide +kernel)

end Wbme.Fin
