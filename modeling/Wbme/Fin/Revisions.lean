import Wbme.Fin.BusinessKeys

/-! # Revisions

The revision of a project tells its content: no commit changes the fields or the amounts of a
project without raising it, in any interleaving, and an import writes over a project only at
the revision it was told.
-/

namespace Wbme.Fin

open Lib

/-! ## Owners of amounts -/

/-- The project of an amount. -/
def ownerOf (k : DetailKind × Nat) (s : FinStore) : Option Nat :=
  (detailsRows.row k s).map (·.projectId)

theorem finDiscipline_remembers (u : Unicode) : (finDiscipline u).Remembers ownerOf (·.2) where
  unused n s k hn hk := by
    have hnone : detailsRows.row k s = none := hn.details k hk
    simp [ownerOf, hnone]
  commits := by
    intro a x d s s' ⟨w, h⟩ k
    rcases h.details.changes k with (hsame | ⟨-, hgone | ⟨y, y', hy, hy', howner⟩⟩) | ⟨hnone, hkey, -⟩
    · exact .inl (by rw [ownerOf, ownerOf, hsame])
    · exact .inr (.inl (by simp [ownerOf, hgone]))
    · exact .inl (by simp [ownerOf, hy, hy', howner])
    · exact .inr (.inr ⟨by simp [ownerOf, hnone], hkey⟩)

variable {t : Session FinStore FinLock Failure FinReply FinActivity} {b : FinDatabase} {id : Nat}

theorem ownersKept_of_remembered (h : b.Remembered ownerOf (·.2)) {i : Nat}
    (hi : b.sessions.find? i = some t) : OwnersKept t.draft.seen b.store := by
  intro v hv k x y hx hy
  exact h.agree i t hi v hv k x.projectId y.projectId (by simp [ownerOf, hx]) (by simp [ownerOf, hy])

section Commits

variable {u : Unicode} {a : FinActivity} {w : Permit} {d : FinDraft} {s s' : FinStore}

theorem FinCommit.owner_of_changed (h : FinCommit u a w d s s') (hkept : OwnersKept d.seen s)
    {k : DetailKind × Nat} {x : Detail}
    (hx : detailsRows.row k s = some x ∨ detailsRows.row k s' = some x) :
    detailsRows.row k s' = detailsRows.row k s ∨ w.owners x.projectId := by
  rcases h.details.changes k with (hsame | ⟨hmay, hstep⟩) | ⟨hnone, -, hborn⟩
  · exact .inl hsame
  · have hold : ∃ y, detailsRows.row k s = some y ∧ y.projectId = x.projectId := by
      rcases hx with hx | hx
      · exact ⟨x, hx, rfl⟩
      · rcases hstep with hgone | ⟨y, y', hy, hy', howner⟩
        · cases hgone.symm.trans hx
        · obtain rfl := Option.some.inj (hy'.symm.trans hx)
          exact ⟨y, hy, howner.symm⟩
    obtain ⟨y, hy, howner⟩ := hold
    rcases hmay with hdetail | howners
    · obtain ⟨v, hv, z, hz, hzowner⟩ := h.permit.owned k hdetail
      have hsame := hkept v hv k z y hz hy
      exact .inr (howner ▸ hsame ▸ hzowner)
    · exact .inr (howner ▸ howners y hy)
  · rcases hx with hx | hx
    · cases hnone.symm.trans hx
    · exact .inr (hborn x hx)

theorem FinCommit.detailsOf_kept (h : FinCommit u a w d s s') (hkept : OwnersKept d.seen s)
    {p : Project} (hp : s.projects.find? id = some p) :
    (∀ kind, s'.detailsOf kind id = s.detailsOf kind id) ∨ Raised id d.holds s s' := by
  by_cases hraised : Raised id d.holds s s'
  · exact .inr hraised
  refine .inl fun kind => Table.select_congr fun n => ?_
  have hrow : ∀ x : Detail, (detailsRows.row (kind, n) s = some x ∨
      detailsRows.row (kind, n) s' = some x) → x.projectId = id →
        detailsRows.row (kind, n) s' = detailsRows.row (kind, n) s := by
    intro x hx hid
    rcases h.owner_of_changed hkept hx with hsame | howner
    · exact hsame
    · rcases h.accounted id (hid ▸ howner) with hsame | hr | hnone
      · exact hsame (kind, n)
      · exact absurd hr hraised
      · cases hnone.symm.trans hp
  have heq : ((detailsRows.row (kind, n) s').filter fun x => x.projectId == id) =
      (detailsRows.row (kind, n) s).filter fun x => x.projectId == id := by
    ext x
    simp only [Option.filter_eq_some_iff, beq_iff_eq]
    constructor
    · intro hmem
      obtain ⟨hx, hid⟩ := hmem
      exact ⟨(hrow x (.inr hx) hid).symm.trans hx, hid⟩
    · intro hmem
      obtain ⟨hx, hid⟩ := hmem
      exact ⟨(hrow x (.inl hx) hid).trans hx, hid⟩
  exact heq

theorem FinCommit.project (h : FinCommit u a w d s s') {p : Project}
    (hp : s.projects.find? id = some p) :
    s'.projects.find? id = some p ∨
      ∃ p', s'.projects.find? id = some p' ∧ w.Writes u id p p' ∧ .lock (.project id) ∈ d.holds := by
  rcases h.projects.rel (k := id) hp with hsame | ⟨q, p', hq, hp', hwrites⟩
  · exact .inl hsame
  · cases hq
    rcases h.projects.guarded id with hsame | ⟨r, hr, hlock, -⟩ | ⟨hnone, -⟩
    · exact .inl (hsame.trans hp)
    · cases hr
      exact .inr ⟨p', hp', hwrites, hlock⟩
    · cases hnone.symm.trans hp

end Commits

/-! ## Revisions tell contents -/

/-- Projects stay, their revisions do not fall, and where one is the same, so is the content. -/
def RevisionTells (s s' : FinStore) : Prop :=
  ∀ id p, s.projects.find? id = some p → ∃ p', s'.projects.find? id = some p' ∧
    p.dataRevision ≤ p'.dataRevision ∧ (p'.dataRevision = p.dataRevision →
      p'.toProjectData = p.toProjectData ∧ ∀ kind, s'.detailsOf kind id = s.detailsOf kind id)

theorem RevisionTells.refl (s : FinStore) : RevisionTells s s :=
  fun _ p hp => ⟨p, hp, Nat.le_refl _, fun _ => ⟨rfl, fun _ => rfl⟩⟩

theorem RevisionTells.trans {s s' s'' : FinStore} (h : RevisionTells s s')
    (h' : RevisionTells s' s'') : RevisionTells s s'' := by
  intro id p hp
  obtain ⟨p', hp', hle, hsame⟩ := h id p hp
  obtain ⟨p'', hp'', hle', hsame'⟩ := h' id p' hp'
  refine ⟨p'', hp'', Nat.le_trans hle hle', fun heq => ?_⟩
  obtain ⟨hdata, hdetails⟩ := hsame (by omega)
  obtain ⟨hdata', hdetails'⟩ := hsame' (by omega)
  exact ⟨hdata'.trans hdata, fun kind => (hdetails' kind).trans (hdetails kind)⟩

theorem FinCommit.revisionTells {u : Unicode} {a : FinActivity} {w : Permit} {d : FinDraft}
    {s s' : FinStore} (h : FinCommit u a w d s s') (hkept : OwnersKept d.seen s) :
    RevisionTells s s' := by
  intro id p hp
  have hdetails := h.detailsOf_kept hkept hp
  have hequal : ∀ p', s'.projects.find? id = some p' → p'.dataRevision = p.dataRevision →
      ∀ kind, s'.detailsOf kind id = s.detailsOf kind id := by
    intro p' hp' heq
    refine hdetails.resolve_right fun ⟨_, q, q', hq, hq', hlt⟩ => ?_
    obtain rfl := Option.some.inj (hp.symm.trans hq)
    obtain rfl := Option.some.inj (hp'.symm.trans hq')
    omega
  rcases h.project hp with hsame | ⟨p', hp', hwrites, -⟩
  · exact ⟨p, hsame, Nat.le_refl _, fun heq => ⟨rfl, hequal p hsame heq⟩⟩
  · exact ⟨p', hp', hwrites.revision, fun heq => ⟨hwrites.content heq, hequal p' hp' heq⟩⟩

section Runs

variable (r : FinRuntime)

/-- A state of the database on the way. -/
structure FinReached (b : FinDatabase) : Prop where
  sound : b.Sound (finDiscipline r.unicode)
  remembered : b.Remembered ownerOf (·.2)

variable {r} {b : FinDatabase}

theorem finReached_init {n : Nat} {s : FinStore} (hn : UnusedFrom n s) (hkeyed : Keyed s) :
    FinReached r (Database.init n s) :=
  ⟨Database.sound_init hkeyed hn, Database.remembered_init _ _ n s⟩

theorem FinReached.step (h : FinReached r b) (e : DatabaseEvent FinActivity) :
    FinReached r (b.step (FinActivity.call r) e) :=
  ⟨h.sound.step (finDiscipline_kept r) e,
    h.remembered.step (finDiscipline_remembers r.unicode) h.sound e⟩

theorem FinReached.run (h : FinReached r b) (es : List (DatabaseEvent FinActivity)) :
    FinReached r (b.run (FinActivity.call r) es) := by
  induction es generalizing b with
  | nil => exact h
  | cons e es ih => exact ih (h.step e)

theorem FinReached.committed (h : FinReached r b) {e : DatabaseEvent FinActivity}
    {t : Session FinStore FinLock Failure FinReply FinActivity} {x : FinReply}
    (hc : b.committing e = some (t, x)) :
    OwnersKept t.draft.seen b.store ∧ ∃ w, FinCommit r.unicode t.activity w t.draft b.store
      (b.step (FinActivity.call r) e).store := by
  refine ⟨?_, Database.Sound.committed h.sound hc⟩
  cases e with
  | start i a => cases hc
  | kill i => cases hc
  | advance i =>
      simp only [Database.committing] at hc
      split at hc
      · cases hc
      · rename_i t' hi
        split at hc
        · cases hc
          exact ownersKept_of_remembered h.remembered hi
        · cases hc

theorem FinReached.tells_step (h : FinReached r b) (e : DatabaseEvent FinActivity) :
    RevisionTells b.store (b.step (FinActivity.call r) e).store := by
  cases hc : b.committing e with
  | none =>
      rw [Database.store_step, hc]
      exact RevisionTells.refl _
  | some tx =>
      obtain ⟨hkept, w, hcommit⟩ := h.committed hc
      exact hcommit.revisionTells hkept

theorem FinReached.tells_run (h : FinReached r b) (es : List (DatabaseEvent FinActivity)) :
    RevisionTells b.store (b.run (FinActivity.call r) es).store := by
  induction es generalizing b with
  | nil => exact RevisionTells.refl _
  | cons e es ih => exact (h.tells_step e).trans (ih (h.step e))

end Runs

/-! ## The law -/

def Rewrites (r : FinRuntime) (b : FinDatabase) (e : DatabaseEvent FinActivity) (id : Nat)
    (p p' : Project) : Prop :=
  b.store.projects.find? id = some p ∧
    (b.step (FinActivity.call r) e).store.projects.find? id = some p'

def ContentChanges (r : FinRuntime) (b : FinDatabase) (e : DatabaseEvent FinActivity) (id : Nat)
    (p p' : Project) : Prop :=
  p'.toProjectData ≠ p.toProjectData ∨
    ∃ kind, (b.step (FinActivity.call r) e).store.detailsOf kind id ≠ b.store.detailsOf kind id

/-- What the revisions of projects say from a state on. -/
structure RevisionLaw (r : FinRuntime) (b : FinDatabase) : Prop where
  /-- A change of the content raises the revision. -/
  raised : ∀ e id p p', Rewrites r b e id p p' → ContentChanges r b e id p p' →
    p.dataRevision < p'.dataRevision
  /-- What raises a revision, apart from an overwrite and a restore, records a difference. -/
  recorded : ∀ e t x id p p', b.committing e = some (t, x) → Rewrites r b e id p p' →
    p.dataRevision < p'.dataRevision → t.activity.isImport = false →
    t.activity.isRestore = false → ∃ n operation, b.store.projectOperations.find? n = none ∧
      (b.step (FinActivity.call r) e).store.projectOperations.find? n = some operation ∧
        operation.projectId = id ∧ operation.before ≠ operation.after
  /-- An import writes over a project at the revision it was told. -/
  chosen : ∀ e t x id p p', b.committing e = some (t, x) → Rewrites r b e id p p' →
    t.activity.isImport = true → p.dataRevision < p'.dataRevision →
      t.activity.Chose id p.dataRevision
  /-- At one revision a project has one content. -/
  tells : ∀ es, RevisionTells b.store (b.run (FinActivity.call r) es).store
  /-- An overwrite that was told the revision of now finds the content of now. -/
  lossless : ∀ es e t x id q p p', (b.run (FinActivity.call r) es).committing e = some (t, x) →
    b.store.projects.find? id = some q → Rewrites r (b.run (FinActivity.call r) es) e id p p' →
    t.activity.isImport = true → p.dataRevision < p'.dataRevision →
    (∀ n, t.activity.Chose id n → n = q.dataRevision) → p.toProjectData = q.toProjectData ∧
      ∀ kind, (b.run (FinActivity.call r) es).store.detailsOf kind id = b.store.detailsOf kind id

theorem FinReached.chosen {r : FinRuntime} (h : FinReached r b) {e : DatabaseEvent FinActivity}
    {x : FinReply} {p p' : Project} (hc : b.committing e = some (t, x))
    (hrows : Rewrites r b e id p p') (hlt : p.dataRevision < p'.dataRevision) :
    t.activity.Chose id p.dataRevision := by
  obtain ⟨-, w, hcommit⟩ := h.committed hc
  rcases hcommit.project hrows.1 with hsame | ⟨q, -, hwrites, -⟩
  · obtain rfl := Option.some.inj (hrows.2.symm.trans hsame)
    exact absurd hlt (Nat.lt_irrefl _)
  · exact hcommit.permit.chosen id p.dataRevision hwrites.allowed

theorem FinReached.revisionLaw {r : FinRuntime} (h : FinReached r b) : RevisionLaw r b where
  raised e id p p' hrows hchanges := by
    obtain ⟨q, hq, hle, hsame⟩ := h.tells_step e id p hrows.1
    obtain rfl := Option.some.inj (hrows.2.symm.trans hq)
    refine Nat.lt_of_le_of_ne hle fun heq => ?_
    obtain ⟨hdata, hdetails⟩ := hsame heq.symm
    rcases hchanges with hne | ⟨kind, hne⟩
    · exact hne hdata
    · exact hne (hdetails kind)
  recorded e t x id p p' hc hrows hlt himport hrestore := by
    obtain ⟨-, w, hcommit⟩ := h.committed hc
    have hwrites : w.Writes r.unicode id p p' := by
      rcases hcommit.project hrows.1 with hsame | ⟨q, hq, hwrites, -⟩
      · obtain rfl := Option.some.inj (hrows.2.symm.trans hsame)
        exact absurd hlt (Nat.lt_irrefl _)
      · obtain rfl := Option.some.inj (hrows.2.symm.trans hq)
        exact hwrites
    rcases hcommit.recorded id (hwrites.raised hlt) with h | h | huntouched | hrecorded
    · simp [himport] at h
    · simp [hrestore] at h
    · have hsame := (huntouched id).trans hrows.1
      obtain rfl := Option.some.inj (hrows.2.symm.trans hsame)
      exact absurd hlt (Nat.lt_irrefl _)
    · obtain ⟨n, operation, -, hnone, hfind, hid, hne⟩ := hrecorded
      exact ⟨n, operation, hnone, hfind, hid, hne⟩
  chosen e t x id p p' hc hrows _ hlt := h.chosen hc hrows hlt
  tells es := h.tells_run es
  lossless es e t x id q p p' hc hq hrows _ hlt hchosen := by
    have hrevision := hchosen _ ((h.run es).chosen hc hrows hlt)
    obtain ⟨p₀, hp₀, -, hsame⟩ := h.tells_run es id q hq
    obtain rfl := Option.some.inj (hrows.1.symm.trans hp₀)
    exact hsame hrevision

/-- The law holds in every state that a run reaches. -/
theorem revisionLaw_of_run (r : FinRuntime) {n : Nat} {s : FinStore} (hn : UnusedFrom n s)
    (hkeyed : Keyed s) (es : List (DatabaseEvent FinActivity)) :
    RevisionLaw r ((Database.init n s).run (FinActivity.call r) es) :=
  ((finReached_init hn hkeyed).run es).revisionLaw

/-- A name saved over a project. -/
theorem revisionLaw_saved : RevisionLaw plainRuntime ((Database.init 2 oneProject).run
    (FinActivity.call plainRuntime) (session 0 (saveCell "name" (.str "beta")))) :=
  revisionLaw_of_run plainRuntime unusedFrom_oneProject keyed_oneProject _

/-! ## An overwrite that changes nothing -/

def oneRowRuntime : FinRuntime :=
  { plainRuntime with
    number := fun text => if text = "2024" then some 2024 else none
    parse := fun _ => .ok
      { rows := [⟨2, .project, none, [none, some "alpha", none, some "2024"]⟩]
        errors := []
        nodup := by decide } }

/-- The project that the row builds. -/
def importedProject : Project :=
  { plainProject "alpha" 2024 with
    completenessDocs := some []
    progressSemantic := some .tentative }

def oneImported : FinStore :=
  { FinStore.empty with projects := Table.empty.insert 1 importedProject }

/-- The row is to be written over the project, at its revision. -/
def overwriteSame : FinActivity :=
  activityOf (.importConfirm [] ⟨[⟨2, .overwrite, some 1, some 1, none⟩], none⟩)

/-- The overwrite changes no field and no amount, and raises the revision. -/
theorem overwriteSame_raises : ∃ p p', oneImported.projects.find? 1 = some p ∧
    ((Database.init 2 oneImported).run (FinActivity.call oneRowRuntime)
      (session 0 overwriteSame)).store.projects.find? 1 = some p' ∧
    p'.toProjectData = p.toProjectData ∧ p.dataRevision < p'.dataRevision ∧
    ∀ kind, ((Database.init 2 oneImported).run (FinActivity.call oneRowRuntime)
      (session 0 overwriteSame)).store.detailsOf kind 1 = oneImported.detailsOf kind 1 := by
  refine ⟨importedProject, { importedProject with dataRevision := 2 }, ?_, ?_, rfl, ?_, ?_⟩
  · decide +kernel
  · decide +kernel
  · decide
  · intro kind
    cases kind <;> decide +kernel

end Wbme.Fin
