import Wbme.Fin.ImportCommits

/-! # Business keys

No two projects have one key, in any interleaving. The key of a project is the normal form of
its name as long as nobody renames a project between the look and the write of a year.
-/

namespace Wbme.Fin

open Lib

abbrev FinDatabase := Database FinStore FinLock Failure FinReply FinActivity

/-! ## The law -/

structure KeysLawful (u : Unicode) (s : FinStore) : Prop where
  named : ∀ id p, s.projects.find? id = some p → p.isLive = true → p.Lawful u
  keyed : ∀ i j p q, s.projects.find? i = some p → s.projects.find? j = some q →
    p.isLive = true → q.isLive = true → p.key = q.key → i = j

/-- All projects have the keys of their names, also those that may be restored. -/
def AllLawful (u : Unicode) (s : FinStore) : Prop :=
  ∀ id p, s.projects.find? id = some p → p.Lawful u

theorem keysLawful_of_all {u : Unicode} {s : FinStore} (hkeyed : Keyed s) (h : AllLawful u s) :
    KeysLawful u s where
  named id p hp _ := h id p hp
  keyed i j p q hp hq _ _ hkey := hkeyed i j p q hp hq hkey

section Commits

variable {u : Unicode} {a : FinActivity} {d : FinDraft} {s s' : FinStore}

theorem FinCommit.lawful_of_read {w : Permit} (h : FinCommit u a w d s s') {id : Nat}
    {p p' : Project} (hp : s.projects.find? id = some p) (hwrites : w.Writes u id p p')
    (hlock : .lock (.project id) ∈ d.holds) {n : String} (hn : w.readName = some n)
    (hkey : p'.businessKey = normalizeProjectName u n) (hfresh : a.staleYear u d s = false) :
    p'.Lawful u := by
  obtain ⟨target, v, q, htarget, honly, hv, hq, rfl⟩ := h.permit.read n hn
  obtain rfl : id = target := honly id p.dataRevision hwrites.allowed
  have hsame : normalizeProjectName u q.name = normalizeProjectName u p.name := by
    simpa [FinActivity.staleYear, htarget, hlock, hv, hq, hp] using hfresh
  have hname : p'.name = p.name := hwrites.keepsName (by simp [hn])
  show p'.businessKey = normalizeProjectName u p'.name
  rw [hkey, hsame, hname]

theorem FinCommit.lawful {w : Permit} (h : FinCommit u a w d s s') (hs : AllLawful u s)
    (hfresh : a.staleYear u d s = false) : AllLawful u s' := by
  intro id p' hp'
  rcases h.projects.changes id with (hsame | ⟨p, q, hp, hq, hwrites⟩) | ⟨-, -, hborn⟩
  · exact hs id p' (hsame.symm.trans hp')
  · obtain rfl : q = p' := Option.some.inj (hq.symm.trans hp')
    rcases hwrites.named with ⟨hname, hkey⟩ | hlawful | ⟨n, hn, hkey⟩
    · show q.businessKey = normalizeProjectName u q.name
      rw [hkey, hname]
      exact hs id p hp
    · exact hlawful
    · rcases h.projects.guarded id with hsame | ⟨r, hr, hlock, -⟩ | ⟨hnone, -⟩
      · exact hs id q (hsame.symm.trans hp')
      · cases hr
        exact h.lawful_of_read hp hwrites hlock hn hkey hfresh
      · cases hnone.symm.trans hp
  · exact (hborn p' hp').2

end Commits

section Runs

variable (r : FinRuntime)

/-- No year is about to be committed for a project that got another name after it was read. -/
def YearsFresh (b : FinDatabase) (e : DatabaseEvent FinActivity) : Prop :=
  ∀ t x, b.committing e = some (t, x) → t.activity.staleYear r.unicode t.draft b.store = false

/-- Where years are saved for projects that keep their names meanwhile, keys are lawful. -/
theorem keysLawful_of_run {n : Nat} {s : FinStore} (hn : UnusedFrom n s) (hkeyed : Keyed s)
    (hs : AllLawful r.unicode s) {es : List (DatabaseEvent FinActivity)}
    (hes : (Database.init n s).Steps (FinActivity.call r) (YearsFresh r) es) :
    KeysLawful r.unicode ((Database.init n s).run (FinActivity.call r) es).store := by
  have hkept := finDiscipline_kept r
  have hinit : (Database.init n s : FinDatabase).Sound (finDiscipline r.unicode) :=
    Database.sound_init hkeyed hn
  have hall := Database.Sound.run_induction hkept
    (I := fun b => AllLawful r.unicode b.store) (fun b e hsound hb hfresh => ?_) hinit hs hes
  · exact keysLawful_of_all (hinit.run hkept es).invariant hall
  cases hc : b.committing e with
  | none => rwa [Database.store_step, hc]
  | some tx =>
      obtain ⟨w, hcommit⟩ := Database.Sound.committed hsound hc
      exact hcommit.lawful hb (hfresh tx.1 tx.2 hc)

instance (b : FinDatabase) (e : DatabaseEvent FinActivity) : Decidable (YearsFresh r b e) :=
  match h : b.committing e with
  | none => isTrue fun t x hc => by cases h.symm.trans hc
  | some tx => decidable_of_iff (tx.1.activity.staleYear r.unicode tx.1.draft b.store = false)
      ⟨fun hr t x hc => by
        obtain rfl := Option.some.inj (h.symm.trans hc)
        exact hr, fun hall => hall tx.1 tx.2 h⟩

end Runs

/-! ## A year and a name -/

/-- A runtime for texts that are in normal form already. -/
def plainRuntime : FinRuntime where
  unicode := ⟨id, id⟩
  number _ := none
  parse _ := .error (.of .validationFailed)
  stringify _ := ""
  precedes _ _ := true
  sha256 _ := ""

def plainProject (name : String) (year : Nat) : Project where
  name
  year
  businessKey := name
  completenessDocs := none
  regionId := none
  regionName := none
  progressId := none
  progressName := none
  progressSemantic := none
  bizCategoryId := none
  bizCategoryName := none
  partyA := none
  generalContractor := none
  managementFee := none
  subcontractors := []
  contractStartDate := none
  contractEndDate := none
  contractAmount := none
  paymentNode := none
  tentativeAuditedAmount := none
  settlement := none
  miscExpense := none
  remark := none
  dataRevision := 1
  updatedAt := 0
  deletedBy := none
  deletedAt := none

/-- One project, under the id 1. -/
def oneProject : FinStore :=
  { FinStore.empty with projects := Table.empty.insert 1 (plainProject "alpha" 2024) }

def activityOf (operation : FinOperation) : FinActivity where
  now := 0
  checkTimeout _ := .ok ()
  operator := ⟨1, "operator", []⟩
  operation

def saveCell (field : String) (value : Json) : FinActivity :=
  activityOf (.cellSave ⟨1, field, value, none⟩)

theorem find?_oneProject {id : Nat} {p : Project} (h : oneProject.projects.find? id = some p) :
    id = 1 ∧ p = plainProject "alpha" 2024 := by
  simp only [oneProject, Table.find?_insert] at h
  split at h
  · cases h
    exact ⟨‹_›, rfl⟩
  · cases h

theorem keyed_oneProject : Keyed oneProject := by
  intro i j p q hp hq _
  rw [(find?_oneProject hp).1, (find?_oneProject hq).1]

theorem allLawful_oneProject : AllLawful plainRuntime.unicode oneProject := by
  intro id p hp
  obtain ⟨-, rfl⟩ := find?_oneProject hp
  show "alpha" = normalizeProjectName plainRuntime.unicode "alpha"
  decide +kernel

theorem unusedFrom_oneProject : UnusedFrom 2 oneProject where
  projects k hk := by
    cases h : oneProject.projects.find? k with
    | none => exact h
    | some p =>
        have hone := (find?_oneProject h).1
        have htwo : 2 ≤ k := hk
        omega
  details k _ := by
    obtain ⟨kind, id⟩ := k
    cases kind <;> rfl
  operations _ _ := rfl

/-- A session carries out its operation. -/
def session (i : Nat) (a : FinActivity) : List (DatabaseEvent FinActivity) :=
  .start i a :: List.replicate 24 (.advance i)

/-- The year is read for the name "alpha" and written for the name "beta". -/
def renameAmidYear : List (DatabaseEvent FinActivity) :=
  [.start 0 (saveCell "year" (.num 2025)), .advance 0] ++
    session 1 (saveCell "name" (.str "beta")) ++ List.replicate 24 (.advance 0)

theorem not_keysLawful_renameAmidYear :
    KeysLawful plainRuntime.unicode oneProject ∧ ¬ KeysLawful plainRuntime.unicode
      ((Database.init 2 oneProject).run (FinActivity.call plainRuntime) renameAmidYear).store := by
  refine ⟨keysLawful_of_all keyed_oneProject allLawful_oneProject, fun h => ?_⟩
  have hbad : (((Database.init 2 oneProject).run (FinActivity.call plainRuntime)
      renameAmidYear).store.projects.find? 1).any (fun p => p.isLive &&
        p.businessKey != normalizeProjectName plainRuntime.unicode p.name) = true := by
    decide +kernel
  obtain ⟨p, hp, hlive⟩ := (Option.any_eq_true _ _).mp hbad
  simp only [Bool.and_eq_true, bne_iff_ne] at hlive
  exact hlive.2 (h.named 1 p hp hlive.1)

/-- One after the other, the year and the name leave the key of the name. -/
theorem keysLawful_of_run_in_order :
    KeysLawful plainRuntime.unicode ((Database.init 2 oneProject).run (FinActivity.call plainRuntime)
      (session 0 (saveCell "year" (.num 2025)) ++
        session 1 (saveCell "name" (.str "beta")))).store :=
  keysLawful_of_run plainRuntime unusedFrom_oneProject keyed_oneProject allLawful_oneProject
    (by decide +kernel)

end Wbme.Fin
