import Wbme.Fin.Operations
import Wbme.Fin.Statements
import Wbme.IdempotencyAmid

/-! # What finance operations commit

Every commit writes projects and amounts behind their locks, under a permit of its operation.
Amounts of a project change only in a commit that raises the revision of the project behind
its lock, as long as no amount has come to another project since it was read.
-/

namespace Wbme.Fin

open Lib

abbrev FinDraft := Draft FinStore FinLock

/-! ## Activities -/

def FinActivity.isRestore (a : FinActivity) : Bool :=
  match a.operation with
  | .projectRestore _ _ => true
  | _ => false

def FinActivity.isImport (a : FinActivity) : Bool :=
  match a.operation with
  | .importConfirm _ _ => true
  | _ => false

/-- An import was told to write over a project at a revision. -/
def FinActivity.Chose (a : FinActivity) (id dataRevision : Nat) : Prop :=
  ∀ buffer dto, a.operation = .importConfirm buffer dto → ∃ choice ∈ dto.choices,
    choice.decision = .overwrite ∧ choice.projectId = some id ∧
      choice.dataRevision = some dataRevision

/-- The project whose year is saved. -/
def FinActivity.yearTarget (a : FinActivity) : Option Nat :=
  match a.operation with
  | .cellSave dto => if dto.field = "year" then some dto.projectId else none
  | _ => none

/-- Where the look at the project stands among the statements of a cell save. -/
def FinActivity.projectReadAt (a : FinActivity) : Nat :=
  match a.operation with
  | .cellSave dto => if (dto.idempotencyKey.filter (· ≠ "")).isSome then 1 else 0
  | _ => 0

/-- A year is saved whose project has another name by now than the one that was read. -/
def FinActivity.staleYear (u : Unicode) (a : FinActivity) (d : FinDraft) (s : FinStore) : Bool :=
  a.yearTarget.any fun id => d.holds.contains (.lock (.project id)) &&
    (d.seen[a.projectReadAt]?).any fun v => (v.projects.find? id).any fun p =>
      (s.projects.find? id).any fun q =>
        normalizeProjectName u p.name != normalizeProjectName u q.name

structure Permit.For (a : FinActivity) (seen : List FinStore) (w : Permit) : Prop where
  restores : a.isRestore = true → w.restores
  chosen : ∀ id n, w.writes id n → a.Chose id n
  read : ∀ n, w.readName = some n → ∃ id v p, a.yearTarget = some id ∧
    (∀ i m, w.writes i m → i = id) ∧ seen[a.projectReadAt]? = some v ∧
    v.projects.find? id = some p ∧ p.name = n
  owned : ∀ k, w.detail = some k → ∃ v ∈ seen, ∃ x, detailsRows.row k v = some x ∧
    w.owners x.projectId

/-! ## Commits -/

/-- The revision of a project has gone up behind its lock. -/
def Raised (id : Nat) (H : List (Hold FinLock)) (s s' : FinStore) : Prop :=
  .lock (.project id) ∈ H ∧ ∃ p p', s.projects.find? id = some p ∧
    s'.projects.find? id = some p' ∧ p.dataRevision < p'.dataRevision

/-- A difference was recorded for a project. -/
def Recorded (id : Nat) (H : List (Hold FinLock)) (s s' : FinStore) : Prop :=
  ∃ n operation, .key n ∈ H ∧ s.projectOperations.find? n = none ∧
    s'.projectOperations.find? n = some operation ∧ operation.projectId = id ∧
    operation.before ≠ operation.after

/-- No amount that was seen belongs to another project now. -/
def OwnersKept (seen : List FinStore) (s : FinStore) : Prop :=
  ∀ v ∈ seen, ∀ k x y, detailsRows.row k v = some x → detailsRows.row k s = some y →
    x.projectId = y.projectId

structure FinCommit (u : Unicode) (a : FinActivity) (w : Permit) (d : FinDraft)
    (s s' : FinStore) : Prop where
  projects : projectRows.Commits (projectRule u w) d.holds s s'
  details : detailsRows.Commits (detailRule w) d.holds s s'
  operations : operationRows.Commits operationRule d.holds s s'
  keys : ∀ id p', s'.projects.find? id = some p' →
    (∃ p, s.projects.find? id = some p ∧ p.key = p'.key) ∨ (.lock (keyLock p'.key) ∈ d.holds ∧
      ∀ p, s.projects.find? id = some p → .lock (keyLock p.key) ∈ d.holds)
  keyed : Keyed s → Keyed s'
  permit : w.For a d.seen
  accounted : ∀ id, w.owners id → (∀ k, detailsRows.row k s' = detailsRows.row k s) ∨
    Raised id d.holds s s' ∨ s.projects.find? id = none
  recorded : ∀ id, w.raises id → a.isImport = true ∨ a.isRestore = true ∨
    (∀ i, s'.projects.find? i = s.projects.find? i) ∨ Recorded id d.holds s s'

structure UnusedFrom (n : Nat) (s : FinStore) : Prop where
  projects : ∀ k, n ≤ projectRows.keyOf k → projectRows.row k s = none
  details : ∀ k, n ≤ detailsRows.keyOf k → detailsRows.row k s = none
  operations : ∀ k, n ≤ operationRows.keyOf k → operationRows.row k s = none

def finDiscipline (u : Unicode) : Discipline FinStore FinLock FinReply FinActivity where
  invariant := Keyed
  unused := UnusedFrom
  commits a _ d s s' := ∃ w, FinCommit u a w d s s'
  invariant_of_commits := fun _ _ _ _ _ ⟨_, h⟩ hs => h.keyed hs
  unused_of_le _ _ _ h hle :=
    ⟨fun k hk => h.projects k (Nat.le_trans hle hk), fun k hk => h.details k (Nat.le_trans hle hk),
      fun k hk => h.operations k (Nat.le_trans hle hk)⟩
  unused_of_commits := fun _ _ _ _ _ _ ⟨_, h⟩ hs hkeys =>
    ⟨h.projects.unused hs.projects hkeys, h.details.unused hs.details hkeys,
      h.operations.unused hs.operations hkeys⟩

variable {a : FinActivity}

theorem Permit.For.mono {seen seen' : List FinStore} {w : Permit} (h : w.For a seen)
    (hseen : seen <+: seen') : w.For a seen' where
  restores := h.restores
  chosen := h.chosen
  read n hn := by
    obtain ⟨id, v, p, htarget, hwrites, hv, hp, hname⟩ := h.read n hn
    obtain ⟨later, rfl⟩ := hseen
    refine ⟨id, v, p, htarget, hwrites, ?_, hp, hname⟩
    rw [List.getElem?_append_left (List.getElem?_eq_some_iff.mp hv).1, hv]
  owned k hk := by
    obtain ⟨v, hv, x, hx, howner⟩ := h.owned k hk
    exact ⟨v, hseen.subset hv, x, hx, howner⟩

theorem permitFor_none (a : FinActivity) (seen : List FinStore) : Permit.none.For a seen where
  restores _ := trivial
  chosen _ _ h := nomatch h
  read _ h := nomatch h
  owned _ h := nomatch h

theorem finDiscipline_logs (u : Unicode) : finLog.Logs (finDiscipline u) where
  idle a _ d s _ :=
    ⟨Permit.none,
      { projects := RowFamily.commits_refl _ _
        details := RowFamily.commits_refl _ _
        operations := RowFamily.commits_refl _ _
        keys := fun id p' hp' => .inl ⟨p', hp', rfl⟩
        keyed := fun hs => hs
        permit := permitFor_none a d.seen
        accounted := fun _ h => nomatch h
        recorded := fun _ h => nomatch h }⟩
  insert := by
    rintro a _ d d' s s' n row ⟨w, h⟩ hholds hseen -
    exact ⟨w,
      { projects := (h.projects.mono hholds).congr fun _ => rfl
        details := (h.details.mono hholds).congr fun _ => by simp [detailsRows, finLog]
        operations := (h.operations.mono hholds).congr fun _ => rfl
        keys := fun id p' hp' => (h.keys id p' hp').imp_right fun hk =>
          ⟨hholds hk.1, fun p hp => hholds (hk.2 p hp)⟩
        keyed := h.keyed
        permit := h.permit.mono hseen
        accounted := fun id hid => (h.accounted id hid).imp
          (fun hsame k => (by simp [detailsRows, finLog] : _ = detailsRows.row k s').trans (hsame k))
          fun hraised => hraised.imp_left fun hraised => ⟨hholds hraised.1, hraised.2⟩
        recorded := fun id hid => (h.recorded id hid).imp_right fun hr => hr.imp_right fun hr =>
          hr.imp_right fun ⟨m, operation, hm, hrest⟩ => ⟨m, operation, hholds hm, hrest⟩ }⟩

section Rely

variable {u : Unicode} {H : List (Hold FinLock)} {s s' : FinStore}

theorem freezes_projects (u : Unicode) : projectRows.Freezes (finDiscipline u).Rely :=
  RowFamily.freezes_rely fun _ _ _ _ _ ⟨w, h⟩ => ⟨projectRule u w, h.projects⟩

theorem freezes_details (u : Unicode) : detailsRows.Freezes (finDiscipline u).Rely :=
  RowFamily.freezes_rely fun _ _ _ _ _ ⟨w, h⟩ => ⟨detailRule w, h.details⟩

theorem freezes_operations (u : Unicode) : operationRows.Freezes (finDiscipline u).Rely :=
  RowFamily.freezes_rely fun _ _ _ _ _ ⟨_, h⟩ => ⟨operationRule, h.operations⟩

theorem key_kept (hrely : (finDiscipline u).Rely H s s') {key : String × Nat}
    (hlock : .lock (keyLock key) ∈ H) (id : Nat) :
    (∃ p, s'.projects.find? id = some p ∧ p.key = key) ↔
      ∃ p, s.projects.find? id = some p ∧ p.key = key := by
  apply hrely.induction (P := fun s s' =>
    (∃ p, s'.projects.find? id = some p ∧ p.key = key) ↔
      ∃ p, s.projects.find? id = some p ∧ p.key = key)
  · exact fun _ => Iff.rfl
  · exact fun _ _ _ h h' => h'.trans h
  intro a x d s s' ⟨w, h⟩ hapart
  have hnot : .lock (keyLock key) ∉ d.holds := fun hmem => hapart _ hmem hlock
  constructor
  · intro ⟨p', hp', hkey⟩
    rcases h.keys id p' hp' with ⟨p, hp, hsame⟩ | ⟨hlocked, -⟩
    · exact ⟨p, hp, hsame.trans hkey⟩
    · exact absurd (hkey ▸ hlocked) hnot
  · intro ⟨p, hp, hkey⟩
    rcases h.projects.rel hp with hsame | ⟨_, p', -, hp', -⟩
    · exact ⟨p, hsame, hkey⟩
    · rcases h.keys id p' hp' with ⟨q, hq, hsame⟩ | ⟨-, hlocked⟩
      · obtain rfl := Option.some.inj (hp.symm.trans hq)
        exact ⟨p', hp', hsame.symm.trans hkey⟩
      · exact absurd (hkey ▸ hlocked p hp) hnot

end Rely

/-! ## Drafts -/

structure FinCareful (u : Unicode) (w : Permit) (d : FinDraft) (s : FinStore) : Prop where
  projects : projectRows.Careful (projectRule u w) d s
  details : detailsRows.Careful (detailRule w) d s
  operations : operationRows.Careful operationRule d s
  keys : ∀ id p', (d.change s).projects.find? id = some p' →
    (∃ p, s.projects.find? id = some p ∧ p.key = p'.key) ∨ (.lock (keyLock p'.key) ∈ d.holds ∧
      ∀ p, s.projects.find? id = some p → .lock (keyLock p.key) ∈ d.holds)
  keyed : Keyed (d.change s)

section Careful

variable {u : Unicode} {w : Permit} {d : FinDraft} {s s' : FinStore}

theorem finCareful_of_idle (hidle : d.Idle) (hkeys : ∀ n, .key n ∉ d.holds) (hs : Keyed s) :
    FinCareful u w d s where
  projects := RowFamily.careful_of_idle hidle hkeys
  details := RowFamily.careful_of_idle hidle hkeys
  operations := RowFamily.careful_of_idle hidle hkeys
  keys id p' hp' := by
    rw [hidle s] at hp'
    exact .inl ⟨p', hp', rfl⟩
  keyed := by
    rw [hidle s]
    exact hs

theorem FinCareful.keysLater (h : FinCareful u w d s)
    (hs : (finDiscipline u).Rely d.holds s s') (id : Nat) (p' : Project)
    (hp' : (d.change s').projects.find? id = some p') :
    (∃ p, s'.projects.find? id = some p ∧ p.key = p'.key) ∨ (.lock (keyLock p'.key) ∈ d.holds ∧
      (d.change s').projects.find? id = (d.change s).projects.find? id) := by
  rcases h.projects.kept (freezes_projects u) hs id with hsame | ⟨hrow, hchange⟩
  · exact .inl ⟨p', (hsame s').symm.trans hp', rfl⟩
  · rcases h.keys id p' (hchange.symm.trans hp') with ⟨p, hp, hkey⟩ | ⟨hlock, -⟩
    · exact .inl ⟨p, hrow.trans hp, hkey⟩
    · exact .inr ⟨hlock, hchange⟩

theorem FinCareful.later (h : FinCareful u w d s) (hs : (finDiscipline u).Rely d.holds s s') :
    FinCareful u w d s' where
  projects := h.projects.later (freezes_projects u) hs
  details := h.details.later (freezes_details u) hs
  operations := h.operations.later (freezes_operations u) hs
  keys id p' hp' := by
    rcases h.projects.kept (freezes_projects u) hs id with hsame | ⟨hrow, hchange⟩
    · exact .inl ⟨p', (hsame s').symm.trans hp', rfl⟩
    · replace hrow : s'.projects.find? id = s.projects.find? id := hrow
      rw [hrow]
      exact h.keys id p' (hchange.symm.trans hp')
  keyed := by
    -- a project that the draft leaves alone got no key behind its lock
    have hone : ∀ i j p q, (d.change s').projects.find? i = some p →
        (d.change s').projects.find? j = some q → p.key = q.key →
        (d.change s').projects.find? i = (d.change s).projects.find? i →
        .lock (keyLock p.key) ∈ d.holds → i = j := by
      intro i j p q hp hq hkey hi hlock
      have hi' : (d.change s).projects.find? i = some p := hi.symm.trans hp
      rcases h.projects.kept (freezes_projects u) hs j with hsame | ⟨-, hchange⟩
      · have hj : s'.projects.find? j = some q := (hsame s').symm.trans hq
        obtain ⟨q', hq', hkey'⟩ := (key_kept hs hlock j).mp ⟨q, hj, hkey.symm⟩
        exact h.keyed i j p q' hi' ((hsame s).trans hq') hkey'.symm
      · exact h.keyed i j p q hi' (hchange.symm.trans hq) hkey
    intro i j p q hp hq hkey
    have hlater := h.keysLater hs
    rcases hlater i p hp with ⟨p₀, hp₀, hsame⟩ | ⟨hlock, hi⟩
    · rcases hlater j q hq with ⟨q₀, hq₀, hsame'⟩ | ⟨hlock, hj⟩
      · exact hs.1 i j p₀ q₀ hp₀ hq₀ (hsame.trans (hkey.trans hsame'.symm))
      · exact (hone j i q p hq hp hkey.symm hj hlock).symm
    · exact hone i j p q hp hq hkey hi hlock

variable {c : FinStore → FinStore → FinStore} {l : FinStore → List FinLock}

variable {drawn : List Nat} {id : Nat}

theorem FinCareful.execute (h : FinCareful u w d s) (hdrawn : ∀ n ∈ drawn, .key n ∈ d.holds)
    (hc : FinStatement u w drawn l c) :
    FinCareful u w (d.execute s (l (d.change s)) (c (d.change s))) s where
  projects := h.projects.execute hdrawn hc.projects
  details := h.details.execute hdrawn hc.details
  operations := h.operations.execute hdrawn hc.operations
  keys id p'' hp'' := by
    have hnew : ∀ {r}, r ∈ l (d.change s) →
        Hold.lock r ∈ d.holds ++ (l (d.change s)).map .lock :=
      fun hr => List.mem_append_right _ (List.mem_map_of_mem hr)
    have hold : ∀ {r}, r ∈ d.holds → r ∈ d.holds ++ (l (d.change s)).map .lock :=
      fun hr => List.mem_append_left _ hr
    rw [Draft.holds_execute]
    rcases hc.keys (d.change s) id p'' hp'' with ⟨p', hp', hkey⟩ | ⟨hlock, hbefore⟩
    · rw [← hkey]
      exact (h.keys id p' hp').imp_right fun hk => ⟨hold hk.1, fun p hp => hold (hk.2 p hp)⟩
    · refine .inr ⟨hnew hlock, fun p hp => ?_⟩
      rcases hbefore with hdraw | ⟨p', hp', hlock'⟩
      · have hnone := h.projects.fresh id (hdrawn id hdraw)
        rw [show s.projects.find? id = none from hnone] at hp
        cases hp
      · rcases h.keys id p' hp' with ⟨q, hq, hkey⟩ | ⟨-, hk⟩
        · obtain rfl := Option.some.inj (hp.symm.trans hq)
          rw [hkey]
          exact hnew hlock'
        · exact hold (hk p hp)
  keyed := hc.keyed _ h.keyed

theorem FinCareful.draw (h : FinCareful u w d s) {n : Nat} (hn : UnusedFrom n s) :
    FinCareful u w (d.draw n) s where
  projects := h.projects.draw fun k hk => hn.projects k (Nat.le_of_eq hk.symm)
  details := h.details.draw fun k hk => hn.details k (Nat.le_of_eq hk.symm)
  operations := h.operations.draw fun k hk => hn.operations k (Nat.le_of_eq hk.symm)
  keys id p' hp' := (h.keys id p' hp').imp_right fun hk =>
    ⟨List.mem_cons_of_mem _ hk.1, fun p hp => List.mem_cons_of_mem _ (hk.2 p hp)⟩
  keyed := h.keyed

/-! ## Raised revisions -/

theorem FinCareful.raised_later (h : FinCareful u w d s)
    (hraised : Raised id d.holds s (d.change s)) (hs : (finDiscipline u).Rely d.holds s s') :
    Raised id d.holds s' (d.change s') := by
  obtain ⟨hlock, p, p', hp, hp', hlt⟩ := hraised
  have hrow : s'.projects.find? id = s.projects.find? id :=
    freezes_projects u _ _ _ id hs (.inl ⟨_, rfl, hlock, by simp [projectRows, hp]⟩)
  exact ⟨hlock, p, p', hrow.trans hp, (h.projects.alone _ _ id hrow).trans hp', hlt⟩

theorem FinCareful.raised_execute (h : FinCareful u w d s)
    (hraised : Raised id d.holds s (d.change s)) (hdrawn : ∀ n ∈ drawn, .key n ∈ d.holds)
    (hc : FinStatement u w drawn l c) :
    Raised id (d.execute s (l (d.change s)) (c (d.change s))).holds s
      (c (d.change s) (d.change s)) := by
  obtain ⟨hlock, p, p', hp, hp', hlt⟩ := hraised
  have hlock' : .lock (.project id) ∈ d.holds ++ (l (d.change s)).map Hold.lock :=
    List.mem_append_left _ hlock
  rcases hc.projects.changes (d.change s) id with (hsame | ⟨q, q', hq, hq', hwrites⟩) | ⟨hkey, -⟩
  · exact ⟨hlock', p, p', hp, hsame.trans hp', hlt⟩
  · obtain rfl := Option.some.inj (hp'.symm.trans hq)
    exact ⟨hlock', p, q', hp, hq', Nat.lt_of_lt_of_le hlt hwrites.revision⟩
  · have hnone := h.projects.fresh id (hdrawn id hkey)
    rw [show projectRows.row id s = some p from hp] at hnone
    cases hnone

theorem FinCareful.recorded_later (h : FinCareful u w d s)
    (hrecorded : Recorded id d.holds s (d.change s)) (hs : (finDiscipline u).Rely d.holds s s') :
    Recorded id d.holds s' (d.change s') := by
  obtain ⟨n, operation, hkey, hnone, hfind, hrest⟩ := hrecorded
  have hrow : s'.projectOperations.find? n = s.projectOperations.find? n :=
    freezes_operations u _ _ _ n hs (.inr ⟨hnone, hkey⟩)
  exact ⟨n, operation, hkey, hrow.trans hnone, (h.operations.alone _ _ n hrow).trans hfind, hrest⟩

theorem FinCareful.recorded_execute (hrecorded : Recorded id d.holds s (d.change s))
    (hc : ∀ v t, (c v t).projectOperations = t.projectOperations) :
    Recorded id (d.execute s (l (d.change s)) (c (d.change s))).holds s
      (c (d.change s) (d.change s)) := by
  obtain ⟨n, operation, hkey, hnone, hfind, hrest⟩ := hrecorded
  refine ⟨n, operation, List.mem_append_left _ hkey, hnone, ?_, hrest⟩
  rw [hc]
  exact hfind

/-! ## Under way -/

/-- A draft under way, with what it has seen so far. -/
structure FinGoing (u : Unicode) (w : Permit) (seen : List FinStore) (d : FinDraft)
    (s : FinStore) : Prop where
  careful : FinCareful u w d s
  seen : seen <+: d.seen

variable {seen : List FinStore}

theorem FinGoing.later (h : FinGoing u w seen d s)
    (hs : (finDiscipline u).Rely d.holds s s') : FinGoing u w seen d s' :=
  ⟨h.careful.later hs, h.seen⟩

theorem FinGoing.execute (h : FinGoing u w seen d s) (hdrawn : ∀ n ∈ drawn, .key n ∈ d.holds)
    (hc : FinStatement u w drawn l c) :
    FinGoing u w seen (d.execute s (l (d.change s)) (c (d.change s))) s :=
  ⟨h.careful.execute hdrawn hc, h.seen.trans (List.prefix_append _ _)⟩

theorem FinGoing.draw (h : FinGoing u w seen d s) {n : Nat} (hn : UnusedFrom n s) :
    FinGoing u w seen (d.draw n) s := ⟨h.careful.draw hn, h.seen⟩

theorem tracks_finGoing (u : Unicode) (w : Permit) (seen : List FinStore) :
    Txn.Tracks (FinStatement u w) (finDiscipline u).Rely (finDiscipline u).unused
      (FinGoing u w seen) where
  statement _ _ _ _ _ _ h hs hdrawn hc := (h.later hs).execute hdrawn hc
  draw _ _ _ _ h hs hn _ := (h.later hs).draw hn

def RaisedBy (d : FinDraft) (s : FinStore) (id : Nat) : Prop :=
  Raised id d.holds s (d.change s) ∨ .key id ∈ d.holds

theorem tracks_raised (u : Unicode) (w : Permit) (seen : List FinStore) (ids : Nat → Prop) :
    Txn.Tracks (FinStatement u w) (finDiscipline u).Rely (finDiscipline u).unused
      (fun d s => FinGoing u w seen d s ∧ ∀ id, ids id → RaisedBy d s id) where
  statement _ _ _ _ _ _ h hs hdrawn hc :=
    have hlater := h.1.later hs
    ⟨hlater.execute hdrawn hc, fun id hid => (h.2 id hid).imp
      (fun hraised =>
        hlater.careful.raised_execute (h.1.careful.raised_later hraised hs) hdrawn hc)
      (List.mem_append_left _)⟩
  draw _ _ _ _ h hs hn _ :=
    ⟨(h.1.later hs).draw hn, fun id hid => (h.2 id hid).imp
      (fun hraised =>
        have hlater := h.1.careful.raised_later hraised hs
        ⟨List.mem_cons_of_mem _ hlater.1, hlater.2⟩)
      (List.mem_cons_of_mem _)⟩

theorem tracks_recorded (u : Unicode) (w : Permit) (seen : List FinStore) (id : Nat) :
    Txn.Tracks (fun drawn l c => FinStatement u w drawn l c ∧
        ∀ v t, (c v t).projectOperations = t.projectOperations)
      (finDiscipline u).Rely (finDiscipline u).unused
      (fun d s => FinGoing u w seen d s ∧ Recorded id d.holds s (d.change s)) where
  statement _ _ _ _ _ _ h hs hdrawn hc :=
    ⟨(h.1.later hs).execute hdrawn hc.1,
      FinCareful.recorded_execute (h.1.careful.recorded_later h.2 hs) hc.2⟩
  draw _ _ _ _ h hs hn _ := by
    obtain ⟨n, operation, hkey, hrest⟩ := h.1.careful.recorded_later h.2 hs
    exact ⟨(h.1.later hs).draw hn, n, operation, List.mem_cons_of_mem _ hkey, hrest⟩

/-! ## Ends -/

/-- A draft that may be committed: the amounts of a project changed with its revision only,
and a revision that went up was recorded. -/
structure FinSettled (u : Unicode) (a : FinActivity) (w : Permit) (d : FinDraft)
    (s : FinStore) : Prop where
  careful : FinCareful u w d s
  permit : w.For a d.seen
  accounted : ∀ id, w.owners id → (∀ t k, detailsRows.row k (d.change t) = detailsRows.row k t) ∨
    RaisedBy d s id
  recorded : ∀ id, w.raises id → a.isImport = true ∨ a.isRestore = true ∨
    (∀ t i, (d.change t).projects.find? i = t.projects.find? i) ∨
      Recorded id d.holds s (d.change s)

theorem FinSettled.commit (h : FinSettled u a w d s) (hs : (finDiscipline u).Rely d.holds s s') :
    FinCommit u a w d s' (d.change s') :=
  have hlater := h.careful.later hs
  { projects := hlater.projects.commits
    details := hlater.details.commits
    operations := hlater.operations.commits
    keys := hlater.keys
    keyed := fun _ => hlater.keyed
    permit := h.permit
    accounted := fun id hid => (h.accounted id hid).imp (fun hsame => hsame s') fun hraised =>
      hraised.imp (fun hraised => h.careful.raised_later hraised hs) (hlater.projects.fresh id)
    recorded := fun id hid => (h.recorded id hid).imp_right fun hr => hr.imp_right fun hr =>
      hr.imp (fun hsame => hsame s') fun hrecorded => h.careful.recorded_later hrecorded hs }

theorem allowedRun_of_settled {run : FinTx (IdempotentOutcome FinReply)}
    (h : run.amid (finDiscipline u).Rely (finDiscipline u).unused
      (fun _ d s => ∃ w, FinSettled u a w d s) d s) : AllowedRun (finDiscipline u) a run d s :=
  Txn.amid_mono h fun _ _ _ ⟨w, hw⟩ _ hs => ⟨w, hw.commit hs⟩

end Careful

end Wbme.Fin
