import Wbme.IdempotencyAmid

/-! # Racing calls of one key

Any number of calls run at once, a statement at a time. An insert waits for others that insert a
record of the same request, so the effects of a request are committed once, with its record.
-/

namespace Wbme

open Lib

structure LogRequest where
  operatorId : Nat
  scope : String
  key : String

section Races

variable {σ ρ ω : Type} {log : LogTable σ ρ ω}

/-- What a call executes leaves the log to the operation. -/
structure LoggedCall (log : LogTable σ ρ ω) where
  options : IdempotentOptions
  run : Txn σ ρ Failure (IdempotentOutcome ω)
  keeps : run.Leaves log.get

namespace LogTable

def records (log : LogTable σ ρ ω) (row : OperationLog ω) (q : LogRequest) : Bool :=
  row.isFor q.operatorId log.system q.scope q.key

def Free (log : LogTable σ ρ ω) (s : σ) (q : LogRequest) : Prop :=
  ∀ n row, (log.get s).find? n = some row → log.records row q = false

/-- A request has one record at most. -/
def Unique (log : LogTable σ ρ ω) (s : σ) : Prop :=
  ∀ q m n r r', (log.get s).find? m = some r → (log.get s).find? n = some r' →
    log.records r q = true → log.records r' q = true → m = n

def lockOf (log : LogTable σ ρ ω) (q : LogRequest) : Hold ρ :=
  .lock (log.lock q.operatorId q.scope q.key)

end LogTable

namespace LoggedCall

variable (c : LoggedCall log)

def call : Call σ ρ Failure ω := executeIdempotentOperation log c.options c.run

def request? : Option LogRequest := c.options.key.map (⟨c.options.operator.id, c.options.scope, ·⟩)

/-- The result is recorded for the call's request, if it has one, and fingerprint. -/
def Records (x : ω) (s : σ) : Prop :=
  ∀ q, c.request? = some q → ∃ n row, (log.get s).find? n = some row ∧ log.records row q = true ∧
    row.idempotency = some ⟨q.scope, q.key, c.options.fingerprint, x⟩

end LoggedCall

/-- What a commit does to the log. -/
inductive LogCommit (c : LoggedCall log) (H : List (Hold ρ)) (s : σ) : σ → Prop
  | same : LogCommit c H s s
  | logged {s' : σ} (n : Nat) (row : OperationLog ω) (hkey : .key n ∈ H)
      (hnew : (log.get s).find? n = none) (hlog : log.get s' = (log.get s).insert n row)
      (hown : ∀ q, c.request? = some q → log.records row q = true)
      (hfree : ∀ q, log.records row q = true → log.lockOf q ∈ H ∧ log.Free s q) :
      LogCommit c H s s'

namespace LogCommit

variable {c : LoggedCall log} {H : List (Hold ρ)} {s s' : σ} {n : Nat} {q : LogRequest}
  {row : OperationLog ω}

theorem row_kept (h : LogCommit c H s s') (hrow : (log.get s).find? n = some row) :
    (log.get s').find? n = some row := by
  cases h with
  | same => exact hrow
  | logged m _ _ hnew hlog =>
      have hne : n ≠ m := by
        intro heq
        cases hnew.symm.trans (heq ▸ hrow)
      rw [hlog, Table.find?_insert_ne _ _ hne]
      exact hrow

theorem records_kept (h : LogCommit c H s s') {c' : LoggedCall log} {x : ω}
    (hx : c'.Records x s) : c'.Records x s' := by
  intro q hq
  obtain ⟨n, row, hrow, hrecord⟩ := hx q hq
  exact ⟨n, row, h.row_kept hrow, hrecord⟩

theorem unborn (h : LogCommit c H s s') (hkey : .key n ∉ H)
    (hnone : (log.get s).find? n = none) : (log.get s').find? n = none := by
  cases h with
  | same => exact hnone
  | logged m _ hm _ hlog =>
      have hne : n ≠ m := fun heq => hkey (heq ▸ hm)
      rw [hlog, Table.find?_insert_ne _ _ hne]
      exact hnone

theorem free (h : LogCommit c H s s') (hlock : log.lockOf q ∉ H) (hs : log.Free s q) :
    log.Free s' q := by
  cases h with
  | same => exact hs
  | logged m row _ _ hlog _ hfree =>
      intro k r hr
      rw [hlog, Table.find?_insert] at hr
      split at hr
      · cases hr
        exact Bool.eq_false_iff.mpr fun hq => hlock (hfree q hq).1
      · exact hs k r hr

theorem unique (h : LogCommit c H s s') (hs : log.Unique s) : log.Unique s' := by
  cases h with
  | same => exact hs
  | logged k row _ _ hlog _ hfree =>
      intro q m n r r' hr hr' hq hq'
      rw [hlog, Table.find?_insert] at hr hr'
      split at hr
      · split at hr'
        · next hm hn => exact hm.trans hn.symm
        · cases hr
          cases ((hfree q hq).2 n r' hr').symm.trans hq'
      · split at hr'
        · cases hr'
          cases ((hfree q hq').2 m r hr).symm.trans hq
        · exact hs q m n r r' hr hr' hq hq'

theorem eq_of_recorded (h : LogCommit c H s s') (hq : c.request? = some q)
    (hrow : (log.get s).find? n = some row) (hrecord : log.records row q = true) : s' = s := by
  cases h with
  | same => rfl
  | logged _ _ _ _ _ hown hfree =>
      cases ((hfree q (hown q hq)).2 n row hrow).symm.trans hrecord

end LogCommit

def recordDiscipline (log : LogTable σ ρ ω) : Discipline σ ρ ω (LoggedCall log) where
  invariant := log.Unique
  unused n s := (log.get s).Below n
  commits c x d s s' := c.Records x s' ∧ LogCommit c d.holds s s'
  invariant_of_commits _ _ _ _ _ h hs := h.2.unique hs
  unused_of_le _ _ _ h hle := h.mono hle
  unused_of_commits _ _ _ _ _ _ h hs hkeys := by
    cases h.2 with
    | same => exact hs
    | logged n row hkey _ hlog =>
        rw [hlog]
        exact hs.insert (hkeys n hkey) row

section Calls

variable {c : LoggedCall log} {d : Draft σ ρ} {s : σ} {q : LogRequest}

theorem free_of_none (h : log.record? s q.operatorId q.scope q.key = none) : log.Free s q := by
  intro n row hrow
  refine Bool.eq_false_iff.mpr fun hq => ?_
  have hmem : (n, row) ∈ (log.get s).select fun _ r => log.records r q :=
    Table.mem_select.mpr ⟨hrow, hq⟩
  cases hsel : (log.get s).select fun _ r => log.records r q with
  | nil =>
      rw [hsel] at hmem
      cases hmem
  | cons first rest =>
      have hfirst := (Table.mem_select.mp (hsel ▸ List.mem_cons_self : first ∈ _)).2
      have hnone : first.2.idempotency = none := by
        unfold LogTable.record? at h
        unfold LogTable.records at hsel
        simpa [hsel] using h
      simp [LogTable.records, OperationLog.isFor, hnone] at hfirst

theorem records_of_replay {record : IdempotencyRecord ω} {x : ω} (hq : c.request? = some q)
    (hfound : log.record? s q.operatorId q.scope q.key = some record)
    (hreplay : replayIdempotencyRecord record c.options.fingerprint = .ok x) : c.Records x s := by
  intro q' hq'
  cases hq.symm.trans hq'
  obtain ⟨row, hrow, hrecord⟩ := Option.bind_eq_some_iff.mp hfound
  obtain ⟨hfind, hfor⟩ := Table.mem_select.mp (List.mem_of_head? hrow)
  refine ⟨row.1, row.2, hfind, hfor, ?_⟩
  simp only [OperationLog.isFor, hrecord, Option.any_some, Bool.and_eq_true, beq_iff_eq] at hfor
  unfold replayIdempotencyRecord at hreplay
  split at hreplay
  · cases hreplay
  · next hsame =>
      cases hreplay
      rw [hrecord, ← hfor.2.1, ← hfor.2.2, ← not_not.mp hsame]

theorem commits_row {H : List (Hold ρ)} {s' : σ} {n : Nat} {row : OperationLog ω} (x : ω)
    (hlog : log.get s' = (log.get s).insert n row) (hkey : .key n ∈ H)
    (hnew : (log.get s).find? n = none) (hoperator : row.operatorId = c.options.operator.id)
    (hsystem : row.system = log.system)
    (hrecord : row.idempotency = c.options.key.map fun key =>
      ⟨c.options.scope, key, c.options.fingerprint, x⟩)
    (hfree : ∀ q, c.request? = some q → log.lockOf q ∈ H ∧ log.Free s q) :
    c.Records x s' ∧ LogCommit c H s s' := by
  have hown : ∀ q, c.request? = some q → log.records row q = true := by
    intro q hq
    obtain ⟨key, hsome, rfl⟩ := Option.map_eq_some_iff.mp hq
    simp [LogTable.records, OperationLog.isFor, hoperator, hsystem, hrecord, hsome]
  refine ⟨?_, .logged n row hkey hnew hlog hown ?_⟩
  · intro q hq
    refine ⟨n, row, by rw [hlog, Table.find?_insert_self], hown q hq, ?_⟩
    obtain ⟨key, hsome, rfl⟩ := Option.map_eq_some_iff.mp hq
    rw [hrecord, hsome]
    rfl
  · intro q hrow
    apply hfree q
    cases hsome : c.options.key with
    | none => simp [LogTable.records, OperationLog.isFor, hrecord, hsome] at hrow
    | some key =>
        simp only [LogTable.records, OperationLog.isFor, hoperator, hrecord, hsome,
          Option.map_some, Option.any_some, Bool.and_eq_true, beq_iff_eq] at hrow
        rw [LoggedCall.request?, hsome, hrow.1.1, hrow.2.1, hrow.2.2]
        rfl

theorem allowed_commit (hd : d.Idle) : (recordDiscipline log).Allowed c
    (commitIdempotentOperation log c.options c.run) d s := by
  refine (Txn.amid_bind c.run _).mpr (Txn.amid_mono c.keeps.amid fun outcome d' s' hleaves => ?_)
  refine (Txn.amid_bind (writeOperationLog log c.options outcome) _).mpr (Txn.amid_create ?_)
  intro s₁ n s₂ _ hunused _ hs₂ hviolated s₃ hs₃
  have hget : ∀ t, log.get (d'.change t) = log.get t := by
    intro t
    rw [hleaves t, hd t]
  have hunborn : ∀ {H : List (Hold ρ)} {t t' : σ}, (recordDiscipline log).Rely H t t' →
      .key n ∈ H → (log.get t).find? n = none → (log.get t').find? n = none :=
    fun h hkey => h.keeps fun _ _ _ _ _ h hapart => h.2.unborn fun hmem => hapart _ hmem hkey
  have hnew := hunborn hs₃ (by simp)
    (hunborn hs₂ List.mem_cons_self (hunused.find?_none (Nat.le_refl n)))
  refine commits_row outcome.result
    ((log.get_set _ _).trans (congrArg (Table.insert · n _) (hget s₃))) (by simp) hnew rfl rfl rfl ?_
  intro q hq
  obtain ⟨key, hkey, rfl⟩ := Option.map_eq_some_iff.mp hq
  have hnone : log.record? (d'.change s₂) c.options.operator.id c.options.scope key = none := by
    simpa [Txn.firstViolated, hkey] using hviolated
  rw [LogTable.record?, hget] at hnone
  refine ⟨by simp [hkey, LogTable.lockOf], hs₃.keeps (P := (log.Free · _)) ?_ (free_of_none hnone)⟩
  intro _ _ _ _ _ h hapart
  exact h.2.free fun hmem => hapart _ hmem (by simp [hkey, LogTable.lockOf])

theorem kept_call : (recordDiscipline log).Kept LoggedCall.call := by
  intro c s hs
  have hreplay : ∀ {key : String} {record : IdempotencyRecord ω} {s : σ},
      c.options.key = some key →
      log.record? s c.options.operator.id c.options.scope key = some record →
      ∀ x, replayIdempotencyRecord record c.options.fingerprint = .ok x →
        (recordDiscipline log).Allowed c (.pure x : Txn σ ρ Failure ω) (.execute .empty s [] id) s := by
    intro key record s hkey hfound x hx s' hs'
    -- the record is still there when the answer is committed
    refine ⟨hs'.keeps (fun _ _ _ _ _ h _ => h.2.records_kept) ?_, .same⟩
    exact records_of_replay (by rw [LoggedCall.request?, hkey]; rfl) hfound hx
  constructor
  · rw [LoggedCall.call, executeIdempotentOperation_main]
    unfold replayOr
    cases hkey : c.options.key with
    | none => exact allowed_commit Draft.idle_empty
    | some key =>
        refine (Txn.amid_bind _ _).mpr ((Txn.amid_bind _ _).mpr ?_)
        refine (Txn.amid_query _).mpr fun s' _ => ?_
        cases hfound : log.record? s' c.options.operator.id c.options.scope key with
        | none =>
            rw [Draft.change_empty, hfound]
            exact allowed_commit (Draft.idle_empty.execute s' [])
        | some record =>
            rw [Draft.change_empty, hfound]
            exact (Txn.amid_bind _ _).mpr (Txn.amid_liftExcept (hreplay hkey hfound))
  · intro e p hp
    replace hp : replayAfterConflict log c.options e = some p := hp
    unfold replayAfterConflict at hp
    split at hp
    · next key _ hkey =>
        obtain rfl := Option.some.inj hp
        refine (Txn.amid_bind _ _).mpr ((Txn.amid_query _).mpr fun s' _ => ?_)
        cases hfound : log.record? s' c.options.operator.id c.options.scope key with
        | none =>
            rw [Draft.change_empty, hfound]
            trivial
        | some record =>
            rw [Draft.change_empty, hfound]
            exact Txn.amid_liftExcept (hreplay hkey hfound)
    · cases hp

end Calls

/-! ## Runs -/

/-- A store before any call, with the next id. -/
structure LogStart (log : LogTable σ ρ ω) where
  next : Nat
  store : σ
  below : (log.get store).Below next
  unique : log.Unique store

variable [DecidableEq ρ]

/-- What an event means for the requests, in a run that goes on with `later`. -/
structure OnceOnly (b : Database σ ρ Failure ω (LoggedCall log))
    (e : DatabaseEvent (LoggedCall log)) (later : List (DatabaseEvent (LoggedCall log))) : Prop where
  unique : log.Unique b.store
  recorded : ∀ t x, b.committing e = some (t, x) →
    t.activity.Records x (b.run LoggedCall.call (e :: later)).store
  replayed : ∀ t x q n row, b.committing e = some (t, x) → t.activity.request? = some q →
    (log.get b.store).find? n = some row → log.records row q = true →
      (b.step LoggedCall.call e).store = b.store

end Races

end Wbme
