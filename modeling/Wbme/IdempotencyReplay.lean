import Wbme.Idempotency

/-! # Replays of earlier calls

A call that succeeded under a key has a record, with its fingerprint and its result. Later calls
append rows to the log, so the record stays the one that is found. A call under the same key
answers from it, and changes nothing.
-/

namespace Wbme

open Lib

section Replay

variable {σ ρ ω : Type} (log : LogTable σ ρ ω)

/-- The record of a request is there, with its fingerprint and its result, and the ids of the
log are below the next one. -/
structure Recorded (o : IdempotentOptions) (result : ω) (n : Nat) (s : σ) : Prop where
  below : (log.get s).Below n
  found : ∃ key, o.key = some key ∧
    log.record? s o.operator.id o.scope key = some ⟨o.scope, key, o.fingerprint, result⟩

/-- What runs inside an idempotent operation leaves the log alone. -/
def KeepsLog {α : Type} (p : Txn σ ρ Failure α) : Prop :=
  ∀ m t, p.Preserves fun n s => m ≤ n ∧ log.get s = t

section KeepsLog

variable {log} {α β : Type}

variable {p : Txn σ ρ Failure α} {l : σ → List ρ}

theorem KeepsLog.bind {f : α → Txn σ ρ Failure β} (hp : KeepsLog log p)
    (hf : ∀ a, KeepsLog log (f a)) : KeepsLog log (p >>= f) :=
  fun m t => (hp m t).bind fun a => hf a m t

theorem keepsLog_of_readOnly (hp : p.ReadOnly) : KeepsLog log p :=
  fun _ _ => hp.preserves

theorem keepsLog_pure (a : α) : KeepsLog log (pure a : Txn σ ρ Failure α) :=
  keepsLog_of_readOnly (Txn.readOnly_pure a)

theorem keepsLog_act {f : σ → Except Failure (α × (σ → σ))}
    (h : ∀ s a c, f s = .ok (a, c) → log.get (c s) = log.get s) : KeepsLog log (Txn.act l f) :=
  fun _ _ => Txn.preserves_act fun _ s a c hok hs => ⟨hs.1, (h s a c hok).trans hs.2⟩

theorem keepsLog_create {checks : σ → List (Bool × Failure)} {put : Nat → σ → σ}
    (h : ∀ n s, log.get (put n s) = log.get s) : KeepsLog log (Txn.create l checks put) :=
  fun _ _ => Txn.preserves_create fun n s _ hs => ⟨Nat.le_succ_of_le hs.1, (h n s).trans hs.2⟩

end KeepsLog

/-! ## One row more -/

variable {record : IdempotencyRecord ω} {s : σ} {n : Nat}

variable {run : Txn σ ρ Failure (IdempotentOutcome ω)} {operatorId : Nat}

theorem isFor_of_record? {scope key : String}
    (h : log.record? s operatorId scope key = some record) :
    record.idempotencyScope = scope ∧ record.idempotencyKey = key := by
  obtain ⟨row, hrow, hrecord⟩ := Option.bind_eq_some_iff.mp h
  have hfor := (Table.mem_select.mp (List.mem_of_head? hrow)).2
  simp only [OperationLog.isFor, hrecord, Option.any_some, Bool.and_eq_true, beq_iff_eq] at hfor
  exact hfor.2

theorem record?_insert (hbelow : (log.get s).Below n) (row : OperationLog ω) {scope key : String}
    (h : log.record? s operatorId scope key = some record) :
    log.record? (log.set s ((log.get s).insert n row)) operatorId scope key = some record := by
  obtain ⟨found, hfound, hrecord⟩ := Option.bind_eq_some_iff.mp h
  refine Option.bind_eq_some_iff.mpr ⟨found, ?_, hrecord⟩
  rw [log.get_set, Table.select_insert_of_below hbelow, List.head?_append, hfound]
  rfl

theorem record?_logged (hbelow : (log.get s).Below n) {row : OperationLog ω} {scope key : String}
    (hnone : log.record? s operatorId scope key = none)
    (hfor : row.isFor operatorId log.system scope key = true)
    (hrecord : row.idempotency = some record) :
    log.record? (log.set s ((log.get s).insert n row)) operatorId scope key = some record := by
  have hempty : (log.get s).select (fun _ r => r.isFor operatorId log.system scope key) = [] := by
    cases hsel : (log.get s).select (fun _ r => r.isFor operatorId log.system scope key) with
    | nil => rfl
    | cons first rest =>
        have hfirst := (Table.mem_select.mp (hsel ▸ List.mem_cons_self : first ∈ _)).2
        have hsome : first.2.idempotency = none := by
          simpa [LogTable.record?, hsel] using hnone
        simp [OperationLog.isFor, hsome] at hfirst
  rw [LogTable.record?, log.get_set, Table.select_insert_of_below hbelow, hempty, if_pos hfor]
  exact hrecord

section Kept

variable {log} {o : IdempotentOptions} {result : ω}

theorem Recorded.mono {n m : Nat} (h : Recorded log o result n s) (hm : n ≤ m) :
    Recorded log o result m s := ⟨h.below.mono hm, h.found⟩

theorem Recorded.congr {s s' : σ} (h : Recorded log o result n s) (hlog : log.get s' = log.get s) :
    Recorded log o result n s' := by
  obtain ⟨key, hkey, hrecord⟩ := h.found
  refine ⟨hlog ▸ h.below, key, hkey, ?_⟩
  rw [LogTable.record?, hlog]
  exact hrecord

theorem Recorded.insert (h : Recorded log o result n s) (row : OperationLog ω) :
    Recorded log o result (n + 1) (log.set s ((log.get s).insert n row)) := by
  obtain ⟨key, hkey, hrecord⟩ := h.found
  refine ⟨?_, key, hkey, record?_insert log h.below row hrecord⟩
  rw [log.get_set]
  exact h.below.insert_succ row

theorem KeepsLog.preserves_recorded {α : Type} {p : Txn σ ρ Failure α} (hp : KeepsLog log p) :
    p.Preserves (Recorded log o result) := by
  intro n s h
  refine Txn.wp_mono (hp n (log.get s) n s ⟨Nat.le_refl n, rfl⟩) ?_
  intro _ n' s' hlater
  exact (h.congr hlater.2).mono hlater.1

end Kept

/-! ## Answers from the record -/

variable {log} {o : IdempotentOptions}

/-- What a found record comes to. -/
def replayed (o : IdempotentOptions) (record : IdempotencyRecord ω) (n : Nat) (s : σ) :
    Except Failure (ω × Nat × σ) :=
  (replayIdempotencyRecord record o.fingerprint).map fun result => (result, n, s)

theorem run_replayOr {key : String} (hkey : o.key = some key) (p : Txn σ ρ Failure ω) (n : Nat)
    (s : σ) :
    (replayOr log o p).run n s =
      match log.record? s o.operator.id o.scope key with
      | none => p.run n s
      | some record => replayed o record n s := by
  unfold replayOr tryReplayIdempotentResult findIdempotencyRecord
  simp only [hkey, Txn.run_bind, Txn.run_query]
  cases log.record? s o.operator.id o.scope key with
  | none => rfl
  | some record =>
      simp only [Txn.run_bind]
      cases hreplay : replayIdempotencyRecord record o.fingerprint with
      | error e =>
          simp only [replayed, hreplay]
          rfl
      | ok result =>
          simp only [replayed, hreplay]
          rfl

theorem run_recover {key : String} (hkey : o.key = some key)
    {run : Txn σ ρ Failure (IdempotentOutcome ω)} {e : Failure} {p : Txn σ ρ Failure ω}
    (hp : (executeIdempotentOperation log o run).recover e = some p) {n : Nat} {s : σ}
    {r : ω × Nat × σ} (h : p.run n s = .ok r) :
    ∃ record, log.record? s o.operator.id o.scope key = some record ∧
      replayed o record n s = .ok r := by
  simp only [executeIdempotentOperation, replayAfterConflict, hkey] at hp
  cases e with
  | uniqueViolation index =>
      simp only [Option.some.injEq] at hp
      rw [← hp] at h
      simp only [findIdempotencyRecord, Txn.run_bind, Txn.run_query] at h
      cases hfound : log.record? s o.operator.id o.scope key with
      | none =>
          rw [hfound] at h
          cases h
      | some record =>
          rw [hfound] at h
          refine ⟨record, rfl, ?_⟩
          rw [← h]
          cases hreplay : replayIdempotencyRecord record o.fingerprint with
          | error e =>
              simp only [replayed, hreplay]
              rfl
          | ok result =>
              simp only [replayed, hreplay]
              rfl
  | _ => cases hp

/-! ## The record of a call that succeeded -/

theorem recorded_of_replayed {key : String} {result : ω} {n n' : Nat} {s s' : σ}
    (hkey : o.key = some key) (hbelow : (log.get s).Below n)
    (hfound : log.record? s o.operator.id o.scope key = some record)
    (hreplay : replayed o record n s = .ok (result, n', s')) : Recorded log o result n' s' := by
  obtain ⟨hscope, hrecordKey⟩ := isFor_of_record? log hfound
  obtain ⟨scope, recordKey, fingerprint, answer⟩ := record
  unfold replayed replayIdempotencyRecord at hreplay
  by_cases hsame : fingerprint = o.fingerprint
  · simp only [hsame, ne_eq, not_true_eq_false, if_false] at hreplay
    cases hreplay
    cases hscope
    cases hrecordKey
    cases hsame
    exact ⟨hbelow, _, hkey, hfound⟩
  · simp only [ne_eq, hsame, not_false_eq_true, if_true] at hreplay
    cases hreplay

theorem safe_commit_recorded {key : String} (hkey : o.key = some key) (hrun : KeepsLog log run)
    (hbelow : (log.get s).Below n) (hnone : log.record? s o.operator.id o.scope key = none) :
    (commitIdempotentOperation log o run).safe (fun result n s => Recorded log o result n s) n s := by
  apply Txn.safe_bind (hrun n (log.get s) n s ⟨Nat.le_refl n, rfl⟩)
  intro outcome n' s' hlater
  apply Txn.safe_bind (R := fun _ n s => Recorded log o outcome.result n s)
  · apply Txn.safe_create
    intro _
    have hbelow' : (log.get s').Below n' := hlater.2 ▸ hbelow.mono hlater.1
    have hnone' : log.record? s' o.operator.id o.scope key = none := by
      rw [LogTable.record?, hlater.2]
      exact hnone
    refine ⟨?_, key, hkey, ?_⟩
    · rw [log.get_set]
      exact hbelow'.insert_succ _
    · apply record?_logged log hbelow' hnone'
      · simp [OperationLog.isFor, hkey]
      · simp [hkey]
  · intro _ n'' s'' h
    exact h

theorem recorded_of_exec {key : String} (hkey : o.key = some key)
    {run : Txn σ ρ Failure (IdempotentOutcome ω)} (hrun : KeepsLog log run) {n n' : Nat}
    {s s' : σ} {result : ω} (hbelow : (log.get s).Below n)
    (h : (executeIdempotentOperation log o run).exec n s = .ok (result, n', s')) :
    Recorded log o result n' s' := by
  unfold Call.exec at h
  cases hmain : (executeIdempotentOperation log o run).main.run n s with
  | ok r =>
      rw [hmain] at h
      cases h
      rw [executeIdempotentOperation_main, run_replayOr hkey] at hmain
      cases hfound : log.record? s o.operator.id o.scope key with
      | none =>
          rw [hfound] at hmain
          exact Txn.wp_of_run_ok (safe_commit_recorded hkey hrun hbelow hfound) hmain
      | some record =>
          rw [hfound] at hmain
          exact recorded_of_replayed hkey hbelow hfound hmain
  | error e =>
      rw [hmain] at h
      cases hrecover : (executeIdempotentOperation log o run).recover e with
      | none =>
          simp only [hrecover] at h
          cases h
      | some p =>
          simp only [hrecover] at h
          obtain ⟨record, hfound, hreplay⟩ := run_recover hkey hrecover h
          exact recorded_of_replayed hkey hbelow hfound hreplay

/-- A call under the key of a record is refused for another fingerprint, or answers what is
recorded and changes nothing. -/
theorem exec_of_recorded {p : IdempotentOptions} {result : ω} (h : Recorded log o result n s)
    (hoperator : p.operator.id = o.operator.id) (hscope : p.scope = o.scope) (hkey : p.key = o.key)
    (run : Txn σ ρ Failure (IdempotentOutcome ω)) :
    (executeIdempotentOperation log p run).exec n s =
      if p.fingerprint = o.fingerprint then .ok (result, n, s)
      else .error (.of .idempotencyKeyReused) := by
  obtain ⟨key, hsome, hfound⟩ := h.found
  have hmain : (executeIdempotentOperation log p run).main.run n s =
      if p.fingerprint = o.fingerprint then .ok (result, n, s)
      else .error (.of .idempotencyKeyReused) := by
    rw [executeIdempotentOperation_main, run_replayOr (hkey.trans hsome), hoperator, hscope, hfound]
    unfold replayed replayIdempotencyRecord
    by_cases hsame : p.fingerprint = o.fingerprint
    · simp only [hsame, ne_eq, not_true_eq_false, if_false, if_true]
      rfl
    · simp only [hsame, Ne.symm hsame, ne_eq, not_false_eq_true, if_true, if_false]
      rfl
  unfold Call.exec
  rw [hmain]
  by_cases hsame : p.fingerprint = o.fingerprint
  · simp only [if_pos hsame]
  · simp only [if_neg hsame, executeIdempotentOperation, replayAfterConflict, hkey, hsome,
      Failure.of]

theorem exec_of_fresh {Q : IdempotentOutcome ω → Nat → σ → Prop}
    (hfresh : ∀ key, o.key = some key → log.record? s o.operator.id o.scope key = none)
    (hrun : run.wp (fun outcome n' s' => log.get s' = log.get s ∧ Q outcome n' s')
      (fun _ => False) n s) :
    ∃ outcome n' s' row, Q outcome n' s' ∧ (executeIdempotentOperation log o run).exec n s =
      .ok (outcome.result, n' + 1, log.set s' ((log.get s').insert n' row)) := by
  have hcommit : (commitIdempotentOperation log o run).wp
      (fun reply n₁ s₁ => ∃ outcome n' s' row, Q outcome n' s' ∧ reply = outcome.result ∧
        n₁ = n' + 1 ∧ s₁ = log.set s' ((log.get s').insert n' row)) (fun _ => False) n s := by
    refine (Txn.wp_bind _ _).mpr (Txn.wp_mono hrun fun outcome n' s' hdone => ?_)
    refine (Txn.wp_bind _ _).mpr (Txn.wp_create ?_ ⟨outcome, n', s', _, hdone.2, rfl, rfl, rfl⟩)
    have hnone : o.key.any (fun key => (log.record? s' o.operator.id o.scope key).isSome) =
        false := by
      cases hkey : o.key with
      | none => rfl
      | some key =>
          have hrecord : log.record? s' o.operator.id o.scope key = none := by
            rw [LogTable.record?, hdone.1]
            exact hfresh key hkey
          simp [hrecord]
    simp [Txn.firstViolated, hnone]
  obtain ⟨reply, n₁, s₁, hok, outcome, n', s', row, hQ, rfl, rfl, rfl⟩ := Txn.run_ok_of_wp hcommit
  refine ⟨outcome, n', s', row, hQ, ?_⟩
  have hmain : (executeIdempotentOperation log o run).main.run n s =
      .ok (outcome.result, n' + 1, log.set s' ((log.get s').insert n' row)) := by
    rw [executeIdempotentOperation_main]
    cases hkey : o.key with
    | none =>
        unfold replayOr
        rw [hkey]
        exact hok
    | some key =>
        rw [run_replayOr hkey, hfresh key hkey]
        exact hok
  unfold Call.exec
  rw [hmain]

end Replay

end Wbme
