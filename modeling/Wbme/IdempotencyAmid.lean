import Wbme.Idempotency
import Wbme.Lib.Interleave

/-! # Idempotent operations amid others

A call under an idempotency key looks for its record, executes, and writes the record with
the effects. Amid other sessions it keeps to a discipline when its effects do, as long as
the discipline has nothing against a transaction that changes nothing, nor against one more
row of the log.
-/

namespace Wbme

open Lib

section Quiet

variable {σ ρ ω : Type} (log : LogTable σ ρ ω)

theorem quiet_findIdempotencyRecord (operatorId : Nat) (scope key : String) :
    (findIdempotencyRecord log operatorId scope key).Quiet := Txn.leaves_query _

theorem quiet_replayAfterConflict (o : IdempotentOptions) (e : Failure)
    (p : Txn σ ρ Failure ω) (h : replayAfterConflict log o e = some p) : p.Quiet := by
  unfold replayAfterConflict at h
  split at h
  · rename_i key index _
    obtain rfl := Option.some.inj h
    apply (quiet_findIdempotencyRecord log o.operator.id o.scope key).bind
    intro concurrent
    cases concurrent with
    | none => exact Txn.leaves_throw _
    | some record => exact Txn.leaves_liftExcept _
  · simp at h

theorem leaves_writeOperationLog {τ : Type} {g : σ → τ}
    (hg : ∀ s t, g (log.set s t) = g s) (o : IdempotentOptions) (outcome : IdempotentOutcome ω) :
    (writeOperationLog log o outcome).Leaves g :=
  Txn.leaves_create fun _ s => hg s _

end Quiet

section Amid

variable {σ ρ ω ι : Type}

/-- Nothing is held against a transaction that changes nothing, or logs one row more. -/
structure LogTable.Logs (log : LogTable σ ρ ω) (D : Discipline σ ρ ω ι) : Prop where
  idle : ∀ a x d s, d.Idle → D.commits a x d s s
  insert : ∀ a x d d' s s' n row, D.commits a x d s s' → d.holds ⊆ d'.holds →
    d.seen <+: d'.seen → .key n ∈ d'.holds →
    D.commits a x d' s (log.set s' ((log.get s').insert n row))

/-- What an execution ends with may be committed with its result. -/
def AllowedRun (D : Discipline σ ρ ω ι) (a : ι) (run : Txn σ ρ Failure (IdempotentOutcome ω))
    (d : Draft σ ρ) (s : σ) : Prop :=
  run.amid D.Rely D.unused
    (fun outcome d s => ∀ s', D.Rely d.holds s s' →
      D.commits a outcome.result d s' (d.change s')) d s

variable {log : LogTable σ ρ ω} {D : Discipline σ ρ ω ι} {a : ι} {d : Draft σ ρ} {s : σ}

/-- What an execution ends with may be committed with its result and the row that logs it. -/
def LoggedRun (log : LogTable σ ρ ω) (D : Discipline σ ρ ω ι) (a : ι)
    (run : Txn σ ρ Failure (IdempotentOutcome ω)) (d : Draft σ ρ) (s : σ) : Prop :=
  run.amid D.Rely D.unused
    (fun outcome d s => ∀ d' s' n row, D.Rely d.holds s s' → d.holds ⊆ d'.holds →
      d.seen <+: d'.seen → .key n ∈ d'.holds → D.commits a outcome.result d' s'
        (log.set (d.change s') ((log.get (d.change s')).insert n row))) d s

variable {run : Txn σ ρ Failure (IdempotentOutcome ω)}

theorem AllowedRun.logged (hlog : log.Logs D) (hrun : AllowedRun D a run d s) :
    LoggedRun log D a run d s :=
  Txn.amid_mono hrun fun _ d _ hcommits d' s' n row hs hsub hseen hkey =>
    hlog.insert _ _ d d' _ _ n row (hcommits s' hs) hsub hseen hkey

theorem allowed_commitIdempotentOperation (o : IdempotentOptions)
    (hrun : LoggedRun log D a run d s) : D.Allowed a (commitIdempotentOperation log o run) d s := by
  refine (Txn.amid_bind run _).mpr (Txn.amid_mono hrun fun outcome d s hcommits => ?_)
  refine (Txn.amid_bind (writeOperationLog log o outcome) _).mpr (Txn.amid_create ?_)
  intro s₁ n s₂ hs₁ _ _ hs₂ _ s₃ hs₃
  have hsub : d.holds ⊆ .key n :: d.holds := fun _ hx => List.mem_cons_of_mem _ hx
  have hsub' : Hold.key n :: d.holds ⊆ (Hold.key n :: d.holds) ++
      ((o.key.map fun key => log.lock o.operator.id o.scope key).toList).map .lock :=
    fun _ hx => List.mem_append_left _ hx
  have hmoved : D.Rely d.holds s s₃ :=
    (hs₁.trans (hs₂.mono hsub)).trans (hs₃.mono fun _ hx => hsub' (hsub hx))
  exact hcommits _ s₃ n _ hmoved (fun _ hx => hsub' (hsub hx)) (List.prefix_append _ _)
    (hsub' List.mem_cons_self)

/-- Where the execution of a call begins: nothing is changed or locked since the call began,
and the record was looked for if there is a key. -/
structure RunsFrom (D : Discipline σ ρ ω ι) (o : IdempotentOptions) (d : Draft σ ρ) (s : σ)
    (d' : Draft σ ρ) (s' : σ) : Prop where
  idle : d'.Idle
  later : Txn.Later D.Rely d s d' s'
  holds : d'.holds = d.holds
  seen : d'.seen.length = d.seen.length + if o.key.isSome then 1 else 0

theorem allowed_replayOr (hidle : ∀ a x d s, d.Idle → D.commits a x d s s)
    (o : IdempotentOptions)
    {p : Txn σ ρ Failure ω} (hd : d.Idle) (hs : D.Rely d.holds s s)
    (hp : ∀ d' s', RunsFrom D o d s d' s' → D.Allowed a p d' s') :
    D.Allowed a (replayOr log o p) d s := by
  have hpure : ∀ (x : ω) (d' : Draft σ ρ) (s' : σ), d'.Idle →
      D.Allowed a (Txn.pure x : Txn σ ρ Failure ω) d' s' := by
    intro x d' s' hd' t _
    rw [hd' t]
    exact hidle a x d' t hd'
  unfold replayOr
  cases hkey : o.key with
  | none => exact hp d s ⟨hd, .refl hs, rfl, by simp [hkey]⟩
  | some key =>
      refine (Txn.amid_bind _ _).mpr ((Txn.amid_bind _ _).mpr ?_)
      refine (Txn.amid_query _).mpr fun s' hs' => ?_
      have hd' : (d.execute s' [] id).Idle := hd.execute s' []
      have hfrom : RunsFrom D o d s (d.execute s' [] id) s' :=
        ⟨hd', .execute hs' _ _, by simp, by simp [hkey]⟩
      cases log.record? (d.change s') o.operator.id o.scope key with
      | none => exact hp _ _ hfrom
      | some record =>
          refine (Txn.amid_bind _ _).mpr (Txn.amid_liftExcept fun result _ => ?_)
          exact hpure result _ _ hd'

theorem allowed_executeLogged (hidle : ∀ a x d s, d.Idle → D.commits a x d s s)
    (o : IdempotentOptions) (hd : d.Idle) (hs : D.Rely d.holds s s)
    (hrun : ∀ d' s', RunsFrom D o d s d' s' → LoggedRun log D a run d' s') :
    D.Allowed a (executeIdempotentOperation log o run).main d s := by
  rw [executeIdempotentOperation_main]
  exact allowed_replayOr hidle o hd hs fun d' s' hfrom =>
    allowed_commitIdempotentOperation o (hrun d' s' hfrom)

theorem allowed_executeIdempotentOperation (hlog : log.Logs D) (o : IdempotentOptions) (hd : d.Idle)
    (hs : D.Rely d.holds s s) (hrun : ∀ d' s', RunsFrom D o d s d' s' → AllowedRun D a run d' s') :
    D.Allowed a (executeIdempotentOperation log o run).main d s :=
  allowed_executeLogged hlog.idle o hd hs fun d' s' hfrom => (hrun d' s' hfrom).logged hlog

end Amid

end Wbme
