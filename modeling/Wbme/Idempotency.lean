import Wbme.Contracts
import Wbme.Lib.Table
import Wbme.Lib.Txn

/-! # Idempotent operations

Every service logs its writes in a table of its own. A row under an idempotency key is
written in the transaction of the effects and records the fingerprint of the request and
its result; operator, system, scope and key are unique among these rows. A request is
first looked up, then executed; when the insert violates the unique index it is looked up
once more.
-/

namespace Wbme

open Lib

/-! ## Rows -/

inductive LogAction where
  | create
  | update
  | delete

/-- The acting user with the departments at the time of the operation. -/
structure OperationLogOperator where
  id : Nat
  name : String
  departments : List DepartmentRef

/-- The columns that make a log row an idempotency record. -/
structure IdempotencyRecord (ω : Type) where
  idempotencyScope : String
  idempotencyKey : String
  requestFingerprint : String
  resultReference : ω

structure OperationLog (ω : Type) where
  operatorId : Nat
  operatorName : String
  operatorDepartments : Json
  system : String
  feature : String
  actionType : LogAction
  summary : String
  idempotency : Option (IdempotencyRecord ω)

/-- Is the row the record of an operator's request? -/
def OperationLog.isFor {ω : Type} (row : OperationLog ω) (operatorId : Nat)
    (system scope key : String) : Bool :=
  row.operatorId == operatorId && row.system == system &&
    row.idempotency.any fun r => r.idempotencyScope == scope && r.idempotencyKey == key

/-- The log table of a service, as a part of its store, and the entry of the unique index
that an insert waits for. -/
structure LogTable (σ ρ ω : Type) where
  system : String
  get : σ → Table (OperationLog ω)
  set : σ → Table (OperationLog ω) → σ
  lock : Nat → String → String → ρ
  get_set : ∀ s t, get (set s t) = t

/-- What an execution hands over to the log. -/
structure IdempotentOutcome (ω : Type) where
  result : ω
  actionType : LogAction
  summary : String

structure IdempotentOptions where
  operator : OperationLogOperator
  feature : String
  scope : String
  idempotencyKey : Option String
  fingerprint : String

/-- An empty key counts as none. -/
def IdempotentOptions.key (o : IdempotentOptions) : Option String :=
  o.idempotencyKey.filter (· ≠ "")

section Execute

variable {σ ρ ω : Type} (log : LogTable σ ρ ω)

/-! ## Looking up and replaying -/

/-- The record of a request in a store. -/
def LogTable.record? (v : σ) (operatorId : Nat) (scope key : String) :
    Option (IdempotencyRecord ω) :=
  (((log.get v).select fun _ r => r.isFor operatorId log.system scope key).head?).bind
    (·.2.idempotency)

def findIdempotencyRecord (operatorId : Nat) (scope key : String) :
    Txn σ ρ Failure (Option (IdempotencyRecord ω)) :=
  Txn.query fun v => log.record? v operatorId scope key

/-- The recorded result, unless the key was used for another request. -/
def replayIdempotencyRecord (record : IdempotencyRecord ω) (fingerprint : String) :
    Except Failure ω :=
  if record.requestFingerprint ≠ fingerprint then .error (.of .idempotencyKeyReused)
  else .ok record.resultReference

def tryReplayIdempotentResult (o : IdempotentOptions) (key : String) :
    Txn σ ρ Failure (Option ω) := do
  let existing ← findIdempotencyRecord log o.operator.id o.scope key
  match existing with
  | none => pure none
  | some record =>
      let result ← Txn.liftExcept (replayIdempotencyRecord record o.fingerprint)
      pure (some result)

/-- The recorded result of a request under a key, or else what `p` comes to. -/
def replayOr (o : IdempotentOptions) (p : Txn σ ρ Failure ω) : Txn σ ρ Failure ω :=
  match o.key with
  | none => p
  | some key => do
      let replayed ← tryReplayIdempotentResult log o key
      match replayed with
      | some result => pure result
      | none => p

/-! ## Executing -/

def writeOperationLog (o : IdempotentOptions) (outcome : IdempotentOutcome ω) :
    Txn σ ρ Failure Nat :=
  let row : OperationLog ω :=
    { operatorId := o.operator.id
      operatorName := o.operator.name
      operatorDepartments := departmentsJson o.operator.departments
      system := log.system
      feature := o.feature
      actionType := outcome.actionType
      summary := outcome.summary
      idempotency := o.key.map fun key => ⟨o.scope, key, o.fingerprint, outcome.result⟩ }
  Txn.create (fun _ => (o.key.map fun key => log.lock o.operator.id o.scope key).toList)
    (fun v => [(o.key.any fun key => (log.record? v o.operator.id o.scope key).isSome,
      .uniqueViolation "operation_logs_idempotency_unique")])
    (fun id s => log.set s ((log.get s).insert id row))

/-- The effects and their log row in one transaction. -/
def commitIdempotentOperation (o : IdempotentOptions)
    (run : Txn σ ρ Failure (IdempotentOutcome ω)) : Txn σ ρ Failure ω := do
  let outcome ← run
  let _ ← writeOperationLog log o outcome
  pure outcome.result

/-- What follows a violated unique index: the result of whoever committed first. -/
def replayAfterConflict (o : IdempotentOptions) (e : Failure) : Option (Txn σ ρ Failure ω) :=
  match o.key, e with
  | some key, .uniqueViolation _ => some do
      let concurrent ← findIdempotencyRecord log o.operator.id o.scope key
      match concurrent with
      | some record => Txn.liftExcept (replayIdempotencyRecord record o.fingerprint)
      | none => .throw e
  | _, _ => none

def executeIdempotentOperation (o : IdempotentOptions)
    (run : Txn σ ρ Failure (IdempotentOutcome ω)) : Call σ ρ Failure ω where
  main :=
    match o.key with
    | none => commitIdempotentOperation log o run
    | some key => do
        let replayed ← tryReplayIdempotentResult log o key
        match replayed with
        | some result => pure result
        | none => commitIdempotentOperation log o run
  recover := replayAfterConflict log o

theorem executeIdempotentOperation_main (o : IdempotentOptions)
    (run : Txn σ ρ Failure (IdempotentOutcome ω)) :
    (executeIdempotentOperation log o run).main =
      replayOr log o (commitIdempotentOperation log o run) := by
  unfold executeIdempotentOperation replayOr
  cases o.key <;> rfl

/-! ## What a call keeps -/

theorem readOnly_findIdempotencyRecord (operatorId : Nat) (scope key : String) :
    (findIdempotencyRecord log operatorId scope key).ReadOnly := Txn.readOnly_query _

theorem readOnly_tryReplayIdempotentResult (o : IdempotentOptions) (key : String) :
    (tryReplayIdempotentResult log o key).ReadOnly := by
  apply (readOnly_findIdempotencyRecord log o.operator.id o.scope key).bind
  intro existing
  cases existing with
  | none => exact Txn.readOnly_pure none
  | some record => exact (Txn.readOnly_liftExcept _).bind fun result => Txn.readOnly_pure _

theorem readOnly_replayAfterConflict (o : IdempotentOptions) (e : Failure)
    (p : Txn σ ρ Failure ω) (h : replayAfterConflict log o e = some p) : p.ReadOnly := by
  unfold replayAfterConflict at h
  split at h
  · rename_i key index _
    obtain rfl := Option.some.inj h
    apply (readOnly_findIdempotencyRecord log o.operator.id o.scope key).bind
    intro concurrent
    cases concurrent with
    | none => exact Txn.readOnly_throw _
    | some record => exact Txn.readOnly_liftExcept _
  · simp at h

section Preserves

variable {I : Nat → σ → Prop}

theorem preserves_writeOperationLog
    (hlog : ∀ n s row, I n s → I (n + 1) (log.set s ((log.get s).insert n row)))
    (o : IdempotentOptions) (outcome : IdempotentOutcome ω) :
    (writeOperationLog log o outcome).Preserves I :=
  Txn.preserves_create fun n s _ hi => hlog n s _ hi

theorem preserves_executeIdempotentOperation
    (hlog : ∀ n s row, I n s → I (n + 1) (log.set s ((log.get s).insert n row)))
    (o : IdempotentOptions) {run : Txn σ ρ Failure (IdempotentOutcome ω)}
    (hrun : run.Preserves I) : (executeIdempotentOperation log o run).main.Preserves I := by
  have hcommit : (commitIdempotentOperation log o run).Preserves I :=
    hrun.bind fun outcome => (preserves_writeOperationLog log hlog o outcome).bind fun _ =>
      Txn.preserves_pure _
  unfold executeIdempotentOperation
  cases hkey : o.key with
  | none => simpa [hkey] using hcommit
  | some key =>
      simp only
      apply (readOnly_tryReplayIdempotentResult log o key).preserves.bind
      intro replayed
      cases replayed with
      | none => exact hcommit
      | some result => exact Txn.preserves_pure result

end Preserves

end Execute

end Wbme
