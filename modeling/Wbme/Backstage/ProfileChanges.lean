import Wbme.Backstage.Store
import Wbme.IdempotencyReplay

/-! # Changes of the own profile

An employee asks for another name or gender, and the change takes effect when it is approved.
The submission compares what is asked for with the profile as it is now, and takes the rest of
its fingerprint from there, before it looks for the record of an earlier submission.
-/

namespace Wbme.Backstage.ProfileChanges

open Lib Approval

/-! ## Rows -/

inductive Gender where
  | male
  | female
deriving DecidableEq

def Gender.text : Gender → String
  | .male => "MALE"
  | .female => "FEMALE"

/-- What the profile and its changes read of an account. -/
structure Account where
  name : String
  gender : Gender
  status : UserStatus
  deletedAt : Option Int

structure ApprovalRequest where
  applicationNo : String
  applicantId : Nat
  applicantName : String
  status : ApprovalStatus
  submittedAt : Int
  version : Nat
  processorId : Option Nat
  processorName : Option String
  processedAt : Option Int
  opinion : Option String
  cancelledBy : Option Nat
  cancelledAt : Option Int
  cancelSource : Option CancelSource

structure ProfileChangeRequest where
  requestId : Nat
  userId : Nat
  userName : String
  oldName : String
  newName : String
  oldGender : Gender
  newGender : Gender

structure ApprovalActionRow where
  requestId : Nat
  action : ApprovalAction
  actorId : Nat
  actorName : String
  opinion : Option String
  cancelSource : Option CancelSource

inductive ProfileReply where
  | applied
  | requested (requestId : Nat)
  | done
deriving DecidableEq

structure ProfileStore where
  users : Table Account
  approvalRequests : Table ApprovalRequest
  profileChangeRequests : Table ProfileChangeRequest
  approvalActions : Table ApprovalActionRow
  operationLogs : Table (OperationLog ProfileReply)

inductive ProfileLock where
  | user (id : Nat)
  | approvalRequest (id : Nat)
  | applicationNo (no : String)
  | pendingOf (applicantId : Nat)
  | idempotency (operatorId : Nat) (scope key : String)

abbrev ProfileTx (α : Type) := Txn ProfileStore ProfileLock Failure α

abbrev ProfileCall := Call ProfileStore ProfileLock Failure ProfileReply

def profileLog : LogTable ProfileStore ProfileLock ProfileReply where
  system := "BACKSTAGE"
  get := ProfileStore.operationLogs
  set s t := { s with operationLogs := t }
  lock := ProfileLock.idempotency
  get_set _ _ := rfl

/-- What surrounds a call: the clock, the departments of a user, and the number that a new
request gets. -/
structure ProfileEnvironment where
  now : Int
  departmentsOf : Nat → Option (List DepartmentRef)
  applicationNo : String

/-! ## Shared statements -/

def loadOperationLogOperator (env : ProfileEnvironment) (operatorId : Nat) :
    ProfileTx OperationLogOperator := do
  let found ← Txn.query fun v => v.users.find? operatorId
  let operator ← Txn.orThrow (found.filter fun u => u.deletedAt.isNone) (.of .unauthorized)
  let departments ← Txn.query fun _ => env.departmentsOf operatorId
  pure ⟨operatorId, operator.name, departments.getD []⟩

def userUpdate (id : Nat) (f : Account → Account) : ProfileTx Unit :=
  Txn.act (fun _ => [.user id]) fun v =>
    if (v.users.find? id).isSome then
      .ok ((), fun s => { s with users := s.users.update id f })
    else .error (.recordMissing "users")

/-- A conditional update of a pending head: how many rows it hit. -/
def updatePendingHead (id version : Nat) (f : ApprovalRequest → ApprovalRequest) :
    ProfileTx Nat :=
  Txn.act (fun _ => [.approvalRequest id]) fun v =>
    if (v.approvalRequests.find? id).any fun r => r.status == .pending && r.version == version then
      .ok (1, fun s => { s with approvalRequests := s.approvalRequests.update id f })
    else .ok (0, fun s => s)

def approvalActionCreate (row : ApprovalActionRow) : ProfileTx Nat :=
  Txn.create (fun _ => []) (fun _ => []) fun id s =>
    { s with approvalActions := s.approvalActions.insert id row }

/-- Another pending request of the applicant, or another request of the number. -/
def headTaken (v : ProfileStore) (applicantId : Nat) (applicationNo : String) : Bool :=
  !(v.approvalRequests.select fun _ r =>
    (r.applicantId == applicantId && r.status == .pending) ||
      r.applicationNo == applicationNo).isEmpty

section Calls

variable (fingerprintPayload : Json → String)

/-! ## Submitting -/

structure ProfileInput where
  name : Option String
  gender : Option Gender

def ProfileInput.asked (input : ProfileInput) (user : Account) : String × Gender :=
  (input.name.getD user.name, input.gender.getD user.gender)

def Account.profile (user : Account) : String × Gender := (user.name, user.gender)

def profilePayload (profile : String × Gender) : Json :=
  .obj [("name", .str profile.1), ("gender", .str profile.2.text)]

def submitScope : String := "base.profile-change.submit"

def options (operator : OperationLogOperator) (scope : String) (idempotencyKey : Option String)
    (fingerprint : String) : IdempotentOptions :=
  ⟨operator, "user_manage", scope, idempotencyKey, fingerprint⟩

def pendingHead (env : ProfileEnvironment) (userId : Nat) (user : Account) : ApprovalRequest where
  applicationNo := env.applicationNo
  applicantId := userId
  applicantName := user.name
  status := .pending
  submittedAt := env.now
  version := 0
  processorId := none
  processorName := none
  processedAt := none
  opinion := none
  cancelledBy := none
  cancelledAt := none
  cancelSource := none

def submitRun (env : ProfileEnvironment) (userId : Nat) (isSuperAdmin : Bool) (user : Account)
    (asked : String × Gender) : ProfileTx (IdempotentOutcome ProfileReply) :=
  if isSuperAdmin then do
    userUpdate userId fun u => { u with name := asked.1, gender := asked.2 }
    pure ⟨.applied, .update, "在个人中心修改了自己的资料（姓名/性别）"⟩
  else do
    let requestId ← Txn.create (fun _ => [.pendingOf userId, .applicationNo env.applicationNo])
      (fun v => [(headTaken v userId env.applicationNo, .of .profileChangePendingExists)])
      fun id s =>
        { s with approvalRequests := s.approvalRequests.insert id (pendingHead env userId user) }
    let _ ← Txn.create (fun _ => []) (fun _ => []) fun id s =>
      { s with
        profileChangeRequests := s.profileChangeRequests.insert id
          ⟨requestId, userId, user.name, user.name, asked.1, user.gender, asked.2⟩ }
    let _ ← approvalActionCreate ⟨requestId, .submit, userId, user.name, none, none⟩
    pure ⟨.requested requestId, .create, "在个人中心提交了资料修改申请（姓名/性别）"⟩

def submitReads (env : ProfileEnvironment) (userId : Nat) (input : ProfileInput) :
    ProfileTx (Account × OperationLogOperator) := do
  let found ← Txn.query fun v => v.users.find? userId
  let user ← Txn.orThrow (found.filter fun u => u.status == .active) (.of .unauthorized)
  Txn.guard (input.asked user != user.profile) (.of .validationFailed)
  let operator ← loadOperationLogOperator env userId
  pure (user, operator)

def submitOptions (input : ProfileInput)
    (idempotencyKey : Option String) (reads : Account × OperationLogOperator) :
    IdempotentOptions :=
  options reads.2 submitScope idempotencyKey
    (fingerprintPayload (profilePayload (input.asked reads.1)))

def submitProfileChange (env : ProfileEnvironment) (userId : Nat) (isSuperAdmin : Bool)
    (input : ProfileInput) (idempotencyKey : Option String) (n : Nat) (s : ProfileStore) :
    Except Failure (ProfileReply × Nat × ProfileStore) :=
  match (submitReads env userId input).run n s with
  | .error e => .error e
  | .ok (reads, n, s) =>
      (executeIdempotentOperation profileLog
        (submitOptions fingerprintPayload input idempotencyKey reads)
        (submitRun env userId isSuperAdmin reads.1 (input.asked reads.1))).exec n s

/-! ## Processing and cancelling -/

def ProcessAction.profileText : ProcessAction → String
  | .approve => "APPROVE"
  | .reject => "REJECT"
  | .cancel => "CANCEL"
  | .autoCancel => "AUTO_CANCEL"

def applyChange (requestId : Nat) : ProfileTx Unit := do
  let details ← Txn.query fun v =>
    (v.profileChangeRequests.select fun _ d => d.requestId == requestId).head?
  let detail ← Txn.orThrow details (.of .resourceNotFound)
  let target ← Txn.query fun v => v.users.find? detail.2.userId
  Txn.guard (target.any fun u => u.status == .active) (.of .userNotActive)
  userUpdate detail.2.userId fun u =>
    { u with name := detail.2.newName, gender := detail.2.newGender }

/-- Only an approval takes effect on the account. -/
def takeEffect (requestId : Nat) (action : ProcessAction) : ProfileTx Unit :=
  if action = .approve then applyChange requestId else pure ()

def processRun (env : ProfileEnvironment) (requestId : Nat) (action : ProcessAction)
    (processorId : Nat) (opinion : Option String) :
    ProfileTx (IdempotentOutcome ProfileReply) := do
  let transition ← Txn.liftExcept (resolveProcessTransition action none)
  Txn.liftExcept (assertOpinionIfRequired transition.requiresOpinion opinion)
  let found ← Txn.query fun v => v.approvalRequests.find? requestId
  let head ← Txn.orThrow found (.of .resourceNotFound)
  Txn.guard (head.status == .pending) (.of .statusConflict)
  Txn.liftExcept (assertTransitionAllowed head.status transition.status)
  let processor ← Txn.query fun v => v.users.find? processorId
  let processorName := (processor.map (·.name)).getD ""
  let updated ← updatePendingHead requestId head.version fun r =>
    { r with
      status := transition.status
      version := r.version + 1
      processorId := some processorId
      processorName := some processorName
      processedAt := some env.now
      opinion := opinion }
  Txn.liftExcept (throwIfTransitionLost updated)
  takeEffect requestId action
  let _ ← approvalActionCreate
    ⟨requestId, transition.action, processorId, processorName, opinion, none⟩
  pure ⟨.done, .update, s!"处理了资料修改审批（{ProcessAction.profileText action}）"⟩

def processPayload (action : ProcessAction) (opinion : Option String) : Json :=
  .obj [("action", .str (ProcessAction.profileText action)),
    ("opinion", (opinion.map Json.str).getD .null)]

def processProfileChange (env : ProfileEnvironment) (requestId : Nat) (action : ProcessAction)
    (processorId : Nat) (opinion idempotencyKey : Option String) (n : Nat) (s : ProfileStore) :
    Except Failure (ProfileReply × Nat × ProfileStore) :=
  match (loadOperationLogOperator env processorId).run n s with
  | .error e => .error e
  | .ok (operator, n, s) =>
      (executeIdempotentOperation profileLog
        (options operator s!"base.approval.process/{requestId}" idempotencyKey
          (fingerprintPayload (processPayload action opinion)))
        (processRun env requestId action processorId opinion)).exec n s

def cancelRun (env : ProfileEnvironment) (requestId actorId : Nat) :
    ProfileTx (IdempotentOutcome ProfileReply) := do
  let transition ← Txn.liftExcept (resolveProcessTransition .cancel (some .user))
  let found ← Txn.query fun v => v.approvalRequests.find? requestId
  let head ← Txn.orThrow (found.filter fun r => r.applicantId == actorId) (.of .resourceNotFound)
  Txn.liftExcept (assertPending head.status)
  Txn.liftExcept (assertTransitionAllowed head.status transition.status)
  let actor ← Txn.query fun v => v.users.find? actorId
  let updated ← updatePendingHead requestId head.version fun r =>
    { r with
      status := .cancelled
      version := r.version + 1
      cancelledBy := some actorId
      cancelledAt := some env.now
      cancelSource := some .user }
  Txn.liftExcept (throwIfTransitionLost updated)
  let _ ← approvalActionCreate
    ⟨requestId, .cancel, actorId, (actor.map (·.name)).getD "", none, some .user⟩
  pure ⟨.done, .update, "取消了资料修改审批"⟩

def cancelProfileChange (env : ProfileEnvironment) (requestId actorId : Nat)
    (idempotencyKey : Option String) (n : Nat) (s : ProfileStore) :
    Except Failure (ProfileReply × Nat × ProfileStore) :=
  match (loadOperationLogOperator env actorId).run n s with
  | .error e => .error e
  | .ok (operator, n, s) =>
      (executeIdempotentOperation profileLog
        (options operator s!"base.approval.cancel/{requestId}" idempotencyKey
          (fingerprintPayload (.obj [("cancel", .bool true)])))
        (cancelRun env requestId actorId)).exec n s

/-! ## Runs -/

/-- What happens between two submissions. -/
inductive ProfileEvent where
  | submit (env : ProfileEnvironment) (userId : Nat) (isSuperAdmin : Bool) (input : ProfileInput)
    (idempotencyKey : Option String)
  | process (env : ProfileEnvironment) (requestId : Nat) (action : ProcessAction)
    (processorId : Nat) (opinion idempotencyKey : Option String)
  | cancel (env : ProfileEnvironment) (requestId actorId : Nat) (idempotencyKey : Option String)
  /-- Other operations change accounts and requests as they like. -/
  | elsewhere (users : Table Account) (approvalRequests : Table ApprovalRequest)
  /-- And they log what they did. -/
  | logged (row : OperationLog ProfileReply)

/-- The store after a call; a failed one leaves it alone. -/
def after (r : Except Failure (ProfileReply × Nat × ProfileStore)) (n : Nat) (s : ProfileStore) :
    Nat × ProfileStore :=
  match r with
  | .ok (_, n', s') => (n', s')
  | .error _ => (n, s)

def step (n : Nat) (s : ProfileStore) : ProfileEvent → Nat × ProfileStore
  | .submit env userId isSuperAdmin input key =>
      after (submitProfileChange fingerprintPayload env userId isSuperAdmin input key n s) n s
  | .process env requestId action processorId opinion key =>
      after (processProfileChange fingerprintPayload env requestId action processorId opinion key n s) n s
  | .cancel env requestId actorId key =>
      after (cancelProfileChange fingerprintPayload env requestId actorId key n s) n s
  | .elsewhere users approvalRequests =>
      (n, { s with users := users, approvalRequests := approvalRequests })
  | .logged row => (n + 1, { s with operationLogs := s.operationLogs.insert n row })

def run (events : List ProfileEvent) (n : Nat) (s : ProfileStore) : Nat × ProfileStore :=
  events.foldl (fun st event => step fingerprintPayload st.1 st.2 event) (n, s)

def start (users : Table Account) : ProfileStore := ⟨users, .empty, .empty, .empty, .empty⟩

end Calls

section KeepsLog

theorem keepsLog_userUpdate (id : Nat) (f : Account → Account) :
    KeepsLog profileLog (userUpdate id f) := by
  apply keepsLog_act
  intro s a c h
  split at h
  · cases h
    rfl
  · cases h

theorem keepsLog_updatePendingHead (id version : Nat) (f : ApprovalRequest → ApprovalRequest) :
    KeepsLog profileLog (updatePendingHead id version f) := by
  apply keepsLog_act
  intro s a c h
  split at h
  · cases h
    rfl
  · cases h
    rfl

theorem keepsLog_approvalActionCreate (row : ApprovalActionRow) :
    KeepsLog profileLog (approvalActionCreate row) := keepsLog_create fun _ _ => rfl

variable {α : Type}

theorem keepsLog_query (f : ProfileStore → α) : KeepsLog profileLog (Txn.query f : ProfileTx α) := keepsLog_of_readOnly (Txn.readOnly_query f)

theorem keepsLog_orThrow (o : Option α) (e : Failure) :
    KeepsLog profileLog (Txn.orThrow o e : ProfileTx α) :=
  keepsLog_of_readOnly (Txn.readOnly_orThrow o e)

theorem keepsLog_guard (c : Bool) (e : Failure) :
    KeepsLog profileLog (Txn.guard c e : ProfileTx Unit) :=
  keepsLog_of_readOnly (Txn.readOnly_guard c e)

theorem keepsLog_liftExcept (r : Except Failure α) :
    KeepsLog profileLog (Txn.liftExcept r : ProfileTx α) :=
  keepsLog_of_readOnly (Txn.readOnly_liftExcept r)

variable (env : ProfileEnvironment)

theorem keepsLog_submitRun (userId : Nat) (isSuperAdmin : Bool) (user : Account)
    (asked : String × Gender) :
    KeepsLog profileLog (submitRun env userId isSuperAdmin user asked) := by
  unfold submitRun
  split
  · exact (keepsLog_userUpdate _ _).bind fun _ => keepsLog_pure _
  · apply KeepsLog.bind
    · exact keepsLog_create fun _ _ => rfl
    · intro requestId
      apply KeepsLog.bind
      · exact keepsLog_create fun _ _ => rfl
      · intro _
        exact (keepsLog_approvalActionCreate _).bind fun _ => keepsLog_pure _

theorem keepsLog_applyChange (requestId : Nat) : KeepsLog profileLog (applyChange requestId) := by
  refine (keepsLog_query _).bind fun details => ?_
  refine (keepsLog_orThrow _ _).bind fun detail => ?_
  refine (keepsLog_query _).bind fun target => ?_
  exact (keepsLog_guard _ _).bind fun _ => keepsLog_userUpdate _ _

theorem keepsLog_takeEffect (requestId : Nat) (action : ProcessAction) :
    KeepsLog profileLog (takeEffect requestId action) := by
  unfold takeEffect
  split
  · exact keepsLog_applyChange requestId
  · exact keepsLog_pure ()

theorem keepsLog_processRun (requestId : Nat) (action : ProcessAction) (processorId : Nat)
    (opinion : Option String) :
    KeepsLog profileLog (processRun env requestId action processorId opinion) := by
  refine (keepsLog_liftExcept _).bind fun transition => ?_
  refine (keepsLog_liftExcept _).bind fun _ => ?_
  refine (keepsLog_query _).bind fun found => ?_
  refine (keepsLog_orThrow _ _).bind fun head => ?_
  refine (keepsLog_guard _ _).bind fun _ => ?_
  refine (keepsLog_liftExcept _).bind fun _ => ?_
  refine (keepsLog_query _).bind fun processor => ?_
  refine (keepsLog_updatePendingHead _ _ _).bind fun updated => ?_
  refine (keepsLog_liftExcept _).bind fun _ => ?_
  refine (keepsLog_takeEffect _ _).bind fun _ => ?_
  exact (keepsLog_approvalActionCreate _).bind fun _ => keepsLog_pure _

theorem keepsLog_cancelRun (requestId actorId : Nat) :
    KeepsLog profileLog (cancelRun env requestId actorId) := by
  refine (keepsLog_liftExcept _).bind fun transition => ?_
  refine (keepsLog_query _).bind fun found => ?_
  refine (keepsLog_orThrow _ _).bind fun head => ?_
  refine (keepsLog_liftExcept _).bind fun _ => ?_
  refine (keepsLog_liftExcept _).bind fun _ => ?_
  refine (keepsLog_query _).bind fun actor => ?_
  refine (keepsLog_updatePendingHead _ _ _).bind fun updated => ?_
  refine (keepsLog_liftExcept _).bind fun _ => ?_
  exact (keepsLog_approvalActionCreate _).bind fun _ => keepsLog_pure _

theorem readOnly_loadOperationLogOperator (operatorId : Nat) :
    (loadOperationLogOperator env operatorId).ReadOnly := by
  refine (Txn.readOnly_query _).bind fun found => ?_
  refine (Txn.readOnly_orThrow _ _).bind fun operator => ?_
  exact (Txn.readOnly_query _).bind fun departments => Txn.readOnly_pure _

theorem readOnly_submitReads (userId : Nat) (input : ProfileInput) :
    (submitReads env userId input).ReadOnly := by
  refine (Txn.readOnly_query _).bind fun found => ?_
  refine (Txn.readOnly_orThrow _ _).bind fun user => ?_
  refine (Txn.readOnly_guard _ _).bind fun _ => ?_
  exact (readOnly_loadOperationLogOperator env userId).bind fun operator => Txn.readOnly_pure _

end KeepsLog

section Later

variable (fingerprintPayload : Json → String)

/-- A property of stores that a call's run and its reads keep, its log row included, holds after
the call. -/
theorem after_exec {I : Nat → ProfileStore → Prop} {o : IdempotentOptions}
    {body : ProfileTx (IdempotentOutcome ProfileReply)}
    (hmain : (executeIdempotentOperation profileLog o body).main.Preserves I) {n : Nat}
    {s : ProfileStore} (h : I n s) :
    I (after ((executeIdempotentOperation profileLog o body).exec n s) n s).1
      (after ((executeIdempotentOperation profileLog o body).exec n s) n s).2 := by
  cases hexec : (executeIdempotentOperation profileLog o body).exec n s with
  | error e => exact h
  | ok r =>
      obtain ⟨reply, n', s'⟩ := r
      rcases Call.exec_ok_cases (readOnly_replayAfterConflict profileLog o) hexec with hrun | hsame
      · exact Txn.wp_of_run_ok (hmain n s h) hrun
      · show I n' s'
        rw [hsame.1, hsame.2]
        exact h

theorem step_keeps {I : Nat → ProfileStore → Prop}
    (hlog : ∀ n s row, I n s → I (n + 1) { s with operationLogs := s.operationLogs.insert n row })
    (hkeeps : ∀ p : ProfileTx (IdempotentOutcome ProfileReply), KeepsLog profileLog p →
      p.Preserves I)
    (hcongr : ∀ n s s', I n s → s'.operationLogs = s.operationLogs → I n s') {n : Nat}
    {s : ProfileStore} (h : I n s) (event : ProfileEvent) :
    I (step fingerprintPayload n s event).1 (step fingerprintPayload n s event).2 := by
  have hmain : ∀ o (body : ProfileTx (IdempotentOutcome ProfileReply)), KeepsLog profileLog body →
      (executeIdempotentOperation profileLog o body).main.Preserves I := fun o body hbody =>
    preserves_executeIdempotentOperation profileLog hlog o (hkeeps body hbody)
  cases event with
  | submit env userId isSuperAdmin input key =>
      unfold step submitProfileChange
      rcases (readOnly_submitReads env userId input).run n s with ⟨reads, hreads⟩ | ⟨e, hreads⟩
      · simp only [hreads]
        exact after_exec (hmain _ _ (keepsLog_submitRun _ _ _ _ _)) h
      · simp only [hreads]
        exact h
  | process env requestId action processorId opinion key =>
      unfold step processProfileChange
      rcases (readOnly_loadOperationLogOperator env processorId).run n s with
        ⟨operator, hreads⟩ | ⟨e, hreads⟩
      · simp only [hreads]
        exact after_exec (hmain _ _ (keepsLog_processRun _ _ _ _ _)) h
      · simp only [hreads]
        exact h
  | cancel env requestId actorId key =>
      unfold step cancelProfileChange
      rcases (readOnly_loadOperationLogOperator env actorId).run n s with
        ⟨operator, hreads⟩ | ⟨e, hreads⟩
      · simp only [hreads]
        exact after_exec (hmain _ _ (keepsLog_cancelRun _ _ _)) h
      · simp only [hreads]
        exact h
  | elsewhere users approvalRequests => exact hcongr n s _ h rfl
  | logged row => exact hlog n s row h

theorem below_run (events : List ProfileEvent) {n : Nat} {s : ProfileStore}
    (h : s.operationLogs.Below n) :
    (run fingerprintPayload events n s).2.operationLogs.Below
      (run fingerprintPayload events n s).1 := by
  induction events generalizing n s with
  | nil => exact h
  | cons event events ih =>
      refine ih (step_keeps fingerprintPayload (I := fun n s => s.operationLogs.Below n) ?_ ?_ ?_ h event)
      · intro n s row hn
        exact hn.insert_succ row
      · intro p hp n s hn
        refine Txn.wp_mono (hp n s.operationLogs n s ⟨Nat.le_refl n, rfl⟩) ?_
        intro _ n' s' hlater
        have hsame : s'.operationLogs = s.operationLogs := hlater.2
        show s'.operationLogs.Below n'
        rw [hsame]
        exact hn.mono hlater.1
      · intro n s s' hn hsame
        show s'.operationLogs.Below n
        rw [hsame]
        exact hn

theorem recorded_run {o : IdempotentOptions} {reply : ProfileReply} (events : List ProfileEvent)
    {n : Nat} {s : ProfileStore} (h : Recorded profileLog o reply n s) :
    Recorded profileLog o reply (run fingerprintPayload events n s).1
      (run fingerprintPayload events n s).2 := by
  induction events generalizing n s with
  | nil => exact h
  | cons event events ih =>
      refine ih (step_keeps fingerprintPayload (I := Recorded profileLog o reply) ?_ ?_ ?_ h event)
      · intro n s row hrecorded
        exact hrecorded.insert row
      · intro p hp
        exact hp.preserves_recorded
      · intro n s s' hrecorded hsame
        exact hrecorded.congr hsame

end Later

section Again

variable (fingerprintPayload : Json → String)

/-- The account may still submit, still differs from what is asked for, and what is asked for
has the fingerprint that it had. -/
def StillAsks (userId : Nat) (input : ProfileInput) (s₀ s : ProfileStore) : Prop :=
  ∃ user₀ user, s₀.users.find? userId = some user₀ ∧ s.users.find? userId = some user ∧
    user.status = .active ∧ user.deletedAt = none ∧ input.asked user ≠ user.profile ∧
    fingerprintPayload (profilePayload (input.asked user)) =
      fingerprintPayload (profilePayload (input.asked user₀))

theorem run_submitReads_ok {env : ProfileEnvironment} {userId : Nat} {input : ProfileInput}
    {n : Nat} {s : ProfileStore} {r : (Account × OperationLogOperator) × Nat × ProfileStore} :
    (submitReads env userId input).run n s = .ok r ↔
      ∃ user, s.users.find? userId = some user ∧ user.status = .active ∧ user.deletedAt = none ∧
        input.asked user ≠ user.profile ∧
        r = ((user, ⟨userId, user.name, (env.departmentsOf userId).getD []⟩), n, s) := by
  unfold submitReads loadOperationLogOperator
  simp only [Txn.run_bind, Txn.run_query, Txn.run_orThrow, Txn.run_guard]
  cases hfind : s.users.find? userId with
  | none => simp
  | some user =>
      by_cases hactive : user.status = .active
      · have hfilter : (some user).filter (fun u => u.status == .active) = some user := by
          simp [hactive]
        simp only [hfilter, Option.elim_some]
        by_cases hasked : input.asked user = user.profile
        · simp [hactive, hasked]
        · simp only [bne_iff_ne, ne_eq, hasked, not_false_eq_true, if_true, hfind]
          cases hdeleted : user.deletedAt with
          | some t =>
              have hgone : (some user).filter (fun u => u.deletedAt.isNone) = none := by
                simp [hdeleted]
              simp only [hgone, Option.elim_none]
              constructor
              · intro h
                cases h
              · intro h
                rcases h with ⟨user', huser, -, hnone, -⟩
                cases huser
                rw [hdeleted] at hnone
                cases hnone
          | none =>
              have hkept : (some user).filter (fun u => u.deletedAt.isNone) = some user := by
                simp [hdeleted]
              simp only [hkept, Option.elim_some]
              constructor
              · intro h
                cases h
                exact ⟨user, rfl, hactive, hdeleted, hasked, rfl⟩
              · intro h
                rcases h with ⟨user', huser, -, -, -, hr⟩
                cases huser
                rw [hr]
                rfl
      · have hfilter : (some user).filter (fun u => u.status == .active) = none := by
          simp [hactive]
        simp only [hfilter, Option.elim_none]
        constructor
        · intro h
          cases h
        · intro h
          rcases h with ⟨user', huser, hstatus, -⟩
          cases huser
          exact absurd hstatus hactive

/-- After a submission that succeeded under a key, at any later time, submitting again answers
the same and changes nothing exactly when the account still asks for the same. -/
theorem submitProfileChange_replayed_iff (users : Table Account) (n : Nat)
    (before later : List ProfileEvent) (env env' : ProfileEnvironment) (userId : Nat)
    (isSuperAdmin isSuperAdmin' : Bool) (input : ProfileInput) (key : String) (hkey : key ≠ "")
    (reply : ProfileReply) (n₁ : Nat) (s₁ : ProfileStore)
    (hfirst : submitProfileChange fingerprintPayload env userId isSuperAdmin input (some key)
      (run fingerprintPayload before n (start users)).1
      (run fingerprintPayload before n (start users)).2 = .ok (reply, n₁, s₁)) :
    submitProfileChange fingerprintPayload env' userId isSuperAdmin' input (some key)
        (run fingerprintPayload later n₁ s₁).1 (run fingerprintPayload later n₁ s₁).2 =
        .ok (reply, run fingerprintPayload later n₁ s₁) ↔
      StillAsks fingerprintPayload userId input
        (run fingerprintPayload before n (start users)).2
        (run fingerprintPayload later n₁ s₁).2 := by
  have hbelow := below_run fingerprintPayload before (n := n) (s := start users)
    (Table.below_empty n)
  have hsome : ∀ reads, (submitOptions fingerprintPayload input (some key) reads).key = some key := by
    intro reads
    simp [IdempotentOptions.key, submitOptions, options, hkey]
  unfold submitProfileChange at hfirst
  cases hreads : (submitReads env userId input).run
      (run fingerprintPayload before n (start users)).1
      (run fingerprintPayload before n (start users)).2 with
  | error e =>
      rw [hreads] at hfirst
      cases hfirst
  | ok r =>
      rw [hreads] at hfirst
      obtain ⟨user₀, huser₀, -, -, -, hr⟩ := run_submitReads_ok.mp hreads
      subst hr
      have hrecorded := recorded_run fingerprintPayload later
        (recorded_of_exec (hsome _) (keepsLog_submitRun _ _ _ _ _) hbelow hfirst)
      unfold submitProfileChange
      cases hagain : (submitReads env' userId input).run (run fingerprintPayload later n₁ s₁).1
          (run fingerprintPayload later n₁ s₁).2 with
      | error e =>
          refine iff_of_false (fun h => by cases h) ?_
          rintro ⟨_, user, -, huser, hactive, hdeleted, hasked, -⟩
          rw [run_submitReads_ok.mpr ⟨user, huser, hactive, hdeleted, hasked, rfl⟩] at hagain
          cases hagain
      | ok r =>
          obtain ⟨user, huser, hactive, hdeleted, hasked, hr⟩ := run_submitReads_ok.mp hagain
          subst hr
          have hoperator : (submitOptions fingerprintPayload input (some key)
              (user, ⟨userId, user.name, (env'.departmentsOf userId).getD []⟩)).operator.id =
              userId := rfl
          have hexec := exec_of_recorded hrecorded hoperator rfl ((hsome _).trans (hsome _).symm)
            (submitRun env' userId isSuperAdmin' user (input.asked user))
          show (executeIdempotentOperation profileLog _ _).exec _ _ = _ ↔ _
          rw [hexec]
          constructor
          · intro h
            split at h
            · rename_i hsame
              exact ⟨user₀, user, huser₀, huser, hactive, hdeleted, hasked, hsame⟩
            · cases h
          · rintro ⟨user₀', user', huser₀', huser', -, -, -, hsame⟩
            rw [huser₀] at huser₀'
            rw [huser] at huser'
            cases huser₀'
            cases huser'
            exact if_pos hsame

end Again

section Approved

def plainEnvironment : ProfileEnvironment := ⟨0, fun _ => none, "PC-1"⟩

/-- A payload that stands for its own hash. -/
def plainFingerprint : Json → String
  | .obj [("name", .str name), ("gender", .str gender)] => s!"{name}|{gender}"
  | _ => ""

/-- An employee and someone who approves. -/
def employeeAndManager : Table Account :=
  (Table.empty.insert 1 ⟨"王经理", .female, .active, none⟩).insert 7 ⟨"张三", .male, .active, none⟩

def newName : ProfileInput := ⟨some "李四", none⟩

def firstSubmission : Except Failure (ProfileReply × Nat × ProfileStore) :=
  submitProfileChange plainFingerprint plainEnvironment 7 false newName (some "k1") 100
    (start employeeAndManager)

def laterStore (later : List ProfileEvent) : Nat × ProfileStore :=
  run plainFingerprint later (after firstSubmission 100 (start employeeAndManager)).1
    (after firstSubmission 100 (start employeeAndManager)).2

/-- The manager approves the request. -/
def approved : List ProfileEvent :=
  [.process plainEnvironment 100 .approve 1 none none]

theorem submitProfileChange_replayed_iff_approved :
    ∃ reply n₁ s₁, firstSubmission = .ok (reply, n₁, s₁) ∧
      (submitProfileChange plainFingerprint plainEnvironment 7 false newName (some "k1")
          (run plainFingerprint approved n₁ s₁).1 (run plainFingerprint approved n₁ s₁).2 =
          .ok (reply, run plainFingerprint approved n₁ s₁) ↔
        StillAsks plainFingerprint 7 newName (start employeeAndManager)
          (run plainFingerprint approved n₁ s₁).2) := by
  have hok : firstSubmission.isOk = true := by decide +kernel
  cases hfirst : firstSubmission with
  | error e =>
      rw [hfirst] at hok
      cases hok
  | ok r =>
      obtain ⟨reply, n₁, s₁⟩ := r
      refine ⟨reply, n₁, s₁, rfl, ?_⟩
      exact submitProfileChange_replayed_iff plainFingerprint employeeAndManager 100 [] approved
        plainEnvironment plainEnvironment 7 false false newName "k1" (by decide) reply n₁ s₁ hfirst

/-- The submission made a request. After its approval the same submission is refused, since the
name is the one that is asked for by now. -/
theorem resubmission_refused_after_approval :
    firstSubmission.map (·.1) = .ok (.requested 100) ∧
      (submitProfileChange plainFingerprint plainEnvironment 7 false newName (some "k1")
        (laterStore approved).1 (laterStore approved).2).map (·.1) =
        .error (.of .validationFailed) := by
  decide +kernel

end Approved

end Wbme.Backstage.ProfileChanges
