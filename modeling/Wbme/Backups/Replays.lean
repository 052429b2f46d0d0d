import Wbme.Backups.Requests

/-! # Asking again

A request that succeeded under a key has its record, and is answered from it as soon as it gets
there. But it gets there only after its checks, which the time in between may have turned, and a
confirmation may make an emergency backup on its way; and the fingerprint of another service's
request holds the minute.
-/

namespace Wbme.Backups

open Lib

/-! ## What goes on between two requests -/

/-- Other operations change the facts as they like and draw ids, and they log what they did. -/
inductive PlatformEvent where
  | elsewhere (users : Table PlatformUser) (backups : Table BackupRow) (restores : Table Restore)
      (backgroundTasks : Table PendingTask) (drawn : Nat)
  | logged (row : OperationLog BackupReply)

def PlatformEvent.step (met : Nat × PlatformStore) : PlatformEvent → Nat × PlatformStore
  | .elsewhere users backups restores backgroundTasks drawn =>
      (met.1 + drawn, ⟨users, backups, restores, backgroundTasks, met.2.operationLogs⟩)
  | .logged row =>
      (met.1 + 1, { met.2 with operationLogs := met.2.operationLogs.insert met.1 row })

def runEvents (events : List PlatformEvent) (met : Nat × PlatformStore) : Nat × PlatformStore :=
  events.foldl PlatformEvent.step met

/-- A store without logs so far. -/
def PlatformStore.unlogged (s : PlatformStore) : PlatformStore :=
  { s with operationLogs := .empty }

def Attempt.meeting (a : Attempt) (met : Nat × PlatformStore) : Attempt :=
  { a with executedAt := met }

/-! ## What is promised, and when -/

/-- The facts that a request could create are as they were. -/
structure SameFacts (s s' : PlatformStore) : Prop where
  backups : s'.backups = s.backups
  restores : s'.restores = s.restores
  backgroundTasks : s'.backgroundTasks = s.backgroundTasks

/-- A request answers as it did the first time, and creates nothing. -/
structure Replayed (sent : Sent) (reply : BackupReply) (met : PlatformStore) : Prop where
  answer : ∃ n s, sent.answer = .ok (reply, n, s) ∧ SameFacts met s
  written : ∀ w, sent.written = some w → SameFacts w.1 w.2

def DiskStatus.accepts (disk : DiskStatus) : Bool := disk.measurementAvailable && !disk.isCritical

def Request.Ready (env : PlatformEnvironment) (first again : Attempt) : Request → Prop
  | .immediate operatorId _ =>
      again.disk.accepts = true ∧ hasActiveRestore again.restoresAt = false ∧
        (liveUser? again.operatorAt operatorId).isSome = true
  | .internal caller _ =>
      again.disk.accepts = true ∧ hasActiveRestore again.restoresAt = false ∧
        env.fingerprintPayload (internalPayload env caller again.now) =
          env.fingerprintPayload (internalPayload env caller first.now)
  | .confirm operatorId backupId proceed _ =>
      isLiveSuperAdmin again.superAdminAt operatorId = true ∧
        isSucceededBackup again.targetAt backupId = true ∧
        hasActiveRestore again.restoresAt = false ∧ runningBackup? again.runningAt = none ∧
        (∃ id, recentEmergency? again.now again.emergencyAt.2 = some id ∧
          (waitForEmergencyBackup id again.pollsAt || proceed.getD false) = true) ∧
        (liveUser? again.operatorAt operatorId).isSome = true

section Record

variable {env : PlatformEnvironment}

theorem keepsLog_createPendingTask (task : PendingTask) :
    KeepsLog platformLog (createPendingTask task) := by
  refine KeepsLog.bind (keepsLog_create ?_) fun _ => keepsLog_pure ()
  intro n s
  rfl

theorem keepsLog_createBackup (row : BackupRow) : KeepsLog platformLog (createBackup row) := by
  refine KeepsLog.bind (fun m t n s h => ⟨Nat.le_succ_of_le h.1, h.2⟩) fun id => ?_
  refine keepsLog_act fun s a c hc => ?_
  split at hc
  · cases hc
  · cases hc
    rfl

theorem keepsLog_createBackupWithTask (now : Int) (taskType : BackupType) (initiatorId : Nat) :
    KeepsLog platformLog (createBackupWithTask env now taskType initiatorId) := by
  refine KeepsLog.bind (keepsLog_createBackup _) fun backupId => KeepsLog.bind ?_ fun _ =>
    (keepsLog_createPendingTask _).bind fun _ => keepsLog_pure _
  refine keepsLog_act fun s a c hc => ?_
  cases hc
  rfl

theorem keepsLog_immediateRun (now : Int) (initiatorId : Nat) (summary : String) :
    KeepsLog platformLog (immediateRun env now initiatorId summary) :=
  (keepsLog_createBackupWithTask now .immediate initiatorId).bind fun _ => keepsLog_pure _

theorem keepsLog_confirmRun (operatorId backupId restoreUuid : Nat) :
    KeepsLog platformLog (confirmRun env operatorId backupId restoreUuid) := by
  refine (keepsLog_of_readOnly (Txn.readOnly_query _)).bind fun _ => ?_
  refine (keepsLog_of_readOnly (Txn.readOnly_guard _ _)).bind fun _ => ?_
  refine (keepsLog_of_readOnly (Txn.readOnly_query _)).bind fun _ => ?_
  refine (keepsLog_of_readOnly (Txn.readOnly_guard _ _)).bind fun _ => ?_
  refine KeepsLog.bind (keepsLog_create ?_) fun _ =>
    (keepsLog_createPendingTask _).bind fun _ => keepsLog_pure _
  intro n s
  rfl

theorem below_runEvents (events : List PlatformEvent) {met : Nat × PlatformStore}
    (h : met.2.operationLogs.Below met.1) :
    (runEvents events met).2.operationLogs.Below (runEvents events met).1 := by
  induction events generalizing met with
  | nil => exact h
  | cons event events ih =>
      refine ih ?_
      cases event with
      | elsewhere users backups restores tasks drawn => exact h.mono (Nat.le_add_right _ _)
      | logged row => exact h.insert_succ row

theorem recorded_runEvents {o : IdempotentOptions} {reply : BackupReply}
    (events : List PlatformEvent) {met : Nat × PlatformStore}
    (h : Recorded platformLog o reply met.1 met.2) :
    Recorded platformLog o reply (runEvents events met).1 (runEvents events met).2 := by
  induction events generalizing met with
  | nil => exact h
  | cons event events ih =>
      refine ih ?_
      cases event with
      | elsewhere users backups restores tasks drawn =>
          refine Recorded.mono (n := met.1) ?_ (Nat.le_add_right _ _)
          exact h.congr rfl
      | logged row => exact h.insert row

section Execution

variable {o o' : IdempotentOptions} {key : String}
  {run run' : PlatformTx (IdempotentOutcome BackupReply)} {met : Nat × PlatformStore}
  {reply : BackupReply} {n : Nat} {s : PlatformStore}

/-- After an operation that succeeded under a key, an operation under the same key answers the
same if it has the same fingerprint, and is refused otherwise. -/
theorem exec_again (hkey : o.key = some key) (hkey' : o'.key = some key)
    (hoperator : o'.operator.id = o.operator.id) (hscope : o'.scope = o.scope)
    (hrun : KeepsLog platformLog run) (hbelow : met.2.operationLogs.Below met.1)
    (hfirst : (executeIdempotentOperation platformLog o run).exec met.1 met.2 = .ok (reply, n, s))
    (later : List PlatformEvent) :
    (executeIdempotentOperation platformLog o' run').exec (runEvents later (n, s)).1
        (runEvents later (n, s)).2 =
      if o'.fingerprint = o.fingerprint then .ok (reply, runEvents later (n, s))
      else .error (.of .idempotencyKeyReused) :=
  exec_of_recorded (recorded_runEvents later (recorded_of_exec hkey hrun hbelow hfirst)) hoperator
    hscope (hkey'.trans hkey.symm) run'

theorem exec_same (hkey : o.key = some key) (hkey' : o'.key = some key)
    (hoperator : o'.operator.id = o.operator.id) (hscope : o'.scope = o.scope)
    (hrun : KeepsLog platformLog run) (hbelow : met.2.operationLogs.Below met.1)
    (hfirst : (executeIdempotentOperation platformLog o run).exec met.1 met.2 = .ok (reply, n, s))
    (later : List PlatformEvent) (hsame : o'.fingerprint = o.fingerprint) :
    (executeIdempotentOperation platformLog o' run').exec (runEvents later (n, s)).1
        (runEvents later (n, s)).2 = .ok (reply, runEvents later (n, s)) :=
  (exec_again hkey hkey' hoperator hscope hrun hbelow hfirst later).trans (if_pos hsame)

theorem fingerprint_of_exec_ok (hkey : o.key = some key) (hkey' : o'.key = some key)
    (hoperator : o'.operator.id = o.operator.id) (hscope : o'.scope = o.scope)
    (hrun : KeepsLog platformLog run) (hbelow : met.2.operationLogs.Below met.1)
    (hfirst : (executeIdempotentOperation platformLog o run).exec met.1 met.2 = .ok (reply, n, s))
    (later : List PlatformEvent) {r : BackupReply × Nat × PlatformStore}
    (hagain : (executeIdempotentOperation platformLog o' run').exec (runEvents later (n, s)).1
      (runEvents later (n, s)).2 = .ok r) : o'.fingerprint = o.fingerprint := by
  rw [exec_again hkey hkey' hoperator hscope hrun hbelow hfirst later] at hagain
  split at hagain
  · assumption
  · cases hagain

end Execution

end Record

section Checks

variable {env : PlatformEnvironment} {a : Attempt} {operatorId backupId : Nat}
  {r : BackupReply × Nat × PlatformStore}

theorem bind_ok {α β : Type} {p : Except Failure α} {q : α → Except Failure β} {b : β} :
    (p >>= q) = .ok b ↔ ∃ a, p = .ok a ∧ q a = .ok b := by
  cases p with
  | error e =>
      constructor
      · intro h
        cases h
      · rintro ⟨a, h, -⟩
        cases h
  | ok a =>
      constructor
      · intro h
        exact ⟨a, rfl, h⟩
      · rintro ⟨a', h, hq⟩
        cases h
        exact hq

theorem seq_ok {β : Type} {p : Except Failure Unit} {q : Except Failure β} {b : β} :
    (do p; q) = .ok b ↔ p = .ok () ∧ q = .ok b := by
  rw [bind_ok]
  constructor
  · rintro ⟨⟨⟩, h⟩
    exact h
  · intro h
    exact ⟨(), h⟩

theorem assertDiskAcceptsCapacityWrites_ok {disk : DiskStatus} :
    assertDiskAcceptsCapacityWrites disk = .ok () ↔ disk.accepts = true := by
  unfold assertDiskAcceptsCapacityWrites DiskStatus.accepts
  cases disk.measurementAvailable with
  | false => simp
  | true =>
      cases disk.isCritical with
      | false => simp
      | true => simp

theorem assertNoActiveRestore_ok {s : PlatformStore} :
    assertNoActiveRestore s = .ok () ↔ hasActiveRestore s = false := by
  unfold assertNoActiveRestore
  cases hasActiveRestore s with
  | false => simp
  | true => simp

theorem assertSuperAdmin_ok {s : PlatformStore} :
    assertSuperAdmin s operatorId = .ok () ↔ isLiveSuperAdmin s operatorId = true := by
  unfold assertSuperAdmin
  cases isLiveSuperAdmin s operatorId with
  | false => simp
  | true => simp

theorem assertTargetSucceeded_ok {s : PlatformStore} :
    assertTargetSucceeded s backupId = .ok () ↔ isSucceededBackup s backupId = true := by
  unfold assertTargetSucceeded
  cases isSucceededBackup s backupId with
  | false => simp
  | true => simp

theorem assertNoRunningBackup_ok {s : PlatformStore} :
    assertNoRunningBackup s = .ok () ↔ runningBackup? s = none := by
  unfold assertNoRunningBackup
  cases runningBackup? s with
  | none => simp
  | some id => simp

theorem loadOperationLogOperator_ok {s : PlatformStore} {departments : List DepartmentRef}
    {operator : OperationLogOperator} :
    loadOperationLogOperator s departments operatorId = .ok operator ↔
      ∃ user, liveUser? s operatorId = some user ∧
        operator = ⟨operatorId, user.name, departments⟩ := by
  unfold loadOperationLogOperator
  cases liveUser? s operatorId with
  | none => simp
  | some user =>
      constructor
      · intro h
        cases h
        exact ⟨user, rfl, rfl⟩
      · rintro ⟨user', huser, rfl⟩
        cases huser
        rfl

variable {key : Option String}

theorem triggerImmediateBackup_ok :
    triggerImmediateBackup env operatorId key a = .ok r ↔
      a.disk.accepts = true ∧ hasActiveRestore a.restoresAt = false ∧
        ∃ user, liveUser? a.operatorAt operatorId = some user ∧
          (executeIdempotentOperation platformLog
            (backupOptions env ⟨operatorId, user.name, a.departments⟩
              (key.getD s!"immediate:{operatorId}:{a.randomKey}")
              (.obj [("operatorId", .num operatorId)]))
            (immediateRun env a.now operatorId "发起立即备份")).exec a.executedAt.1
              a.executedAt.2 = .ok r := by
  unfold triggerImmediateBackup
  rw [seq_ok, seq_ok, bind_ok, assertDiskAcceptsCapacityWrites_ok, assertNoActiveRestore_ok]
  refine and_congr_right fun _ => and_congr_right fun _ => ?_
  constructor
  · rintro ⟨operator, hoperator, hexec⟩
    obtain ⟨user, huser, rfl⟩ := loadOperationLogOperator_ok.mp hoperator
    exact ⟨user, huser, hexec⟩
  · rintro ⟨user, huser, hexec⟩
    exact ⟨_, loadOperationLogOperator_ok.mpr ⟨user, huser, rfl⟩, hexec⟩

theorem triggerImmediateBackupInternal_ok {caller : String} :
    triggerImmediateBackupInternal env caller key a = .ok r ↔
      a.disk.accepts = true ∧ hasActiveRestore a.restoresAt = false ∧
        (executeIdempotentOperation platformLog
          (backupOptions env ⟨0, s!"system:{caller}", []⟩
            (key.getD s!"internal:{caller}:{env.windowKey a.now}")
            (internalPayload env caller a.now))
          (immediateRun env a.now 0 s!"系统调用方 {caller} 发起立即备份")).exec
            a.executedAt.1 a.executedAt.2 = .ok r := by
  unfold triggerImmediateBackupInternal
  rw [seq_ok, seq_ok, assertDiskAcceptsCapacityWrites_ok, assertNoActiveRestore_ok]

theorem confirmChecks_ok :
    confirmChecks operatorId backupId a = .ok () ↔
      isLiveSuperAdmin a.superAdminAt operatorId = true ∧
        isSucceededBackup a.targetAt backupId = true ∧
        hasActiveRestore a.restoresAt = false ∧ runningBackup? a.runningAt = none := by
  unfold confirmChecks
  rw [seq_ok, seq_ok, seq_ok, assertSuperAdmin_ok, assertTargetSucceeded_ok,
    assertNoActiveRestore_ok, assertNoRunningBackup_ok]

theorem confirmWith_ok {emergencyBackupId : Nat} {proceed : Option Bool} {key : Option String} :
    confirmWith env operatorId backupId emergencyBackupId proceed key a = .ok r ↔
      (waitForEmergencyBackup emergencyBackupId a.pollsAt || proceed.getD false) = true ∧
        ∃ user, liveUser? a.operatorAt operatorId = some user ∧
          (executeIdempotentOperation platformLog
            (confirmOptions env ⟨operatorId, user.name, a.departments⟩ key backupId)
            (confirmRun env operatorId backupId a.randomUuid)).exec a.executedAt.1
              a.executedAt.2 = .ok r := by
  unfold confirmWith
  cases hready : (waitForEmergencyBackup emergencyBackupId a.pollsAt || proceed.getD false) with
  | false =>
      rw [Bool.or_eq_false_iff] at hready
      simp only [hready.1, hready.2]
      constructor
      · intro h
        cases h
      · rintro ⟨h, -⟩
        cases h
  | true =>
      have hskip : (!waitForEmergencyBackup emergencyBackupId a.pollsAt && !proceed.getD false) =
          false := by
        rw [← Bool.not_or, hready]
        rfl
      simp only [hskip, Bool.false_eq_true, if_false, true_and]
      constructor
      · intro h
        obtain ⟨operator, hoperator, hexec⟩ := bind_ok.mp h
        obtain ⟨user, huser, rfl⟩ := loadOperationLogOperator_ok.mp hoperator
        exact ⟨user, huser, hexec⟩
      · rintro ⟨user, huser, hexec⟩
        exact bind_ok.mpr ⟨_, loadOperationLogOperator_ok.mpr ⟨user, huser, rfl⟩, hexec⟩

theorem confirmRestore_ok {proceed : Option Bool} {key : Option String} :
    (confirmRestore env operatorId backupId proceed key a).answer = .ok r ↔
      confirmChecks operatorId backupId a = .ok () ∧ ∃ emergencyBackupId left,
        ensureEmergencyBackup env a.now operatorId a.emergencyAt.1 a.emergencyAt.2 =
          .ok (emergencyBackupId, left) ∧
        confirmWith env operatorId backupId emergencyBackupId proceed key a = .ok r ∧
        (confirmRestore env operatorId backupId proceed key a).written =
          some (a.emergencyAt.2, left) := by
  unfold confirmRestore
  cases confirmChecks operatorId backupId a with
  | error e =>
      constructor
      · intro h
        cases h
      · rintro ⟨h, -⟩
        cases h
  | ok checked =>
      cases ensureEmergencyBackup env a.now operatorId a.emergencyAt.1 a.emergencyAt.2 with
      | error e =>
          constructor
          · intro h
            cases h
          · rintro ⟨-, _, _, h, -⟩
            cases h
      | ok ensured =>
          constructor
          · intro h
            exact ⟨rfl, ensured.1, ensured.2, rfl, h, rfl⟩
          · rintro ⟨-, _, _, h, hwith, -⟩
            cases h
            exact hwith

theorem confirmRestore_of_ok {proceed : Option Bool} {emergency : Nat} {left : PlatformStore}
    (hchecks : confirmChecks operatorId backupId a = .ok ())
    (hensure : ensureEmergencyBackup env a.now operatorId a.emergencyAt.1 a.emergencyAt.2 =
      .ok (emergency, left))
    (hwith : confirmWith env operatorId backupId emergency proceed key a = .ok r) :
    confirmRestore env operatorId backupId proceed key a =
      ⟨.ok r, some (a.emergencyAt.2, left)⟩ := by
  unfold confirmRestore
  rw [hchecks]
  simp only [hensure, hwith]

end Checks

section Again

variable {env : PlatformEnvironment}

variable {operator : OperationLogOperator}

theorem key_backupOptions {key : String} {payload : Json} (hne : key ≠ "") :
    (backupOptions env operator key payload).key = some key := by
  simp [IdempotentOptions.key, backupOptions, hne]

theorem key_confirmOptions {key : String} {backupId : Nat} (hne : key ≠ "") :
    (confirmOptions env operator (some key) backupId).key = some key := by
  simp [IdempotentOptions.key, confirmOptions, hne]

theorem Replayed.intro {sent : Sent} {reply : BackupReply} {met : Nat × PlatformStore}
    (hanswer : sent.answer = .ok (reply, met))
    (hwritten : ∀ w, sent.written = some w → SameFacts w.1 w.2) : Replayed sent reply met.2 :=
  ⟨⟨met.1, met.2, hanswer, rfl, rfl, rfl⟩, hwritten⟩

theorem safe_createBackup (row : BackupRow) (n : Nat) (s : PlatformStore) :
    (createBackup row).safe
      (fun _ _ s' => s.backups.find? n = none ∧ (s'.backups.find? n).isSome = true) n s := by
  unfold createBackup
  refine (Txn.wp_bind _ _).mpr (Txn.wp_nextId.mpr ((Txn.wp_act _ _).mpr ?_))
  cases hn : s.backups.find? n with
  | some b => trivial
  | none =>
      show none = none ∧ ((s.backups.insert n row).find? n).isSome = true
      rw [Table.find?_insert_self]
      exact ⟨rfl, rfl⟩

theorem safe_createBackupWithTask (now : Int) (taskType : BackupType) (initiatorId n : Nat)
    (s : PlatformStore) :
    (createBackupWithTask env now taskType initiatorId).safe
      (fun _ _ s' => s.backups.find? n = none ∧ (s'.backups.find? n).isSome = true) n s := by
  unfold createBackupWithTask
  refine Txn.safe_bind (safe_createBackup _ n s) fun id n₁ s₁ h₁ => ?_
  refine Txn.safe_bind (R := fun _ _ s' => s.backups.find? n = none ∧
    (s'.backups.find? n).isSome = true) ?_ fun _ n₂ s₂ h₂ => ?_
  · refine (Txn.wp_exec _ _).mpr ⟨h₁.1, ?_⟩
    show ((s₁.backups.update id _).find? n).isSome = true
    rw [Table.find?_update, Option.isSome_map]
    exact h₁.2
  · refine Txn.safe_bind (R := fun _ _ s' => s.backups.find? n = none ∧
      (s'.backups.find? n).isSome = true) ?_ fun _ _ _ h => h
    unfold createPendingTask
    refine Txn.safe_bind (R := fun _ _ s' => s.backups.find? n = none ∧
      (s'.backups.find? n).isSome = true) ?_ fun _ _ _ h => h
    exact Txn.safe_create fun _ => h₂

theorem sameFacts_ensureEmergencyBackup {now : Int} {operatorId n id : Nat}
    {s left : PlatformStore} (h : ensureEmergencyBackup env now operatorId n s = .ok (id, left)) :
    SameFacts s left ↔ recentEmergency? now s = some id := by
  unfold ensureEmergencyBackup at h
  cases hrecent : recentEmergency? now s with
  | some found =>
      rw [hrecent] at h
      cases h
      exact iff_of_true ⟨rfl, rfl, rfl⟩ rfl
  | none =>
      rw [hrecent] at h
      refine iff_of_false (fun hsame => ?_) nofun
      cases hrun : (createBackupWithTask env now .emergency operatorId).run n s with
      | error e =>
          simp only [hrun] at h
          cases h
      | ok r =>
          simp only [hrun] at h
          cases h
          obtain ⟨hnone, hsome⟩ :=
            Txn.wp_of_run_ok (safe_createBackupWithTask now .emergency operatorId n s) hrun
          have hsome : (r.2.2.backups.find? n).isSome = true := hsome
          rw [hsame.backups, hnone] at hsome
          cases hsome

/-- After a request that succeeded under a key, at any later time, the same request answers the
same and creates nothing exactly when its checks hold again, an emergency backup is at hand where
it needs one, and the fingerprint is that of the first time. -/
theorem replayed_iff (start : PlatformStore) (n : Nat) (before later : List PlatformEvent)
    (request : Request) (first again : Attempt) (key : String) (reply : BackupReply) (n₁ : Nat)
    (s₁ : PlatformStore) (hkey : request.idempotencyKey = some key) (hne : key ≠ "")
    (hfirst : (request.send env (first.meeting (runEvents before (n, start.unlogged)))).answer =
      .ok (reply, n₁, s₁)) :
    Replayed (request.send env (again.meeting (runEvents later (n₁, s₁)))) reply
        (runEvents later (n₁, s₁)).2 ↔ request.Ready env first again := by
  have hbelow : (runEvents before (n, start.unlogged)).2.operationLogs.Below
      (runEvents before (n, start.unlogged)).1 := below_runEvents before (Table.below_empty n)
  cases request with
  | immediate operatorId givenKey =>
      obtain rfl : givenKey = some key := hkey
      obtain ⟨-, -, user₀, -, hexec₀⟩ := triggerImmediateBackup_ok.mp hfirst
      constructor
      · intro h
        obtain ⟨_, _, hanswer, -⟩ := h.answer
        obtain ⟨hdisk, hactive, user, huser, -⟩ := triggerImmediateBackup_ok.mp hanswer
        exact ⟨hdisk, hactive, Option.isSome_iff_exists.mpr ⟨user, huser⟩⟩
      · rintro ⟨hdisk, hactive, hlive⟩
        obtain ⟨user, huser⟩ := Option.isSome_iff_exists.mp hlive
        refine Replayed.intro
          (triggerImmediateBackup_ok.mpr ⟨hdisk, hactive, user, huser, ?_⟩) nofun
        show (executeIdempotentOperation platformLog _ _).exec (runEvents later (n₁, s₁)).1
          (runEvents later (n₁, s₁)).2 = _
        refine exec_same (key_backupOptions hne) (key_backupOptions hne) ?_ ?_
          (keepsLog_immediateRun _ _ _) hbelow hexec₀ later ?_
        · rfl
        · rfl
        · rfl
  | internal caller givenKey =>
      obtain rfl : givenKey = some key := hkey
      obtain ⟨-, -, hexec₀⟩ := triggerImmediateBackupInternal_ok.mp hfirst
      constructor
      · intro h
        obtain ⟨_, _, hanswer, -⟩ := h.answer
        obtain ⟨hdisk, hactive, hagain⟩ := triggerImmediateBackupInternal_ok.mp hanswer
        refine ⟨hdisk, hactive, ?_⟩
        exact fingerprint_of_exec_ok (key_backupOptions hne) (key_backupOptions hne) rfl rfl
          (keepsLog_immediateRun _ _ _) hbelow hexec₀ later hagain
      · rintro ⟨hdisk, hactive, hsame⟩
        refine Replayed.intro (triggerImmediateBackupInternal_ok.mpr ⟨hdisk, hactive, ?_⟩) nofun
        show (executeIdempotentOperation platformLog _ _).exec (runEvents later (n₁, s₁)).1
          (runEvents later (n₁, s₁)).2 = _
        refine exec_same (key_backupOptions hne) (key_backupOptions hne) ?_ ?_
          (keepsLog_immediateRun _ _ _) hbelow hexec₀ later ?_
        · rfl
        · rfl
        · exact hsame
  | confirm operatorId backupId proceed givenKey =>
      obtain rfl : givenKey = some key := hkey
      obtain ⟨_, emergency₀, left₀, -, hwith₀, -⟩ := confirmRestore_ok.mp hfirst
      obtain ⟨-, user₀, -, hexec₀⟩ := confirmWith_ok.mp hwith₀
      constructor
      · intro h
        obtain ⟨_, _, hanswer, -⟩ := h.answer
        obtain ⟨hchecks, emergency, left, hensure, hwith, hwritten⟩ := confirmRestore_ok.mp hanswer
        obtain ⟨hwait, user, huser, -⟩ := confirmWith_ok.mp hwith
        obtain ⟨hadmin, htarget, hactive, hrunning⟩ := confirmChecks_ok.mp hchecks
        exact ⟨hadmin, htarget, hactive, hrunning,
          ⟨emergency, (sameFacts_ensureEmergencyBackup hensure).mp (h.written _ hwritten), hwait⟩,
          Option.isSome_iff_exists.mpr ⟨user, huser⟩⟩
      · rintro ⟨hadmin, htarget, hactive, hrunning, ⟨emergency, hrecent, hwait⟩, hlive⟩
        obtain ⟨user, huser⟩ := Option.isSome_iff_exists.mp hlive
        have hensure : ensureEmergencyBackup env again.now operatorId again.emergencyAt.1
            again.emergencyAt.2 = .ok (emergency, again.emergencyAt.2) := by
          unfold ensureEmergencyBackup
          rw [hrecent]
        have hexec : ∀ user : PlatformUser, (executeIdempotentOperation platformLog
            (confirmOptions env ⟨operatorId, user.name, again.departments⟩ (some key) backupId)
            (confirmRun env operatorId backupId again.randomUuid)).exec
              (runEvents later (n₁, s₁)).1 (runEvents later (n₁, s₁)).2 =
                .ok (reply, runEvents later (n₁, s₁)) := by
          intro user
          refine exec_same (key_confirmOptions hne) (key_confirmOptions hne) ?_ ?_
            (keepsLog_confirmRun _ _ _) hbelow hexec₀ later ?_
          · rfl
          · rfl
          · rfl
        have hchecks : confirmChecks operatorId backupId
            (again.meeting (runEvents later (n₁, s₁))) = .ok () :=
          confirmChecks_ok.mpr ⟨hadmin, htarget, hactive, hrunning⟩
        have hwith : confirmWith env operatorId backupId emergency proceed (some key)
            (again.meeting (runEvents later (n₁, s₁))) = .ok (reply, runEvents later (n₁, s₁)) :=
          confirmWith_ok.mpr ⟨hwait, user, huser, hexec user⟩
        have hsent := confirmRestore_of_ok hchecks hensure hwith
        refine Replayed.intro (congrArg Sent.answer hsent) fun w hw => ?_
        obtain rfl := Option.some.inj ((congrArg Sent.written hsent).symm.trans hw)
        exact ⟨rfl, rfl, rfl⟩

end Again

section Samples

/-- Payloads that stand for their own hashes. -/
def plainPlatform : PlatformEnvironment where
  fingerprintPayload
    | .obj [("caller", .str caller), ("windowKey", .str windowKey)] => s!"{caller}|{windowKey}"
    | _ => ""
  stableTaskUuid businessKey := businessKey.length
  windowKey now := toString (now / 60000)

def oneUser : PlatformStore where
  users := Table.empty.insert 1 ⟨"王经理", true, none⟩
  backups := .empty
  restores := .empty
  backgroundTasks := .empty
  operationLogs := .empty

/-- An attempt whose calls all meet one state. -/
def attemptAt (now : Int) (s : PlatformStore) : Attempt :=
  ⟨now, ⟨true, false⟩, s, s, s, s, (50, s), [], s, [], (50, s), 9, "r"⟩

/-- A request for a backup under a key. -/
def firstBackup : Sent :=
  Request.send plainPlatform ((attemptAt 0 oneUser).meeting (runEvents [] (50, oneUser.unlogged)))
    (.immediate 1 (some "k"))

/-- A restore is confirmed and under way. -/
def restoreBegins (s : PlatformStore) : List PlatformEvent :=
  [.elsewhere s.users s.backups (Table.empty.insert 60 ⟨9, 2, .restoring, 1⟩) s.backgroundTasks 20]

theorem replayed_immediate_next_day : ∃ reply n₁ s₁,
    firstBackup.answer = .ok (reply, n₁, s₁) ∧
      Replayed (Request.send plainPlatform
        ((attemptAt 86400000 oneUser).meeting (runEvents [] (n₁, s₁))) (.immediate 1 (some "k")))
        reply (runEvents [] (n₁, s₁)).2 := by
  have hok : firstBackup.answer.isOk = true := by decide +kernel
  cases hfirst : firstBackup.answer with
  | error e =>
      rw [hfirst] at hok
      cases hok
  | ok r =>
      refine ⟨r.1, r.2.1, r.2.2, rfl, ?_⟩
      exact (replayed_iff oneUser 50 [] [] (.immediate 1 (some "k")) (attemptAt 0 oneUser)
        (attemptAt 86400000 oneUser) "k" r.1 r.2.1 r.2.2 rfl (by decide) hfirst).mpr
        ⟨rfl, by decide +kernel, by decide +kernel⟩

/-- The same request is refused while a restore is under way. -/
theorem not_replayed_while_restoring : ∃ reply n₁ s₁,
    firstBackup.answer = .ok (reply, n₁, s₁) ∧
      ¬ Replayed (Request.send plainPlatform
        ((attemptAt 60000 (runEvents (restoreBegins s₁) (n₁, s₁)).2).meeting
          (runEvents (restoreBegins s₁) (n₁, s₁))) (.immediate 1 (some "k")))
        reply (runEvents (restoreBegins s₁) (n₁, s₁)).2 := by
  have hok : firstBackup.answer.isOk = true := by decide +kernel
  cases hfirst : firstBackup.answer with
  | error e =>
      rw [hfirst] at hok
      cases hok
  | ok r =>
      refine ⟨r.1, r.2.1, r.2.2, rfl, fun h => ?_⟩
      obtain ⟨_, _, hanswer, -⟩ := h.answer
      have hactive : hasActiveRestore
          ⟨r.2.2.users, r.2.2.backups, Table.empty.insert 60 ⟨9, 2, .restoring, 1⟩,
            r.2.2.backgroundTasks, r.2.2.operationLogs⟩ = false :=
        (triggerImmediateBackup_ok.mp hanswer).2.1
      cases hactive

end Samples

end Wbme.Backups
