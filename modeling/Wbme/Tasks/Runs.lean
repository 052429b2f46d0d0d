import Wbme.Tasks.Scripts

/-!
# Tasks over whole runs

What one statement may do to one task is said once, as a relation between the row before
and after it. Every transition keeps it, hence every script ensures it, and a run of any
workers, schedulers, heartbeats, cancellations and crashes only ever makes such changes.
-/

namespace Wbme.Tasks

open Lib Script

/-! ## What a change of a row may be -/

/-- What a statement that an activity makes at a time may do to a row. -/
structure Lawful (a : Activity) (now : Nat) (task task' : BackgroundTask) : Prop where
  absorbing : isTerminalTaskStatus task.status = true → task' = task
  finisher : ∀ owner, a.worker = some owner → task'.status ≠ task.status →
    task'.status = .succeeded ∨ task'.status = .failed →
    task.status = .running ∧ task.leaseOwner = some owner
  succeeds : task'.status ≠ task.status → task'.status = .succeeded → a.worker ≠ none
  holder : task.status = .running → ∀ expires, task.leaseExpiresAt = some expires →
    now < expires → ∀ owner, task'.leaseOwner = some owner → task.leaseOwner = some owner

theorem Lawful.refl (a : Activity) (now : Nat) (task : BackgroundTask) :
    Lawful a now task task where
  absorbing := fun _ => rfl
  finisher := fun _ _ h => absurd rfl h
  succeeds := fun h => absurd rfl h
  holder := fun _ _ _ _ _ h => h

/-- Rows change lawfully and stay, and new rows are still to be enqueued. -/
def Keeps (a : Activity) (now : Nat) (tasks tasks' : BackgroundTasks) : Prop :=
  ∀ uuid,
    (∀ task, tasks.find? uuid = some task →
      ∃ task', tasks'.find? uuid = some task' ∧ Lawful a now task task') ∧
    (tasks.find? uuid = none → ∀ task', tasks'.find? uuid = some task' →
      task'.status = .pendingEnqueue)

variable {a : Activity} {now t : Nat} {owner : String} {tasks : BackgroundTasks} {taskUuid : Nat}

theorem Keeps.refl (a : Activity) (now : Nat) (tasks : BackgroundTasks) :
    Keeps a now tasks tasks := by
  intro uuid
  refine ⟨fun task h => ⟨task, h, Lawful.refl a now task⟩, ?_⟩
  intro hnone task' hsome
  rw [hnone] at hsome
  cases hsome

theorem keeps_updateWhere {p : Nat → BackgroundTask → Bool} {f : BackgroundTask → BackgroundTask}
    (h : ∀ uuid task, p uuid task = true → Lawful a t task (f task)) (tasks : BackgroundTasks) :
    Keeps a t tasks (updateWhere p f tasks).2 := by
  intro uuid
  rw [find?_updateWhere]
  constructor
  · intro task htask
    refine ⟨_, by rw [htask]; rfl, ?_⟩
    show Lawful a t task (if p uuid task then f task else task)
    split
    · next hp => exact h uuid task hp
    · exact Lawful.refl a t task
  · intro hnone task' hsome
    rw [hnone] at hsome
    cases hsome

theorem keeps_updateOne {p : BackgroundTask → Bool} {f : BackgroundTask → BackgroundTask}
    (h : ∀ task, p task = true → Lawful a t task (f task)) (tasks : BackgroundTasks) :
    Keeps a t tasks (updateOne taskUuid p f tasks).2 :=
  keeps_updateWhere (fun _ task hp => h task (Bool.and_eq_true_iff.mp hp).2) tasks

/-! ## The transitions -/

theorem keeps_markQueued (tasks : BackgroundTasks) :
    Keeps a t tasks (markQueued taskUuid owner tasks).2 := by
  refine keeps_updateOne (fun task hp => ?_) tasks
  have hlive : isTerminalTaskStatus task.status = false := by
    cases hs : task.status <;> simp_all [isTerminalTaskStatus, terminalTaskStatuses]
  exact {
    absorbing := fun h => by simp [hlive] at h
    finisher := fun _ _ _ h => by simp at h
    succeeds := fun _ h => by simp at h
    holder := fun _ _ _ _ _ h => by simp at h }

theorem keeps_claimRunning (hnow : now ≤ t) (tasks : BackgroundTasks) :
    Keeps a t tasks (claimRunning taskUuid owner now tasks).2 := by
  refine keeps_updateOne (fun task hp => ?_) tasks
  have hlive : isTerminalTaskStatus task.status = false := by
    cases hs : task.status <;> simp_all [isTerminalTaskStatus, terminalTaskStatuses]
  refine {
    absorbing := fun h => by simp [hlive] at h
    finisher := fun _ _ _ h => by simp at h
    succeeds := fun _ h => by simp at h
    holder := ?_ }
  intro hrun expires hexp hlt owner' howner'
  obtain rfl : owner = owner' := by simpa using howner'
  have hover : reached task.leaseExpiresAt now = false := by
    rw [hexp]
    exact decide_eq_false (by omega)
  simpa [hrun, hexp ▸ hover, hexp] using hp

theorem keeps_renewRunningLease (tasks : BackgroundTasks) :
    Keeps a t tasks (renewRunningLease taskUuid owner now tasks).2 := by
  refine keeps_updateOne (fun task hp => ?_) tasks
  have hrun : task.status = .running := by simp_all
  exact {
    absorbing := fun h => by simp [hrun, isTerminalTaskStatus, terminalTaskStatuses] at h
    finisher := fun _ _ h => absurd rfl h
    succeeds := fun h => absurd rfl h
    holder := fun _ _ _ _ _ h => h }

theorem keeps_failTimedOutTasks (ha : a.worker = none) (tasks : BackgroundTasks) :
    Keeps a t tasks (failTimedOutTasks now tasks).2 := by
  refine keeps_updateWhere (fun _ task hp => ?_) tasks
  have hrun : task.status = .running := by simp_all
  exact {
    absorbing := fun h => by simp [hrun, isTerminalTaskStatus, terminalTaskStatuses] at h
    finisher := fun _ h => by simp [ha] at h
    succeeds := fun _ h => by simp at h
    holder := fun _ _ _ _ _ h => by simp at h }

theorem keeps_markSucceeded (ha : a.worker = some owner) (tasks : BackgroundTasks) :
    Keeps a t tasks (markSucceeded taskUuid owner now tasks).2 := by
  refine keeps_updateOne (fun task hp => ?_) tasks
  obtain ⟨hrun, hown⟩ : task.status = .running ∧ task.leaseOwner = some owner := by simpa using hp
  exact {
    absorbing := fun h => by simp [hrun, isTerminalTaskStatus, terminalTaskStatuses] at h
    finisher := fun owner' h _ _ => ⟨hrun, by rw [hown, ← ha, h]⟩
    succeeds := fun _ _ => by simp [ha]
    holder := fun _ _ _ _ _ h => by simp at h }

theorem keeps_markFailed (ha : a.worker = some owner) (message : String)
    (tasks : BackgroundTasks) :
    Keeps a t tasks (markFailed taskUuid owner message now tasks).2 := by
  refine keeps_updateOne (fun task hp => ?_) tasks
  obtain ⟨hrun, hown⟩ : task.status = .running ∧ task.leaseOwner = some owner := by simpa using hp
  exact {
    absorbing := fun h => by simp [hrun, isTerminalTaskStatus, terminalTaskStatuses] at h
    finisher := fun owner' h _ _ => ⟨hrun, by rw [hown, ← ha, h]⟩
    succeeds := fun _ h => by simp at h
    holder := fun _ _ _ _ _ h => by simp at h }

theorem keeps_markCancelled (leaseOwner : Option String) (tasks : BackgroundTasks) :
    Keeps a t tasks (markCancelled taskUuid leaseOwner now tasks).2 := by
  refine keeps_updateOne (fun task hp => ?_) tasks
  have hlive : isTerminalTaskStatus task.status = false := by
    cases hs : task.status <;> simp_all [isTerminalTaskStatus, terminalTaskStatuses]
  exact {
    absorbing := fun h => by simp [hlive] at h
    finisher := fun _ _ _ h => by simp at h
    succeeds := fun _ h => by simp at h
    holder := fun _ _ _ _ _ h => by simp at h }

theorem keeps_releaseEnqueueLease (attempts : Nat) (message : String) (tasks : BackgroundTasks) :
    Keeps a t tasks (releaseEnqueueLease taskUuid owner attempts message now tasks).2 := by
  refine keeps_updateOne (fun task hp => ?_) tasks
  have hpend : task.status = .pendingEnqueue := by simp_all
  exact {
    absorbing := fun h => by simp [hpend, isTerminalTaskStatus, terminalTaskStatuses] at h
    finisher := fun _ _ h => absurd rfl h
    succeeds := fun h => absurd rfl h
    holder := fun h => by simp [hpend] at h }

theorem keeps_stageCancelTasks (tasks : BackgroundTasks) :
    Keeps a t tasks (stageCancelTasks now tasks).2 := by
  refine keeps_updateWhere (fun _ task hp => ?_) tasks
  have hlive : isTerminalTaskStatus task.status = false := by
    cases hs : task.status <;> simp_all [isTerminalTaskStatus, terminalTaskStatuses]
  exact {
    absorbing := fun h => by simp [hlive] at h
    finisher := fun _ _ _ h => by simp at h
    succeeds := fun _ h => by simp at h
    holder := fun _ _ _ _ _ h => h }

theorem keeps_claimOutboxBatch (hnow : now ≤ t) (locked : List Nat)
    (replayableTypes : List TaskType) (batchSize : Nat) (tasks : BackgroundTasks) :
    Keeps a t tasks (claimOutboxBatch locked owner replayableTypes now batchSize tasks).2 := by
  intro uuid
  constructor
  · intro task htask
    rcases @find?_claimOutboxBatch locked owner replayableTypes now batchSize _ _ _ htask with
      hsame | ⟨-, hcand, hnew⟩
    · exact ⟨task, hsame, Lawful.refl a t task⟩
    · obtain ⟨hlive, hlease⟩ := isCandidate_lease hcand
      refine ⟨_, hnew, {
        absorbing := fun h => by simp [hlive] at h
        finisher := fun _ _ h => absurd rfl h
        succeeds := fun h => absurd rfl h
        holder := ?_ }⟩
      intro _ expires hexp hlt
      have := hlease expires hexp
      omega
  · intro hnone task' hsome
    have : (updateWhere _ _ tasks).2.find? uuid = some task' := hsome
    rw [find?_updateWhere, hnone] at this
    cases this

theorem keeps_insertPendingTaskSql (input : CreatePendingTaskInput) (createdAt : Nat)
    (tasks : BackgroundTasks) :
    Keeps a t tasks (insertPendingTaskSql input now createdAt tasks).2 := by
  unfold insertPendingTaskSql
  cases hfind : tasks.find? input.taskUuid with
  | some _ => exact Keeps.refl a t tasks
  | none =>
      intro uuid
      by_cases huuid : uuid = input.taskUuid
      · subst huuid
        constructor
        · intro task htask
          rw [hfind] at htask
          cases htask
        intro _ task' htask'
        simp only [Table.find?_insert_self, Option.some.injEq] at htask'
        rw [← htask']
        rfl
      · rw [Table.find?_insert_ne _ _ huuid]
        exact Keeps.refl a t tasks uuid

/-! ## The statements -/

/-- The statements that an activity makes, with what the scripts know about the times they
pass: none of them lies in the future. -/
inductive Statement : Activity → Nat → BackgroundTasks → BackgroundTasks → Prop
  | loadTask (a : Activity) (t : Nat) (tasks : BackgroundTasks) : Statement a t tasks tasks
  | claimRunning {owner : String} (job : Job) (taskUuid : Nat) {now t : Nat} (h : now ≤ t)
      (tasks : BackgroundTasks) :
      Statement (.handleJob owner job) t tasks (claimRunning taskUuid owner now tasks).2
  | markSucceeded {owner : String} (job : Job) (taskUuid now t : Nat) (tasks : BackgroundTasks) :
      Statement (.handleJob owner job) t tasks (markSucceeded taskUuid owner now tasks).2
  | markFailed {owner : String} (job : Job) (message : String) (taskUuid now t : Nat)
      (tasks : BackgroundTasks) :
      Statement (.handleJob owner job) t tasks (markFailed taskUuid owner message now tasks).2
  | renewRunningLease {owner : String} (taskUuid : Nat) {now t : Nat} (h : now ≤ t)
      (tasks : BackgroundTasks) :
      Statement (.renewLease owner taskUuid) t tasks
        (renewRunningLease taskUuid owner now tasks).2
  | insertPendingTask (a : Activity) (input : CreatePendingTaskInput) (now createdAt t : Nat)
      (tasks : BackgroundTasks) :
      Statement a t tasks (insertPendingTaskSql input now createdAt tasks).2
  | failTimedOutTasks {owner : String} (now t : Nat) (tasks : BackgroundTasks) :
      Statement (.tick owner) t tasks (failTimedOutTasks now tasks).2
  | claimOutboxBatch {owner : String} (locked : List Nat) {now t : Nat} (h : now ≤ t)
      (tasks : BackgroundTasks) :
      Statement (.tick owner) t tasks
        (claimOutboxBatch locked owner safelyReplayableTaskTypes now taskEnqueueBatchSize tasks).2
  | markQueued {owner : String} (taskUuid t : Nat) (tasks : BackgroundTasks) :
      Statement (.tick owner) t tasks (markQueued taskUuid owner tasks).2
  | releaseEnqueueLease {owner : String} (message : String) (taskUuid now t : Nat)
      (tasks : BackgroundTasks) :
      Statement (.tick owner) t tasks (releaseEnqueueLease taskUuid owner 0 message now tasks).2
  | markCancelled (leaseOwner : Option String) (taskUuid now t : Nat) (tasks : BackgroundTasks) :
      Statement (.cancel taskUuid leaseOwner) t tasks
        (markCancelled taskUuid leaseOwner now tasks).2
  | stageCancelTasks (now t : Nat) (tasks : BackgroundTasks) :
      Statement .stageCancelTasks t tasks (stageCancelTasks now tasks).2

theorem Statement.keeps {tasks' : BackgroundTasks} (h : Statement a t tasks tasks') :
    Keeps a t tasks tasks' := by
  cases h with
  | loadTask => exact Keeps.refl a t tasks
  | claimRunning job taskUuid hnow => exact keeps_claimRunning hnow tasks
  | markSucceeded => exact keeps_markSucceeded rfl tasks
  | markFailed job message => exact keeps_markFailed rfl message tasks
  | renewRunningLease => exact keeps_renewRunningLease tasks
  | insertPendingTask _ input now createdAt => exact keeps_insertPendingTaskSql input createdAt tasks
  | failTimedOutTasks => exact keeps_failTimedOutTasks rfl tasks
  | claimOutboxBatch locked hnow => exact keeps_claimOutboxBatch hnow locked _ _ tasks
  | markQueued => exact keeps_markQueued tasks
  | releaseEnqueueLease message => exact keeps_releaseEnqueueLease 0 message tasks
  | markCancelled leaseOwner => exact keeps_markCancelled leaseOwner tasks
  | stageCancelTasks => exact keeps_stageCancelTasks tasks

/-! ## The scripts -/

theorem makes_statement {α : Type} {f : BackgroundTasks → α × BackgroundTasks}
    (h : ∀ t', t ≤ t' → ∀ tasks, Statement a t' tasks (f tasks).2) :
    Ensures (Statement a) (statement f) t := by
  refine Ensures.bind (ensures_ask t) fun answer t' ht => ?_
  have hf : Ensures (Statement a) (atomic f : TaskScript α) t' :=
    ensures_atomic fun t₂ h₂ => h t₂ (Nat.le_trans ht h₂)
  cases answer with
  | failed message => exact ensures_throw message t'
  | replyLost message => exact hf.bind fun _ t₂ _ => ensures_throw message t₂
  | returned n => exact hf
  | due uuid => exact hf
  | locked uuids => exact hf

theorem makes_statement_bind {α β : Type} {f : BackgroundTasks → α × BackgroundTasks}
    {q : α → TaskScript β} (h : ∀ t', t ≤ t' → ∀ tasks, Statement a t' tasks (f tasks).2)
    (hq : ∀ x t', t ≤ t' → Ensures (Statement a) (q x) t') :
    Ensures (Statement a) (statement f >>= q) t := (makes_statement h).bind hq

theorem makes_call (t : Nat) : Ensures (Statement a) call t := by
  refine Ensures.bind (ensures_ask t) fun answer t' _ => ?_
  cases answer with
  | failed message => exact ensures_throw message t'
  | replyLost message => exact ensures_throw message t'
  | returned n => exact ensures_pure n t'
  | due uuid => exact ensures_pure 0 t'
  | locked uuids => exact ensures_pure 0 t'

theorem makes_handleJob (leaseOwner : String) (job : Job) (t : Nat) :
    Ensures (Statement (.handleJob leaseOwner job)) (handleJob leaseOwner job) t := by
  unfold handleJob
  cases job.taskUuid <|> job.id with
  | none => exact ensures_throw _ t
  | some taskUuid =>
      refine makes_statement_bind (fun t' _ tasks => .loadTask _ t' tasks) fun loaded t _ => ?_
      cases loaded with
      | none => exact ensures_pure () t
      | some task =>
          show Ensures _ (if isTerminalTaskStatus task.status then _ else _) t
          split
          · exact ensures_pure () t
          refine ensures_readClock fun now _ => makes_statement_bind
            (fun t' ht tasks => .claimRunning job taskUuid ht tasks) fun claimed t _ => ?_
          cases claimed with
          | false => exact ensures_throw _ t
          | true =>
              refine Ensures.tryCatch ?_ fun message t _ => ?_
              · refine Ensures.bind ((makes_call t).bind fun _ t _ => ensures_pure () t)
                  fun _ t _ => ?_
                refine ensures_readClock fun now _ => makes_statement_bind
                  (fun t' _ tasks => .markSucceeded job taskUuid now t' tasks) fun _ t _ => ?_
                exact ensures_pure () t
              · show Ensures _ (if _ then _ else _) t
                split
                · refine ensures_readClock fun now _ => makes_statement_bind
                    (fun t' _ tasks => .markFailed job message taskUuid now t' tasks)
                    fun _ t _ => ?_
                  exact ensures_throw message t
                · exact ensures_throw message t

theorem makes_renewLease (leaseOwner : String) (taskUuid t : Nat) :
    Ensures (Statement (.renewLease leaseOwner taskUuid)) (renewLease leaseOwner taskUuid) t := by
  refine Ensures.tryCatch ?_ fun _ t _ => ensures_pure () t
  refine ensures_readClock fun now _ => makes_statement_bind
    (fun t' ht tasks => .renewRunningLease taskUuid ht tasks) fun _ t _ => ?_
  exact ensures_pure () t

theorem makes_ensureTask (taskType : TaskType) (now t : Nat) :
    Ensures (Statement a) (ensureTask taskType now) t := by
  refine Ensures.bind (ensures_ask t) fun answer t _ => ?_
  cases answer with
  | failed message => exact ensures_throw message t
  | due uuid =>
      refine ensures_readClock fun createdAt _ => makes_statement_bind
        (fun t' _ tasks => .insertPendingTask a ⟨uuid, taskType⟩ now createdAt t' tasks)
        fun _ t _ => ?_
      exact ensures_pure () t
  | returned n => exact ensures_pure () t
  | replyLost message => exact ensures_pure () t
  | locked uuids => exact ensures_pure () t

theorem makes_deliver (schedulerId : String) (now : Nat) (row : OutboxClaimRow) (t : Nat) :
    Ensures (Statement (.tick schedulerId)) (deliver schedulerId now row) t := by
  refine Ensures.tryCatch ?_ fun message t _ => ?_
  · refine Ensures.bind ?_ fun _ t _ => ?_
    · show Ensures _ (if _ then _ else _) t
      split
      · refine (makes_call t).bind fun removed t _ => ?_
        show Ensures _ (if _ then _ else _) t
        split
        · exact ensures_throw _ t
        · exact ensures_pure () t
      · exact ensures_pure () t
    · refine (makes_call t).bind fun _ t _ => makes_statement_bind
        (fun t' _ tasks => .markQueued row.taskUuid t' tasks) fun _ t _ => ?_
      exact ensures_pure () t
  · refine makes_statement_bind
      (fun t' _ tasks => .releaseEnqueueLease message row.taskUuid now t' tasks) fun _ t _ => ?_
    exact ensures_pure () t

theorem makes_claimBatch {now t : Nat} (hnow : now ≤ t) (schedulerId : String) :
    Ensures (Statement (.tick schedulerId)) (claimBatch schedulerId now) t := by
  refine Ensures.bind ?_ fun uuids t' ht => ?_
  · refine Ensures.bind (ensures_ask t) fun answer t _ => ?_
    cases answer <;> exact ensures_pure _ t
  · exact makes_statement fun t₂ h₂ tasks =>
      .claimOutboxBatch uuids (Nat.le_trans hnow (Nat.le_trans ht h₂)) tasks

theorem makes_tick (schedulerId : String) (t : Nat) :
    Ensures (Statement (.tick schedulerId)) (tick schedulerId) t := by
  have hpause : ∀ t, Ensures (Statement (.tick schedulerId)) shouldPauseForMaintenance t :=
    fun t =>
      Ensures.tryCatch ((makes_call t).bind fun active t _ => ensures_pure _ t)
        fun _ t _ => ensures_pure true t
  refine (hpause t).bind fun paused t _ => ?_
  cases paused with
  | true => exact ensures_pure () t
  | false =>
      refine ensures_readClock fun now _ => ?_
      refine (makes_ensureTask _ now now).bind fun _ t₁ h₁ => ?_
      refine (makes_ensureTask _ now t₁).bind fun _ t₂ h₂ => ?_
      refine (makes_ensureTask _ now t₂).bind fun _ t₃ h₃ => ?_
      refine (makes_ensureTask _ now t₃).bind fun _ t₄ h₄ => ?_
      refine makes_statement_bind
        (fun t' _ tasks => .failTimedOutTasks now t' tasks) fun _ t₅ h₅ => ?_
      refine (makes_claimBatch (by omega) schedulerId).bind fun batch t₆ _ => ?_
      exact ensures_forM fun row _ t _ => makes_deliver schedulerId now row t

theorem Activity.makes (a : Activity) (t : Nat) : Ensures (Statement a) a.script t := by
  cases a with
  | handleJob leaseOwner job => exact makes_handleJob leaseOwner job t
  | renewLease leaseOwner taskUuid => exact makes_renewLease leaseOwner taskUuid t
  | tick schedulerId => exact makes_tick schedulerId t
  | createPending input =>
      refine ensures_readClock fun now _ => ensures_readClock fun createdAt _ =>
        makes_statement_bind
          (fun t' _ tasks => .insertPendingTask _ input now createdAt t' tasks) fun _ t _ => ?_
      exact ensures_pure () t
  | cancel taskUuid leaseOwner =>
      refine ensures_readClock fun now _ => makes_statement_bind
        (fun t' _ tasks => .markCancelled leaseOwner taskUuid now t' tasks) fun _ t _ => ?_
      exact ensures_pure () t
  | stageCancelTasks =>
      refine ensures_readClock fun now _ => makes_statement_bind
        (fun t' _ tasks => .stageCancelTasks now t' tasks) fun _ t _ => ?_
      exact ensures_pure () t

theorem Activity.ensures (a : Activity) (t : Nat) : Ensures (Keeps a) a.script t :=
  (a.makes t).imp fun _ _ _ => Statement.keeps

end Wbme.Tasks
