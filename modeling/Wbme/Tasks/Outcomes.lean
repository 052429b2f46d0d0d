import Wbme.Tasks.Runs

/-!
# Outcomes of tasks

A run moves a task into a terminal status at most once. No run can strand a task before
that: once its leases are over, one delivery by a scheduler and one job end it.
-/

namespace Wbme.Tasks

open Lib Script

section Solo

variable {β : Type} {t n : Nat} {c : Answer} {cs : List Answer} {tasks : BackgroundTasks}
  {taskUuid : Nat} {task : BackgroundTask}

theorem solo_statement_bind {α : Type} {f : BackgroundTasks → α × BackgroundTasks}
    {q : α → TaskScript β} :
    (statement f >>= q).run.solo t tasks (.returned n :: c :: cs) =
      (q (f tasks).1).run.solo t (f tasks).2 cs := rfl

theorem solo_readClock_bind {q : Nat → TaskScript β} :
    ((readClock : TaskScript Nat) >>= q).run.solo t tasks (c :: cs) =
      (q t).run.solo t tasks cs := rfl

variable {now : Nat}

variable {schedulerId : String} {taskType : TaskType}

theorem solo_ensureTask_bind {q : Unit → TaskScript β} :
    (ensureTask taskType now >>= q).run.solo t tasks (.returned n :: cs) =
      (q ()).run.solo t tasks cs := rfl

theorem solo_shouldPauseForMaintenance_bind {q : Bool → TaskScript β} :
    (shouldPauseForMaintenance >>= q).run.solo t tasks (.returned 0 :: cs) =
      (q false).run.solo t tasks cs := rfl

theorem solo_claimBatch_bind {uuids : List Nat} {q : List OutboxClaimRow → TaskScript β} :
    (claimBatch schedulerId now >>= q).run.solo t tasks
        (.locked uuids :: .returned n :: c :: cs) =
      (q (claimOutboxBatch uuids schedulerId safelyReplayableTaskTypes now taskEnqueueBatchSize
        tasks).1).run.solo t (claimOutboxBatch uuids schedulerId safelyReplayableTaskTypes now
          taskEnqueueBatchSize tasks).2 cs := rfl

theorem solo_deliver :
    ([⟨taskUuid, taskType, .pendingEnqueue⟩].forM (deliver schedulerId now)).run.solo t tasks
      [.returned 0, .returned 0, .returned 0] = (markQueued taskUuid schedulerId tasks).2 := rfl

theorem solo_tryCatch_processor {f : Nat → BackgroundTasks → Bool × BackgroundTasks}
    {handler : String → TaskScript Unit} :
    (tryCatch
      (do
        processor task
        let now ← readClock
        let _ ← statement (f now)) handler).run.solo t tasks
      [.returned 0, .returned 0, .returned 0, .returned 0] = (f t tasks).2 := rfl

theorem claimRunning_of_lease {now : Nat} (hfind : tasks.find? taskUuid = some task)
    (hlive : task.status = .queued ∨ task.status = .running)
    (hlease : ∀ expires, task.leaseExpiresAt = some expires → expires ≤ now) (owner : String) :
    (claimRunning taskUuid owner now tasks).1 = true ∧
      (claimRunning taskUuid owner now tasks).2.find? taskUuid = some { task with
        status := .running
        leaseOwner := some owner
        leaseExpiresAt := some (now + taskRunningLeaseSeconds * 1000)
        startedAt := task.startedAt <|> some now
        attempts := if task.status = .queued then task.attempts + 1 else task.attempts
        timeoutAt := some (now + taskRunningLeaseSeconds * 2 * 1000) } := by
  refine updateOne_of_find? hfind ?_
  cases hl : task.leaseExpiresAt with
  | none => rcases hlive with h | h <;> simp [h]
  | some expires => rcases hlive with h | h <;> simp [h, reached, hlease expires hl]

theorem markSucceeded_of_running {owner : String} (hfind : tasks.find? taskUuid = some task)
    (hrun : task.status = .running) (hown : task.leaseOwner = some owner) :
    (markSucceeded taskUuid owner now tasks).2.find? taskUuid = some { task with
      status := .succeeded
      finishedAt := some now
      progress := 100
      leaseOwner := none
      leaseExpiresAt := none
      lastError := none } :=
  (updateOne_of_find? hfind (by simp [hrun, hown])).2

theorem markQueued_of_leased {owner : String} (hfind : tasks.find? taskUuid = some task)
    (hpend : task.status = .pendingEnqueue) (hown : task.leaseOwner = some owner) :
    (markQueued taskUuid owner tasks).2.find? taskUuid = some { task with
      status := .queued
      leaseOwner := none
      leaseExpiresAt := none
      nextRetryAt := none
      lastError := none } :=
  (updateOne_of_find? hfind (by simp [hpend, hown])).2

theorem solo_handleJob (hfind : tasks.find? taskUuid = some task)
    (hlive : task.status = .queued ∨ task.status = .running)
    (hlease : ∀ expires, task.leaseExpiresAt = some expires → expires ≤ t) (owner : String) :
    ∃ task', ((handleJob owner ⟨some taskUuid, none, 0, none⟩).run.solo t tasks
      (List.replicate 9 (.returned 0))).find? taskUuid = some task' ∧
        task'.status = .succeeded := by
  have hterm : isTerminalTaskStatus task.status = false := by
    rcases hlive with h | h <;> simp [h, isTerminalTaskStatus, terminalTaskStatuses]
  have hload : (loadTaskByUuid taskUuid tasks).1 = some task := hfind
  obtain ⟨hclaimed, hrow⟩ := claimRunning_of_lease hfind hlive hlease owner
  have hdone := @markSucceeded_of_running _ _ _ t _ hrow rfl rfl
  refine ⟨_, Eq.trans ?_ hdone, rfl⟩
  unfold handleJob
  show Table.find? ((statement (loadTaskByUuid taskUuid) >>= _).run.solo t tasks
    [.returned 0, .returned 0, .returned 0, .returned 0, .returned 0, .returned 0, .returned 0,
      .returned 0, .returned 0]) taskUuid = _
  rw [solo_statement_bind, hload]
  dsimp only
  rw [if_neg (by simp [hterm]), solo_readClock_bind, solo_statement_bind,
    show (loadTaskByUuid taskUuid tasks).2 = tasks from rfl, hclaimed, if_pos rfl,
    solo_tryCatch_processor]

theorem outboxCandidates_of_locked {locked : List Nat} (hfind : tasks.find? taskUuid = some task)
    (hfree : taskUuid ∉ locked)
    (hothers : ∀ uuid r, tasks.find? uuid = some r → uuid ≠ taskUuid → uuid ∈ locked)
    (hdue : isCandidate safelyReplayableTaskTypes now task = true) :
    outboxCandidates locked safelyReplayableTaskTypes now taskEnqueueBatchSize tasks =
      [(taskUuid, task)] := by
  have hsel : tasks.select (fun uuid r =>
      !locked.contains uuid && isCandidate safelyReplayableTaskTypes now r) =
        [(taskUuid, task)] := by
    refine Table.select_eq_singleton hfind fun uuid r hr => ?_
    by_cases huuid : uuid = taskUuid
    · subst huuid
      obtain rfl : task = r := Option.some.inj (hfind.symm.trans hr)
      simp [hfree, hdue]
    · simp [hothers uuid r hr huuid, huuid]
  rw [outboxCandidates, hsel, List.mergeSort_singleton]
  rfl

/-- The answers of a tick that is not paused, has nothing to create and meets locked rows. -/
def tickAnswers (uuids : List Nat) : List Answer :=
  List.replicate 8 (.returned 0) ++ .locked uuids :: List.replicate 5 (.returned 0)

theorem solo_tick (hfind : tasks.find? taskUuid = some task) (hpend : task.status = .pendingEnqueue)
    (hretry : ∀ time, task.nextRetryAt = some time → time ≤ t)
    (hlease : ∀ expires, task.leaseExpiresAt = some expires → expires ≤ t) {uuids : List Nat}
    (hfree : taskUuid ∉ uuids)
    (hothers : ∀ uuid r, tasks.find? uuid = some r → uuid ≠ taskUuid → uuid ∈ uuids)
    (schedulerId : String) :
    ∃ task', ((tick schedulerId).run.solo t tasks (tickAnswers uuids)).find? taskUuid =
      some task' ∧ task'.status = .queued ∧ task'.leaseExpiresAt = none := by
  have hdue : isCandidate safelyReplayableTaskTypes t task = true := by
    cases hr : task.nextRetryAt <;> cases hl : task.leaseExpiresAt <;>
      simp_all [isCandidate, reached]
  -- the timeouts leave a task that does not run alone
  have hfind' : (failTimedOutTasks t tasks).2.find? taskUuid = some task := by
    show (updateWhere _ _ tasks).2.find? taskUuid = _
    rw [find?_updateWhere, hfind]
    simp [hpend]
  have hothers' : ∀ uuid r, (failTimedOutTasks t tasks).2.find? uuid = some r →
      uuid ≠ taskUuid → uuid ∈ uuids := by
    intro uuid r hr hne
    have hr' : (updateWhere _ _ tasks).2.find? uuid = some r := hr
    rw [find?_updateWhere] at hr'
    obtain ⟨r₀, hr₀, -⟩ := Option.map_eq_some_iff.mp hr'
    exact hothers uuid r₀ hr₀ hne
  have hbatch := outboxCandidates_of_locked hfind' hfree hothers' hdue
  have hrows : (claimOutboxBatch uuids schedulerId safelyReplayableTaskTypes t
      taskEnqueueBatchSize (failTimedOutTasks t tasks).2).1 =
        [⟨taskUuid, task.taskType, .pendingEnqueue⟩] := by
    simp [claimOutboxBatch, hbatch, hpend]
  have hleased : (claimOutboxBatch uuids schedulerId safelyReplayableTaskTypes t
      taskEnqueueBatchSize (failTimedOutTasks t tasks).2).2.find? taskUuid = some { task with
        leaseOwner := some schedulerId
        leaseExpiresAt := some (t + taskEnqueueLeaseSeconds * 1000) } := by
    simp only [claimOutboxBatch, hbatch]
    rw [find?_updateWhere, hfind']
    simp
  refine ⟨_, Eq.trans ?_ (markQueued_of_leased hleased hpend rfl), rfl, rfl⟩
  unfold tick
  show Table.find? ((shouldPauseForMaintenance >>= _).run.solo t tasks
    [.returned 0, .returned 0, .returned 0, .returned 0, .returned 0, .returned 0, .returned 0,
      .returned 0, .locked uuids, .returned 0, .returned 0, .returned 0, .returned 0,
      .returned 0]) taskUuid = _
  rw [solo_shouldPauseForMaintenance_bind, if_neg (by simp), solo_readClock_bind]
  unfold ensureDailyScheduledBackup ensureDailyImageCleanup ensureDailyApprovalTimeoutScan
    ensurePeriodicLogCleanup
  rw [solo_ensureTask_bind, solo_ensureTask_bind, solo_ensureTask_bind, solo_ensureTask_bind,
    solo_statement_bind, solo_claimBatch_bind, hrows, solo_deliver]

end Solo

/-! ## No task is stranded -/

/-- Time enough for every time a row waits for to be over. -/
def BackgroundTask.waitsUntil (task : BackgroundTask) : Nat :=
  task.nextRetryAt.getD 0 + task.leaseExpiresAt.getD 0

variable {task : BackgroundTask}

variable {taskUuid : Nat} {w : TaskWorld}

theorem exists_run_of_queued (hfind : w.store.find? taskUuid = some task)
    (hlive : task.status = .queued ∨ task.status = .running)
    (hlease : ∀ expires, task.leaseExpiresAt = some expires → expires ≤ w.clock) :
    ∃ es task', (w.run es).store.find? taskUuid = some task' ∧ task'.status = .succeeded := by
  obtain ⟨task', hfind', hdone⟩ := solo_handleJob hfind hlive hlease "worker"
  refine ⟨World.soloEvents w (.handleJob "worker" ⟨some taskUuid, none, 0, none⟩)
    (List.replicate 9 (.returned 0)), task', ?_, hdone⟩
  rw [TaskWorld.run, (World.store_run_solo w _ _).1]
  exact hfind'

theorem exists_run_of_pending (hfind : w.store.find? taskUuid = some task)
    (hpend : task.status = .pendingEnqueue)
    (hretry : ∀ time, task.nextRetryAt = some time → time ≤ w.clock)
    (hlease : ∀ expires, task.leaseExpiresAt = some expires → expires ≤ w.clock) :
    ∃ es task', (w.run es).store.find? taskUuid = some task' ∧ task'.status = .queued ∧
      task'.leaseExpiresAt = none := by
  let others := (w.store.rows.map (·.1)).filter (· ≠ taskUuid)
  have hothers : ∀ uuid r, w.store.find? uuid = some r → uuid ≠ taskUuid → uuid ∈ others := by
    intro uuid r hr hne
    have hmem : uuid ∈ w.store.rows.map (·.1) :=
      List.mem_map.mpr ⟨(uuid, r), Table.find?_eq_some_iff.mp hr, rfl⟩
    exact List.mem_filter.mpr ⟨hmem, by simpa using hne⟩
  obtain ⟨task', hfind', hqueued, hfree⟩ := solo_tick hfind hpend hretry hlease
    (by simp [others]) hothers "scheduler"
  refine ⟨World.soloEvents w (.tick "scheduler") (tickAnswers others), task', ?_, hqueued, hfree⟩
  rw [TaskWorld.run, (World.store_run_solo w _ _).1]
  exact hfind'

theorem exists_run_succeeded (hfind : w.store.find? taskUuid = some task)
    (hlive : isTerminalTaskStatus task.status = false) :
    ∃ es task', (w.run es).store.find? taskUuid = some task' ∧ task'.status = .succeeded := by
  let later : TaskWorld := w.run [.pass task.waitsUntil]
  have hstore : later.store = w.store := rfl
  have hretry : ∀ time, task.nextRetryAt = some time → time ≤ later.clock := by
    intro time h
    show time ≤ w.clock + task.waitsUntil
    simp only [BackgroundTask.waitsUntil, h, Option.getD_some]
    omega
  have hlease : ∀ expires, task.leaseExpiresAt = some expires → expires ≤ later.clock := by
    intro expires h
    show expires ≤ w.clock + task.waitsUntil
    simp only [BackgroundTask.waitsUntil, h, Option.getD_some]
    omega
  by_cases hq : task.status = .queued ∨ task.status = .running
  · obtain ⟨es, task', hrun⟩ := exists_run_of_queued (hstore ▸ hfind) hq hlease
    exact ⟨.pass task.waitsUntil :: es, task', hrun⟩
  · have hpend : task.status = .pendingEnqueue := by
      cases hs : task.status <;> simp_all [isTerminalTaskStatus, terminalTaskStatuses]
    obtain ⟨es, queued, hqueued, hstatus, hfree⟩ :=
      exists_run_of_pending (hstore ▸ hfind) hpend hretry hlease
    obtain ⟨fs, task', hrun⟩ :=
      exists_run_of_queued hqueued (Or.inl hstatus) (by simp [hfree])
    refine ⟨.pass task.waitsUntil :: (es ++ fs), task', ?_⟩
    have happ : w.run (.pass task.waitsUntil :: (es ++ fs)) = (later.run es).run fs :=
      World.run_append _ later es fs
    rw [happ]
    exact hrun

/-! ## Every run -/

def Over (taskUuid : Nat) (tasks : BackgroundTasks) : Prop :=
  ∃ task, tasks.find? taskUuid = some task ∧ isTerminalTaskStatus task.status = true

instance (taskUuid : Nat) : DecidablePred (Over taskUuid) := fun tasks =>
  decidable_of_iff ((tasks.find? taskUuid).any (fun task => isTerminalTaskStatus task.status) = true)
    (by simp [Over, Option.any_eq_true])

def terminalOutcomes (taskUuid : Nat) (w : TaskWorld) (es : List TaskEvent) : Nat :=
  World.entries Activity.script (Over taskUuid) w es

theorem Over.keeps {a : Activity} {now taskUuid : Nat} {tasks tasks' : BackgroundTasks}
    (h : Keeps a now tasks tasks') (ho : Over taskUuid tasks) : Over taskUuid tasks' := by
  obtain ⟨task, hfind, hterm⟩ := ho
  obtain ⟨task', hfind', hlawful⟩ := (h taskUuid).1 task hfind
  refine ⟨task', hfind', ?_⟩
  rw [hlawful.absorbing hterm]
  exact hterm

theorem start_ensured (clock : Nat) : World.Ensured Keeps (TaskWorld.start clock) :=
  fun _ h => absurd h List.not_mem_nil

/-- In every run, and for every next event: a task that is over stays as it is; a worker
ends a task only while it holds the lease of the running task; a running task whose lease
is not over gets no other holder. A run gives a task one terminal outcome if the task is
over at its end, none if it is not, and then the outcome is still within reach. -/
theorem task_outcomes_of_run (clock : Nat) (es : List TaskEvent) (taskUuid : Nat) :
    (∀ (e : TaskEvent) (task : BackgroundTask),
      ((TaskWorld.start clock).run es).store.find? taskUuid = some task →
      ∃ task', (((TaskWorld.start clock).run es).step e).store.find? taskUuid = some task' ∧
        (isTerminalTaskStatus task.status = true → task' = task) ∧
        (task'.status ≠ task.status → task'.status = .succeeded →
          ∃ owner, (((TaskWorld.start clock).run es).actor e).bind Activity.worker = some owner) ∧
        (∀ owner,
          (((TaskWorld.start clock).run es).actor e).bind Activity.worker = some owner →
          task'.status ≠ task.status → task'.status = .succeeded ∨ task'.status = .failed →
          task.status = .running ∧ task.leaseOwner = some owner) ∧
        (task.status = .running → ∀ expires, task.leaseExpiresAt = some expires →
          ((TaskWorld.start clock).run es).clock < expires →
          ∀ owner, task'.leaseOwner = some owner → task.leaseOwner = some owner)) ∧
    terminalOutcomes taskUuid (TaskWorld.start clock) es =
      (if Over taskUuid ((TaskWorld.start clock).run es).store then 1 else 0) ∧
    (∀ task, ((TaskWorld.start clock).run es).store.find? taskUuid = some task →
      isTerminalTaskStatus task.status = false →
      ∃ more task', (((TaskWorld.start clock).run es).run more).store.find? taskUuid =
        some task' ∧ task'.status = .succeeded) := by
  have hensured : World.Ensured Keeps ((TaskWorld.start clock).run es) :=
    (start_ensured clock).run Activity.ensures es
  refine ⟨?_, ?_, fun task hfind hlive => exists_run_succeeded hfind hlive⟩
  · intro e task hfind
    rcases hensured.store_step Activity.script e with hsame | ⟨a, hactor, hkeeps⟩
    · refine ⟨task, ?_, fun _ => rfl, fun h => absurd rfl h, fun _ _ h => absurd rfl h,
        fun _ _ _ _ _ h => h⟩
      show (World.step Activity.script _ e).store.find? taskUuid = some task
      rw [hsame]
      exact hfind
    · obtain ⟨task', hfind', hlawful⟩ := (hkeeps taskUuid).1 task hfind
      refine ⟨task', hfind', hlawful.absorbing, ?_, ?_, hlawful.holder⟩
      · intro hmoved hsucc
        rw [hactor]
        exact Option.ne_none_iff_exists'.mp (hlawful.succeeds hmoved hsucc)
      · intro owner howner
        rw [hactor] at howner
        exact hlawful.finisher owner howner
  · have hcount := ((start_ensured clock).entries_eq Activity.ensures
      (fun a t s s' h ho => Over.keeps h ho) es (P := Over taskUuid)).2
    have hstart : ¬ Over taskUuid (TaskWorld.start clock).store := by
      rintro ⟨task, hfind, -⟩
      cases hfind
    rw [terminalOutcomes, hcount]
    simp only [hstart, not_false_eq_true, true_and]
    rfl

/-- Worker `a` runs past its lease, the scheduler hands the task out again, worker `b` takes
it over, and `a` finishes late. -/
def takeover : List TaskEvent :=
  let job : Job := ⟨some 7, none, 0, none⟩
  let advance (i n : Nat) : List TaskEvent := List.replicate n (.advance i (.returned 1))
  List.flatten [
    [.start (.createPending ⟨7, .scheduledBackup⟩)], advance 0 4,
    [.start (.tick "scheduler")], (tickAnswers []).map (.advance 1),
    [.start (.handleJob "a" job)], advance 2 6,
    [.pass 600000, .start (.tick "scheduler")],
    (tickAnswers []).take 9 |>.map (.advance 3), advance 3 6,
    [.start (.handleJob "b" job)], advance 4 6, advance 2 3, advance 4 3]

theorem task_outcomes_takeover : terminalOutcomes 7 (TaskWorld.start 0) takeover = 1 := by
  rw [(task_outcomes_of_run 0 takeover 7).2.1]
  decide +kernel

end Wbme.Tasks
