import Wbme.Lib.Along
import Wbme.Tasks.Outcomes

/-!
# Redelivery of queued tasks

A queued task that nobody picks up is handed out again after a while. How long a task has
been in the queue is not recorded: the batch statement measures its age from `created_at`.
A log of the queueing times, kept beside a run, tells the two apart.
-/

namespace Wbme.Tasks

open Lib Script

/-- How long a queued task is left to the workers, in milliseconds. -/
def stalledThreshold : Nat := stalledQueuedRequeueMinutes * 60000

/-- A row that is in the queue and held by nobody. -/
def BackgroundTask.waits (task : BackgroundTask) : Bool :=
  task.status == .queued && task.leaseOwner == none && task.leaseExpiresAt == none

/-- A statement puts a task into the queue and releases its lease. -/
def queues (taskUuid : Nat) (tasks tasks' : BackgroundTasks) : Bool :=
  (tasks'.find? taskUuid).any BackgroundTask.waits &&
    !(tasks.find? taskUuid).any BackgroundTask.waits

/-- A scheduler's step takes the lease of a task that exists already. -/
def redelivers (taskUuid : Nat) (w : TaskWorld) (e : TaskEvent) : Bool :=
  match w.actor e, w.store.find? taskUuid, (w.step e).store.find? taskUuid with
  | some (.tick schedulerId), some task, some task' =>
      task'.leaseOwner == some schedulerId && task' != task
  | _, _, _ => false

/-! ## The log of queueing times -/

structure QueueLog where
  world : TaskWorld
  queuedAt : Nat → Option Nat

namespace QueueLog

def start (clock : Nat) : QueueLog := ⟨TaskWorld.start clock, fun _ => none⟩

def step (l : QueueLog) (e : TaskEvent) : QueueLog where
  world := l.world.step e
  queuedAt := fun taskUuid =>
    if queues taskUuid l.world.store (l.world.step e).store then some l.world.clock
    else l.queuedAt taskUuid

end QueueLog

/-- A task that a scheduler takes was last queued the threshold ago, or longer. -/
def RedeliveryWaits (l : QueueLog) (e : TaskEvent) : Prop :=
  ∀ taskUuid, redelivers taskUuid l.world e = true →
    ∀ q, l.queuedAt taskUuid = some q → q + stalledThreshold ≤ l.world.clock

/-- When a batch takes rows, a task that nobody holds or locks and that is older than the
threshold has also been queued that long; and a worker computes its lease from a time at
which the task was queued already. -/
structure Timely (l : QueueLog) (e : TaskEvent) : Prop where
  batch : ∀ schedulerId locked now, l.world.actor e = some (.tick schedulerId) →
    now ≤ l.world.clock → (l.world.step e).store ≠ l.world.store →
    (l.world.step e).store = (claimOutboxBatch locked schedulerId safelyReplayableTaskTypes now
      taskEnqueueBatchSize l.world.store).2 →
    ∀ taskUuid task q, l.world.store.find? taskUuid = some task → taskUuid ∉ locked →
      task.status = .queued → task.leaseExpiresAt = none →
      task.createdAt + stalledThreshold ≤ now → l.queuedAt taskUuid = some q →
      q + stalledThreshold ≤ l.world.clock
  lease : ∀ owner taskUuid now, (l.world.actor e).bind Activity.worker = some owner →
    (l.world.step e).store ≠ l.world.store →
    (l.world.step e).store = (claimRunning taskUuid owner now l.world.store).2 ∨
      (l.world.step e).store = (renewRunningLease taskUuid owner now l.world.store).2 →
    ∀ q, l.queuedAt taskUuid = some q → q ≤ now

/-! ## What a statement does to the row of a task -/

/-- How a statement other than a batch leaves a row. -/
inductive RowChange (a : Activity) (taskUuid : Nat) (tasks tasks' : BackgroundTasks)
    (task' : BackgroundTask) : Prop
  | same (h : tasks.find? taskUuid = some task')
  | pending (h : task'.status = .pendingEnqueue)
      (h₀ : ∀ task, tasks.find? taskUuid = some task → task.status = .pendingEnqueue)
  | queued (h : task'.waits = true)
  | ended (h : isTerminalTaskStatus task'.status = true)
      (h₀ : a.worker = none → task'.leaseOwner = none ∨ a = .stageCancelTasks)
  | running (owner : String) (now : Nat) (ha : a.worker = some owner)
      (h : task'.status = .running)
      (hx : task'.leaseExpiresAt = some (now + taskRunningLeaseSeconds * 1000))
      (h₀ : tasks' = (claimRunning taskUuid owner now tasks).2 ∨
        tasks' = (renewRunningLease taskUuid owner now tasks).2)

variable {a : Activity} {t taskUuid : Nat} {tasks tasks' : BackgroundTasks}
  {task' : BackgroundTask}

variable {f : BackgroundTask → BackgroundTask}

theorem rowChange_updateWhere {p : Nat → BackgroundTask → Bool}
    (htasks' : (updateWhere p f tasks).2 = tasks') (h : tasks'.find? taskUuid = some task')
    (hf : ∀ task, tasks.find? taskUuid = some task → p taskUuid task = true →
      RowChange a taskUuid tasks tasks' (f task)) : RowChange a taskUuid tasks tasks' task' := by
  rw [← htasks', find?_updateWhere] at h
  obtain ⟨task, hfind, htask⟩ := Option.map_eq_some_iff.mp h
  by_cases hp : p taskUuid task = true
  · rw [if_pos hp] at htask
    rw [← htask]
    exact hf task hfind hp
  · rw [if_neg hp] at htask
    exact .same (htask ▸ hfind)

theorem rowChange_updateOne {uuid : Nat} {p : BackgroundTask → Bool}
    (htasks' : (updateOne uuid p f tasks).2 = tasks') (h : tasks'.find? taskUuid = some task')
    (hf : ∀ task, tasks.find? taskUuid = some task → taskUuid = uuid → p task = true →
      RowChange a taskUuid tasks tasks' (f task)) : RowChange a taskUuid tasks tasks' task' := by
  have hwhere : (updateWhere (fun u task => u == uuid && p task) f tasks).2 = tasks' := htasks'
  refine rowChange_updateWhere hwhere h fun task hfind hp => ?_
  obtain ⟨huuid, hp⟩ := Bool.and_eq_true_iff.mp hp
  exact hf task hfind (beq_iff_eq.mp huuid) hp

theorem Statement.rowChange (h : Statement a t tasks tasks') :
    (∃ schedulerId locked now, a = .tick schedulerId ∧ now ≤ t ∧
      tasks' = (Tasks.claimOutboxBatch locked schedulerId safelyReplayableTaskTypes now
        taskEnqueueBatchSize tasks).2) ∨
    ∀ taskUuid task', tasks'.find? taskUuid = some task' →
      RowChange a taskUuid tasks tasks' task' := by
  cases h with
  | claimOutboxBatch locked hnow => exact Or.inl ⟨_, locked, _, rfl, hnow, rfl⟩
  | loadTask => exact Or.inr fun _ _ hfind => .same hfind
  | claimRunning job taskUuid hnow =>
      refine Or.inr fun uuid task' hfind => rowChange_updateOne rfl hfind fun task _ huuid _ => ?_
      subst huuid
      exact .running _ _ rfl rfl rfl (Or.inl rfl)
  | markSucceeded =>
      refine Or.inr fun uuid task' hfind => rowChange_updateOne rfl hfind fun task _ _ _ => ?_
      exact .ended rfl fun _ => Or.inl rfl
  | markFailed =>
      refine Or.inr fun uuid task' hfind => rowChange_updateOne rfl hfind fun task _ _ _ => ?_
      exact .ended rfl fun _ => Or.inl rfl
  | renewRunningLease taskUuid hnow =>
      refine Or.inr fun uuid task' hfind => rowChange_updateOne rfl hfind fun task _ huuid hp => ?_
      subst huuid
      have hrun : task.status = .running := by simp_all
      exact .running _ _ rfl hrun rfl (Or.inr rfl)
  | insertPendingTask _ input now createdAt =>
      refine Or.inr fun uuid task' hfind => ?_
      unfold insertPendingTaskSql at hfind
      cases hold : tasks.find? input.taskUuid with
      | some _ => exact .same (by simpa [hold] using hfind)
      | none =>
          rw [hold] at hfind
          by_cases huuid : uuid = input.taskUuid
          · subst huuid
            rw [Table.find?_insert_self, Option.some.injEq] at hfind
            refine .pending (by rw [← hfind]; rfl) fun task htask => ?_
            rw [hold] at htask
            cases htask
          · rw [Table.find?_insert_ne _ _ huuid] at hfind
            exact .same hfind
  | failTimedOutTasks =>
      refine Or.inr fun uuid task' hfind => rowChange_updateWhere rfl hfind fun task _ _ => ?_
      exact .ended rfl fun _ => Or.inl rfl
  | markQueued =>
      refine Or.inr fun uuid task' hfind => rowChange_updateOne rfl hfind fun task _ _ _ => ?_
      exact .queued rfl
  | releaseEnqueueLease =>
      refine Or.inr fun uuid task' hfind => rowChange_updateOne rfl hfind fun task hold _ hp => ?_
      have hpend : task.status = .pendingEnqueue := by simp_all
      refine .pending hpend fun task₀ h₀ => ?_
      rw [Option.some.inj (h₀.symm.trans hold)]
      exact hpend
  | markCancelled =>
      refine Or.inr fun uuid task' hfind => rowChange_updateOne rfl hfind fun task _ _ _ => ?_
      exact .ended rfl fun _ => Or.inl rfl
  | stageCancelTasks =>
      refine Or.inr fun uuid task' hfind => rowChange_updateWhere rfl hfind fun task _ _ => ?_
      exact .ended rfl fun _ => Or.inr rfl

namespace QueueLog

/-- What the log tells about the rows: a task that was queued is past its first enqueueing,
and a lease that somebody still holds reaches past the threshold, unless the threshold is
over already. -/
structure Sound (l : QueueLog) : Prop where
  ensured : World.Ensured Statement l.world
  enqueued : ∀ taskUuid q, l.queuedAt taskUuid = some q →
    ∃ task, l.world.store.find? taskUuid = some task ∧ task.status ≠ .pendingEnqueue
  leased : ∀ taskUuid task expires q, l.world.store.find? taskUuid = some task →
    isTerminalTaskStatus task.status = false → task.leaseExpiresAt = some expires →
    l.queuedAt taskUuid = some q →
    q + stalledThreshold ≤ expires ∨ q + stalledThreshold ≤ l.world.clock

theorem sound_start (clock : Nat) : (start clock).Sound where
  ensured := fun _ h => absurd h List.not_mem_nil
  enqueued := by intro taskUuid q h; cases h
  leased := by intro taskUuid task expires q h; cases h

variable {l : QueueLog} {e : TaskEvent} {task task' : BackgroundTask} {q : Nat}

theorem queuedAt_step_of_waits (h' : (l.world.step e).store.find? taskUuid = some task')
    (hwaits : task'.waits = false) : (l.step e).queuedAt taskUuid = l.queuedAt taskUuid := by
  show (if queues taskUuid l.world.store (l.world.step e).store then _ else _) = _
  rw [if_neg (by simp [queues, h', hwaits])]

theorem Sound.batch_waits (h : l.Sound) (ht : Timely l e) {schedulerId : String}
    {locked : List Nat} {now : Nat} (hactor : l.world.actor e = some (.tick schedulerId))
    (hnow : now ≤ l.world.clock) (hne : (l.world.step e).store ≠ l.world.store)
    (hstore : (l.world.step e).store = (claimOutboxBatch locked schedulerId
      safelyReplayableTaskTypes now taskEnqueueBatchSize l.world.store).2)
    (hfind : l.world.store.find? taskUuid = some task) (hfree : taskUuid ∉ locked)
    (hcand : isCandidate safelyReplayableTaskTypes now task = true)
    (hq : l.queuedAt taskUuid = some q) : q + stalledThreshold ≤ l.world.clock := by
  obtain ⟨task₀, hfind₀, hstatus⟩ := h.enqueued taskUuid q hq
  obtain rfl : task₀ = task := Option.some.inj (hfind₀.symm.trans hfind)
  rcases isCandidate_of_enqueued hcand hstatus with ⟨expires, hexp, hover⟩ | ⟨hqueued, hnone, hold⟩
  · have hlive := (isCandidate_lease hcand).1
    rcases h.leased taskUuid task₀ expires q hfind hlive hexp hq with hlease | hclock
    · omega
    · exact hclock
  · exact ht.batch schedulerId locked now hactor hnow hne hstore taskUuid task₀ q hfind hfree
      hqueued hnone hold hq

theorem clock_le_step (w : TaskWorld) (e : TaskEvent) : w.clock ≤ (w.step e).clock := by
  show w.clock ≤ (World.step Activity.script w e).clock
  cases e with
  | start a => exact Nat.le_refl _
  | advance i c =>
      simp only [World.step]
      split <;> exact Nat.le_refl _
  | crash i => exact Nat.le_refl _
  | pass d => exact Nat.le_add_right _ _

theorem Sound.step_cases (h : l.Sound) (e : TaskEvent) :
    (l.world.step e).store = l.world.store ∨
    ∃ a, l.world.actor e = some a ∧ Keeps a l.world.clock l.world.store (l.world.step e).store ∧
      ((∃ schedulerId locked now, a = .tick schedulerId ∧ now ≤ l.world.clock ∧
          (l.world.step e).store = (claimOutboxBatch locked schedulerId
            safelyReplayableTaskTypes now taskEnqueueBatchSize l.world.store).2) ∨
        ∀ taskUuid task', (l.world.step e).store.find? taskUuid = some task' →
          RowChange a taskUuid l.world.store (l.world.step e).store task') := by
  rcases h.ensured.store_step Activity.script e with hsame | ⟨a, hactor, hstatement⟩
  · exact Or.inl hsame
  · exact Or.inr ⟨a, hactor, hstatement.keeps, hstatement.rowChange⟩

theorem redelivers_iff {w : TaskWorld} :
    redelivers taskUuid w e = true ↔ ∃ schedulerId task task',
      w.actor e = some (.tick schedulerId) ∧ w.store.find? taskUuid = some task ∧
        (w.step e).store.find? taskUuid = some task' ∧
        task'.leaseOwner = some schedulerId ∧ task' ≠ task := by
  unfold redelivers
  split
  · next hactor hfind hfind' =>
      simp only [Bool.and_eq_true, beq_iff_eq, bne_iff_ne]
      constructor
      · intro h
        exact ⟨_, _, _, hactor, hfind, hfind', h⟩
      · rintro ⟨s, task, task', hs, ht, ht', h⟩
        cases hactor.symm.trans hs
        cases hfind.symm.trans ht
        cases hfind'.symm.trans ht'
        exact h
  · next hno =>
      constructor
      · intro h
        cases h
      · rintro ⟨s, task, task', hs, ht, ht', -⟩
        exact absurd ht' (hno s task task' hs ht)

theorem Sound.redeliveryWaits (h : l.Sound) (ht : Timely l e) : RedeliveryWaits l e := by
  intro taskUuid hred q hq
  obtain ⟨schedulerId, task, task', hactor, hfind, hfind', hown, hne⟩ := redelivers_iff.mp hred
  have hstore : (l.world.step e).store ≠ l.world.store := by
    intro hsame
    rw [hsame, hfind] at hfind'
    exact hne (Option.some.inj hfind').symm
  rcases h.step_cases e with hsame | ⟨a, ha, -, hbatch | hrow⟩
  · exact absurd hsame hstore
  · obtain ⟨s, locked, now, rfl, hnow, heq⟩ := hbatch
    rcases @find?_claimOutboxBatch locked s safelyReplayableTaskTypes now taskEnqueueBatchSize
      _ _ _ hfind with hold | ⟨hfree, hcand, -⟩
    · rw [heq, hold] at hfind'
      exact absurd (Option.some.inj hfind').symm hne
    · exact h.batch_waits ht ha hnow hstore heq hfind hfree hcand hq
  · obtain rfl : a = .tick schedulerId := Option.some.inj (ha.symm.trans hactor)
    obtain ⟨task₀, hfind₀, hstatus⟩ := h.enqueued taskUuid q hq
    cases hrow taskUuid task' hfind' with
    | same hsame => exact absurd (Option.some.inj (hsame.symm.trans hfind)) hne
    | pending _ h₀ => exact absurd (h₀ task₀ hfind₀) hstatus
    | queued hwaits => simp [BackgroundTask.waits, hown] at hwaits
    | ended _ h₀ =>
        rcases h₀ rfl with hnone | hstage
        · simp [hown] at hnone
        · cases hstage
    | running owner now hworker => cases hworker

theorem Sound.enqueued_step (h : l.Sound) (e : TaskEvent) {taskUuid q : Nat}
    (hq : (l.step e).queuedAt taskUuid = some q) :
    ∃ task, (l.step e).world.store.find? taskUuid = some task ∧
      task.status ≠ .pendingEnqueue := by
  show ∃ task, (l.world.step e).store.find? taskUuid = some task ∧ _
  by_cases hnew : queues taskUuid l.world.store (l.world.step e).store = true
  · obtain ⟨hwaits, -⟩ := Bool.and_eq_true_iff.mp hnew
    obtain ⟨task', hfind', hw⟩ := (Option.any_eq_true _ _).mp hwaits
    refine ⟨task', hfind', ?_⟩
    intro hpend
    simp [BackgroundTask.waits, hpend] at hw
  · have hold : l.queuedAt taskUuid = some q := by
      have : (if queues taskUuid l.world.store (l.world.step e).store = true then _ else _) =
        some q := hq
      rwa [if_neg hnew] at this
    obtain ⟨task, hfind, hstatus⟩ := h.enqueued taskUuid q hold
    rcases h.step_cases e with hsame | ⟨a, -, hkeeps, hbatch | hrow⟩
    · exact ⟨task, hsame ▸ hfind, hstatus⟩
    · obtain ⟨s, locked, now, -, -, heq⟩ := hbatch
      rcases @find?_claimOutboxBatch locked s safelyReplayableTaskTypes now taskEnqueueBatchSize
        _ _ _ hfind with hsame | ⟨-, -, htaken⟩
      · exact ⟨task, heq ▸ hsame, hstatus⟩
      · exact ⟨_, (congrArg (Table.find? · taskUuid) heq).trans htaken, hstatus⟩
    · obtain ⟨task', hfind', -⟩ := (hkeeps taskUuid).1 task hfind
      refine ⟨task', hfind', ?_⟩
      intro hpend
      cases hrow taskUuid task' hfind' with
      | same hsame => exact hstatus (Option.some.inj (hsame.symm.trans hfind) ▸ hpend)
      | pending _ h₀ => exact hstatus (h₀ task hfind)
      | queued hwaits => simp [BackgroundTask.waits, hpend] at hwaits
      | ended hover => simp [hpend, isTerminalTaskStatus, terminalTaskStatuses] at hover
      | running owner now _ hrun => simp [hpend] at hrun

theorem Sound.leased_step (h : l.Sound) (ht : Timely l e) {taskUuid expires q : Nat}
    {task' : BackgroundTask} (hfind' : (l.world.step e).store.find? taskUuid = some task')
    (hlive : isTerminalTaskStatus task'.status = false) (hexp : task'.leaseExpiresAt = some expires)
    (hq : (l.step e).queuedAt taskUuid = some q) :
    q + stalledThreshold ≤ expires ∨ q + stalledThreshold ≤ l.world.clock := by
  have hwaits : task'.waits = false := by simp [BackgroundTask.waits, hexp]
  rw [queuedAt_step_of_waits hfind' hwaits] at hq
  by_cases hstore : (l.world.step e).store = l.world.store
  · exact h.leased taskUuid task' expires q (hstore ▸ hfind') hlive hexp hq
  obtain ⟨task, hfind, hstatus⟩ := h.enqueued taskUuid q hq
  rcases h.step_cases e with hsame | ⟨a, ha, -, hbatch | hrow⟩
  · exact absurd hsame hstore
  · obtain ⟨s, locked, now, rfl, hnow, heq⟩ := hbatch
    rcases @find?_claimOutboxBatch locked s safelyReplayableTaskTypes now taskEnqueueBatchSize
      _ _ _ hfind with hold | ⟨hfree, hcand, -⟩
    · rw [heq, hold] at hfind'
      obtain rfl : task = task' := Option.some.inj hfind'
      exact h.leased taskUuid task expires q hfind hlive hexp hq
    · exact Or.inr (h.batch_waits ht ha hnow hstore heq hfind hfree hcand hq)
  · cases hrow taskUuid task' hfind' with
    | same hsame => exact h.leased taskUuid task' expires q hsame hlive hexp hq
    | pending _ h₀ => exact absurd (h₀ task hfind) hstatus
    | queued hw => simp [hwaits] at hw
    | ended hover => simp [hlive] at hover
    | running owner now hworker _ hx h₀ =>
        have hread : q ≤ now := ht.lease owner taskUuid now (by simp [ha, hworker]) hstore h₀ q hq
        have hend : expires = now + taskRunningLeaseSeconds * 1000 :=
          Option.some.inj (hexp.symm.trans hx)
        -- the execution lease is as long as the threshold
        have hlong : stalledThreshold = taskRunningLeaseSeconds * 1000 := rfl
        omega

theorem Sound.step (h : l.Sound) (ht : Timely l e) : (l.step e).Sound where
  ensured := h.ensured.step Activity.makes e
  enqueued := fun _ _ hq => h.enqueued_step e hq
  leased := by
    intro taskUuid task' expires q hfind' hlive hexp hq
    have hclock : l.world.clock ≤ (l.step e).world.clock := clock_le_step l.world e
    rcases h.leased_step ht hfind' hlive hexp hq with hlease | hover
    · exact Or.inl hlease
    · exact Or.inr (Nat.le_trans hover hclock)

end QueueLog

/-- In every run whose steps are timely, no task is taken for redelivery before it has been
in the queue for the threshold. -/
theorem redelivery_of_timely (clock : Nat) (es : List TaskEvent)
    (h : Along QueueLog.step Timely (QueueLog.start clock) es) :
    Along QueueLog.step RedeliveryWaits (QueueLog.start clock) es :=
  h.strengthen (QueueLog.sound_start clock) (fun _ _ hs ht => hs.step ht)
    (fun _ _ hs ht => hs.redeliveryWaits ht)

/-- No worker acts, and every task in the log was queued when it was created. -/
def prompt (l : QueueLog) (e : TaskEvent) : Bool :=
  (l.world.actor e).bind Activity.worker == none &&
    l.world.store.rows.all (fun row =>
      l.queuedAt row.1 == none || l.queuedAt row.1 == some row.2.createdAt)

theorem timely_of_prompt {l : QueueLog} {e : TaskEvent} (h : prompt l e = true) : Timely l e where
  batch := by
    intro schedulerId locked now _ hnow _ _ taskUuid task q hfind _ _ _ hold hq
    obtain ⟨-, hall⟩ := Bool.and_eq_true_iff.mp h
    have hrow := List.all_eq_true.mp hall (taskUuid, task) (Table.find?_eq_some_iff.mp hfind)
    obtain rfl : q = task.createdAt := by simpa [hq] using hrow
    omega
  lease := by
    intro owner taskUuid now hworker
    obtain ⟨hnone, -⟩ := Bool.and_eq_true_iff.mp h
    rw [hworker] at hnone
    cases hnone

/-- Task 7 is queued as soon as it is created, and handed out again ten minutes later. -/
def promptRedelivery : List TaskEvent := List.flatten [
  [.start (.createPending ⟨7, .scheduledBackup⟩)],
  List.replicate 4 (.advance 0 (.returned 1)),
  [.start (.tick "scheduler")], (tickAnswers []).map (.advance 1),
  [.pass 600000, .start (.tick "scheduler")], (tickAnswers []).map (.advance 2)]

theorem redelivery_of_timely_prompt :
    Along QueueLog.step RedeliveryWaits (QueueLog.start 0) promptRedelivery :=
  redelivery_of_timely 0 promptRedelivery
    (Along.imp (P := fun l e => prompt l e = true) (by decide +kernel)
      fun _ _ => timely_of_prompt)

/-- Task 7 waits ten minutes to be queued; five seconds after that, a scheduler is about to
send its next batch. -/
def hastyRedelivery : List TaskEvent := List.flatten [
  [.start (.createPending ⟨7, .scheduledBackup⟩)],
  List.replicate 4 (.advance 0 (.returned 1)),
  [.pass 600000, .start (.tick "scheduler")], (tickAnswers []).map (.advance 1),
  [.pass 5000, .start (.tick "scheduler")], ((tickAnswers []).take 10).map (.advance 2)]

theorem not_redelivery_hasty :
    ¬ ∀ (clock : Nat) (es : List TaskEvent),
      Along QueueLog.step RedeliveryWaits (QueueLog.start clock) es := by
  intro h
  have hlast : RedeliveryWaits (hastyRedelivery.foldl QueueLog.step (QueueLog.start 0))
      (.advance 2 (.returned 0)) :=
    Along.at_split (h 0 (hastyRedelivery ++ [.advance 2 (.returned 0)]))
  have hover := hlast 7 (by decide +kernel) 600000 (by decide +kernel)
  revert hover
  decide +kernel

end Wbme.Tasks
