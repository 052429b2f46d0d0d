import Wbme.Tasks.StatusTransitions

/-!
# The outbox

Tasks enter the table as `PENDING_ENQUEUE` rows. A scheduler leases a batch of those that
are due, together with the replayable ones whose lease ran out and those that were queued
long ago and never picked up.
-/

namespace Wbme.Tasks

open Lib

/-- A row that a batch took, with the status it had. -/
structure OutboxClaimRow where
  taskUuid : Nat
  taskType : TaskType
  status : TaskStatus

/-- After how many minutes a queued task that nobody picked up is handed out again. -/
def stalledQueuedRequeueMinutes : Nat := 10

/-- The `WHERE` clause of the batch. -/
def isCandidate (replayableTypes : List TaskType) (now : Nat) (task : BackgroundTask) : Bool :=
  (task.status == .pendingEnqueue &&
    (task.nextRetryAt == none || reached task.nextRetryAt now) &&
    (task.leaseExpiresAt == none || reached task.leaseExpiresAt now)) ||
  ([TaskStatus.queued, .running].contains task.status &&
    reached task.leaseExpiresAt now && replayableTypes.contains task.taskType) ||
  (task.status == .queued && task.leaseExpiresAt == none &&
    task.createdAt + stalledQueuedRequeueMinutes * 60000 ≤ now &&
    replayableTypes.contains task.taskType)

/-- `SELECT … ORDER BY created_at LIMIT … FOR UPDATE SKIP LOCKED`, where other transactions
hold the rows of `locked`. -/
def outboxCandidates (locked : List Nat) (replayableTypes : List TaskType) (now batchSize : Nat)
    (tasks : BackgroundTasks) : List (Nat × BackgroundTask) :=
  (((tasks.select (fun uuid task =>
    !locked.contains uuid && isCandidate replayableTypes now task)).mergeSort
      (fun a b => a.2.createdAt ≤ b.2.createdAt)).take batchSize)

def claimOutboxBatch (locked : List Nat) (leaseOwner : String) (replayableTypes : List TaskType)
    (now batchSize : Nat) (tasks : BackgroundTasks) : List OutboxClaimRow × BackgroundTasks :=
  let candidates := outboxCandidates locked replayableTypes now batchSize tasks
  (candidates.map (fun c => ⟨c.1, c.2.taskType, c.2.status⟩),
    (updateWhere (fun uuid _ => (candidates.map (·.1)).contains uuid)
      (fun task => { task with
        leaseOwner := some leaseOwner
        leaseExpiresAt := some (now + taskEnqueueLeaseSeconds * 1000) }) tasks).2)

structure CreatePendingTaskInput where
  taskUuid : Nat
  taskType : TaskType

/-- The row of a new task; the database stamps its creation. -/
def pendingTask (taskType : TaskType) (nextRetryAt createdAt : Nat) : BackgroundTask where
  taskType := taskType
  status := .pendingEnqueue
  progress := 0
  startedAt := none
  finishedAt := none
  attempts := 0
  nextRetryAt := some nextRetryAt
  timeoutAt := none
  leaseOwner := none
  leaseExpiresAt := none
  lastError := none
  createdAt := createdAt

/-- `INSERT … ON CONFLICT (task_uuid) DO NOTHING`: `true` if the row is new. -/
def insertPendingTaskSql (input : CreatePendingTaskInput) (now createdAt : Nat)
    (tasks : BackgroundTasks) : Bool × BackgroundTasks :=
  match tasks.find? input.taskUuid with
  | some _ => (false, tasks)
  | none => (true, tasks.insert input.taskUuid (pendingTask input.taskType now createdAt))

/-! ## What the outbox takes -/

theorem mem_outboxCandidates {locked : List Nat} {replayableTypes : List TaskType}
    {now batchSize : Nat} {tasks : BackgroundTasks} {x : Nat × BackgroundTask}
    (h : x ∈ outboxCandidates locked replayableTypes now batchSize tasks) :
    tasks.find? x.1 = some x.2 ∧ x.1 ∉ locked ∧ isCandidate replayableTypes now x.2 = true := by
  have hsel := List.mem_mergeSort.mp (List.mem_of_mem_take h)
  obtain ⟨hfind, hp⟩ := Table.mem_select.mp hsel
  obtain ⟨hfree, hcand⟩ := Bool.and_eq_true_iff.mp hp
  exact ⟨hfind, by simpa using hfree, hcand⟩

theorem find?_claimOutboxBatch {locked : List Nat} {leaseOwner : String}
    {replayableTypes : List TaskType} {now batchSize : Nat} {tasks : BackgroundTasks} {uuid : Nat}
    {task : BackgroundTask} (h : tasks.find? uuid = some task) :
    (claimOutboxBatch locked leaseOwner replayableTypes now batchSize tasks).2.find? uuid =
        some task ∨
      uuid ∉ locked ∧ isCandidate replayableTypes now task = true ∧
      (claimOutboxBatch locked leaseOwner replayableTypes now batchSize tasks).2.find? uuid =
        some { task with
          leaseOwner := some leaseOwner
          leaseExpiresAt := some (now + taskEnqueueLeaseSeconds * 1000) } := by
  show (updateWhere _ _ tasks).2.find? uuid = _ ∨
    _ ∧ _ ∧ (updateWhere _ _ tasks).2.find? uuid = _
  rw [find?_updateWhere, h, Option.map_some]
  split
  · next hmem =>
      obtain ⟨x, hx, rfl⟩ := List.mem_map.mp (List.contains_iff_mem.mp hmem)
      obtain ⟨hfind, hfree, hcand⟩ := mem_outboxCandidates hx
      obtain rfl : x.2 = task := Option.some.inj (hfind.symm.trans h)
      exact Or.inr ⟨hfree, hcand, rfl⟩
  · exact Or.inl rfl

theorem isCandidate_lease {replayableTypes : List TaskType} {now : Nat} {task : BackgroundTask}
    (h : isCandidate replayableTypes now task = true) :
    isTerminalTaskStatus task.status = false ∧
      ∀ expires, task.leaseExpiresAt = some expires → expires ≤ now := by
  cases hs : task.status <;> cases hl : task.leaseExpiresAt <;>
    simp_all [isCandidate, isTerminalTaskStatus, terminalTaskStatuses, reached]

/-- A candidate that was enqueued before has a lease that is over, or sits in the queue
without one since long after its creation. -/
theorem isCandidate_of_enqueued {replayableTypes : List TaskType} {now : Nat}
    {task : BackgroundTask} (h : isCandidate replayableTypes now task = true)
    (hs : task.status ≠ .pendingEnqueue) :
    (∃ expires, task.leaseExpiresAt = some expires ∧ expires ≤ now) ∨
      task.status = .queued ∧ task.leaseExpiresAt = none ∧
        task.createdAt + stalledQueuedRequeueMinutes * 60000 ≤ now := by
  cases hl : task.leaseExpiresAt <;> simp_all [isCandidate, reached]

end Wbme.Tasks
