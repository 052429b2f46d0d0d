import Wbme.Lib.Table

/-!
# Status transitions of background tasks

The background task table is keyed by the task uuid. Every transition is one conditional
`UPDATE`: the rows its `WHERE` clause selects are rewritten, and the caller learns how many
they were. Times are milliseconds; a transition is given the time its caller read before.
-/

namespace Wbme.Tasks

open Lib

/-! ## Constants -/

inductive TaskStatus
  | pendingEnqueue
  | queued
  | running
  | succeeded
  | failed
  | cancelled
  deriving DecidableEq

inductive TaskType
  | accountLifecycle
  | scheduledBackup
  | immediateBackup
  | restoreDelivery
  | emergencyBackup
  | unassociatedImageCleanup
  | approvalTimeoutScan
  | logRetentionCleanup
  deriving DecidableEq

/-- How long a scheduler holds a task it is handing to the queue, in seconds. -/
def taskEnqueueLeaseSeconds : Nat := 120

/-- How long a worker holds a task it runs, in seconds. -/
def taskRunningLeaseSeconds : Nat := 600

def taskMaxAttempts : Nat := 10

def taskEnqueueBackoffBaseSeconds : Nat := 30

def taskEnqueueBatchSize : Nat := 50

/-- The task types that may be handed out again once a lease ran out. -/
def safelyReplayableTaskTypes : List TaskType :=
  [.accountLifecycle, .scheduledBackup, .immediateBackup, .emergencyBackup,
    .unassociatedImageCleanup, .approvalTimeoutScan, .restoreDelivery, .logRetentionCleanup]

def terminalTaskStatuses : List TaskStatus := [.succeeded, .failed, .cancelled]

def isTerminalTaskStatus (status : TaskStatus) : Bool := terminalTaskStatuses.contains status

def computeEnqueueBackoffSeconds (attempts : Nat) : Nat :=
  taskEnqueueBackoffBaseSeconds * 2 ^ min attempts 8

/-! ## The table -/

structure BackgroundTask where
  taskType : TaskType
  status : TaskStatus
  progress : Nat
  startedAt : Option Nat
  finishedAt : Option Nat
  attempts : Nat
  nextRetryAt : Option Nat
  timeoutAt : Option Nat
  leaseOwner : Option String
  leaseExpiresAt : Option Nat
  lastError : Option String
  createdAt : Nat
  deriving DecidableEq

abbrev BackgroundTasks := Table BackgroundTask

/-- `UPDATE … SET f WHERE p`: the number of rows that matched, and the table after it. -/
def updateWhere (p : Nat → BackgroundTask → Bool) (f : BackgroundTask → BackgroundTask)
    (tasks : BackgroundTasks) : Nat × BackgroundTasks :=
  ((tasks.select p).length, tasks.updateMany p f)

/-- A conditional update of one row, `true` if it matched. -/
def updateOne (taskUuid : Nat) (p : BackgroundTask → Bool)
    (f : BackgroundTask → BackgroundTask) (tasks : BackgroundTasks) : Bool × BackgroundTasks :=
  let result := updateWhere (fun uuid task => uuid == taskUuid && p task) f tasks
  (0 < result.1, result.2)

/-- A timestamp that is set and not later than a time. -/
def reached (at? : Option Nat) (now : Nat) : Bool := at?.any (· ≤ now)

def errorSummary (lastError : String) : String := String.ofList (lastError.toList.take 2000)

def loadTaskByUuid (taskUuid : Nat) (tasks : BackgroundTasks) :
    Option BackgroundTask × BackgroundTasks :=
  (tasks.find? taskUuid, tasks)

/-! ## Transitions -/

def markQueued (taskUuid : Nat) (leaseOwner : String) :
    BackgroundTasks → Bool × BackgroundTasks :=
  updateOne taskUuid
    (fun task => [TaskStatus.pendingEnqueue, .queued, .running].contains task.status &&
      task.leaseOwner == some leaseOwner)
    (fun task => { task with
      status := .queued
      leaseOwner := none
      leaseExpiresAt := none
      nextRetryAt := none
      lastError := none })

def claimRunning (taskUuid : Nat) (leaseOwner : String) (now : Nat) :
    BackgroundTasks → Bool × BackgroundTasks :=
  updateOne taskUuid
    (fun task => [TaskStatus.queued, .running].contains task.status &&
      (task.status == .queued || task.leaseExpiresAt == none || reached task.leaseExpiresAt now ||
        task.leaseOwner == some leaseOwner))
    (fun task => { task with
      status := .running
      leaseOwner := some leaseOwner
      leaseExpiresAt := some (now + taskRunningLeaseSeconds * 1000)
      startedAt := task.startedAt <|> some now
      attempts := if task.status = .queued then task.attempts + 1 else task.attempts
      timeoutAt := some (now + taskRunningLeaseSeconds * 2 * 1000) })

def renewRunningLease (taskUuid : Nat) (leaseOwner : String) (now : Nat) :
    BackgroundTasks → Bool × BackgroundTasks :=
  updateOne taskUuid
    (fun task => task.status == .running && task.leaseOwner == some leaseOwner)
    (fun task => { task with
      leaseExpiresAt := some (now + taskRunningLeaseSeconds * 1000)
      timeoutAt := some (now + taskRunningLeaseSeconds * 2 * 1000) })

def failTimedOutTasks (now : Nat) : BackgroundTasks → Nat × BackgroundTasks :=
  updateWhere
    (fun _ task => task.status == .running && reached task.timeoutAt now)
    (fun task => { task with
      status := .failed
      finishedAt := some now
      lastError := some "任务执行超时（timeout_at）"
      leaseOwner := none
      leaseExpiresAt := none })

def markSucceeded (taskUuid : Nat) (leaseOwner : String) (now : Nat) :
    BackgroundTasks → Bool × BackgroundTasks :=
  updateOne taskUuid
    (fun task => task.status == .running && task.leaseOwner == some leaseOwner)
    (fun task => { task with
      status := .succeeded
      finishedAt := some now
      progress := 100
      leaseOwner := none
      leaseExpiresAt := none
      lastError := none })

def markFailed (taskUuid : Nat) (leaseOwner lastError : String) (now : Nat) :
    BackgroundTasks → Bool × BackgroundTasks :=
  updateOne taskUuid
    (fun task => task.status == .running && task.leaseOwner == some leaseOwner)
    (fun task => { task with
      status := .failed
      finishedAt := some now
      leaseOwner := none
      leaseExpiresAt := none
      lastError := some (errorSummary lastError) })

/-- Without an owner the cancellation takes the task from whoever holds it. -/
def markCancelled (taskUuid : Nat) (leaseOwner : Option String) (now : Nat) :
    BackgroundTasks → Bool × BackgroundTasks :=
  updateOne taskUuid
    (fun task => !([TaskStatus.succeeded, .failed, .cancelled].contains task.status) &&
      (leaseOwner == none || task.leaseOwner == leaseOwner))
    (fun task => { task with
      status := .cancelled
      finishedAt := some now
      leaseOwner := none
      leaseExpiresAt := none })

def releaseEnqueueLease (taskUuid : Nat) (leaseOwner : String) (attempts : Nat)
    (lastError : String) (now : Nat) : BackgroundTasks → Bool × BackgroundTasks :=
  updateOne taskUuid
    (fun task => task.status == .pendingEnqueue && task.leaseOwner == some leaseOwner)
    (fun task => { task with
      leaseOwner := none
      leaseExpiresAt := none
      attempts := task.attempts + 1
      nextRetryAt := some (now + computeEnqueueBackoffSeconds attempts * 1000)
      lastError := some (errorSummary lastError) })

/-- What the recovery executor does to the tasks of a restored database: every one that is
not over is cancelled, its lease columns left as they are. -/
def stageCancelTasks (now : Nat) : BackgroundTasks → Nat × BackgroundTasks :=
  updateWhere
    (fun _ task => [TaskStatus.pendingEnqueue, .queued, .running].contains task.status)
    (fun task => { task with
      status := .cancelled
      lastError := some "因整库恢复取消"
      finishedAt := some now })

/-! ## What a conditional update does to the rows -/

theorem find?_updateWhere (p : Nat → BackgroundTask → Bool) (f : BackgroundTask → BackgroundTask)
    (tasks : BackgroundTasks) (uuid : Nat) :
    (updateWhere p f tasks).2.find? uuid =
      (tasks.find? uuid).map (fun task => if p uuid task then f task else task) :=
  tasks.find?_updateMany p f uuid

theorem find?_updateOne (taskUuid : Nat) (p : BackgroundTask → Bool)
    (f : BackgroundTask → BackgroundTask) (tasks : BackgroundTasks) (uuid : Nat) :
    (updateOne taskUuid p f tasks).2.find? uuid =
      (tasks.find? uuid).map (fun task => if uuid = taskUuid ∧ p task then f task else task) := by
  show (updateWhere _ f tasks).2.find? uuid = _
  rw [find?_updateWhere]
  simp

theorem updateOne_of_find? {taskUuid : Nat} {p : BackgroundTask → Bool}
    {f : BackgroundTask → BackgroundTask} {tasks : BackgroundTasks} {task : BackgroundTask}
    (h : tasks.find? taskUuid = some task) (hp : p task = true) :
    (updateOne taskUuid p f tasks).1 = true ∧
      (updateOne taskUuid p f tasks).2.find? taskUuid = some (f task) := by
  constructor
  · have hmem : (taskUuid, task) ∈ tasks.select (fun uuid task => uuid == taskUuid && p task) :=
      Table.mem_select.mpr ⟨h, by simp [hp]⟩
    exact decide_eq_true (List.length_pos_of_mem hmem)
  · simp [find?_updateOne, h, hp]

end Wbme.Tasks
