import Wbme.Lib.Process
import Wbme.Tasks.Outbox

/-!
# Workers and schedulers

The scripts that work on the background task table: a worker handling a delivered job, the
heartbeat that extends its lease, a scheduler's tick, and the services that create and
cancel tasks. Every statement is a step of its own; the queue, the task processors and the
connection to the database answer as the outside pleases.
-/

namespace Wbme.Tasks

open Lib Script

/-- What the outside answers: a call came back with a number, it failed before it took
effect, or it took effect and the reply was lost; a daily task is due under a uuid; other
transactions hold some rows. -/
inductive Answer
  | returned (n : Nat)
  | failed (message : String)
  | replyLost (message : String)
  | due (taskUuid : Nat)
  | locked (uuids : List Nat)

abbrev TaskScript := Script BackgroundTasks Answer

/-- A statement sent to the database. A lost reply leaves its effect behind. -/
def statement {α : Type} (f : BackgroundTasks → α × BackgroundTasks) : TaskScript α := do
  match ← ask with
  | .failed message => throw message
  | .replyLost message => do
      let _ ← atomic f
      throw message
  | _ => atomic f

/-- A call of something other than the task table, with the number it returns. -/
def call : TaskScript Nat := do
  match ← ask with
  | .failed message => throw message
  | .replyLost message => throw message
  | .returned n => pure n
  | _ => pure 0

/-! ## The worker -/

/-- A job as the queue delivers it. -/
structure Job where
  taskUuid : Option Nat
  id : Option Nat
  attemptsMade : Nat
  attempts : Option Nat

/-- The processor of the task's type; none of them touches the task table. -/
def processor (_task : BackgroundTask) : TaskScript Unit := do
  let _ ← call

def handleJob (leaseOwner : String) (job : Job) : TaskScript Unit := do
  match job.taskUuid <|> job.id with
  | none => throw "任务缺少 taskUuid"
  | some taskUuid => do
    match ← statement (loadTaskByUuid taskUuid) with
    | none => pure ()
    | some task =>
      if isTerminalTaskStatus task.status then
        pure ()
      else do
        let now ← readClock
        let claimed ← statement (claimRunning taskUuid leaseOwner now)
        if claimed then
          tryCatch
            (do
              processor task
              let now ← readClock
              let _ ← statement (markSucceeded taskUuid leaseOwner now))
            (fun message => do
              let isFinal := job.attemptsMade + 1 ≥ job.attempts.getD taskMaxAttempts
              if isFinal then do
                let now ← readClock
                let _ ← statement (markFailed taskUuid leaseOwner message now)
                throw message
              else
                throw message)
        else
          throw s!"执行租约暂不可领取 taskUuid={taskUuid}"

/-- One beat of the timer that runs beside a job; its failure is ignored. -/
def renewLease (leaseOwner : String) (taskUuid : Nat) : TaskScript Unit :=
  tryCatch
    (do
      let now ← readClock
      let _ ← statement (renewRunningLease taskUuid leaseOwner now))
    (fun _ => pure ())

/-! ## The scheduler -/

/-- A task that is created once per cycle, under a uuid that names the cycle. Whether the
cycle has begun and was not served yet is the outside's answer. -/
def ensureTask (taskType : TaskType) (now : Nat) : TaskScript Unit := do
  match ← ask with
  | .failed message => throw message
  | .due taskUuid => do
      let createdAt ← readClock
      let _ ← statement (insertPendingTaskSql ⟨taskUuid, taskType⟩ now createdAt)
  | _ => pure ()

def ensureDailyScheduledBackup : Nat → TaskScript Unit := ensureTask .scheduledBackup

def ensureDailyImageCleanup : Nat → TaskScript Unit := ensureTask .unassociatedImageCleanup

def ensureDailyApprovalTimeoutScan : Nat → TaskScript Unit := ensureTask .approvalTimeoutScan

def ensurePeriodicLogCleanup : Nat → TaskScript Unit := ensureTask .logRetentionCleanup

/-- Whether maintenance is on; an unreadable state counts as on. -/
def shouldPauseForMaintenance : TaskScript Bool :=
  tryCatch
    (do
      let active ← call
      pure (0 < active))
    (fun _ => pure true)

/-- Remove the job that an earlier delivery may have left in the queue. -/
def removeLeftover (row : OutboxClaimRow) : TaskScript Unit := do
  if row.status ≠ .pendingEnqueue then do
    let removed ← call
    if removed = 0 then
      throw s!"残留 job 仍被锁定 taskUuid={row.taskUuid}，下个调度周期重试"
    else
      pure ()
  else
    pure ()

def deliver (schedulerId : String) (now : Nat) (row : OutboxClaimRow) : TaskScript Unit :=
  tryCatch
    (do
      removeLeftover row
      -- `queue.add` under the task's uuid
      let _ ← call
      let _ ← statement (markQueued row.taskUuid schedulerId))
    (fun message => do
      let _ ← statement (releaseEnqueueLease row.taskUuid schedulerId 0 message now))

def claimBatch (schedulerId : String) (now : Nat) : TaskScript (List OutboxClaimRow) := do
  let uuids ← (do
    match ← ask with
    | .locked uuids => pure uuids
    | _ => pure [])
  statement
    (claimOutboxBatch uuids schedulerId safelyReplayableTaskTypes now taskEnqueueBatchSize)

def tick (schedulerId : String) : TaskScript Unit := do
  let paused ← shouldPauseForMaintenance
  if paused then
    pure ()
  else do
    let now ← readClock
    ensureDailyScheduledBackup now
    ensureDailyImageCleanup now
    ensureDailyApprovalTimeoutScan now
    ensurePeriodicLogCleanup now
    let _ ← statement (failTimedOutTasks now)
    let batch ← claimBatch schedulerId now
    batch.forM (deliver schedulerId now)

/-! ## Everything that runs -/

/-- What may run against the task table, any number of times and at any moment. -/
inductive Activity
  | handleJob (leaseOwner : String) (job : Job)
  | renewLease (leaseOwner : String) (taskUuid : Nat)
  | tick (schedulerId : String)
  | createPending (input : CreatePendingTaskInput)
  | cancel (taskUuid : Nat) (leaseOwner : Option String)
  | stageCancelTasks

def Activity.script : Activity → TaskScript Unit
  | .handleJob leaseOwner job => Tasks.handleJob leaseOwner job
  | .renewLease leaseOwner taskUuid => Tasks.renewLease leaseOwner taskUuid
  | .tick schedulerId => Tasks.tick schedulerId
  | .createPending input => do
      let now ← readClock
      let createdAt ← readClock
      let _ ← statement (insertPendingTaskSql input now createdAt)
  | .cancel taskUuid leaseOwner => do
      let now ← readClock
      let _ ← statement (markCancelled taskUuid leaseOwner now)
  | .stageCancelTasks => do
      let now ← readClock
      let _ ← statement (Tasks.stageCancelTasks now)

def Activity.worker : Activity → Option String
  | .handleJob leaseOwner _ => some leaseOwner
  | .renewLease leaseOwner _ => some leaseOwner
  | _ => none

abbrev TaskWorld := World BackgroundTasks Answer Activity

abbrev TaskEvent := Event Answer Activity

/-- No tasks yet and nothing under way. -/
def TaskWorld.start (clock : Nat) : TaskWorld := ⟨clock, Table.empty, []⟩

def TaskWorld.step (w : TaskWorld) (e : TaskEvent) : TaskWorld := World.step Activity.script w e

def TaskWorld.run (w : TaskWorld) (es : List TaskEvent) : TaskWorld :=
  World.run Activity.script w es

end Wbme.Tasks
