import Mathlib.Data.List.Nodup
import Mathlib.Logic.Function.Basic
import Mathlib.Logic.Relation

/-! # The pool of spreadsheet workers

Parsing and serialising run on two worker threads. The pool keeps the queue of tasks, which
worker has which task, and which workers it is terminating; everything it does is the answer
to an event. What a task carries passes through untouched, so a task is its number here. The
threads, the settled promises and the messages posted are kept beside the pool.
-/

namespace Wbme.Fin

inductive Rejection where
  | error (message : String)
  | requestTimeout

inductive Settlement (ω : Type) where
  | resolved (result : ω)
  | rejected (reason : Rejection)

/-- A thread can answer until it fails or exits. It answers the messages of its inbox. -/
structure WorkerThread where
  alive : Bool
  exited : Bool
  stopping : Bool
  inbox : List Nat
deriving DecidableEq

namespace WorkerThread

def fresh : WorkerThread := ⟨true, false, false, []⟩

def absent : WorkerThread := ⟨false, true, false, []⟩

def isIdle (t : WorkerThread) : Bool := t.alive && !t.stopping && t.inbox.isEmpty

def isExecuting (t : WorkerThread) : Bool := t.alive && !t.inbox.isEmpty

/-- An event of the thread is still to come. -/
def isOutstanding (t : WorkerThread) : Bool :=
  t.isExecuting || (t.stopping && !t.exited) || (!t.alive && !t.exited)

end WorkerThread

structure Post where
  worker : Nat
  task : Nat
  thread : WorkerThread
deriving DecidableEq

structure XlsxWorkerPool (ω : Type) where
  workers : List Nat
  busy : Nat → Bool
  /-- Not dispatched to until the termination is complete. -/
  terminating : Nat → Bool
  pendingTasks : Nat → Option Nat
  queue : List Nat
  nextId : Nat
  stopped : Bool
  settled : Nat → Bool
  /-- Workers are numbered in the order they are spawned. -/
  spawned : Nat
  threads : Nat → WorkerThread
  /-- Terminations that will call back. -/
  terminations : List Nat
  settlements : List (Nat × Settlement ω)
  posts : List Post

namespace XlsxWorkerPool

variable {ω : Type}

def poolSize : Nat := 2

/-! ## Parts of the handlers -/

def clear (w : Nat) (p : XlsxWorkerPool ω) : XlsxWorkerPool ω :=
  { p with
    pendingTasks := Function.update p.pendingTasks w none
    busy := Function.update p.busy w false }

/-- A promise is settled once. -/
def settle (t : Nat) (outcome : Settlement ω) (p : XlsxWorkerPool ω) : XlsxWorkerPool ω :=
  if p.settled t then p
  else
    { p with
      settled := Function.update p.settled t true
      settlements := p.settlements ++ [(t, outcome)] }

def settleTask (task : Option Nat) (outcome : Settlement ω) (p : XlsxWorkerPool ω) :
    XlsxWorkerPool ω :=
  match task with
  | some t => p.settle t outcome
  | none => p

def spawn (p : XlsxWorkerPool ω) : XlsxWorkerPool ω :=
  { p with
    spawned := p.spawned + 1
    threads := Function.update p.threads p.spawned .fresh
    pendingTasks := Function.update p.pendingTasks p.spawned none }

/-- A new worker takes the place of one that is gone. -/
def replace (w : Nat) (p : XlsxWorkerPool ω) : XlsxWorkerPool ω :=
  { p.spawn with workers := p.workers.replace w p.spawned }

def terminate (w : Nat) (p : XlsxWorkerPool ω) : XlsxWorkerPool ω :=
  { p with threads := Function.update p.threads w { p.threads w with stopping := true } }

/-- A message to a thread that is gone is lost. -/
def postMessage (w t : Nat) (p : XlsxWorkerPool ω) : XlsxWorkerPool ω :=
  { p with
    posts := p.posts ++ [⟨w, t, p.threads w⟩]
    threads := Function.update p.threads w
      (if (p.threads w).alive then { p.threads w with inbox := (p.threads w).inbox ++ [t] }
      else p.threads w) }

/-- The first task of the queue that is not settled, and the queue behind it. -/
def nextTask (settled : Nat → Bool) : List Nat → Option Nat × List Nat
  | [] => (none, [])
  | t :: rest => if settled t then nextTask settled rest else (some t, rest)

def assign (w t : Nat) (rest : List Nat) (p : XlsxWorkerPool ω) : XlsxWorkerPool ω :=
  postMessage w t
    { p with
      queue := rest
      busy := Function.update p.busy w true
      pendingTasks := Function.update p.pendingTasks w (some t) }

def dispatchTo : List Nat → XlsxWorkerPool ω → XlsxWorkerPool ω
  | [], p => p
  | w :: ws, p =>
      if p.busy w || p.terminating w then dispatchTo ws p
      else
        match nextTask p.settled p.queue with
        | (none, rest) => { p with queue := rest }
        | (some t, rest) => dispatchTo ws (p.assign w t rest)

def dispatch (p : XlsxWorkerPool ω) : XlsxWorkerPool ω :=
  if p.stopped then p else dispatchTo p.workers p

/-! ## The handlers -/

def onMessage (w : Nat) (answer : Except String ω) (p : XlsxWorkerPool ω) : XlsxWorkerPool ω :=
  let outcome : Settlement ω := match answer with
    | .ok result => .resolved result
    | .error message => .rejected (.error message)
  dispatch (settleTask (p.pendingTasks w) outcome (p.clear w))

/-- The task of a worker that fails cannot be recovered; the worker is replaced. -/
def onError (w : Nat) (message : String) (p : XlsxWorkerPool ω) : XlsxWorkerPool ω :=
  let q := settleTask (p.pendingTasks w) (.rejected (.error message)) (p.clear w)
  if !q.stopped && q.workers.contains w then dispatch (q.replace w) else q

def onExit (w : Nat) (p : XlsxWorkerPool ω) : XlsxWorkerPool ω :=
  { p with busy := Function.update p.busy w false }

def onTerminated (w : Nat) (p : XlsxWorkerPool ω) : XlsxWorkerPool ω :=
  let q := { p with terminating := Function.update p.terminating w false }
  if q.stopped then q
  else dispatch (if q.workers.contains w then q.replace w else q)

/-- A queued task is dropped; the worker of one that executes is terminated. -/
def onAbort (t : Nat) (p : XlsxWorkerPool ω) : XlsxWorkerPool ω :=
  if p.queue.contains t then
    settle t (.rejected .requestTimeout) { p with queue := p.queue.erase t }
  else
    match (List.range p.spawned).find? fun w => p.pendingTasks w == some t with
    | none => p
    | some w =>
        let q := { p.clear w with terminating := Function.update p.terminating w true }
        let q := terminate w (q.settle t (.rejected .requestTimeout))
        { q with terminations := q.terminations ++ [w] }

/-- The number of the submitted task. -/
def run (aborted : Bool) (p : XlsxWorkerPool ω) : Except Rejection Nat × XlsxWorkerPool ω :=
  if p.stopped then (.error (.error "Excel 工作池已关闭"), p)
  else if aborted then (.error .requestTimeout, p)
  else (.ok p.nextId, dispatch { p with nextId := p.nextId + 1, queue := p.queue ++ [p.nextId] })

def onModuleDestroy (p : XlsxWorkerPool ω) : XlsxWorkerPool ω :=
  let q := p.queue.foldl (fun q t => q.settle t (.rejected (.error "Excel 工作池已关闭")))
    { p with stopped := true, queue := [] }
  q.workers.foldl (fun q w => q.terminate w) q

/-! ## Events -/

inductive PoolEvent (ω : Type) where
  | run (aborted : Bool)
  | abort (t : Nat)
  | message (w : Nat) (answer : Except String ω)
  | error (w : Nat) (message : String)
  | exit (w : Nat)
  | terminated (w : Nat)
  | moduleDestroy

/-- A thread answers the first message of its inbox. -/
def answered (w : Nat) (p : XlsxWorkerPool ω) : XlsxWorkerPool ω :=
  { p with
    threads := Function.update p.threads w
      { p.threads w with inbox := (p.threads w).inbox.tail } }

def failed (w : Nat) (p : XlsxWorkerPool ω) : XlsxWorkerPool ω :=
  { p with threads := Function.update p.threads w { p.threads w with alive := false, inbox := [] } }

def gone (w : Nat) (p : XlsxWorkerPool ω) : XlsxWorkerPool ω :=
  { p with
    threads := Function.update p.threads w
      { p.threads w with alive := false, exited := true, inbox := [] } }

/-- Threads answer while they are alive and exit once; the callback of a termination follows
the exit. -/
def step (p : XlsxWorkerPool ω) : PoolEvent ω → XlsxWorkerPool ω
  | .run aborted => (p.run aborted).2
  | .abort t => p.onAbort t
  | .message w answer =>
      if (p.threads w).isExecuting then (p.answered w).onMessage w answer else p
  | .error w message => if (p.threads w).alive then (p.failed w).onError w message else p
  | .exit w => if (p.threads w).exited then p else (p.gone w).onExit w
  | .terminated w =>
      if p.terminations.contains w && (p.threads w).exited then
        { p with terminations := p.terminations.erase w }.onTerminated w
      else p
  | .moduleDestroy => p.onModuleDestroy

def empty : XlsxWorkerPool ω where
  workers := []
  busy _ := false
  terminating _ := false
  pendingTasks _ := none
  queue := []
  nextId := 0
  stopped := false
  settled _ := false
  spawned := 0
  threads _ := .absent
  terminations := []
  settlements := []
  posts := []

def init : XlsxWorkerPool ω :=
  (List.range poolSize).foldl (fun p _ => { p.spawn with workers := p.workers ++ [p.spawned] })
    empty

def runEvents (p : XlsxWorkerPool ω) (es : List (PoolEvent ω)) : XlsxWorkerPool ω :=
  es.foldl step p

/-! ## What the pool is for -/

/-- No event of a worker is outstanding. -/
def AtRest (p : XlsxWorkerPool ω) : Prop :=
  p.terminations = [] ∧ ∀ w < p.spawned, (p.threads w).isOutstanding = false

instance (p : XlsxWorkerPool ω) : Decidable p.AtRest :=
  inferInstanceAs (Decidable (_ ∧ ∀ w < p.spawned, (p.threads w).isOutstanding = false))

def executing (p : XlsxWorkerPool ω) : List Nat :=
  (List.range p.spawned).filter fun w => (p.threads w).isExecuting

structure Serves (p : XlsxWorkerPool ω) : Prop where
  once : (p.settlements.map Prod.fst).Nodup
  all : p.AtRest → ∀ t < p.nextId, t ∈ p.settlements.map Prod.fst
  idle : ∀ post ∈ p.posts, post.thread.isIdle = true
  bounded : p.executing.length ≤ poolSize

/-- A worker exits with no task pending, and only when it was terminated or replaced or the pool
is stopped. -/
def CleanExit (p : XlsxWorkerPool ω) : PoolEvent ω → Prop
  | .exit w => (p.threads w).exited = false →
      p.pendingTasks w = none ∧ (p.stopped = true ∨ p.terminating w = true ∨ w ∉ p.workers)
  | _ => True

end XlsxWorkerPool

end Wbme.Fin
