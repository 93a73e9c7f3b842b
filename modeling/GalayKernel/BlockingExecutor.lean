import Mathlib.Data.List.Basic

/-!
# The pool of threads for blocking tasks

`BlockingExecutor` (`kernel/blocking_executor.cc`). A section under `m_mutex` is one step, and so
are the call of `notify_one`, the creation of a thread and the call of a task, which happen outside
of it. A worker that is notified, that wakes up without a notification or whose `wait_for` runs out
is no longer blocked, but it has to take the mutex again before it goes on, and that may take
arbitrarily long. Whether a timed wait reports a timeout is only settled then.

Thread creation succeeds and tasks return. Time is not modelled: a wait with a timeout may run out
in every state.
-/

namespace GalayKernel

variable {τ : Type}

inductive BlockingExecutorErrorCode where
  | kStopping
  deriving DecidableEq, Repr

/-- Where a worker thread stands in `workerLoop`. -/
inductive Worker (τ : Type) where
  /-- counted by `submit`, which has not created the thread yet -/
  | spawning (task : τ)
  | running (task : τ)
  | locking
  | blocked (canTimeOut : Bool)
  | woken (canTimeOut : Bool)
  | retired
  deriving DecidableEq, Repr

namespace Worker

def isAlive : Worker τ → Bool
  | retired => false
  | _ => true

def isBlocked : Worker τ → Bool
  | blocked _ => true
  | _ => false

/-- The worker is inside one of the two waits, between `++m_idleWorkers` and `--m_idleWorkers`. -/
def isIdle : Worker τ → Bool
  | blocked _ | woken _ => true
  | _ => false

/-- The task that the worker has and has not called yet. -/
def inHand : Worker τ → List τ
  | spawning task | running task => [task]
  | _ => []

def wakeUp : Worker τ → Worker τ
  | blocked canTimeOut => woken canTimeOut
  | w => w

end Worker

inductive Shutdown where
  | notCalled
  | waiting
  | notified
  | returned
  deriving DecidableEq, Repr

structure BlockingExecutor (τ : Type) where
  minWorkers : Nat
  maxWorkers : Nat
  tasks : List τ
  workerCount : Nat
  idleWorkers : Nat
  stopping : Bool
  workers : List (Worker τ)
  /-- calls of `submit` that are about to call `notify_one` -/
  notifications : Nat
  shutdown : Shutdown
  /-- the non-empty tasks for which `submit` has returned or will return success -/
  accepted : List τ
  executed : List τ
  deriving DecidableEq, Repr

inductive ExecutorAction (τ : Type) where
  /-- `submit`, to the end of its section; an empty function is `none` -/
  | submit (task : Option τ)
  | notify (worker : Option Nat)
  | spawn (worker : Nat)
  | execute (worker : Nat)
  | lock (worker : Nat)
  /-- a wait runs out, or the worker wakes up without a notification -/
  | wake (worker : Nat)
  /-- the worker has the mutex again; `wait_until` has returned `timeout` or not -/
  | reacquire (worker : Nat) (timedOut : Bool)
  | destroy
  | wakeDestructor
  | checkShutdown
  deriving DecidableEq, Repr

namespace BlockingExecutor

def create (minWorkers maxWorkers : Nat) : BlockingExecutor τ :=
  let maxWorkers := if 0 < maxWorkers then maxWorkers else 1
  { minWorkers := if maxWorkers < minWorkers then maxWorkers else minWorkers
    maxWorkers := maxWorkers
    tasks := []
    workerCount := 0
    idleWorkers := 0
    stopping := false
    workers := []
    notifications := 0
    shutdown := .notCalled
    accepted := []
    executed := [] }

def setWorker (s : BlockingExecutor τ) (i : Nat) (w : Worker τ) : BlockingExecutor τ :=
  { s with workers := s.workers.set i w }

def submit (s : BlockingExecutor τ) :
    Option τ → Except BlockingExecutorErrorCode Unit × BlockingExecutor τ
  | none => (.ok (), s)
  | some task =>
    if s.stopping then (.error .kStopping, s)
    else if 0 < s.idleWorkers then
      (.ok (), { s with
        tasks := s.tasks ++ [task]
        notifications := s.notifications + 1
        accepted := s.accepted ++ [task] })
    else if s.workerCount < s.maxWorkers then
      (.ok (), { s with
        workerCount := s.workerCount + 1
        workers := s.workers ++ [.spawning task]
        accepted := s.accepted ++ [task] })
    else
      (.ok (), { s with
        tasks := s.tasks ++ [task]
        accepted := s.accepted ++ [task] })

def retireWorkerLocked (s : BlockingExecutor τ) (i : Nat) : BlockingExecutor τ :=
  { s with
    workerCount := s.workerCount - 1
    workers := s.workers.set i .retired
    shutdown := if s.stopping && s.workerCount - 1 == 0 && s.shutdown = .waiting then .notified
      else s.shutdown }

/-- `workerLoop` from the condition of its inner loop to the next task or the next wait. After the
inner loop `m_tasks` is empty only while stopping, so the `continue` behind it is never reached. -/
def loopHead (s : BlockingExecutor τ) (i : Nat) : BlockingExecutor τ :=
  match s.tasks with
  | [] =>
    if s.stopping then s.retireWorkerLocked i
    else { s with
      idleWorkers := s.idleWorkers + 1
      workers := s.workers.set i (.blocked (s.minWorkers < s.workerCount)) }
  | task :: rest => { s with tasks := rest, workers := s.workers.set i (.running task) }

def reacquire (s : BlockingExecutor τ) (i : Nat) (canTimeOut timedOut : Bool) :
    BlockingExecutor τ :=
  let ready := s.stopping || !s.tasks.isEmpty
  if !ready && !timedOut then s.setWorker i (.blocked canTimeOut)
  else
    let s := { s with idleWorkers := s.idleWorkers - 1 }
    if !ready && s.tasks.isEmpty && s.minWorkers < s.workerCount then s.retireWorkerLocked i
    else s.loopHead i

def destroy (s : BlockingExecutor τ) : BlockingExecutor τ :=
  { s with
    stopping := true
    workers := s.workers.map Worker.wakeUp
    shutdown := if s.workerCount = 0 then .returned else .waiting }

def step (s : BlockingExecutor τ) : ExecutorAction τ → Option (BlockingExecutor τ)
  | .submit task => if s.shutdown = .returned then none else some (s.submit task).2
  | .notify worker =>
    if s.notifications = 0 then none
    else
      let s' := { s with notifications := s.notifications - 1 }
      match worker with
      | some i =>
        match s.workers[i]? with
        | some (.blocked canTimeOut) => some (s'.setWorker i (.woken canTimeOut))
        | _ => none
      | none => if s.workers.any Worker.isBlocked then none else some s'
  | .spawn i =>
    match s.workers[i]? with
    | some (.spawning task) => some (s.setWorker i (.running task))
    | _ => none
  | .execute i =>
    match s.workers[i]? with
    | some (.running task) =>
      some { s.setWorker i .locking with executed := s.executed ++ [task] }
    | _ => none
  | .lock i =>
    match s.workers[i]? with
    | some .locking => some (s.loopHead i)
    | _ => none
  | .wake i =>
    match s.workers[i]? with
    | some (.blocked canTimeOut) => some (s.setWorker i (.woken canTimeOut))
    | _ => none
  | .reacquire i timedOut =>
    match s.workers[i]? with
    | some (.woken canTimeOut) =>
      -- `wait` without a timeout never reports one
      if timedOut && !canTimeOut then none else some (s.reacquire i canTimeOut timedOut)
    | _ => none
  | .destroy => if s.shutdown = .notCalled then some s.destroy else none
  | .wakeDestructor =>
    if s.shutdown = .waiting then some { s with shutdown := .notified } else none
  | .checkShutdown =>
    if s.shutdown = .notified then
      some { s with shutdown := if s.workerCount = 0 then .returned else .waiting }
    else none

end BlockingExecutor

end GalayKernel
