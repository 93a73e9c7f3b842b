import Mathlib.Data.Finset.Insert
import Mathlib.Data.Fintype.Defs
import Mathlib.Logic.Function.Basic

/-!
# The compute scheduler

`ComputeScheduler` (`kernel/compute_scheduler.cc`): threads `ρ` that schedule tasks, the thread of
the scheduler, and `start` and `stop`, which are called one after the other, from any threads.

The queue keeps the elements of each thread in their order and may be read from the queue of any
thread. `try_dequeue` fails only if it has found the queue of each thread empty since it was called.
`wait_dequeue_timed` may time out whenever it likes, after which the loop is where it was.
-/

namespace GalayKernel

inductive ComputeTask (τ : Type) where
  | task (t : τ)
  | stopSignal
  deriving DecidableEq, Repr

/-- Where the thread of the scheduler stands in `workerLoop` -/
inductive ComputeWorker (ρ τ : Type) where
  | absent
  | waiting
  /-- the loop has a task of thread `p` -/
  | holding (p : ρ) (t : τ)
  /-- `try_dequeue`, which has found these queues empty -/
  | draining (seen : Finset ρ)
  /-- the second loop has a task of thread `p` -/
  | drainHolding (p : ρ) (t : τ)
  | exited

/-- Where `start` or `stop` stands -/
inductive ComputeControl (ρ : Type) where
  | idle
  | starting
  /-- `stop`, on thread `p`, is about to enqueue the signal -/
  | signalling (p : ρ)
  | joining (p : ρ)
  deriving DecidableEq, Repr

structure ComputeScheduler (ρ τ : Type) where
  running : Bool
  joinable : Bool
  queue : ρ → List (ComputeTask τ)
  worker : ComputeWorker ρ τ
  control : ComputeControl ρ
  /-- `std::terminate` has been called, by the assignment to a thread that is joinable -/
  terminated : Bool
  /-- the tasks that `schedule` has accepted from each thread (history) -/
  accepted : ρ → List τ
  /-- the tasks of each thread that have been resumed (history) -/
  resumed : ρ → List τ
  /-- how many had been accepted when `stop` was last called (history) -/
  promised : ρ → Nat

inductive ComputeAction (ρ τ : Type) where
  /-- thread `p` schedules a task that `bindTask` binds -/
  | schedule (p : ρ) (t : τ)
  | start
  | createThread
  | stop (p : ρ)
  | signal
  | join
  /-- the worker takes the first element of thread `p` -/
  | dequeue (p : ρ)
  | resume
  /-- `try_dequeue` finds the queue of one more thread empty -/
  | lookEmpty (p : ρ)
  | exit
  deriving DecidableEq, Repr

namespace ComputeScheduler

variable {ρ τ : Type}

def init : ComputeScheduler ρ τ where
  running := false
  joinable := false
  queue := fun _ => []
  worker := .absent
  control := .idle
  terminated := false
  accepted := fun _ => []
  resumed := fun _ => []
  promised := fun _ => 0

variable [DecidableEq ρ]

def enqueue (s : ComputeScheduler ρ τ) (p : ρ) (x : ComputeTask τ) : ComputeScheduler ρ τ :=
  { s with queue := Function.update s.queue p (s.queue p ++ [x]) }

def schedule (s : ComputeScheduler ρ τ) (p : ρ) (t : τ) : ComputeScheduler ρ τ :=
  { s.enqueue p (.task t) with accepted := Function.update s.accepted p (s.accepted p ++ [t]) }

def taken (p : ρ) (worker : ComputeWorker ρ τ) : ComputeTask τ → Option (ComputeWorker ρ τ)
  | .task t =>
    match worker with
    | .waiting => some (.holding p t)
    | .draining _ => some (.drainHolding p t)
    | _ => none
  | .stopSignal =>
    match worker with
    | .waiting => some (.draining ∅)
    -- `continue`
    | .draining _ => some (.draining ∅)
    | _ => none

def dequeue (s : ComputeScheduler ρ τ) (p : ρ) : Option (ComputeScheduler ρ τ) :=
  match s.queue p with
  | [] => none
  | x :: rest => (taken p s.worker x).map fun worker =>
    { s with queue := Function.update s.queue p rest, worker := worker }

def resume (s : ComputeScheduler ρ τ) : Option (ComputeScheduler ρ τ) :=
  match s.worker with
  | .holding p t => some { s with
      worker := .waiting
      resumed := Function.update s.resumed p (s.resumed p ++ [t]) }
  | .drainHolding p t => some { s with
      worker := .draining ∅
      resumed := Function.update s.resumed p (s.resumed p ++ [t]) }
  | _ => none

def start (s : ComputeScheduler ρ τ) : ComputeScheduler ρ τ :=
  if s.running then s else { s with running := true, control := .starting }

def stop (s : ComputeScheduler ρ τ) (p : ρ) : ComputeScheduler ρ τ :=
  if s.running then
    { s with
      running := false
      control := .signalling p
      promised := fun q => (s.accepted q).length }
  else s

def step [Fintype ρ] (s : ComputeScheduler ρ τ) :
    ComputeAction ρ τ → Option (ComputeScheduler ρ τ)
  | .schedule p t => some (s.schedule p t)
  | .start => if s.control = .idle then some s.start else none
  | .createThread =>
    if s.control = .starting then
      some { s with
        worker := .waiting
        joinable := true
        terminated := s.terminated || s.joinable
        control := .idle }
    else none
  | .stop p => if s.control = .idle then some (s.stop p) else none
  | .signal =>
    match s.control with
    | .signalling p => some { s.enqueue p .stopSignal with control := .joining p }
    | _ => none
  | .join =>
    match s.control, s.worker with
    | .joining _, .exited => some { s with worker := .absent, joinable := false, control := .idle }
    | _, _ => none
  | .dequeue p => s.dequeue p
  | .resume => s.resume
  | .lookEmpty p =>
    match s.worker with
    | .draining seen =>
      if s.queue p = [] ∧ p ∉ seen then some { s with worker := .draining (insert p seen) }
      else none
    | _ => none
  | .exit =>
    match s.worker with
    | .draining seen => if ∀ p, p ∈ seen then some { s with worker := .exited } else none
    | _ => none

end ComputeScheduler

end GalayKernel
