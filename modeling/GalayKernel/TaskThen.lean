import Mathlib.Data.List.Basic
import Mathlib.Logic.Function.Basic

/-!
# Continuations attached by `then`

`Task<void>::then` (`kernel/task.h`), `attachTaskContinuation` and `completeTaskState`
(`kernel/task.cc`), and the binding of tasks to schedulers (`setTaskScheduler`,
`Scheduler::bindTask`).

A `Task` is moved into `then`, into a scheduler or into a `co_await`, so a continuation is attached
only to a task that the program still holds and that has not been started. `then` returns the task
it is called on: `t.then(a).then(b)` attaches both `a` and `b` to `t`. The `m_next` of a waiting
parent, the runtime of a task and its result do not take part.
-/

namespace GalayKernel

variable {σ τ : Type}

/-- The parts of a `TaskState` that a continuation uses. -/
structure ThenState (σ τ : Type) where
  scheduler : Option σ
  /-- the tasks that hang together by `m_then`, each with its `m_scheduler`: first the task in
  `m_then`, then the task in its `m_then`, and so on -/
  thenTasks : List (τ × Option σ)
  deriving DecidableEq, Repr

inductive TaskPlace (σ τ : Type) where
  | held (st : ThenState σ τ)
  /-- in the `m_then` of another task, or released -/
  | moved
  | queued (st : ThenState σ τ)
  | running (st : ThenState σ τ)
  | suspended (st : ThenState σ τ)
  | completed
  deriving DecidableEq, Repr

inductive ThenEvent (τ : Type) where
  /-- `schedule` has accepted the task: it was handed over by the program or by the completion of
  another task -/
  | scheduled (task : τ)
  | completed (task : τ)
  deriving DecidableEq, Repr

structure TaskThen (σ τ : Type) where
  place : τ → TaskPlace σ τ
  /-- the tasks that `then` was called with, in the order of the calls -/
  attached : τ → List τ
  log : List (ThenEvent τ)

inductive ThenAction (σ τ : Type) where
  | attach (task next : τ)
  | schedule (scheduler : σ) (task : τ)
  | resume (task : τ)
  | suspend (task : τ)
  | wake (task : τ)
  | finish (task : τ)
  deriving DecidableEq, Repr

/-- `setTaskScheduler` below a task: it stops at a task that belongs to a scheduler. -/
def bindThenTasks (scheduler : σ) : List (τ × Option σ) → List (τ × Option σ)
  | (t, none) :: rest => (t, some scheduler) :: bindThenTasks scheduler rest
  | tasks => tasks

namespace ThenState

def setTaskScheduler (st : ThenState σ τ) (scheduler : σ) : ThenState σ τ where
  scheduler := some scheduler
  thenTasks := bindThenTasks scheduler st.thenTasks

/-- The part of `attachTaskContinuation` that gives the continuation a scheduler. -/
def inheritScheduler (next st : ThenState σ τ) : ThenState σ τ :=
  match next.scheduler, st.scheduler with
  | none, some scheduler => next.setTaskScheduler scheduler
  | _, _ => next

/-- `attachTaskContinuation`: `m_then` is overwritten, and what it held is released. -/
def attachTaskContinuation (st : ThenState σ τ) (task : τ) (next : ThenState σ τ) :
    ThenState σ τ :=
  { st with thenTasks :=
      (task, (next.inheritScheduler st).scheduler) :: (next.inheritScheduler st).thenTasks }

/-- `bindTask`: `none` when the task belongs to another scheduler. -/
def bindTask [DecidableEq σ] (st : ThenState σ τ) (scheduler : σ) : Option (ThenState σ τ) :=
  match st.scheduler with
  | none => some (st.setTaskScheduler scheduler)
  | some own => if own = scheduler then some st else none

end ThenState

namespace TaskThen

variable [DecidableEq σ] [DecidableEq τ]

/-- Tasks that have just been created. Some of them may already be bound to a scheduler. -/
def init (belongs : τ → Option σ) : TaskThen σ τ where
  place t := .held ⟨belongs t, []⟩
  attached _ := []
  log := []

def setPlace (s : TaskThen σ τ) (t : τ) (p : TaskPlace σ τ) : TaskThen σ τ :=
  { s with place := Function.update s.place t p }

/-- `Scheduler::schedule`; the model has no run in which a scheduler refuses the task. -/
def schedule (s : TaskThen σ τ) (scheduler : σ) (t : τ) (st : ThenState σ τ) :
    Option (TaskThen σ τ) :=
  match st.bindTask scheduler with
  | some st' =>
    some { s.setPlace t (.queued st') with log := s.log ++ [.scheduled t] }
  | none => none

def completeTaskState (s : TaskThen σ τ) (t : τ) (st : ThenState σ τ) : Option (TaskThen σ τ) :=
  let s' := { s.setPlace t .completed with log := s.log ++ [.completed t] }
  match st.thenTasks with
  | [] => some s'
  | (next, some scheduler) :: rest => s'.schedule scheduler next ⟨some scheduler, rest⟩
  -- a continuation without a scheduler is released
  | (_, none) :: _ => some s'

def step (s : TaskThen σ τ) : ThenAction σ τ → Option (TaskThen σ τ)
  | .attach t next =>
    match s.place t, s.place next with
    | .held st, .held nextState =>
      if t = next then none
      else some { (s.setPlace next .moved).setPlace t
            (.held (st.attachTaskContinuation next nextState)) with
          attached := Function.update s.attached t (s.attached t ++ [next]) }
    | _, _ => none
  | .schedule scheduler t =>
    match s.place t with
    | .held st => s.schedule scheduler t st
    | _ => none
  | .resume t =>
    match s.place t with
    | .queued st => some (s.setPlace t (.running st))
    | _ => none
  | .suspend t =>
    match s.place t with
    | .running st => some (s.setPlace t (.suspended st))
    | _ => none
  | .wake t =>
    match s.place t with
    | .suspended st => some (s.setPlace t (.queued st))
    | _ => none
  | .finish t =>
    match s.place t with
    | .running st => s.completeTaskState t st
    | _ => none

end TaskThen

end GalayKernel
