import Mathlib.Data.List.Basic
import Mathlib.Logic.Function.Basic

/-!
# `co_await` of a child task

`TaskAwaiter` (`kernel/task.h`) in the parent against `completeTaskState` (`kernel/task.cc`) in
the child. The child is started inside the parent's `await_suspend`, on the parent's thread. Once
it has suspended, any scheduler thread may resume it, so each read and each write of the child's
state is a step of its own.

A `Task` that can be awaited has not been started, because starting it moves it away. The result
of the child and the threads that block in `join` are left out: neither the parent's way into the
suspension nor the hand-over of the continuations looks at them.
-/

namespace GalayKernel

variable {τ : Type}

/-- The two continuations that `completeTaskState` hands over. -/
inductive ContinuationSlot where
  | thenTask
  | next
  deriving DecidableEq, Repr

inductive CompletePoint (τ : Type) where
  | storeDone
  | notifyTaskWaiters
  | check (slot : ContinuationSlot)
  | move (slot : ContinuationSlot)
  | reset (slot : ContinuationSlot) (task : τ)
  | schedule (slot : ContinuationSlot) (task : τ)
  deriving DecidableEq, Repr

inductive ChildPoint (τ : Type) where
  /-- suspended at `initial_suspend` -/
  | unstarted
  | running
  | suspended
  | completing (p : CompletePoint τ)
  | completed
  deriving DecidableEq, Repr

inductive AwaitPoint where
  | awaitReady
  /-- the checks at the beginning of `await_suspend` -/
  | checkDone
  | inheritScheduler
  | bindChild
  | scheduleImmediately
  | inChild
  /-- inside `completeTaskState` for a child that cannot be scheduled -/
  | failing
  | recheckDone
  | storeNext
  | suspended
  | resumed
  deriving DecidableEq, Repr

structure TaskAwait (τ : Type) where
  waitingTask : τ
  childTask : τ
  valid : Bool
  parent : AwaitPoint
  child : ChildPoint τ
  /-- the child's code is run by the parent's thread, inside the parent's `await_suspend` -/
  onParent : Bool
  done : Bool
  slot : ContinuationSlot → Option τ
  /-- the tasks whose `belongScheduler()` is not null -/
  belongs : τ → Bool
  /-- the tasks put into a ready queue since the `co_await` began -/
  scheduled : List τ

inductive TaskAwaitAction where
  | parent
  | suspend
  | resume
  | finish
  | complete
  | resumeParent
  deriving DecidableEq, Repr

namespace TaskAwait

/-- The parent comes to the `co_await`; only `await_suspend` writes `m_next`. -/
def init (waitingTask childTask : τ) (valid : Bool) (thenTask : Option τ) (belongs : τ → Bool) :
    TaskAwait τ where
  waitingTask := waitingTask
  childTask := childTask
  valid := valid
  parent := .awaitReady
  child := .unstarted
  onParent := false
  done := false
  slot
    | .thenTask => thenTask
    | .next => none
  belongs := belongs
  scheduled := []

/-- `setTaskScheduler`: the child is bound to the parent's scheduler, with its `then` task. -/
def setTaskScheduler [DecidableEq τ] (s : TaskAwait τ) : TaskAwait τ :=
  { s with belongs := fun t =>
      s.belongs t || t = s.childTask || some t = s.slot .thenTask }

/-- `storeTaskError` and `completeTaskState` on the parent's thread. -/
def fail (s : TaskAwait τ) : TaskAwait τ :=
  { s with parent := .failing, child := .completing .storeDone, onParent := true }

def await [DecidableEq τ] (s : TaskAwait τ) : Option (TaskAwait τ) :=
  match s.parent with
  | .awaitReady =>
    some { s with parent := if !s.valid || s.done then .resumed else .checkDone }
  | .checkDone =>
    some { s with parent := if !s.valid || s.done then .resumed else .inheritScheduler }
  | .inheritScheduler =>
    if s.belongs s.waitingTask then some { s with parent := .bindChild } else some s.fail
  | .bindChild =>
    if s.belongs s.childTask then some { s with parent := .scheduleImmediately }
    else some { s.setTaskScheduler with parent := .scheduleImmediately }
  | .scheduleImmediately =>
    -- the scheduler accepts a task that is bound to it
    if s.belongs s.childTask then
      if s.done then some { s with parent := .recheckDone }
      else some { s with parent := .inChild, child := .running, onParent := true }
    else some s.fail
  | .inChild => if s.onParent then none else some { s with parent := .recheckDone }
  | .failing => if s.onParent then none else some { s with parent := .resumed }
  | .recheckDone => some { s with parent := if s.done then .resumed else .storeNext }
  | .storeNext =>
    some { s with
      slot := Function.update s.slot .next (some s.waitingTask)
      parent := .suspended }
  | .suspended => none
  | .resumed => none

/-- The child goes on after a slot that is empty or has been handed over. -/
def goOn (s : TaskAwait τ) : ContinuationSlot → TaskAwait τ
  | .thenTask => { s with child := .completing (.check .next) }
  | .next => { s with child := .completed, onParent := false }

def completeTaskState (s : TaskAwait τ) : CompletePoint τ → TaskAwait τ
  | .storeDone => { s with done := true, child := .completing .notifyTaskWaiters }
  | .notifyTaskWaiters => { s with child := .completing (.check .thenTask) }
  | .check c =>
    if (s.slot c).isSome then { s with child := .completing (.move c) } else s.goOn c
  | .move c =>
    match s.slot c with
    | some t => { s with child := .completing (.reset c t) }
    -- nobody else empties a slot
    | none => s.goOn c
  | .reset c t =>
    { s with slot := Function.update s.slot c none, child := .completing (.schedule c t) }
  | .schedule c t =>
    ({ s with scheduled := if s.belongs t then s.scheduled ++ [t] else s.scheduled } :
      TaskAwait τ).goOn c

def step [DecidableEq τ] (s : TaskAwait τ) : TaskAwaitAction → Option (TaskAwait τ)
  | .parent => s.await
  | .suspend =>
    if s.child = .running then some { s with child := .suspended, onParent := false } else none
  | .resume => if s.child = .suspended then some { s with child := .running } else none
  | .finish =>
    if s.child = .running then some { s with child := .completing .storeDone } else none
  | .complete =>
    match s.child with
    | .completing p => some (s.completeTaskState p)
    | _ => none
  | .resumeParent =>
    if s.parent = .suspended ∧ s.waitingTask ∈ s.scheduled then
      some { s with parent := .resumed }
    else none

end TaskAwait

end GalayKernel
