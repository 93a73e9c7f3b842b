import Mathlib.Logic.Function.Basic

/-!
# Waiting for a task from other threads

`waitTaskCompletion`, `ensureTaskWaiter`, `notifyTaskWaiters` and the beginning of
`completeTaskState` (`kernel/task.cc`), for one task, any number of threads that wait for it and the
thread that completes it. Every atomic operation and every operation on a mutex or a condition
variable is one step. Waiting on a condition variable releases the mutex and blocks in one step; a
thread that is notified, or wakes up without a notification, has to take the mutex again.

The objects `TaskWaiter` have numbers in the order of their allocation.
-/

namespace GalayKernel

/-- Where a thread stands in `waitTaskCompletion`; `waiter` is the `TaskWaiter` that it uses. -/
inductive JoinPoint where
  | idle
  | loadDone
  | loadWaiter
  /-- `ensureTaskWaiter` has allocated a candidate -/
  | exchangeWaiter (candidate : Nat)
  | lock (waiter : Nat)
  | checkDone (waiter : Nat)
  | checkPredicate (waiter : Nat)
  /-- the predicate was false, the mutex is still held -/
  | wait (waiter : Nat)
  | blocked (waiter : Nat)
  /-- awake, and about to take the mutex again -/
  | reacquire (waiter : Nat)
  | unlock (waiter : Nat)
  | unlockReturn (waiter : Nat)
  | returned (result : Bool)
  deriving DecidableEq, Repr

/-- Where the completing thread stands in `completeTaskState`. -/
inductive CompletionPoint where
  | running
  | storeDone
  | loadWaiter
  | lock (waiter : Nat)
  | notifyAll (waiter : Nat)
  | unlock (waiter : Nat)
  | notified
  deriving DecidableEq, Repr

inductive JoinThread where
  | waiting (i : Nat)
  | completing
  deriving DecidableEq, Repr

structure TaskJoin where
  done : Bool
  waiter : Option Nat
  /-- the next number for a `TaskWaiter` -/
  allocated : Nat
  owner : Nat → Option JoinThread
  waiting : Nat → JoinPoint
  completing : CompletionPoint

inductive JoinAction where
  /-- thread `i` calls `waitTaskCompletion`; the task may have no state -/
  | call (i : Nat) (hasState : Bool)
  | proceed (i : Nat)
  | spuriousWake (i : Nat)
  | complete
  deriving DecidableEq, Repr

namespace TaskJoin

def init : TaskJoin where
  done := false
  waiter := none
  allocated := 0
  owner := fun _ => none
  waiting := fun _ => .idle
  completing := .running

def goto (s : TaskJoin) (i : Nat) (point : JoinPoint) : TaskJoin :=
  { s with waiting := Function.update s.waiting i point }

def setOwner (s : TaskJoin) (waiter : Nat) (thread : Option JoinThread) : TaskJoin :=
  { s with owner := Function.update s.owner waiter thread }

/-- The next step of thread `i`; `none` while it is blocked. -/
def proceed (s : TaskJoin) (i : Nat) : Option TaskJoin :=
  match s.waiting i with
  | .idle | .returned _ => none
  | .loadDone => some (s.goto i (if s.done then .returned true else .loadWaiter))
  | .loadWaiter =>
    match s.waiter with
    | some waiter => some (s.goto i (.lock waiter))
    | none => some { s.goto i (.exchangeWaiter s.allocated) with allocated := s.allocated + 1 }
  | .exchangeWaiter candidate =>
    match s.waiter with
    | none => some { s.goto i (.lock candidate) with waiter := some candidate }
    -- the candidate is deleted
    | some waiter => some (s.goto i (.lock waiter))
  | .lock waiter =>
    if s.owner waiter = none then
      some ((s.setOwner waiter (some (.waiting i))).goto i (.checkDone waiter))
    else none
  | .checkDone waiter =>
    some (s.goto i (if s.done then .unlockReturn waiter else .checkPredicate waiter))
  | .checkPredicate waiter => some (s.goto i (if s.done then .unlock waiter else .wait waiter))
  | .wait waiter => some ((s.setOwner waiter none).goto i (.blocked waiter))
  | .blocked _ => none
  | .reacquire waiter =>
    if s.owner waiter = none then
      some ((s.setOwner waiter (some (.waiting i))).goto i (.checkPredicate waiter))
    else none
  | .unlock waiter => some ((s.setOwner waiter none).goto i .loadDone)
  | .unlockReturn waiter => some ((s.setOwner waiter none).goto i (.returned true))

def notify (waiter : Nat) : JoinPoint → JoinPoint
  | .blocked w => if w = waiter then .reacquire w else .blocked w
  | point => point

def complete (s : TaskJoin) : Option TaskJoin :=
  match s.completing with
  | .running => some { s with completing := .storeDone }
  | .storeDone => some { s with done := true, completing := .loadWaiter }
  | .loadWaiter =>
    match s.waiter with
    | none => some { s with completing := .notified }
    | some waiter => some { s with completing := .lock waiter }
  | .lock waiter =>
    if s.owner waiter = none then
      some { s.setOwner waiter (some .completing) with completing := .notifyAll waiter }
    else none
  | .notifyAll waiter =>
    some { s with
      waiting := fun i => notify waiter (s.waiting i)
      completing := .unlock waiter }
  | .unlock waiter => some { s.setOwner waiter none with completing := .notified }
  | .notified => none

def step (s : TaskJoin) : JoinAction → Option TaskJoin
  | .call i hasState =>
    match s.waiting i with
    | .idle | .returned _ => some (s.goto i (if hasState then .loadDone else .returned false))
    | _ => none
  | .proceed i => s.proceed i
  | .spuriousWake i =>
    match s.waiting i with
    | .blocked waiter => some (s.goto i (.reacquire waiter))
    | _ => none
  | .complete => s.complete

end TaskJoin

end GalayKernel
