import GalayKernel.TaskWake

/-!
# Timed awaits of a task under any scheduler

`co_await op.timeout(d)` (`kernel/timeout.hpp`) for an arbitrary awaitable, with every access to
the flags of the timer and to `m_queued` a step of its own. The timers of an IO scheduler are run
by the thread that also resumes the task; those of a compute scheduler are run by the thread of
the `TimerScheduler` (`kernel/compute_scheduler.h`).

The awaitable may request the resumption of the task from any thread at any moment, also after
the await. An awaitable of the scheduler's own thread may resume the coroutine handle directly,
as the inline mode of `UnsafeChannel` does. At any moment the task may be put into the ready queue
without `m_queued`: by `co_yield true`, by `schedule`, or by the completion of a task that it
awaits or has awaited. Where the awaitable does not suspend the task the timer is never added, and
nothing is left to model.
-/

namespace GalayKernel

inductive SchedulerKind where
  | io
  | compute
  deriving DecidableEq, Repr

inductive TimedWaker where
  | timer (k : Nat)
  | operation
  /-- nobody: the entry was made without `m_queued` -/
  | direct
  deriving DecidableEq, Repr

inductive TimedPoint where
  | running
  /-- the awaitable has suspended the task, the timer has not been added -/
  | addTimer
  | suspended (timer : Option Nat)
  | checkTimeout (timer : Nat)
  | cancel (timer : Nat)
  deriving DecidableEq, Repr

def TimedPoint.timer : TimedPoint → Option Nat
  | .running => none
  | .addTimer => none
  | .suspended timer => timer
  | .checkTimeout timer => some timer
  | .cancel timer => some timer

def TimedPoint.resumed : TimedPoint → TimedPoint
  | .suspended (some timer) => .checkTimeout timer
  | .suspended none => .running
  | point => point

structure TimedTask where
  kind : SchedulerKind
  wake : TaskWake TimedWaker
  timers : TimerThread
  point : TimedPoint

inductive TimedAction where
  | await (timed : Bool)
  | advance
  /-- something other than a timer wakes the task -/
  | request
  /-- the task is put into the ready queue without `m_queued` -/
  | enqueue
  | schedule (waker : TimedWaker)
  | pop (waker : TimedWaker)
  | resume
  | resumeInline
  | expire (timer : Nat)
  | handle
  deriving DecidableEq, Repr

namespace TimedTask

def init (kind : SchedulerKind) : TimedTask := ⟨kind, .init, .init, .running⟩

/-- The thread of the scheduler is not inside the callback of a timer. -/
def threadFree (s : TimedTask) : Bool := s.kind = .compute || s.timers.handling = none

def isSuspended (s : TimedTask) : Bool :=
  match s.point with
  | .suspended _ => s.wake.resuming = none
  | _ => false

def advance (s : TimedTask) : Option TimedTask :=
  match s.point with
  | .addTimer =>
    some { s with timers := s.timers.addTimer, point := .suspended (some s.timers.added) }
  | .checkTimeout k =>
    some { s with point := if s.timers.timeouted k then .running else .cancel k }
  | .cancel k => some { s with timers := s.timers.cancel k, point := .running }
  | _ => none

def step (s : TimedTask) : TimedAction → Option TimedTask
  | .await timed =>
    if s.threadFree ∧ s.point = .running then
      some { s with point := if timed then .addTimer else .suspended none }
    else none
  | .advance => if s.threadFree then s.advance else none
  | .request => some { s with wake := s.wake.requestTaskResume .operation }
  | .enqueue => some { s with wake := s.wake.enqueue .direct }
  | .schedule waker => (s.wake.schedule waker).map ({ s with wake := · })
  | .pop waker =>
    if s.threadFree ∧ s.isSuspended then (s.wake.pop waker).map ({ s with wake := · }) else none
  | .resume =>
    if s.threadFree then s.wake.resume.map ({ s with wake := ·, point := s.point.resumed })
    else none
  | .resumeInline =>
    -- `m_queued` is not touched
    if s.threadFree ∧ s.isSuspended then some { s with point := s.point.resumed } else none
  | .expire k =>
    if s.kind = .compute ∨ s.isSuspended then (s.timers.expire k).map ({ s with timers := · })
    else none
  | .handle =>
    (s.timers.handle s.wake .timer).map (fun r => { s with timers := r.1, wake := r.2 })

end TimedTask

end GalayKernel
