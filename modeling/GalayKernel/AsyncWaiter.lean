import GalayKernel.TaskWake

/-!
# Asynchronous waiters

`AsyncWaiter<T>`, `AsyncWaiter<void>` and their awaitables (`concurrency/async_waiter.h`), for one
task that calls `wait()` or `wait().timeout(d)` and any number of threads that call `notify`. Each
operation on `m_ready` and `m_waiting`, the store of the result, the read of it, and each operation
on the timer and on the wake-up of the task is a step of its own.

A waiter is waited for once; afterwards the task may be suspended in awaits that have nothing to do
with the waiter. At any moment what it awaits or has awaited elsewhere may wake it, and it may be put
into the ready queue without `m_queued`: by `co_yield true`, by `schedule`, or by the completion of a
task that it has awaited.
-/

namespace GalayKernel

variable {ι α : Type}

inductive WaiterKind where
  | value
  | void
  deriving DecidableEq, Repr

structure AsyncWaiter (α : Type) where
  ready : Bool
  waiting : Bool
  result : Option α
  deriving DecidableEq, Repr

inductive NotifyPoint (α : Type) where
  | idle
  | setReady (value : α)
  | store (value : α)
  | clearWaiting (value : α)
  | wakeUp (value : α)
  deriving DecidableEq, Repr

inductive WaitPoint where
  | start
  | ready
  | setWaiting
  /-- `await_suspend`, at its load of `m_ready` -/
  | recheck
  | clearWaiting
  | addTimer
  | suspended (timer : Option Nat)
  /-- `WithTimeout::await_resume`, at `m_timer->timeouted()` -/
  | checkTimeout (timer : Nat)
  /-- `WithTimeout::await_resume`, at `m_timer->cancel()` -/
  | cancel (timer : Nat)
  | result
  | returned
  /-- suspended in a later await on something else -/
  | elsewhere
  deriving DecidableEq, Repr

inductive WaitResult (α : Type) where
  | value (value : α)
  | success
  | timeout
  deriving DecidableEq, Repr

/-- Who requested the resumption of the task. -/
inductive NotifyWaker (ι : Type) where
  | notify (thread : ι)
  | timer (k : Nat)
  | elsewhere
  /-- nobody: the entry was made without `m_queued` -/
  | direct
  deriving DecidableEq, Repr

/-- The waiter, the threads that notify it and the task that waits. The last two fields are
records: the calls of `notify` that have come to their result, and what the wait returned. -/
structure AsyncWait (ι α : Type) where
  kind : WaiterKind
  /-- the wait is wrapped in `.timeout(...)` -/
  timed : Bool
  waiter : AsyncWaiter α
  notifiers : ι → NotifyPoint α
  point : WaitPoint
  /-- `m_result` of the awaitable is the error `kTimeout` -/
  failed : Bool
  wake : TaskWake (NotifyWaker ι)
  timers : TimerThread
  calls : List (α × Bool)
  outcome : Option (WaitResult α)

inductive AsyncWaitAction (ι α : Type) where
  | notify (thread : ι) (value : α)
  | notifyStep (thread : ι)
  | wait
  | advance
  | awaitElsewhere
  | wakeElsewhere
  /-- the task is put into the ready queue without `m_queued` -/
  | enqueue
  | schedule (waker : NotifyWaker ι)
  | pop (waker : NotifyWaker ι)
  | resume
  | expire (timer : Nat)
  | handle
  deriving DecidableEq, Repr

namespace AsyncWait

def init (kind : WaiterKind) (timed : Bool) : AsyncWait ι α where
  kind := kind
  timed := timed
  waiter := ⟨false, false, none⟩
  notifiers := fun _ => .idle
  point := .start
  failed := false
  wake := .init
  timers := .init
  calls := []
  outcome := none

/-- `await_resume` of the awaitable. That of `AsyncWaiter<T>` does not look at its own
`m_result`. -/
def awaitResume (s : AsyncWait ι α) : WaitResult α :=
  match s.kind with
  | .value =>
    match s.waiter.result with
    | some v => .value v
    | none => .timeout
  | .void => if s.failed then .timeout else .success

def advance (s : AsyncWait ι α) : Option (AsyncWait ι α) :=
  match s.point with
  | .ready => some { s with point := if s.waiter.ready then .result else .setWaiting }
  | .setWaiting =>
    some (if s.waiter.waiting then { s with point := .result }
      else { s with waiter := { s.waiter with waiting := true }, point := .recheck })
  | .recheck =>
    some { s with
      point := if s.waiter.ready then .clearWaiting
        else if s.timed then .addTimer else .suspended none }
  | .clearWaiting =>
    some { s with waiter := { s.waiter with waiting := false }, point := .result }
  | .addTimer =>
    some { s with timers := s.timers.addTimer, point := .suspended (some s.timers.added) }
  | .checkTimeout k =>
    some (if s.timers.timeouted k then { s with failed := true, point := .result }
      else { s with point := .cancel k })
  | .cancel k => some { s with timers := s.timers.cancel k, point := .result }
  | .result => some { s with outcome := some s.awaitResume, point := .returned }
  | _ => none

/-- The scheduler may take the task from its ready queue. -/
def isSuspended (s : AsyncWait ι α) : Bool :=
  match s.point with
  | .suspended _ => true
  | .elsewhere => true
  | _ => false

def resumed : WaitPoint → WaitPoint
  | .suspended (some k) => .checkTimeout k
  | .suspended none => .result
  | .elsewhere => .returned
  | point => point

variable [DecidableEq ι]

def setNotifier (s : AsyncWait ι α) (i : ι) (point : NotifyPoint α) : AsyncWait ι α :=
  { s with notifiers := Function.update s.notifiers i point }

def notifyStep (s : AsyncWait ι α) (i : ι) : Option (AsyncWait ι α) :=
  match s.notifiers i with
  | .idle => none
  | .setReady v =>
    some (if s.waiter.ready then { s.setNotifier i .idle with calls := s.calls ++ [(v, false)] }
      else
        { s.setNotifier i (match s.kind with | .value => .store v | .void => .clearWaiting v) with
          waiter := { s.waiter with ready := true } })
  | .store v =>
    some { s.setNotifier i (.clearWaiting v) with waiter := { s.waiter with result := some v } }
  | .clearWaiting v =>
    some (if s.waiter.waiting then
        { s.setNotifier i (.wakeUp v) with waiter := { s.waiter with waiting := false } }
      else { s.setNotifier i .idle with calls := s.calls ++ [(v, true)] })
  | .wakeUp v =>
    some { s.setNotifier i .idle with
      wake := s.wake.requestTaskResume (.notify i)
      calls := s.calls ++ [(v, true)] }

def step (s : AsyncWait ι α) : AsyncWaitAction ι α → Option (AsyncWait ι α)
  | .notify i v =>
    -- an earlier call may still be inside `requestTaskResume`
    match s.notifiers i with
    | .idle => if .notify i ∈ s.wake.scheduling then none else some (s.setNotifier i (.setReady v))
    | _ => none
  | .notifyStep i => s.notifyStep i
  | .wait => if s.point = .start then some { s with point := .ready } else none
  | .advance => s.advance
  | .awaitElsewhere => if s.point = .returned then some { s with point := .elsewhere } else none
  | .wakeElsewhere => some { s with wake := s.wake.requestTaskResume .elsewhere }
  | .enqueue => some { s with wake := s.wake.enqueue .direct }
  | .schedule waker => (s.wake.schedule waker).map ({ s with wake := · })
  | .pop waker => if s.isSuspended then (s.wake.pop waker).map ({ s with wake := · }) else none
  | .resume => s.wake.resume.map ({ s with wake := ·, point := resumed s.point })
  | .expire k => (s.timers.expire k).map ({ s with timers := · })
  | .handle => (s.timers.handle s.wake .timer).map fun r => { s with timers := r.1, wake := r.2 }

end AsyncWait

end GalayKernel
