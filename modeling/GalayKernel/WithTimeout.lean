import GalayKernel.IOError
import GalayKernel.TimeoutTimer
import Mathlib.Logic.Function.Basic

/-!
# Timed awaits on the event loop of an IO scheduler

`WithTimeout` and `TimeoutTimer` (`kernel/timeout.hpp`) around a plain awaitable, which keeps
its result in `m_result`, and the loop that drives them (`runIOSchedulerEventLoop` in
`kernel/sched_loop.hpp`): budgeted ready passes, a tick of the timer wheel, and a poll of the
reactor when nothing is ready. Sockets and files complete in the poll; the signal of an
`AsyncWaiter<void>` may come from any thread at any moment.

A tick may find any timer of the wheel expired, and the ready passes take the queued tasks in
any order.
-/

namespace GalayKernel

inductive IOResult where
  | value (n : Nat)
  | error (code : IOError.Code)
  deriving DecidableEq, Repr

/-- The flags of a `TimeoutTimer` and the task of its waker. -/
structure TimeoutTimer extends TimerFlags where
  waker : Nat
  deriving DecidableEq, Repr

inductive Operation where
  | io
  | signal (waiter : Nat)
  deriving DecidableEq, Repr

/-- A suspended `co_await op.timeout(d)`. `result` is `m_inner.m_result`. The last two fields are
a record: the result with which the operation was completed, and whether that was before the
timer fired. -/
structure WithTimeout where
  operation : Operation
  result : IOResult
  timer : Nat
  completed : Option IOResult
  inTime : Bool
  deriving DecidableEq, Repr

structure SignalWaiter where
  ready : Bool
  waiting : Bool
  waker : Nat
  deriving DecidableEq, Repr

/-- Where the loop stands. `ran` counts the tasks resumed since the passes began. -/
inductive LoopPhase where
  | passes (ran : Nat)
  | tick
  | poll
  deriving DecidableEq, Repr

structure AwaitReturn where
  task : Nat
  result : IOResult
  completed : Option IOResult
  inTime : Bool
  deriving DecidableEq, Repr

/-- The loop with its tasks. `queue` holds the tasks whose `m_queued` is set, `wheel` the timers
in the timer manager; `budget` is the number of tasks after which the passes may stop. -/
structure EventLoop where
  budget : Nat
  phase : LoopPhase
  queue : List Nat
  awaits : Nat → Option WithTimeout
  timers : Nat → TimeoutTimer
  nextTimer : Nat
  wheel : List Nat
  waiters : Nat → SignalWaiter
  returned : List AwaitReturn

inductive LoopAction where
  /-- a running task comes to a timed await; `immediate` is the result of an operation that
  completes while it is registered -/
  | await (task : Nat) (operation : Operation) (immediate : Option IOResult)
  | resume (task : Nat)
  | endPasses
  | fire (timer : Nat)
  | endTick
  | complete (task : Nat) (result : IOResult)
  | endPoll
  | notify (waiter : Nat)
  deriving DecidableEq, Repr

namespace EventLoop

def init (budget : Nat) : EventLoop where
  budget := budget
  phase := .passes 0
  queue := []
  awaits := fun _ => none
  timers := fun _ => ⟨.new, 0⟩
  nextTimer := 0
  wheel := []
  waiters := fun _ => ⟨false, false, 0⟩
  returned := []

/-- `Waker::wakeUp`: a queued task is not queued again. -/
def wakeUp (s : EventLoop) (task : Nat) : EventLoop :=
  if task ∈ s.queue then s else { s with queue := s.queue ++ [task] }

def handleTimeout (s : EventLoop) (timer : Nat) : EventLoop :=
  let t := s.timers timer
  let (wakes, flags) := t.toTimerFlags.handleTimeout
  let s := ({ s with timers := Function.update s.timers timer ⟨flags, t.waker⟩ } : EventLoop)
  if wakes then s.wakeUp t.waker else s

/-- The task goes on without being suspended; the timer of the await was never added. -/
def returnNow (s : EventLoop) (task : Nat) (result : IOResult) : EventLoop :=
  { s with returned := s.returned ++ [⟨task, result, some result, true⟩] }

/-- The inner operation suspended the task, so the timer is added. `m_result` holds a default
value until the operation stores one. -/
def suspend (s : EventLoop) (task : Nat) (operation : Operation) : EventLoop :=
  { s with
    awaits := Function.update s.awaits task (some ⟨operation, .value 0, s.nextTimer, none, false⟩)
    timers := Function.update s.timers s.nextTimer ⟨.new, task⟩
    nextTimer := s.nextTimer + 1
    wheel := s.nextTimer :: s.wheel }

/-- `WithTimeout::await_ready` and `await_suspend`. An `AsyncWaiter` is waited for once. -/
def awaitSuspend (s : EventLoop) (task : Nat) (operation : Operation) (immediate : Option IOResult) :
    Option EventLoop :=
  match operation with
  | .io =>
    match immediate with
    | some result => some (s.returnNow task result)
    | none => some (s.suspend task .io)
  | .signal w =>
    if (s.waiters w).ready then some (s.returnNow task (.value 0))
    else if (s.waiters w).waiting then none
    else some { s.suspend task (.signal w) with
      waiters := Function.update s.waiters w ⟨false, true, task⟩ }

def awaitResume (s : EventLoop) (task : Nat) (a : WithTimeout) : EventLoop :=
  let t := s.timers a.timer
  let s := ({ s with awaits := Function.update s.awaits task none } : EventLoop)
  if t.timeouted then
    { s with returned := s.returned ++ [⟨task, .error .kTimeout, a.completed, a.inTime⟩] }
  else
    { s with
      timers := Function.update s.timers a.timer { t with toTimerFlags := t.cancel }
      returned := s.returned ++ [⟨task, a.result, a.completed, a.inTime⟩] }

def store (s : EventLoop) (task : Nat) (a : WithTimeout) (result : IOResult) : EventLoop :=
  { s with
    awaits := Function.update s.awaits task (some { a with
      result := result, completed := some result, inTime := !(s.timers a.timer).timeouted }) }

/-- `AsyncWaiter<void>::notify`, up to its wake-up. `m_result` of the await has been a success
from the beginning. -/
def notify (s : EventLoop) (w : Nat) : EventLoop :=
  let waiter := s.waiters w
  if waiter.ready then s
  else if waiter.waiting then
    let s := ({ s with waiters := Function.update s.waiters w ⟨true, false, waiter.waker⟩ } : EventLoop)
    match s.awaits waiter.waker with
    | some a =>
      if a.operation = .signal w then (s.store waiter.waker a a.result).wakeUp waiter.waker
      -- the await on this waiter is over, the task waits for something else
      else s.wakeUp waiter.waker
    | none => s.wakeUp waiter.waker
  else { s with waiters := Function.update s.waiters w { waiter with ready := true } }

def step (s : EventLoop) : LoopAction → Option EventLoop
  | .await task operation immediate =>
    match s.phase with
    | .passes _ =>
      if s.awaits task = none ∧ task ∉ s.queue then s.awaitSuspend task operation immediate else none
    | _ => none
  | .resume task =>
    match s.phase with
    | .passes ran =>
      if task ∈ s.queue then
        let s := ({ s with queue := s.queue.erase task, phase := .passes (ran + 1) } : EventLoop)
        match s.awaits task with
        | some a => some (s.awaitResume task a)
        | none => some s
      else none
    | _ => none
  | .endPasses =>
    match s.phase with
    | .passes ran => if s.queue = [] ∨ s.budget ≤ ran then some { s with phase := .tick } else none
    | _ => none
  | .fire timer =>
    if s.phase = .tick ∧ timer ∈ s.wheel then
      some (({ s with wheel := s.wheel.erase timer } : EventLoop).handleTimeout timer)
    else none
  | .endTick =>
    if s.phase = .tick then
      -- `hasPendingWork()`
      some { s with phase := if s.queue = [] then .poll else .passes 0 }
    else none
  | .complete task result =>
    match s.awaits task with
    | some a =>
      -- an operation is reported once
      if s.phase = .poll ∧ a.operation = .io ∧ a.completed = none then
        some ((s.store task a result).wakeUp task)
      else none
    | none => none
  | .endPoll => if s.phase = .poll then some { s with phase := .passes 0 } else none
  | .notify w => some (s.notify w)

end EventLoop

end GalayKernel
