import GalayKernel.Lib.Transition
import Mathlib.Logic.Function.Basic

/-!
# The asynchronous mutex

`AsyncMutex` (`concurrency/async_mutex.h`) together with the timeout wrapper `WithTimeout`
(`kernel/timeout.hpp`) and the wake-up of a task (`requestTaskResume`, `Scheduler::resume`).
Every atomic operation and every queue operation is one step of a task's thread; the
waiter queue may hand out its elements in any order. A `lock()` that succeeds in
`await_ready` has no waiter and no armed timer, so its `await_resume` is part of that step.
-/

namespace GalayKernel

inductive LockResult where
  | success
  | timeout
  deriving DecidableEq, Repr

/-- The flags of the `TimeoutTimer` of a timed `lock()`. -/
inductive WaitTimer where
  | unarmed
  | armed
  | expired
  | done
  | cancelled
  deriving DecidableEq, Repr

def WaitTimer.timeouted : WaitTimer → Bool
  | .expired | .done => true
  | _ => false

/-- `m_timer->cancel()`, which has no effect on a timer that already fired. -/
def WaitTimer.cancel : WaitTimer → WaitTimer
  | .unarmed | .armed => .cancelled
  | timer => timer

/-- A waiter made by `await_suspend`, with the awaitable that owns it. `acquired` and
`result` record the history of the call: whether `m_locked` was taken on its behalf, and
what it returned. -/
structure AsyncMutexWaiter where
  task : Nat
  active : Bool
  timed : Bool
  timer : WaitTimer
  acquired : Bool
  result : Option LockResult
  deriving DecidableEq, Repr

/-- The next operation of the thread that runs a task. -/
inductive MutexPc where
  | idle
  | parked
  | awaitReady (timed : Bool)
  | awaitSuspend (timed : Bool)
  | recheck (w : Nat)
  | selfCancel (w : Nat)
  | addTimer (w : Nat)
  | suspended (w : Nat)
  | loadTimeouted (w : Nat)
  | cancelTimer (w : Nat)
  | markTimeout (w : Nat)
  | awaitResume (w : Nat) (result : LockResult)
  | unlockStore
  | unlockDequeue
  | unlockClaim (w : Nat)
  | unlockAcquire (w : Nat)
  | unlockWake (w : Nat)
  | unlockRestore (w : Nat)
  | unlockRequeue (w : Nat)
  deriving DecidableEq, Repr

/-- The `lock()` call a program point belongs to, once its waiter exists. -/
def MutexPc.call : MutexPc → Option Nat
  | .recheck w | .selfCancel w | .addTimer w | .suspended w | .loadTimeouted w
  | .cancelTimer w | .markTimeout w | .awaitResume w _ => some w
  | _ => none

def MutexPc.taken : MutexPc → Option Nat
  | .unlockClaim w | .unlockAcquire w | .unlockWake w | .unlockRestore w | .unlockRequeue w => some w
  | _ => none

def MutexPc.Outside : MutexPc → Prop
  | .idle | .parked | .suspended _ => True
  | _ => False

/-- An `unlock()` that is still going to look at the waiter queue, or to take the mutex for
the waiter it holds. -/
def MutexPc.Looking : MutexPc → Prop
  | .unlockDequeue | .unlockClaim _ | .unlockAcquire _ => True
  | _ => False

def MutexPc.Plain : MutexPc → Prop
  | .awaitReady timed | .awaitSuspend timed => timed = false
  | .addTimer _ | .loadTimeouted _ | .cancelTimer _ | .markTimeout _ => False
  | .awaitResume _ result => result = .success
  | _ => True

/-- A task. `queued` is `m_queued`. `holds` says that its `lock()` returned success and it
has not called `unlock()` since; `wokenByUnlock` and `wokenByTimer` say who requested the
resume that is still to come. -/
structure MutexTask where
  pc : MutexPc
  queued : Bool
  holds : Bool
  wokenByUnlock : Bool
  wokenByTimer : Bool
  deriving DecidableEq, Repr

structure AsyncMutex where
  locked : Bool
  waiters : List Nat
  waiter : Nat → AsyncMutexWaiter
  nextWaiter : Nat
  tasks : Nat → MutexTask

inductive MutexAction where
  | lock (t : Nat) (timed : Bool)
  | unlock (t : Nat)
  | park (t : Nat)
  | wakeOther (t : Nat)
  | resume (t : Nat)
  | run (t pick : Nat)
  | expire (w : Nat)
  | timerWake (w : Nat)
  deriving DecidableEq, Repr

def MutexAction.timed : MutexAction → Bool
  | .lock _ timed => timed
  | _ => false

namespace AsyncMutex

def init : AsyncMutex where
  locked := false
  waiters := []
  waiter := fun _ => ⟨0, false, false, .unarmed, false, none⟩
  nextWaiter := 0
  tasks := fun _ => ⟨.idle, false, false, false, false⟩

def setTask (s : AsyncMutex) (t : Nat) (task : MutexTask) : AsyncMutex :=
  { s with tasks := Function.update s.tasks t task }

def setWaiter (s : AsyncMutex) (w : Nat) (waiter : AsyncMutexWaiter) : AsyncMutex :=
  { s with waiter := Function.update s.waiter w waiter }

def goto (s : AsyncMutex) (t : Nat) (pc : MutexPc) : AsyncMutex :=
  s.setTask t { s.tasks t with pc := pc }

def setActive (s : AsyncMutex) (w : Nat) (value : Bool) : AsyncMutex :=
  s.setWaiter w { s.waiter w with active := value }

def setTimer (s : AsyncMutex) (w : Nat) (timer : WaitTimer) : AsyncMutex :=
  s.setWaiter w { s.waiter w with timer := timer }

/-- A `tryLock()` that succeeded on behalf of the call of `w`. -/
def lockFor (s : AsyncMutex) (w : Nat) : AsyncMutex :=
  { s.setWaiter w { s.waiter w with acquired := true } with locked := true }

def returnFrom (s : AsyncMutex) (t w : Nat) (result : LockResult) : AsyncMutex :=
  (s.setWaiter w { s.waiter w with active := false, result := some result }).setTask t
    { s.tasks t with pc := .idle, holds := (s.tasks t).holds || result == .success }

/-- One operation of the thread that runs `t`. `pick` is the position the waiter queue
hands out in a successful `try_dequeue`. -/
def runTask (s : AsyncMutex) (t pick : Nat) : Option AsyncMutex :=
  match (s.tasks t).pc with
  | .idle => none
  | .parked => none
  | .suspended _ => none
  | .awaitReady timed =>
    if s.locked then some (s.goto t (.awaitSuspend timed))
    else some { s.setTask t { s.tasks t with pc := .idle, holds := true } with locked := true }
  | .awaitSuspend timed =>
    let w := s.nextWaiter
    some { (s.setWaiter w ⟨t, true, timed, .unarmed, false, none⟩).goto t (.recheck w) with
      waiters := s.waiters ++ [w], nextWaiter := w + 1 }
  | .recheck w =>
    if s.locked then
      some (s.goto t (if (s.waiter w).timed then .addTimer w else .suspended w))
    else some ((s.lockFor w).goto t (.selfCancel w))
  | .selfCancel w =>
    some ((s.setActive w false).goto t
      (if (s.waiter w).timed then .loadTimeouted w else .awaitResume w .success))
  | .addTimer w => some ((s.setTimer w .armed).goto t (.suspended w))
  | .loadTimeouted w =>
    some (s.goto t (if (s.waiter w).timer.timeouted then .markTimeout w else .cancelTimer w))
  | .cancelTimer w =>
    some ((s.setTimer w (s.waiter w).timer.cancel).goto t (.awaitResume w .success))
  | .markTimeout w => some ((s.setActive w false).goto t (.awaitResume w .timeout))
  | .awaitResume w result => some (s.returnFrom t w result)
  | .unlockStore => some { s.goto t .unlockDequeue with locked := false }
  | .unlockDequeue =>
    if s.waiters = [] then some (s.goto t .idle)
    else (s.waiters[pick]?).map fun w =>
      { s.goto t (.unlockClaim w) with waiters := s.waiters.eraseIdx pick }
  | .unlockClaim w =>
    if (s.waiter w).active then some ((s.setActive w false).goto t (.unlockAcquire w))
    else some (s.goto t .unlockDequeue)
  | .unlockAcquire w =>
    if s.locked then some (s.goto t (.unlockRestore w))
    else some ((s.lockFor w).goto t (.unlockWake w))
  | .unlockWake w =>
    let u := (s.waiter w).task
    some ((s.setTask u { s.tasks u with queued := true, wokenByUnlock := true }).goto t .idle)
  | .unlockRestore w => some ((s.setActive w true).goto t (.unlockRequeue w))
  | .unlockRequeue w => some { s.goto t .idle with waiters := s.waiters ++ [w] }

/-- `Scheduler::resume` of a queued task. A task suspended in `lock()` goes on only when
`unlock()` or the timer of the call asked for it. -/
def resumeTask (s : AsyncMutex) (t : Nat) : Option AsyncMutex :=
  let task := s.tasks t
  let awake (pc : MutexPc) : MutexTask := ⟨pc, false, task.holds, false, false⟩
  match task.pc with
  | .parked => if task.queued then some (s.setTask t (awake .idle)) else none
  | .suspended w =>
    if task.queued && (task.wokenByUnlock || task.wokenByTimer) then
      some (s.setTask t
        (awake (if (s.waiter w).timed then .loadTimeouted w else .awaitResume w .success)))
    else none
  | _ => none

def step (s : AsyncMutex) : MutexAction → Option AsyncMutex
  | .lock t timed => if (s.tasks t).pc = .idle then some (s.goto t (.awaitReady timed)) else none
  | .unlock t =>
    if (s.tasks t).pc = .idle ∧ (s.tasks t).holds = true then
      some (s.setTask t { s.tasks t with pc := .unlockStore, holds := false })
    else none
  | .park t => if (s.tasks t).pc = .idle then some (s.goto t .parked) else none
  | .wakeOther t => some (s.setTask t { s.tasks t with queued := true })
  | .resume t => s.resumeTask t
  | .run t pick => s.runTask t pick
  -- `handleTimeout` sets `kTimeout` first and requests the resume in a second step
  | .expire w =>
    if (s.waiter w).timer = .armed ∧ (s.waiter w).result = none then
      some (s.setTimer w .expired)
    else none
  | .timerWake w =>
    if (s.waiter w).timer = .expired then
      let u := (s.waiter w).task
      some ((s.setTimer w .done).setTask u
        { s.tasks u with queued := true, wokenByTimer := true })
    else none

def Untimed (_ : AsyncMutex) (a : MutexAction) : Prop := a.timed = false

instance (s : AsyncMutex) (a : MutexAction) : Decidable (s.Untimed a) :=
  inferInstanceAs (Decidable (a.timed = false))

def Quiescent (s : AsyncMutex) : Prop := ∀ t, (s.tasks t).pc.Outside

/-- The mutex is free and nobody is about to look at the queue, but a task waits in it. -/
def Stranded (s : AsyncMutex) : Prop :=
  s.Quiescent ∧ s.locked = false ∧ ∃ t w, (s.tasks t).pc = .suspended w ∧ w ∈ s.waiters ∧
    (s.waiter w).active = true ∧ (s.tasks t).queued = false

end AsyncMutex

end GalayKernel
