import GalayKernel.ChaseLevTaskRing
import Mathlib.Algebra.Group.Nat.Defs

/-!
# One pass over the ready tasks

`IOSchedulerWorkerState` (`kernel/io_scheduler.hpp`) and `SchedulerCore::runReadyPassDetailed`
(`kernel/scheduler_core.h`). The ring is a list with the steal side first: one call of
`push_back`, `pop_back` or `steal_front` is one step here. Sibling schedulers may steal between
any two operations of the pass.

No other thread injects tasks during the pass, so `injected_outstanding` is the length of
`inject_queue`, and a bulk dequeue takes as many tasks as it asks for, in order. A resumed task
may put itself back by `scheduleDeferred`, as `co_yield true` does.
-/

namespace GalayKernel

variable {τ : Type}

/-- `IOSchedulerWorkerState`, without what `trySteal` uses. -/
structure WorkerState (τ : Type) where
  lifoSlot : Option τ
  localRing : List τ
  injectQueue : List τ
  injectBuffer : Nat
  injectBuffer_pos : 0 < injectBuffer
  consecutiveLifoPolls : Nat
  lifoPollLimit : Nat
  pollsSinceInject : Nat
  injectCheckInterval : Nat
  lifoEnabled : Bool

namespace WorkerState

/-- The tasks in the LIFO slot, the ring and the inject queue. -/
def queued (w : WorkerState τ) : Nat :=
  w.lifoSlot.toList.length + w.localRing.length + w.injectQueue.length

def remainingCapacity (w : WorkerState τ) : Nat := kCapacity - w.localRing.length

def hasLocalWork (w : WorkerState τ) : Bool := w.lifoSlot.isSome || !w.localRing.isEmpty

def hasPendingInjected (w : WorkerState τ) : Bool := !w.injectQueue.isEmpty

def shouldCheckInjected (w : WorkerState τ) : Bool := w.injectCheckInterval ≤ w.pollsSinceInject

def enqueueDeferred (w : WorkerState τ) (task : τ) : WorkerState τ :=
  if w.remainingCapacity = 0 then { w with injectQueue := w.injectQueue ++ [task] }
  else { w with localRing := w.localRing ++ [task] }

def scheduleLocal (w : WorkerState τ) (task : τ) : WorkerState τ :=
  if w.lifoEnabled then
    match w.lifoSlot with
    | some older => { w.enqueueDeferred older with lifoSlot := some task }
    | none => { w with lifoSlot := some task }
  else w.enqueueDeferred task

def scheduleLocalDeferred (w : WorkerState τ) (task : τ) : WorkerState τ :=
  { w with injectQueue := w.injectQueue ++ [task] }

/-- The tasks that `drainInjected` moves. -/
def drained (w : WorkerState τ) : List τ :=
  w.injectQueue.take (min w.remainingCapacity w.injectBuffer)

def drainInjected (w : WorkerState τ) : WorkerState τ :=
  if w.remainingCapacity = 0 then w
  else { w with
    -- pushed from the last to the first, so that `pop_back` finds the oldest
    localRing := w.localRing ++ w.drained.reverse
    injectQueue := w.injectQueue.drop (min w.remainingCapacity w.injectBuffer)
    pollsSinceInject := 0 }

def prepareForRun (w : WorkerState τ) : WorkerState τ :=
  match w.lifoSlot with
  | some task =>
    if w.lifoEnabled && w.lifoPollLimit ≤ w.consecutiveLifoPolls then
      { w.enqueueDeferred task with
        lifoSlot := none
        lifoEnabled := false
        consecutiveLifoPolls := 0 }
    else w
  | none => w

def popNext (w : WorkerState τ) : Option τ × WorkerState τ :=
  let w := w.prepareForRun
  match w.lifoSlot with
  | some task => (some task, { w with
      lifoSlot := none
      consecutiveLifoPolls := (w.consecutiveLifoPolls + 1) % 2 ^ 32
      pollsSinceInject := (w.pollsSinceInject + 1) % 2 ^ 32 })
  | none =>
    match w.localRing.getLast? with
    | some task => (some task, { w with
        localRing := w.localRing.dropLast
        lifoEnabled := true
        consecutiveLifoPolls := 0
        pollsSinceInject := (w.pollsSinceInject + 1) % 2 ^ 32 })
    | none => (none, w)

end WorkerState

inductive PassPoint (τ : Type) where
  | collectRemote
  | popNext
  /-- `hasPendingInjected()` after `popNext` has found nothing -/
  | checkPending
  | drainInjected
  | popDrained
  | resume (next : τ)
  | returned
  deriving DecidableEq, Repr

structure ReadyPass (τ : Type) where
  worker : WorkerState τ
  readyBudget : Nat
  allowInjectedBurst : Bool
  burstCredit : Nat
  ran : Nat
  drainedRemote : Nat
  point : PassPoint τ

inductive PassAction where
  | proceed
  /-- the task is resumed; it may put itself back by `scheduleDeferred` -/
  | resume (reenqueues : Bool)
  | steal
  deriving DecidableEq, Repr

namespace ReadyPass

def init (w : WorkerState τ) (ready_budget : Nat) : ReadyPass τ where
  worker := w
  readyBudget := max 1 ready_budget
  allowInjectedBurst := !w.hasLocalWork
  burstCredit := 0
  ran := 0
  drainedRemote := 0
  point := .collectRemote

def drain (s : ReadyPass τ) : ReadyPass τ :=
  { s with
    worker := s.worker.drainInjected
    burstCredit :=
      if s.allowInjectedBurst then s.burstCredit + s.worker.drained.length else s.burstCredit
    drainedRemote := s.drainedRemote + s.worker.drained.length }

def collectRemote (s : ReadyPass τ) : ReadyPass τ :=
  if !s.worker.hasLocalWork || s.worker.shouldCheckInjected || s.worker.hasPendingInjected then
    s.drain
  else s

/-- `popNext`; the pass goes to `empty` when there is no task. -/
def pop (s : ReadyPass τ) (empty : PassPoint τ) : ReadyPass τ :=
  { s with
    worker := s.worker.popNext.2
    point := match s.worker.popNext.1 with
      | some task => .resume task
      | none => empty }

/-- The counters after a task has been resumed, and the end of the loop. -/
def count (s : ReadyPass τ) : ReadyPass τ :=
  let credit :=
    if s.allowInjectedBurst && 0 < s.burstCredit then s.burstCredit - 1 else s.burstCredit
  { s with
    ran := s.ran + 1
    burstCredit := credit
    point := if s.readyBudget ≤ s.ran + 1 && (!s.allowInjectedBurst || credit == 0) then .returned
      else .collectRemote }

def step (s : ReadyPass τ) : PassAction → Option (ReadyPass τ)
  | .proceed =>
    match s.point with
    | .collectRemote => some { s.collectRemote with point := .popNext }
    | .popNext => some (s.pop .checkPending)
    | .checkPending =>
      some { s with point :=
        if s.worker.hasPendingInjected then .collectRemote else .drainInjected }
    | .drainInjected =>
      some { s.drain with point := if s.worker.drained = [] then .returned else .popDrained }
    | .popDrained => some (s.pop .returned)
    | .resume _ | .returned => none
  | .resume reenqueues =>
    match s.point with
    | .resume task =>
      let worker := if reenqueues then s.worker.scheduleLocalDeferred task else s.worker
      some ({ s with worker := worker } : ReadyPass τ).count
    | _ => none
  | .steal =>
    match s.point, s.worker.localRing with
    | .returned, _ => none
    | _, [] => none
    | _, _ :: rest => some { s with worker := { s.worker with localRing := rest } }

end ReadyPass

end GalayKernel
