import Mathlib.Data.List.Basic

/-!
# Waking the event loop from other threads

`WakeCoordinator` (`kernel/wake_coordinator.h`) between `schedule`, which puts a task into the
inject queue of an epoll or kqueue scheduler, and the loop `runIOSchedulerEventLoop`
(`kernel/sched_loop.hpp`). Every atomic operation, queue operation, write of a notification and
poll is one step.

What the loop does between its atomic operations is left open: a pass over the ready tasks may
drain the inject queue, resume tasks and schedule further ones in any order, and it may end at any
time. So every run of the loop is among the runs here. A drain takes any number of tasks from
the queue, since `try_dequeue_bulk` need not see all of them.
-/

namespace GalayKernel

variable {τ : Type}

inductive WakeBackend where
  | epoll
  | kqueue
  deriving DecidableEq, Repr

inductive ProducerPoint (τ : Type) where
  | idle
  | fetchAdd (task : τ)
  | enqueue (task : τ) (was_empty : Bool)
  | loadSleeping
  | exchange
  | notify
  deriving DecidableEq, Repr

inductive LoopPoint (τ : Type) where
  /-- in `runLocalFollowupPasses`, `post_passes_fn` or `tick` -/
  | passes
  /-- `drainInjected` has taken tasks; `injected_outstanding.fetch_sub` comes next -/
  | dequeued (count : Nat)
  | collected
  | cancelling
  /-- the loop itself puts a task into the inject queue, from a pass or from `processEvent` -/
  | injecting (task : τ) (back : LoopPoint τ)
  | checkWork
  | trySteal
  | poll
  /-- `poll` goes through the events; `wake` if the wake event is still among them -/
  | events (wake : Bool)
  /-- epoll reads the eventfd until there is nothing to read -/
  | readWake
  | cancelWake
  /-- `markAwake` comes next, and then the loop begins again -/
  | goRound
  deriving DecidableEq, Repr

structure WakeState (τ : Type) where
  backend : WakeBackend
  injectQueue : List τ
  injectedOutstanding : Nat
  /-- the tasks in the LIFO slot and the ring -/
  localWork : Nat
  sleeping : Bool
  wakeupPending : Bool
  /-- the eventfd is readable, or the user event is triggered -/
  notification : Bool
  loop : LoopPoint τ
  producers : List (ProducerPoint τ)
  deriving DecidableEq, Repr

inductive WakeAction (τ : Type) where
  | schedule (i : Nat) (task : τ)
  | produce (i : Nat)
  | forceWake
  | stolen
  | proceed
  | dequeue (count : Nat)
  | runTask
  | scheduleLocal
  | inject (task : τ)
  | markSleeping
  | trySteal (found : Nat)
  /-- `epoll_wait` or `kevent` returns, with or without the wake event -/
  | pollReturns (wake : Bool)
  | handleWake
  | endPoll
  deriving DecidableEq, Repr

namespace WakeState

def init (backend : WakeBackend) (threads : Nat) : WakeState τ where
  backend := backend
  injectQueue := []
  injectedOutstanding := 0
  localWork := 0
  sleeping := true
  wakeupPending := false
  notification := false
  loop := .passes
  producers := List.replicate threads .idle

def setProducer (s : WakeState τ) (i : Nat) (p : ProducerPoint τ) : WakeState τ :=
  { s with producers := s.producers.set i p }

def produce (s : WakeState τ) (i : Nat) : ProducerPoint τ → Option (WakeState τ)
  | .idle => none
  | .fetchAdd task =>
    some { s.setProducer i (.enqueue task (s.injectedOutstanding == 0)) with
      injectedOutstanding := s.injectedOutstanding + 1 }
  | .enqueue task was_empty =>
    some { s.setProducer i (if was_empty then .exchange else .loadSleeping) with
      injectQueue := s.injectQueue ++ [task] }
  | .loadSleeping => some (s.setProducer i (if s.sleeping then .exchange else .idle))
  | .exchange =>
    some { s.setProducer i (if s.wakeupPending then .idle else .notify) with
      wakeupPending := true }
  | .notify => some { s.setProducer i .idle with notification := true }

/-- The code of tasks runs here: in a pass, and in `processEvent`. -/
def runsTasks (s : WakeState τ) : Bool :=
  match s.loop with
  | .passes | .events _ => true
  | _ => false

def proceed (s : WakeState τ) : Option (WakeState τ) :=
  match s.loop with
  | .dequeued count =>
    some { s with injectedOutstanding := s.injectedOutstanding - count, loop := .collected }
  | .collected => some { s with sleeping := false, loop := .cancelling }
  | .cancelling => some { s with wakeupPending := false, loop := .passes }
  | .injecting task back => some { s with injectQueue := s.injectQueue ++ [task], loop := back }
  | .checkWork =>
    some { s with
      loop := if 0 < s.localWork || 0 < s.injectedOutstanding then .goRound else .trySteal }
  | .readWake =>
    if s.notification then some { s with notification := false }
    else some { s with loop := .cancelWake }
  | .cancelWake => some { s with wakeupPending := false, loop := .events false }
  | .goRound => some { s with sleeping := false, loop := .passes }
  | .passes | .trySteal | .poll | .events _ => none

def step (s : WakeState τ) : WakeAction τ → Option (WakeState τ)
  | .schedule i task =>
    match s.producers[i]? with
    | some .idle => some (s.setProducer i (.fetchAdd task))
    | _ => none
  | .produce i => (s.producers[i]?).bind (s.produce i)
  | .forceWake => some { s with notification := true }
  | .stolen => if 0 < s.localWork then some { s with localWork := s.localWork - 1 } else none
  | .proceed => s.proceed
  | .dequeue count =>
    match s.loop with
    | .passes =>
      if 0 < count && count ≤ s.injectQueue.length then
        some { s with
          injectQueue := s.injectQueue.drop count
          localWork := s.localWork + count
          loop := .dequeued count }
      else none
    | _ => none
  | .runTask =>
    match s.loop with
    | .passes =>
      if 0 < s.localWork then some { s with localWork := s.localWork - 1 } else none
    | _ => none
  | .scheduleLocal =>
    if s.runsTasks then some { s with localWork := s.localWork + 1 } else none
  | .inject task =>
    if s.runsTasks then
      some { s with
        injectedOutstanding := s.injectedOutstanding + 1
        loop := .injecting task s.loop }
    else none
  | .markSleeping =>
    match s.loop with
    | .passes => some { s with sleeping := true, loop := .checkWork }
    | _ => none
  | .trySteal found =>
    match s.loop with
    | .trySteal =>
      some { s with
        localWork := s.localWork + found
        loop := if 0 < found then .goRound else .poll }
    | _ => none
  | .pollReturns wake =>
    match s.loop with
    | .poll =>
      if wake && !s.notification then none
      else some { s with
        -- `EV_CLEAR` resets the user event when it is reported
        notification := if wake && s.backend = .kqueue then false else s.notification
        loop := .events wake }
    | _ => none
  | .handleWake =>
    match s.loop with
    | .events true =>
      some { s with loop := if s.backend = .epoll then .readWake else .cancelWake }
    | _ => none
  | .endPoll =>
    match s.loop with
    | .events false => some { s with loop := .goRound }
    | _ => none

end WakeState

end GalayKernel
