import Mathlib.Data.List.Basic
import Mathlib.Logic.Function.Basic

/-!
# Wake-ups of one task

`requestTaskResume` (`kernel/task.cc`) and `Scheduler::resume` (`kernel/scheduler.hpp`) as one
task sees them, and the callbacks of the timers of its timed awaits (`kernel/timeout.hpp`). The
exchange of `m_queued`, the insertion into the ready queue, the removal from it and the reset of
`m_queued` are separate steps. `co_yield true`, `schedule` and the completion of an awaited task
put the task into the ready queue without looking at `m_queued`, which is reset all the same when
such an entry is taken.

A task that is woken has its coroutine handle, is bound to the scheduler that queues it and is
not done, so `requestTaskResume` does not give up before the exchange and `schedule` accepts the
task.
-/

namespace GalayKernel

variable {σ : Type}

/-- The `m_queued` flag of a task and the wake-ups that are under way, each with the party that
requested it. -/
structure TaskWake (σ : Type) where
  queued : Bool
  /-- callers of `requestTaskResume` between the exchange and the call of `schedule` -/
  scheduling : List σ
  ready : List σ
  /-- the entry that the scheduler has taken, as long as `m_queued` has not been reset -/
  resuming : Option σ
  /-- the flag is set only while a wake-up is under way -/
  covered : queued = true → scheduling ++ ready ++ resuming.toList ≠ []

namespace TaskWake

def init : TaskWake σ := ⟨false, [], [], none, nofun⟩

def pending (w : TaskWake σ) : List σ := w.scheduling ++ w.ready ++ w.resuming.toList

/-- There is one wake-up under way if the flag is set, and none if it is not. -/
def Flagged (w : TaskWake σ) : Prop := w.pending.length = w.queued.toNat

instance (w : TaskWake σ) : Decidable w.Flagged := inferInstanceAs (Decidable (_ = _))

/-- `requestTaskResume` up to its call of `schedule`. -/
def requestTaskResume (w : TaskWake σ) (src : σ) : TaskWake σ :=
  if w.queued then w
  else { w with queued := true, scheduling := w.scheduling ++ [src], covered := by simp }

def schedule [DecidableEq σ] (w : TaskWake σ) (src : σ) : Option (TaskWake σ) :=
  if src ∈ w.scheduling then
    some { w with
      scheduling := w.scheduling.erase src
      ready := w.ready ++ [src]
      covered := by simp }
  else none

/-- An entry of the ready queue that is made without `m_queued`. -/
def enqueue (w : TaskWake σ) (src : σ) : TaskWake σ :=
  { w with ready := w.ready ++ [src], covered := by simp }

def pop [DecidableEq σ] (w : TaskWake σ) (src : σ) : Option (TaskWake σ) :=
  if src ∈ w.ready ∧ w.resuming = none then
    some { w with ready := w.ready.erase src, resuming := some src, covered := by simp }
  else none

/-- `Scheduler::resume` up to `m_handle.resume()`. -/
def resume (w : TaskWake σ) : Option (TaskWake σ) :=
  if w.resuming.isSome then some { w with queued := false, resuming := none, covered := nofun }
  else none

end TaskWake

inductive HandlePoint where
  | checkCancelled
  | checkDone
  | setTimeout
  | wakeUp
  | setDone
  deriving DecidableEq, Repr

/-- The timers of the timed awaits of a task, numbered in the order in which they are added, and
the thread that runs their callbacks one after the other. -/
structure TimerThread where
  added : Nat
  armed : List Nat
  handling : Option (Nat × HandlePoint)
  timeouted : Nat → Bool
  cancelled : Nat → Bool
  done : Nat → Bool

namespace TimerThread

def init : TimerThread := ⟨0, [], none, fun _ => false, fun _ => false, fun _ => false⟩

def addTimer (t : TimerThread) : TimerThread :=
  { t with added := t.added + 1, armed := t.added :: t.armed }

def cancel (t : TimerThread) (k : Nat) : TimerThread :=
  { t with cancelled := Function.update t.cancelled k true }

def expire (t : TimerThread) (k : Nat) : Option TimerThread :=
  if t.handling = none ∧ k ∈ t.armed then
    some { t with armed := t.armed.erase k, handling := some (k, .checkCancelled) }
  else none

/-- One step of `TimeoutTimer::handleTimeout`; `timer k` is the waker of timer `k`. -/
def handle [DecidableEq σ] (t : TimerThread) (w : TaskWake σ) (timer : Nat → σ) :
    Option (TimerThread × TaskWake σ) :=
  match t.handling with
  | none => none
  | some (k, .checkCancelled) =>
    some ({ t with handling := some (k, if t.cancelled k then .setDone else .checkDone) }, w)
  | some (k, .checkDone) =>
    some ({ t with handling := some (k, if t.done k then .setDone else .setTimeout) }, w)
  | some (k, .setTimeout) =>
    some ({ t with
      timeouted := Function.update t.timeouted k true
      handling := some (k, .wakeUp) }, w)
  | some (k, .wakeUp) =>
    some ({ t with handling := some (k, .setDone) }, w.requestTaskResume (timer k))
  | some (k, .setDone) =>
    -- `Timer::handleTimeout()` is called when `wakeUp()` has returned
    if timer k ∈ w.scheduling then none
    else some ({ t with done := Function.update t.done k true, handling := none }, w)

end TimerThread

end GalayKernel
