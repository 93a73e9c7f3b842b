import GalayKernel.AsyncMutex
import GalayKernel.TimeoutTimer
import GalayKernel.UnsafeChannel
import GalayKernel.Lib.Transition

/-!
# One `handleTimeout`

The models of timed awaits take `TimeoutTimer::handleTimeout` apart in different ways. What each of
them does to the flags of the timer, and whether it wakes the task, is `TimerFlags.handleTimeout`.
-/

namespace GalayKernel.Proofs

open Transition

section TimerThread

variable {σ : Type} [DecidableEq σ] {t t' : TimerThread} {w w' : TaskWake σ} {timer : Nat → σ}
  {k : Nat} {p : HandlePoint}

def threadFlags (t : TimerThread) (k : Nat) : TimerFlags :=
  ⟨t.timeouted k, t.cancelled k, t.done k⟩

/-- What is left of the call at a point: whether the waker is still called, and the flags after the
call. -/
def restOfCall (f : TimerFlags) : HandlePoint → Bool × TimerFlags
  | .checkCancelled => f.handleTimeout
  | .checkDone => if f.done then (false, f) else (true, { f with timeouted := true, done := true })
  | .setTimeout => (true, { f with timeouted := true, done := true })
  | .wakeUp => (true, { f with done := true })
  | .setDone => (false, { f with done := true })

/-- Every step of the thread is the next part of the call. -/
lemma restOfCall_handle (hk : t.handling = some (k, p)) (hs : t.handle w timer = some (t', w')) :
    w' = (if p = .wakeUp then w.requestTaskResume (timer k) else w) ∧
      ((t'.handling = none ∧ restOfCall (threadFlags t k) p = (false, threadFlags t' k)) ∨
        ∃ p', t'.handling = some (k, p') ∧ restOfCall (threadFlags t k) p =
          (decide (p = .wakeUp) || (restOfCall (threadFlags t' k) p').1,
            (restOfCall (threadFlags t' k) p').2)) := by
  unfold TimerThread.handle at hs
  rw [hk] at hs
  cases p with
  | checkCancelled =>
    cases hs
    refine ⟨rfl, .inr ⟨_, rfl, ?_⟩⟩
    cases hc : t.cancelled k <;> cases hd : t.done k <;>
      simp [restOfCall, threadFlags, TimerFlags.handleTimeout, hc, hd]
  | checkDone =>
    cases hs
    refine ⟨rfl, .inr ⟨_, rfl, ?_⟩⟩
    cases hd : t.done k <;> simp [restOfCall, threadFlags, hd]
  | setTimeout =>
    cases hs
    exact ⟨rfl, .inr ⟨_, rfl, by simp [restOfCall, threadFlags]⟩⟩
  | wakeUp =>
    cases hs
    exact ⟨rfl, .inr ⟨_, rfl, by simp [restOfCall, threadFlags]⟩⟩
  | setDone =>
    obtain ⟨-, hs⟩ := Option.ite_none_left_eq_some.mp hs
    cases hs
    exact ⟨rfl, .inl ⟨rfl, by simp [restOfCall, threadFlags]⟩⟩

/-- The steps of the thread up to the end of the call, and whether one of them calls the waker. What
else happens to the task between them is not restricted. -/
inductive Handles (timer : Nat → σ) : TimerThread → Bool → TimerThread → Prop
  | last {t t' : TimerThread} {w w' : TaskWake σ} : t.handle w timer = some (t', w') →
      t'.handling = none → Handles timer t false t'
  | next {t t₁ t' : TimerThread} {w w' : TaskWake σ} {woken : Bool} {k : Nat} {p : HandlePoint} :
      t.handling = some (k, p) → t.handle w timer = some (t₁, w') → Handles timer t₁ woken t' →
      Handles timer t (decide (p = .wakeUp) || woken) t'

/-- A call of the thread of the timers that nobody disturbs is `handleTimeout`. -/
theorem handles_handleTimeout {woken : Bool} (h : Handles timer t woken t')
    (hk : t.handling = some (k, .checkCancelled)) :
    (threadFlags t k).handleTimeout = (woken, threadFlags t' k) := by
  have hrest : ∀ p, t.handling = some (k, p) →
      restOfCall (threadFlags t k) p = (woken, threadFlags t' k) := by
    clear hk
    induction h with
    | @last t t' w w' hs hend =>
      intro p hk
      obtain ⟨-, ⟨-, hrest⟩ | ⟨p', hp', -⟩⟩ := restOfCall_handle hk hs
      · exact hrest
      · cases hend.symm.trans hp'
    | @next t t₁ t' w w' woken k' p' hk' hs hcall ih =>
      intro p hk
      cases hk'.symm.trans hk
      obtain ⟨-, ⟨hend, -⟩ | ⟨p₁, hp₁, hrest⟩⟩ := restOfCall_handle hk hs
      · cases hcall with
        | last hs' _ => rw [TimerThread.handle, hend] at hs'; cases hs'
        | next hk₁ _ _ => cases hend.symm.trans hk₁
      · rw [hrest, ih p₁ hp₁]
  exact hrest _ hk

end TimerThread

def waitFlags : WaitTimer → TimerFlags
  | .unarmed | .armed => .new
  | .expired => ⟨true, false, false⟩
  | .done => ⟨true, false, true⟩
  | .cancelled => ⟨false, true, false⟩

lemma timeouted_waitFlags (timer : WaitTimer) : (waitFlags timer).timeouted = timer.timeouted := by
  cases timer <;> rfl

lemma waitFlags_cancel {timer : WaitTimer} (h : timer.timeouted = false) :
    waitFlags timer.cancel = (waitFlags timer).cancel := by
  cases timer <;> first | rfl | cases h

/-- The timer of a `lock()` runs `handleTimeout` in two steps, and the second one wakes the task. A
timer that has been cancelled runs none. -/
theorem mutexTimer_handleTimeout {s s' : AsyncMutex} {w : Nat}
    (h : run AsyncMutex.step s [.expire w, .timerWake w] = some s') :
    (waitFlags (s.waiter w).timer).handleTimeout = (true, waitFlags (s'.waiter w).timer) ∧
      (s'.tasks (s.waiter w).task).wokenByTimer = true := by
  obtain ⟨s₁, hexpire, hrest⟩ := Option.bind_eq_some_iff.mp h
  obtain ⟨s₂, hwake, hs'⟩ := Option.bind_eq_some_iff.mp hrest
  cases hs'
  obtain ⟨⟨harmed, -⟩, hexpire⟩ := Option.ite_none_right_eq_some.mp hexpire
  cases hexpire
  obtain ⟨-, hwake⟩ := Option.ite_none_right_eq_some.mp hwake
  cases hwake
  rw [harmed]
  simp [waitFlags, TimerFlags.handleTimeout, TimerFlags.new, AsyncMutex.setTimer,
    AsyncMutex.setWaiter, AsyncMutex.setTask]

/-- The timer of a receive leaves the manager for its only call. -/
theorem unsafeTimer_handleTimeout {α : Type} (s : UnsafeRun α) (k : Nat) :
    (⟨s.timeouted k, s.cancelled k, false⟩ : TimerFlags).handleTimeout =
      (!s.cancelled k, ⟨(s.handleTimeout k).timeouted k, (s.handleTimeout k).cancelled k, true⟩) ∧
    (s.handleTimeout k).wake = if s.cancelled k then s.wake else (s.wakeUp k).wake := by
  cases hc : s.cancelled k <;>
    simp [TimerFlags.handleTimeout, UnsafeRun.handleTimeout, UnsafeRun.wakeUp, hc]

end GalayKernel.Proofs
