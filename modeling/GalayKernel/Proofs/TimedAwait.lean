import GalayKernel.Lib.Transition
import GalayKernel.Proofs.TaskWake
import GalayKernel.TimedAwait

namespace GalayKernel.Proofs
open TimedTask Transition

def InTimedAwait : TimedPoint → Prop
  | .addTimer | .suspended (some _) => True
  | _ => False

/-- When a timed await begins, no entry that was made without `m_queued` is left over, and none is
made before the await is resumed. The callback of its timer does not run past its check while the
task returns from the await, and the task is not resumed directly while that timer has queued it. -/
def NoOverlap (s : TimedTask) : TimedAction → Prop
  | .await timed => timed = true → s.wake.Flagged
  | .enqueue => ¬InTimedAwait s.point
  | .resume => ∀ k, s.point = .suspended (some k) → ¬Firing s.timers k
  | .resumeInline => ∀ k, s.point = .suspended (some k) →
      ¬Firing s.timers k ∧ .timer k ∉ s.wake.pending
  | .handle => ∀ k, s.timers.handling = some (k, .checkCancelled) →
      s.point ≠ .checkTimeout k ∧ s.point ≠ .cancel k
  | _ => True

def Returned (s : TimedTask) (k : Nat) : Prop := k < s.timers.added ∧ s.point.timer ≠ some k

def WillWake (t : TimerThread) (k : Nat) : Prop :=
  Firing t k ∨ (k ∈ t.armed ∨ t.handling = some (k, .checkCancelled)) ∧ t.cancelled k = false

/-- A wake-up by a timer belongs to the await in which the task is suspended. -/
structure TimedOk (s : TimedTask) : Prop where
  timers : TimerThreadOk s.timers s.point.timer
  firing : ∀ k, Firing s.timers k → s.point = .suspended (some k)
  pending : ∀ k, .timer k ∈ s.wake.pending → s.point = .suspended (some k)
  flagged : InTimedAwait s.point → s.wake.Flagged

lemma timedOk_init (kind : SchedulerKind) : TimedOk (init kind) := by
  refine ⟨.init, fun k hk => ?_, fun k hk => ?_, nofun⟩
  · simp [Firing, init, TimerThread.init] at hk
  · simp [init, TaskWake.init, TaskWake.pending] at hk

lemma timer_resumed (point : TimedPoint) : point.resumed.timer = point.timer := by
  rcases point with _ | _ | (_ | _) | _ | _ <;> rfl

lemma inTimedAwait_of_resumed {point : TimedPoint} (h : InTimedAwait point.resumed) :
    InTimedAwait point := by
  rcases point with _ | _ | (_ | _) | _ | _ <;> simp_all [TimedPoint.resumed, InTimedAwait]

section Steps

variable {s s' : TimedTask}

lemma TimedOk.move (h : TimedOk s) (hpoint : ∀ k, s.point ≠ .suspended (some k))
    (htimers : TimerThreadOk s'.timers s'.point.timer)
    (hhandling : s'.timers.handling = s.timers.handling) (hwake : s'.wake = s.wake)
    (hflagged : InTimedAwait s'.point → s.wake.Flagged) : TimedOk s' := by
  refine ⟨htimers, fun k hk => ?_, fun k hk => ?_, hwake ▸ hflagged⟩
  · unfold Firing at hk
    rw [hhandling] at hk
    exact absurd (h.firing k hk) (hpoint k)
  · rw [hwake] at hk
    exact absurd (h.pending k hk) (hpoint k)

lemma TimedOk.advance (h : TimedOk s) (hs : s.advance = some s') : TimedOk s' := by
  have htimers := h.timers
  unfold TimedTask.advance at hs
  split at hs
  case h_1 hpoint =>
    cases hs
    rw [hpoint] at htimers
    exact h.move (by simp [hpoint]) htimers.addTimer rfl rfl (fun _ => h.flagged (hpoint ▸ trivial))
  case h_2 k hpoint =>
    cases hs
    rw [hpoint] at htimers
    cases hk : s.timers.timeouted k
    · exact h.move (by simp [hpoint]) htimers rfl rfl nofun
    · exact h.move (by simp [hpoint]) (htimers.timedOut hk) rfl rfl nofun
  case h_3 k hpoint =>
    cases hs
    rw [hpoint] at htimers
    exact h.move (by simp [hpoint]) htimers.cancel rfl rfl nofun
  case h_4 => cases hs

lemma TimedOk.wake (h : TimedOk s) {wake : TaskWake TimedWaker}
    (hpending : ∀ k, .timer k ∈ wake.pending → .timer k ∈ s.wake.pending)
    (hflagged : InTimedAwait s.point → wake.Flagged) : TimedOk { s with wake := wake } :=
  ⟨h.timers, h.firing, fun k hk => h.pending k (hpending k hk), hflagged⟩

/-- A suspended task goes on when none of its timers is about to wake it. -/
lemma TimedOk.resumed (h : TimedOk s) {wake : TaskWake TimedWaker}
    (hfiring : ∀ k, s.point = .suspended (some k) → ¬Firing s.timers k)
    (hpending : ∀ k, .timer k ∉ wake.pending) (hflagged : s.wake.Flagged → wake.Flagged) :
    TimedOk { s with wake := wake, point := s.point.resumed } := by
  refine ⟨?_, fun k hk => absurd hk (hfiring k (h.firing k hk)),
    fun k hk => absurd hk (hpending k), fun hw => hflagged (h.flagged (inTimedAwait_of_resumed hw))⟩
  rw [timer_resumed]
  exact h.timers

lemma TimedOk.expire (h : TimedOk s) {k : Nat} {t : TimerThread}
    (hs : s.timers.expire k = some t) : TimedOk { s with timers := t } := by
  refine ⟨h.timers.expire hs, fun j hj => ?_, h.pending, h.flagged⟩
  unfold TimerThread.expire at hs
  split at hs <;> cases hs
  simp [Firing] at hj

lemma TimedOk.handle (h : TimedOk s) (hok : NoOverlap s .handle) {t : TimerThread}
    {wake : TaskWake TimedWaker} (hs : s.timers.handle s.wake .timer = some (t, wake)) :
    TimedOk { s with timers := t, wake := wake } := by
  have htimers := h.timers.handle hs
  have hflagged := fun hw => flagged_handle hs (h.flagged hw)
  rcases handle_cases hs with ⟨k, hk, hc, rfl, hfiring⟩ | ⟨k, hk, rfl, hfiring⟩ | ⟨rfl, hfiring⟩
  · refine ⟨htimers, fun j hj => ?_, h.pending, hflagged⟩
    obtain rfl := hfiring j hj
    -- the timer passes its check while the await has not been resumed
    obtain ⟨hcheck, hcancel⟩ := hok j hk
    have htimer := h.timers.checking j hk hc
    cases hpoint : s.point <;> simp_all [TimedPoint.timer]
  · refine ⟨htimers, fun j hj => absurd hj (hfiring j), fun j hj => ?_, hflagged⟩
    rcases TaskWake.mem_pending_request hj with hj | hj
    · exact h.pending j hj
    · cases hj
      exact h.firing k (.inr (.inr hk))
  · exact ⟨htimers, fun j hj => h.firing j (hfiring j hj), h.pending, hflagged⟩

end Steps

lemma timedOk_step {s s' : TimedTask} {a : TimedAction} (h : TimedOk s) (hok : NoOverlap s a)
    (hs : s.step a = some s') : TimedOk s' := by
  cases a with
  | await timed =>
    simp only [step, Option.ite_none_right_eq_some] at hs
    obtain ⟨⟨-, hpoint⟩, hs⟩ := hs
    cases hs
    have htimers := h.timers
    rw [hpoint] at htimers
    cases timed
    · exact h.move (by simp [hpoint]) htimers rfl rfl nofun
    · exact h.move (by simp [hpoint]) htimers rfl rfl (fun _ => hok rfl)
  | advance =>
    simp only [step, Option.ite_none_right_eq_some] at hs
    exact h.advance hs.2
  | request =>
    cases hs
    refine h.wake (fun k hk => ?_) (fun hw => (h.flagged hw).request _)
    simpa using TaskWake.mem_pending_request hk
  | enqueue =>
    cases hs
    refine h.wake (fun k hk => ?_) (fun hw => absurd hw hok)
    simpa using TaskWake.mem_pending_enqueue hk
  | schedule waker =>
    simp only [step, Option.map_eq_some_iff] at hs
    obtain ⟨wake, hwake, rfl⟩ := hs
    exact h.wake (fun k hk => (TaskWake.perm_schedule hwake).mem_iff.mp hk)
      (fun hw => (h.flagged hw).schedule hwake)
  | pop waker =>
    simp only [step, Option.ite_none_right_eq_some, Option.map_eq_some_iff] at hs
    obtain ⟨-, wake, hwake, rfl⟩ := hs
    exact h.wake (fun k hk => (TaskWake.perm_pop hwake).mem_iff.mp hk)
      (fun hw => (h.flagged hw).pop hwake)
  | resume =>
    simp only [step, Option.ite_none_right_eq_some, Option.map_eq_some_iff] at hs
    obtain ⟨-, wake, hwake, rfl⟩ := hs
    refine h.resumed hok (fun k hk => ?_) (·.resume hwake)
    have hpoint := h.pending k (TaskWake.mem_of_mem_resume hwake hk)
    have hflagged := h.flagged (hpoint ▸ trivial)
    rw [hflagged.pending_resume hwake] at hk
    cases hk
  | resumeInline =>
    simp only [step, Option.ite_none_right_eq_some] at hs
    obtain ⟨-, hs⟩ := hs
    cases hs
    exact h.resumed (fun k hk => (hok k hk).1)
      (fun k hk => (hok k (h.pending k hk)).2 hk) id
  | expire k =>
    simp only [step, Option.ite_none_right_eq_some, Option.map_eq_some_iff] at hs
    obtain ⟨-, t, ht, rfl⟩ := hs
    exact h.expire ht
  | handle =>
    simp only [step, Option.map_eq_some_iff] at hs
    obtain ⟨⟨t, wake⟩, ht, rfl⟩ := hs
    exact h.handle hok ht

lemma timedOk_of_reaches {kind : SchedulerKind} {s : TimedTask}
    (h : Reaches step NoOverlap (init kind) s) : TimedOk s :=
  h.invariant (P := TimedOk) (timedOk_init kind)
    (fun _ _ _ hs hok hstep => timedOk_step hs hok hstep)

lemma TimedOk.out_of_action {s : TimedTask} (hok : TimedOk s) {k : Nat} (hk : Returned s k) :
    .timer k ∉ s.wake.pending ∧ ¬WillWake s.timers k := by
  have hnot : s.point ≠ .suspended (some k) := fun hpoint => hk.2 (by rw [hpoint]; rfl)
  refine ⟨fun hmem => hnot (hok.pending k hmem), ?_⟩
  rintro (hfiring | ⟨harmed | hchecking, hc⟩)
  · exact hnot (hok.firing k hfiring)
  · exact hk.2 ((hok.timers.armed k harmed).2 hc)
  · exact hk.2 (hok.timers.checking k hchecking hc)

/-- Once a timed await has returned, its timer is not going to wake the task, and no wake-up that
it requested is under way. -/
theorem timed_await_leaves_no_wakeup {kind : SchedulerKind} {s : TimedTask}
    (h : Reaches step NoOverlap (init kind) s) {k : Nat} (hk : Returned s k) :
    .timer k ∉ s.wake.pending ∧ ¬WillWake s.timers k :=
  (timedOk_of_reaches h).out_of_action hk

def completedInTime : List TimedAction :=
  [.await true, .advance, .request, .schedule .operation, .pop .operation, .resume, .advance,
    .advance, .await false]

def noCallback (s : TimedTask) : TimedAction → Bool
  | .await _ => s.wake.Flagged
  | .resume => s.timers.handling = none
  | .enqueue | .resumeInline | .handle => false
  | _ => true

lemma noCallback_noOverlap (s : TimedTask) (a : TimedAction) (h : noCallback s a = true) :
    NoOverlap s a := by
  cases a with
  | await timed => exact fun _ => of_decide_eq_true h
  | resume => exact fun k _ hk => by simp_all [noCallback, Firing]
  | enqueue | resumeInline | handle => cases h
  | _ => trivial

theorem completedInTime_leaves_no_wakeup :
    ∃ s, run step (init .compute) completedInTime = some s ∧ Returned s 0 ∧
      .timer 0 ∉ s.wake.pending ∧ ¬WillWake s.timers 0 :=
  ⟨_, rfl, ⟨by decide, by decide⟩, @timed_await_leaves_no_wakeup .compute _
    (Reaches.start.of_run noCallback noCallback_noOverlap completedInTime rfl) 0
    ⟨by decide, by decide⟩⟩

/-- The timer thread passes the check of the callback, the operation completes and the await
returns; then the callback goes on and queues the task, which waits for something else. -/
def lateCallback : List TimedAction :=
  [.await true, .advance, .expire 0, .handle, .request, .schedule .operation, .pop .operation,
    .resume, .advance, .advance, .await false, .handle, .handle, .handle, .schedule (.timer 0)]

/-- The cancelled timer has put the task into the ready queue. -/
theorem late_callback_queues_task : ¬∀ kind s k, Reaches step (fun _ _ => True) (init kind) s →
    Returned s k → .timer k ∉ s.wake.pending ∧ ¬WillWake s.timers k := by
  intro h
  exact (h .compute _ 0 (Reaches.start.of_replay lateCallback rfl)
    ⟨by decide, by decide⟩).1 (by decide)

/-- The thread of an IO scheduler runs a callback only while the task is suspended. -/
structure CallbackAlone (s : TimedTask) : Prop where
  kind : s.kind = .io
  handling : s.timers.handling ≠ none → ∃ timer, s.point = .suspended timer

section CallbackAlone

variable {s s' : TimedTask}

lemma CallbackAlone.not_handling (h : CallbackAlone s) (hfree : s.threadFree = true) :
    s.timers.handling = none := by
  simpa [threadFree, h.kind] using hfree

lemma CallbackAlone.free (h : CallbackAlone s) (hfree : s.threadFree = true)
    (hkind : s'.kind = s.kind) (hhandling : s'.timers.handling = s.timers.handling) :
    CallbackAlone s' :=
  ⟨hkind.trans h.kind, fun hne => absurd (hhandling.trans (h.not_handling hfree)) hne⟩

end CallbackAlone

/-- The timer queues the task; before the scheduler takes the entry, the awaitable resumes the
coroutine directly and the task goes on to another await. -/
def inlineOverQueued : List TimedAction :=
  [.await true, .advance, .expire 0, .handle, .handle, .handle, .handle, .schedule (.timer 0),
    .handle, .resumeInline, .advance, .await false]

/-- The entry of the timer stays in the ready queue. -/
theorem inline_resume_leaves_entry : ∃ s, Reaches step (fun _ _ => True) (init .io) s ∧
    Returned s 0 ∧ .timer 0 ∈ s.wake.ready ∧ s.point = .suspended none :=
  ⟨_, Reaches.start.of_replay inlineOverQueued rfl, ⟨by decide, by decide⟩, by decide, rfl⟩

/-- The task awaits another task and is woken before that task completes. The wake-up resumes it,
and the entry that the completion has made resumes it from its timed await while the timer has
queued it. -/
def leftoverEntry : List TimedAction :=
  [.await false, .request, .schedule .operation, .enqueue, .pop .operation, .resume, .await true,
    .advance, .expire 0, .handle, .handle, .handle, .handle, .schedule (.timer 0), .handle,
    .pop .direct, .resume, .advance, .await false]

/-- The entry of the timer stays in the ready queue although nothing is resumed directly. -/
theorem leftover_entry_leaves_entry : ∃ s, Reaches step (fun _ a => a ≠ .resumeInline) (init .io) s ∧
    Returned s 0 ∧ .timer 0 ∈ s.wake.ready ∧ s.point = .suspended none :=
  ⟨_, Reaches.start.of_run (fun _ a => a ≠ .resumeInline) (fun _ _ => of_decide_eq_true)
    leftoverEntry rfl, ⟨by decide, by decide⟩, by decide, rfl⟩

end GalayKernel.Proofs
