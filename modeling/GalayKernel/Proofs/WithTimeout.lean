import GalayKernel.Lib.Transition
import GalayKernel.WithTimeout

namespace GalayKernel.Proofs
open EventLoop Transition

/-- A timer does not fire while the operation of its await is completed and the task has not
been resumed. -/
def FiresInTime (s : EventLoop) : LoopAction → Prop
  | .fire timer => ∀ task a, s.awaits task = some a → a.timer = timer → a.completed = none
  | _ => True

/-- What a completed await still has to keep, and what the returned ones kept. -/
structure LoopOk (s : EventLoop) : Prop where
  fresh : ∀ task a, s.awaits task = some a → a.timer < s.nextTimer
  completed : ∀ task a r, s.awaits task = some a → a.completed = some r → a.inTime = true →
    a.result = r ∧ (s.timers a.timer).timeouted = false ∧ task ∈ s.queue
  returned : ∀ e ∈ s.returned, ∀ r, e.completed = some r → e.inTime = true → e.result = r

lemma loopOk_init (budget : Nat) : LoopOk (init budget) := by
  refine ⟨fun task a ha => ?_, fun task a r ha => ?_, fun e he => ?_⟩
  · cases ha
  · cases ha
  · cases he

section LoopOk

variable {s s' : EventLoop}

/-- A step that keeps the awaits and what has been returned, and takes no task from the queue. -/
lemma LoopOk.frame (h : LoopOk s) (hawaits : s'.awaits = s.awaits)
    (htimers : ∀ task a, s.awaits task = some a → a.completed ≠ none →
      (s'.timers a.timer).timeouted = (s.timers a.timer).timeouted)
    (hqueue : s.queue ⊆ s'.queue) (hnext : s'.nextTimer = s.nextTimer)
    (hreturned : s'.returned = s.returned) : LoopOk s' := by
  refine ⟨fun task a ha => ?_, fun task a r ha hr hin => ?_, hreturned ▸ h.returned⟩
  · rw [hnext]
    exact h.fresh task a (hawaits ▸ ha)
  · rw [hawaits] at ha
    obtain ⟨hres, htimer, hmem⟩ := h.completed task a r ha hr hin
    refine ⟨hres, ?_, hqueue hmem⟩
    rw [htimers task a ha (by simp [hr]), htimer]

lemma mem_wakeUp {task : Nat} : task ∈ (s.wakeUp task).queue := by
  unfold wakeUp
  split
  · assumption
  · exact List.mem_append_right _ (List.mem_singleton.mpr rfl)

lemma wakeUp_eq (s : EventLoop) (task : Nat) : s.queue ⊆ (s.wakeUp task).queue ∧
    (s.wakeUp task).awaits = s.awaits ∧ (s.wakeUp task).timers = s.timers ∧
    (s.wakeUp task).nextTimer = s.nextTimer ∧ (s.wakeUp task).returned = s.returned := by
  unfold wakeUp
  split
  · exact ⟨List.Subset.refl _, rfl, rfl, rfl, rfl⟩
  · exact ⟨List.subset_append_left _ _, rfl, rfl, rfl, rfl⟩

lemma LoopOk.wakeUp (h : LoopOk s) (task : Nat) : LoopOk (s.wakeUp task) := by
  obtain ⟨hqueue, hawaits, htimers, hnext, hreturned⟩ := wakeUp_eq s task
  exact h.frame hawaits (fun _ _ _ _ => by rw [htimers]) hqueue hnext hreturned

lemma LoopOk.returnNow (h : LoopOk s) (task : Nat) (result : IOResult) :
    LoopOk (s.returnNow task result) := by
  refine ⟨h.fresh, h.completed, fun e he r hr hin => ?_⟩
  rcases List.mem_append.mp he with he | he
  · exact h.returned e he r hr hin
  · rw [List.mem_singleton.mp he] at hr ⊢
    exact Option.some.inj hr

lemma LoopOk.suspend (h : LoopOk s) (task : Nat) (operation : Operation) :
    LoopOk (s.suspend task operation) := by
  refine ⟨fun u a ha => ?_, fun u a r ha hr hin => ?_, h.returned⟩
  · simp only [EventLoop.suspend, Function.update_apply] at ha ⊢
    split at ha
    · cases ha
      exact Nat.lt_succ_self _
    · exact Nat.lt_succ_of_lt (h.fresh u a ha)
  · simp only [EventLoop.suspend, Function.update_apply] at ha ⊢
    split at ha
    · cases ha
      cases hr
    · have hne : a.timer ≠ s.nextTimer := Nat.ne_of_lt (h.fresh u a ha)
      rw [if_neg hne]
      exact h.completed u a r ha hr hin

lemma LoopOk.awaitSuspend (h : LoopOk s) {task : Nat} {operation : Operation}
    {immediate : Option IOResult} (hs : s.awaitSuspend task operation immediate = some s') :
    LoopOk s' := by
  unfold EventLoop.awaitSuspend at hs
  split at hs
  · split at hs
    · cases hs
      exact h.returnNow task _
    · cases hs
      exact h.suspend task _
  · split at hs
    · cases hs
      exact h.returnNow task _
    · split at hs
      · cases hs
      · cases hs
        exact (h.suspend task _).frame rfl (fun _ _ _ _ => rfl) (List.Subset.refl _) rfl rfl

lemma LoopOk.awaitResume {task : Nat} {a : WithTimeout} (h : LoopOk s) (ha : s.awaits task = some a)
    (queue : List Nat) (phase : LoopPhase) (hqueue : ∀ u ∈ s.queue, u ≠ task → u ∈ queue) :
    LoopOk (({ s with queue := queue, phase := phase } : EventLoop).awaitResume task a) := by
  have hother : ∀ u b, Function.update s.awaits task none u = some b →
      s.awaits u = some b ∧ u ≠ task := by
    intro u b hb
    rw [Function.update_apply] at hb
    split at hb
    · cases hb
    · exact ⟨hb, ‹_›⟩
  unfold EventLoop.awaitResume
  simp only
  split
  · rename_i htimeout
    refine ⟨fun u b hb => h.fresh u b (hother u b hb).1, fun u b r hb hr hin => ?_,
      fun e he r hr hin => ?_⟩
    · obtain ⟨hb, hne⟩ := hother u b hb
      obtain ⟨hres, htimer, hmem⟩ := h.completed u b r hb hr hin
      exact ⟨hres, htimer, hqueue u hmem hne⟩
    · rcases List.mem_append.mp he with he | he
      · exact h.returned e he r hr hin
      · -- a timer that fired belongs to no await that was completed in time
        rw [List.mem_singleton.mp he] at hr hin
        have htimer := (h.completed task a r ha hr hin).2.1
        rw [htimeout] at htimer
        cases htimer
  · refine ⟨fun u b hb => h.fresh u b (hother u b hb).1, fun u b r hb hr hin => ?_,
      fun e he r hr hin => ?_⟩
    · obtain ⟨hb, hne⟩ := hother u b hb
      obtain ⟨hres, htimer, hmem⟩ := h.completed u b r hb hr hin
      refine ⟨hres, ?_, hqueue u hmem hne⟩
      simp only [Function.update_apply]
      split
      · rename_i heq
        rw [← heq]
        exact htimer
      · exact htimer
    · rcases List.mem_append.mp he with he | he
      · exact h.returned e he r hr hin
      · rw [List.mem_singleton.mp he] at hr hin ⊢
        exact (h.completed task a r ha hr hin).1

lemma LoopOk.store {task : Nat} {a : WithTimeout} (h : LoopOk s) (ha : s.awaits task = some a)
    (result : IOResult) : LoopOk ((s.store task a result).wakeUp task) := by
  obtain ⟨hqueue, hawaits, htimers, hnext, hreturned⟩ := wakeUp_eq (s.store task a result) task
  refine ⟨fun u b hb => ?_, fun u b r hb hr hin => ?_, hreturned ▸ h.returned⟩
  · rw [hawaits] at hb
    rw [hnext]
    simp only [EventLoop.store, Function.update_apply] at hb
    split at hb
    · cases hb
      exact h.fresh task a ha
    · exact h.fresh u b hb
  · rw [hawaits] at hb
    rw [htimers]
    simp only [EventLoop.store, Function.update_apply] at hb
    split at hb
    · rename_i hu
      cases hb
      refine ⟨Option.some.inj hr, by simpa [EventLoop.store] using hin, ?_⟩
      rw [hu]
      exact mem_wakeUp
    · obtain ⟨hres, htimer, hmem⟩ := h.completed u b r hb hr hin
      exact ⟨hres, htimer, hqueue hmem⟩

lemma LoopOk.handleTimeout {timer : Nat} (h : LoopOk s)
    (hfire : ∀ task a, s.awaits task = some a → a.timer = timer → a.completed = none) :
    LoopOk (s.handleTimeout timer) := by
  have hother : ∀ (t : TimeoutTimer) task a, s.awaits task = some a → a.completed ≠ none →
      (Function.update s.timers timer t a.timer).timeouted = (s.timers a.timer).timeouted := by
    intro t task a ha hc
    rw [Function.update_of_ne (fun heq => hc (hfire task a ha heq))]
  have hflags : ∀ t, LoopOk { s with timers := Function.update s.timers timer t } :=
    fun t => h.frame rfl (hother t) (List.Subset.refl _) rfl rfl
  unfold EventLoop.handleTimeout
  dsimp only
  split
  · exact (hflags _).wakeUp _
  · exact hflags _

lemma LoopOk.notify (h : LoopOk s) (w : Nat) : LoopOk (s.notify w) := by
  have hwaiters : ∀ waiters, LoopOk { s with waiters := waiters } :=
    fun _ => h.frame rfl (fun _ _ _ _ => rfl) (List.Subset.refl _) rfl rfl
  unfold EventLoop.notify
  simp only
  split
  · exact h
  · split
    · split
      · split
        · exact (hwaiters _).store ‹_› _
        · exact (hwaiters _).wakeUp _
      · exact (hwaiters _).wakeUp _
    · exact hwaiters _

end LoopOk

/-- What one step of the loop preserves. -/
theorem loopOk_step {s s' : EventLoop} {a : LoopAction} (h : LoopOk s) (hok : FiresInTime s a)
    (hs : step s a = some s') : LoopOk s' := by
  have hphase : ∀ phase, LoopOk { s with phase := phase } :=
    fun _ => h.frame rfl (fun _ _ _ _ => rfl) (List.Subset.refl _) rfl rfl
  cases a with
  | await task operation immediate =>
    simp only [step] at hs
    split at hs
    · split at hs
      · exact h.awaitSuspend hs
      · cases hs
    · cases hs
  | resume task =>
    simp only [step] at hs
    split at hs
    · split at hs
      · have hqueue : ∀ u ∈ s.queue, u ≠ task → u ∈ s.queue.erase task :=
          fun u hu hne => (List.mem_erase_of_ne hne).mpr hu
        split at hs
        · cases hs
          exact h.awaitResume ‹_› _ _ hqueue
        · rename_i hnone
          cases hs
          refine ⟨h.fresh, fun u b r hb hr hin => ?_, h.returned⟩
          obtain ⟨hres, htimer, hmem⟩ := h.completed u b r hb hr hin
          refine ⟨hres, htimer, hqueue u hmem (fun heq => ?_)⟩
          rw [heq] at hb
          exact Option.some_ne_none b (hb.symm.trans hnone)
      · cases hs
    · cases hs
  | endPasses =>
    simp only [step] at hs
    split at hs
    · split at hs
      · cases hs
        exact hphase _
      · cases hs
    · cases hs
  | fire timer =>
    simp only [step] at hs
    split at hs
    · cases hs
      have hwheel : LoopOk { s with wheel := s.wheel.erase timer } :=
        h.frame rfl (fun _ _ _ _ => rfl) (List.Subset.refl _) rfl rfl
      exact hwheel.handleTimeout hok
    · cases hs
  | endTick =>
    simp only [step] at hs
    split at hs
    · cases hs
      exact hphase _
    · cases hs
  | complete task result =>
    simp only [step] at hs
    split at hs
    · split at hs
      · cases hs
        exact h.store ‹_› result
      · cases hs
    · cases hs
  | endPoll =>
    simp only [step] at hs
    split at hs
    · cases hs
      exact hphase _
    · cases hs
  | notify w =>
    cases hs
    exact h.notify w

lemma loopOk_of_reaches {budget : Nat} {s : EventLoop}
    (h : Reaches step FiresInTime (init budget) s) : LoopOk s :=
  h.invariant (P := LoopOk) (loopOk_init budget) (fun _ _ _ hs hok hstep => loopOk_step hs hok hstep)

/-- The loop comes to the ready passes when a task is queued, without firing a timer. -/
lemma reaches_passes {s : EventLoop} (hqueue : s.queue ≠ []) :
    ∃ ran, Reaches step FiresInTime s { s with phase := .passes ran } := by
  rcases hphase : s.phase with ran | _ | _
  · refine ⟨ran, ?_⟩
    rw [← hphase]
    exact .start
  · refine ⟨0, Reaches.start.next (a := .endTick) trivial ?_⟩
    simp only [step, hphase, if_true, if_neg hqueue]
  · refine ⟨0, Reaches.start.next (a := .endPoll) trivial ?_⟩
    simp only [step, hphase, if_true]

/-- Resuming a task whose operation completed in time returns the result. -/
lemma resume_returns {s : EventLoop} {task ran : Nat} {a : WithTimeout} {r : IOResult}
    (h : LoopOk s) (hphase : s.phase = .passes ran) (ha : s.awaits task = some a)
    (hr : a.completed = some r) (hin : a.inTime = true) :
    ∃ s', step s (.resume task) = some s' ∧ ⟨task, r, some r, true⟩ ∈ s'.returned := by
  obtain ⟨hres, htimer, hmem⟩ := h.completed task a r ha hr hin
  refine ⟨({ s with queue := s.queue.erase task, phase := .passes (ran + 1) } :
    EventLoop).awaitResume task a, ?_, ?_⟩
  · simp only [step, hphase, if_pos hmem, ha]
  · simp only [EventLoop.awaitResume, htimer, hres, hr, hin]
    exact List.mem_append_right _ (List.mem_singleton.mpr rfl)

/-- If no timer fires while its operation is completed, every operation that completed before
its timer fired gives its result to the `co_await`: an await that has returned returned it, and
the task of one that has not is queued and is resumed with it by the next ready pass that takes
the task. -/
theorem timeout_keeps_completed_result {budget : Nat} {s : EventLoop}
    (h : Reaches step FiresInTime (init budget) s) :
    (∀ e ∈ s.returned, ∀ r, e.completed = some r → e.inTime = true → e.result = r) ∧
      ∀ task a r, s.awaits task = some a → a.completed = some r → a.inTime = true →
        task ∈ s.queue ∧ ∃ s', Reaches step FiresInTime s s' ∧
          ⟨task, r, some r, true⟩ ∈ s'.returned := by
  have hok := loopOk_of_reaches h
  refine ⟨hok.returned, fun task a r ha hr hin => ?_⟩
  obtain ⟨-, -, hmem⟩ := hok.completed task a r ha hr hin
  refine ⟨hmem, ?_⟩
  obtain ⟨ran, hreach⟩ := reaches_passes (List.ne_nil_of_mem hmem)
  obtain ⟨s', hs', hret⟩ := resume_returns (s := { s with phase := .passes ran })
    (loopOk_of_reaches (h.trans hreach)) rfl ha hr hin
  exact ⟨s', hreach.next (a := .resume task) trivial hs', hret⟩

/-- Task 0 waits for a signal and task 1 for its socket. The socket is reported in a poll and the
signal comes before a tick. -/
def timedAwaitsRun : List LoopAction :=
  [.await 0 (.signal 0) none, .await 1 .io none, .endPasses, .endTick, .complete 1 (.value 42),
    .endPoll, .resume 1, .endPasses, .notify 0]

def noFire (_ : EventLoop) : LoopAction → Bool
  | .fire _ => false
  | _ => true

lemma noFire_firesInTime (s : EventLoop) (a : LoopAction) (h : noFire s a = true) :
    FiresInTime s a := by
  cases a <;> trivial

theorem timedAwaitsRun_keeps_result :
    ∃ s, run step (init 1) timedAwaitsRun = some s ∧
      s.returned = [⟨1, .value 42, some (.value 42), true⟩] ∧
      ∃ s', Reaches step FiresInTime s s' ∧ ⟨0, .value 0, some (.value 0), true⟩ ∈ s'.returned :=
  ⟨_, rfl, rfl, ((@timeout_keeps_completed_result 1 _ (Reaches.start.of_run noFire
    noFire_firesInTime timedAwaitsRun rfl)).2 0 ⟨.signal 0, .value 0, 0, some (.value 0), true⟩
    (.value 0) rfl rfl rfl).2⟩

/-- A signal arrives between the ready passes and the tick, and the tick finds the timer
expired. -/
def signalThenTimeout : List LoopAction :=
  [.await 0 (.signal 0) none, .endPasses, .notify 0, .fire 0, .endTick, .resume 0]

/-- `await_resume` finds the flag of the timer and overwrites the result. -/
theorem timeout_discards_signal : ¬∀ budget s, Reaches step (fun _ _ => True) (init budget) s →
    ∀ e ∈ s.returned, ∀ r, e.completed = some r → e.inTime = true → e.result = r := by
  intro h
  have hres := h 1 _ (Reaches.start.of_replay signalThenTimeout rfl)
    ⟨0, .error .kTimeout, some (.value 0), true⟩ (by decide) (.value 0) rfl rfl
  cases hres

end GalayKernel.Proofs
