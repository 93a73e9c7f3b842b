import GalayKernel.Proofs.MutexMoves

namespace GalayKernel.Proofs
open AsyncMutex Transition

/-- A waiter of a suspended task goes back into the queue (line 177) only while the mutex is
held or another `unlock()` is still going to look at the queue. -/
def RequeueSeen (s : AsyncMutex) : MutexAction → Prop
  | .run t _ => ∀ w, (s.tasks t).pc = .unlockRequeue w →
      (s.tasks (s.waiter w).task).pc = .suspended w →
      s.locked = true ∨ ∃ u, u ≠ t ∧ (s.tasks u).pc.Looking
  | _ => True

/-- While the mutex is free, somebody looks at the queue or no queued waiter is suspended. -/
def Watched (s : AsyncMutex) : Prop :=
  s.locked = false → (∃ u, (s.tasks u).pc.Looking) ∨
    ∀ w ∈ s.waiters, (s.tasks (s.waiter w).task).pc ≠ .suspended w

lemma watched_of_locked {s : AsyncMutex} (h : s.locked = true) : Watched s := by
  intro hfree
  rw [h] at hfree
  cases hfree

lemma watched_of_looking {s : AsyncMutex} (u : Nat) (h : (s.tasks u).pc.Looking) : Watched s :=
  fun _ => .inl ⟨u, h⟩

lemma Watched.frame {s s' : AsyncMutex} (h : Watched s) (hl : s'.locked = s.locked)
    (hlook : ∀ u, (s.tasks u).pc.Looking → (s'.tasks u).pc.Looking)
    (hq : ∀ w ∈ s'.waiters, (s'.tasks (s'.waiter w).task).pc = .suspended w →
      w ∈ s.waiters ∧ (s.tasks (s.waiter w).task).pc = .suspended w) : Watched s' := by
  intro hfree
  rcases h (hl ▸ hfree) with ⟨u, hu⟩ | hnone
  · exact .inl ⟨u, hlook u hu⟩
  · exact .inr (fun w hw hpc => hnone w (hq w hw hpc).1 (hq w hw hpc).2)

theorem watched_move {s s' : AsyncMutex} {a : MutexAction} (h : Watched s) (hn : NoTimers s)
    (hseen : RequeueSeen s a) (hm : Move s a s') : Watched s' := by
  cases hm with
  | readyFree hpc hlocked => exact watched_of_locked rfl
  | recheckFree hpc hlocked => exact watched_of_locked rfl
  | acquireFree hpc hlocked => exact watched_of_locked rfl
  | readyTaken hpc hlocked => exact watched_of_locked hlocked
  | recheckTimed hpc hlocked => exact watched_of_locked hlocked
  | recheckUntimed hpc hlocked => exact watched_of_locked hlocked
  | acquireTaken hpc hlocked => exact watched_of_locked hlocked
  | @unlockStore t => exact watched_of_looking t (by simp [goto, setTask, MutexPc.Looking])
  | @dequeue t => exact watched_of_looking t (by simp [goto, setTask, MutexPc.Looking])
  | @claim t => exact watched_of_looking t (by simp [goto, setTask, setActive, MutexPc.Looking])
  | @skip t => exact watched_of_looking t (by simp [goto, setTask, MutexPc.Looking])
  | dequeueEmpty hpc hempty =>
    refine fun _ => .inr (fun w hw => ?_)
    change w ∈ s.waiters at hw
    rw [hempty] at hw
    cases hw
  | @requeue t pick w hpc =>
    by_cases hsusp : (s.tasks (s.waiter w).task).pc = .suspended w
    · rcases hseen w hpc hsusp with hlocked | ⟨u, hne, hu⟩
      · exact watched_of_locked hlocked
      · refine watched_of_looking u ?_
        simpa [goto, setTask, Function.update_of_ne hne] using hu
    · refine h.frame rfl (fun u hu => ?_) (fun v hv hpcv => ?_) <;>
        simp only [goto, setTask, Function.update_apply] at * <;> grind [MutexPc.Looking]
  | addTimer hpc => exact absurd (hpc ▸ hn.plain _) (by simp [MutexPc.Plain])
  | _ =>
    refine h.frame rfl (fun u hu => ?_) (fun v hv hpcv => ?_) <;>
      simp only [goto, setTask, setWaiter, setActive, setTimer, returnFrom,
        Function.update_apply] at * <;>
      grind [MutexPc.Looking]

lemma watched_of_reaches {s : AsyncMutex}
    (h : Reaches step (fun s a => s.Untimed a ∧ RequeueSeen s a) init s) :
    CallsOk s ∧ NoTimers s ∧ Watched s := by
  refine h.invariant (P := fun s => CallsOk s ∧ NoTimers s ∧ Watched s)
    ⟨callsOk_init, noTimers_init, fun _ => .inr (fun w hw => by cases hw)⟩ ?_
  rintro s a s' ⟨hc, hn, hw⟩ ⟨ha, hseen⟩ hs
  have hm := move_of_step hs
  exact ⟨callsOk_move hc hm, noTimers_move hn ha hm, watched_move hw hn hseen hm⟩

/-- No waiter is stranded in a run whose put-backs are all seen by somebody. -/
theorem no_stranded_waiter {s : AsyncMutex}
    (h : Reaches step (fun s a => s.Untimed a ∧ RequeueSeen s a) init s) : ¬s.Stranded := by
  rintro ⟨hquiet, hfree, t, w, hpc, hmem, -, -⟩
  obtain ⟨hc, -, hwatched⟩ := watched_of_reaches h
  rcases hwatched hfree with ⟨u, hu⟩ | hnone
  · have hout := hquiet u
    cases hpcu : (s.tasks u).pc <;> simp [hpcu, MutexPc.Outside, MutexPc.Looking] at hout hu
  · have htask : (s.waiter w).task = t := (hc.owner t w (by rw [hpc]; rfl)).1
    exact hnone w hmem (by rw [htask, hpc])

def requeues (s : AsyncMutex) (t : Nat) : Bool :=
  match (s.tasks t).pc with
  | .unlockRequeue _ => true
  | _ => false

def requeueHeld (s : AsyncMutex) (a : MutexAction) : Bool :=
  match a with
  | .run t _ => s.locked || !requeues s t
  | a => !a.timed

lemma requeueHeld_ok (s : AsyncMutex) (a : MutexAction) (h : requeueHeld s a = true) :
    s.Untimed a ∧ RequeueSeen s a := by
  cases a with
  | run t pick =>
    refine ⟨rfl, fun w hpc _ => .inl ?_⟩
    simpa [requeueHeld, requeues, hpc] using h
  | _ => simpa [requeueHeld, RequeueSeen, Untimed] using h

/-- Task 0 unlocks with task 1 waiting, task 2 takes the mutex in between, and the waiter of
task 1 goes back into the queue while task 2 holds the mutex. -/
def putBackRun : List MutexAction :=
  [.lock 0 false, .run 0 0, .lock 1 false, .run 1 0, .run 1 0, .run 1 0,
    .unlock 0, .run 0 0, .run 0 0, .run 0 0, .lock 2 false, .run 2 0, .run 0 0, .run 0 0, .run 0 0]

theorem putBackRun_no_stranded_waiter :
    ∃ s, run step init putBackRun = some s ∧ s.waiters = [0] ∧ ¬s.Stranded :=
  ⟨_, rfl, rfl, no_stranded_waiter (Reaches.start.of_run requeueHeld requeueHeld_ok putBackRun rfl)⟩

/-- The same run, but task 2 unlocks while the waiter is out of the queue and finds the
queue empty; only then is the waiter put back. -/
def strandingRun : List MutexAction :=
  [.lock 0 false, .run 0 0, .lock 1 false, .run 1 0, .run 1 0, .run 1 0,
    .unlock 0, .run 0 0, .run 0 0, .run 0 0, .lock 2 false, .run 2 0, .run 0 0,
    .unlock 2, .run 2 0, .run 2 0, .run 0 0, .run 0 0]

lemma strandingRun_stranded : ∃ s, run (guarded (fun s a => decide (s.Untimed a)) step) init
    strandingRun = some s ∧ s.Stranded := by
  refine ⟨_, rfl, ?_, rfl, 1, 0, rfl, by decide, rfl, rfl⟩
  intro t
  match t with
  | 0 => trivial
  | 1 => trivial
  | 2 => trivial
  | t + 3 => trivial

/-- `unlock()` can leave the mutex free with a suspended task in its queue. -/
theorem unlock_strands_waiter : ¬∀ s, Reaches step Untimed init s → ¬s.Stranded := by
  obtain ⟨s, hrun, hs⟩ := strandingRun_stranded
  intro h
  exact h s (Reaches.start.of_run _ (fun s a => of_decide_eq_true) strandingRun hrun) hs

end GalayKernel.Proofs
