import GalayKernel.Proofs.MutexMoves

/-!
# Mutual exclusion

The mutex is a single token that changes hands: a successful `tryLock()` creates it, a
`store(false)` destroys it, and in between it is with a holder, with a task about to return
from `lock()`, with an `unlock()` about to wake its waiter, or with a wake-up that is still
to be delivered. A wake-up through a stale queue entry carries the token like any other.
-/

namespace GalayKernel.Proofs
open AsyncMutex Transition

/-- The ways a task can own the mutex. -/
inductive Role where
  | holder
  | releasing
  | acquiring
  | handing
  | woken
  deriving DecidableEq, Repr

/-- The role a program point gives its task. -/
def pcRole : MutexPc → Option Role
  | .unlockStore => some .releasing
  | .selfCancel _ | .loadTimeouted _ | .cancelTimer _ | .markTimeout _ | .awaitResume _ _ =>
    some .acquiring
  | .unlockWake _ => some .handing
  | _ => none

/-- The task `x.1` owns the mutex in the role `x.2`. -/
def HasRole (s : AsyncMutex) (x : Nat × Role) : Prop :=
  (x.2 = .holder ∧ (s.tasks x.1).holds = true) ∨
    (x.2 = .woken ∧ (s.tasks x.1).wokenByUnlock = true) ∨ pcRole (s.tasks x.1).pc = some x.2

lemma hasRole_pc {s : AsyncMutex} {t : Nat} {role : Role} (h : pcRole (s.tasks t).pc = some role) :
    HasRole s (t, role) := .inr (.inr h)

/-- At most one task owns the mutex, in one role, and only while `m_locked` is set. -/
structure Owned (s : AsyncMutex) : Prop where
  exclusive : Exclusive (HasRole s)
  locked : ∀ x, HasRole s x → s.locked = true

lemma owned_init : Owned init := by
  have hnone : ∀ x, ¬HasRole init x := by
    rintro ⟨t, role⟩ (⟨-, h⟩ | ⟨-, h⟩ | h) <;> cases h
  exact ⟨fun x y hx => absurd hx (hnone x), fun x hx => absurd hx (hnone x)⟩

lemma Owned.mono {s s' : AsyncMutex} (h : Owned s) (hl : s'.locked = s.locked)
    (hr : ∀ x, HasRole s' x → HasRole s x) : Owned s' where
  exclusive := h.exclusive.mono hr
  locked x hx := hl ▸ h.locked x (hr x hx)

lemma Owned.move {s s' : AsyncMutex} (h : Owned s) (old new : Nat × Role) (hold : HasRole s old)
    (hl : s'.locked = s.locked)
    (hr : ∀ x, HasRole s' x → x = new ∨ (HasRole s x ∧ x ≠ old)) : Owned s' where
  exclusive := h.exclusive.move old new hold hr
  locked _ _ := hl ▸ h.locked old hold

lemma Owned.acquire {s s' : AsyncMutex} (h : Owned s) (hfree : s.locked = false)
    (new : Nat × Role) (hl : s'.locked = true)
    (hr : ∀ x, HasRole s' x → x = new ∨ HasRole s x) : Owned s' where
  exclusive := by
    apply exclusive_of_only new
    intro x hx
    rcases hr x hx with rfl | hs
    · rfl
    · rw [h.locked x hs] at hfree
      cases hfree
  locked _ _ := hl

lemma Owned.release {s s' : AsyncMutex} (h : Owned s) (old : Nat × Role) (hold : HasRole s old)
    (hr : ∀ x, HasRole s' x → HasRole s x ∧ x ≠ old) : Owned s' := by
  have hnone : ∀ x, ¬HasRole s' x := fun x hx =>
    (hr x hx).2 (h.exclusive x old (hr x hx).1 hold)
  exact ⟨fun x y hx => absurd hx (hnone x), fun x hx => absurd hx (hnone x)⟩

theorem owned_move {s s' : AsyncMutex} {a : MutexAction} (h : Owned s) (hn : NoTimers s)
    (hm : Move s a s') : Owned s' := by
  cases hm with
  | @readyFree t pick timed hpc hlocked =>
    refine h.acquire hlocked (t, .holder) rfl (fun x hx => ?_)
    simp only [HasRole, setTask, Function.update_apply] at *
    grind [pcRole]
  | @recheckFree t pick w hpc hlocked =>
    refine h.acquire hlocked (t, .acquiring) rfl (fun x hx => ?_)
    simp only [HasRole, goto, setTask, setWaiter, lockFor, Function.update_apply] at *
    grind [pcRole]
  | @acquireFree t pick w hpc hlocked =>
    refine h.acquire hlocked (t, .handing) rfl (fun x hx => ?_)
    simp only [HasRole, goto, setTask, setWaiter, lockFor, Function.update_apply] at *
    grind [pcRole]
  | @unlock t hpc hholds =>
    refine h.move (t, .holder) (t, .releasing) (.inl ⟨rfl, hholds⟩) rfl (fun x hx => ?_)
    simp only [HasRole, setTask, Function.update_apply] at *
    grind [pcRole]
  | @unlockStore t pick hpc =>
    refine h.release (t, .releasing) (hasRole_pc (by rw [hpc]; rfl)) (fun x hx => ?_)
    simp only [HasRole, goto, setTask, Function.update_apply] at *
    grind [pcRole]
  | @resumeUntimed t w hpc hwoken htimed =>
    have hw : (s.tasks t).wokenByUnlock = true := by
      rcases hwoken with hw | hw
      · exact hw
      · rw [hn.woken] at hw
        cases hw
    refine h.move (t, .woken) (t, .acquiring) (.inr (.inl ⟨rfl, hw⟩)) rfl (fun x hx => ?_)
    simp only [HasRole, setTask, Function.update_apply] at *
    grind [pcRole]
  | @awaitResume t pick w result hpc =>
    refine h.move (t, .acquiring) (t, .holder) (hasRole_pc (by rw [hpc]; rfl)) rfl (fun x hx => ?_)
    simp only [HasRole, returnFrom, setTask, setWaiter, Function.update_apply] at *
    grind [pcRole]
  | @wake t pick w u hpc hu =>
    refine h.move (t, .handing) (u, .woken) (hasRole_pc (by rw [hpc]; rfl)) rfl (fun x hx => ?_)
    simp only [HasRole, goto, setTask, Function.update_apply] at *
    grind [pcRole]
  | @resumeTimed t w hpc hwoken htimed =>
    rw [(hn.waiter w).1] at htimed
    cases htimed
  | _ =>
    refine h.mono rfl (fun x hx => ?_)
    simp only [HasRole, goto, setTask, setWaiter, setActive, setTimer, Function.update_apply] at *
    grind [pcRole]

lemma owned_of_reaches {s : AsyncMutex} (h : Reaches step Untimed init s) :
    NoTimers s ∧ Owned s := by
  refine h.invariant (P := fun s => NoTimers s ∧ Owned s) ⟨noTimers_init, owned_init⟩ ?_
  rintro s a s' ⟨hn, ho⟩ ha hs
  have hm := move_of_step hs
  exact ⟨noTimers_move hn ha hm, owned_move ho hn hm⟩

/-- Two tasks never hold the mutex at once, and `m_locked` is set while one does. -/
theorem mutual_exclusion {s : AsyncMutex} (h : Reaches step Untimed init s) {t : Nat}
    (ht : (s.tasks t).holds = true) :
    s.locked = true ∧ ∀ u, (s.tasks u).holds = true → u = t := by
  obtain ⟨-, ho⟩ := owned_of_reaches h
  refine ⟨ho.locked (t, .holder) (.inl ⟨rfl, ht⟩), fun u hu => ?_⟩
  have heq := ho.exclusive (u, .holder) (t, .holder) (.inl ⟨rfl, hu⟩) (.inl ⟨rfl, ht⟩)
  exact congrArg Prod.fst heq

/-- Task 0 unlocks with task 1 waiting, and task 1 is resumed as the new owner. -/
def handOffRun : List MutexAction :=
  [.lock 0 false, .run 0 0, .lock 1 false, .run 1 0, .run 1 0, .run 1 0,
    .unlock 0, .run 0 0, .run 0 0, .run 0 0, .run 0 0, .run 0 0, .resume 1, .run 1 0]

theorem handOffRun_mutual_exclusion : ∃ s, run step init handOffRun = some s ∧
    (s.tasks 1).holds = true ∧ s.locked = true ∧ ∀ u, (s.tasks u).holds = true → u = 1 :=
  ⟨_, rfl, rfl, mutual_exclusion
    (Reaches.start.of_run _ (fun _ _ => of_decide_eq_true) handOffRun rfl) rfl⟩

end GalayKernel.Proofs
