import GalayKernel.Proofs.MutexMoves

/-!
# A locked mutex has an owner

`unlock()` takes the mutex on behalf of a waiter and then wakes its task. The timer of the
call is not part of that hand-off: if it fires before the task is resumed, the call returns
the timeout error although the mutex was taken for it. This file proves that the mutex has
an owner as long as no timer fires in that window and no mutex is taken for a call that has
timed out or returned, and exhibits the orphaned mutex otherwise.
-/

namespace GalayKernel.Proofs
open AsyncMutex Transition

/-- `unlock()` takes the mutex only for a call that is pending and has not timed out, and no
timer fires once the mutex has been taken for its call. -/
def InTime (s : AsyncMutex) : MutexAction → Prop
  | .run t _ => ∀ w, (s.tasks t).pc = .unlockAcquire w → s.locked = false →
      (s.waiter w).result = none ∧ (s.waiter w).timer.timeouted = false
  | .expire w => (s.waiter w).acquired = false
  | _ => True

/-- Some continuation makes the call of `w` return success. -/
def Returns (ok : AsyncMutex → MutexAction → Prop) (s : AsyncMutex) (w : Nat) : Prop :=
  ∃ s', Reaches step ok s s' ∧ (s'.waiter w).result = some .success

/-- The call of `w` can return success, and no continuation makes it return the timeout error. -/
def WillSucceed (ok : AsyncMutex → MutexAction → Prop) (s : AsyncMutex) (w : Nat) : Prop :=
  Returns ok s w ∧ ∀ s', Reaches step ok s s' → (s'.waiter w).result ≠ some .timeout

/-- A task holds the mutex, or a suspended task was woken as its owner. -/
def HasOwner (ok : AsyncMutex → MutexAction → Prop) (s : AsyncMutex) : Prop :=
  (∃ t, (s.tasks t).holds = true) ∨
    ∃ t w, (s.tasks t).pc = .suspended w ∧ (s.tasks t).wokenByUnlock = true ∧
      (s.tasks t).queued = true ∧ WillSucceed ok s w

/-- The program points on the way to the timeout error. -/
def MarksTimeout (w : Nat) (pc : MutexPc) : Prop := pc = .markTimeout w ∨ pc = .awaitResume w .timeout

/-- A call for which the mutex was taken has not timed out and will not. -/
structure TimersOk (s : AsyncMutex) : Prop where
  acquired : ∀ w, (s.waiter w).acquired = true → (s.waiter w).timer.timeouted = false
  unarmed : ∀ t w, (s.tasks t).pc = .recheck w → (s.waiter w).timer = .unarmed
  marked : ∀ t w, MarksTimeout w (s.tasks t).pc → (s.waiter w).timer.timeouted = true
  returned : ∀ w, (s.waiter w).result = some .timeout → (s.waiter w).acquired = false

lemma timersOk_init : TimersOk init where
  acquired _ h := by cases h
  unarmed _ _ h := by cases h
  marked _ _ h := by rcases h with h | h <;> cases h
  returned _ h := by cases h

lemma timeouted_cancel (timer : WaitTimer) : timer.cancel.timeouted = timer.timeouted := by
  cases timer <;> rfl

lemma TimersOk.frame {s s' : AsyncMutex} (h : TimersOk s)
    (hw : ∀ w, (s'.waiter w).acquired = (s.waiter w).acquired ∧
      (s'.waiter w).timer.timeouted = (s.waiter w).timer.timeouted ∧
      (s'.waiter w).result = (s.waiter w).result)
    (hu : ∀ t w, (s'.tasks t).pc = .recheck w →
      (s.tasks t).pc = .recheck w ∧ (s'.waiter w).timer = (s.waiter w).timer)
    (hm : ∀ t w, MarksTimeout w (s'.tasks t).pc →
      MarksTimeout w (s.tasks t).pc ∨ (s.waiter w).timer.timeouted = true) : TimersOk s' where
  acquired w hi := by
    rw [(hw w).1] at hi
    rw [(hw w).2.1]
    exact h.acquired w hi
  unarmed t w hi := by
    rw [(hu t w hi).2]
    exact h.unarmed t w (hu t w hi).1
  marked t w hi := by
    rw [(hw w).2.1]
    exact (hm t w hi).elim (h.marked t w) id
  returned w hi := by
    rw [(hw w).2.2] at hi
    rw [(hw w).1]
    exact h.returned w hi

lemma TimersOk.update {s s' : AsyncMutex} {t w : Nat} (h : TimersOk s)
    (hother : ∀ v ≠ w, s'.waiter v = s.waiter v)
    (htasks : ∀ u ≠ t, (s'.tasks u).pc = (s.tasks u).pc)
    (hacq : (s'.waiter w).acquired = true → (s'.waiter w).timer.timeouted = false)
    (hret : (s'.waiter w).result = some .timeout → (s'.waiter w).acquired = false)
    (hrecheck : ∀ u, (s'.tasks u).pc = .recheck w → (s'.waiter w).timer = .unarmed)
    (hmarks : ∀ u, MarksTimeout w (s'.tasks u).pc → (s'.waiter w).timer.timeouted = true)
    (ht : ∀ v ≠ w, (s'.tasks t).pc ≠ .recheck v ∧ ¬MarksTimeout v (s'.tasks t).pc) :
    TimersOk s' where
  acquired v hi := by
    by_cases hv : v = w
    · subst hv
      exact hacq hi
    · rw [hother v hv] at hi ⊢
      exact h.acquired v hi
  unarmed u v hi := by
    by_cases hv : v = w
    · subst hv
      exact hrecheck u hi
    · have hu : u ≠ t := by
        rintro rfl
        exact (ht v hv).1 hi
      rw [hother v hv]
      rw [htasks u hu] at hi
      exact h.unarmed u v hi
  marked u v hi := by
    by_cases hv : v = w
    · subst hv
      exact hmarks u hi
    · have hu : u ≠ t := by
        rintro rfl
        exact (ht v hv).2 hi
      rw [hother v hv]
      rw [htasks u hu] at hi
      exact h.marked u v hi
  returned v hi := by
    by_cases hv : v = w
    · subst hv
      exact hret hi
    · rw [hother v hv] at hi ⊢
      exact h.returned v hi

/-- A program point without obligations on the timer. -/
def Calm : MutexPc → Prop
  | .recheck _ | .markTimeout _ | .awaitResume _ .timeout => False
  | _ => True

lemma Calm.not_marks {pc : MutexPc} {w : Nat} (h : Calm pc) : ¬MarksTimeout w pc := by
  rintro (rfl | rfl)
  · exact h
  · exact h

lemma TimersOk.setTask {s : AsyncMutex} (h : TimersOk s) {t : Nat} {task : MutexTask}
    (hcalm : Calm task.pc ∨ task.pc = (s.tasks t).pc) : TimersOk (s.setTask t task) := by
  have hpc : ∀ u, Calm ((s.setTask t task).tasks u).pc ∨
      ((s.setTask t task).tasks u).pc = (s.tasks u).pc := by
    intro u
    simp only [AsyncMutex.setTask, Function.update_apply]
    split
    · next hu => exact hu ▸ hcalm
    · exact .inr rfl
  refine h.frame (fun _ => ⟨rfl, rfl, rfl⟩) (fun u w hu => ?_) (fun u w hu => ?_)
  · rcases hpc u with hc | hc
    · rw [hu] at hc
      exact hc.elim
    · exact ⟨hc.symm.trans hu, rfl⟩
  · rcases hpc u with hc | hc
    · exact absurd hu hc.not_marks
    · exact .inl (hc ▸ hu)

lemma TimersOk.goto {s : AsyncMutex} (h : TimersOk s) (t : Nat) (pc : MutexPc) (hcalm : Calm pc) :
    TimersOk (s.goto t pc) :=
  h.setTask (.inl hcalm)

lemma TimersOk.goto_marks {s : AsyncMutex} (h : TimersOk s) {t w : Nat} {pc : MutexPc}
    (hpc : MarksTimeout w pc) (hout : (s.waiter w).timer.timeouted = true) :
    TimersOk (s.goto t pc) := by
  refine h.frame (fun _ => ⟨rfl, rfl, rfl⟩) (fun u v hu => ?_) (fun u v hu => ?_)
  · rcases Threads.of_update (P := fun x : MutexTask => x.pc = .recheck v) hu with
      ⟨-, hv⟩ | ⟨-, hv⟩
    · rcases hpc with rfl | rfl <;> cases hv
    · exact ⟨hv, rfl⟩
  · rcases Threads.of_update (P := fun x : MutexTask => MarksTimeout v x.pc) hu with
      ⟨-, hv⟩ | ⟨-, hv⟩
    · rcases hpc with rfl | rfl <;> rcases hv with hv | hv <;> cases hv <;> exact .inr hout
    · exact .inl hv

lemma TimersOk.of_same {s s' : AsyncMutex} (h : TimersOk s)
    (hw : ∀ w, (s'.waiter w).acquired = (s.waiter w).acquired ∧
      (s'.waiter w).timer = (s.waiter w).timer ∧ (s'.waiter w).result = (s.waiter w).result)
    (ht : s'.tasks = s.tasks) : TimersOk s' := by
  refine h.frame (fun w => ?_) (fun t w hpc => ?_) (fun t w hpc => ?_)
  · obtain ⟨hacquired, htimer, hresult⟩ := hw w
    exact ⟨hacquired, by rw [htimer], hresult⟩
  · exact ⟨ht ▸ hpc, (hw w).2.1⟩
  · exact .inl (ht ▸ hpc)

lemma TimersOk.setActive {s : AsyncMutex} (h : TimersOk s) (w : Nat) (value : Bool) :
    TimersOk (s.setActive w value) := by
  refine h.of_same (fun i => ?_) rfl
  simp only [AsyncMutex.setActive, setWaiter, Function.update_apply]
  split
  · next hi => exact ⟨hi ▸ rfl, hi ▸ rfl, hi ▸ rfl⟩
  · exact ⟨rfl, rfl, rfl⟩

theorem timersOk_move {s s' : AsyncMutex} {a : MutexAction} (h : TimersOk s) (hc : CallsOk s)
    (hin : InTime s a) (hm : Move s a s') : TimersOk s' := by
  have howner := hc.owner
  cases hm with
  | @enqueue t _ _ hpc =>
    have hnew : ∀ u, (s.tasks u).pc.call ≠ some s.nextWaiter :=
      fun u hu => Nat.lt_irrefl _ (howner u _ hu).2.1
    refine h.update (t := t) (w := s.nextWaiter) ?_ ?_ ?_ ?_ ?_ ?_ ?_ <;>
      simp only [goto, setTask, setWaiter, MarksTimeout, Function.update_apply] <;>
      grind [MutexPc.call]
  | @recheckFree t _ w hpc =>
    have hcall : (s.tasks t).pc.call = some w := by rw [hpc]; rfl
    have htimer := h.unarmed t w hpc
    have hres := (howner t w hcall).2.2
    have hsame := fun u => hc.same_task (u := u) hcall
    refine h.update (t := t) (w := w) ?_ ?_ ?_ ?_ ?_ ?_ ?_ <;>
      simp only [goto, setTask, setWaiter, lockFor, MarksTimeout, Function.update_apply] <;>
      grind [MutexPc.call, WaitTimer.timeouted]
  | @addTimer t _ w hpc =>
    have hcall : (s.tasks t).pc.call = some w := by rw [hpc]; rfl
    have hres := (howner t w hcall).2.2
    have hsame := fun u => hc.same_task (u := u) hcall
    refine h.update (t := t) (w := w) ?_ ?_ ?_ ?_ ?_ ?_ ?_ <;>
      simp only [goto, setTask, setWaiter, setTimer, MarksTimeout, Function.update_apply] <;>
      grind [MutexPc.call, WaitTimer.timeouted]
  | @awaitResume t _ w result hpc =>
    have hcall : (s.tasks t).pc.call = some w := by rw [hpc]; rfl
    have hsame := fun u => hc.same_task (u := u) hcall
    have hacq := h.acquired w
    have hmark := h.marked t w
    refine h.update (t := t) (w := w) ?_ ?_ ?_ ?_ ?_ ?_ ?_ <;>
      simp only [setTask, setWaiter, returnFrom, MarksTimeout, Function.update_apply] at hmark ⊢ <;>
      grind [MutexPc.call]
  | @acquireFree t _ w hpc hlocked =>
    obtain ⟨hres, htimer⟩ := hin w hpc hlocked
    have hrecheck := fun u => h.unarmed u w
    have hmark := fun u => h.marked u w
    refine h.update (t := t) (w := w) ?_ ?_ ?_ ?_ ?_ ?_ ?_ <;>
      simp only [goto, setTask, setWaiter, lockFor, MarksTimeout, Function.update_apply] at hmark ⊢ <;>
      grind
  | @expire w harmed hpending =>
    have hacq : (s.waiter w).acquired = false := hin
    obtain ⟨ha, hu, hk, hr⟩ := h
    refine ⟨?_, ?_, ?_, ?_⟩ <;>
      simp only [setWaiter, setTimer, MarksTimeout, Function.update_apply] at hk ⊢ <;>
      grind [WaitTimer.timeouted]
  | @cancelTimer t _ w hpc =>
    have hcall : (s.tasks t).pc.call = some w := by rw [hpc]; rfl
    have hsame := fun u => hc.same_task (u := u) hcall
    refine h.frame (fun i => ?_) (fun i j => ?_) (fun i j => ?_) <;>
      simp only [goto, setTask, setWaiter, setTimer, MarksTimeout, Function.update_apply] <;>
      grind [MutexPc.call, timeouted_cancel]
  | @timerWake w _ hexpired _ =>
    have hrecheck := fun u => h.unarmed u w
    refine h.frame (fun i => ?_) (fun i j => ?_) (fun i j => ?_) <;>
      simp only [setTask, setWaiter, setTimer, MarksTimeout, Function.update_apply] <;>
      grind [WaitTimer.timeouted]
  | lock | park | readyTaken | recheckTimed | recheckUntimed | notTimeouted | dequeueEmpty | skip
  | acquireTaken => exact h.goto _ _ trivial
  | unlock | resumeParked | resumeTimed | resumeUntimed => exact h.setTask (.inl trivial)
  | wakeOther => exact h.setTask (.inr rfl)
  | @readyFree t =>
    have hset : TimersOk (s.setTask t { s.tasks t with pc := .idle, holds := true }) :=
      h.setTask (.inl trivial)
    exact hset.of_same (fun _ => ⟨rfl, rfl, rfl⟩) rfl
  | @selfCancel t _ w =>
    refine (h.setActive w false).goto t _ ?_
    split <;> trivial
  | claim | restore => exact (h.setActive _ _).goto _ _ trivial
  | unlockStore =>
    exact (h.goto _ .unlockDequeue trivial).of_same (fun _ => ⟨rfl, rfl, rfl⟩) rfl
  | @dequeue t _ w =>
    exact (h.goto t (.unlockClaim w) trivial).of_same (fun _ => ⟨rfl, rfl, rfl⟩) rfl
  | requeue => exact (h.goto _ .idle trivial).of_same (fun _ => ⟨rfl, rfl, rfl⟩) rfl
  | @wake t _ w u =>
    have hset : TimersOk (s.setTask u { s.tasks u with queued := true, wokenByUnlock := true }) :=
      h.setTask (.inr rfl)
    exact hset.goto t _ trivial
  | timeouted _ hout => exact h.goto_marks (.inl rfl) hout
  | @markTimeout t _ w hpc =>
    refine (h.setActive w false).goto_marks (.inr rfl) ?_
    simpa [setActive, setWaiter] using h.marked t w (.inl hpc)

/-- The mutex was taken for the call of `w`, which has not returned yet. -/
def Pending (s : AsyncMutex) (w : Nat) : Prop :=
  w < s.nextWaiter ∧ (s.waiter w).acquired = true ∧ (s.waiter w).result = none

/-- Whoever set `m_locked` still holds it or is about to return or to release it. -/
def Accounted (s : AsyncMutex) : Prop :=
  s.locked = true → (∃ t, (s.tasks t).holds = true) ∨
    (∃ t, (s.tasks t).pc = .unlockStore) ∨ ∃ w, Pending s w

lemma Accounted.frame {s s' : AsyncMutex} (h : Accounted s) (hl : s'.locked = s.locked)
    (hh : ∀ t, (s.tasks t).holds = true → (s'.tasks t).holds = true)
    (hp : ∀ t, (s.tasks t).pc = .unlockStore → (s'.tasks t).pc = .unlockStore)
    (hw : ∀ w, Pending s w → Pending s' w) : Accounted s' := by
  intro hlocked
  rcases h (hl ▸ hlocked) with ⟨t, ht⟩ | ⟨t, ht⟩ | ⟨w, hpend⟩
  · exact .inl ⟨t, hh t ht⟩
  · exact .inr (.inl ⟨t, hp t ht⟩)
  · exact .inr (.inr ⟨w, hw w hpend⟩)

lemma Accounted.setTask {s : AsyncMutex} (h : Accounted s) {t : Nat} {task : MutexTask}
    (hholds : (s.tasks t).holds = true → task.holds = true)
    (hpc : (s.tasks t).pc = .unlockStore → task.pc = .unlockStore) :
    Accounted (s.setTask t task) := by
  refine h.frame rfl (fun u hu => ?_) (fun u hu => ?_) (fun _ hw => hw)
  · simp only [AsyncMutex.setTask, Function.update_apply]
    split
    · next ht => exact hholds (ht ▸ hu)
    · exact hu
  · simp only [AsyncMutex.setTask, Function.update_apply]
    split
    · next ht => exact hpc (ht ▸ hu)
    · exact hu

lemma Accounted.goto {s : AsyncMutex} (h : Accounted s) {t : Nat} {pc : MutexPc} (pc' : MutexPc)
    (hpc : (s.tasks t).pc = pc) (hne : pc ≠ .unlockStore) : Accounted (s.goto t pc') :=
  h.setTask id fun hstore => absurd (hpc.symm.trans hstore) hne

lemma Accounted.of_same {s s' : AsyncMutex} (h : Accounted s) (hl : s'.locked = s.locked)
    (ht : s'.tasks = s.tasks) (hw : ∀ w, Pending s w → Pending s' w) : Accounted s' :=
  h.frame hl (fun _ hh => ht ▸ hh) (fun _ hpc => ht ▸ hpc) hw

lemma Accounted.setWaiter {s : AsyncMutex} (h : Accounted s) {w : Nat} {waiter : AsyncMutexWaiter}
    (hacquired : (s.waiter w).acquired = true → waiter.acquired = true)
    (hresult : waiter.result = (s.waiter w).result) : Accounted (s.setWaiter w waiter) := by
  refine h.of_same rfl rfl fun i hi => ?_
  obtain ⟨hlt, hacq, hres⟩ := hi
  refine ⟨hlt, ?_, ?_⟩
  · simp only [AsyncMutex.setWaiter, Function.update_apply]
    split
    · next hi => exact hacquired (hi ▸ hacq)
    · exact hacq
  · simp only [AsyncMutex.setWaiter, Function.update_apply]
    split
    · next hi => exact hresult.trans (hi ▸ hres)
    · exact hres

lemma Accounted.setActive {s : AsyncMutex} (h : Accounted s) (w : Nat) (value : Bool) :
    Accounted (s.setActive w value) :=
  h.setWaiter id rfl

lemma Accounted.setTimer {s : AsyncMutex} (h : Accounted s) (w : Nat) (timer : WaitTimer) :
    Accounted (s.setTimer w timer) :=
  h.setWaiter id rfl

theorem accounted_move {s s' : AsyncMutex} {a : MutexAction} (h : Accounted s) (ht : TimersOk s)
    (hc : CallsOk s) (hq : QueueOk s) (hin : InTime s a) (hm : Move s a s') : Accounted s' := by
  cases hm with
  | @readyFree t => exact fun _ => .inl ⟨t, by simp [setTask]⟩
  | @recheckFree t pick w hpc =>
    obtain ⟨-, hlt, hnone⟩ := hc.owner t w (by rw [hpc]; rfl)
    refine fun _ => .inr (.inr ⟨w, hlt, ?_, ?_⟩)
    · simp [goto, setTask, lockFor, setWaiter]
    · simpa [goto, setTask, lockFor, setWaiter] using hnone
  | @acquireFree t pick w hpc hlocked =>
    refine fun _ => .inr (.inr ⟨w, hq.taken t w (by rw [hpc]; rfl), ?_, ?_⟩)
    · simp [goto, setTask, lockFor, setWaiter]
    · simpa [goto, setTask, lockFor, setWaiter] using (hin w hpc hlocked).1
  | @unlock t => exact fun _ => .inr (.inl ⟨t, by simp [setTask]⟩)
  | unlockStore hpc =>
    intro hlocked
    cases hlocked
  | @awaitResume t pick w result hpc =>
    cases result with
    | success => exact fun _ => .inl ⟨t, by simp [returnFrom, setTask]⟩
    | timeout =>
      have hout := ht.marked t w (.inr hpc)
      have hacq := ht.acquired w
      refine h.frame rfl (fun i hi => ?_) (fun i hi => ?_) (fun i hi => ?_) <;>
        simp only [returnFrom, setTask, setWaiter, Pending, Function.update_apply] at * <;>
        grind
  | lock hpc | park hpc | readyTaken hpc | recheckTimed hpc | recheckUntimed hpc | timeouted hpc
  | notTimeouted hpc | dequeueEmpty hpc | skip hpc | acquireTaken hpc =>
    exact h.goto _ hpc (fun hs => by cases hs)
  | wakeOther => exact h.setTask id id
  | resumeParked hpc | resumeTimed hpc | resumeUntimed hpc =>
    exact h.setTask id fun hstore => by cases hpc.symm.trans hstore
  | @enqueue t _ timed hpc =>
    have hgoto := h.goto (.recheck s.nextWaiter) hpc (fun hs => by cases hs)
    refine hgoto.of_same rfl rfl fun i hi => ?_
    obtain ⟨hlt, hacq, hres⟩ := hi
    have hi : i ≠ s.nextWaiter := Nat.ne_of_lt hlt
    refine ⟨Nat.lt_succ_of_lt hlt, ?_, ?_⟩
    · simpa [AsyncMutex.goto, AsyncMutex.setTask, AsyncMutex.setWaiter, hi] using hacq
    · simpa [AsyncMutex.goto, AsyncMutex.setTask, AsyncMutex.setWaiter, hi] using hres
  | selfCancel hpc | claim hpc | markTimeout hpc | restore hpc =>
    exact (h.setActive _ _).goto _ hpc (fun hs => by cases hs)
  | addTimer hpc | cancelTimer hpc => exact (h.setTimer _ _).goto _ hpc (fun hs => by cases hs)
  | @dequeue t _ w hpc =>
    exact (h.goto (.unlockClaim w) hpc (fun hs => by cases hs)).of_same rfl rfl fun _ hw => hw
  | requeue hpc => exact (h.goto .idle hpc (fun hs => by cases hs)).of_same rfl rfl fun _ hw => hw
  | @wake t _ w u hpc =>
    have hset : Accounted (s.setTask u { s.tasks u with queued := true, wokenByUnlock := true }) :=
      h.setTask id id
    refine hset.goto .idle ((pc_setTask ?_ t).trans hpc) (fun hs => by cases hs)
    rfl
  | expire => exact h.setTimer _ _
  | timerWake => exact (h.setTimer _ _).setTask id id

/-- The program points of a call whose task waits for its wake-up, or is about to. -/
def Waiting (w : Nat) (pc : MutexPc) : Prop := pc = .recheck w ∨ pc = .addTimer w ∨ pc = .suspended w

/-- The wake-up of a waiting call that owns the mutex is about to be issued or was issued. -/
def Woken (s : AsyncMutex) : Prop :=
  ∀ t w, Waiting w (s.tasks t).pc → (s.waiter w).acquired = true →
    (∃ u, (s.tasks u).pc = .unlockWake w) ∨
      ((s.tasks t).wokenByUnlock = true ∧ (s.tasks t).queued = true)

lemma Woken.frame {s s' : AsyncMutex} (h : Woken s)
    (hw : ∀ t w, Waiting w (s'.tasks t).pc → (s'.waiter w).acquired = true →
      Waiting w (s.tasks t).pc ∧ (s.waiter w).acquired = true)
    (hu : ∀ u w, (s.tasks u).pc = .unlockWake w → (s'.tasks u).pc = .unlockWake w)
    (hf : ∀ t w, Waiting w (s'.tasks t).pc → (s.tasks t).wokenByUnlock = true →
      (s.tasks t).queued = true → (s'.tasks t).wokenByUnlock = true ∧ (s'.tasks t).queued = true) :
    Woken s' := by
  intro t w hwait hacq
  obtain ⟨hwait', hacq'⟩ := hw t w hwait hacq
  rcases h t w hwait' hacq' with ⟨u, hpc⟩ | ⟨hwoken, hqueued⟩
  · exact .inl ⟨u, hu u w hpc⟩
  · exact .inr (hf t w hwait hwoken hqueued)

def waits : MutexPc → Option Nat
  | .recheck w | .addTimer w | .suspended w => some w
  | _ => none

lemma waiting_iff {pc : MutexPc} {w : Nat} : Waiting w pc ↔ waits pc = some w := by
  cases pc <;> simp [Waiting, waits]

lemma Woken.setTask {s : AsyncMutex} (h : Woken s) {t : Nat} {task : MutexTask}
    (hwaits : waits task.pc = none ∨ waits task.pc = waits (s.tasks t).pc ∧
      ((s.tasks t).wokenByUnlock = true → task.wokenByUnlock = true) ∧
      ((s.tasks t).queued = true → task.queued = true))
    (hwake : ∀ w, (s.tasks t).pc = .unlockWake w → task.pc = .unlockWake w) :
    Woken (s.setTask t task) := by
  refine h.frame (fun u w hw hacq => ⟨?_, hacq⟩) (fun u w hu => ?_)
    (fun u w hw hwoken hqueued => ?_)
  · rw [waiting_iff] at hw ⊢
    rcases Threads.of_update (P := fun x : MutexTask => waits x.pc = some w) hw with
      ⟨rfl, hx⟩ | ⟨-, hx⟩
    · rcases hwaits with hnone | ⟨hsame, -⟩
      · cases hnone.symm.trans hx
      · exact hsame.symm.trans hx
    · exact hx
  · simp only [AsyncMutex.setTask, Function.update_apply]
    split
    · next ht => exact hwake w (ht ▸ hu)
    · exact hu
  · rw [waiting_iff] at hw
    simp only [AsyncMutex.setTask, Function.update_apply] at hw ⊢
    split at hw
    · next ht =>
      rw [if_pos ht]
      subst ht
      rcases hwaits with hnone | ⟨-, hflag, hqueue⟩
      · cases hnone.symm.trans hw
      · exact ⟨hflag hwoken, hqueue hqueued⟩
    · next ht =>
      rw [if_neg ht]
      exact ⟨hwoken, hqueued⟩

lemma Woken.goto {s : AsyncMutex} (h : Woken s) {t : Nat} {pc : MutexPc} (pc' : MutexPc)
    (hpc : (s.tasks t).pc = pc) (hwaits : waits pc' = none ∨ waits pc' = waits pc)
    (hwake : ∀ w, pc ≠ .unlockWake w) : Woken (s.goto t pc') := by
  refine h.setTask ?_ fun w hw => absurd (hpc.symm.trans hw) (hwake w)
  exact hwaits.imp_right fun hsame => ⟨hpc ▸ hsame, id, id⟩

lemma Woken.of_same {s s' : AsyncMutex} (h : Woken s) (ht : s'.tasks = s.tasks)
    (hw : ∀ w, (s'.waiter w).acquired = true → (s.waiter w).acquired = true) : Woken s' := by
  refine h.frame (fun t w hpc hacq => ⟨ht ▸ hpc, hw w hacq⟩) (fun t w hpc => ht ▸ hpc)
    (fun t w _ hwoken hqueued => ?_)
  rw [ht]
  exact ⟨hwoken, hqueued⟩

lemma Woken.setWaiter {s : AsyncMutex} (h : Woken s) {w : Nat} {waiter : AsyncMutexWaiter}
    (hacquired : waiter.acquired = true → (s.waiter w).acquired = true) :
    Woken (s.setWaiter w waiter) := by
  refine h.of_same rfl fun i hi => ?_
  rcases Threads.of_update (P := fun x : AsyncMutexWaiter => x.acquired = true) hi with
    ⟨rfl, hx⟩ | ⟨-, hx⟩
  · exact hacquired hx
  · exact hx

lemma Woken.setActive {s : AsyncMutex} (h : Woken s) (w : Nat) (value : Bool) :
    Woken (s.setActive w value) :=
  h.setWaiter id

lemma Woken.setTimer {s : AsyncMutex} (h : Woken s) (w : Nat) (timer : WaitTimer) :
    Woken (s.setTimer w timer) :=
  h.setWaiter id

theorem woken_move {s s' : AsyncMutex} {a : MutexAction} (h : Woken s) (hc : CallsOk s)
    (hm : Move s a s') : Woken s' := by
  have howner := hc.owner
  cases hm with
  | @acquireFree t pick w hpc hlocked =>
    intro i j hwait hacq
    by_cases hj : j = w
    · exact .inl ⟨t, by simp [goto, setTask, hj]⟩
    · have hold := h i j
      simp only [goto, setTask, setWaiter, lockFor, Waiting, Function.update_apply] at *
      grind
  | @wake t pick w u hpc hu =>
    intro i j hwait hacq
    have hold := h i j
    simp only [goto, setTask, Waiting, Function.update_apply] at *
    grind [MutexPc.call]
  | lock hpc | park hpc | readyTaken hpc | timeouted hpc | notTimeouted hpc | dequeueEmpty hpc
  | skip hpc | acquireTaken hpc => exact h.goto _ hpc (.inl rfl) fun _ hw => by cases hw
  | recheckTimed hpc | recheckUntimed hpc => exact h.goto _ hpc (.inr rfl) fun _ hw => by cases hw
  | unlock hpc | resumeParked hpc | resumeTimed hpc | resumeUntimed hpc =>
    exact h.setTask (.inl rfl) fun w hw => by cases hpc.symm.trans hw
  | wakeOther => exact h.setTask (.inr ⟨rfl, id, fun _ => rfl⟩) fun _ => id
  | @readyFree t _ _ hpc =>
    have hset : Woken (s.setTask t { s.tasks t with pc := .idle, holds := true }) :=
      h.setTask (.inl rfl) fun w hw => by cases hpc.symm.trans hw
    exact hset.of_same rfl fun _ => id
  | enqueue hpc | recheckFree hpc =>
    refine h.frame (fun i j hi hj => ?_) (fun i j hi => ?_) (fun i j hi hj hk => ?_) <;>
      simp only [goto, setTask, setWaiter, lockFor, Waiting, Function.update_apply] at * <;>
      grind [MutexPc.call]
  | @selfCancel t _ w hpc =>
    refine (h.setActive w false).goto _ hpc (.inl ?_) fun _ hw => by cases hw
    split <;> rfl
  | addTimer hpc => exact (h.setTimer _ _).goto _ hpc (.inr rfl) fun _ hw => by cases hw
  | cancelTimer hpc => exact (h.setTimer _ _).goto _ hpc (.inl rfl) fun _ hw => by cases hw
  | claim hpc | markTimeout hpc | restore hpc =>
    exact (h.setActive _ _).goto _ hpc (.inl rfl) fun _ hw => by cases hw
  | @awaitResume t _ w result hpc =>
    have hset : Woken (s.setWaiter w { s.waiter w with active := false, result := some result }) :=
      h.setWaiter id
    refine hset.setTask (.inl ?_) fun w hw => by cases hpc.symm.trans hw
    exact rfl
  | unlockStore hpc =>
    exact (h.goto .unlockDequeue hpc (.inl rfl) (fun _ hw => by cases hw)).of_same rfl fun _ => id
  | @dequeue t _ w hpc =>
    exact (h.goto (.unlockClaim w) hpc (.inl rfl) (fun _ hw => by cases hw)).of_same rfl fun _ => id
  | requeue hpc =>
    exact (h.goto .idle hpc (.inl rfl) (fun _ hw => by cases hw)).of_same rfl fun _ => id
  | expire => exact h.setTimer _ _
  | timerWake => exact (h.setTimer _ _).setTask (.inr ⟨rfl, id, fun _ => rfl⟩) fun _ => id

structure HandOffOk (s : AsyncMutex) : Prop where
  calls : CallsOk s
  queue : QueueOk s
  timers : TimersOk s
  accounted : Accounted s
  woken : Woken s

lemma handOffOk_init : HandOffOk init where
  calls := callsOk_init
  queue := queueOk_init
  timers := timersOk_init
  accounted h := by cases h
  woken _ _ _ h := by cases h

theorem handOffOk_step {s s' : AsyncMutex} {a : MutexAction} (h : HandOffOk s) (hin : InTime s a)
    (hs : s.step a = some s') : HandOffOk s' := by
  have hm := move_of_step hs
  exact ⟨callsOk_move h.calls hm, queueOk_move h.queue hm, timersOk_move h.timers h.calls hin hm,
    accounted_move h.accounted h.timers h.calls h.queue hin hm, woken_move h.woken h.calls hm⟩

lemma handOffOk_of_reaches {s s' : AsyncMutex} (h : HandOffOk s) (hr : Reaches step InTime s s') :
    HandOffOk s' :=
  hr.invariant (P := HandOffOk) h (fun _ _ _ h => handOffOk_step h)

lemma acquired_move {s s' : AsyncMutex} {a : MutexAction} {w : Nat} (hlt : w < s.nextWaiter)
    (hacq : (s.waiter w).acquired = true) (hm : Move s a s') :
    w < s'.nextWaiter ∧ (s'.waiter w).acquired = true := by
  cases hm <;>
    simp only [goto, setTask, setWaiter, setActive, setTimer, lockFor, returnFrom,
      Function.update_apply] <;>
    grind

/-- Once the mutex was taken for a call, the call does not return the timeout error. -/
lemma result_ne_timeout {s s' : AsyncMutex} {w : Nat} (h : HandOffOk s) (hlt : w < s.nextWaiter)
    (hacq : (s.waiter w).acquired = true) (hr : Reaches step InTime s s') :
    (s'.waiter w).result ≠ some .timeout := by
  have hkept : w < s'.nextWaiter ∧ (s'.waiter w).acquired = true :=
    hr.invariant (P := fun s => w < s.nextWaiter ∧ (s.waiter w).acquired = true) ⟨hlt, hacq⟩
      (fun _ _ _ hi _ hs => acquired_move hi.1 hi.2 (move_of_step hs))
  intro hout
  rw [(handOffOk_of_reaches h hr).timers.returned w hout] at hkept
  cases hkept.2

lemma Returns.of_run {s s' : AsyncMutex} {t w : Nat} (hcall : (s.tasks t).pc.call = some w)
    (hs : s.step (.run t 0) = some s') (h : Returns InTime s' w) :
    Returns InTime s w := by
  obtain ⟨s'', hr, hw⟩ := h
  have hin : InTime s (.run t 0) := by
    intro v hpc
    rw [hpc] at hcall
    cases hcall
  exact ⟨s'', (Reaches.start.next hin hs).trans hr, hw⟩

lemma returns_awaitResume {s : AsyncMutex} {t w : Nat}
    (hpc : (s.tasks t).pc = .awaitResume w .success) : Returns InTime s w := by
  have hs : s.step (.run t 0) = some (s.returnFrom t w .success) := by
    simp only [step, runTask, hpc]
  refine .of_run (by rw [hpc]; rfl) hs ⟨_, .start, ?_⟩
  simp [returnFrom, setTask, setWaiter]

lemma returns_cancelTimer {s : AsyncMutex} {t w : Nat} (hpc : (s.tasks t).pc = .cancelTimer w) :
    Returns InTime s w := by
  have hs : s.step (.run t 0) =
      some ((s.setTimer w (s.waiter w).timer.cancel).goto t (.awaitResume w .success)) := by
    simp only [step, runTask, hpc]
  refine .of_run (by rw [hpc]; rfl) hs (returns_awaitResume (t := t) ?_)
  simp [goto, setTask]

lemma returns_loadTimeouted {s : AsyncMutex} {t w : Nat} (hpc : (s.tasks t).pc = .loadTimeouted w)
    (htimer : (s.waiter w).timer.timeouted = false) : Returns InTime s w := by
  have hs : s.step (.run t 0) = some (s.goto t (.cancelTimer w)) := by
    simp [step, runTask, hpc, htimer]
  refine .of_run (by rw [hpc]; rfl) hs (returns_cancelTimer (t := t) ?_)
  simp [goto, setTask]

/-- A woken task whose timer has not fired returns success once it is resumed. -/
lemma returns_suspended {s : AsyncMutex} {t w : Nat} (hpc : (s.tasks t).pc = .suspended w)
    (hwoken : (s.tasks t).wokenByUnlock = true) (hqueued : (s.tasks t).queued = true)
    (htimer : (s.waiter w).timer.timeouted = false) : Returns InTime s w := by
  have hresume : ∀ pc, s.step (.resume t) =
        some (s.setTask t ⟨pc, false, (s.tasks t).holds, false, false⟩) →
      Returns InTime (s.setTask t ⟨pc, false, (s.tasks t).holds, false, false⟩) w →
      Returns InTime s w := by
    rintro pc hs ⟨s', hr, hw⟩
    exact ⟨s', (Reaches.start.next trivial hs).trans hr, hw⟩
  cases htimed : (s.waiter w).timed with
  | false =>
    refine hresume (.awaitResume w .success) ?_ (returns_awaitResume (t := t) ?_)
    · simp [step, resumeTask, hpc, hwoken, hqueued, htimed]
    · simp [setTask]
  | true =>
    refine hresume (.loadTimeouted w) ?_ (returns_loadTimeouted (t := t) ?_ htimer)
    · simp [step, resumeTask, hpc, hwoken, hqueued, htimed]
    · simp [setTask]

/-- In every quiescent state the locked mutex has an owner, and no call that timed out is one. -/
theorem locked_has_owner {s : AsyncMutex} (h : Reaches step InTime init s) :
    (s.Quiescent → s.locked = true → HasOwner InTime s) ∧
      ∀ w, (s.waiter w).result = some .timeout → (s.waiter w).acquired = false := by
  have hok := handOffOk_of_reaches handOffOk_init h
  refine ⟨fun hquiet hlocked => ?_, hok.timers.returned⟩
  rcases hok.accounted hlocked with hholds | ⟨t, hpc⟩ | ⟨w, hlt, hacq, hnone⟩
  · exact .inl hholds
  · have hout := hquiet t
    rw [hpc] at hout
    cases hout
  · -- the call is pending and its task is outside of `lock()`, so it is suspended there
    have hcall := hok.calls.pending w hlt hnone
    have hpc : (s.tasks (s.waiter w).task).pc = .suspended w := by
      have hout := hquiet (s.waiter w).task
      cases hpc : (s.tasks (s.waiter w).task).pc <;>
        simp_all [MutexPc.call, MutexPc.Outside]
    rcases hok.woken _ w (.inr (.inr hpc)) hacq with ⟨u, hu⟩ | ⟨hwoken, hqueued⟩
    · have hout := hquiet u
      rw [hu] at hout
      cases hout
    · exact .inr ⟨_, w, hpc, hwoken, hqueued,
        returns_suspended hpc hwoken hqueued (hok.timers.acquired w hacq),
        fun s' => result_ne_timeout hok hlt hacq⟩

def inTime (s : AsyncMutex) : MutexAction → Bool
  | .run t _ =>
    match (s.tasks t).pc with
    | .unlockAcquire w => s.locked || ((s.waiter w).result.isNone && !(s.waiter w).timer.timeouted)
    | _ => true
  | .expire w => !(s.waiter w).acquired
  | _ => true

lemma inTime_ok (s : AsyncMutex) (a : MutexAction) (h : inTime s a = true) : InTime s a := by
  cases a with
  | run t pick =>
    intro w hpc hlocked
    simpa [inTime, hpc, hlocked] using h
  | expire w => simpa [inTime, InTime] using h
  | _ => trivial

/-- Task 1 waits with a timeout when task 0 unlocks and hands the mutex over. -/
def timedHandOffRun : List MutexAction :=
  [.lock 0 false, .run 0 0, .lock 1 true, .run 1 0, .run 1 0, .run 1 0, .run 1 0,
    .unlock 0, .run 0 0, .run 0 0, .run 0 0, .run 0 0, .run 0 0]

lemma timedHandOffRun_state : ∃ s, run (guarded inTime step) init timedHandOffRun = some s ∧
    s.Quiescent ∧ s.locked = true ∧ (∀ t, (s.tasks t).holds = false) := by
  refine ⟨_, rfl, fun t => ?_, rfl, fun t => ?_⟩
  all_goals
    match t with
    | 0 => trivial
    | 1 => trivial
    | t + 2 => trivial

theorem timedHandOffRun_has_owner : ∃ s, run (guarded inTime step) init timedHandOffRun = some s ∧
    (∀ t, (s.tasks t).holds = false) ∧ HasOwner InTime s := by
  obtain ⟨s, hrun, hquiet, hlocked, hholds⟩ := timedHandOffRun_state
  have hreach := Reaches.start.of_run inTime inTime_ok timedHandOffRun hrun
  exact ⟨s, hrun, hholds, (locked_has_owner hreach).1 hquiet hlocked⟩

/-- The same hand-off, but the timer of task 1 fires before the task is resumed. -/
def orphaningRun : List MutexAction :=
  timedHandOffRun ++ [.expire 0, .timerWake 0, .resume 1, .run 1 0, .run 1 0, .run 1 0]

lemma orphaningRun_orphans : ∃ s, run step init orphaningRun = some s ∧ s.Quiescent ∧
    s.locked = true ∧ ∀ t, (s.tasks t).pc = .idle ∧ (s.tasks t).holds = false := by
  refine ⟨_, rfl, fun t => ?_, rfl, fun t => ?_⟩
  all_goals
    match t with
    | 0 => trivial
    | 1 => trivial
    | t + 2 => trivial

/-- A hand-off followed by a timeout leaves the mutex locked with no owner. -/
theorem timeout_orphans_lock : ¬∀ s, Reaches step (fun _ _ => True) init s → s.Quiescent →
    s.locked = true → HasOwner (fun _ _ => True) s := by
  obtain ⟨s, hrun, hquiet, hlocked, hidle⟩ := orphaningRun_orphans
  intro h
  rcases h s (Reaches.start.of_replay orphaningRun hrun) hquiet hlocked with ⟨t, ht⟩ | ⟨t, w, hpc, -⟩
  · rw [(hidle t).2] at ht
    cases ht
  · rw [(hidle t).1] at hpc
    cases hpc

end GalayKernel.Proofs
