import GalayKernel.Proofs.MutexExclusion

/-!
# The order of hand-overs

Waiters are numbered in the order in which `await_suspend` enqueues them, and the waiter
queue is FIFO. `unlock()` stores `false` before it looks at the queue, so a newcomer can
take the mutex while a waiter is already out of the queue; that waiter then goes back to
the end. The order is kept as long as `lock()` never takes the mutex from under an
`unlock()` that still finds a waiter.
-/

namespace GalayKernel.Proofs
open AsyncMutex Transition

def FifoQueue : MutexAction → Prop
  | .run _ pick => pick = 0
  | _ => True

/-- At most one `unlock()` is between its `store(false)` and its `tryLock()`, and the mutex is free
then. -/
structure OneLooks (s : AsyncMutex) : Prop where
  sole : ∀ t u, (s.tasks t).pc.Looking → (s.tasks u).pc.Looking → t = u
  free : ∀ t, (s.tasks t).pc.Looking → s.locked = false

/-- Every `unlock()` there is about to look into the queue, which is empty. -/
structure NothingToFind (s : AsyncMutex) : Prop where
  empty : s.waiters = []
  dequeues : ∀ t, (s.tasks t).pc.Looking → (s.tasks t).pc = .unlockDequeue

/-- The next operation is a `tryLock()` of `lock()` for itself (lines 212 and 224). -/
def triesLock : MutexPc → Bool
  | .awaitReady _ | .recheck _ => true
  | _ => false

/-- While an `unlock()` is between its `store(false)` and its own `tryLock()`, `lock()` finds the
mutex free by itself only if the `unlock()` is about to look into an empty queue. No waiter is
enqueued while an `unlock()` is there that has lost the mutex, or more than one. -/
def NoBarging (s : AsyncMutex) : MutexAction → Prop
  | .run t _ =>
    (triesLock (s.tasks t).pc = true → s.locked = false →
      ∀ u, (s.tasks u).pc.Looking → s.waiters = [] ∧ (s.tasks u).pc = .unlockDequeue) ∧
    ∀ timed, (s.tasks t).pc = .awaitSuspend timed → OneLooks s
  | _ => True

/-- The next step of `t` hands the mutex to `w₂`, while the task of `w₁`, which was enqueued
before `w₂` and has not been handed the mutex, is suspended as well. -/
def Overtakes (s : AsyncMutex) : Prop :=
  ∃ t u₁ u₂ w₁ w₂, w₁ < w₂ ∧ (s.tasks u₁).pc = .suspended w₁ ∧ (s.tasks u₂).pc = .suspended w₂ ∧
    (s.waiter w₁).acquired = false ∧ (s.tasks t).pc = .unlockAcquire w₂ ∧ s.locked = false

def waiterInHand : MutexPc → Option Nat
  | .unlockClaim w | .unlockAcquire w => some w
  | _ => none

def putsBack : MutexPc → Bool
  | .unlockRestore _ | .unlockRequeue _ => true
  | _ => false

def enqueued : MutexPc → Option Nat
  | .recheck w | .suspended w => some w
  | _ => none

/-- The waiter is active and in the queue or just out of it, or claimed by an `unlock()`. -/
def Found (s : AsyncMutex) (w : Nat) : Prop :=
  ((s.waiter w).active = true ∧ (w ∈ s.waiters ∨ ∃ u, (s.tasks u).pc = .unlockClaim w)) ∨
    ∃ u, (s.tasks u).pc = .unlockAcquire w

structure Ordered (s : AsyncMutex) : Prop where
  looks : OneLooks s ∨ NothingToFind s
  kept : ∀ t, putsBack (s.tasks t).pc = false
  sorted : s.waiters.Pairwise (· < ·)
  fresh : ∀ w ∈ s.waiters, w < s.nextWaiter
  hand : ∀ t w, waiterInHand (s.tasks t).pc = some w → w < s.nextWaiter ∧ ∀ v ∈ s.waiters, w < v
  found : ∀ t w, enqueued (s.tasks t).pc = some w → (s.waiter w).acquired = false → Found s w

lemma ordered_init : Ordered init where
  looks := .inl ⟨fun _ _ ht => ht.elim, fun _ ht => ht.elim⟩
  kept _ := rfl
  sorted := .nil
  fresh := nofun
  hand := nofun
  found := nofun

lemma looking_of_waiterInHand {pc : MutexPc} {w : Nat} (h : waiterInHand pc = some w) :
    pc.Looking := by
  cases pc <;> trivial

/-- An `unlock()` that has found a waiter, or that is about to, is the only one there. -/
lemma Ordered.oneLooks {s : AsyncMutex} (h : Ordered s) {t : Nat} (ht : (s.tasks t).pc.Looking)
    (hfind : s.waiters ≠ [] ∨ (s.tasks t).pc ≠ .unlockDequeue) :
    (∀ u, (s.tasks u).pc.Looking → u = t) ∧ s.locked = false := by
  obtain hone | hnothing := h.looks
  · exact ⟨fun u hu => hone.sole u t hu ht, hone.free t ht⟩
  · obtain hqueue | hpc := hfind
    · exact absurd hnothing.empty hqueue
    · exact absurd (hnothing.dequeues t ht) hpc

lemma call_of_enqueued {pc : MutexPc} {w : Nat} (h : enqueued pc = some w) : pc.call = some w := by
  cases pc <;> first | exact h | cases h

/-- Steps outside of a look at the queue that touch no enqueued waiter. -/
lemma Ordered.frame {s s' : AsyncMutex} (h : Ordered s) (hl : s'.locked = s.locked)
    (hq : s'.waiters = s.waiters) (hn : s'.nextWaiter = s.nextWaiter)
    (hpc : ∀ u, (s'.tasks u).pc = (s.tasks u).pc ∨
      (¬(s.tasks u).pc.Looking ∧ ¬(s'.tasks u).pc.Looking ∧ putsBack (s'.tasks u).pc = false))
    (hw : ∀ u w, enqueued (s'.tasks u).pc = some w → (s'.waiter w).acquired = false →
      s'.waiter w = s.waiter w ∧ enqueued (s.tasks u).pc = some w) : Ordered s' := by
  have hlook : ∀ u, (s'.tasks u).pc.Looking → (s.tasks u).pc.Looking := by
    intro u hu
    rcases hpc u with heq | hout
    · rwa [heq] at hu
    · exact absurd hu hout.2.1
  have hsame : ∀ u, (s.tasks u).pc.Looking → (s'.tasks u).pc = (s.tasks u).pc := by
    intro u hu
    rcases hpc u with heq | hout
    · exact heq
    · exact absurd hu hout.1
  refine ⟨?_, fun t => ?_, hq ▸ h.sorted, hq ▸ hn ▸ h.fresh, fun t w ht => ?_,
    fun t w ht hacq => ?_⟩
  · refine h.looks.imp (fun hone => ?_) fun hnothing => ?_
    · exact ⟨fun t u ht hu => hone.sole t u (hlook t ht) (hlook u hu),
        fun t ht => hl ▸ hone.free t (hlook t ht)⟩
    · refine ⟨hq ▸ hnothing.empty, fun t ht => ?_⟩
      rw [hsame t (hlook t ht)]
      exact hnothing.dequeues t (hlook t ht)
  · rcases hpc t with heq | hout
    · rw [heq]
      exact h.kept t
    · exact hout.2.2
  · rw [hsame t (hlook t (looking_of_waiterInHand ht))] at ht
    rw [hq, hn]
    exact h.hand t w ht
  · obtain ⟨hsw, hs⟩ := hw t w ht hacq
    rw [hsw] at hacq
    unfold Found
    rw [hsw, hq]
    rcases h.found t w hs hacq with ⟨hactive, hmem | ⟨u, hu⟩⟩ | ⟨u, hu⟩
    · exact .inl ⟨hactive, .inl hmem⟩
    · refine .inl ⟨hactive, .inr ⟨u, ?_⟩⟩
      rw [hsame u (by rw [hu]; trivial), hu]
    · refine .inr ⟨u, ?_⟩
      rw [hsame u (by rw [hu]; trivial), hu]

lemma Ordered.leave {s : AsyncMutex} (h : Ordered s) (hc : CallsOk s) {t w : Nat}
    {waiter : AsyncMutexWaiter} {task : MutexTask} (hcall : (s.tasks t).pc.call = some w)
    (hold : ¬(s.tasks t).pc.Looking) (hover : enqueued (s.tasks t).pc = none)
    (hnew : ¬task.pc.Looking) (hback : putsBack task.pc = false)
    (hnone : enqueued task.pc = none) : Ordered ((s.setWaiter w waiter).setTask t task) := by
  refine h.frame rfl rfl rfl (fun u => ?_) (fun u v hu hacq => ?_)
  · simp only [setTask, setWaiter, Function.update_apply]
    split
    · next hut => exact .inr (hut ▸ ⟨hold, hnew, hback⟩)
    · exact .inl rfl
  · have hut : u ≠ t := by
      rintro rfl
      simp [setTask, hnone] at hu
    have hs : enqueued (s.tasks u).pc = some v := by
      simpa [setTask, setWaiter, Function.update_of_ne hut] using hu
    have hvw : v ≠ w := by
      rintro rfl
      exact hut (hc.same_task hcall (call_of_enqueued hs))
    exact ⟨Function.update_of_ne hvw _ _, hs⟩

/-- `Found` for a waiter, where the only `unlock()` that looks at the queue is at `pc`. -/
def FoundFrom (s : AsyncMutex) (pc : MutexPc) (w : Nat) : Prop :=
  ((s.waiter w).active = true ∧ (w ∈ s.waiters ∨ pc = .unlockClaim w)) ∨ pc = .unlockAcquire w

lemma FoundFrom.found {s : AsyncMutex} {t w : Nat} (h : FoundFrom s (s.tasks t).pc w) :
    Found s w := by
  rcases h with ⟨hactive, hmem | hpc⟩ | hpc
  · exact .inl ⟨hactive, .inl hmem⟩
  · exact .inl ⟨hactive, .inr ⟨t, hpc⟩⟩
  · exact .inr ⟨t, hpc⟩

lemma Found.foundFrom {s : AsyncMutex} {t w : Nat} (h : Found s w)
    (hsole : ∀ u, (s.tasks u).pc.Looking → u = t) : FoundFrom s (s.tasks t).pc w := by
  rcases h with ⟨hactive, hmem | ⟨u, hu⟩⟩ | ⟨u, hu⟩
  · exact .inl ⟨hactive, .inl hmem⟩
  · obtain rfl := hsole u (by rw [hu]; trivial)
    exact .inl ⟨hactive, .inr hu⟩
  · obtain rfl := hsole u (by rw [hu]; trivial)
    exact .inr hu

lemma FoundFrom.queued {s : AsyncMutex} {pc : MutexPc} {w : Nat} (h : FoundFrom s pc w)
    (hpc : waiterInHand pc = none) : (s.waiter w).active = true ∧ w ∈ s.waiters := by
  rcases h with ⟨hactive, hmem | rfl⟩ | rfl
  · exact ⟨hactive, hmem⟩
  · cases hpc
  · cases hpc

lemma FoundFrom.stays {s s' : AsyncMutex} {pc pc' : MutexPc} {w : Nat} (h : FoundFrom s pc w)
    (hpc : waiterInHand pc = none) (hw : s'.waiter w = s.waiter w)
    (hq : s'.waiters = s.waiters) : FoundFrom s' pc' w := by
  obtain ⟨hactive, hmem⟩ := h.queued hpc
  refine .inl ⟨?_, .inl ?_⟩
  · rw [hw]
    exact hactive
  · rw [hq]
    exact hmem

section Update

variable {s s' : AsyncMutex} {t : Nat} {task : MutexTask}
  (htasks : s'.tasks = Function.update s.tasks t task)

include htasks

lemma Ordered.kept_update (h : Ordered s) (hback : putsBack task.pc = false) (u : Nat) :
    putsBack (s'.tasks u).pc = false := by
  rw [htasks]
  by_cases hut : u = t
  · rw [hut, Function.update_self]
    exact hback
  · rw [Function.update_of_ne hut]
    exact h.kept u

lemma enqueued_update (hout : enqueued task.pc = none) {u w : Nat}
    (hu : enqueued (s'.tasks u).pc = some w) : enqueued (s.tasks u).pc = some w := by
  rw [htasks] at hu
  by_cases hut : u = t
  · rw [hut, Function.update_self, hout] at hu
    cases hu
  · rwa [Function.update_of_ne hut] at hu

end Update

/-- Steps of the only task that looks at the queue, before or after the step. -/
lemma Ordered.of_sole {s s' : AsyncMutex} (h : Ordered s) (t : Nat) {task : MutexTask}
    (hsole : ∀ u, (s.tasks u).pc.Looking → u = t)
    (htasks : s'.tasks = Function.update s.tasks t task)
    (hfree : task.pc.Looking → s'.locked = false) (hback : putsBack task.pc = false)
    (hn : s'.nextWaiter = s.nextWaiter) (hq : s'.waiters.Sublist s.waiters)
    (hhand : ∀ w, waiterInHand task.pc = some w → w < s.nextWaiter ∧ ∀ v ∈ s'.waiters, w < v)
    (hout : enqueued task.pc = none)
    (hfound : ∀ w, (s'.waiter w).acquired = false → (s.waiter w).acquired = false ∧
      (FoundFrom s (s.tasks t).pc w → FoundFrom s' task.pc w)) : Ordered s' := by
  have hself : s'.tasks t = task := by rw [htasks, Function.update_self]
  have hother : ∀ u ≠ t, s'.tasks u = s.tasks u := fun u hu => by
    rw [htasks, Function.update_of_ne hu]
  have hlook : ∀ u, (s'.tasks u).pc.Looking → u = t := by
    intro u hu
    by_contra hne
    rw [hother u hne] at hu
    exact hne (hsole u hu)
  refine ⟨.inl ⟨fun u v hu hv => (hlook u hu).trans (hlook v hv).symm, fun u hu => ?_⟩,
    h.kept_update htasks hback, h.sorted.sublist hq,
    fun w hw => hn ▸ h.fresh w (hq.subset hw), fun u w hu => ?_, fun u w hu hacq => ?_⟩
  · rw [hlook u hu, hself] at hu
    exact hfree hu
  · rw [hlook u (looking_of_waiterInHand hu), hself] at hu
    rw [hn]
    exact hhand w hu
  · obtain ⟨hacq', hfrom⟩ := hfound w hacq
    have hw := hfrom ((h.found u w (enqueued_update htasks hout hu) hacq').foundFrom hsole)
    rw [← hself] at hw
    exact hw.found

/-- Steps while there is nothing to find. No task is suspended then that has not been handed the
mutex. -/
lemma Ordered.of_nothing {s s' : AsyncMutex} (h : Ordered s) (hnothing : NothingToFind s) (t : Nat)
    {task : MutexTask} (htasks : s'.tasks = Function.update s.tasks t task)
    (hdequeues : task.pc.Looking → task.pc = .unlockDequeue) (hback : putsBack task.pc = false)
    (hq : s'.waiters = s.waiters) (hout : enqueued task.pc = none)
    (hacquired : ∀ w, (s'.waiter w).acquired = false → (s.waiter w).acquired = false) :
    Ordered s' := by
  have hself : s'.tasks t = task := by rw [htasks, Function.update_self]
  have hother : ∀ u ≠ t, s'.tasks u = s.tasks u := fun u hu => by
    rw [htasks, Function.update_of_ne hu]
  have hempty : s'.waiters = [] := hq.trans hnothing.empty
  have hlook : ∀ u, (s'.tasks u).pc.Looking → (s'.tasks u).pc = .unlockDequeue := by
    intro u hu
    by_cases hut : u = t
    · rw [hut, hself] at hu ⊢
      exact hdequeues hu
    · rw [hother u hut] at hu ⊢
      exact hnothing.dequeues u hu
  have hhand : ∀ u w, waiterInHand (s.tasks u).pc ≠ some w := by
    intro u w hu
    rw [hnothing.dequeues u (looking_of_waiterInHand hu)] at hu
    cases hu
  refine ⟨.inr ⟨hempty, hlook⟩, h.kept_update htasks hback, by rw [hempty]; exact .nil,
    by simp [hempty], fun u w hu => ?_, fun u w hu hacq => ?_⟩
  · rw [hlook u (looking_of_waiterInHand hu)] at hu
    cases hu
  · have hu := enqueued_update htasks hout hu
    rcases h.found u w hu (hacquired w hacq) with ⟨-, hmem | ⟨v, hv⟩⟩ | ⟨v, hv⟩
    · rw [hnothing.empty] at hmem
      cases hmem
    · exact absurd (by rw [hv]; rfl) (hhand v w)
    · exact absurd (by rw [hv]; rfl) (hhand v w)

lemma waiter_lockFor {s : AsyncMutex} {v w : Nat}
    (h : ((s.lockFor w).waiter v).acquired = false) :
    v ≠ w ∧ (s.lockFor w).waiter v = s.waiter v := by
  have hne : v ≠ w := by
    rintro rfl
    simp [lockFor, setWaiter] at h
  exact ⟨hne, Function.update_of_ne hne _ _⟩

lemma Ordered.enqueue {s : AsyncMutex} (h : Ordered s) (hone : OneLooks s) (hc : CallsOk s)
    {t : Nat} {timed : Bool} (hout : ¬(s.tasks t).pc.Looking) :
    Ordered { (s.setWaiter s.nextWaiter ⟨t, true, timed, .unarmed, false, none⟩).goto t
        (.recheck s.nextWaiter) with
      waiters := s.waiters ++ [s.nextWaiter], nextWaiter := s.nextWaiter + 1 } := by
  set s' := ({ (s.setWaiter s.nextWaiter ⟨t, true, timed, .unarmed, false, none⟩).goto t
        (.recheck s.nextWaiter) with
      waiters := s.waiters ++ [s.nextWaiter], nextWaiter := s.nextWaiter + 1 } : AsyncMutex)
  have hself : (s'.tasks t).pc = .recheck s.nextWaiter :=
    congrArg MutexTask.pc (Function.update_self t _ s.tasks)
  have hother : ∀ u ≠ t, s'.tasks u = s.tasks u := fun u hu => Function.update_of_ne hu _ _
  have hwaiter : ∀ v < s.nextWaiter, s'.waiter v = s.waiter v :=
    fun v hv => Function.update_of_ne hv.ne _ _
  have hlook : ∀ u, (s'.tasks u).pc.Looking → u ≠ t := by
    rintro u hu rfl
    rw [hself] at hu
    exact hu
  have hsame : ∀ u, (s'.tasks u).pc.Looking → (s.tasks u).pc.Looking :=
    fun u hu => hother u (hlook u hu) ▸ hu
  refine ⟨.inl ⟨fun u v hu hv => hone.sole u v (hsame u hu) (hsame v hv),
    fun u hu => hone.free u (hsame u hu)⟩, fun u => ?_, ?_, ?_, fun u w hu => ?_,
    fun u w hu hacq => ?_⟩
  · by_cases hut : u = t
    · rw [hut, hself]
      rfl
    · rw [hother u hut]
      exact h.kept u
  · simpa [s', List.pairwise_append, h.sorted] using h.fresh
  · have hfresh := h.fresh
    simp only [s', List.mem_append, List.mem_singleton]
    grind
  · rw [hother u (hlook u (looking_of_waiterInHand hu))] at hu
    have hhand := h.hand u w hu
    simp only [s', List.mem_append, List.mem_singleton]
    grind
  · by_cases hut : u = t
    · rw [hut, hself] at hu
      cases hu
      refine .inl ⟨congrArg AsyncMutexWaiter.active (Function.update_self _ _ s.waiter), .inl ?_⟩
      simp [s']
    · rw [hother u hut] at hu
      have hlt := (hc.owner u w (call_of_enqueued hu)).2.1
      rw [hwaiter w hlt] at hacq
      unfold Found
      rw [hwaiter w hlt]
      have hkeep : ∀ v, (s.tasks v).pc.Looking → s'.tasks v = s.tasks v :=
        fun v hv => hother v (fun hvt => hout (hvt ▸ hv))
      rcases h.found u w hu hacq with ⟨hactive, hmem | ⟨v, hv⟩⟩ | ⟨v, hv⟩
      · exact .inl ⟨hactive, .inl (List.mem_append_left _ hmem)⟩
      · exact .inl ⟨hactive, .inr ⟨v, by rw [hkeep v (by rw [hv]; trivial), hv]⟩⟩
      · exact .inr ⟨v, by rw [hkeep v (by rw [hv]; trivial), hv]⟩

lemma quiet_or_nothing {s : AsyncMutex}
    (h : ∀ u, (s.tasks u).pc.Looking → s.waiters = [] ∧ (s.tasks u).pc = .unlockDequeue) :
    (∀ u, ¬(s.tasks u).pc.Looking) ∨ NothingToFind s := by
  by_cases hlooks : ∃ u, (s.tasks u).pc.Looking
  · obtain ⟨u, hu⟩ := hlooks
    exact .inr ⟨(h u hu).1, fun v hv => (h v hv).2⟩
  · exact .inl fun u hu => hlooks ⟨u, hu⟩

theorem ordered_move {s s' : AsyncMutex} {a : MutexAction} (h : Ordered s) (hc : CallsOk s)
    (hn : NoTimers s) (ho : Owned s) (hfifo : FifoQueue a) (hbar : NoBarging s a)
    (hm : Move s a s') : Ordered s' := by
  cases hm with
  | @readyFree t pick timed hpc hlocked =>
    obtain hquiet | hnothing := quiet_or_nothing (hbar.1 (by rw [hpc]; rfl) hlocked)
    · refine h.of_sole t (fun u hu => absurd hu (hquiet u)) rfl False.elim rfl rfl (.refl _)
        (by rintro _ ⟨⟩) rfl (fun v hacq => ⟨hacq, fun hv => ?_⟩)
      exact hv.stays (by rw [hpc]; rfl) rfl rfl
    · exact h.of_nothing hnothing t rfl False.elim rfl rfl rfl fun _ hacq => hacq
  | @recheckFree t pick w hpc hlocked =>
    obtain hquiet | hnothing := quiet_or_nothing (hbar.1 (by rw [hpc]; rfl) hlocked)
    · refine h.of_sole t (fun u hu => absurd hu (hquiet u)) rfl False.elim rfl rfl (.refl _)
        (by rintro _ ⟨⟩) rfl (fun v hacq => ?_)
      obtain ⟨-, hsame⟩ := waiter_lockFor hacq
      exact ⟨hsame ▸ hacq, fun hv => hv.stays (by rw [hpc]; rfl) hsame rfl⟩
    · refine h.of_nothing hnothing t rfl False.elim rfl rfl rfl fun v hacq => ?_
      exact (waiter_lockFor hacq).2 ▸ hacq
  | @acquireFree t pick w hpc hlocked =>
    obtain ⟨honly, -⟩ := h.oneLooks (t := t) (by rw [hpc]; trivial) (.inr (by rw [hpc]; nofun))
    refine h.of_sole t honly rfl False.elim rfl rfl (.refl _)
      (by rintro _ ⟨⟩) rfl (fun v hacq => ?_)
    obtain ⟨hne, hsame⟩ := waiter_lockFor hacq
    refine ⟨hsame ▸ hacq, fun hv => ?_⟩
    rw [hpc] at hv
    rcases hv with ⟨hactive, hmem | hclaim⟩ | hacquire
    · exact .inl ⟨(congrArg AsyncMutexWaiter.active hsame).trans hactive, .inl hmem⟩
    · cases hclaim
    · cases hacquire
      exact absurd rfl hne
  | @dequeueEmpty t pick hpc hempty =>
    have hnothing : NothingToFind s := by
      refine h.looks.elim (fun hone => ⟨hempty, fun u hu => ?_⟩) id
      rw [hone.sole u t hu (by rw [hpc]; trivial), hpc]
    exact h.of_nothing hnothing t rfl False.elim rfl rfl rfl fun _ hacq => hacq
  | @unlockStore t pick hpc =>
    obtain hone | hnothing := h.looks
    · have hlocked := ho.locked (t, .releasing) (hasRole_pc (by rw [hpc]; rfl))
      have hquiet : ∀ u, ¬(s.tasks u).pc.Looking := by
        intro u hu
        rw [hone.free u hu] at hlocked
        cases hlocked
      refine h.of_sole t (fun u hu => absurd hu (hquiet u)) rfl (fun _ => rfl) rfl rfl (.refl _)
        (by rintro _ ⟨⟩) rfl (fun v hacq => ⟨hacq, fun hv => ?_⟩)
      exact hv.stays (by rw [hpc]; rfl) rfl rfl
    · exact h.of_nothing hnothing t rfl (fun _ => rfl) rfl rfl rfl fun _ hacq => hacq
  | @dequeue t pick w hpc hw =>
    cases hfifo
    obtain ⟨rest, hrest⟩ : ∃ rest, s.waiters = w :: rest :=
      List.head?_eq_some_iff.mp (List.head?_eq_getElem?.trans hw)
    obtain ⟨honly, hfree⟩ := h.oneLooks (t := t) (by rw [hpc]; trivial)
      (.inl (by rw [hrest]; exact List.cons_ne_nil _ _))
    have hsorted := List.pairwise_cons.mp (hrest ▸ h.sorted)
    have hfresh := h.fresh w (by simp [hrest])
    refine h.of_sole t honly rfl (fun _ => hfree) rfl rfl (List.eraseIdx_sublist _ _)
      (fun v hv => ?_) rfl (fun v hacq => ⟨hacq, fun hv => ?_⟩)
    · cases hv
      simpa [hrest] using ⟨hfresh, hsorted.1⟩
    · obtain ⟨hactive, hmem⟩ := hv.queued (by rw [hpc]; rfl)
      rw [hrest, List.mem_cons] at hmem
      rcases hmem with rfl | hmem
      · exact .inl ⟨hactive, .inr rfl⟩
      · exact .inl ⟨hactive, .inl (by simpa [hrest] using hmem)⟩
  | @claim t pick w hpc hactive =>
    obtain ⟨honly, hfree⟩ := h.oneLooks (t := t) (by rw [hpc]; trivial) (.inr (by rw [hpc]; nofun))
    have hhand := h.hand t w (by rw [hpc]; rfl)
    refine h.of_sole t honly rfl (fun _ => hfree) rfl rfl (.refl _) (fun v hv => ?_) rfl
      (fun v hacq => ?_)
    · cases hv
      exact hhand
    · by_cases hvw : v = w
      · subst hvw
        have hkept : ((s.setActive v false).waiter v).acquired = (s.waiter v).acquired := by
          simp [setActive, setWaiter]
        exact ⟨hkept ▸ hacq, fun _ => .inr rfl⟩
      · have hsame : (s.setActive w false).waiter v = s.waiter v := Function.update_of_ne hvw _ _
        refine ⟨hsame ▸ hacq, fun hv => ?_⟩
        rw [hpc] at hv
        rcases hv with ⟨hactive, hmem | hclaim⟩ | hacquire
        · exact .inl ⟨(congrArg AsyncMutexWaiter.active hsame).trans hactive, .inl hmem⟩
        · cases hclaim
          exact absurd rfl hvw
        · cases hacquire
  | @skip t pick w hpc hactive =>
    obtain ⟨honly, hfree⟩ := h.oneLooks (t := t) (by rw [hpc]; trivial) (.inr (by rw [hpc]; nofun))
    refine h.of_sole t honly rfl (fun _ => hfree) rfl rfl (.refl _) (by rintro _ ⟨⟩) rfl
      (fun v hacq => ⟨hacq, fun hv => ?_⟩)
    rw [hpc] at hv
    rcases hv with ⟨hactive', hmem | hclaim⟩ | hacquire
    · exact .inl ⟨hactive', .inl hmem⟩
    · cases hclaim
      exact absurd (hactive.symm.trans hactive') Bool.false_ne_true
    · cases hacquire
  | enqueue hpc => exact h.enqueue (hbar.2 _ hpc) hc (by rw [hpc]; exact id)
  -- under the condition the hand-over finds the mutex free, so no waiter goes back
  | @acquireTaken t pick w hpc hlocked =>
    obtain ⟨-, hfree⟩ := h.oneLooks (t := t) (by rw [hpc]; trivial) (.inr (by rw [hpc]; nofun))
    rw [hlocked] at hfree
    cases hfree
  | @restore t pick w hpc | @requeue t pick w hpc =>
    have hback := h.kept t
    rw [hpc] at hback
    cases hback
  | @selfCancel t pick w hpc =>
    rw [if_neg (by simp [(hn.waiter w).1])]
    exact h.leave hc (by rw [hpc]; rfl) (by rw [hpc]; exact id) (by rw [hpc]; rfl) id
      rfl rfl
  | awaitResume hpc =>
    exact h.leave hc (by rw [hpc]; rfl) (by rw [hpc]; exact id) (by rw [hpc]; rfl) id
      rfl rfl
  | addTimer hpc | cancelTimer hpc | markTimeout hpc =>
    exact absurd (hpc ▸ hn.plain _) (by simp [MutexPc.Plain])
  | expire harmed =>
    rw [(hn.waiter _).2] at harmed
    cases harmed
  | timerWake hexpired =>
    rw [(hn.waiter _).2] at hexpired
    cases hexpired
  | _ =>
    refine h.frame rfl rfl rfl (fun u => ?_) (fun u v hu hacq => ⟨rfl, ?_⟩)
    all_goals simp only [goto, setTask, Function.update_apply] at *
    all_goals grind [MutexPc.Looking, enqueued, putsBack]

lemma ordered_of_reaches {s : AsyncMutex}
    (h : Reaches step (fun s a => s.Untimed a ∧ FifoQueue a ∧ NoBarging s a) init s) :
    CallsOk s ∧ NoTimers s ∧ Owned s ∧ Ordered s := by
  refine h.invariant (P := fun s => CallsOk s ∧ NoTimers s ∧ Owned s ∧ Ordered s)
    ⟨callsOk_init, noTimers_init, owned_init, ordered_init⟩ ?_
  rintro s a s' ⟨hc, hn, ho, hord⟩ ⟨huntimed, hfifo, hbar⟩ hs
  have hm := move_of_step hs
  exact ⟨callsOk_move hc hm, noTimers_move hn huntimed hm, owned_move ho hn hm,
    ordered_move hord hc hn ho hfifo hbar hm⟩

/-- Suspended tasks are handed the mutex in the order in which they were enqueued, in runs
in which no `lock()` takes the mutex from under an `unlock()` that finds a waiter. -/
theorem handed_in_order {s : AsyncMutex}
    (h : Reaches step (fun s a => s.Untimed a ∧ FifoQueue a ∧ NoBarging s a) init s) :
    ¬Overtakes s := by
  rintro ⟨t, u₁, u₂, w₁, w₂, hlt, hpc₁, -, hacq, hpc, -⟩
  obtain ⟨-, -, -, hord⟩ := ordered_of_reaches h
  have hlook : (s.tasks t).pc.Looking := by rw [hpc]; trivial
  obtain ⟨honly, -⟩ := hord.oneLooks hlook (.inr (by rw [hpc]; nofun))
  have hhand := (hord.hand t w₂ (by rw [hpc]; rfl)).2
  rcases hord.found u₁ w₁ (by rw [hpc₁]; rfl) hacq with ⟨-, hmem | ⟨u, hu⟩⟩ | ⟨u, hu⟩
  · exact absurd (hhand w₁ hmem) hlt.asymm
  · obtain rfl := honly u (by rw [hu]; trivial)
    rw [hpc] at hu
    cases hu
  · obtain rfl := honly u (by rw [hu]; trivial)
    rw [hpc] at hu
    cases hu
    exact lt_irrefl _ hlt

instance : DecidablePred FifoQueue
  | .run _ pick => inferInstanceAs (Decidable (pick = 0))
  | .lock _ _ | .unlock _ | .park _ | .wakeOther _ | .resume _ | .expire _ | .timerWake _ =>
    inferInstanceAs (Decidable True)

def looks (pc : MutexPc) : Bool := pc = .unlockDequeue || (waiterInHand pc).isSome

lemma looks_of_looking {pc : MutexPc} (h : pc.Looking) : looks pc = true := by
  cases pc <;> first | rfl | cases h

def enqueues : MutexPc → Bool
  | .awaitSuspend _ => true
  | _ => false

def amongThree (s : AsyncMutex) (a : MutexAction) : Bool :=
  decide (s.Untimed a ∧ FifoQueue a) && match a with
    | .lock t _ | .unlock t | .resume t => decide (t < 3)
    | .run t _ => decide (t < 3) &&
      (!triesLock (s.tasks t).pc || s.locked || s.waiters = [] && (List.range 3).all fun u =>
        !looks (s.tasks u).pc || (s.tasks u).pc = .unlockDequeue) &&
      (!enqueues (s.tasks t).pc || (List.range 3).all fun u => !looks (s.tasks u).pc)
    | _ => false

def OthersIdle (s : AsyncMutex) : Prop := ∀ u, 3 ≤ u → (s.tasks u).pc = .idle

lemma othersIdle_step {s s' : AsyncMutex} {a : MutexAction} (h : OthersIdle s)
    (ha : amongThree s a = true) (hs : step s a = some s') : OthersIdle s' := by
  intro u hu
  have hidle := h u hu
  obtain ⟨-, ha⟩ := Bool.and_eq_true_iff.mp ha
  cases move_of_step hs <;>
    simp only [goto, setTask, setWaiter, setActive, setTimer, lockFor, returnFrom,
      Function.update_apply] <;> grind

lemma amongThree_ok {s : AsyncMutex} {a : MutexAction} (h : OthersIdle s)
    (ha : amongThree s a = true) : s.Untimed a ∧ FifoQueue a ∧ NoBarging s a := by
  have hthree : ∀ u, (s.tasks u).pc.Looking → u < 3 := by
    intro u hu
    by_contra hge
    rw [h u (Nat.le_of_not_lt hge)] at hu
    exact hu
  obtain ⟨hok, ha⟩ := Bool.and_eq_true_iff.mp ha
  obtain ⟨huntimed, hfifo⟩ := of_decide_eq_true hok
  refine ⟨huntimed, hfifo, ?_⟩
  cases a with
  | run t pick =>
    simp only [Bool.and_eq_true, Bool.or_eq_true, Bool.not_eq_true', List.all_eq_true,
      List.mem_range, decide_eq_true_eq] at ha
    obtain ⟨⟨-, htries⟩, henqueues⟩ := ha
    refine ⟨fun htry hfree u hu => ?_, fun timed hpc => ?_⟩
    · rw [htry, hfree] at htries
      obtain ⟨hempty, hall⟩ := htries.resolve_left (by simp)
      exact ⟨hempty, (hall u (hthree u hu)).resolve_left (by simp [looks_of_looking hu])⟩
    · rw [hpc] at henqueues
      have hnone := henqueues.resolve_left (by simp [enqueues])
      have hquiet : ∀ u, ¬(s.tasks u).pc.Looking := fun u hu =>
        absurd (looks_of_looking hu) (by simp [hnone u (hthree u hu)])
      exact ⟨fun v _ hv => absurd hv (hquiet v), fun v hv => absurd hv (hquiet v)⟩
  | _ => trivial

/-- Task 1 locks while the `unlock()` of task 0 has no waiter to find, and then the tasks 2 and 0
wait for task 1, which unlocks and is about to take the mutex for the waiter of task 2. -/
def twoWaitersRun : List MutexAction :=
  [.lock 0 false, .run 0 0, .unlock 0, .run 0 0, .lock 1 false, .run 1 0, .run 0 0,
    .lock 2 false, .run 2 0, .run 2 0, .run 2 0, .lock 0 false, .run 0 0, .run 0 0, .run 0 0,
    .unlock 1, .run 1 0, .run 1 0, .run 1 0]

theorem twoWaitersRun_handed_in_order : ∃ s, run step init twoWaitersRun = some s ∧
    (s.tasks 1).pc = .unlockAcquire 0 ∧ s.waiters = [1] ∧ ¬Overtakes s := by
  obtain ⟨s, hrun, hpc, hwaiters⟩ : ∃ s, run (guarded amongThree step) init twoWaitersRun = some s ∧
      (s.tasks 1).pc = .unlockAcquire 0 ∧ s.waiters = [1] := ⟨_, rfl, rfl, rfl⟩
  have hreach : Reaches step (fun s a => amongThree s a = true) init s :=
    .of_run amongThree (fun _ _ => id) twoWaitersRun .start hrun
  refine ⟨s, run_of_guarded hrun, hpc, hwaiters, handed_in_order ?_⟩
  refine (hreach.strengthen (P := OthersIdle) (fun _ _ => rfl) fun s a s' hidle ha hs => ?_).1
  exact ⟨amongThree_ok hidle ha, othersIdle_step hidle ha hs⟩

/-- Tasks 1 and 2 wait for task 0. When it unlocks, task 3 takes the mutex before it does, so the
first waiter goes behind the second; then task 3 unlocks. -/
def newcomerRun : List MutexAction :=
  [.lock 0 false, .run 0 0, .lock 1 false, .run 1 0, .run 1 0, .run 1 0, .lock 2 false, .run 2 0,
    .run 2 0, .run 2 0, .unlock 0, .run 0 0, .run 0 0, .run 0 0, .lock 3 false, .run 3 0, .run 0 0,
    .run 0 0, .run 0 0, .unlock 3, .run 3 0, .run 3 0, .run 3 0]

/-- A waiter that `unlock()` has to put back loses its place to those enqueued after it. -/
theorem put_back_waiter_overtaken :
    ¬∀ s, Reaches step (fun s a => s.Untimed a ∧ FifoQueue a) init s → ¬Overtakes s := by
  intro h
  obtain ⟨s, hrun, hs⟩ : ∃ s, run (guarded (fun s a => decide (s.Untimed a ∧ FifoQueue a)) step)
      init newcomerRun = some s ∧ Overtakes s :=
    ⟨_, rfl, 3, 1, 2, 0, 1, by decide, rfl, rfl, rfl, rfl, rfl⟩
  exact h s (Reaches.start.of_run _ (fun _ _ => of_decide_eq_true) newcomerRun hrun) hs

end GalayKernel.Proofs
