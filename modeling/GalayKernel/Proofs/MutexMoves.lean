import GalayKernel.AsyncMutex
import GalayKernel.Lib.Threads

namespace GalayKernel.Proofs
open AsyncMutex

/-- One constructor for each branch of `AsyncMutex.step`. -/
inductive Move (s : AsyncMutex) : MutexAction → AsyncMutex → Prop
  | lock {t : Nat} {timed : Bool} (hpc : (s.tasks t).pc = .idle) :
      Move s (.lock t timed) (s.goto t (.awaitReady timed))
  | unlock {t : Nat} (hpc : (s.tasks t).pc = .idle) (hholds : (s.tasks t).holds = true) :
      Move s (.unlock t) (s.setTask t { s.tasks t with pc := .unlockStore, holds := false })
  | park {t : Nat} (hpc : (s.tasks t).pc = .idle) : Move s (.park t) (s.goto t .parked)
  | wakeOther {t : Nat} : Move s (.wakeOther t) (s.setTask t { s.tasks t with queued := true })
  | resumeParked {t : Nat} (hpc : (s.tasks t).pc = .parked) :
      Move s (.resume t) (s.setTask t ⟨.idle, false, (s.tasks t).holds, false, false⟩)
  | resumeTimed {t w : Nat} (hpc : (s.tasks t).pc = .suspended w)
      (hwoken : (s.tasks t).wokenByUnlock = true ∨ (s.tasks t).wokenByTimer = true)
      (htimed : (s.waiter w).timed = true) :
      Move s (.resume t) (s.setTask t ⟨.loadTimeouted w, false, (s.tasks t).holds, false, false⟩)
  | resumeUntimed {t w : Nat} (hpc : (s.tasks t).pc = .suspended w)
      (hwoken : (s.tasks t).wokenByUnlock = true ∨ (s.tasks t).wokenByTimer = true)
      (htimed : (s.waiter w).timed = false) :
      Move s (.resume t)
        (s.setTask t ⟨.awaitResume w .success, false, (s.tasks t).holds, false, false⟩)
  | readyTaken {t pick : Nat} {timed : Bool} (hpc : (s.tasks t).pc = .awaitReady timed)
      (hlocked : s.locked = true) : Move s (.run t pick) (s.goto t (.awaitSuspend timed))
  | readyFree {t pick : Nat} {timed : Bool} (hpc : (s.tasks t).pc = .awaitReady timed)
      (hlocked : s.locked = false) :
      Move s (.run t pick)
        { s.setTask t { s.tasks t with pc := .idle, holds := true } with locked := true }
  | enqueue {t pick : Nat} {timed : Bool} (hpc : (s.tasks t).pc = .awaitSuspend timed) :
      Move s (.run t pick)
        { (s.setWaiter s.nextWaiter ⟨t, true, timed, .unarmed, false, none⟩).goto t
            (.recheck s.nextWaiter) with
          waiters := s.waiters ++ [s.nextWaiter], nextWaiter := s.nextWaiter + 1 }
  | recheckTimed {t pick w : Nat} (hpc : (s.tasks t).pc = .recheck w)
      (hlocked : s.locked = true) (htimed : (s.waiter w).timed = true) :
      Move s (.run t pick) (s.goto t (.addTimer w))
  | recheckUntimed {t pick w : Nat} (hpc : (s.tasks t).pc = .recheck w)
      (hlocked : s.locked = true) (htimed : (s.waiter w).timed = false) :
      Move s (.run t pick) (s.goto t (.suspended w))
  | recheckFree {t pick w : Nat} (hpc : (s.tasks t).pc = .recheck w)
      (hlocked : s.locked = false) : Move s (.run t pick) ((s.lockFor w).goto t (.selfCancel w))
  | selfCancel {t pick w : Nat} (hpc : (s.tasks t).pc = .selfCancel w) :
      Move s (.run t pick) ((s.setActive w false).goto t
        (if (s.waiter w).timed then .loadTimeouted w else .awaitResume w .success))
  | addTimer {t pick w : Nat} (hpc : (s.tasks t).pc = .addTimer w) :
      Move s (.run t pick) ((s.setTimer w .armed).goto t (.suspended w))
  | timeouted {t pick w : Nat} (hpc : (s.tasks t).pc = .loadTimeouted w)
      (hout : (s.waiter w).timer.timeouted = true) :
      Move s (.run t pick) (s.goto t (.markTimeout w))
  | notTimeouted {t pick w : Nat} (hpc : (s.tasks t).pc = .loadTimeouted w)
      (hout : (s.waiter w).timer.timeouted = false) :
      Move s (.run t pick) (s.goto t (.cancelTimer w))
  | cancelTimer {t pick w : Nat} (hpc : (s.tasks t).pc = .cancelTimer w) :
      Move s (.run t pick)
        ((s.setTimer w (s.waiter w).timer.cancel).goto t (.awaitResume w .success))
  | markTimeout {t pick w : Nat} (hpc : (s.tasks t).pc = .markTimeout w) :
      Move s (.run t pick) ((s.setActive w false).goto t (.awaitResume w .timeout))
  | awaitResume {t pick w : Nat} {result : LockResult}
      (hpc : (s.tasks t).pc = .awaitResume w result) :
      Move s (.run t pick) (s.returnFrom t w result)
  | unlockStore {t pick : Nat} (hpc : (s.tasks t).pc = .unlockStore) :
      Move s (.run t pick) { s.goto t .unlockDequeue with locked := false }
  | dequeueEmpty {t pick : Nat} (hpc : (s.tasks t).pc = .unlockDequeue) (hempty : s.waiters = []) :
      Move s (.run t pick) (s.goto t .idle)
  | dequeue {t pick w : Nat} (hpc : (s.tasks t).pc = .unlockDequeue)
      (hw : s.waiters[pick]? = some w) :
      Move s (.run t pick) { s.goto t (.unlockClaim w) with waiters := s.waiters.eraseIdx pick }
  | claim {t pick w : Nat} (hpc : (s.tasks t).pc = .unlockClaim w)
      (hactive : (s.waiter w).active = true) :
      Move s (.run t pick) ((s.setActive w false).goto t (.unlockAcquire w))
  | skip {t pick w : Nat} (hpc : (s.tasks t).pc = .unlockClaim w)
      (hactive : (s.waiter w).active = false) : Move s (.run t pick) (s.goto t .unlockDequeue)
  | acquireTaken {t pick w : Nat} (hpc : (s.tasks t).pc = .unlockAcquire w)
      (hlocked : s.locked = true) : Move s (.run t pick) (s.goto t (.unlockRestore w))
  | acquireFree {t pick w : Nat} (hpc : (s.tasks t).pc = .unlockAcquire w)
      (hlocked : s.locked = false) : Move s (.run t pick) ((s.lockFor w).goto t (.unlockWake w))
  | wake {t pick w u : Nat} (hpc : (s.tasks t).pc = .unlockWake w) (hu : (s.waiter w).task = u) :
      Move s (.run t pick)
        ((s.setTask u { s.tasks u with queued := true, wokenByUnlock := true }).goto t .idle)
  | restore {t pick w : Nat} (hpc : (s.tasks t).pc = .unlockRestore w) :
      Move s (.run t pick) ((s.setActive w true).goto t (.unlockRequeue w))
  | requeue {t pick w : Nat} (hpc : (s.tasks t).pc = .unlockRequeue w) :
      Move s (.run t pick) { s.goto t .idle with waiters := s.waiters ++ [w] }
  | expire {w : Nat} (harmed : (s.waiter w).timer = .armed) (hpending : (s.waiter w).result = none) :
      Move s (.expire w) (s.setTimer w .expired)
  | timerWake {w u : Nat} (hexpired : (s.waiter w).timer = .expired) (hu : (s.waiter w).task = u) :
      Move s (.timerWake w)
        ((s.setTimer w .done).setTask u { s.tasks u with queued := true, wokenByTimer := true })

lemma move_of_runTask {s s' : AsyncMutex} {t pick : Nat} (h : s.runTask t pick = some s') :
    Move s (.run t pick) s' := by
  unfold runTask at h
  split at h
  case h_1 | h_2 | h_3 => cases h
  case h_4 hpc =>
    split at h <;> cases h
    · exact .readyTaken hpc ‹_›
    · exact .readyFree hpc (by simpa using ‹¬s.locked = true›)
  case h_5 hpc => cases h; exact .enqueue hpc
  case h_6 w hpc =>
    split at h <;> cases h
    · cases htimed : (s.waiter w).timed with
      | true => exact .recheckTimed hpc ‹_› htimed
      | false => exact .recheckUntimed hpc ‹_› htimed
    · exact .recheckFree hpc (by simpa using ‹¬s.locked = true›)
  case h_7 hpc => cases h; exact .selfCancel hpc
  case h_8 hpc => cases h; exact .addTimer hpc
  case h_9 w hpc =>
    cases h
    cases hout : (s.waiter w).timer.timeouted with
    | true => exact .timeouted hpc hout
    | false => exact .notTimeouted hpc hout
  case h_10 hpc => cases h; exact .cancelTimer hpc
  case h_11 hpc => cases h; exact .markTimeout hpc
  case h_12 hpc => cases h; exact .awaitResume hpc
  case h_13 hpc => cases h; exact .unlockStore hpc
  case h_14 hpc =>
    split at h
    · cases h; exact .dequeueEmpty hpc ‹_›
    · obtain ⟨w, hw, rfl⟩ := Option.map_eq_some_iff.mp h
      exact .dequeue hpc hw
  case h_15 w hpc =>
    split at h <;> cases h
    · exact .claim hpc ‹_›
    · exact .skip hpc (by simpa using ‹¬(s.waiter w).active = true›)
  case h_16 hpc =>
    split at h <;> cases h
    · exact .acquireTaken hpc ‹_›
    · exact .acquireFree hpc (by simpa using ‹¬s.locked = true›)
  case h_17 hpc => cases h; exact .wake hpc rfl
  case h_18 hpc => cases h; exact .restore hpc
  case h_19 hpc => cases h; exact .requeue hpc

lemma move_of_resumeTask {s s' : AsyncMutex} {t : Nat} (h : s.resumeTask t = some s') :
    Move s (.resume t) s' := by
  simp only [resumeTask] at h
  split at h
  · split at h <;> cases h
    exact .resumeParked ‹_›
  · rename_i w hpc
    split at h <;> cases h
    have hwoken : (s.tasks t).wokenByUnlock = true ∨ (s.tasks t).wokenByTimer = true := by
      simp_all
    cases htimed : (s.waiter w).timed with
    | true => exact .resumeTimed hpc hwoken htimed
    | false => exact .resumeUntimed hpc hwoken htimed
  · cases h

/-- Every step is one of the listed moves. -/
theorem move_of_step {s s' : AsyncMutex} {a : MutexAction} (h : s.step a = some s') :
    Move s a s' := by
  cases a with
  | lock t timed =>
    simp only [step] at h
    split at h <;> cases h
    exact .lock ‹_›
  | unlock t =>
    simp only [step] at h
    split at h <;> cases h
    rename_i hidle
    exact .unlock hidle.1 hidle.2
  | park t =>
    simp only [step] at h
    split at h <;> cases h
    exact .park ‹_›
  | wakeOther t => cases h; exact .wakeOther
  | resume t => exact move_of_resumeTask h
  | run t pick => exact move_of_runTask h
  | expire w =>
    simp only [step] at h
    split at h <;> cases h
    rename_i harmed
    exact .expire harmed.1 harmed.2
  | timerWake w =>
    simp only [step] at h
    split at h <;> cases h
    exact .timerWake ‹_› rfl

lemma pc_setTask {s : AsyncMutex} {u : Nat} {task : MutexTask} (hpc : task.pc = (s.tasks u).pc)
    (t : Nat) : ((s.setTask u task).tasks t).pc = (s.tasks t).pc := by
  simp only [setTask, Function.update_apply]
  split
  · next ht => rw [ht, hpc]
  · rfl

/-- A call that has not returned is exactly where its task stands. -/
structure CallsOk (s : AsyncMutex) : Prop where
  owner : ∀ t w, (s.tasks t).pc.call = some w →
    (s.waiter w).task = t ∧ w < s.nextWaiter ∧ (s.waiter w).result = none
  pending : ∀ w < s.nextWaiter, (s.waiter w).result = none →
    (s.tasks (s.waiter w).task).pc.call = some w

lemma callsOk_init : CallsOk init where
  owner := by intro t w h; cases h
  pending := by intro w h; cases h

/-- Only the task of a call stands at one of the program points of the call. -/
lemma CallsOk.same_task {s : AsyncMutex} (h : CallsOk s) {t u w : Nat}
    (ht : (s.tasks t).pc.call = some w) (hu : (s.tasks u).pc.call = some w) : u = t :=
  (h.owner u w hu).1.symm.trans (h.owner t w ht).1

lemma CallsOk.frame {s s' : AsyncMutex} (h : CallsOk s) (hn : s'.nextWaiter = s.nextWaiter)
    (hw : ∀ w, (s'.waiter w).task = (s.waiter w).task ∧ (s'.waiter w).result = (s.waiter w).result)
    (hc : ∀ t, (s'.tasks t).pc.call = (s.tasks t).pc.call) : CallsOk s' where
  owner t w ht := by
    rw [hc] at ht
    rw [(hw w).1, (hw w).2, hn]
    exact h.owner t w ht
  pending w hlt hr := by
    rw [(hw w).2] at hr
    rw [(hw w).1, hc]
    exact h.pending w (hn ▸ hlt) hr

lemma CallsOk.setTask {s : AsyncMutex} (h : CallsOk s) {t : Nat} {task : MutexTask}
    (hcall : task.pc.call = (s.tasks t).pc.call) : CallsOk (s.setTask t task) := by
  refine h.frame rfl (fun _ => ⟨rfl, rfl⟩) fun u => ?_
  show (Function.update s.tasks t task u).pc.call = (s.tasks u).pc.call
  rw [Function.update_apply]
  split
  · next hu => rw [hu, hcall]
  · rfl

lemma CallsOk.goto {s : AsyncMutex} (h : CallsOk s) {t : Nat} {pc : MutexPc} (pc' : MutexPc)
    (hpc : (s.tasks t).pc = pc) (hcall : pc'.call = pc.call) : CallsOk (s.goto t pc') :=
  h.setTask (hpc ▸ hcall)

lemma CallsOk.setWaiter {s : AsyncMutex} (h : CallsOk s) {w : Nat} {waiter : AsyncMutexWaiter}
    (htask : waiter.task = (s.waiter w).task) (hresult : waiter.result = (s.waiter w).result) :
    CallsOk (s.setWaiter w waiter) := by
  refine h.frame rfl (fun i => ?_) fun _ => rfl
  show (Function.update s.waiter w waiter i).task = _ ∧
    (Function.update s.waiter w waiter i).result = _
  rw [Function.update_apply]
  split
  · next hi => exact ⟨hi ▸ htask, hi ▸ hresult⟩
  · exact ⟨rfl, rfl⟩

lemma CallsOk.setActive {s : AsyncMutex} (h : CallsOk s) (w : Nat) (value : Bool) :
    CallsOk (s.setActive w value) :=
  h.setWaiter rfl rfl

lemma CallsOk.setTimer {s : AsyncMutex} (h : CallsOk s) (w : Nat) (timer : WaitTimer) :
    CallsOk (s.setTimer w timer) :=
  h.setWaiter rfl rfl

lemma CallsOk.of_same {s s' : AsyncMutex} (h : CallsOk s) (hn : s'.nextWaiter = s.nextWaiter)
    (hw : s'.waiter = s.waiter) (ht : s'.tasks = s.tasks) : CallsOk s' :=
  h.frame hn (fun w => by rw [hw]; exact ⟨rfl, rfl⟩) fun t => by rw [ht]

lemma CallsOk.lockFor {s : AsyncMutex} (h : CallsOk s) (w : Nat) : CallsOk (s.lockFor w) := by
  have hset : CallsOk (s.setWaiter w { s.waiter w with acquired := true }) := h.setWaiter rfl rfl
  exact hset.of_same rfl rfl rfl

theorem callsOk_move {s s' : AsyncMutex} {a : MutexAction} (h : CallsOk s) (hm : Move s a s') :
    CallsOk s' := by
  cases hm with
  | enqueue hpc =>
    obtain ⟨ho, hp⟩ := h
    constructor <;> simp only [AsyncMutex.goto, AsyncMutex.setTask, AsyncMutex.setWaiter,
      Function.update_apply] <;> grind [MutexPc.call]
  | awaitResume hpc =>
    obtain ⟨ho, hp⟩ := h
    constructor <;> simp only [returnFrom, AsyncMutex.setTask, AsyncMutex.setWaiter,
      Function.update_apply] <;> grind [MutexPc.call]
  | lock hpc | park hpc | readyTaken hpc | recheckTimed hpc | recheckUntimed hpc | timeouted hpc
  | notTimeouted hpc | dequeueEmpty hpc | skip hpc | acquireTaken hpc => exact h.goto _ hpc rfl
  | unlock hpc | resumeParked hpc | resumeTimed hpc | resumeUntimed hpc =>
    exact h.setTask (by rw [hpc]; rfl)
  | wakeOther => exact h.setTask rfl
  | @readyFree t _ _ hpc =>
    have hset : CallsOk (s.setTask t { s.tasks t with pc := .idle, holds := true }) :=
      h.setTask (by rw [hpc]; rfl)
    exact hset.of_same rfl rfl rfl
  | unlockStore hpc => exact (h.goto .unlockDequeue hpc rfl).of_same rfl rfl rfl
  | @dequeue _ _ w hpc => exact (h.goto (.unlockClaim w) hpc rfl).of_same rfl rfl rfl
  | requeue hpc => exact (h.goto .idle hpc rfl).of_same rfl rfl rfl
  | recheckFree hpc | acquireFree hpc => exact (h.lockFor _).goto _ hpc rfl
  | @selfCancel _ _ w hpc =>
    refine (h.setActive w false).goto _ hpc ?_
    split <;> rfl
  | claim hpc | markTimeout hpc | restore hpc => exact (h.setActive _ _).goto _ hpc rfl
  | addTimer hpc | cancelTimer hpc => exact (h.setTimer _ _).goto _ hpc rfl
  | @wake t _ w u hpc =>
    have hset : CallsOk (s.setTask u { s.tasks u with queued := true, wokenByUnlock := true }) :=
      h.setTask rfl
    refine hset.goto .idle ((pc_setTask ?_ t).trans hpc) ?_
    · rfl
    · rfl
  | expire => exact h.setTimer _ _
  | timerWake => exact (h.setTimer _ _).setTask rfl

/-- Every waiter in the queue or in the hands of an `unlock()` was made by some call. -/
structure QueueOk (s : AsyncMutex) : Prop where
  queue : ∀ w ∈ s.waiters, w < s.nextWaiter
  taken : ∀ t w, (s.tasks t).pc.taken = some w → w < s.nextWaiter

lemma queueOk_init : QueueOk init where
  queue _ h := by cases h
  taken _ _ h := by cases h

lemma QueueOk.setTask {s : AsyncMutex} (h : QueueOk s) {t : Nat} {task : MutexTask}
    (htaken : ∀ w, task.pc.taken = some w → w < s.nextWaiter) : QueueOk (s.setTask t task) where
  queue := h.queue
  taken := Threads.forall_update
    (P := fun x : MutexTask => ∀ w, x.pc.taken = some w → w < s.nextWaiter) htaken h.taken

lemma QueueOk.goto {s : AsyncMutex} (h : QueueOk s) (t : Nat) (pc : MutexPc)
    (hpc : pc.taken = none ∨ pc.taken = (s.tasks t).pc.taken) : QueueOk (s.goto t pc) := by
  refine h.setTask fun w hw => ?_
  rcases hpc with hpc | hpc
  · cases hpc.symm.trans hw
  · exact h.taken t w (hpc.symm.trans hw)

lemma QueueOk.of_same {s s' : AsyncMutex} (h : QueueOk s) (hq : s'.waiters = s.waiters)
    (hn : s'.nextWaiter = s.nextWaiter) (ht : s'.tasks = s.tasks) : QueueOk s' := by
  constructor
  · rw [hq, hn]
    exact h.queue
  · rw [ht, hn]
    exact h.taken

lemma QueueOk.withQueue {s s' : AsyncMutex} (h : QueueOk s)
    (hq : ∀ w ∈ s'.waiters, w < s'.nextWaiter) (hn : s.nextWaiter ≤ s'.nextWaiter)
    (ht : s'.tasks = s.tasks) : QueueOk s' where
  queue := hq
  taken t w hw := by
    rw [ht] at hw
    exact Nat.lt_of_lt_of_le (h.taken t w hw) hn

theorem queueOk_move {s s' : AsyncMutex} {a : MutexAction} (h : QueueOk s) (hm : Move s a s') :
    QueueOk s' := by
  cases hm with
  | lock | park | readyTaken | recheckTimed | recheckUntimed | timeouted | notTimeouted
  | dequeueEmpty | skip => exact h.goto _ _ (.inl rfl)
  | unlock | resumeParked | resumeTimed | resumeUntimed => exact h.setTask nofun
  | @wakeOther t => exact h.setTask (h.taken t)
  | @readyFree t =>
    have hset : QueueOk (s.setTask t { s.tasks t with pc := .idle, holds := true }) :=
      h.setTask nofun
    exact hset.of_same rfl rfl rfl
  | @enqueue t _ timed =>
    refine (h.goto t (.recheck s.nextWaiter) (.inl rfl)).withQueue (fun w hw => ?_)
      (Nat.le_succ _) rfl
    rcases List.mem_append.mp hw with hw | hw
    · exact Nat.lt_succ_of_lt (h.queue w hw)
    · rw [List.mem_singleton.mp hw]
      exact Nat.lt_succ_self _
  | @recheckFree t _ w =>
    have hlock : QueueOk (s.lockFor w) := h.of_same rfl rfl rfl
    exact hlock.goto t _ (.inl rfl)
  | @selfCancel t _ w =>
    have hactive : QueueOk (s.setActive w false) := h.of_same rfl rfl rfl
    refine hactive.goto t _ (.inl ?_)
    split <;> rfl
  | @markTimeout t _ w =>
    have hactive : QueueOk (s.setActive w false) := h.of_same rfl rfl rfl
    exact hactive.goto t _ (.inl rfl)
  | @addTimer t _ w =>
    have htimer : QueueOk (s.setTimer w .armed) := h.of_same rfl rfl rfl
    exact htimer.goto t _ (.inl rfl)
  | @cancelTimer t _ w =>
    have htimer : QueueOk (s.setTimer w (s.waiter w).timer.cancel) := h.of_same rfl rfl rfl
    exact htimer.goto t _ (.inl rfl)
  | @awaitResume t _ w result =>
    have hidle : QueueOk (s.setTask t
        { s.tasks t with pc := .idle, holds := (s.tasks t).holds || result == .success }) :=
      h.setTask nofun
    exact hidle.of_same rfl rfl rfl
  | unlockStore => exact (h.goto _ .unlockDequeue (.inl rfl)).of_same rfl rfl rfl
  | @dequeue t pick w hpc hw =>
    have hlt := h.queue w (List.mem_of_getElem? hw)
    have hgoto : QueueOk (s.goto t (.unlockClaim w)) :=
      h.setTask fun i hi => Option.some.inj hi ▸ hlt
    exact hgoto.withQueue (fun i hi => h.queue i (List.mem_of_mem_eraseIdx hi)) (Nat.le_refl _) rfl
  | @claim t _ w hpc =>
    have hactive : QueueOk (s.setActive w false) := h.of_same rfl rfl rfl
    exact hactive.goto t _ (.inr (hpc ▸ rfl))
  | @acquireTaken t _ w hpc => exact h.goto t _ (.inr (hpc ▸ rfl))
  | @acquireFree t _ w hpc =>
    have hlock : QueueOk (s.lockFor w) := h.of_same rfl rfl rfl
    exact hlock.goto t _ (.inr (hpc ▸ rfl))
  | @wake t _ w u =>
    have hset : QueueOk (s.setTask u { s.tasks u with queued := true, wokenByUnlock := true }) :=
      h.setTask (h.taken u)
    exact hset.goto t _ (.inl rfl)
  | @restore t _ w hpc =>
    have hactive : QueueOk (s.setActive w true) := h.of_same rfl rfl rfl
    exact hactive.goto t _ (.inr (hpc ▸ rfl))
  | @requeue t _ w hpc =>
    refine (h.goto t .idle (.inl rfl)).withQueue (fun i hi => ?_) (Nat.le_refl _) rfl
    rcases List.mem_append.mp hi with hi | hi
    · exact h.queue i hi
    · rw [List.mem_singleton.mp hi]
      exact h.taken t w (hpc ▸ rfl)
  | expire => exact h.of_same rfl rfl rfl
  | @timerWake w u =>
    have htimer : QueueOk (s.setTimer w .done) := h.of_same rfl rfl rfl
    exact htimer.setTask (h.taken u)

/-- No call of the run carries a timer. -/
structure NoTimers (s : AsyncMutex) : Prop where
  waiter : ∀ w, (s.waiter w).timed = false ∧ (s.waiter w).timer = .unarmed
  plain : ∀ t, (s.tasks t).pc.Plain
  woken : ∀ t, (s.tasks t).wokenByTimer = false

lemma noTimers_init : NoTimers init where
  waiter _ := ⟨rfl, rfl⟩
  plain _ := trivial
  woken _ := rfl

lemma NoTimers.setTask {s : AsyncMutex} (h : NoTimers s) {t : Nat} {task : MutexTask}
    (hplain : task.pc.Plain) (hwoken : task.wokenByTimer = false) :
    NoTimers (s.setTask t task) where
  waiter := h.waiter
  plain := Threads.forall_update (P := fun x : MutexTask => x.pc.Plain) hplain h.plain
  woken := Threads.forall_update (P := fun x : MutexTask => x.wokenByTimer = false) hwoken h.woken

lemma NoTimers.goto {s : AsyncMutex} (h : NoTimers s) (t : Nat) (pc : MutexPc) (hpc : pc.Plain) :
    NoTimers (s.goto t pc) :=
  h.setTask hpc (h.woken t)

lemma NoTimers.setWaiter {s : AsyncMutex} (h : NoTimers s) {w : Nat} {waiter : AsyncMutexWaiter}
    (htimed : waiter.timed = false) (htimer : waiter.timer = .unarmed) :
    NoTimers (s.setWaiter w waiter) where
  waiter := Threads.forall_update
    (P := fun x : AsyncMutexWaiter => x.timed = false ∧ x.timer = .unarmed)
    ⟨htimed, htimer⟩ h.waiter
  plain := h.plain
  woken := h.woken

lemma NoTimers.setActive {s : AsyncMutex} (h : NoTimers s) (w : Nat) (value : Bool) :
    NoTimers (s.setActive w value) :=
  h.setWaiter (h.waiter w).1 (h.waiter w).2

lemma NoTimers.of_same {s s' : AsyncMutex} (h : NoTimers s) (hw : s'.waiter = s.waiter)
    (ht : s'.tasks = s.tasks) : NoTimers s' := by
  constructor
  · rw [hw]
    exact h.waiter
  · rw [ht]
    exact h.plain
  · rw [ht]
    exact h.woken

lemma NoTimers.lockFor {s : AsyncMutex} (h : NoTimers s) (w : Nat) : NoTimers (s.lockFor w) := by
  have hset : NoTimers (s.setWaiter w { s.waiter w with acquired := true }) :=
    h.setWaiter (h.waiter w).1 (h.waiter w).2
  exact hset.of_same rfl rfl

theorem noTimers_move {s s' : AsyncMutex} {a : MutexAction} (h : NoTimers s)
    (ha : s.Untimed a) (hm : Move s a s') : NoTimers s' := by
  have hno : ∀ {t pc}, (s.tasks t).pc = pc → pc.Plain := fun {t _} hpc => hpc ▸ h.plain t
  cases hm with
  | lock => exact h.goto _ _ ha
  | park | recheckUntimed | dequeueEmpty | skip | acquireTaken => exact h.goto _ _ trivial
  | @unlock t => exact h.setTask trivial (h.woken t)
  | @wakeOther t => exact h.setTask (h.plain t) (h.woken t)
  | resumeParked | resumeUntimed => exact h.setTask (by trivial) rfl
  | resumeTimed _ _ htimed | recheckTimed _ _ htimed =>
    exact absurd ((h.waiter _).1.symm.trans htimed) nofun
  | @readyTaken t _ timed hpc =>
    have huntimed : timed = false := hno hpc
    exact h.goto t _ huntimed
  | @readyFree t =>
    have hset : NoTimers (s.setTask t { s.tasks t with pc := .idle, holds := true }) :=
      h.setTask trivial (h.woken t)
    exact hset.of_same rfl rfl
  | @enqueue t _ timed hpc =>
    have hset : NoTimers (s.setWaiter s.nextWaiter ⟨t, true, timed, .unarmed, false, none⟩) :=
      h.setWaiter (hno hpc) rfl
    exact (hset.goto t (.recheck s.nextWaiter) trivial).of_same rfl rfl
  | recheckFree => exact (h.lockFor _).goto _ _ trivial
  | acquireFree => exact (h.lockFor _).goto _ _ trivial
  | @selfCancel t _ w =>
    refine (h.setActive w false).goto t _ ?_
    rw [(h.waiter w).1]
    rfl
  | addTimer hpc | timeouted hpc | notTimeouted hpc | cancelTimer hpc | markTimeout hpc =>
    exact (hno hpc).elim
  | @awaitResume t _ w result =>
    have hset : NoTimers
        (s.setWaiter w { s.waiter w with active := false, result := some result }) :=
      h.setWaiter (h.waiter w).1 (h.waiter w).2
    refine hset.setTask ?_ ?_
    · exact trivial
    · exact h.woken t
  | unlockStore => exact (h.goto _ .unlockDequeue trivial).of_same rfl rfl
  | @dequeue t _ w => exact (h.goto t (.unlockClaim w) trivial).of_same rfl rfl
  | claim | restore => exact (h.setActive _ _).goto _ _ trivial
  | @wake t _ w u =>
    have hset : NoTimers (s.setTask u { s.tasks u with queued := true, wokenByUnlock := true }) :=
      h.setTask (h.plain u) (h.woken u)
    exact hset.goto t _ trivial
  | requeue => exact (h.goto _ .idle trivial).of_same rfl rfl
  | expire harmed => exact absurd ((h.waiter _).2.symm.trans harmed) nofun
  | timerWake hexpired => exact absurd ((h.waiter _).2.symm.trans hexpired) nofun

end GalayKernel.Proofs
