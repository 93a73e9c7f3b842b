import GalayKernel.IOSchedulerWorkerState
import GalayKernel.SchedulerCore
import GalayKernel.Proofs.TaskRing
import GalayKernel.Lib.Threads

/-!
# Conservation of tasks in the queues of the workers

A worker with its ring and its counter of injected tasks is seen as a `WorkerState`, whose ring is a
list; every call on the worker is the same call on its view. There the calls only move tasks between
the LIFO slot, the ring and the inject queue. A thief has an empty ring, so there is room for
everything that it takes.
-/

namespace GalayKernel

variable {ι τ : Type}

/-- The worker with its ring as a list. -/
def IOSchedulerWorkerState.view (w : IOSchedulerWorkerState ι τ) : WorkerState τ where
  lifoSlot := w.lifoSlot
  localRing := w.localRing.tasks
  injectQueue := w.injectQueue
  injectBuffer := w.injectBuffer
  injectBuffer_pos := w.injectBuffer_pos
  consecutiveLifoPolls := w.consecutiveLifoPolls.toNat
  lifoPollLimit := w.lifoPollLimit.toNat
  pollsSinceInject := w.pollsSinceInject.toNat
  injectCheckInterval := w.injectCheckInterval.toNat
  lifoEnabled := w.lifoEnabled

section View

variable (w : IOSchedulerWorkerState ι τ)

@[simp] lemma IOSchedulerWorkerState.view_lifoSlot : w.view.lifoSlot = w.lifoSlot := rfl

@[simp] lemma IOSchedulerWorkerState.view_localRing : w.view.localRing = w.localRing.tasks := rfl

end View

namespace WorkerState

def tasks (w : WorkerState τ) : List τ := w.lifoSlot.toList ++ w.localRing ++ w.injectQueue

variable (w : WorkerState τ) (task : τ)

lemma enqueueDeferred_tasks : (w.enqueueDeferred task).tasks.Perm (task :: w.tasks) := by
  unfold enqueueDeferred tasks
  split
  · rw [← List.append_assoc]
    exact List.perm_append_singleton ..
  · change (w.lifoSlot.toList ++ (w.localRing ++ [task]) ++ w.injectQueue).Perm _
    rw [← List.append_assoc, List.append_assoc _ [task]]
    exact List.perm_middle

lemma scheduleLocalDeferred_tasks :
    (w.scheduleLocalDeferred task).tasks.Perm (task :: w.tasks) := by
  unfold scheduleLocalDeferred tasks
  rw [← List.append_assoc]
  exact List.perm_append_singleton ..

lemma tasks_of_lifoSlot {w : WorkerState τ} (h : w.lifoSlot = some task) :
    w.tasks = task :: { w with lifoSlot := none }.tasks := by
  unfold tasks
  rw [h]
  rfl

lemma enqueueDeferred_withoutSlot :
    { w.enqueueDeferred task with lifoSlot := none } =
      { w with lifoSlot := none }.enqueueDeferred task := by
  unfold enqueueDeferred remainingCapacity
  split <;> rfl

lemma scheduleLocal_tasks : (w.scheduleLocal task).tasks.Perm (task :: w.tasks) := by
  unfold scheduleLocal
  split
  · split
    · next older hlifo =>
      have hset : { w.enqueueDeferred older with lifoSlot := some task }.tasks =
          task :: { w.enqueueDeferred older with lifoSlot := none }.tasks := rfl
      rw [hset, enqueueDeferred_withoutSlot, tasks_of_lifoSlot older hlifo]
      exact (enqueueDeferred_tasks _ older).cons task
    · next hlifo =>
      unfold tasks
      rw [hlifo]
      exact .refl _
  · exact w.enqueueDeferred_tasks task

lemma drainInjected_tasks : w.drainInjected.tasks.Perm w.tasks := by
  unfold drainInjected
  split
  · exact .refl _
  · unfold tasks
    dsimp only
    rw [← List.append_assoc, List.append_assoc _ w.drained.reverse]
    refine List.Perm.append_left _ ?_
    conv_rhs => rw [← List.take_append_drop (min w.remainingCapacity w.injectBuffer) w.injectQueue]
    exact (List.reverse_perm _).append_right _

lemma prepareForRun_tasks : w.prepareForRun.tasks.Perm w.tasks := by
  unfold prepareForRun
  split
  · next task hlifo =>
    split
    · have hset : { w.enqueueDeferred task with
          lifoSlot := none, lifoEnabled := false, consecutiveLifoPolls := 0 }.tasks =
          { w.enqueueDeferred task with lifoSlot := none }.tasks := rfl
      rw [hset, enqueueDeferred_withoutSlot, tasks_of_lifoSlot task hlifo]
      exact enqueueDeferred_tasks _ task
    · exact .refl _
  · exact .refl _

lemma popNext_tasks : (w.popNext.1.toList ++ w.popNext.2.tasks).Perm w.tasks := by
  refine List.Perm.trans ?_ w.prepareForRun_tasks
  unfold popNext
  dsimp only
  split
  · next task hlifo =>
    rw [tasks_of_lifoSlot task hlifo]
    exact .refl _
  · next hlifo =>
    split
    · next task hlast =>
      obtain ⟨front, hring⟩ := List.getLast?_eq_some_iff.mp hlast
      unfold tasks
      dsimp only
      rw [hlifo, hring, List.dropLast_concat]
      have hfront : (task :: (front ++ w.prepareForRun.injectQueue)).Perm
          (front ++ task :: w.prepareForRun.injectQueue) := List.perm_middle.symm
      simpa using hfront
    · exact .refl _

end WorkerState

end GalayKernel

namespace GalayKernel.Proofs

open Transition

variable {ι τ : Type} {w : IOSchedulerWorkerState ι τ}

/-- The ring holds what it shows, and the counter is right. -/
structure WorkerOk (w : IOSchedulerWorkerState ι τ) : Prop where
  ring : Stores w.localRing w.localRing.tasks
  outstanding : w.injectedOutstanding = w.injectQueue.length

namespace WorkerOk

lemma setRing (h : WorkerOk w) {ring : TaskRing τ} {items : List τ} (hring : Stores ring items) :
    WorkerOk { w with localRing := ring } ∧
      { w with localRing := ring }.view = { w.view with localRing := items } := by
  refine ⟨⟨hring.self, h.outstanding⟩, ?_⟩
  unfold IOSchedulerWorkerState.view
  dsimp only
  rw [hring.tasks]

lemma fallbackToInject (h : WorkerOk w) (task : τ) : WorkerOk (w.fallbackToInject task) where
  ring := h.ring
  outstanding := by
    change w.injectedOutstanding + 1 = (w.injectQueue ++ [task]).length
    rw [h.outstanding, List.length_append, List.length_singleton]

lemma remainingCapacity (h : WorkerOk w) :
    w.localRing.remainingCapacity = w.view.remainingCapacity := h.ring.remainingCapacity

lemma enqueueDeferred (h : WorkerOk w) (task : τ) :
    WorkerOk (w.enqueueDeferred task) ∧
      (w.enqueueDeferred task).view = w.view.enqueueDeferred task := by
  unfold IOSchedulerWorkerState.enqueueDeferred WorkerState.enqueueDeferred
  rw [h.remainingCapacity]
  by_cases hfull : w.view.remainingCapacity = 0
  · rw [if_pos hfull, if_pos hfull]
    exact ⟨h.fallbackToInject task, rfl⟩
  · rw [if_neg hfull, if_neg hfull]
    have hroom : w.localRing.tasks.length < kCapacity := Nat.lt_of_sub_ne_zero hfull
    exact h.setRing (h.ring.pushBack hroom task).2

lemma scheduleLocal (h : WorkerOk w) (task : τ) :
    WorkerOk (w.scheduleLocal (some task)) ∧
      (w.scheduleLocal (some task)).view = w.view.scheduleLocal task := by
  unfold IOSchedulerWorkerState.scheduleLocal WorkerState.scheduleLocal
  dsimp only
  by_cases henabled : w.lifoEnabled = true
  · rw [if_pos henabled, if_pos (c := w.view.lifoEnabled = true) henabled]
    simp only [IOSchedulerWorkerState.view_lifoSlot]
    cases w.lifoSlot with
    | none => exact ⟨⟨h.ring, h.outstanding⟩, rfl⟩
    | some older =>
      obtain ⟨hok, hview⟩ := h.enqueueDeferred older
      refine ⟨⟨hok.ring, hok.outstanding⟩, ?_⟩
      dsimp only
      rw [← hview]
      rfl
  · rw [if_neg henabled, if_neg (c := w.view.lifoEnabled = true) henabled]
    exact h.enqueueDeferred task

/-- `scheduleLocalDeferred` and `scheduleInjected` do the same to the queues. -/
lemma inject (h : WorkerOk w) (task : τ) :
    WorkerOk (w.scheduleLocalDeferred (some task)) ∧
      (w.scheduleInjected (some task)).2 = w.scheduleLocalDeferred (some task) ∧
      (w.scheduleLocalDeferred (some task)).view = w.view.scheduleLocalDeferred task :=
  ⟨h.fallbackToInject task, rfl, rfl⟩

lemma drainInjected (h : WorkerOk w) {order : List τ} (horder : order.Perm w.injectQueue) :
    WorkerOk (w.drainInjected order).2 ∧ (w.view.remainingCapacity ≠ 0 →
      (w.drainInjected order).2.view = { w.view with injectQueue := order }.drainInjected) ∧
      (w.view.remainingCapacity = 0 → (w.drainInjected order).2 = w) := by
  unfold IOSchedulerWorkerState.drainInjected
  rw [if_neg (Nat.ne_of_gt w.injectBuffer_pos), h.remainingCapacity]
  by_cases hfull : w.view.remainingCapacity = 0
  · rw [if_pos hfull]
    exact ⟨h, fun hne => absurd hfull hne, fun _ => rfl⟩
  · rw [if_neg hfull]
    dsimp only
    have hbatch : (order.take (min w.view.remainingCapacity w.injectBuffer)).length ≤
        w.view.remainingCapacity :=
      (List.length_take_le ..).trans (Nat.min_le_left ..)
    have hroom : w.localRing.tasks.length +
        (order.take (min w.view.remainingCapacity w.injectBuffer)).reverse.length ≤ kCapacity := by
      have hfits := h.ring.fits
      have hcapacity : w.view.remainingCapacity = kCapacity - w.localRing.tasks.length := rfl
      rw [List.length_reverse]
      omega
    have hring := h.ring.pushAll hroom
    refine ⟨⟨hring.self, ?_⟩, fun _ => ?_, fun hzero => absurd hzero hfull⟩
    · change w.injectedOutstanding - _ = _
      rw [h.outstanding, ← horder.length_eq, List.length_take, List.length_drop]
      omega
    · have hdrain : { w.view with injectQueue := order }.drainInjected = { w.view with
          localRing := w.localRing.tasks ++
            (order.take (min w.view.remainingCapacity w.injectBuffer)).reverse
          injectQueue := order.drop (min w.view.remainingCapacity w.injectBuffer)
          pollsSinceInject := 0 } := if_neg hfull
      rw [hdrain, ← hring.tasks]
      rfl

lemma prepareForRun (h : WorkerOk w) :
    WorkerOk w.prepareForRun ∧ w.prepareForRun.view = w.view.prepareForRun := by
  unfold IOSchedulerWorkerState.prepareForRun WorkerState.prepareForRun
  simp only [IOSchedulerWorkerState.view_lifoSlot]
  cases w.lifoSlot with
  | none => exact ⟨h, rfl⟩
  | some task =>
    dsimp only
    have hlimit : (w.view.lifoEnabled &&
        decide (w.view.lifoPollLimit ≤ w.view.consecutiveLifoPolls)) =
        (w.lifoEnabled && decide (w.lifoPollLimit ≤ w.consecutiveLifoPolls)) := rfl
    rw [hlimit]
    split
    · obtain ⟨hok, hview⟩ := h.enqueueDeferred task
      rw [← hview]
      exact ⟨⟨hok.ring, hok.outstanding⟩, rfl⟩
    · exact ⟨h, rfl⟩

lemma popNext (h : WorkerOk w) :
    WorkerOk w.popNext.2 ∧ w.popNext.1 = w.view.popNext.1.map some ∧
      w.popNext.2.view = w.view.popNext.2 := by
  obtain ⟨hok, hview⟩ := h.prepareForRun
  unfold IOSchedulerWorkerState.popNext WorkerState.popNext
  rw [← hview]
  generalize w.prepareForRun = w' at hok ⊢
  simp only [IOSchedulerWorkerState.view_lifoSlot, IOSchedulerWorkerState.view_localRing]
  cases hlifo : w'.lifoSlot with
  | some task => exact ⟨⟨hok.ring, hok.outstanding⟩, rfl, rfl⟩
  | none =>
    have hring := hok.ring
    obtain htasks | ⟨front, task, htasks⟩ := List.eq_nil_or_concat' w'.localRing.tasks
    · rw [htasks] at hring
      obtain ⟨hnone, hstores⟩ := hring.popBack_nil
      rw [htasks]
      generalize w'.localRing.popBack = out at hnone hstores ⊢
      obtain ⟨_, ring⟩ := out
      cases hnone
      refine ⟨⟨hstores.self, hok.outstanding⟩, rfl, ?_⟩
      unfold IOSchedulerWorkerState.view
      dsimp only
      rw [hstores.tasks, htasks, hlifo]
      rfl
    · rw [htasks] at hring
      obtain ⟨hsome, hstores⟩ := hring.popBack
      rw [htasks, List.getLast?_concat, List.dropLast_concat]
      generalize w'.localRing.popBack = out at hsome hstores ⊢
      obtain ⟨_, ring⟩ := out
      cases hsome
      refine ⟨⟨hstores.self, hok.outstanding⟩, rfl, ?_⟩
      dsimp only
      rw [← hstores.tasks]
      rfl

end WorkerOk

/-- A thief with room for what it asks for moves the oldest tasks of its victim. -/
lemma stealFrom_spec (ownerOnly : τ → Bool) {target : Nat} {victim own : TaskRing τ}
    {items kept : List τ} (hvictim : Stores victim items) (hown : Stores own kept)
    (hroom : kept.length + target ≤ kCapacity) :
    ∃ moved left, items = moved ++ left ∧
      (IOSchedulerWorkerState.stealFrom ownerOnly target victim own).1 = moved.length ∧
      Stores (IOSchedulerWorkerState.stealFrom ownerOnly target victim own).2.1 left ∧
      Stores (IOSchedulerWorkerState.stealFrom ownerOnly target victim own).2.2 (kept ++ moved) := by
  induction target generalizing victim own items kept with
  | zero => exact ⟨[], items, rfl, rfl, hvictim, by rwa [List.append_nil]⟩
  | succ target ih =>
    rw [IOSchedulerWorkerState.stealFrom]
    cases items with
    | nil =>
      rw [hvictim.stealFront_nil ownerOnly]
      exact ⟨[], [], rfl, rfl, hvictim, by rwa [List.append_nil]⟩
    | cons task items =>
      obtain hnone | ⟨hsome, hrest⟩ := hvictim.stealFront ownerOnly
      · rw [hnone]
        exact ⟨[], task :: items, rfl, rfl, hvictim, by rwa [List.append_nil]⟩
      · generalize victim.stealFront ownerOnly = out at hsome hrest ⊢
        obtain ⟨_, victim'⟩ := out
        cases hsome
        obtain ⟨hpushed, hown'⟩ := hown.pushBack (by omega) task
        dsimp only
        generalize own.pushBack (some task) = out at hpushed hown' ⊢
        obtain ⟨_, own'⟩ := out
        cases hpushed
        obtain ⟨moved, left, hitems, hcount, hleft, hmoved⟩ :=
          ih hrest hown' (by rw [List.length_append, List.length_singleton]; omega)
        refine ⟨task :: moved, left, congrArg (task :: ·) hitems, congrArg (· + 1) hcount, hleft, ?_⟩
        rwa [List.append_cons]

variable [DecidableEq ι] [Fintype ι]

def heldBy (workers : ι → IOSchedulerWorkerState ι τ) : Multiset τ :=
  Buckets.total fun i => (workers i).tasks

lemma heldBy_update (workers : ι → IOSchedulerWorkerState ι τ) (i : ι)
    (w : IOSchedulerWorkerState ι τ) :
    heldBy (Function.update workers i w) + (workers i).tasks = heldBy workers + w.tasks := by
  have htasks : (fun j => (Function.update workers i w j).tasks) =
      Function.update (fun j => (workers j).tasks) i w.tasks := by
    funext j
    by_cases hj : j = i
    · subst hj
      rw [Function.update_self, Function.update_self]
    · rw [Function.update_of_ne hj, Function.update_of_ne hj]
  rw [heldBy, htasks]
  exact Buckets.total_update _ i w.tasks

lemma heldBy_congr {workers : ι → IOSchedulerWorkerState ι τ} {i : ι}
    {w : IOSchedulerWorkerState ι τ} (h : w.tasks.Perm (workers i).tasks) :
    heldBy (Function.update workers i w) = heldBy workers := by
  have hupdate := heldBy_update workers i w
  rw [Multiset.coe_eq_coe.mpr h] at hupdate
  exact add_right_cancel hupdate

lemma heldBy_setRing (workers : ι → IOSchedulerWorkerState ι τ) (i : ι) (ring : TaskRing τ) :
    heldBy (Function.update workers i { workers i with localRing := ring }) +
      (workers i).localRing.tasks = heldBy workers + ring.tasks := by
  have hupdate := heldBy_update workers i { workers i with localRing := ring }
  simp only [IOSchedulerWorkerState.tasks, ← Multiset.coe_add] at hupdate
  refine add_right_cancel (b := ((workers i).lifoSlot.toList + (workers i).injectQueue : Multiset τ)) ?_
  calc _ = heldBy (Function.update workers i { workers i with localRing := ring }) +
        ((workers i).lifoSlot.toList + (workers i).localRing.tasks + (workers i).injectQueue) := by
        abel
    _ = heldBy workers + ((workers i).lifoSlot.toList + ring.tasks + (workers i).injectQueue) :=
        hupdate
    _ = _ := by abel

/-- Tasks move from the ring of worker `j` to the ring of worker `i`. -/
lemma moveTasks_spec {workers : ι → IOSchedulerWorkerState ι τ} (hok : ∀ k, WorkerOk (workers k))
    {i j : ι} (hne : i ≠ j) {victim own : TaskRing τ} {moved left : List τ}
    (htasks : (workers j).localRing.tasks = moved ++ left) (hvictim : Stores victim left)
    (hown : Stores own ((workers i).localRing.tasks ++ moved))
    {stolen : ι → IOSchedulerWorkerState ι τ}
    (hstolen : stolen = Function.update workers j { workers j with localRing := victim }) :
    (∀ k, WorkerOk (Function.update stolen i { workers i with localRing := own } k)) ∧
      heldBy (Function.update stolen i { workers i with localRing := own }) = heldBy workers := by
  have hi : stolen i = workers i := by rw [hstolen, Function.update_of_ne hne]
  have hokStolen : ∀ k, WorkerOk (stolen k) := by
    rw [hstolen]
    exact Threads.forall_update ((hok j).setRing hvictim).1 hok
  refine ⟨Threads.forall_update ((hok i).setRing hown).1 hokStolen, ?_⟩
  have hlost := heldBy_setRing workers j victim
  have hgained := heldBy_setRing stolen i own
  rw [← hstolen, htasks, hvictim.tasks, ← Multiset.coe_add, ← add_assoc] at hlost
  rw [hi, hown.tasks, ← Multiset.coe_add, add_comm ((workers i).localRing.tasks : Multiset τ),
    ← add_assoc] at hgained
  rw [add_right_cancel hgained, add_right_cancel hlost]

lemma probe_spec (ownerOnly : τ → Bool) (i : ι) {capacity : Nat} (hcapacity : capacity ≤ kCapacity)
    (indices : List Nat) {workers : ι → IOSchedulerWorkerState ι τ}
    (hok : ∀ j, WorkerOk (workers j)) (hempty : (workers i).localRing.tasks = []) :
    (∀ j, WorkerOk ((IOSchedulerWorkerState.probe ownerOnly i capacity indices workers).2 j)) ∧
      heldBy (IOSchedulerWorkerState.probe ownerOnly i capacity indices workers).2 =
        heldBy workers := by
  induction indices generalizing workers with
  | nil => exact ⟨hok, rfl⟩
  | cons index indices ih =>
    rw [IOSchedulerWorkerState.probe]
    split
    · exact ih hok hempty
    · split
      · exact ih hok hempty
      · next j hsibling =>
        dsimp only
        split
        · exact ih hok hempty
        · next hsize =>
          rw [(hok j).ring.size] at hsize
          have hne : i ≠ j := by
            rintro rfl
            rw [hempty] at hsize
            exact hsize rfl
          have hown := (hok i).ring
          rw [hempty] at hown
          have hroom : ([] : List τ).length +
              min capacity (max 1 ((workers j).localRing.size / 2)) ≤ kCapacity := by
            rw [List.length_nil]
            omega
          obtain ⟨moved, left, htasks, hcount, hleft, hmoved⟩ :=
            stealFrom_spec ownerOnly (hok j).ring hown hroom
          generalize IOSchedulerWorkerState.stealFrom ownerOnly
            (min capacity (max 1 ((workers j).localRing.size / 2))) (workers j).localRing
            (workers i).localRing = out at hcount hleft hmoved ⊢
          rw [Function.update_of_ne hne]
          rw [← hempty] at hmoved
          obtain ⟨hokMoved, hheld⟩ := moveTasks_spec hok hne htasks hleft hmoved rfl
          split
          · rw [Function.update_self]
            refine ⟨Threads.forall_update ⟨hmoved.self, (hok i).outstanding⟩ hokMoved, ?_⟩
            rw [← hheld]
            refine heldBy_congr ?_
            rw [Function.update_self]
            exact .refl _
          · next hnone =>
            have hnil : moved = [] := List.length_eq_zero_iff.mp (by omega)
            have hstill : (Function.update (Function.update workers j
                { workers j with localRing := out.2.1 }) i
                { workers i with localRing := out.2.2 } i).localRing.tasks = [] := by
              rw [Function.update_self, hmoved.tasks, hempty, hnil]
              rfl
            obtain ⟨hokRest, hheldRest⟩ := ih hokMoved hstill
            exact ⟨hokRest, hheldRest.trans hheld⟩

lemma trySteal_spec (ownerOnly : τ → Bool) (i : ι) (start : Nat)
    {workers : ι → IOSchedulerWorkerState ι τ} (hok : ∀ j, WorkerOk (workers j)) :
    (∀ j, WorkerOk ((IOSchedulerWorkerState.trySteal workers i start ownerOnly).2 j)) ∧
      heldBy (IOSchedulerWorkerState.trySteal workers i start ownerOnly).2 = heldBy workers := by
  unfold IOSchedulerWorkerState.trySteal
  dsimp only
  split
  · exact ⟨hok, rfl⟩
  · next hidle =>
    split
    · exact ⟨hok, rfl⟩
    · have hempty : (workers i).localRing.tasks = [] := by
        simp only [IOSchedulerWorkerState.hasLocalWork, (hok i).ring.isEmpty, Bool.or_eq_true,
          not_or] at hidle
        simpa using hidle.1.1.2.2
      have hcapacity : (workers i).localRing.remainingCapacity ≤ kCapacity := by
        rw [(hok i).ring.remainingCapacity]
        exact Nat.sub_le ..
      have hokCounted : ∀ j, WorkerOk (Function.update workers i
          { workers i with stealAttempts := (workers i).stealAttempts + 1 } j) :=
        Threads.forall_update ⟨(hok i).ring, (hok i).outstanding⟩ hok
      obtain ⟨hokProbe, hheld⟩ := probe_spec ownerOnly i hcapacity
        ((List.range (workers i).siblings.length).map
          fun k => (start + k) % (workers i).siblings.length)
        hokCounted (by rw [Function.update_self]; exact hempty)
      exact ⟨hokProbe, hheld.trans (heldBy_congr (.refl _))⟩

section Runs

variable {s s' : IOWorkers ι τ}

/-- Every task that was scheduled has been returned or is held. -/
structure QueuesOk (s : IOWorkers ι τ) : Prop where
  worker : ∀ i, WorkerOk (s.workers i)
  valid : none ∉ s.returned
  conserved : (s.scheduled : Multiset τ) = s.returned.filterMap id + heldBy s.workers

omit [DecidableEq ι] in
lemma queuesOk_new (config : ι → WorkerConfig ι) : QueuesOk (.new config : IOWorkers ι τ) where
  worker := fun _ => ⟨(stores_new.tasks ▸ stores_new : Stores .new TaskRing.new.tasks), rfl⟩
  valid := List.not_mem_nil
  conserved := by
    have htasks : (fun i => ((.new config : IOWorkers ι τ).workers i).tasks) = fun _ => [] := by
      funext i
      change [] ++ TaskRing.new.tasks ++ [] = ([] : List τ)
      rw [stores_new.tasks]
      rfl
    change 0 = 0 + Buckets.total _
    rw [htasks, Buckets.total_empty, add_zero]

lemma QueuesOk.schedules (h : QueuesOk s) {i : ι} {w : IOSchedulerWorkerState ι τ} {task : τ}
    (hw : WorkerOk w) (htasks : w.tasks.Perm (task :: (s.workers i).tasks)) :
    QueuesOk { s.setWorker i w with scheduled := s.scheduled ++ [task] } where
  worker := Threads.forall_update hw h.worker
  valid := h.valid
  conserved := by
    have hupdate := heldBy_update s.workers i w
    rw [Multiset.coe_eq_coe.mpr htasks, ← Multiset.cons_coe, ← Multiset.singleton_add, ← add_assoc]
      at hupdate
    change ((s.scheduled ++ [task] : List τ) : Multiset τ) = s.returned.filterMap id +
      heldBy (Function.update s.workers i w)
    rw [add_right_cancel hupdate, ← Multiset.coe_add, h.conserved, add_assoc]
    rfl

lemma QueuesOk.moves (h : QueuesOk s) {i : ι} {w : IOSchedulerWorkerState ι τ} (hw : WorkerOk w)
    (htasks : w.tasks.Perm (s.workers i).tasks) : QueuesOk (s.setWorker i w) where
  worker := Threads.forall_update hw h.worker
  valid := h.valid
  conserved := by
    change _ = _ + heldBy (Function.update s.workers i w)
    rw [heldBy_congr htasks]
    exact h.conserved

lemma QueuesOk.ignores (h : QueuesOk s) (i : ι) :
    QueuesOk { s.setWorker i (s.workers i) with scheduled := s.scheduled ++ [] } := by
  have hsame := h.moves (h.worker i) (.refl _)
  rw [List.append_nil]
  exact hsame

lemma QueuesOk.popNext (h : QueuesOk s) (i : ι) :
    QueuesOk { s.setWorker i (s.workers i).popNext.2 with
      returned := s.returned ++ (s.workers i).popNext.1.toList } := by
  obtain ⟨hw, hout, hview⟩ := (h.worker i).popNext
  have htasks : ((s.workers i).view.popNext.1.toList ++ (s.workers i).popNext.2.tasks).Perm
      (s.workers i).tasks := by
    have hpop := (s.workers i).view.popNext_tasks
    rw [← hview] at hpop
    exact hpop
  have hupdate := heldBy_update s.workers i (s.workers i).popNext.2
  rw [← Multiset.coe_eq_coe.mpr htasks, ← Multiset.coe_add] at hupdate
  have hreturned : (s.returned ++ (s.workers i).popNext.1.toList).filterMap id =
      s.returned.filterMap id ++ (s.workers i).view.popNext.1.toList := by
    rw [hout, List.filterMap_append]
    cases (s.workers i).view.popNext.1 <;> rfl
  refine ⟨Threads.forall_update hw h.worker, ?_, ?_⟩
  · rw [hout, List.mem_append, not_or]
    refine ⟨h.valid, ?_⟩
    cases (s.workers i).view.popNext.1 <;> simp
  · change (s.scheduled : Multiset τ) =
      (((s.returned ++ (s.workers i).popNext.1.toList).filterMap id : List τ) : Multiset τ) +
        heldBy (Function.update s.workers i (s.workers i).popNext.2)
    rw [hreturned, ← Multiset.coe_add, h.conserved]
    rw [← add_assoc] at hupdate
    rw [← add_right_cancel hupdate, add_assoc, add_comm (heldBy _)]

theorem QueuesOk.step [DecidableEq τ] {a : WorkerCall ι τ} (h : QueuesOk s)
    (hs : s.step a = some s') : QueuesOk s' := by
  cases a with
  | scheduleLocal i task =>
    cases hs
    cases task with
    | none => exact h.ignores i
    | some task =>
      obtain ⟨hw, hview⟩ := (h.worker i).scheduleLocal task
      have htasks := (s.workers i).view.scheduleLocal_tasks task
      rw [← hview] at htasks
      exact h.schedules hw htasks
  | scheduleLocalDeferred i task =>
    cases hs
    cases task with
    | none => exact h.ignores i
    | some task =>
      exact h.schedules ((h.worker i).inject task).1
        ((s.workers i).view.scheduleLocalDeferred_tasks task)
  | scheduleInjected i task =>
    cases hs
    cases task with
    | none => exact h.ignores i
    | some task =>
      exact h.schedules ((h.worker i).inject task).1
        ((s.workers i).view.scheduleLocalDeferred_tasks task)
  | drainInjected i order =>
    rw [IOWorkers.step, Option.ite_none_right_eq_some] at hs
    obtain ⟨horder, hs⟩ := hs
    cases hs
    obtain ⟨hw, hroom, hfull⟩ := (h.worker i).drainInjected horder
    refine h.moves hw ?_
    by_cases hcapacity : (s.workers i).view.remainingCapacity = 0
    · rw [hfull hcapacity]
    · have htasks := ({ (s.workers i).view with injectQueue := order }).drainInjected_tasks
      rw [← hroom hcapacity] at htasks
      exact htasks.trans (horder.append_left _)
  | prepareForRun i =>
    cases hs
    obtain ⟨hw, hview⟩ := (h.worker i).prepareForRun
    have htasks := (s.workers i).view.prepareForRun_tasks
    rw [← hview] at htasks
    exact h.moves hw htasks
  | popNext i =>
    cases hs
    exact h.popNext i
  | trySteal i start ownerOnly =>
    rw [IOWorkers.step, Option.ite_none_right_eq_some] at hs
    obtain ⟨-, hs⟩ := hs
    cases hs
    obtain ⟨hok, hheld⟩ := trySteal_spec ownerOnly i start h.worker
    refine ⟨hok, h.valid, ?_⟩
    rw [hheld]
    exact h.conserved

/-- Every valid task that was scheduled has been returned by `popNext` once, or is held once, and
the counters of injected tasks are right. -/
theorem workers_conserve_tasks [DecidableEq τ] (config : ι → WorkerConfig ι)
    (h : Reaches IOWorkers.step (fun _ _ => True) (.new config) s) :
    (s.scheduled : Multiset τ) = (s.returned.filterMap id : List τ) +
      Buckets.total (fun i => (s.workers i).tasks) ∧
    none ∉ s.returned ∧
    ∀ i, (s.workers i).injectedOutstanding = (s.workers i).injectQueue.length := by
  have hok := h.invariant (P := QueuesOk) (queuesOk_new config) (fun _ _ _ hok _ hs => hok.step hs)
  exact ⟨hok.conserved, hok.valid, fun i => (hok.worker i).outstanding⟩

def twoWorkers (i : Bool) : WorkerConfig Bool where
  injectBatchSize := 4
  lifoLimit := 8
  injectInterval := 8
  selfIndex := i.toNat
  siblings := [some false, some true]
  stealingEnabled := true

/-- Worker `true` steals the older of the two tasks in the ring of worker `false`. -/
def stealsOldest : List (WorkerCall Bool Nat) :=
  [.scheduleInjected false (some 1), .scheduleLocal false (some 2), .drainInjected false [1],
    .scheduleLocal false (some 3), .trySteal true 0 (fun _ => false), .popNext true, .popNext false]

theorem stealsOldest_conserves : ∃ s : IOWorkers Bool Nat,
    s.returned = [some 1, some 3] ∧ (s.workers false).tasks = [2] ∧
    (s.scheduled : Multiset Nat) = (s.returned.filterMap id : List Nat) +
      Buckets.total (fun i => (s.workers i).tasks) :=
  ⟨_, rfl, rfl, (workers_conserve_tasks twoWorkers (.of_replay stealsOldest .start rfl)).1⟩

end Runs

end GalayKernel.Proofs
