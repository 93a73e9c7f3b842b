import GalayKernel.BlockingExecutor
import GalayKernel.Lib.Threads
import GalayKernel.Lib.Transition
import Mathlib.Tactic.Common

/-!
# What the pool of threads guarantees

Every step of a worker ends with an empty queue or with a worker that is alive and not blocked.
This alone keeps a queued task from being left behind: a worker blocks or retires only when there
is nothing to take, and whoever queues a task behind waiting workers owes a notification.

`submit` counts a waiting worker once for every task that it queues, until the worker has the
mutex again. Two calls in a row may therefore rely on the same worker, and the pool does not grow.
-/

namespace GalayKernel

variable {τ : Type}

namespace Worker

/-- How many steps of its own the worker still has to make, at least. -/
def weight : Worker τ → Nat
  | spawning _ => 4
  | running _ => 3
  | locking | blocked _ | woken _ => 2
  | retired => 0

end Worker

def Shutdown.weight : Shutdown → Nat
  | notified => 1
  | _ => 0

namespace BlockingExecutor

def unfinished (s : BlockingExecutor τ) : List τ :=
  s.workers.flatMap Worker.inHand ++ s.tasks

def work (s : BlockingExecutor τ) : Nat :=
  (s.workers.map Worker.weight).sum + 2 * s.tasks.length + s.notifications + s.shutdown.weight

end BlockingExecutor

end GalayKernel

namespace GalayKernel.Proofs

open Transition

variable {τ : Type} {s s' : BlockingExecutor τ} {i : Nat} {w w' : Worker τ}

/-- The steps that the pool makes by itself: no call from outside and no spurious wake-up. -/
def ownStep : ExecutorAction τ → Bool
  | .submit _ | .wake _ | .destroy | .wakeDestructor => false
  | _ => true

structure PoolOk (s : BlockingExecutor τ) : Prop where
  count : s.workerCount = s.workers.countP Worker.isAlive
  idle : s.idleWorkers = s.workers.countP Worker.isIdle
  max_pos : 0 < s.maxWorkers
  le_max : s.workerCount ≤ s.maxWorkers
  staffed : s.tasks ≠ [] → 0 < s.workerCount
  attended : s.tasks ≠ [] → s.notifications = 0 →
    ∃ w ∈ s.workers, w.isAlive = true ∧ w.isBlocked = false
  ledger : s.accepted.Perm (s.executed ++ s.unfinished)
  stopping : s.stopping → ∀ w ∈ s.workers, w.isBlocked = false
  called : s.stopping = decide (s.shutdown ≠ .notCalled)
  waiting : s.shutdown = .waiting → 0 < s.workerCount
  returned : s.shutdown = .returned → s.workerCount = 0

/-- A step of worker `i` from `w` to `w'`. -/
structure WorkerStep (s s' : BlockingExecutor τ) (i : Nat) (w w' : Worker τ) : Prop where
  minWorkers : s'.minWorkers = s.minWorkers := by rfl
  maxWorkers : s'.maxWorkers = s.maxWorkers := by rfl
  accepted : s'.accepted = s.accepted := by rfl
  stopping : s'.stopping = s.stopping := by rfl
  standing : s.workers[i]? = some w
  alive : w.isAlive = true
  set : s'.workers = s.workers.set i w' := by rfl
  count : s'.workerCount + 1 = s.workerCount + w'.isAlive.toNat := by rfl
  idle : s'.idleWorkers + w.isIdle.toNat = s.idleWorkers + w'.isIdle.toNat := by rfl
  ledger : (s'.executed ++ w'.inHand ++ s'.tasks).Perm (s.executed ++ w.inHand ++ s.tasks)
  /-- who leaves a task behind is there to take it -/
  tasks : s'.tasks = [] ∨ (w'.isAlive = true ∧ w'.isBlocked = false ∧
    s'.tasks.length + w.isIdle.toNat ≤ s.tasks.length + w'.isIdle.toNat)
  blocks : s.stopping = true → w'.isBlocked = false
  retires : w'.isAlive = false → s.stopping = true ∨ s.minWorkers ≤ s'.workerCount := by rintro ⟨⟩
  shutdown : s'.shutdown = s.shutdown ∨
    (s.shutdown = .waiting ∧ s'.shutdown = .notified) := by exact .inl rfl
  waiting : s'.shutdown = .waiting → 0 < s'.workerCount
  work : w'.weight + 2 * s'.tasks.length + s'.shutdown.weight + s'.notifications ≤
    w.weight + 2 * s.tasks.length + s.shutdown.weight + s.notifications
  progress : w.inHand ≠ [] ∨ (w.isBlocked = false ∧ (s.tasks ≠ [] ∨ s.stopping = true)) →
    w'.weight + 2 * s'.tasks.length + s'.shutdown.weight + s'.notifications <
      w.weight + 2 * s.tasks.length + s.shutdown.weight + s.notifications

lemma PoolOk.alive_pos (h : PoolOk s) (hw : s.workers[i]? = some w) (halive : w.isAlive = true) :
    0 < s.workerCount := by
  rw [h.count, List.countP_pos_iff]
  exact ⟨w, List.mem_of_getElem? hw, halive⟩

lemma PoolOk.idle_pos (h : PoolOk s) (hw : s.workers[i]? = some w) (hidle : w.isIdle = true) :
    0 < s.idleWorkers := by
  rw [h.idle, List.countP_pos_iff]
  exact ⟨w, List.mem_of_getElem? hw, hidle⟩

lemma PoolOk.idle_le (h : PoolOk s) : s.idleWorkers ≤ s.workerCount := by
  rw [h.count, h.idle]
  apply List.countP_mono_left
  intro w _ hw
  cases w <;> first | rfl | cases hw

lemma WorkerStep.mem (h : WorkerStep s s' i w w') : w' ∈ s'.workers := by
  obtain ⟨hi, -⟩ := List.getElem?_eq_some_iff.mp h.standing
  rw [h.set]
  exact List.mem_set hi w'

theorem PoolOk.workerStep (h : PoolOk s) (hs : WorkerStep s s' i w w') : PoolOk s' := by
  have halive := Threads.countP_set hs.standing w' Worker.isAlive
  have hidle := Threads.countP_set hs.standing w' Worker.isIdle
  rw [← hs.set, ← h.count, hs.alive] at halive
  rw [← hs.set, ← h.idle] at hidle
  have hcount := hs.count
  have hidle' := hs.idle
  have hpos := h.alive_pos hs.standing hs.alive
  have hone : w'.isAlive.toNat ≤ 1 := Bool.toNat_le _
  have hle : s'.workerCount ≤ s.workerCount := by omega
  rw [Bool.toNat_true] at halive
  have hcount' : s'.workerCount = s'.workers.countP Worker.isAlive := by omega
  have hattended : s'.tasks ≠ [] → ∃ v ∈ s'.workers, v.isAlive = true ∧ v.isBlocked = false := by
    intro hne
    obtain hnil | ⟨hw, hblocked, -⟩ := hs.tasks
    · exact absurd hnil hne
    · exact ⟨w', hs.mem, hw, hblocked⟩
  refine ⟨hcount', by omega, hs.maxWorkers ▸ h.max_pos, ?_, ?_, fun hne _ => hattended hne, ?_, ?_,
    ?_, hs.waiting, ?_⟩
  · rw [hs.maxWorkers]
    exact Nat.le_trans hle h.le_max
  · intro hne
    obtain ⟨v, hv, hvalive, -⟩ := hattended hne
    rw [hcount', List.countP_pos_iff]
    exact ⟨v, hv, hvalive⟩
  · have hhands := Threads.flatMap_set hs.standing w' Worker.inHand
    have hmoved := hs.ledger
    have hold := h.ledger
    classical
    simp only [BlockingExecutor.unfinished, List.perm_iff_count, List.count_append, hs.accepted,
      hs.set] at hhands hmoved hold ⊢
    intro a
    have := hhands a
    have := hmoved a
    have := hold a
    omega
  · intro hstop v hv
    rw [hs.stopping] at hstop
    rw [hs.set] at hv
    obtain hv | rfl := List.mem_or_eq_of_mem_set hv
    · exact h.stopping hstop v hv
    · exact hs.blocks hstop
  · rw [hs.stopping, h.called]
    obtain heq | ⟨hwait, hnot⟩ := hs.shutdown
    · rw [heq]
    · rw [hwait, hnot]
      rfl
  · intro hret
    obtain heq | ⟨-, hnot⟩ := hs.shutdown
    · have := h.returned (heq ▸ hret)
      omega
    · cases hnot.symm.trans hret

def wantsMutex : Worker τ → Bool
  | .locking | .woken _ => true
  | _ => false

lemma alive_of_wantsMutex (h : wantsMutex w = true) : w.isAlive = true := by
  cases w <;> first | rfl | cases h

lemma inHand_of_wantsMutex (h : wantsMutex w = true) : w.inHand = [] := by
  cases w <;> first | rfl | cases h

lemma weight_of_wantsMutex (h : wantsMutex w = true) : w.weight = 2 := by
  cases w <;> first | rfl | cases h

def leaveWait (s : BlockingExecutor τ) (w : Worker τ) : BlockingExecutor τ :=
  { s with idleWorkers := s.idleWorkers - w.isIdle.toNat }

lemma leaveWait_idle (h : PoolOk s) (hw : s.workers[i]? = some w) :
    (leaveWait s w).idleWorkers + w.isIdle.toNat = s.idleWorkers := by
  have hle : w.isIdle.toNat ≤ s.idleWorkers := by
    cases hidle : w.isIdle with
    | false => exact Nat.zero_le _
    | true => exact h.idle_pos hw hidle
  exact Nat.sub_add_cancel hle

lemma retire_shutdown (s : BlockingExecutor τ) (i : Nat) :
    ((s.retireWorkerLocked i).shutdown = s.shutdown ∧
      (s.stopping = true → s.shutdown = .waiting → s.workerCount - 1 ≠ 0)) ∨
    (s.shutdown = .waiting ∧ (s.retireWorkerLocked i).shutdown = .notified) := by
  unfold BlockingExecutor.retireWorkerLocked
  dsimp only
  split
  · next hcond =>
    simp only [Bool.and_eq_true, decide_eq_true_eq] at hcond
    exact .inr ⟨hcond.2, rfl⟩
  · next hcond =>
    refine .inl ⟨rfl, fun hstop hwait hzero => hcond ?_⟩
    simp [hstop, hwait, hzero]

lemma workerStep_retire (h : PoolOk s) (hw : s.workers[i]? = some w) (hwants : wantsMutex w = true)
    (htasks : s.tasks = []) (hleave : s.stopping = true ∨ s.minWorkers < s.workerCount) :
    WorkerStep s ((leaveWait s w).retireWorkerLocked i) i w .retired := by
  have halive := alive_of_wantsMutex hwants
  have hpos := h.alive_pos hw halive
  have hshut := retire_shutdown (leaveWait s w) i
  have hwork : (Worker.retired : Worker τ).weight + 2 * s.tasks.length +
      ((leaveWait s w).retireWorkerLocked i).shutdown.weight + s.notifications <
        w.weight + 2 * s.tasks.length + s.shutdown.weight + s.notifications := by
    rw [weight_of_wantsMutex hwants, Worker.weight]
    obtain ⟨hsame, -⟩ | ⟨-, hnotified⟩ := hshut
    · have hweight : (leaveWait s w).shutdown.weight = s.shutdown.weight := rfl
      rw [hsame, hweight]
      omega
    · rw [hnotified, Shutdown.weight]
      omega
  exact {
    standing := hw
    alive := halive
    count := Nat.sub_add_cancel hpos
    idle := leaveWait_idle h hw
    ledger := by
      rw [inHand_of_wantsMutex hwants]
      exact .refl _
    tasks := .inl htasks
    blocks := fun _ => rfl
    retires := fun _ => hleave.imp_right Nat.le_sub_one_of_lt
    shutdown := by
      obtain ⟨hsame, -⟩ | ⟨hwait, hnotified⟩ := hshut
      · exact .inl hsame
      · exact .inr ⟨hwait, hnotified⟩
    waiting := by
      intro hwait
      obtain ⟨hsame, hlast⟩ | ⟨-, hnotified⟩ := hshut
      · have hstop : s.stopping = true := by
          rw [h.called, ← show _ = s.shutdown from hsame, hwait]
          rfl
        exact Nat.pos_of_ne_zero (hlast hstop (hsame ▸ hwait))
      · cases hnotified.symm.trans hwait
    work := Nat.le_of_lt hwork
    progress := fun _ => hwork }

lemma workerStep_block (h : PoolOk s) (hw : s.workers[i]? = some w) (hwants : wantsMutex w = true)
    (htasks : s.tasks = []) (hstop : s.stopping = false) (canTimeOut : Bool) :
    WorkerStep s { leaveWait s w with
      idleWorkers := (leaveWait s w).idleWorkers + 1
      workers := s.workers.set i (.blocked canTimeOut) } i w (.blocked canTimeOut) := by
  have hidle := leaveWait_idle h hw
  exact {
    standing := hw
    alive := alive_of_wantsMutex hwants
    idle := by
      change (leaveWait s w).idleWorkers + 1 + w.isIdle.toNat = s.idleWorkers + 1
      omega
    ledger := by
      rw [inHand_of_wantsMutex hwants]
      exact .refl _
    tasks := .inl htasks
    blocks := by
      rw [hstop]
      rintro ⟨⟩
    waiting := h.waiting
    work := by
      rw [weight_of_wantsMutex hwants]
      exact Nat.le_refl _
    progress := by
      rw [inHand_of_wantsMutex hwants, htasks, hstop]
      simp }

lemma workerStep_take {task : τ} {rest : List τ} (h : PoolOk s) (hw : s.workers[i]? = some w)
    (hwants : wantsMutex w = true) (htasks : s.tasks = task :: rest) :
    WorkerStep s { leaveWait s w with
      tasks := rest
      workers := s.workers.set i (.running task) } i w (.running task) := by
  have hwork : (Worker.running task).weight + 2 * rest.length + s.shutdown.weight +
      s.notifications < w.weight + 2 * s.tasks.length + s.shutdown.weight + s.notifications := by
    rw [weight_of_wantsMutex hwants, htasks, List.length_cons, Worker.weight]
    omega
  exact {
    standing := hw
    alive := alive_of_wantsMutex hwants
    idle := leaveWait_idle h hw
    ledger := by
      rw [inHand_of_wantsMutex hwants, htasks]
      simp [leaveWait, Worker.inHand]
    tasks := by
      have hone := Bool.toNat_le w.isIdle
      refine .inr ⟨rfl, rfl, ?_⟩
      rw [htasks, List.length_cons]
      exact Nat.add_le_add_left hone _
    blocks := fun _ => rfl
    waiting := h.waiting
    work := Nat.le_of_lt hwork
    progress := fun _ => hwork }

lemma workerStep_loopHead (h : PoolOk s) (hw : s.workers[i]? = some w)
    (hwants : wantsMutex w = true) :
    ∃ w', WorkerStep s ((leaveWait s w).loopHead i) i w w' := by
  cases htasks : s.tasks with
  | nil =>
    cases hstop : s.stopping with
    | true =>
      have hretire := workerStep_retire h hw hwants htasks (.inl hstop)
      refine ⟨.retired, ?_⟩
      simpa only [BlockingExecutor.loopHead, leaveWait, htasks, hstop, if_true] using hretire
    | false =>
      have hblock := workerStep_block h hw hwants htasks hstop (s.minWorkers < s.workerCount)
      refine ⟨.blocked (s.minWorkers < s.workerCount), ?_⟩
      simpa only [BlockingExecutor.loopHead, leaveWait, htasks, hstop, Bool.false_eq_true,
        if_false] using hblock
  | cons task rest =>
    have htake := workerStep_take h hw hwants htasks
    refine ⟨.running task, ?_⟩
    simpa only [BlockingExecutor.loopHead, leaveWait, htasks] using htake

lemma workerStep_reacquire {canTimeOut : Bool} (h : PoolOk s)
    (hw : s.workers[i]? = some (.woken canTimeOut)) (timedOut : Bool) :
    ∃ w', WorkerStep s (s.reacquire i canTimeOut timedOut) i (.woken canTimeOut) w' := by
  by_cases hready : s.stopping = true ∨ s.tasks ≠ []
  · have heq : s.reacquire i canTimeOut timedOut =
        (leaveWait s (.woken canTimeOut)).loopHead i := by
      obtain hstop | hne := hready
      · simp [BlockingExecutor.reacquire, leaveWait, hstop, Worker.isIdle]
      · simp [BlockingExecutor.reacquire, leaveWait, hne, Worker.isIdle]
    rw [heq]
    exact workerStep_loopHead h hw rfl
  · obtain ⟨hstop, htasks⟩ := not_or.mp hready
    rw [Bool.not_eq_true] at hstop
    rw [not_not] at htasks
    cases timedOut with
    | false =>
      -- to leave the wait and to block again is what the wait does by itself
      have hblock := workerStep_block h hw rfl htasks hstop canTimeOut
      have hidle : (leaveWait s (.woken canTimeOut)).idleWorkers + 1 = s.idleWorkers :=
        leaveWait_idle h hw
      rw [hidle] at hblock
      refine ⟨.blocked canTimeOut, ?_⟩
      simpa [BlockingExecutor.reacquire, BlockingExecutor.setWorker, leaveWait, hstop, htasks]
        using hblock
    | true =>
      by_cases hmin : s.minWorkers < s.workerCount
      · have hretire := workerStep_retire h hw rfl htasks (.inr hmin)
        refine ⟨.retired, ?_⟩
        simpa [BlockingExecutor.reacquire, leaveWait, hstop, htasks, hmin, Worker.isIdle] using
          hretire
      · have heq : s.reacquire i canTimeOut true =
            (leaveWait s (.woken canTimeOut)).loopHead i := by
          simp [BlockingExecutor.reacquire, leaveWait, hstop, htasks, hmin, Worker.isIdle]
        rw [heq]
        exact workerStep_loopHead h hw rfl

lemma workerStep_wake {canTimeOut : Bool} (h : PoolOk s)
    (hw : s.workers[i]? = some (.blocked canTimeOut)) {n : Nat} (hn : n ≤ s.notifications) :
    WorkerStep s ({ s with notifications := n }.setWorker i (.woken canTimeOut)) i
      (.blocked canTimeOut) (.woken canTimeOut) where
  standing := hw
  alive := rfl
  ledger := .refl _
  tasks := .inr ⟨rfl, rfl, Nat.le_refl _⟩
  blocks := fun _ => rfl
  waiting := h.waiting
  work := Nat.add_le_add_left hn _
  progress := by simp [Worker.inHand, Worker.isBlocked]

lemma workerStep_spawn {task : τ} (h : PoolOk s) (hw : s.workers[i]? = some (.spawning task)) :
    WorkerStep s (s.setWorker i (.running task)) i (.spawning task) (.running task) := by
  have hwork : (Worker.running task).weight + 2 * s.tasks.length + s.shutdown.weight +
      s.notifications < (Worker.spawning task).weight + 2 * s.tasks.length + s.shutdown.weight +
        s.notifications := by
    simp only [Worker.weight]
    omega
  exact {
    standing := hw
    alive := rfl
    ledger := .refl _
    tasks := .inr ⟨rfl, rfl, Nat.le_refl _⟩
    blocks := fun _ => rfl
    waiting := h.waiting
    work := Nat.le_of_lt hwork
    progress := fun _ => hwork }

lemma workerStep_execute {task : τ} (h : PoolOk s) (hw : s.workers[i]? = some (.running task)) :
    WorkerStep s { s.setWorker i .locking with executed := s.executed ++ [task] } i
      (.running task) .locking := by
  have hwork : (Worker.locking : Worker τ).weight + 2 * s.tasks.length + s.shutdown.weight +
      s.notifications < (Worker.running task).weight + 2 * s.tasks.length + s.shutdown.weight +
        s.notifications := by
    simp only [Worker.weight]
    omega
  exact {
    standing := hw
    alive := rfl
    ledger := by simp [BlockingExecutor.setWorker, Worker.inHand]
    tasks := .inr ⟨rfl, rfl, Nat.le_refl _⟩
    blocks := fun _ => rfl
    waiting := h.waiting
    work := Nat.le_of_lt hwork
    progress := fun _ => hwork }

/-- What a step can be. -/
inductive StepKind (s s' : BlockingExecutor τ) : ExecutorAction τ → Prop where
  | submit (task : Option τ) : s' = (s.submit task).2 → StepKind s s' (.submit task)
  | worker {a : ExecutorAction τ} {i : Nat} {w w' : Worker τ} : WorkerStep s s' i w w' →
      (∀ task, a ≠ .submit task) → StepKind s s' a
  | notifyNone : 0 < s.notifications → s.workers.any Worker.isBlocked = false →
      s' = { s with notifications := s.notifications - 1 } → StepKind s s' (.notify none)
  | destroy : s.shutdown = .notCalled → s' = s.destroy → StepKind s s' .destroy
  | wakeDestructor : s.shutdown = .waiting → s' = { s with shutdown := .notified } →
      StepKind s s' .wakeDestructor
  | checkShutdown : s.shutdown = .notified →
      s' = { s with shutdown := if s.workerCount = 0 then .returned else .waiting } →
      StepKind s s' .checkShutdown

theorem step_kind {a : ExecutorAction τ} (h : PoolOk s) (hs : s.step a = some s') :
    StepKind s s' a := by
  cases a with
  | submit task =>
    simp only [BlockingExecutor.step, Option.ite_none_left_eq_some, Option.some.injEq] at hs
    exact .submit task hs.2.symm
  | notify worker =>
    simp only [BlockingExecutor.step] at hs
    split at hs
    · cases hs
    · next hpos =>
      split at hs
      · split at hs
        · next hw =>
          cases hs
          exact .worker (workerStep_wake h hw (Nat.sub_le _ _)) (by rintro _ ⟨⟩)
        · cases hs
      · split at hs
        · cases hs
        · next hany =>
          cases hs
          exact .notifyNone (Nat.pos_of_ne_zero hpos) (Bool.eq_false_iff.mpr hany) rfl
  | spawn i =>
    simp only [BlockingExecutor.step] at hs
    split at hs
    · next hw =>
      cases hs
      exact .worker (workerStep_spawn h hw) (by rintro _ ⟨⟩)
    · cases hs
  | execute i =>
    simp only [BlockingExecutor.step] at hs
    split at hs
    · next hw =>
      cases hs
      exact .worker (workerStep_execute h hw) (by rintro _ ⟨⟩)
    · cases hs
  | lock i =>
    simp only [BlockingExecutor.step] at hs
    split at hs
    · next hw =>
      cases hs
      obtain ⟨w', hstep⟩ := workerStep_loopHead h hw rfl
      exact .worker hstep (by rintro _ ⟨⟩)
    · cases hs
  | wake i =>
    simp only [BlockingExecutor.step] at hs
    split at hs
    · next hw =>
      cases hs
      exact .worker (workerStep_wake h hw (Nat.le_refl _)) (by rintro _ ⟨⟩)
    · cases hs
  | reacquire i timedOut =>
    simp only [BlockingExecutor.step] at hs
    split at hs
    · next hw =>
      rw [Option.ite_none_left_eq_some, Option.some.injEq] at hs
      obtain ⟨w', hstep⟩ := workerStep_reacquire h hw timedOut
      rw [hs.2] at hstep
      exact .worker hstep (by rintro _ ⟨⟩)
    · cases hs
  | destroy =>
    simp only [BlockingExecutor.step, Option.ite_none_right_eq_some, Option.some.injEq] at hs
    exact .destroy hs.1 hs.2.symm
  | wakeDestructor =>
    simp only [BlockingExecutor.step, Option.ite_none_right_eq_some, Option.some.injEq] at hs
    exact .wakeDestructor hs.1 hs.2.symm
  | checkShutdown =>
    simp only [BlockingExecutor.step, Option.ite_none_right_eq_some, Option.some.injEq] at hs
    exact .checkShutdown hs.1 hs.2.symm

lemma poolOk_create (minWorkers maxWorkers : Nat) :
    PoolOk (BlockingExecutor.create minWorkers maxWorkers : BlockingExecutor τ) where
  count := rfl
  idle := rfl
  max_pos := by
    simp only [BlockingExecutor.create]
    split <;> omega
  le_max := Nat.zero_le _
  staffed := fun hne => absurd rfl hne
  attended := fun hne => absurd rfl hne
  ledger := .refl _
  stopping := by rintro ⟨⟩
  called := rfl
  waiting := by rintro ⟨⟩
  returned := by rintro ⟨⟩

/-- `submit` with the three places to which an accepted task may go. -/
inductive Submitted (s s' : BlockingExecutor τ) : Prop where
  | ignored : s' = s → Submitted s s'
  | queued (task : τ) : 0 < s.idleWorkers → s.stopping = false → s' = { s with
      tasks := s.tasks ++ [task]
      notifications := s.notifications + 1
      accepted := s.accepted ++ [task] } → Submitted s s'
  | spawned (task : τ) : s.idleWorkers = 0 → s.workerCount < s.maxWorkers → s.stopping = false →
      s' = { s with
        workerCount := s.workerCount + 1
        workers := s.workers ++ [.spawning task]
        accepted := s.accepted ++ [task] } → Submitted s s'
  | waits (task : τ) : s.idleWorkers = 0 → s.maxWorkers ≤ s.workerCount → s.stopping = false →
      s' = { s with
        tasks := s.tasks ++ [task]
        accepted := s.accepted ++ [task] } → Submitted s s'

lemma submitted (s : BlockingExecutor τ) (task : Option τ) : Submitted s (s.submit task).2 := by
  cases task with
  | none => exact .ignored rfl
  | some task =>
    simp only [BlockingExecutor.submit]
    split
    · exact .ignored rfl
    · next hstop =>
      rw [Bool.not_eq_true] at hstop
      split
      · next hidle => exact .queued task hidle hstop rfl
      · next hidle =>
        split
        · next hcount => exact .spawned task (by omega) hcount hstop rfl
        · next hcount => exact .waits task (by omega) (by omega) hstop rfl

lemma PoolOk.submit (h : PoolOk s) (hs : Submitted s s') : PoolOk s' := by
  cases hs with
  | ignored heq => rwa [heq]
  | queued task hidle hstop heq =>
    subst heq
    exact { h with
      staffed := fun _ => Nat.lt_of_lt_of_le hidle h.idle_le
      attended := by rintro _ ⟨⟩
      ledger := by
        have := h.ledger.append_right [task]
        simpa [BlockingExecutor.unfinished] using this }
  | spawned task hidle hcount hstop heq =>
    subst heq
    exact { h with
      count := by simp [h.count, Worker.isAlive]
      idle := by simp [h.idle, Worker.isIdle]
      le_max := hcount
      staffed := fun _ => Nat.succ_pos _
      attended := fun _ _ => ⟨.spawning task, by simp, rfl, rfl⟩
      ledger := by
        have hold := h.ledger
        classical
        simp only [BlockingExecutor.unfinished, List.perm_iff_count, List.count_append,
          List.flatMap_append, List.flatMap_cons, List.flatMap_nil, Worker.inHand,
          List.append_nil] at hold ⊢
        intro a
        have := hold a
        omega
      stopping := by
        rw [hstop]
        rintro ⟨⟩
      waiting := fun _ => Nat.succ_pos _
      returned := by
        intro hret
        have hcalled := h.called
        rw [hstop, hret] at hcalled
        cases hcalled }
  | waits task hidle hcount hstop heq =>
    subst heq
    have hpos : 0 < s.workerCount := Nat.lt_of_lt_of_le h.max_pos hcount
    exact { h with
      staffed := fun _ => hpos
      attended := by
        intro _ _
        rw [h.count, List.countP_pos_iff] at hpos
        obtain ⟨w, hw, halive⟩ := hpos
        refine ⟨w, hw, halive, ?_⟩
        rw [h.idle, List.countP_eq_zero] at hidle
        have hnot := hidle w hw
        cases w <;> first | rfl | exact absurd rfl hnot
      ledger := by
        have := h.ledger.append_right [task]
        simpa [BlockingExecutor.unfinished] using this }

lemma wakeUp_isAlive (w : Worker τ) : w.wakeUp.isAlive = w.isAlive := by cases w <;> rfl

lemma wakeUp_isIdle (w : Worker τ) : w.wakeUp.isIdle = w.isIdle := by cases w <;> rfl

lemma wakeUp_inHand (w : Worker τ) : w.wakeUp.inHand = w.inHand := by cases w <;> rfl

lemma wakeUp_weight (w : Worker τ) : w.wakeUp.weight = w.weight := by cases w <;> rfl

lemma wakeUp_isBlocked (w : Worker τ) : w.wakeUp.isBlocked = false := by cases w <;> rfl

lemma PoolOk.destroy (h : PoolOk s) : PoolOk s.destroy := by
  have hattended : 0 < s.workerCount → ∃ w ∈ s.destroy.workers, w.isAlive = true ∧
      w.isBlocked = false := by
    intro hpos
    rw [h.count, List.countP_pos_iff] at hpos
    obtain ⟨w, hw, halive⟩ := hpos
    exact ⟨w.wakeUp, List.mem_map_of_mem hw, (wakeUp_isAlive w).trans halive, wakeUp_isBlocked w⟩
  exact {
    count := by simp [BlockingExecutor.destroy, List.countP_map, Function.comp_def, wakeUp_isAlive, h.count]
    idle := by simp [BlockingExecutor.destroy, List.countP_map, Function.comp_def, wakeUp_isIdle, h.idle]
    max_pos := h.max_pos
    le_max := h.le_max
    staffed := h.staffed
    attended := fun hne _ => hattended (h.staffed hne)
    ledger := by
      have hold := h.ledger
      simpa [BlockingExecutor.unfinished, BlockingExecutor.destroy, List.flatMap_map, wakeUp_inHand]
        using hold
    stopping := by
      intro _ w hw
      obtain ⟨v, -, rfl⟩ := List.mem_map.mp hw
      exact wakeUp_isBlocked v
    called := by
      simp only [BlockingExecutor.destroy]
      split <;> rfl
    waiting := by
      simp only [BlockingExecutor.destroy]
      split
      · rintro ⟨⟩
      · next hne => exact fun _ => Nat.pos_of_ne_zero hne
    returned := by
      simp only [BlockingExecutor.destroy]
      split
      · next hzero => exact fun _ => hzero
      · rintro ⟨⟩ }

theorem PoolOk.step {a : ExecutorAction τ} (h : PoolOk s) (hs : s.step a = some s') :
    PoolOk s' := by
  cases step_kind h hs with
  | submit task heq => exact h.submit (heq ▸ submitted s task)
  | worker hstep _ => exact h.workerStep hstep
  | notifyNone _ hany heq =>
    subst heq
    refine { h with attended := fun hne _ => ?_ }
    have hpos := h.staffed hne
    rw [h.count, List.countP_pos_iff] at hpos
    obtain ⟨w, hw, halive⟩ := hpos
    rw [List.any_eq_false] at hany
    exact ⟨w, hw, halive, Bool.eq_false_iff.mpr (hany w hw)⟩
  | destroy _ heq => exact heq ▸ h.destroy
  | wakeDestructor hwait heq =>
    subst heq
    refine { h with called := ?_, waiting := by rintro ⟨⟩, returned := by rintro ⟨⟩ }
    rw [h.called, hwait]
    rfl
  | checkShutdown hnotified heq =>
    subst heq
    have hcalled := h.called
    rw [hnotified] at hcalled
    exact { h with
      called := by
        rw [hcalled]
        split <;> rfl
      waiting := by
        dsimp only
        split
        · rintro ⟨⟩
        · next hne => exact fun _ => Nat.pos_of_ne_zero hne
      returned := by
        dsimp only
        split
        · next hzero => exact fun _ => hzero
        · rintro ⟨⟩ }

lemma step_limits {a : ExecutorAction τ} (h : PoolOk s) (hs : s.step a = some s') :
    s'.minWorkers = s.minWorkers ∧ s'.maxWorkers = s.maxWorkers := by
  cases step_kind h hs with
  | submit task heq =>
    rw [heq]
    cases submitted s task with
    | ignored heq => rw [heq]; exact ⟨rfl, rfl⟩
    | queued task _ _ heq => rw [heq]; exact ⟨rfl, rfl⟩
    | spawned task _ _ _ heq => rw [heq]; exact ⟨rfl, rfl⟩
    | waits task _ _ _ heq => rw [heq]; exact ⟨rfl, rfl⟩
  | worker hstep _ => exact ⟨hstep.minWorkers, hstep.maxWorkers⟩
  | notifyNone _ _ heq => subst heq; exact ⟨rfl, rfl⟩
  | destroy _ heq => subst heq; exact ⟨rfl, rfl⟩
  | wakeDestructor _ heq => subst heq; exact ⟨rfl, rfl⟩
  | checkShutdown _ heq => subst heq; exact ⟨rfl, rfl⟩

/-- The invariant, with the limits that the constructor has set. -/
theorem poolOk_reaches {ok : BlockingExecutor τ → ExecutorAction τ → Prop}
    {minWorkers maxWorkers : Nat}
    (h : Reaches BlockingExecutor.step ok (.create minWorkers maxWorkers) s) :
    PoolOk s ∧ s.maxWorkers = max 1 maxWorkers ∧
      s.minWorkers = min minWorkers (max 1 maxWorkers) := by
  refine h.invariant (P := fun s => PoolOk s ∧ s.maxWorkers = max 1 maxWorkers ∧
    s.minWorkers = min minWorkers (max 1 maxWorkers)) ?_ ?_
  · have hmax : (if 0 < maxWorkers then maxWorkers else 1) = max 1 maxWorkers := by
      split <;> omega
    refine ⟨poolOk_create minWorkers maxWorkers, hmax, ?_⟩
    simp only [BlockingExecutor.create, hmax]
    split <;> omega
  · rintro s a s' ⟨hok, hmax, hmin⟩ - hs
    obtain ⟨hmin', hmax'⟩ := step_limits hok hs
    exact ⟨hok.step hs, hmax'.trans hmax, hmin'.trans hmin⟩

lemma WorkerStep.work_eq (hs : WorkerStep s s' i w w') :
    s'.work + (w.weight + 2 * s.tasks.length + s.shutdown.weight + s.notifications) =
      s.work + (w'.weight + 2 * s'.tasks.length + s'.shutdown.weight + s'.notifications) := by
  have hsum := Threads.sum_set hs.standing w' Worker.weight
  rw [← hs.set] at hsum
  unfold BlockingExecutor.work
  omega

lemma work_destroy (h : s.shutdown = .notCalled) : s.destroy.work = s.work := by
  have hshut : s.destroy.shutdown.weight = s.shutdown.weight := by
    rw [h]
    simp only [BlockingExecutor.destroy]
    split <;> rfl
  have hworkers : s.destroy.workers.map Worker.weight = s.workers.map Worker.weight := by
    simp [BlockingExecutor.destroy, Function.comp_def, wakeUp_weight]
  rw [BlockingExecutor.work, BlockingExecutor.work, hshut, hworkers]
  rfl

/-- Only a new task and a spurious wake-up of the destructor add to the work. -/
lemma work_le_of_step {a : ExecutorAction τ} (h : PoolOk s) (hs : s.step a = some s')
    (hsubmit : ∀ task, a ≠ .submit task) (hwake : a ≠ .wakeDestructor) : s'.work ≤ s.work := by
  cases step_kind h hs with
  | submit task _ => exact absurd rfl (hsubmit task)
  | worker hstep _ =>
    have heq := hstep.work_eq
    have hle := hstep.work
    omega
  | notifyNone _ _ heq =>
    subst heq
    simp only [BlockingExecutor.work]
    omega
  | destroy hnot heq => exact Nat.le_of_eq (heq ▸ work_destroy hnot)
  | wakeDestructor => exact absurd rfl hwake
  | checkShutdown hnotified heq =>
    have hweight : s'.shutdown.weight = 0 := by
      rw [heq]
      dsimp only
      split <;> rfl
    subst heq
    simp only [BlockingExecutor.work] at hweight ⊢
    omega

lemma exists_workerStep (h : PoolOk s) (hw : s.workers[i]? = some w) (halive : w.isAlive = true)
    (hblocked : w.isBlocked = false) :
    ∃ a s' w', ownStep a = true ∧ s.step a = some s' ∧ WorkerStep s s' i w w' := by
  cases w with
  | spawning task =>
    exact ⟨.spawn i, _, _, rfl, by simp [BlockingExecutor.step, hw], workerStep_spawn h hw⟩
  | running task =>
    exact ⟨.execute i, _, _, rfl, by simp [BlockingExecutor.step, hw], workerStep_execute h hw⟩
  | locking =>
    obtain ⟨w', hstep⟩ := workerStep_loopHead h hw rfl
    exact ⟨.lock i, _, w', rfl, by simp [BlockingExecutor.step, hw, leaveWait, Worker.isIdle], hstep⟩
  | blocked _ => cases hblocked
  | woken canTimeOut =>
    obtain ⟨w', hstep⟩ := workerStep_reacquire h hw false
    exact ⟨.reacquire i false, _, w', rfl, by simp [BlockingExecutor.step, hw], hstep⟩
  | retired => cases halive

lemma exists_notify (h : PoolOk s) (hpos : 0 < s.notifications) :
    ∃ a s', ownStep a = true ∧ s.step a = some s' ∧ s'.work < s.work := by
  have hne : s.notifications ≠ 0 := Nat.ne_of_gt hpos
  cases hany : s.workers.any Worker.isBlocked with
  | false =>
    refine ⟨.notify none, { s with notifications := s.notifications - 1 }, rfl, ?_, ?_⟩
    · simp [BlockingExecutor.step, hne, hany]
    · simp only [BlockingExecutor.work]
      omega
  | true =>
    obtain ⟨w, hw, hblocked⟩ := List.any_eq_true.mp hany
    obtain ⟨i, hi⟩ := List.getElem?_of_mem hw
    cases w with
    | blocked canTimeOut =>
      have hstep := workerStep_wake h hi (Nat.sub_le s.notifications 1)
      have heq := hstep.work_eq
      refine ⟨.notify (some i), { s with notifications := s.notifications - 1 }.setWorker i
        (.woken canTimeOut), rfl, by simp [BlockingExecutor.step, hne, hi], ?_⟩
      simp only [BlockingExecutor.setWorker, Worker.weight] at heq ⊢
      omega
    | _ => cases hblocked

/-- While an accepted task has not been called, the pool can do some of its work. -/
lemma exists_progress (h : PoolOk s) (hne : s.unfinished ≠ []) :
    ∃ a s', ownStep a = true ∧ s.step a = some s' ∧ s'.work < s.work := by
  by_cases htasks : s.tasks = []
  · rw [BlockingExecutor.unfinished, htasks, List.append_nil, Ne, List.flatMap_eq_nil_iff] at hne
    push Not at hne
    obtain ⟨w, hw, hhand⟩ := hne
    obtain ⟨i, hi⟩ := List.getElem?_of_mem hw
    have halive : w.isAlive = true ∧ w.isBlocked = false := by
      cases w <;> first | exact ⟨rfl, rfl⟩ | exact absurd rfl hhand
    obtain ⟨a, s', w', hown, hs, hstep⟩ := exists_workerStep h hi halive.1 halive.2
    have heq := hstep.work_eq
    have hlt := hstep.progress (.inl hhand)
    exact ⟨a, s', hown, hs, by omega⟩
  · by_cases hpos : 0 < s.notifications
    · exact exists_notify h hpos
    · obtain ⟨w, hw, halive, hblocked⟩ := h.attended htasks (by omega)
      obtain ⟨i, hi⟩ := List.getElem?_of_mem hw
      obtain ⟨a, s', w', hown, hs, hstep⟩ := exists_workerStep h hi halive hblocked
      have heq := hstep.work_eq
      have hlt := hstep.progress (.inr ⟨hblocked, .inl htasks⟩)
      exact ⟨a, s', hown, hs, by omega⟩

lemma work_lt_of_stopping {a : ExecutorAction τ} (h : PoolOk s) (hstop : s.stopping = true)
    (hown : ownStep a = true) (hs : s.step a = some s') : s'.stopping = true ∧ s'.work < s.work := by
  cases step_kind h hs with
  | submit => cases hown
  | worker hstep _ =>
    have heq := hstep.work_eq
    have hblocked := h.stopping hstop _ (List.mem_of_getElem? hstep.standing)
    have hlt := hstep.progress (.inr ⟨hblocked, .inr hstop⟩)
    exact ⟨hstep.stopping.trans hstop, by omega⟩
  | notifyNone hpos _ heq =>
    subst heq
    refine ⟨hstop, ?_⟩
    simp only [BlockingExecutor.work]
    omega
  | destroy => cases hown
  | wakeDestructor => cases hown
  | checkShutdown hnotified heq =>
    have hweight : s'.shutdown.weight = 0 := by
      rw [heq]
      dsimp only
      split <;> rfl
    subst heq
    refine ⟨hstop, ?_⟩
    simp only [BlockingExecutor.work, hnotified] at hweight ⊢
    rw [hweight, Shutdown.weight]
    omega

lemma exists_step_of_stopping (h : PoolOk s) (hstop : s.stopping = true)
    (hret : s.shutdown ≠ .returned) : ∃ a s', ownStep a = true ∧ s.step a = some s' := by
  by_cases hzero : s.workerCount = 0
  · cases hshut : s.shutdown with
    | notCalled =>
      have hcalled := h.called
      rw [hstop, hshut] at hcalled
      cases hcalled
    | waiting => exact absurd hzero (Nat.ne_of_gt (h.waiting hshut))
    | notified =>
      exact ⟨.checkShutdown, { s with
        shutdown := if s.workerCount = 0 then .returned else .waiting }, rfl,
          by simp only [BlockingExecutor.step, hshut, if_true]⟩
    | returned => exact absurd hshut hret
  · have hpos := Nat.pos_of_ne_zero hzero
    rw [h.count, List.countP_pos_iff] at hpos
    obtain ⟨w, hw, halive⟩ := hpos
    obtain ⟨i, hi⟩ := List.getElem?_of_mem hw
    obtain ⟨a, s', -, hown, hs, -⟩ := exists_workerStep h hi halive (h.stopping hstop w hw)
    exact ⟨a, s', hown, hs⟩

def ownRun : BlockingExecutor τ → List (ExecutorAction τ) → Option (BlockingExecutor τ) :=
  run (guarded (fun _ a => ownStep a) BlockingExecutor.step)

/-- Once the destructor has been called, the pool on its own makes a bounded number of steps, and
it does not stop before the destructor has returned. -/
lemma destructor_returns (h : PoolOk s) (hstop : s.stopping = true)
    {as : List (ExecutorAction τ)} (hrun : ownRun s as = some s') :
    as.length ≤ s.work ∧
      ((∀ a, ownStep a = true → s'.step a = none) → s'.shutdown = .returned) := by
  have hstep : ∀ (s : BlockingExecutor τ) a s', (PoolOk s ∧ s.stopping = true) →
      guarded (fun _ a => ownStep a) BlockingExecutor.step s a = some s' →
      (PoolOk s' ∧ s'.stopping = true) ∧ s'.work < s.work := by
    rintro s a s' ⟨hok, hstop⟩ hs
    unfold guarded at hs
    split at hs
    · next hown =>
      obtain ⟨hstop', hlt⟩ := work_lt_of_stopping hok hstop hown hs
      exact ⟨⟨hok.step hs, hstop'⟩, hlt⟩
    · cases hs
  obtain ⟨⟨hok', hstop'⟩, hle⟩ := run_length_le hstep ⟨h, hstop⟩ hrun
  refine ⟨by omega, fun hstuck => ?_⟩
  by_contra hret
  obtain ⟨a, s'', hown, hs⟩ := exists_step_of_stopping hok' hstop' hret
  rw [hstuck a hown] at hs
  cases hs

lemma unfinished_of_returned (h : PoolOk s) (hret : s.shutdown = .returned) :
    s.unfinished = [] := by
  have hzero := h.returned hret
  have htasks : s.tasks = [] := by
    by_contra hne
    exact absurd hzero (Nat.ne_of_gt (h.staffed hne))
  rw [h.count, List.countP_eq_zero] at hzero
  rw [BlockingExecutor.unfinished, htasks, List.append_nil, List.flatMap_eq_nil_iff]
  intro w hw
  have halive := hzero w hw
  cases w <;> first | rfl | exact absurd rfl halive

lemma minWorkers_of_expiry {timedOut : Bool} (h : PoolOk s) (hstop : s.stopping = false)
    (hs : s.step (.reacquire i timedOut) = some s') (hlt : s'.workerCount < s.workerCount) :
    s.minWorkers ≤ s'.workerCount := by
  cases step_kind h hs with
  | @worker _ _ _ w' hstep _ =>
    have hcount := hstep.count
    cases halive : w'.isAlive with
    | true =>
      rw [halive, Bool.toNat_true] at hcount
      omega
    | false =>
      obtain hstop' | hle := hstep.retires halive
      · cases hstop.symm.trans hstop'
      · exact hle

/-- Every accepted task is called once, before the destructor returns, and the counters keep their
bounds. The destructor and the pool make progress on their own. -/
theorem accepted_tasks_run (minWorkers maxWorkers : Nat)
    (h : Reaches BlockingExecutor.step (fun _ _ => True) (.create minWorkers maxWorkers) s) :
    (∀ task, (s.submit (some task)).1 = .ok () →
      (s.submit (some task)).2.accepted = s.accepted ++ [task]) ∧
    s.accepted.Perm (s.executed ++ s.unfinished) ∧
    (s.shutdown = .returned → s.accepted.Perm s.executed) ∧
    (s.unfinished ≠ [] → ∃ a s', ownStep a = true ∧ s.step a = some s' ∧ s'.work < s.work) ∧
    (∀ a s', s.step a = some s' → (∀ task, a ≠ .submit task) → a ≠ .wakeDestructor →
      s'.work ≤ s.work) ∧
    (s.stopping = true → ∀ as s', ownRun s as = some s' → as.length ≤ s.work ∧
      ((∀ a, ownStep a = true → s'.step a = none) → s'.shutdown = .returned)) ∧
    (s.tasks ≠ [] → ∃ w ∈ s.workers, w.isAlive = true) ∧
    (s.tasks ≠ [] → s.notifications = 0 →
      ∃ w ∈ s.workers, w.isAlive = true ∧ w.isBlocked = false) ∧
    s.idleWorkers = s.workers.countP Worker.isIdle ∧
    s.workerCount = s.workers.countP Worker.isAlive ∧
    s.idleWorkers ≤ s.workerCount ∧ s.workerCount ≤ max 1 maxWorkers ∧
    (∀ i s', s.stopping = false → s.step (.reacquire i true) = some s' →
      s'.workerCount < s.workerCount → min minWorkers (max 1 maxWorkers) ≤ s'.workerCount) := by
  obtain ⟨hok, hmax, hmin⟩ := poolOk_reaches h
  refine ⟨?_, hok.ledger, ?_, exists_progress hok, fun a s' => work_le_of_step hok,
    fun hstop as s' => destructor_returns hok hstop, ?_, hok.attended, hok.idle, hok.count,
    hok.idle_le, hmax ▸ hok.le_max, ?_⟩
  · intro task hsubmit
    simp only [BlockingExecutor.submit] at hsubmit ⊢
    split at hsubmit
    · cases hsubmit
    · next hstop =>
      rw [if_neg hstop]
      split
      · rfl
      · split <;> rfl
  · intro hret
    have hledger := hok.ledger
    rwa [unfinished_of_returned hok hret, List.append_nil] at hledger
  · intro hne
    have hpos := hok.staffed hne
    rwa [hok.count, List.countP_pos_iff] at hpos
  · intro i s' hstop hs hlt
    rw [← hmin]
    exact minWorkers_of_expiry hok hstop hs hlt

/-- One task, one worker, and the destructor while the task is still in its hand. -/
def oneTask : List (ExecutorAction Nat) :=
  [.submit (some 7), .spawn 0, .destroy, .execute 0, .lock 0, .checkShutdown]

def oneTaskEnd : BlockingExecutor Nat where
  minWorkers := 0
  maxWorkers := 1
  tasks := []
  workerCount := 0
  idleWorkers := 0
  stopping := true
  workers := [.retired]
  notifications := 0
  shutdown := .returned
  accepted := [7]
  executed := [7]

theorem oneTask_runs : oneTaskEnd.accepted.Perm oneTaskEnd.executed :=
  (accepted_tasks_run 0 1 (.of_replay oneTask .start rfl)).2.2.1 rfl

/-- A call of `submit` that relies on a waiting worker finds one for every queued task. -/
def findsIdleWorker (s : BlockingExecutor τ) : ExecutorAction τ → Bool
  | .submit _ => s.idleWorkers = 0 || s.tasks.length < s.idleWorkers || s.workerCount = s.maxWorkers
  | _ => true

lemma grows_step {a : ExecutorAction τ} (h : PoolOk s) (ha : findsIdleWorker s a = true)
    (hs : s.step a = some s')
    (hgrows : s.tasks.length ≤ s.idleWorkers ∨ s.workerCount = s.maxWorkers) :
    s'.tasks.length ≤ s'.idleWorkers ∨ s'.workerCount = s'.maxWorkers := by
  cases step_kind h hs with
  | submit task heq =>
    rw [heq]
    simp only [findsIdleWorker, Bool.or_eq_true, decide_eq_true_eq] at ha
    cases submitted s task with
    | ignored heq => rwa [heq]
    | queued task hidle _ heq =>
      rw [heq]
      simp only [List.length_append, List.length_cons, List.length_nil]
      omega
    | spawned task hidle hcount _ heq =>
      rw [heq]
      left
      dsimp only
      omega
    | waits task _ hcount _ heq =>
      have := h.le_max
      rw [heq]
      right
      dsimp only
      omega
  | worker hstep _ =>
    obtain hnil | ⟨halive, -, hlen⟩ := hstep.tasks
    · exact .inl (hnil ▸ Nat.zero_le _)
    · have hcount := hstep.count
      have hidle := hstep.idle
      have hmax := hstep.maxWorkers
      rw [halive, Bool.toNat_true] at hcount
      omega
  | notifyNone _ _ heq => rwa [heq]
  | destroy _ heq => rwa [heq]
  | wakeDestructor _ heq => rwa [heq]
  | checkShutdown _ heq => rwa [heq]

/-- A task is queued behind running tasks only when the pool may not grow any more. -/
theorem pool_grows (minWorkers maxWorkers : Nat)
    (h : Reaches BlockingExecutor.step (fun s a => findsIdleWorker s a = true)
      (.create minWorkers maxWorkers) s)
    (hqueued : s.workers.countP Worker.isIdle < s.tasks.length) :
    s.workers.countP Worker.isAlive = max 1 maxWorkers := by
  have hgrows := h.invariant (P := fun s => PoolOk s ∧
      (s.tasks.length ≤ s.idleWorkers ∨ s.workerCount = s.maxWorkers))
    ⟨poolOk_create minWorkers maxWorkers, .inl (Nat.zero_le _)⟩
    (fun s a s' hok ha hs => ⟨hok.1.step hs, grows_step hok.1 ha hs hok.2⟩)
  obtain ⟨hok, hmax, -⟩ := poolOk_reaches h
  rw [← hok.count, ← hmax]
  rw [← hok.idle] at hqueued
  exact hgrows.2.resolve_left (Nat.not_le_of_lt hqueued)

def twoTasksOneWorker : BlockingExecutor Nat where
  minWorkers := 0
  maxWorkers := 1
  tasks := [8]
  workerCount := 1
  idleWorkers := 0
  stopping := false
  workers := [.running 7]
  notifications := 0
  shutdown := .notCalled
  accepted := [7, 8]
  executed := []

theorem twoTasksOneWorker_pool_grows :
    twoTasksOneWorker.workers.countP Worker.isIdle < twoTasksOneWorker.tasks.length ∧
      twoTasksOneWorker.workers.countP Worker.isAlive = max 1 1 :=
  ⟨by decide, pool_grows 0 1
    (.of_run findsIdleWorker (fun _ _ h => h) [.submit (some 7), .spawn 0, .submit (some 8)] .start
      rfl) (by decide)⟩

/-- Two calls of `submit` count on the same waiting worker. -/
def oneWorkerCountedTwice : List (ExecutorAction Nat) :=
  [.submit (some 1), .spawn 0, .execute 0, .lock 0, .submit (some 2), .submit (some 3),
    .notify (some 0), .reacquire 0 false]

/-- Task `3` waits behind task `2`, with one worker of two. -/
def queuedBehind : BlockingExecutor Nat where
  minWorkers := 0
  maxWorkers := 2
  tasks := [3]
  workerCount := 1
  idleWorkers := 0
  stopping := false
  workers := [.running 2]
  notifications := 1
  shutdown := .notCalled
  accepted := [1, 2, 3]
  executed := [1]

theorem pool_can_fail_to_grow : ¬∀ (minWorkers maxWorkers : Nat) (s : BlockingExecutor Nat),
    Reaches BlockingExecutor.step (fun _ _ => True) (.create minWorkers maxWorkers) s →
    s.workers.countP Worker.isIdle < s.tasks.length →
    s.workers.countP Worker.isAlive = max 1 maxWorkers := by
  intro hall
  have hbehind := hall 0 2 queuedBehind (.of_replay oneWorkerCountedTwice .start rfl) (by decide)
  exact absurd hbehind (by decide)

end GalayKernel.Proofs
