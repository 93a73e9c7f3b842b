import GalayKernel.Proofs.WorkerQueues

/-!
# The order in which a worker returns its tasks

A drained batch is pushed in reverse, so that `popNext`, which takes the youngest task of the ring,
returns the batch in its order. A batch that is drained while the ring still holds an older one goes
in front of it. The same holds for the LIFO slot: `prepareForRun` pushes the task of the slot onto
the ring, where `popNext` takes it at once, and the tasks that were in the ring keep waiting.
-/

namespace GalayKernel.Proofs

open Transition

variable {ι τ : Type}

/-- What `popNext` can do: it takes the task of the LIFO slot, it pushes that task onto the ring and
takes it back, or it takes the youngest task of the ring. -/
inductive Pops (w : WorkerState τ) : Option τ × WorkerState τ → Prop
  | slot {task : τ} (hlifo : w.lifoSlot = some task)
      (hlimit : w.lifoEnabled = true → w.consecutiveLifoPolls < w.lifoPollLimit) :
      Pops w (some task, { w with
        lifoSlot := none
        consecutiveLifoPolls := (w.consecutiveLifoPolls + 1) % 2 ^ 32
        pollsSinceInject := (w.pollsSinceInject + 1) % 2 ^ 32 })
  | demoted {task : τ} (hlifo : w.lifoSlot = some task) (henabled : w.lifoEnabled = true)
      (hlimit : w.lifoPollLimit ≤ w.consecutiveLifoPolls) (hroom : w.remainingCapacity ≠ 0) :
      Pops w (some task, { w with
        lifoSlot := none
        lifoEnabled := true
        consecutiveLifoPolls := 0
        pollsSinceInject := (w.pollsSinceInject + 1) % 2 ^ 32 })
  | ring {front : List τ} {task : τ} (hring : w.localRing = front ++ [task]) :
      Pops w (some task, { w with
        lifoSlot := none
        localRing := front
        injectQueue := w.injectQueue ++ w.lifoSlot.toList
        lifoEnabled := true
        consecutiveLifoPolls := 0
        pollsSinceInject := (w.pollsSinceInject + 1) % 2 ^ 32 })
  | empty (hlifo : w.lifoSlot = none) (hring : w.localRing = []) : Pops w (none, w)

lemma pops (w : WorkerState τ) : Pops w w.popNext := by
  unfold WorkerState.popNext WorkerState.prepareForRun
  cases hlifo : w.lifoSlot with
  | none =>
    dsimp only
    rw [hlifo]
    obtain hring | ⟨front, task, hring⟩ := List.eq_nil_or_concat' w.localRing
    · rw [hring]
      exact .empty hlifo hring
    · rw [hring, List.getLast?_concat, List.dropLast_concat]
      have hpops := Pops.ring hring
      rw [hlifo, Option.toList_none, List.append_nil] at hpops
      exact hpops
  | some task =>
    dsimp only
    by_cases hdemote : (w.lifoEnabled && decide (w.lifoPollLimit ≤ w.consecutiveLifoPolls)) = true
    · rw [if_pos hdemote]
      obtain ⟨henabled, hlimit⟩ := Bool.and_eq_true_iff.mp hdemote
      have hlimit := of_decide_eq_true hlimit
      unfold WorkerState.enqueueDeferred
      by_cases hfull : w.remainingCapacity = 0
      · rw [if_pos hfull]
        dsimp only
        obtain hring | ⟨front, youngest, hring⟩ := List.eq_nil_or_concat' w.localRing
        · rw [WorkerState.remainingCapacity, hring] at hfull
          cases hfull
        · rw [hring, List.getLast?_concat, List.dropLast_concat]
          have hpops := Pops.ring hring
          rw [hlifo] at hpops
          exact hpops
      · rw [if_neg hfull]
        dsimp only
        rw [List.getLast?_concat, List.dropLast_concat]
        exact .demoted hlifo henabled hlimit hfull
    · rw [if_neg hdemote, hlifo]
      refine .slot hlifo fun henabled => ?_
      rw [henabled, Bool.true_and, decide_eq_true_eq] at hdemote
      exact Nat.lt_of_not_le hdemote

section Fifo

variable {s s' : IOWorkers Unit τ}

/-- One producer schedules deferred and injected tasks, so the inject queue keeps their order. -/
def singleProducer [DecidableEq τ] (s : IOWorkers Unit τ) : WorkerCall Unit τ → Bool
  | .scheduleLocalDeferred .. | .scheduleInjected .. | .popNext _ => true
  | .drainInjected i order => order = (s.workers i).injectQueue
  | _ => false

/-- A batch is drained only into an empty ring. A call that finds no task to drain, or no room for
one, changes nothing. -/
def drainsEmptyRing (s : IOWorkers Unit τ) : WorkerCall Unit τ → Bool
  | .drainInjected i _ => (s.workers i).localRing.isEmpty || (s.workers i).injectQueue.isEmpty ||
    (s.workers i).localRing.remainingCapacity == 0
  | _ => true

/-- Without a task in the LIFO slot `popNext` takes the youngest task of the ring. -/
lemma popNext_of_lifoSlot {w : WorkerState τ} (hlifo : w.lifoSlot = none) :
    w.popNext.2.lifoSlot = none ∧ w.popNext.2.injectQueue = w.injectQueue ∧
      w.localRing.reverse = w.popNext.1.toList ++ w.popNext.2.localRing.reverse := by
  have hpops := pops w
  generalize w.popNext = out at hpops ⊢
  cases hpops with
  | slot hsome => cases hlifo.symm.trans hsome
  | demoted hsome => cases hlifo.symm.trans hsome
  | ring hring =>
    refine ⟨rfl, ?_, ?_⟩
    · rw [hlifo, Option.toList_none, List.append_nil]
    · rw [hring, List.reverse_concat]
      rfl
  | empty => exact ⟨hlifo, rfl, rfl⟩

lemma drainInjected_order {w : WorkerState τ} (hroom : w.remainingCapacity ≠ 0)
    (hdrains : w.localRing = [] ∨ w.injectQueue = []) :
    w.drainInjected.lifoSlot = w.lifoSlot ∧
      w.drainInjected.localRing.reverse ++ w.drainInjected.injectQueue =
        w.localRing.reverse ++ w.injectQueue := by
  rw [WorkerState.drainInjected, if_neg hroom]
  refine ⟨rfl, ?_⟩
  dsimp only [WorkerState.drained]
  obtain hring | hqueue := hdrains
  · rw [hring, List.nil_append, List.reverse_reverse]
    exact List.take_append_drop ..
  · rw [hqueue, List.take_nil, List.drop_nil, List.reverse_nil]
    simp only [List.append_nil]

/-- What is returned, then the ring from its end on, then the inject queue. -/
structure FifoOk (s : IOWorkers Unit τ) : Prop where
  worker : WorkerOk (s.workers ())
  lifoSlot : (s.workers ()).view.lifoSlot = none
  order : s.scheduled.map some = s.returned ++ ((s.workers ()).view.localRing.reverse ++
    (s.workers ()).view.injectQueue).map some

lemma FifoOk.inject (h : FifoOk s) (task : τ) :
    FifoOk { s.setWorker () ((s.workers ()).scheduleLocalDeferred (some task)) with
      scheduled := s.scheduled ++ [task] } where
  worker := (h.worker.inject task).1
  lifoSlot := h.lifoSlot
  order := by
    change (s.scheduled ++ [task]).map some = s.returned ++
      ((s.workers ()).localRing.tasks.reverse ++ ((s.workers ()).injectQueue ++ [task])).map some
    rw [List.map_append, h.order]
    simp only [List.map_append, List.append_assoc]
    rfl

lemma FifoOk.ignores (h : FifoOk s) :
    FifoOk { s.setWorker () (s.workers ()) with scheduled := s.scheduled ++ [] } where
  worker := h.worker
  lifoSlot := h.lifoSlot
  order := by
    rw [List.append_nil]
    exact h.order

lemma FifoOk.drain (h : FifoOk s) (hdrains : (s.workers ()).view.remainingCapacity ≠ 0 →
      (s.workers ()).view.localRing = [] ∨ (s.workers ()).view.injectQueue = []) :
    FifoOk (s.setWorker () ((s.workers ()).drainInjected (s.workers ()).injectQueue).2) := by
  obtain ⟨hok, hroom, hfull⟩ := h.worker.drainInjected (.refl _)
  by_cases hcapacity : (s.workers ()).view.remainingCapacity = 0
  · rw [hfull hcapacity]
    exact ⟨h.worker, h.lifoSlot, h.order⟩
  · have hview := hroom hcapacity
    obtain ⟨hlifo, htasks⟩ := drainInjected_order hcapacity (hdrains hcapacity)
    refine ⟨hok, ?_, ?_⟩
    · change ((s.workers ()).drainInjected (s.workers ()).injectQueue).2.view.lifoSlot = none
      rw [hview]
      exact hlifo.trans h.lifoSlot
    · change s.scheduled.map some = s.returned ++
        (((s.workers ()).drainInjected (s.workers ()).injectQueue).2.view.localRing.reverse ++
          ((s.workers ()).drainInjected (s.workers ()).injectQueue).2.view.injectQueue).map some
      rw [hview, h.order]
      exact congrArg (fun tasks => s.returned ++ tasks.map some) htasks.symm

lemma FifoOk.drains (h : FifoOk s) {order : List τ}
    (hempty : drainsEmptyRing s (.drainInjected () order) = true)
    (hcapacity : (s.workers ()).view.remainingCapacity ≠ 0) :
    (s.workers ()).view.localRing = [] ∨ (s.workers ()).view.injectQueue = [] := by
  rw [drainsEmptyRing, Bool.or_eq_true, Bool.or_eq_true, h.worker.ring.isEmpty,
    h.worker.remainingCapacity, beq_iff_eq] at hempty
  obtain (hring | hqueue) | hfull := hempty
  · exact .inl (List.isEmpty_iff.mp hring)
  · exact .inr (List.isEmpty_iff.mp hqueue)
  · exact absurd hfull hcapacity

lemma FifoOk.popNext (h : FifoOk s) :
    FifoOk { s.setWorker () (s.workers ()).popNext.2 with
      returned := s.returned ++ (s.workers ()).popNext.1.toList } := by
  obtain ⟨hok, hout, hview⟩ := h.worker.popNext
  obtain ⟨hlifo, hqueue, hring⟩ := popNext_of_lifoSlot h.lifoSlot
  rw [← hview] at hlifo hqueue hring
  refine ⟨hok, hlifo, ?_⟩
  change s.scheduled.map some = s.returned ++ (s.workers ()).popNext.1.toList ++
    ((s.workers ()).popNext.2.view.localRing.reverse ++
      (s.workers ()).popNext.2.view.injectQueue).map some
  rw [h.order, hring, hqueue, hout, List.append_assoc, List.append_assoc, List.map_append]
  cases (s.workers ()).view.popNext.1 <;> rfl

lemma FifoOk.step [DecidableEq τ] {a : WorkerCall Unit τ} (h : FifoOk s)
    (hproducer : singleProducer s a = true) (hempty : drainsEmptyRing s a = true)
    (hs : s.step a = some s') : FifoOk s' := by
  cases a with
  | scheduleLocal => cases hproducer
  | scheduleLocalDeferred i task =>
    cases hs
    cases task with
    | none => exact h.ignores
    | some task => exact h.inject task
  | scheduleInjected i task =>
    cases hs
    cases task with
    | none => exact h.ignores
    | some task => exact h.inject task
  | drainInjected i order =>
    rw [IOWorkers.step, Option.ite_none_right_eq_some] at hs
    obtain ⟨-, hs⟩ := hs
    cases hs
    cases of_decide_eq_true hproducer
    exact h.drain (h.drains hempty)
  | prepareForRun => cases hproducer
  | popNext i =>
    cases hs
    exact h.popNext
  | trySteal => cases hproducer

/-- A worker that drains into an empty ring returns the tasks in the order in which they were
scheduled. -/
theorem scheduled_order_kept [DecidableEq τ] (config : Unit → WorkerConfig Unit)
    (h : Reaches IOWorkers.step
      (fun s a => singleProducer s a = true ∧ drainsEmptyRing s a = true) (.new config) s) :
    s.returned <+: s.scheduled.map some := by
  have hok := h.invariant (P := FifoOk)
    ⟨(queuesOk_new config).worker (), rfl, rfl⟩
    (fun _ _ _ hok ha hs => hok.step ha.1 ha.2 hs)
  rw [hok.order]
  exact List.prefix_append ..

def oneWorker (_ : Unit) : WorkerConfig Unit where
  injectBatchSize := 4
  lifoLimit := 1
  injectInterval := 8
  selfIndex := 0
  siblings := []
  stealingEnabled := false

/-- Two batches, the second after the first has been consumed; in between the empty inject queue is
drained while the ring still holds a task. -/
def batchAfterBatch : List (WorkerCall Unit Nat) :=
  [.scheduleInjected () (some 1), .scheduleLocalDeferred () (some 2), .drainInjected () [1, 2],
    .popNext (), .drainInjected () [], .scheduleInjected () (some 3), .popNext (),
    .drainInjected () [3], .popNext ()]

theorem batchAfterBatch_order_kept : ∃ s : IOWorkers Unit Nat,
    s.returned = [some 1, some 2, some 3] ∧ s.returned <+: s.scheduled.map some :=
  ⟨_, rfl, scheduled_order_kept oneWorker
    (.of_run (fun s a => singleProducer s a && drainsEmptyRing s a) (fun _ _ h => by simpa using h)
      batchAfterBatch .start rfl)⟩

/-- The second batch is drained when the first has been consumed in part. -/
def batchOntoBatch : List (WorkerCall Unit Nat) :=
  [.scheduleInjected () (some 1), .scheduleInjected () (some 2), .drainInjected () [1, 2],
    .popNext (), .scheduleInjected () (some 3), .drainInjected () [3], .popNext ()]

theorem scheduled_order_can_be_lost :
    ¬∀ (config : Unit → WorkerConfig Unit) (s : IOWorkers Unit Nat),
    Reaches IOWorkers.step (fun s a => singleProducer s a = true) (.new config) s →
    s.returned <+: s.scheduled.map some := by
  intro hall
  have hprefix := hall oneWorker _
    (.of_run singleProducer (fun _ _ h => h) batchOntoBatch .start rfl)
  exact absurd hprefix (by decide)

end Fifo

/-- The calls of a worker that keeps itself busy. -/
inductive LocalCall (τ : Type) where
  | scheduleLocal (task : Option τ)
  | popNext

section Lifo

def LocalCall.apply (w : IOSchedulerWorkerState ι τ) : LocalCall τ → IOSchedulerWorkerState ι τ
  | .scheduleLocal task => w.scheduleLocal task
  | .popNext => w.popNext.2

def returnedBy (w : IOSchedulerWorkerState ι τ) : List (LocalCall τ) → List (Option τ)
  | [] => []
  | .scheduleLocal task :: calls => returnedBy (w.scheduleLocal task) calls
  | .popNext :: calls => w.popNext.1.toList ++ returnedBy w.popNext.2 calls

def RingNeverEmpty (w : IOSchedulerWorkerState ι τ) : List (LocalCall τ) → Prop
  | [] => w.localRing.isEmpty = false
  | call :: calls => w.localRing.isEmpty = false ∧ RingNeverEmpty (call.apply w) calls

def keepsRing (w : IOSchedulerWorkerState ι τ) : LocalCall τ → Bool
  | .scheduleLocal none => true
  | .scheduleLocal (some _) => w.lifoEnabled && w.lifoSlot.isNone
  | .popNext => !(w.lifoEnabled && w.lifoSlot.isSome && w.lifoPollLimit ≤ w.consecutiveLifoPolls) ||
    w.localRing.remainingCapacity == 0

def KeepsRing (w : IOSchedulerWorkerState ι τ) : List (LocalCall τ) → Prop
  | [] => True
  | call :: calls => keepsRing w call = true ∧ KeepsRing (call.apply w) calls

variable {w : IOSchedulerWorkerState ι τ} {old : List τ} {calls : List (LocalCall τ)}

/-- While nothing of the ring is returned and nothing is pushed onto it, `popNext` takes from the
LIFO slot. -/
lemma popNext_of_keepsRing (h : WorkerOk w) (hring : w.view.localRing ≠ [])
    (hold : ∀ task ∈ w.view.localRing, task ∈ old) (hkeeps : keepsRing w .popNext = true)
    (hnone : ∀ task ∈ old, some task ∉ w.popNext.1.toList) :
    w.view.lifoSlot ≠ none ∧ (∃ task, w.popNext.1 = some (some task)) ∧
      (w.view.lifoEnabled = true → w.view.consecutiveLifoPolls < w.view.lifoPollLimit) ∧
      w.popNext.2.view = { w.view with
        lifoSlot := none
        consecutiveLifoPolls := (w.view.consecutiveLifoPolls + 1) % 2 ^ 32
        pollsSinceInject := (w.view.pollsSinceInject + 1) % 2 ^ 32 } := by
  obtain ⟨-, hout, hview⟩ := h.popNext
  have hpops := pops w.view
  generalize w.view.popNext = out at hpops hout hview
  cases hpops with
  | slot hlifo hlimit => exact ⟨by rw [hlifo]; rintro ⟨⟩, ⟨_, hout⟩, hlimit, hview⟩
  | demoted hlifo henabled hlimit hroom =>
    have hlifo' : w.lifoSlot.isSome = true := congrArg Option.isSome hlifo
    have henabled' : w.lifoEnabled = true := henabled
    have hlimit' : w.lifoPollLimit ≤ w.consecutiveLifoPolls := hlimit
    simp [keepsRing, hlifo', henabled', hlimit', h.remainingCapacity, hroom] at hkeeps
  | @ring front task htasks =>
    refine absurd ?_ (hnone task (hold task ?_))
    · rw [hout]
      exact List.mem_singleton_self _
    · rw [htasks]
      exact List.mem_append_right front List.mem_cons_self
  | empty hlifo hempty => exact absurd hempty hring

/-- How often `popNext` may still take from the LIFO slot. -/
def lifoCredit (w : WorkerState τ) : Nat :=
  if w.lifoEnabled then w.lifoPollLimit - w.consecutiveLifoPolls else 0

lemma length_returnedBy (h : WorkerOk w) (hring : w.view.localRing ≠ [])
    (hold : ∀ task ∈ w.view.localRing, task ∈ old)
    (hslot : w.view.lifoEnabled = true ∨ w.view.lifoSlot = none) (hkeeps : KeepsRing w calls)
    (hnone : ∀ task ∈ old, some task ∉ returnedBy w calls) :
    (returnedBy w calls).length ≤ lifoCredit w.view := by
  induction calls generalizing w with
  | nil => exact Nat.zero_le _
  | cons call calls ih =>
    obtain ⟨hcall, hkeeps⟩ := hkeeps
    cases call with
    | scheduleLocal task =>
      cases task with
      | none => exact ih h hring hold hslot hkeeps hnone
      | some task =>
        rw [keepsRing, Bool.and_eq_true, Option.isNone_iff_eq_none] at hcall
        have hset : w.scheduleLocal (some task) = { w with lifoSlot := some task } := by
          rw [IOSchedulerWorkerState.scheduleLocal, if_pos hcall.1, hcall.2]
        have hview : (w.scheduleLocal (some task)).view = { w.view with lifoSlot := some task } := by
          rw [hset]
          rfl
        have hcount := ih (h.scheduleLocal task).1 (by rwa [hview]) (by rwa [hview])
          (.inl (by rw [hview]; exact hcall.1)) hkeeps hnone
        rw [hview] at hcount
        exact hcount
    | popNext =>
      rw [returnedBy] at hnone ⊢
      have hfirst : ∀ task ∈ old, some task ∉ w.popNext.1.toList := fun task htask hmem =>
        hnone task htask (List.mem_append_left _ hmem)
      have hrest : ∀ task ∈ old, some task ∉ returnedBy w.popNext.2 calls := fun task htask hmem =>
        hnone task htask (List.mem_append_right _ hmem)
      obtain ⟨hlifo, ⟨task, hout⟩, hlimit, hview⟩ :=
        popNext_of_keepsRing h hring hold hcall hfirst
      have henabled := hslot.resolve_right hlifo
      have hlimit := hlimit henabled
      have hcount := ih h.popNext.1 (by rwa [hview]) (by rwa [hview]) (.inr (by rw [hview])) hkeeps
        hrest
      have hlt : w.view.lifoPollLimit < 2 ^ 32 := w.lifoPollLimit.toNat_lt
      rw [hview, lifoCredit, if_pos henabled, Nat.mod_eq_of_lt (by omega)] at hcount
      dsimp only at hcount
      rw [lifoCredit, if_pos henabled, hout, List.length_append]
      change 1 + _ ≤ _
      omega

/-- The first call may push the task of the slot onto the ring and take it back. -/
lemma popNext_of_ring_kept (h : WorkerOk w) (hring : w.view.localRing ≠ [])
    (hnone : ∀ task ∈ w.view.localRing, some task ∉ w.popNext.1.toList) :
    w.popNext.2.view.localRing = w.view.localRing ∧
      (w.popNext.2.view.lifoEnabled = true ∨ w.popNext.2.view.lifoSlot = none) ∧
      lifoCredit w.popNext.2.view ≤ w.view.lifoPollLimit := by
  obtain ⟨-, hout, hview⟩ := h.popNext
  have hpops := pops w.view
  rw [hout] at hnone
  rw [hview]
  generalize w.view.popNext = out at hpops hnone ⊢
  cases hpops with
  | slot hlifo hlimit =>
    refine ⟨rfl, .inr rfl, ?_⟩
    unfold lifoCredit
    split
    · exact Nat.sub_le ..
    · exact Nat.zero_le _
  | demoted hlifo henabled hlimit hroom => exact ⟨rfl, .inl rfl, Nat.sub_le ..⟩
  | @ring front task htasks =>
    refine absurd (List.mem_singleton_self _) (hnone task ?_)
    rw [htasks]
    exact List.mem_append_right front List.mem_cons_self
  | empty hlifo hempty => exact absurd hempty hring

/-- When nothing is pushed onto the ring after the first call, one of `lifo_poll_limit + 2`
successful calls of `popNext` returns a task that was in the ring before them. -/
theorem ring_task_returned [DecidableEq ι] [Fintype ι] [DecidableEq τ]
    (config : ι → WorkerConfig ι) {s : IOWorkers ι τ}
    (h : Reaches IOWorkers.step (fun _ _ => True) (.new config) s) (i : ι)
    (calls : List (LocalCall τ)) (hring : RingNeverEmpty (s.workers i) (.popNext :: calls))
    (hkeeps : KeepsRing (s.workers i).popNext.2 calls)
    (hcount : (returnedBy (s.workers i) (.popNext :: calls)).length =
      (s.workers i).lifoPollLimit.toNat + 2) :
    ∃ task ∈ (s.workers i).localRing.tasks,
      some task ∈ returnedBy (s.workers i) (.popNext :: calls) := by
  have hok := (h.invariant (P := QueuesOk) (queuesOk_new config)
    (fun _ _ _ hok _ hs => hok.step hs)).worker i
  generalize s.workers i = w at *
  by_contra hnone
  have hnone : ∀ task ∈ w.view.localRing, some task ∉ returnedBy w (.popNext :: calls) :=
    fun task htask hmem => hnone ⟨task, htask, hmem⟩
  have hne : w.view.localRing ≠ [] := by
    have hempty := hring.1
    rw [hok.ring.isEmpty] at hempty
    exact List.isEmpty_eq_false_iff.mp hempty
  rw [returnedBy] at hnone hcount
  have hrest : ∀ task ∈ w.view.localRing, some task ∉ returnedBy w.popNext.2 calls :=
    fun task htask hmem => hnone task htask (List.mem_append_right _ hmem)
  obtain ⟨hsame, hslot, hcredit⟩ := popNext_of_ring_kept hok hne
    fun task htask hmem => hnone task htask (List.mem_append_left _ hmem)
  have hold : ∀ task ∈ w.popNext.2.view.localRing, task ∈ w.view.localRing :=
    fun task htask => hsame ▸ htask
  have hbound := length_returnedBy hok.popNext.1 (by rwa [hsame]) hold hslot hkeeps hrest
  have hlimit : w.lifoPollLimit.toNat = w.view.lifoPollLimit := rfl
  have hone := Option.length_toList_le (o := w.popNext.1)
  rw [List.length_append, hlimit] at hcount
  omega

def filledRing : List (WorkerCall Unit Nat) :=
  [.scheduleLocal () (some 0), .scheduleLocal () (some 1), .scheduleLocal () (some 2)]

/-- Between two tasks of the slot comes one of the ring. -/
theorem filledRing_task_returned : ∃ s : IOWorkers Unit Nat,
    (s.workers ()).localRing.tasks = [0, 1] ∧
    returnedBy (s.workers ()) [.popNext, .popNext, .scheduleLocal (some 3), .popNext] =
      [some 2, some 1, some 3] ∧
    ∃ task ∈ (s.workers ()).localRing.tasks, some task ∈
      returnedBy (s.workers ()) [.popNext, .popNext, .scheduleLocal (some 3), .popNext] :=
  ⟨_, rfl, rfl, ring_task_returned oneWorker (.of_replay filledRing .start rfl) ()
    [.popNext, .scheduleLocal (some 3), .popNext] ⟨rfl, rfl, rfl, rfl, rfl⟩ ⟨rfl, rfl, rfl, trivial⟩
    rfl⟩

def localOnly : WorkerCall ι τ → Bool
  | .scheduleLocal .. | .popNext _ => true
  | _ => false

/-- A task that reschedules itself goes from the slot through the ring and back into the slot. -/
theorem ring_task_can_starve : ¬∀ (config : Unit → WorkerConfig Unit) (s : IOWorkers Unit Nat),
    Reaches IOWorkers.step (fun _ a => localOnly a = true) (.new config) s →
    ∀ calls, RingNeverEmpty (s.workers ()) (.popNext :: calls) →
    (returnedBy (s.workers ()) (.popNext :: calls)).length =
      (s.workers ()).lifoPollLimit.toNat + 2 →
    ∃ task ∈ (s.workers ()).localRing.tasks,
      some task ∈ returnedBy (s.workers ()) (.popNext :: calls) := by
  intro hall
  have hreturned := hall oneWorker _ (.of_run (fun _ => localOnly) (fun _ _ h => h)
    [.scheduleLocal () (some 0), .scheduleLocal () (some 1)] .start rfl)
    [.scheduleLocal (some 1), .popNext, .scheduleLocal (some 1), .popNext]
    ⟨rfl, rfl, rfl, rfl, rfl, rfl⟩ rfl
  exact absurd hreturned (by decide)

end Lifo

end GalayKernel.Proofs
