import GalayKernel.TaskRing
import Mathlib.Data.List.Perm.Basic

/-!
# The queues of the workers

`IOSchedulerWorkerState` (`kernel/io_scheduler.hpp`) with `trySteal`, for any number of workers
whose calls do not overlap in time. `inject_queue` is a queue of `moodycamel`, which keeps the order
of each producer but not the order between producers: a bulk dequeue hands out its tasks in an order
that is part of the call. The random start of `trySteal` and the flags `m_resume_owner_only` that it
reads are part of the call, too.
-/

namespace GalayKernel

variable {ι τ : Type}

/-- The workers have names in `ι`. -/
structure IOSchedulerWorkerState (ι τ : Type) where
  lifoSlot : Option τ
  localRing : TaskRing τ
  injectQueue : List τ
  injectBuffer : Nat
  injectBuffer_pos : 0 < injectBuffer
  selfIndex : Nat
  /-- `none` is a null pointer, or a scheduler without a worker state -/
  siblings : List (Option ι)
  injectedOutstanding : Nat
  consecutiveLifoPolls : UInt32
  lifoPollLimit : UInt32
  pollsSinceInject : UInt32
  injectCheckInterval : UInt32
  lifoEnabled : Bool
  stealingEnabled : Bool
  stealAttempts : Nat
  stealSuccesses : Nat

structure WorkerConfig (ι : Type) where
  injectBatchSize : Nat
  lifoLimit : UInt32
  injectInterval : UInt32
  selfIndex : Nat
  siblings : List (Option ι)
  stealingEnabled : Bool

namespace IOSchedulerWorkerState

def new (config : WorkerConfig ι) : IOSchedulerWorkerState ι τ where
  lifoSlot := none
  localRing := .new
  injectQueue := []
  injectBuffer := max 1 config.injectBatchSize
  injectBuffer_pos := Nat.lt_of_lt_of_le Nat.zero_lt_one (Nat.le_max_left ..)
  selfIndex := config.selfIndex
  siblings := config.siblings
  injectedOutstanding := 0
  consecutiveLifoPolls := 0
  lifoPollLimit := config.lifoLimit
  pollsSinceInject := 0
  injectCheckInterval := config.injectInterval
  lifoEnabled := true
  stealingEnabled := config.stealingEnabled
  stealAttempts := 0
  stealSuccesses := 0

def hasPendingInjected (w : IOSchedulerWorkerState ι τ) : Bool := 0 < w.injectedOutstanding

def hasLocalWork (w : IOSchedulerWorkerState ι τ) : Bool :=
  w.lifoSlot.isSome || !w.localRing.isEmpty

def fallbackToInject (w : IOSchedulerWorkerState ι τ) (task : τ) : IOSchedulerWorkerState ι τ :=
  { w with
    injectedOutstanding := w.injectedOutstanding + 1
    injectQueue := w.injectQueue ++ [task] }

/-- The result of `push_back` is ignored. -/
def enqueueDeferred (w : IOSchedulerWorkerState ι τ) (task : τ) : IOSchedulerWorkerState ι τ :=
  if w.localRing.remainingCapacity = 0 then w.fallbackToInject task
  else { w with localRing := (w.localRing.pushBack (some task)).2 }

def enqueueDeferredFifo (w : IOSchedulerWorkerState ι τ) (task : τ) : IOSchedulerWorkerState ι τ :=
  { w with
    injectedOutstanding := w.injectedOutstanding + 1
    injectQueue := w.injectQueue ++ [task] }

def scheduleLocal (w : IOSchedulerWorkerState ι τ) : Option τ → IOSchedulerWorkerState ι τ
  | none => w
  | some task =>
    if w.lifoEnabled then
      match w.lifoSlot with
      | some older => { w.enqueueDeferred older with lifoSlot := some task }
      | none => { w with lifoSlot := some task }
    else w.enqueueDeferred task

def scheduleLocalDeferred (w : IOSchedulerWorkerState ι τ) : Option τ → IOSchedulerWorkerState ι τ
  | none => w
  | some task => w.enqueueDeferredFifo task

def scheduleInjected (w : IOSchedulerWorkerState ι τ) :
    Option τ → Bool × IOSchedulerWorkerState ι τ
  | none => (false, w)
  | some task =>
    (w.injectedOutstanding == 0,
      { w with
        injectedOutstanding := w.injectedOutstanding + 1
        injectQueue := w.injectQueue ++ [task] })

/-- `drainInjected`; `order` is the order in which `inject_queue` hands out what it holds. -/
def drainInjected (w : IOSchedulerWorkerState ι τ) (order : List τ) :
    Nat × IOSchedulerWorkerState ι τ :=
  if w.injectBuffer = 0 then (0, w)
  else if w.localRing.remainingCapacity = 0 then (0, w)
  else
    let target := min w.localRing.remainingCapacity w.injectBuffer
    let batch := order.take target
    (batch.length, { w with
      injectQueue := order.drop target
      -- from the last to the first, and the results of `push_back` are ignored
      localRing := batch.reverse.foldl (fun r task => (r.pushBack (some task)).2) w.localRing
      injectedOutstanding := w.injectedOutstanding - batch.length
      pollsSinceInject := 0 })

def prepareForRun (w : IOSchedulerWorkerState ι τ) : IOSchedulerWorkerState ι τ :=
  match w.lifoSlot with
  | some task =>
    if w.lifoEnabled && w.lifoPollLimit ≤ w.consecutiveLifoPolls then
      { w.enqueueDeferred task with
        lifoSlot := none
        lifoEnabled := false
        consecutiveLifoPolls := 0 }
    else w
  | none => w

def popNext (w : IOSchedulerWorkerState ι τ) : Option (Option τ) × IOSchedulerWorkerState ι τ :=
  let w := w.prepareForRun
  match w.lifoSlot with
  | some task => (some (some task), { w with
      lifoSlot := none
      consecutiveLifoPolls := w.consecutiveLifoPolls + 1
      pollsSinceInject := w.pollsSinceInject + 1 })
  | none =>
    match w.localRing.popBack with
    | (some out, ring) => (some out, { w with
        localRing := ring
        lifoEnabled := true
        consecutiveLifoPolls := 0
        pollsSinceInject := w.pollsSinceInject + 1 })
    | (none, ring) => (none, { w with localRing := ring })

def tasks (w : IOSchedulerWorkerState ι τ) : List τ :=
  w.lifoSlot.toList ++ w.localRing.tasks ++ w.injectQueue

/-- The inner loop of `trySteal`: how many tasks were moved, and the two rings afterwards. -/
def stealFrom (ownerOnly : τ → Bool) :
    Nat → TaskRing τ → TaskRing τ → Nat × TaskRing τ × TaskRing τ
  | 0, victim, own => (0, victim, own)
  | target + 1, victim, own =>
    match victim.stealFront ownerOnly with
    | (none, victim) => (0, victim, own)
    | (some task, victim) =>
      match own.pushBack task with
      | (false, own) => (0, victim, own)
      | (true, own) =>
        let rest := stealFrom ownerOnly target victim own
        (rest.1 + 1, rest.2)

variable [DecidableEq ι]

/-- The probes of `trySteal` by worker `i`, which has room for `capacity` tasks. A worker without
local work does not steal from itself, even if it is its own sibling: its ring is empty. -/
def probe (ownerOnly : τ → Bool) (i : ι) (capacity : Nat) :
    List Nat → (ι → IOSchedulerWorkerState ι τ) → Bool × (ι → IOSchedulerWorkerState ι τ)
  | [], workers => (false, workers)
  | index :: indices, workers =>
    if index = (workers i).selfIndex then probe ownerOnly i capacity indices workers
    else
      match (workers i).siblings[index]?.join with
      | none => probe ownerOnly i capacity indices workers
      | some j =>
        let size := (workers j).localRing.size
        if size = 0 then probe ownerOnly i capacity indices workers
        else
          let out := stealFrom ownerOnly (min capacity (max 1 (size / 2)))
            (workers j).localRing (workers i).localRing
          let workers := Function.update workers j { workers j with localRing := out.2.1 }
          let workers := Function.update workers i { workers i with localRing := out.2.2 }
          if 0 < out.1 then
            (true, Function.update workers i { workers i with
              lifoEnabled := true
              consecutiveLifoPolls := 0
              pollsSinceInject := 0
              stealSuccesses := (workers i).stealSuccesses + 1 })
          else probe ownerOnly i capacity indices workers

/-- `trySteal` of worker `i`; `start` is what the random generator returns. -/
def trySteal (workers : ι → IOSchedulerWorkerState ι τ) (i : ι) (start : Nat)
    (ownerOnly : τ → Bool) : Bool × (ι → IOSchedulerWorkerState ι τ) :=
  let w := workers i
  if !w.stealingEnabled || w.hasLocalWork || w.hasPendingInjected || w.siblings.length ≤ 1 then
    (false, workers)
  else if w.localRing.remainingCapacity = 0 then (false, workers)
  else
    probe ownerOnly i w.localRing.remainingCapacity
      ((List.range w.siblings.length).map fun k => (start + k) % w.siblings.length)
      (Function.update workers i { w with stealAttempts := w.stealAttempts + 1 })

end IOSchedulerWorkerState

/-- The workers; `scheduled` records the valid tasks that were scheduled, `returned` what the
successful calls of `popNext` handed out. -/
structure IOWorkers (ι τ : Type) where
  workers : ι → IOSchedulerWorkerState ι τ
  scheduled : List τ
  returned : List (Option τ)

/-- A call on worker `i`; `none` is a `TaskRef` that is not valid. -/
inductive WorkerCall (ι τ : Type) where
  | scheduleLocal (i : ι) (task : Option τ)
  | scheduleLocalDeferred (i : ι) (task : Option τ)
  | scheduleInjected (i : ι) (task : Option τ)
  | drainInjected (i : ι) (order : List τ)
  | prepareForRun (i : ι)
  | popNext (i : ι)
  | trySteal (i : ι) (start : Nat) (ownerOnly : τ → Bool)

namespace IOWorkers

def new (config : ι → WorkerConfig ι) : IOWorkers ι τ where
  workers := fun i => .new (config i)
  scheduled := []
  returned := []

variable [DecidableEq ι]

def setWorker (s : IOWorkers ι τ) (i : ι) (w : IOSchedulerWorkerState ι τ) : IOWorkers ι τ :=
  { s with workers := Function.update s.workers i w }

def step [DecidableEq τ] (s : IOWorkers ι τ) : WorkerCall ι τ → Option (IOWorkers ι τ)
  | .scheduleLocal i task =>
    some { s.setWorker i ((s.workers i).scheduleLocal task) with
      scheduled := s.scheduled ++ task.toList }
  | .scheduleLocalDeferred i task =>
    some { s.setWorker i ((s.workers i).scheduleLocalDeferred task) with
      scheduled := s.scheduled ++ task.toList }
  | .scheduleInjected i task =>
    some { s.setWorker i ((s.workers i).scheduleInjected task).2 with
      scheduled := s.scheduled ++ task.toList }
  | .drainInjected i order =>
    if order.Perm (s.workers i).injectQueue then
      some (s.setWorker i ((s.workers i).drainInjected order).2)
    else none
  | .prepareForRun i => some (s.setWorker i (s.workers i).prepareForRun)
  | .popNext i =>
    some { s.setWorker i (s.workers i).popNext.2 with
      returned := s.returned ++ (s.workers i).popNext.1.toList }
  | .trySteal i start ownerOnly =>
    if start < (s.workers i).siblings.length then
      some { s with workers := (IOSchedulerWorkerState.trySteal s.workers i start ownerOnly).2 }
    else none

end IOWorkers

end GalayKernel
