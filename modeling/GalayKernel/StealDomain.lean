import GalayKernel.ChaseLevTaskRing

/-!
# Wake-ups and work stealing

The threads of a runtime whose IO schedulers steal from each other: `requestTaskResume`
(`kernel/task.cc`), `Scheduler::resume` (`kernel/scheduler.hpp`), and the queues of
`IOSchedulerWorkerState` (`kernel/io_scheduler.hpp`) with the work-stealing ring, one atomic
operation a step. Thread `i` is that of scheduler `i`; `home` is the scheduler a task is bound to. A
thread that belongs to no scheduler is one to which no task is bound and which does not steal.

Which of its queues a scheduler looks at next is left open: it may take from the LIFO slot or from
the ring, drain the injected tasks, move the LIFO slot to the ring or steal at any time between two
tasks. The queue of injected tasks hands out its tasks in any order.
-/

namespace GalayKernel

/-- The next operation of a thread, with its local variables. -/
inductive ThreadPoint where
  /-- between two calls, or in the code of a task -/
  | idle
  | exchangeQueued (task : Nat)
  | storeOwnerOnly (task : Nat)
  /-- `requestTaskResume`: `m_scheduler->schedule(task)` -/
  | schedule (task : Nat)
  /-- `enqueueDeferred`, before `size()` loads `m_head` -/
  | enqueueDeferred (task : Nat)
  /-- `enqueueDeferred`, before `size()` loads `m_tail` -/
  | loadSize (task head : Nat)
  /-- before `push_back` of the first of the tasks -/
  | push (tasks : List Nat)
  /-- in `push_back`; the other tasks follow -/
  | pushing (tasks : List Nat)
  | popping
  | stealing (victim : Nat)
  | clearQueued (task : Nat)
  | clearOwnerOnly (task : Nat)
  | resumeHandle (task : Nat)
  deriving DecidableEq, Repr

/-- The last three fields record the history: which tasks `requestTaskResume` has put into a queue
since they were resumed last, and the tasks that were stolen and resumed, each with that mark. -/
structure StealDomain where
  rings : Nat → ChaseLevTaskRing
  /-- the task that a thief has read: ring `i`, thief `j` -/
  candidates : Nat → Nat → Nat
  injectQueues : Nat → List Nat
  lifoSlots : Nat → Option Nat
  points : Nat → ThreadPoint
  queued : Nat → Bool
  ownerOnly : Nat → Bool
  woken : Nat → Bool
  stolen : List (Nat × Bool)
  /-- task, thread and mark -/
  resumed : List (Nat × Nat × Bool)

/-- What thread `i` does. `lifoEnabled` is the worker's flag, where it is read. -/
inductive DomainAction where
  | wakeUp (i task : Nat)
  /-- a task is scheduled for the first time, or as a continuation -/
  | schedule (i task : Nat) (lifoEnabled : Bool)
  | scheduleDeferred (i task : Nat)
  | prepareForRun (i : Nat)
  /-- `inject_queue` hands out `batch` and keeps `rest` -/
  | drainInjected (i : Nat) (batch rest : List Nat)
  | popLifo (i : Nat)
  | popBack (i : Nat)
  | stealFront (i victim : Nat)
  | run (i : Nat) (lifoEnabled : Bool)
  deriving DecidableEq, Repr

namespace StealDomain

open ChaseLevTaskRing

def init : StealDomain where
  rings := fun _ => .init
  candidates := fun _ _ => 0
  injectQueues := fun _ => []
  lifoSlots := fun _ => none
  points := fun _ => .idle
  queued := fun _ => false
  ownerOnly := fun _ => false
  woken := fun _ => false
  stolen := []
  resumed := []

def goTo (s : StealDomain) (i : Nat) (point : ThreadPoint) : StealDomain :=
  { s with points := Function.update s.points i point }

def setRing (s : StealDomain) (i : Nat) (ring : ChaseLevTaskRing) : StealDomain :=
  { s with rings := Function.update s.rings i ring }

def setLifo (s : StealDomain) (i : Nat) (task : Option Nat) : StealDomain :=
  { s with lifoSlots := Function.update s.lifoSlots i task }

def setInject (s : StealDomain) (i : Nat) (tasks : List Nat) : StealDomain :=
  { s with injectQueues := Function.update s.injectQueues i tasks }

def inject (s : StealDomain) (i task : Nat) : StealDomain :=
  s.setInject i (s.injectQueues i ++ [task])

/-- `local_ring.size()` when no thief interferes -/
def ringSize (s : StealDomain) (i : Nat) : Nat := sub64 (s.rings i).tail (s.rings i).head

def scheduleLocal (s : StealDomain) (i task : Nat) (lifoEnabled : Bool) : StealDomain :=
  if lifoEnabled then
    match s.lifoSlots i with
    | some older => (s.setLifo i (some task)).goTo i (.enqueueDeferred older)
    | none => (s.setLifo i (some task)).goTo i .idle
  else s.goTo i (.enqueueDeferred task)

def schedule (home : Nat → Nat) (s : StealDomain) (i task : Nat) (lifoEnabled : Bool) :
    StealDomain :=
  if home task = i then s.scheduleLocal i task lifoEnabled
  else (s.inject (home task) task).goTo i .idle

def runPop (s : StealDomain) (i : Nat) : Option StealDomain :=
  let ring := s.rings i
  match ring.owner with
  | .idle => some (s.goTo i .idle)
  | .popTake tail | .popTakeLast tail =>
    (ring.step .runOwner).map fun ring' =>
      (s.setRing i ring').goTo i
        (match ring.slots (slotOf tail) with
        | some task => .clearQueued task
        | none => .idle)
  | _ => (ring.step .runOwner).map (s.setRing i)

/-- A step of `steal_front` by thread `i`, which then pushes what it has taken onto its own ring -/
def runSteal (s : StealDomain) (i victim : Nat) : Option StealDomain :=
  let ring := s.rings victim
  match ring.thieves i with
  | .idle => some (s.goTo i .idle)
  | .loadSlot head =>
    (ring.step (.runThief i false)).map fun ring' =>
      { s.setRing victim ring' with
        candidates := Function.update s.candidates victim
          (Function.update (s.candidates victim) i ((ring.slots (slotOf head)).getD 0)) }
  | .loadOwnerOnly _ =>
    (ring.step (.runThief i (s.ownerOnly (s.candidates victim i)))).map (s.setRing victim)
  | .exchange head =>
    (ring.step (.runThief i false)).map fun ring' =>
      match ring.slots (slotOf head) with
      | some task =>
        { (s.setRing victim ring').goTo i (.push [task]) with
          stolen := s.stolen ++ [(task, s.woken task)] }
      | none => (s.setRing victim ring').goTo i .idle
  | _ => (ring.step (.runThief i false)).map (s.setRing victim)

def run (home : Nat → Nat) (s : StealDomain) (i : Nat) (lifoEnabled : Bool) : Option StealDomain :=
  match s.points i with
  | .idle => none
  | .exchangeQueued task =>
    if s.queued task then some (s.goTo i .idle)
    else some { s.goTo i (.storeOwnerOnly task) with queued := Function.update s.queued task true }
  | .storeOwnerOnly task =>
    some { s.goTo i (.schedule task) with ownerOnly := Function.update s.ownerOnly task true }
  | .schedule task =>
    some { s.schedule home i task lifoEnabled with woken := Function.update s.woken task true }
  | .enqueueDeferred task => some (s.goTo i (.loadSize task (s.rings i).head))
  | .loadSize task head =>
    if kCapacity ≤ sub64 (s.rings i).tail head then some ((s.inject i task).goTo i .idle)
    else some (s.goTo i (.push [task]))
  | .push [] => some (s.goTo i .idle)
  | .push (task :: tasks) =>
    ((s.rings i).step (.pushBack (some task))).map fun ring' =>
      (s.setRing i ring').goTo i (.pushing tasks)
  | .pushing tasks =>
    if (s.rings i).owner = .idle then some (s.goTo i (.push tasks))
    else ((s.rings i).step .runOwner).map (s.setRing i)
  | .popping => s.runPop i
  | .stealing victim => s.runSteal i victim
  | .clearQueued task =>
    some { s.goTo i (.clearOwnerOnly task) with queued := Function.update s.queued task false }
  | .clearOwnerOnly task =>
    some { s.goTo i (.resumeHandle task) with
      ownerOnly := Function.update s.ownerOnly task false }
  | .resumeHandle task =>
    some { s.goTo i .idle with
      woken := Function.update s.woken task false
      resumed := s.resumed ++ [(task, i, s.woken task)] }

def call (home : Nat → Nat) (s : StealDomain) : DomainAction → Option StealDomain
  | .wakeUp i task => some (s.goTo i (.exchangeQueued task))
  | .schedule i task lifoEnabled => some (s.schedule home i task lifoEnabled)
  | .scheduleDeferred _ task => some (s.inject (home task) task)
  | .prepareForRun i =>
    (s.lifoSlots i).map fun task => (s.setLifo i none).goTo i (.enqueueDeferred task)
  | .drainInjected i batch rest =>
    -- the batch fits into the ring, where thieves only make room, and is pushed from the last to
    -- the first
    if (s.injectQueues i).Perm (batch ++ rest) ∧ batch.length + s.ringSize i ≤ kCapacity then
      some ((s.setInject i rest).goTo i (.push batch.reverse))
    else none
  | .popLifo i => (s.lifoSlots i).map fun task => (s.setLifo i none).goTo i (.clearQueued task)
  | .popBack i =>
    if s.lifoSlots i = none then
      ((s.rings i).step .popBack).map fun ring' => (s.setRing i ring').goTo i .popping
    else none
  | .stealFront i victim =>
    if victim = i then none
    else ((s.rings victim).step (.stealFront i)).map fun ring' =>
      (s.setRing victim ring').goTo i (.stealing victim)
  | .run _ _ => none

def actor : DomainAction → Nat
  | .wakeUp i _ | .schedule i _ _ | .scheduleDeferred i _ | .prepareForRun i
  | .drainInjected i _ _ | .popLifo i | .popBack i | .stealFront i _ | .run i _ => i

def step (home : Nat → Nat) (s : StealDomain) : DomainAction → Option StealDomain
  | .run i lifoEnabled => s.run home i lifoEnabled
  | a => if s.points (actor a) = .idle then s.call home a else none

end StealDomain

end GalayKernel
