import GalayKernel.TimerWheel
import Mathlib.Data.Multiset.AddSub

/-!
# The timer manager of the timer thread

`ThreadSafeTimerManager` (`common/safetimer_mgr.hpp`). Any thread may call `push` and
`pushBatch`, which only enqueue; the wheels belong to the thread that calls `tick()`. A timer
enqueued while `tick()` runs is one enqueued before or after it, with its expire time computed
already. The pending queue hands out its elements in any order.
-/

namespace GalayKernel

open TimerWheel

/-- `accepted` records the timers for which `push` returned true or which `pushBatch` counted,
with the clock at that moment. -/
structure ThreadSafeTimerManager extends TimerWheel where
  pending : Multiset Timer
  accepted : List (Timer × Nat)

inductive SafeManagerAction where
  /-- `enqueued` is what `m_pendingQueue.enqueue` returns -/
  | push (timer : Option Timer) (enqueued : Bool) (events : List Event)
  | pushBatch (timers : List (Option Timer × Bool)) (events : List Event)
  /-- `batches` are the results of `try_dequeue_bulk` before it returns 0 -/
  | tick (batches : List (List Timer)) (events : List Event)
  deriving DecidableEq, Repr

namespace ThreadSafeTimerManager

def batchSize : Nat := 256

def init (tickDuration : Nat) (hpos : 0 < tickDuration) (now : Nat) : ThreadSafeTimerManager where
  toTimerWheel := TimerWheel.init tickDuration hpos now
  pending := 0
  accepted := []

def push (s : ThreadSafeTimerManager) : Option Timer → Bool → ThreadSafeTimerManager
  | none, _ => s
  | some timer, enqueued =>
    let (timer, wheel) := s.toTimerWheel.getExpireTime timer
    -- the moment of the enqueue, up to which the clock runs on
    let wheel := wheel.observe
    if enqueued then ⟨wheel, timer ::ₘ s.pending, s.accepted ++ [(timer, wheel.now)]⟩
    else { s with toTimerWheel := wheel }

def pushBatch (s : ThreadSafeTimerManager) (timers : List (Option Timer × Bool)) :
    ThreadSafeTimerManager :=
  timers.foldl (fun s timer => s.push timer.1 timer.2) s

def addTimerToWheel (s : TimerWheel) (timer : Timer) : TimerWheel :=
  let s := s.observe
  if s.flagged timer then s.skip timer
  else
    let s := s.observe
    if timer.expireTime ≤ s.now then s.handleTimeout timer
    else
      let delayTicks := (timer.expireTime - s.now) / s.tickDuration
      if delayTicks = 0 then s.handleTimeout timer
      else
        let currentTickFromStart := (s.now - s.startTime) / s.tickDuration
        let absoluteTick := currentTickFromStart + delayTicks
        match wheelFor delayTicks with
        -- out of range: the timer is dropped
        | none => s.discard timer
        | some w => { s.place false s.now w absoluteTick timer with size := s.size + 1 }

def addBatch (s : ThreadSafeTimerManager) (batch : List Timer) : ThreadSafeTimerManager :=
  { s with toTimerWheel := batch.foldl addTimerToWheel s.toTimerWheel, pending := s.pending - batch }

/-- `none` when the queue cannot hand out the batches. -/
def processPendingTimers (s : ThreadSafeTimerManager) :
    List (List Timer) → Option ThreadSafeTimerManager
  | [] => some s
  | batch :: batches =>
    if batch ≠ [] ∧ batch.length ≤ batchSize ∧ (batch : Multiset Timer) ≤ s.pending then
      (s.addBatch batch).processPendingTimers batches
    else none

def processTimer (s : TimerWheel) (timer : Timer) : TimerWheel :=
  let s := s.observe
  let s := if s.flagged timer then s.skip timer else s.handleTimeout timer
  { s with size := s.size - 1 }

def processWheel1 : TimerWheel → TimerWheel := processSlot processTimer

/-- `while (m_currentTick < targetTick && ...)`: the loop stops before the target tick. -/
def tick (s : ThreadSafeTimerManager) (batches : List (List Timer)) :
    Option ThreadSafeTimerManager :=
  (s.processPendingTimers batches).map fun s =>
    { s with toTimerWheel := s.toTimerWheel.tickWheel processWheel1 (fun targetTick => targetTick) }

def await (s : ThreadSafeTimerManager) (events : List Event) : ThreadSafeTimerManager :=
  { s with upcoming := events }

def step (s : ThreadSafeTimerManager) : SafeManagerAction → Option ThreadSafeTimerManager
  | .push timer enqueued events => some ((s.await events).push timer enqueued)
  | .pushBatch timers events => some ((s.await events).pushBatch timers)
  | .tick batches events => (s.await events).tick batches

def tickNow (s : ThreadSafeTimerManager) (batches : List (List Timer)) (events : List Event) :
    Option Nat :=
  ((s.await events).processPendingTimers batches).map fun s => s.toTimerWheel.observe.now

end ThreadSafeTimerManager

end GalayKernel
