import GalayKernel.TimerWheel

/-!
# The timer manager of the IO schedulers

`TimingWheelTimerManager` (`common/timer_manager.hpp`). It is used by one thread. The only
sum that can pass the 64-bit range is the rounding up in `push`.
-/

namespace GalayKernel

open TimerWheel

/-- `accepted` records the timers for which `push` returned true. -/
structure TimingWheelTimerManager extends TimerWheel where
  accepted : List Timer

inductive ManagerAction where
  | push (timer : Option Timer) (events : List Event)
  | tick (events : List Event)
  deriving DecidableEq, Repr

namespace TimingWheelTimerManager

def init (tickDuration : Nat) (hpos : 0 < tickDuration) (now : Nat) : TimingWheelTimerManager where
  toTimerWheel := TimerWheel.init tickDuration hpos now
  accepted := []

/-- An empty wheel is based on the present moment again. -/
def rebase (s : TimerWheel) : TimerWheel :=
  if s.size = 0 then { s with startTime := s.now, currentTick := 0 } else s

def pushTimer (s : TimerWheel) (timer : Timer) : Bool × TimerWheel :=
  let s := rebase s.observe
  if timer.expireTime ≤ s.now then (true, s.handleTimeout timer)
  else
    let remainingNs := timer.expireTime - s.now
    let delayTicks := (remainingNs + s.tickDuration - 1) % 2 ^ 64 / s.tickDuration
    let currentTickFromStart := (s.now - s.startTime) / s.tickDuration
    let absoluteTick := currentTickFromStart + delayTicks
    match wheelFor delayTicks with
    | none => (false, s)
    | some w => (true, { s.place false s.now w absoluteTick timer with size := s.size + 1 })

def push (s : TimingWheelTimerManager) : Option Timer → TimingWheelTimerManager
  | none => s
  | some timer =>
    let (timer, wheel) := s.toTimerWheel.getExpireTime timer
    let (ok, wheel) := pushTimer wheel timer
    ⟨wheel, if ok then s.accepted ++ [timer] else s.accepted⟩

/-- The body of the loop in `processWheel1` runs every timer, whatever its flags say. -/
def processTimer (s : TimerWheel) (timer : Timer) : TimerWheel :=
  { s.handleTimeout timer with size := s.size - 1 }

def processWheel1 : TimerWheel → TimerWheel := processSlot processTimer

/-- `while (m_currentTick <= targetTick && ...)`: the target tick is processed as well. -/
def tick (s : TimingWheelTimerManager) : TimingWheelTimerManager :=
  { s with toTimerWheel := s.toTimerWheel.tickWheel processWheel1 (fun targetTick => targetTick + 1) }

def await (s : TimingWheelTimerManager) (events : List Event) : TimingWheelTimerManager :=
  { s with upcoming := events }

def step (s : TimingWheelTimerManager) : ManagerAction → Option TimingWheelTimerManager
  | .push timer events => some ((s.await events).push timer)
  | .tick events => some (s.await events).tick

def tickNow (s : TimingWheelTimerManager) (events : List Event) : Nat :=
  (s.await events).toTimerWheel.observe.now

end TimingWheelTimerManager

end GalayKernel
