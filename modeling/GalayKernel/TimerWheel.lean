import GalayKernel.Lib.Buckets
import Mathlib.Data.Fintype.Basic
import Mathlib.Data.Fintype.Sigma
import Mathlib.Logic.Function.Basic

/-!
# Timing wheels

What the two timer managers (`common/timer_manager.hpp`, `common/safetimer_mgr.hpp`) share:
timers, the five wheels, the cascades and the loop of `tick()`. Times are nanoseconds of the
steady clock.

The managers read the clock and the timers' flags while the clock runs on and other threads
cancel timers. What happens up to the next reading is an `Event`; every reading consumes one.
-/

namespace GalayKernel

/-- A timer object. `expireTime` is `m_expireTime`, 0 until it is computed. -/
structure Timer where
  id : Nat
  delay : Nat
  expireTime : Nat
  deriving DecidableEq, Repr

/-- What happens before a reading of the clock or of a timer's flags. -/
structure Event where
  elapsed : Nat
  cancels : List Nat
  deriving DecidableEq, Repr

inductive Wheel where
  | wheel1
  | wheel2
  | wheel3
  | wheel4
  | wheel5
  deriving DecidableEq, Repr

namespace Wheel

instance : Fintype Wheel :=
  ⟨{.wheel1, .wheel2, .wheel3, .wheel4, .wheel5}, fun w => by cases w <;> decide⟩

def size : Wheel → Nat
  | .wheel1 => 256
  | _ => 64

def span : Wheel → Nat
  | .wheel1 => size .wheel1
  | .wheel2 => size .wheel1 * size .wheel2
  | .wheel3 => size .wheel1 * size .wheel2 * size .wheel3
  | .wheel4 => size .wheel1 * size .wheel2 * size .wheel3 * size .wheel4
  | .wheel5 => size .wheel1 * size .wheel2 * size .wheel3 * size .wheel4 * size .wheel5

/-- One slot of a wheel covers `2 ^ shift` ticks. -/
def shift : Wheel → Nat
  | .wheel1 => 0
  | .wheel2 => 8
  | .wheel3 => 14
  | .wheel4 => 20
  | .wheel5 => 26

lemma size_pos (w : Wheel) : 0 < w.size := by cases w <;> decide

end Wheel

abbrev Slot := Σ w : Wheel, Fin w.size

/-- The slot of a tick, `(tick >> shift) & (size - 1)`. -/
def slotAt (w : Wheel) (tick : Nat) : Slot :=
  ⟨w, (tick >>> w.shift) &&& (w.size - 1),
    Nat.lt_of_le_of_lt Nat.and_le_right (Nat.sub_lt w.size_pos Nat.one_pos)⟩

/-- The wheel for a number of ticks ahead, unless it is out of range. -/
def wheelFor (ticks : Nat) : Option Wheel :=
  if ticks < Wheel.span .wheel1 then some .wheel1
  else if ticks < Wheel.span .wheel2 then some .wheel2
  else if ticks < Wheel.span .wheel3 then some .wheel3
  else if ticks < Wheel.span .wheel4 then some .wheel4
  else if ticks < Wheel.span .wheel5 then some .wheel5
  else none

/-- A record of the moment a timer was put into a slot. -/
structure Placement where
  timer : Timer
  wheel : Wheel
  cascaded : Bool
  clock : Nat
  currentTick : Nat
  startTime : Nat
  deriving DecidableEq, Repr

/-- The wheels of a manager with the clock and the flags it reads. `size` is `m_size` or
`m_wheelSize`. The last four fields record the history: the calls of `handleTimeout` with the
clock at that moment, the timers found done or cancelled, the timers dropped as out of range,
and the placements. -/
structure TimerWheel where
  tickDuration : Nat
  tickDuration_pos : 0 < tickDuration
  currentTick : Nat
  startTime : Nat
  slots : Slot → List Timer
  size : Nat
  now : Nat
  cancelled : List Nat
  upcoming : List Event
  handled : List (Timer × Nat)
  skipped : List Timer
  discarded : List Timer
  placed : List Placement

namespace TimerWheel

def init (tickDuration : Nat) (hpos : 0 < tickDuration) (now : Nat) : TimerWheel where
  tickDuration := tickDuration
  tickDuration_pos := hpos
  currentTick := 0
  startTime := now
  slots := fun _ => []
  size := 0
  now := now
  cancelled := []
  upcoming := []
  handled := []
  skipped := []
  discarded := []
  placed := []

/-- A reading of the clock or of a flag: time has passed and timers may have been cancelled. -/
def observe (s : TimerWheel) : TimerWheel :=
  match s.upcoming with
  | [] => s
  | e :: es =>
    { s with now := s.now + e.elapsed, cancelled := s.cancelled ++ e.cancels, upcoming := es }

/-- `timer->done()`. The flag is set by `handleTimeout`. -/
def done (s : TimerWheel) (timer : Timer) : Bool := s.handled.any (fun h => h.1.id == timer.id)

def flagged (s : TimerWheel) (timer : Timer) : Bool := s.done timer || s.cancelled.contains timer.id

def handleTimeout (s : TimerWheel) (timer : Timer) : TimerWheel :=
  { s with handled := s.handled ++ [(timer, s.now)] }

def skip (s : TimerWheel) (timer : Timer) : TimerWheel := { s with skipped := s.skipped ++ [timer] }

def discard (s : TimerWheel) (timer : Timer) : TimerWheel :=
  { s with discarded := s.discarded ++ [timer] }

def place (s : TimerWheel) (cascaded : Bool) (nowNs : Nat) (w : Wheel) (tick : Nat) (timer : Timer) :
    TimerWheel :=
  { s with
    slots := Function.update s.slots (slotAt w tick) (s.slots (slotAt w tick) ++ [timer])
    placed := s.placed ++ [⟨timer, w, cascaded, nowNs, s.currentTick, s.startTime⟩] }

def getExpireTime (s : TimerWheel) (timer : Timer) : Timer × TimerWheel :=
  if timer.expireTime = 0 then
    let s := s.observe
    ({ timer with expireTime := s.now + timer.delay }, s)
  else (timer, s)

/-- The body of the loop in `cascadeSlot`. The expire time was cached when the timer was
pushed. -/
def cascadeTimer (nowNs : Nat) (s : TimerWheel) (timer : Timer) : TimerWheel :=
  let s := s.observe
  if s.flagged timer then { s.skip timer with size := s.size - 1 }
  else if timer.expireTime ≤ nowNs then { s.handleTimeout timer with size := s.size - 1 }
  else
    let remainingTicks := (timer.expireTime - nowNs) / s.tickDuration
    if remainingTicks = 0 then { s.handleTimeout timer with size := s.size - 1 }
    else
      match wheelFor remainingTicks with
      | some w => s.place true nowNs w (s.currentTick + remainingTicks) timer
      | none => { s.discard timer with size := s.size - 1 }

def cascadeSlot (s : TimerWheel) (slot : Slot) : TimerWheel :=
  let temp := s.slots slot
  let s := ({ s with slots := Function.update s.slots slot [] } : TimerWheel).observe
  temp.foldl (cascadeTimer s.now) s

def cascadeWheel (w : Wheel) (s : TimerWheel) : TimerWheel := s.cascadeSlot (slotAt w s.currentTick)

def cascadeWheel2 (s : TimerWheel) : TimerWheel := s.cascadeWheel .wheel2

def cascadeWheel3 (s : TimerWheel) : TimerWheel := s.cascadeWheel .wheel3

def cascadeWheel4 (s : TimerWheel) : TimerWheel := s.cascadeWheel .wheel4

def cascadeWheel5 (s : TimerWheel) : TimerWheel := s.cascadeWheel .wheel5

def crosses (s : TimerWheel) (span : Nat) : Bool :=
  s.currentTick &&& (span - 1) == 0 && decide (0 < s.currentTick)

def cascade (s : TimerWheel) : TimerWheel :=
  let s := if s.crosses (Wheel.size .wheel1) then s.cascadeWheel2 else s
  let s := if s.crosses (Wheel.span .wheel2) then s.cascadeWheel3 else s
  let s := if s.crosses (Wheel.span .wheel3) then s.cascadeWheel4 else s
  if s.crosses (Wheel.span .wheel4) then s.cascadeWheel5 else s

def reset (s : TimerWheel) : TimerWheel :=
  let s := s.observe
  { s with startTime := s.now, currentTick := 0 }

/-- `processWheel1`: the loop over the slot of the current tick, which is emptied afterwards. -/
def processSlot (f : TimerWheel → Timer → TimerWheel) (s : TimerWheel) : TimerWheel :=
  let slot := slotAt .wheel1 s.currentTick
  let s' := (s.slots slot).foldl f s
  { s' with slots := Function.update s'.slots slot [] }

/-- One iteration of the loop in `tick()`. The managers have a `processWheel1` each. -/
def advance (processWheel1 : TimerWheel → TimerWheel) (s : TimerWheel) : TimerWheel :=
  let s := processWheel1 s.cascade
  { s with currentTick := s.currentTick + 1 }

/-- The loop in `tick()`. `currentTick` grows with every iteration, so that
`stop - currentTick` iterations suffice. -/
def catchUp (processWheel1 : TimerWheel → TimerWheel) (stop : Nat) : Nat → TimerWheel → TimerWheel
  | 0, s => s
  | fuel + 1, s =>
    if s.currentTick < stop ∧ 0 < s.size then
      catchUp processWheel1 stop fuel (s.advance processWheel1)
    else s

/-- `tick()` on the wheels. The loop runs while `currentTick < stopAt targetTick`. -/
def tickWheel (processWheel1 : TimerWheel → TimerWheel) (stopAt : Nat → Nat) (s : TimerWheel) :
    TimerWheel :=
  if s.size = 0 then s
  else
    let s := s.observe
    let targetTick := (s.now - s.startTime) / s.tickDuration
    if targetTick ≤ s.currentTick then s
    else
      let s := catchUp processWheel1 (stopAt targetTick) (stopAt targetTick - s.currentTick) s
      if s.size = 0 then s.reset else s

def stored (s : TimerWheel) : Multiset Timer := Buckets.total s.slots

def removed (s : TimerWheel) : Multiset Timer :=
  (s.handled.map Prod.fst : List Timer) + (s.skipped : Multiset Timer) + s.discarded

end TimerWheel

end GalayKernel
