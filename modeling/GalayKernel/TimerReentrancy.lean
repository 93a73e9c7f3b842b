import GalayKernel.TimerWheel

/-!
# Timer callbacks that use their manager

`TimingWheelTimerManager` (`common/timer_manager.hpp`) with the timers of `common/timer.hpp`,
`kernel/timeout.hpp` and `common/sleep.hpp`. A callback of a `CBTimer` may push and cancel other
timers, while `tick()` is in the middle of a slot or `push` has not returned: here a call is not one
step. `tick()` stops at each point where it has called `handleTimeout`, and goes on when no callback
runs any more.

Times are 64-bit numbers of nanoseconds; the clock itself does not wrap around.
-/

namespace GalayKernel

inductive TimerKind where
  | plain
  | callback
  | timeout
  | sleep
  deriving DecidableEq, Repr

/-- A timer object. `expireTime` is `m_expireTime`, 0 until it is computed. -/
structure IOTimer extends Timer where
  kind : TimerKind
  expireTime_lt : expireTime < 2 ^ 64
  deriving DecidableEq, Repr

/-- What happens to the timer with a given number. -/
inductive TimerEvent where
  | pushed (id : Nat)
  | accepted (id : Nat)
  | handled (id : Nat)
  /-- the callback of a `CBTimer`, or the wake-up of a `TimeoutTimer` -/
  | ran (id : Nat)
  | woke (id : Nat)
  | done (id : Nat)
  | cancelled (id : Nat)
  /-- a cascade has found the timer done or cancelled -/
  | skipped (id : Nat)
  /-- a cascade has found the timer out of range -/
  | discarded (id : Nat)
  deriving DecidableEq, Repr

/-- Where `tick()` is, on its way to `targetTick`. -/
inductive TickPoint where
  | loop (targetTick : Nat)
  | cascade (w : Wheel) (targetTick : Nat)
  /-- in `cascadeSlot`, which has read the clock and still has the timers `temp` -/
  | cascading (w : Wheel) (nowNs : Nat) (temp : List IOTimer) (targetTick : Nat)
  /-- in `cascadeSlot`, after `handleTimeout` and before `--m_size` -/
  | forgetting (timer : IOTimer) (w : Wheel) (nowNs : Nat) (temp : List IOTimer) (targetTick : Nat)
  | processing (targetTick : Nat)
  /-- in `processWheel1`, after `handleTimeout` and before `erase` -/
  | erasing (timer : IOTimer) (targetTick : Nat)
  | resetting
  deriving DecidableEq, Repr

/-- After the cascade of wheel 2 comes that of wheel 3, and so on; then the slot of wheel 1. -/
def TickPoint.afterCascade (targetTick : Nat) : Wheel → TickPoint
  | .wheel2 => .cascade .wheel3 targetTick
  | .wheel3 => .cascade .wheel4 targetTick
  | .wheel4 => .cascade .wheel5 targetTick
  | .wheel5 | .wheel1 => .processing targetTick

def Wheel.cascadeSpan : Wheel → Nat
  | .wheel1 | .wheel2 => Wheel.size .wheel1
  | .wheel3 => Wheel.span .wheel2
  | .wheel4 => Wheel.span .wheel3
  | .wheel5 => Wheel.span .wheel4

structure ReentrantManager where
  tickDuration : Nat
  tickDuration_pos : 0 < tickDuration
  tickDuration_lt : tickDuration < 2 ^ 64
  currentTick : Nat
  startTime : Nat
  slots : Slot → List IOTimer
  size : Nat
  now : Nat
  /-- the timers whose callbacks run, the innermost first -/
  callbacks : List IOTimer
  point : Option TickPoint
  /-- what has happened, the latest first; it contains the flags of the timers -/
  log : List TimerEvent

inductive ReentrantAction where
  | elapse (time : Nat)
  /-- `elapsed` passes between the two readings of the clock; `none` is a null pointer -/
  | push (timer : Option IOTimer) (elapsed : Nat)
  | cancel (id : Nat)
  | ret
  | tick
  | go
  deriving DecidableEq, Repr

namespace ReentrantManager

def new (tickDuration : Nat) (hpos : 0 < tickDuration) (hlt : tickDuration < 2 ^ 64) (now : Nat) :
    ReentrantManager where
  tickDuration := tickDuration
  tickDuration_pos := hpos
  tickDuration_lt := hlt
  currentTick := 0
  startTime := now
  slots := fun _ => []
  size := 0
  now := now
  callbacks := []
  point := none
  log := []

def record (s : ReentrantManager) (e : TimerEvent) : ReentrantManager :=
  { s with log := e :: s.log }

def flagged (s : ReentrantManager) (timer : IOTimer) : Bool :=
  s.log.contains (.done timer.id) || s.log.contains (.cancelled timer.id)

/-- `handleTimeout` up to its return, or up to the start of the callback. -/
def handleTimeout (s : ReentrantManager) (timer : IOTimer) : ReentrantManager :=
  let s := s.record (.handled timer.id)
  match timer.kind with
  | .plain => s.record (.done timer.id)
  | .callback =>
    if s.flagged timer then s.record (.done timer.id)
    else { s.record (.ran timer.id) with callbacks := timer :: s.callbacks }
  | .timeout =>
    if s.flagged timer then s.record (.done timer.id)
    else (s.record (.ran timer.id)).record (.done timer.id)
  -- the flags are not looked at
  | .sleep => (s.record (.woke timer.id)).record (.done timer.id)

def getExpireTime (s : ReentrantManager) (timer : IOTimer) : IOTimer :=
  if timer.expireTime = 0 then
    { timer with
      expireTime := (s.now + timer.delay) % 2 ^ 64
      expireTime_lt := Nat.mod_lt _ (Nat.two_pow_pos 64) }
  else timer

def place (s : ReentrantManager) (w : Wheel) (tick : Nat) (timer : IOTimer) : ReentrantManager :=
  { s with slots := Function.update s.slots (slotAt w tick) (s.slots (slotAt w tick) ++ [timer]) }

def rebase (s : ReentrantManager) : ReentrantManager :=
  if s.size = 0 then { s with startTime := s.now, currentTick := 0 } else s

def pushTimer (s : ReentrantManager) (timer : IOTimer) : ReentrantManager :=
  let s := s.rebase
  if timer.expireTime ≤ s.now then (s.record (.accepted timer.id)).handleTimeout timer
  else
    let remainingNs := timer.expireTime - s.now
    let delayTicks := (remainingNs + s.tickDuration - 1) % 2 ^ 64 / s.tickDuration
    let currentTickFromStart := (s.now - s.startTime) / s.tickDuration
    let absoluteTick := currentTickFromStart + delayTicks
    match wheelFor delayTicks with
    | none => s
    | some w =>
      { (s.place w absoluteTick timer).record (.accepted timer.id) with size := s.size + 1 }

def push (s : ReentrantManager) (elapsed : Nat) : Option IOTimer → ReentrantManager
  | none => s
  | some timer =>
    let timer := s.getExpireTime timer
    let s := s.record (.pushed timer.id)
    { s with now := s.now + elapsed }.pushTimer timer

def goTo (s : ReentrantManager) (point : TickPoint) : ReentrantManager :=
  { s with point := some point }

def tick (s : ReentrantManager) : ReentrantManager :=
  if s.size = 0 then s
  else
    let targetTick := (s.now - s.startTime) / s.tickDuration
    if targetTick ≤ s.currentTick then s else s.goTo (.loop targetTick)

def crosses (s : ReentrantManager) (span : Nat) : Bool :=
  s.currentTick &&& (span - 1) == 0 && decide (0 < s.currentTick)

def cascadeWheel (s : ReentrantManager) (w : Wheel) (targetTick : Nat) : ReentrantManager :=
  let slot := slotAt w s.currentTick
  { s with
    slots := Function.update s.slots slot []
    point := some (.cascading w s.now (s.slots slot) targetTick) }

/-- The body of the loop in `cascadeSlot`, up to the return of `handleTimeout` -/
def cascadeTimer (s : ReentrantManager) (timer : IOTimer) (w : Wheel) (nowNs : Nat)
    (temp : List IOTimer) (targetTick : Nat) : ReentrantManager :=
  let rest := TickPoint.cascading w nowNs temp targetTick
  let expired := (s.goTo (.forgetting timer w nowNs temp targetTick)).handleTimeout timer
  if s.flagged timer then
    { (s.record (.skipped timer.id)).goTo rest with size := s.size - 1 }
  else if timer.expireTime ≤ nowNs then expired
  else
    let remainingTicks := (timer.expireTime - nowNs) / s.tickDuration
    if remainingTicks = 0 then expired
    else
      match wheelFor remainingTicks with
      | some w' => (s.place w' (s.currentTick + remainingTicks) timer).goTo rest
      | none => { (s.record (.discarded timer.id)).goTo rest with size := s.size - 1 }

def advance (s : ReentrantManager) : TickPoint → ReentrantManager
  | .loop targetTick =>
    if s.currentTick ≤ targetTick ∧ 0 < s.size then s.goTo (.cascade .wheel2 targetTick)
    else if s.size = 0 then s.goTo .resetting
    else { s with point := none }
  | .cascade w targetTick =>
    if s.crosses w.cascadeSpan then s.cascadeWheel w targetTick
    else s.goTo (.afterCascade targetTick w)
  | .cascading w _ [] targetTick => s.goTo (.afterCascade targetTick w)
  | .cascading w nowNs (timer :: temp) targetTick => s.cascadeTimer timer w nowNs temp targetTick
  | .forgetting _ w nowNs temp targetTick =>
    { s.goTo (.cascading w nowNs temp targetTick) with size := s.size - 1 }
  | .processing targetTick =>
    match s.slots (slotAt .wheel1 s.currentTick) with
    | [] => { s.goTo (.loop targetTick) with currentTick := s.currentTick + 1 }
    | timer :: _ => (s.goTo (.erasing timer targetTick)).handleTimeout timer
  | .erasing _ targetTick =>
    -- the timers before the erased one are gone, so that it is the first one
    let slot := slotAt .wheel1 s.currentTick
    { s.goTo (.processing targetTick) with
      slots := Function.update s.slots slot (s.slots slot).tail
      size := s.size - 1 }
  | .resetting => { s with startTime := s.now, currentTick := 0, point := none }

/-- Between operations, or in a callback. -/
def canCall (s : ReentrantManager) : Bool := s.point.isNone || !s.callbacks.isEmpty

def isIdle (s : ReentrantManager) : Bool := s.point.isNone && s.callbacks.isEmpty

/-- A timer object is pushed at most once. -/
def step (s : ReentrantManager) : ReentrantAction → Option ReentrantManager
  | .elapse time => some { s with now := s.now + time }
  | .push timer elapsed =>
    if s.canCall && timer.all (fun timer => !s.log.contains (.pushed timer.id)) then
      some (s.push elapsed timer)
    else none
  | .cancel id => if s.canCall then some (s.record (.cancelled id)) else none
  | .ret =>
    match s.callbacks with
    | [] => none
    | timer :: rest => some ({ s with callbacks := rest }.record (.done timer.id))
  | .tick => if s.isIdle then some s.tick else none
  | .go =>
    match s.point with
    | none => none
    | some point => if s.callbacks.isEmpty then some (s.advance point) else none

def stored (s : ReentrantManager) : Multiset IOTimer := Buckets.total s.slots

end ReentrantManager

end GalayKernel
