import Mathlib.Init

/-!
# Timers of timed awaits

The flags of a `TimeoutTimer` (`kernel/timeout.hpp`, with `Timer` in `common/timer.hpp`) and its
`handleTimeout` as one call.
-/

namespace GalayKernel

structure TimerFlags where
  timeouted : Bool
  cancelled : Bool
  done : Bool
  deriving DecidableEq, Repr

namespace TimerFlags

def new : TimerFlags := ⟨false, false, false⟩

def cancel (f : TimerFlags) : TimerFlags := { f with cancelled := true }

/-- Whether the waker is called, and the flags after the call. -/
def handleTimeout (f : TimerFlags) : Bool × TimerFlags :=
  if !f.cancelled && !f.done then (true, { f with timeouted := true, done := true })
  else (false, { f with done := true })

end TimerFlags

end GalayKernel
