import GalayKernel.TaskWake

/-!
# The channel of a single scheduler

`UnsafeChannel` and its three awaitables (`concurrency/unsafe_channel.h`) with one consumer. The
channel, the consumer, the senders and the timers all run on the thread of one scheduler, so a
call runs to its end before anything else does, except that an inline wake-up runs the consumer
inside `send`. That is the last thing `send` does, and the consumer may call `send` again before
it is over.

A suspension of the consumer has a number, which is also the number of its timer.
-/

namespace GalayKernel

variable {α : Type}

inductive UnsafeChannelWakeMode where
  | inline
  | deferred
  deriving DecidableEq, Repr

inductive UnsafeRequest where
  | recv
  | recvBatch (maxCount : Nat)
  | recvBatched (limit : Nat)
  deriving DecidableEq, Repr

structure UnsafeChannel (α : Type) where
  queue : List α
  size : Nat
  wakeThreshold : Nat
  /-- `m_hasWaiter`; the handle and the task of the waiter are set with it -/
  hasWaiter : Bool
  wakeMode : UnsafeChannelWakeMode
  deriving DecidableEq, Repr

namespace UnsafeChannel

def init (wakeMode : UnsafeChannelWakeMode) : UnsafeChannel α := ⟨[], 0, 1, false, wakeMode⟩

/-- `send` and `sendBatch` up to the decision to wake the waiter. -/
def push (c : UnsafeChannel α) (values : List α) : UnsafeChannel α :=
  { c with queue := c.queue ++ values, size := c.size + values.length }

def wakes (c : UnsafeChannel α) (immediately : Bool) : Bool :=
  c.hasWaiter && (immediately || c.wakeThreshold ≤ c.size)

def popFront (c : UnsafeChannel α) (count : Nat) : UnsafeChannel α × Option (List α) :=
  ({ c with queue := c.queue.drop count, size := c.size - count }, some (c.queue.take count))

def tryRecv (c : UnsafeChannel α) : UnsafeChannel α × Option (List α) :=
  if c.size = 0 then (c, none) else c.popFront 1

def tryRecvBatch (c : UnsafeChannel α) (maxCount : Nat) : UnsafeChannel α × Option (List α) :=
  if c.size = 0 then (c, none) else c.popFront (min maxCount c.size)

def awaitReady (c : UnsafeChannel α) : UnsafeRequest → Bool
  | .recv => 0 < c.size
  | .recvBatch _ => 0 < c.size
  | .recvBatched limit => limit ≤ c.size

/-- `await_suspend`; `none` stands for its result false. -/
def awaitSuspend (c : UnsafeChannel α) : UnsafeRequest → Option (UnsafeChannel α)
  | .recv => if 0 < c.size then none else some { c with hasWaiter := true }
  | .recvBatch _ => if 0 < c.size then none else some { c with hasWaiter := true }
  | .recvBatched limit =>
    if limit ≤ c.size then none else some { c with hasWaiter := true, wakeThreshold := limit }

/-- `await_resume`; `none` stands for the error `kTimeout`. `failed` tells whether `WithTimeout` has
put that error into `m_result`, which only the third awaitable looks at. -/
def awaitResume (c : UnsafeChannel α) (failed : Bool) :
    UnsafeRequest → UnsafeChannel α × Option (List α)
  | .recv => ({ c with hasWaiter := false } : UnsafeChannel α).tryRecv
  | .recvBatch maxCount => ({ c with hasWaiter := false } : UnsafeChannel α).tryRecvBatch maxCount
  | .recvBatched _ =>
    let c := { c with wakeThreshold := 1, hasWaiter := false }
    if failed then (c, none)
    else if c.size = 0 then (c, none)
    else c.popFront c.size

end UnsafeChannel

/-- A `co_await` of a receive; `timed` tells whether it is wrapped in `.timeout(...)`. -/
structure UnsafeReceive where
  request : UnsafeRequest
  timed : Bool
  deriving DecidableEq, Repr

inductive UnsafeConsumer where
  /-- not suspended in a receive of this channel: the consumer runs or awaits something else -/
  | outside
  | suspended (r : UnsafeReceive) (number : Nat)
  deriving DecidableEq, Repr

def UnsafeConsumer.number : UnsafeConsumer → Option Nat
  | .outside => none
  | .suspended _ n => some n

/-- The channel with its consumer. The entries of `wake` carry the number of the suspension in which
they were requested. The last four fields are records; `resumes` has for each `m_handle.resume()`
the number of the suspension in which the wake-up was requested. -/
structure UnsafeRun (α : Type) where
  channel : UnsafeChannel α
  consumer : UnsafeConsumer
  wake : TaskWake Nat
  armed : List Nat
  timeouted : Nat → Bool
  cancelled : Nat → Bool
  suspensions : Nat
  sent : List α
  received : List α
  returned : List (UnsafeReceive × Option (List α))
  resumes : List Nat

inductive UnsafeAction (α : Type) where
  | send (values : List α) (immediately : Bool)
  | tryRecv
  | tryRecvBatch (maxCount : Nat)
  | await (r : UnsafeReceive)
  | expire (timer : Nat)
  | resume
  deriving DecidableEq, Repr

namespace UnsafeRun

def init (wakeMode : UnsafeChannelWakeMode) : UnsafeRun α where
  channel := .init wakeMode
  consumer := .outside
  wake := .init
  armed := []
  timeouted := fun _ => false
  cancelled := fun _ => false
  suspensions := 0
  sent := []
  received := []
  returned := []
  resumes := []

def wakeUp (s : UnsafeRun α) (i : Nat) : UnsafeRun α :=
  let wake := s.wake.requestTaskResume i
  { s with wake := (wake.schedule i).getD wake }

def awaitResume (s : UnsafeRun α) (r : UnsafeReceive) (failed : Bool) : UnsafeRun α :=
  let result := s.channel.awaitResume failed r.request
  { s with
    channel := result.1
    consumer := .outside
    received := s.received ++ result.2.getD []
    returned := s.returned ++ [(r, result.2)] }

/-- `m_handle.resume()` by a wake-up that was requested in suspension `i`, up to the return of the
receive. -/
def resumed (s : UnsafeRun α) (i : Nat) : UnsafeRun α :=
  let s := { s with resumes := s.resumes ++ [i] }
  match s.consumer with
  | .outside => s
  | .suspended r n =>
    if r.timed then
      if s.timeouted n then s.awaitResume r true
      else
        ({ s with cancelled := Function.update s.cancelled n true } : UnsafeRun α).awaitResume r
          false
    else s.awaitResume r false

def wakeUpWaiter (s : UnsafeRun α) : UnsafeRun α :=
  let s := { s with channel := { s.channel with hasWaiter := false, wakeThreshold := 1 } }
  match s.consumer with
  | .suspended _ n =>
    match s.channel.wakeMode with
    | .deferred => s.wakeUp n
    | .inline => s.resumed n
  -- `m_hasWaiter` is set only while the consumer is suspended
  | .outside => s

def send (s : UnsafeRun α) (values : List α) (immediately : Bool) : UnsafeRun α :=
  if values.isEmpty then s
  else
    let s := { s with channel := s.channel.push values, sent := s.sent ++ values }
    if s.channel.wakes immediately then s.wakeUpWaiter else s

def take (s : UnsafeRun α) (result : UnsafeChannel α × Option (List α)) : UnsafeRun α :=
  { s with channel := result.1, received := s.received ++ result.2.getD [] }

def await (s : UnsafeRun α) (r : UnsafeReceive) : UnsafeRun α :=
  if s.channel.awaitReady r.request then s.awaitResume r false
  else
    match s.channel.awaitSuspend r.request with
    | none => s.awaitResume r false
    | some c =>
      { s with
        channel := c
        consumer := .suspended r s.suspensions
        suspensions := s.suspensions + 1
        armed := if r.timed then s.suspensions :: s.armed else s.armed }

def handleTimeout (s : UnsafeRun α) (k : Nat) : UnsafeRun α :=
  let s := { s with armed := s.armed.erase k }
  if s.cancelled k then s
  else ({ s with timeouted := Function.update s.timeouted k true } : UnsafeRun α).wakeUp k

def step (s : UnsafeRun α) : UnsafeAction α → Option (UnsafeRun α)
  | .send values immediately => some (s.send values immediately)
  | .tryRecv => some (s.take s.channel.tryRecv)
  | .tryRecvBatch maxCount => some (s.take (s.channel.tryRecvBatch maxCount))
  | .await r => if s.consumer = .outside then some (s.await r) else none
  | .expire k => if k ∈ s.armed then some (s.handleTimeout k) else none
  | .resume =>
    match s.wake.ready with
    | [] => none
    | i :: _ => ((s.wake.pop i).bind (·.resume)).map fun wake =>
      ({ s with wake := wake } : UnsafeRun α).resumed i

end UnsafeRun

end GalayKernel
