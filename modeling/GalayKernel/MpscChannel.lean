import GalayKernel.TaskWake
import Mathlib.Algebra.Group.Nat.Defs

/-!
# The multi-producer single-consumer channel

`MpscChannel`, `MpscRecvAwaitable` and `MpscRecvBatchAwaitable` (`concurrency/mpsc_channel.h`)
with their `WaitRegistration` (`kernel/wait_registration.h`), for one consumer task and any
producers. Each operation on `m_size`, on the registration, on the queue, on the flags of a timer
and on the wake-up of the task is a step of its own; what only the consumer touches (the prefetch
cache, the fields of its awaitable) goes with the next such step.

The concurrent queue keeps the order of each producer and hands out each element once. Among the
producers it may choose freely, so the steps that dequeue are given the producers to take from.

The consumer may also be suspended in awaits that have nothing to do with the channel. At any moment
what it awaits or has awaited there may wake it, and it may be put into the ready queue without
`m_queued`: by `co_yield true`, by `schedule`, or by the completion of a task that it has awaited.
-/

namespace GalayKernel

variable {ι α β : Type}

/-- `tryRecv()` and `recv()`, or `tryRecvBatch(maxCount)` and `recvBatch(maxCount)`. -/
inductive RecvRequest where
  | single
  | batch (maxCount : Nat)
  deriving DecidableEq, Repr

/-- The channel. A value is kept with the producer that sent it. -/
structure MpscChannel (ι α : Type) where
  /-- `m_size`, 32 bits -/
  size : Nat
  /-- the registered consumer; the number of the receive that registered it is a record -/
  waiter : Option Nat
  queue : List (ι × α)
  prefetchLimit : Nat
  prefetch : List (ι × α)

inductive RecvPoint (β : Type) where
  | start
  | dequeue
  /-- `tryRecv`: fills the prefetch cache, with a value in hand -/
  | prefetch (value : β)
  | sub (value : β)
  /-- `tryRecvBatch`: empties the prefetch cache, then asks the queue -/
  | drain (values : List β)
  | bulkSub (values : List β) (count : Nat)
  deriving DecidableEq, Repr

/-- What a step of the call comes to. `returns []` stands for `std::nullopt`. -/
inductive RecvProgress (β : Type) where
  | goOn (point : RecvPoint β)
  | returns (values : List β)
  deriving DecidableEq, Repr

namespace MpscChannel

def init (prefetchLimit : Nat) : MpscChannel ι α := ⟨0, none, [], prefetchLimit, []⟩

def fetchAdd (c : MpscChannel ι α) (n : Nat) : MpscChannel ι α :=
  { c with size := (c.size + n) % 2 ^ 32 }

def fetchSub (c : MpscChannel ι α) (n : Nat) : MpscChannel ι α :=
  { c with size := (c.size + (2 ^ 32 - n % 2 ^ 32)) % 2 ^ 32 }

variable [DecidableEq ι]

def tryDequeue (c : MpscChannel ι α) (p : ι) : Option ((ι × α) × MpscChannel ι α) :=
  (c.queue.find? (·.1 = p)).map fun v => (v, { c with queue := c.queue.eraseP (·.1 = p) })

def dequeueAll (c : MpscChannel ι α) : List ι → Option (List (ι × α) × MpscChannel ι α)
  | [] => some ([], c)
  | p :: ps =>
    (c.tryDequeue p).bind fun r => (r.2.dequeueAll ps).map fun rs => (r.1 :: rs.1, rs.2)

/-- `m_queue.try_dequeue_bulk`: at most `max` values, and none only from an empty queue. -/
def tryDequeueBulk (c : MpscChannel ι α) (picks : List ι) (max : Nat) :
    Option (List (ι × α) × MpscChannel ι α) :=
  if picks.length ≤ max ∧ (picks.isEmpty → c.queue.isEmpty) then c.dequeueAll picks else none

def tryRecv (c : MpscChannel ι α) (picks : List ι) :
    RecvPoint (ι × α) → Option (MpscChannel ι α × RecvProgress (ι × α))
  | .start =>
    match c.prefetch with
    | v :: rest => some (({ c with prefetch := rest } : MpscChannel ι α).fetchSub 1, .returns [v])
    | [] => some (c, if c.size = 0 then .returns [] else .goOn .dequeue)
  | .dequeue =>
    match picks with
    | [] => if c.queue.isEmpty then some (c, .returns []) else none
    | p :: _ => (c.tryDequeue p).map fun r =>
      (r.2, .goOn (if !c.prefetch.isEmpty || c.prefetchLimit = 0 then .sub r.1 else .prefetch r.1))
  | .prefetch v => (c.tryDequeueBulk picks c.prefetchLimit).map fun r =>
      ({ r.2 with prefetch := r.1 }, .goOn (.sub v))
  | .sub v => some (c.fetchSub 1, .returns [v])
  | _ => none

def tryRecvBatch (c : MpscChannel ι α) (maxCount : Nat) (picks : List ι) :
    RecvPoint (ι × α) → Option (MpscChannel ι α × RecvProgress (ι × α))
  | .start => some (c, if c.size = 0 then .returns [] else .goOn (.drain []))
  | .drain values =>
    if values.length < maxCount then
      match c.prefetch with
      | v :: rest =>
        some (({ c with prefetch := rest } : MpscChannel ι α).fetchSub 1,
          .goOn (.drain (values ++ [v])))
      | [] => (c.tryDequeueBulk picks (maxCount - values.length)).map fun r =>
        (r.2, if r.1.isEmpty then .returns values
          else .goOn (.bulkSub (values ++ r.1) r.1.length))
    else some (c, .returns values)
  | .bulkSub values count => some (c.fetchSub count, .returns values)
  | _ => none

def recvStep (c : MpscChannel ι α) (picks : List ι) (point : RecvPoint (ι × α)) :
    RecvRequest → Option (MpscChannel ι α × RecvProgress (ι × α))
  | .single => c.tryRecv picks point
  | .batch maxCount => c.tryRecvBatch maxCount picks point

end MpscChannel

inductive MpscProducer (α : Type) where
  | idle
  | enqueue (values : List α) (prevSize : Nat)
  /-- the queue has refused the values -/
  | undo (count : Nat)
  | hasWaiter
  | consumeWake
  /-- the producer holds the task that receive `receive` had registered -/
  | wakeUp (receive : Nat)
  deriving DecidableEq, Repr

/-- The awaitable of a receive. `timed` tells whether it is wrapped in `.timeout(...)`. -/
structure MpscReceive (β : Type) where
  number : Nat
  request : RecvRequest
  timed : Bool
  registered : Bool
  /-- `m_readyValue` or `m_readyValues`; `[]` stands for no value -/
  ready : List β
  /-- record: `await_suspend` has returned true -/
  suspended : Bool
  deriving DecidableEq, Repr

/-- The places from which a receive asks the channel for values. -/
inductive RecvTry where
  | ready
  /-- `await_suspend`, before the consumer is published -/
  | suspend
  /-- `await_suspend`, after the consumer is published -/
  | recheck
  | resume
  deriving DecidableEq, Repr

inductive RecvStage (β : Type) where
  | trying (place : RecvTry) (point : RecvPoint β)
  | publish
  /-- `await_suspend` has a value and takes the registration back -/
  | withdraw
  | addTimer
  | suspended (timer : Option Nat)
  | checkTimeout (timer : Nat)
  | cancel (timer : Nat)
  | clear
  deriving DecidableEq, Repr

inductive MpscConsumer (β : Type) where
  | running
  | calling (request : RecvRequest) (point : RecvPoint β)
  | receiving (r : MpscReceive β) (stage : RecvStage β)
  /-- suspended in an await on something else -/
  | elsewhere
  deriving DecidableEq, Repr

/-- Who requested the resumption of the consumer. -/
inductive MpscWaker (ι : Type) where
  | producer (p : ι) (receive : Nat)
  | timer (k : Nat)
  | elsewhere
  /-- nobody: the entry was made without `m_queued` -/
  | direct
  deriving DecidableEq, Repr

/-- The channel with its producers and its consumer. The last four fields are records: the values
that each producer has put into the queue, the receives for which a producer has called `wakeUp`,
the values that the consumer has got, and what each `co_await` returned (`[]` stands for the
error `kTimeout`). -/
structure Mpsc (ι α : Type) where
  producers : ι → MpscProducer α
  channel : MpscChannel ι α
  consumer : MpscConsumer (ι × α)
  wake : TaskWake (MpscWaker ι)
  timers : TimerThread
  receives : Nat
  sent : ι → List α
  issued : List Nat
  received : List (ι × α)
  returned : List (MpscReceive (ι × α) × List (ι × α))

inductive MpscAction (ι α : Type) where
  | send (p : ι) (values : List α)
  /-- the next step of the call of `send`; `accepted` is the answer of the queue -/
  | produce (p : ι) (accepted : Bool)
  | tryRecv (request : RecvRequest)
  | recv (request : RecvRequest) (timed : Bool)
  /-- the next step of the consumer; `picks` are the producers a dequeue takes from -/
  | advance (picks : List ι)
  | awaitElsewhere
  | wakeElsewhere
  /-- the consumer is put into the ready queue without `m_queued` -/
  | enqueue
  | schedule (waker : MpscWaker ι)
  | pop (waker : MpscWaker ι)
  | resume
  | expire (timer : Nat)
  | handle
  deriving DecidableEq, Repr

namespace Mpsc

def init (prefetchLimit : Nat) : Mpsc ι α where
  producers := fun _ => .idle
  channel := .init prefetchLimit
  consumer := .running
  wake := .init
  timers := .init
  receives := 0
  sent := fun _ => []
  issued := []
  received := []
  returned := []

def finish (s : Mpsc ι α) (r : MpscReceive (ι × α)) (values : List (ι × α)) : Mpsc ι α :=
  { s with
    consumer := .running
    received := s.received ++ values
    returned := s.returned ++ [(r, values)] }

/-- `await_resume` of the receive from `m_readyValue.has_value()` on. -/
def takeReady (s : Mpsc ι α) (r : MpscReceive (ι × α)) : Mpsc ι α :=
  if r.ready.isEmpty then { s with consumer := .receiving r (.trying .resume .start) }
  else s.finish r r.ready

def awaitResume (s : Mpsc ι α) (r : MpscReceive (ι × α)) : Mpsc ι α :=
  if r.registered then { s with consumer := .receiving r .clear } else s.takeReady r

def suspends (s : Mpsc ι α) (r : MpscReceive (ι × α)) : Mpsc ι α :=
  { s with
    consumer := .receiving { r with suspended := true }
      (if r.timed then .addTimer else .suspended none) }

/-- `tryReceiveNow`, or the attempt of `await_resume`, has come back with `values`. -/
def tried (s : Mpsc ι α) (r : MpscReceive (ι × α)) (values : List (ι × α)) : RecvTry → Mpsc ι α
  | .ready =>
    if values.isEmpty then { s with consumer := .receiving r (.trying .suspend .start) }
    else s.awaitResume { r with ready := values }
  | .suspend =>
    if values.isEmpty then { s with consumer := .receiving r .publish }
    else s.awaitResume { r with ready := values }
  | .recheck =>
    if values.isEmpty then s.suspends r
    else { s with consumer := .receiving { r with ready := values } .withdraw }
  | .resume => s.finish r values

def setProducer [DecidableEq ι] (s : Mpsc ι α) (p : ι) (point : MpscProducer α) : Mpsc ι α :=
  { s with producers := Function.update s.producers p point }

def setWaiter (s : Mpsc ι α) (waiter : Option Nat) : Mpsc ι α :=
  { s with channel := { s.channel with waiter := waiter } }

variable [DecidableEq ι]

/-- The producer is inside `requestTaskResume`. -/
def inWakeUp (s : Mpsc ι α) (p : ι) : Bool :=
  s.wake.scheduling.any fun w =>
    match w with
    | .producer q _ => q = p
    | _ => false

def produce (s : Mpsc ι α) (p : ι) (accepted : Bool) : Option (Mpsc ι α) :=
  match s.producers p with
  | .idle => none
  | .enqueue values prevSize =>
    if accepted then
      some { s.setProducer p (if prevSize = 0 then .consumeWake else .hasWaiter) with
        channel := { s.channel with queue := s.channel.queue ++ values.map (p, ·) }
        sent := Function.update s.sent p (s.sent p ++ values) }
    else some (s.setProducer p (.undo values.length))
  | .undo count => some { s.setProducer p .idle with channel := s.channel.fetchSub count }
  | .hasWaiter => some (s.setProducer p (if s.channel.waiter.isSome then .consumeWake else .idle))
  | .consumeWake =>
    match s.channel.waiter with
    | some receive => some ((s.setProducer p (.wakeUp receive)).setWaiter none)
    | none => some (s.setProducer p .idle)
  | .wakeUp receive =>
    some { s.setProducer p .idle with
      wake := s.wake.requestTaskResume (.producer p receive)
      issued := s.issued ++ [receive] }

def advanceReceive (s : Mpsc ι α) (picks : List ι) (r : MpscReceive (ι × α)) :
    RecvStage (ι × α) → Option (Mpsc ι α)
  | .trying place point => (s.channel.recvStep picks point r.request).map fun result =>
    let s := { s with channel := result.1 }
    match result.2 with
    | .goOn point => { s with consumer := .receiving r (.trying place point) }
    | .returns values => s.tried r values place
  | .publish =>
    some { s.setWaiter (some r.number) with
      consumer := .receiving { r with registered := true } (.trying .recheck .start) }
  | .withdraw =>
    some (if s.channel.waiter.isSome then (s.setWaiter none).awaitResume r else s.suspends r)
  | .addTimer =>
    some { s with
      timers := s.timers.addTimer
      consumer := .receiving r (.suspended (some s.timers.added)) }
  | .suspended _ => none
  | .checkTimeout k =>
    -- neither `markTimeout()` nor `m_result` exists in the receive
    some (if s.timers.timeouted k then s.awaitResume r
      else { s with consumer := .receiving r (.cancel k) })
  | .cancel k => some (({ s with timers := s.timers.cancel k } : Mpsc ι α).awaitResume r)
  | .clear => some ((s.setWaiter none).takeReady { r with registered := false })

def advance (s : Mpsc ι α) (picks : List ι) : Option (Mpsc ι α) :=
  match s.consumer with
  | .calling request point => (s.channel.recvStep picks point request).map fun result =>
    match result.2 with
    | .goOn point => { s with channel := result.1, consumer := .calling request point }
    | .returns values =>
      { s with channel := result.1, consumer := .running, received := s.received ++ values }
  | .receiving r stage => s.advanceReceive picks r stage
  | _ => none

def isSuspended (s : Mpsc ι α) : Bool :=
  match s.consumer with
  | .receiving _ (.suspended _) => true
  | .elsewhere => true
  | _ => false

def resumed (s : Mpsc ι α) : Mpsc ι α :=
  match s.consumer with
  | .receiving r (.suspended (some k)) => { s with consumer := .receiving r (.checkTimeout k) }
  | .receiving r (.suspended none) => s.awaitResume r
  | .elsewhere => { s with consumer := .running }
  | _ => s

def step (s : Mpsc ι α) : MpscAction ι α → Option (Mpsc ι α)
  | .send p values =>
    match s.producers p with
    | .idle =>
      if s.inWakeUp p then none
      else if values.isEmpty then some s
      else
        some { s.setProducer p (.enqueue values s.channel.size) with
          channel := s.channel.fetchAdd values.length }
    | _ => none
  | .produce p accepted => s.produce p accepted
  | .tryRecv request =>
    match s.consumer with
    | .running => some { s with consumer := .calling request .start }
    | _ => none
  | .recv request timed =>
    match s.consumer with
    | .running =>
      some { s with
        receives := s.receives + 1
        consumer := .receiving ⟨s.receives, request, timed, false, [], false⟩
          (.trying .ready .start) }
    | _ => none
  | .advance picks => s.advance picks
  | .awaitElsewhere =>
    match s.consumer with
    | .running => some { s with consumer := .elsewhere }
    | _ => none
  | .wakeElsewhere => some { s with wake := s.wake.requestTaskResume .elsewhere }
  | .enqueue => some { s with wake := s.wake.enqueue .direct }
  | .schedule waker => (s.wake.schedule waker).map ({ s with wake := · })
  | .pop waker => if s.isSuspended then (s.wake.pop waker).map ({ s with wake := · }) else none
  | .resume => s.wake.resume.map fun wake => ({ s with wake := wake } : Mpsc ι α).resumed
  | .expire k => (s.timers.expire k).map ({ s with timers := · })
  | .handle => (s.timers.handle s.wake .timer).map fun r => { s with timers := r.1, wake := r.2 }

end Mpsc

end GalayKernel
