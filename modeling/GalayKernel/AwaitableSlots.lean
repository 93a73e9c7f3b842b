import GalayKernel.KqueueReactor
import Mathlib.Logic.Function.Basic

/-!
# The awaitables in the slots of an epoll controller

What the plain operations (`kernel/awaitable.h`), the batches of `AioCommitAwaitable`
(`async/aio_file.h`, `async/aio_file.cc`), `EpollReactor::processEvent` and `addClose`
(`kernel/epoll_reactor.cc`) do to `m_type` and `m_awaitable` of one `IOController`. No sequence owns
a slot. `KqueueEventType` has the operations of the epoll build as well.

`await_suspend` runs in one step, together with the `await_resume` that follows when it does not
suspend, so the event loop never sees a state in between. Several tasks may await on one controller
at a time, also in one direction. The results of the operations are left out.
-/

namespace GalayKernel

structure SuspendedAwait where
  type : KqueueEventType
  /-- an `AioCommitAwaitable`, of type `FILEREAD` -/
  batched : Bool
  /-- the task has been woken; it has not been resumed -/
  woken : Bool
  deriving DecidableEq, Repr

/-- What happens in `await_suspend` of a plain operation. -/
structure PlainAwait where
  onIOScheduler : Bool
  ret : Int
  deriving DecidableEq, Repr

structure CommitAwait where
  pendingCount : Nat
  submitted : Int
  onIOScheduler : Bool
  eventFd : Bool
  ret : Int
  deriving DecidableEq, Repr

/-- `IOController`, and the awaitables of the tasks that wait on it. -/
structure AwaitableSlots (π : Type) where
  /-- `m_handle` is valid -/
  isOpen : Bool
  type : KqueueEventType → Bool
  awaitable : IOSlot → Option π
  awaits : π → Option SuspendedAwait

inductive SlotAction (π : Type) where
  | awaitPlain (p : π) (type : KqueueEventType) (await : PlainAwait)
  | awaitCommit (p : π) (await : CommitAwait)
  /-- an event for the directions `reported`; `done` tells where the task is woken -/
  | processEvent (reported done : EventMask)
  | timeout (p : π)
  | resume (p : π)
  | close

namespace AwaitableSlots

variable {π : Type} [DecidableEq π]

def new (isOpen : Bool) : AwaitableSlots π := ⟨isOpen, fun _ => false, fun _ => none, fun _ => none⟩

def fillAwaitable (s : AwaitableSlots π) (type : KqueueEventType) (p : π) : AwaitableSlots π :=
  { s with
    type := Function.update s.type type true
    awaitable := Function.update s.awaitable type.slot (some p) }

def removeAwaitable (s : AwaitableSlots π) (type : KqueueEventType) : AwaitableSlots π :=
  { s with
    type := Function.update s.type type false
    awaitable := Function.update s.awaitable type.slot none }

/-- On a controller that is not open, every registration fails. -/
def registered (s : AwaitableSlots π) (ret : Int) : Int := if s.isOpen then ret else -1

/-- Whether the task is suspended, and the controller after the call. -/
def suspendRegisteredAwaitable (s : AwaitableSlots π) (p : π) (type : KqueueEventType)
    (await : PlainAwait) : Bool × AwaitableSlots π :=
  let filled := s.fillAwaitable type p
  if !await.onIOScheduler then (false, filled)
  else
    -- `finalizeAwaitableAddResult`
    let ret := filled.registered await.ret
    if ret = 1 then (false, filled)
    else if ret < 0 then (false, filled)
    else (true, filled)

def resumeIOAwaitable (s : AwaitableSlots π) (type : KqueueEventType) : AwaitableSlots π :=
  s.removeAwaitable type

/-- `AioCommitAwaitable::await_suspend`: whether the task is suspended, and the controller after the
call. The eventfd becomes the handle of the controller. -/
def suspendCommit (s : AwaitableSlots π) (p : π) (await : CommitAwait) :
    Bool × AwaitableSlots π :=
  if await.pendingCount = 0 then (false, s)
  else if await.submitted < 0 then (false, s)
  else if !await.onIOScheduler then (false, s)
  else
    let filled := { s with isOpen := await.eventFd }.fillAwaitable .fileRead p
    if filled.registered await.ret < 0 then (false, filled) else (true, filled)

/-- `AioCommitAwaitable::await_resume` hands out the result and does not touch the controller. -/
def resumeCommit (s : AwaitableSlots π) : AwaitableSlots π := s

def setAwait (s : AwaitableSlots π) (p : π) (await : Option SuspendedAwait) : AwaitableSlots π :=
  { s with awaits := Function.update s.awaits p await }

def wakeUp (s : AwaitableSlots π) (p : π) : AwaitableSlots π :=
  s.setAwait p ((s.awaits p).map fun await => { await with woken := true })

def hasType (s : AwaitableSlots π) : IOSlot → Bool
  | .read => s.type .accept || s.type .recv || s.type .readv || s.type .recvFrom ||
    s.type .fileRead || s.type .fileWatch
  | .write => s.type .connect || s.type .send || s.type .writev || s.type .sendTo ||
    s.type .fileWrite || s.type .sendFile

/-- One direction of `processEvent`: the awaitable in the slot is looked at, and its task is woken
if the operation is done. -/
def processSlot (s : AwaitableSlots π) (reported done : EventMask) (slot : IOSlot) :
    AwaitableSlots π :=
  if reported.has slot && s.hasType slot then
    match s.awaitable slot with
    | some p => if done.has slot then s.wakeUp p else s
    | none => s
  else s

def processEvent (s : AwaitableSlots π) (reported done : EventMask) : AwaitableSlots π :=
  (s.processSlot reported done .read).processSlot reported done .write

def close (s : AwaitableSlots π) : AwaitableSlots π :=
  if s.isOpen then
    { s with isOpen := false, type := fun _ => false, awaitable := fun _ => none }
  else s

def awaitResume (s : AwaitableSlots π) (await : SuspendedAwait) : AwaitableSlots π :=
  if await.batched then s.resumeCommit else s.resumeIOAwaitable await.type

def awaitPlain (s : AwaitableSlots π) (p : π) (type : KqueueEventType) (await : PlainAwait) :
    AwaitableSlots π :=
  match s.suspendRegisteredAwaitable p type await with
  | (true, s') => s'.setAwait p (some ⟨type, false, false⟩)
  | (false, s') => s'.resumeIOAwaitable type

def awaitCommit (s : AwaitableSlots π) (p : π) (await : CommitAwait) : AwaitableSlots π :=
  match s.suspendCommit p await with
  | (true, s') => s'.setAwait p (some ⟨.fileRead, true, false⟩)
  | (false, s') => s'.resumeCommit

/-- An awaitable is awaited by one task at a time. -/
def step (s : AwaitableSlots π) : SlotAction π → Option (AwaitableSlots π)
  | .awaitPlain p type await =>
    if (s.awaits p).isSome then none else some (s.awaitPlain p type await)
  | .awaitCommit p await => if (s.awaits p).isSome then none else some (s.awaitCommit p await)
  | .processEvent reported done => some (s.processEvent reported done)
  | .timeout p =>
    match s.awaits p with
    -- `AioCommitAwaitable` has no `timeout`
    | some await => if await.batched then none else some (s.wakeUp p)
    | none => none
  | .resume p =>
    match s.awaits p with
    | some await => if await.woken then some ((s.awaitResume await).setAwait p none) else none
    | none => none
  | .close => some s.close

end AwaitableSlots

end GalayKernel
