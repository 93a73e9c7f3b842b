import GalayKernel.UringTokens

/-!
# Writes through io_uring

The WRITE slot of an `IOController` (`kernel/io_controller.hpp`, `kernel/io_scheduler.hpp`) with the
write side of `IOUringReactor` (`kernel/uring_reactor.cc`): `send`, plain or zero-copy, `connect`,
`writev`, `sendTo`, `sendFile`, `fileWrite` and sequences of the write domain
(`kernel/awaitable.h`). The awaitables are numbered.

The program issues its writes one after the other: a write begins only when the one before it has
been resumed or has been cut off by `close`. What the kernel reports, what a sequence makes of it
and when a timer expires is part of the action. `await_suspend` runs in one step, together with the
`await_resume` that follows when it does not suspend.
-/

namespace GalayKernel

inductive WriteKind where
  | plain (type : KqueueEventType)
  | sequence
  deriving DecidableEq, Repr

/-- What a call of `addSend`, `addConnect`, … or `submitSequenceSqe` depends on. -/
structure WriteInput where
  type : KqueueEventType
  length : Nat
  memory : Bool
  hasSqe : Bool
  deriving DecidableEq, Repr

/-- What `prepareForSubmit` or `onActiveEvent` of a sequence leaves: it is completed, or `front` is
its next step. -/
inductive SequenceWrite where
  | completed
  | waits (front : Option WriteInput)
  deriving DecidableEq, Repr

/-- A sequence of the write domain has only steps that use the WRITE slot. -/
def SequenceWrite.usesWrite : SequenceWrite → Bool
  | .completed | .waits none => true
  | .waits (some front) => front.type.slot == .write

/-- What `processCompletion` makes of a result. -/
structure WriteReaction where
  /-- `handleComplete` returns true -/
  completes : Bool
  /-- the submission that follows when it would block -/
  retry : WriteInput
  next : SequenceWrite
  deriving DecidableEq, Repr

/-- The WRITE side of an `IOController`. -/
structure UringWrites where
  arena : SqeTokenArena
  isOpen : Bool
  awaitable : Option Nat
  sequenceOwner : Option Nat
  kind : Nat → WriteKind
  /-- the awaitables whose task waits -/
  suspended : Nat → Bool
  woken : Nat → Bool
  /-- the write that is neither resumed nor cut off -/
  current : Option Nat
  issued : Nat
  /-- the completions that were applied, with the awaitable -/
  applied : List (SqeRequest × Nat)

inductive WriteAction where
  | beginPlain (input : WriteInput) (onIOScheduler : Bool)
  | beginSequence (prepared : SequenceWrite) (onIOScheduler : Bool)
  | complete (i : Nat) (flags : CqeFlags) (reaction : WriteReaction)
  | expire (a : Nat)
  | resume (a : Nat)
  | close
  deriving DecidableEq, Repr

namespace UringWrites

def new : UringWrites where
  arena := .new
  isOpen := true
  awaitable := none
  sequenceOwner := none
  kind := fun _ => .sequence
  suspended := fun _ => false
  woken := fun _ => false
  current := none
  issued := 0
  applied := []

def fillAwaitable (s : UringWrites) (a : Nat) : UringWrites :=
  { s with awaitable := some a, arena := s.arena.advanceSqeGeneration }

def removeAwaitable (s : UringWrites) : UringWrites :=
  { s with awaitable := none, arena := s.arena.advanceSqeGeneration }

def wakeUp (s : UringWrites) (a : Nat) : UringWrites :=
  { s with woken := Function.update s.woken a true }

/-- `addSend`, `addConnect`, …: the request is for the awaitable in the slot. -/
def addPlain (sendZcSupported : Bool) (s : UringWrites) (input : WriteInput) : Int × UringWrites :=
  match s.awaitable with
  | none => (-1, s)
  | some a =>
    let (ret, arena) := s.arena.submit sendZcSupported
      ⟨input.type, false, input.length, input.memory, input.hasSqe, a⟩
    (ret, { s with arena })

def submitSequenceSqe (sendZcSupported : Bool) (s : UringWrites) (owner : Nat)
    (front : WriteInput) : Int × UringWrites :=
  let (ret, arena) := s.arena.submit sendZcSupported
    ⟨front.type, true, front.length, front.memory, front.hasSqe, owner⟩
  (ret, { s with arena, awaitable := if ret = 0 then some owner else s.awaitable })

/-- `addSequence`, when the owner has the step `front` to do. -/
def addSequence (sendZcSupported : Bool) (s : UringWrites) (front : Option WriteInput) :
    Int × UringWrites :=
  match s.sequenceOwner, front with
  | some owner, some front =>
    if s.awaitable = some owner then (0, s)
    else if s.awaitable.isSome then (-EBUSY, s)
    else s.submitSequenceSqe sendZcSupported owner front
  | _, _ => (0, s)

def releaseRegisteredDomain (s : UringWrites) (a : Nat) : UringWrites :=
  let s := if s.sequenceOwner = some a then { s with sequenceOwner := none } else s
  if s.awaitable = some a then s.removeAwaitable else s

def awaitResume (s : UringWrites) (a : Nat) : UringWrites :=
  match s.kind a with
  | .plain _ => if s.awaitable = some a then s.removeAwaitable else s
  | .sequence => s.releaseRegisteredDomain a

def issue (s : UringWrites) (kind : WriteKind) : Nat × UringWrites :=
  (s.issued, { s with kind := Function.update s.kind s.issued kind, issued := s.issued + 1 })

def suspend (s : UringWrites) (a : Nat) : UringWrites :=
  { s with suspended := Function.update s.suspended a true, current := some a }

def beginPlain (sendZcSupported : Bool) (s : UringWrites) (input : WriteInput)
    (onIOScheduler : Bool) : UringWrites :=
  let (a, s) := s.issue (.plain input.type)
  if s.sequenceOwner.isSome then s.awaitResume a
  else
    let filled := s.fillAwaitable a
    if !onIOScheduler then filled.awaitResume a
    else
      let (ret, added) := filled.addPlain sendZcSupported input
      if ret < 0 then added.awaitResume a else added.suspend a

def beginSequence (sendZcSupported : Bool) (s : UringWrites) (prepared : SequenceWrite)
    (onIOScheduler : Bool) : UringWrites :=
  let (a, s) := s.issue .sequence
  -- `claimRequestedDomain`
  if s.awaitable.isSome || s.sequenceOwner.isSome then s
  else
    let claimed := { s with sequenceOwner := some a }
    match prepared with
    | .completed => claimed.awaitResume a
    | .waits front =>
      if !onIOScheduler then claimed.awaitResume a
      else
        let (ret, added) := claimed.addSequence sendZcSupported front
        if ret < 0 then added.awaitResume a else added.suspend a

/-- The part of `processCompletion` after the stale checks. -/
def apply (sendZcSupported : Bool) (s : UringWrites) (r : SqeRequest) (reaction : WriteReaction) :
    UringWrites :=
  match s.awaitable with
  | none => s
  | some a =>
    let s := { s with applied := s.applied ++ [(r, a)] }
    match s.kind a with
    | .plain type =>
      if reaction.completes then s.wakeUp a
      else
        let (ret, added) := s.addPlain sendZcSupported { reaction.retry with type }
        if ret < 0 then added.wakeUp a else added
    | .sequence =>
      let s := s.removeAwaitable
      match reaction.next with
      | .completed => s.wakeUp a
      | .waits front =>
        let (ret, added) := s.addSequence sendZcSupported front
        if ret < 0 then added.wakeUp a else added

def complete (sendZcSupported : Bool) (s : UringWrites) (i : Nat) (r : SqeRequest)
    (flags : CqeFlags) (remaining : Option SqeProtocol) (reaction : WriteReaction) : UringWrites :=
  let token := s.arena.tokens r.token
  let posted := { s with arena := s.arena.post i r flags remaining }
  let applied := if s.arena.applies token flags then posted.apply sendZcSupported r reaction
    else posted
  { applied with arena := applied.arena.leave r.token (token.complete flags).2 remaining }

def close (s : UringWrites) : UringWrites :=
  if s.isOpen then
    { s with
      isOpen := false
      awaitable := none
      arena := s.arena.clearSqeState
      current := none }
  else s

def step (sendZcSupported : Bool) (s : UringWrites) : WriteAction → Option UringWrites
  | .beginPlain input onIOScheduler =>
    if s.current.isNone && input.type.slot == .write then
      some (s.beginPlain sendZcSupported input onIOScheduler)
    else none
  | .beginSequence prepared onIOScheduler =>
    if s.current.isNone && prepared.usesWrite then
      some (s.beginSequence sendZcSupported prepared onIOScheduler)
    else none
  | .complete i flags reaction =>
    match s.arena.requests[i]? with
    | none => none
    | some r =>
      match r.protocol.posts flags with
      | none => none
      | some remaining =>
        if reaction.next.usesWrite then
          some (s.complete sendZcSupported i r flags remaining reaction)
        else none
  | .expire a => if s.suspended a then some (s.wakeUp a) else none
  | .resume a =>
    if s.suspended a && s.woken a then
      some { s.awaitResume a with
        suspended := Function.update s.suspended a false
        current := if s.current = some a then none else s.current }
    else none
  | .close => some s.close

end UringWrites

end GalayKernel
