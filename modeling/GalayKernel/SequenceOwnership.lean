import GalayKernel.KqueueReactor

/-!
# Ownership of the slots of a controller

Plain operations and sequences share the two slots of an `IOController`: a plain operation puts its
awaitable into the slot of its direction, a sequence or a state machine becomes the owner of the
slots of its domain (`kernel/awaitable.h`, `kernel/io_scheduler.hpp`). The epoll and the kqueue
build run the same code on `m_type`, the slots, the owners and the interest mask, so that there is
one model for both. Here `m_type` is a field of its own, written where the code writes it.

What the tasks, the kernel and the timers do is a parameter of each action. `await_suspend` runs in
one step, together with the `await_resume` that follows when it does not suspend.
-/

namespace GalayKernel

/-- `m_type`: a bit for each plain operation, and `SEQUENCE` -/
structure EventTypeBits where
  plain : KqueueEventType → Bool
  sequence : Bool

/-- `IOController`; plain awaitables have names in `π`, sequences in `ι`. -/
structure OwnedController (π ι : Type) where
  isOpen : Bool
  type : EventTypeBits
  awaitable : IOSlot → Option π
  sequenceOwner : IOSlot → Option ι
  sequenceInterestMask : EventMask

structure SequenceObject where
  requestedDomain : SequenceOwnerDomain
  registeredDomain : SequenceOwnerDomain
  registered : Bool
  active : Option KqueueEventType
  deriving DecidableEq, Repr

namespace SequenceObject

def new (domain : SequenceOwnerDomain) : SequenceObject := ⟨domain, domain, false, none⟩

def waitsOn (seq : SequenceObject) (slot : IOSlot) : Bool := seq.active.any (·.slot == slot)

def interestMask (seq : SequenceObject) : EventMask := ⟨seq.waitsOn .read, seq.waitsOn .write⟩

end SequenceObject

structure PlainOperation (π : Type) where
  awaitable : π
  type : KqueueEventType
  deriving DecidableEq, Repr

structure PlainSubmit where
  onIOScheduler : Bool
  /-- what `registerIOSchedulerEvent` returns: `1` if the operation is done at once, `0` if it
  waits, a negative number if it fails -/
  ret : Int
  deriving DecidableEq, Repr

structure SequenceSubmit where
  completed : Bool
  active : Option KqueueEventType
  onIOScheduler : Bool
  ret : Int
  deriving DecidableEq, Repr

structure OwnershipState (π ι : Type) where
  controller : OwnedController π ι
  /-- the plain operation of each direction whose task waits, until its `await_resume` -/
  pending : IOSlot → Option (PlainOperation π)
  sequences : ι → SequenceObject
  /-- the sequences whose task waits, until their `await_resume` -/
  suspended : ι → Bool

inductive OwnershipAction (π ι : Type) where
  | beginPlain (p : π) (type : KqueueEventType) (submit : PlainSubmit)
  /-- the task of the plain operation goes on, after an event or a timeout -/
  | resumePlain (slot : IOSlot)
  | beginSequence (i : ι) (domain : SequenceOwnerDomain) (submit : SequenceSubmit)
  /-- the task of the sequence goes on; after a timeout `markTimeout` may have changed the step -/
  | resumeSequence (i : ι) (active : Option KqueueEventType)
  /-- `onActiveEvent` of the owner of the slot, which then waits for the step `active` -/
  | event (slot : IOSlot) (active : Option KqueueEventType)
  | syncEvents
  | close

namespace OwnershipState

variable {π ι : Type} [DecidableEq ι]

def new (isOpen : Bool) : OwnershipState π ι where
  controller := ⟨isOpen, ⟨fun _ => false, false⟩, fun _ => none, fun _ => none, .empty⟩
  pending := fun _ => none
  sequences := fun _ => .new .readWrite
  suspended := fun _ => false

def setSequence (s : OwnershipState π ι) (i : ι) (seq : SequenceObject) : OwnershipState π ι :=
  { s with sequences := Function.update s.sequences i seq }

def fillAwaitable (s : OwnershipState π ι) (type : KqueueEventType) (p : π) :
    OwnershipState π ι :=
  { s with
    controller := { s.controller with
      type := { s.controller.type with plain := Function.update s.controller.type.plain type true }
      awaitable := Function.update s.controller.awaitable type.slot (some p) } }

def removeAwaitable (s : OwnershipState π ι) (type : KqueueEventType) : OwnershipState π ι :=
  { s with
    controller := { s.controller with
      type := { s.controller.type with plain := Function.update s.controller.type.plain type false }
      awaitable := Function.update s.controller.awaitable type.slot none } }

/-- The result of `registerIOSchedulerEvent`: on a closed controller the operation fails. -/
def registerIOSchedulerEvent (s : OwnershipState π ι) (ret : Int) : Int :=
  if s.controller.isOpen then ret else -1

def suspendRegisteredAwaitable (s : OwnershipState π ι) (p : π) (type : KqueueEventType)
    (submit : PlainSubmit) : Bool × OwnershipState π ι :=
  if (s.controller.sequenceOwner type.slot).isSome then (false, s)
  else
    let filled := s.fillAwaitable type p
    if !submit.onIOScheduler then (false, filled)
    else
      let ret := filled.registerIOSchedulerEvent submit.ret
      if ret = 1 then (false, filled)
      else if ret < 0 then (false, filled)
      else (true, filled)

/-- The `await_resume` of a plain operation. It does not look at who has the slot. -/
def resumeIOAwaitable (s : OwnershipState π ι) (type : KqueueEventType) : OwnershipState π ι :=
  s.removeAwaitable type

def collectSequenceInterestMask (s : OwnershipState π ι) : EventMask :=
  collectInterestMask s.controller.sequenceOwner fun i => (s.sequences i).interestMask

def syncSequenceInterestMask (s : OwnershipState π ι) : OwnershipState π ι :=
  { s with
    controller := { s.controller with sequenceInterestMask := s.collectSequenceInterestMask } }

def canClaim (s : OwnershipState π ι) (i : ι) (slot : IOSlot) : Bool :=
  canClaimSlot (s.controller.awaitable slot).isNone (s.controller.sequenceOwner slot) i

def claimRequestedDomain (s : OwnershipState π ι) (i : ι) : Option (OwnershipState π ι) :=
  let seq := s.sequences i
  if (seq.requestedDomain.usesSlot .read && !s.canClaim i .read) ||
    (seq.requestedDomain.usesSlot .write && !s.canClaim i .write) then none
  else some
    { s.setSequence i { seq with registeredDomain := seq.requestedDomain, registered := true } with
      controller := { s.controller with
        type := { s.controller.type with sequence := true }
        sequenceOwner := seq.requestedDomain.claim s.controller.sequenceOwner i } }

def releaseSlots (s : OwnershipState π ι) (i : ι) : OwnershipState π ι :=
  { s with
    controller := { s.controller with
      sequenceOwner := (s.sequences i).registeredDomain.release s.controller.sequenceOwner i } }

/-- `SEQUENCE` and the interest mask after some slots have lost their owner. -/
def syncReleased (s : OwnershipState π ι) : OwnershipState π ι :=
  if (s.controller.sequenceOwner .read).isNone && (s.controller.sequenceOwner .write).isNone then
    { s with
      controller := { s.controller with
        type := { s.controller.type with sequence := false }
        sequenceInterestMask := .empty } }
  else s.syncSequenceInterestMask

def releaseRegisteredDomain (s : OwnershipState π ι) (i : ι) : OwnershipState π ι :=
  let seq := s.sequences i
  if !seq.registered then s.setSequence i { seq with registered := false }
  else (s.releaseSlots i).syncReleased.setSequence i { seq with registered := false }

def suspendSequenceAwaitable (s : OwnershipState π ι) (i : ι) (submit : SequenceSubmit) :
    Bool × OwnershipState π ι :=
  let s := s.setSequence i { s.sequences i with registered := false }
  match s.claimRequestedDomain i with
  | none => (false, s)
  | some claimed =>
    let prepared := claimed.setSequence i { claimed.sequences i with active := submit.active }
    if submit.completed then (false, prepared)
    else
      let synced := prepared.syncSequenceInterestMask
      if !submit.onIOScheduler then (false, synced.releaseRegisteredDomain i)
      else
        -- `addSequence` recomputes the mask, which is the same
        let ret := synced.registerIOSchedulerEvent submit.ret
        if ret = 1 then (false, synced)
        else if ret < 0 then (false, synced.releaseRegisteredDomain i)
        else (true, synced)

def onCompleted (s : OwnershipState π ι) (i : ι) : OwnershipState π ι :=
  s.releaseRegisteredDomain i

def close (s : OwnershipState π ι) : OwnershipState π ι :=
  if s.controller.isOpen then
    { s with
      controller := ⟨false, ⟨fun _ => false, false⟩, fun _ => none, fun _ => none, .empty⟩ }
  else s

/-- A plain operation begins. There is at most one in each direction at a time. -/
def beginPlain (s : OwnershipState π ι) (p : π) (type : KqueueEventType) (submit : PlainSubmit) :
    OwnershipState π ι :=
  match s.suspendRegisteredAwaitable p type submit with
  | (true, s') => { s' with pending := Function.update s'.pending type.slot (some ⟨p, type⟩) }
  | (false, s') => s'.resumeIOAwaitable type

def awaitSequence (s : OwnershipState π ι) (i : ι) (submit : SequenceSubmit) :
    OwnershipState π ι :=
  match s.suspendSequenceAwaitable i submit with
  | (true, s') => { s' with suspended := Function.update s'.suspended i true }
  | (false, s') => s'.onCompleted i

def beginSequence (s : OwnershipState π ι) (i : ι) (domain : SequenceOwnerDomain)
    (submit : SequenceSubmit) : OwnershipState π ι :=
  match (s.setSequence i (.new domain)).suspendSequenceAwaitable i submit with
  | (true, s') => { s' with suspended := Function.update s'.suspended i true }
  | (false, s') => s'.onCompleted i

def step (s : OwnershipState π ι) : OwnershipAction π ι → Option (OwnershipState π ι)
  | .beginPlain p type submit =>
    if (s.pending type.slot).isSome then none else some (s.beginPlain p type submit)
  | .resumePlain slot =>
    match s.pending slot with
    | none => none
    | some op =>
      some { s.resumeIOAwaitable op.type with pending := Function.update s.pending slot none }
  | .beginSequence i domain submit =>
    if s.suspended i then none else some (s.beginSequence i domain submit)
  | .resumeSequence i active =>
    if s.suspended i then
      some { (s.setSequence i { s.sequences i with active := active }).onCompleted i with
        suspended := Function.update s.suspended i false }
    else none
  | .event slot active =>
    match s.controller.sequenceOwner slot with
    | none => none
    | some i =>
      if (s.sequences i).waitsOn slot then
        some (s.setSequence i { s.sequences i with active := active }).syncSequenceInterestMask
      else none
  | .syncEvents =>
    some (if s.controller.type.sequence then s.syncSequenceInterestMask else s)
  | .close => some s.close

end OwnershipState

end GalayKernel
