import GalayKernel.EpollController
import Mathlib.Logic.Function.Basic

/-!
# Filters of the kqueue reactor

One controller of `KqueueReactor` (`kernel/kqueue_reactor.cc`) with its sequences
(`kernel/awaitable.h`) and the filters that the kernel has for its descriptor. Plain operations
register their filter themselves; for sequences the filters are computed from
`m_sequence_armed_mask`, which is the mask that the last `addSequence` has applied.

The calls of `kevent` succeed. An event may be processed in every state, also when its filter has
been deleted since it was reported. The results of the operations are part of the action.
-/

namespace GalayKernel

variable {ι : Type}

/-- `IOEventType`, as the kqueue build has it -/
inductive KqueueEventType where
  | accept
  | connect
  | recv
  | send
  | readv
  | writev
  | recvFrom
  | sendTo
  | fileRead
  | fileWrite
  | fileWatch
  | sendFile
  deriving DecidableEq, Repr

inductive KqueueFilter where
  | read
  | write
  | vnode
  deriving DecidableEq, Repr

def IOSlot.filter : IOSlot → KqueueFilter
  | .read => .read
  | .write => .write

namespace KqueueEventType

def slot : KqueueEventType → IOSlot
  | .accept | .recv | .readv | .recvFrom | .fileRead | .fileWatch => .read
  | .connect | .send | .writev | .sendTo | .fileWrite | .sendFile => .write

def filter : KqueueEventType → KqueueFilter
  | .fileWatch => .vnode
  | type => type.slot.filter

end KqueueEventType

structure KqueueAwaitable where
  type : KqueueEventType
  woken : Bool
  deriving DecidableEq, Repr

structure KqueueSequence where
  domain : SequenceOwnerDomain
  active : Option KqueueEventType
  woken : Bool
  deriving DecidableEq, Repr

def KqueueSequence.waitsOn (seq : KqueueSequence) (slot : IOSlot) : Bool :=
  seq.active.any (·.slot == slot)

def KqueueSequence.interestMask (seq : KqueueSequence) : EventMask :=
  ⟨seq.waitsOn .read, seq.waitsOn .write⟩

/-- `IOController`; the sequences of its tasks have names in `ι`. -/
structure KqueueController (ι : Type) where
  isOpen : Bool
  awaitable : IOSlot → Option KqueueAwaitable
  sequenceOwner : IOSlot → Option ι
  sequences : ι → Option KqueueSequence
  sequenceInterestMask : EventMask
  sequenceArmedMask : EventMask
  filters : KqueueFilter → Bool

inductive KqueueAction (ι : Type) where
  /-- a plain operation begins; `blocked` if it would block -/
  | begin (type : KqueueEventType) (blocked : Bool)
  | resume (slot : IOSlot)
  | expire (slot : IOSlot)
  /-- a sequence begins; it is `completed` at once, or its step `active` would block -/
  | beginSequence (i : ι) (domain : SequenceOwnerDomain) (completed : Bool)
      (active : Option KqueueEventType)
  | expireSequence (i : ι)
  | resumeSequence (i : ι)
  /-- an event is processed: a plain operation is done or would block again, and the owner of the
  slot is `completed` or goes on to the step `active` -/
  | event (filter : KqueueFilter) (done completed : Bool) (active : Option KqueueEventType)
  | close

namespace KqueueController

variable [DecidableEq ι]

def new : KqueueController ι where
  isOpen := true
  awaitable := fun _ => none
  sequenceOwner := fun _ => none
  sequences := fun _ => none
  sequenceInterestMask := .empty
  sequenceArmedMask := .empty
  filters := fun _ => false

def setAwaitable (ctl : KqueueController ι) (slot : IOSlot) (awaitable : Option KqueueAwaitable) :
    KqueueController ι :=
  { ctl with awaitable := Function.update ctl.awaitable slot awaitable }

def setSequence (ctl : KqueueController ι) (i : ι) (seq : Option KqueueSequence) :
    KqueueController ι :=
  { ctl with sequences := Function.update ctl.sequences i seq }

def wake (ctl : KqueueController ι) (slot : IOSlot) : KqueueController ι :=
  ctl.setAwaitable slot ((ctl.awaitable slot).map fun awaitable => { awaitable with woken := true })

def owner (ctl : KqueueController ι) (slot : IOSlot) : Option KqueueSequence :=
  (ctl.sequenceOwner slot).bind ctl.sequences

def isIdle (ctl : KqueueController ι) : Bool :=
  (ctl.awaitable .read).isNone && (ctl.awaitable .write).isNone &&
    (ctl.sequenceOwner .read).isNone && (ctl.sequenceOwner .write).isNone

def collectSequenceInterestMask (ctl : KqueueController ι) : EventMask :=
  collectInterestMask ctl.sequenceOwner fun i =>
    (ctl.sequences i).elim .empty KqueueSequence.interestMask

def syncSequenceInterestMask (ctl : KqueueController ι) : KqueueController ι :=
  { ctl with sequenceInterestMask := ctl.collectSequenceInterestMask }

def clearSequenceInterestMask (ctl : KqueueController ι) : KqueueController ι :=
  { ctl with sequenceInterestMask := .empty, sequenceArmedMask := .empty }

def claimRequestedDomain (ctl : KqueueController ι) (i : ι) (seq : KqueueSequence) :
    Option (KqueueController ι) :=
  let canClaim (slot : IOSlot) : Bool :=
    canClaimSlot (ctl.awaitable slot).isNone (ctl.sequenceOwner slot) i
  if (seq.domain.usesSlot .read && !canClaim .read) ||
    (seq.domain.usesSlot .write && !canClaim .write) then none
  else some { ctl.setSequence i (some seq) with
    sequenceOwner := seq.domain.claim ctl.sequenceOwner i }

/-- The first half of `releaseRegisteredDomain`: the slots of the sequence have no owner any more,
and its task goes on. -/
def releaseSlots (ctl : KqueueController ι) (i : ι) (seq : KqueueSequence) : KqueueController ι :=
  { ctl.setSequence i none with sequenceOwner := seq.domain.release ctl.sequenceOwner i }

def releaseRegisteredDomain (ctl : KqueueController ι) (i : ι) (seq : KqueueSequence) :
    KqueueController ι :=
  let released := ctl.releaseSlots i seq
  if (released.sequenceOwner .read).isNone && (released.sequenceOwner .write).isNone then
    released.clearSequenceInterestMask
  else released.syncSequenceInterestMask

/-- One filter after the changes of `applySequenceInterest`: deleted, added or left alone. -/
def change (registered armed desired : Bool) : Bool :=
  if armed && !desired then false else if desired && !armed then true else registered

def applySequenceInterest (ctl : KqueueController ι) (desired : EventMask) : KqueueController ι :=
  { ctl with
    filters := fun
      | .read => change (ctl.filters .read) ctl.sequenceArmedMask.read desired.read
      | .write => change (ctl.filters .write) ctl.sequenceArmedMask.write desired.write
      | .vnode => ctl.filters .vnode
    sequenceArmedMask := desired }

def addSequence (ctl : KqueueController ι) : KqueueController ι :=
  let synced := ctl.syncSequenceInterestMask
  synced.applySequenceInterest synced.sequenceInterestMask

/-- `suspendSequenceAwaitable`. A sequence that ends at once, or that cannot be registered,
releases its domain again. -/
def beginSequence (ctl : KqueueController ι) (i : ι) (domain : SequenceOwnerDomain)
    (completed : Bool) (active : Option KqueueEventType) : KqueueController ι :=
  let seq : KqueueSequence := ⟨domain, active, false⟩
  match ctl.claimRequestedDomain i seq with
  | none => ctl
  | some claimed =>
    if completed || !ctl.isOpen then claimed.releaseRegisteredDomain i seq
    else claimed.addSequence

/-- `suspendRegisteredAwaitable` with `addAccept`, `addConnect` and so on: each tries the operation
first, except `addFileWatch`. -/
def begin (ctl : KqueueController ι) (type : KqueueEventType) (blocked : Bool) :
    KqueueController ι :=
  if (ctl.sequenceOwner type.slot).isSome || !ctl.isOpen then ctl
  else if type != .fileWatch && !blocked then ctl
  else { ctl.setAwaitable type.slot (some ⟨type, false⟩) with
    filters := Function.update ctl.filters type.filter true }

def close (ctl : KqueueController ι) : KqueueController ι :=
  if ctl.isOpen then
    { ctl with
      isOpen := false
      awaitable := fun _ => none
      sequenceOwner := fun _ => none
      sequenceInterestMask := .empty
      sequenceArmedMask := .empty
      filters := fun _ => false }
  else ctl

/-- The plain operation in the slot, if the event is one of its filter. -/
def completeAwaitableAndWake (ctl : KqueueController ι) (filter : KqueueFilter) (slot : IOSlot)
    (done : Bool) : KqueueController ι :=
  if (ctl.awaitable slot).any (·.type.filter == filter) && done then ctl.wake slot else ctl

def dispatchOwner (ctl : KqueueController ι) (slot : IOSlot) (completed : Bool)
    (active : Option KqueueEventType) : KqueueController ι :=
  match ctl.sequenceOwner slot with
  | none => ctl
  | some i =>
    match ctl.sequences i with
    | none => ctl
    | some seq =>
      if !seq.waitsOn slot then ctl
      else if completed then
        (ctl.setSequence i (some ⟨seq.domain, active, true⟩)).syncSequenceInterestMask
      else (ctl.setSequence i (some { seq with active := active })).addSequence

def processEvent (ctl : KqueueController ι) (filter : KqueueFilter) (done completed : Bool)
    (active : Option KqueueEventType) : KqueueController ι :=
  if ctl.isIdle || !ctl.isOpen then ctl
  else
    match filter with
    | .read => (ctl.completeAwaitableAndWake .read .read done).dispatchOwner .read completed active
    | .write =>
      (ctl.completeAwaitableAndWake .write .write done).dispatchOwner .write completed active
    -- a file watcher is woken in any case
    | .vnode => ctl.completeAwaitableAndWake .vnode .read true

def step (ctl : KqueueController ι) : KqueueAction ι → Option (KqueueController ι)
  | .begin type blocked =>
    if (ctl.awaitable type.slot).isSome then none else some (ctl.begin type blocked)
  | .resume slot =>
    if (ctl.awaitable slot).any (·.woken) then some (ctl.setAwaitable slot none) else none
  | .expire slot => if (ctl.awaitable slot).isSome then some (ctl.wake slot) else none
  | .beginSequence i domain completed active =>
    if (ctl.sequences i).isSome then none else some (ctl.beginSequence i domain completed active)
  | .expireSequence i =>
    match ctl.sequences i with
    | none => none
    | some seq => some (ctl.setSequence i (some { seq with woken := true }))
  | .resumeSequence i =>
    match ctl.sequences i with
    | none => none
    | some seq => if seq.woken then some (ctl.releaseRegisteredDomain i seq) else none
  | .event filter done completed active => some (ctl.processEvent filter done completed active)
  | .close => some ctl.close

end KqueueController

end GalayKernel
