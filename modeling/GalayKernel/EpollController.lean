import Mathlib.Init

/-!
# Controllers of the epoll reactor

`IOController` (`kernel/io_controller.hpp`, `kernel/io_scheduler.hpp`) as the epoll build has it: a
descriptor with an awaitable in each of its two slots, the sequences that own the slots
(`kernel/awaitable.h`), and the mask last registered with the kernel.

The bits of `m_type` are those of the awaitables in the slots, and `SEQUENCE` while a sequence owns
a slot: a slot holds one awaitable at a time. The operations of `libaio` are left out.
-/

namespace GalayKernel

inductive IOSlot where
  | read
  | write
  deriving DecidableEq, Repr

/-- The bits `EPOLLIN` and `EPOLLOUT` of a mask. `EPOLLET` is set in each mask of the reactor. -/
structure EventMask where
  read : Bool
  write : Bool
  deriving DecidableEq, Repr

namespace EventMask

def empty : EventMask := ⟨false, false⟩

def has (m : EventMask) : IOSlot → Bool
  | .read => m.read
  | .write => m.write

def only : IOSlot → EventMask
  | .read => ⟨true, false⟩
  | .write => ⟨false, true⟩

def set (m : EventMask) (slot : IOSlot) (b : Bool) : EventMask :=
  match slot with
  | .read => { m with read := b }
  | .write => { m with write := b }

def union (m m' : EventMask) : EventMask := ⟨m.read || m'.read, m.write || m'.write⟩

def inter (m m' : EventMask) : EventMask := ⟨m.read && m'.read, m.write && m'.write⟩

end EventMask

inductive IOEventType where
  | accept
  | connect
  | recv
  | send
  | readv
  | writev
  | sendFile
  | fileWatch
  | recvFrom
  | sendTo
  deriving DecidableEq, Repr

/-- The slot of `fillAwaitable`, and the direction in `ioTypeToEpollEvents`. -/
def IOEventType.slot : IOEventType → IOSlot
  | .accept | .recv | .readv | .fileWatch | .recvFrom => .read
  | .connect | .send | .writev | .sendFile | .sendTo => .write

structure EpollAwaitable where
  type : IOEventType
  /-- its task has been woken and has not been resumed -/
  woken : Bool
  deriving DecidableEq, Repr

structure EpollSequence where
  /-- `activeEventType()`: the step that waits -/
  active : Option IOEventType
  woken : Bool
  deriving DecidableEq, Repr

def EpollSequence.waitsOn (seq : EpollSequence) (slot : IOSlot) : Bool :=
  seq.active.any (·.slot == slot)

def EpollSequence.interestMask (seq : EpollSequence) : EventMask :=
  ⟨seq.waitsOn .read, seq.waitsOn .write⟩

inductive SequenceOwnerDomain where
  | read
  | write
  | readWrite
  deriving DecidableEq, Repr

def SequenceOwnerDomain.usesSlot : SequenceOwnerDomain → IOSlot → Bool
  | .read, slot => slot == .read
  | .write, slot => slot == .write
  | .readWrite, _ => true

section Slots

variable {ι : Type} [DecidableEq ι]

/-- A sequence can claim a slot that has no awaitable and no other owner. -/
def canClaimSlot (free : Bool) (owner : Option ι) (i : ι) : Bool :=
  free && (owner = none || owner = some i)

/-- The owners after `claimRequestedDomain` -/
def SequenceOwnerDomain.claim (domain : SequenceOwnerDomain) (owner : IOSlot → Option ι) (i : ι) :
    IOSlot → Option ι :=
  fun slot => if domain.usesSlot slot then some i else owner slot

/-- The owners after `releaseRegisteredDomain` -/
def SequenceOwnerDomain.release (domain : SequenceOwnerDomain) (owner : IOSlot → Option ι)
    (i : ι) : IOSlot → Option ι :=
  fun slot => if domain.usesSlot slot && owner slot = some i then none else owner slot

/-- `collectSequenceInterestMask`; `mask` is `sequenceInterestMask(activeEventType())`. -/
def collectInterestMask (owner : IOSlot → Option ι) (mask : ι → EventMask) : EventMask :=
  match owner .read, owner .write with
  | none, none => .empty
  | some i, none => mask i
  | none, some j => mask j
  -- an owner of both slots is asked once
  | some i, some j => if j = i then mask i else (mask i).union (mask j)

end Slots

/-- `m_sequence_owner`: a sequence for each slot, or one that owns both. -/
inductive SequenceOwners where
  | separate (read write : Option EpollSequence)
  | shared (both : EpollSequence)
  deriving DecidableEq, Repr

namespace SequenceOwners

def owner : SequenceOwners → IOSlot → Option EpollSequence
  | .separate read _, .read => read
  | .separate _ write, .write => write
  | .shared both, _ => some both

def update (owners : SequenceOwners) (slot : IOSlot) (seq : EpollSequence) : SequenceOwners :=
  match owners, slot with
  | .separate _ write, .read => .separate (some seq) write
  | .separate read _, .write => .separate read (some seq)
  | .shared _, _ => .shared seq

/-- `claimRequestedDomain`, when the slots of the domain have no owner. -/
def claim : SequenceOwners → SequenceOwnerDomain → EpollSequence → Option SequenceOwners
  | .separate none write, .read, seq => some (.separate (some seq) write)
  | .separate read none, .write, seq => some (.separate read (some seq))
  | .separate none none, .readWrite, seq => some (.shared seq)
  | _, _, _ => none

/-- `releaseRegisteredDomain` of the sequence that owns the slot. -/
def release (owners : SequenceOwners) (slot : IOSlot) : SequenceOwners :=
  match owners, slot with
  | .separate _ write, .read => .separate none write
  | .separate read _, .write => .separate read none
  | .shared _, _ => .separate none none

def isShared : SequenceOwners → Bool
  | .separate _ _ => false
  | .shared _ => true

def interest (owners : SequenceOwners) : EventMask :=
  collectInterestMask owners.owner EpollSequence.interestMask

end SequenceOwners

structure EpollController where
  /-- a constructor or a move has made the controller -/
  constructed : Bool
  /-- `none` stands for the invalid handle -/
  handle : Option Nat
  /-- `none` stands for 0: not registered -/
  registeredEvents : Option EventMask
  awaitable : IOSlot → Option EpollAwaitable
  sequenceOwner : SequenceOwners
  sequenceInterestMask : EventMask

namespace EpollController

def resetMovedFrom : EpollController where
  constructed := true
  handle := none
  registeredEvents := none
  awaitable := fun _ => none
  sequenceOwner := .separate none none
  sequenceInterestMask := .empty

def new (fd : Nat) : EpollController := { resetMovedFrom with handle := some fd }

def hasSequence (ctl : EpollController) : Bool :=
  (ctl.sequenceOwner.owner .read).isSome || (ctl.sequenceOwner.owner .write).isSome

def isIdle (ctl : EpollController) : Bool :=
  (ctl.awaitable .read).isNone && (ctl.awaitable .write).isNone && !ctl.hasSequence

def setAwaitable (ctl : EpollController) (slot : IOSlot) (awaitable : Option EpollAwaitable) :
    EpollController :=
  { ctl with
    awaitable := fun slot' => if slot' = slot then awaitable else ctl.awaitable slot' }

def fillAwaitable (ctl : EpollController) (type : IOEventType) : EpollController :=
  ctl.setAwaitable type.slot (some ⟨type, false⟩)

def removeAwaitable (ctl : EpollController) (slot : IOSlot) : EpollController :=
  ctl.setAwaitable slot none

def wake (ctl : EpollController) (slot : IOSlot) : EpollController :=
  ctl.setAwaitable slot ((ctl.awaitable slot).map fun awaitable => { awaitable with woken := true })

/-- Changes the owners and does `syncSequenceInterestMask`. -/
def withOwners (ctl : EpollController) (owners : SequenceOwners) : EpollController :=
  { ctl with sequenceOwner := owners, sequenceInterestMask := owners.interest }

def buildEvents (ctl : EpollController) : EventMask :=
  let events : EventMask := ⟨(ctl.awaitable .read).isSome, (ctl.awaitable .write).isSome⟩
  if ctl.hasSequence then events.union ctl.sequenceInterestMask else events

/-- A task is suspended on the controller until the direction is ready. -/
def waits (ctl : EpollController) (slot : IOSlot) : Bool :=
  (ctl.awaitable slot).any (!·.woken) ||
    (ctl.sequenceOwner.owner .read).any (fun seq => !seq.woken && seq.waitsOn slot) ||
    (ctl.sequenceOwner.owner .write).any (fun seq => !seq.woken && seq.waitsOn slot)

end EpollController

end GalayKernel
