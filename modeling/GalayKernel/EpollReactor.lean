import GalayKernel.EpollController
import GalayKernel.Errno
import GalayKernel.Lib.Coalesced
import Mathlib.Logic.Function.Basic

/-!
# The epoll reactor

`EpollReactor` (`kernel/epoll_reactor.cc`) with any number of controllers, and the kernel's side of
epoll: for each open descriptor its registration, the directions in which it is ready, and the
edges that `epoll_wait` has still to report. An arrival in a registered direction makes an edge,
and so does `EPOLL_CTL_ADD` or `EPOLL_CTL_MOD` for a direction that is ready.

All of this runs on the thread of one scheduler. Between `epoll_wait` and the last of its events no
task runs, but data may arrive. The results of system calls are part of the action: `Attempt` is
the result of an operation, `steps` lists the operations that a sequence makes in a row, and
`errors` are the errors of `epoll_ctl`. A sequence ends with the last of its steps, unless one of
them would block.
-/

namespace GalayKernel

variable {κ : Type}

/-- The result of an operation: whether the descriptor is still ready after it, or that it would
block. -/
inductive Attempt where
  | done (more : Bool)
  | blocked
  deriving DecidableEq, Repr

inductive CtlOp where
  | add
  | mod
  | del
  deriving DecidableEq, Repr

/-- The errno with which `epoll_ctl` fails for a descriptor. -/
abbrev CtlErrors : Type := CtlOp → Nat → Option Nat

structure EpollFile (κ : Type) where
  /-- the mask and `data.ptr` -/
  registration : Option (EventMask × κ)
  ready : EventMask
  edge : EventMask

namespace EpollFile

def opened : EpollFile κ := ⟨none, .empty, .empty⟩

def ctl (file : EpollFile κ) (op : CtlOp) (c : κ) (events : EventMask) : Except Nat (EpollFile κ) :=
  match op with
  | .add =>
    if file.registration.isSome then .error EEXIST
    else .ok { file with registration := some (events, c), edge := file.ready.inter events }
  | .mod =>
    if file.registration.isNone then .error ENOENT
    else .ok { file with
      registration := some (events, c)
      edge := (file.edge.union file.ready).inter events }
  | .del =>
    if file.registration.isNone then .error ENOENT
    else .ok { file with registration := none, edge := .empty }

def arrive (file : EpollFile κ) (slot : IOSlot) : EpollFile κ :=
  { file with
    ready := file.ready.set slot true
    edge := if file.registration.any (·.1.has slot) then file.edge.set slot true else file.edge }

def attempt (file : EpollFile κ) (slot : IOSlot) : Attempt → EpollFile κ
  | .done more => { file with ready := file.ready.set slot (file.ready.has slot && more) }
  | .blocked => { file with ready := file.ready.set slot false }

end EpollFile

structure EpollReactor (κ : Type) where
  controllers : κ → EpollController
  pendingChanges : List (κ × EventMask)
  files : Nat → Option (EpollFile κ)
  /-- the events of the last `epoll_wait` that have not been processed -/
  events : List (κ × EventMask)

inductive EpollAction (κ : Type) where
  | create (c : κ) (fd : Nat)
  | begin (c : κ) (type : IOEventType) (attempt : Attempt)
  | beginSequence (c : κ) (domain : SequenceOwnerDomain) (steps : List (IOEventType × Attempt))
  | resume (c : κ) (slot : IOSlot)
  | resumeSequence (c : κ) (slot : IOSlot)
  | expire (c : κ) (slot : IOSlot)
  /-- a timer wakes the task, and the state machine goes on to the step `active` -/
  | expireSequence (c : κ) (slot : IOSlot) (active : Option IOEventType)
  | close (c : κ)
  | move (c c' : κ)
  | flush
  /-- `batch` lists the descriptors that `epoll_wait` reports -/
  | poll (batch : List (Nat × EventMask))
  | process (read write : Attempt) (readSteps writeSteps : List (IOEventType × Attempt))
  | arrive (fd : Nat) (slot : IOSlot)

namespace EpollReactor

variable [DecidableEq κ]

def init : EpollReactor κ where
  controllers := fun _ => { EpollController.resetMovedFrom with constructed := false }
  pendingChanges := []
  files := fun _ => none
  events := []

def setController (s : EpollReactor κ) (c : κ) (ctl : EpollController) : EpollReactor κ :=
  { s with controllers := Function.update s.controllers c ctl }

def setFile (s : EpollReactor κ) (fd : Nat) (file : Option (EpollFile κ)) : EpollReactor κ :=
  { s with files := Function.update s.files fd file }

def setRegistered (s : EpollReactor κ) (c : κ) (events : Option EventMask) : EpollReactor κ :=
  s.setController c { s.controllers c with registeredEvents := events }

/-- `epoll_ctl`, repeated while it is interrupted. The result is `none` when that never ends. -/
def epollCtl (s : EpollReactor κ) (errors : CtlErrors) (op : CtlOp) (fd : Nat) (c : κ)
    (events : EventMask) : Option (Except Nat (EpollReactor κ)) :=
  match errors op fd with
  | some errno => if errno = EINTR then none else some (.error errno)
  | none =>
    match s.files fd with
    | none => some (.error EBADF)
    | some file =>
      match file.ctl op c events with
      | .error errno => some (.error errno)
      | .ok file => some (.ok (s.setFile fd (some file)))

def addRegistration (s : EpollReactor κ) (errors : CtlErrors) (fd : Nat) (c : κ)
    (events : EventMask) : Option (EpollReactor κ × Bool) :=
  match s.epollCtl errors .add fd c events with
  | none => none
  | some (.ok s) => some (s.setRegistered c (some events), true)
  | some (.error _) => some (s, false)

def modifyRegistration (s : EpollReactor κ) (errors : CtlErrors) (fd : Nat) (c : κ)
    (events : EventMask) : Option (EpollReactor κ × Bool) :=
  match s.epollCtl errors .mod fd c events with
  | none => none
  | some (.ok s) => some (s.setRegistered c (some events), true)
  | some (.error errno) =>
    if errno = ENOENT then s.addRegistration errors fd c events else some (s, false)

def deleteRegistration (s : EpollReactor κ) (errors : CtlErrors) (fd : Nat) (c : κ) :
    Option (EpollReactor κ × Bool) :=
  match s.epollCtl errors .del fd c .empty with
  | none => none
  | some (.ok s) => some (s.setRegistered c none, true)
  | some (.error errno) =>
    if errno = ENOENT then some (s.setRegistered c none, true) else some (s, false)

/-- The body of the loop of `flushPendingChanges`: `true` when the change is erased, `false` when
the function returns `-1`. -/
def commit (s : EpollReactor κ) (errors : CtlErrors) (c : κ) (events : EventMask) :
    Option (EpollReactor κ × Bool) :=
  match (s.controllers c).handle with
  | none => some (s, true)
  | some fd =>
    match (s.controllers c).registeredEvents with
    | none => if events = .empty then some (s, true) else s.addRegistration errors fd c events
    | some registered =>
      if events = registered then some (s, true)
      else if events = .empty then s.deleteRegistration errors fd c
      else s.modifyRegistration errors fd c events

def flushChanges (errors : CtlErrors) :
    List (κ × EventMask) → EpollReactor κ → Option (EpollReactor κ × Bool)
  | [], s => some ({ s with pendingChanges := [] }, true)
  | (c, events) :: rest, s =>
    match s.commit errors c events with
    | none => none
    | some (s, true) => flushChanges errors rest s
    | some (s, false) => some ({ s with pendingChanges := (c, events) :: rest }, false)

def flushPendingChanges (s : EpollReactor κ) (errors : CtlErrors) :
    Option (EpollReactor κ × Bool) :=
  flushChanges errors s.pendingChanges s

def BATCH_THRESHOLD : Nat := 32

/-- The end of `applyEvents`: a long queue is flushed. -/
def flushBatch (s : EpollReactor κ) (errors : CtlErrors) : Option (EpollReactor κ × Bool) :=
  if s.pendingChanges.length ≥ BATCH_THRESHOLD then s.flushPendingChanges errors
  else some (s, true)

def applyEvents (s : EpollReactor κ) (errors : CtlErrors) (c : κ) (events : EventMask) :
    Option (EpollReactor κ × Bool) :=
  if (s.controllers c).handle.isNone then some (s, false)
  else if some events = (s.controllers c).registeredEvents then
    some ({ s with pendingChanges := Coalesced.drop s.pendingChanges c }, true)
  else if s.pendingChanges.lookup c = some events then some (s, true)
  else
    { s with pendingChanges := Coalesced.put s.pendingChanges c events }.flushBatch errors

def register (s : EpollReactor κ) (errors : CtlErrors) (c : κ) : Option (EpollReactor κ × Bool) :=
  s.applyEvents errors c (s.controllers c).buildEvents

/-- Registers the controller, and takes its new awaiter back when that fails. -/
def registerOr (s : EpollReactor κ) (errors : CtlErrors) (c : κ)
    (undo : EpollController → EpollController) : Option (EpollReactor κ) :=
  match s.register errors c with
  | none => none
  | some (s, true) => some s
  | some (s, false) => some (s.setController c (undo (s.controllers c)))

def attempt (s : EpollReactor κ) (c : κ) (slot : IOSlot) (a : Attempt) : EpollReactor κ :=
  match (s.controllers c).handle with
  | none => s
  | some fd => s.setFile fd ((s.files fd).map (·.attempt slot a))

/-- `addAccept`, `addConnect` and so on: each tries the operation first, except `addFileWatch`. -/
def begin (s : EpollReactor κ) (errors : CtlErrors) (c : κ) (type : IOEventType) (a : Attempt) :
    Option (EpollReactor κ) :=
  let ctl := s.controllers c
  if (ctl.sequenceOwner.owner type.slot).isSome || ctl.handle.isNone then some s
  else if type != .fileWatch && a != .blocked then some (s.attempt c type.slot a)
  else
    let tried := if type = .fileWatch then s else s.attempt c type.slot a
    (tried.setController c (ctl.fillAwaitable type)).registerOr errors c
      (·.removeAwaitable type.slot)

/-- The operations that a sequence makes, until one would block. `FileWatchIOContext` is always
complete. -/
def runSteps (s : EpollReactor κ) (c : κ) :
    List (IOEventType × Attempt) → EpollReactor κ × Option IOEventType
  | [] => (s, none)
  | (type, a) :: steps =>
    if type = .fileWatch then s.runSteps c steps
    else if a = .blocked then (s.attempt c type.slot a, some type)
    else (s.attempt c type.slot a).runSteps c steps

def beginSequence (s : EpollReactor κ) (errors : CtlErrors) (c : κ) (domain : SequenceOwnerDomain)
    (steps : List (IOEventType × Attempt)) : Option (EpollReactor κ) :=
  let ctl := s.controllers c
  let tried := s.runSteps c steps
  if ctl.handle.isNone || (domain.usesSlot .read && (ctl.awaitable .read).isSome) ||
    (domain.usesSlot .write && (ctl.awaitable .write).isSome) then some s
  else
    match ctl.sequenceOwner.claim domain ⟨tried.2, false⟩ with
    | none => some s
    | some owners =>
      if tried.2.isNone then some (tried.1.setController c (ctl.withOwners ctl.sequenceOwner))
      else
        (tried.1.setController c (ctl.withOwners owners)).registerOr errors c
          (·.withOwners ctl.sequenceOwner)

def close (s : EpollReactor κ) (c : κ) : EpollReactor κ :=
  match (s.controllers c).handle with
  | none => s
  | some fd =>
    { s with pendingChanges := Coalesced.drop s.pendingChanges c }.setController c
      .resetMovedFrom |>.setFile fd none

def move (s : EpollReactor κ) (c c' : κ) : EpollReactor κ :=
  (s.setController c' (s.controllers c)).setController c .resetMovedFrom

/-- `epoll_wait` reports a descriptor: all its edges, and maybe more (`EPOLLERR`). -/
def wait (s : EpollReactor κ) : List (Nat × EventMask) → Option (EpollReactor κ)
  | [] => some s
  | (fd, events) :: batch =>
    match s.files fd with
    | none => none
    | some file =>
      match file.registration with
      | none => none
      | some (_, c) =>
        if file.edge ≠ .empty ∧ file.edge.union events = events then
          wait { s.setFile fd (some { file with edge := .empty }) with
            events := s.events ++ [(c, events)] } batch
        else none

def poll (s : EpollReactor κ) (errors : CtlErrors) (batch : List (Nat × EventMask)) :
    Option (EpollReactor κ) :=
  match s.flushPendingChanges errors with
  | none => none
  | some (s, false) => some s
  | some (s, true) => s.wait batch

/-- The awaitable in the slot tries its operation. A file watcher is woken in any case. -/
def completeAwaitableAndWake (s : EpollReactor κ) (c : κ) (slot : IOSlot) (a : Attempt) :
    EpollReactor κ :=
  match (s.controllers c).awaitable slot with
  | none => s
  | some awaitable =>
    if awaitable.type != .fileWatch && a == .blocked then s.attempt c slot a
    else (s.attempt c slot a).setController c ((s.controllers c).wake slot)

/-- `dispatch_owner` for the owner of the slot. Its first operation is that of the active step. -/
def dispatchOwner (s : EpollReactor κ) (errors : CtlErrors) (c : κ) (slot : IOSlot)
    (steps : List (IOEventType × Attempt)) : Option (EpollReactor κ) :=
  let ctl := s.controllers c
  match ctl.sequenceOwner.owner slot with
  | none => some s
  | some seq =>
    let tried := s.runSteps c steps
    if steps.head?.map Prod.fst ≠ seq.active then none
    else if tried.2.isNone then
      some (tried.1.setController c (ctl.withOwners (ctl.sequenceOwner.update slot ⟨none, true⟩)))
    else
      let owners := ctl.sequenceOwner.update slot { seq with active := tried.2 }
      (tried.1.setController c (ctl.withOwners owners)).registerOr errors c
        (·.withOwners (owners.update slot ⟨tried.2, true⟩))

def syncEvents (s : EpollReactor κ) (errors : CtlErrors) (c : κ) : Option (EpollReactor κ) :=
  let ctl := s.controllers c
  let synced := if ctl.hasSequence then s.setController c (ctl.withOwners ctl.sequenceOwner) else s
  match synced.register errors c with
  | none => none
  | some (s, _) => some s

def ownerWaits (s : EpollReactor κ) (c : κ) (slot : IOSlot) : Bool :=
  ((s.controllers c).sequenceOwner.owner slot).any (·.waitsOn slot)

/-- The sequences of `processEvent`. An owner of both slots is dispatched once. -/
def dispatchOwners (s : EpollReactor κ) (errors : CtlErrors) (c : κ) (events : EventMask)
    (readSteps writeSteps : List (IOEventType × Attempt)) : Option (EpollReactor κ) :=
  let dispatched := events.read && s.ownerWaits c .read
  match (if dispatched then s.dispatchOwner errors c .read readSteps else some s) with
  | none => none
  | some s =>
    if events.write && s.ownerWaits c .write &&
      !(dispatched && (s.controllers c).sequenceOwner.isShared) then
      s.dispatchOwner errors c .write writeSteps
    else some s

def processEvent (s : EpollReactor κ) (errors : CtlErrors) (c : κ) (events : EventMask)
    (read write : Attempt) (readSteps writeSteps : List (IOEventType × Attempt)) :
    Option (EpollReactor κ) :=
  if (s.controllers c).isIdle then some s
  else
    let s := if events.read then s.completeAwaitableAndWake c .read read else s
    let s := if events.write then s.completeAwaitableAndWake c .write write else s
    match s.dispatchOwners errors c events readSteps writeSteps with
    | none => none
    | some s => s.syncEvents errors c

def step (s : EpollReactor κ) : CtlErrors × EpollAction κ → Option (EpollReactor κ)
  | (_, .arrive fd slot) =>
    match s.files fd with
    | none => none
    | some file => some (s.setFile fd (some (file.arrive slot)))
  | (errors, .process read write readSteps writeSteps) =>
    match s.events with
    | [] => none
    | (c, events) :: rest =>
      { s with events := rest }.processEvent errors c events read write readSteps writeSteps
  | (errors, a) =>
    -- the tasks run when all events have been processed
    if s.events ≠ [] then none
    else
      match a with
      | .create c fd =>
        if (s.controllers c).constructed || (s.files fd).isSome then none
        else some ((s.setController c (.new fd)).setFile fd (some .opened))
      | .begin c type a =>
        if ((s.controllers c).awaitable type.slot).isSome then none else s.begin errors c type a
      | .beginSequence c domain steps => s.beginSequence errors c domain steps
      | .resume c slot =>
        if ((s.controllers c).awaitable slot).any (·.woken) then
          some (s.setController c ((s.controllers c).removeAwaitable slot))
        else none
      | .resumeSequence c slot =>
        let owners := (s.controllers c).sequenceOwner
        if (owners.owner slot).any (·.woken) then
          some (s.setController c ((s.controllers c).withOwners (owners.release slot)))
        else none
      | .expire c slot =>
        if ((s.controllers c).awaitable slot).isSome then
          some (s.setController c ((s.controllers c).wake slot))
        else none
      | .expireSequence c slot active =>
        let ctl := s.controllers c
        if (ctl.sequenceOwner.owner slot).isSome then
          some (s.setController c
            { ctl with sequenceOwner := ctl.sequenceOwner.update slot ⟨active, true⟩ })
        else none
      | .close c => some (s.close c)
      | .move c c' =>
        if (s.controllers c').constructed || !(s.controllers c).constructed ||
          !(s.controllers c).isIdle then none
        else some (s.move c c')
      | .flush => (s.flushPendingChanges errors).map Prod.fst
      | .poll batch => s.poll errors batch
      | _ => none

end EpollReactor

end GalayKernel
