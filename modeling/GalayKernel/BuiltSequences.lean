import GalayKernel.LinearMachine
import GalayKernel.SequenceOwnership
import GalayKernel.StateMachineDriver

/-!
# Sequences made by the builder

The awaitables that `AwaitableBuilder::buildImpl` makes of chains of steps (`kernel/awaitable.h`),
on one controller of the epoll reactor (`kernel/epoll_reactor.cc`). The controller and what the
sequences own of it are those of `OwnershipState`; which step of a sequence waits is computed by its
machine, for any flow and any handlers. `SequenceObject.active` repeats `activeEventType()`.

What the kernel answers is a parameter of each action: the outcomes of the operations that succeed
at once, and the results of the registrations. Plain operations may use the controller as well.
-/

namespace GalayKernel

def ActiveKind.eventType : ActiveKind → KqueueEventType
  | .kRead => .recv
  | .kReadv => .readv
  | .kWrite => .send
  | .kWritev => .writev
  | .kConnect => .connect

namespace StateMachineDriver

variable {σ ρ : Type*}

def activeEventType (d : StateMachineDriver σ ρ) : Option KqueueEventType :=
  if d.hasActiveTask then d.activeTask.map (·.kind.eventType) else none

/-- `m_error` is written by `suspendSequenceAwaitable`. -/
def setError (d : StateMachineDriver σ ρ) (error : IOError) : StateMachineDriver σ ρ :=
  { d with error := some error }

end StateMachineDriver

namespace LinearMachine

variable {φ ρ : Type*}

def Node.isWrite : Node φ ρ → Bool
  | .io request _ =>
    request.kind = .kWrite || request.kind = .kWritev || request.kind = .kConnect
  | _ => false

/-- The domain that `buildImpl` chooses. Its loop stops as soon as both kinds have been found. -/
def ownerDomain (nodes : List (Node φ ρ)) : SequenceOwnerDomain :=
  let hasRead := nodes.any Node.isRead
  let hasWrite := nodes.any Node.isWrite
  if hasRead && hasWrite then .readWrite
  else if hasRead then .read
  else if hasWrite then .write
  else .readWrite

end LinearMachine

structure BuiltSubmit where
  outcomes : List IOOutcome
  onIOScheduler : Bool
  ret : Int
  errno : Nat

structure BuiltSequences (π ι φ ρ : Type) where
  ownership : OwnershipState π ι
  drivers : ι → Option (StateMachineDriver (LinearMachine φ ρ) ρ)

inductive BuiltAction (π ι φ ρ : Type) where
  | beginPlain (p : π) (type : KqueueEventType) (submit : PlainSubmit)
  | resumePlain (slot : IOSlot)
  | close
  | build (i : ι) (builder : AwaitableBuilder φ ρ) (flow : φ)
  | await (i : ι) (submit : BuiltSubmit)
  /-- an event for the directions `reported`, with the outcomes of what the owners try -/
  | processEvent (reported : EventMask) (outcomes : IOSlot → List IOOutcome)
  /-- the task goes on; with `timedOut`, `markTimeout` is called first -/
  | resume (i : ι) (timedOut : Bool)

namespace BuiltSequences

variable {π ι φ ρ : Type} [DecidableEq ι]

def new (isOpen : Bool) : BuiltSequences π ι φ ρ := ⟨.new isOpen, fun _ => none⟩

def build (s : BuiltSequences π ι φ ρ) (i : ι) (builder : AwaitableBuilder φ ρ) (flow : φ) :
    BuiltSequences π ι φ ρ where
  ownership := s.ownership.setSequence i (.new (LinearMachine.ownerDomain builder.nodes))
  drivers := Function.update s.drivers i (some (.new (builder.build flow)))

variable (M : StateMachine (LinearMachine φ ρ) ρ)

def normalizeAwaitableErrno (ret : Int) (errno : Nat) : Nat :=
  if ret < 0 ∧ ret ≠ -1 then (-ret).toNat else errno

def suspendedDriver (s : BuiltSequences π ι φ ρ) (i : ι)
    (d : StateMachineDriver (LinearMachine φ ρ) ρ) (submit : BuiltSubmit) :
    StateMachineDriver (LinearMachine φ ρ) ρ :=
  let reset := s.ownership.setSequence i { s.ownership.sequences i with registered := false }
  if (reset.claimRequestedDomain i).isNone then d.setError ⟨.kNotReady, 0⟩
  else
    match d.prepareForSubmit M submit.outcomes with
    | (.kCompleted, d') => d'
    | (.kNeedWait, d') =>
      if !submit.onIOScheduler then d'.setError ⟨.kNotRunningOnIOScheduler, submit.errno⟩
      else
        let ret := s.ownership.registerIOSchedulerEvent submit.ret
        if ret < 0 then d'.setError ⟨.kNotReady, normalizeAwaitableErrno ret submit.errno⟩ else d'

def await (s : BuiltSequences π ι φ ρ) (i : ι) (d : StateMachineDriver (LinearMachine φ ρ) ρ)
    (submit : BuiltSubmit) : BuiltSequences π ι φ ρ :=
  let prepared := d.prepareForSubmit M submit.outcomes
  { ownership := s.ownership.awaitSequence i
      ⟨prepared.1 = .kCompleted, prepared.2.activeEventType, submit.onIOScheduler, submit.ret⟩
    drivers := Function.update s.drivers i (some (s.suspendedDriver M i d submit)) }

def setDriver (s : BuiltSequences π ι φ ρ) (i : ι)
    (d : StateMachineDriver (LinearMachine φ ρ) ρ) : BuiltSequences π ι φ ρ where
  ownership := s.ownership.setSequence i
    { s.ownership.sequences i with active := d.activeEventType }
  drivers := Function.update s.drivers i (some d)

def sync (s : BuiltSequences π ι φ ρ) : BuiltSequences π ι φ ρ :=
  { s with ownership := s.ownership.syncSequenceInterestMask }

/-- `dispatch_owner`: the mask is written whether the sequence is done or goes on -/
def dispatchOwner (s : BuiltSequences π ι φ ρ) (i : ι) (outcomes : List IOOutcome) :
    BuiltSequences π ι φ ρ :=
  match s.drivers i with
  | some d => (s.setDriver i (d.onActiveEvent M outcomes).2).sync
  -- every owner has been built
  | none => s

/-- One direction of `processEvent`: the owner that was called, unless it is `dispatched` -/
def dispatchSlot (s : BuiltSequences π ι φ ρ) (slot : IOSlot) (dispatched : Option ι)
    (outcomes : List IOOutcome) : Option ι × BuiltSequences π ι φ ρ :=
  match s.ownership.controller.sequenceOwner slot with
  | some i =>
    if dispatched ≠ some i ∧ (s.ownership.sequences i).waitsOn slot then
      (some i, s.dispatchOwner M i outcomes)
    else (none, s)
  | none => (none, s)

def processSequences (s : BuiltSequences π ι φ ρ) (reported : EventMask)
    (outcomes : IOSlot → List IOOutcome) : List (IOSlot × ι) × BuiltSequences π ι φ ρ :=
  if s.ownership.controller.type.sequence then
    let first := if reported.read then s.dispatchSlot M .read none (outcomes .read) else (none, s)
    let second :=
      if reported.write then first.2.dispatchSlot M .write first.1 (outcomes .write)
      else (none, first.2)
    (first.1.toList.map (IOSlot.read, ·) ++ second.1.toList.map (IOSlot.write, ·), second.2)
  else ([], s)

def processEvent (s : BuiltSequences π ι φ ρ) (reported : EventMask)
    (outcomes : IOSlot → List IOOutcome) : BuiltSequences π ι φ ρ :=
  let s' := (s.processSequences M reported outcomes).2
  if s'.ownership.controller.type.sequence then s'.sync else s'

def resume (s : BuiltSequences π ι φ ρ) (i : ι) (d : StateMachineDriver (LinearMachine φ ρ) ρ) :
    BuiltSequences π ι φ ρ :=
  let s' := s.setDriver i d
  { s' with
    ownership := { s'.ownership.onCompleted i with
      suspended := Function.update s'.ownership.suspended i false } }

variable (inlineN : Nat) (fromError : Option (IOError → ρ))

def step (s : BuiltSequences π ι φ ρ) :
    BuiltAction π ι φ ρ → Option (BuiltSequences π ι φ ρ)
  | .beginPlain p type submit =>
    (s.ownership.step (.beginPlain p type submit)).map fun ownership =>
      { s with ownership := ownership }
  | .resumePlain slot =>
    (s.ownership.step (.resumePlain slot)).map fun ownership => { s with ownership := ownership }
  | .close => some { s with ownership := s.ownership.close }
  | .build i builder flow => if s.ownership.suspended i then none else some (s.build i builder flow)
  | .await i submit =>
    match s.drivers i with
    | none => none
    | some d =>
      if s.ownership.suspended i then none
      -- `await_ready`
      else if d.awaitReady then some { s with ownership := s.ownership.onCompleted i }
      else some (s.await (LinearMachine.machine inlineN fromError) i d submit)
  | .processEvent reported outcomes =>
    some (s.processEvent (LinearMachine.machine inlineN fromError) reported outcomes)
  | .resume i timedOut =>
    match s.drivers i with
    | none => none
    | some d =>
      if s.ownership.suspended i then
        some (s.resume i
          (if timedOut then d.markTimeout (LinearMachine.machine inlineN fromError) else d))
      else none

end BuiltSequences

end GalayKernel
