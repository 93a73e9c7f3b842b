import GalayKernel.StateMachine

/-!
# Queued steps

`SequenceAwaitable`, `SequenceOps` and the steps that can be queued (`kernel/awaitable.h`). A step
is named by its address. A handler works on a flow, of which nothing is known, and says through
`SequenceOps` what becomes of the queue.
-/

namespace GalayKernel

inductive ParseStatus where
  | kNeedMore
  | kContinue
  | kCompleted
  deriving DecidableEq, Repr

inductive SequenceOp (ρ : Type*) where
  | queue (step : Nat)
  | clear
  | complete (value : ρ)
  deriving DecidableEq, Repr

abbrev IOHandler (φ ρ : Type*) := IOOutcome → φ → φ × List (SequenceOp ρ)

abbrev LocalHandler (φ ρ : Type*) := φ → φ × List (SequenceOp ρ)

abbrev ParseHandler (φ ρ : Type*) := φ → ParseStatus × φ × List (SequenceOp ρ)

structure Invocation where
  step : Nat
  outcome : Option IOOutcome
  status : Option ParseStatus
  deriving DecidableEq, Repr

structure SequenceQueue (ρ : Type*) where
  /-- `m_tasks`, from `m_head` on -/
  tasks : List Nat
  result : Option ρ
  error : Option IOError
  /-- the process has been aborted, and nothing more happens -/
  aborted : Bool
  deriving DecidableEq, Repr

namespace SequenceQueue

variable {ρ : Type*}

def new (tasks : List Nat) : SequenceQueue ρ := ⟨tasks, none, none, false⟩

def emplaceTask (inlineN : Nat) (q : SequenceQueue ρ) (step : Nat) : SequenceQueue ρ :=
  if inlineN ≤ q.tasks.length then { q with aborted := true }
  else { q with tasks := q.tasks ++ [step] }

def clear (q : SequenceQueue ρ) : SequenceQueue ρ := { q with tasks := [] }

def complete (q : SequenceQueue ρ) (value : ρ) : SequenceQueue ρ :=
  { q with result := some value, tasks := [] }

def fail (q : SequenceQueue ρ) (error : IOError) : SequenceQueue ρ :=
  { q with error := some error, tasks := [] }

def popFront (q : SequenceQueue ρ) : SequenceQueue ρ := { q with tasks := q.tasks.tail }

def consumeFrontIfSame (q : SequenceQueue ρ) (step : Nat) : SequenceQueue ρ :=
  if q.tasks.head? = some step then q.popFront else q

def perform (inlineN : Nat) (q : SequenceQueue ρ) : SequenceOp ρ → SequenceQueue ρ
  | .queue step => q.emplaceTask inlineN step
  | .clear => q.clear
  | .complete value => q.complete value

def performAll (inlineN : Nat) (q : SequenceQueue ρ) (ops : List (SequenceOp ρ)) :
    SequenceQueue ρ :=
  ops.foldl (perform inlineN) q

end SequenceQueue

/-- `SequenceStep`, `LocalSequenceStep` and `ParserSequenceStep` -/
inductive SequenceTask (φ ρ : Type*) where
  | io (kind : ActiveKind) (handler : IOHandler φ ρ)
  | local_ (handler : LocalHandler φ ρ)
  | parser (handler : ParseHandler φ ρ) (rearmStep : Option Nat)

def SequenceTask.isLocal {φ ρ : Type*} : SequenceTask φ ρ → Bool
  | .io .. => false
  | _ => true

/-- What the handler finds in its context: a connect has no bytes. -/
def ActiveKind.received (kind : ActiveKind) (outcome : IOOutcome) : IOOutcome :=
  if kind = .kConnect then outcome.map fun _ => [] else outcome

structure SequenceAwaitable (φ ρ : Type*) where
  flow : φ
  queue : SequenceQueue ρ
  executed : List Invocation

namespace SequenceAwaitable

variable {φ ρ : Type*}

def new (flow : φ) (tasks : List Nat) : SequenceAwaitable φ ρ := ⟨flow, .new tasks, []⟩

variable (inlineN : Nat) (steps : Nat → SequenceTask φ ρ)

/-- `ParserSequenceStep::run` after its handler -/
def rearm (q : SequenceQueue ρ) (step : Nat) (rearmStep : Option Nat) :
    ParseStatus → SequenceQueue ρ
  | .kNeedMore =>
    match rearmStep with
    | none => q.fail ⟨.kParamInvalid, 0⟩
    | some read =>
      if (steps read).isLocal then q.fail ⟨.kParamInvalid, 0⟩
      else (q.emplaceTask inlineN read).emplaceTask inlineN step
  | .kContinue => q.emplaceTask inlineN step
  | .kCompleted => q

def onEvent (s : SequenceAwaitable φ ρ) (step : Nat) (outcome : Option IOOutcome) :
    Option (SequenceAwaitable φ ρ) :=
  match steps step, outcome with
  | .io kind handler, some outcome =>
    let (flow, ops) := handler (kind.received outcome) s.flow
    some ⟨flow, s.queue.performAll inlineN ops,
      s.executed ++ [⟨step, some (kind.received outcome), none⟩]⟩
  | .local_ handler, none =>
    let (flow, ops) := handler s.flow
    some ⟨flow, s.queue.performAll inlineN ops, s.executed ++ [⟨step, none, none⟩]⟩
  | .parser handler rearmStep, none =>
    let (status, flow, ops) := handler s.flow
    some ⟨flow, rearm inlineN steps (s.queue.performAll inlineN ops) step rearmStep status,
      s.executed ++ [⟨step, none, some status⟩]⟩
  | _, _ => none

/-- A round of `prepareForSubmit`, or `onActiveEvent`, in which the first step ends. While its
operation would block nothing changes, and with a result the task is woken. -/
def step (s : SequenceAwaitable φ ρ) (outcome : Option IOOutcome) :
    Option (SequenceAwaitable φ ρ) :=
  if s.queue.aborted || s.queue.result.isSome then none
  else
    match s.queue.tasks with
    | [] => none
    | task :: _ => (s.onEvent inlineN steps task outcome).map fun s =>
        { s with queue := s.queue.consumeFrontIfSame task }

end SequenceAwaitable

end GalayKernel
