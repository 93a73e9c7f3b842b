import GalayKernel.IOError
import GalayKernel.Lib.Loop
import Mathlib.Data.List.Basic

/-!
# Awaiting a state machine

`MachineAction` and `StateMachineAwaitable` (`kernel/awaitable.h`), with the calls that its
scheduler makes: `prepareForSubmit` from `await_suspend`, and `onActiveEvent` whenever the active
operation may have ended. The controller is free and the task runs on an IO scheduler, so that the
awaitable is registered. How long a loop runs is bounded by `kInlineTransitionCap`.
-/

namespace GalayKernel

/-- How an operation has ended. The source keeps the number of bytes that were moved; a handler of
a read also finds the bytes in its buffer. -/
abbrev IOOutcome := Except IOError (List UInt8)

inductive SequenceProgress where
  | kNeedWait
  | kCompleted
  deriving DecidableEq, Repr

/-- `ActiveKind` without `kNone` -/
inductive ActiveKind where
  | kRead
  | kReadv
  | kWrite
  | kWritev
  | kConnect
  deriving DecidableEq, Repr

structure IORequest where
  kind : ActiveKind
  /-- `read_buffer`, `write_buffer` or `iovecs`; `none` is the null pointer -/
  buffer : Option Nat
  length : Nat
  host : Nat
  deriving DecidableEq, Repr

inductive MachineAction (ρ : Type*) where
  | continue_
  | wait (request : IORequest)
  | complete (result : Option ρ)
  | fail (error : Option IOError)
  deriving Repr

/-- `AwaitableStateMachine`; a machine need not have `onConnect` -/
structure StateMachine (σ ρ : Type*) where
  advance : σ → MachineAction ρ × σ
  onRead : IOOutcome → σ → σ
  onWrite : IOOutcome → σ → σ
  onConnect : Option (Except IOError Unit → σ → σ)

inductive MachineCall where
  | advance
  | onRead (outcome : IOOutcome)
  | onWrite (outcome : IOOutcome)
  | onConnect (outcome : Except IOError Unit)
  deriving DecidableEq, Repr

/-- The loops that `kInlineTransitionCap` bounds. -/
inductive InlineLoop where
  | pump
  | prepareForSubmit
  deriving DecidableEq, Repr

structure StateMachineAwaitable (σ ρ : Type*) where
  machine : σ
  active : Option IORequest
  result : Option ρ
  error : Option IOError
  calls : List MachineCall
  /-- the loop that has run out of rounds -/
  exhausted : Option InlineLoop

def kInlineTransitionCap : Nat := 64

namespace StateMachineAwaitable

variable {σ ρ : Type*}

def new (machine : σ) : StateMachineAwaitable σ ρ := ⟨machine, none, none, none, [], none⟩

def awaitReady (s : StateMachineAwaitable σ ρ) : Bool := s.result.isSome || s.error.isSome

def invalid (s : StateMachineAwaitable σ ρ) : StateMachineAwaitable σ ρ :=
  { s with error := some ⟨.kParamInvalid, 0⟩, active := none }

def exhaust (s : StateMachineAwaitable σ ρ) (loop : InlineLoop) : StateMachineAwaitable σ ρ :=
  { s.invalid with exhausted := some loop }

/-- `await_resume`; `fromError` makes a result of an error, and the process is aborted where there
is none -/
def awaitResume (s : StateMachineAwaitable σ ρ) (fromError : Option (IOError → ρ)) (errno : Nat) :
    Option ρ :=
  match s.result with
  | some result => some result
  | none => fromError.map fun f => f (s.error.getD ⟨.kNotReady, errno⟩)

variable (M : StateMachine σ ρ)

def deliverConnect (s : StateMachineAwaitable σ ρ) (outcome : Except IOError Unit) :
    StateMachineAwaitable σ ρ :=
  match M.onConnect with
  | some onConnect => { s with
      machine := onConnect outcome s.machine
      calls := s.calls ++ [.onConnect outcome] }
  | none =>
    match outcome with
    | .error error => { s with error := some error }
    | .ok () => { s with error := some ⟨.kParamInvalid, 0⟩ }

def deliver (s : StateMachineAwaitable σ ρ) (kind : ActiveKind) (outcome : IOOutcome) :
    StateMachineAwaitable σ ρ :=
  let s := { s with active := none }
  match kind with
  | .kRead | .kReadv => { s with
      machine := M.onRead outcome s.machine
      calls := s.calls ++ [.onRead outcome] }
  | .kWrite | .kWritev => { s with
      machine := M.onWrite outcome s.machine
      calls := s.calls ++ [.onWrite outcome] }
  | .kConnect => s.deliverConnect M (outcome.map fun _ => ())

/-- What `pump` does with an action: it goes on, or returns. -/
def act (s : StateMachineAwaitable σ ρ) :
    MachineAction ρ → StateMachineAwaitable σ ρ ⊕ SequenceProgress × StateMachineAwaitable σ ρ
  | .continue_ => .inl s
  | .wait request =>
    if request.kind = .kConnect then .inr (.kNeedWait, { s with active := some request })
    else if request.buffer = none ∧ request.length ≠ 0 then .inr (.kCompleted, s.invalid)
    else if request.length = 0 then .inl (s.deliver M request.kind (.ok []))
    else .inr (.kNeedWait, { s with active := some request })
  | .complete none => .inr (.kCompleted, s.invalid)
  | .complete (some result) =>
    .inr (.kCompleted, { s with result := some result, active := none })
  | .fail error =>
    .inr (.kCompleted, { s with error := some (error.getD ⟨.kParamInvalid, 0⟩), active := none })

def pumpOnce (s : StateMachineAwaitable σ ρ) :
    StateMachineAwaitable σ ρ ⊕ SequenceProgress × StateMachineAwaitable σ ρ :=
  if s.awaitReady then .inr (.kCompleted, s)
  else if s.active.isSome then .inr (.kNeedWait, s)
  else
    let (action, machine) := M.advance s.machine
    act M { s with machine := machine, calls := s.calls ++ [.advance] } action

def pump (s : StateMachineAwaitable σ ρ) : SequenceProgress × StateMachineAwaitable σ ρ :=
  match Loop.runFor (pumpOnce M) kInlineTransitionCap s with
  | .inl s => (.kCompleted, s.exhaust .pump)
  | .inr out => out

/-- A round of `prepareForSubmit`, with the outcomes of the attempts that succeed; the attempt
after them would block. -/
def prepareOnce : StateMachineAwaitable σ ρ × List IOOutcome →
    (StateMachineAwaitable σ ρ × List IOOutcome) ⊕ SequenceProgress × StateMachineAwaitable σ ρ
  | (s, outcomes) =>
    match s.pump M with
    | (.kCompleted, s) => .inr (.kCompleted, s)
    | (.kNeedWait, s) =>
      match s.active, outcomes with
      | none, _ => .inr (.kCompleted, s)
      | some _, [] => .inr (.kNeedWait, s)
      | some request, outcome :: outcomes => .inl (s.deliver M request.kind outcome, outcomes)

def prepareForSubmit (s : StateMachineAwaitable σ ρ) (outcomes : List IOOutcome) :
    SequenceProgress × StateMachineAwaitable σ ρ :=
  match Loop.runFor (prepareOnce M) kInlineTransitionCap (s, outcomes) with
  | .inl (s, _) => (.kCompleted, s.exhaust .prepareForSubmit)
  | .inr out => out

def onActiveEvent (s : StateMachineAwaitable σ ρ) (outcomes : List IOOutcome) :
    SequenceProgress × StateMachineAwaitable σ ρ :=
  match s.active, outcomes with
  | none, _ => s.prepareForSubmit M outcomes
  | some _, [] => (.kNeedWait, s)
  | some request, outcome :: outcomes =>
    (s.deliver M request.kind outcome).prepareForSubmit M outcomes

/-- `onActiveEvent` for a completion; `none` when `handleComplete` goes on waiting -/
def onCompletion (s : StateMachineAwaitable σ ρ) (outcome : Option IOOutcome) :
    SequenceProgress × StateMachineAwaitable σ ρ :=
  match s.active, outcome with
  | none, _ => s.pump M
  | some _, none => (.kNeedWait, s)
  | some request, some outcome => (s.deliver M request.kind outcome).pump M

end StateMachineAwaitable

/-- When the operations of an awaitable end. -/
inductive Schedule where
  /-- the outcomes of the attempts that succeed in `await_suspend` and at each readiness event -/
  | reactor (submitted : List IOOutcome) (events : List (List IOOutcome))
  | uring (completions : List (Option IOOutcome))
  deriving DecidableEq, Repr

def Schedule.outcomes : Schedule → List IOOutcome
  | .reactor submitted events => submitted ++ events.flatten
  | .uring completions => completions.reduceOption

namespace StateMachineAwaitable

variable {σ ρ ε : Type*}

/-- The events of a suspended awaitable, until it is woken. -/
def handleEvents (handle : StateMachineAwaitable σ ρ → ε →
    SequenceProgress × StateMachineAwaitable σ ρ) :
    SequenceProgress × StateMachineAwaitable σ ρ → List ε → StateMachineAwaitable σ ρ
  | (_, s), [] => s
  | (.kCompleted, s), _ :: _ => s
  | (.kNeedWait, s), event :: events => handleEvents handle (handle s event) events

def await (M : StateMachine σ ρ) (machine : σ) : Schedule → StateMachineAwaitable σ ρ
  | .reactor submitted events =>
    handleEvents (onActiveEvent M) ((new machine).prepareForSubmit M submitted) events
  | .uring completions => handleEvents (onCompletion M) ((new machine).pump M) completions

end StateMachineAwaitable

end GalayKernel
