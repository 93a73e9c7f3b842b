import GalayKernel.StateMachine

/-!
# The driver of a state machine

`StateMachineAwaitable` (`kernel/awaitable.h`, lines 1781–2123) with the fields as the source has
them: the active task, its flag and its kind are written separately, and so are the result and its
flag. The calls may come in any order and number, also after the awaitable has completed, and
`markTimeout` may come in between. `log` is the history of what the driver did with the machine.
-/

namespace GalayKernel

/-- What the driver does with the machine and with its outcome. `advance` carries the action the
machine returned. -/
inductive DriverEvent (ρ : Type*) where
  | advance (action : MachineAction ρ)
  | onRead (outcome : IOOutcome)
  | onWrite (outcome : IOOutcome)
  | onConnect (outcome : Except IOError Unit)
  | storeResult (result : ρ)
  | storeError (error : IOError)
  deriving Repr

structure StateMachineDriver (σ ρ : Type*) where
  machine : σ
  /-- `m_active_task` with its context; `none` is `IOTask{}` -/
  activeTask : Option IORequest
  hasActiveTask : Bool
  /-- `none` is `ActiveKind::kNone` -/
  activeKind : Option ActiveKind
  result : Option ρ
  resultSet : Bool
  error : Option IOError
  log : List (DriverEvent ρ)
  exhausted : Option InlineLoop

inductive Backend where
  | reactor
  | uring
  deriving DecidableEq, Repr

/-- A call of the scheduler, with the outcomes of the attempts that `handleComplete` makes with
success. With `io_uring` one call sees at most one completion. -/
inductive DriverCall where
  | prepareForSubmit (outcomes : List IOOutcome)
  | onActiveEvent (outcomes : List IOOutcome)
  | markTimeout
  deriving DecidableEq, Repr

namespace StateMachineDriver

variable {σ ρ : Type*}

def new (machine : σ) : StateMachineDriver σ ρ :=
  ⟨machine, none, false, none, none, false, none, [], none⟩

def awaitReady (d : StateMachineDriver σ ρ) : Bool := d.resultSet || d.error.isSome

def clearActiveTask (d : StateMachineDriver σ ρ) : StateMachineDriver σ ρ :=
  { d with activeTask := none, hasActiveTask := false, activeKind := none }

def setActiveTask (d : StateMachineDriver σ ρ) (request : IORequest) : StateMachineDriver σ ρ :=
  { d with activeTask := some request, hasActiveTask := true, activeKind := some request.kind }

def storeError (d : StateMachineDriver σ ρ) (error : IOError) : StateMachineDriver σ ρ :=
  { d with error := some error, log := d.log ++ [.storeError error] }

def storeResult (d : StateMachineDriver σ ρ) (result : ρ) : StateMachineDriver σ ρ :=
  { d with result := some result, resultSet := true, log := d.log ++ [.storeResult result] }

def invalid (d : StateMachineDriver σ ρ) : StateMachineDriver σ ρ :=
  (d.storeError ⟨.kParamInvalid, 0⟩).clearActiveTask

def exhaust (d : StateMachineDriver σ ρ) (loop : InlineLoop) : StateMachineDriver σ ρ :=
  { d.invalid with exhausted := some loop }

variable (M : StateMachine σ ρ)

def advance (d : StateMachineDriver σ ρ) : MachineAction ρ × StateMachineDriver σ ρ :=
  let (action, machine) := M.advance d.machine
  (action, { d with machine := machine, log := d.log ++ [.advance action] })

def onRead (d : StateMachineDriver σ ρ) (outcome : IOOutcome) : StateMachineDriver σ ρ :=
  { d with machine := M.onRead outcome d.machine, log := d.log ++ [.onRead outcome] }

def onWrite (d : StateMachineDriver σ ρ) (outcome : IOOutcome) : StateMachineDriver σ ρ :=
  { d with machine := M.onWrite outcome d.machine, log := d.log ++ [.onWrite outcome] }

def deliverConnect (d : StateMachineDriver σ ρ) (outcome : Except IOError Unit) :
    StateMachineDriver σ ρ :=
  match M.onConnect with
  | some onConnect => { d with
      machine := onConnect outcome d.machine
      log := d.log ++ [.onConnect outcome] }
  | none =>
    match outcome with
    | .error error => d.storeError error
    | .ok () => d.storeError ⟨.kParamInvalid, 0⟩

def answer (d : StateMachineDriver σ ρ) (kind : ActiveKind) (outcome : IOOutcome) :
    StateMachineDriver σ ρ :=
  match kind with
  | .kRead | .kReadv => d.onRead M outcome
  | .kWrite | .kWritev => d.onWrite M outcome
  | .kConnect => d.deliverConnect M (outcome.map fun _ => ())

def act (d : StateMachineDriver σ ρ) :
    MachineAction ρ → StateMachineDriver σ ρ ⊕ SequenceProgress × StateMachineDriver σ ρ
  | .continue_ => .inl d
  | .wait request =>
    if request.kind = .kConnect then .inr (.kNeedWait, d.setActiveTask request)
    else if request.buffer = none ∧ request.length ≠ 0 then .inr (.kCompleted, d.invalid)
    else if request.length = 0 then .inl (d.answer M request.kind (.ok []))
    else .inr (.kNeedWait, d.setActiveTask request)
  | .complete none => .inr (.kCompleted, d.invalid)
  | .complete (some result) => .inr (.kCompleted, (d.storeResult result).clearActiveTask)
  | .fail error =>
    .inr (.kCompleted, (d.storeError (error.getD ⟨.kParamInvalid, 0⟩)).clearActiveTask)

def pumpOnce (d : StateMachineDriver σ ρ) :
    StateMachineDriver σ ρ ⊕ SequenceProgress × StateMachineDriver σ ρ :=
  if d.awaitReady then .inr (.kCompleted, d)
  else if d.hasActiveTask then .inr (.kNeedWait, d)
  else act M (d.advance M).2 (d.advance M).1

def pump (d : StateMachineDriver σ ρ) : SequenceProgress × StateMachineDriver σ ρ :=
  match Loop.runFor (pumpOnce M) kInlineTransitionCap d with
  | .inl d => (.kCompleted, d.exhaust .pump)
  | .inr out => out

def answerTimeout (d : StateMachineDriver σ ρ) : StateMachineDriver σ ρ :=
  match d.activeKind with
  | some kind => d.clearActiveTask.answer M kind (.error ⟨.kTimeout, 0⟩)
  | none => d.clearActiveTask

def markTimeout (d : StateMachineDriver σ ρ) : StateMachineDriver σ ρ :=
  let d := ((d.answerTimeout M).pump M).2
  if d.awaitReady then d else d.storeError ⟨.kTimeout, 0⟩

/-- A round of `prepareForSubmit`. When the outcomes are used up, `handleComplete` would block. -/
def prepareOnce : StateMachineDriver σ ρ × List IOOutcome →
    (StateMachineDriver σ ρ × List IOOutcome) ⊕ SequenceProgress × StateMachineDriver σ ρ
  | (d, outcomes) =>
    match d.pump M with
    | (.kCompleted, d) => .inr (.kCompleted, d)
    | (.kNeedWait, d) =>
      if d.hasActiveTask = false then .inr (.kCompleted, d)
      else
        match d.activeKind, outcomes with
        | none, _ => .inr (.kCompleted, d.storeError ⟨.kParamInvalid, 0⟩)
        | some _, [] => .inr (.kNeedWait, d)
        | some kind, outcome :: outcomes =>
          .inl (d.clearActiveTask.answer M kind outcome, outcomes)

def prepareForSubmit (d : StateMachineDriver σ ρ) (outcomes : List IOOutcome) :
    SequenceProgress × StateMachineDriver σ ρ :=
  match Loop.runFor (prepareOnce M) kInlineTransitionCap (d, outcomes) with
  | .inl (d, _) => (.kCompleted, d.exhaust .prepareForSubmit)
  | .inr out => out

def onActiveEvent (d : StateMachineDriver σ ρ) (outcomes : List IOOutcome) :
    SequenceProgress × StateMachineDriver σ ρ :=
  if d.hasActiveTask = false then d.prepareForSubmit M outcomes
  else
    match d.activeKind, outcomes with
    | none, _ => (.kCompleted, d.storeError ⟨.kParamInvalid, 0⟩)
    | some _, [] => (.kNeedWait, d)
    | some kind, outcome :: outcomes =>
      (d.clearActiveTask.answer M kind outcome).prepareForSubmit M outcomes

def onCompletion (d : StateMachineDriver σ ρ) (outcome : Option IOOutcome) :
    SequenceProgress × StateMachineDriver σ ρ :=
  if d.hasActiveTask = false then d.pump M
  else
    match d.activeKind, outcome with
    | none, _ => (.kCompleted, d.storeError ⟨.kParamInvalid, 0⟩)
    | some _, none => (.kNeedWait, d)
    | some kind, some outcome => (d.clearActiveTask.answer M kind outcome).pump M

/-- A call, and what it reports to the scheduler; `markTimeout` reports nothing. -/
def call (backend : Backend) (d : StateMachineDriver σ ρ) :
    DriverCall → Option SequenceProgress × StateMachineDriver σ ρ
  | .prepareForSubmit outcomes =>
    match backend with
    | .reactor => (d.prepareForSubmit M outcomes).map some id
    | .uring => (d.pump M).map some id
  | .onActiveEvent outcomes =>
    match backend with
    | .reactor => (d.onActiveEvent M outcomes).map some id
    | .uring => (d.onCompletion M outcomes.head?).map some id
  | .markTimeout => (none, d.markTimeout M)

def runCalls (backend : Backend) (d : StateMachineDriver σ ρ) (calls : List DriverCall) :
    StateMachineDriver σ ρ :=
  calls.foldl (fun d c => (d.call M backend c).2) d

end StateMachineDriver

end GalayKernel
