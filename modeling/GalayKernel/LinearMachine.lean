import GalayKernel.SequenceAwaitable

/-!
# Chains of steps

`LinearMachine` and `AwaitableBuilder` (`kernel/awaitable.h`): the nodes that the builder collects
and the state machine that runs them. A handler finds `m_ops_owner` empty. The nodes of the builder
have their handlers, and the number of the vectors of `readv` and `writev` is within its bound.
-/

namespace GalayKernel

namespace LinearMachine

/-- `LinearMachine::Node`; a node for an operation holds what it asks for -/
inductive Node (φ ρ : Type*) where
  | io (request : IORequest) (handler : IOHandler φ ρ)
  | parse (handler : ParseHandler φ ρ) (rearmRecvIndex : Option Nat)
  | local_ (handler : LocalHandler φ ρ)
  | finish (handler : LocalHandler φ ρ)

def Node.isRead {φ ρ : Type*} : Node φ ρ → Bool
  | .io request _ => request.kind = .kRead || request.kind = .kReadv
  | _ => false

end LinearMachine

structure LinearMachine (φ ρ : Type*) where
  flow : φ
  nodes : List (LinearMachine.Node φ ρ)
  cursor : Nat
  pending : Option (ActiveKind × Nat)
  result : Option ρ
  error : Option IOError
  invoked : List Invocation
  /-- the process has been aborted, and nothing more happens -/
  aborted : Bool

namespace LinearMachine

variable {φ ρ : Type*}

def new (flow : φ) (nodes : List (Node φ ρ)) : LinearMachine φ ρ :=
  ⟨flow, nodes, 0, none, none, none, [], false⟩

variable (inlineN : Nat) (fromError : Option (IOError → ρ))

def setIOError (m : LinearMachine φ ρ) (error : IOError) : LinearMachine φ ρ :=
  match fromError with
  | some f => { m with result := some (f error) }
  | none => { m with error := some error }

def opsOwner (ops : List (SequenceOp ρ)) : SequenceQueue ρ :=
  (SequenceQueue.new []).performAll inlineN ops

def handled (m : LinearMachine φ ρ) (invocation : Invocation) (flow : φ)
    (ops : List (SequenceOp ρ)) : LinearMachine φ ρ :=
  { m with
    flow := flow
    invoked := m.invoked ++ [invocation]
    aborted := m.aborted || (opsOwner inlineN ops).aborted }

/-- `some` when the handler has decided how the machine ends -/
def absorbOpsOutcome (m : LinearMachine φ ρ) (ops : List (SequenceOp ρ)) :
    Option (LinearMachine φ ρ) :=
  let owner := opsOwner inlineN ops
  match owner.result, owner.error with
  | some result, _ => some { m with result := some result }
  | none, some error => some (m.setIOError fromError error)
  | none, none =>
    if owner.tasks ≠ [] then some (m.setIOError fromError ⟨.kParamInvalid, 0⟩) else none

def emitActionFromOutcome (m : LinearMachine φ ρ) : MachineAction ρ :=
  match m.result, m.error with
  | some result, _ => .complete (some result)
  | none, some error => .fail (some error)
  | none, none => .continue_

def emit (m : LinearMachine φ ρ) : MachineAction ρ × LinearMachine φ ρ :=
  (m.emitActionFromOutcome, m)

def runLocal (m : LinearMachine φ ρ) (handler : LocalHandler φ ρ) :
    MachineAction ρ × LinearMachine φ ρ :=
  let (flow, ops) := handler m.flow
  let m := m.handled inlineN ⟨m.cursor, none, none⟩ flow ops
  match m.absorbOpsOutcome inlineN fromError ops with
  | some m => m.emit
  | none => (.continue_, { m with cursor := m.cursor + 1 })

def runParse (m : LinearMachine φ ρ) (handler : ParseHandler φ ρ) (rearmRecvIndex : Option Nat) :
    MachineAction ρ × LinearMachine φ ρ :=
  let (status, flow, ops) := handler m.flow
  let m := m.handled inlineN ⟨m.cursor, none, some status⟩ flow ops
  match m.absorbOpsOutcome inlineN fromError ops with
  | some m => m.emit
  | none =>
    match status with
    | .kNeedMore =>
      match rearmRecvIndex with
      | none => (m.setIOError fromError ⟨.kParamInvalid, 0⟩).emit
      | some index =>
        if (m.nodes[index]?).any Node.isRead then (.continue_, { m with cursor := index })
        else (m.setIOError fromError ⟨.kParamInvalid, 0⟩).emit
    | .kContinue => (.continue_, m)
    | .kCompleted => (.continue_, { m with cursor := m.cursor + 1 })

def advance (m : LinearMachine φ ρ) : MachineAction ρ × LinearMachine φ ρ :=
  if m.result.isSome || m.error.isSome then m.emit
  else
    match m.nodes[m.cursor]? with
    | none => (m.setIOError fromError ⟨.kNotReady, 0⟩).emit
    | some (.io request _) =>
      (.wait request, { m with pending := some (request.kind, m.cursor) })
    | some (.parse handler rearmRecvIndex) => m.runParse inlineN fromError handler rearmRecvIndex
    | some (.local_ handler) | some (.finish handler) => m.runLocal inlineN fromError handler

/-- What `onRead`, `onWrite` and `onConnect` have in common. -/
def onIO (kinds : List ActiveKind) (outcome : IOOutcome) (m : LinearMachine φ ρ) :
    LinearMachine φ ρ :=
  match m.pending with
  | none => m.setIOError fromError ⟨.kParamInvalid, 0⟩
  | some (kind, index) =>
    if kind ∈ kinds then
      match m.nodes[index]? with
      | some (.io _ handler) =>
        let (flow, ops) := handler outcome m.flow
        let m := { m.handled inlineN ⟨index, some outcome, none⟩ flow ops with pending := none }
        match m.absorbOpsOutcome inlineN fromError ops, outcome with
        | some m, _ => m
        | none, .error error => m.setIOError fromError error
        | none, .ok _ => { m with cursor := m.cursor + 1 }
      | _ => m.setIOError fromError ⟨.kParamInvalid, 0⟩
    else m.setIOError fromError ⟨.kParamInvalid, 0⟩

def onRead : IOOutcome → LinearMachine φ ρ → LinearMachine φ ρ :=
  onIO inlineN fromError [.kRead, .kReadv]

def onWrite : IOOutcome → LinearMachine φ ρ → LinearMachine φ ρ :=
  onIO inlineN fromError [.kWrite, .kWritev]

def onConnect (outcome : Except IOError Unit) : LinearMachine φ ρ → LinearMachine φ ρ :=
  onIO inlineN fromError [.kConnect] (outcome.map fun _ => [])

def machine : StateMachine (LinearMachine φ ρ) ρ where
  advance := advance inlineN fromError
  onRead := onRead inlineN fromError
  onWrite := onWrite inlineN fromError
  onConnect := some (onConnect inlineN fromError)

end LinearMachine

structure AwaitableBuilder (φ ρ : Type*) where
  nodes : List (LinearMachine.Node φ ρ)
  lastRecvIndex : Option Nat

namespace AwaitableBuilder

variable {φ ρ : Type*}

def new : AwaitableBuilder φ ρ := ⟨[], none⟩

def push (b : AwaitableBuilder φ ρ) (node : LinearMachine.Node φ ρ) : AwaitableBuilder φ ρ :=
  { b with nodes := b.nodes ++ [node] }

/-- A `parse` node behind it can go back to the node. -/
def pushRead (b : AwaitableBuilder φ ρ) (node : LinearMachine.Node φ ρ) : AwaitableBuilder φ ρ :=
  { b.push node with lastRecvIndex := some b.nodes.length }

def recv (b : AwaitableBuilder φ ρ) (buffer : Option Nat) (length : Nat)
    (handler : IOHandler φ ρ) : AwaitableBuilder φ ρ :=
  b.pushRead (.io ⟨.kRead, buffer, length, 0⟩ handler)

def readv (b : AwaitableBuilder φ ρ) (iovecs : Option Nat) (count : Nat)
    (handler : IOHandler φ ρ) : AwaitableBuilder φ ρ :=
  b.pushRead (.io ⟨.kReadv, iovecs, count, 0⟩ handler)

def send (b : AwaitableBuilder φ ρ) (buffer : Option Nat) (length : Nat)
    (handler : IOHandler φ ρ) : AwaitableBuilder φ ρ :=
  b.push (.io ⟨.kWrite, buffer, length, 0⟩ handler)

def writev (b : AwaitableBuilder φ ρ) (iovecs : Option Nat) (count : Nat)
    (handler : IOHandler φ ρ) : AwaitableBuilder φ ρ :=
  b.push (.io ⟨.kWritev, iovecs, count, 0⟩ handler)

def connect (b : AwaitableBuilder φ ρ) (host : Nat) (handler : IOHandler φ ρ) :
    AwaitableBuilder φ ρ :=
  b.push (.io ⟨.kConnect, none, 0, host⟩ handler)

def local_ (b : AwaitableBuilder φ ρ) (handler : LocalHandler φ ρ) : AwaitableBuilder φ ρ :=
  b.push (.local_ handler)

def parse (b : AwaitableBuilder φ ρ) (handler : ParseHandler φ ρ) : AwaitableBuilder φ ρ :=
  b.push (.parse handler b.lastRecvIndex)

def finish (b : AwaitableBuilder φ ρ) (handler : LocalHandler φ ρ) : AwaitableBuilder φ ρ :=
  b.push (.finish handler)

def build (b : AwaitableBuilder φ ρ) (flow : φ) : LinearMachine φ ρ := .new flow b.nodes

end AwaitableBuilder

end GalayKernel
