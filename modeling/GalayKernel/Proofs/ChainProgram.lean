import GalayKernel.LinearMachine
import Mathlib.Data.List.Induction

/-!
# A chain of steps as a program

The builder numbers its nodes and the machine moves a cursor over them. What the chain means is
said by `interpretOnce`, which knows neither: it runs the nodes from left to right, repeats a
`parse` node, or goes back to the last read before it.
-/

namespace GalayKernel.Proofs

variable {φ ρ : Type*}

/-- A call on the builder. -/
inductive ChainNode (φ ρ : Type*) where
  | recv (buffer : Option Nat) (length : Nat) (handler : IOHandler φ ρ)
  | readv (iovecs : Option Nat) (count : Nat) (handler : IOHandler φ ρ)
  | send (buffer : Option Nat) (length : Nat) (handler : IOHandler φ ρ)
  | writev (iovecs : Option Nat) (count : Nat) (handler : IOHandler φ ρ)
  | connect (host : Nat) (handler : IOHandler φ ρ)
  | local_ (handler : LocalHandler φ ρ)
  | parse (handler : ParseHandler φ ρ)
  | finish (handler : LocalHandler φ ρ)

def ChainNode.isRead : ChainNode φ ρ → Bool
  | .recv .. | .readv .. => true
  | _ => false

def lastRead (chain : List (ChainNode φ ρ)) : Nat → Option Nat
  | 0 => none
  | i + 1 => if (chain[i]?).any ChainNode.isRead then some i else lastRead chain i

def completion : List (SequenceOp ρ) → Option ρ
  | [] => none
  | .complete value :: ops => some ((completion ops).getD value)
  | .queue _ :: ops | .clear :: ops => completion ops

/-- The state of the reference interpreter. -/
structure Program (φ ρ : Type*) where
  position : Nat
  flow : φ
  invoked : List Invocation
  ended : Option (Except IOError ρ)

namespace Program

def new (flow : φ) : Program φ ρ := ⟨0, flow, [], none⟩

def handled (p : Program φ ρ) (outcome : Option IOOutcome) (status : Option ParseStatus)
    (flow : φ) : Program φ ρ :=
  { p with flow := flow, invoked := p.invoked ++ [⟨p.position, outcome, status⟩] }

def stop (p : Program φ ρ) (ended : Except IOError ρ) : Program φ ρ :=
  { p with ended := some ended }

def goTo (p : Program φ ρ) (position : Nat) : Program φ ρ := { p with position := position }

def runIO (p : Program φ ρ) (handler : IOHandler φ ρ) (outcome : IOOutcome) : Program φ ρ :=
  let (flow, ops) := handler outcome p.flow
  let p := p.handled (some outcome) none flow
  match completion ops, outcome with
  | some value, _ => p.stop (.ok value)
  | none, .error error => p.stop (.error error)
  | none, .ok _ => p.goTo (p.position + 1)

def runLocal (p : Program φ ρ) (handler : LocalHandler φ ρ) : Program φ ρ :=
  let (flow, ops) := handler p.flow
  let p := p.handled none none flow
  match completion ops with
  | some value => p.stop (.ok value)
  | none => p.goTo (p.position + 1)

def runParse (p : Program φ ρ) (handler : ParseHandler φ ρ) (read : Option Nat) : Program φ ρ :=
  let (status, flow, ops) := handler p.flow
  let p := p.handled none (some status) flow
  match completion ops, status, read with
  | some value, _, _ => p.stop (.ok value)
  | none, .kContinue, _ => p
  | none, .kCompleted, _ => p.goTo (p.position + 1)
  | none, .kNeedMore, some read => p.goTo read
  | none, .kNeedMore, none => p.stop (.error ⟨.kParamInvalid, 0⟩)

end Program

/-- A step of the reference interpreter. It stops where the program has ended or waits for the
outcome of an operation. -/
def interpretOnce (chain : List (ChainNode φ ρ)) :
    Program φ ρ × List IOOutcome → (Program φ ρ × List IOOutcome) ⊕ Program φ ρ
  | (p, outcomes) =>
    if p.ended.isSome then .inr p
    else
      match chain[p.position]? with
      | none => .inl (p.stop (.error ⟨.kNotReady, 0⟩), outcomes)
      | some (.recv _ length handler) | some (.readv _ length handler)
      | some (.send _ length handler) | some (.writev _ length handler) =>
        if length = 0 then .inl (p.runIO handler (.ok []), outcomes)
        else
          match outcomes with
          | [] => .inr p
          | outcome :: outcomes => .inl (p.runIO handler outcome, outcomes)
      | some (.connect _ handler) =>
        match outcomes with
        | [] => .inr p
        | outcome :: outcomes => .inl (p.runIO handler (outcome.map fun _ => []), outcomes)
      | some (.local_ handler) | some (.finish handler) => .inl (p.runLocal handler, outcomes)
      | some (.parse handler) => .inl (p.runParse handler (lastRead chain p.position), outcomes)

def ChainNode.operation : ChainNode φ ρ → Option (IORequest × IOHandler φ ρ)
  | .recv buffer length handler => some (⟨.kRead, buffer, length, 0⟩, handler)
  | .readv iovecs count handler => some (⟨.kReadv, iovecs, count, 0⟩, handler)
  | .send buffer length handler => some (⟨.kWrite, buffer, length, 0⟩, handler)
  | .writev iovecs count handler => some (⟨.kWritev, iovecs, count, 0⟩, handler)
  | .connect host handler => some (⟨.kConnect, none, 0, host⟩, handler)
  | _ => none

/-- The operation is not needed: it ends with 0 bytes. -/
def IORequest.isEmpty (request : IORequest) : Bool :=
  request.kind ≠ .kConnect && request.length = 0

section Interpret

variable {chain : List (ChainNode φ ρ)} {p : Program φ ρ} {node : ChainNode φ ρ}
  {request : IORequest} {handler : IOHandler φ ρ}

lemma interpretOnce_ended (h : p.ended.isSome = true) (outcomes : List IOOutcome) :
    interpretOnce chain (p, outcomes) = .inr p :=
  if_pos h

lemma interpretOnce_running (h : p.ended = none) (hnode : chain[p.position]? = some node)
    (hoperation : node.operation = some (request, handler)) (outcomes : List IOOutcome) :
    interpretOnce chain (p, outcomes) =
      if IORequest.isEmpty request then .inl (p.runIO handler (.ok []), outcomes)
      else
        match outcomes with
        | [] => .inr p
        | outcome :: outcomes =>
          .inl (p.runIO handler (request.kind.received outcome), outcomes) := by
  rw [interpretOnce, h, hnode, Option.isSome_none, if_neg Bool.false_ne_true]
  cases node <;> cases hoperation <;> simp [IORequest.isEmpty, ActiveKind.received]

lemma interpretOnce_empty (h : p.ended = none) (hnode : chain[p.position]? = some node)
    (hoperation : node.operation = some (request, handler))
    (hempty : IORequest.isEmpty request = true) (outcomes : List IOOutcome) :
    interpretOnce chain (p, outcomes) = .inl (p.runIO handler (.ok []), outcomes) := by
  rw [interpretOnce_running h hnode hoperation, if_pos hempty]

lemma interpretOnce_waits (h : p.ended = none) (hnode : chain[p.position]? = some node)
    (hoperation : node.operation = some (request, handler))
    (hempty : IORequest.isEmpty request = false) : interpretOnce chain (p, []) = .inr p := by
  rw [interpretOnce_running h hnode hoperation, if_neg (Bool.eq_false_iff.mp hempty)]

lemma interpretOnce_receives (h : p.ended = none) (hnode : chain[p.position]? = some node)
    (hoperation : node.operation = some (request, handler))
    (hempty : IORequest.isEmpty request = false) (outcome : IOOutcome)
    (outcomes : List IOOutcome) : interpretOnce chain (p, outcome :: outcomes) =
      .inl (p.runIO handler (request.kind.received outcome), outcomes) := by
  rw [interpretOnce_running h hnode hoperation, if_neg (Bool.eq_false_iff.mp hempty)]

end Interpret

def addNode (b : AwaitableBuilder φ ρ) : ChainNode φ ρ → AwaitableBuilder φ ρ
  | .recv buffer length handler => b.recv buffer length handler
  | .readv iovecs count handler => b.readv iovecs count handler
  | .send buffer length handler => b.send buffer length handler
  | .writev iovecs count handler => b.writev iovecs count handler
  | .connect host handler => b.connect host handler
  | .local_ handler => b.local_ handler
  | .parse handler => b.parse handler
  | .finish handler => b.finish handler

def buildChain (chain : List (ChainNode φ ρ)) : AwaitableBuilder φ ρ := chain.foldl addNode .new

/-- The node of the machine, with the read to which a `parse` node goes back. -/
def ChainNode.toNode (read : Option Nat) : ChainNode φ ρ → LinearMachine.Node φ ρ
  | .recv buffer length handler => .io ⟨.kRead, buffer, length, 0⟩ handler
  | .readv iovecs count handler => .io ⟨.kReadv, iovecs, count, 0⟩ handler
  | .send buffer length handler => .io ⟨.kWrite, buffer, length, 0⟩ handler
  | .writev iovecs count handler => .io ⟨.kWritev, iovecs, count, 0⟩ handler
  | .connect host handler => .io ⟨.kConnect, none, 0, host⟩ handler
  | .local_ handler => .local_ handler
  | .parse handler => .parse handler read
  | .finish handler => .finish handler

lemma isRead_toNode (read : Option Nat) (node : ChainNode φ ρ) :
    (node.toNode read).isRead = node.isRead := by
  cases node <;> rfl

lemma toNode_operation {node : ChainNode φ ρ} {request : IORequest} {handler : IOHandler φ ρ}
    (h : node.operation = some (request, handler)) (read : Option Nat) :
    node.toNode read = .io request handler := by
  cases node <;> cases h <;> rfl

lemma addNode_nodes (b : AwaitableBuilder φ ρ) (node : ChainNode φ ρ) :
    (addNode b node).nodes = b.nodes ++ [node.toNode b.lastRecvIndex] := by
  cases node <;> rfl

lemma addNode_lastRecvIndex (b : AwaitableBuilder φ ρ) (node : ChainNode φ ρ) :
    (addNode b node).lastRecvIndex =
      if node.isRead then some b.nodes.length else b.lastRecvIndex := by
  cases node <;> rfl

lemma lastRead_append (chain : List (ChainNode φ ρ)) (node : ChainNode φ ρ) {i : Nat}
    (hi : i ≤ chain.length) : lastRead (chain ++ [node]) i = lastRead chain i := by
  induction i with
  | zero => rfl
  | succ i ih =>
    rw [lastRead, lastRead, List.getElem?_append_left hi, ih (Nat.le_of_succ_le hi)]

lemma lastRead_isRead {chain : List (ChainNode φ ρ)} {i read : Nat}
    (h : lastRead chain i = some read) : (chain[read]?).any ChainNode.isRead = true := by
  induction i with
  | zero => cases h
  | succ i ih =>
    rw [lastRead] at h
    split at h
    · next hread =>
      cases h
      exact hread
    · exact ih h

lemma buildChain_spec (chain : List (ChainNode φ ρ)) :
    (buildChain chain).lastRecvIndex = lastRead chain chain.length ∧
    (buildChain chain).nodes.length = chain.length ∧
    ∀ i, (buildChain chain).nodes[i]? = (chain[i]?).map (ChainNode.toNode (lastRead chain i)) := by
  induction chain using List.reverseRecOn with
  | nil => exact ⟨rfl, rfl, fun _ => rfl⟩
  | append_singleton chain node ih =>
    obtain ⟨hlast, hlength, hnodes⟩ := ih
    have hbuild : buildChain (chain ++ [node]) = addNode (buildChain chain) node :=
      List.foldl_append ..
    rw [hbuild, addNode_nodes]
    refine ⟨?_, ?_, fun i => ?_⟩
    · rw [addNode_lastRecvIndex, hlength, hlast, List.length_append, List.length_singleton,
        lastRead, List.getElem?_concat_length, Option.any_some,
        lastRead_append chain node (Nat.le_refl _)]
    · rw [List.length_append, List.length_append, hlength]
      rfl
    · obtain hi | hi | hi := Nat.lt_trichotomy i chain.length
      · rw [List.getElem?_append_left (by omega), List.getElem?_append_left hi, hnodes,
          lastRead_append chain node (Nat.le_of_lt hi)]
      · subst hi
        rw [List.getElem?_concat_length, ← hlength, List.getElem?_concat_length, Option.map_some,
          hlast, hlength, lastRead_append chain node (Nat.le_refl _)]
      · rw [List.getElem?_eq_none, List.getElem?_eq_none]
        · rfl
        all_goals
          rw [List.length_append, List.length_singleton]
          omega

end GalayKernel.Proofs
