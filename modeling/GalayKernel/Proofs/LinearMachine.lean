import GalayKernel.Proofs.ChainProgram
import GalayKernel.Proofs.StateMachine

/-!
# The awaitable follows the program of its chain

`Matches` relates the machine to the reference interpreter between two steps. A call of `advance`
that runs a handler is a step of the interpreter, and so is the end of an operation, together with
the call of `advance` that has asked for it. `pump` and `follow` then make the same steps.
-/

namespace GalayKernel.Proofs

open StateMachineAwaitable (await pump pumpOnce deliver)

variable {φ ρ : Type*} {inlineN : Nat} {fromError : Option (IOError → ρ)}
  {chain : List (ChainNode φ ρ)} {m m' : LinearMachine φ ρ} {p p' : Program φ ρ}

def QueuesNothing (ops : List (SequenceOp ρ)) : Prop := ∀ step, .queue step ∉ ops

lemma performAll_of_queuesNothing {ops : List (SequenceOp ρ)} (h : QueuesNothing ops)
    (q : SequenceQueue ρ) :
    q.performAll inlineN ops =
      { q with
        tasks := if ops.isEmpty then q.tasks else []
        result := (completion ops).or q.result } := by
  induction ops generalizing q with
  | nil => rfl
  | cons op ops ih =>
    have hops : QueuesNothing ops := fun step hmem => h step (List.mem_cons_of_mem _ hmem)
    cases op with
    | queue step => exact absurd List.mem_cons_self (h step)
    | clear =>
      refine (ih hops q.clear).trans ?_
      rw [SequenceQueue.clear, ite_self]
      rfl
    | complete value =>
      refine (ih hops (q.complete value)).trans ?_
      rw [SequenceQueue.complete, ite_self, completion]
      cases completion ops <;> rfl

lemma absorbOpsOutcome_eq {ops : List (SequenceOp ρ)} (h : QueuesNothing ops) :
    m.absorbOpsOutcome inlineN fromError ops =
      (completion ops).map fun value => { m with result := some value } := by
  unfold LinearMachine.absorbOpsOutcome LinearMachine.opsOwner SequenceQueue.new
  rw [performAll_of_queuesNothing h, ite_self, Option.or_none]
  cases completion ops <;> rfl

def ending (fromError : Option (IOError → ρ)) :
    Option (Except IOError ρ) → Option ρ × Option IOError
  | none => (none, none)
  | some (.ok value) => (some value, none)
  | some (.error error) =>
    match fromError with
    | some f => (some (f error), none)
    | none => (none, some error)

lemma ending_cases (fromError : Option (IOError → ρ)) (ended : Option (Except IOError ρ)) :
    (ended = none ∧ ending fromError ended = (none, none)) ∨
    ended.isSome = true ∧ ((∃ value, ending fromError ended = (some value, none)) ∨
      ∃ error, ending fromError ended = (none, some error)) := by
  rcases ended with _ | error | value
  · exact .inl ⟨rfl, rfl⟩
  · cases fromError with
    | none => exact .inr ⟨rfl, .inr ⟨error, rfl⟩⟩
    | some f => exact .inr ⟨rfl, .inl ⟨f error, rfl⟩⟩
  · exact .inr ⟨rfl, .inl ⟨value, rfl⟩⟩

structure Matches (fromError : Option (IOError → ρ)) (chain : List (ChainNode φ ρ))
    (m : LinearMachine φ ρ) (p : Program φ ρ) : Prop where
  nodes : m.nodes = (buildChain chain).nodes
  flow : m.flow = p.flow
  invoked : m.invoked = p.invoked
  cursor : p.ended = none → m.cursor = p.position
  ended : (m.result, m.error) = ending fromError p.ended

lemma matches_build (chain : List (ChainNode φ ρ)) (flow : φ) :
    Matches fromError chain ((buildChain chain).build flow) (.new flow) :=
  ⟨rfl, rfl, rfl, fun _ => rfl, rfl⟩

lemma Matches.result (h : Matches fromError chain m p) : m.result = (ending fromError p.ended).1 :=
  congrArg Prod.fst h.ended

lemma Matches.error (h : Matches fromError chain m p) : m.error = (ending fromError p.ended).2 :=
  congrArg Prod.snd h.ended

lemma Matches.node (h : Matches fromError chain m p) (hp : p.ended = none) :
    m.nodes[m.cursor]? =
      (chain[p.position]?).map (ChainNode.toNode (lastRead chain p.position)) := by
  rw [h.nodes, h.cursor hp]
  exact (buildChain_spec chain).2.2 p.position

lemma Matches.handled (inlineN : Nat) (h : Matches fromError chain m p) (hp : p.ended = none)
    (outcome : Option IOOutcome) (status : Option ParseStatus) (flow : φ)
    (ops : List (SequenceOp ρ)) :
    Matches fromError chain (m.handled inlineN ⟨m.cursor, outcome, status⟩ flow ops)
      (p.handled outcome status flow) where
  nodes := h.nodes
  flow := rfl
  invoked := by
    unfold LinearMachine.handled Program.handled
    rw [h.invoked, h.cursor hp]
  cursor := h.cursor
  ended := h.ended

lemma Matches.complete (h : Matches fromError chain m p) (hp : p.ended = none) (value : ρ) :
    Matches fromError chain { m with result := some value } (p.stop (.ok value)) where
  nodes := h.nodes
  flow := h.flow
  invoked := h.invoked
  cursor := by rintro ⟨⟩
  ended := by
    have herror := h.error
    rw [hp] at herror
    exact congrArg (some value, ·) herror

lemma Matches.setIOError (h : Matches fromError chain m p) (hp : p.ended = none) (error : IOError) :
    Matches fromError chain (m.setIOError fromError error) (p.stop (.error error)) := by
  have hended := h.ended
  rw [hp] at hended
  obtain ⟨hresult, herror⟩ := Prod.mk.inj hended
  unfold LinearMachine.setIOError
  cases fromError with
  | some f => exact ⟨h.nodes, h.flow, h.invoked, by rintro ⟨⟩, congrArg (some (f error), ·) herror⟩
  | none => exact ⟨h.nodes, h.flow, h.invoked, by rintro ⟨⟩, congrArg (·, some error) hresult⟩

lemma Matches.goTo (h : Matches fromError chain m p) (position : Nat) :
    Matches fromError chain { m with cursor := position } (p.goTo position) :=
  ⟨h.nodes, h.flow, h.invoked, fun _ => rfl, h.ended⟩

lemma Matches.next (h : Matches fromError chain m p) (hp : p.ended = none) :
    Matches fromError chain { m with cursor := m.cursor + 1 } (p.goTo (p.position + 1)) := by
  rw [h.cursor hp]
  exact h.goTo (p.position + 1)

lemma Matches.setPending (h : Matches fromError chain m p) (pending : Option (ActiveKind × Nat)) :
    Matches fromError chain { m with pending := pending } p :=
  ⟨h.nodes, h.flow, h.invoked, h.cursor, h.ended⟩

lemma Matches.emit (h : Matches fromError chain m p) (hp : p.ended = none) :
    m.emit = (.continue_, m) := by
  have hresult := h.result
  have herror := h.error
  rw [hp] at hresult herror
  unfold LinearMachine.emit LinearMachine.emitActionFromOutcome
  rw [hresult, herror]
  rfl

def Advances (fromError : Option (IOError → ρ)) (chain : List (ChainNode φ ρ))
    (out : MachineAction ρ × LinearMachine φ ρ) (p : Program φ ρ) : Prop :=
  ∃ m, out = m.emit ∧ Matches fromError chain m p

lemma Matches.continues (h : Matches fromError chain m p) (hp : p.ended = none) :
    Advances fromError chain (.continue_, m) p :=
  ⟨m, (h.emit hp).symm, h⟩

lemma Matches.fails (h : Matches fromError chain m p) (hp : p.ended = none) (error : IOError) :
    Advances fromError chain (m.setIOError fromError error).emit (p.stop (.error error)) :=
  ⟨_, rfl, h.setIOError hp error⟩

lemma Matches.runLocal (h : Matches fromError chain m p) (hp : p.ended = none)
    {handler : LocalHandler φ ρ} (hops : ∀ flow, QueuesNothing (handler flow).2) :
    Advances fromError chain (m.runLocal inlineN fromError handler) (p.runLocal handler) := by
  have hhandled := h.handled inlineN hp none none (handler p.flow).1 (handler p.flow).2
  unfold LinearMachine.runLocal Program.runLocal
  rw [h.flow]
  dsimp only
  rw [absorbOpsOutcome_eq (hops p.flow)]
  cases completion (handler p.flow).2 with
  | some value => exact ⟨_, rfl, hhandled.complete hp value⟩
  | none => exact (hhandled.next hp).continues hp

lemma Matches.isRead (h : Matches fromError chain m p) {i read : Nat}
    (hread : lastRead chain i = some read) :
    (m.nodes[read]?).any LinearMachine.Node.isRead = true := by
  have hisRead := lastRead_isRead hread
  rw [h.nodes, (buildChain_spec chain).2.2]
  cases hnode : chain[read]? with
  | none =>
    rw [hnode] at hisRead
    exact hisRead
  | some node =>
    rw [hnode, Option.any_some] at hisRead
    rw [Option.map_some, Option.any_some, isRead_toNode]
    exact hisRead

lemma Matches.runParse (h : Matches fromError chain m p) (hp : p.ended = none)
    {handler : ParseHandler φ ρ} (hops : ∀ flow, QueuesNothing (handler flow).2.2) :
    Advances fromError chain
      (m.runParse inlineN fromError handler (lastRead chain p.position))
      (p.runParse handler (lastRead chain p.position)) := by
  have hqueues := hops p.flow
  unfold LinearMachine.runParse Program.runParse
  rw [h.flow]
  generalize handler p.flow = out at hqueues ⊢
  obtain ⟨status, flow, ops⟩ := out
  have hhandled := h.handled inlineN hp none (some status) flow ops
  dsimp only
  rw [absorbOpsOutcome_eq hqueues]
  cases completion ops with
  | some value => exact ⟨_, rfl, hhandled.complete hp value⟩
  | none =>
    cases status with
    | kContinue => exact hhandled.continues hp
    | kCompleted => exact (hhandled.next hp).continues hp
    | kNeedMore =>
      cases hread : lastRead chain p.position with
      | none => exact hhandled.fails hp _
      | some read =>
        dsimp only [Option.map_none]
        rw [if_pos (hhandled.isRead hread)]
        exact (hhandled.goTo read).continues hp

structure AtOperation (chain : List (ChainNode φ ρ)) (p : Program φ ρ) (request : IORequest)
    (handler : IOHandler φ ρ) : Prop where
  ended : p.ended = none
  node : ∃ node, chain[p.position]? = some node ∧ node.operation = some (request, handler)
  queues : ∀ outcome flow, QueuesNothing (handler outcome flow).2

lemma Matches.onIO (h : Matches fromError chain m p) {request : IORequest}
    {handler : IOHandler φ ρ} (hp : AtOperation chain p request handler) {kinds : List ActiveKind}
    (hkind : request.kind ∈ kinds) (outcome : IOOutcome) :
    Matches fromError chain
      (LinearMachine.onIO inlineN fromError kinds outcome
        { m with pending := some (request.kind, m.cursor) })
      (p.runIO handler outcome) := by
  have hio := h.node hp.ended
  obtain ⟨node, hnode, hoperation⟩ := hp.node
  rw [hnode, Option.map_some, toNode_operation hoperation] at hio
  unfold LinearMachine.onIO Program.runIO
  dsimp only
  rw [if_pos hkind, hio, h.flow]
  have hhandled := (h.handled inlineN hp.ended (some outcome) none
    (handler outcome p.flow).1 (handler outcome p.flow).2).setPending none
  dsimp only
  rw [absorbOpsOutcome_eq (hp.queues outcome p.flow)]
  cases completion (handler outcome p.flow).2 with
  | some value => exact hhandled.complete hp.ended value
  | none =>
    cases outcome with
    | error error => exact hhandled.setIOError hp.ended error
    | ok data => exact hhandled.next hp.ended

def ChainNode.QueuesNothing : ChainNode φ ρ → Prop
  | .recv _ _ handler | .readv _ _ handler | .send _ _ handler | .writev _ _ handler
  | .connect _ handler => ∀ outcome flow, Proofs.QueuesNothing (handler outcome flow).2
  | .local_ handler | .finish handler => ∀ flow, Proofs.QueuesNothing (handler flow).2
  | .parse handler => ∀ flow, Proofs.QueuesNothing (handler flow).2.2

def ChainNode.HasBuffer : ChainNode φ ρ → Prop
  | .recv buffer _ _ | .readv buffer _ _ | .send buffer _ _ | .writev buffer _ _ =>
    buffer.isSome = true
  | _ => True

lemma ChainNode.QueuesNothing.operation {node : ChainNode φ ρ} (h : node.QueuesNothing)
    {request : IORequest} {handler : IOHandler φ ρ}
    (hoperation : node.operation = some (request, handler)) (outcome : IOOutcome) (flow : φ) :
    Proofs.QueuesNothing (handler outcome flow).2 := by
  cases node <;> cases hoperation <;> exact h outcome flow

lemma ChainNode.HasBuffer.operation {node : ChainNode φ ρ} (h : node.HasBuffer)
    {request : IORequest} {handler : IOHandler φ ρ}
    (hoperation : node.operation = some (request, handler)) :
    request.kind = .kConnect ∨ request.buffer.isSome = true := by
  cases node <;> cases hoperation <;> first | exact .inr h | exact .inl rfl

lemma received_empty (kind : ActiveKind) : kind.received (.ok []) = .ok [] := by
  cases kind <;> rfl

variable {s s' : StateMachineAwaitable (LinearMachine φ ρ) ρ}

structure Running (fromError : Option (IOError → ρ)) (chain : List (ChainNode φ ρ))
    (s : StateMachineAwaitable (LinearMachine φ ρ) ρ) (p : Program φ ρ) : Prop where
  machine : Matches fromError chain s.machine p
  active : s.active = none
  result : s.result = none
  error : s.error = none

structure Agrees (fromError : Option (IOError → ρ))
    (s : StateMachineAwaitable (LinearMachine φ ρ) ρ) (p : Program φ ρ) : Prop where
  flow : s.machine.flow = p.flow
  invoked : s.machine.invoked = p.invoked
  ended : (s.result, s.error) = ending fromError p.ended

lemma Running.awaitReady (h : Running fromError chain s p) : s.awaitReady = false := by
  rw [StateMachineAwaitable.awaitReady, h.result, h.error]
  rfl

structure Asked (fromError : Option (IOError → ρ)) (chain : List (ChainNode φ ρ))
    (s : StateMachineAwaitable (LinearMachine φ ρ) ρ) (p : Program φ ρ) (request : IORequest)
    (handler : IOHandler φ ρ) : Prop where
  program : AtOperation chain p request handler
  machine : ∃ m, Matches fromError chain m p ∧
    s.machine = { m with pending := some (request.kind, m.cursor) }
  result : s.result = none
  error : s.error = none

lemma Asked.deliver (inlineN : Nat) {request : IORequest} {handler : IOHandler φ ρ}
    (h : Asked fromError chain s p request handler) (outcome : IOOutcome) :
    Running fromError chain
      (s.deliver (LinearMachine.machine inlineN fromError) request.kind outcome)
      (p.runIO handler (request.kind.received outcome)) := by
  obtain ⟨m, hm, hmachine⟩ := h.machine
  have hmatches : ∀ kinds, request.kind ∈ kinds → Matches fromError chain
      (LinearMachine.onIO inlineN fromError kinds (request.kind.received outcome) s.machine)
      (p.runIO handler (request.kind.received outcome)) := by
    intro kinds hkind
    rw [hmachine]
    exact hm.onIO h.program hkind _
  cases hkind : request.kind <;> rw [hkind] at hmatches
  case kRead => exact ⟨hmatches [.kRead, .kReadv] (by decide), rfl, h.result, h.error⟩
  case kReadv => exact ⟨hmatches [.kRead, .kReadv] (by decide), rfl, h.result, h.error⟩
  case kWrite => exact ⟨hmatches [.kWrite, .kWritev] (by decide), rfl, h.result, h.error⟩
  case kWritev => exact ⟨hmatches [.kWrite, .kWritev] (by decide), rfl, h.result, h.error⟩
  case kConnect =>
    refine ⟨?_, rfl, h.result, h.error⟩
    cases outcome <;> exact hmatches [.kConnect] (by decide)

/-- Where `pump` returns, the awaitable has the result of the program or waits for an operation. -/
def Stopped (fromError : Option (IOError → ρ)) (chain : List (ChainNode φ ρ)) (p : Program φ ρ) :
    SequenceProgress × StateMachineAwaitable (LinearMachine φ ρ) ρ → Prop
  | (.kCompleted, s) => p.ended.isSome = true ∧ Agrees fromError s p
  | (.kNeedWait, s) => ∃ request handler, Asked fromError chain s p request handler ∧
      s.active = some request ∧ IORequest.isEmpty request = false

lemma Stopped.agrees {out : SequenceProgress × StateMachineAwaitable (LinearMachine φ ρ) ρ}
    (h : Stopped fromError chain p out) : Agrees fromError out.2 p := by
  obtain ⟨progress, s⟩ := out
  cases progress with
  | kCompleted => exact h.2
  | kNeedWait =>
    obtain ⟨request, handler, hasked, -, -⟩ := h
    obtain ⟨m, hm, hmachine⟩ := hasked.machine
    refine ⟨?_, ?_, ?_⟩
    · rw [hmachine]
      exact hm.flow
    · rw [hmachine]
      exact hm.invoked
    · rw [hasked.result, hasked.error, hasked.program.ended]
      rfl

lemma Stopped.interpretOnce {out : SequenceProgress × StateMachineAwaitable (LinearMachine φ ρ) ρ}
    (h : Stopped fromError chain p out) : interpretOnce chain (p, []) = .inr p := by
  obtain ⟨progress, s⟩ := out
  cases progress with
  | kCompleted => exact interpretOnce_ended h.1 []
  | kNeedWait =>
    obtain ⟨request, handler, hasked, -, hempty⟩ := h
    obtain ⟨node, hnode, hoperation⟩ := hasked.program.node
    exact interpretOnce_waits hasked.program.ended hnode hoperation hempty

lemma act_emit (hm : Matches fromError chain s.machine p) (hactive : s.active = none)
    (hresult : s.result = none) (herror : s.error = none) (M : StateMachine (LinearMachine φ ρ) ρ) :
    (∀ s', s.act M s.machine.emitActionFromOutcome = .inl s' →
      p.ended = none ∧ Running fromError chain s' p) ∧
    ∀ out, s.act M s.machine.emitActionFromOutcome = .inr out →
      p.ended.isSome = true ∧ Stopped fromError chain p out := by
  have hended := hm.ended
  unfold LinearMachine.emitActionFromOutcome
  obtain ⟨hp, hending⟩ | ⟨hp, ⟨value, hending⟩ | ⟨error, hending⟩⟩ :=
    ending_cases fromError p.ended
  all_goals
    rw [hending] at hended
    obtain ⟨hr, he⟩ := Prod.mk.inj hended
    rw [hr, he]
  · refine ⟨?_, by rintro _ ⟨⟩⟩
    rintro _ ⟨⟩
    exact ⟨hp, hm, hactive, hresult, herror⟩
  · refine ⟨by rintro _ ⟨⟩, ?_⟩
    rintro _ ⟨⟩
    exact ⟨hp, hp, hm.flow, hm.invoked, hending ▸ congrArg (some value, ·) herror⟩
  · refine ⟨by rintro _ ⟨⟩, ?_⟩
    rintro _ ⟨⟩
    exact ⟨hp, hp, hm.flow, hm.invoked, hending ▸ congrArg (·, some error) hresult⟩

lemma act_wait (inlineN : Nat) {request : IORequest} {handler : IOHandler φ ρ}
    (h : Asked fromError chain s p request handler)
    (hbuffer : request.kind = .kConnect ∨ request.buffer.isSome = true) :
    (∀ s', s.act (LinearMachine.machine inlineN fromError) (.wait request) = .inl s' →
      IORequest.isEmpty request = true ∧ Running fromError chain s' (p.runIO handler (.ok []))) ∧
    ∀ out, s.act (LinearMachine.machine inlineN fromError) (.wait request) = .inr out →
      Stopped fromError chain p out := by
  have hasked : IORequest.isEmpty request = false →
      Stopped fromError chain p (.kNeedWait, { s with active := some request }) :=
    fun hempty => ⟨request, handler, ⟨h.program, h.machine, h.result, h.error⟩, rfl, hempty⟩
  unfold StateMachineAwaitable.act
  dsimp only
  by_cases hconnect : request.kind = .kConnect
  · rw [if_pos hconnect]
    refine ⟨by rintro _ ⟨⟩, ?_⟩
    rintro _ ⟨⟩
    exact hasked (by simp [IORequest.isEmpty, hconnect])
  · have hnonNull : ¬(request.buffer = none ∧ request.length ≠ 0) := by
      rintro ⟨hnull, -⟩
      rw [hnull] at hbuffer
      exact hbuffer.elim hconnect Bool.false_ne_true
    rw [if_neg hconnect, if_neg hnonNull]
    split
    · next hlength =>
      refine ⟨?_, by rintro _ ⟨⟩⟩
      rintro _ ⟨⟩
      refine ⟨by simp [IORequest.isEmpty, hconnect, hlength], ?_⟩
      have hdeliver := h.deliver inlineN (.ok [])
      rw [received_empty] at hdeliver
      exact hdeliver
    · next hlength =>
      refine ⟨by rintro _ ⟨⟩, ?_⟩
      rintro _ ⟨⟩
      exact hasked (by simp [IORequest.isEmpty, hlength])

def StepsTo (chain : List (ChainNode φ ρ)) (p p' : Program φ ρ) : Prop :=
  ∀ outcomes, interpretOnce chain (p, outcomes) = .inl (p', outcomes)

def Steps (chain : List (ChainNode φ ρ)) (p p' : Program φ ρ) : Prop :=
  ∀ outcomes, Loop.Rounds (interpretOnce chain) (p, outcomes) (p', outcomes)

lemma Steps.next {p'' : Program φ ρ} (h : Steps chain p p') (h' : StepsTo chain p' p'') :
    Steps chain p p'' :=
  fun outcomes => (h outcomes).tail (h' outcomes)

lemma Matches.advance_ended (h : Matches fromError chain m p) (hp : p.ended.isSome = true) :
    m.advance inlineN fromError = m.emit := by
  refine if_pos ?_
  rw [h.result, h.error]
  obtain ⟨hnone, -⟩ | ⟨-, ⟨value, hending⟩ | ⟨error, hending⟩⟩ := ending_cases fromError p.ended
  · rw [hnone] at hp
    cases hp
  all_goals
    rw [hending]
    rfl

section Chain

variable (hchain : ∀ node ∈ chain, node.QueuesNothing ∧ node.HasBuffer)

include hchain

/-- A call of `advance` makes a step of the program, or asks for the operation of its node. -/
lemma Matches.advance (inlineN : Nat) (h : Matches fromError chain m p) :
    (p.ended.isSome = true ∧ m.advance inlineN fromError = m.emit) ∨
    (∃ p', StepsTo chain p p' ∧ Advances fromError chain (m.advance inlineN fromError) p') ∨
    ∃ request handler, AtOperation chain p request handler ∧
      (request.kind = .kConnect ∨ request.buffer.isSome = true) ∧
      m.advance inlineN fromError =
        (.wait request, { m with pending := some (request.kind, m.cursor) }) := by
  cases hp : p.ended with
  | some ended =>
    have hisSome : p.ended.isSome = true := congrArg Option.isSome hp
    exact .inl ⟨rfl, h.advance_ended hisSome⟩
  | none =>
    right
    have hnode := h.node hp
    have hresult := h.result
    have herror := h.error
    rw [hp] at hresult herror
    unfold LinearMachine.advance
    rw [hnode, hresult, herror]
    cases hat : chain[p.position]? with
    | none =>
      refine .inl ⟨_, fun outcomes => ?_, h.fails hp ⟨.kNotReady, 0⟩⟩
      rw [interpretOnce, hp, hat]
      rfl
    | some node =>
      obtain ⟨hqueues, hbuffer⟩ := hchain node (List.mem_of_getElem? hat)
      cases hoperation : node.operation with
      | some operation =>
        obtain ⟨request, handler⟩ := operation
        right
        refine ⟨request, handler, ⟨hp, ⟨node, hat, hoperation⟩, hqueues.operation hoperation⟩,
          hbuffer.operation hoperation, ?_⟩
        rw [Option.map_some, toNode_operation hoperation]
        rfl
      | none =>
        left
        cases node with
        | recv | readv | send | writev | connect => cases hoperation
        | local_ handler =>
          refine ⟨_, fun outcomes => ?_, h.runLocal hp hqueues⟩
          rw [interpretOnce, hp, hat]
          rfl
        | finish handler =>
          refine ⟨_, fun outcomes => ?_, h.runLocal hp hqueues⟩
          rw [interpretOnce, hp, hat]
          rfl
        | parse handler =>
          refine ⟨_, fun outcomes => ?_, h.runParse hp hqueues⟩
          rw [interpretOnce, hp, hat]
          rfl

/-- A round of `pump` is a step of the program; the last one may only find where the program is. -/
lemma Running.pumpOnce (inlineN : Nat) (h : Running fromError chain s p) :
    (∀ s', s.pumpOnce (LinearMachine.machine inlineN fromError) = .inl s' →
      ∃ p', StepsTo chain p p' ∧ Running fromError chain s' p') ∧
    ∀ out, s.pumpOnce (LinearMachine.machine inlineN fromError) = .inr out →
      ∃ p', (p' = p ∨ StepsTo chain p p') ∧ Stopped fromError chain p' out := by
  have hready := h.awaitReady
  obtain ⟨hp, hemit⟩ | ⟨p', hstep, m, hemit, hm⟩ | ⟨request, handler, hprogram, hbuffer, hwait⟩ :=
    h.machine.advance hchain inlineN
  · rw [pumpOnce_advance hready h.active hemit]
    obtain ⟨hnext, hleave⟩ := act_emit (s := { s with calls := s.calls ++ [.advance] })
      h.machine h.active h.result h.error (LinearMachine.machine inlineN fromError)
    refine ⟨fun s' hs => ?_, fun out hout => ⟨p, .inl rfl, (hleave out hout).2⟩⟩
    rw [(hnext s' hs).1] at hp
    cases hp
  · rw [pumpOnce_advance hready h.active hemit]
    obtain ⟨hnext, hleave⟩ := act_emit
      (s := { s with machine := m, calls := s.calls ++ [.advance] }) hm h.active h.result h.error
      (LinearMachine.machine inlineN fromError)
    exact ⟨fun s' hs => ⟨p', hstep, (hnext s' hs).2⟩,
      fun out hout => ⟨p', .inr hstep, (hleave out hout).2⟩⟩
  · rw [pumpOnce_advance hready h.active hwait]
    obtain ⟨hnext, hleave⟩ := act_wait inlineN (s := { s with
        machine := { s.machine with pending := some (request.kind, s.machine.cursor) }
        calls := s.calls ++ [.advance] })
      ⟨hprogram, ⟨s.machine, h.machine, rfl⟩, h.result, h.error⟩ hbuffer
    refine ⟨fun s' hs => ?_, fun out hout => ⟨p, .inl rfl, hleave out hout⟩⟩
    obtain ⟨hempty, hrunning⟩ := hnext s' hs
    obtain ⟨node, hnode, hoperation⟩ := hprogram.node
    exact ⟨_, interpretOnce_empty hprogram.ended hnode hoperation hempty, hrunning⟩

lemma Running.pump (inlineN : Nat) (h : Running fromError chain s p) :
    (∃ s', s.pump (LinearMachine.machine inlineN fromError) = (.kCompleted, s') ∧
      s'.exhausted = some .pump) ∨
    ∃ p', Steps chain p p' ∧
      Stopped fromError chain p' (s.pump (LinearMachine.machine inlineN fromError)) := by
  unfold StateMachineAwaitable.pump
  cases hout : Loop.runFor (StateMachineAwaitable.pumpOnce (LinearMachine.machine inlineN fromError))
    kInlineTransitionCap s with
  | inl s' => exact .inl ⟨_, rfl, rfl⟩
  | inr out =>
    right
    refine Loop.runFor_rule (P := fun s => ∃ p', Steps chain p p' ∧ Running fromError chain s p')
      (Q := fun out => ∃ p', Steps chain p p' ∧ Stopped fromError chain p' out) ?_ ?_
      ⟨p, fun _ => .refl, h⟩ hout
    · rintro s₁ s₂ ⟨p₁, hsteps, hrunning⟩ hs
      obtain ⟨p₂, hstep, hrunning'⟩ := (hrunning.pumpOnce hchain inlineN).1 s₂ hs
      exact ⟨p₂, hsteps.next hstep, hrunning'⟩
    · rintro s₁ out ⟨p₁, hsteps, hrunning⟩ hs
      obtain ⟨p₂, rfl | hstep, hstopped⟩ := (hrunning.pumpOnce hchain inlineN).2 out hs
      · exact ⟨p₂, hsteps, hstopped⟩
      · exact ⟨p₂, hsteps.next hstep, hstopped⟩

lemma Running.follow (outcomes : List IOOutcome) (h : Running fromError chain s p)
    (hexhausted : (follow (LinearMachine.machine inlineN fromError) s outcomes).exhausted = none) :
    ∃ p', Loop.Leaves (interpretOnce chain) (p, outcomes) p' ∧
      Agrees fromError (Proofs.follow (LinearMachine.machine inlineN fromError) s outcomes) p' := by
  induction outcomes generalizing s p with
  | nil =>
    obtain ⟨s', hpump, hgivesUp⟩ | ⟨p', hsteps, hstopped⟩ := h.pump hchain inlineN
    · rw [follow_completed hpump, hgivesUp] at hexhausted
      cases hexhausted
    · rw [Proofs.follow] at hexhausted ⊢
      refine ⟨p', (hsteps []).leaves (.leave ?_), hstopped.agrees⟩
      exact hstopped.interpretOnce
  | cons outcome outcomes ih =>
    obtain ⟨s', hpump, hgivesUp⟩ | ⟨p', hsteps, hstopped⟩ := h.pump hchain inlineN
    · rw [follow_completed hpump, hgivesUp] at hexhausted
      cases hexhausted
    · cases hpump : s.pump (LinearMachine.machine inlineN fromError) with
      | mk progress s' =>
        rw [hpump] at hstopped
        cases progress with
        | kCompleted =>
          rw [follow_completed hpump]
          exact ⟨p', (hsteps _).leaves (.leave (interpretOnce_ended hstopped.1 _)), hstopped.2⟩
        | kNeedWait =>
          obtain ⟨request, handler, hasked, hactive, hempty⟩ := hstopped
          rw [follow_cons hpump hactive] at hexhausted ⊢
          obtain ⟨p'', hleaves, hagrees⟩ := ih (hasked.deliver inlineN outcome) hexhausted
          obtain ⟨node, hnode, hoperation⟩ := hasked.program.node
          refine ⟨p'', (hsteps _).leaves (.next ?_ hleaves), hagrees⟩
          exact interpretOnce_receives hasked.program.ended hnode hoperation hempty outcome outcomes

end Chain

/-- What `co_await` returns for a program that has ended; `none` is an abort. -/
def returned (fromError : Option (IOError → ρ)) : Except IOError ρ → Option ρ
  | .ok value => some value
  | .error error => fromError.map fun f => f error

lemma Agrees.awaitReady (h : Agrees fromError s p) : s.awaitReady = p.ended.isSome := by
  have hended := h.ended
  unfold StateMachineAwaitable.awaitReady
  obtain ⟨hp, hending⟩ | ⟨hp, ⟨value, hending⟩ | ⟨error, hending⟩⟩ := ending_cases fromError p.ended
  all_goals
    rw [hending] at hended
    obtain ⟨hresult, herror⟩ := Prod.mk.inj hended
    rw [hresult, herror, hp]
    rfl

lemma Agrees.awaitResume (h : Agrees fromError s p) {ended : Except IOError ρ}
    (hp : p.ended = some ended) (errno : Nat) :
    s.awaitResume fromError errno = returned fromError ended := by
  have hended := h.ended
  rw [hp] at hended
  unfold StateMachineAwaitable.awaitResume
  cases ended with
  | ok value =>
    obtain ⟨hresult, -⟩ := Prod.mk.inj hended
    rw [hresult]
    rfl
  | error error =>
    cases fromError with
    | some f =>
      obtain ⟨hresult, -⟩ := Prod.mk.inj hended
      rw [hresult]
      rfl
    | none =>
      obtain ⟨hresult, -⟩ := Prod.mk.inj hended
      rw [hresult]
      rfl

/-- The awaitable has called the handlers that the program of the chain calls for these outcomes, is
ready when the program has ended, and then returns what it has ended with. -/
def FollowsProgram (fromError : Option (IOError → ρ)) (chain : List (ChainNode φ ρ)) (flow : φ)
    (outcomes : List IOOutcome) (s : StateMachineAwaitable (LinearMachine φ ρ) ρ) : Prop :=
  ∃ p, Loop.Leaves (interpretOnce chain) (.new flow, outcomes) p ∧
    s.machine.invoked = p.invoked ∧ s.machine.flow = p.flow ∧ s.awaitReady = p.ended.isSome ∧
    ∀ ended errno, p.ended = some ended →
      s.awaitResume fromError errno = returned fromError ended

lemma await_agrees (chain : List (ChainNode φ ρ)) (flow : φ) (schedule : Schedule)
    (hchain : ∀ node ∈ chain, node.QueuesNothing ∧ node.HasBuffer)
    (hcap : (await (LinearMachine.machine inlineN fromError) ((buildChain chain).build flow)
      schedule).exhausted = none) :
    ∃ p, Loop.Leaves (interpretOnce chain) (.new flow, schedule.outcomes) p ∧
      Agrees fromError (await (LinearMachine.machine inlineN fromError)
        ((buildChain chain).build flow) schedule) p := by
  have hs := await_follow ((buildChain chain).build flow) schedule (by rw [hcap]; rintro ⟨⟩)
  have hrunning : Running fromError chain (.new ((buildChain chain).build flow)) (.new flow) :=
    ⟨matches_build chain flow, rfl, rfl, rfl⟩
  rw [hs] at hcap ⊢
  exact hrunning.follow hchain schedule.outcomes hcap

/-- A chain whose handlers queue nothing follows its program, unless a loop of the driver has run
out of rounds. -/
theorem chain_follows_program (inlineN : Nat) (fromError : Option (IOError → ρ))
    (chain : List (ChainNode φ ρ)) (flow : φ) (schedule : Schedule)
    (hchain : ∀ node ∈ chain, node.QueuesNothing ∧ node.HasBuffer)
    (hcap : (await (LinearMachine.machine inlineN fromError) ((buildChain chain).build flow)
      schedule).exhausted = none) :
    FollowsProgram fromError chain flow schedule.outcomes
      (await (LinearMachine.machine inlineN fromError) ((buildChain chain).build flow) schedule) := by
  obtain ⟨p, hleaves, hagrees⟩ := await_agrees chain flow schedule hchain hcap
  exact ⟨p, hleaves, hagrees.invoked, hagrees.flow, hagrees.awaitReady,
    fun ended errno hended => hagrees.awaitResume hended errno⟩

def readTwoBytes : List (ChainNode (List UInt8) (Except IOError (List UInt8))) :=
  [.recv (some 0) 16 fun outcome inbox => (inbox ++ outcome.toOption.getD [], []),
    .parse fun inbox =>
      if inbox.length < 2 then (.kNeedMore, inbox, [])
      else (.kCompleted, inbox, [.complete (.ok inbox)])]

/-- The second byte arrives after the task has been suspended. -/
def byteByByte : Schedule := .reactor [.ok [7]] [[], [.ok [8]]]

lemma readTwoBytes_queuesNothing : ∀ node ∈ readTwoBytes, node.QueuesNothing ∧ node.HasBuffer := by
  intro node hnode
  rcases List.mem_pair.mp hnode with rfl | rfl
  · exact ⟨fun _ _ _ => List.not_mem_nil, rfl⟩
  · refine ⟨fun inbox step hstep => ?_, trivial⟩
    dsimp only at hstep
    split at hstep
    · cases hstep
    · simp at hstep

def readsTwoBytes : StateMachineAwaitable (LinearMachine (List UInt8) (Except IOError (List UInt8)))
    (Except IOError (List UInt8)) :=
  await (LinearMachine.machine 4 (some .error)) ((buildChain readTwoBytes).build []) byteByByte

theorem readTwoBytes_follows_program : readsTwoBytes.result = some (.ok [7, 8]) ∧
    FollowsProgram (some .error) readTwoBytes [] byteByByte.outcomes readsTwoBytes := by
  have hfollows := chain_follows_program 4 (some .error) readTwoBytes [] byteByByte
    readTwoBytes_queuesNothing (by decide +kernel)
  exact ⟨by decide +kernel, hfollows⟩

end GalayKernel.Proofs
