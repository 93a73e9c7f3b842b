import GalayKernel.Lib.Transition
import GalayKernel.Proofs.LinearMachine

namespace GalayKernel.Proofs

open Transition SequenceAwaitable
open StateMachineAwaitable (await)

variable {φ ρ : Type} {inlineN : Nat} {steps : Nat → SequenceTask φ ρ}
  {s s' : SequenceAwaitable φ ρ}

def due (steps : Nat → SequenceTask φ ρ) (call : Invocation) : List Nat :=
  match call.status, steps call.step with
  | some .kNeedMore, .parser _ (some read) =>
    if (steps read).isLocal then [] else [read, call.step]
  | some .kContinue, .parser _ _ => [call.step]
  | _, _ => []

/-- Whatever runs after a call of a parser is first what the parser is owed. -/
def RereadsFirst (steps : Nat → SequenceTask φ ρ) (executed : List Invocation) : Prop :=
  ∀ before call after, executed = before ++ call :: after →
    ∀ (i step : Nat) (next : Invocation), (due steps call)[i]? = some step →
      after[i]? = some next → next.step = step

def SequenceOp.isClear : SequenceOp ρ → Bool
  | .clear => true
  | _ => false

/-- A handler completes, or does not clear the queue. -/
def keepsQueue (ops : List (SequenceOp ρ)) : Bool :=
  (completion ops).isSome || ops.all fun op => !SequenceOp.isClear op

/-- The handlers do not clear the queue, and with `kNeedMore` or `kContinue` a parser is alone in
it. -/
def undisturbed (steps : Nat → SequenceTask φ ρ) (s : SequenceAwaitable φ ρ)
    (outcome : Option IOOutcome) : Bool :=
  match s.queue.tasks with
  | [] => true
  | task :: behind =>
    match steps task, outcome with
    | .io kind handler, some outcome => keepsQueue (handler (kind.received outcome) s.flow).2
    | .local_ handler, none => keepsQueue (handler s.flow).2
    | .parser handler _, none =>
      keepsQueue (handler s.flow).2.2 && ((handler s.flow).1 = .kCompleted ||
        (completion (handler s.flow).2.2).isSome ||
        behind.isEmpty && (handler s.flow).2.2.isEmpty)
    | _, _ => true

def Ends (q : SequenceQueue ρ) : Prop := q.aborted = true ∨ q.result.isSome = true

section Queue

variable {q : SequenceQueue ρ} {ops : List (SequenceOp ρ)}

lemma Ends.emplaceTask (h : Ends q) (step : Nat) : Ends (q.emplaceTask inlineN step) := by
  unfold SequenceQueue.emplaceTask
  split
  · exact .inl rfl
  · exact h

lemma emplaceTask_tasks (inlineN : Nat) (q : SequenceQueue ρ) (step : Nat) :
    Ends (q.emplaceTask inlineN step) ∨
      (q.emplaceTask inlineN step).tasks = q.tasks ++ [step] := by
  unfold SequenceQueue.emplaceTask
  split
  · exact .inl (.inl rfl)
  · exact .inr rfl

lemma Ends.performAll (h : Ends q) : Ends (q.performAll inlineN ops) := by
  induction ops generalizing q with
  | nil => exact h
  | cons op ops ih =>
    refine ih ?_
    cases op with
    | queue step => exact h.emplaceTask step
    | clear => exact h
    | complete value => exact .inr rfl

lemma ends_of_completion (h : (completion ops).isSome = true) : Ends (q.performAll inlineN ops) := by
  induction ops generalizing q with
  | nil => cases h
  | cons op ops ih =>
    cases op with
    | queue step => exact ih h
    | clear => exact ih h
    | complete value => exact Ends.performAll (q := q.complete value) (.inr rfl)

lemma tasks_performAll (h : ops.all (fun op => !SequenceOp.isClear op) = true) :
    Ends (q.performAll inlineN ops) ∨ q.tasks <+: (q.performAll inlineN ops).tasks := by
  induction ops generalizing q with
  | nil => exact .inr (List.prefix_refl _)
  | cons op ops ih =>
    rw [List.all_cons, Bool.and_eq_true] at h
    cases op with
    | queue step =>
      obtain hends | htasks := emplaceTask_tasks inlineN q step
      · exact .inl hends.performAll
      · refine (ih (q := q.emplaceTask inlineN step) h.2).imp_right fun hprefix => ?_
        rw [htasks] at hprefix
        exact (List.prefix_append ..).trans hprefix
    | clear => cases h.1
    | complete value => exact .inl (Ends.performAll (q := q.complete value) (.inr rfl))

lemma keepsQueue_tasks (inlineN : Nat) (q : SequenceQueue ρ) (h : keepsQueue ops = true) :
    Ends (q.performAll inlineN ops) ∨ q.tasks <+: (q.performAll inlineN ops).tasks := by
  obtain hcompletion | hclear := (Bool.or_eq_true ..).mp h
  · exact .inl (ends_of_completion hcompletion)
  · exact tasks_performAll hclear

lemma Ends.consumeFrontIfSame (h : Ends q) (step : Nat) : Ends (q.consumeFrontIfSame step) := by
  unfold SequenceQueue.consumeFrontIfSame
  split <;> exact h

lemma consumeFrontIfSame_tasks {task : Nat} {behind : List Nat} (h : task :: behind <+: q.tasks) :
    behind <+: (q.consumeFrontIfSame task).tasks := by
  obtain ⟨rest, hrest⟩ := h
  rw [SequenceQueue.consumeFrontIfSame, ← hrest, List.cons_append, List.head?_cons, if_pos rfl,
    SequenceQueue.popFront, ← hrest]
  exact List.prefix_append ..

end Queue

/-- What a step does: it calls the handler at the front of the queue, and leaves the queue with what
is owed for this call and with what was behind it. -/
structure Runs (steps : Nat → SequenceTask φ ρ) (s s' : SequenceAwaitable φ ρ) (call : Invocation)
    (behind : List Nat) : Prop where
  running : ¬Ends s.queue
  front : s.queue.tasks = call.step :: behind
  executed : s'.executed = s.executed ++ [call]
  queue : Ends s'.queue ∨ due steps call <+: s'.queue.tasks ∧ behind <+: s'.queue.tasks

lemma queue_of_keepsQueue {q : SequenceQueue ρ} {task : Nat} {behind : List Nat}
    (hq : q.tasks = task :: behind) {ops : List (SequenceOp ρ)} (hops : keepsQueue ops = true) :
    Ends ((q.performAll inlineN ops).consumeFrontIfSame task) ∨
      behind <+: ((q.performAll inlineN ops).consumeFrontIfSame task).tasks := by
  obtain hends | hprefix := keepsQueue_tasks inlineN q hops
  · exact .inl (hends.consumeFrontIfSame task)
  · rw [hq] at hprefix
    exact .inr (consumeFrontIfSame_tasks hprefix)

lemma Ends.rearm {q : SequenceQueue ρ} (h : Ends q) (step : Nat) (rearmStep : Option Nat)
    (status : ParseStatus) : Ends (rearm inlineN steps q step rearmStep status) := by
  unfold SequenceAwaitable.rearm
  cases status with
  | kNeedMore =>
    cases rearmStep with
    | none => exact h
    | some read =>
      dsimp only
      split
      · exact h
      · exact (h.emplaceTask read).emplaceTask step
  | kContinue => exact h.emplaceTask step
  | kCompleted => exact h

lemma queue_rearm {q : SequenceQueue ρ} {task : Nat} (hq : q.tasks = [task])
    {handler : ParseHandler φ ρ} {rearmStep : Option Nat}
    (htask : steps task = .parser handler rearmStep) (status : ParseStatus) :
    Ends ((rearm inlineN steps q task rearmStep status).consumeFrontIfSame task) ∨
      due steps ⟨task, none, some status⟩ <+:
        ((rearm inlineN steps q task rearmStep status).consumeFrontIfSame task).tasks := by
  unfold due rearm
  rw [htask]
  cases status with
  | kCompleted => exact .inr (List.nil_prefix)
  | kContinue =>
    obtain hends | htasks := emplaceTask_tasks inlineN q task
    · exact .inl (hends.consumeFrontIfSame task)
    · refine .inr (consumeFrontIfSame_tasks ?_)
      rw [htasks, hq]
      exact List.prefix_refl _
  | kNeedMore =>
    cases rearmStep with
    | none => exact .inr (List.nil_prefix)
    | some read =>
      dsimp only
      split
      · exact .inr (List.nil_prefix)
      · obtain hends | htasks := emplaceTask_tasks inlineN q read
        · exact .inl ((hends.emplaceTask task).consumeFrontIfSame task)
        · obtain hends | htasks' := emplaceTask_tasks inlineN (q.emplaceTask inlineN read) task
          · exact .inl (hends.consumeFrontIfSame task)
          · refine .inr (consumeFrontIfSame_tasks ?_)
            rw [htasks', htasks, hq]
            exact List.prefix_refl _

lemma due_of_status_none (step : Nat) (outcome : Option IOOutcome) :
    due steps ⟨step, outcome, none⟩ = [] :=
  rfl

lemma step_inv {outcome : Option IOOutcome} (hs : s.step inlineN steps outcome = some s') :
    ¬Ends s.queue ∧ ∃ task behind s₁, s.queue.tasks = task :: behind ∧
      s.onEvent inlineN steps task outcome = some s₁ ∧
      s' = { s₁ with queue := s₁.queue.consumeFrontIfSame task } := by
  unfold SequenceAwaitable.step at hs
  rw [Option.ite_none_left_eq_some, Bool.or_eq_true] at hs
  obtain ⟨hrunning, hs⟩ := hs
  cases hq : s.queue.tasks with
  | nil =>
    rw [hq] at hs
    cases hs
  | cons task behind =>
    rw [hq] at hs
    obtain ⟨s₁, hevent, rfl⟩ := Option.map_eq_some_iff.mp hs
    exact ⟨hrunning, task, behind, s₁, rfl, hevent, rfl⟩

lemma step_runs {outcome : Option IOOutcome} (hok : undisturbed steps s outcome = true)
    (hs : s.step inlineN steps outcome = some s') :
    ∃ call behind, Runs steps s s' call behind := by
  obtain ⟨hrunning, task, behind, s₁, hq, hevent, rfl⟩ := step_inv hs
  unfold undisturbed at hok
  rw [hq] at hok
  dsimp only at hok
  unfold onEvent at hevent
  cases htask : steps task with
  | io kind handler =>
    rw [htask] at hok hevent
    cases outcome with
    | none => cases hevent
    | some outcome =>
      cases hevent
      refine ⟨_, behind, hrunning, hq, rfl, ?_⟩
      rw [due_of_status_none]
      exact (queue_of_keepsQueue hq hok).imp_right fun hbehind => ⟨List.nil_prefix, hbehind⟩
  | local_ handler =>
    rw [htask] at hok hevent
    cases outcome with
    | some outcome => cases hevent
    | none =>
      cases hevent
      refine ⟨_, behind, hrunning, hq, rfl, ?_⟩
      rw [due_of_status_none]
      exact (queue_of_keepsQueue hq hok).imp_right fun hbehind => ⟨List.nil_prefix, hbehind⟩
  | parser handler rearmStep =>
    rw [htask] at hok hevent
    cases outcome with
    | some outcome => cases hevent
    | none =>
      cases hevent
      refine ⟨_, behind, hrunning, hq, rfl, ?_⟩
      rw [Bool.and_eq_true, Bool.or_eq_true, Bool.or_eq_true, decide_eq_true_iff] at hok
      obtain ⟨hops, (hcompleted | hcompletion) | halone⟩ := hok
      · dsimp only
        rw [hcompleted]
        exact (queue_of_keepsQueue hq hops).imp_right fun hbehind => ⟨List.nil_prefix, hbehind⟩
      · exact .inl (((ends_of_completion hcompletion).rearm ..).consumeFrontIfSame task)
      · rw [Bool.and_eq_true, List.isEmpty_iff, List.isEmpty_iff] at halone
        obtain ⟨rfl, hnone⟩ := halone
        dsimp only
        rw [hnone]
        exact (queue_rearm hq htask _).imp_right fun hdue => ⟨hdue, List.nil_prefix⟩

/-- What is still owed is at the front of the queue. -/
def OwesInFront (steps : Nat → SequenceTask φ ρ) (s : SequenceAwaitable φ ρ) : Prop :=
  ∀ before call after, s.executed = before ++ call :: after →
    Ends s.queue ∨ (due steps call).drop after.length <+: s.queue.tasks

lemma append_singleton_split {log before after : List Invocation} {last call : Invocation}
    (h : log ++ [last] = before ++ call :: after) :
    (call = last ∧ after = []) ∨ ∃ after', after = after' ++ [last] ∧
      log = before ++ call :: after' := by
  obtain rfl | ⟨after', x, rfl⟩ := List.eq_nil_or_concat after
  · obtain ⟨-, hlast⟩ := List.append_inj' h rfl
    exact .inl ⟨(List.singleton_inj.mp hlast).symm, rfl⟩
  · rw [List.concat_eq_append, ← List.cons_append, ← List.append_assoc] at h
    obtain ⟨hlog, hlast⟩ := List.append_inj' h rfl
    rw [List.singleton_inj] at hlast
    exact .inr ⟨after', by rw [hlast, List.concat_eq_append], hlog⟩

/-- What is owed at the front of a queue when its first step runs. -/
lemma drop_prefix_cons {owed behind : List Nat} {k task : Nat} (h : owed.drop k <+: task :: behind) :
    (∀ step, owed[k]? = some step → task = step) ∧ owed.drop (k + 1) <+: behind := by
  rw [← List.head?_drop, ← List.tail_drop]
  cases hdrop : owed.drop k with
  | nil => exact ⟨by rintro _ ⟨⟩, List.nil_prefix⟩
  | cons step owed' =>
    rw [hdrop, List.cons_prefix_cons] at h
    refine ⟨?_, h.2⟩
    rintro _ ⟨⟩
    exact h.1.symm

lemma Runs.rereadsFirst {call : Invocation} {behind : List Nat} (h : Runs steps s s' call behind)
    (hlog : RereadsFirst steps s.executed) (hfront : OwesInFront steps s) :
    RereadsFirst steps s'.executed := by
  intro before call' after hsplit i step next hstep hnext
  rw [h.executed] at hsplit
  obtain ⟨rfl, rfl⟩ | ⟨after', rfl, hsplit'⟩ := append_singleton_split hsplit
  · cases hnext
  · obtain hi | rfl | hi := Nat.lt_trichotomy i after'.length
    · rw [List.getElem?_append_left hi] at hnext
      exact hlog before call' after' hsplit' i step next hstep hnext
    · -- the step that has just run was at the front of the queue
      rw [List.getElem?_concat_length, Option.some.injEq] at hnext
      subst hnext
      have hprefix := (hfront before call' after' hsplit').resolve_left h.running
      rw [h.front] at hprefix
      exact (drop_prefix_cons hprefix).1 step hstep
    · rw [List.getElem?_eq_none (by rw [List.length_append, List.length_singleton]; omega)] at hnext
      cases hnext

lemma Runs.owesInFront {call : Invocation} {behind : List Nat} (h : Runs steps s s' call behind)
    (hfront : OwesInFront steps s) : OwesInFront steps s' := by
  intro before call' after hsplit
  rw [h.executed] at hsplit
  obtain hends | ⟨hdue, hbehind⟩ := h.queue
  · exact .inl hends
  · right
    obtain ⟨rfl, rfl⟩ | ⟨after', rfl, hsplit'⟩ := append_singleton_split hsplit
    · exact hdue
    · have hprefix := (hfront before call' after' hsplit').resolve_left h.running
      rw [h.front] at hprefix
      rw [List.length_append, List.length_singleton]
      exact (drop_prefix_cons hprefix).2.trans hbehind

lemma reaches_rereadsFirst {flow : φ} {tasks : List Nat}
    (h : Reaches (step inlineN steps) (fun s outcome => undisturbed steps s outcome = true)
      (.new flow tasks) s) : RereadsFirst steps s.executed ∧ OwesInFront steps s := by
  refine h.invariant (P := fun s => RereadsFirst steps s.executed ∧ OwesInFront steps s) ?_ ?_
  · refine ⟨fun before call after hsplit => ?_, fun before call after hsplit => ?_⟩
    all_goals exact absurd hsplit (by simp [SequenceAwaitable.new])
  · rintro s outcome s' ⟨hlog, hfront⟩ hok hs
    obtain ⟨call, behind, hruns⟩ := step_runs hok hs
    exact ⟨hruns.rereadsFirst hlog hfront, hruns.owesInFront hfront⟩

section Chain

variable {chain : List (ChainNode φ ρ)} {p p' : Program φ ρ}

def ChainNode.toTask (read : Option Nat) : ChainNode φ ρ → SequenceTask φ ρ
  | .recv _ _ handler => .io .kRead handler
  | .readv _ _ handler => .io .kReadv handler
  | .send _ _ handler => .io .kWrite handler
  | .writev _ _ handler => .io .kWritev handler
  | .connect _ handler => .io .kConnect handler
  | .local_ handler | .finish handler => .local_ handler
  | .parse handler => .parser handler read

def chainSteps (chain : List (ChainNode φ ρ)) (i : Nat) : SequenceTask φ ρ :=
  match chain[i]? with
  | some node => node.toTask (lastRead chain i)
  | none => .local_ fun flow => (flow, [])

lemma toTask_operation {node : ChainNode φ ρ} {request : IORequest} {handler : IOHandler φ ρ}
    (h : node.operation = some (request, handler)) (read : Option Nat) :
    node.toTask read = .io request.kind handler := by
  cases node <;> cases h <;> rfl

lemma received_received (kind : ActiveKind) (outcome : IOOutcome) :
    kind.received (kind.received outcome) = kind.received outcome := by
  cases kind <;> cases outcome <;> rfl

/-- A chain whose parsers stand right behind the reads that they queue again, and whose handlers
queue nothing and complete when an operation fails. -/
structure SequencedChain (chain : List (ChainNode φ ρ)) : Prop where
  handlers : ∀ node ∈ chain, node.QueuesNothing ∧ node.HasBuffer
  operations : ∀ node ∈ chain, ∀ request handler, node.operation = some (request, handler) →
    IORequest.isEmpty request = false ∧
      ∀ error flow, (completion (handler (.error error) flow).2).isSome = true
  parsers : ∀ i handler read, chain[i]? = some (.parse handler) → lastRead chain i = some read →
    read + 1 = i

def HoldsRest (chain : List (ChainNode φ ρ)) (p : Program φ ρ) (q : SequenceQueue ρ) : Prop :=
  match p.ended with
  | none => q.aborted = false ∧ q.result = none ∧
      q.tasks = List.range' p.position (chain.length - p.position)
  | some (.ok value) => q.result = some value
  | some (.error _) => q.tasks = []

structure Tracks (chain : List (ChainNode φ ρ)) (s : SequenceAwaitable φ ρ) (p : Program φ ρ) :
    Prop where
  flow : s.flow = p.flow
  executed : s.executed = p.invoked
  queue : HoldsRest chain p s.queue

def operationOutcomes (executed : List Invocation) : List IOOutcome :=
  executed.filterMap Invocation.outcome

structure AtFront (chain : List (ChainNode φ ρ)) (s : SequenceAwaitable φ ρ) (p : Program φ ρ)
    (behind : List Nat) : Prop where
  ended : p.ended = none
  position : p.position < chain.length
  queue : s.queue = ⟨p.position :: behind, none, s.queue.error, false⟩
  rest : behind = List.range' (p.position + 1) (chain.length - (p.position + 1))

lemma Tracks.front (h : Tracks chain s p) (hrunning : ¬Ends s.queue) {task : Nat} {behind : List Nat}
    (hq : s.queue.tasks = task :: behind) : task = p.position ∧ AtFront chain s p behind := by
  have hqueue := h.queue
  unfold HoldsRest at hqueue
  rcases hended : p.ended with _ | error | value
  · rw [hended] at hqueue
    obtain ⟨haborted, hresult, htasks⟩ := hqueue
    rw [hq] at htasks
    obtain ⟨k, hk⟩ : ∃ k, chain.length - p.position = k + 1 := by
      cases hk : chain.length - p.position with
      | zero =>
        rw [hk] at htasks
        cases htasks
      | succ k => exact ⟨k, rfl⟩
    rw [hk, List.range'_succ] at htasks
    obtain ⟨rfl, hbehind⟩ := List.cons.inj htasks
    refine ⟨rfl, hended, by omega, ?_, ?_⟩
    · rw [← hq, ← hresult, ← haborted]
    · rw [hbehind]
      congr 1
      omega
  · rw [hended] at hqueue
    cases hq.symm.trans hqueue
  · rw [hended] at hqueue
    exact absurd (.inr (congrArg Option.isSome hqueue)) hrunning

lemma eq_nil_of_keepsQueue {ops : List (SequenceOp ρ)} (hqueues : QueuesNothing ops)
    (hkeeps : keepsQueue ops = true) (hcompletion : completion ops = none) : ops = [] := by
  rw [keepsQueue, hcompletion] at hkeeps
  cases ops with
  | nil => rfl
  | cons op ops =>
    cases op with
    | queue step => exact absurd List.mem_cons_self (hqueues step)
    | clear => cases hkeeps
    | complete value => cases hcompletion

lemma consumeFrontIfSame_result (q : SequenceQueue ρ) (step : Nat) :
    (q.consumeFrontIfSame step).result = q.result := by
  unfold SequenceQueue.consumeFrontIfSame
  split <;> rfl

lemma consumeFrontIfSame_cons (task : Nat) (behind : List Nat) (result : Option ρ)
    (error : Option IOError) (aborted : Bool) :
    SequenceQueue.consumeFrontIfSame ⟨task :: behind, result, error, aborted⟩ task =
      ⟨behind, result, error, aborted⟩ :=
  if_pos rfl

lemma result_of_completion {ops : List (SequenceOp ρ)} (hqueues : QueuesNothing ops) {value : ρ}
    (hcompletion : completion ops = some value) (q : SequenceQueue ρ) :
    (q.performAll inlineN ops).result = some value := by
  rw [performAll_of_queuesNothing hqueues, hcompletion]
  rfl

lemma AtFront.next {behind : List Nat} (h : AtFront chain s p behind) {ops : List (SequenceOp ρ)}
    (hops : ops = []) :
    HoldsRest chain (p.goTo (p.position + 1))
      ((s.queue.performAll inlineN ops).consumeFrontIfSame p.position) := by
  rw [hops, SequenceQueue.performAll, List.foldl_nil, h.queue, consumeFrontIfSame_cons]
  unfold HoldsRest Program.goTo
  rw [h.ended]
  exact ⟨rfl, rfl, h.rest⟩

lemma Tracks.runIO {behind : List Nat} (h : Tracks chain s p) (hfront : AtFront chain s p behind)
    {handler : IOHandler φ ρ} (outcome : IOOutcome)
    (hqueues : QueuesNothing (handler outcome s.flow).2)
    (hkeeps : keepsQueue (handler outcome s.flow).2 = true)
    (herror : ∀ error, outcome = .error error →
      (completion (handler outcome s.flow).2).isSome = true) :
    Tracks chain ⟨(handler outcome s.flow).1,
      (s.queue.performAll inlineN (handler outcome s.flow).2).consumeFrontIfSame p.position,
      s.executed ++ [⟨p.position, some outcome, none⟩]⟩ (p.runIO handler outcome) := by
  unfold Program.runIO
  rw [← h.flow]
  dsimp only
  cases hcompletion : completion (handler outcome s.flow).2 with
  | some value =>
    refine ⟨rfl, congrArg (· ++ _) h.executed, ?_⟩
    exact (consumeFrontIfSame_result ..).trans (result_of_completion hqueues hcompletion _)
  | none =>
    have hops := eq_nil_of_keepsQueue hqueues hkeeps hcompletion
    cases outcome with
    | ok data => exact ⟨rfl, congrArg (· ++ _) h.executed, hfront.next hops⟩
    | error error =>
      have hcompletes := herror error rfl
      rw [hcompletion] at hcompletes
      cases hcompletes

lemma Tracks.runLocal {behind : List Nat} (h : Tracks chain s p) (hfront : AtFront chain s p behind)
    {handler : LocalHandler φ ρ} (hqueues : QueuesNothing (handler s.flow).2)
    (hkeeps : keepsQueue (handler s.flow).2 = true) :
    Tracks chain ⟨(handler s.flow).1,
      (s.queue.performAll inlineN (handler s.flow).2).consumeFrontIfSame p.position,
      s.executed ++ [⟨p.position, none, none⟩]⟩ (p.runLocal handler) := by
  unfold Program.runLocal
  rw [← h.flow]
  dsimp only
  cases hcompletion : completion (handler s.flow).2 with
  | some value =>
    refine ⟨rfl, congrArg (· ++ _) h.executed, ?_⟩
    exact (consumeFrontIfSame_result ..).trans (result_of_completion hqueues hcompletion _)
  | none =>
    have hops := eq_nil_of_keepsQueue hqueues hkeeps hcompletion
    exact ⟨rfl, congrArg (· ++ _) h.executed, hfront.next hops⟩

lemma rearm_result (q : SequenceQueue ρ) (step : Nat) (rearmStep : Option Nat)
    (status : ParseStatus) : (rearm inlineN steps q step rearmStep status).result = q.result := by
  have hemplace : ∀ (q : SequenceQueue ρ) step, (q.emplaceTask inlineN step).result = q.result := by
    intro q step
    unfold SequenceQueue.emplaceTask
    split <;> rfl
  unfold SequenceAwaitable.rearm
  cases status with
  | kNeedMore =>
    cases rearmStep with
    | none => rfl
    | some read =>
      dsimp only
      split
      · rfl
      · rw [hemplace, hemplace]
  | kContinue => exact hemplace q step
  | kCompleted => rfl

lemma isLocal_lastRead {i read : Nat} (h : lastRead chain i = some read) :
    (chainSteps chain read).isLocal = false := by
  have hread := lastRead_isRead h
  unfold chainSteps
  cases hnode : chain[read]? with
  | none =>
    rw [hnode] at hread
    cases hread
  | some node =>
    rw [hnode, Option.any_some] at hread
    cases node <;> first | rfl | cases hread

lemma emplaceTask_of_lt {tasks : List Nat} (h : tasks.length < inlineN) (step : Nat)
    (result : Option ρ) (error : Option IOError) :
    SequenceQueue.emplaceTask inlineN ⟨tasks, result, error, false⟩ step =
      ⟨tasks ++ [step], result, error, false⟩ :=
  if_neg (Nat.not_le_of_lt h)

/-- A parser at the end of the chain is called again, or goes back to its read. -/
lemma AtFront.rearm (h : AtFront chain s p []) (hinline : 3 ≤ inlineN)
    (hadjacent : ∀ read, lastRead chain p.position = some read → read + 1 = p.position) :
    HoldsRest chain p ((rearm inlineN (chainSteps chain) s.queue p.position
      (lastRead chain p.position) .kContinue).consumeFrontIfSame p.position) ∧
    HoldsRest chain (match lastRead chain p.position with
      | some read => p.goTo read
      | none => p.stop (.error ⟨.kParamInvalid, 0⟩))
      ((rearm inlineN (chainSteps chain) s.queue p.position
        (lastRead chain p.position) .kNeedMore).consumeFrontIfSame p.position) := by
  have hlast : chain.length = p.position + 1 := by
    have hlength := congrArg List.length h.rest
    rw [List.length_nil, List.length_range'] at hlength
    have hposition := h.position
    omega
  unfold SequenceAwaitable.rearm
  rw [h.queue]
  constructor
  · dsimp only
    rw [emplaceTask_of_lt (by rw [List.length_singleton]; omega)]
    unfold HoldsRest
    rw [h.ended, List.singleton_append, consumeFrontIfSame_cons, hlast, Nat.add_sub_cancel_left]
    exact ⟨rfl, rfl, rfl⟩
  · cases hread : lastRead chain p.position with
    | none => rfl
    | some read =>
      have hposition := hadjacent read hread
      dsimp only
      rw [isLocal_lastRead hread, if_neg Bool.false_ne_true,
        emplaceTask_of_lt (by rw [List.length_singleton]; omega), List.singleton_append,
        emplaceTask_of_lt (by rw [List.length_cons, List.length_singleton]; omega),
        List.cons_append, consumeFrontIfSame_cons]
      have htwo : chain.length - read = 2 := by omega
      unfold HoldsRest Program.goTo
      rw [h.ended, htwo, ← hposition]
      exact ⟨rfl, rfl, rfl⟩

lemma Tracks.runParse {behind : List Nat} (h : Tracks chain s p) (hfront : AtFront chain s p behind)
    (hinline : 3 ≤ inlineN)
    (hadjacent : ∀ read, lastRead chain p.position = some read → read + 1 = p.position)
    {handler : ParseHandler φ ρ} (hqueues : QueuesNothing (handler s.flow).2.2)
    (hkeeps : keepsQueue (handler s.flow).2.2 = true)
    (halone : ((handler s.flow).1 = .kCompleted ∨
      (completion (handler s.flow).2.2).isSome = true) ∨ behind = []) :
    Tracks chain ⟨(handler s.flow).2.1,
      (rearm inlineN (chainSteps chain) (s.queue.performAll inlineN (handler s.flow).2.2) p.position
        (lastRead chain p.position) (handler s.flow).1).consumeFrontIfSame p.position,
      s.executed ++ [⟨p.position, none, some (handler s.flow).1⟩]⟩
      (p.runParse handler (lastRead chain p.position)) := by
  unfold Program.runParse
  rw [← h.flow]
  generalize handler s.flow = out at hqueues hkeeps halone ⊢
  obtain ⟨status, flow, ops⟩ := out
  dsimp only at hqueues hkeeps halone ⊢
  cases hcompletion : completion ops with
  | some value =>
    refine ⟨rfl, congrArg (· ++ _) h.executed, ?_⟩
    exact (consumeFrontIfSame_result ..).trans
      ((rearm_result ..).trans (result_of_completion hqueues hcompletion _))
  | none =>
    have hops := eq_nil_of_keepsQueue hqueues hkeeps hcompletion
    cases status with
    | kCompleted => exact ⟨rfl, congrArg (· ++ _) h.executed, hfront.next hops⟩
    | kContinue =>
      obtain (hcompleted | hsome) | rfl := halone
      · cases hcompleted
      · rw [hcompletion] at hsome
        cases hsome
      · rw [hops]
        exact ⟨rfl, congrArg (· ++ _) h.executed, (hfront.rearm hinline hadjacent).1⟩
    | kNeedMore =>
      obtain (hcompleted | hsome) | rfl := halone
      · cases hcompleted
      · rw [hcompletion] at hsome
        cases hsome
      · have hrest := (hfront.rearm hinline hadjacent).2
        rw [hops]
        cases hread : lastRead chain p.position with
        | none =>
          rw [hread] at hrest
          exact ⟨rfl, congrArg (· ++ _) h.executed, hrest⟩
        | some read =>
          rw [hread] at hrest
          exact ⟨rfl, congrArg (· ++ _) h.executed, hrest⟩

lemma Tracks.step (hchain : SequencedChain chain) (hinline : 3 ≤ inlineN) (h : Tracks chain s p)
    {outcome : Option IOOutcome} (hok : undisturbed (chainSteps chain) s outcome = true)
    (hs : s.step inlineN (chainSteps chain) outcome = some s') :
    ∃ p' call, Tracks chain s' p' ∧ s'.executed = s.executed ++ [call] ∧
      ∀ later, interpretOnce chain (p, call.outcome.toList ++ later) = .inl (p', later) := by
  obtain ⟨hrunning, task, behind, s₁, hq, hevent, rfl⟩ := step_inv hs
  obtain ⟨rfl, hfront⟩ := h.front hrunning hq
  obtain ⟨node, hnode⟩ : ∃ node, chain[p.position]? = some node :=
    ⟨_, List.getElem?_eq_getElem hfront.position⟩
  have hstep : chainSteps chain p.position = node.toTask (lastRead chain p.position) := by
    rw [chainSteps, hnode]
  obtain ⟨hqueues, -⟩ := hchain.handlers node (List.mem_of_getElem? hnode)
  unfold undisturbed at hok
  unfold onEvent at hevent
  rw [hq] at hok
  dsimp only at hok
  rw [hstep] at hok hevent
  cases hoperation : node.operation with
  | some operation =>
    obtain ⟨request, handler⟩ := operation
    obtain ⟨hempty, herrors⟩ :=
      hchain.operations node (List.mem_of_getElem? hnode) request handler hoperation
    rw [toTask_operation hoperation] at hok hevent
    cases outcome with
    | none => cases hevent
    | some outcome =>
      cases hevent
      refine ⟨_, _, h.runIO hfront (request.kind.received outcome)
        (hqueues.operation hoperation _ _) hok ?_, rfl, fun later => ?_⟩
      · intro error herror
        rw [herror]
        exact herrors error s.flow
      · refine (interpretOnce_receives hfront.ended hnode hoperation hempty _ later).trans ?_
        rw [received_received]
  | none =>
    cases node with
    | recv | readv | send | writev | connect => cases hoperation
    | local_ handler =>
      cases outcome with
      | some outcome => cases hevent
      | none =>
        cases hevent
        refine ⟨_, _, h.runLocal hfront (hqueues _) hok, rfl, fun later => ?_⟩
        rw [interpretOnce, hfront.ended, hnode]
        rfl
    | finish handler =>
      cases outcome with
      | some outcome => cases hevent
      | none =>
        cases hevent
        refine ⟨_, _, h.runLocal hfront (hqueues _) hok, rfl, fun later => ?_⟩
        rw [interpretOnce, hfront.ended, hnode]
        rfl
    | parse handler =>
      cases outcome with
      | some outcome => cases hevent
      | none =>
        cases hevent
        dsimp only [ChainNode.toTask] at hok
        rw [Bool.and_eq_true, Bool.or_eq_true, Bool.or_eq_true, decide_eq_true_iff] at hok
        obtain ⟨hkeeps, halone⟩ := hok
        have hbehind := halone.imp_right fun hempty =>
          List.isEmpty_iff.mp ((Bool.and_eq_true ..).mp hempty).1
        refine ⟨_, _, h.runParse hfront hinline (fun read => hchain.parsers _ handler read hnode)
          (hqueues _) hkeeps hbehind, rfl, fun later => ?_⟩
        rw [interpretOnce, hfront.ended, hnode]
        rfl

lemma reaches_tracks (hchain : SequencedChain chain) (hinline : 3 ≤ inlineN) {flow : φ}
    (h : Reaches (SequenceAwaitable.step inlineN (chainSteps chain))
      (fun s outcome => undisturbed (chainSteps chain) s outcome = true)
      (.new flow (List.range chain.length)) s) :
    ∃ p, Tracks chain s p ∧ ∀ later, Loop.Rounds (interpretOnce chain)
      (.new flow, operationOutcomes s.executed ++ later) (p, later) := by
  refine h.invariant (P := fun s => ∃ p, Tracks chain s p ∧ ∀ later,
    Loop.Rounds (interpretOnce chain) (.new flow, operationOutcomes s.executed ++ later)
      (p, later)) ?_ ?_
  · refine ⟨.new flow, ⟨rfl, rfl, rfl, rfl, ?_⟩, fun later => .refl⟩
    exact List.range_eq_range'
  · rintro s outcome s' ⟨p, htracks, hrounds⟩ hok hs
    obtain ⟨p', call, htracks', hexecuted, hstep⟩ := htracks.step hchain hinline hok hs
    refine ⟨p', htracks', fun later => ?_⟩
    rw [hexecuted, operationOutcomes, List.filterMap_append, List.append_assoc]
    refine (hrounds _).tail ?_
    have hcall : [call].filterMap Invocation.outcome = call.outcome.toList := by
      cases houtcome : call.outcome <;> simp [houtcome]
    rw [hcall]
    exact hstep later

/-- Where no step can run without an outcome, the program waits or has ended. -/
lemma Tracks.leaves (hchain : SequencedChain chain) (h : Tracks chain s p)
    (hidle : s.step inlineN (chainSteps chain) none = none) :
    ∃ p', Loop.Leaves (interpretOnce chain) (p, []) p' ∧ p'.invoked = s.executed := by
  cases hended : p.ended with
  | some ended =>
    exact ⟨p, .leave (interpretOnce_ended (congrArg Option.isSome hended) []), h.executed.symm⟩
  | none =>
    have hqueue := h.queue
    unfold HoldsRest at hqueue
    rw [hended] at hqueue
    obtain ⟨haborted, hresult, htasks⟩ := hqueue
    cases hnode : chain[p.position]? with
    | none =>
      refine ⟨p.stop (.error ⟨.kNotReady, 0⟩), .next ?_ (.leave (interpretOnce_ended rfl [])),
        h.executed.symm⟩
      rw [interpretOnce, hended, hnode]
      rfl
    | some node =>
      cases hoperation : node.operation with
      | some operation =>
        obtain ⟨hempty, -⟩ := hchain.operations node (List.mem_of_getElem? hnode) operation.1
          operation.2 hoperation
        exact ⟨p, .leave (interpretOnce_waits hended hnode hoperation hempty), h.executed.symm⟩
      | none =>
        exfalso
        obtain ⟨k, hk⟩ : ∃ k, chain.length - p.position = k + 1 := by
          have hposition := (List.getElem?_eq_some_iff.mp hnode).1
          exact ⟨chain.length - p.position - 1, by omega⟩
        unfold SequenceAwaitable.step onEvent chainSteps at hidle
        rw [haborted, hresult, htasks, hk, List.range'_succ] at hidle
        dsimp only at hidle
        rw [hnode] at hidle
        cases node with
        | recv | readv | send | writev | connect => cases hoperation
        | local_ | finish | parse => cases hidle

end Chain

/-- The linear machine of the chain calls the same handlers for the same outcomes. -/
def InLinearOrder (inlineN : Nat) (fromError : Option (IOError → ρ)) (chain : List (ChainNode φ ρ))
    (flow : φ) (executed : List Invocation) : Prop :=
  ∀ schedule : Schedule, schedule.outcomes = operationOutcomes executed →
    (await (LinearMachine.machine inlineN fromError) ((buildChain chain).build flow)
      schedule).exhausted = none →
    (await (LinearMachine.machine inlineN fromError) ((buildChain chain).build flow)
      schedule).machine.invoked = executed

/-- In an undisturbed run a parser that needs more is called again after its read, and one that
continues at once, before anything else, and what is still owed stands at the front of the queue; a
chain that has been queued and can do no more without an outcome has run its steps in the order of
its linear machine. -/
theorem parser_rereads_first (inlineN : Nat) (steps : Nat → SequenceTask φ ρ) (flow : φ)
    (tasks : List Nat)
    (h : Reaches (step inlineN steps) (fun s outcome => undisturbed steps s outcome = true)
      (.new flow tasks) s) :
    RereadsFirst steps s.executed ∧ OwesInFront steps s ∧
    ∀ (chain : List (ChainNode φ ρ)) (fromError : Option (IOError → ρ)), SequencedChain chain →
      3 ≤ inlineN → steps = chainSteps chain → tasks = List.range chain.length →
      s.step inlineN steps none = none → InLinearOrder inlineN fromError chain flow s.executed := by
  refine ⟨(reaches_rereadsFirst h).1, (reaches_rereadsFirst h).2, ?_⟩
  rintro chain fromError hchain hinline rfl rfl hidle schedule hschedule hcap
  obtain ⟨p, htracks, hrounds⟩ := reaches_tracks hchain hinline h
  obtain ⟨p', hleaves, hinvoked⟩ := htracks.leaves hchain hidle
  have hqueued := (hrounds []).leaves hleaves
  rw [List.append_nil] at hqueued
  obtain ⟨p'', hleaves', hagrees⟩ := await_agrees chain flow schedule hchain.handlers hcap
  rw [hschedule] at hleaves'
  rw [hagrees.invoked, ← hqueued.unique hleaves', hinvoked]

def readTwoOrFail : List (ChainNode (List UInt8) (Except IOError (List UInt8))) :=
  [.recv (some 0) 16 fun outcome inbox =>
      match outcome with
      | .ok data => (inbox ++ data, [])
      | .error error => (inbox, [.complete (.error error)]),
    .parse fun inbox =>
      if inbox.length < 2 then (.kNeedMore, inbox, [])
      else (.kCompleted, inbox, [.complete (.ok inbox)])]

lemma readTwoOrFail_sequenced : SequencedChain readTwoOrFail where
  handlers := by
    intro node hnode
    rcases List.mem_pair.mp hnode with rfl | rfl
    · refine ⟨fun outcome inbox step hstep => ?_, rfl⟩
      cases outcome with
      | ok data => cases hstep
      | error error => rcases List.mem_singleton.mp hstep with ⟨⟩
    · refine ⟨fun inbox step hstep => ?_, trivial⟩
      dsimp only at hstep
      split at hstep
      · cases hstep
      · rcases List.mem_singleton.mp hstep with ⟨⟩
  operations := by
    intro node hnode request handler hoperation
    rcases List.mem_pair.mp hnode with rfl | rfl
    · cases hoperation
      exact ⟨rfl, fun _ _ => rfl⟩
    · cases hoperation
  parsers := by
    intro i handler read hnode hread
    obtain _ | _ | i := i
    · cases hnode
    · cases hread
      rfl
    · cases hnode

def readTwice : List (Option IOOutcome) := [some (.ok [7]), none, some (.ok [8]), none]

theorem readTwice_rereads_first :
    ∃ s : SequenceAwaitable (List UInt8) (Except IOError (List UInt8)),
    s.executed.map Invocation.step = [0, 1, 0, 1] ∧ s.queue.result = some (.ok [7, 8]) ∧
    RereadsFirst (chainSteps readTwoOrFail) s.executed ∧
    InLinearOrder 4 (some .error) readTwoOrFail [] s.executed := by
  have hreaches : Reaches (step 4 (chainSteps readTwoOrFail))
      (fun s outcome => undisturbed (chainSteps readTwoOrFail) s outcome = true)
      (.new [] [0, 1]) _ :=
    .of_run (undisturbed (chainSteps readTwoOrFail)) (fun _ _ h => h) readTwice .start rfl
  obtain ⟨hrereads, -, hlinear⟩ :=
    parser_rereads_first 4 (chainSteps readTwoOrFail) [] [0, 1] hreaches
  exact ⟨_, rfl, rfl, hrereads,
    hlinear readTwoOrFail (some .error) readTwoOrFail_sequenced (by decide) rfl rfl rfl⟩

def readTwoThenLocal : List (ChainNode (List UInt8) (Except IOError (List UInt8))) :=
  readTwoOrFail ++ [.local_ fun inbox => (inbox, [])]

/-- The step behind the parser runs before the read. -/
theorem parser_can_be_overtaken : ¬∀ (φ ρ : Type) (inlineN : Nat) (steps : Nat → SequenceTask φ ρ)
    (flow : φ) (tasks : List Nat) (s : SequenceAwaitable φ ρ),
    Reaches (step inlineN steps) (fun _ _ => True) (.new flow tasks) s →
    RereadsFirst steps s.executed := by
  intro hall
  have hrereads := hall _ _ 4 (chainSteps readTwoThenLocal) [] [0, 1, 2] _
    (.of_replay [some (.ok [7]), none, none] .start rfl)
  have hread := hrereads [⟨0, some (.ok [7]), none⟩] ⟨1, none, some .kNeedMore⟩ [⟨2, none, none⟩] rfl
    0 0 ⟨2, none, none⟩ rfl rfl
  cases hread

end GalayKernel.Proofs
