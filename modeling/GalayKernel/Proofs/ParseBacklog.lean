import GalayKernel.Proofs.LinearMachine

namespace GalayKernel.Proofs

open StateMachineAwaitable (await)

variable {φ ρ ψ Frame : Type*}

/-- The flow has made `st` of the frames so far, and `frames` are in its inbox. -/
abbrev Inbox (φ ψ Frame : Type*) := φ → ψ → List Frame → Prop

/-- The parser consumes one complete frame per call, of which it makes what `handle` says, and
returns `kContinue` while there is another. -/
structure ParsesFrames (recv : IOHandler φ ρ) (parse : ParseHandler φ ρ)
    (encode : Frame → List UInt8) (handle : ψ → Frame → ψ × Option ρ)
    (Holds : Inbox φ ψ Frame) : Prop where
  recv_queues : ∀ outcome flow, QueuesNothing (recv outcome flow).2
  parse_queues : ∀ flow, QueuesNothing (parse flow).2.2
  recv_frames : ∀ {flow st frames} new, Holds flow st frames →
    Holds (recv (.ok (new.flatMap encode)) flow).1 st (frames ++ new) ∧
      completion (recv (.ok (new.flatMap encode)) flow).2 = none
  parse_nil : ∀ {flow st}, Holds flow st [] → Holds (parse flow).2.1 st [] ∧
    completion (parse flow).2.2 = none ∧ (parse flow).1 = .kNeedMore
  parse_cons : ∀ {flow st frame frames}, Holds flow st (frame :: frames) →
    Holds (parse flow).2.1 (handle st frame).1 frames ∧
      completion (parse flow).2.2 = (handle st frame).2 ∧
      ((handle st frame).2 = none →
        (parse flow).1 = .kContinue ∨ frames = [] ∧ (parse flow).1 = .kNeedMore)

/-- The frames are handled one after the other, until one of them completes. -/
def handleAll (handle : ψ → Frame → ψ × Option ρ) : ψ → List Frame → ψ × Option ρ
  | st, [] => (st, none)
  | st, frame :: frames =>
    match handle st frame with
    | (st, some value) => (st, some value)
    | (st, none) => handleAll handle st frames

/-- The awaitable has the outcome of the handler on `frames`. -/
def HandlesFrames (handle : ψ → Frame → ψ × Option ρ) (Holds : Inbox φ ψ Frame) (st : ψ)
    (frames : List Frame) (s : StateMachineAwaitable (LinearMachine φ ρ) ρ) : Prop :=
  (∃ rest, Holds s.machine.flow (handleAll handle st frames).1 rest) ∧
    s.result = (handleAll handle st frames).2 ∧ s.error = none

lemma handleAll_append (handle : ψ → Frame → ψ × Option ρ) (st : ψ) (frames later : List Frame) :
    handleAll handle st (frames ++ later) =
      match handleAll handle st frames with
      | (st, some value) => (st, some value)
      | (st, none) => handleAll handle st later := by
  induction frames generalizing st with
  | nil => rfl
  | cons frame frames ih =>
    rw [List.cons_append, handleAll, handleAll]
    cases handle st frame with
    | mk st' value =>
      cases value with
      | some value => rfl
      | none => exact ih st'

def frameReads (encode : Frame → List UInt8) (reads : List (List Frame)) : List IOOutcome :=
  reads.map fun frames => .ok (frames.flatMap encode)

def frameChain (buffer length : Nat) (recv : IOHandler φ ρ) (parse : ParseHandler φ ρ) :
    List (ChainNode φ ρ) :=
  [.recv (some buffer) length recv, .parse parse]

variable {recv : IOHandler φ ρ} {parse : ParseHandler φ ρ} {encode : Frame → List UInt8}
  {handle : ψ → Frame → ψ × Option ρ} {Holds : Inbox φ ψ Frame} {buffer length : Nat}
  {p : Program φ ρ} {st : ψ} {frames : List Frame}

/-- The program is at its read, with an empty inbox. -/
structure AtRead (Holds : Inbox φ ψ Frame) (p : Program φ ρ) (st : ψ) : Prop where
  ended : p.ended = none
  position : p.position = 0
  inbox : Holds p.flow st []

structure AtParse (Holds : Inbox φ ψ Frame) (p : Program φ ρ) (st : ψ) (frames : List Frame) :
    Prop where
  ended : p.ended = none
  position : p.position = 1
  inbox : Holds p.flow st frames

def Parsed (Holds : Inbox φ ψ Frame) (p : Program φ ρ) : ψ × Option ρ → Prop
  | (st, none) => AtRead Holds p st
  | (st, some value) => p.ended = some (.ok value) ∧ ∃ rest, Holds p.flow st rest

lemma AtRead.waits (h : AtRead Holds p st) (hlength : length ≠ 0) :
    interpretOnce (frameChain buffer length recv parse) (p, []) = .inr p := by
  rw [interpretOnce, h.ended, h.position]
  exact if_neg hlength

lemma AtParse.step (h : AtParse Holds p st frames) :
    interpretOnce (frameChain buffer length recv parse) (p, []) =
      .inl (p.runParse parse (some 0), []) := by
  rw [interpretOnce, h.ended, h.position]
  rfl

lemma runIO_flow {bytes : List UInt8} (h : completion (recv (.ok bytes) p.flow).2 = none) :
    (p.runIO recv (.ok bytes)).flow = (recv (.ok bytes) p.flow).1 := by
  unfold Program.runIO
  dsimp only
  rw [h]
  rfl

lemma AtRead.receives (hparses : ParsesFrames recv parse encode handle Holds)
    (h : AtRead Holds p st) (frames : List Frame) :
    AtParse Holds (p.runIO recv (.ok (frames.flatMap encode))) st frames := by
  obtain ⟨hinbox, hcompletion⟩ := hparses.recv_frames frames h.inbox
  unfold Program.runIO
  dsimp only
  rw [hcompletion]
  exact ⟨h.ended, congrArg (· + 1) h.position, hinbox⟩

lemma AtParse.needsMore (h : AtParse Holds p st frames) {st' : ψ}
    (hinbox : Holds (parse p.flow).2.1 st' []) (hcompletion : completion (parse p.flow).2.2 = none)
    (hstatus : (parse p.flow).1 = .kNeedMore) : AtRead Holds (p.runParse parse (some 0)) st' := by
  unfold Program.runParse
  dsimp only
  rw [hcompletion, hstatus]
  exact ⟨h.ended, rfl, hinbox⟩

lemma AtParse.continues (h : AtParse Holds p st frames) {st' : ψ} {frames' : List Frame}
    (hinbox : Holds (parse p.flow).2.1 st' frames')
    (hcompletion : completion (parse p.flow).2.2 = none)
    (hstatus : (parse p.flow).1 = .kContinue) :
    AtParse Holds (p.runParse parse (some 0)) st' frames' := by
  unfold Program.runParse
  dsimp only
  rw [hcompletion, hstatus]
  exact ⟨h.ended, h.position, hinbox⟩

lemma runParse_completes {value : ρ} (hcompletion : completion (parse p.flow).2.2 = some value) :
    (p.runParse parse (some 0)).ended = some (.ok value) ∧
      (p.runParse parse (some 0)).flow = (parse p.flow).2.1 := by
  unfold Program.runParse
  dsimp only
  rw [hcompletion]
  exact ⟨rfl, rfl⟩

lemma runParse_continues (hcompletion : completion (parse p.flow).2.2 = none)
    (hstatus : (parse p.flow).1 = .kContinue) :
    (p.runParse parse (some 0)).flow = (parse p.flow).2.1 := by
  unfold Program.runParse
  dsimp only
  rw [hcompletion, hstatus]
  rfl

/-- How often the parser is called for `n` frames that are in its inbox: until it completes, or
says that it needs more. -/
def parseCalls (parse : ParseHandler φ ρ) : Nat → φ → Nat
  | 0, _ => 1
  | n + 1, flow =>
    if (parse flow).1 = .kContinue ∧ (completion (parse flow).2.2).isNone then
      parseCalls parse n (parse flow).2.1 + 1
    else 1

lemma parseCalls_le (parse : ParseHandler φ ρ) (n : Nat) (flow : φ) :
    parseCalls parse n flow ≤ n + 1 := by
  induction n generalizing flow with
  | zero => exact Nat.le_refl 1
  | succ n ih =>
    rw [parseCalls]
    split
    · exact Nat.succ_le_succ (ih _)
    · exact Nat.le_add_left 1 _

/-- The rounds of `pump` for the frames of a read: a call of the parser takes one, and one more asks
for the next read if none of the frames completes. -/
def backlogRounds (parse : ParseHandler φ ρ) (handle : ψ → Frame → ψ × Option ρ) (flow : φ) (st : ψ)
    (frames : List Frame) : Nat :=
  parseCalls parse frames.length flow + (handleAll handle st frames).2.isNone.toNat

lemma backlogRounds_le (flow : φ) (st : ψ) (frames : List Frame) :
    backlogRounds parse handle flow st frames ≤ frames.length + 2 := by
  have hcalls := parseCalls_le parse frames.length flow
  have hasks := Bool.toNat_le (handleAll handle st frames).2.isNone
  unfold backlogRounds
  omega

section Awaitable

variable {fromError : Option (IOError → ρ)} {s : StateMachineAwaitable (LinearMachine φ ρ) ρ}

lemma Stopped.rests {chain : List (ChainNode φ ρ)}
    {out : SequenceProgress × StateMachineAwaitable (LinearMachine φ ρ) ρ}
    (h : Stopped fromError chain p out) : Rests out := by
  obtain ⟨progress, s⟩ := out
  cases progress with
  | kCompleted => exact h.2.awaitReady.trans h.1
  | kNeedWait =>
    obtain ⟨request, handler, hasked, hactive, -⟩ := h
    refine ⟨?_, congrArg Option.isSome hactive⟩
    rw [StateMachineAwaitable.awaitReady, hasked.result, hasked.error]
    rfl

lemma Parsed.handlesFrames {chain : List (ChainNode φ ρ)}
    {out : SequenceProgress × StateMachineAwaitable (LinearMachine φ ρ) ρ}
    (hp : Parsed Holds p (handleAll handle st frames)) (hs : Stopped fromError chain p out) :
    HandlesFrames handle Holds st frames out.2 := by
  have hagrees := hs.agrees
  have hended := hagrees.ended
  unfold HandlesFrames
  rw [hagrees.flow]
  cases hall : handleAll handle st frames with
  | mk st' value =>
    rw [hall] at hp
    cases value with
    | some value =>
      obtain ⟨hvalue, hrest⟩ := hp
      rw [hvalue] at hended
      exact ⟨hrest, Prod.mk.inj hended⟩
    | none =>
      rw [hp.ended] at hended
      exact ⟨⟨[], hp.inbox⟩, Prod.mk.inj hended⟩

variable (hparses : ParsesFrames recv parse encode handle Holds) (hlength : length ≠ 0)

include hparses

lemma frameChain_queuesNothing :
    ∀ node ∈ frameChain buffer length recv parse, node.QueuesNothing ∧ node.HasBuffer := by
  intro node hnode
  rcases List.mem_pair.mp hnode with rfl | rfl
  · exact ⟨hparses.recv_queues, rfl⟩
  · exact ⟨hparses.parse_queues, trivial⟩

/-- A round of `pump` calls the parser, and is the last one if the parser completes. -/
lemma AtParse.pumpOnce (inlineN : Nat) (h : AtParse Holds p st frames)
    (hs : Running fromError (frameChain buffer length recv parse) s p) :
    ((p.runParse parse (some 0)).ended = none ∧
      ∃ s', s.pumpOnce (LinearMachine.machine inlineN fromError) = .inl s' ∧
        Running fromError (frameChain buffer length recv parse) s' (p.runParse parse (some 0))) ∨
    (p.runParse parse (some 0)).ended.isSome = true ∧
      ∃ out, s.pumpOnce (LinearMachine.machine inlineN fromError) = .inr out ∧
        Stopped fromError (frameChain buffer length recv parse) (p.runParse parse (some 0)) out := by
  have hadvances : Advances fromError (frameChain buffer length recv parse)
      (s.machine.advance inlineN fromError) (p.runParse parse (some 0)) := by
    obtain ⟨hended, -⟩ | ⟨p', hstep, hadvances⟩ | ⟨request, handler, hprogram, -, -⟩ :=
      hs.machine.advance (frameChain_queuesNothing hparses) inlineN
    · rw [h.ended] at hended
      cases hended
    · cases (hstep []).symm.trans h.step
      exact hadvances
    · obtain ⟨node, hnode, hoperation⟩ := hprogram.node
      rw [h.position] at hnode
      cases hnode
      cases hoperation
  obtain ⟨m, hemit, hm⟩ := hadvances
  rw [pumpOnce_advance hs.awaitReady hs.active hemit]
  obtain ⟨hnext, hleave⟩ := act_emit
    (s := { s with machine := m, calls := s.calls ++ [.advance] }) hm hs.active hs.result hs.error
    (LinearMachine.machine inlineN fromError)
  cases hround : StateMachineAwaitable.act (LinearMachine.machine inlineN fromError)
      { s with machine := m, calls := s.calls ++ [.advance] } m.emitActionFromOutcome with
  | inl s' => exact .inl ⟨(hnext s' hround).1, s', rfl, (hnext s' hround).2⟩
  | inr out => exact .inr ⟨(hleave out hround).1, out, rfl, (hleave out hround).2⟩

include hlength

lemma AtRead.pumpOnce (inlineN : Nat) (h : AtRead Holds p st)
    (hs : Running fromError (frameChain buffer length recv parse) s p) :
    ∃ out, s.pumpOnce (LinearMachine.machine inlineN fromError) = .inr out ∧
      Stopped fromError (frameChain buffer length recv parse) p out := by
  obtain ⟨hnext, hleave⟩ := hs.pumpOnce (frameChain_queuesNothing hparses) inlineN
  cases hround : s.pumpOnce (LinearMachine.machine inlineN fromError) with
  | inl s' =>
    obtain ⟨p', hstep, -⟩ := hnext s' hround
    cases (hstep []).symm.trans (h.waits hlength)
  | inr out =>
    obtain ⟨p', rfl | hstep, hstopped⟩ := hleave out hround
    · exact ⟨out, rfl, hstopped⟩
    · cases (hstep []).symm.trans (h.waits hlength)

lemma AtParse.asks (inlineN : Nat) (h : AtParse Holds p st frames) {st' : ψ}
    (hread : AtRead Holds (p.runParse parse (some 0)) st')
    (hs : Running fromError (frameChain buffer length recv parse) s p) :
    ∃ out, Loop.LeavesIn (StateMachineAwaitable.pumpOnce (LinearMachine.machine inlineN fromError))
      2 s out ∧
      Stopped fromError (frameChain buffer length recv parse) (p.runParse parse (some 0)) out := by
  obtain ⟨-, s', hround, hs'⟩ | ⟨hended, -⟩ := h.pumpOnce hparses inlineN hs
  · obtain ⟨out, hround', hstopped⟩ := hread.pumpOnce hparses hlength inlineN hs'
    exact ⟨out, .next hround (.leave hround'), hstopped⟩
  · rw [hread.ended] at hended
    cases hended

lemma AtParse.leavesIn (inlineN : Nat) (frames : List Frame) (h : AtParse Holds p st frames)
    (hs : Running fromError (frameChain buffer length recv parse) s p) :
    ∃ out p', Loop.LeavesIn
        (StateMachineAwaitable.pumpOnce (LinearMachine.machine inlineN fromError))
        (backlogRounds parse handle p.flow st frames) s out ∧
      Stopped fromError (frameChain buffer length recv parse) p' out ∧
      Parsed Holds p' (handleAll handle st frames) := by
  induction frames generalizing s p st with
  | nil =>
    obtain ⟨hinbox, hcompletion, hstatus⟩ := hparses.parse_nil h.inbox
    have hread := h.needsMore hinbox hcompletion hstatus
    obtain ⟨out, hleaves, hstopped⟩ := h.asks hparses hlength inlineN hread hs
    exact ⟨out, _, hleaves, hstopped, hread⟩
  | cons frame frames ih =>
    obtain ⟨hinbox, hcompletion, hstatus⟩ := hparses.parse_cons h.inbox
    rw [backlogRounds, handleAll, List.length_cons, parseCalls]
    cases hhandle : handle st frame with
    | mk st' value =>
      rw [hhandle] at hinbox hcompletion hstatus
      rw [hcompletion]
      cases value with
      | some value =>
        obtain ⟨hended, hflow⟩ := runParse_completes hcompletion
        rw [if_neg fun hcontinue => Bool.false_ne_true hcontinue.2]
        obtain ⟨hnone, -⟩ | ⟨-, out, hround, hstopped⟩ := h.pumpOnce hparses inlineN hs
        · cases hnone.symm.trans hended
        · exact ⟨out, _, .leave hround, hstopped, hended, frames, hflow ▸ hinbox⟩
      | none =>
        obtain hcontinue | ⟨rfl, hneedMore⟩ := hstatus rfl
        · have hnext := h.continues hinbox hcompletion hcontinue
          obtain ⟨-, s', hround, hs'⟩ | ⟨hended, -⟩ := h.pumpOnce hparses inlineN hs
          · obtain ⟨out, p', hleaves, hstopped, hparsed⟩ := ih hnext hs'
            rw [if_pos ⟨hcontinue, rfl⟩, Nat.add_right_comm,
              ← runParse_continues hcompletion hcontinue]
            exact ⟨out, p', .next hround hleaves, hstopped, hparsed⟩
          · rw [hnext.ended] at hended
            cases hended
        · have hread := h.needsMore hinbox hcompletion hneedMore
          obtain ⟨out, hleaves, hstopped⟩ := h.asks hparses hlength inlineN hread hs
          rw [if_neg fun hcontinue => ParseStatus.noConfusion (hneedMore.symm.trans hcontinue.1)]
          exact ⟨out, _, hleaves, hstopped, hread⟩

lemma AtRead.leavesIn (inlineN : Nat) (frames : List Frame) (hp : AtRead Holds p st)
    (hs : Stopped fromError (frameChain buffer length recv parse) p (.kNeedWait, s)) :
    ∃ request, s.active = some request ∧ ∃ out p',
      Loop.LeavesIn (StateMachineAwaitable.pumpOnce (LinearMachine.machine inlineN fromError))
        (backlogRounds parse handle (recv (.ok (frames.flatMap encode)) p.flow).1 st frames)
        (s.deliver (LinearMachine.machine inlineN fromError) request.kind
          (.ok (frames.flatMap encode))) out ∧
      Stopped fromError (frameChain buffer length recv parse) p' out ∧
      Parsed Holds p' (handleAll handle st frames) := by
  obtain ⟨request, handler, hasked, hactive, -⟩ := hs
  obtain ⟨node, hnode, hoperation⟩ := hasked.program.node
  rw [hp.position] at hnode
  cases hnode
  cases hoperation
  refine ⟨_, hactive, ?_⟩
  have hleaves := (hp.receives hparses frames).leavesIn hparses hlength inlineN frames
    (hasked.deliver inlineN (.ok (frames.flatMap encode)))
  rwa [runIO_flow (hparses.recv_frames frames hp.inbox).2] at hleaves

/-- The awaitable waits at its read; every read is parsed before the next. -/
lemma follow_frameReads (inlineN : Nat) (reads : List (List Frame))
    (hreads : ∀ frames ∈ reads, frames.length + 2 ≤ kInlineTransitionCap)
    (hs : Stopped fromError (frameChain buffer length recv parse) p (.kNeedWait, s))
    (hp : AtRead Holds p st) :
    HandlesFrames handle Holds st reads.flatten
      (follow (LinearMachine.machine inlineN fromError) s (frameReads encode reads)) := by
  have hpump := pump_of_rests (M := LinearMachine.machine inlineN fromError) hs.rests
  induction reads generalizing s p st with
  | nil =>
    rw [frameReads, List.map_nil, follow, hpump]
    have hparsed : Parsed Holds p (handleAll handle st []) := hp
    exact hparsed.handlesFrames hs
  | cons frames reads ih =>
    obtain ⟨request, hactive, ⟨progress, s'⟩, p', hleaves, hstopped, hparsed⟩ :=
      hp.leavesIn hparses hlength inlineN frames hs
    have hfew := hreads frames List.mem_cons_self
    have hhandled := hparsed.handlesFrames hstopped
    rw [frameReads, List.map_cons, follow_cons hpump hactive, ← follow_pump,
      pump_of_leavesIn hleaves (Nat.le_trans (backlogRounds_le ..) hfew)]
    unfold HandlesFrames at hhandled ⊢
    rw [List.flatten_cons, handleAll_append]
    cases hall : handleAll handle st frames with
    | mk st' value =>
      rw [hall] at hparsed hhandled
      cases value with
      | some value =>
        cases progress with
        | kCompleted =>
          rw [follow_completed (pump_of_rests hstopped.rests)]
          exact hhandled
        | kNeedWait =>
          obtain ⟨_, _, hasked', -, -⟩ := hstopped
          cases hparsed.1.symm.trans hasked'.program.ended
      | none =>
        cases progress with
        | kCompleted => cases (congrArg Option.isSome hparsed.ended).symm.trans hstopped.1
        | kNeedWait =>
          exact ih (fun frames hmem => hreads frames (List.mem_cons_of_mem _ hmem)) hstopped
            hparsed (pump_of_rests hstopped.rests)

lemma await_frameChain (buffer inlineN : Nat) (fromError : Option (IOError → ρ)) (flow : φ)
    (hflow : Holds flow st []) :
    ∃ s, Stopped fromError (frameChain buffer length recv parse) (.new flow) (.kNeedWait, s) ∧
      ∀ schedule, FitsRounds schedule → await (LinearMachine.machine inlineN fromError)
        ((buildChain (frameChain buffer length recv parse)).build flow) schedule =
        follow (LinearMachine.machine inlineN fromError) s schedule.outcomes := by
  have hrunning : Running fromError (frameChain buffer length recv parse)
      (.new ((buildChain (frameChain buffer length recv parse)).build flow)) (.new flow) :=
    ⟨matches_build _ flow, rfl, rfl, rfl⟩
  have hread : AtRead Holds (Program.new flow : Program φ ρ) st := ⟨rfl, rfl, hflow⟩
  obtain ⟨⟨progress, s⟩, hround, hstopped⟩ := hread.pumpOnce hparses hlength inlineN hrunning
  cases progress with
  | kCompleted => cases hstopped.1
  | kNeedWait =>
    refine ⟨s, hstopped, fun schedule hfits => ?_⟩
    rw [await_follow_of_fits _ _ hfits, ← follow_pump, pump_of_leavesIn (.leave hround) (by decide)]

end Awaitable

/-- The frames of a single read are all handled, and the outcome is the handler's, exactly if `pump`
has the rounds for them. Frames that arrive one per read are, in any run that fits into the rounds
of `prepareForSubmit`. -/
theorem backlog_consumed_iff (buffer length inlineN : Nat) (fromError : Option (IOError → ρ))
    (hparses : ParsesFrames recv parse encode handle Holds) (hlength : length ≠ 0) (flow : φ)
    (hflow : Holds flow st []) (frames : List Frame) (together apart : Schedule)
    (htogether : together.outcomes = [.ok (frames.flatMap encode)])
    (hapart : apart.outcomes = frames.map fun frame => .ok (encode frame))
    (hfits : FitsRounds apart) :
    (HandlesFrames handle Holds st frames
      (await (LinearMachine.machine inlineN fromError)
        ((buildChain (frameChain buffer length recv parse)).build flow) together) ↔
      backlogRounds parse handle (recv (.ok (frames.flatMap encode)) flow).1 st frames ≤
        kInlineTransitionCap) ∧
    HandlesFrames handle Holds st frames
      (await (LinearMachine.machine inlineN fromError)
        ((buildChain (frameChain buffer length recv parse)).build flow) apart) := by
  obtain ⟨s, hs, hawait⟩ :=
    await_frameChain hparses hlength buffer inlineN fromError flow hflow
  have hread : AtRead Holds (Program.new flow : Program φ ρ) st := ⟨rfl, rfl, hflow⟩
  constructor
  · have hone : FitsRounds together := by
      apply fitsRounds_of_length
      rw [htogether, List.length_singleton]
      decide
    obtain ⟨request, hactive, out, p', hleaves, hstopped, hparsed⟩ :=
      hread.leavesIn hparses hlength inlineN frames hs
    rw [hawait together hone, htogether, follow_cons (pump_of_rests hs.rests) hactive, follow]
    by_cases hrounds : backlogRounds parse handle (recv (.ok (frames.flatMap encode)) flow).1 st
        frames ≤ kInlineTransitionCap
    · rw [pump_of_leavesIn hleaves hrounds]
      exact iff_of_true (hparsed.handlesFrames hstopped) hrounds
    · obtain ⟨s', hpump⟩ := pump_of_lt hleaves (Nat.lt_of_not_le hrounds)
      rw [hpump]
      refine iff_of_false (fun hhandled => ?_) hrounds
      cases hhandled.2.2
  · have hreads : frameReads encode (frames.map fun frame => [frame]) =
        frames.map fun frame => .ok (encode frame) := by
      rw [frameReads, List.map_map]
      exact List.map_congr_left fun frame _ => congrArg Except.ok (List.flatMap_singleton ..)
    have hhandled := follow_frameReads hparses hlength inlineN (frames.map fun frame => [frame]) ?_
      hs hread
    · rw [hawait apart hfits, hapart, ← hreads]
      rwa [← List.flatMap_def, List.flatMap_singleton'] at hhandled
    · intro read hread
      obtain ⟨frame, -, rfl⟩ := List.mem_map.mp hread
      rw [List.length_singleton]
      decide

abbrev ByteFlow := List UInt8 × List UInt8

def recvBytes : IOHandler ByteFlow (List UInt8) :=
  fun outcome (inbox, taken) => ((inbox ++ outcome.toOption.getD [], taken), [])

def parseByte (n : Nat) : ParseHandler ByteFlow (List UInt8)
  | ([], taken) => (.kNeedMore, ([], taken), [])
  | (frame :: inbox, taken) =>
    if taken.length + 1 = n then
      (.kCompleted, (inbox, taken ++ [frame]), [.complete (taken ++ [frame])])
    else (.kContinue, (inbox, taken ++ [frame]), [])

def takeByte (n : Nat) (taken : List UInt8) (frame : UInt8) : List UInt8 × Option (List UInt8) :=
  (taken ++ [frame], if taken.length + 1 = n then some (taken ++ [frame]) else none)

def holdsBytes : Inbox ByteFlow (List UInt8) UInt8 := fun flow taken frames => flow = (frames, taken)

lemma parseByte_parses (n : Nat) :
    ParsesFrames recvBytes (parseByte n) (fun frame => [frame]) (takeByte n) holdsBytes where
  recv_queues := fun _ _ _ => List.not_mem_nil
  parse_queues := by
    rintro ⟨inbox, taken⟩ step hstep
    cases inbox with
    | nil => cases hstep
    | cons frame inbox =>
      rw [parseByte] at hstep
      split at hstep
      · rcases List.mem_singleton.mp hstep with ⟨⟩
      · cases hstep
  recv_frames := by
    rintro _ taken frames new rfl
    refine ⟨?_, rfl⟩
    rw [List.flatMap_singleton']
    rfl
  parse_nil := by
    rintro _ taken rfl
    exact ⟨rfl, rfl, rfl⟩
  parse_cons := by
    rintro _ taken frame frames rfl
    unfold parseByte takeByte
    dsimp only
    split
    · exact ⟨rfl, rfl, by rintro ⟨⟩⟩
    · exact ⟨rfl, rfl, fun _ => .inl rfl⟩

def takesBytes (n : Nat) (schedule : Schedule) :
    StateMachineAwaitable (LinearMachine ByteFlow (List UInt8)) (List UInt8) :=
  await (LinearMachine.machine 4 none)
    ((buildChain (frameChain 0 128 recvBytes (parseByte n))).build ([], [])) schedule

theorem twoFrames_backlog_consumed :
    (takesBytes 2 (.uring [some (.ok [7, 8])])).result = some [7, 8] ∧
    HandlesFrames (takeByte 2) holdsBytes [] [7, 8] (takesBytes 2 (.uring [some (.ok [7, 8])])) ∧
    HandlesFrames (takeByte 2) holdsBytes [] [7, 8]
      (takesBytes 2 (.reactor [] [[.ok [7]], [.ok [8]]])) := by
  obtain ⟨htogether, hapart⟩ := backlog_consumed_iff 0 128 4 none (parseByte_parses 2) (by decide)
    ([], []) rfl [7, 8] (.uring [some (.ok [7, 8])]) (.reactor [] [[.ok [7]], [.ok [8]]]) rfl rfl
    ⟨by decide, by decide⟩
  exact ⟨by decide +kernel, htogether.mpr (by decide), hapart⟩

/-- A read of 65 frames is not parsed to its end: the 64th call is the last that `pump` makes. -/
theorem backlog_can_fail : ¬∀ (φ ρ ψ Frame : Type) (recv : IOHandler φ ρ) (parse : ParseHandler φ ρ)
    (encode : Frame → List UInt8) (handle : ψ → Frame → ψ × Option ρ) (Holds : Inbox φ ψ Frame)
    (buffer length inlineN : Nat) (fromError : Option (IOError → ρ)) (flow : φ) (st : ψ)
    (frames : List Frame) (schedule : Schedule),
    ParsesFrames recv parse encode handle Holds → length ≠ 0 → Holds flow st [] →
    schedule.outcomes = [.ok (frames.flatMap encode)] →
    HandlesFrames handle Holds st frames (await (LinearMachine.machine inlineN fromError)
      ((buildChain (frameChain buffer length recv parse)).build flow) schedule) := by
  intro hall
  have hframes := hall _ _ _ _ recvBytes (parseByte 65) (fun frame => [frame]) (takeByte 65)
    holdsBytes 0 128 4 none ([], []) [] (List.replicate 65 0)
    (.reactor [.ok (List.replicate 65 0)] []) (parseByte_parses 65) (by decide) rfl (by decide)
  have herror : (takesBytes 65 (.reactor [.ok (List.replicate 65 0)] [])).error = none :=
    hframes.2.2
  exact absurd herror (by decide +kernel)

end GalayKernel.Proofs
