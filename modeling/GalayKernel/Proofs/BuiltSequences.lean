import GalayKernel.BuiltSequences
import GalayKernel.Proofs.SequenceOwnership

namespace GalayKernel.Proofs

open Transition

section Driver

variable {σ ρ : Type*} {M : StateMachine σ ρ} {Inv : σ → Prop} {Asks : IORequest → Prop}
  {d : StateMachineDriver σ ρ}

/-- In the states of `Inv` the machine asks only for what is in `Asks`, and stays in them. -/
structure AsksOnly (M : StateMachine σ ρ) (Inv : σ → Prop) (Asks : IORequest → Prop) : Prop where
  advance : ∀ m, Inv m → Inv (M.advance m).2
  asks : ∀ m request, Inv m → (M.advance m).1 = .wait request → Asks request
  onRead : ∀ outcome m, Inv m → Inv (M.onRead outcome m)
  onWrite : ∀ outcome m, Inv m → Inv (M.onWrite outcome m)
  onConnect : ∀ f, M.onConnect = some f → ∀ outcome m, Inv m → Inv (f outcome m)

/-- The active task of the driver is something the machine may ask for. -/
structure WaitsAsked (Inv : σ → Prop) (Asks : IORequest → Prop) (d : StateMachineDriver σ ρ) :
    Prop where
  machine : Inv d.machine
  active : ∀ request, d.activeTask = some request → Asks request

lemma WaitsAsked.clearActiveTask (h : WaitsAsked Inv Asks d) :
    WaitsAsked Inv Asks d.clearActiveTask := ⟨h.machine, nofun⟩

lemma WaitsAsked.storeError (h : WaitsAsked Inv Asks d) (error : IOError) :
    WaitsAsked Inv Asks (d.storeError error) := ⟨h.machine, h.active⟩

lemma WaitsAsked.setError (h : WaitsAsked Inv Asks d) (error : IOError) :
    WaitsAsked Inv Asks (d.setError error) := ⟨h.machine, h.active⟩

lemma WaitsAsked.invalid (h : WaitsAsked Inv Asks d) : WaitsAsked Inv Asks d.invalid :=
  (h.storeError _).clearActiveTask

lemma WaitsAsked.exhaust (h : WaitsAsked Inv Asks d) (loop : InlineLoop) :
    WaitsAsked Inv Asks (d.exhaust loop) := ⟨h.invalid.machine, h.invalid.active⟩

lemma WaitsAsked.setActiveTask (h : WaitsAsked Inv Asks d) {request : IORequest}
    (hrequest : Asks request) : WaitsAsked Inv Asks (d.setActiveTask request) :=
  ⟨h.machine, fun _ heq => Option.some.inj heq ▸ hrequest⟩

variable (hM : AsksOnly M Inv Asks)

include hM

lemma WaitsAsked.answer (h : WaitsAsked Inv Asks d) (kind : ActiveKind) (outcome : IOOutcome) :
    WaitsAsked Inv Asks (d.answer M kind outcome) := by
  cases kind with
  | kRead | kReadv => exact ⟨hM.onRead outcome _ h.machine, h.active⟩
  | kWrite | kWritev => exact ⟨hM.onWrite outcome _ h.machine, h.active⟩
  | kConnect =>
    unfold StateMachineDriver.answer StateMachineDriver.deliverConnect
    dsimp only
    split
    · exact ⟨hM.onConnect _ ‹_› _ _ h.machine, h.active⟩
    · split
      · exact h.storeError _
      · exact h.storeError _

lemma WaitsAsked.act (h : WaitsAsked Inv Asks d) (action : MachineAction ρ)
    (hasks : ∀ request, action = .wait request → Asks request) :
    (d.act M action).elim (WaitsAsked Inv Asks) fun out => WaitsAsked Inv Asks out.2 := by
  cases action with
  | continue_ => exact h
  | wait request =>
    have hactive := h.setActiveTask (hasks request rfl)
    unfold StateMachineDriver.act
    dsimp only
    split
    · exact hactive
    · split
      · exact h.invalid
      · split
        · exact h.answer hM _ _
        · exact hactive
  | complete result =>
    cases result with
    | none => exact h.invalid
    | some result => exact ⟨h.machine, nofun⟩
  | fail error => exact (h.storeError _).clearActiveTask

lemma WaitsAsked.pumpOnce (h : WaitsAsked Inv Asks d) :
    (d.pumpOnce M).elim (WaitsAsked Inv Asks) fun out => WaitsAsked Inv Asks out.2 := by
  unfold StateMachineDriver.pumpOnce
  split
  · exact h
  · split
    · exact h
    · have hadvance : WaitsAsked Inv Asks (d.advance M).2 :=
        ⟨hM.advance d.machine h.machine, h.active⟩
      exact hadvance.act hM _ fun request => hM.asks d.machine request h.machine

lemma WaitsAsked.pump (h : WaitsAsked Inv Asks d) : WaitsAsked Inv Asks (d.pump M).2 := by
  have hloop := Loop.runFor_elim (fun d hd => WaitsAsked.pumpOnce (d := d) hM hd)
    kInlineTransitionCap h
  unfold StateMachineDriver.pump
  split
  · next d' hrounds =>
    rw [hrounds] at hloop
    exact WaitsAsked.exhaust hloop .pump
  · next out hout =>
    rw [hout] at hloop
    exact hloop

lemma WaitsAsked.prepareOnce (next : StateMachineDriver σ ρ × List IOOutcome)
    (h : WaitsAsked Inv Asks next.1) :
    (StateMachineDriver.prepareOnce M next).elim (fun next => WaitsAsked Inv Asks next.1)
      fun out => WaitsAsked Inv Asks out.2 := by
  obtain ⟨d, outcomes⟩ := next
  have hpumped := WaitsAsked.pump hM h
  unfold StateMachineDriver.prepareOnce
  dsimp only
  split
  · next d' hpump =>
    rw [hpump] at hpumped
    exact hpumped
  · next d' hpump =>
    rw [hpump] at hpumped
    split
    · exact hpumped
    · split
      · exact hpumped.storeError _
      · exact hpumped
      · exact hpumped.clearActiveTask.answer hM _ _

lemma WaitsAsked.prepareForSubmit (h : WaitsAsked Inv Asks d) (outcomes : List IOOutcome) :
    WaitsAsked Inv Asks (d.prepareForSubmit M outcomes).2 := by
  have hloop := Loop.runFor_elim (s := (d, outcomes)) (WaitsAsked.prepareOnce hM)
    kInlineTransitionCap h
  unfold StateMachineDriver.prepareForSubmit
  split
  · next d' rest hrounds =>
    rw [hrounds] at hloop
    exact WaitsAsked.exhaust hloop .prepareForSubmit
  · next out hout =>
    rw [hout] at hloop
    exact hloop

lemma WaitsAsked.onActiveEvent (h : WaitsAsked Inv Asks d) (outcomes : List IOOutcome) :
    WaitsAsked Inv Asks (d.onActiveEvent M outcomes).2 := by
  unfold StateMachineDriver.onActiveEvent
  split
  · exact h.prepareForSubmit hM outcomes
  · split
    · exact h.storeError _
    · exact h
    · exact (h.clearActiveTask.answer hM _ _).prepareForSubmit hM _

lemma WaitsAsked.markTimeout (h : WaitsAsked Inv Asks d) :
    WaitsAsked Inv Asks (d.markTimeout M) := by
  have hanswered : WaitsAsked Inv Asks (d.answerTimeout M) := by
    unfold StateMachineDriver.answerTimeout
    split
    · exact h.clearActiveTask.answer hM _ _
    · exact h.clearActiveTask
  have hpumped := hanswered.pump hM
  unfold StateMachineDriver.markTimeout
  dsimp only
  split
  · exact hpumped
  · exact hpumped.storeError _

end Driver

section Chain

variable {φ ρ : Type*} {inlineN : ℕ} {fromError : Option (IOError → ρ)} {m m' : LinearMachine φ ρ}

lemma setIOError_nodes (error : IOError) : (m.setIOError fromError error).nodes = m.nodes := by
  unfold LinearMachine.setIOError
  split <;> rfl

lemma absorbOpsOutcome_nodes {ops : List (SequenceOp ρ)}
    (h : m.absorbOpsOutcome inlineN fromError ops = some m') : m'.nodes = m.nodes := by
  unfold LinearMachine.absorbOpsOutcome at h
  dsimp only at h
  split at h
  · cases h
    rfl
  · cases h
    exact setIOError_nodes _
  · split at h
    · cases h
      exact setIOError_nodes _
    · cases h

def RunsOn (m : LinearMachine φ ρ) (out : MachineAction ρ × LinearMachine φ ρ) : Prop :=
  out.2.nodes = m.nodes ∧ ∀ request, out.1 ≠ .wait request

lemma runsOn_emit (h : m'.nodes = m.nodes) : RunsOn m m'.emit := by
  refine ⟨h, fun request => ?_⟩
  unfold LinearMachine.emit LinearMachine.emitActionFromOutcome
  dsimp only
  split <;> simp

lemma runsOn_runLocal (handler : LocalHandler φ ρ) :
    RunsOn m (m.runLocal inlineN fromError handler) := by
  unfold LinearMachine.runLocal
  dsimp only
  split
  · next habsorb => exact runsOn_emit ((absorbOpsOutcome_nodes habsorb).trans rfl)
  · exact ⟨rfl, by simp⟩

lemma runsOn_runParse (handler : ParseHandler φ ρ) (rearmRecvIndex : Option ℕ) :
    RunsOn m (m.runParse inlineN fromError handler rearmRecvIndex) := by
  unfold LinearMachine.runParse
  dsimp only
  split
  · next habsorb => exact runsOn_emit ((absorbOpsOutcome_nodes habsorb).trans rfl)
  · split
    · split
      · exact runsOn_emit (setIOError_nodes _)
      · split
        · exact ⟨rfl, by simp⟩
        · exact runsOn_emit (setIOError_nodes _)
    · exact ⟨rfl, by simp⟩
    · exact ⟨rfl, by simp⟩

lemma onIO_nodes (kinds : List ActiveKind) (outcome : IOOutcome) :
    (m.onIO inlineN fromError kinds outcome).nodes = m.nodes := by
  unfold LinearMachine.onIO
  split
  · exact setIOError_nodes _
  · split
    · split
      · dsimp only
        split
        · next habsorb => exact (absorbOpsOutcome_nodes habsorb).trans rfl
        · exact setIOError_nodes _
        · rfl
      · exact setIOError_nodes _
    · exact setIOError_nodes _

lemma advance_cases (inlineN : ℕ) (fromError : Option (IOError → ρ)) (m : LinearMachine φ ρ) :
    RunsOn m (m.advance inlineN fromError) ∨
    ∃ request handler, .io request handler ∈ m.nodes ∧
      m.advance inlineN fromError =
        (.wait request, { m with pending := some (request.kind, m.cursor) }) := by
  unfold LinearMachine.advance
  split
  · exact .inl (runsOn_emit rfl)
  · split
    · exact .inl (runsOn_emit (setIOError_nodes _))
    · exact .inr ⟨_, _, List.mem_of_getElem? ‹_›, rfl⟩
    · exact .inl (runsOn_runParse _ _)
    · exact .inl (runsOn_runLocal _)
    · exact .inl (runsOn_runLocal _)

def AskedBy (nodes : List (LinearMachine.Node φ ρ)) (request : IORequest) : Prop :=
  ∃ handler, .io request handler ∈ nodes

lemma asksOnly_machine (inlineN : ℕ) (fromError : Option (IOError → ρ))
    (nodes : List (LinearMachine.Node φ ρ)) :
    AsksOnly (LinearMachine.machine inlineN fromError) (fun m => m.nodes = nodes)
      (AskedBy nodes) where
  advance := by
    rintro m rfl
    obtain ⟨hnodes, -⟩ | ⟨request, handler, -, heq⟩ :=
      advance_cases inlineN fromError m
    · exact hnodes
    · exact congrArg (fun out => out.2.nodes) heq
  asks := by
    rintro m request rfl hwait
    obtain ⟨-, hnot⟩ | ⟨request', handler, hmem, heq⟩ :=
      advance_cases inlineN fromError m
    · exact absurd hwait (hnot request)
    · have hrequest := (congrArg Prod.fst heq).symm.trans hwait
      cases hrequest
      exact ⟨handler, hmem⟩
  onRead := fun outcome m hm => (onIO_nodes _ outcome).trans hm
  onWrite := fun outcome m hm => (onIO_nodes _ outcome).trans hm
  onConnect := by
    rintro f hf outcome m rfl
    cases hf
    exact onIO_nodes _ _

lemma usesSlot_ownerDomain {nodes : List (LinearMachine.Node φ ρ)} {request : IORequest}
    (h : AskedBy nodes request) :
    (LinearMachine.ownerDomain nodes).usesSlot request.kind.eventType.slot = true := by
  obtain ⟨handler, hmem⟩ := h
  have hread : LinearMachine.Node.isRead (.io request handler) = true →
      nodes.any LinearMachine.Node.isRead = true := fun hr => List.any_eq_true.mpr ⟨_, hmem, hr⟩
  have hwrite : LinearMachine.Node.isWrite (.io request handler) = true →
      nodes.any LinearMachine.Node.isWrite = true := fun hw => List.any_eq_true.mpr ⟨_, hmem, hw⟩
  unfold LinearMachine.ownerDomain
  cases hkind : request.kind with
  | kRead | kReadv =>
    simp only [hread (by simp [LinearMachine.Node.isRead, hkind])]
    split <;> rfl
  | kWrite | kWritev | kConnect =>
    simp only [hwrite (by simp [LinearMachine.Node.isWrite, hkind])]
    cases nodes.any LinearMachine.Node.isRead <;> rfl

end Chain

section Objects

variable {π ι : Type} [DecidableEq ι] {s s' : OwnershipState π ι} {i j : ι}

lemma sequences_release : (s.releaseRegisteredDomain i).sequences =
    Function.update s.sequences i { s.sequences i with registered := false } := by
  unfold OwnershipState.releaseRegisteredDomain
  dsimp only
  split
  · rfl
  · simp only [OwnershipState.setSequence, sequences_syncReleased, OwnershipState.releaseSlots]

lemma sequences_claim (h : s.claimRequestedDomain i = some s') : s'.sequences =
    Function.update s.sequences i { s.sequences i with
      registeredDomain := (s.sequences i).requestedDomain
      registered := true } := by
  simp only [OwnershipState.claimRequestedDomain, Option.ite_none_left_eq_some,
    Option.some.injEq] at h
  rw [← h.2]
  rfl

structure Awaited (s s' : OwnershipState π ι) (i : ι) (active : Option KqueueEventType) :
    Prop where
  others : ∀ j, j ≠ i → s'.sequences j = s.sequences j
  domain : (s'.sequences i).requestedDomain = (s.sequences i).requestedDomain
  active : (s'.sequences i).active = active

lemma Awaited.release {active : Option KqueueEventType} (h : Awaited s s' i active) :
    Awaited s (s'.releaseRegisteredDomain i) i active := by
  constructor
  · intro j hj
    rw [sequences_release, Function.update_of_ne hj]
    exact h.others j hj
  · rw [sequences_release, Function.update_self]
    exact h.domain
  · rw [sequences_release, Function.update_self]
    exact h.active

lemma awaited_suspend (submit : SequenceSubmit) :
    Awaited s (s.suspendSequenceAwaitable i submit).2 i
      (if ((s.setSequence i { s.sequences i with registered := false }).claimRequestedDomain
        i).isNone then (s.sequences i).active else submit.active) := by
  have hreset : Awaited s (s.setSequence i { s.sequences i with registered := false }) i
      (s.sequences i).active := by
    constructor
    · exact fun j hj => Function.update_of_ne hj _ _
    · simp [OwnershipState.setSequence]
    · simp [OwnershipState.setSequence]
  unfold OwnershipState.suspendSequenceAwaitable
  dsimp only
  generalize s.setSequence i { s.sequences i with registered := false } = s₁ at hreset ⊢
  cases hclaim : s₁.claimRequestedDomain i with
  | none => exact hreset
  | some claimed =>
    have hprepared : Awaited s
        (claimed.setSequence i { claimed.sequences i with active := submit.active }) i
        submit.active := by
      simp only [OwnershipState.setSequence, sequences_claim hclaim]
      constructor
      · intro j hj
        simp only [Function.update_of_ne hj]
        exact hreset.others j hj
      · simpa using hreset.domain
      · simp
    have hsynced : Awaited s (claimed.setSequence i
        { claimed.sequences i with active := submit.active }).syncSequenceInterestMask i
        submit.active := ⟨hprepared.others, hprepared.domain, hprepared.active⟩
    simp only [Option.isNone_some, Bool.false_eq_true, if_false]
    split_ifs
    · exact hprepared
    · exact hsynced.release
    · exact hsynced
    · exact hsynced.release
    · exact hsynced

lemma awaited_awaitSequence (submit : SequenceSubmit) :
    Awaited s (s.awaitSequence i submit) i
      (if ((s.setSequence i { s.sequences i with registered := false }).claimRequestedDomain
        i).isNone then (s.sequences i).active else submit.active) := by
  have hsuspend := awaited_suspend (s := s) (i := i) submit
  unfold OwnershipState.awaitSequence
  generalize s.suspendSequenceAwaitable i submit = r at hsuspend ⊢
  obtain ⟨suspends, s'⟩ := r
  cases suspends with
  | true => exact ⟨hsuspend.others, hsuspend.domain, hsuspend.active⟩
  | false => exact hsuspend.release

lemma suspended_awaitSequence (submit : SequenceSubmit) :
    (∀ j, j ≠ i → (s.awaitSequence i submit).suspended j = s.suspended j) ∧
      (((s.awaitSequence i submit).sequences i).registered = true →
        (s.awaitSequence i submit).suspended i = true) := by
  have hframe := samePlain_suspendSequence (s := s) (i := i) submit
  unfold OwnershipState.awaitSequence
  generalize s.suspendSequenceAwaitable i submit = r at hframe ⊢
  obtain ⟨suspends, s'⟩ := r
  cases suspends with
  | true =>
    refine ⟨fun j hj => ?_, fun _ => Function.update_self ..⟩
    exact (Function.update_of_ne hj _ _).trans (congrFun hframe.suspended j)
  | false =>
    refine ⟨fun j _ => ?_, fun hregistered => ?_⟩
    · exact congrFun (hframe.trans samePlain_release).suspended j
    · exact absurd (registered_release.symm.trans hregistered) Bool.false_ne_true

end Objects

section Built

variable {π ι φ ρ : Type} {s s' : BuiltSequences π ι φ ρ} {i : ι}
  {nodes : List (LinearMachine.Node φ ρ)} {seq : SequenceObject}
  {d d' : StateMachineDriver (LinearMachine φ ρ) ρ}

structure BuiltFrom (nodes : List (LinearMachine.Node φ ρ)) (seq : SequenceObject)
    (d : StateMachineDriver (LinearMachine φ ρ) ρ) : Prop where
  domain : seq.requestedDomain = LinearMachine.ownerDomain nodes
  active : seq.active = d.activeEventType
  waits : WaitsAsked (fun m => m.nodes = nodes) (AskedBy nodes) d

lemma BuiltFrom.usesSlot (h : BuiltFrom nodes seq d) {slot : IOSlot}
    (hwaits : seq.waitsOn slot = true) : seq.requestedDomain.usesSlot slot = true := by
  rw [SequenceObject.waitsOn, h.active, StateMachineDriver.activeEventType] at hwaits
  split at hwaits
  · simp only [Option.any_map, Option.any_eq_true, beq_iff_eq] at hwaits
    obtain ⟨request, hrequest, rfl⟩ := hwaits
    rw [h.domain]
    exact usesSlot_ownerDomain (h.waits.active request hrequest)
  · simp at hwaits

structure BuiltOk (s : BuiltSequences π ι φ ρ) : Prop where
  ownership : OwnershipOk s.ownership
  built : ∀ ⦃i d⦄, s.drivers i = some d → ∃ nodes, BuiltFrom nodes (s.ownership.sequences i) d
  suspended : ∀ ⦃i⦄, s.ownership.suspended i = true → (s.drivers i).isSome = true
  registered : ∀ ⦃i⦄, (s.ownership.sequences i).registered = true → s.ownership.suspended i = true

lemma builtOk_new (isOpen : Bool) : BuiltOk (.new isOpen : BuiltSequences π ι φ ρ) where
  ownership := ownershipOk_new isOpen
  built := by simp [BuiltSequences.new]
  suspended := by simp [BuiltSequences.new, OwnershipState.new]
  registered := by simp [BuiltSequences.new, OwnershipState.new, SequenceObject.new]

lemma BuiltOk.of_same {ownership : OwnershipState π ι} (h : BuiltOk s)
    (hownership : OwnershipOk ownership) (hsequences : ownership.sequences = s.ownership.sequences)
    (hsuspended : ownership.suspended = s.ownership.suspended) :
    BuiltOk { s with ownership := ownership } where
  ownership := hownership
  built := by simpa only [hsequences] using h.built
  suspended := by simpa only [hsuspended] using h.suspended
  registered := by simpa only [hsequences, hsuspended] using h.registered

lemma BuiltOk.of_one (h : BuiltOk s) (i : ι) (nodes : List (LinearMachine.Node φ ρ))
    (hownership : OwnershipOk s'.ownership)
    (hsequences : ∀ j, j ≠ i → s'.ownership.sequences j = s.ownership.sequences j)
    (hsuspended : ∀ j, j ≠ i → s'.ownership.suspended j = s.ownership.suspended j)
    (hdrivers : ∀ j, j ≠ i → s'.drivers j = s.drivers j)
    (hdriver : s'.drivers i = some d) (hbuilt : BuiltFrom nodes (s'.ownership.sequences i) d)
    (hregistered : (s'.ownership.sequences i).registered = true →
      s'.ownership.suspended i = true) : BuiltOk s' := by
  refine ⟨hownership, ?_, ?_, ?_⟩
  · intro j e he
    by_cases hj : j = i
    · subst hj
      obtain rfl := Option.some.inj (hdriver.symm.trans he)
      exact ⟨nodes, hbuilt⟩
    · rw [hdrivers j hj] at he
      rw [hsequences j hj]
      exact h.built he
  · intro j hwaits
    by_cases hj : j = i
    · rw [hj, hdriver]
      rfl
    · rw [hsuspended j hj] at hwaits
      rw [hdrivers j hj]
      exact h.suspended hwaits
  · intro j hreg
    by_cases hj : j = i
    · subst hj
      exact hregistered hreg
    · rw [hsequences j hj] at hreg
      rw [hsuspended j hj]
      exact h.registered hreg

variable [DecidableEq ι] {inlineN : ℕ} {fromError : Option (IOError → ρ)}

lemma BuiltFrom.follow (h : BuiltFrom nodes seq d)
    (hwaits : WaitsAsked (fun m => m.nodes = nodes) (AskedBy nodes) d') :
    BuiltFrom nodes { seq with active := d'.activeEventType } d' := ⟨h.domain, rfl, hwaits⟩

lemma BuiltOk.build (h : BuiltOk s) (hi : s.ownership.suspended i = false)
    (builder : AwaitableBuilder φ ρ) (flow : φ) : BuiltOk (s.build i builder flow) := by
  refine h.of_one i builder.nodes (h.ownership.setSequence hi _) ?_ (fun _ _ => rfl) ?_
    (Function.update_self ..) ?_ ?_
  · exact fun j hj => Function.update_of_ne hj _ _
  · exact fun j hj => Function.update_of_ne hj _ _
  · simp only [BuiltSequences.build, OwnershipState.setSequence, Function.update_self]
    exact ⟨rfl, rfl, rfl, by simp [StateMachineDriver.new]⟩
  · simp [BuiltSequences.build, OwnershipState.setSequence, SequenceObject.new]

lemma BuiltOk.onCompleted (h : BuiltOk s) (hi : s.ownership.suspended i = false) :
    BuiltOk { s with ownership := s.ownership.onCompleted i } := by
  have hregistered : (s.ownership.sequences i).registered = false := by
    rw [← Bool.not_eq_true]
    intro hregistered
    exact Bool.false_ne_true (hi.symm.trans (h.registered hregistered))
  have hobject : { s.ownership.sequences i with registered := false } =
      s.ownership.sequences i := by
    rw [← hregistered]
  have hsame : s.ownership.onCompleted i = s.ownership := by
    simp [OwnershipState.onCompleted, OwnershipState.releaseRegisteredDomain, hregistered,
      OwnershipState.setSequence, hobject]
  rw [hsame]
  exact h

lemma waitsAsked_suspendedDriver
    (h : WaitsAsked (fun m => m.nodes = nodes) (AskedBy nodes) d) (submit : BuiltSubmit) :
    WaitsAsked (fun m => m.nodes = nodes) (AskedBy nodes)
      (s.suspendedDriver (LinearMachine.machine inlineN fromError) i d submit) := by
  have hprepared := h.prepareForSubmit (asksOnly_machine inlineN fromError nodes) submit.outcomes
  unfold BuiltSequences.suspendedDriver
  dsimp only
  generalize d.prepareForSubmit (LinearMachine.machine inlineN fromError) submit.outcomes = r
    at hprepared ⊢
  obtain ⟨progress, d'⟩ := r
  cases progress with
  | kCompleted =>
    dsimp only
    split_ifs
    · exact h.setError _
    · exact hprepared
  | kNeedWait =>
    dsimp only
    split_ifs
    · exact h.setError _
    · exact hprepared.setError _
    · exact hprepared.setError _
    · exact hprepared

/-- What goes wrong behind `prepareForSubmit` does not change the step that waits. -/
lemma activeEventType_suspendedDriver (M : StateMachine (LinearMachine φ ρ) ρ)
    (submit : BuiltSubmit) : (s.suspendedDriver M i d submit).activeEventType =
      if ((s.ownership.setSequence i
        { s.ownership.sequences i with registered := false }).claimRequestedDomain i).isNone
      then d.activeEventType else (d.prepareForSubmit M submit.outcomes).2.activeEventType := by
  unfold BuiltSequences.suspendedDriver
  dsimp only
  generalize d.prepareForSubmit M submit.outcomes = r
  obtain ⟨progress, d'⟩ := r
  cases progress <;> split_ifs <;> rfl

lemma BuiltOk.await (h : BuiltOk s) (hi : s.ownership.suspended i = false)
    (hd : s.drivers i = some d) (submit : BuiltSubmit) :
    BuiltOk (s.await (LinearMachine.machine inlineN fromError) i d submit) := by
  obtain ⟨nodes, hbuilt⟩ := h.built hd
  refine h.of_one i nodes (h.ownership.awaitSequence hi _) (awaited_awaitSequence _).others
    (suspended_awaitSequence _).1 (fun j hj => Function.update_of_ne hj _ _)
    (Function.update_self ..) ?_ (suspended_awaitSequence _).2
  refine ⟨(awaited_awaitSequence _).domain.trans hbuilt.domain, ?_,
    waitsAsked_suspendedDriver hbuilt.waits submit⟩
  rw [activeEventType_suspendedDriver, ← hbuilt.active]
  exact (awaited_awaitSequence _).active

lemma BuiltOk.sync (h : BuiltOk s) : BuiltOk s.sync :=
  h.of_same (h.ownership.of_fewer (samePlain_sync.plainOk h.ownership.plain) h.ownership.owners.sync
    fun _ hj => ⟨hj, rfl⟩) rfl rfl

lemma BuiltOk.setDriver (h : BuiltOk s) (hi : s.ownership.suspended i = true)
    (hbuilt : BuiltFrom nodes (s.ownership.sequences i) d)
    (hwaits : WaitsAsked (fun m => m.nodes = nodes) (AskedBy nodes) d') :
    BuiltOk (s.setDriver i d') := by
  have hframe : SamePlain s.ownership (s.setDriver i d').ownership := samePlain_setActive _
  have hownership : OwnershipOk (s.setDriver i d').ownership :=
    h.ownership.of_fewer (hframe.plainOk h.ownership.plain) (h.ownership.owners.setActive _)
      fun j hj => ⟨hj, hframe.domain j⟩
  refine h.of_one i nodes hownership ?_ (fun _ _ => rfl) ?_ (Function.update_self ..) ?_
    fun _ => hi
  · exact fun j hj => Function.update_of_ne hj _ _
  · exact fun j hj => Function.update_of_ne hj _ _
  · simp only [BuiltSequences.setDriver, OwnershipState.setSequence, Function.update_self]
    exact hbuilt.follow hwaits

lemma BuiltOk.dispatchOwner (h : BuiltOk s) (hi : s.ownership.suspended i = true)
    (outcomes : List IOOutcome) :
    BuiltOk (s.dispatchOwner (LinearMachine.machine inlineN fromError) i outcomes) := by
  unfold BuiltSequences.dispatchOwner
  split
  · next d hd =>
    obtain ⟨nodes, hbuilt⟩ := h.built hd
    have hwaits := hbuilt.waits.onActiveEvent (asksOnly_machine inlineN fromError nodes) outcomes
    exact (h.setDriver hi hbuilt hwaits).sync
  · exact h

lemma BuiltOk.dispatchSlot (h : BuiltOk s) (slot : IOSlot) (dispatched : Option ι)
    (outcomes : List IOOutcome) : BuiltOk
      (s.dispatchSlot (LinearMachine.machine inlineN fromError) slot dispatched outcomes).2 := by
  unfold BuiltSequences.dispatchSlot
  split
  · next i howner =>
    split
    · exact h.dispatchOwner (h.ownership.owners.owned howner).1 outcomes
    · exact h
  · exact h

lemma BuiltOk.processEvent (h : BuiltOk s) (reported : EventMask)
    (outcomes : IOSlot → List IOOutcome) : BuiltOk
      (s.processEvent (LinearMachine.machine inlineN fromError) reported outcomes) := by
  have hsequences : BuiltOk
      (s.processSequences (LinearMachine.machine inlineN fromError) reported outcomes).2 := by
    unfold BuiltSequences.processSequences
    dsimp only
    split_ifs
    · exact (h.dispatchSlot _ _ _).dispatchSlot _ _ _
    · exact h.dispatchSlot _ _ _
    · exact h.dispatchSlot _ _ _
    · exact h
    · exact h
  unfold BuiltSequences.processEvent
  dsimp only
  split
  · exact hsequences.sync
  · exact hsequences

lemma BuiltOk.resume (h : BuiltOk s) (hi : s.ownership.suspended i = true)
    (hbuilt : BuiltFrom nodes (s.ownership.sequences i) d)
    (hwaits : WaitsAsked (fun m => m.nodes = nodes) (AskedBy nodes) d') :
    BuiltOk (s.resume i d') := by
  have hset := h.setDriver hi hbuilt hwaits
  have hdriver : (s.setDriver i d').drivers i = some d' := Function.update_self ..
  obtain ⟨nodes', hbuilt'⟩ := hset.built hdriver
  refine hset.of_one i nodes' (h.ownership.resumeSequence hi _) ?_ ?_ (fun _ _ => rfl)
    hdriver ?_ ?_
  · intro j hj
    simp only [BuiltSequences.resume, OwnershipState.onCompleted, sequences_release]
    exact Function.update_of_ne hj _ _
  · exact fun j hj => Function.update_of_ne hj _ _
  · simp only [BuiltSequences.resume, OwnershipState.onCompleted, sequences_release,
      Function.update_self]
    exact ⟨hbuilt'.domain, hbuilt'.active, hbuilt'.waits⟩
  · simp [BuiltSequences.resume, OwnershipState.onCompleted, registered_release]

lemma BuiltOk.step {a : BuiltAction π ι φ ρ} (h : BuiltOk s)
    (hs : s.step inlineN fromError a = some s') : BuiltOk s' := by
  cases a with
  | beginPlain p type submit =>
    simp only [BuiltSequences.step, Option.map_eq_some_iff] at hs
    obtain ⟨ownership, hstep, rfl⟩ := hs
    have hownership := h.ownership.step hstep
    simp only [OwnershipState.step, Option.ite_none_left_eq_some, Option.some.injEq] at hstep
    obtain ⟨hnone, rfl⟩ := hstep
    obtain heq | ⟨-, heq⟩ := h.ownership.plain.beginPlain_cases (p := p) (by simpa using hnone)
      submit
    · exact h.of_same hownership (by rw [heq]) (by rw [heq])
    · exact h.of_same hownership (by rw [heq]; rfl) (by rw [heq]; rfl)
  | resumePlain slot =>
    simp only [BuiltSequences.step, Option.map_eq_some_iff] at hs
    obtain ⟨ownership, hstep, rfl⟩ := hs
    have hownership := h.ownership.step hstep
    simp only [OwnershipState.step] at hstep
    split at hstep
    · cases hstep
    · cases hstep
      exact h.of_same hownership rfl rfl
  | close =>
    cases hs
    refine h.of_same h.ownership.close ?_ ?_
    · unfold OwnershipState.close
      split <;> rfl
    · unfold OwnershipState.close
      split <;> rfl
  | build i builder flow =>
    simp only [BuiltSequences.step, Option.ite_none_left_eq_some, Option.some.injEq] at hs
    obtain ⟨hi, rfl⟩ := hs
    exact h.build (by simpa using hi) builder flow
  | await i submit =>
    simp only [BuiltSequences.step] at hs
    cases hd : s.drivers i with
    | none => simp [hd] at hs
    | some d =>
      simp only [hd, Option.ite_none_left_eq_some] at hs
      obtain ⟨hi, hs⟩ := hs
      split at hs
      · cases hs
        exact h.onCompleted (by simpa using hi)
      · cases hs
        exact h.await (by simpa using hi) hd submit
  | processEvent reported outcomes =>
    cases hs
    exact h.processEvent reported outcomes
  | resume i timedOut =>
    simp only [BuiltSequences.step] at hs
    cases hd : s.drivers i with
    | none => simp [hd] at hs
    | some d =>
      simp only [hd, Option.ite_none_right_eq_some, Option.some.injEq] at hs
      obtain ⟨hi, rfl⟩ := hs
      obtain ⟨nodes, hbuilt⟩ := h.built hd
      refine h.resume hi hbuilt ?_
      split
      · exact hbuilt.waits.markTimeout (asksOnly_machine inlineN fromError nodes)
      · exact hbuilt.waits

lemma builtOk_of_reaches {isOpen : Bool}
    (h : Reaches (BuiltSequences.step inlineN fromError) (fun _ _ => True) (.new isOpen) s) :
    BuiltOk s :=
  h.invariant (P := BuiltOk) (builtOk_new isOpen) fun _ _ _ hs _ => hs.step

section Dispatch

variable {M : StateMachine (LinearMachine φ ρ) ρ} {slot : IOSlot} {dispatched : Option ι}
  {outcomes : List IOOutcome}

lemma dispatchSlot_eq_some : (s.dispatchSlot M slot dispatched outcomes).1 = some i ↔
    s.ownership.controller.sequenceOwner slot = some i ∧ dispatched ≠ some i ∧
      (s.ownership.sequences i).waitsOn slot = true := by
  unfold BuiltSequences.dispatchSlot
  cases howner : s.ownership.controller.sequenceOwner slot with
  | none => simp
  | some j =>
    dsimp only
    split
    · next hcall =>
      simp only [Option.some.injEq]
      refine ⟨?_, And.left⟩
      rintro rfl
      exact ⟨rfl, hcall⟩
    · next hcall =>
      simp only [reduceCtorEq, Option.some.injEq, false_iff]
      rintro ⟨rfl, hcall'⟩
      exact hcall hcall'

lemma owner_dispatchSlot :
    (s.dispatchSlot M slot dispatched outcomes).2.ownership.controller.sequenceOwner =
      s.ownership.controller.sequenceOwner := by
  unfold BuiltSequences.dispatchSlot BuiltSequences.dispatchOwner
  split
  · split
    · split <;> rfl
    · rfl
  · rfl

lemma sequences_dispatchSlot {j : ι} (hj : (s.dispatchSlot M slot dispatched outcomes).1 ≠ some j) :
    (s.dispatchSlot M slot dispatched outcomes).2.ownership.sequences j =
      s.ownership.sequences j := by
  unfold BuiltSequences.dispatchSlot BuiltSequences.dispatchOwner at *
  split
  · next i howner =>
    split
    · next hcall =>
      simp only [howner, hcall, ne_eq, not_false_eq_true, and_self, if_true, Option.some.injEq]
        at hj
      split
      · exact Function.update_of_ne (Ne.symm hj) _ _
      · rfl
    · rfl
  · rfl

lemma waitsOn_unique {slot' : IOSlot} (h : seq.waitsOn slot = true)
    (h' : seq.waitsOn slot' = true) : slot = slot' := by
  simp only [SequenceObject.waitsOn, Option.any_eq_true, beq_iff_eq] at h h'
  obtain ⟨type, htype, rfl⟩ := h
  obtain ⟨type', htype', rfl⟩ := h'
  rw [Option.some.inj (htype.symm.trans htype')]

lemma mem_processSequences {reported : EventMask} {outcomes : IOSlot → List IOOutcome} :
    (slot, i) ∈ (s.processSequences M reported outcomes).1 ↔
      s.ownership.controller.type.sequence = true ∧ reported.has slot = true ∧
        s.ownership.controller.sequenceOwner slot = some i ∧
          (s.ownership.sequences i).waitsOn slot = true := by
  unfold BuiltSequences.processSequences
  dsimp only
  split
  · next hsequence =>
    set first := if reported.read = true then s.dispatchSlot M .read none (outcomes .read)
      else (none, s) with hfirst
    have hread : first.1 = some i ↔ reported.read = true ∧
        s.ownership.controller.sequenceOwner .read = some i ∧
          (s.ownership.sequences i).waitsOn .read = true := by
      rw [hfirst]
      split
      · next hreported => simp [dispatchSlot_eq_some, hreported]
      · next hreported => simp [hreported]
    cases slot with
    | read => simp [hread, hsequence, EventMask.has]
    | write =>
      have howner : first.2.ownership.controller.sequenceOwner =
          s.ownership.controller.sequenceOwner := by
        rw [hfirst]
        split
        · exact owner_dispatchSlot
        · rfl
      have hkept : first.1 ≠ some i → first.2.ownership.sequences i = s.ownership.sequences i := by
        rw [hfirst]
        split
        · exact sequences_dispatchSlot
        · exact fun _ => rfl
      have hwrite : first.1 ≠ some i ∧ (first.2.ownership.sequences i).waitsOn .write = true ↔
          (s.ownership.sequences i).waitsOn .write = true := by
        constructor
        · rintro ⟨hnot, hwaits⟩
          rwa [hkept hnot] at hwaits
        · intro hwaits
          have hnot : first.1 ≠ some i := by
            intro hcalled
            cases waitsOn_unique (hread.mp hcalled).2.2 hwaits
          rw [hkept hnot]
          exact ⟨hnot, hwaits⟩
      by_cases hreported : reported.write = true
      · simp [hreported, dispatchSlot_eq_some, howner, hwrite, hsequence, EventMask.has]
      · simp [hreported, EventMask.has]
  · next hsequence => simp [hsequence]

lemma nodup_processSequences (reported : EventMask) (outcomes : IOSlot → List IOOutcome) :
    ((s.processSequences M reported outcomes).1.map Prod.fst).Nodup := by
  have hnodup : ∀ first second : Option ι, ((first.toList.map (IOSlot.read, ·) ++
      second.toList.map (IOSlot.write, ·)).map Prod.fst).Nodup := by
    intro first second
    cases first <;> cases second <;> simp
  unfold BuiltSequences.processSequences
  dsimp only
  split
  · exact hnodup _ _
  · exact List.nodup_nil

end Dispatch

/-- A registered awaitable has claimed the domain that its builder chose, and waits for a slot of
that domain, which it owns while the controller is open. -/
def WaitsOnOwnedSlots (s : BuiltSequences π ι φ ρ) : Prop :=
  ∀ i, (s.ownership.sequences i).registered = true → ∃ d, s.drivers i = some d ∧
    (s.ownership.sequences i).registeredDomain = LinearMachine.ownerDomain d.machine.nodes ∧
    ∀ type, d.activeEventType = some type →
      (LinearMachine.ownerDomain d.machine.nodes).usesSlot type.slot = true ∧
      (s.ownership.controller.isOpen = true →
        s.ownership.controller.sequenceOwner type.slot = some i)

/-- An event calls at most one sequence for each direction. It is registered and waits for this
direction, and no other one does. -/
def DispatchedToWaiter (M : StateMachine (LinearMachine φ ρ) ρ) (s : BuiltSequences π ι φ ρ) :
    Prop :=
  ∀ reported outcomes,
    ((s.processSequences M reported outcomes).1.map Prod.fst).Nodup ∧
    ∀ slot i, (slot, i) ∈ (s.processSequences M reported outcomes).1 →
      reported.has slot = true ∧ (s.ownership.sequences i).registered = true ∧
      (s.ownership.sequences i).waitsOn slot = true ∧
      ∀ j, (s.ownership.sequences j).registered = true → j ≠ i →
        (s.ownership.sequences j).waitsOn slot = false

omit [DecidableEq ι] in
lemma BuiltOk.usesSlot (h : BuiltOk s) {slot : IOSlot} (hi : s.ownership.suspended i = true)
    (hwaits : (s.ownership.sequences i).waitsOn slot = true) :
    (s.ownership.sequences i).requestedDomain.usesSlot slot = true := by
  obtain ⟨d, hd⟩ := Option.isSome_iff_exists.mp (h.suspended hi)
  obtain ⟨nodes, hbuilt⟩ := h.built hd
  exact hbuilt.usesSlot hwaits

omit [DecidableEq ι] in
lemma BuiltOk.waitsOnOwnedSlots (h : BuiltOk s) : WaitsOnOwnedSlots s := by
  intro i hregistered
  have hi := h.registered hregistered
  obtain ⟨d, hd⟩ := Option.isSome_iff_exists.mp (h.suspended hi)
  obtain ⟨nodes, hbuilt⟩ := h.built hd
  have hdomain : (s.ownership.sequences i).requestedDomain =
      LinearMachine.ownerDomain d.machine.nodes := by
    rw [hbuilt.waits.machine]
    exact hbuilt.domain
  refine ⟨d, hd, (h.ownership.owners.registered hi).2.trans hdomain, ?_⟩
  intro type htype
  have hwaits : (s.ownership.sequences i).waitsOn type.slot = true := by
    simp [SequenceObject.waitsOn, hbuilt.active, htype]
  have huses := hbuilt.usesSlot hwaits
  refine ⟨hdomain ▸ huses, ?_⟩
  exact fun hopen => h.ownership.owners.owns hopen hi huses

lemma BuiltOk.dispatchedToWaiter (h : BuiltOk s) (M : StateMachine (LinearMachine φ ρ) ρ) :
    DispatchedToWaiter M s := by
  intro reported outcomes
  refine ⟨nodup_processSequences reported outcomes, ?_⟩
  intro slot i hmem
  obtain ⟨-, hreported, howner, hwaits⟩ := mem_processSequences.mp hmem
  have hi := (h.ownership.owners.owned howner).1
  refine ⟨hreported, (h.ownership.owners.registered hi).1, hwaits, ?_⟩
  intro j hregistered hj
  rw [← Bool.not_eq_true]
  intro hwaits'
  have hj' := h.registered hregistered
  exact hj (h.ownership.disjoint hj' hi (h.usesSlot hj' hwaits') (h.usesSlot hi hwaits))

/-- For any chains, flows and histories of events, on a controller that plain operations share. -/
theorem built_sequences_wait_on_owned_slots {isOpen : Bool}
    (h : Reaches (BuiltSequences.step inlineN fromError) (fun _ _ => True) (.new isOpen) s) :
    WaitsOnOwnedSlots s ∧ DispatchedToWaiter (LinearMachine.machine inlineN fromError) s :=
  have hs := builtOk_of_reaches h
  ⟨hs.waitsOnOwnedSlots, hs.dispatchedToWaiter _⟩

end Built

/-- A chain that reads until its flow has four bytes. -/
def readChain : AwaitableBuilder ℕ ℕ :=
  ((AwaitableBuilder.new.recv (some 0) 4 fun outcome flow =>
    (flow + (outcome.toOption.getD []).length, [])).parse fun flow =>
      (if flow < 4 then .kNeedMore else .kCompleted, flow, [])).finish fun flow =>
        (flow, [.complete flow])

def writeChain : AwaitableBuilder ℕ ℕ :=
  (AwaitableBuilder.new.send (some 1) 4 fun _ flow => (flow, [])).finish fun flow =>
    (flow, [.complete flow])

/-- Both chains wait on one controller. An event brings two bytes, after which the first chain goes
back to its `recv`. -/
def duplexChains : List (BuiltAction ℕ ℕ ℕ ℕ) :=
  [.build 0 readChain 0, .build 1 writeChain 0,
    .await 0 ⟨[], true, 0, 0⟩, .await 1 ⟨[], true, 0, 0⟩,
    .processEvent ⟨true, false⟩ fun _ => [.ok [1, 2]]]

theorem duplexChains_wait_on_owned_slots : ∃ s : BuiltSequences ℕ ℕ ℕ ℕ,
    run (BuiltSequences.step 4 none) (.new true) duplexChains = some s ∧
    (s.drivers 0).map (·.activeEventType) = some (some .recv) ∧
    s.ownership.controller.sequenceOwner .read = some 0 ∧
    (s.processSequences (LinearMachine.machine 4 none) ⟨true, true⟩ fun _ => []).1 =
      [(.read, 0), (.write, 1)] ∧
    (s.ownership.sequences 1).waitsOn .read = false := by
  have hrun : ∃ s : BuiltSequences ℕ ℕ ℕ ℕ,
      run (BuiltSequences.step 4 none) (.new true) duplexChains = some s ∧
      (s.ownership.sequences 0).registered = true ∧ (s.ownership.sequences 1).registered = true ∧
      s.ownership.controller.isOpen = true ∧
      (s.drivers 0).map (·.activeEventType) = some (some .recv) ∧
      (s.processSequences (LinearMachine.machine 4 none) ⟨true, true⟩ fun _ => []).1 =
        [(.read, 0), (.write, 1)] := ⟨_, rfl, rfl, rfl, rfl, rfl, rfl⟩
  obtain ⟨s, hs, hread, hwrite, hopen, hactive, hcalled⟩ := hrun
  obtain ⟨hwaits, hdispatched⟩ := built_sequences_wait_on_owned_slots (.of_replay _ .start hs)
  obtain ⟨d, hd, -, hslots⟩ := hwaits 0 hread
  have hrecv : d.activeEventType = some .recv := by simpa [hd] using hactive
  obtain ⟨-, hcalls⟩ := hdispatched ⟨true, true⟩ fun _ => []
  obtain ⟨-, -, -, hothers⟩ := hcalls .read 0 (by simp [hcalled])
  exact ⟨s, hs, hactive, (hslots .recv hrecv).2 hopen, hcalled, hothers 1 hwrite (by decide)⟩

end GalayKernel.Proofs
