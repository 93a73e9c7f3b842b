import GalayKernel.StateMachine

/-!
# When the operations of a state machine end

`prepareForSubmit` goes on at once with an operation that does not block, and `onActiveEvent` goes
on later with one that did. Both leave the awaitable as `follow` does, which only knows in which
order the operations have ended, unless the loop of `prepareForSubmit` runs out of rounds: that
depends on how many operations have ended at once.
-/

namespace GalayKernel.Proofs

open StateMachineAwaitable

variable {σ ρ : Type*} {M : StateMachine σ ρ} {s s' : StateMachineAwaitable σ ρ}
  {progress : SequenceProgress}

/-- The awaitable is where `progress` says. -/
def Rests : SequenceProgress × StateMachineAwaitable σ ρ → Prop
  | (.kCompleted, s) => s.awaitReady = true
  | (.kNeedWait, s) => s.awaitReady = false ∧ s.active.isSome = true

lemma rests_exhaust (s : StateMachineAwaitable σ ρ) (loop : InlineLoop) :
    Rests (.kCompleted, s.exhaust loop) :=
  Bool.or_true _

lemma rests_act (hready : s.awaitReady = false) (action : MachineAction ρ)
    {out : SequenceProgress × StateMachineAwaitable σ ρ} (h : s.act M action = .inr out) :
    Rests out := by
  unfold act at h
  split at h
  · cases h
  · split at h
    · cases h
      exact ⟨hready, rfl⟩
    · split at h
      · cases h
        exact Bool.or_true _
      · split at h <;> cases h
        exact ⟨hready, rfl⟩
  · cases h
    exact Bool.or_true _
  · cases h
    rfl
  · cases h
    exact Bool.or_true _

lemma pumpOnce_advance (hready : s.awaitReady = false) (hactive : s.active = none)
    {action : MachineAction ρ} {m : σ} (h : M.advance s.machine = (action, m)) :
    s.pumpOnce M = act M { s with machine := m, calls := s.calls ++ [.advance] } action := by
  rw [pumpOnce, hready, hactive, h]
  rfl

lemma rests_pumpOnce {out : SequenceProgress × StateMachineAwaitable σ ρ}
    (h : s.pumpOnce M = .inr out) : Rests out := by
  cases hready : s.awaitReady with
  | true =>
    rw [pumpOnce, if_pos hready] at h
    cases h
    exact hready
  | false =>
    cases hactive : s.active with
    | some request =>
      rw [pumpOnce, hready, hactive] at h
      cases h
      exact ⟨hready, congrArg Option.isSome hactive⟩
    | none =>
      rw [pumpOnce_advance hready hactive rfl] at h
      refine rests_act ?_ _ h
      exact hready

lemma rests_pump (s : StateMachineAwaitable σ ρ) : Rests (s.pump M) := by
  unfold pump
  split
  · exact rests_exhaust ..
  · next out hout =>
    exact Loop.runFor_rule (P := fun _ => True) (Q := Rests) (fun _ _ _ _ => trivial)
      (fun _ _ _ h => rests_pumpOnce h) trivial hout

lemma pump_of_rests (h : Rests (progress, s)) : s.pump M = (progress, s) := by
  have hout : s.pumpOnce M = .inr (progress, s) := by
    unfold pumpOnce
    cases progress with
    | kCompleted => exact if_pos h
    | kNeedWait =>
      rw [if_neg (Bool.eq_false_iff.mp h.1), if_pos h.2]
  unfold pump kInlineTransitionCap
  rw [Loop.runFor_leave hout]

lemma pump_of_leavesIn {n : Nat} {out : SequenceProgress × StateMachineAwaitable σ ρ}
    (h : Loop.LeavesIn (pumpOnce M) n s out) (hn : n ≤ kInlineTransitionCap) : s.pump M = out := by
  rw [pump, h.runFor_of_le hn]

lemma pump_of_lt {n : Nat} {out : SequenceProgress × StateMachineAwaitable σ ρ}
    (h : Loop.LeavesIn (pumpOnce M) n s out) (hn : kInlineTransitionCap < n) :
    ∃ s' : StateMachineAwaitable σ ρ, s.pump M = (.kCompleted, s'.exhaust .pump) := by
  obtain ⟨s', hrounds⟩ := h.runFor_of_lt hn
  rw [pump, hrounds]
  exact ⟨s', rfl⟩

lemma pump_pump (s : StateMachineAwaitable σ ρ) : (s.pump M).2.pump M = s.pump M :=
  pump_of_rests (rests_pump s)

def follow (M : StateMachine σ ρ) (s : StateMachineAwaitable σ ρ) :
    List IOOutcome → StateMachineAwaitable σ ρ
  | [] => (s.pump M).2
  | outcome :: outcomes =>
    match s.pump M with
    | (.kCompleted, s) => s
    | (.kNeedWait, s) =>
      match s.active with
      | none => s
      | some request => follow M (s.deliver M request.kind outcome) outcomes

lemma follow_completed (h : s.pump M = (.kCompleted, s')) (outcomes : List IOOutcome) :
    follow M s outcomes = s' := by
  cases outcomes with
  | nil => rw [follow, h]
  | cons outcome outcomes => rw [follow, h]

lemma follow_cons {request : IORequest} (h : s.pump M = (.kNeedWait, s'))
    (hactive : s'.active = some request) (outcome : IOOutcome) (outcomes : List IOOutcome) :
    follow M s (outcome :: outcomes) = follow M (s'.deliver M request.kind outcome) outcomes := by
  rw [follow, h]
  dsimp only
  rw [hactive]

lemma follow_pump (s : StateMachineAwaitable σ ρ) (outcomes : List IOOutcome) :
    follow M (s.pump M).2 outcomes = follow M s outcomes := by
  cases outcomes with
  | nil => rw [follow, follow, pump_pump]
  | cons outcome outcomes => rw [follow, follow, pump_pump]

lemma prepareOnce_completed (h : s.pump M = (.kCompleted, s')) (outcomes : List IOOutcome) :
    prepareOnce M (s, outcomes) = .inr (.kCompleted, s') := by
  rw [prepareOnce, h]

lemma prepareOnce_nil {request : IORequest} (h : s.pump M = (.kNeedWait, s'))
    (hactive : s'.active = some request) :
    prepareOnce M (s, []) = .inr (.kNeedWait, s') := by
  rw [prepareOnce, h]
  dsimp only
  rw [hactive]

lemma prepareOnce_cons {request : IORequest} (h : s.pump M = (.kNeedWait, s'))
    (hactive : s'.active = some request) (outcome : IOOutcome) (outcomes : List IOOutcome) :
    prepareOnce M (s, outcome :: outcomes) =
      .inl (s'.deliver M request.kind outcome, outcomes) := by
  rw [prepareOnce, h]
  dsimp only
  rw [hactive]

/-- The awaitable is at rest and goes on to `final` with the outcomes that are left. -/
def GoesOn (M : StateMachine σ ρ) (later : List IOOutcome) (final : StateMachineAwaitable σ ρ)
    (out : SequenceProgress × StateMachineAwaitable σ ρ) : Prop :=
  Rests out ∧ follow M out.2 later = final

lemma goesOn_pump (s : StateMachineAwaitable σ ρ) (later : List IOOutcome) :
    GoesOn M later (follow M s later) (s.pump M) :=
  ⟨rests_pump s, follow_pump s later⟩

lemma prepareOnce_rule {outcomes later : List IOOutcome} {final : StateMachineAwaitable σ ρ}
    (h : follow M s (outcomes ++ later) = final) :
    (∀ next, prepareOnce M (s, outcomes) = .inl next →
      follow M next.1 (next.2 ++ later) = final) ∧
    ∀ out, prepareOnce M (s, outcomes) = .inr out → GoesOn M later final out := by
  have hrests := rests_pump (M := M) s
  cases hpump : s.pump M with
  | mk progress s' =>
    rw [hpump] at hrests
    cases progress with
    | kCompleted =>
      rw [prepareOnce_completed hpump]
      refine ⟨by rintro _ ⟨⟩, ?_⟩
      rintro _ ⟨⟩
      rw [follow_completed hpump] at h
      subst h
      exact ⟨hrests, follow_completed (pump_of_rests hrests) later⟩
    | kNeedWait =>
      obtain ⟨request, hactive⟩ := Option.isSome_iff_exists.mp hrests.2
      cases outcomes with
      | nil =>
        rw [prepareOnce_nil hpump hactive]
        refine ⟨by rintro _ ⟨⟩, ?_⟩
        rintro _ ⟨⟩
        refine ⟨hrests, ?_⟩
        rw [← h, ← follow_pump s, hpump]
        rfl
      | cons outcome outcomes =>
        rw [prepareOnce_cons hpump hactive]
        refine ⟨?_, by rintro _ ⟨⟩⟩
        rintro _ ⟨⟩
        rw [← h, List.cons_append, follow_cons hpump hactive]

lemma prepareOnce_length {next next' : StateMachineAwaitable σ ρ × List IOOutcome}
    (h : prepareOnce M next = .inl next') : next'.2.length < next.2.length := by
  obtain ⟨s, outcomes⟩ := next
  unfold prepareOnce at h
  dsimp only at h
  split at h
  · cases h
  · split at h <;> cases h
    exact Nat.lt_succ_self _

/-- The loop of `prepareForSubmit` has run out of rounds, which only happens if `B`. -/
def GivesUp (B : Prop) (out : SequenceProgress × StateMachineAwaitable σ ρ) : Prop :=
  out.1 = .kCompleted ∧ out.2.exhausted = some .prepareForSubmit ∧ B

lemma GivesUp.mono {B B' : Prop} {out : SequenceProgress × StateMachineAwaitable σ ρ}
    (h : GivesUp B out) (hB : B → B') : GivesUp B' out :=
  ⟨h.1, h.2.1, hB h.2.2⟩

lemma prepareForSubmit_goesOn (s : StateMachineAwaitable σ ρ) (outcomes later : List IOOutcome) :
    GivesUp (kInlineTransitionCap ≤ outcomes.length) (s.prepareForSubmit M outcomes) ∨
      GoesOn M later (follow M s (outcomes ++ later)) (s.prepareForSubmit M outcomes) := by
  unfold prepareForSubmit
  split
  · next s' rest hrounds =>
    have hlength := Loop.runFor_measure (μ := fun next => next.2.length)
      (fun _ _ h => prepareOnce_length h) hrounds
    exact .inl ⟨rfl, rfl, Nat.le_of_add_right_le hlength⟩
  · next out hout =>
    right
    exact Loop.runFor_rule
      (P := fun next => follow M next.1 (next.2 ++ later) = follow M s (outcomes ++ later))
      (Q := GoesOn M later (follow M s (outcomes ++ later)))
      (fun _ _ h hnext => (prepareOnce_rule h).1 _ hnext)
      (fun _ _ h hleave => (prepareOnce_rule h).2 _ hleave) rfl hout

lemma rests_prepareForSubmit (s : StateMachineAwaitable σ ρ) (outcomes : List IOOutcome) :
    Rests (s.prepareForSubmit M outcomes) := by
  unfold prepareForSubmit
  split
  · exact rests_exhaust ..
  · next out hout =>
    exact Loop.runFor_rule (P := fun _ => True) (Q := Rests) (fun _ _ _ _ => trivial)
      (fun _ _ _ hleave => ((prepareOnce_rule (rfl : follow M _ (_ ++ []) = _)).2 _ hleave).1) trivial
      hout

lemma onActiveEvent_goesOn (h : Rests (.kNeedWait, s)) (outcomes later : List IOOutcome) :
    GivesUp (kInlineTransitionCap < outcomes.length) (s.onActiveEvent M outcomes) ∨
      GoesOn M later (follow M s (outcomes ++ later)) (s.onActiveEvent M outcomes) := by
  obtain ⟨request, hactive⟩ := Option.isSome_iff_exists.mp h.2
  unfold onActiveEvent
  rw [hactive]
  cases outcomes with
  | nil => exact .inr ⟨h, rfl⟩
  | cons outcome outcomes =>
    rw [List.cons_append, follow_cons (pump_of_rests h) hactive]
    exact (prepareForSubmit_goesOn ..).imp_left fun hgivesUp =>
      hgivesUp.mono Nat.lt_succ_of_le

lemma onCompletion_goesOn (h : Rests (.kNeedWait, s)) (outcome : Option IOOutcome)
    (later : List IOOutcome) :
    GoesOn M later (follow M s (outcome.toList ++ later)) (s.onCompletion M outcome) := by
  obtain ⟨request, hactive⟩ := Option.isSome_iff_exists.mp h.2
  unfold onCompletion
  rw [hactive]
  cases outcome with
  | none => exact ⟨h, rfl⟩
  | some outcome =>
    rw [Option.toList_some, List.singleton_append, follow_cons (pump_of_rests h) hactive]
    exact goesOn_pump ..

section Events

variable {ε : Type*} {handle : StateMachineAwaitable σ ρ → ε →
    SequenceProgress × StateMachineAwaitable σ ρ}

lemma handleEvents_follow {B : Prop} (outcomes : ε → List IOOutcome) (events : List ε)
    (hhandle : ∀ event ∈ events, ∀ s later, Rests (.kNeedWait, s) → GivesUp B (handle s event) ∨
      GoesOn M later (follow M s (outcomes event ++ later)) (handle s event))
    {final : StateMachineAwaitable σ ρ} {out : SequenceProgress × StateMachineAwaitable σ ρ}
    (hout : GivesUp B out ∨ GoesOn M (events.flatMap outcomes) final out) :
    handleEvents handle out events = final ∨
      (handleEvents handle out events).exhausted = some .prepareForSubmit ∧ B := by
  induction events generalizing out with
  | nil =>
    obtain ⟨progress, s⟩ := out
    obtain ⟨-, hgivesUp⟩ | ⟨hrests, hfollow⟩ := hout
    · exact .inr hgivesUp
    · left
      rw [← hfollow, List.flatMap_nil, follow, pump_of_rests hrests]
      rfl
  | cons event events ih =>
    obtain ⟨progress, s⟩ := out
    obtain ⟨hprogress, hgivesUp⟩ | ⟨hrests, hfollow⟩ := hout
    · dsimp only at hprogress
      subst hprogress
      exact .inr hgivesUp
    · cases progress with
      | kCompleted => exact .inl (hfollow ▸ (follow_completed (pump_of_rests hrests) _).symm)
      | kNeedWait =>
        refine ih (fun event hmem => hhandle event (List.mem_cons_of_mem _ hmem)) ?_
        rw [← hfollow, List.flatMap_cons]
        exact hhandle event List.mem_cons_self s _ hrests

end Events

/-- No call of `prepareForSubmit` sees as many operations end as its loop has rounds. At an event
`onActiveEvent` delivers the first outcome before it makes the call. -/
def FitsRounds : Schedule → Prop
  | .reactor submitted events => submitted.length < kInlineTransitionCap ∧
      ∀ event ∈ events, event.length ≤ kInlineTransitionCap
  | .uring _ => True

lemma fitsRounds_of_length {schedule : Schedule}
    (h : schedule.outcomes.length < kInlineTransitionCap) : FitsRounds schedule := by
  cases schedule with
  | uring completions => trivial
  | reactor submitted events =>
    rw [Schedule.outcomes, List.length_append] at h
    refine ⟨by omega, fun event hmem => ?_⟩
    have hevent := (List.sublist_flatten_of_mem hmem).length_le
    omega

/-- A run is determined by the outcomes in their order, unless it gives up. -/
theorem await_follow_or (M : StateMachine σ ρ) (m : σ) (schedule : Schedule) :
    await M m schedule = follow M (.new m) schedule.outcomes ∨
      (await M m schedule).exhausted = some .prepareForSubmit ∧ ¬FitsRounds schedule := by
  cases schedule with
  | reactor submitted events =>
    refine handleEvents_follow (M := M) id events (fun event hmem s later hs => ?_) ?_
    · exact (onActiveEvent_goesOn hs event later).imp_left fun hgivesUp =>
        hgivesUp.mono fun hlong hfits => Nat.not_lt.mpr (hfits.2 event hmem) hlong
    · rw [List.flatMap_id]
      exact (prepareForSubmit_goesOn ..).imp_left fun hgivesUp =>
        hgivesUp.mono fun hlong hfits => Nat.not_le.mpr hfits.1 hlong
  | uring completions =>
    refine handleEvents_follow (M := M) Option.toList completions
      (fun event _ s later hs => .inr (onCompletion_goesOn hs event later)) ?_
    rw [← List.filterMap_eq_flatMap_toList]
    exact .inr (goesOn_pump ..)

lemma await_follow (m : σ) (schedule : Schedule)
    (h : (await M m schedule).exhausted ≠ some .prepareForSubmit) :
    await M m schedule = follow M (.new m) schedule.outcomes :=
  (await_follow_or M m schedule).resolve_right fun hgivesUp => h hgivesUp.1

lemma await_follow_of_fits (M : StateMachine σ ρ) (m : σ) {schedule : Schedule}
    (h : FitsRounds schedule) : await M m schedule = follow M (.new m) schedule.outcomes :=
  (await_follow_or M m schedule).resolve_right fun hgivesUp => hgivesUp.2 h

section ReadOn

universe u v

def readOn : StateMachine PUnit.{u + 1} PUnit.{v + 1} where
  advance := fun m => (.wait ⟨.kRead, some 0, 16, 0⟩, m)
  onRead := fun _ m => m
  onWrite := fun _ m => m
  onConnect := some fun _ m => m

variable {s : StateMachineAwaitable PUnit.{u + 1} PUnit.{v + 1}}

lemma deliver_readOn (kind : ActiveKind) (outcome : IOOutcome) :
    (s.deliver readOn kind outcome).awaitReady = s.awaitReady := by
  cases kind <;> rfl

lemma pump_readOn (hready : s.awaitReady = false) :
    ∃ s', s.pump readOn = (.kNeedWait, s') ∧ Rests (.kNeedWait, s') := by
  have hout : ∃ s', s.pumpOnce readOn = .inr (.kNeedWait, s') := by
    cases hactive : s.active with
    | none => exact ⟨_, pumpOnce_advance hready hactive rfl⟩
    | some request =>
      rw [pumpOnce, hready, hactive]
      exact ⟨s, rfl⟩
  obtain ⟨s', hout⟩ := hout
  refine ⟨s', ?_, rests_pumpOnce hout⟩
  unfold pump kInlineTransitionCap
  rw [Loop.runFor_leave hout]

lemma follow_readOn (outcomes : List IOOutcome) (hready : s.awaitReady = false) :
    (follow readOn s outcomes).awaitReady = false := by
  obtain ⟨s', hpump, hrests⟩ := pump_readOn hready
  induction outcomes generalizing s s' with
  | nil =>
    rw [follow, hpump]
    exact hrests.1
  | cons outcome outcomes ih =>
    obtain ⟨request, hactive⟩ := Option.isSome_iff_exists.mp hrests.2
    have hdelivered := (deliver_readOn request.kind outcome).trans hrests.1
    obtain ⟨s'', hpump', hrests'⟩ := pump_readOn hdelivered
    rw [follow_cons hpump hactive]
    exact ih hdelivered s'' hpump' hrests'

/-- Every outcome takes a round of `prepareForSubmit`, and there is one in which it would block. -/
lemma runFor_readOn (n : Nat) (outcomes : List IOOutcome) (hready : s.awaitReady = false)
    {out : SequenceProgress × StateMachineAwaitable PUnit PUnit}
    (h : Loop.runFor (prepareOnce readOn) n (s, outcomes) = .inr out) : outcomes.length < n := by
  induction n generalizing s outcomes with
  | zero => cases h
  | succ n ih =>
    obtain ⟨s', hpump, hrests⟩ := pump_readOn hready
    obtain ⟨request, hactive⟩ := Option.isSome_iff_exists.mp hrests.2
    cases outcomes with
    | nil => exact Nat.succ_pos n
    | cons outcome outcomes =>
      rw [Loop.runFor_next (prepareOnce_cons hpump hactive outcome outcomes)] at h
      exact Nat.succ_lt_succ (ih outcomes ((deliver_readOn ..).trans hrests.1) h)

lemma prepareForSubmit_readOn (outcomes : List IOOutcome) (hready : s.awaitReady = false)
    (h : (s.prepareForSubmit readOn outcomes).1 = .kNeedWait) :
    outcomes.length < kInlineTransitionCap := by
  unfold prepareForSubmit at h
  split at h
  · cases h
  · next out hout => exact runFor_readOn _ outcomes hready hout

lemma onActiveEvent_readOn (event : List IOOutcome) (hrests : Rests (.kNeedWait, s)) :
    Rests (s.onActiveEvent readOn event) ∧
      ((s.onActiveEvent readOn event).1 = .kNeedWait → event.length ≤ kInlineTransitionCap) := by
  obtain ⟨request, hactive⟩ := Option.isSome_iff_exists.mp hrests.2
  unfold onActiveEvent
  rw [hactive]
  cases event with
  | nil => exact ⟨hrests, fun _ => Nat.zero_le _⟩
  | cons outcome outcomes =>
    have hready := (deliver_readOn request.kind outcome).trans hrests.1
    exact ⟨rests_prepareForSubmit .., prepareForSubmit_readOn outcomes hready⟩

lemma handleEvents_readOn (events : List (List IOOutcome))
    {out : SequenceProgress × StateMachineAwaitable PUnit PUnit} (hrests : Rests out)
    (h : (handleEvents (onActiveEvent readOn) out events).awaitReady = false) :
    out.1 = .kNeedWait ∧ ∀ event ∈ events, event.length ≤ kInlineTransitionCap := by
  induction events generalizing out with
  | nil =>
    obtain ⟨progress, s⟩ := out
    cases progress with
    | kCompleted => cases hrests.symm.trans h
    | kNeedWait => exact ⟨rfl, List.forall_mem_nil _⟩
  | cons event events ih =>
    obtain ⟨progress, s⟩ := out
    cases progress with
    | kCompleted => cases hrests.symm.trans h
    | kNeedWait =>
      obtain ⟨hrests', hlength⟩ := onActiveEvent_readOn event hrests
      obtain ⟨hprogress, hevents⟩ := ih hrests' h
      exact ⟨rfl, List.forall_mem_cons.mpr ⟨hlength hprogress, hevents⟩⟩

lemma fitsRounds_of_readOn {schedule : Schedule}
    (h : (await readOn PUnit.unit schedule).awaitReady = false) : FitsRounds schedule := by
  cases schedule with
  | uring completions => trivial
  | reactor submitted events =>
    obtain ⟨hprogress, hevents⟩ := handleEvents_readOn events (rests_prepareForSubmit ..) h
    exact ⟨prepareForSubmit_readOn submitted rfl hprogress, hevents⟩

/-- Of two runs that see the same outcomes in the same order one fits into the rounds of
`prepareForSubmit`. Every machine gets the same calls in both, and the same result, exactly if the
other one fits too. -/
theorem timing_independent_iff (schedule schedule' : Schedule)
    (houtcomes : schedule.outcomes = schedule'.outcomes) (hfits' : FitsRounds schedule') :
    (∀ (σ : Type u) (ρ : Type v) (M : StateMachine σ ρ) (m : σ),
      await M m schedule = await M m schedule') ↔ FitsRounds schedule := by
  constructor
  · intro hall
    apply fitsRounds_of_readOn
    rw [hall, await_follow_of_fits readOn PUnit.unit hfits']
    exact follow_readOn _ rfl
  · intro hfits σ ρ M m
    rw [await_follow_of_fits M m hfits, await_follow_of_fits M m hfits', houtcomes]

end ReadOn

/-- The machine reads `n` times and completes with the number of bytes. -/
def readTimes (n : Nat) : StateMachine (Nat × Nat) Nat where
  advance := fun (reads, bytes) =>
    (if reads < n then .wait ⟨.kRead, some 0, 16, 0⟩ else .complete (some bytes), (reads, bytes))
  onRead := fun outcome (reads, bytes) =>
    (reads + 1, bytes + (outcome.toOption.getD []).length)
  onWrite := fun _ m => m
  onConnect := none

def oneByte : IOOutcome := .ok [0]

theorem readTimes_timing_independent :
    (await (readTimes 2) (0, 0) (.reactor [oneByte, oneByte] [])).result = some 2 ∧
    await (readTimes 2) (0, 0) (.reactor [oneByte, oneByte] []) =
      await (readTimes 2) (0, 0) (.reactor [] [[oneByte], [], [oneByte]]) := by
  have hagree := (timing_independent_iff (.reactor [oneByte, oneByte] [])
    (.reactor [] [[oneByte], [], [oneByte]]) rfl ⟨by decide, by decide⟩).mpr ⟨by decide, by decide⟩
  exact ⟨rfl, hagree _ _ (readTimes 2) (0, 0)⟩

/-- After 64 reads that do not block `prepareForSubmit` gives up; it does not when the first of
them blocks. -/
theorem timing_can_matter : ¬∀ (σ ρ : Type) (M : StateMachine σ ρ) (m : σ)
    (submitted submitted' : List IOOutcome) (events events' : List (List IOOutcome)),
    submitted ++ events.flatten = submitted' ++ events'.flatten →
    (await M m (.reactor submitted events)).calls = (await M m (.reactor submitted' events')).calls ∧
    (await M m (.reactor submitted events)).result =
      (await M m (.reactor submitted' events')).result := by
  intro hall
  have hreads := (hall _ _ (readTimes 64) (0, 0) (List.replicate 64 oneByte) [] []
    [List.replicate 64 oneByte] rfl).2
  exact absurd hreads (by decide +kernel)

end GalayKernel.Proofs
