import GalayKernel.Proofs.MpscWakeups

namespace GalayKernel

variable {α β : Type}

def MpscConsumer.timer : MpscConsumer β → Option Nat
  | .receiving _ (.suspended timer) => timer
  | .receiving _ (.checkTimeout k) => some k
  | .receiving _ (.cancel k) => some k
  | _ => none

/-- The producer has put its values into the queue and may still wake the consumer. -/
def MpscProducer.stirring : MpscProducer α → Bool
  | .hasWaiter | .consumeWake | .wakeUp _ => true
  | _ => false

end GalayKernel

namespace GalayKernel.Proofs
open Mpsc Transition

variable {ι α : Type} {s s' : Mpsc ι α} {a : MpscAction ι α} {r r' : MpscReceive (ι × α)}
  {stage stage' : RecvStage (ι × α)} {i : Nat}

/-- Something is under way that may resume the consumer. -/
def UnderWay (s : Mpsc ι α) : Prop :=
  (∃ p, (s.producers p).stirring = true) ∨ s.wake.pending ≠ [] ∨ ∃ k, Firing s.timers k

/-- A receive without a timeout that registers itself with an empty channel does so when no send
is between its enqueue and the end of its wake-up and no earlier wake-up is under way. Until it
returns, nothing outside of the channel wakes the consumer. -/
def PublishesQuietly (s : Mpsc ι α) : MpscAction ι α → Prop
  | .advance _ => ∀ r, s.consumer = .receiving r .publish → r.timed = false →
      s.channel.stored = [] → ¬UnderWay s
  | .wakeElsewhere | .enqueue => ∀ r stage, s.consumer = .receiving r stage → r.timed = true
  | _ => True

def HasValue (s : Mpsc ι α) : Prop :=
  s.consumer.ready ++ (s.consumer.point.values ++ s.channel.stored) ≠ []

def Plain (r : MpscReceive (ι × α)) : Prop := r.timed = false ∧ r.request ≠ .batch 0

/-- A plain receive is resumed only when there is a value for it. -/
def ValueAt (s : Mpsc ι α) : RecvStage (ι × α) → Prop
  | .trying .recheck _ | .withdraw | .addTimer | .suspended _ => UnderWay s → HasValue s
  | .trying .resume _ | .clear | .checkTimeout _ | .cancel _ => HasValue s
  | _ => True

structure ValueOk (s : Mpsc ι α) : Prop where
  sending : ∀ p values n, s.producers p = .enqueue values n → values ≠ []
  timers : TimerThreadOk s.timers s.consumer.timer
  value : ∀ r stage, s.consumer = .receiving r stage → Plain r → ValueAt s stage
  returned : ∀ r vs, (r, vs) ∈ s.returned → Plain r → vs ≠ []

lemma ValueOk.keep (h : ValueOk s) (hc : s'.consumer = s.consumer)
    (hsending : ∀ p values n, s'.producers p = .enqueue values n → values ≠ [])
    (htimers : TimerThreadOk s'.timers s.consumer.timer) (hreturned : s'.returned = s.returned)
    (hvalue : HasValue s → HasValue s')
    (hunder : ∀ r stage, s.consumer = .receiving r stage → Plain r → UnderWay s' →
      UnderWay s ∨ HasValue s') : ValueOk s' := by
  refine ⟨hsending, hc ▸ htimers, fun r stage hr hplain => ?_, hreturned ▸ h.returned⟩
  rw [hc] at hr
  have hat := h.value r stage hr hplain
  have hawaits : (UnderWay s → HasValue s) → UnderWay s' → HasValue s' := by
    intro hat hu
    rcases hunder r stage hr hplain hu with hu | hv
    · exact hvalue (hat hu)
    · exact hv
  cases stage with
  | trying place point =>
    cases place with
    | ready | suspend => trivial
    | recheck => exact hawaits hat
    | resume => exact hvalue hat
  | publish => trivial
  | withdraw | addTimer | suspended => exact hawaits hat
  | checkTimeout | cancel | clear => exact hvalue hat

lemma ValueOk.advance (h : ValueOk s) (htimers : TimerThreadOk s'.timers s'.consumer.timer)
    (hproducers : s'.producers = s.producers) (hreturned : s'.returned = s.returned)
    (hvalue : ∀ r stage, s'.consumer = .receiving r stage → Plain r → ValueAt s' stage) :
    ValueOk s' :=
  ⟨hproducers ▸ h.sending, htimers, hvalue, hreturned ▸ h.returned⟩

lemma ValueOk.finish {vs : List (ι × α)} (h : ValueOk s)
    (htimers : TimerThreadOk s'.timers s'.consumer.timer) (hproducers : s'.producers = s.producers)
    (hc : s'.consumer = .running) (hreturned : s'.returned = s.returned ++ [(r, vs)])
    (hvs : Plain r → vs ≠ []) : ValueOk s' := by
  refine ⟨hproducers ▸ h.sending, htimers, fun r' stage' hr' => ?_, fun r' vs' hr' => ?_⟩
  · rw [hc] at hr'
    cases hr'
  · rw [hreturned, List.mem_append, List.mem_singleton, Prod.mk.injEq] at hr'
    rcases hr' with hr' | ⟨rfl, rfl⟩
    · exact h.returned r' vs' hr'
    · exact hvs

lemma ValueOk.suspends {c : MpscChannel ι α} (h : ValueOk s)
    (htimers : TimerThreadOk s.timers
      (({ s with channel := c } : Mpsc ι α).suspends r).consumer.timer)
    (hvalue : Plain r → UnderWay s → r.ready ++ c.stored ≠ []) :
    ValueOk (({ s with channel := c } : Mpsc ι α).suspends r) := by
  refine h.advance htimers rfl rfl (fun r' stage' hr hplain => ?_)
  have hv : UnderWay s → HasValue (({ s with channel := c } : Mpsc ι α).suspends r) := by
    simp only [Mpsc.suspends, MpscConsumer.receiving.injEq] at hr
    obtain ⟨rfl, -⟩ := hr
    intro hu
    unfold HasValue
    rw [suspends_point]
    exact hvalue hplain hu
  simp only [Mpsc.suspends, MpscConsumer.receiving.injEq] at hr
  obtain ⟨rfl, rfl⟩ := hr
  rw [hplain.1]
  exact hv

lemma suspends_timer (s : Mpsc ι α) (r : MpscReceive (ι × α)) :
    (s.suspends r).consumer.timer = none := by
  cases htimed : r.timed <;> simp [suspends, htimed, MpscConsumer.timer]

variable [DecidableEq ι]

lemma timerThreadOk_move (h : TimerThreadOk s.timers s.consumer.timer) (hm : MpscMove s a s') :
    TimerThreadOk s'.timers s'.consumer.timer := by
  cases hm with
  | sendNothing | send | enqueue | reject | undo | seesWaiter | seesNone | consumeWake | consumeNone
  | wakeUp | wakeElsewhere | direct | schedule | pop => exact h
  | recheckEmpty hc | tooLate hc =>
    rw [hc] at h
    rw [suspends_timer]
    exact h
  | addTimer hc =>
    rw [hc] at h
    exact h.addTimer
  | timedOut hc hk =>
    rw [hc] at h
    exact h.timedOut hk
  | cancel hc =>
    rw [hc] at h
    exact h.cancel
  | expire ht => exact h.expire ht
  | handle ht => exact h.handle ht
  | tryRecv hc | callGoesOn hc | callReturns hc | recv hc | tryGoesOn hc | notReady hc
  | stillEmpty hc | foundEarly _ _ hc | publish hc | recheckFound _ hc | withdraw hc | inTime hc
  | clearAndTry hc | clearAndReturn hc | tryReturns hc | awaitElsewhere hc | resumeTimed hc
  | resumeUntimed hc | resumeElsewhere hc =>
    rw [hc] at h
    exact h

lemma RecvSpec.ne_nil_iff {c c' : MpscChannel ι α} {point : RecvPoint (ι × α)}
    {progress : RecvProgress (ι × α)} (hspec : RecvSpec c point c' progress) :
    progress.values ++ c'.stored ≠ [] ↔ point.values ++ c.stored ≠ [] := by
  rw [ne_eq, ne_eq, ← List.length_eq_zero_iff, ← List.length_eq_zero_iff,
    hspec.order.perm.length_eq]

lemma HasValue.call {c : MpscChannel ι α} {point : RecvPoint (ι × α)}
    {progress : RecvProgress (ι × α)} (h : HasValue s) (hpoint : s.consumer.point = point)
    (hready : s.consumer.ready = []) (hspec : RecvSpec s.channel point c progress) :
    progress.values ++ c.stored ≠ [] := by
  rw [hspec.ne_nil_iff]
  simpa [HasValue, hpoint, hready] using h

lemma sending_update {f : ι → MpscProducer α} {p : ι} {point : MpscProducer α}
    (h : ∀ q values n, f q = .enqueue values n → values ≠ [])
    (hpoint : ∀ values n, point = .enqueue values n → values ≠ []) :
    ∀ q values n, Function.update f p point q = .enqueue values n → values ≠ [] := by
  intro q values n hq
  rcases Threads.eq_of_update hq with ⟨-, hq⟩ | ⟨-, hq⟩
  · exact hpoint values n hq
  · exact h q values n hq

lemma ValueOk.producer {p : ι} {point : MpscProducer α} (h : ValueOk s)
    (hproducers : s'.producers = Function.update s.producers p point)
    (hsend : ∀ values n, point = .enqueue values n → values ≠ [])
    (hpoint : point.stirring = true → (s.producers p).stirring = true ∨ HasValue s')
    (hc : s'.consumer = s.consumer) (hwake : s'.wake = s.wake) (htimers : s'.timers = s.timers)
    (hreturned : s'.returned = s.returned) (hvalue : HasValue s → HasValue s') : ValueOk s' := by
  refine h.keep hc (hproducers ▸ sending_update h.sending hsend) (htimers ▸ h.timers) hreturned
    hvalue ?_
  rintro r stage - - (⟨q, hq⟩ | hu | hu)
  · rw [hproducers] at hq
    rcases Threads.of_update (P := fun x : MpscProducer α => x.stirring = true) hq with
      ⟨-, hq⟩ | ⟨-, hq⟩
    · exact (hpoint hq).imp_left fun hp => .inl ⟨p, hp⟩
    · exact .inl (.inl ⟨q, hq⟩)
  · exact .inl (.inr (.inl (hwake ▸ hu)))
  · exact .inl (.inr (.inr (htimers ▸ hu)))

omit [DecidableEq ι] in
lemma timer_of_plain (hpos : PositionOk s) (hc : s.consumer = .receiving r stage) (hr : Plain r) :
    s.consumer.timer = none := by
  have hstage := hpos.stage r stage hc
  have huntimed : r.timed = true → s.consumer.timer = none := fun ht => by
    rw [hr.1] at ht
    cases ht
  cases stage with
  | suspended timer =>
    have hnone : timer.isSome = false := hstage.2.2.trans hr.1
    rw [hc]
    simpa [MpscConsumer.timer] using hnone
  | checkTimeout | cancel => exact huntimed hstage.2.2
  | trying | publish | withdraw | addTimer | clear => rw [hc]; rfl

theorem valueOk_move (hpos : PositionOk s) (hzero : s.channel.size = 0 → s.channel.stored = [])
    (hpublish : PublishesQuietly s a) (h : ValueOk s) (hm : MpscMove s a s') : ValueOk s' := by
  have htimers := timerThreadOk_move h.timers hm
  cases hm with
  | sendNothing => exact h
  | send hp hvalues =>
    refine h.producer rfl (fun values n he => ?_) (fun hs => by cases hs) rfl rfl rfl rfl id
    cases he
    exact hvalues
  | enqueue hp =>
    have hvalues := h.sending _ _ _ hp
    refine h.producer rfl (fun _ _ he => by split at he <;> cases he) (fun _ => .inr ?_)
      rfl rfl rfl rfl (fun _ => ?_) <;>
      simp [HasValue, MpscChannel.stored, setProducer, hvalues]
  | reject hp | undo hp | seesNone hp | consumeNone hp =>
    exact h.producer rfl (fun _ _ he => by cases he) (fun hs => by cases hs) rfl rfl rfl rfl id
  | seesWaiter hp | consumeWake hp =>
    exact h.producer rfl (fun _ _ he => by cases he) (fun _ => .inl (by rw [hp]; rfl))
      rfl rfl rfl rfl id
  | @wakeUp p receive _ hp =>
    refine h.keep rfl (sending_update h.sending fun _ _ he => by cases he) h.timers rfl id
      (fun _ _ _ _ _ => ?_)
    exact .inl (.inl ⟨p, by rw [hp]; rfl⟩)
  | tryRecv | callGoesOn | callReturns | awaitElsewhere | resumeElsewhere =>
    exact h.advance htimers rfl rfl (fun _ _ hr => by cases hr)
  | recv | notReady | stillEmpty =>
    refine h.advance htimers rfl rfl (fun _ _ hr _ => ?_)
    cases hr
    trivial
  | @tryGoesOn r _ place point next c hc _ hspec =>
    refine h.advance htimers rfl rfl (fun _ _ hr hplain => ?_)
    cases hr
    have hstage := hpos.stage _ _ hc
    have hat := h.value _ _ hc hplain
    have hvalue (hready : r.ready = []) (hv : HasValue s) :
        r.ready ++ (next.values ++ c.stored) ≠ [] := by
      have hvalues := hv.call (by rw [hc]; rfl) (by rw [hc]; exact hready) hspec
      simpa [hready] using hvalues
    cases place with
    | ready | suspend => trivial
    | recheck => exact fun hu => hvalue hstage.2.1 (hat hu)
    | resume => exact hvalue hstage.2.1 hat
  | foundEarly _ hvalues => exact h.finish htimers rfl rfl rfl (fun _ => hvalues)
  | @publish r _ hc =>
    refine h.advance htimers rfl rfl (fun _ _ hr hplain => ?_)
    cases hr
    intro hu
    by_cases hstored : s.channel.stored = []
    · exact absurd hu (hpublish r hc hplain.1 hstored)
    · exact fun hnil => hstored (List.append_eq_nil_iff.mp hnil).2
  | recheckEmpty hc _ hspec =>
    have hready := (hpos.stage _ _ hc).2.1
    refine h.suspends htimers (fun hplain hu => ?_)
    have hvalues :=
      (h.value _ _ hc hplain hu).call (by rw [hc]; rfl) (by rw [hc]; exact hready) hspec
    simpa [hready] using hvalues
  | recheckFound hvalues hc =>
    refine h.advance htimers rfl rfl (fun _ _ hr _ => ?_)
    cases hr
    exact fun _ hnil => hvalues (List.append_eq_nil_iff.mp hnil).1
  | withdraw hc =>
    have hready := (hpos.stage _ _ hc).2.1
    refine h.advance htimers rfl rfl (fun _ _ hr _ => ?_)
    cases hr
    exact fun hnil => hready (List.append_eq_nil_iff.mp hnil).1
  | tooLate hc =>
    have hready := (hpos.stage _ _ hc).2.1
    exact h.suspends htimers (fun _ _ hnil => hready (List.append_eq_nil_iff.mp hnil).1)
  | addTimer hc | timedOut hc | inTime hc | cancel hc =>
    have hstage := hpos.stage _ _ hc
    refine h.advance htimers rfl rfl (fun r' stage' hr hplain => ?_)
    cases hr
    exact absurd (hplain.1.symm.trans hstage.2.2) Bool.false_ne_true
  | clearAndTry hc =>
    refine h.advance htimers rfl rfl (fun _ _ hr hplain => ?_)
    cases hr
    have hv : HasValue s := h.value _ _ hc hplain
    rw [HasValue, hc] at hv
    exact hv
  | clearAndReturn hc hready => exact h.finish htimers rfl rfl rfl (fun _ => hready)
  | tryReturns hc hcall hspec =>
    refine h.finish htimers rfl rfl rfl (fun hplain => ?_)
    rintro rfl
    have hready := (hpos.stage _ _ hc).2.1
    have hpoint := hpos.point
    rw [hc] at hpoint
    have hv : HasValue s := h.value _ _ hc hplain
    have hvalues := hv.call (by rw [hc]; rfl) (by rw [hc]; exact hready) hspec
    exact hvalues (recvStep_nil hplain.2 hpoint hzero hcall)
  | resumeTimed hc =>
    have hstage := hpos.stage _ _ hc
    refine h.advance htimers rfl rfl (fun _ _ hr hplain => ?_)
    cases hr
    exact absurd (hplain.1.symm.trans hstage.2.2.symm) Bool.false_ne_true
  | resumeUntimed hc hwake =>
    refine h.advance htimers rfl rfl (fun _ _ hr hplain => ?_)
    cases hr
    have hresuming := (TaskWake.resuming_resume hwake).1
    have hv := h.value _ _ hc hplain (.inr (.inl (TaskWake.pending_of_resuming hresuming)))
    rw [HasValue, hc] at hv
    exact hv
  | wakeElsewhere | direct =>
    refine h.keep rfl h.sending h.timers rfl id (fun r stage hr hplain => ?_)
    exact absurd (hplain.1.symm.trans (hpublish r stage hr)) Bool.false_ne_true
  | schedule hwake =>
    refine h.keep rfl h.sending h.timers rfl id (fun _ _ _ _ hu => .inl ?_)
    simpa only [UnderWay, ne_eq, TaskWake.pending_schedule_eq_nil hwake] using hu
  | pop _ hwake =>
    refine h.keep rfl h.sending h.timers rfl id (fun _ _ _ _ hu => .inl ?_)
    simpa only [UnderWay, ne_eq, TaskWake.pending_pop_eq_nil hwake] using hu
  | expire ht =>
    refine h.keep rfl h.sending htimers rfl id (fun _ _ _ _ hu => .inl ?_)
    refine hu.imp_right (Or.imp_right ?_)
    rintro ⟨k, hk⟩
    unfold TimerThread.expire at ht
    split at ht <;> cases ht
    simp [Firing] at hk
  | handle ht =>
    refine h.keep rfl h.sending htimers rfl id (fun r stage hr hplain hu => .inl ?_)
    rcases handle_cases ht with ⟨k, hk, hcancelled, -⟩ | ⟨k, hk, -⟩ | ⟨rfl, hfiring⟩
    · have hcurrent := h.timers.checking k hk hcancelled
      rw [timer_of_plain hpos hr hplain] at hcurrent
      cases hcurrent
    · exact .inr (.inr ⟨k, .inr (.inr hk)⟩)
    · exact hu.imp_right (Or.imp_right (Exists.imp hfiring))

/-- A receive that has no timeout does not return the error `kTimeout`, and when a producer resumes
it there is a value for it. -/
def UntimedSucceeds (s : Mpsc ι α) : Prop :=
  (∀ r vs, (r, vs) ∈ s.returned → r.timed = false → r.request ≠ .batch 0 → vs ≠ []) ∧
  ∀ r p i, s.consumer = .receiving r (.suspended none) → r.request ≠ .batch 0 →
    s.wake.resuming = some (.producer p i) → r.ready ++ s.channel.stored ≠ []

theorem untimed_receive_succeeds [Fintype ι] (prefetchLimit : Nat)
    (h : Reaches Mpsc.step (fun s a => Bounded s a ∧ PublishesQuietly s a)
      (Mpsc.init prefetchLimit) s) : UntimedSucceeds s := by
  have hinv := mpsc_invariant (P := fun s => LoadOk s.load ∧ ValueOk s)
    ⟨loadOk_init prefetchLimit, nofun, TimerThreadOk.init, fun r stage hr =>
      absurd hr (not_receiving_init prefetchLimit r stage), nofun⟩ ?_ h
  · obtain ⟨hpos, -, hok⟩ := hinv
    refine ⟨fun r vs hr ht hrequest => hok.returned r vs hr ⟨ht, hrequest⟩,
      fun r p i hc hrequest hresuming => ?_⟩
    have huntimed : r.timed = false := (hpos.stage _ _ hc).2.2.symm
    have hpending := TaskWake.pending_of_resuming (w := s.wake) (by simp [hresuming])
    have hv := hok.value r _ hc ⟨huntimed, hrequest⟩ (.inr (.inl hpending))
    rw [HasValue, hc] at hv
    exact hv
  · rintro s a s' hpos ⟨hload, hok⟩ ⟨hbounded, hquiet⟩ hm
    have hbound : s.undelivered < 2 ^ 32 := Nat.lt_of_le_of_lt (Nat.le_add_right _ _) hbounded
    exact ⟨(hload.move (loadMove_of_move hpos hm)).1,
      valueOk_move hpos (stored_eq_nil_of_size hload hbound) hquiet hok hm⟩

/-- The consumer sleeps, a producer sends and wakes it. -/
def wokenBySend : List (MpscAction Bool Nat) :=
  [.recv .single false, .advance [], .advance [], .advance [], .advance [], .send true [5],
    .produce true true, .produce true true, .produce true true, .schedule (.producer true 0),
    .pop (.producer true 0), .resume, .advance [], .advance [], .advance [true], .advance []]

def publishCheck (s : Mpsc Bool Nat) (a : MpscAction Bool Nat) : Bool :=
  decide (Bounded s a) &&
    match a, s.consumer with
    | .advance _, .receiving _ .publish =>
      !(s.producers true).stirring && !(s.producers false).stirring && s.wake.pending.isEmpty &&
        s.timers.handling.isNone
    | .wakeElsewhere, _ | .enqueue, _ => false
    | _, _ => true

lemma publishesQuietly_of_check (s : Mpsc Bool Nat) (a : MpscAction Bool Nat)
    (h : publishCheck s a = true) : Bounded s a ∧ PublishesQuietly s a := by
  simp only [publishCheck, Bool.and_eq_true, decide_eq_true_eq] at h
  refine ⟨h.1, ?_⟩
  cases a with
  | advance picks =>
    intro r hr _ _ hu
    simp only [hr, Bool.and_eq_true, Bool.not_eq_true', List.isEmpty_iff,
      Option.isNone_iff_eq_none] at h
    obtain ⟨-, ⟨⟨htrue, hfalse⟩, hpending⟩, hhandling⟩ := h
    rcases hu with ⟨p, hp⟩ | hu | ⟨k, hk⟩
    · cases p <;> simp_all
    · exact hu hpending
    · simp [Firing, hhandling] at hk
  | wakeElsewhere | enqueue => simp at h
  | _ => trivial

theorem wokenBySend_succeeds : ∃ s r, run Mpsc.step (Mpsc.init 0) wokenBySend = some s ∧
    (r, [(true, 5)]) ∈ s.returned ∧ r.timed = false ∧ UntimedSucceeds s :=
  ⟨_, ⟨0, .single, false, false, [], true⟩, rfl, by decide, rfl,
    @untimed_receive_succeeds Bool Nat _ _ _ 0 (Reaches.start.of_run publishCheck
      publishesQuietly_of_check wokenBySend rfl)⟩

/-- The producer stops before `consumeWake`. Its value is received, the next receive registers
itself, and the producer wakes it although the channel is empty. -/
def wokenForNothing : List (MpscAction Bool Nat) :=
  [.send true [1], .produce true true, .recv .single false, .advance [], .advance [true],
    .advance [], .recv .single false, .advance [], .advance [], .advance [], .advance [],
    .produce true true, .produce true true, .schedule (.producer true 1), .pop (.producer true 1),
    .resume, .advance [], .advance []]

theorem untimed_receive_can_fail : ¬∀ (prefetchLimit : Nat) (s : Mpsc Bool Nat),
    Reaches Mpsc.step (fun _ _ => True) (Mpsc.init prefetchLimit) s → UntimedSucceeds s := by
  intro h
  exact (h 0 _ (Reaches.start.of_replay wokenForNothing rfl)).1
    ⟨1, .single, false, false, [], true⟩ [] (by decide) rfl nofun rfl

/-- A producer holds the task that receive `i` had registered, or its wake-up is under way. -/
def Holding (s : Mpsc ι α) (i : Nat) : Prop :=
  ∃ p, s.producers p = .wakeUp i ∨ .producer p i ∈ s.wake.pending

/-- When a receive registers itself, no entry that was made without `m_queued` is left over, and none
is made before the consumer is resumed. The registration is taken before that, and the consumer is
not resumed while a producer is between taking the registration and `wakeUp`. -/
def TakesInTime (s : Mpsc ι α) : MpscAction ι α → Prop
  | .advance _ => ∀ r, s.consumer = .receiving r .publish → s.wake.Flagged
  | .enqueue => ∀ r stage, s.consumer = .receiving r stage → ¬Published stage
  | .produce p _ => s.producers p = .consumeWake → s.channel.waiter ≠ none →
      ∀ r stage, s.consumer = .receiving r stage → Published stage
  | .resume => ∀ r timer, s.consumer = .receiving r (.suspended timer) →
      ∀ p i, s.producers p ≠ .wakeUp i
  | _ => True

/-- A wake-up belongs to the current receive, which has not been resumed. -/
structure HoldOk (s : Mpsc ι α) : Prop where
  held : ∀ i, Holding s i →
    ∃ r stage, s.consumer = .receiving r stage ∧ r.number = i ∧ Published stage
  issued : ∀ p i, .producer p i ∈ s.wake.pending → i ∈ s.issued

section HoldOk

omit [DecidableEq ι]

lemma HoldOk.not_holding (h : HoldOk s)
    (hc : ∀ r stage, s.consumer = .receiving r stage → ¬Published stage) (i : Nat) :
    ¬Holding s i := by
  intro hi
  obtain ⟨r, stage, hr, -, hpublished⟩ := h.held i hi
  exact hc r stage hr hpublished

lemma Holding.woken (h : HoldOk s) (hi : Holding s i) : WokenUp s i := by
  obtain ⟨p, hp | hp⟩ := hi
  · exact .inl ⟨p, hp⟩
  · exact .inr (h.issued p i hp)

lemma HoldOk.keep (h : HoldOk s) (hc : s'.consumer = s.consumer)
    (hholding : ∀ i, Holding s' i → Holding s i)
    (hissued : ∀ p i, .producer p i ∈ s'.wake.pending → i ∈ s'.issued) : HoldOk s' :=
  ⟨fun i hi => hc ▸ h.held i (hholding i hi), hissued⟩

lemma HoldOk.wake (h : HoldOk s) (hc : s'.consumer = s.consumer)
    (hproducers : s'.producers = s.producers) (hissued : s'.issued = s.issued)
    (hpending : ∀ p i, .producer p i ∈ s'.wake.pending → .producer p i ∈ s.wake.pending) :
    HoldOk s' := by
  refine h.keep hc ?_ (fun p i hi => hissued ▸ h.issued p i (hpending p i hi))
  rintro i ⟨p, hp⟩
  exact ⟨p, hproducers ▸ hp.imp_right (hpending p i)⟩

lemma HoldOk.leave (h : HoldOk s) (hnone : ∀ i, ¬Holding s i)
    (hproducers : s'.producers = s.producers) (hwake : s'.wake = s.wake)
    (hissued : s'.issued = s.issued) : HoldOk s' := by
  refine ⟨fun i hi => absurd ?_ (hnone i), ?_⟩
  · simpa only [Holding, hproducers, hwake] using hi
  · rw [hwake, hissued]
    exact h.issued

lemma HoldOk.advance (h : HoldOk s) (hc : s.consumer = .receiving r stage)
    (hc' : s'.consumer = .receiving r' stage') (hnumber : r'.number = r.number)
    (hpublished : Published stage') (hproducers : s'.producers = s.producers)
    (hwake : s'.wake = s.wake) (hissued : s'.issued = s.issued) : HoldOk s' := by
  refine ⟨fun i hi => ?_, ?_⟩
  · obtain ⟨r₁, stage₁, hr₁, rfl, -⟩ :=
      h.held i (by simpa only [Holding, hproducers, hwake] using hi)
    rw [hc] at hr₁
    cases hr₁
    exact ⟨r', stage', hc', hnumber, hpublished⟩
  · rw [hwake, hissued]
    exact h.issued

lemma HoldOk.resume (hwake : ∀ p i, .producer p i ∉ s'.wake.pending)
    (hproducers : ∀ p i, s'.producers p ≠ .wakeUp i) : HoldOk s' := by
  refine ⟨fun i hi => ?_, fun p i hi => absurd hi (hwake p i)⟩
  obtain ⟨p, hp | hp⟩ := hi
  · exact absurd hp (hproducers p i)
  · exact absurd hp (hwake p i)

end HoldOk

lemma HoldOk.producer {p : ι} {point : MpscProducer α} (h : HoldOk s)
    (hproducers : s'.producers = Function.update s.producers p point)
    (hpoint : ∀ i, point ≠ .wakeUp i) (hc : s'.consumer = s.consumer) (hwake : s'.wake = s.wake)
    (hissued : s'.issued = s.issued) : HoldOk s' := by
  refine h.keep hc ?_ (by rw [hwake, hissued]; exact h.issued)
  rintro i ⟨q, hq | hq⟩
  · rw [hproducers] at hq
    rcases Threads.eq_of_update hq with ⟨-, hq⟩ | ⟨-, hq⟩
    · exact absurd hq (hpoint i)
    · exact ⟨q, .inl hq⟩
  · exact ⟨q, .inr (hwake ▸ hq)⟩

/-- As long as the registration can be taken, the wake-ups of the consumer go through `m_queued`. -/
def FlaggedOk (s : Mpsc ι α) : Prop :=
  ∀ r stage, s.consumer = .receiving r stage → Published stage → s.wake.Flagged

theorem flaggedOk_move (hok : TakesInTime s a) (h : FlaggedOk s) (hm : MpscMove s a s') :
    FlaggedOk s' := by
  cases hm with
  | sendNothing | send | enqueue | reject | undo | seesWaiter | seesNone | consumeWake | consumeNone
  | expire => exact h
  | wakeUp | wakeElsewhere => exact fun r stage hr hp => (h r stage hr hp).request _
  | direct => exact fun r stage hr hp => absurd hp (hok r stage hr)
  | tryRecv | callGoesOn | callReturns | foundEarly | clearAndReturn | tryReturns | awaitElsewhere
  | resumeElsewhere => exact nofun
  | recv | notReady | stillEmpty | withdraw | timedOut | inTime | cancel | clearAndTry | resumeTimed
  | resumeUntimed =>
    rintro _ _ ⟨⟩ ⟨⟩
  | publish hc => exact fun _ _ _ _ => hok _ hc
  | @tryGoesOn r _ place _ _ _ hc =>
    rintro _ _ ⟨⟩ hp
    cases place with
    | recheck => exact h _ _ hc trivial
    | ready | suspend | resume => cases hp
  | recheckEmpty hc | recheckFound _ hc | tooLate hc | addTimer hc =>
    exact fun _ _ _ _ => h _ _ hc trivial
  | schedule hwake => exact fun r stage hr hp => (h r stage hr hp).schedule hwake
  | pop _ hwake => exact fun r stage hr hp => (h r stage hr hp).pop hwake
  | handle ht => exact fun r stage hr hp => flagged_handle ht (h r stage hr hp)

theorem holdOk_move (hreg : RegOk s) (hflagged : FlaggedOk s) (hok : TakesInTime s a) (h : HoldOk s)
    (hm : MpscMove s a s') : HoldOk s' := by
  cases hm with
  | sendNothing => exact h
  | send | reject | undo | seesWaiter | seesNone | consumeNone =>
    exact h.producer rfl (fun _ => nofun) rfl rfl rfl
  | enqueue => exact h.producer rfl (fun i => by split <;> nofun) rfl rfl rfl
  | @consumeWake p receive _ hp hwaiter =>
    refine ⟨fun i hi => ?_, h.issued⟩
    obtain ⟨q, hq | hq⟩ := hi
    · rcases Threads.eq_of_update hq with ⟨-, hq⟩ | ⟨-, hq⟩
      · cases hq
        obtain ⟨r, stage, hr, hnumber, -⟩ := hreg.waiter receive hwaiter
        exact ⟨r, stage, hr, hnumber, hok hp (by simp [hwaiter]) r stage hr⟩
      · exact h.held i ⟨q, .inl hq⟩
    · exact h.held i ⟨q, .inr hq⟩
  | @wakeUp p receive _ hp =>
    have hpending : ∀ q i,
        .producer q i ∈ (s.wake.requestTaskResume (.producer p receive)).pending →
        .producer q i ∈ s.wake.pending ∨ q = p ∧ i = receive := by
      intro q i hi
      simpa using TaskWake.mem_pending_request hi
    refine h.keep rfl ?_ (fun q i hi => ?_)
    · rintro i ⟨q, hq | hq⟩
      · rcases Threads.eq_of_update hq with ⟨-, hq⟩ | ⟨-, hq⟩
        · cases hq
        · exact ⟨q, .inl hq⟩
      · rcases hpending q i hq with hq | ⟨rfl, rfl⟩
        · exact ⟨q, .inr hq⟩
        · exact ⟨q, .inl hp⟩
    · rcases hpending q i hi with hi | ⟨-, rfl⟩
      · exact List.mem_append_left _ (h.issued q i hi)
      · exact List.mem_append_right _ (List.mem_singleton_self _)
  | tryRecv hc | callGoesOn hc | callReturns hc | recv hc | awaitElsewhere hc =>
    exact h.leave (h.not_holding (by simp [hc])) rfl rfl rfl
  | notReady hc | stillEmpty hc | publish hc | timedOut hc | inTime hc | cancel hc | clearAndTry hc
  | clearAndReturn hc | tryReturns hc =>
    exact h.leave (h.not_holding (by simp [hc, Published])) rfl rfl rfl
  | foundEarly hplace _ hc =>
    refine h.leave (h.not_holding ?_) rfl rfl rfl
    rcases hplace with rfl | rfl <;> simp [hc, Published]
  | @tryGoesOn r _ place _ _ _ hc =>
    cases place with
    | recheck => exact h.advance hc rfl rfl trivial rfl rfl rfl
    | ready | suspend | resume =>
      exact h.leave (h.not_holding (by simp [hc, Published])) rfl rfl rfl
  | recheckFound _ hc | addTimer hc => exact h.advance hc rfl rfl trivial rfl rfl rfl
  | @recheckEmpty r _ _ _ hc | @tooLate r _ hc =>
    refine h.advance hc rfl rfl ?_ rfl rfl rfl
    cases r.timed <;> trivial
  | withdraw hc hwaiter =>
    obtain ⟨i, hi⟩ := Option.ne_none_iff_exists'.mp hwaiter
    obtain ⟨-, hnot, -⟩ := hreg.registered hc hi
    refine h.leave (fun j hj => ?_) rfl rfl rfl
    obtain ⟨r', stage', hr', rfl, -⟩ := h.held j hj
    rw [hc] at hr'
    cases hr'
    exact hnot (hj.woken h)
  | resumeTimed hc hwake | resumeUntimed hc hwake =>
    have hnil := (hflagged _ _ hc trivial).pending_resume hwake
    exact .resume (by simp [hnil]) (hok _ _ hc)
  | resumeElsewhere hc hwake =>
    have hnone := h.not_holding (by simp [hc])
    exact .resume (fun p i hi => hnone i ⟨p, .inr (TaskWake.mem_of_mem_resume hwake hi)⟩)
      (fun p i hp => hnone i ⟨p, .inl hp⟩)
  | wakeElsewhere =>
    exact h.wake rfl rfl rfl (fun _ _ hi => by simpa using TaskWake.mem_pending_request hi)
  | direct =>
    exact h.wake rfl rfl rfl (fun _ _ hi => by simpa using TaskWake.mem_pending_enqueue hi)
  | schedule hwake =>
    exact h.wake rfl rfl rfl (fun _ _ hi => (TaskWake.perm_schedule hwake).mem_iff.mp hi)
  | pop _ hwake => exact h.wake rfl rfl rfl (fun _ _ hi => (TaskWake.perm_pop hwake).mem_iff.mp hi)
  | expire => exact h.wake rfl rfl rfl (fun _ _ hi => hi)
  | handle ht =>
    exact h.wake rfl rfl rfl (fun q i hi => by simpa using mem_pending_handle ht hi)

/-- No producer holds the task of a receive that has returned, and none is going to resume the
consumer in another await. -/
def NoStaleWake (s : Mpsc ι α) : Prop :=
  (∀ r vs, (r, vs) ∈ s.returned → ¬Holding s r.number) ∧
  (s.consumer = .elsewhere → ∀ i, ¬Holding s i)

theorem timed_receive_leaves_no_wakeup (prefetchLimit : Nat)
    (h : Reaches Mpsc.step TakesInTime (Mpsc.init prefetchLimit) s) : NoStaleWake s := by
  have hinit : ∀ i, ¬Holding (Mpsc.init prefetchLimit : Mpsc ι α) i := by
    rintro i ⟨p, hp | hp⟩ <;> cases hp
  have hinv := mpsc_invariant (P := fun s => RegOk s ∧ FlaggedOk s ∧ HoldOk s)
    ⟨regOk_init prefetchLimit, nofun, fun i hi => absurd hi (hinit i), nofun⟩ ?_ h
  · obtain ⟨-, hreg, -, hhold⟩ := hinv
    refine ⟨fun r vs hr hi => ?_, fun hc => hhold.not_holding (by simp [hc])⟩
    obtain ⟨r', stage, hr', hnumber, -⟩ := hhold.held _ hi
    exact (hreg.returned r vs hr).2 r' stage hr' hnumber.symm
  · rintro s a s' hpos ⟨hreg, hflagged, hhold⟩ hok hm
    exact ⟨regOk_move hpos hreg hm, flaggedOk_move hok hflagged hm,
      holdOk_move hreg hflagged hok hhold hm⟩

/-- A receive with a timeout is woken in time; then the consumer awaits something else. -/
def wokenInTime : List (MpscAction Bool Nat) :=
  [.recv .single true, .advance [], .advance [], .advance [], .advance [], .advance [],
    .send true [1], .produce true true, .produce true true, .produce true true,
    .schedule (.producer true 0), .pop (.producer true 0), .resume, .advance [], .advance [],
    .advance [], .advance [], .advance [true], .advance [], .awaitElsewhere]

def takeCheck (s : Mpsc Bool Nat) : MpscAction Bool Nat → Bool
  | .advance _ => s.wake.Flagged
  | .enqueue => false
  | .produce _ _ => s.isSuspended
  | .resume => s.producers true = .idle && s.producers false = .idle
  | _ => true

lemma takesInTime_of_check (s : Mpsc Bool Nat) (a : MpscAction Bool Nat)
    (h : takeCheck s a = true) : TakesInTime s a := by
  cases a with
  | advance picks => exact fun _ _ => of_decide_eq_true h
  | enqueue => cases h
  | produce p accepted =>
    intro _ _ r stage hr
    simp only [takeCheck, isSuspended, hr] at h
    cases stage <;> simp_all [Published]
  | resume =>
    simp only [takeCheck, Bool.and_eq_true, decide_eq_true_eq] at h
    intro r timer _ p i hp
    cases p <;> simp_all
  | _ => trivial

theorem wokenInTime_leaves_no_wakeup : ∃ s, run Mpsc.step (Mpsc.init 0) wokenInTime = some s ∧
    s.received = [(true, 1)] ∧ s.consumer = .elsewhere ∧ NoStaleWake s :=
  ⟨_, rfl, rfl, rfl, @timed_receive_leaves_no_wakeup Bool Nat _ _ 0 (Reaches.start.of_run takeCheck
    takesInTime_of_check wokenInTime rfl)⟩

/-- The producer has taken the registration when the timer resumes the consumer. The receive
returns the value, the consumer awaits something else, and the producer queues it. -/
def wokenTooLate : List (MpscAction Bool Nat) :=
  [.recv .single true, .advance [], .advance [], .advance [], .advance [], .advance [],
    .send true [1], .produce true true, .produce true true, .expire 0, .handle, .handle, .handle,
    .handle, .schedule (.timer 0), .pop (.timer 0), .resume, .advance [], .advance [], .advance [],
    .advance [true], .advance [], .awaitElsewhere, .produce true true,
    .schedule (.producer true 0)]

theorem timed_receive_can_leave_wakeup : ¬∀ (prefetchLimit : Nat) (s : Mpsc Bool Nat),
    Reaches Mpsc.step (fun _ _ => True) (Mpsc.init prefetchLimit) s → NoStaleWake s := by
  intro h
  exact (h 0 _ (Reaches.start.of_replay wokenTooLate rfl)).2 rfl 0 ⟨true, .inr (by decide)⟩

end GalayKernel.Proofs
