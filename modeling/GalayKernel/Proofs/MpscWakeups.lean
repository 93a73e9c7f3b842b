import GalayKernel.Lib.Threads
import GalayKernel.Proofs.MpscDelivery

namespace GalayKernel.Proofs
open Mpsc Transition

variable {ι α : Type} {s s' : Mpsc ι α} {a : MpscAction ι α} {r r' : MpscReceive (ι × α)}
  {stage stage' : RecvStage (ι × α)} {i : Nat}

def WokenUp (s : Mpsc ι α) (i : Nat) : Prop := (∃ p, s.producers p = .wakeUp i) ∨ i ∈ s.issued

/-- The receive has suspended, or its `await_suspend` may still find that it has been woken. -/
def InSuspend (r : MpscReceive (ι × α)) (stage : RecvStage (ι × α)) : Prop :=
  r.suspended = true ∨ (∃ point, stage = .trying .recheck point) ∨ stage = .withdraw

structure RegOk (s : Mpsc ι α) : Prop where
  current : ∀ r stage, s.consumer = .receiving r stage → r.number + 1 = s.receives
  waiter : ∀ i, s.channel.waiter = some i →
    ∃ r stage, s.consumer = .receiving r stage ∧ r.number = i ∧ r.registered = true ∧
      (stage = .clear → r.suspended = true)
  returned : ∀ r vs, (r, vs) ∈ s.returned → r.number < s.receives ∧
    ∀ r' stage, s.consumer = .receiving r' stage → r.number ≠ r'.number
  woken : ∀ i, WokenUp s i → i < s.receives ∧ s.channel.waiter ≠ some i
  wokenCurrent : ∀ r stage, s.consumer = .receiving r stage → WokenUp s r.number → InSuspend r stage
  wokenReturned : ∀ r vs, (r, vs) ∈ s.returned → WokenUp s r.number → r.suspended = true

namespace RegOk

lemma registered (h : RegOk s) (hc : s.consumer = .receiving r stage)
    (hwaiter : s.channel.waiter = some i) :
    i = r.number ∧ ¬WokenUp s r.number ∧ r.registered = true ∧
      (stage = .clear → r.suspended = true) := by
  obtain ⟨r', stage', hr', rfl, hregistered, hclear⟩ := h.waiter i hwaiter
  rw [hc] at hr'
  cases hr'
  exact ⟨rfl, fun hwoken => (h.woken _ hwoken).2 hwaiter, hregistered, hclear⟩

lemma waiter_eq_none (h : RegOk s)
    (hc : ∀ r stage, s.consumer = .receiving r stage → r.registered = false) :
    s.channel.waiter = none := by
  cases hwaiter : s.channel.waiter with
  | none => rfl
  | some i =>
    obtain ⟨r, stage, hr, -, hregistered, -⟩ := h.waiter i hwaiter
    exact absurd ((hc r stage hr).symm.trans hregistered) nofun

lemma not_woken (h : RegOk s) (hc : s.consumer = .receiving r stage)
    (hsuspended : r.suspended = false) (hrecheck : ∀ point, stage ≠ .trying .recheck point)
    (hwithdraw : stage ≠ .withdraw) : ¬WokenUp s r.number := by
  intro hwoken
  rcases h.wokenCurrent r stage hc hwoken with hs | ⟨point, hs⟩ | hs
  · rw [hsuspended] at hs
    cases hs
  · exact hrecheck point hs
  · exact hwithdraw hs

lemma suspended_of_clear (h : RegOk s) (hc : s.consumer = .receiving r .clear)
    (hwoken : WokenUp s r.number) : r.suspended = true := by
  rcases h.wokenCurrent r _ hc hwoken with hs | ⟨point, hs⟩ | hs
  · exact hs
  · cases hs
  · cases hs

lemma keep (h : RegOk s)
    (hc : ∀ r stage, s'.consumer = .receiving r stage ↔ s.consumer = .receiving r stage)
    (hwaiter : s'.channel.waiter = s.channel.waiter) (hreceives : s'.receives = s.receives)
    (hreturned : s'.returned = s.returned) (hwoken : ∀ i, WokenUp s' i → WokenUp s i) :
    RegOk s' where
  current r stage hr := by
    rw [hreceives]
    exact h.current r stage ((hc r stage).mp hr)
  waiter i hi := by
    obtain ⟨r, stage, hr, hrest⟩ := h.waiter i (hwaiter ▸ hi)
    exact ⟨r, stage, (hc r stage).mpr hr, hrest⟩
  returned r vs hr := by
    obtain ⟨hlt, hne⟩ := h.returned r vs (hreturned ▸ hr)
    rw [hreceives]
    exact ⟨hlt, fun r' stage hr' => hne r' stage ((hc r' stage).mp hr')⟩
  woken i hi := by
    rw [hreceives, hwaiter]
    exact h.woken i (hwoken i hi)
  wokenCurrent r stage hr hi := h.wokenCurrent r stage ((hc r stage).mp hr) (hwoken _ hi)
  wokenReturned r vs hr hi := h.wokenReturned r vs (hreturned ▸ hr) (hwoken _ hi)

lemma advance (h : RegOk s) (hc : s.consumer = .receiving r stage)
    (hc' : s'.consumer = .receiving r' stage') (hnumber : r'.number = r.number)
    (hreceives : s'.receives = s.receives) (hreturned : s'.returned = s.returned)
    (hwoken : ∀ i, WokenUp s' i → WokenUp s i)
    (hwaiter : ∀ i, s'.channel.waiter = some i → i = r.number ∧ ¬WokenUp s r.number ∧
      r'.registered = true ∧ (stage' = .clear → r'.suspended = true))
    (hsuspend : WokenUp s r.number → InSuspend r' stage') : RegOk s' where
  current r'' stage'' hr := by
    rw [hc'] at hr
    cases hr
    rw [hnumber, hreceives]
    exact h.current r stage hc
  waiter i hi := by
    obtain ⟨rfl, -, hregistered, hclear⟩ := hwaiter i hi
    exact ⟨r', stage', hc', hnumber, hregistered, hclear⟩
  returned r'' vs hr := by
    obtain ⟨hlt, hne⟩ := h.returned r'' vs (hreturned ▸ hr)
    rw [hreceives]
    refine ⟨hlt, fun r₁ stage₁ hr₁ => ?_⟩
    rw [hc'] at hr₁
    cases hr₁
    rw [hnumber]
    exact hne r stage hc
  woken i hi := by
    rw [hreceives]
    refine ⟨(h.woken i (hwoken i hi)).1, fun hw => ?_⟩
    obtain ⟨rfl, hnot, -⟩ := hwaiter i hw
    exact hnot (hwoken _ hi)
  wokenCurrent r'' stage'' hr hi := by
    rw [hc'] at hr
    cases hr
    exact hsuspend (hnumber ▸ hwoken _ hi)
  wokenReturned r'' vs hr hi := h.wokenReturned r'' vs (hreturned ▸ hr) (hwoken _ hi)

lemma finish {vs : List (ι × α)} (h : RegOk s) (hc : s.consumer = .receiving r stage)
    (hc' : s'.consumer = .running) (hreceives : s'.receives = s.receives)
    (hreturned : s'.returned = s.returned ++ [(r', vs)]) (hnumber : r'.number = r.number)
    (hwoken : ∀ i, WokenUp s' i → WokenUp s i) (hwaiter : s'.channel.waiter = none)
    (hsuspend : WokenUp s r.number → r'.suspended = true) : RegOk s' where
  current r'' stage'' hr := by
    rw [hc'] at hr
    cases hr
  waiter i hi := by
    rw [hwaiter] at hi
    cases hi
  returned r'' vs' hr := by
    rw [hreceives]
    refine ⟨?_, fun r₁ stage₁ hr₁ => by rw [hc'] at hr₁; cases hr₁⟩
    rw [hreturned, List.mem_append, List.mem_singleton, Prod.mk.injEq] at hr
    rcases hr with hr | ⟨rfl, -⟩
    · exact (h.returned r'' vs' hr).1
    · rw [hnumber, ← h.current r stage hc]
      exact Nat.lt_succ_self _
  woken i hi := by
    rw [hreceives, hwaiter]
    exact ⟨(h.woken i (hwoken i hi)).1, nofun⟩
  wokenCurrent r'' stage'' hr := by
    rw [hc'] at hr
    cases hr
  wokenReturned r'' vs' hr hi := by
    rw [hreturned, List.mem_append, List.mem_singleton, Prod.mk.injEq] at hr
    rcases hr with hr | ⟨rfl, -⟩
    · exact h.wokenReturned r'' vs' hr (hwoken _ hi)
    · exact hsuspend (hnumber ▸ hwoken _ hi)

lemma begin (h : RegOk s) (hc : s.consumer = .running) (r : MpscReceive (ι × α))
    (stage : RecvStage (ι × α)) (hnumber : r.number = s.receives) :
    RegOk { s with receives := s.receives + 1, consumer := .receiving r stage } := by
  have hwoken : ∀ i,
      WokenUp { s with receives := s.receives + 1, consumer := .receiving r stage } i →
      WokenUp s i := fun _ hi => hi
  have hwaiter : s.channel.waiter = none := h.waiter_eq_none (by simp [hc])
  refine ⟨fun r' stage' hr => ?_, fun i hi => ?_, fun r' vs hr => ?_, fun i hi => ?_,
    fun r' stage' hr hi => ?_, h.wokenReturned⟩
  · cases hr
    rw [hnumber]
  · rw [hwaiter] at hi
    cases hi
  · have hlt := (h.returned r' vs hr).1
    refine ⟨Nat.lt_succ_of_lt hlt, fun r₁ stage₁ hr₁ => ?_⟩
    cases hr₁
    rw [hnumber]
    exact Nat.ne_of_lt hlt
  · obtain ⟨hlt, hne⟩ := h.woken i (hwoken i hi)
    exact ⟨Nat.lt_succ_of_lt hlt, hne⟩
  · cases hr
    rw [hnumber] at hi
    exact absurd (h.woken _ (hwoken _ hi)).1 (Nat.lt_irrefl _)

lemma suspends (h : RegOk s) (hc : s.consumer = .receiving r stage)
    (hregistered : r.registered = true) {c : MpscChannel ι α}
    (hwaiter : c.waiter = s.channel.waiter) :
    RegOk (({ s with channel := c } : Mpsc ι α).suspends r) := by
  refine h.advance hc rfl rfl rfl rfl (fun _ hi => hi) (fun i hi => ?_) (fun _ => .inl rfl)
  obtain ⟨hnumber, hnot, -⟩ := h.registered hc (hwaiter ▸ hi)
  exact ⟨hnumber, hnot, hregistered, fun _ => rfl⟩

lemma goOn (h : RegOk s) (hc : s.consumer = .receiving r stage)
    (hc' : s'.consumer = .receiving r' stage') (hnumber : r'.number = r.number)
    (hregistered : r'.registered = r.registered) (hsuspended : r'.suspended = r.suspended)
    (hwaiter : s'.channel.waiter = s.channel.waiter) (hreceives : s'.receives = s.receives)
    (hreturned : s'.returned = s.returned) (hwoken : ∀ i, WokenUp s' i → WokenUp s i)
    (hclear : stage' = .clear → r.suspended = true)
    (hin : InSuspend r stage → InSuspend r stage') : RegOk s' := by
  refine h.advance hc hc' hnumber hreceives hreturned hwoken (fun i hi => ?_) (fun hi => ?_)
  · obtain ⟨hi, hnot, hr, -⟩ := h.registered hc (hwaiter ▸ hi)
    exact ⟨hi, hnot, hregistered ▸ hr, hsuspended ▸ hclear⟩
  · have hin' := hin (h.wokenCurrent r stage hc hi)
    simpa only [InSuspend, hsuspended] using hin'

end RegOk

variable [DecidableEq ι]

lemma RegOk.producer {p : ι} {point : MpscProducer α} (h : RegOk s)
    (hproducers : s'.producers = Function.update s.producers p point)
    (hpoint : ∀ i, point ≠ .wakeUp i) (hc : s'.consumer = s.consumer)
    (hwaiter : s'.channel.waiter = s.channel.waiter) (hreceives : s'.receives = s.receives)
    (hissued : s'.issued = s.issued) (hreturned : s'.returned = s.returned) : RegOk s' := by
  refine h.keep (fun _ _ => hc ▸ Iff.rfl) hwaiter hreceives hreturned ?_
  rintro i (⟨q, hq⟩ | hi)
  · rw [hproducers] at hq
    rcases Threads.eq_of_update hq with ⟨-, hq⟩ | ⟨-, hq⟩
    · exact absurd hq (hpoint i)
    · exact .inl ⟨q, hq⟩
  · exact .inr (hissued ▸ hi)

lemma RegOk.consumeWake {p : ι} (hpos : PositionOk s) (h : RegOk s)
    (hwaiter : s.channel.waiter = some i) :
    RegOk ((s.setProducer p (.wakeUp i)).setWaiter none) := by
  obtain ⟨r, stage, hc, rfl, hregistered, hclear⟩ := h.waiter i hwaiter
  have hnew : ∀ j, WokenUp ((s.setProducer p (.wakeUp r.number)).setWaiter none) j →
      WokenUp s j ∨ j = r.number := by
    rintro j (⟨q, hq⟩ | hj)
    · rcases Threads.eq_of_update hq with ⟨-, hq⟩ | ⟨-, hq⟩
      · exact .inr (MpscProducer.wakeUp.inj hq).symm
      · exact .inl (.inl ⟨q, hq⟩)
    · exact .inl (.inr hj)
  refine ⟨h.current, nofun, h.returned, fun j hj => ⟨?_, nofun⟩, fun r' stage' hr' hj => ?_,
    fun r' vs hr' hj => ?_⟩
  · rcases hnew j hj with hj | rfl
    · exact (h.woken j hj).1
    · exact Nat.lt_of_succ_le (Nat.le_of_eq (h.current r stage hc))
  · rw [show s.consumer = _ from hr'] at hc
    cases hc
    have hstage := hpos.stage _ _ hr'
    cases stage with
    | trying place point =>
      cases place with
      | ready | suspend | resume => exact absurd (hstage.1.symm.trans hregistered) nofun
      | recheck => exact .inr (.inl ⟨point, rfl⟩)
    | publish => exact absurd (hstage.1.symm.trans hregistered) nofun
    | withdraw => exact .inr (.inr rfl)
    | addTimer | suspended | checkTimeout | cancel => exact .inl hstage.2.1
    | clear => exact .inl (hclear rfl)
  · rcases hnew _ hj with hj | hj
    · exact h.wokenReturned r' vs hr' hj
    · exact absurd hj ((h.returned r' vs hr').2 r stage hc)

theorem regOk_move (hpos : PositionOk s) (h : RegOk s) (hm : MpscMove s a s') : RegOk s' := by
  cases hm with
  | sendNothing => exact h
  | send | reject | undo | seesWaiter | seesNone | consumeNone =>
    exact h.producer rfl (fun _ => nofun) rfl rfl rfl rfl rfl
  | @enqueue _ _ prevSize =>
    exact h.producer rfl (fun i => by split <;> nofun) rfl rfl rfl rfl rfl
  | consumeWake hp hwaiter => exact h.consumeWake hpos hwaiter
  | @wakeUp p receive _ hp =>
    refine h.keep (fun _ _ => Iff.rfl) rfl rfl rfl ?_
    rintro i (⟨q, hq⟩ | hi)
    · rcases Threads.eq_of_update hq with ⟨-, hq⟩ | ⟨-, hq⟩
      · cases hq
      · exact .inl ⟨q, hq⟩
    · rcases List.mem_append.mp hi with hi | hi
      · exact .inr hi
      · rw [List.mem_singleton] at hi
        exact .inl ⟨p, hi ▸ hp⟩
  | tryRecv hc | awaitElsewhere hc | resumeElsewhere hc =>
    exact h.keep (by simp [hc]) rfl rfl rfl (fun _ hi => hi)
  | callGoesOn hc _ hspec | callReturns hc _ hspec =>
    exact h.keep (by simp [hc]) hspec.waiter rfl rfl (fun _ hi => hi)
  | recv hc => exact h.begin hc _ _ rfl
  | tryGoesOn hc _ hspec =>
    refine h.goOn hc rfl rfl rfl rfl hspec.waiter rfl rfl (fun _ hi => hi) nofun ?_
    rintro (hs | ⟨point, hs⟩ | hs)
    · exact .inl hs
    · cases hs
      exact .inr (.inl ⟨_, rfl⟩)
    · cases hs
  | notReady hc _ hspec | stillEmpty hc _ hspec =>
    refine h.goOn hc rfl rfl rfl rfl hspec.waiter rfl rfl (fun _ hi => hi) nofun ?_
    rintro (hs | ⟨point, hs⟩ | hs)
    · exact .inl hs
    · cases hs
    · cases hs
  | @foundEarly r _ _ place _ _ hplace _ hc _ hspec =>
    have hstage : r.registered = false ∧ r.ready = [] ∧ r.suspended = false := by
      rcases hplace with rfl | rfl <;> exact hpos.stage _ _ hc
    have hnone := h.waiter_eq_none
      (fun r' stage' hr' => by rw [hc] at hr'; cases hr'; exact hstage.1)
    have hnot := h.not_woken hc hstage.2.2 (by rcases hplace with rfl | rfl <;> nofun) nofun
    exact h.finish hc rfl rfl rfl rfl (fun _ hi => hi) (hspec.waiter.trans hnone)
      (fun hi => absurd hi hnot)
  | publish hc =>
    have hstage := hpos.stage _ _ hc
    have hnot := h.not_woken hc hstage.2.2 nofun nofun
    refine h.advance hc rfl rfl rfl rfl (fun _ hi => hi) (fun i hi => ?_) (fun hi => absurd hi hnot)
    exact ⟨(Option.some.inj hi).symm, hnot, rfl, nofun⟩
  | recheckEmpty hc _ hspec => exact h.suspends hc (hpos.stage _ _ hc).1 hspec.waiter
  | tooLate hc => exact h.suspends hc (hpos.stage _ _ hc).1 rfl
  | recheckFound _ hc _ hspec =>
    exact h.goOn hc rfl rfl rfl rfl hspec.waiter rfl rfl (fun _ hi => hi) nofun
      (fun _ => .inr (.inr rfl))
  | withdraw hc hwaiter =>
    obtain ⟨i, hi⟩ := Option.ne_none_iff_exists'.mp hwaiter
    obtain ⟨-, hnot, -⟩ := h.registered hc hi
    exact h.advance hc rfl rfl rfl rfl (fun _ hi => hi) (fun i hi => nomatch hi)
      (fun hi => absurd hi hnot)
  | addTimer hc =>
    exact h.goOn hc rfl rfl rfl rfl rfl rfl rfl (fun _ hi => hi) nofun
      (fun _ => .inl (hpos.stage _ _ hc).2.1)
  | timedOut hc | inTime hc | cancel hc | resumeTimed hc | resumeUntimed hc =>
    exact h.goOn hc rfl rfl rfl rfl rfl rfl rfl (fun _ hi => hi)
      (fun _ => (hpos.stage _ _ hc).2.1) (fun _ => .inl (hpos.stage _ _ hc).2.1)
  | clearAndTry hc =>
    have hsuspended := h.suspended_of_clear hc
    exact h.advance hc rfl rfl rfl rfl (fun _ hi => hi) (fun i hi => nomatch hi)
      (fun hi => .inl (hsuspended hi))
  | clearAndReturn hc =>
    have hsuspended := h.suspended_of_clear hc
    exact h.finish hc rfl rfl rfl rfl (fun _ hi => hi) rfl hsuspended
  | tryReturns hc _ hspec =>
    have hstage := hpos.stage _ _ hc
    have hnone := h.waiter_eq_none
      (fun r' stage' hr' => by rw [hc] at hr'; cases hr'; exact hstage.1)
    exact h.finish hc rfl rfl rfl rfl (fun _ hi => hi) (hspec.waiter.trans hnone)
      (fun _ => hstage.2.2)
  | wakeElsewhere | direct | schedule | pop | expire | handle =>
    exact h.keep (fun _ _ => Iff.rfl) rfl rfl rfl (fun _ hi => hi)

omit [DecidableEq ι] in
lemma regOk_init (prefetchLimit : Nat) : RegOk (Mpsc.init prefetchLimit : Mpsc ι α) := by
  have hnone : ∀ i, ¬WokenUp (Mpsc.init prefetchLimit : Mpsc ι α) i := by
    simp [WokenUp, Mpsc.init]
  have hout := not_receiving_init (ι := ι) (α := α) prefetchLimit
  exact ⟨fun r stage hr => absurd hr (hout r stage), fun i hi => (by cases hi),
    fun r vs hr => (by cases hr), fun i hi => absurd hi (hnone i),
    fun r stage hr => absurd hr (hout r stage), fun r vs hr => (by cases hr)⟩

/-- The consumer is published and has not been resumed. -/
def Published : RecvStage (ι × α) → Prop
  | .trying .recheck _ | .withdraw | .addTimer | .suspended _ => True
  | _ => False

def Asleep : RecvStage (ι × α) → Prop
  | .addTimer | .suspended _ => True
  | _ => False

def Awake (s : Mpsc ι α) : Prop := (∃ p i, s.producers p = .wakeUp i) ∨ s.wake.pending ≠ []

def Looking (s : Mpsc ι α) : Prop :=
  ∃ p, s.producers p = .hasWaiter ∨ s.producers p = .consumeWake

structure SleepOk (s : Mpsc ι α) : Prop where
  taken : ∀ r stage, s.consumer = .receiving r stage → Published stage →
    s.channel.waiter = none → Awake s
  registered : ∀ r stage, s.consumer = .receiving r stage → Asleep stage →
    r.request ≠ .batch 0 → s.channel.waiter ≠ none → s.channel.stored ≠ [] → Looking s

section SleepOk

omit [DecidableEq ι]

lemma SleepOk.keep (h : SleepOk s) (hc : s'.consumer = s.consumer)
    (htaken : s'.channel.waiter = none → Awake s' ∨ s.channel.waiter = none ∧ (Awake s → Awake s'))
    (hregistered : s'.channel.waiter ≠ none → s'.channel.stored ≠ [] → Looking s' ∨
      s.channel.waiter ≠ none ∧ s.channel.stored ≠ [] ∧ (Looking s → Looking s')) :
    SleepOk s' := by
  refine ⟨fun r stage hr hstage hw => ?_, fun r stage hr hstage hrequest hw hstored => ?_⟩
  · rcases htaken hw with ha | ⟨hw, ha⟩
    · exact ha
    · exact ha (h.taken r stage (hc ▸ hr) hstage hw)
  · rcases hregistered hw hstored with hl | ⟨hw, hstored, hl⟩
    · exact hl
    · exact hl (h.registered r stage (hc ▸ hr) hstage hrequest hw hstored)

lemma SleepOk.woken (h : SleepOk s) {wake : TaskWake (MpscWaker ι)} (hpending : wake.pending ≠ []) :
    SleepOk { s with wake := wake } :=
  h.keep rfl (fun _ => .inl (.inr hpending)) (fun hw hstored => .inr ⟨hw, hstored, id⟩)

lemma SleepOk.unpublished (hc : ∀ r stage, s'.consumer = .receiving r stage → ¬Published stage) :
    SleepOk s' := by
  refine ⟨fun r stage hr hstage => absurd hstage (hc r stage hr), fun r stage hr hstage => ?_⟩
  refine absurd ?_ (hc r stage hr)
  cases stage <;> trivial

lemma SleepOk.advance (h : SleepOk s) (hc : s.consumer = .receiving r stage)
    (hpublished : Published stage) (hc' : s'.consumer = .receiving r' stage')
    (hwaiter : s'.channel.waiter = s.channel.waiter) (hproducers : s'.producers = s.producers)
    (hwake : s'.wake = s.wake)
    (hasleep : Asleep stage' → r'.request ≠ .batch 0 → s.channel.waiter ≠ none →
      s'.channel.stored ≠ [] → Looking s) : SleepOk s' := by
  refine ⟨fun r₁ stage₁ hr₁ _ hw => ?_, fun r₁ stage₁ hr₁ hstage hrequest hw hstored => ?_⟩
  · have ha := h.taken r stage hc hpublished (hwaiter ▸ hw)
    simpa only [Awake, hproducers, hwake] using ha
  · rw [hc'] at hr₁
    cases hr₁
    have hl := hasleep hstage hrequest (hwaiter ▸ hw) hstored
    simpa only [Looking, hproducers] using hl

end SleepOk

lemma SleepOk.producer {p : ι} {point : MpscProducer α} (h : SleepOk s)
    (hproducers : s'.producers = Function.update s.producers p point)
    (hc : s'.consumer = s.consumer) (hwaiter : s'.channel.waiter = s.channel.waiter)
    (hwake : s'.wake = s.wake) (hp : ∀ i, s.producers p ≠ .wakeUp i)
    (hlooking : s.channel.waiter ≠ none → s'.channel.stored ≠ [] →
      (point = .hasWaiter ∨ point = .consumeWake) ∨ s.channel.stored ≠ [] ∧
        s.producers p ≠ .hasWaiter ∧ s.producers p ≠ .consumeWake) : SleepOk s' := by
  refine h.keep hc (fun hw => .inr ⟨hwaiter ▸ hw, ?_⟩) (fun hw hstored => ?_)
  · rintro (ha | ha)
    · left
      rw [hproducers]
      exact Threads.exists_update (P := fun x : MpscProducer α => ∃ i, x = .wakeUp i) point
        (fun ⟨i, hi⟩ => hp i hi) ha
    · exact .inr (hwake ▸ ha)
  · rcases hlooking (hwaiter ▸ hw) hstored with hpoint | ⟨hstored, hhas, hconsume⟩
    · exact .inl ⟨p, by simpa [hproducers] using hpoint⟩
    · refine .inr ⟨hwaiter ▸ hw, hstored, fun hl => ?_⟩
      unfold Looking
      rw [hproducers]
      exact Threads.exists_update (P := fun x : MpscProducer α => x = .hasWaiter ∨ x = .consumeWake)
        point (not_or.mpr ⟨hhas, hconsume⟩) hl

theorem sleepOk_move (hpos : PositionOk s) (hzero : s.channel.size = 0 → s.channel.stored = [])
    (h : SleepOk s) (hm : MpscMove s a s') : SleepOk s' := by
  cases hm with
  | sendNothing => exact h
  | send hp | reject hp | undo hp =>
    exact h.producer rfl rfl rfl rfl (by simp [hp]) (fun _ hstored => .inr ⟨hstored, by simp [hp]⟩)
  | enqueue hp =>
    refine h.producer rfl rfl rfl rfl (by simp [hp]) (fun _ _ => .inl ?_)
    split
    · exact .inr rfl
    · exact .inl rfl
  | seesWaiter hp =>
    exact h.producer rfl rfl rfl rfl (by simp [hp]) (fun _ _ => .inl (.inr rfl))
  | seesNone hp hwaiter | consumeNone hp hwaiter =>
    exact h.producer rfl rfl rfl rfl (by simp [hp]) (fun hw => absurd hwaiter hw)
  | @consumeWake p receive _ hp hwaiter =>
    exact h.keep rfl (fun _ => .inl (.inl ⟨p, receive, by simp [setProducer, setWaiter]⟩))
      (fun hw => absurd rfl hw)
  | wakeUp hp =>
    refine h.keep rfl (fun _ => .inl (.inr (TaskWake.pending_request_ne_nil _ _)))
      (fun hw hstored => ?_)
    refine .inr ⟨hw, hstored, fun hl => ?_⟩
    exact Threads.exists_update (P := fun x : MpscProducer α => x = .hasWaiter ∨ x = .consumeWake)
      .idle (by simp [hp]) hl
  | tryRecv | callGoesOn | callReturns | recv | notReady | stillEmpty | foundEarly | withdraw
  | timedOut | inTime | cancel | clearAndTry | clearAndReturn | tryReturns | awaitElsewhere
  | resumeTimed | resumeUntimed | resumeElsewhere =>
    refine .unpublished (fun r stage hr => ?_)
    cases hr <;> exact id
  | @tryGoesOn r _ place _ _ _ hc _ hspec =>
    cases place with
    | recheck => exact h.advance hc trivial rfl hspec.waiter rfl rfl False.elim
    | ready | suspend | resume =>
      refine .unpublished (fun r stage hr => ?_)
      cases hr
      exact id
  | publish hc =>
    refine ⟨fun r stage hr _ hw => (by cases hw), fun r stage hr hstage => ?_⟩
    cases hr
    cases hstage
  | recheckEmpty hc hcall hspec =>
    refine h.advance hc trivial rfl hspec.waiter rfl rfl (fun _ hrequest _ hstored => ?_)
    have hpoint := hpos.point
    rw [hc] at hpoint
    exact absurd (recvStep_nil hrequest hpoint hzero hcall) hstored
  | recheckFound _ hc _ hspec => exact h.advance hc trivial rfl hspec.waiter rfl rfl False.elim
  | tooLate hc hwaiter =>
    exact h.advance hc trivial rfl rfl rfl rfl (fun _ _ hw => absurd hwaiter hw)
  | addTimer hc => exact h.advance hc trivial rfl rfl rfl rfl (fun _ => h.registered _ _ hc trivial)
  | wakeElsewhere => exact h.woken (TaskWake.pending_request_ne_nil _ _)
  | direct => exact h.woken (TaskWake.pending_enqueue_ne_nil _ _)
  | schedule hwake =>
    exact h.keep rfl
      (fun hw => .inr ⟨hw, Or.imp_right (TaskWake.pending_schedule_eq_nil hwake).not.mpr⟩)
      (fun hw hstored => .inr ⟨hw, hstored, id⟩)
  | pop _ hwake =>
    exact h.keep rfl
      (fun hw => .inr ⟨hw, Or.imp_right (TaskWake.pending_pop_eq_nil hwake).not.mpr⟩)
      (fun hw hstored => .inr ⟨hw, hstored, id⟩)
  | expire =>
    exact h.keep rfl (fun hw => .inr ⟨hw, id⟩) (fun hw hstored => .inr ⟨hw, hstored, id⟩)
  | handle ht =>
    exact h.keep rfl (fun hw => .inr ⟨hw, Or.imp_right (pending_handle_ne_nil ht)⟩)
      (fun hw hstored => .inr ⟨hw, hstored, id⟩)

def Bounded [Fintype ι] (s : Mpsc ι α) (a : MpscAction ι α) : Prop :=
  s.undelivered + a.announced < 2 ^ 32

instance [Fintype ι] (s : Mpsc ι α) (a : MpscAction ι α) : Decidable (Bounded s a) :=
  inferInstanceAs (Decidable (_ < _))

lemma stored_eq_nil_of_size [Fintype ι] (h : LoadOk s.load) (hbound : s.undelivered < 2 ^ 32)
    (hzero : s.channel.size = 0) : s.channel.stored = [] := by
  have hsize : s.channel.size = s.load.undelivered % 2 ^ 32 := h.size
  rw [hzero, ← Mpsc.undelivered, Nat.mod_eq_of_lt hbound] at hsize
  have hlen : (s.load.prefetch ++ s.load.queue).length = 0 := by
    simp only [Mpsc.undelivered, MpscLoad.undelivered] at hsize
    omega
  exact List.length_eq_zero_iff.mp hlen

theorem sleepOk_of_reaches [Fintype ι] {ok : Mpsc ι α → MpscAction ι α → Prop} {prefetchLimit : Nat}
    (hok : ∀ s a, ok s a → Bounded s a)
    (h : Reaches Mpsc.step ok (Mpsc.init prefetchLimit) s) :
    PositionOk s ∧ RegOk s ∧ SleepOk s := by
  have hinv := mpsc_invariant (P := fun s => LoadOk s.load ∧ RegOk s ∧ SleepOk s)
    ⟨loadOk_init prefetchLimit, regOk_init prefetchLimit, .unpublished fun r stage hr =>
      absurd hr (not_receiving_init prefetchLimit r stage)⟩ ?_ h
  · exact ⟨hinv.1, hinv.2.2⟩
  · rintro s a s' hpos ⟨hload, hreg, hsleep⟩ ha hm
    have hbound : s.undelivered < 2 ^ 32 := Nat.lt_of_le_of_lt (Nat.le_add_right _ _) (hok s a ha)
    exact ⟨(hload.move (loadMove_of_move hpos hm)).1, regOk_move hpos hreg hm,
      sleepOk_move hpos (stored_eq_nil_of_size hload hbound) hsleep hm⟩

/-- When every send has returned and no wake-up is queued, a consumer that is suspended in a
receive sleeps on an empty channel. A receive that did not suspend is woken by nobody. -/
theorem mpsc_no_lost_wakeup [Fintype ι] (prefetchLimit : Nat)
    (h : Reaches Mpsc.step Bounded (Mpsc.init prefetchLimit) s) :
    (∀ r timer, s.consumer = .receiving r (.suspended timer) → r.request ≠ .batch 0 →
      (∀ p, s.producers p = .idle) → s.wake.pending = [] → s.channel.stored = []) ∧
    (∀ r, r.suspended = false → (s.consumer = .receiving r .clear ∨ ∃ vs, (r, vs) ∈ s.returned) →
      ¬WokenUp s r.number) := by
  obtain ⟨hpos, hreg, hsleep⟩ := sleepOk_of_reaches (fun _ _ => id) h
  refine ⟨fun r timer hc hrequest hidle hpending => ?_, fun r hsuspended hr hwoken => ?_⟩
  · have hwaiter : s.channel.waiter ≠ none := by
      intro hnone
      rcases hsleep.taken r _ hc trivial hnone with ⟨p, i, hp⟩ | hp
      · rw [hidle p] at hp
        cases hp
      · exact hp hpending
    by_contra hstored
    obtain ⟨p, hp⟩ := hsleep.registered r _ hc trivial hrequest hwaiter hstored
    simp [hidle p] at hp
  · rcases hr with hc | ⟨vs, hr⟩
    · exact absurd (hsuspended.symm.trans (hreg.suspended_of_clear hc hwoken)) nofun
    · exact absurd (hsuspended.symm.trans (hreg.wokenReturned r vs hr hwoken)) nofun

/-- One receive finds a value at once; the next one suspends. -/
def receivesTwice : List (MpscAction Bool Nat) :=
  [.send true [7], .produce true true, .produce true true, .recv .single false, .advance [],
    .advance [true], .advance [], .recv (.batch 2) false, .advance [], .advance [], .advance [],
    .advance []]

theorem receivesTwice_sleeps : ∃ s r, run Mpsc.step (Mpsc.init 0) receivesTwice = some s ∧
    (r, [(true, 7)]) ∈ s.returned ∧ ¬WokenUp s r.number ∧ s.channel.stored = [] := by
  refine ⟨_, ⟨0, .single, false, false, [(true, 7)], false⟩, rfl, .head _, ?_⟩
  have h := @mpsc_no_lost_wakeup Bool Nat _ _ _ 0 (Reaches.start.of_run
    (fun s a => decide (Bounded s a)) (fun _ _ => of_decide_eq_true) receivesTwice rfl)
  exact ⟨h.2 _ rfl (.inr ⟨[(true, 7)], .head _⟩), h.1 _ none rfl nofun (Bool.rec rfl rfl) rfl⟩

end GalayKernel.Proofs
