import GalayKernel.Proofs.WheelEarliness
import GalayKernel.TimingWheelTimerManager

namespace GalayKernel.Proofs
open TimerWheel TimingWheelTimerManager Transition

lemma removes_processTimer : Removes TimingWheelTimerManager.processTimer :=
  fun _ _ => .handled (.inl rfl)

lemma processes_processWheel1 : Processes TimingWheelTimerManager.processWheel1 :=
  removes_processTimer.processes

lemma stopAt_succ : StopAt (fun target => target + 1) where
  le _ := Nat.le_succ _
  le_succ _ := Nat.le_refl _
  mono _ _ h := Nat.succ_le_succ h

/-- The number of ticks by which `push` delays a timer, by the clock value `now`. -/
def delayTicks (T now : Nat) (t : Timer) : Nat := (t.expireTime - now + T - 1) % 2 ^ 64 / T

lemma delayTicks_eq {T now : Nat} {t : Timer} (hT : 0 < T) (hx : now < t.expireTime)
    (hwrap : t.expireTime + T ≤ 2 ^ 64) :
    delayTicks T now t = (t.expireTime - now + T - 1) / T := by
  rw [delayTicks, Nat.mod_eq_of_lt (by omega)]

lemma delayTicks_bounds {T now : Nat} {t : Timer} (hT : 0 < T) (hx : now < t.expireTime)
    (hwrap : t.expireTime + T ≤ 2 ^ 64) :
    0 < delayTicks T now t ∧ t.expireTime - now ≤ delayTicks T now t * T ∧
      now + delayTicks T now t * T < t.expireTime + T := by
  rw [delayTicks_eq hT hx hwrap]
  have hpos : 0 < (t.expireTime - now + T - 1) / T := Nat.div_pos (by omega) hT
  have hle := Nat.div_mul_le_self (t.expireTime - now + T - 1) T
  have hlt := Nat.lt_div_mul_add (a := t.expireTime - now + T - 1) hT
  exact ⟨hpos, by omega, by omega⟩

/-- An accepted timer was handled or put into a slot; a rejected one leaves no trace. -/
lemma pushTimer_fate {s s' : TimerWheel} {t : Timer} (hs : rebase s.observe = s')
    (hwrap : t.expireTime + s'.tickDuration ≤ 2 ^ 64) :
    ((pushTimer s t).1 = true ∧
      Fate false s'.now ((s'.now - s'.startTime) / s'.tickDuration)
        (delayTicks s'.tickDuration s'.now t) s'.size (s'.size + 1) s' t (pushTimer s t).2 ∧
      (pushTimer s t).2.discarded = s'.discarded) ∨
    ((pushTimer s t).1 = false ∧ (pushTimer s t).2 = s') := by
  unfold pushTimer
  simp only [hs]
  split
  · refine .inl ⟨rfl, .handled (Nat.lt_of_le_of_lt ‹_› ?_), rfl⟩
    exact Nat.lt_add_of_pos_right s'.tickDuration_pos
  · rename_i hx
    split
    · exact .inr ⟨rfl, rfl⟩
    · rename_i hw
      have hx' := Nat.not_le.mp hx
      exact .inl ⟨rfl, .placed hx' (delayTicks_bounds s'.tickDuration_pos hx' hwrap).1 hw, rfl⟩

/-- The wheels of a manager with tick duration `T` when `push` or `tick()` looks at them. -/
structure Ready (T : Nat) (s : TimerWheel) : Prop where
  tickDuration : s.tickDuration = T
  ok : WheelOk T s
  notAhead : NotAhead (fun target => target + 1) s

lemma Ready.observe {T : Nat} {s : TimerWheel} (h : Ready T s) : Ready T s.observe :=
  ⟨(observe_later s).tickDuration.trans h.tickDuration, observe_ok h.ok,
    h.notAhead.later stopAt_succ (observe_later s)⟩

lemma Ready.rebase {T : Nat} {s : TimerWheel} (h : Ready T s) : Ready T (rebase s) := by
  unfold TimingWheelTimerManager.rebase
  split
  · rename_i hs
    refine ⟨h.tickDuration, ⟨Nat.le_refl _, fun k t ht => ?_, h.ok.range, h.ok.balanced,
      h.ok.skipped⟩, Nat.zero_le _⟩
    change t ∈ s.slots k at ht
    rw [slots_eq_nil h.ok.balanced hs k] at ht
    cases ht
  · exact h

lemma rebase_eq (s : TimerWheel) : content (rebase s) = content s ∧
    (rebase s).discarded = s.discarded := by
  unfold TimingWheelTimerManager.rebase
  split <;> exact ⟨rfl, rfl⟩

lemma Ready.fate {T : Nat} {s s' : TimerWheel} {t : Timer} (h : Ready T s)
    (hf : Fate false s.now ((s.now - s.startTime) / s.tickDuration)
      (delayTicks s.tickDuration s.now t) s.size (s.size + 1) s t s')
    (hwrap : t.expireTime + s.tickDuration ≤ 2 ^ 64) : Ready T s' := by
  have hl := hf.later
  refine ⟨hl.tickDuration.trans h.tickDuration, hf.wheelOk h.ok h.notAhead (fun hx => ?_),
    h.notAhead.later stopAt_succ hl⟩
  obtain ⟨-, hup, hdown⟩ := delayTicks_bounds s.tickDuration_pos hx hwrap
  refine ⟨Nat.div_le_of_le_mul (by rwa [Nat.mul_comm]), ?_⟩
  have hdiv := Nat.div_mul_le_self (s.now - s.startTime) s.tickDuration
  have hstart := h.ok.start
  rw [Nat.add_mul, ← h.tickDuration]
  omega

/-- The manager between two calls: the accepted timers are stored or were removed, and none of
them was dropped. -/
structure ManagerOk (T : Nat) (s : TimingWheelTimerManager) : Prop where
  ready : Ready T s.toTimerWheel
  content : content s.toTimerWheel = s.accepted
  discarded : s.discarded = []

/-- Times stay below the 64-bit range. -/
def Below64 (s : TimingWheelTimerManager) : ManagerAction → Prop
  | .push (some timer) events =>
    ((s.await events).getExpireTime timer).1.expireTime + s.tickDuration ≤ 2 ^ 64
  | _ => True

lemma managerOk_init (T : Nat) (hT : 0 < T) (now : Nat) : ManagerOk T (init T hT now) where
  ready := ⟨rfl, wheelOk_init T T hT now, Nat.zero_le _⟩
  content := content_init T hT now
  discarded := rfl

lemma ManagerOk.await {T : Nat} {s : TimingWheelTimerManager} (h : ManagerOk T s)
    (events : List Event) : ManagerOk T (s.await events) := by
  obtain ⟨⟨hT, hok, hpos⟩, hcontent, hd⟩ := h
  exact ⟨⟨hT, hok.upcoming events, hpos⟩, hcontent, hd⟩

lemma getExpireTime_ok {T : Nat} {s : TimerWheel} (h : Ready T s) (t : Timer) :
    Ready T (s.getExpireTime t).2 ∧ content (s.getExpireTime t).2 = content s ∧
      (s.getExpireTime t).2.discarded = s.discarded := by
  rcases getExpireTime_cases s t with heq | heq
  · rw [heq]
    exact ⟨h, rfl, rfl⟩
  · rw [heq]
    exact ⟨h.observe, content_observe s, (observe_eq s).2.2.2.2.1⟩

lemma managerOk_push {T : Nat} {s : TimingWheelTimerManager} {t : Timer} (h : ManagerOk T s)
    (hwrap : (s.getExpireTime t).1.expireTime + s.tickDuration ≤ 2 ^ 64) :
    ManagerOk T (s.push (some t)) := by
  obtain ⟨hready, hcontent, hdisc⟩ := getExpireTime_ok h.ready t
  obtain ⟨hcontent', hdisc'⟩ := rebase_eq (s.getExpireTime t).2.observe
  have hbase := hready.observe.rebase
  rw [h.ready.tickDuration, ← hbase.tickDuration] at hwrap
  have hc : content (rebase (s.getExpireTime t).2.observe) = s.accepted := by
    rw [hcontent', content_observe, hcontent, h.content]
  have hd : (rebase (s.getExpireTime t).2.observe).discarded = [] := by
    rw [hdisc', (observe_eq _).2.2.2.2.1, hdisc, h.discarded]
  unfold TimingWheelTimerManager.push
  simp only
  rcases pushTimer_fate rfl hwrap with ⟨hok, hf, hdisc''⟩ | ⟨hok, heq⟩
  · rw [hok]
    refine ⟨hbase.fate hf hwrap, ?_, hdisc''.trans hd⟩
    rw [hf.content_eq, hc]
    exact Multiset.coe_add _ _
  · rw [hok]
    simp only [heq]
    exact ⟨hbase, hc, hd⟩

lemma managerOk_tick {T : Nat} {s : TimingWheelTimerManager} (h : ManagerOk T s) :
    ManagerOk T s.tick := by
  have hT : 0 < T := h.ready.tickDuration ▸ s.tickDuration_pos
  have ht := tickWheel_ticked processes_processWheel1 stopAt_succ hT h.ready.ok h.ready.notAhead
  exact ⟨⟨ht.tickDuration.trans h.ready.tickDuration, ht.ok, ht.notAhead⟩,
    ht.content.trans h.content, ht.discarded.trans h.discarded⟩

lemma managerOk_of_reaches {T : Nat} {hT : 0 < T} {start : Nat} {s : TimingWheelTimerManager}
    (h : Reaches step Below64 (init T hT start) s) : ManagerOk T s := by
  refine h.invariant (P := ManagerOk T) (managerOk_init T hT start) ?_
  rintro s a s' hok ha hs
  cases a with
  | push timer events =>
    cases hs
    cases timer with
    | none => exact hok.await events
    | some timer => exact managerOk_push (hok.await events) ha
  | tick events =>
    cases hs
    exact managerOk_tick (hok.await events)

/-- When `tick()` returns, every accepted timer whose expire time was two ticks ago has been
handled, or was dropped after it was cancelled. -/
theorem timing_wheel_never_late {T : Nat} {hT : 0 < T} {start : Nat}
    {s s' : TimingWheelTimerManager} (h : Reaches step Below64 (init T hT start) s)
    {events : List Event} (hs : s.step (.tick events) = some s') {t : Timer}
    (ht : t ∈ s'.accepted) (hx : t.expireTime + 2 * T ≤ s.tickNow events) :
    t ∉ s'.stored ∧ ((∃ e ∈ s'.handled, e.1.id = t.id) ∨ t ∈ s'.skipped ∧ t.id ∈ s'.cancelled) := by
  have hok := (managerOk_of_reaches h).await events
  have hok' := managerOk_tick hok
  have hticked := tickWheel_ticked processes_processWheel1 stopAt_succ hT hok.ready.ok
    hok.ready.notAhead
  obtain rfl : (s.await events).tick = s' := Option.some.inj hs
  have hstored : t ∉ (s.await events).tick.stored := by
    rw [mem_stored]
    rintro ⟨k, hk⟩
    have hlate := hticked.late k t hk
    rw [hok.ready.tickDuration] at hlate
    simp only [tickNow] at hx
    omega
  refine ⟨hstored, ?_⟩
  have hmem : t ∈ content (s.await events).tick.toTimerWheel := by
    rw [hok'.content]
    exact ht
  rw [mem_content] at hmem
  rcases hmem with hk | ⟨e, he, rfl⟩ | hk | hk
  · exact (hstored hk).elim
  · exact .inl ⟨e, he, rfl⟩
  · rcases hok'.ready.ok.skipped t hk with hdone | hcancel
    · exact .inl hdone
    · exact .inr ⟨hk, hcancel⟩
  · rw [hok'.discarded] at hk
    cases hk

def below64 (s : TimingWheelTimerManager) : ManagerAction → Bool
  | .push (some timer) events =>
    decide (((s.await events).getExpireTime timer).1.expireTime + s.tickDuration ≤ 2 ^ 64)
  | _ => true

lemma below64_ok (s : TimingWheelTimerManager) (a : ManagerAction) (h : below64 s a = true) :
    Below64 s a := by
  cases a with
  | push timer events =>
    cases timer with
    | none => trivial
    | some timer => simpa only [below64, Below64, decide_eq_true_eq] using h
  | tick events => trivial

def ioTimer : Timer := ⟨0, 10, 11⟩

theorem ioTimer_never_late :
    ∃ s s', run step (init 1 Nat.one_pos 1) [.push (some ioTimer) []] = some s ∧
      s.step (.tick [⟨20, []⟩]) = some s' ∧ ioTimer ∈ s'.accepted ∧
      (ioTimer ∉ s'.stored ∧ ((∃ e ∈ s'.handled, e.1.id = ioTimer.id) ∨
        ioTimer ∈ s'.skipped ∧ ioTimer.id ∈ s'.cancelled)) :=
  ⟨_, _, rfl, rfl, by decide, timing_wheel_never_late (T := 1)
    (Reaches.start.of_run below64 below64_ok [.push (some ioTimer) []] rfl) rfl (by decide)
    (by decide)⟩

/-- `push` counts the ticks from the clock. The tick this leads to is in the turn of the first
wheel that begins at the current tick of the wheels. -/
def PushedInTime (T : Nat) (e : Placement) : Prop :=
  e.cascaded = false → e.wheel = .wheel1 →
    (e.clock - e.startTime) / T + (e.timer.expireTime - e.clock + T - 1) / T < e.currentTick + 256

instance (T : Nat) (e : Placement) : Decidable (PushedInTime T e) :=
  inferInstanceAs (Decidable (_ → _ → _))

/-- Whenever a timer is put into the first wheel, its expire time suits the tick of the slot. -/
def ManagerInTime (T : Nat) (e : Placement) : Prop := CascadedInTime 1 T e ∧ PushedInTime T e

instance (T : Nat) (e : Placement) : Decidable (ManagerInTime T e) :=
  inferInstanceAs (Decidable (_ ∧ _))

lemma Punctual.rebase {ok : Placement → Prop} {k T : Nat} {s : TimerWheel}
    (h : Punctual ok k T s) : Punctual ok k T (rebase s) := by
  unfold TimingWheelTimerManager.rebase
  split
  · exact h.rebased ‹_›
  · exact h

lemma punctual_pushTimer {T : Nat} {s : TimerWheel} {t : Timer}
    (h : Punctual (ManagerInTime T) 1 T s) (hwrap : t.expireTime + T ≤ 2 ^ 64) :
    Punctual (ManagerInTime T) 1 T (pushTimer s t).2 := by
  have hbase := h.observe.rebase
  generalize hs : TimingWheelTimerManager.rebase s.observe = s' at hbase
  have hT := hbase.tickDuration
  have hpos : 0 < T := hT ▸ s'.tickDuration_pos
  rcases pushTimer_fate hs (hT ▸ hwrap) with ⟨-, hf, -⟩ | ⟨-, heq⟩
  · rw [hT] at hf
    refine hbase.fate hf (fun hx _ hok => ?_)
    have hturn := hok.2 rfl rfl
    obtain ⟨-, hup, -⟩ := delayTicks_bounds hpos hx hwrap
    rw [← delayTicks_eq hpos hx hwrap] at hturn
    refine ⟨hturn, ?_⟩
    have hdiv := Nat.lt_div_mul_add (a := s'.now - s'.startTime) hpos
    have hstart := hbase.start
    rw [Nat.succ_mul, Nat.add_mul]
    omega
  · rw [heq]
    exact hbase

lemma punctual_of_reaches {T : Nat} {hT : 0 < T} {start : Nat} {s : TimingWheelTimerManager}
    (h : Reaches step Below64 (init T hT start) s) :
    Punctual (ManagerInTime T) 1 T s.toTimerWheel := by
  refine h.invariant (P := fun s => Punctual (ManagerInTime T) 1 T s.toTimerWheel)
    (punctual_init _ 1 T hT start) ?_
  rintro s a s' hok ha hs
  have hawait : ∀ events, Punctual (ManagerInTime T) 1 T (s.await events).toTimerWheel :=
    fun events => hok.upcoming events
  cases a with
  | push timer events =>
    cases hs
    cases timer with
    | none => exact hawait events
    | some timer =>
      refine punctual_pushTimer ((hawait events).getExpireTime timer) ?_
      rw [← hok.tickDuration]
      exact ha
  | tick events =>
    cases hs
    exact (hawait events).tickWheel processes_processWheel1 stopAt_succ (fun _ => Nat.le_refl _)
      (fun _ hok => hok.1)

/-- If every placement into the first wheel was in time, `handleTimeout` is never called a whole
tick before the expire time. -/
theorem timing_wheel_never_early {T : Nat} {hT : 0 < T} {start : Nat}
    {s : TimingWheelTimerManager} (h : Reaches step Below64 (init T hT start) s)
    (hin : ∀ e ∈ s.placed, ManagerInTime T e) {e : Timer × Nat} (he : e ∈ s.handled) :
    e.1.expireTime < e.2 + T := by
  have hp := punctual_of_reaches h
  have hlt := (hp.onTime hin).handled e he
  rwa [hp.tickDuration] at hlt

def ioRun : List ManagerAction := [.push (some ioTimer) [], .tick [⟨10, []⟩]]

theorem ioRun_never_early :
    ∃ s, run step (init 1 Nat.one_pos 1) ioRun = some s ∧ (ioTimer, 11) ∈ s.handled ∧
      ioTimer.expireTime < 11 + 1 :=
  ⟨_, rfl, by decide, @timing_wheel_never_early 1 Nat.one_pos 1 _
    (Reaches.start.of_run below64 below64_ok ioRun rfl) (by decide) (ioTimer, 11) (by decide)⟩

/-- A first timer keeps the wheels at tick 0. One tick later a timer of 255 ticks is pushed. -/
def lateTick : List ManagerAction :=
  [.push (some ⟨0, 1000, 1001⟩) [], .push (some ⟨1, 255, 257⟩) [⟨1, []⟩], .tick []]

/-- The second timer goes to tick 256 and so to the slot of tick 0, which is processed next. -/
theorem late_tick_fires_early : ¬∀ T (hT : 0 < T) start s,
    Reaches step Below64 (init T hT start) s → ∀ e ∈ s.handled, e.1.expireTime < e.2 + T := by
  intro h
  have hlt := h 1 Nat.one_pos 1 _ (Reaches.start.of_run below64 below64_ok lateTick rfl)
    (⟨1, 255, 257⟩, 2) (by decide)
  exact absurd hlt (by decide)

end GalayKernel.Proofs
