import GalayKernel.Proofs.WheelEarliness
import GalayKernel.ThreadSafeTimerManager

namespace GalayKernel.Proofs
open TimerWheel ThreadSafeTimerManager Transition

lemma safe_removes : Removes ThreadSafeTimerManager.processTimer := by
  intro s t
  unfold ThreadSafeTimerManager.processTimer
  simp only
  split
  · exact .skipped (.inr rfl) ‹_›
  · exact .handled (.inr rfl)

lemma safe_processes : Processes ThreadSafeTimerManager.processWheel1 := safe_removes.processes

lemma stopAt_self : StopAt (fun target => target) where
  le _ := Nat.le_refl _
  le_succ _ := Nat.le_succ _
  mono _ _ h := h

lemma addTimerToWheel_fate (s : TimerWheel) (t : Timer) :
    ∃ s₁, (s₁ = s.observe ∨ s₁ = s.observe.observe) ∧
      Fate false s₁.now ((s₁.now - s₁.startTime) / s₁.tickDuration)
        ((t.expireTime - s₁.now) / s₁.tickDuration) s₁.size (s₁.size + 1) s₁ t
        (addTimerToWheel s t) := by
  unfold addTimerToWheel
  simp only
  split
  · exact ⟨s.observe, .inl rfl, .skipped ‹_›⟩
  · refine ⟨s.observe.observe, .inr rfl, ?_⟩
    have hT := s.observe.observe.tickDuration_pos
    split
    · exact .handled (Nat.lt_of_le_of_lt ‹_› (Nat.lt_add_of_pos_right hT))
    · split
      · exact .handled (lt_add_of_div_eq_zero hT ‹_›)
      · split
        · exact .discarded (wheelFor_eq_none.mp ‹_›)
        · exact .placed (Nat.not_le.mp ‹_›) (Nat.pos_of_ne_zero ‹_›) ‹_›

def kept (s : TimerWheel) : Multiset Timer :=
  s.stored + (s.handled.map Prod.fst : List Timer) + (s.skipped : Multiset Timer)

lemma content_eq_kept (s : TimerWheel) : content s = kept s + s.discarded := by
  unfold content kept removed
  abel

lemma kept_eq_of_content {s s' : TimerWheel} (h : content s' = content s)
    (hd : s'.discarded = s.discarded) : kept s' = kept s := by
  rw [content_eq_kept, content_eq_kept, hd] at h
  exact add_right_cancel h

lemma mem_kept {s : TimerWheel} {t : Timer} :
    t ∈ kept s ↔ (∃ k, t ∈ s.slots k) ∨ (∃ e ∈ s.handled, e.1 = t) ∨ t ∈ s.skipped := by
  simp only [kept, Multiset.mem_add, mem_stored, Multiset.mem_coe, List.mem_map, or_assoc]

lemma Fate.kept_or_dropped {cascaded : Bool} {nowNs base r gone n : Nat} {s s' : TimerWheel}
    {t : Timer} (h : Fate cascaded nowNs base r gone n s t s') :
    (kept s' = kept s + {t} ∧ s'.discarded = s.discarded) ∨
      (2 ^ 32 ≤ r ∧ kept s' = kept s ∧ s'.discarded = s.discarded ++ [t]) := by
  have hc := h.content_eq
  cases h with
  | discarded hfar => exact .inr ⟨hfar, rfl, rfl⟩
  | skipped | handled | placed =>
    refine .inl ⟨?_, rfl⟩
    rw [content_eq_kept, content_eq_kept, add_right_comm] at hc
    exact add_right_cancel hc

def Far (T : Nat) (t : Timer) (c : Nat) : Prop := 2 ^ 32 ≤ (t.expireTime - c) / T

lemma Far.earlier {T c c' : Nat} {t : Timer} (h : Far T t c') (hle : c ≤ c') : Far T t c :=
  Nat.le_trans h (Nat.div_le_div_right (Nat.sub_le_sub_left hle _))

/-- The accounts of the manager: where the accepted timers are. -/
structure TimersAccounted (T : Nat) (pending : Multiset Timer) (accepted : List (Timer × Nat))
    (s : TimerWheel) : Prop where
  tickDuration : s.tickDuration = T
  ok : WheelOk 1 s
  notAhead : NotAhead (fun target => target) s
  clock : ∀ e ∈ accepted, e.2 ≤ s.now
  content : pending + content s = (accepted.map Prod.fst : List Timer)
  dropped : ∀ t ∈ s.discarded, ∃ c, (t, c) ∈ accepted ∧ Far T t c
  kept : ∀ e ∈ accepted, e.1 ∈ pending ∨ e.1 ∈ kept s ∨ Far T e.1 e.2

section TimersAccounted

variable {T : Nat} {pending : Multiset Timer} {accepted : List (Timer × Nat)} {s s' : TimerWheel}

lemma TimersAccounted.worked (h : TimersAccounted T pending accepted s)
    (hT : s'.tickDuration = s.tickDuration) (hok : WheelOk 1 s')
    (hpos : NotAhead (fun target => target) s') (hnow : s.now ≤ s'.now)
    (hc : Proofs.content s' = Proofs.content s) (hd : s'.discarded = s.discarded) :
    TimersAccounted T pending accepted s' where
  tickDuration := hT.trans h.tickDuration
  ok := hok
  notAhead := hpos
  clock e he := Nat.le_trans (h.clock e he) hnow
  content := hc ▸ h.content
  dropped := hd ▸ h.dropped
  kept := kept_eq_of_content hc hd ▸ h.kept

lemma TimersAccounted.observe (h : TimersAccounted T pending accepted s) :
    TimersAccounted T pending accepted s.observe :=
  h.worked (observe_later s).tickDuration (observe_ok h.ok)
    (h.notAhead.later stopAt_self (observe_later s)) (observe_later s).now (content_observe s)
    (observe_eq s).2.2.2.2.1

lemma TimersAccounted.tickWheel (h : TimersAccounted T pending accepted s) :
    TimersAccounted T pending accepted
      (s.tickWheel ThreadSafeTimerManager.processWheel1 (fun target => target)) := by
  have ht := tickWheel_ticked safe_processes stopAt_self Nat.one_pos h.ok h.notAhead
  exact h.worked ht.tickDuration ht.ok ht.notAhead ht.now ht.content ht.discarded

lemma TimersAccounted.fate {t : Timer} (h : TimersAccounted T (t ::ₘ pending) accepted s)
    (hf : Fate false s.now ((s.now - s.startTime) / s.tickDuration)
      ((t.expireTime - s.now) / s.tickDuration) s.size (s.size + 1) s t s') :
    TimersAccounted T pending accepted s' := by
  have hl := hf.later
  have hfar : 2 ^ 32 ≤ (t.expireTime - s.now) / s.tickDuration → Far T t s.now := by
    rw [h.tickDuration]
    exact id
  refine ⟨hl.tickDuration.trans h.tickDuration, hf.wheelOk h.ok ?_ (fun hx => ?_),
    h.notAhead.later stopAt_self hl, fun e he => Nat.le_trans (h.clock e he) hl.now, ?_,
    fun u hu => ?_, fun e he => ?_⟩
  · exact Nat.le_succ_of_le h.notAhead
  · refine ⟨Nat.le_refl _, ?_⟩
    have hbase := Nat.div_mul_le_self (s.now - s.startTime) s.tickDuration
    have hdelay := Nat.div_mul_le_self (t.expireTime - s.now) s.tickDuration
    have hstart := h.ok.start
    rw [Nat.add_mul]
    omega
  · rw [hf.content_eq, ← h.content, ← Multiset.singleton_add]
    abel
  · rcases hf.kept_or_dropped with ⟨-, hd⟩ | ⟨hr, -, hd⟩
    · exact h.dropped u (hd ▸ hu)
    · rw [hd] at hu
      rcases List.mem_append.mp hu with hu | hu
      · exact h.dropped u hu
      · have hmem : t ∈ ((accepted.map Prod.fst : List Timer) : Multiset Timer) := by
          rw [← h.content]
          exact Multiset.mem_add.mpr (.inl (Multiset.mem_cons_self t _))
        obtain ⟨e, he, rfl⟩ := List.mem_map.mp (Multiset.mem_coe.mp hmem)
        rw [List.mem_singleton.mp hu]
        exact ⟨e.2, he, (hfar hr).earlier (h.clock e he)⟩
  · rcases hf.kept_or_dropped with ⟨hk, -⟩ | ⟨hr, hk, -⟩
    all_goals
      rw [hk]
      rcases h.kept e he with hmem | hmem | hmem
    · rcases Multiset.mem_cons.mp hmem with heq | hmem
      · exact .inr (.inl (Multiset.mem_add.mpr (.inr (Multiset.mem_singleton.mpr heq))))
      · exact .inl hmem
    · exact .inr (.inl (Multiset.mem_add.mpr (.inl hmem)))
    · exact .inr (.inr hmem)
    · rcases Multiset.mem_cons.mp hmem with heq | hmem
      · rw [heq]
        exact .inr (.inr ((hfar hr).earlier (h.clock e he)))
      · exact .inl hmem
    · exact .inr (.inl hmem)
    · exact .inr (.inr hmem)

lemma TimersAccounted.addTimerToWheel {t : Timer} (h : TimersAccounted T (t ::ₘ pending) accepted s) :
    TimersAccounted T pending accepted (addTimerToWheel s t) := by
  obtain ⟨s₁, hs₁, hf⟩ := addTimerToWheel_fate s t
  have h₁ : TimersAccounted T (t ::ₘ pending) accepted s₁ := by
    rcases hs₁ with rfl | rfl
    · exact h.observe
    · exact h.observe.observe
  exact h₁.fate hf

end TimersAccounted

/-- An invariant of the calls of `addTimerToWheel` on the wheels, where the first argument is what
is still pending. -/
lemma processPendingTimers_induction {P : Multiset Timer → TimerWheel → Prop}
    (hstep : ∀ t pending s, P (t ::ₘ pending) s → P pending (addTimerToWheel s t))
    {batches : List (List Timer)} {s s' : ThreadSafeTimerManager}
    (hs : s.processPendingTimers batches = some s') (h : P s.pending s.toTimerWheel) :
    P s'.pending s'.toTimerWheel ∧ s'.accepted = s.accepted := by
  induction batches generalizing s with
  | nil =>
    cases hs
    exact ⟨h, rfl⟩
  | cons batch batches ih =>
    rw [processPendingTimers] at hs
    split at hs
    · rename_i hguard
      refine ih (s := s.addBatch batch) hs ?_
      have hrest := foldl_rest (f := addTimerToWheel)
        (P := fun (ts : List Timer) (w : TimerWheel) => P (s.pending - batch + ts) w) ?_ batch
        s.toTimerWheel ?_
      · rwa [Multiset.coe_nil, add_zero] at hrest
      · intro t ts w hw
        rw [← Multiset.cons_coe, Multiset.add_cons] at hw
        exact hstep t _ w hw
      · rw [tsub_add_cancel_of_le hguard.2.2]
        exact h
    · cases hs

def SafeOk (T : Nat) (s : ThreadSafeTimerManager) : Prop :=
  TimersAccounted T s.pending s.accepted s.toTimerWheel

lemma safeOk_init (T : Nat) (hT : 0 < T) (now : Nat) : SafeOk T (init T hT now) where
  tickDuration := rfl
  ok := wheelOk_init 1 T hT now
  notAhead := Nat.zero_le _
  clock e he := by cases he
  content := by
    change 0 + content (TimerWheel.init T hT now) = _
    rw [content_init]
    rfl
  dropped t ht := by cases ht
  kept e he := by cases he

lemma SafeOk.await {T : Nat} {s : ThreadSafeTimerManager} (h : SafeOk T s) (events : List Event) :
    SafeOk T (s.await events) :=
  ⟨h.tickDuration, h.ok.upcoming events, h.notAhead, h.clock, h.content, h.dropped, h.kept⟩

lemma TimersAccounted.enqueue {T : Nat} {pending : Multiset Timer} {accepted : List (Timer × Nat)}
    {s : TimerWheel} (h : TimersAccounted T pending accepted s) (t : Timer) :
    TimersAccounted T (t ::ₘ pending) (accepted ++ [(t, s.now)]) s where
  tickDuration := h.tickDuration
  ok := h.ok
  notAhead := h.notAhead
  clock e he := by
    rcases List.mem_append.mp he with he | he
    · exact h.clock e he
    · rw [List.mem_singleton.mp he]
  content := by
    rw [List.map_append, ← Multiset.coe_add, ← h.content, ← Multiset.singleton_add,
      List.map_singleton, Multiset.coe_singleton]
    abel
  dropped u hu := by
    obtain ⟨c, hc, hfar⟩ := h.dropped u hu
    exact ⟨c, List.mem_append_left _ hc, hfar⟩
  kept e he := by
    rcases List.mem_append.mp he with he | he
    · exact (h.kept e he).imp_left Multiset.mem_cons_of_mem
    · rw [List.mem_singleton.mp he]
      exact .inl (Multiset.mem_cons_self t _)

lemma SafeOk.push {T : Nat} {s : ThreadSafeTimerManager} (h : SafeOk T s) (timer : Option Timer)
    (enqueued : Bool) : SafeOk T (s.push timer enqueued) := by
  cases timer with
  | none => exact h
  | some t =>
    have hexpire : TimersAccounted T s.pending s.accepted (s.getExpireTime t).2 := by
      rcases getExpireTime_cases s.toTimerWheel t with heq | heq
      · rw [heq]
        exact h
      · rw [heq]
        exact TimersAccounted.observe h
    unfold ThreadSafeTimerManager.push
    simp only
    split
    · exact hexpire.observe.enqueue _
    · exact hexpire.observe

lemma SafeOk.processPendingTimers {T : Nat} {s s' : ThreadSafeTimerManager} (h : SafeOk T s)
    {batches : List (List Timer)} (hs : s.processPendingTimers batches = some s') :
    SafeOk T s' ∧ s'.accepted = s.accepted := by
  obtain ⟨hacc, heq⟩ := processPendingTimers_induction
    (P := fun pending w => TimersAccounted T pending s.accepted w)
    (fun t pending w hw => hw.addTimerToWheel) hs h
  refine ⟨?_, heq⟩
  rw [SafeOk, heq]
  exact hacc

lemma safeOk_of_reaches {T : Nat} {hT : 0 < T} {start : Nat} {s : ThreadSafeTimerManager}
    (h : Reaches step (fun _ _ => True) (init T hT start) s) : SafeOk T s := by
  refine h.invariant (P := SafeOk T) (safeOk_init T hT start) ?_
  rintro s a s' hok - hs
  cases a with
  | push timer enqueued events =>
    cases hs
    exact (hok.await events).push timer enqueued
  | pushBatch timers events =>
    cases hs
    exact foldl_rest (P := fun _ s => SafeOk T s) (fun timer _ s h => h.push timer.1 timer.2) timers
      (s.await events) (hok.await events)
  | tick batches events =>
    obtain ⟨s₁, hs₁, rfl⟩ := Option.map_eq_some_iff.mp hs
    exact TimersAccounted.tickWheel ((hok.await events).processPendingTimers hs₁).1

/-- When `tick()` returns, every timer that was pushed before it and whose expire time was a tick
ago has been handled, unless it was cancelled or was out of range when it was pushed. The queue
has handed out everything. -/
theorem safe_timer_never_late {T : Nat} {hT : 0 < T} {start : Nat}
    {s s' : ThreadSafeTimerManager} (h : Reaches step (fun _ _ => True) (init T hT start) s)
    {batches : List (List Timer)} {events : List Event}
    (hs : s.step (.tick batches events) = some s') (hdrained : s'.pending = 0) {now : Nat}
    (hnow : s.tickNow batches events = some now) {t : Timer} {c : Nat} (ht : (t, c) ∈ s.accepted)
    (hdelay : (t.expireTime - c) / T < 2 ^ 32) (hx : t.expireTime + T ≤ now)
    (hcancel : t.id ∉ s'.cancelled) : ∃ e ∈ s'.handled, e.1.id = t.id := by
  obtain ⟨s₁, hs₁, rfl⟩ := Option.map_eq_some_iff.mp hs
  obtain ⟨s₂, hs₂, rfl⟩ := Option.map_eq_some_iff.mp hnow
  obtain rfl : s₁ = s₂ := Option.some.inj (hs₁.symm.trans hs₂)
  obtain ⟨hok, haccepted⟩ := ((safeOk_of_reaches h).await events).processPendingTimers hs₁
  have hticked := tickWheel_ticked safe_processes stopAt_self Nat.one_pos hok.ok hok.notAhead
  have hok' := TimersAccounted.tickWheel hok
  rcases hok'.kept (t, c) (haccepted ▸ ht) with hmem | hmem | hfar
  · change t ∈ s₁.pending at hmem
    change s₁.pending = 0 at hdrained
    rw [hdrained] at hmem
    exact absurd hmem (Multiset.notMem_zero t)
  · rcases mem_kept.mp hmem with ⟨k, hk⟩ | ⟨e, he, rfl⟩ | hk
    · have hlate := hticked.late k t hk
      rw [hok.tickDuration] at hlate
      omega
    · exact ⟨e, he, rfl⟩
    · rcases hok'.ok.skipped t hk with hdone | hc
      · exact hdone
      · exact absurd hc hcancel
  · exact absurd hdelay (Nat.not_lt.mpr hfar)

def sleepTimer : Timer := ⟨0, 10, 11⟩

def sleepRun : List SafeManagerAction :=
  [.push (some sleepTimer) true [], .tick [[sleepTimer]] []]

theorem sleepTimer_never_late :
    ∃ s s', run step (init 1 Nat.one_pos 1) sleepRun = some s ∧
      s.step (.tick [] [⟨20, []⟩]) = some s' ∧ ∃ e ∈ s'.handled, e.1.id = sleepTimer.id :=
  ⟨_, _, rfl, rfl, @safe_timer_never_late 1 Nat.one_pos 1 _ _ (Reaches.start.of_replay sleepRun rfl)
    [] [⟨20, []⟩] rfl rfl 21 rfl sleepTimer 1 (by decide) (by decide) (by decide)
    (by decide)⟩

/-- Every accepted timer is in exactly one place: pending, stored in one slot, handled, found
done or cancelled, or dropped; only timers that were out of range when they were pushed are
dropped. `m_wheelSize` counts the stored ones. -/
theorem safe_timer_never_lost {T : Nat} {hT : 0 < T} {start : Nat} {s : ThreadSafeTimerManager}
    (h : Reaches step (fun _ _ => True) (init T hT start) s) :
    ((s.accepted.map Prod.fst : List Timer) : Multiset Timer) =
        s.pending + s.stored + (s.handled.map Prod.fst : List Timer) + (s.skipped : Multiset Timer)
          + s.discarded ∧
      (∀ t ∈ s.skipped, (∃ e ∈ s.handled, e.1.id = t.id) ∨ t.id ∈ s.cancelled) ∧
      (∀ t ∈ s.discarded, ∃ c, (t, c) ∈ s.accepted ∧ 2 ^ 32 ≤ (t.expireTime - c) / T) ∧
      s.size = s.stored.card := by
  have hok := safeOk_of_reaches h
  refine ⟨?_, hok.ok.skipped, hok.dropped, hok.ok.balanced⟩
  rw [← hok.content, content_eq_kept, kept]
  abel

/-- One of two timers is cancelled before `tick()` looks at it. -/
def cancelRun : List SafeManagerAction :=
  [.push (some sleepTimer) true [], .push (some ⟨1, 20, 21⟩) true [],
    .tick [[⟨1, 20, 21⟩, sleepTimer]] [⟨1, []⟩, ⟨1, []⟩, ⟨1, [0]⟩]]

theorem cancelRun_never_lost :
    ∃ s, run step (init 1 Nat.one_pos 1) cancelRun = some s ∧ s.skipped = [sleepTimer] ∧
      s.size = s.stored.card :=
  ⟨_, rfl, rfl, (@safe_timer_never_lost 1 Nat.one_pos 1 _
    (Reaches.start.of_replay cancelRun rfl)).2.2.2⟩

def farTimer : Timer := ⟨0, 0, 2 ^ 32 + 5⟩

/-- `push` accepts a timer beyond the range of the wheels and the next `tick()` drops it. -/
theorem far_timer_is_dropped : ¬∀ T (hT : 0 < T) start s,
    Reaches step (fun _ _ => True) (init T hT start) s → ∀ e ∈ s.accepted,
      e.1 ∈ s.pending ∨ e.1 ∈ s.stored ∨ (∃ h ∈ s.handled, h.1 = e.1) ∨ e.1 ∈ s.skipped := by
  intro h
  have hmem := h 1 Nat.one_pos 1 _ (Reaches.start.of_replay
    [.push (some farTimer) true [], .tick [[farTimer]] []] rfl) (farTimer, 1) (by decide)
  rw [mem_stored] at hmem
  rcases hmem with hk | ⟨k, hk⟩ | ⟨e, he, -⟩ | hk
  · exact absurd hk (by decide)
  · cases hk
  · cases he
  · cases hk

/-- `addTimerToWheel` counts the ticks from the clock. The tick this leads to is in the turn of
the first wheel that begins at the current tick of the wheels. -/
def AddedInTime (T : Nat) (e : Placement) : Prop :=
  e.cascaded = false → e.wheel = .wheel1 →
    (e.clock - e.startTime) / T + (e.timer.expireTime - e.clock) / T < e.currentTick + 256

instance (T : Nat) (e : Placement) : Decidable (AddedInTime T e) :=
  inferInstanceAs (Decidable (_ → _ → _))

/-- Whenever a timer is put into the first wheel, its expire time suits the tick of the slot. -/
def SafeInTime (T : Nat) (e : Placement) : Prop := CascadedInTime 2 T e ∧ AddedInTime T e

instance (T : Nat) (e : Placement) : Decidable (SafeInTime T e) :=
  inferInstanceAs (Decidable (_ ∧ _))

lemma punctual_addTimerToWheel {T : Nat} {s : TimerWheel} (t : Timer)
    (h : Punctual (SafeInTime T) 2 T s) : Punctual (SafeInTime T) 2 T (addTimerToWheel s t) := by
  obtain ⟨s₁, hs₁, hf⟩ := addTimerToWheel_fate s t
  have h₁ : Punctual (SafeInTime T) 2 T s₁ := by
    rcases hs₁ with rfl | rfl
    · exact h.observe
    · exact h.observe.observe
  have hT : 0 < T := h₁.tickDuration ▸ s₁.tickDuration_pos
  refine h₁.fate hf (fun hx _ hok => ?_)
  rw [h₁.tickDuration]
  refine ⟨hok.2 rfl rfl, ?_⟩
  have hbase := Nat.lt_div_mul_add (a := s₁.now - s₁.startTime) hT
  have hdelay := Nat.lt_div_mul_add (a := t.expireTime - s₁.now) hT
  have hstart := h₁.start
  rw [Nat.add_mul, Nat.add_mul, Nat.two_mul]
  omega

lemma safe_punctual_of_reaches {T : Nat} {hT : 0 < T} {start : Nat} {s : ThreadSafeTimerManager}
    (h : Reaches step (fun _ _ => True) (init T hT start) s) :
    Punctual (SafeInTime T) 2 T s.toTimerWheel := by
  refine h.invariant (P := fun s => Punctual (SafeInTime T) 2 T s.toTimerWheel)
    (punctual_init _ 2 T hT start) ?_
  rintro s a s' hok - hs
  have hawait : ∀ events, Punctual (SafeInTime T) 2 T (s.await events).toTimerWheel :=
    fun events => hok.upcoming events
  have hpush : ∀ (s : ThreadSafeTimerManager) timer enqueued,
      Punctual (SafeInTime T) 2 T s.toTimerWheel →
      Punctual (SafeInTime T) 2 T (s.push timer enqueued).toTimerWheel := by
    intro s timer enqueued h
    cases timer with
    | none => exact h
    | some timer =>
      unfold ThreadSafeTimerManager.push
      simp only
      split <;> exact (h.getExpireTime timer).observe
  cases a with
  | push timer enqueued events =>
    cases hs
    exact hpush _ timer enqueued (hawait events)
  | pushBatch timers events =>
    cases hs
    exact foldl_rest (P := fun _ s => Punctual (SafeInTime T) 2 T s.toTimerWheel)
      (fun timer _ s h => hpush s timer.1 timer.2 h) timers (s.await events) (hawait events)
  | tick batches events =>
    obtain ⟨s₁, hs₁, rfl⟩ := Option.map_eq_some_iff.mp hs
    obtain ⟨h₁, -⟩ := processPendingTimers_induction
      (P := fun _ w => Punctual (SafeInTime T) 2 T w)
      (fun t _ _ hw => punctual_addTimerToWheel t hw) hs₁ (hawait events)
    exact h₁.tickWheel safe_processes stopAt_self (fun _ => Nat.le_refl _) (fun _ hok => hok.1)

/-- If every placement into the first wheel was in time, `handleTimeout` is never called a whole
tick before the expire time. -/
theorem safe_timer_never_early {T : Nat} {hT : 0 < T} {start : Nat} {s : ThreadSafeTimerManager}
    (h : Reaches step (fun _ _ => True) (init T hT start) s)
    (hin : ∀ e ∈ s.placed, SafeInTime T e) {e : Timer × Nat} (he : e ∈ s.handled) :
    e.1.expireTime < e.2 + T := by
  have hp := safe_punctual_of_reaches h
  have hlt := (hp.onTime hin).handled e he
  rwa [hp.tickDuration] at hlt

/-- `tick()` is called when the timer is pushed and again after it has expired. -/
def promptRun : List SafeManagerAction := sleepRun ++ [.tick [] [⟨11, []⟩]]

theorem promptRun_never_early :
    ∃ s, run step (init 1 Nat.one_pos 1) promptRun = some s ∧ (sleepTimer, 12) ∈ s.handled ∧
      sleepTimer.expireTime < 12 + 1 :=
  ⟨_, rfl, by decide, @safe_timer_never_early 1 Nat.one_pos 1 _
    (Reaches.start.of_replay promptRun rfl) (by decide) (sleepTimer, 12) (by decide)⟩

/-- The timer is taken from the queue one tick after the construction of the manager. -/
def lateAdd : List SafeManagerAction :=
  [.push (some ⟨0, 255, 257⟩) true [⟨1, []⟩], .tick [[⟨0, 255, 257⟩]] []]

/-- The timer goes to tick 256 and so to the slot of tick 0, which is processed next. -/
theorem late_add_fires_early : ¬∀ T (hT : 0 < T) start s,
    Reaches step (fun _ _ => True) (init T hT start) s →
      ∀ e ∈ s.handled, e.1.expireTime < e.2 + T := by
  intro h
  have hlt := h 1 Nat.one_pos 1 _ (Reaches.start.of_replay lateAdd rfl) (⟨0, 255, 257⟩, 2)
    (by decide)
  exact absurd hlt (by decide)

end GalayKernel.Proofs
