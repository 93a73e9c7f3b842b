import GalayKernel.Proofs.WheelLateness

/-!
# Timers are not processed before their time

A slot of the first wheel is processed by its index alone, at the next tick with that index. A
timer is safe there if it was put into the turn of the wheel that begins at the current tick,
and if the end of its tick is not before its expire time. The other wheels need no such
invariant, since a cascade looks at the expire time again.
-/

namespace GalayKernel.Proofs
open TimerWheel Transition

/-- No timer of the first wheel expires `k` ticks or more after a tick at which its slot will
be processed. -/
def Timely (k : Nat) (s : TimerWheel) : Prop :=
  Each (fun slot t => slot.1 = .wheel1 → ∀ p, s.currentTick ≤ p → slotAt .wheel1 p = slot →
    t.expireTime < (p + k) * s.tickDuration + s.startTime) s

structure OnTime (k : Nat) (s : TimerWheel) : Prop where
  timely : Timely k s
  handled : ∀ e ∈ s.handled, e.1.expireTime < e.2 + s.tickDuration

/-- A cascade counts the ticks from the current tick of the wheels, whatever the clock says.
The timer does not expire `k` ticks or more after the tick this leads to. -/
def CascadedInTime (k T : Nat) (e : Placement) : Prop :=
  e.cascaded = true → e.wheel = .wheel1 → e.timer.expireTime <
    (e.currentTick + (e.timer.expireTime - e.clock) / T + k) * T + e.startTime

instance (k T : Nat) (e : Placement) : Decidable (CascadedInTime k T e) :=
  inferInstanceAs (Decidable (_ → _ → _))

/-- Within one turn of the first wheel a slot stands for one tick. -/
lemma lt_of_turn {T start k m tick x : Nat} (hturn : tick < m + 256)
    (hx : x < (tick + k) * T + start) {p : Nat} (hp : m ≤ p)
    (hslot : slotAt .wheel1 p = slotAt .wheel1 tick) : x < (p + k) * T + start := by
  have hmod := slotAt_wheel1.mp hslot
  have hle : tick + k ≤ p + k := by omega
  have hmul := Nat.mul_le_mul_right T hle
  omega

lemma cascadeIf_onTime {k : Nat} {w : Wheel} {s : TimerWheel} (h : OnTime k s)
    (hok : ∀ e ∈ (cascadeIf w s).placed, CascadedInTime k s.tickDuration e) :
    OnTime k (cascadeIf w s) := by
  have hl := (cascadeIf_worked w s).later
  refine ⟨?_, fun e he => ?_⟩
  · unfold Timely
    rw [hl.currentTick, hl.tickDuration, hl.startTime]
    unfold cascadeIf at hok ⊢
    split
    · rename_i hcross
      rw [if_pos hcross] at hok
      refine cascadeSlot_each (fun slot _ t ht => h.timely slot t ht) ?_
      rintro t - nowNs v - - hr hv hmem rfl p hp hslot
      refine lt_of_turn ?_ (hok _ hmem rfl rfl) hp hslot
      have hspan := (wheelFor_bounds hv).2
      simp only [Wheel.span, Wheel.size] at hspan
      simp only
      omega
    · exact h.timely
  · rw [hl.tickDuration]
    rcases cascadeIf_handled he with he | he
    · exact h.handled e he
    · exact he

variable {process : TimerWheel → TimerWheel}

/-- `processWheel1` runs the slot of the current tick when the clock is less than a tick before
the end of the `k` ticks. -/
lemma process_onTime {k : Nat} {s : TimerWheel} (hp : Processes process) (h : OnTime k s)
    (hclock : (s.currentTick + k) * s.tickDuration + s.startTime ≤ s.now + s.tickDuration) :
    OnTime k { process s with currentTick := (process s).currentTick + 1 } := by
  have hl := (hp.worked s).later
  refine ⟨fun slot t ht hw p hle hslot => ?_, fun e he => ?_⟩
  · change t ∈ (process s).slots slot at ht
    rw [hp.slots, Function.update_apply] at ht
    split at ht
    · cases ht
    · change (process s).currentTick + 1 ≤ p at hle
      change t.expireTime < (p + k) * (process s).tickDuration + (process s).startTime
      rw [hl.currentTick] at hle
      rw [hl.tickDuration, hl.startTime]
      exact h.timely slot t ht hw p (by omega) hslot
  · change e.1.expireTime < e.2 + (process s).tickDuration
    rw [hl.tickDuration]
    rcases hp.handled s e he with he | ⟨hmem, hnow⟩
    · exact h.handled e he
    · have hlt := h.timely _ e.1 hmem rfl s.currentTick (Nat.le_refl _) rfl
      omega

/-- The wheels of a manager with tick duration `T` are on time as long as all placements are
`ok`. -/
structure Punctual (ok : Placement → Prop) (k T : Nat) (s : TimerWheel) : Prop where
  tickDuration : s.tickDuration = T
  start : s.startTime ≤ s.now
  balanced : Balanced s
  onTime : (∀ e ∈ s.placed, ok e) → OnTime k s

section Punctual

variable {ok : Placement → Prop} {k T : Nat} {s s' : TimerWheel}

lemma punctual_init (ok : Placement → Prop) (k T : Nat) (hT : 0 < T) (now : Nat) :
    Punctual ok k T (TimerWheel.init T hT now) := by
  refine ⟨rfl, Nat.le_refl _, ?_, fun _ => ⟨fun slot t ht => ?_, fun e he => ?_⟩⟩
  · rw [Balanced, stored_init]
    rfl
  · cases ht
  · cases he

lemma Punctual.upcoming (h : Punctual ok k T s) (events : List Event) :
    Punctual ok k T { s with upcoming := events } :=
  ⟨h.tickDuration, h.start, h.balanced, fun hok =>
    ⟨(h.onTime hok).timely, (h.onTime hok).handled⟩⟩

lemma Punctual.observe (h : Punctual ok k T s) : Punctual ok k T s.observe := by
  have hl := observe_later s
  obtain ⟨hslots, -, hhandled, -, -, hplaced⟩ := observe_eq s
  refine ⟨hl.tickDuration.trans h.tickDuration, ?_, (observe_worked s).balanced h.balanced,
    fun hok => ?_⟩
  · rw [hl.startTime]
    exact Nat.le_trans h.start hl.now
  · rw [hplaced] at hok
    obtain ⟨ht, hh⟩ := h.onTime hok
    refine ⟨?_, ?_⟩
    · unfold Timely Each
      rw [hslots, hl.currentTick, hl.tickDuration, hl.startTime]
      exact ht
    · rw [hhandled, hl.tickDuration]
      exact hh

lemma Punctual.getExpireTime (h : Punctual ok k T s) (t : Timer) :
    Punctual ok k T (s.getExpireTime t).2 := by
  rcases getExpireTime_cases s t with heq | heq
  · rw [heq]
    exact h
  · rw [heq]
    exact h.observe

lemma Punctual.rebased (h : Punctual ok k T s) (hs : s.size = 0) :
    Punctual ok k T { s with startTime := s.now, currentTick := 0 } := by
  refine ⟨h.tickDuration, Nat.le_refl _, h.balanced, fun hok => ⟨fun slot t ht => ?_, ?_⟩⟩
  · change t ∈ s.slots slot at ht
    rw [slots_eq_nil h.balanced hs slot] at ht
    cases ht
  · exact (h.onTime hok).handled

lemma Punctual.reset (h : Punctual ok k T s) (hs : s.size = 0) : Punctual ok k T s.reset := by
  refine h.observe.rebased ?_
  rw [(observe_eq s).2.1, hs]

lemma Punctual.fate {base r : Nat} {t : Timer} (h : Punctual ok k T s)
    (hf : Fate false s.now base r s.size (s.size + 1) s t s')
    (hplace : s.now < t.expireTime → wheelFor r = some .wheel1 →
      ok ⟨t, .wheel1, false, s.now, s.currentTick, s.startTime⟩ →
      base + r < s.currentTick + 256 ∧ t.expireTime < (base + r + k) * T + s.startTime) :
    Punctual ok k T s' := by
  have hl := hf.later
  have hnow : s'.now = s.now := by cases hf <;> rfl
  refine ⟨hl.tickDuration.trans h.tickDuration, ?_, ?_, fun hok => ?_⟩
  · rw [hl.startTime, hnow]
    exact h.start
  · have hsize := hf.size_eq
    have hb : s.size = s.stored.card := h.balanced
    change s'.size = s'.stored.card
    omega
  · obtain ⟨ht, hh⟩ := h.onTime (fun e he => hok e (hl.placed he))
    refine ⟨?_, fun e he => ?_⟩
    · unfold Timely
      rw [hl.currentTick, hl.tickDuration, hl.startTime, h.tickDuration]
      refine hf.each (h.tickDuration ▸ ht) ?_
      rintro w hx - hw hmem rfl p hp hslot
      obtain ⟨hturn, hlt⟩ := hplace hx hw (hok _ hmem)
      exact lt_of_turn hturn hlt hp hslot
    · rw [hl.tickDuration]
      rcases hf.mem_handled he with he | ⟨rfl, hdue⟩
      · exact hh e he
      · exact hdue

lemma Punctual.advance (hp : Processes process) (hcas : ∀ e, ok e → CascadedInTime k T e)
    (h : Punctual ok k T s)
    (hclock : (s.currentTick + k) * s.tickDuration + s.startTime ≤ s.now + s.tickDuration) :
    Punctual ok k T (s.advance process) := by
  have hc := cascade_worked s
  have hw := hc.trans (hp.worked s.cascade)
  refine ⟨hw.later.tickDuration.trans h.tickDuration, ?_, hw.balanced h.balanced, fun hok => ?_⟩
  · change (process s.cascade).startTime ≤ (process s.cascade).now
    rw [hw.later.startTime]
    exact Nat.le_trans h.start hw.later.now
  · have hcascade := cascade_induction
      (P := fun s' => s'.tickDuration = T ∧ ((∀ e ∈ s'.placed, ok e) → OnTime k s')) ?_
      ⟨h.tickDuration, h.onTime⟩
    · refine process_onTime hp (hcascade.2 (fun e he => hok e ((hp.worked _).later.placed he))) ?_
      have hnow := hc.later.now
      rw [hc.later.currentTick, hc.later.tickDuration, hc.later.startTime]
      omega
    · rintro w s' ⟨rfl, hs'⟩
      have hl := (cascadeIf_worked w s').later
      refine ⟨hl.tickDuration, fun hok' => ?_⟩
      exact cascadeIf_onTime (hs' (fun e he => hok' e (hl.placed he)))
        (fun e he => hcas e (hok' e he))

/-- The loop of `tick()` stops `2 - k` ticks after the target tick. -/
theorem Punctual.tickWheel {stopAt : Nat → Nat} (hp : Processes process) (hstop : StopAt stopAt)
    (hk : ∀ n, stopAt n + k ≤ n + 2) (hcas : ∀ e, ok e → CascadedInTime k T e)
    (h : Punctual ok k T s) : Punctual ok k T (s.tickWheel process stopAt) := by
  refine tickWheel_induction (P := Punctual ok k T) hp hstop (fun _ h => h.start)
    (fun _ h => h.observe) (fun s n h hlt hn => h.advance hp hcas ?_) (fun _ h hs => h.reset hs) h
  have hle : s.currentTick + k ≤ n + 1 := by
    have := hk n
    omega
  have hmul := Nat.mul_le_mul_right s.tickDuration hle
  rw [Nat.succ_mul] at hmul
  omega

end Punctual

end GalayKernel.Proofs
