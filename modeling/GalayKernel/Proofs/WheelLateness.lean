import GalayKernel.Proofs.WheelTick

/-!
# Timers are reached in time

For every stored timer there is a tick, not passed yet, at which its slot is cascaded or
processed, and which is not later than the timer's expire time by the clock. A cascade puts
the timer into a slot that is reached strictly later, so one iteration of `tick()` deals with
every timer whose tick has come.
-/

namespace GalayKernel.Proofs
open TimerWheel Transition

/-- The slot `k` of the timer `t` is reached at a tick from `b` on, and by the clock that is
less than `c` after the expire time. -/
def Due (T start c b : Nat) (k : Slot) (t : Timer) : Prop :=
  ∃ q, b ≤ q ∧ slotAt k.1 q = k ∧ 2 ^ k.1.shift ∣ q ∧ (k.1 ≠ .wheel1 → 0 < q) ∧
    q * T + start < t.expireTime + c

/-- The bounds `b` of the single wheels differ while an iteration cascades one after another. -/
def DueFrom (c : Nat) (b : Wheel → Nat) (s : TimerWheel) : Prop :=
  Each (fun k t => Due s.tickDuration s.startTime c (b k.1) k t) s

/-- Every stored timer is less than `2 ^ 32` ticks away from the clock value `now`. -/
def InRange (now : Nat) (s : TimerWheel) : Prop :=
  Each (fun _ t => (t.expireTime - now) / s.tickDuration < 2 ^ 32) s

lemma InRange.mono {now now' : Nat} {s : TimerWheel} (h : InRange now s) (hle : now ≤ now') :
    InRange now' s := by
  intro k t ht
  exact Nat.lt_of_le_of_lt (Nat.div_le_div_right (Nat.sub_le_sub_left hle _)) (h k t ht)

/-- A slot of `base + r` ticks is reached after `base`, and not after the expire time if the
rounding of `r` allows it. -/
lemma due_place {T start c b base r : Nat} {w : Wheel} {t : Timer} (hw : wheelFor r = some w)
    (hr : 0 < r) (hb : b ≤ base + 1) (ht : (base + r) * T + start < t.expireTime + c) :
    Due T start c b (slotAt w (base + r)) t := by
  have hlt := lt_visit_of_wheelFor base hw hr
  refine ⟨visit w (base + r), by omega, slotAt_visit w _, dvd_visit w _, fun _ => by omega, ?_⟩
  have hle := Nat.mul_le_mul_right T (visit_le w (base + r))
  omega

lemma Due.next {T start c m : Nat} {k : Slot} {t : Timer} (h : Due T start c m k t)
    (hne : ∀ q, slotAt k.1 q = k → 2 ^ k.1.shift ∣ q → (k.1 ≠ .wheel1 → 0 < q) → q ≠ m) :
    Due T start c (m + 1) k t := by
  obtain ⟨q, hq, hslot, hdvd, hpos, hx⟩ := h
  have := hne q hslot hdvd hpos
  exact ⟨q, by omega, hslot, hdvd, hpos, hx⟩

/-- The wheels are at tick `m` and the clock has reached it. -/
structure Reached (m : Nat) (s : TimerWheel) : Prop where
  currentTick : s.currentTick = m
  clock : m * s.tickDuration + s.startTime ≤ s.now

lemma Reached.later {m : Nat} {s s' : TimerWheel} (h : Reached m s) (hl : Later s s') :
    Reached m s' := by
  refine ⟨hl.currentTick.trans h.currentTick, ?_⟩
  rw [hl.tickDuration, hl.startTime]
  exact Nat.le_trans h.clock hl.now

/-- The cascade of wheel `w` at the current tick deals with the timers of `w` that are due now. -/
theorem cascadeIf_dueFrom {c m : Nat} {b : Wheel → Nat} {w : Wheel} {s : TimerWheel}
    (h : DueFrom c b s) (hm : Reached m s) (hw : w ≠ .wheel1) (hc : 0 < c)
    (hb : ∀ v, b v ≤ m + 1) (hbw : b w = m) :
    DueFrom c (Function.update b w (m + 1)) (cascadeIf w s) := by
  obtain ⟨rfl, hnow⟩ := hm
  have hl := (cascadeIf_worked w s).later
  unfold DueFrom
  rw [hl.tickDuration, hl.startTime]
  unfold cascadeIf
  have hother : ∀ k t, t ∈ s.slots k → k.1 ≠ w →
      Due s.tickDuration s.startTime c (Function.update b w (s.currentTick + 1) k.1) k t := by
    intro k t ht hk
    rw [Function.update_of_ne hk]
    exact h k t ht
  have hsame : ∀ k t, t ∈ s.slots k → k.1 = w →
      (∀ q, slotAt k.1 q = k → 2 ^ k.1.shift ∣ q → (k.1 ≠ .wheel1 → 0 < q) → q ≠ s.currentTick) →
      Due s.tickDuration s.startTime c (Function.update b w (s.currentTick + 1) k.1) k t := by
    intro k t ht hk hne
    have hd : Due s.tickDuration s.startTime c (b k.1) k t := h k t ht
    have hold : b k.1 = s.currentTick := by rw [hk, hbw]
    have hnew : Function.update b w (s.currentTick + 1) k.1 = s.currentTick + 1 := by
      rw [hk, Function.update_self]
    rw [hold] at hd
    rw [hnew]
    exact hd.next hne
  split
  · refine cascadeSlot_each (fun k hk t ht => ?_) (fun t ht nowNs v hge hx hr hv _ => ?_)
    · by_cases hkw : k.1 = w
      · refine hsame k t ht hkw (fun q hq _ _ hqm => hk ?_)
        rw [← hq, hkw, hqm]
      · exact hother k t ht hkw
    · -- the clock has reached the current tick, so rounding the remaining time down is enough
      refine due_place hv hr ?_ ?_
      · rw [Function.update_apply]
        split
        · exact Nat.le_refl _
        · exact hb _
      · have hdiv := Nat.div_mul_le_self (t.expireTime - nowNs) s.tickDuration
        rw [Nat.add_mul]
        omega
  · rename_i hskip
    intro k t ht
    by_cases hkw : k.1 = w
    · refine hsame k t ht hkw (fun q _ hdvd hpos hqm => hskip ?_)
      rw [← hqm, ← hkw]
      exact ⟨hdvd, hpos (hkw ▸ hw)⟩
    · exact hother k t ht hkw

/-- After the cascades only timers of the first wheel are due at the current tick. -/
lemma cascade_dueFrom {c m : Nat} {s : TimerWheel} (h : DueFrom c (fun _ => m) s)
    (hm : Reached m s) (hc : 0 < c) :
    DueFrom c (fun w => if w = .wheel1 then m else m + 1) s.cascade := by
  have hm2 := hm.later (cascadeIf_worked .wheel2 s).later
  have hm3 := hm2.later (cascadeIf_worked .wheel3 _).later
  have hm4 := hm3.later (cascadeIf_worked .wheel4 _).later
  have h2 := cascadeIf_dueFrom (w := .wheel2) h hm (by decide) hc (by simp) rfl
  have h3 := cascadeIf_dueFrom (w := .wheel3) h2 hm2 (by decide) hc
    (fun v => by simp only [Function.update_apply]; grind) (by simp)
  have h4 := cascadeIf_dueFrom (w := .wheel4) h3 hm3 (by decide) hc
    (fun v => by simp only [Function.update_apply]; grind) (by simp)
  have h5 := cascadeIf_dueFrom (w := .wheel5) h4 hm4 (by decide) hc
    (fun v => by simp only [Function.update_apply]; grind) (by simp)
  rw [cascade_eq]
  convert h5 using 2
  cases ‹Wheel› <;> simp

variable {process : TimerWheel → TimerWheel}

/-- One iteration leaves only timers that are due later. -/
theorem advance_dueFrom {c : Nat} {s : TimerWheel} (hp : Processes process)
    (h : DueFrom c (fun _ => s.currentTick) s)
    (hclock : s.currentTick * s.tickDuration + s.startTime ≤ s.now) (hc : 0 < c) :
    DueFrom c (fun _ => s.currentTick + 1) (s.advance process) := by
  have hcas := cascade_dueFrom h ⟨rfl, hclock⟩ hc
  have hl := (hp.worked s.cascade).later
  have hm : s.cascade.currentTick = s.currentTick := (cascade_worked s).later.currentTick
  intro k t ht
  change t ∈ (process s.cascade).slots k at ht
  change Due (process s.cascade).tickDuration (process s.cascade).startTime c _ k t
  rw [hp.slots, hm, Function.update_apply] at ht
  rw [hl.tickDuration, hl.startTime]
  split at ht
  · cases ht
  · rename_i hk
    have hd : Due _ _ c (if k.1 = .wheel1 then s.currentTick else s.currentTick + 1) k t := hcas k t ht
    split at hd
    · rename_i hw
      refine hd.next (fun q hq _ _ hqm => hk ?_)
      rw [← hq, hw, hqm]
    · exact hd

lemma cascadeIf_inRange {now : Nat} {w : Wheel} {s : TimerWheel} (h : InRange now s) :
    InRange now (cascadeIf w s) := by
  unfold InRange
  rw [(cascadeIf_worked w s).later.tickDuration]
  unfold cascadeIf
  split
  · exact cascadeSlot_each (fun k _ t ht => h k t ht) (fun t ht _ _ _ _ _ _ _ => h _ t ht)
  · exact h

lemma cascade_inRange {now : Nat} {s : TimerWheel} (h : InRange now s) (hle : now ≤ s.now) :
    InRange now s.cascade ∧ s.cascade.discarded = s.discarded := by
  have hres := cascade_induction
    (P := fun s' => InRange now s' ∧ now ≤ s'.now ∧ s'.discarded = s.discarded) ?_ ⟨h, hle, rfl⟩
  · exact ⟨hres.1, hres.2.2⟩
  · rintro w s' ⟨hr, hn, hd⟩
    refine ⟨cascadeIf_inRange hr, Nat.le_trans hn (cascadeIf_worked w s').later.now, ?_⟩
    rw [← hd]
    unfold cascadeIf
    split
    · exact cascadeSlot_discarded (fun t ht => hr.mono hn _ t ht)
    · rfl

/-- What holds of the wheels between the calls and between the iterations of `tick()`. -/
structure WheelOk (c : Nat) (s : TimerWheel) : Prop where
  start : s.startTime ≤ s.now
  due : DueFrom c (fun _ => s.currentTick) s
  range : InRange s.now s
  balanced : Balanced s
  skipped : SkippedOk s

lemma wheelOk_init (c T : Nat) (hT : 0 < T) (now : Nat) : WheelOk c (TimerWheel.init T hT now) := by
  refine ⟨Nat.le_refl _, fun k t ht => ?_, fun k t ht => ?_, ?_, fun t ht => ?_⟩
  · cases ht
  · cases ht
  · rw [Balanced, stored_init]
    rfl
  · cases ht

lemma slots_eq_nil {s : TimerWheel} (h : Balanced s) (hs : s.size = 0) (k : Slot) :
    s.slots k = [] := by
  have hzero : s.stored = 0 := Multiset.card_eq_zero.mp (h.symm.trans hs)
  refine List.eq_nil_iff_forall_not_mem.mpr (fun t ht => ?_)
  refine Multiset.notMem_zero t ?_
  rw [← hzero, mem_stored]
  exact ⟨k, ht⟩

lemma WheelOk.upcoming {c : Nat} {s : TimerWheel} (h : WheelOk c s) (events : List Event) :
    WheelOk c { s with upcoming := events } :=
  ⟨h.start, h.due, h.range, h.balanced, h.skipped⟩

lemma observe_ok {c : Nat} {s : TimerWheel} (h : WheelOk c s) : WheelOk c s.observe := by
  have hl := observe_later s
  have hw := observe_worked s
  obtain ⟨hslots, -⟩ := observe_eq s
  refine ⟨?_, ?_, ?_, hw.balanced h.balanced, hw.skipped h.skipped⟩
  · rw [hl.startTime]
    exact Nat.le_trans h.start hl.now
  · unfold DueFrom Each
    rw [hslots, hl.tickDuration, hl.startTime, hl.currentTick]
    exact h.due
  · unfold InRange Each
    rw [hslots, hl.tickDuration]
    exact h.range.mono hl.now

/-- Adding a timer. The slot may not have been passed, and the delay `r` may not reach beyond the
expire time by `c` or more. -/
theorem Fate.wheelOk {c base r : Nat} {s s' : TimerWheel} {t : Timer} (h : WheelOk c s)
    (hf : Fate false s.now base r s.size (s.size + 1) s t s') (hbase : s.currentTick ≤ base + 1)
    (hx : s.now < t.expireTime → (t.expireTime - s.now) / s.tickDuration ≤ r ∧
      (base + r) * s.tickDuration + s.startTime < t.expireTime + c) : WheelOk c s' := by
  have hl := hf.later
  have hnow : s'.now = s.now := by cases hf <;> rfl
  refine ⟨?_, ?_, ?_, ?_, hf.skippedOk h.skipped⟩
  · rw [hl.startTime, hnow]
    exact h.start
  · unfold DueFrom
    rw [hl.tickDuration, hl.startTime, hl.currentTick]
    exact hf.each h.due (fun w hlt hpos hw _ => due_place hw hpos hbase (hx hlt).2)
  · unfold InRange
    rw [hl.tickDuration, hnow]
    refine hf.each h.range (fun w hlt _ hw _ => Nat.lt_of_le_of_lt (hx hlt).1 ?_)
    exact Nat.not_le.mp (fun hle => by rw [wheelFor_eq_none.mpr hle] at hw; cases hw)
  · have hsize := hf.size_eq
    have hb : s.size = s.stored.card := h.balanced
    change s'.size = s'.stored.card
    omega

lemma advance_ok {c : Nat} {s : TimerWheel} (hp : Processes process) (hc : 0 < c)
    (h : WheelOk c s) (hclock : s.currentTick * s.tickDuration + s.startTime ≤ s.now) :
    WheelOk c (s.advance process) := by
  have hw := (cascade_worked s).trans (hp.worked s.cascade)
  obtain ⟨hr, -⟩ := cascade_inRange h.range (Nat.le_refl _)
  have hdue := advance_dueFrom hp h.due hclock hc
  refine ⟨?_, ?_, ?_, hw.balanced h.balanced, hw.skipped h.skipped⟩
  · change (process s.cascade).startTime ≤ (process s.cascade).now
    rw [hw.later.startTime]
    exact Nat.le_trans h.start hw.later.now
  · rw [advance_currentTick hp]
    exact hdue
  · intro k t ht
    change t ∈ (process s.cascade).slots k at ht
    rw [hp.slots, Function.update_apply] at ht
    split at ht
    · cases ht
    · have hlt := hr.mono hw.later.now k t ht
      rw [(cascade_worked s).later.tickDuration] at hlt
      change (t.expireTime - (process s.cascade).now) / (process s.cascade).tickDuration < 2 ^ 32
      rw [hw.later.tickDuration]
      exact hlt

lemma advance_discarded {s : TimerWheel} (hp : Processes process) (h : InRange s.now s) :
    (s.advance process).discarded = s.discarded :=
  (hp.discarded s.cascade).trans (cascade_inRange h (Nat.le_refl _)).2

/-- A timer that is still due after the target tick of a clock value does not expire much
before it. -/
lemma Due.late {T start c b now : Nat} {k : Slot} {t : Timer} (h : Due T start c b k t)
    (hT : 0 < T) (hb : (now - start) / T ≤ b) : now + 1 < t.expireTime + c + T := by
  obtain ⟨q, hq, -, -, -, hx⟩ := h
  have hlt := Nat.lt_mul_of_div_lt (Nat.lt_succ_of_le (Nat.le_trans hb hq)) hT
  rw [Nat.succ_mul] at hlt
  omega

/-- The wheels are not ahead of the clock. -/
def NotAhead (stopAt : Nat → Nat) (s : TimerWheel) : Prop :=
  s.currentTick ≤ stopAt ((s.now - s.startTime) / s.tickDuration)

lemma NotAhead.later {stopAt : Nat → Nat} {s s' : TimerWheel} (h : NotAhead stopAt s)
    (hs : StopAt stopAt) (hl : Later s s') : NotAhead stopAt s' := by
  unfold NotAhead
  rw [hl.currentTick, hl.startTime, hl.tickDuration]
  exact Nat.le_trans h (hs.mono _ _ (Nat.div_le_div_right (Nat.sub_le_sub_right hl.now _)))

/-- The loop of `tick()` for the target tick of the clock value `s.now`. -/
theorem catchUp_ok {c : Nat} {stopAt : Nat → Nat} {s s' : TimerWheel} (hp : Processes process)
    (hs : StopAt stopAt) (hc : 0 < c) (h : WheelOk c s) {target : Nat}
    (htarget : target = (s.now - s.startTime) / s.tickDuration) (hm : s.currentTick < target)
    (hs' : catchUp process (stopAt target) (stopAt target - s.currentTick) s = s') :
    (WheelOk c s' ∧ content s' = content s ∧ s'.discarded = s.discarded) ∧ SameBase s s' ∧
      s'.currentTick ≤ stopAt target ∧ (target ≤ s'.currentTick ∨ s'.size = 0) := by
  have hle := hs.le target
  have hsucc := hs.le_succ target
  have hres := catchUp_induction
    (P := fun s' => WheelOk c s' ∧ content s' = content s ∧ s'.discarded = s.discarded) hp
    (stopAt target) s ?_ (stopAt target - s.currentTick) ⟨h, rfl, rfl⟩ (.refl s) (by omega)
    (by omega)
  · obtain ⟨hok, hbase, hstop, hend⟩ := hs' ▸ hres
    exact ⟨hok, hbase, hstop, by omega⟩
  · rintro s' ⟨hok, hcontent, hdisc⟩ hbase hlt
    have hw := (cascade_worked s').trans (hp.worked s'.cascade)
    refine ⟨advance_ok hp hc hok (hbase.reached h.start (by omega)), hw.content.trans hcontent, ?_⟩
    exact (advance_discarded hp hok.range).trans hdisc

/-- What one `tick()` of a manager achieves. -/
structure Ticked (c : Nat) (stopAt : Nat → Nat) (s s' : TimerWheel) : Prop where
  ok : WheelOk c s'
  notAhead : NotAhead stopAt s'
  tickDuration : s'.tickDuration = s.tickDuration
  now : s.now ≤ s'.now
  content : content s' = content s
  discarded : s'.discarded = s.discarded
  late : Each (fun _ t => s.observe.now + 1 < t.expireTime + c + s.tickDuration) s'

lemma reset_ok {c : Nat} {s : TimerWheel} (h : WheelOk c s) (hs : s.size = 0) :
    WheelOk c s.reset := by
  have ho := observe_ok h
  have hempty : ∀ k, s.observe.slots k = [] := by
    rw [(observe_eq s).1]
    exact slots_eq_nil h.balanced hs
  refine ⟨Nat.le_refl _, fun k t ht => ?_, ho.range, ho.balanced, ho.skipped⟩
  change t ∈ s.observe.slots k at ht
  rw [hempty k] at ht
  cases ht

theorem tickWheel_ticked {c : Nat} {stopAt : Nat → Nat} {s : TimerWheel} (hp : Processes process)
    (hs : StopAt stopAt) (hc : 0 < c) (h : WheelOk c s) (hpos : NotAhead stopAt s) :
    Ticked c stopAt s (s.tickWheel process stopAt) := by
  have ho := observe_ok h
  have hl := observe_later s
  have hdisc := (observe_eq s).2.2.2.2.1
  unfold tickWheel
  split
  · rename_i hempty
    refine ⟨h, hpos, rfl, Nat.le_refl _, rfl, rfl, fun k t ht => ?_⟩
    rw [slots_eq_nil h.balanced hempty k] at ht
    cases ht
  · simp only
    split
    · rename_i htarget
      refine ⟨ho, hpos.later hs hl, hl.tickDuration, hl.now, content_observe s, hdisc,
        fun k t ht => ?_⟩
      have hd := (ho.due k t ht).late s.observe.tickDuration_pos htarget
      rwa [hl.tickDuration] at hd
    · rename_i htarget
      generalize hs' : catchUp process _ _ s.observe = s'
      obtain ⟨⟨hok, hcontent, hdisc'⟩, hbase, hstop, hend⟩ :=
        catchUp_ok hp hs hc ho rfl (Nat.not_le.mp htarget) hs'
      have hT := hbase.tickDuration.trans hl.tickDuration
      have hnow := Nat.le_trans hl.now hbase.now
      have hcon := hcontent.trans (content_observe s)
      split
      · rename_i hzero
        have hl' := observe_later s'
        refine ⟨reset_ok hok hzero, Nat.zero_le _, hl'.tickDuration.trans hT,
          Nat.le_trans hnow hl'.now, (content_observe s').trans hcon,
          (observe_eq s').2.2.2.2.1.trans (hdisc'.trans hdisc), fun k t ht => ?_⟩
        change t ∈ s'.observe.slots k at ht
        rw [(observe_eq s').1, slots_eq_nil hok.balanced hzero k] at ht
        cases ht
      · rename_i hne
        refine ⟨hok, ?_, hT, hnow, hcon, hdisc'.trans hdisc, fun k t ht => ?_⟩
        · unfold NotAhead
          rw [hbase.startTime, hbase.tickDuration]
          refine Nat.le_trans hstop (hs.mono _ _ (Nat.div_le_div_right ?_))
          exact Nat.sub_le_sub_right hbase.now _
        · have hd := hok.due k t ht
          simp only [hbase.startTime, hbase.tickDuration] at hd
          have hlate := hd.late s.observe.tickDuration_pos (hend.resolve_right hne)
          rwa [hl.tickDuration] at hlate

end GalayKernel.Proofs
