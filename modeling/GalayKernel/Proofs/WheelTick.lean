import GalayKernel.Proofs.WheelMoves

namespace GalayKernel.Proofs
open TimerWheel Transition

lemma cascadeIf_worked (w : Wheel) (s : TimerWheel) : Worked s (cascadeIf w s) := by
  unfold cascadeIf
  split
  · exact cascadeSlot_worked s _
  · exact .refl s

lemma cascade_worked (s : TimerWheel) : Worked s s.cascade := by
  rw [cascade_eq]
  exact (((cascadeIf_worked _ _).trans (cascadeIf_worked _ _)).trans (cascadeIf_worked _ _)).trans
    (cascadeIf_worked _ _)

/-- An invariant of the cascades of the wheels 2 to 5 is one of a whole iteration's cascades. -/
lemma cascade_induction {P : TimerWheel → Prop} (hstep : ∀ w s, P s → P (cascadeIf w s))
    {s : TimerWheel} (h : P s) : P s.cascade := by
  rw [cascade_eq]
  exact hstep _ _ (hstep _ _ (hstep _ _ (hstep _ _ h)))

lemma cascadeIf_handled {w : Wheel} {s : TimerWheel} {e : Timer × Nat}
    (he : e ∈ (cascadeIf w s).handled) :
    e ∈ s.handled ∨ e.1.expireTime < e.2 + s.tickDuration := by
  unfold cascadeIf at he
  split at he
  · exact cascadeSlot_handled he
  · exact .inl he

/-- A timer is skipped or handled, after its flags may have been read. -/
inductive Removal (s : TimerWheel) (t : Timer) : TimerWheel → Prop
  | skipped {s₁ : TimerWheel} (hread : s₁ = s ∨ s₁ = s.observe) (hflag : s₁.flagged t = true) :
      Removal s t { s₁.skip t with size := s₁.size - 1 }
  | handled {s₁ : TimerWheel} (hread : s₁ = s ∨ s₁ = s.observe) :
      Removal s t { s₁.handleTimeout t with size := s₁.size - 1 }

lemma read_eq {s s₁ : TimerWheel} (h : s₁ = s ∨ s₁ = s.observe) : Worked s s₁ ∧
    s₁.slots = s.slots ∧ s₁.size = s.size ∧ s₁.handled = s.handled ∧ s₁.skipped = s.skipped ∧
    s₁.discarded = s.discarded ∧ s₁.placed = s.placed := by
  rcases h with rfl | rfl
  · exact ⟨.refl _, rfl, rfl, rfl, rfl, rfl, rfl⟩
  · exact ⟨observe_worked s, observe_eq s⟩

lemma Removal.later {s s' : TimerWheel} {t : Timer} (h : Removal s t s') : Later s s' := by
  cases h with
  | skipped hread =>
    have hl := (read_eq hread).1.later
    exact ⟨hl.tickDuration, hl.startTime, hl.currentTick, hl.now, hl.cancelled, hl.handled,
      hl.placed⟩
  | handled hread =>
    have hl := (read_eq hread).1.later
    exact ⟨hl.tickDuration, hl.startTime, hl.currentTick, hl.now, hl.cancelled,
      List.subset_append_of_subset_left _ hl.handled, hl.placed⟩

lemma Removal.removed {s s' : TimerWheel} {t : Timer} (h : Removal s t s') :
    s'.removed = s.removed + {t} := by
  have hread_removed : ∀ {s₁ : TimerWheel}, s₁ = s ∨ s₁ = s.observe → s₁.removed = s.removed := by
    intro s₁ hread
    obtain ⟨-, -, -, hh, hk, hd, -⟩ := read_eq hread
    rw [TimerWheel.removed, hh, hk, hd]
    rfl
  cases h with
  | @skipped s₁ hread _ =>
    change (s₁.skip t).removed = _
    rw [removed_skip, hread_removed hread]
  | @handled s₁ hread =>
    change (s₁.handleTimeout t).removed = _
    rw [removed_handleTimeout, hread_removed hread]

lemma Removal.skippedOk {s s' : TimerWheel} {t : Timer} (h : Removal s t s') (hs : SkippedOk s) :
    SkippedOk s' := by
  have hl := h.later
  cases h with
  | handled hread => exact hs.mono hl (read_eq hread).2.2.2.2.1
  | skipped hread hflag =>
    have hs₁ := (read_eq hread).1.skipped hs
    intro u hu
    rcases List.mem_append.mp hu with hu | hu
    · exact hs₁ u hu
    · rw [List.mem_singleton.mp hu]
      exact flagged_iff.mp hflag

lemma Removal.frame {s s' : TimerWheel} {t : Timer} (h : Removal s t s') :
    s'.slots = s.slots ∧ s'.size = s.size - 1 ∧ s'.discarded = s.discarded := by
  cases h with
  | skipped hread | handled hread =>
    obtain ⟨-, hslots, hsize, -, -, hdisc, -⟩ := read_eq hread
    exact ⟨hslots, congrArg (· - 1) hsize, hdisc⟩

lemma Removal.mem_handled {s s' : TimerWheel} {t : Timer} (h : Removal s t s') {e : Timer × Nat}
    (he : e ∈ s'.handled) : e ∈ s.handled ∨ e.1 = t ∧ s.now ≤ e.2 := by
  cases h with
  | skipped hread => exact .inl ((read_eq hread).2.2.2.1 ▸ he)
  | handled hread =>
    rcases List.mem_append.mp he with he | he
    · exact .inl ((read_eq hread).2.2.2.1 ▸ he)
    · rw [List.mem_singleton.mp he]
      exact .inr ⟨rfl, (read_eq hread).1.later.now⟩

/-- The body of the loop in either version of `processWheel1`. -/
def Removes (f : TimerWheel → Timer → TimerWheel) : Prop := ∀ s t, Removal s t (f s t)

/-- What `processWheel1` does to the wheels. -/
structure Processes (process : TimerWheel → TimerWheel) : Prop where
  worked : ∀ s, Worked s (process s)
  slots : ∀ s, (process s).slots = Function.update s.slots (slotAt .wheel1 s.currentTick) []
  discarded : ∀ s, (process s).discarded = s.discarded
  handled : ∀ s, ∀ e ∈ (process s).handled, e ∈ s.handled ∨
    e.1 ∈ s.slots (slotAt .wheel1 s.currentTick) ∧ s.now ≤ e.2

lemma Removes.loop {f : TimerWheel → Timer → TimerWheel} (h : Removes f) (s : TimerWheel)
    (ts : List Timer) : Later s (ts.foldl f s) ∧ (ts.foldl f s).slots = s.slots ∧
      (ts.foldl f s).size = s.size - ts.length ∧ (ts.foldl f s).removed = s.removed + ts ∧
      (SkippedOk s → SkippedOk (ts.foldl f s)) ∧ (ts.foldl f s).discarded = s.discarded ∧
      ∀ e ∈ (ts.foldl f s).handled, e ∈ s.handled ∨ e.1 ∈ ts ∧ s.now ≤ e.2 := by
  induction ts generalizing s with
  | nil => exact ⟨.refl s, rfl, rfl, (add_zero _).symm, id, rfl, fun _ he => .inl he⟩
  | cons t ts ih =>
    obtain ⟨hl, hs, hn, hr, hk, hd, hh⟩ := ih (f s t)
    obtain ⟨hslots, hsize, hdisc⟩ := (h s t).frame
    refine ⟨(h s t).later.trans hl, hs.trans hslots, ?_, ?_, hk ∘ (h s t).skippedOk,
      hd.trans hdisc, fun e he => ?_⟩
    · rw [List.foldl_cons, hn, hsize, List.length_cons]
      omega
    · rw [List.foldl_cons, hr, (h s t).removed, add_assoc]
      rfl
    · rcases hh e he with he | ⟨hmem, hle⟩
      · rcases (h s t).mem_handled he with he | ⟨rfl, hle⟩
        · exact .inl he
        · exact .inr ⟨List.mem_cons_self, hle⟩
      · exact .inr ⟨List.mem_cons_of_mem _ hmem, Nat.le_trans (h s t).later.now hle⟩

theorem Removes.processes {f : TimerWheel → Timer → TimerWheel} (h : Removes f) :
    Processes (processSlot f) where
  worked s := by
    obtain ⟨hl, hs, hn, hr, hk, -, -⟩ := h.loop s (s.slots (slotAt .wheel1 s.currentTick))
    have hstored : (processSlot f s).stored + s.slots (slotAt .wheel1 s.currentTick) = s.stored := by
      unfold stored processSlot
      simp only
      rw [hs]
      exact Buckets.total_clear s.slots _
    refine ⟨⟨hl.tickDuration, hl.startTime, hl.currentTick, hl.now, hl.cancelled, hl.handled,
      hl.placed⟩, ?_, fun hb => ?_, hk⟩
    · change (processSlot f s).stored + ((s.slots _).foldl f s).removed = content s
      rw [content, hr, ← hstored, ← add_assoc, add_right_comm]
    · have hcard := congrArg Multiset.card hstored
      rw [Multiset.card_add, Multiset.coe_card, ← hb] at hcard
      change ((s.slots _).foldl f s).size = _
      omega
  slots s := by
    obtain ⟨-, hs, -⟩ := h.loop s (s.slots (slotAt .wheel1 s.currentTick))
    unfold processSlot
    simp only
    rw [hs]
  discarded s := (h.loop s _).2.2.2.2.2.1
  handled s := (h.loop s _).2.2.2.2.2.2

variable {process : TimerWheel → TimerWheel}

lemma advance_currentTick (h : Processes process) (s : TimerWheel) :
    (s.advance process).currentTick = s.currentTick + 1 := by
  have hp := (h.worked s.cascade).later.currentTick
  have hc := (cascade_worked s).later.currentTick
  simp only [advance]
  omega

/-- What an iteration of the loop does not change, and the clock. -/
structure SameBase (s s' : TimerWheel) : Prop where
  tickDuration : s'.tickDuration = s.tickDuration
  startTime : s'.startTime = s.startTime
  now : s.now ≤ s'.now

lemma SameBase.refl (s : TimerWheel) : SameBase s s := ⟨rfl, rfl, Nat.le_refl _⟩

lemma SameBase.advance {s s' : TimerWheel} (h : SameBase s s') (hp : Processes process) :
    SameBase s (s'.advance process) := by
  have hl := (cascade_worked s').later.trans (hp.worked s'.cascade).later
  exact ⟨hl.tickDuration.trans h.tickDuration, hl.startTime.trans h.startTime,
    Nat.le_trans h.now hl.now⟩

lemma SameBase.reached {s s' : TimerWheel} (h : SameBase s s') (hstart : s.startTime ≤ s.now)
    {n : Nat} (hn : n ≤ (s.now - s.startTime) / s.tickDuration) :
    n * s'.tickDuration + s'.startTime ≤ s'.now := by
  have hmul := Nat.mul_le_mul_right s.tickDuration hn
  have hdiv := Nat.div_mul_le_self (s.now - s.startTime) s.tickDuration
  have hnow := h.now
  rw [h.tickDuration, h.startTime]
  omega

/-- An invariant of the iterations holds after the loop, which runs to `stop` or until the
wheels are empty. -/
theorem catchUp_induction {P : TimerWheel → Prop} (h : Processes process) (stop : Nat)
    (base : TimerWheel)
    (hstep : ∀ s, P s → SameBase base s → s.currentTick < stop → P (s.advance process))
    (fuel : Nat) {s : TimerWheel} (hs : P s) (hbase : SameBase base s)
    (hfuel : stop ≤ s.currentTick + fuel) (hstop : s.currentTick ≤ stop) :
    P (catchUp process stop fuel s) ∧ SameBase base (catchUp process stop fuel s) ∧
      (catchUp process stop fuel s).currentTick ≤ stop ∧
      (stop ≤ (catchUp process stop fuel s).currentTick ∨ (catchUp process stop fuel s).size = 0) := by
  induction fuel generalizing s with
  | zero => exact ⟨hs, hbase, hstop, .inl hfuel⟩
  | succ fuel ih =>
    rw [catchUp]
    split
    · rename_i hlt
      have hnext := advance_currentTick h s
      exact ih (hstep s hs hbase hlt.1) (hbase.advance h) (by omega) (by omega)
    · exact ⟨hs, hbase, hstop, by omega⟩

/-- `stopAt` is the target tick or the one after it. -/
structure StopAt (stopAt : Nat → Nat) : Prop where
  le : ∀ n, n ≤ stopAt n
  le_succ : ∀ n, stopAt n ≤ n + 1
  mono : ∀ m n, m ≤ n → stopAt m ≤ stopAt n

/-- An invariant of the parts of `tick()` is one of `tick()`. An iteration may use that its tick
is before the stop of a tick `n` that the clock has reached. -/
theorem tickWheel_induction {P : TimerWheel → Prop} {stopAt : Nat → Nat} (h : Processes process)
    (hstop : StopAt stopAt) (hstart : ∀ s, P s → s.startTime ≤ s.now)
    (hobserve : ∀ s, P s → P s.observe)
    (hstep : ∀ s n, P s → s.currentTick < stopAt n → n * s.tickDuration + s.startTime ≤ s.now →
      P (s.advance process))
    (hreset : ∀ s, P s → s.size = 0 → P s.reset) {s : TimerWheel} (hs : P s) :
    P (s.tickWheel process stopAt) := by
  have ho := hobserve s hs
  unfold tickWheel
  split
  · exact hs
  · simp only
    generalize hn : (s.observe.now - s.observe.startTime) / s.observe.tickDuration = n
    split
    · exact ho
    · have hle := hstop.le n
      obtain ⟨hend, -⟩ := catchUp_induction (P := P) h (stopAt n) s.observe
        (fun s' hs' hbase hlt => hstep s' n hs' hlt (hbase.reached (hstart _ ho) (hn ▸ Nat.le_refl _)))
        (stopAt n - s.observe.currentTick) ho (.refl _) (by omega) (by omega)
      split
      · exact hreset _ hend ‹_›
      · exact hend

end GalayKernel.Proofs
