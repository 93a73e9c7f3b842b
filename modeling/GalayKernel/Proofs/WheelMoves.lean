import GalayKernel.Lib.Buckets
import GalayKernel.Lib.Transition
import GalayKernel.Proofs.WheelSlots

namespace GalayKernel.Proofs
open TimerWheel Transition

/-- What stays and what grows while a manager works on its wheels. -/
structure Later (s s' : TimerWheel) : Prop where
  tickDuration : s'.tickDuration = s.tickDuration
  startTime : s'.startTime = s.startTime
  currentTick : s'.currentTick = s.currentTick
  now : s.now ≤ s'.now
  cancelled : s.cancelled ⊆ s'.cancelled
  handled : s.handled ⊆ s'.handled
  placed : s.placed ⊆ s'.placed

lemma Later.refl (s : TimerWheel) : Later s s :=
  ⟨rfl, rfl, rfl, Nat.le_refl _, List.Subset.refl _, List.Subset.refl _, List.Subset.refl _⟩

lemma Later.trans {s s' s'' : TimerWheel} (h : Later s s') (h' : Later s' s'') : Later s s'' :=
  ⟨h'.tickDuration.trans h.tickDuration, h'.startTime.trans h.startTime,
    h'.currentTick.trans h.currentTick, Nat.le_trans h.now h'.now,
    List.Subset.trans h.cancelled h'.cancelled, List.Subset.trans h.handled h'.handled,
    List.Subset.trans h.placed h'.placed⟩

lemma observe_later (s : TimerWheel) : Later s s.observe := by
  unfold observe
  split
  · exact .refl s
  · exact ⟨rfl, rfl, rfl, Nat.le_add_right _ _, List.subset_append_left _ _, List.Subset.refl _,
      List.Subset.refl _⟩

lemma observe_eq (s : TimerWheel) : s.observe.slots = s.slots ∧ s.observe.size = s.size ∧
    s.observe.handled = s.handled ∧ s.observe.skipped = s.skipped ∧
    s.observe.discarded = s.discarded ∧ s.observe.placed = s.placed := by
  unfold observe
  split <;> exact ⟨rfl, rfl, rfl, rfl, rfl, rfl⟩

lemma getExpireTime_cases (s : TimerWheel) (t : Timer) :
    (s.getExpireTime t).2 = s ∨ (s.getExpireTime t).2 = s.observe := by
  unfold getExpireTime
  split
  · exact .inr rfl
  · exact .inl rfl

def content (s : TimerWheel) : Multiset Timer := s.stored + s.removed

lemma stored_init (T : Nat) (hT : 0 < T) (now : Nat) : (TimerWheel.init T hT now).stored = 0 := by
  simp only [stored, TimerWheel.init, Buckets.total_empty]

lemma content_init (T : Nat) (hT : 0 < T) (now : Nat) : content (TimerWheel.init T hT now) = 0 := by
  rw [content, stored_init]
  simp [removed, TimerWheel.init]

lemma content_observe (s : TimerWheel) : content s.observe = content s := by
  obtain ⟨hslots, -, hh, hk, hd, -⟩ := observe_eq s
  unfold content stored removed
  rw [hslots, hh, hk, hd]

lemma removed_skip (s : TimerWheel) (t : Timer) : (s.skip t).removed = s.removed + {t} := by
  simp only [removed, skip, ← Multiset.coe_add, Multiset.coe_singleton]
  abel

lemma removed_handleTimeout (s : TimerWheel) (t : Timer) :
    (s.handleTimeout t).removed = s.removed + {t} := by
  simp only [removed, handleTimeout, List.map_append, List.map_cons, List.map_nil,
    ← Multiset.coe_add, Multiset.coe_singleton]
  abel

lemma removed_discard (s : TimerWheel) (t : Timer) :
    (TimerWheel.discard s t).removed = s.removed + {t} := by
  simp only [removed, TimerWheel.discard, ← Multiset.coe_add, Multiset.coe_singleton, add_assoc]

lemma mem_stored {s : TimerWheel} {t : Timer} : t ∈ s.stored ↔ ∃ k, t ∈ s.slots k := by
  rw [stored, Buckets.mem_total]

lemma mem_content {s : TimerWheel} {t : Timer} : t ∈ content s ↔ t ∈ s.stored ∨
    (∃ e ∈ s.handled, e.1 = t) ∨ t ∈ s.skipped ∨ t ∈ s.discarded := by
  simp only [content, removed, Multiset.mem_add, Multiset.mem_coe, List.mem_map, or_assoc]

def Each (P : Slot → Timer → Prop) (s : TimerWheel) : Prop := ∀ k, ∀ t ∈ s.slots k, P k t

def SkippedOk (s : TimerWheel) : Prop :=
  ∀ t ∈ s.skipped, (∃ h ∈ s.handled, h.1.id = t.id) ∨ t.id ∈ s.cancelled

lemma SkippedOk.mono {s s' : TimerWheel} (h : SkippedOk s) (hl : Later s s')
    (hk : s'.skipped = s.skipped) : SkippedOk s' := by
  intro t ht
  rw [hk] at ht
  rcases h t ht with ⟨e, he, hid⟩ | hc
  · exact .inl ⟨e, hl.handled he, hid⟩
  · exact .inr (hl.cancelled hc)

lemma flagged_iff {s : TimerWheel} {t : Timer} :
    s.flagged t = true ↔ (∃ h ∈ s.handled, h.1.id = t.id) ∨ t.id ∈ s.cancelled := by
  simp [flagged, done]

/-- What becomes of a timer whose slot is `base + r` ticks from the start of the wheel, by the
clock value `nowNs`. `gone` and `kept` are the sizes of the wheels with and without it. -/
inductive Fate (cascaded : Bool) (nowNs base r gone kept : Nat) (s : TimerWheel) (t : Timer) :
    TimerWheel → Prop
  | skipped (hflag : s.flagged t = true) :
      Fate cascaded nowNs base r gone kept s t { s.skip t with size := gone }
  | handled (hdue : t.expireTime < nowNs + s.tickDuration) :
      Fate cascaded nowNs base r gone kept s t { s.handleTimeout t with size := gone }
  | placed {w : Wheel} (hx : nowNs < t.expireTime) (hpos : 0 < r) (hw : wheelFor r = some w) :
      Fate cascaded nowNs base r gone kept s t
        { s.place cascaded nowNs w (base + r) t with size := kept }
  | discarded (hfar : 2 ^ 32 ≤ r) :
      Fate cascaded nowNs base r gone kept s t { s.discard t with size := gone }

lemma lt_add_of_div_eq_zero {x now T : Nat} (hT : 0 < T) (h : (x - now) / T = 0) : x < now + T := by
  rcases Nat.div_eq_zero_iff.mp h with h | h <;> omega

/-- The body of the loop in `cascadeSlot`. -/
theorem cascadeTimer_fate (nowNs : Nat) (s : TimerWheel) (t : Timer) :
    Fate true nowNs s.observe.currentTick ((t.expireTime - nowNs) / s.observe.tickDuration)
      (s.observe.size - 1) s.observe.size s.observe t (cascadeTimer nowNs s t) := by
  unfold cascadeTimer
  simp only
  split
  · exact .skipped ‹_›
  · split
    · refine .handled (Nat.lt_of_le_of_lt ‹_› ?_)
      exact Nat.lt_add_of_pos_right s.observe.tickDuration_pos
    · split
      · exact .handled (lt_add_of_div_eq_zero s.observe.tickDuration_pos ‹_›)
      · split
        · exact .placed (by omega) (Nat.pos_of_ne_zero ‹_›) ‹_›
        · exact .discarded (wheelFor_eq_none.mp ‹_›)

section Fate

variable {cascaded : Bool} {nowNs base r gone kept : Nat} {s s' : TimerWheel} {t : Timer}

lemma Fate.later (h : Fate cascaded nowNs base r gone kept s t s') : Later s s' := by
  cases h with
  | skipped | discarded => exact ⟨rfl, rfl, rfl, Nat.le_refl _, List.Subset.refl _,
      List.Subset.refl _, List.Subset.refl _⟩
  | handled => exact ⟨rfl, rfl, rfl, Nat.le_refl _, List.Subset.refl _,
      List.subset_append_left _ _, List.Subset.refl _⟩
  | placed => exact ⟨rfl, rfl, rfl, Nat.le_refl _, List.Subset.refl _, List.Subset.refl _,
      List.subset_append_left _ _⟩

lemma stored_place (s : TimerWheel) (cascaded : Bool) (nowNs : Nat) (w : Wheel) (tick : Nat)
    (t : Timer) : (s.place cascaded nowNs w tick t).stored = s.stored + {t} :=
  Buckets.total_pushBack s.slots (slotAt w tick) t

lemma Fate.content_eq (h : Fate cascaded nowNs base r gone kept s t s') :
    content s' = content s + {t} := by
  cases h with
  | skipped =>
    change s.stored + (s.skip t).removed = _
    rw [removed_skip, content, add_assoc]
  | handled =>
    change s.stored + (s.handleTimeout t).removed = _
    rw [removed_handleTimeout, content, add_assoc]
  | discarded =>
    change s.stored + (TimerWheel.discard s t).removed = _
    rw [removed_discard, content, add_assoc]
  | placed =>
    change (s.place cascaded nowNs _ _ t).stored + s.removed = _
    rw [stored_place, content, add_right_comm]

lemma Fate.size_eq (h : Fate cascaded nowNs base r gone (gone + 1) s t s') :
    s'.size + s.stored.card = gone + s'.stored.card := by
  cases h with
  | skipped | discarded | handled => rfl
  | placed =>
    change gone + 1 + _ = gone + (s.place cascaded nowNs _ _ t).stored.card
    rw [stored_place, Multiset.card_add, Multiset.card_singleton]
    omega

/-- Only the timer itself is put into a slot, at the recorded moment. -/
lemma Fate.each {P : Slot → Timer → Prop} (h : Fate cascaded nowNs base r gone kept s t s')
    (hP : Each P s)
    (ht : ∀ w, nowNs < t.expireTime → 0 < r → wheelFor r = some w →
      ⟨t, w, cascaded, nowNs, s.currentTick, s.startTime⟩ ∈ s'.placed →
      P (slotAt w (base + r)) t) : Each P s' := by
  cases h with
  | skipped | discarded | handled => exact hP
  | @placed w hx hpos hw =>
    intro k u hu
    simp only [place, Function.update_apply] at hu
    split at hu
    · rename_i hk
      subst hk
      rcases List.mem_append.mp hu with hu | hu
      · exact hP _ u hu
      · rw [List.mem_singleton.mp hu]
        exact ht w hx hpos hw (List.mem_append_right _ (List.mem_singleton.mpr rfl))
    · exact hP k u hu

/-- A timer is only handled less than a tick before its expire time. -/
lemma Fate.mem_handled (h : Fate cascaded nowNs base r gone kept s t s') {e : Timer × Nat}
    (he : e ∈ s'.handled) :
    e ∈ s.handled ∨ e = (t, s.now) ∧ t.expireTime < nowNs + s.tickDuration := by
  cases h with
  | skipped | discarded | placed => exact .inl he
  | handled hdue =>
    rcases List.mem_append.mp he with he | he
    · exact .inl he
    · exact .inr ⟨List.mem_singleton.mp he, hdue⟩

lemma Fate.discarded_eq (h : Fate cascaded nowNs base r gone kept s t s') (hr : r < 2 ^ 32) :
    s'.discarded = s.discarded := by
  cases h with
  | skipped | handled | placed => rfl
  | discarded hfar => omega

lemma Fate.skippedOk (h : Fate cascaded nowNs base r gone kept s t s') (hs : SkippedOk s) :
    SkippedOk s' := by
  have hl := h.later
  cases h with
  | discarded | handled | placed => exact hs.mono hl rfl
  | skipped hflag =>
    intro u hu
    rcases List.mem_append.mp hu with hu | hu
    · exact hs u hu
    · rw [List.mem_singleton.mp hu]
      exact flagged_iff.mp hflag

end Fate

def Balanced (s : TimerWheel) : Prop := s.size = s.stored.card

/-- What every part of `tick()` does: no timer is lost and the wheels stay balanced. -/
structure Worked (s s' : TimerWheel) : Prop where
  later : Later s s'
  content : content s' = content s
  balanced : Balanced s → Balanced s'
  skipped : SkippedOk s → SkippedOk s'

lemma Worked.refl (s : TimerWheel) : Worked s s := ⟨.refl s, rfl, id, id⟩

lemma Worked.trans {s s' s'' : TimerWheel} (h : Worked s s') (h' : Worked s' s'') : Worked s s'' :=
  ⟨h.later.trans h'.later, h'.content.trans h.content, h'.balanced ∘ h.balanced,
    h'.skipped ∘ h.skipped⟩

lemma observe_worked (s : TimerWheel) : Worked s s.observe := by
  obtain ⟨hslots, hsize, -, hk, -⟩ := observe_eq s
  refine ⟨observe_later s, content_observe s, fun h => ?_, fun h => h.mono (observe_later s) hk⟩
  unfold Balanced stored at *
  rw [hslots, hsize, h]

def opened (s : TimerWheel) (slot : Slot) : TimerWheel :=
  ({ s with slots := Function.update s.slots slot [] } : TimerWheel).observe

lemma cascadeSlot_eq (s : TimerWheel) (slot : Slot) : s.cascadeSlot slot =
    (s.slots slot).foldl (cascadeTimer (opened s slot).now) (opened s slot) := rfl

lemma opened_later (s : TimerWheel) (slot : Slot) : Later s (opened s slot) := by
  have h := observe_later { s with slots := Function.update s.slots slot [] }
  exact ⟨h.tickDuration, h.startTime, h.currentTick, h.now, h.cancelled, h.handled, h.placed⟩

lemma opened_slots (s : TimerWheel) (slot : Slot) :
    (opened s slot).slots = Function.update s.slots slot [] := (observe_eq _).1

lemma opened_stored (s : TimerWheel) (slot : Slot) :
    (opened s slot).stored + s.slots slot = s.stored := by
  unfold stored
  rw [opened_slots]
  exact Buckets.total_clear s.slots slot

lemma cascadeTimer_later (nowNs : Nat) (s : TimerWheel) (t : Timer) :
    Later s (cascadeTimer nowNs s t) :=
  (observe_later s).trans (cascadeTimer_fate nowNs s t).later

lemma cascadeTimers_later (nowNs : Nat) (ts : List Timer) (s : TimerWheel) :
    Later s (ts.foldl (cascadeTimer nowNs) s) :=
  foldl_rest (P := fun _ s' => Later s s')
    (fun t _ s' h => h.trans (cascadeTimer_later nowNs s' t)) ts s (.refl s)

lemma cascadeTimer_content (nowNs : Nat) (s : TimerWheel) (t : Timer) :
    content (cascadeTimer nowNs s t) = content s + {t} := by
  rw [(cascadeTimer_fate nowNs s t).content_eq, content_observe]

lemma cascadeTimer_size {nowNs n : Nat} {s : TimerWheel} {t : Timer}
    (h : s.size = s.stored.card + (n + 1)) :
    (cascadeTimer nowNs s t).size = (cascadeTimer nowNs s t).stored.card + n := by
  have hf := cascadeTimer_fate nowNs s t
  obtain ⟨hslots, hsize, -⟩ := observe_eq s
  have hkept : s.observe.size = s.observe.size - 1 + 1 := by omega
  rw [hkept] at hf
  have hs := hf.size_eq
  have hcard : s.observe.stored.card = s.stored.card := by
    unfold stored
    rw [hslots]
  omega

lemma opened_content (s : TimerWheel) (slot : Slot) :
    content (opened s slot) + s.slots slot = content s := by
  have hremoved : (opened s slot).removed = s.removed := by
    obtain ⟨-, -, hh, hk, hd, -⟩ := observe_eq { s with slots := Function.update s.slots slot [] }
    unfold opened removed
    rw [hh, hk, hd]
  rw [content, content, ← opened_stored s slot, hremoved, add_right_comm]

theorem cascadeSlot_worked (s : TimerWheel) (slot : Slot) : Worked s (s.cascadeSlot slot) := by
  obtain ⟨-, hsize, -, hk, -⟩ := observe_eq { s with slots := Function.update s.slots slot [] }
  rw [cascadeSlot_eq]
  refine ⟨?_, ?_, fun hb => ?_, fun hs => ?_⟩
  · exact (opened_later s slot).trans (cascadeTimers_later _ _ _)
  · have h := foldl_rest (f := cascadeTimer (opened s slot).now)
      (P := fun (ts : List Timer) (s' : TimerWheel) => content s' + (ts : Multiset Timer) = content s)
      ?_ (s.slots slot) (opened s slot) (opened_content s slot)
    · rwa [Multiset.coe_nil, add_zero] at h
    · intro t ts s' h
      rw [cascadeTimer_content, add_assoc]
      exact h
  · have h := foldl_rest (f := cascadeTimer (opened s slot).now)
      (P := fun (ts : List Timer) (s' : TimerWheel) => s'.size = s'.stored.card + ts.length)
      (fun t ts s' h => cascadeTimer_size h) (s.slots slot) (opened s slot) ?_
    · rwa [List.length_nil, Nat.add_zero] at h
    · rw [← Multiset.coe_card, ← Multiset.card_add, opened_stored]
      exact hsize.trans hb
  · refine foldl_rest (P := fun _ s' => SkippedOk s') ?_ _ _ (hs.mono (opened_later s slot) hk)
    intro t _ s' h
    have ho := h.mono (observe_later s') (observe_eq s').2.2.2.1
    exact (cascadeTimer_fate _ s' t).skippedOk ho

/-- Where the timers of a cascaded slot go, by the clock value read at its beginning. -/
theorem cascadeSlot_each {P : Slot → Timer → Prop} {s : TimerWheel} {slot : Slot}
    (hP : ∀ k ≠ slot, ∀ t ∈ s.slots k, P k t)
    (hp : ∀ t ∈ s.slots slot, ∀ nowNs w, s.now ≤ nowNs → nowNs < t.expireTime →
      0 < (t.expireTime - nowNs) / s.tickDuration →
      wheelFor ((t.expireTime - nowNs) / s.tickDuration) = some w →
      ⟨t, w, true, nowNs, s.currentTick, s.startTime⟩ ∈ (s.cascadeSlot slot).placed →
      P (slotAt w (s.currentTick + (t.expireTime - nowNs) / s.tickDuration)) t) :
    Each P (s.cascadeSlot slot) := by
  rw [cascadeSlot_eq] at hp ⊢
  have hrest := foldl_rest (f := cascadeTimer (opened s slot).now)
    (P := fun (ts : List Timer) (s' : TimerWheel) => Each P s' ∧ Later s s' ∧ ts ⊆ s.slots slot ∧
      (ts.foldl (cascadeTimer (opened s slot).now) s') =
        (s.slots slot).foldl (cascadeTimer (opened s slot).now) (opened s slot)) ?_
    (s.slots slot) (opened s slot) ⟨?_, opened_later s slot, List.Subset.refl _, rfl⟩
  · exact hrest.1
  · rintro t ts s' ⟨heach, hl, hsub, hend⟩
    have hf := cascadeTimer_fate (opened s slot).now s' t
    have hlo := hl.trans (observe_later s')
    rw [hlo.currentTick, hlo.tickDuration] at hf
    refine ⟨hf.each ?_ (fun w hx hpos hw hmem => ?_), hl.trans (cascadeTimer_later _ s' t),
      fun u hu => hsub (List.mem_cons_of_mem _ hu), hend⟩
    · intro k u hu
      rw [(observe_eq s').1] at hu
      exact heach k u hu
    · rw [hlo.currentTick, hlo.startTime] at hmem
      refine hp t (hsub List.mem_cons_self) _ w (opened_later s slot).now hx hpos hw ?_
      rw [← hend]
      exact (cascadeTimers_later _ ts _).placed hmem
  · intro k t ht
    rw [opened_slots, Function.update_apply] at ht
    split at ht
    · cases ht
    · exact hP k ‹_› t ht

/-- A cascade handles a timer less than a tick before its expire time. -/
lemma cascadeSlot_handled {s : TimerWheel} {slot : Slot} {e : Timer × Nat}
    (he : e ∈ (s.cascadeSlot slot).handled) :
    e ∈ s.handled ∨ e.1.expireTime < e.2 + s.tickDuration := by
  rw [cascadeSlot_eq] at he
  have hrest := foldl_rest (f := cascadeTimer (opened s slot).now)
    (P := fun (_ : List Timer) (s' : TimerWheel) => Later (opened s slot) s' ∧
      ∀ e ∈ s'.handled, e ∈ s.handled ∨ e.1.expireTime < e.2 + s.tickDuration) ?_
    (s.slots slot) (opened s slot) ⟨.refl _, fun e he => .inl ?_⟩
  · exact hrest.2 e he
  · rintro t ts s' ⟨hl, hs'⟩
    have hlo := hl.trans (observe_later s')
    refine ⟨hl.trans (cascadeTimer_later _ s' t), fun e he => ?_⟩
    rcases (cascadeTimer_fate _ s' t).mem_handled he with he | ⟨rfl, hdue⟩
    · rw [(observe_eq s').2.2.1] at he
      exact hs' e he
    · rw [hlo.tickDuration, (opened_later s slot).tickDuration] at hdue
      have hnow := hlo.now
      exact .inr (by simp only; omega)
  · obtain ⟨-, -, hh, -⟩ := observe_eq { s with slots := Function.update s.slots slot [] }
    rw [opened, hh] at he
    exact he

/-- A cascade drops no timer that was in range when its slot was opened. -/
lemma cascadeSlot_discarded {s : TimerWheel} {slot : Slot}
    (hr : ∀ t ∈ s.slots slot, (t.expireTime - s.now) / s.tickDuration < 2 ^ 32) :
    (s.cascadeSlot slot).discarded = s.discarded := by
  rw [cascadeSlot_eq]
  have hrest := foldl_rest (f := cascadeTimer (opened s slot).now)
    (P := fun (ts : List Timer) (s' : TimerWheel) => Later (opened s slot) s' ∧
      ts ⊆ s.slots slot ∧ s'.discarded = s.discarded) ?_
    (s.slots slot) (opened s slot) ⟨.refl _, List.Subset.refl _, ?_⟩
  · exact hrest.2.2
  · rintro t ts s' ⟨hl, hsub, hd⟩
    have hf := cascadeTimer_fate (opened s slot).now s' t
    have hlo := (opened_later s slot).trans (hl.trans (observe_later s'))
    rw [hlo.tickDuration] at hf
    refine ⟨hl.trans (cascadeTimer_later _ s' t), fun u hu => hsub (List.mem_cons_of_mem _ hu), ?_⟩
    rw [hf.discarded_eq, (observe_eq s').2.2.2.2.1, hd]
    refine Nat.lt_of_le_of_lt (Nat.div_le_div_right ?_) (hr t (hsub List.mem_cons_self))
    exact Nat.sub_le_sub_left (opened_later s slot).now _
  · obtain ⟨-, -, -, -, hd, -⟩ := observe_eq { s with slots := Function.update s.slots slot [] }
    rw [opened, hd]

end GalayKernel.Proofs
