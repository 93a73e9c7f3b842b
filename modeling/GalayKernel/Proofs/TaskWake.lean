import GalayKernel.TaskWake

namespace GalayKernel.TaskWake

variable {σ : Type} {w w' : TaskWake σ} {x src : σ}

lemma pending_request (w : TaskWake σ) (src : σ) : (w.requestTaskResume src).pending =
    if w.queued = true then w.pending else w.scheduling ++ [src] ++ w.ready ++ w.resuming.toList := by
  unfold requestTaskResume
  split <;> rfl

lemma pending_request_ne_nil (w : TaskWake σ) (src : σ) :
    (w.requestTaskResume src).pending ≠ [] := by
  rw [pending_request]
  split
  · exact w.covered ‹_›
  · simp

lemma mem_pending_request (h : x ∈ (w.requestTaskResume src).pending) :
    x ∈ w.pending ∨ x = src := by
  rw [pending_request] at h
  split at h
  · exact .inl h
  · simp only [pending, List.mem_append, List.mem_singleton] at h ⊢
    tauto

lemma mem_pending_enqueue (h : x ∈ (w.enqueue src).pending) : x ∈ w.pending ∨ x = src := by
  simp only [pending, enqueue, List.mem_append, List.mem_singleton] at h ⊢
  tauto

lemma pending_enqueue_ne_nil (w : TaskWake σ) (src : σ) : (w.enqueue src).pending ≠ [] := by
  simp [pending, enqueue]

lemma pending_resume (h : w.resume = some w') : ∃ src, w.pending = w'.pending ++ [src] := by
  obtain ⟨hsome, ⟨⟩⟩ := Option.ite_none_right_eq_some.mp h
  obtain ⟨src, hsrc⟩ := Option.isSome_iff_exists.mp hsome
  exact ⟨src, by simp [pending, hsrc]⟩

lemma mem_of_mem_resume (h : w.resume = some w') (hx : x ∈ w'.pending) : x ∈ w.pending := by
  obtain ⟨src, hsrc⟩ := pending_resume h
  exact hsrc ▸ List.mem_append_left _ hx

lemma resuming_request (w : TaskWake σ) (src : σ) :
    (w.requestTaskResume src).resuming = w.resuming := by
  unfold requestTaskResume
  split <;> rfl

lemma resuming_resume (h : w.resume = some w') : w.resuming ≠ none ∧ w'.resuming = none := by
  obtain ⟨hsome, ⟨⟩⟩ := Option.ite_none_right_eq_some.mp h
  exact ⟨Option.isSome_iff_ne_none.mp hsome, rfl⟩

lemma pending_of_resuming (h : w.resuming ≠ none) : w.pending ≠ [] := by
  simp [pending, h]

lemma flagged_init : (init : TaskWake σ).Flagged := rfl

lemma Flagged.request (h : w.Flagged) (src : σ) : (w.requestTaskResume src).Flagged := by
  unfold requestTaskResume
  split
  · exact h
  · next hq =>
    simp only [Flagged, pending, eq_false_of_ne_true hq, Bool.toNat_false, Bool.toNat_true,
      List.length_append, List.length_singleton] at h ⊢
    omega

/-- The flag admits one wake-up at a time, so the one that resumes the task is the last. -/
lemma Flagged.pending_resume (hf : w.Flagged) (h : w.resume = some w') : w'.pending = [] := by
  obtain ⟨src, hsrc⟩ := TaskWake.pending_resume h
  have hle := w.queued.toNat_le
  unfold Flagged at hf
  rw [hsrc, List.length_append, List.length_singleton] at hf
  exact List.length_eq_zero_iff.mp (by omega)

lemma Flagged.resume (hf : w.Flagged) (h : w.resume = some w') : w'.Flagged := by
  have hnil := hf.pending_resume h
  obtain ⟨-, ⟨⟩⟩ := Option.ite_none_right_eq_some.mp h
  rw [Flagged, hnil]
  rfl

variable [DecidableEq σ]

lemma perm_schedule (h : w.schedule src = some w') : w'.pending.Perm w.pending := by
  obtain ⟨hmem, ⟨⟩⟩ := Option.ite_none_right_eq_some.mp h
  have hmoved : (w.scheduling.erase src ++ (w.ready ++ [src])).Perm
      (src :: w.scheduling.erase src ++ w.ready) := by
    simpa using List.perm_append_singleton src (w.scheduling.erase src ++ w.ready)
  exact (hmoved.trans ((List.perm_cons_erase hmem).symm.append_right _)).append_right _

lemma pending_schedule_eq_nil (h : w.schedule src = some w') : w'.pending = [] ↔ w.pending = [] :=
  ⟨fun hnil => ((hnil ▸ perm_schedule h).symm).eq_nil, fun hnil => (hnil ▸ perm_schedule h).eq_nil⟩

lemma resuming_schedule (h : w.schedule src = some w') : w'.resuming = w.resuming := by
  obtain ⟨-, ⟨⟩⟩ := Option.ite_none_right_eq_some.mp h
  rfl

lemma perm_pop (h : w.pop src = some w') : w'.pending.Perm w.pending := by
  obtain ⟨⟨hmem, hnone⟩, ⟨⟩⟩ := Option.ite_none_right_eq_some.mp h
  have htaken : (w.ready.erase src ++ [src]).Perm w.ready :=
    (List.perm_append_singleton src _).trans (List.perm_cons_erase hmem).symm
  simpa [pending, hnone] using htaken.append_left w.scheduling

lemma pending_pop_eq_nil (h : w.pop src = some w') : w'.pending = [] ↔ w.pending = [] :=
  ⟨fun hnil => ((hnil ▸ perm_pop h).symm).eq_nil, fun hnil => (hnil ▸ perm_pop h).eq_nil⟩

lemma Flagged.schedule (hf : w.Flagged) (h : w.schedule src = some w') : w'.Flagged := by
  have hlength := (perm_schedule h).length_eq
  obtain ⟨-, ⟨⟩⟩ := Option.ite_none_right_eq_some.mp h
  exact hlength.trans hf

lemma Flagged.pop (hf : w.Flagged) (h : w.pop src = some w') : w'.Flagged := by
  have hlength := (perm_pop h).length_eq
  obtain ⟨-, ⟨⟩⟩ := Option.ite_none_right_eq_some.mp h
  exact hlength.trans hf

end GalayKernel.TaskWake

namespace GalayKernel.Proofs

variable {σ : Type} {w w' : TaskWake σ}

def Firing (t : TimerThread) (k : Nat) : Prop :=
  t.handling = some (k, .checkDone) ∨ t.handling = some (k, .setTimeout) ∨
    t.handling = some (k, .wakeUp)

/-- Only the timer `current` can still pass the check of its callback. -/
structure TimerThreadOk (t : TimerThread) (current : Option Nat) : Prop where
  nodup : t.armed.Nodup
  armed : ∀ k ∈ t.armed, k < t.added ∧ (t.cancelled k = false → current = some k)
  handled : ∀ k p, t.handling = some (k, p) → k < t.added ∧ k ∉ t.armed
  checking : ∀ k, t.handling = some (k, .checkCancelled) → t.cancelled k = false →
    current = some k
  timeouted : ∀ k, t.timeouted k = true → k < t.added ∧ k ∉ t.armed ∧
    t.handling ≠ some (k, .checkCancelled)

namespace TimerThreadOk

variable {t t' : TimerThread} {current : Option Nat} {k : Nat}

lemma init : TimerThreadOk .init none := by
  constructor <;> simp [TimerThread.init]

lemma addTimer (h : TimerThreadOk t none) : TimerThreadOk t.addTimer (some t.added) where
  nodup := List.nodup_cons.mpr ⟨fun hmem => Nat.lt_irrefl _ (h.armed _ hmem).1, h.nodup⟩
  armed k hk := by
    rcases List.mem_cons.mp hk with rfl | hk
    · exact ⟨Nat.lt_succ_self _, fun _ => rfl⟩
    · obtain ⟨hlt, hcur⟩ := h.armed k hk
      exact ⟨Nat.lt_succ_of_lt hlt, fun hc => absurd (hcur hc) nofun⟩
  handled k p hk := by
    obtain ⟨hlt, hna⟩ := h.handled k p hk
    refine ⟨Nat.lt_succ_of_lt hlt, fun hmem => ?_⟩
    rcases List.mem_cons.mp hmem with rfl | hmem
    · exact Nat.lt_irrefl _ hlt
    · exact hna hmem
  checking k hk hc := absurd (h.checking k hk hc) nofun
  timeouted k hk := by
    obtain ⟨hlt, hna, hh⟩ := h.timeouted k hk
    refine ⟨Nat.lt_succ_of_lt hlt, fun hmem => ?_, hh⟩
    rcases List.mem_cons.mp hmem with rfl | hmem
    · exact Nat.lt_irrefl _ hlt
    · exact hna hmem

lemma cancel (h : TimerThreadOk t (some k)) : TimerThreadOk (t.cancel k) none := by
  have hout : ∀ j, (t.cancel k).cancelled j = false → j ≠ k ∧ t.cancelled j = false := by
    intro j hj
    simp only [TimerThread.cancel, Function.update_apply] at hj
    split at hj
    · cases hj
    · exact ⟨‹_›, hj⟩
  refine ⟨h.nodup, fun j hj => ⟨(h.armed j hj).1, fun hc => ?_⟩, h.handled, fun j hj hc => ?_,
    h.timeouted⟩
  · obtain ⟨hne, hc⟩ := hout j hc
    exact absurd (Option.some.inj ((h.armed j hj).2 hc)).symm hne
  · obtain ⟨hne, hc⟩ := hout j hc
    exact absurd (Option.some.inj (h.checking j hj hc)).symm hne

lemma timedOut (h : TimerThreadOk t (some k)) (hk : t.timeouted k = true) :
    TimerThreadOk t none := by
  obtain ⟨-, hna, hh⟩ := h.timeouted k hk
  refine ⟨h.nodup, fun j hj => ⟨(h.armed j hj).1, fun hc => ?_⟩, h.handled, fun j hj hc => ?_,
    h.timeouted⟩
  · obtain rfl := Option.some.inj ((h.armed j hj).2 hc)
    exact absurd hj hna
  · obtain rfl := Option.some.inj (h.checking j hj hc)
    exact absurd hj hh

lemma expire (h : TimerThreadOk t current) (hs : t.expire k = some t') :
    TimerThreadOk t' current := by
  unfold TimerThread.expire at hs
  split at hs <;> cases hs
  next hk =>
  obtain ⟨hnone, hmem⟩ := hk
  have hsub : ∀ j, j ∈ t.armed.erase k → j ∈ t.armed := fun j => List.mem_of_mem_erase
  refine ⟨h.nodup.erase k, fun j hj => h.armed j (hsub j hj), fun j p hj => ?_,
    fun j hj hc => ?_, fun j hj => ?_⟩
  · cases hj
    exact ⟨(h.armed k hmem).1, h.nodup.not_mem_erase⟩
  · cases hj
    exact (h.armed k hmem).2 hc
  · obtain ⟨hlt, hna, -⟩ := h.timeouted j hj
    refine ⟨hlt, fun hmem => hna (hsub j hmem), fun he => ?_⟩
    cases he
    exact hna hmem

lemma handling (h : TimerThreadOk t current) (harmed : t'.armed = t.armed)
    (hadded : t'.added = t.added) (hcancelled : t'.cancelled = t.cancelled)
    (hhandling : ∀ j p, t'.handling = some (j, p) →
      p ≠ .checkCancelled ∧ ∃ q, t.handling = some (j, q))
    (htimeouted : ∀ j, t'.timeouted j = true → t.timeouted j = true ∨
      ∃ p, t.handling = some (j, p)) : TimerThreadOk t' current := by
  refine ⟨harmed ▸ h.nodup, fun j hj => ?_, fun j p hj => ?_, fun j hj => ?_, fun j hj => ?_⟩
  · rw [hadded, hcancelled]
    exact h.armed j (harmed ▸ hj)
  · obtain ⟨-, q, hq⟩ := hhandling j p hj
    rw [hadded, harmed]
    exact h.handled j q hq
  · exact absurd rfl (hhandling j _ hj).1
  · rw [hadded, harmed]
    have hno : t'.handling ≠ some (j, .checkCancelled) := fun he => (hhandling j _ he).1 rfl
    rcases htimeouted j hj with ht | ⟨p, hp⟩
    · exact ⟨(h.timeouted j ht).1, (h.timeouted j ht).2.1, hno⟩
    · exact ⟨(h.handled j p hp).1, (h.handled j p hp).2, hno⟩

lemma handle [DecidableEq σ] {timer : Nat → σ} (h : TimerThreadOk t current)
    (hs : t.handle w timer = some (t', w')) : TimerThreadOk t' current := by
  unfold TimerThread.handle at hs
  split at hs
  case h_1 => cases hs
  case h_2 k hk =>
    cases hs
    refine h.handling rfl rfl rfl (fun j p hj => ?_) (fun j hj => .inl hj)
    cases hj
    exact ⟨by split <;> nofun, _, hk⟩
  case h_3 k hk =>
    cases hs
    refine h.handling rfl rfl rfl (fun j p hj => ?_) (fun j hj => .inl hj)
    cases hj
    exact ⟨by split <;> nofun, _, hk⟩
  case h_4 k hk =>
    cases hs
    refine h.handling rfl rfl rfl (fun j p hj => ?_) (fun j hj => ?_)
    · cases hj
      exact ⟨nofun, _, hk⟩
    · by_cases hjk : j = k
      · subst hjk
        exact .inr ⟨_, hk⟩
      · exact .inl (by simpa [Function.update_of_ne hjk] using hj)
  case h_5 k hk =>
    cases hs
    refine h.handling rfl rfl rfl (fun j p hj => ?_) (fun j hj => .inl hj)
    cases hj
    exact ⟨nofun, _, hk⟩
  case h_6 k hk =>
    split at hs <;> cases hs
    exact h.handling rfl rfl rfl (fun j p hj => nomatch hj) (fun j hj => .inl hj)

end TimerThreadOk

lemma resuming_handle [DecidableEq σ] {t t' : TimerThread} {timer : Nat → σ}
    (hs : t.handle w timer = some (t', w')) : w'.resuming = w.resuming := by
  unfold TimerThread.handle at hs
  split at hs
  case h_1 => cases hs
  case h_2 | h_3 | h_4 => cases hs; rfl
  case h_5 => cases hs; exact TaskWake.resuming_request _ _
  case h_6 => split at hs <;> cases hs; rfl

/-- What a step of a callback does to the wake-ups and to the timer that is firing. -/
lemma handle_cases [DecidableEq σ] {t t' : TimerThread} {timer : Nat → σ}
    (hs : t.handle w timer = some (t', w')) :
    (∃ k, t.handling = some (k, .checkCancelled) ∧ t.cancelled k = false ∧ w' = w ∧
      ∀ j, Firing t' j → j = k) ∨
    (∃ k, t.handling = some (k, .wakeUp) ∧ w' = w.requestTaskResume (timer k) ∧
      ∀ j, ¬Firing t' j) ∨
    (w' = w ∧ ∀ j, Firing t' j → Firing t j) := by
  unfold TimerThread.handle at hs
  split at hs
  case h_1 => cases hs
  case h_2 k hk =>
    cases hs
    cases hc : t.cancelled k
    · exact .inl ⟨k, hk, hc, rfl, by simp +contextual [Firing]⟩
    · exact .inr (.inr ⟨rfl, by simp [Firing]⟩)
  case h_3 k hk =>
    cases hs
    refine .inr (.inr ⟨rfl, fun j hj => .inl ?_⟩)
    cases hd : t.done k <;> simp [Firing, hd] at hj
    rw [hk, hj]
  case h_4 k hk =>
    cases hs
    refine .inr (.inr ⟨rfl, fun j hj => .inr (.inl ?_)⟩)
    simp only [Firing, Option.some.injEq, Prod.mk.injEq, reduceCtorEq, and_false, false_or,
      and_true] at hj
    rw [hk, hj]
  case h_5 k hk =>
    cases hs
    exact .inr (.inl ⟨k, hk, rfl, by simp [Firing]⟩)
  case h_6 k hk =>
    split at hs <;> cases hs
    exact .inr (.inr ⟨rfl, by simp [Firing]⟩)

lemma pending_handle_ne_nil [DecidableEq σ] {t t' : TimerThread} {timer : Nat → σ}
    (hs : t.handle w timer = some (t', w')) (h : w.pending ≠ []) : w'.pending ≠ [] := by
  rcases handle_cases hs with ⟨k, -, -, rfl, -⟩ | ⟨k, -, rfl, -⟩ | ⟨rfl, -⟩
  · exact h
  · exact TaskWake.pending_request_ne_nil _ _
  · exact h

lemma flagged_handle [DecidableEq σ] {t t' : TimerThread} {timer : Nat → σ}
    (hs : t.handle w timer = some (t', w')) (h : w.Flagged) : w'.Flagged := by
  rcases handle_cases hs with ⟨k, -, -, rfl, -⟩ | ⟨k, -, rfl, -⟩ | ⟨rfl, -⟩
  · exact h
  · exact h.request _
  · exact h

lemma mem_pending_handle [DecidableEq σ] {t t' : TimerThread} {timer : Nat → σ} {x : σ}
    (hs : t.handle w timer = some (t', w')) (h : x ∈ w'.pending) :
    x ∈ w.pending ∨ ∃ k, x = timer k := by
  rcases handle_cases hs with ⟨k, -, -, rfl, -⟩ | ⟨k, -, rfl, -⟩ | ⟨rfl, -⟩
  · exact .inl h
  · exact (TaskWake.mem_pending_request h).imp_right fun hx => ⟨k, hx⟩
  · exact .inl h

end GalayKernel.Proofs
