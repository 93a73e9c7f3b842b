import GalayKernel.TaskAwait
import GalayKernel.Lib.Transition

namespace GalayKernel

variable {τ : Type}

def ChildPoint.Undone : ChildPoint τ → Prop
  | .unstarted => True
  | .running => True
  | .suspended => True
  | .completing .storeDone => True
  | _ => False

def ChildPoint.Taken : ChildPoint τ → Prop
  | .completing (.reset .next _) => True
  | .completing (.schedule .next _) => True
  | .completed => True
  | _ => False

def ChildPoint.Looked : ChildPoint τ → Prop
  | .completing (.move .next) => True
  | .completing (.reset .next _) => True
  | .completing (.schedule .next _) => True
  | .completed => True
  | _ => False

lemma ChildPoint.Taken.looked {c : ChildPoint τ} (h : c.Taken) : c.Looked := by
  unfold ChildPoint.Taken at h
  split at h
  · trivial
  · trivial
  · trivial
  · exact h.elim

lemma ChildPoint.Undone.not_looked {c : ChildPoint τ} (h : c.Undone) : ¬c.Looked := by
  unfold ChildPoint.Undone at h
  split at h
  · exact id
  · exact id
  · exact id
  · exact id
  · exact h.elim

/-- The parent has seen that it belongs to a scheduler. -/
def AwaitPoint.Bound : AwaitPoint → Prop
  | .bindChild => True
  | .scheduleImmediately => True
  | .inChild => True
  | .recheckDone => True
  | .storeNext => True
  | .suspended => True
  | _ => False

end GalayKernel

namespace GalayKernel.Proofs

open Transition

variable {τ : Type} {s s' : TaskAwait τ}

/-- The parent is in the slot, on its way into the ready queue, or has been put there. -/
inductive Kept (s : TaskAwait τ) : Prop
  | stored (hslot : s.slot .next = some s.waitingTask) (hchild : ¬s.child.Taken)
  | moved (h : s.child = .completing (.reset .next s.waitingTask))
  | taken (h : s.child = .completing (.schedule .next s.waitingTask))
  | scheduled (h : s.waitingTask ∈ s.scheduled)

lemma Kept.stored_or_scheduled (h : Kept s) (hchild : ¬s.child.Taken) :
    s.slot .next = some s.waitingTask ∨ s.waitingTask ∈ s.scheduled := by
  cases h with
  | stored hslot => exact .inl hslot
  | moved hc => exact absurd (hc ▸ trivial) hchild
  | taken hc => exact absurd (hc ▸ trivial) hchild
  | scheduled hmem => exact .inr hmem

structure NextOk (s : TaskAwait τ) : Prop where
  undone : s.done = false → s.child.Undone
  bound : s.parent.Bound → s.belongs s.waitingTask = true
  window : s.parent = .storeNext → ¬s.child.Looked
  kept : s.parent = .suspended → Kept s

namespace NextOk

lemma init (waitingTask childTask : τ) (valid : Bool) (thenTask : Option τ) (belongs : τ → Bool) :
    NextOk (.init waitingTask childTask valid thenTask belongs) where
  undone _ := trivial
  bound := False.elim
  window := nofun
  kept := nofun

lemma turn (h : NextOk s) {p : AwaitPoint} (hbound : p.Bound → s.belongs s.waitingTask = true)
    (hwindow : p = .storeNext → ¬s.child.Looked) (hp : p ≠ .suspended) :
    NextOk { s with parent := p } where
  undone := h.undone
  bound := hbound
  window := hwindow
  kept hs := absurd hs hp

lemma fail (s : TaskAwait τ) : NextOk s.fail where
  undone _ := trivial
  bound := False.elim
  window := nofun
  kept := nofun

lemma await [DecidableEq τ] (h : NextOk s) (hs : s.await = some s') : NextOk s' := by
  unfold TaskAwait.await at hs
  split at hs
  case h_1 | h_2 =>
    cases hs
    split
    · exact h.turn False.elim nofun nofun
    · exact h.turn False.elim nofun nofun
  case h_3 =>
    split at hs <;> cases hs
    · next hbelongs => exact h.turn (fun _ => hbelongs) nofun nofun
    · exact fail s
  case h_4 hp =>
    have hbelongs := h.bound (hp ▸ trivial)
    split at hs <;> cases hs
    · exact h.turn (fun _ => hbelongs) nofun nofun
    · refine ⟨h.undone, fun _ => ?_, nofun, nofun⟩
      simp [TaskAwait.setTaskScheduler, hbelongs]
  case h_5 hp =>
    have hbelongs := h.bound (hp ▸ trivial)
    split at hs
    · split at hs <;> cases hs
      · exact h.turn (fun _ => hbelongs) nofun nofun
      · exact ⟨fun _ => trivial, fun _ => hbelongs, nofun, nofun⟩
    · cases hs
      exact fail s
  case h_6 hp =>
    have hbelongs := h.bound (hp ▸ trivial)
    split at hs <;> cases hs
    exact h.turn (fun _ => hbelongs) nofun nofun
  case h_7 =>
    split at hs <;> cases hs
    exact h.turn False.elim nofun nofun
  case h_8 hp =>
    have hbelongs := h.bound (hp ▸ trivial)
    cases hs
    split
    · exact h.turn False.elim nofun nofun
    · next hdone =>
      -- a child that is not done has not come to its look at `m_next`
      refine h.turn (fun _ => hbelongs) (fun _ => ?_) nofun
      exact (h.undone (eq_false_of_ne_true hdone)).not_looked
  case h_9 hp =>
    cases hs
    refine ⟨h.undone, fun _ => h.bound (hp ▸ trivial), nofun, fun _ => ?_⟩
    refine .stored ?_ fun htaken => h.window hp htaken.looked
    exact Function.update_self ContinuationSlot.next _ s.slot
  case h_10 | h_11 => cases hs

lemma childStep (h : NextOk s) (hparent : s'.parent = s.parent)
    (hwaiting : s'.waitingTask = s.waitingTask) (hbelongs : s'.belongs = s.belongs)
    (hslot : s'.slot .next = s.slot .next) (hscheduled : s.scheduled ⊆ s'.scheduled)
    (hundone : s'.done = false → s'.child.Undone) (hold : ¬s.child.Taken)
    (hnew : ¬s'.child.Looked) : NextOk s' where
  undone := hundone
  bound hp := by
    rw [hbelongs, hwaiting]
    exact h.bound (hparent ▸ hp)
  window _ := hnew
  kept hp := by
    rcases (h.kept (hparent ▸ hp)).stored_or_scheduled hold with hs | hs
    · exact .stored (by rw [hslot, hwaiting, hs]) fun htaken => hnew htaken.looked
    · exact .scheduled (hwaiting ▸ hscheduled hs)

lemma nextStep (h : NextOk s) (hparent : s'.parent = s.parent)
    (hwaiting : s'.waitingTask = s.waitingTask) (hbelongs : s'.belongs = s.belongs)
    (hdone : s'.done = s.done) (hold : ¬s.child.Undone) (hwindow : s.parent ≠ .storeNext)
    (hkept : s.parent = .suspended → Kept s → Kept s') : NextOk s' where
  undone hd := absurd (h.undone (hdone ▸ hd)) hold
  bound hp := by
    rw [hbelongs, hwaiting]
    exact h.bound (hparent ▸ hp)
  window hp := absurd (hparent.symm.trans hp) hwindow
  kept hp := hkept (hparent.symm.trans hp) (h.kept (hparent.symm.trans hp))

lemma thenStep (h : NextOk s) {p : CompletePoint τ} (hchild : s.child = .completing p)
    (hundone : ¬(ChildPoint.completing p).Undone) (hold : ¬(ChildPoint.completing p).Taken)
    (hparent : s'.parent = s.parent) (hwaiting : s'.waitingTask = s.waitingTask)
    (hbelongs : s'.belongs = s.belongs) (hdone : s'.done = s.done)
    (hslot : s'.slot .next = s.slot .next) (hscheduled : s.scheduled ⊆ s'.scheduled)
    (hnew : ¬s'.child.Looked) : NextOk s' := by
  refine h.childStep hparent hwaiting hbelongs hslot hscheduled (fun hd => ?_) ?_ hnew
  · exact absurd (hchild ▸ h.undone (hdone ▸ hd)) hundone
  · rw [hchild]
    exact hold

lemma check (h : NextOk s) {c : ContinuationSlot} (hchild : s.child = .completing (.check c))
    (hok : c = .next → s.parent ≠ .storeNext) : NextOk (s.completeTaskState (.check c)) := by
  simp only [TaskAwait.completeTaskState]
  cases c with
  | thenTask =>
    split
    · exact h.thenStep hchild id id rfl rfl rfl rfl rfl (List.Subset.refl _) id
    · exact h.thenStep hchild id id rfl rfl rfl rfl rfl (List.Subset.refl _) id
  | next =>
    have hundone : ¬s.child.Undone := by rw [hchild]; exact id
    have hold : ¬s.child.Taken := by rw [hchild]; exact id
    split
    · refine h.nextStep rfl rfl rfl rfl hundone (hok rfl) fun _ hkept => ?_
      rcases hkept.stored_or_scheduled hold with hslot | hmem
      · exact .stored hslot id
      · exact .scheduled hmem
    · next hempty =>
      refine h.nextStep rfl rfl rfl rfl hundone (hok rfl) fun _ hkept => ?_
      rcases hkept.stored_or_scheduled hold with hslot | hmem
      · exact absurd (hslot ▸ rfl) hempty
      · exact .scheduled hmem

lemma move (h : NextOk s) {c : ContinuationSlot} (hchild : s.child = .completing (.move c)) :
    NextOk (s.completeTaskState (.move c)) := by
  simp only [TaskAwait.completeTaskState]
  cases c with
  | thenTask =>
    split
    · exact h.thenStep hchild id id rfl rfl rfl rfl rfl (List.Subset.refl _) id
    · exact h.thenStep hchild id id rfl rfl rfl rfl rfl (List.Subset.refl _) id
  | next =>
    have hundone : ¬s.child.Undone := by rw [hchild]; exact id
    have hold : ¬s.child.Taken := by rw [hchild]; exact id
    have hwindow : s.parent ≠ .storeNext := fun hp => h.window hp (hchild ▸ trivial)
    split
    · next t ht =>
      refine h.nextStep rfl rfl rfl rfl hundone hwindow fun _ hkept => ?_
      rcases hkept.stored_or_scheduled hold with hslot | hmem
      · cases ht.symm.trans hslot
        exact .moved rfl
      · exact .scheduled hmem
    · next ht =>
      refine h.nextStep rfl rfl rfl rfl hundone hwindow fun _ hkept => ?_
      rcases hkept.stored_or_scheduled hold with hslot | hmem
      · cases ht.symm.trans hslot
      · exact .scheduled hmem

lemma reset (h : NextOk s) {c : ContinuationSlot} {t : τ}
    (hchild : s.child = .completing (.reset c t)) :
    NextOk (s.completeTaskState (.reset c t)) := by
  cases c with
  | thenTask => exact h.thenStep hchild id id rfl rfl rfl rfl rfl (List.Subset.refl _) id
  | next =>
    have hundone : ¬s.child.Undone := by rw [hchild]; exact id
    have hwindow : s.parent ≠ .storeNext := fun hp => h.window hp (hchild ▸ trivial)
    refine h.nextStep rfl rfl rfl rfl hundone hwindow fun _ hkept => ?_
    cases hkept with
    | stored _ hc => exact absurd (hchild ▸ trivial) hc
    | moved hc =>
      cases hchild.symm.trans hc
      exact .taken rfl
    | taken hc => cases hchild.symm.trans hc
    | scheduled hmem => exact .scheduled hmem

/-- The parent belongs to a scheduler, so the child does put it into the ready queue. -/
lemma schedule (h : NextOk s) {c : ContinuationSlot} {t : τ}
    (hchild : s.child = .completing (.schedule c t)) :
    NextOk (s.completeTaskState (.schedule c t)) := by
  have hsub : s.scheduled ⊆ if s.belongs t then s.scheduled ++ [t] else s.scheduled := by
    split
    · exact List.subset_append_left ..
    · exact List.Subset.refl _
  cases c with
  | thenTask => exact h.thenStep hchild id id rfl rfl rfl rfl rfl hsub id
  | next =>
    have hundone : ¬s.child.Undone := by rw [hchild]; exact id
    have hwindow : s.parent ≠ .storeNext := fun hp => h.window hp (hchild ▸ trivial)
    refine h.nextStep rfl rfl rfl rfl hundone hwindow fun hp hkept => .scheduled ?_
    show s.waitingTask ∈ if s.belongs t then s.scheduled ++ [t] else s.scheduled
    cases hkept with
    | stored _ hc => exact absurd (hchild ▸ trivial) hc
    | moved hc => cases hchild.symm.trans hc
    | taken hc =>
      cases hchild.symm.trans hc
      rw [h.bound (hp ▸ trivial)]
      exact List.mem_append_right _ (List.mem_singleton_self _)
    | scheduled hmem => exact hsub hmem

lemma completeTaskState (h : NextOk s) {p : CompletePoint τ} (hchild : s.child = .completing p)
    (hok : p = .check .next → s.parent ≠ .storeNext) : NextOk (s.completeTaskState p) := by
  cases p with
  | storeDone =>
    refine h.childStep rfl rfl rfl rfl (List.Subset.refl _) nofun ?_ id
    rw [hchild]
    exact id
  | notifyTaskWaiters =>
    exact h.thenStep hchild id id rfl rfl rfl rfl rfl (List.Subset.refl _) id
  | check c => exact h.check hchild fun hc => hok (hc ▸ rfl)
  | move c => exact h.move hchild
  | reset c t => exact h.reset hchild
  | schedule c t => exact h.schedule hchild

end NextOk

/-- The child does not look at `m_next` between the parent's last look at `m_done` and its store of
`m_next`. -/
def LooksApart (s : TaskAwait τ) (a : TaskAwaitAction) : Prop :=
  a = .complete → s.child = .completing (.check .next) → s.parent ≠ .storeNext

lemma NextOk.step [DecidableEq τ] {a : TaskAwaitAction} (h : NextOk s) (hok : LooksApart s a)
    (hs : s.step a = some s') : NextOk s' := by
  have hsame := List.Subset.refl s.scheduled
  cases a with
  | parent => exact h.await hs
  | suspend | resume | finish =>
    simp only [TaskAwait.step, Option.ite_none_right_eq_some] at hs
    obtain ⟨hchild, hs⟩ := hs
    cases hs
    refine h.childStep rfl rfl rfl rfl hsame (fun _ => trivial) ?_ id
    rw [hchild]
    exact id
  | complete =>
    simp only [TaskAwait.step] at hs
    split at hs
    · next p hchild =>
      cases hs
      exact h.completeTaskState hchild fun hp => hok rfl (hp ▸ hchild)
    · cases hs
  | resumeParent =>
    simp only [TaskAwait.step, Option.ite_none_right_eq_some] at hs
    obtain ⟨-, hs⟩ := hs
    cases hs
    exact h.turn False.elim nofun nofun

/-- The child has completed and the parent is suspended, but was never put into a ready queue. -/
def Lost (s : TaskAwait τ) : Prop :=
  s.child = .completed ∧ s.parent = .suspended ∧ s.waitingTask ∉ s.scheduled

/-- As long as the child keeps out of the window, no parent is lost. -/
theorem awaiting_keeps_parent [DecidableEq τ] {waitingTask childTask : τ} {valid : Bool}
    {thenTask : Option τ} {belongs : τ → Bool} {s : TaskAwait τ}
    (h : Reaches TaskAwait.step LooksApart (.init waitingTask childTask valid thenTask belongs) s) :
    ¬Lost s := by
  have hok : NextOk s := h.invariant (NextOk.init _ _ _ _ _) fun _ _ _ hP hok hs => hP.step hok hs
  rintro ⟨hchild, hparent, hmem⟩
  cases hok.kept hparent with
  | stored _ hc => exact hc (hchild ▸ trivial)
  | moved hc => cases hchild.symm.trans hc
  | taken hc => cases hchild.symm.trans hc
  | scheduled h => exact hmem h

/-- The child suspends inside the parent's call and completes when the parent is suspended. -/
def completesAfterSuspend : List TaskAwaitAction :=
  [.parent, .parent, .parent, .parent, .parent, .suspend, .resume, .parent, .parent, .finish,
    .complete, .parent, .complete, .complete, .complete, .complete, .complete, .complete]

def looksApartCheck (s : TaskAwait Bool) (a : TaskAwaitAction) : Bool :=
  !(a = .complete && s.child = .completing (.check .next)) || s.parent ≠ .storeNext

lemma looksApart_of_check (s : TaskAwait Bool) (a : TaskAwaitAction)
    (h : looksApartCheck s a = true) : LooksApart s a := by
  rintro rfl hchild hparent
  simp [looksApartCheck, hchild, hparent] at h

theorem completesAfterSuspend_keeps_parent :
    ∃ s, run TaskAwait.step (.init true false true none fun t => t) completesAfterSuspend = some s ∧
      s.child = .completed ∧ s.parent = .suspended ∧ s.scheduled = [true] ∧ ¬Lost s :=
  ⟨_, rfl, rfl, rfl, rfl, @awaiting_keeps_parent Bool _ true false true none (fun t => t) _
    (Reaches.start.of_run looksApartCheck looksApart_of_check completesAfterSuspend rfl)⟩

/-- Another thread completes the child between the parent's last look at `m_done` and the store. -/
def completesTooEarly : List TaskAwaitAction :=
  [.parent, .parent, .parent, .parent, .parent, .suspend, .resume, .parent, .parent, .finish,
    .complete, .complete, .complete, .complete, .parent]

theorem awaiting_can_lose_parent :
    ¬∀ (waitingTask childTask : Bool) (valid : Bool) (thenTask : Option Bool)
      (belongs : Bool → Bool) (s : TaskAwait Bool),
      Reaches TaskAwait.step (fun _ _ => True)
        (.init waitingTask childTask valid thenTask belongs) s → ¬Lost s := by
  intro h
  refine h true false true none (fun t => t) _ (Reaches.start.of_replay completesTooEarly rfl) ?_
  exact ⟨rfl, rfl, by decide⟩

end GalayKernel.Proofs
