import Mathlib.Logic.Function.Basic
import Mathlib.Algebra.Ring.Nat
import Mathlib.Algebra.BigOperators.Group.List.Basic
import Mathlib.Data.List.Perm.Basic

/-!
# The threads of a concurrent program

The positions of several threads are a function, and a step of one thread is an update of it.
Threads that come and go are a list, and a step of one thread replaces its entry.
-/

namespace Threads

section Family

variable {ι β : Type} [DecidableEq ι] {f : ι → β} {i j : ι} {b : β}

/-- A thread stands where it stood, or it is the one that has made the step. -/
lemma of_update {P : β → Prop} (h : P (Function.update f i b j)) :
    (j = i ∧ P b) ∨ (j ≠ i ∧ P (f j)) := by
  by_cases hj : j = i
  · rw [hj, Function.update_self] at h
    exact .inl ⟨hj, h⟩
  · rw [Function.update_of_ne hj] at h
    exact .inr ⟨hj, h⟩

lemma forall_update {P : β → Prop} (hb : P b) (h : ∀ j, P (f j)) (j : ι) :
    P (Function.update f i b j) := by
  rw [Function.update_apply]
  split
  · exact hb
  · exact h j

lemma eq_of_update {c : β} (h : Function.update f i b j = c) :
    (j = i ∧ b = c) ∨ (j ≠ i ∧ f j = c) :=
  of_update (P := fun x => x = c) h

/-- A place that thread `i` has not left is still taken. -/
lemma exists_update {P : β → Prop} (b : β) (hi : ¬P (f i)) (h : ∃ j, P (f j)) :
    ∃ j, P (Function.update f i b j) := by
  obtain ⟨j, hj⟩ := h
  refine ⟨j, ?_⟩
  rwa [Function.update_of_ne]
  rintro rfl
  exact hi hj

end Family

section Pool

variable {β γ : Type} {l : List β} {i : Nat} {w : β}

/-- The other threads are the same before and after a step of thread `i`. -/
lemma perm_set (h : l[i]? = some w) (w' : β) :
    ∃ others, l.Perm (w :: others) ∧ (l.set i w').Perm (w' :: others) := by
  obtain ⟨hi, rfl⟩ := List.getElem?_eq_some_iff.mp h
  exact ⟨l.eraseIdx i, (List.getElem_cons_eraseIdx_perm hi).symm, List.set_perm_cons_eraseIdx hi w'⟩

/-- Some thread still stands at `P`, unless thread `i` has left it. -/
lemma exists_mem_set {P : β → Prop} (h : l[i]? = some w) {w' : β} (hw : P w → P w')
    (hP : ∃ v ∈ l, P v) : ∃ v ∈ l.set i w', P v := by
  obtain ⟨others, hl, hset⟩ := perm_set h w'
  obtain ⟨v, hv, hPv⟩ := hP
  rw [hl.mem_iff, List.mem_cons] at hv
  obtain rfl | hv := hv
  · exact ⟨w', hset.mem_iff.mpr List.mem_cons_self, hw hPv⟩
  · exact ⟨v, hset.mem_iff.mpr (List.mem_cons_of_mem w' hv), hPv⟩

lemma mem_set (h : l[i]? = some w) (w' : β) : w' ∈ l.set i w' := by
  obtain ⟨others, -, hset⟩ := perm_set h w'
  exact hset.mem_iff.mpr List.mem_cons_self

lemma countP_set (h : l[i]? = some w) (w' : β) (p : β → Bool) :
    (l.set i w').countP p + (p w).toNat = l.countP p + (p w').toNat := by
  obtain ⟨others, hl, hset⟩ := perm_set h w'
  rw [hl.countP_eq, hset.countP_eq, List.countP_cons, List.countP_cons]
  cases p w <;> cases p w' <;> simp

/-- What the threads hold, after a step of thread `i`. -/
lemma flatMap_set (h : l[i]? = some w) (w' : β) (f : β → List γ) :
    (f w ++ (l.set i w').flatMap f).Perm (f w' ++ l.flatMap f) := by
  obtain ⟨others, hl, hset⟩ := perm_set h w'
  have hw := (hl.flatMap_right f).append_left (f w')
  have hw' := (hset.flatMap_right f).append_left (f w)
  rw [List.flatMap_cons, ← List.append_assoc] at hw hw'
  exact hw'.trans ((List.perm_append_comm.append_right _).trans hw.symm)

lemma sum_set (h : l[i]? = some w) (w' : β) (f : β → Nat) :
    ((l.set i w').map f).sum + f w = (l.map f).sum + f w' := by
  obtain ⟨others, hl, hset⟩ := perm_set h w'
  rw [(hl.map f).sum_eq, (hset.map f).sum_eq]
  simp only [List.map_cons, List.sum_cons]
  omega

end Pool

end Threads
