import GalayKernel.TaskRing
import Mathlib.Tactic.Common

namespace GalayKernel.Proofs

open TaskRing
open ChaseLevTaskRing (slotOf slotOf_eq)

variable {τ : Type} {r : TaskRing τ} {task : τ} {items : List τ}

/-- The ring holds `items`, the oldest first. -/
structure Stores (r : TaskRing τ) (items : List τ) : Prop where
  tail : r.tail = r.head + items.length
  fits : items.length ≤ kCapacity
  holds : Window.Holds r.slots r.head items

lemma stores_new : Stores (.new : TaskRing τ) [] := ⟨rfl, Nat.zero_le _, trivial⟩

namespace Stores

lemma size (h : Stores r items) : r.size = items.length := by
  rw [TaskRing.size, h.tail, Nat.add_sub_cancel_left]

lemma tasks (h : Stores r items) : r.tasks = items := by
  rw [TaskRing.tasks, h.size]
  simp only [slotOf_eq]
  exact h.holds.filterMap

lemma self (h : Stores r items) : Stores r r.tasks := h.tasks.symm ▸ h

lemma remainingCapacity (h : Stores r items) : r.remainingCapacity = kCapacity - items.length := by
  rw [TaskRing.remainingCapacity, h.size]
  split <;> omega

lemma isEmpty (h : Stores r items) : r.isEmpty = items.isEmpty := by
  rw [TaskRing.isEmpty, h.size]
  cases items <;> rfl

lemma pushBack (h : Stores r items) (hroom : items.length < kCapacity) (task : τ) :
    (r.pushBack (some task)).1 = true ∧ Stores (r.pushBack (some task)).2 (items ++ [task]) := by
  have hlt : ¬kCapacity ≤ r.tail - r.head := by
    rw [h.tail]
    omega
  rw [TaskRing.pushBack, if_neg hlt]
  refine ⟨rfl, ?_, ?_, ?_⟩
  · change r.tail + 1 = r.head + (items ++ [task]).length
    rw [h.tail, List.length_append, List.length_singleton, Nat.add_assoc]
  · rw [List.length_append, List.length_singleton]
    exact hroom
  · change Window.Holds (Function.update r.slots (slotOf r.tail) (some task)) r.head _
    rw [slotOf_eq, h.tail]
    exact h.holds.pushBack hroom task

lemma pushAll (h : Stores r items) {batch : List τ} (hroom : items.length + batch.length ≤ kCapacity) :
    Stores (batch.foldl (fun r task => (r.pushBack (some task)).2) r) (items ++ batch) := by
  induction batch generalizing r items with
  | nil => rwa [List.append_nil]
  | cons task batch ih =>
    rw [List.length_cons] at hroom
    have hpushed := (h.pushBack (by omega) task).2
    rw [List.foldl_cons, List.append_cons]
    exact ih hpushed (by rw [List.length_append, List.length_singleton]; omega)

lemma popBack_nil (h : Stores r []) : r.popBack.1 = none ∧ Stores r.popBack.2 [] := by
  have htail : r.tail = r.head := h.tail
  unfold TaskRing.popBack
  by_cases hzero : r.tail = 0
  · rw [if_pos hzero]
    exact ⟨rfl, h⟩
  · rw [if_neg hzero]
    dsimp only
    rw [if_pos (by omega)]
    exact ⟨rfl, rfl, Nat.zero_le _, trivial⟩

lemma popBack (h : Stores r (items ++ [task])) :
    r.popBack.1 = some (some task) ∧ Stores r.popBack.2 items := by
  have htail := h.tail
  have hfits := h.fits
  rw [List.length_append, List.length_singleton] at htail hfits
  obtain ⟨hslot, hholds⟩ := h.holds.popBack hfits
  have hlast : r.tail - 1 = r.head + items.length := by omega
  rw [← hlast, ← slotOf_eq] at hslot hholds
  unfold TaskRing.popBack
  rw [if_neg (by omega)]
  dsimp only
  rw [if_neg (by omega)]
  by_cases hone : r.head = r.tail - 1
  · rw [if_pos hone]
    have hnil : items = [] := List.length_eq_zero_iff.mp (by omega)
    subst hnil
    exact ⟨congrArg some hslot, rfl, Nat.zero_le _, trivial⟩
  · rw [if_neg hone]
    exact ⟨congrArg some hslot, hlast, by omega, hholds⟩

lemma stealFront_nil (h : Stores r []) (ownerOnly : τ → Bool) : r.stealFront ownerOnly = (none, r) := by
  have htail : r.tail = r.head := h.tail
  rw [TaskRing.stealFront, if_pos (by omega)]

/-- A thief takes the oldest task, unless it may only run on its owner. -/
lemma stealFront (h : Stores r (task :: items)) (ownerOnly : τ → Bool) :
    r.stealFront ownerOnly = (none, r) ∨
      (r.stealFront ownerOnly).1 = some (some task) ∧ Stores (r.stealFront ownerOnly).2 items := by
  have htail := h.tail
  have hfits := h.fits
  rw [List.length_cons] at htail hfits
  obtain ⟨hslot, hholds⟩ := h.holds.popFront hfits
  rw [← slotOf_eq] at hslot hholds
  unfold TaskRing.stealFront
  rw [if_neg (by omega), hslot]
  dsimp only
  by_cases howner : ownerOnly task = true
  · rw [if_pos howner]
    exact .inl rfl
  · rw [if_neg howner]
    refine .inr ⟨congrArg some hslot, ?_, by omega, hholds⟩
    change r.tail = r.head + 1 + items.length
    omega

end Stores

end GalayKernel.Proofs
