import Mathlib.Data.Nat.ModEq
import Mathlib.Logic.Function.Basic

/-!
# Windows of a ring

A ring of `n` slots stores items under unbounded indices; index `i` is kept in slot
`i % n`. As long as all live indices lie within `n` of each other, distinct live indices
have distinct slots and the ring behaves like a map from indices to items.
-/

namespace Window

variable {n : Nat} [NeZero n] {α : Type}

/-- The slot of an index. -/
def slot (n : Nat) [NeZero n] (i : Nat) : Fin n := Fin.ofNat n i

lemma slot_inj {i j : Nat} (h : slot n i = slot n j) (hij : i < j + n) (hji : j < i + n) : i = j := by
  have hmod : i ≡ j [MOD n] := by
    simpa [slot, Fin.ext_iff, Nat.ModEq] using h
  rcases Nat.le_total i j with hle | hle
  · have hd := (Nat.modEq_iff_dvd' hle).mp hmod
    have hz := Nat.eq_zero_of_dvd_of_lt hd (by omega)
    omega
  · have hd := (Nat.modEq_iff_dvd' hle).mp hmod.symm
    have hz := Nat.eq_zero_of_dvd_of_lt hd (by omega)
    omega

/-- The occupied slots are those of the live indices, which fit into the ring. -/
structure Represents (live : Nat → Prop) (slots : Fin n → Option α) : Prop where
  window : ∀ i j, live i → live j → i < j + n
  filled : ∀ i, live i → slots (slot n i) ≠ none
  used : ∀ k, slots k ≠ none → ∃ i, live i ∧ slot n i = k

namespace Represents

variable {live live' : Nat → Prop} {slots : Fin n → Option α} {i : Nat}

lemma congr (h : Represents live slots) (hl : ∀ j, live' j ↔ live j) : Represents live' slots := by
  have heq : live' = live := funext (fun j => propext (hl j))
  rwa [heq]

lemma slot_eq_iff (h : Represents live slots) {j : Nat} (hi : live i) (hj : live j) :
    slot n j = slot n i ↔ j = i :=
  ⟨fun he => slot_inj he (h.window j i hj hi) (h.window i j hi hj), fun he => he ▸ rfl⟩

/-- The slot of a new index close to all live ones is free. -/
lemma free (h : Represents live slots) (hnew : ¬live i)
    (hi : ∀ j, live j → i < j + n ∧ j < i + n) : slots (slot n i) = none := by
  by_contra hne
  obtain ⟨j, hj, hji⟩ := h.used _ hne
  have heq := slot_inj hji (hi j hj).2 (hi j hj).1
  exact hnew (heq ▸ hj)

/-- Storing an item under a new index close to all live ones. -/
theorem push (h : Represents live slots) (hi : ∀ j, live j → i < j + n ∧ j < i + n)
    (hl : ∀ j, live' j ↔ live j ∨ j = i) (x : α) :
    Represents live' (Function.update slots (slot n i) (some x)) where
  window j k hj hk := by
    have hn : 0 < n := Nat.pos_of_ne_zero (NeZero.ne n)
    rcases (hl j).mp hj with hj | rfl <;> rcases (hl k).mp hk with hk | rfl
    · exact h.window j k hj hk
    · exact (hi j hj).2
    · exact (hi k hk).1
    · omega
  filled j hj := by
    by_cases hs : slot n j = slot n i
    · simp [hs]
    · rw [Function.update_of_ne hs]
      rcases (hl j).mp hj with hj | rfl
      · exact h.filled j hj
      · exact absurd rfl hs
  used k hk := by
    by_cases hs : k = slot n i
    · exact ⟨i, (hl i).mpr (.inr rfl), hs.symm⟩
    · rw [Function.update_of_ne hs] at hk
      obtain ⟨j, hj, hjk⟩ := h.used k hk
      exact ⟨j, (hl j).mpr (.inl hj), hjk⟩

/-- Emptying the slot of a live index. -/
theorem take (h : Represents live slots) (hi : live i) (hl : ∀ j, live' j ↔ live j ∧ j ≠ i) :
    Represents live' (Function.update slots (slot n i) none) where
  window j k hj hk := h.window j k ((hl j).mp hj).1 ((hl k).mp hk).1
  filled j hj := by
    obtain ⟨hj, hne⟩ := (hl j).mp hj
    have hs : slot n j ≠ slot n i := fun he => hne ((h.slot_eq_iff hi hj).mp he)
    rw [Function.update_of_ne hs]
    exact h.filled j hj
  used k hk := by
    have hs : k ≠ slot n i := by
      rintro rfl
      simp at hk
    rw [Function.update_of_ne hs] at hk
    obtain ⟨j, hj, hjk⟩ := h.used k hk
    refine ⟨j, (hl j).mpr ⟨hj, ?_⟩, hjk⟩
    rintro rfl
    exact hs hjk.symm

end Represents

variable {slots : Fin n → Option α} {i : Nat} {x : α} {xs ys : List α}

/-- The items stand in the slots from index `i` on. -/
def Holds (slots : Fin n → Option α) : Nat → List α → Prop
  | _, [] => True
  | i, x :: xs => slots (slot n i) = some x ∧ Holds slots (i + 1) xs

lemma holds_append :
    Holds slots i (xs ++ ys) ↔ Holds slots i xs ∧ Holds slots (i + xs.length) ys := by
  induction xs generalizing i with
  | nil => simp [Holds]
  | cons x xs ih =>
    rw [List.cons_append, Holds, Holds, ih, List.length_cons, Nat.add_right_comm, Nat.add_assoc,
      and_assoc]

/-- A store into another slot. -/
lemma Holds.update (h : Holds slots i xs) {j : Nat}
    (hj : ∀ k, i ≤ k → k < i + xs.length → slot n k ≠ slot n j) (v : Option α) :
    Holds (Function.update slots (slot n j) v) i xs := by
  induction xs generalizing i with
  | nil => trivial
  | cons x xs ih =>
    refine ⟨?_, ih h.2 fun k hk hlt => hj k (by omega) (by rw [List.length_cons]; omega)⟩
    rw [Function.update_of_ne (hj i (Nat.le_refl i) (by simp))]
    exact h.1

lemma Holds.pushBack (h : Holds slots i xs) (hroom : xs.length < n) (x : α) :
    Holds (Function.update slots (slot n (i + xs.length)) (some x)) i (xs ++ [x]) := by
  rw [holds_append]
  refine ⟨h.update (fun k hk hlt heq => ?_) _, Function.update_self .., trivial⟩
  have := slot_inj heq (by omega) (by omega)
  omega

lemma Holds.popBack (h : Holds slots i (xs ++ [x])) (hroom : xs.length < n) :
    slots (slot n (i + xs.length)) = some x ∧
      Holds (Function.update slots (slot n (i + xs.length)) none) i xs := by
  rw [holds_append] at h
  refine ⟨h.2.1, h.1.update (fun k hk hlt heq => ?_) _⟩
  have := slot_inj heq (by omega) (by omega)
  omega

lemma Holds.popFront (h : Holds slots i (x :: xs)) (hroom : xs.length < n) :
    slots (slot n i) = some x ∧ Holds (Function.update slots (slot n i) none) (i + 1) xs := by
  refine ⟨h.1, h.2.update (fun k hk hlt heq => ?_) _⟩
  have := slot_inj heq (by omega) (by omega)
  omega

/-- The items are what the slots hold. -/
lemma Holds.filterMap (h : Holds slots i xs) :
    (List.range xs.length).filterMap (fun k => slots (slot n (i + k))) = xs := by
  induction xs generalizing i with
  | nil => rfl
  | cons x xs ih =>
    have hfirst : slots (slot n (i + 0)) = some x := h.1
    rw [List.length_cons, List.range_succ_eq_map, List.filterMap_cons, hfirst, List.filterMap_map]
    have hshift : (fun k => slots (slot n (i + k))) ∘ Nat.succ =
        fun k => slots (slot n (i + 1 + k)) := by
      funext k
      rw [Function.comp_apply, Nat.add_right_comm]
      rfl
    rw [hshift, ih h.2]

end Window
