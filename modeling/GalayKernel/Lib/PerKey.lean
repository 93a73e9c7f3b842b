import Mathlib.Algebra.BigOperators.Group.Finset.Piecewise
import Mathlib.Data.List.Perm.Basic
import Mathlib.Data.List.Count

/-!
# Lists that agree key by key

A queue that is fed by several sources and keeps the order of each source, but not the order
between sources, is described up to the order of elements with different keys.
-/

namespace PerKey

variable {κ β : Type} [DecidableEq κ] {key : β → κ} {l l' l'' m m' : List β} {k : κ} {x : β}

/-- For every key the lists have the same elements in the same order. -/
def Same (key : β → κ) (l l' : List β) : Prop :=
  ∀ k, l.filter (fun x => key x = k) = l'.filter (fun x => key x = k)

lemma Same.refl (l : List β) : Same key l l := fun _ => rfl

lemma Same.trans (h : Same key l l') (h' : Same key l' l'') : Same key l l'' :=
  fun k => (h k).trans (h' k)

lemma Same.append (h : Same key l l') (h' : Same key m m') : Same key (l ++ m) (l' ++ m') := by
  intro k
  rw [List.filter_append, List.filter_append, h k, h' k]

lemma Same.append_left (l : List β) (h : Same key m m') : Same key (l ++ m) (l ++ m') :=
  (Same.refl l).append h

/-- Agreeing lists are permutations of each other. -/
theorem Same.perm (h : Same key l l') : l.Perm l' := by
  classical
  rw [List.perm_iff_count]
  intro x
  have hx := congrArg (List.count x) (h (key x))
  rwa [List.count_filter (by simp), List.count_filter (by simp)] at hx

/-- Taking out the first element with a given key and putting it in front. -/
theorem same_cons_eraseP (h : l.find? (fun y => key y = k) = some x) :
    Same key (x :: l.eraseP (fun y => key y = k)) l := by
  induction l with
  | nil => cases h
  | cons y l ih =>
    by_cases hy : key y = k
    · rw [List.find?_cons_of_pos (by simpa using hy)] at h
      cases h
      rw [List.eraseP_cons_of_pos (by simpa using hy)]
      exact Same.refl _
    · rw [List.find?_cons_of_neg (by simpa using hy)] at h
      rw [List.eraseP_cons_of_neg (by simpa using hy)]
      have hx : key x = k := by simpa using List.find?_some h
      -- `x` and `y` have different keys, so no key sees them both
      intro j
      have hj := ih h j
      by_cases hyj : key y = j
      · have hxj : key x ≠ j := fun hxj => hy (hyj.trans (hxj.symm.trans hx))
        rw [List.filter_cons_of_neg (by simpa using hxj)] at hj ⊢
        rw [List.filter_cons_of_pos (by simpa using hyj),
          List.filter_cons_of_pos (by simpa using hyj), hj]
      · rw [List.filter_cons_of_neg (l := l) (by simpa using hyj), ← hj]
        simp only [List.filter_cons, decide_eq_true_eq, if_neg hyj]

/-- The elements counted key by key. -/
theorem sum_length_filter [Fintype κ] (key : β → κ) (l : List β) :
    ∑ k, (l.filter (fun x => key x = k)).length = l.length := by
  induction l with
  | nil => simp
  | cons x l ih =>
    have hx : ∀ k, ((x :: l).filter (fun y => key y = k)).length =
        (l.filter (fun y => key y = k)).length + if key x = k then 1 else 0 := by
      intro k
      by_cases hk : key x = k <;> simp [hk]
    simp only [hx, Finset.sum_add_distrib, ih, Finset.sum_ite_eq, Finset.mem_univ, if_true,
      List.length_cons]

end PerKey
