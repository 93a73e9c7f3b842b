import Mathlib.Algebra.BigOperators.Fin
import Mathlib.Algebra.Order.BigOperators.Group.Multiset
import Mathlib.Logic.Function.Basic
import Mathlib.Tactic.Abel

/-!
# Items kept in buckets

A finite family of lists, one for each bucket, and the multiset of everything it holds.
Moving items around is an update of one bucket, and what it does to the whole is a balance.
-/

namespace Buckets

variable {ι α : Type} [Fintype ι]

/-- Everything stored, wherever it is. The sum is not meant to be computed. -/
@[irreducible]
def total (f : ι → List α) : Multiset α := ∑ i, (f i : Multiset α)

lemma total_empty : total (fun _ : ι => ([] : List α)) = 0 := by
  simp [total]

lemma mem_total {f : ι → List α} {x : α} : x ∈ total f ↔ ∃ i, x ∈ f i := by
  simp [total, Multiset.mem_sum]

variable [DecidableEq ι]

/-- Replacing one bucket trades its items for the new ones. -/
theorem total_update (f : ι → List α) (i : ι) (l : List α) :
    total (Function.update f i l) + f i = total f + l := by
  have hold : total f = f i + ∑ j ∈ Finset.univ.erase i, (f j : Multiset α) := by
    rw [total, ← Finset.add_sum_erase _ _ (Finset.mem_univ i)]
  have hnew : total (Function.update f i l) = l + ∑ j ∈ Finset.univ.erase i, (f j : Multiset α) := by
    rw [total, ← Finset.add_sum_erase _ _ (Finset.mem_univ i), Function.update_self]
    congr 1
    refine Finset.sum_congr rfl (fun j hj => ?_)
    rw [Function.update_of_ne (Finset.ne_of_mem_erase hj)]
  rw [hold, hnew]
  abel

lemma total_pushBack (f : ι → List α) (i : ι) (x : α) :
    total (Function.update f i (f i ++ [x])) = total f + {x} := by
  have h := total_update f i (f i ++ [x])
  rw [← Multiset.coe_add, ← add_assoc, add_right_comm] at h
  exact add_right_cancel h

lemma total_clear (f : ι → List α) (i : ι) : total (Function.update f i []) + f i = total f := by
  rw [total_update, Multiset.coe_nil, add_zero]

end Buckets
