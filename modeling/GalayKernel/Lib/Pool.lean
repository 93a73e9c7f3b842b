import Mathlib.Data.List.Perm.Basic
import Mathlib.Data.List.Range
import Mathlib.Data.List.Nodup

/-!
# Pools of numbered resources

The resources of a pool are the numbers below its size. Each is on the free list or held by someone,
once in all.
-/

namespace Pool

variable {size k t : ℕ} {free held : List ℕ}

/-- Every resource is free or held, and only once. -/
def Splits (size : ℕ) (free held : List ℕ) : Prop := (free ++ held).Perm (List.range size)

lemma Splits.nodup (h : Splits size free held) : (free ++ held).Nodup :=
  h.nodup_iff.mpr List.nodup_range

lemma Splits.mem_free_iff (h : Splits size free held) (ht : t < size) : t ∈ free ↔ t ∉ held := by
  have hmem : t ∈ free ++ held := h.mem_iff.mpr (List.mem_range.mpr ht)
  constructor
  · intro hfree hheld
    exact List.disjoint_of_nodup_append h.nodup hfree hheld
  · intro hheld
    exact (List.mem_append.mp hmem).resolve_right hheld

/-- Only the order of the held resources is changed. -/
lemma Splits.perm {held' : List ℕ} (h : Splits size free held) (hperm : held'.Perm held) :
    Splits size free held' :=
  (hperm.append_left free).trans h

/-- New resources are free, in any order. -/
lemma Splits.grow {added : List ℕ} (h : Splits size free held)
    (hadded : added.Perm (List.range' size k)) : Splits (size + k) (added ++ free) held := by
  unfold Splits
  rw [List.append_assoc, List.range_add, ← List.range'_eq_map_range]
  exact (hadded.append h).trans List.perm_append_comm

lemma Splits.take (h : Splits size (t :: free) held) : Splits size free (t :: held) :=
  List.perm_middle.trans h

lemma Splits.put (h : Splits size free (t :: held)) : Splits size (t :: free) held :=
  List.perm_middle.symm.trans h

end Pool
