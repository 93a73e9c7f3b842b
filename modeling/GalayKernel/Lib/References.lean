import Mathlib.Data.Finset.Card
import Mathlib.Data.Fintype.Card
import Mathlib.Order.WellFounded
import Mathlib.Data.Fintype.Order

/-!
# Counted references

Finitely many places, each of which refers to an object or to none. Objects own some of the places,
and the other places are roots. What a counter of references has to know is how the number of
holders changes when one place is written. An object that has a holder, as its owner has, is reached
from a root, unless objects hold each other in a circle.
-/

namespace References

variable {π α : Type}

section Holders

variable [Fintype π] [DecidableEq α]

/-- The places that refer to `a` -/
def holders (ref : π → Option α) (a : α) : Finset π := Finset.univ.filter fun p => ref p = some a

variable {ref : π → Option α} {p q : π} {a b : α}

@[simp] lemma mem_holders : p ∈ holders ref a ↔ ref p = some a := by simp [holders]

/-- The only holder of an object -/
lemma eq_of_card_eq_one (h : (holders ref a).card = 1) (hp : ref p = some a) (hq : ref q = some a) :
    p = q := by
  obtain ⟨r, hr⟩ := Finset.card_eq_one.mp h
  have hpr : p ∈ holders ref a := mem_holders.mpr hp
  have hqr : q ∈ holders ref a := mem_holders.mpr hq
  rw [hr, Finset.mem_singleton] at hpr hqr
  exact hpr.trans hqr.symm

variable [DecidableEq π]

omit [Fintype π] [DecidableEq α] in
/-- What holds of every object that is referred to, and of the new one, holds after a place is
written. -/
lemma forall_update {P : α → Prop} (h : ∀ p a, ref p = some a → P a) (q : π) {x : Option α}
    (hx : ∀ a, x = some a → P a) : ∀ p a, Function.update ref q x p = some a → P a := by
  intro p a hp
  by_cases hq : p = q
  · subst hq
    rw [Function.update_self] at hp
    exact hx a hp
  · rw [Function.update_of_ne hq] at hp
    exact h p a hp

lemma holders_update_of_ne (hold : ref p ≠ some a) {x : Option α} (hnew : x ≠ some a) :
    holders (Function.update ref p x) a = holders ref a := by
  ext q
  by_cases hq : q = p
  · subst hq
    simp [hold, hnew]
  · simp [Function.update_of_ne hq]

/-- A place that referred to something else begins to refer to `a`. -/
lemma card_holders_set (h : ref p ≠ some a) :
    (holders (Function.update ref p (some a)) a).card = (holders ref a).card + 1 := by
  have hinsert : holders (Function.update ref p (some a)) a = insert p (holders ref a) := by
    ext q
    by_cases hq : q = p
    · subst hq
      simp
    · simp [hq]
  rw [hinsert, Finset.card_insert_of_notMem (by simpa using h)]

/-- A place that referred to `a` refers to something else. -/
lemma card_holders_clear (h : ref p = some a) {x : Option α} (hnew : x ≠ some a) :
    (holders (Function.update ref p x) a).card + 1 = (holders ref a).card := by
  have herase : holders (Function.update ref p x) a = (holders ref a).erase p := by
    ext q
    by_cases hq : q = p
    · subst hq
      simp [hnew]
    · simp [hq]
  rw [herase, Finset.card_erase_add_one (mem_holders.mpr h)]

end Holders

/-- `owner p` is the object that the place `p` belongs to; a root belongs to none. -/
inductive Reachable (owner : π → Option α) (ref : π → Option α) : α → Prop
  | root {p : π} {a : α} : owner p = none → ref p = some a → Reachable owner ref a
  | step {p : π} {a b : α} : Reachable owner ref b → owner p = some b → ref p = some a →
      Reachable owner ref a

/-- `b` has a place that refers to `a`. -/
def Holds (owner : π → Option α) (ref : π → Option α) (b a : α) : Prop :=
  ∃ p, owner p = some b ∧ ref p = some a

variable {owner ref : π → Option α}

/-- Where no object holds itself through others, an object that has a holder, as its owner has, is
reached. -/
theorem reachable_of_held [Finite α] (hacyclic : ∀ a, ¬ Relation.TransGen (Holds owner ref) a a)
    {P : α → Prop} (hheld : ∀ a, P a → ∃ p, ref p = some a ∧ ∀ b, owner p = some b → P b)
    {a : α} (ha : P a) : Reachable owner ref a := by
  have hwf : WellFounded (Relation.TransGen (Holds owner ref)) := by
    have hirrefl : Std.Irrefl (Relation.TransGen (Holds owner ref)) := ⟨hacyclic⟩
    exact Finite.wellFounded_of_trans_of_irrefl _
  induction a using hwf.induction with
  | _ a ih =>
    obtain ⟨p, hp, howner⟩ := hheld a ha
    cases h : owner p with
    | none => exact .root h hp
    | some b => exact .step (ih b (.single ⟨p, h, hp⟩) (howner b h)) h hp

end References
