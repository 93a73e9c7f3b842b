import Mathlib.Algebra.BigOperators.Group.Finset.Piecewise
import Mathlib.Algebra.Order.BigOperators.Group.Finset
import Mathlib.Algebra.BigOperators.Ring.Finset
import Mathlib.Data.List.Count
import Mathlib.Data.Rat.Cast.Order
import Mathlib.Tactic.Linarith
import Mathlib.Tactic.Ring

/-!
# Smooth weighted round robin

Each of finitely many candidates has a weight and a credit. A round adds to every credit the weight,
picks a candidate whose credit is then greatest and takes the sum of all weights from its credit.
From zero credits, a credit is the share of the rounds that its candidate was due and has not been
picked for, in units of the total weight. The credits sum to zero and are greater than minus the
total, so after a whole period they are zero again: every candidate has been picked exactly as often
as its weight says.
-/

namespace SmoothRoundRobin

variable {ι : Type} [DecidableEq ι] {S : Finset ι} {w c c' : ι → ℤ} {i j : ι}

/-- A round that picks `i`. -/
structure Round (S : Finset ι) (w c : ι → ℤ) (i : ι) (c' : ι → ℤ) : Prop where
  mem : i ∈ S
  greatest : ∀ j ∈ S, c j + w j ≤ c i + w i
  next : ∀ j ∈ S, c' j = c j + w j - if i = j then ∑ l ∈ S, w l else 0

/-- What holds of the credits between two rounds. -/
structure Balanced (S : Finset ι) (w c : ι → ℤ) : Prop where
  sum_eq_zero : ∑ j ∈ S, c j = 0
  neg_lt : ∀ j ∈ S, -∑ l ∈ S, w l < c j

omit [DecidableEq ι] in
lemma balanced_zero (hw : 0 < ∑ l ∈ S, w l) : Balanced S w fun _ => 0 where
  sum_eq_zero := Finset.sum_const_zero
  neg_lt := fun _ _ => neg_neg_of_pos hw

omit [DecidableEq ι] in
/-- Before the payment the credits sum to the total weight, so the greatest is positive. -/
lemma greatest_pos (h : ∀ j ∈ S, c j + w j ≤ c i + w i) (hc : ∑ j ∈ S, c j = 0)
    (hw : 0 < ∑ l ∈ S, w l) : 0 < c i + w i := by
  by_contra hle
  have hsum : ∑ j ∈ S, (c j + w j) ≤ 0 := by
    apply Finset.sum_nonpos
    intro j hj
    exact (h j hj).trans (not_lt.mp hle)
  rw [Finset.sum_add_distrib, hc] at hsum
  omega

theorem Round.balanced (h : Round S w c i c') (hc : Balanced S w c) (hw : 0 < ∑ l ∈ S, w l)
    (hnonneg : ∀ j ∈ S, 0 ≤ w j) : Balanced S w c' where
  sum_eq_zero := by
    rw [Finset.sum_congr rfl h.next, Finset.sum_sub_distrib, Finset.sum_add_distrib,
      Finset.sum_ite_eq S i, if_pos h.mem, hc.sum_eq_zero]
    omega
  neg_lt := by
    intro j hj
    have hpos := greatest_pos h.greatest hc.sum_eq_zero hw
    have hj' := hc.neg_lt j hj
    have hwj := hnonneg j hj
    rw [h.next j hj]
    split
    · next heq =>
      subst heq
      omega
    · omega

/-- The others owe at most the total less one each. -/
lemma Balanced.le (hc : Balanced S w c) (hj : j ∈ S) :
    c j ≤ (S.card - 1) * (∑ l ∈ S, w l - 1) := by
  have hsplit := Finset.add_sum_erase S c hj
  rw [hc.sum_eq_zero] at hsplit
  have hrest : (S.erase j).card • (1 - ∑ l ∈ S, w l) ≤ ∑ l ∈ S.erase j, c l := by
    apply Finset.card_nsmul_le_sum
    intro l hl
    have := hc.neg_lt l (Finset.mem_of_mem_erase hl)
    omega
  rw [Finset.card_erase_of_mem hj, nsmul_eq_mul,
    Nat.cast_sub (Finset.card_pos.mpr ⟨j, hj⟩)] at hrest
  push_cast at hrest
  linarith

/-- Credits that no round takes out of the range `-W < c ≤ n * W`. -/
lemma Balanced.add_le (hc : Balanced S w c) (hj : j ∈ S) (hle : w j ≤ ∑ l ∈ S, w l) :
    c j + w j ≤ S.card * ∑ l ∈ S, w l := by
  have hcj := hc.le hj
  have hcard : (1 : ℤ) ≤ S.card := by exact_mod_cast Finset.card_pos.mpr ⟨j, hj⟩
  linarith [mul_comm ((S.card : ℤ) - 1) (∑ l ∈ S, w l - 1)]

section Run

variable {credit : ℕ → ι → ℤ} {pick : ℕ → ι} {k m : ℕ}

/-- How often `j` is picked in the first `k` rounds. -/
def picks (pick : ℕ → ι) (j : ι) (k : ℕ) : ℕ := ((List.range k).map pick).count j

lemma picks_succ (pick : ℕ → ι) (j : ι) (k : ℕ) :
    picks pick j (k + 1) = picks pick j k + if pick k = j then 1 else 0 := by
  simp only [picks, List.range_succ, List.map_append, List.map_cons, List.map_nil,
    List.count_append, List.count_singleton, beq_iff_eq]

lemma picks_add (pick : ℕ → ι) (j : ι) (k m : ℕ) :
    picks pick j (k + m) = picks pick j k + ((List.range' k m).map pick).count j := by
  rw [picks, List.range_eq_range', ← List.range'_append_1, List.map_append, List.count_append,
    Nat.zero_add, ← List.range_eq_range', picks]

variable (hzero : ∀ j ∈ S, credit 0 j = 0)
  (hround : ∀ k, Round S w (credit k) (pick k) (credit (k + 1)))

include hzero hround

/-- The credit is what the candidate was due less what it has been given. -/
theorem credit_eq (k : ℕ) (hj : j ∈ S) :
    credit k j = k * w j - (∑ l ∈ S, w l) * picks pick j k := by
  induction k with
  | zero => simp [hzero j hj, picks]
  | succ k ih =>
    rw [(hround k).next j hj, ih, picks_succ]
    split
    · push_cast
      ring
    · push_cast
      ring

variable (hw : 0 < ∑ l ∈ S, w l) (hnonneg : ∀ j ∈ S, 0 ≤ w j)

include hw hnonneg

theorem balanced (k : ℕ) : Balanced S w (credit k) := by
  induction k with
  | zero =>
    have h := balanced_zero (S := S) hw
    exact ⟨by rw [Finset.sum_congr rfl hzero, h.sum_eq_zero],
      fun j hj => by rw [hzero j hj]; exact h.neg_lt j hj⟩
  | succ k ih => exact (hround k).balanced ih hw hnonneg

/-- No candidate is ahead of its share by a whole pick. -/
theorem picks_lt (k : ℕ) (hj : j ∈ S) :
    (picks pick j k : ℚ) < k * w j / (∑ l ∈ S, w l : ℤ) + 1 := by
  have hcredit := (balanced hzero hround hw hnonneg k).neg_lt j hj
  rw [credit_eq hzero hround k hj] at hcredit
  have hpos : (0 : ℚ) < (∑ l ∈ S, w l : ℤ) := by exact_mod_cast hw
  rw [← sub_lt_iff_lt_add, lt_div_iff₀ hpos]
  have hq : ((∑ l ∈ S, w l : ℤ) : ℚ) * picks pick j k < k * w j + (∑ l ∈ S, w l : ℤ) := by
    exact_mod_cast (by linarith : (∑ l ∈ S, w l) * (picks pick j k : ℤ) < k * w j + ∑ l ∈ S, w l)
  linarith

/-- After whole periods every credit is a multiple of the total above its negative, and they sum to
zero. -/
theorem credit_period (hk : (k : ℤ) = m * ∑ l ∈ S, w l) (hj : j ∈ S) : credit k j = 0 := by
  have hbal := balanced hzero hround hw hnonneg k
  have hmul : ∀ l ∈ S, credit k l = (∑ l ∈ S, w l) * (m * w l - picks pick l k) := by
    intro l hl
    rw [credit_eq hzero hround k hl, hk]
    ring
  have hge : ∀ l ∈ S, 0 ≤ credit k l := by
    intro l hl
    have hlt := hbal.neg_lt l hl
    rw [hmul l hl] at hlt ⊢
    have : -1 < (m * w l - picks pick l k : ℤ) := by
      by_contra hle
      have := mul_le_mul_of_nonneg_left (not_lt.mp hle) hw.le
      linarith
    exact mul_nonneg hw.le (by omega)
  exact (Finset.sum_eq_zero_iff_of_nonneg hge).mp hbal.sum_eq_zero j hj

/-- A period gives every candidate as many picks as its weight. -/
theorem picks_period (hk : (k : ℤ) = m * ∑ l ∈ S, w l) (hj : j ∈ S) :
    (picks pick j k : ℤ) = m * w j := by
  have hzero' := credit_period hzero hround hw hnonneg hk hj
  rw [credit_eq hzero hround k hj, hk] at hzero'
  have hfactor : (∑ l ∈ S, w l) * (m * w j - picks pick j k) = 0 := by
    rw [← hzero']
    ring
  have := (mul_eq_zero.mp hfactor).resolve_left hw.ne'
  omega

end Run

end SmoothRoundRobin
