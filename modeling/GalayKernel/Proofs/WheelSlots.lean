import GalayKernel.TimerWheel
import Mathlib.Tactic.Ring

namespace GalayKernel.Proofs
open TimerWheel

lemma Wheel.size_eq_two_pow (w : Wheel) : ∃ k, w.size = 2 ^ k := by
  cases w
  · exact ⟨8, rfl⟩
  all_goals exact ⟨6, rfl⟩

lemma slotAt_eq_iff {w : Wheel} {a b : Nat} :
    slotAt w a = slotAt w b ↔ a / 2 ^ w.shift % w.size = b / 2 ^ w.shift % w.size := by
  obtain ⟨k, hk⟩ := Wheel.size_eq_two_pow w
  simp only [slotAt, Sigma.mk.injEq, heq_eq_eq, true_and, Fin.mk.injEq, hk,
    Nat.and_two_pow_sub_one_eq_mod, Nat.shiftRight_eq_div_pow]

lemma slotAt_wheel1 {a b : Nat} : slotAt .wheel1 a = slotAt .wheel1 b ↔ a % 256 = b % 256 := by
  rw [slotAt_eq_iff]
  simp [Wheel.shift, Wheel.size]

/-- The tick at which the slot of `tick` in wheel `w` is reached. -/
def visit (w : Wheel) (tick : Nat) : Nat := tick / 2 ^ w.shift * 2 ^ w.shift

lemma visit_le (w : Wheel) (tick : Nat) : visit w tick ≤ tick := Nat.div_mul_le_self _ _

lemma lt_visit (w : Wheel) (tick : Nat) : tick < visit w tick + 2 ^ w.shift := by
  have h := Nat.div_add_mod tick (2 ^ w.shift)
  have hlt := Nat.mod_lt tick (Nat.two_pow_pos w.shift)
  rw [Nat.mul_comm] at h
  unfold visit
  omega

lemma dvd_visit (w : Wheel) (tick : Nat) : 2 ^ w.shift ∣ visit w tick := Dvd.intro_left _ rfl

lemma slotAt_visit (w : Wheel) (tick : Nat) : slotAt w (visit w tick) = slotAt w tick := by
  rw [slotAt_eq_iff, visit, Nat.mul_div_cancel _ (Nat.two_pow_pos _)]

/-- A timer in wheel `w` is at least one slot of `w` and less than one turn of it away. -/
lemma wheelFor_bounds {ticks : Nat} {w : Wheel} (h : wheelFor ticks = some w) :
    (w ≠ .wheel1 → 2 ^ w.shift ≤ ticks) ∧ ticks < w.span := by
  unfold wheelFor at h
  split_ifs at h <;> cases h <;> simp_all [Wheel.shift, Wheel.span, Wheel.size]

lemma wheelFor_eq_none {ticks : Nat} : wheelFor ticks = none ↔ 2 ^ 32 ≤ ticks := by
  unfold wheelFor
  split_ifs <;> simp_all [Wheel.span, Wheel.size] <;> omega

/-- A slot is reached after a timer that is at least one tick away was put into it. -/
lemma lt_visit_of_wheelFor (base : Nat) {ticks : Nat} {w : Wheel} (h : wheelFor ticks = some w)
    (hpos : 0 < ticks) : base < visit w (base + ticks) := by
  have hb := (wheelFor_bounds h).1
  by_cases hw : w = .wheel1
  · subst hw
    simp only [visit, Wheel.shift]
    omega
  · have hv := lt_visit w (base + ticks)
    have := hb hw
    omega

lemma crosses_iff {s : TimerWheel} {k : Nat} :
    s.crosses (2 ^ k) = true ↔ 2 ^ k ∣ s.currentTick ∧ 0 < s.currentTick := by
  simp [crosses, Nat.and_two_pow_sub_one_eq_mod, Nat.dvd_iff_mod_eq_zero]

def cascadeIf (w : Wheel) (s : TimerWheel) : TimerWheel :=
  if 2 ^ w.shift ∣ s.currentTick ∧ 0 < s.currentTick then s.cascadeWheel w else s

lemma cascadeIf_eq (w : Wheel) (span : Nat) (hspan : span = 2 ^ w.shift) (s : TimerWheel) :
    (if s.crosses span then s.cascadeWheel w else s) = cascadeIf w s := by
  subst hspan
  simp only [crosses_iff, cascadeIf]

lemma cascade_eq (s : TimerWheel) : s.cascade =
    cascadeIf .wheel5 (cascadeIf .wheel4 (cascadeIf .wheel3 (cascadeIf .wheel2 s))) := by
  rw [← cascadeIf_eq .wheel2 (Wheel.size .wheel1) rfl,
    ← cascadeIf_eq .wheel3 (Wheel.span .wheel2) rfl,
    ← cascadeIf_eq .wheel4 (Wheel.span .wheel3) rfl,
    ← cascadeIf_eq .wheel5 (Wheel.span .wheel4) rfl]
  rfl

end GalayKernel.Proofs
