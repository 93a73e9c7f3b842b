import Mathlib.Logic.Relation
import Mathlib.Tactic.Common

/-!
# Loops

The body of a loop goes on with a new state (`Sum.inl`) or leaves with a value (`Sum.inr`). A loop
`for (i = 0; i < n; ++i)` gives up after `n` rounds; `Leaves` is the loop without a bound.
-/

namespace Loop

variable {σ τ : Type*} {body : σ → σ ⊕ τ} {s s' : σ} {t t' : τ}

def runFor (body : σ → σ ⊕ τ) : Nat → σ → σ ⊕ τ
  | 0, s => .inl s
  | n + 1, s =>
    match body s with
    | .inl s' => runFor body n s'
    | .inr t => .inr t

lemma runFor_next (h : body s = .inl s') (n : Nat) :
    runFor body (n + 1) s = runFor body n s' := by
  rw [runFor, h]

lemma runFor_leave (h : body s = .inr t) (n : Nat) : runFor body (n + 1) s = .inr t := by
  rw [runFor, h]

/-- What every round preserves holds of the value with which the loop is left. -/
theorem runFor_rule {P : σ → Prop} {Q : τ → Prop}
    (hnext : ∀ s s', P s → body s = .inl s' → P s')
    (hleave : ∀ s t, P s → body s = .inr t → Q t) {n : Nat} (hs : P s)
    (h : runFor body n s = .inr t) : Q t := by
  induction n generalizing s with
  | zero => cases h
  | succ n ih =>
    cases hbody : body s with
    | inl s' =>
      rw [runFor_next hbody] at h
      exact ih (hnext s s' hs hbody) h
    | inr t' =>
      rw [runFor_leave hbody, Sum.inr.injEq] at h
      subst h
      exact hleave s t' hs hbody

/-- A loop keeps what every round keeps, whether it is left or gives up. -/
theorem runFor_elim {P : σ → Prop} {Q : τ → Prop} (hbody : ∀ s, P s → (body s).elim P Q)
    (n : Nat) (hs : P s) : (runFor body n s).elim P Q := by
  induction n generalizing s with
  | zero => exact hs
  | succ n ih =>
    have hround := hbody s hs
    cases hnext : body s with
    | inl s' =>
      rw [hnext] at hround
      rw [runFor_next hnext]
      exact ih hround
    | inr t =>
      rw [hnext] at hround
      rw [runFor_leave hnext]
      exact hround

/-- Rounds that correspond make loops that correspond. -/
theorem runFor_map {σ' τ' : Type*} {body' : σ' → σ' ⊕ τ'} {f : σ → σ'} {g : τ → τ'}
    {P : σ → Prop} (hbody : ∀ s, P s → body' (f s) = (body s).map f g)
    (hnext : ∀ s s', P s → body s = .inl s' → P s') (n : Nat) (hs : P s) :
    runFor body' n (f s) = (runFor body n s).map f g := by
  induction n generalizing s with
  | zero => rfl
  | succ n ih =>
    have hround := hbody s hs
    cases hstep : body s with
    | inl s' =>
      rw [hstep] at hround
      rw [runFor_next hround, runFor_next hstep]
      exact ih (hnext s s' hs hstep)
    | inr t =>
      rw [hstep] at hround
      rw [runFor_leave hround, runFor_leave hstep]
      rfl

/-- A loop whose rounds use something up gives up only after as many rounds. -/
theorem runFor_measure {μ : σ → Nat} (hμ : ∀ s s', body s = .inl s' → μ s' < μ s) {n : Nat}
    (h : runFor body n s = .inl s') : n + μ s' ≤ μ s := by
  induction n generalizing s with
  | zero =>
    rw [runFor, Sum.inl.injEq] at h
    subst h
    omega
  | succ n ih =>
    cases hbody : body s with
    | inl s₁ =>
      rw [runFor_next hbody] at h
      have hrest := ih h
      have hround := hμ s s₁ hbody
      omega
    | inr t =>
      rw [runFor_leave hbody] at h
      cases h

/-- The loop is left with `t` in the round of this number. -/
inductive LeavesIn (body : σ → σ ⊕ τ) : Nat → σ → τ → Prop
  | leave {s : σ} {t : τ} : body s = .inr t → LeavesIn body 1 s t
  | next {n : Nat} {s s' : σ} {t : τ} :
      body s = .inl s' → LeavesIn body n s' t → LeavesIn body (n + 1) s t

lemma LeavesIn.runFor_of_le {n k : Nat} (h : LeavesIn body n s t) (hn : n ≤ k) :
    runFor body k s = .inr t := by
  induction h generalizing k with
  | leave hbody =>
    obtain ⟨k, rfl⟩ := Nat.exists_eq_add_of_le' hn
    exact runFor_leave hbody k
  | next hbody _ ih =>
    obtain ⟨k, rfl⟩ := Nat.exists_eq_add_of_le' (Nat.le_of_add_left_le hn)
    rw [runFor_next hbody]
    exact ih (Nat.le_of_succ_le_succ hn)

lemma LeavesIn.runFor_of_lt {n k : Nat} (h : LeavesIn body n s t) (hk : k < n) :
    ∃ s', runFor body k s = .inl s' := by
  induction h generalizing k with
  | @leave s t hbody =>
    obtain rfl := Nat.lt_one_iff.mp hk
    exact ⟨s, rfl⟩
  | @next n s s' t hbody _ ih =>
    cases k with
    | zero => exact ⟨s, rfl⟩
    | succ k =>
      rw [runFor_next hbody]
      exact ih (Nat.lt_of_succ_lt_succ hk)

/-- The loop without a bound is left with `t`. -/
inductive Leaves (body : σ → σ ⊕ τ) : σ → τ → Prop
  | leave {s : σ} {t : τ} : body s = .inr t → Leaves body s t
  | next {s s' : σ} {t : τ} : body s = .inl s' → Leaves body s' t → Leaves body s t

/-- Rounds of the loop. -/
abbrev Rounds (body : σ → σ ⊕ τ) : σ → σ → Prop :=
  Relation.ReflTransGen fun s s' => body s = .inl s'

lemma Rounds.leaves (h : Rounds body s s') (ht : Leaves body s' t) : Leaves body s t := by
  induction h using Relation.ReflTransGen.head_induction_on with
  | refl => exact ht
  | head hbody _ ih => exact .next hbody ih

lemma Leaves.unique (h : Leaves body s t) (h' : Leaves body s t') : t = t' := by
  induction h with
  | leave hbody =>
    cases h' with
    | leave hbody' => exact Sum.inr.inj (hbody.symm.trans hbody')
    | next hbody' _ => cases hbody.symm.trans hbody'
  | next hbody _ ih =>
    cases h' with
    | leave hbody' => cases hbody.symm.trans hbody'
    | next hbody' hrest =>
      cases hbody.symm.trans hbody'
      exact ih hrest

end Loop
