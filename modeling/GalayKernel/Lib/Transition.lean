import Mathlib.Logic.Basic
import Mathlib.Data.List.Basic

/-!
# Guarded step functions

A concurrent program is given by an executable step function: `step s a` is the state
after action `a`, or `none` when `a` is disabled in `s`. `Reaches step ok init` collects
the states of all interleavings whose steps each meet `ok` in the state before the step,
so an assumption on the environment and a condition on the run are stated the same way.
-/

namespace Transition

variable {σ α κ : Type}

/-- Replays a list of actions. The replay fails at the first disabled action. -/
def run (step : σ → α → Option σ) : σ → List α → Option σ
  | s, [] => some s
  | s, a :: as => (step s a).bind (fun s' => run step s' as)

lemma run_cons {step : σ → α → Option σ} {s s' : σ} {a : α} (h : step s a = some s')
    (as : List α) : run step s (a :: as) = run step s' as := by
  rw [run, h, Option.bind_some]

lemma run_append (step : σ → α → Option σ) (s : σ) (as bs : List α) :
    run step s (as ++ bs) = (run step s as).bind (fun s' => run step s' bs) := by
  induction as generalizing s with
  | nil => rfl
  | cons a as ih => simp only [List.cons_append, run, ih, Option.bind_assoc]

/-- The states reached by enabled steps that meet `ok` in the state before the step. -/
inductive Reaches (step : σ → α → Option σ) (ok : σ → α → Prop) (init : σ) : σ → Prop
  | start : Reaches step ok init init
  | next {s s' : σ} {a : α} : Reaches step ok init s → ok s a → step s a = some s' →
      Reaches step ok init s'

/-- What holds initially and is preserved by every permitted step holds in every state reached. -/
theorem Reaches.invariant {step : σ → α → Option σ} {ok : σ → α → Prop} {init : σ}
    {P : σ → Prop} (hinit : P init)
    (hstep : ∀ s a s', P s → ok s a → step s a = some s' → P s')
    {s : σ} (h : Reaches step ok init s) : P s := by
  induction h with
  | start => exact hinit
  | next _ hok hs ih => exact hstep _ _ _ ih hok hs

theorem Reaches.trans {step : σ → α → Option σ} {ok : σ → α → Prop} {init s s' : σ}
    (h : Reaches step ok init s) (h' : Reaches step ok s s') : Reaches step ok init s' := by
  induction h' with
  | start => exact h
  | next _ hok hs ih => exact ih.next hok hs

theorem Reaches.mono {step : σ → α → Option σ} {ok ok' : σ → α → Prop} {init s : σ}
    (hok : ∀ s a, ok s a → ok' s a) (h : Reaches step ok init s) : Reaches step ok' init s := by
  induction h with
  | start => exact .start
  | next _ ha hs ih => exact ih.next (hok _ _ ha) hs

/-- An invariant may show that the steps made meet a stronger condition. -/
theorem Reaches.strengthen {step : σ → α → Option σ} {ok ok' : σ → α → Prop} {init : σ}
    {P : σ → Prop} (hinit : P init)
    (hstep : ∀ s a s', P s → ok s a → step s a = some s' → ok' s a ∧ P s')
    {s : σ} (h : Reaches step ok init s) : Reaches step ok' init s ∧ P s := by
  induction h with
  | start => exact ⟨.start, hinit⟩
  | next _ hok hs ih =>
    obtain ⟨hok', hP⟩ := hstep _ _ _ ih.2 hok hs
    exact ⟨ih.1.next hok' hs, hP⟩

/-- The step function with an executable check of the state before the step. -/
def guarded (check : σ → α → Bool) (step : σ → α → Option σ) (s : σ) (a : α) : Option σ :=
  if check s a then step s a else none

lemma guarded_true (step : σ → α → Option σ) : guarded (fun _ _ => true) step = step := rfl

lemma run_of_guarded {check : σ → α → Bool} {step : σ → α → Option σ} {s s' : σ} {as : List α}
    (h : run (guarded check step) s as = some s') : run step s as = some s' := by
  induction as generalizing s with
  | nil => exact h
  | cons a as ih =>
    obtain ⟨t, ht, h⟩ := Option.bind_eq_some_iff.mp h
    obtain ⟨-, ht⟩ := Option.ite_none_right_eq_some.mp ht
    exact Option.bind_eq_some_iff.mpr ⟨t, ht, ih h⟩

/-- A checked replay stays among the states reached. -/
theorem Reaches.of_run {step : σ → α → Option σ} {ok : σ → α → Prop} {init s s' : σ}
    (check : σ → α → Bool) (hcheck : ∀ s a, check s a = true → ok s a) (as : List α)
    (hs : Reaches step ok init s) (h : run (guarded check step) s as = some s') :
    Reaches step ok init s' := by
  induction as generalizing s with
  | nil =>
    rw [run, Option.some.injEq] at h
    exact h ▸ hs
  | cons a as ih =>
    rw [run, Option.bind_eq_some_iff] at h
    obtain ⟨t, ht, h⟩ := h
    unfold guarded at ht
    split at ht
    · exact ih (hs.next (hcheck s a ‹_›) ht) h
    · cases ht

/-- A replay of actions that are permitted in every state stays among the states reached. -/
theorem Reaches.of_permitted {step : σ → α → Option σ} {ok : σ → α → Prop} {init s s' : σ}
    (as : List α) (hok : ∀ a ∈ as, ∀ s, ok s a) (hs : Reaches step ok init s)
    (h : run step s as = some s') : Reaches step ok init s' := by
  induction as generalizing s with
  | nil =>
    rw [run, Option.some.injEq] at h
    exact h ▸ hs
  | cons a as ih =>
    rw [run, Option.bind_eq_some_iff] at h
    obtain ⟨t, ht, h⟩ := h
    exact ih (fun a' ha' => hok a' (List.mem_cons_of_mem a ha'))
      (hs.next (hok a List.mem_cons_self s) ht) h

/-- Where every step is permitted, every replay counts. -/
theorem Reaches.of_replay {step : σ → α → Option σ} {init s s' : σ} (as : List α)
    (hs : Reaches step (fun _ _ => True) init s) (h : run step s as = some s') :
    Reaches step (fun _ _ => True) init s' :=
  hs.of_run (fun _ _ => true) (fun _ _ _ => trivial) as h

/-- Where every step decreases a measure, the measure bounds the length of a replay. -/
theorem run_length_le {step : σ → α → Option σ} {P : σ → Prop} {μ : σ → Nat}
    (hstep : ∀ s a s', P s → step s a = some s' → P s' ∧ μ s' < μ s) {s s' : σ} (hs : P s)
    {as : List α} (h : run step s as = some s') : P s' ∧ as.length + μ s' ≤ μ s := by
  induction as generalizing s with
  | nil =>
    rw [run, Option.some.injEq] at h
    subst h
    exact ⟨hs, by simp⟩
  | cons a as ih =>
    rw [run, Option.bind_eq_some_iff] at h
    obtain ⟨t, ht, h⟩ := h
    obtain ⟨hP, hlt⟩ := hstep s a t hs ht
    obtain ⟨hP', hle⟩ := ih hP h
    refine ⟨hP', ?_⟩
    rw [List.length_cons]
    omega

/-- A loop over a list: what holds with the elements still to come holds at the end. -/
theorem foldl_rest {f : σ → α → σ} {P : List α → σ → Prop}
    (hstep : ∀ a as s, P (a :: as) s → P as (f s a)) (as : List α) (s : σ) (h : P as s) :
    P [] (as.foldl f s) := by
  induction as generalizing s with
  | nil => exact h
  | cons a as ih => exact ih (f s a) (hstep a as s h)

/-- At most one place carries the token. -/
def Exclusive (P : κ → Prop) : Prop := ∀ x y, P x → P y → x = y

lemma Exclusive.mono {P Q : κ → Prop} (h : Exclusive P) (hQ : ∀ x, Q x → P x) : Exclusive Q :=
  fun x y hx hy => h x y (hQ x hx) (hQ y hy)

lemma exclusive_of_only {Q : κ → Prop} (new : κ) (hQ : ∀ x, Q x → x = new) : Exclusive Q :=
  fun x y hx hy => (hQ x hx).trans (hQ y hy).symm

/-- The token moves from `old` to `new`: every other place had none before. -/
lemma Exclusive.move {P Q : κ → Prop} (h : Exclusive P) (old new : κ) (hold : P old)
    (hQ : ∀ x, Q x → x = new ∨ (P x ∧ x ≠ old)) : Exclusive Q := by
  apply exclusive_of_only new
  intro x hx
  rcases hQ x hx with rfl | ⟨hP, hne⟩
  · rfl
  · exact absurd (h x old hP hold) hne

/-- The token lies in the pool, or exactly one place holds it, once. -/
def HeldOnce (pool : Nat) (held : κ → Nat) : Prop :=
  (pool = 1 ∧ ∀ x, held x = 0) ∨ (pool = 0 ∧ ∃ x, held x = 1 ∧ ∀ y, y ≠ x → held y = 0)

/-- An exchange between the pool and one place. -/
lemma HeldOnce.exchange {pool pool' : Nat} {held held' : κ → Nat} (h : HeldOnce pool held) (x : κ)
    (hother : ∀ y, y ≠ x → held' y = held y) (hsum : pool' + held' x = pool + held x) :
    HeldOnce pool' held' := by
  obtain ⟨hpool, hnone⟩ | ⟨hpool, z, hz, hnone⟩ := h
  · rw [hpool, hnone x] at hsum
    obtain hpool' | hpool' : pool' = 1 ∨ pool' = 0 := by omega
    · refine .inl ⟨hpool', fun y => ?_⟩
      by_cases hy : y = x
      · subst hy
        omega
      · rw [hother y hy, hnone y]
    · refine .inr ⟨hpool', x, by omega, fun y hy => ?_⟩
      rw [hother y hy, hnone y]
  · by_cases hx : z = x
    · subst hx
      rw [hpool, hz] at hsum
      obtain hpool' | hpool' : pool' = 1 ∨ pool' = 0 := by omega
      · refine .inl ⟨hpool', fun y => ?_⟩
        by_cases hy : y = z
        · subst hy
          omega
        · rw [hother y hy, hnone y hy]
      · refine .inr ⟨hpool', z, by omega, fun y hy => ?_⟩
        rw [hother y hy, hnone y hy]
    · rw [hpool, hnone x (Ne.symm hx)] at hsum
      refine .inr ⟨by omega, z, by rw [hother z hx, hz], fun y hy => ?_⟩
      by_cases hyx : y = x
      · subst hyx
        omega
      · rw [hother y hyx, hnone y hy]

end Transition
