import GalayKernel.TaskJoin
import GalayKernel.Lib.Threads
import GalayKernel.Lib.Transition
import Mathlib.Tactic.Common

namespace GalayKernel

namespace JoinPoint

def uses : JoinPoint → Option Nat
  | lock w | checkDone w | checkPredicate w | wait w | blocked w | reacquire w | unlock w
  | unlockReturn w => some w
  | _ => none

def holds : JoinPoint → Option Nat
  | checkDone w | checkPredicate w | wait w | unlock w | unlockReturn w => some w
  | _ => none

def sleeps : JoinPoint → Bool
  | wait _ | blocked _ => true
  | _ => false

def sawDone : JoinPoint → Bool
  | unlockReturn _ | returned true => true
  | _ => false

end JoinPoint

namespace CompletionPoint

def uses : CompletionPoint → Option Nat
  | lock w | notifyAll w | unlock w => some w
  | _ => none

def holds : CompletionPoint → Option Nat
  | notifyAll w | unlock w => some w
  | _ => none

def isBefore : CompletionPoint → Bool
  | running | storeDone => true
  | _ => false

def willNotify : CompletionPoint → Bool
  | unlock _ | notified => false
  | _ => true

end CompletionPoint

end GalayKernel

namespace GalayKernel.Proofs

open Transition

variable {s s' : TaskJoin} {i : Nat}

structure JoinOk (s : TaskJoin) : Prop where
  done : s.done = !s.completing.isBefore
  waiting_uses : ∀ i w, (s.waiting i).uses = some w → s.waiter = some w
  completing_uses : ∀ w, s.completing.uses = some w → s.waiter = some w
  waiting_holds : ∀ i w, (s.waiting i).holds = some w → s.owner w = some (.waiting i)
  completing_holds : ∀ w, s.completing.holds = some w → s.owner w = some .completing
  notification : ∀ i, (s.waiting i).sleeps = true → s.completing.willNotify = true
  sawDone : ∀ i, (s.waiting i).sawDone = true → s.done = true

lemma joinOk_init : JoinOk .init where
  done := rfl
  waiting_uses := by rintro _ _ ⟨⟩
  completing_uses := by rintro _ ⟨⟩
  waiting_holds := by rintro _ _ ⟨⟩
  completing_holds := by rintro _ ⟨⟩
  notification := by rintro _ ⟨⟩
  sawDone := by rintro _ ⟨⟩

namespace JoinOk

lemma goto (h : JoinOk s) {p : JoinPoint}
    (huses : ∀ w, p.uses = some w → s.waiter = some w)
    (hholds : ∀ w, p.holds = some w → s.owner w = some (.waiting i))
    (hsleeps : p.sleeps = true → s.completing.willNotify = true)
    (hsawDone : p.sawDone = true → s.done = true) : JoinOk (s.goto i p) where
  done := h.done
  waiting_uses := by
    intro j w hw
    obtain ⟨-, hw⟩ | ⟨-, hw⟩ := Threads.of_update (P := fun q : JoinPoint => q.uses = some w) hw
    · exact huses w hw
    · exact h.waiting_uses j w hw
  completing_uses := h.completing_uses
  waiting_holds := by
    intro j w hw
    obtain ⟨hj, hheld⟩ | ⟨-, hheld⟩ :=
      Threads.of_update (P := fun q : JoinPoint => q.holds = some w) hw
    · rw [hj]
      exact hholds w hheld
    · exact h.waiting_holds j w hheld
  completing_holds := h.completing_holds
  notification := by
    intro j hj
    obtain ⟨-, hj⟩ | ⟨-, hj⟩ := Threads.of_update (P := fun q : JoinPoint => q.sleeps = true) hj
    · exact hsleeps hj
    · exact h.notification j hj
  sawDone := by
    intro j hj
    obtain ⟨-, hj⟩ | ⟨-, hj⟩ := Threads.of_update (P := fun q : JoinPoint => q.sawDone = true) hj
    · exact hsawDone hj
    · exact h.sawDone j hj

lemma acquire (h : JoinOk s) {w : Nat} (hfree : s.owner w = none) (thread : JoinThread) :
    JoinOk (s.setOwner w (some thread)) := by
  have hother : ∀ w' thread', s.owner w' = some thread' →
      (s.setOwner w (some thread)).owner w' = some thread' := by
    intro w' thread' howner
    have hne : w' ≠ w := by
      rintro rfl
      cases hfree.symm.trans howner
    exact (Function.update_of_ne hne ..).trans howner
  exact { h with
    waiting_holds := fun j w' hw => hother w' _ (h.waiting_holds j w' hw)
    completing_holds := fun w' hw => hother w' _ (h.completing_holds w' hw) }

lemma release (h : JoinOk s) {w : Nat} {point : JoinPoint} (hheld : (s.waiting i).holds = some w)
    (huses : ∀ w, point.uses = some w → s.waiter = some w) (hholds : point.holds = none)
    (hsleeps : point.sleeps = true → s.completing.willNotify = true)
    (hsawDone : point.sawDone = true → s.done = true) :
    JoinOk ((s.setOwner w none).goto i point) := by
  have howner := h.waiting_holds i w hheld
  have hgoto := h.goto (i := i) huses (by rw [hholds]; rintro _ ⟨⟩) hsleeps hsawDone
  have hother : ∀ w' thread, thread ≠ .waiting i → s.owner w' = some thread →
      Function.update s.owner w none w' = some thread := by
    intro w' thread hthread howner'
    have hne : w' ≠ w := by
      rintro rfl
      exact hthread (Option.some.inj (howner'.symm.trans howner))
    exact (Function.update_of_ne hne ..).trans howner'
  refine { hgoto with waiting_holds := ?_, completing_holds := ?_ }
  · intro j w' hw
    obtain ⟨-, hw⟩ | ⟨hj, hw⟩ := Threads.of_update (P := fun p : JoinPoint => p.holds = some w') hw
    · cases hholds.symm.trans hw
    · exact hother w' _ (fun heq => hj (JoinThread.waiting.inj heq)) (h.waiting_holds j w' hw)
  · intro w' hw
    exact hother w' _ (by rintro ⟨⟩) (h.completing_holds w' hw)

lemma publish (h : JoinOk s) (hwaiter : s.waiter = none) (w : Nat) :
    JoinOk { s with waiter := some w } :=
  { h with
    waiting_uses := fun j w' hw => by cases hwaiter.symm.trans (h.waiting_uses j w' hw)
    completing_uses := fun w' hw => by cases hwaiter.symm.trans (h.completing_uses w' hw) }

lemma willNotify_of_not_done (h : JoinOk s) (hdone : s.done = false) :
    s.completing.willNotify = true := by
  have hbefore := h.done
  rw [hdone] at hbefore
  cases hpoint : s.completing <;> rw [hpoint] at hbefore <;> first | rfl | cases hbefore

lemma proceed (h : JoinOk s) (hs : s.proceed i = some s') : JoinOk s' := by
  unfold TaskJoin.proceed at hs
  have huses := h.waiting_uses i
  have hholds := h.waiting_holds i
  have hsaw := h.sawDone i
  cases hpoint : s.waiting i <;> simp only [hpoint] at hs huses hholds hsaw
  case idle => cases hs
  case returned => cases hs
  case blocked => cases hs
  case loadDone =>
    cases hs
    by_cases hdone : s.done = true
    · rw [if_pos hdone]
      exact h.goto (by rintro _ ⟨⟩) (by rintro _ ⟨⟩) (by rintro ⟨⟩) (fun _ => hdone)
    · rw [if_neg hdone]
      exact h.goto (by rintro _ ⟨⟩) (by rintro _ ⟨⟩) (by rintro ⟨⟩) (by rintro ⟨⟩)
  case loadWaiter =>
    cases hwaiter : s.waiter <;> simp only [hwaiter] at hs <;> cases hs
    case none =>
      have hgoto := h.goto (i := i) (p := .exchangeWaiter s.allocated) (by rintro _ ⟨⟩)
        (by rintro _ ⟨⟩) (by rintro ⟨⟩) (by rintro ⟨⟩)
      exact { hgoto with }
    case some w =>
      exact h.goto (by rintro _ ⟨⟩; exact hwaiter) (by rintro _ ⟨⟩) (by rintro ⟨⟩) (by rintro ⟨⟩)
  case exchangeWaiter candidate =>
    cases hwaiter : s.waiter <;> simp only [hwaiter] at hs <;> cases hs
    case none =>
      exact (h.publish hwaiter candidate).goto (p := .lock candidate) (by rintro _ ⟨⟩; rfl)
        (by rintro _ ⟨⟩) (by rintro ⟨⟩) (by rintro ⟨⟩)
    case some w =>
      exact h.goto (by rintro _ ⟨⟩; exact hwaiter) (by rintro _ ⟨⟩) (by rintro ⟨⟩) (by rintro ⟨⟩)
  case lock w | reacquire w =>
    rw [Option.ite_none_right_eq_some] at hs
    obtain ⟨hfree, hs⟩ := hs
    cases hs
    exact (h.acquire hfree (.waiting i)).goto huses (by rintro _ ⟨⟩; exact Function.update_self ..)
      (by rintro ⟨⟩) (by rintro ⟨⟩)
  case checkDone w =>
    cases hs
    by_cases hdone : s.done = true
    · rw [if_pos hdone]
      exact h.goto huses hholds (by rintro ⟨⟩) (fun _ => hdone)
    · rw [if_neg hdone]
      exact h.goto huses hholds (by rintro ⟨⟩) (by rintro ⟨⟩)
  case checkPredicate w =>
    cases hs
    by_cases hdone : s.done = true
    · rw [if_pos hdone]
      exact h.goto huses hholds (by rintro ⟨⟩) (by rintro ⟨⟩)
    · rw [if_neg hdone]
      exact h.goto huses hholds (fun _ => h.willNotify_of_not_done (Bool.eq_false_iff.mpr hdone))
        (by rintro ⟨⟩)
  case wait w =>
    cases hs
    have hnotify := h.notification i (by rw [hpoint]; rfl)
    exact h.release (by rw [hpoint]; rfl) huses rfl (fun _ => hnotify) (by rintro ⟨⟩)
  case unlock w =>
    cases hs
    exact h.release (by rw [hpoint]; rfl) (by rintro _ ⟨⟩) rfl (by rintro ⟨⟩) (by rintro ⟨⟩)
  case unlockReturn w =>
    cases hs
    exact h.release (by rw [hpoint]; rfl) (by rintro _ ⟨⟩) rfl (by rintro ⟨⟩) hsaw

lemma notify_spec (w : Nat) (point : JoinPoint) :
    (TaskJoin.notify w point).uses = point.uses ∧ (TaskJoin.notify w point).holds = point.holds ∧
      (TaskJoin.notify w point).sawDone = point.sawDone ∧
      ((TaskJoin.notify w point).sleeps = true →
        (∃ w', point = .wait w') ∨ ∃ w', w' ≠ w ∧ point = .blocked w') := by
  cases point with
  | blocked w' =>
    rw [TaskJoin.notify]
    split
    · exact ⟨rfl, rfl, rfl, by rintro ⟨⟩⟩
    · next hne => exact ⟨rfl, rfl, rfl, fun _ => .inr ⟨w', hne, rfl⟩⟩
  | wait w' => exact ⟨rfl, rfl, rfl, fun _ => .inl ⟨w', rfl⟩⟩
  | _ => exact ⟨rfl, rfl, rfl, by rintro ⟨⟩⟩

/-- After a notification nobody sleeps: a thread that is about to would hold the mutex. -/
lemma notifyAll (h : JoinOk s) {w : Nat} (hpoint : s.completing = .notifyAll w) :
    JoinOk { s with
      waiting := fun i => TaskJoin.notify w (s.waiting i)
      completing := .unlock w } where
  done := by
    have hdone := h.done
    rw [hpoint] at hdone
    exact hdone
  waiting_uses := fun i w' hw => h.waiting_uses i w' ((notify_spec w _).1 ▸ hw)
  completing_uses := by
    rintro _ ⟨⟩
    exact h.completing_uses w (by rw [hpoint]; rfl)
  waiting_holds := fun i w' hw => h.waiting_holds i w' ((notify_spec w _).2.1 ▸ hw)
  completing_holds := by
    rintro _ ⟨⟩
    exact h.completing_holds w (by rw [hpoint]; rfl)
  notification := by
    intro i hsleeps
    have hwaiter := h.completing_uses w (by rw [hpoint]; rfl)
    have howner := h.completing_holds w (by rw [hpoint]; rfl)
    obtain ⟨w', hwait⟩ | ⟨w', hne, hblocked⟩ := (notify_spec w _).2.2.2 hsleeps
    · have hsame := h.waiting_uses i w' (by rw [hwait]; rfl)
      have howner' := h.waiting_holds i w' (by rw [hwait]; rfl)
      cases hwaiter.symm.trans hsame
      cases howner.symm.trans howner'
    · have hsame := h.waiting_uses i w' (by rw [hblocked]; rfl)
      exact absurd (Option.some.inj (hsame.symm.trans hwaiter)) hne
  sawDone := fun i hi => h.sawDone i ((notify_spec w _).2.2.1 ▸ hi)

lemma advance (h : JoinOk s) {p : CompletionPoint} (hdone : s.done = !p.isBefore)
    (huses : ∀ w, p.uses = some w → s.waiter = some w)
    (hholds : ∀ w, p.holds = some w → s.owner w = some .completing)
    (hnotify : ∀ i, (s.waiting i).sleeps = true → p.willNotify = true) :
    JoinOk { s with completing := p } :=
  { h with
    done := hdone
    completing_uses := huses
    completing_holds := hholds
    notification := hnotify }

lemma uses_of_sleeps {point : JoinPoint} (h : point.sleeps = true) : ∃ w, point.uses = some w := by
  cases point with
  | wait w | blocked w => exact ⟨w, rfl⟩
  | _ => cases h

lemma finish (h : JoinOk s) {w : Nat} (hpoint : s.completing = .unlock w) :
    JoinOk { s.setOwner w none with completing := .notified } := by
  have hdone := h.done
  have howner := h.completing_holds w (by rw [hpoint]; rfl)
  have hnotify := h.notification
  rw [hpoint] at hdone hnotify
  have hnotified := h.advance (p := .notified) hdone (by rintro _ ⟨⟩) (by rintro _ ⟨⟩) hnotify
  refine { hnotified with waiting_holds := ?_, completing_holds := by rintro _ ⟨⟩ }
  intro i w' hw
  have howner' := h.waiting_holds i w' hw
  have hne : w' ≠ w := by
    rintro rfl
    cases howner.symm.trans howner'
  exact (Function.update_of_ne hne ..).trans howner'

lemma complete (h : JoinOk s) (hs : s.complete = some s') : JoinOk s' := by
  unfold TaskJoin.complete at hs
  have hdone := h.done
  have huses := h.completing_uses
  split at hs
  · next hpoint =>
    rw [hpoint] at hdone
    cases hs
    exact h.advance hdone (by rintro _ ⟨⟩) (by rintro _ ⟨⟩) (fun _ _ => rfl)
  · next hpoint =>
    cases hs
    have hmarked : JoinOk { s with done := true, completing := .loadWaiter } :=
      { h with
        done := rfl
        completing_uses := by rintro _ ⟨⟩
        completing_holds := by rintro _ ⟨⟩
        notification := fun _ _ => rfl
        sawDone := fun _ _ => rfl }
    exact hmarked
  · next hpoint =>
    rw [hpoint] at hdone
    split at hs
    · next hwaiter =>
      cases hs
      refine h.advance hdone (by rintro _ ⟨⟩) (by rintro _ ⟨⟩) fun i hsleeps => ?_
      obtain ⟨w, hw⟩ := uses_of_sleeps hsleeps
      cases hwaiter.symm.trans (h.waiting_uses i w hw)
    · next w hwaiter =>
      cases hs
      exact h.advance hdone (by rintro _ ⟨⟩; exact hwaiter) (by rintro _ ⟨⟩) (fun _ _ => rfl)
  · next w hpoint =>
    rw [hpoint] at hdone huses
    rw [Option.ite_none_right_eq_some] at hs
    obtain ⟨hfree, hs⟩ := hs
    cases hs
    exact (h.acquire hfree .completing).advance hdone huses
      (by rintro _ ⟨⟩; exact Function.update_self ..) (fun _ _ => rfl)
  · next w hpoint =>
    cases hs
    exact h.notifyAll hpoint
  · next w hpoint =>
    cases hs
    exact h.finish hpoint
  · cases hs

lemma step {a : JoinAction} (h : JoinOk s) (hs : s.step a = some s') : JoinOk s' := by
  cases a with
  | call i hasState =>
    have hcalled : JoinOk (s.goto i (if hasState then .loadDone else .returned false)) := by
      cases hasState <;>
        exact h.goto (by rintro _ ⟨⟩) (by rintro _ ⟨⟩) (by rintro ⟨⟩) (by rintro ⟨⟩)
    rw [TaskJoin.step] at hs
    split at hs
    · cases hs
      exact hcalled
    · cases hs
      exact hcalled
    · cases hs
  | proceed i => exact h.proceed hs
  | spuriousWake i =>
    rw [TaskJoin.step] at hs
    split at hs
    · next w hpoint =>
      cases hs
      refine h.goto ?_ (by rintro _ ⟨⟩) (by rintro ⟨⟩) (by rintro ⟨⟩)
      rintro _ ⟨⟩
      exact h.waiting_uses i w (by rw [hpoint]; rfl)
    · cases hs
  | complete => exact h.complete hs

end JoinOk

lemma joinOk_reaches (h : Reaches TaskJoin.step (fun _ _ => True) .init s) : JoinOk s :=
  h.invariant (P := JoinOk) joinOk_init (fun _ _ _ hok _ hs => hok.step hs)

/-- Once the waiting threads have been notified, none of them is blocked; and a thread returns true
only after the task was marked done. -/
theorem join_not_missed (h : Reaches TaskJoin.step (fun _ _ => True) .init s) :
    ((s.completing = .notified ∨ ∃ w, s.completing = .unlock w) →
      ∀ i w, s.waiting i ≠ .blocked w) ∧
    ∀ i, s.waiting i = .returned true → s.done = true := by
  have hok := joinOk_reaches h
  constructor
  · intro hnotified i w hblocked
    have hwill := hok.notification i (by rw [hblocked]; rfl)
    obtain hnotified | ⟨_, hnotified⟩ := hnotified <;> rw [hnotified] at hwill <;> cases hwill
  · intro i hreturned
    exact hok.sawDone i (by rw [hreturned]; rfl)

/-- Thread 0 blocks before the task completes; thread 1 comes when it is done. -/
def waitsAndComesLate : List JoinAction :=
  [.call 0 true] ++ List.replicate 7 (.proceed 0) ++ List.replicate 6 .complete ++
    List.replicate 4 (.proceed 0) ++ [.call 1 true, .proceed 1]

theorem waitsAndComesLate_not_missed : ∃ s : TaskJoin, s.waiting 0 = .returned true ∧
    s.waiting 1 = .returned true ∧ s.done = true ∧ ∀ i w, s.waiting i ≠ .blocked w := by
  have hreaches : Reaches TaskJoin.step (fun _ _ => True) .init _ :=
    .of_replay waitsAndComesLate .start rfl
  have hjoin := join_not_missed hreaches
  exact ⟨_, rfl, rfl, hjoin.2 0 rfl, hjoin.1 (.inl rfl)⟩

end GalayKernel.Proofs
