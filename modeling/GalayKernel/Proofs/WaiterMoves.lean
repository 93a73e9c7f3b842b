import GalayKernel.AsyncWaiter
import GalayKernel.Lib.Transition
import GalayKernel.Proofs.TaskWake

namespace GalayKernel

def NotifyPoint.won {α : Type} : NotifyPoint α → Option α
  | .store v | .clearWaiting v | .wakeUp v => some v
  | _ => none

end GalayKernel

namespace GalayKernel.Proofs
open AsyncWait Transition

variable {ι α : Type} [DecidableEq ι]

inductive WaitMove (s : AsyncWait ι α) : AsyncWaitAction ι α → AsyncWait ι α → Prop
  | notify {i v} (hi : s.notifiers i = .idle) :
      WaitMove s (.notify i v) (s.setNotifier i (.setReady v))
  | loses {i v} (hi : s.notifiers i = .setReady v) (hready : s.waiter.ready = true) :
      WaitMove s (.notifyStep i) { s.setNotifier i .idle with calls := s.calls ++ [(v, false)] }
  | wins {i v} (hi : s.notifiers i = .setReady v) (hready : s.waiter.ready = false) :
      WaitMove s (.notifyStep i)
        { s.setNotifier i (match s.kind with | .value => .store v | .void => .clearWaiting v) with
          waiter := { s.waiter with ready := true } }
  | store {i v} (hi : s.notifiers i = .store v) :
      WaitMove s (.notifyStep i)
        { s.setNotifier i (.clearWaiting v) with waiter := { s.waiter with result := some v } }
  | takes {i v} (hi : s.notifiers i = .clearWaiting v) (hwaiting : s.waiter.waiting = true) :
      WaitMove s (.notifyStep i)
        { s.setNotifier i (.wakeUp v) with waiter := { s.waiter with waiting := false } }
  | nobody {i v} (hi : s.notifiers i = .clearWaiting v) (hwaiting : s.waiter.waiting = false) :
      WaitMove s (.notifyStep i) { s.setNotifier i .idle with calls := s.calls ++ [(v, true)] }
  | wakeUp {i v} (hi : s.notifiers i = .wakeUp v) :
      WaitMove s (.notifyStep i)
        { s.setNotifier i .idle with
          wake := s.wake.requestTaskResume (.notify i)
          calls := s.calls ++ [(v, true)] }
  | wait (hp : s.point = .start) : WaitMove s .wait { s with point := .ready }
  | isReady (hp : s.point = .ready) (hready : s.waiter.ready = true) :
      WaitMove s .advance { s with point := .result }
  | notReady (hp : s.point = .ready) (hready : s.waiter.ready = false) :
      WaitMove s .advance { s with point := .setWaiting }
  | alreadyWaiting (hp : s.point = .setWaiting) (hwaiting : s.waiter.waiting = true) :
      WaitMove s .advance { s with point := .result }
  | setWaiting (hp : s.point = .setWaiting) (hwaiting : s.waiter.waiting = false) :
      WaitMove s .advance
        { s with waiter := { s.waiter with waiting := true }, point := .recheck }
  | recheckReady (hp : s.point = .recheck) (hready : s.waiter.ready = true) :
      WaitMove s .advance { s with point := .clearWaiting }
  | suspend (hp : s.point = .recheck) (hready : s.waiter.ready = false) :
      WaitMove s .advance { s with point := if s.timed then .addTimer else .suspended none }
  | clearWaiting (hp : s.point = .clearWaiting) :
      WaitMove s .advance { s with waiter := { s.waiter with waiting := false }, point := .result }
  | addTimer (hp : s.point = .addTimer) :
      WaitMove s .advance
        { s with timers := s.timers.addTimer, point := .suspended (some s.timers.added) }
  | timedOut {k} (hp : s.point = .checkTimeout k) :
      WaitMove s .advance { s with failed := true, point := .result }
  | inTime {k} (hp : s.point = .checkTimeout k) : WaitMove s .advance { s with point := .cancel k }
  | cancel {k} (hp : s.point = .cancel k) :
      WaitMove s .advance { s with timers := s.timers.cancel k, point := .result }
  | returns (hp : s.point = .result) :
      WaitMove s .advance { s with outcome := some s.awaitResume, point := .returned }
  | awaitElsewhere (hp : s.point = .returned) :
      WaitMove s .awaitElsewhere { s with point := .elsewhere }
  | wakeElsewhere :
      WaitMove s .wakeElsewhere { s with wake := s.wake.requestTaskResume .elsewhere }
  | direct : WaitMove s .enqueue { s with wake := s.wake.enqueue .direct }
  | schedule {waker wake} (hwake : s.wake.schedule waker = some wake) :
      WaitMove s (.schedule waker) { s with wake := wake }
  | pop {waker wake} (hp : s.isSuspended = true) (hwake : s.wake.pop waker = some wake) :
      WaitMove s (.pop waker) { s with wake := wake }
  | resumeTimed {k wake} (hp : s.point = .suspended (some k)) (hwake : s.wake.resume = some wake) :
      WaitMove s .resume { s with wake := wake, point := .checkTimeout k }
  | resumeUntimed {wake} (hp : s.point = .suspended none) (hwake : s.wake.resume = some wake) :
      WaitMove s .resume { s with wake := wake, point := .result }
  | resumeElsewhere {wake} (hp : s.point = .elsewhere) (hwake : s.wake.resume = some wake) :
      WaitMove s .resume { s with wake := wake, point := .returned }
  | expire {k t} (ht : s.timers.expire k = some t) : WaitMove s (.expire k) { s with timers := t }
  | handle {t wake} (ht : s.timers.handle s.wake .timer = some (t, wake)) :
      WaitMove s .handle { s with timers := t, wake := wake }

variable {s s' : AsyncWait ι α} {a : AsyncWaitAction ι α} {i : ι} {v : α}

lemma waitMove_of_notifyStep (h : s.notifyStep i = some s') : WaitMove s (.notifyStep i) s' := by
  unfold AsyncWait.notifyStep at h
  split at h
  case h_1 => cases h
  case h_2 v hi =>
    cases h
    split
    · exact .loses hi ‹_›
    · exact .wins hi (eq_false_of_ne_true ‹_›)
  case h_3 v hi => cases h; exact .store hi
  case h_4 v hi =>
    cases h
    split
    · exact .takes hi ‹_›
    · exact .nobody hi (eq_false_of_ne_true ‹_›)
  case h_5 v hi => cases h; exact .wakeUp hi

lemma waitMove_of_advance (h : s.advance = some s') : WaitMove s .advance s' := by
  unfold AsyncWait.advance at h
  split at h
  case h_1 hp =>
    cases h
    cases hready : s.waiter.ready
    · exact .notReady hp hready
    · exact .isReady hp hready
  case h_2 hp =>
    cases h
    split
    · exact .alreadyWaiting hp ‹_›
    · exact .setWaiting hp (eq_false_of_ne_true ‹_›)
  case h_3 hp =>
    cases h
    cases hready : s.waiter.ready
    · exact .suspend hp hready
    · exact .recheckReady hp hready
  case h_4 hp => cases h; exact .clearWaiting hp
  case h_5 hp => cases h; exact .addTimer hp
  case h_6 k hp =>
    cases h
    split
    · exact .timedOut hp
    · exact .inTime hp
  case h_7 k hp => cases h; exact .cancel hp
  case h_8 hp => cases h; exact .returns hp
  case h_9 => cases h

def ResumingOk (s : AsyncWait ι α) : Prop := s.wake.resuming ≠ none → s.isSuspended = true

lemma waitMove_of_resume {wake : TaskWake (NotifyWaker ι)} (hpos : ResumingOk s)
    (hwake : s.wake.resume = some wake) :
    WaitMove s .resume { s with wake := wake, point := resumed s.point } := by
  have hsuspended := hpos (TaskWake.resuming_resume hwake).1
  unfold isSuspended at hsuspended
  split at hsuspended
  case h_1 timer hp =>
    rw [hp]
    cases timer with
    | none => exact .resumeUntimed hp hwake
    | some k => exact .resumeTimed hp hwake
  case h_2 hp =>
    rw [hp]
    exact .resumeElsewhere hp hwake
  case h_3 => cases hsuspended

theorem waitMove_of_step (hpos : ResumingOk s) (h : s.step a = some s') : WaitMove s a s' := by
  cases a with
  | notify i v =>
    simp only [AsyncWait.step] at h
    split at h
    · next hi =>
      split at h <;> cases h
      exact .notify hi
    · cases h
  | notifyStep i => exact waitMove_of_notifyStep h
  | wait =>
    simp only [AsyncWait.step, Option.ite_none_right_eq_some] at h
    obtain ⟨hp, h⟩ := h
    cases h
    exact .wait hp
  | advance => exact waitMove_of_advance h
  | awaitElsewhere =>
    simp only [AsyncWait.step, Option.ite_none_right_eq_some] at h
    obtain ⟨hp, h⟩ := h
    cases h
    exact .awaitElsewhere hp
  | wakeElsewhere =>
    cases h
    exact .wakeElsewhere
  | enqueue =>
    cases h
    exact .direct
  | schedule waker =>
    simp only [AsyncWait.step, Option.map_eq_some_iff] at h
    obtain ⟨wake, hwake, rfl⟩ := h
    exact .schedule hwake
  | pop waker =>
    simp only [AsyncWait.step, Option.ite_none_right_eq_some, Option.map_eq_some_iff] at h
    obtain ⟨hp, wake, hwake, rfl⟩ := h
    exact .pop hp hwake
  | resume =>
    simp only [AsyncWait.step, Option.map_eq_some_iff] at h
    obtain ⟨wake, hwake, rfl⟩ := h
    exact waitMove_of_resume hpos hwake
  | expire k =>
    simp only [AsyncWait.step, Option.map_eq_some_iff] at h
    obtain ⟨t, ht, rfl⟩ := h
    exact .expire ht
  | handle =>
    simp only [AsyncWait.step, Option.map_eq_some_iff] at h
    obtain ⟨⟨t, wake⟩, ht, rfl⟩ := h
    exact .handle ht

lemma resumingOk_move (h : ResumingOk s) (hm : WaitMove s a s') : ResumingOk s' := by
  have hrunning : s.isSuspended = false → s.wake.resuming = none := by
    intro hs
    by_contra hne
    exact absurd (hs.symm.trans (h hne)) nofun
  cases hm with
  | notify | loses | wins | store | takes | nobody | direct | expire => exact h
  | wakeUp | wakeElsewhere => exact fun hne => h (TaskWake.resuming_request _ _ ▸ hne)
  | wait hp | isReady hp | notReady hp | alreadyWaiting hp | setWaiting hp | recheckReady hp
  | suspend hp | clearWaiting hp | addTimer hp | timedOut hp | inTime hp | cancel hp | returns hp
  | awaitElsewhere hp =>
    exact fun hne => absurd (hrunning (by simp [isSuspended, hp])) hne
  | schedule hwake => exact fun hne => h (TaskWake.resuming_schedule hwake ▸ hne)
  | pop hp => exact fun _ => hp
  | resumeTimed _ hwake | resumeUntimed _ hwake | resumeElsewhere _ hwake =>
    exact fun hne => absurd (TaskWake.resuming_resume hwake).2 hne
  | handle ht => exact fun hne => h (resuming_handle ht ▸ hne)

/-- What holds initially and is preserved by every permitted move holds in every state reached. -/
theorem wait_invariant {ok : AsyncWait ι α → AsyncWaitAction ι α → Prop}
    {P : AsyncWait ι α → Prop} {kind : WaiterKind} {timed : Bool} (hinit : P (init kind timed))
    (hmove : ∀ s a s', P s → ok s a → WaitMove s a s' → P s')
    (h : Reaches step ok (init kind timed) s) : P s := by
  refine (h.invariant (P := fun s => ResumingOk s ∧ P s) ⟨fun hne => absurd rfl hne, hinit⟩ ?_).2
  rintro s a s' ⟨hpos, hP⟩ hok hstep
  have hm := waitMove_of_step hpos hstep
  exact ⟨resumingOk_move hpos hm, hmove s a s' hP hok hm⟩

def Dozing : WaitPoint → Prop
  | .addTimer | .suspended _ => True
  | _ => False

end GalayKernel.Proofs
