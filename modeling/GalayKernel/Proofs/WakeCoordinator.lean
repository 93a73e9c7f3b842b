import GalayKernel.WakeCoordinator
import GalayKernel.Lib.Threads
import GalayKernel.Lib.Transition
import Mathlib.Tactic.Common

/-!
# The loop does not sleep through a task

Two facts are kept by every step. While `m_wakeup_pending` is set, somebody is responsible for it:
a notification is pending, a thread is about to write one, or the loop is about to clear the flag.
And from the moment in which the loop has seen an empty queue until it returns from poll, the
first thread that raises `injected_outstanding` from zero goes on to the exchange whatever
`m_sleeping` says, so the flag gets set, and nothing but the loop clears it again.
-/

namespace GalayKernel

variable {τ : Type}

def ProducerPoint.isEnqueuing : ProducerPoint τ → Bool
  | enqueue _ _ => true
  | _ => false

def ProducerPoint.willWake : ProducerPoint τ → Bool
  | enqueue _ was_empty => was_empty
  | exchange => true
  | _ => false

def LoopPoint.held : LoopPoint τ → Nat
  | dequeued count => count
  | injecting _ _ => 1
  | _ => 0

def LoopPoint.cancels : LoopPoint τ → Bool
  | events wake => wake
  | injecting _ back => back.cancels
  | readWake | cancelWake => true
  | _ => false

def LoopPoint.isQuiet : LoopPoint τ → Bool
  | trySteal | poll => true
  | _ => false

end GalayKernel

namespace GalayKernel.Proofs

open Transition

variable {τ : Type} {s s' : WakeState τ} {i : Nat} {p : ProducerPoint τ}

structure WakeOk (s : WakeState τ) : Prop where
  outstanding : s.injectedOutstanding =
    s.injectQueue.length + s.producers.countP ProducerPoint.isEnqueuing + s.loop.held
  /-- a task of the loop itself comes from a pass or from an event -/
  back : ∀ task back, s.loop = .injecting task back → back.held = 0 ∧ back.isQuiet = false
  pending : s.wakeupPending = true →
    s.notification = true ∨ (∃ p ∈ s.producers, p = .notify) ∨ s.loop.cancels = true
  quiet : s.loop.isQuiet = true → 0 < s.injectedOutstanding →
    s.wakeupPending = true ∨ ∃ p ∈ s.producers, p.willWake = true

lemma wakeOk_init (backend : WakeBackend) (threads : Nat) :
    WakeOk (WakeState.init backend threads : WakeState τ) where
  outstanding := by
    have hzero : (List.replicate threads (ProducerPoint.idle : ProducerPoint τ)).countP
        ProducerPoint.isEnqueuing = 0 := by
      rw [List.countP_replicate]
      rfl
    simp only [WakeState.init, hzero, List.length_nil, LoopPoint.held]
  back := by rintro _ _ ⟨⟩
  pending := by rintro ⟨⟩
  quiet := by rintro ⟨⟩

/-- A step of thread `i` from `p` to `p'`. -/
structure ProducerStep (s s' : WakeState τ) (i : Nat) (p p' : ProducerPoint τ) : Prop where
  standing : s.producers[i]? = some p
  set : s'.producers = s.producers.set i p'
  loop : s'.loop = s.loop
  outstanding : s'.injectedOutstanding + s.injectQueue.length + p.isEnqueuing.toNat =
    s.injectedOutstanding + s'.injectQueue.length + p'.isEnqueuing.toNat
  pending : s'.wakeupPending = true → s'.notification = true ∨ p' = .notify ∨
    (s.wakeupPending = true ∧ (s.notification = true → s'.notification = true) ∧ p ≠ .notify)
  quiet : s'.wakeupPending = true ∨ p'.willWake = true ∨
    (s'.injectedOutstanding = s.injectedOutstanding ∨ 0 < s.injectedOutstanding) ∧
      s.wakeupPending = s'.wakeupPending ∧ p.willWake = false

lemma WakeOk.producerStep {p' : ProducerPoint τ} (h : WakeOk s) (hs : ProducerStep s s' i p p') :
    WakeOk s' := by
  refine ⟨?_, ?_, ?_, ?_⟩
  · have hcount := Threads.countP_set hs.standing p' ProducerPoint.isEnqueuing
    have hold := h.outstanding
    have hnew := hs.outstanding
    rw [hs.set, hs.loop]
    omega
  · rw [hs.loop]
    exact h.back
  · intro hpending
    obtain hnot | rfl | ⟨hpending, hkeep, hne⟩ := hs.pending hpending
    · exact .inl hnot
    · exact .inr (.inl ⟨_, hs.set ▸ Threads.mem_set hs.standing _, rfl⟩)
    · rw [hs.loop, hs.set]
      refine (h.pending hpending).imp hkeep fun hothers => hothers.imp_left fun hnotify => ?_
      exact Threads.exists_mem_set hs.standing (fun heq => absurd heq hne) hnotify
  · intro hquiet hpos
    rw [hs.loop] at hquiet
    obtain hpending | hwill | ⟨hout, hsame, hwont⟩ := hs.quiet
    · exact .inl hpending
    · exact .inr ⟨p', hs.set ▸ Threads.mem_set hs.standing p', hwill⟩
    · rw [← hsame, hs.set]
      refine (h.quiet hquiet (by omega)).imp_right fun hwake => ?_
      exact Threads.exists_mem_set hs.standing (fun hwill => by simp [hwill] at hwont) hwake

lemma producerStep_schedule (hp : s.producers[i]? = some .idle) (task : τ) :
    ProducerStep s (s.setProducer i (.fetchAdd task)) i .idle (.fetchAdd task) where
  standing := hp
  set := rfl
  loop := rfl
  outstanding := rfl
  pending := fun hpending => .inr (.inr ⟨hpending, id, by rintro ⟨⟩⟩)
  quiet := .inr (.inr ⟨.inl rfl, rfl, rfl⟩)

lemma producerStep_produce (hp : s.producers[i]? = some p) (hs : s.produce i p = some s') :
    ∃ p', ProducerStep s s' i p p' := by
  cases p with
  | idle => cases hs
  | fetchAdd task =>
    cases hs
    refine ⟨.enqueue task (s.injectedOutstanding == 0), hp, rfl, rfl, ?_, ?_, ?_⟩
    · simp only [WakeState.setProducer, ProducerPoint.isEnqueuing, Bool.toNat_true,
        Bool.toNat_false]
      omega
    · exact fun hpending => .inr (.inr ⟨hpending, id, by rintro ⟨⟩⟩)
    · by_cases hzero : s.injectedOutstanding = 0
      · exact .inr (.inl (by simp [ProducerPoint.willWake, hzero]))
      · exact .inr (.inr ⟨.inr (Nat.pos_of_ne_zero hzero), rfl, rfl⟩)
  | enqueue task was_empty =>
    cases hs
    refine ⟨if was_empty then .exchange else .loadSleeping, hp, rfl, rfl, ?_, ?_, ?_⟩
    · cases was_empty <;> simp [WakeState.setProducer, ProducerPoint.isEnqueuing] <;> omega
    · exact fun hpending => .inr (.inr ⟨hpending, id, by rintro ⟨⟩⟩)
    · cases was_empty with
      | false => exact .inr (.inr ⟨.inl rfl, rfl, rfl⟩)
      | true => exact .inr (.inl rfl)
  | loadSleeping =>
    cases hs
    refine ⟨if s.sleeping then .exchange else .idle, hp, rfl, rfl, ?_, ?_, ?_⟩
    · cases hsleeping : s.sleeping <;> simp [WakeState.setProducer, ProducerPoint.isEnqueuing]
    · exact fun hpending => .inr (.inr ⟨hpending, id, by rintro ⟨⟩⟩)
    · exact .inr (.inr ⟨.inl rfl, rfl, rfl⟩)
  | exchange =>
    cases hs
    refine ⟨if s.wakeupPending then .idle else .notify, hp, rfl, rfl, ?_, ?_, .inl rfl⟩
    · cases hpending : s.wakeupPending <;> simp [WakeState.setProducer, ProducerPoint.isEnqueuing]
    · -- whoever finds the flag clear notifies; otherwise somebody else is responsible for it
      intro _
      cases hpending : s.wakeupPending with
      | false => exact .inr (.inl rfl)
      | true => exact .inr (.inr ⟨rfl, id, by rintro ⟨⟩⟩)
  | notify =>
    cases hs
    exact ⟨.idle, hp, rfl, rfl, rfl, fun _ => .inl rfl, .inr (.inr ⟨.inl rfl, rfl, rfl⟩)⟩

/-- A step of the loop, or of the world around it, while no thread moves. -/
structure LoopStep (s s' : WakeState τ) : Prop where
  producers : s'.producers = s.producers
  outstanding : s'.injectedOutstanding + s.injectQueue.length + s.loop.held =
    s.injectedOutstanding + s'.injectQueue.length + s'.loop.held
  back : ∀ task back, s'.loop = .injecting task back → back.held = 0 ∧ back.isQuiet = false
  pending : s'.wakeupPending = true → s.wakeupPending = true ∧
    ((s.notification = true → s'.notification = true) ∧
        (s.loop.cancels = true → s'.loop.cancels = true) ∨
      s'.loop.cancels = true)
  /-- the loop polls only after it has seen an empty queue -/
  quiet : s'.loop.isQuiet = true → s'.injectedOutstanding = 0 ∨
    (s.loop.isQuiet = true ∧ s'.injectedOutstanding = s.injectedOutstanding ∧
      s'.wakeupPending = s.wakeupPending)

lemma WakeOk.loopStep (h : WakeOk s) (hs : LoopStep s s') : WakeOk s' := by
  refine ⟨?_, hs.back, ?_, ?_⟩
  · have hold := h.outstanding
    have hnew := hs.outstanding
    rw [hs.producers]
    omega
  · intro hpending
    rw [hs.producers]
    obtain ⟨hpending, ⟨hnot, hcancels⟩ | hcancels⟩ := hs.pending hpending
    · exact (h.pending hpending).imp hnot fun hothers => hothers.imp_right hcancels
    · exact .inr (.inr hcancels)
  · intro hquiet hpos
    obtain hzero | ⟨hquiet, hout, hsame⟩ := hs.quiet hquiet
    · omega
    · rw [hsame, hs.producers]
      exact h.quiet hquiet (hout ▸ hpos)

lemma loopStep_goTo {s' : WakeState τ} (hproducers : s'.producers = s.producers)
    (hout : s'.injectedOutstanding + s.injectQueue.length + s.loop.held =
      s.injectedOutstanding + s'.injectQueue.length + s'.loop.held)
    (hback : ∀ task back, s'.loop = .injecting task back → back.held = 0 ∧ back.isQuiet = false)
    (hpending : s'.wakeupPending = s.wakeupPending) (hnot : s'.notification = s.notification)
    (hcancels : s.loop.cancels = true → s'.loop.cancels = true)
    (hquiet : s'.loop.isQuiet = true → s'.injectedOutstanding = 0 ∨
      (s.loop.isQuiet = true ∧ s'.injectedOutstanding = s.injectedOutstanding)) :
    LoopStep s s' where
  producers := hproducers
  outstanding := hout
  back := hback
  pending := fun h => ⟨hpending ▸ h, .inl ⟨fun h => hnot ▸ h, hcancels⟩⟩
  quiet := fun h => (hquiet h).imp_right fun ⟨hq, ho⟩ => ⟨hq, ho, hpending⟩

lemma loopStep_proceed (h : WakeOk s) (hs : s.proceed = some s') : LoopStep s s' := by
  have hold := h.outstanding
  unfold WakeState.proceed at hs
  split at hs
  · next count hloop =>
    cases hs
    rw [hloop, LoopPoint.held] at hold
    refine loopStep_goTo rfl ?_ (by rintro _ _ ⟨⟩) rfl rfl (by rw [hloop]; rintro ⟨⟩)
      (by rintro ⟨⟩)
    simp only [hloop, LoopPoint.held]
    omega
  · next hloop =>
    cases hs
    exact loopStep_goTo rfl (by rw [hloop]; rfl) (by rintro _ _ ⟨⟩) rfl rfl
      (by rw [hloop]; rintro ⟨⟩) (by rintro ⟨⟩)
  · next hloop =>
    cases hs
    exact ⟨rfl, by rw [hloop]; rfl, by rintro _ _ ⟨⟩, by rintro ⟨⟩, by rintro ⟨⟩⟩
  · next task back hloop =>
    cases hs
    obtain ⟨hheld, hquiet⟩ := h.back task back hloop
    refine loopStep_goTo rfl ?_ ?_ rfl rfl (by rw [hloop]; exact id) (by rw [hquiet]; rintro ⟨⟩)
    · rw [hloop]
      dsimp only
      rw [hheld, List.length_append]
      rfl
    · rintro task' back' rfl
      cases hheld
  · next hloop =>
    cases hs
    by_cases hwork : 0 < s.localWork ∨ 0 < s.injectedOutstanding
    · have hpoint : (if (decide (0 < s.localWork) || decide (0 < s.injectedOutstanding)) = true
          then (LoopPoint.goRound : LoopPoint τ) else .trySteal) = .goRound := by
        simp [hwork]
      rw [hpoint]
      exact loopStep_goTo rfl (by rw [hloop]; rfl) (by rintro _ _ ⟨⟩) rfl rfl
        (by rw [hloop]; rintro ⟨⟩) (by rintro ⟨⟩)
    · have hpoint : (if (decide (0 < s.localWork) || decide (0 < s.injectedOutstanding)) = true
          then (LoopPoint.goRound : LoopPoint τ) else .trySteal) = .trySteal := by
        simp [hwork]
      rw [hpoint]
      exact loopStep_goTo rfl (by rw [hloop]; rfl) (by rintro _ _ ⟨⟩) rfl rfl
        (by rw [hloop]; rintro ⟨⟩) (fun _ => .inl (by dsimp only; omega))
  · next hloop =>
    split at hs
    · cases hs
      exact ⟨rfl, rfl, h.back, fun hpending => ⟨hpending, .inr (by rw [hloop]; rfl)⟩,
        by rw [hloop]; rintro ⟨⟩⟩
    · cases hs
      exact loopStep_goTo rfl (by rw [hloop]; rfl) (by rintro _ _ ⟨⟩) rfl rfl (fun _ => rfl)
        (by rintro ⟨⟩)
  · next hloop =>
    cases hs
    exact ⟨rfl, by rw [hloop]; rfl, by rintro _ _ ⟨⟩, by rintro ⟨⟩, by rintro ⟨⟩⟩
  · next hloop =>
    cases hs
    exact loopStep_goTo rfl (by rw [hloop]; rfl) (by rintro _ _ ⟨⟩) rfl rfl
      (by rw [hloop]; rintro ⟨⟩) (by rintro ⟨⟩)
  all_goals cases hs

lemma runsTasks_spec (h : s.runsTasks = true) : s.loop.held = 0 ∧ s.loop.isQuiet = false := by
  unfold WakeState.runsTasks at h
  split at h
  · next hloop => rw [hloop]; exact ⟨rfl, rfl⟩
  · next hloop => rw [hloop]; exact ⟨rfl, rfl⟩
  · cases h

theorem WakeOk.step {a : WakeAction τ} (h : WakeOk s) (hs : s.step a = some s') : WakeOk s' := by
  cases a with
  | schedule i task =>
    simp only [WakeState.step] at hs
    split at hs
    · next hp =>
      cases hs
      exact h.producerStep (producerStep_schedule hp task)
    · cases hs
  | produce i =>
    obtain ⟨p, hp, hs⟩ := Option.bind_eq_some_iff.mp hs
    obtain ⟨p', hstep⟩ := producerStep_produce hp hs
    exact h.producerStep hstep
  | forceWake =>
    cases hs
    exact { h with pending := fun _ => .inl rfl }
  | stolen =>
    simp only [WakeState.step, Option.ite_none_right_eq_some, Option.some.injEq] at hs
    obtain ⟨-, rfl⟩ := hs
    exact { h with }
  | proceed => exact h.loopStep (loopStep_proceed h hs)
  | dequeue count =>
    simp only [WakeState.step] at hs
    split at hs
    · next hloop =>
      rw [Option.ite_none_right_eq_some, Option.some.injEq, Bool.and_eq_true, decide_eq_true_eq,
        decide_eq_true_eq] at hs
      obtain ⟨⟨-, hcount⟩, rfl⟩ := hs
      refine h.loopStep (loopStep_goTo rfl ?_ (by rintro _ _ ⟨⟩) rfl rfl
        (by rw [hloop]; rintro ⟨⟩) (by rintro ⟨⟩))
      simp only [hloop, List.length_drop, LoopPoint.held]
      omega
    · cases hs
  | runTask =>
    simp only [WakeState.step] at hs
    split at hs
    · rw [Option.ite_none_right_eq_some, Option.some.injEq] at hs
      obtain ⟨-, rfl⟩ := hs
      exact { h with }
    · cases hs
  | scheduleLocal =>
    simp only [WakeState.step, Option.ite_none_right_eq_some, Option.some.injEq] at hs
    obtain ⟨-, rfl⟩ := hs
    exact { h with }
  | inject task =>
    simp only [WakeState.step, Option.ite_none_right_eq_some, Option.some.injEq] at hs
    obtain ⟨hruns, rfl⟩ := hs
    obtain ⟨hheld, hquiet⟩ := runsTasks_spec hruns
    refine h.loopStep (loopStep_goTo rfl ?_ ?_ rfl rfl (fun hcancels => hcancels) (by rintro ⟨⟩))
    · rw [hheld]
      simp only [LoopPoint.held]
      omega
    · rintro _ _ ⟨⟩
      exact ⟨hheld, hquiet⟩
  | markSleeping =>
    simp only [WakeState.step] at hs
    split at hs
    · next hloop =>
      cases hs
      exact h.loopStep (loopStep_goTo rfl (by rw [hloop]; rfl) (by rintro _ _ ⟨⟩) rfl rfl
        (by rw [hloop]; rintro ⟨⟩) (by rintro ⟨⟩))
    · cases hs
  | trySteal found =>
    simp only [WakeState.step] at hs
    split at hs
    · next hloop =>
      cases hs
      refine h.loopStep (loopStep_goTo rfl ?_ ?_ rfl rfl (by rw [hloop]; rintro ⟨⟩)
        (fun _ => .inr ⟨by rw [hloop]; rfl, rfl⟩))
      · rw [hloop]
        dsimp only
        split <;> rfl
      · intro task back
        dsimp only
        split <;> rintro ⟨⟩
    · cases hs
  | pollReturns wake =>
    simp only [WakeState.step] at hs
    split at hs
    · next hloop =>
      rw [Option.ite_none_left_eq_some, Option.some.injEq] at hs
      obtain ⟨-, rfl⟩ := hs
      refine h.loopStep ⟨rfl, by rw [hloop]; rfl, by rintro _ _ ⟨⟩, ?_, by rintro ⟨⟩⟩
      intro hpending
      refine ⟨hpending, ?_⟩
      cases wake with
      | false => exact .inl ⟨id, by rw [hloop]; rintro ⟨⟩⟩
      | true => exact .inr rfl
    · cases hs
  | handleWake =>
    simp only [WakeState.step] at hs
    split at hs
    · next hloop =>
      cases hs
      refine h.loopStep (loopStep_goTo rfl ?_ ?_ rfl rfl ?_ ?_)
      · rw [hloop]
        dsimp only
        split <;> rfl
      · intro task back
        dsimp only
        split <;> rintro ⟨⟩
      · intro _
        dsimp only
        split <;> rfl
      · dsimp only
        split <;> rintro ⟨⟩
    · cases hs
  | endPoll =>
    simp only [WakeState.step] at hs
    split at hs
    · next hloop =>
      cases hs
      exact h.loopStep (loopStep_goTo rfl (by rw [hloop]; rfl) (by rintro _ _ ⟨⟩) rfl rfl
        (by rw [hloop]; rintro ⟨⟩) (by rintro ⟨⟩))
    · cases hs

/-- The loop is never left asleep with a task: when it is blocked in poll with tasks in the inject
queue and no call of `schedule` is on its way, a notification is pending. -/
theorem wakeup_not_lost (backend : WakeBackend) (threads : Nat)
    (h : Reaches WakeState.step (fun _ _ => True) (WakeState.init backend threads) s)
    (hpoll : s.loop = .poll) (hqueue : s.injectQueue ≠ [])
    (hidle : ∀ p ∈ s.producers, p = .idle) : s.notification = true := by
  have hok := h.invariant (P := WakeOk) (wakeOk_init backend threads)
    (fun s a s' hok _ hs => hok.step hs)
  have hpos : 0 < s.injectedOutstanding := by
    have hlen := List.length_pos_iff.mpr hqueue
    have hout := hok.outstanding
    omega
  have hpending : s.wakeupPending = true := by
    obtain hpending | ⟨p, hp, hwill⟩ := hok.quiet (by rw [hpoll]; rfl) hpos
    · exact hpending
    · rw [hidle p hp] at hwill
      cases hwill
  obtain hnot | ⟨p, hp, rfl⟩ | hcancels := hok.pending hpending
  · exact hnot
  · cases hidle _ hp
  · rw [hpoll] at hcancels
    cases hcancels

/-- Two threads schedule tasks while the loop goes to sleep; the first is still on its way when the
second finds the flag set. -/
def scheduleTwice : List (WakeAction Nat) :=
  [.markSleeping, .proceed, .schedule 0 7, .produce 0, .trySteal 0, .schedule 1 8, .produce 0,
    .produce 0, .produce 1, .produce 1, .produce 1, .produce 1, .produce 0]

def scheduledTwice : WakeState Nat where
  backend := .epoll
  injectQueue := [7, 8]
  injectedOutstanding := 2
  localWork := 0
  sleeping := true
  wakeupPending := true
  notification := true
  loop := .poll
  producers := [.idle, .idle]

theorem scheduledTwice_wakeup_not_lost :
    scheduledTwice.injectQueue ≠ [] ∧ scheduledTwice.notification = true :=
  ⟨by decide, wakeup_not_lost .epoll 2 (.of_replay scheduleTwice .start rfl) rfl (by decide)
    (by decide)⟩

end GalayKernel.Proofs
