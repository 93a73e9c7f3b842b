import GalayKernel.SchedulerCore
import GalayKernel.Lib.Transition

/-!
# How long a ready pass runs

Every drain adds to `burst_credit` and every resume takes one away. In a pass that began without
local work, a task that puts itself back is drained again before the next resume, so the credit
does not come down as long as it is above the number of tasks in the ring, or as long as another
task stays in the ring. The first is brought about by a thief, the second by a drain of two tasks.
-/

namespace GalayKernel

variable {τ : Type}

namespace WorkerState

/-- A weight for the measure of a pass: to drain a task or to take one makes it smaller. -/
def load (w : WorkerState τ) : Nat :=
  8 * w.lifoSlot.toList.length + 7 * w.localRing.length + 8 * w.injectQueue.length

variable (w : WorkerState τ)

lemma length_drained : w.drained.length =
    min (min (256 - w.localRing.length) w.injectBuffer) w.injectQueue.length :=
  List.length_take

lemma length_drainInjected :
    w.drainInjected.localRing.length = w.localRing.length + w.drained.length ∧
      w.drainInjected.injectQueue.length + w.drained.length = w.injectQueue.length ∧
      w.drainInjected.lifoSlot = w.lifoSlot := by
  unfold drainInjected drained
  split
  · next h => simp [h]
  · simp only [List.length_append, List.length_reverse, List.length_take, List.length_drop]
    exact ⟨trivial, by omega, trivial⟩

lemma hasLocalWork_iff : w.hasLocalWork ↔ 0 < w.lifoSlot.toList.length + w.localRing.length := by
  rw [Nat.add_pos_iff_pos_or_pos]
  cases hlifo : w.lifoSlot <;> cases hring : w.localRing <;> simp [hasLocalWork, hlifo, hring]

lemma hasPendingInjected_iff : w.hasPendingInjected ↔ 0 < w.injectQueue.length := by
  cases hinject : w.injectQueue <;> simp [hasPendingInjected, hinject]

lemma drainInjected_hasLocalWork (h : w.drainInjected.hasPendingInjected) :
    w.drainInjected.hasLocalWork := by
  obtain ⟨hring, hinject, hlifo⟩ := w.length_drainInjected
  rw [hasPendingInjected_iff] at h
  rw [hasLocalWork_iff, hring, hlifo]
  have hpos := w.injectBuffer_pos
  have hdrained := w.length_drained
  omega

lemma prepareForRun_spec :
    w.prepareForRun = w ∨ (w.prepareForRun.lifoSlot = none ∧ w.prepareForRun.localRing ≠ [] ∧
      w.prepareForRun.queued = w.queued ∧ w.prepareForRun.load ≤ w.load) := by
  unfold prepareForRun
  split
  · next task hlifo =>
    split
    · right
      unfold enqueueDeferred queued load
      split
      · next hfull =>
        have hring : w.localRing ≠ [] := by
          rintro hnil
          simp [remainingCapacity, hnil, kCapacity] at hfull
        simp [hlifo, hring]
        omega
      · simp [hlifo]
        omega
    · exact .inl rfl
  · exact .inl rfl

/-- What `popNext` takes is one of the queued tasks. It finds none only when there is none. -/
lemma popNext_spec :
    (∃ task, w.popNext.1 = some task ∧ w.popNext.2.queued + 1 = w.queued ∧
      w.popNext.2.load + 7 ≤ w.load) ∨
    (w.popNext.1 = none ∧ w.popNext.2 = w ∧ w.hasLocalWork = false) := by
  have hprepare := w.prepareForRun_spec
  simp only [popNext]
  generalize hw' : w.prepareForRun = w' at *
  split
  · next task hlifo =>
    left
    obtain rfl | ⟨hnone, -⟩ := hprepare
    · refine ⟨task, rfl, ?_, ?_⟩
      · simp [queued, hlifo]
        omega
      · simp [load, hlifo]
        omega
    · cases hnone.symm.trans hlifo
  · next hlifo =>
    split
    · next task hlast =>
      have hne : w'.localRing ≠ [] := by
        rintro hnil
        simp [hnil] at hlast
      have hpos := List.length_pos_iff.mpr hne
      have hle : w'.queued = w.queued ∧ w'.load ≤ w.load := by
        obtain rfl | ⟨-, -, hqueued, hload⟩ := hprepare
        · exact ⟨rfl, le_refl _⟩
        · exact ⟨hqueued, hload⟩
      left
      refine ⟨task, rfl, ?_, ?_⟩
      · simp only [queued, List.length_dropLast] at hle ⊢
        omega
      · simp only [load, List.length_dropLast] at hle ⊢
        omega
    · next hlast =>
      rw [List.getLast?_eq_none_iff] at hlast
      right
      obtain rfl | ⟨-, hne, -⟩ := hprepare
      · exact ⟨rfl, rfl, by simp [hasLocalWork, hlifo, hlast]⟩
      · exact absurd hlast hne

end WorkerState

def PassPoint.inHand : PassPoint τ → Nat
  | .resume _ => 1
  | _ => 0

end GalayKernel

namespace GalayKernel.Proofs

open Transition

variable {τ : Type} {s s' : ReadyPass τ}

/-- A task puts itself back only as the last one of those that a burst has drained. -/
def yieldsLast (s : ReadyPass τ) (a : PassAction) : Bool :=
  a != .resume true || !s.allowInjectedBurst || s.burstCredit ≤ 1

/-- A pass that began with `start` queued tasks. Once the budget is used up, each further resume
takes a task away for good. -/
structure PassOk (start ready_budget : Nat) (s : ReadyPass τ) : Prop where
  budget : s.readyBudget = max 1 ready_budget
  queued : s.worker.queued + s.point.inHand ≤ start
  bound : s.ran ≤ ready_budget + start
  burst : s.point ≠ .returned → s.readyBudget ≤ s.ran →
    s.allowInjectedBurst ∧ 0 < s.burstCredit
  spent : s.point ≠ .returned → s.readyBudget ≤ s.ran →
    s.ran + s.worker.queued + s.point.inHand + 1 ≤ s.readyBudget + start

/-- What the points of the loop weigh. `popNext` without a local task weighs more when the loop
has to go round again; only a thief can bring that about. -/
def pointWeight (w : WorkerState τ) : PassPoint τ → Nat
  | .collectRemote => 4
  | .popNext => if !w.hasLocalWork && w.hasPendingInjected then 6 else 3
  | .checkPending => if w.hasPendingInjected then 5 else 2
  | .drainInjected => 1
  | .popDrained => 1
  | .resume _ => 1
  | .returned => 0

def passMeasure (start : Nat) (s : ReadyPass τ) : Nat :=
  20 * (s.readyBudget + start - s.ran) + s.worker.load + pointWeight s.worker s.point

structure Proceeds (s s' : ReadyPass τ) : Prop where
  budget : s'.readyBudget = s.readyBudget
  ran : s'.ran = s.ran
  allow : s'.allowInjectedBurst = s.allowInjectedBurst
  credit : s.burstCredit ≤ s'.burstCredit
  queued : s'.worker.queued + s'.point.inHand ≤ s.worker.queued + s.point.inHand
  weight : s'.worker.load + pointWeight s'.worker s'.point <
    s.worker.load + pointWeight s.worker s.point

lemma PassOk.proceeds {start b : Nat} (h : PassOk start b s) (hne : s.point ≠ .returned)
    (hs : Proceeds s s') : PassOk start b s' ∧ passMeasure start s' < passMeasure start s := by
  have hqueued := hs.queued
  refine ⟨⟨hs.budget.trans h.budget, hqueued.trans h.queued, ?_, ?_, ?_⟩, ?_⟩
  · rw [hs.ran]
    exact h.bound
  · rw [hs.budget, hs.ran, hs.allow]
    intro _ hran
    exact (h.burst hne hran).imp_right fun hcredit => hcredit.trans_le hs.credit
  · rw [hs.budget, hs.ran]
    intro _ hran
    have := h.spent hne hran
    omega
  · have := hs.weight
    simp only [passMeasure, hs.budget, hs.ran]
    omega

lemma drain_spec (s : ReadyPass τ) :
    s.drain.worker.queued = s.worker.queued ∧
      s.drain.worker.load + s.worker.drained.length = s.worker.load ∧
      s.burstCredit ≤ s.drain.burstCredit := by
  obtain ⟨hring, hinject, hlifo⟩ := s.worker.length_drainInjected
  refine ⟨?_, ?_, ?_⟩
  · simp only [ReadyPass.drain, WorkerState.queued, hlifo]
    omega
  · simp only [ReadyPass.drain, WorkerState.load, hlifo]
    omega
  · simp only [ReadyPass.drain]
    split
    · omega
    · exact le_refl _

/-- After `collectRemote` the pass has a local task, or there is none to drain. -/
lemma collectRemote_proceeds (hpoint : s.point = .collectRemote) :
    Proceeds s { s.collectRemote with point := .popNext } := by
  obtain ⟨hqueued, hload, hcredit⟩ := drain_spec s
  unfold ReadyPass.collectRemote
  split
  · have hlocal := s.worker.drainInjected_hasLocalWork
    have hweight : pointWeight s.drain.worker .popNext = 3 := by
      simp only [pointWeight, ReadyPass.drain]
      grind
    refine ⟨rfl, rfl, rfl, hcredit, ?_, ?_⟩
    · simp only [hpoint]
      exact hqueued.le
    · dsimp only
      rw [hpoint, hweight]
      simp only [pointWeight]
      omega
  · next hcond =>
    have hweight : pointWeight s.worker .popNext = 3 := by
      simp only [pointWeight]
      grind
    refine ⟨rfl, rfl, rfl, le_refl _, ?_, ?_⟩
    · simp only [hpoint]
      exact le_refl _
    · dsimp only
      rw [hpoint, hweight]
      simp only [pointWeight]
      omega

lemma pop_proceeds {empty : PassPoint τ} (hempty : empty.inHand = 0)
    (hweight : s.worker.hasLocalWork = false →
      pointWeight s.worker empty < pointWeight s.worker s.point) : Proceeds s (s.pop empty) := by
  refine ⟨rfl, rfl, rfl, le_refl _, ?_, ?_⟩ <;>
  obtain ⟨task, htask, hqueued, hload⟩ | ⟨hnone, hsame, hlocal⟩ := s.worker.popNext_spec
  · simp only [ReadyPass.pop, htask, PassPoint.inHand]
    omega
  · simp [ReadyPass.pop, hnone, hsame, hempty]
  · simp only [ReadyPass.pop, htask, pointWeight]
    omega
  · simpa [ReadyPass.pop, hnone, hsame] using hweight hlocal

lemma proceed_proceeds (hs : s.step .proceed = some s') : Proceeds s s' := by
  simp only [ReadyPass.step] at hs
  split at hs
  · next hpoint =>
    cases hs
    exact collectRemote_proceeds hpoint
  · next hpoint =>
    cases hs
    refine pop_proceeds rfl fun hlocal => ?_
    rw [hpoint]
    simp only [pointWeight, hlocal]
    grind
  · next hpoint =>
    cases hs
    refine ⟨rfl, rfl, rfl, le_refl _, ?_, ?_⟩ <;> simp only [hpoint]
    · split <;> exact le_refl _
    · split <;> simp [pointWeight, *]
  · next hpoint =>
    cases hs
    obtain ⟨hqueued, hload, hcredit⟩ := drain_spec s
    refine ⟨rfl, rfl, rfl, hcredit, ?_, ?_⟩ <;> simp only [hpoint]
    · split <;> exact hqueued.le
    · split
      · simp only [pointWeight]
        omega
      · next hdrained =>
        have hpos := List.length_pos_iff.mpr hdrained
        simp only [pointWeight]
        omega
  · next hpoint =>
    cases hs
    refine pop_proceeds rfl fun _ => ?_
    rw [hpoint]
    exact Nat.one_pos
  · cases hs
  · cases hs

lemma steal_proceeds (hs : s.step .steal = some s') : Proceeds s s' := by
  simp only [ReadyPass.step] at hs
  split at hs
  · cases hs
  · cases hs
  · next t rest hring _ =>
    cases hs
    have hlength : s.worker.localRing.length = rest.length + 1 := by rw [hring]; rfl
    refine ⟨rfl, rfl, rfl, le_refl _, ?_, ?_⟩
    · simp only [WorkerState.queued]
      omega
    · have hweight : pointWeight { s.worker with localRing := rest } s.point ≤
          pointWeight s.worker s.point + 3 := by
        cases s.point <;> simp [pointWeight, WorkerState.hasPendingInjected]
        grind
      simp only [WorkerState.load] at hweight ⊢
      omega

/-- The loop goes on past the budget only while a drained task is left over. -/
lemma count_spec (s : ReadyPass τ) : s.count.point = .returned ∨
    (s.count.point = .collectRemote ∧ (s.readyBudget ≤ s.ran + 1 →
      s.allowInjectedBurst ∧ 1 < s.burstCredit ∧ 0 < s.count.burstCredit)) := by
  simp only [ReadyPass.count]
  by_cases hburst : s.allowInjectedBurst && 0 < s.burstCredit
  · grind
  · grind

lemma PassOk.resume {start b : Nat} {reenqueues : Bool} (h : PassOk start b s)
    (hok : yieldsLast s (.resume reenqueues)) (hs : s.step (.resume reenqueues) = some s') :
    PassOk start b s' ∧ passMeasure start s' < passMeasure start s := by
  simp only [ReadyPass.step] at hs
  split at hs
  · next task hpoint =>
    obtain ⟨hbudget, hqueued, hbound, -, hover⟩ := h
    have hhand : s.point.inHand = 1 := by rw [hpoint]; rfl
    have hweight : pointWeight s.worker s.point = 1 := by rw [hpoint]; rfl
    have hover := hover (by simp [hpoint])
    generalize hworker : (if reenqueues = true then s.worker.scheduleLocalDeferred task
      else s.worker) = worker at hs
    have hback : worker.queued = s.worker.queued + reenqueues.toNat ∧
        worker.load = s.worker.load + 8 * reenqueues.toNat := by
      subst hworker
      cases reenqueues
      · exact ⟨rfl, rfl⟩
      · simp [WorkerState.scheduleLocalDeferred, WorkerState.queued, WorkerState.load]
        omega
    have hone := reenqueues.toNat_le
    rw [Option.some.injEq] at hs
    have hran' : s'.ran = s.ran + 1 := by rw [← hs]; rfl
    have hworker' : s'.worker = worker := by rw [← hs]; rfl
    have hbudget' : s'.readyBudget = s.readyBudget := by rw [← hs]; rfl
    have hallow' : s'.allowInjectedBurst = s.allowInjectedBurst := by rw [← hs]; rfl
    have hcount := count_spec ({ s with worker := worker } : ReadyPass τ)
    rw [hs] at hcount
    have hpoint' : s'.point.inHand = 0 ∧ pointWeight s'.worker s'.point ≤ 4 := by
      obtain hreturned | ⟨hloop, -⟩ := hcount
      · simp [hreturned, PassPoint.inHand, pointWeight]
      · simp [hloop, PassPoint.inHand, pointWeight]
    refine ⟨⟨?_, ?_, ?_, ?_, ?_⟩, ?_⟩
    · rw [hbudget', hbudget]
    · rw [hworker']
      omega
    · omega
    · rw [hallow', hbudget', hran']
      intro hne hle
      obtain ⟨-, hburst⟩ := hcount.resolve_left hne
      exact ⟨(hburst hle).1, (hburst hle).2.2⟩
    · rw [hworker', hbudget', hran']
      intro hne hle
      obtain ⟨-, hburst⟩ := hcount.resolve_left hne
      -- a task that puts itself back here would be the last of the burst
      obtain rfl : reenqueues = false := by
        obtain ⟨hallow, hcredit, -⟩ := hburst hle
        grind [yieldsLast]
      simp only [Bool.toNat_false] at hback
      omega
    · simp only [passMeasure, hworker', hbudget', hran'] at hpoint' ⊢
      omega
  · cases hs

lemma PassOk.step {start b : Nat} (h : PassOk start b s) {a : PassAction} (hok : yieldsLast s a)
    (hs : s.step a = some s') : PassOk start b s' ∧ passMeasure start s' < passMeasure start s := by
  cases a with
  | proceed =>
    refine h.proceeds ?_ (proceed_proceeds hs)
    rintro hreturned
    simp [ReadyPass.step, hreturned] at hs
  | resume reenqueues => exact h.resume hok hs
  | steal =>
    refine h.proceeds ?_ (steal_proceeds hs)
    rintro hreturned
    simp [ReadyPass.step, hreturned] at hs

lemma passOk_init (w : WorkerState τ) (ready_budget : Nat) :
    PassOk w.queued ready_budget (.init w ready_budget) where
  budget := rfl
  queued := le_refl _
  bound := Nat.zero_le _
  burst _ hran := by
    simp only [ReadyPass.init] at hran
    omega
  spent _ hran := by
    simp only [ReadyPass.init] at hran
    omega

lemma exists_step (hne : s.point ≠ .returned) : ∃ a, a ≠ .steal ∧ (s.step a).isSome := by
  by_cases hresume : ∃ task, s.point = .resume task
  · obtain ⟨task, hpoint⟩ := hresume
    exact ⟨.resume false, by decide, by simp [ReadyPass.step, hpoint]⟩
  · refine ⟨.proceed, by decide, ?_⟩
    cases hpoint : s.point <;> simp_all [ReadyPass.step]

/-- The runs of a pass are of bounded length, end only where the pass returns, and resume at most
`ready_budget` tasks more than were queued at the start. -/
def PassReturns (step : ReadyPass τ → PassAction → Option (ReadyPass τ)) (w : WorkerState τ)
    (ready_budget : Nat) : Prop :=
  ∃ n, ∀ as s, run step (.init w ready_budget) as = some s →
    as.length ≤ n ∧ s.ran ≤ ready_budget + w.queued ∧
      (s.point = .returned ∨ ∃ a, a ≠ .steal ∧ (step s a).isSome)

lemma passReturns_of_credit {ok : ReadyPass τ → PassAction → Bool} {P : ReadyPass τ → Prop}
    {w : WorkerState τ} {ready_budget : Nat} (hinit : P (.init w ready_budget))
    (hstep : ∀ s a s', P s → ok s a → s.step a = some s' → P s')
    (hcredit : ∀ s, P s → s.allowInjectedBurst → s.burstCredit ≤ 1)
    (hok : ∀ s a, a ≠ .steal → ok s a) :
    PassReturns (guarded ok ReadyPass.step) w ready_budget := by
  refine ⟨passMeasure w.queued (.init w ready_budget), fun as s h => ?_⟩
  obtain ⟨⟨hpass, -⟩, hlength⟩ := run_length_le
    (P := fun s => PassOk w.queued ready_budget s ∧ P s) (fun s a s' hP hs => by
      obtain ⟨hoks, hs⟩ := Option.ite_none_right_eq_some.mp hs
      have hyields : yieldsLast s a := by
        have := hcredit s hP.2
        grind [yieldsLast]
      obtain ⟨hpass, hlt⟩ := hP.1.step hyields hs
      exact ⟨⟨hpass, hstep s a s' hP.2 hoks hs⟩, hlt⟩) ⟨passOk_init w ready_budget, hinit⟩ h
  refine ⟨by omega, hpass.bound, ?_⟩
  by_cases hreturned : s.point = .returned
  · exact .inl hreturned
  · obtain ⟨a, ha, hsome⟩ := exists_step hreturned
    exact .inr ⟨a, ha, by rwa [guarded, if_pos (hok s a ha)]⟩

lemma allowInjectedBurst_step {a : PassAction} (hs : s.step a = some s') :
    s'.allowInjectedBurst = s.allowInjectedBurst := by
  cases a with
  | proceed => exact (proceed_proceeds hs).allow
  | steal => exact (steal_proceeds hs).allow
  | resume reenqueues =>
    simp only [ReadyPass.step] at hs
    split at hs <;> cases hs
    rfl

/-- The pass began without local work. -/
structure Burst (s : ReadyPass τ) : Prop where
  allow : s.allowInjectedBurst = true
  lifo : s.worker.lifoSlot = none

/-- What the pass does by itself in a burst, as far as the numbers of tasks go. -/
inductive BurstMove (s s' : ReadyPass τ) : Prop
  | drain (hpoint : s.point = .collectRemote ∨ s.point = .drainInjected)
      (hpoint' : s'.point = .popNext ∨ s'.point = .popDrained ∨
        s'.point = .returned ∧ s.worker.drained.length = 0)
      (hring : s'.worker.localRing.length = s.worker.localRing.length + s.worker.drained.length)
      (hinject :
        s'.worker.injectQueue.length + s.worker.drained.length = s.worker.injectQueue.length)
      (hcredit : s'.burstCredit = s.burstCredit + s.worker.drained.length)
  | take (hpoint : s.point = .popNext ∨ s.point = .popDrained) (task : τ)
      (hpoint' : s'.point = .resume task)
      (hring : s'.worker.localRing.length + 1 = s.worker.localRing.length)
      (hinject : s'.worker.injectQueue = s.worker.injectQueue)
      (hcredit : s'.burstCredit = s.burstCredit)
  | wait (hpoint : s.point.inHand = 0 ∧ s.point ≠ .collectRemote)
      (hpoint' : s'.point = .checkPending ∨ s'.point = .collectRemote ∨
        s'.point = .drainInjected ∨ s'.point = .returned)
      (hring : s.worker.localRing.length = 0 ∨ s.point = .checkPending)
      (hworker : s'.worker = s.worker) (hcredit : s'.burstCredit = s.burstCredit)

namespace Burst

lemma drain (h : Burst s) :
    s.drain.worker.localRing.length = s.worker.localRing.length + s.worker.drained.length ∧
      s.drain.worker.injectQueue.length + s.worker.drained.length = s.worker.injectQueue.length ∧
      s.drain.worker.lifoSlot = none ∧ s.drain.worker.injectBuffer = s.worker.injectBuffer ∧
      s.drain.burstCredit = s.burstCredit + s.worker.drained.length := by
  obtain ⟨hring, hinject, hlifo⟩ := s.worker.length_drainInjected
  refine ⟨hring, hinject, hlifo.trans h.lifo, ?_, if_pos h.allow⟩
  simp only [ReadyPass.drain, WorkerState.drainInjected]
  split <;> rfl

lemma collectRemote (h : Burst s) :
    s.collectRemote.worker.localRing.length =
        s.worker.localRing.length + s.worker.drained.length ∧
      s.collectRemote.worker.injectQueue.length + s.worker.drained.length =
        s.worker.injectQueue.length ∧
      s.collectRemote.worker.lifoSlot = none ∧
      s.collectRemote.worker.injectBuffer = s.worker.injectBuffer ∧
      s.collectRemote.burstCredit = s.burstCredit + s.worker.drained.length := by
  unfold ReadyPass.collectRemote
  split
  · exact h.drain
  · next hcond =>
    have hnil : s.worker.injectQueue = [] := by
      simp only [Bool.or_eq_true, not_or, WorkerState.hasPendingInjected] at hcond
      simpa using hcond.2
    simp [WorkerState.drained, hnil, h.lifo]

lemma pop (h : Burst s) (empty : PassPoint τ) :
    (s.worker.localRing.length = 0 ∧ s.pop empty = { s with point := empty }) ∨
    ∃ task, (s.pop empty).point = .resume task ∧
      (s.pop empty).worker.localRing.length + 1 = s.worker.localRing.length ∧
      (s.pop empty).worker.injectQueue = s.worker.injectQueue ∧
      (s.pop empty).worker.lifoSlot = none ∧
      (s.pop empty).worker.injectBuffer = s.worker.injectBuffer := by
  have hprepare : s.worker.prepareForRun = s.worker := by simp [WorkerState.prepareForRun, h.lifo]
  cases hring : s.worker.localRing.getLast? with
  | none =>
    have hnil := List.getLast?_eq_none_iff.mp hring
    simp [ReadyPass.pop, WorkerState.popNext, hprepare, h.lifo, hnil]
  | some task =>
    have hpos : 0 < s.worker.localRing.length :=
      List.length_pos_iff.mpr fun hnil => by simp [hnil] at hring
    refine .inr ⟨task, ?_⟩
    simp only [ReadyPass.pop, WorkerState.popNext, hprepare, h.lifo, hring, List.length_dropLast,
      and_self, and_true, true_and]
    omega

lemma proceed (h : Burst s) (hs : s.step .proceed = some s') :
    Burst s' ∧ s'.worker.injectBuffer = s.worker.injectBuffer ∧ BurstMove s s' := by
  have hallow := (allowInjectedBurst_step hs).trans h.allow
  simp only [ReadyPass.step] at hs
  split at hs
  · next hpoint =>
    cases hs
    obtain ⟨hring, hinject, hlifo, hbuffer, hcredit⟩ := h.collectRemote
    exact ⟨⟨hallow, hlifo⟩, hbuffer, .drain (.inl hpoint) (.inl rfl) hring hinject hcredit⟩
  · next hpoint =>
    cases hs
    rcases h.pop .checkPending with ⟨hring, heq⟩ | ⟨task, hpoint', hring, hinject, hlifo, hbuffer⟩
    · rw [heq]
      exact ⟨⟨h.allow, h.lifo⟩, rfl,
        .wait (by simp [hpoint, PassPoint.inHand]) (.inl rfl) (.inl hring) rfl rfl⟩
    · exact ⟨⟨hallow, hlifo⟩, hbuffer, .take (.inl hpoint) task hpoint' hring hinject rfl⟩
  · next hpoint =>
    cases hs
    refine ⟨⟨h.allow, h.lifo⟩, rfl,
      .wait (by simp [hpoint, PassPoint.inHand]) ?_ (.inr hpoint) rfl rfl⟩
    cases s.worker.hasPendingInjected <;> simp
  · next hpoint =>
    cases hs
    obtain ⟨hring, hinject, hlifo, hbuffer, hcredit⟩ := h.drain
    refine ⟨⟨hallow, hlifo⟩, hbuffer, .drain (.inr hpoint) (.inr ?_) hring hinject hcredit⟩
    by_cases hdrained : s.worker.drained = []
    · exact .inr ⟨if_pos hdrained, by simp [hdrained]⟩
    · exact .inl (if_neg hdrained)
  · next hpoint =>
    cases hs
    rcases h.pop .returned with ⟨hring, heq⟩ | ⟨task, hpoint', hring, hinject, hlifo, hbuffer⟩
    · rw [heq]
      exact ⟨⟨h.allow, h.lifo⟩, rfl, .wait (by simp [hpoint, PassPoint.inHand])
        (.inr (.inr (.inr rfl))) (.inl hring) rfl rfl⟩
    · exact ⟨⟨hallow, hlifo⟩, hbuffer, .take (.inr hpoint) task hpoint' hring hinject rfl⟩
  · cases hs
  · cases hs

lemma resume (h : Burst s) {reenqueues : Bool} (hs : s.step (.resume reenqueues) = some s') :
    Burst s' ∧ s'.worker.injectBuffer = s.worker.injectBuffer ∧ s.point.inHand = 1 ∧
      s'.worker.localRing = s.worker.localRing ∧
      s'.worker.injectQueue.length = s.worker.injectQueue.length + reenqueues.toNat ∧
      s'.burstCredit = s.burstCredit - 1 ∧
      (s'.point = .collectRemote ∨ s'.point = .returned ∧ s'.burstCredit = 0) := by
  have hallow := (allowInjectedBurst_step hs).trans h.allow
  simp only [ReadyPass.step] at hs
  split at hs
  · next task hpoint =>
    cases hs
    have hcredit : (if 0 < s.burstCredit then s.burstCredit - 1 else s.burstCredit) =
        s.burstCredit - 1 := by split <;> omega
    refine ⟨⟨hallow, ?_⟩, ?_, by rw [hpoint]; rfl, ?_, ?_, ?_, ?_⟩
    · cases reenqueues <;> exact h.lifo
    · cases reenqueues <;> rfl
    · cases reenqueues <;> rfl
    · cases reenqueues <;> simp [ReadyPass.count, WorkerState.scheduleLocalDeferred]
    · simp [ReadyPass.count, h.allow, hcredit]
    · simp only [ReadyPass.count, h.allow, Bool.true_and, decide_eq_true_eq, hcredit]
      grind
  · cases hs

lemma steal (h : Burst s) (hs : s.step .steal = some s') :
    Burst s' ∧ s'.point = s.point ∧ s'.burstCredit = s.burstCredit ∧
      s'.worker.injectQueue = s.worker.injectQueue ∧
      s'.worker.localRing.length + 1 = s.worker.localRing.length := by
  simp only [ReadyPass.step] at hs
  split at hs
  · cases hs
  · cases hs
  · next hring _ =>
    cases hs
    exact ⟨⟨h.allow, h.lifo⟩, rfl, rfl, rfl, by rw [hring]; rfl⟩

end Burst

structure LoneTask (s : ReadyPass τ) : Prop extends Burst s where
  tasks : s.worker.localRing.length + s.worker.injectQueue.length + s.point.inHand ≤ 1
  credit : s.burstCredit + s.worker.injectQueue.length ≤ 1

lemma LoneTask.step (h : LoneTask s) {a : PassAction} (hs : s.step a = some s') : LoneTask s' := by
  have htasks := h.tasks
  have hcredit := h.credit
  cases a with
  | proceed =>
    obtain ⟨hburst, -, hm⟩ := h.toBurst.proceed hs
    refine ⟨hburst, ?_, ?_⟩ <;> cases hm <;> grind [PassPoint.inHand]
  | resume reenqueues =>
    obtain ⟨hburst, -, hhand, hring, hinject, hcredit', hpoint⟩ := h.toBurst.resume hs
    have hone := reenqueues.toNat_le
    have hhand' : s'.point.inHand = 0 := by
      rcases hpoint with hpoint | ⟨hpoint, -⟩ <;> rw [hpoint] <;> rfl
    exact ⟨hburst, by rw [hring]; omega, by omega⟩
  | steal =>
    obtain ⟨hburst, hpoint, hcredit', hinject, hring⟩ := h.toBurst.steal hs
    refine ⟨hburst, ?_, ?_⟩
    · rw [hpoint, hinject]
      omega
    · rw [hcredit', hinject]
      exact hcredit

def unstolen (_ : ReadyPass τ) (a : PassAction) : Bool := a != .steal

structure OneDrained (s : ReadyPass τ) : Prop extends Burst s where
  buffer : s.worker.injectBuffer = 1
  credit : s.burstCredit = s.worker.localRing.length + s.point.inHand
  ring : s.worker.localRing.length ≤ 1
  empty : s.point ≠ .popNext → s.point ≠ .popDrained → s.worker.localRing.length = 0

lemma OneDrained.step (h : OneDrained s) {a : PassAction} (hne : a ≠ .steal)
    (hs : s.step a = some s') : OneDrained s' := by
  have hbuffer := h.buffer
  have hcredit := h.credit
  have hring := h.ring
  have hempty := h.empty
  cases a with
  | proceed =>
    obtain ⟨hburst, hbuffer', hm⟩ := h.toBurst.proceed hs
    have hdrained : s.worker.drained.length ≤ 1 := by
      simp only [WorkerState.drained, List.length_take, hbuffer]
      omega
    refine ⟨hburst, hbuffer'.trans hbuffer, ?_, ?_, ?_⟩ <;> cases hm <;> grind [PassPoint.inHand]
  | resume reenqueues =>
    obtain ⟨hburst, hbuffer', hhand, hring', -, hcredit', hpoint⟩ := h.toBurst.resume hs
    have hzero : s.worker.localRing.length = 0 := by
      refine hempty ?_ ?_ <;> rintro hpoint <;> simp [hpoint, PassPoint.inHand] at hhand
    have hhand' : s'.point.inHand = 0 := by
      rcases hpoint with hpoint | ⟨hpoint, -⟩ <;> rw [hpoint] <;> rfl
    exact ⟨hburst, hbuffer'.trans hbuffer, by rw [hring']; omega, by rw [hring']; exact hring,
      fun _ _ => by rw [hring']; exact hzero⟩
  | steal => exact absurd rfl hne

/-- The credit is not used up before the next drain, and neither is it before the one after. -/
structure Spins (s : ReadyPass τ) : Prop extends Burst s where
  point : s.point = .collectRemote
  credit :
    s.worker.localRing.length < s.burstCredit ∧
        0 < s.worker.localRing.length + s.worker.injectQueue.length ∨
      s.worker.localRing.length ≤ s.burstCredit ∧ 0 < s.worker.localRing.length ∧
        0 < s.worker.injectQueue.length

lemma Burst.round (h : Burst s) (hpoint : s.point = .collectRemote)
    (hring : 0 < s.worker.localRing.length + s.worker.drained.length) :
    ∃ s', run (guarded unstolen ReadyPass.step) s [.proceed, .proceed, .resume true] = some s' ∧
      Burst s' ∧
      s'.worker.localRing.length + 1 = s.worker.localRing.length + s.worker.drained.length ∧
      s'.worker.injectQueue.length + s.worker.drained.length = s.worker.injectQueue.length + 1 ∧
      s'.burstCredit = s.burstCredit + s.worker.drained.length - 1 ∧
      (s'.point = .collectRemote ∨ s'.point = .returned ∧ s'.burstCredit = 0) := by
  obtain ⟨s₁, hs₁, hpoint₁⟩ : ∃ s₁, s.step .proceed = some s₁ ∧ s₁.point = .popNext :=
    ⟨{ s.collectRemote with point := .popNext }, by simp only [ReadyPass.step, hpoint], rfl⟩
  obtain ⟨hburst₁, -, hm₁⟩ := h.proceed hs₁
  obtain ⟨hring₁, hinject₁, hcredit₁⟩ :
      s₁.worker.localRing.length = s.worker.localRing.length + s.worker.drained.length ∧
      s₁.worker.injectQueue.length + s.worker.drained.length = s.worker.injectQueue.length ∧
      s₁.burstCredit = s.burstCredit + s.worker.drained.length := by
    cases hm₁ with
    | drain _ _ hring hinject hcredit => exact ⟨hring, hinject, hcredit⟩
    | take hpoint => simp_all
    | wait hwait => exact absurd hpoint hwait.2
  obtain ⟨s₂, hs₂⟩ : ∃ s₂, s₁.step .proceed = some s₂ :=
    ⟨s₁.pop .checkPending, by simp only [ReadyPass.step, hpoint₁]⟩
  obtain ⟨hburst₂, -, hm₂⟩ := hburst₁.proceed hs₂
  cases hm₂ with
  | drain hdrain => simp [hpoint₁] at hdrain
  | wait _ _ hring₂ =>
    rcases hring₂ with hring₂ | hcheck
    · omega
    · simp [hpoint₁] at hcheck
  | take _ task hpoint₂ hring₂ hinject₂ hcredit₂ =>
    obtain ⟨s₃, hs₃⟩ := Option.isSome_iff_exists.mp (show (s₂.step (.resume true)).isSome by
      simp [ReadyPass.step, hpoint₂])
    obtain ⟨hburst₃, -, -, hring₃, hinject₃, hcredit₃, hpoint₃⟩ := hburst₂.resume hs₃
    refine ⟨s₃, ?_, hburst₃, ?_, ?_, ?_, hpoint₃⟩
    · simp [run, guarded, unstolen, hs₁, hs₂, hs₃]
    · rw [hring₃]
      omega
    · rw [hinject₃, hinject₂, Bool.toNat_true]
      omega
    · omega

lemma Spins.again (h : Spins s) : ∃ s',
    run (guarded unstolen ReadyPass.step) s [.proceed, .proceed, .resume true] = some s' ∧
      Spins s' := by
  have hcredit := h.credit
  have hdrained := s.worker.length_drained
  have hpos := s.worker.injectBuffer_pos
  obtain ⟨s', hs', hburst, hring', hinject', hcredit', hpoint'⟩ := h.toBurst.round h.point (by omega)
  refine ⟨s', hs', hburst, ?_, by omega⟩
  rcases hpoint' with hpoint' | ⟨-, hzero⟩
  · exact hpoint'
  · omega

lemma Spins.reaches (h : Spins s) (n : Nat) : ∃ as s', n ≤ as.length ∧
    run (guarded unstolen ReadyPass.step) s as = some s' ∧ Spins s' := by
  induction n with
  | zero => exact ⟨[], s, Nat.zero_le _, rfl, h⟩
  | succ n ih =>
    obtain ⟨as, s₁, hlength, hs₁, hspins⟩ := ih
    obtain ⟨s', hs', hspins'⟩ := hspins.again
    refine ⟨as ++ [.proceed, .proceed, .resume true], s', ?_, ?_, hspins'⟩
    · rw [List.length_append]
      exact Nat.add_le_add hlength (by decide)
    · rw [run_append, hs₁]
      exact hs'

variable {w : WorkerState τ} {ready_budget : Nat}

lemma Spins.not_passReturns {step : ReadyPass τ → PassAction → Option (ReadyPass τ)}
    (hstep : ∀ s as s', run (guarded unstolen ReadyPass.step) s as = some s' →
      run step s as = some s') {as : List PassAction}
    (hs : run step (.init w ready_budget) as = some s) (h : Spins s) :
    ¬PassReturns step w ready_budget := by
  rintro ⟨n, hn⟩
  obtain ⟨as', s', hlength, hs', -⟩ := h.reaches (n + 1)
  have hrun : run step (.init w ready_budget) (as ++ as') = some s' := by
    rw [run_append, hs]
    exact hstep s as' s' hs'
  have := (hn _ _ hrun).1
  rw [List.length_append] at this
  omega

lemma burst_init (ready_budget : Nat) (h : ¬w.hasLocalWork) :
    Burst (.init w ready_budget) ∧ w.localRing.length = 0 := by
  have hzero := w.hasLocalWork_iff.not.mp h
  refine ⟨⟨by simpa [ReadyPass.init] using h, ?_⟩, by omega⟩
  show w.lifoSlot = none
  cases hlifo : w.lifoSlot
  · rfl
  · simp [hlifo] at hzero

/-- Two tasks that are drained together keep the pass from returning. -/
lemma spins_of_buffer (hlocal : ¬w.hasLocalWork) (hinject : 1 < w.injectQueue.length)
    (hbuffer : 1 < w.injectBuffer) : ∃ as s,
    run (guarded unstolen ReadyPass.step) (.init w ready_budget) as = some s ∧ Spins s := by
  obtain ⟨hburst, hring⟩ := burst_init ready_budget hlocal
  have hdrained := w.length_drained
  obtain ⟨s, hs, hburst', hring', hinject', hcredit', hpoint'⟩ := hburst.round rfl (by
    show 0 < w.localRing.length + w.drained.length
    omega)
  simp only [ReadyPass.init] at hring' hinject' hcredit'
  refine ⟨_, s, hs, hburst', ?_, by omega⟩
  rcases hpoint' with hpoint' | ⟨-, hzero⟩
  · exact hpoint'
  · omega

lemma spins_of_thief (hlocal : ¬w.hasLocalWork) (hinject : 1 < w.injectQueue.length)
    (hbuffer : w.injectBuffer = 1) : ∃ as s,
    run ReadyPass.step (.init w ready_budget) as = some s ∧ Spins s := by
  obtain ⟨hburst, hring⟩ := burst_init ready_budget hlocal
  have hdrained := w.length_drained
  obtain ⟨s₁, hs₁, hpoint₁⟩ : ∃ s₁, (ReadyPass.init w ready_budget).step .proceed = some s₁ ∧
      s₁.point = .popNext := ⟨_, rfl, rfl⟩
  obtain ⟨hburst₁, -, hm₁⟩ := hburst.proceed hs₁
  cases hm₁ with
  | take hpoint => simp [ReadyPass.init] at hpoint
  | wait hpoint => exact absurd rfl hpoint.2
  | drain _ _ hring₁ hinject₁ hcredit₁ =>
    simp only [ReadyPass.init] at hring₁ hinject₁ hcredit₁
    obtain ⟨t, rest, hring₁'⟩ := List.exists_cons_of_length_pos (l := s₁.worker.localRing) (by omega)
    obtain ⟨s₂, hs₂⟩ := Option.isSome_iff_exists.mp (show (s₁.step .steal).isSome by
      simp [ReadyPass.step, hpoint₁, hring₁'])
    obtain ⟨hburst₂, hpoint₂, hcredit₂, hinject₂, hring₂⟩ := hburst₁.steal hs₂
    have hzero : s₂.worker.localRing.length = 0 := by omega
    obtain ⟨-, heq⟩ := (hburst₂.pop .checkPending).resolve_right (by
      rintro ⟨task, -, hlength, -⟩
      omega)
    have hpending : s₂.worker.hasPendingInjected = true := by
      rw [WorkerState.hasPendingInjected_iff, hinject₂]
      omega
    have hs₃ : s₂.step .proceed = some { s₂ with point := .checkPending } := by
      rw [← heq]
      simp only [ReadyPass.step, hpoint₂.trans hpoint₁]
    have hs₄ : ({ s₂ with point := .checkPending } : ReadyPass τ).step .proceed =
        some { s₂ with point := .collectRemote } := by
      simp only [ReadyPass.step, hpending, if_true]
    refine ⟨[.proceed, .steal, .proceed, .proceed], { s₂ with point := .collectRemote }, ?_,
      ⟨hburst₂.allow, hburst₂.lifo⟩, rfl, .inl ⟨?_, ?_⟩⟩
    · simp [run, hs₁, hs₂, hs₃, hs₄]
    · show s₂.worker.localRing.length < s₂.burstCredit
      omega
    · show 0 < s₂.worker.localRing.length + s₂.worker.injectQueue.length
      rw [hinject₂]
      omega

lemma not_passReturns (hlocal : ¬w.hasLocalWork) (hinject : 1 < w.injectQueue.length) :
    ¬PassReturns ReadyPass.step w ready_budget := by
  have hpos := w.injectBuffer_pos
  have hlift : ∀ (s : ReadyPass τ) as s', run (guarded unstolen ReadyPass.step) s as = some s' →
      run ReadyPass.step s as = some s' := fun s as s' => run_of_guarded
  rcases Nat.lt_or_ge 1 w.injectBuffer with hbuffer | hbuffer
  · obtain ⟨as, s, hs, hspins⟩ := spins_of_buffer hlocal hinject hbuffer
    exact hspins.not_passReturns hlift (hlift _ _ _ hs)
  · obtain ⟨as, s, hs, hspins⟩ := spins_of_thief hlocal hinject (by omega)
    exact hspins.not_passReturns hlift hs

lemma passReturns_of_local (hlocal : w.hasLocalWork) {ok : ReadyPass τ → PassAction → Bool}
    (hok : ∀ s a, a ≠ .steal → ok s a) : PassReturns (guarded ok ReadyPass.step) w ready_budget := by
  refine passReturns_of_credit (P := fun s => s.allowInjectedBurst = false) ?_ ?_ ?_ hok
  · simp [ReadyPass.init, hlocal]
  · exact fun s a s' hs _ hstep => (allowInjectedBurst_step hstep).trans hs
  · exact fun s hs hallow => absurd (hs.symm.trans hallow) nofun

lemma passReturns_of_lone (hlocal : ¬w.hasLocalWork) (hinject : w.injectQueue.length ≤ 1)
    {ok : ReadyPass τ → PassAction → Bool} (hok : ∀ s a, a ≠ .steal → ok s a) :
    PassReturns (guarded ok ReadyPass.step) w ready_budget := by
  obtain ⟨hburst, hring⟩ := burst_init ready_budget hlocal
  refine passReturns_of_credit (P := LoneTask) ⟨hburst, ?_, ?_⟩ ?_ ?_ hok
  · simp [ReadyPass.init, PassPoint.inHand, hring, hinject]
  · simpa [ReadyPass.init] using hinject
  · exact fun s a s' hs _ hstep => hs.step hstep
  · exact fun s hs _ => (Nat.le_add_right _ _).trans hs.credit

/-- A pass that begins with local work, or with one injected task, returns whatever the tasks and
the thieves do, and no other pass does. Where nobody steals, a pass that drains one task at a time
returns as well. -/
theorem readyPass_returns_iff (w : WorkerState τ) (ready_budget : Nat) :
    (PassReturns ReadyPass.step w ready_budget ↔ w.hasLocalWork ∨ w.injectQueue.length ≤ 1) ∧
    (PassReturns (guarded unstolen ReadyPass.step) w ready_budget ↔
      w.hasLocalWork ∨ w.injectQueue.length ≤ 1 ∨ w.injectBuffer = 1) := by
  have hunstolen : ∀ (s : ReadyPass τ) a, a ≠ .steal → unstolen s a := fun s a ha => by
    simpa [unstolen] using ha
  refine ⟨⟨fun h => ?_, fun h => ?_⟩, ⟨fun h => ?_, fun h => ?_⟩⟩
  · by_contra hnot
    rw [not_or, not_le] at hnot
    exact not_passReturns hnot.1 hnot.2 h
  · rw [← guarded_true ReadyPass.step]
    by_cases hlocal : w.hasLocalWork
    · exact passReturns_of_local hlocal fun _ _ _ => rfl
    · exact passReturns_of_lone hlocal (h.resolve_left hlocal) fun _ _ _ => rfl
  · by_contra hnot
    rw [not_or, not_or, not_le] at hnot
    have hpos := w.injectBuffer_pos
    obtain ⟨as, s, hs, hspins⟩ := spins_of_buffer hnot.1 hnot.2.1 (by omega)
    exact hspins.not_passReturns (fun _ _ _ => id) hs h
  · by_cases hlocal : w.hasLocalWork
    · exact passReturns_of_local hlocal hunstolen
    · obtain hinject | hbuffer := h.resolve_left hlocal
      · exact passReturns_of_lone hlocal hinject hunstolen
      · obtain ⟨hburst, hring⟩ := burst_init ready_budget hlocal
        refine passReturns_of_credit (P := OneDrained) ⟨hburst, hbuffer, ?_, ?_, ?_⟩ ?_ ?_ hunstolen
        · simp [ReadyPass.init, PassPoint.inHand, hring]
        · simp [ReadyPass.init, hring]
        · simp [ReadyPass.init, hring]
        · exact fun s a s' hs ha hstep => hs.step (by simpa [unstolen] using ha) hstep
        · intro s hs _
          have hcredit := hs.credit
          have hring := hs.ring
          by_cases hhand : s.point.inHand = 0
          · omega
          · have hempty := hs.empty (by rintro hp; simp [hp, PassPoint.inHand] at hhand)
              (by rintro hp; simp [hp, PassPoint.inHand] at hhand)
            have hle : s.point.inHand ≤ 1 := by cases s.point <;> simp [PassPoint.inHand]
            omega

def twoInjected : WorkerState Bool where
  lifoSlot := none
  localRing := []
  injectQueue := [false, true]
  injectBuffer := 256
  injectBuffer_pos := by decide
  consecutiveLifoPolls := 0
  lifoPollLimit := 8
  pollsSinceInject := 0
  injectCheckInterval := 8
  lifoEnabled := true

theorem readyPass_can_spin :
    ¬∀ (w : WorkerState Bool) (ready_budget : Nat), PassReturns ReadyPass.step w ready_budget :=
  fun h => not_passReturns (w := twoInjected) (by decide) (by decide) (h twoInjected 1)

end GalayKernel.Proofs
