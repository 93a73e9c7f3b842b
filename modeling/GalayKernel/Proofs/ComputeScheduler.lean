import GalayKernel.ComputeScheduler
import GalayKernel.Lib.Transition
import Mathlib.Algebra.BigOperators.Group.Finset.Basic
import Mathlib.Algebra.Order.BigOperators.Group.Finset

namespace GalayKernel.Proofs

open Transition

namespace ComputeScheduler

variable {ρ τ : Type}

def tasks (queue : List (ComputeTask τ)) : List τ :=
  queue.filterMap fun
    | .task t => some t
    | .stopSignal => none

def signalCount (queue : List (ComputeTask τ)) : Nat :=
  queue.countP fun
    | .task _ => false
    | .stopSignal => true

lemma signalCount_stopSignal (queue : List (ComputeTask τ)) :
    signalCount (.stopSignal :: queue) = signalCount queue + 1 :=
  List.countP_cons_of_pos rfl

/-- The thread of the scheduler: not there, in its first loop, or past the stop signal -/
inductive ComputePhase where
  | absent
  | looping
  | ending
  deriving DecidableEq

def phase : ComputeWorker ρ τ → ComputePhase
  | .absent => .absent
  | .waiting | .holding _ _ => .looping
  | .draining _ | .drainHolding _ _ | .exited => .ending

lemma eq_absent {worker : ComputeWorker ρ τ} (h : phase worker = .absent) : worker = .absent := by
  cases worker <;> simp_all [phase]

/-- What `start` and `stop` have done so far -/
def ControlOk (running joinable : Bool) (phase : ComputePhase) : ComputeControl ρ → Prop
  | .idle => joinable = running ∧ phase = if running then .looping else .absent
  | .starting => running = true ∧ joinable = false ∧ phase = .absent
  | .signalling _ => running = false ∧ joinable = true ∧ phase = .looping
  | .joining _ => running = false ∧ joinable = true ∧ phase ≠ .absent

variable [DecidableEq ρ]

def held (p : ρ) : ComputeWorker ρ τ → List τ
  | .holding q t | .drainHolding q t => if q = p then [t] else []
  | _ => []

/-- The signal of a stop is there until the worker has taken it. -/
def signalsDue (p : ρ) (phase : ComputePhase) : ComputeControl ρ → Nat
  | .joining q => if q = p ∧ phase = .looping then 1 else 0
  | _ => 0

/-- The worker owes thread `p` nothing of what the last call of `stop` promised. -/
def settled (p : ρ) : ComputeWorker ρ τ → Prop
  | .draining seen => p ∈ seen
  | .exited | .absent => True
  | _ => False

structure ThreadOk (accepted resumed held : List τ) (queue : List (ComputeTask τ)) (due : Nat)
    (promised : Nat) (settled : Prop) : Prop where
  conserved : accepted = resumed ++ held ++ tasks queue
  signals : signalCount queue = due
  promised_le : promised ≤ accepted.length
  kept : settled → promised ≤ resumed.length

namespace ThreadOk

variable {accepted resumed held : List τ} {queue : List (ComputeTask τ)} {due promised : Nat}
  {settled : Prop} {t : τ}

lemma unsettle (h : ThreadOk accepted resumed held queue due promised settled) :
    ThreadOk accepted resumed held queue due promised False :=
  { h with kept := False.elim }

lemma schedule (h : ThreadOk accepted resumed held queue due promised settled) (t : τ) :
    ThreadOk (accepted ++ [t]) resumed held (queue ++ [.task t]) due promised settled where
  conserved := by simp [h.conserved, tasks]
  signals := by simpa [signalCount] using h.signals
  promised_le := by simpa using Nat.le_succ_of_le h.promised_le
  kept := h.kept

lemma signal (h : ThreadOk accepted resumed held queue due promised settled) :
    ThreadOk accepted resumed held (queue ++ [.stopSignal]) (due + 1) promised settled where
  conserved := by simpa [tasks] using h.conserved
  signals := by simpa [signalCount] using h.signals
  promised_le := h.promised_le
  kept := h.kept

lemma takeTask (h : ThreadOk accepted resumed [] (.task t :: queue) due promised settled) :
    ThreadOk accepted resumed [t] queue due promised False where
  conserved := by simpa [tasks] using h.conserved
  signals := by simpa [signalCount] using h.signals
  promised_le := h.promised_le
  kept := False.elim

lemma takeSignal (h : ThreadOk accepted resumed [] (.stopSignal :: queue) due promised settled) :
    ThreadOk accepted resumed [] queue (due - 1) promised False where
  conserved := by simpa [tasks] using h.conserved
  signals := by rw [← h.signals, signalCount_stopSignal, Nat.add_sub_cancel]
  promised_le := h.promised_le
  kept := False.elim

lemma resume (h : ThreadOk accepted resumed [t] queue due promised settled) :
    ThreadOk accepted (resumed ++ [t]) [] queue due promised False where
  conserved := by simpa using h.conserved
  signals := h.signals
  promised_le := h.promised_le
  kept := False.elim

lemma settle (h : ThreadOk accepted resumed [] [] due promised settled) :
    ThreadOk accepted resumed [] [] due promised True :=
  { h with kept := fun _ => by simpa [h.conserved, tasks] using h.promised_le }

end ThreadOk

structure ComputeOk (s : ComputeScheduler ρ τ) : Prop where
  alive : s.terminated = false
  control : ControlOk s.running s.joinable (phase s.worker) s.control
  thread : ∀ p, ThreadOk (s.accepted p) (s.resumed p) (held p s.worker) (s.queue p)
    (signalsDue p (phase s.worker) s.control) (s.promised p) (settled p s.worker)

variable {s s' : ComputeScheduler ρ τ} {p : ρ} {t : τ}

lemma ComputeOk.init : ComputeOk (ComputeScheduler.init : ComputeScheduler ρ τ) where
  alive := rfl
  control := ⟨rfl, rfl⟩
  thread _ := ⟨rfl, rfl, Nat.le_refl 0, fun _ => Nat.le_refl 0⟩

lemma ComputeOk.schedule (h : ComputeOk s) : ComputeOk (s.schedule p t) where
  alive := h.alive
  control := h.control
  thread q := by
    by_cases hqp : q = p
    · subst hqp
      simpa [ComputeScheduler.schedule, ComputeScheduler.enqueue] using (h.thread q).schedule t
    · simpa [ComputeScheduler.schedule, ComputeScheduler.enqueue, hqp] using h.thread q

lemma ComputeOk.start (h : ComputeOk s) (hidle : s.control = .idle) : ComputeOk s.start := by
  unfold ComputeScheduler.start
  split
  · exact h
  · next hrunning =>
    have hcontrol := h.control
    have hthread := h.thread
    simp only [hidle, ControlOk, signalsDue, hrunning] at hcontrol hthread
    exact ⟨h.alive, ⟨rfl, by simpa [hrunning] using hcontrol.1, hcontrol.2⟩, hthread⟩

lemma ComputeOk.createThread (h : ComputeOk s) (hstarting : s.control = .starting) :
    ComputeOk { s with
      worker := .waiting
      joinable := true
      terminated := s.terminated || s.joinable
      control := .idle } := by
  have hcontrol := h.control
  have hthread := h.thread
  simp only [hstarting, ControlOk, signalsDue] at hcontrol hthread
  obtain ⟨hrunning, hjoinable, hphase⟩ := hcontrol
  rw [eq_absent hphase] at hthread
  exact ⟨by simp [h.alive, hjoinable], ⟨hrunning.symm, by rw [if_pos hrunning]; rfl⟩,
    fun q => (hthread q).unsettle⟩

lemma ComputeOk.stop (h : ComputeOk s) (hidle : s.control = .idle) (p : ρ) :
    ComputeOk (s.stop p) := by
  unfold ComputeScheduler.stop
  split
  · next hrunning =>
    have hcontrol := h.control
    have hthread := h.thread
    simp only [hidle, ControlOk, signalsDue, hrunning, if_true] at hcontrol hthread
    obtain ⟨hjoinable, hphase⟩ := hcontrol
    refine ⟨h.alive, ⟨rfl, hjoinable, hphase⟩, fun q => { hthread q with
      promised_le := Nat.le_refl _
      kept := fun hsettled => ?_ }⟩
    cases hworker : s.worker <;> simp_all [phase, settled]
  · exact h

lemma ComputeOk.signal (h : ComputeOk s) (hsignalling : s.control = .signalling p) :
    ComputeOk { s.enqueue p .stopSignal with control := .joining p } := by
  have hcontrol := h.control
  have hthread := h.thread
  simp only [hsignalling, ControlOk, signalsDue] at hcontrol hthread
  obtain ⟨hrunning, hjoinable, hphase⟩ := hcontrol
  refine ⟨h.alive, ⟨hrunning, hjoinable, ?_⟩, fun q => ?_⟩
  · exact fun habsent => nomatch hphase.symm.trans habsent
  · by_cases hqp : q = p
    · subst hqp
      simpa [ComputeScheduler.enqueue, hphase, signalsDue] using (hthread q).signal
    · simpa [ComputeScheduler.enqueue, hqp, Ne.symm hqp, signalsDue] using hthread q

lemma ComputeOk.join (h : ComputeOk s) {p : ρ} (hjoining : s.control = .joining p)
    (hexited : s.worker = .exited) :
    ComputeOk { s with worker := .absent, joinable := false, control := .idle } := by
  have hcontrol := h.control
  simp only [hjoining, ControlOk] at hcontrol
  refine ⟨h.alive, ⟨hcontrol.1.symm, by simp [hcontrol.1, phase]⟩, fun q => ?_⟩
  simpa [hjoining, hexited, held, phase, settled, signalsDue] using h.thread q

lemma ComputeOk.takeTask (h : ComputeOk s) {rest : List (ComputeTask τ)}
    (hqueue : s.queue p = .task t :: rest) {worker : ComputeWorker ρ τ}
    (hfrom : ∀ q, held q s.worker = []) (hheld : ∀ q, held q worker = if p = q then [t] else [])
    (hphase : phase worker = phase s.worker) (hsettled : ∀ q, ¬ settled q worker) :
    ComputeOk { s with queue := Function.update s.queue p rest, worker := worker } := by
  refine ⟨h.alive, by simpa [hphase] using h.control, fun q => ?_⟩
  have hq := h.thread q
  rw [hfrom] at hq
  by_cases hqp : q = p
  · subst hqp
    rw [hqueue] at hq
    simpa [hheld, hphase, hsettled] using hq.takeTask
  · simpa [hqp, hheld, Ne.symm hqp, hphase, hsettled] using hq.unsettle

lemma ComputeOk.takeSignal (h : ComputeOk s) {rest : List (ComputeTask τ)}
    (hqueue : s.queue p = .stopSignal :: rest) (hfrom : ∀ q, held q s.worker = []) :
    ComputeOk { s with
      queue := Function.update s.queue p rest
      worker := .draining ∅ } := by
  have hp := (h.thread p).signals
  rw [hqueue, signalCount_stopSignal] at hp
  -- a signal is in a queue only between `signal` and the end of the first loop
  obtain ⟨hjoining, hlooping⟩ : s.control = .joining p ∧ phase s.worker = .looping := by
    unfold signalsDue at hp
    split at hp
    · next r hr =>
      split at hp
      · next hcond => exact ⟨by rw [hr, hcond.1], hcond.2⟩
      · omega
    · omega
  have hcontrol := h.control
  simp only [hjoining, ControlOk] at hcontrol
  refine ⟨h.alive, ?_, fun q => ?_⟩
  · simpa [hjoining, ControlOk, phase] using ⟨hcontrol.1, hcontrol.2.1⟩
  · have hq := h.thread q
    rw [hfrom, hjoining, hlooping] at hq
    by_cases hqp : q = p
    · subst hqp
      rw [hqueue] at hq
      simpa [hjoining, signalsDue, held, phase, settled] using hq.takeSignal
    · simpa [hqp, Ne.symm hqp, hjoining, signalsDue, held, phase, settled] using hq.unsettle

lemma taken_cases {worker worker' : ComputeWorker ρ τ} {x : ComputeTask τ}
    (h : ComputeScheduler.taken p worker x = some worker') : (∀ q, held q worker = []) ∧
      ((∃ t, x = .task t ∧ (∀ q, held q worker' = if p = q then [t] else []) ∧
          phase worker' = phase worker ∧ ∀ q, ¬ settled q worker') ∨
        (x = .stopSignal ∧ worker' = .draining ∅)) := by
  cases x <;> cases worker <;> cases h <;> simp [held, phase, settled]

lemma ComputeOk.dequeue (h : ComputeOk s) (hs : s.dequeue p = some s') : ComputeOk s' := by
  unfold ComputeScheduler.dequeue at hs
  split at hs
  · cases hs
  · next x rest hqueue =>
    rw [Option.map_eq_some_iff] at hs
    obtain ⟨worker, htaken, rfl⟩ := hs
    obtain ⟨hfrom, ⟨t, rfl, hheld, hphase, hsettled⟩ | ⟨rfl, rfl⟩⟩ := taken_cases htaken
    · exact h.takeTask hqueue hfrom hheld hphase hsettled
    · exact h.takeSignal hqueue hfrom

lemma ComputeOk.resumed (h : ComputeOk s) (hheld : ∀ q, held q s.worker = if p = q then [t] else [])
    {worker : ComputeWorker ρ τ} (hfree : ∀ q, held q worker = [])
    (hphase : phase worker = phase s.worker) (hsettled : ∀ q, ¬ settled q worker) :
    ComputeOk { s with
      worker := worker
      resumed := Function.update s.resumed p (s.resumed p ++ [t]) } := by
  refine ⟨h.alive, by simpa [hphase] using h.control, fun q => ?_⟩
  have hq := h.thread q
  rw [hheld] at hq
  by_cases hqp : q = p
  · subst hqp
    rw [if_pos rfl] at hq
    simpa [hfree, hphase, hsettled] using hq.resume
  · simpa [hqp, Ne.symm hqp, hfree, hphase, hsettled] using hq.unsettle

lemma ComputeOk.resume (h : ComputeOk s) (hs : s.resume = some s') : ComputeOk s' := by
  unfold ComputeScheduler.resume at hs
  split at hs
  · next hworker =>
    cases hs
    exact h.resumed (by simp [hworker, held]) (fun _ => rfl) (by rw [hworker]; rfl) fun _ => id
  · next hworker =>
    cases hs
    exact h.resumed (by simp [hworker, held]) (fun _ => rfl) (by rw [hworker]; rfl)
      (by simp [settled])
  · cases hs

lemma ComputeOk.lookEmpty (h : ComputeOk s) {seen : Finset ρ} (hworker : s.worker = .draining seen)
    (hqueue : s.queue p = []) :
    ComputeOk { s with worker := .draining (insert p seen) } := by
  have hcontrol := h.control
  rw [hworker] at hcontrol
  refine ⟨h.alive, hcontrol, fun q => ?_⟩
  have hq := h.thread q
  rw [hworker] at hq
  by_cases hqp : q = p
  · subst hqp
    simp only [hqueue, held] at hq ⊢
    simpa [phase, settled] using hq.settle
  · simpa [held, phase, settled, hqp] using hq

lemma ComputeOk.exit (h : ComputeOk s) {seen : Finset ρ} (hworker : s.worker = .draining seen)
    (hall : ∀ p, p ∈ seen) : ComputeOk { s with worker := .exited } := by
  have hcontrol := h.control
  rw [hworker] at hcontrol
  refine ⟨h.alive, hcontrol, fun q => ?_⟩
  simpa [hworker, held, phase, settled, hall] using h.thread q

variable [Fintype ρ]

lemma ComputeOk.step {action : ComputeAction ρ τ} (h : ComputeOk s)
    (hs : s.step action = some s') : ComputeOk s' := by
  cases action with
  | schedule p t =>
    cases hs
    exact h.schedule
  | start =>
    obtain ⟨hidle, ⟨⟩⟩ := Option.ite_none_right_eq_some.mp hs
    exact h.start hidle
  | createThread =>
    obtain ⟨hstarting, ⟨⟩⟩ := Option.ite_none_right_eq_some.mp hs
    exact h.createThread hstarting
  | stop p =>
    obtain ⟨hidle, ⟨⟩⟩ := Option.ite_none_right_eq_some.mp hs
    exact h.stop hidle p
  | signal =>
    simp only [ComputeScheduler.step] at hs
    split at hs
    · next p hsignalling =>
      cases hs
      exact h.signal hsignalling
    · cases hs
  | join =>
    simp only [ComputeScheduler.step] at hs
    split at hs
    · next p hjoining hexited =>
      cases hs
      exact h.join hjoining hexited
    · cases hs
  | dequeue p => exact h.dequeue hs
  | resume => exact h.resume hs
  | lookEmpty p =>
    simp only [ComputeScheduler.step] at hs
    split at hs
    · next seen hworker =>
      obtain ⟨⟨hqueue, -⟩, ⟨⟩⟩ := Option.ite_none_right_eq_some.mp hs
      exact h.lookEmpty hworker hqueue
    · cases hs
  | exit =>
    simp only [ComputeScheduler.step] at hs
    split at hs
    · next seen hworker =>
      obtain ⟨hall, ⟨⟩⟩ := Option.ite_none_right_eq_some.mp hs
      exact h.exit hworker hall
    · cases hs

lemma ComputeOk.of_reaches (h : Reaches ComputeScheduler.step (fun _ _ => True) .init s) :
    ComputeOk s :=
  h.invariant (P := ComputeOk) .init fun _ _ _ hok _ hs => hok.step hs

/-- Whenever the scheduler is started and stopped, the tasks of a thread are resumed in the order in
which it has scheduled them, each once, and the others wait in its queue. -/
theorem compute_resumes_in_order (h : Reaches ComputeScheduler.step (fun _ _ => True) .init s) :
    s.terminated = false ∧
      ∀ p, s.accepted p = s.resumed p ++ held p s.worker ++ tasks (s.queue p) :=
  ⟨(ComputeOk.of_reaches h).alive, fun p => ((ComputeOk.of_reaches h).thread p).conserved⟩

/-- Two threads schedule; one of them stops the scheduler, and the other schedules once more. -/
def scheduleAndStop : List (ComputeAction Bool Nat) :=
  [.start, .createThread, .schedule true 7, .stop false, .schedule false 8, .signal, .dequeue true,
    .resume, .dequeue false, .resume, .dequeue false, .lookEmpty false, .lookEmpty true,
    .schedule true 9, .exit, .join]

def afterScheduleAndStop : ComputeScheduler Bool Nat :=
  (run ComputeScheduler.step .init scheduleAndStop).getD .init

lemma reaches_afterScheduleAndStop :
    Reaches ComputeScheduler.step (fun _ _ => True) .init afterScheduleAndStop :=
  .of_replay scheduleAndStop .start rfl

/-- The last task waits for the next start. -/
theorem compute_resumes_in_order_scheduleAndStop : afterScheduleAndStop.resumed true = [7] ∧
    [7, 9] = [7] ++ held true afterScheduleAndStop.worker ++
      tasks (afterScheduleAndStop.queue true) :=
  ⟨rfl, (compute_resumes_in_order reaches_afterScheduleAndStop).2 true⟩

/-- When `stop` has returned, everything that was scheduled before it was called has been resumed,
and its signal is gone. -/
theorem compute_stop_drains (h : Reaches ComputeScheduler.step (fun _ _ => True) .init s)
    (hidle : s.control = .idle) (hstopped : s.running = false) (p : ρ) :
    (s.accepted p).take (s.promised p) <+: s.resumed p ∧ signalCount (s.queue p) = 0 := by
  have hok := ComputeOk.of_reaches h
  have hcontrol := hok.control
  have hp := hok.thread p
  simp only [hidle, hstopped, ControlOk] at hcontrol
  rw [eq_absent hcontrol.2, hidle] at hp
  refine ⟨?_, hp.signals⟩
  rw [hp.conserved, List.append_assoc, List.take_append_of_le_length (hp.kept trivial)]
  exact List.take_prefix _ _

theorem compute_stop_drains_scheduleAndStop : afterScheduleAndStop.accepted true = [7, 9] ∧
    [7, 9].take 1 <+: afterScheduleAndStop.resumed true :=
  ⟨rfl, (compute_stop_drains reaches_afterScheduleAndStop rfl rfl true).1⟩

section Returns

/-- What happens without any other thread: the steps of the worker, and the end of `stop` -/
def working : ComputeAction ρ τ → Bool
  | .dequeue _ | .resume | .lookEmpty _ | .exit | .join => true
  | _ => false

def load (s : ComputeScheduler ρ τ) : Nat := ∑ p, (s.queue p).length

def inHand : ComputeWorker ρ τ → Nat
  | .holding _ _ | .drainHolding _ _ => 1
  | _ => 0

/-- The steps that are left once the queues are empty -/
def leaving : ComputeWorker ρ τ → Nat
  | .draining seen => Fintype.card ρ - seen.card + 2
  | .exited => 1
  | _ => 0

def rank (s : ComputeScheduler ρ τ) : Nat :=
  (Fintype.card ρ + 3) * (2 * load s + inHand s.worker) + leaving s.worker

omit [DecidableEq ρ] in
lemma leaving_le (worker : ComputeWorker ρ τ) : leaving worker ≤ Fintype.card ρ + 2 := by
  cases worker <;> simp [leaving]

omit [DecidableEq ρ] in
/-- What the worker has in front of it and in its hand counts more than the way out. -/
lemma rank_lt_rank (h : 2 * load s' + inHand s'.worker < 2 * load s + inHand s.worker) :
    rank s' < rank s := by
  have hleaving := leaving_le s'.worker
  have hmul := Nat.mul_le_mul_left (Fintype.card ρ + 3) (Nat.succ_le_of_lt h)
  rw [Nat.mul_succ] at hmul
  unfold rank
  omega

lemma load_update {x : ComputeTask τ} {rest : List (ComputeTask τ)}
    (hqueue : s.queue p = x :: rest) : ∑ q, (Function.update s.queue p rest q).length < load s := by
  refine Finset.sum_lt_sum (fun q _ => ?_) ⟨p, Finset.mem_univ p, by simp [hqueue]⟩
  by_cases hqp : q = p
  · subst hqp
    simp [hqueue]
  · simp [hqp]

lemma dequeue_decreases (hs : s.dequeue p = some s') :
    rank s' < rank s ∧ s'.control = s.control := by
  unfold ComputeScheduler.dequeue at hs
  split at hs
  · cases hs
  · next x rest hqueue =>
    rw [Option.map_eq_some_iff] at hs
    obtain ⟨worker, htaken, rfl⟩ := hs
    refine ⟨rank_lt_rank ?_, rfl⟩
    have hload := load_update hqueue
    have hhand : inHand worker ≤ 1 := by cases worker <;> simp [inHand]
    simp only [load] at hload ⊢
    omega

lemma resume_decreases (hs : s.resume = some s') : rank s' < rank s ∧ s'.control = s.control := by
  unfold ComputeScheduler.resume at hs
  split at hs
  · next hworker =>
    cases hs
    exact ⟨rank_lt_rank (by simp [load, inHand, hworker]), rfl⟩
  · next hworker =>
    cases hs
    exact ⟨rank_lt_rank (by simp [load, inHand, hworker]), rfl⟩
  · cases hs

lemma leaving_insert {seen : Finset ρ} (hp : p ∉ seen) :
    leaving (.draining (insert p seen) : ComputeWorker ρ τ) <
      leaving (.draining seen : ComputeWorker ρ τ) := by
  have hlt := Finset.card_lt_univ_of_notMem hp
  simp only [leaving, Finset.card_insert_of_notMem hp]
  omega

/-- Such a step brings the end nearer, and only `join` ends a stop. -/
lemma working_decreases {action : ComputeAction ρ τ}
    (hs : guarded (fun _ => working) ComputeScheduler.step s action = some s') :
    rank s' < rank s ∧ (s'.control = s.control ∨ s'.control = .idle) := by
  simp only [guarded, Option.ite_none_right_eq_some] at hs
  obtain ⟨hworking, hs⟩ := hs
  cases action with
  | dequeue p => exact (dequeue_decreases hs).imp_right .inl
  | resume => exact (resume_decreases hs).imp_right .inl
  | exit =>
    simp only [ComputeScheduler.step] at hs
    split at hs
    · next seen hworker =>
      obtain ⟨-, ⟨⟩⟩ := Option.ite_none_right_eq_some.mp hs
      refine ⟨?_, .inl rfl⟩
      simp only [rank, load, hworker, inHand, leaving]
      omega
    · cases hs
  | join =>
    simp only [ComputeScheduler.step] at hs
    split at hs
    · next hworker =>
      cases hs
      exact ⟨by simp [rank, load, hworker, inHand, leaving], .inr rfl⟩
    · cases hs
  | lookEmpty p =>
    simp only [ComputeScheduler.step] at hs
    split at hs
    · next seen hworker =>
      obtain ⟨⟨-, hp⟩, ⟨⟩⟩ := Option.ite_none_right_eq_some.mp hs
      have hlt := leaving_insert (τ := τ) hp
      refine ⟨?_, .inl rfl⟩
      simp only [rank, load, hworker, inHand]
      omega
    · cases hs
  | _ => cases hworking

lemma ComputeOk.exists_working (h : ComputeOk s) {p : ρ} (hjoining : s.control = .joining p) :
    ∃ action : ComputeAction ρ τ, working action = true ∧ s.step action ≠ none := by
  have hcontrol := h.control
  simp only [hjoining, ControlOk] at hcontrol
  cases hworker : s.worker with
  | absent => simp [hworker, phase] at hcontrol
  | waiting =>
    refine ⟨.dequeue p, rfl, ?_⟩
    have hsignal := (h.thread p).signals
    simp only [hjoining, hworker, signalsDue, phase, and_self, if_true] at hsignal
    cases hqueue : s.queue p with
    | nil => simp [hqueue, signalCount] at hsignal
    | cons x rest =>
      cases x <;> simp [ComputeScheduler.step, ComputeScheduler.dequeue, hqueue,
        ComputeScheduler.taken, hworker]
  | holding q t | drainHolding q t =>
    exact ⟨.resume, rfl, by simp [ComputeScheduler.step, ComputeScheduler.resume, hworker]⟩
  | exited => exact ⟨.join, rfl, by simp [ComputeScheduler.step, hjoining, hworker]⟩
  | draining seen =>
    by_cases hall : ∀ q, q ∈ seen
    · exact ⟨.exit, rfl, by simp [ComputeScheduler.step, hworker, hall]⟩
    · push Not at hall
      obtain ⟨q, hq⟩ := hall
      cases hqueue : s.queue q with
      | nil =>
        exact ⟨.lookEmpty q, rfl, by simp [ComputeScheduler.step, hworker, hqueue, hq]⟩
      | cons x rest =>
        refine ⟨.dequeue q, rfl, ?_⟩
        cases x <;> simp [ComputeScheduler.step, ComputeScheduler.dequeue, hqueue,
          ComputeScheduler.taken, hworker]

/-- Once the signal is in the queue and no more tasks come, `stop` returns: the worker and `stop`
have a bounded number of steps to make, and one of them can be made until it has returned. -/
theorem compute_stop_returns (h : Reaches ComputeScheduler.step (fun _ _ => True) .init s) {p : ρ}
    (hjoining : s.control = .joining p) {as : List (ComputeAction ρ τ)}
    (hrun : run (guarded (fun _ => working) ComputeScheduler.step) s as = some s') :
    as.length ≤ (Fintype.card ρ + 3) * (2 * load s + 2) ∧
      ((∀ action, working action = true → s'.step action = none) → s'.control = .idle) := by
  obtain ⟨⟨hok, hcontrol⟩, hlength⟩ := run_length_le
    (P := fun s => ComputeOk s ∧ (s.control = .joining p ∨ s.control = .idle)) (μ := rank)
    (fun s a t hP ht => by
      have hstep : s.step a = some t := (Option.ite_none_right_eq_some.mp ht).2
      obtain ⟨hrank, hsame | hidle⟩ := working_decreases ht
      · exact ⟨⟨hP.1.step hstep, hsame ▸ hP.2⟩, hrank⟩
      · exact ⟨⟨hP.1.step hstep, .inr hidle⟩, hrank⟩) ⟨ComputeOk.of_reaches h, .inl hjoining⟩ hrun
  refine ⟨?_, fun hstuck => ?_⟩
  · have hleaving := leaving_le s.worker
    have hhand : inHand s.worker ≤ 1 := by cases s.worker <;> simp [inHand]
    have hmul := Nat.mul_le_mul_left (Fintype.card ρ + 3)
      (show 2 * load s + inHand s.worker + 1 ≤ 2 * load s + 2 by omega)
    rw [Nat.mul_succ] at hmul
    unfold rank at hlength
    omega
  · obtain hjoining' | hidle := hcontrol
    · obtain ⟨action, hworking, hstep⟩ := hok.exists_working hjoining'
      exact absurd (hstuck action hworking) hstep
    · exact hidle

/-- Both threads have scheduled a task when `stop` is called. -/
def stopQueued : List (ComputeAction Bool Nat) :=
  [.start, .createThread, .schedule false 5, .schedule true 7, .stop true, .signal]

/-- The signal is taken before the task of the other thread, which the second loop resumes. -/
def leaveQueued : List (ComputeAction Bool Nat) :=
  [.dequeue true, .resume, .dequeue true, .dequeue false, .resume, .lookEmpty false,
    .lookEmpty true, .exit, .join]

theorem compute_stop_returns_queued : ∃ s s',
    run ComputeScheduler.step .init stopQueued = some s ∧
    run (guarded (fun _ => working) ComputeScheduler.step) s leaveQueued = some s' ∧
    s'.control = .idle ∧ s'.resumed false = [5] ∧ s'.resumed true = [7] ∧
    leaveQueued.length ≤ (Fintype.card Bool + 3) * (2 * load s + 2) := by
  have hrun : ∃ s s', run ComputeScheduler.step .init stopQueued = some s ∧
      s.control = .joining true ∧
      run (guarded (fun _ => working) ComputeScheduler.step) s leaveQueued = some s' ∧
      s'.control = .idle ∧ s'.resumed false = [5] ∧ s'.resumed true = [7] :=
    ⟨_, _, rfl, rfl, rfl, rfl, rfl, rfl⟩
  obtain ⟨s, s', hs, hjoining, hs', hidle, hfalse, htrue⟩ := hrun
  exact ⟨s, s', hs, hs', hidle, hfalse, htrue,
    (compute_stop_returns (.of_replay _ .start hs) hjoining hs').1⟩

end Returns

end ComputeScheduler

end GalayKernel.Proofs
