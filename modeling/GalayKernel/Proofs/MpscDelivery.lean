import GalayKernel.Proofs.MpscMoves
import Mathlib.Algebra.BigOperators.Group.Finset.Piecewise

/-!
# Delivery through the multi-producer single-consumer channel

A value goes from its producer through the queue, perhaps through the prefetch cache, into the
hand of a receive and to the consumer. `MpscLoad` keeps of the system only the places that hold
values and the counters, and `LoadMove` the few things that a step can do to them.

For each producer these places together always hold what it has sent, in order; and `m_size`
counts, modulo `2 ^ 32`, the values that are in the channel, that a send has announced, or that a
receive has taken and not yet subtracted.
-/

namespace GalayKernel

variable {ι α β : Type}

/-- The value that the current receive has found before it could be resumed. -/
def MpscConsumer.ready : MpscConsumer β → List β
  | .receiving r _ => r.ready
  | _ => []

def MpscProducer.owed : MpscProducer α → Nat
  | .enqueue values _ => values.length
  | .undo count => count
  | _ => 0

/-- The parts of the system that hold values or count them. -/
structure MpscLoad (ι α : Type) where
  owed : ι → Nat
  size : Nat
  prefetch : List (ι × α)
  queue : List (ι × α)
  point : RecvPoint (ι × α)
  got : List (ι × α)
  sent : ι → List α

def Mpsc.load (s : Mpsc ι α) : MpscLoad ι α where
  owed := fun p => (s.producers p).owed
  size := s.channel.size
  prefetch := s.channel.prefetch
  queue := s.channel.queue
  point := s.consumer.point
  got := s.received ++ s.consumer.ready
  sent := s.sent

/-- Everything that has left the producers, in the order in which the consumer gets it. -/
def MpscLoad.flow (l : MpscLoad ι α) : List (ι × α) :=
  l.got ++ (l.point.values ++ (l.prefetch ++ l.queue))

/-- The values that `m_size` has to count. -/
def MpscLoad.undelivered [Fintype ι] (l : MpscLoad ι α) : Nat :=
  ∑ p, l.owed p + (l.point.owed + (l.prefetch ++ l.queue).length)

def Mpsc.undelivered [Fintype ι] (s : Mpsc ι α) : Nat := s.load.undelivered

def MpscAction.announced : MpscAction ι α → Nat
  | .send _ values => values.length
  | _ => 0

end GalayKernel

namespace GalayKernel.Proofs
open Mpsc PerKey Transition

variable {ι α : Type} [DecidableEq ι] {s s' : Mpsc ι α} {a : MpscAction ι α}
  {r : MpscReceive (ι × α)} {l l' : MpscLoad ι α} {n : Nat}

/-- A step that announces `n` values. -/
inductive LoadMove (l : MpscLoad ι α) : Nat → MpscLoad ι α → Prop
  | quiet : LoadMove l 0 l
  | announce {n p} (hp : l.owed p = 0) :
      LoadMove l n
        { l with owed := Function.update l.owed p n, size := (l.size + n) % 2 ^ 32 }
  | enqueue {p values} (hp : l.owed p = values.length) :
      LoadMove l 0
        { l with
          owed := Function.update l.owed p 0
          queue := l.queue ++ values.map (p, ·)
          sent := Function.update l.sent p (l.sent p ++ values) }
  | undo {p} :
      LoadMove l 0
        { l with
          owed := Function.update l.owed p 0
          size := (l.size + (2 ^ 32 - l.owed p % 2 ^ 32)) % 2 ^ 32 }
  | call {progress} {c c' : MpscChannel ι α} (hsize : c.size = l.size)
      (hprefetch : c.prefetch = l.prefetch) (hqueue : c.queue = l.queue)
      (hspec : RecvSpec c l.point c' progress) :
      LoadMove l 0
        { l with
          size := c'.size
          prefetch := c'.prefetch
          queue := c'.queue
          point := progress.point
          got := l.got ++ progress.result }

lemma LoadMove.of_eq (h : l' = l) : LoadMove l 0 l' := h ▸ .quiet

lemma load_setProducer (s : Mpsc ι α) (p : ι) (point : MpscProducer α) :
    (s.setProducer p point).load =
      { s.load with owed := Function.update s.load.owed p point.owed } :=
  congrArg (fun owed => { s.load with owed := owed })
    (Function.comp_update MpscProducer.owed s.producers p point)

lemma load_setProducer_same {p : ι} {point : MpscProducer α}
    (hp : point.owed = (s.producers p).owed) : (s.setProducer p point).load = s.load := by
  rw [load_setProducer, hp]
  exact congrArg (fun owed => { s.load with owed := owed }) (Function.update_eq_self p s.load.owed)

lemma loadMove_call {c : MpscChannel ι α} {point : RecvPoint (ι × α)}
    {progress : RecvProgress (ι × α)} (hspec : RecvSpec s.channel point c progress)
    (hpoint : s.consumer.point = point) (hproducers : s'.producers = s.producers)
    (hsent : s'.sent = s.sent) (hchannel : s'.channel = c)
    (hpoint' : s'.consumer.point = progress.point)
    (hgot : s'.received ++ s'.consumer.ready = s.received ++ s.consumer.ready ++ progress.result) :
    LoadMove s.load 0 s'.load := by
  subst hpoint
  have hmove := LoadMove.call (l := s.load) rfl rfl rfl hspec
  simpa only [load, hproducers, hsent, hchannel, hpoint', hgot] using hmove

theorem loadMove_of_move (hpos : PositionOk s) (hm : MpscMove s a s') :
    LoadMove s.load a.announced s'.load := by
  cases hm with
  | sendNothing => exact .quiet
  | @send p values hp _ =>
    change LoadMove s.load values.length
      { (s.setProducer p _).load with size := (s.channel.size + values.length) % 2 ^ 32 }
    rw [load_setProducer]
    exact .announce (by simp [load, hp, MpscProducer.owed])
  | @enqueue p values prevSize hp =>
    have howed : (if prevSize = 0 then .consumeWake else .hasWaiter : MpscProducer α).owed = 0 := by
      split <;> rfl
    change LoadMove s.load 0
      { (s.setProducer p _).load with
        queue := s.channel.queue ++ values.map (p, ·)
        sent := Function.update s.sent p (s.sent p ++ values) }
    rw [load_setProducer, howed]
    exact .enqueue (by simp [load, hp, MpscProducer.owed])
  | @undo p count accepted hp =>
    have howed : s.load.owed p = count := by simp [load, hp, MpscProducer.owed]
    change LoadMove s.load 0
      { (s.setProducer p _).load with
        size := (s.channel.size + (2 ^ 32 - count % 2 ^ 32)) % 2 ^ 32 }
    rw [load_setProducer, ← howed]
    exact .undo
  | reject hp | seesWaiter hp | seesNone hp | consumeWake hp | consumeNone hp | wakeUp hp =>
    exact .of_eq (load_setProducer_same (hp ▸ rfl))
  | callGoesOn hc _ hspec | callReturns hc _ hspec | tryGoesOn hc _ hspec | notReady hc _ hspec
  | stillEmpty hc _ hspec =>
    refine loadMove_call hspec (by rw [hc]; rfl) rfl rfl rfl rfl ?_
    simp [hc, MpscConsumer.ready]
  | @foundEarly r _ _ _ _ _ hplace hvalues hc _ hspec =>
    have hready : r.ready = [] := by
      rcases hplace with rfl | rfl <;> exact (hpos.stage _ _ hc).2.1
    refine loadMove_call hspec (by rw [hc]; rfl) rfl rfl rfl rfl ?_
    simp [hc, MpscConsumer.ready, hready, finish]
  | recheckFound hvalues hc _ hspec =>
    refine loadMove_call hspec (by rw [hc]; rfl) rfl rfl rfl rfl ?_
    simp [hc, MpscConsumer.ready, (hpos.stage _ _ hc).2.1]
  | @recheckEmpty r _ _ _ hc _ hspec =>
    refine loadMove_call hspec (by rw [hc]; rfl) rfl rfl rfl (suspends_point s r) ?_
    simp [hc, MpscConsumer.ready, suspends]
  | tryReturns hc _ hspec =>
    refine loadMove_call hspec (by rw [hc]; rfl) rfl rfl rfl rfl ?_
    simp [hc, MpscConsumer.ready, (hpos.stage _ _ hc).2.1, finish]
  | @tooLate r _ hc _ =>
    refine .of_eq ?_
    simp only [load, suspends_point, hc]
    rfl
  | clearAndReturn hc =>
    refine .of_eq ?_
    simp [load, hc, MpscConsumer.point, MpscConsumer.ready, finish, setWaiter]
  | tryRecv hc | awaitElsewhere hc | recv hc | publish hc | withdraw hc | addTimer hc | timedOut hc
  | inTime hc | cancel hc | clearAndTry hc | resumeTimed hc | resumeUntimed hc
  | resumeElsewhere hc =>
    refine .of_eq ?_
    simp only [load, hc, MpscConsumer.point, MpscConsumer.ready, setWaiter]
  | wakeElsewhere | direct | schedule | pop | expire | handle => exact .quiet

structure LoadOk [Fintype ι] (l : MpscLoad ι α) : Prop where
  order : ∀ p, (l.flow.filter (fun x => x.1 = p)).map Prod.snd = l.sent p
  size : l.size = l.undelivered % 2 ^ 32

lemma sum_update [Fintype ι] (f : ι → Nat) (p : ι) (n : Nat) :
    ∑ q, Function.update f p n q + f p = ∑ q, f q + n := by
  rw [Finset.sum_update_of_mem (Finset.mem_univ p),
    Finset.sum_eq_add_sum_sdiff_singleton_of_mem (Finset.mem_univ p) f]
  omega

lemma filter_enqueued (p q : ι) (values : List α) :
    ((values.map (p, ·)).filter (fun x => x.1 = q)).map Prod.snd =
      if p = q then values else [] := by
  by_cases hq : p = q <;> simp [hq, List.filter_map, Function.comp_def]

theorem LoadOk.move [Fintype ι] (h : LoadOk l) (hm : LoadMove l n l') :
    LoadOk l' ∧ l'.undelivered ≤ l.undelivered + n := by
  have hsize := h.size
  cases hm with
  | quiet => exact ⟨h, Nat.le_refl _⟩
  | @announce _ p hp =>
    have hsum := sum_update l.owed p n
    refine ⟨⟨h.order, ?_⟩, ?_⟩
    · simp only [MpscLoad.undelivered] at hsize ⊢
      omega
    · simp only [MpscLoad.undelivered]
      omega
  | @enqueue p values hp =>
    have hsum := sum_update l.owed p 0
    have hlen : (values.map (p, ·)).length = values.length := List.length_map _
    refine ⟨⟨fun q => ?_, ?_⟩, ?_⟩
    · have hq := h.order q
      simp only [MpscLoad.flow, ← List.append_assoc] at hq ⊢
      rw [List.filter_append, List.map_append, hq, filter_enqueued]
      by_cases hpq : p = q
      · subst hpq
        simp
      · simp [hpq, Function.update_of_ne (Ne.symm hpq)]
    · simp only [MpscLoad.undelivered, List.length_append, hlen] at hsize ⊢
      omega
    · simp only [MpscLoad.undelivered, List.length_append, hlen]
      omega
  | @undo p =>
    have hsum := sum_update l.owed p 0
    refine ⟨⟨h.order, ?_⟩, ?_⟩
    · simp only [MpscLoad.undelivered] at hsize ⊢
      omega
    · simp only [MpscLoad.undelivered]
      omega
  | @call progress c c' hcsize hprefetch hqueue hspec =>
    have hstored : c.stored = l.prefetch ++ l.queue := by rw [MpscChannel.stored, hprefetch, hqueue]
    refine ⟨⟨fun p => ?_, ?_⟩, ?_⟩
    · have hsame := (hspec.order.append_left l.got) p
      rw [hstored] at hsame
      rw [← h.order p, MpscLoad.flow.eq_1 l, ← hsame]
      simp [MpscLoad.flow, MpscChannel.stored]
    · refine hspec.size (∑ p, l.owed p) ?_
      rw [hcsize, hsize, hstored, MpscLoad.undelivered]
    · have howed := hspec.owed
      rw [hstored] at howed
      exact Nat.add_le_add_left howed _

lemma loadOk_init [Fintype ι] (prefetchLimit : Nat) :
    LoadOk (Mpsc.init prefetchLimit : Mpsc ι α).load := by
  refine ⟨fun p => rfl, ?_⟩
  simp [MpscLoad.undelivered, load, Mpsc.init, MpscChannel.init, MpscProducer.owed,
    MpscConsumer.point]

theorem loadOk_of_reaches [Fintype ι] {ok : Mpsc ι α → MpscAction ι α → Prop} {prefetchLimit : Nat}
    (h : Reaches Mpsc.step ok (Mpsc.init prefetchLimit) s) : LoadOk s.load := by
  refine (mpsc_invariant (P := fun s => LoadOk s.load) (loadOk_init prefetchLimit) ?_ h).2
  intro s a s' hpos hload _ hm
  exact (hload.move (loadMove_of_move hpos hm)).1

/-- Values reach the consumer at most once, only if they were sent, and in the order of their
producer; and between the operations `size()` counts the values that are still to be received. -/
theorem mpsc_delivers_in_order [Fintype ι] (prefetchLimit : Nat)
    (h : Reaches Mpsc.step (fun _ _ => True) (Mpsc.init prefetchLimit) s) :
    (∀ p, (s.received.filter (fun x => x.1 = p)).map Prod.snd <+: s.sent p) ∧
    ((∀ p, s.producers p = .idle) → (s.consumer = .running ∨ s.consumer = .elsewhere) →
      ∑ p, (s.sent p).length < s.received.length + 2 ^ 32 →
      s.channel.size + s.received.length = ∑ p, (s.sent p).length) := by
  have hload := loadOk_of_reaches h
  refine ⟨fun p => ?_, fun hproducers hconsumer hbound => ?_⟩
  · have hsent : (s.load.flow.filter (fun x => x.1 = p)).map Prod.snd = s.sent p := hload.order p
    rw [← hsent, MpscLoad.flow, load, List.append_assoc, List.filter_append, List.map_append]
    exact List.prefix_append _ _
  · have hpoint : s.consumer.point = .start ∧ s.consumer.ready = [] := by
      rcases hconsumer with hc | hc <;> simp [hc, MpscConsumer.point, MpscConsumer.ready]
    have hflow : s.load.flow.length = ∑ p, (s.sent p).length := by
      rw [← sum_length_filter Prod.fst]
      refine Finset.sum_congr rfl (fun p _ => ?_)
      rw [← List.length_map (f := Prod.snd)]
      exact congrArg List.length (hload.order p)
    have hsize : s.channel.size = s.load.undelivered % 2 ^ 32 := hload.size
    simp only [MpscLoad.flow, MpscLoad.undelivered, load, hpoint, hproducers, MpscProducer.owed,
      RecvPoint.values, RecvPoint.owed, List.append_nil, List.nil_append, List.length_append,
      Finset.sum_const_zero] at hflow hsize
    omega

/-- Two producers send; one value goes through the prefetch cache. -/
def prefetched : List (MpscAction Bool Nat) :=
  [.send true [1], .produce true true, .produce true true, .send false [2, 3], .produce false true,
    .produce false true, .tryRecv .single, .advance [], .advance [false], .advance [true],
    .advance [], .recv (.batch 1) false, .advance [], .advance [], .advance []]

theorem prefetched_in_order : ∃ s, run Mpsc.step (Mpsc.init 1) prefetched = some s ∧
    s.received = [(false, 2), (true, 1)] ∧
    (s.received.filter (fun x => x.1 = false)).map Prod.snd <+: [2, 3] ∧
    s.channel.size + s.received.length = 3 := by
  refine ⟨_, rfl, rfl, ?_⟩
  have h := @mpsc_delivers_in_order Bool Nat _ _ _ 1 (Reaches.start.of_replay prefetched rfl)
  exact ⟨h.1 false, h.2 (by decide) (.inl rfl) (by decide)⟩

end GalayKernel.Proofs
