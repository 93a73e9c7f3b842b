import GalayKernel.Lib.PerKey
import GalayKernel.Lib.Transition
import GalayKernel.MpscChannel
import GalayKernel.Proofs.TaskWake

namespace GalayKernel

variable {ι α β : Type}

@[simp]
def RecvPoint.values : RecvPoint β → List β
  | .start | .dequeue => []
  | .prefetch v | .sub v => [v]
  | .drain values | .bulkSub values _ => values

@[simp]
def RecvPoint.owed : RecvPoint β → Nat
  | .prefetch _ | .sub _ => 1
  | .bulkSub _ count => count
  | _ => 0

/-- Where the consumer stands after the step; outside of a call it stands before the next one. -/
@[simp]
def RecvProgress.point : RecvProgress β → RecvPoint β
  | .goOn point => point
  | .returns _ => .start

@[simp]
def RecvProgress.result : RecvProgress β → List β
  | .goOn _ => []
  | .returns values => values

@[simp]
def RecvProgress.values (progress : RecvProgress β) : List β :=
  progress.result ++ progress.point.values

@[simp]
def RecvProgress.owed (progress : RecvProgress β) : Nat := progress.point.owed

/-- Where the current call of the consumer stands; outside of a call, before the next one. -/
def MpscConsumer.point : MpscConsumer β → RecvPoint β
  | .calling _ point => point
  | .receiving _ (.trying _ point) => point
  | _ => .start

def MpscChannel.stored (c : MpscChannel ι α) : List (ι × α) := c.prefetch ++ c.queue

end GalayKernel

namespace GalayKernel.Proofs
open MpscChannel PerKey

variable {ι α : Type} {c c' : MpscChannel ι α} {point : RecvPoint (ι × α)}
  {progress : RecvProgress (ι × α)}

/-- `tryRecv` asks the queue only when the prefetch cache is empty, and `tryRecvBatch` counts only
what it has taken. -/
def PointOk (prefetch : List (ι × α)) : RecvPoint (ι × α) → Prop
  | .dequeue | .prefetch _ => prefetch = []
  | .bulkSub values _ => values ≠ []
  | _ => True

lemma fetchSub_size {m n : Nat} (h : c.size = (m + n) % 2 ^ 32) :
    (c.fetchSub n).size = m % 2 ^ 32 := by
  simp only [fetchSub, h]
  omega

variable [DecidableEq ι]

/-- The values that the call has and those that the channel holds stay together, and `m_size`
keeps counting those that it counts. -/
structure RecvSpec (c : MpscChannel ι α) (point : RecvPoint (ι × α)) (c' : MpscChannel ι α)
    (progress : RecvProgress (ι × α)) : Prop where
  waiter : c'.waiter = c.waiter
  order : Same Prod.fst (progress.values ++ c'.stored) (point.values ++ c.stored)
  size : ∀ rest, c.size = (rest + (point.owed + c.stored.length)) % 2 ^ 32 →
    c'.size = (rest + (progress.owed + c'.stored.length)) % 2 ^ 32
  owed : progress.owed + c'.stored.length ≤ point.owed + c.stored.length
  point : PointOk c'.prefetch progress.point

lemma RecvSpec.quiet (hwaiter : c'.waiter = c.waiter) (hsize : c'.size = c.size)
    (horder : Same Prod.fst (progress.values ++ c'.stored) (point.values ++ c.stored))
    (howed : progress.owed + c'.stored.length = point.owed + c.stored.length)
    (hpoint : PointOk c'.prefetch progress.point) :
    RecvSpec c point c' progress := by
  refine ⟨hwaiter, horder, fun rest h => ?_, Nat.le_of_eq howed, hpoint⟩
  rw [hsize, howed, h]

lemma RecvSpec.sub {d : MpscChannel ι α} (n : Nat) (hwaiter : d.waiter = c.waiter)
    (hsize : d.size = c.size)
    (horder : Same Prod.fst (progress.values ++ d.stored) (point.values ++ c.stored))
    (howed : progress.owed + d.stored.length + n = point.owed + c.stored.length)
    (hpoint : PointOk d.prefetch progress.point) :
    RecvSpec c point (d.fetchSub n) progress := by
  refine ⟨hwaiter, horder, fun rest h => fetchSub_size ?_, ?_, hpoint⟩
  · rw [hsize, h, ← howed]
    congr 1
    exact (Nat.add_assoc _ _ _).symm
  · exact Nat.le_of_add_right_le (Nat.le_of_eq howed)

lemma tryDequeue_spec {p : ι} {v : ι × α} (h : c.tryDequeue p = some (v, c')) :
    ∃ queue, c' = { c with queue := queue } ∧ Same Prod.fst (v :: queue) c.queue := by
  simp only [tryDequeue, Option.map_eq_some_iff, Prod.mk.injEq] at h
  obtain ⟨v, hv, rfl, rfl⟩ := h
  exact ⟨_, rfl, same_cons_eraseP hv⟩

lemma dequeueAll_spec {picks : List ι} {values : List (ι × α)}
    (h : c.dequeueAll picks = some (values, c')) :
    ∃ queue, c' = { c with queue := queue } ∧ Same Prod.fst (values ++ queue) c.queue ∧
      values.length = picks.length := by
  induction picks generalizing c values with
  | nil =>
    cases h
    exact ⟨_, rfl, Same.refl _, rfl⟩
  | cons p picks ih =>
    simp only [dequeueAll, Option.bind_eq_some_iff, Option.map_eq_some_iff, Prod.mk.injEq] at h
    obtain ⟨⟨v, d⟩, hv, ⟨vs, d'⟩, hvs, rfl, rfl⟩ := h
    obtain ⟨queue, rfl, hsame⟩ := tryDequeue_spec hv
    obtain ⟨queue', rfl, hsame', hlen⟩ := ih hvs
    exact ⟨queue', rfl, (hsame'.append_left [v]).trans hsame, by simp [hlen]⟩

lemma tryDequeueBulk_spec {picks : List ι} {max : Nat} {values : List (ι × α)}
    (h : c.tryDequeueBulk picks max = some (values, c')) :
    ∃ queue, c' = { c with queue := queue } ∧ Same Prod.fst (values ++ queue) c.queue ∧
      (values = [] → c.queue = []) := by
  simp only [tryDequeueBulk, Option.ite_none_right_eq_some] at h
  obtain ⟨⟨-, hempty⟩, h⟩ := h
  obtain ⟨queue, hc, hsame, hlen⟩ := dequeueAll_spec h
  refine ⟨queue, hc, hsame, fun hvalues => ?_⟩
  rw [hvalues, List.length_nil, eq_comm, List.length_eq_zero_iff] at hlen
  simpa [hlen] using hempty

lemma tryRecv_spec {picks : List ι} (hok : PointOk c.prefetch point)
    (h : c.tryRecv picks point = some (c', progress)) : RecvSpec c point c' progress := by
  unfold tryRecv at h
  split at h
  case h_1 =>
    split at h
    case h_1 v rest hprefetch =>
      simp only [Option.some.injEq, Prod.mk.injEq] at h
      obtain ⟨rfl, rfl⟩ := h
      refine .sub 1 rfl rfl ?_ ?_ trivial
      · simpa [stored, hprefetch] using Same.refl _
      · simp [stored, hprefetch]
    case h_2 hprefetch =>
      cases h
      by_cases hzero : c.size = 0
      · rw [if_pos hzero]
        exact .quiet rfl rfl (Same.refl _) rfl trivial
      · rw [if_neg hzero]
        exact .quiet rfl rfl (Same.refl _) rfl hprefetch
  case h_2 =>
    split at h
    case h_1 =>
      simp only [Option.ite_none_right_eq_some] at h
      cases h.2
      exact .quiet rfl rfl (Same.refl _) rfl trivial
    case h_2 p _ =>
      simp only [Option.map_eq_some_iff, Prod.mk.injEq] at h
      obtain ⟨⟨v, d⟩, hv, rfl, rfl⟩ := h
      obtain ⟨queue, rfl, hsame⟩ := tryDequeue_spec hv
      have hprefetch : c.prefetch = [] := hok
      have hlen : 1 + queue.length = c.queue.length := by
        simpa [Nat.add_comm] using hsame.perm.length_eq
      split
      · refine .quiet rfl rfl ?_ ?_ trivial
        · simpa [stored, hprefetch] using hsame
        · simpa [stored, hprefetch] using hlen
      · refine .quiet rfl rfl ?_ ?_ hprefetch
        · simpa [stored, hprefetch] using hsame
        · simpa [stored, hprefetch] using hlen
  case h_3 v =>
    simp only [Option.map_eq_some_iff, Prod.mk.injEq] at h
    obtain ⟨⟨vs, d⟩, hvs, rfl, rfl⟩ := h
    obtain ⟨queue, rfl, hsame, -⟩ := tryDequeueBulk_spec hvs
    have hprefetch : c.prefetch = [] := hok
    refine .quiet rfl rfl ?_ ?_ trivial
    · simpa [stored, hprefetch] using hsame.append_left [v]
    · simpa [stored, hprefetch] using hsame.perm.length_eq
  case h_4 v =>
    simp only [Option.some.injEq, Prod.mk.injEq] at h
    obtain ⟨rfl, rfl⟩ := h
    refine .sub 1 rfl rfl (Same.refl _) ?_ trivial
    simp [Nat.add_comm]
  case h_5 => cases h

lemma tryRecvBatch_spec {maxCount : Nat} {picks : List ι} (hok : PointOk c.prefetch point)
    (h : c.tryRecvBatch maxCount picks point = some (c', progress)) :
    RecvSpec c point c' progress := by
  unfold tryRecvBatch at h
  split at h
  case h_1 =>
    cases h
    split <;> exact .quiet rfl rfl (Same.refl _) rfl trivial
  case h_2 values =>
    split at h
    · split at h
      case h_1 v rest hprefetch =>
        simp only [Option.some.injEq, Prod.mk.injEq] at h
        obtain ⟨rfl, rfl⟩ := h
        refine .sub 1 rfl rfl ?_ ?_ trivial
        · simpa [stored, hprefetch] using Same.refl _
        · simp [stored, hprefetch]
      case h_2 hprefetch =>
        simp only [Option.map_eq_some_iff, Prod.mk.injEq] at h
        obtain ⟨⟨vs, d⟩, hvs, rfl, rfl⟩ := h
        obtain ⟨queue, rfl, hsame, -⟩ := tryDequeueBulk_spec hvs
        have hlen := hsame.perm.length_eq
        have horder := hsame.append_left values
        rcases vs with _ | ⟨v, vs⟩
        · refine .quiet rfl rfl ?_ ?_ trivial
          · simpa [stored, hprefetch] using horder
          · simpa [stored, hprefetch] using hlen
        · refine .quiet rfl rfl ?_ ?_ ?_
          · simpa [stored, hprefetch] using horder
          · simpa [stored, hprefetch, Nat.add_right_comm] using hlen
          · simp [PointOk]
    · cases h
      refine .quiet rfl rfl ?_ rfl trivial
      simpa using Same.refl _
  case h_3 values count =>
    simp only [Option.some.injEq, Prod.mk.injEq] at h
    obtain ⟨rfl, rfl⟩ := h
    refine .sub count rfl rfl ?_ ?_ trivial
    · simpa using Same.refl _
    · simp [Nat.add_comm]
  case h_4 => cases h

/-- One step of either call. -/
theorem recvStep_spec {request : RecvRequest} {picks : List ι} (hok : PointOk c.prefetch point)
    (h : c.recvStep picks point request = some (c', progress)) : RecvSpec c point c' progress := by
  cases request with
  | single => exact tryRecv_spec hok h
  | batch maxCount => exact tryRecvBatch_spec hok h

/-- A call that comes back with nothing has found the channel empty. -/
theorem recvStep_nil {request : RecvRequest} {picks : List ι} (hrequest : request ≠ .batch 0)
    (hok : PointOk c.prefetch point) (hzero : c.size = 0 → c.stored = [])
    (h : c.recvStep picks point request = some (c', .returns [])) : c'.stored = [] := by
  cases request with
  | single =>
    simp only [recvStep, tryRecv] at h
    split at h
    case h_1 =>
      split at h
      case h_1 => simp at h
      case h_2 hprefetch =>
        by_cases hsize : c.size = 0
        · simp only [hsize, if_true] at h
          cases h
          exact hzero hsize
        · simp [hsize] at h
    case h_2 =>
      have hprefetch : c.prefetch = [] := hok
      split at h
      case h_1 =>
        simp only [Option.ite_none_right_eq_some] at h
        obtain ⟨hqueue, h⟩ := h
        cases h
        simpa [stored, hprefetch] using hqueue
      case h_2 => simp at h
    case h_3 => simp at h
    case h_4 => simp at h
    case h_5 => cases h
  | batch maxCount =>
    have hpos : 0 < maxCount := Nat.pos_of_ne_zero (fun hmax => hrequest (hmax ▸ rfl))
    simp only [recvStep, tryRecvBatch] at h
    split at h
    case h_1 =>
      by_cases hsize : c.size = 0
      · simp only [hsize, if_true] at h
        cases h
        exact hzero hsize
      · simp [hsize] at h
    case h_2 values =>
      split at h
      · split at h
        case h_1 => simp at h
        case h_2 hprefetch =>
          simp only [Option.map_eq_some_iff, Prod.mk.injEq] at h
          obtain ⟨⟨vs, d⟩, hvs, rfl, h⟩ := h
          obtain ⟨queue, rfl, hsame, hqueue⟩ := tryDequeueBulk_spec hvs
          rcases vs with _ | ⟨v, vs⟩
          · have hlen := hsame.perm.length_eq
            rw [hqueue rfl, List.nil_append, List.length_nil, List.length_eq_zero_iff] at hlen
            simp [stored, hprefetch, hlen]
          · simp at h
      · simp only [Option.some.injEq, Prod.mk.injEq, RecvProgress.returns.injEq] at h
        obtain ⟨-, rfl⟩ := h
        exact absurd hpos ‹_›
    case h_3 values count =>
      simp only [Option.some.injEq, Prod.mk.injEq, RecvProgress.returns.injEq] at h
      exact absurd h.2 hok
    case h_4 => cases h

/-- The fields of the awaitable at each stage of the receive. -/
def StageOk (r : MpscReceive (ι × α)) : RecvStage (ι × α) → Prop
  | .trying .ready _ | .trying .suspend _ | .publish =>
    r.registered = false ∧ r.ready = [] ∧ r.suspended = false
  | .trying .recheck _ => r.registered = true ∧ r.ready = [] ∧ r.suspended = false
  | .withdraw => r.registered = true ∧ r.ready ≠ [] ∧ r.suspended = false
  | .addTimer => r.registered = true ∧ r.suspended = true ∧ r.timed = true
  | .suspended timer => r.registered = true ∧ r.suspended = true ∧ timer.isSome = r.timed
  | .checkTimeout _ | .cancel _ => r.registered = true ∧ r.suspended = true ∧ r.timed = true
  | .clear => r.registered = true ∧ (r.suspended = false → r.ready ≠ [])
  | .trying .resume _ => r.registered = false ∧ r.ready = [] ∧ r.suspended = true

/-- Where the consumer stands. The scheduler has taken an entry of it only while it is suspended. -/
structure PositionOk (s : Mpsc ι α) : Prop where
  stage : ∀ r stage, s.consumer = .receiving r stage → StageOk r stage
  point : PointOk s.channel.prefetch s.consumer.point
  resuming : s.wake.resuming ≠ none → s.isSuspended = true

/-- What one step can do. -/
inductive MpscMove (s : Mpsc ι α) : MpscAction ι α → Mpsc ι α → Prop
  | sendNothing {p} : MpscMove s (.send p []) s
  | send {p values} (hp : s.producers p = .idle) (hvalues : values ≠ []) :
      MpscMove s (.send p values)
        { s.setProducer p (.enqueue values s.channel.size) with
          channel := s.channel.fetchAdd values.length }
  | enqueue {p values prevSize} (hp : s.producers p = .enqueue values prevSize) :
      MpscMove s (.produce p true)
        { s.setProducer p (if prevSize = 0 then .consumeWake else .hasWaiter) with
          channel := { s.channel with queue := s.channel.queue ++ values.map (p, ·) }
          sent := Function.update s.sent p (s.sent p ++ values) }
  | reject {p values prevSize} (hp : s.producers p = .enqueue values prevSize) :
      MpscMove s (.produce p false) (s.setProducer p (.undo values.length))
  | undo {p count accepted} (hp : s.producers p = .undo count) :
      MpscMove s (.produce p accepted)
        { s.setProducer p .idle with channel := s.channel.fetchSub count }
  | seesWaiter {p accepted} (hp : s.producers p = .hasWaiter)
      (hwaiter : s.channel.waiter ≠ none) :
      MpscMove s (.produce p accepted) (s.setProducer p .consumeWake)
  | seesNone {p accepted} (hp : s.producers p = .hasWaiter) (hwaiter : s.channel.waiter = none) :
      MpscMove s (.produce p accepted) (s.setProducer p .idle)
  | consumeWake {p receive accepted} (hp : s.producers p = .consumeWake)
      (hwaiter : s.channel.waiter = some receive) :
      MpscMove s (.produce p accepted) ((s.setProducer p (.wakeUp receive)).setWaiter none)
  | consumeNone {p accepted} (hp : s.producers p = .consumeWake)
      (hwaiter : s.channel.waiter = none) :
      MpscMove s (.produce p accepted) (s.setProducer p .idle)
  | wakeUp {p receive accepted} (hp : s.producers p = .wakeUp receive) :
      MpscMove s (.produce p accepted)
        { s.setProducer p .idle with
          wake := s.wake.requestTaskResume (.producer p receive)
          issued := s.issued ++ [receive] }
  | tryRecv {request} (hc : s.consumer = .running) :
      MpscMove s (.tryRecv request) { s with consumer := .calling request .start }
  | callGoesOn {picks request point next c} (hc : s.consumer = .calling request point)
      (hcall : s.channel.recvStep picks point request = some (c, .goOn next))
      (hspec : RecvSpec s.channel point c (.goOn next)) :
      MpscMove s (.advance picks) { s with channel := c, consumer := .calling request next }
  | callReturns {picks values request point c} (hc : s.consumer = .calling request point)
      (hcall : s.channel.recvStep picks point request = some (c, .returns values))
      (hspec : RecvSpec s.channel point c (.returns values)) :
      MpscMove s (.advance picks)
        { s with channel := c, consumer := .running, received := s.received ++ values }
  | recv {request timed} (hc : s.consumer = .running) :
      MpscMove s (.recv request timed)
        { s with
          receives := s.receives + 1
          consumer := .receiving ⟨s.receives, request, timed, false, [], false⟩
            (.trying .ready .start) }
  | tryGoesOn {r picks place point next c}
      (hc : s.consumer = .receiving r (.trying place point))
      (hcall : s.channel.recvStep picks point r.request = some (c, .goOn next))
      (hspec : RecvSpec s.channel point c (.goOn next)) :
      MpscMove s (.advance picks)
        { s with channel := c, consumer := .receiving r (.trying place next) }
  | notReady {r picks point c} (hc : s.consumer = .receiving r (.trying .ready point))
      (hcall : s.channel.recvStep picks point r.request = some (c, .returns []))
      (hspec : RecvSpec s.channel point c (.returns [])) :
      MpscMove s (.advance picks)
        { s with channel := c, consumer := .receiving r (.trying .suspend .start) }
  | stillEmpty {r picks point c} (hc : s.consumer = .receiving r (.trying .suspend point))
      (hcall : s.channel.recvStep picks point r.request = some (c, .returns []))
      (hspec : RecvSpec s.channel point c (.returns [])) :
      MpscMove s (.advance picks) { s with channel := c, consumer := .receiving r .publish }
  | foundEarly {r picks values place point c} (hplace : place = .ready ∨ place = .suspend)
      (hvalues : values ≠ []) (hc : s.consumer = .receiving r (.trying place point))
      (hcall : s.channel.recvStep picks point r.request = some (c, .returns values))
      (hspec : RecvSpec s.channel point c (.returns values)) :
      MpscMove s (.advance picks)
        (({ s with channel := c } : Mpsc ι α).finish { r with ready := values } values)
  | publish {r picks} (hc : s.consumer = .receiving r .publish) :
      MpscMove s (.advance picks)
        { s.setWaiter (some r.number) with
          consumer := .receiving { r with registered := true } (.trying .recheck .start) }
  | recheckEmpty {r picks point c} (hc : s.consumer = .receiving r (.trying .recheck point))
      (hcall : s.channel.recvStep picks point r.request = some (c, .returns []))
      (hspec : RecvSpec s.channel point c (.returns [])) :
      MpscMove s (.advance picks) (({ s with channel := c } : Mpsc ι α).suspends r)
  | recheckFound {r picks values point c} (hvalues : values ≠ [])
      (hc : s.consumer = .receiving r (.trying .recheck point))
      (hcall : s.channel.recvStep picks point r.request = some (c, .returns values))
      (hspec : RecvSpec s.channel point c (.returns values)) :
      MpscMove s (.advance picks)
        { s with channel := c, consumer := .receiving { r with ready := values } .withdraw }
  | withdraw {r picks} (hc : s.consumer = .receiving r .withdraw)
      (hwaiter : s.channel.waiter ≠ none) :
      MpscMove s (.advance picks) { s.setWaiter none with consumer := .receiving r .clear }
  | tooLate {r picks} (hc : s.consumer = .receiving r .withdraw)
      (hwaiter : s.channel.waiter = none) : MpscMove s (.advance picks) (s.suspends r)
  | addTimer {r picks} (hc : s.consumer = .receiving r .addTimer) :
      MpscMove s (.advance picks)
        { s with
          timers := s.timers.addTimer
          consumer := .receiving r (.suspended (some s.timers.added)) }
  | timedOut {r picks k} (hc : s.consumer = .receiving r (.checkTimeout k))
      (hk : s.timers.timeouted k = true) :
      MpscMove s (.advance picks) { s with consumer := .receiving r .clear }
  | inTime {r picks k} (hc : s.consumer = .receiving r (.checkTimeout k)) :
      MpscMove s (.advance picks) { s with consumer := .receiving r (.cancel k) }
  | cancel {r picks k} (hc : s.consumer = .receiving r (.cancel k)) :
      MpscMove s (.advance picks)
        { s with timers := s.timers.cancel k, consumer := .receiving r .clear }
  | clearAndTry {r picks} (hc : s.consumer = .receiving r .clear) (hready : r.ready = []) :
      MpscMove s (.advance picks)
        { s.setWaiter none with
          consumer := .receiving { r with registered := false } (.trying .resume .start) }
  | clearAndReturn {r picks} (hc : s.consumer = .receiving r .clear) (hready : r.ready ≠ []) :
      MpscMove s (.advance picks) ((s.setWaiter none).finish { r with registered := false } r.ready)
  | tryReturns {r picks values point c} (hc : s.consumer = .receiving r (.trying .resume point))
      (hcall : s.channel.recvStep picks point r.request = some (c, .returns values))
      (hspec : RecvSpec s.channel point c (.returns values)) :
      MpscMove s (.advance picks) (({ s with channel := c } : Mpsc ι α).finish r values)
  | awaitElsewhere (hc : s.consumer = .running) :
      MpscMove s .awaitElsewhere { s with consumer := .elsewhere }
  | wakeElsewhere :
      MpscMove s .wakeElsewhere { s with wake := s.wake.requestTaskResume .elsewhere }
  | direct : MpscMove s .enqueue { s with wake := s.wake.enqueue .direct }
  | schedule {waker wake} (hwake : s.wake.schedule waker = some wake) :
      MpscMove s (.schedule waker) { s with wake := wake }
  | pop {waker wake} (hc : s.isSuspended = true) (hwake : s.wake.pop waker = some wake) :
      MpscMove s (.pop waker) { s with wake := wake }
  | resumeTimed {r k wake} (hc : s.consumer = .receiving r (.suspended (some k)))
      (hwake : s.wake.resume = some wake) :
      MpscMove s .resume { s with wake := wake, consumer := .receiving r (.checkTimeout k) }
  | resumeUntimed {r wake} (hc : s.consumer = .receiving r (.suspended none))
      (hwake : s.wake.resume = some wake) :
      MpscMove s .resume { s with wake := wake, consumer := .receiving r .clear }
  | resumeElsewhere {wake} (hc : s.consumer = .elsewhere) (hwake : s.wake.resume = some wake) :
      MpscMove s .resume { s with wake := wake, consumer := .running }
  | expire {k t} (ht : s.timers.expire k = some t) : MpscMove s (.expire k) { s with timers := t }
  | handle {t wake} (ht : s.timers.handle s.wake .timer = some (t, wake)) :
      MpscMove s .handle { s with timers := t, wake := wake }

variable {s s' : Mpsc ι α} {a : MpscAction ι α} {r : MpscReceive (ι × α)} {picks : List ι}
  {values : List (ι × α)}

lemma mpscMove_of_produce {p : ι} {accepted : Bool} (h : s.produce p accepted = some s') :
    MpscMove s (.produce p accepted) s' := by
  unfold Mpsc.produce at h
  split at h
  case h_1 => cases h
  case h_2 hp =>
    cases accepted <;> cases h
    · exact .reject hp
    · exact .enqueue hp
  case h_3 hp => cases h; exact .undo hp
  case h_4 hp =>
    cases h
    cases hwaiter : s.channel.waiter with
    | none => exact .seesNone hp hwaiter
    | some receive => exact .seesWaiter hp (by simp [hwaiter])
  case h_5 hp =>
    split at h <;> cases h
    · exact .consumeWake hp ‹_›
    · exact .consumeNone hp ‹_›
  case h_6 hp => cases h; exact .wakeUp hp

lemma mpscMove_of_tried {place : RecvTry} {point : RecvPoint (ι × α)} {c : MpscChannel ι α}
    (hc : s.consumer = .receiving r (.trying place point))
    (hstage : StageOk r (.trying place point))
    (hcall : s.channel.recvStep picks point r.request = some (c, .returns values))
    (hspec : RecvSpec s.channel point c (.returns values)) :
    MpscMove s (.advance picks) (({ s with channel := c } : Mpsc ι α).tried r values place) := by
  rcases values with _ | ⟨v, values⟩
  · cases place with
    | ready => exact .notReady hc hcall hspec
    | suspend => exact .stillEmpty hc hcall hspec
    | recheck => exact .recheckEmpty hc hcall hspec
    | resume => exact .tryReturns hc hcall hspec
  · cases place with
    | ready =>
      have hmove := MpscMove.foundEarly (.inl rfl) (List.cons_ne_nil v values) hc hcall hspec
      simpa [Mpsc.tried, Mpsc.awaitResume, Mpsc.takeReady, hstage.1] using hmove
    | suspend =>
      have hmove := MpscMove.foundEarly (.inr rfl) (List.cons_ne_nil v values) hc hcall hspec
      simpa [Mpsc.tried, Mpsc.awaitResume, Mpsc.takeReady, hstage.1] using hmove
    | recheck => exact .recheckFound (List.cons_ne_nil v values) hc hcall hspec
    | resume => exact .tryReturns hc hcall hspec

omit [DecidableEq ι] in
lemma awaitResume_eq (s : Mpsc ι α) (h : r.registered = true) :
    s.awaitResume r = { s with consumer := .receiving r .clear } := if_pos h

lemma mpscMove_of_advanceReceive {stage : RecvStage (ι × α)}
    (hpos : PositionOk s) (hc : s.consumer = .receiving r stage)
    (h : s.advanceReceive picks r stage = some s') : MpscMove s (.advance picks) s' := by
  have hstage := hpos.stage r stage hc
  cases stage with
  | trying place point =>
    simp only [Mpsc.advanceReceive, Option.map_eq_some_iff] at h
    obtain ⟨⟨c, progress⟩, hcall, rfl⟩ := h
    have hpoint : PointOk s.channel.prefetch point := by
      simpa [hc, MpscConsumer.point] using hpos.point
    have hspec := recvStep_spec hpoint hcall
    cases progress with
    | goOn next => exact .tryGoesOn hc hcall hspec
    | returns values => exact mpscMove_of_tried hc hstage hcall hspec
  | publish => cases h; exact .publish hc
  | withdraw =>
    cases h
    cases hwaiter : s.channel.waiter with
    | none => exact .tooLate hc hwaiter
    | some i =>
      simp only [Option.isSome_some, if_true, awaitResume_eq _ hstage.1]
      exact .withdraw hc (by simp [hwaiter])
  | addTimer => cases h; exact .addTimer hc
  | suspended timer => cases h
  | checkTimeout k =>
    cases h
    split
    · rw [awaitResume_eq _ hstage.1]
      exact .timedOut hc ‹_›
    · exact .inTime hc
  | cancel k =>
    cases h
    rw [awaitResume_eq _ hstage.1]
    exact .cancel hc
  | clear =>
    cases h
    unfold Mpsc.takeReady
    split
    · next hready => exact .clearAndTry hc (List.isEmpty_iff.mp hready)
    · next hready => exact .clearAndReturn hc (fun h => hready (List.isEmpty_iff.mpr h))

lemma mpscMove_of_advance (hpos : PositionOk s) (h : s.advance picks = some s') :
    MpscMove s (.advance picks) s' := by
  unfold Mpsc.advance at h
  split at h
  case h_1 request point hc =>
    simp only [Option.map_eq_some_iff] at h
    obtain ⟨⟨c, progress⟩, hcall, rfl⟩ := h
    have hpoint : PointOk s.channel.prefetch point := by
      simpa [hc, MpscConsumer.point] using hpos.point
    have hspec := recvStep_spec hpoint hcall
    cases progress with
    | goOn next => exact .callGoesOn hc hcall hspec
    | returns values => exact .callReturns hc hcall hspec
  case h_2 hc => exact mpscMove_of_advanceReceive hpos hc h
  case h_3 => cases h

lemma mpscMove_of_resume (hpos : PositionOk s) {wake : TaskWake (MpscWaker ι)}
    (hwake : s.wake.resume = some wake) :
    MpscMove s .resume ({ s with wake := wake } : Mpsc ι α).resumed := by
  have hsuspended := hpos.resuming (TaskWake.resuming_resume hwake).1
  unfold Mpsc.isSuspended at hsuspended
  split at hsuspended
  case h_1 r timer hc =>
    cases timer with
    | none =>
      have hmove := MpscMove.resumeUntimed hc hwake
      simpa [Mpsc.resumed, hc, Mpsc.awaitResume, (hpos.stage _ _ hc).1] using hmove
    | some k =>
      have hmove := MpscMove.resumeTimed hc hwake
      simpa [Mpsc.resumed, hc] using hmove
  case h_2 hc =>
    have hmove := MpscMove.resumeElsewhere hc hwake
    simpa [Mpsc.resumed, hc] using hmove
  case h_3 => cases hsuspended

/-- Every step is one of the listed moves. -/
theorem mpscMove_of_step (hpos : PositionOk s) (h : s.step a = some s') : MpscMove s a s' := by
  cases a with
  | send p values =>
    simp only [Mpsc.step] at h
    split at h
    · next hp =>
      split at h
      · cases h
      · split at h
        · next hvalues =>
          cases h
          rw [List.isEmpty_iff] at hvalues
          exact hvalues ▸ .sendNothing
        · next hvalues =>
          cases h
          exact .send hp (fun hnil => hvalues (List.isEmpty_iff.mpr hnil))
    · cases h
  | produce p accepted => exact mpscMove_of_produce h
  | tryRecv request =>
    simp only [Mpsc.step] at h
    split at h <;> cases h
    exact .tryRecv ‹_›
  | recv request timed =>
    simp only [Mpsc.step] at h
    split at h <;> cases h
    exact .recv ‹_›
  | advance picks => exact mpscMove_of_advance hpos h
  | awaitElsewhere =>
    simp only [Mpsc.step] at h
    split at h <;> cases h
    exact .awaitElsewhere ‹_›
  | wakeElsewhere =>
    cases h
    exact .wakeElsewhere
  | enqueue =>
    cases h
    exact .direct
  | schedule waker =>
    simp only [Mpsc.step, Option.map_eq_some_iff] at h
    obtain ⟨wake, hwake, rfl⟩ := h
    exact .schedule hwake
  | pop waker =>
    simp only [Mpsc.step, Option.ite_none_right_eq_some, Option.map_eq_some_iff] at h
    obtain ⟨hc, wake, hwake, rfl⟩ := h
    exact .pop hc hwake
  | resume =>
    simp only [Mpsc.step, Option.map_eq_some_iff] at h
    obtain ⟨wake, hwake, rfl⟩ := h
    exact mpscMove_of_resume hpos hwake
  | expire k =>
    simp only [Mpsc.step, Option.map_eq_some_iff] at h
    obtain ⟨t, ht, rfl⟩ := h
    exact .expire ht
  | handle =>
    simp only [Mpsc.step, Option.map_eq_some_iff] at h
    obtain ⟨⟨t, wake⟩, ht, rfl⟩ := h
    exact .handle ht

omit [DecidableEq ι] in
lemma PositionOk.advance (h : PositionOk s) (hrunning : s.isSuspended = false)
    (hwake : s'.wake = s.wake) (hpoint : PointOk s'.channel.prefetch s'.consumer.point)
    (hstage : ∀ r stage, s'.consumer = .receiving r stage → StageOk r stage) : PositionOk s' := by
  refine ⟨hstage, hpoint, fun hresuming => ?_⟩
  rw [hwake] at hresuming
  exact absurd (h.resuming hresuming) (by simp [hrunning])

omit [DecidableEq ι] in
lemma PositionOk.keep (h : PositionOk s) (hc : s'.consumer = s.consumer)
    (hprefetch : s'.channel.prefetch = s.channel.prefetch)
    (hresuming : s'.wake.resuming = s.wake.resuming) : PositionOk s' := by
  refine ⟨fun r stage => hc ▸ h.stage r stage, ?_, fun hne => ?_⟩
  · rw [hprefetch, hc]
    exact h.point
  · have hsuspended := h.resuming (hresuming ▸ hne)
    simpa only [Mpsc.isSuspended, hc] using hsuspended

omit [DecidableEq ι] in
lemma suspends_point (s : Mpsc ι α) (r : MpscReceive (ι × α)) :
    (s.suspends r).consumer.point = .start := by
  cases htimed : r.timed <;> simp [Mpsc.suspends, htimed, MpscConsumer.point]

omit [DecidableEq ι] in
lemma stageOk_suspends (hr : r.registered = true) {r' : MpscReceive (ι × α)}
    {stage : RecvStage (ι × α)} (h : (s.suspends r).consumer = .receiving r' stage) :
    StageOk r' stage := by
  simp only [Mpsc.suspends, MpscConsumer.receiving.injEq] at h
  obtain ⟨rfl, rfl⟩ := h
  cases htimed : r.timed <;> simp [StageOk, hr]

lemma positionOk_move (h : PositionOk s) (hm : MpscMove s a s') : PositionOk s' := by
  cases hm with
  | sendNothing => exact h
  | send | enqueue | reject | undo | seesWaiter | seesNone | consumeWake | consumeNone =>
    exact h.keep rfl rfl rfl
  | wakeUp => exact h.keep rfl rfl (TaskWake.resuming_request _ _)
  | tryRecv hc | awaitElsewhere hc =>
    exact h.advance (by simp [Mpsc.isSuspended, hc]) rfl trivial (fun _ _ hr => by cases hr)
  | callGoesOn hc _ hspec | callReturns hc _ hspec =>
    exact h.advance (by simp [Mpsc.isSuspended, hc]) rfl hspec.point (fun _ _ hr => by cases hr)
  | recv hc =>
    refine h.advance (by simp [Mpsc.isSuspended, hc]) rfl trivial (fun r stage hr => ?_)
    cases hr
    exact ⟨rfl, rfl, rfl⟩
  | @tryGoesOn r _ place _ _ _ hc _ hspec =>
    have hstage := h.stage _ _ hc
    refine h.advance (by simp [Mpsc.isSuspended, hc]) rfl hspec.point (fun r stage hr => ?_)
    cases hr
    cases place <;> exact hstage
  | notReady hc | stillEmpty hc =>
    have hstage := h.stage _ _ hc
    refine h.advance (by simp [Mpsc.isSuspended, hc]) rfl trivial (fun r stage hr => ?_)
    cases hr
    exact hstage
  | foundEarly _ _ hc | clearAndReturn hc | tryReturns hc =>
    exact h.advance (by simp [Mpsc.isSuspended, hc]) rfl trivial (fun _ _ hr => by cases hr)
  | publish hc =>
    have hstage := h.stage _ _ hc
    refine h.advance (by simp [Mpsc.isSuspended, hc]) rfl trivial (fun r stage hr => ?_)
    cases hr
    exact ⟨rfl, hstage.2⟩
  | recheckEmpty hc | tooLate hc =>
    have hstage := h.stage _ _ hc
    refine h.advance (by simp [Mpsc.isSuspended, hc]) rfl ?_ (fun _ _ => stageOk_suspends hstage.1)
    rw [suspends_point]
    trivial
  | recheckFound hvalues hc =>
    have hstage := h.stage _ _ hc
    refine h.advance (by simp [Mpsc.isSuspended, hc]) rfl trivial (fun r stage hr => ?_)
    cases hr
    exact ⟨hstage.1, hvalues, hstage.2.2⟩
  | withdraw hc =>
    have hstage := h.stage _ _ hc
    refine h.advance (by simp [Mpsc.isSuspended, hc]) rfl trivial (fun r stage hr => ?_)
    cases hr
    exact ⟨hstage.1, fun _ => hstage.2.1⟩
  | addTimer hc =>
    have hstage := h.stage _ _ hc
    refine h.advance (by simp [Mpsc.isSuspended, hc]) rfl trivial (fun r stage hr => ?_)
    cases hr
    exact ⟨hstage.1, hstage.2.1, hstage.2.2.symm⟩
  | timedOut hc | cancel hc =>
    have hstage := h.stage _ _ hc
    refine h.advance (by simp [Mpsc.isSuspended, hc]) rfl trivial (fun r stage hr => ?_)
    cases hr
    exact ⟨hstage.1, fun hs => absurd (hstage.2.1.symm.trans hs) nofun⟩
  | inTime hc =>
    have hstage := h.stage _ _ hc
    refine h.advance (by simp [Mpsc.isSuspended, hc]) rfl trivial (fun r stage hr => ?_)
    cases hr
    exact hstage
  | clearAndTry hc hready =>
    have hstage := h.stage _ _ hc
    refine h.advance (by simp [Mpsc.isSuspended, hc]) rfl trivial (fun r stage hr => ?_)
    cases hr
    refine ⟨rfl, hready, ?_⟩
    by_contra hs
    exact hstage.2 (by simpa using hs) hready
  | wakeElsewhere => exact h.keep rfl rfl (TaskWake.resuming_request _ _)
  | direct => exact h.keep rfl rfl rfl
  | schedule hwake => exact h.keep rfl rfl (TaskWake.resuming_schedule hwake)
  | pop hc => exact ⟨h.stage, h.point, fun _ => hc⟩
  | resumeTimed hc hwake =>
    have hstage := h.stage _ _ hc
    refine ⟨fun r stage hr => ?_, trivial, fun hne => absurd (TaskWake.resuming_resume hwake).2 hne⟩
    cases hr
    exact ⟨hstage.1, hstage.2.1, hstage.2.2.symm⟩
  | resumeUntimed hc hwake =>
    have hstage := h.stage _ _ hc
    refine ⟨fun r stage hr => ?_, trivial, fun hne => absurd (TaskWake.resuming_resume hwake).2 hne⟩
    cases hr
    exact ⟨hstage.1, fun hs => absurd (hstage.2.1.symm.trans hs) nofun⟩
  | resumeElsewhere hc hwake =>
    exact ⟨fun _ _ hr => (by cases hr), trivial,
      fun hne => absurd (TaskWake.resuming_resume hwake).2 hne⟩
  | expire => exact h.keep rfl rfl rfl
  | handle ht => exact h.keep rfl rfl (resuming_handle ht)

omit [DecidableEq ι] in
lemma not_receiving_init (prefetchLimit : Nat) (r : MpscReceive (ι × α))
    (stage : RecvStage (ι × α)) :
    (Mpsc.init prefetchLimit : Mpsc ι α).consumer ≠ .receiving r stage := by
  intro hr
  cases hr

omit [DecidableEq ι] in
lemma positionOk_init (prefetchLimit : Nat) : PositionOk (Mpsc.init prefetchLimit : Mpsc ι α) :=
  ⟨fun r stage hr => absurd hr (not_receiving_init prefetchLimit r stage), trivial,
    fun hne => absurd rfl hne⟩

/-- What holds initially and is preserved by every permitted move holds in every state reached. -/
theorem mpsc_invariant {ok : Mpsc ι α → MpscAction ι α → Prop} {P : Mpsc ι α → Prop}
    {prefetchLimit : Nat} (hinit : P (Mpsc.init prefetchLimit))
    (hmove : ∀ s a s', PositionOk s → P s → ok s a → MpscMove s a s' → P s')
    (h : Transition.Reaches Mpsc.step ok (Mpsc.init prefetchLimit) s) : PositionOk s ∧ P s := by
  refine h.invariant (P := fun s => PositionOk s ∧ P s) ⟨positionOk_init prefetchLimit, hinit⟩ ?_
  rintro s a s' ⟨hpos, hP⟩ hok hstep
  have hm := mpscMove_of_step hpos hstep
  exact ⟨positionOk_move hpos hm, hmove s a s' hpos hP hok hm⟩

end GalayKernel.Proofs
