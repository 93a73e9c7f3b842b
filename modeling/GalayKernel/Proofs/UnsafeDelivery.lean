import GalayKernel.UnsafeChannel
import GalayKernel.Lib.Transition

namespace GalayKernel

variable {α : Type}

def UnsafeRequest.asked : UnsafeRequest → Nat
  | .recv => 1
  | .recvBatch _ => 1
  | .recvBatched limit => limit

end GalayKernel

namespace GalayKernel.Proofs

open Transition

variable {α : Type}

structure Takes (c : UnsafeChannel α) (result : UnsafeChannel α × Option (List α)) : Prop where
  queue : result.2.getD [] ++ result.1.queue = c.queue
  size : c.size = c.queue.length → result.1.size = result.1.queue.length

variable {c c' : UnsafeChannel α}

lemma Takes.of_same {result : UnsafeChannel α × Option (List α)} (h : Takes c' result)
    (hqueue : c'.queue = c.queue) (hsize : c'.size = c.size) : Takes c result where
  queue := h.queue.trans hqueue
  size hc := h.size (by rw [hsize, hqueue, hc])

lemma takes_nothing (c : UnsafeChannel α) : Takes c (c, none) := ⟨rfl, id⟩

lemma takes_popFront (c : UnsafeChannel α) (count : Nat) : Takes c (c.popFront count) where
  queue := List.take_append_drop count c.queue
  size h := by
    show c.size - count = (c.queue.drop count).length
    rw [List.length_drop, h]

lemma takes_tryRecv (c : UnsafeChannel α) : Takes c c.tryRecv := by
  unfold UnsafeChannel.tryRecv
  split
  · exact takes_nothing c
  · exact takes_popFront c 1

lemma takes_tryRecvBatch (c : UnsafeChannel α) (maxCount : Nat) :
    Takes c (c.tryRecvBatch maxCount) := by
  unfold UnsafeChannel.tryRecvBatch
  split
  · exact takes_nothing c
  · exact takes_popFront c _

lemma takes_awaitResume (c : UnsafeChannel α) (failed : Bool) (request : UnsafeRequest) :
    Takes c (c.awaitResume failed request) := by
  cases request with
  | recv => exact (takes_tryRecv { c with hasWaiter := false }).of_same rfl rfl
  | recvBatch maxCount =>
    exact (takes_tryRecvBatch { c with hasWaiter := false } maxCount).of_same rfl rfl
  | recvBatched limit =>
    simp only [UnsafeChannel.awaitResume]
    split
    · exact (takes_nothing _).of_same rfl rfl
    · split
      · exact (takes_nothing _).of_same rfl rfl
      · exact (takes_popFront _ _).of_same rfl rfl

structure SameWaiter (c c' : UnsafeChannel α) : Prop where
  hasWaiter : c'.hasWaiter = c.hasWaiter
  wakeThreshold : c'.wakeThreshold = c.wakeThreshold

lemma sameWaiter_tryRecv (c : UnsafeChannel α) : SameWaiter c c.tryRecv.1 := by
  unfold UnsafeChannel.tryRecv
  split <;> exact ⟨rfl, rfl⟩

lemma sameWaiter_tryRecvBatch (c : UnsafeChannel α) (maxCount : Nat) :
    SameWaiter c (c.tryRecvBatch maxCount).1 := by
  unfold UnsafeChannel.tryRecvBatch
  split <;> exact ⟨rfl, rfl⟩

lemma awaitResume_waiter (failed : Bool) {request : UnsafeRequest}
    (h : c.wakeThreshold = 1 ∨ c.wakeThreshold = request.asked) :
    (c.awaitResume failed request).1.hasWaiter = false ∧
      (c.awaitResume failed request).1.wakeThreshold = 1 := by
  cases request with
  | recv =>
    have hsame := sameWaiter_tryRecv { c with hasWaiter := false }
    exact ⟨hsame.hasWaiter, hsame.wakeThreshold.trans (h.elim id id)⟩
  | recvBatch maxCount =>
    have hsame := sameWaiter_tryRecvBatch { c with hasWaiter := false } maxCount
    exact ⟨hsame.hasWaiter, hsame.wakeThreshold.trans (h.elim id id)⟩
  | recvBatched limit =>
    simp only [UnsafeChannel.awaitResume]
    split
    · exact ⟨rfl, rfl⟩
    · split <;> exact ⟨rfl, rfl⟩

lemma awaitReady_iff (c : UnsafeChannel α) (request : UnsafeRequest) :
    c.awaitReady request = true ↔ request.asked ≤ c.size := by
  cases request <;> simp [UnsafeChannel.awaitReady, UnsafeRequest.asked, Nat.succ_le_iff]

lemma awaitSuspend_some {request : UnsafeRequest} (h : c.awaitSuspend request = some c') :
    c.size < request.asked ∧ c'.queue = c.queue ∧ c'.size = c.size ∧ c'.hasWaiter = true ∧
      (c.wakeThreshold = 1 → c'.wakeThreshold = request.asked) := by
  cases request with
  | recv =>
    simp only [UnsafeChannel.awaitSuspend] at h
    split at h <;> cases h
    next hsize => exact ⟨Nat.lt_succ_of_le (Nat.le_of_not_lt hsize), rfl, rfl, rfl, id⟩
  | recvBatch maxCount =>
    simp only [UnsafeChannel.awaitSuspend] at h
    split at h <;> cases h
    next hsize => exact ⟨Nat.lt_succ_of_le (Nat.le_of_not_lt hsize), rfl, rfl, rfl, id⟩
  | recvBatched limit =>
    simp only [UnsafeChannel.awaitSuspend] at h
    split at h <;> cases h
    next hsize => exact ⟨Nat.lt_of_not_le hsize, rfl, rfl, rfl, fun _ => rfl⟩

/-- `await_suspend` checks once more what `await_ready` has checked. -/
lemma awaitSuspend_eq_none {request : UnsafeRequest} (h : c.awaitSuspend request = none) :
    request.asked ≤ c.size := by
  cases request with
  | recv | recvBatch _ | recvBatched _ =>
    simp only [UnsafeChannel.awaitSuspend] at h
    split at h <;> cases h
    assumption

structure DeliveryOk (s : UnsafeRun α) : Prop where
  delivered : s.received ++ s.channel.queue = s.sent
  size : s.channel.size = s.channel.queue.length
  waiting : s.channel.hasWaiter = true → ∃ r n, s.consumer = .suspended r n ∧
    s.channel.size < r.request.asked ∧ s.channel.wakeThreshold = r.request.asked
  idle : s.channel.hasWaiter = false → s.channel.wakeThreshold = 1

namespace DeliveryOk

variable {s s' : UnsafeRun α} {r : UnsafeReceive} {n : Nat}

lemma init (wakeMode : UnsafeChannelWakeMode) : DeliveryOk (.init wakeMode : UnsafeRun α) :=
  ⟨rfl, rfl, nofun, fun _ => rfl⟩

lemma frame (h : DeliveryOk s) (hchannel : s'.channel = s.channel)
    (hconsumer : s'.consumer = s.consumer) (hsent : s'.sent = s.sent)
    (hreceived : s'.received = s.received) : DeliveryOk s' := by
  constructor
  · rw [hreceived, hchannel, hsent, h.delivered]
  · rw [hchannel, h.size]
  · rw [hchannel, hconsumer]
    exact h.waiting
  · rw [hchannel]
    exact h.idle

lemma wakeThreshold (h : DeliveryOk s) (hs : s.consumer = .suspended r n) :
    s.channel.wakeThreshold = 1 ∨ s.channel.wakeThreshold = r.request.asked := by
  cases hw : s.channel.hasWaiter
  · exact .inl (h.idle hw)
  · obtain ⟨r', n', hs', -, hthreshold⟩ := h.waiting hw
    cases hs.symm.trans hs'
    exact .inr hthreshold

lemma hasWaiter_outside (h : DeliveryOk s) (hs : s.consumer = .outside) :
    s.channel.hasWaiter = false := by
  cases hw : s.channel.hasWaiter
  · rfl
  · obtain ⟨r, n, hs', -⟩ := h.waiting hw
    cases hs.symm.trans hs'

lemma delivered_takes (h : DeliveryOk s) {result : UnsafeChannel α × Option (List α)}
    (htakes : Takes s.channel result) :
    (s.received ++ result.2.getD []) ++ result.1.queue = s.sent := by
  rw [List.append_assoc, htakes.queue, h.delivered]

lemma awaitResume (h : DeliveryOk s) (failed : Bool)
    (hthreshold : s.channel.wakeThreshold = 1 ∨ s.channel.wakeThreshold = r.request.asked) :
    DeliveryOk (s.awaitResume r failed) := by
  have htakes := takes_awaitResume s.channel failed r.request
  obtain ⟨hwaiter, hone⟩ := awaitResume_waiter failed hthreshold
  refine ⟨h.delivered_takes htakes, htakes.size h.size, fun hw => ?_, fun _ => hone⟩
  exact absurd (hwaiter.symm.trans hw) nofun

lemma resumed (h : DeliveryOk s) (i : Nat) : DeliveryOk (s.resumed i) := by
  unfold UnsafeRun.resumed
  simp only
  split
  · exact h.frame rfl rfl rfl rfl
  · next r n hs =>
    have hthreshold := h.wakeThreshold hs
    split
    · split
      · refine awaitResume ?_ true ?_
        · exact h.frame rfl rfl rfl rfl
        · exact hthreshold
      · refine awaitResume ?_ false ?_
        · exact h.frame rfl rfl rfl rfl
        · exact hthreshold
    · refine awaitResume ?_ false ?_
      · exact h.frame rfl rfl rfl rfl
      · exact hthreshold

lemma clear (hdelivered : s.received ++ s.channel.queue = s.sent)
    (hsize : s.channel.size = s.channel.queue.length) :
    DeliveryOk { s with channel := { s.channel with hasWaiter := false, wakeThreshold := 1 } } :=
  ⟨hdelivered, hsize, nofun, fun _ => rfl⟩

lemma wakeUpWaiter (hdelivered : s.received ++ s.channel.queue = s.sent)
    (hsize : s.channel.size = s.channel.queue.length) : DeliveryOk s.wakeUpWaiter := by
  have h := clear hdelivered hsize
  unfold UnsafeRun.wakeUpWaiter
  simp only
  split
  · split
    · exact h.frame rfl rfl rfl rfl
    · exact h.resumed _
  · exact h

lemma send (h : DeliveryOk s) (values : List α) (immediately : Bool) :
    DeliveryOk (s.send values immediately) := by
  have hdelivered : s.received ++ (s.channel.queue ++ values) = s.sent ++ values := by
    rw [← List.append_assoc, h.delivered]
  have hsize : s.channel.size + values.length = (s.channel.queue ++ values).length := by
    rw [List.length_append, h.size]
  unfold UnsafeRun.send
  split
  · exact h
  · simp only
    split
    · exact wakeUpWaiter hdelivered hsize
    · next hwakes =>
      refine ⟨hdelivered, hsize, fun hw => ?_, h.idle⟩
      obtain ⟨r, n, hs, -, hthreshold⟩ := h.waiting hw
      refine ⟨r, n, hs, ?_, hthreshold⟩
      have hw' : (s.channel.push values).hasWaiter = true := hw
      simp only [UnsafeChannel.wakes, hw', Bool.true_and, Bool.or_eq_true, decide_eq_true_eq,
        not_or, Nat.not_le] at hwakes
      exact hthreshold ▸ hwakes.2

lemma take (h : DeliveryOk s) {result : UnsafeChannel α × Option (List α)}
    (htakes : Takes s.channel result) (hsame : SameWaiter s.channel result.1) :
    DeliveryOk (s.take result) := by
  have hle : result.1.size ≤ s.channel.size := by
    have hlen := congrArg List.length htakes.queue
    rw [List.length_append] at hlen
    rw [htakes.size h.size, h.size]
    omega
  refine ⟨h.delivered_takes htakes, htakes.size h.size, fun hw => ?_, fun hw => ?_⟩
  · obtain ⟨r, n, hs, hlt, hthreshold⟩ := h.waiting (hsame.hasWaiter ▸ hw)
    exact ⟨r, n, hs, Nat.lt_of_le_of_lt hle hlt, hsame.wakeThreshold.trans hthreshold⟩
  · exact hsame.wakeThreshold.trans (h.idle (hsame.hasWaiter ▸ hw))

lemma await (h : DeliveryOk s) (hs : s.consumer = .outside) (r : UnsafeReceive) :
    DeliveryOk (s.await r) := by
  have hone := h.idle (h.hasWaiter_outside hs)
  unfold UnsafeRun.await
  split
  · exact h.awaitResume false (.inl hone)
  · split
    · exact h.awaitResume false (.inl hone)
    · next c hc =>
      obtain ⟨hlt, hqueue, hsize, hw, hthreshold⟩ := awaitSuspend_some hc
      refine ⟨?_, ?_, fun _ => ⟨r, s.suspensions, rfl, ?_, hthreshold hone⟩, fun hw' => ?_⟩
      · show s.received ++ c.queue = s.sent
        rw [hqueue, h.delivered]
      · show c.size = c.queue.length
        rw [hqueue, hsize, h.size]
      · exact hsize ▸ hlt
      · exact absurd (hw.symm.trans hw') nofun

lemma handleTimeout (h : DeliveryOk s) (k : Nat) : DeliveryOk (s.handleTimeout k) := by
  unfold UnsafeRun.handleTimeout
  simp only
  split <;> exact h.frame rfl rfl rfl rfl

lemma step {a : UnsafeAction α} (h : DeliveryOk s) (hs : s.step a = some s') :
    DeliveryOk s' := by
  cases a with
  | send values immediately =>
    cases hs
    exact h.send values immediately
  | tryRecv =>
    cases hs
    exact h.take (takes_tryRecv _) (sameWaiter_tryRecv _)
  | tryRecvBatch maxCount =>
    cases hs
    exact h.take (takes_tryRecvBatch _ maxCount) (sameWaiter_tryRecvBatch _ maxCount)
  | await r =>
    simp only [UnsafeRun.step, Option.ite_none_right_eq_some] at hs
    obtain ⟨houtside, hs⟩ := hs
    cases hs
    exact h.await houtside r
  | expire k =>
    simp only [UnsafeRun.step, Option.ite_none_right_eq_some] at hs
    obtain ⟨-, hs⟩ := hs
    cases hs
    exact h.handleTimeout k
  | resume =>
    simp only [UnsafeRun.step] at hs
    split at hs
    · cases hs
    · next i rest hready =>
      obtain ⟨w, -, rfl⟩ := Option.map_eq_some_iff.mp hs
      refine resumed ?_ i
      exact h.frame rfl rfl rfl rfl

end DeliveryOk

/-- The values received, then those in the queue, are the values sent. A registered waiter asks for
more than there is, and the threshold is another than 1 only for a `recvBatched`. -/
def DeliversAndWaits (s : UnsafeRun α) : Prop :=
  s.received ++ s.channel.queue = s.sent ∧
  s.channel.size = s.channel.queue.length ∧
  (s.channel.hasWaiter = true →
    ∃ r n, s.consumer = .suspended r n ∧ s.channel.size < r.request.asked) ∧
  (s.channel.wakeThreshold ≠ 1 → s.channel.hasWaiter = true ∧
    ∃ limit timed n, s.consumer = .suspended ⟨.recvBatched limit, timed⟩ n)

/-- No run loses, duplicates or reorders a value, or leaves a waiter that has enough values. -/
theorem unsafe_channel_delivers {wakeMode : UnsafeChannelWakeMode} {s : UnsafeRun α}
    (h : Reaches UnsafeRun.step (fun _ _ => True) (.init wakeMode) s) : DeliversAndWaits s := by
  have hok : DeliveryOk s :=
    h.invariant (DeliveryOk.init wakeMode) fun _ _ _ hP _ hs => hP.step hs
  refine ⟨hok.delivered, hok.size, fun hw => ?_, fun hne => ?_⟩
  · obtain ⟨r, n, hs, hlt, -⟩ := hok.waiting hw
    exact ⟨r, n, hs, hlt⟩
  · cases hw : s.channel.hasWaiter
    · exact absurd (hok.idle hw) hne
    · obtain ⟨⟨request, timed⟩, n, hs, -, hthreshold⟩ := hok.waiting hw
      rw [hthreshold] at hne
      cases request with
      | recv | recvBatch _ => exact absurd rfl hne
      | recvBatched limit => exact ⟨rfl, limit, timed, n, hs⟩

/-- A consumer that is woken inside a send sends in its turn, then waits for two values of which
one is there. -/
def sendsWhenResumed : List (UnsafeAction Nat) :=
  [.await ⟨.recv, false⟩, .send [1, 2, 3] false, .send [4] false, .tryRecvBatch 2,
    .await ⟨.recvBatched 2, true⟩]

theorem sendsWhenResumed_delivers :
    ∃ s, run UnsafeRun.step (.init .inline) sendsWhenResumed = some s ∧
      s.received = [1, 2, 3] ∧ s.channel.queue = [4] ∧ s.channel.wakeThreshold = 2 ∧
      DeliversAndWaits s :=
  ⟨_, rfl, rfl, rfl, rfl,
    @unsafe_channel_delivers Nat .inline _ (Reaches.start.of_replay sendsWhenResumed rfl)⟩

end GalayKernel.Proofs
