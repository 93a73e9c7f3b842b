import GalayKernel.Proofs.TaskWake
import GalayKernel.Proofs.UnsafeDelivery

namespace GalayKernel.Proofs

open Transition

variable {α : Type}

/-- Every wake-up that is under way has its entry in the ready queue and has set `m_queued`. -/
structure Settled (w : TaskWake Nat) : Prop where
  scheduling : w.scheduling = []
  resuming : w.resuming = none
  flagged : w.Flagged

lemma Settled.ready {w : TaskWake Nat} (h : Settled w) : w.pending = w.ready := by
  simp [TaskWake.pending, h.scheduling, h.resuming]

variable {s s' : UnsafeRun α} {r : UnsafeReceive} {n : Nat}

lemma perm_wakeUp (s : UnsafeRun α) (n : Nat) :
    (s.wakeUp n).wake.pending.Perm (s.wake.requestTaskResume n).pending := by
  unfold UnsafeRun.wakeUp
  cases hw : (s.wake.requestTaskResume n).schedule n with
  | none => simp only [hw, Option.getD_none, List.Perm.refl]
  | some w => simpa only [hw, Option.getD_some] using TaskWake.perm_schedule hw

lemma flagged_wakeUp (h : s.wake.Flagged) (n : Nat) : (s.wakeUp n).wake.Flagged := by
  unfold UnsafeRun.wakeUp
  cases hw : (s.wake.requestTaskResume n).schedule n with
  | none => simpa only [hw, Option.getD_none] using h.request n
  | some w => simpa only [hw, Option.getD_some] using (h.request n).schedule hw

lemma settled_wakeUp (h : Settled s.wake) (n : Nat) : Settled (s.wakeUp n).wake := by
  have hsched := h.scheduling
  have hres := h.resuming
  have hplaces : (s.wakeUp n).wake.scheduling = [] ∧ (s.wakeUp n).wake.resuming = none := by
    simp only [UnsafeRun.wakeUp, TaskWake.requestTaskResume]
    split
    · have hn : s.wake.schedule n = none := by simp [TaskWake.schedule, hsched]
      simpa only [hn, Option.getD_none] using ⟨hsched, hres⟩
    · simp only [TaskWake.schedule, hsched, List.nil_append, List.mem_singleton, if_true,
        Option.getD_some]
      exact ⟨by simp, hres⟩
  exact ⟨hplaces.1, hplaces.2, flagged_wakeUp h.flagged n⟩

lemma settled_resumed {w w' : TaskWake Nat} (h : Settled w)
    (hs : (w.pop n).bind (·.resume) = some w') : Settled w' := by
  obtain ⟨w₁, hpop, hres⟩ := Option.bind_eq_some_iff.mp hs
  have hflagged := (h.flagged.pop hpop).resume hres
  obtain ⟨-, ⟨⟩⟩ := Option.ite_none_right_eq_some.mp hpop
  obtain ⟨-, ⟨⟩⟩ := Option.ite_none_right_eq_some.mp hres
  exact ⟨h.scheduling, rfl, hflagged⟩

lemma pending_resumed {w w' : TaskWake Nat} (h : Settled w)
    (hs : (w.pop n).bind (·.resume) = some w') : w'.pending = [] := by
  obtain ⟨w₁, hpop, hres⟩ := Option.bind_eq_some_iff.mp hs
  exact (h.flagged.pop hpop).pending_resume hres

/-- Only the timer of a timed receive that the consumer is suspended in can still fire. -/
structure TimeoutsOk (s : UnsafeRun α) : Prop where
  nodup : s.armed.Nodup
  armed : ∀ k ∈ s.armed, k < s.suspensions ∧
    (s.cancelled k = false → ∃ r, s.consumer = .suspended r k ∧ r.timed = true)
  timeouted : ∀ k, s.timeouted k = true → k < s.suspensions ∧ k ∉ s.armed

lemma TimeoutsOk.frame (h : TimeoutsOk s) (hconsumer : s'.consumer = s.consumer)
    (hsuspensions : s'.suspensions = s.suspensions) (harmed : s'.armed = s.armed)
    (hcancelled : s'.cancelled = s.cancelled) (htimeouted : s'.timeouted = s.timeouted) :
    TimeoutsOk s' := by
  constructor
  · exact harmed.symm ▸ h.nodup
  · rw [harmed, hsuspensions, hcancelled, hconsumer]
    exact h.armed
  · rw [htimeouted, hsuspensions, harmed]
    exact h.timeouted

lemma TimeoutsOk.outside (h : TimeoutsOk s) (hs : s.consumer = .outside) :
    ∀ k ∈ s.armed, s.cancelled k = true := by
  intro k hk
  refine eq_true_of_ne_false fun hc => ?_
  obtain ⟨r, hr, -⟩ := (h.armed k hk).2 hc
  cases hs.symm.trans hr

lemma TimeoutsOk.suspends (h : TimeoutsOk s) (hs : s.consumer = .outside)
    (hconsumer : s'.consumer = .suspended r s.suspensions)
    (hsuspensions : s'.suspensions = s.suspensions + 1)
    (harmed : s'.armed = if r.timed then s.suspensions :: s.armed else s.armed)
    (hcancelled : s'.cancelled = s.cancelled) (htimeouted : s'.timeouted = s.timeouted) :
    TimeoutsOk s' := by
  have hnew : s.suspensions ∉ s.armed := fun hmem => Nat.lt_irrefl _ (h.armed _ hmem).1
  have hmem : ∀ k ∈ s'.armed, k ∈ s.armed ∨ (k = s.suspensions ∧ r.timed = true) := by
    intro k hk
    rw [harmed] at hk
    split at hk
    · rcases List.mem_cons.mp hk with hk | hk
      · exact .inr ⟨hk, ‹_›⟩
      · exact .inl hk
    · exact .inl hk
  refine ⟨?_, fun k hk => ?_, fun k hk => ?_⟩
  · rw [harmed]
    split
    · exact List.nodup_cons.mpr ⟨hnew, h.nodup⟩
    · exact h.nodup
  · rw [hsuspensions, hcancelled]
    rcases hmem k hk with hk | ⟨rfl, htimed⟩
    · refine ⟨Nat.lt_succ_of_lt (h.armed k hk).1, fun hc => ?_⟩
      exact absurd ((h.outside hs k hk).symm.trans hc) nofun
    · exact ⟨Nat.lt_succ_self _, fun _ => ⟨r, hconsumer, htimed⟩⟩
  · rw [htimeouted] at hk
    obtain ⟨hlt, hna⟩ := h.timeouted k hk
    rw [hsuspensions]
    refine ⟨Nat.lt_succ_of_lt hlt, fun hk' => ?_⟩
    rcases hmem k hk' with hk' | ⟨rfl, -⟩
    · exact hna hk'
    · exact Nat.lt_irrefl _ hlt

lemma TimeoutsOk.expires (h : TimeoutsOk s) {k : Nat} (hk : k ∈ s.armed)
    (hconsumer : s'.consumer = s.consumer) (hsuspensions : s'.suspensions = s.suspensions)
    (harmed : s'.armed = s.armed.erase k) (hcancelled : s'.cancelled = s.cancelled)
    (htimeouted : ∀ j, s'.timeouted j = true → j = k ∨ s.timeouted j = true) :
    TimeoutsOk s' := by
  have hmem : ∀ j, j ∈ s'.armed → j ≠ k ∧ j ∈ s.armed := by
    intro j hj
    rw [harmed] at hj
    exact h.nodup.mem_erase_iff.mp hj
  refine ⟨harmed.symm ▸ h.nodup.erase k, fun j hj => ?_, fun j hj => ?_⟩
  · rw [hsuspensions, hcancelled, hconsumer]
    exact h.armed j (hmem j hj).2
  · rw [hsuspensions]
    rcases htimeouted j hj with rfl | hj
    · exact ⟨(h.armed j hk).1, fun hj' => (hmem j hj').1 rfl⟩
    · exact ⟨(h.timeouted j hj).1, fun hj' => (h.timeouted j hj).2 (hmem j hj').2⟩

/-- What is known of suspension `n` of the consumer. -/
structure SuspensionOk (s : UnsafeRun α) (r : UnsafeReceive) (n : Nat) : Prop where
  woken : s.channel.hasWaiter = false → s.wake.pending ≠ [] ∧ 0 < s.channel.size
  fired : s.timeouted n = true → s.wake.pending ≠ [] ∧ r.timed = true
  cause : s.wake.pending ≠ [] → s.channel.hasWaiter = false ∨ s.timeouted n = true

def FailuresOk (s : UnsafeRun α) : Prop :=
  ∀ r, (r, none) ∈ s.returned → r.timed = true ∨ ∃ limit, r.request = .recvBatched limit

structure ResumeOk (s : UnsafeRun α) : Prop where
  resumes : s.resumes ++ s.consumer.number.toList = List.range s.suspensions
  settled : Settled s.wake
  pending : ∀ i ∈ s.wake.pending, s.consumer.number = some i
  timeouts : TimeoutsOk s
  suspension : ∀ r n, s.consumer = .suspended r n → SuspensionOk s r n
  failures : FailuresOk s

lemma ResumeOk.init (wakeMode : UnsafeChannelWakeMode) :
    ResumeOk (.init wakeMode : UnsafeRun α) where
  resumes := rfl
  settled := ⟨rfl, rfl, TaskWake.flagged_init⟩
  pending := nofun
  timeouts := ⟨List.nodup_nil, nofun, nofun⟩
  suspension := nofun
  failures := nofun

lemma ResumeOk.pending_outside (h : ResumeOk s) (hs : s.consumer = .outside) :
    s.wake.pending = [] := by
  refine List.eq_nil_iff_forall_not_mem.mpr fun i hi => ?_
  have hnumber := h.pending i hi
  rw [hs] at hnumber
  cases hnumber

lemma ResumeOk.resumes_suspended (h : ResumeOk s) (hs : s.consumer = .suspended r n) :
    s.resumes ++ [n] = List.range s.suspensions := by
  have hresumes := h.resumes
  rw [hs] at hresumes
  exact hresumes

lemma ResumeOk.resumes_outside (h : ResumeOk s) (hs : s.consumer = .outside) :
    s.resumes = List.range s.suspensions := by
  have hresumes := h.resumes
  rwa [hs, UnsafeConsumer.number, Option.toList_none, List.append_nil] at hresumes

lemma awaitResume_eq_none {c : UnsafeChannel α} {failed : Bool} {request : UnsafeRequest}
    (h : (c.awaitResume failed request).2 = none) :
    c.size = 0 ∨ ∃ limit, request = .recvBatched limit := by
  cases request with
  | recv =>
    simp only [UnsafeChannel.awaitResume, UnsafeChannel.tryRecv] at h
    split at h
    · exact .inl ‹_›
    · cases h
  | recvBatch maxCount =>
    simp only [UnsafeChannel.awaitResume, UnsafeChannel.tryRecvBatch] at h
    split at h
    · exact .inl ‹_›
    · cases h
  | recvBatched limit => exact .inr ⟨limit, rfl⟩

lemma FailuresOk.awaitResume (h : FailuresOk s) (failed : Bool)
    (hvalue : 0 < s.channel.size ∨ r.timed = true ∨ ∃ limit, r.request = .recvBatched limit) :
    FailuresOk (s.awaitResume r failed) := by
  intro r' hr'
  rcases List.mem_append.mp hr' with hr' | hr'
  · exact h r' hr'
  · obtain ⟨rfl, hnone⟩ := Prod.mk.inj (List.mem_singleton.mp hr')
    rcases awaitResume_eq_none hnone.symm with hzero | hbatched
    · rcases hvalue with hpos | hvalue
      · omega
      · exact hvalue
    · exact .inr hbatched

structure Resumable (s : UnsafeRun α) (r : UnsafeReceive) (n : Nat) : Prop where
  consumer : s.consumer = .suspended r n
  resumes : s.resumes ++ [n] = List.range s.suspensions
  settled : Settled s.wake
  pending : s.wake.pending = []
  timeouts : TimeoutsOk s
  value : 0 < s.channel.size ∨ r.timed = true
  failures : FailuresOk s

/-- After the resume the timer of the suspension cannot fire: it has fired, or it is cancelled. -/
lemma Resumable.cancelled (h : Resumable s r n) :
    ∀ k ∈ s.armed, s.cancelled k = true ∨ (k = n ∧ r.timed = true ∧ s.timeouted n = false) := by
  intro k hk
  cases hc : s.cancelled k
  · obtain ⟨r', hr', htimed⟩ := (h.timeouts.armed k hk).2 hc
    cases h.consumer.symm.trans hr'
    refine .inr ⟨rfl, htimed, eq_false_of_ne_true fun ht => ?_⟩
    exact (h.timeouts.timeouted n ht).2 hk
  · exact .inl rfl

lemma Resumable.ends (h : Resumable s r n) {failed : Bool}
    (hresumes : s'.resumes = s.resumes ++ [n])
    (hsuspensions : s'.suspensions = s.suspensions) (hwake : s'.wake = s.wake)
    (harmed : s'.armed = s.armed) (htimeouted : s'.timeouted = s.timeouted)
    (hcancelled : ∀ k ∈ s.armed, s'.cancelled k = true)
    (hsize : s'.channel.size = s.channel.size) (hreturned : s'.returned = s.returned) :
    ResumeOk (s'.awaitResume r failed) where
  resumes := by
    show s'.resumes ++ [] = List.range s'.suspensions
    rw [List.append_nil, hresumes, hsuspensions, h.resumes]
  settled := hwake.symm ▸ h.settled
  pending i hi := by
    have hnil : (s'.awaitResume r failed).wake.pending = [] := hwake.symm ▸ h.pending
    rw [hnil] at hi
    cases hi
  timeouts := by
    refine ⟨harmed.symm ▸ h.timeouts.nodup, fun k hk => ?_, fun k hk => ?_⟩
    · have hk' : k ∈ s.armed := harmed ▸ hk
      refine ⟨hsuspensions.symm ▸ (h.timeouts.armed k hk').1, fun hc => ?_⟩
      exact absurd ((hcancelled k hk').symm.trans hc) nofun
    · have hold := h.timeouts.timeouted k (htimeouted ▸ hk)
      exact ⟨hsuspensions.symm ▸ hold.1, harmed.symm ▸ hold.2⟩
  suspension r' n' hs := nomatch hs
  failures := by
    refine FailuresOk.awaitResume ?_ failed ?_
    · intro r' hr'
      exact h.failures r' (hreturned ▸ hr')
    · rw [hsize]
      exact h.value.imp_right .inl

lemma Resumable.resumed (h : Resumable s r n) : ResumeOk (s.resumed n) := by
  unfold UnsafeRun.resumed
  simp only [h.consumer]
  split
  · next htimed =>
    split
    · next hfired =>
      refine h.ends rfl rfl rfl rfl rfl (fun k hk => ?_) rfl rfl
      rcases h.cancelled k hk with hc | ⟨-, -, hnot⟩
      · exact hc
      · exact absurd (hfired.symm.trans hnot) nofun
    · refine h.ends rfl rfl rfl rfl rfl (fun k hk => ?_) rfl rfl
      show Function.update s.cancelled n true k = true
      rcases h.cancelled k hk with hc | ⟨rfl, -, -⟩
      · rw [Function.update_apply]
        split
        · rfl
        · exact hc
      · exact Function.update_self ..
  · next huntimed =>
    refine h.ends rfl rfl rfl rfl rfl (fun k hk => ?_) rfl rfl
    rcases h.cancelled k hk with hc | ⟨-, htimed, -⟩
    · exact hc
    · exact absurd htimed huntimed

namespace ResumeOk

lemma frame (h : ResumeOk s) (hconsumer : s'.consumer = s.consumer) (hwake : s'.wake = s.wake)
    (hresumes : s'.resumes = s.resumes) (hsuspensions : s'.suspensions = s.suspensions)
    (htimeouts : TimeoutsOk s') (htimeouted : s'.timeouted = s.timeouted)
    (hreturned : s'.returned = s.returned)
    (hchannel : s.consumer = .outside ∨
      (s'.channel.hasWaiter = s.channel.hasWaiter ∧ s.channel.size ≤ s'.channel.size)) :
    ResumeOk s' where
  resumes := by rw [hresumes, hconsumer, hsuspensions, h.resumes]
  settled := hwake.symm ▸ h.settled
  pending i hi := by
    rw [hconsumer]
    exact h.pending i (hwake ▸ hi)
  timeouts := htimeouts
  suspension r n hs := by
    rw [hconsumer] at hs
    obtain ⟨hwoken, hfired, hcause⟩ := h.suspension r n hs
    rcases hchannel with hout | ⟨hwaiter, hsize⟩
    · cases hs.symm.trans hout
    · constructor
      · rw [hwaiter, hwake]
        exact fun hw => ⟨(hwoken hw).1, Nat.lt_of_lt_of_le (hwoken hw).2 hsize⟩
      · rw [htimeouted, hwake]
        exact hfired
      · rw [hwaiter, hwake, htimeouted]
        exact hcause
  failures r hr := h.failures r (hreturned ▸ hr)

lemma wakeUp (h : ResumeOk s) (hs : s.consumer = .suspended r n)
    (hconsumer : s'.consumer = s.consumer) (hwake : s'.wake = s.wake)
    (hresumes : s'.resumes = s.resumes) (hsuspensions : s'.suspensions = s.suspensions)
    (htimeouts : TimeoutsOk (s'.wakeUp n)) (hreturned : s'.returned = s.returned)
    (hsize : s'.channel.hasWaiter = false → 0 < s'.channel.size)
    (htimed : s'.timeouted n = true → r.timed = true)
    (hcause : s'.channel.hasWaiter = false ∨ s'.timeouted n = true) :
    ResumeOk (s'.wakeUp n) := by
  have hpending : (s'.wakeUp n).wake.pending ≠ [] := by
    intro hnil
    exact TaskWake.pending_request_ne_nil _ _ ((hnil ▸ perm_wakeUp s' n).symm.eq_nil)
  constructor
  · show s'.resumes ++ s'.consumer.number.toList = List.range s'.suspensions
    rw [hresumes, hconsumer, hsuspensions, h.resumes]
  · exact settled_wakeUp (hwake.symm ▸ h.settled) n
  · intro i hi
    show s'.consumer.number = some i
    rw [(perm_wakeUp s' n).mem_iff, hwake] at hi
    rw [hconsumer]
    rcases TaskWake.mem_pending_request hi with hi | rfl
    · exact h.pending i hi
    · rw [hs]
      rfl
  · exact htimeouts
  · intro r' n' hs'
    cases (hs.symm.trans hconsumer.symm).trans hs'
    exact ⟨fun hw => ⟨hpending, hsize hw⟩, fun ht => ⟨hpending, htimed ht⟩, fun _ => hcause⟩
  · exact fun r' hr' => h.failures r' (hreturned ▸ hr')

end ResumeOk

/-- A send resumes the consumer by itself only if no wake-up is in the ready queue. -/
def ResumesUnqueued (s : UnsafeRun α) : UnsafeAction α → Prop
  | .send values immediately => (s.channel.push values).wakes immediately = true →
      s.channel.wakeMode = .inline → s.wake.pending = []
  | _ => True

/-- `tryRecv` and `tryRecvBatch` are called by the consumer only. -/
def TakesItself (s : UnsafeRun α) : UnsafeAction α → Prop
  | .tryRecv => s.consumer = .outside
  | .tryRecvBatch _ => s.consumer = .outside
  | _ => True

namespace ResumeOk

lemma send (h : ResumeOk s) (hd : DeliveryOk s) {values : List α} {immediately : Bool}
    (hok : ResumesUnqueued s (.send values immediately)) :
    ResumeOk (s.send values immediately) := by
  unfold UnsafeRun.send
  split
  · exact h
  · next hvalues =>
    have hpos : 0 < s.channel.size + values.length := by
      have hlen := List.length_pos_iff.mpr fun hnil => hvalues (List.isEmpty_iff.mpr hnil)
      omega
    simp only
    split
    · next hwakes =>
      have hw : s.channel.hasWaiter = true := by
        simp only [UnsafeChannel.wakes, Bool.and_eq_true] at hwakes
        exact hwakes.1
      obtain ⟨r, n, hs, -, -⟩ := hd.waiting hw
      have hold := h.suspension r n hs
      unfold UnsafeRun.wakeUpWaiter
      simp only [hs]
      split
      · refine h.wakeUp hs ?_ rfl rfl rfl ?_ rfl (fun _ => hpos) ?_ (.inl rfl)
        · exact hs.symm
        · exact h.timeouts.frame hs.symm rfl rfl rfl rfl
        · exact fun ht => (hold.fired ht).2
      · next hmode =>
        have hpending := hok hwakes hmode
        refine Resumable.resumed (r := r)
          ⟨rfl, h.resumes_suspended hs, h.settled, hpending, ?_, .inl hpos, h.failures⟩
        exact h.timeouts.frame hs.symm rfl rfl rfl rfl
    · refine h.frame rfl rfl rfl rfl ?_ rfl rfl (.inr ⟨rfl, Nat.le_add_right _ _⟩)
      exact h.timeouts.frame rfl rfl rfl rfl rfl

lemma take (h : ResumeOk s) (hs : s.consumer = .outside)
    (result : UnsafeChannel α × Option (List α)) : ResumeOk (s.take result) :=
  h.frame rfl rfl rfl rfl (h.timeouts.frame rfl rfl rfl rfl rfl) rfl rfl (.inl hs)

lemma awaitResume (h : ResumeOk s) (hs : s.consumer = .outside)
    (hready : r.request.asked ≤ s.channel.size) : ResumeOk (s.awaitResume r false) where
  resumes := (List.append_nil _).trans (h.resumes_outside hs)
  settled := h.settled
  pending i hi := by
    have hnil : (s.awaitResume r false).wake.pending = [] := h.pending_outside hs
    rw [hnil] at hi
    cases hi
  timeouts := by
    refine ⟨h.timeouts.nodup, fun k hk => ?_, h.timeouts.timeouted⟩
    refine ⟨(h.timeouts.armed k hk).1, fun hc => ?_⟩
    exact absurd ((h.timeouts.outside hs k hk).symm.trans hc) nofun
  suspension r' n' hs' := nomatch hs'
  failures := by
    refine h.failures.awaitResume false ?_
    cases hr : r.request with
    | recv | recvBatch _ =>
      rw [hr] at hready
      exact .inl hready
    | recvBatched limit => exact .inr (.inr ⟨limit, rfl⟩)

lemma await (h : ResumeOk s) (hs : s.consumer = .outside) (r : UnsafeReceive) :
    ResumeOk (s.await r) := by
  unfold UnsafeRun.await
  split
  · next hready => exact h.awaitResume hs ((awaitReady_iff _ _).mp hready)
  · split
    · next hnone => exact h.awaitResume hs (awaitSuspend_eq_none hnone)
    · next c hc =>
      obtain ⟨-, -, -, hw, -⟩ := awaitSuspend_some hc
      have hpending := h.pending_outside hs
      constructor
      · show s.resumes ++ [s.suspensions] = List.range (s.suspensions + 1)
        rw [List.range_succ, h.resumes_outside hs]
      · exact h.settled
      · intro i hi
        rw [show s.wake.pending = [] from hpending] at hi
        cases hi
      · exact h.timeouts.suspends hs rfl rfl rfl rfl rfl
      · intro r' n' hs'
        cases hs'
        refine ⟨fun hw' => ?_, fun ht => ?_, fun hne => absurd hpending hne⟩
        · exact absurd (hw.symm.trans hw') nofun
        · exact absurd (h.timeouts.timeouted _ ht).1 (Nat.lt_irrefl _)
      · exact h.failures

lemma handleTimeout (h : ResumeOk s) {k : Nat} (hk : k ∈ s.armed) :
    ResumeOk (s.handleTimeout k) := by
  unfold UnsafeRun.handleTimeout
  simp only
  split
  · refine h.frame rfl rfl rfl rfl ?_ rfl rfl (.inr ⟨rfl, Nat.le_refl _⟩)
    exact h.timeouts.expires hk rfl rfl rfl rfl (fun j hj => .inr hj)
  · next hc =>
    obtain ⟨r, hs, htimed⟩ := (h.timeouts.armed k hk).2 (eq_false_of_ne_true hc)
    refine h.wakeUp hs rfl rfl rfl rfl ?_ rfl ?_ (fun _ => htimed) (.inr (Function.update_self ..))
    · refine h.timeouts.expires hk rfl rfl rfl rfl (fun j hj => ?_)
      by_cases hjk : j = k
      · exact .inl hjk
      · exact .inr ((Function.update_of_ne hjk _ _).symm.trans hj)
    · exact fun hw => ((h.suspension r k hs).woken hw).2

/-- What the scheduler takes from the ready queue was requested in the suspension that it ends. -/
lemma resumable (h : ResumeOk s) {i : Nat} {rest : List Nat} (hready : s.wake.ready = i :: rest)
    {w : TaskWake Nat} (hw : (s.wake.pop i).bind (·.resume) = some w) :
    ∃ r, Resumable { s with wake := w } r i := by
  have hi : i ∈ s.wake.pending := by
    rw [h.settled.ready, hready]
    exact List.mem_cons_self
  have hnumber := h.pending i hi
  cases hs : s.consumer with
  | outside =>
    rw [hs] at hnumber
    cases hnumber
  | suspended r n =>
    rw [hs] at hnumber
    cases hnumber
    have hold := h.suspension r i hs
    refine ⟨r, rfl, h.resumes_suspended hs, settled_resumed h.settled hw, pending_resumed h.settled hw,
      ?_, ?_, h.failures⟩
    · exact h.timeouts.frame hs.symm rfl rfl rfl rfl
    · rcases hold.cause (List.ne_nil_of_mem hi) with hwaiter | hfired
      · exact .inl (hold.woken hwaiter).2
      · exact .inr (hold.fired hfired).2

lemma step {a : UnsafeAction α} (h : ResumeOk s) (hd : DeliveryOk s) (hown : TakesItself s a)
    (hok : ResumesUnqueued s a) (hs : s.step a = some s') : ResumeOk s' := by
  cases a with
  | send values immediately =>
    cases hs
    exact h.send hd hok
  | tryRecv | tryRecvBatch _ =>
    cases hs
    exact h.take hown _
  | await r =>
    simp only [UnsafeRun.step, Option.ite_none_right_eq_some] at hs
    obtain ⟨houtside, hs⟩ := hs
    cases hs
    exact h.await houtside r
  | expire k =>
    simp only [UnsafeRun.step, Option.ite_none_right_eq_some] at hs
    obtain ⟨hk, hs⟩ := hs
    cases hs
    exact h.handleTimeout hk
  | resume =>
    simp only [UnsafeRun.step] at hs
    split at hs
    · cases hs
    · next i rest hready =>
      obtain ⟨w, hw, rfl⟩ := Option.map_eq_some_iff.mp hs
      obtain ⟨r, hr⟩ := h.resumable hready hw
      exact hr.resumed

end ResumeOk

/-- Each suspension of the consumer is resumed once, by a wake-up that was requested in it. -/
structure ResumedOnce (s : UnsafeRun α) : Prop where
  /-- the suspensions that are over have been resumed once each, in their order -/
  resumes : s.resumes ++ s.consumer.number.toList = List.range s.suspensions
  /-- an entry in the ready queue is for the suspension that the consumer is in -/
  queued : ∀ i ∈ s.wake.ready, s.consumer.number = some i
  /-- a consumer that is not going to be resumed has no reason to be -/
  waits : ∀ r n, s.consumer = .suspended r n → s.wake.ready = [] →
    s.channel.hasWaiter = true ∧ s.channel.size < r.request.asked ∧ s.timeouted n = false
  /-- `kTimeout` is returned to receives with a timeout, and to `recvBatched` -/
  failures : FailuresOk s

/-- As long as no send resumes a consumer that is in the ready queue, each suspension is resumed
once. -/
theorem unsafe_channel_resumes_once {wakeMode : UnsafeChannelWakeMode} {s : UnsafeRun α}
    (h : Reaches UnsafeRun.step (fun s a => TakesItself s a ∧ ResumesUnqueued s a)
      (.init wakeMode) s) : ResumedOnce s := by
  have hok : ResumeOk s ∧ DeliveryOk s := by
    refine h.invariant (P := fun s => ResumeOk s ∧ DeliveryOk s) ?_ ?_
    · exact ⟨ResumeOk.init wakeMode, DeliveryOk.init wakeMode⟩
    · exact fun _ _ _ hP hok hs => ⟨hP.1.step hP.2 hok.1 hok.2 hs, hP.2.step hs⟩
  obtain ⟨hr, hd⟩ := hok
  refine ⟨hr.resumes, fun i hi => ?_, fun r n hs hready => ?_, hr.failures⟩
  · exact hr.pending i (hr.settled.ready ▸ hi)
  · have hnil : s.wake.pending = [] := hr.settled.ready.trans hready
    have hold := hr.suspension r n hs
    have hw : s.channel.hasWaiter = true :=
      eq_true_of_ne_false fun hw => (hold.woken hw).1 hnil
    obtain ⟨r', n', hs', hlt, -⟩ := hd.waiting hw
    cases hs.symm.trans hs'
    exact ⟨hw, hlt, eq_false_of_ne_true fun ht => (hold.fired ht).1 hnil⟩

def takesCheck (s : UnsafeRun Nat) : UnsafeAction Nat → Bool
  | .tryRecv => s.consumer = .outside
  | .tryRecvBatch _ => s.consumer = .outside
  | _ => true

def unqueuedCheck (s : UnsafeRun Nat) : UnsafeAction Nat → Bool
  | .send _ _ => s.wake.pending = []
  | _ => true

lemma takesItself_of_check (s : UnsafeRun Nat) (a : UnsafeAction Nat)
    (h : takesCheck s a = true) : TakesItself s a := by
  cases a with
  | tryRecv | tryRecvBatch _ => exact (of_decide_eq_true h : s.consumer = .outside)
  | _ => trivial

lemma resumesUnqueued_of_check (s : UnsafeRun Nat) (a : UnsafeAction Nat)
    (h : unqueuedCheck s a = true) : ResumesUnqueued s a := by
  cases a with
  | send values immediately => exact fun _ _ => of_decide_eq_true h
  | _ => trivial

/-- The first receive is resumed inside the send, and the second by its timer. -/
def resumedTwice : List (UnsafeAction Nat) :=
  [.await ⟨.recv, true⟩, .send [1] false, .await ⟨.recvBatch 4, true⟩, .expire 0, .expire 1,
    .resume, .await ⟨.recvBatched 2, false⟩, .send [2] false]

theorem resumedTwice_resumes_once :
    ∃ s, run UnsafeRun.step (.init .inline) resumedTwice = some s ∧
      s.resumes = [0, 1] ∧ s.consumer = .suspended ⟨.recvBatched 2, false⟩ 2 ∧ ResumedOnce s :=
  ⟨_, rfl, rfl, rfl, @unsafe_channel_resumes_once Nat .inline _ (Reaches.start.of_run
    (fun s a => takesCheck s a && unqueuedCheck s a)
    (fun s a h => (Bool.and_eq_true_iff.mp h).imp (takesItself_of_check s a)
      (resumesUnqueued_of_check s a)) resumedTwice rfl)⟩

/-- The timer has put the consumer into the ready queue when a send resumes it. The entry resumes
the next receive, which finds nothing. -/
def resumedWhileQueued : List (UnsafeAction Nat) :=
  [.await ⟨.recv, true⟩, .expire 0, .send [1] false, .await ⟨.recv, false⟩, .resume]

theorem unsafe_channel_can_resume_twice : ¬∀ (wakeMode : UnsafeChannelWakeMode) (s : UnsafeRun Nat),
    Reaches UnsafeRun.step TakesItself (.init wakeMode) s → ResumedOnce s := by
  intro h
  have hs := h .inline _ (Reaches.start.of_run takesCheck takesItself_of_check
    resumedWhileQueued rfl)
  rcases hs.failures ⟨.recv, false⟩ (by decide) with htimed | ⟨limit, hlimit⟩
  · cases htimed
  · cases hlimit

end GalayKernel.Proofs
