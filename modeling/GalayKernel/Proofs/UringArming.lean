import GalayKernel.Proofs.UringRead

namespace GalayKernel

variable {ι β : Type}

/-- A `recv`, a timer, a close or a completion. -/
def ReadAction.recvOnly : ReadAction β → Bool
  | .recv _ _ sqe => sqe
  | .readv _ _ | .sequence _ _ _ _ => false
  | .complete _ _ _ _ _ | .expire | .resume | .close => true

namespace UringController

variable {ctl ctl' : UringController β}

def Outstanding (ctl : UringController β) : Prop :=
  ∃ r ∈ ctl.requests, r.kind = .multishotRecv ∧ r.generation = ctl.generation

structure ArmingOk (ctl : UringController β) : Prop where
  recv : ∀ rd, ctl.reader = some rd → ∃ capacity, rd.kind = .recv capacity
  owner : ctl.recvMultishotArmed → ctl.owner
  outstanding : ctl.recvMultishotArmed → ctl.Outstanding
  waits : ctl.Waits → ctl.recvMultishotArmed

lemma chunk_delivers {cqe : RecvCqe β} (h : cqe.chunk.isSome) : cqe.delivers := by
  unfold RecvCqe.chunk at h
  unfold RecvCqe.delivers
  split at h <;> simp_all

lemma not_waits_of_reader (h : ctl.reader = none) : ¬ctl.Waits := by
  rintro ⟨rd, -, hrd, -⟩
  cases h.symm.trans hrd

lemma armingOk_init : ArmingOk (.init : UringController β) where
  recv _ hrd := by cases hrd
  owner _ := rfl
  outstanding harmed := by cases harmed
  waits hwaits := absurd hwaits (not_waits_of_reader rfl)

lemma ArmingOk.ended (h : ArmingOk ctl) (hreader : ctl'.reader = none)
    (harmed : ctl'.recvMultishotArmed = ctl.recvMultishotArmed) (howner : ctl'.owner = ctl.owner)
    (hrequests : ctl'.requests = ctl.requests) (hgeneration : ctl'.generation = ctl.generation) :
    ArmingOk ctl' where
  recv rd hrd := by cases hreader.symm.trans hrd
  owner := by
    rw [harmed, howner]
    exact h.owner
  outstanding := by
    unfold Outstanding
    rw [harmed, hrequests, hgeneration]
    exact h.outstanding
  waits hwaits := absurd hwaits (not_waits_of_reader hreader)

lemma ArmingOk.recv_step (h : ArmingOk ctl) (capacity : Nat)
    (timed : Bool) : ArmingOk (ctl.recv capacity timed true).1 := by
  unfold UringController.recv
  dsimp only
  split
  · next consumed hconsumed =>
    rw [finish_recv _ rfl]
    exact h.ended rfl rfl rfl rfl rfl
  · split
    · next harmed =>
      exact ⟨fun rd hrd => by cases hrd; exact ⟨capacity, rfl⟩, h.owner, h.outstanding,
        fun _ => harmed⟩
    · split
      · rw [finish_recv _ rfl]
        exact h.ended rfl rfl rfl rfl rfl
      · refine ⟨fun rd hrd => by cases hrd; exact ⟨capacity, rfl⟩, fun _ => rfl, fun _ => ?_,
          fun _ => rfl⟩
        exact ⟨_, List.mem_append_right _ (List.mem_singleton.mpr rfl), rfl, rfl⟩

/-- `processRecvCompletion` ends the request only when nobody is left to wait for it. -/
lemma ArmingOk.staged (h : ArmingOk ctl) {r : UringRequest} {cqe : RecvCqe β}
    (hstarves : cqe.more = false → cqe.chunk = none → ¬ctl.Waits) :
    ArmingOk (((ctl.post r cqe).dispatch r none).processRecvCompletion cqe).1 := by
  have howner : (ctl.recvMultishotArmed && cqe.more) = true → ctl.owner := by
    rw [Bool.and_eq_true]
    exact fun harmed => h.owner harmed.1
  have houtstanding : (ctl.recvMultishotArmed && cqe.more) = true →
      (ctl.post r cqe).Outstanding := by
    rw [Bool.and_eq_true]
    rintro ⟨harmed, hmore⟩
    simpa [Outstanding, post, hmore] using h.outstanding harmed
  obtain ⟨hsame, hstuck⟩ | ⟨rd, capacity, consumed, hrd, hslot, hkind, -, -, -, hdeliver⟩ :=
    processRecvCompletion_cases ((ctl.post r cqe).dispatch r none) cqe
  · rw [hsame]
    refine ⟨h.recv, howner, houtstanding, fun hwaits => ?_⟩
    refine Bool.and_eq_true_iff.mpr ⟨h.waits hwaits, ?_⟩
    by_contra hmore
    rw [Bool.not_eq_true] at hmore
    cases hchunk : cqe.chunk with
    | none => exact hstarves hmore hchunk hwaits
    | some chunk =>
      have hnil := hstuck hwaits (chunk_delivers (by rw [hchunk]; rfl))
      simp [stage, hchunk] at hnil
  · rw [hdeliver]
    refine ⟨fun rd' hrd' => ?_, howner, houtstanding, ?_⟩
    · cases hrd'
      exact ⟨capacity, hkind⟩
    · rintro ⟨-, -, -, -, -, hassigned⟩
      cases hassigned

lemma ArmingOk.dropped (h : ArmingOk ctl) {r : UringRequest} {cqe : RecvCqe β}
    (hdropped : r.generation ≠ ctl.generation ∨ ctl.owner = false ∨
      ctl.awaitable = none ∧ ctl.recvMultishotArmed = false) : ArmingOk (ctl.post r cqe) := by
  refine ⟨h.recv, h.owner, fun harmed => ?_, h.waits⟩
  obtain ⟨r', hr', hkind, hgeneration⟩ := h.outstanding harmed
  refine ⟨r', ?_, hkind, hgeneration⟩
  have hne : r' ≠ r := by
    rintro rfl
    obtain hne | howner | ⟨-, hunarmed⟩ := hdropped
    · exact hne hgeneration
    · cases howner.symm.trans (h.owner harmed)
    · cases hunarmed.symm.trans harmed
  unfold post
  dsimp only
  split
  · exact hr'
  · exact (List.mem_erase_of_ne hne).mpr hr'

/-- The completion ends the request while a `recv` waits for it, and delivers nothing. -/
def starves (ctl : UringController β) : ReadAction β → Bool
  | .complete r cqe _ _ _ =>
    ctl.stages r && !cqe.more && cqe.chunk.isNone &&
      (ctl.awaitable.isSome && !ctl.recvResultAssigned)
  | _ => false

lemma ArmingOk.step (h : ArmingOk ctl) {ring : List Nat} {a : ReadAction β}
    {out : UringController β × List Nat} (hok : a.recvOnly = true ∧ ctl.starves a = false)
    (hs : ctl.step ring a = some out) : ArmingOk out.1 := by
  obtain ⟨hrecv, hstarves⟩ := hok
  cases a with
  | recv capacity timed sqe =>
    simp only [UringController.step, Option.ite_none_right_eq_some, Option.some.injEq] at hs
    cases hs.2
    cases (show sqe = true from hrecv)
    exact h.recv_step capacity timed
  | readv timed sqe => cases hrecv
  | sequence first timed script sqe => cases hrecv
  | complete r cqe next script sqe =>
    simp only [UringController.step, Option.ite_none_right_eq_some, Option.some.injEq] at hs
    obtain ⟨-, rfl⟩ := hs
    have hcompletes := (ctl.post r cqe).processCompletion_completes r cqe next script sqe
    generalize (ctl.post r cqe).processCompletion r cqe next script sqe = out at hcompletes
    cases hcompletes with
    | staged hstages =>
      refine h.staged fun hmore hchunk => ?_
      rintro ⟨rd, capacity, hrd, hslot, hkind, hassigned⟩
      have hstages : ctl.stages r = true := hstages
      simp [starves, hstages, hmore, hchunk, awaitable_eq_some.mpr ⟨hrd, hslot⟩, hassigned] at hstarves
    | dropped hstages hdropped => exact h.dropped hdropped
    | readv rd hrd hslot hkind =>
      obtain ⟨capacity, hrecv⟩ := h.recv rd hrd
      cases hrecv.symm.trans hkind
    | sequence rd active hrd hslot hkind =>
      obtain ⟨capacity, hrecv⟩ := h.recv rd hrd
      cases hrecv.symm.trans hkind
  | expire =>
    simp only [UringController.step] at hs
    split at hs
    · next rd hrd =>
      split at hs
      · cases hs
        obtain ⟨capacity, hkind⟩ := h.recv rd hrd
        refine ⟨fun rd' hrd' => by cases hrd'; exact ⟨capacity, hkind⟩, h.owner, h.outstanding, ?_⟩
        rintro ⟨rd', -, hrd', hslot, -, hassigned⟩
        cases hrd'
        exact h.waits ⟨rd, capacity, hrd, hslot, hkind, hassigned⟩
      · cases hs
    · cases hs
  | resume =>
    simp only [UringController.step] at hs
    split at hs
    · next rd hrd =>
      split at hs
      · cases hs
        obtain ⟨capacity, hkind⟩ := h.recv rd hrd
        rw [finish_recv ctl hkind]
        exact h.ended rfl rfl rfl rfl rfl
      · cases hs
    · cases hs
  | close =>
    simp only [UringController.step, Option.some.injEq] at hs
    subst hs
    unfold close
    split
    · exact h
    · refine ⟨fun rd' hrd' => ?_, fun harmed => (by cases harmed),
        fun harmed => (by cases harmed), ?_⟩
      · obtain ⟨rd, hrd, rfl⟩ := Option.map_eq_some_iff.mp hrd'
        exact h.recv rd hrd
      · rintro ⟨rd', -, hrd', hslot, -⟩
        obtain ⟨rd, -, rfl⟩ := Option.map_eq_some_iff.mp hrd'
        cases hslot

end UringController

end GalayKernel

namespace GalayKernel.Proofs

open Transition UringController

variable {ι β : Type} [DecidableEq ι] {s : UringReads ι β}

/-- A `recv` in the slot of `c` that has no result has a multishot request outstanding. -/
def RecvArmed (c : ι) (s : UringReads ι β) : Prop :=
  (s.controllers c).Waits → (s.controllers c).Outstanding

/-- When ENOBUFS, EAGAIN and EINTR end a request only while no `recv` waits, a waiting `recv` is
armed in every run of `recv` calls, timers, closes and completions on its controller. -/
theorem recv_stays_armed (c : ι) (h : Reaches UringReads.step
    (fun s a => a.1 = c → a.2.recvOnly = true ∧ (s.controllers c).starves a.2 = false)
    (.init : UringReads ι β) s) : RecvArmed c s := by
  have hok := UringReads.invariant c armingOk_init (fun _ _ _ _ hok ha hs => hok.step ha hs) h
  exact fun hwaits => hok.outstanding (hok.waits hwaits)

/-- A second `recv` waits when the first has been given its bytes. EINTR ends the request while
nobody waits, and the third `recv` submits it again. -/
def receivesAgain : List (Unit × ReadAction Nat) :=
  [((), .recv 4 false true),
    ((), .complete ⟨.multishotRecv, 1, 0⟩ ⟨.bytes [1, 2], true, some 0⟩ none [] true),
    ((), .resume), ((), .recv 4 true true), ((), .expire), ((), .resume),
    ((), .complete ⟨.multishotRecv, 1, 0⟩ ⟨.failed EINTR, false, none⟩ none [] true),
    ((), .recv 4 false true)]

theorem receivesAgain_stays_armed : ∃ s, run UringReads.step .init receivesAgain = some s ∧
    (s.controllers ()).Waits ∧ RecvArmed () s :=
  ⟨_, rfl, ⟨_, _, rfl, rfl, rfl, rfl⟩, recv_stays_armed () (Reaches.start.of_run
    (fun s a => a.2.recvOnly && !(s.controllers ()).starves a.2) (fun _ _ h _ => by simpa using h)
    receivesAgain rfl)⟩

theorem recv_can_lose_request : ¬∀ s : UringReads Unit Nat,
    Reaches UringReads.step (fun _ a => a.1 = () → a.2.recvOnly = true) .init s →
      RecvArmed () s := by
  intro h
  obtain ⟨r, hr, -⟩ := h _ (Reaches.start.of_run (fun _ a => a.2.recvOnly) (fun _ _ h _ => h)
    [((), .recv 4 false true),
      ((), .complete ⟨.multishotRecv, 1, 0⟩ ⟨.failed EAGAIN, false, none⟩ none [] true)] rfl)
    ⟨_, _, rfl, rfl, rfl, rfl⟩
  cases hr

end GalayKernel.Proofs
