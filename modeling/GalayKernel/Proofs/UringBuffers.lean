import GalayKernel.Proofs.UringRead
import Mathlib.Data.List.Count
import Mathlib.Data.List.Nodup

namespace GalayKernel

variable {ι β : Type}

namespace UringController

variable {ctl ctl' : UringController β}

lemma bids_append (l l' : List (ReadyRecvChunk β)) : bids (l ++ l') = bids l ++ bids l' :=
  List.filterMap_append

lemma bids_chunk {r : UringRequest} {cqe : RecvCqe β} {ring : List Nat}
    (h : r.kind.posts cqe ring) :
    bids cqe.chunk.toList = cqe.buffer.toList := by
  cases hbuffer : cqe.buffer with
  | none =>
    simp only [RecvCqe.chunk, hbuffer]
    split
    · rfl
    · rfl
    · split <;> rfl
  | some bid =>
    obtain ⟨-, hbid, first, rest, hres⟩ := RequestKind.posts_buffer h hbuffer
    simp [RecvCqe.chunk, hbuffer, hres, hbid, bids]

@[simp] lemma finish_readyRecvs (ctl : UringController β) (rd : Reader β) :
    (ctl.finish rd).readyRecvs = ctl.readyRecvs := by
  unfold finish
  cases rd.kind with
  | recv => rfl
  | readv => cases rd.inSlot <;> rfl
  | sequence => cases rd.inSlot <;> rfl

lemma deliver_bids (ctl : UringController β) (cqe : RecvCqe β) :
    (ctl.deliver cqe).2 ++ bids (ctl.deliver cqe).1.readyRecvs = bids ctl.readyRecvs := by
  obtain ⟨hsame, -⟩ | ⟨rd, capacity, consumed, -, -, -, -, -, hconsumed, hdeliver⟩ :=
    ctl.deliver_cases cqe
  · rw [hsame]
    rfl
  · rw [hdeliver, ← hconsumed]
    exact consumeReadyRecvs_bids capacity [] ctl.readyRecvs

lemma recv_bids (ctl : UringController β) (capacity : Nat) (timed sqe : Bool) :
    (ctl.recv capacity timed sqe).2 ++ bids (ctl.recv capacity timed sqe).1.readyRecvs =
      bids ctl.readyRecvs := by
  unfold recv
  dsimp only
  split
  · next consumed hconsumed =>
    obtain ⟨-, hconsumed⟩ := tryConsumeReadyRecv_eq_some hconsumed
    rw [finish_readyRecvs, ← hconsumed]
    exact consumeReadyRecvs_bids capacity [] ctl.readyRecvs
  · split
    · rfl
    · split
      · simp
      · split
        · simp [advanceSqeGeneration]
        · rfl

lemma sequence_readyRecvs (ctl : UringController β) (first : SequenceRead) (timed : Bool)
    (script : List (CqeRes β × Option SequenceRead)) (sqe : Bool) :
    (ctl.sequence first timed script sqe).readyRecvs = ctl.readyRecvs := by
  have hsubmits := submitSequenceSqe_submits { ctl with calls := ctl.calls + 1 }
    { Reader.init ctl.calls (.sequence first) timed with inSlot := false } first script sqe rfl
    ⟨first, rfl⟩
  unfold sequence
  dsimp only
  split
  · rw [hsubmits.frame]
  · rw [finish_readyRecvs, hsubmits.frame]

lemma completeReadv_readyRecvs (ctl : UringController β) (rd : Reader β) (r : UringRequest)
    (cqe : RecvCqe β) (sqe : Bool) :
    (ctl.completeReadv rd r cqe sqe).readyRecvs = ctl.readyRecvs := by
  unfold completeReadv
  split
  · rfl
  · cases sqe <;> rfl

lemma processRecvCompletion_bids (ctl : UringController β) (cqe : RecvCqe β) :
    (ctl.processRecvCompletion cqe).2 ++ bids (ctl.processRecvCompletion cqe).1.readyRecvs =
      bids ctl.readyRecvs ++ bids cqe.chunk.toList := by
  rw [← bids_append]
  exact deliver_bids { ctl with readyRecvs := ctl.readyRecvs ++ cqe.chunk.toList } cqe

lemma Completes.bids {r : UringRequest} {cqe : RecvCqe β} {next : Option SequenceRead}
    {script : List (CqeRes β × Option SequenceRead)} {sqe : Bool} {out : UringController β × List Nat}
    (h : Completes ctl r cqe next script sqe out) (hchunk : bids cqe.chunk.toList = cqe.buffer.toList)
    (hclaims : cqe.buffer.isNone || ctl.stages r) :
    out.2 ++ UringController.bids out.1.readyRecvs =
      UringController.bids ctl.readyRecvs ++ cqe.buffer.toList := by
  have hnone : ctl.stages r = false → cqe.buffer = none := by
    intro hstages
    simpa [hstages] using hclaims
  cases h with
  | staged h =>
    rw [← hchunk]
    exact (ctl.dispatch r none).processRecvCompletion_bids cqe
  | dropped hstages => simp [hnone hstages]
  | readv rd _ _ _ hstages =>
    rw [completeReadv_readyRecvs, hnone hstages]
    simp [dispatch]
  | sequence rd active _ _ hkind hstages =>
    rw [(completeSequence_submits (ctl.dispatch r (some rd.call)) rd active r cqe next script sqe
      hkind).frame, hnone hstages]
    simp [dispatch, advanceSqeGeneration]

/-- A buffer that a completion hands over is staged. -/
def claimsBuffer (ctl : UringController β) : ReadAction β → Bool
  | .complete r cqe _ _ _ => cqe.buffer.isNone || ctl.stages r
  | _ => true

lemma step_bids {ring released : List Nat} {a : ReadAction β} (hclaims : ctl.claimsBuffer a)
    (h : ctl.step ring a = some (ctl', released)) :
    released ++ bids ctl'.readyRecvs = bids ctl.readyRecvs ++ a.buffer.toList := by
  cases a with
  | recv capacity timed sqe =>
    simp only [step, Option.ite_none_right_eq_some, Option.some.injEq] at h
    have hbids := ctl.recv_bids capacity timed sqe
    rw [h.2] at hbids
    simpa [ReadAction.buffer] using hbids
  | readv timed sqe =>
    simp only [step, Option.ite_none_right_eq_some, Option.some.injEq] at h
    cases h.2
    unfold readv
    cases sqe <;> simp [ReadAction.buffer, advanceSqeGeneration, submit]
  | sequence first timed script sqe =>
    simp only [step, Option.ite_none_right_eq_some, Option.some.injEq] at h
    cases h.2
    simp [sequence_readyRecvs, ReadAction.buffer]
  | complete r cqe next script sqe =>
    simp only [step, Option.ite_none_right_eq_some, Option.some.injEq, Bool.and_eq_true] at h
    obtain ⟨⟨-, hposts⟩, h⟩ := h
    have hcompletes := (ctl.post r cqe).processCompletion_completes r cqe next script sqe
    rw [h] at hcompletes
    exact hcompletes.bids (bids_chunk hposts) hclaims
  | expire =>
    simp only [step] at h
    split at h
    · split at h
      · cases h
        simp [ReadAction.buffer]
      · cases h
    · cases h
  | resume =>
    simp only [step] at h
    split at h
    · split at h
      · cases h
        simp [ReadAction.buffer]
      · cases h
    · cases h
  | close =>
    simp only [step, close, Option.some.injEq] at h
    split at h <;> cases h <;> simp [ReadAction.buffer, bids]

lemma step_buffer_mem {ring : List Nat} {a : ReadAction β} {bid : Nat}
    {out : UringController β × List Nat} (h : ctl.step ring a = some out)
    (hbid : a.buffer = some bid) : bid ∈ ring := by
  cases a with
  | complete r cqe next script sqe =>
    simp only [step, Option.ite_none_right_eq_some, Bool.and_eq_true] at h
    exact (RequestKind.posts_buffer h.1.2 hbid).1
  | _ => cases hbid

end UringController

end GalayKernel

namespace GalayKernel.Proofs

open Transition UringController

variable {ι β : Type} {s s' : UringReads ι β}

def stagedBy (s : UringReads ι β) (bid : Nat) (c : ι) : Nat :=
  (bids (s.controllers c).readyRecvs).count bid

/-- Each buffer lies in the ring or is held by one staged chunk of one controller. It has been
handed over once more than it has gone back as long as it is held. -/
def BuffersConserved (s : UringReads ι β) : Prop :=
  ∀ bid < kRecvBufferCount, HeldOnce (s.ring.count bid) (stagedBy s bid) ∧
    s.handedOver.count bid + s.ring.count bid = s.recycled.count bid + 1

lemma buffersConserved_init : BuffersConserved (.init : UringReads ι β) := by
  intro bid hbid
  have hring : (.init : UringReads ι β).ring = List.range kRecvBufferCount := by
    rw [UringReads.init]
  rw [hring, List.count_eq_one_of_mem List.nodup_range (List.mem_range.mpr hbid)]
  exact ⟨.inl ⟨rfl, fun _ => rfl⟩, rfl⟩

variable [DecidableEq ι]

/-- A completion that hands over a buffer is staged. -/
def stagesBuffer (s : UringReads ι β) (a : ι × ReadAction β) : Bool :=
  (s.controllers a.1).claimsBuffer a.2

lemma BuffersConserved.step (h : BuffersConserved s) {a : ι × ReadAction β}
    (hok : stagesBuffer s a) (hs : s.step a = some s') : BuffersConserved s' := by
  obtain ⟨c, a⟩ := a
  rw [UringReads.step, Option.map_eq_some_iff] at hs
  obtain ⟨⟨ctl, released⟩, hstep, rfl⟩ := hs
  have hok : (s.controllers c).claimsBuffer a := hok
  intro bid hbid
  obtain ⟨hheld, hreturned⟩ := h bid hbid
  have hcount := congrArg (List.count bid) (step_bids hok hstep)
  rw [List.count_append, List.count_append] at hcount
  have hring : a.buffer.toList.count bid ≤ s.ring.count bid := by
    cases hbuffer : a.buffer with
    | none => exact Nat.zero_le _
    | some bid' =>
      have hmem := List.count_pos_iff.mpr (step_buffer_mem hstep hbuffer)
      by_cases heq : bid' = bid
      · subst heq
        simpa using hmem
      · simp [heq]
  simp only [List.count_append, List.count_diff]
  refine ⟨hheld.exchange c (fun d hd => ?_) ?_, by omega⟩
  · simp [stagedBy, Function.update_of_ne hd]
  · simp only [stagedBy, Function.update_self]
    omega

/-- When every completion that hands over a buffer is staged, no buffer is lost. -/
theorem buffers_conserved (h : Reaches UringReads.step (fun s a => stagesBuffer s a = true)
    (.init : UringReads ι β) s) : BuffersConserved s :=
  h.invariant buffersConserved_init fun _ _ _ hok ha hs => hok.step ha hs

def firstMultishot : UringRequest := ⟨.multishotRecv, 1, 0⟩

/-- Two controllers receive into buffers 0 and 1. The first takes its bytes in two reads, and the
second is closed while its buffer is staged. -/
def twoReceivers : List (Bool × ReadAction Nat) :=
  [(true, .recv 2 false true), (false, .recv 2 true true), (false, .expire), (false, .resume),
    (true, .complete firstMultishot ⟨.bytes [7, 8, 9], true, some 0⟩ none [] true),
    (false, .complete firstMultishot ⟨.bytes [5], true, some 1⟩ none [] true),
    (true, .resume), (true, .recv 2 false true), (false, .close)]

theorem twoReceivers_buffers_conserved : ∃ s, run (guarded stagesBuffer UringReads.step) .init
    twoReceivers = some s ∧ BuffersConserved s :=
  ⟨_, rfl, buffers_conserved (Reaches.start.of_run stagesBuffer (fun _ _ h => h) twoReceivers rfl)⟩

/-- The kernel has filled a buffer when the controller is closed. -/
def bufferAfterClose : List (Unit × ReadAction Nat) :=
  [((), .recv 2 false true), ((), .close),
    ((), .complete firstMultishot ⟨.bytes [7], true, some 0⟩ none [] true)]

theorem buffers_can_leak :
    ¬∀ s : UringReads Unit Nat, Reaches UringReads.step (fun _ _ => True) .init s →
      BuffersConserved s := by
  intro h
  obtain ⟨s, hrun, hhanded, hrecycled, hstaged⟩ :
      ∃ s, run UringReads.step .init bufferAfterClose = some s ∧
        s.handedOver = [0] ∧ s.recycled = [] ∧ stagedBy s 0 () = 0 := ⟨_, rfl, rfl, rfl, rfl⟩
  obtain ⟨hheld, hcount⟩ :=
    h s (Reaches.start.of_replay bufferAfterClose hrun) 0 (by decide)
  rw [hhanded, hrecycled, List.count_nil, List.count_singleton_self] at hcount
  obtain ⟨hin, -⟩ | ⟨-, c, hone, -⟩ := hheld
  · omega
  · cases hstaged.symm.trans hone

end GalayKernel.Proofs
