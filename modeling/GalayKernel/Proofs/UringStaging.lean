import GalayKernel.Proofs.UringStream

namespace GalayKernel

variable {ι β : Type}

inductive RecvItem (β : Type) where
  | byte (b : Option β)
  | eof
  | failed (errno : Nat)
  deriving DecidableEq, Repr

/-- What a completion adds to the stream. ENOBUFS, EAGAIN and EINTR add nothing. -/
def CqeRes.items : CqeRes β → List (RecvItem β)
  | .bytes [] => [.eof]
  | .bytes (first :: rest) => (first :: rest).map fun b => .byte (some b)
  | .failed errno => if transient errno || errno == ENOBUFS then [] else [.failed errno]

/-- What a result of `recv` tells the program about the stream; 0 stands for its end. -/
def ReadResult.items : ReadResult β → List (RecvItem β)
  | .bytes [] => [.eof]
  | .bytes (first :: rest) => (first :: rest).map .byte
  | .failed errno => [.failed errno]
  | .disconnect | .refused _ | .timeout => []

def ReadyRecvChunk.items : ReadyRecvChunk β → List (RecvItem β)
  | .buffer _ data => data.map fun b => .byte (some b)
  | .eof => [.eof]
  | .error errno => [.failed errno]

def ReadyRecvChunk.Filled : ReadyRecvChunk β → Prop
  | .buffer _ data => data ≠ []
  | _ => True

/-- Only `recv` is used, with a buffer that is not empty. -/
def ReadAction.plainRecv : ReadAction β → Bool
  | .recv capacity _ _ => 0 < capacity
  | .complete _ _ _ _ _ | .resume => true
  | _ => false

lemma ReadResult.items_bytes {data : List β} (h : data ≠ []) :
    (ReadResult.bytes (received true data)).items = data.map fun b => .byte (some b) := by
  cases data with
  | nil => exact absurd rfl h
  | cons first rest => simp [ReadResult.items]

lemma consumeReadyRecvs_items (capacity : Nat) (total : List β)
    (readyRecvs : List (ReadyRecvChunk β)) (hfilled : ∀ chunk ∈ readyRecvs, chunk.Filled)
    (hcapacity : total.length < capacity) (hsome : total ≠ [] ∨ readyRecvs ≠ []) :
    (consumeReadyRecvs capacity total readyRecvs).result.result.items ++
        (consumeReadyRecvs capacity total readyRecvs).rest.flatMap ReadyRecvChunk.items =
      total.map (fun b => .byte (some b)) ++ readyRecvs.flatMap ReadyRecvChunk.items ∧
    ∀ chunk ∈ (consumeReadyRecvs capacity total readyRecvs).rest, chunk.Filled := by
  induction readyRecvs generalizing total with
  | nil =>
    have htotal : total ≠ [] := hsome.resolve_right (· rfl)
    refine ⟨?_, hfilled⟩
    simp only [consumeReadyRecvs, CqeRes.result, ReadResult.items_bytes htotal, List.flatMap_nil]
  | cons chunk rest ih =>
    have hrest : ∀ chunk ∈ rest, chunk.Filled := fun chunk hchunk =>
      hfilled chunk (List.mem_cons_of_mem _ hchunk)
    cases chunk with
    | eof =>
      cases total with
      | nil => exact ⟨rfl, hrest⟩
      | cons first total =>
        refine ⟨?_, hfilled⟩
        simp [consumeReadyRecvs, CqeRes.result, ReadResult.items]
    | error errno =>
      cases total with
      | nil => exact ⟨rfl, hrest⟩
      | cons first total =>
        refine ⟨?_, hfilled⟩
        simp [consumeReadyRecvs, CqeRes.result, ReadResult.items]
    | buffer bid data =>
      have hdata : data ≠ [] := hfilled _ List.mem_cons_self
      have hsplit := List.take_append_drop (capacity - total.length) data
      have hcopied : total ++ data.take (capacity - total.length) ≠ [] := by
        intro hnil
        rw [List.append_eq_nil_iff, List.take_eq_nil_iff] at hnil
        obtain ⟨-, hzero | hnil⟩ := hnil
        · omega
        · exact hdata hnil
      simp only [consumeReadyRecvs]
      split
      · next hleft =>
        rw [List.isEmpty_iff] at hleft
        rw [hleft, List.append_nil] at hsplit
        rw [hsplit] at hcopied ⊢
        split
        · refine ⟨?_, hrest⟩
          simp only [CqeRes.result, ReadResult.items_bytes hcopied, List.map_append,
            List.flatMap_cons, ReadyRecvChunk.items, List.append_assoc]
        · next hfull =>
          obtain ⟨hitems, hfilled'⟩ := ih (total ++ data) hrest (Nat.lt_of_not_le hfull)
            (.inl hcopied)
          refine ⟨?_, hfilled'⟩
          rw [hitems]
          simp [ReadyRecvChunk.items]
      · next hleft =>
        refine ⟨?_, fun chunk hchunk => ?_⟩
        · simp only [CqeRes.result, ReadResult.items_bytes hcopied, List.map_append,
            List.flatMap_cons, ReadyRecvChunk.items, List.append_assoc]
          rw [← List.append_assoc (List.map _ (data.take _)), ← List.map_append, hsplit]
        · obtain rfl | hchunk := List.mem_cons.mp hchunk
          · simpa [ReadyRecvChunk.Filled] using hleft
          · exact hrest chunk hchunk

namespace UringController

variable {ctl ctl' : UringController β} {r : UringRequest} {cqe : RecvCqe β}

/-- The stream that the completions have made is the one that the program has got, with what is
still staged. -/
structure ItemsOk (ctl : UringController β) : Prop where
  items : ctl.posted.flatMap CqeRes.items = ctl.results.flatMap ReadResult.items ++
    ctl.readyRecvs.flatMap ReadyRecvChunk.items
  filled : ∀ chunk ∈ ctl.readyRecvs, chunk.Filled
  recv : ∀ rd, ctl.reader = some rd → ∃ capacity, rd.kind = .recv capacity ∧ 0 < capacity

lemma chunk_items (hkind : r.kind = .multishotRecv) {ring : List Nat}
    (hposts : r.kind.posts cqe ring) :
    cqe.chunk.toList.flatMap ReadyRecvChunk.items = cqe.res.items ∧
      ∀ chunk ∈ cqe.chunk, chunk.Filled := by
  simp only [hkind, RequestKind.posts] at hposts
  split at hposts
  · next first rest bid hres hbuffer =>
    rw [Bool.and_eq_true, decide_eq_true_eq, decide_eq_true_eq] at hposts
    simp [RecvCqe.chunk, hres, hbuffer, hposts.2, ReadyRecvChunk.items, CqeRes.items,
      ReadyRecvChunk.Filled]
  · next hres hbuffer =>
    simp [RecvCqe.chunk, hres, ReadyRecvChunk.items, CqeRes.items, ReadyRecvChunk.Filled]
  · next errno hres hbuffer =>
    simp only [RecvCqe.chunk, hres, CqeRes.items]
    split <;> simp [ReadyRecvChunk.items, ReadyRecvChunk.Filled]
  · cases hposts

lemma ItemsOk.recv_step (h : ItemsOk ctl) (hreader : ctl.reader = none) {capacity : Nat}
    (hcapacity : 0 < capacity) (timed sqe : Bool) : ItemsOk (ctl.recv capacity timed sqe).1 := by
  have hitems := h.items
  simp only [results, hreader, Option.toList_none, List.flatMap_nil, List.append_nil] at hitems
  unfold UringController.recv
  dsimp only
  split
  · next consumed hconsumed =>
    obtain ⟨hne, rfl⟩ := tryConsumeReadyRecv_eq_some hconsumed
    obtain ⟨hstream, hfilled⟩ :=
      consumeReadyRecvs_items capacity [] ctl.readyRecvs h.filled hcapacity (.inr hne)
    rw [finish_recv _ rfl]
    refine ⟨?_, hfilled, fun rd hrd => by cases hrd⟩
    simp only [results, consume, Reader.outcome, Reader.init, Option.toList_some, Option.toList_none,
      Bool.false_eq_true, if_false, List.flatMap_nil, List.append_nil, List.flatMap_append,
      List.flatMap_singleton, List.append_assoc, hstream, List.map_nil, List.nil_append]
    exact hitems
  · split
    · refine ⟨?_, h.filled, fun rd hrd => ?_⟩
      · simpa [results, Reader.outcome, Reader.init] using hitems
      · cases hrd
        exact ⟨capacity, rfl, hcapacity⟩
    · split
      · rw [finish_recv _ rfl]
        refine ⟨?_, h.filled, fun rd hrd => by cases hrd⟩
        simpa [results, Reader.outcome, Reader.init, ReadResult.items] using hitems
      · split
        · rw [finish_recv _ rfl]
          refine ⟨?_, h.filled, fun rd hrd => by cases hrd⟩
          simpa [results, Reader.outcome, Reader.init, ReadResult.items, advanceSqeGeneration]
            using hitems
        · refine ⟨?_, h.filled, fun rd hrd => ?_⟩
          · simpa [results, Reader.outcome, Reader.init, advanceSqeGeneration, submit] using hitems
          · cases hrd
            exact ⟨capacity, rfl, hcapacity⟩

lemma ItemsOk.stage (h : ItemsOk ctl) (hkind : r.kind = .multishotRecv) {ring : List Nat}
    (hposts : r.kind.posts cqe ring) :
    ItemsOk (((ctl.post r cqe).dispatch r none).stage cqe) := by
  obtain ⟨hchunk, hfilled⟩ := chunk_items hkind hposts
  refine ⟨?_, fun chunk hmem => ?_, h.recv⟩
  · have hitems := h.items
    show (if r.kind = .multishotRecv then ctl.posted ++ [cqe.res] else ctl.posted).flatMap
      CqeRes.items = ctl.results.flatMap ReadResult.items ++
        (ctl.readyRecvs ++ cqe.chunk.toList).flatMap ReadyRecvChunk.items
    rw [if_pos hkind, List.flatMap_append, List.flatMap_singleton, List.flatMap_append, hchunk,
      hitems, List.append_assoc]
  · obtain hmem | hmem := List.mem_append.mp hmem
    · exact h.filled chunk hmem
    · exact hfilled chunk (Option.mem_toList.mp hmem)

lemma ItemsOk.staged (h : ItemsOk ctl) (hreads : ReadsOk ctl) (hkind : r.kind = .multishotRecv)
    {ring : List Nat} (hposts : r.kind.posts cqe ring) :
    ItemsOk (((ctl.post r cqe).dispatch r none).processRecvCompletion cqe).1 := by
  have hstage := h.stage hkind hposts
  obtain ⟨hsame, -⟩ | ⟨rd, capacity, consumed, hrd, hslot, hrecv, hassigned, hne, hconsumed,
      hdeliver⟩ := processRecvCompletion_cases ((ctl.post r cqe).dispatch r none) cqe
  · rw [hsame]
    exact hstage
  · obtain ⟨capacity', hkind', hcapacity⟩ := h.recv rd hrd
    cases hrecv.symm.trans hkind'
    have hreader := hreads.reader rd hrd
    have hfresh : rd.outcome = [] := by
      simp [Reader.outcome, hrecv, hreader.untimed, hreader.fresh (by rw [hrecv]; rfl) hassigned]
    have houtcome : ({ rd with
        result := some consumed.result.result, woken := true } : Reader β).outcome =
        [consumed.result.result] := by
      simp [Reader.outcome, hrecv, hreader.untimed]
    obtain ⟨hitems, hfilled⟩ := consumeReadyRecvs_items capacity [] _ hstage.filled hcapacity
      (.inr hne)
    rw [hconsumed] at hitems hfilled
    rw [hdeliver]
    refine ⟨?_, hfilled, fun rd' hrd' => ?_⟩
    · have hposted := hstage.items
      simp only [results, hrd, Option.toList_some, List.flatMap_singleton, hfresh,
        List.append_nil] at hposted
      simp only [results, Option.toList_some, List.flatMap_singleton, houtcome,
        List.flatMap_append, List.append_assoc, hitems, List.map_nil, List.nil_append]
      exact hposted
    · cases hrd'
      exact ⟨capacity, hrecv, hcapacity⟩

lemma ItemsOk.step (h : StreamOk ctl ∧ ItemsOk ctl) {ring : List Nat} {a : ReadAction β}
    {out : UringController β × List Nat} (hok : a.plainRecv = true)
    (hs : ctl.step ring a = some out) : StreamOk out.1 ∧ ItemsOk out.1 := by
  obtain ⟨hstream, hitems⟩ := h
  refine ⟨hstream.step ?_ hs, ?_⟩
  · cases a <;> first | exact ⟨rfl, rfl⟩ | cases hok
  · cases a with
    | recv capacity timed sqe =>
      simp only [UringController.step, Option.ite_none_right_eq_some, Option.some.injEq,
        Option.isNone_iff_eq_none] at hs
      obtain ⟨hreader, rfl⟩ := hs
      exact hitems.recv_step hreader (of_decide_eq_true hok) timed sqe
    | complete r cqe next script sqe =>
      simp only [UringController.step, Option.ite_none_right_eq_some, Option.some.injEq,
        Bool.and_eq_true, decide_eq_true_eq] at hs
      obtain ⟨⟨hr, hposts⟩, rfl⟩ := hs
      have hrecv : ∀ rd, ctl.reader = some rd → rd.kind.isRecv := by
        intro rd hrd
        obtain ⟨capacity, hkind, -⟩ := hitems.recv rd hrd
        rw [hkind]
        rfl
      have hcompletes := (ctl.post r cqe).processCompletion_completes r cqe next script sqe
      generalize (ctl.post r cqe).processCompletion r cqe next script sqe = out at hcompletes
      cases hcompletes with
      | staged =>
        exact hitems.staged hstream.reads ((hstream.reads.current r hr).kind_eq hrecv) hposts
      | dropped _ hdropped => exact absurd hdropped (hstream.not_dropped hr)
      | readv rd hrd _ hkind =>
        have hisRecv := hrecv rd hrd
        rw [hkind] at hisRecv
        cases hisRecv
      | sequence rd active hrd _ hkind =>
        have hisRecv := hrecv rd hrd
        rw [hkind] at hisRecv
        cases hisRecv
    | resume =>
      simp only [UringController.step] at hs
      split at hs
      · next rd hrd =>
        split at hs
        · cases hs
          obtain ⟨capacity, hkind, -⟩ := hitems.recv rd hrd
          rw [finish_recv ctl hkind]
          refine ⟨?_, hitems.filled, fun rd' hrd' => by cases hrd'⟩
          have hposted := hitems.items
          simpa [results, hrd] using hposted
        · cases hs
      · cases hs
    | _ => cases hok

lemma itemsOk_init : ItemsOk (.init : UringController β) where
  items := rfl
  filled _ hchunk := by cases hchunk
  recv _ hrd := by cases hrd

end UringController

end GalayKernel

namespace GalayKernel.Proofs

open Transition UringController

variable {ι β : Type} [DecidableEq ι] {s : UringReads ι β}

/-- The items of the completions on `c`, in their order, are those that its `recv` calls have
returned, those of a result that has been assigned and not returned, and those still staged. -/
def StagingFaithful (c : ι) (s : UringReads ι β) : Prop :=
  (s.controllers c).posted.flatMap CqeRes.items =
    (s.controllers c).returned.flatMap ReadResult.items ++
    ((s.controllers c).reader.toList.flatMap Reader.outcome).flatMap ReadResult.items ++
    (s.controllers c).readyRecvs.flatMap ReadyRecvChunk.items

theorem recv_staging_faithful (c : ι) (h : Reaches UringReads.step
    (fun _ a => a.1 = c → a.2.plainRecv = true) (.init : UringReads ι β) s) :
    StagingFaithful c s := by
  have hok := UringReads.invariant c (P := fun ctl => StreamOk ctl ∧ ItemsOk ctl)
    ⟨streamOk_init, itemsOk_init⟩ (fun _ _ _ _ hok ha hs => ItemsOk.step hok ha hs) h
  have hitems := hok.2.items
  rwa [results, List.flatMap_append] at hitems

/-- A chunk that two `recv` calls share, two chunks that one `recv` merges, and the end of the
stream behind them. -/
def splitAndMerged : List (Unit × ReadAction Nat) :=
  [((), .recv 2 false true),
    ((), .complete ⟨.multishotRecv, 1, 0⟩ ⟨.bytes [1, 2, 3], true, some 0⟩ none [] true),
    ((), .complete ⟨.multishotRecv, 1, 0⟩ ⟨.bytes [4], true, some 1⟩ none [] true),
    ((), .complete ⟨.multishotRecv, 1, 0⟩ ⟨.bytes [], false, none⟩ none [] true),
    ((), .resume), ((), .recv 8 false true), ((), .recv 8 false true)]

theorem splitAndMerged_faithful : ∃ s, run UringReads.step .init splitAndMerged = some s ∧
    (s.controllers ()).returned = [.bytes [some 1, some 2], .bytes [some 3, some 4], .bytes []] ∧
    StagingFaithful () s :=
  ⟨_, rfl, rfl, recv_staging_faithful () (Reaches.start.of_run (fun _ a => a.2.plainRecv)
    (fun _ _ h _ => h) splitAndMerged rfl)⟩

end GalayKernel.Proofs
