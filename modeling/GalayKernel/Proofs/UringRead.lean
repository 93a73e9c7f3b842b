import GalayKernel.UringRead
import GalayKernel.Lib.Transition

namespace GalayKernel

variable {ι β : Type}

def ReadyRecvChunk.data : ReadyRecvChunk β → List β
  | .buffer _ data => data
  | _ => []

def ReadKind.isRecv : ReadKind → Bool
  | .recv _ => true
  | _ => false

def ReadResult.data : ReadResult β → List (Option β)
  | .bytes data => data
  | _ => []

@[simp] lemma received_true (data : List β) : received true data = data.map some := by
  simp [received]

lemma consumeReadyRecvs_data (capacity : Nat) (total : List β)
    (readyRecvs : List (ReadyRecvChunk β)) :
    (consumeReadyRecvs capacity total readyRecvs).result.data ++
      (consumeReadyRecvs capacity total readyRecvs).rest.flatMap ReadyRecvChunk.data =
      total ++ readyRecvs.flatMap ReadyRecvChunk.data := by
  induction readyRecvs generalizing total with
  | nil => simp [consumeReadyRecvs, CqeRes.data]
  | cons chunk rest ih =>
    cases chunk with
    | eof => cases total <;> simp [consumeReadyRecvs, CqeRes.data, ReadyRecvChunk.data]
    | error errno => cases total <;> simp [consumeReadyRecvs, CqeRes.data, ReadyRecvChunk.data]
    | buffer bid data =>
      have hdata := List.take_append_drop (capacity - total.length) data
      simp only [consumeReadyRecvs, List.flatMap_cons, ReadyRecvChunk.data]
      split
      · next hleft =>
        rw [List.isEmpty_iff] at hleft
        rw [hleft, List.append_nil] at hdata
        split
        · simp [CqeRes.data, hdata]
        · rw [ih, hdata, List.append_assoc]
      · simp only [CqeRes.data, List.flatMap_cons, ReadyRecvChunk.data, List.append_assoc]
        rw [← List.append_assoc (data.take _), hdata]

/-- A buffer goes back to the ring when its last byte has been consumed. -/
lemma consumeReadyRecvs_bids (capacity : Nat) (total : List β)
    (readyRecvs : List (ReadyRecvChunk β)) :
    (consumeReadyRecvs capacity total readyRecvs).released ++
      UringController.bids (consumeReadyRecvs capacity total readyRecvs).rest =
      UringController.bids readyRecvs := by
  induction readyRecvs generalizing total with
  | nil => rfl
  | cons chunk rest ih =>
    cases chunk with
    | eof => cases total <;> rfl
    | error errno => cases total <;> rfl
    | buffer bid data =>
      simp only [consumeReadyRecvs]
      split
      · split
        · rfl
        · exact congrArg (bid :: ·) (ih _)
      · rfl

lemma RequestKind.posts_buffer {kind : RequestKind} {cqe : RecvCqe β} {ring : List Nat} {bid : Nat}
    (h : kind.posts cqe ring) (hbid : cqe.buffer = some bid) :
    bid ∈ ring ∧ bid < kRecvBufferCount ∧ ∃ first rest, cqe.res = .bytes (first :: rest) := by
  cases kind with
  | multishotRecv =>
    simp only [RequestKind.posts, hbid] at h
    split at h
    · next first rest bid' hres heq =>
      cases heq
      rw [Bool.and_eq_true, decide_eq_true_eq, decide_eq_true_eq] at h
      exact ⟨h.1, h.2, first, rest, hres⟩
    · next heq => cases heq
    · next heq => cases heq
    · cases h
  | recv => simp [RequestKind.posts, hbid] at h
  | poll => simp [RequestKind.posts, hbid] at h

lemma handleReadv_data {res : CqeRes β} {result : ReadResult β}
    (h : handleReadv true res = some result) : result.data = res.data.map some := by
  cases res with
  | bytes data => cases data <;> cases h <;> simp [ReadResult.data, CqeRes.data]
  | failed errno =>
    simp only [handleReadv] at h
    split at h
    · cases h
    · cases h
      rfl

lemma handleReadv_eq_none {own : Bool} {res : CqeRes β} (h : handleReadv own res = none) :
    res.data = [] := by
  cases res with
  | bytes data => cases data <;> cases h
  | failed errno => rfl

lemma SequenceRead.result_data {active : SequenceRead} {res : CqeRes β}
    (h : active = .readv → res.data = []) :
    (active.result true res).toList.flatMap ReadResult.data = res.data.map some := by
  cases active with
  | recv =>
    cases res with
    | bytes data => simp [SequenceRead.result, handleRecv, ReadResult.data, CqeRes.data]
    | failed errno =>
      simp only [SequenceRead.result, handleRecv, CqeRes.data]
      split <;> rfl
  | readv =>
    rw [h rfl]
    cases res with
    | bytes data => rfl
    | failed errno =>
      simp only [SequenceRead.result, handleReadv]
      split <;> rfl

namespace UringController

lemma finish_recv (ctl : UringController β) {rd : Reader β} {capacity : Nat}
    (h : rd.kind = .recv capacity) : ctl.finish rd = { ctl with
      recvResultAssigned := false
      reader := none
      returned := ctl.returned ++ rd.outcome } := by
  simp only [finish, h]

lemma finish_other (ctl : UringController β) {rd : Reader β} (h : rd.kind.isRecv = false) :
    ctl.finish rd = { (if rd.inSlot then ctl.advanceSqeGeneration else ctl) with
      reader := none
      returned := ctl.returned ++ rd.outcome } := by
  unfold finish
  cases hkind : rd.kind with
  | recv => simp [hkind, ReadKind.isRecv] at h
  | readv => cases rd.inSlot <;> rfl
  | sequence => cases rd.inSlot <;> rfl

/-- What `submitSequenceSqe` makes of `ctl`. The results of the reads that it makes at once go to
the sequence, which then waits for a request or is not in the slot. -/
structure Submits (rd : Reader β) (ctl : UringController β) (out : UringController β × Bool) :
    Prop where
  frame : out.1 = { ctl with
    requests := out.1.requests
    reader := out.1.reader
    taken := out.1.taken
    returned := out.1.returned }
  bytes : ∃ data, out.1.taken = ctl.taken ++ data ∧
    out.1.returned.flatMap ReadResult.data =
      ctl.returned.flatMap ReadResult.data ++ data.map some
  waits : ∃ active rd', out.1.reader = some rd' ∧ rd'.kind = .sequence active ∧
    rd'.call = rd.call ∧ rd'.timedOut = rd.timedOut ∧
    (out.1.requests = ctl.requests ++ [⟨active.request, ctl.generation, rd.call⟩] ∧
        rd'.inSlot = true ∧ rd'.woken = rd.woken ∧ out.2 = true ∨
      out.1.requests = ctl.requests ∧ rd'.inSlot = false)

lemma submitSequenceStep_submits (ctl : UringController β) (rd : Reader β) (active : SequenceRead)
    (sqe : Bool) : Submits rd ctl (ctl.submitSequenceStep rd active sqe) := by
  unfold submitSequenceStep
  cases sqe with
  | true => exact ⟨rfl, ⟨[], by simp [submit], by simp [submit]⟩, active, _, rfl, rfl, rfl, rfl,
      .inl ⟨rfl, rfl, rfl, rfl⟩⟩
  | false => exact ⟨rfl, ⟨[], by simp, by simp⟩, active, _, rfl, rfl, rfl, rfl, .inr ⟨rfl, rfl⟩⟩

lemma submitSequenceSqe_submits (ctl : UringController β) (rd : Reader β) (active : SequenceRead)
    (script : List (CqeRes β × Option SequenceRead)) (sqe : Bool) (hslot : rd.inSlot = false)
    (hkind : ∃ first, rd.kind = .sequence first) :
    Submits rd ctl (ctl.submitSequenceSqe rd active script sqe) := by
  induction script generalizing ctl active with
  | nil =>
    unfold submitSequenceSqe
    exact submitSequenceStep_submits ctl rd active sqe
  | cons read script ih =>
    obtain ⟨res, next⟩ := read
    cases active with
    | recv => exact submitSequenceStep_submits ctl rd .recv sqe
    | readv =>
      rw [submitSequenceSqe]
      split
      · exact submitSequenceStep_submits ctl rd .readv sqe
      · next result hresult =>
        have hdata := handleReadv_data hresult
        cases next with
        | none =>
          obtain ⟨first, hfirst⟩ := hkind
          refine ⟨rfl, ⟨res.data, rfl, by simp [hdata]⟩, first, _, rfl, hfirst, rfl, rfl,
            .inr ⟨rfl, hslot⟩⟩
        | some active =>
          obtain ⟨hframe, ⟨data, htaken, hreturned⟩, hwaits⟩ := ih
            { ctl with
              taken := ctl.taken ++ res.data
              returned := ctl.returned ++ [result] } active
          refine ⟨hframe, ⟨res.data ++ data, ?_, ?_⟩, hwaits⟩
          · rw [htaken, List.append_assoc]
          · rw [hreturned]
            simp [hdata]

lemma Submits.of_reader {rd : Reader β} {reader : Option (Reader β)} {ctl : UringController β}
    {out : UringController β × Bool} (h : Submits rd { ctl with reader := reader } out) :
    Submits rd ctl out :=
  ⟨h.frame, h.bytes, h.waits⟩

lemma Submits.wake {rd : Reader β} {ctl : UringController β} {out : UringController β × Bool}
    (h : Submits rd ctl out) : Submits rd ctl (if out.2 then out.1
      else { out.1 with reader := out.1.reader.map fun rd => { rd with woken := true } }, true) := by
  obtain ⟨ctl', submitted⟩ := out
  obtain ⟨hframe, hbytes, active, rd', hreader, hkind, hcall, htimed, hwaits⟩ := id h
  cases submitted with
  | true => exact h
  | false =>
    obtain ⟨-, -, -, hsubmitted⟩ | hwaits := hwaits
    · cases hsubmitted
    · refine ⟨?_, hbytes, active, { rd' with woken := true }, ?_, hkind, hcall, htimed,
        .inr hwaits⟩
      · dsimp only at hframe ⊢
        rw [if_neg Bool.false_ne_true]
        conv_lhs => rw [hframe]
      · exact congrArg (Option.map fun rd => { rd with woken := true }) hreader

/-- A completion that is applied to a sequence makes the requests so far stale. -/
lemma completeSequence_submits (ctl : UringController β) (rd : Reader β) (active : SequenceRead)
    (r : UringRequest) (cqe : RecvCqe β) (next : Option SequenceRead)
    (script : List (CqeRes β × Option SequenceRead)) (sqe : Bool)
    (hkind : rd.kind = .sequence active) :
    Submits { rd with inSlot := false } { ctl.advanceSqeGeneration with
        returned := ctl.returned ++ (active.result (r.submitter == rd.call) cqe.res).toList }
      (ctl.completeSequence rd active r cqe next script sqe, true) := by
  have hsubmits := fun base (active' : SequenceRead) => submitSequenceSqe_submits base
    { rd with inSlot := false } active' script sqe rfl ⟨active, hkind⟩
  unfold completeSequence
  dsimp only
  generalize active.result (r.submitter == rd.call) cqe.res = result
  cases result with
  | none =>
    rw [Option.toList_none, List.append_nil]
    exact (Submits.of_reader (hsubmits { ctl.advanceSqeGeneration with
      reader := some { rd with inSlot := false } } active)).wake
  | some result =>
    cases next with
    | none =>
      exact ⟨rfl, ⟨[], by simp, by simp [advanceSqeGeneration]⟩, active, _, rfl, hkind, rfl, rfl,
        .inr ⟨rfl, rfl⟩⟩
    | some active' =>
      exact (Submits.of_reader (hsubmits { ctl.advanceSqeGeneration with
        reader := some { rd with inSlot := false }
        returned := ctl.returned ++ [result] } active')).wake

lemma tryConsumeReadyRecv_eq_some {readyRecvs : List (ReadyRecvChunk β)} {capacity : Nat}
    {consumed : Consumed β} (h : tryConsumeReadyRecv readyRecvs capacity = some consumed) :
    readyRecvs ≠ [] ∧ consumeReadyRecvs capacity [] readyRecvs = consumed := by
  unfold tryConsumeReadyRecv at h
  split at h
  · cases h
  · next hne =>
    cases h
    exact ⟨by simpa using hne, rfl⟩

/-- `ctl'` has handed staged chunks to the `recv` that waits in the slot of `ctl`. -/
def Delivers (ctl : UringController β) (ctl' : UringController β × List Nat) : Prop :=
  ∃ rd capacity consumed, ctl.reader = some rd ∧ rd.inSlot ∧ rd.kind = .recv capacity ∧
    ctl.recvResultAssigned = false ∧ ctl.readyRecvs ≠ [] ∧
    consumeReadyRecvs capacity [] ctl.readyRecvs = consumed ∧
    ctl' = ({ ctl with
      readyRecvs := consumed.rest
      recvResultAssigned := true
      reader := some { rd with result := some consumed.result.result, woken := true } },
      consumed.released)

def Waits (ctl : UringController β) : Prop :=
  ∃ rd capacity, ctl.reader = some rd ∧ rd.inSlot ∧ rd.kind = .recv capacity ∧
    ctl.recvResultAssigned = false

lemma awaitable_eq_some {ctl : UringController β} {rd : Reader β} :
    ctl.awaitable = some rd ↔ ctl.reader = some rd ∧ rd.inSlot := by
  simp [awaitable, Option.filter_eq_some_iff]

lemma deliver_cases (ctl : UringController β) (cqe : RecvCqe β) :
    (ctl.deliver cqe = (ctl, []) ∧ (ctl.Waits → cqe.delivers → ctl.readyRecvs = [])) ∨
      ctl.Delivers (ctl.deliver cqe) := by
  by_cases hwaits : ctl.Waits
  · obtain ⟨rd, capacity, hreader, hslot, hkind, hassigned⟩ := hwaits
    have hrd := awaitable_eq_some.mpr ⟨hreader, hslot⟩
    simp only [deliver, hrd, hkind, hassigned, Bool.not_false, Bool.true_and]
    split
    · split
      · next consumed hconsumed =>
        obtain ⟨hne, hconsumed⟩ := tryConsumeReadyRecv_eq_some hconsumed
        exact .inr ⟨rd, capacity, consumed, hreader, hslot, hkind, hassigned, hne, hconsumed, rfl⟩
      · next hnone => exact .inl ⟨rfl, fun _ _ => by simpa [tryConsumeReadyRecv] using hnone⟩
    · next hdelivers => exact .inl ⟨rfl, fun _ h => absurd h hdelivers⟩
  · refine .inl ⟨?_, fun h => absurd h hwaits⟩
    unfold deliver
    split
    · next rd hrd =>
      obtain ⟨hreader, hslot⟩ := awaitable_eq_some.mp hrd
      split
      · next capacity hkind =>
        rw [if_neg]
        intro hcond
        rw [Bool.and_eq_true, Bool.not_eq_true'] at hcond
        exact hwaits ⟨rd, capacity, hreader, hslot, hkind, hcond.1⟩
      · rfl
      · rfl
    · rfl

def stage (ctl : UringController β) (cqe : RecvCqe β) : UringController β :=
  { ctl with
    readyRecvs := ctl.readyRecvs ++ cqe.chunk.toList
    recvMultishotArmed := ctl.recvMultishotArmed && cqe.more }

lemma processRecvCompletion_cases (ctl : UringController β) (cqe : RecvCqe β) :
    (ctl.processRecvCompletion cqe = (ctl.stage cqe, []) ∧
      (ctl.Waits → cqe.delivers → (ctl.stage cqe).readyRecvs = [])) ∨
      (ctl.stage cqe).Delivers (ctl.processRecvCompletion cqe) := by
  unfold processRecvCompletion
  dsimp only
  obtain ⟨hsame, hstuck⟩ | ⟨rd, capacity, consumed, hrd, hslot, hkind, hassigned, hne, hconsumed,
      hdeliver⟩ := deliver_cases { ctl with readyRecvs := ctl.readyRecvs ++ cqe.chunk.toList } cqe
  · rw [hsame]
    exact .inl ⟨rfl, hstuck⟩
  · rw [hdeliver]
    exact .inr ⟨rd, capacity, consumed, hrd, hslot, hkind, hassigned, hne, hconsumed, rfl⟩

def stages (ctl : UringController β) (r : UringRequest) : Bool :=
  r.generation == ctl.generation && ctl.owner &&
    match ctl.awaitable with
    | none => ctl.recvMultishotArmed
    | some rd => rd.kind.isRecv

/-- The four ways of a completion: staged, dropped, or applied to the read in the slot. -/
inductive Completes (ctl : UringController β) (r : UringRequest) (cqe : RecvCqe β)
    (next : Option SequenceRead) (script : List (CqeRes β × Option SequenceRead)) (sqe : Bool) :
    UringController β × List Nat → Prop
  | staged (h : ctl.stages r) :
    Completes ctl r cqe next script sqe ((ctl.dispatch r none).processRecvCompletion cqe)
  | dropped (hstages : ctl.stages r = false)
      (h : r.generation ≠ ctl.generation ∨ ctl.owner = false ∨
        ctl.awaitable = none ∧ ctl.recvMultishotArmed = false) :
    Completes ctl r cqe next script sqe (ctl, [])
  | readv (rd : Reader β) (hreader : ctl.reader = some rd) (hslot : rd.inSlot)
      (hkind : rd.kind = .readv) (hstages : ctl.stages r = false) :
    Completes ctl r cqe next script sqe
      ((ctl.dispatch r (some rd.call)).completeReadv rd r cqe sqe, [])
  | sequence (rd : Reader β) (active : SequenceRead) (hreader : ctl.reader = some rd)
      (hslot : rd.inSlot) (hkind : rd.kind = .sequence active) (hstages : ctl.stages r = false) :
    Completes ctl r cqe next script sqe
      ((ctl.dispatch r (some rd.call)).completeSequence rd active r cqe next script sqe, [])

lemma processCompletion_completes (ctl : UringController β) (r : UringRequest) (cqe : RecvCqe β)
    (next : Option SequenceRead) (script : List (CqeRes β × Option SequenceRead)) (sqe : Bool) :
    Completes ctl r cqe next script sqe (ctl.processCompletion r cqe next script sqe) := by
  unfold processCompletion
  split
  · next hcond =>
    refine .dropped ?_ ?_
    · unfold stages
      grind
    · grind
  · next hcond =>
    simp only [Bool.or_eq_true, bne_iff_ne, Bool.not_eq_true', not_or, not_not,
      Bool.not_eq_false] at hcond
    obtain ⟨hgeneration, howner⟩ := hcond
    split
    · next hnone =>
      split
      · next harmed => exact .staged (by simp [stages, hnone, hgeneration, howner, harmed])
      · next harmed =>
        rw [Bool.not_eq_true] at harmed
        exact .dropped (by simp [stages, hnone, harmed]) (.inr (.inr ⟨hnone, harmed⟩))
    · next rd hrd =>
      obtain ⟨hreader, hslot⟩ := awaitable_eq_some.mp hrd
      split
      · next capacity hkind =>
        exact .staged (by simp [stages, hrd, hgeneration, howner, hkind, ReadKind.isRecv])
      · next hkind =>
        exact .readv rd hreader hslot hkind (by simp [stages, hrd, hkind, ReadKind.isRecv])
      · next active hkind =>
        exact .sequence rd active hreader hslot hkind (by simp [stages, hrd, hkind, ReadKind.isRecv])

end UringController

/-- What the steps of one controller preserve holds of it in every run of the reactor. -/
lemma UringReads.invariant [DecidableEq ι] (c : ι) {P : UringController β → Prop}
    {ok : UringController β → ReadAction β → Prop} (hinit : P .init)
    (hstep : ∀ ctl ring a out, P ctl → ok ctl a → ctl.step ring a = some out → P out.1)
    {s : UringReads ι β} (h : Transition.Reaches UringReads.step
      (fun s a => a.1 = c → ok (s.controllers c) a.2) .init s) : P (s.controllers c) := by
  refine h.invariant (P := fun s => P (s.controllers c)) hinit fun s a s' hP hok hs => ?_
  obtain ⟨d, a⟩ := a
  rw [UringReads.step, Option.map_eq_some_iff] at hs
  obtain ⟨⟨ctl, released⟩, hctl, rfl⟩ := hs
  dsimp only at hctl ⊢
  by_cases hd : c = d
  · subst hd
    rw [Function.update_self]
    exact hstep _ _ a _ hP (hok rfl) hctl
  · rw [Function.update_of_ne hd]
    exact hP

end GalayKernel
