import GalayKernel.Proofs.UringRead

/-!
# The byte stream of a socket

The kernel has at most one request of a controller to finish as long as `readv` and sequences
begin only when the multishot request has ended and nothing is staged (`readsAlone`). Then every
completion is applied to the read that has submitted it, or staged, and the bytes reach the
program in the order in which they were taken from the socket.

A `readv` or a sequence that begins next to the multishot request breaks this: `readv` makes the
request stale, so that its bytes are dropped, and a sequence takes its completions for its own.
-/

namespace GalayKernel

variable {ι β : Type}

/-- Neither a timer nor a close. -/
def ReadAction.untimed : ReadAction β → Bool
  | .expire | .close => false
  | _ => true

namespace UringController

variable {ctl ctl' : UringController β} {r : UringRequest} {cqe : RecvCqe β}

/-- A `readv` or a sequence begins only when no multishot request is armed and nothing is
staged. -/
def readsAlone (ctl : UringController β) : ReadAction β → Bool
  | .readv _ _ | .sequence _ _ _ _ => !ctl.recvMultishotArmed && ctl.readyRecvs.isEmpty
  | _ => true

/-- The request is the one for which `rd` waits in the slot. -/
def Serves (r : UringRequest) (rd : Reader β) : Prop :=
  rd.inSlot ∧ rd.woken = false ∧ rd.call = r.submitter ∧
    match r.kind with
    | .multishotRecv => False
    | .recv => rd.kind = .readv ∧ rd.result = none ∨ rd.kind = .sequence .recv
    | .poll => rd.kind = .sequence .readv

/-- The request is current, and the multishot request or the one of the read in the slot. -/
structure Current (ctl : UringController β) (r : UringRequest) : Prop where
  only : ctl.requests = [r]
  generation : r.generation = ctl.generation
  serves : (r.kind = .multishotRecv ∧ ctl.recvMultishotArmed ∧
      ∀ rd, ctl.reader = some rd → rd.kind.isRecv) ∨
    ∃ rd, ctl.reader = some rd ∧ Serves r rd

/-- A `recv` is in the slot; any other read has the controller to itself. -/
structure ReaderOk (ctl : UringController β) (rd : Reader β) : Prop where
  untimed : rd.timedOut = false
  slot : rd.kind.isRecv → rd.inSlot
  fresh : rd.kind.isRecv → ctl.recvResultAssigned = false → rd.result = none
  alone : rd.kind.isRecv = false → ctl.readyRecvs = [] ∧ ctl.recvMultishotArmed = false

structure ReadsOk (ctl : UringController β) : Prop where
  current : ∀ r ∈ ctl.requests, ctl.Current r
  reader : ∀ rd, ctl.reader = some rd → ctl.ReaderOk rd

lemma Current.kind_eq (h : ctl.Current r) (hreader : ∀ rd, ctl.reader = some rd → rd.kind.isRecv) :
    r.kind = .multishotRecv := by
  obtain ⟨hkind, -⟩ | ⟨rd, hrd, -, -, -, hserves⟩ := h.serves
  · exact hkind
  · have hrecv := hreader rd hrd
    cases hkind : r.kind with
    | multishotRecv => rfl
    | recv =>
      rw [hkind] at hserves
      obtain ⟨hserves, -⟩ | hserves := hserves <;> rw [hserves] at hrecv <;> cases hrecv
    | poll =>
      rw [hkind] at hserves
      rw [show rd.kind = _ from hserves] at hrecv
      cases hrecv

lemma ReadsOk.requests_eq_nil (h : ReadsOk ctl) (hreader : ctl.reader = none)
    (harmed : ctl.recvMultishotArmed = false) : ctl.requests = [] := by
  rw [List.eq_nil_iff_forall_not_mem]
  intro r hr
  obtain ⟨-, harmed', -⟩ | ⟨rd, hrd, -⟩ := (h.current r hr).serves
  · cases harmed.symm.trans harmed'
  · cases hreader.symm.trans hrd

lemma ReadsOk.recv_only (h : ReadsOk ctl) (hold : ∀ rd, ctl.reader = some rd → rd.kind.isRecv)
    (hnew : ∀ rd, ctl'.reader = some rd → rd.kind.isRecv ∧ ctl'.ReaderOk rd)
    (hrequests : ctl'.requests = ctl.requests) (hgeneration : ctl'.generation = ctl.generation)
    (harmed : ctl'.recvMultishotArmed = ctl.recvMultishotArmed) : ReadsOk ctl' := by
  refine ⟨fun r hr => ?_, fun rd hrd => (hnew rd hrd).2⟩
  rw [hrequests] at hr
  have hcurrent := h.current r hr
  have hkind := hcurrent.kind_eq hold
  refine ⟨hrequests.trans hcurrent.only, hcurrent.generation.trans hgeneration.symm,
    .inl ⟨hkind, ?_, fun rd hrd => (hnew rd hrd).1⟩⟩
  obtain ⟨-, harmed', -⟩ | ⟨rd, hrd, -, -, -, hserves⟩ := hcurrent.serves
  · exact harmed ▸ harmed'
  · rw [hkind] at hserves
    cases hserves

lemma readsOk_of_requests_eq_nil (hrequests : ctl.requests = [])
    (hreader : ∀ rd, ctl.reader = some rd → ctl.ReaderOk rd) : ReadsOk ctl := by
  refine ⟨fun r hr => ?_, hreader⟩
  rw [hrequests] at hr
  cases hr

lemma readsOk_of_serves {rd : Reader β} (hrequests : ctl.requests = [r])
    (hgeneration : r.generation = ctl.generation) (hrd : ctl.reader = some rd)
    (hserves : Serves r rd) (hreader : ctl.ReaderOk rd) : ReadsOk ctl where
  current r' hr' := by
    rw [hrequests, List.mem_singleton] at hr'
    subst hr'
    exact ⟨hrequests, hgeneration, .inr ⟨rd, hrd, hserves⟩⟩
  reader rd' hrd' := by
    cases hrd.symm.trans hrd'
    exact hreader

lemma readerOk_of_alone {rd : Reader β} (htimed : rd.timedOut = false)
    (hrecv : rd.kind.isRecv = false)
    (halone : ctl.readyRecvs = [] ∧ ctl.recvMultishotArmed = false) : ctl.ReaderOk rd where
  untimed := htimed
  slot h := by cases hrecv.symm.trans h
  fresh h := by cases hrecv.symm.trans h
  alone _ := halone

lemma readerOk_init (ctl : UringController β) (call capacity : Nat) (timed : Bool) :
    ctl.ReaderOk (Reader.init call (.recv capacity) timed) where
  untimed := rfl
  slot _ := rfl
  fresh _ _ := rfl
  alone h := by cases h

def results (ctl : UringController β) : List (ReadResult β) :=
  ctl.returned ++ ctl.reader.toList.flatMap Reader.outcome

/-- The bytes taken from the socket are those that the program has and those that are staged. -/
def BytesOk (ctl : UringController β) : Prop :=
  ctl.taken.map some = ctl.results.flatMap ReadResult.data ++
    (ctl.readyRecvs.flatMap ReadyRecvChunk.data).map some

/-- A completion was applied to the read that had submitted its request, or it was one of a
multishot request and was staged. -/
def WellDispatched : UringRequest × Option Nat → Prop
  | (r, some call) => r.kind ≠ .multishotRecv ∧ r.submitter = call
  | (r, none) => r.kind = .multishotRecv

structure StreamOk (ctl : UringController β) : Prop where
  owner : ctl.owner
  reads : ctl.ReadsOk
  bytes : ctl.BytesOk
  dispatched : ∀ e ∈ ctl.dispatched, WellDispatched e

lemma result_data (res : CqeRes β) : res.result.data = res.data.map some := by
  cases res <;> simp [CqeRes.result, CqeRes.data, ReadResult.data]

lemma bytesOk_of_reader_eq_none (hreader : ctl.reader = none) : ctl.BytesOk ↔
    ctl.taken.map some = ctl.returned.flatMap ReadResult.data ++
      (ctl.readyRecvs.flatMap ReadyRecvChunk.data).map some := by
  simp [BytesOk, results, hreader]

lemma bytesOk_of_outcome_eq_nil {rd : Reader β} (hrd : ctl.reader = some rd)
    (houtcome : rd.outcome = []) : ctl.BytesOk ↔
    ctl.taken.map some = ctl.returned.flatMap ReadResult.data ++
      (ctl.readyRecvs.flatMap ReadyRecvChunk.data).map some := by
  simp [BytesOk, results, hrd, houtcome]

lemma bytesOk_intro {rd : Reader β} (hrd : ctl.reader = some rd) (hready : ctl.readyRecvs = [])
    (h : ctl.taken.map some =
      ctl.returned.flatMap ReadResult.data ++ rd.outcome.flatMap ReadResult.data) :
    ctl.BytesOk := by
  simpa [BytesOk, results, hrd, hready] using h

lemma StreamOk.refuse (h : StreamOk ctl) (hreader : ctl.reader = none) {errno : Nat}
    (hrequests : ctl'.requests = []) (hreader' : ctl'.reader = none)
    (htaken : ctl'.taken = ctl.taken) (hready : ctl'.readyRecvs = ctl.readyRecvs)
    (hreturned : ctl'.returned = ctl.returned ++ [.refused errno])
    (hdispatched : ctl'.dispatched = ctl.dispatched) (howner : ctl'.owner) : StreamOk ctl' := by
  refine ⟨howner, readsOk_of_requests_eq_nil hrequests fun rd hrd => ?_, ?_, ?_⟩
  · cases hreader'.symm.trans hrd
  · rw [bytesOk_of_reader_eq_none hreader', htaken, hready, hreturned,
      (bytesOk_of_reader_eq_none hreader).mp h.bytes]
    simp [ReadResult.data]
  · rw [hdispatched]
    exact h.dispatched

lemma StreamOk.recv_step (h : StreamOk ctl) (hreader : ctl.reader = none) (capacity : Nat)
    (timed sqe : Bool) : StreamOk (ctl.recv capacity timed sqe).1 := by
  have hnone : ∀ rd, ctl.reader = some rd → rd.kind.isRecv := by
    intro rd hrd
    cases hreader.symm.trans hrd
  have hbytes := (bytesOk_of_reader_eq_none hreader).mp h.bytes
  unfold UringController.recv
  dsimp only
  split
  · next consumed hconsumed =>
    obtain ⟨-, rfl⟩ := tryConsumeReadyRecv_eq_some hconsumed
    have hdata := consumeReadyRecvs_data capacity [] ctl.readyRecvs
    rw [finish_recv _ rfl]
    refine ⟨h.owner, h.reads.recv_only hnone (fun rd hrd => by cases hrd) rfl rfl rfl, ?_,
      h.dispatched⟩
    rw [bytesOk_of_reader_eq_none rfl]
    simp only [consume, Reader.outcome, Reader.init, Option.toList_some, Bool.false_eq_true, if_false,
      List.flatMap_append, List.flatMap_singleton, result_data, List.append_assoc]
    rw [← List.map_append, hdata, List.nil_append, hbytes]
  · split
    · next harmed =>
      refine ⟨h.owner, h.reads.recv_only hnone (fun rd hrd => ?_) rfl rfl rfl,
        (bytesOk_of_outcome_eq_nil rfl rfl).mpr hbytes, h.dispatched⟩
      cases hrd
      exact ⟨rfl, readerOk_init _ _ _ _⟩
    · next harmed =>
      rw [Bool.not_eq_true] at harmed
      have hrequests := h.reads.requests_eq_nil hreader harmed
      split
      · rw [finish_recv _ rfl]
        exact h.refuse hreader hrequests rfl rfl rfl rfl rfl h.owner
      · split
        · rw [finish_recv _ rfl]
          exact h.refuse hreader hrequests rfl rfl rfl rfl rfl rfl
        · refine ⟨rfl, ⟨fun r hr => ?_, fun rd hrd => ?_⟩,
            (bytesOk_of_outcome_eq_nil rfl rfl).mpr hbytes, h.dispatched⟩
          · simp only [submit, advanceSqeGeneration, hrequests, List.nil_append,
              List.mem_singleton] at hr
            subst hr
            refine ⟨by simp [submit, advanceSqeGeneration, hrequests], rfl,
              .inl ⟨rfl, rfl, fun rd hrd => ?_⟩⟩
            cases hrd
            rfl
          · cases hrd
            exact readerOk_init _ _ _ _

lemma StreamOk.readv_step (h : StreamOk ctl) (hreader : ctl.reader = none)
    (harmed : ctl.recvMultishotArmed = false) (hready : ctl.readyRecvs = []) (timed sqe : Bool) :
    StreamOk (ctl.readv timed sqe) := by
  have hbytes := (bytesOk_of_reader_eq_none hreader).mp h.bytes
  have hrequests := h.reads.requests_eq_nil hreader harmed
  unfold readv
  cases sqe with
  | false => exact h.refuse hreader hrequests rfl rfl rfl rfl rfl rfl
  | true =>
    have hone : ctl.requests ++ [⟨.recv, ctl.generation + 1, ctl.calls⟩] =
        [⟨.recv, ctl.generation + 1, ctl.calls⟩] := by rw [hrequests, List.nil_append]
    exact ⟨rfl, readsOk_of_serves hone rfl rfl ⟨rfl, rfl, rfl, .inl ⟨rfl, rfl⟩⟩
      (readerOk_of_alone rfl rfl ⟨hready, harmed⟩),
      (bytesOk_of_outcome_eq_nil rfl rfl).mpr hbytes, h.dispatched⟩

lemma Submits.streamOk {rd : Reader β} {out : UringController β × Bool} (h : Submits rd ctl out)
    (hrequests : ctl.requests = []) (howner : ctl.owner) (hwoken : rd.woken = false)
    (htimed : rd.timedOut = false)
    (halone : ctl.readyRecvs = [] ∧ ctl.recvMultishotArmed = false)
    (hbytes : ctl.taken.map some = ctl.returned.flatMap ReadResult.data)
    (hdispatched : ∀ e ∈ ctl.dispatched, WellDispatched e) : StreamOk out.1 := by
  obtain ⟨hframe, ⟨data, htaken, hreturned⟩, active, rd', hrd', hkind, hcall, htimed', hwaits⟩ := h
  have halone' : out.1.readyRecvs = [] ∧ out.1.recvMultishotArmed = false := by
    rw [hframe]
    exact halone
  have hreader : out.1.ReaderOk rd' :=
    readerOk_of_alone (htimed'.trans htimed) (by rw [hkind]; rfl) halone'
  have houtcome : rd'.outcome = [] := by rw [Reader.outcome, hkind]
  refine ⟨by rw [hframe]; exact howner, ?_, ?_, ?_⟩
  · obtain ⟨hrequests', hslot, hwoken', -⟩ | ⟨hrequests', -⟩ := hwaits
    · rw [hrequests, List.nil_append] at hrequests'
      refine readsOk_of_serves hrequests' (by rw [hframe]) hrd'
        ⟨hslot, hwoken'.trans hwoken, hcall, ?_⟩ hreader
      cases active with
      | recv => exact .inr hkind
      | readv => exact hkind
    · refine readsOk_of_requests_eq_nil (hrequests'.trans hrequests) fun rd'' hrd'' => ?_
      cases hrd'.symm.trans hrd''
      exact hreader
  · rw [bytesOk_of_outcome_eq_nil hrd' houtcome, halone'.1, htaken, hreturned, List.map_append,
      hbytes]
    simp
  · rw [hframe]
    exact hdispatched

lemma StreamOk.finish (h : StreamOk ctl) {rd rd' : Reader β} (hrd' : ctl.reader = some rd')
    (houtcome : rd.outcome = rd'.outcome) (hkind : rd.kind.isRecv = rd'.kind.isRecv)
    (hidle : rd'.kind.isRecv = false → ctl.requests = []) : StreamOk (ctl.finish rd) := by
  have hresults : ctl.results = ctl.returned ++ rd.outcome := by
    simp [results, hrd', houtcome]
  have hbytes := h.bytes
  rw [BytesOk, hresults] at hbytes
  cases hrecv : rd.kind.isRecv with
  | true =>
    obtain ⟨capacity, hrd⟩ : ∃ capacity, rd.kind = .recv capacity := by
      cases hrd : rd.kind <;> simp_all [ReadKind.isRecv]
    rw [finish_recv ctl hrd]
    refine ⟨h.owner, h.reads.recv_only (fun rd'' hrd'' => ?_) (fun _ hrd'' => by cases hrd'')
      rfl rfl rfl, (bytesOk_of_reader_eq_none rfl).mpr hbytes, h.dispatched⟩
    cases hrd'.symm.trans hrd''
    exact hkind ▸ hrecv
  | false =>
    rw [finish_other ctl hrecv]
    have hrequests := hidle (hkind ▸ hrecv)
    cases rd.inSlot with
    | true => exact ⟨rfl, readsOk_of_requests_eq_nil hrequests fun _ hrd'' => (by cases hrd''),
        (bytesOk_of_reader_eq_none rfl).mpr hbytes, h.dispatched⟩
    | false => exact ⟨h.owner, readsOk_of_requests_eq_nil hrequests fun _ hrd'' => (by cases hrd''),
        (bytesOk_of_reader_eq_none rfl).mpr hbytes, h.dispatched⟩

lemma StreamOk.sequence_step (h : StreamOk ctl) (hreader : ctl.reader = none)
    (harmed : ctl.recvMultishotArmed = false) (hready : ctl.readyRecvs = []) (first : SequenceRead)
    (timed : Bool) (script : List (CqeRes β × Option SequenceRead)) (sqe : Bool) :
    StreamOk (ctl.sequence first timed script sqe) := by
  have hrequests := h.reads.requests_eq_nil hreader harmed
  have hbytes := (bytesOk_of_reader_eq_none hreader).mp h.bytes
  simp only [hready, List.flatMap_nil, List.map_nil, List.append_nil] at hbytes
  have hsubmits := submitSequenceSqe_submits { ctl with calls := ctl.calls + 1 }
    { Reader.init ctl.calls (.sequence first) timed with inSlot := false } first script sqe rfl
    ⟨first, rfl⟩
  have hstream := hsubmits.streamOk hrequests h.owner rfl rfl ⟨hready, harmed⟩ hbytes h.dispatched
  unfold sequence
  dsimp only
  split
  · exact hstream
  · next hsubmitted =>
    obtain ⟨active, rd', hrd', hkind, -, -, hwaits⟩ := hsubmits.waits
    refine hstream.finish hrd' ?_ ?_ fun _ => ?_
    · simp [Reader.outcome, hkind, Reader.init]
    · rw [hkind]
      rfl
    · obtain ⟨-, -, -, htrue⟩ | ⟨hsame, -⟩ := hwaits
      · exact absurd htrue hsubmitted
      · exact hsame.trans hrequests

lemma chunk_data (hkind : r.kind = .multishotRecv) {ring : List Nat}
    (hposts : r.kind.posts cqe ring) :
    cqe.chunk.toList.flatMap ReadyRecvChunk.data = cqe.res.data := by
  simp only [hkind, RequestKind.posts] at hposts
  split at hposts
  · next first rest bid hres hbuffer =>
    rw [Bool.and_eq_true, decide_eq_true_eq, decide_eq_true_eq] at hposts
    simp [RecvCqe.chunk, hres, hbuffer, hposts.2, ReadyRecvChunk.data, CqeRes.data]
  · next hres hbuffer => simp [RecvCqe.chunk, hres, ReadyRecvChunk.data, CqeRes.data]
  · next errno hres hbuffer =>
    simp only [RecvCqe.chunk, hres, CqeRes.data]
    split <;> rfl
  · cases hposts

lemma ReaderOk.of_recv {rd : Reader β} (h : ctl.ReaderOk rd) (hrecv : rd.kind.isRecv)
    (hassigned : ctl'.recvResultAssigned = ctl.recvResultAssigned) : ctl'.ReaderOk rd where
  untimed := h.untimed
  slot := h.slot
  fresh := by
    rw [hassigned]
    exact h.fresh
  alone hother := by cases hother.symm.trans hrecv

lemma StreamOk.stage (h : StreamOk ctl) (hr : r ∈ ctl.requests) (hkind : r.kind = .multishotRecv)
    (hold : ∀ rd, ctl.reader = some rd → rd.kind.isRecv) {ring : List Nat}
    (hposts : r.kind.posts cqe ring) :
    StreamOk (((ctl.post r cqe).dispatch r none).stage cqe) := by
  refine ⟨h.owner, ?_, ?_, ?_⟩
  · have hnew : ∀ rd, ctl.reader = some rd →
        (((ctl.post r cqe).dispatch r none).stage cqe).ReaderOk rd :=
      fun rd hrd => (h.reads.reader rd hrd).of_recv (hold rd hrd) rfl
    by_cases hmore : cqe.more
    · refine h.reads.recv_only hold (fun rd hrd => ⟨hold rd hrd, hnew rd hrd⟩) ?_ rfl ?_
      · simp [UringController.stage, dispatch, post, hmore]
      · simp [UringController.stage, dispatch, post, hmore]
    · refine readsOk_of_requests_eq_nil ?_ hnew
      simp [UringController.stage, dispatch, post, hmore, (h.reads.current r hr).only]
  · have hbytes : ctl.taken.map some = _ := h.bytes
    have hdata := chunk_data hkind hposts
    show (ctl.taken ++ cqe.res.data).map some = ctl.results.flatMap ReadResult.data ++
      ((ctl.readyRecvs ++ cqe.chunk.toList).flatMap ReadyRecvChunk.data).map some
    rw [List.map_append, hbytes, List.flatMap_append, List.map_append, hdata, List.append_assoc]
  · intro e he
    obtain he | he := List.mem_append.mp he
    · exact h.dispatched e he
    · rw [List.mem_singleton] at he
      subst he
      exact hkind

lemma StreamOk.staged (h : StreamOk ctl) (hr : r ∈ ctl.requests) (hkind : r.kind = .multishotRecv)
    (hold : ∀ rd, ctl.reader = some rd → rd.kind.isRecv) {ring : List Nat}
    (hposts : r.kind.posts cqe ring) :
    StreamOk (((ctl.post r cqe).dispatch r none).processRecvCompletion cqe).1 := by
  have hstage := h.stage hr hkind hold hposts
  obtain ⟨hsame, -⟩ | ⟨rd, capacity, consumed, hrd, hslot, hrecv, hassigned, -, hconsumed, hdeliver⟩ :=
    processRecvCompletion_cases ((ctl.post r cqe).dispatch r none) cqe
  · rw [hsame]
    exact hstage
  · have hisRecv : rd.kind.isRecv := by rw [hrecv]; rfl
    have hreader := hstage.reads.reader rd hrd
    have hfresh : rd.outcome = [] := by
      simp [Reader.outcome, hrecv, hreader.untimed, hreader.fresh hisRecv hassigned]
    have hbytes := (bytesOk_of_outcome_eq_nil hrd hfresh).mp hstage.bytes
    have hdata := consumeReadyRecvs_data capacity []
      (((ctl.post r cqe).dispatch r none).stage cqe).readyRecvs
    rw [hconsumed] at hdata
    rw [hdeliver]
    refine ⟨hstage.owner, hstage.reads.recv_only hold (fun rd' hrd' => ?_) rfl rfl rfl, ?_,
      hstage.dispatched⟩
    · cases hrd'
      exact ⟨hisRecv, hreader.untimed, fun _ => hslot, fun _ hfalse => (by cases hfalse),
        fun hother => (by cases hother.symm.trans hisRecv)⟩
    · have houtcome : ({ rd with
          result := some consumed.result.result, woken := true } : Reader β).outcome =
          [consumed.result.result] := by
        simp [Reader.outcome, hrecv, hreader.untimed]
      simp only [BytesOk, results, Option.toList_some, List.flatMap_singleton, houtcome,
        List.flatMap_append, result_data, List.append_assoc]
      rw [← List.map_append, hdata, List.nil_append]
      exact hbytes

lemma posts_more {ring : List Nat} (hkind : r.kind ≠ .multishotRecv)
    (hposts : r.kind.posts cqe ring) : cqe.more = false := by
  cases h : r.kind with
  | multishotRecv => exact absurd h hkind
  | recv =>
    simp only [h, RequestKind.posts, Bool.and_eq_true, Bool.not_eq_true'] at hposts
    exact hposts.1
  | poll =>
    simp only [h, RequestKind.posts, Bool.and_eq_true, Bool.not_eq_true'] at hposts
    exact hposts.1.1

/-- The read in the slot of `ctl` gets a completion of the request that it has submitted. -/
structure Own (ctl : UringController β) (r : UringRequest) (cqe : RecvCqe β) (rd : Reader β) :
    Prop where
  serves : Serves r rd
  reader : ctl.ReaderOk rd
  requests : ((ctl.post r cqe).dispatch r (some rd.call)).requests = []
  bytes : ctl.taken.map some =
    ctl.returned.flatMap ReadResult.data ++ rd.outcome.flatMap ReadResult.data
  dispatched : ∀ e ∈ ((ctl.post r cqe).dispatch r (some rd.call)).dispatched, WellDispatched e

lemma StreamOk.own (h : StreamOk ctl) (hr : r ∈ ctl.requests) {rd : Reader β}
    (hrd : ctl.reader = some rd) (hrecv : rd.kind.isRecv = false) {ring : List Nat}
    (hposts : r.kind.posts cqe ring) : Own ctl r cqe rd := by
  have hcurrent := h.reads.current r hr
  have hreader := h.reads.reader rd hrd
  have hserves : Serves r rd := by
    obtain ⟨-, -, hrecv'⟩ | ⟨rd', hrd', hserves⟩ := hcurrent.serves
    · cases hrecv.symm.trans (hrecv' rd hrd)
    · cases hrd.symm.trans hrd'
      exact hserves
  have hkind : r.kind ≠ .multishotRecv := by
    intro hkind
    have := hserves.2.2.2
    rw [hkind] at this
    exact this
  refine ⟨hserves, hreader, ?_, ?_, ?_⟩
  · simp [dispatch, post, posts_more hkind hposts, hcurrent.only]
  · have hbytes := h.bytes
    simpa [BytesOk, results, hrd, (hreader.alone hrecv).1] using hbytes
  · intro e he
    obtain he | he := List.mem_append.mp he
    · exact h.dispatched e he
    · rw [List.mem_singleton] at he
      subst he
      exact ⟨hkind, hserves.2.2.1.symm⟩

lemma StreamOk.complete_readv (h : StreamOk ctl) {rd : Reader β} (hrd : ctl.reader = some rd)
    (hkind : rd.kind = .readv) (hown : Own ctl r cqe rd) (sqe : Bool) :
    StreamOk (((ctl.post r cqe).dispatch r (some rd.call)).completeReadv rd r cqe sqe) := by
  obtain ⟨⟨hslot, hwoken, hcall, hserves⟩, hreader, hrequests, hbytes, hdispatched⟩ := hown
  have hrecv : rd.kind.isRecv = false := by rw [hkind]; rfl
  have halone := hreader.alone hrecv
  have hresult : rd.result = none := by
    cases hr : r.kind <;> simp_all
  have houtcome : rd.outcome = [] := by
    simp [Reader.outcome, hkind, hreader.untimed, hresult]
  rw [houtcome, List.flatMap_nil, List.append_nil] at hbytes
  have hown : (r.submitter == rd.call) = true := by rw [hcall, beq_self_eq_true]
  unfold completeReadv
  rw [hown]
  split
  · next result hhandle =>
    refine ⟨h.owner, readsOk_of_requests_eq_nil hrequests fun rd' hrd' => ?_, ?_, hdispatched⟩
    · cases hrd'
      exact readerOk_of_alone hreader.untimed hrecv halone
    · refine bytesOk_intro rfl halone.1 ?_
      simp [dispatch, post, Reader.outcome, hkind, hreader.untimed, hbytes,
        handleReadv_data hhandle]
  · next hhandle =>
    have hdata : cqe.res.data = [] := handleReadv_eq_none hhandle
    cases sqe with
    | true =>
      have hone : ((ctl.post r cqe).dispatch r (some rd.call)).requests ++
          [⟨.recv, ctl.generation, rd.call⟩] = [⟨.recv, ctl.generation, rd.call⟩] := by
        rw [hrequests, List.nil_append]
      refine ⟨h.owner, readsOk_of_serves hone rfl hrd ⟨hslot, hwoken, rfl, .inl ⟨hkind, hresult⟩⟩
        (readerOk_of_alone hreader.untimed hrecv halone), ?_, hdispatched⟩
      refine bytesOk_intro hrd halone.1 ?_
      simp [submit, dispatch, post, houtcome, hbytes, hdata]
    | false =>
      refine ⟨h.owner, readsOk_of_requests_eq_nil hrequests fun rd' hrd' => ?_, ?_, hdispatched⟩
      · cases hrd'
        exact readerOk_of_alone hreader.untimed hrecv halone
      · refine bytesOk_intro rfl halone.1 ?_
        simp [dispatch, post, Reader.outcome, hkind, hreader.untimed, hbytes, hdata,
          ReadResult.data]

lemma complete_sequence_streamOk {rd : Reader β} {active : SequenceRead}
    (hkind : rd.kind = .sequence active) (hown : Own ctl r cqe rd) {ring : List Nat}
    (hposts : r.kind.posts cqe ring) (next : Option SequenceRead)
    (script : List (CqeRes β × Option SequenceRead)) (sqe : Bool) :
    StreamOk (((ctl.post r cqe).dispatch r (some rd.call)).completeSequence rd active r cqe next
      script sqe) := by
  obtain ⟨⟨hslot, hwoken, hcall, hserves⟩, hreader, hrequests, hbytes, hdispatched⟩ := hown
  have halone := hreader.alone (by rw [hkind]; rfl)
  have hown : (r.submitter == rd.call) = true := by rw [hcall, beq_self_eq_true]
  have houtcome : rd.outcome = [] := by rw [Reader.outcome, hkind]
  rw [houtcome, List.flatMap_nil, List.append_nil] at hbytes
  have hsubmits := completeSequence_submits ((ctl.post r cqe).dispatch r (some rd.call)) rd active r
    cqe next script sqe hkind
  refine hsubmits.streamOk hrequests rfl hwoken hreader.untimed halone ?_ hdispatched
  -- a sequence that waits for a `readv` has submitted a poll request
  have hpolled : active = .readv → cqe.res.data = [] := by
    intro hreadv
    cases hr : r.kind with
    | multishotRecv => simp [hr] at hserves
    | recv => simp [hr, hkind, hreadv] at hserves
    | poll =>
      simp only [hr, RequestKind.posts, Bool.and_eq_true, List.isEmpty_iff] at hposts
      exact hposts.2
  have hdata := SequenceRead.result_data hpolled
  rw [hown]
  simp [advanceSqeGeneration, dispatch, post, hbytes, hdata]

lemma StreamOk.not_dropped (h : StreamOk ctl) (hr : r ∈ ctl.requests) :
    ¬(r.generation ≠ ctl.generation ∨ ctl.owner = false ∨
      ctl.awaitable = none ∧ ctl.recvMultishotArmed = false) := by
  have hcurrent := h.reads.current r hr
  rintro (hne | howner | ⟨hnone, hunarmed⟩)
  · exact hne hcurrent.generation
  · cases howner.symm.trans h.owner
  · obtain ⟨-, harmed, -⟩ | ⟨rd, hrd, hslot, -⟩ := hcurrent.serves
    · cases hunarmed.symm.trans harmed
    · cases hnone.symm.trans (awaitable_eq_some.mpr ⟨hrd, hslot⟩)

/-- A completion is staged only when no `readv` and no sequence waits. -/
lemma ReadsOk.isRecv_of_stages (h : ReadsOk ctl) (hstages : ctl.stages r) (rd : Reader β)
    (hrd : ctl.reader = some rd) : rd.kind.isRecv := by
  by_contra hrecv
  rw [Bool.not_eq_true] at hrecv
  have hunarmed := ((h.reader rd hrd).alone hrecv).2
  simp only [stages, Bool.and_eq_true] at hstages
  have hstages := hstages.2
  split at hstages
  · cases hunarmed.symm.trans hstages
  · next rd' hrd' =>
    cases hrd.symm.trans (awaitable_eq_some.mp hrd').1
    cases hrecv.symm.trans hstages

lemma StreamOk.complete_step (h : StreamOk ctl) (hr : r ∈ ctl.requests) {ring : List Nat}
    (hposts : r.kind.posts cqe ring) (next : Option SequenceRead)
    (script : List (CqeRes β × Option SequenceRead)) (sqe : Bool) :
    StreamOk ((ctl.post r cqe).processCompletion r cqe next script sqe).1 := by
  have hcompletes := (ctl.post r cqe).processCompletion_completes r cqe next script sqe
  generalize (ctl.post r cqe).processCompletion r cqe next script sqe = out at hcompletes
  cases hcompletes with
  | staged hstages =>
    have hold := h.reads.isRecv_of_stages (r := r) hstages
    exact h.staged hr ((h.reads.current r hr).kind_eq hold) hold hposts
  | dropped _ hdropped => exact absurd hdropped (h.not_dropped hr)
  | readv rd hrd hslot hkind =>
    exact h.complete_readv hrd hkind (h.own hr hrd (by rw [hkind]; rfl) hposts) sqe
  | sequence rd active hrd hslot hkind =>
    exact complete_sequence_streamOk hkind (h.own hr hrd (by rw [hkind]; rfl) hposts) hposts next
      script sqe

lemma StreamOk.step (h : StreamOk ctl) {ring : List Nat} {a : ReadAction β}
    {out : UringController β × List Nat} (hok : a.untimed = true ∧ ctl.readsAlone a = true)
    (hs : ctl.step ring a = some out) : StreamOk out.1 := by
  obtain ⟨huntimed, halone⟩ := hok
  cases a with
  | recv capacity timed sqe =>
    simp only [UringController.step, Option.ite_none_right_eq_some, Option.some.injEq,
      Option.isNone_iff_eq_none] at hs
    obtain ⟨hreader, rfl⟩ := hs
    exact h.recv_step hreader capacity timed sqe
  | readv timed sqe =>
    simp only [UringController.step, Option.ite_none_right_eq_some, Option.some.injEq,
      Option.isNone_iff_eq_none] at hs
    obtain ⟨hreader, rfl⟩ := hs
    simp only [readsAlone, Bool.and_eq_true, Bool.not_eq_true', List.isEmpty_iff] at halone
    exact h.readv_step hreader halone.1 halone.2 timed sqe
  | sequence first timed script sqe =>
    simp only [UringController.step, Option.ite_none_right_eq_some, Option.some.injEq,
      Option.isNone_iff_eq_none] at hs
    obtain ⟨hreader, rfl⟩ := hs
    simp only [readsAlone, Bool.and_eq_true, Bool.not_eq_true', List.isEmpty_iff] at halone
    exact h.sequence_step hreader halone.1 halone.2 first timed script sqe
  | complete r cqe next script sqe =>
    simp only [UringController.step, Option.ite_none_right_eq_some, Option.some.injEq,
      Bool.and_eq_true, decide_eq_true_eq] at hs
    obtain ⟨⟨hr, hposts⟩, rfl⟩ := hs
    exact h.complete_step hr hposts next script sqe
  | expire => cases huntimed
  | resume =>
    simp only [UringController.step] at hs
    split at hs
    · next rd hrd =>
      split at hs
      · next hwoken =>
        cases hs
        refine h.finish hrd rfl rfl fun hrecv => ?_
        rw [List.eq_nil_iff_forall_not_mem]
        intro r hr
        obtain ⟨-, -, hrecv'⟩ | ⟨rd', hrd', -, hwoken', -⟩ := (h.reads.current r hr).serves
        · cases hrecv.symm.trans (hrecv' rd hrd)
        · cases hrd.symm.trans hrd'
          cases hwoken'.symm.trans hwoken
      · cases hs
    · cases hs
  | close => cases huntimed

lemma streamOk_init : StreamOk (.init : UringController β) where
  owner := rfl
  reads := readsOk_of_requests_eq_nil rfl fun _ hrd => by cases hrd
  bytes := rfl
  dispatched _ he := by cases he

end UringController

end GalayKernel

namespace GalayKernel.Proofs

open Transition UringController

variable {ι β : Type} [DecidableEq ι] {s : UringReads ι β}

/-- The completions of `c` went where they belong, and what its program has got are the first
bytes of the stream. -/
def StreamFaithful (c : ι) (s : UringReads ι β) : Prop :=
  (∀ e ∈ (s.controllers c).dispatched, WellDispatched e) ∧
    (s.controllers c).returned.flatMap ReadResult.data <+: (s.controllers c).taken.map some

/-- Without timers and closes on `c`, and when `readv` and sequences on `c` begin only while no
multishot request is armed and nothing is staged. -/
theorem mixed_reads_faithful (c : ι) (h : Reaches UringReads.step
    (fun s a => a.1 = c → a.2.untimed = true ∧ (s.controllers c).readsAlone a.2 = true)
    (.init : UringReads ι β) s) : StreamFaithful c s := by
  have hok := UringReads.invariant c streamOk_init (fun _ _ _ _ hok ha hs => hok.step ha hs) h
  refine ⟨hok.dispatched, ?_⟩
  have hbytes := hok.bytes
  rw [BytesOk, results, List.flatMap_append, List.append_assoc] at hbytes
  exact ⟨_, hbytes.symm⟩

/-- A `recv` gets the last completion of its request, and a `readv` and a sequence follow. -/
def readsInTurn : List (Unit × ReadAction Nat) :=
  [((), .recv 8 false true),
    ((), .complete ⟨.multishotRecv, 1, 0⟩ ⟨.bytes [1, 2], false, some 0⟩ none [] true),
    ((), .resume), ((), .readv false true),
    ((), .complete ⟨.recv, 2, 1⟩ ⟨.bytes [3], false, none⟩ none [] true), ((), .resume),
    ((), .sequence .recv false [] true),
    ((), .complete ⟨.recv, 3, 2⟩ ⟨.bytes [4], false, none⟩ (some .readv)
      [(.bytes [5, 6], none)] true)]

theorem readsInTurn_faithful : ∃ s, run UringReads.step .init readsInTurn = some s ∧
    (s.controllers ()).returned = [.bytes [some 1, some 2], .bytes [some 3], .bytes [some 4],
      .bytes [some 5, some 6]] ∧ StreamFaithful () s :=
  ⟨_, rfl, rfl, mixed_reads_faithful () (Reaches.start.of_run
    (fun s a => a.2.untimed && (s.controllers ()).readsAlone a.2)
    (fun _ _ h _ => by simpa using h) readsInTurn rfl)⟩

/-- A sequence begins while the multishot request of a `recv` is armed. Its completion is taken
for the one of the sequence, which sees a byte that nobody has written. -/
def sequenceNextToRecv : List (Unit × ReadAction Nat) :=
  [((), .recv 8 false true),
    ((), .complete ⟨.multishotRecv, 1, 0⟩ ⟨.bytes [1], true, some 0⟩ none [] true),
    ((), .resume), ((), .sequence .recv false [] true),
    ((), .complete ⟨.multishotRecv, 1, 0⟩ ⟨.bytes [2], true, some 1⟩ none [] true)]

theorem mixed_reads_can_misattribute : ¬∀ s : UringReads Unit Nat,
    Reaches UringReads.step (fun _ a => a.1 = () → a.2.untimed = true) .init s →
      StreamFaithful () s := by
  intro h
  obtain ⟨s, hrun, hreturned, htaken⟩ : ∃ s,
      run (guarded (fun _ a => a.2.untimed) UringReads.step) .init sequenceNextToRecv = some s ∧
        (s.controllers ()).returned = [.bytes [some 1], .bytes [none]] ∧
        (s.controllers ()).taken = [1, 2] := ⟨_, rfl, rfl, rfl⟩
  have hprefix := (h s (Reaches.start.of_run (fun _ a => a.2.untimed) (fun _ _ h _ => h)
    sequenceNextToRecv hrun)).2
  rw [hreturned, htaken] at hprefix
  exact absurd hprefix (by decide)

end GalayKernel.Proofs
