import GalayKernel.AioFile
import GalayKernel.Lib.Transition
import Mathlib.Tactic.Common

namespace GalayKernel.Proofs

open Transition

variable {s s' : AioCommit} {outcome : Nat → Int} {ops : List Iocb}

/-- The calls of `preRead` and `preWrite` that queue `ops`. -/
def queueAll (file : AioFile) : List Iocb → AioFile
  | [] => file
  | ⟨.pread, buffer, length, offset⟩ :: ops => queueAll (file.preRead buffer length offset) ops
  | ⟨.pwrite, buffer, length, offset⟩ :: ops => queueAll (file.preWrite buffer length offset) ops

lemma queueAll_pendingCbs (ops : List Iocb) (file : AioFile) :
    (queueAll file ops).pendingCbs = file.pendingCbs ++ ops := by
  induction ops generalizing file with
  | nil => exact (List.append_nil _).symm
  | cons op ops ih =>
    obtain ⟨opcode, buffer, length, offset⟩ := op
    cases opcode <;>
    · rw [queueAll, ih]
      exact List.append_assoc _ [_] ops

/-- What the caller of `commit` relies on. -/
structure ReportsOperations (outcome : Nat → Int) (ops : List Iocb) (s : AioCommit) : Prop where
  /-- entry `i` of the result is the outcome of the `i`-th operation -/
  results : ∀ v, s.stage = .resumed (.ok v) → v.length = ops.length ∧
    ∀ i, i < ops.length → v[i]? = some (outcome i)
  /-- what is taken as submitted has been accepted -/
  submitted : s.stage = .suspended → s.accepted = ops.length
  /-- the reactor does not wait for more completions than there will be -/
  waits : ∀ results, s.stage = .collecting results → s.pendingCount ≤ s.accepted ∧
    s.pendingCount ≤ results.length + s.completions.length + s.running.length

def acceptsBatch (s : AioCommit) : AioAction → Bool
  | .submit ret => ret < 0 || ret = s.pendingCount
  | _ => true

def completesInOrder (s : AioCommit) : AioAction → Bool
  | .complete i => s.running.head? = some i
  | _ => true

/-- All `n` operations are accepted and the first of them are completed; `results` are those that
have been collected. -/
def CompletedInOrder (outcome : Nat → Int) (n : Nat) (results : List Int) (s : AioCommit) : Prop :=
  s.accepted = n ∧ ∃ k ≤ n, s.running = List.range' k (n - k) ∧
    results ++ s.completions.map Prod.snd = (List.range k).map outcome

lemma CompletedInOrder.complete {n i : Nat} {results : List Int}
    (h : CompletedInOrder outcome n results s) (hi : s.running.head? = some i) :
    CompletedInOrder outcome n results { s with
      running := s.running.erase i
      completions := s.completions ++ [(i, outcome i)] } := by
  obtain ⟨haccepted, k, hk, hrunning, hresults⟩ := h
  rw [hrunning] at hi
  obtain ⟨m, hm⟩ : ∃ m, n - k = m + 1 := by
    cases hnk : n - k with
    | zero =>
      rw [hnk] at hi
      cases hi
    | succ m => exact ⟨m, rfl⟩
  rw [hm, List.range'_succ, List.head?_cons, Option.some.injEq] at hi
  subst hi
  refine ⟨haccepted, k + 1, by omega, ?_, ?_⟩
  · dsimp only
    rw [hrunning, hm, List.range'_succ, List.erase_cons_head]
    congr 1
    omega
  · dsimp only
    rw [List.map_append, ← List.append_assoc, hresults, List.range_succ, List.map_append]
    rfl

lemma CompletedInOrder.getEvents {n : Nat} {results : List Int}
    (h : CompletedInOrder outcome n results s) (count : Nat) :
    CompletedInOrder outcome n (results ++ (s.completions.take count).map Prod.snd)
      { s with completions := s.completions.drop count } := by
  obtain ⟨haccepted, k, hk, hrunning, hresults⟩ := h
  refine ⟨haccepted, k, hk, hrunning, ?_⟩
  dsimp only
  rw [List.append_assoc, ← List.map_append, List.take_append_drop, hresults]

lemma CompletedInOrder.length {n : Nat} {results : List Int}
    (h : CompletedInOrder outcome n results s) :
    results.length + s.completions.length + s.running.length = n := by
  obtain ⟨-, k, hk, hrunning, hresults⟩ := h
  have hlength := congrArg List.length hresults
  rw [List.length_append, List.length_map, List.length_map, List.length_range] at hlength
  rw [hrunning, List.length_range']
  omega

lemma CompletedInOrder.all {n : Nat} {results : List Int}
    (h : CompletedInOrder outcome n results s) (hn : n ≤ results.length) :
    results = (List.range n).map outcome := by
  have hlength := h.length
  obtain ⟨-, k, hk, hrunning, hresults⟩ := h
  have hrest : s.completions = [] := List.length_eq_zero_iff.mp (by omega)
  have hkn : k = n := by
    rw [hrunning, List.length_range'] at hlength
    omega
  rw [hrest, hkn, List.map_nil, List.append_nil] at hresults
  exact hresults

structure BatchOk (outcome : Nat → Int) (ops : List Iocb) (s : AioCommit) : Prop where
  count : s.pendingCount = ops.length
  committed : s.stage = .committed → s.running = [] ∧ s.completions = []
  suspended : s.stage = .suspended → CompletedInOrder outcome ops.length [] s
  collecting : ∀ results, s.stage = .collecting results →
    CompletedInOrder outcome ops.length results s
  resumed : ∀ v, s.stage = .resumed (.ok v) → v = (List.range ops.length).map outcome

lemma batchOk_commit {file : AioFile} (h : file.pendingCbs = ops) :
    BatchOk outcome ops file.commit where
  count := congrArg List.length h
  committed := fun _ => ⟨rfl, rfl⟩
  suspended := by rintro ⟨⟩
  collecting := by rintro _ ⟨⟩
  resumed := by rintro _ ⟨⟩

lemma BatchOk.fails (h : BatchOk outcome ops s) (error : IOError) :
    BatchOk outcome ops { s with stage := .resumed (.error error) } :=
  ⟨h.count, by rintro ⟨⟩, by rintro ⟨⟩, by rintro _ ⟨⟩, by rintro _ ⟨⟩⟩

lemma BatchOk.submit (h : BatchOk outcome ops s) (hstage : s.stage = .committed) {ret : Int}
    (hret : ret < 0 ∨ ret = s.pendingCount) : BatchOk outcome ops (s.submit ret) := by
  unfold AioCommit.submit
  split
  · next hzero =>
    refine ⟨h.count, by rintro ⟨⟩, by rintro ⟨⟩, by rintro _ ⟨⟩, ?_⟩
    rintro v ⟨⟩
    rw [← h.count, hzero]
    rfl
  · split
    · exact h.fails _
    · have hall : ret.toNat = ops.length := by
        rw [← h.count]
        omega
      obtain ⟨-, hcompletions⟩ := h.committed hstage
      refine ⟨h.count, by rintro ⟨⟩, fun _ => ?_, by rintro _ ⟨⟩, by rintro _ ⟨⟩⟩
      refine ⟨hall, 0, Nat.zero_le _, ?_, ?_⟩
      · dsimp only
        rw [hall, List.range_eq_range', Nat.sub_zero]
      · dsimp only
        rw [hcompletions]
        rfl

lemma BatchOk.complete (h : BatchOk outcome ops s) {i : Nat} (hi : s.running.head? = some i) :
    BatchOk outcome ops { s with
      running := s.running.erase i
      completions := s.completions ++ [(i, outcome i)] } where
  count := h.count
  committed := by
    intro hstage
    rw [(h.committed hstage).1] at hi
    cases hi
  suspended := fun hstage => (h.suspended hstage).complete hi
  collecting := fun results hstage => (h.collecting results hstage).complete hi
  resumed := h.resumed

lemma batchOk_collected {results : List Int} (hcount : s.pendingCount = ops.length)
    (hresults : CompletedInOrder outcome ops.length results s) :
    BatchOk outcome ops (s.collected results) := by
  unfold AioCommit.collected
  split
  · refine ⟨hcount, by rintro ⟨⟩, by rintro ⟨⟩, ?_, by rintro _ ⟨⟩⟩
    rintro _ ⟨⟩
    exact hresults
  · next hlength =>
    refine ⟨hcount, by rintro ⟨⟩, by rintro ⟨⟩, by rintro _ ⟨⟩, ?_⟩
    rintro v ⟨⟩
    rw [hcount, Nat.not_lt] at hlength
    exact hresults.all hlength

lemma BatchOk.step (h : BatchOk outcome ops s) {a : AioAction} (haccepts : acceptsBatch s a)
    (horder : completesInOrder s a) (hs : s.step outcome a = some s') :
    BatchOk outcome ops s' := by
  cases a with
  | submit ret =>
    simp only [AioCommit.step] at hs
    split at hs
    · next hstage =>
      split at hs <;> cases hs
      exact h.submit hstage (by simpa [acceptsBatch] using haccepts)
    · cases hs
  | complete i =>
    simp only [AioCommit.step] at hs
    split at hs <;> cases hs
    exact h.complete (by simpa [completesInOrder] using horder)
  | ready failed =>
    simp only [AioCommit.step] at hs
    split at hs
    · next hstage =>
      split at hs
      · cases hs
      · cases failed <;> cases hs
        · exact batchOk_collected h.count (h.suspended hstage)
        · exact h.fails _
    · cases hs
  | getEvents count =>
    simp only [AioCommit.step] at hs
    split at hs
    · next results hstage =>
      split at hs <;> cases hs
      exact batchOk_collected h.count ((h.collecting results hstage).getEvents count)
    · cases hs
  | getEventsFails errno =>
    simp only [AioCommit.step] at hs
    split at hs <;> cases hs
    exact h.fails _

lemma BatchOk.reports (h : BatchOk outcome ops s) : ReportsOperations outcome ops s where
  results := by
    intro v hv
    rw [h.resumed v hv]
    refine ⟨by rw [List.length_map, List.length_range], ?_⟩
    intro i hi
    rw [List.getElem?_map, List.getElem?_range hi]
    rfl
  submitted := fun hstage => (h.suspended hstage).1
  waits := by
    intro results hstage
    have hcollecting := h.collecting results hstage
    rw [h.count, hcollecting.length]
    exact ⟨Nat.le_of_eq hcollecting.1.symm, Nat.le_refl _⟩

/-- A batch that is accepted as a whole and completed in its order reports its operations. -/
theorem operations_reported (h : Reaches (AioCommit.step outcome)
    (fun s a => acceptsBatch s a = true ∧ completesInOrder s a = true)
    (queueAll .new ops).commit s) : ReportsOperations outcome ops s := by
  have hops : (queueAll .new ops).pendingCbs = ops := queueAll_pendingCbs ops .new
  have hok := h.invariant (P := BatchOk outcome ops) (batchOk_commit hops)
    (fun _ _ _ hok ha hs => hok.step ha.1 ha.2 hs)
  exact hok.reports

def writeThenRead : List Iocb := [⟨.pwrite, 0, 4, 0⟩, ⟨.pread, 1, 8, 4⟩]

def allBytes (i : Nat) : Int := if i = 0 then 4 else 8

theorem writeThenRead_reported : ∃ s : AioCommit, s.stage = .resumed (.ok [4, 8]) ∧
    ReportsOperations allBytes writeThenRead s :=
  ⟨_, rfl, operations_reported (.of_run (fun s a => acceptsBatch s a && completesInOrder s a)
    (fun _ _ h => by simpa using h)
    [.submit 2, .complete 0, .ready none, .getEvents 1, .complete 1, .getEvents 1] .start rfl)⟩

/-- Completions that overtake one another are stored at the wrong places, and after a part of the
batch has been accepted the reactor waits for completions that never come. -/
theorem operations_can_be_misreported :
    (¬∀ s, Reaches (AioCommit.step allBytes) (fun s a => acceptsBatch s a = true)
      (queueAll .new writeThenRead).commit s → ReportsOperations allBytes writeThenRead s) ∧
    ¬∀ s, Reaches (AioCommit.step allBytes) (fun s a => completesInOrder s a = true)
      (queueAll .new writeThenRead).commit s → ReportsOperations allBytes writeThenRead s := by
  refine ⟨fun hall => ?_, fun hall => ?_⟩
  · have hoperations := hall _ (.of_run acceptsBatch (fun _ _ h => h)
      [.submit 2, .complete 1, .complete 0, .ready none, .getEvents 2] .start rfl)
    obtain ⟨-, hentries⟩ := hoperations.results [8, 4] rfl
    have hfirst := hentries 0 (by decide)
    cases hfirst
  · have hoperations := hall _ (.of_run completesInOrder (fun _ _ h => h)
      [.submit 1, .complete 0, .ready none, .getEvents 1] .start rfl)
    obtain ⟨haccepted, -⟩ := hoperations.waits [4] rfl
    exact absurd haccepted (by decide)

end GalayKernel.Proofs
