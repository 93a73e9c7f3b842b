import GalayKernel.UringWrite
import GalayKernel.Proofs.UringTokens

/-!
# No stale completion on the write side

A request whose token has the current generation of the slot was submitted for the awaitable that is
in the slot: whoever puts an awaitable into the slot or takes it out begins a new generation, except
for a sequence that submits its next step into an empty slot, and then no request of the current
generation is left. So a completion that passes the check of the generation reaches the awaitable
for which its request was made. Notifications are dropped after the token has been updated.
-/

namespace GalayKernel.Proofs

open Transition SqeTokenArena

/-- The requests of the current generation are for the awaitable in the slot. -/
def CurrentFor (a : SqeTokenArena) (awaitable : Option Nat) : Prop :=
  ∀ r ∈ a.requests, (a.tokens r.token).generation = a.generation → awaitable = some r.submitter

variable {a a' : SqeTokenArena} {busy : List Nat} {awaitable : Option Nat} {zc : Bool}
  {sub : SqeSubmission} {flags : CqeFlags}

lemma ArenaOk.currentFor_newGeneration (h : ArenaOk busy a) (owned : Bool)
    (awaitable : Option Nat) :
    CurrentFor { a with generation := a.generation + 1, owned } awaitable := by
  intro r hr hgeneration
  have hle := h.generation_le r hr
  simp only at hgeneration
  omega

lemma CurrentFor.congr (h : CurrentFor a awaitable)
    (hrequests : ∀ r ∈ a'.requests, r ∈ a.requests ∧ a'.tokens r.token = a.tokens r.token)
    (hgeneration : a'.generation = a.generation) : CurrentFor a' awaitable := by
  intro r hr hr'
  obtain ⟨hmem, htoken⟩ := hrequests r hr
  rw [htoken, hgeneration] at hr'
  exact h r hmem hr'

lemma ArenaOk.currentFor_recycle {t : Nat} (h : ArenaOk (t :: busy) a)
    (hc : CurrentFor a awaitable) : CurrentFor (a.recycle t) awaitable := by
  refine hc.congr (fun r hr => ⟨hr, ?_⟩) rfl
  exact Function.update_of_ne (token_ne h.not_held hr) _ _

lemma protocol_ne_multishot (hwrite : sub.type.slot = .write) : sub.protocol zc ≠ .multishot := by
  unfold SqeSubmission.protocol
  cases htype : sub.type <;> simp_all [KqueueEventType.slot]
  split <;> simp

/-- A submission for the awaitable in the slot, or into an empty slot, which it then fills. -/
lemma ArenaOk.currentFor_submit (h : ArenaOk busy a) (hc : CurrentFor a awaitable) (zc : Bool)
    (sub : SqeSubmission) (hwrite : sub.type.slot = .write)
    (hslot : awaitable = some sub.submitter ∨ awaitable = none) :
    CurrentFor (a.submit zc sub).2
      (if (a.submit zc sub).1 = 0 then some sub.submitter else awaitable) := by
  have hepoch : epochOf zc a sub = a := if_neg (protocol_ne_multishot hwrite)
  obtain heq | ⟨t, c, hacquire, heq⟩ := submit_cases zc a sub
  · rw [heq, hepoch, if_neg (show ¬-(ENOMEM : Int) = 0 by decide)]
    exact hc
  · rw [hepoch] at hacquire
    obtain ⟨hc', hnot, htokens, hrequests, hgeneration, -⟩ := h.acquire hacquire
    have hacquired : CurrentFor c awaitable := by
      refine hc.congr (fun r hr => ?_) hgeneration
      rw [hrequests] at hr
      rw [htokens, Function.update_of_ne (token_ne hnot hr)]
      exact ⟨hr, rfl⟩
    obtain heq | heq := heq
    · rw [heq, if_neg (show ¬-(EAGAIN : Int) = 0 by decide)]
      exact hc'.currentFor_recycle hacquired
    · rw [heq, if_pos rfl]
      intro r hr hr'
      rcases List.mem_append.mp hr with hr | hr
      · have hne : r.token ≠ t := token_ne hnot (hrequests ▸ hr)
        simp only [setToken] at hr'
        rw [Function.update_of_ne hne] at hr'
        have hfor := hacquired r hr hr'
        rcases hslot with hslot | hslot
        · rw [← hfor, hslot]
        · rw [hslot] at hfor
          cases hfor
      · rw [List.mem_singleton.mp hr]

lemma CurrentFor.post {i : Nat} {r : SqeRequest} {remaining : Option SqeProtocol}
    (hc : CurrentFor a awaitable) (hi : a.requests[i]? = some r) :
    CurrentFor (a.post i r flags remaining) awaitable := by
  have hgeneration : ∀ t, ((a.post i r flags remaining).tokens t).generation =
      (a.tokens t).generation := by
    intro t
    simp only [SqeTokenArena.post, setToken]
    by_cases ht : t = r.token
    · rw [ht, Function.update_self, generation_complete]
    · rw [Function.update_of_ne ht]
  intro r' hr' hcurrent
  rw [hgeneration] at hcurrent
  cases remaining with
  | none => exact hc r' (List.mem_of_mem_eraseIdx hr') hcurrent
  | some protocol' =>
    rcases List.mem_or_eq_of_mem_set hr' with hmem | rfl
    · exact hc r' hmem hcurrent
    · exact hc r (List.mem_of_getElem? hi) hcurrent

lemma ArenaOk.currentFor_leave {i : Nat} {r : SqeRequest} {remaining : Option SqeProtocol}
    {b : SqeTokenArena} (h : ArenaOk [] a) (hi : a.requests[i]? = some r)
    (hposts : r.protocol.posts flags = some remaining)
    (hb : ArenaOk (guardTokens r.token remaining) b) (hc : CurrentFor b awaitable) :
    CurrentFor (b.leave r.token ((a.tokens r.token).complete flags).2 remaining) awaitable := by
  cases remaining with
  | none =>
    cases ((a.tokens r.token).complete flags).2 with
    | true => exact hb.currentFor_recycle hc
    | false => exact hc
  | some protocol' =>
    obtain ⟨hkeeps, -⟩ := (h.follows r (List.mem_of_getElem? hi)).complete_more hposts
    rw [hkeeps]
    exact hc

variable {s s' : UringWrites}

/-- What holds between two operations on the slot, where `processCompletion` has the tokens `busy`
in hand. -/
structure WriteOk (busy : List Nat) (s : UringWrites) : Prop where
  arena : ArenaOk busy s.arena
  current : CurrentFor s.arena s.awaitable
  plain_slot : ∀ a type, s.kind a = .plain type → type.slot = .write
  applied : ∀ p ∈ s.applied, p.1.submitter = p.2

lemma writeOk_new : WriteOk [] UringWrites.new where
  arena := arenaOk_new
  current := fun _ hr => by cases hr
  plain_slot := fun _ _ h => by cases h
  applied := fun _ hp => by cases hp

lemma WriteOk.fillAwaitable (h : WriteOk busy s) (a : Nat) : WriteOk busy (s.fillAwaitable a) :=
  { h with
    arena := h.arena.newGeneration true
    current := h.arena.currentFor_newGeneration true (some a) }

lemma WriteOk.removeAwaitable (h : WriteOk busy s) : WriteOk busy s.removeAwaitable :=
  { h with
    arena := h.arena.newGeneration true
    current := h.arena.currentFor_newGeneration true none }

lemma WriteOk.addPlain (h : WriteOk busy s) (zc : Bool) (input : WriteInput)
    (hwrite : input.type.slot = .write) : WriteOk busy (s.addPlain zc input).2 := by
  unfold UringWrites.addPlain
  split
  · exact h
  · next a hslot =>
    have hc := h.arena.currentFor_submit h.current zc
      ⟨input.type, false, input.length, input.memory, input.hasSqe, a⟩ hwrite (.inl hslot)
    rw [hslot, ite_self, ← hslot] at hc
    exact { h with
      arena := h.arena.submit
      current := hc }

lemma WriteOk.submitSequenceSqe {owner : Nat} {front : WriteInput} (h : WriteOk busy s)
    (hempty : s.awaitable = none) (hwrite : front.type.slot = .write) :
    WriteOk busy (s.submitSequenceSqe zc owner front).2 :=
  { h with
    arena := h.arena.submit
    current := h.arena.currentFor_submit h.current zc
      ⟨front.type, true, front.length, front.memory, front.hasSqe, owner⟩ hwrite (.inr hempty) }

lemma WriteOk.addSequence {front : Option WriteInput} (h : WriteOk busy s) (zc : Bool)
    (hwrite : (SequenceWrite.waits front).usesWrite = true) :
    WriteOk busy (s.addSequence zc front).2 := by
  unfold UringWrites.addSequence
  split
  · next owner front howner =>
    split_ifs with hown hsome
    · exact h
    · exact h
    · exact h.submitSequenceSqe (by simpa using hsome)
        (by simpa [SequenceWrite.usesWrite] using hwrite)
  · exact h

lemma WriteOk.removeIf (h : WriteOk busy s) (a : Nat) :
    WriteOk busy (if s.awaitable = some a then s.removeAwaitable else s) := by
  split_ifs
  · exact h.removeAwaitable
  · exact h

lemma WriteOk.releaseRegisteredDomain (h : WriteOk busy s) (a : Nat) :
    WriteOk busy (s.releaseRegisteredDomain a) := by
  have hreleased : WriteOk busy
      (if s.sequenceOwner = some a then { s with sequenceOwner := none } else s) := by
    split_ifs
    · exact { h with }
    · exact h
  exact hreleased.removeIf a

lemma WriteOk.awaitResume (h : WriteOk busy s) (a : Nat) : WriteOk busy (s.awaitResume a) := by
  unfold UringWrites.awaitResume
  split
  · exact h.removeIf a
  · exact h.releaseRegisteredDomain a

lemma WriteOk.issue {kind : WriteKind} (h : WriteOk busy s)
    (hkind : ∀ type, kind = .plain type → type.slot = .write) : WriteOk busy (s.issue kind).2 :=
  { h with
    plain_slot := by
      intro a type ha
      by_cases hnew : a = s.issued
      · subst hnew
        simp only [UringWrites.issue, Function.update_self] at ha
        exact hkind type ha
      · simp only [UringWrites.issue] at ha
        rw [Function.update_of_ne hnew] at ha
        exact h.plain_slot a type ha }

lemma WriteOk.beginPlain {input : WriteInput} {onIOScheduler : Bool} (h : WriteOk busy s)
    (hwrite : input.type.slot = .write) : WriteOk busy (s.beginPlain zc input onIOScheduler) := by
  have hissued : WriteOk busy (s.issue (.plain input.type)).2 := by
    apply h.issue
    rintro _ ⟨⟩
    exact hwrite
  have hfilled := hissued.fillAwaitable s.issued
  have hadded := hfilled.addPlain zc input hwrite
  unfold UringWrites.beginPlain
  dsimp only
  split_ifs
  · exact hissued.awaitResume _
  · exact hfilled.awaitResume _
  · exact hadded.awaitResume _
  · exact { hadded with }

lemma WriteOk.beginSequence {prepared : SequenceWrite} {onIOScheduler : Bool} (h : WriteOk busy s)
    (hwrite : prepared.usesWrite = true) :
    WriteOk busy (s.beginSequence zc prepared onIOScheduler) := by
  have hissued : WriteOk busy (s.issue .sequence).2 := h.issue (by simp)
  have hclaimed : WriteOk busy
      { (s.issue .sequence).2 with sequenceOwner := some s.issued } := { hissued with }
  unfold UringWrites.beginSequence
  dsimp only
  split
  · exact hissued
  · cases prepared with
    | completed => exact hclaimed.awaitResume _
    | waits front =>
      have hadded := hclaimed.addSequence zc hwrite
      dsimp only
      split_ifs
      · exact hclaimed.awaitResume _
      · exact hadded.awaitResume _
      · exact { hadded with }

lemma WriteOk.apply {r : SqeRequest} {reaction : WriteReaction} (h : WriteOk busy s)
    (hfor : ∀ a, s.awaitable = some a → r.submitter = a)
    (hwrite : reaction.next.usesWrite = true) : WriteOk busy (s.apply zc r reaction) := by
  unfold UringWrites.apply
  split
  · exact h
  · next a hslot =>
    have hlogged : WriteOk busy { s with applied := s.applied ++ [(r, a)] } :=
      { h with
        applied := by
          intro p hp
          rcases List.mem_append.mp hp with hp | hp
          · exact h.applied p hp
          · rw [List.mem_singleton.mp hp]
            exact hfor a hslot }
    dsimp only
    cases hkind : s.kind a with
    | plain type =>
      have hadded := hlogged.addPlain zc { reaction.retry with type }
        (h.plain_slot a type hkind)
      dsimp only
      split_ifs
      · exact { hlogged with }
      · exact { hadded with }
      · exact hadded
    | sequence =>
      have hremoved := hlogged.removeAwaitable
      cases hnext : reaction.next with
      | completed => exact { hremoved with }
      | waits front =>
        have hadded := hremoved.addSequence zc (hnext ▸ hwrite)
        dsimp only
        split_ifs
        · exact { hadded with }
        · exact hadded

/-- A completion that passes the stale checks is for the awaitable in the slot. -/
lemma WriteOk.submitter_of_applies {i : Nat} {r : SqeRequest} (h : WriteOk [] s)
    (hi : s.arena.requests[i]? = some r)
    (happlies : s.arena.applies (s.arena.tokens r.token) flags = true) {a : Nat}
    (ha : s.awaitable = some a) : r.submitter = a := by
  simp only [applies, Bool.and_eq_true, beq_iff_eq] at happlies
  have hcurrent := h.current r (List.mem_of_getElem? hi) happlies.1.1.2.symm
  rw [ha, Option.some.injEq] at hcurrent
  exact hcurrent.symm

lemma WriteOk.complete {i : Nat} {r : SqeRequest} {remaining : Option SqeProtocol}
    {reaction : WriteReaction} (h : WriteOk [] s) (hi : s.arena.requests[i]? = some r)
    (hposts : r.protocol.posts flags = some remaining)
    (hwrite : reaction.next.usesWrite = true) :
    WriteOk [] (s.complete zc i r flags remaining reaction) := by
  have hposted : WriteOk (guardTokens r.token remaining)
      { s with arena := s.arena.post i r flags remaining } :=
    { h with
      arena := h.arena.post hi hposts
      current := h.current.post hi }
  have happlied : WriteOk (guardTokens r.token remaining)
      (if s.arena.applies (s.arena.tokens r.token) flags then
        UringWrites.apply zc { s with arena := s.arena.post i r flags remaining } r reaction
      else { s with arena := s.arena.post i r flags remaining }) := by
    split_ifs with happlies
    · exact hposted.apply (fun a ha => h.submitter_of_applies hi happlies ha) hwrite
    · exact hposted
  exact { happlied with
    arena := h.arena.leave hi hposts happlied.arena
    current := h.arena.currentFor_leave hi hposts happlied.arena happlied.current }

lemma WriteOk.close (h : WriteOk busy s) : WriteOk busy s.close := by
  unfold UringWrites.close
  split_ifs
  · exact { h with
      arena := h.arena.newGeneration false
      current := h.arena.currentFor_newGeneration false none }
  · exact h

lemma WriteOk.step {act : WriteAction} (h : WriteOk [] s) (hs : s.step zc act = some s') :
    WriteOk [] s' := by
  cases act with
  | beginPlain input onIOScheduler =>
    simp only [UringWrites.step, Option.ite_none_right_eq_some, Bool.and_eq_true, beq_iff_eq,
      Option.some.injEq] at hs
    obtain ⟨⟨-, hwrite⟩, rfl⟩ := hs
    exact h.beginPlain hwrite
  | beginSequence prepared onIOScheduler =>
    simp only [UringWrites.step, Option.ite_none_right_eq_some, Bool.and_eq_true,
      Option.some.injEq] at hs
    obtain ⟨⟨-, hwrite⟩, rfl⟩ := hs
    exact h.beginSequence hwrite
  | complete i flags reaction =>
    rw [UringWrites.step] at hs
    split at hs
    · cases hs
    · next r hi =>
      split at hs
      · cases hs
      · next remaining hposts =>
        simp only [Option.ite_none_right_eq_some, Option.some.injEq] at hs
        obtain ⟨hwrite, rfl⟩ := hs
        exact h.complete hi hposts hwrite
  | expire a =>
    simp only [UringWrites.step, Option.ite_none_right_eq_some, Option.some.injEq] at hs
    obtain ⟨-, rfl⟩ := hs
    exact { h with }
  | resume a =>
    simp only [UringWrites.step, Option.ite_none_right_eq_some, Option.some.injEq] at hs
    obtain ⟨-, rfl⟩ := hs
    exact { h.awaitResume a with }
  | close =>
    rw [UringWrites.step, Option.some.injEq] at hs
    subst hs
    exact h.close

/-- On the write side a completion is applied to an awaitable only if its request was submitted for
that awaitable. -/
theorem write_completions_not_stale (h : Reaches (UringWrites.step zc) (fun _ _ => True) .new s) :
    ∀ p ∈ s.applied, p.1.submitter = p.2 := by
  have hok : WriteOk [] s :=
    h.invariant (P := WriteOk []) writeOk_new fun _ _ _ hs _ hstep => hs.step hstep
  exact hok.applied

/-- A result that ends a plain operation, and one after which it is tried again. -/
def doneReaction : WriteReaction := ⟨true, ⟨.send, 0, true, true⟩, .completed⟩
def retryReaction : WriteReaction := ⟨false, ⟨.send, 4096, true, true⟩, .completed⟩

/-- A connect; a zero-copy send that would block, is tried again and times out; a `writev` during
which the late completions of the send arrive and which is cut off by `close`; a sequence that times
out and another one with two steps. -/
def mixedWrites : List WriteAction :=
  [.beginPlain ⟨.connect, 0, true, true⟩ true,
    .complete 0 ⟨false, false⟩ doneReaction,
    .resume 0,
    .beginPlain ⟨.send, 4096, true, true⟩ true,
    .complete 0 ⟨false, true⟩ retryReaction,
    .expire 1,
    .resume 1,
    .beginPlain ⟨.writev, 0, true, true⟩ true,
    .complete 1 ⟨false, true⟩ doneReaction,
    .complete 0 ⟨true, false⟩ doneReaction,
    .close,
    .complete 1 ⟨false, false⟩ doneReaction,
    .beginSequence (.waits (some ⟨.send, 10, true, true⟩)) true,
    .expire 3,
    .resume 3,
    .beginSequence (.waits (some ⟨.send, 10, true, true⟩)) true,
    .complete 2 ⟨false, false⟩
      ⟨true, ⟨.send, 0, true, true⟩, .waits (some ⟨.writev, 0, true, true⟩)⟩,
    .complete 2 ⟨false, false⟩ doneReaction,
    .resume 4]

theorem mixedWrites_not_stale : ∃ s, run (UringWrites.step true) .new mixedWrites = some s ∧
    s.applied.map Prod.snd = [0, 1, 4, 4] ∧ ∀ p ∈ s.applied, p.1.submitter = p.2 := by
  have hrun : ∃ s, run (UringWrites.step true) .new mixedWrites = some s ∧
      s.applied.map Prod.snd = [0, 1, 4, 4] := ⟨_, rfl, rfl⟩
  obtain ⟨s, hs, happlied⟩ := hrun
  exact ⟨s, hs, happlied, write_completions_not_stale (.of_replay mixedWrites .start hs)⟩

end GalayKernel.Proofs
