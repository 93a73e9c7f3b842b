import GalayKernel.SequenceOwnership
import GalayKernel.Lib.Transition
import Mathlib.Tactic.Common

/-!
# Plain operations and sequences do not disturb each other

The two ways to suspend check the slot, the two ways to resume do not: `resumeIOAwaitable` clears
the slot and the bit of its operation whoever has the slot, and an operation that was refused runs
it too. That is harmless, since a slot with an owner holds no awaitable and no bit of its direction
is set.

`await_suspend` claims the slots of a sequence before it is known whether its task waits, so the
invariant of the owners is about a set of sequences that are `awaited`: those whose task waits, and
in the middle of a step the one that has claimed its slots.
-/

namespace GalayKernel.Proofs

open Transition OwnershipState

variable {π ι : Type} {s s' s'' : OwnershipState π ι} {i j : ι} {slot : IOSlot}
  {type : KqueueEventType} {p : π} {awaited : ι → Bool}

/-- `m_type` and the slots are those of the plain operations whose tasks wait. -/
structure PlainOk (s : OwnershipState π ι) : Prop where
  direction : ∀ ⦃slot op⦄, s.pending slot = some op → op.type.slot = slot
  filled : ∀ ⦃slot p⦄, s.controller.awaitable slot = some p →
    ∃ type, s.pending slot = some ⟨p, type⟩
  bits : ∀ type, s.controller.type.plain type = true ↔
    ∃ p, s.controller.awaitable type.slot = some p ∧ s.pending type.slot = some ⟨p, type⟩

/-- The slots with an owner are those of the sequences that are awaited. -/
structure OwnersOk (awaited : ι → Bool) (s : OwnershipState π ι) : Prop where
  exclusive : ∀ ⦃slot i⦄, s.controller.sequenceOwner slot = some i →
    s.controller.awaitable slot = none
  bit : s.controller.type.sequence = true ↔ ∃ slot i, s.controller.sequenceOwner slot = some i
  owned : ∀ ⦃slot i⦄, s.controller.sequenceOwner slot = some i → awaited i = true ∧
    (s.sequences i).requestedDomain.usesSlot slot = true
  owns : s.controller.isOpen = true → ∀ ⦃slot i⦄, awaited i = true →
    (s.sequences i).requestedDomain.usesSlot slot = true →
    s.controller.sequenceOwner slot = some i
  registered : ∀ ⦃i⦄, awaited i = true → (s.sequences i).registered = true ∧
    (s.sequences i).registeredDomain = (s.sequences i).requestedDomain

structure OwnershipOk (s : OwnershipState π ι) : Prop where
  plain : PlainOk s
  owners : OwnersOk s.suspended s
  disjoint : ∀ ⦃slot i j⦄, s.suspended i = true → s.suspended j = true →
    (s.sequences i).requestedDomain.usesSlot slot = true →
    (s.sequences j).requestedDomain.usesSlot slot = true → i = j

lemma ownershipOk_new (isOpen : Bool) : OwnershipOk (.new isOpen : OwnershipState π ι) where
  plain := ⟨nofun, nofun, fun _ => iff_of_false Bool.false_ne_true nofun⟩
  owners := ⟨nofun, iff_of_false Bool.false_ne_true nofun, nofun, nofun, nofun⟩
  disjoint := nofun

/-- On an open controller a slot is the place where two sequences would meet. -/
lemma OwnersOk.disjoint (h : OwnersOk awaited s) (hopen : s.controller.isOpen = true)
    (hi : awaited i = true) (hj : awaited j = true)
    (hi' : (s.sequences i).requestedDomain.usesSlot slot = true)
    (hj' : (s.sequences j).requestedDomain.usesSlot slot = true) : i = j :=
  Option.some.inj ((h.owns hopen hi hi').symm.trans (h.owns hopen hj hj'))

lemma OwnershipOk.of_fewer (h : OwnershipOk s) (hplain : PlainOk s')
    (howners : OwnersOk s'.suspended s')
    (hfewer : ∀ i, s'.suspended i = true → s.suspended i = true ∧
      (s'.sequences i).requestedDomain = (s.sequences i).requestedDomain) : OwnershipOk s' := by
  refine ⟨hplain, howners, ?_⟩
  intro slot i j hi hj hi' hj'
  obtain ⟨hi, hdi⟩ := hfewer i hi
  obtain ⟨hj, hdj⟩ := hfewer j hj
  rw [hdi] at hi'
  rw [hdj] at hj'
  exact h.disjoint hi hj hi' hj'

lemma PlainOk.bit_eq_false (h : PlainOk s) (hnone : s.controller.awaitable type.slot = none) :
    s.controller.type.plain type = false := by
  rw [← Bool.not_eq_true, h.bits]
  rintro ⟨p, hp, -⟩
  cases hnone.symm.trans hp

lemma PlainOk.awaitable_eq_none (h : PlainOk s) (hnone : s.pending slot = none) :
    s.controller.awaitable slot = none := by
  rw [Option.eq_none_iff_forall_ne_some]
  intro p hp
  obtain ⟨type, hpending⟩ := h.filled hp
  cases hnone.symm.trans hpending

lemma PlainOk.resume_eq_self (h : PlainOk s) (hnone : s.controller.awaitable type.slot = none) :
    s.resumeIOAwaitable type = s := by
  have hbit := h.bit_eq_false hnone
  unfold resumeIOAwaitable removeAwaitable
  rw [← hnone, ← hbit, Function.update_eq_self, Function.update_eq_self]

lemma resume_fill : (s.fillAwaitable type p).resumeIOAwaitable type = s.resumeIOAwaitable type := by
  simp [fillAwaitable, resumeIOAwaitable, removeAwaitable, Function.update_idem]

lemma suspendRegistered_cases (submit : PlainSubmit) :
    s.suspendRegisteredAwaitable p type submit = (false, s) ∨
      s.controller.sequenceOwner type.slot = none ∧
        ∃ suspends, s.suspendRegisteredAwaitable p type submit =
          (suspends, s.fillAwaitable type p) := by
  unfold suspendRegisteredAwaitable
  dsimp only
  by_cases howner : (s.controller.sequenceOwner type.slot).isSome = true
  · exact .inl (if_pos howner)
  · right
    refine ⟨by simpa using howner, ?_⟩
    rw [if_neg howner]
    split_ifs
    · exact ⟨false, rfl⟩
    · exact ⟨false, rfl⟩
    · exact ⟨false, rfl⟩
    · exact ⟨true, rfl⟩

/-- A plain operation has found the slot without an owner and waits there, or has left no trace. -/
lemma PlainOk.beginPlain_cases (h : PlainOk s) (hnone : s.pending type.slot = none)
    (submit : PlainSubmit) :
    s.beginPlain p type submit = s ∨
      s.controller.sequenceOwner type.slot = none ∧ s.beginPlain p type submit =
        { s.fillAwaitable type p with
          pending := Function.update s.pending type.slot (some ⟨p, type⟩) } := by
  have hself := h.resume_eq_self (h.awaitable_eq_none hnone)
  unfold beginPlain
  obtain heq | ⟨howner, suspends, heq⟩ := suspendRegistered_cases (s := s) (p := p) submit
  · rw [heq]
    exact .inl hself
  · rw [heq]
    cases suspends with
    | false => exact .inl (resume_fill.trans hself)
    | true => exact .inr ⟨howner, rfl⟩

lemma PlainOk.fill (h : PlainOk s) (hnone : s.pending type.slot = none) :
    PlainOk { s.fillAwaitable type p with
      pending := Function.update s.pending type.slot (some ⟨p, type⟩) } := by
  constructor
  · intro slot op hop
    obtain rfl | hslot := eq_or_ne slot type.slot
    · simp only [Function.update_self, Option.some.injEq] at hop
      rw [← hop]
    · simp only [Function.update_of_ne hslot] at hop
      exact h.direction hop
  · intro slot q hq
    obtain rfl | hslot := eq_or_ne slot type.slot
    · simp only [fillAwaitable, Function.update_self, Option.some.injEq] at hq
      exact ⟨type, by simp [hq]⟩
    · simp only [fillAwaitable, Function.update_of_ne hslot] at hq ⊢
      exact h.filled hq
  · intro type'
    obtain rfl | htype := eq_or_ne type' type
    · simp [fillAwaitable]
    · simp only [fillAwaitable, Function.update_of_ne htype]
      rw [h.bits]
      obtain hslot | hslot := eq_or_ne type'.slot type.slot
      · simp [hslot, hnone, Ne.symm htype]
      · simp [hslot]

lemma PlainOk.resume (h : PlainOk s) {op : PlainOperation π} (hop : s.pending slot = some op) :
    PlainOk { s.resumeIOAwaitable op.type with
      pending := Function.update s.pending slot none } := by
  obtain rfl := h.direction hop
  constructor
  · intro slot op' hop'
    obtain rfl | hslot := eq_or_ne slot op.type.slot
    · simp at hop'
    · simp only [Function.update_of_ne hslot] at hop'
      exact h.direction hop'
  · intro slot q hq
    obtain rfl | hslot := eq_or_ne slot op.type.slot
    · simp [resumeIOAwaitable, removeAwaitable] at hq
    · simp only [resumeIOAwaitable, removeAwaitable, Function.update_of_ne hslot] at hq ⊢
      exact h.filled hq
  · intro type'
    obtain rfl | htype := eq_or_ne type' op.type
    · simp [resumeIOAwaitable, removeAwaitable]
    · simp only [resumeIOAwaitable, removeAwaitable, Function.update_of_ne htype]
      rw [h.bits]
      obtain hslot | hslot := eq_or_ne type'.slot op.type.slot
      · simp only [hslot, hop, Function.update_self, Option.some.injEq, reduceCtorEq, and_false,
          exists_false, iff_false, not_exists, not_and]
        rintro q - rfl
        exact htype rfl
      · simp [hslot]

lemma OwnershipOk.beginPlain (h : OwnershipOk s) (hnone : s.pending type.slot = none)
    (submit : PlainSubmit) : OwnershipOk (s.beginPlain p type submit) := by
  obtain heq | ⟨howner, heq⟩ := h.plain.beginPlain_cases (p := p) hnone submit
  · rwa [heq]
  · rw [heq]
    refine h.of_fewer (h.plain.fill hnone) { h.owners with exclusive := ?_ }
      fun i hi => ⟨hi, rfl⟩
    intro slot i hown
    have hslot : slot ≠ type.slot := by
      rintro rfl
      cases howner.symm.trans hown
    simpa [fillAwaitable, hslot] using h.owners.exclusive hown

lemma OwnershipOk.resumePlain (h : OwnershipOk s) {op : PlainOperation π}
    (hop : s.pending slot = some op) :
    OwnershipOk { s.resumeIOAwaitable op.type with
      pending := Function.update s.pending slot none } := by
  refine h.of_fewer (h.plain.resume hop) { h.owners with exclusive := ?_ } fun i hi => ⟨hi, rfl⟩
  intro slot i hown
  simp only [resumeIOAwaitable, removeAwaitable, Function.update_apply]
  split
  · rfl
  · exact h.owners.exclusive hown

lemma OwnershipOk.close (h : OwnershipOk s) : OwnershipOk s.close := by
  unfold OwnershipState.close
  split
  · refine h.of_fewer ⟨h.plain.direction, nofun, fun _ => iff_of_false Bool.false_ne_true nofun⟩
      ⟨nofun, iff_of_false Bool.false_ne_true nofun, nofun, nofun, h.owners.registered⟩
      fun i hi => ⟨hi, rfl⟩
  · exact h

/-- The plain operations, the tasks that wait and the domains are the same. -/
structure SamePlain (s s' : OwnershipState π ι) : Prop where
  isOpen : s'.controller.isOpen = s.controller.isOpen
  bits : s'.controller.type.plain = s.controller.type.plain
  awaitable : s'.controller.awaitable = s.controller.awaitable
  pending : s'.pending = s.pending
  suspended : s'.suspended = s.suspended
  domain : ∀ j, (s'.sequences j).requestedDomain = (s.sequences j).requestedDomain

lemma SamePlain.trans (h : SamePlain s s') (h' : SamePlain s' s'') : SamePlain s s'' where
  isOpen := h'.isOpen.trans h.isOpen
  bits := h'.bits.trans h.bits
  awaitable := h'.awaitable.trans h.awaitable
  pending := h'.pending.trans h.pending
  suspended := h'.suspended.trans h.suspended
  domain := fun j => (h'.domain j).trans (h.domain j)

lemma SamePlain.plainOk (h : SamePlain s s') (hp : PlainOk s) : PlainOk s' := by
  constructor
  · simpa only [h.pending] using hp.direction
  · simpa only [h.pending, h.awaitable] using hp.filled
  · simpa only [h.bits, h.pending, h.awaitable] using hp.bits

variable [DecidableEq ι]

lemma samePlain_setSequence {seq : SequenceObject}
    (hdomain : seq.requestedDomain = (s.sequences i).requestedDomain) :
    SamePlain s (s.setSequence i seq) where
  isOpen := rfl
  bits := rfl
  awaitable := rfl
  pending := rfl
  suspended := rfl
  domain := by
    intro j
    obtain rfl | hj := eq_or_ne j i
    · simp [setSequence, hdomain]
    · simp [setSequence, hj]

lemma samePlain_setActive (active : Option KqueueEventType) :
    SamePlain s (s.setSequence i { s.sequences i with active := active }) :=
  samePlain_setSequence rfl

lemma samePlain_sync : SamePlain s s.syncSequenceInterestMask :=
  ⟨rfl, rfl, rfl, rfl, rfl, fun _ => rfl⟩

lemma samePlain_claim (h : s.claimRequestedDomain i = some s') : SamePlain s s' := by
  simp only [claimRequestedDomain, Option.ite_none_left_eq_some, Option.some.injEq] at h
  obtain ⟨-, rfl⟩ := h
  refine ⟨rfl, rfl, rfl, rfl, rfl, (samePlain_setSequence ?_).domain⟩
  rfl

lemma samePlain_releaseSlots : SamePlain s (s.releaseSlots i) :=
  ⟨rfl, rfl, rfl, rfl, rfl, fun _ => rfl⟩

lemma samePlain_syncReleased : SamePlain s s.syncReleased := by
  unfold syncReleased
  split
  · exact ⟨rfl, rfl, rfl, rfl, rfl, fun _ => rfl⟩
  · exact samePlain_sync

lemma sequences_syncReleased : s.syncReleased.sequences = s.sequences := by
  unfold syncReleased
  split <;> rfl

lemma samePlain_release : SamePlain s (s.releaseRegisteredDomain i) := by
  unfold releaseRegisteredDomain
  dsimp only
  split
  · exact samePlain_setSequence rfl
  · refine (samePlain_releaseSlots.trans samePlain_syncReleased).trans (samePlain_setSequence ?_)
    rw [sequences_syncReleased]
    rfl

lemma samePlain_suspendSequence (submit : SequenceSubmit) :
    SamePlain s (s.suspendSequenceAwaitable i submit).2 := by
  unfold suspendSequenceAwaitable
  dsimp only
  have hreset : SamePlain s (s.setSequence i { s.sequences i with registered := false }) :=
    samePlain_setSequence rfl
  generalize s.setSequence i { s.sequences i with registered := false } = s₁ at hreset ⊢
  cases hclaim : s₁.claimRequestedDomain i with
  | none => exact hreset
  | some claimed =>
    have hprepared : SamePlain s
        (claimed.setSequence i { claimed.sequences i with active := submit.active }) :=
      (hreset.trans (samePlain_claim hclaim)).trans (samePlain_setActive _)
    have hsynced := hprepared.trans samePlain_sync
    dsimp only
    split_ifs
    · exact hprepared
    · exact hsynced.trans samePlain_release
    · exact hsynced
    · exact hsynced.trans samePlain_release
    · exact hsynced

lemma OwnersOk.sync (h : OwnersOk awaited s) : OwnersOk awaited s.syncSequenceInterestMask :=
  { h with }

lemma OwnersOk.setSequence (h : OwnersOk awaited s) (hi : awaited i = false)
    (seq : SequenceObject) : OwnersOk awaited (s.setSequence i seq) := by
  have hne : ∀ j, awaited j = true → (s.setSequence i seq).sequences j = s.sequences j := by
    rintro j hj
    refine Function.update_of_ne ?_ _ _
    rintro rfl
    exact Bool.false_ne_true (hi.symm.trans hj)
  refine ⟨h.exclusive, h.bit, ?_, ?_, ?_⟩
  · intro slot j hown
    obtain ⟨hj, huses⟩ := h.owned hown
    rw [hne j hj]
    exact ⟨hj, huses⟩
  · intro hopen slot j hj huses
    rw [hne j hj] at huses
    exact h.owns hopen hj huses
  · intro j hj
    rw [hne j hj]
    exact h.registered hj

lemma OwnersOk.setActive (h : OwnersOk awaited s) (active : Option KqueueEventType) :
    OwnersOk awaited (s.setSequence i { s.sequences i with active := active }) := by
  have hsame : ∀ j, ((s.setSequence i { s.sequences i with active := active }).sequences j) =
      { s.sequences j with active := if j = i then active else (s.sequences j).active } := by
    intro j
    obtain rfl | hj := eq_or_ne j i
    · simp [OwnershipState.setSequence]
    · simp [OwnershipState.setSequence, hj]
  refine ⟨h.exclusive, h.bit, ?_, ?_, ?_⟩
  · intro slot j hown
    simpa only [hsame] using h.owned hown
  · intro hopen slot j hj huses
    simp only [hsame] at huses
    exact h.owns hopen hj huses
  · intro j hj
    simpa only [hsame] using h.registered hj

/-- A sequence that is not awaited owns no slot, so that it claims only slots without an owner. -/
lemma OwnersOk.canClaim (h : OwnersOk awaited s) (hi : awaited i = false)
    (hclaim : s.canClaim i slot = true) :
    s.controller.awaitable slot = none ∧ s.controller.sequenceOwner slot = none := by
  simp only [OwnershipState.canClaim, canClaimSlot, Bool.and_eq_true, Option.isNone_iff_eq_none,
    Bool.or_eq_true, decide_eq_true_eq] at hclaim
  refine ⟨hclaim.1, hclaim.2.resolve_right ?_⟩
  intro hown
  exact Bool.false_ne_true (hi.symm.trans (h.owned hown).1)

lemma canClaim_of_claim (h : s.claimRequestedDomain i = some s')
    (huses : (s.sequences i).requestedDomain.usesSlot slot = true) : s.canClaim i slot = true := by
  simp only [claimRequestedDomain, Option.ite_none_left_eq_some] at h
  have hfree := h.1
  simp only [Bool.or_eq_true, Bool.and_eq_true, Bool.not_eq_true', not_or, not_and,
    Bool.not_eq_false] at hfree
  cases slot with
  | read => exact hfree.1 huses
  | write => exact hfree.2 huses

lemma exists_usesSlot (domain : SequenceOwnerDomain) : ∃ slot, domain.usesSlot slot = true := by
  cases domain
  · exact ⟨.read, rfl⟩
  · exact ⟨.write, rfl⟩
  · exact ⟨.read, rfl⟩

lemma OwnersOk.claim (h : OwnersOk awaited s) (hi : awaited i = false)
    (hclaim : s.claimRequestedDomain i = some s') :
    OwnersOk (Function.update awaited i true) s' := by
  have hcan : ∀ slot, (s.sequences i).requestedDomain.usesSlot slot = true →
      s.controller.awaitable slot = none ∧ s.controller.sequenceOwner slot = none :=
    fun slot huses => h.canClaim hi (canClaim_of_claim hclaim huses)
  simp only [claimRequestedDomain, Option.ite_none_left_eq_some, Option.some.injEq] at hclaim
  obtain ⟨-, rfl⟩ := hclaim
  refine ⟨?_, ?_, ?_, ?_, ?_⟩
  · intro slot j hown
    by_cases huses : (s.sequences i).requestedDomain.usesSlot slot = true
    · exact (hcan slot huses).1
    · simp only [SequenceOwnerDomain.claim, huses] at hown
      exact h.exclusive hown
  · obtain ⟨slot, huses⟩ := exists_usesSlot (s.sequences i).requestedDomain
    exact iff_of_true rfl ⟨slot, i, if_pos huses⟩
  · intro slot j hown
    by_cases huses : (s.sequences i).requestedDomain.usesSlot slot = true
    · simp only [SequenceOwnerDomain.claim, huses, if_true, Option.some.injEq] at hown
      subst hown
      simp [OwnershipState.setSequence, huses]
    · simp only [SequenceOwnerDomain.claim, huses] at hown
      obtain ⟨hj, hdomain⟩ := h.owned hown
      have hne : j ≠ i := by
        rintro rfl
        exact huses hdomain
      simp [OwnershipState.setSequence, hne, hj, hdomain]
  · intro hopen slot j hj huses
    obtain rfl | hne := eq_or_ne j i
    · exact if_pos (by simpa [OwnershipState.setSequence] using huses)
    · simp only [OwnershipState.setSequence, Function.update_of_ne hne] at hj huses
      have hown := h.owns hopen hj huses
      have hfree : ¬(s.sequences i).requestedDomain.usesSlot slot = true := by
        intro hi'
        cases (hcan slot hi').2.symm.trans hown
      exact (if_neg hfree).trans hown
  · intro j hj
    obtain rfl | hne := eq_or_ne j i
    · simp [OwnershipState.setSequence]
    · simp only [OwnershipState.setSequence, Function.update_of_ne hne] at hj ⊢
      exact h.registered hj

lemma owner_releaseSlots : (s.releaseSlots i).controller.sequenceOwner slot = some j ↔
    s.controller.sequenceOwner slot = some j ∧
      ((s.sequences i).registeredDomain.usesSlot slot = true → j ≠ i) := by
  simp only [releaseSlots, SequenceOwnerDomain.release]
  split
  · rename_i hrel
    simp only [Bool.and_eq_true, decide_eq_true_eq] at hrel
    simp only [reduceCtorEq, hrel, Option.some.injEq, forall_const, false_iff, not_and, not_not]
    exact Eq.symm
  · rename_i hrel
    simp only [Bool.and_eq_true, decide_eq_true_eq, not_and] at hrel
    refine ⟨fun hown => ⟨hown, ?_⟩, And.left⟩
    rintro huses rfl
    exact hrel huses hown

lemma owner_syncReleased :
    s.syncReleased.controller.sequenceOwner = s.controller.sequenceOwner := by
  unfold syncReleased
  split <;> rfl

lemma bit_syncReleased (hbit : ∀ slot i, s.controller.sequenceOwner slot = some i →
    s.controller.type.sequence = true) : s.syncReleased.controller.type.sequence = true ↔
      ∃ slot i, s.controller.sequenceOwner slot = some i := by
  unfold syncReleased
  split
  · rename_i hnone
    simp only [Bool.and_eq_true, Option.isNone_iff_eq_none] at hnone
    refine iff_of_false Bool.false_ne_true ?_
    rintro ⟨slot, i, hown⟩
    cases slot
    · cases hnone.1.symm.trans hown
    · cases hnone.2.symm.trans hown
  · rename_i hsome
    simp only [Bool.and_eq_true, Option.isNone_iff_eq_none, not_and_or] at hsome
    have hown : ∃ slot i, s.controller.sequenceOwner slot = some i := by
      obtain hown | hown := hsome
      · exact ⟨.read, Option.ne_none_iff_exists'.mp hown⟩
      · exact ⟨.write, Option.ne_none_iff_exists'.mp hown⟩
    obtain ⟨slot, i, hi⟩ := hown
    exact iff_of_true (hbit slot i hi) ⟨slot, i, hi⟩

lemma owner_release (hregistered : (s.sequences i).registered = true) :
    (s.releaseRegisteredDomain i).controller.sequenceOwner slot = some j ↔
      s.controller.sequenceOwner slot = some j ∧
        ((s.sequences i).registeredDomain.usesSlot slot = true → j ≠ i) := by
  simp only [releaseRegisteredDomain, hregistered, Bool.not_true, Bool.false_eq_true, if_false]
  exact (congrArg (· slot = some j) owner_syncReleased).to_iff.trans owner_releaseSlots

lemma OwnersOk.release (h : OwnersOk awaited s) (hi : awaited i = true) :
    OwnersOk (Function.update awaited i false) (s.releaseRegisteredDomain i) := by
  obtain ⟨hregistered, hdomain⟩ := h.registered hi
  have hframe := samePlain_release (s := s) (i := i)
  have howner : ∀ slot j, (s.releaseRegisteredDomain i).controller.sequenceOwner slot = some j ↔
      s.controller.sequenceOwner slot = some j ∧ j ≠ i := by
    intro slot j
    rw [owner_release hregistered, hdomain]
    refine and_congr_right fun hown => ⟨?_, fun hne _ => hne⟩
    rintro hne rfl
    exact hne (h.owned hown).2 rfl
  have hsequences : ∀ j, j ≠ i → (s.releaseRegisteredDomain i).sequences j = s.sequences j := by
    intro j hj
    simp [releaseRegisteredDomain, hregistered, OwnershipState.setSequence, hj,
      sequences_syncReleased, releaseSlots]
  have hawaited : ∀ j, Function.update awaited i false j = true → j ≠ i ∧ awaited j = true := by
    intro j hj
    obtain rfl | hne := eq_or_ne j i
    · simp at hj
    · rw [Function.update_of_ne hne] at hj
      exact ⟨hne, hj⟩
  refine ⟨?_, ?_, ?_, ?_, ?_⟩
  · intro slot j hown
    rw [hframe.awaitable]
    exact h.exclusive ((howner slot j).mp hown).1
  · have hbit := bit_syncReleased (s := s.releaseSlots i) fun slot j hown =>
      h.bit.mpr ⟨slot, j, (owner_releaseSlots.mp hown).1⟩
    simpa [releaseRegisteredDomain, hregistered, OwnershipState.setSequence, owner_syncReleased]
      using hbit
  · intro slot j hown
    obtain ⟨hown, hne⟩ := (howner slot j).mp hown
    obtain ⟨hj, huses⟩ := h.owned hown
    rw [Function.update_of_ne hne, hsequences j hne]
    exact ⟨hj, huses⟩
  · intro hopen slot j hj huses
    obtain ⟨hne, hj⟩ := hawaited j hj
    rw [hframe.isOpen] at hopen
    rw [hframe.domain] at huses
    exact (howner slot j).mpr ⟨h.owns hopen hj huses, hne⟩
  · intro j hj
    obtain ⟨hne, hj⟩ := hawaited j hj
    rw [hsequences j hne]
    exact h.registered hj

lemma registered_release : ((s.releaseRegisteredDomain i).sequences i).registered = false := by
  unfold releaseRegisteredDomain
  dsimp only
  split <;> simp [OwnershipState.setSequence]

lemma OwnersOk.release_unregistered (h : OwnersOk awaited s) (hi : awaited i = false)
    (hregistered : (s.sequences i).registered = false) :
    OwnersOk awaited (s.releaseRegisteredDomain i) := by
  simp only [releaseRegisteredDomain, hregistered, Bool.not_false, if_true]
  exact h.setSequence hi _

/-- A sequence whose task does not wait has given back what it claimed after its `await_resume`. -/
lemma OwnersOk.suspendSequence (h : OwnersOk awaited s) (hi : awaited i = false)
    (submit : SequenceSubmit) :
    ((s.suspendSequenceAwaitable i submit).1 = true →
      OwnersOk (Function.update awaited i true) (s.suspendSequenceAwaitable i submit).2 ∧
        s.controller.isOpen = true) ∧
    ((s.suspendSequenceAwaitable i submit).1 = false →
      OwnersOk awaited ((s.suspendSequenceAwaitable i submit).2.onCompleted i)) := by
  unfold suspendSequenceAwaitable onCompleted
  dsimp only
  have hreset := h.setSequence hi { s.sequences i with registered := false }
  have hregistered : ((s.setSequence i { s.sequences i with registered := false }).sequences
      i).registered = false := by
    simp [OwnershipState.setSequence]
  have hopen : (s.setSequence i { s.sequences i with registered := false }).controller.isOpen =
      s.controller.isOpen := rfl
  generalize s.setSequence i { s.sequences i with registered := false } = s₁
    at hreset hregistered hopen ⊢
  cases hclaim : s₁.claimRequestedDomain i with
  | none => exact ⟨nofun, fun _ => hreset.release_unregistered hi hregistered⟩
  | some claimed =>
    have hprepared := (hreset.claim hi hclaim).setActive (i := i) submit.active
    have hopen' := (samePlain_claim hclaim).isOpen.trans hopen
    have hback : Function.update (Function.update awaited i true) i false = awaited := by
      rw [Function.update_idem, ← hi, Function.update_eq_self]
    have hrelease : ∀ {s : OwnershipState π ι}, OwnersOk (Function.update awaited i true) s →
        OwnersOk awaited (s.releaseRegisteredDomain i) := by
      intro s hs
      have hreleased := hs.release (i := i) (by simp)
      rwa [hback] at hreleased
    have hsynced := hprepared.sync
    dsimp only
    split_ifs with hcompleted hscheduler hret hret'
    · exact ⟨nofun, fun _ => hrelease hprepared⟩
    · exact ⟨nofun, fun _ => (hrelease hsynced).release_unregistered hi registered_release⟩
    · exact ⟨nofun, fun _ => hrelease hsynced⟩
    · exact ⟨nofun, fun _ => (hrelease hsynced).release_unregistered hi registered_release⟩
    · refine ⟨fun _ => ⟨hsynced, ?_⟩, nofun⟩
      rw [← hopen', ← Bool.not_eq_false]
      intro hclosed
      refine hret' ?_
      have hclosed' : (claimed.setSequence i { claimed.sequences i with active := submit.active
          }).syncSequenceInterestMask.controller.isOpen = false := hclosed
      simp [registerIOSchedulerEvent, hclosed']

lemma OwnershipOk.setSequence (h : OwnershipOk s) (hi : s.suspended i = false)
    (seq : SequenceObject) : OwnershipOk (s.setSequence i seq) := by
  refine h.of_fewer { h.plain with } (h.owners.setSequence hi seq) fun j hj => ⟨hj, ?_⟩
  have hne : j ≠ i := by
    rintro rfl
    exact Bool.false_ne_true (hi.symm.trans hj)
  simp [OwnershipState.setSequence, hne]

lemma OwnershipOk.awaitSequence (h : OwnershipOk s) (hi : s.suspended i = false)
    (submit : SequenceSubmit) : OwnershipOk (s.awaitSequence i submit) := by
  have hframe := samePlain_suspendSequence (s := s) (i := i) submit
  obtain ⟨hsuspends, hresumes⟩ := h.owners.suspendSequence hi submit
  unfold OwnershipState.awaitSequence
  generalize s.suspendSequenceAwaitable i submit = r at *
  obtain ⟨suspends, s'⟩ := r
  cases suspends with
  | true =>
    obtain ⟨howners, hopen⟩ := hsuspends rfl
    dsimp only
    rw [hframe.suspended]
    exact ⟨{ hframe.plainOk h.plain with }, { howners with },
      fun _ _ _ => howners.disjoint (hframe.isOpen.trans hopen)⟩
  | false =>
    have hframe' := hframe.trans (samePlain_release (i := i))
    refine h.of_fewer (hframe'.plainOk h.plain) ?_ ?_
    · rw [show (s'.onCompleted i).suspended = s.suspended from hframe'.suspended]
      exact hresumes rfl
    · intro j hj
      rw [show (s'.onCompleted i).suspended = s.suspended from hframe'.suspended] at hj
      exact ⟨hj, hframe'.domain j⟩

lemma OwnershipOk.beginSequence (h : OwnershipOk s) (hi : s.suspended i = false)
    (domain : SequenceOwnerDomain) (submit : SequenceSubmit) :
    OwnershipOk (s.beginSequence i domain submit) :=
  (h.setSequence hi (.new domain)).awaitSequence hi submit

lemma OwnershipOk.resumeSequence (h : OwnershipOk s) (hi : s.suspended i = true)
    (active : Option KqueueEventType) :
    OwnershipOk { (s.setSequence i { s.sequences i with active := active }).onCompleted i with
      suspended := Function.update s.suspended i false } := by
  have hframe : SamePlain s ((s.setSequence i { s.sequences i with active := active }).onCompleted
      i) := (samePlain_setActive active).trans samePlain_release
  have howners := (h.owners.setActive (i := i) active).release hi
  refine h.of_fewer { hframe.plainOk h.plain with } { howners with } ?_
  intro j hj
  obtain rfl | hne := eq_or_ne j i
  · simp at hj
  · simp only [Function.update_of_ne hne] at hj
    exact ⟨hj, hframe.domain j⟩

lemma OwnershipOk.step {a : OwnershipAction π ι} (h : OwnershipOk s) (hs : s.step a = some s') :
    OwnershipOk s' := by
  cases a with
  | beginPlain p type submit =>
    simp only [OwnershipState.step, Option.ite_none_left_eq_some, Option.some.injEq] at hs
    obtain ⟨hnone, rfl⟩ := hs
    exact h.beginPlain (by simpa using hnone) submit
  | resumePlain slot =>
    simp only [OwnershipState.step] at hs
    cases hop : s.pending slot with
    | none => simp [hop] at hs
    | some op =>
      simp only [hop, Option.some.injEq] at hs
      subst hs
      exact h.resumePlain hop
  | beginSequence i domain submit =>
    simp only [OwnershipState.step, Option.ite_none_left_eq_some, Option.some.injEq] at hs
    obtain ⟨hi, rfl⟩ := hs
    exact h.beginSequence (by simpa using hi) domain submit
  | resumeSequence i active =>
    simp only [OwnershipState.step, Option.ite_none_right_eq_some, Option.some.injEq] at hs
    obtain ⟨hi, rfl⟩ := hs
    exact h.resumeSequence hi active
  | event slot active =>
    simp only [OwnershipState.step] at hs
    cases hown : s.controller.sequenceOwner slot with
    | none => simp [hown] at hs
    | some i =>
      simp only [hown, Option.ite_none_right_eq_some, Option.some.injEq] at hs
      obtain ⟨-, rfl⟩ := hs
      have hframe : SamePlain s
          (s.setSequence i { s.sequences i with active := active }).syncSequenceInterestMask :=
        (samePlain_setActive active).trans samePlain_sync
      exact h.of_fewer (hframe.plainOk h.plain) (h.owners.setActive active).sync
        fun j hj => ⟨hj, hframe.domain j⟩
  | syncEvents =>
    simp only [OwnershipState.step, Option.some.injEq] at hs
    subst hs
    split
    · exact h.of_fewer (samePlain_sync.plainOk h.plain) h.owners.sync fun j hj => ⟨hj, rfl⟩
    · exact h
  | close =>
    simp only [OwnershipState.step, Option.some.injEq] at hs
    subst hs
    exact h.close

lemma ownershipOk_of_reaches {isOpen : Bool}
    (h : Reaches (step (π := π) (ι := ι)) (fun _ _ => True) (.new isOpen) s) : OwnershipOk s :=
  h.invariant (P := OwnershipOk) (ownershipOk_new isOpen) fun _ _ _ hs _ => hs.step

/-- What the models of the reactors assume: the bits of `m_type` are those of the operations in the
slots. -/
theorem type_of_slots {isOpen : Bool}
    (h : Reaches (step (π := π) (ι := ι)) (fun _ _ => True) (.new isOpen) s) :
    (∀ type, s.controller.type.plain type = true ↔
      ∃ p, s.controller.awaitable type.slot = some p ∧ s.pending type.slot = some ⟨p, type⟩) ∧
    (∀ slot p, s.controller.awaitable slot = some p → ∃ type : KqueueEventType,
      type.slot = slot ∧ s.controller.type.plain type = true) := by
  have hplain := (ownershipOk_of_reaches h).plain
  refine ⟨hplain.bits, ?_⟩
  intro slot p hp
  obtain ⟨type, hpending⟩ := hplain.filled hp
  obtain rfl := hplain.direction hpending
  exact ⟨type, rfl, (hplain.bits type).mpr ⟨p, hp, hpending⟩⟩

def slotDomain : IOSlot → SequenceOwnerDomain
  | .read => .read
  | .write => .write

/-- A plain operation that finds an owner is refused, and its `await_resume` changes nothing. -/
def RefusesPlain (s : OwnershipState π ι) : Prop :=
  ∀ p type submit, (s.controller.sequenceOwner type.slot).isSome = true →
    s.suspendRegisteredAwaitable p type submit = (false, s) ∧ s.resumeIOAwaitable type = s

/-- A sequence whose claim fails leaves the controller as it is, before and after its
`await_resume`. -/
def RefusesClaim (s : OwnershipState π ι) : Prop :=
  ∀ i domain submit, (s.setSequence i (.new domain)).claimRequestedDomain i = none →
    ∃ s', (s.setSequence i (.new domain)).suspendSequenceAwaitable i submit = (false, s') ∧
      s'.controller = s.controller ∧ (s'.onCompleted i).controller = s.controller

/-- A sequence that needs one slot waits beside a sequence of the other slot. -/
def WaitTogether (s : OwnershipState π ι) : Prop :=
  ∀ i j slot slot' type, slot ≠ slot' → s.controller.isOpen = true →
    s.suspended j = true → (s.sequences j).requestedDomain = slotDomain slot' →
    s.suspended i = false → s.controller.awaitable slot = none →
    s.controller.sequenceOwner slot = none →
    ∃ s', s.step (.beginSequence i (slotDomain slot) ⟨false, some type, true, 0⟩) = some s' ∧
      s'.suspended i = true ∧ s'.suspended j = true

omit [DecidableEq ι] in
lemma refusesPlain (h : OwnershipOk s) : RefusesPlain s := by
  intro p type submit howner
  obtain ⟨i, hi⟩ := Option.isSome_iff_exists.mp howner
  exact ⟨if_pos howner, h.plain.resume_eq_self (h.owners.exclusive hi)⟩

lemma refusesClaim (s : OwnershipState π ι) : RefusesClaim s := by
  intro i domain submit hrefused
  have hreset : (s.setSequence i (.new domain)).setSequence i
      { (s.setSequence i (.new domain)).sequences i with registered := false } =
        s.setSequence i (.new domain) := by
    simp [OwnershipState.setSequence, SequenceObject.new]
  refine ⟨s.setSequence i (.new domain), ?_, rfl, ?_⟩
  · simp only [suspendSequenceAwaitable, hreset, hrefused]
  · simp [onCompleted, releaseRegisteredDomain, OwnershipState.setSequence, SequenceObject.new]

lemma usesSlot_slotDomain {slot slot' : IOSlot} :
    (slotDomain slot).usesSlot slot' = decide (slot' = slot) := by
  cases slot <;> cases slot' <;> rfl

lemma claim_isSome {domain : SequenceOwnerDomain}
    (hdomain : (s.sequences i).requestedDomain = domain)
    (hcan : ∀ slot, domain.usesSlot slot = true → s.canClaim i slot = true) :
    (s.claimRequestedDomain i).isSome = true := by
  have hfree : ∀ slot, (domain.usesSlot slot && !s.canClaim i slot) = false := by
    intro slot
    cases huses : domain.usesSlot slot with
    | false => rfl
    | true => rw [hcan slot huses]; rfl
  simp [claimRequestedDomain, hdomain, hfree]

lemma suspendSequence_suspends (type : KqueueEventType) (hopen : s.controller.isOpen = true)
    (hcan : ∀ slot, (s.sequences i).requestedDomain.usesSlot slot = true →
      s.canClaim i slot = true) :
    (s.suspendSequenceAwaitable i ⟨false, some type, true, 0⟩).1 = true := by
  unfold suspendSequenceAwaitable
  dsimp only
  have hclaim : ((s.setSequence i { s.sequences i with registered := false }).claimRequestedDomain
      i).isSome = true :=
    claim_isSome (by simp [OwnershipState.setSequence]) hcan
  have hopen' : (s.setSequence i { s.sequences i with registered := false }).controller.isOpen =
      true := hopen
  generalize s.setSequence i { s.sequences i with registered := false } = s₁ at hclaim hopen' ⊢
  obtain ⟨claimed, hclaimed⟩ := Option.isSome_iff_exists.mp hclaim
  have hopen₂ := (samePlain_claim hclaimed).isOpen.trans hopen'
  simp [hclaimed, registerIOSchedulerEvent, syncSequenceInterestMask, OwnershipState.setSequence,
    hopen₂]

lemma waitTogether (s : OwnershipState π ι) : WaitTogether s := by
  intro i j slot slot' type hne hopen hj hdomain hi hawaitable howner
  have hcan : ∀ slot₁, ((s.setSequence i (.new (slotDomain slot))).sequences
      i).requestedDomain.usesSlot slot₁ = true →
      (s.setSequence i (.new (slotDomain slot))).canClaim i slot₁ = true := by
    intro slot₁ huses
    simp only [OwnershipState.setSequence, Function.update_self, SequenceObject.new,
      usesSlot_slotDomain, decide_eq_true_eq] at huses
    subst huses
    simp [OwnershipState.canClaim, canClaimSlot, OwnershipState.setSequence, hawaitable, howner]
  have hsuspends := suspendSequence_suspends type (show (s.setSequence i
    (.new (slotDomain slot))).controller.isOpen = true from hopen) hcan
  have hframe := samePlain_suspendSequence (s := s.setSequence i (.new (slotDomain slot))) (i := i)
    ⟨false, some type, true, 0⟩
  have hstep : s.step (.beginSequence i (slotDomain slot) ⟨false, some type, true, 0⟩) =
      some (s.beginSequence i (slotDomain slot) ⟨false, some type, true, 0⟩) := by
    simp [OwnershipState.step, hi]
  refine ⟨_, hstep, ?_⟩
  unfold OwnershipState.beginSequence
  generalize (s.setSequence i (.new (slotDomain slot))).suspendSequenceAwaitable i
    ⟨false, some type, true, 0⟩ = r at hsuspends hframe ⊢
  obtain ⟨suspends, s₂⟩ := r
  obtain rfl : suspends = true := hsuspends
  have hj₂ : s₂.suspended j = true := (congrFun hframe.suspended j).trans hj
  refine ⟨Function.update_self .., ?_⟩
  simp only [Function.update_apply]
  split
  · rfl
  · exact hj₂

/-- Plain operations, sequences of each domain, timeouts and `close`, in any order: the slots are
shared without conflict, a refusal leaves no trace, and a release takes only its own slots. -/
theorem slots_not_shared {isOpen : Bool}
    (h : Reaches (step (π := π) (ι := ι)) (fun _ _ => True) (.new isOpen) s) :
    (∀ slot, s.controller.awaitable slot = none ∨ s.controller.sequenceOwner slot = none) ∧
    (∀ i j, s.suspended i = true → s.suspended j = true →
      (s.sequences i).requestedDomain = .readWrite → j = i) ∧
    WaitTogether s ∧
    (s.controller.type.sequence = true ↔ ∃ slot i, s.controller.sequenceOwner slot = some i) ∧
    RefusesPlain s ∧ RefusesClaim s ∧
    (∀ i j slot, s.controller.sequenceOwner slot = some j → j ≠ i →
      (s.releaseRegisteredDomain i).controller.sequenceOwner slot = some j) := by
  have hs := ownershipOk_of_reaches h
  refine ⟨?_, ?_, waitTogether s, hs.owners.bit, refusesPlain hs, refusesClaim s, ?_⟩
  · intro slot
    cases hown : s.controller.sequenceOwner slot with
    | none => exact .inr rfl
    | some i => exact .inl (hs.owners.exclusive hown)
  · intro i j hi hj hdomain
    obtain ⟨slot, huses⟩ := exists_usesSlot (s.sequences j).requestedDomain
    exact hs.disjoint hj hi huses (by rw [hdomain]; rfl)
  · intro i j slot hown hne
    cases hregistered : (s.sequences i).registered with
    | true => exact (owner_release hregistered).mpr ⟨hown, fun _ => hne⟩
    | false =>
      simpa [releaseRegisteredDomain, hregistered, OwnershipState.setSequence] using hown

/-- Sequence `0` reads and sequence `1` writes; a `recv` and a sequence of both directions are
refused. Then sequence `0` ends and the `recv` waits in its slot. -/
def duplexRun : List (OwnershipAction ℕ ℕ) :=
  [.beginSequence 0 .read ⟨false, some .recv, true, 0⟩,
    .beginSequence 1 .write ⟨false, some .send, true, 0⟩,
    .beginPlain 7 .recv ⟨true, 0⟩,
    .beginSequence 2 .readWrite ⟨false, some .recv, true, 0⟩,
    .resumeSequence 0 none,
    .beginPlain 7 .recv ⟨true, 0⟩]

def afterDuplexRun : OwnershipState ℕ ℕ := ((run step (.new true) duplexRun).getD (.new true))

theorem duplexRun_slots_not_shared :
    afterDuplexRun.controller.awaitable .read = some 7 ∧
    afterDuplexRun.controller.sequenceOwner .write = some 1 ∧
    afterDuplexRun.resumeIOAwaitable .send = afterDuplexRun := by
  have h : Reaches (step (π := ℕ) (ι := ℕ)) (fun _ _ => True) (.new true) afterDuplexRun :=
    .of_replay duplexRun .start rfl
  obtain ⟨-, -, -, -, hrefuses, -, -⟩ := slots_not_shared h
  exact ⟨rfl, rfl, (hrefuses 0 .send ⟨true, 0⟩ rfl).2⟩

theorem duplexRun_type_of_slots : ∃ type : KqueueEventType,
    type.slot = .read ∧ afterDuplexRun.controller.type.plain type = true := by
  have h : Reaches (step (π := ℕ) (ι := ℕ)) (fun _ _ => True) (.new true) afterDuplexRun :=
    .of_replay duplexRun .start rfl
  exact (type_of_slots h).2 .read 7 rfl

end GalayKernel.Proofs
