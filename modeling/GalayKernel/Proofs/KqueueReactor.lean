import GalayKernel.KqueueReactor
import GalayKernel.Proofs.SequenceOwners
import GalayKernel.Lib.Transition
import Mathlib.Tactic.Common

/-!
# A suspended operation and its filter

`m_sequence_armed_mask` outlives the sequence for which a filter was added: when one of two
sequences is released, the mask keeps its bit until the other one is registered again. A plain
operation that has registered the same filter in between then loses it. The filter stays where a
plain operation begins only in a direction that is not armed: no sequence claims the slot of a
suspended operation, so none adds the direction to the mask.
-/

namespace GalayKernel.Proofs

open Transition

variable {ι : Type} [DecidableEq ι] {ctl ctl' : KqueueController ι} {slot : IOSlot} {i : ι}
  {seq : KqueueSequence}

/-- A plain operation begins in a direction that is not armed, and sequences wait in the directions
of their domain. -/
def beginsUnarmed (ctl : KqueueController ι) : KqueueAction ι → Bool
  | .begin type _ => type == .fileWatch || !ctl.sequenceArmedMask.has type.slot
  | .beginSequence _ domain _ active => active.all (domain.usesSlot ·.slot)
  | .event .read _ _ active => (ctl.owner .read).all fun seq => active.all (seq.domain.usesSlot ·.slot)
  | .event .write _ _ active =>
    (ctl.owner .write).all fun seq => active.all (seq.domain.usesSlot ·.slot)
  | _ => true

structure FiltersOk (ctl : KqueueController ι) : Prop where
  unowned : ∀ ⦃slot a⦄, ctl.awaitable slot = some a → ctl.sequenceOwner slot = none
  registered : ∀ ⦃slot a⦄, ctl.awaitable slot = some a → ctl.filters a.type.filter = true
  unarmed : ∀ ⦃slot a⦄, ctl.awaitable slot = some a → a.type.filter = slot.filter →
    ctl.sequenceArmedMask.has slot = false
  inSlot : ∀ ⦃slot a⦄, ctl.awaitable slot = some a → a.type.slot = slot
  owns : ∀ ⦃slot i⦄, ctl.sequenceOwner slot = some i → ∃ seq, ctl.sequences i = some seq ∧
    seq.domain.usesSlot slot = true ∧
    ∀ slot', seq.domain.usesSlot slot' = true → ctl.sequenceOwner slot' = some i
  inDomain : ∀ ⦃i seq type⦄, ctl.sequences i = some seq → seq.active = some type →
    seq.domain.usesSlot type.slot = true

omit [DecidableEq ι] in
lemma filtersOk_new : FiltersOk (.new : KqueueController ι) := by
  constructor <;> intros <;> contradiction

lemma interest_has (h : ctl.collectSequenceInterestMask.has slot = true) :
    ∃ slot' seq, ctl.owner slot' = some seq ∧ seq.waitsOn slot = true := by
  obtain ⟨slot', i, hi, hmask⟩ := collectInterestMask_has.mp h
  cases hseq : ctl.sequences i with
  | none =>
    rw [hseq] at hmask
    cases slot <;> cases hmask
  | some seq =>
    rw [hseq] at hmask
    exact ⟨slot', seq, Option.bind_eq_some_iff.mpr ⟨i, hi, hseq⟩, by cases slot <;> exact hmask⟩

lemma FiltersOk.interest (h : FiltersOk ctl) {a : KqueueAwaitable}
    (ha : ctl.awaitable slot = some a) : ctl.collectSequenceInterestMask.has slot = false := by
  rw [← Bool.not_eq_true]
  intro hhas
  obtain ⟨slot', seq, hown, hwaits⟩ := interest_has hhas
  obtain ⟨i, hi, hseq⟩ := Option.bind_eq_some_iff.mp hown
  obtain ⟨seq', hseq', -, hall⟩ := h.owns hi
  cases hseq.symm.trans hseq'
  obtain ⟨type, hactive, hslot⟩ := (Option.any_eq_true _ _).mp hwaits
  have huses := h.inDomain hseq hactive
  rw [beq_iff_eq.mp hslot] at huses
  cases (h.unowned ha).symm.trans (hall slot huses)

lemma FiltersOk.sync (h : FiltersOk ctl) : FiltersOk ctl.syncSequenceInterestMask := { h with }

omit [DecidableEq ι] in
lemma FiltersOk.clear (h : FiltersOk ctl) : FiltersOk ctl.clearSequenceInterestMask :=
  { h with unarmed := fun slot _ _ _ => by cases slot <;> rfl }

omit [DecidableEq ι] in
lemma apply_filters {desired : EventMask} (harmed : ctl.sequenceArmedMask.has slot = false)
    (hdesired : desired.has slot = false) :
    (ctl.applySequenceInterest desired).filters slot.filter = ctl.filters slot.filter := by
  cases slot with
  | read =>
    have harmed' : ctl.sequenceArmedMask.read = false := harmed
    have hdesired' : desired.read = false := hdesired
    simp [KqueueController.applySequenceInterest, KqueueController.change, IOSlot.filter, harmed',
      hdesired']
  | write =>
    have harmed' : ctl.sequenceArmedMask.write = false := harmed
    have hdesired' : desired.write = false := hdesired
    simp [KqueueController.applySequenceInterest, KqueueController.change, IOSlot.filter, harmed',
      hdesired']

lemma filter_cases (type : KqueueEventType) :
    type.filter = type.slot.filter ∨ type.filter = .vnode := by
  cases type <;> first | exact .inl rfl | exact .inr rfl

lemma FiltersOk.addSequence (h : FiltersOk ctl) : FiltersOk ctl.addSequence := by
  refine { h.sync with registered := ?_, unarmed := ?_ }
  · intro slot a ha
    have hslot := h.inSlot ha
    obtain hfilter | hvnode := filter_cases a.type
    · rw [hslot] at hfilter
      have harmed : ctl.syncSequenceInterestMask.sequenceArmedMask.has slot = false :=
        h.unarmed ha hfilter
      have hkept : ctl.addSequence.filters slot.filter = ctl.filters slot.filter :=
        apply_filters harmed (h.interest ha)
      rw [hfilter, hkept, ← hfilter]
      exact h.registered ha
    · have hold := h.registered ha
      rw [hvnode] at hold ⊢
      exact hold
  · intro slot a ha _
    exact h.interest ha

lemma setSequence_self (ctl : KqueueController ι) (i : ι) (seq : Option KqueueSequence) :
    (ctl.setSequence i seq).sequences i = seq :=
  Function.update_self ..

lemma setSequence_of_ne {j : ι} (hne : j ≠ i) (ctl : KqueueController ι)
    (seq : Option KqueueSequence) : (ctl.setSequence i seq).sequences j = ctl.sequences j :=
  Function.update_of_ne hne ..

lemma FiltersOk.setSequence (h : FiltersOk ctl) (hseq : ctl.sequences i = some seq)
    (seq' : KqueueSequence) (hdomain : seq'.domain = seq.domain)
    (hactive : ∀ type, seq'.active = some type → seq.domain.usesSlot type.slot = true) :
    FiltersOk (ctl.setSequence i (some seq')) := by
  refine { h with owns := ?_, inDomain := ?_ }
  · intro slot j hj
    obtain ⟨seqj, hseqj, hall⟩ := h.owns hj
    by_cases hji : j = i
    · subst hji
      cases hseqj.symm.trans hseq
      refine ⟨seq', setSequence_self .., ?_⟩
      rw [hdomain]
      exact hall
    · exact ⟨seqj, (setSequence_of_ne hji ..).trans hseqj, hall⟩
  · intro j seqj type hseqj htype
    by_cases hji : j = i
    · subst hji
      cases (setSequence_self ..).symm.trans hseqj
      rw [hdomain]
      exact hactive type htype
    · exact h.inDomain ((setSequence_of_ne hji ..).symm.trans hseqj) htype

lemma FiltersOk.releaseSlots (h : FiltersOk ctl) (hseq : ctl.sequences i = some seq) :
    FiltersOk (ctl.releaseSlots i seq) := by
  refine { h with unowned := ?_, owns := ?_, inDomain := ?_ }
  · intro slot a ha
    simp only [KqueueController.releaseSlots, SequenceOwnerDomain.release]
    split
    · rfl
    · exact h.unowned ha
  · intro slot j hj
    simp only [KqueueController.releaseSlots, SequenceOwnerDomain.release] at hj
    split at hj
    · cases hj
    · next hkept =>
      obtain ⟨seqj, hseqj, huses, hall⟩ := h.owns hj
      have hji : j ≠ i := by
        rintro rfl
        cases hseqj.symm.trans hseq
        exact hkept (by simp [huses, hj])
      refine ⟨seqj, (setSequence_of_ne hji ..).trans hseqj, huses, fun slot' huses => ?_⟩
      have hown := hall slot' huses
      simp [KqueueController.releaseSlots, SequenceOwnerDomain.release, hown, hji]
  · intro j seqj type hseqj htype
    by_cases hji : j = i
    · subst hji
      cases (setSequence_self ..).symm.trans hseqj
    · exact h.inDomain ((setSequence_of_ne hji ..).symm.trans hseqj) htype

lemma FiltersOk.release (h : FiltersOk ctl) (hseq : ctl.sequences i = some seq) :
    FiltersOk (ctl.releaseRegisteredDomain i seq) := by
  have hreleased := h.releaseSlots hseq
  unfold KqueueController.releaseRegisteredDomain
  dsimp only
  split
  · exact hreleased.clear
  · exact hreleased.sync

lemma FiltersOk.claim (h : FiltersOk ctl) (hnone : ctl.sequences i = none)
    (hactive : ∀ type, seq.active = some type → seq.domain.usesSlot type.slot = true)
    (hclaim : ctl.claimRequestedDomain i seq = some ctl') :
    FiltersOk ctl' ∧ ctl'.sequences i = some seq := by
  simp only [KqueueController.claimRequestedDomain, Option.ite_none_left_eq_some,
    Option.some.injEq] at hclaim
  obtain ⟨hfree, rfl⟩ := hclaim
  unfold canClaimSlot at hfree
  have hawaitable : ∀ slot, seq.domain.usesSlot slot = true → ctl.awaitable slot = none := by
    intro slot huses
    cases slot <;> simp [huses] at hfree
    · exact hfree.1.1
    · exact hfree.2.1
  have howner : ∀ slot j, ctl.sequenceOwner slot = some j → j ≠ i ∧
      seq.domain.usesSlot slot = false := by
    intro slot j hj
    obtain ⟨seqj, hseqj, -⟩ := h.owns hj
    have hji : j ≠ i := by
      rintro rfl
      cases hnone.symm.trans hseqj
    refine ⟨hji, ?_⟩
    rw [← Bool.not_eq_true]
    intro huses
    cases slot <;> simp [huses, hj, hji] at hfree
  refine ⟨{ h with unowned := ?_, owns := ?_, inDomain := ?_ }, setSequence_self ..⟩
  · intro slot a ha
    dsimp only [SequenceOwnerDomain.claim]
    split
    · next huses => cases (hawaitable slot huses).symm.trans ha
    · exact h.unowned ha
  · intro slot j hj
    dsimp only [SequenceOwnerDomain.claim] at hj ⊢
    split at hj
    · next huses =>
      cases hj
      exact ⟨seq, setSequence_self .., huses, fun slot' huses' => if_pos huses'⟩
    · next huses =>
      obtain ⟨seqj, hseqj, husesj, hall⟩ := h.owns hj
      refine ⟨seqj, (setSequence_of_ne (howner slot j hj).1 ..).trans hseqj, husesj, ?_⟩
      intro slot' huses'
      have hj' := hall slot' huses'
      rw [(howner slot' j hj').2]
      exact hj'
  · intro j seqj type hseqj htype
    by_cases hji : j = i
    · subst hji
      cases (setSequence_self ..).symm.trans hseqj
      exact hactive type htype
    · exact h.inDomain ((setSequence_of_ne hji ..).symm.trans hseqj) htype

lemma FiltersOk.beginSequence {domain : SequenceOwnerDomain} {active : Option KqueueEventType}
    (h : FiltersOk ctl) (hnone : ctl.sequences i = none)
    (hactive : ∀ type, active = some type → domain.usesSlot type.slot = true) (completed : Bool) :
    FiltersOk (ctl.beginSequence i domain completed active) := by
  unfold KqueueController.beginSequence
  dsimp only
  split
  · exact h
  · next claimed hclaim =>
    obtain ⟨hclaimed, hseq⟩ := h.claim hnone hactive hclaim
    split
    · exact hclaimed.release hseq
    · exact hclaimed.addSequence

omit [DecidableEq ι] in
lemma setAwaitable_self (ctl : KqueueController ι) (slot : IOSlot) (a : Option KqueueAwaitable) :
    (ctl.setAwaitable slot a).awaitable slot = a :=
  Function.update_self ..

omit [DecidableEq ι] in
lemma setAwaitable_of_ne {slot' : IOSlot} (hne : slot' ≠ slot) (ctl : KqueueController ι)
    (a : Option KqueueAwaitable) : (ctl.setAwaitable slot a).awaitable slot' = ctl.awaitable slot' :=
  Function.update_of_ne hne ..

omit [DecidableEq ι] in
lemma FiltersOk.setAwaitable (h : FiltersOk ctl) {awaitable : Option KqueueAwaitable}
    (hsame : ∀ a, awaitable = some a → ∃ a', ctl.awaitable slot = some a' ∧ a.type = a'.type) :
    FiltersOk (ctl.setAwaitable slot awaitable) := by
  have hold : ∀ slot' a, (ctl.setAwaitable slot awaitable).awaitable slot' = some a →
      ∃ a', ctl.awaitable slot' = some a' ∧ a.type = a'.type := by
    intro slot' a ha
    by_cases hslot : slot' = slot
    · subst hslot
      exact hsame a ((setAwaitable_self ..).symm.trans ha)
    · exact ⟨a, (setAwaitable_of_ne hslot ..).symm.trans ha, rfl⟩
  refine { h with unowned := ?_, registered := ?_, unarmed := ?_, inSlot := ?_ }
  · intro slot' a ha
    obtain ⟨a', ha', -⟩ := hold slot' a ha
    exact h.unowned ha'
  · intro slot' a ha
    obtain ⟨a', ha', htype⟩ := hold slot' a ha
    rw [htype]
    exact h.registered ha'
  · intro slot' a ha hfilter
    obtain ⟨a', ha', htype⟩ := hold slot' a ha
    rw [htype] at hfilter
    exact h.unarmed ha' hfilter
  · intro slot' a ha
    obtain ⟨a', ha', htype⟩ := hold slot' a ha
    rw [htype]
    exact h.inSlot ha'

omit [DecidableEq ι] in
lemma FiltersOk.wake (h : FiltersOk ctl) (slot : IOSlot) : FiltersOk (ctl.wake slot) := by
  apply h.setAwaitable
  intro a ha
  obtain ⟨a', ha', rfl⟩ := Option.map_eq_some_iff.mp ha
  exact ⟨a', ha', rfl⟩

omit [DecidableEq ι] in
lemma FiltersOk.begin {type : KqueueEventType} (h : FiltersOk ctl)
    (harmed : type = .fileWatch ∨ ctl.sequenceArmedMask.has type.slot = false) (blocked : Bool) :
    FiltersOk (ctl.begin type blocked) := by
  unfold KqueueController.begin
  split
  · exact h
  · next hcond =>
    split
    · exact h
    · have hunowned : ctl.sequenceOwner type.slot = none := by
        cases hown : ctl.sequenceOwner type.slot with
        | none => rfl
        | some i => simp [hown] at hcond
      have hnew : ∀ slot a, (ctl.setAwaitable type.slot (some ⟨type, false⟩)).awaitable slot =
          some a → (slot = type.slot ∧ a = ⟨type, false⟩) ∨
            (slot ≠ type.slot ∧ ctl.awaitable slot = some a) := by
        intro slot a ha
        by_cases hslot : slot = type.slot
        · subst hslot
          cases (setAwaitable_self ..).symm.trans ha
          exact .inl ⟨rfl, rfl⟩
        · exact .inr ⟨hslot, (setAwaitable_of_ne hslot ..).symm.trans ha⟩
      refine { h with unowned := ?_, registered := ?_, unarmed := ?_, inSlot := ?_ }
      · intro slot a ha
        obtain ⟨rfl, -⟩ | ⟨-, hold⟩ := hnew slot a ha
        · exact hunowned
        · exact h.unowned hold
      · intro slot a ha
        obtain ⟨-, rfl⟩ | ⟨-, hold⟩ := hnew slot a ha
        · exact Function.update_self ..
        · dsimp only
          rw [Function.update_apply]
          split
          · rfl
          · exact h.registered hold
      · intro slot a ha hfilter
        obtain ⟨rfl, rfl⟩ | ⟨-, hold⟩ := hnew slot a ha
        · obtain rfl | harmed := harmed
          · cases hfilter
          · exact harmed
        · exact h.unarmed hold hfilter
      · intro slot a ha
        obtain ⟨rfl, rfl⟩ | ⟨-, hold⟩ := hnew slot a ha
        · rfl
        · exact h.inSlot hold

omit [DecidableEq ι] in
lemma FiltersOk.close (h : FiltersOk ctl) : FiltersOk ctl.close := by
  unfold KqueueController.close
  split
  · constructor
    case inDomain => exact h.inDomain
    all_goals intros; contradiction
  · exact h

omit [DecidableEq ι] in
lemma FiltersOk.complete (h : FiltersOk ctl) (filter : KqueueFilter) (slot : IOSlot) (done : Bool) :
    FiltersOk (ctl.completeAwaitableAndWake filter slot done) := by
  unfold KqueueController.completeAwaitableAndWake
  split
  · exact h.wake slot
  · exact h

omit [DecidableEq ι] in
lemma complete_owner (ctl : KqueueController ι) (filter : KqueueFilter) (slot slot' : IOSlot)
    (done : Bool) :
    (ctl.completeAwaitableAndWake filter slot done).owner slot' = ctl.owner slot' := by
  unfold KqueueController.completeAwaitableAndWake
  split <;> rfl

lemma FiltersOk.dispatchOwner {active : Option KqueueEventType} (h : FiltersOk ctl)
    (hactive : ∀ seq, ctl.owner slot = some seq → ∀ type, active = some type →
      seq.domain.usesSlot type.slot = true) (completed : Bool) :
    FiltersOk (ctl.dispatchOwner slot completed active) := by
  unfold KqueueController.dispatchOwner
  split
  · exact h
  · next i hi =>
    split
    · exact h
    · next seq hseq =>
      have hown : ctl.owner slot = some seq := Option.bind_eq_some_iff.mpr ⟨i, hi, hseq⟩
      split
      · exact h
      · split
        · exact (h.setSequence hseq ⟨seq.domain, active, true⟩ rfl (hactive seq hown)).sync
        · exact (h.setSequence hseq { seq with active := active } rfl
            (hactive seq hown)).addSequence

theorem FiltersOk.step {a : KqueueAction ι} (h : FiltersOk ctl) (ha : beginsUnarmed ctl a = true)
    (hs : ctl.step a = some ctl') : FiltersOk ctl' := by
  cases a with
  | begin type blocked =>
    simp only [KqueueController.step, Option.ite_none_left_eq_some, Option.some.injEq] at hs
    obtain ⟨-, rfl⟩ := hs
    refine h.begin ?_ blocked
    simpa [beginsUnarmed] using ha
  | resume slot =>
    simp only [KqueueController.step, Option.ite_none_right_eq_some, Option.some.injEq] at hs
    obtain ⟨-, rfl⟩ := hs
    exact h.setAwaitable (by rintro _ ⟨⟩)
  | expire slot =>
    simp only [KqueueController.step, Option.ite_none_right_eq_some, Option.some.injEq] at hs
    obtain ⟨-, rfl⟩ := hs
    exact h.wake slot
  | beginSequence i domain completed active =>
    simp only [KqueueController.step, Option.ite_none_left_eq_some, Option.some.injEq] at hs
    obtain ⟨hnone, rfl⟩ := hs
    refine h.beginSequence (Option.not_isSome_iff_eq_none.mp hnone) ?_ completed
    simpa [beginsUnarmed, Option.all_eq_true] using ha
  | expireSequence i =>
    simp only [KqueueController.step] at hs
    split at hs
    · cases hs
    · next seq hseq =>
      cases hs
      exact h.setSequence hseq { seq with woken := true } rfl
        (fun type htype => h.inDomain hseq htype)
  | resumeSequence i =>
    simp only [KqueueController.step] at hs
    split at hs
    · cases hs
    · next seq hseq =>
      rw [Option.ite_none_right_eq_some, Option.some.injEq] at hs
      obtain ⟨-, rfl⟩ := hs
      exact h.release hseq
  | event filter done completed active =>
    cases hs
    unfold KqueueController.processEvent
    split
    · exact h
    · cases filter with
      | read =>
        refine (h.complete .read .read done).dispatchOwner ?_ completed
        rw [complete_owner]
        simpa [beginsUnarmed, Option.all_eq_true] using ha
      | write =>
        refine (h.complete .write .write done).dispatchOwner ?_ completed
        rw [complete_owner]
        simpa [beginsUnarmed, Option.all_eq_true] using ha
      | vnode => exact h.complete .vnode .read true
  | close =>
    cases hs
    exact h.close

/-- A plain operation that is suspended in a slot has its filter. -/
theorem filter_kept (h : Reaches KqueueController.step (fun ctl a => beginsUnarmed ctl a = true)
    .new ctl) (slot : IOSlot) (a : KqueueAwaitable) (ha : ctl.awaitable slot = some a)
    (_ : a.woken = false) : ctl.filters a.type.filter = true :=
  (h.invariant (P := FiltersOk) filtersOk_new (fun _ _ _ hok ha hs => hok.step ha hs)).registered ha

/-- A sequence sends while a plain operation reads. -/
def sendsWhileReading : List (KqueueAction Nat) :=
  [.begin .recv true, .beginSequence 0 .write false (some .send),
    .event .write true false (some .writev)]

theorem sendsWhileReading_filter_kept :
    ∃ ctl : KqueueController Nat, ctl.awaitable .read = some ⟨.recv, false⟩ ∧
      ctl.filters .read = true :=
  ⟨_, rfl, filter_kept (.of_run beginsUnarmed (fun _ _ h => h) sendsWhileReading .start rfl) .read
    ⟨.recv, false⟩ rfl rfl⟩

/-- Two sequences are armed; the one that reads ends, a plain operation reads, and the other
sequence goes on. -/
def readsAfterSequence : List (KqueueAction Nat) :=
  [.beginSequence 0 .read false (some .recv), .beginSequence 1 .write false (some .send),
    .event .read false true none, .resumeSequence 0, .begin .recv true,
    .event .write false false (some .send)]

theorem filter_can_be_deleted : ¬∀ ctl : KqueueController Nat,
    Reaches KqueueController.step (fun _ _ => True) .new ctl →
    ∀ slot a, ctl.awaitable slot = some a → a.woken = false →
      ctl.filters a.type.filter = true := by
  intro hall
  have hread := hall _ (.of_replay readsAfterSequence .start rfl) .read ⟨.recv, false⟩ rfl rfl
  cases hread

end GalayKernel.Proofs
