import GalayKernel.EpollController
import Mathlib.Tactic.Common

namespace GalayKernel

lemma exists_slot {P : IOSlot → Prop} : (∃ slot, P slot) ↔ P .read ∨ P .write := by
  refine ⟨?_, fun h => h.elim (⟨_, ·⟩) (⟨_, ·⟩)⟩
  rintro ⟨_ | _, h⟩
  · exact .inl h
  · exact .inr h

namespace EventMask

variable {m m' : EventMask} {slot : IOSlot}

@[simp] lemma has_union : (m.union m').has slot = (m.has slot || m'.has slot) := by
  cases slot <;> rfl

@[simp] lemma has_empty : empty.has slot = false := by
  cases slot <;> rfl

end EventMask

lemma collectInterestMask_has {ι : Type} [DecidableEq ι] {owner : IOSlot → Option ι}
    {mask : ι → EventMask} {slot : IOSlot} : (collectInterestMask owner mask).has slot = true ↔
      ∃ os i, owner os = some i ∧ (mask i).has slot = true := by
  rw [exists_slot]
  unfold collectInterestMask
  cases hread : owner .read with
  | none => cases hwrite : owner .write <;> simp
  | some i =>
    cases hwrite : owner .write with
    | none => simp
    | some j =>
      by_cases hj : j = i
      · simp [hj]
      · simp [hj]

namespace SequenceOwners

variable {owners owners' : SequenceOwners} {slot : IOSlot} {seq : EpollSequence}
  {domain : SequenceOwnerDomain}

/-- The domain of the sequence that owns the slot. -/
def domainAt (owners : SequenceOwners) (slot : IOSlot) : SequenceOwnerDomain :=
  if owners.isShared then .readWrite
  else
    match slot with
    | .read => .read
    | .write => .write

/-- The owners of the epoll controller are those that the domain claims. -/
theorem owner_of_claim (h : owners.claim domain seq = some owners') :
    owners'.owner = domain.claim owners.owner seq ∧
      ∀ slot, domain.usesSlot slot = true → owners.owner slot = none := by
  unfold claim at h
  constructor
  · funext slot
    split at h <;> cases h <;> cases slot <;> rfl
  · intro slot huses
    split at h <;> cases h <;> cases slot <;> first | rfl | cases huses

theorem owner_release (h : owners.owner slot = some seq) :
    (owners.release slot).owner = (owners.domainAt slot).release owners.owner seq := by
  funext slot'
  cases owners <;> cases slot <;> cases slot' <;>
    simp_all [release, owner, domainAt, isShared, SequenceOwnerDomain.release,
      SequenceOwnerDomain.usesSlot]

end SequenceOwners

end GalayKernel
