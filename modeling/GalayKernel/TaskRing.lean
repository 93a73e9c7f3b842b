import GalayKernel.ChaseLevTaskRing

/-!
# Whole calls on a ring

`push_back`, `pop_back` and `steal_front` of `ChaseLevTaskRing` (`kernel/io_scheduler.hpp`) as they
run when no other call overlaps with them and the counters do not wrap. A `TaskRef` is an optional
task, and a call that returns true hands out the `TaskRef` that it has found in the slot.
-/

namespace GalayKernel

variable {τ : Type}

structure TaskRing (τ : Type) where
  slots : Fin kCapacity → Option τ
  head : Nat
  tail : Nat

namespace TaskRing

open ChaseLevTaskRing (slotOf)

def new : TaskRing τ where
  slots := fun _ => none
  head := 0
  tail := 0

def size (r : TaskRing τ) : Nat := r.tail - r.head

def remainingCapacity (r : TaskRing τ) : Nat :=
  if kCapacity ≤ r.size then 0 else kCapacity - r.size

def isEmpty (r : TaskRing τ) : Bool := r.size == 0

def pushBack (r : TaskRing τ) : Option τ → Bool × TaskRing τ
  | none => (false, r)
  | some task =>
    if kCapacity ≤ r.tail - r.head then (false, r)
    else (true, { r with
      slots := Function.update r.slots (slotOf r.tail) (some task)
      tail := r.tail + 1 })

def takeSlot (r : TaskRing τ) (index : Nat) : Option τ × TaskRing τ :=
  (r.slots (slotOf index), { r with slots := Function.update r.slots (slotOf index) none })

def popBack (r : TaskRing τ) : Option (Option τ) × TaskRing τ :=
  if r.tail = 0 then (none, r)
  else
    let tail := r.tail - 1
    if tail < r.head then (none, { r with tail := r.head })
    else if r.head = tail then
      -- the last task: no thief is there to win the compare-exchange
      let taken := takeSlot { r with head := tail + 1, tail := tail + 1 } tail
      (some taken.1, taken.2)
    else
      let taken := takeSlot { r with tail := tail } tail
      (some taken.1, taken.2)

/-- `steal_front`; `ownerOnly` is `m_resume_owner_only` of the tasks. -/
def stealFront (ownerOnly : τ → Bool) (r : TaskRing τ) : Option (Option τ) × TaskRing τ :=
  if r.tail ≤ r.head then (none, r)
  else
    match r.slots (slotOf r.head) with
    | none => (none, r)
    | some candidate =>
      if ownerOnly candidate then (none, r)
      else
        let taken := takeSlot { r with head := r.head + 1 } r.head
        (some taken.1, taken.2)

def tasks (r : TaskRing τ) : List τ :=
  (List.range r.size).filterMap fun k => r.slots (slotOf (r.head + k))

end TaskRing

end GalayKernel
