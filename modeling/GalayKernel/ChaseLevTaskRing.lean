import GalayKernel.Lib.Transition
import GalayKernel.Lib.Buckets
import GalayKernel.Lib.Window

/-!
# The work-stealing ring

`ChaseLevTaskRing` (`kernel/io_scheduler.hpp`): the owner thread calls `push_back` and
`pop_back`, any number of thieves call `steal_front`. Every atomic load, store, exchange and
compare-exchange is one step. `m_head` and `m_tail` are 64-bit counters.
-/

namespace GalayKernel

def kCapacity : Nat := 256

def kMask : Nat := kCapacity - 1

instance : NeZero kCapacity := ⟨by decide⟩

/-- The next operation of the owner thread; `tail` is its local variable. -/
inductive OwnerPc where
  | idle
  | pushLoadTail (task : Nat)
  | pushLoadHead (task tail : Nat)
  | pushStoreSlot (task tail : Nat)
  | pushStoreTail (task tail : Nat)
  | popLoadTail
  | popStoreTail (tail : Nat)
  | popLoadHead (tail : Nat)
  | popCas (tail : Nat)
  | popRestore (head : Nat)
  | popStoreTailLast (tail : Nat)
  | popTakeLast (tail : Nat)
  | popTake (tail : Nat)
  deriving DecidableEq, Repr

/-- The next operation of a thief; `head` is its local variable. -/
inductive ThiefPc where
  | idle
  | loadHead
  | loadTail (head : Nat)
  | loadSlot (head : Nat)
  | loadOwnerOnly (head : Nat)
  | cas (head : Nat)
  | exchange (head : Nat)
  deriving DecidableEq, Repr

/-- The ring with the threads that use it. `accepted` records the tasks for which
`push_back` returned true, `returned` what successful calls of `pop_back` and
`steal_front` handed out. -/
structure ChaseLevTaskRing where
  slots : Fin kCapacity → Option Nat
  head : Nat
  tail : Nat
  owner : OwnerPc
  thieves : Nat → ThiefPc
  accepted : List Nat
  returned : List (Option Nat)

inductive RingAction where
  /-- `none` is a `TaskRef` that is not valid -/
  | pushBack (task : Option Nat)
  | popBack
  | runOwner
  | stealFront (j : Nat)
  /-- `ownerOnly` is the value of `m_resume_owner_only` if it is loaded -/
  | runThief (j : Nat) (ownerOnly : Bool)
  deriving DecidableEq, Repr

namespace ChaseLevTaskRing

def add64 (a b : Nat) : Nat := (a + b) % 2 ^ 64

def sub64 (a b : Nat) : Nat := (a + 2 ^ 64 - b) % 2 ^ 64

def slotOf (index : Nat) : Fin kCapacity :=
  ⟨index &&& kMask, Nat.lt_of_le_of_lt Nat.and_le_right (by decide)⟩

lemma slotOf_eq (index : Nat) : slotOf index = Window.slot kCapacity index := by
  ext
  exact Nat.and_two_pow_sub_one_eq_mod index 8

def init : ChaseLevTaskRing where
  slots := fun _ => none
  head := 0
  tail := 0
  owner := .idle
  thieves := fun _ => .idle
  accepted := []
  returned := []

def setThief (s : ChaseLevTaskRing) (j : Nat) (pc : ThiefPc) : ChaseLevTaskRing :=
  { s with thieves := Function.update s.thieves j pc }

/-- `m_slots[index].exchange(nullptr)` by a call that then returns true. -/
def takeSlot (s : ChaseLevTaskRing) (index : Nat) : ChaseLevTaskRing :=
  { s with
    slots := Function.update s.slots (slotOf index) none
    returned := s.returned ++ [s.slots (slotOf index)] }

def runOwner (s : ChaseLevTaskRing) : Option ChaseLevTaskRing :=
  match s.owner with
  | .idle => none
  | .pushLoadTail task => some { s with owner := .pushLoadHead task s.tail }
  | .pushLoadHead task tail =>
    if kCapacity ≤ sub64 tail s.head then some { s with owner := .idle }
    else some { s with owner := .pushStoreSlot task tail }
  | .pushStoreSlot task tail =>
    some { s with
      slots := Function.update s.slots (slotOf tail) (some task)
      owner := .pushStoreTail task tail }
  | .pushStoreTail task tail =>
    some { s with tail := add64 tail 1, owner := .idle, accepted := s.accepted ++ [task] }
  | .popLoadTail =>
    if s.tail = 0 then some { s with owner := .idle }
    else some { s with owner := .popStoreTail (s.tail - 1) }
  | .popStoreTail tail => some { s with tail := tail, owner := .popLoadHead tail }
  | .popLoadHead tail =>
    if tail < s.head then some { s with owner := .popRestore s.head }
    else if s.head = tail then some { s with owner := .popCas tail }
    else some { s with owner := .popTake tail }
  | .popCas tail =>
    if s.head = tail then some { s with head := add64 tail 1, owner := .popStoreTailLast tail }
    -- a failed compare-exchange leaves the current head in `head`
    else some { s with owner := .popRestore s.head }
  | .popRestore head => some { s with tail := head, owner := .idle }
  | .popStoreTailLast tail => some { s with tail := add64 tail 1, owner := .popTakeLast tail }
  | .popTakeLast tail => some { s.takeSlot tail with owner := .idle }
  | .popTake tail => some { s.takeSlot tail with owner := .idle }

def runThief (s : ChaseLevTaskRing) (j : Nat) (ownerOnly : Bool) : Option ChaseLevTaskRing :=
  match s.thieves j with
  | .idle => none
  | .loadHead => some (s.setThief j (.loadTail s.head))
  | .loadTail head => some (s.setThief j (if s.tail ≤ head then .idle else .loadSlot head))
  | .loadSlot head =>
    some (s.setThief j (if s.slots (slotOf head) = none then .idle else .loadOwnerOnly head))
  | .loadOwnerOnly head => some (s.setThief j (if ownerOnly then .idle else .cas head))
  | .cas head =>
    if s.head = head then some { s.setThief j (.exchange head) with head := add64 head 1 }
    else some (s.setThief j .idle)
  | .exchange head => some ((s.takeSlot head).setThief j .idle)

def step (s : ChaseLevTaskRing) : RingAction → Option ChaseLevTaskRing
  | .pushBack task =>
    if s.owner = .idle then
      match task with
      | none => some s
      | some task => some { s with owner := .pushLoadTail task }
    else none
  | .popBack => if s.owner = .idle then some { s with owner := .popLoadTail } else none
  | .runOwner => s.runOwner
  | .stealFront j => if s.thieves j = .idle then some (s.setThief j .loadHead) else none
  | .runThief j ownerOnly => s.runThief j ownerOnly

def held (s : ChaseLevTaskRing) : Multiset Nat := Buckets.total (fun k => (s.slots k).toList)

/-- The task of a `push_back` that has stored it and has not returned yet. -/
def pushing (s : ChaseLevTaskRing) : Multiset Nat :=
  match s.owner with
  | .pushStoreTail task _ => {task}
  | _ => 0

/-- Every accepted task was returned exactly once or is held, and no call returned null. -/
def Conserved (s : ChaseLevTaskRing) : Prop :=
  (s.accepted : Multiset Nat) + s.pushing = (s.returned.filterMap id : List Nat) + s.held ∧
    none ∉ s.returned

def Quiet (s : ChaseLevTaskRing) : Prop := s.owner = .idle ∧ ∀ j, s.thieves j = .idle

end ChaseLevTaskRing

end GalayKernel
