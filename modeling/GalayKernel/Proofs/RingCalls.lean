import GalayKernel.TaskRing
import GalayKernel.Proofs.RingMoves

namespace GalayKernel.Proofs

open ChaseLevTaskRing Transition

variable {s : ChaseLevTaskRing}

/-- What the ring holds between the calls. -/
def ringView (s : ChaseLevTaskRing) : TaskRing Nat := ⟨s.slots, s.head, s.tail⟩

def withRing (s : ChaseLevTaskRing) (r : TaskRing Nat) : ChaseLevTaskRing :=
  { s with slots := r.slots, head := r.head, tail := r.tail }

/-- As long as the counters do not wrap, a call of `push_back` that nobody disturbs is that of
`TaskRing`. -/
theorem pushBack_undisturbed (hidle : s.owner = .idle) (hle : s.head ≤ s.tail)
    (hsmall : s.tail + 1 < 2 ^ 64) (task : Option Nat) :
    ∃ n, run step s (.pushBack task :: List.replicate n .runOwner) =
      some { withRing s ((ringView s).pushBack task).2 with
        accepted := s.accepted ++ if ((ringView s).pushBack task).1 then task.toList else [] } := by
  cases task with
  | none =>
    refine ⟨0, ?_⟩
    have hcall : step s (.pushBack none) = some s := if_pos hidle
    simp [run, hcall, TaskRing.pushBack, withRing, ringView]
  | some task =>
    have hcall : step s (.pushBack (some task)) = some { s with owner := .pushLoadTail task } :=
      if_pos hidle
    have htail : step { s with owner := .pushLoadTail task } .runOwner =
      some { s with owner := .pushLoadHead task s.tail } := rfl
    have hsub : sub64 s.tail s.head = s.tail - s.head := sub64_of_le hle (by omega)
    by_cases hfull : kCapacity ≤ s.tail - s.head
    · have hhead : step { s with owner := .pushLoadHead task s.tail } .runOwner =
          some { s with owner := .idle } := if_pos (by rwa [hsub])
      have hpush : (ringView s).pushBack (some task) = (false, ringView s) := if_pos hfull
      refine ⟨2, ?_⟩
      rw [run_cons hcall, List.replicate, run_cons htail, List.replicate, run_cons hhead, hpush]
      simp [run, withRing, ringView, hidle]
    · have hhead : step { s with owner := .pushLoadHead task s.tail } .runOwner =
          some { s with owner := .pushStoreSlot task s.tail } := if_neg (by rwa [hsub])
      have hslot : step { s with owner := .pushStoreSlot task s.tail } .runOwner =
        some { s with
          slots := Function.update s.slots (slotOf s.tail) (some task)
          owner := .pushStoreTail task s.tail } := rfl
      have hdone : step { s with
          slots := Function.update s.slots (slotOf s.tail) (some task)
          owner := .pushStoreTail task s.tail } .runOwner =
        some { s with
          slots := Function.update s.slots (slotOf s.tail) (some task)
          tail := add64 s.tail 1
          owner := .idle
          accepted := s.accepted ++ [task] } := rfl
      have hadd : add64 s.tail 1 = s.tail + 1 := add64_of_lt (by omega)
      have hpush : (ringView s).pushBack (some task) = (true,
        ⟨Function.update s.slots (slotOf s.tail) (some task), s.head, s.tail + 1⟩) := if_neg hfull
      refine ⟨4, ?_⟩
      rw [run_cons hcall, List.replicate, run_cons htail, List.replicate, run_cons hhead,
        List.replicate, run_cons hslot, List.replicate, run_cons hdone, hpush]
      simp [run, withRing, hadd, hidle]

theorem popBack_undisturbed (hidle : s.owner = .idle) (hsmall : s.tail < 2 ^ 64) :
    ∃ n, run step s (.popBack :: List.replicate n .runOwner) =
      some { withRing s (ringView s).popBack.2 with
        returned := s.returned ++ (ringView s).popBack.1.toList } := by
  by_cases hzero : s.tail = 0
  · refine ⟨1, ?_⟩
    simp [run, step, runOwner, hidle, hzero, TaskRing.popBack, withRing, ringView]
  · have hadd : add64 (s.tail - 1) 1 = s.tail - 1 + 1 := add64_of_lt (by omega)
    by_cases hempty : s.tail - 1 < s.head
    · refine ⟨4, ?_⟩
      simp [run, step, runOwner, hidle, hzero, hempty, TaskRing.popBack, withRing, ringView]
    · by_cases hlast : s.head = s.tail - 1
      · refine ⟨6, ?_⟩
        simp [run, step, runOwner, hidle, hzero, hlast, hadd, takeSlot, TaskRing.popBack,
          TaskRing.takeSlot, withRing, ringView]
      · refine ⟨4, ?_⟩
        simp [run, step, runOwner, hidle, hzero, hempty, hlast, takeSlot, TaskRing.popBack,
          TaskRing.takeSlot, withRing, ringView]

theorem stealFront_undisturbed {j : Nat} (hidle : s.thieves j = .idle)
    (hsmall : s.head + 1 < 2 ^ 64) (ownerOnly : Nat → Bool) :
    ∃ n, run step s (.stealFront j :: List.replicate n
        (.runThief j ((s.slots (slotOf s.head)).any ownerOnly))) =
      some { withRing s ((ringView s).stealFront ownerOnly).2 with
        returned := s.returned ++ ((ringView s).stealFront ownerOnly).1.toList } := by
  have hthieves : Function.update s.thieves j .idle = s.thieves := by
    rw [← hidle, Function.update_eq_self]
  have hadd : add64 s.head 1 = s.head + 1 := add64_of_lt (by omega)
  by_cases hempty : s.tail ≤ s.head
  · refine ⟨2, ?_⟩
    simp [run, step, runThief, setThief, hidle, hempty, hthieves, TaskRing.stealFront, withRing,
      ringView]
  · cases hslot : s.slots (slotOf s.head) with
    | none =>
      refine ⟨3, ?_⟩
      simp [run, step, runThief, setThief, hidle, hempty, hslot, hthieves, TaskRing.stealFront,
        withRing, ringView]
    | some candidate =>
      by_cases howner : ownerOnly candidate = true
      · refine ⟨4, ?_⟩
        simp [run, step, runThief, setThief, hidle, hempty, hslot, howner, hthieves,
          TaskRing.stealFront, withRing, ringView]
      · refine ⟨6, ?_⟩
        simp [run, step, runThief, setThief, takeSlot, hidle, hempty, hslot, howner, hadd, hthieves,
          TaskRing.stealFront, TaskRing.takeSlot, withRing, ringView]

end GalayKernel.Proofs
