import GalayKernel.ChaseLevTaskRing

namespace GalayKernel.Proofs
open ChaseLevTaskRing

/-- One constructor for each branch of `ChaseLevTaskRing.step`. -/
inductive RingMove (s : ChaseLevTaskRing) : RingAction → ChaseLevTaskRing → Prop
  | pushInvalid (hpc : s.owner = .idle) : RingMove s (.pushBack none) s
  | push {task : Nat} (hpc : s.owner = .idle) :
      RingMove s (.pushBack (some task)) { s with owner := .pushLoadTail task }
  | pop (hpc : s.owner = .idle) : RingMove s .popBack { s with owner := .popLoadTail }
  | pushLoadTail {task : Nat} (hpc : s.owner = .pushLoadTail task) :
      RingMove s .runOwner { s with owner := .pushLoadHead task s.tail }
  | pushFull {task tail : Nat} (hpc : s.owner = .pushLoadHead task tail) :
      RingMove s .runOwner { s with owner := .idle }
  | pushLoadHead {task tail : Nat} (hpc : s.owner = .pushLoadHead task tail)
      (hroom : sub64 tail s.head < kCapacity) :
      RingMove s .runOwner { s with owner := .pushStoreSlot task tail }
  | pushStoreSlot {task tail : Nat} (hpc : s.owner = .pushStoreSlot task tail) :
      RingMove s .runOwner
        { s with
          slots := Function.update s.slots (slotOf tail) (some task)
          owner := .pushStoreTail task tail }
  | pushStoreTail {task tail : Nat} (hpc : s.owner = .pushStoreTail task tail) :
      RingMove s .runOwner
        { s with tail := add64 tail 1, owner := .idle, accepted := s.accepted ++ [task] }
  | popEmpty (hpc : s.owner = .popLoadTail) : RingMove s .runOwner { s with owner := .idle }
  | popLoadTail (hpc : s.owner = .popLoadTail) (htail : s.tail ≠ 0) :
      RingMove s .runOwner { s with owner := .popStoreTail (s.tail - 1) }
  | popStoreTail {tail : Nat} (hpc : s.owner = .popStoreTail tail) :
      RingMove s .runOwner { s with tail := tail, owner := .popLoadHead tail }
  | popPassed {tail : Nat} (hpc : s.owner = .popLoadHead tail) (hhead : tail < s.head) :
      RingMove s .runOwner { s with owner := .popRestore s.head }
  | popLast {tail : Nat} (hpc : s.owner = .popLoadHead tail) (hhead : s.head = tail) :
      RingMove s .runOwner { s with owner := .popCas tail }
  | popMore {tail : Nat} (hpc : s.owner = .popLoadHead tail) (hhead : s.head < tail) :
      RingMove s .runOwner { s with owner := .popTake tail }
  | popCasWon {tail : Nat} (hpc : s.owner = .popCas tail) (hhead : s.head = tail) :
      RingMove s .runOwner { s with head := add64 tail 1, owner := .popStoreTailLast tail }
  | popCasLost {tail : Nat} (hpc : s.owner = .popCas tail) (hhead : s.head ≠ tail) :
      RingMove s .runOwner { s with owner := .popRestore s.head }
  | popRestore {head : Nat} (hpc : s.owner = .popRestore head) :
      RingMove s .runOwner { s with tail := head, owner := .idle }
  | popStoreTailLast {tail : Nat} (hpc : s.owner = .popStoreTailLast tail) :
      RingMove s .runOwner { s with tail := add64 tail 1, owner := .popTakeLast tail }
  | popTakeLast {tail : Nat} (hpc : s.owner = .popTakeLast tail) :
      RingMove s .runOwner { s.takeSlot tail with owner := .idle }
  | popTake {tail : Nat} (hpc : s.owner = .popTake tail) :
      RingMove s .runOwner { s.takeSlot tail with owner := .idle }
  | steal {j : Nat} (hpc : s.thieves j = .idle) :
      RingMove s (.stealFront j) (s.setThief j .loadHead)
  | loadHead {j : Nat} {only : Bool} (hpc : s.thieves j = .loadHead) :
      RingMove s (.runThief j only) (s.setThief j (.loadTail s.head))
  | loadTail {j head : Nat} {only : Bool} (hpc : s.thieves j = .loadTail head)
      (htail : head < s.tail) : RingMove s (.runThief j only) (s.setThief j (.loadSlot head))
  | loadSlot {j head : Nat} {only : Bool} (hpc : s.thieves j = .loadSlot head) :
      RingMove s (.runThief j only) (s.setThief j (.loadOwnerOnly head))
  | loadOwnerOnly {j head : Nat} {only : Bool} (hpc : s.thieves j = .loadOwnerOnly head) :
      RingMove s (.runThief j only) (s.setThief j (.cas head))
  /-- a `steal_front` that returns false -/
  | giveUp {j : Nat} {only : Bool} (hpc : ∀ head, s.thieves j ≠ .exchange head) :
      RingMove s (.runThief j only) (s.setThief j .idle)
  | casWon {j head : Nat} {only : Bool} (hpc : s.thieves j = .cas head) (hhead : s.head = head) :
      RingMove s (.runThief j only) { s.setThief j (.exchange head) with head := add64 head 1 }
  | exchange {j head : Nat} {only : Bool} (hpc : s.thieves j = .exchange head) :
      RingMove s (.runThief j only) ((s.takeSlot head).setThief j .idle)

lemma ringMove_of_runOwner {s s' : ChaseLevTaskRing} (h : s.runOwner = some s') :
    RingMove s .runOwner s' := by
  unfold runOwner at h
  split at h
  case h_1 => cases h
  case h_2 hpc => cases h; exact .pushLoadTail hpc
  case h_3 hpc =>
    split at h <;> cases h
    · exact .pushFull hpc
    · exact .pushLoadHead hpc (by omega)
  case h_4 hpc => cases h; exact .pushStoreSlot hpc
  case h_5 hpc => cases h; exact .pushStoreTail hpc
  case h_6 hpc =>
    split at h <;> cases h
    · exact .popEmpty hpc
    · exact .popLoadTail hpc ‹_›
  case h_7 hpc => cases h; exact .popStoreTail hpc
  case h_8 hpc =>
    split at h
    · cases h
      exact .popPassed hpc ‹_›
    · split at h <;> cases h
      · exact .popLast hpc ‹_›
      · exact .popMore hpc (by omega)
  case h_9 hpc =>
    split at h <;> cases h
    · exact .popCasWon hpc ‹_›
    · exact .popCasLost hpc ‹_›
  case h_10 hpc => cases h; exact .popRestore hpc
  case h_11 hpc => cases h; exact .popStoreTailLast hpc
  case h_12 hpc => cases h; exact .popTakeLast hpc
  case h_13 hpc => cases h; exact .popTake hpc

lemma ringMove_of_runThief {s s' : ChaseLevTaskRing} {j : Nat} {only : Bool}
    (h : s.runThief j only = some s') : RingMove s (.runThief j only) s' := by
  unfold runThief at h
  split at h
  case h_1 => cases h
  case h_2 hpc => cases h; exact .loadHead hpc
  case h_3 hpc =>
    cases h
    split
    · exact .giveUp (by simp [hpc])
    · exact .loadTail hpc (by omega)
  case h_4 hpc =>
    cases h
    split
    · exact .giveUp (by simp [hpc])
    · exact .loadSlot hpc
  case h_5 hpc =>
    cases h
    split
    · exact .giveUp (by simp [hpc])
    · exact .loadOwnerOnly hpc
  case h_6 hpc =>
    split at h <;> cases h
    · exact .casWon hpc ‹_›
    · exact .giveUp (by simp [hpc])
  case h_7 hpc => cases h; exact .exchange hpc

/-- Every step is one of the listed moves. -/
theorem ringMove_of_step {s s' : ChaseLevTaskRing} {a : RingAction} (h : s.step a = some s') :
    RingMove s a s' := by
  cases a with
  | pushBack task =>
    simp only [step] at h
    split at h
    · cases task with
      | none => cases h; exact .pushInvalid ‹_›
      | some task => cases h; exact .push ‹_›
    · cases h
  | popBack =>
    simp only [step] at h
    split at h <;> cases h
    exact .pop ‹_›
  | runOwner => exact ringMove_of_runOwner h
  | stealFront j =>
    simp only [step] at h
    split at h <;> cases h
    exact .steal ‹_›
  | runThief j only => exact ringMove_of_runThief h

lemma add64_of_lt {a b : Nat} (h : a + b < 2 ^ 64) : add64 a b = a + b := Nat.mod_eq_of_lt h

lemma sub64_of_le {a b : Nat} (hb : b ≤ a) (ha : a < 2 ^ 64) : sub64 a b = a - b := by
  unfold sub64
  omega

/-- The end of the stored indices. It differs from `m_tail` inside of `pop_back`, whose index
stays stored until it is taken, and when `push_back` has stored its task already. -/
def top (s : ChaseLevTaskRing) : Nat :=
  match s.owner with
  | .pushStoreTail _ tail | .popLoadHead tail | .popCas tail | .popStoreTailLast tail
  | .popTake tail => tail + 1
  | .popRestore head => head
  | _ => s.tail

def limit (s : ChaseLevTaskRing) : Nat :=
  match s.owner with
  | .pushStoreTail _ tail | .popTake tail => tail
  | _ => top s

/-- The last index, which the owner has won against the thieves and not taken yet. -/
def OwnerPc.last : OwnerPc → Option Nat
  | .popStoreTailLast tail | .popTakeLast tail => some tail
  | _ => none

/-- What the owner's local variables say about the counters. -/
def OwnerOk (s : ChaseLevTaskRing) : Prop :=
  match s.owner with
  | .idle | .pushLoadTail _ | .popLoadTail => s.head ≤ s.tail
  | .pushLoadHead _ tail => tail = s.tail ∧ s.head ≤ s.tail
  | .pushStoreSlot _ tail | .pushStoreTail _ tail =>
    tail = s.tail ∧ s.head ≤ s.tail ∧ s.tail < s.head + kCapacity
  | .popStoreTail tail => tail + 1 = s.tail ∧ s.head ≤ s.tail
  | .popLoadHead tail => tail = s.tail ∧ s.head ≤ tail + 1
  | .popCas tail => tail = s.tail ∧ (s.head = tail ∨ s.head = tail + 1)
  | .popRestore head => head = s.head ∧ s.head = s.tail + 1
  | .popStoreTailLast tail => tail = s.tail ∧ s.head = tail + 1
  | .popTakeLast tail => s.tail = tail + 1 ∧ s.head = tail + 1
  | .popTake tail => tail = s.tail ∧ s.head ≤ tail

/-- What a thief's local variable says about the counters. -/
def ThiefOk (s : ChaseLevTaskRing) : ThiefPc → Prop
  | .loadTail head => head ≤ s.head
  | .loadSlot head | .loadOwnerOnly head | .cas head =>
    head ≤ s.head ∧ (head = s.head → head < limit s)
  | .exchange head => head < s.head ∧ top s ≤ head + kCapacity ∧ OwnerPc.last s.owner ≠ some head
  | _ => True

structure ControlOk (s : ChaseLevTaskRing) : Prop where
  owner : OwnerOk s
  thief : ∀ j, ThiefOk s (s.thieves j)
  distinct : ∀ i j head, s.thieves i = .exchange head → s.thieves j = .exchange head → i = j
  window : top s ≤ s.head + kCapacity
  small : top s < 2 ^ 64

/-- When `push_back` stores its task, no thief still has to read the slot, and the counter
does not wrap around. -/
def SlotFree (s : ChaseLevTaskRing) : RingAction → Prop
  | .runOwner => ∀ task tail, s.owner = .pushStoreSlot task tail → tail + 1 < 2 ^ 64 ∧
      ∀ j head, s.thieves j = .exchange head → head % kCapacity ≠ tail % kCapacity
  | _ => True

lemma controlOk_init : ControlOk init where
  owner := Nat.le_refl 0
  thief _ := trivial
  distinct _ _ _ h := by cases h
  window := Nat.zero_le _
  small := by decide

lemma ControlOk.of_owner {s s' : ChaseLevTaskRing} (h : ControlOk s)
    (hth : s'.thieves = s.thieves) (ho : OwnerOk s') (hhead : s.head ≤ s'.head)
    (hlim : s'.head = s.head → s.head < limit s → s.head < limit s') (htop : top s' ≤ top s)
    (hlast : ∀ i < s.head, OwnerPc.last s'.owner = some i → OwnerPc.last s.owner = some i) :
    ControlOk s' where
  owner := ho
  thief j := by
    have hj := h.thief j
    rw [hth]
    cases hpc : s.thieves j with
    | idle => trivial
    | loadHead => trivial
    | loadTail head =>
      rw [hpc] at hj
      exact Nat.le_trans hj hhead
    | loadSlot head | loadOwnerOnly head | cas head =>
      rw [hpc] at hj
      obtain ⟨hle, hlt⟩ := hj
      refine ⟨by omega, fun heq => ?_⟩
      have hsame : s'.head = s.head := by omega
      have hlim' := hlim hsame (by have := hlt (by omega); omega)
      omega
    | exchange head =>
      rw [hpc] at hj
      obtain ⟨hlt, htop', hne⟩ := hj
      exact ⟨by omega, by omega, fun he => hne (hlast head hlt he)⟩
  distinct := hth ▸ h.distinct
  window := by
    have := h.window
    omega
  small := by
    have := h.small
    omega

lemma ControlOk.of_thief {s : ChaseLevTaskRing} {j : Nat} {pc : ThiefPc} (h : ControlOk s)
    (hpc : ThiefOk s pc) (hne : ∀ head, pc ≠ .exchange head) : ControlOk (s.setThief j pc) where
  owner := h.owner
  thief i := by
    change ThiefOk s (Function.update s.thieves j pc i)
    by_cases hi : i = j
    · rwa [hi, Function.update_self]
    · rw [Function.update_of_ne hi]
      exact h.thief i
  distinct i k head hi hk := by
    simp only [setThief, Function.update_apply] at hi hk
    split at hi
    · exact absurd hi (hne head)
    · split at hk
      · exact absurd hk (hne head)
      · exact h.distinct i k head hi hk
  window := h.window
  small := h.small

lemma tail_le_limit {s : ChaseLevTaskRing} (h : OwnerOk s) : s.tail ≤ limit s := by
  unfold OwnerOk at h
  unfold limit top
  split at h <;> simp_all

lemma limit_le_top {s : ChaseLevTaskRing} : limit s ≤ top s := by
  unfold limit top
  split <;> simp_all

lemma ControlOk.casWon {s : ChaseLevTaskRing} {j : Nat} (h : ControlOk s)
    (hpc : s.thieves j = .cas s.head) :
    ControlOk { s.setThief j (.exchange s.head) with head := add64 s.head 1 } := by
  have hj := h.thief j
  rw [hpc] at hj
  have hlt : s.head < limit s := hj.2 rfl
  have hadd : add64 s.head 1 = s.head + 1 := by
    have hle := limit_le_top (s := s)
    exact add64_of_lt (by have := h.small; omega)
  rw [hadd]
  refine ⟨?_, fun i => ?_, fun i k head hi hk => ?_, ?_, h.small⟩
  · have ho := h.owner
    simp only [OwnerOk, limit, top, setThief] at *
    cases hpc : s.owner <;> simp only [hpc] at * <;> omega
  · have hi := h.thief i
    have hw := h.window
    have hlast : OwnerPc.last s.owner ≠ some s.head := by
      have ho := h.owner
      simp only [OwnerOk] at ho
      cases hpc : s.owner <;> simp only [hpc, OwnerPc.last] at * <;> grind
    change ThiefOk _ (Function.update s.thieves j (.exchange s.head) i)
    by_cases hij : i = j
    · rw [hij, Function.update_self]
      exact ⟨Nat.lt_succ_self _, hw, hlast⟩
    · rw [Function.update_of_ne hij]
      cases hpci : s.thieves i <;> simp only [hpci, ThiefOk] at * <;>
        grind [top, setThief]
  · have hi' := h.thief i
    have hk' := h.thief k
    have hd := h.distinct i k head
    simp only [setThief, Function.update_apply] at hi hk
    grind [ThiefOk]
  · have hw := h.window
    change top s ≤ s.head + 1 + kCapacity
    omega

/-- The stored index is less than a turn ahead of every index a thief still has to read. -/
lemma ControlOk.pushStoreSlot {s : ChaseLevTaskRing} {task tail : Nat} (h : ControlOk s)
    (hpc : s.owner = .pushStoreSlot task tail) (hfree : SlotFree s .runOwner)
    (slots : Fin kCapacity → Option Nat) :
    ControlOk { s with slots := slots, owner := .pushStoreTail task tail } := by
  obtain ⟨hsmall, hread⟩ := hfree task tail hpc
  have howner := h.owner
  simp only [OwnerOk, hpc] at howner
  refine ⟨howner, fun i => ?_, h.distinct, ?_, hsmall⟩
  · have hi := h.thief i
    have hmod := hread i
    change ThiefOk _ (s.thieves i)
    cases hpci : s.thieves i <;>
      simp only [hpci, hpc, ThiefOk, limit, top, OwnerPc.last, kCapacity] at * <;> grind
  · simp only [top]
    omega

theorem controlOk_move {s s' : ChaseLevTaskRing} {a : RingAction} (h : ControlOk s)
    (hfree : SlotFree s a) (hm : RingMove s a s') : ControlOk s' := by
  have howner := h.owner
  have hsmall := h.small
  have hwindow := h.window
  cases hm with
  | pushInvalid hpc => exact h
  | pushStoreSlot hpc => exact h.pushStoreSlot hpc hfree _
  | casWon hpc hhead =>
    subst hhead
    exact h.casWon hpc
  | exchange hpc =>
    exact ControlOk.of_thief (s := s.takeSlot _) ⟨howner, h.thief, h.distinct, hwindow, hsmall⟩
      trivial (by simp)
  | steal hpc => exact h.of_thief trivial (by simp)
  | giveUp hpc => exact h.of_thief trivial (by simp)
  | loadHead hpc => exact h.of_thief (Nat.le_refl _) (by simp)
  | @loadTail j head only hpc htail =>
    have hj := h.thief j
    rw [hpc] at hj
    refine h.of_thief ⟨hj, fun _ => ?_⟩ (by simp)
    have hle := tail_le_limit howner
    omega
  | @loadSlot j head only hpc | @loadOwnerOnly j head only hpc =>
    have hj := h.thief j
    rw [hpc] at hj
    exact h.of_thief hj (by simp)
  | push hpc | pop hpc | pushLoadTail hpc | pushFull hpc | pushLoadHead hpc hroom
  | pushStoreTail hpc
  | popEmpty hpc | popLoadTail hpc htail | popStoreTail hpc | popPassed hpc hhead | popLast hpc hhead
  | popMore hpc hhead | popCasWon hpc hhead | popCasLost hpc hhead | popRestore hpc
  | popStoreTailLast hpc | popTakeLast hpc | popTake hpc =>
    simp only [OwnerOk, hpc, top, kCapacity] at howner hsmall hwindow
    refine h.of_owner rfl ?_ ?_ ?_ ?_ ?_ <;>
      simp only [OwnerOk, hpc, top, limit, OwnerPc.last, takeSlot, add64, sub64, kCapacity] at * <;>
      grind

end GalayKernel.Proofs
