import GalayKernel.Proofs.RingMoves

/-!
# Conservation of tasks in the work-stealing ring

The occupied slots are those of the indices between `m_head` and the end of the ring,
together with the indices the owner or a thief has won and not read yet. An index that was
won is invisible to `push_back`, which compares `m_tail` with `m_head` only: on a full ring
it stores into the slot a thief is about to read. As long as that does not happen, every
task is returned exactly once.
-/

namespace GalayKernel.Proofs
open ChaseLevTaskRing Transition

def Live (s : ChaseLevTaskRing) (i : Nat) : Prop :=
  (s.head ≤ i ∧ i < top s) ∨ OwnerPc.last s.owner = some i ∨ ∃ j, s.thieves j = .exchange i

lemma live_bounds {s : ChaseLevTaskRing} {i : Nat} (h : ControlOk s) (hi : Live s i) :
    i < top s ∧ top s ≤ i + kCapacity := by
  have ho := h.owner
  have hw := h.window
  rcases hi with ⟨hle, hlt⟩ | hlast | ⟨j, hj⟩
  · omega
  · simp only [OwnerOk, top, kCapacity] at *
    cases hpc : s.owner <;> simp only [hpc, OwnerPc.last] at * <;> grind
  · have ht := h.thief j
    rw [hj] at ht
    obtain ⟨hlt, htop, -⟩ := ht
    refine ⟨?_, htop⟩
    simp only [OwnerOk, top] at *
    cases hpc : s.owner <;> simp only [hpc] at * <;> omega

lemma live_congr {s s' : ChaseLevTaskRing} (hhead : s'.head = s.head)
    (hth : s'.thieves = s.thieves) (htop : top s' = top s)
    (hlast : OwnerPc.last s'.owner = OwnerPc.last s.owner) (i : Nat) : Live s' i ↔ Live s i := by
  unfold Live
  rw [hhead, hth, htop, hlast]

lemma live_setThief {s : ChaseLevTaskRing} {j : Nat} {pc : ThiefPc}
    (hold : ∀ head, s.thieves j ≠ .exchange head) (hnew : ∀ head, pc ≠ .exchange head) (i : Nat) :
    Live (s.setThief j pc) i ↔ Live s i := by
  have hex : (∃ k, Function.update s.thieves j pc k = .exchange i) ↔
      ∃ k, s.thieves k = .exchange i := by
    refine exists_congr (fun k => ?_)
    by_cases hk : k = j
    · rw [hk, Function.update_self]
      exact iff_of_false (hnew i) (hold i)
    · rw [Function.update_of_ne hk]
  exact or_congr Iff.rfl (or_congr Iff.rfl hex)

lemma exchange_lt_head {s : ChaseLevTaskRing} {j head : Nat} (h : ControlOk s)
    (hj : s.thieves j = .exchange head) : head < s.head := by
  have ht := h.thief j
  rw [hj] at ht
  exact ht.1

lemma exchange_ne_last {s : ChaseLevTaskRing} {head : Nat} (h : ControlOk s)
    (hlast : OwnerPc.last s.owner = some head) (j : Nat) : s.thieves j ≠ .exchange head := by
  intro hj
  have ht := h.thief j
  rw [hj] at ht
  exact ht.2.2 hlast

lemma live_pushed {s : ChaseLevTaskRing} {task tail : Nat} (h : ControlOk s)
    (hpc : s.owner = .pushStoreSlot task tail) (slots : Fin kCapacity → Option Nat) (i : Nat) :
    Live { s with slots := slots, owner := .pushStoreTail task tail } i ↔ Live s i ∨ i = tail := by
  have ho := h.owner
  simp only [Live, OwnerOk, top, hpc, OwnerPc.last] at *
  grind

/-- The index `push_back` stores is less than a turn ahead of every live one. -/
lemma pushed_close {s : ChaseLevTaskRing} {task tail i : Nat} {slots : Fin kCapacity → Option Nat}
    (h : ControlOk s) (h' : ControlOk { s with slots := slots, owner := .pushStoreTail task tail })
    (hpc : s.owner = .pushStoreSlot task tail) (hi : Live s i) :
    (tail < i + kCapacity ∧ i < tail + kCapacity) ∧ i < tail := by
  have ho := h.owner
  have hold := live_bounds h hi
  have hnew := live_bounds h' ((live_pushed h hpc slots i).mpr (.inl hi))
  simp only [OwnerOk, top, hpc] at *
  omega

lemma live_popTakeLast {s : ChaseLevTaskRing} {tail : Nat} (h : ControlOk s)
    (hpc : s.owner = .popTakeLast tail) :
    Live s tail ∧ ∀ i, Live { s.takeSlot tail with owner := .idle } i ↔ Live s i ∧ i ≠ tail := by
  refine ⟨.inr (.inl (by rw [hpc]; rfl)), fun i => ?_⟩
  have ho := h.owner
  have hread := exchange_ne_last h (by rw [hpc]; rfl)
  simp only [Live, OwnerOk, top, hpc, OwnerPc.last, takeSlot] at *
  grind

lemma live_popTake {s : ChaseLevTaskRing} {tail : Nat} (h : ControlOk s)
    (hpc : s.owner = .popTake tail) :
    Live s tail ∧ ∀ i, Live { s.takeSlot tail with owner := .idle } i ↔ Live s i ∧ i ≠ tail := by
  have ho := h.owner
  have hread := fun j (hj : s.thieves j = .exchange tail) => exchange_lt_head h hj
  simp only [Live, OwnerOk, top, hpc, OwnerPc.last, takeSlot] at *
  refine ⟨by omega, fun i => ?_⟩
  grind

lemma live_exchange {s : ChaseLevTaskRing} {j head : Nat} (h : ControlOk s)
    (hpc : s.thieves j = .exchange head) (i : Nat) :
    Live ((s.takeSlot head).setThief j .idle) i ↔ Live s i ∧ i ≠ head := by
  have hlt := exchange_lt_head h hpc
  have hlast : OwnerPc.last s.owner ≠ some head := fun he => exchange_ne_last h he j hpc
  have hdist := fun k => h.distinct j k head hpc
  simp only [Live, setThief, takeSlot, Function.update_apply, top]
  grind

theorem slots_move {s s' : ChaseLevTaskRing} {a : RingAction}
    (h : Window.Represents (Live s) s.slots) (hc : ControlOk s) (hc' : ControlOk s')
    (hm : RingMove s a s') : Window.Represents (Live s') s'.slots := by
  have ho := hc.owner
  have hsmall := hc.small
  cases hm with
  | @pushStoreSlot task tail hpc =>
    rw [slotOf_eq]
    exact h.push (fun i hi => (pushed_close hc hc' hpc hi).1) (live_pushed hc hpc _) task
  | @popTakeLast tail hpc =>
    obtain ⟨hlive, htaken⟩ := live_popTakeLast hc hpc
    simp only [takeSlot, slotOf_eq]
    exact h.take hlive htaken
  | @popTake tail hpc =>
    obtain ⟨hlive, htaken⟩ := live_popTake hc hpc
    simp only [takeSlot, slotOf_eq]
    exact h.take hlive htaken
  | @exchange j head only hpc =>
    simp only [takeSlot, slotOf_eq]
    exact h.take (.inr (.inr ⟨j, hpc⟩)) (live_exchange hc hpc)
  | @casWon j head only hpc hhead =>
    subst hhead
    have ht := hc.thief j
    rw [hpc] at ht
    have hlt : s.head < top s := Nat.lt_of_lt_of_le (ht.2 rfl) limit_le_top
    refine h.congr (fun i => ?_)
    rw [add64_of_lt (by omega)]
    simp only [Live, setThief, Function.update_apply]
    change (s.head + 1 ≤ i ∧ i < top s) ∨ _ ↔ _
    grind
  | popCasWon hpc hhead =>
    refine h.congr (fun i => ?_)
    simp only [Live, OwnerOk, top, hpc, OwnerPc.last, add64] at *
    grind
  | pushInvalid hpc => exact h
  | steal hpc | loadHead hpc | loadTail hpc htail | loadSlot hpc | loadOwnerOnly hpc | giveUp hpc =>
    exact h.congr (live_setThief (by simp_all) (by simp))
  | push hpc | pop hpc | pushLoadTail hpc | pushFull hpc | pushLoadHead hpc hroom
  | pushStoreTail hpc | popEmpty hpc | popLoadTail hpc htail | popStoreTail hpc
  | popPassed hpc hhead | popLast hpc hhead | popMore hpc hhead | popCasLost hpc hhead
  | popRestore hpc | popStoreTailLast hpc =>
    refine h.congr (live_congr rfl rfl ?_ ?_) <;>
      simp only [OwnerOk, top, hpc, OwnerPc.last, add64] at * <;> grind

lemma slotOf_ne {i j : Nat} (hne : i ≠ j) (hij : i < j + kCapacity) (hji : j < i + kCapacity) :
    slotOf i ≠ slotOf j := by
  rw [slotOf_eq, slotOf_eq]
  exact fun h => hne (Window.slot_inj h hij hji)

lemma live_slot_ne {s : ChaseLevTaskRing} {i j : Nat} (h : ControlOk s) (hi : Live s i)
    (hj : Live s j) (hne : i ≠ j) : slotOf i ≠ slotOf j := by
  have hbi := live_bounds h hi
  have hbj := live_bounds h hj
  exact slotOf_ne hne (by omega) (by omega)

/-- An index that stays live keeps its task. -/
theorem slots_kept {s s' : ChaseLevTaskRing} {a : RingAction} {i : Nat} (h : ControlOk s)
    (h' : ControlOk s') (hm : RingMove s a s') (hi : Live s i) (hi' : Live s' i) :
    s'.slots (slotOf i) = s.slots (slotOf i) := by
  cases hm with
  | @pushStoreSlot task tail hpc =>
    have hclose := pushed_close h h' hpc hi
    exact Function.update_of_ne (slotOf_ne (by omega) (by omega) (by omega)) _ _
  | @popTakeLast tail hpc =>
    obtain ⟨hlive, htaken⟩ := live_popTakeLast h hpc
    exact Function.update_of_ne (live_slot_ne h hi hlive ((htaken i).mp hi').2) _ _
  | @popTake tail hpc =>
    obtain ⟨hlive, htaken⟩ := live_popTake h hpc
    exact Function.update_of_ne (live_slot_ne h hi hlive ((htaken i).mp hi').2) _ _
  | @exchange j head only hpc =>
    have hne := ((live_exchange h hpc i).mp hi').2
    exact Function.update_of_ne (live_slot_ne h hi (.inr (.inr ⟨j, hpc⟩)) hne) _ _
  | _ => rfl

lemma head_le {s s' : ChaseLevTaskRing} {a : RingAction} (h : ControlOk s) (hm : RingMove s a s') :
    s.head ≤ s'.head := by
  have hsmall := h.small
  have howner := h.owner
  cases hm with
  | @popCasWon tail hpc hhead =>
    simp only [OwnerOk, top, hpc] at howner hsmall
    simp only [add64_of_lt hsmall]
    omega
  | @casWon j head only hpc hhead =>
    have hj := h.thief j
    rw [hpc] at hj
    have hlt : head < top s := Nat.lt_of_lt_of_le (hj.2 hhead.symm) limit_le_top
    simp only [add64_of_lt (show head + 1 < 2 ^ 64 by omega)]
    omega
  | _ => exact Nat.le_refl _

/-- A thief reads an index that is live as long as it can win it. -/
lemma front_live {s : ChaseLevTaskRing} {j head : Nat} (h : ControlOk s)
    (hpc : s.thieves j = .loadOwnerOnly head ∨ s.thieves j = .cas head) (hhead : s.head = head) :
    Live s head := by
  have hj := h.thief j
  obtain hpc | hpc := hpc <;>
  · rw [hpc] at hj
    exact .inl ⟨hhead.le, Nat.lt_of_lt_of_le (hj.2 hhead.symm) limit_le_top⟩

/-- A thief that can still win its index finds there what it has read. -/
theorem front_kept {s s' : ChaseLevTaskRing} {a : RingAction} {j head : Nat} (h : ControlOk s)
    (h' : ControlOk s') (hm : RingMove s a s')
    (hpc : s.thieves j = .loadOwnerOnly head ∨ s.thieves j = .cas head)
    (hpc' : s'.thieves j = .loadOwnerOnly head ∨ s'.thieves j = .cas head)
    (hhead : s'.head = head) : s.head = head ∧ s'.slots (slotOf head) = s.slots (slotOf head) := by
  have hj := h.thief j
  have hle : head ≤ s.head := by
    obtain hpc | hpc := hpc <;>
    · rw [hpc] at hj
      exact hj.1
  have heq : s.head = head := le_antisymm (hhead ▸ head_le h hm) hle
  exact ⟨heq, slots_kept h h' hm (front_live h hpc heq) (front_live h' hpc' hhead)⟩

lemma held_update {s s' : ChaseLevTaskRing} {k : Fin kCapacity} {new : Option Nat}
    (hs : s'.slots = Function.update s.slots k new) :
    s'.held + (s.slots k).toList = s.held + new.toList := by
  have h := Buckets.total_update (fun i => (s.slots i).toList) k new.toList
  have heq : Function.update (fun i => (s.slots i).toList) k new.toList =
      fun i => (s'.slots i).toList := by
    rw [hs]
    exact (Function.comp_update Option.toList s.slots k new).symm
  rw [heq] at h
  exact h

lemma conserved_congr {s s' : ChaseLevTaskRing} (h : Conserved s) (hs : s'.slots = s.slots)
    (ha : s'.accepted = s.accepted) (hr : s'.returned = s.returned)
    (hp : s'.pushing = s.pushing) : Conserved s' := by
  unfold Conserved held at *
  rw [hs, ha, hr, hp]
  exact h

lemma conserved_take {s s' : ChaseLevTaskRing} {i : Nat} (h : Conserved s)
    (hr : Window.Represents (Live s) s.slots) (hi : Live s i)
    (hs : s'.slots = (s.takeSlot i).slots) (ha : s'.accepted = s.accepted)
    (hret : s'.returned = (s.takeSlot i).returned) (hp : s'.pushing = s.pushing) : Conserved s' := by
  obtain ⟨x, hx⟩ := Option.ne_none_iff_exists'.mp (hr.filled i hi)
  rw [← slotOf_eq] at hx
  have hheld : s'.held + {x} = s.held := by
    have hk := held_update hs
    rw [hx] at hk
    simpa using hk
  obtain ⟨hsum, hnull⟩ := h
  refine ⟨?_, ?_⟩
  · rw [ha, hp, hsum, hret, ← hheld, add_comm s'.held, ← add_assoc]
    simp only [takeSlot, hx, List.filterMap_append, ← Multiset.coe_add]
    rfl
  · rw [hret]
    simpa [takeSlot, hx] using hnull

lemma conserved_store {s s' : ChaseLevTaskRing} {k : Fin kCapacity} {task : Nat} (h : Conserved s)
    (hempty : s.slots k = none) (hs : s'.slots = Function.update s.slots k (some task))
    (ha : s'.accepted = s.accepted) (hret : s'.returned = s.returned) (hp : s.pushing = 0)
    (hp' : s'.pushing = {task}) : Conserved s' := by
  have hheld : s'.held = s.held + {task} := by
    have hk := held_update hs
    rw [hempty] at hk
    simpa using hk
  obtain ⟨hsum, hnull⟩ := h
  refine ⟨?_, hret ▸ hnull⟩
  rw [hp, add_zero] at hsum
  rw [ha, hp', hret, hheld, hsum, add_assoc]

theorem conserved_move {s s' : ChaseLevTaskRing} {a : RingAction} (h : Conserved s)
    (hr : Window.Represents (Live s) s.slots) (hc : ControlOk s) (hm : RingMove s a s')
    (hc' : ControlOk s') : Conserved s' := by
  cases hm with
  | @pushStoreSlot task tail hpc =>
    have hempty : s.slots (slotOf tail) = none := by
      rw [slotOf_eq]
      exact hr.free (fun hl => Nat.lt_irrefl _ (pushed_close hc hc' hpc hl).2)
        (fun i hi => (pushed_close hc hc' hpc hi).1)
    exact conserved_store h hempty rfl rfl rfl (by simp only [pushing, hpc]) rfl
  | @pushStoreTail task tail hpc =>
    obtain ⟨hsum, hnull⟩ := h
    refine ⟨?_, hnull⟩
    simp only [pushing, hpc] at hsum
    change ((s.accepted ++ [task] : List Nat) : Multiset Nat) + 0 = _ + s.held
    rw [add_zero, ← Multiset.coe_add]
    exact hsum
  | @popTakeLast tail hpc =>
    exact conserved_take h hr (.inr (.inl (by rw [hpc]; rfl))) rfl rfl rfl
      (by simp only [pushing, hpc])
  | @popTake tail hpc =>
    refine conserved_take h hr (i := tail) (.inl ?_) rfl rfl rfl (by simp only [pushing, hpc])
    have ho := hc.owner
    simp only [OwnerOk, top, hpc] at *
    omega
  | @exchange j head only hpc => exact conserved_take h hr (.inr (.inr ⟨j, hpc⟩)) rfl rfl rfl rfl
  | pushInvalid hpc => exact h
  | steal hpc | loadHead hpc | loadTail hpc htail | loadSlot hpc | loadOwnerOnly hpc | giveUp hpc
  | casWon hpc hhead =>
    exact conserved_congr h rfl rfl rfl rfl
  | push hpc | pop hpc | pushLoadTail hpc | pushFull hpc | pushLoadHead hpc hroom | popEmpty hpc
  | popLoadTail hpc htail | popStoreTail hpc | popPassed hpc hhead | popLast hpc hhead
  | popMore hpc hhead | popCasWon hpc hhead | popCasLost hpc hhead | popRestore hpc
  | popStoreTailLast hpc =>
    exact conserved_congr h rfl rfl rfl (by simp only [pushing, hpc])

structure RingOk (s : ChaseLevTaskRing) : Prop where
  control : ControlOk s
  slots : Window.Represents (Live s) s.slots
  conserved : Conserved s

lemma ringOk_init : RingOk init where
  control := controlOk_init
  slots := by
    refine ⟨fun i j hi => ?_, fun i hi => ?_, fun k hk => absurd rfl hk⟩ <;>
      simp [Live, init, top, OwnerPc.last] at hi
  conserved := by
    refine ⟨?_, by simp [init]⟩
    simp [init, pushing, held, Buckets.total_empty]

theorem ringOk_step {s s' : ChaseLevTaskRing} {a : RingAction} (h : RingOk s)
    (hfree : SlotFree s a) (hs : s.step a = some s') : RingOk s' := by
  have hm := ringMove_of_step hs
  have hc := controlOk_move h.control hfree hm
  exact ⟨hc, slots_move h.slots h.control hc hm, conserved_move h.conserved h.slots h.control hm hc⟩

/-- Between calls the occupied slots are those of the indices from `m_head` to `m_tail`. -/
lemma RingOk.quiet {s : ChaseLevTaskRing} (h : RingOk s) (hq : s.Quiet) (k : Fin kCapacity) :
    s.slots k ≠ none ↔ ∃ i, s.head ≤ i ∧ i < s.tail ∧ slotOf i = k := by
  obtain ⟨hidle, hthieves⟩ := hq
  have hlive : ∀ i, Live s i ↔ s.head ≤ i ∧ i < s.tail := by
    intro i
    simp [Live, top, hidle, hthieves, OwnerPc.last]
  constructor
  · intro hk
    obtain ⟨i, hi, hik⟩ := h.slots.used k hk
    exact ⟨i, ((hlive i).mp hi).1, ((hlive i).mp hi).2, (slotOf_eq i).trans hik⟩
  · rintro ⟨i, hle, hlt, rfl⟩
    rw [slotOf_eq]
    exact h.slots.filled i ((hlive i).mpr ⟨hle, hlt⟩)

/-- No task is lost, duplicated or turned into null unless `push_back` stores into a slot that
a thief has won and not read yet. -/
theorem ring_conserves_tasks {s : ChaseLevTaskRing} (h : Reaches step SlotFree init s) :
    Conserved s ∧ (s.Quiet → ∀ k, s.slots k ≠ none ↔
      ∃ i, s.head ≤ i ∧ i < s.tail ∧ slotOf i = k) := by
  have hok : RingOk s := h.invariant ringOk_init (fun _ _ _ hi hfree hs => ringOk_step hi hfree hs)
  exact ⟨hok.conserved, hok.quiet⟩

def fill (n : Nat) : ChaseLevTaskRing :=
  { init with
    slots := fun k => if k.val < n then some k.val else none
    tail := n
    accepted := List.range n }

lemma fill_slots_succ {n : Nat} (hn : n < kCapacity) :
    Function.update (fill n).slots (slotOf n) (some n) = (fill (n + 1)).slots := by
  funext k
  have hslot : (slotOf n).val = n := by
    rw [slotOf_eq]
    exact Nat.mod_eq_of_lt hn
  by_cases hk : k = slotOf n
  · simp [hk, fill, hslot]
  · have hne : k.val ≠ n := fun he => hk (Fin.ext (he.trans hslot.symm))
    rw [Function.update_of_ne hk]
    simp only [fill]
    grind

lemma fill_reaches_succ {n : Nat} (hn : n < kCapacity) (h : Reaches step SlotFree init (fill n)) :
    Reaches step SlotFree init (fill (n + 1)) := by
  have hroom : sub64 n 0 < kCapacity := by
    rw [sub64_of_le (Nat.zero_le n) (Nat.lt_trans hn (by decide))]
    exact hn
  have hwrap : n + 1 < 2 ^ 64 := Nat.lt_trans (Nat.succ_lt_succ hn) (by decide)
  have hpush : Reaches step SlotFree init { fill n with owner := .pushLoadTail n } :=
    h.next (a := RingAction.pushBack (some n)) trivial rfl
  have htail : Reaches step SlotFree init { fill n with owner := .pushLoadHead n n } :=
    hpush.next (a := RingAction.runOwner) (fun _ _ hpc => by cases hpc) rfl
  have hhead : Reaches step SlotFree init { fill n with owner := .pushStoreSlot n n } :=
    htail.next (a := RingAction.runOwner) (fun _ _ hpc => by cases hpc) (by
      simp only [step, runOwner]
      exact if_neg (Nat.not_le.mpr hroom))
  have hstore : Reaches step SlotFree init
      { fill n with slots := (fill (n + 1)).slots, owner := .pushStoreTail n n } := by
    refine hhead.next (a := RingAction.runOwner) (fun task tail hpc => ?_) ?_
    · cases hpc
      exact ⟨hwrap, fun _ _ hj => by cases hj⟩
    · rw [← fill_slots_succ hn]
      rfl
  refine hstore.next (a := RingAction.runOwner) (fun _ _ hpc => by cases hpc) ?_
  simp only [step, runOwner, add64_of_lt hwrap]
  simp [fill, init, List.range_succ]

lemma fill_reaches {n : Nat} (hn : n ≤ kCapacity) : Reaches step SlotFree init (fill n) := by
  induction n with
  | zero => exact .start
  | succ n ih => exact fill_reaches_succ hn (ih (Nat.le_of_succ_le hn))

def storesNothing (s : ChaseLevTaskRing) (_ : RingAction) : Bool :=
  match s.owner with
  | .pushStoreSlot _ _ => false
  | _ => true

lemma storesNothing_ok (s : ChaseLevTaskRing) (a : RingAction) (h : storesNothing s a = true) :
    SlotFree s a := by
  cases a with
  | runOwner =>
    intro task tail hpc
    simp [storesNothing, hpc] at h
  | _ => trivial

/-- A thief wins index 0 of the full ring, the owner pops index 255, and the thief reads its slot. -/
def stealAndPopRun : List RingAction :=
  [.stealFront 0, .runThief 0 false, .runThief 0 false, .runThief 0 false, .runThief 0 false,
    .runThief 0 false, .popBack, .runOwner, .runOwner, .runOwner, .runOwner, .runThief 0 false]

theorem stealAndPopRun_conserves : ∃ s, run step (fill kCapacity) stealAndPopRun = some s ∧
    s.returned = [some 255, some 0] ∧ Conserved s :=
  ⟨_, rfl, rfl, (ring_conserves_tasks (Reaches.of_run storesNothing storesNothing_ok
    stealAndPopRun (fill_reaches (Nat.le_refl _)) rfl)).1⟩

/-- A thief wins index 0 of the full ring; before it reads the slot, `push_back` finds room and
stores task 256 there. -/
def overwritingRun : List RingAction :=
  [.stealFront 0, .runThief 0 false, .runThief 0 false, .runThief 0 false, .runThief 0 false,
    .runThief 0 false, .pushBack (some 256), .runOwner, .runOwner, .runOwner, .runOwner,
    .runThief 0 false]

lemma overwritingRun_enabled : (run step (fill kCapacity) overwritingRun).isSome = true := by
  decide +kernel

lemma overwritingRun_loses_task : ∃ s, run step (fill kCapacity) overwritingRun = some s ∧
    0 ∈ s.accepted ∧ s.returned = [some 256] ∧ ∀ k, s.slots k ≠ some 0 :=
  ⟨_, (Option.some_get overwritingRun_enabled).symm, by decide +kernel, by decide +kernel,
    by decide +kernel⟩

/-- On a full ring `push_back` can overwrite a task that a thief has won. -/
theorem push_overwrites_stolen_task :
    ¬∀ s, Reaches step (fun _ _ => True) init s → Conserved s := by
  obtain ⟨s, hrun, hacc, hret, hslots⟩ := overwritingRun_loses_task
  intro h
  have hfull := (fill_reaches (Nat.le_refl kCapacity)).mono (fun _ _ _ => trivial)
  obtain ⟨hsum, -⟩ := h s (hfull.of_replay overwritingRun hrun)
  have hmem : 0 ∈ (s.accepted : Multiset Nat) + s.pushing := by
    simp [hacc]
  rw [hsum, hret, Multiset.mem_add, held, Buckets.mem_total] at hmem
  rcases hmem with hmem | ⟨k, hk⟩
  · simp at hmem
  · exact hslots k (Option.mem_toList.mp hk)

end GalayKernel.Proofs
