import GalayKernel.StealDomain
import GalayKernel.Proofs.RingMoves

/-!
# Where the tasks of a steal domain are

The places at which a thread can find a task: the queues and the slots of the rings, the local
variables of the threads, and a wake-up that has passed the exchange. While every task is put into a
queue only when it is at no place, it is at one place at most, and a woken task is at a place of its
own scheduler until a thief takes it.
-/

namespace GalayKernel.Proofs

open Transition StealDomain ChaseLevTaskRing

variable {home : ℕ → ℕ} {s s' : StealDomain} {t x i v : ℕ}

inductive Place where
  | inject (i : ℕ)
  | lifo (i : ℕ)
  | hand (i : ℕ)
  | waker (i : ℕ)
  | pushing (i : ℕ)
  | slot (i : ℕ) (k : Fin kCapacity)

namespace Place

def scheduler : Place → ℕ
  | inject i | lifo i | hand i | waker i | pushing i | slot i _ => i

def isWaker : Place → Bool
  | waker _ => true
  | _ => false

end Place

def handTasks : ThreadPoint → List ℕ
  | .enqueueDeferred task | .loadSize task _ | .clearQueued task | .clearOwnerOnly task
  | .resumeHandle task => [task]
  | .push tasks | .pushing tasks => tasks
  | _ => []

def wakerTask : ThreadPoint → Option ℕ
  | .storeOwnerOnly task | .schedule task => some task
  | _ => none

def pushedTask : OwnerPc → Option ℕ
  | .pushLoadTail task | .pushLoadHead task _ | .pushStoreSlot task _ => some task
  | _ => none

def At (s : StealDomain) (t : ℕ) : Place → Prop
  | .inject i => t ∈ s.injectQueues i
  | .lifo i => s.lifoSlots i = some t
  | .hand i => t ∈ handTasks (s.points i)
  | .waker i => wakerTask (s.points i) = some t
  | .pushing i => pushedTask (s.rings i).owner = some t
  | .slot i k => (s.rings i).slots k = some t

lemma at_goTo {point : ThreadPoint} {p : Place} (h : At (s.goTo i point) t p) :
    p = .hand i ∧ t ∈ handTasks point ∨ p = .waker i ∧ wakerTask point = some t ∨
      p ≠ .hand i ∧ p ≠ .waker i ∧ At s t p := by
  cases p with
  | hand j =>
    obtain rfl | hj := eq_or_ne j i
    · exact .inl ⟨rfl, by simpa [At, goTo] using h⟩
    · exact .inr (.inr ⟨by simpa using hj, by simp, by simpa [At, goTo, hj] using h⟩)
  | waker j =>
    obtain rfl | hj := eq_or_ne j i
    · exact .inr (.inl ⟨rfl, by simpa [At, goTo] using h⟩)
    · exact .inr (.inr ⟨by simp, by simpa using hj, by simpa [At, goTo, hj] using h⟩)
  | _ => exact .inr (.inr ⟨by simp, by simp, h⟩)

lemma at_setRing {ring : ChaseLevTaskRing} {p : Place} (h : At (s.setRing v ring) t p) :
    p = .pushing v ∧ pushedTask ring.owner = some t ∨ (∃ k, p = .slot v k ∧ ring.slots k = some t) ∨
      p ≠ .pushing v ∧ (∀ k, p ≠ .slot v k) ∧ At s t p := by
  cases p with
  | pushing j =>
    obtain rfl | hj := eq_or_ne j v
    · exact .inl ⟨rfl, by simpa [At, setRing] using h⟩
    · exact .inr (.inr ⟨by simpa using hj, by simp, by simpa [At, setRing, hj] using h⟩)
  | slot j k =>
    obtain rfl | hj := eq_or_ne j v
    · exact .inr (.inl ⟨k, rfl, by simpa [At, setRing] using h⟩)
    · exact .inr (.inr ⟨by simp, by simp [hj], by simpa [At, setRing, hj] using h⟩)
  | _ => exact .inr (.inr ⟨by simp, by simp, h⟩)

lemma at_setInject {tasks : List ℕ} {p : Place} (h : At (s.setInject i tasks) t p) :
    p = .inject i ∧ t ∈ tasks ∨ p ≠ .inject i ∧ At s t p := by
  cases p with
  | inject j =>
    obtain rfl | hj := eq_or_ne j i
    · exact .inl ⟨rfl, by simpa [At, setInject] using h⟩
    · exact .inr ⟨by simpa using hj, by simpa [At, setInject, hj] using h⟩
  | _ => exact .inr ⟨by simp, h⟩

lemma at_setLifo {task : Option ℕ} {p : Place} (h : At (s.setLifo i task) t p) :
    p = .lifo i ∧ task = some t ∨ p ≠ .lifo i ∧ At s t p := by
  cases p with
  | lifo j =>
    obtain rfl | hj := eq_or_ne j i
    · exact .inl ⟨rfl, by simpa [At, setLifo] using h⟩
    · exact .inr ⟨by simpa using hj, by simpa [At, setLifo, hj] using h⟩
  | _ => exact .inr ⟨by simp, h⟩

/-- A task is in one place at a time, and one that was woken is with its scheduler. -/
structure EntriesOk (home : ℕ → ℕ) (s : StealDomain) : Prop where
  unique : ∀ ⦃t p q⦄, At s t p → At s t q → p = q
  homed : ∀ ⦃t p⦄, s.woken t = true → At s t p → p.isWaker = false → p.scheduler = home t
  inject : ∀ i, (s.injectQueues i).Nodup
  hand : ∀ i, (handTasks (s.points i)).Nodup

/-- The lists of tasks that one step of thread `i` leaves behind. -/
lemma nodup_goTo {point : ThreadPoint} (h : ∀ j, (handTasks (s.points j)).Nodup)
    (hpoint : (handTasks point).Nodup) (j : ℕ) :
    (handTasks ((s.goTo i point).points j)).Nodup := by
  obtain rfl | hj := eq_or_ne j i
  · simpa [goTo] using hpoint
  · simpa [goTo, hj] using h j

lemma nodup_setInject {tasks : List ℕ} (h : ∀ j, (s.injectQueues j).Nodup) (htasks : tasks.Nodup)
    (j : ℕ) : ((s.setInject i tasks).injectQueues j).Nodup := by
  obtain rfl | hj := eq_or_ne j i
  · simpa [setInject] using htasks
  · simpa [setInject, hj] using h j

/-- Each task stays where it was, or has one place that is known. -/
lemma EntriesOk.of (h : EntriesOk home s)
    (hplaces : ∀ t, (∃ q, (∀ p, At s' t p → p = q) ∧
        (s'.woken t = true → q.isWaker = false → q.scheduler = home t)) ∨
      (∀ p, At s' t p → At s t p) ∧ (s'.woken t = true → s.woken t = true))
    (hinject : ∀ i, (s'.injectQueues i).Nodup) (hhand : ∀ i, (handTasks (s'.points i)).Nodup) :
    EntriesOk home s' := by
  refine ⟨?_, ?_, hinject, hhand⟩
  · intro t p q hp hq
    obtain ⟨r, hr, -⟩ | ⟨hsub, -⟩ := hplaces t
    · rw [hr p hp, hr q hq]
    · exact h.unique (hsub p hp) (hsub q hq)
  · intro t p hwoken hp hwaker
    obtain ⟨r, hr, hhome⟩ | ⟨hsub, hmono⟩ := hplaces t
    · obtain rfl := hr p hp
      exact hhome hwoken hwaker
    · exact h.homed (hmono hwoken) (hsub p hp) hwaker

lemma EntriesOk.shrink (h : EntriesOk home s) (hsub : ∀ t p, At s' t p → At s t p)
    (hwoken : ∀ t, s'.woken t = true → s.woken t = true)
    (hinject : ∀ i, (s'.injectQueues i).Nodup) (hhand : ∀ i, (handTasks (s'.points i)).Nodup) :
    EntriesOk home s' :=
  h.of (fun t => .inr ⟨hsub t, hwoken t⟩) hinject hhand

lemma EntriesOk.move {o q : Place} (h : EntriesOk home s) (hat : At s x o)
    (hplace : ∀ t p, At s' t p → t = x ∧ p = q ∨ (t = x → p ≠ o) ∧ At s t p)
    (hwoken : ∀ t, s'.woken t = true → s.woken t = true)
    (hhome : s.woken x = true → o.isWaker = false ∧ q.scheduler = o.scheduler)
    (hinject : ∀ i, (s'.injectQueues i).Nodup) (hhand : ∀ i, (handTasks (s'.points i)).Nodup) :
    EntriesOk home s' := by
  refine h.of (fun t => ?_) hinject hhand
  obtain rfl | hne := eq_or_ne t x
  · refine .inl ⟨q, ?_, ?_⟩
    · intro p hp
      obtain ⟨-, heq⟩ | ⟨hgone, hold⟩ := hplace t p hp
      · exact heq
      · exact absurd (h.unique hold hat) (hgone rfl)
    · intro hw _
      obtain ⟨hwaker, hsame⟩ := hhome (hwoken t hw)
      exact hsame.trans (h.homed (hwoken t hw) hat hwaker)
  · refine .inr ⟨fun p hp => ?_, hwoken t⟩
    obtain ⟨heq, -⟩ | ⟨-, hold⟩ := hplace t p hp
    · exact absurd heq hne
    · exact hold

lemma EntriesOk.insert {q : Place} (h : EntriesOk home s) (hfree : ∀ p, ¬At s x p)
    (hsub : ∀ t p, At s' t p → At s t p ∨ t = x ∧ p = q)
    (hwoken : ∀ t, t ≠ x → s'.woken t = true → s.woken t = true)
    (hhome : q.isWaker = false → q.scheduler = home x)
    (hinject : ∀ i, (s'.injectQueues i).Nodup) (hhand : ∀ i, (handTasks (s'.points i)).Nodup) :
    EntriesOk home s' := by
  refine h.of (fun t => ?_) hinject hhand
  obtain rfl | hne := eq_or_ne t x
  · refine .inl ⟨q, fun p hp => ?_, fun _ => hhome⟩
    obtain hold | ⟨-, heq⟩ := hsub t p hp
    · exact absurd hold (hfree p)
    · exact heq
  · refine .inr ⟨fun p hp => ?_, hwoken t hne⟩
    obtain hold | ⟨heq, -⟩ := hsub t p hp
    · exact hold
    · exact absurd heq hne

lemma not_at_init (p : Place) : ¬At StealDomain.init t p := by
  cases p <;> simp [At, StealDomain.init, handTasks, wakerTask, ChaseLevTaskRing.init, pushedTask]

lemma entriesOk_init : EntriesOk home StealDomain.init where
  unique := fun _ p _ hp => absurd hp (not_at_init p)
  homed := nofun
  inject := fun _ => .nil
  hand := fun _ => .nil

lemma EntriesOk.goTo (h : EntriesOk home s) (point : ThreadPoint)
    (hhand : ∀ t ∈ handTasks point, t ∈ handTasks (s.points i))
    (hwaker : ∀ t, wakerTask point = some t → wakerTask (s.points i) = some t)
    (hnodup : (handTasks point).Nodup) : EntriesOk home (s.goTo i point) := by
  refine h.shrink ?_ (fun _ => id) h.inject (nodup_goTo h.hand hnodup)
  intro t p hp
  obtain ⟨rfl, ht⟩ | ⟨rfl, ht⟩ | ⟨-, -, hp⟩ := at_goTo hp
  · exact hhand t ht
  · exact hwaker t ht
  · exact hp

lemma EntriesOk.idle (h : EntriesOk home s) : EntriesOk home (s.goTo i .idle) :=
  h.goTo .idle nofun nofun .nil

lemma EntriesOk.injectHome (h : EntriesOk home s) (hfree : ∀ p, ¬At s x p) {w : ℕ → Bool}
    (hw : ∀ t, t ≠ x → w t = true → s.woken t = true) :
    EntriesOk home { s.inject (home x) x with woken := w } := by
  have hnodup : (s.injectQueues (home x) ++ [x]).Nodup := by
    rw [List.nodup_append_comm, List.singleton_append, List.nodup_cons]
    exact ⟨hfree (.inject (home x)), h.inject (home x)⟩
  refine h.insert (q := .inject (home x)) hfree ?_ hw (fun _ => rfl)
    (nodup_setInject h.inject hnodup) h.hand
  intro t p hp
  obtain ⟨rfl, ht⟩ | ⟨-, hp⟩ := at_setInject (s := s) hp
  · obtain ht | ht := List.mem_append.mp ht
    · exact .inl ht
    · exact .inr ⟨List.mem_singleton.mp ht, rfl⟩
  · exact .inl hp

lemma EntriesOk.scheduleLocal (h : EntriesOk home s) (hfree : ∀ p, ¬At s x p)
    (hhome : home x = i) {w : ℕ → Bool} (hw : ∀ t, t ≠ x → w t = true → s.woken t = true)
    (lifoEnabled : Bool) : EntriesOk home { s.scheduleLocal i x lifoEnabled with woken := w } := by
  unfold StealDomain.scheduleLocal
  cases lifoEnabled with
  | false =>
    refine h.insert (q := .hand i) hfree ?_ hw (fun _ => hhome.symm) h.inject
      (nodup_goTo h.hand (List.nodup_singleton x))
    intro t p hp
    obtain ⟨rfl, ht⟩ | ⟨-, ht⟩ | ⟨-, -, hp⟩ := at_goTo (s := s) hp
    · exact .inr ⟨List.mem_singleton.mp ht, rfl⟩
    · cases ht
    · exact .inl hp
  | true =>
    cases hlifo : s.lifoSlots i with
    | none =>
      refine h.insert (q := .lifo i) hfree ?_ hw (fun _ => hhome.symm) h.inject
        (nodup_goTo h.hand .nil)
      intro t p hp
      obtain ⟨-, ht⟩ | ⟨-, ht⟩ | ⟨-, -, hp⟩ := at_goTo (s := s.setLifo i (some x)) hp
      · cases ht
      · cases ht
      · obtain ⟨rfl, ht⟩ | ⟨-, hp⟩ := at_setLifo hp
        · exact .inr ⟨(Option.some.inj ht).symm, rfl⟩
        · exact .inl hp
    | some older =>
      have holder : At s older (.lifo i) := hlifo
      have hne : older ≠ x := by
        rintro rfl
        exact hfree _ holder
      -- `x` takes the slot of `older`, which the thread then holds
      have hplace : ∀ t p, At { (s.setLifo i (some x)).goTo i (.enqueueDeferred older) with
          woken := w } t p → p = .hand i ∧ t = older ∨ p = .lifo i ∧ t = x ∨
            p ≠ .lifo i ∧ At s t p := by
        intro t p hp
        obtain ⟨rfl, ht⟩ | ⟨-, ht⟩ | ⟨-, -, hp⟩ := at_goTo (s := s.setLifo i (some x)) hp
        · exact .inl ⟨rfl, List.mem_singleton.mp ht⟩
        · cases ht
        · obtain ⟨rfl, ht⟩ | hp := at_setLifo hp
          · exact .inr (.inl ⟨rfl, (Option.some.inj ht).symm⟩)
          · exact .inr (.inr hp)
      refine h.of (fun t => ?_) h.inject (nodup_goTo h.hand (List.nodup_singleton older))
      obtain rfl | htx := eq_or_ne t x
      · refine .inl ⟨.lifo i, fun p hp => ?_, fun _ _ => hhome.symm⟩
        obtain ⟨-, ht⟩ | ⟨rfl, -⟩ | ⟨-, hp⟩ := hplace t p hp
        · exact absurd ht.symm hne
        · rfl
        · exact absurd hp (hfree p)
      · obtain rfl | hto := eq_or_ne t older
        · refine .inl ⟨.hand i, fun p hp => ?_, fun hwoken _ => ?_⟩
          · obtain ⟨rfl, -⟩ | ⟨-, ht⟩ | ⟨hp', hp⟩ := hplace t p hp
            · rfl
            · exact absurd ht htx
            · exact absurd (h.unique hp holder) hp'
          · exact h.homed (p := .lifo i) (hw t htx hwoken) holder rfl
        · refine .inr ⟨fun p hp => ?_, hw t htx⟩
          obtain ⟨-, ht⟩ | ⟨-, ht⟩ | ⟨-, hp⟩ := hplace t p hp
          · exact absurd ht hto
          · exact absurd ht htx
          · exact hp

lemma EntriesOk.schedule (h : EntriesOk home s) (hfree : ∀ p, ¬At s x p) {w : ℕ → Bool}
    (hw : ∀ t, t ≠ x → w t = true → s.woken t = true) (lifoEnabled : Bool) :
    EntriesOk home { s.schedule home i x lifoEnabled with woken := w } := by
  unfold StealDomain.schedule
  split
  · exact h.scheduleLocal hfree ‹_› hw lifoEnabled
  · exact (h.injectHome hfree hw).idle

lemma EntriesOk.takeLifo (h : EntriesOk home s) (hlifo : s.lifoSlots i = some x)
    {point : ThreadPoint} (hhand : handTasks point = [x]) (hwaker : wakerTask point = none) :
    EntriesOk home ((s.setLifo i none).goTo i point) := by
  refine h.move (o := .lifo i) (q := .hand i) hlifo ?_ (fun _ => id) (fun _ => ⟨rfl, rfl⟩)
    h.inject (nodup_goTo h.hand (hhand ▸ List.nodup_singleton x))
  intro t p hp
  obtain ⟨rfl, ht⟩ | ⟨-, ht⟩ | ⟨-, -, hp⟩ := at_goTo hp
  · rw [hhand] at ht
    exact .inl ⟨List.mem_singleton.mp ht, rfl⟩
  · rw [hwaker] at ht
    cases ht
  · obtain ⟨-, ht⟩ | ⟨hne, hp⟩ := at_setLifo hp
    · cases ht
    · exact .inr ⟨fun _ => hne, hp⟩

lemma EntriesOk.fallback (h : EntriesOk home s) {head : ℕ}
    (hpoint : s.points i = .loadSize x head) :
    EntriesOk home ((s.inject i x).goTo i .idle) := by
  have hat : At s x (.hand i) := by simp [At, hpoint, handTasks]
  have hnodup : (s.injectQueues i ++ [x]).Nodup := by
    rw [List.nodup_append_comm, List.singleton_append, List.nodup_cons]
    refine ⟨fun hmem => ?_, h.inject i⟩
    cases h.unique (p := .inject i) hmem hat
  refine h.move (o := .hand i) (q := .inject i) hat ?_ (fun _ => id) (fun _ => ⟨rfl, rfl⟩)
    (nodup_setInject h.inject hnodup) (nodup_goTo h.hand .nil)
  intro t p hp
  obtain ⟨-, ht⟩ | ⟨-, ht⟩ | ⟨hne, -, hp⟩ := at_goTo hp
  · cases ht
  · cases ht
  · obtain ⟨rfl, ht⟩ | ⟨-, hp⟩ := at_setInject hp
    · obtain ht | ht := List.mem_append.mp ht
      · exact .inr ⟨fun _ => hne, ht⟩
      · exact .inl ⟨List.mem_singleton.mp ht, rfl⟩
    · exact .inr ⟨fun _ => hne, hp⟩

lemma EntriesOk.drain (h : EntriesOk home s) {batch rest : List ℕ}
    (hperm : (s.injectQueues i).Perm (batch ++ rest)) :
    EntriesOk home ((s.setInject i rest).goTo i (.push batch.reverse)) := by
  have hnodup := hperm.nodup_iff.mp (h.inject i)
  have hdisjoint := (List.nodup_append.mp hnodup).2.2
  refine h.of (fun t => ?_) (nodup_setInject h.inject (List.nodup_append.mp hnodup).2.1)
    (nodup_goTo h.hand (List.nodup_reverse.mpr (List.nodup_append.mp hnodup).1))
  have hplace : ∀ p, At ((s.setInject i rest).goTo i (.push batch.reverse)) t p →
      p = .hand i ∧ t ∈ batch ∨ p = .inject i ∧ t ∈ rest ∨ p ≠ .inject i ∧ At s t p := by
    intro p hp
    obtain ⟨rfl, ht⟩ | ⟨-, ht⟩ | ⟨-, -, hp⟩ := at_goTo hp
    · exact .inl ⟨rfl, List.mem_reverse.mp ht⟩
    · cases ht
    · exact .inr (at_setInject hp)
  by_cases hbatch : t ∈ batch
  · have hat : At s t (.inject i) := hperm.mem_iff.mpr (List.mem_append_left _ hbatch)
    refine .inl ⟨.hand i, fun p hp => ?_, fun hwoken _ => h.homed (p := .inject i) hwoken hat rfl⟩
    obtain ⟨rfl, -⟩ | ⟨-, hrest⟩ | ⟨hne, hp⟩ := hplace p hp
    · rfl
    · exact absurd rfl (hdisjoint t hbatch t hrest)
    · exact absurd (h.unique hp hat) hne
  · refine .inr ⟨fun p hp => ?_, id⟩
    obtain ⟨-, ht⟩ | ⟨rfl, hrest⟩ | ⟨-, hp⟩ := hplace p hp
    · exact absurd ht hbatch
    · exact hperm.mem_iff.mpr (List.mem_append_right _ hrest)
    · exact hp

variable {ring ring' : ChaseLevTaskRing}

lemma EntriesOk.setRing (h : EntriesOk home s)
    (hslots : ∀ k t, ring'.slots k = some t → (s.rings v).slots k = some t)
    (hpushed : ∀ t, pushedTask ring'.owner = some t → pushedTask (s.rings v).owner = some t) :
    EntriesOk home (s.setRing v ring') := by
  refine h.shrink ?_ (fun _ => id) h.inject h.hand
  intro t p hp
  obtain ⟨rfl, ht⟩ | ⟨k, rfl, ht⟩ | ⟨-, -, hp⟩ := at_setRing hp
  · exact hpushed t ht
  · exact hslots k t ht
  · exact hp

lemma slots_takeSlot {index : ℕ} {k : Fin kCapacity} (h : (ring.takeSlot index).slots k = some t) :
    k ≠ slotOf index ∧ ring.slots k = some t := by
  simp only [takeSlot, Function.update_apply] at h
  split at h
  · cases h
  · exact ⟨‹_›, h⟩

lemma EntriesOk.storeSlot (h : EntriesOk home s) {tail : ℕ}
    (hpc : (s.rings i).owner = .pushStoreSlot x tail) :
    EntriesOk home (s.setRing i { s.rings i with
      slots := Function.update (s.rings i).slots (slotOf tail) (some x)
      owner := .pushStoreTail x tail }) := by
  have hat : At s x (.pushing i) := by simp [At, hpc, pushedTask]
  refine h.move (o := .pushing i) (q := .slot i (slotOf tail)) hat ?_ (fun _ => id)
    (fun _ => ⟨rfl, rfl⟩) h.inject h.hand
  intro t p hp
  obtain ⟨-, ht⟩ | ⟨k, rfl, ht⟩ | ⟨hne, -, hp⟩ := at_setRing hp
  · cases ht
  · simp only [Function.update_apply] at ht
    split at ht
    · subst ‹k = _›
      exact .inl ⟨(Option.some.inj ht).symm, rfl⟩
    · exact .inr ⟨fun _ => by simp, ht⟩
  · exact .inr ⟨fun _ => hne, hp⟩

lemma EntriesOk.runOwner (h : EntriesOk home s) (hm : RingMove (s.rings i) .runOwner ring') :
    EntriesOk home (s.setRing i ring') := by
  cases hm with
  | pushStoreSlot hpc => exact h.storeSlot hpc
  | popTake hpc | popTakeLast hpc =>
    exact h.setRing (fun _ _ ht => (slots_takeSlot ht).2) (by simp [pushedTask])
  | pushLoadTail hpc | pushLoadHead hpc hroom =>
    refine h.setRing (fun _ _ => id) ?_
    simp [pushedTask, hpc]
  | _ => exact h.setRing (fun _ _ => id) (by simp [pushedTask])

lemma EntriesOk.takeSlot (h : EntriesOk home s) {index : ℕ}
    (hslot : (s.rings v).slots (slotOf index) = some x)
    (hslots : ring'.slots = ((s.rings v).takeSlot index).slots)
    (hpushed : ∀ t, pushedTask ring'.owner = some t → pushedTask (s.rings v).owner = some t)
    {point : ThreadPoint} (hhand : handTasks point = [x]) (hwaker : wakerTask point = none)
    (hhome : s.woken x = true → i = v) : EntriesOk home ((s.setRing v ring').goTo i point) := by
  have hat : At s x (.slot v (slotOf index)) := hslot
  refine h.move (o := .slot v (slotOf index)) (q := .hand i) hat ?_ (fun _ => id)
    (fun hwoken => ⟨rfl, hhome hwoken⟩) h.inject
    (nodup_goTo h.hand (hhand ▸ List.nodup_singleton x))
  intro t p hp
  obtain ⟨rfl, ht⟩ | ⟨-, ht⟩ | ⟨-, -, hp⟩ := at_goTo hp
  · rw [hhand] at ht
    exact .inl ⟨List.mem_singleton.mp ht, rfl⟩
  · rw [hwaker] at ht
    cases ht
  · obtain ⟨rfl, ht⟩ | ⟨k, rfl, ht⟩ | ⟨-, hne, hp⟩ := at_setRing hp
    · exact .inr ⟨fun _ => by simp, hpushed t ht⟩
    · rw [hslots] at ht
      obtain ⟨hk, ht⟩ := slots_takeSlot ht
      exact .inr ⟨fun _ => by simpa using hk, ht⟩
    · exact .inr ⟨fun _ => hne _, hp⟩

lemma EntriesOk.pushBack (h : EntriesOk home s) {tasks : List ℕ}
    (hpoint : s.points i = .push (x :: tasks)) :
    EntriesOk home ((s.setRing i { s.rings i with owner := .pushLoadTail x }).goTo i
      (.pushing tasks)) := by
  have hnodup : (x :: tasks).Nodup := by simpa [hpoint, handTasks] using h.hand i
  have hat : At s x (.hand i) := by simp [At, hpoint, handTasks]
  refine h.move (o := .hand i) (q := .pushing i) hat ?_ (fun _ => id) (fun _ => ⟨rfl, rfl⟩)
    h.inject (nodup_goTo h.hand (List.nodup_cons.mp hnodup).2)
  intro t p hp
  obtain ⟨rfl, ht⟩ | ⟨-, ht⟩ | ⟨hne, -, hp⟩ := at_goTo hp
  · refine .inr ⟨fun htx => absurd ht (htx ▸ (List.nodup_cons.mp hnodup).1), ?_⟩
    simpa [At, hpoint, handTasks] using .inr ht
  · cases ht
  · obtain ⟨rfl, ht⟩ | ⟨k, rfl, ht⟩ | ⟨-, -, hp⟩ := at_setRing hp
    · exact .inl ⟨(Option.some.inj ht).symm, rfl⟩
    · exact .inr ⟨fun _ => hne, ht⟩
    · exact .inr ⟨fun _ => hne, hp⟩

end GalayKernel.Proofs
