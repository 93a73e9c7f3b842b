import GalayKernel.Lib.References
import GalayKernel.Lib.Transition
import GalayKernel.TaskRefs
import Mathlib.Data.Fintype.Sigma
import Mathlib.Data.Fintype.Sum
import Mathlib.Tactic.DeriveFintype

/-!
# Lifetime of task states

In every state of every interleaving `m_refs` is the number of references to a task state. So no
path of references leads to a state that has been deleted, a coroutine that may be resumed has its
frame, and, as long as tasks do not hold each other in a circle, what is left is exactly what can
still be reached.
-/

namespace GalayKernel.Proofs

open References Transition

instance : Fintype TaskLink := ⟨{.thenTask, .nextTask}, fun l => by cases l <;> simp⟩

deriving instance Fintype for RefPlace

namespace TaskHeap

variable {ι α : Type} {s : TaskHeap ι α} {p q : RefPlace ι α} {a b : α}
  {l : TaskLink}

/-- The task state that a place is a member of -/
def owner : RefPlace ι α → Option α
  | .link a _ => some a
  | _ => none

structure FramesOk (s : TaskHeap ι α) : Prop where
  /-- a coroutine has a reference to its own task as long as its frame exists -/
  promised : ∀ a, s.ref (.promise a) = if s.frame a = .absent then none else some a
  /-- a frame is destroyed after the task is done -/
  finished : ∀ a, s.life a = .live → s.frame a = .absent → s.done a = true

section Updates

variable [DecidableEq α] [DecidableEq ι]

lemma setRef_eq_self {x : Option α} (h : s.ref p = x) : s.setRef p x = s := by
  unfold TaskHeap.setRef
  rw [Function.update_eq_self_iff.mpr h.symm]

lemma release_of_none (h : s.ref p = none) : s.release p = s := by
  unfold TaskHeap.release
  rw [h]

lemma release_of_some (h : s.ref p = some a) : s.release p =
    { s.setRef p none with
      refs := Function.update s.refs a ((s.refs a + (refLimit - 1)) % refLimit)
      life := if s.refs a = 1 then Function.update s.life a .deleting else s.life } := by
  unfold TaskHeap.release
  rw [h]

lemma release_ref (s : TaskHeap ι α) (p : RefPlace ι α) :
    (s.release p).ref = Function.update s.ref p none := by
  cases h : s.ref p with
  | none =>
    rw [release_of_none h]
    exact (Function.update_eq_self_iff.mpr h.symm).symm
  | some a => rw [release_of_some h]; rfl

@[simp] lemma release_frame (s : TaskHeap ι α) (p : RefPlace ι α) :
    (s.release p).frame = s.frame := by
  unfold TaskHeap.release
  split <;> rfl

@[simp] lemma release_done (s : TaskHeap ι α) (p : RefPlace ι α) : (s.release p).done = s.done := by
  unfold TaskHeap.release
  split <;> rfl

/-- A release begins the deletion of the state whose last reference it was, and of no other. -/
lemma release_life (s : TaskHeap ι α) (p : RefPlace ι α) (b : α) :
    (s.release p).life b = s.life b ∨
      (s.ref p = some b ∧ s.refs b = 1 ∧ (s.release p).life b = .deleting) := by
  cases hp : s.ref p with
  | none => exact .inl (by rw [release_of_none hp])
  | some a =>
    rw [release_of_some hp]
    by_cases hrefs : s.refs a = 1
    · simp only [if_pos hrefs]
      by_cases hb : b = a
      · subst hb
        exact .inr ⟨rfl, hrefs, Function.update_self b _ _⟩
      · exact .inl (Function.update_of_ne hb _ _)
    · simp only [if_neg hrefs]
      exact .inl trivial

lemma live_of_release {p : RefPlace ι α} (h : (s.release p).life b = .live) : s.life b = .live := by
  obtain hlife | ⟨-, -, hdel⟩ := release_life s p b
  · rwa [← hlife]
  · rw [hdel] at h
    cases h

lemma update_promise (hq : TaskHeap.writable q) (f : RefPlace ι α → Option α) (x : Option α)
    (a : α) : Function.update f q x (.promise a) = f (.promise a) := by
  refine Function.update_of_ne ?_ _ _
  rintro rfl
  simp [TaskHeap.writable] at hq

lemma FramesOk.copy (h : FramesOk s) (hq : TaskHeap.writable q) (x : Option α) :
    FramesOk ((s.setRef q x).retain x) := by
  cases x <;> exact ⟨fun a => (update_promise hq _ _ a).trans (h.promised a), h.finished⟩

lemma FramesOk.release (h : FramesOk s) (hp : TaskHeap.writable p) : FramesOk (s.release p) where
  promised a := by rw [release_ref, update_promise hp, release_frame, h.promised]
  finished a ha hframe := by
    rw [release_frame] at hframe
    rw [release_done]
    exact h.finished a (live_of_release ha) hframe

end Updates

section Counts

variable [DecidableEq α] [Fintype ι] [Fintype α]

structure RefsOk (s : TaskHeap ι α) : Prop where
  counted : ∀ a, s.life a = .live → s.refs a = (holders s.ref a).card ∧ 0 < s.refs a
  live : ∀ p a, s.ref p = some a → s.life a = .live
  unlinked : ∀ a l, s.life a = .free → s.ref (.link a l) = none

structure HeapOk (s : TaskHeap ι α) : Prop extends RefsOk s, FramesOk s

lemma RefsOk.refs_le (h : RefsOk s) (ha : s.life a = .live) :
    s.refs a ≤ Fintype.card (RefPlace ι α) :=
  (h.counted a ha).1 ▸ Finset.card_le_univ _

lemma RefsOk.owner_live (h : RefsOk s) {path : RefPath ι α} (hpath : s.resolve path = some p) :
    ∀ a, owner p = some a → s.life a = .live := by
  intro a howner
  cases path with
  | outside i =>
    cases hpath
    cases howner
  | promise b =>
    obtain ⟨-, ⟨⟩⟩ := Option.ite_none_right_eq_some.mp hpath
    cases howner
  | link path l =>
    simp only [TaskHeap.resolve, Option.map_eq_some_iff, Option.bind_eq_some_iff] at hpath
    obtain ⟨b, ⟨q, -, hq⟩, rfl⟩ := hpath
    obtain rfl : b = a := by simpa [owner] using howner
    exact h.live q b hq

lemma HeapOk.live_of_frame (h : HeapOk s) (ha : s.frame a ≠ .absent) : s.life a = .live :=
  h.live (.promise a) a (by rw [h.promised, if_neg ha])

lemma HeapOk.ref_ne_of_free (h : HeapOk s) (ha : s.life a = .free) (p : RefPlace ι α) :
    s.ref p ≠ some a := by
  intro hp
  simp [h.live p a hp] at ha

lemma RefsOk.visited_live (h : RefsOk s) (path : RefPath ι α) :
    ∀ a ∈ s.visited path, s.life a = .live := by
  induction path with
  | outside i => simp [TaskHeap.visited]
  | promise a => simp [TaskHeap.visited]
  | link path l ih =>
    intro a ha
    simp only [TaskHeap.visited, List.mem_append, Option.mem_toList, TaskHeap.state,
      Option.bind_eq_some_iff] at ha
    obtain ha | ⟨p, -, hp⟩ := ha
    · exact ih a ha
    · exact h.live p a hp

lemma HeapOk.setDone (h : HeapOk s) (a : α) : HeapOk (s.setDone a) where
  counted := h.counted
  live := h.live
  unlinked := h.unlinked
  promised := h.promised
  finished b hb hframe := by
    by_cases hba : b = a
    · subst hba
      exact Function.update_self b _ _
    · exact (Function.update_of_ne hba _ _).trans (h.finished b hb hframe)

lemma HeapOk.setFrame (h : HeapOk s) {frame : FrameState} (hold : s.frame a ≠ .absent)
    (hnew : frame ≠ .absent) : HeapOk (s.setFrame a frame) where
  counted := h.counted
  live := h.live
  unlinked := h.unlinked
  promised b := by
    by_cases hba : b = a <;> simp [TaskHeap.setFrame, h.promised, hba, hold, hnew]
  finished b hb hframe := by
    have hba : b ≠ a := by
      rintro rfl
      simp [TaskHeap.setFrame, hnew] at hframe
    have hsame : s.frame b = .absent := by simpa [TaskHeap.setFrame, hba] using hframe
    exact h.finished b hb hsame

lemma HeapOk.free (h : HeapOk s) (ha : s.life a = .deleting)
    (hnext : s.ref (.link a .nextTask) = none) (hthen : s.ref (.link a .thenTask) = none) :
    HeapOk { s with life := Function.update s.life a .free } := by
  have hlive : ∀ b, Function.update s.life a .free b = .live ↔ s.life b = .live := by
    intro b
    by_cases hba : b = a
    · subst hba
      simp [ha]
    · rw [Function.update_of_ne hba]
  refine { counted := fun b hb => h.counted b ((hlive b).mp hb)
           live := fun r b hr => (hlive b).mpr (h.live r b hr)
           unlinked := fun b l hb => ?_
           promised := h.promised
           finished := fun b hb => h.finished b ((hlive b).mp hb) }
  by_cases hba : b = a
  · subst hba
    cases l with
    | thenTask => exact hthen
    | nextTask => exact hnext
  · exact h.unlinked b l ((Function.update_of_ne hba _ _).symm.trans hb)

lemma HeapOk.empty : HeapOk (TaskHeap.empty : TaskHeap ι α) where
  counted a ha := by cases ha
  live p a hp := by cases hp
  unlinked _ _ _ := rfl
  promised _ := rfl
  finished a ha := by cases ha

variable [DecidableEq ι]

lemma getReturnObject_ref (h : HeapOk s) (ha : s.life a = .free) (i : ι) :
    (s.getReturnObject a i).ref =
      Function.update (Function.update s.ref (.outside i) (some a)) (.promise a) (some a) := by
  funext p
  cases p with
  | outside j => simp [TaskHeap.getReturnObject, Function.update_apply]
  | promise b => simp [TaskHeap.getReturnObject, Function.update_apply]
  | link b l =>
    by_cases hb : b = a
    · subst hb
      simp [TaskHeap.getReturnObject, h.unlinked b l ha]
    · simp [TaskHeap.getReturnObject, hb]

lemma HeapOk.getReturnObject (h : HeapOk s) {i : ι} (ha : s.life a = .free)
    (hi : s.ref (.outside i) = none) : HeapOk (s.getReturnObject a i) := by
  have habsent : s.frame a = .absent := by
    by_contra hframe
    simp [h.live_of_frame hframe] at ha
  have hpromise : s.ref (.promise a) = none := by rw [h.promised, if_pos habsent]
  have href := getReturnObject_ref h ha i
  have hlife : ∀ b, b ≠ a → (s.getReturnObject a i).life b = s.life b :=
    fun b hb => Function.update_of_ne hb _ _
  have hself : (s.getReturnObject a i).life a = .live := Function.update_self a _ _
  refine { counted := fun b hb => ?_, live := fun r b hr => ?_, unlinked := fun b l hb => ?_,
           promised := fun b => ?_, finished := fun b hb hframe => ?_ }
  · rw [href]
    by_cases hba : b = a
    · subst hba
      have hnone : (holders s.ref b).card = 0 := by
        rw [Finset.card_eq_zero, Finset.eq_empty_iff_forall_notMem]
        exact fun p hp => h.ref_ne_of_free ha p (mem_holders.mp hp)
      rw [card_holders_set (by simp [hpromise]), card_holders_set (by simp [hi]), hnone]
      simp [TaskHeap.getReturnObject]
    · rw [holders_update_of_ne (by simp [hpromise]) (by simpa using Ne.symm hba),
        holders_update_of_ne (by simp [hi]) (by simpa using Ne.symm hba)]
      simpa [TaskHeap.getReturnObject, hba] using h.counted b (hlife b hba ▸ hb)
  · rw [href] at hr
    have hlive : ∀ p c, s.ref p = some c → (s.getReturnObject a i).life c = .live := by
      intro p c hp
      rw [hlife c fun hca => h.ref_ne_of_free ha p (hca ▸ hp)]
      exact h.live p c hp
    have hnew : ∀ c, some a = some c → (s.getReturnObject a i).life c = .live := by
      simpa using hself
    exact forall_update (forall_update hlive _ hnew) _ hnew r b hr
  · have hba : b ≠ a := by
      rintro rfl
      simp [hself] at hb
    rw [href, Function.update_of_ne (by simp), Function.update_of_ne (by simp)]
    exact h.unlinked b l (hlife b hba ▸ hb)
  · by_cases hba : b = a <;> simp [TaskHeap.getReturnObject, hba, h.promised]
  · have hba : b ≠ a := by
      rintro rfl
      simp [TaskHeap.getReturnObject] at hframe
    simp only [TaskHeap.getReturnObject, Function.update_of_ne hba] at hb hframe ⊢
    exact h.finished b hb hframe

section Bounded

variable (hcard : Fintype.card (RefPlace ι α) < refLimit)

include hcard

lemma RefsOk.copy (h : RefsOk s)
    (hq : s.ref q = none) (howner : ∀ a, owner q = some a → s.life a = .live)
    (p : RefPlace ι α) : RefsOk ((s.setRef q (s.ref p)).retain (s.ref p)) := by
  cases hp : s.ref p with
  | none =>
    rw [setRef_eq_self hq]
    exact h
  | some a =>
    have hne : ∀ b, s.ref q ≠ some b := fun b => by simp [hq]
    refine ⟨fun b hb => ?_, forall_update h.live q (by simpa using h.live p a hp), fun b l hb => ?_⟩
    · simp only [TaskHeap.retain, TaskHeap.setRef]
      obtain ⟨hcount, hpos⟩ := h.counted b hb
      by_cases hba : b = a
      · subst hba
        have hset := card_holders_set (hne b)
        have hle : (holders (Function.update s.ref q (some b)) b).card ≤ _ := Finset.card_le_univ _
        rw [Function.update_self, hset, Nat.mod_eq_of_lt (by omega)]
        omega
      · rw [Function.update_of_ne hba, holders_update_of_ne (hne b) (by simpa using Ne.symm hba)]
        exact ⟨hcount, hpos⟩
    · simp only [TaskHeap.retain, TaskHeap.setRef] at hb ⊢
      have hlq : RefPlace.link b l ≠ q := by
        rintro rfl
        simp [howner b rfl] at hb
      rw [Function.update_of_ne hlq]
      exact h.unlinked b l hb

/-- A move leaves the counter alone, as a copy followed by the release of its source does. -/
lemma RefsOk.move_eq (h : RefsOk s)
    (hq : s.ref q = none) (p : RefPlace ι α) : (s.setRef q (s.ref p)).setRef p none =
      ((s.setRef q (s.ref p)).retain (s.ref p)).release p := by
  cases hp : s.ref p with
  | none =>
    rw [setRef_eq_self hq, setRef_eq_self hp]
    exact (release_of_none hp).symm
  | some a =>
    have hpq : p ≠ q := by
      rintro rfl
      simp [hq] at hp
    have hmid : ((s.setRef q (some a)).retain (some a)).ref p = some a := by
      simp [TaskHeap.retain, TaskHeap.setRef, hpq, hp]
    obtain ⟨hcount, hpos⟩ := h.counted a (h.live p a hp)
    have hset : (holders (Function.update s.ref q (some a)) a).card = _ :=
      card_holders_set (by simp [hq])
    have hle : (holders (Function.update s.ref q (some a)) a).card ≤ _ := Finset.card_le_univ _
    have hup : (s.refs a + 1) % refLimit = s.refs a + 1 := Nat.mod_eq_of_lt (by omega)
    have hdown : (s.refs a + 1 + (refLimit - 1)) % refLimit = s.refs a := by
      unfold refLimit at *
      omega
    rw [release_of_some hmid]
    simp [TaskHeap.retain, TaskHeap.setRef, hup, hdown, hpos.ne']

lemma RefsOk.release (h : RefsOk s)
    (p : RefPlace ι α) : RefsOk (s.release p) := by
  cases hp : s.ref p with
  | none =>
    rw [release_of_none hp]
    exact h
  | some a =>
    obtain ⟨hcount, hpos⟩ := h.counted a (h.live p a hp)
    have hle := h.refs_le (h.live p a hp)
    have hclear := card_holders_clear hp (Option.some_ne_none a).symm
    have hrefs : (s.release p).refs a = s.refs a - 1 := by
      rw [release_of_some hp]
      simp only [Function.update_self]
      unfold refLimit at *
      omega
    refine ⟨fun b hb => ?_, fun r b hr => ?_, fun b l hb => ?_⟩
    · rw [release_ref]
      by_cases hba : b = a
      · subst hba
        have hmany : s.refs b ≠ 1 := by
          intro hone
          rw [release_of_some hp] at hb
          simp [hone] at hb
        omega
      · have hother : (s.release p).refs b = s.refs b := by
          rw [release_of_some hp]
          exact Function.update_of_ne hba _ _
        rw [hother, holders_update_of_ne (by rw [hp]; simpa using Ne.symm hba) (by simp)]
        exact h.counted b (live_of_release hb)
    · rw [release_ref] at hr
      have hrp : r ≠ p := by
        rintro rfl
        simp at hr
      rw [Function.update_of_ne hrp] at hr
      obtain hlife | ⟨hpb, hone, -⟩ := release_life s p b
      · rw [hlife]
        exact h.live r b hr
      · have honly : (holders s.ref b).card = 1 := by
          rw [← (h.counted b (h.live r b hr)).1, hone]
        exact absurd (eq_of_card_eq_one honly hr hpb) hrp
    · rw [release_ref]
      by_cases hlp : RefPlace.link b l = p
      · rw [hlp, Function.update_self]
      · rw [Function.update_of_ne hlp]
        obtain hlife | ⟨-, -, hdel⟩ := release_life s p b
        · exact h.unlinked b l (hlife ▸ hb)
        · rw [hdel] at hb
          cases hb

lemma HeapOk.copy (h : HeapOk s)
    (hwrite : TaskHeap.writable q) (hq : s.ref q = none)
    (howner : ∀ a, owner q = some a → s.life a = .live) (p : RefPlace ι α) :
    HeapOk ((s.setRef q (s.ref p)).retain (s.ref p)) :=
  { h.toRefsOk.copy hcard hq howner p, h.toFramesOk.copy hwrite _ with }

lemma HeapOk.release (h : HeapOk s)
    (hwrite : TaskHeap.writable p) : HeapOk (s.release p) :=
  { h.toRefsOk.release hcard p, h.toFramesOk.release hwrite with }

lemma HeapOk.finalSuspend (h : HeapOk s)
    (hdone : s.done a = true) : HeapOk ((s.setFrame a .absent).release (.promise a)) := by
  have hrefs : RefsOk (s.setFrame a .absent) := ⟨h.counted, h.live, h.unlinked⟩
  refine { hrefs.release hcard _ with promised := fun b => ?_, finished := fun b hb hframe => ?_ }
  · rw [release_ref, release_frame]
    by_cases hba : b = a <;> simp [TaskHeap.setFrame, hba, h.promised]
  · rw [release_frame] at hframe
    rw [release_done]
    by_cases hba : b = a
    · exact hba ▸ hdone
    · refine h.finished b (live_of_release (s := s.setFrame a .absent) hb) ?_
      simpa [TaskHeap.setFrame, hba] using hframe

lemma HeapOk.step (h : HeapOk s) {action : HeapAction ι α} {s' : TaskHeap ι α}
    (hs : s.step action = some s') : HeapOk s' := by
  cases action with
  | getReturnObject a i =>
    obtain ⟨⟨ha, hi⟩, ⟨⟩⟩ := Option.ite_none_right_eq_some.mp hs
    exact h.getReturnObject ha hi
  | copy source target =>
    simp only [TaskHeap.step] at hs
    split at hs
    · rename_i p q hp hq
      obtain ⟨⟨hwrite, hnone⟩, ⟨⟩⟩ := Option.ite_none_right_eq_some.mp hs
      exact h.copy hcard hwrite hnone (h.owner_live hq) p
    · cases hs
  | move source target =>
    simp only [TaskHeap.step] at hs
    split at hs
    · rename_i p q hp hq
      obtain ⟨⟨hwrite, hwrite', hnone⟩, ⟨⟩⟩ := Option.ite_none_right_eq_some.mp hs
      rw [h.move_eq hcard hnone p]
      exact (h.copy hcard hwrite' hnone (h.owner_live hq) p).release hcard hwrite
    · cases hs
  | release path =>
    simp only [TaskHeap.step] at hs
    split at hs
    · obtain ⟨hwrite, ⟨⟩⟩ := Option.ite_none_right_eq_some.mp hs
      exact h.release hcard hwrite
    · cases hs
  | destroyLink a l =>
    obtain ⟨-, ⟨⟩⟩ := Option.ite_none_right_eq_some.mp hs
    exact h.release hcard rfl
  | free a =>
    obtain ⟨⟨ha, hnext, hthen⟩, ⟨⟩⟩ := Option.ite_none_right_eq_some.mp hs
    exact h.free ha hnext hthen
  | resume path =>
    simp only [TaskHeap.step] at hs
    split at hs
    · cases hs
      exact h
    · split at hs
      · cases hs
        exact h
      · obtain ⟨hframe, ⟨⟩⟩ := Option.ite_none_right_eq_some.mp hs
        exact h.setFrame (by simp [hframe]) (by simp)
  | suspend a =>
    obtain ⟨hframe, ⟨⟩⟩ := Option.ite_none_right_eq_some.mp hs
    exact h.setFrame (by simp [hframe]) (by simp)
  | complete a =>
    obtain ⟨-, ⟨⟩⟩ := Option.ite_none_right_eq_some.mp hs
    exact h.setDone a
  | finalSuspend a =>
    obtain ⟨⟨-, hdone⟩, ⟨⟩⟩ := Option.ite_none_right_eq_some.mp hs
    exact h.finalSuspend hcard hdone
  | failChild path =>
    simp only [TaskHeap.step] at hs
    split at hs
    · cases hs
      exact h
    · cases hs
      exact h.setDone _

lemma HeapOk.of_reaches
    (h : Reaches TaskHeap.step (fun _ _ => True) .empty s) : HeapOk s :=
  h.invariant (P := HeapOk) .empty fun _ _ _ h _ hs => h.step hcard hs

end Bounded

/-- `m_refs` counts the references, and no path of references leads to storage that was given
back. -/
theorem references_counted (hcard : Fintype.card (RefPlace ι α) < refLimit)
    (h : Reaches TaskHeap.step (fun _ _ => True) .empty s) :
    (∀ a, s.life a = .live → s.refs a = (holders s.ref a).card ∧ 0 < s.refs a) ∧
      (∀ a, s.life a ≠ .live → holders s.ref a = ∅) ∧
      ∀ path, ∀ a ∈ s.visited path ++ (s.state path).toList, s.life a = .live := by
  have hok := HeapOk.of_reaches hcard h
  refine ⟨hok.counted, fun a ha => ?_, fun path a hmem => ?_⟩
  · rw [Finset.eq_empty_iff_forall_notMem]
    exact fun p hp => ha (hok.live p a (mem_holders.mp hp))
  · exact hok.visited_live (.link path .thenTask) a hmem

/-- A parent runs and becomes the `m_next` of its child. -/
def awaitChild : List (HeapAction (Fin 2) (Fin 2)) :=
  [.getReturnObject 0 0, .getReturnObject 1 1, .resume (.outside 0),
    .copy (.promise 0) (.link (.outside 1) .nextTask), .suspend 0, .release (.outside 0)]

def afterAwaitChild : TaskHeap (Fin 2) (Fin 2) := (run TaskHeap.step .empty awaitChild).getD .empty

lemma reaches_afterAwaitChild :
    Reaches TaskHeap.step (fun _ _ => True) .empty afterAwaitChild :=
  .of_replay awaitChild .start rfl

theorem references_counted_parent :
    afterAwaitChild.refs 0 = 2 ∧ (holders afterAwaitChild.ref 0).card = 2 := by
  have hcounted := references_counted (by decide) reaches_afterAwaitChild
  exact ⟨rfl, (hcounted.1 0 rfl).1.symm⟩

/-- Where tasks do not hold each other in a circle and no deletion is in progress, the task states
that are left are those that some path reaches from a `TaskRef` outside of the task states, or from
a coroutine that has not finished. -/
theorem live_iff_reachable (hcard : Fintype.card (RefPlace ι α) < refLimit)
    (h : Reaches TaskHeap.step (fun _ _ => True) .empty s)
    (hdeleting : ∀ a, s.life a ≠ .deleting)
    (hacyclic : ∀ a, ¬ Relation.TransGen (Holds owner s.ref) a a) (a : α) :
    s.life a = .live ↔ Reachable owner s.ref a := by
  have hok := HeapOk.of_reaches hcard h
  constructor
  · intro ha
    refine reachable_of_held (P := (s.life · = .live)) hacyclic (fun b hb => ?_) ha
    obtain ⟨hcount, hpos⟩ := hok.counted b hb
    obtain ⟨p, hp⟩ := Finset.card_pos.mp (hcount ▸ hpos)
    refine ⟨p, mem_holders.mp hp, fun c hc => ?_⟩
    cases p with
    | outside i => cases hc
    | promise d => cases hc
    | link d l =>
      obtain rfl : d = c := by simpa [owner] using hc
      cases hlife : s.life d with
      | free => simp [hok.unlinked d l hlife] at hp
      | live => rfl
      | deleting => exact absurd hlife (hdeleting d)
  · intro ha
    cases ha with
    | root _ hp => exact hok.live _ a hp
    | step _ _ hp => exact hok.live _ a hp

/-- The parent, which no `Task` holds any more, is kept by its child. -/
theorem live_iff_reachable_parent :
    afterAwaitChild.ref (.outside 0) = none ∧ Reachable owner afterAwaitChild.ref 0 := by
  have hdown : ∀ b l a, afterAwaitChild.ref (.link b l) = some a → a < b := by decide
  have hless : Holds owner afterAwaitChild.ref ≤ (· > ·) := by
    rintro b a ⟨p, howner, hp⟩
    cases p with
    | link c l =>
      obtain rfl : c = b := by simpa [owner] using howner
      exact hdown c l a hp
    | _ => cases howner
  exact ⟨rfl, (live_iff_reachable (by decide) reaches_afterAwaitChild (by decide)
    (fun b hb => lt_irrefl b (Relation.transGen_minimal hless b b hb)) 0).mp rfl⟩

end Counts

end TaskHeap

end GalayKernel.Proofs
