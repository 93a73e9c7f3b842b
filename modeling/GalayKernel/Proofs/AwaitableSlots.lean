import GalayKernel.AwaitableSlots
import GalayKernel.Lib.Transition
import Mathlib.Tactic.Common

namespace GalayKernel.Proofs

open Transition AwaitableSlots

variable {π : Type} {s s' : AwaitableSlots π} {p : π} {slot : IOSlot} {type : KqueueEventType}
  {await : SuspendedAwait}

/-- Each slot is empty or has an awaitable in which a task is suspended, and `m_type` has only bits
of such awaitables. -/
structure SlotsLive (s : AwaitableSlots π) : Prop where
  slots : ∀ slot p, s.awaitable slot = some p →
    ∃ await, s.awaits p = some await ∧ await.type.slot = slot
  bits : ∀ type, s.type type = true →
    ∃ p await, s.awaitable type.slot = some p ∧ s.awaits p = some await ∧ await.type = type

def fills (await : CommitAwait) : Bool :=
  await.pendingCount ≠ 0 && 0 ≤ await.submitted && await.onIOScheduler

/-- An operation begins only while the slot of its direction is empty. A batch that begins on a
closed controller finds no task left over from before the close, its registration succeeds, and the
controller is closed before the task of the batch goes on. -/
def SlotKept (s : AwaitableSlots π) : SlotAction π → Prop
  | .awaitPlain _ type _ => s.awaitable type.slot = none
  | .awaitCommit _ await => fills await = true →
    s.awaitable .read = none ∧ (s.isOpen = false → ∀ p, s.awaits p = none) ∧
      await.eventFd = true ∧ 0 ≤ await.ret
  | .resume p => ∀ await, s.awaits p = some await → await.batched = true → s.isOpen = false
  | _ => True

structure SlotsOk (s : AwaitableSlots π) : Prop extends SlotsLive s where
  /-- while the controller is open, a suspended task is in its slot -/
  kept : ∀ p await, s.isOpen = true → s.awaits p = some await →
    s.awaitable await.type.slot = some p
  closed : ∀ slot, s.isOpen = false → s.awaitable slot = none

lemma slotsOk_new (isOpen : Bool) : SlotsOk (new isOpen : AwaitableSlots π) where
  slots := nofun
  bits := nofun
  kept := nofun
  closed := fun _ _ => rfl

lemma SlotsOk.type_eq_false (h : SlotsOk s) (hslot : s.awaitable type.slot = none) :
    s.type type = false := by
  rw [← Bool.not_eq_true]
  intro htype
  obtain ⟨p, await, hp, -⟩ := h.bits type htype
  rw [hslot] at hp
  cases hp

/-- An operation that is not suspended leaves the slot as it was. -/
lemma SlotsOk.removeAwaitable_fillAwaitable (h : SlotsOk s)
    (hslot : s.awaitable type.slot = none) :
    (s.fillAwaitable type p).removeAwaitable type = s := by
  have htype := h.type_eq_false hslot
  simp only [fillAwaitable, removeAwaitable, Function.update_idem]
  rw [← htype, ← hslot, Function.update_eq_self, Function.update_eq_self]

lemma SlotsOk.close (h : SlotsOk s) : SlotsOk s.close := by
  unfold AwaitableSlots.close
  split
  · exact ⟨⟨nofun, nofun⟩, nofun, fun _ _ => rfl⟩
  · exact h

lemma suspendPlain_cases (s : AwaitableSlots π) (p : π) (type : KqueueEventType)
    (plain : PlainAwait) :
    s.suspendRegisteredAwaitable p type plain = (false, s.fillAwaitable type p) ∨
      s.isOpen = true ∧
        s.suspendRegisteredAwaitable p type plain = (true, s.fillAwaitable type p) := by
  unfold suspendRegisteredAwaitable
  dsimp only
  split_ifs with hscheduler hone hfailed
  · exact .inl rfl
  · exact .inl rfl
  · exact .inl rfl
  · refine .inr ⟨?_, rfl⟩
    by_contra hclosed
    exact hfailed (by simp [registered, fillAwaitable, hclosed])

variable [DecidableEq π]

lemma SlotsOk.fill (h : SlotsOk s) (await : SuspendedAwait) (hp : s.awaits p = none)
    (hslot : s.awaitable await.type.slot = none)
    (hleft : s.isOpen = false → ∀ q, s.awaits q = none) :
    SlotsOk (({ s with isOpen := true }.fillAwaitable await.type p).setAwait p (some await)) := by
  have hdirection : ∀ slot q, s.awaitable slot = some q → slot ≠ await.type.slot := by
    rintro slot q hq rfl
    cases hslot.symm.trans hq
  have hne : ∀ q other, s.awaits q = some other → q ≠ p := by
    rintro q other hother rfl
    cases hp.symm.trans hother
  refine ⟨⟨?_, ?_⟩, ?_, by simp [fillAwaitable, setAwait]⟩
  · intro slot q hq
    simp only [fillAwaitable, setAwait, Function.update_apply] at hq ⊢
    split at hq
    · cases hq
      exact ⟨await, by simp, ‹slot = _›.symm⟩
    · obtain ⟨other, hother, hslot⟩ := h.slots slot q hq
      exact ⟨other, by rw [if_neg (hne q other hother), hother], hslot⟩
  · intro type htype
    simp only [fillAwaitable, setAwait, Function.update_apply] at htype ⊢
    split at htype
    · subst ‹type = _›
      exact ⟨p, await, by simp, by simp, rfl⟩
    · obtain ⟨q, other, hq, hother, hsame⟩ := h.bits type htype
      refine ⟨q, other, ?_, ?_, hsame⟩
      · rw [if_neg (hdirection _ q hq), hq]
      · rw [if_neg (hne q other hother), hother]
  · intro q other _ hother
    simp only [fillAwaitable, setAwait, Function.update_apply] at hother ⊢
    split at hother
    · cases hother
      simp [‹q = p›]
    · cases hopen : s.isOpen with
      | false => cases (hleft hopen q).symm.trans hother
      | true =>
        have hq := h.kept q other hopen hother
        rw [if_neg (hdirection _ q hq), hq]

lemma SlotsOk.awaitPlain (h : SlotsOk s) (hp : s.awaits p = none)
    (hslot : s.awaitable type.slot = none) (plain : PlainAwait) :
    SlotsOk (s.awaitPlain p type plain) := by
  unfold AwaitableSlots.awaitPlain
  obtain heq | ⟨hopen, heq⟩ := suspendPlain_cases s p type plain
  · rw [heq]
    dsimp only
    rw [resumeIOAwaitable, h.removeAwaitable_fillAwaitable hslot]
    exact h
  · rw [heq]
    have hfill := h.fill ⟨type, false, false⟩ hp hslot (by simp [hopen])
    have hsame : { s with isOpen := true } = s := by rw [← hopen]
    rwa [hsame] at hfill

lemma SlotsOk.awaitCommit (h : SlotsOk s) (hp : s.awaits p = none) {commit : CommitAwait}
    (hkept : SlotKept s (.awaitCommit p commit)) : SlotsOk (s.awaitCommit p commit) := by
  unfold AwaitableSlots.awaitCommit suspendCommit
  by_cases hcount : commit.pendingCount = 0
  · rw [if_pos hcount]
    exact h
  · rw [if_neg hcount]
    by_cases hsubmit : commit.submitted < 0
    · rw [if_pos hsubmit]
      exact h
    · rw [if_neg hsubmit]
      cases hscheduler : commit.onIOScheduler with
      | false => exact h
      | true =>
        obtain ⟨hslot, hleft, hfd, hret⟩ := hkept (by simp [fills, hcount, hscheduler]; omega)
        have hnot : ¬({ s with isOpen := true }.fillAwaitable .fileRead p).registered
            commit.ret < 0 := by
          simp only [registered, fillAwaitable, if_true]
          omega
        simp only [Bool.not_true, Bool.false_eq_true, if_false, hfd, hnot]
        exact h.fill ⟨.fileRead, true, false⟩ hp hslot hleft

lemma SlotsOk.wakeUp (h : SlotsOk s) (p : π) : SlotsOk (s.wakeUp p) := by
  have hto : ∀ q await, s.awaits q = some await → ∃ await', (s.wakeUp p).awaits q = some await' ∧
      await'.type = await.type := by
    intro q await hq
    simp only [AwaitableSlots.wakeUp, setAwait, Function.update_apply]
    split
    · subst ‹q = p›
      exact ⟨{ await with woken := true }, by simp [hq], rfl⟩
    · exact ⟨await, hq, rfl⟩
  have hfrom : ∀ q await, (s.wakeUp p).awaits q = some await → ∃ await', s.awaits q = some await' ∧
      await'.type = await.type := by
    intro q await hq
    simp only [AwaitableSlots.wakeUp, setAwait, Function.update_apply] at hq
    split at hq
    · subst ‹q = p›
      obtain ⟨await', hawait', rfl⟩ := Option.map_eq_some_iff.mp hq
      exact ⟨await', hawait', rfl⟩
    · exact ⟨await, hq, rfl⟩
  refine ⟨⟨?_, ?_⟩, ?_, h.closed⟩
  · intro slot q hq
    obtain ⟨await, hawait, hdirection⟩ := h.slots slot q hq
    obtain ⟨await', hawait', htype⟩ := hto q await hawait
    exact ⟨await', hawait', by rw [htype, hdirection]⟩
  · intro type htype
    obtain ⟨q, await, hq, hawait, hsame⟩ := h.bits type htype
    obtain ⟨await', hawait', htype'⟩ := hto q await hawait
    exact ⟨q, await', hq, hawait', htype'.trans hsame⟩
  · intro q await hopen hq
    obtain ⟨await', hawait', htype⟩ := hfrom q await hq
    exact htype ▸ h.kept q await' hopen hawait'

lemma SlotsOk.processSlot (h : SlotsOk s) (reported done : EventMask) (slot : IOSlot) :
    SlotsOk (s.processSlot reported done slot) := by
  unfold AwaitableSlots.processSlot
  split
  · split
    · split
      · exact h.wakeUp _
      · exact h
    · exact h
  · exact h

lemma SlotsOk.resumePlain (h : SlotsOk s) (hp : s.awaits p = some await) :
    SlotsOk ((s.removeAwaitable await.type).setAwait p none) := by
  have hothers : ∀ q, s.awaitable await.type.slot = some q → q = p := by
    intro q hq
    cases hopen : s.isOpen with
    | false => cases (h.closed await.type.slot hopen).symm.trans hq
    | true => exact Option.some.inj (hq.symm.trans (h.kept p await hopen hp))
  have hgone : ∀ slot q, slot ≠ await.type.slot → s.awaitable slot = some q → q ≠ p := by
    rintro slot q hne hq rfl
    obtain ⟨await', hawait', hdirection⟩ := h.slots slot q hq
    cases hp.symm.trans hawait'
    exact hne hdirection.symm
  refine ⟨⟨?_, ?_⟩, ?_, ?_⟩
  · intro slot q hq
    simp only [removeAwaitable, setAwait, Function.update_apply] at hq ⊢
    split at hq
    · cases hq
    · rw [if_neg (hgone slot q ‹_› hq)]
      exact h.slots slot q hq
  · intro type htype
    simp only [removeAwaitable, setAwait, Function.update_apply] at htype ⊢
    split at htype
    · cases htype
    · rename_i hne
      obtain ⟨q, other, hq, hother, hsame⟩ := h.bits type htype
      have hdirection : type.slot ≠ await.type.slot := by
        intro hslot
        rw [hslot] at hq
        obtain rfl := hothers q hq
        cases hp.symm.trans hother
        exact hne hsame.symm
      refine ⟨q, other, ?_, ?_, hsame⟩
      · rw [if_neg hdirection, hq]
      · rw [if_neg (hgone _ q hdirection hq), hother]
  · intro q other hopen hother
    simp only [removeAwaitable, setAwait, Function.update_apply] at hother ⊢
    split at hother
    · cases hother
    · have hq := h.kept q other hopen hother
      have hdirection : other.type.slot ≠ await.type.slot := by
        intro hslot
        rw [hslot] at hq
        exact ‹¬q = p› (hothers q hq)
      rw [if_neg hdirection, hq]
  · intro slot hclosed
    simp only [removeAwaitable, setAwait, Function.update_apply]
    split
    · rfl
    · exact h.closed slot hclosed

lemma SlotsOk.resumeBatch (h : SlotsOk s) (hclosed : s.isOpen = false) :
    SlotsOk (s.setAwait p none) := by
  have hempty := fun slot => h.closed slot hclosed
  refine ⟨⟨?_, ?_⟩, ?_, fun slot _ => hempty slot⟩
  · intro slot q hq
    cases (hempty slot).symm.trans hq
  · intro type htype
    obtain ⟨q, -, hq, -⟩ := h.bits type htype
    cases (hempty _).symm.trans hq
  · intro q other hopen
    cases hclosed.symm.trans hopen

lemma SlotsOk.step (h : SlotsOk s) {a : SlotAction π} (hkept : SlotKept s a)
    (hs : AwaitableSlots.step s a = some s') : SlotsOk s' := by
  cases a with
  | awaitPlain p type plain =>
    obtain ⟨hp, hs⟩ := Option.ite_none_left_eq_some.mp hs
    cases hs
    exact h.awaitPlain (by simpa using hp) hkept plain
  | awaitCommit p commit =>
    obtain ⟨hp, hs⟩ := Option.ite_none_left_eq_some.mp hs
    cases hs
    exact h.awaitCommit (by simpa using hp) hkept
  | processEvent reported done =>
    cases hs
    exact (h.processSlot reported done .read).processSlot reported done .write
  | timeout p =>
    simp only [AwaitableSlots.step] at hs
    split at hs
    · obtain ⟨-, hs⟩ := Option.ite_none_left_eq_some.mp hs
      cases hs
      exact h.wakeUp p
    · cases hs
  | resume p =>
    simp only [AwaitableSlots.step] at hs
    split at hs
    · rename_i await hp
      obtain ⟨-, hs⟩ := Option.ite_none_right_eq_some.mp hs
      cases hs
      unfold awaitResume
      split
      · exact h.resumeBatch (hkept await hp ‹_›)
      · exact h.resumePlain hp
    · cases hs
  | close =>
    cases hs
    exact h.close

/-- In every run in which an operation begins only while its slot is empty and the controller is
closed before the task of a batch goes on, the slots and the bits of `m_type` are those of suspended
tasks. -/
theorem no_slot_outlives_its_await {isOpen : Bool}
    (h : Reaches AwaitableSlots.step SlotKept (.new isOpen) s) : SlotsLive s := by
  have hok : SlotsOk s :=
    h.invariant (P := SlotsOk) (slotsOk_new isOpen) fun _ _ _ hi hkept hs => hi.step hkept hs
  exact hok.toSlotsLive

def slotKept (s : AwaitableSlots Bool) : SlotAction Bool → Bool
  | .awaitPlain _ type _ => s.awaitable type.slot == none
  | .awaitCommit _ await => s.awaitable .read == none && s.isOpen && await.eventFd &&
    decide (0 ≤ await.ret)
  | .resume p => !s.isOpen || (s.awaits p).all fun await => !await.batched
  | _ => true

lemma slotKept_spec (s : AwaitableSlots Bool) (a : SlotAction Bool) (h : slotKept s a = true) :
    SlotKept s a := by
  cases a with
  | awaitPlain p type plain => simpa [slotKept, SlotKept] using h
  | awaitCommit p commit =>
    intro _
    simp_all [slotKept]
  | resume p =>
    intro await hp hbatched
    simp_all [slotKept]
  | _ => trivial

def commitAwait : CommitAwait := ⟨1, 1, true, true, 0⟩

def mixedAwaits : List (SlotAction Bool) :=
  [.awaitPlain false .recv ⟨true, 0⟩, .awaitPlain true .send ⟨true, 0⟩,
    .processEvent ⟨true, false⟩ ⟨true, false⟩, .resume false, .awaitPlain false .readv ⟨true, 1⟩,
    .timeout true, .resume true, .awaitCommit true commitAwait,
    .processEvent ⟨true, false⟩ ⟨true, false⟩, .close, .resume true]

theorem mixedAwaits_slots_live :
    ∃ s s' : AwaitableSlots Bool, Reaches AwaitableSlots.step SlotKept (.new true) s ∧
      s.awaitable .read = some false ∧ s.awaitable .write = some true ∧ SlotsLive s ∧
      Reaches AwaitableSlots.step SlotKept s s' ∧ s'.awaits true = none ∧ SlotsLive s' := by
  have hrun : ∃ s, run (guarded slotKept AwaitableSlots.step) (.new true) (mixedAwaits.take 2) =
      some s ∧ s.awaitable .read = some false ∧ s.awaitable .write = some true ∧
      ∃ s', run (guarded slotKept AwaitableSlots.step) s (mixedAwaits.drop 2) = some s' ∧
        s'.awaits true = none := ⟨_, rfl, rfl, rfl, _, rfl, rfl⟩
  obtain ⟨s, hs, hread, hwrite, s', hs', hgone⟩ := hrun
  have hreach : Reaches AwaitableSlots.step SlotKept (.new true) s :=
    .of_run slotKept slotKept_spec _ .start hs
  have hnext : Reaches AwaitableSlots.step SlotKept s s' :=
    .of_run slotKept slotKept_spec _ .start hs'
  exact ⟨s, s', hreach, hread, hwrite, no_slot_outlives_its_await hreach, hnext, hgone,
    no_slot_outlives_its_await (hreach.trans hnext)⟩

def completedBatch : List (SlotAction Bool) :=
  [.awaitCommit true commitAwait, .processEvent ⟨true, false⟩ ⟨true, false⟩, .resume true]

lemma completedBatch_left :
    ∃ s, run AwaitableSlots.step (.new false) completedBatch = some s ∧
      s.awaitable .read = some true ∧ s.awaits true = none := ⟨_, rfl, rfl, rfl⟩

/-- A slot can outlive its await when batches are committed. -/
theorem slot_can_outlive_its_await :
    ¬∀ (isOpen : Bool) (s : AwaitableSlots Bool),
      Reaches AwaitableSlots.step (fun _ _ => True) (.new isOpen) s → SlotsLive s := by
  intro h
  obtain ⟨s, hrun, hslot, hgone⟩ := completedBatch_left
  have hlive := h false s (.of_replay completedBatch .start hrun)
  obtain ⟨await, hawait, -⟩ := hlive.slots .read true hslot
  cases hgone.symm.trans hawait

end GalayKernel.Proofs
