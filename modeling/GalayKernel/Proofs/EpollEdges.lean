import GalayKernel.Proofs.EpollFollows

/-!
# Edges are not lost

Registrations are edge-triggered, and a registration that looks unchanged is skipped. So an edge
that was consumed while nobody waited is not reported again, and what makes up for it is that an
operation is tried before it waits: when it would block, then the descriptor is not ready, and the
next arrival makes an edge. A file watcher waits without having tried to read.
-/

namespace GalayKernel

namespace SequenceOwners

variable {owners owners' : SequenceOwners} {seq : EpollSequence} {os slot : IOSlot}
  {domain : SequenceOwnerDomain}

/-- A sequence that owns one slot waits only in the direction of the slot. -/
def InDomain (owners : SequenceOwners) : Prop :=
  owners.isShared = false → ∀ ⦃os seq slot⦄, owners.owner os = some seq → seq.woken = false →
    seq.waitsOn slot → slot = os

lemma InDomain.owner_of_waits (h : InDomain owners) (howner : owners.owner os = some seq)
    (hnot : seq.woken = false) (hwaits : seq.waitsOn slot) : owners.owner slot = some seq := by
  cases owners with
  | separate read write =>
    rw [h rfl howner hnot hwaits]
    exact howner
  | shared both =>
    cases howner
    rfl

lemma InDomain.of_fewer (h : InDomain owners') (hfewer : owners.Fewer owners') :
    InDomain owners := by
  intro hshared os seq slot howner hnot hwaits
  obtain ⟨howner', heq⟩ := hfewer howner hnot
  exact h (heq.symm.trans hshared) howner' hnot hwaits

lemma InDomain.update (h : InDomain owners)
    (hseq : owners.isShared = false → ∀ slot, seq.waitsOn slot → slot = os) :
    InDomain (owners.update os seq) := by
  intro hshared os' seq' slot howner hnot hwaits
  rw [isShared_update] at hshared
  rcases owner_update howner with ⟨rfl, hos⟩ | ⟨-, -, howner⟩
  · rw [hos hshared]
    exact hseq hshared slot hwaits
  · exact h hshared howner hnot hwaits

lemma InDomain.claim (h : InDomain owners) (hclaim : owners.claim domain seq = some owners')
    (hseq : ∀ slot, seq.waitsOn slot → domain.usesSlot slot) : InDomain owners' := by
  intro hshared os' seq' slot howner hnot hwaits
  rcases owner_claim hclaim howner with ⟨rfl, hos⟩ | howner
  · exact hos hshared slot (hseq slot hwaits)
  · have hsame := (fewer_claim hclaim howner hnot).2
    exact h (hsame.trans hshared) howner hnot hwaits

end SequenceOwners

lemma EpollSequence.slot_of_waitsOn {type : IOEventType} {woken : Bool} {slot : IOSlot}
    (h : (EpollSequence.mk (some type) woken).waitsOn slot) : type.slot = slot := by
  simpa [waitsOn] using h

namespace EpollReactor

open Coalesced EpollController SequenceOwners

variable {κ : Type} {s s' : EpollReactor κ} {errors : CtlErrors} {c c' : κ} {fd : Nat}
  {slot : IOSlot} {unseen unseen' : EventMask} {steps : List (IOEventType × Attempt)}

/-- Each direction in which a controller waits is live, but for the event that is being processed:
`unseen` and `unseen'` are its directions that plain awaitables and sequences have still to see. -/
structure Alive (s : EpollReactor κ) (c : κ) (unseen unseen' : EventMask) : Prop where
  plain : ∀ ⦃slot⦄, (s.controllers c).plainWaits slot → unseen.has slot = false → LiveOn s c slot
  sequence : ∀ ⦃os seq slot⦄, (s.controllers c).sequenceOwner.owner os = some seq →
    seq.woken = false → seq.waitsOn slot → unseen'.has slot = false → LiveOn s c slot
  inDomain : (s.controllers c).sequenceOwner.InDomain

lemma Alive.of_fewer (h : Alive s c unseen unseen')
    (hplain : ∀ slot, (s'.controllers c).plainWaits slot → (s.controllers c).plainWaits slot)
    (hfewer : (s'.controllers c).sequenceOwner.Fewer (s.controllers c).sequenceOwner)
    (hlive : ∀ slot, LiveOn s c slot → LiveOn s' c slot) : Alive s' c unseen unseen' where
  plain slot hwaits hseen := hlive slot (h.plain (hplain slot hwaits) hseen)
  sequence _ _ slot howner hnot hwaits hseen :=
    hlive slot (h.sequence (hfewer howner hnot).1 hnot hwaits hseen)
  inDomain := h.inDomain.of_fewer hfewer

lemma Alive.congr (h : Alive s c unseen unseen')
    (hctl : s'.controllers c =
      { s.controllers c with registeredEvents := (s'.controllers c).registeredEvents })
    (hlive : ∀ slot, LiveOn s c slot → LiveOn s' c slot) : Alive s' c unseen unseen' := by
  refine h.of_fewer ?_ ?_ hlive
  · rw [hctl]
    exact fun _ => id
  · rw [hctl]
    exact Fewer.refl _

lemma alive_of_isIdle (h : (s.controllers c).isIdle) : Alive s c unseen unseen' := by
  have hctl := isIdle_iff.mp h
  refine ⟨?_, ?_, ?_⟩
  · rintro slot ⟨awaitable, hawaitable, -⟩
    rw [hctl.1 slot] at hawaitable
    cases hawaitable
  · intro os seq slot howner
    rw [hctl.2 os] at howner
    cases howner
  · intro _ os seq slot howner
    rw [hctl.2 os] at howner
    cases howner

/-- An operation that would block shows that the descriptor is not ready. -/
lemma liveOn_blocked : LiveOn (s.attempt c slot .blocked) c slot := by
  intro fd file hhandle hfile hready
  rw [attempt_controllers] at hhandle
  simp only [attempt, hhandle, setFile_self, Option.map_eq_some_iff] at hfile
  obtain ⟨file', -, rfl⟩ := hfile
  simp [EpollFile.attempt] at hready

lemma runSteps_live {type : IOEventType} (h : (s.runSteps c steps).2 = some type) :
    LiveOn (s.runSteps c steps).1 c type.slot ∧ ∃ a, (type, a) ∈ steps := by
  induction steps generalizing s with
  | nil => cases h
  | cons step steps ih =>
    obtain ⟨type', a⟩ := step
    rw [runSteps] at h ⊢
    split at h
    · next hwatch =>
      obtain ⟨hlive, a', hmem⟩ := ih h
      rw [if_pos hwatch]
      exact ⟨hlive, a', List.mem_cons_of_mem _ hmem⟩
    · next hwatch =>
      rw [if_neg hwatch]
      split at h
      · next hblocked =>
        cases h
        rw [if_pos hblocked, hblocked]
        exact ⟨liveOn_blocked, .blocked, List.mem_cons_self⟩
      · next hblocked =>
        obtain ⟨hlive, a', hmem⟩ := ih h
        rw [if_neg hblocked]
        exact ⟨hlive, a', List.mem_cons_of_mem _ hmem⟩

variable [DecidableEq κ]

structure EdgesOk (s : EpollReactor κ) : Prop where
  reactor : ReactorOk s
  alive : ∀ c, Alive s c .empty .empty

lemma EdgesOk.turn (hok : EdgesOk s) (hturn : Turn c s s') (hcovered : Covered s' c)
    (halive : Alive s' c .empty .empty) : EdgesOk s' := by
  refine ⟨hturn.reactorOk hok.reactor hcovered, fun c' => ?_⟩
  by_cases hc : c' = c
  · subst hc
    exact halive
  · exact (hok.alive c').congr (hturn.other c' hc) (hturn.keeps.live hok.reactor.regOk c')

lemma Alive.attempt (h : Alive s c unseen unseen') (hok : RegOk s) (a : Attempt) :
    Alive (s.attempt c slot a) c unseen unseen' := by
  refine h.congr ?_ ((turn_attempt a).keeps.live hok c)
  rw [attempt_controllers]

lemma Alive.setAwaitable {awaitable : Option EpollAwaitable} (h : Alive s c unseen unseen')
    (hok : RegOk s) (hwoken : ∀ a, awaitable = some a → a.woken = true) :
    Alive (s.setController c ((s.controllers c).setAwaitable slot awaitable)) c unseen unseen' := by
  have hturn : Turn c s (s.setController c ((s.controllers c).setAwaitable slot awaitable)) :=
    turn_setController rfl rfl
  refine h.of_fewer (fun slot' hwaits => ?_) ?_ (hturn.keeps.live hok c)
  · rw [setController_self] at hwaits
    exact (plainWaits_setAwaitable hwoken hwaits).2
  · rw [setController_self]
    exact Fewer.refl _

lemma Alive.setOwners {ctl : EpollController} (h : Alive s c unseen unseen') (hok : RegOk s)
    (hhandle : ctl.handle = (s.controllers c).handle)
    (hregistered : ctl.registeredEvents = (s.controllers c).registeredEvents)
    (hawaitable : ctl.awaitable = (s.controllers c).awaitable)
    (hfewer : ctl.sequenceOwner.Fewer (s.controllers c).sequenceOwner) :
    Alive (s.setController c ctl) c unseen unseen' := by
  refine h.of_fewer (fun slot' hwaits => ?_) ?_
    ((turn_setController hhandle hregistered).keeps.live hok c)
  · rw [setController_self] at hwaits
    rwa [plainWaits, ← hawaitable]
  · rwa [setController_self]

omit [DecidableEq κ] in
lemma liveOn_tried {tried : EpollReactor κ} {type : IOEventType}
    (hwatch : type = .fileWatch → LiveOn s c type.slot)
    (htried : tried = s ∧ type = .fileWatch ∨ tried = s.attempt c type.slot .blocked) :
    LiveOn tried c type.slot := by
  rcases htried with ⟨rfl, htype⟩ | rfl
  · exact hwatch htype
  · exact liveOn_blocked

lemma Alive.fillAwaitable {tried : EpollReactor κ} {type : IOEventType} (h : Alive s c unseen unseen')
    (hok : RegOk s) (hwatch : type = .fileWatch → LiveOn s c type.slot)
    (htried : tried = s ∧ type = .fileWatch ∨ tried = s.attempt c type.slot .blocked)
    (hsettles : Settles c ((s.controllers c).fillAwaitable type) tried s') :
    Alive s' c unseen unseen' := by
  have hturn := turn_tried htried
  have hlive := (hturn.trans hsettles.turn).keeps.live hok c
  have hctl := hsettles.awaiters
  refine ⟨fun slot hwaits hseen => ?_, fun os seq slot howner hnot hwaits hseen => ?_, ?_⟩
  · rw [hctl] at hwaits
    have hfilled : ((s.controllers c).fillAwaitable type).plainWaits slot := hwaits
    rcases plainWaits_fillAwaitable hfilled with rfl | hwaits
    · exact hsettles.turn.keeps.live (hturn.keeps.regOk hok) c _ (liveOn_tried hwatch htried)
    · exact hlive slot (h.plain hwaits hseen)
  · rw [hctl] at howner
    exact hlive slot (h.sequence howner hnot hwaits hseen)
  · rw [hctl]
    exact h.inDomain

lemma Begins.alive {type : IOEventType} (hbegins : Begins c type s s')
    (h : Alive s c unseen unseen') (hok : RegOk s)
    (hwatch : type = .fileWatch → LiveOn s c type.slot) : Alive s' c unseen unseen' := by
  cases hbegins with
  | refused => exact h
  | done a => exact h.attempt hok a
  | waits tried _ htried hsettles => exact h.fillAwaitable hok hwatch htried hsettles
  | undone tried s₁ htried hsettles =>
    have hok' := ((turn_tried htried).trans hsettles.turn).keeps.regOk hok
    exact (h.fillAwaitable hok hwatch htried hsettles).setAwaitable hok' fun _ ha => by cases ha

lemma Advances.owners {stopped started undone : SequenceOwners}
    (h : Advances c steps stopped started undone s s') (hok : RegOk s) :
    (s'.controllers c).awaitable = (s.controllers c).awaitable ∧
      ((s'.controllers c).sequenceOwner = stopped ∨ (s'.controllers c).sequenceOwner = undone ∨
        (s'.controllers c).sequenceOwner = started ∧ ∃ type a,
          (s.runSteps c steps).2 = some type ∧ (type, a) ∈ steps ∧ LiveOn s' c type.slot) := by
  cases h with
  | ended =>
    rw [setController_self]
    exact ⟨rfl, .inl rfl⟩
  | waits type _ htype hsettles =>
    obtain ⟨hlive, a, hmem⟩ := runSteps_live htype
    have hlive' := hsettles.turn.keeps.live ((runSteps_turn steps).keeps.regOk hok) c _ hlive
    rw [hsettles.awaiters]
    exact ⟨rfl, .inr (.inr ⟨rfl, type, a, htype, hmem, hlive'⟩)⟩
  | failed type s₁ htype hsettles =>
    rw [setController_self, hsettles.awaiters]
    exact ⟨rfl, .inr (.inl rfl)⟩

lemma beginSequence_alive {domain : SequenceOwnerDomain} (hok : ReactorOk s)
    (h : Alive s c .empty .empty) (hdomain : ∀ step ∈ steps, domain.usesSlot step.1.slot)
    (hbegin : s.beginSequence errors c domain steps = some s') : Alive s' c .empty .empty := by
  have hlive := (beginSequence_turn hok hbegin).1.keeps.live hok.regOk c
  rcases beginSequence_advances hok hbegin with rfl | ⟨-, owners, hclaim, hadvances⟩
  · exact h
  · obtain ⟨hawaitable, howners⟩ := hadvances.owners hok.regOk
    have hplain : ∀ slot, (s'.controllers c).plainWaits slot → (s.controllers c).plainWaits slot := by
      intro slot hwaits
      rwa [plainWaits, ← hawaitable]
    rcases howners with hstopped | hundone | ⟨hstarted, type, a, htype, hmem, htypeLive⟩
    · exact h.of_fewer hplain (by rw [hstopped]; exact Fewer.refl _) hlive
    · exact h.of_fewer hplain (by rw [hundone]; exact Fewer.refl _) hlive
    · rw [htype] at hclaim
      refine ⟨fun slot hwaits hseen => hlive slot (h.plain (hplain slot hwaits) hseen),
        fun os seq slot howner hnot hwaits hseen => ?_, ?_⟩
      · rw [hstarted] at howner
        rcases owner_claim hclaim howner with ⟨rfl, -⟩ | howner
        · rw [← EpollSequence.slot_of_waitsOn hwaits]
          exact htypeLive
        · exact hlive slot (h.sequence howner hnot hwaits hseen)
      · rw [hstarted]
        refine h.inDomain.claim hclaim fun slot hwaits => ?_
        rw [← EpollSequence.slot_of_waitsOn hwaits]
        exact hdomain _ hmem

structure Dispatched (c : κ) (slot : IOSlot) (s s' : EpollReactor κ) : Prop where
  awaitable : (s'.controllers c).awaitable = (s.controllers c).awaitable
  shared : (s'.controllers c).sequenceOwner.isShared = (s.controllers c).sequenceOwner.isShared
  inDomain : (s'.controllers c).sequenceOwner.InDomain
  sequence : ∀ ⦃os seq slot'⦄, (s'.controllers c).sequenceOwner.owner os = some seq →
    seq.woken = false → seq.waitsOn slot' → LiveOn s' c slot' ∨
      os ≠ slot ∧ (s.controllers c).sequenceOwner.isShared = false ∧
        (s.controllers c).sequenceOwner.owner os = some seq

lemma dispatchOwner_dispatched (hok : ReactorOk s)
    (hdomain : (s.controllers c).sequenceOwner.InDomain)
    (hsteps : (s.controllers c).sequenceOwner.isShared = false →
      ∀ step ∈ steps, step.1.slot = slot)
    (h : s.dispatchOwner errors c slot steps = some s') : Dispatched c slot s s' := by
  rcases dispatchOwner_advances hok h with ⟨hnone, rfl⟩ | ⟨seq, howner, hadvances⟩
  · refine ⟨rfl, rfl, hdomain, fun os seq slot' howner _ _ => .inr ⟨?_, ?_, howner⟩⟩
    · rintro rfl
      rw [hnone] at howner
      cases howner
    · cases howners : (s'.controllers c).sequenceOwner with
      | separate read write => rfl
      | shared both =>
        rw [howners] at hnone
        cases hnone
  · obtain ⟨hawaitable, howners⟩ := hadvances.owners hok.regOk
    have hwoken : ∀ active, (s'.controllers c).sequenceOwner =
        (s.controllers c).sequenceOwner.update slot ⟨active, true⟩ → Dispatched c slot s s' := by
      intro active heq
      refine ⟨hawaitable, by rw [heq, isShared_update], ?_, fun os seq' slot' howner' hnot _ => ?_⟩
      · rw [heq]
        exact hdomain.of_fewer (fewer_update rfl)
      · rw [heq] at howner'
        rcases owner_update howner' with ⟨rfl, -⟩ | hother
        · cases hnot
        · exact .inr hother
    rcases howners with hstopped | hundone | ⟨hstarted, type, a, htype, hmem, htypeLive⟩
    · exact hwoken _ hstopped
    · exact hwoken _ hundone
    · rw [htype] at hstarted
      refine ⟨hawaitable, by rw [hstarted, isShared_update], ?_,
        fun os seq' slot' howner' _ hwaits => ?_⟩
      · rw [hstarted]
        refine hdomain.update fun hshared slot' hwaits => ?_
        rw [← EpollSequence.slot_of_waitsOn hwaits]
        exact hsteps hshared _ hmem
      · rw [hstarted] at howner'
        rcases owner_update howner' with ⟨rfl, -⟩ | hother
        · rw [← EpollSequence.slot_of_waitsOn hwaits]
          exact .inl htypeLive
        · exact .inr hother

omit [DecidableEq κ] in
lemma ownerWaits_of_owner {seq : EpollSequence}
    (howner : (s.controllers c).sequenceOwner.owner slot = some seq) (hwaits : seq.waitsOn slot) :
    s.ownerWaits c slot = true := by
  rw [ownerWaits, howner]
  exact hwaits

/-- After the owner of the read slot, a sequence that is not live is still to be dispatched. -/
structure ReadDispatched (c : κ) (events : EventMask) (dispatched : Bool) (s s' : EpollReactor κ) :
    Prop where
  turn : Turn c s s'
  covered : Covered s' c
  awaitable : (s'.controllers c).awaitable = (s.controllers c).awaitable
  shared : (s'.controllers c).sequenceOwner.isShared = (s.controllers c).sequenceOwner.isShared
  inDomain : (s'.controllers c).sequenceOwner.InDomain
  sequence : ∀ ⦃os seq slot⦄, (s'.controllers c).sequenceOwner.owner os = some seq →
    seq.woken = false → seq.waitsOn slot → LiveOn s' c slot ∨ slot = .write ∧ events.write = true ∧
      (dispatched && (s'.controllers c).sequenceOwner.isShared) = false

lemma dispatchRead_dispatched {events : EventMask} {dispatched : Bool} (hok : ReactorOk s)
    (h : Alive s c .empty events) (hdispatched : dispatched = (events.read && s.ownerWaits c .read))
    (hsteps : (s.controllers c).sequenceOwner.isShared = false →
      ∀ step ∈ steps, step.1.slot = .read)
    (hread : (if dispatched then s.dispatchOwner errors c .read steps else some s) = some s') :
    ReadDispatched c events dispatched s s' := by
  cases dispatched with
  | true =>
    rw [if_pos rfl] at hread
    obtain ⟨hturn, hcovered⟩ := dispatchOwner_turn hok hread
    have hread := dispatchOwner_dispatched hok h.inDomain hsteps hread
    refine ⟨hturn, hcovered, hread.awaitable, hread.shared, hread.inDomain,
      fun os seq slot howner hnot hwaits => ?_⟩
    rcases hread.sequence howner hnot hwaits with hslot | ⟨hos, hshared, howner⟩
    · exact .inl hslot
    · have hslot := h.inDomain hshared howner hnot hwaits
      have hwrite : slot = .write := by cases slot <;> simp_all
      cases hseen : events.has slot with
      | false => exact .inl (hturn.keeps.live hok.regOk c slot (h.sequence howner hnot hwaits hseen))
      | true =>
        subst hwrite
        exact .inr ⟨rfl, hseen, by rw [hread.shared, hshared, Bool.and_false]⟩
  | false =>
    cases hread
    refine ⟨.refl c s, hok.covered c, rfl, rfl, h.inDomain,
      fun os seq slot howner hnot hwaits => ?_⟩
    cases hseen : events.has slot with
    | false => exact .inl (h.sequence howner hnot hwaits hseen)
    | true =>
      cases slot with
      | read =>
        have howner' := h.inDomain.owner_of_waits howner hnot hwaits
        rw [ownerWaits_of_owner howner' hwaits, Bool.and_true] at hdispatched
        exact absurd (hdispatched.trans hseen) Bool.false_ne_true
      | write => exact .inr ⟨rfl, hseen, rfl⟩

lemma dispatchOwners_alive {events : EventMask} {readSteps writeSteps : List (IOEventType × Attempt)}
    (hok : ReactorOk s) (h : Alive s c .empty events)
    (hsteps : (s.controllers c).sequenceOwner.isShared = false →
      (∀ step ∈ readSteps, step.1.slot = .read) ∧ ∀ step ∈ writeSteps, step.1.slot = .write)
    (hdispatch : s.dispatchOwners errors c events readSteps writeSteps = some s') :
    Alive s' c .empty .empty := by
  unfold dispatchOwners at hdispatch
  dsimp only at hdispatch
  split at hdispatch
  · cases hdispatch
  · next s₁ hread =>
    have hread := dispatchRead_dispatched hok h rfl (fun hshared => (hsteps hshared).1) hread
    have hok₁ := hread.turn.reactorOk hok hread.covered
    have hlive := hread.turn.keeps.live hok.regOk c
    split at hdispatch
    · have hlive' := (dispatchOwner_turn hok₁ hdispatch).1.keeps.live hok₁.regOk c
      have hwrite := dispatchOwner_dispatched hok₁ hread.inDomain
        (fun hnot => (hsteps (hread.shared.symm.trans hnot)).2) hdispatch
      refine ⟨fun slot hwaits hseen => ?_, fun os seq slot howner hnot hwaits _ => ?_,
        hwrite.inDomain⟩
      · rw [plainWaits, hwrite.awaitable, hread.awaitable] at hwaits
        exact hlive' slot (hlive slot (h.plain hwaits hseen))
      · rcases hwrite.sequence howner hnot hwaits with hslot | ⟨hos, hshared, howner⟩
        · exact hslot
        · rcases hread.sequence howner hnot hwaits with hslot | ⟨rfl, -⟩
          · exact hlive' slot hslot
          · exact absurd (hread.inDomain hshared howner hnot hwaits).symm hos
    · next hskipped =>
      cases hdispatch
      refine ⟨fun slot hwaits hseen => ?_, fun os seq slot howner hnot hwaits _ => ?_,
        hread.inDomain⟩
      · rw [plainWaits, hread.awaitable] at hwaits
        exact hlive slot (h.plain hwaits hseen)
      · rcases hread.sequence howner hnot hwaits with hslot | ⟨rfl, hevent, hdispatched⟩
        · exact hslot
        · have howner' := hread.inDomain.owner_of_waits howner hnot hwaits
          rw [hevent, ownerWaits_of_owner howner' hwaits, hdispatched] at hskipped
          exact absurd rfl hskipped

lemma Alive.completeAwaitableAndWake (h : Alive s c unseen unseen') (hok : RegOk s) (slot : IOSlot)
    (a : Attempt) :
    Alive (s.completeAwaitableAndWake c slot a) c (unseen.set slot false) unseen' := by
  -- it does not wait, or it has tried and would block
  have hseen : ∀ {s' : EpollReactor κ}, Alive s' c unseen unseen' →
      ((s'.controllers c).plainWaits slot → LiveOn s' c slot) →
      Alive s' c (unseen.set slot false) unseen' := by
    intro s' h' hslot
    refine ⟨fun slot' hwaits hseen => ?_, h'.sequence, h'.inDomain⟩
    by_cases heq : slot' = slot
    · subst heq
      exact hslot hwaits
    · rw [EventMask.has_set_of_ne heq] at hseen
      exact h'.plain hwaits hseen
  unfold EpollReactor.completeAwaitableAndWake
  split
  · next hnone =>
    refine hseen h ?_
    rintro ⟨awaitable, hawaitable, -⟩
    rw [hnone] at hawaitable
    cases hawaitable
  · split
    · next hblocked =>
      rw [Bool.and_eq_true, beq_iff_eq] at hblocked
      rw [hblocked.2]
      exact hseen (h.attempt hok .blocked) fun _ => liveOn_blocked
    · have hwoken : ∀ b, ((s.controllers c).awaitable slot).map
          (fun awaitable => { awaitable with woken := true }) = some b → b.woken = true := by
        intro b hb
        obtain ⟨awaitable, -, rfl⟩ := Option.map_eq_some_iff.mp hb
        rfl
      have hctl := attempt_controllers (s := s) (c := c) slot a
      have halive : Alive ((s.attempt c slot a).setController c
          (((s.attempt c slot a).controllers c).setAwaitable slot _)) c unseen unseen' :=
        (h.attempt hok a).setAwaitable ((turn_attempt a).keeps.regOk hok) hwoken
      rw [hctl] at halive
      refine hseen halive fun hwaits => ?_
      rw [setController_self] at hwaits
      exact absurd rfl (plainWaits_setAwaitable hwoken hwaits).1

lemma Alive.seeEvent {event : Bool} (h : Alive s c unseen unseen') (hok : RegOk s) (slot : IOSlot)
    (a : Attempt) (hevent : unseen.has slot = event) :
    Alive (if event then s.completeAwaitableAndWake c slot a else s) c (unseen.set slot false)
      unseen' := by
  cases event with
  | true => exact h.completeAwaitableAndWake hok slot a
  | false =>
    have hset : unseen.set slot false = unseen := by
      cases slot <;> exact hevent ▸ rfl
    rw [hset]
    exact h

lemma seeEvent_sequenceOwner (event : Bool) (slot : IOSlot) (a : Attempt) :
    ((if event then s.completeAwaitableAndWake c slot a else s).controllers c).sequenceOwner =
      (s.controllers c).sequenceOwner := by
  cases event with
  | false => rfl
  | true =>
    rw [if_pos rfl, completeAwaitableAndWake]
    split
    · rfl
    · split
      · rw [attempt_controllers]
      · rw [setController_self]
        rfl

omit [DecidableEq κ] in
lemma LiveOn.pop {events : EventMask} {rest : List (κ × EventMask)} {slot : IOSlot}
    (h : LiveOn s c' slot) (hevents : s.events = (c, events) :: rest)
    (hother : c' = c → events.has slot = false) : LiveOn { s with events := rest } c' slot := by
  intro fd file hhandle hfile hready
  rcases h hhandle hfile hready with hedge | ⟨events', hmem, hslot⟩ | hregisters
  · exact .inl hedge
  · rw [hevents, List.mem_cons] at hmem
    rcases hmem with heq | hmem
    · cases heq
      cases (hother rfl).symm.trans hslot
    · exact .inr (.inl ⟨events', hmem, hslot⟩)
  · exact .inr (.inr hregisters)

omit [DecidableEq κ] in
/-- The event that is processed was the last trace of some edges. -/
lemma Alive.pop {events : EventMask} {rest : List (κ × EventMask)} (h : Alive s c .empty .empty)
    (hevents : s.events = (c, events) :: rest) :
    Alive { s with events := rest } c events events := by
  have hlive : ∀ slot, events.has slot = false → LiveOn s c slot →
      LiveOn { s with events := rest } c slot :=
    fun slot hnot hlive => hlive.pop hevents fun _ => hnot
  exact ⟨fun slot hwaits hseen => hlive slot hseen (h.plain hwaits EventMask.has_empty),
    fun os seq slot howner hnot hwaits hseen =>
      hlive slot hseen (h.sequence howner hnot hwaits EventMask.has_empty), h.inDomain⟩

omit [DecidableEq κ] in
lemma Alive.pop_other {events : EventMask} {rest : List (κ × EventMask)}
    (h : Alive s c' .empty .empty) (hc : c' ≠ c) (hevents : s.events = (c, events) :: rest) :
    Alive { s with events := rest } c' .empty .empty := by
  exact h.congr rfl fun slot hlive => hlive.pop hevents fun heq => absurd heq hc

lemma processEvent_alive {events : EventMask} {read write : Attempt}
    {readSteps writeSteps : List (IOEventType × Attempt)} (hok : ReactorOk s)
    (h : Alive s c events events)
    (hsteps : (s.controllers c).sequenceOwner.isShared = false →
      (∀ step ∈ readSteps, step.1.slot = .read) ∧ ∀ step ∈ writeSteps, step.1.slot = .write)
    (hprocess : s.processEvent errors c events read write readSteps writeSteps = some s') :
    Alive s' c .empty .empty := by
  unfold processEvent at hprocess
  dsimp only at hprocess
  split at hprocess
  · next hidle =>
    cases hprocess
    exact alive_of_isIdle hidle
  · next hidle =>
    have hhandle := (hok.covered c).handle_ne_none (by simpa using hidle)
    split at hprocess
    · cases hprocess
    · next s₁ hdispatch =>
      obtain ⟨hread, hcovered⟩ := seeEvent_turn events.read .read read (hok.covered c)
      have halive := h.seeEvent hok.regOk .read read rfl
      obtain ⟨hwrite, hcovered⟩ := seeEvent_turn events.write .write write hcovered
      have halive := halive.seeEvent (hread.keeps.regOk hok.regOk) .write write rfl
      have hok' := (hread.trans hwrite).reactorOk hok hcovered
      have hdone := dispatchOwners_alive hok' halive (fun hshared => hsteps ?_) hdispatch
      · obtain ⟨hturn, hcovered'⟩ := dispatchOwners_turn hok' hdispatch
        have hok₁ := hturn.reactorOk hok' hcovered'
        obtain ⟨ctl, hsettles, hawaitable, howners⟩ := syncEvents_settles hok₁
          (by rwa [((hread.trans hwrite).trans hturn).keeps.handle]) hprocess
        refine hdone.of_fewer (fun slot hwaits => ?_) ?_ (hsettles.turn.keeps.live hok₁.regOk c)
        · rw [hsettles.awaiters] at hwaits
          rwa [plainWaits, ← hawaitable]
        · rw [hsettles.awaiters]
          exact howners ▸ Fewer.refl _
      · rwa [seeEvent_sequenceOwner, seeEvent_sequenceOwner] at hshared

omit [DecidableEq κ] in
lemma RegOk.registers_eq {file : EpollFile κ} (hok : RegOk s)
    (hhandle : (s.controllers c).handle = some fd) (hfile : s.files fd = some file)
    (hregisters : s.registers c slot = true) :
    ∃ mask, file.registration = some (mask, c) ∧ mask.has slot = true := by
  rw [registers, Option.any_eq_true] at hregisters
  obtain ⟨mask, hmask, hslot⟩ := hregisters
  exact ⟨mask, hok.kernel hhandle hmask hfile, hslot⟩

omit [DecidableEq κ] in
lemma LiveOn.arrive {file : EpollFile κ} {slot' : IOSlot} (h : LiveOn s c slot') (hok : RegOk s)
    (hfile : s.files fd = some file) :
    LiveOn (s.setFile fd (some (file.arrive slot))) c slot' := by
  intro fd' file' hhandle hfile' hready
  rw [setFile_controllers] at hhandle
  by_cases hfd : fd' = fd
  · subst hfd
    rw [setFile_self, Option.some.injEq] at hfile'
    subst hfile'
    by_cases hslot : slot' = slot
    · subst hslot
      cases hregisters : s.registers c slot' with
      | false => exact .inr (.inr hregisters)
      | true =>
        obtain ⟨mask, hregistration, hmask⟩ := hok.registers_eq hhandle hfile hregisters
        refine .inl ?_
        simp [EpollFile.arrive, hregistration, hmask]
    · have hready' : file.ready.has slot' := by
        simpa [EpollFile.arrive, EventMask.has_set_of_ne hslot] using hready
      rcases h hhandle hfile hready' with hedge | hlive
      · refine .inl ?_
        simp only [EpollFile.arrive]
        split
        · rwa [EventMask.has_set_of_ne hslot]
        · exact hedge
      · exact .inr hlive
  · rw [setFile_of_ne _ hfd] at hfile'
    exact h hhandle hfile' hready

omit [DecidableEq κ] in
lemma LiveOn.reported {file : EpollFile κ} {mask events : EventMask} {owner : κ} (h : LiveOn s c slot)
    (hok : RegOk s) (hfile : s.files fd = some file)
    (hregistration : file.registration = some (mask, owner))
    (hevents : file.edge.union events = events) :
    LiveOn (s.reported fd file owner events) c slot := by
  intro fd' file' hhandle hfile' hready
  have hhandle : (s.controllers c).handle = some fd' := hhandle
  have hkeep : ∀ {events'}, (c, events') ∈ s.events → (c, events') ∈ s.events ++ [(owner, events)] :=
    fun hmem => List.mem_append_left _ hmem
  by_cases hfd : fd' = fd
  · subst hfd
    have hfile' : some { file with edge := .empty } = some file' := (setFile_self _).symm.trans hfile'
    cases hfile'
    cases hregisters : s.registers c slot with
    | false => exact .inr (.inr hregisters)
    | true =>
      obtain ⟨mask', hregistration', -⟩ := hok.registers_eq hhandle hfile hregisters
      cases hregistration.symm.trans hregistration'
      rcases h hhandle hfile hready with hedge | ⟨events', hmem, hslot⟩ | hnot
      · refine .inr (.inl ⟨events, List.mem_append_right _ List.mem_cons_self, ?_⟩)
        rw [← hevents, EventMask.has_union, hedge, Bool.true_or]
      · exact .inr (.inl ⟨events', hkeep hmem, hslot⟩)
      · rw [hregisters] at hnot
        cases hnot
  · have hfile' : s.files fd' = some file' := (setFile_of_ne _ hfd).symm.trans hfile'
    rcases h hhandle hfile' hready with hedge | ⟨events', hmem, hslot⟩ | hnot
    · exact .inl hedge
    · exact .inr (.inl ⟨events', hkeep hmem, hslot⟩)
    · exact .inr (.inr hnot)

lemma Alive.wait {batch : List (Nat × EventMask)} (h : Alive s c unseen unseen')
    (hok : ReactorOk s) (hwait : s.wait batch = some s') : Alive s' c unseen unseen' := by
  induction batch generalizing s with
  | nil =>
    cases hwait
    exact h
  | cons report batch ih =>
    obtain ⟨file, mask, owner, hfile, hregistration, hevents, hwait⟩ := wait_cons hwait
    have hreported : Alive (s.reported report.1 file owner report.2) c unseen unseen' :=
      h.congr rfl fun _ hlive => hlive.reported hok.regOk hfile hregistration hevents
    exact ih hreported (hok.reported hfile owner report.2) hwait

lemma EdgesOk.flushed (hok : EdgesOk s) (h : Flushed s.pendingChanges s s') : EdgesOk s' :=
  ⟨hok.reactor.flushed h, fun c =>
    (hok.alive c).congr (h.awaiters c) (h.keeps.live hok.reactor.regOk c)⟩

lemma EdgesOk.poll {batch : List (Nat × EventMask)} (hok : EdgesOk s)
    (h : s.poll errors batch = some s') : EdgesOk s' := by
  unfold EpollReactor.poll at h
  split at h
  · cases h
  · next hflush =>
    cases h
    exact hok.flushed (flushPendingChanges_flushed hok.reactor.unique hflush)
  · next hflush =>
    have hflushed := hok.flushed (flushPendingChanges_flushed hok.reactor.unique hflush)
    exact ⟨hflushed.reactor.wait h, fun c => (hflushed.alive c).wait hflushed.reactor h⟩

lemma EdgesOk.arrive {file : EpollFile κ} (hok : EdgesOk s) (hfile : s.files fd = some file) :
    EdgesOk (s.setFile fd (some (file.arrive slot))) :=
  ⟨hok.reactor.arrive hfile, fun c =>
    (hok.alive c).congr rfl fun _ hlive => hlive.arrive hok.reactor.regOk hfile⟩

lemma EdgesOk.of_others (hok : EdgesOk s) (hreactor : ReactorOk s')
    (hothers : ∀ c, (s'.controllers c).isIdle ∨ s'.controllers c = s.controllers c ∧
      ∀ fd, (s.controllers c).handle = some fd → s'.files fd = s.files fd)
    (hevents : s'.events = s.events) : EdgesOk s' := by
  refine ⟨hreactor, fun c => ?_⟩
  rcases hothers c with hidle | ⟨hctl, hfiles⟩
  · exact alive_of_isIdle hidle
  · refine (hok.alive c).congr (by rw [hctl]) fun slot hlive fd file hhandle hfile hready => ?_
    rw [hctl] at hhandle
    rw [hfiles fd hhandle] at hfile
    rw [registers, hctl, hevents]
    exact hlive hhandle hfile hready

lemma EdgesOk.create (hok : EdgesOk s) (hfile : s.files fd = none) :
    EdgesOk ((s.setController c (.new fd)).setFile fd (some .opened)) := by
  refine hok.of_others (hok.reactor.create hfile) (fun c' => ?_) rfl
  rw [setFile_controllers]
  by_cases hc : c' = c
  · subst hc
    rw [setController_self]
    exact .inl rfl
  · refine .inr ⟨setController_of_ne _ hc, fun fd' hhandle => setFile_of_ne _ ?_⟩
    rintro rfl
    obtain ⟨file, hopened⟩ := hok.reactor.regOk.opened hhandle
    rw [hfile] at hopened
    cases hopened

lemma EdgesOk.close (hok : EdgesOk s) : EdgesOk (s.close c) := by
  cases hhandle : (s.controllers c).handle with
  | none =>
    rw [EpollReactor.close, hhandle]
    exact hok
  | some fd =>
    have hreactor := hok.reactor.close (c := c)
    rw [EpollReactor.close, hhandle] at hreactor ⊢
    refine hok.of_others hreactor (fun c' => ?_) rfl
    rw [setFile_controllers]
    by_cases hc : c' = c
    · subst hc
      rw [setController_self]
      exact .inl rfl
    · exact .inr ⟨setController_of_ne _ hc,
        fun fd' hhandle' => setFile_other hok.reactor.regOk hhandle hc hhandle'⟩

lemma EdgesOk.move (hok : EdgesOk s) (hc : c' ≠ c) (hidle : (s.controllers c).isIdle)
    (hregistered : (s.controllers c).registeredEvents = none) : EdgesOk (s.move c c') := by
  refine hok.of_others (hok.reactor.move hc hidle hregistered) (fun c'' => ?_) rfl
  unfold EpollReactor.move
  by_cases hself : c'' = c
  · subst hself
    rw [setController_self]
    exact .inl rfl
  · rw [setController_of_ne _ hself]
    by_cases hnew : c'' = c'
    · subst hnew
      rw [setController_self]
      exact .inl hidle
    · exact .inr ⟨setController_of_ne _ hnew, fun _ _ => rfl⟩

lemma edgesOk_init : EdgesOk (.init : EpollReactor κ) :=
  ⟨reactorOk_init, fun _ => alive_of_isIdle rfl⟩

/-- A file watcher may wait without trying to read: the descriptor is not ready, or an edge is
still to be reported or comes with the registration. -/
def watchable (s : EpollReactor κ) (c : κ) : Bool :=
  match (s.controllers c).handle.bind s.files with
  | none => true
  | some file => !file.ready.read || file.edge.read || !s.registers c .read

/-- A file watcher begins when it is safe to do so, a sequence waits only in the directions that it
has claimed, and a controller is moved only while it is not registered. -/
def keepsEdges (s : EpollReactor κ) (a : CtlErrors × EpollAction κ) : Bool :=
  match a.2 with
  | .move c _ => (s.controllers c).registeredEvents.isNone
  | .begin c type _ => type != .fileWatch || s.watchable c
  | .beginSequence _ domain steps => steps.all fun step => domain.usesSlot step.1.slot
  | .process _ _ readSteps writeSteps =>
    match s.events with
    | [] => true
    | (c, _) :: _ => (s.controllers c).sequenceOwner.isShared ||
      (readSteps.all (·.1.slot == .read) && writeSteps.all (·.1.slot == .write))
  | _ => true

omit [DecidableEq κ] in
lemma liveOn_of_watchable (h : s.watchable c) : LiveOn s c .read := by
  intro fd file hhandle hfile hready
  have hready : file.ready.read = true := hready
  simp only [watchable, hhandle, Option.bind_some, hfile, hready, Bool.not_true, Bool.false_or,
    Bool.or_eq_true, Bool.not_eq_true'] at h
  exact h.imp_right .inr

lemma EdgesOk.step {a : CtlErrors × EpollAction κ} (hok : EdgesOk s) (hkeeps : s.keepsEdges a)
    (h : s.step a = some s') : EdgesOk s' := by
  obtain ⟨errors, a⟩ := a
  have hreactor := hok.reactor
  cases step_steps h with
  | arrive fd slot file hfile => exact hok.arrive hfile
  | process c events rest read write readSteps writeSteps _ hevents h =>
    have hpopped : ReactorOk { s with events := rest } := hreactor.refile rfl rfl fun _ => rfl
    obtain ⟨hturn, hcovered⟩ := processEvent_turn hpopped h
    refine ⟨hturn.reactorOk hpopped hcovered, fun c' => ?_⟩
    by_cases hc : c' = c
    · subst hc
      refine processEvent_alive hpopped ((hok.alive c').pop hevents) (fun hshared => ?_) h
      simpa [keepsEdges, hevents, hshared] using hkeeps
    · exact ((hok.alive c').pop_other hc hevents).congr (hturn.other c' hc)
        (hturn.keeps.live hpopped.regOk c')
  | create c fd _ hfile => exact hok.create hfile
  | begin c type a _ _ h =>
    have hbegins := begin_begins hreactor h
    obtain ⟨hturn, hcovered⟩ := hbegins.turn (hreactor.covered c)
    refine hok.turn hturn hcovered (hbegins.alive (hok.alive c) hreactor.regOk ?_)
    rintro rfl
    exact liveOn_of_watchable hkeeps
  | beginSequence c domain steps _ _ h =>
    obtain ⟨hturn, hcovered⟩ := beginSequence_turn hreactor h
    refine hok.turn hturn hcovered (beginSequence_alive hreactor (hok.alive c) ?_ h)
    simpa [keepsEdges] using hkeeps
  | resume c slot =>
    exact hok.turn turn_removeAwaitable (hreactor.covered c).remove
      ((hok.alive c).setAwaitable hreactor.regOk fun _ ha => by cases ha)
  | resumeSequence c slot seq howner =>
    exact hok.turn (turn_withOwners _) ((hreactor.covered c).withOwners
      ((hreactor.covered c).handle_of_owner howner) fewer_release)
      ((hok.alive c).setOwners hreactor.regOk rfl rfl rfl fewer_release)
  | expire c slot =>
    refine hok.turn turn_wake (hreactor.covered c).wake
      ((hok.alive c).setAwaitable hreactor.regOk fun a ha => ?_)
    obtain ⟨awaitable, -, rfl⟩ := Option.map_eq_some_iff.mp ha
    rfl
  | expireSequence c slot active seq howner =>
    exact hok.turn (turn_wakeSequence _) ((hreactor.covered c).wakeSequence
      ((hreactor.covered c).handle_of_owner howner) rfl)
      ((hok.alive c).setOwners hreactor.regOk rfl rfl rfl (fewer_update rfl))
  | close c => exact hok.close
  | move c c' _ hc hidle => exact hok.move hc hidle (by simpa [keepsEdges] using hkeeps)
  | flush _ _ h => exact hok.flushed (flushPendingChanges_flushed hreactor.unique h)
  | poll batch _ _ h => exact hok.poll h

end EpollReactor

end GalayKernel

namespace GalayKernel.Proofs

open Transition EpollReactor

variable {κ : Type} [DecidableEq κ]

lemma reaches_edgesOk {s : EpollReactor κ}
    (h : Reaches step (fun s a => s.keepsEdges a) .init s) : EdgesOk s :=
  h.invariant (P := EdgesOk) edgesOk_init fun _ _ _ hok hkeeps hs => hok.step hkeeps hs

/-- When `epoll_wait` is about to block with all changes flushed, each direction that is ready and
in which a controller waits has a pending edge. -/
def EdgesPending (s : EpollReactor κ) : Prop :=
  s.pendingChanges = [] → s.events = [] → ∀ c slot, (s.controllers c).waits slot →
    ∀ fd file, (s.controllers c).handle = some fd → s.files fd = some file →
      file.ready.has slot → file.edge.has slot

theorem edges_pending {s : EpollReactor κ}
    (h : Reaches step (fun s a => s.keepsEdges a) .init s) : EdgesPending s := by
  intro hpending hevents c slot hwaits fd file hhandle hfile hready
  have hok := reaches_edgesOk h
  have hregisters : s.registers c slot = true := by
    have hwanted := (hok.reactor.covered c).wanted slot hwaits
    rwa [wants, wantsIn, hpending, List.lookup_nil, Option.none_or] at hwanted
  have hlive : LiveOn s c slot := by
    rcases EpollController.waits_iff.mp hwaits with hplain | ⟨os, seq, howner, hnot, hslot⟩
    · exact (hok.alive c).plain hplain EventMask.has_empty
    · exact (hok.alive c).sequence howner hnot hslot EventMask.has_empty
  rcases hlive hhandle hfile hready with hedge | ⟨events, hmem, -⟩ | hnot
  · exact hedge
  · rw [hevents] at hmem
    cases hmem
  · rw [hregisters] at hnot
    cases hnot

/-- A sequence reads on one connection and a file watcher is used on another. Data arrive for both
when they wait again. -/
def readsAndWatches : List (CtlErrors × EpollAction Bool) :=
  [(noErrors, .create false 3), (noErrors, .create true 4),
    (noErrors, .beginSequence true .read [(.recv, .blocked)]),
    (noErrors, .begin false .fileWatch .blocked), (noErrors, .flush),
    (noErrors, .arrive 3 .read), (noErrors, .arrive 4 .read),
    (noErrors, .poll [(3, ⟨true, false⟩), (4, ⟨true, false⟩)]),
    (noErrors, .process (.done false) .blocked [] []),
    (noErrors, .process .blocked .blocked [(.recv, .done false), (.recv, .blocked)] []),
    (noErrors, .resume false .read), (noErrors, .begin false .fileWatch .blocked), (noErrors, .flush),
    (noErrors, .arrive 3 .read), (noErrors, .arrive 4 .read)]

def afterReadsAndWatches : EpollReactor Bool := (run step .init readsAndWatches).getD .init

theorem readsAndWatches_edges_pending :
    (afterReadsAndWatches.pendingChanges = [] ∧ afterReadsAndWatches.events = [] ∧
      ∀ c, (afterReadsAndWatches.controllers c).waits .read) ∧ EdgesPending afterReadsAndWatches :=
  ⟨by decide, edges_pending
    (.of_run (fun s a => s.keepsEdges a) (fun _ _ h => h) readsAndWatches .start rfl)⟩

def watchedAgain : List (CtlErrors × EpollAction Bool) :=
  [(noErrors, .create false 3), (noErrors, .begin false .fileWatch .blocked), (noErrors, .flush),
    (noErrors, .arrive 3 .read), (noErrors, .poll [(3, ⟨true, false⟩)]),
    (noErrors, .process (.done true) .blocked [] []), (noErrors, .resume false .read),
    (noErrors, .begin false .fileWatch .blocked), (noErrors, .flush)]

/-- The second watcher finds the mask unchanged, and the edge has been consumed. -/
theorem watched_edge_can_be_lost : ¬∀ s : EpollReactor Bool,
    Reaches step (fun _ _ => True) .init s → EdgesPending s := by
  intro h
  have hedge := h _ (.of_replay watchedAgain .start rfl) rfl rfl false .read rfl 3 _ rfl rfl rfl
  cases hedge

end GalayKernel.Proofs
