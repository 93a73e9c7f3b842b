import GalayKernel.Proofs.EpollRegistration

namespace GalayKernel

namespace SequenceOwners

variable {owners owners' : SequenceOwners} {slot slot' : IOSlot} {seq seq' : EpollSequence}
  {domain : SequenceOwnerDomain}

lemma interest_has {os : IOSlot} (h : owners.owner os = some seq) (hwaits : seq.waitsOn slot) :
    owners.interest.has slot :=
  collectInterestMask_has.mpr ⟨os, seq, h, by cases slot <;> exact hwaits⟩

lemma owner_update {os : IOSlot} (h : (owners.update slot seq).owner os = some seq') :
    seq' = seq ∧ (owners.isShared = false → os = slot) ∨
      os ≠ slot ∧ owners.isShared = false ∧ owners.owner os = some seq' := by
  cases owners <;> cases slot <;> cases os <;> simp_all [update, owner, isShared]

@[simp] lemma isShared_update : (owners.update slot seq).isShared = owners.isShared := by
  cases owners <;> cases slot <;> rfl

@[simp] lemma update_update : (owners.update slot seq).update slot seq' = owners.update slot seq' := by
  cases owners <;> cases slot <;> rfl

lemma owner_claim {os : IOSlot} (hclaim : owners.claim domain seq = some owners')
    (h : owners'.owner os = some seq') :
    seq' = seq ∧ (owners'.isShared = false → ∀ slot, domain.usesSlot slot → slot = os) ∨
      owners.owner os = some seq' := by
  unfold claim at hclaim
  split at hclaim <;> cases hclaim <;> cases os <;>
    simp_all [owner, isShared, SequenceOwnerDomain.usesSlot]

/-- The sequences of `owners` that have not been woken are also in `owners'`. -/
def Fewer (owners owners' : SequenceOwners) : Prop :=
  ∀ ⦃os seq⦄, owners.owner os = some seq → seq.woken = false →
    owners'.owner os = some seq ∧ owners.isShared = owners'.isShared

lemma Fewer.refl (owners : SequenceOwners) : Fewer owners owners := fun _ _ h _ => ⟨h, rfl⟩

lemma fewer_update (hwoken : seq.woken = true) : Fewer (owners.update slot seq) owners := by
  intro os seq' h hnot
  rcases owner_update h with ⟨rfl, -⟩ | ⟨-, -, h⟩
  · rw [hwoken] at hnot
    cases hnot
  · exact ⟨h, isShared_update⟩

lemma fewer_release : Fewer (owners.release slot) owners := by
  intro os seq' h _
  cases owners <;> cases slot <;> cases os <;> simp_all [release, owner, isShared]

lemma fewer_claim (hclaim : owners.claim domain seq = some owners') : Fewer owners owners' := by
  intro os seq' h _
  unfold claim at hclaim
  split at hclaim <;> cases hclaim <;> cases os <;> simp_all [owner, isShared]

end SequenceOwners

namespace EpollController

variable {ctl : EpollController} {slot : IOSlot} {owners : SequenceOwners}

/-- A sequence that has not been woken waits in the direction. -/
def sequenceWaits (owners : SequenceOwners) (slot : IOSlot) : Prop :=
  ∃ os seq, owners.owner os = some seq ∧ seq.woken = false ∧ seq.waitsOn slot

def plainWaits (ctl : EpollController) (slot : IOSlot) : Prop :=
  ∃ awaitable, ctl.awaitable slot = some awaitable ∧ awaitable.woken = false

lemma sequenceWaits_of_fewer {owners' : SequenceOwners} (h : owners.Fewer owners')
    (hwaits : sequenceWaits owners slot) : sequenceWaits owners' slot := by
  obtain ⟨os, seq, howner, hnot, hslot⟩ := hwaits
  exact ⟨os, seq, (h howner hnot).1, hnot, hslot⟩

lemma waits_iff : ctl.waits slot ↔ ctl.plainWaits slot ∨ sequenceWaits ctl.sequenceOwner slot := by
  simp only [waits, Bool.or_eq_true, Option.any_eq_true, Bool.and_eq_true, Bool.not_eq_true',
    or_assoc, plainWaits, sequenceWaits]
  refine or_congr_right ⟨?_, ?_⟩
  · rintro (⟨seq, hseq⟩ | ⟨seq, hseq⟩)
    · exact ⟨.read, seq, hseq⟩
    · exact ⟨.write, seq, hseq⟩
  · rintro ⟨os, seq, hseq⟩
    cases os
    · exact .inl ⟨seq, hseq⟩
    · exact .inr ⟨seq, hseq⟩

/-- The interest mask has the directions in which the sequences wait. -/
def Interested (ctl : EpollController) : Prop :=
  ∀ slot, sequenceWaits ctl.sequenceOwner slot → ctl.sequenceInterestMask.has slot

lemma withOwners_interested (ctl : EpollController) (owners : SequenceOwners) :
    (ctl.withOwners owners).Interested := by
  rintro slot ⟨os, seq, howner, -, hwaits⟩
  exact SequenceOwners.interest_has howner hwaits

lemma buildEvents_has (h : ctl.Interested) (hwaits : ctl.waits slot) : ctl.buildEvents.has slot := by
  rw [waits_iff] at hwaits
  unfold buildEvents
  rcases hwaits with ⟨awaitable, hawaitable, -⟩ | hwaits
  · split <;> cases slot <;> simp [EventMask.has, EventMask.union, hawaitable]
  · have hinterest := h slot hwaits
    obtain ⟨os, seq, howner, -, -⟩ := hwaits
    have hsequence : ctl.hasSequence := by
      cases os <;> simp [hasSequence, howner]
    rw [if_pos hsequence, EventMask.has_union, hinterest, Bool.or_true]

lemma isIdle_iff : ctl.isIdle ↔ (∀ slot, ctl.awaitable slot = none) ∧
    ∀ slot, ctl.sequenceOwner.owner slot = none := by
  simp only [isIdle, hasSequence, Bool.and_eq_true, Option.isNone_iff_eq_none, Bool.not_eq_true',
    Bool.or_eq_false_iff, Option.isSome_eq_false_iff]
  constructor
  · rintro ⟨⟨hread, hwrite⟩, hreadOwner, hwriteOwner⟩
    exact ⟨fun slot => by cases slot <;> assumption, fun slot => by cases slot <;> assumption⟩
  · intro h
    exact ⟨⟨h.1 .read, h.1 .write⟩, h.2 .read, h.2 .write⟩

lemma not_waits_of_isIdle (h : ctl.isIdle) : ctl.waits slot = false := by
  rw [isIdle_iff] at h
  simp [waits, h.1, h.2]

lemma setAwaitable_self (awaitable : Option EpollAwaitable) :
    (ctl.setAwaitable slot awaitable).awaitable slot = awaitable := if_pos rfl

lemma setAwaitable_of_ne {slot' : IOSlot} (awaitable : Option EpollAwaitable) (h : slot' ≠ slot) :
    (ctl.setAwaitable slot awaitable).awaitable slot' = ctl.awaitable slot' := if_neg h

lemma plainWaits_fillAwaitable {type : IOEventType} (h : (ctl.fillAwaitable type).plainWaits slot) :
    slot = type.slot ∨ ctl.plainWaits slot := by
  by_cases hslot : slot = type.slot
  · exact .inl hslot
  · obtain ⟨awaitable, hawaitable, hnot⟩ := h
    rw [fillAwaitable, setAwaitable_of_ne _ hslot] at hawaitable
    exact .inr ⟨awaitable, hawaitable, hnot⟩

lemma plainWaits_setAwaitable {slot' : IOSlot} {awaitable : Option EpollAwaitable}
    (hwoken : ∀ a, awaitable = some a → a.woken = true)
    (h : (ctl.setAwaitable slot' awaitable).plainWaits slot) : slot ≠ slot' ∧ ctl.plainWaits slot := by
  obtain ⟨a, hawaitable, hnot⟩ := h
  have hslot : slot ≠ slot' := by
    rintro rfl
    rw [setAwaitable_self] at hawaitable
    rw [hwoken a hawaitable] at hnot
    cases hnot
  rw [setAwaitable_of_ne _ hslot] at hawaitable
  exact ⟨hslot, a, hawaitable, hnot⟩

end EpollController

namespace EpollReactor

open Coalesced EpollController

variable {κ : Type} {s s' s'' : EpollReactor κ} {errors : CtlErrors} {c c' : κ} {fd : Nat}
  {slot : IOSlot}

lemma attempt_eq (slot : IOSlot) (a : Attempt) :
    ∃ files, s.attempt c slot a = { s with files := files } := by
  unfold attempt
  split
  · exact ⟨s.files, rfl⟩
  · exact ⟨_, rfl⟩

lemma attempt_controllers (slot : IOSlot) (a : Attempt) :
    (s.attempt c slot a).controllers = s.controllers := by
  obtain ⟨files, hfiles⟩ := attempt_eq (s := s) (c := c) slot a
  rw [hfiles]

lemma attempt_files {a : Attempt} {file : EpollFile κ}
    (h : (s.attempt c slot a).files fd = some file) : ∃ file', s.files fd = some file' ∧
      file.registration = file'.registration ∧ file.edge = file'.edge ∧
      ∀ slot, file.ready.has slot → file'.ready.has slot := by
  unfold attempt at h
  split at h
  · exact ⟨file, h, rfl, rfl, fun _ => id⟩
  · next fd' hhandle =>
    by_cases hfd : fd = fd'
    · subst hfd
      rw [setFile_self, Option.map_eq_some_iff] at h
      obtain ⟨file', hfile, rfl⟩ := h
      refine ⟨file', hfile, by cases a <;> rfl, by cases a <;> rfl, fun slot' hready => ?_⟩
      by_cases hslot : slot' = slot
      · subst hslot
        cases a <;> simp_all [EpollFile.attempt]
      · cases a <;> simpa [EpollFile.attempt, EventMask.has_set_of_ne hslot] using hready
    · rw [setFile_of_ne _ hfd] at h
      exact ⟨file, h, rfl, rfl, fun _ => id⟩

lemma attempt_opened {a : Attempt} {file : EpollFile κ} (h : s.files fd = some file) :
    ∃ file', (s.attempt c slot a).files fd = some file' := by
  unfold attempt
  split
  · exact ⟨file, h⟩
  · next fd' hhandle =>
    by_cases hfd : fd = fd'
    · subst hfd
      rw [setFile_self, h]
      exact ⟨_, rfl⟩
    · rw [setFile_of_ne _ hfd]
      exact ⟨file, h⟩

variable [DecidableEq κ]

/-- A controller waits only for what it wants to be registered for, and not without a handle. -/
structure Covered (s : EpollReactor κ) (c : κ) : Prop where
  idle : (s.controllers c).handle = none → (s.controllers c).isIdle
  interested : (s.controllers c).Interested
  wanted : ∀ slot, (s.controllers c).waits slot → s.wants c slot

structure ReactorOk (s : EpollReactor κ) : Prop where
  regOk : RegOk s
  unique : Unique s.pendingChanges
  covered : ∀ c, Covered s c

lemma Covered.congr (h : Covered s c)
    (hctl : s'.controllers c =
      { s.controllers c with registeredEvents := (s'.controllers c).registeredEvents })
    (hwants : (s.controllers c).handle ≠ none → ∀ slot, s'.wants c slot = s.wants c slot) :
    Covered s' c := by
  refine ⟨?_, ?_, fun slot hwaits => ?_⟩
  · rw [hctl]
    exact h.idle
  · rw [hctl]
    exact h.interested
  · rw [hctl] at hwaits
    have hwaits : (s.controllers c).waits slot := hwaits
    rw [hwants (fun hnone => ?_) slot]
    · exact h.wanted slot hwaits
    · rw [not_waits_of_isIdle (h.idle hnone)] at hwaits
      cases hwaits

structure Turn (c : κ) (s s' : EpollReactor κ) : Prop where
  keeps : Keeps s s'
  unique : Unique s.pendingChanges → Unique s'.pendingChanges
  other : ∀ c', c' ≠ c → s'.controllers c' =
    { s.controllers c' with registeredEvents := (s'.controllers c').registeredEvents }
  wants : Unique s.pendingChanges → ∀ c' slot, c' ≠ c → (s.controllers c').handle ≠ none →
    s'.wants c' slot = s.wants c' slot

lemma Turn.refl (c : κ) (s : EpollReactor κ) : Turn c s s :=
  ⟨.refl s, id, fun _ _ => rfl, fun _ _ _ _ _ => rfl⟩

lemma Turn.trans (h : Turn c s s') (h' : Turn c s' s'') : Turn c s s'' where
  keeps := h.keeps.trans h'.keeps
  unique hunique := h'.unique (h.unique hunique)
  other c' hc := by rw [h'.other c' hc, h.other c' hc]
  wants hunique c' slot hc hhandle := by
    rw [h'.wants (h.unique hunique) c' slot hc (by rwa [h.keeps.handle]),
      h.wants hunique c' slot hc hhandle]

lemma Turn.reactorOk (h : Turn c s s') (hok : ReactorOk s) (hcovered : Covered s' c) :
    ReactorOk s' := by
  refine ⟨h.keeps.regOk hok.regOk, h.unique hok.unique, fun c' => ?_⟩
  by_cases hc : c' = c
  · exact hc ▸ hcovered
  · exact (hok.covered c').congr (h.other c' hc)
      fun hhandle slot => h.wants hok.unique c' slot hc hhandle

lemma wants_congr (hpending : s'.pendingChanges = s.pendingChanges)
    (hregistered : (s'.controllers c).registeredEvents = (s.controllers c).registeredEvents) :
    s'.wants c = s.wants c := by
  funext slot
  rw [wants, wants, wantsIn, wantsIn, hpending, hregistered]

lemma turn_setController {ctl : EpollController} (hhandle : ctl.handle = (s.controllers c).handle)
    (hregistered : ctl.registeredEvents = (s.controllers c).registeredEvents) :
    Turn c s (s.setController c ctl) := by
  have hhandles : ∀ c', ((s.setController c ctl).controllers c').handle =
      (s.controllers c').handle := by
    intro c'
    by_cases hc : c' = c
    · subst hc
      rw [setController_self, hhandle]
    · rw [setController_of_ne ctl hc]
  have hmasks : ∀ c', ((s.setController c ctl).controllers c').registeredEvents =
      (s.controllers c').registeredEvents := by
    intro c'
    by_cases hc : c' = c
    · subst hc
      rw [setController_self, hregistered]
    · rw [setController_of_ne ctl hc]
  refine ⟨⟨hhandles, rfl, fun hok => ⟨fun {c' fd} h => ?_, fun {c₁ c₂ fd} h₁ h₂ => ?_,
    fun {c' fd events file} h hregistered' hfile => ?_⟩, fun _ c' slot h => ?_⟩, id,
    fun c' hc => ?_, fun _ c' slot hc _ => ?_⟩
  · rw [hhandles] at h
    exact hok.opened h
  · rw [hhandles] at h₁ h₂
    exact hok.own h₁ h₂
  · rw [hhandles] at h
    rw [hmasks] at hregistered'
    exact hok.kernel h hregistered' hfile
  · intro fd file hhandle' hfile hready
    rw [hhandles] at hhandle'
    rw [registers, hmasks]
    exact h hhandle' hfile hready
  · rw [setController_of_ne ctl hc]
  · have hwants : (s.setController c ctl).wants c' = s.wants c' := wants_congr rfl (hmasks c')
    rw [hwants]

lemma turn_attempt (a : Attempt) : Turn c s (s.attempt c slot a) := by
  obtain ⟨files, hfiles⟩ := attempt_eq (s := s) (c := c) slot a
  have hevents : (s.attempt c slot a).events = s.events := by rw [hfiles]
  refine ⟨⟨fun _ => by rw [attempt_controllers], hevents,
    fun hok => ⟨fun {c' fd} h => ?_, fun {c₁ c₂ fd} h₁ h₂ => ?_,
    fun {c' fd events file} h hregistered hfile => ?_⟩, fun _ c' slot h => ?_⟩, ?_,
    fun c' _ => by rw [attempt_controllers], fun _ c' slot _ _ => ?_⟩
  · rw [attempt_controllers] at h
    obtain ⟨file, hfile⟩ := hok.opened h
    exact attempt_opened hfile
  · rw [attempt_controllers] at h₁ h₂
    exact hok.own h₁ h₂
  · rw [attempt_controllers] at h hregistered
    obtain ⟨file', hfile', hregistration, -⟩ := attempt_files hfile
    rw [hregistration]
    exact hok.kernel h hregistered hfile'
  · intro fd file hhandle hfile hready
    rw [attempt_controllers] at hhandle
    obtain ⟨file', hfile', -, hedge, hready'⟩ := attempt_files hfile
    rw [registers, attempt_controllers, hevents, hedge]
    exact h hhandle hfile' (hready' _ hready)
  · rw [hfiles]
    exact id
  · rw [hfiles]
    rfl

lemma Applies.turn {events : EventMask} (h : Unique s.pendingChanges → Applies s c events s') :
    Unique s.pendingChanges → Turn c s s' := by
  intro hunique
  have happlies := h hunique
  exact ⟨happlies.keeps, fun _ => happlies.unique, fun c' _ => happlies.awaiters c',
    fun _ c' slot hc hhandle => happlies.other c' slot hc hhandle⟩

lemma register_covered {ok : Bool} (hunique : Unique s.pendingChanges)
    (hhandle : (s.controllers c).handle ≠ none) (hinterested : (s.controllers c).Interested)
    (h : s.register errors c = some (s', ok)) : Turn c s s' ∧ Covered s' c := by
  have happlies := applyEvents_applies hunique hhandle h
  have hctl := happlies.awaiters c
  refine ⟨Applies.turn (fun _ => happlies) hunique, ?_, ?_, fun slot hwaits => ?_⟩
  · rw [hctl]
    exact fun hnone => absurd hnone hhandle
  · rw [hctl]
    exact hinterested
  · rw [hctl] at hwaits
    rw [happlies.self]
    exact buildEvents_has hinterested hwaits

lemma Covered.setController {ctl : EpollController} (h : Covered s c)
    (hhandle : ctl.handle = (s.controllers c).handle)
    (hregistered : ctl.registeredEvents = (s.controllers c).registeredEvents)
    (hidle : (s.controllers c).handle = none → ctl.isIdle) (hinterested : ctl.Interested)
    (hwaits : ∀ slot, ctl.waits slot → (s.controllers c).waits slot) :
    Covered (s.setController c ctl) c := by
  refine ⟨?_, ?_, fun slot => ?_⟩
  · rw [setController_self, hhandle]
    exact hidle
  · rw [setController_self]
    exact hinterested
  · have hwants : (s.setController c ctl).wants c = s.wants c :=
      wants_congr rfl (by rw [setController_self, hregistered])
    rw [setController_self, hwants]
    exact fun h' => h.wanted slot (hwaits slot h')

lemma Covered.attempt (h : Covered s c) (a : Attempt) : Covered (s.attempt c slot a) c := by
  obtain ⟨files, hfiles⟩ := attempt_eq (s := s) (c := c) slot a
  rw [hfiles]
  exact h.congr rfl fun _ _ => rfl

lemma Covered.setAwaitable {awaitable : Option EpollAwaitable} (h : Covered s c)
    (hwoken : ∀ a, awaitable = some a → a.woken = true)
    (hidle : (s.controllers c).handle = none → awaitable = none) :
    Covered (s.setController c ((s.controllers c).setAwaitable slot awaitable)) c := by
  refine h.setController rfl rfl (fun hnone => ?_) h.interested fun slot' hwaits => ?_
  · have hctl := isIdle_iff.mp (h.idle hnone)
    refine isIdle_iff.mpr ⟨fun slot' => ?_, hctl.2⟩
    by_cases hslot : slot' = slot
    · subst hslot
      rw [setAwaitable_self, hidle hnone]
    · rw [setAwaitable_of_ne _ hslot]
      exact hctl.1 slot'
  · rw [waits_iff] at hwaits ⊢
    exact hwaits.imp_left fun hplain => (plainWaits_setAwaitable hwoken hplain).2

lemma Covered.wake (h : Covered s c) :
    Covered (s.setController c ((s.controllers c).wake slot)) c := by
  refine h.setAwaitable (fun a ha => ?_) fun hnone => ?_
  · obtain ⟨a', -, rfl⟩ := Option.map_eq_some_iff.mp ha
    rfl
  · rw [(isIdle_iff.mp (h.idle hnone)).1 slot]
    rfl

lemma Covered.remove (h : Covered s c) :
    Covered (s.setController c ((s.controllers c).removeAwaitable slot)) c :=
  h.setAwaitable (fun _ ha => by cases ha) fun _ => rfl

lemma Covered.withOwners {owners : SequenceOwners} (h : Covered s c)
    (hhandle : (s.controllers c).handle ≠ none)
    (hfewer : owners.Fewer (s.controllers c).sequenceOwner) :
    Covered (s.setController c ((s.controllers c).withOwners owners)) c := by
  refine h.setController rfl rfl (fun hnone => absurd hnone hhandle) (withOwners_interested _ _)
    fun slot hwaits => ?_
  rw [waits_iff] at hwaits ⊢
  exact hwaits.imp_right (sequenceWaits_of_fewer hfewer)

lemma Covered.wakeSequence {seq : EpollSequence} (h : Covered s c)
    (hhandle : (s.controllers c).handle ≠ none) (hwoken : seq.woken = true) :
    Covered (s.setController c { s.controllers c with
      sequenceOwner := (s.controllers c).sequenceOwner.update slot seq }) c := by
  have hfewer : ((s.controllers c).sequenceOwner.update slot seq).Fewer
      (s.controllers c).sequenceOwner := SequenceOwners.fewer_update hwoken
  refine h.setController rfl rfl (fun hnone => absurd hnone hhandle) (fun slot' hwaits => ?_)
    fun slot' hwaits => ?_
  · exact h.interested slot' (sequenceWaits_of_fewer hfewer hwaits)
  · rw [waits_iff] at hwaits ⊢
    exact hwaits.imp_right (sequenceWaits_of_fewer hfewer)

lemma turn_removeAwaitable :
    Turn c s (s.setController c ((s.controllers c).removeAwaitable slot)) :=
  turn_setController rfl rfl

lemma turn_wake : Turn c s (s.setController c ((s.controllers c).wake slot)) :=
  turn_setController rfl rfl

lemma turn_wakeSequence (seq : EpollSequence) : Turn c s (s.setController c { s.controllers c with
    sequenceOwner := (s.controllers c).sequenceOwner.update slot seq }) :=
  turn_setController rfl rfl

lemma turn_withOwners (owners : SequenceOwners) :
    Turn c s (s.setController c ((s.controllers c).withOwners owners)) :=
  turn_setController rfl rfl

structure Settles (c : κ) (ctl : EpollController) (s s' : EpollReactor κ) : Prop where
  turn : Turn c s s'
  covered : Covered s' c
  awaiters : s'.controllers c =
    { ctl with registeredEvents := (s'.controllers c).registeredEvents }

lemma register_settles {ctl : EpollController} {ok : Bool}
    (h : (s.setController c ctl).register errors c = some (s', ok))
    (hunique : Unique s.pendingChanges) (hhandle : ctl.handle = (s.controllers c).handle)
    (hregistered : ctl.registeredEvents = (s.controllers c).registeredEvents)
    (hopen : (s.controllers c).handle ≠ none) (hinterested : ctl.Interested) :
    Settles c ctl s s' := by
  have hset : Turn c s (s.setController c ctl) := turn_setController hhandle hregistered
  have hopen' : ((s.setController c ctl).controllers c).handle ≠ none := by
    rwa [setController_self, hhandle]
  obtain ⟨hturn, hcovered⟩ :=
    register_covered (hset.unique hunique) hopen' (by rwa [setController_self]) h
  refine ⟨hset.trans hturn, hcovered, ?_⟩
  have hctl := (applyEvents_applies (hset.unique hunique) hopen' h).awaiters c
  rwa [setController_self] at hctl

lemma registerOr_settles {ctl : EpollController} {undo : EpollController → EpollController}
    (h : (s.setController c ctl).registerOr errors c undo = some s')
    (hunique : Unique s.pendingChanges) (hhandle : ctl.handle = (s.controllers c).handle)
    (hregistered : ctl.registeredEvents = (s.controllers c).registeredEvents)
    (hopen : (s.controllers c).handle ≠ none) (hinterested : ctl.Interested) :
    ∃ s₁, Settles c ctl s s₁ ∧ (s' = s₁ ∨ s' = s₁.setController c (undo (s₁.controllers c))) := by
  unfold registerOr at h
  split at h
  · cases h
  · next s₁ hregister =>
    cases h
    exact ⟨_, register_settles hregister hunique hhandle hregistered hopen hinterested, .inl rfl⟩
  · next s₁ hregister =>
    cases h
    exact ⟨s₁, register_settles hregister hunique hhandle hregistered hopen hinterested, .inr rfl⟩

/-- What `begin` can do. A file watcher does not try its operation first. -/
inductive Begins (c : κ) (type : IOEventType) (s : EpollReactor κ) : EpollReactor κ → Prop where
  | refused : Begins c type s s
  | done (a : Attempt) : Begins c type s (s.attempt c type.slot a)
  | waits (tried s₁ : EpollReactor κ)
      (htried : tried = s ∧ type = .fileWatch ∨ tried = s.attempt c type.slot .blocked)
      (hsettles : Settles c ((s.controllers c).fillAwaitable type) tried s₁) : Begins c type s s₁
  | undone (tried s₁ : EpollReactor κ)
      (htried : tried = s ∧ type = .fileWatch ∨ tried = s.attempt c type.slot .blocked)
      (hsettles : Settles c ((s.controllers c).fillAwaitable type) tried s₁) :
      Begins c type s (s₁.setController c ((s₁.controllers c).removeAwaitable type.slot))

lemma begin_begins {type : IOEventType} {a : Attempt} (hok : ReactorOk s)
    (h : s.begin errors c type a = some s') : Begins c type s s' := by
  unfold begin at h
  dsimp only at h
  split at h
  · cases h
    exact .refused
  · next hfree =>
    have hopen : (s.controllers c).handle ≠ none := by
      intro hnone
      simp [hnone] at hfree
    split at h
    · cases h
      exact .done a
    · next hblocked =>
      have htried : ∃ tried, (if type = .fileWatch then s else s.attempt c type.slot a) = tried ∧
          (tried = s ∧ type = .fileWatch ∨ tried = s.attempt c type.slot .blocked) := by
        refine ⟨_, rfl, ?_⟩
        by_cases hwatch : type = .fileWatch
        · exact .inl ⟨if_pos hwatch, hwatch⟩
        · have ha : a = .blocked := by simpa [hwatch] using hblocked
          rw [if_neg hwatch, ha]
          exact .inr rfl
      obtain ⟨tried, htried, hcases⟩ := htried
      rw [htried] at h
      have hturn : tried.controllers = s.controllers ∧ Turn c s tried := by
        rcases hcases with ⟨rfl, -⟩ | rfl
        · exact ⟨rfl, .refl c tried⟩
        · exact ⟨attempt_controllers _ _, turn_attempt _⟩
      obtain ⟨s₁, hsettles, rfl | rfl⟩ := registerOr_settles h (hturn.2.unique hok.unique)
        (by rw [hturn.1]; rfl) (by rw [hturn.1]; rfl) (by rwa [hturn.1]) (hok.covered c).interested
      · exact .waits tried _ hcases hsettles
      · exact .undone tried s₁ hcases hsettles

lemma turn_tried {tried : EpollReactor κ} {type : IOEventType}
    (htried : tried = s ∧ type = .fileWatch ∨ tried = s.attempt c type.slot .blocked) :
    Turn c s tried := by
  rcases htried with ⟨rfl, -⟩ | rfl
  · exact .refl c tried
  · exact turn_attempt _

lemma Begins.turn {type : IOEventType} (h : Begins c type s s') (hcovered : Covered s c) :
    Turn c s s' ∧ Covered s' c := by
  cases h with
  | refused => exact ⟨.refl c s, hcovered⟩
  | done a => exact ⟨turn_attempt a, hcovered.attempt a⟩
  | waits tried _ htried hsettles =>
    exact ⟨(turn_tried htried).trans hsettles.turn, hsettles.covered⟩
  | undone tried s₁ htried hsettles =>
    exact ⟨((turn_tried htried).trans hsettles.turn).trans turn_removeAwaitable,
      hsettles.covered.remove⟩

lemma runSteps_turn (steps : List (IOEventType × Attempt)) : Turn c s (s.runSteps c steps).1 := by
  induction steps generalizing s with
  | nil => exact .refl c s
  | cons step steps ih =>
    obtain ⟨type, a⟩ := step
    rw [runSteps]
    split
    · exact ih
    · split
      · exact turn_attempt a
      · exact (turn_attempt a).trans ih

omit [DecidableEq κ] in
lemma runSteps_eq (steps : List (IOEventType × Attempt)) :
    ∃ files, (s.runSteps c steps).1 = { s with files := files } := by
  induction steps generalizing s with
  | nil => exact ⟨s.files, rfl⟩
  | cons step steps ih =>
    obtain ⟨type, a⟩ := step
    obtain ⟨files, hfiles⟩ := attempt_eq (s := s) (c := c) type.slot a
    rw [runSteps]
    split
    · exact ih
    · split
      · exact ⟨files, hfiles⟩
      · obtain ⟨files', hfiles'⟩ := ih (s := s.attempt c type.slot a)
        rw [hfiles', hfiles]
        exact ⟨files', rfl⟩

omit [DecidableEq κ] in
lemma runSteps_controllers (steps : List (IOEventType × Attempt)) :
    (s.runSteps c steps).1.controllers = s.controllers := by
  obtain ⟨files, hfiles⟩ := runSteps_eq (s := s) (c := c) steps
  rw [hfiles]

lemma Covered.runSteps (h : Covered s c) (steps : List (IOEventType × Attempt)) :
    Covered (s.runSteps c steps).1 c := by
  obtain ⟨files, hfiles⟩ := runSteps_eq (s := s) (c := c) steps
  rw [hfiles]
  exact h.congr rfl fun _ _ => rfl

/-- What a sequence does that makes `steps`: it ends with the owners `stopped`, it waits with the
owners `started`, or its controller cannot be registered and the owners are `undone`. -/
inductive Advances (c : κ) (steps : List (IOEventType × Attempt))
    (stopped started undone : SequenceOwners) (s : EpollReactor κ) : EpollReactor κ → Prop where
  | ended : Advances c steps stopped started undone s
      ((s.runSteps c steps).1.setController c ((s.controllers c).withOwners stopped))
  | waits (type : IOEventType) (s₁ : EpollReactor κ) (htype : (s.runSteps c steps).2 = some type)
      (hsettles : Settles c ((s.controllers c).withOwners started) (s.runSteps c steps).1 s₁) :
      Advances c steps stopped started undone s s₁
  | failed (type : IOEventType) (s₁ : EpollReactor κ) (htype : (s.runSteps c steps).2 = some type)
      (hsettles : Settles c ((s.controllers c).withOwners started) (s.runSteps c steps).1 s₁) :
      Advances c steps stopped started undone s
        (s₁.setController c ((s₁.controllers c).withOwners undone))

section Advances

variable {steps : List (IOEventType × Attempt)} {stopped started undone : SequenceOwners}

lemma advances_of_run (hok : ReactorOk s) (hopen : (s.controllers c).handle ≠ none)
    (h : (if (s.runSteps c steps).2.isNone then
        some ((s.runSteps c steps).1.setController c ((s.controllers c).withOwners stopped))
      else ((s.runSteps c steps).1.setController c
        ((s.controllers c).withOwners started)).registerOr errors c (·.withOwners undone)) =
      some s') : Advances c steps stopped started undone s s' := by
  have hctl := runSteps_controllers (s := s) (c := c) steps
  split at h
  · cases h
    exact .ended
  · next hwaits =>
    obtain ⟨type, htype⟩ := Option.ne_none_iff_exists'.mp (mt Option.isNone_iff_eq_none.mpr hwaits)
    obtain ⟨s₁, hsettles, rfl | rfl⟩ := registerOr_settles h
      ((runSteps_turn steps).unique hok.unique) (by rw [hctl]; rfl) (by rw [hctl]; rfl)
      (by rwa [hctl]) (withOwners_interested _ _)
    · exact .waits type _ htype hsettles
    · exact .failed type s₁ htype hsettles

lemma Advances.turn (h : Advances c steps stopped started undone s s') (hcovered : Covered s c)
    (hopen : (s.controllers c).handle ≠ none)
    (hstopped : stopped.Fewer (s.controllers c).sequenceOwner) (hundone : undone.Fewer started) :
    Turn c s s' ∧ Covered s' c := by
  have hsteps := runSteps_turn (s := s) (c := c) steps
  cases h with
  | ended =>
    have hdone := hcovered.runSteps steps
    rw [← runSteps_controllers (c := c) steps] at hopen hstopped ⊢
    exact ⟨hsteps.trans (turn_withOwners _), hdone.withOwners hopen hstopped⟩
  | waits type _ _ hsettles => exact ⟨hsteps.trans hsettles.turn, hsettles.covered⟩
  | failed type s₁ _ hsettles =>
    have hturn := hsteps.trans hsettles.turn
    refine ⟨hturn.trans (turn_withOwners _), hsettles.covered.withOwners ?_ ?_⟩
    · rwa [hturn.keeps.handle]
    · rw [hsettles.awaiters]
      exact hundone

end Advances

lemma beginSequence_advances {domain : SequenceOwnerDomain} {steps : List (IOEventType × Attempt)}
    (hok : ReactorOk s) (h : s.beginSequence errors c domain steps = some s') :
    s' = s ∨ (s.controllers c).handle ≠ none ∧ ∃ owners,
      (s.controllers c).sequenceOwner.claim domain ⟨(s.runSteps c steps).2, false⟩ = some owners ∧
      Advances c steps (s.controllers c).sequenceOwner owners (s.controllers c).sequenceOwner s s' := by
  unfold beginSequence at h
  dsimp only at h
  split at h
  · cases h
    exact .inl rfl
  · next hfree =>
    have hopen : (s.controllers c).handle ≠ none := by
      intro hnone
      simp [hnone] at hfree
    split at h
    · cases h
      exact .inl rfl
    · next owners hclaim => exact .inr ⟨hopen, owners, hclaim, advances_of_run hok hopen h⟩

lemma beginSequence_turn {domain : SequenceOwnerDomain} {steps : List (IOEventType × Attempt)}
    (hok : ReactorOk s) (h : s.beginSequence errors c domain steps = some s') :
    Turn c s s' ∧ Covered s' c := by
  rcases beginSequence_advances hok h with rfl | ⟨hopen, owners, hclaim, hadvances⟩
  · exact ⟨.refl c s', hok.covered c⟩
  · exact hadvances.turn (hok.covered c) hopen (SequenceOwners.Fewer.refl _)
      (SequenceOwners.fewer_claim hclaim)

lemma Covered.handle_ne_none (h : Covered s c) (hidle : (s.controllers c).isIdle = false) :
    (s.controllers c).handle ≠ none := by
  intro hnone
  rw [h.idle hnone] at hidle
  cases hidle

lemma Covered.handle_of_owner {seq : EpollSequence} (h : Covered s c)
    (howner : (s.controllers c).sequenceOwner.owner slot = some seq) :
    (s.controllers c).handle ≠ none := by
  intro hnone
  have hidle := (isIdle_iff.mp (h.idle hnone)).2 slot
  rw [howner] at hidle
  cases hidle

lemma completeAwaitableAndWake_turn (slot : IOSlot) (a : Attempt) (h : Covered s c) :
    Turn c s (s.completeAwaitableAndWake c slot a) ∧
      Covered (s.completeAwaitableAndWake c slot a) c := by
  unfold completeAwaitableAndWake
  split
  · exact ⟨.refl c s, h⟩
  · split
    · exact ⟨turn_attempt a, h.attempt a⟩
    · have hctl := attempt_controllers (s := s) (c := c) slot a
      rw [← hctl]
      exact ⟨(turn_attempt a).trans turn_wake, (h.attempt a).wake⟩

lemma dispatchOwner_advances {steps : List (IOEventType × Attempt)} (hok : ReactorOk s)
    (h : s.dispatchOwner errors c slot steps = some s') :
    (s.controllers c).sequenceOwner.owner slot = none ∧ s' = s ∨
      ∃ seq, (s.controllers c).sequenceOwner.owner slot = some seq ∧
        Advances c steps ((s.controllers c).sequenceOwner.update slot ⟨none, true⟩)
          ((s.controllers c).sequenceOwner.update slot
            { seq with active := (s.runSteps c steps).2 })
          ((s.controllers c).sequenceOwner.update slot ⟨(s.runSteps c steps).2, true⟩) s s' := by
  unfold dispatchOwner at h
  dsimp only at h
  split at h
  · next howner =>
    cases h
    exact .inl ⟨howner, rfl⟩
  · next seq howner =>
    split at h
    · cases h
    · rw [SequenceOwners.update_update] at h
      exact .inr ⟨seq, howner, advances_of_run hok ((hok.covered c).handle_of_owner howner) h⟩

lemma dispatchOwner_turn {steps : List (IOEventType × Attempt)} (hok : ReactorOk s)
    (h : s.dispatchOwner errors c slot steps = some s') : Turn c s s' ∧ Covered s' c := by
  rcases dispatchOwner_advances hok h with ⟨-, rfl⟩ | ⟨seq, howner, hadvances⟩
  · exact ⟨.refl c s', hok.covered c⟩
  · refine hadvances.turn (hok.covered c) ((hok.covered c).handle_of_owner howner)
      (SequenceOwners.fewer_update rfl) ?_
    rw [← SequenceOwners.update_update]
    exact SequenceOwners.fewer_update rfl

lemma syncEvents_settles (hok : ReactorOk s) (hhandle : (s.controllers c).handle ≠ none)
    (h : s.syncEvents errors c = some s') : ∃ ctl, Settles c ctl s s' ∧
      ctl.awaitable = (s.controllers c).awaitable ∧
      ctl.sequenceOwner = (s.controllers c).sequenceOwner := by
  unfold syncEvents at h
  dsimp only at h
  split at h
  · cases h
  · next hregister =>
    cases h
    split at hregister
    · exact ⟨_, register_settles hregister hok.unique rfl rfl hhandle (withOwners_interested _ _),
        rfl, rfl⟩
    · have happlies := applyEvents_applies hok.unique hhandle hregister
      obtain ⟨hturn, hcovered⟩ :=
        register_covered hok.unique hhandle (hok.covered c).interested hregister
      exact ⟨s.controllers c, ⟨hturn, hcovered, happlies.awaiters c⟩, rfl, rfl⟩

lemma dispatchOwners_turn {events : EventMask} {readSteps writeSteps : List (IOEventType × Attempt)}
    (hok : ReactorOk s) (h : s.dispatchOwners errors c events readSteps writeSteps = some s') :
    Turn c s s' ∧ Covered s' c := by
  unfold dispatchOwners at h
  dsimp only at h
  split at h
  · cases h
  · next s₁ hread =>
    have hturn : Turn c s s₁ ∧ Covered s₁ c := by
      split at hread
      · exact dispatchOwner_turn hok hread
      · cases hread
        exact ⟨.refl c s, hok.covered c⟩
    split at h
    · obtain ⟨hturn', hcovered⟩ := dispatchOwner_turn (hturn.1.reactorOk hok hturn.2) h
      exact ⟨hturn.1.trans hturn', hcovered⟩
    · cases h
      exact hturn

lemma seeEvent_turn (event : Bool) (slot : IOSlot) (a : Attempt) (h : Covered s c) :
    Turn c s (if event then s.completeAwaitableAndWake c slot a else s) ∧
      Covered (if event then s.completeAwaitableAndWake c slot a else s) c := by
  cases event with
  | true => exact completeAwaitableAndWake_turn slot a h
  | false => exact ⟨.refl c s, h⟩

lemma processEvent_turn {events : EventMask} {read write : Attempt}
    {readSteps writeSteps : List (IOEventType × Attempt)} (hok : ReactorOk s)
    (h : s.processEvent errors c events read write readSteps writeSteps = some s') :
    Turn c s s' ∧ Covered s' c := by
  unfold processEvent at h
  dsimp only at h
  split at h
  · cases h
    exact ⟨.refl c s, hok.covered c⟩
  · next hidle =>
    have hhandle := (hok.covered c).handle_ne_none (by simpa using hidle)
    split at h
    · cases h
    · next s₁ hdispatch =>
      obtain ⟨hread, hcovered⟩ := seeEvent_turn events.read .read read (hok.covered c)
      obtain ⟨hwrite, hcovered⟩ := seeEvent_turn events.write .write write hcovered
      have hplain := hread.trans hwrite
      have hok' := hplain.reactorOk hok hcovered
      obtain ⟨hturn, hcovered'⟩ := dispatchOwners_turn hok' hdispatch
      have hboth := hplain.trans hturn
      obtain ⟨ctl, hsettles, -⟩ := syncEvents_settles (hturn.reactorOk hok' hcovered')
        (by rwa [hboth.keeps.handle]) h
      exact ⟨hboth.trans hsettles.turn, hsettles.covered⟩

end EpollReactor

end GalayKernel
