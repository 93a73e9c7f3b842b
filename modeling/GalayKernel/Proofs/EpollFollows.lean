import GalayKernel.Proofs.EpollTurns
import GalayKernel.Lib.Transition

/-!
# Registrations follow their controllers

When the queue of changes is empty, the kernel has each controller that waits registered for the
direction, with the controller as its data, as long as a controller is moved only while it is not
registered. A move copies the mask that the controller remembers, but the kernel keeps the old
address, and the next operation finds the mask unchanged and does not register.
-/

namespace GalayKernel

namespace EpollReactor

open Coalesced EpollController

variable {κ : Type} [DecidableEq κ] {s s' : EpollReactor κ} {errors : CtlErrors} {c c' : κ}
  {fd : Nat} {slot : IOSlot}

lemma covered_of_isIdle (h : (s.controllers c).isIdle) : Covered s c := by
  have hctl := isIdle_iff.mp h
  refine ⟨fun _ => h, ?_, fun slot hwaits => ?_⟩
  · rintro slot ⟨os, seq, howner, -⟩
    rw [hctl.2 os] at howner
    cases howner
  · rw [not_waits_of_isIdle h] at hwaits
    cases hwaits

lemma ReactorOk.refile (hok : ReactorOk s) (hcontrollers : s'.controllers = s.controllers)
    (hpending : s'.pendingChanges = s.pendingChanges)
    (hfiles : ∀ fd, (s'.files fd).map (·.registration) = (s.files fd).map (·.registration)) :
    ReactorOk s' := by
  refine ⟨⟨fun {c fd} h => ?_, fun {c c' fd} h h' => ?_,
    fun {c fd events file} h hregistered hfile => ?_⟩, ?_, fun c => ?_⟩
  · rw [hcontrollers] at h
    obtain ⟨file, hfile⟩ := hok.regOk.opened h
    have hmap := hfiles fd
    rw [hfile, Option.map_some, Option.map_eq_some_iff] at hmap
    obtain ⟨file', hfile', -⟩ := hmap
    exact ⟨file', hfile'⟩
  · rw [hcontrollers] at h h'
    exact hok.regOk.own h h'
  · rw [hcontrollers] at h hregistered
    have hmap := hfiles fd
    rw [hfile, Option.map_some, eq_comm, Option.map_eq_some_iff] at hmap
    obtain ⟨file', hfile', heq⟩ := hmap
    rw [← heq]
    exact hok.regOk.kernel h hregistered hfile'
  · rw [hpending]
    exact hok.unique
  · refine (hok.covered c).congr (by rw [hcontrollers]) fun _ slot => ?_
    rw [wants_congr hpending (by rw [hcontrollers])]

lemma ReactorOk.flushed (hok : ReactorOk s) (h : Flushed s.pendingChanges s s') : ReactorOk s' :=
  ⟨h.keeps.regOk hok.regOk, h.unique, fun c => (hok.covered c).congr (h.awaiters c)
    fun hhandle slot => h.wants c slot hhandle⟩

/-- The edges of a descriptor become an event. -/
def reported (s : EpollReactor κ) (fd : Nat) (file : EpollFile κ) (owner : κ) (events : EventMask) :
    EpollReactor κ :=
  { s.setFile fd (some { file with edge := .empty }) with
    events := s.events ++ [(owner, events)] }

omit [DecidableEq κ] in
lemma wait_cons {events : EventMask} {batch : List (Nat × EventMask)}
    (h : s.wait ((fd, events) :: batch) = some s') : ∃ file mask owner,
      s.files fd = some file ∧ file.registration = some (mask, owner) ∧
      file.edge.union events = events ∧ (s.reported fd file owner events).wait batch = some s' := by
  rw [wait] at h
  split at h
  · cases h
  · next file hfile =>
    split at h
    · cases h
    · next mask owner hregistration =>
      split at h
      · next hedges => exact ⟨file, mask, owner, hfile, hregistration, hedges.2, h⟩
      · cases h

lemma ReactorOk.reported {file : EpollFile κ} (hok : ReactorOk s) (hfile : s.files fd = some file)
    (owner : κ) (events : EventMask) : ReactorOk (s.reported fd file owner events) := by
  refine hok.refile rfl rfl fun fd' => ?_
  simp only [EpollReactor.reported]
  by_cases hfd : fd' = fd
  · subst hfd
    rw [setFile_self, hfile]
    rfl
  · rw [setFile_of_ne _ hfd]

lemma ReactorOk.wait {batch : List (Nat × EventMask)} (hok : ReactorOk s)
    (h : s.wait batch = some s') : ReactorOk s' := by
  induction batch generalizing s with
  | nil =>
    cases h
    exact hok
  | cons report batch ih =>
    obtain ⟨file, mask, owner, hfile, -, -, h⟩ := wait_cons h
    exact ih (hok.reported hfile owner report.2) h

lemma ReactorOk.poll {batch : List (Nat × EventMask)} (hok : ReactorOk s)
    (h : s.poll errors batch = some s') : ReactorOk s' := by
  unfold EpollReactor.poll at h
  split at h
  · cases h
  · next hflush =>
    cases h
    exact hok.flushed (flushPendingChanges_flushed hok.unique hflush)
  · next hflush => exact (hok.flushed (flushPendingChanges_flushed hok.unique hflush)).wait h

lemma ReactorOk.arrive {file : EpollFile κ} (hok : ReactorOk s) (hfile : s.files fd = some file) :
    ReactorOk (s.setFile fd (some (file.arrive slot))) := by
  refine hok.refile rfl rfl fun fd' => ?_
  by_cases hfd : fd' = fd
  · subst hfd
    rw [setFile_self, hfile]
    rfl
  · rw [setFile_of_ne _ hfd]

lemma ReactorOk.create (hok : ReactorOk s) (hfile : s.files fd = none) :
    ReactorOk ((s.setController c (.new fd)).setFile fd (some .opened)) := by
  have hother : ∀ {c' fd'}, (s.controllers c').handle = some fd' → fd' ≠ fd := by
    rintro c' fd' h rfl
    obtain ⟨file, hfile'⟩ := hok.regOk.opened h
    rw [hfile] at hfile'
    cases hfile'
  have hcases : ∀ {c' fd'},
      (((s.setController c (.new fd)).setFile fd (some .opened)).controllers c').handle = some fd' →
      c' = c ∧ fd' = fd ∨ c' ≠ c ∧ (s.controllers c').handle = some fd' := by
    intro c' fd' h
    rw [setFile_controllers] at h
    by_cases hc : c' = c
    · subst hc
      rw [setController_self] at h
      cases h
      exact .inl ⟨rfl, rfl⟩
    · rw [setController_of_ne _ hc] at h
      exact .inr ⟨hc, h⟩
  refine ⟨⟨fun {c' fd'} h => ?_, fun {c₁ c₂ fd'} h₁ h₂ => ?_,
    fun {c' fd' events file} h hregistered hfile' => ?_⟩, hok.unique, fun c' => ?_⟩
  · rcases hcases h with ⟨-, rfl⟩ | ⟨-, h⟩
    · exact ⟨_, setFile_self _⟩
    · rw [setFile_of_ne _ (hother h)]
      exact hok.regOk.opened h
  · rcases hcases h₁ with ⟨hc₁, hfd₁⟩ | ⟨-, h₁⟩ <;> rcases hcases h₂ with ⟨hc₂, hfd₂⟩ | ⟨-, h₂⟩
    · rw [hc₁, hc₂]
    · exact absurd hfd₁ (hother h₂)
    · exact absurd hfd₂ (hother h₁)
    · exact hok.regOk.own h₁ h₂
  · rw [setFile_controllers] at hregistered
    rcases hcases h with ⟨rfl, -⟩ | ⟨hc, h⟩
    · rw [setController_self] at hregistered
      cases hregistered
    · rw [setController_of_ne _ hc] at hregistered
      rw [setFile_of_ne _ (hother h)] at hfile'
      exact hok.regOk.kernel h hregistered hfile'
  · by_cases hc : c' = c
    · subst hc
      apply covered_of_isIdle
      rw [setFile_controllers, setController_self]
      rfl
    · have hctl : ((s.setController c (.new fd)).setFile fd (some .opened)).controllers c' =
          s.controllers c' := setController_of_ne _ hc
      refine (hok.covered c').congr (by rw [hctl]) fun _ slot => ?_
      have hwants : ((s.setController c (.new fd)).setFile fd (some .opened)).wants c' =
          s.wants c' := wants_congr rfl (by rw [hctl])
      rw [hwants]

lemma ReactorOk.close (hok : ReactorOk s) : ReactorOk (s.close c) := by
  unfold EpollReactor.close
  split
  · exact hok
  · next fd hhandle =>
    generalize hs' : ({ s with pendingChanges := Coalesced.drop s.pendingChanges c }.setController c
      .resetMovedFrom |>.setFile fd none) = s'
    have hself : s'.controllers c = .resetMovedFrom := hs' ▸ setController_self _
    have hctl : ∀ {c'}, c' ≠ c → s'.controllers c' = s.controllers c' := by
      intro c' hc
      rw [← hs', setFile_controllers, setController_of_ne _ hc]
    have hopen : ∀ {c' fd'}, (s'.controllers c').handle = some fd' →
        c' ≠ c ∧ (s.controllers c').handle = some fd' ∧ s'.files fd' = s.files fd' := by
      intro c' fd' h
      have hc : c' ≠ c := by
        rintro rfl
        rw [hself] at h
        cases h
      rw [hctl hc] at h
      refine ⟨hc, h, ?_⟩
      rw [← hs']
      exact setFile_other hok.regOk hhandle hc h
    refine ⟨⟨fun {c' fd'} h => ?_, fun {c₁ c₂ fd'} h₁ h₂ => ?_,
      fun {c' fd' events file} h hregistered hfile => ?_⟩, ?_, fun c' => ?_⟩
    · obtain ⟨-, h, hfile⟩ := hopen h
      rw [hfile]
      exact hok.regOk.opened h
    · exact hok.regOk.own (hopen h₁).2.1 (hopen h₂).2.1
    · obtain ⟨hc, h, hfile'⟩ := hopen h
      rw [hctl hc] at hregistered
      rw [hfile'] at hfile
      exact hok.regOk.kernel h hregistered hfile
    · rw [← hs']
      exact hok.unique.drop c
    · by_cases hc : c' = c
      · subst hc
        apply covered_of_isIdle
        rw [hself]
        rfl
      · refine (hok.covered c').congr (by rw [hctl hc]) fun _ slot => ?_
        rw [wants, wants, wantsIn, wantsIn, hctl hc, ← hs']
        exact congrArg (fun pending => (Option.or pending _).any _) (lookup_drop_of_ne hc)

lemma ReactorOk.move (hok : ReactorOk s) (hc : c' ≠ c) (hidle : (s.controllers c).isIdle)
    (hregistered : (s.controllers c).registeredEvents = none) : ReactorOk (s.move c c') := by
  have hself : (s.move c c').controllers c = .resetMovedFrom := setController_self _
  have hnew : (s.move c c').controllers c' = s.controllers c := by
    rw [EpollReactor.move, setController_of_ne _ hc, setController_self]
  have hctl : ∀ {c''}, c'' ≠ c → c'' ≠ c' → (s.move c c').controllers c'' = s.controllers c'' := by
    intro c'' h h'
    rw [EpollReactor.move, setController_of_ne _ h, setController_of_ne _ h']
  have hopen : ∀ {c'' fd}, ((s.move c c').controllers c'').handle = some fd →
      c'' = c' ∧ (s.controllers c).handle = some fd ∨
        c'' ≠ c ∧ c'' ≠ c' ∧ (s.controllers c'').handle = some fd := by
    intro c'' fd h
    by_cases heq : c'' = c'
    · subst heq
      rw [hnew] at h
      exact .inl ⟨rfl, h⟩
    · have hne : c'' ≠ c := by
        rintro rfl
        rw [hself] at h
        cases h
      rw [hctl hne heq] at h
      exact .inr ⟨hne, heq, h⟩
  refine ⟨⟨fun {c'' fd} h => ?_, fun {c₁ c₂ fd} h₁ h₂ => ?_,
    fun {c'' fd events file} h hregistered' hfile => ?_⟩, hok.unique, fun c'' => ?_⟩
  · rcases hopen h with ⟨-, h⟩ | ⟨-, -, h⟩
    · exact hok.regOk.opened h
    · exact hok.regOk.opened h
  · rcases hopen h₁ with ⟨heq₁, h₁⟩ | ⟨hne₁, -, h₁⟩ <;>
      rcases hopen h₂ with ⟨heq₂, h₂⟩ | ⟨hne₂, -, h₂⟩
    · rw [heq₁, heq₂]
    · exact absurd (hok.regOk.own h₂ h₁) hne₂
    · exact absurd (hok.regOk.own h₁ h₂) hne₁
    · exact hok.regOk.own h₁ h₂
  · rcases hopen h with ⟨rfl, -⟩ | ⟨hne, hne', h⟩
    · rw [hnew, hregistered] at hregistered'
      cases hregistered'
    · rw [hctl hne hne'] at hregistered'
      exact hok.regOk.kernel h hregistered' hfile
  · by_cases heq : c'' = c'
    · subst heq
      exact covered_of_isIdle (by rwa [hnew])
    · by_cases hne : c'' = c
      · subst hne
        apply covered_of_isIdle
        rw [hself]
        rfl
      · refine (hok.covered c'').congr (by rw [hctl hne heq]) fun _ slot => ?_
        have hwants : (s.move c c').wants c'' = s.wants c'' :=
          wants_congr rfl (by rw [hctl hne heq])
        rw [hwants]

lemma reactorOk_init : ReactorOk (.init : EpollReactor κ) where
  regOk := ⟨fun h => (by cases h), fun h => (by cases h), fun h => (by cases h)⟩
  unique := List.nodup_nil
  covered _ := covered_of_isIdle rfl

/-- What each step does, and when it can be made. -/
inductive Steps (s : EpollReactor κ) (errors : CtlErrors) :
    EpollAction κ → EpollReactor κ → Prop where
  | arrive (fd : Nat) (slot : IOSlot) (file : EpollFile κ) (hfile : s.files fd = some file) :
      Steps s errors (.arrive fd slot) (s.setFile fd (some (file.arrive slot)))
  | process (c : κ) (events : EventMask) (rest : List (κ × EventMask)) (read write : Attempt)
      (readSteps writeSteps : List (IOEventType × Attempt)) (s' : EpollReactor κ)
      (hevents : s.events = (c, events) :: rest)
      (h : { s with events := rest }.processEvent errors c events read write readSteps writeSteps =
        some s') : Steps s errors (.process read write readSteps writeSteps) s'
  | create (c : κ) (fd : Nat) (hquiet : s.events = []) (hfile : s.files fd = none) :
      Steps s errors (.create c fd) ((s.setController c (.new fd)).setFile fd (some .opened))
  | begin (c : κ) (type : IOEventType) (a : Attempt) (s' : EpollReactor κ) (hquiet : s.events = [])
      (h : s.begin errors c type a = some s') : Steps s errors (.begin c type a) s'
  | beginSequence (c : κ) (domain : SequenceOwnerDomain) (steps : List (IOEventType × Attempt))
      (s' : EpollReactor κ) (hquiet : s.events = [])
      (h : s.beginSequence errors c domain steps = some s') :
      Steps s errors (.beginSequence c domain steps) s'
  | resume (c : κ) (slot : IOSlot) :
      Steps s errors (.resume c slot)
        (s.setController c ((s.controllers c).removeAwaitable slot))
  | resumeSequence (c : κ) (slot : IOSlot) (seq : EpollSequence)
      (howner : (s.controllers c).sequenceOwner.owner slot = some seq) :
      Steps s errors (.resumeSequence c slot) (s.setController c ((s.controllers c).withOwners
        ((s.controllers c).sequenceOwner.release slot)))
  | expire (c : κ) (slot : IOSlot) :
      Steps s errors (.expire c slot) (s.setController c ((s.controllers c).wake slot))
  | expireSequence (c : κ) (slot : IOSlot) (active : Option IOEventType) (seq : EpollSequence)
      (howner : (s.controllers c).sequenceOwner.owner slot = some seq) :
      Steps s errors (.expireSequence c slot active) (s.setController c { s.controllers c with
        sequenceOwner := (s.controllers c).sequenceOwner.update slot ⟨active, true⟩ })
  | close (c : κ) (hquiet : s.events = []) : Steps s errors (.close c) (s.close c)
  | move (c c' : κ) (hquiet : s.events = []) (hc : c' ≠ c) (hidle : (s.controllers c).isIdle) :
      Steps s errors (.move c c') (s.move c c')
  | flush (s' : EpollReactor κ) (ok : Bool) (h : s.flushPendingChanges errors = some (s', ok)) :
      Steps s errors .flush s'
  | poll (batch : List (Nat × EventMask)) (s' : EpollReactor κ) (hquiet : s.events = [])
      (h : s.poll errors batch = some s') : Steps s errors (.poll batch) s'

lemma step_steps {a : EpollAction κ} (h : s.step (errors, a) = some s') : Steps s errors a s' := by
  cases a with
  | arrive fd slot =>
    simp only [step] at h
    split at h
    · cases h
    · next file hfile =>
      cases h
      exact .arrive fd slot file hfile
  | process read write readSteps writeSteps =>
    simp only [step] at h
    split at h
    · cases h
    · next c events rest hevents => exact .process c events rest _ _ _ _ s' hevents h
  | create c fd =>
    simp only [step] at h
    split at h
    · cases h
    · next hquiet =>
      split at h
      · cases h
      · next hfree =>
        cases h
        refine .create c fd (by simpa using hquiet) ?_
        rw [Bool.or_eq_true, not_or] at hfree
        simpa using hfree.2
  | begin c type a =>
    simp only [step] at h
    split at h
    · cases h
    · next hquiet =>
      split at h
      · cases h
      · exact .begin c type a s' (by simpa using hquiet) h
  | beginSequence c domain steps =>
    simp only [step] at h
    split at h
    · cases h
    · next hquiet => exact .beginSequence c domain steps s' (by simpa using hquiet) h
  | resume c slot =>
    simp only [step] at h
    split at h
    · cases h
    · split at h
      · cases h
        exact .resume c slot
      · cases h
  | resumeSequence c slot =>
    simp only [step] at h
    split at h
    · cases h
    · split at h
      · next howner =>
        cases h
        rw [Option.any_eq_true] at howner
        obtain ⟨seq, howner, -⟩ := howner
        exact .resumeSequence c slot seq howner
      · cases h
  | expire c slot =>
    simp only [step] at h
    split at h
    · cases h
    · split at h
      · cases h
        exact .expire c slot
      · cases h
  | expireSequence c slot active =>
    simp only [step] at h
    split at h
    · cases h
    · split at h
      · next howner =>
        cases h
        obtain ⟨seq, howner⟩ := Option.isSome_iff_exists.mp howner
        exact .expireSequence c slot active seq howner
      · cases h
  | close c =>
    simp only [step] at h
    split at h
    · cases h
    · next hquiet =>
      cases h
      exact .close c (by simpa using hquiet)
  | move c c' =>
    simp only [step] at h
    split at h
    · cases h
    · next hquiet =>
      split at h
      · cases h
      · next hmove =>
        cases h
        simp only [Bool.or_eq_true, not_or, Bool.not_eq_true, Bool.not_eq_false'] at hmove
        refine .move c c' (by simpa using hquiet) ?_ hmove.2
        rintro rfl
        rw [hmove.1.1] at hmove
        cases hmove.1.2
  | flush =>
    simp only [step] at h
    split at h
    · cases h
    · obtain ⟨⟨s'', ok⟩, hflush, rfl⟩ := Option.map_eq_some_iff.mp h
      exact .flush s'' ok hflush
  | poll batch =>
    simp only [step] at h
    split at h
    · cases h
    · next hquiet => exact .poll batch s' (by simpa using hquiet) h

/-- A controller is moved only while it is not registered. -/
def movesUnregistered (s : EpollReactor κ) (a : CtlErrors × EpollAction κ) : Bool :=
  match a.2 with
  | .move c _ => (s.controllers c).registeredEvents.isNone
  | _ => true

lemma ReactorOk.step {a : CtlErrors × EpollAction κ} (hok : ReactorOk s)
    (hmoves : s.movesUnregistered a) (h : s.step a = some s') : ReactorOk s' := by
  obtain ⟨errors, a⟩ := a
  cases step_steps h with
  | arrive fd slot file hfile => exact hok.arrive hfile
  | process c events rest read write readSteps writeSteps _ hevents h =>
    have hok' : ReactorOk { s with events := rest } := hok.refile rfl rfl fun _ => rfl
    obtain ⟨hturn, hcovered⟩ := processEvent_turn hok' h
    exact hturn.reactorOk hok' hcovered
  | create c fd _ hfile => exact hok.create hfile
  | begin c type a _ _ h =>
    obtain ⟨hturn, hcovered⟩ := (begin_begins hok h).turn (hok.covered c)
    exact hturn.reactorOk hok hcovered
  | beginSequence c domain steps _ _ h =>
    obtain ⟨hturn, hcovered⟩ := beginSequence_turn hok h
    exact hturn.reactorOk hok hcovered
  | resume c slot => exact turn_removeAwaitable.reactorOk hok (hok.covered c).remove
  | resumeSequence c slot seq howner =>
    exact (turn_withOwners _).reactorOk hok ((hok.covered c).withOwners
      ((hok.covered c).handle_of_owner howner) SequenceOwners.fewer_release)
  | expire c slot => exact turn_wake.reactorOk hok (hok.covered c).wake
  | expireSequence c slot active seq howner =>
    exact (turn_wakeSequence _).reactorOk hok
      ((hok.covered c).wakeSequence ((hok.covered c).handle_of_owner howner) rfl)
  | close c => exact hok.close
  | move c c' _ hc hidle => exact hok.move hc hidle (by simpa [movesUnregistered] using hmoves)
  | flush _ _ h => exact hok.flushed (flushPendingChanges_flushed hok.unique h)
  | poll batch _ _ h => exact hok.poll h

end EpollReactor

end GalayKernel

namespace GalayKernel.Proofs

open Transition EpollReactor

variable {κ : Type} [DecidableEq κ]

lemma reaches_reactorOk {s : EpollReactor κ}
    (h : Reaches step (fun s a => s.movesUnregistered a) .init s) : ReactorOk s :=
  h.invariant (P := ReactorOk) reactorOk_init fun _ _ _ hok hmoves hs => hok.step hmoves hs

/-- When all changes have been flushed, each controller that waits is registered for the direction
with itself as the data, and `epoll_wait` finds its events. -/
def RegistrationsFollow (s : EpollReactor κ) : Prop :=
  s.pendingChanges = [] → ∀ c slot, (s.controllers c).waits slot →
    ∃ fd file mask, (s.controllers c).handle = some fd ∧ s.files fd = some file ∧
      file.registration = some (mask, c) ∧ mask.has slot ∧
      ∀ events s', s.wait [(fd, events)] = some s' → s'.events = s.events ++ [(c, events)]

theorem registrations_follow {s : EpollReactor κ}
    (h : Reaches step (fun s a => s.movesUnregistered a) .init s) : RegistrationsFollow s := by
  intro hpending c slot hwaits
  have hok := reaches_reactorOk h
  have hwanted := (hok.covered c).wanted slot hwaits
  rw [wants, wantsIn, hpending, List.lookup_nil, Option.none_or, Option.any_eq_true] at hwanted
  obtain ⟨mask, hregistered, hmask⟩ := hwanted
  have hhandle : (s.controllers c).handle ≠ none := by
    intro hnone
    rw [EpollController.not_waits_of_isIdle ((hok.covered c).idle hnone)] at hwaits
    cases hwaits
  obtain ⟨fd, hhandle⟩ := Option.ne_none_iff_exists'.mp hhandle
  obtain ⟨file, hfile⟩ := hok.regOk.opened hhandle
  have hregistration := hok.regOk.kernel hhandle hregistered hfile
  refine ⟨fd, file, mask, hhandle, hfile, hregistration, hmask, fun events s' hwait => ?_⟩
  simp only [wait, hfile, hregistration] at hwait
  split at hwait
  · cases hwait
    rfl
  · cases hwait

def noErrors : CtlErrors := fun _ _ => none

/-- A `recv` times out before its change is flushed, and the controller is moved. The new controller
receives. -/
def movedInTime : List (CtlErrors × EpollAction Bool) :=
  [(noErrors, .create false 3), (noErrors, .begin false .recv .blocked),
    (noErrors, .expire false .read), (noErrors, .resume false .read),
    (noErrors, .move false true), (noErrors, .begin true .recv .blocked), (noErrors, .flush)]

def afterMovedInTime : EpollReactor Bool := (run step .init movedInTime).getD .init

theorem movedInTime_registrations_follow :
    (afterMovedInTime.pendingChanges = [] ∧ (afterMovedInTime.controllers true).waits .read) ∧
      RegistrationsFollow afterMovedInTime :=
  ⟨by decide, registrations_follow
    (.of_run (fun s a => s.movesUnregistered a) (fun _ _ h => h) movedInTime .start rfl)⟩

/-- A connection is used and then moved. The next `recv` would block. -/
def movedAfterUse : List (CtlErrors × EpollAction Bool) :=
  [(noErrors, .create false 3), (noErrors, .begin false .recv .blocked), (noErrors, .flush),
    (noErrors, .arrive 3 .read), (noErrors, .poll [(3, ⟨true, false⟩)]),
    (noErrors, .process (.done false) .blocked [] []), (noErrors, .resume false .read),
    (noErrors, .move false true), (noErrors, .begin true .recv .blocked), (noErrors, .flush)]

/-- The kernel still has the old controller as the data of the registration. -/
theorem moved_controller_can_be_missed : ¬∀ s : EpollReactor Bool,
    Reaches step (fun _ _ => True) .init s → RegistrationsFollow s := by
  intro h
  obtain ⟨fd, file, mask, hhandle, hfile, hregistration, -⟩ :=
    h _ (.of_replay movedAfterUse .start rfl) rfl true .read rfl
  cases hhandle
  cases hfile
  cases hregistration

end GalayKernel.Proofs
