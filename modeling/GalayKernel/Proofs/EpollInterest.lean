import GalayKernel.Proofs.EpollFollows

/-!
# The interest set of the kernel

`m_registered_events` is what the reactor believes the kernel to have. As long as controllers are
not moved, the belief is right: the kernel has a registration for exactly the open controllers with
a mask, with that mask. A failed `epoll_ctl` changes neither side, and `ENOENT` is only reported
for a descriptor that is not registered.
-/

namespace GalayKernel.EpollReactor

variable {κ : Type} {s s' : EpollReactor κ} {errors : CtlErrors} {c c' : κ} {events : EventMask}
  {fd : Nat} {slot : IOSlot} {ok : Bool}

/-- Calls that fail for other reasons than the state of the interest set. -/
def HonestErrors (errors : CtlErrors) : Prop := ∀ op fd, errors op fd ≠ some ENOENT

def registration (ctl : EpollController) : Bool × Option Nat × Option EventMask :=
  (ctl.constructed, ctl.handle, ctl.registeredEvents)

/-- The kernel has what the open controllers remember, and nothing else. -/
structure KernelOk (s : EpollReactor κ) : Prop where
  fresh : ∀ {c}, (s.controllers c).constructed = false → (s.controllers c).handle = none
  opened : ∀ {c fd}, (s.controllers c).handle = some fd → ∃ file, s.files fd = some file
  own : ∀ {c c' fd}, (s.controllers c).handle = some fd → (s.controllers c').handle = some fd →
    c = c'
  owned : ∀ {fd file}, s.files fd = some file → ∃ c, (s.controllers c).handle = some fd
  exact : ∀ {c fd file}, (s.controllers c).handle = some fd → s.files fd = some file →
    file.registration = (s.controllers c).registeredEvents.map (·, c)

lemma KernelOk.congr (h : KernelOk s)
    (hcontrollers : ∀ c, registration (s'.controllers c) = registration (s.controllers c))
    (hfiles : ∀ fd, (s'.files fd).map EpollFile.registration =
      (s.files fd).map EpollFile.registration) : KernelOk s' := by
  have hconstructed c : (s'.controllers c).constructed = (s.controllers c).constructed :=
    congrArg Prod.fst (hcontrollers c)
  have hhandle c : (s'.controllers c).handle = (s.controllers c).handle :=
    congrArg (·.2.1) (hcontrollers c)
  have hregistered c : (s'.controllers c).registeredEvents = (s.controllers c).registeredEvents :=
    congrArg (·.2.2) (hcontrollers c)
  have hfile : ∀ {fd file'}, s'.files fd = some file' →
      ∃ file, s.files fd = some file ∧ file.registration = file'.registration := by
    intro fd file' hfile'
    have hmap := hfiles fd
    rw [hfile', Option.map_some] at hmap
    exact Option.map_eq_some_iff.mp hmap.symm
  refine ⟨fun {c} hc => ?_, fun {c fd} hc => ?_, fun {c c' fd} hc hc' => ?_,
    fun {fd file'} hfile' => ?_, fun {c fd file'} hc hfile' => ?_⟩
  · rw [hconstructed] at hc
    rw [hhandle]
    exact h.fresh hc
  · rw [hhandle] at hc
    obtain ⟨file, hopened⟩ := h.opened hc
    have hmap := hfiles fd
    rw [hopened, Option.map_some, Option.map_eq_some_iff] at hmap
    exact hmap.imp fun _ => And.left
  · rw [hhandle] at hc hc'
    exact h.own hc hc'
  · obtain ⟨file, hopened, -⟩ := hfile hfile'
    obtain ⟨c, hc⟩ := h.owned hopened
    exact ⟨c, (hhandle c).trans hc⟩
  · obtain ⟨file, hopened, hregistration⟩ := hfile hfile'
    rw [hhandle] at hc
    rw [hregistered, ← hregistration]
    exact h.exact hc hopened

lemma KernelOk.setFile {file file' : EpollFile κ} (h : KernelOk s) (hfile : s.files fd = some file)
    (hsame : file'.registration = file.registration) : KernelOk (s.setFile fd (some file')) := by
  refine h.congr (fun _ => rfl) fun fd' => ?_
  by_cases hfd : fd' = fd
  · rw [hfd, setFile_self, hfile, Option.map_some, Option.map_some, hsame]
  · rw [setFile_of_ne _ hfd]

variable [DecidableEq κ]

lemma KernelOk.setController {ctl : EpollController} (h : KernelOk s)
    (hsame : registration ctl = registration (s.controllers c)) :
    KernelOk (s.setController c ctl) := by
  refine h.congr (fun c' => ?_) fun _ => rfl
  by_cases hc : c' = c
  · rw [hc, setController_self, hsame]
  · rw [setController_of_ne _ hc]

def leftBy (op : CtlOp) (events : EventMask) : Option EventMask :=
  match op with
  | .add | .mod => some events
  | .del => none

omit [DecidableEq κ] in
lemma registration_of_ctl {op : CtlOp} {file file' : EpollFile κ}
    (h : file.ctl op c events = .ok file') : file'.registration = (leftBy op events).map (·, c) := by
  cases op <;> simp only [EpollFile.ctl] at h <;> split at h <;> cases h <;> rfl

lemma KernelOk.epollCtl {op : CtlOp} (h : KernelOk s) (hhandle : (s.controllers c).handle = some fd)
    (hctl : s.epollCtl errors op fd c events = some (.ok s')) :
    KernelOk (s'.setRegistered c (leftBy op events)) := by
  obtain ⟨file, file', hfile, hop, rfl⟩ := epollCtl_ok hctl
  have hawaiters : SameAwaiters s ((s.setFile fd (some file')).setRegistered c (leftBy op events)) :=
    setRegistered_sameAwaiters (s := s.setFile fd (some file')) _
  have hhandles := hawaiters.handle
  refine ⟨fun {c'} hc' => ?_, fun {c' fd'} hc' => ?_, fun {c₁ c₂ fd'} h₁ h₂ => ?_,
    fun {fd' file''} hfile'' => ?_, fun {c' fd' file''} hc' hfile'' => ?_⟩
  · rw [hawaiters c'] at hc' ⊢
    exact h.fresh hc'
  · rw [hhandles] at hc'
    rw [setRegistered_files]
    by_cases hfd : fd' = fd
    · exact ⟨file', hfd ▸ setFile_self _⟩
    · rw [setFile_of_ne _ hfd]
      exact h.opened hc'
  · rw [hhandles] at h₁ h₂
    exact h.own h₁ h₂
  · rw [setRegistered_files] at hfile''
    by_cases hfd : fd' = fd
    · exact ⟨c, by rw [hhandles, hfd, hhandle]⟩
    · rw [setFile_of_ne _ hfd] at hfile''
      obtain ⟨c', hc'⟩ := h.owned hfile''
      exact ⟨c', by rw [hhandles, hc']⟩
  · rw [hhandles] at hc'
    rw [setRegistered_files] at hfile''
    by_cases hc : c' = c
    · subst hc
      cases hc'.symm.trans hhandle
      rw [setFile_self, Option.some.injEq] at hfile''
      rw [← hfile'', setRegistered_self]
      exact registration_of_ctl hop
    · have hfd : fd' ≠ fd := by
        rintro rfl
        exact hc (h.own hc' hhandle)
      rw [setFile_of_ne _ hfd] at hfile''
      rw [setRegistered_of_ne _ hc]
      exact h.exact hc' hfile''

lemma KernelOk.addRegistration (h : KernelOk s) (hhandle : (s.controllers c).handle = some fd)
    (hadd : s.addRegistration errors fd c events = some (s', ok)) : KernelOk s' := by
  unfold EpollReactor.addRegistration at hadd
  split at hadd
  · cases hadd
  · next hctl =>
    cases hadd
    exact h.epollCtl hhandle hctl
  · cases hadd
    exact h

lemma KernelOk.modifyRegistration (h : KernelOk s) (hhandle : (s.controllers c).handle = some fd)
    (hmodify : s.modifyRegistration errors fd c events = some (s', ok)) : KernelOk s' := by
  unfold EpollReactor.modifyRegistration at hmodify
  split at hmodify
  · cases hmodify
  · next hctl =>
    cases hmodify
    exact h.epollCtl hhandle hctl
  · split at hmodify
    · exact h.addRegistration hhandle hmodify
    · cases hmodify
      exact h

omit [DecidableEq κ] in
lemma KernelOk.errno_ne_ENOENT {errno : Nat} {mask : EventMask} (h : KernelOk s)
    (herrors : HonestErrors errors) (hhandle : (s.controllers c).handle = some fd)
    (hregistered : (s.controllers c).registeredEvents = some mask)
    (hctl : s.epollCtl errors .del fd c events = some (.error errno)) : errno ≠ ENOENT := by
  obtain ⟨file, hfile⟩ := h.opened hhandle
  have hregistration := h.exact hhandle hfile
  rw [hregistered] at hregistration
  rintro rfl
  unfold EpollReactor.epollCtl at hctl
  split at hctl
  · next hinjected =>
    split at hctl
    · cases hctl
    · cases hctl
      exact herrors _ _ hinjected
  · rw [hfile] at hctl
    simp [EpollFile.ctl, hregistration] at hctl

lemma KernelOk.deleteRegistration {mask : EventMask} (h : KernelOk s) (herrors : HonestErrors errors)
    (hhandle : (s.controllers c).handle = some fd)
    (hregistered : (s.controllers c).registeredEvents = some mask)
    (hdelete : s.deleteRegistration errors fd c = some (s', ok)) : KernelOk s' := by
  unfold EpollReactor.deleteRegistration at hdelete
  split at hdelete
  · cases hdelete
  · next hctl =>
    cases hdelete
    exact h.epollCtl hhandle hctl
  · next errno hctl =>
    rw [if_neg (h.errno_ne_ENOENT herrors hhandle hregistered hctl)] at hdelete
    cases hdelete
    exact h

lemma KernelOk.commit (h : KernelOk s) (herrors : HonestErrors errors)
    (hcommit : s.commit errors c events = some (s', ok)) : KernelOk s' := by
  unfold EpollReactor.commit at hcommit
  split at hcommit
  · cases hcommit
    exact h
  · next fd hhandle =>
    split at hcommit
    · split at hcommit
      · cases hcommit
        exact h
      · exact h.addRegistration hhandle hcommit
    · next mask hregistered =>
      split at hcommit
      · cases hcommit
        exact h
      · split at hcommit
        · exact h.deleteRegistration herrors hhandle hregistered hcommit
        · exact h.modifyRegistration hhandle hcommit

omit [DecidableEq κ] in
lemma KernelOk.setPending (h : KernelOk s) (pending : List (κ × EventMask)) :
    KernelOk { s with pendingChanges := pending } :=
  h.congr (fun _ => rfl) fun _ => rfl

lemma KernelOk.flushChanges {pending : List (κ × EventMask)} (h : KernelOk s)
    (herrors : HonestErrors errors) (hflush : flushChanges errors pending s = some (s', ok)) :
    KernelOk s' := by
  induction pending generalizing s with
  | nil =>
    cases hflush
    exact h.setPending _
  | cons change pending ih =>
    obtain ⟨c, events⟩ := change
    rw [EpollReactor.flushChanges] at hflush
    split at hflush
    · cases hflush
    · next hcommit => exact ih (h.commit herrors hcommit) hflush
    · next hcommit =>
      cases hflush
      exact (h.commit herrors hcommit).setPending _

lemma KernelOk.applyEvents (h : KernelOk s) (herrors : HonestErrors errors)
    (happly : s.applyEvents errors c events = some (s', ok)) : KernelOk s' := by
  unfold EpollReactor.applyEvents at happly
  split at happly
  · cases happly
    exact h
  · split at happly
    · cases happly
      exact h.setPending _
    · split at happly
      · cases happly
        exact h
      · unfold flushBatch at happly
        split at happly
        · exact (h.setPending _).flushChanges herrors happly
        · cases happly
          exact h.setPending _

lemma KernelOk.registerOr {undo : EpollController → EpollController} (h : KernelOk s)
    (herrors : HonestErrors errors) (hregister : s.registerOr errors c undo = some s')
    (hundo : ∀ ctl, registration (undo ctl) = registration ctl) : KernelOk s' := by
  unfold EpollReactor.registerOr at hregister
  split at hregister
  · cases hregister
  · next happly =>
    cases hregister
    exact h.applyEvents herrors happly
  · next happly =>
    cases hregister
    exact (h.applyEvents herrors happly).setController (hundo _)

omit [DecidableEq κ] in
lemma KernelOk.attempt (h : KernelOk s) (slot : IOSlot) (a : Attempt) :
    KernelOk (s.attempt c slot a) := by
  unfold EpollReactor.attempt
  split
  · exact h
  · next fd hhandle =>
    obtain ⟨file, hfile⟩ := h.opened hhandle
    rw [hfile]
    exact h.setFile hfile (by cases a <;> rfl)

omit [DecidableEq κ] in
lemma KernelOk.runSteps (h : KernelOk s) (steps : List (IOEventType × Attempt)) :
    KernelOk (s.runSteps c steps).1 := by
  induction steps generalizing s with
  | nil => exact h
  | cons step steps ih =>
    rw [EpollReactor.runSteps]
    split
    · exact ih h
    · split
      · exact h.attempt _ _
      · exact ih (h.attempt _ _)

lemma KernelOk.begin {type : IOEventType} {a : Attempt} (h : KernelOk s)
    (herrors : HonestErrors errors) (hbegin : s.begin errors c type a = some s') : KernelOk s' := by
  unfold EpollReactor.begin at hbegin
  dsimp only at hbegin
  split at hbegin
  · cases hbegin
    exact h
  · split at hbegin
    · cases hbegin
      exact h.attempt _ _
    · refine KernelOk.registerOr ?_ herrors hbegin fun _ => rfl
      split
      · exact h.setController rfl
      · exact (h.attempt _ _).setController (by rw [attempt_controllers]; rfl)

lemma KernelOk.beginSequence {domain : SequenceOwnerDomain} {steps : List (IOEventType × Attempt)}
    (h : KernelOk s) (herrors : HonestErrors errors)
    (hbegin : s.beginSequence errors c domain steps = some s') : KernelOk s' := by
  have htried : ∀ owners, KernelOk ((s.runSteps c steps).1.setController c
      ((s.controllers c).withOwners owners)) :=
    fun owners => (h.runSteps steps).setController (by rw [runSteps_controllers]; rfl)
  unfold EpollReactor.beginSequence at hbegin
  dsimp only at hbegin
  split at hbegin
  · cases hbegin
    exact h
  · split at hbegin
    · cases hbegin
      exact h
    · split at hbegin
      · cases hbegin
        exact htried _
      · exact (htried _).registerOr herrors hbegin fun _ => rfl

lemma KernelOk.completeAwaitableAndWake (h : KernelOk s) (slot : IOSlot) (a : Attempt) :
    KernelOk (s.completeAwaitableAndWake c slot a) := by
  unfold EpollReactor.completeAwaitableAndWake
  split
  · exact h
  · split
    · exact h.attempt slot a
    · exact (h.attempt slot a).setController (by rw [attempt_controllers]; rfl)

lemma KernelOk.dispatchOwner {steps : List (IOEventType × Attempt)} (h : KernelOk s)
    (herrors : HonestErrors errors) (hdispatch : s.dispatchOwner errors c slot steps = some s') :
    KernelOk s' := by
  have htried : ∀ owners, KernelOk ((s.runSteps c steps).1.setController c
      ((s.controllers c).withOwners owners)) :=
    fun owners => (h.runSteps steps).setController (by rw [runSteps_controllers]; rfl)
  unfold EpollReactor.dispatchOwner at hdispatch
  dsimp only at hdispatch
  split at hdispatch
  · cases hdispatch
    exact h
  · split at hdispatch
    · cases hdispatch
    · split at hdispatch
      · cases hdispatch
        exact htried _
      · exact (htried _).registerOr herrors hdispatch fun _ => rfl

lemma KernelOk.dispatchOwners {readSteps writeSteps : List (IOEventType × Attempt)}
    (h : KernelOk s) (herrors : HonestErrors errors)
    (hdispatch : s.dispatchOwners errors c events readSteps writeSteps = some s') : KernelOk s' := by
  unfold EpollReactor.dispatchOwners at hdispatch
  dsimp only at hdispatch
  split at hdispatch
  · cases hdispatch
  · next s₁ hread =>
    have h₁ : KernelOk s₁ := by
      split at hread
      · exact h.dispatchOwner herrors hread
      · cases hread
        exact h
    split at hdispatch
    · exact h₁.dispatchOwner herrors hdispatch
    · cases hdispatch
      exact h₁

lemma KernelOk.syncEvents (h : KernelOk s) (herrors : HonestErrors errors)
    (hsync : s.syncEvents errors c = some s') : KernelOk s' := by
  unfold EpollReactor.syncEvents at hsync
  dsimp only at hsync
  split at hsync
  · cases hsync
  · next happly =>
    cases hsync
    refine KernelOk.applyEvents ?_ herrors happly
    split
    · exact h.setController rfl
    · exact h

lemma KernelOk.processEvent {read write : Attempt}
    {readSteps writeSteps : List (IOEventType × Attempt)}
    (h : KernelOk s) (herrors : HonestErrors errors)
    (hprocess : s.processEvent errors c events read write readSteps writeSteps = some s') :
    KernelOk s' := by
  have hseen : ∀ {s : EpollReactor κ} (event : Bool) (slot : IOSlot) (a : Attempt), KernelOk s →
      KernelOk (if event then s.completeAwaitableAndWake c slot a else s) := by
    intro s event slot a hs
    cases event with
    | false => exact hs
    | true => exact hs.completeAwaitableAndWake slot a
  unfold EpollReactor.processEvent at hprocess
  dsimp only at hprocess
  split at hprocess
  · cases hprocess
    exact h
  · split at hprocess
    · cases hprocess
    · next hdispatch =>
      exact ((hseen _ _ _ (hseen _ _ _ h)).dispatchOwners herrors hdispatch).syncEvents herrors hprocess

omit [DecidableEq κ] in
lemma KernelOk.wait {batch : List (Nat × EventMask)} (h : KernelOk s)
    (hwait : s.wait batch = some s') : KernelOk s' := by
  induction batch generalizing s with
  | nil =>
    cases hwait
    exact h
  | cons report batch ih =>
    obtain ⟨file, mask, owner, hfile, -, -, hrest⟩ := wait_cons hwait
    have hedges : KernelOk (s.setFile report.1 (some { file with edge := .empty })) :=
      h.setFile hfile rfl
    have hreported : KernelOk (s.reported report.1 file owner report.2) :=
      hedges.congr (fun _ => rfl) fun _ => rfl
    exact ih hreported hrest

lemma KernelOk.poll {batch : List (Nat × EventMask)} (h : KernelOk s)
    (herrors : HonestErrors errors) (hpoll : s.poll errors batch = some s') : KernelOk s' := by
  unfold EpollReactor.poll at hpoll
  split at hpoll
  · cases hpoll
  · next hflush =>
    cases hpoll
    exact h.flushChanges herrors hflush
  · next hflush => exact (h.flushChanges herrors hflush).wait hpoll

omit [DecidableEq κ] in
lemma KernelOk.of_one (h : KernelOk s)
    (hctl : ∀ c', c' ≠ c → s'.controllers c' = s.controllers c')
    (hfiles : ∀ fd', fd' ≠ fd → s'.files fd' = s.files fd')
    (hother : ∀ c', c' ≠ c → (s.controllers c').handle ≠ some fd)
    (hown : ∀ fd', (s.controllers c).handle = some fd' → fd' = fd)
    (hfresh : (s'.controllers c).constructed = false → (s'.controllers c).handle = none)
    (hself : (s'.controllers c).handle = none ∧ s'.files fd = none ∨
      (s'.controllers c).handle = some fd ∧ ∃ file, s'.files fd = some file ∧
        file.registration = (s'.controllers c).registeredEvents.map (·, c)) : KernelOk s' := by
  have hcases : ∀ {c' fd'}, (s'.controllers c').handle = some fd' →
      (c' = c ∧ fd' = fd ∧ ∃ file, s'.files fd = some file ∧
        file.registration = (s'.controllers c).registeredEvents.map (·, c)) ∨
      c' ≠ c ∧ fd' ≠ fd ∧ (s.controllers c').handle = some fd' := by
    intro c' fd' hc'
    by_cases hc : c' = c
    · rw [hc] at hc'
      obtain ⟨hnone, -⟩ | ⟨hsome, hfile⟩ := hself
      · cases hnone.symm.trans hc'
      · exact .inl ⟨hc, (Option.some.inj (hsome.symm.trans hc')).symm, hfile⟩
    · rw [hctl c' hc] at hc'
      exact .inr ⟨hc, fun hfd => hother c' hc (hfd ▸ hc'), hc'⟩
  refine ⟨fun {c'} hc' => ?_, fun {c' fd'} hc' => ?_, fun {c₁ c₂ fd'} h₁ h₂ => ?_,
    fun {fd' file} hfile => ?_, fun {c' fd' file} hc' hfile => ?_⟩
  · by_cases hc : c' = c
    · rw [hc] at hc' ⊢
      exact hfresh hc'
    · rw [hctl c' hc] at hc' ⊢
      exact h.fresh hc'
  · rcases hcases hc' with ⟨-, rfl, file, hfile, -⟩ | ⟨-, hfd, hc'⟩
    · exact ⟨file, hfile⟩
    · rw [hfiles fd' hfd]
      exact h.opened hc'
  · rcases hcases h₁ with ⟨hc₁, hfd₁, -⟩ | ⟨-, hfd₁, h₁⟩ <;>
      rcases hcases h₂ with ⟨hc₂, hfd₂, -⟩ | ⟨-, hfd₂, h₂⟩
    · rw [hc₁, hc₂]
    · exact absurd hfd₁ hfd₂
    · exact absurd hfd₂ hfd₁
    · exact h.own h₁ h₂
  · by_cases hfd : fd' = fd
    · rw [hfd] at hfile ⊢
      obtain ⟨-, hnone⟩ | ⟨hsome, -⟩ := hself
      · cases hnone.symm.trans hfile
      · exact ⟨c, hsome⟩
    · rw [hfiles fd' hfd] at hfile
      obtain ⟨c', hc'⟩ := h.owned hfile
      have hc : c' ≠ c := by
        rintro rfl
        exact hfd (hown fd' hc')
      exact ⟨c', by rw [hctl c' hc, hc']⟩
  · rcases hcases hc' with ⟨rfl, rfl, file', hfile', hregistered⟩ | ⟨hc, hfd, hc'⟩
    · cases hfile'.symm.trans hfile
      exact hregistered
    · rw [hfiles fd' hfd] at hfile
      rw [hctl c' hc]
      exact h.exact hc' hfile

lemma KernelOk.create (h : KernelOk s) (hfresh : (s.controllers c).constructed = false)
    (hfile : s.files fd = none) :
    KernelOk ((s.setController c (.new fd)).setFile fd (some .opened)) := by
  have hself : ((s.setController c (.new fd)).setFile fd (some .opened)).controllers c = .new fd :=
    setController_self _
  refine h.of_one (c := c) (fun c' hc => setController_of_ne _ hc)
    (fun fd' hfd => setFile_of_ne _ hfd) ?_ ?_ ?_ ?_
  · intro c' _ hc'
    obtain ⟨file, hopened⟩ := h.opened hc'
    cases hfile.symm.trans hopened
  · intro fd' hc
    cases (h.fresh hfresh).symm.trans hc
  · rw [hself]
    exact nofun
  · rw [hself]
    exact .inr ⟨rfl, .opened, setFile_self _, rfl⟩

lemma KernelOk.close (h : KernelOk s) : KernelOk (s.close c) := by
  unfold EpollReactor.close
  split
  · exact h
  · next fd hhandle =>
    refine h.of_one (c := c) (fun c' hc => setController_of_ne _ hc)
      (fun fd' hfd => setFile_of_ne _ hfd) ?_ ?_ (fun _ => ?_) (.inl ⟨?_, setFile_self _⟩)
    · exact fun c' hc hc' => hc (h.own hc' hhandle)
    · exact fun fd' hc => Option.some.inj (hc.symm.trans hhandle)
    · rw [setFile_controllers, setController_self]
      rfl
    · rw [setFile_controllers, setController_self]
      rfl

omit [DecidableEq κ] in
lemma kernelOk_init : KernelOk (.init : EpollReactor κ) where
  fresh _ := rfl
  opened := nofun
  own := nofun
  owned := nofun
  exact := nofun

/-- No controller is moved, and the errors are honest. -/
def StaysPut (a : CtlErrors × EpollAction κ) : Prop :=
  HonestErrors a.1 ∧ ∀ c c', a.2 ≠ .move c c'

lemma KernelOk.step {a : CtlErrors × EpollAction κ} (h : KernelOk s) (hstays : StaysPut a)
    (hstep : s.step a = some s') : KernelOk s' := by
  obtain ⟨errors, a⟩ := a
  obtain ⟨herrors, hmove⟩ := hstays
  have hsteps := step_steps hstep
  cases hsteps with
  | arrive fd slot file hfile => exact h.setFile hfile rfl
  | process c events rest read write readSteps writeSteps _ hevents hprocess =>
    have hpopped : KernelOk { s with events := rest } := h.congr (fun _ => rfl) fun _ => rfl
    exact hpopped.processEvent herrors hprocess
  | create c fd _ hfile =>
    refine h.create ?_ hfile
    simp only [EpollReactor.step] at hstep
    split at hstep
    · cases hstep
    · split at hstep
      · cases hstep
      · next hfree =>
        rw [Bool.or_eq_true, not_or, Bool.not_eq_true] at hfree
        exact hfree.1
  | begin c type a _ _ hbegin => exact h.begin herrors hbegin
  | beginSequence c domain steps _ _ hbegin => exact h.beginSequence herrors hbegin
  | resume c slot => exact h.setController rfl
  | resumeSequence c slot seq howner => exact h.setController rfl
  | expire c slot => exact h.setController rfl
  | expireSequence c slot active seq howner => exact h.setController rfl
  | close c => exact h.close
  | move c c' => exact absurd rfl (hmove c c')
  | flush _ _ hflush => exact h.flushChanges herrors hflush
  | poll batch _ _ hpoll => exact h.poll herrors hpoll

end GalayKernel.EpollReactor

namespace GalayKernel.Proofs

open Transition EpollReactor

variable {κ : Type} [DecidableEq κ]

/-- The registration that a controller will have when its pending change has been made, and
otherwise the one it has. -/
def effectiveRegistration (s : EpollReactor κ) (c : κ) : Option EventMask :=
  (s.pendingChanges.lookup c).or (s.controllers c).registeredEvents

/-- The interest set of the kernel holds exactly the masks that the open controllers remember. -/
def InterestExact (s : EpollReactor κ) : Prop :=
  ∀ fd mask c, (∃ file, s.files fd = some file ∧ file.registration = some (mask, c)) ↔
    (s.controllers c).handle = some fd ∧ (s.controllers c).registeredEvents = some mask

omit [DecidableEq κ] in
lemma interestExact_of_kernelOk {s : EpollReactor κ} (h : KernelOk s) :
    InterestExact s := by
  intro fd mask c
  constructor
  · rintro ⟨file, hfile, hregistration⟩
    obtain ⟨c', hc'⟩ := h.owned hfile
    rw [h.exact hc' hfile, Option.map_eq_some_iff] at hregistration
    obtain ⟨mask', hregistered, heq⟩ := hregistration
    cases heq
    exact ⟨hc', hregistered⟩
  · rintro ⟨hhandle, hregistered⟩
    obtain ⟨file, hfile⟩ := h.opened hhandle
    refine ⟨file, hfile, ?_⟩
    rw [h.exact hhandle hfile, hregistered, Option.map_some]

/-- Each controller has at most one pending change, an open controller that waits for a direction
will be registered for it, and after a flush the kernel has what the controllers remember. -/
theorem registration_covers {s : EpollReactor κ}
    (h : Reaches step (fun _ a => StaysPut a) .init s) :
    (s.pendingChanges.map Prod.fst).Nodup ∧
      (∀ c slot, (s.controllers c).handle ≠ none → (s.controllers c).waits slot →
        (effectiveRegistration s c).any (·.has slot)) ∧
      ∀ errors s', HonestErrors errors → s.flushPendingChanges errors = some (s', true) →
        s'.pendingChanges = [] ∧ InterestExact s' := by
  have hmoves : Reaches step (fun s a => s.movesUnregistered a) .init s := by
    refine h.mono fun s a hstays => ?_
    unfold movesUnregistered
    split
    · next c c' hmove => exact absurd hmove (hstays.2 c c')
    · rfl
  have hok := reaches_reactorOk hmoves
  have hkernel := h.invariant (P := KernelOk) kernelOk_init fun _ _ _ hs hstays => hs.step hstays
  refine ⟨hok.unique, fun c slot _ hwaits => (hok.covered c).wanted slot hwaits,
    fun errors s' herrors hflush => ⟨flushChanges_empty hflush, ?_⟩⟩
  exact interestExact_of_kernelOk (hkernel.flushChanges herrors hflush)

def outOfMemory : CtlErrors := fun op _ => if op = .add then some 12 else none

/-- A `recv` waits, and its registration fails at first. -/
def refusedOnce : List (CtlErrors × EpollAction Bool) :=
  [(noErrors, .create false 3), (noErrors, .begin false .recv .blocked), (outOfMemory, .flush)]

def afterRefusedOnce : EpollReactor Bool := (run step .init refusedOnce).getD .init

lemma refusedOnce_staysPut : ∀ a ∈ refusedOnce, StaysPut a := by
  have hno : HonestErrors noErrors := nofun
  have hmemory : HonestErrors outOfMemory := by
    intro op fd
    cases op <;> simp [outOfMemory, ENOENT]
  simp [refusedOnce, StaysPut, hno, hmemory]

theorem refusedOnce_registration_covers :
    (afterRefusedOnce.controllers false).waits .read ∧
      effectiveRegistration afterRefusedOnce false = some ⟨true, false⟩ ∧
      ∃ s', afterRefusedOnce.flushPendingChanges noErrors = some (s', true) ∧ InterestExact s' :=
  ⟨rfl, rfl, _, rfl, ((registration_covers
    (.of_permitted refusedOnce (fun a ha _ => refusedOnce_staysPut a ha) .start rfl)).2.2
      noErrors _ nofun rfl).2⟩

end GalayKernel.Proofs
