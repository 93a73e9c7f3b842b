import GalayKernel.EpollReactor
import GalayKernel.Proofs.SequenceOwners

namespace GalayKernel

namespace EventMask

variable {m m' : EventMask} {slot slot' : IOSlot} {b : Bool}

@[simp] lemma has_inter : (m.inter m').has slot = (m.has slot && m'.has slot) := by
  cases slot <;> rfl

@[simp] lemma has_set_self : (m.set slot b).has slot = b := by
  cases slot <;> rfl

lemma has_set_of_ne (h : slot' ≠ slot) : (m.set slot b).has slot' = m.has slot' := by
  cases slot <;> cases slot' <;> first | rfl | exact absurd rfl h

end EventMask

namespace EpollReactor

open Coalesced

variable {κ : Type} {s s' : EpollReactor κ} {errors : CtlErrors} {c c' : κ}
  {events : EventMask} {fd : Nat} {slot : IOSlot} {ok : Bool}

@[simp] lemma setFile_controllers (file : Option (EpollFile κ)) :
    (s.setFile fd file).controllers = s.controllers := rfl

@[simp] lemma setFile_self (file : Option (EpollFile κ)) :
    (s.setFile fd file).files fd = file := Function.update_self ..

lemma setFile_of_ne (file : Option (EpollFile κ)) {fd' : Nat} (h : fd' ≠ fd) :
    (s.setFile fd file).files fd' = s.files fd' := Function.update_of_ne h ..

def registers (s : EpollReactor κ) (c : κ) (slot : IOSlot) : Bool :=
  (s.controllers c).registeredEvents.any (·.has slot)

/-- Each open controller has its own descriptor, and the kernel has for it the mask that the
controller remembers and the controller itself. -/
structure RegOk (s : EpollReactor κ) : Prop where
  opened : ∀ {c fd}, (s.controllers c).handle = some fd → ∃ file, s.files fd = some file
  own : ∀ {c c' fd}, (s.controllers c).handle = some fd → (s.controllers c').handle = some fd →
    c = c'
  kernel : ∀ {c fd events file}, (s.controllers c).handle = some fd →
    (s.controllers c).registeredEvents = some events → s.files fd = some file →
    file.registration = some (events, c)

/-- If the descriptor is ready, then `epoll_wait` has still to report that, the event has still to
be processed, or the direction is not registered. -/
def LiveOn (s : EpollReactor κ) (c : κ) (slot : IOSlot) : Prop :=
  ∀ ⦃fd file⦄, (s.controllers c).handle = some fd → s.files fd = some file → file.ready.has slot →
    file.edge.has slot ∨ (∃ events, (c, events) ∈ s.events ∧ events.has slot) ∨
      s.registers c slot = false

/-- What leaves the descriptors with their controllers and strands nothing. -/
structure Keeps (s s' : EpollReactor κ) : Prop where
  handle : ∀ c, (s'.controllers c).handle = (s.controllers c).handle
  events : s'.events = s.events
  regOk : RegOk s → RegOk s'
  live : RegOk s → ∀ c slot, LiveOn s c slot → LiveOn s' c slot

lemma Keeps.refl (s : EpollReactor κ) : Keeps s s :=
  ⟨fun _ => rfl, rfl, id, fun _ _ _ => id⟩

lemma Keeps.trans {s'' : EpollReactor κ} (h : Keeps s s') (h' : Keeps s' s'') : Keeps s s'' where
  handle c := (h'.handle c).trans (h.handle c)
  events := h'.events.trans h.events
  regOk hok := h'.regOk (h.regOk hok)
  live hok c slot hlive := h'.live (h.regOk hok) c slot (h.live hok c slot hlive)

/-- The controllers keep everything but the mask that they remember. -/
def SameAwaiters (s s' : EpollReactor κ) : Prop :=
  ∀ c, s'.controllers c =
    { s.controllers c with registeredEvents := (s'.controllers c).registeredEvents }

lemma SameAwaiters.refl (s : EpollReactor κ) : SameAwaiters s s := fun _ => rfl

lemma SameAwaiters.trans {s'' : EpollReactor κ} (h : SameAwaiters s s') (h' : SameAwaiters s' s'') :
    SameAwaiters s s'' := by
  intro c
  rw [h' c, h c]

lemma SameAwaiters.handle (h : SameAwaiters s s') (c : κ) :
    (s'.controllers c).handle = (s.controllers c).handle := by
  rw [h c]

lemma epollCtl_ok {op : CtlOp} (h : s.epollCtl errors op fd c events = some (.ok s')) :
    ∃ file file', s.files fd = some file ∧ file.ctl op c events = .ok file' ∧
      s' = s.setFile fd (some file') := by
  unfold epollCtl at h
  split at h
  · split at h <;> cases h
  · split at h
    · cases h
    · next file hfile =>
      split at h
      · cases h
      · next file' hctl =>
        cases h
        exact ⟨file, file', hfile, hctl, rfl⟩

def needsCtl (s : EpollReactor κ) (c : κ) (events : EventMask) : Bool :=
  (s.controllers c).handle.isSome &&
    match (s.controllers c).registeredEvents with
    | none => events != .empty
    | some registered => events != registered

variable [DecidableEq κ]

@[simp] lemma setController_files (ctl : EpollController) :
    (s.setController c ctl).files = s.files := rfl

@[simp] lemma setController_self (ctl : EpollController) :
    (s.setController c ctl).controllers c = ctl := Function.update_self ..

lemma setController_of_ne (ctl : EpollController) (h : c' ≠ c) :
    (s.setController c ctl).controllers c' = s.controllers c' := Function.update_of_ne h ..

/-- The mask that is queued, or else the one that is registered, covers the direction. -/
def wantsIn (pending : List (κ × EventMask)) (s : EpollReactor κ) (c : κ) (slot : IOSlot) : Bool :=
  ((pending.lookup c).or (s.controllers c).registeredEvents).any (·.has slot)

def wants (s : EpollReactor κ) : κ → IOSlot → Bool := s.wantsIn s.pendingChanges

def registerFile (s : EpollReactor κ) (fd : Nat) (c : κ) (file : EpollFile κ) (events : EventMask)
    (edge : EventMask) : EpollReactor κ :=
  (s.setFile fd (some { file with registration := some (events, c), edge := edge })).setRegistered c
    (some events)

def unregisterFile (s : EpollReactor κ) (fd : Nat) (c : κ) (file : EpollFile κ) : EpollReactor κ :=
  (s.setFile fd (some { file with registration := none, edge := .empty })).setRegistered c none

inductive Commits (s : EpollReactor κ) (c : κ) (events : EventMask) :
    EpollReactor κ × Bool → Prop where
  | skipped (hneeds : s.needsCtl c events = false) : Commits s c events (s, true)
  | failed (hneeds : s.needsCtl c events = true) : Commits s c events (s, false)
  | stored (fd : Nat) (file : EpollFile κ) (edge : EventMask)
      (hhandle : (s.controllers c).handle = some fd) (hfile : s.files fd = some file)
      (hevents : events ≠ .empty)
      (hedge : ∀ slot, events.has slot → file.ready.has slot → edge.has slot) :
      Commits s c events (s.registerFile fd c file events edge, true)
  | deleted (fd : Nat) (file : EpollFile κ) (hhandle : (s.controllers c).handle = some fd)
      (hfile : s.files fd = some file) (hevents : events = .empty) :
      Commits s c events (s.unregisterFile fd c file, true)
  | gone (hevents : events = .empty) : Commits s c events (s.setRegistered c none, true)

lemma addRegistration_commits {out : EpollReactor κ × Bool}
    (hhandle : (s.controllers c).handle = some fd) (hneeds : s.needsCtl c events = true)
    (hevents : events ≠ .empty) (h : s.addRegistration errors fd c events = some out) :
    Commits s c events out := by
  unfold addRegistration at h
  split at h
  · cases h
  · next hctl =>
    cases h
    obtain ⟨file, file', hfile, hop, rfl⟩ := epollCtl_ok hctl
    simp only [EpollFile.ctl] at hop
    split at hop
    · cases hop
    · cases hop
      exact .stored fd file _ hhandle hfile hevents fun slot hslot hready => by simp [hslot, hready]
  · cases h
    exact .failed hneeds

lemma commit_commits {out : EpollReactor κ × Bool} (h : s.commit errors c events = some out) :
    Commits s c events out := by
  unfold commit at h
  split at h
  · next hhandle =>
    cases h
    exact .skipped (by simp [needsCtl, hhandle])
  · next fd hhandle =>
    split at h
    · next hregistered =>
      split at h
      · next hevents =>
        cases h
        exact .skipped (by simp [needsCtl, hhandle, hregistered, hevents])
      · next hevents =>
        exact addRegistration_commits hhandle (by simp [needsCtl, hhandle, hregistered, hevents])
          hevents h
    · next registered hregistered =>
      split at h
      · next hevents =>
        cases h
        exact .skipped (by simp [needsCtl, hhandle, hregistered, hevents])
      · next hne =>
        have hneeds : s.needsCtl c events = true := by
          simp [needsCtl, hhandle, hregistered, hne]
        split at h
        · next hevents =>
          unfold deleteRegistration at h
          split at h
          · cases h
          · next hctl =>
            cases h
            obtain ⟨file, file', hfile, hop, rfl⟩ := epollCtl_ok hctl
            simp only [EpollFile.ctl] at hop
            split at hop
            · cases hop
            · cases hop
              exact .deleted fd file hhandle hfile hevents
          · split at h
            · cases h
              exact .gone hevents
            · cases h
              exact .failed hneeds
        · next hevents =>
          unfold modifyRegistration at h
          split at h
          · cases h
          · next hctl =>
            cases h
            obtain ⟨file, file', hfile, hop, rfl⟩ := epollCtl_ok hctl
            simp only [EpollFile.ctl] at hop
            split at hop
            · cases hop
            · cases hop
              exact .stored fd file _ hhandle hfile hevents fun slot hslot hready => by
                simp [hslot, hready]
          · split at h
            · exact addRegistration_commits hhandle hneeds hevents h
            · cases h
              exact .failed hneeds

@[simp] lemma setRegistered_files (r : Option EventMask) :
    (s.setRegistered c r).files = s.files := rfl

@[simp] lemma setRegistered_events (r : Option EventMask) :
    (s.setRegistered c r).events = s.events := rfl

@[simp] lemma setRegistered_pendingChanges (r : Option EventMask) :
    (s.setRegistered c r).pendingChanges = s.pendingChanges := rfl

lemma setRegistered_self (r : Option EventMask) :
    ((s.setRegistered c r).controllers c).registeredEvents = r := by
  simp [setRegistered]

lemma setRegistered_of_ne (r : Option EventMask) (h : c' ≠ c) :
    (s.setRegistered c r).controllers c' = s.controllers c' :=
  setController_of_ne _ h

lemma setRegistered_sameAwaiters (r : Option EventMask) : SameAwaiters s (s.setRegistered c r) := by
  intro c'
  by_cases hc : c' = c
  · subst hc
    simp [setRegistered]
  · rw [setRegistered_of_ne r hc]

omit [DecidableEq κ] in
lemma setFile_other {file : Option (EpollFile κ)} (hok : RegOk s)
    (hhandle : (s.controllers c).handle = some fd) {fd' : Nat} (hc : c' ≠ c)
    (hhandle' : (s.controllers c').handle = some fd') :
    (s.setFile fd file).files fd' = s.files fd' := by
  refine setFile_of_ne _ ?_
  rintro rfl
  exact hc (hok.own hhandle' hhandle)

omit [DecidableEq κ] in
lemma keeps_of_one (hawaiters : SameAwaiters s s') (hevents : s'.events = s.events)
    (hother : ∀ c', c' ≠ c → s'.controllers c' = s.controllers c')
    (hfiles : RegOk s → ∀ c' fd, c' ≠ c → (s.controllers c').handle = some fd →
      s'.files fd = s.files fd)
    (hself : RegOk s → ∀ fd, (s.controllers c).handle = some fd → ∃ file, s'.files fd = some file ∧
      (∀ events, (s'.controllers c).registeredEvents = some events →
        file.registration = some (events, c)) ∧
      ∀ slot, s'.registers c slot = true → file.ready.has slot → file.edge.has slot) :
    Keeps s s' := by
  refine ⟨hawaiters.handle, hevents, fun hok => ⟨fun {c' fd'} h => ?_, fun {c₁ c₂ fd'} h₁ h₂ => ?_,
    fun {c' fd' events file} h hregistered hfile => ?_⟩, fun hok c' slot h => ?_⟩
  · rw [hawaiters.handle] at h
    by_cases hc : c' = c
    · subst hc
      obtain ⟨file, hfile, -⟩ := hself hok fd' h
      exact ⟨file, hfile⟩
    · rw [hfiles hok c' fd' hc h]
      exact hok.opened h
  · rw [hawaiters.handle] at h₁ h₂
    exact hok.own h₁ h₂
  · rw [hawaiters.handle] at h
    by_cases hc : c' = c
    · subst hc
      obtain ⟨file', hfile', hkernel, -⟩ := hself hok fd' h
      cases hfile'.symm.trans hfile
      exact hkernel events hregistered
    · rw [hfiles hok c' fd' hc h] at hfile
      rw [hother c' hc] at hregistered
      exact hok.kernel h hregistered hfile
  · intro fd' file hhandle hfile hready
    rw [hawaiters.handle] at hhandle
    by_cases hc : c' = c
    · subst hc
      obtain ⟨file', hfile', -, hlive⟩ := hself hok fd' hhandle
      cases hfile'.symm.trans hfile
      cases hregisters : s'.registers c' slot with
      | false => exact .inr (.inr rfl)
      | true => exact .inl (hlive slot hregisters hready)
    · rw [hfiles hok c' fd' hc hhandle] at hfile
      rw [registers, hother c' hc, hevents]
      exact h hhandle hfile hready

lemma keeps_registration {file' : EpollFile κ} {r : Option EventMask}
    (hhandle : (s.controllers c).handle = some fd)
    (hkernel : ∀ events, r = some events → file'.registration = some (events, c))
    (hlive : ∀ slot, r.any (·.has slot) → file'.ready.has slot → file'.edge.has slot) :
    Keeps s ((s.setFile fd (some file')).setRegistered c r) := by
  refine keeps_of_one (setRegistered_sameAwaiters (s := s.setFile fd (some file')) r) rfl
    (fun _ hc => setRegistered_of_ne r hc) (fun hok _ _ => setFile_other hok hhandle)
    fun _ fd' h => ?_
  cases h.symm.trans hhandle
  refine ⟨file', setFile_self _, ?_, ?_⟩
  · rw [setRegistered_self]
    exact hkernel
  · intro slot
    rw [registers, setRegistered_self]
    exact hlive slot

lemma keeps_forget : Keeps s (s.setRegistered c none) := by
  refine keeps_of_one (setRegistered_sameAwaiters none) rfl (fun _ => setRegistered_of_ne none)
    (fun _ _ _ _ _ => rfl) fun hok fd h => ?_
  obtain ⟨file, hfile⟩ := hok.opened h
  refine ⟨file, hfile, ?_, ?_⟩
  · rw [setRegistered_self]
    intro events hnone
    cases hnone
  · intro slot
    rw [registers, setRegistered_self]
    intro hnone
    cases hnone

structure Committed (s : EpollReactor κ) (c : κ) (events : EventMask) (s' : EpollReactor κ) :
    Prop where
  keeps : Keeps s s'
  awaiters : SameAwaiters s s'
  pending : s'.pendingChanges = s.pendingChanges
  other : ∀ c', c' ≠ c → s'.controllers c' = s.controllers c'
  files : RegOk s → ∀ c' fd, c' ≠ c → (s.controllers c').handle = some fd →
    s'.files fd = s.files fd
  done : (s.controllers c).handle ≠ none → ∀ slot, s'.registers c slot = events.has slot

omit [DecidableEq κ] in
lemma needsCtl_eq_false (h : s.needsCtl c events = false) (hhandle : (s.controllers c).handle ≠ none) :
    ∀ slot, s.registers c slot = events.has slot := by
  intro slot
  rw [needsCtl, Option.isSome_iff_ne_none.mpr hhandle, Bool.true_and] at h
  rw [registers]
  split at h
  · next hregistered =>
    rw [hregistered, show events = .empty by simpa using h]
    simp
  · next hregistered =>
    rw [hregistered, show events = _ by simpa using h]
    simp

lemma Commits.committed (h : Commits s c events (s', true)) : Committed s c events s' := by
  generalize hout : (s', true) = out at h
  cases h with
  | skipped hneeds =>
    cases hout
    exact ⟨.refl s, .refl s, rfl, fun _ _ => rfl, fun _ _ _ _ _ => rfl, needsCtl_eq_false hneeds⟩
  | failed hneeds => cases hout
  | stored fd file edge hhandle hfile hevents hedge =>
    cases hout
    refine ⟨keeps_registration hhandle ?_ ?_, setRegistered_sameAwaiters _, rfl,
      fun _ h => setRegistered_of_ne _ h, fun hok _ _ => setFile_other hok hhandle,
      fun _ slot => ?_⟩
    · intro events' h
      cases h
      rfl
    · intro slot hslot hready
      exact hedge slot hslot hready
    · rw [registerFile, registers, setRegistered_self]
      rfl
  | deleted fd file hhandle hfile hevents =>
    cases hout
    refine ⟨keeps_registration hhandle ?_ ?_, setRegistered_sameAwaiters _, rfl,
      fun _ h => setRegistered_of_ne _ h, fun hok _ _ => setFile_other hok hhandle,
      fun _ slot => ?_⟩
    · intro events' h
      cases h
    · intro slot hslot
      cases hslot
    · rw [unregisterFile, registers, setRegistered_self, hevents]
      simp
  | gone hevents =>
    cases hout
    refine ⟨keeps_forget, setRegistered_sameAwaiters _, rfl, fun _ h => setRegistered_of_ne _ h,
      fun _ _ _ _ _ => rfl, fun _ slot => ?_⟩
    rw [registers, setRegistered_self, hevents]
    simp

lemma Commits.eq_of_failed (h : Commits s c events (s', false)) : s' = s := by
  generalize hout : (s', false) = out at h
  cases h <;> cases hout
  rfl

omit [DecidableEq κ] in
lemma keeps_pending (pending : List (κ × EventMask)) :
    Keeps s { s with pendingChanges := pending } :=
  ⟨fun _ => rfl, rfl, fun hok => ⟨hok.opened, hok.own, hok.kernel⟩, fun _ _ _ h => h⟩

structure Flushed (pending : List (κ × EventMask)) (s s' : EpollReactor κ) : Prop where
  keeps : Keeps s s'
  awaiters : SameAwaiters s s'
  unique : Unique s'.pendingChanges
  wants : ∀ c slot, (s.controllers c).handle ≠ none → s'.wants c slot = s.wantsIn pending c slot

lemma Flushed.commit {pending : List (κ × EventMask)} {s'' : EpollReactor κ}
    (hcommitted : Committed s c events s') (hunique : Unique ((c, events) :: pending))
    (h : Flushed pending s' s'') : Flushed ((c, events) :: pending) s s'' where
  keeps := hcommitted.keeps.trans h.keeps
  awaiters := hcommitted.awaiters.trans h.awaiters
  unique := h.unique
  wants c' slot hhandle := by
    rw [h.wants c' slot (by rwa [hcommitted.awaiters.handle]), wantsIn, wantsIn]
    by_cases hc : c' = c
    · subst hc
      rw [hunique.lookup_tail, lookup_cons_self]
      exact hcommitted.done hhandle slot
    · rw [lookup_cons_of_ne hc, hcommitted.other c' hc]

lemma flushChanges_flushed {pending : List (κ × EventMask)} (hunique : Unique pending)
    (h : flushChanges errors pending s = some (s', ok)) : Flushed pending s s' := by
  induction pending generalizing s with
  | nil =>
    cases h
    exact ⟨keeps_pending _, fun _ => rfl, List.nodup_nil, fun _ _ _ => rfl⟩
  | cons change pending ih =>
    obtain ⟨c, events⟩ := change
    rw [flushChanges] at h
    split at h
    · cases h
    · next hcommit => exact .commit (commit_commits hcommit).committed hunique (ih hunique.tail h)
    · next hcommit =>
      cases h
      cases (commit_commits hcommit).eq_of_failed
      exact ⟨keeps_pending _, fun _ => rfl, hunique, fun _ _ _ => rfl⟩

lemma flushPendingChanges_flushed (hunique : Unique s.pendingChanges)
    (h : s.flushPendingChanges errors = some (s', ok)) : Flushed s.pendingChanges s s' :=
  flushChanges_flushed hunique h

lemma flushChanges_empty {pending : List (κ × EventMask)}
    (h : flushChanges errors pending s = some (s', true)) : s'.pendingChanges = [] := by
  induction pending generalizing s with
  | nil =>
    cases h
    rfl
  | cons change pending ih =>
    obtain ⟨c, events⟩ := change
    rw [flushChanges] at h
    split at h
    · cases h
    · exact ih h
    · cases h

structure Applies (s : EpollReactor κ) (c : κ) (events : EventMask) (s' : EpollReactor κ) :
    Prop where
  keeps : Keeps s s'
  awaiters : SameAwaiters s s'
  unique : Unique s'.pendingChanges
  self : ∀ slot, s'.wants c slot = events.has slot
  other : ∀ c' slot, c' ≠ c → (s.controllers c').handle ≠ none → s'.wants c' slot = s.wants c' slot

lemma applyEvents_applies (hunique : Unique s.pendingChanges)
    (hhandle : (s.controllers c).handle ≠ none)
    (h : s.applyEvents errors c events = some (s', ok)) : Applies s c events s' := by
  unfold applyEvents at h
  rw [if_neg (by simpa using hhandle)] at h
  split at h
  · next hregistered =>
    cases h
    refine ⟨keeps_pending _, fun _ => rfl, hunique.drop c, fun slot => ?_, fun c' slot hc _ => ?_⟩
    · rw [wants, wantsIn, hunique.lookup_drop_self, ← hregistered]
      rfl
    · rw [wants, wants, wantsIn, wantsIn, lookup_drop_of_ne hc]
  · split at h
    · next hpending =>
      cases h
      refine ⟨.refl s, .refl s, hunique, fun slot => ?_, fun _ _ _ _ => rfl⟩
      rw [wants, wantsIn, hpending]
      rfl
    · have hput : Flushed (Coalesced.put s.pendingChanges c events) s s' := by
        unfold flushBatch at h
        split at h
        · have hflushed := flushPendingChanges_flushed hunique.put h
          exact ⟨(keeps_pending _).trans hflushed.keeps, hflushed.awaiters, hflushed.unique,
            hflushed.wants⟩
        · cases h
          exact ⟨keeps_pending _, fun _ => rfl, hunique.put, fun _ _ _ => rfl⟩
      refine ⟨hput.keeps, hput.awaiters, hput.unique, fun slot => ?_, fun c' slot hc hhandle' => ?_⟩
      · rw [hput.wants c slot hhandle, wantsIn, lookup_put_self]
        rfl
      · rw [hput.wants c' slot hhandle', wantsIn, lookup_put_of_ne hc]
        rfl

end EpollReactor

end GalayKernel
