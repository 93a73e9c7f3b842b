import GalayKernel.Proofs.EpollFollows

namespace GalayKernel

namespace EpollReactor

open Coalesced

variable {κ : Type} {s s' : EpollReactor κ} {errors : CtlErrors} {c c' : κ}
  {events : EventMask} {fd : Nat} {failing : κ → Prop}

def Applied (s : EpollReactor κ) (c : κ) (events : EventMask) : Prop :=
  ∀ fd, (s.controllers c).handle = some fd → ∃ file, s.files fd = some file ∧
    file.registration = if events = .empty then none else some (events, c)

/-- A queue of changes, where `epoll_ctl` fails for the failing controllers and works for the others:
the kernel agrees with what they remember, and it reports no errors for them. -/
structure FlushOk (failing : κ → Prop) (errors : CtlErrors) (pending : List (κ × EventMask))
    (s : EpollReactor κ) : Prop where
  regOk : RegOk s
  unique : Unique pending
  unregistered : ∀ {c fd file}, ¬failing c → (s.controllers c).handle = some fd →
    (s.controllers c).registeredEvents = none → s.files fd = some file → file.registration = none
  registered : ∀ {c}, ¬failing c → (s.controllers c).registeredEvents ≠ some .empty
  works : ∀ {c fd}, ¬failing c → (s.controllers c).handle = some fd → ∀ op, errors op fd = none
  fails : ∀ {c fd}, failing c → (s.controllers c).handle = some fd → ∀ op, errors op fd ≠ none

/-- The change needs no call of `epoll_ctl`, or it is a removal that fails with `ENOENT`. -/
def Passes (s : EpollReactor κ) (errors : CtlErrors) (c : κ) (events : EventMask) : Prop :=
  s.needsCtl c events = true → events = .empty ∧
    ∀ fd, (s.controllers c).handle = some fd → errors .del fd = some ENOENT

/-- The changes of the failing controllers are dealt with although `epoll_ctl` fails. -/
def FailuresPass (failing : κ → Prop) (errors : CtlErrors) (pending : List (κ × EventMask))
    (s : EpollReactor κ) : Prop :=
  ∀ c events, (c, events) ∈ pending → failing c → s.Passes errors c events

lemma epollCtl_of_ok {op : CtlOp} {file file' : EpollFile κ} (herrors : errors op fd = none)
    (hop : file.ctl op c events = .ok file') (hfile : s.files fd = some file) :
    s.epollCtl errors op fd c events = some (.ok (s.setFile fd (some file'))) := by
  simp [epollCtl, herrors, hfile, hop]

variable [DecidableEq κ]

lemma commit_of_not_needsCtl (h : s.needsCtl c events = false) :
    s.commit errors c events = some (s, true) := by
  unfold commit
  split
  · rfl
  · next hhandle =>
    rw [needsCtl, hhandle, Option.isSome_some, Bool.true_and] at h
    split
    · next hregistered =>
      rw [hregistered] at h
      exact if_pos (by simpa using h)
    · next hregistered =>
      rw [hregistered] at h
      exact if_pos (by simpa using h)

lemma FlushOk.commit {pending : List (κ × EventMask)} (h : FlushOk failing errors pending s)
    (hc : ¬failing c) (hhandle : (s.controllers c).handle = some fd)
    (hneeds : s.needsCtl c events = true) : ∃ file edge, s.files fd = some file ∧
      s.commit errors c events = some ((s.setFile fd (some { file with
        registration := if events = .empty then none else some (events, c)
        edge := edge })).setRegistered c (if events = .empty then none else some events), true) := by
  obtain ⟨file, hfile⟩ := h.regOk.opened hhandle
  have herrors := h.works hc hhandle
  cases hregistered : (s.controllers c).registeredEvents with
  | none =>
    have hevents : events ≠ .empty := by simpa [needsCtl, hhandle, hregistered] using hneeds
    have hnone := h.unregistered hc hhandle hregistered hfile
    have hop : file.ctl .add c events = .ok { file with
        registration := some (events, c)
        edge := file.ready.inter events } := by simp [EpollFile.ctl, hnone]
    have hctl := epollCtl_of_ok (herrors .add) hop hfile
    refine ⟨file, file.ready.inter events, hfile, ?_⟩
    simp [EpollReactor.commit, hhandle, hregistered, hevents, addRegistration, hctl]
  | some registered =>
    have hne : events ≠ registered := by simpa [needsCtl, hhandle, hregistered] using hneeds
    have hsome := h.regOk.kernel hhandle hregistered hfile
    by_cases hevents : events = .empty
    · subst hevents
      have hop : file.ctl .del c .empty = .ok { file with registration := none, edge := .empty } := by
        simp [EpollFile.ctl, hsome]
      have hctl := epollCtl_of_ok (herrors .del) hop hfile
      refine ⟨file, .empty, hfile, ?_⟩
      simp [EpollReactor.commit, hhandle, hregistered, hne, deleteRegistration, hctl]
    · have hop : file.ctl .mod c events = .ok { file with
          registration := some (events, c)
          edge := (file.edge.union file.ready).inter events } := by simp [EpollFile.ctl, hsome]
      have hctl := epollCtl_of_ok (herrors .mod) hop hfile
      refine ⟨file, (file.edge.union file.ready).inter events, hfile, ?_⟩
      simp [EpollReactor.commit, hhandle, hregistered, hne, hevents, modifyRegistration, hctl]

omit [DecidableEq κ] in
lemma Committed.applied {events' : EventMask} (h : Committed s c events s') (hok : RegOk s)
    (hc : c' ≠ c) (happlied : Applied s c' events') : Applied s' c' events' := by
  intro fd hhandle
  rw [h.awaiters.handle] at hhandle
  rw [h.files hok c' fd hc hhandle]
  exact happlied fd hhandle

omit [DecidableEq κ] in
lemma FlushOk.applied {pending : List (κ × EventMask)} (h : FlushOk failing errors pending s)
    (hc : ¬failing c) (hneeds : s.needsCtl c events = false) : Applied s c events := by
  intro fd hhandle
  obtain ⟨file, hfile⟩ := h.regOk.opened hhandle
  refine ⟨file, hfile, ?_⟩
  rw [needsCtl, hhandle, Option.isSome_some, Bool.true_and] at hneeds
  split at hneeds
  · next hregistered =>
    rw [if_pos (by simpa using hneeds)]
    exact h.unregistered hc hhandle hregistered hfile
  · next registered hregistered =>
    have hevents : events = registered := by simpa using hneeds
    have hne : events ≠ .empty := by
      rintro rfl
      exact h.registered hc (hevents ▸ hregistered)
    rw [if_neg hne, hevents]
    exact h.regOk.kernel hhandle hregistered hfile

omit [DecidableEq κ] in
lemma handle_of_needsCtl (h : s.needsCtl c events = true) :
    ∃ fd, (s.controllers c).handle = some fd := by
  rw [needsCtl, Bool.and_eq_true] at h
  exact Option.isSome_iff_exists.mp h.1

omit [DecidableEq κ] in
lemma handle_of_not_passes (h : ¬s.Passes errors c events) :
    ∃ fd, (s.controllers c).handle = some fd :=
  handle_of_needsCtl (Classical.not_imp.mp h).1

omit [DecidableEq κ] in
lemma epollCtl_of_error {op : CtlOp} {errno : Nat} (h : errors op fd = some errno) :
    s.epollCtl errors op fd c events = if errno = EINTR then none else some (.error errno) := by
  simp [epollCtl, h]

lemma commit_of_enoent (hhandle : (s.controllers c).handle = some fd)
    (hneeds : s.needsCtl c .empty = true) (herrors : errors .del fd = some ENOENT) :
    s.commit errors c .empty = some (s.setRegistered c none, true) := by
  cases hregistered : (s.controllers c).registeredEvents with
  | none => simp [needsCtl, hregistered] at hneeds
  | some registered =>
    have hne : .empty ≠ registered := by simpa [needsCtl, hhandle, hregistered] using hneeds
    simp [EpollReactor.commit, hhandle, hregistered, hne, deleteRegistration,
      epollCtl_of_error herrors, ENOENT, EINTR]

/-- Every other change of a failing controller is refused, or interrupted for ever. -/
lemma commit_of_refused (hhandle : (s.controllers c).handle = some fd)
    (herrors : ∀ op, errors op fd ≠ none) (hnot : ¬s.Passes errors c events) :
    s.commit errors c events = none ∨ s.commit errors c events = some (s, false) := by
  rw [Passes, Classical.not_imp, hhandle] at hnot
  obtain ⟨hneeds, hnot⟩ := hnot
  have hctl : ∀ op, ∃ errno, errors op fd = some errno := fun op =>
    Option.ne_none_iff_exists'.mp (herrors op)
  obtain ⟨add, hadd⟩ := hctl .add
  obtain ⟨mod, hmod⟩ := hctl .mod
  obtain ⟨del, hdel⟩ := hctl .del
  have hadds : s.addRegistration errors fd c events = none ∨
      s.addRegistration errors fd c events = some (s, false) := by
    rw [addRegistration, epollCtl_of_error hadd]
    by_cases hintr : add = EINTR <;> simp [hintr]
  cases hregistered : (s.controllers c).registeredEvents with
  | none =>
    have hevents : events ≠ .empty := by simpa [needsCtl, hhandle, hregistered] using hneeds
    simpa [EpollReactor.commit, hhandle, hregistered, hevents] using hadds
  | some registered =>
    have hne : events ≠ registered := by simpa [needsCtl, hhandle, hregistered] using hneeds
    by_cases hevents : events = .empty
    · have hdel' : del ≠ ENOENT := fun heq => hnot ⟨hevents, by
        rintro fd' ⟨⟩
        rw [hdel, heq]⟩
      subst hevents
      simp only [EpollReactor.commit, hhandle, hregistered, hne, if_false, if_true,
        deleteRegistration, epollCtl_of_error hdel]
      by_cases hintr : del = EINTR <;> simp [hintr, hdel']
    · simp only [EpollReactor.commit, hhandle, hregistered, hne, hevents, if_false,
        modifyRegistration, epollCtl_of_error hmod]
      by_cases hintr : mod = EINTR
      · simp [hintr]
      · by_cases hentry : mod = ENOENT
        · simpa [hintr, hentry, EINTR, ENOENT] using hadds
        · simp [hintr, hentry]

omit [DecidableEq κ] in
lemma Committed.passes {s₁ : EpollReactor κ} {events' : EventMask}
    (h : Committed s c events s₁) (hc : c' ≠ c) :
    s₁.Passes errors c' events' ↔ s.Passes errors c' events' := by
  rw [Passes, Passes, needsCtl, needsCtl, h.other c' hc]

omit [DecidableEq κ] in
/-- A change concerns its own controller only. -/
lemma FlushOk.committed {pending : List (κ × EventMask)} {s₁ : EpollReactor κ}
    (h : FlushOk failing errors ((c, events) :: pending) s) (hcommitted : Committed s c events s₁)
    (hself : ¬failing c → (s₁.controllers c).registeredEvents ≠ some .empty ∧
      ∀ fd file, (s.controllers c).handle = some fd →
        (s₁.controllers c).registeredEvents = none → s₁.files fd = some file →
        file.registration = none) : FlushOk failing errors pending s₁ := by
  refine ⟨hcommitted.keeps.regOk h.regOk, h.unique.tail,
    fun {c' fd' file'} hc' hhandle' hregistered hfile' => ?_, fun {c'} hc' => ?_,
    fun {c' fd'} hc' hhandle' => ?_, fun {c' fd'} hc' hhandle' => ?_⟩
  · rw [hcommitted.awaiters.handle] at hhandle'
    by_cases heq : c' = c
    · subst heq
      exact (hself hc').2 fd' file' hhandle' hregistered hfile'
    · rw [hcommitted.other c' heq] at hregistered
      rw [hcommitted.files h.regOk c' fd' heq hhandle'] at hfile'
      exact h.unregistered hc' hhandle' hregistered hfile'
  · by_cases heq : c' = c
    · subst heq
      exact (hself hc').1
    · rw [hcommitted.other c' heq]
      exact h.registered hc'
  · exact h.works hc' (hcommitted.awaiters.handle c' ▸ hhandle')
  · exact h.fails hc' (hcommitted.awaiters.handle c' ▸ hhandle')

omit [DecidableEq κ] in
lemma FlushOk.failed {pending : List (κ × EventMask)} {s₁ : EpollReactor κ}
    (h : FlushOk failing errors ((c, events) :: pending) s) (hc : failing c)
    (hcommitted : Committed s c events s₁) : FlushOk failing errors pending s₁ :=
  h.committed hcommitted fun hnot => absurd hc hnot

lemma FlushOk.worked {pending : List (κ × EventMask)}
    (h : FlushOk failing errors ((c, events) :: pending) s) (hc : ¬failing c) :
    ∃ s₁, s.commit errors c events = some (s₁, true) ∧ FlushOk failing errors pending s₁ ∧
      Applied s₁ c events := by
  cases hneeds : s.needsCtl c events with
  | false =>
    exact ⟨s, commit_of_not_needsCtl hneeds, ⟨h.regOk, h.unique.tail, h.unregistered, h.registered,
      h.works, h.fails⟩, h.applied hc hneeds⟩
  | true =>
    obtain ⟨fd, hhandle⟩ := handle_of_needsCtl hneeds
    obtain ⟨file, edge, hfile, hcommit⟩ := h.commit hc hhandle hneeds
    have hcommitted := (commit_commits hcommit).committed
    refine ⟨_, hcommit, h.committed hcommitted fun _ => ⟨?_, fun fd' file' hhandle' => ?_⟩,
      fun fd' hhandle' => ?_⟩
    · rw [setRegistered_self]
      split
      · simp
      · next hevents => simpa using hevents
    · cases hhandle'.symm.trans hhandle
      rw [setRegistered_self, setRegistered_files, setFile_self, Option.some.injEq]
      rintro hregistered rfl
      split at hregistered
      · next hevents => exact if_pos hevents
      · cases hregistered
    · rw [hcommitted.awaiters.handle] at hhandle'
      cases hhandle'.symm.trans hhandle
      exact ⟨_, setFile_self _, rfl⟩

lemma FlushOk.passes_of_commit {pending : List (κ × EventMask)} {s₁ : EpollReactor κ}
    (h : FlushOk failing errors ((c, events) :: pending) s) (hc : failing c)
    (hcommit : s.commit errors c events = some (s₁, true)) : s.Passes errors c events := by
  by_contra hnot
  obtain ⟨fd, hhandle⟩ := handle_of_not_passes hnot
  rcases commit_of_refused hhandle (h.fails hc hhandle) hnot with hnone | hrefused
  · cases hnone.symm.trans hcommit
  · cases hrefused.symm.trans hcommit

lemma FlushOk.step {pending : List (κ × EventMask)}
    (h : FlushOk failing errors ((c, events) :: pending) s)
    (hpass : failing c → s.Passes errors c events) :
    ∃ s₁, s.commit errors c events = some (s₁, true) ∧
      FlushOk failing errors pending s₁ ∧ (¬failing c → Applied s₁ c events) := by
  by_cases hc : failing c
  · obtain ⟨s₁, hcommit⟩ : ∃ s₁, s.commit errors c events = some (s₁, true) := by
      cases hneeds : s.needsCtl c events with
      | false => exact ⟨s, commit_of_not_needsCtl hneeds⟩
      | true =>
        obtain ⟨rfl, herrors⟩ := hpass hc hneeds
        obtain ⟨fd, hhandle⟩ := handle_of_needsCtl hneeds
        exact ⟨_, commit_of_enoent hhandle hneeds (herrors fd hhandle)⟩
    exact ⟨s₁, hcommit, h.failed hc (commit_commits hcommit).committed, fun hnot => absurd hc hnot⟩
  · obtain ⟨s₁, hcommit, hok, happlied⟩ := h.worked hc
    exact ⟨s₁, hcommit, hok, fun _ => happlied⟩

omit [DecidableEq κ] in
lemma FlushOk.ne_of_mem {pending : List (κ × EventMask)} {events' : EventMask}
    (h : FlushOk failing errors ((c, events) :: pending) s) (hmem : (c', events') ∈ pending) :
    c' ≠ c := by
  rintro rfl
  exact (List.nodup_cons.mp h.unique).1 (List.mem_map.mpr ⟨_, hmem, rfl⟩)

lemma FlushOk.flush {pending : List (κ × EventMask)} (h : FlushOk failing errors pending s)
    (hpass : FailuresPass failing errors pending s) :
    ∃ s', flushChanges errors pending s = some (s', true) ∧
      (∀ c events, (c, events) ∈ pending → ¬failing c → Applied s' c events) ∧
      ∀ c events, c ∉ pending.map Prod.fst → Applied s c events → Applied s' c events := by
  induction pending generalizing s with
  | nil => exact ⟨_, rfl, fun _ _ hmem => (by cases hmem), fun _ _ _ happlied => happlied⟩
  | cons change pending ih =>
    obtain ⟨c, events⟩ := change
    obtain ⟨s₁, hcommit, hok, happlied⟩ := h.step (hpass c events List.mem_cons_self)
    have hcommitted := (commit_commits hcommit).committed
    obtain ⟨s', hflush, hrest, hkept⟩ := ih hok fun c' events' hmem hc' =>
      (hcommitted.passes (h.ne_of_mem hmem)).mpr
        (hpass c' events' (List.mem_cons_of_mem _ hmem) hc')
    refine ⟨s', ?_, fun c' events' hmem hc' => ?_, fun c' events' hnot happlied' => ?_⟩
    · rw [flushChanges, hcommit]
      exact hflush
    · rcases List.mem_cons.mp hmem with heq | hmem
      · cases heq
        exact hkept c events (List.nodup_cons.mp h.unique).1 (happlied hc')
      · exact hrest c' events' hmem hc'
    · rw [List.map_cons, List.mem_cons, not_or] at hnot
      exact hkept c' events' hnot.2 (hcommitted.applied h.regOk hnot.1 happlied')

/-- A flush that succeeds has passed the changes of the failing controllers. -/
lemma FlushOk.passes {pending : List (κ × EventMask)} (h : FlushOk failing errors pending s)
    (hflush : flushChanges errors pending s = some (s', true)) :
    FailuresPass failing errors pending s := by
  induction pending generalizing s with
  | nil => exact fun c events hmem => (by cases hmem)
  | cons change pending ih =>
    obtain ⟨c, events⟩ := change
    rw [flushChanges] at hflush
    split at hflush
    · cases hflush
    · next s₁ hcommit =>
      have hcommitted := (commit_commits hcommit).committed
      have hok : FlushOk failing errors pending s₁ := by
        by_cases hc : failing c
        · exact h.failed hc hcommitted
        · obtain ⟨s₂, hcommit', hok, -⟩ := h.worked hc
          cases hcommit'.symm.trans hcommit
          exact hok
      intro c' events' hmem hc'
      rcases List.mem_cons.mp hmem with heq | hmem
      · cases heq
        exact h.passes_of_commit hc' hcommit
      · exact (hcommitted.passes (h.ne_of_mem hmem)).mp (ih hok hflush c' events' hmem hc')
    · cases hflush

/-- A change that is refused stays at the front of the queue, and `poll` does nothing any more. -/
lemma poll_of_refused {pending : List (κ × EventMask)}
    (hpending : s.pendingChanges = (c, events) :: pending)
    (hrefused : s.commit errors c events = some (s, false)) (batch : List (Nat × EventMask)) :
    s.poll errors batch = some s := by
  rw [poll, flushPendingChanges, hpending, flushChanges, hrefused]
  simp only [← hpending]

omit [DecidableEq κ] in
lemma wait_empty (s : EpollReactor κ) (fd : Nat) : s.wait [(fd, .empty)] = none := by
  have hunion : ∀ m : EventMask, m.union .empty = m := fun m => by
    simp [EventMask.union, EventMask.empty]
  rw [wait]
  split
  · rfl
  · split
    · rfl
    · exact if_neg fun hedge => hedge.1 ((hunion _).symm.trans hedge.2)

/-- After a flush that has failed, `poll` does not wait. -/
lemma FlushOk.refused {pending : List (κ × EventMask)} (h : FlushOk failing errors pending s)
    (hflush : flushChanges errors pending s = some (s', false)) :
    ∃ batch, s'.poll errors batch ≠ s'.wait batch := by
  induction pending generalizing s with
  | nil => cases hflush
  | cons change pending ih =>
    obtain ⟨c, events⟩ := change
    by_cases hpass : failing c → s.Passes errors c events
    · obtain ⟨s₁, hcommit, hok, -⟩ := h.step hpass
      rw [flushChanges, hcommit] at hflush
      exact ih hok hflush
    · obtain ⟨hc, hnot⟩ := Classical.not_imp.mp hpass
      obtain ⟨fd, hhandle⟩ := handle_of_not_passes hnot
      have hfails := h.fails hc hhandle
      rcases commit_of_refused hhandle hfails hnot with hnone | hrefused
      · rw [flushChanges, hnone] at hflush
        cases hflush
      · rw [flushChanges, hrefused] at hflush
        cases hflush
        rcases commit_of_refused (s := { s with pendingChanges := (c, events) :: pending })
          hhandle hfails hnot with hnone | hrefused
        · refine ⟨[], ?_⟩
          rw [poll, flushPendingChanges, flushChanges, hnone]
          rintro ⟨⟩
        · refine ⟨[(0, .empty)], ?_⟩
          rw [poll_of_refused rfl hrefused, wait_empty]
          rintro ⟨⟩

end EpollReactor

end GalayKernel

namespace GalayKernel.Proofs

open Transition EpollReactor

variable {κ : Type} [DecidableEq κ]

/-- The changes of the controllers that are not failing have been applied, and the next `poll`
waits. -/
structure OthersServed (failing : κ → Prop) (errors : CtlErrors) (s s' : EpollReactor κ) :
    Prop where
  applied : ∀ c events, (c, events) ∈ s.pendingChanges → ¬failing c → Applied s' c events
  waits : ∀ batch, s'.poll errors batch = s'.wait batch

/-- A flush serves the other controllers exactly if the changes of the failing ones need no call of
`epoll_ctl`, or are removals that fail with `ENOENT`. -/
theorem flush_serves_others_iff {failing : κ → Prop} {errors : CtlErrors} {s : EpollReactor κ}
    (h : FlushOk failing errors s.pendingChanges s) :
    (∃ s' ok, s.flushPendingChanges errors = some (s', ok) ∧ OthersServed failing errors s s') ↔
      FailuresPass failing errors s.pendingChanges s := by
  constructor
  · rintro ⟨s', ok, hflush, hserved⟩
    cases ok with
    | true => exact h.passes hflush
    | false =>
      obtain ⟨batch, hbatch⟩ := h.refused hflush
      exact absurd (hserved.waits batch) hbatch
  · intro hpass
    obtain ⟨s', hflush, happlied, -⟩ := h.flush hpass
    refine ⟨s', true, hflush, happlied, fun batch => ?_⟩
    have hempty := flushChanges_empty hflush
    have hsame : { s' with pendingChanges := [] } = s' := by
      rw [← hempty]
    rw [poll, flushPendingChanges, hempty, flushChanges, hsame]

def refusesThree : CtlErrors := fun _ fd => if fd = 3 then some 1 else none

/-- A controller is moved before its change is flushed, and `epoll_ctl` would refuse its
descriptor. Another controller waits to be registered. -/
def changeOfMoved : List (CtlErrors × EpollAction Nat) :=
  [(refusesThree, .create 0 3), (refusesThree, .begin 0 .recv .blocked),
    (refusesThree, .expire 0 .read), (refusesThree, .resume 0 .read), (refusesThree, .move 0 1),
    (refusesThree, .create 2 4), (refusesThree, .begin 2 .recv .blocked)]

def afterChangeOfMoved : EpollReactor Nat := (run step .init changeOfMoved).getD .init

theorem changeOfMoved_serves_others :
    afterChangeOfMoved.pendingChanges = [(0, ⟨true, false⟩), (2, ⟨true, false⟩)] ∧
      ∃ s' ok, afterChangeOfMoved.flushPendingChanges refusesThree = some (s', ok) ∧
        OthersServed (· ≠ 2) refusesThree afterChangeOfMoved s' := by
  have hok : ReactorOk afterChangeOfMoved := reaches_reactorOk
    (.of_run (fun s a => s.movesUnregistered a) (fun _ _ h => h) changeOfMoved .start rfl)
  have hhandle : ∀ c fd, c ≠ 2 → (afterChangeOfMoved.controllers c).handle = some fd → fd = 3 := by
    rintro (_ | _ | _ | c) fd hc hhandle
    · cases hhandle
    · cases hhandle
      rfl
    · exact absurd rfl hc
    · cases hhandle
  have hpending : afterChangeOfMoved.pendingChanges =
      [(0, ⟨true, false⟩), (2, ⟨true, false⟩)] := by decide
  refine ⟨hpending, (flush_serves_others_iff
    ⟨hok.regOk, hok.unique, fun hc hhandle _ hfile => ?_, fun hc => ?_, fun hc hhandle op => ?_,
      fun hc hfd op => ?_⟩).mpr fun c events hmem hc => ?_⟩
  · cases not_not.mp hc
    cases hhandle
    cases hfile
    rfl
  · cases not_not.mp hc
    decide
  · cases not_not.mp hc
    cases hhandle
    rfl
  · cases hhandle _ _ hc hfd
    exact nofun
  · rw [hpending] at hmem
    rcases List.mem_cons.mp hmem with heq | hmem
    · cases heq
      exact fun hneeds => nomatch hneeds
    · cases List.mem_singleton.mp hmem
      exact absurd rfl hc

/-- Two controllers wait to be registered, and `epoll_ctl` refuses the descriptor of the first. -/
def refusedFirst : List (CtlErrors × EpollAction Bool) :=
  [(refusesThree, .create false 3), (refusesThree, .create true 4),
    (refusesThree, .begin false .recv .blocked), (refusesThree, .begin true .recv .blocked)]

def afterRefusedFirst : EpollReactor Bool := (run step .init refusedFirst).getD .init

/-- The change of the second controller stays in the queue. -/
theorem refused_change_can_block_others : ¬∀ (failing : Bool → Prop) (errors : CtlErrors)
    (s : EpollReactor Bool), FlushOk failing errors s.pendingChanges s →
    ∃ s' ok, s.flushPendingChanges errors = some (s', ok) ∧ OthersServed failing errors s s' := by
  intro h
  have hok : ReactorOk afterRefusedFirst := reaches_reactorOk
    (.of_run (fun s a => s.movesUnregistered a) (fun _ _ h => h) refusedFirst .start rfl)
  have hqueue : FlushOk (· = false) refusesThree afterRefusedFirst.pendingChanges
      afterRefusedFirst := by
    refine ⟨hok.regOk, hok.unique, fun hc hhandle _ hfile => ?_, fun hc => ?_,
      fun hc hhandle op => ?_, fun hc hhandle op => ?_⟩
    · cases (Bool.not_eq_false _).mp hc
      cases hhandle
      cases hfile
      rfl
    · cases (Bool.not_eq_false _).mp hc
      decide
    · cases (Bool.not_eq_false _).mp hc
      cases hhandle
      rfl
    · cases hc
      cases hhandle
      exact nofun
  obtain ⟨s', ok, hflush, hserved⟩ := h (· = false) refusesThree afterRefusedFirst hqueue
  have happlied := hserved.applied true ⟨true, false⟩ (by decide) (by decide)
  cases hflush
  obtain ⟨file, hfile, hregistration⟩ := happlied 4 rfl
  cases hfile
  cases hregistration

end GalayKernel.Proofs
