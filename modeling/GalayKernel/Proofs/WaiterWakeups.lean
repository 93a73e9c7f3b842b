import GalayKernel.Lib.Threads
import GalayKernel.Proofs.WaiterMoves

namespace GalayKernel.Proofs
open AsyncWait Transition
open NotifyPoint (won)

variable {ι α : Type} [DecidableEq ι] {s s' : AsyncWait ι α} {a : AsyncWaitAction ι α} {i : ι}
  {v : α}

/-- A call of `notify` that wins finds no wait between its registration and its suspension and
none that has been resumed while registered. Until it has requested the wake-up the wait does not
register itself and is not resumed. No entry is made without `m_queued` before the wait has
returned. -/
def NotifiesApart (s : AsyncWait ι α) : AsyncWaitAction ι α → Prop
  | .notifyStep i => ∀ v, s.notifiers i = .setReady v → s.waiter.ready = false →
      s.waiter.waiting = true → Dozing s.point
  | .advance => s.point = .setWaiting → ∀ i, (s.notifiers i).won = none
  | .resume => Dozing s.point → ∀ i, (s.notifiers i).won = none
  | .enqueue => s.point = .returned ∨ s.point = .elsewhere
  | _ => True

/-- Whoever is going to wake the task finds it suspended in the wait. -/
structure ApartOk (s : AsyncWait ι α) : Prop where
  taking : ∀ i, (s.notifiers i).won ≠ none → s.waiter.waiting = true → Dozing s.point
  waking : ∀ i v, s.notifiers i = .wakeUp v → Dozing s.point
  pending : ∀ i, .notify i ∈ s.wake.pending → Dozing s.point

section ApartOk

omit [DecidableEq ι]

lemma ApartOk.advance (h : ApartOk s) (hpoint : Dozing s.point → Dozing s'.point)
    (hnotifiers : s'.notifiers = s.notifiers)
    (hwaiting : s'.waiter.waiting = true → s.waiter.waiting = true)
    (hpending : ∀ i, .notify i ∈ s'.wake.pending → .notify i ∈ s.wake.pending) : ApartOk s' := by
  refine ⟨fun i hi hw => ?_, fun i v hi => ?_, fun i hi => ?_⟩
  · exact hpoint (h.taking i (hnotifiers ▸ hi) (hwaiting hw))
  · exact hpoint (h.waking i v (hnotifiers ▸ hi))
  · exact hpoint (h.pending i (hpending i hi))

lemma ApartOk.alone (hnone : ∀ i, (s'.notifiers i).won = none)
    (hpending : ∀ i, .notify i ∉ s'.wake.pending) : ApartOk s' := by
  refine ⟨fun i hi => absurd (hnone i) hi, fun i v hi => ?_, fun i hi => absurd hi (hpending i)⟩
  exact absurd ((hnone i).symm.trans (congrArg won hi)) nofun

end ApartOk

lemma ApartOk.thread {point : NotifyPoint α} (h : ApartOk s)
    (hnotifiers : s'.notifiers = Function.update s.notifiers i point) (hp : s'.point = s.point)
    (hwaiting : s'.waiter.waiting = s.waiter.waiting) (hpoint : ∀ v, point ≠ .wakeUp v)
    (htaking : point.won ≠ none → s.waiter.waiting = true → Dozing s.point)
    (hpending : ∀ j, .notify j ∈ s'.wake.pending → .notify j ∈ s.wake.pending ∨ Dozing s.point) :
    ApartOk s' := by
  refine ⟨fun j hj hw => ?_, fun j v hj => ?_, fun j hj => ?_⟩
  · rw [hp]
    rw [hwaiting] at hw
    rw [hnotifiers] at hj
    rcases Threads.of_update (P := fun x : NotifyPoint α => x.won ≠ none) hj with ⟨-, hj⟩ | ⟨-, hj⟩
    · exact htaking hj hw
    · exact h.taking j hj hw
  · rw [hp]
    rw [hnotifiers] at hj
    rcases Threads.eq_of_update hj with ⟨-, hj⟩ | ⟨-, hj⟩
    · exact absurd hj (hpoint v)
    · exact h.waking j v hj
  · rw [hp]
    exact (hpending j hj).elim (h.pending j) id

/-- Until the wait has returned, the wake-ups of the task go through `m_queued`. -/
def FlaggedInWait (s : AsyncWait ι α) : Prop :=
  s.point = .returned ∨ s.point = .elsewhere ∨ s.wake.Flagged

omit [DecidableEq ι] in
lemma FlaggedInWait.flagged {timer : Option Nat} (h : FlaggedInWait s)
    (hp : s.point = .suspended timer) : s.wake.Flagged :=
  (h.resolve_left (by simp [hp])).resolve_left (by simp [hp])

theorem flaggedInWait_move (hok : NotifiesApart s a) (h : FlaggedInWait s) (hm : WaitMove s a s') :
    FlaggedInWait s' := by
  have hin : s.point ≠ .returned → s.point ≠ .elsewhere → s.wake.Flagged := fun hr he =>
    (h.resolve_left hr).resolve_left he
  cases hm with
  | notify | loses | wins | store | takes | nobody | expire => exact h
  | wakeUp | wakeElsewhere => exact h.imp_right (Or.imp_right (·.request _))
  | direct => exact Or.imp_right .inl hok
  | wait hp | isReady hp | notReady hp | alreadyWaiting hp | setWaiting hp | recheckReady hp
  | suspend hp | clearWaiting hp | addTimer hp | timedOut hp | inTime hp | cancel hp =>
    exact .inr (.inr (hin (by simp [hp]) (by simp [hp])))
  | returns => exact .inl rfl
  | awaitElsewhere => exact .inr (.inl rfl)
  | schedule hwake => exact h.imp_right (Or.imp_right (·.schedule hwake))
  | pop _ hwake => exact h.imp_right (Or.imp_right (·.pop hwake))
  | resumeTimed hp hwake | resumeUntimed hp hwake =>
    exact .inr (.inr ((hin (by simp [hp]) (by simp [hp])).resume hwake))
  | resumeElsewhere => exact .inl rfl
  | handle ht => exact h.imp_right (Or.imp_right (flagged_handle ht))

theorem apartOk_move (hok : NotifiesApart s a) (hflagged : FlaggedInWait s) (h : ApartOk s)
    (hm : WaitMove s a s') : ApartOk s' := by
  cases hm with
  | notify | loses =>
    exact h.thread rfl rfl rfl (fun _ => nofun) (fun hne => absurd rfl hne) (fun _ => .inl)
  | wins hi hready =>
    refine h.thread rfl rfl rfl ?_ (fun _ hw => hok _ hi hready hw) (fun _ => .inl)
    intro w
    split <;> nofun
  | @store i v hi =>
    have hwon : (s.notifiers i).won ≠ none := by simp [hi, won]
    exact h.thread rfl rfl rfl (fun _ => nofun) (fun _ => h.taking i hwon) (fun _ => .inl)
  | @takes i v hi hwaiting =>
    have hd := h.taking i (by simp [hi, won]) hwaiting
    exact ⟨fun _ _ _ => hd, fun _ _ _ => hd, fun _ _ => hd⟩
  | nobody =>
    exact h.thread rfl rfl rfl (fun _ => nofun) (fun hne => absurd rfl hne) (fun _ => .inl)
  | @wakeUp i v hi =>
    have hd := h.waking i v hi
    exact h.thread rfl rfl rfl (fun _ => nofun) (fun hne => absurd rfl hne) (fun _ _ => .inr hd)
  | setWaiting hp =>
    have hnone : ∀ j, .notify j ∉ s.wake.pending := fun j hj => by
      have hd := h.pending j hj
      rw [hp] at hd
      exact hd
    exact .alone (hok hp) hnone
  | wait hp | isReady hp | notReady hp | alreadyWaiting hp | recheckReady hp | suspend hp
  | timedOut hp | inTime hp | cancel hp | returns hp | awaitElsewhere hp =>
    refine h.advance (fun hd => ?_) rfl id (fun _ => id)
    rw [hp] at hd
    cases hd
  | clearWaiting hp =>
    refine h.advance (fun hd => ?_) rfl nofun (fun _ => id)
    rw [hp] at hd
    cases hd
  | addTimer => exact h.advance (fun _ => trivial) rfl id (fun _ => id)
  | resumeTimed hp hwake | resumeUntimed hp hwake =>
    have hnone := hok (hp ▸ trivial)
    have hnil := (hflagged.flagged hp).pending_resume hwake
    exact .alone hnone (by simp [hnil])
  | resumeElsewhere hp hwake =>
    refine h.advance (fun hd => ?_) rfl id (fun _ hi => TaskWake.mem_of_mem_resume hwake hi)
    rw [hp] at hd
    cases hd
  | wakeElsewhere =>
    exact h.advance id rfl id (fun _ hi => by simpa using TaskWake.mem_pending_request hi)
  | direct => exact h.advance id rfl id (fun _ hi => by simpa using TaskWake.mem_pending_enqueue hi)
  | schedule hwake =>
    exact h.advance id rfl id (fun _ hi => (TaskWake.perm_schedule hwake).mem_iff.mp hi)
  | pop _ hwake => exact h.advance id rfl id (fun _ hi => (TaskWake.perm_pop hwake).mem_iff.mp hi)
  | expire => exact h.advance id rfl id (fun _ => id)
  | handle ht => exact h.advance id rfl id (fun _ hi => by simpa using mem_pending_handle ht hi)

/-- A call of `notify` requests the resumption of the task, and has it queued, only while the task
is suspended in the wait and has not been resumed from it. -/
def WakesSuspended (s : AsyncWait ι α) : Prop :=
  (∀ i v, s.notifiers i = .wakeUp v → Dozing s.point) ∧
  ∀ i, .notify i ∈ s.wake.pending → Dozing s.point

theorem notify_wakes_suspended (kind : WaiterKind) (timed : Bool)
    (h : Reaches step NotifiesApart (init kind timed) s) : WakesSuspended s := by
  obtain ⟨-, hok⟩ : FlaggedInWait s ∧ ApartOk s := by
    refine wait_invariant (P := fun s => FlaggedInWait s ∧ ApartOk s)
      ⟨.inr (.inr TaskWake.flagged_init), .alone (fun _ => rfl) nofun⟩ ?_ h
    exact fun s a s' hs hok hm => ⟨flaggedInWait_move hok hs.1 hm, apartOk_move hok hs.1 hs.2 hm⟩
  exact ⟨hok.waking, hok.pending⟩

def notifiedInTime : List (AsyncWaitAction Bool Nat) :=
  [.wait, .advance, .advance, .advance, .advance, .notify true 4, .notifyStep true,
    .notifyStep true, .notifyStep true, .notifyStep true, .schedule (.notify true)]

def apartCheck (s : AsyncWait Bool Nat) : AsyncWaitAction Bool Nat → Bool
  | .notifyStep _ => match s.point with | .suspended _ => true | _ => false
  | .advance => (s.notifiers true).won.isNone && (s.notifiers false).won.isNone
  | .resume | .enqueue => false
  | _ => true

lemma notifiesApart_of_check (s : AsyncWait Bool Nat) (a : AsyncWaitAction Bool Nat)
    (h : apartCheck s a = true) : NotifiesApart s a := by
  cases a with
  | notifyStep i =>
    intro v _ _ _
    simp only [apartCheck] at h
    split at h
    · next hp => exact hp ▸ trivial
    · cases h
  | advance =>
    intro _ i
    simp only [apartCheck, Bool.and_eq_true, Option.isNone_iff_eq_none] at h
    cases i
    · exact h.2
    · exact h.1
  | resume | enqueue => cases h
  | _ => trivial

theorem notifiedInTime_wakes_suspended :
    ∃ s, run step (init .value true) notifiedInTime = some s ∧
      .notify true ∈ s.wake.pending ∧ WakesSuspended s :=
  ⟨_, rfl, by decide, @notify_wakes_suspended Bool Nat _ _ .value true (Reaches.start.of_run
    apartCheck notifiesApart_of_check notifiedInTime rfl)⟩

/-- The winner takes `m_waiting` before the wait looks at `m_ready` once more. The wait goes on, and
the task is queued while it awaits something else. -/
def wokenWithoutSuspending : List (AsyncWaitAction Bool Nat) :=
  [.wait, .advance, .advance, .notify true 4, .notifyStep true, .notifyStep true, .notifyStep true,
    .notifyStep true, .advance, .advance, .advance, .awaitElsewhere, .schedule (.notify true)]

theorem notify_can_wake_running_task :
    ¬∀ (kind : WaiterKind) (timed : Bool) (s : AsyncWait Bool Nat),
    Reaches step (fun _ _ => True) (init kind timed) s → WakesSuspended s := by
  intro h
  exact (h .value false _ (Reaches.start.of_replay wokenWithoutSuspending rfl)).2 true (by decide)

/-- A wait that has timed out leaves `m_waiting` set, and a later `notify` queues the task while it
awaits something else. -/
def wokenAfterTimeout : List (AsyncWaitAction Bool Unit) :=
  [.wait, .advance, .advance, .advance, .advance, .expire 0, .handle, .handle, .handle, .handle,
    .schedule (.timer 0), .pop (.timer 0), .resume, .advance, .advance, .awaitElsewhere,
    .notify true (), .notifyStep true, .notifyStep true, .notifyStep true, .schedule (.notify true)]

theorem notify_can_wake_after_timeout : ¬∀ s : AsyncWait Bool Unit,
    Reaches step (fun _ _ => True) (init .void true) s → WakesSuspended s := by
  intro h
  exact (h _ (Reaches.start.of_replay wokenAfterTimeout rfl)).2 true (by decide)

end GalayKernel.Proofs
