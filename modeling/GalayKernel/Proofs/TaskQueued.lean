import GalayKernel.Proofs.StealDomain

/-!
# How often a task is queued

Wake-ups go through `m_queued`: the one that sets the flag puts the task into a queue, the others
are turned away, and `resume` resets the flag. The first `schedule`, `co_yield true` and the
hand-over to a parent neither set the flag nor look at it.

So wake-ups alone leave at most one entry of a task, at whatever time they come. The other paths
keep it that way when they are taken only while nobody else has asked for the task, and when no
wake-up comes before their entry is taken. That a resume leaves nothing from which the task could be
resumed once more also needs that no wake-up comes between the reset of the flag and the resume.
-/

namespace GalayKernel.Proofs

open Transition StealDomain ChaseLevTaskRing

variable {home : ℕ → ℕ} {s s' : StealDomain} {a : DomainAction} {t x i v : ℕ}

/-- A steal domain, with what has been asked for. -/
structure RequestedDomain where
  domain : StealDomain
  /-- put into a queue past `m_queued`; `resume` has not reset the flag since -/
  bypassed : ℕ → Bool
  /-- put on the way to a queue since it was resumed last -/
  requested : ℕ → Bool

namespace RequestedDomain

def init : RequestedDomain := ⟨.init, fun _ => false, fun _ => false⟩

/-- The task that an action puts on its way to a queue -/
def request (s : StealDomain) : DomainAction → Option ℕ
  | .schedule _ task _ | .scheduleDeferred _ task => some task
  | .run i _ =>
    match s.points i with
    | .exchangeQueued task => if s.queued task then none else some task
    | _ => none
  | _ => none

def recordRun (s : RequestedDomain) (domain : StealDomain) : ThreadPoint → RequestedDomain
  | .exchangeQueued task =>
    { s with
      domain := domain
      requested := if s.domain.queued task then s.requested
        else Function.update s.requested task true }
  | .clearQueued task =>
    { s with domain := domain, bypassed := Function.update s.bypassed task false }
  | .resumeHandle task =>
    { s with domain := domain, requested := Function.update s.requested task false }
  | _ => { s with domain := domain }

def record (s : RequestedDomain) (domain : StealDomain) : DomainAction → RequestedDomain
  | .schedule _ task _ | .scheduleDeferred _ task =>
    { domain := domain
      bypassed := Function.update s.bypassed task true
      requested := Function.update s.requested task true }
  | .run i _ => s.recordRun domain (s.domain.points i)
  | _ => { s with domain := domain }

def step (home : ℕ → ℕ) (s : RequestedDomain) (a : DomainAction) : Option RequestedDomain :=
  (s.domain.step home a).map fun domain => s.record domain a

end RequestedDomain

open RequestedDomain

/-- Whoever puts a task on its way to a queue finds `m_queued` reset, and nothing is left of a
request that went past the flag. -/
def Uncrossed (s : RequestedDomain) (a : DomainAction) : Prop :=
  ∀ t, request s.domain a = some t → s.domain.queued t = false ∧ s.bypassed t = false

/-- Whoever puts a task on its way to a queue is the first since the task was resumed. -/
def FirstRequest (s : RequestedDomain) (a : DomainAction) : Prop :=
  ∀ t, request s.domain a = some t → s.requested t = false

/-- The entries of the ready structures -/
inductive ReadyEntry where
  | inject (i k : ℕ)
  | lifo (i : ℕ)
  | slot (i : ℕ) (k : Fin kCapacity)

def ReadyAt (s : StealDomain) (t : ℕ) : ReadyEntry → Prop
  | .inject i k => (s.injectQueues i)[k]? = some t
  | .lifo i => s.lifoSlots i = some t
  | .slot i k => (s.rings i).slots k = some t

/-- No task is in the ready structures twice. -/
def QueuedOnce (s : StealDomain) : Prop := ∀ t, Exclusive (ReadyAt s t)

/-- When a thread resumes a task, no entry of it is left, no other thread has it in hand and no
wake-up is bringing it. -/
def ResumedAlone (s : StealDomain) : Prop :=
  ∀ i t, s.points i = .resumeHandle t → ∀ p, At s t p → p = .hand i

/-- With `all` every task in hand counts, otherwise not the one whose flag has been reset. -/
def shownPoint (all : Bool) : ThreadPoint → ThreadPoint
  | .clearOwnerOnly task => if all then .clearOwnerOnly task else .idle
  | .resumeHandle task => if all then .resumeHandle task else .idle
  | point => point

def shown (all : Bool) (s : StealDomain) : StealDomain :=
  { s with
    points := fun i => shownPoint all (s.points i)
    woken := fun _ => false }

variable {all : Bool}

lemma shownPoint_true (point : ThreadPoint) : shownPoint true point = point := by
  cases point <;> rfl

lemma shown_points {point : ThreadPoint} (h : s.points i = point)
    (hpoint : shownPoint all point = point) : (shown all s).points i = point :=
  (congrArg (shownPoint all) h).trans hpoint

lemma shown_goTo (point : ThreadPoint) :
    shown all (s.goTo i point) = (shown all s).goTo i (shownPoint all point) := by
  have hpoints : (fun j => shownPoint all (Function.update s.points i point j)) =
      Function.update (fun j => shownPoint all (s.points j)) i (shownPoint all point) :=
    funext fun j => Function.apply_update (fun _ => shownPoint all) s.points i point j
  simp only [shown, StealDomain.goTo, hpoints]

lemma shown_schedule (lifoEnabled : Bool) :
    shown all (s.schedule home i x lifoEnabled) =
      (shown all s).schedule home i x lifoEnabled := by
  unfold StealDomain.schedule StealDomain.scheduleLocal
  split
  · split
    · rw [show (shown all s).lifoSlots = s.lifoSlots from rfl]
      split
      · exact shown_goTo _
      · exact shown_goTo _
    · exact shown_goTo _
  · exact shown_goTo _

def Within (P : ℕ → Prop) (s : StealDomain) : Prop := ∀ ⦃t p⦄, At s t p → P t

variable {P P' : ℕ → Prop} {ring ring' : ChaseLevTaskRing}

lemma Within.goTo (h : Within P s) {point : ThreadPoint} (hhand : ∀ t ∈ handTasks point, P t)
    (hwaker : ∀ t, wakerTask point = some t → P t) : Within P (s.goTo i point) := by
  intro t p hp
  obtain ⟨-, ht⟩ | ⟨-, ht⟩ | ⟨-, -, hp⟩ := at_goTo hp
  · exact hhand t ht
  · exact hwaker t ht
  · exact h hp

lemma Within.idle (h : Within P s) : Within P (s.goTo i .idle) := h.goTo nofun nofun

lemma Within.setRing (h : Within P s) (hslots : ∀ k t, ring'.slots k = some t → P t)
    (hpushed : ∀ t, pushedTask ring'.owner = some t → P t) : Within P (s.setRing v ring') := by
  intro t p hp
  obtain ⟨-, ht⟩ | ⟨k, -, ht⟩ | ⟨-, -, hp⟩ := at_setRing hp
  · exact hpushed t ht
  · exact hslots k t ht
  · exact h hp

lemma Within.setInject (h : Within P s) {tasks : List ℕ} (htasks : ∀ t ∈ tasks, P t) :
    Within P (s.setInject i tasks) := by
  intro t p hp
  obtain ⟨-, ht⟩ | ⟨-, hp⟩ := at_setInject hp
  · exact htasks t ht
  · exact h hp

lemma Within.inject (h : Within P s) (hx : P x) : Within P (s.inject i x) := by
  refine h.setInject fun t ht => ?_
  obtain ht | ht := List.mem_append.mp ht
  · exact h (p := .inject i) ht
  · exact List.mem_singleton.mp ht ▸ hx

lemma Within.setLifo (h : Within P s) {task : Option ℕ} (htask : ∀ t, task = some t → P t) :
    Within P (s.setLifo i task) := by
  intro t p hp
  obtain ⟨-, ht⟩ | ⟨-, hp⟩ := at_setLifo hp
  · exact htask t ht
  · exact h hp

lemma Within.schedule (h : Within P s) (hx : P x) (lifoEnabled : Bool) :
    Within P (s.schedule home i x lifoEnabled) := by
  have hone : ∀ t, some x = some t → P t := fun t ht => Option.some.inj ht ▸ hx
  unfold StealDomain.schedule StealDomain.scheduleLocal
  split
  · split
    · split
      · rename_i older holder
        refine (h.setLifo hone).goTo (fun t ht => ?_) nofun
        exact List.mem_singleton.mp ht ▸ h (p := .lifo i) holder
      · exact (h.setLifo hone).idle
    · exact h.goTo (fun t ht => List.mem_singleton.mp ht ▸ hx) nofun
  · exact (h.inject hx).idle

lemma Within.runOwner (h : Within P s) (hm : RingMove (s.rings i) .runOwner ring') :
    Within P (s.setRing i ring') := by
  have hslots : ∀ k t, (s.rings i).slots k = some t → P t := fun k _ ht => h (p := .slot i k) ht
  have hpushed : ∀ t, pushedTask (s.rings i).owner = some t → P t := fun _ ht =>
    h (p := .pushing i) ht
  cases hm with
  | pushStoreSlot hpc =>
    refine h.setRing (fun k t ht => ?_) (by simp [pushedTask])
    simp only [Function.update_apply] at ht
    split at ht
    · exact hpushed t (by rw [hpc]; exact ht)
    · exact hslots k t ht
  | popTake hpc | popTakeLast hpc =>
    exact h.setRing (fun k t ht => hslots k t (slots_takeSlot ht).2) (by simp [pushedTask])
  | pushLoadTail hpc | pushLoadHead hpc hroom =>
    rw [hpc] at hpushed
    exact h.setRing hslots hpushed
  | _ => exact h.setRing hslots (by simp [pushedTask])

/-- Each task is at one place at most, and those that are at one meet `P`. -/
structure Placed (home : ℕ → ℕ) (P : ℕ → Prop) (s : StealDomain) : Prop where
  entries : EntriesOk home s
  within : Within P s

lemma placed_init : Placed home P (shown all StealDomain.init) := by
  have hinit : shown all StealDomain.init = StealDomain.init := rfl
  rw [hinit]
  exact ⟨entriesOk_init, fun _ p hp => absurd hp (not_at_init p)⟩

lemma Placed.same (h : Placed home P (shown all s)) (hrings : s'.rings = s.rings)
    (hinject : s'.injectQueues = s.injectQueues) (hlifo : s'.lifoSlots = s.lifoSlots)
    (hpoints : s'.points = s.points) : Placed home P (shown all s') := by
  have hat : ∀ t p, At (shown all s') t p → At (shown all s) t p := by
    intro t p
    cases p <;> simp only [At, shown, hrings, hinject, hlifo, hpoints] <;> exact id
  refine ⟨h.entries.shrink hat (fun _ => id) ?_ ?_, fun t p hp => h.within (hat t p hp)⟩
  · simpa only [shown, hinject] using h.entries.inject
  · simpa only [shown, hpoints] using h.entries.hand

lemma Placed.mono (h : Placed home P s) (hP : ∀ t, P t → P' t) : Placed home P' s :=
  ⟨h.entries, fun t _ hp => hP t (h.within hp)⟩

lemma Placed.goTo (h : Placed home P s) (point : ThreadPoint)
    (hhand : (handTasks point).Sublist (handTasks (s.points i)))
    (hwaker : ∀ t, wakerTask point = some t → wakerTask (s.points i) = some t) :
    Placed home P (s.goTo i point) :=
  ⟨h.entries.goTo point (fun _ ht => hhand.subset ht) hwaker (hhand.nodup (h.entries.hand i)),
    h.within.goTo (fun _ ht => h.within (p := .hand i) (hhand.subset ht))
      (fun t ht => h.within (p := .waker i) (hwaker t ht))⟩

lemma Placed.without (h : Placed home P s) {point : ThreadPoint} (hhand : handTasks point = [])
    (hwaker : wakerTask point = none) : Placed home P (s.goTo i point) :=
  h.goTo point (by simp [hhand]) (by simp [hwaker])

lemma Placed.idle (h : Placed home P s) : Placed home P (s.goTo i .idle) := h.without rfl rfl

lemma Placed.dropped (h : Placed home P s) {q : Place} (hat : At s x q)
    (hq : q = .hand i ∨ q = .waker i) (hP : ∀ t, t ≠ x → P t → P' t) :
    Placed home P' (s.goTo i .idle) := by
  refine ⟨h.entries.idle, ?_⟩
  intro t p hp
  obtain ⟨-, ht⟩ | ⟨-, ht⟩ | ⟨hhand, hwaker, hp⟩ := at_goTo hp
  · cases ht
  · cases ht
  · refine hP t ?_ (h.within hp)
    rintro rfl
    obtain rfl := h.entries.unique hp hat
    exact hq.elim hhand hwaker

lemma Placed.exchange (h : Placed home P s) (hfree : ∀ p, ¬At s x p) (hP : ∀ t, P t → P' t)
    (hx : P' x) : Placed home P' (s.goTo i (.storeOwnerOnly x)) := by
  refine ⟨?_, (h.mono hP).within.goTo nofun fun t ht => Option.some.inj ht ▸ hx⟩
  refine h.entries.insert (q := .waker i) hfree ?_ (fun _ _ => id) nofun h.entries.inject
    (nodup_goTo h.entries.hand .nil)
  intro t p hp
  obtain ⟨-, ht⟩ | ⟨rfl, ht⟩ | ⟨-, -, hp⟩ := at_goTo hp
  · cases ht
  · exact .inr ⟨(Option.some.inj ht).symm, rfl⟩
  · exact .inl hp

lemma Placed.takeLifo (h : Placed home P s) (hlifo : s.lifoSlots i = some x) {point : ThreadPoint}
    (hhand : handTasks point = [x]) (hwaker : wakerTask point = none) :
    Placed home P ((s.setLifo i none).goTo i point) := by
  refine ⟨h.entries.takeLifo hlifo hhand hwaker, (h.within.setLifo (by simp)).goTo ?_
    (by simp [hwaker])⟩
  intro t ht
  rw [hhand] at ht
  exact List.mem_singleton.mp ht ▸ h.within (p := .lifo i) hlifo

lemma Placed.takeSlot (h : Placed home P s) (hwoken : s.woken x = false) {index : ℕ}
    (hslot : (s.rings v).slots (slotOf index) = some x)
    (hslots : ring'.slots = ((s.rings v).takeSlot index).slots)
    (hpushed : ∀ t, pushedTask ring'.owner = some t → pushedTask (s.rings v).owner = some t)
    {point : ThreadPoint} (hhand : handTasks point = [x]) (hwaker : wakerTask point = none) :
    Placed home P ((s.setRing v ring').goTo i point) := by
  refine ⟨h.entries.takeSlot hslot hslots hpushed hhand hwaker ?_, ?_⟩
  · intro hw
    exact absurd (hwoken.symm.trans hw) Bool.false_ne_true
  · have hring : Within P (s.setRing v ring') := by
      refine h.within.setRing (fun k t ht => ?_) (fun t ht => h.within (p := .pushing v)
        (hpushed t ht))
      rw [hslots] at ht
      exact h.within (p := .slot v k) (slots_takeSlot ht).2
    refine hring.goTo (fun t ht => ?_) (by simp [hwaker])
    rw [hhand] at ht
    exact List.mem_singleton.mp ht ▸ h.within (p := .slot v (slotOf index)) hslot

lemma Placed.setRing (h : Placed home P s)
    (hslots : ∀ k t, ring'.slots k = some t → (s.rings v).slots k = some t)
    (hpushed : ∀ t, pushedTask ring'.owner = some t → pushedTask (s.rings v).owner = some t) :
    Placed home P (s.setRing v ring') :=
  ⟨h.entries.setRing hslots hpushed,
    h.within.setRing (fun k t ht => h.within (p := .slot v k) (hslots k t ht))
      (fun t ht => h.within (p := .pushing v) (hpushed t ht))⟩

lemma Placed.runOwner (h : Placed home P s) (hs : (s.rings i).step .runOwner = some ring') :
    Placed home P (s.setRing i ring') :=
  ⟨h.entries.runOwner (ringMove_of_step hs), h.within.runOwner (ringMove_of_step hs)⟩

lemma Placed.runThief (h : Placed home P s) {j : ℕ} {only : Bool}
    (hs : (s.rings v).step (.runThief j only) = some ring') :
    Placed home P (s.setRing v ring') := by
  cases ringMove_of_step hs with
  | exchange hpc => exact h.setRing (fun _ _ ht => (slots_takeSlot ht).2) (fun _ => id)
  | _ => exact h.setRing (fun _ _ => id) (fun _ => id)

lemma Placed.popBack (h : Placed home P s) (hs : (s.rings i).step .popBack = some ring') :
    Placed home P (s.setRing i ring') := by
  cases ringMove_of_step hs with
  | pop hpc => exact h.setRing (fun _ _ => id) (by simp [pushedTask])

lemma Placed.stealFront (h : Placed home P s) {j : ℕ}
    (hs : (s.rings v).step (.stealFront j) = some ring') : Placed home P (s.setRing v ring') := by
  cases ringMove_of_step hs with
  | steal hpc => exact h.setRing (fun _ _ => id) (fun _ => id)

lemma Placed.pushBack (h : Placed home P s) {tasks : List ℕ}
    (hpoint : s.points i = .push (x :: tasks))
    (hs : (s.rings i).step (.pushBack (some x)) = some ring') :
    Placed home P ((s.setRing i ring').goTo i (.pushing tasks)) := by
  cases ringMove_of_step hs with
  | push hpc =>
    have hhand : ∀ t ∈ x :: tasks, P t := fun t ht => by
      refine h.within (p := .hand i) (?_ : t ∈ handTasks (s.points i))
      rw [hpoint]
      exact ht
    refine ⟨h.entries.pushBack hpoint, (h.within.setRing ?_ ?_).goTo ?_ nofun⟩
    · exact fun k t ht => h.within (p := .slot i k) ht
    · exact fun t ht => hhand t (Option.some.inj ht ▸ List.mem_cons_self)
    · exact fun t ht => hhand t (List.mem_cons_of_mem x ht)

lemma Placed.drain (h : Placed home P s) {batch rest : List ℕ}
    (hperm : (s.injectQueues i).Perm (batch ++ rest)) :
    Placed home P ((s.setInject i rest).goTo i (.push batch.reverse)) := by
  have hqueue : ∀ t ∈ batch ++ rest, P t := fun t ht =>
    h.within (p := .inject i) (hperm.mem_iff.mpr ht)
  refine ⟨h.entries.drain hperm, (h.within.setInject ?_).goTo ?_ nofun⟩
  · exact fun t ht => hqueue t (List.mem_append_right batch ht)
  · exact fun t ht => hqueue t (List.mem_append_left rest (List.mem_reverse.mp ht))

lemma Placed.schedule (h : Placed home P s) (hfree : ∀ p, ¬At s x p) (hP : ∀ t, P t → P' t)
    (hx : P' x) (lifoEnabled : Bool) : Placed home P' (s.schedule home i x lifoEnabled) := by
  refine ⟨?_, (h.mono hP).within.schedule hx lifoEnabled⟩
  have hentries := h.entries.schedule (i := i) (w := s.woken) hfree (fun _ _ => id) lifoEnabled
  obtain ⟨injectQueues, lifoSlots, point, heq, -⟩ := schedule_frame home s i x lifoEnabled
  rw [heq] at hentries ⊢
  exact hentries

lemma Placed.call (h : Placed home P (shown all s)) (hP : ∀ t, P t → P' t)
    (hnew : ∀ t, request s a = some t → ¬P t ∧ P' t) (hidle : s.points (actor a) = .idle)
    (hs : s.call home a = some s') : Placed home P' (shown all s') := by
  have hmono := h.mono hP
  cases a with
  | wakeUp i task =>
    cases hs
    rw [shown_goTo]
    exact hmono.without rfl rfl
  | schedule i task lifoEnabled =>
    cases hs
    obtain ⟨hnot, hnew⟩ := hnew task rfl
    rw [shown_schedule]
    exact h.schedule (fun p hp => hnot (h.within hp)) hP hnew lifoEnabled
  | scheduleDeferred i task =>
    cases hs
    obtain ⟨hnot, hnew⟩ := hnew task rfl
    refine ⟨h.entries.injectHome (w := fun _ => false) (fun p hp => hnot (h.within hp)) ?_,
      hmono.within.inject hnew⟩
    exact fun _ _ => id
  | prepareForRun i =>
    obtain ⟨task, hlifo, rfl⟩ := Option.map_eq_some_iff.mp hs
    rw [shown_goTo]
    exact hmono.takeLifo hlifo rfl rfl
  | drainInjected i batch rest =>
    obtain ⟨⟨hperm, -⟩, hs⟩ := Option.ite_none_right_eq_some.mp hs
    cases hs
    rw [shown_goTo]
    exact hmono.drain hperm
  | popLifo i =>
    obtain ⟨task, hlifo, rfl⟩ := Option.map_eq_some_iff.mp hs
    rw [shown_goTo]
    exact hmono.takeLifo hlifo rfl rfl
  | popBack i =>
    obtain ⟨-, hs⟩ := Option.ite_none_right_eq_some.mp hs
    obtain ⟨ring', hstep, rfl⟩ := Option.map_eq_some_iff.mp hs
    rw [shown_goTo]
    exact (hmono.popBack hstep).without rfl rfl
  | stealFront i victim =>
    obtain ⟨-, hs⟩ := Option.ite_none_left_eq_some.mp hs
    obtain ⟨ring', hstep, rfl⟩ := Option.map_eq_some_iff.mp hs
    rw [shown_goTo]
    exact (hmono.stealFront hstep).without rfl rfl
  | run i lifoEnabled => cases hs

lemma Placed.runPop (h : Placed home P (shown all s)) (hs : s.runPop i = some s') :
    Placed home P (shown all s') := by
  unfold StealDomain.runPop at hs
  dsimp only at hs
  have htaken : ∀ {ring' : ChaseLevTaskRing} {tail task : ℕ},
      ((s.rings i).owner = .popTake tail ∨ (s.rings i).owner = .popTakeLast tail) →
      (s.rings i).step .runOwner = some ring' → (s.rings i).slots (slotOf tail) = some task →
      Placed home P (shown all ((s.setRing i ring').goTo i (.clearQueued task))) := by
    intro ring' tail task hpc hstep hslot
    have hring : ring' = { (s.rings i).takeSlot tail with owner := .idle } := by
      obtain hpc | hpc := hpc <;>
      · simp only [ChaseLevTaskRing.step, ChaseLevTaskRing.runOwner, hpc,
          Option.some.injEq] at hstep
        exact hstep.symm
    rw [shown_goTo]
    exact h.takeSlot (v := i) rfl hslot (by rw [hring]; rfl) (by simp [hring, pushedTask]) rfl rfl
  have hnothing : ∀ {ring' : ChaseLevTaskRing}, (s.rings i).step .runOwner = some ring' →
      Placed home P (shown all ((s.setRing i ring').goTo i .idle)) := by
    intro ring' hstep
    rw [shown_goTo]
    exact (h.runOwner hstep).idle
  split at hs
  · cases hs
    rw [shown_goTo]
    exact h.idle
  · obtain ⟨ring', hstep, rfl⟩ := Option.map_eq_some_iff.mp hs
    split
    · exact htaken (.inl ‹_›) hstep ‹_›
    · exact hnothing hstep
  · obtain ⟨ring', hstep, rfl⟩ := Option.map_eq_some_iff.mp hs
    split
    · exact htaken (.inr ‹_›) hstep ‹_›
    · exact hnothing hstep
  · obtain ⟨ring', hstep, rfl⟩ := Option.map_eq_some_iff.mp hs
    exact h.runOwner hstep

lemma Placed.runSteal (h : Placed home P (shown all s)) (hs : s.runSteal i v = some s') :
    Placed home P (shown all s') := by
  unfold StealDomain.runSteal at hs
  dsimp only at hs
  split at hs
  · cases hs
    rw [shown_goTo]
    exact h.idle
  · obtain ⟨ring', hstep, rfl⟩ := Option.map_eq_some_iff.mp hs
    have hthief : Placed home P (shown all (s.setRing v ring')) := h.runThief hstep
    exact hthief.same rfl rfl rfl rfl
  · obtain ⟨ring', hstep, rfl⟩ := Option.map_eq_some_iff.mp hs
    exact h.runThief hstep
  · rename_i head hpc
    obtain ⟨ring', hstep, rfl⟩ := Option.map_eq_some_iff.mp hs
    have hring : ring' = ((s.rings v).takeSlot head).setThief i .idle := by
      simp only [ChaseLevTaskRing.step, ChaseLevTaskRing.runThief, hpc, Option.some.injEq] at hstep
      exact hstep.symm
    split
    · rename_i task hslot
      have htaken : Placed home P (shown all ((s.setRing v ring').goTo i (.push [task]))) := by
        rw [shown_goTo]
        exact h.takeSlot (v := v) rfl hslot (by rw [hring]; rfl) (by rw [hring]; exact fun _ => id)
          rfl rfl
      exact htaken.same rfl rfl rfl rfl
    · rw [shown_goTo]
      exact (h.runThief hstep).idle
  · obtain ⟨ring', hstep, rfl⟩ := Option.map_eq_some_iff.mp hs
    exact h.runThief hstep

lemma Placed.fallback (h : Placed home P s) {head : ℕ} (hpoint : s.points i = .loadSize x head) :
    Placed home P ((s.inject i x).goTo i .idle) := by
  have hat : At s x (.hand i) := by simp [At, hpoint, handTasks]
  exact ⟨h.entries.fallback hpoint, (h.within.inject (h.within hat)).idle⟩

lemma Placed.scheduleWoken (h : Placed home P s) (hpoint : s.points i = .schedule x)
    (lifoEnabled : Bool) : Placed home P (s.schedule home i x lifoEnabled) := by
  have hat : At s x (.waker i) := by simp [At, hpoint, wakerTask]
  have hdropped : Placed home (fun t => t ≠ x ∧ P t) (s.goTo i .idle) :=
    h.dropped hat (.inr rfl) fun _ hne ht => ⟨hne, ht⟩
  rw [← schedule_goTo]
  exact hdropped.schedule (fun p hp => (hdropped.within hp).1 rfl) (fun _ ht => ht.2)
    (h.within hat) lifoEnabled

/-- `resume` goes on with its task, which does not count any more unless every task in hand does. -/
lemma Placed.resuming (h : Placed home P (shown all s)) (hhand : handTasks (s.points i) = [x])
    {point : ThreadPoint} (hpoint : point = .clearOwnerOnly x ∨ point = .resumeHandle x) :
    Placed home P (shown all (s.goTo i point)) := by
  rw [shown_goTo]
  cases all with
  | false => obtain rfl | rfl := hpoint <;> exact h.idle
  | true =>
    have hnew : handTasks point = [x] ∧ wakerTask point = none := by
      obtain rfl | rfl := hpoint <;> exact ⟨rfl, rfl⟩
    rw [shownPoint_true]
    refine h.goTo point ?_ (by simp [hnew.2])
    simp [shown, shownPoint_true, hnew.1, hhand]

lemma Placed.run (h : Placed home P (shown all s)) {lifoEnabled : Bool} (hP : ∀ t, P t → P' t)
    (hnew : ∀ t, request s (.run i lifoEnabled) = some t → ¬P t ∧ P' t)
    (hs : s.run home i lifoEnabled = some s') : Placed home P' (shown all s') := by
  have hmono := h.mono hP
  unfold StealDomain.run at hs
  split at hs <;> rename_i hpoint
  · cases hs
  · split at hs
    · cases hs
      rw [shown_goTo]
      exact hmono.idle
    · rename_i task hqueued
      cases hs
      obtain ⟨hnot, hnew⟩ := hnew task (by simp [request, hpoint, hqueued])
      have hexchange : Placed home P' (shown all (s.goTo i (.storeOwnerOnly task))) := by
        rw [shown_goTo]
        exact h.exchange (fun p hp => hnot (h.within hp)) hP hnew
      exact hexchange.same rfl rfl rfl rfl
  · rename_i task
    cases hs
    have hmarked : Placed home P' (shown all (s.goTo i (.schedule task))) := by
      have hpoint : (shown all s).points i = _ := shown_points hpoint rfl
      rw [shown_goTo]
      exact hmono.goTo _ (List.nil_sublist _) (by simp [hpoint, shownPoint, wakerTask])
    exact hmarked.same rfl rfl rfl rfl
  · rename_i task
    cases hs
    have hscheduled : Placed home P' (shown all (s.schedule home i task lifoEnabled)) := by
      rw [shown_schedule]
      exact hmono.scheduleWoken (shown_points hpoint rfl) lifoEnabled
    exact hscheduled.same rfl rfl rfl rfl
  · cases hs
    have hpoint : (shown all s).points i = _ := shown_points hpoint rfl
    rw [shown_goTo]
    exact hmono.goTo _ (by simp [hpoint, shownPoint, handTasks]) (by simp [shownPoint, wakerTask])
  · have hpoint : (shown all s).points i = _ := shown_points hpoint rfl
    split at hs
    · cases hs
      rw [shown_goTo]
      exact hmono.fallback hpoint
    · cases hs
      rw [shown_goTo]
      exact hmono.goTo _ (by simp [hpoint, shownPoint, handTasks]) (by simp [shownPoint, wakerTask])
  · cases hs
    rw [shown_goTo]
    exact hmono.idle
  · obtain ⟨ring', hstep, rfl⟩ := Option.map_eq_some_iff.mp hs
    rw [shown_goTo]
    exact hmono.pushBack (shown_points hpoint rfl) hstep
  · have hpoint : (shown all s).points i = _ := shown_points hpoint rfl
    split at hs
    · cases hs
      rw [shown_goTo]
      exact hmono.goTo _ (by simp [hpoint, shownPoint, handTasks]) (by simp [shownPoint, wakerTask])
    · obtain ⟨ring', hstep, rfl⟩ := Option.map_eq_some_iff.mp hs
      exact hmono.runOwner hstep
  · exact hmono.runPop hs
  · exact hmono.runSteal hs
  · rename_i task
    cases hs
    have hcleared : Placed home P' (shown all (s.goTo i (.clearOwnerOnly task))) :=
      hmono.resuming (by rw [hpoint]; rfl) (.inl rfl)
    exact hcleared.same rfl rfl rfl rfl
  · rename_i task
    cases hs
    have hcleared : Placed home P' (shown all (s.goTo i (.resumeHandle task))) :=
      hmono.resuming (by rw [hpoint]; rfl) (.inr rfl)
    exact hcleared.same rfl rfl rfl rfl
  · cases hs
    have hresumed : Placed home P' (shown all (s.goTo i .idle)) := by
      rw [shown_goTo]
      exact hmono.idle
    exact hresumed.same rfl rfl rfl rfl

lemma queued_call (hs : s.call home a = some s') : s'.queued = s.queued := by
  cases a with
  | wakeUp i task =>
    cases hs
    rfl
  | schedule i task lifoEnabled =>
    cases hs
    obtain ⟨injectQueues, lifoSlots, point, heq, -⟩ := schedule_frame home s i task lifoEnabled
    rw [heq]
    rfl
  | scheduleDeferred i task =>
    cases hs
    rfl
  | prepareForRun i | popLifo i =>
    obtain ⟨task, -, rfl⟩ := Option.map_eq_some_iff.mp hs
    rfl
  | drainInjected i batch rest =>
    obtain ⟨-, hs⟩ := Option.ite_none_right_eq_some.mp hs
    cases hs
    rfl
  | popBack i =>
    obtain ⟨-, hs⟩ := Option.ite_none_right_eq_some.mp hs
    obtain ⟨ring', -, rfl⟩ := Option.map_eq_some_iff.mp hs
    rfl
  | stealFront i victim =>
    obtain ⟨-, hs⟩ := Option.ite_none_left_eq_some.mp hs
    obtain ⟨ring', -, rfl⟩ := Option.map_eq_some_iff.mp hs
    rfl
  | run i lifoEnabled => cases hs

lemma queued_runPop (hs : s.runPop i = some s') : s'.queued = s.queued := by
  unfold StealDomain.runPop at hs
  dsimp only at hs
  split at hs
  · cases hs
    rfl
  all_goals
    obtain ⟨ring', -, rfl⟩ := Option.map_eq_some_iff.mp hs
    rfl

lemma queued_runSteal (hs : s.runSteal i v = some s') : s'.queued = s.queued := by
  unfold StealDomain.runSteal at hs
  dsimp only at hs
  split at hs
  · cases hs
    rfl
  all_goals
    obtain ⟨ring', -, rfl⟩ := Option.map_eq_some_iff.mp hs
    try split
    all_goals rfl

lemma queued_run {lifoEnabled : Bool} (hs : s.run home i lifoEnabled = some s')
    (hexchange : ∀ x, s.points i ≠ .exchangeQueued x) (hclear : ∀ x, s.points i ≠ .clearQueued x) :
    s'.queued = s.queued := by
  unfold StealDomain.run at hs
  split at hs <;> rename_i hpoint
  · cases hs
  · exact absurd hpoint (hexchange _)
  · cases hs
    rfl
  · rename_i task
    cases hs
    obtain ⟨injectQueues, lifoSlots, point, heq, -⟩ := schedule_frame home s i task lifoEnabled
    rw [heq]
    rfl
  · cases hs
    rfl
  · split at hs
    · cases hs
      rfl
    · cases hs
      rfl
  · cases hs
    rfl
  · obtain ⟨ring', -, rfl⟩ := Option.map_eq_some_iff.mp hs
    rfl
  · split at hs
    · cases hs
      rfl
    · obtain ⟨ring', -, rfl⟩ := Option.map_eq_some_iff.mp hs
      rfl
  · exact queued_runPop hs
  · exact queued_runSteal hs
  · exact absurd hpoint (hclear _)
  · cases hs
    rfl
  · cases hs
    rfl

/-- Every entry is announced by `m_queued` or has gone past it. -/
def Flagged (s : RequestedDomain) (t : ℕ) : Prop :=
  s.domain.queued t = true ∨ s.bypassed t = true

variable {r r' : RequestedDomain}

lemma record_domain : (r.record s a).domain = s := by
  cases a with
  | run i lifoEnabled =>
    simp only [record]
    unfold recordRun
    split <;> rfl
  | _ => rfl

lemma flagged_run {lifoEnabled : Bool} (h : Placed home (Flagged r) (shown false r.domain))
    (hok : Uncrossed r (.run i lifoEnabled)) (hs : r.domain.run home i lifoEnabled = some s') :
    Placed home (Flagged (r.record s' (.run i lifoEnabled))) (shown false s') := by
  have hnot : ∀ t, request r.domain (.run i lifoEnabled) = some t → ¬Flagged r t := by
    intro t ht
    simp [Flagged, hok t ht]
  cases hpoint : r.domain.points i with
  | exchangeQueued x =>
    have hqueued : s'.queued = Function.update r.domain.queued x true := by
      simp only [StealDomain.run, hpoint] at hs
      split at hs
      · cases hs
        rw [← ‹r.domain.queued x = true›, Function.update_eq_self]
        rfl
      · cases hs
        rfl
    refine h.run (fun t ht => ?_) (fun t ht => ⟨hnot t ht, ?_⟩) hs
    · refine ht.imp (fun hq => ?_) fun hb => ?_
      · simp [record, recordRun, hpoint, hqueued, Function.update_apply, hq]
      · simpa [record, recordRun, hpoint] using hb
    · obtain ⟨-, rfl⟩ : r.domain.queued x = false ∧ x = t := by simpa [request, hpoint] using ht
      simp [Flagged, record, recordRun, hpoint, hqueued]
  | clearQueued x =>
    have hat : At (shown false r.domain) x (.hand i) := by
      simp [At, shown, hpoint, shownPoint, handTasks]
    have hcleared : Placed home (Flagged (r.record s' (.run i lifoEnabled)))
        (shown false (r.domain.goTo i (.clearOwnerOnly x))) := by
      rw [shown_goTo]
      refine h.dropped hat (.inl rfl) fun t hne ht => ?_
      simp only [StealDomain.run, hpoint] at hs
      cases hs
      simpa [Flagged, record, recordRun, hpoint, hne] using ht
    simp only [StealDomain.run, hpoint] at hs
    cases hs
    exact hcleared.same rfl rfl rfl rfl
  | _ =>
    have hqueued := queued_run hs (by simp [hpoint]) (by simp [hpoint])
    refine h.run (fun t ht => ?_) (fun t ht => ?_) hs
    · simpa [Flagged, record, recordRun, hpoint, hqueued] using ht
    · simp [request, hpoint] at ht

lemma flagged_step (h : Placed home (Flagged r) (shown false r.domain)) (hok : Uncrossed r a)
    (hs : RequestedDomain.step home r a = some r') :
    Placed home (Flagged r') (shown false r'.domain) := by
  obtain ⟨domain, hdomain, rfl⟩ := Option.map_eq_some_iff.mp hs
  cases a with
  | run i lifoEnabled =>
    rw [record_domain]
    exact flagged_run h hok hdomain
  | schedule i task lifoEnabled | scheduleDeferred i task =>
    obtain ⟨hidle, hcall⟩ := Option.ite_none_right_eq_some.mp hdomain
    refine h.call (fun t ht => ?_) (fun t ht => ⟨?_, ?_⟩) hidle hcall
    · simp only [Flagged, record, queued_call hcall, Function.update_apply]
      exact ht.imp_right fun hb => by simp [hb]
    · simp [Flagged, hok t ht]
    · cases ht
      simp [Flagged, record]
  | _ =>
    obtain ⟨hidle, hcall⟩ := Option.ite_none_right_eq_some.mp hdomain
    refine h.call (fun t ht => ?_) (by simp [request]) hidle hcall
    simpa only [Flagged, record, queued_call hcall] using ht

lemma requested_run {lifoEnabled : Bool}
    (h : Placed home (fun t => r.requested t = true) (shown true r.domain))
    (hok : FirstRequest r (.run i lifoEnabled)) (hs : r.domain.run home i lifoEnabled = some s') :
    Placed home (fun t => (r.record s' (.run i lifoEnabled)).requested t = true)
      (shown true s') := by
  have hnot : ∀ t, request r.domain (.run i lifoEnabled) = some t → ¬r.requested t = true := by
    intro t ht
    simp [hok t ht]
  cases hpoint : r.domain.points i with
  | exchangeQueued x =>
    refine h.run (fun t ht => ?_) (fun t ht => ⟨hnot t ht, ?_⟩) hs
    · simp only [record, recordRun, hpoint]
      split
      · exact ht
      · simp [Function.update_apply, ht]
    · obtain ⟨hqueued, rfl⟩ : r.domain.queued x = false ∧ x = t := by
        simpa [request, hpoint] using ht
      simp [record, recordRun, hpoint, hqueued]
  | resumeHandle x =>
    have hat : At (shown true r.domain) x (.hand i) := by
      simp [At, shown, hpoint, shownPoint, handTasks]
    have hresumed : Placed home (fun t => (r.record s' (.run i lifoEnabled)).requested t = true)
        (shown true (r.domain.goTo i .idle)) := by
      rw [shown_goTo]
      refine h.dropped hat (.inl rfl) fun t hne ht => ?_
      simpa [record, recordRun, hpoint, hne] using ht
    simp only [StealDomain.run, hpoint] at hs
    cases hs
    exact hresumed.same rfl rfl rfl rfl
  | _ =>
    refine h.run (fun t ht => ?_) (fun t ht => ?_) hs
    · simpa [record, recordRun, hpoint] using ht
    · simp [request, hpoint] at ht

lemma requested_step (h : Placed home (fun t => r.requested t = true) (shown true r.domain))
    (hok : FirstRequest r a) (hs : RequestedDomain.step home r a = some r') :
    Placed home (fun t => r'.requested t = true) (shown true r'.domain) := by
  obtain ⟨domain, hdomain, rfl⟩ := Option.map_eq_some_iff.mp hs
  cases a with
  | run i lifoEnabled =>
    rw [record_domain]
    exact requested_run h hok hdomain
  | schedule i task lifoEnabled | scheduleDeferred i task =>
    obtain ⟨hidle, hcall⟩ := Option.ite_none_right_eq_some.mp hdomain
    refine h.call (fun t ht => ?_) (fun t ht => ⟨?_, ?_⟩) hidle hcall
    · simp [record, Function.update_apply, ht]
    · simp [hok t ht]
    · cases ht
      simp [record]
  | _ =>
    obtain ⟨hidle, hcall⟩ := Option.ite_none_right_eq_some.mp hdomain
    exact h.call (fun t ht => ht) (by simp [request]) hidle hcall

def ReadyEntry.place : ReadyEntry → Place
  | .inject i _ => .inject i
  | .lifo i => .lifo i
  | .slot i k => .slot i k

lemma at_of_readyAt {e : ReadyEntry} (h : ReadyAt s t e) : At (shown all s) t e.place := by
  cases e with
  | inject i k => exact List.mem_of_getElem? h
  | _ => exact h

lemma Placed.queuedOnce (h : Placed home P (shown all s)) : QueuedOnce s := by
  intro t e e' he he'
  have hplace := h.entries.unique (at_of_readyAt he) (at_of_readyAt he')
  cases e with
  | inject i k =>
    cases e' with
    | inject j k' =>
      cases hplace
      obtain ⟨hk, -⟩ := List.getElem?_eq_some_iff.mp he
      rw [(List.getElem?_inj hk (h.entries.inject i)).mp (he.trans he'.symm)]
    | _ => cases hplace
  | lifo i =>
    cases e' with
    | lifo j => rw [Place.lifo.inj hplace]
    | _ => cases hplace
  | slot i k =>
    cases e' with
    | slot j k' =>
      cases hplace
      rfl
    | _ => cases hplace

lemma Placed.resumedAlone (h : Placed home P (shown true s)) : ResumedAlone s := by
  have hat : ∀ t p, At s t p → At (shown true s) t p := by
    intro t p
    cases p <;> simp only [At, shown, shownPoint_true] <;> exact id
  intro i t hpoint p hp
  have hhand : At s t (.hand i) := by simp [At, hpoint, handTasks]
  exact h.entries.unique (hat t p hp) (hat t _ hhand)

/-- Under any interleaving in which nobody puts a task on its way to a queue past another request
that `m_queued` does not show, the task is in the ready structures at most once. If each request is
also the first since the task was resumed, a resume leaves nothing from which the task could be
resumed again. -/
theorem tasks_queued_once (h : Reaches (RequestedDomain.step home) Uncrossed .init r) :
    QueuedOnce r.domain ∧
      (Reaches (RequestedDomain.step home) FirstRequest .init r → ResumedAlone r.domain) := by
  have hflagged : Placed home (Flagged r) (shown false r.domain) :=
    h.invariant (P := fun r => Placed home (Flagged r) (shown false r.domain)) placed_init
      fun _ _ _ hi hok hs => flagged_step hi hok hs
  refine ⟨hflagged.queuedOnce, fun hfirst => ?_⟩
  have hrequested : Placed home (fun t => r.requested t = true) (shown true r.domain) :=
    hfirst.invariant (P := fun r => Placed home (fun t => r.requested t = true)
      (shown true r.domain)) placed_init fun _ _ _ hi hok hs => requested_step hi hok hs
  exact hrequested.resumedAlone

def takeTask : List DomainAction := drainAndPush ++ .popBack 0 :: List.replicate 8 (.run 0 false)

def startTask : List DomainAction := .schedule 1 0 false :: takeTask ++ [.run 0 false]

def wokenTwice : List DomainAction :=
  startTask ++ [.wakeUp 1 0, .wakeUp 2 0, .run 1 false, .run 2 false, .run 1 false, .run 1 false]

def uncrossed (r : RequestedDomain) (a : DomainAction) : Bool :=
  match request r.domain a with
  | some t => !r.domain.queued t && !r.bypassed t && !r.requested t
  | none => true

lemma uncrossed_spec (r : RequestedDomain) (a : DomainAction) (h : uncrossed r a = true) :
    Uncrossed r a ∧ FirstRequest r a := by
  unfold uncrossed at h
  constructor
  · intro t ht
    rw [ht] at h
    simp_all
  · intro t ht
    rw [ht] at h
    simp_all

theorem wokenTwice_queued_once :
    ∃ r r', Reaches (RequestedDomain.step fun _ => 0) Uncrossed .init r ∧
      r.domain.injectQueues 0 = [0] ∧ QueuedOnce r.domain ∧
      Reaches (RequestedDomain.step fun _ => 0) FirstRequest .init r' ∧
      r'.domain.points 0 = .resumeHandle 0 ∧ ResumedAlone r'.domain := by
  have hrun : ∃ r, run (guarded uncrossed (RequestedDomain.step fun _ => 0)) .init wokenTwice =
      some r ∧ r.domain.injectQueues 0 = [0] := ⟨_, rfl, rfl⟩
  have hrun' : ∃ r, run (guarded uncrossed (RequestedDomain.step fun _ => 0)) .init
      (wokenTwice ++ takeTask) = some r ∧ r.domain.points 0 = .resumeHandle 0 := ⟨_, rfl, rfl⟩
  obtain ⟨r, hr, hqueue⟩ := hrun
  obtain ⟨r', hr', hpoint⟩ := hrun'
  have hreach := Reaches.of_run uncrossed (fun r a h => (uncrossed_spec r a h).1) _ .start hr
  have hreach' := Reaches.of_run uncrossed (fun r a h => (uncrossed_spec r a h).1) _ .start hr'
  have hfirst := Reaches.of_run uncrossed (fun r a h => (uncrossed_spec r a h).2) _ .start hr'
  exact ⟨r, r', hreach, hqueue, (tasks_queued_once hreach).1, hfirst, hpoint,
    (tasks_queued_once hreach').2 hfirst⟩

def wokenAfterYield : List DomainAction :=
  startTask ++ .wakeUp 1 0 :: List.replicate 3 (.run 1 false) ++ takeTask ++
    [.run 0 false, .scheduleDeferred 0 0, .wakeUp 2 0] ++ List.replicate 3 (.run 2 false)

lemma wokenAfterYield_queue :
    ∃ r, run (RequestedDomain.step fun _ => 0) .init wokenAfterYield = some r ∧
      r.domain.injectQueues 0 = [0, 0] :=
  ⟨_, rfl, rfl⟩

/-- A task can be queued twice when wake-ups may come at any time. -/
theorem task_can_be_queued_twice :
    ¬∀ (home : ℕ → ℕ) (r : RequestedDomain),
      Reaches (RequestedDomain.step home) (fun _ _ => True) .init r →
      QueuedOnce r.domain ∧ ResumedAlone r.domain := by
  intro h
  obtain ⟨r, hrun, hqueue⟩ := wokenAfterYield_queue
  have honce := (h _ r (.of_replay wokenAfterYield .start hrun)).1
  have hfirst : ReadyAt r.domain 0 (.inject 0 0) := by simp [ReadyAt, hqueue]
  have hsecond : ReadyAt r.domain 0 (.inject 0 1) := by simp [ReadyAt, hqueue]
  cases honce 0 _ _ hfirst hsecond

end GalayKernel.Proofs
