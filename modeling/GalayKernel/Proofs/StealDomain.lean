import GalayKernel.Proofs.StealEntries
import GalayKernel.Proofs.RingConservation

/-!
# Woken tasks and thieves

A thief looks at `m_resume_owner_only` of the task at the front of the ring, wins the index and then
takes what is in the slot. What it takes is what it has looked at: while the index can be won,
nobody else touches the slot. So a task that is marked before it is queued, and whose mark stays
until it is resumed, is not stolen.

The mark does not always stay. `resume` resets `m_queued` first: a wake-up that comes in between the
two stores marks the task and queues it, and the second store takes the mark away. The mark stays
when a task is put into a queue only while it is in none and no thread is resuming it.
-/

namespace GalayKernel.Proofs

open Transition StealDomain ChaseLevTaskRing

variable {home : ℕ → ℕ} {s s' : StealDomain} {t x i v : ℕ}

/-- What a thief has seen is what it will take, unless it loses the race for the index. -/
def ThiefSees (woken : ℕ → Bool) (ring : ChaseLevTaskRing) (candidate : ℕ) : ThiefPc → Prop
  | .loadOwnerOnly head => ring.head = head → ring.slots (slotOf head) = some candidate
  | .cas head => ring.head = head → ∃ c, ring.slots (slotOf head) = some c ∧ woken c = false
  | .exchange head => ∃ c, ring.slots (slotOf head) = some c ∧ woken c = false
  | _ => True

variable {woken woken' : ℕ → Bool} {ring ring' : ChaseLevTaskRing} {candidate j : ℕ}
  {a : RingAction}

lemma ThiefSees.kept (h : ThiefSees woken ring candidate (ring.thieves j)) (hc : ControlOk ring)
    (hc' : ControlOk ring') (hm : RingMove ring a ring')
    (hsame : ring'.thieves j = ring.thieves j) :
    ThiefSees woken ring' candidate (ring'.thieves j) := by
  have hpc' := hsame
  rw [hsame]
  cases hpc : ring.thieves j with
  | loadOwnerOnly head =>
    rw [hpc] at h hpc'
    intro hhead
    obtain ⟨heq, hslots⟩ := front_kept hc hc' hm (.inl hpc) (.inl hpc') hhead
    rw [hslots]
    exact h heq
  | cas head =>
    rw [hpc] at h hpc'
    intro hhead
    obtain ⟨heq, hslots⟩ := front_kept hc hc' hm (.inr hpc) (.inr hpc') hhead
    rw [hslots]
    exact h heq
  | exchange head =>
    rw [hpc] at h hpc'
    have hslots := slots_kept hc hc' hm (.inr (.inr ⟨j, hpc⟩)) (.inr (.inr ⟨j, hpc'⟩))
    simpa only [ThiefSees, hslots] using h
  | _ => trivial

lemma ThiefSees.mono {pc : ThiefPc} (h : ThiefSees woken ring candidate pc)
    (hwoken : ∀ k c, ring.slots k = some c → woken c = false → woken' c = false) :
    ThiefSees woken' ring candidate pc := by
  cases pc with
  | loadOwnerOnly head => exact h
  | cas head =>
    intro hhead
    obtain ⟨c, hslot, hc⟩ := h hhead
    exact ⟨c, hslot, hwoken _ c hslot hc⟩
  | exchange head =>
    obtain ⟨c, hslot, hc⟩ := h
    exact ⟨c, hslot, hwoken _ c hslot hc⟩
  | _ => trivial

structure RingsOk (s : StealDomain) : Prop where
  control : ∀ v, ControlOk (s.rings v)
  sees : ∀ v j, ThiefSees s.woken (s.rings v) (s.candidates v j) ((s.rings v).thieves j)

lemma ringsOk_init : RingsOk StealDomain.init := ⟨fun _ => controlOk_init, fun _ _ => trivial⟩

lemma RingsOk.setRing (h : RingsOk s) (hm : RingMove (s.rings v) a ring')
    (hfree : SlotFree (s.rings v) a)
    (hsees : ∀ j, ring'.thieves j = (s.rings v).thieves j ∨
      ThiefSees s.woken ring' (s.candidates v j) (ring'.thieves j)) :
    RingsOk (s.setRing v ring') := by
  have hcontrol := controlOk_move (h.control v) hfree hm
  constructor
  · intro u
    obtain rfl | hu := eq_or_ne u v
    · simpa [StealDomain.setRing] using hcontrol
    · simpa [StealDomain.setRing, hu] using h.control u
  · intro u j
    obtain rfl | hu := eq_or_ne u v
    · simp only [StealDomain.setRing, Function.update_self]
      obtain hsame | hnew := hsees j
      · exact (h.sees u j).kept (h.control u) hcontrol hm hsame
      · exact hnew
    · simpa [StealDomain.setRing, hu] using h.sees u j

lemma RingsOk.owner (h : RingsOk s) (hs : (s.rings v).step a = some ring')
    (hfree : SlotFree (s.rings v) a) (hthieves : ring'.thieves = (s.rings v).thieves) :
    RingsOk (s.setRing v ring') :=
  h.setRing (ringMove_of_step hs) hfree fun j => .inl (congrFun hthieves j)

lemma RingsOk.marks (h : RingsOk s) {w : ℕ → Bool} (hrings : s'.rings = s.rings)
    (hcandidates : s'.candidates = s.candidates) (hwoken : s'.woken = w)
    (hw : ∀ v k c, (s.rings v).slots k = some c → s.woken c = false → w c = false) :
    RingsOk s' := by
  constructor
  · rw [hrings]
    exact h.control
  · intro v j
    rw [hrings, hcandidates, hwoken]
    exact (h.sees v j).mono (hw v)

lemma RingsOk.same (h : RingsOk s) (hrings : s'.rings = s.rings)
    (hcandidates : s'.candidates = s.candidates) (hwoken : s'.woken = s.woken) : RingsOk s' :=
  h.marks hrings hcandidates hwoken fun _ _ _ _ => id

/-- A woken task is marked until it is resumed. -/
structure MarksOk (s : StealDomain) : Prop where
  woken : ∀ ⦃t⦄, s.woken t = true → s.ownerOnly t = true ∨ ∃ i, s.points i = .resumeHandle t
  waker : ∀ ⦃i t⦄, s.points i = .schedule t → s.ownerOnly t = true

lemma MarksOk.goTo (h : MarksOk s) (point : ThreadPoint)
    (hold : ∀ t, s.points i ≠ .resumeHandle t) (hnew : ∀ t, point ≠ .schedule t) :
    MarksOk (s.goTo i point) := by
  constructor
  · intro t ht
    refine (h.woken ht).imp_right ?_
    rintro ⟨j, hj⟩
    have hne : j ≠ i := by
      rintro rfl
      exact hold t hj
    exact ⟨j, by simpa [StealDomain.goTo, hne] using hj⟩
  · intro j t hj
    obtain rfl | hne := eq_or_ne j i
    · exact absurd (by simpa [StealDomain.goTo] using hj) (hnew t)
    · exact h.waker (by simpa [StealDomain.goTo, hne] using hj)

lemma MarksOk.same (h : MarksOk s) (hpoints : s'.points = s.points)
    (hownerOnly : s'.ownerOnly = s.ownerOnly) (hwoken : s'.woken = s.woken) : MarksOk s' := by
  constructor
  · rw [hwoken, hownerOnly, hpoints]
    exact h.woken
  · rw [hownerOnly, hpoints]
    exact h.waker

structure StaysHome (home : ℕ → ℕ) (s : StealDomain) : Prop where
  entries : EntriesOk home s
  rings : RingsOk s
  marks : MarksOk s
  stolen : ∀ e ∈ s.stolen, e.2 = false
  resumed : ∀ e ∈ s.resumed, e.2.2 = true → e.2.1 = home e.1

lemma staysHome_init : StaysHome home StealDomain.init where
  entries := entriesOk_init
  rings := ringsOk_init
  marks := ⟨nofun, nofun⟩
  stolen := nofun
  resumed := nofun

lemma not_schedule {point : ThreadPoint} (h : wakerTask point = none) (t : ℕ) :
    point ≠ .schedule t := by
  rintro rfl
  cases h

lemma StaysHome.goTo (h : StaysHome home s) (point : ThreadPoint)
    (hhand : ∀ t ∈ handTasks point, t ∈ handTasks (s.points i)) (hwaker : wakerTask point = none)
    (hnodup : (handTasks point).Nodup) (hold : ∀ t, s.points i ≠ .resumeHandle t) :
    StaysHome home (s.goTo i point) where
  entries := h.entries.goTo point hhand (by simp [hwaker]) hnodup
  rings := h.rings.same rfl rfl rfl
  marks := h.marks.goTo point hold (not_schedule hwaker)
  stolen := h.stolen
  resumed := h.resumed

lemma StaysHome.idle (h : StaysHome home s) (hold : ∀ t, s.points i ≠ .resumeHandle t) :
    StaysHome home (s.goTo i .idle) :=
  h.goTo .idle nofun rfl .nil hold

lemma StaysHome.exchange (h : StaysHome home s) (hpoint : s.points i = .exchangeQueued x)
    (hfree : ∀ p, ¬At s x p) :
    StaysHome home { s.goTo i (.storeOwnerOnly x) with
      queued := Function.update s.queued x true } where
  entries := by
    refine h.entries.insert (q := .waker i) hfree ?_ (fun _ _ => id) nofun h.entries.inject
      (nodup_goTo h.entries.hand .nil)
    intro t p hp
    obtain ⟨-, ht⟩ | ⟨rfl, ht⟩ | ⟨-, -, hp⟩ := at_goTo (s := s) hp
    · cases ht
    · exact .inr ⟨(Option.some.inj ht).symm, rfl⟩
    · exact .inl hp
  rings := h.rings.same rfl rfl rfl
  marks := (h.marks.goTo (i := i) (.storeOwnerOnly x) (by simp [hpoint]) nofun).same
    rfl rfl rfl
  stolen := h.stolen
  resumed := h.resumed

lemma StaysHome.storeOwnerOnly (h : StaysHome home s) (hpoint : s.points i = .storeOwnerOnly x) :
    StaysHome home { s.goTo i (.schedule x) with
      ownerOnly := Function.update s.ownerOnly x true } where
  entries := by
    have hentries := h.entries.goTo (i := i) (.schedule x) nofun
      (by simp [hpoint, wakerTask]) .nil
    exact { hentries with }
  rings := h.rings.same rfl rfl rfl
  marks := by
    have hset : ∀ t, s.ownerOnly t = true → Function.update s.ownerOnly x true t = true := by
      intro t ht
      simp [Function.update_apply, ht]
    constructor
    · intro t ht
      refine (h.marks.woken ht).imp (hset t) ?_
      rintro ⟨j, hj⟩
      have hne : j ≠ i := by
        rintro rfl
        cases hpoint.symm.trans hj
      exact ⟨j, by simpa [StealDomain.goTo, hne] using hj⟩
    · intro j t hj
      obtain rfl | hne := eq_or_ne j i
      · simp only [StealDomain.goTo, Function.update_self, ThreadPoint.schedule.injEq] at hj
        simp [hj]
      · exact hset t (h.marks.waker (by simpa [StealDomain.goTo, hne] using hj))
  stolen := h.stolen
  resumed := h.resumed

lemma schedule_goTo (lifoEnabled : Bool) :
    (s.goTo i .idle).schedule home i x lifoEnabled = s.schedule home i x lifoEnabled := by
  unfold StealDomain.schedule StealDomain.scheduleLocal
  dsimp only [StealDomain.goTo, StealDomain.inject, setInject, setLifo]
  split
  · split
    · split <;> simp only [Function.update_idem]
    · simp only [Function.update_idem]
  · simp only [Function.update_idem]

lemma schedule_frame (home : ℕ → ℕ) (s : StealDomain) (i x : ℕ) (lifoEnabled : Bool) :
    ∃ injectQueues lifoSlots point, s.schedule home i x lifoEnabled =
      { s.goTo i point with injectQueues := injectQueues, lifoSlots := lifoSlots } ∧
      ∀ t, point ≠ .schedule t := by
  unfold StealDomain.schedule StealDomain.scheduleLocal
  split
  · split
    · split
      · exact ⟨_, _, _, rfl, nofun⟩
      · exact ⟨_, _, _, rfl, nofun⟩
    · exact ⟨_, _, _, rfl, nofun⟩
  · exact ⟨_, _, _, rfl, nofun⟩

lemma StaysHome.scheduleWoken (h : StaysHome home s) (hpoint : s.points i = .schedule x)
    (lifoEnabled : Bool) :
    StaysHome home { s.schedule home i x lifoEnabled with
      woken := Function.update s.woken x true } := by
  have hat : At s x (.waker i) := by simp [At, hpoint, wakerTask]
  have hentries : EntriesOk home { s.schedule home i x lifoEnabled with
      woken := Function.update s.woken x true } := by
    rw [← schedule_goTo]
    refine h.entries.idle.schedule ?_ ?_ lifoEnabled
    · intro p hp
      obtain ⟨-, ht⟩ | ⟨-, ht⟩ | ⟨-, hne, hp⟩ := at_goTo hp
      · cases ht
      · cases ht
      · exact hne (h.entries.unique hp hat)
    · intro t hne ht
      simpa [StealDomain.goTo, hne] using ht
  obtain ⟨injectQueues, lifoSlots, point, heq, hnew⟩ :=
    schedule_frame home s i x lifoEnabled
  rw [heq] at hentries ⊢
  refine ⟨hentries, h.rings.marks (w := Function.update s.woken x true) rfl rfl rfl ?_, ?_,
    h.stolen, h.resumed⟩
  · intro v k c hslot hc
    have hne : c ≠ x := by
      rintro rfl
      cases h.entries.unique (p := .slot v k) hslot hat
    simpa [hne] using hc
  · have hmarks := h.marks.goTo (i := i) point (by simp [hpoint]) hnew
    refine ⟨?_, hmarks.waker⟩
    intro t ht
    obtain rfl | hne := eq_or_ne t x
    · exact .inl (h.marks.waker hpoint)
    · exact hmarks.woken (by simpa [StealDomain.goTo, hne] using ht)

lemma StaysHome.schedulePlain (h : StaysHome home s) (hidle : s.points i = .idle)
    (hfree : ∀ p, ¬At s x p) (lifoEnabled : Bool) :
    StaysHome home (s.schedule home i x lifoEnabled) := by
  have hentries := h.entries.schedule (i := i) (w := s.woken) hfree (fun _ _ => id) lifoEnabled
  obtain ⟨injectQueues, lifoSlots, point, heq, hnew⟩ :=
    schedule_frame home s i x lifoEnabled
  rw [heq] at hentries ⊢
  exact ⟨hentries, h.rings.same rfl rfl rfl,
    (h.marks.goTo (i := i) point (by simp [hidle]) hnew).same rfl rfl rfl, h.stolen,
    h.resumed⟩

lemma StaysHome.loadSize (h : StaysHome home s) {head : ℕ}
    (hpoint : s.points i = .loadSize x head) :
    StaysHome home ((s.inject i x).goTo i .idle) ∧ StaysHome home (s.goTo i (.push [x])) := by
  constructor
  · exact ⟨h.entries.fallback hpoint, h.rings.same rfl rfl rfl,
      (h.marks.goTo (i := i) .idle (by simp [hpoint]) nofun).same rfl rfl rfl, h.stolen,
      h.resumed⟩
  · exact h.goTo (.push [x]) (by simp [handTasks, hpoint]) rfl (List.nodup_singleton x)
      (by simp [hpoint])

lemma StaysHome.runOwner (h : StaysHome home s) (hs : (s.rings i).step .runOwner = some ring')
    (hfree : SlotFree (s.rings i) .runOwner) : StaysHome home (s.setRing i ring') := by
  have hm := ringMove_of_step hs
  have hthieves : ring'.thieves = (s.rings i).thieves := by cases hm <;> rfl
  exact ⟨h.entries.runOwner hm, h.rings.owner hs hfree hthieves, h.marks.same rfl rfl rfl, h.stolen,
    h.resumed⟩

lemma StaysHome.pushBack (h : StaysHome home s) {tasks : List ℕ}
    (hpoint : s.points i = .push (x :: tasks))
    (hs : (s.rings i).step (.pushBack (some x)) = some ring') :
    StaysHome home ((s.setRing i ring').goTo i (.pushing tasks)) := by
  have hm := ringMove_of_step hs
  cases hm with
  | push hpc =>
    refine ⟨h.entries.pushBack hpoint, (h.rings.owner hs trivial rfl).same rfl rfl rfl, ?_,
      h.stolen, h.resumed⟩
    exact (h.marks.goTo (i := i) (.pushing tasks) (by simp [hpoint]) (not_schedule rfl)).same
      rfl rfl rfl

lemma StaysHome.popBack (h : StaysHome home s) (hidle : s.points i = .idle)
    (hs : (s.rings i).step .popBack = some ring') :
    StaysHome home ((s.setRing i ring').goTo i .popping) := by
  have hm := ringMove_of_step hs
  cases hm with
  | pop hpc =>
    refine ⟨?_, (h.rings.owner hs trivial rfl).same rfl rfl rfl, ?_, h.stolen, h.resumed⟩
    · have hentries : EntriesOk home (s.setRing i { s.rings i with owner := .popLoadTail }) :=
        h.entries.setRing (fun _ _ => id) (by simp [pushedTask])
      exact hentries.goTo .popping (by simp [handTasks]) (by simp [wakerTask]) .nil
    · exact (h.marks.goTo (i := i) .popping (by simp [hidle]) (not_schedule rfl)).same rfl rfl rfl

lemma StaysHome.popTaken (h : StaysHome home s) {tail : ℕ}
    (hpoint : s.points i = .popping)
    (hpc : (s.rings i).owner = .popTake tail ∨ (s.rings i).owner = .popTakeLast tail)
    (hs : (s.rings i).step .runOwner = some ring') :
    StaysHome home ((s.setRing i ring').goTo i
      (match (s.rings i).slots (slotOf tail) with
      | some task => .clearQueued task
      | none => .idle)) := by
  have hfree : SlotFree (s.rings i) .runOwner := by
    intro task tail' hpc'
    obtain hpc | hpc := hpc <;> cases hpc.symm.trans hpc'
  have hring : ring' = { (s.rings i).takeSlot tail with owner := .idle } := by
    obtain hpc | hpc := hpc <;>
    · simp only [ChaseLevTaskRing.step, ChaseLevTaskRing.runOwner, hpc, Option.some.injEq] at hs
      exact hs.symm
  have hrun := h.runOwner hs hfree
  have hold : ∀ t, (s.setRing i ring').points i ≠ .resumeHandle t := by
    simp [StealDomain.setRing, hpoint]
  split
  · rename_i task hslot
    refine ⟨?_, hrun.rings.same rfl rfl rfl, hrun.marks.goTo _ hold (not_schedule rfl), h.stolen,
      h.resumed⟩
    exact h.entries.takeSlot hslot (by rw [hring]) (by simp [hring, pushedTask]) rfl rfl
      (fun _ => rfl)
  · exact hrun.idle hold

lemma StaysHome.unmarked (h : StaysHome home s) {k : Fin kCapacity}
    (hslot : (s.rings v).slots k = some x) (hmark : s.ownerOnly x = false) : s.woken x = false := by
  rw [← Bool.not_eq_true]
  intro hwoken
  obtain hmarked | ⟨j, hj⟩ := h.marks.woken hwoken
  · exact Bool.false_ne_true (hmark.symm.trans hmarked)
  · have hat : At s x (.hand j) := by simp [At, hj, handTasks]
    cases h.entries.unique (p := .slot v k) hslot hat

lemma StaysHome.thief (h : StaysHome home s) {pc : ThiefPc} {head : ℕ}
    (hs : (s.rings v).step a = some ring') (ha : SlotFree (s.rings v) a)
    (hring : ring' = { (s.rings v).setThief i pc with head := head })
    (hsees : ThiefSees s.woken ring' (s.candidates v i) pc) :
    StaysHome home (s.setRing v ring') := by
  have hmove := ringMove_of_step hs
  subst hring
  refine ⟨h.entries.setRing (fun _ _ => id) (fun _ => id), ?_, h.marks.same rfl rfl rfl, h.stolen,
    h.resumed⟩
  refine h.rings.setRing hmove ha fun j => ?_
  simp only [ChaseLevTaskRing.setThief, Function.update_apply]
  split
  · next hj => exact .inr (hj ▸ hsees)
  · exact .inl rfl

lemma StaysHome.loadSlot (h : StaysHome home s) {head : ℕ}
    (hpc : (s.rings v).thieves i = .loadSlot head)
    (hs : (s.rings v).step (.runThief i false) = some ring') :
    StaysHome home { s.setRing v ring' with
      candidates := Function.update s.candidates v (Function.update (s.candidates v) i
        (((s.rings v).slots (slotOf head)).getD 0)) } := by
  have hring : ring' = (s.rings v).setThief i
      (if (s.rings v).slots (slotOf head) = none then .idle else .loadOwnerOnly head) := by
    simp only [ChaseLevTaskRing.step, ChaseLevTaskRing.runThief, hpc, Option.some.injEq] at hs
    exact hs.symm
  have hmove := ringMove_of_step hs
  have hcontrol := controlOk_move (h.rings.control v) (a := .runThief i false) trivial hmove
  have hothers : ∀ j, j ≠ i → ring'.thieves j = (s.rings v).thieves j := by
    intro j hj
    rw [hring]
    exact Function.update_of_ne hj _ _
  have hentries : EntriesOk home (s.setRing v ring') :=
    h.entries.setRing (by simp [hring, ChaseLevTaskRing.setThief])
      (by simp [hring, ChaseLevTaskRing.setThief])
  refine ⟨{ hentries with }, ⟨?_, ?_⟩, h.marks.same rfl rfl rfl, h.stolen, h.resumed⟩
  · intro u
    obtain rfl | hu := eq_or_ne u v
    · simpa [StealDomain.setRing] using hcontrol
    · simpa [StealDomain.setRing, hu] using h.rings.control u
  · intro u j
    obtain rfl | hu := eq_or_ne u v
    · simp only [StealDomain.setRing, Function.update_self]
      obtain rfl | hj := eq_or_ne j i
      · -- the slot is not empty, and its task is the candidate
        rw [hring]
        simp only [ChaseLevTaskRing.setThief, Function.update_self]
        cases hslot : (s.rings u).slots (slotOf head) with
        | none => trivial
        | some c => exact fun _ => hslot
      · rw [Function.update_of_ne hj]
        exact (h.rings.sees u j).kept (h.rings.control u) hcontrol hmove (hothers j hj)
    · simpa [StealDomain.setRing, hu] using h.rings.sees u j

lemma StaysHome.loadOwnerOnly (h : StaysHome home s) {head : ℕ}
    (hpc : (s.rings v).thieves i = .loadOwnerOnly head)
    (hs : (s.rings v).step (.runThief i (s.ownerOnly (s.candidates v i))) = some ring') :
    StaysHome home (s.setRing v ring') := by
  have hsees := h.rings.sees v i
  rw [hpc] at hsees
  have hring : ring' = (s.rings v).setThief i
      (if s.ownerOnly (s.candidates v i) = true then .idle else .cas head) := by
    simp only [ChaseLevTaskRing.step, ChaseLevTaskRing.runThief, hpc, Option.some.injEq] at hs
    exact hs.symm
  refine h.thief hs trivial hring ?_
  subst hring
  split
  · trivial
  · next hmark =>
    intro hhead
    exact ⟨_, hsees hhead, h.unmarked (hsees hhead) (Bool.eq_false_iff.mpr hmark)⟩

lemma StaysHome.cas (h : StaysHome home s) {head : ℕ} (hpc : (s.rings v).thieves i = .cas head)
    (hs : (s.rings v).step (.runThief i false) = some ring') :
    StaysHome home (s.setRing v ring') := by
  have hsees := h.rings.sees v i
  rw [hpc] at hsees
  by_cases hhead : (s.rings v).head = head
  · have hring : ring' = { (s.rings v).setThief i (.exchange head) with head := add64 head 1 } := by
      simp only [ChaseLevTaskRing.step, ChaseLevTaskRing.runThief, hpc, hhead, if_true,
        Option.some.injEq] at hs
      exact hs.symm
    refine h.thief hs trivial hring ?_
    subst hring
    exact hsees hhead
  · have hring : ring' = (s.rings v).setThief i .idle := by
      simp only [ChaseLevTaskRing.step, ChaseLevTaskRing.runThief, hpc, hhead, if_false,
        Option.some.injEq] at hs
      exact hs.symm
    exact h.thief hs trivial hring trivial

lemma StaysHome.taken (h : StaysHome home s) {head : ℕ} (hpoint : s.points i = .stealing v)
    (hpc : (s.rings v).thieves i = .exchange head)
    (hs : (s.rings v).step (.runThief i false) = some ring') :
    StaysHome home
      (match (s.rings v).slots (slotOf head) with
      | some task =>
        { (s.setRing v ring').goTo i (.push [task]) with
          stolen := s.stolen ++ [(task, s.woken task)] }
      | none => (s.setRing v ring').goTo i .idle) := by
  have hsees := h.rings.sees v i
  rw [hpc] at hsees
  obtain ⟨c, hslot, hwoken⟩ := hsees
  have hring : ring' = ((s.rings v).takeSlot head).setThief i .idle := by
    simp only [ChaseLevTaskRing.step, ChaseLevTaskRing.runThief, hpc, Option.some.injEq] at hs
    exact hs.symm
  rw [hslot]
  refine ⟨?_, ?_, ?_, ?_, h.resumed⟩
  · have hentries : EntriesOk home ((s.setRing v ring').goTo i (.push [c])) :=
      h.entries.takeSlot hslot (by rw [hring]; rfl)
        (by simp [hring, ChaseLevTaskRing.setThief, ChaseLevTaskRing.takeSlot]) rfl rfl
        (fun hw => absurd (hwoken.symm.trans hw) Bool.false_ne_true)
    exact { hentries with }
  · have hrings := h.rings.setRing (ringMove_of_step hs) trivial fun j => ?_
    · exact hrings.same rfl rfl rfl
    · rw [hring]
      simp only [ChaseLevTaskRing.setThief, ChaseLevTaskRing.takeSlot, Function.update_apply]
      split
      · exact .inr trivial
      · exact .inl rfl
  · exact (h.marks.goTo (i := i) (.push [c]) (by simp [hpoint]) (not_schedule rfl)).same rfl rfl rfl
  · simp only [List.mem_append, List.mem_singleton]
    rintro e (he | rfl)
    · exact h.stolen e he
    · exact hwoken

lemma StaysHome.runSteal (h : StaysHome home s) (hpoint : s.points i = .stealing v)
    (hs : s.runSteal i v = some s') : StaysHome home s' := by
  unfold StealDomain.runSteal at hs
  dsimp only at hs
  split at hs
  · cases hs
    exact h.idle (by simp [hpoint])
  · rename_i head hpc
    obtain ⟨ring', hstep, rfl⟩ := Option.map_eq_some_iff.mp hs
    exact h.loadSlot hpc hstep
  · rename_i head hpc
    obtain ⟨ring', hstep, rfl⟩ := Option.map_eq_some_iff.mp hs
    exact h.loadOwnerOnly hpc hstep
  · rename_i head hpc
    obtain ⟨ring', hstep, rfl⟩ := Option.map_eq_some_iff.mp hs
    exact h.taken hpoint hpc hstep
  · rename_i hidle hslot honly hexchange
    obtain ⟨ring', hstep, rfl⟩ := Option.map_eq_some_iff.mp hs
    cases hpc : (s.rings v).thieves i with
    | idle => exact absurd hpc hidle
    | loadSlot head => exact absurd hpc (hslot head)
    | loadOwnerOnly head => exact absurd hpc (honly head)
    | exchange head => exact absurd hpc (hexchange head)
    | cas head => exact h.cas hpc hstep
    | loadHead =>
      have hring : ring' = (s.rings v).setThief i (.loadTail (s.rings v).head) := by
        simp only [ChaseLevTaskRing.step, ChaseLevTaskRing.runThief, hpc,
          Option.some.injEq] at hstep
        exact hstep.symm
      exact h.thief hstep trivial hring trivial
    | loadTail head =>
      have hring : ring' = (s.rings v).setThief i
          (if (s.rings v).tail ≤ head then .idle else .loadSlot head) := by
        simp only [ChaseLevTaskRing.step, ChaseLevTaskRing.runThief, hpc,
          Option.some.injEq] at hstep
        exact hstep.symm
      refine h.thief hstep trivial hring ?_
      split <;> trivial

lemma StaysHome.clearQueued (h : StaysHome home s) (hpoint : s.points i = .clearQueued x) :
    StaysHome home { s.goTo i (.clearOwnerOnly x) with
      queued := Function.update s.queued x false } := by
  have hnext := h.goTo (i := i) (.clearOwnerOnly x) (by simp [handTasks, hpoint]) rfl
    (List.nodup_singleton x) (by simp [hpoint])
  exact ⟨{ hnext.entries with }, hnext.rings.same rfl rfl rfl, hnext.marks.same rfl rfl rfl,
    h.stolen, h.resumed⟩

lemma StaysHome.clearOwnerOnly (h : StaysHome home s) (hpoint : s.points i = .clearOwnerOnly x) :
    StaysHome home { s.goTo i (.resumeHandle x) with
      ownerOnly := Function.update s.ownerOnly x false } := by
  have hat : At s x (.hand i) := by simp [At, hpoint, handTasks]
  have hentries := h.entries.goTo (i := i) (.resumeHandle x) (by simp [handTasks, hpoint])
    (by simp [wakerTask]) (List.nodup_singleton x)
  refine ⟨{ hentries with }, h.rings.same rfl rfl rfl, ⟨?_, ?_⟩, h.stolen, h.resumed⟩
  · intro t ht
    obtain rfl | hne := eq_or_ne t x
    · exact .inr ⟨i, by simp [StealDomain.goTo]⟩
    · refine (h.marks.woken ht).imp (by simp [hne]) ?_
      rintro ⟨j, hj⟩
      have hji : j ≠ i := by
        rintro rfl
        cases hpoint.symm.trans hj
      exact ⟨j, by simpa [StealDomain.goTo, hji] using hj⟩
  · intro j t hj
    have hji : j ≠ i := by
      rintro rfl
      simp [StealDomain.goTo] at hj
    simp only [StealDomain.goTo, Function.update_of_ne hji] at hj
    have hne : t ≠ x := by
      rintro rfl
      have hwaker : At s t (.waker j) := by simp [At, hj, wakerTask]
      cases h.entries.unique hwaker hat
    simpa [hne] using h.marks.waker hj

lemma StaysHome.resumeHandle (h : StaysHome home s) (hpoint : s.points i = .resumeHandle x) :
    StaysHome home { s.goTo i .idle with
      woken := Function.update s.woken x false
      resumed := s.resumed ++ [(x, i, s.woken x)] } := by
  have hat : At s x (.hand i) := by simp [At, hpoint, handTasks]
  have hmono : ∀ t, Function.update s.woken x false t = true → t ≠ x ∧ s.woken t = true := by
    intro t ht
    simp only [Function.update_apply] at ht
    split at ht
    · cases ht
    · exact ⟨‹_›, ht⟩
  refine ⟨?_, ?_, ⟨?_, ?_⟩, h.stolen, ?_⟩
  · exact (h.entries.idle (i := i)).shrink (fun _ p => by cases p <;> exact id)
      (fun t ht => (hmono t ht).2) h.entries.inject (nodup_goTo h.entries.hand .nil)
  · refine h.rings.marks (w := Function.update s.woken x false) rfl rfl rfl fun _ _ c _ hc => ?_
    simp [Function.update_apply, hc]
  · intro t ht
    obtain ⟨hne, ht⟩ := hmono t ht
    refine (h.marks.woken ht).imp_right ?_
    rintro ⟨j, hj⟩
    have hji : j ≠ i := by
      rintro rfl
      cases hpoint.symm.trans hj
      exact hne rfl
    exact ⟨j, by simpa [StealDomain.goTo, hji] using hj⟩
  · intro j t hj
    have hji : j ≠ i := by
      rintro rfl
      simp [StealDomain.goTo] at hj
    exact h.marks.waker (by simpa [StealDomain.goTo, hji] using hj)
  · simp only [List.mem_append, List.mem_singleton]
    rintro e (he | rfl)
    · exact h.resumed e he
    · exact fun hwoken => h.entries.homed hwoken hat rfl

/-- A task is put into a queue only while it is in none, no other wake-up of it is under way and no
thread is resuming it, and `push_back` does not write a slot that a thief has won and not read. -/
def OneEntry (s : StealDomain) : DomainAction → Prop
  | .schedule _ task _ | .scheduleDeferred _ task => ∀ p, ¬At s task p
  | .run i _ => SlotFree (s.rings i) .runOwner ∧
    ∀ task, s.points i = .exchangeQueued task → s.queued task = false → ∀ p, ¬At s task p
  | _ => True

lemma StaysHome.takeLifo (h : StaysHome home s) (hidle : s.points i = .idle)
    (hlifo : s.lifoSlots i = some x) {point : ThreadPoint} (hhand : handTasks point = [x])
    (hwaker : wakerTask point = none) : StaysHome home ((s.setLifo i none).goTo i point) := by
  refine ⟨h.entries.takeLifo hlifo hhand hwaker, h.rings.same rfl rfl rfl, ?_, h.stolen, h.resumed⟩
  exact (h.marks.goTo (i := i) point (by simp [hidle]) (not_schedule hwaker)).same rfl rfl rfl

lemma StaysHome.stealFront (h : StaysHome home s) (hidle : s.points i = .idle)
    (hs : (s.rings v).step (.stealFront i) = some ring') :
    StaysHome home ((s.setRing v ring').goTo i (.stealing v)) := by
  have hring : ring' = (s.rings v).setThief i .loadHead := by
    cases ringMove_of_step hs
    rfl
  exact (h.thief hs trivial hring trivial).goTo (.stealing v) nofun rfl .nil
    (by simp [StealDomain.setRing, hidle])

lemma StaysHome.call (h : StaysHome home s) {a : DomainAction} (hidle : s.points (actor a) = .idle)
    (hone : OneEntry s a) (hs : s.call home a = some s') : StaysHome home s' := by
  cases a with
  | wakeUp i task =>
    cases hs
    exact h.goTo _ (by simp [handTasks]) rfl .nil (by simp [show s.points i = .idle from hidle])
  | schedule i task lifoEnabled =>
    cases hs
    exact h.schedulePlain hidle hone lifoEnabled
  | scheduleDeferred i task =>
    cases hs
    exact ⟨h.entries.injectHome (w := s.woken) hone fun _ _ => id, h.rings.same rfl rfl rfl,
      h.marks.same rfl rfl rfl, h.stolen, h.resumed⟩
  | prepareForRun i =>
    obtain ⟨task, hlifo, rfl⟩ := Option.map_eq_some_iff.mp hs
    exact h.takeLifo hidle hlifo rfl rfl
  | drainInjected i batch rest =>
    obtain ⟨⟨hperm, -⟩, hs⟩ := Option.ite_none_right_eq_some.mp hs
    cases hs
    exact ⟨h.entries.drain hperm, h.rings.same rfl rfl rfl,
      (h.marks.goTo (i := i) (.push batch.reverse) (by simp [show s.points i = .idle from hidle])
        (not_schedule rfl)).same rfl rfl rfl, h.stolen, h.resumed⟩
  | popLifo i =>
    obtain ⟨task, hlifo, rfl⟩ := Option.map_eq_some_iff.mp hs
    exact h.takeLifo hidle hlifo rfl rfl
  | popBack i =>
    obtain ⟨-, hs⟩ := Option.ite_none_right_eq_some.mp hs
    obtain ⟨ring', hstep, rfl⟩ := Option.map_eq_some_iff.mp hs
    exact h.popBack hidle hstep
  | stealFront i victim =>
    obtain ⟨-, hs⟩ := Option.ite_none_left_eq_some.mp hs
    obtain ⟨ring', hstep, rfl⟩ := Option.map_eq_some_iff.mp hs
    exact h.stealFront hidle hstep
  | run i lifoEnabled => cases hs

lemma StaysHome.runPop (h : StaysHome home s) (hpoint : s.points i = .popping)
    (hfree : SlotFree (s.rings i) .runOwner) (hs : s.runPop i = some s') : StaysHome home s' := by
  unfold StealDomain.runPop at hs
  dsimp only at hs
  split at hs
  · cases hs
    exact h.idle (by simp [hpoint])
  · obtain ⟨ring', hstep, rfl⟩ := Option.map_eq_some_iff.mp hs
    exact h.popTaken hpoint (.inl ‹_›) hstep
  · obtain ⟨ring', hstep, rfl⟩ := Option.map_eq_some_iff.mp hs
    exact h.popTaken hpoint (.inr ‹_›) hstep
  · obtain ⟨ring', hstep, rfl⟩ := Option.map_eq_some_iff.mp hs
    exact h.runOwner hstep hfree

lemma StaysHome.run (h : StaysHome home s) {lifoEnabled : Bool}
    (hone : OneEntry s (.run i lifoEnabled)) (hs : s.run home i lifoEnabled = some s') :
    StaysHome home s' := by
  obtain ⟨hfree, hexchange⟩ := hone
  unfold StealDomain.run at hs
  split at hs <;> rename_i hpoint
  · cases hs
  · split at hs
    · cases hs
      exact h.idle (by simp [hpoint])
    · cases hs
      exact h.exchange hpoint (hexchange _ hpoint (Bool.eq_false_iff.mpr ‹_›))
  · cases hs
    exact h.storeOwnerOnly hpoint
  · cases hs
    exact h.scheduleWoken hpoint lifoEnabled
  · cases hs
    exact h.goTo _ (by simp [handTasks, hpoint]) rfl (List.nodup_singleton _) (by simp [hpoint])
  · split at hs
    · cases hs
      exact (h.loadSize hpoint).1
    · cases hs
      exact (h.loadSize hpoint).2
  · cases hs
    exact h.idle (by simp [hpoint])
  · obtain ⟨ring', hstep, rfl⟩ := Option.map_eq_some_iff.mp hs
    exact h.pushBack hpoint hstep
  · split at hs
    · cases hs
      have hnodup := h.entries.hand i
      rw [hpoint] at hnodup
      exact h.goTo _ (by simp [handTasks, hpoint]) rfl hnodup (by simp [hpoint])
    · obtain ⟨ring', hstep, rfl⟩ := Option.map_eq_some_iff.mp hs
      exact h.runOwner hstep hfree
  · exact h.runPop hpoint hfree hs
  · exact h.runSteal hpoint hs
  · cases hs
    exact h.clearQueued hpoint
  · cases hs
    exact h.clearOwnerOnly hpoint
  · cases hs
    exact h.resumeHandle hpoint

lemma StaysHome.step (h : StaysHome home s) {a : DomainAction} (hone : OneEntry s a)
    (hs : StealDomain.step home s a = some s') : StaysHome home s' := by
  cases a with
  | run i lifoEnabled => exact h.run hone hs
  | _ =>
    obtain ⟨hidle, hs⟩ := Option.ite_none_right_eq_some.mp hs
    exact h.call hidle hone hs

/-- Under any interleaving, as long as a task is put into a queue only while it is in none: thieves
take only tasks that were not put there by `requestTaskResume`, and a task that was is next resumed
by the thread of its own scheduler. -/
theorem woken_tasks_stay_home
    (h : Reaches (StealDomain.step home) OneEntry StealDomain.init s) :
    (∀ e ∈ s.stolen, e.2 = false) ∧ ∀ e ∈ s.resumed, e.2.2 = true → e.2.1 = home e.1 := by
  have hok : StaysHome home s := h.invariant staysHome_init fun _ _ _ hi hone hs => hi.step hone hs
  exact ⟨hok.stolen, hok.resumed⟩

def plainStep (s : StealDomain) : DomainAction → Bool
  | .schedule _ _ _ | .scheduleDeferred _ _ => false
  | .run i _ =>
    (match (s.rings i).owner with
      | .pushStoreSlot _ _ => false
      | _ => true) &&
    (match s.points i with
      | .exchangeQueued _ => false
      | _ => true)
  | _ => true

lemma oneEntry_of_plainStep (s : StealDomain) (a : DomainAction) (h : plainStep s a = true) :
    OneEntry s a := by
  cases a with
  | schedule => cases h
  | scheduleDeferred => cases h
  | run i lifoEnabled =>
    obtain ⟨howner, hpoint⟩ := Bool.and_eq_true_iff.mp h
    constructor
    · intro task tail hpc
      rw [hpc] at howner
      cases howner
    · intro task hpc
      rw [hpc] at hpoint
      cases hpoint
  | _ => trivial

/-- From the store of `m_resume_owner_only` to the store of the slot. -/
def markedRun : List DomainAction :=
  [.run 2 false, .run 2 false, .drainInjected 0 [0] [], .run 0 false, .run 0 false, .run 0 false]

def resumedRun : List DomainAction :=
  List.replicate 3 (.run 0 false) ++ .stealFront 1 0 :: List.replicate 5 (.run 1 false) ++
    .popBack 0 :: List.replicate 9 (.run 0 false)

lemma wokenOnce_reaches : ∃ s, Reaches (StealDomain.step fun _ => 0) OneEntry StealDomain.init s ∧
    s.resumed = [(0, 0, true)] := by
  have hcall : Reaches (StealDomain.step fun _ => 0) OneEntry StealDomain.init
      (StealDomain.init.goTo 2 (.exchangeQueued 0)) :=
    .of_run plainStep oneEntry_of_plainStep [.wakeUp 2 0] .start rfl
  have hexchange := hcall.next (a := DomainAction.run 2 false) ⟨?_, ?_⟩ rfl
  · have hmarked := hexchange.of_run plainStep oneEntry_of_plainStep markedRun rfl
    have hstored := hmarked.next (a := DomainAction.run 0 false) ⟨?_, ?_⟩ rfl
    · have hresumed := hstored.of_run plainStep oneEntry_of_plainStep resumedRun rfl
      exact ⟨_, hresumed, rfl⟩
    · intro task tail hpc
      cases hpc
      exact ⟨by decide, fun _ _ hj => by cases hj⟩
    · intro task hpc
      cases hpc
  · intro task tail hpc
    cases hpc
  · intro task hpc _ p hp
    obtain ⟨-, ht⟩ | ⟨-, ht⟩ | ⟨-, -, hp⟩ := at_goTo hp
    · cases ht
    · cases ht
    · exact not_at_init p hp

theorem wokenOnce_stays_home :
    ∃ s, Reaches (StealDomain.step fun _ => 0) OneEntry StealDomain.init s ∧
      s.resumed = [(0, 0, true)] ∧ (∀ e ∈ s.stolen, e.2 = false) ∧
      ∀ e ∈ s.resumed, e.2.2 = true → e.2.1 = 0 := by
  obtain ⟨s, hs, hresumed⟩ := wokenOnce_reaches
  exact ⟨s, hs, hresumed, woken_tasks_stay_home hs⟩

def drainAndPush : List DomainAction :=
  .drainInjected 0 [0] [] :: List.replicate 7 (.run 0 false)

def resetQueued : List DomainAction :=
  .wakeUp 2 0 :: List.replicate 3 (.run 2 false) ++ drainAndPush ++
    .popBack 0 :: List.replicate 7 (.run 0 false)

def wokenDuringResume : List DomainAction :=
  resetQueued ++ .wakeUp 3 0 :: List.replicate 2 (.run 3 false) ++
    [.run 0 false, .run 0 false, .run 3 false] ++ drainAndPush ++
    .stealFront 1 0 :: List.replicate 6 (.run 1 false)

lemma wokenDuringResume_steals :
    ∃ s, Transition.run (StealDomain.step fun _ => 0) StealDomain.init wokenDuringResume = some s ∧
      s.stolen = [(0, true)] :=
  ⟨_, rfl, rfl⟩

/-- A woken task can be stolen when wake-ups may come at any time. -/
theorem woken_task_can_be_stolen :
    ¬∀ (home : ℕ → ℕ) (s : StealDomain),
      Reaches (StealDomain.step home) (fun _ _ => True) StealDomain.init s →
      (∀ e ∈ s.stolen, e.2 = false) ∧ ∀ e ∈ s.resumed, e.2.2 = true → e.2.1 = home e.1 := by
  intro h
  obtain ⟨s, hrun, hstolen⟩ := wokenDuringResume_steals
  have hfalse := (h _ s (.of_replay wokenDuringResume .start hrun)).1 (0, true) (by simp [hstolen])
  cases hfalse

end GalayKernel.Proofs
