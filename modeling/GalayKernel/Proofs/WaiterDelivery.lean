import GalayKernel.Lib.Threads
import GalayKernel.Proofs.WaiterMoves

namespace GalayKernel

def NotifyPoint.stored {α : Type} : NotifyPoint α → Option α
  | .clearWaiting v | .wakeUp v => some v
  | _ => none

end GalayKernel

namespace GalayKernel.Proofs
open AsyncWait Transition
open NotifyPoint (won stored)

variable {ι α : Type} [DecidableEq ι] {s s' : AsyncWait ι α} {a : AsyncWaitAction ι α} {i : ι}
  {v : α}

def Claims (f : NotifyPoint α → Option α) (s : AsyncWait ι α) : Option ι → α → Prop
  | some i, v => f (s.notifiers i) = some v
  | none, v => (v, true) ∈ s.calls

structure WinOk (s : AsyncWait ι α) : Prop where
  unique : ∀ x y v w, Claims won s x v → Claims won s y w → x = y ∧ v = w
  ready : ∀ x v, Claims won s x v → s.waiter.ready = true
  once : (s.calls.filter (fun call => call.2)).length ≤ 1

omit [DecidableEq ι] in
lemma WinOk.keep (h : WinOk s) (hready : s'.waiter.ready = s.waiter.ready)
    (honce : s'.calls.filter (fun call => call.2) = s.calls.filter (fun call => call.2))
    (hwon : ∀ x v, Claims won s' x v ↔ Claims won s x v) : WinOk s' := by
  refine ⟨?_, ?_, honce ▸ h.once⟩
  · simp only [hwon]
    exact h.unique
  · simp only [hwon, hready]
    exact h.ready

section Claims

variable {f : NotifyPoint α → Option α} {point : NotifyPoint α} {x : Option ι} {w : α}

lemma Claims.of_update (hnotifiers : s'.notifiers = Function.update s.notifiers i point)
    (h : Claims f s' x w) :
    (x = some i ∧ f point = some w) ∨ (x ≠ some i ∧ x ≠ none ∧ Claims f s x w) ∨
      (x = none ∧ (w, true) ∈ s'.calls) := by
  cases x with
  | none => exact .inr (.inr ⟨rfl, h⟩)
  | some j =>
    have hwon : f (s'.notifiers j) = some w := h
    rw [hnotifiers] at hwon
    by_cases hj : j = i
    · subst hj
      rw [Function.update_self] at hwon
      exact .inl ⟨rfl, hwon⟩
    · rw [Function.update_of_ne hj] at hwon
      exact .inr (.inl ⟨by simpa using hj, nofun, hwon⟩)

lemma claims_iff (hnotifiers : s'.notifiers = Function.update s.notifiers i point)
    (hpoint : f point = f (s.notifiers i)) (hcalls : (w, true) ∈ s'.calls ↔ (w, true) ∈ s.calls) :
    Claims f s' x w ↔ Claims f s x w := by
  cases x with
  | none => exact hcalls
  | some j =>
    show f (s'.notifiers j) = some w ↔ f (s.notifiers j) = some w
    rw [hnotifiers]
    by_cases hj : j = i
    · rw [hj, Function.update_self, hpoint]
    · rw [Function.update_of_ne hj]

lemma Claims.of_return (hnotifiers : s'.notifiers = Function.update s.notifiers i .idle)
    (hcalls : s'.calls = s.calls ++ [(v, true)]) (hf : f .idle = none) (h : Claims f s' x w) :
    (x = none ∧ w = v) ∨ (x ≠ some i ∧ Claims f s x w) := by
  rcases h.of_update hnotifiers with ⟨-, hw⟩ | ⟨hne, -, hw⟩ | ⟨rfl, hw⟩
  · rw [hf] at hw
    cases hw
  · exact .inr ⟨hne, hw⟩
  · rw [hcalls, List.mem_append, List.mem_singleton] at hw
    rcases hw with hw | hw
    · exact .inr ⟨nofun, hw⟩
    · exact .inl ⟨rfl, (Prod.mk.inj hw).1⟩

end Claims

lemma WinOk.finish (h : WinOk s) (hi : (s.notifiers i).won = some v)
    (hnotifiers : s'.notifiers = Function.update s.notifiers i .idle)
    (hready : s'.waiter.ready = s.waiter.ready) (hcalls : s'.calls = s.calls ++ [(v, true)]) :
    WinOk s' := by
  have hwon : ∀ x w, Claims won s' x w → x = none ∧ w = v := by
    intro x w hx
    rcases hx.of_return hnotifiers hcalls rfl with hx | ⟨hne, hw⟩
    · exact hx
    · exact absurd (h.unique x (some i) w v hw hi).1 hne
  refine ⟨fun x y w w' hx hy => ?_, fun x w _ => ?_, ?_⟩
  · obtain ⟨rfl, rfl⟩ := hwon x w hx
    obtain ⟨rfl, rfl⟩ := hwon y w' hy
    exact ⟨rfl, rfl⟩
  · rw [hready]
    exact h.ready (some i) v hi
  · have hnil : s.calls.filter (fun call => call.2) = [] := by
      rw [List.filter_eq_nil_iff]
      rintro ⟨w, b⟩ hw hb
      obtain rfl : b = true := hb
      exact absurd (h.unique (some i) none v w hi hw).1 nofun
    rw [hcalls, List.filter_append, hnil]
    simp

lemma WinOk.wins {point : NotifyPoint α} (h : WinOk s) (hready : s.waiter.ready = false)
    (hpoint : point.won = some v)
    (hnotifiers : s'.notifiers = Function.update s.notifiers i point)
    (hset : s'.waiter.ready = true) (hcalls : s'.calls = s.calls) : WinOk s' := by
  have hnone : ∀ x w, ¬Claims won s x w := fun x w hx =>
    Bool.false_ne_true (hready.symm.trans (h.ready x w hx))
  have hwon : ∀ x w, Claims won s' x w → x = some i ∧ w = v := by
    intro x w hx
    rcases hx.of_update hnotifiers with ⟨rfl, hw⟩ | ⟨-, -, hw⟩ | ⟨rfl, hw⟩
    · exact ⟨rfl, Option.some.inj (hw.symm.trans hpoint)⟩
    · exact absurd hw (hnone x w)
    · rw [hcalls] at hw
      exact absurd hw (hnone none w)
  refine ⟨fun x y w w' hx hy => ?_, fun x w _ => hset, hcalls ▸ h.once⟩
  obtain ⟨rfl, rfl⟩ := hwon x w hx
  obtain ⟨rfl, rfl⟩ := hwon y w' hy
  exact ⟨rfl, rfl⟩

theorem winOk_move (h : WinOk s) (hm : WaitMove s a s') : WinOk s' := by
  cases hm with
  | notify hi | store hi | takes hi =>
    exact h.keep rfl rfl (fun _ _ => claims_iff rfl (congrArg won hi).symm Iff.rfl)
  | loses hi =>
    exact h.keep rfl (by simp) (fun _ _ => claims_iff rfl (congrArg won hi).symm (by simp))
  | @wins i v _ hready =>
    refine h.wins (v := v) hready ?_ rfl rfl rfl
    split <;> rfl
  | nobody hi | wakeUp hi => exact h.finish (congrArg won hi) rfl rfl rfl
  | _ => exact h.keep rfl rfl (fun _ _ => Iff.rfl)

omit [DecidableEq ι] in
lemma winOk_init (kind : WaiterKind) (timed : Bool) :
    WinOk (init kind timed : AsyncWait ι α) := by
  have hnone : ∀ x v, ¬Claims won (init kind timed : AsyncWait ι α) x v := by
    rintro (_ | i) v h <;> cases h
  exact ⟨fun x _ v _ hx => absurd hx (hnone x v), fun x v hx => absurd hx (hnone x v),
    by simp [init]⟩

structure StoreOk (s : AsyncWait ι α) : Prop where
  kind : s.kind = .value
  fresh : s.waiter.ready = false → s.waiter.result = none
  ready : s.waiter.ready = true → (∃ i v, s.notifiers i = .store v) ∨ s.waiter.result ≠ none
  unstored : ∀ i v, s.notifiers i = .store v → s.waiter.result = none
  value : ∀ x v, Claims stored s x v → s.waiter.result = some v
  source : ∀ v, s.waiter.result = some v → ∃ x, Claims stored s x v

omit [DecidableEq ι] in
lemma Claims.won_of_stored {x : Option ι} (h : Claims stored s x v) : Claims won s x v := by
  cases x with
  | none => exact h
  | some i =>
    have hi : (s.notifiers i).stored = some v := h
    show (s.notifiers i).won = some v
    cases hp : s.notifiers i <;> simp_all [stored, won]

omit [DecidableEq ι] in
lemma StoreOk.keep (h : StoreOk s) (hkind : s'.kind = s.kind)
    (hready : s'.waiter.ready = s.waiter.ready) (hresult : s'.waiter.result = s.waiter.result)
    (hstore : ∀ i v, s'.notifiers i = .store v ↔ s.notifiers i = .store v)
    (hstored : ∀ x v, Claims stored s' x v ↔ Claims stored s x v) : StoreOk s' := by
  refine ⟨hkind.trans h.kind, ?_, ?_, ?_, ?_, ?_⟩
  · rw [hready, hresult]
    exact h.fresh
  · simp only [hready, hresult, hstore]
    exact h.ready
  · simp only [hresult, hstore]
    exact h.unstored
  · simp only [hresult, hstored]
    exact h.value
  · simp only [hresult, hstored]
    exact h.source

lemma store_iff {point : NotifyPoint α}
    (hnotifiers : s'.notifiers = Function.update s.notifiers i point)
    (hpoint : ∀ v, point ≠ .store v) (hi : ∀ v, s.notifiers i ≠ .store v) (j : ι) (v : α) :
    s'.notifiers j = .store v ↔ s.notifiers j = .store v := by
  rw [hnotifiers]
  by_cases hj : j = i
  · rw [hj, Function.update_self]
    exact ⟨fun h => absurd h (hpoint v), fun h => absurd h (hi v)⟩
  · rw [Function.update_of_ne hj]

lemma StoreOk.finish (h : StoreOk s) (hi : (s.notifiers i).stored = some v)
    (hnotifiers : s'.notifiers = Function.update s.notifiers i .idle) (hkind : s'.kind = s.kind)
    (hwaiter : s'.waiter = s.waiter) (hcalls : s'.calls = s.calls ++ [(v, true)]) : StoreOk s' := by
  have hstore := store_iff hnotifiers (fun _ => nofun)
    (fun w hw => absurd (hi.symm.trans (congrArg stored hw)) nofun)
  have hresult : s.waiter.result = some v := h.value (some i) v hi
  refine ⟨hkind.trans h.kind, ?_, ?_, ?_, fun x w hx => ?_, fun w hw => ?_⟩
  · rw [hwaiter]
    exact h.fresh
  · simp only [hwaiter, hstore]
    exact h.ready
  · simp only [hwaiter, hstore]
    exact h.unstored
  · rw [hwaiter]
    rcases hx.of_return hnotifiers hcalls rfl with ⟨-, rfl⟩ | ⟨-, hx⟩
    · exact hresult
    · exact h.value x w hx
  · rw [hwaiter, hresult, Option.some.injEq] at hw
    refine ⟨none, ?_⟩
    show (w, true) ∈ s'.calls
    simp [hcalls, hw]

theorem storeOk_move (hwin : WinOk s) (h : StoreOk s) (hm : WaitMove s a s') : StoreOk s' := by
  cases hm with
  | notify hi | takes hi =>
    exact h.keep rfl rfl rfl (store_iff rfl (fun _ => nofun) (by simp [hi]))
      (fun _ _ => claims_iff rfl (congrArg stored hi).symm Iff.rfl)
  | loses hi =>
    exact h.keep rfl rfl rfl (store_iff rfl (fun _ => nofun) (by simp [hi]))
      (fun _ _ => claims_iff rfl (congrArg stored hi).symm (by simp))
  | @wins i v hi hready =>
    have hnone : s.waiter.result = none := h.fresh hready
    rw [h.kind]
    refine ⟨h.kind, fun _ => hnone, fun _ => .inl ⟨i, v, by simp [setNotifier]⟩,
      fun _ _ _ => hnone, fun x w hx => ?_, fun w hw => absurd (hnone.symm.trans hw) nofun⟩
    rcases hx.of_update rfl with ⟨-, hw⟩ | ⟨-, -, hx⟩ | ⟨rfl, hx⟩
    · cases hw
    · exact h.value x w hx
    · exact h.value none w hx
  | @store i v hi =>
    have hi' : Claims won s (some i) v := congrArg won hi
    refine ⟨h.kind, fun hready => ?_, fun _ => .inr nofun, fun j w hj => ?_, fun x w hx => ?_,
      fun w hw => ?_⟩
    · exact absurd (hready.symm.trans (hwin.ready _ _ hi')) nofun
    · by_cases hji : j = i
      · simp [setNotifier, hji] at hj
      · simp only [setNotifier, Function.update_of_ne hji] at hj
        have hj' : Claims won s (some j) w := congrArg won hj
        exact absurd (Option.some.inj (hwin.unique _ _ _ _ hj' hi').1) hji
    · rcases hx.of_update rfl with ⟨-, hw⟩ | ⟨hne, -, hx⟩ | ⟨rfl, hx⟩
      · exact hw
      · exact absurd (hwin.unique _ _ _ _ hx.won_of_stored hi').1 hne
      · exact absurd (hwin.unique none _ w _ hx hi').1 nofun
    · refine ⟨some i, ?_⟩
      show (Function.update s.notifiers i (.clearWaiting v) i).stored = some w
      rw [Function.update_self]
      exact hw
  | nobody hi | wakeUp hi => exact h.finish (congrArg stored hi) rfl rfl rfl rfl
  | _ => exact h.keep rfl rfl rfl (fun _ _ => Iff.rfl) (fun _ _ => Iff.rfl)

/-- A suspended task is registered, or it is going to be woken. -/
structure DozeOk (s : AsyncWait ι α) : Prop where
  registered : s.waiter.waiting = true → s.point ≠ .start ∧ s.point ≠ .ready ∧ s.point ≠ .setWaiting
  recheck : s.point = .recheck → s.waiter.waiting = true ∨ s.waiter.ready = true
  taken : Dozing s.point → s.waiter.waiting = false →
    (∃ i v, s.notifiers i = .wakeUp v) ∨ s.wake.pending ≠ []
  ready : Dozing s.point → s.waiter.waiting = true → s.waiter.ready = true →
    ∃ i v, s.notifiers i = .store v ∨ s.notifiers i = .clearWaiting v

omit [DecidableEq ι] in
lemma DozeOk.run (hpoint : ¬Dozing s'.point)
    (hregistered : s'.waiter.waiting = true → s'.point ≠ .start ∧ s'.point ≠ .ready ∧
      s'.point ≠ .setWaiting)
    (hrecheck : s'.point = .recheck → s'.waiter.waiting = true) : DozeOk s' :=
  ⟨hregistered, fun hp => .inl (hrecheck hp), fun hd => absurd hd hpoint,
    fun hd => absurd hd hpoint⟩

omit [DecidableEq ι] in
lemma DozeOk.wake (h : DozeOk s) (hpoint : s'.point = s.point) (hwaiter : s'.waiter = s.waiter)
    (hnotifiers : s'.notifiers = s.notifiers)
    (hpending : s.wake.pending ≠ [] → s'.wake.pending ≠ []) : DozeOk s' := by
  refine ⟨?_, ?_, fun hd hw => ?_, ?_⟩
  · rw [hpoint, hwaiter]
    exact h.registered
  · rw [hpoint, hwaiter]
    exact h.recheck
  · rw [hnotifiers]
    exact (h.taken (hpoint ▸ hd) (hwaiter ▸ hw)).imp_right hpending
  · rw [hpoint, hwaiter, hnotifiers]
    exact h.ready

lemma DozeOk.thread {point : NotifyPoint α} (h : DozeOk s)
    (hnotifiers : s'.notifiers = Function.update s.notifiers i point) (hp : s'.point = s.point)
    (hwaiting : s'.waiter.waiting = s.waiter.waiting)
    (hready : s.waiter.ready = true → s'.waiter.ready = true)
    (htaken : s'.wake.pending ≠ [] ∨ s'.wake = s.wake ∧ ∀ v, s.notifiers i ≠ .wakeUp v)
    (hlooks : s.waiter.waiting = true → (∃ v, point = .store v ∨ point = .clearWaiting v) ∨
      s'.waiter.ready = s.waiter.ready ∧
        ∀ v, ¬(s.notifiers i = .store v ∨ s.notifiers i = .clearWaiting v)) :
    DozeOk s' := by
  refine ⟨?_, fun hr => ?_, fun hd hw => ?_, fun hd hw hr => ?_⟩
  · rw [hp, hwaiting]
    exact h.registered
  · rw [hwaiting]
    exact (h.recheck (hp ▸ hr)).imp_right hready
  · rcases htaken with hpending | ⟨hwake, hi⟩
    · exact .inr hpending
    · rw [hnotifiers, hwake]
      refine (h.taken (hp ▸ hd) (hwaiting ▸ hw)).imp_left (fun hwoken => ?_)
      exact Threads.exists_update (P := fun x => ∃ v, x = .wakeUp v) point
        (fun ⟨v, hv⟩ => hi v hv) hwoken
  · rw [hwaiting] at hw
    rw [hnotifiers]
    rcases hlooks hw with ⟨v, hv⟩ | ⟨hready', hi⟩
    · exact ⟨i, v, by rwa [Function.update_self]⟩
    · exact Threads.exists_update (P := fun x => ∃ v, x = .store v ∨ x = .clearWaiting v) point
        (fun ⟨v, hv⟩ => hi v hv) (h.ready (hp ▸ hd) hw (hready' ▸ hr))

theorem dozeOk_move (hwin : WinOk s) (h : DozeOk s) (hm : WaitMove s a s') : DozeOk s' := by
  cases hm with
  | notify hi | loses hi =>
    exact h.thread rfl rfl rfl id (.inr ⟨rfl, by simp [hi]⟩) (fun _ => .inr ⟨rfl, by simp [hi]⟩)
  | @wins i v hi =>
    refine h.thread rfl rfl rfl (fun _ => rfl) (.inr ⟨rfl, by simp [hi]⟩) (fun _ => .inl ⟨v, ?_⟩)
    cases s.kind
    · exact .inl rfl
    · exact .inr rfl
  | @store i v hi =>
    exact h.thread rfl rfl rfl id (.inr ⟨rfl, by simp [hi]⟩) (fun _ => .inl ⟨v, .inr rfl⟩)
  | @takes i v hi =>
    have hready := hwin.ready (some i) v (congrArg won hi)
    refine ⟨nofun, fun _ => .inr hready, fun _ _ => .inl ⟨i, v, ?_⟩, nofun⟩
    exact Function.update_self ..
  | nobody hi hwaiting =>
    exact h.thread rfl rfl rfl id (.inr ⟨rfl, by simp [hi]⟩)
      (fun hw => absurd (hwaiting.symm.trans hw) nofun)
  | wakeUp hi =>
    exact h.thread rfl rfl rfl id (.inl (TaskWake.pending_request_ne_nil _ _))
      (fun _ => .inr ⟨rfl, by simp [hi]⟩)
  | wait hp => exact .run id (fun hw => absurd hp (h.registered hw).1) nofun
  | notReady hp => exact .run id (fun hw => absurd hp (h.registered hw).2.1) nofun
  | setWaiting hp => exact .run id (fun _ => ⟨nofun, nofun, nofun⟩) (fun _ => rfl)
  | suspend hp hready =>
    have hwaiting : s.waiter.waiting = true := by simpa [hready] using h.recheck hp
    refine ⟨fun _ => ?_, fun hr => ?_, fun _ hw => absurd (hwaiting.symm.trans hw) nofun,
      fun _ _ hr => absurd (hready.symm.trans hr) nofun⟩
    · cases s.timed <;> simp
    · cases htimed : s.timed <;> simp [htimed] at hr
  | isReady | alreadyWaiting | recheckReady | clearWaiting | timedOut | inTime | cancel | returns
  | awaitElsewhere | resumeTimed | resumeUntimed | resumeElsewhere =>
    exact .run id (fun _ => ⟨nofun, nofun, nofun⟩) nofun
  | addTimer hp =>
    have hd : Dozing s.point := hp ▸ trivial
    exact ⟨fun _ => ⟨nofun, nofun, nofun⟩, nofun, fun _ => h.taken hd, fun _ => h.ready hd⟩
  | wakeElsewhere => exact h.wake rfl rfl rfl (fun _ => TaskWake.pending_request_ne_nil _ _)
  | direct => exact h.wake rfl rfl rfl (fun _ => TaskWake.pending_enqueue_ne_nil _ _)
  | schedule hwake => exact h.wake rfl rfl rfl (TaskWake.pending_schedule_eq_nil hwake).not.mpr
  | pop _ hwake => exact h.wake rfl rfl rfl (TaskWake.pending_pop_eq_nil hwake).not.mpr
  | expire => exact h.wake rfl rfl rfl id
  | handle ht => exact h.wake rfl rfl rfl (pending_handle_ne_nil ht)

/-- The wait looks at `m_ready` when nobody is between setting it and storing the result, and
nothing but `notify` wakes the task before it has returned. -/
def ReadsStored (s : AsyncWait ι α) : AsyncWaitAction ι α → Prop
  | .advance => s.point = .ready ∨ s.point = .recheck → ∀ i v, s.notifiers i ≠ .store v
  | .wakeElsewhere | .enqueue => s.point = .returned ∨ s.point = .elsewhere
  | _ => True

/-- The points at which the result must be there, and those that a wait without a timeout does
not come to. -/
def ReadAt (result : Option α) : WaitPoint → Prop
  | .clearWaiting | .result | .returned | .elsewhere => result ≠ none
  | .addTimer | .suspended (some _) | .checkTimeout _ | .cancel _ => False
  | _ => True

lemma readAt_some {result : Option α} {point : WaitPoint} (h : ReadAt result point) :
    ReadAt (some v) point := by
  cases point with
  | clearWaiting | result | returned | elsewhere => exact nofun
  | suspended timer => cases timer <;> exact h
  | _ => exact h

structure ReadOk (s : AsyncWait ι α) : Prop where
  untimed : s.timed = false
  timers : s.timers.armed = [] ∧ s.timers.handling = none
  point : ReadAt s.waiter.result s.point
  pending : s.wake.pending ≠ [] → s.waiter.result ≠ none
  outcome : ∀ o, s.outcome = some o → ∃ v, o = .value v ∧ s.waiter.result = some v

section ReadOk

omit [DecidableEq ι]

lemma ReadOk.keep (h : ReadOk s) (htimed : s'.timed = s.timed) (htimers : s'.timers = s.timers)
    (hpoint : s'.point = s.point) (hresult : s'.waiter.result = s.waiter.result)
    (hpending : s'.wake.pending ≠ [] → s.wake.pending ≠ [] ∨ s.waiter.result ≠ none)
    (houtcome : s'.outcome = s.outcome) : ReadOk s' := by
  refine ⟨htimed.trans h.untimed, htimers ▸ h.timers, ?_, fun hp => ?_, ?_⟩
  · rw [hpoint, hresult]
    exact h.point
  · rw [hresult]
    exact (hpending hp).elim h.pending id
  · rw [houtcome, hresult]
    exact h.outcome

lemma ReadOk.advance (h : ReadOk s) (htimed : s'.timed = s.timed) (htimers : s'.timers = s.timers)
    (hresult : s'.waiter.result = s.waiter.result) (hwake : s'.wake = s.wake)
    (houtcome : s'.outcome = s.outcome) (hpoint : ReadAt s.waiter.result s'.point) : ReadOk s' := by
  refine ⟨htimed.trans h.untimed, htimers ▸ h.timers, hresult ▸ hpoint, ?_, ?_⟩
  · rw [hwake, hresult]
    exact h.pending
  · rw [houtcome, hresult]
    exact h.outcome

end ReadOk

theorem readOk_move (hok : ReadsStored s a) (hstore : StoreOk s) (hdoze : DozeOk s) (h : ReadOk s)
    (hm : WaitMove s a s') : ReadOk s' := by
  have hpoint := h.point
  cases hm with
  | notify | loses | wins | takes | nobody => exact h.keep rfl rfl rfl rfl .inl rfl
  | @store i v hi =>
    have hnone := hstore.unstored i v hi
    refine ⟨h.untimed, h.timers, ?_, fun _ => nofun, fun o ho => ?_⟩
    · exact readAt_some hpoint
    · obtain ⟨w, -, hw⟩ := h.outcome o ho
      exact absurd (hnone.symm.trans hw) nofun
  | @wakeUp i v hi =>
    have hvalue := hstore.value (some i) v (congrArg stored hi)
    exact h.keep rfl rfl rfl rfl (fun _ => .inr (by simp [hvalue])) rfl
  | wait | notReady | setWaiting => exact h.advance rfl rfl rfl rfl rfl trivial
  | isReady hp hready =>
    have hnot := hok (.inl hp)
    refine h.advance rfl rfl rfl rfl rfl ?_
    exact (hstore.ready hready).resolve_left fun ⟨i, v, hv⟩ => hnot i v hv
  | recheckReady hp hready =>
    have hnot := hok (.inr hp)
    refine h.advance rfl rfl rfl rfl rfl ?_
    exact (hstore.ready hready).resolve_left fun ⟨i, v, hv⟩ => hnot i v hv
  | alreadyWaiting hp hwaiting => exact absurd hp (hdoze.registered hwaiting).2.2
  | suspend =>
    refine h.advance rfl rfl rfl rfl rfl ?_
    rw [h.untimed]
    trivial
  | clearWaiting hp | awaitElsewhere hp =>
    rw [hp] at hpoint
    exact h.advance rfl rfl rfl rfl rfl hpoint
  | addTimer hp | timedOut hp | inTime hp | cancel hp | resumeTimed hp =>
    rw [hp] at hpoint
    cases hpoint
  | returns hp =>
    rw [hp] at hpoint
    obtain ⟨v, hv⟩ := Option.ne_none_iff_exists'.mp hpoint
    refine ⟨h.untimed, h.timers, hpoint, h.pending, fun o ho => ⟨v, ?_, hv⟩⟩
    rw [← Option.some.inj ho]
    simp only [awaitResume, hstore.kind, hv]
  | wakeElsewhere | direct =>
    have hresult : s.waiter.result ≠ none := by
      rcases hok with hp | hp <;> (rw [hp] at hpoint; exact hpoint)
    exact h.keep rfl rfl rfl rfl (fun _ => .inr hresult) rfl
  | schedule hwake =>
    exact h.keep rfl rfl rfl rfl
      (fun hp => .inl ((TaskWake.pending_schedule_eq_nil hwake).not.mp hp)) rfl
  | pop _ hwake =>
    exact h.keep rfl rfl rfl rfl
      (fun hp => .inl ((TaskWake.pending_pop_eq_nil hwake).not.mp hp)) rfl
  | resumeUntimed hp hwake =>
    have hresuming := (TaskWake.resuming_resume hwake).1
    have hresult := h.pending (TaskWake.pending_of_resuming hresuming)
    exact ⟨h.untimed, h.timers, hresult, fun _ => hresult, h.outcome⟩
  | resumeElsewhere hp hwake =>
    rw [hp] at hpoint
    exact ⟨h.untimed, h.timers, hpoint, fun _ => hpoint, h.outcome⟩
  | expire ht => simp [TimerThread.expire, h.timers.1] at ht
  | handle ht => simp [TimerThread.handle, h.timers.2] at ht

/-- The wait returns the value of the one call of `notify` that wins, and when that call has
returned, a wait that is suspended is going to be resumed. -/
def Delivers (s : AsyncWait ι α) : Prop :=
  (∀ o, s.outcome = some o → ∃ v, o = .value v ∧ (∃ x, Claims stored s x v) ∧
    ∀ w, (w, true) ∈ s.calls → w = v) ∧
  (s.calls.filter (fun call => call.2)).length ≤ 1 ∧
  (∀ v, (v, true) ∈ s.calls → s.point = .suspended none → s.wake.pending ≠ [])

theorem wait_returns_notified_value (h : Reaches step ReadsStored (init .value false) s) :
    Delivers s := by
  have hinv := wait_invariant (P := fun s => WinOk s ∧ StoreOk s ∧ DozeOk s ∧ ReadOk s)
    ⟨winOk_init .value false, ?_, ?_, ?_⟩ ?_ h
  · obtain ⟨hwin, hstore, hdoze, hread⟩ := hinv
    refine ⟨fun o ho => ?_, hwin.once, fun v hv hp => ?_⟩
    · obtain ⟨v, rfl, hv⟩ := hread.outcome o ho
      obtain ⟨x, hx⟩ := hstore.source v hv
      exact ⟨v, rfl, ⟨x, hx⟩, fun w hw => (hwin.unique none x w v hw hx.won_of_stored).2⟩
    · -- the winner has returned, so no other call is between `m_ready` and its wake-up
      have hnone : ∀ i w, ¬Claims won s (some i) w := fun i w hi =>
        absurd (hwin.unique (some i) none w v hi hv).1 nofun
      have hd : Dozing s.point := hp ▸ trivial
      cases hwaiting : s.waiter.waiting with
      | false =>
        rcases hdoze.taken hd hwaiting with ⟨i, w, hi⟩ | hpending
        · exact absurd (congrArg won hi) (hnone i w)
        · exact hpending
      | true =>
        obtain ⟨i, w, hi | hi⟩ := hdoze.ready hd hwaiting (hwin.ready none v hv)
        · exact absurd (congrArg won hi) (hnone i w)
        · exact absurd (congrArg won hi) (hnone i w)
  · refine ⟨rfl, fun _ => rfl, nofun, nofun, ?_, nofun⟩
    rintro (_ | i) v h <;> cases h
  · exact ⟨nofun, nofun, nofun, nofun⟩
  · exact ⟨rfl, ⟨rfl, rfl⟩, trivial, fun hne => absurd rfl hne, nofun⟩
  · rintro s a s' ⟨hwin, hstore, hdoze, hread⟩ hok hm
    exact ⟨winOk_move hwin hm, storeOk_move hwin hstore hm, dozeOk_move hwin hdoze hm,
      readOk_move hok hstore hdoze hread hm⟩

/-- Two threads notify; the wait suspends between them. -/
def notifiedTwice : List (AsyncWaitAction Bool Nat) :=
  [.wait, .advance, .advance, .advance, .notify true 4, .notify false 9, .notifyStep true,
    .notifyStep false, .notifyStep true, .notifyStep true, .notifyStep true,
    .schedule (.notify true), .pop (.notify true), .resume, .advance]

def storeCheck (s : AsyncWait Bool Nat) : AsyncWaitAction Bool Nat → Bool
  | .advance => (s.notifiers true).won.isNone && (s.notifiers false).won.isNone
  | .wakeElsewhere | .enqueue => false
  | _ => true

lemma readsStored_of_check (s : AsyncWait Bool Nat) (a : AsyncWaitAction Bool Nat)
    (h : storeCheck s a = true) : ReadsStored s a := by
  cases a with
  | advance =>
    intro _ i v hi
    simp only [storeCheck, Bool.and_eq_true] at h
    cases i
    · simp [hi, won] at h
    · simp [hi, won] at h
  | wakeElsewhere | enqueue => cases h
  | _ => trivial

theorem notifiedTwice_delivers :
    ∃ s, run step (init .value false) notifiedTwice = some s ∧ s.outcome = some (.value 4) ∧
      s.calls = [(9, false), (4, true)] ∧ Delivers s :=
  ⟨_, rfl, rfl, rfl, @wait_returns_notified_value Bool Nat _ _ (Reaches.start.of_run storeCheck
    readsStored_of_check notifiedTwice rfl)⟩

/-- The wait finds `m_ready` set before the value is stored. -/
def readsTooEarly : List (AsyncWaitAction Bool Nat) :=
  [.notify true 4, .notifyStep true, .wait, .advance, .advance]

theorem wait_can_miss_notified_value : ¬∀ s : AsyncWait Bool Nat,
    Reaches step (fun _ _ => True) (init .value false) s → Delivers s := by
  intro h
  obtain ⟨v, hv, -⟩ := (h _ (Reaches.start.of_replay readsTooEarly rfl)).1 _ rfl
  cases hv

end GalayKernel.Proofs
