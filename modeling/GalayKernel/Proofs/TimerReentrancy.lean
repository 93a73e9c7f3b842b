import GalayKernel.TimerReentrancy
import GalayKernel.Lib.Transition
import GalayKernel.Proofs.WheelSlots

/-!
# The books of the timer manager, with callbacks in the middle of a call

`m_size` is adjusted in ten places. It counts the timers in the slots and those that a cascade has
taken out and not yet put back, and a timer whose `handleTimeout` runs is still counted: a callback
never finds `m_size` at 0 inside `tick()`, so that `push` does not move the wheels under it.

Accepted timers are balanced against those that were handled, those that were found done or
cancelled, and those that are counted. The branch of `cascadeSlot` that drops a timer is not
reached: `push` rounds the delay up and refuses what is out of range, a cascade rounds it down and
reads the clock later.
-/

namespace GalayKernel.Proofs

open Transition ReentrantManager

/-- What may happen next, after the events of a history. -/
def AllowedEvent (log : List TimerEvent) : TimerEvent → Prop
  | .handled id => .handled id ∉ log
  | .ran id => .ran id ∉ log ∧ .cancelled id ∉ log
  | .woke id => .woke id ∉ log
  | .skipped id => .done id ∈ log ∨ .cancelled id ∈ log
  | .discarded _ => False
  | _ => True

def HistoryOk : List TimerEvent → Prop
  | [] => True
  | e :: log => AllowedEvent log e ∧ HistoryOk log

variable {counted : Multiset ℕ} {leaving : List ℕ} {log : List TimerEvent} {id : ℕ}

/-- The accepted timers and where they are. A timer that is `leaving` has been handled and is still
counted. -/
structure TimerLedger (counted : Multiset ℕ) (leaving : List ℕ) (log : List TimerEvent) : Prop where
  balance : ∀ id, log.count (.accepted id) + leaving.count id =
    log.count (.handled id) + log.count (.skipped id) + counted.count id
  pushed : ∀ id, log.count (.accepted id) ≤ log.count (.pushed id) ∧ log.count (.pushed id) ≤ 1
  handled : ∀ id ∈ leaving, .handled id ∈ log
  nodup : leaving.Nodup
  ran : ∀ id, .ran id ∈ log ∨ .woke id ∈ log → .handled id ∈ log
  history : HistoryOk log

lemma ledger_new : TimerLedger 0 [] [] :=
  ⟨fun _ => rfl, fun _ => ⟨le_rfl, Nat.zero_le 1⟩, nofun, .nil, by simp, trivial⟩

lemma TimerLedger.count_le (h : TimerLedger counted leaving log) (id : ℕ) :
    counted.count id ≤ 1 := by
  have hbalance := h.balance id
  obtain ⟨haccepted, hpushed⟩ := h.pushed id
  by_cases hid : id ∈ leaving
  · have hhandled := List.count_pos_iff.mpr (h.handled id hid)
    have hleaving := List.nodup_iff_count_le_one.mp h.nodup id
    omega
  · rw [List.count_eq_zero_of_not_mem hid] at hbalance
    omega

lemma TimerLedger.not_handled (h : TimerLedger counted leaving log) (hid : id ∈ counted)
    (hleaving : id ∉ leaving) : .handled id ∉ log := by
  have hbalance := h.balance id
  obtain ⟨haccepted, hpushed⟩ := h.pushed id
  have hcounted := Multiset.count_pos.mpr hid
  rw [List.count_eq_zero_of_not_mem hleaving] at hbalance
  rw [← List.count_eq_zero]
  omega

lemma TimerLedger.pushed_of_leaving (h : TimerLedger counted leaving log) (hid : id ∈ counted)
    (hleaving : id ∈ leaving) : .pushed id ∈ log := by
  have hbalance := h.balance id
  have haccepted := (h.pushed id).1
  have hcounted := Multiset.count_pos.mpr hid
  have hhandled := List.count_pos_iff.mpr (h.handled id hleaving)
  have hone := List.nodup_iff_count_le_one.mp h.nodup id
  rw [← List.count_pos_iff]
  omega

lemma TimerLedger.cons {e : TimerEvent} {counted' : Multiset ℕ} {leaving' : List ℕ}
    (h : TimerLedger counted leaving log) (hallowed : AllowedEvent log e)
    (hbalance : ∀ id, (e :: log).count (.accepted id) + leaving'.count id =
      (e :: log).count (.handled id) + (e :: log).count (.skipped id) + counted'.count id)
    (hpushed : ∀ id, (e :: log).count (.accepted id) ≤ (e :: log).count (.pushed id) ∧
      (e :: log).count (.pushed id) ≤ 1)
    (hhandled : ∀ id ∈ leaving', e = .handled id ∨ id ∈ leaving) (hnodup : leaving'.Nodup)
    (hran : ∀ id, e = .ran id ∨ e = .woke id → .handled id ∈ log) :
    TimerLedger counted' leaving' (e :: log) := by
  refine ⟨hbalance, hpushed, ?_, hnodup, ?_, hallowed, h.history⟩
  · intro id hid
    obtain rfl | hid := hhandled id hid
    · exact List.mem_cons_self
    · exact List.mem_cons_of_mem e (h.handled id hid)
  · intro id hid
    simp only [List.mem_cons] at hid
    refine List.mem_cons_of_mem e ?_
    obtain (heq | hmem) | (heq | hmem) := hid
    · exact hran id (.inl heq.symm)
    · exact h.ran id (.inl hmem)
    · exact hran id (.inr heq.symm)
    · exact h.ran id (.inr hmem)

lemma TimerLedger.other {e : TimerEvent} (h : TimerLedger counted leaving log)
    (hallowed : AllowedEvent log e)
    (hother : ∀ id, e ≠ .accepted id ∧ e ≠ .handled id ∧ e ≠ .skipped id ∧ e ≠ .pushed id)
    (hran : ∀ id, e = .ran id ∨ e = .woke id → .handled id ∈ log) :
    TimerLedger counted leaving (e :: log) := by
  refine h.cons hallowed ?_ ?_ (fun _ => .inr) h.nodup hran
  · intro id
    obtain ⟨haccepted, hhandled, hskipped, -⟩ := hother id
    rw [List.count_cons_of_ne haccepted, List.count_cons_of_ne hhandled,
      List.count_cons_of_ne hskipped, h.balance]
  · intro id
    obtain ⟨haccepted, -, -, hpushed⟩ := hother id
    rw [List.count_cons_of_ne haccepted, List.count_cons_of_ne hpushed]
    exact h.pushed id

lemma TimerLedger.cancelled (h : TimerLedger counted leaving log) (id : ℕ) :
    TimerLedger counted leaving (.cancelled id :: log) :=
  h.other trivial (by simp) (by simp)

lemma TimerLedger.done (h : TimerLedger counted leaving log) (id : ℕ) :
    TimerLedger counted leaving (.done id :: log) :=
  h.other trivial (by simp) (by simp)

lemma TimerLedger.push (h : TimerLedger counted leaving log) (hid : .pushed id ∉ log) :
    TimerLedger counted leaving (.pushed id :: log) := by
  refine h.cons trivial (by simpa using h.balance) ?_ (fun _ => .inr) h.nodup (by simp)
  intro id'
  obtain ⟨haccepted, hpushed⟩ := h.pushed id'
  rw [List.count_cons_of_ne (by simp)]
  obtain rfl | hne := eq_or_ne id' id
  · rw [List.count_eq_zero_of_not_mem hid] at haccepted
    rw [List.count_cons_self, List.count_eq_zero_of_not_mem hid]
    exact ⟨haccepted.trans (Nat.zero_le _), le_rfl⟩
  · rw [List.count_cons_of_ne (by simpa using hne.symm)]
    exact ⟨haccepted, hpushed⟩

lemma TimerLedger.accept (h : TimerLedger counted leaving log) (hpushed : .pushed id ∈ log)
    (hid : .accepted id ∉ log) :
    TimerLedger (counted + {id}) leaving (.accepted id :: log) := by
  refine h.cons trivial ?_ ?_ (fun _ => .inr) h.nodup (by simp)
  · intro id'
    have hbalance := h.balance id'
    simp only [List.count_cons, Multiset.count_add, Multiset.count_singleton, beq_iff_eq,
      reduceCtorEq, if_false, TimerEvent.accepted.injEq, eq_comm (a := id')]
    split_ifs <;> omega
  · intro id'
    obtain ⟨haccepted, hle⟩ := h.pushed id'
    have hcount : (TimerEvent.accepted id :: log).count (.pushed id') = log.count (.pushed id') :=
      List.count_cons_of_ne (by simp)
    rw [hcount]
    obtain rfl | hne := eq_or_ne id' id
    · rw [List.count_cons_self, List.count_eq_zero_of_not_mem hid]
      exact ⟨List.count_pos_iff.mpr hpushed, hle⟩
    · rw [List.count_cons_of_ne (by simpa using hne.symm)]
      exact ⟨haccepted, hle⟩

lemma TimerLedger.handle (h : TimerLedger counted leaving log) (hid : id ∈ counted)
    (hleaving : id ∉ leaving) : TimerLedger counted (id :: leaving) (.handled id :: log) := by
  refine h.cons (h.not_handled hid hleaving) ?_ ?_ ?_ (h.nodup.cons hleaving) (by simp)
  · intro id'
    have hbalance := h.balance id'
    simp only [List.count_cons, beq_iff_eq, reduceCtorEq, if_false, TimerEvent.handled.injEq]
    split_ifs <;> omega
  · simpa using h.pushed
  · intro id' hid'
    obtain rfl | hid' := List.mem_cons.mp hid'
    · exact .inl rfl
    · exact .inr hid'

lemma TimerLedger.leave (h : TimerLedger (counted + {id}) (id :: leaving) log) :
    TimerLedger counted leaving log := by
  refine ⟨?_, h.pushed, fun id' hid' => h.handled id' (List.mem_cons_of_mem _ hid'),
    (List.nodup_cons.mp h.nodup).2, h.ran, h.history⟩
  intro id'
  have hbalance := h.balance id'
  simp only [List.count_cons, Multiset.count_add, Multiset.count_singleton, beq_iff_eq,
    eq_comm (a := id')] at hbalance
  split_ifs at hbalance <;> omega

lemma TimerLedger.skip (h : TimerLedger (counted + {id}) leaving log)
    (hflag : .done id ∈ log ∨ .cancelled id ∈ log) :
    TimerLedger counted leaving (.skipped id :: log) := by
  refine h.cons hflag ?_ (by simpa using h.pushed) (fun _ => .inr) h.nodup (by simp)
  intro id'
  have hbalance := h.balance id'
  simp only [List.count_cons, Multiset.count_add, Multiset.count_singleton, beq_iff_eq,
    reduceCtorEq, if_false, TimerEvent.skipped.injEq, eq_comm (a := id')] at hbalance ⊢
  split_ifs at hbalance ⊢ <;> omega

variable {s s' : ReentrantManager} {t : IOTimer}

lemma TimerLedger.handleTimeout (h : TimerLedger counted leaving s.log) (hid : t.id ∈ counted)
    (hleaving : t.id ∉ leaving) :
    TimerLedger counted (t.id :: leaving) (s.handleTimeout t).log := by
  have hnot := h.not_handled hid hleaving
  have hhandled := h.handle hid hleaving
  have hwoke : TimerLedger counted (t.id :: leaving) (.woke t.id :: .handled t.id :: s.log) := by
    refine hhandled.other ?_ (by simp) (by simp)
    simp only [AllowedEvent, List.mem_cons, reduceCtorEq, false_or]
    exact fun hw => hnot (h.ran t.id (.inr hw))
  have hran : (s.record (.handled t.id)).flagged t = false →
      TimerLedger counted (t.id :: leaving) (.ran t.id :: .handled t.id :: s.log) := by
    intro hflag
    simp only [flagged, record, Bool.or_eq_false_iff, List.contains_eq_mem, List.mem_cons,
      reduceCtorEq, false_or, decide_eq_false_iff_not] at hflag
    refine hhandled.other ?_ (by simp) (by simp)
    simp only [AllowedEvent, List.mem_cons, reduceCtorEq, false_or]
    exact ⟨fun hr => hnot (h.ran t.id (.inl hr)), hflag.2⟩
  unfold ReentrantManager.handleTimeout
  dsimp only
  cases t.kind with
  | plain => exact hhandled.done t.id
  | callback =>
    dsimp only
    split
    · exact hhandled.done t.id
    · rename_i hflag
      exact hran (Bool.eq_false_of_not_eq_true hflag)
  | timeout =>
    dsimp only
    split
    · exact hhandled.done t.id
    · rename_i hflag
      exact (hran (Bool.eq_false_of_not_eq_true hflag)).done t.id
  | sleep => exact hwoke.done t.id

def heldAt : Option TickPoint → List IOTimer
  | some (.cascading _ _ temp _) => temp
  | some (.forgetting t _ _ temp _) => t :: temp
  | _ => []

def leavingAt : Option TickPoint → List IOTimer
  | some (.forgetting t _ _ _ _) => [t]
  | some (.erasing t _) => [t]
  | _ => []

def countedIn (slots : Slot → List IOTimer) (point : Option TickPoint) : Multiset ℕ :=
  (Buckets.total slots + (heldAt point : Multiset IOTimer)).map (·.id)

def InSpan (nowNs tickDuration : ℕ) (t : IOTimer) : Prop :=
  (t.expireTime - nowNs) / tickDuration < 2 ^ 32

/-- The timers that a cascade has taken out were in range when it read the clock. -/
def TempOk (now tickDuration : ℕ) : Option TickPoint → Prop
  | some (.cascade w _) => w ≠ .wheel1
  | some (.cascading w nowNs temp _) =>
    w ≠ .wheel1 ∧ nowNs ≤ now ∧ ∀ t ∈ temp, InSpan nowNs tickDuration t
  | some (.forgetting _ w nowNs temp _) =>
    w ≠ .wheel1 ∧ nowNs ≤ now ∧ ∀ t ∈ temp, InSpan nowNs tickDuration t
  | _ => True

structure BooksOk (s : ReentrantManager) : Prop where
  ledger : TimerLedger (countedIn s.slots s.point) ((leavingAt s.point).map (·.id)) s.log
  size : s.size = (countedIn s.slots s.point).card
  first : ∀ ⦃t target⦄, s.point = some (.erasing t target) →
    (s.slots (slotAt .wheel1 s.currentTick)).head? = some t
  calling : s.callbacks ≠ [] → s.point = none ∨ leavingAt s.point ≠ []
  inSlots : ∀ ⦃k t⦄, t ∈ s.slots k → k.1 ≠ .wheel1 → InSpan s.now s.tickDuration t
  inTemp : TempOk s.now s.tickDuration s.point

variable {slots : Slot → List IOTimer} {k : Slot} {point : Option TickPoint}

lemma InSpan.later {now now' T : ℕ} (h : InSpan now T t) (hle : now ≤ now') : InSpan now' T t :=
  lt_of_le_of_lt (Nat.div_le_div_right (Nat.sub_le_sub_left hle _)) h

lemma TempOk.later {now now' T : ℕ} (h : TempOk now T point) (hle : now ≤ now') :
    TempOk now' T point := by
  match point, h with
  | none, _ => trivial
  | some (.loop _), _ => trivial
  | some (.cascade _ _), h => exact h
  | some (.cascading _ _ _ _), h => exact ⟨h.1, h.2.1.trans hle, h.2.2⟩
  | some (.forgetting _ _ _ _ _), h => exact ⟨h.1, h.2.1.trans hle, h.2.2⟩
  | some (.processing _), _ => trivial
  | some (.erasing _ _), _ => trivial
  | some .resetting, _ => trivial

lemma countedIn_pushBack : countedIn (Function.update slots k (slots k ++ [t])) point =
    countedIn slots point + {t.id} := by
  rw [countedIn, Buckets.total_pushBack, add_right_comm, Multiset.map_add, Multiset.map_singleton,
    countedIn]

lemma countedIn_congr {point' : Option TickPoint} (h : heldAt point' = heldAt point) :
    countedIn slots point' = countedIn slots point := by
  rw [countedIn, h, countedIn]

lemma mem_countedIn (ht : t ∈ slots k) : t.id ∈ countedIn slots point :=
  Multiset.mem_map_of_mem _ (Multiset.mem_add.mpr (.inl (Buckets.mem_total.mpr ⟨k, ht⟩)))

lemma mem_countedIn_of_held (ht : t ∈ heldAt point) : t.id ∈ countedIn slots point :=
  Multiset.mem_map_of_mem _ (Multiset.mem_add.mpr (.inr (Multiset.mem_coe.mpr ht)))

lemma BooksOk.leaving_counted (h : BooksOk s) (ht : t ∈ leavingAt s.point) :
    t.id ∈ countedIn s.slots s.point := by
  match hpoint : s.point, ht with
  | some (.forgetting t' _ _ _ _), ht =>
    obtain rfl := List.mem_singleton.mp ht
    exact mem_countedIn_of_held List.mem_cons_self
  | some (.erasing t' _), ht =>
    obtain rfl := List.mem_singleton.mp ht
    exact mem_countedIn (List.mem_of_mem_head? (h.first hpoint))

/-- `m_size` is not 0 while `handleTimeout` runs inside `tick()`. -/
lemma BooksOk.size_pos (h : BooksOk s) (hleaving : leavingAt s.point ≠ []) : 0 < s.size := by
  obtain ⟨t, ht⟩ := List.exists_mem_of_ne_nil _ hleaving
  rw [h.size, Multiset.card_pos_iff_exists_mem]
  exact ⟨t.id, h.leaving_counted ht⟩

lemma booksOk_new (T : ℕ) (hpos : 0 < T) (hlt : T < 2 ^ 64) (now : ℕ) :
    BooksOk (.new T hpos hlt now) where
  ledger := by simpa [new, countedIn, Buckets.total_empty, heldAt, leavingAt] using ledger_new
  size := by simp [new, countedIn, Buckets.total_empty, heldAt]
  first := nofun
  calling := fun h => absurd rfl h
  inSlots := nofun
  inTemp := trivial

lemma BooksOk.record (h : BooksOk s) {e : TimerEvent}
    (hledger : TimerLedger (countedIn s.slots s.point) ((leavingAt s.point).map (·.id))
      (e :: s.log)) :
    BooksOk (s.record e) :=
  { h with ledger := hledger }

lemma BooksOk.elapse (h : BooksOk s) (time : ℕ) : BooksOk { s with now := s.now + time } :=
  { h with
    inSlots := fun _ _ ht hk => (h.inSlots ht hk).later (Nat.le_add_right _ _)
    inTemp := h.inTemp.later (Nat.le_add_right _ _) }

lemma handleTimeout_eq : s.handleTimeout t =
    { s with callbacks := (s.handleTimeout t).callbacks, log := (s.handleTimeout t).log } := by
  unfold ReentrantManager.handleTimeout
  dsimp only
  split
  · rfl
  · split <;> rfl
  · split <;> rfl
  · rfl

lemma booksOk_handleTimeout
    (hledger : TimerLedger (countedIn s.slots s.point) ((leavingAt s.point).map (·.id))
      (s.handleTimeout t).log)
    (hsize : s.size = (countedIn s.slots s.point).card)
    (hfirst : ∀ ⦃t target⦄, s.point = some (.erasing t target) →
      (s.slots (slotAt .wheel1 s.currentTick)).head? = some t)
    (hcall : s.point = none ∨ leavingAt s.point ≠ [])
    (hslots : ∀ ⦃k t⦄, t ∈ s.slots k → k.1 ≠ .wheel1 → InSpan s.now s.tickDuration t)
    (htemp : TempOk s.now s.tickDuration s.point) : BooksOk (s.handleTimeout t) := by
  rw [handleTimeout_eq]
  exact ⟨hledger, hsize, hfirst, fun _ => hcall, hslots, htemp⟩

lemma BooksOk.mayCall (h : BooksOk s) (hcan : s.canCall = true) :
    s.point = none ∨ leavingAt s.point ≠ [] := by
  simp only [canCall, Bool.or_eq_true, Option.isNone_iff_eq_none, Bool.not_eq_true',
    List.isEmpty_eq_false_iff] at hcan
  exact hcan.elim .inl h.calling

lemma rebase_eq_self (h : BooksOk s) (hleaving : leavingAt s.point ≠ []) : s.rebase = s :=
  if_neg (h.size_pos hleaving).ne'

lemma BooksOk.rebase (h : BooksOk s) (hcall : s.point = none ∨ leavingAt s.point ≠ []) :
    BooksOk s.rebase := by
  obtain hnone | hleaving := hcall
  · unfold ReentrantManager.rebase
    split
    · exact { h with first := fun t target hpoint => by cases hnone.symm.trans hpoint }
    · exact h
  · rwa [rebase_eq_self h hleaving]

lemma rebase_frame (s : ReentrantManager) : s.rebase.point = s.point ∧ s.rebase.log = s.log := by
  unfold ReentrantManager.rebase
  split <;> exact ⟨rfl, rfl⟩

/-- A sum that wraps around gives a delay of 0 ticks, and the timer goes into the first wheel. -/
lemma inSpan_of_wheelFor {X T : ℕ} {w : Wheel} (hX : X < 2 ^ 64) (hpos : 0 < T) (hT : T < 2 ^ 64)
    (hw : wheelFor ((X + T - 1) % 2 ^ 64 / T) = some w) (hne : w ≠ .wheel1) : X / T < 2 ^ 32 := by
  have hticks : 0 < (X + T - 1) % 2 ^ 64 / T :=
    lt_of_lt_of_le (Nat.two_pow_pos _) ((wheelFor_bounds hw).1 hne)
  have hrange : (X + T - 1) % 2 ^ 64 / T < 2 ^ 32 := by
    rw [← not_le, ← wheelFor_eq_none, hw]
    exact nofun
  have hle : T ≤ (X + T - 1) % 2 ^ 64 := (Nat.div_pos_iff.mp hticks).2
  have hnowrap : X + T - 1 < 2 ^ 64 := by omega
  rw [Nat.mod_eq_of_lt hnowrap] at hrange
  exact lt_of_le_of_lt (Nat.div_le_div_right (by omega)) hrange

lemma BooksOk.place {w : Wheel} {tick : ℕ} (h : BooksOk s)
    (hspan : w ≠ .wheel1 → InSpan s.now s.tickDuration t) (hpushed : .pushed t.id ∈ s.log)
    (haccepted : .accepted t.id ∉ s.log) :
    BooksOk { (s.place w tick t).record (.accepted t.id) with size := s.size + 1 } := by
  refine ⟨?_, ?_, ?_, h.calling, ?_, h.inTemp⟩
  · exact countedIn_pushBack ▸ h.ledger.accept hpushed haccepted
  · change s.size + 1 = (countedIn (Function.update _ _ _) s.point).card
    rw [countedIn_pushBack, Multiset.card_add, Multiset.card_singleton, h.size]
  · intro t' target hpoint
    have hfirst := h.first hpoint
    simp only [ReentrantManager.place, ReentrantManager.record, Function.update_apply]
    split
    · rename_i hslot
      rw [← hslot]
      simp [List.head?_append, hfirst]
    · exact hfirst
  · intro k' t' ht' hk'
    simp only [ReentrantManager.place, ReentrantManager.record, Function.update_apply] at ht'
    split at ht'
    · rename_i hslot
      subst hslot
      obtain ht' | ht' := List.mem_append.mp ht'
      · exact h.inSlots ht' hk'
      · rw [List.mem_singleton.mp ht']
        exact hspan hk'
    · exact h.inSlots ht' hk'

lemma BooksOk.pushTimer (h : BooksOk s) (hcall : s.point = none ∨ leavingAt s.point ≠ [])
    (hpushed : .pushed t.id ∈ s.log) (haccepted : .accepted t.id ∉ s.log)
    (hnot : t.id ∉ (leavingAt s.point).map (·.id)) : BooksOk (s.pushTimer t) := by
  have hbase := h.rebase hcall
  obtain ⟨hpoint, hlog⟩ := rebase_frame s
  unfold ReentrantManager.pushTimer
  generalize s.rebase = r at hbase hpoint hlog
  rw [← hlog] at hpushed haccepted
  rw [← hpoint] at hcall hnot
  dsimp only
  split_ifs with hexpired
  · -- the timer is accepted, handled and forgotten at once
    have hledger := (hbase.ledger.accept hpushed haccepted).handleTimeout
      (s := r.record (.accepted t.id)) (Multiset.mem_add.mpr (.inr (Multiset.mem_singleton_self _)))
      hnot
    exact booksOk_handleTimeout hledger.leave hbase.size hbase.first hcall hbase.inSlots hbase.inTemp
  · split
    · exact hbase
    · rename_i w hw
      refine hbase.place ?_ hpushed haccepted
      intro hne
      exact inSpan_of_wheelFor (lt_of_le_of_lt (Nat.sub_le _ _) t.expireTime_lt) r.tickDuration_pos
        r.tickDuration_lt hw hne

lemma getExpireTime_id : (s.getExpireTime t).id = t.id := by
  unfold ReentrantManager.getExpireTime
  split <;> rfl

lemma BooksOk.push (h : BooksOk s) (hcan : s.canCall = true) (elapsed : ℕ)
    {timer : Option IOTimer} (hnew : ∀ t ∈ timer, .pushed t.id ∉ s.log) :
    BooksOk (s.push elapsed timer) := by
  cases timer with
  | none => exact h
  | some t =>
    have hid := getExpireTime_id (s := s) (t := t)
    have hnot := hnew t rfl
    rw [← hid] at hnot
    unfold ReentrantManager.push
    dsimp only
    generalize s.getExpireTime t = t' at hnot
    have hbooks := (h.record (h.ledger.push hnot)).elapse elapsed
    refine hbooks.pushTimer (h.mayCall hcan) List.mem_cons_self ?_ ?_
    · have haccepted := (h.ledger.pushed t'.id).1
      rw [List.count_eq_zero_of_not_mem hnot, Nat.le_zero, List.count_eq_zero] at haccepted
      simpa [ReentrantManager.record] using haccepted
    · intro hmem
      obtain ⟨t₁, ht₁, heq⟩ := List.mem_map.mp hmem
      refine hnot (h.ledger.pushed_of_leaving ?_ hmem)
      rw [← heq]
      exact h.leaving_counted ht₁

lemma BooksOk.setPoint (h : BooksOk s) (point : Option TickPoint) (hcallbacks : s.callbacks = [])
    (hheld : heldAt point = heldAt s.point) (hleaving : leavingAt point = [])
    (hleaving' : leavingAt s.point = []) (htemp : TempOk s.now s.tickDuration point) :
    BooksOk { s with point := point } := by
  have hcounted : countedIn s.slots point = countedIn s.slots s.point := countedIn_congr hheld
  refine ⟨?_, ?_, ?_, fun hne => absurd hcallbacks hne, h.inSlots, htemp⟩
  · have hledger := h.ledger
    rw [hleaving'] at hledger
    simpa [hcounted, hleaving] using hledger
  · exact h.size.trans (congrArg Multiset.card hcounted.symm)
  · rintro t target rfl
    cases hleaving

lemma tempOk_afterCascade {now T target : ℕ} (w : Wheel) :
    TempOk now T (some (.afterCascade target w)) := by
  cases w <;> simp [TickPoint.afterCascade, TempOk]

lemma heldAt_afterCascade (target : ℕ) (w : Wheel) :
    heldAt (some (.afterCascade target w)) = [] ∧
      leavingAt (some (.afterCascade target w)) = [] := by
  cases w <;> exact ⟨rfl, rfl⟩

lemma BooksOk.cascadeWheel {w : Wheel} {target : ℕ} (h : BooksOk s) (hcallbacks : s.callbacks = [])
    (hpoint : s.point = some (.cascade w target)) : BooksOk (s.cascadeWheel w target) := by
  have hw : w ≠ .wheel1 := by simpa [hpoint, TempOk] using h.inTemp
  have hcounted : countedIn (Function.update s.slots (slotAt w s.currentTick) [])
      (some (.cascading w s.now (s.slots (slotAt w s.currentTick)) target)) =
        countedIn s.slots s.point := by
    simp only [countedIn, hpoint, heldAt, Buckets.total_clear, Multiset.coe_nil, add_zero]
  refine ⟨?_, ?_, nofun, fun hne => absurd hcallbacks hne, ?_, ?_⟩
  · have hledger := h.ledger
    simpa [ReentrantManager.cascadeWheel, hcounted, hpoint, leavingAt] using hledger
  · exact h.size.trans (congrArg Multiset.card hcounted.symm)
  · intro k t ht hk
    simp only [ReentrantManager.cascadeWheel, Function.update_apply] at ht
    split at ht
    · cases ht
    · exact h.inSlots ht hk
  · exact ⟨hw, le_rfl, fun t ht => h.inSlots ht hw⟩

lemma countedIn_cascading {w : Wheel} {nowNs target : ℕ} {temp : List IOTimer} :
    countedIn slots (some (.cascading w nowNs (t :: temp) target)) =
      countedIn slots (some (.cascading w nowNs temp target)) + {t.id} := by
  simp only [countedIn, heldAt, ← Multiset.cons_coe, ← Multiset.singleton_add, Multiset.map_add,
    Multiset.map_singleton]
  abel

lemma BooksOk.cascadeTimer {w : Wheel} {nowNs target : ℕ} {temp : List IOTimer} (h : BooksOk s)
    (hcallbacks : s.callbacks = [])
    (hpoint : s.point = some (.cascading w nowNs (t :: temp) target)) :
    BooksOk (s.cascadeTimer t w nowNs temp target) := by
  obtain ⟨hw, hnow, htemp⟩ : w ≠ .wheel1 ∧ nowNs ≤ s.now ∧
      ∀ t' ∈ t :: temp, InSpan nowNs s.tickDuration t' := by
    have htemp := h.inTemp
    rwa [hpoint] at htemp
  have hspan := htemp t List.mem_cons_self
  have hrest : TempOk s.now s.tickDuration (some (.cascading w nowNs temp target)) :=
    ⟨hw, hnow, fun t' ht' => htemp t' (List.mem_cons_of_mem _ ht')⟩
  have hledger : TimerLedger (countedIn s.slots (some (.cascading w nowNs temp target)) + {t.id}) []
      s.log := by
    have hledger := h.ledger
    rwa [hpoint, countedIn_cascading] at hledger
  have hsize : s.size = (countedIn s.slots (some (.cascading w nowNs temp target))).card + 1 := by
    rw [h.size, hpoint, countedIn_cascading, Multiset.card_add, Multiset.card_singleton]
  have hcalling : ∀ {p : Prop}, s.callbacks ≠ [] → p := fun hne => absurd hcallbacks hne
  have hexpired : BooksOk
      ((s.goTo (.forgetting t w nowNs temp target)).handleTimeout t) := by
    have hforget : countedIn s.slots (some (.forgetting t w nowNs temp target)) =
        countedIn s.slots (some (.cascading w nowNs temp target)) + {t.id} := countedIn_cascading
    refine booksOk_handleTimeout ?_ ?_ nofun (.inr (List.cons_ne_nil t [])) h.inSlots ?_
    · have hhandled := hledger.handleTimeout
        (s := s.goTo (.forgetting t w nowNs temp target)) (t := t) (by simp) nofun
      exact hforget ▸ hhandled
    · change s.size = (countedIn s.slots (some (.forgetting t w nowNs temp target))).card
      rw [hforget, hsize, Multiset.card_add, Multiset.card_singleton]
    · exact hrest
  unfold ReentrantManager.cascadeTimer
  dsimp only
  split_ifs with hflag hlate hzero
  · refine ⟨hledger.skip ?_, ?_, nofun, hcalling, h.inSlots, hrest⟩
    · simpa [flagged] using hflag
    · exact Nat.sub_eq_of_eq_add hsize
  · exact hexpired
  · exact hexpired
  · split
    · rename_i w' hw'
      refine ⟨?_, ?_, nofun, hcalling, ?_, hrest⟩
      · exact countedIn_pushBack ▸ hledger
      · change s.size = (countedIn (Function.update _ _ _) _).card
        rw [countedIn_pushBack, hsize, Multiset.card_add, Multiset.card_singleton]
        rfl
      · intro k t' ht' hk
        simp only [ReentrantManager.goTo, ReentrantManager.place, Function.update_apply] at ht'
        split at ht'
        · rename_i hslot
          subst hslot
          obtain ht' | ht' := List.mem_append.mp ht'
          · exact h.inSlots ht' hk
          · rw [List.mem_singleton.mp ht']
            exact hspan.later hnow
        · exact h.inSlots ht' hk
    · rename_i hnone
      exact absurd (wheelFor_eq_none.mp hnone) (not_le.mpr hspan)

lemma BooksOk.size_leave (h : BooksOk s) {rest : Multiset ℕ} {id : ℕ}
    (hcounted : countedIn s.slots s.point = rest + {id}) : s.size - 1 = rest.card := by
  refine Nat.sub_eq_of_eq_add ?_
  rw [h.size, hcounted, Multiset.card_add, Multiset.card_singleton]

lemma BooksOk.forget {w : Wheel} {nowNs target : ℕ} {temp : List IOTimer} (h : BooksOk s)
    (hcallbacks : s.callbacks = [])
    (hpoint : s.point = some (.forgetting t w nowNs temp target)) :
    BooksOk { s.goTo (.cascading w nowNs temp target) with size := s.size - 1 } := by
  have hcounted : countedIn s.slots s.point =
      countedIn s.slots (some (.cascading w nowNs temp target)) + {t.id} := by
    rw [hpoint]
    exact countedIn_cascading
  refine ⟨?_, ?_, nofun, fun hne => absurd hcallbacks hne, h.inSlots, ?_⟩
  · have hledger := h.ledger
    rw [hcounted, hpoint] at hledger
    exact hledger.leave
  · exact h.size_leave hcounted
  · have htemp := h.inTemp
    rwa [hpoint] at htemp

lemma BooksOk.erase {target : ℕ} (h : BooksOk s) (hcallbacks : s.callbacks = [])
    (hpoint : s.point = some (.erasing t target)) :
    BooksOk { s.goTo (.processing target) with
      slots := Function.update s.slots (slotAt .wheel1 s.currentTick)
        (s.slots (slotAt .wheel1 s.currentTick)).tail
      size := s.size - 1 } := by
  have hslot := List.head?_eq_some_iff.mp (h.first hpoint)
  obtain ⟨rest, hslot⟩ := hslot
  have htotal := Buckets.total_update s.slots (slotAt .wheel1 s.currentTick) rest
  have hcounted : countedIn s.slots s.point = countedIn (Function.update s.slots
      (slotAt .wheel1 s.currentTick) rest) (some (.processing target)) + {t.id} := by
    have htotal' : Buckets.total s.slots = Buckets.total (Function.update s.slots
        (slotAt .wheel1 s.currentTick) rest) + {t} := by
      rw [hslot, ← Multiset.cons_coe, ← Multiset.singleton_add, ← add_assoc] at htotal
      exact (add_right_cancel htotal).symm
    simp only [countedIn, hpoint, heldAt, htotal', Multiset.coe_nil, add_zero, Multiset.map_add,
      Multiset.map_singleton]
  rw [hslot, List.tail_cons]
  refine ⟨?_, ?_, nofun, fun hne => absurd hcallbacks hne, ?_, trivial⟩
  · have hledger := h.ledger
    rw [hcounted, hpoint] at hledger
    exact hledger.leave
  · exact h.size_leave hcounted
  · intro k t' ht' hk
    have hne : k ≠ slotAt .wheel1 s.currentTick := by
      rintro rfl
      exact hk rfl
    simp only [Function.update_of_ne hne] at ht'
    exact h.inSlots ht' hk

lemma BooksOk.process {target : ℕ} (h : BooksOk s) (hpoint : s.point = some (.processing target))
    {rest : List IOTimer} (hslot : s.slots (slotAt .wheel1 s.currentTick) = t :: rest) :
    BooksOk ((s.goTo (.erasing t target)).handleTimeout t) := by
  have hcounted : countedIn s.slots (some (.erasing t target)) = countedIn s.slots s.point := by
    rw [hpoint]
    rfl
  have hmem : t ∈ s.slots (slotAt .wheel1 s.currentTick) := by
    rw [hslot]
    exact List.mem_cons_self
  refine booksOk_handleTimeout ?_ ?_ ?_ (.inr (List.cons_ne_nil t [])) h.inSlots trivial
  · have hledger := h.ledger
    rw [hpoint] at hledger
    have hhandled := hledger.handleTimeout (s := s.goTo (.erasing t target)) (mem_countedIn hmem)
      nofun
    exact hhandled
  · exact h.size.trans (congrArg Multiset.card hcounted.symm)
  · rintro t' target' heq
    cases heq
    exact hslot ▸ rfl

lemma BooksOk.afterCascade {target : ℕ} (h : BooksOk s) (hcallbacks : s.callbacks = [])
    (hheld : heldAt s.point = []) (hleaving : leavingAt s.point = []) (w : Wheel) :
    BooksOk (s.goTo (.afterCascade target w)) := by
  obtain ⟨hheld', hleaving'⟩ := heldAt_afterCascade target w
  exact h.setPoint _ hcallbacks (hheld'.trans hheld.symm) hleaving' hleaving (tempOk_afterCascade w)

lemma BooksOk.advance {point : TickPoint} (h : BooksOk s) (hcallbacks : s.callbacks = [])
    (hpoint : s.point = some point) : BooksOk (s.advance point) := by
  cases point with
  | loop target =>
    simp only [ReentrantManager.advance]
    have hheld : heldAt s.point = [] := by rw [hpoint]; rfl
    have hleaving : leavingAt s.point = [] := by rw [hpoint]; rfl
    split_ifs
    · exact h.setPoint _ hcallbacks hheld.symm rfl hleaving (by simp [TempOk])
    · exact h.setPoint _ hcallbacks hheld.symm rfl hleaving trivial
    · exact h.setPoint _ hcallbacks hheld.symm rfl hleaving trivial
  | cascade w target =>
    simp only [ReentrantManager.advance]
    split_ifs
    · exact h.cascadeWheel hcallbacks hpoint
    · exact h.afterCascade hcallbacks (by rw [hpoint]; rfl) (by rw [hpoint]; rfl) w
  | cascading w nowNs temp target =>
    cases temp with
    | nil => exact h.afterCascade hcallbacks (by rw [hpoint]; rfl) (by rw [hpoint]; rfl) w
    | cons t temp => exact h.cascadeTimer hcallbacks hpoint
  | forgetting t w nowNs temp target => exact h.forget hcallbacks hpoint
  | processing target =>
    simp only [ReentrantManager.advance]
    split
    · have hloop := h.setPoint (some (.loop target)) hcallbacks (by rw [hpoint]; rfl) rfl
        (by rw [hpoint]; rfl) trivial
      exact { hloop with first := nofun }
    · exact h.process hpoint ‹_›
  | erasing t target => exact h.erase hcallbacks hpoint
  | resetting =>
    have hnone := h.setPoint none hcallbacks (by rw [hpoint]; rfl) rfl
      (by rw [hpoint]; rfl) trivial
    exact { hnone with first := nofun }

lemma BooksOk.tick (h : BooksOk s) (hidle : s.isIdle = true) : BooksOk s.tick := by
  simp only [isIdle, Bool.and_eq_true, Option.isNone_iff_eq_none, List.isEmpty_iff] at hidle
  unfold ReentrantManager.tick
  dsimp only
  split_ifs
  · exact h
  · exact h
  · exact h.setPoint _ hidle.2 (by rw [hidle.1]; rfl) rfl (by rw [hidle.1]; rfl) trivial

lemma BooksOk.step {a : ReentrantAction} (h : BooksOk s) (hs : s.step a = some s') :
    BooksOk s' := by
  cases a with
  | elapse time =>
    simp only [ReentrantManager.step, Option.some.injEq] at hs
    exact hs ▸ h.elapse time
  | push timer elapsed =>
    simp only [ReentrantManager.step, Option.ite_none_right_eq_some, Option.some.injEq,
      Bool.and_eq_true, Option.all_eq_true] at hs
    obtain ⟨⟨hcan, hnew⟩, rfl⟩ := hs
    exact h.push hcan elapsed fun t ht => by simpa using hnew t ht
  | cancel id =>
    simp only [ReentrantManager.step, Option.ite_none_right_eq_some, Option.some.injEq] at hs
    obtain ⟨-, rfl⟩ := hs
    exact h.record (h.ledger.cancelled id)
  | ret =>
    cases hcallbacks : s.callbacks with
    | nil => simp [ReentrantManager.step, hcallbacks] at hs
    | cons t rest =>
      simp only [ReentrantManager.step, hcallbacks, Option.some.injEq] at hs
      have hcalling := h.calling (hcallbacks ▸ List.cons_ne_nil t rest)
      subst hs
      exact { h with ledger := h.ledger.done t.id, calling := fun _ => hcalling }
  | tick =>
    simp only [ReentrantManager.step, Option.ite_none_right_eq_some, Option.some.injEq] at hs
    obtain ⟨hidle, rfl⟩ := hs
    exact h.tick hidle
  | go =>
    cases hpoint : s.point with
    | none => simp [ReentrantManager.step, hpoint] at hs
    | some point =>
      simp only [ReentrantManager.step, hpoint, Option.ite_none_right_eq_some, Option.some.injEq,
        List.isEmpty_iff] at hs
      obtain ⟨hcallbacks, rfl⟩ := hs
      exact h.advance hcallbacks hpoint

lemma booksOk_of_reaches {T now : ℕ} {hpos : 0 < T} {hlt : T < 2 ^ 64}
    (h : Reaches step (fun _ _ => True) (.new T hpos hlt now) s) : BooksOk s :=
  h.invariant (P := BooksOk) (booksOk_new T hpos hlt now) fun _ _ _ hs _ => hs.step

/-- Callbacks may push and cancel timers in the middle of `tick()` and `push`. Between operations
`m_size` is the number of timers in the slots and an accepted timer that is not there any more was
handled, or found done or cancelled. No timer is in two slots, and only an `AllowedEvent` happens at
any moment: a timer is not handled twice, no callback runs twice or after `cancel()`, and no timer
is dropped. -/
theorem timer_books_kept {T now : ℕ} {hpos : 0 < T} {hlt : T < 2 ^ 64}
    (h : Reaches step (fun _ _ => True) (.new T hpos hlt now) s) :
    (s.isIdle = true → s.size = s.stored.card ∧
      ∀ id, .accepted id ∈ s.log →
        id ∈ s.stored.map (·.id) ∨ .handled id ∈ s.log ∨ .skipped id ∈ s.log) ∧
    (s.stored.map (·.id)).Nodup ∧ HistoryOk s.log := by
  have hbooks := booksOk_of_reaches h
  refine ⟨?_, ?_, hbooks.ledger.history⟩
  · intro hidle
    simp only [isIdle, Bool.and_eq_true, Option.isNone_iff_eq_none, List.isEmpty_iff] at hidle
    have hcounted : countedIn s.slots s.point = s.stored.map (·.id) := by
      have hheld : heldAt s.point = [] := by rw [hidle.1]; rfl
      rw [countedIn, hheld, Multiset.coe_nil, add_zero, stored]
    refine ⟨by rw [hbooks.size, hcounted, Multiset.card_map], ?_⟩
    intro id hid
    have hbalance := hbooks.ledger.balance id
    have haccepted := List.count_pos_iff.mpr hid
    rw [hcounted] at hbalance
    rw [← Multiset.count_pos, ← List.count_pos_iff, ← List.count_pos_iff]
    omega
  · rw [Multiset.nodup_iff_count_le_one]
    intro id
    refine le_trans (Multiset.count_le_of_le id ?_) (hbooks.ledger.count_le id)
    exact Multiset.map_le_map (Multiset.le_add_right _ _)

def ioManager : ReentrantManager := .new 1 (by decide) (by decide) 1

/-- The callback of timer `0` pushes timer `2`, which goes into the slot that is being processed and
is handled there at once, and cancels timer `1`. -/
def reentrantRun : List ReentrantAction :=
  [.push (some ⟨⟨0, 1, 0⟩, .callback, by decide⟩) 0,
    .push (some ⟨⟨1, 300, 0⟩, .timeout, by decide⟩) 0, .elapse 2, .tick] ++
  List.replicate 12 .go ++
  [.push (some ⟨⟨2, 255, 0⟩, .timeout, by decide⟩) 0, .cancel 1, .ret] ++ List.replicate 11 .go

lemma reentrantRun_runs : (run step ioManager reentrantRun).isSome = true := by decide +kernel

def afterReentrantRun : ReentrantManager := (run step ioManager reentrantRun).get reentrantRun_runs

theorem reentrantRun_books_kept :
    afterReentrantRun.isIdle = true ∧ .ran 2 ∈ afterReentrantRun.log ∧
      afterReentrantRun.size = 1 ∧ afterReentrantRun.stored.card = 1 := by
  have hidle : afterReentrantRun.isIdle = true := by decide +kernel
  have hone : afterReentrantRun.size = 1 := by decide +kernel
  have h : Reaches step (fun _ _ => True) ioManager afterReentrantRun :=
    .of_replay reentrantRun .start (Option.some_get _).symm
  have hsize := ((timer_books_kept h).1 hidle).1
  exact ⟨hidle, by decide +kernel, hone, hsize.symm.trans hone⟩

end GalayKernel.Proofs
