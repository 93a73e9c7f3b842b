import GalayKernel.TaskThen
import GalayKernel.Lib.Transition

namespace GalayKernel

variable {σ τ : Type}

namespace TaskPlace

def state : TaskPlace σ τ → Option (ThenState σ τ)
  | .held st | .queued st | .running st | .suspended st => some st
  | .moved | .completed => none

def started : TaskPlace σ τ → Bool
  | .held _ | .moved => false
  | .queued _ | .running _ | .suspended _ | .completed => true

end TaskPlace

def ThenState.stages (st : ThenState σ τ) : List τ := st.thenTasks.map Prod.fst

/-- A task that belongs to a scheduler has only continuations that belong to one. -/
def BoundBelow : Option σ → List (τ × Option σ) → Prop
  | _, [] => True
  | own, (_, next) :: rest => (own.isSome → next.isSome) ∧ BoundBelow next rest

/-- Each stage is the task that was attached last to the one before it. -/
def Follows (attached : τ → List τ) : τ → List τ → Prop
  | t, [] => attached t = []
  | t, next :: rest => (attached t).getLast? = some next ∧ Follows attached next rest

lemma BoundBelow.bindThenTasks {own : Option σ} {l : List (τ × Option σ)} (h : BoundBelow own l)
    (scheduler : σ) : BoundBelow (some scheduler) (bindThenTasks scheduler l) := by
  fun_induction GalayKernel.bindThenTasks scheduler l generalizing own with
  | case1 t rest ih => exact ⟨fun _ => rfl, ih h.2⟩
  | case2 tasks hne =>
    rcases tasks with _ | ⟨⟨t, _ | next⟩, rest⟩
    · trivial
    · exact absurd rfl (hne t rest)
    · exact ⟨fun _ => rfl, h.2⟩

lemma map_fst_bindThenTasks (scheduler : σ) (l : List (τ × Option σ)) :
    (bindThenTasks scheduler l).map Prod.fst = l.map Prod.fst := by
  fun_induction bindThenTasks scheduler l with
  | case1 t rest ih => simp [ih]
  | case2 => rfl

lemma Follows.congr {attached attached' : τ → List τ} {t : τ} {l : List τ}
    (h : Follows attached t l) (ht : attached' t = attached t)
    (hl : ∀ a ∈ l, attached' a = attached a) : Follows attached' t l := by
  induction l generalizing t with
  | nil => exact ht.trans h
  | cons next rest ih =>
    exact ⟨ht ▸ h.1, ih h.2 (hl next List.mem_cons_self) fun a ha => hl a (.tail _ ha)⟩

namespace ThenState

variable (st next : ThenState σ τ)

lemma stages_attach (a : τ) :
    (st.attachTaskContinuation a next).stages = a :: next.stages := by
  have hstages : (next.inheritScheduler st).stages = next.stages := by
    unfold inheritScheduler
    split
    · exact map_fst_bindThenTasks _ _
    · rfl
  exact congrArg (a :: ·) hstages

lemma boundBelow_attach (a : τ) (h : BoundBelow next.scheduler next.thenTasks) :
    BoundBelow st.scheduler (st.attachTaskContinuation a next).thenTasks := by
  show (_ → _) ∧ BoundBelow _ _
  unfold inheritScheduler
  split
  · exact ⟨fun _ => rfl, h.bindThenTasks _⟩
  · next hne =>
    refine ⟨fun hs => ?_, h⟩
    obtain ⟨own, hown⟩ := Option.isSome_iff_exists.mp hs
    cases hn : next.scheduler with
    | none => exact absurd hown (hne own hn)
    | some _ => rfl

lemma bindTask_spec [DecidableEq σ] {st st' : ThenState σ τ} {scheduler : σ}
    (h : st.bindTask scheduler = some st') (hb : BoundBelow st.scheduler st.thenTasks) :
    st'.stages = st.stages ∧ st'.scheduler.isSome ∧ BoundBelow st'.scheduler st'.thenTasks := by
  unfold bindTask at h
  split at h
  · cases h
    exact ⟨map_fst_bindThenTasks _ _, rfl, hb.bindThenTasks _⟩
  · next own hown =>
    rw [Option.ite_none_right_eq_some] at h
    obtain ⟨-, h⟩ := h
    cases h
    exact ⟨rfl, hown ▸ rfl, hb⟩

end ThenState

end GalayKernel

namespace GalayKernel.Proofs

open Transition

variable {σ τ : Type} {s s' : TaskThen σ τ} {t a : τ}

def HangsOn (s : TaskThen σ τ) (a t : τ) : Prop := ∃ st, (s.place t).state = some st ∧ a ∈ st.stages

/-- The chains of tasks: a task hangs on one other task at most, and then it is nowhere else. -/
structure ChainsOk (s : TaskThen σ τ) : Prop where
  moved : ∀ a t, HangsOn s a t → (s.place a).state = none ∧ (s.place a).started = false
  unique : ∀ a t t', HangsOn s a t → HangsOn s a t' → t = t'
  nodup : ∀ t st, (s.place t).state = some st → st.stages.Nodup
  follows : ∀ t st, (s.place t).state = some st → Follows s.attached t st.stages
  bound : ∀ t st, (s.place t).state = some st → BoundBelow st.scheduler st.thenTasks
  belongs : ∀ t st, (s.place t).state = some st → (s.place t).started → st.scheduler.isSome

namespace ChainsOk

lemma init (belongs : τ → Option σ) : ChainsOk (TaskThen.init belongs) where
  moved a t := by
    rintro ⟨st, hst, ha⟩
    cases hst
    cases ha
  unique a t t' := by
    rintro ⟨st, hst, ha⟩
    cases hst
    cases ha
  nodup t st hst := by
    cases hst
    exact List.nodup_nil
  follows t st hst := by
    cases hst
    rfl
  bound t st hst := by
    cases hst
    trivial
  belongs _ _ _ hs := by cases hs

lemma not_hangsOn (h : ChainsOk s) {st : ThenState σ τ} (ht : (s.place t).state = some st) (x : τ) :
    ¬HangsOn s t x := by
  intro hx
  cases ht.symm.trans (h.moved t x hx).1

variable [DecidableEq τ]

lemma place_setPlace (s : TaskThen σ τ) (t : τ) (p : TaskPlace σ τ) (x : τ) :
    (s.setPlace t p).place x = if x = t then p else s.place x :=
  Function.update_apply s.place t p x

lemma hangsOn_release {p : TaskPlace σ τ} (hp : p.state = none) {b x : τ}
    (h : HangsOn (s.setPlace t p) b x) : x ≠ t ∧ HangsOn s b x := by
  obtain ⟨st, hx, hb⟩ := h
  rw [place_setPlace] at hx
  split at hx
  · cases hp.symm.trans hx
  · next hxt => exact ⟨hxt, st, hx, hb⟩

lemma release (h : ChainsOk s) {p : TaskPlace σ τ} {st : ThenState σ τ}
    (ht : (s.place t).state = some st) (hp : p.state = none) : ChainsOk (s.setPlace t p) := by
  have hplace := place_setPlace s t p
  have hstate : ∀ x stx, ((s.setPlace t p).place x).state = some stx →
      x ≠ t ∧ (s.place x).state = some stx := by
    intro x stx hx
    rw [hplace] at hx
    grind
  constructor
  · intro b x hb
    have hb := (hangsOn_release hp hb).2
    have hbt : b ≠ t := fun hbt => h.not_hangsOn ht x (hbt ▸ hb)
    rw [hplace, if_neg hbt]
    exact h.moved b x hb
  · intro b x x' hx hx'
    exact h.unique b x x' (hangsOn_release hp hx).2 (hangsOn_release hp hx').2
  · exact fun x stx hx => h.nodup x stx (hstate x stx hx).2
  · exact fun x stx hx => h.follows x stx (hstate x stx hx).2
  · exact fun x stx hx => h.bound x stx (hstate x stx hx).2
  · intro x stx hx hstart
    rw [hplace, if_neg (hstate x stx hx).1] at hstart
    exact h.belongs x stx (hstate x stx hx).2 hstart

lemma restate (h : ChainsOk s) {p : TaskPlace σ τ} {st : ThenState σ τ} {attached : τ → List τ}
    (hp : p.state = some st) (hattached : ∀ x, x ≠ t → attached x = s.attached x)
    (hfree : ∀ x, ¬HangsOn s t x)
    (hstages : ∀ b ∈ st.stages, b ≠ t ∧ (s.place b).state = none ∧ (s.place b).started = false ∧
      ∀ x, HangsOn s b x → x = t)
    (hnodup : st.stages.Nodup) (hfollows : Follows attached t st.stages)
    (hbound : BoundBelow st.scheduler st.thenTasks)
    (hbelongs : p.started → st.scheduler.isSome) :
    ChainsOk { s.setPlace t p with attached := attached } := by
  have hplace := place_setPlace s t p
  have hstate : ∀ x stx, ((s.setPlace t p).place x).state = some stx →
      (x = t ∧ stx = st) ∨ (x ≠ t ∧ (s.place x).state = some stx) := by
    intro x stx hx
    rw [hplace] at hx
    grind
  have hhangs : ∀ b x, HangsOn { s.setPlace t p with attached := attached } b x →
      (x = t ∧ b ∈ st.stages) ∨ (x ≠ t ∧ HangsOn s b x) := by
    rintro b x ⟨stx, hx, hb⟩
    obtain ⟨rfl, rfl⟩ | ⟨hxt, hx⟩ := hstate x stx hx
    · exact .inl ⟨rfl, hb⟩
    · exact .inr ⟨hxt, stx, hx, hb⟩
  constructor
  · intro b x hb
    show ((s.setPlace t p).place b).state = none ∧ ((s.setPlace t p).place b).started = false
    obtain ⟨-, hb⟩ | ⟨-, hb⟩ := hhangs b x hb
    · obtain ⟨hbt, hmoved, hstart, -⟩ := hstages b hb
      rw [hplace, if_neg hbt]
      exact ⟨hmoved, hstart⟩
    · have hbt : b ≠ t := fun hbt => hfree x (hbt ▸ hb)
      rw [hplace, if_neg hbt]
      exact h.moved b x hb
  · intro b x x' hx hx'
    have := h.unique b
    grind
  · intro x stx hx
    obtain ⟨-, rfl⟩ | ⟨-, hx⟩ := hstate x stx hx
    · exact hnodup
    · exact h.nodup x stx hx
  · intro x stx hx
    obtain ⟨rfl, rfl⟩ | ⟨hxt, hx⟩ := hstate x stx hx
    · exact hfollows
    · refine (h.follows x stx hx).congr (hattached x hxt) fun b hb => hattached b ?_
      exact fun hbt => hfree x (hbt ▸ ⟨stx, hx, hb⟩)
  · intro x stx hx
    obtain ⟨-, rfl⟩ | ⟨-, hx⟩ := hstate x stx hx
    · exact hbound
    · exact h.bound x stx hx
  · intro x stx hx hstart
    obtain ⟨rfl, rfl⟩ | ⟨hxt, hx⟩ := hstate x stx hx
    · exact hbelongs (by simpa [TaskThen.setPlace] using hstart)
    · exact h.belongs x stx hx (by simpa [TaskThen.setPlace, hxt] using hstart)

lemma requeue (h : ChainsOk s) {p : TaskPlace σ τ} {st st' : ThenState σ τ}
    (ht : (s.place t).state = some st) (hp : p.state = some st') (hstages : st'.stages = st.stages)
    (hbound : BoundBelow st'.scheduler st'.thenTasks)
    (hbelongs : p.started → st'.scheduler.isSome) : ChainsOk (s.setPlace t p) := by
  refine h.restate hp (fun _ _ => rfl) (h.not_hangsOn ht) ?_ (hstages ▸ h.nodup t st ht)
    (hstages ▸ h.follows t st ht) hbound hbelongs
  intro b hb
  have hangs : HangsOn s b t := ⟨st, ht, hstages ▸ hb⟩
  refine ⟨fun hbt => h.not_hangsOn ht t (hbt ▸ hangs), (h.moved b t hangs).1,
    (h.moved b t hangs).2, fun x hx => h.unique b x t hx hangs⟩

lemma attach (h : ChainsOk s) {st sa : ThenState σ τ} (ht : s.place t = .held st)
    (ha : s.place a = .held sa) (hne : t ≠ a) :
    ChainsOk { (s.setPlace a .moved).setPlace t (.held (st.attachTaskContinuation a sa)) with
      attached := Function.update s.attached t (s.attached t ++ [a]) } := by
  have hst : (s.place t).state = some st := by rw [ht]; rfl
  have hsa : (s.place a).state = some sa := by rw [ha]; rfl
  have hhangs : ∀ b x, HangsOn (s.setPlace a .moved) b x → x ≠ a ∧ HangsOn s b x :=
    fun _ _ => hangsOn_release rfl
  refine (h.release hsa rfl).restate rfl (fun x hx => by simp [TaskThen.setPlace, hx])
    (fun x hx => h.not_hangsOn hst x (hhangs t x hx).2) ?_ ?_ ?_
    (ThenState.boundBelow_attach st sa a (h.bound a sa hsa)) nofun
  · intro b hb
    rw [ThenState.stages_attach, List.mem_cons] at hb
    rcases hb with rfl | hb
    · refine ⟨hne.symm, ?_, ?_, fun x hx => absurd (hhangs b x hx).2 (h.not_hangsOn hsa x)⟩
      · simp [TaskThen.setPlace, TaskPlace.state]
      · simp [TaskThen.setPlace, TaskPlace.started]
    · have hangs : HangsOn s b a := ⟨sa, hsa, hb⟩
      have hba : b ≠ a := fun hba => h.not_hangsOn hsa a (hba ▸ hangs)
      have hmoved := h.moved b a hangs
      refine ⟨fun hbt => h.not_hangsOn hst a (hbt ▸ hangs), ?_, ?_, fun x hx => ?_⟩
      · simpa [TaskThen.setPlace, hba] using hmoved.1
      · simpa [TaskThen.setPlace, hba] using hmoved.2
      · exact absurd (h.unique b x a (hhangs b x hx).2 hangs) (hhangs b x hx).1
  · rw [ThenState.stages_attach, List.nodup_cons]
    exact ⟨fun hmem => h.not_hangsOn hsa a ⟨sa, hsa, hmem⟩, h.nodup a sa hsa⟩
  · rw [ThenState.stages_attach]
    refine ⟨by simp, (h.follows a sa hsa).congr (Function.update_of_ne hne.symm _ _) ?_⟩
    intro b hb
    refine Function.update_of_ne (fun hbt => ?_) _ _
    exact h.not_hangsOn hst a (hbt ▸ ⟨sa, hsa, hb⟩)

lemma handOver (h : ChainsOk s) {st : ThenState σ τ} {scheduler : σ} {rest : List (τ × Option σ)}
    (ht : (s.place t).state = some st) (hthen : st.thenTasks = (a, some scheduler) :: rest) :
    ChainsOk ((s.setPlace t .completed).setPlace a (.queued ⟨some scheduler, rest⟩)) := by
  have hstages : st.stages = a :: rest.map Prod.fst := by simp [ThenState.stages, hthen]
  have hnodup := h.nodup t st ht
  have hfollows := h.follows t st ht
  have hbound := h.bound t st ht
  rw [hstages] at hnodup hfollows
  rw [hthen] at hbound
  -- what hung on the completed task hangs nowhere now
  have hloose : ∀ b ∈ st.stages, ∀ x, ¬HangsOn (s.setPlace t .completed) b x := by
    intro b hb x hx
    obtain ⟨hxt, hx⟩ := hangsOn_release rfl hx
    exact hxt (h.unique b x t hx ⟨st, ht, hb⟩)
  refine (h.release ht rfl).restate rfl (fun _ _ => rfl) ?_ ?_ (List.nodup_cons.mp hnodup).2
    hfollows.2 hbound.2 fun _ => rfl
  · exact hloose a (hstages ▸ List.mem_cons_self)
  · intro b hb
    have hmem : b ∈ st.stages := hstages ▸ List.mem_cons_of_mem a hb
    have hangs : HangsOn s b t := ⟨st, ht, hmem⟩
    have hbt : b ≠ t := fun hbt => h.not_hangsOn ht t (hbt ▸ hangs)
    have hmoved := h.moved b t hangs
    refine ⟨fun hba => (List.nodup_cons.mp hnodup).1 (hba ▸ hb), ?_, ?_,
      fun x hx => absurd hx (hloose b hmem x)⟩
    · simpa [TaskThen.setPlace, hbt] using hmoved.1
    · simpa [TaskThen.setPlace, hbt] using hmoved.2

end ChainsOk

/-- What a completed task has left in the log: its completion, and then its continuation. -/
def Handed (s : TaskThen σ τ) (t : τ) : Prop :=
  (.completed t :: (s.attached t).getLast?.toList.map .scheduled).Sublist s.log

/-- The log of a run. -/
structure ThenOk [DecidableEq τ] (s : TaskThen σ τ) : Prop where
  chains : ChainsOk s
  once : ∀ t, s.log.count (.scheduled t) = if (s.place t).started then 1 else 0
  handed : ∀ t, (s.place t).state = none → (s.place t).started → Handed s t

namespace ThenOk

variable [DecidableEq τ]

lemma init (belongs : τ → Option σ) : ThenOk (TaskThen.init belongs) where
  chains := .init belongs
  once _ := rfl
  handed _ hst := by cases hst

lemma extend (h : ThenOk s) (hchains : ChainsOk s') {events : List (ThenEvent τ)}
    (hlog : s'.log = s.log ++ events) (hattached : s'.attached = s.attached)
    (honce : ∀ x, (if (s.place x).started then 1 else 0) + events.count (.scheduled x) =
      if (s'.place x).started then 1 else 0)
    (hhanded : ∀ x, (s'.place x).state = none → (s'.place x).started →
      s'.place x = s.place x ∨ Handed s' x) : ThenOk s' := by
  refine ⟨hchains, fun x => ?_, fun x hx hs => ?_⟩
  · rw [hlog, List.count_append, h.once x]
    exact honce x
  · obtain hsame | hdone := hhanded x hx hs
    · rw [hsame] at hx hs
      unfold Handed
      rw [hlog, hattached]
      exact (h.handed x hx hs).trans (List.sublist_append_left _ _)
    · exact hdone

lemma requeue (h : ThenOk s) {p : TaskPlace σ τ} {st : ThenState σ τ}
    (ht : (s.place t).state = some st) (hp : p.state = some st)
    (hstarted : p.started = (s.place t).started) : ThenOk (s.setPlace t p) := by
  have hchains := h.chains.requeue ht hp rfl (h.chains.bound t st ht)
    fun hs => h.chains.belongs t st ht (hstarted ▸ hs)
  refine h.extend hchains (List.append_nil _).symm rfl (fun x => ?_) fun x hx _ => ?_
  · by_cases hx : x = t
    · simp [TaskThen.setPlace, hx, hstarted]
    · simp [TaskThen.setPlace, hx]
  · rw [ChainsOk.place_setPlace] at hx ⊢
    split at hx
    · cases hp.symm.trans hx
    · next hxt => exact .inl (if_neg hxt)

lemma attach (h : ThenOk s) {st sa : ThenState σ τ} (ht : s.place t = .held st)
    (ha : s.place a = .held sa) (hne : t ≠ a) :
    ThenOk { (s.setPlace a .moved).setPlace t (.held (st.attachTaskContinuation a sa)) with
      attached := Function.update s.attached t (s.attached t ++ [a]) } := by
  refine ⟨h.chains.attach ht ha hne, ?_, ?_⟩
  · intro x
    show s.log.count _ = _
    rw [h.once x]
    by_cases hxt : x = t
    · simp [TaskThen.setPlace, hxt, ht, TaskPlace.started]
    · by_cases hxa : x = a
      · simp [TaskThen.setPlace, hxa, hne.symm, ha, TaskPlace.started]
      · simp [TaskThen.setPlace, hxt, hxa]
  · intro x hx hs
    by_cases hxt : x = t
    · simp [TaskThen.setPlace, hxt, TaskPlace.state] at hx
    · by_cases hxa : x = a
      · simp [TaskThen.setPlace, hxa, hne.symm, TaskPlace.started] at hs
      · have hx : (s.place x).state = none := by simpa [TaskThen.setPlace, hxt, hxa] using hx
        have hs : (s.place x).started := by simpa [TaskThen.setPlace, hxt, hxa] using hs
        simpa [Handed, TaskThen.setPlace, hxt] using h.handed x hx hs

lemma schedule (h : ThenOk s) {st st' : ThenState σ τ} (ht : s.place t = .held st)
    (hstages : st'.stages = st.stages) (hown : st'.scheduler.isSome)
    (hbound : BoundBelow st'.scheduler st'.thenTasks) :
    ThenOk { s.setPlace t (.queued st') with log := s.log ++ [.scheduled t] } := by
  have hst : (s.place t).state = some st := by rw [ht]; rfl
  have hchains := h.chains.requeue (p := .queued st') hst rfl hstages hbound fun _ => hown
  refine h.extend { hchains with } rfl rfl (fun x => ?_) fun x hx _ => ?_
  · by_cases hx : x = t
    · simp [TaskThen.setPlace, hx, ht, TaskPlace.started]
    · simp [TaskThen.setPlace, hx, Ne.symm hx]
  · by_cases hxt : x = t
    · simp [TaskThen.setPlace, hxt, TaskPlace.state] at hx
    · exact .inl (Function.update_of_ne hxt _ _)

lemma complete (h : ThenOk s) {st : ThenState σ τ} (ht : s.place t = .running st)
    (hnil : st.thenTasks = []) :
    ThenOk { s.setPlace t .completed with log := s.log ++ [.completed t] } := by
  have hst : (s.place t).state = some st := by rw [ht]; rfl
  have hchains := h.chains.release (p := .completed) hst rfl
  refine h.extend { hchains with } rfl rfl (fun x => ?_) fun x _ _ => ?_
  · by_cases hx : x = t
    · simp [TaskThen.setPlace, hx, ht, TaskPlace.started]
    · simp [TaskThen.setPlace, hx]
  · by_cases hxt : x = t
    · have hfollows : s.attached t = [] := by
        simpa [ThenState.stages, hnil, Follows] using h.chains.follows t st hst
      exact .inr (by simp [Handed, TaskThen.setPlace, hxt, hfollows])
    · exact .inl (Function.update_of_ne hxt _ _)

lemma handOver (h : ThenOk s) {st : ThenState σ τ} {scheduler : σ} {rest : List (τ × Option σ)}
    (ht : s.place t = .running st) (hthen : st.thenTasks = (a, some scheduler) :: rest) :
    ThenOk { (s.setPlace t .completed).setPlace a (.queued ⟨some scheduler, rest⟩) with
      log := s.log ++ [.completed t] ++ [.scheduled a] } := by
  have hst : (s.place t).state = some st := by rw [ht]; rfl
  have hmem : a ∈ st.stages := by simp [ThenState.stages, hthen]
  have hmoved := h.chains.moved a t ⟨st, hst, hmem⟩
  have hat : a ≠ t := by
    rintro rfl
    exact h.chains.not_hangsOn hst a ⟨st, hst, hmem⟩
  have hchains := h.chains.handOver hst hthen
  refine h.extend { hchains with } (List.append_assoc ..) rfl (fun x => ?_) fun x hx _ => ?_
  · by_cases hxa : x = a
    · rw [hxa, hmoved.2]
      simp [TaskThen.setPlace, TaskPlace.started]
    · by_cases hxt : x = t
      · simp [TaskThen.setPlace, hxt, hat, hat.symm, ht, TaskPlace.started]
      · simp [TaskThen.setPlace, hxa, Ne.symm hxa, hxt]
  · by_cases hxa : x = a
    · simp [TaskThen.setPlace, hxa, TaskPlace.state] at hx
    · by_cases hxt : x = t
      · have hlast : (s.attached t).getLast? = some a := by
          have hfollows := h.chains.follows t st hst
          rw [ThenState.stages, hthen] at hfollows
          exact hfollows.1
        exact .inr (by simp [Handed, TaskThen.setPlace, hxt, hlast])
      · exact .inl ((Function.update_of_ne hxa _ _).trans (Function.update_of_ne hxt _ _))

lemma step [DecidableEq σ] {act : ThenAction σ τ} (h : ThenOk s) (hs : s.step act = some s') :
    ThenOk s' := by
  cases act with
  | attach t a =>
    simp only [TaskThen.step] at hs
    split at hs
    · next st sa ht ha =>
      rw [Option.ite_none_left_eq_some] at hs
      obtain ⟨hne, hs⟩ := hs
      cases hs
      exact h.attach ht ha hne
    · cases hs
  | schedule scheduler t =>
    simp only [TaskThen.step, TaskThen.schedule] at hs
    split at hs
    · next st ht =>
      split at hs
      · next st' hbind =>
        cases hs
        have hst : (s.place t).state = some st := by rw [ht]; rfl
        obtain ⟨hstages, hown, hbound⟩ := ThenState.bindTask_spec hbind (h.chains.bound t st hst)
        exact h.schedule ht hstages hown hbound
      · cases hs
    · cases hs
  | resume t | suspend t | wake t =>
    simp only [TaskThen.step] at hs
    split at hs
    · next st ht =>
      cases hs
      have hst : (s.place t).state = some st := by rw [ht]; rfl
      exact h.requeue hst rfl (by rw [ht]; rfl)
    · cases hs
  | finish t =>
    simp only [TaskThen.step] at hs
    split at hs
    · next st ht =>
      have hst : (s.place t).state = some st := by rw [ht]; rfl
      unfold TaskThen.completeTaskState at hs
      split at hs
      · next hnil =>
        cases hs
        exact h.complete ht hnil
      · next a scheduler rest hthen =>
        simp only [TaskThen.schedule, ThenState.bindTask, if_pos] at hs
        cases hs
        exact h.handOver ht hthen
      · next a rest hthen =>
        have hbound := h.chains.bound t st hst
        rw [hthen] at hbound
        cases hbound.1 (h.chains.belongs t st hst (by rw [ht]; rfl))
    · cases hs

end ThenOk

variable [DecidableEq τ]

def Idle (s : TaskThen σ τ) : Prop := ∀ t, (s.place t).started → (s.place t).state = none

/-- Every task attached to `t` was scheduled exactly once. The log has the completion of `t` first
and the stages behind it, in the order in which they were attached. -/
def StagesRun (s : TaskThen σ τ) (t : τ) : Prop :=
  (∀ a ∈ s.attached t, s.log.count (.scheduled a) = 1) ∧
    (.completed t :: (s.attached t).map .scheduled).Sublist s.log

/-- `then` is called only on a task whose `m_then` is empty. -/
def AttachesToEmpty (s : TaskThen σ τ) : ThenAction σ τ → Prop
  | .attach t _ => ∀ st, (s.place t).state = some st → st.thenTasks = []
  | _ => True

lemma attached_step [DecidableEq σ] {act : ThenAction σ τ} (hs : s.step act = some s') :
    s'.attached = s.attached ∨ ∃ t a st, act = .attach t a ∧ (s.place t).state = some st ∧
      s'.attached = Function.update s.attached t (s.attached t ++ [a]) := by
  cases act with
  | attach t a =>
    simp only [TaskThen.step] at hs
    split at hs
    · next st sa ht ha =>
      rw [Option.ite_none_left_eq_some] at hs
      obtain ⟨-, hs⟩ := hs
      cases hs
      exact .inr ⟨t, a, st, rfl, by rw [ht]; rfl, rfl⟩
    · cases hs
  | schedule scheduler t | resume t | suspend t | wake t | finish t =>
    simp only [TaskThen.step, TaskThen.completeTaskState, TaskThen.schedule] at hs
    left
    grind [TaskThen.setPlace]

lemma single_step [DecidableEq σ] {act : ThenAction σ τ} (hok : ThenOk s)
    (h : ∀ t, (s.attached t).length ≤ 1) (hact : AttachesToEmpty s act)
    (hs : s.step act = some s') (x : τ) : (s'.attached x).length ≤ 1 := by
  obtain hsame | ⟨t, a, st, rfl, hst, hattached⟩ := attached_step hs
  · exact hsame ▸ h x
  · have hnil : s.attached t = [] := by
      have hfollows := hok.chains.follows t st hst
      rwa [ThenState.stages, hact st hst] at hfollows
    rw [hattached]
    by_cases hx : x = t
    · simp [hx, hnil]
    · simpa [hx] using h x

/-- When every task is given at most one continuation, all stages run. -/
theorem then_runs_every_stage [DecidableEq σ] {belongs : τ → Option σ} {s : TaskThen σ τ}
    (h : Reaches TaskThen.step AttachesToEmpty (.init belongs) s) {t : τ}
    (ht : s.place t = .completed) : StagesRun s t := by
  obtain ⟨hok, hsingle⟩ := h.invariant (P := fun s => ThenOk s ∧ ∀ t, (s.attached t).length ≤ 1)
    ⟨.init belongs, fun _ => Nat.zero_le 1⟩
    fun _ _ _ hP hact hs => ⟨hP.1.step hs, single_step hP.1 hP.2 hact hs⟩
  have hhanded : Handed s t := hok.handed t (by rw [ht]; rfl) (by rw [ht]; rfl)
  have hlast : (s.attached t).getLast?.toList = s.attached t := by
    rcases hl : s.attached t with _ | ⟨a, _ | ⟨b, rest⟩⟩
    · rfl
    · rfl
    · have hlength := hsingle t
      simp [hl] at hlength
  rw [Handed, hlast] at hhanded
  refine ⟨fun a ha => ?_, hhanded⟩
  have hmem : .scheduled a ∈ s.log :=
    hhanded.subset (List.mem_cons_of_mem _ (List.mem_map_of_mem ha))
  have honce := hok.once a
  have hpos := List.count_pos_iff.mpr hmem
  split at honce
  · exact honce
  · omega

/-- A root task with a continuation that has a continuation of its own. -/
def chainOfThree : List (ThenAction Bool (Fin 3)) :=
  [.attach 1 2, .attach 0 1, .schedule true 0, .resume 0, .suspend 0, .wake 0, .resume 0, .finish 0,
    .resume 1, .finish 1, .resume 2, .finish 2]

def attachesToEmptyCheck (s : TaskThen Bool (Fin 3)) : ThenAction Bool (Fin 3) → Bool
  | .attach t _ => (s.place t).state.all (·.thenTasks = [])
  | _ => true

lemma attachesToEmpty_of_check (s : TaskThen Bool (Fin 3)) (a : ThenAction Bool (Fin 3))
    (h : attachesToEmptyCheck s a = true) : AttachesToEmpty s a := by
  cases a with
  | attach t a =>
    intro st hst
    simpa [attachesToEmptyCheck, hst] using h
  | schedule | resume | suspend | wake | finish => trivial

theorem chainOfThree_runs_every_stage :
    ∃ s, run TaskThen.step (.init fun _ => none) chainOfThree = some s ∧
      s.attached 0 = [1] ∧ s.attached 1 = [2] ∧ StagesRun s 0 ∧ StagesRun s 1 := by
  have hreach : ∀ s, run (guarded attachesToEmptyCheck TaskThen.step) (.init fun _ => none)
      chainOfThree = some s → Reaches TaskThen.step AttachesToEmpty (.init fun _ => none) s :=
    fun _ => Reaches.start.of_run attachesToEmptyCheck attachesToEmpty_of_check chainOfThree
  refine ⟨_, rfl, rfl, rfl, ?_, ?_⟩
  · exact then_runs_every_stage (hreach _ rfl) rfl
  · exact then_runs_every_stage (hreach _ rfl) rfl

/-- `t.then(a).then(b)`: the second call overwrites what the first has stored. -/
def thenTwice : List (ThenAction Bool (Fin 3)) :=
  [.attach 0 1, .attach 0 2, .schedule true 0, .resume 0, .finish 0, .resume 2, .finish 2]

theorem then_can_drop_stage :
    ¬∀ (belongs : Fin 3 → Option Bool) (s : TaskThen Bool (Fin 3)),
      Reaches TaskThen.step (fun _ _ => True) (.init belongs) s → Idle s →
        ∀ t, s.place t = .completed → StagesRun s t := by
  intro h
  have hrun := h (fun _ => none) _ (Reaches.start.of_replay thenTwice rfl)
    (by unfold Idle; decide) 0 rfl
  have hlost := hrun.1 1 (by decide)
  exact absurd hlost (by decide)

end GalayKernel.Proofs
