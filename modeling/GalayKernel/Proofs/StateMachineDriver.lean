import GalayKernel.StateMachineDriver
import GalayKernel.Proofs.StateMachine

/-!
# The protocol of the driver

Five places call the machine back: the zero-length shortcuts of `pump`, the loop of
`prepareForSubmit`, `onActiveEvent`, `deliverConnect` and `markTimeout`. Each of them finds the
answer to the last wait outstanding, and leaves it answered. `Answering` is the state in between:
the task has been cleared and the machine has not been told yet.
-/

namespace GalayKernel.Proofs

open StateMachineDriver

variable {σ ρ : Type*} {M : StateMachine σ ρ} {d d' : StateMachineDriver σ ρ}

section Protocol

variable {log : List (DriverEvent ρ)} {event : DriverEvent ρ}

def isMachineCall : DriverEvent ρ → Bool
  | .advance _ | .onRead _ | .onWrite _ | .onConnect _ => true
  | .storeResult _ | .storeError _ => false

def waitsFor : DriverEvent ρ → Option IORequest
  | .advance (.wait request) => some request
  | _ => none

/-- The wait that the last call on the machine returned, if the last call was an `advance` that
returned one: no `advance` and no callback has come after it. -/
def outstanding (log : List (DriverEvent ρ)) : Option IORequest :=
  log.foldl (fun last event => if isMachineCall event then waitsFor event else last) none

def StoredIn (log : List (DriverEvent ρ)) : Prop := ∃ event ∈ log, isMachineCall event = false

/-- When an event may follow a history: a callback answers the outstanding wait, which has its
kind; `advance` is called while nothing is outstanding or stored; a result is the first outcome. -/
def Allowed (log : List (DriverEvent ρ)) : DriverEvent ρ → Prop
  | .advance _ => outstanding log = none ∧ ¬StoredIn log
  | .onRead _ => ∃ request, outstanding log = some request ∧
      (request.kind = .kRead ∨ request.kind = .kReadv)
  | .onWrite _ => ∃ request, outstanding log = some request ∧
      (request.kind = .kWrite ∨ request.kind = .kWritev)
  | .onConnect _ => ∃ request, outstanding log = some request ∧ request.kind = .kConnect
  | .storeResult _ => ¬StoredIn log
  | .storeError _ => True

def KeepsProtocol (log : List (DriverEvent ρ)) : Prop :=
  ∀ before event after, log = before ++ event :: after → Allowed before event

lemma keepsProtocol_nil : KeepsProtocol ([] : List (DriverEvent ρ)) := by
  intro before event after h
  exact absurd h.symm (List.append_ne_nil_of_right_ne_nil before (List.cons_ne_nil _ _))

lemma KeepsProtocol.append (h : KeepsProtocol log) (hevent : Allowed log event) :
    KeepsProtocol (log ++ [event]) := by
  intro before event' after heq
  rcases List.eq_nil_or_concat after with rfl | ⟨init, last, rfl⟩
  · obtain ⟨rfl, hlast⟩ := List.append_inj' heq rfl
    cases hlast
    exact hevent
  · rw [List.concat_eq_append, ← List.cons_append, ← List.append_assoc] at heq
    exact h before event' init (List.append_inj' heq rfl).1

lemma outstanding_append (log : List (DriverEvent ρ)) (event : DriverEvent ρ) :
    outstanding (log ++ [event]) =
      if isMachineCall event then waitsFor event else outstanding log := by
  rw [outstanding, List.foldl_append]
  rfl

lemma storedIn_append (log : List (DriverEvent ρ)) (event : DriverEvent ρ) :
    StoredIn (log ++ [event]) ↔ StoredIn log ∨ isMachineCall event = false := by
  simp [StoredIn, or_and_right, exists_or]

end Protocol

structure DriverOk (d : StateMachineDriver σ ρ) : Prop where
  protocol : KeepsProtocol d.log
  hasTask : d.hasActiveTask = d.activeTask.isSome
  kind : d.activeKind = d.activeTask.map IORequest.kind
  resultSet : d.resultSet = d.result.isSome
  stored : StoredIn d.log ↔ d.awaitReady = true
  /-- the active task is the outstanding wait -/
  waits : ∀ request, d.activeTask = some request → outstanding d.log = some request
  /-- a wait that is neither active nor answered was turned down -/
  free : d.awaitReady = false → d.activeTask = none → outstanding d.log = none

/-- The wait `request` is outstanding, and no task is active for it. -/
structure Answering (d : StateMachineDriver σ ρ) (request : IORequest) : Prop where
  protocol : KeepsProtocol d.log
  hasTask : d.hasActiveTask = false
  kind : d.activeKind = none
  task : d.activeTask = none
  resultSet : d.resultSet = d.result.isSome
  stored : StoredIn d.log ↔ d.awaitReady = true
  waits : outstanding d.log = some request

lemma driverOk_new (m : σ) : DriverOk (.new m : StateMachineDriver σ ρ) where
  protocol := keepsProtocol_nil
  hasTask := rfl
  kind := rfl
  resultSet := rfl
  stored := ⟨fun ⟨_, hmem, _⟩ => absurd hmem List.not_mem_nil, nofun⟩
  waits := nofun
  free _ _ := rfl

lemma DriverOk.hasActiveTask_iff (h : DriverOk d) :
    d.hasActiveTask = true ↔ d.activeKind ≠ none := by
  rw [h.hasTask, h.kind]
  cases d.activeTask <;> simp

lemma DriverOk.task_of_hasActiveTask (h : DriverOk d) (htask : d.hasActiveTask = true) :
    ∃ request, d.activeTask = some request ∧ d.activeKind = some request.kind := by
  rw [h.hasTask] at htask
  obtain ⟨request, hrequest⟩ := Option.isSome_iff_exists.mp htask
  refine ⟨request, hrequest, ?_⟩
  rw [h.kind, hrequest]
  rfl

lemma DriverOk.clearActiveTask (h : DriverOk d) {request : IORequest}
    (htask : d.activeTask = some request) : Answering d.clearActiveTask request :=
  ⟨h.protocol, rfl, rfl, rfl, h.resultSet, h.stored, h.waits request htask⟩

lemma driverOk_storeError (hprotocol : KeepsProtocol d.log) (error : IOError)
    (hhas : d.hasActiveTask = d.activeTask.isSome)
    (hkind : d.activeKind = d.activeTask.map IORequest.kind) (hset : d.resultSet = d.result.isSome)
    (hwaits : ∀ request, d.activeTask = some request → outstanding d.log = some request) :
    DriverOk (d.storeError error) where
  protocol := hprotocol.append trivial
  hasTask := hhas
  kind := hkind
  resultSet := hset
  stored := by
    simp [storeError, storedIn_append, isMachineCall, awaitReady]
  waits request htask := by
    rw [storeError, outstanding_append]
    exact hwaits request htask
  free hready := by simp [storeError, awaitReady] at hready

lemma DriverOk.storeError (h : DriverOk d) (error : IOError) : DriverOk (d.storeError error) :=
  driverOk_storeError h.protocol error h.hasTask h.kind h.resultSet h.waits

lemma Answering.storeError {request : IORequest} (h : Answering d request) (error : IOError) :
    DriverOk (d.storeError error) := by
  refine driverOk_storeError h.protocol error ?_ ?_ h.resultSet ?_
  · rw [h.hasTask, h.task]
    rfl
  · rw [h.kind, h.task]
    rfl
  · rw [h.task]
    exact nofun

lemma DriverOk.clear (h : DriverOk d) (hready : d.awaitReady = true) : DriverOk d.clearActiveTask :=
  ⟨h.protocol, rfl, rfl, h.resultSet, h.stored, nofun,
    fun hfree => absurd (hready.symm.trans hfree) nofun⟩

lemma awaitReady_storeError (d : StateMachineDriver σ ρ) (error : IOError) :
    (d.storeError error).awaitReady = true :=
  Bool.or_true _

lemma Answering.called {request : IORequest} (h : Answering d request) (event : DriverEvent ρ)
    (hallowed : Allowed d.log event) (hcall : isMachineCall event = true)
    (hwait : waitsFor event = none) (m : σ) :
    DriverOk { d with machine := m, log := d.log ++ [event] } where
  protocol := h.protocol.append hallowed
  hasTask := by rw [h.hasTask, h.task]; rfl
  kind := by rw [h.kind, h.task]; rfl
  resultSet := h.resultSet
  stored := by
    rw [storedIn_append, hcall, or_iff_left Bool.true_eq_false.mp]
    exact h.stored
  waits request htask := by
    rw [h.task] at htask
    cases htask
  free _ _ := by rw [outstanding_append, if_pos hcall, hwait]

lemma Answering.answer {request : IORequest} (h : Answering d request) (outcome : IOOutcome) :
    DriverOk (d.answer M request.kind outcome) := by
  cases hkind : request.kind with
  | kRead => exact h.called (.onRead outcome) ⟨request, h.waits, .inl hkind⟩ rfl rfl _
  | kReadv => exact h.called (.onRead outcome) ⟨request, h.waits, .inr hkind⟩ rfl rfl _
  | kWrite => exact h.called (.onWrite outcome) ⟨request, h.waits, .inl hkind⟩ rfl rfl _
  | kWritev => exact h.called (.onWrite outcome) ⟨request, h.waits, .inr hkind⟩ rfl rfl _
  | kConnect =>
    unfold StateMachineDriver.answer deliverConnect
    dsimp only
    split
    · exact h.called (.onConnect _) ⟨request, h.waits, hkind⟩ rfl rfl _
    · split <;> exact h.storeError _

def Reports : SequenceProgress × StateMachineDriver σ ρ → Prop
  | (.kCompleted, d) => d.awaitReady = true
  | (.kNeedWait, d) => d.hasActiveTask = true

def ReturnOk (out : SequenceProgress × StateMachineDriver σ ρ) : Prop :=
  DriverOk out.2 ∧ Reports out

lemma Answering.setActiveTask {request : IORequest} (h : Answering d request) :
    DriverOk (d.setActiveTask request) where
  protocol := h.protocol
  hasTask := rfl
  kind := rfl
  resultSet := h.resultSet
  stored := h.stored
  waits request' htask := by
    cases htask
    exact h.waits
  free _ htask := nomatch htask

lemma DriverOk.activeTask_eq_none (h : DriverOk d) (htask : d.hasActiveTask = false) :
    d.activeTask = none := by
  rw [h.hasTask, Option.isSome_eq_false_iff] at htask
  exact Option.isNone_iff_eq_none.mp htask

/-- `advance` is called with no wait outstanding and nothing stored. -/
lemma DriverOk.advance_log (h : DriverOk d) (hready : d.awaitReady = false)
    (htask : d.hasActiveTask = false) :
    KeepsProtocol (d.advance M).2.log ∧ ¬StoredIn (d.advance M).2.log := by
  have hstored : ¬StoredIn d.log := by
    rw [h.stored, hready]
    exact Bool.false_ne_true
  refine ⟨h.protocol.append ⟨h.free hready (h.activeTask_eq_none htask), hstored⟩, ?_⟩
  change ¬StoredIn (d.log ++ [_])
  rw [storedIn_append]
  exact not_or_intro hstored Bool.true_eq_false.mp

lemma DriverOk.advance_wait (h : DriverOk d) (hready : d.awaitReady = false)
    (htask : d.hasActiveTask = false) {request : IORequest}
    (haction : (d.advance M).1 = .wait request) : Answering (d.advance M).2 request where
  protocol := (h.advance_log hready htask).1
  hasTask := htask
  kind := h.kind.trans (congrArg _ (h.activeTask_eq_none htask))
  task := h.activeTask_eq_none htask
  resultSet := h.resultSet
  stored := iff_of_false (h.advance_log hready htask).2 (Bool.eq_false_iff.mp hready)
  waits := by
    change outstanding (d.log ++ [.advance (d.advance M).1]) = some request
    rw [outstanding_append, haction]
    rfl

lemma DriverOk.advance_other (h : DriverOk d) (hready : d.awaitReady = false)
    (htask : d.hasActiveTask = false) (haction : ∀ request, (d.advance M).1 ≠ .wait request) :
    DriverOk (d.advance M).2 where
  protocol := (h.advance_log hready htask).1
  hasTask := h.hasTask
  kind := h.kind
  resultSet := h.resultSet
  stored := iff_of_false (h.advance_log hready htask).2 (Bool.eq_false_iff.mp hready)
  waits request hrequest := nomatch (h.activeTask_eq_none htask).symm.trans hrequest
  free _ _ := by
    change outstanding (d.log ++ [.advance (d.advance M).1]) = none
    rw [outstanding_append]
    cases hnext : (d.advance M).1 with
    | wait request => exact absurd hnext (haction request)
    | _ => rfl

lemma DriverOk.storeResult (h : DriverOk d) (hready : d.awaitReady = false) (result : ρ) :
    DriverOk (d.storeResult result).clearActiveTask where
  protocol := h.protocol.append (by
    change ¬StoredIn d.log
    rw [h.stored, hready]
    exact Bool.false_ne_true)
  hasTask := rfl
  kind := rfl
  resultSet := rfl
  stored := iff_of_true ((storedIn_append ..).mpr (.inr rfl)) rfl
  waits := nofun
  free hfree := nomatch hfree

lemma act_ok (action : MachineAction ρ) (hready : d.awaitReady = false)
    (hwait : ∀ request, action = .wait request → Answering d request)
    (hother : (∀ request, action ≠ .wait request) → DriverOk d) :
    (d.act M action).elim DriverOk ReturnOk := by
  cases action with
  | continue_ => exact hother nofun
  | wait request =>
    have hanswering := hwait request rfl
    unfold act
    dsimp only
    split
    · exact ⟨hanswering.setActiveTask, rfl⟩
    · split
      · exact ⟨(hanswering.storeError _).clear (awaitReady_storeError ..), awaitReady_storeError ..⟩
      · split
        · exact hanswering.answer _
        · exact ⟨hanswering.setActiveTask, rfl⟩
  | complete result =>
    have hok := hother nofun
    cases result with
    | none => exact ⟨(hok.storeError _).clear (awaitReady_storeError ..), awaitReady_storeError ..⟩
    | some result => exact ⟨hok.storeResult hready result, rfl⟩
  | fail error =>
    exact ⟨((hother nofun).storeError _).clear (awaitReady_storeError ..), awaitReady_storeError ..⟩

lemma pumpOnce_ok (h : DriverOk d) : (d.pumpOnce M).elim DriverOk ReturnOk := by
  unfold pumpOnce
  split
  · next hready => exact ⟨h, hready⟩
  · next hready =>
    rw [Bool.not_eq_true] at hready
    split
    · next htask => exact ⟨h, htask⟩
    · next htask =>
      rw [Bool.not_eq_true] at htask
      exact act_ok _ hready (fun request => h.advance_wait hready htask)
        (h.advance_other hready htask)

lemma DriverOk.exhaust (h : DriverOk d) (loop : InlineLoop) :
    ReturnOk (.kCompleted, d.exhaust loop) := by
  have hinvalid := (h.storeError ⟨.kParamInvalid, 0⟩).clear (awaitReady_storeError ..)
  exact ⟨⟨hinvalid.protocol, rfl, rfl, hinvalid.resultSet, hinvalid.stored, hinvalid.waits,
    hinvalid.free⟩,
    awaitReady_storeError ..⟩

lemma pump_ok (h : DriverOk d) : ReturnOk (d.pump M) := by
  have hloop := Loop.runFor_elim (fun d => pumpOnce_ok (M := M) (d := d)) kInlineTransitionCap h
  unfold StateMachineDriver.pump
  split
  · next d' hrounds =>
    rw [hrounds] at hloop
    exact DriverOk.exhaust hloop .pump
  · next out hout =>
    rw [hout] at hloop
    exact hloop

lemma prepareOnce_ok (next : StateMachineDriver σ ρ × List IOOutcome) (h : DriverOk next.1) :
    (StateMachineDriver.prepareOnce M next).elim (fun next => DriverOk next.1) ReturnOk := by
  obtain ⟨d, outcomes⟩ := next
  obtain ⟨hok, hreports⟩ := pump_ok (M := M) h
  unfold StateMachineDriver.prepareOnce
  dsimp only
  split
  · next d' hpump =>
    rw [hpump] at hok hreports
    exact ⟨hok, hreports⟩
  · next d' hpump =>
    rw [hpump] at hok hreports
    obtain ⟨request, htask, hkind⟩ := hok.task_of_hasActiveTask hreports
    rw [if_neg (ne_false_of_eq_true hreports), hkind]
    cases outcomes with
    | nil => exact ⟨hok, hreports⟩
    | cons outcome outcomes => exact (hok.clearActiveTask htask).answer outcome

lemma prepareForSubmit_ok (h : DriverOk d) (outcomes : List IOOutcome) :
    ReturnOk (d.prepareForSubmit M outcomes) := by
  have hloop := Loop.runFor_elim (s := (d, outcomes)) (prepareOnce_ok (M := M))
    kInlineTransitionCap h
  unfold StateMachineDriver.prepareForSubmit
  split
  · next d' rest hrounds =>
    rw [hrounds] at hloop
    exact DriverOk.exhaust hloop .prepareForSubmit
  · next out hout =>
    rw [hout] at hloop
    exact hloop

lemma onActiveEvent_ok (h : DriverOk d) (outcomes : List IOOutcome) :
    ReturnOk (d.onActiveEvent M outcomes) := by
  unfold StateMachineDriver.onActiveEvent
  split
  · exact prepareForSubmit_ok h outcomes
  · next hactive =>
    rw [Bool.not_eq_false] at hactive
    obtain ⟨request, htask, hkind⟩ := h.task_of_hasActiveTask hactive
    rw [hkind]
    cases outcomes with
    | nil => exact ⟨h, hactive⟩
    | cons outcome outcomes =>
      exact prepareForSubmit_ok ((h.clearActiveTask htask).answer outcome) outcomes

lemma onCompletion_ok (h : DriverOk d) (outcome : Option IOOutcome) :
    ReturnOk (d.onCompletion M outcome) := by
  unfold StateMachineDriver.onCompletion
  split
  · exact pump_ok h
  · next hactive =>
    rw [Bool.not_eq_false] at hactive
    obtain ⟨request, htask, hkind⟩ := h.task_of_hasActiveTask hactive
    rw [hkind]
    cases outcome with
    | none => exact ⟨h, hactive⟩
    | some outcome => exact pump_ok ((h.clearActiveTask htask).answer outcome)

lemma answerTimeout_ok (h : DriverOk d) : DriverOk (d.answerTimeout M) := by
  unfold answerTimeout
  cases htask : d.activeTask with
  | some request =>
    rw [h.kind, htask]
    exact (h.clearActiveTask htask).answer _
  | none =>
    rw [h.kind, htask]
    exact ⟨h.protocol, rfl, rfl, h.resultSet, h.stored, nofun, fun hready _ => h.free hready htask⟩

lemma markTimeout_ok (h : DriverOk d) :
    DriverOk (d.markTimeout M) ∧ (d.markTimeout M).awaitReady = true := by
  obtain ⟨hpumped, -⟩ := pump_ok (M := M) (answerTimeout_ok (M := M) h)
  unfold StateMachineDriver.markTimeout
  dsimp only
  split
  · next hready => exact ⟨hpumped, hready⟩
  · exact ⟨hpumped.storeError _, awaitReady_storeError ..⟩

/-- What a call reports is so, and after `markTimeout` an outcome is stored. -/
def CallReports : Option SequenceProgress × StateMachineDriver σ ρ → Prop
  | (some progress, d) => Reports (progress, d)
  | (none, d) => d.awaitReady = true

lemma call_ok (h : DriverOk d) (backend : Backend) (c : DriverCall) :
    DriverOk (d.call M backend c).2 ∧ CallReports (d.call M backend c) := by
  cases c with
  | prepareForSubmit outcomes =>
    cases backend with
    | reactor => exact prepareForSubmit_ok h outcomes
    | uring => exact pump_ok h
  | onActiveEvent outcomes =>
    cases backend with
    | reactor => exact onActiveEvent_ok h outcomes
    | uring => exact onCompletion_ok h outcomes.head?
  | markTimeout => exact markTimeout_ok h

lemma runCalls_ok (h : DriverOk d) (backend : Backend) (calls : List DriverCall) :
    DriverOk (d.runCalls M backend calls) := by
  induction calls generalizing d with
  | nil => exact h
  | cons c calls ih => exact ih (call_ok h backend c).1

def SameResult (d d' : StateMachineDriver σ ρ) : Prop :=
  d'.resultSet = d.resultSet ∧ d'.result = d.result

lemma answer_sameResult (d : StateMachineDriver σ ρ) (kind : ActiveKind) (outcome : IOOutcome) :
    SameResult d (d.clearActiveTask.answer M kind outcome) := by
  unfold answer
  cases kind with
  | kConnect =>
    unfold deliverConnect
    dsimp only
    split
    · exact ⟨rfl, rfl⟩
    · split <;> exact ⟨rfl, rfl⟩
  | _ => exact ⟨rfl, rfl⟩

lemma SameResult.awaitReady (h : SameResult d d') (hset : d.resultSet = true) :
    d'.awaitReady = true := by
  rw [StateMachineDriver.awaitReady, h.1, hset, Bool.true_or]

lemma pump_of_awaitReady (hready : d.awaitReady = true) : d.pump M = (.kCompleted, d) := by
  have hleave : d.pumpOnce M = .inr (.kCompleted, d) := if_pos hready
  unfold StateMachineDriver.pump kInlineTransitionCap
  rw [Loop.runFor_leave hleave]

lemma prepareForSubmit_of_awaitReady (hready : d.awaitReady = true) (outcomes : List IOOutcome) :
    d.prepareForSubmit M outcomes = (.kCompleted, d) := by
  have hleave : StateMachineDriver.prepareOnce M (d, outcomes) = .inr (.kCompleted, d) := by
    unfold StateMachineDriver.prepareOnce
    dsimp only
    rw [pump_of_awaitReady hready]
  unfold StateMachineDriver.prepareForSubmit kInlineTransitionCap
  rw [Loop.runFor_leave hleave]

lemma SameResult.pump (h : SameResult d d') (hset : d.resultSet = true) :
    SameResult d (d'.pump M).2 := by
  rw [pump_of_awaitReady (h.awaitReady hset)]
  exact h

lemma SameResult.prepareForSubmit (h : SameResult d d') (hset : d.resultSet = true)
    (outcomes : List IOOutcome) : SameResult d (d'.prepareForSubmit M outcomes).2 := by
  rw [prepareForSubmit_of_awaitReady (h.awaitReady hset)]
  exact h

lemma onActiveEvent_sameResult (hset : d.resultSet = true) (outcomes : List IOOutcome) :
    SameResult d (d.onActiveEvent M outcomes).2 := by
  unfold StateMachineDriver.onActiveEvent
  split
  · exact SameResult.prepareForSubmit ⟨rfl, rfl⟩ hset outcomes
  · split
    · exact ⟨rfl, rfl⟩
    · exact ⟨rfl, rfl⟩
    · exact (answer_sameResult ..).prepareForSubmit hset _

lemma onCompletion_sameResult (hset : d.resultSet = true) (outcome : Option IOOutcome) :
    SameResult d (d.onCompletion M outcome).2 := by
  unfold StateMachineDriver.onCompletion
  split
  · exact SameResult.pump ⟨rfl, rfl⟩ hset
  · split
    · exact ⟨rfl, rfl⟩
    · exact ⟨rfl, rfl⟩
    · exact (answer_sameResult ..).pump hset

lemma markTimeout_sameResult (hset : d.resultSet = true) : SameResult d (d.markTimeout M) := by
  have hanswered : SameResult d (d.answerTimeout M) := by
    unfold answerTimeout
    split
    · exact answer_sameResult ..
    · exact ⟨rfl, rfl⟩
  have hpumped := hanswered.pump (M := M) hset
  unfold StateMachineDriver.markTimeout
  dsimp only
  rw [if_pos (hpumped.awaitReady hset)]
  exact hpumped

lemma call_sameResult (hset : d.resultSet = true) (backend : Backend) (c : DriverCall) :
    SameResult d (d.call M backend c).2 := by
  cases c with
  | prepareForSubmit outcomes =>
    cases backend with
    | reactor => exact SameResult.prepareForSubmit ⟨rfl, rfl⟩ hset outcomes
    | uring => exact SameResult.pump ⟨rfl, rfl⟩ hset
  | onActiveEvent outcomes =>
    cases backend with
    | reactor => exact onActiveEvent_sameResult hset outcomes
    | uring => exact onCompletion_sameResult hset outcomes.head?
  | markTimeout => exact markTimeout_sameResult hset

/-- The driver keeps the protocol through every sequence of calls, an active task goes with its
kind, a stored result stays, what the driver reports is so, and `markTimeout` leaves an outcome. -/
theorem driver_keeps_protocol (M : StateMachine σ ρ) (backend : Backend) (m : σ)
    (calls : List DriverCall) (c : DriverCall) :
    let d := (StateMachineDriver.new m).runCalls M backend calls
    KeepsProtocol d.log ∧ (d.hasActiveTask = true ↔ d.activeKind ≠ none) ∧
      (d.resultSet = true → SameResult d (d.call M backend c).2) ∧
      CallReports (d.call M backend c) := by
  have hok := runCalls_ok (M := M) (driverOk_new m) backend calls
  exact ⟨hok.protocol, hok.hasActiveTask_iff, fun hset => call_sameResult hset backend c,
    (call_ok hok backend c).2⟩

def machineCall : DriverEvent ρ → Option MachineCall
  | .advance _ => some .advance
  | .onRead outcome => some (.onRead outcome)
  | .onWrite outcome => some (.onWrite outcome)
  | .onConnect outcome => some (.onConnect outcome)
  | .storeResult _ | .storeError _ => none

def toAwaitable (d : StateMachineDriver σ ρ) : StateMachineAwaitable σ ρ where
  machine := d.machine
  active := d.activeTask
  result := d.result
  error := d.error
  calls := d.log.filterMap machineCall
  exhausted := d.exhausted

/-- What the driver returns, read as an awaitable. -/
def seenByAwaitable (out : SequenceProgress × StateMachineDriver σ ρ) :
    SequenceProgress × StateMachineAwaitable σ ρ :=
  (out.1, toAwaitable out.2)

lemma awaitReady_toAwaitable (h : DriverOk d) : (toAwaitable d).awaitReady = d.awaitReady := by
  rw [StateMachineAwaitable.awaitReady, StateMachineDriver.awaitReady, h.resultSet]
  rfl

lemma answer_toAwaitable (htask : d.activeTask = none) (kind : ActiveKind) (outcome : IOOutcome) :
    toAwaitable (d.answer M kind outcome) = (toAwaitable d).deliver M kind outcome := by
  have hactive : (toAwaitable d).active = none := htask
  unfold answer StateMachineAwaitable.deliver
  rw [← hactive]
  cases kind with
  | kConnect =>
    dsimp only
    unfold deliverConnect StateMachineAwaitable.deliverConnect
    cases M.onConnect with
    | some onConnect => simp [toAwaitable, machineCall]
    | none => cases outcome <;> simp [toAwaitable, machineCall, storeError, Except.map]
  | _ => simp [toAwaitable, machineCall, onRead, onWrite]

lemma storeError_toAwaitable (d : StateMachineDriver σ ρ) (error : IOError) :
    toAwaitable (d.storeError error).clearActiveTask =
      { toAwaitable d with error := some error, active := none } := by
  simp [toAwaitable, machineCall, StateMachineDriver.storeError,
    StateMachineDriver.clearActiveTask]

lemma storeResult_toAwaitable (d : StateMachineDriver σ ρ) (result : ρ) :
    toAwaitable (d.storeResult result).clearActiveTask =
      { toAwaitable d with result := some result, active := none } := by
  simp [toAwaitable, machineCall, StateMachineDriver.storeResult,
    StateMachineDriver.clearActiveTask]

lemma invalid_toAwaitable (d : StateMachineDriver σ ρ) :
    toAwaitable d.invalid = (toAwaitable d).invalid :=
  storeError_toAwaitable d _

lemma act_toAwaitable (htask : d.activeTask = none) (action : MachineAction ρ) :
    (toAwaitable d).act M action = (d.act M action).map toAwaitable seenByAwaitable := by
  cases action with
  | continue_ => rfl
  | wait request =>
    unfold act StateMachineAwaitable.act
    dsimp only
    split
    · rfl
    · split
      · simp [seenByAwaitable, invalid_toAwaitable]
      · split
        · exact congrArg Sum.inl (answer_toAwaitable htask _ _).symm
        · rfl
  | complete result =>
    cases result with
    | none => simp [act, StateMachineAwaitable.act, seenByAwaitable, invalid_toAwaitable]
    | some result => simp [act, StateMachineAwaitable.act, seenByAwaitable, storeResult_toAwaitable]
  | fail error => simp [act, StateMachineAwaitable.act, seenByAwaitable, storeError_toAwaitable]

lemma advance_toAwaitable (d : StateMachineDriver σ ρ) : toAwaitable (d.advance M).2 =
    { toAwaitable d with
      machine := (M.advance d.machine).2
      calls := (toAwaitable d).calls ++ [.advance] } := by
  simp [toAwaitable, advance, machineCall]

lemma pumpOnce_toAwaitable (h : DriverOk d) :
    (toAwaitable d).pumpOnce M = (d.pumpOnce M).map toAwaitable seenByAwaitable := by
  have hactive : (toAwaitable d).active.isSome = d.hasActiveTask := h.hasTask.symm
  unfold StateMachineDriver.pumpOnce StateMachineAwaitable.pumpOnce
  rw [awaitReady_toAwaitable h, hactive]
  split
  · rfl
  · split
    · rfl
    · next htask =>
      rw [Bool.not_eq_true] at htask
      rw [← act_toAwaitable (show (d.advance M).2.activeTask = none from h.activeTask_eq_none htask),
        advance_toAwaitable]
      rfl

lemma exhaust_toAwaitable (d : StateMachineDriver σ ρ) (loop : InlineLoop) :
    toAwaitable (d.exhaust loop) = (toAwaitable d).exhaust loop :=
  congrArg (fun s : StateMachineAwaitable σ ρ => { s with exhausted := some loop })
    (invalid_toAwaitable d)

lemma pump_toAwaitable (h : DriverOk d) : (toAwaitable d).pump M = seenByAwaitable (d.pump M) := by
  have hloop := Loop.runFor_map (fun d => pumpOnce_toAwaitable (M := M) (d := d))
    (fun d d' hd hnext => by
      have hround := pumpOnce_ok (M := M) hd
      rw [hnext] at hround
      exact hround) kInlineTransitionCap h
  unfold StateMachineDriver.pump StateMachineAwaitable.pump
  rw [hloop]
  cases Loop.runFor (StateMachineDriver.pumpOnce M) kInlineTransitionCap d with
  | inl d' => exact congrArg (Prod.mk _) (exhaust_toAwaitable ..).symm
  | inr out => rfl

lemma deliver_toAwaitable (d : StateMachineDriver σ ρ) (kind : ActiveKind) (outcome : IOOutcome) :
    toAwaitable (d.clearActiveTask.answer M kind outcome) = (toAwaitable d).deliver M kind outcome :=
  answer_toAwaitable rfl kind outcome

lemma prepareOnce_toAwaitable (next : StateMachineDriver σ ρ × List IOOutcome)
    (h : DriverOk next.1) : StateMachineAwaitable.prepareOnce M (next.map toAwaitable id) =
      (StateMachineDriver.prepareOnce M next).map (Prod.map toAwaitable id) seenByAwaitable := by
  obtain ⟨d, outcomes⟩ := next
  have hpump := pump_toAwaitable (M := M) h
  have hreturn := pump_ok (M := M) h
  unfold StateMachineAwaitable.prepareOnce StateMachineDriver.prepareOnce
  dsimp only [Prod.map, id] at hpump hreturn ⊢
  rw [hpump]
  generalize d.pump M = out at hreturn ⊢
  obtain ⟨progress, d'⟩ := out
  obtain ⟨hok, hreports⟩ := hreturn
  cases progress with
  | kCompleted => rfl
  | kNeedWait =>
    obtain ⟨request, htask, hkind⟩ := hok.task_of_hasActiveTask hreports
    have hactive : (toAwaitable d').active = some request := htask
    dsimp only [seenByAwaitable]
    rw [if_neg (ne_false_of_eq_true hreports), hkind, hactive]
    cases outcomes with
    | nil => rfl
    | cons outcome outcomes =>
      exact congrArg (fun s => Sum.inl (s, outcomes)) (deliver_toAwaitable ..).symm

lemma prepareForSubmit_toAwaitable (h : DriverOk d) (outcomes : List IOOutcome) :
    (toAwaitable d).prepareForSubmit M outcomes =
      seenByAwaitable (d.prepareForSubmit M outcomes) := by
  have hloop := Loop.runFor_map (s := (d, outcomes)) (prepareOnce_toAwaitable (M := M))
    (fun next next' hnext hround => by
      have hok := prepareOnce_ok (M := M) next hnext
      rw [hround] at hok
      exact hok) kInlineTransitionCap h
  unfold StateMachineDriver.prepareForSubmit StateMachineAwaitable.prepareForSubmit
  rw [show (toAwaitable d, outcomes) = Prod.map toAwaitable id (d, outcomes) from rfl, hloop]
  cases Loop.runFor (StateMachineDriver.prepareOnce M) kInlineTransitionCap (d, outcomes) with
  | inl next => exact congrArg (Prod.mk _) (exhaust_toAwaitable ..).symm
  | inr out => rfl

lemma onActiveEvent_toAwaitable (h : DriverOk d) (outcomes : List IOOutcome) :
    (toAwaitable d).onActiveEvent M outcomes = seenByAwaitable (d.onActiveEvent M outcomes) := by
  unfold StateMachineDriver.onActiveEvent StateMachineAwaitable.onActiveEvent
  cases htask : d.hasActiveTask with
  | false =>
    have hactive : (toAwaitable d).active = none := h.activeTask_eq_none htask
    rw [if_pos rfl, hactive]
    exact prepareForSubmit_toAwaitable h outcomes
  | true =>
    obtain ⟨request, hrequest, hkind⟩ := h.task_of_hasActiveTask htask
    have hactive : (toAwaitable d).active = some request := hrequest
    rw [if_neg Bool.true_eq_false.mp, hactive, hkind]
    cases outcomes with
    | nil => rfl
    | cons outcome outcomes =>
      dsimp only
      rw [← deliver_toAwaitable]
      exact prepareForSubmit_toAwaitable ((h.clearActiveTask hrequest).answer outcome) outcomes

lemma onCompletion_toAwaitable (h : DriverOk d) (outcome : Option IOOutcome) :
    (toAwaitable d).onCompletion M outcome = seenByAwaitable (d.onCompletion M outcome) := by
  unfold StateMachineDriver.onCompletion StateMachineAwaitable.onCompletion
  cases htask : d.hasActiveTask with
  | false =>
    have hactive : (toAwaitable d).active = none := h.activeTask_eq_none htask
    rw [if_pos rfl, hactive]
    exact pump_toAwaitable h
  | true =>
    obtain ⟨request, hrequest, hkind⟩ := h.task_of_hasActiveTask htask
    have hactive : (toAwaitable d).active = some request := hrequest
    rw [if_neg Bool.true_eq_false.mp, hactive, hkind]
    cases outcome with
    | none => rfl
    | some outcome =>
      dsimp only
      rw [← deliver_toAwaitable]
      exact pump_toAwaitable ((h.clearActiveTask hrequest).answer outcome)

/-- The calls on the awaitable with one field. -/
def awaitableCall (M : StateMachine σ ρ) (backend : Backend) (s : StateMachineAwaitable σ ρ) :
    DriverCall → StateMachineAwaitable σ ρ
  | .prepareForSubmit outcomes =>
    match backend with
    | .reactor => (s.prepareForSubmit M outcomes).2
    | .uring => (s.pump M).2
  | .onActiveEvent outcomes =>
    match backend with
    | .reactor => (s.onActiveEvent M outcomes).2
    | .uring => (s.onCompletion M outcomes.head?).2
  | .markTimeout => s

/-- Without a timeout the driver goes through the states of the awaitable with one field. -/
theorem runCalls_toAwaitable (h : DriverOk d) (backend : Backend) (calls : List DriverCall)
    (hcalls : .markTimeout ∉ calls) : toAwaitable (d.runCalls M backend calls) =
      calls.foldl (awaitableCall M backend) (toAwaitable d) := by
  induction calls generalizing d with
  | nil => rfl
  | cons c calls ih =>
    have hcall : awaitableCall M backend (toAwaitable d) c = toAwaitable (d.call M backend c).2 := by
      cases c with
      | prepareForSubmit outcomes =>
        cases backend with
        | reactor => exact congrArg Prod.snd (prepareForSubmit_toAwaitable h outcomes)
        | uring => exact congrArg Prod.snd (pump_toAwaitable h)
      | onActiveEvent outcomes =>
        cases backend with
        | reactor => exact congrArg Prod.snd (onActiveEvent_toAwaitable h outcomes)
        | uring => exact congrArg Prod.snd (onCompletion_toAwaitable h outcomes.head?)
      | markTimeout => exact absurd List.mem_cons_self hcalls
    rw [List.foldl_cons, hcall]
    exact ih (call_ok h backend c).1 (fun hmem => hcalls (List.mem_cons_of_mem c hmem))

theorem runCalls_toAwaitable_readTimes :
    toAwaitable ((new (0, 0)).runCalls (readTimes 1) .reactor
      [.prepareForSubmit [], .onActiveEvent [.ok [3]]]) =
    [DriverCall.prepareForSubmit [], .onActiveEvent [.ok [3]]].foldl
      (awaitableCall (readTimes 1) .reactor) (toAwaitable (new (0, 0))) :=
  runCalls_toAwaitable (driverOk_new _) .reactor _ (by decide)

end GalayKernel.Proofs
