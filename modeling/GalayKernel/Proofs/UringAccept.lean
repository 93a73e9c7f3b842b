import GalayKernel.UringAccept
import GalayKernel.Lib.Transition
import Mathlib.Data.List.Perm.Basic

namespace GalayKernel

namespace AcceptController

variable {ctl ctl' : AcceptController} {res : AcceptResult} {peer : Option Nat}

def inHand (ctl : AcceptController) : List Nat :=
  (ctl.acceptor.bind (·.result)).toList.flatMap AcceptResult.fds

def held (ctl : AcceptController) : List Nat :=
  ctl.returned.flatMap AcceptResult.fds ++ ctl.inHand ++ ctl.readyAccepts

/-- `accepted` are the descriptors that are held or closed. -/
structure Ledger (ctl : AcceptController) (accepted : List Nat) : Prop where
  count : ∀ fd, accepted.count fd = ctl.held.count fd + ctl.closed.count fd
  order : ctl.held.Sublist accepted
  fresh : ctl.waits → ctl.inHand = []

lemma Ledger.release {accepted : List Nat} (h : Ledger ctl accepted)
    (hheld : ctl'.held.Sublist ctl.held)
    (hcount : ∀ fd, ctl'.held.count fd + ctl'.closed.count fd =
      ctl.held.count fd + ctl.closed.count fd)
    (hfresh : ctl'.waits → ctl'.inHand = []) : Ledger ctl' accepted where
  count fd := (h.count fd).trans (hcount fd).symm
  order := hheld.trans h.order
  fresh := hfresh

lemma Ledger.same {accepted : List Nat} (h : Ledger ctl accepted) (hheld : ctl'.held = ctl.held)
    (hclosed : ctl'.closed = ctl.closed) (hfresh : ctl'.waits → ctl'.inHand = []) :
    Ledger ctl' accepted :=
  h.release (hheld ▸ List.Sublist.refl _) (fun _ => by rw [hheld, hclosed]) hfresh

lemma Ledger.enqueue {accepted : List Nat} (h : Ledger ctl accepted) (fd : Nat) :
    Ledger { ctl with readyAccepts := ctl.readyAccepts ++ [fd] } (accepted ++ [fd]) where
  count fd' := by
    have hcount := h.count fd'
    simp only [held, inHand, List.count_append] at hcount ⊢
    omega
  order := by
    have horder := h.order.append (List.Sublist.refl [fd])
    rwa [held, List.append_assoc] at horder
  fresh := h.fresh

lemma tryConsumeAcceptedHandle_spec {out : AcceptController × AcceptResult}
    (h : ctl.tryConsumeAcceptedHandle peer = some out) : ∃ fd rest closed,
      ctl.readyAccepts = fd :: rest ∧
      out.1 = { ctl with readyAccepts := rest, closed := ctl.closed ++ closed } ∧
      (out.2.fds = [fd] ∧ closed = [] ∨ out.2.fds = [] ∧ closed = [fd]) := by
  unfold tryConsumeAcceptedHandle at h
  split at h
  · cases h
  · next fd rest hready =>
    split at h
    · cases h
      exact ⟨fd, rest, [fd], hready, rfl, .inr ⟨rfl, rfl⟩⟩
    · cases h
      exact ⟨fd, rest, [], hready, by simp, .inl ⟨rfl, rfl⟩⟩

lemma Ledger.consume {accepted : List Nat} (h : Ledger ctl accepted) (hhand : ctl.inHand = [])
    {out : AcceptController × AcceptResult}
    (hout : ctl.tryConsumeAcceptedHandle peer = some out)
    (hready : ctl'.readyAccepts = out.1.readyAccepts)
    (hclosed : ctl'.closed = out.1.closed)
    (hheld : ctl'.returned.flatMap AcceptResult.fds ++ ctl'.inHand =
      ctl.returned.flatMap AcceptResult.fds ++ out.2.fds)
    (hfresh : ctl'.waits → ctl'.inHand = []) : Ledger ctl' accepted := by
  obtain ⟨fd, rest, closed, hready', hctl, hfds⟩ := tryConsumeAcceptedHandle_spec hout
  rw [hctl] at hready hclosed
  refine h.release ?_ (fun fd' => ?_) hfresh
  · simp only [held, hheld, hhand, hready, hready', List.append_nil, List.append_assoc]
    refine (List.Sublist.refl _).append ?_
    obtain ⟨hfds, -⟩ | ⟨hfds, -⟩ := hfds
    · rw [hfds]
      exact List.Sublist.refl _
    · rw [hfds]
      exact List.sublist_cons_self _ _
  · simp only [held, hheld, hhand, hready, hready', hclosed, List.count_append, List.count_cons,
      List.count_nil]
    obtain ⟨hfds, rfl⟩ | ⟨hfds, rfl⟩ := hfds <;> rw [hfds] <;>
      simp only [List.count_cons, List.count_nil] <;> omega

lemma inHand_eq_nil (h : ctl.acceptor = none) : ctl.inHand = [] := by
  simp [inHand, h]

lemma Ledger.assign_failed {accepted : List Nat} (h : Ledger ctl accepted) (hwaits : ctl.waits)
    (errno : Nat) : Ledger (ctl.assign (.failed errno)) accepted := by
  refine h.same ?_ rfl fun hwaits' => ?_
  · have hhand := h.fresh hwaits
    simp only [held, hhand]
    simp [assign, inHand, AcceptResult.fds]
  · simp [waits, assign] at hwaits'

lemma Ledger.finish {accepted : List Nat} (h : Ledger ctl accepted) (result : Option AcceptResult)
    (hresult : ctl.inHand = result.toList.flatMap AcceptResult.fds) :
    Ledger (ctl.finish result) accepted := by
  refine h.same ?_ rfl fun hwaits => ?_
  · simp only [held, hresult]
    simp [AcceptController.finish, inHand]
  · simp [waits, AcceptController.finish] at hwaits

lemma Ledger.submit {accepted : List Nat} (h : Ledger ctl accepted) (sqe : Bool) :
    Ledger (ctl.submitMultishotAccept sqe).1 accepted := by
  unfold submitMultishotAccept
  dsimp only
  split
  · exact h
  · split
    · exact h.same rfl rfl h.fresh
    · exact h.same rfl rfl h.fresh

lemma Ledger.accept {accepted : List Nat} (h : Ledger ctl accepted) (hnone : ctl.acceptor = none)
    (sqe : Bool) : Ledger (ctl.accept sqe peer) accepted := by
  have hhand := inHand_eq_nil hnone
  have hwait : ∀ {ctl : AcceptController}, Ledger ctl accepted → ctl.acceptor = none →
      Ledger { ctl with acceptor := some ⟨true, none⟩ } accepted := by
    intro ctl h hnone
    refine h.same ?_ rfl fun _ => rfl
    simp only [held, inHand_eq_nil hnone]
    simp [inHand]
  have hsubmit : (ctl.submitMultishotAccept sqe).1.acceptor = none := by
    unfold submitMultishotAccept
    dsimp only
    split
    · exact hnone
    · split <;> exact hnone
  unfold AcceptController.accept
  split
  · next ctl' result hout =>
    refine h.consume hhand hout rfl rfl ?_ fun hwaits => ?_
    · obtain ⟨fd, rest, closed, -, hctl, -⟩ := tryConsumeAcceptedHandle_spec hout
      simp only at hctl
      simp [AcceptController.finish, inHand, hctl]
    · simp [waits, AcceptController.finish] at hwaits
  · split
    · exact hwait h hnone
    · split
      · next ctl' hout =>
        rw [hout] at hsubmit
        have hledger := h.submit sqe
        rw [hout] at hledger
        exact hwait hledger hsubmit
      · next ctl' errno hout =>
        rw [hout] at hsubmit
        have hledger := h.submit sqe
        rw [hout] at hledger
        exact hledger.finish _ (inHand_eq_nil hsubmit)

lemma Ledger.takeCompletion {accepted : List Nat} (h : Ledger ctl accepted) :
    Ledger (ctl.takeCompletion res peer) (accepted ++ res.fds) := by
  cases res with
  | handle fd =>
    have hledger := h.enqueue fd
    unfold AcceptController.takeCompletion
    dsimp only
    split
    · next hwaits =>
      split
      · next ctl' result hout =>
        refine hledger.consume (h.fresh hwaits) hout rfl rfl ?_ fun hwaits' => ?_
        · obtain ⟨fd, rest, closed, -, hctl, -⟩ := tryConsumeAcceptedHandle_spec hout
          simp only at hctl
          simp [assign, inHand, hctl]
        · simp [waits, assign] at hwaits'
      · exact hledger
    · exact hledger
  | failed errno =>
    rw [AcceptResult.fds, List.append_nil]
    unfold AcceptController.takeCompletion
    dsimp only
    split
    · next hwaits =>
      rw [Bool.and_eq_true] at hwaits
      exact h.assign_failed hwaits.1 errno
    · exact h

lemma Ledger.rearm {accepted : List Nat} (h : Ledger ctl accepted) (sqe : Bool) :
    Ledger (ctl.rearm sqe) accepted := by
  have hdone : Ledger { ctl with acceptMultishotArmed := false } accepted :=
    h.same rfl rfl h.fresh
  have hsubmit := hdone.submit sqe
  unfold AcceptController.rearm
  split
  · exact hdone
  · split
    · next hout => rwa [hout] at hsubmit
    · next ctl' errno hout =>
      rw [hout] at hsubmit
      split
      · next hwaits => exact hsubmit.assign_failed hwaits errno
      · exact hsubmit

lemma Ledger.processAcceptCompletion {accepted : List Nat} (h : Ledger ctl accepted)
    (more sqe : Bool) :
    Ledger (ctl.processAcceptCompletion res more sqe peer) (accepted ++ res.fds) := by
  unfold AcceptController.processAcceptCompletion
  split
  · exact h.takeCompletion
  · exact h.takeCompletion.rearm sqe

lemma takeCompletion_frame (ctl : AcceptController) (res : AcceptResult) (peer : Option Nat) :
    ∃ acceptor readyAccepts closed assigned, ctl.takeCompletion res peer = { ctl with
      acceptor := acceptor, readyAccepts := readyAccepts, closed := closed
      acceptResultAssigned := assigned } := by
  cases res with
  | handle fd =>
    unfold takeCompletion
    dsimp only
    split
    · split
      · next hout =>
        obtain ⟨fd, rest, closed, -, hctl, -⟩ := tryConsumeAcceptedHandle_spec hout
        simp only at hctl
        subst hctl
        exact ⟨_, _, _, _, rfl⟩
      · exact ⟨_, _, _, _, rfl⟩
    · exact ⟨_, _, _, _, rfl⟩
  | failed errno =>
    unfold takeCompletion
    dsimp only
    split <;> exact ⟨_, _, _, _, rfl⟩

lemma submitMultishotAccept_accepted (ctl : AcceptController) (sqe : Bool) :
    (ctl.submitMultishotAccept sqe).1.accepted = ctl.accepted := by
  unfold submitMultishotAccept
  dsimp only
  split
  · rfl
  · split <;> rfl

lemma accept_accepted (ctl : AcceptController) (sqe : Bool) (peer : Option Nat) :
    (ctl.accept sqe peer).accepted = ctl.accepted := by
  have hsubmit := submitMultishotAccept_accepted ctl sqe
  unfold accept
  split
  · next hout =>
    obtain ⟨fd, rest, closed, -, hctl, -⟩ := tryConsumeAcceptedHandle_spec hout
    simp only at hctl
    subst hctl
    rfl
  · split
    · rfl
    · split <;> next hout => rwa [hout] at hsubmit

lemma rearm_accepted (ctl : AcceptController) (sqe : Bool) :
    (ctl.rearm sqe).accepted = ctl.accepted := by
  have hsubmit := submitMultishotAccept_accepted { ctl with acceptMultishotArmed := false } sqe
  unfold rearm
  split
  · rfl
  · split
    · next hout => rwa [hout] at hsubmit
    · next hout =>
      rw [hout] at hsubmit
      split <;> exact hsubmit

lemma processAcceptCompletion_accepted (ctl : AcceptController) (res : AcceptResult)
    (more sqe : Bool) (peer : Option Nat) :
    (ctl.processAcceptCompletion res more sqe peer).accepted = ctl.accepted := by
  obtain ⟨acceptor, readyAccepts, closed, assigned, htaken⟩ := takeCompletion_frame ctl res peer
  unfold processAcceptCompletion
  split
  · rw [htaken]
  · rw [rearm_accepted, htaken]

/-- While the listener is open, its only request is the current one. After the close nothing is
queued and every completion is dropped. -/
structure RequestsOk (ctl : AcceptController) : Prop where
  owner : ctl.owner = ctl.isOpen
  current : ctl.isOpen → ∀ r ∈ ctl.requests,
    ctl.requests = [r] ∧ r = ctl.generation ∧ ctl.acceptMultishotArmed
  drained : ctl.isOpen = false → ctl.readyAccepts = []

lemma RequestsOk.submit (h : RequestsOk ctl) (hnone : ctl.isOpen → ctl.requests = []) (sqe : Bool) :
    RequestsOk (ctl.submitMultishotAccept sqe).1 := by
  unfold submitMultishotAccept
  dsimp only
  split
  · exact h
  · next hopen =>
    have hopen : ctl.isOpen = true := by simpa using hopen
    have hrequests := hnone hopen
    split
    · exact ⟨hopen.symm, fun _ r hr => by simp [hrequests] at hr, h.drained⟩
    · refine ⟨hopen.symm, fun _ r hr => ?_, h.drained⟩
      rw [hrequests, List.nil_append, List.mem_singleton] at hr
      simp [hrequests, hr]

lemma RequestsOk.frame (h : RequestsOk ctl) (hopen : ctl'.isOpen = ctl.isOpen)
    (howner : ctl'.owner = ctl.owner) (hgeneration : ctl'.generation = ctl.generation)
    (harmed : ctl'.acceptMultishotArmed = ctl.acceptMultishotArmed)
    (hrequests : ctl'.requests = ctl.requests)
    (hdrained : ctl'.isOpen = false → ctl'.readyAccepts = []) : RequestsOk ctl' where
  owner := by rw [howner, hopen, h.owner]
  current := by
    rw [hopen, hrequests, hgeneration, harmed]
    exact h.current
  drained := hdrained

lemma RequestsOk.unarmed (h : RequestsOk ctl) (harmed : ctl.acceptMultishotArmed = false)
    (hopen : ctl.isOpen) : ctl.requests = [] := by
  rw [List.eq_nil_iff_forall_not_mem]
  intro r hr
  have hcurrent := (h.current hopen r hr).2.2
  rw [harmed] at hcurrent
  cases hcurrent

lemma RequestsOk.accept (h : RequestsOk ctl) (sqe : Bool) : RequestsOk (ctl.accept sqe peer) := by
  unfold AcceptController.accept
  split
  · next ctl' result hout =>
    obtain ⟨fd, rest, closed, hready, hctl, -⟩ := tryConsumeAcceptedHandle_spec hout
    simp only at hctl
    subst hctl
    refine h.frame rfl rfl rfl rfl rfl fun hopen => ?_
    have hdrained := h.drained hopen
    rw [hready] at hdrained
    cases hdrained
  · split
    · exact h.frame rfl rfl rfl rfl rfl h.drained
    · next harmed =>
      have hsubmit := h.submit (h.unarmed (by simpa using harmed)) sqe
      split
      · next hout =>
        rw [hout] at hsubmit
        exact hsubmit.frame rfl rfl rfl rfl rfl hsubmit.drained
      · next hout =>
        rw [hout] at hsubmit
        exact hsubmit.frame rfl rfl rfl rfl rfl hsubmit.drained

lemma RequestsOk.rearm (h : RequestsOk ctl) (hnone : ctl.isOpen → ctl.requests = []) (sqe : Bool) :
    RequestsOk (ctl.rearm sqe) := by
  have hdone : RequestsOk { ctl with acceptMultishotArmed := false } :=
    ⟨h.owner, fun hopen r hr => (by simp [hnone hopen] at hr), h.drained⟩
  have hsubmit := hdone.submit hnone sqe
  unfold AcceptController.rearm
  split
  · exact hdone
  · split
    · next hout => rwa [hout] at hsubmit
    · next hout =>
      rw [hout] at hsubmit
      split
      · exact hsubmit.frame rfl rfl rfl rfl rfl hsubmit.drained
      · exact hsubmit

lemma RequestsOk.processAcceptCompletion (h : RequestsOk ctl) (hopen : ctl.isOpen) (more sqe : Bool)
    (hlast : more = false → ctl.requests = []) :
    RequestsOk (ctl.processAcceptCompletion res more sqe peer) := by
  obtain ⟨acceptor, readyAccepts, closed, assigned, htaken⟩ := takeCompletion_frame ctl res peer
  have hok : RequestsOk (ctl.takeCompletion res peer) := by
    rw [htaken]
    refine h.frame rfl rfl rfl rfl rfl fun hclosed => ?_
    rw [hopen] at hclosed
    cases hclosed
  unfold AcceptController.processAcceptCompletion
  split
  · exact hok
  · next hmore =>
    refine hok.rearm (fun _ => ?_) sqe
    rw [htaken]
    exact hlast (by simpa using hmore)

lemma processCompletion_of_not_owner (h : ctl.owner = false) (r : Nat) (more sqe : Bool) :
    ctl.processCompletion r res more sqe peer = ctl := by
  simp [processCompletion, h]

lemma processCompletion_of_current {r : Nat} (hr : r = ctl.generation) (howner : ctl.owner)
    (harmed : ctl.acceptMultishotArmed) (more sqe : Bool) :
    ctl.processCompletion r res more sqe peer = ctl.processAcceptCompletion res more sqe peer := by
  simp [processCompletion, hr, howner, harmed]

end AcceptController

end GalayKernel

namespace GalayKernel.Proofs

open Transition AcceptController

variable {ctl ctl' : AcceptController}

/-- Each accepted descriptor has been returned, is about to be returned, waits in the queue of an
open listener or has been closed, and is in one of these places once. Those that are returned come
in the order of their completions. -/
structure AcceptsConserved (ctl : AcceptController) : Prop where
  placed : ctl.accepted.Perm (ctl.returned.flatMap AcceptResult.fds ++ ctl.inHand ++
    ctl.readyAccepts ++ ctl.closed)
  ordered : (ctl.returned.flatMap AcceptResult.fds ++ ctl.inHand ++ ctl.readyAccepts).Sublist
    ctl.accepted
  drained : ctl.isOpen = false → ctl.readyAccepts = []

/-- A completion with a descriptor is processed while the listener is open. -/
def acceptsWhileOpen (ctl : AcceptController) : AcceptAction → Bool
  | .complete _ (.handle _) _ _ _ => ctl.isOpen
  | _ => true

def AcceptsOk (ctl : AcceptController) : Prop := Ledger ctl ctl.accepted ∧ RequestsOk ctl

lemma acceptsOk_init : AcceptsOk .init where
  left := ⟨fun _ => rfl, List.Sublist.refl _, fun _ => rfl⟩
  right := ⟨rfl, fun _ r hr => (by cases hr), fun h => (by cases h)⟩

lemma AcceptsOk.complete (h : AcceptsOk ctl) {r : Nat} {res : AcceptResult} {more sqe : Bool}
    {peer : Option Nat} (hr : r ∈ ctl.requests)
    (hopen : acceptsWhileOpen ctl (.complete r res more sqe peer)) :
    AcceptsOk ((ctl.post r res more).processCompletion r res more sqe peer) := by
  obtain ⟨hledger, hrequests⟩ := h
  by_cases hisOpen : ctl.isOpen
  · have howner : (ctl.post r res more).owner = true := hrequests.owner.trans hisOpen
    obtain ⟨hsingle, hcurrent, harmed⟩ := hrequests.current hisOpen r hr
    have hsame : Ledger (ctl.post r res more) ctl.accepted := hledger.same rfl rfl hledger.fresh
    have hposted : RequestsOk (ctl.post r res more) := by
      refine ⟨hrequests.owner, fun _ r' hr' => ?_, hrequests.drained⟩
      cases more with
      | true => exact hrequests.current hisOpen r' hr'
      | false => simp [post, hsingle] at hr'
    rw [processCompletion_of_current (by exact hcurrent) howner harmed, AcceptsOk,
      processAcceptCompletion_accepted]
    refine ⟨hsame.processAcceptCompletion more sqe,
      hposted.processAcceptCompletion hisOpen more sqe fun hmore => ?_⟩
    simp [post, hmore, hsingle]
  · have hisOpen : ctl.isOpen = false := by simpa using hisOpen
    have howner : (ctl.post r res more).owner = false := hrequests.owner.trans hisOpen
    rw [processCompletion_of_not_owner howner]
    -- only a failed completion can come after the close
    cases res with
    | handle fd =>
      rw [acceptsWhileOpen, hisOpen] at hopen
      cases hopen
    | failed errno =>
      have haccepted : (ctl.post r (.failed errno) more).accepted = ctl.accepted :=
        List.append_nil _
      refine ⟨haccepted ▸ hledger.same rfl rfl hledger.fresh, hrequests.owner, fun hopen => ?_,
        hrequests.drained⟩
      have hclosed : ctl.isOpen = true := hopen
      rw [hisOpen] at hclosed
      cases hclosed

lemma AcceptsOk.close (h : AcceptsOk ctl) : AcceptsOk ctl.close := by
  unfold AcceptController.close
  split
  · exact h
  · have hkept : ctl.inHand =
        ((ctl.acceptor.map fun acceptor => { acceptor with inSlot := false }).bind
          (·.result)).toList.flatMap AcceptResult.fds := by
      rw [inHand, Option.bind_map]
      rfl
    refine ⟨h.1.release ?_ (fun fd => ?_) fun hwaits => ?_, rfl, fun hopen => (by cases hopen),
      fun _ => rfl⟩
    · rw [held, held, hkept, List.append_nil]
      exact List.sublist_append_left _ _
    · rw [held, held, hkept]
      simp only [List.count_append, List.count_nil]
      simp only [inHand]
      omega
    · cases hacceptor : ctl.acceptor <;> simp [AcceptController.waits, hacceptor] at hwaits

lemma AcceptsOk.step {a : AcceptAction} (h : AcceptsOk ctl) (hopen : acceptsWhileOpen ctl a)
    (hs : ctl.step a = some ctl') : AcceptsOk ctl' := by
  cases a with
  | accept sqe peer =>
    simp only [AcceptController.step, Option.ite_none_right_eq_some, Option.some.injEq] at hs
    obtain ⟨hnone, rfl⟩ := hs
    rw [AcceptsOk, accept_accepted]
    exact ⟨h.1.accept (by simpa using hnone) sqe, h.2.accept sqe⟩
  | complete r res more sqe peer =>
    simp only [AcceptController.step, Option.ite_none_right_eq_some, Option.some.injEq] at hs
    obtain ⟨hr, rfl⟩ := hs
    exact h.complete hr hopen
  | resume =>
    simp only [AcceptController.step] at hs
    split at hs
    · next acceptor hacceptor =>
      rw [Option.ite_none_right_eq_some, Option.some.injEq] at hs
      obtain ⟨-, rfl⟩ := hs
      refine ⟨h.1.finish _ ?_, h.2.frame rfl rfl rfl rfl rfl h.2.drained⟩
      simp [inHand, hacceptor]
    · cases hs
  | close =>
    simp only [AcceptController.step, Option.some.injEq] at hs
    subst hs
    exact h.close

theorem accepts_conserved {ctl : AcceptController}
    (h : Reaches AcceptController.step (fun ctl a => acceptsWhileOpen ctl a) .init ctl) :
    AcceptsConserved ctl := by
  have hok := h.invariant (P := AcceptsOk) acceptsOk_init fun _ _ _ hok hopen hs => hok.step hopen hs
  refine ⟨List.perm_iff_count.mpr fun fd => ?_, hok.1.order, hok.2.drained⟩
  rw [hok.1.count fd, held]
  simp only [List.count_append]

/-- Three connections come while one `accept` waits. The next `accept` fails at `getpeername`, and
the close finds the third descriptor in the queue. -/
def backlog : List AcceptAction :=
  [.accept true none, .complete 1 (.handle 7) true true none, .resume,
    .complete 1 (.handle 8) true true none, .complete 1 (.handle 9) false true none,
    .accept true (some 107), .close]

def afterBacklog : AcceptController :=
  (run AcceptController.step .init backlog).getD .init

theorem backlog_accepts_conserved :
    (afterBacklog.accepted = [7, 8, 9] ∧ afterBacklog.returned = [.handle 7, .failed 107] ∧
      afterBacklog.closed = [8, 9]) ∧ AcceptsConserved afterBacklog :=
  ⟨by decide, accepts_conserved
    (.of_run (fun ctl a => acceptsWhileOpen ctl a) (fun _ _ h => h) backlog .start rfl)⟩

/-- A connection whose completion is processed after the close. -/
def lateConnection : List AcceptAction :=
  [.accept true none, .close, .complete 1 (.handle 7) false true none]

/-- The generation has moved on, so the descriptor is dropped and stays open. -/
theorem accepts_can_leak : ¬∀ ctl : AcceptController,
    Reaches AcceptController.step (fun _ _ => True) .init ctl → AcceptsConserved ctl := by
  intro h
  have hconserved := h _ (.of_replay lateConnection .start rfl)
  have hplaced := hconserved.placed.length_eq
  revert hplaced
  decide

end GalayKernel.Proofs
