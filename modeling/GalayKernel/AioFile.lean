import GalayKernel.IOError
import Mathlib.Data.List.Basic

/-!
# Batches of file operations

`AioFile` and `AioCommitAwaitable` (`async/aio_file.h`, `async/aio_file.cc`), with the part of
`EpollReactor::processEvent` (`kernel/epoll_reactor.cc`) that collects the completions. The kernel
accepts the first operations of a batch and completes them in any order; `outcome i` is the result
of the `i`-th operation. The task runs on an epoll scheduler and the eventfd is registered.
-/

namespace GalayKernel

inductive AioOpcode where
  | pread
  | pwrite
  deriving DecidableEq, Repr

/-- `struct iocb`, as far as `io_prep_pread` and `io_prep_pwrite` fill it -/
structure Iocb where
  opcode : AioOpcode
  buffer : Nat
  length : Nat
  offset : Nat
  deriving DecidableEq, Repr

/-- `m_pending_cbs` of an `AioFile` -/
structure AioFile where
  pendingCbs : List Iocb
  deriving DecidableEq, Repr

inductive AioStage where
  | committed
  | suspended
  | collecting (results : List Int)
  | resumed (result : Except IOError (List Int))
  deriving DecidableEq, Repr

/-- `AioCommitAwaitable`, and the operations in the kernel -/
structure AioCommit where
  pendingPtrs : List Iocb
  pendingCount : Nat
  stage : AioStage
  /-- what `io_submit` has returned -/
  accepted : Nat
  /-- the positions of the accepted operations that have not been completed -/
  running : List Nat
  /-- the completions that `io_getevents` has not returned: the operation and `res` -/
  completions : List (Nat × Int)
  deriving DecidableEq, Repr

namespace AioFile

def new : AioFile := ⟨[]⟩

def preRead (file : AioFile) (buffer length offset : Nat) : AioFile :=
  ⟨file.pendingCbs ++ [⟨.pread, buffer, length, offset⟩]⟩

def preWrite (file : AioFile) (buffer length offset : Nat) : AioFile :=
  ⟨file.pendingCbs ++ [⟨.pwrite, buffer, length, offset⟩]⟩

def commit (file : AioFile) : AioCommit where
  pendingPtrs := file.pendingCbs
  pendingCount := file.pendingCbs.length
  stage := .committed
  accepted := 0
  running := []
  completions := []

end AioFile

inductive AioAction where
  | submit (ret : Int)
  | complete (i : Nat)
  /-- the eventfd is reported; the `errno` when the read from it fails -/
  | ready (failed : Option Nat)
  | getEvents (count : Nat)
  | getEventsFails (errno : Nat)
  deriving DecidableEq, Repr

namespace AioCommit

/-- `await_ready` and `await_suspend` -/
def submit (s : AioCommit) (ret : Int) : AioCommit :=
  if s.pendingCount = 0 then { s with stage := .resumed (.ok []) }
  else if ret < 0 then { s with stage := .resumed (.error ⟨.kWriteFailed, (-ret).toNat⟩) }
  else { s with
    stage := .suspended
    accepted := ret.toNat
    running := List.range ret.toNat }

/-- The collecting loop has `results`: it goes on, or the task is woken with them. -/
def collected (s : AioCommit) (results : List Int) : AioCommit :=
  { s with stage := if results.length < s.pendingCount then .collecting results
      else .resumed (.ok results) }

def step (outcome : Nat → Int) (s : AioCommit) : AioAction → Option AioCommit
  | .submit ret =>
    match s.stage with
    -- `io_submit` accepts at most what it is given
    | .committed => if (s.pendingCount : Int) < ret then none else some (s.submit ret)
    | _ => none
  | .complete i =>
    if i ∈ s.running then
      some { s with
        running := s.running.erase i
        completions := s.completions ++ [(i, outcome i)] }
    else none
  | .ready failed =>
    match s.stage with
    | .suspended =>
      -- the eventfd becomes readable with the first completion
      if s.completions = [] then none
      else match failed with
        | none => some (s.collected [])
        | some errno => some { s with stage := .resumed (.error ⟨.kReadFailed, errno⟩) }
    | _ => none
  | .getEvents count =>
    match s.stage with
    | .collecting results =>
      if 0 < count ∧ count ≤ s.completions.length ∧ count ≤ s.pendingCount - results.length then
        some ({ s with completions := s.completions.drop count }.collected
          (results ++ (s.completions.take count).map Prod.snd))
      else none
    | _ => none
  | .getEventsFails errno =>
    match s.stage with
    | .collecting _ => some { s with stage := .resumed (.error ⟨.kReadFailed, errno⟩) }
    | _ => none

end AioCommit

end GalayKernel
