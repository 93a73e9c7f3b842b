import GalayKernel.UringRead

/-!
# Accepting through io_uring

The READ slot of a listening `IOController` and the accept side of `IOUringReactor`
(`kernel/uring_reactor.cc`, `kernel/io_controller.hpp`): a multishot accept keeps posting
connections, which wait in `m_ready_accepts` for the next `accept`. As for reads, a completion is
posted and processed in one step, and the program issues its `accept` calls one after the other.

`peer` is the errno with which `getpeername` fails, when the caller asks for the address.
-/

namespace GalayKernel

/-- What `accept` returns, and `io::handleAccept` finds in a completion: the descriptor, or
`kAcceptFailed` with the errno. -/
inductive AcceptResult where
  | handle (fd : Nat)
  | failed (errno : Nat)
  deriving DecidableEq, Repr

def AcceptResult.fds : AcceptResult → List Nat
  | .handle fd => [fd]
  | .failed _ => []

/-- The `accept` that the program has issued and that has not been resumed. -/
structure Acceptor where
  inSlot : Bool
  result : Option AcceptResult
  deriving DecidableEq, Repr

structure AcceptController where
  isOpen : Bool
  owner : Bool
  generation : Nat
  acceptor : Option Acceptor
  readyAccepts : List Nat
  acceptMultishotArmed : Bool
  acceptResultAssigned : Bool
  /-- the generations of the requests that the kernel has not finished -/
  requests : List Nat
  accepted : List Nat
  returned : List AcceptResult
  /-- the descriptors that the runtime has closed -/
  closed : List Nat

inductive AcceptAction where
  | accept (sqe : Bool) (peer : Option Nat)
  | complete (r : Nat) (res : AcceptResult) (more sqe : Bool) (peer : Option Nat)
  | resume
  | close
  deriving DecidableEq, Repr

namespace AcceptController

def init : AcceptController where
  isOpen := true
  owner := true
  generation := 0
  acceptor := none
  readyAccepts := []
  acceptMultishotArmed := false
  acceptResultAssigned := false
  requests := []
  accepted := []
  returned := []
  closed := []

def tryConsumeAcceptedHandle (ctl : AcceptController) (peer : Option Nat) :
    Option (AcceptController × AcceptResult) :=
  match ctl.readyAccepts with
  | [] => none
  | fd :: rest =>
    match peer with
    | some errno =>
      some ({ ctl with readyAccepts := rest, closed := ctl.closed ++ [fd] }, .failed errno)
    | none => some ({ ctl with readyAccepts := rest }, .handle fd)

/-- `submitMultishotAccept`: the controller and, when nothing was submitted, the errno. -/
def submitMultishotAccept (ctl : AcceptController) (sqe : Bool) :
    AcceptController × Option Nat :=
  if !ctl.isOpen then (ctl, some EINVAL)
  else
    let ctl := { ctl with generation := ctl.generation + 1, owner := true }
    if !sqe then (ctl, some EAGAIN)
    else
      ({ ctl with
        requests := ctl.requests ++ [ctl.generation]
        acceptMultishotArmed := true }, none)

def finish (ctl : AcceptController) (result : Option AcceptResult) : AcceptController :=
  { ctl with
    acceptor := none
    acceptResultAssigned := false
    returned := ctl.returned ++ result.toList }

/-- `co_await accept`: `addAccept`, with the end of the call when it does not suspend. -/
def accept (ctl : AcceptController) (sqe : Bool) (peer : Option Nat) : AcceptController :=
  match ctl.tryConsumeAcceptedHandle peer with
  | some (ctl, result) => ctl.finish result
  | none =>
    if ctl.acceptMultishotArmed then { ctl with acceptor := some ⟨true, none⟩ }
    else
      match ctl.submitMultishotAccept sqe with
      | (ctl, none) => { ctl with acceptor := some ⟨true, none⟩ }
      | (ctl, some errno) => ctl.finish (some (.failed errno))

def assign (ctl : AcceptController) (result : AcceptResult) : AcceptController :=
  { ctl with
    acceptResultAssigned := true
    acceptor := some ⟨true, some result⟩ }

def waits (ctl : AcceptController) : Bool :=
  (ctl.acceptor.any (·.inSlot)) && !ctl.acceptResultAssigned

/-- The first part of `processAcceptCompletion`. -/
def takeCompletion (ctl : AcceptController) (res : AcceptResult) (peer : Option Nat) :
    AcceptController :=
  match res with
  | .handle fd =>
    let ctl := { ctl with readyAccepts := ctl.readyAccepts ++ [fd] }
    if ctl.waits then
      match ctl.tryConsumeAcceptedHandle peer with
      | some (ctl, result) => ctl.assign result
      | none => ctl
    else ctl
  | .failed errno => if ctl.waits && !transient errno then ctl.assign (.failed errno) else ctl

/-- The last part of `processAcceptCompletion`: the request has ended. -/
def rearm (ctl : AcceptController) (sqe : Bool) : AcceptController :=
  if !ctl.isOpen then { ctl with acceptMultishotArmed := false }
  else
    match { ctl with acceptMultishotArmed := false }.submitMultishotAccept sqe with
    | (ctl, none) => ctl
    | (ctl, some errno) => if ctl.waits then ctl.assign (.failed errno) else ctl

def processAcceptCompletion (ctl : AcceptController) (res : AcceptResult)
    (more sqe : Bool) (peer : Option Nat) : AcceptController :=
  if more then ctl.takeCompletion res peer else (ctl.takeCompletion res peer).rearm sqe

def processCompletion (ctl : AcceptController) (r : Nat) (res : AcceptResult)
    (more sqe : Bool) (peer : Option Nat) : AcceptController :=
  if r != ctl.generation || !ctl.owner then ctl
  else if !(ctl.acceptor.any (·.inSlot)) && !ctl.acceptMultishotArmed then ctl
  else ctl.processAcceptCompletion res more sqe peer

def close (ctl : AcceptController) : AcceptController :=
  if !ctl.isOpen then ctl
  else { ctl with
    isOpen := false
    owner := false
    generation := ctl.generation + 1
    acceptor := ctl.acceptor.map fun acceptor => { acceptor with inSlot := false }
    readyAccepts := []
    acceptMultishotArmed := false
    acceptResultAssigned := false
    -- `clearAcceptedHandles`
    closed := ctl.closed ++ ctl.readyAccepts }

/-- The kernel posts a completion, the last one of the request unless there are more. -/
def post (ctl : AcceptController) (r : Nat) (res : AcceptResult) (more : Bool) :
    AcceptController :=
  { ctl with
    requests := if more then ctl.requests else ctl.requests.erase r
    accepted := ctl.accepted ++ res.fds }

def step (ctl : AcceptController) : AcceptAction → Option AcceptController
  | .accept sqe peer => if ctl.acceptor.isNone then some (ctl.accept sqe peer) else none
  | .complete r res more sqe peer =>
    if r ∈ ctl.requests then
      some ((ctl.post r res more).processCompletion r res more sqe peer)
    else none
  | .resume =>
    match ctl.acceptor with
    | some acceptor => if acceptor.result.isSome then some (ctl.finish acceptor.result) else none
    | none => none
  | .close => some ctl.close

end AcceptController

end GalayKernel
