import GalayKernel.Errno
import Mathlib.Logic.Function.Basic
import Mathlib.Data.List.Basic

/-!
# Reads through io_uring

The READ slot of `IOController` (`kernel/io_controller.hpp`, `kernel/io_scheduler.hpp`) and the
read side of `IOUringReactor` (`kernel/uring_reactor.cc`) for sockets: `recv` on a multishot
request with provided buffers, `readv` on a one-shot request, and sequences (also state machines)
whose steps are reads. Any number of controllers share the buffer ring of one reactor.

All of this runs on the thread of one scheduler. A completion is posted and processed in one step
of the model: the completion queue is a FIFO, so the steps are in the order in which the kernel
posts. On one controller the program issues its reads one after the other, so a read begins only
when the previous one has been resumed, and no sequence owns the slot then.

The reactions of a sequence to its results are part of the action: `next` is the read that the
sequence asks for after a completion, `script` lists the results of the reads that
`tryImmediateReadv` makes at once, each with the read that follows.
-/

namespace GalayKernel

variable {ι β : Type}

def kRecvBufferCount : Nat := 256

/-- `cqe->res` of a read: the number of bytes, given with the bytes, or `-errno`. -/
inductive CqeRes (β : Type) where
  | bytes (data : List β)
  | failed (errno : Nat)
  deriving DecidableEq, Repr

def CqeRes.data : CqeRes β → List β
  | .bytes data => data
  | .failed _ => []

structure RecvCqe (β : Type) where
  res : CqeRes β
  more : Bool
  /-- the buffer id, when `IORING_CQE_F_BUFFER` is set -/
  buffer : Option Nat
  deriving DecidableEq, Repr

/-- `ReadyRecvChunk`; `data` is what has not been consumed. -/
inductive ReadyRecvChunk (β : Type) where
  | buffer (bid : Nat) (data : List β)
  | eof
  | error (errno : Nat)
  deriving DecidableEq, Repr

/-- What a read returns. A byte is `none` when the buffer of the read was not filled from the
socket. -/
inductive ReadResult (β : Type) where
  | bytes (data : List (Option β))
  | failed (errno : Nat)
  | disconnect
  /-- `kRecvFailed`, because nothing could be submitted -/
  | refused (errno : Nat)
  | timeout
  deriving DecidableEq, Repr

/-- What `tryConsumeReadyRecv` does: its result, the chunks that remain and the buffers that go
back to the ring. -/
structure Consumed (β : Type) where
  result : CqeRes β
  rest : List (ReadyRecvChunk β)
  released : List Nat
  deriving DecidableEq, Repr

/-- The loop of `tryConsumeReadyRecv`, with the bytes that have been copied so far. -/
def consumeReadyRecvs (capacity : Nat) (total : List β) : List (ReadyRecvChunk β) → Consumed β
  | [] => ⟨.bytes total, [], []⟩
  | .eof :: rest =>
    if total.isEmpty then ⟨.bytes [], rest, []⟩ else ⟨.bytes total, .eof :: rest, []⟩
  | .error errno :: rest =>
    if total.isEmpty then ⟨.failed errno, rest, []⟩ else ⟨.bytes total, .error errno :: rest, []⟩
  | .buffer bid data :: rest =>
    let remaining := capacity - total.length
    let copied := total ++ data.take remaining
    let left := data.drop remaining
    if left.isEmpty then
      if capacity ≤ copied.length then ⟨.bytes copied, rest, [bid]⟩
      else
        -- the loop looks at the length of the released chunk, which is 0
        let consumed := consumeReadyRecvs capacity copied rest
        { consumed with released := bid :: consumed.released }
    else ⟨.bytes copied, .buffer bid left :: rest, []⟩

def tryConsumeReadyRecv (readyRecvs : List (ReadyRecvChunk β)) (capacity : Nat) :
    Option (Consumed β) :=
  if readyRecvs.isEmpty then none else some (consumeReadyRecvs capacity [] readyRecvs)

/-- The chunk that `processRecvCompletion` stages for a completion. -/
def RecvCqe.chunk (cqe : RecvCqe β) : Option (ReadyRecvChunk β) :=
  match cqe.res with
  | .bytes [] => some .eof
  | .bytes (first :: rest) =>
    match cqe.buffer with
    | some bid =>
      if bid < kRecvBufferCount then some (.buffer bid (first :: rest)) else some (.error EINVAL)
    | none => some (.error EINVAL)
  | .failed errno => if transient errno || errno == ENOBUFS then none else some (.error errno)

/-- Whether `processRecvCompletion` tries to hand the staged chunks to the waiting `recv`. -/
def RecvCqe.delivers (cqe : RecvCqe β) : Bool :=
  match cqe.res with
  | .bytes _ => true
  | .failed errno => errno == ENOBUFS || !transient errno

/-- The bytes of a one-shot read; they are in the buffer of the read only if it is its own. -/
def received (own : Bool) (data : List β) : List (Option β) :=
  data.map fun b => if own then some b else none

def CqeRes.result : CqeRes β → ReadResult β
  | .bytes data => .bytes (received true data)
  | .failed errno => .failed errno

/-- `io::handleRecv`: the result, or `none` when the operation is not ready. -/
def handleRecv (own : Bool) : CqeRes β → Option (ReadResult β)
  | .bytes data => some (.bytes (received own data))
  | .failed errno => if transient errno then none else some (.failed errno)

def handleReadv (own : Bool) : CqeRes β → Option (ReadResult β)
  | .bytes [] => some .disconnect
  | .bytes (first :: rest) => some (.bytes (received own (first :: rest)))
  | .failed errno => if transient errno then none else some (.failed errno)

inductive SequenceRead where
  | recv
  | readv
  deriving DecidableEq, Repr

/-- What `processCompletion` hands to a sequence. The completion of a poll request stands for a
read that is still to be made. -/
def SequenceRead.result (active : SequenceRead) (own : Bool) (res : CqeRes β) :
    Option (ReadResult β) :=
  match active, res with
  | .recv, res => handleRecv own res
  | .readv, .bytes _ => none
  | .readv, .failed errno => handleReadv own (.failed errno)

inductive ReadKind where
  | recv (capacity : Nat)
  | readv
  | sequence (active : SequenceRead)
  deriving DecidableEq, Repr

/-- The read that the program has issued and that has not been resumed. -/
structure Reader (β : Type) where
  call : Nat
  kind : ReadKind
  timed : Bool
  inSlot : Bool
  result : Option (ReadResult β)
  woken : Bool
  timedOut : Bool
  deriving DecidableEq, Repr

def Reader.init (call : Nat) (kind : ReadKind) (timed : Bool) : Reader β where
  call := call
  kind := kind
  timed := timed
  inSlot := true
  result := none
  woken := false
  timedOut := false

/-- The result of `await_resume`. A sequence has been given its results one by one. -/
def Reader.outcome (rd : Reader β) : List (ReadResult β) :=
  match rd.kind with
  | .recv _ | .readv => if rd.timedOut then [.timeout] else rd.result.toList
  | .sequence _ => []

inductive RequestKind where
  /-- `io_uring_prep_recv_multishot` with `IOSQE_BUFFER_SELECT` -/
  | multishotRecv
  /-- `io_uring_prep_recv` and `io_uring_prep_recvmsg` -/
  | recv
  | poll
  deriving DecidableEq, Repr

def SequenceRead.request : SequenceRead → RequestKind
  | .recv => .recv
  | .readv => .poll

structure UringRequest where
  kind : RequestKind
  generation : Nat
  /-- the number of the read that has submitted it -/
  submitter : Nat
  deriving DecidableEq, Repr

/-- The completions that the kernel posts for a request. A receive into a provided buffer carries
the buffer, one of those in the ring, exactly when it carries bytes. -/
def RequestKind.posts (kind : RequestKind) (cqe : RecvCqe β) (ring : List Nat) : Bool :=
  match kind with
  | .multishotRecv =>
    match cqe.res, cqe.buffer with
    | .bytes (_ :: _), some bid => bid ∈ ring && bid < kRecvBufferCount
    | .bytes [], none => true
    | .failed _, none => true
    | _, _ => false
  | .recv => !cqe.more && cqe.buffer.isNone
  | .poll => !cqe.more && cqe.buffer.isNone && cqe.res.data.isEmpty

/-- The READ side of an `IOController`. -/
structure UringController (β : Type) where
  isOpen : Bool
  owner : Bool
  generation : Nat
  reader : Option (Reader β)
  readyRecvs : List (ReadyRecvChunk β)
  recvMultishotArmed : Bool
  recvResultAssigned : Bool
  requests : List UringRequest
  calls : Nat
  /-- the bytes that the kernel has taken from the socket -/
  taken : List β
  /-- the results of the multishot completions -/
  posted : List (CqeRes β)
  /-- what the program has been given -/
  returned : List (ReadResult β)
  /-- the completions that were not dropped: applied to a read, or staged -/
  dispatched : List (UringRequest × Option Nat)

inductive ReadAction (β : Type) where
  | recv (capacity : Nat) (timed sqe : Bool)
  | readv (timed sqe : Bool)
  | sequence (first : SequenceRead) (timed : Bool)
      (script : List (CqeRes β × Option SequenceRead)) (sqe : Bool)
  | complete (r : UringRequest) (cqe : RecvCqe β) (next : Option SequenceRead)
      (script : List (CqeRes β × Option SequenceRead)) (sqe : Bool)
  | expire
  | resume
  | close
  deriving DecidableEq, Repr

def ReadAction.buffer : ReadAction β → Option Nat
  | .complete _ cqe _ _ _ => cqe.buffer
  | _ => none

namespace UringController

def init : UringController β where
  isOpen := true
  owner := true
  generation := 0
  reader := none
  readyRecvs := []
  recvMultishotArmed := false
  recvResultAssigned := false
  requests := []
  calls := 0
  taken := []
  posted := []
  returned := []
  dispatched := []

def advanceSqeGeneration (ctl : UringController β) : UringController β :=
  { ctl with generation := ctl.generation + 1, owner := true }

/-- `makeSqeRequest` and the submission queue entry. -/
def submit (ctl : UringController β) (kind : RequestKind) (call : Nat) : UringController β :=
  { ctl with requests := ctl.requests ++ [⟨kind, ctl.generation, call⟩] }

def awaitable (ctl : UringController β) : Option (Reader β) :=
  ctl.reader.filter (·.inSlot)

def finish (ctl : UringController β) (rd : Reader β) : UringController β :=
  let ctl := match rd.kind with
    | .recv _ => { ctl with recvResultAssigned := false }
    | .readv | .sequence _ => if rd.inSlot then ctl.advanceSqeGeneration else ctl
  { ctl with reader := none, returned := ctl.returned ++ rd.outcome }

def consume (ctl : UringController β) (rd : Reader β) (consumed : Consumed β) :
    UringController β × Reader β :=
  ({ ctl with readyRecvs := consumed.rest },
    { rd with result := some consumed.result.result })

/-- `co_await recv`: `addRecv`, with the end of the read when it does not suspend. -/
def recv (ctl : UringController β) (capacity : Nat) (timed sqe : Bool) :
    UringController β × List Nat :=
  let rd := Reader.init ctl.calls (.recv capacity) timed
  let ctl := { ctl with calls := ctl.calls + 1 }
  match tryConsumeReadyRecv ctl.readyRecvs capacity with
  | some consumed =>
    let (ctl, rd) := ctl.consume rd consumed
    (ctl.finish rd, consumed.released)
  | none =>
    if ctl.recvMultishotArmed then ({ ctl with reader := some rd }, [])
    -- `submitMultishotRecv`
    else if !ctl.isOpen then (ctl.finish { rd with result := some (.refused EINVAL) }, [])
    else if !sqe then
      (ctl.advanceSqeGeneration.finish { rd with result := some (.refused EAGAIN) }, [])
    else
      ({ ctl.advanceSqeGeneration.submit .multishotRecv rd.call with
        recvMultishotArmed := true
        reader := some rd }, [])

def readv (ctl : UringController β) (timed sqe : Bool) : UringController β :=
  let rd := Reader.init ctl.calls .readv timed
  let ctl := { ctl with calls := ctl.calls + 1 }.advanceSqeGeneration
  if sqe then { ctl.submit .recv rd.call with reader := some rd }
  else ctl.finish { rd with result := some (.refused EAGAIN) }

/-- The end of `submitSequenceSqe`; `false` when there is no submission queue entry. -/
def submitSequenceStep (ctl : UringController β) (rd : Reader β) (active : SequenceRead)
    (sqe : Bool) : UringController β × Bool :=
  let rd := { rd with kind := .sequence active, inSlot := sqe }
  if sqe then ({ ctl.submit active.request rd.call with reader := some rd }, true)
  else ({ ctl with reader := some rd }, false)

def submitSequenceSqe (ctl : UringController β) (rd : Reader β) (active : SequenceRead)
    (script : List (CqeRes β × Option SequenceRead)) (sqe : Bool) : UringController β × Bool :=
  match script, active with
  | (res, next) :: script, .readv =>
    match handleReadv true res with
    -- `tryImmediateReadv` returns false
    | none => ctl.submitSequenceStep rd active sqe
    | some result =>
      let ctl := { ctl with
        taken := ctl.taken ++ res.data
        returned := ctl.returned ++ [result] }
      match next with
      | none => ({ ctl with reader := some { rd with woken := true } }, true)
      | some active => submitSequenceSqe ctl rd active script sqe
  | _, _ => ctl.submitSequenceStep rd active sqe

def sequence (ctl : UringController β) (first : SequenceRead) (timed : Bool)
    (script : List (CqeRes β × Option SequenceRead)) (sqe : Bool) : UringController β :=
  let rd := { Reader.init ctl.calls (.sequence first) timed with inSlot := false }
  let (ctl, submitted) :=
    { ctl with calls := ctl.calls + 1 }.submitSequenceSqe rd first script sqe
  if submitted then ctl else ctl.finish rd

def deliver (ctl : UringController β) (cqe : RecvCqe β) : UringController β × List Nat :=
  match ctl.awaitable with
  | some rd =>
    match rd.kind with
    | .recv capacity =>
      if !ctl.recvResultAssigned && cqe.delivers then
        match tryConsumeReadyRecv ctl.readyRecvs capacity with
        | some consumed =>
          let (ctl, rd) := ctl.consume rd consumed
          ({ ctl with
            recvResultAssigned := true
            reader := some { rd with woken := true } }, consumed.released)
        | none => (ctl, [])
      else (ctl, [])
    | .readv | .sequence _ => (ctl, [])
  | none => (ctl, [])

def processRecvCompletion (ctl : UringController β) (cqe : RecvCqe β) :
    UringController β × List Nat :=
  let ctl := { ctl with readyRecvs := ctl.readyRecvs ++ cqe.chunk.toList }
  let (ctl, released) := ctl.deliver cqe
  ({ ctl with recvMultishotArmed := ctl.recvMultishotArmed && cqe.more }, released)

def completeReadv (ctl : UringController β) (rd : Reader β) (r : UringRequest) (cqe : RecvCqe β)
    (sqe : Bool) : UringController β :=
  match handleReadv (r.submitter == rd.call) cqe.res with
  | some result => { ctl with reader := some { rd with result := some result, woken := true } }
  | none =>
    if sqe then ctl.submit .recv rd.call
    else { ctl with reader := some { rd with result := some (.refused EAGAIN), woken := true } }

def completeSequence (ctl : UringController β) (rd : Reader β) (active : SequenceRead)
    (r : UringRequest) (cqe : RecvCqe β) (next : Option SequenceRead)
    (script : List (CqeRes β × Option SequenceRead)) (sqe : Bool) : UringController β :=
  let rd := { rd with inSlot := false }
  let ctl := { ctl.advanceSqeGeneration with reader := some rd }
  let (ctl, submitted) := match active.result (r.submitter == rd.call) cqe.res with
    | none => ctl.submitSequenceSqe rd active script sqe
    | some result =>
      let ctl := { ctl with returned := ctl.returned ++ [result] }
      match next with
      | none => ({ ctl with reader := some { rd with woken := true } }, true)
      | some active => ctl.submitSequenceSqe rd active script sqe
  if submitted then ctl
  else { ctl with reader := ctl.reader.map fun rd => { rd with woken := true } }

def dispatch (ctl : UringController β) (r : UringRequest) (call : Option Nat) :
    UringController β :=
  { ctl with dispatched := ctl.dispatched ++ [(r, call)] }

def processCompletion (ctl : UringController β) (r : UringRequest) (cqe : RecvCqe β)
    (next : Option SequenceRead) (script : List (CqeRes β × Option SequenceRead)) (sqe : Bool) :
    UringController β × List Nat :=
  if r.generation != ctl.generation || !ctl.owner then (ctl, [])
  else
    match ctl.awaitable with
    | none =>
      if ctl.recvMultishotArmed then (ctl.dispatch r none).processRecvCompletion cqe
      else (ctl, [])
    | some rd =>
      match rd.kind with
      | .recv _ => (ctl.dispatch r none).processRecvCompletion cqe
      | .readv => ((ctl.dispatch r (some rd.call)).completeReadv rd r cqe sqe, [])
      | .sequence active =>
        ((ctl.dispatch r (some rd.call)).completeSequence rd active r cqe next script sqe, [])

def post (ctl : UringController β) (r : UringRequest) (cqe : RecvCqe β) : UringController β :=
  { ctl with
    requests := if cqe.more then ctl.requests else ctl.requests.erase r
    taken := ctl.taken ++ cqe.res.data
    posted := if r.kind = .multishotRecv then ctl.posted ++ [cqe.res] else ctl.posted }

def bids (readyRecvs : List (ReadyRecvChunk β)) : List Nat :=
  readyRecvs.filterMap fun
    | .buffer bid _ => some bid
    | _ => none

def close (ctl : UringController β) : UringController β × List Nat :=
  if !ctl.isOpen then (ctl, [])
  else
    ({ ctl with
      isOpen := false
      owner := false
      generation := ctl.generation + 1
      reader := ctl.reader.map fun rd => { rd with inSlot := false }
      readyRecvs := []
      recvMultishotArmed := false
      recvResultAssigned := false }, bids ctl.readyRecvs)

/-- One step of a controller, with the buffers that go back to the ring. -/
def step (ring : List Nat) (ctl : UringController β) :
    ReadAction β → Option (UringController β × List Nat)
  | .recv capacity timed sqe =>
    if ctl.reader.isNone then some (ctl.recv capacity timed sqe) else none
  | .readv timed sqe => if ctl.reader.isNone then some (ctl.readv timed sqe, []) else none
  | .sequence first timed script sqe =>
    if ctl.reader.isNone then some (ctl.sequence first timed script sqe, []) else none
  | .complete r cqe next script sqe =>
    if r ∈ ctl.requests && r.kind.posts cqe ring then
      some ((ctl.post r cqe).processCompletion r cqe next script sqe)
    else none
  | .expire =>
    match ctl.reader with
    | some rd =>
      if rd.timed && !rd.timedOut then
        some ({ ctl with reader := some { rd with timedOut := true, woken := true } }, [])
      else none
    | none => none
  | .resume =>
    match ctl.reader with
    | some rd => if rd.woken then some (ctl.finish rd, []) else none
    | none => none
  | .close => some ctl.close

end UringController

structure UringReads (ι β : Type) where
  controllers : ι → UringController β
  ring : List Nat
  /-- the buffers that completions have handed over -/
  handedOver : List Nat
  recycled : List Nat

namespace UringReads

def init : UringReads ι β where
  controllers := fun _ => .init
  ring := List.range kRecvBufferCount
  handedOver := []
  recycled := []

def step [DecidableEq ι] (s : UringReads ι β) (a : ι × ReadAction β) : Option (UringReads ι β) :=
  ((s.controllers a.1).step s.ring a.2).map fun (ctl, released) =>
    { controllers := Function.update s.controllers a.1 ctl
      ring := s.ring.diff a.2.buffer.toList ++ released
      handedOver := s.handedOver ++ a.2.buffer.toList
      recycled := s.recycled ++ released }

end UringReads

end GalayKernel
