import GalayKernel.Errno
import GalayKernel.KqueueReactor

/-!
# Request tokens of io_uring

`SqeRequestToken` and `SqeTokenArena` (`kernel/io_controller.hpp`) with the functions of
`IOUringReactor` (`kernel/uring_reactor.cc`) that take a token from an arena and give it back: the
submissions, and `processCompletion`. An `IOController` has an arena for each of its slots, whose
tokens are numbered in the order in which they are allocated.

The kernel is given by the completions that it may post for a request. What `processCompletion` does
with a result is left open: it may advance generations and submit new requests.
-/

namespace GalayKernel

structure CqeFlags where
  notification : Bool
  more : Bool
  deriving DecidableEq, Repr

/-- What the kernel has still to post for a request. -/
inductive SqeProtocol where
  | oneShot
  | multishot
  | zeroCopy
  /-- a zero-copy send whose result has been posted -/
  | notification
  deriving DecidableEq, Repr

/-- The completions that the kernel may post for a request, and what it has to post afterwards. -/
def SqeProtocol.posts : SqeProtocol → CqeFlags → Option (Option SqeProtocol)
  | .oneShot, ⟨false, false⟩ => some none
  | .multishot, ⟨false, true⟩ => some (some .multishot)
  | .multishot, ⟨false, false⟩ => some none
  | .zeroCopy, ⟨false, true⟩ => some (some .notification)
  | .zeroCopy, ⟨false, false⟩ => some none
  | .notification, ⟨true, false⟩ => some none
  | _, _ => none

structure SqeRequest where
  token : Nat
  protocol : SqeProtocol
  /-- the awaitable whose operation it carries out -/
  submitter : Nat
  deriving DecidableEq, Repr

structure SqeRequestToken where
  /-- `state` is not null -/
  bound : Bool
  generation : Nat
  persistent : Bool
  notifyExpected : Bool
  notifyReceived : Bool
  resultCompleted : Bool
  deriving DecidableEq, Repr

namespace SqeRequestToken

def cleared : SqeRequestToken := ⟨false, 0, false, false, false, false⟩

/-- The first part of `processCompletion`: the token, and whether the guard will recycle it. -/
def complete (token : SqeRequestToken) (flags : CqeFlags) : SqeRequestToken × Bool :=
  if flags.notification then ({ token with notifyReceived := true }, token.resultCompleted)
  else if token.persistent then
    if flags.more then (token, false) else ({ token with persistent := false }, true)
  else if token.notifyExpected then
    ({ token with resultCompleted := true }, token.notifyReceived)
  else (token, true)

end SqeRequestToken

def kSendZcThreshold : Nat := 4096

def shouldUseSendZc (sendZcSupported : Bool) (length : Nat) : Bool :=
  sendZcSupported && kSendZcThreshold ≤ length

/-- A call of `addAccept`, `addConnect`, … or `submitSequenceSqe` that asks for a token. -/
structure SqeSubmission where
  type : KqueueEventType
  sequence : Bool
  length : Nat
  /-- the arena can grow -/
  memory : Bool
  hasSqe : Bool
  submitter : Nat
  deriving DecidableEq, Repr

namespace SqeSubmission

def protocol (sendZcSupported : Bool) (sub : SqeSubmission) : SqeProtocol :=
  match sub.type with
  | .accept | .recv => if sub.sequence then .oneShot else .multishot
  | .send => if shouldUseSendZc sendZcSupported sub.length then .zeroCopy else .oneShot
  | _ => .oneShot

/-- The token of the request; for a `send` this is `prepareSendSqe`. -/
def prepare (sendZcSupported : Bool) (sub : SqeSubmission) (token : SqeRequestToken) :
    SqeRequestToken :=
  match sub.type with
  | .accept | .recv => if sub.sequence then token else { token with persistent := true }
  | .send =>
    { token with
      notifyExpected := shouldUseSendZc sendZcSupported sub.length
      notifyReceived := false
      resultCompleted := false }
  | _ => token

end SqeSubmission

/-- `SqeTokenArena` with its `SqeState`, and the requests in the kernel that carry its tokens. The
last three fields record the history. -/
structure SqeTokenArena where
  tokens : Nat → SqeRequestToken
  size : Nat
  free : List Nat
  generation : Nat
  owned : Bool
  requests : List SqeRequest
  /-- tokens that were not recycled at their last completion -/
  kept : List Nat
  acquired : Nat → Nat
  recycled : Nat → Nat

namespace SqeTokenArena

def kTokenCount : Nat := 8

def grow (a : SqeTokenArena) : SqeTokenArena :=
  { a with
    size := a.size + kTokenCount
    free := (List.range' a.size kTokenCount).reverse ++ a.free }

def new : SqeTokenArena :=
  grow
    { tokens := fun _ => .cleared
      size := 0
      free := []
      generation := 1
      owned := true
      requests := []
      kept := []
      acquired := fun _ => 0
      recycled := fun _ => 0 }

def setToken (a : SqeTokenArena) (t : Nat) (token : SqeRequestToken) : SqeTokenArena :=
  { a with tokens := Function.update a.tokens t token }

def acquire (a : SqeTokenArena) (memory : Bool) : Option (Nat × SqeTokenArena) :=
  let a := if a.free = [] ∧ memory then a.grow else a
  match a.free with
  | [] => none
  | t :: rest =>
    some (t, { a.setToken t { a.tokens t with bound := true, generation := a.generation } with
      free := rest
      acquired := Function.update a.acquired t (a.acquired t + 1) })

def recycle (a : SqeTokenArena) (t : Nat) : SqeTokenArena :=
  { a.setToken t .cleared with
    free := t :: a.free
    recycled := Function.update a.recycled t (a.recycled t + 1) }

def advanceSqeGeneration (a : SqeTokenArena) : SqeTokenArena :=
  { a with generation := a.generation + 1, owned := true }

def clearSqeState (a : SqeTokenArena) : SqeTokenArena :=
  { a with generation := a.generation + 1, owned := false }

def rebindSqeState (a : SqeTokenArena) : SqeTokenArena := { a with owned := true }

def submit (sendZcSupported : Bool) (a : SqeTokenArena) (sub : SqeSubmission) :
    Int × SqeTokenArena :=
  let protocol := sub.protocol sendZcSupported
  -- `submitMultishotAccept` and `submitMultishotRecv` begin a new generation
  let a := if protocol = .multishot then a.advanceSqeGeneration else a
  match a.acquire sub.memory with
  | none => (-ENOMEM, a)
  | some (t, a) =>
    if !sub.hasSqe then (-EAGAIN, a.recycle t)
    else
      (0, { a.setToken t (sub.prepare sendZcSupported (a.tokens t)) with
        requests := a.requests ++ [⟨t, protocol, sub.submitter⟩] })

/-- Whether `processCompletion` gets past its stale checks. -/
def applies (a : SqeTokenArena) (token : SqeRequestToken) (flags : CqeFlags) : Bool :=
  token.bound && a.generation == token.generation && a.owned && !flags.notification

/-- The kernel posts a completion for the request at position `i`, and `processCompletion` updates
the token. -/
def post (a : SqeTokenArena) (i : Nat) (r : SqeRequest) (flags : CqeFlags)
    (remaining : Option SqeProtocol) : SqeTokenArena :=
  { a.setToken r.token ((a.tokens r.token).complete flags).1 with
    requests := match remaining with
      | some protocol => a.requests.set i { r with protocol }
      | none => a.requests.eraseIdx i }

/-- The end of `processCompletion`: the destructor of the guard. -/
def leave (a : SqeTokenArena) (t : Nat) (recycles : Bool) (remaining : Option SqeProtocol) :
    SqeTokenArena :=
  if recycles then a.recycle t
  else if remaining.isNone then { a with kept := a.kept ++ [t] }
  else a

end SqeTokenArena

structure UringTokens where
  arena : IOSlot → SqeTokenArena

inductive SqeCall where
  | advanceSqeGeneration (slot : IOSlot)
  /-- `addClose`, and the destructor of the controller -/
  | invalidateSqeRequests
  | rebindSqeState
  | submit (sub : SqeSubmission)
  deriving DecidableEq, Repr

inductive TokenAction where
  | call (c : SqeCall)
  | complete (slot : IOSlot) (i : Nat) (flags : CqeFlags) (calls : List SqeCall)
  deriving DecidableEq, Repr

namespace UringTokens

def new : UringTokens := ⟨fun _ => .new⟩

def setArena (s : UringTokens) (slot : IOSlot) (a : SqeTokenArena) : UringTokens :=
  ⟨Function.update s.arena slot a⟩

def call (sendZcSupported : Bool) (s : UringTokens) : SqeCall → UringTokens
  | .advanceSqeGeneration slot => s.setArena slot (s.arena slot).advanceSqeGeneration
  | .invalidateSqeRequests => ⟨fun slot => (s.arena slot).clearSqeState⟩
  | .rebindSqeState => ⟨fun slot => (s.arena slot).rebindSqeState⟩
  | .submit sub =>
    s.setArena sub.type.slot ((s.arena sub.type.slot).submit sendZcSupported sub).2

def complete (sendZcSupported : Bool) (s : UringTokens) (slot : IOSlot) (i : Nat) (r : SqeRequest)
    (flags : CqeFlags) (remaining : Option SqeProtocol) (calls : List SqeCall) : UringTokens :=
  let posted := s.setArena slot ((s.arena slot).post i r flags remaining)
  let called := calls.foldl (call sendZcSupported) posted
  called.setArena slot ((called.arena slot).leave r.token
    (((s.arena slot).tokens r.token).complete flags).2 remaining)

def step (sendZcSupported : Bool) (s : UringTokens) : TokenAction → Option UringTokens
  | .call c => some (s.call sendZcSupported c)
  | .complete slot i flags calls =>
    match (s.arena slot).requests[i]? with
    | none => none
    | some r =>
      match r.protocol.posts flags with
      | none => none
      | some remaining =>
        -- a completion that is dropped makes no calls
        if calls ≠ [] ∧ !(s.arena slot).applies ((s.arena slot).tokens r.token) flags then none
        else some (s.complete sendZcSupported slot i r flags remaining calls)

end UringTokens

end GalayKernel
