import Mathlib.Logic.Function.Basic

/-!
# References to tasks

`TaskRef` and the lifetime of a `TaskState` (`kernel/task.h`, `kernel/task.cc`): the reference
count, the references that a task state holds itself, its deletion, and the coroutine frame, whose
promise holds one more reference.

A `TaskRef` is a place that refers to a task state or to none, and the program gets at it from a
`TaskRef` of its own, through `state()` and the members of the states on the way. A place is used by
one thread at a time, so a step is what one operation on `m_refs` does, and other threads may run
between two steps. An assignment is a release followed by a copy or a move. A state whose last
reference is released is deleted: its members are destroyed in further steps, and then its storage
is free for another task.
-/

namespace GalayKernel

/-- The members of a `TaskState` that are references -/
inductive TaskLink where
  | thenTask
  | nextTask
  deriving DecidableEq, Repr

inductive RefPlace (ι α : Type) where
  /-- in a `Task`, a `JoinHandle`, a `Waker`, a queue or a variable, or released into the slot of a
  ring -/
  | outside (i : ι)
  /-- `m_task` of the promise, in the coroutine frame of `a` -/
  | promise (a : α)
  | link (a : α) (l : TaskLink)
  deriving DecidableEq, Repr

/-- How the program gets at a `TaskRef` -/
inductive RefPath (ι α : Type) where
  | outside (i : ι)
  /-- `taskRefView()` in the coroutine of `a` -/
  | promise (a : α)
  | link (path : RefPath ι α) (l : TaskLink)
  deriving DecidableEq, Repr

inductive StateLife where
  | free
  | live
  | deleting
  deriving DecidableEq, Repr

inductive FrameState where
  | absent
  | suspended
  | running
  deriving DecidableEq, Repr

structure TaskHeap (ι α : Type) where
  life : α → StateLife
  refs : α → Nat
  done : α → Bool
  /-- the coroutine behind `m_handle` -/
  frame : α → FrameState
  /-- `m_state` of the `TaskRef` at a place -/
  ref : RefPlace ι α → Option α

inductive HeapAction (ι α : Type) where
  /-- a coroutine is called, and its `Task` is put to `i` -/
  | getReturnObject (a : α) (i : ι)
  | copy (source target : RefPath ι α)
  | move (source target : RefPath ι α)
  | release (path : RefPath ι α)
  | destroyLink (a : α) (l : TaskLink)
  | free (a : α)
  | resume (path : RefPath ι α)
  | suspend (a : α)
  /-- the coroutine of `a` sets `m_done` in `completeTaskState` -/
  | complete (a : α)
  /-- the frame of `a` is destroyed at its final suspension point, which does not suspend -/
  | finalSuspend (a : α)
  /-- a parent that could not schedule its child sets `m_done` in `completeTaskState` -/
  | failChild (path : RefPath ι α)
  deriving DecidableEq, Repr

def refLimit : Nat := 4294967296

namespace TaskHeap

variable {ι α : Type} [DecidableEq ι] [DecidableEq α]

def empty : TaskHeap ι α where
  life := fun _ => .free
  refs := fun _ => 0
  done := fun _ => false
  frame := fun _ => .absent
  ref := fun _ => none

/-- The place that a path leads to; `none` where a reference on the way is null. Only a coroutine
that runs uses its own promise. -/
def resolve (s : TaskHeap ι α) : RefPath ι α → Option (RefPlace ι α)
  | .outside i => some (.outside i)
  | .promise a => if s.frame a = .running then some (.promise a) else none
  | .link path l => ((s.resolve path).bind s.ref).map (RefPlace.link · l)

def state (s : TaskHeap ι α) (path : RefPath ι α) : Option α := (s.resolve path).bind s.ref

/-- The task states that are read on the way to a place -/
def visited (s : TaskHeap ι α) : RefPath ι α → List α
  | .outside _ | .promise _ => []
  | .link path _ => s.visited path ++ (s.state path).toList

def setRef (s : TaskHeap ι α) (p : RefPlace ι α) (x : Option α) : TaskHeap ι α :=
  { s with ref := Function.update s.ref p x }

def setFrame (s : TaskHeap ι α) (a : α) (frame : FrameState) : TaskHeap ι α :=
  { s with frame := Function.update s.frame a frame }

def setDone (s : TaskHeap ι α) (a : α) : TaskHeap ι α :=
  { s with done := Function.update s.done a true }

/-- `retain()`, for a `TaskRef` that refers to `x` -/
def retain (s : TaskHeap ι α) : Option α → TaskHeap ι α
  | none => s
  | some a => { s with refs := Function.update s.refs a ((s.refs a + 1) % refLimit) }

def release (s : TaskHeap ι α) (p : RefPlace ι α) : TaskHeap ι α :=
  match s.ref p with
  | none => s
  | some a =>
    { s.setRef p none with
      refs := Function.update s.refs a ((s.refs a + (refLimit - 1)) % refLimit)
      life := if s.refs a = 1 then Function.update s.life a .deleting else s.life }

/-- `get_return_object`: one reference for the promise and one for the `Task` -/
def getReturnObject (s : TaskHeap ι α) (a : α) (i : ι) : TaskHeap ι α where
  life := Function.update s.life a .live
  refs := Function.update s.refs a 2
  done := Function.update s.done a false
  frame := Function.update s.frame a .suspended
  ref := fun
    | .outside j => if j = i then some a else s.ref (.outside j)
    | .promise b => if b = a then some a else s.ref (.promise b)
    | .link b l => if b = a then none else s.ref (.link b l)

/-- The promise's own reference is only copied from. -/
def writable : RefPlace ι α → Bool
  | .promise _ => false
  | _ => true

def step (s : TaskHeap ι α) : HeapAction ι α → Option (TaskHeap ι α)
  | .getReturnObject a i =>
    if s.life a = .free ∧ s.ref (.outside i) = none then some (s.getReturnObject a i) else none
  | .copy source target =>
    match s.resolve source, s.resolve target with
    | some p, some q =>
      if writable q ∧ s.ref q = none then some ((s.setRef q (s.ref p)).retain (s.ref p)) else none
    | _, _ => none
  | .move source target =>
    match s.resolve source, s.resolve target with
    | some p, some q =>
      if writable p ∧ writable q ∧ s.ref q = none then
        some ((s.setRef q (s.ref p)).setRef p none)
      else none
    | _, _ => none
  | .release path =>
    match s.resolve path with
    | some p => if writable p then some (s.release p) else none
    | none => none
  | .destroyLink a l =>
    -- members are destroyed in the reverse order of their declaration
    if s.life a = .deleting ∧ (l = .thenTask → s.ref (.link a .nextTask) = none) then
      some (s.release (.link a l))
    else none
  | .free a =>
    if s.life a = .deleting ∧ s.ref (.link a .nextTask) = none ∧ s.ref (.link a .thenTask) = none
    then some { s with life := Function.update s.life a .free } else none
  | .resume path =>
    match s.state path with
    | none => some s
    | some a =>
      if s.done a then some s
      else if s.frame a = .suspended then some (s.setFrame a .running)
      else none
  | .suspend a => if s.frame a = .running then some (s.setFrame a .suspended) else none
  | .complete a => if s.frame a = .running then some (s.setDone a) else none
  | .finalSuspend a =>
    if s.frame a = .running ∧ s.done a then
      some ((s.setFrame a .absent).release (.promise a))
    else none
  | .failChild path =>
    match s.state path with
    | none => some s
    | some a => some (s.setDone a)

end TaskHeap

end GalayKernel
