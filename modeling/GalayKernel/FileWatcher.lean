import GalayKernel.Errno
import GalayKernel.IOError
import GalayKernel.Lib.Bytes

/-!
# Watching files with inotify

`FileWatcher` (`async/file_watcher.cc`) on Linux. Every `watch()` waits for one read from the
inotify descriptor into the buffer of the watcher. The epoll reactor does the read itself
(`processEvent` in `kernel/epoll_reactor.cc`), io_uring completes it (`handleFileWatch` in
`kernel/io_handlers.hpp`). Both take the first record from the buffer.
-/

namespace GalayKernel

open Bytes

/-- The bits of an inotify mask, with the event of `FileWatchEvent` that each one stands for. -/
def inotifyEvents : List (UInt32 × UInt32) :=
  [ -- `IN_ACCESS`, `IN_MODIFY`, `IN_ATTRIB`, `IN_CLOSE_WRITE`
    (0x001, 0x001), (0x002, 0x002), (0x004, 0x004), (0x008, 0x008),
    -- `IN_CLOSE_NOWRITE`, `IN_OPEN`, `IN_MOVED_FROM`, `IN_MOVED_TO`
    (0x010, 0x010), (0x020, 0x020), (0x040, 0x040), (0x080, 0x080),
    -- `IN_CREATE`, `IN_DELETE`, `IN_DELETE_SELF`, `IN_MOVE_SELF`
    (0x100, 0x100), (0x200, 0x200), (0x400, 0x400), (0x800, 0x800)]

def IN_ISDIR : UInt32 := 0x40000000

def fileWatchEvent (mask : UInt32) : UInt32 :=
  inotifyEvents.foldl (fun events bit => if mask &&& bit.1 ≠ 0 then events ||| bit.2 else events) 0

structure FileWatchResult where
  event : UInt32
  name : List UInt8
  isDir : Bool
  deriving DecidableEq, Repr

/-- An `inotify_event`. A name is padded with zeros, at least with one. -/
structure InotifyEvent where
  wd : Nat
  mask : UInt32
  cookie : Nat
  name : List UInt8
  padding : Nat
  name_ne_zero : ∀ b ∈ name, b ≠ 0
  terminated : name ≠ [] → 0 < padding
  len_lt : name.length + padding < 2 ^ 32

namespace InotifyEvent

def len (r : InotifyEvent) : Nat := r.name.length + r.padding

def bytes (r : InotifyEvent) : List UInt8 :=
  toLE 4 r.wd ++ (toLE 4 r.mask.toNat ++ (toLE 4 r.cookie ++ (toLE 4 r.len ++
    (r.name ++ List.replicate r.padding 0))))

def toResult (r : InotifyEvent) : FileWatchResult :=
  ⟨fileWatchEvent r.mask, r.name, r.mask &&& IN_ISDIR ≠ 0⟩

end InotifyEvent

/-- The record at the beginning of the buffer, as both backends read it. -/
def firstEvent (buffer : List UInt8) : FileWatchResult :=
  let mask := UInt32.ofNat (number buffer 4 4)
  let len := number buffer 12 4
  { isDir := mask &&& IN_ISDIR ≠ 0
    name := if 0 < len then cString (buffer.drop 16) else []
    event := fileWatchEvent mask }

inductive WatchRead where
  | bytes (data : List UInt8)
  | error (errno : Nat)
  deriving DecidableEq, Repr

inductive WatchBackend where
  | epoll
  | ioUring
  deriving DecidableEq, Repr

structure FileWatcher where
  buffer : List UInt8
  deriving DecidableEq, Repr

namespace FileWatcher

def BUFFER_SIZE : Nat := 4096

/-- A read overwrites the beginning of the buffer. -/
def fill (w : FileWatcher) (data : List UInt8) : FileWatcher :=
  ⟨data ++ w.buffer.drop data.length⟩

/-- `processEvent` of the epoll reactor: the result with which `watch()` is woken. When the read
would block, the result is the one that the awaitable was made with. -/
def processEvent (w : FileWatcher) : WatchRead → FileWatcher × Except IOError FileWatchResult
  | .bytes [] => (w, .error ⟨.kReadFailed, 0⟩)
  | .bytes data => (w.fill data, .ok (firstEvent (w.fill data).buffer))
  | .error errno =>
    if errno = EAGAIN then (w, .ok ⟨0, [], false⟩) else (w, .error ⟨.kReadFailed, errno⟩)

def handleFileWatch (w : FileWatcher) : WatchRead → FileWatcher × Except IOError FileWatchResult
  | .bytes [] => (w, .error ⟨.kReadFailed, 0⟩)
  | .bytes data => (w.fill data, .ok (firstEvent (w.fill data).buffer))
  | .error errno =>
    if transient errno then (w, .error ⟨.kNotReady, 0⟩) else (w, .error ⟨.kReadFailed, errno⟩)

/-- One read for the current `watch()`; `none` when io_uring reads again before it returns. -/
def read (w : FileWatcher) (backend : WatchBackend) (result : WatchRead) :
    FileWatcher × Option (Except IOError FileWatchResult) :=
  match backend with
  | .epoll => ((w.processEvent result).1, some (w.processEvent result).2)
  | .ioUring =>
    match w.handleFileWatch result with
    | (w, .error ⟨.kNotReady, _⟩) => (w, none)
    | (w, result) => (w, some result)

/-- What the calls of `watch()` return, when the program calls it again after each result. -/
def watches (w : FileWatcher) (backend : WatchBackend) :
    List WatchRead → List (Except IOError FileWatchResult)
  | [] => []
  | result :: results =>
    ((w.read backend result).2.toList) ++ (w.read backend result).1.watches backend results

end FileWatcher

end GalayKernel
