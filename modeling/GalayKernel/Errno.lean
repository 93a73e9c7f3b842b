import Mathlib.Init

/-!
# Error numbers

The `errno` values that the reactors look at.
-/

namespace GalayKernel

def ENOENT : Nat := 2
def EINTR : Nat := 4
def EBADF : Nat := 9
/-- also `EWOULDBLOCK` -/
def EAGAIN : Nat := 11
def ENOMEM : Nat := 12
def EBUSY : Nat := 16
def EEXIST : Nat := 17
def EINVAL : Nat := 22
def ENOBUFS : Nat := 105

/-- The errors after which an operation is tried again. -/
def transient (errno : Nat) : Bool := errno == EAGAIN || errno == EINTR

end GalayKernel
