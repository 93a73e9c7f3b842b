import Mathlib.Init

/-!
# Errors of operations

`IOError` (`common/error.h`): a code of the kernel and the error number of the system.
-/

namespace GalayKernel

inductive IOError.Code where
  | kDisconnectError
  | kNotReady
  | kParamInvalid
  | kRecvFailed
  | kSendFailed
  | kAcceptFailed
  | kConnectFailed
  | kBindFailed
  | kListenFailed
  | kOpenFailed
  | kReadFailed
  | kWriteFailed
  | kStatFailed
  | kSyncFailed
  | kSeekFailed
  | kTimeout
  | kNotRunningOnIOScheduler
  deriving DecidableEq, Repr

structure IOError where
  code : IOError.Code
  system : Nat
  deriving DecidableEq, Repr

end GalayKernel
