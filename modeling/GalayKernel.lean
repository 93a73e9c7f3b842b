import GalayKernel.Proofs.MutexWaiters
import GalayKernel.Proofs.MutexExclusion
import GalayKernel.Proofs.MutexOrphan
import GalayKernel.Proofs.RingConservation
import GalayKernel.Proofs.TimingWheelTimerManager
import GalayKernel.Proofs.ThreadSafeTimerManager
import GalayKernel.Proofs.WithTimeout
import GalayKernel.Proofs.TimedAwait
import GalayKernel.Proofs.MpscStale
import GalayKernel.Proofs.WaiterDelivery
import GalayKernel.Proofs.WaiterWakeups
import GalayKernel.Proofs.UnsafeResumes
import GalayKernel.Proofs.TaskAwait
import GalayKernel.Proofs.TaskThen
import GalayKernel.Proofs.SchedulerCore
import GalayKernel.Proofs.UringBuffers
import GalayKernel.Proofs.UringArming
import GalayKernel.Proofs.UringStaging
import GalayKernel.Proofs.UringAccept
import GalayKernel.Proofs.EpollFlush
import GalayKernel.Proofs.EpollEdges
import GalayKernel.Proofs.BlockingExecutor
import GalayKernel.Proofs.WakeCoordinator
import GalayKernel.Proofs.KqueueReactor
import GalayKernel.Proofs.FileWatcher
import GalayKernel.Proofs.AioFile
import GalayKernel.Proofs.ParseBacklog
import GalayKernel.Proofs.SequenceAwaitable
import GalayKernel.Proofs.WorkerOrder
import GalayKernel.Proofs.TaskJoin
import GalayKernel.Proofs.MutexFifo
import GalayKernel.Proofs.StateMachineDriver
import GalayKernel.Proofs.EpollInterest
import GalayKernel.Proofs.SequenceOwnership
import GalayKernel.Proofs.TimerReentrancy
import GalayKernel.Proofs.StealDomain
import GalayKernel.Proofs.AsyncStrategy
import GalayKernel.Proofs.UringTokens
import GalayKernel.Proofs.UringWrite
import GalayKernel.Proofs.TaskQueued
import GalayKernel.Proofs.AwaitableSlots
import GalayKernel.Proofs.BuiltSequences
import GalayKernel.Proofs.TaskRefs
import GalayKernel.Proofs.ComputeScheduler
import GalayKernel.Proofs.RingCalls
import GalayKernel.Proofs.TimeoutTimer
