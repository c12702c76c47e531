import RpcDemo.Core.Transition
import RpcDemo.Core.Termination
import RpcDemo.Core.Fairness
import RpcDemo.Core.LengthPrefix
import RpcDemo.Core.Outcome
import RpcDemo.Core.Wire
import RpcDemo.Core.Ledger
import RpcDemo.Core.Beside
import RpcDemo.Core.Action
import RpcDemo.Core.Custody
import RpcDemo.Detail.Frame
import RpcDemo.Detail.Session
import RpcDemo.Detail.WriteQueue
import RpcDemo.Detail.ReadLoop
import RpcDemo.Detail.HostileInput
import RpcDemo.Detail.Link
import RpcDemo.Detail.Delivery
import RpcDemo.Detail.Quiescence
import RpcDemo.Proto.Messages
import RpcDemo.Proto.Encoding
import RpcDemo.Method.Operation
import RpcDemo.Method.CalcMatrix
import RpcDemo.Method.MatrixPower
import RpcDemo.Proto.Size
import RpcDemo.Detail.ServerStub
import RpcDemo.Detail.Admissible
import RpcDemo.Detail.ReplySize
import RpcDemo.Detail.CalcAnswers
import RpcDemo.Detail.Server
import RpcDemo.Detail.Replies
import RpcDemo.Detail.ClientStub
import RpcDemo.Detail.ClientRuns
import RpcDemo.Detail.LateReplies
import RpcDemo.Detail.ConcurrentCalls
import RpcDemo.Detail.CallWindow
import RpcDemo.Detail.Remote
import RpcDemo.Detail.RemoteCall
import RpcDemo.Detail.SerialCalls
import RpcDemo.Detail.CallsReturn
import RpcDemo.Detail.AtMostOnce
import RpcDemo.Detail.Network
import RpcDemo.Detail.ManyClients
import RpcDemo.Detail.AllAnswered
import RpcDemo.Detail.Reconnect
import RpcDemo.Detail.ReplyThenClose
import RpcDemo.Detail.Registry
import RpcDemo.Detail.Outstanding
import RpcDemo.Detail.AfterClose
import RpcDemo.Detail.Disconnect
import RpcDemo.Threadpool.MFunction
import RpcDemo.Threadpool.Callables
import RpcDemo.Threadpool.CallableSteps
import RpcDemo.Threadpool.CallablePrograms
import RpcDemo.Threadpool.CallableOwnership
import RpcDemo.Threadpool.SharedState
import RpcDemo.Threadpool.WriteOnce
import RpcDemo.Threadpool.ContinuationOnce
import RpcDemo.Threadpool.Stranded
import RpcDemo.Threadpool.Pool
import RpcDemo.Threadpool.Steps
import RpcDemo.Threadpool.Bag
import RpcDemo.Threadpool.Refinement
import RpcDemo.Threadpool.Conservation
import RpcDemo.Threadpool.Waking
import RpcDemo.Threadpool.WakeUp
import RpcDemo.Threadpool.WaitWakeUp
import RpcDemo.Threadpool.Stages
import RpcDemo.Threadpool.Drivers
import RpcDemo.Threadpool.Attachments
import RpcDemo.Threadpool.Invocations
import RpcDemo.Threadpool.Values
import RpcDemo.Threadpool.Coherence
import RpcDemo.Threadpool.Callers
import RpcDemo.Threadpool.Exceptions
import RpcDemo.Threadpool.Settling
import RpcDemo.Threadpool.WaitReturns
import RpcDemo.Threadpool.Chains
import RpcDemo.Threadpool.AttachTiming
import RpcDemo.Threadpool.Shutdown
import RpcDemo.Threadpool.FailedPush
import RpcDemo.Threadpool.Futures
import RpcDemo.Threadpool.FutureResults
import RpcDemo.Threadpool.BlockedWorkers
import RpcDemo.Threadpool.Workload
import RpcDemo.Threadpool.Discipline
import RpcDemo.Threadpool.Searching
import RpcDemo.Threadpool.Working
import RpcDemo.Threadpool.EveryTaskRuns
import RpcDemo.Threadpool.StoredPackages
import RpcDemo.Demo.Session
import RpcDemo.Test.Echo
