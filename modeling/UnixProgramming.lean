import UnixProgramming.AllocatorRefinement
import UnixProgramming.AllocatorScan
import UnixProgramming.DerivativeCanonical
import UnixProgramming.DeterminantCorrect
import UnixProgramming.PrefixSumBounds
import UnixProgramming.PrefixSumOverflow
import UnixProgramming.SocketInit
import UnixProgramming.EchoServerFlow
import UnixProgramming.EchoServerErrors
import UnixProgramming.EchoServerEpoll
import UnixProgramming.EchoServerQueue
import UnixProgramming.AcceptFailures
import UnixProgramming.AsioSessions
import UnixProgramming.LibevServer
import UnixProgramming.LibuvServer
import UnixProgramming.ChatMembership
import UnixProgramming.ChatBroadcasts
import UnixProgramming.TcpServer
import UnixProgramming.PipelineOutput
import UnixProgramming.ProducerConsumer
import UnixProgramming.ProducerConsumerProgress
import UnixProgramming.EasyPthreads
import UnixProgramming.MutexThreadsProgress
import UnixProgramming.LibeventServer
import UnixProgramming.TcpGreetings
import UnixProgramming.PrefixSumFiles
import UnixProgramming.DerivativeSkipped
import UnixProgramming.SysvMessageAccounts
import UnixProgramming.PosixMessageProgress
import UnixProgramming.FifoRelays
import UnixProgramming.CounterSets
import UnixProgramming.SysvSemaphore
import UnixProgramming.TcpReaping
import UnixProgramming.PipelineText
