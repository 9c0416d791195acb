import AirNet.Cpp.Platform
import AirNet.Cpp.Memory
import AirNet.Cpp.Adler32
import AirNet.Cpp.AdlerDistance
import AirNet.Lib.Run
import AirNet.Lib.Framing
import AirNet.Lib.Transition
import AirNet.Lib.LockOrder
import AirNet.Lib.Mailbox
import AirNet.Lib.Distance
import AirNet.Lib.History
import AirNet.Lib.Heap
import AirNet.Lib.Recorded
import AirNet.Lib.Search
import AirNet.Lib.SortedSet
import AirNet.Lib.Slots
import AirNet.Net.Buffer
import AirNet.Net.BufferInvariant
import AirNet.Net.BufferRuns
import AirNet.Net.BufferBound
import AirNet.Net.BufferWrap
import AirNet.Net.BufferReach
import AirNet.Net.BufferShrink
import AirNet.Net.BufferInts
import AirNet.Net.BufferLines
import AirNet.Net.Codec
import AirNet.Net.CodecFrame
import AirNet.Net.CodecRanges
import AirNet.Net.CodecStream
import AirNet.Net.CodecEncode
import AirNet.Net.CodecRoundTrip
import AirNet.Net.CodecConserve
import AirNet.Net.CodecCorruption
import AirNet.Net.CodecDistance
import AirNet.Net.CodecHeap
import AirNet.Net.CodecMemory
import AirNet.Net.SessionFlow
import AirNet.Net.BackPressure
import AirNet.Muduo.Channel
import AirNet.Muduo.EventLoop
import AirNet.Muduo.Poller
import AirNet.Muduo.PollerAgreement
import AirNet.Muduo.TimerQueue
import AirNet.Muduo.TimerOwnership
import AirNet.Muduo.TimerRuns
import AirNet.Muduo.TcpConnection
import AirNet.Muduo.Stream
import AirNet.Muduo.Shutdown
import AirNet.Muduo.Lifecycle
import AirNet.Muduo.Session
import AirNet.Net.EndToEnd
import AirNet.Base.Mutex
import AirNet.Base.RWLockQueue
import AirNet.Base.RWLockQueueCalls
import AirNet.Base.RWLockQueueConsumer
import AirNet.Base.RWLockGuard
import AirNet.Base.TimedGuards
import AirNet.Base.DoubleGuard
import AirNet.Base.BlockingQueue
import AirNet.Base.Wakeup
import AirNet.Base.Settling
import AirNet.Base.Atomic
