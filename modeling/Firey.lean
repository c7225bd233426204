import Firey.Framework.Machine
import Firey.Framework.Search
import Firey.Framework.Window
import Firey.Framework.LineParser
import Firey.Framework.Dispatch
import Firey.Framework.OrderedSet
import Firey.Framework.Mailbox
import Firey.Framework.Condition
import Firey.Framework.Endian
import Firey.Framework.Numeral
import Firey.Framework.FixedWidth
import Firey.Framework.Calendar
import Firey.Framework.Slots
import Firey.Framework.RoundRobin
import Firey.Fault
import Firey.Net.Buffer
import Firey.Net.BufferQueue
import Firey.Net.BufferCalls
import Firey.Net.BufferInts
import Firey.Net.Buffer64
import Firey.Net.Buffer64Steps
import Firey.Net.BufferLengths
import Firey.Net.BufferCopies
import Firey.Net.Channel
import Firey.Net.Poller
import Firey.Net.TcpConnection
import Firey.Net.Output
import Firey.Net.Calls
import Firey.Net.Stream
import Firey.Net.ReadInterest
import Firey.Net.Registration
import Firey.Net.EventLoop
import Firey.Net.LifeCycle
import Firey.Net.HangUp
import Firey.Net.FunctorQueue
import Firey.Net.TimerQueue
import Firey.Net.TimerEffects
import Firey.Net.TimerInvariant
import Firey.Net.TimerThreads
import Firey.Http.Request
import Firey.Http.RequestLine
import Firey.Http.Context
import Firey.Http.Server
import Firey.Http.Refusals
import Firey.Http.Segmentation
import Firey.Net.TimerDeadline
import Firey.Net.TimerCancel
import Firey.Logger.LogStream
import Firey.Logger.Insertions
import Firey.Logger.Timestamp
import Firey.Logger.Logging
import Firey.Logger.TimePrefix
import Firey.Logger.Records
import Firey.Logger.FileUtil
import Firey.Logger.ReadSmallFile
import Firey.Logger.LogFile
import Firey.Logger.TimeOrder
import Firey.Logger.Rolling
import Firey.Logger.AsyncLogging
import Firey.Logger.Conservation
import Firey.Logger.Recycling
import Firey.Logger.Stop
import Firey.Logger.Backend
import Firey.Framework.Memory
import Firey.Http.RoundTrip
import Firey.Net.CallerMemory
import Firey.Net.Owners
import Firey.Net.LiveCalls
import Firey.Net.TcpServer
import Firey.Net.ConnectionNames
import Firey.Net.Removal
import Firey.Net.Teardown
import Firey.Thread.ThreadPool
import Firey.Thread.PoolWakeups
import Firey.Thread.PoolStop
import Firey.Thread.CurrentThread
import Firey.Thread.TimedWait
import Firey.Net.TimerLifetime
import Firey.Net.StaleTimers
import Firey.Net.ExpiredBatch
import Firey.Net.EventLoopThread
import Firey.Http.Incremental
import Firey.Framework.Loop
import Firey.Http.Rounds
import Firey.Http.Headers
import Firey.Http.Response
import Firey.Net.DirectCalls
import Firey.Http.Conversation
import Firey.Http.Service
import Firey.Framework.Framing
import Firey.Http.Client
import Firey.Net.Acceptor
import Firey.Net.PollLoop
import Firey.Net.EventLoopThreadPool
import Firey.Thread.CountDownLatch
import Firey.Thread.Thread
import Firey.Thread.PoolLife
import Firey.Net.TimerPacing
import Firey.Net.Notices
import Firey.Net.InetAddress
import Firey.Net.StartLoop
import Firey.Net.ThreadedLoops
import Firey.Net.Closing
import Firey.Net.ServerLoops
