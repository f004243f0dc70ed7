import NetworkStructure.Run
import NetworkStructure.Epoll
import NetworkStructure.Channel
import NetworkStructure.Poller
import NetworkStructure.ChannelSet
import NetworkStructure.Span
import NetworkStructure.Buffer
import NetworkStructure.BatchQueue
import NetworkStructure.EventLoop
import NetworkStructure.LoopThreads
import NetworkStructure.LoopOrder
import NetworkStructure.LoopWakeup
import NetworkStructure.LoopQuit
import NetworkStructure.TcpConnection
import NetworkStructure.ConnFrame
import NetworkStructure.ConnStep
import NetworkStructure.TcpStream
import NetworkStructure.HalfClose
import NetworkStructure.Outcome
import NetworkStructure.TcpServer
import NetworkStructure.Replay
import NetworkStructure.ConnStages
import NetworkStructure.ConnHandlers
import NetworkStructure.LifeCycle
import NetworkStructure.Messages
import NetworkStructure.Registry
import NetworkStructure.ConnSound
import NetworkStructure.Teardown
import NetworkStructure.MyServer
import NetworkStructure.Counting
import NetworkStructure.Admission
import NetworkStructure.AdmissionRuns
import NetworkStructure.ActiveChannels
import NetworkStructure.AfterDown
import NetworkStructure.Refusals
import NetworkStructure.Host
import NetworkStructure.SocketCalls
import NetworkStructure.FdManager
import NetworkStructure.TcpServerSocket
import NetworkStructure.Ledger
import NetworkStructure.FdBooks
import NetworkStructure.EdgeTriggered
import NetworkStructure.Ipc
import NetworkStructure.Draining
import NetworkStructure.Configuration
import NetworkStructure.TimerCallback
import NetworkStructure.LittleEndian
import NetworkStructure.Bmp
import NetworkStructure.BmpRoundTrip
import NetworkStructure.WriteComplete
import NetworkStructure.StaticFlag
import NetworkStructure.ServerCount
import NetworkStructure.IpcPeer
import NetworkStructure.IpcClient
import NetworkStructure.ChildProcess
import NetworkStructure.Transmission
import NetworkStructure.ByteText
import NetworkStructure.PgmFrame
import NetworkStructure.BmpLayout
import NetworkStructure.FdManagerRuns
import NetworkStructure.FdManagerSet
import NetworkStructure.InetAddress
import NetworkStructure.Strtok
import NetworkStructure.Logging
import NetworkStructure.Timeout
import NetworkStructure.OutBuffer
import NetworkStructure.BmpWriter
import NetworkStructure.BmpDecode
import NetworkStructure.MonoDecode
import NetworkStructure.DeepDecode
import NetworkStructure.Passes
import NetworkStructure.Realtime
import NetworkStructure.ByteOrder
import NetworkStructure.Calls
import NetworkStructure.Search
import NetworkStructure.BufferCalls
import NetworkStructure.BufferWire
import NetworkStructure.BufferRead
import NetworkStructure.Greetings
import NetworkStructure.Idle
import NetworkStructure.Settling
import NetworkStructure.WriteOut
import NetworkStructure.Handles
import NetworkStructure.SocketLife
import NetworkStructure.IpcLife
import NetworkStructure.RoundRobin
import NetworkStructure.EventList
import NetworkStructure.ThreadHandles
import NetworkStructure.NetworkThreads
import NetworkStructure.Framing
import NetworkStructure.PgmStream
import NetworkStructure.Simulation
import NetworkStructure.ListenerThread
import NetworkStructure.Handlers
import NetworkStructure.ServerLoop
import NetworkStructure.ServerConns
import NetworkStructure.BufferSize
