import Siren.Lib.Machine
import Siren.Lib.Window
import Siren.Lib.KeyedSet
import Siren.Base.Types
import Siren.Lib.CondVar
import Siren.Base.BlockingQueue
import Siren.Base.CountDownLatch
import Siren.Net.Buffer
import Siren.Net.BufferQueue
import Siren.Net.BufferStorage
import Siren.Net.Channel
import Siren.Net.EPollPoller
import Siren.Net.EPollPoller.Events
import Siren.Net.EventLoop
import Siren.Net.EventLoop.Loop
import Siren.Net.EventLoop.Wakeup
import Siren.Net.EventLoop.Quit
import Siren.Net.EventLoopThread
import Siren.Net.TimerQueue.Basic
import Siren.Net.TimerQueue.Pass
import Siren.Net.TimerQueue.Timerfd
import Siren.Net.TimerQueue.AddTimer
import Siren.Net.TimerQueue.Every
import Siren.Net.TimerQueue.Kept
import Siren.Net.TimerQueue.Heap
import Siren.Net.TcpConnection.Basic
import Siren.Net.TcpConnection.WritePath
import Siren.Net.TcpConnection.Shutdown
import Siren.Net.TcpConnection.Close
import Siren.Net.TcpConnection.Owners
import Siren.Net.TcpConnection.Targets
import Siren.Net.TcpConnection.Registered
import Siren.Net.TcpConnection.Removal
import Siren.Net.TcpConnection.Reading
import Siren.Net.TcpConnection.Unregistered
import Siren.Lib.Wire
import Siren.Net.TcpConnection.Pair
import Siren.Net.TcpConnection.Rules
import Siren.Net.TcpConnection.EndOfStream
import Siren.Net.TcpConnection.HighWaterMark
import Siren.Net.TcpConnection.WriteComplete
import Siren.Lib.Memory
import Siren.Net.TcpConnection.SendCapture
import Siren.Net.Connector.Basic
import Siren.Net.Connector.Attempts
import Siren.Net.SocketsOps
import Siren.Net.InetAddress
import Siren.Net.TcpServer.Basic
import Siren.Net.TcpServer.Connections
import Siren.Net.TcpServer.Lifetime
import Siren.Net.TcpServer.RoundRobin
import Siren.Net.TcpClient.Basic
import Siren.Net.TcpClient.Sockets
import Siren.Net.TcpClient.Reconnect
import Siren.Net.TcpClient.Removal
import Siren.Net.TcpClient.Backoff
import Siren.Net.TcpClient.Names
import Siren.Net.TcpClient.Stop
import Siren.Net.EventLoop.Dispatch
import Siren.Net.TcpConnection.Destroyed
import Siren.Net.TcpServer.Start
import Siren.Lib.Descriptors
import Siren.Net.Acceptor
import Siren.Lib.Tokens
import Siren.Example.PingPong
import Siren.Example.Client
import Siren.Example.Bench
