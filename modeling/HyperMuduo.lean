import HyperMuduo.Buffer.Capacity
import HyperMuduo.Buffer.Retrieval
import HyperMuduo.Codec.FramingError
import HyperMuduo.Codec.Registration
import HyperMuduo.Codec.Residue
import HyperMuduo.Connector.Backoff
import HyperMuduo.Connector.Stop
import HyperMuduo.EventLoop.Batches
import HyperMuduo.EventLoop.Dispatch
import HyperMuduo.EventLoop.EventsArray
import HyperMuduo.EventLoop.Lifetimes
import HyperMuduo.EventLoop.PerThread
import HyperMuduo.EventLoop.Reentry
import HyperMuduo.EventLoop.ThreadLife
import HyperMuduo.Link.Echo
import HyperMuduo.Link.Messages
import HyperMuduo.Socket.Ownership
import HyperMuduo.TcpClient.Resources
import HyperMuduo.TcpClient.Retry
import HyperMuduo.TcpClient.Teardown
import HyperMuduo.TcpClient.Tracking
import HyperMuduo.TcpConnection.Notifications
import HyperMuduo.TcpConnection.Overloads
import HyperMuduo.TcpConnection.Senders
import HyperMuduo.TcpServer.Intake
import HyperMuduo.TcpServer.Release
import HyperMuduo.TcpServer.Rounds
import HyperMuduo.TcpServer.Simulation
import HyperMuduo.TcpServer.Startup
import HyperMuduo.TcpServer.Teardown
import HyperMuduo.TimerQueue.Cancel
import HyperMuduo.TimerQueue.Deadline
import HyperMuduo.TimerQueue.Firing
import HyperMuduo.TimerQueue.Progress
