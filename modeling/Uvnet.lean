import Uvnet.CMachine
import Uvnet.SignedBytes
import Uvnet.NetBase
import Uvnet.LongCodec
import Uvnet.ByteOrder
import Uvnet.PacketSync
import Uvnet.StreamScan
import Uvnet.FrameScan
import Uvnet.RecvLoop
import Uvnet.RecvRun
import Uvnet.RecvPass
import Uvnet.RecvBounds
import Uvnet.RecvRestore
import Uvnet.DeliveredFrames
import Uvnet.Resync
import Uvnet.RecvSums
import Uvnet.FrameStream
import Uvnet.BoundedQueue
import Uvnet.CircularBuffer
import Uvnet.CircularCopy
import Uvnet.CircularRefines
import Uvnet.ObjectPool
import Uvnet.SharedQueue
import Uvnet.StepRun
import Uvnet.ClientSend
import Uvnet.ClientPipe
import Uvnet.ClientRest
import Uvnet.ClientBlocks
import Uvnet.ClientWakeup
import Uvnet.ClientHandlerSend
import Uvnet.TcpServer
import Uvnet.ServerIsolation
import Uvnet.ServerRegistry
import Uvnet.ServerParsers
import Uvnet.ServerClosing
import Uvnet.ServerPool
import Uvnet.ServerNotices
import Uvnet.ServerSend
import Uvnet.WritePools
import Uvnet.PayloadCut
import Uvnet.ClientFrames
import Uvnet.LoopHandle
import Uvnet.TcpClient
import Uvnet.ClientConnect
import Uvnet.ClientHandles
import Uvnet.ClientIsolation
import Uvnet.ClientData
import Uvnet.ClientRecovery
import Uvnet.ServerStart
import Uvnet.CProto
import Uvnet.Dispatch
import Uvnet.DispatchManual
import Uvnet.ActionTrace
import Uvnet.ServerTrace
import Uvnet.ServerLocks
import Uvnet.ServerReleases
import Uvnet.ServerCalls
import Uvnet.RecvSilent
import Uvnet.ClientOrder
import Uvnet.Network
import Uvnet.NetworkFrames
import Uvnet.BroadcastOrder
import Uvnet.Exchange
import Uvnet.ExchangeReplies
import Uvnet.Responses
import Uvnet.ExchangeProgress
import Uvnet.ExchangeAnswers
import Uvnet.LockOrder
import Uvnet.ServerDeadlock
import Uvnet.Message
import Uvnet.MessageBytes
import Uvnet.RemoteCalls
