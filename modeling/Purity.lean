import Purity.Base.Run
import Purity.Base.Endian
import Purity.Packet.ByteBuffer
import Purity.Packet.Fields
import Purity.Packet.MessageBuffer
import Purity.Packet.Packet
import Purity.Auth.Utf8
import Purity.Auth.Srp6
import Purity.Auth.AccountCache
import Purity.Server.Session
import Purity.Server.Handlers
import Purity.Server.Reader
import Purity.Server.Step
import Purity.Server.WriteQueue
import Purity.Server.ReadPath
import Purity.Server.Chunking
import Purity.Server.Login
import Purity.Database.Pool
import Purity.Client.Client
import Purity.Client.Effect
import Purity.Client.Receive
import Purity.Protocol.Net
import Purity.Protocol.Framing
import Purity.Auth.CacheHistory
import Purity.Server.ReadLoop
import Purity.Server.Server
import Purity.Server.CachedLogin
import Purity.Client.Connection
import Purity.Client.Reconnect
import Purity.Protocol.ReplyOrder
import Purity.Protocol.Messages
import Purity.Protocol.Exchange
import Purity.Utils.HexUtils
import Purity.Packet.Bounds
import Purity.Packet.MachineBuffer
import Purity.Auth.LetterCase
import Purity.Server.Registration
import Purity.Auth.Group
import Purity.Base.Json
import Purity.Log.Logger
import Purity.Server.ReadMemory
import Purity.Base.CondVar
import Purity.Base.Simulation
import Purity.Database.Monitor
import Purity.Auth.CleanupTimer
import Purity.Server.Uncached
import Purity.Client.Heartbeat
import Purity.Log.CircularQ
import Purity.Log.ThreadPool
import Purity.Log.RotatingFile
import Purity.Client.Delivery
import Purity.Protocol.Credentials
import Purity.Server.Isolation
import Purity.Protocol.Service
import Purity.Server.Closing
import Purity.Client.ServerProof
import Purity.Protocol.World
