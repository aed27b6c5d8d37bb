import Beyond.Authenticator.Answers
import Beyond.Authenticator.Configure
import Beyond.Authenticator.ConfigureTwice
import Beyond.Authenticator.Create
import Beyond.Authenticator.Crypto
import Beyond.Authenticator.Cycles
import Beyond.Authenticator.Evp
import Beyond.Authenticator.Export
import Beyond.Authenticator.KeyReads
import Beyond.Authenticator.Keys
import Beyond.Authenticator.Operations
import Beyond.Authenticator.Prepare
import Beyond.Base.AsyncCall
import Beyond.Base.Base64
import Beyond.Base.Bytes
import Beyond.Base.Cbc
import Beyond.Base.Counter
import Beyond.Base.Descriptors
import Beyond.Base.Fields
import Beyond.Base.Framing
import Beyond.Base.Getopt
import Beyond.Base.Heap
import Beyond.Base.Hex
import Beyond.Base.IntervalTimer
import Beyond.Base.Latest
import Beyond.Base.Ledger
import Beyond.Base.Ownership
import Beyond.Base.Path
import Beyond.Base.Platform
import Beyond.Base.Purge
import Beyond.Base.RefCount
import Beyond.Base.Run
import Beyond.Base.Scan
import Beyond.Base.TailCalls
import Beyond.Capi.FdHandler
import Beyond.Capi.Objects
import Beyond.Capi.Tensor
import Beyond.Discovery.Delivery
import Beyond.Discovery.Lookups
import Beyond.Discovery.Network
import Beyond.Discovery.NsdEventLoop
import Beyond.Discovery.NsdManager
import Beyond.EventLoop.Batch
import Beyond.EventLoop.Components
import Beyond.EventLoop.Construction
import Beyond.EventLoop.Destruction
import Beyond.EventLoop.Dispatch
import Beyond.EventLoop.Handlers
import Beyond.EventLoop.Kqueue
import Beyond.EventLoop.Readiness
import Beyond.EventLoop.Registrations
import Beyond.EventLoop.RemovalEffect
import Beyond.EventLoop.RunStop
import Beyond.EventLoop.SignalLoop
import Beyond.EventLoop.StopHandler
import Beyond.EventLoop.Ticks
import Beyond.EventLoop.Timing
import Beyond.EventLoop.WaitEpoll
import Beyond.EventLoop.WakeUp
import Beyond.Inference.BestPeer
import Beyond.Inference.Events
import Beyond.Inference.LoadModel
import Beyond.Inference.Local
import Beyond.Inference.LocalTfLite
import Beyond.Inference.Peers
import Beyond.Inference.Relay
import Beyond.Inference.Remote
import Beyond.Inference.TensorType
import Beyond.Module.Arguments
import Beyond.Module.Loading
import Beyond.Peer.Activate
import Beyond.Peer.Auth
import Beyond.Peer.Cache
import Beyond.Peer.CallOrder
import Beyond.Peer.CallRules
import Beyond.Peer.Client
import Beyond.Peer.ClientGst
import Beyond.Peer.Config
import Beyond.Peer.ConfigureOrder
import Beyond.Peer.Credential
import Beyond.Peer.ExchangeKey
import Beyond.Peer.ExtractInfo
import Beyond.Peer.ExtractSafety
import Beyond.Peer.GrpcServer
import Beyond.Peer.Handshake
import Beyond.Peer.Info
import Beyond.Peer.InfoRoundTrip
import Beyond.Peer.InfoSharing
import Beyond.Peer.Isolation
import Beyond.Peer.KeyExchange
import Beyond.Peer.ModelFile
import Beyond.Peer.ModelInfos
import Beyond.Peer.ModelPath
import Beyond.Peer.NonceSync
import Beyond.Peer.OwnServer
import Beyond.Peer.Pipelines
import Beyond.Peer.Reactivation
import Beyond.Peer.Replay
import Beyond.Peer.ResourceReports
import Beyond.Peer.ResultCopy
import Beyond.Peer.ServerGst
import Beyond.Peer.Session
import Beyond.Peer.SessionTable
import Beyond.Peer.SetInfo
import Beyond.Peer.Shapes
import Beyond.Peer.Srtp
import Beyond.Peer.TableKeys
import Beyond.Peer.TensorArray
import Beyond.Peer.TensorLists
import Beyond.Peer.TensorText
import Beyond.Peer.Transport
import Beyond.Peer.Upload
import Beyond.Runtime.Async
import Beyond.Runtime.AsyncCreate
import Beyond.Runtime.CommandObject
import Beyond.Runtime.Commands
import Beyond.Runtime.TearDown
import Beyond.Runtime.TfLite
import Beyond.Runtime.TfLiteCompute
import Beyond.Runtime.TfLiteInvoke
import Beyond.Runtime.TfLiteModels
