import PqComm.Lib.Bytes
import PqComm.Lib.ArrayFront
import PqComm.Lib.CircularBuffer
import PqComm.Lib.Custody
import PqComm.Lib.HashChain
import PqComm.Lib.LastWrite
import PqComm.Lib.Parity
import PqComm.Lib.Runs
import PqComm.Lib.Roster
import PqComm.Lib.SlidingWindow
import PqComm.Lib.SlotTable
import PqComm.Lib.Smoothing
import PqComm.Lib.SpinLock
import PqComm.Lib.Text
import PqComm.Lib.Unwinding
import PqComm.Lib.Watchdog
import PqComm.Core.Packet
import PqComm.Core.WireFormat
import PqComm.Core.Pool
import PqComm.Core.Ring
import PqComm.Core.RttRange
import PqComm.Core.Resilience
import PqComm.Config.Indentation
import PqComm.Config.Toml
import PqComm.Connection.Beacons
import PqComm.Connection.PeerEntries
import PqComm.Connection.PeerTable
import PqComm.Core.Directions
import PqComm.Core.FecBounds
import PqComm.Core.FecRecovery
import PqComm.Core.PathSelection
import PqComm.Core.LossWindow
import PqComm.Core.Session
import PqComm.Crypto.Suite
import PqComm.Crypto.Expand
import PqComm.Layers.SessionEnc
import PqComm.Layers.SourceLimiter
import PqComm.Layers.NonceUse
import PqComm.Layers.Integrity
import PqComm.Layers.Filters
import PqComm.Layers.Gate
import PqComm.Layers.Replay
import PqComm.Layers.ReplayExact
import PqComm.Layers.Ledger
import PqComm.Pipeline.Inbound
import PqComm.Pipeline.Delivery
import PqComm.Pipeline.Replay
import PqComm.Pipeline.Reassembly
import PqComm.Pipeline.Alike
import PqComm.Pipeline.Outbound
import PqComm.Pipeline.Buffers
import PqComm.Pipeline.Ownership
import PqComm.Pipeline.GroupSizes
import PqComm.Pipeline.Contents
import PqComm.Handshake.Protocol
import PqComm.Handshake.Steps
import PqComm.Handshake.Runs
import PqComm.Handshake.Invariants
import PqComm.Handshake.Initiator
import PqComm.Handshake.Responder
import PqComm.Handshake.Completeness
import PqComm.Handshake.LockState
import PqComm.Handshake.Stages
import PqComm.Handshake.Agreement
import PqComm.Handshake.ProofBinding
import PqComm.Handshake.Retry
import PqComm.Identity.HexKeys
import PqComm.Identity.KnownHosts
import PqComm.Identity.Storage
import PqComm.Engine.Control
import PqComm.Engine.Rekey
import PqComm.Engine.RekeyRuns
import PqComm.Engine.RekeyRecovery
import PqComm.Engine.RekeySeries
import PqComm.Engine.RekeySecrecy
import PqComm.Engine.Rotation
import PqComm.Engine.Senders
import PqComm.Engine.State
import PqComm.Engine.Handlers
import PqComm.Engine.Api
import PqComm.Engine.ParityGroups
import PqComm.Engine.Poll
import PqComm.Engine.Scoring
import PqComm.Engine.PathStates
import PqComm.Engine.PathCredit
import PqComm.Engine.PathTimeouts
import PqComm.Engine.ReconnectTicks
import PqComm.Engine.LockStability
import PqComm.Engine.ForeignControl
import PqComm.Engine.Emission
import PqComm.Engine.Outgoing
import PqComm.Engine.Egress
import PqComm.Engine.Handing
import PqComm.Engine.Listening
import PqComm.Engine.ConnectRequests
import PqComm.Engine.Duplicates
import PqComm.Engine.ReceivePaths
import PqComm.Engine.ReceiveFrame
import PqComm.Engine.Refinement
import PqComm.Engine.StaleBytes
import PqComm.Engine.TxScheduling
import PqComm.Engine.SessionMoves
import PqComm.Engine.Multipath
import PqComm.Engine.FileTransfer
import PqComm.Engine.FileChunks
import PqComm.Engine.JitterBuffer
import PqComm.Engine.Events
import PqComm.Engine.Slots
import PqComm.Engine.BuilderBounds
import PqComm.Engine.KeyGuard
import PqComm.Engine.WorkerThread
import PqComm.Engine.PeerHost
import PqComm.Engine.Hearing
import PqComm.Engine.KeepAlive
import PqComm.Engine.SecretLifetime
import PqComm.Engine.Conversation
import PqComm.Engine.LossyGroups
import PqComm.Engine.SecureChannel
import PqComm.Engine.SuspectSources
import PqComm.Relay.RouteTable
import PqComm.Relay.Forwarding
import PqComm.Group.Rooms
import PqComm.Group.RoomRefinement
import PqComm.Config.Indentation
import PqComm.Config.Toml
