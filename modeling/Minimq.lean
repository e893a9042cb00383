import Minimq.Lib.FixedVec
import Minimq.Lib.Hoare
import Minimq.Lib.History
import Minimq.Lib.Async
import Minimq.Lib.AsyncRules
import Minimq.Lib.Arena
import Minimq.Codec.Basic
import Minimq.Codec.Varint
import Minimq.Codec.Wire
import Minimq.Codec.Serializer
import Minimq.Codec.Properties
import Minimq.Codec.Packets
import Minimq.Codec.Deserializer
import Minimq.Codec.ReceivedPacket
import Minimq.Codec.PacketReader
import Minimq.Client.Outbound
import Minimq.Client.State
import Minimq.Client.Inbound
import Minimq.Client.Drive
import Minimq.Client.Handshake
import Minimq.Client.Operations
import Minimq.Client.Run
import Minimq.Client.Application
import Minimq.Proofs.Codec.Varint
import Minimq.Proofs.Codec.Serializer
import Minimq.Client.Transition
import Minimq.Proofs.Client.Outbound
import Minimq.Proofs.Client.Outflow
import Minimq.Proofs.Codec.PacketReader
import Minimq.Proofs.Client.Inbound
import Minimq.Proofs.Client.Tidy
import Minimq.Proofs.Client.Drive
import Minimq.Proofs.Client.Handshake
import Minimq.Proofs.Client.Operations
import Minimq.Proofs.Client.Run
import Minimq.Client.Ledger
import Minimq.Proofs.Client.Change
import Minimq.Proofs.Client.Identifiers
import Minimq.Proofs.Client.Ledger
import Minimq.Proofs.Client.Delivery
import Minimq.Proofs.Client.Keepalive
import Minimq.Proofs.Client.Reconnect
import Minimq.Lib.Relational
import Minimq.Lib.Grammar
import Minimq.Proofs.Codec.Framing
import Minimq.Proofs.Codec.Fields
import Minimq.Proofs.Codec.Canonical
import Minimq.Proofs.Codec.Bounds
import Minimq.Proofs.Codec.Properties
import Minimq.Proofs.Codec.Malformed
import Minimq.Codec.Grammar
import Minimq.Proofs.Codec.Grammar
import Minimq.Proofs.Codec.RoundTrip
import Minimq.Proofs.Codec.Encoding
import Minimq.Proofs.Codec.Footprint
import Minimq.Proofs.Codec.Unambiguous
import Minimq.Client.Durable
import Minimq.Proofs.Client.Answer
import Minimq.Proofs.Client.Failure
import Minimq.Proofs.Client.Frame
import Minimq.Proofs.Client.Atomic
import Minimq.Proofs.Client.Latch
import Minimq.Proofs.Client.Holdings
import Minimq.Proofs.Client.Acknowledge
import Minimq.Proofs.Client.Progress
import Minimq.Proofs.Client.Docket
import Minimq.Proofs.Client.Release
import Minimq.Proofs.Client.Tenure
import Minimq.Proofs.Client.Quota
import Minimq.Proofs.Client.ReleaseOrder
import Minimq.Proofs.Client.Chapter
import Minimq.Proofs.Client.Handle
import Minimq.Proofs.Client.Subscription
import Minimq.Proofs.Client.Application
import Minimq.Rpc.Service
import Minimq.Proofs.Rpc.Service
import Minimq.Proofs.Client.Traffic
import Minimq.Proofs.Client.Bookkeeping
import Minimq.Proofs.Client.Workload
import Minimq.Proofs.Client.Supply
import Minimq.Proofs.Client.Termination
import Minimq.Proofs.Client.Wedge
import Minimq.Proofs.Client.Graceful
import Minimq.Proofs.Client.Stream
import Minimq.Proofs.Client.Flush
import Minimq.Proofs.Client.Ping
import Minimq.Proofs.Client.Framing
import Minimq.Proofs.Client.Durable
import Minimq.Proofs.Client.Alike
import Minimq.Proofs.Client.Twin
import Minimq.Proofs.Client.TwinOperations
import Minimq.Proofs.Client.Forget
import Minimq.Proofs.Client.Backlog
import Minimq.Proofs.Client.Roster
import Minimq.Proofs.Client.Replay
import Minimq.Lib.Decimal
import Minimq.Lib.Tiling
import Minimq.Staging.Service
import Minimq.Staging.Run
import Minimq.Staging.Phase
import Minimq.Proofs.Staging.Service
import Minimq.Proofs.Staging.Log
import Minimq.Proofs.Staging.Duplicate
import Minimq.Proofs.Staging.Status
import Minimq.Staging.Host
import Minimq.Staging.Client
import Minimq.Proofs.Staging.Client
import Minimq.Proofs.Rpc.Readiness
import Minimq.Staging.Network
import Minimq.Proofs.Staging.Host
import Minimq.Proofs.Staging.Network
import Minimq.Proofs.Staging.Conforming
import Minimq.Proofs.Staging.Budget
import Minimq.Proofs.Client.AckOrder
import Minimq.Proofs.Client.Published
