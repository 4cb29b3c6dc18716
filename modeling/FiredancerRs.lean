import FiredancerRs.Ed25519.Bump
import FiredancerRs.Ed25519.BatchVerify
import FiredancerRs.Rpc.Safety
import FiredancerRs.Rpc.BatchOrder
import FiredancerRs.Rpc.ShortList
import FiredancerRs.Txn.Atomicity
import FiredancerRs.Txn.FeePayer
import FiredancerRs.Lib.Except
import FiredancerRs.Tpool.Partition
import FiredancerRs.Xdp.Transmit
import FiredancerRs.Xdp.Checksum
import FiredancerRs.Xdp.Frames
import FiredancerRs.Scratch.Live
import FiredancerRs.Io.Transport
import FiredancerRs.Io.Resources
import FiredancerRs.Http.Framed
import FiredancerRs.Http.Unframed
import FiredancerRs.Http.Deadline
import FiredancerRs.Http.Bounds
import FiredancerRs.Rpc.Failure
import FiredancerRs.Rpc.Matching
import FiredancerRs.Tracing.Exits
import FiredancerRs.Tracing.Locks
import FiredancerRs.Tracing.Stats
import FiredancerRs.Tracing.Positions
import FiredancerRs.Tracing.Records
import FiredancerRs.Tracing.Global
import FiredancerRs.Scratch.Attach
import FiredancerRs.Quic.Accept
import FiredancerRs.Wksp.Ownership
import FiredancerRs.Tile.Arguments
import FiredancerRs.Tile.Release
import FiredancerRs.Zstd.Complete
import FiredancerRs.Rpc.SendTransaction
import FiredancerRs.Txn.Limit
import FiredancerRs.Txn.Signing
import FiredancerRs.Txn.AccountIter
import FiredancerRs.Rpc.Numbers
import FiredancerRs.Rpc.RequestText
import FiredancerRs.Rpc.AccountData
import FiredancerRs.Rpc.Url
import FiredancerRs.Rpc.AllOrNothing
import FiredancerRs.Json.Build
import FiredancerRs.Json.TreeMemory
import FiredancerRs.Json.Leaks
import FiredancerRs.Json.Read
import FiredancerRs.Json.RoundTrip
import FiredancerRs.Lib.Float64Bits
import FiredancerRs.Lib.Float64Text
import FiredancerRs.Tracing.Layer
import FiredancerRs.HttpServer.Url
import FiredancerRs.Toml.Query
import FiredancerRs.HttpServer.Responses
import FiredancerRs.Base64.EntryPoints
import FiredancerRs.Tmpl.Container
import FiredancerRs.Tmpl.Map
import FiredancerRs.Tmpl.Set
import FiredancerRs.Math.Average
import FiredancerRs.Math.Stat
import FiredancerRs.Grpc.Deadline
import FiredancerRs.Grpc.Metrics
import FiredancerRs.Lib.Pile
import FiredancerRs.Wksp.Builder
import FiredancerRs.Lib.SlotRing
import FiredancerRs.Tmpl.Bounded
import FiredancerRs.Tmpl.Deque
import FiredancerRs.Tmpl.Vec
import FiredancerRs.Tmpl.Pool
import FiredancerRs.Spad.Allocator
import FiredancerRs.Spad.Scopes
import FiredancerRs.Lib.Packing
import FiredancerRs.Spad.Live
import FiredancerRs.Rpc.Submit
import FiredancerRs.Rpc.Getters
import FiredancerRs.Rpc.Wire
import FiredancerRs.Clock.Lifecycle
