import BlockCache.Main
import BlockCache.Program
import BlockCache.Server.Connections
import BlockCache.Server.Pages
import BlockCache.Metrics.Exposition
import BlockCache.Config.Loading
import BlockCache.Net.SocketAddress
import BlockCache.Toml.Reading
import BlockCache.Cache.Verbs
import BlockCache.Cache.Stats
import BlockCache.Store
import BlockCache.Partition.Basic
import BlockCache.Wire.Reading
import BlockCache.Wire.Reply
import BlockCache.Eviction.Policy
import BlockCache.Eviction.Queue
import BlockCache.Arena.Basic
import BlockCache.Item.Codec
import BlockCache.Item.Edit
import BlockCache.Text.Blank
import BlockCache.Text.Lowercase
import BlockCache.Proofs.Item.Codec
import BlockCache.Proofs.Arena.Payload
import BlockCache.Proofs.Partition.Chains
import BlockCache.Proofs.Partition.Invariant
import BlockCache.Proofs.Partition.Eviction
import BlockCache.Proofs.Partition.Consistency
import BlockCache.Proofs.Cache.Runs
import BlockCache.Proofs.Cache.Commits
import BlockCache.Proofs.Cache.Tokens
import BlockCache.Proofs.Refusal
import BlockCache.Proofs.Session.LongLines
import BlockCache.Proofs.Session.Oversized
import BlockCache.Proofs.Session.Draining
import BlockCache.Proofs.Partition.Sparing
import BlockCache.Proofs.Index.History
import BlockCache.Proofs.Backends.Recency
import BlockCache.Proofs.Backends.Lockstep
import BlockCache.Proofs.Backends.Calls
import BlockCache.Proofs.Backends.Interchange
import BlockCache.Proofs.Arena.Placement
import BlockCache.Proofs.Index.Ceiling
import BlockCache.Proofs.Index.Displacement
import BlockCache.Proofs.Partition.Lengths
import BlockCache.Proofs.Backends.RecencyList
import BlockCache.Proofs.Wire.Grammar
import BlockCache.Proofs.Backends.MapLimits
import BlockCache.Proofs.Service.Counting
import BlockCache.Proofs.Service.Framing
import BlockCache.Proofs.Index.Clearing
import BlockCache.Proofs.Cache.Sparing
import BlockCache.Proofs.Cache.Lifetime
import BlockCache.Proofs.Cache.Retries
import BlockCache.Proofs.Service.Statistics
import BlockCache.Proofs.Service.Flushes
