import Consentry.Lib.Assoc
import Consentry.Lib.Run
import Consentry.Lib.Alternating
import Consentry.Lib.Meter
import Consentry.Lib.StreamDecoder
import Consentry.Lib.Flow
import Consentry.Lib.Keys
import Consentry.Lib.Spread
import Consentry.Lib.Ledger
import Consentry.Lib.Text
import Consentry.Lib.Oldest
import Consentry.Lib.MaxUpTo
import Consentry.Lib.Fallible
import Consentry.Score
import Consentry.PeerInfo
import Consentry.BannedPeersCount
import Consentry.F32
import Consentry.PeerDB
import Consentry.PeerManager.Prune
import Consentry.PeerManager.Basic
import Consentry.Sentry
import Consentry.Network.Dialing
import Consentry.Discovery
import Consentry.Rpc.Methods
import Consentry.Rpc.RateLimiter
import Consentry.Rpc.Wire
import Consentry.Rpc.Codec
import Consentry.Rpc.Handler
import Consentry.Rpc.Behaviour
import Consentry.Types.Topics
import Consentry.Types.Pubsub
import Consentry.Network.GossipCache
import Consentry.Network.Publish
import Consentry.Network.Subscriptions
import Consentry.Network.Metadata
import Consentry.Network.Service
import Consentry.Network.Swarm
import Consentry.SentryNode
import Consentry.HighestStatus
import Consentry.Config
import Consentry.Discovery.Enr
import Consentry.Verify.DbOps
import Consentry.Verify.Status
import Consentry.Verify.Eviction
import Consentry.Verify.BanSteps
import Consentry.Verify.BanCounters
import Consentry.Verify.Trust
import Consentry.Verify.Scores
import Consentry.Verify.TrustScoring
import Consentry.Verify.Pruning
import Consentry.Verify.Calls
import Consentry.Verify.Admission
import Consentry.Verify.SwarmBans
import Consentry.Verify.Entries
import Consentry.Verify.ConnectedScores
import Consentry.Verify.LiftableBans
import Consentry.Verify.ConnectionEvents
import Consentry.Verify.DisconnectedCounter
import Consentry.Verify.DisconnectRequests
import Consentry.Verify.TrustCommands
import Consentry.Verify.RateLimit
import Consentry.Verify.Chunks
import Consentry.Verify.PlainWire
import Consentry.Verify.RequestStream
import Consentry.Verify.ResponseStream
import Consentry.Verify.ResponseBuffer
import Consentry.Verify.HandlerPhases
import Consentry.Verify.DialCounter
import Consentry.Verify.TerminalEvents
import Consentry.Verify.ReportedEvents
import Consentry.Verify.OutboundResponses
import Consentry.Verify.HandlerTimers
import Consentry.Verify.InboundDrive
import Consentry.Verify.InboundTimeouts
import Consentry.Verify.OutboundChunks
import Consentry.Verify.InboundChunks
import Consentry.Verify.ScoreOrder
import Consentry.Verify.DialQueue
import Consentry.Verify.DiscoveryQueue
import Consentry.Verify.DiscoveryRetries
import Consentry.Verify.SubnetRequests
import Consentry.Verify.MergedRequests
import Consentry.Verify.DiscoveredPeers
import Consentry.Verify.GossipCache
import Consentry.Verify.CachedPublishes
import Consentry.Verify.Topics
import Consentry.Verify.CanonicalTopics
import Consentry.Verify.Pubsub
import Consentry.Verify.MessageIds
import Consentry.Verify.StartingEnr
import Consentry.Verify.Subscriptions
import Consentry.Verify.HighestStatus
import Consentry.Verify.MetadataSeq
import Consentry.Verify.RateLimitExact
import Consentry.Verify.RateLimitWait
import Consentry.Verify.RateLimitBurst
import Consentry.Verify.RpcBehaviour
import Consentry.Verify.SwarmParts
import Consentry.Verify.SwarmEvents
import Consentry.Verify.SwarmRequests
import Consentry.Verify.SwarmResponses
import Consentry.Verify.SwarmOutcomes
import Consentry.Verify.SwarmDelivery
import Consentry.Verify.SwarmPeers
import Consentry.Verify.SwarmMetadata
import Consentry.Verify.SentryRun
import Consentry.Verify.RequestBounds
import Consentry.Verify.ResponseAppend
import Consentry.Verify.Decay
import Consentry.Verify.GossipsubOnly
import Consentry.Verify.BanDuration
import Consentry.Verify.PeerCount
import Consentry.Verify.IoErrorRetries
import Consentry.Verify.ShrinkToFit
import Consentry.Verify.GossipsubForgiven
import Consentry.Verify.PrunePhases
import Consentry.Verify.PruneQuotas
import Consentry.Verify.PruneTarget
import Consentry.Verify.PruneDuties
import Consentry.Verify.RequestLimits
