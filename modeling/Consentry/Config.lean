import Consentry.Rpc.RateLimiter
import Consentry.Types.Pubsub

/-!
# Configuration (`config.rs`)

`gossipsub_config`: what gossipsub is told of the network load and of the fork, and how it is to
identify messages. A message has two ids, a fast one of the data as they are received and one that
depends on the current fork. SHA-256 is a parameter (`Sha256`).
-/

namespace Consentry

open Rpc

def Rpc.Duration.fromMillis (millis : ℕ) : Duration := millis * 10 ^ 6

/-- The fields of `Config` that are advertised. -/
structure NetworkConfig where
  /-- The TCP port that libp2p listens on. -/
  libp2pPort : UInt16 := 9000
  /-- The address to broadcast to peers about which address we are listening on. -/
  enrAddress : Option IpAddr := none
  /-- The udp port to broadcast to peers in order to reach back for discovery. -/
  enrUdpPort : Option UInt16 := none
  /-- The tcp port to broadcast to peers in order to reach back for libp2p services. -/
  enrTcpPort : Option UInt16 := none

/-! ## Network load -/

/-- Controls sizes of gossipsub meshes. -/
structure NetworkLoad where
  name : String
  meshNLow : ℕ
  outboundMin : ℕ
  meshN : ℕ
  meshNHigh : ℕ
  gossipLazy : ℕ
  historyGossip : ℕ
  heartbeatInterval : Duration

/-- `From<u8> for NetworkLoad`. -/
def NetworkLoad.ofU8 (load : UInt8) : NetworkLoad :=
  match load.toNat with
  | 1 => {
      name := "Low", meshNLow := 1, outboundMin := 1, meshN := 3, meshNHigh := 4, gossipLazy := 3,
      historyGossip := 3, heartbeatInterval := .fromMillis 1200 }
  | 2 => {
      name := "Low", meshNLow := 2, outboundMin := 2, meshN := 4, meshNHigh := 8, gossipLazy := 3,
      historyGossip := 3, heartbeatInterval := .fromMillis 1000 }
  | 3 => {
      name := "Average", meshNLow := 3, outboundMin := 2, meshN := 5, meshNHigh := 10,
      gossipLazy := 3, historyGossip := 3, heartbeatInterval := .fromMillis 700 }
  | 4 => {
      name := "Average", meshNLow := 4, outboundMin := 3, meshN := 8, meshNHigh := 12,
      gossipLazy := 3, historyGossip := 3, heartbeatInterval := .fromMillis 700 }
  | 5 => {
      name := "High", meshNLow := 5, outboundMin := 3, meshN := 10, meshNHigh := 15,
      gossipLazy := 5, historyGossip := 6, heartbeatInterval := .fromMillis 500 }
  | _ => {
      name := "LowLatency", meshNLow := 6, outboundMin := 3, meshN := 12, meshNHigh := 18,
      gossipLazy := 5, historyGossip := 3, heartbeatInterval := .fromMillis 500 }

/-! ## Message ids -/

/-- `sha2::Sha256`. An id is made of the first bytes of a digest. -/
structure Sha256 where
  Head : Type
  /-- `Sha256::digest(data)[..n]` -/
  head : ℕ → Bytes → Head

def messageDomainValidSnappy : Bytes := [1, 0, 0, 0]

/-- `usize::to_le_bytes`, of eight bytes. -/
def toLeBytes (n : ℕ) : Bytes := (List.range 8).map fun i => .ofNat (n / 256 ^ i)

/-- `TopicHash::as_str().as_bytes()` -/
def topicBytes (topic : TopicHash) : Bytes := topic.toUTF8.data.toList

/-- `prefix`: the bytes that are hashed. Since Altair they contain the topic. -/
def prefixMessage (pre : Bytes) (message : GossipsubMessage) (forkContext : ForkContext) : Bytes :=
  match forkContext.currentFork with
  | .altair | .merge | .capella =>
    pre ++ toLeBytes (topicBytes message.topic).length ++ topicBytes message.topic ++ message.data
  | .base => pre ++ message.data

/-- The first 8 bytes of SHA256(data). -/
def fastGossipMessageId (sha : Sha256) (message : RawGossipsubMessage) : sha.Head :=
  sha.head 8 message.data

def gossipMessageId (sha : Sha256) (forkContext : ForkContext) (message : GossipsubMessage) :
    sha.Head :=
  sha.head 20 (prefixMessage messageDomainValidSnappy message forkContext)

/-! ## The configuration of gossipsub -/

def gossipMaxSizePreMerge : ℕ := 1048576
def gossipMaxSizePostMerge : ℕ := 10 * 1048576

/-- Accommodates the circulation time of an attestation. -/
def duplicateCacheTime : Duration := .fromSecs (33 * 12 + 1)

/-- The maximum size of gossip messages. -/
def gossipMaxSize (isMergeEnabled : Bool) : ℕ :=
  if isMergeEnabled then gossipMaxSizePostMerge else gossipMaxSizePreMerge

/-- `fork_exists`: whether there are context bytes for the fork. -/
def Rpc.ForkContext.forkExists (forkContext : ForkContext) (fork : ForkName) : Bool :=
  (forkContext.toContextBytes fork).isSome

inductive ValidationMode
  | strict
  | permissive
  | anonymous
  | none
  deriving DecidableEq, Repr

structure GossipsubConfig (sha : Sha256) where
  maxTransmitSize : ℕ
  heartbeatInterval : Duration
  meshN : ℕ
  meshNLow : ℕ
  meshOutboundMin : ℕ
  meshNHigh : ℕ
  gossipLazy : ℕ
  fanoutTtl : Duration
  historyLength : ℕ
  maxMessagesPerRpc : Option ℕ
  historyGossip : ℕ
  validateMessages : Bool
  validationMode : ValidationMode
  duplicateCacheTime : Duration
  messageIdFn : GossipsubMessage → sha.Head
  fastMessageIdFn : RawGossipsubMessage → sha.Head
  allowSelfOrigin : Bool

/-- The configuration of gossipsub where the message id depends on the current fork. -/
def gossipsubConfig (sha : Sha256) (networkLoad : UInt8) (forkContext : ForkContext) :
    GossipsubConfig sha :=
  let isMergeEnabled := forkContext.forkExists .merge
  let load := NetworkLoad.ofU8 networkLoad
  { maxTransmitSize := gossipMaxSize isMergeEnabled
    heartbeatInterval := load.heartbeatInterval
    meshN := load.meshN
    meshNLow := load.meshNLow
    meshOutboundMin := load.outboundMin
    meshNHigh := load.meshNHigh
    gossipLazy := load.gossipLazy
    fanoutTtl := .fromSecs 60
    historyLength := 12
    -- responses to IWANT can be quite large
    maxMessagesPerRpc := some 500
    historyGossip := load.historyGossip
    -- require validation before propagation
    validateMessages := true
    validationMode := .anonymous
    duplicateCacheTime := duplicateCacheTime
    messageIdFn := gossipMessageId sha forkContext
    fastMessageIdFn := fastGossipMessageId sha
    allowSelfOrigin := true }

end Consentry
