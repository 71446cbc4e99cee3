import Consentry.Rpc.Wire
import Consentry.Types.Topics

/-!
# Pubsub messages (`types/pubsub.rs`)

A message is its ssz encoding, which `SnappyTransform` compresses on its way out and decompresses
on its way in. The subnet of a message is not in its data but in its topic, and the fork of a block
is found by the digest of its topic. The libraries are parameters (`PubsubLib`).
-/

namespace Consentry

open Rpc

/-! ## Libraries -/

/-- The types of the messages other than blocks. -/
structure GossipTypes where
  SignedAggregateAndProof : Type
  Attestation : Type
  SignedVoluntaryExit : Type
  ProposerSlashing : Type
  AttesterSlashing : Type
  SignedContributionAndProof : Type
  SyncCommitteeMessage : Type

structure GossipSsz (S : EthSpec) (G : GossipTypes) where
  signedBeaconBlock (fork : ForkName) : SszType (S.Block fork)
  signedAggregateAndProof : SszType G.SignedAggregateAndProof
  attestation : SszType G.Attestation
  signedVoluntaryExit : SszType G.SignedVoluntaryExit
  proposerSlashing : SszType G.ProposerSlashing
  attesterSlashing : SszType G.AttesterSlashing
  signedContributionAndProof : SszType G.SignedContributionAndProof
  syncCommitteeMessage : SszType G.SyncCommitteeMessage

/-- `snap::raw`: `Encoder`, `Decoder` and `decompress_len`. -/
structure SnapRaw where
  compressVec : Bytes → Except IoError Bytes
  decompressLen : Bytes → Except IoError ℕ
  decompressVec : Bytes → Except IoError Bytes

/-- `libp2p::gossipsub::TopicHash`; the hash of a topic is what is printed for it. -/
abbrev TopicHash := String

structure PubsubLib (S : EthSpec) (G : GossipTypes) where
  hex : Hex
  ssz : GossipSsz S G
  snap : SnapRaw
  /-- `Debug for TopicHash`. -/
  debugTopicHash : TopicHash → String

/-! ## Compression -/

structure RawGossipsubMessage where
  source : Option PeerId
  data : Bytes
  sequenceNumber : Option UInt64
  topic : TopicHash

structure GossipsubMessage where
  source : Option PeerId
  data : Bytes
  sequenceNumber : Option UInt64
  topic : TopicHash

structure SnappyTransform where
  /-- The maximum size we allow gossipsub messages to decompress to. -/
  maxSizePerMessage : ℕ

namespace SnappyTransform

/-- Decompresses a message that is received. -/
def inboundTransform (t : SnappyTransform) (snap : SnapRaw) (rawMessage : RawGossipsubMessage) :
    Except IoError GossipsubMessage := do
  let len ← snap.decompressLen rawMessage.data
  if t.maxSizePerMessage < len then
    .error ⟨.other, "ssz_snappy decoded data > GOSSIP_MAX_SIZE"⟩
  else
    let decompressedData ← snap.decompressVec rawMessage.data
    .ok {
      source := rawMessage.source
      data := decompressedData
      sequenceNumber := rawMessage.sequenceNumber
      topic := rawMessage.topic }

/-- Compresses the data of a message that is published. -/
def outboundTransform (t : SnappyTransform) (snap : SnapRaw) (_topic : TopicHash) (data : Bytes) :
    Except IoError Bytes :=
  if t.maxSizePerMessage < data.length then
    .error ⟨.other, "ssz_snappy Encoded data > GOSSIP_MAX_SIZE"⟩
  else snap.compressVec data

end SnappyTransform

/-! ## Messages -/

inductive PubsubMessage (S : EthSpec) (G : GossipTypes)
  | beaconBlock (block : SignedBeaconBlock S)
  | aggregateAndProofAttestation (aggregate : G.SignedAggregateAndProof)
  /-- A raw un-aggregated attestation with its shard id. -/
  | attestation (subnetId : UInt64) (attestation : G.Attestation)
  | voluntaryExit (exit : G.SignedVoluntaryExit)
  | proposerSlashing (slashing : G.ProposerSlashing)
  | attesterSlashing (slashing : G.AttesterSlashing)
  | signedContributionAndProof (contribution : G.SignedContributionAndProof)
  /-- An unaggregated sync committee signature with its subnet id. -/
  | syncCommitteeMessage (subnetId : UInt64) (message : G.SyncCommitteeMessage)

/-- `from_ssz_bytes(..)?`, put in a message. -/
def Rpc.SszType.decodeMessage {α β : Type} (t : SszType α) (f : α → β) (data : Bytes) :
    Except String β :=
  (t.fromSszBytes data).map f

namespace PubsubMessage

variable {S : EthSpec} {G : GossipTypes}

/-- The kind of gossipsub topic associated with the message. -/
def kind : PubsubMessage S G → GossipKind
  | beaconBlock _ => .beaconBlock
  | aggregateAndProofAttestation _ => .beaconAggregateAndProof
  | attestation subnetId _ => .attestation subnetId
  | voluntaryExit _ => .voluntaryExit
  | proposerSlashing _ => .proposerSlashing
  | attesterSlashing _ => .attesterSlashing
  | signedContributionAndProof _ => .signedContributionAndProof
  | syncCommitteeMessage subnetId _ => .syncCommitteeMessage subnetId

/-- The topics that each pubsub message will be sent across. -/
def topics (message : PubsubMessage S G) (encoding : GossipEncoding)
    (forkVersion : ContextBytes) : List GossipTopic :=
  [⟨encoding, forkVersion, message.kind⟩]

/-- All messages are ssz encoded. -/
def encode (ssz : GossipSsz S G) (_encoding : GossipEncoding) : PubsubMessage S G → Bytes
  | beaconBlock data => (ssz.signedBeaconBlock data.fork).asSszBytes data.block
  | aggregateAndProofAttestation data => ssz.signedAggregateAndProof.asSszBytes data
  | voluntaryExit data => ssz.signedVoluntaryExit.asSszBytes data
  | proposerSlashing data => ssz.proposerSlashing.asSszBytes data
  | attesterSlashing data => ssz.attesterSlashing.asSszBytes data
  | attestation _ data => ssz.attestation.asSszBytes data
  | signedContributionAndProof data => ssz.signedContributionAndProof.asSszBytes data
  | syncCommitteeMessage _ data => ssz.syncCommitteeMessage.asSszBytes data

/-- The block of a topic is that of the fork its digest stands for. -/
def decodeBlock (ssz : GossipSsz S G) (forkDigest : ContextBytes) (data : Bytes)
    (forkContext : ForkContext) : Except String (PubsubMessage S G) :=
  match forkContext.fromContextBytes forkDigest with
  | some fork =>
    (ssz.signedBeaconBlock fork).decodeMessage (fun block => beaconBlock ⟨fork, block⟩) data
  | none => .error s!"Unknown gossipsub fork digest: {forkDigest.toList}"

/-- This decodes `data` given a topic. -/
def decode (lib : PubsubLib S G) (topic : TopicHash) (data : Bytes) (forkContext : ForkContext) :
    Except String (PubsubMessage S G) :=
  match GossipTopic.decode lib.hex topic with
  | .error _ => .error ("Unknown gossipsub topic: " ++ lib.debugTopicHash topic)
  | .ok gossipTopic =>
    match gossipTopic.kind with
    | .beaconAggregateAndProof =>
      lib.ssz.signedAggregateAndProof.decodeMessage aggregateAndProofAttestation data
    | .attestation subnetId => lib.ssz.attestation.decodeMessage (attestation subnetId) data
    | .beaconBlock => decodeBlock lib.ssz gossipTopic.forkDigest data forkContext
    | .voluntaryExit => lib.ssz.signedVoluntaryExit.decodeMessage voluntaryExit data
    | .proposerSlashing => lib.ssz.proposerSlashing.decodeMessage proposerSlashing data
    | .attesterSlashing => lib.ssz.attesterSlashing.decodeMessage attesterSlashing data
    | .signedContributionAndProof =>
      lib.ssz.signedContributionAndProof.decodeMessage signedContributionAndProof data
    | .syncCommitteeMessage subnetId =>
      lib.ssz.syncCommitteeMessage.decodeMessage (syncCommitteeMessage subnetId) data

end PubsubMessage

end Consentry
