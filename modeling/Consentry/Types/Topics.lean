import Consentry.Lib.Text
import Consentry.PeerInfo

/-!
# Gossipsub topics (`types/topics.rs`)

The topics under which messages are published. There is intentionally no unknown kind. A topic is
printed as `/eth2/` with its fork digest, its name and its encoding. The hex library is a parameter
(`Hex`).
-/

namespace Consentry

open Lib

inductive GossipKind
  | beaconBlock
  | beaconAggregateAndProof
  /-- Raw attestations on a particular subnet. -/
  | attestation (subnetId : UInt64)
  | voluntaryExit
  | proposerSlashing
  | attesterSlashing
  | signedContributionAndProof
  /-- Unaggregated sync committee signatures on a particular subnet. -/
  | syncCommitteeMessage (subnetId : UInt64)
  deriving DecidableEq, Repr

/-- The known encoding types for gossipsub messages. -/
inductive GossipEncoding
  | sszSnappy
  deriving DecidableEq, Repr, Inhabited

structure GossipTopic where
  encoding : GossipEncoding
  forkDigest : Vector UInt8 4
  kind : GossipKind
  deriving DecidableEq, Repr

/-- `GossipTopic::subnet_id` -/
def GossipTopic.subnetId (topic : GossipTopic) : Option Subnet :=
  match topic.kind with
  | .attestation subnetId => some (.attestation subnetId.toNat)
  | .syncCommitteeMessage subnetId => some (.syncCommittee subnetId.toNat)
  | _ => none

/-! ## Names -/

def topicPrefix : String := "eth2"
def sszSnappyEncodingPostfix : String := "ssz_snappy"
def beaconBlockTopic : String := "beacon_block"
def beaconAggregateAndProofTopic : String := "beacon_aggregate_and_proof"
def beaconAttestationPrefix : String := "beacon_attestation_"
def voluntaryExitTopic : String := "voluntary_exit"
def proposerSlashingTopic : String := "proposer_slashing"
def attesterSlashingTopic : String := "attester_slashing"
def signedContributionAndProofTopic : String := "sync_committee_contribution_and_proof"
def syncCommitteePrefixTopic : String := "sync_committee_"

/-- The name of a kind in a topic. -/
def GossipKind.topicName : GossipKind → String
  | beaconBlock => beaconBlockTopic
  | beaconAggregateAndProof => beaconAggregateAndProofTopic
  | voluntaryExit => voluntaryExitTopic
  | proposerSlashing => proposerSlashingTopic
  | attesterSlashing => attesterSlashingTopic
  | attestation index => beaconAttestationPrefix ++ index.toNat.repr
  | signedContributionAndProof => signedContributionAndProofTopic
  | syncCommitteeMessage index => syncCommitteePrefixTopic ++ index.toNat.repr

def GossipEncoding.postfix : GossipEncoding → String
  | sszSnappy => sszSnappyEncodingPostfix

/-- Determines if a string is an attestation or sync committee topic. -/
def committeeTopicIndex (topic : List Char) : Option Subnet :=
  if beaconAttestationPrefix.toList <+: topic then
    (Text.parseUnsigned (2 ^ 64)
      (Text.trimStartMatches beaconAttestationPrefix.toList topic)).map .attestation
  else if syncCommitteePrefixTopic.toList <+: topic then
    (Text.parseUnsigned (2 ^ 64)
      (Text.trimStartMatches syncCommitteePrefixTopic.toList topic)).map .syncCommittee
  else none

/-- `From<Subnet> for GossipKind`; `decode` has the same match. -/
def GossipKind.ofSubnet : Subnet → GossipKind
  | .attestation s => .attestation (.ofNat s)
  | .syncCommittee s => .syncCommitteeMessage (.ofNat s)

/-- The kind whose name this is. -/
def GossipKind.ofTopicName (topic : List Char) : Option GossipKind :=
  if topic = beaconBlockTopic.toList then some .beaconBlock
  else if topic = beaconAggregateAndProofTopic.toList then some .beaconAggregateAndProof
  else if topic = signedContributionAndProofTopic.toList then some .signedContributionAndProof
  else if topic = voluntaryExitTopic.toList then some .voluntaryExit
  else if topic = proposerSlashingTopic.toList then some .proposerSlashing
  else if topic = attesterSlashingTopic.toList then some .attesterSlashing
  else (committeeTopicIndex topic).map ofSubnet

/-! ## Printing and decoding -/

/-- The `hex` library; what does not decode is described. -/
structure Hex where
  encode : List UInt8 → String
  decode : String → Except String (List UInt8)

namespace GossipTopic

/-- `Display for GossipTopic`. -/
def display (hex : Hex) (topic : GossipTopic) : String :=
  "/" ++ topicPrefix ++ "/" ++ hex.encode topic.forkDigest.toList ++ "/" ++ topic.kind.topicName ++
    "/" ++ topic.encoding.postfix

/-- `copy_from_slice`, for a digest of the right size. -/
def forkDigestOf (digestBytes : List UInt8) : Except String (Vector UInt8 4) :=
  if h : digestBytes.length = 4 then .ok ⟨digestBytes.toArray, List.size_toArray.trans h⟩
  else .error s!"Invalid gossipsub fork digest size: {digestBytes.length}"

/-- What stands before the first slash is not looked at. -/
def decode (hex : Hex) (topic : String) : Except String GossipTopic :=
  match topic.toList.splitOn '/' with
  | [_, pre, digest, name, encoding] =>
    if pre = topicPrefix.toList then do
      let digestBytes ← (hex.decode (.ofList digest)).mapError
        ("Could not decode fork_digest hex: " ++ ·)
      let forkDigest ← forkDigestOf digestBytes
      if encoding = sszSnappyEncodingPostfix.toList then
        match GossipKind.ofTopicName name with
        | some kind => .ok ⟨.sszSnappy, forkDigest, kind⟩
        | none => .error s!"Unknown topic: {String.ofList name}"
      else .error s!"Unknown encoding: {topic}"
    else .error s!"Unknown topic: {topic}"
  | _ => .error s!"Unknown topic: {topic}"

end GossipTopic

end Consentry
