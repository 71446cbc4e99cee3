import Consentry.Lib.Fallible
import Consentry.Types.Pubsub
import Consentry.Verify.Chunks
import Consentry.Verify.Topics

/-!
# Gossip messages are read back

**`messages_round_trip`**: a message that is compressed and sent on its topic is decompressed and
decoded to the same message, and what is decoded is always of the kind of its topic.
-/

namespace Consentry

open Lib Rpc

variable {S : EthSpec} {G : GossipTypes}

/-! ## Laws -/

/-- The ssz library reads back the messages of every kind. -/
structure GossipSsz.Lawful (ssz : GossipSsz S G) : Prop where
  signedBeaconBlock : ∀ fork block, (ssz.signedBeaconBlock fork).Inverts block
  signedAggregateAndProof : ∀ a, ssz.signedAggregateAndProof.Inverts a
  attestation : ∀ a, ssz.attestation.Inverts a
  signedVoluntaryExit : ∀ a, ssz.signedVoluntaryExit.Inverts a
  proposerSlashing : ∀ a, ssz.proposerSlashing.Inverts a
  attesterSlashing : ∀ a, ssz.attesterSlashing.Inverts a
  signedContributionAndProof : ∀ a, ssz.signedContributionAndProof.Inverts a
  syncCommitteeMessage : ∀ a, ssz.syncCommitteeMessage.Inverts a

/-- What the snappy library compresses has the length of the data, and decompresses to it. -/
structure SnapRaw.Lawful (snap : SnapRaw) : Prop where
  decompressLen : ∀ data compressed, snap.compressVec data = .ok compressed →
    snap.decompressLen compressed = .ok data.length
  decompressVec : ∀ data compressed, snap.compressVec data = .ok compressed →
    snap.decompressVec compressed = .ok data

/-- The context bytes of a fork stand for no other. -/
def Rpc.ForkContext.ReadsBack (forkContext : ForkContext) : Prop :=
  ∀ fork bytes, forkContext.toContextBytes fork = some bytes →
    forkContext.fromContextBytes bytes = some fork

theorem Rpc.SszType.Inverts.decodeMessage {α β : Type} {t : SszType α} {a : α} (h : t.Inverts a)
    (f : α → β) : t.decodeMessage f (t.asSszBytes a) = .ok (f a) := by
  unfold SszType.decodeMessage
  rw [h]
  rfl

/-! ## Compression -/

namespace SnappyTransform

variable {t : SnappyTransform} {snap : SnapRaw} {topic : TopicHash} {data compressed : Bytes}

theorem outboundTransform_ok (h : t.outboundTransform snap topic data = .ok compressed) :
    data.length ≤ t.maxSizePerMessage ∧ snap.compressVec data = .ok compressed := by
  unfold outboundTransform at h
  split at h
  · cases h
  · next hsize => exact ⟨Nat.le_of_not_lt hsize, h⟩

/-- What is accepted on its way out is accepted on its way in: both sides check the length of the
data that is not compressed. -/
theorem inboundTransform_outboundTransform (hsnap : snap.Lawful)
    (h : t.outboundTransform snap topic data = .ok compressed) (source : Option PeerId)
    (sequenceNumber : Option UInt64) :
    t.inboundTransform snap ⟨source, compressed, sequenceNumber, topic⟩ =
      .ok ⟨source, data, sequenceNumber, topic⟩ := by
  obtain ⟨hsize, hcompress⟩ := outboundTransform_ok h
  unfold inboundTransform
  dsimp only
  rw [hsnap.decompressLen data compressed hcompress, hsnap.decompressVec data compressed hcompress]
  exact if_neg (Nat.not_lt.2 hsize)

end SnappyTransform

/-! ## Messages -/

namespace PubsubMessage

variable {lib : PubsubLib S G} {forkContext : ForkContext} {m : PubsubMessage S G}

/-- The digest of the topic is that of the fork, if the message is a block. -/
def OnFork (forkContext : ForkContext) (forkDigest : ContextBytes) : PubsubMessage S G → Prop
  | beaconBlock block => forkContext.toContextBytes block.fork = some forkDigest
  | _ => True

/-- The message is read back on its own topic. -/
theorem decode_encode (hhex : lib.hex.Lawful) (hssz : lib.ssz.Lawful)
    (hfork : forkContext.ReadsBack) {forkDigest : ContextBytes}
    (hm : m.OnFork forkContext forkDigest) (encoding : GossipEncoding) :
    decode lib (GossipTopic.display lib.hex ⟨encoding, forkDigest, m.kind⟩)
      (m.encode lib.ssz encoding) forkContext = .ok m := by
  unfold decode
  rw [GossipTopic.decode_display hhex]
  cases m with
  | beaconBlock block =>
    show decodeBlock lib.ssz forkDigest _ forkContext = _
    unfold decodeBlock
    rw [hfork block.fork forkDigest hm]
    exact (hssz.signedBeaconBlock block.fork block.block).decodeMessage _
  | aggregateAndProofAttestation a => exact (hssz.signedAggregateAndProof a).decodeMessage _
  | attestation subnetId a => exact (hssz.attestation a).decodeMessage _
  | voluntaryExit a => exact (hssz.signedVoluntaryExit a).decodeMessage _
  | proposerSlashing a => exact (hssz.proposerSlashing a).decodeMessage _
  | attesterSlashing a => exact (hssz.attesterSlashing a).decodeMessage _
  | signedContributionAndProof a => exact (hssz.signedContributionAndProof a).decodeMessage _
  | syncCommitteeMessage subnetId a => exact (hssz.syncCommitteeMessage a).decodeMessage _

/-- A message that is decoded is the constructor applied to some value. -/
theorem decodeMessage_ok {α β : Type} {t : SszType α} {f : α → β} {data : Bytes} {b : β}
    (h : t.decodeMessage f data = .ok b) : ∃ a, b = f a := by
  obtain ⟨a, -, rfl⟩ := map_eq_ok.1 h
  exact ⟨a, rfl⟩

/-- A message that is decoded is of the kind of its topic. -/
theorem kind_of_decode {topic : TopicHash} {data : Bytes}
    (h : decode lib topic data forkContext = .ok m) :
    ∃ t, GossipTopic.decode lib.hex topic = .ok t ∧ m.kind = t.kind := by
  unfold decode at h
  cases htopic : GossipTopic.decode lib.hex topic with
  | error e =>
    rw [htopic] at h
    cases h
  | ok t =>
    rw [htopic] at h
    refine ⟨t, rfl, ?_⟩
    dsimp only at h
    cases hkind : t.kind with
    | beaconBlock =>
      rw [hkind] at h
      dsimp only at h
      unfold decodeBlock at h
      cases hfork : forkContext.fromContextBytes t.forkDigest with
      | none =>
        rw [hfork] at h
        cases h
      | some fork =>
        rw [hfork] at h
        obtain ⟨a, rfl⟩ := decodeMessage_ok h
        rfl
    | _ =>
      rw [hkind] at h
      obtain ⟨a, rfl⟩ := decodeMessage_ok h
      rfl

/-- **Gossip messages round-trip**: what the compression accepts of a message on its topic is
decompressed and decoded to the message, its subnet and its fork included; and what is decoded on
any topic is of the kind of the topic. -/
theorem messages_round_trip (hhex : lib.hex.Lawful) (hssz : lib.ssz.Lawful)
    (hsnap : lib.snap.Lawful) (hfork : forkContext.ReadsBack) :
    (∀ (m : PubsubMessage S G) (forkDigest : ContextBytes), m.OnFork forkContext forkDigest →
      ∀ topic ∈ m.topics .sszSnappy forkDigest, ∀ (t : SnappyTransform) (compressed : Bytes),
        t.outboundTransform lib.snap (topic.display lib.hex) (m.encode lib.ssz .sszSnappy) =
            .ok compressed →
          ∀ source sequenceNumber, ∃ message,
            t.inboundTransform lib.snap
                ⟨source, compressed, sequenceNumber, topic.display lib.hex⟩ = .ok message ∧
              decode lib message.topic message.data forkContext = .ok m) ∧
      ∀ (topic : TopicHash) (data : Bytes) (m : PubsubMessage S G),
        decode lib topic data forkContext = .ok m →
          ∃ t, GossipTopic.decode lib.hex topic = .ok t ∧ m.kind = t.kind := by
  constructor
  · intro m forkDigest hm topic htopic t compressed hout source sequenceNumber
    obtain rfl := List.mem_singleton.1 htopic
    exact ⟨_, SnappyTransform.inboundTransform_outboundTransform hsnap hout source sequenceNumber,
      decode_encode hhex hssz hfork hm .sszSnappy⟩
  · exact fun topic data m h => kind_of_decode h

end PubsubMessage

/-! ## Concrete libraries -/

namespace PlainGossip

/-- Messages that are lists of bytes, whose ssz encoding they are themselves. -/
def bytes : SszType Bytes := ⟨id, .ok, 4⟩

def spec : EthSpec := ⟨fun _ => Bytes, Unit, Unit, ()⟩

def types : GossipTypes := ⟨Bytes, Bytes, Bytes, Bytes, Bytes, Bytes, Bytes⟩

/-- Short data is a single literal behind its length. -/
def snap : SnapRaw where
  compressVec data :=
    if data.length = 0 then .ok [0]
    else if data.length ≤ 16 then
      .ok (.ofNat data.length :: .ofNat ((data.length - 1) * 4) :: data)
    else .error ⟨.other, "long data"⟩
  decompressLen
    | [] => .error ⟨.other, "snappy: corrupt input (empty)"⟩
    | len :: _ => .ok len.toNat
  decompressVec compressed := .ok (compressed.drop 2)

def lib : PubsubLib spec types where
  hex := plainHex
  ssz := ⟨fun _ => bytes, bytes, bytes, bytes, bytes, bytes, bytes, bytes⟩
  snap := snap
  debugTopicHash topic := topic

def digest : ContextBytes := .replicate 4 1

/-- Only one fork is scheduled. -/
def forkContext : ForkContext where
  currentFork := .capella
  toContextBytes fork := if fork = .capella then some digest else none
  fromContextBytes bytes := if bytes = digest then some .capella else none
  genesisContextBytes := digest

theorem ssz_lawful : lib.ssz.Lawful where
  signedBeaconBlock _ _ := rfl
  signedAggregateAndProof _ := rfl
  attestation _ := rfl
  signedVoluntaryExit _ := rfl
  proposerSlashing _ := rfl
  attesterSlashing _ := rfl
  signedContributionAndProof _ := rfl
  syncCommitteeMessage _ := rfl

theorem snap_lawful : lib.snap.Lawful := by
  have hcases : ∀ data compressed, snap.compressVec data = .ok compressed →
      snap.decompressLen compressed = .ok data.length ∧
        snap.decompressVec compressed = .ok data := by
    intro data compressed h
    unfold snap at h ⊢
    dsimp only at h ⊢
    split at h
    · next hnil =>
      obtain rfl := List.length_eq_zero_iff.1 hnil
      obtain rfl := Except.ok.inj h
      exact ⟨rfl, rfl⟩
    · split at h
      · next hshort =>
        obtain rfl := Except.ok.inj h
        refine ⟨congrArg Except.ok ?_, rfl⟩
        rw [UInt8.toNat_ofNat', Nat.mod_eq_of_lt (by omega)]
      · cases h
  exact ⟨fun data compressed h => (hcases data compressed h).1,
    fun data compressed h => (hcases data compressed h).2⟩

theorem forkContext_readsBack : forkContext.ReadsBack := by
  intro fork bytes h
  unfold forkContext at h ⊢
  dsimp only at h ⊢
  split at h
  · next hfork =>
    rw [if_pos (Option.some.inj h).symm, hfork]
  · cases h

end PlainGossip

open PlainGossip in
/-- A block of the scheduled fork. -/
theorem PubsubMessage.messages_round_trip_block :
    ∃ message, (SnappyTransform.mk 10).inboundTransform lib.snap
        ⟨none, [2, 4, 7, 8], none, GossipTopic.display lib.hex ⟨.sszSnappy, digest, .beaconBlock⟩⟩ =
          .ok message ∧
      decode lib message.topic message.data forkContext = .ok (.beaconBlock ⟨.capella, [7, 8]⟩) :=
  (messages_round_trip plainHex_lawful ssz_lawful snap_lawful forkContext_readsBack).1
    (.beaconBlock ⟨.capella, [7, 8]⟩) digest rfl _ List.mem_cons_self ⟨10⟩ [2, 4, 7, 8] rfl
    none none

end Consentry
