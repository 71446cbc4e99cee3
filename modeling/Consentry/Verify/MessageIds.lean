import Consentry.Config
import Consentry.Lib.Fallible
import Consentry.Verify.Pubsub

/-!
# The two ids of a gossip message

The fast id is taken from the data of a message as it was received, the full one since Altair also
from its topic. **`fastMessageId_agrees_iff`**: of two messages with the same fast id, so with the
same data, the full ids are equal exactly if the current fork is the base fork or they were received
under the same topic.
-/

namespace Consentry

open Lib Rpc

/-- No two inputs have the same first bytes of their digests, for the lengths that ids have. -/
structure Sha256.CollisionFree (sha : Sha256) : Prop where
  fast : Function.Injective (sha.head 8)
  full : Function.Injective (sha.head 20)

theorem length_toLeBytes (n : ℕ) : (toLeBytes n).length = 8 := by
  simp [toLeBytes]

theorem topicBytes_injective : Function.Injective topicBytes := by
  intro topic topic' h
  unfold topicBytes at h
  have hdata : topic.toUTF8 = topic'.toUTF8 := ByteArray.ext (Array.toList_inj.1 h)
  exact String.toByteArray_inj.1 hdata

/-- What is hashed of two messages with the same data. -/
theorem prefixMessage_eq_iff (pre : Bytes) (forkContext : ForkContext) {m m' : GossipsubMessage}
    (hdata : m.data = m'.data) :
    prefixMessage pre m forkContext = prefixMessage pre m' forkContext ↔
      forkContext.currentFork = .base ∨ m.topic = m'.topic := by
  have htopic : ∀ {topic topic' : TopicHash} {data : Bytes},
      pre ++ toLeBytes (topicBytes topic).length ++ topicBytes topic ++ data =
        pre ++ toLeBytes (topicBytes topic').length ++ topicBytes topic' ++ data ↔
      topic = topic' := by
    intro topic topic' data
    constructor
    · intro h
      simp only [List.append_assoc] at h
      have hbehind := (List.append_inj (List.append_cancel_left h)
        ((length_toLeBytes _).trans (length_toLeBytes _).symm)).2
      exact topicBytes_injective (List.append_cancel_right hbehind)
    · rintro rfl
      rfl
  unfold prefixMessage
  rw [hdata]
  cases forkContext.currentFork with
  | base => simp
  | altair => simpa using htopic
  | merge => simpa using htopic
  | capella => simpa using htopic

/-- What is accepted has the topic and the decompressed data of what was received. -/
theorem SnappyTransform.inboundTransform_ok {t : SnappyTransform} {snap : SnapRaw}
    {raw : RawGossipsubMessage} {message : GossipsubMessage}
    (h : t.inboundTransform snap raw = .ok message) :
    message.topic = raw.topic ∧ snap.decompressVec raw.data = .ok message.data := by
  unfold inboundTransform at h
  obtain ⟨len, -, h⟩ := bind_eq_ok.1 h
  split at h
  · cases h
  · obtain ⟨data, hdata, h⟩ := bind_eq_ok.1 h
    cases h
    exact ⟨rfl, hdata⟩

/-- The fast id is that of the data as it was received. -/
theorem fastGossipMessageId_eq_iff {sha : Sha256} (h : sha.CollisionFree)
    {raw raw' : RawGossipsubMessage} :
    fastGossipMessageId sha raw = fastGossipMessageId sha raw' ↔ raw.data = raw'.data :=
  h.fast.eq_iff

theorem gossipMessageId_eq_iff {sha : Sha256} (h : sha.CollisionFree) (forkContext : ForkContext)
    {m m' : GossipsubMessage} (hdata : m.data = m'.data) :
    gossipMessageId sha forkContext m = gossipMessageId sha forkContext m' ↔
      forkContext.currentFork = .base ∨ m.topic = m'.topic :=
  h.full.eq_iff.trans (prefixMessage_eq_iff _ forkContext hdata)

/-- **Equal fast ids mean equal ids** exactly if the data differ, so that the fast ids do, if the
current fork is the base fork, or if the topic is the same. -/
theorem fastMessageId_agrees_iff {sha : Sha256} (h : sha.CollisionFree) (networkLoad : UInt8)
    (forkContext : ForkContext) (t : SnappyTransform) (snap : SnapRaw)
    {raw raw' : RawGossipsubMessage} {message message' : GossipsubMessage}
    (hmessage : t.inboundTransform snap raw = .ok message)
    (hmessage' : t.inboundTransform snap raw' = .ok message') :
    ((gossipsubConfig sha networkLoad forkContext).fastMessageIdFn raw =
        (gossipsubConfig sha networkLoad forkContext).fastMessageIdFn raw' →
      (gossipsubConfig sha networkLoad forkContext).messageIdFn message =
        (gossipsubConfig sha networkLoad forkContext).messageIdFn message') ↔
    raw.data ≠ raw'.data ∨ forkContext.currentFork = .base ∨ raw.topic = raw'.topic := by
  obtain ⟨htopic, hread⟩ := SnappyTransform.inboundTransform_ok hmessage
  obtain ⟨htopic', hread'⟩ := SnappyTransform.inboundTransform_ok hmessage'
  show (fastGossipMessageId sha raw = fastGossipMessageId sha raw' →
    gossipMessageId sha forkContext message = gossipMessageId sha forkContext message') ↔ _
  rw [fastGossipMessageId_eq_iff h, ← htopic, ← htopic']
  by_cases hraw : raw.data = raw'.data
  · have hdata : message.data = message'.data := by
      rw [hraw, hread'] at hread
      exact (Except.ok.inj hread).symm
    rw [gossipMessageId_eq_iff h forkContext hdata]
    simp [hraw]
  · simp [hraw]

/-! ## A concrete digest -/

/-- The digest that is its input. -/
def plainSha : Sha256 := ⟨Bytes, fun _ data => data⟩

theorem plainSha_collisionFree : plainSha.CollisionFree :=
  ⟨Function.injective_id, Function.injective_id⟩

open PlainGossip SnappyTransform in
/-- One message from two peers. -/
theorem fastMessageId_agrees_twoPeers :
    (gossipsubConfig plainSha 3 forkContext).messageIdFn
        ⟨some ⟨[1]⟩, [7, 8], none, "beacon_block"⟩ =
      (gossipsubConfig plainSha 3 forkContext).messageIdFn
        ⟨some ⟨[2]⟩, [7, 8], none, "beacon_block"⟩ := by
  have hagrees := fastMessageId_agrees_iff plainSha_collisionFree 3 forkContext ⟨10⟩ snap
    (show inboundTransform ⟨10⟩ snap ⟨some ⟨[1]⟩, [2, 4, 7, 8], none, "beacon_block"⟩ =
      .ok ⟨some ⟨[1]⟩, [7, 8], none, "beacon_block"⟩ from rfl)
    (show inboundTransform ⟨10⟩ snap ⟨some ⟨[2]⟩, [2, 4, 7, 8], none, "beacon_block"⟩ =
      .ok ⟨some ⟨[2]⟩, [7, 8], none, "beacon_block"⟩ from rfl)
  exact hagrees.2 (.inr (.inr rfl)) rfl

open PlainGossip in
/-- The same data on the topics of two subnets. -/
theorem fastMessageId_agrees_fails : plainSha.CollisionFree ∧
    ¬ ∀ (networkLoad : UInt8) (forkContext : ForkContext) (t : SnappyTransform) (snap : SnapRaw)
        (raw raw' : RawGossipsubMessage) (message message' : GossipsubMessage),
      t.inboundTransform snap raw = .ok message → t.inboundTransform snap raw' = .ok message' →
      (gossipsubConfig plainSha networkLoad forkContext).fastMessageIdFn raw =
        (gossipsubConfig plainSha networkLoad forkContext).fastMessageIdFn raw' →
      (gossipsubConfig plainSha networkLoad forkContext).messageIdFn message =
        (gossipsubConfig plainSha networkLoad forkContext).messageIdFn message' := by
  refine ⟨plainSha_collisionFree, fun h => ?_⟩
  have hid : gossipMessageId plainSha forkContext
      ⟨none, [7, 8], none, "/eth2/01010101/beacon_attestation_1/ssz_snappy"⟩ =
      gossipMessageId plainSha forkContext
        ⟨none, [7, 8], none, "/eth2/01010101/beacon_attestation_2/ssz_snappy"⟩ :=
    h 3 forkContext ⟨10⟩ snap
      ⟨none, [2, 4, 7, 8], none, "/eth2/01010101/beacon_attestation_1/ssz_snappy"⟩
      ⟨none, [2, 4, 7, 8], none, "/eth2/01010101/beacon_attestation_2/ssz_snappy"⟩ _ _ rfl rfl rfl
  rcases (gossipMessageId_eq_iff plainSha_collisionFree forkContext (by rfl)).1 hid
    with hfork | htopic
  · cases hfork
  · revert htopic
    decide

end Consentry
