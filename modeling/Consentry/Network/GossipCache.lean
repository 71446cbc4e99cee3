import Consentry.Rpc.Handler
import Consentry.Rpc.RateLimiter
import Consentry.Types.Topics

/-!
# The gossip cache (`network/gossip_cache.rs`)

Store of gossip messages that could not be published and will be tried again later. A message is
stored under its topic with the key of its timer. The functions are none where the source panics:
on a key that is not live, and on the assertions of `poll_next`.
-/

namespace Consentry

open Lib
open Rpc (DelayQueue Duration)

/-- The data of a message, `Vec<u8>`. -/
abbrev MessageData := List UInt8

/-! ## Timers -/

/-- A value of a delay queue, and the time from which it can expire. -/
structure Timed (α : Type) where
  value : α
  deadline : Instant
  deriving DecidableEq, Repr

namespace Timed

variable {α : Type}

/-- `DelayQueue::reset`: none where the source panics, on a key that is not live. -/
def reset (q : DelayQueue (Timed α)) (key : ℕ) (deadline : Instant) :
    Option (DelayQueue (Timed α)) :=
  (q.live.lookup key).map fun timed => ⟨q.live.insert key { timed with deadline := deadline }⟩

/-- `DelayQueue::remove` on several keys, one after the other. -/
def removeAll (q : DelayQueue (Timed α)) : List ℕ → Option (DelayQueue (Timed α))
  | [] => some q
  | key :: keys => (q.remove key).bind (removeAll · keys)

/-- The value of a key whose deadline is not ahead, and the queue without it. -/
def expire (q : DelayQueue (Timed α)) (key : ℕ) (now : Instant) :
    Option (α × DelayQueue (Timed α)) :=
  match q.live.lookup key with
  | some timed => if timed.deadline ≤ now then some (timed.value, ⟨q.live.erase key⟩) else none
  | none => none

end Timed

/-! ## The cache -/

structure GossipCache where
  /-- Expire timeouts for each topic-msg pair. -/
  expirations : DelayQueue (Timed (GossipTopic × MessageData))
  /-- Messages cached for each topic. -/
  topicMsgs : Map GossipTopic (Map MessageData ℕ)
  beaconBlock : Option Duration
  aggregates : Option Duration
  attestation : Option Duration
  voluntaryExit : Option Duration
  proposerSlashing : Option Duration
  attesterSlashing : Option Duration
  signedContributionAndProof : Option Duration
  syncCommitteeMessage : Option Duration

structure GossipCacheBuilder where
  defaultTimeout : Option Duration
  beaconBlock : Option Duration
  aggregates : Option Duration
  attestation : Option Duration
  voluntaryExit : Option Duration
  proposerSlashing : Option Duration
  attesterSlashing : Option Duration
  signedContributionAndProof : Option Duration
  syncCommitteeMessage : Option Duration
  deriving Inhabited

/-- Setting a default timeout enables all timeouts that are not already set. -/
def GossipCacheBuilder.build (b : GossipCacheBuilder) : GossipCache where
  expirations := .new
  topicMsgs := ∅
  beaconBlock := b.beaconBlock.or b.defaultTimeout
  aggregates := b.aggregates.or b.defaultTimeout
  attestation := b.attestation.or b.defaultTimeout
  voluntaryExit := b.voluntaryExit.or b.defaultTimeout
  proposerSlashing := b.proposerSlashing.or b.defaultTimeout
  attesterSlashing := b.attesterSlashing.or b.defaultTimeout
  signedContributionAndProof := b.signedContributionAndProof.or b.defaultTimeout
  syncCommitteeMessage := b.syncCommitteeMessage.or b.defaultTimeout

/-- One result of `DelayQueue::poll_expired`: a key that has expired, an error of the timer, or
nothing yet. -/
inductive ExpiredPoll
  | expired (key : ℕ)
  | failed (error : String)
  | pending
  deriving DecidableEq, Repr

/-- What `poll_next` returns. -/
inductive CachePoll
  | ready (result : Except String GossipTopic)
  | finished
  | pending

namespace GossipCache

/-- The timeout for the messages of a kind; without one they are ignored. -/
def expireTimeout (c : GossipCache) : GossipKind → Option Duration
  | .beaconBlock => c.beaconBlock
  | .beaconAggregateAndProof => c.aggregates
  | .attestation _ => c.attestation
  | .voluntaryExit => c.voluntaryExit
  | .proposerSlashing => c.proposerSlashing
  | .attesterSlashing => c.attesterSlashing
  | .signedContributionAndProof => c.signedContributionAndProof
  | .syncCommitteeMessage _ => c.syncCommitteeMessage

/-- Inserts a message to be sent later. `preferred` is the key that the queue would give. -/
def insert (c : GossipCache) (topic : GossipTopic) (data : MessageData) (now : Instant)
    (preferred : ℕ) : Option GossipCache :=
  match c.expireTimeout topic.kind with
  | none => some c
  | some expireTimeout =>
    let msgs := (c.topicMsgs.lookup topic).getD ∅
    match msgs.lookup data with
    | some key =>
      (Timed.reset c.expirations key (now + expireTimeout)).map fun expirations =>
        { c with expirations := expirations, topicMsgs := c.topicMsgs.insert topic msgs }
    | none =>
      let (key, expirations) := c.expirations.insert preferred ⟨(topic, data), now + expireTimeout⟩
      some { c with
        expirations := expirations
        topicMsgs := c.topicMsgs.insert topic (msgs.insert data key) }

/-- Gets the registered messages for a topic, in the order of iteration. -/
def retrieve (c : GossipCache) (topic : GossipTopic) (order : Shuffle MessageData) :
    Option (GossipCache × Option (List MessageData)) :=
  match c.topicMsgs.lookup topic with
  | some msgs =>
    (Timed.removeAll c.expirations (msgs.entries.map (·.2))).map fun expirations =>
      ({ c with expirations := expirations, topicMsgs := c.topicMsgs.erase topic },
        some (order.run msgs.keys))
  | none => some (c, none)

/-- `poll_next`. An expired key is yielded only when it is live and its deadline is not ahead. -/
def pollNext (c : GossipCache) (now : Instant) (poll : ExpiredPoll) :
    Option (GossipCache × CachePoll) :=
  match poll with
  | .expired expectedKey =>
    match Timed.expire c.expirations expectedKey now with
    | some ((topic, data), expirations) =>
      match c.topicMsgs.lookup topic with
      | some msgs =>
        if msgs.lookup data = some expectedKey then
          let msgs := msgs.erase data
          let topicMsgs :=
            if msgs.entries.isEmpty then c.topicMsgs.erase topic
            else c.topicMsgs.insert topic msgs
          some ({ c with expirations := expirations, topicMsgs := topicMsgs }, .ready (.ok topic))
        else none
      -- "Topic for registered message is not present."
      | none => none
    | none => some (c, .pending)
  | .failed error => some (c, .ready (.error error))
  | .pending =>
    some (c, if c.expirations.live.entries.isEmpty then .finished else .pending)

end GossipCache

end Consentry
