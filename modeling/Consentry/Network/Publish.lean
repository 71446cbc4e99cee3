import Consentry.Network.GossipCache

/-!
# Publishing with the gossip cache (`network/mod.rs`)

`Network` as far as it publishes messages: `publish` caches a message when gossipsub has not enough
peers for it, a remote subscription to the topic tries the cached messages again
(`inject_gs_event`), and `poll_network` clears those that have expired. What gossipsub answers is
an argument. `NetworkOp` lists these calls.
-/

namespace Consentry

open Lib
open Rpc (Duration)

/-- `PublishError`, without the causes. -/
inductive PublishError
  | duplicate
  | signingError
  | insufficientPeers
  | messageTooLarge
  | transformFailed
  deriving DecidableEq, Repr

abbrev PublishResult := Except PublishError Unit

/-- What `publish` reads of a `PubsubMessage`: its kind and its encoding. -/
structure OutgoingMessage where
  kind : GossipKind
  data : MessageData
  deriving DecidableEq, Repr

namespace OutgoingMessage

def topics (message : OutgoingMessage) (encoding : GossipEncoding)
    (forkVersion : Vector UInt8 4) : List GossipTopic :=
  [⟨encoding, forkVersion, message.kind⟩]

/-- All messages are ssz encoded. -/
def encode (message : OutgoingMessage) (_encoding : GossipEncoding) : MessageData := message.data

end OutgoingMessage

/-- A message to publish, the time that has passed since the clock was last read, what gossipsub
answers on a topic, and the key that the cache would give. -/
structure Publication where
  message : OutgoingMessage
  elapsed : Duration
  answer : GossipTopic → PublishResult
  preferred : ℕ

structure Network where
  gossipCache : GossipCache
  /-- `enr_fork_id.fork_digest` -/
  forkDigest : Vector UInt8 4
  /-- The last reading of the clock. -/
  now : Instant

namespace Network

/-- Publishes a message on a topic. -/
def publishOn (publication : Publication) (n : Network) (topic : GossipTopic) : Option Network :=
  match publication.answer topic with
  | .error .insufficientPeers =>
    (n.gossipCache.insert topic (publication.message.encode default) n.now
      publication.preferred).map fun gossipCache => { n with gossipCache := gossipCache }
  | _ => some n

/-- Publishes a message on its topics. -/
def publishMessage (n : Network) (publication : Publication) : Option Network :=
  (publication.message.topics default n.forkDigest).foldlM (publishOn publication)
    { n with now := n.now + publication.elapsed }

/-- Publishes a list of messages, choosing the encoding. -/
def publish (n : Network) (publications : List Publication) : Option Network :=
  publications.foldlM publishMessage n

/-- `GossipsubEvent::Subscribed`, without the subscription of the peer: the cached messages of the
topic are sent, and the answers are only counted. `topic` is none when it does not decode. -/
def injectSubscribed (n : Network) (topic : Option GossipTopic) (order : Shuffle MessageData)
    (answer : MessageData → PublishResult) :
    Option (Network × List (MessageData × PublishResult)) :=
  match topic with
  | some topic =>
    (n.gossipCache.retrieve topic order).map fun r =>
      ({ n with gossipCache := r.1 }, (r.2.getD []).map fun data => (data, answer data))
  | none => some (n, [])

/-- One result of the gossip cache in `poll_network`. -/
def pollCache (n : Network) (elapsed : Duration) (poll : ExpiredPoll) : Option Network :=
  (n.gossipCache.pollNext (n.now + elapsed) poll).map fun r =>
    { n with gossipCache := r.1, now := n.now + elapsed }

/-- Updates the fork digest under which messages are published. -/
def updateForkVersion (n : Network) (forkDigest : Vector UInt8 4) : Network :=
  { n with forkDigest := forkDigest }

end Network

/-- The calls that concern the gossip cache. -/
inductive NetworkOp
  | publish (publications : List Publication)
  | subscribed (topic : Option GossipTopic) (order : Shuffle MessageData)
      (answer : MessageData → PublishResult)
  | pollCache (elapsed : Duration) (poll : ExpiredPoll)
  | updateForkVersion (forkDigest : Vector UInt8 4)

/-- None after a panic. -/
def Network.step (n : Network) : NetworkOp → Option Network
  | .publish publications => n.publish publications
  | .subscribed topic order answer => (n.injectSubscribed topic order answer).map (·.1)
  | .pollCache elapsed poll => n.pollCache elapsed poll
  | .updateForkVersion forkDigest => some (n.updateForkVersion forkDigest)

end Consentry
