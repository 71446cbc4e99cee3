import Consentry.Network.Publish
import Consentry.Types.Pubsub

/-!
# Gossipsub subscriptions (`network/mod.rs`)

`Network` as far as it subscribes to topics. The network globals keep a record of the
subscriptions beside gossipsub's own, which are by the hashes of the topics. What gossipsub answers
is an argument: it changes its subscriptions where it answers `Ok`. `SubscriptionOp` lists the
calls.
-/

namespace Consentry

open Lib

/-- `SubscriptionError`, without the cause. -/
inductive SubscriptionError
  /-- Couldn't publish our subscription. -/
  | publishError
  /-- We are not allowed to subscribe to this topic by the subscription filter. -/
  | notAllowed
  deriving DecidableEq, Repr

structure Subscriptions where
  /-- `gossipsub_subscriptions` in the network globals. -/
  gossipsubSubscriptions : DistinctList GossipTopic
  /-- The topics that gossipsub itself is subscribed to. -/
  gossipsub : DistinctList TopicHash

namespace Subscriptions

/-- Before the first call. -/
def new : Subscriptions := ⟨∅, ∅⟩

variable (hex : Hex)

/-- Subscribes to a gossipsub topic. Returns whether the subscription was successful. -/
def subscribe (s : Subscriptions) (topic : GossipTopic) (answer : Except SubscriptionError Bool) :
    Subscriptions × Bool :=
  -- update the network globals
  let s := { s with gossipsubSubscriptions := s.gossipsubSubscriptions.insert topic }
  match answer with
  | .error _ => (s, false)
  | .ok _ => ({ s with gossipsub := s.gossipsub.insert (topic.display hex) }, true)

/-- Unsubscribe from a gossipsub topic. -/
def unsubscribe (s : Subscriptions) (topic : GossipTopic) (answer : Except PublishError Bool) :
    Subscriptions × Bool :=
  -- update the network globals
  let s := { s with gossipsubSubscriptions := s.gossipsubSubscriptions.remove topic }
  match answer with
  | .error _ => (s, false)
  | .ok v => ({ s with gossipsub := s.gossipsub.remove (topic.display hex) }, v)

/-- Subscribe to all currently subscribed topics with the new fork digest; `answer` is what
gossipsub answers for the topic that is renewed. -/
def subscribeNewForkTopics (s : Subscriptions) (newForkDigest : Vector UInt8 4)
    (order : Shuffle GossipTopic) (answer : GossipTopic → Except SubscriptionError Bool) :
    Subscriptions :=
  (order.run s.gossipsubSubscriptions.toList).foldl
    (fun s topic => (s.subscribe hex { topic with forkDigest := newForkDigest } (answer topic)).1) s

/-- Unsubscribe from all topics that don't have the given fork digest. -/
def unsubscribeFromForkTopicsExcept (s : Subscriptions) (except : Vector UInt8 4)
    (order : Shuffle GossipTopic) (answer : GossipTopic → Except PublishError Bool) :
    Subscriptions :=
  ((order.run s.gossipsubSubscriptions.toList).filter (·.forkDigest ≠ except)).foldl
    (fun s topic => (s.unsubscribe hex topic (answer topic)).1) s

end Subscriptions

/-- The calls that change the subscriptions. -/
inductive SubscriptionOp
  | subscribe (topic : GossipTopic) (answer : Except SubscriptionError Bool)
  | unsubscribe (topic : GossipTopic) (answer : Except PublishError Bool)
  | subscribeNewForkTopics (newForkDigest : Vector UInt8 4) (order : Shuffle GossipTopic)
      (answer : GossipTopic → Except SubscriptionError Bool)
  | unsubscribeFromForkTopicsExcept (except : Vector UInt8 4) (order : Shuffle GossipTopic)
      (answer : GossipTopic → Except PublishError Bool)

def Subscriptions.step (hex : Hex) (s : Subscriptions) : SubscriptionOp → Subscriptions
  | .subscribe topic answer => (s.subscribe hex topic answer).1
  | .unsubscribe topic answer => (s.unsubscribe hex topic answer).1
  | .subscribeNewForkTopics newForkDigest order answer =>
    s.subscribeNewForkTopics hex newForkDigest order answer
  | .unsubscribeFromForkTopicsExcept except order answer =>
    s.unsubscribeFromForkTopicsExcept hex except order answer

end Consentry
