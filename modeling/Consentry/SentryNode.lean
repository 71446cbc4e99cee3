import Consentry.HighestStatus
import Consentry.Network.Swarm
import Consentry.Sentry
import Consentry.Types.Pubsub

/-!
# The sentry and its network (`sentry.rs`)

The loop of `Sentry::start` around its network. A `SentryNode` is a node with the local variables of
the loop: in a step it handles a command, an event that a step of its node returns, or a message of
gossipsub. The commands and events that are passed on or only logged are left out.
-/

namespace Consentry

open Lib
open Rpc

/-- What the user is sent for a message. -/
structure SentryMessage (S : EthSpec) (G : GossipTypes) where
  peerId : PeerId
  remoteAddr : Option SocketAddr
  message : PubsubMessage S G

/-- What a sentry relies on from outside. -/
structure SentryEnv (S : EthSpec) (G : GossipTypes) where
  node : NodeEnv S
  pubsub : PubsubLib S G
  forkContext : ForkContext
  /-- `slot` and `canonical_root`. -/
  received : SignedBeaconBlock S → ReceivedBlock
  /-- The user has asked for the stream of events. -/
  hasEvents : Bool

structure SentryNode (F : Type) (S : EthSpec) (G : GossipTypes) where
  network : Node F ℕ S
  status : SentryStatus
  trustedPeers : DistinctList PeerId
  /-- The explicit peers of gossipsub. -/
  explicitPeers : DistinctList PeerId
  /-- What has been sent to the user. -/
  events : List (SentryMessage S G)

/-- The calls that only the application makes. -/
def NodeOp.isApplication {F A : Type} {S : EthSpec} : NodeOp F A S → Bool
  | .sendRequest _ _ _ | .sendResponse _ _ _ | .sendErrorReponse _ _ _ _ | .updateEnrSubnet _ _ _
  | .discoverSubnetPeers _ => true
  | .peerManager op _ => op.isTrustCall
  | _ => false

inductive SentryNodeOp (F : Type) (S : EthSpec)
  | command (cmd : SentryCommand)
  | network (op : NodeOp F ℕ S) (h : op.isApplication = false)
  /-- `GossipsubEvent::Message`. -/
  | message (propagationSource : PeerId) (topic : TopicHash) (data : Bytes)
      (order : Shuffle SocketAddr)

namespace SentryNode

variable {F : Type} [ScoreArith F] {S : EthSpec} {G : GossipTypes}

def new (network : Node F ℕ S) (forkDigest : Vector UInt8 4) : SentryNode F S G where
  network := network
  status := .new forkDigest
  trustedPeers := ∅
  explicitPeers := ∅
  events := []

def withNetwork (s : SentryNode F S G) (network : NetworkService F ℕ S) : SentryNode F S G :=
  { s with network := s.network.withNetwork network }

/-- The peer manager. -/
def pm (s : SentryNode F S G) : PeerManager F := s.network.network.peerManager

def handleCommand (s : SentryNode F S G) : SentryCommand → SentryNode F S G
  | .addTrusted peerId enr =>
    if !s.pm.peerdb.isConnected peerId then
      { s.withNetwork (s.network.network.withPm (s.pm.dialTrustedPeer peerId (some enr))) with
        trustedPeers := s.trustedPeers.insert peerId }
    else s
  | .removeTrusted peerId =>
    if peerId ∈ s.trustedPeers then
      { s.withNetwork (s.network.network.withPm (s.pm.removeTrusted peerId)) with
        trustedPeers := s.trustedPeers.remove peerId
        explicitPeers := s.explicitPeers.remove peerId }
    else s

/-- A trusted peer has connected. -/
def addExplicitPeer (s : SentryNode F S G) (peerId : PeerId) : SentryNode F S G :=
  if peerId ∈ s.trustedPeers then { s with explicitPeers := s.explicitPeers.insert peerId } else s

/-- Handles an event of the network, other than a message of gossipsub. -/
def handleEvent (s : SentryNode F S G) : NetworkEvent ℕ S → SentryNode F S G
  | .peerConnectedIncoming peerId => s.addExplicitPeer peerId
  -- we have to send status messages when connecting here
  | .peerConnectedOutgoing peerId =>
    (s.withNetwork (s.network.network.sendRequest peerId 10
      (.status s.status.highestStatus))).addExplicitPeer peerId
  -- respond to status
  | .requestReceived peerId id (.status _) =>
    s.withNetwork (s.network.network.sendResponse peerId id (.status s.status.highestStatus))
  | _ => s

/-- Handles a message of gossipsub. -/
def handleMessage (env : SentryEnv S G) (s : SentryNode F S G) (source : PeerId)
    (message : PubsubMessage S G) (order : Shuffle SocketAddr) : SentryNode F S G :=
  let s := match message with
    | .beaconBlock block => { s with status := s.status.handleBlock (env.received block) }
    | _ => s
  if env.hasEvents then
    let remoteAddr := (s.pm.peerdb.peerInfo source).bind fun info =>
      (order.run info.seenAddresses.toList).head?
    { s with events := s.events ++ [⟨source, remoteAddr, message⟩] }
  else s

/-- The network takes a step, and the event that it returns is handled. -/
def nextEvent (env : SentryEnv S G) (s : SentryNode F S G) (op : NodeOp F ℕ S) :
    SentryNode F S G :=
  let network := s.network.step env.node op
  (network.events.drop s.network.events.length).foldl handleEvent { s with network := network }

def step (env : SentryEnv S G) (s : SentryNode F S G) : SentryNodeOp F S → SentryNode F S G
  | .command cmd => s.handleCommand cmd
  | .network op _ => s.nextEvent env op
  | .message propagationSource topic data order =>
    match PubsubMessage.decode env.pubsub topic data env.forkContext with
    | .ok message => s.handleMessage env propagationSource message order
    -- the message is rejected
    | .error _ => s

end SentryNode

end Consentry
