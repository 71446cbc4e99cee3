import Consentry.Network.Service

/-!
# The service in its swarm (`network/mod.rs`)

A `Node` is the network service with the connections to its peers. Between the RPC behaviour and
the handler of a connection events take their time: `Link` keeps those that are on their way.
The swarm numbers the connections, and drops what is sent to one that is closed.

`NodeOp` lists what can happen: what the application asks for, what the swarm does, and the calls
of the peer manager and of discovery.
-/

namespace Consentry

open Lib
open Rpc

/-- A connection as the swarm keeps it. -/
structure Link (A : Type) (S : EthSpec) where
  peerId : PeerId
  isOpen : Bool
  connection : Connection (RequestId A) S
  /-- What is on its way to the handler. -/
  toHandler : List (RPCSend (RequestId A) S)
  /-- How many of the events that the handler has reported have reached the behaviour. -/
  delivered : ℕ

/-- A new connection, with a new handler. -/
def Link.new {A : Type} {S : EthSpec} (peerId : PeerId) : Link A S := ⟨peerId, true, .new, [], 0⟩

structure Node (F A : Type) (S : EthSpec) where
  network : NetworkService F A S
  /-- The connections, by their ids. -/
  links : List (Link A S)
  /-- What the RPC behaviour has reported to the service. -/
  messages : List (RPCMessage (RequestId A) S)
  /-- What the service has reported to the application. -/
  events : List (NetworkEvent A S)

/-- The call that `Node.pollPm` makes. -/
def PmOp.isPoll {F : Type} : PmOp F → Bool
  | .poll _ => true
  | _ => false

/-- The call that only the behaviour makes. -/
def Rpc.Call.isInjectEvent {Id : Type} {S : EthSpec} : Call Id S → Bool
  | .injectEvent _ => true
  | _ => false

inductive NodeOp (F A : Type) (S : EthSpec)
  /-- The application. -/
  | sendRequest (peerId : PeerId) (requestId : A) (request : Rpc.Request)
  | sendResponse (peerId : PeerId) (id : PeerRequestId) (response : Rpc.Response S)
  | sendErrorReponse (peerId : PeerId) (id : PeerRequestId) (error : RPCResponseErrorCode)
      (reason : String)
  | updateEnrSubnet (subnet : Subnet) (value : Bool) (inserted : Except String Unit)
  | discoverSubnetPeers (subnetsToDiscover : List SubnetDiscovery)
  /-- The connections. -/
  | establish (peerId : PeerId)
  | close (connection : ConnectionId)
  | call (connection : ConnectionId) (call : Call (RequestId A) S) (h : call.isInjectEvent = false)
  /-- The next event of the behaviour reaches the handler. -/
  | notify (connection : ConnectionId)
  /-- The next event of the handler reaches the behaviour. -/
  | report (connection : ConnectionId) (timeSinceStart : Duration)
  /-- The behaviours are polled. For `NotifyHandler::Any` the swarm picks a connection. -/
  | pollRpc (prunes : List Duration) (any : ConnectionId) (now : Instant)
  | pollPm (inp : PollInput F)
  /-- Other calls of the behaviours. -/
  | peerManager (op : PmOp F) (h : op.isPoll = false)
  | discovery (op : DiscoveryOp)
  | discovered (results : List (PeerId × Option Instant)) (now : Instant)

/-- What the parts of a node rely on from outside. -/
structure NodeEnv (S : EthSpec) where
  wire : Wire S
  bits : Bitfields S
  /-- The routing table of discv5. -/
  findEnr : PeerId → Option Enr
  errorText : ErrorType → String

namespace Node

variable {F A : Type} [ScoreArith F] [DecidableEq A] {S : EthSpec}

/-- A node without connections. -/
def new (peerManager : PeerManager F) (discovery : Discovery) (metadata : NodeMetadata S)
    (limiter : RPCRateLimiter) : Node F A S where
  network :=
    { peerManager := peerManager
      discovery := discovery
      eth2Rpc := ⟨limiter, []⟩
      metadata := metadata
      bannedPeers := ∅ }
  links := []
  messages := []
  events := []

def withNetwork (node : Node F A S) (network : NetworkService F A S) : Node F A S :=
  { node with network := network }

/-- A new connection. -/
def establish (node : Node F A S) (peerId : PeerId) : Node F A S :=
  { node with links := node.links ++ [.new peerId] }

/-- A change of one link. -/
def modifyLink (node : Node F A S) (connection : ConnectionId) (f : Link A S → Link A S) :
    Node F A S :=
  { node with links := node.links.modify connection f }

end Node

namespace Link

variable {A : Type} {S : EthSpec}

/-- The handler of an open connection receives a call. -/
def call [DecidableEq A] (errorText : ErrorType → String) (link : Link A S)
    (call : Call (RequestId A) S) : Link A S :=
  if link.isOpen then { link with connection := link.connection.step errorText call } else link

/-- The handler of an open connection receives the next event. -/
def notify [DecidableEq A] (errorText : ErrorType → String) (link : Link A S) : Link A S :=
  match link.toHandler with
  | event :: toHandler =>
    { link with toHandler := toHandler }.call errorText (.injectEvent event)
  | [] => link

/-- An event is sent to the handler of an open connection. -/
def send (link : Link A S) (event : RPCSend (RequestId A) S) : Link A S :=
  if link.isOpen then { link with toHandler := link.toHandler ++ [event] } else link

/-- An event is sent to some handler of the peer. -/
def sendAny (peerId : PeerId) (event : RPCSend (RequestId A) S) (link : Link A S) : Link A S :=
  if link.peerId = peerId then link.send event else link

end Link

namespace Node

variable {F A : Type} [ScoreArith F] [DecidableEq A] {S : EthSpec}

/-- The next event that a handler has reported is injected into the behaviour. -/
def report (node : Node F A S) (connection : ConnectionId) (timeSinceStart : Duration) :
    Node F A S :=
  match node.links[connection]? with
  | none => node
  | some link =>
    match link.connection.log[link.delivered]? with
    | none => node
    | some event =>
      let rpc := node.network.eth2Rpc.injectEvent timeSinceStart link.peerId connection event
      (node.withNetwork (node.network.withRpc rpc)).modifyLink connection
        ({ · with delivered := link.delivered + 1 })

/-- The swarm handles an action of the behaviour. -/
def handleAction (env : NodeEnv S) (node : Node F A S) (any : ConnectionId) (now : Instant) :
    NetworkBehaviourAction (RequestId A) S → Node F A S
  | .generateEvent message =>
    let (network, event) := node.network.injectRpcEvent env.bits message now
    { node with
      network := network
      messages := node.messages ++ [message]
      events := node.events ++ event.toList }
  | .notifyHandler _ (.one connection) event => node.modifyLink connection (·.send event)
  | .notifyHandler peerId .any event => node.modifyLink any (·.sendAny peerId event)

def pollRpc (env : NodeEnv S) (node : Node F A S) (prunes : List Duration) (any : ConnectionId)
    (now : Instant) : Node F A S :=
  let (rpc, action) := node.network.eth2Rpc.poll prunes
  let node := node.withNetwork (node.network.withRpc rpc)
  match action with
  | some action => node.handleAction env any now action
  | none => node

def pollPm (env : NodeEnv S) (node : Node F A S) (inp : PollInput F) : Node F A S :=
  let (peerManager, result) := node.network.peerManager.poll inp
  let node := node.withNetwork (node.network.withPm peerManager)
  match result with
  | .generateEvent event =>
    let (network, event) := node.network.injectPmEvent env.findEnr event
    { node with network := network, events := node.events ++ event.toList }
  -- the swarm dials the peer
  | .dial _ | .pending => node

def step (env : NodeEnv S) (node : Node F A S) : NodeOp F A S → Node F A S
  | .sendRequest peerId requestId request =>
    node.withNetwork (node.network.sendRequest peerId requestId request)
  | .sendResponse peerId id response =>
    node.withNetwork (node.network.sendResponse peerId id response)
  | .sendErrorReponse peerId id error reason =>
    node.withNetwork (node.network.sendErrorReponse peerId id error reason)
  | .updateEnrSubnet subnet value inserted =>
    node.withNetwork (node.network.updateEnrSubnet env.wire env.bits subnet value inserted)
  | .discoverSubnetPeers subnetsToDiscover =>
    node.withNetwork (node.network.discoverSubnetPeers env.findEnr subnetsToDiscover)
  | .establish peerId => node.establish peerId
  | .close connection => node.modifyLink connection ({ · with isOpen := false })
  | .call connection call _ => node.modifyLink connection (·.call env.errorText call)
  | .notify connection => node.modifyLink connection (·.notify env.errorText)
  | .report connection timeSinceStart => node.report connection timeSinceStart
  | .pollRpc prunes any now => node.pollRpc env prunes any now
  | .pollPm inp => node.pollPm env inp
  | .peerManager op _ =>
    node.withNetwork (node.network.withPm (System.step ⟨node.network.peerManager, []⟩ op).pm)
  | .discovery op =>
    node.withNetwork { node.network with discovery := node.network.discovery.step op }
  | .discovered results now =>
    node.withNetwork (node.network.injectDiscoveryEvent env.findEnr results now)

end Node

end Consentry
