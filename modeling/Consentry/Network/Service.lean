import Consentry.Discovery
import Consentry.Network.Metadata
import Consentry.Rpc.Behaviour

/-!
# The network service (`network/mod.rs`, `network/api_types.rs`)

`NetworkService` is `Network` as far as it stands between the application and its behaviours: the
RPC behaviour, the peer manager and discovery. What these report is handled inside, or turned into
a `NetworkEvent` for the application. Discovery looks up the records that are not in its cache in
the routing table of discv5, which is an argument, and its bans are left out, as are the events of
gossipsub and identify and the metrics.
-/

namespace Consentry

open Lib
open Rpc

/-! ## Errors of the RPC (`peer_manager/mod.rs`) -/

/-- The action that an error is punished with, if any. -/
def Rpc.RPCError.peerAction (protocol : Protocol) (direction : ConnectionDirection) :
    RPCError → Option PeerAction
  -- they closed early, this could mean poor connection
  | .incompleteStream => some .midToleranceError
  | .internalError _ => none
  | .handlerRejected => some .fatal
  -- the peer is not complying with the protocol
  | .invalidData _ => some .fatal
  | .ioError _ => some .highToleranceError
  | .errorResponse code _ =>
    match code with
    | .unknown => some .highToleranceError
    | .resourceUnavailable =>
      match direction with
      | .outgoing => some .fatal
      | .incoming => none
    | .serverError => some .midToleranceError
    | .invalidRequest => some .lowToleranceError
    | .rateLimited =>
      match protocol with
      | .ping | .blocksByRange | .blocksByRoot => some .midToleranceError
      | .goodbye | .metaData | .status => some .lowToleranceError
  | .sszDecodeError _ => some .fatal
  | .unsupportedProtocol =>
    match protocol with
    | .ping => some .fatal
    | .blocksByRange | .blocksByRoot | .goodbye => none
    | .metaData | .status => some .lowToleranceError
  | .streamTimeout =>
    match direction with
    | .incoming => none
    | .outgoing =>
      match protocol with
      | .ping => some .lowToleranceError
      | .blocksByRange | .blocksByRoot => some .midToleranceError
      | .goodbye | .metaData | .status => none
  | .negotiationTimeout => some .lowToleranceError
  -- no penalty for a graceful disconnection
  | .disconnected => none

/-- Adjusts the score of a peer based on an error that has occurred in the RPC. -/
def PeerManager.handleRpcError {F : Type} [ScoreArith F] (pm : PeerManager F) (peerId : PeerId)
    (protocol : Protocol) (err : RPCError) (direction : ConnectionDirection) (now : Instant) :
    PeerManager F :=
  match err.peerAction protocol direction with
  | some action => pm.reportPeer peerId action none now
  | none => pm

/-! ## The records of discovery (`discovery/mod.rs`) -/

namespace Discovery

/-- The record of a known peer if it exists. One of the cache becomes the most recent one;
`findEnr` is the routing table. -/
def enrOfPeer (d : Discovery) (findEnr : PeerId → Option Enr) (peerId : PeerId) :
    Discovery × Option Enr :=
  match d.cachedEnrs.find? (·.1 = peerId) with
  | some (_, enr) =>
    ({ d with cachedEnrs := (peerId, enr) :: d.cachedEnrs.filter (·.1 ≠ peerId) }, some enr)
  | none => (d, findEnr peerId)

def removeCachedEnr (d : Discovery) (peerId : PeerId) : Discovery :=
  { d with cachedEnrs := d.cachedEnrs.filter (·.1 ≠ peerId) }

end Discovery

/-! ## Types of the interface (`network/api_types.rs`) -/

/-- Identifier of requests sent by a peer. -/
abbrev PeerRequestId := ConnectionId × SubstreamId

/-- Identifier of a request. -/
inductive RequestId (A : Type)
  | application (id : A)
  | internal
  deriving DecidableEq, Repr

structure BlocksByRangeRequest where
  startSlot : UInt64
  count : UInt64
  deriving DecidableEq

/-- The requests that leave the service, and those that the application sends. -/
inductive Rpc.Request
  | status (msg : StatusMessage)
  | blocksByRange (req : BlocksByRangeRequest)
  | blocksByRoot (req : BlocksByRootRequest)
  deriving DecidableEq

/-- `From<Request> for OutboundRequest`. -/
def Rpc.Request.toOutbound : Rpc.Request → OutboundRequest
  | blocksByRoot r => .blocksByRoot r
  | blocksByRange r => .blocksByRange ⟨r.startSlot, r.count, 1⟩
  | status s => .status s

/-- The responses that leave the service, and those that the application sends. No block signals
the end of a stream. -/
inductive Rpc.Response (S : EthSpec)
  | status (msg : StatusMessage)
  | blocksByRange (block : Option (SignedBeaconBlock S))
  | blocksByRoot (block : Option (SignedBeaconBlock S))

/-- `From<Response> for RPCCodedResponse`. -/
def Rpc.Response.toCoded {S : EthSpec} : Rpc.Response S → RPCCodedResponse S
  | blocksByRoot (some b) => .success (.blocksByRoot b)
  | blocksByRoot none => .streamTermination .blocksByRoot
  | blocksByRange (some b) => .success (.blocksByRange b)
  | blocksByRange none => .streamTermination .blocksByRange
  | status s => .success (.status s)

/-- The types of events that can be obtained from the service. -/
inductive NetworkEvent (A : Type) (S : EthSpec)
  | peerConnectedIncoming (peerId : PeerId)
  | peerConnectedOutgoing (peerId : PeerId)
  | peerDisconnected (peerId : PeerId)
  | peerBanned (peerId : PeerId)
  | peerUnbanned (peerId : PeerId)
  /-- A request of the application has failed. -/
  | rpcFailed (peerId : PeerId) (id : A)
  | requestReceived (peerId : PeerId) (id : PeerRequestId) (request : Rpc.Request)
  | responseReceived (peerId : PeerId) (id : A) (response : Rpc.Response S)
  /-- It is time to send a status to the peer. -/
  | statusPeer (peerId : PeerId)

/-! ## The service -/

/-- The bits of a bitfield, as the peer manager reads them. -/
def BitVectorType.toBitfield {α : Type} (t : BitVectorType α) (bits : α) : Bitfield :=
  (List.range (t.len bits)).map fun i => (t.get bits i).getD false

/-- The metadata of a peer, as the peer manager keeps it. -/
def Bitfields.metaData {S : EthSpec} (bits : Bitfields S) : Rpc.MetaData S → MetaData
  | .v1 m => ⟨m.seqNumber, bits.attnets.toBitfield m.attnets, none⟩
  | .v2 m =>
    ⟨m.seqNumber, bits.attnets.toBitfield m.attnets, some (bits.syncnets.toBitfield m.syncnets)⟩

structure NetworkService (F A : Type) (S : EthSpec) where
  peerManager : PeerManager F
  discovery : Discovery
  eth2Rpc : RPC (RequestId A) S
  /-- The local metadata, with the node record and the file. -/
  metadata : NodeMetadata S
  /-- The peers that the swarm has banned. -/
  bannedPeers : DistinctList PeerId

namespace NetworkService

variable {F A : Type} [ScoreArith F] {S : EthSpec}

def withPm (n : NetworkService F A S) (pm : PeerManager F) : NetworkService F A S :=
  { n with peerManager := pm }

def withRpc (n : NetworkService F A S) (rpc : RPC (RequestId A) S) : NetworkService F A S :=
  { n with eth2Rpc := rpc }

/-- The metadata that is sent to peers. -/
def localMetadata (n : NetworkService F A S) : Rpc.MetaData S := n.metadata.localMetadata

/-! ### RPC -/

/-- Send a request to a peer over RPC. -/
def sendRequest (n : NetworkService F A S) (peerId : PeerId) (requestId : A)
    (request : Rpc.Request) : NetworkService F A S :=
  n.withRpc (n.eth2Rpc.sendRequest peerId (.application requestId) request.toOutbound)

/-- Send a successful response to a peer over RPC. -/
def sendResponse (n : NetworkService F A S) (peerId : PeerId) (id : PeerRequestId)
    (response : Rpc.Response S) : NetworkService F A S :=
  n.withRpc (n.eth2Rpc.sendResponse peerId id response.toCoded)

/-- Inform the peer that their request produced an error. -/
def sendErrorReponse (n : NetworkService F A S) (peerId : PeerId) (id : PeerRequestId)
    (error : RPCResponseErrorCode) (reason : String) : NetworkService F A S :=
  n.withRpc (n.eth2Rpc.sendResponse peerId id (.error error (.ofString reason)))

/-- Sends a Ping request to the peer. -/
def ping (n : NetworkService F A S) (peerId : PeerId) : NetworkService F A S :=
  n.withRpc (n.eth2Rpc.sendRequest peerId .internal (.ping ⟨n.localMetadata.seqNumber⟩))

/-- Sends a Pong response to the peer. -/
def pong (n : NetworkService F A S) (id : PeerRequestId) (peerId : PeerId) :
    NetworkService F A S :=
  n.withRpc (n.eth2Rpc.sendResponse peerId id (.success (.pong ⟨n.localMetadata.seqNumber⟩)))

/-- Sends a METADATA request to a peer. -/
def sendMetaDataRequest (n : NetworkService F A S) (peerId : PeerId) : NetworkService F A S :=
  n.withRpc (n.eth2Rpc.sendRequest peerId .internal .metaData)

/-- Sends a METADATA response to a peer. -/
def sendMetaDataResponse (n : NetworkService F A S) (id : PeerRequestId) (peerId : PeerId) :
    NetworkService F A S :=
  n.withRpc (n.eth2Rpc.sendResponse peerId id (.success (.metaData n.localMetadata)))

/-- The response, as long as it was requested outside the service. -/
def buildResponse (id : RequestId A) (peerId : PeerId) (response : Rpc.Response S) :
    Option (NetworkEvent A S) :=
  match id with
  | .application id => some (.responseReceived peerId id response)
  | .internal => none

def buildRequest (id : PeerRequestId) (peerId : PeerId) (request : Rpc.Request) :
    NetworkEvent A S :=
  .requestReceived peerId id request

/-- Handles a request of a connected peer. -/
def injectRequest (n : NetworkService F A S) (peerId : PeerId) (peerRequestId : PeerRequestId)
    (request : InboundRequest) (now : Instant) :
    NetworkService F A S × Option (NetworkEvent A S) :=
  match request with
  | .ping ping =>
    ((n.withPm (n.peerManager.pingRequest peerId ping.data)).pong peerRequestId peerId, none)
  | .metaData => (n.sendMetaDataResponse peerRequestId peerId, none)
  -- the RPC handler will automatically disconnect for us
  | .goodbye _ => (n, none)
  | .status msg =>
    (n.withPm (n.peerManager.peerStatusd peerId),
      some (buildRequest peerRequestId peerId (.status msg)))
  | .blocksByRange req =>
    -- still disconnect the peer if the request is naughty
    if req.step = 0 then
      (n.withPm (n.peerManager.handleRpcError peerId .blocksByRange
        (.invalidData "Blocks by range with 0 step parameter") .incoming now), none)
    else
      -- return just one block in case the step parameter is used
      let count := if 1 < req.step then 1 else req.count
      (n, some (buildRequest peerRequestId peerId (.blocksByRange ⟨req.startSlot, count⟩)))
  | .blocksByRoot req => (n, some (buildRequest peerRequestId peerId (.blocksByRoot req)))

/-- Handles a response of a connected peer. -/
def injectResponse (bits : Bitfields S) (n : NetworkService F A S) (peerId : PeerId)
    (id : RequestId A) (resp : RPCResponse S) :
    NetworkService F A S × Option (NetworkEvent A S) :=
  match resp with
  | .pong ping => (n.withPm (n.peerManager.pongResponse peerId ping.data), none)
  | .metaData metaData =>
    (n.withPm (n.peerManager.metaDataResponse peerId (bits.metaData metaData)), none)
  | .status msg =>
    (n.withPm (n.peerManager.peerStatusd peerId), buildResponse id peerId (.status msg))
  | .blocksByRange resp => (n, buildResponse id peerId (.blocksByRange (some resp)))
  | .blocksByRoot resp => (n, buildResponse id peerId (.blocksByRoot (some resp)))

/-- Handles an RPC event. -/
def injectRpcEvent (bits : Bitfields S) (n : NetworkService F A S)
    (event : RPCMessage (RequestId A) S) (now : Instant) :
    NetworkService F A S × Option (NetworkEvent A S) :=
  let peerId := event.peerId
  -- a message of a disconnecting peer is ignored
  if !n.peerManager.peerdb.isConnected peerId then (n, none)
  else
    match event.event with
    | .error (.inbound _ proto error) =>
      (n.withPm (n.peerManager.handleRpcError peerId proto error .incoming now), none)
    | .error (.outbound id proto error) =>
      (n.withPm (n.peerManager.handleRpcError peerId proto error .outgoing now),
        match id with
        | .application id => some (.rpcFailed peerId id)
        | .internal => none)
    | .ok (.request id request) => n.injectRequest peerId (event.connId, id) request now
    | .ok (.response id resp) => n.injectResponse bits peerId id resp
    | .ok (.endOfStream id termination) =>
      let response := match termination with
        | .blocksByRange => .blocksByRange none
        | .blocksByRoot => .blocksByRoot none
      (n, buildResponse id peerId response)

/-! ### Discovery -/

/-- Updates a subnet value in the bitfields of the node record, and the metadata that informs the
peers of the update. -/
def updateEnrSubnet (w : Wire S) (bits : Bitfields S) (n : NetworkService F A S) (subnet : Subnet)
    (value : Bool) (inserted : Except String Unit) : NetworkService F A S :=
  { n with metadata := n.metadata.updateEnrSubnet w bits subnet value inserted }

/-- Dials the cached records that are on the subnet and are not in Connected, Dialing or Banned
state. They are removed from the cache, to prevent continual re-dialing. -/
def dialCachedEnrsInSubnet (n : NetworkService F A S) (findEnr : PeerId → Option Enr)
    (subnet : Subnet) : NetworkService F A S :=
  let peersToDial := (n.discovery.cachedEnrs.filter fun e =>
    subnetPredicate [subnet] e.2 && n.peerManager.peerdb.shouldDial e.1).map (·.1)
  peersToDial.foldl (fun n peerId =>
    let (discovery, enr) := (n.discovery.removeCachedEnr peerId).enrOfPeer findEnr peerId
    { n with
      discovery := discovery
      peerManager := n.peerManager.dialPeer peerId enr }) n

/-- Extends the times until which the connected peers of a subnet are needed. -/
def extendMinTtl (n : NetworkService F A S) (s : SubnetDiscovery) : NetworkService F A S :=
  match s.minTtl with
  | none => n
  | some minTtl =>
    let n := n.withPm { n.peerManager with
      peerdb := n.peerManager.peerdb.extendPeersOnSubnet s.subnet minTtl }
    match s.subnet with
    | .syncCommittee syncSubnet => n.withPm (n.peerManager.addSyncSubnet syncSubnet minTtl)
    | .attestation _ => n

/-- The filter of `discover_subnet_peers` on one subnet, and what it does beside. -/
def filterSubnet (findEnr : PeerId → Option Enr)
    (acc : NetworkService F A S × List SubnetDiscovery) (s : SubnetDiscovery) :
    NetworkService F A S × List SubnetDiscovery :=
  let n := acc.1.extendMinTtl s
  -- already have target number of peers, no need for subnet discovery
  if targetSubnetPeers ≤ (n.peerManager.peerdb.goodPeersOnSubnet s.subnet).length then (n, acc.2)
  else (n.dialCachedEnrsInSubnet findEnr s.subnet, acc.2 ++ [s])

/-- Attempts to discover new peers for the given subnets. -/
def discoverSubnetPeers (n : NetworkService F A S) (findEnr : PeerId → Option Enr)
    (subnetsToDiscover : List SubnetDiscovery) : NetworkService F A S :=
  if !n.discovery.started then n
  else
    let (n, filtered) := subnetsToDiscover.foldl (filterSubnet findEnr) (n, [])
    -- request the subnet query from discovery
    if filtered.isEmpty then n
    else { n with discovery := n.discovery.discoverSubnetPeers filtered }

/-- Handles a discovery event. -/
def injectDiscoveryEvent (n : NetworkService F A S) (findEnr : PeerId → Option Enr)
    (results : List (PeerId × Option Instant)) (now : Instant) : NetworkService F A S :=
  let (peerManager, toDialPeers) := n.peerManager.peersDiscovered results now
  toDialPeers.foldl (fun n peerId =>
    let (discovery, enr) := n.discovery.enrOfPeer findEnr peerId
    { n with
      discovery := discovery
      peerManager := n.peerManager.dialPeer peerId enr }) (n.withPm peerManager)

/-! ### The peer manager -/

/-- Handles a peer manager event. -/
def injectPmEvent (n : NetworkService F A S) (findEnr : PeerId → Option Enr) :
    PeerManagerEvent → NetworkService F A S × Option (NetworkEvent A S)
  | .peerConnectedIncoming peerId => (n, some (.peerConnectedIncoming peerId))
  | .peerConnectedOutgoing peerId => (n, some (.peerConnectedOutgoing peerId))
  | .peerDisconnected peerId => (n, some (.peerDisconnected peerId))
  | .banned peerId _ =>
    ({ n with bannedPeers := n.bannedPeers.insert peerId }, some (.peerBanned peerId))
  | .unBanned peerId _ =>
    ({ n with bannedPeers := n.bannedPeers.remove peerId }, some (.peerUnbanned peerId))
  | .status peerId => (n, some (.statusPeer peerId))
  | .discoverPeers peersToFind =>
    ({ n with discovery := n.discovery.discoverPeers peersToFind }, none)
  | .discoverSubnetPeers subnetsToDiscover =>
    (n.discoverSubnetPeers findEnr subnetsToDiscover, none)
  | .ping peerId => (n.ping peerId, none)
  | .metaData peerId => (n.sendMetaDataRequest peerId, none)
  -- send one goodbye
  | .disconnectPeer peerId reason =>
    (n.withRpc (n.eth2Rpc.shutdown peerId .internal reason), none)

end NetworkService

end Consentry
