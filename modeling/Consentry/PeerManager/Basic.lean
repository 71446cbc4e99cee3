import Consentry.PeerManager.Prune

/-!
# The peer manager (`peer_manager/mod.rs`, `peer_manager/network_behaviour.rs`)

The functions of the peer manager on its state: the peer database, the queue of events
for the swarm, the queue of peers to dial and the timers. `PmOp` lists the calls it
receives and `System.step` runs one of them; a `System` also keeps the events the swarm
has already been given, so that `System.log` is every event pushed so far.
-/

namespace Consentry

open Lib

def targetSubnetPeers : ℕ := 6

/-- A fraction of the target that may connect in excess of it, 0.1. -/
def peerExcessFactor : F32 := F32.zeroPointOne

/-- The fraction of the target wanted as outbound-only connections, 0.3. -/
def targetOutboundOnlyFactor : F32 := F32.zeroPointThree

/-- Below this fraction of outbound-only peers a discovery query starts, 0.2. -/
def minOutboundOnlyFactor : F32 := F32.zeroPointTwo

/-- The further fraction that may be dialed for priority peers, 0.2. -/
def priorityPeerExcess : F32 := F32.zeroPointTwo

/-- Subtraction of `usize` values, which wraps below zero. -/
def usizeSub (a b : ℕ) : ℕ := (a + 2 ^ 64 - b) % 2 ^ 64

inductive GoodbyeReason
  | clientShutdown
  | irrelevantNetwork
  | fault
  | unableToVerifyNetwork
  | tooManyPeers
  | badScore
  | banned
  | bannedIP
  | unknown
  deriving DecidableEq, Repr

structure SubnetDiscovery where
  subnet : Subnet
  minTtl : Option Instant
  deriving DecidableEq, Repr

inductive PeerManagerEvent
  | peerConnectedIncoming (peerId : PeerId)
  | peerConnectedOutgoing (peerId : PeerId)
  | peerDisconnected (peerId : PeerId)
  | status (peerId : PeerId)
  | ping (peerId : PeerId)
  | metaData (peerId : PeerId)
  | disconnectPeer (peerId : PeerId) (reason : GoodbyeReason)
  | banned (peerId : PeerId) (ips : List IpAddr)
  | unBanned (peerId : PeerId) (ips : List IpAddr)
  | discoverPeers (peersToFind : ℕ)
  | discoverSubnetPeers (subnets : List SubnetDiscovery)
  deriving DecidableEq, Repr

/-- The end of a new connection: who dialed, and the address. -/
inductive ConnectedPoint
  | dialer (address : Multiaddr)
  | listener (sendBackAddr : Multiaddr)
  deriving DecidableEq, Repr

def ConnectedPoint.isListener : ConnectedPoint → Bool
  | dialer _ => false
  | listener _ => true

structure PeerManager (F : Type) where
  /-- `network_globals.peers` -/
  peerdb : PeerDB F
  events : List PeerManagerEvent
  inboundPingPeers : DistinctList PeerId
  outboundPingPeers : DistinctList PeerId
  statusPeers : DistinctList PeerId
  targetPeers : ℕ
  peersToDial : List (PeerId × Option Enr × Bool)
  syncCommitteeSubnets : Map ℕ Instant
  discoveryEnabled : Bool

/-- The clock and the hash-map orders of one heartbeat. -/
structure HeartbeatInput (F : Type) where
  cleanupClock : Clock
  cleanupOrder : Shuffle (Map.Entry PeerId (PeerInfo F))
  scoresClock : Clock
  scoresOrder : Shuffle (Map.Entry PeerId (PeerInfo F))
  subnetsNow : Instant
  subnetsOrder : Shuffle (Map.Entry ℕ Instant)
  pruneClock : Clock
  pruneOrders : PruneOrders F

/-- What happens in one call of `poll`: the heartbeats that are due, the timers that
fire, whether the node is syncing, and the clock when a dial is popped. -/
structure PollInput (F : Type) where
  ticks : List (HeartbeatInput F)
  inboundPings : List PeerId
  outboundPings : List PeerId
  syncing : Bool
  statuses : List PeerId
  now : Instant

inductive PollResult
  | generateEvent (event : PeerManagerEvent)
  | dial (peerId : PeerId)
  | pending
  deriving DecidableEq, Repr

namespace PeerManager

variable {F : Type} [ScoreArith F]

/-- `PeerManager::new` with an empty peer database. -/
def new (targetPeers : ℕ) (discoveryEnabled : Bool) : PeerManager F where
  peerdb := .empty
  events := []
  inboundPingPeers := ∅
  outboundPingPeers := ∅
  statusPeers := ∅
  targetPeers := targetPeers
  peersToDial := []
  syncCommitteeSubnets := ∅
  discoveryEnabled := discoveryEnabled

def push (pm : PeerManager F) (e : PeerManagerEvent) : PeerManager F :=
  { pm with events := pm.events ++ [e] }

/-! ### Limits -/

def maxPeers (pm : PeerManager F) : ℕ :=
  ((F32.ofNat pm.targetPeers).mul (F32.one.add peerExcessFactor)).ceil

def maxPriorityPeers (pm : PeerManager F) : ℕ :=
  ((F32.ofNat pm.targetPeers).mul
    ((F32.one.add peerExcessFactor).add priorityPeerExcess)).ceil

def minOutboundOnlyPeers (pm : PeerManager F) : ℕ :=
  ((F32.ofNat pm.targetPeers).mul minOutboundOnlyFactor).ceil

def targetOutboundPeers (pm : PeerManager F) : ℕ :=
  ((F32.ofNat pm.targetPeers).mul targetOutboundOnlyFactor).ceil

def maxOutboundDialingPeers (pm : PeerManager F) : ℕ :=
  ((F32.ofNat pm.targetPeers).mul
    ((F32.one.add peerExcessFactor).add priorityPeerExcess.half)).ceil

/-- Whether new connections are refused: incoming ones by the standard maximum, ours by
the maximum for outbound dials. -/
def peerLimitReached (pm : PeerManager F) (countDialing : Bool) : Bool :=
  if countDialing then decide (pm.maxPeers ≤ pm.peerdb.connectedOrDialingPeers.length)
  else decide (pm.maxOutboundDialingPeers ≤ pm.peerdb.connectedPeers.length)

/-! ### Score actions -/

/-- The events of a ban operation. -/
def handleBanOperation (pm : PeerManager F) (peerId : PeerId) (banOperation : BanOperation)
    (reason : Option GoodbyeReason) : PeerManager F :=
  match banOperation with
  | .disconnectThePeer => pm.push (.disconnectPeer peerId (reason.getD .badScore))
  | .peerDisconnecting => pm
  | .readyToBan bannedIps => pm.push (.banned peerId bannedIps)

def handleScoreAction (pm : PeerManager F) (peerId : PeerId) (action : ScoreUpdateResult)
    (reason : Option GoodbyeReason) : PeerManager F :=
  match action with
  | .ban banOperation => pm.handleBanOperation peerId banOperation reason
  | .disconnect =>
    { pm with
      inboundPingPeers := pm.inboundPingPeers.remove peerId
      outboundPingPeers := pm.outboundPingPeers.remove peerId }.push
        (.disconnectPeer peerId .badScore)
  | .noAction => pm
  | .unbanned unbannedIps => pm.push (.unBanned peerId unbannedIps)

def handleScoreActions (pm : PeerManager F) (actions : List (PeerId × ScoreUpdateResult)) :
    PeerManager F :=
  actions.foldl (fun pm (peerId, action) => pm.handleScoreAction peerId action none) pm

def reportPeer (pm : PeerManager F) (peerId : PeerId) (action : PeerAction)
    (reason : Option GoodbyeReason) (now : Instant) : PeerManager F :=
  let (peerdb, result) := pm.peerdb.reportPeer peerId action now
  { pm with peerdb := peerdb }.handleScoreAction peerId result reason

def goodbyePeer (pm : PeerManager F) (peerId : PeerId) (reason : GoodbyeReason)
    (now : Instant) : PeerManager F :=
  let pm := if reason = .irrelevantNetwork then
    { pm with peerdb := (pm.peerdb.updateSyncStatus peerId .irrelevantPeer).1 } else pm
  pm.reportPeer peerId .fatal (some reason) now

def updateGossipsubScores (pm : PeerManager F) (peerScore : PeerId → Option F)
    (clock : Clock) (order : Shuffle (Map.Entry PeerId (PeerInfo F))) : PeerManager F :=
  let (peerdb, actions) :=
    pm.peerdb.updateGossipsubScores pm.targetPeers peerScore clock order
  { pm with peerdb := peerdb }.handleScoreActions actions

/-! ### Connections -/

def injectDisconnect (pm : PeerManager F) (peerId : PeerId) (now : Instant)
    (order : Shuffle (Map.Entry PeerId (PeerInfo F))) : PeerManager F :=
  let (peerdb, banOperation, purgedPeers) := pm.peerdb.injectDisconnect peerId now order
  let pm := { pm with peerdb := peerdb }
  let pm := match banOperation with
    | some banOperation => pm.handleBanOperation peerId banOperation none
    | none => pm
  { pm with
    inboundPingPeers := pm.inboundPingPeers.remove peerId
    outboundPingPeers := pm.outboundPingPeers.remove peerId
    statusPeers := pm.statusPeers.remove peerId
    events := pm.events ++ purgedPeers.map fun (p, unbannedIps) => .unBanned p unbannedIps }

/-- Gracefully disconnects a peer without banning it. -/
def disconnectPeer (pm : PeerManager F) (peerId : PeerId) (reason : GoodbyeReason)
    (now : Instant) : PeerManager F :=
  let pm := pm.push (.disconnectPeer peerId reason)
  { pm with peerdb := pm.peerdb.notifyDisconnecting peerId false now }

/-- `inject_peer_connection` for a peer that is being dialed. -/
def injectDialing (pm : PeerManager F) (peerId : PeerId) (enr : Option Enr) (trusted : Bool)
    (now : Instant) : PeerManager F :=
  { pm with peerdb := pm.peerdb.dialingPeer peerId enr trusted now }

def injectConnectIngoing (pm : PeerManager F) (peerId : PeerId) (multiaddr : Multiaddr)
    (enr : Option Enr) (now : Instant) : PeerManager F :=
  { pm with
    peerdb := pm.peerdb.connectIngoing peerId multiaddr enr now
    inboundPingPeers := pm.inboundPingPeers.insert peerId
    statusPeers := pm.statusPeers.insert peerId }

def injectConnectOutgoing (pm : PeerManager F) (peerId : PeerId) (multiaddr : Multiaddr)
    (enr : Option Enr) (now : Instant) : PeerManager F :=
  { pm with
    peerdb := pm.peerdb.connectOutgoing peerId multiaddr enr now
    outboundPingPeers := pm.outboundPingPeers.insert peerId
    statusPeers := pm.statusPeers.insert peerId }

/-- Registers an accepted connection and announces it. -/
def register (pm : PeerManager F) (peerId : PeerId) (endpoint : ConnectedPoint)
    (now : Instant) : PeerManager F :=
  match endpoint with
  | .listener sendBackAddr =>
    (pm.injectConnectIngoing peerId sendBackAddr none now).push (.peerConnectedIncoming peerId)
  | .dialer address =>
    (pm.injectConnectOutgoing peerId address none now).push (.peerConnectedOutgoing peerId)

/-- The peer limit is reached and the peer is not needed for a validator duty. -/
def tooManyPeers (pm : PeerManager F) (peerId : PeerId) (endpoint : ConnectedPoint)
    (now : Instant) : Bool :=
  pm.peerLimitReached endpoint.isListener &&
    (pm.peerdb.peerInfo peerId).elim true fun peer => !peer.hasFutureDuty now

def injectConnectionEstablished (pm : PeerManager F) (peerId : PeerId)
    (endpoint : ConnectedPoint) (otherEstablished : ℕ) (now : Instant) : PeerManager F :=
  let pm := if otherEstablished = 0 then pm.push (.metaData peerId) else pm
  match pm.peerdb.banStatus peerId with
  -- "Connected to a banned peer, re-banning"
  | .badScore => pm.goodbyePeer peerId .banned now
  | .bannedIp _ => pm.goodbyePeer peerId .bannedIP now
  | .notBanned =>
    if pm.tooManyPeers peerId endpoint now then pm.disconnectPeer peerId .tooManyPeers now
    else pm.register peerId endpoint now

def injectConnectionClosed (pm : PeerManager F) (peerId : PeerId) (remainingEstablished : ℕ)
    (now : Instant) (order : Shuffle (Map.Entry PeerId (PeerInfo F))) : PeerManager F :=
  if 0 < remainingEstablished then pm
  else
    let pm := if pm.peerdb.isConnectedOrDisconnecting peerId then
      pm.push (.peerDisconnected peerId) else pm
    pm.injectDisconnect peerId now order

def injectDialFailure (pm : PeerManager F) (peerId : Option PeerId) (now : Instant)
    (order : Shuffle (Map.Entry PeerId (PeerInfo F))) : PeerManager F :=
  match peerId with
  | some peerId =>
    if !pm.peerdb.isConnected peerId then pm.injectDisconnect peerId now order else pm
  | none => pm

/-! ### Dialing, discovery and trust -/

def dialPeer (pm : PeerManager F) (peerId : PeerId) (enr : Option Enr) : PeerManager F :=
  { pm with peersToDial := pm.peersToDial ++ [(peerId, enr, false)] }

def dialTrustedPeer (pm : PeerManager F) (peerId : PeerId) (enr : Option Enr) :
    PeerManager F :=
  { pm with peersToDial := pm.peersToDial ++ [(peerId, enr, true)] }

def removeTrusted (pm : PeerManager F) (peerId : PeerId) : PeerManager F :=
  { pm with peerdb := pm.peerdb.modifyPeer peerId (·.setUntrusted) }

def maintainPeerCount (pm : PeerManager F) (dialingPeers : ℕ) : PeerManager F :=
  if pm.discoveryEnabled then
    let peerCount := pm.peerdb.connectedOrDialingPeers.length
    let outboundOnlyPeerCount := pm.peerdb.connectedOutboundOnlyPeers.length
    let wantedPeers :=
      if peerCount < pm.targetPeers - dialingPeers then
        usizeSub (pm.targetPeers - dialingPeers) peerCount
      else if outboundOnlyPeerCount < pm.minOutboundOnlyPeers ∧
          peerCount < pm.maxOutboundDialingPeers then
        usizeSub (pm.maxOutboundDialingPeers - dialingPeers) peerCount
      else 0
    if wantedPeers ≠ 0 then pm.push (.discoverPeers wantedPeers) else pm
  else pm

/-- The loop of `peers_discovered` over its results, in the order of their map. -/
def selectToDial (connectedOrDialing : ℕ) (now : Instant) :
    List (PeerId × Option Instant) → PeerManager F × List PeerId →
      PeerManager F × List PeerId
  | [], r => r
  | (peerId, minTtl) :: results, (pm, toDialPeers) =>
    if (minTtl.isSome ∧ connectedOrDialing + toDialPeers.length < pm.maxPriorityPeers ∨
          connectedOrDialing + toDialPeers.length < pm.maxPeers) ∧
        pm.peerdb.shouldDial peerId = true then
      let pm := match minTtl with
        | some minTtl => { pm with peerdb := pm.peerdb.updateMinTtl peerId minTtl now }
        | none => pm
      selectToDial connectedOrDialing now results (pm, toDialPeers ++ [peerId])
    else selectToDial connectedOrDialing now results (pm, toDialPeers)

def peersDiscovered (pm : PeerManager F) (results : List (PeerId × Option Instant))
    (now : Instant) : PeerManager F × List PeerId :=
  let r := selectToDial pm.peerdb.connectedOrDialingPeers.length now results (pm, [])
  (r.1.maintainPeerCount r.2.length, r.2)

/-! ### Pings, statuses and metadata -/

def peerStatusd (pm : PeerManager F) (peerId : PeerId) : PeerManager F :=
  { pm with statusPeers := pm.statusPeers.insert peerId }

/-- Requests the metadata of a peer when it is unknown or older than `seq`. -/
def requestMetaData (pm : PeerManager F) (peerId : PeerId) (peerInfo : PeerInfo F)
    (seq : UInt64) : PeerManager F :=
  match peerInfo.metaData with
  | some metaData => if metaData.seqNumber < seq then pm.push (.metaData peerId) else pm
  | none => pm.push (.metaData peerId)

def pingRequest (pm : PeerManager F) (peerId : PeerId) (seq : UInt64) : PeerManager F :=
  match pm.peerdb.peerInfo peerId with
  | some peerInfo =>
    let pm := match peerInfo.connectionDirection with
      | some .incoming => { pm with inboundPingPeers := pm.inboundPingPeers.insert peerId }
      | some .outgoing => { pm with outboundPingPeers := pm.outboundPingPeers.insert peerId }
      | none => pm
    pm.requestMetaData peerId peerInfo seq
  | none => pm

def pongResponse (pm : PeerManager F) (peerId : PeerId) (seq : UInt64) : PeerManager F :=
  match pm.peerdb.peerInfo peerId with
  | some peerInfo => pm.requestMetaData peerId peerInfo seq
  | none => pm

def metaDataResponse (pm : PeerManager F) (peerId : PeerId) (metaData : MetaData) :
    PeerManager F :=
  { pm with peerdb := pm.peerdb.modifyPeer peerId (·.setMetaData metaData) }

def addSyncSubnet (pm : PeerManager F) (subnetId : ℕ) (minTtl : Instant) : PeerManager F :=
  match pm.syncCommitteeSubnets.lookup subnetId with
  | none => { pm with
      syncCommitteeSubnets := pm.syncCommitteeSubnets.insert subnetId minTtl }
  | some old =>
    if old < minTtl then
      { pm with syncCommitteeSubnets := pm.syncCommitteeSubnets.insert subnetId minTtl }
    else pm

/-! ### Heartbeat and poll -/

def maintainSyncCommitteePeers (pm : PeerManager F) (now : Instant)
    (order : Shuffle (Map.Entry ℕ Instant)) : PeerManager F :=
  let expired := (pm.syncCommitteeSubnets.entries.filter fun e => !decide (now < e.2)).map (·.1)
  let pm := { pm with
    syncCommitteeSubnets := expired.foldl (fun m k => m.erase k) pm.syncCommitteeSubnets }
  let subnetsToDiscover := (order.run pm.syncCommitteeSubnets.entries).filterMap fun e =>
    if (pm.peerdb.goodPeersOnSubnet (.syncCommittee e.1)).length < targetSubnetPeers then
      some { subnet := .syncCommittee e.1, minTtl := some e.2 }
    else none
  if subnetsToDiscover.isEmpty then pm else pm.push (.discoverSubnetPeers subnetsToDiscover)

def pruneExcessPeers (pm : PeerManager F) (clock : Clock) (orders : PruneOrders F) :
    PeerManager F :=
  (excessPeers pm.peerdb pm.targetPeers pm.targetOutboundPeers clock orders).foldl
    (fun pm peerId => pm.disconnectPeer peerId .tooManyPeers (clock peerId)) pm

def heartbeat (pm : PeerManager F) (inp : HeartbeatInput F) : PeerManager F :=
  let pm := pm.maintainPeerCount 0
  let pm := { pm with
    peerdb := pm.peerdb.cleanupDialingPeers inp.cleanupClock inp.cleanupOrder }
  let (peerdb, actions) := pm.peerdb.updateScores inp.scoresClock inp.scoresOrder
  let pm := { pm with peerdb := peerdb }.handleScoreActions actions
  let pm := pm.maintainSyncCommitteePeers inp.subnetsNow inp.subnetsOrder
  pm.pruneExcessPeers inp.pruneClock inp.pruneOrders

/-- The timers of the peers of a set that fire, each with its event. A timer that fires
is set again. -/
def fireTimers (pm : PeerManager F) (set : DistinctList PeerId)
    (event : PeerId → PeerManagerEvent) (due : List PeerId) : PeerManager F :=
  { pm with events := pm.events ++ (due.filter (· ∈ set)).map event }

def poll (pm : PeerManager F) (inp : PollInput F) : PeerManager F × PollResult :=
  let pm := inp.ticks.foldl heartbeat pm
  let pm := pm.fireTimers pm.inboundPingPeers .ping inp.inboundPings
  let pm := pm.fireTimers pm.outboundPingPeers .ping inp.outboundPings
  let pm := if inp.syncing then pm else pm.fireTimers pm.statusPeers .status inp.statuses
  match pm.events with
  | event :: events => ({ pm with events := events }, .generateEvent event)
  | [] =>
    match pm.peersToDial with
    | (peerId, maybeEnr, trusted) :: peersToDial =>
      (({ pm with peersToDial := peersToDial }).injectDialing peerId maybeEnr trusted inp.now,
        .dial peerId)
    | [] => (pm, .pending)

end PeerManager

/-! ## Calls and runs -/

/-- The calls a peer manager receives from the swarm, from the network service and from
the application. The subscriptions change the peer database directly. -/
inductive PmOp (F : Type)
  | injectConnectionEstablished (peerId : PeerId) (endpoint : ConnectedPoint)
      (otherEstablished : ℕ) (now : Instant)
  | injectConnectionClosed (peerId : PeerId) (remainingEstablished : ℕ) (now : Instant)
      (order : Shuffle (Map.Entry PeerId (PeerInfo F)))
  | injectDialFailure (peerId : Option PeerId) (now : Instant)
      (order : Shuffle (Map.Entry PeerId (PeerInfo F)))
  | reportPeer (peerId : PeerId) (action : PeerAction) (reason : Option GoodbyeReason)
      (now : Instant)
  | goodbyePeer (peerId : PeerId) (reason : GoodbyeReason) (now : Instant)
  | updateGossipsubScores (peerScore : PeerId → Option F) (clock : Clock)
      (order : Shuffle (Map.Entry PeerId (PeerInfo F)))
  | heartbeat (inp : HeartbeatInput F)
  | peersDiscovered (results : List (PeerId × Option Instant)) (now : Instant)
  | dialPeer (peerId : PeerId) (enr : Option Enr)
  | dialTrustedPeer (peerId : PeerId) (enr : Option Enr)
  | removeTrusted (peerId : PeerId)
  | disconnectPeer (peerId : PeerId) (reason : GoodbyeReason) (now : Instant)
  | peerStatusd (peerId : PeerId)
  | pingRequest (peerId : PeerId) (seq : UInt64)
  | pongResponse (peerId : PeerId) (seq : UInt64)
  | metaDataResponse (peerId : PeerId) (metaData : MetaData)
  | addSyncSubnet (subnetId : ℕ) (minTtl : Instant)
  | addSubscription (peerId : PeerId) (subnet : Subnet)
  | removeSubscription (peerId : PeerId) (subnet : Subnet)
  | extendPeersOnSubnet (subnet : Subnet) (minTtl : Instant)
  | updateSyncStatus (peerId : PeerId) (status : SyncStatus)
  | poll (inp : PollInput F)

/-- A peer manager and the events already handed to the swarm. -/
structure System (F : Type) where
  pm : PeerManager F
  emitted : List PeerManagerEvent

namespace System

variable {F : Type} [ScoreArith F]

def new (targetPeers : ℕ) (discoveryEnabled : Bool) : System F where
  pm := .new targetPeers discoveryEnabled
  emitted := []

/-- Every event pushed so far, in order. -/
def log (s : System F) : List PeerManagerEvent := s.emitted ++ s.pm.events

def withPm (s : System F) (pm : PeerManager F) : System F := { s with pm := pm }

def step (s : System F) : PmOp F → System F
  | .injectConnectionEstablished p endpoint other now =>
    s.withPm (s.pm.injectConnectionEstablished p endpoint other now)
  | .injectConnectionClosed p remaining now order =>
    s.withPm (s.pm.injectConnectionClosed p remaining now order)
  | .injectDialFailure p now order => s.withPm (s.pm.injectDialFailure p now order)
  | .reportPeer p action reason now => s.withPm (s.pm.reportPeer p action reason now)
  | .goodbyePeer p reason now => s.withPm (s.pm.goodbyePeer p reason now)
  | .updateGossipsubScores peerScore clock order =>
    s.withPm (s.pm.updateGossipsubScores peerScore clock order)
  | .heartbeat inp => s.withPm (s.pm.heartbeat inp)
  | .peersDiscovered results now => s.withPm (s.pm.peersDiscovered results now).1
  | .dialPeer p enr => s.withPm (s.pm.dialPeer p enr)
  | .dialTrustedPeer p enr => s.withPm (s.pm.dialTrustedPeer p enr)
  | .removeTrusted p => s.withPm (s.pm.removeTrusted p)
  | .disconnectPeer p reason now => s.withPm (s.pm.disconnectPeer p reason now)
  | .peerStatusd p => s.withPm (s.pm.peerStatusd p)
  | .pingRequest p seq => s.withPm (s.pm.pingRequest p seq)
  | .pongResponse p seq => s.withPm (s.pm.pongResponse p seq)
  | .metaDataResponse p metaData => s.withPm (s.pm.metaDataResponse p metaData)
  | .addSyncSubnet id minTtl => s.withPm (s.pm.addSyncSubnet id minTtl)
  | .addSubscription p subnet =>
    s.withPm { s.pm with peerdb := s.pm.peerdb.addSubscription p subnet }
  | .removeSubscription p subnet =>
    s.withPm { s.pm with peerdb := s.pm.peerdb.removeSubscription p subnet }
  | .extendPeersOnSubnet subnet minTtl =>
    s.withPm { s.pm with peerdb := s.pm.peerdb.extendPeersOnSubnet subnet minTtl }
  | .updateSyncStatus p status =>
    s.withPm { s.pm with peerdb := (s.pm.peerdb.updateSyncStatus p status).1 }
  | .poll inp =>
    let r := s.pm.poll inp
    match r.2 with
    | .generateEvent event => { pm := r.1, emitted := s.emitted ++ [event] }
    | .dial _ | .pending => s.withPm r.1

end System

end Consentry
