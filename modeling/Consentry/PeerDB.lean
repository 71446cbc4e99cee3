import Consentry.BannedPeersCount
import Consentry.F32
import Mathlib.Data.List.MinMax

/-!
# The peer database (`peer_manager/peerdb.rs`)

`PeerDB.updateConnectionState` is the state machine of a peer's connection status
together with the counters of disconnected and banned peers. Its arms work on an `Arm`:
the entry of the peer and the counters, as the mutable borrows of the source.

The iteration order of the hash maps is an argument (`Shuffle`) of the functions whose
result can depend on it, and so is the clock: a reading for each peer (`Clock`) where a
loop over the peers reads it.
-/

namespace Consentry

open Lib

/-- Max number of disconnected nodes to remember. -/
@[irreducible] def maxDcPeers : ℕ := 500

/-- Max number of banned nodes to remember. -/
@[irreducible] def maxBannedPeers : ℕ := 1000

/-- `ALLOWED_NEGATIVE_GOSSIPSUB_FACTOR`, 0.1. -/
def allowedNegativeGossipsubFactor : F32 := F32.zeroPointOne

/-- How long a peer may be dialing before it is reverted to disconnected: 15 seconds. -/
def dialTimeout : ℕ := 15 * 10 ^ 9

/-- The readings of the clock in a loop over the peers: one for each peer. -/
abbrev Clock := PeerId → Instant

inductive NewConnectionState
  | connected (enr : Option Enr) (seenAddress : Multiaddr) (direction : ConnectionDirection)
  | disconnecting (toBan : Bool)
  | dialing (enr : Option Enr) (trusted : Bool)
  | disconnected
  | banned
  | unbanned
  deriving DecidableEq, Repr

inductive BanOperation
  | disconnectThePeer
  | readyToBan (bannedIps : List IpAddr)
  | peerDisconnecting
  deriving DecidableEq, Repr

inductive ScoreTransitionResult
  | disconnected
  | banned
  | unbanned
  | noAction
  deriving DecidableEq, Repr

inductive ScoreUpdateResult
  | ban (op : BanOperation)
  | disconnect
  | unbanned (unbannedIps : List IpAddr)
  | noAction
  deriving DecidableEq, Repr

/-- `From<Option<BanOperation>> for ScoreUpdateResult`. -/
def ScoreUpdateResult.ofBanOperation : Option BanOperation → ScoreUpdateResult
  | none => .noAction
  | some op => .ban op

inductive BanResult
  | badScore
  | bannedIp (ip : IpAddr)
  | notBanned
  deriving DecidableEq, Repr

/-! ## The arms of `update_connection_state` -/

/-- What an arm of `update_connection_state` reads and writes: the entry of the peer,
the two counters and the operation returned. -/
structure Arm (F : Type) where
  info : PeerInfo F
  disconnectedPeers : Counter
  bannedPeersCount : BannedPeersCount
  banOperation : Option BanOperation

namespace Arm

variable {F : Type} [ScoreArith F]

def setStatus (s : Arm F) (status : PeerConnectionStatus) : Arm F :=
  { s with info := s.info.setConnectionStatus status }

def addBannedPeer (s : Arm F) : Arm F :=
  { s with bannedPeersCount := s.bannedPeersCount.addBannedPeer s.info.seenIpAddresses }

def removeBannedPeer (s : Arm F) : Arm F :=
  { s with bannedPeersCount := s.bannedPeersCount.removeBannedPeer s.info.seenIpAddresses }

def decrementDisconnected (s : Arm F) : Arm F :=
  { s with disconnectedPeers := s.disconnectedPeers.saturatingSub }

def incrementDisconnected (s : Arm F) : Arm F :=
  { s with disconnectedPeers := s.disconnectedPeers.add 1 }

/-- Returns the peer as ready to ban, with those of its seen IPs that are banned. -/
def readyToBan (s : Arm F) : Arm F :=
  let knownBannedIps := s.bannedPeersCount.bannedIps
  let bannedIps := s.info.seenIpAddresses.filter fun ip => knownBannedIps.contains ip
  { s with banOperation := some (.readyToBan bannedIps) }

/-- Updates the ENR if one is known. -/
def updateEnr (s : Arm F) (enr : Option Enr) : Arm F :=
  match enr with
  | some enr => { s with info := s.info.setEnr enr }
  | none => s

/-- Marks the peer as being dialed. The error of an unexpected state is only logged. -/
def setDialingPeer (s : Arm F) (now : Instant) : Arm F :=
  match s.info.setDialingPeer now with
  | .ok info => { s with info := info }
  | .error _ => s

def toConnected (s : Arm F) (enr : Option Enr) (seenAddress : Multiaddr)
    (direction : ConnectionDirection) : Arm F :=
  let s := s.updateEnr enr
  let s := match s.info.connectionStatus with
    | .disconnected _ => s.decrementDisconnected
    -- "Accepted a connection from a banned peer"
    | .banned _ => s.removeBannedPeer
    | .disconnecting _ | .unknown | .connected _ _ | .dialing _ => s
  let socketAddr := seenAddress.socketAddr
  match direction with
  | .incoming => { s with info := s.info.connectIngoing socketAddr }
  | .outgoing => { s with info := s.info.connectOutgoing socketAddr }

def toDialing (s : Arm F) (enr : Option Enr) (trusted : Bool) (now : Instant) : Arm F :=
  let s := match s.info.connectionStatus with
    -- "Dialing a banned peer"
    | .banned _ => s.removeBannedPeer
    | .disconnected _ => s.decrementDisconnected
    | .connected _ _ | .dialing _ | .disconnecting _ | .unknown => s
  let s := s.updateEnr enr
  let s := if trusted then { s with info := s.info.setTrusted } else s
  s.setDialingPeer now

def toDisconnected (s : Arm F) (now : Instant) : Arm F :=
  let s := { s with info := s.info.clearSubnets }
  match s.info.connectionStatus with
  | .banned _ => s
  | .disconnected _ => s
  | .disconnecting true => (s.setStatus (.banned now)).addBannedPeer.readyToBan
  | .disconnecting false | .unknown | .connected _ _ | .dialing _ =>
    s.incrementDisconnected.setStatus (.disconnected now)

def toDisconnecting (s : Arm F) (toBan : Bool) : Arm F :=
  match s.info.connectionStatus with
  -- "Disconnecting from a banned peer": the counters of banned peers stay
  | .banned _ => s.setStatus (.disconnecting toBan)
  | .disconnected _ => s.decrementDisconnected.setStatus (.disconnecting toBan)
  | _ => s.setStatus (.disconnecting toBan)

def toBanned (s : Arm F) (now : Instant) : Arm F :=
  match s.info.connectionStatus with
  | .disconnected _ =>
    (s.setStatus (.banned now)).addBannedPeer.decrementDisconnected.readyToBan
  | .disconnecting _ =>
    { s.setStatus (.disconnecting true) with banOperation := some .peerDisconnecting }
  | .banned _ => s.readyToBan
  | .connected _ _ | .dialing _ =>
    { s.setStatus (.disconnecting true) with banOperation := some .disconnectThePeer }
  | .unknown => (s.addBannedPeer.setStatus (.banned now)).readyToBan

def toUnbanned (s : Arm F) : Arm F :=
  match s.info.connectionStatus with
  | .unknown | .connected _ _ => s
  | .disconnected _ | .disconnecting _ => s
  | .dialing _ => s
  | .banned since =>
    (s.setStatus (.disconnected since)).removeBannedPeer.incrementDisconnected

/-- "Ban the peer if the score is not already low enough." -/
def banScore (s : Arm F) (newState : NewConnectionState) : Arm F :=
  match newState with
  | .banned =>
    match s.info.scoreState with
    | .banned => s
    | _ => { s with info := s.info.applyPeerActionToScore .fatal }
  | _ => s

/-- The state changes of `update_connection_state`. -/
def step (s : Arm F) (newState : NewConnectionState) (now : Instant) : Arm F :=
  let s := s.banScore newState
  match newState with
  | .connected enr seenAddress direction => s.toConnected enr seenAddress direction
  | .dialing enr trusted => s.toDialing enr trusted now
  | .disconnected => s.toDisconnected now
  | .disconnecting toBan => s.toDisconnecting toBan
  | .banned => s.toBanned now
  | .unbanned => s.toUnbanned

end Arm

/-! ## The database -/

structure PeerDB (F : Type) where
  peers : Map PeerId (PeerInfo F)
  disconnectedPeers : Counter
  bannedPeersCount : BannedPeersCount

namespace PeerDB

variable {F : Type} [ScoreArith F]

/-- `PeerDB::new(vec![])`. -/
def empty : PeerDB F := ⟨∅, .zero, .empty⟩

/-! ### Getters -/

def peerInfo (db : PeerDB F) (peerId : PeerId) : Option (PeerInfo F) := db.peers.lookup peerId

def connectionStatus (db : PeerDB F) (peerId : PeerId) : Option PeerConnectionStatus :=
  (db.peerInfo peerId).map (·.connectionStatus)

def isConnected (db : PeerDB F) (peerId : PeerId) : Bool :=
  match db.connectionStatus peerId with
  | some (.connected _ _) => true
  | _ => false

def isConnectedOrDisconnecting (db : PeerDB F) (peerId : PeerId) : Bool :=
  match db.connectionStatus peerId with
  | some (.connected _ _) | some (.disconnecting _) => true
  | _ => false

/-- The first known address of the peer that is banned. -/
def ipIsBanned (db : PeerDB F) (peer : PeerInfo F) : Option IpAddr :=
  peer.seenIpAddresses.find? db.bannedPeersCount.ipIsBanned

def isIpBanned (db : PeerDB F) (ip : IpAddr) : Bool := db.bannedPeersCount.ipIsBanned ip

/-- Whether a peer is banned by its score or by its addresses, whatever its connection
state. -/
def banStatus (db : PeerDB F) (peerId : PeerId) : BanResult :=
  match db.peerInfo peerId with
  | some peer =>
    match peer.scoreState with
    | .banned => .badScore
    | _ =>
      match db.ipIsBanned peer with
      | some ip => .bannedIp ip
      | none => .notBanned
  | none => .notBanned

def scoreStateBannedOrDisconnected (db : PeerDB F) (peerId : PeerId) : Bool :=
  match db.peerInfo peerId with
  | some peer =>
    match peer.scoreState with
    | .banned | .disconnected => true
    | _ => (db.ipIsBanned peer).isSome
  | none => false

def shouldDial (db : PeerDB F) (peerId : PeerId) : Bool :=
  (match db.connectionStatus peerId with
    | some (.disconnected _) | some .unknown | none => true
    | _ => false) && !db.scoreStateBannedOrDisconnected peerId

/-- The entries that satisfy `p`, in some order. -/
def select (db : PeerDB F) (p : PeerInfo F → Bool) : List (Map.Entry PeerId (PeerInfo F)) :=
  db.peers.entries.filter fun e => p e.2

def connectedPeers (db : PeerDB F) : List (Map.Entry PeerId (PeerInfo F)) :=
  db.select (·.isConnected)

def connectedOrDialingPeers (db : PeerDB F) : List PeerId :=
  (db.select fun info => info.isConnected || info.isDialing).map (·.1)

def connectedOutboundOnlyPeers (db : PeerDB F) : List PeerId :=
  (db.select (·.isOutboundOnly)).map (·.1)

def goodPeersOnSubnet (db : PeerDB F) (subnet : Subnet) : List PeerId :=
  (db.select fun info => info.isConnected && info.onSubnetMetadata subnet &&
    info.onSubnetGossipsub subnet && info.isGoodGossipsubPeer).map (·.1)

/-- The connected peers from the worst score on; ties are broken by the shuffle. -/
def worstConnectedPeers (db : PeerDB F) (shuffle : Shuffle (Map.Entry PeerId (PeerInfo F))) :
    List (Map.Entry PeerId (PeerInfo F)) :=
  (shuffle.run db.connectedPeers).mergeSort fun a b =>
    decide (a.2.score.score ≤ b.2.score.score)

/-! ### The connection state -/

/-- The entry of a peer, inserted by `or_insert_with` when there is none. -/
def entryOrInsert (db : PeerDB F) (peerId : PeerId) (newState : NewConnectionState)
    (now : Instant) : PeerInfo F :=
  (db.peerInfo peerId).getD <|
    match newState with
    | .dialing _ true => .trustedPeerInfo now
    | _ => .defaultAt now

/-- The state in which an arm finds the entry of a peer. -/
def arm (db : PeerDB F) (info : PeerInfo F) : Arm F where
  info := info
  disconnectedPeers := db.disconnectedPeers
  bannedPeersCount := db.bannedPeersCount
  banOperation := none

/-- Writes back what an arm has done to the entry of a peer. -/
def ofArm (db : PeerDB F) (peerId : PeerId) (s : Arm F) : PeerDB F where
  peers := db.peers.insert peerId s.info
  disconnectedPeers := s.disconnectedPeers
  bannedPeersCount := s.bannedPeersCount

def updateConnectionState (db : PeerDB F) (peerId : PeerId) (newState : NewConnectionState)
    (now : Instant) : PeerDB F × Option BanOperation :=
  let s := (db.arm (db.entryOrInsert peerId newState now)).step newState now
  (db.ofArm peerId s, s.banOperation)

def dialingPeer (db : PeerDB F) (peerId : PeerId) (enr : Option Enr) (trusted : Bool)
    (now : Instant) : PeerDB F :=
  (db.updateConnectionState peerId (.dialing enr trusted) now).1

def connectIngoing (db : PeerDB F) (peerId : PeerId) (seenAddress : Multiaddr)
    (enr : Option Enr) (now : Instant) : PeerDB F :=
  (db.updateConnectionState peerId (.connected enr seenAddress .incoming) now).1

def connectOutgoing (db : PeerDB F) (peerId : PeerId) (seenAddress : Multiaddr)
    (enr : Option Enr) (now : Instant) : PeerDB F :=
  (db.updateConnectionState peerId (.connected enr seenAddress .outgoing) now).1

def notifyDisconnecting (db : PeerDB F) (peerId : PeerId) (toBan : Bool) (now : Instant) :
    PeerDB F :=
  (db.updateConnectionState peerId (.disconnecting toBan) now).1

/-- Reverts the peers that have been dialing for longer than the timeout. -/
def cleanupDialingPeers (db : PeerDB F) (clock : Clock)
    (order : Shuffle (Map.Entry PeerId (PeerInfo F))) : PeerDB F :=
  let peersToDisconnect := (order.run db.peers.entries).filterMap fun e =>
    match e.2.connectionStatus with
    | .dialing since => if since + dialTimeout < clock e.1 then some e.1 else none
    | _ => none
  peersToDisconnect.foldl (fun db peerId =>
    (db.updateConnectionState peerId .disconnected (clock peerId)).1) db

/-! ### Eviction -/

/-- The banned entries with the moment of their ban. -/
def bannedSince (db : PeerDB F) (order : Shuffle (Map.Entry PeerId (PeerInfo F))) :
    List (Map.Entry PeerId (PeerInfo F) × Instant) :=
  (order.run db.peers.entries).filterMap fun e =>
    match e.2.connectionStatus with
    | .banned since => some (e, since)
    | _ => none

def disconnectedSince (db : PeerDB F) (order : Shuffle (Map.Entry PeerId (PeerInfo F))) :
    List (PeerId × Instant) :=
  ((order.run db.peers.entries).filter fun e => e.2.isDisconnected).filterMap fun e =>
    match e.2.connectionStatus with
    | .disconnected since => some (e.1, since)
    | _ => none

/-- The loop that removes excess banned peers. A round lowers the counter by one or
resets it, so `excess_peers` rounds are enough. -/
def shrinkBanned (order : Shuffle (Map.Entry PeerId (PeerInfo F))) :
    ℕ → PeerDB F → List (PeerId × List IpAddr) → PeerDB F × List (PeerId × List IpAddr)
  | 0, db, unbannedPeers => (db, unbannedPeers)
  | rounds + 1, db, unbannedPeers =>
    if maxBannedPeers < db.bannedPeersCount.bannedPeers.val then
      match (db.bannedSince order).argmin (·.2) with
      | some (e, _) =>
        let db := { db with
          bannedPeersCount := db.bannedPeersCount.removeBannedPeer e.2.seenIpAddresses }
        let unbannedIps := e.2.seenIpAddresses.filter fun ip => !db.isIpBanned ip
        let db := { db with peers := db.peers.erase e.1 }
        shrinkBanned order rounds db (unbannedPeers ++ [(e.1, unbannedIps)])
      | none =>
        -- "banned_peers > MAX_BANNED_PEERS despite no banned peers in db!"
        shrinkBanned order rounds { db with bannedPeersCount := .empty } unbannedPeers
    else (db, unbannedPeers)

/-- The loop that removes excess disconnected peers. -/
def shrinkDisconnected (order : Shuffle (Map.Entry PeerId (PeerInfo F))) :
    ℕ → PeerDB F → PeerDB F
  | 0, db => db
  | rounds + 1, db =>
    if maxDcPeers < db.disconnectedPeers.val then
      let db := match (db.disconnectedSince order).argmin (·.2) with
        | some (toDrop, _) => { db with peers := db.peers.erase toDrop }
        | none => db
      shrinkDisconnected order rounds
        { db with disconnectedPeers := db.disconnectedPeers.saturatingSub }
    else db

def shrinkToFit (db : PeerDB F) (order : Shuffle (Map.Entry PeerId (PeerInfo F))) :
    PeerDB F × List (PeerId × List IpAddr) :=
  let excessPeers := db.bannedPeersCount.bannedPeers.val - maxBannedPeers
  let (db, unbannedPeers) := shrinkBanned order excessPeers db []
  let db := shrinkDisconnected order (db.disconnectedPeers.val - maxDcPeers) db
  (db, unbannedPeers)

def injectDisconnect (db : PeerDB F) (peerId : PeerId) (now : Instant)
    (order : Shuffle (Map.Entry PeerId (PeerInfo F))) :
    PeerDB F × Option BanOperation × List (PeerId × List IpAddr) :=
  let (db, maybeBanOp) := db.updateConnectionState peerId .disconnected now
  let (db, purgedPeers) := db.shrinkToFit order
  (db, maybeBanOp, purgedPeers)

/-! ### Scores -/

def handleScoreTransition (previousState : ScoreState) (info : PeerInfo F) :
    ScoreTransitionResult :=
  match info.scoreState, previousState with
  | .banned, .healthy | .banned, .disconnected => .banned
  | .disconnected, .banned | .disconnected, .healthy =>
    if info.isConnectedOrDialing then .disconnected
    else if previousState = .banned then .unbanned
    else .noAction
  | .healthy, .disconnected => .noAction
  | .healthy, .banned => .unbanned
  | .healthy, .healthy => .noAction
  | .disconnected, .disconnected => .noAction
  | .banned, .banned => .noAction

/-- The seen addresses of a peer that are not banned, empty for an unknown peer. -/
def unbannedIps (db : PeerDB F) (peerId : PeerId) : List IpAddr :=
  (db.peerInfo peerId).elim [] fun info =>
    info.seenIpAddresses.filter fun ip => !db.isIpBanned ip

/-- Moves a peer to the unbanned state and lists its addresses to unban. -/
def unbanPeer (db : PeerDB F) (peerId : PeerId) (now : Instant) :
    PeerDB F × ScoreUpdateResult :=
  let db := (db.updateConnectionState peerId .unbanned now).1
  (db, .unbanned (db.unbannedIps peerId))

/-- Decay of all scores. Only the transitions out of the banned state have an effect:
those into it and into the disconnected state are logged as errors. -/
def updateScores (db : PeerDB F) (clock : Clock)
    (order : Shuffle (Map.Entry PeerId (PeerInfo F))) :
    PeerDB F × List (PeerId × ScoreUpdateResult) :=
  let peersToUnban := (order.run db.peers.entries).filterMap fun e =>
    match handleScoreTransition e.2.scoreState (e.2.scoreUpdate (clock e.1)) with
    | .unbanned => some e.1
    | .banned | .disconnected | .noAction => none
  let db := { db with peers := db.peers.mapVal fun id info => info.scoreUpdate (clock id) }
  peersToUnban.foldl (fun (db, result) unbannedPeer =>
    let (db, r) := db.unbanPeer unbannedPeer (clock unbannedPeer)
    (db, result ++ [(unbannedPeer, r)])) (db, [])

/-- The action of `update_gossipsub_scores` on a peer after its score has changed. -/
def gossipsubAction (db : PeerDB F) (peerId : PeerId) (action : ScoreTransitionResult)
    (now : Instant) : PeerDB F × ScoreUpdateResult :=
  match action with
  | .banned =>
    let (db, op) := db.updateConnectionState peerId .banned now
    (db, .ofBanOperation op)
  | .disconnected =>
    ((db.updateConnectionState peerId (.disconnecting false) now).1, .disconnect)
  | .noAction => (db, .noAction)
  | .unbanned => db.unbanPeer peerId now

/-- The connected peers with a known gossipsub score, from the best score on; ties are
in any order. -/
def gossipsubPeers (db : PeerDB F) (peerScore : PeerId → Option F)
    (order : Shuffle (Map.Entry PeerId (PeerInfo F))) :
    List (Map.Entry PeerId (PeerInfo F) × F) :=
  let peers := (order.run db.connectedPeers).filterMap fun e =>
    (peerScore e.1).map fun score => (e, score)
  peers.mergeSort fun a b => decide (b.2 ≤ a.2)

/-- The first loop: sets the gossipsub scores, ignoring the negative ones of the best
`toIgnore` negative peers, and collects the score transitions. -/
def setGossipsubScores (clock : Clock) :
    List (Map.Entry PeerId (PeerInfo F) × F) → ℕ → PeerDB F →
      PeerDB F × List (PeerId × ScoreTransitionResult)
  | [], _, db => (db, [])
  | (⟨peerId, info⟩, score) :: peers, toIgnoreNegativePeers, db =>
    let previousState := info.scoreState
    let ignore := decide (score < 0) && decide (0 < toIgnoreNegativePeers)
    let info := info.updateGossipsubScore score ignore (clock peerId)
    let action := handleScoreTransition previousState info
    let toIgnoreNegativePeers :=
      if ignore then toIgnoreNegativePeers - 1 else toIgnoreNegativePeers
    let r := setGossipsubScores clock peers toIgnoreNegativePeers
      { db with peers := db.peers.insert peerId info }
    (r.1, (peerId, action) :: r.2)

def updateGossipsubScores (db : PeerDB F) (targetPeers : ℕ) (peerScore : PeerId → Option F)
    (clock : Clock) (order : Shuffle (Map.Entry PeerId (PeerInfo F))) :
    PeerDB F × List (PeerId × ScoreUpdateResult) :=
  let toIgnoreNegativePeers :=
    ((F32.ofNat targetPeers).mul allowedNegativeGossipsubFactor).ceil
  let (db, actions) :=
    setGossipsubScores clock (db.gossipsubPeers peerScore order) toIgnoreNegativePeers db
  actions.foldl (fun (db, results) (peerId, action) =>
    let (db, result) := db.gossipsubAction peerId action (clock peerId)
    (db, if result = .noAction then results else results ++ [(peerId, result)])) (db, [])

def reportPeer (db : PeerDB F) (peerId : PeerId) (action : PeerAction) (now : Instant) :
    PeerDB F × ScoreUpdateResult :=
  match db.peerInfo peerId with
  | some info =>
    let previousState := info.scoreState
    let info := info.applyPeerActionToScore action
    let db := { db with peers := db.peers.insert peerId info }
    match handleScoreTransition previousState info with
    | .banned =>
      let (db, op) := db.updateConnectionState peerId .banned now
      (db, .ofBanOperation op)
    | .disconnected =>
      ((db.updateConnectionState peerId (.disconnecting false) now).1, .disconnect)
    | .noAction => (db, .noAction)
    -- "Report peer action lead to an unbanning"
    | .unbanned => (db, .noAction)
  | none => (db, .noAction)

/-! ### Other updates -/

/-- Changes the entry of a peer, if it has one (`peer_info_mut`). -/
def modifyPeer (db : PeerDB F) (peerId : PeerId) (f : PeerInfo F → PeerInfo F) : PeerDB F :=
  match db.peerInfo peerId with
  | some info => { db with peers := db.peers.insert peerId (f info) }
  | none => db

def updateMinTtl (db : PeerDB F) (peerId : PeerId) (minTtl : Instant) (now : Instant) :
    PeerDB F :=
  let info := (db.peerInfo peerId).getD (.defaultAt now)
  let info := if info.minTtl.elim true (fun ttl => decide (ttl < minTtl)) then
    info.setMinTtl minTtl else info
  { db with peers := db.peers.insert peerId info }

def addSubscription (db : PeerDB F) (peerId : PeerId) (subnet : Subnet) : PeerDB F :=
  db.modifyPeer peerId (·.insertSubnet subnet)

def removeSubscription (db : PeerDB F) (peerId : PeerId) (subnet : Subnet) : PeerDB F :=
  db.modifyPeer peerId (·.removeSubnet subnet)

def extendPeersOnSubnet (db : PeerDB F) (subnet : Subnet) (minTtl : Instant) : PeerDB F :=
  { db with peers := db.peers.mapVal fun _ info =>
      if info.isConnected && info.onSubnetMetadata subnet && info.onSubnetGossipsub subnet &&
          info.minTtl.elim true (fun ttl => decide (ttl < minTtl)) then
        info.setMinTtl minTtl
      else info }

/-- Returns whether the status was modified, `none` for an unknown peer. -/
def updateSyncStatus (db : PeerDB F) (peerId : PeerId) (status : SyncStatus) :
    PeerDB F × Option Bool :=
  match db.peerInfo peerId with
  | some info =>
    let (info, changed) := info.updateSyncStatus status
    ({ db with peers := db.peers.insert peerId info }, some changed)
  | none => (db, none)

end PeerDB

end Consentry
