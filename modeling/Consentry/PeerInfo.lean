import Consentry.Lib.Assoc
import Consentry.Score

/-!
# What is known about a peer (`peer_manager/peerdb/peer_info.rs`)

`PeerInfo` without the fields no decision is taken on (the client and the listening
addresses). Time is an argument of every function that reads the clock.
-/

namespace Consentry

open Lib

/-! ## Addresses -/

inductive IpAddr
  | v4 (octets : UInt32)
  | v6 (octets : BitVec 128)
  deriving DecidableEq, Repr

structure SocketAddr where
  ip : IpAddr
  port : UInt16
  deriving DecidableEq, Repr

/-- The identity of a peer: the bytes of its multihash. -/
structure PeerId where
  multihash : List UInt8
  deriving DecidableEq, Repr

/-- A component of a multiaddress; those the peer database skips are `other`. -/
inductive AddrProtocol
  | ip4 (ip : UInt32)
  | ip6 (ip : BitVec 128)
  | tcp (port : UInt16)
  | other
  deriving DecidableEq, Repr

abbrev Multiaddr := List AddrProtocol

namespace Multiaddr

/-- The fold of `update_connection_state` over a seen address: the last IP and the last
TCP port, if there are both. -/
def socketAddr (seenAddress : Multiaddr) : Option SocketAddr :=
  let found := seenAddress.foldl (fun (found : Option IpAddr × Option UInt16) protocol =>
    match protocol with
    | .ip4 ip => (some (.v4 ip), found.2)
    | .ip6 ip => (some (.v6 ip), found.2)
    | .tcp port => (found.1, some port)
    | .other => found) (none, none)
  match found with
  | (some ip, some port) => some ⟨ip, port⟩
  -- "Connected peer has an IP but no TCP port"
  | (some _, none) => none
  | _ => none

end Multiaddr

/-! ## Subnets and metadata -/

inductive Subnet
  | attestation (id : ℕ)
  | syncCommittee (id : ℕ)
  deriving DecidableEq, Repr

/-- A fixed-length bit vector of subnets. -/
abbrev Bitfield := List Bool

namespace Bitfield

def get (b : Bitfield) (i : ℕ) : Option Bool := b[i]?

def isZero (b : Bitfield) : Bool := b.all (!·)

def numSetBits (b : Bitfield) : ℕ := b.countP (·)

def highestSetBit (b : Bitfield) : Option ℕ :=
  (List.range b.length).reverse.find? fun i => (b.get i).getD false

/-- The indices `0..=highest_set_bit` that are set. -/
def setBits (b : Bitfield) : List ℕ :=
  (List.range (b.highestSetBit.getD 0 + 1)).filter fun i => (b.get i).getD false

end Bitfield

/-- `syncnets` is present in metadata of version 2 only. -/
structure MetaData where
  seqNumber : UInt64
  attnets : Bitfield
  syncnets : Option Bitfield
  deriving DecidableEq, Repr

/-- What the peer manager reads of a node record: its two subnet fields, absent when
they are missing or do not decode. -/
structure Enr where
  attestationBitfield : Option Bitfield
  syncCommitteeBitfield : Option Bitfield
  deriving DecidableEq, Repr

/-- The sync status of a peer, without the chain heads it carries. -/
inductive SyncStatus
  | synced
  | advanced
  | behind
  | irrelevantPeer
  | unknown
  deriving DecidableEq, Repr

/-- The new status, and whether the status transitioned. -/
def SyncStatus.update (s newState : SyncStatus) : SyncStatus × Bool :=
  (newState, decide (s ≠ newState))

/-! ## Peer info -/

inductive ConnectionDirection
  | incoming
  | outgoing
  deriving DecidableEq, Repr

inductive PeerConnectionStatus
  | connected (nIn nOut : UInt8)
  | disconnecting (toBan : Bool)
  | disconnected (since : Instant)
  | banned (since : Instant)
  | dialing (since : Instant)
  | unknown
  deriving DecidableEq, Repr

structure PeerInfo (F : Type) where
  score : Score F
  connectionStatus : PeerConnectionStatus
  /-- The addresses physically seen, on which peers are banned. -/
  seenAddresses : DistinctList SocketAddr
  syncStatus : SyncStatus
  metaData : Option MetaData
  subnets : DistinctList Subnet
  /-- Until when the peer is needed for a validator duty. -/
  minTtl : Option Instant
  isTrusted : Bool
  connectionDirection : Option ConnectionDirection
  enr : Option Enr
  deriving DecidableEq

namespace PeerInfo

variable {F : Type} [ScoreArith F]

/-- `PeerInfo::default()`, created at `now`. -/
def defaultAt (now : Instant) : PeerInfo F where
  score := .defaultAt now
  connectionStatus := .unknown
  seenAddresses := ∅
  syncStatus := .unknown
  metaData := none
  subnets := ∅
  minTtl := none
  isTrusted := false
  connectionDirection := none
  enr := none

def trustedPeerInfo (now : Instant) : PeerInfo F :=
  { (defaultAt now : PeerInfo F) with score := .max, isTrusted := true }

/-! ### Getters -/

def onSubnetMetadata (info : PeerInfo F) (subnet : Subnet) : Bool :=
  match info.metaData with
  | some metaData =>
    match subnet with
    | .attestation id => (metaData.attnets.get id).getD false
    | .syncCommittee id => metaData.syncnets.elim false fun s => (s.get id).getD false
  | none => false

def onSubnetGossipsub (info : PeerInfo F) (subnet : Subnet) : Bool :=
  decide (subnet ∈ info.subnets)

/-- The number of long-lived attestation subnets. -/
def longLivedSubnetCount (info : PeerInfo F) : ℕ :=
  match info.metaData with
  | some metaData => metaData.attnets.numSetBits
  | none =>
    match info.enr with
    | some enr => enr.attestationBitfield.elim 0 (·.numSetBits)
    | none => 0

def longLivedSubnets (info : PeerInfo F) : List Subnet :=
  match info.metaData with
  | some metaData =>
    metaData.attnets.setBits.map .attestation ++
      metaData.syncnets.elim [] fun s => s.setBits.map .syncCommittee
  | none =>
    match info.enr with
    | some enr =>
      enr.attestationBitfield.elim [] (fun a => a.setBits.map .attestation) ++
        enr.syncCommitteeBitfield.elim [] fun s => s.setBits.map .syncCommittee
    | none => []

def hasLongLivedSubnet (info : PeerInfo F) : Bool :=
  let byMetaData := match info.metaData with
    | some metaData =>
      (!metaData.attnets.isZero && !info.subnets.toList.isEmpty) ||
        metaData.syncnets.elim false fun sync => !sync.isZero
    | none => false
  let byEnr := match info.enr with
    | some enr =>
      enr.attestationBitfield.elim false fun attnets =>
        !attnets.isZero && !info.subnets.toList.isEmpty
    | none => false
  byMetaData || byEnr

/-- The IP of every seen socket address: an IP seen on two ports is listed twice. -/
def seenIpAddresses (info : PeerInfo F) : List IpAddr :=
  info.seenAddresses.toList.map (·.ip)

def hasFutureDuty (info : PeerInfo F) (now : Instant) : Bool :=
  info.minTtl.elim false fun i => decide (now ≤ i)

def scoreState (info : PeerInfo F) : ScoreState := info.score.state

def isGoodGossipsubPeer (info : PeerInfo F) : Bool := info.score.isGoodGossipsubPeer

def isConnected (info : PeerInfo F) : Bool :=
  match info.connectionStatus with
  | .connected _ _ => true
  | _ => false

def isDialing (info : PeerInfo F) : Bool :=
  match info.connectionStatus with
  | .dialing _ => true
  | _ => false

def isConnectedOrDialing (info : PeerInfo F) : Bool :=
  info.isConnected || info.isDialing

def isDisconnecting (info : PeerInfo F) : Bool :=
  match info.connectionStatus with
  | .disconnecting _ => true
  | _ => false

def isBanned (info : PeerInfo F) : Bool :=
  match info.connectionStatus with
  | .banned _ => true
  | _ => false

def isDisconnected (info : PeerInfo F) : Bool :=
  match info.connectionStatus with
  | .disconnected _ => true
  | _ => false

def isOutboundOnly (info : PeerInfo F) : Bool :=
  match info.connectionStatus with
  | .connected nIn nOut => nIn == 0 && 0 < nOut
  | _ => false

/-! ### Updates -/

def setConnectionStatus (info : PeerInfo F) (status : PeerConnectionStatus) : PeerInfo F :=
  { info with connectionStatus := status }

def setEnr (info : PeerInfo F) (enr : Enr) : PeerInfo F := { info with enr := some enr }

def setTrusted (info : PeerInfo F) : PeerInfo F := { info with isTrusted := true }

def setUntrusted (info : PeerInfo F) : PeerInfo F := { info with isTrusted := false }

def setMinTtl (info : PeerInfo F) (minTtl : Instant) : PeerInfo F :=
  { info with minTtl := some minTtl }

def setMetaData (info : PeerInfo F) (metaData : MetaData) : PeerInfo F :=
  { info with metaData := some metaData }

/-- Returns whether the status was changed. -/
def updateSyncStatus (info : PeerInfo F) (status : SyncStatus) : PeerInfo F × Bool :=
  let (syncStatus, changed) := info.syncStatus.update status
  ({ info with syncStatus := syncStatus }, changed)

def insertSubnet (info : PeerInfo F) (subnet : Subnet) : PeerInfo F :=
  { info with subnets := info.subnets.insert subnet }

def removeSubnet (info : PeerInfo F) (subnet : Subnet) : PeerInfo F :=
  { info with subnets := info.subnets.remove subnet }

def clearSubnets (info : PeerInfo F) : PeerInfo F := { info with subnets := ∅ }

/-- Applies decay to a non-trusted peer's score. -/
def scoreUpdate (info : PeerInfo F) (now : Instant) : PeerInfo F :=
  if !info.isTrusted then { info with score := info.score.updateAt now } else info

/-- Applies a peer action to a non-trusted peer's score. -/
def applyPeerActionToScore (info : PeerInfo F) (action : PeerAction) : PeerInfo F :=
  if !info.isTrusted then { info with score := info.score.applyPeerAction action } else info

/-- Unlike the two above, this does not look at `isTrusted`. -/
def updateGossipsubScore (info : PeerInfo F) (newScore : F) (ignore : Bool) (now : Instant) :
    PeerInfo F :=
  { info with score := info.score.updateGossipsubScore newScore ignore now }

/-- Modifies the status to dialing; an error if the current state is unexpected. -/
def setDialingPeer (info : PeerInfo F) (now : Instant) : Except String (PeerInfo F) :=
  match info.connectionStatus with
  | .connected _ _ => .error "Dialing connected peer"
  | .dialing _ => .error "Dialing an already dialing peer"
  | .disconnecting _ => .error "Dialing a disconnecting peer"
  | .disconnected _ | .banned _ | .unknown => .ok (info.setConnectionStatus (.dialing now))

def insertSeenAddress (info : PeerInfo F) (seenAddress : Option SocketAddr) : PeerInfo F :=
  match seenAddress with
  | some socketAddr => { info with seenAddresses := info.seenAddresses.insert socketAddr }
  | none => info

/-- The connection counts are `u8` and wrap. -/
def connectIngoing (info : PeerInfo F) (seenAddress : Option SocketAddr) : PeerInfo F :=
  let info := match info.connectionStatus with
    | .connected nIn nOut => info.setConnectionStatus (.connected (nIn + 1) nOut)
    | .disconnected _ | .banned _ | .dialing _ | .disconnecting _ | .unknown =>
      { info with
        connectionStatus := .connected 1 0
        connectionDirection := some .incoming }
  info.insertSeenAddress seenAddress

def connectOutgoing (info : PeerInfo F) (seenAddress : Option SocketAddr) : PeerInfo F :=
  let info := match info.connectionStatus with
    | .connected nIn nOut => info.setConnectionStatus (.connected nIn (nOut + 1))
    | .disconnected _ | .banned _ | .dialing _ | .disconnecting _ | .unknown =>
      { info with
        connectionStatus := .connected 0 1
        connectionDirection := some .outgoing }
  info.insertSeenAddress seenAddress

end PeerInfo

end Consentry
