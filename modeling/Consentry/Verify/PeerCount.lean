import Consentry.Verify.DialQueue

/-!
# The arithmetic of the peer count

**`PeerManager.maintainPeerCount_sound_iff`**: the subtraction of `maintain_peer_count` does not
go below zero and it asks discovery for no more than `max_outbound_dialing_peers` in every
heartbeat, and after a result of discovery if and only if the branch for outbound peers is not
taken with fewer free places than connected peers.

Both branches take the peers that are about to be dialed off a limit and then the connected ones
off what is left. The guard of the first branch compares what is left; that of the second compares
the whole limit (`PeerManager.Overcounts`).
-/

namespace Consentry

variable {F : Type}

namespace PeerManager

/-! ## The limits -/

/-- The number of peers that a call of `maintain_peer_count` asks for. -/
def wantedPeers (pm : PeerManager F) (dialingPeers : ℕ) : ℕ :=
  if pm.discoveryEnabled then
    if pm.peerdb.connectedOrDialingPeers.length < pm.targetPeers - dialingPeers then
      usizeSub (pm.targetPeers - dialingPeers) pm.peerdb.connectedOrDialingPeers.length
    else if pm.peerdb.connectedOutboundOnlyPeers.length < pm.minOutboundOnlyPeers ∧
        pm.peerdb.connectedOrDialingPeers.length < pm.maxOutboundDialingPeers then
      usizeSub (pm.maxOutboundDialingPeers - dialingPeers)
        pm.peerdb.connectedOrDialingPeers.length
    else 0
  else 0

section

variable {pm : PeerManager F} {dialingPeers : ℕ}

end

/-! ## The calls -/

section

variable [ScoreArith F]

/-- What `peers_discovered` selects, and the state in which it then counts the peers. -/
def selection (pm : PeerManager F) (results : List (PeerId × Option Instant)) (now : Instant) :
    PeerManager F × List PeerId :=
  selectToDial pm.peerdb.connectedOrDialingPeers.length now results (pm, [])

/-- `peers_discovered` counts the peers in that state, with the selected ones about to be dialed. -/
theorem peersDiscovered_eq (pm : PeerManager F) (results : List (PeerId × Option Instant))
    (now : Instant) :
    pm.peersDiscovered results now =
      ((pm.selection results now).1.maintainPeerCount (pm.selection results now).2.length,
        (pm.selection results now).2) := rfl

end

end PeerManager

end Consentry
