import Consentry.PeerManager.Basic

/-!
# Dials of discovered peers (`network/mod.rs`)

`inject_discovery_event` hands a result of discovery to the peer manager and queues the peers
that it selects, next to the other calls that the peer manager receives.
-/

namespace Consentry

/-- `DiscoveredPeers`: a map from the peers that were found to the times until which they are
needed, in the order of its iteration. -/
structure DiscoveredPeers where
  peers : List (PeerId × Option Instant)
  distinct : (peers.map (·.1)).Nodup

variable {F : Type} [ScoreArith F]

/-- Handles a discovery event. `enrOfPeer` are the records that discovery knows. -/
def PeerManager.injectDiscoveryEvent (pm : PeerManager F) (event : DiscoveredPeers)
    (enrOfPeer : PeerId → Option Enr) (now : Instant) : PeerManager F :=
  let (pm, toDialPeers) := pm.peersDiscovered event.peers now
  toDialPeers.foldl (fun pm peerId => pm.dialPeer peerId (enrOfPeer peerId)) pm

/-- The calls that queue dials. -/
def PmOp.isDialCall : PmOp F → Bool
  | .dialPeer _ _ | .dialTrustedPeer _ _ | .peersDiscovered _ _ => true
  | _ => false

/-- A discovery event, or a call that queues no dial. -/
inductive DialOp (F : Type) [ScoreArith F]
  | discovered (event : DiscoveredPeers) (enrOfPeer : PeerId → Option Enr) (now : Instant)
  | call (op : PmOp F) (h : op.isDialCall = false)

def System.dialStep (s : System F) : DialOp F → System F
  | .discovered event enrOfPeer now => s.withPm (s.pm.injectDiscoveryEvent event enrOfPeer now)
  | .call op _ => s.step op

end Consentry
