import Consentry.PeerManager.Basic

/-!
# The sentry (`sentry.rs`)

The part of `Sentry::start` that handles the two trust commands, between the calls that
the network makes of the peer manager.
-/

namespace Consentry

open Lib

inductive SentryCommand
  | addTrusted (peerId : PeerId) (enr : Enr)
  | removeTrusted (peerId : PeerId)
  deriving DecidableEq, Repr

/-- The network of a running sentry, and its set of trusted peers. -/
structure Sentry (F : Type) where
  network : System F
  trustedPeers : DistinctList PeerId

/-- The calls that only the trust commands make. -/
def PmOp.isTrustCall {F : Type} : PmOp F → Bool
  | .dialTrustedPeer _ _ | .removeTrusted _ => true
  | _ => false

/-- What the loop of `Sentry::start` handles: a command, or an event of the network. -/
inductive SentryOp (F : Type)
  | command (cmd : SentryCommand)
  | network (op : PmOp F) (h : op.isTrustCall = false)

namespace Sentry

variable {F : Type} [ScoreArith F]

def new (maxPeers : ℕ) (discoveryEnabled : Bool) : Sentry F where
  network := .new maxPeers discoveryEnabled
  trustedPeers := ∅

def handle (s : Sentry F) : SentryCommand → Sentry F
  | .addTrusted peerId enr =>
    if !s.network.pm.peerdb.isConnected peerId then
      { network := s.network.withPm (s.network.pm.dialTrustedPeer peerId (some enr))
        trustedPeers := s.trustedPeers.insert peerId }
    else s
  | .removeTrusted peerId =>
    if peerId ∈ s.trustedPeers then
      { network := s.network.withPm (s.network.pm.removeTrusted peerId)
        trustedPeers := s.trustedPeers.remove peerId }
    else s

def step (s : Sentry F) : SentryOp F → Sentry F
  | .command cmd => s.handle cmd
  | .network op _ => { s with network := s.network.step op }

end Sentry

end Consentry
