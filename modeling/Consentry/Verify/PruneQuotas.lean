import Consentry.Verify.PrunePhases

/-!
# The quotas of pruning

`Quotas` holds of the peers pruned so far in every phase: they are connected, there are no more of
them than there are excess peers, and the outbound-only peers are pruned down to their target at
most. A peer is entered by one lemma (`Quotas.insert`), under the condition that each phase
checks in its own way. The sync committees are the concern of the last phase alone
(`Rounds.committeePeers_le`). **`excessPeers_quotas`** puts them together.
-/

namespace Consentry

open Lib

variable {F : Type}

/-- What pruning respects in every phase. -/
structure Quotas (db : PeerDB F) (limits : PruneLimits) (st : PruneState) : Prop where
  connected : ∀ p ∈ st.peersToPrune, db.isConnected p = true
  size_le : st.size ≤ limits.excess
  outbound_add : db.outboundLeft st.peersToPrune.toList + st.outboundPeersPruned =
    limits.connectedOutboundPeerCount
  outbound_le : st.outboundPeersPruned = 0 ∨
    limits.targetOutboundPeers + st.outboundPeersPruned ≤ limits.connectedOutboundPeerCount

namespace Quotas

variable {db : PeerDB F} {limits : PruneLimits} {st : PruneState}

/-- **One more peer is pruned.** -/
theorem insert (h : Quotas db limits st) {e : Map.Entry PeerId (PeerInfo F)}
    (he : db.IsPeer e) (hnot : e.1 ∉ st.peersToPrune) (hsize : st.size < limits.excess)
    (houtbound : e.2.isOutboundOnly = true → limits.targetOutboundPeers +
      st.outboundPeersPruned < limits.connectedOutboundPeerCount) :
    Quotas db limits
      ((if e.2.isOutboundOnly = true then st.countOutbound else st).insert e.1) := by
  have hleft := db.unpruned_insert he.1 hnot (·.isOutboundOnly)
  have hlength : (st.peersToPrune.insert e.1).toList.length =
      st.peersToPrune.toList.length + 1 := List.length_insert_of_not_mem hnot
  have hadd := h.outbound_add
  have hle := h.outbound_le
  unfold PruneState.size at hsize
  have hconnected : ∀ p ∈ st.peersToPrune.insert e.1, db.isConnected p = true := by
    intro p hp
    rcases DistinctList.mem_insert.1 hp with rfl | hp
    · exact he.isConnected
    · exact h.connected p hp
  unfold PeerDB.outboundLeft at hadd
  by_cases hout : e.2.isOutboundOnly = true
  · have hroom := houtbound hout
    rw [hout, Bool.toNat_true] at hleft
    rw [if_pos hout]
    refine ⟨hconnected, ?_, ?_, .inr ?_⟩
    · change (st.peersToPrune.insert e.1).toList.length ≤ limits.excess
      omega
    · change db.unpruned (st.peersToPrune.insert e.1).toList (·.isOutboundOnly) +
        (st.outboundPeersPruned + 1) = limits.connectedOutboundPeerCount
      omega
    · change limits.targetOutboundPeers + (st.outboundPeersPruned + 1) ≤
        limits.connectedOutboundPeerCount
      omega
  · rw [if_neg hout]
    rw [Bool.not_eq_true] at hout
    rw [hout, Bool.toNat_false, Nat.add_zero] at hleft
    refine ⟨hconnected, ?_, ?_, hle⟩
    · change (st.peersToPrune.insert e.1).toList.length ≤ limits.excess
      omega
    · change db.unpruned (st.peersToPrune.insert e.1).toList (·.isOutboundOnly) +
        st.outboundPeersPruned = limits.connectedOutboundPeerCount
      rw [hleft, hadd]

theorem visit (h : Quotas db limits st) {e : Map.Entry PeerId (PeerInfo F)} (he : db.IsPeer e) :
    Quotas db limits (st.visit limits e) := by
  unfold PruneState.visit
  split
  · next hprunes => exact h.insert he hprunes.2.1 hprunes.1 hprunes.2.2
  · exact h

/-- The loop of the first two phases. -/
theorem prunePeers (h : Quotas db limits st) {peers : List (Map.Entry PeerId (PeerInfo F))}
    (hpeers : ∀ e ∈ peers, db.IsPeer e) : Quotas db limits (prunePeers limits peers st) := by
  rw [prunePeers_eq_foldl]
  induction peers generalizing st with
  | nil => exact h
  | cons e peers ih =>
    exact ih (h.visit (hpeers e List.mem_cons_self)) fun e he =>
      hpeers e (List.mem_cons_of_mem _ he)

variable {orders : PruneOrders F} {round : ℕ} {t : SubnetTables F} {st₀ : PruneState}
  {t₀ : SubnetTables F}

/-- The loop of the last phase. -/
theorem rounds (h : Quotas db limits st₀) (htables : Describes db st₀.peersToPrune t₀)
    (hrounds : Rounds orders limits st₀ t₀ round st t) : Quotas db limits st := by
  induction hrounds with
  | start => exact h
  | next hrounds hsize hround ih =>
    have hdescribes := htables.rounds hrounds
    cases pruneRound_cases hround with
    | prune he hcandidate =>
      obtain ⟨hpeer, hnot⟩ := hdescribes.listed _ _ he
      exact ih.insert hpeer hnot hsize ((hdescribes.isCandidate_iff he).1 hcandidate).1
    | clear _ => exact ih

end Quotas

/-- **The last phase leaves two peers on a sync committee**, or all there were. -/
theorem Rounds.committeePeers_le {db : PeerDB F} {orders : PruneOrders F} {limits : PruneLimits}
    {round : ℕ} {st st₀ : PruneState} {t t₀ : SubnetTables F}
    (htables : Describes db st₀.peersToPrune t₀)
    (hrounds : Rounds orders limits st₀ t₀ round st t) (id : ℕ) :
    min (db.committeePeers st₀.peersToPrune.toList id) minSyncCommitteePeers ≤
      db.committeePeers st.peersToPrune.toList id := by
  induction hrounds with
  | start => exact min_le_left _ _
  | @next round st st' t t' hrounds _ hround ih =>
    have hdescribes := htables.rounds hrounds
    cases pruneRound_cases hround with
    | @prune subnet e he hcandidate =>
      obtain ⟨hpeer, hnot⟩ := hdescribes.listed _ _ he
      have hspares := ((hdescribes.isCandidate_iff he).1 hcandidate).2 id
      have hinsert := db.committeePeers_insert hpeer hnot id
      rw [PruneState.peersToPrune_insert]
      cases hon : e.2.onSyncCommittee id with
      | true =>
        have hmore := hspares hon
        rw [hon, Bool.toNat_true] at hinsert
        omega
      | false =>
        rw [hon, Bool.toNat_false, Nat.add_zero] at hinsert
        rwa [hinsert]
    | clear _ => exact ih

/-! ## The outcome -/

/-- What the pruned peers have to satisfy. -/
structure PruneQuotas [ScoreArith F] (db : PeerDB F) (targetPeers targetOutboundPeers : ℕ)
    (clock : Clock) (orders : PruneOrders F) (pruned : List PeerId) : Prop where
  nodup : pruned.Nodup
  connected : ∀ p ∈ pruned, db.isConnected p = true
  length_le : pruned.length ≤ db.connectedPeers.length - targetPeers
  outbound : min db.connectedOutboundOnlyPeers.length targetOutboundPeers ≤
    db.outboundLeft pruned
  /-- The sync committees, as they are when phase 3 starts and at its end. -/
  committees : ∀ id,
    min (db.committeePeers (afterNoSubnet db targetPeers targetOutboundPeers clock
      orders).peersToPrune.toList id) minSyncCommitteePeers ≤ db.committeePeers pruned id

theorem Quotas.start (db : PeerDB F) (targetPeers targetOutboundPeers : ℕ) :
    Quotas db (db.pruneLimits targetPeers targetOutboundPeers) ⟨∅, 0⟩ := by
  refine ⟨fun p hp => absurd hp (DistinctList.not_mem_empty p), Nat.zero_le _, ?_, .inl rfl⟩
  exact db.outboundLeft_nil

section

variable [ScoreArith F] (db : PeerDB F) (targetPeers targetOutboundPeers : ℕ) (clock : Clock)
  (orders : PruneOrders F)

theorem Quotas.afterNoSubnet : Quotas db (db.pruneLimits targetPeers targetOutboundPeers)
    (afterNoSubnet db targetPeers targetOutboundPeers clock orders) := by
  have hfirst : Quotas db (db.pruneLimits targetPeers targetOutboundPeers)
      (afterWorstScores db targetPeers targetOutboundPeers clock orders) :=
    (Quotas.start db targetPeers targetOutboundPeers).prunePeers fun e he =>
      (mem_eligible.1 he).1
  unfold Consentry.afterNoSubnet
  split
  · exact hfirst.prunePeers fun e he => (mem_eligible.1 he).1
  · exact hfirst

/-- **Pruning respects its quotas**: connected peers only, no more than the excess, and neither
the outbound-only peers nor, in the last phase, a sync committee below its minimum. -/
theorem excessPeers_quotas : PruneQuotas db targetPeers targetOutboundPeers clock orders
    (excessPeers db targetPeers targetOutboundPeers clock orders) := by
  have hstart := Quotas.afterNoSubnet db targetPeers targetOutboundPeers clock orders
  have htables := describes_subnetTables db targetPeers targetOutboundPeers clock orders
  obtain ⟨round, t, hrounds, -⟩ :=
    afterSubnets_finish db targetPeers targetOutboundPeers clock orders
  have hquotas := hstart.rounds htables hrounds
  have hcommittees := hrounds.committeePeers_le htables
  rw [excessPeers_eq]
  split
  · refine ⟨List.nodup_nil, fun p hp => absurd hp List.not_mem_nil, Nat.zero_le _, ?_,
      fun id => ?_⟩
    · rw [db.outboundLeft_nil]
      exact min_le_left _ _
    · exact (min_le_left _ _).trans (db.unpruned_anti (List.nil_subset _) _)
  · generalize afterSubnets db targetPeers targetOutboundPeers clock orders = st at *
    have hperm := orders.disconnects.perm st.peersToPrune.toList
    have hleft : ∀ f, db.unpruned st.peersToPrune.toList f ≤
        db.unpruned (orders.disconnects.run st.peersToPrune.toList) f :=
      fun f => db.unpruned_anti hperm.subset f
    refine ⟨hperm.nodup_iff.2 st.peersToPrune.nodup, fun p hp => ?_, ?_, ?_, fun id => ?_⟩
    · exact hquotas.connected p (hperm.mem_iff.1 hp)
    · rw [hperm.length_eq]
      exact hquotas.size_le
    · refine le_trans ?_ (hleft _)
      have hadd := hquotas.outbound_add
      have hle := hquotas.outbound_le
      unfold PeerDB.pruneLimits PeerDB.outboundLeft at hadd
      unfold PeerDB.pruneLimits at hle
      simp only at hadd hle
      omega
    · exact (hcommittees id).trans (hleft _)

end

end Consentry
