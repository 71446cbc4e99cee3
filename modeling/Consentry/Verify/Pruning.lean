import Consentry.PeerManager.Prune

/-!
# Whom pruning disconnects

Every phase of `prune_excess_peers` takes its peers from the connected ones:
**`excessPeers_isConnected`**. The lemmas follow a property of peers through the phases. The loop
of the first two phases visits its peers one after the other (`prunePeers_eq_foldl`).
A round of the last phase takes an entry out of its lists (`pruneRound_entries_lt`), so that
**`pruneLoop_isSome`**: the loop ends within the rounds it is given.
-/

namespace Consentry

open Lib

variable {F : Type} {Q : PeerId → Prop}

/-! ## The first two phases -/

/-- The loop of `prune_peers!` prunes the peer when it comes to it. -/
def PruneState.Prunes (limits : PruneLimits) (st : PruneState)
    (e : Map.Entry PeerId (PeerInfo F)) : Prop :=
  st.size < limits.excess ∧ e.1 ∉ st.peersToPrune ∧
    (e.2.isOutboundOnly = true →
      limits.targetOutboundPeers + st.outboundPeersPruned < limits.connectedOutboundPeerCount)

instance (limits : PruneLimits) (st : PruneState) (e : Map.Entry PeerId (PeerInfo F)) :
    Decidable (st.Prunes limits e) :=
  inferInstanceAs (Decidable (_ ∧ _ ∧ (_ → _)))

/-- The loop of `prune_peers!` comes to a peer. -/
def PruneState.visit (limits : PruneLimits) (st : PruneState)
    (e : Map.Entry PeerId (PeerInfo F)) : PruneState :=
  if st.Prunes limits e then
    (if e.2.isOutboundOnly = true then st.countOutbound else st).insert e.1
  else st

theorem PruneState.peersToPrune_visit (limits : PruneLimits) (st : PruneState)
    (e : Map.Entry PeerId (PeerInfo F)) : (st.visit limits e).peersToPrune =
      if st.Prunes limits e then st.peersToPrune.insert e.1 else st.peersToPrune := by
  unfold visit
  split
  · split <;> rfl
  · rfl

theorem prunePeers_of_full {limits : PruneLimits} {st : PruneState}
    (h : limits.excess ≤ st.size) (peers : List (Map.Entry PeerId (PeerInfo F))) :
    prunePeers limits peers st = st := by
  cases peers with
  | nil => rfl
  | cons e peers => rw [prunePeers, if_pos h]

/-- **The loop visits its peers one after the other.** -/
theorem prunePeers_eq_foldl (limits : PruneLimits)
    (peers : List (Map.Entry PeerId (PeerInfo F))) (st : PruneState) :
    prunePeers limits peers st = peers.foldl (PruneState.visit limits) st := by
  induction peers generalizing st with
  | nil => rfl
  | cons e peers ih =>
    rw [List.foldl_cons, ← ih, prunePeers]
    split
    · next hfull =>
      have hnever : ¬ st.Prunes limits e := fun h => absurd h.1 (Nat.not_lt.2 hfull)
      rw [PruneState.visit, if_neg hnever, prunePeers_of_full hfull]
    · next hsize =>
      split
      · next hin =>
        have hnever : ¬ st.Prunes limits e := fun h => h.2.1 hin
        rw [PruneState.visit, if_neg hnever]
      · next hnot =>
        split
        · next hout =>
          split
          · next hroom =>
            have hprunes : st.Prunes limits e := ⟨Nat.not_le.1 hsize, hnot, fun _ => hroom⟩
            rw [PruneState.visit, if_pos hprunes, if_pos hout]
          · next hfull =>
            have hnever : ¬ st.Prunes limits e := fun h => hfull (h.2.2 hout)
            rw [PruneState.visit, if_neg hnever]
        · next hin =>
          have hprunes : st.Prunes limits e :=
            ⟨Nat.not_le.1 hsize, hnot, fun hout => absurd hout hin⟩
          rw [PruneState.visit, if_pos hprunes, if_neg hin]

/-- The loop of `prune_peers!` adds peers of its list only. -/
theorem prunePeers_forall {limits : PruneLimits} {peers : List (Map.Entry PeerId (PeerInfo F))}
    {st : PruneState} (hpeers : ∀ e ∈ peers, Q e.1) (hst : ∀ p ∈ st.peersToPrune, Q p) :
    ∀ p ∈ (prunePeers limits peers st).peersToPrune, Q p := by
  rw [prunePeers_eq_foldl]
  induction peers generalizing st with
  | nil => exact hst
  | cons e peers ih =>
    apply ih fun e he => hpeers e (List.mem_cons_of_mem _ he)
    intro p hp
    rw [PruneState.peersToPrune_visit] at hp
    split at hp
    · rcases DistinctList.mem_insert.1 hp with rfl | hp
      · exact hpeers e List.mem_cons_self
      · exact hst p hp
    · exact hst p hp

/-! ## The tables of the last phase -/

namespace SubnetTables

/-- Every peer listed on a subnet has the property. -/
def All (Q : PeerId → Prop) (t : SubnetTables F) : Prop :=
  ∀ subnet peers, t.subnetToPeer.lookup subnet = some peers → ∀ e ∈ peers, Q e.1

theorem All.insert {m : Map Subnet (List (Map.Entry PeerId (PeerInfo F)))}
    (h : ∀ subnet peers, m.lookup subnet = some peers → ∀ e ∈ peers, Q e.1) {subnet : Subnet}
    {peers : List (Map.Entry PeerId (PeerInfo F))} (hpeers : ∀ e ∈ peers, Q e.1) :
    ∀ s ps, (m.insert subnet peers).lookup s = some ps → ∀ e ∈ ps, Q e.1 := by
  intro s ps hps
  rw [Map.lookup_insert_eq] at hps
  split at hps
  · cases hps
    exact hpeers
  · exact h s ps hps

theorem All.addSubnet {t : SubnetTables F} (h : t.All Q) {e : Map.Entry PeerId (PeerInfo F)}
    (he : Q e.1) (subnet : Subnet) : (t.addSubnet e subnet).All Q := by
  unfold SubnetTables.addSubnet
  cases subnet with
  | attestation id =>
    apply All.insert h
    intro e' he'
    rcases List.mem_append.1 he' with he' | he'
    · cases hl : t.subnetToPeer.lookup (.attestation id) with
      | none => simp [hl] at he'
      | some peers =>
        rw [hl, Option.getD_some] at he'
        exact h _ peers hl e' he'
    · rw [List.mem_singleton] at he'
      rw [he']
      exact he
  | syncCommittee id => exact h

theorem build_all {peersToPrune : DistinctList PeerId}
    {peers : List (Map.Entry PeerId (PeerInfo F))} (hpeers : ∀ e ∈ peers, Q e.1) :
    (build peersToPrune peers).All Q := by
  unfold build
  suffices h : ∀ t : SubnetTables F, t.All Q → (peers.foldl (fun t e =>
      if e.1 ∈ peersToPrune then t
      else e.2.longLivedSubnets.foldl (fun t subnet => t.addSubnet e subnet) t) t).All Q by
    apply h
    intro subnet peers hl
    simp [empty] at hl
  induction peers with
  | nil => exact fun t ht => ht
  | cons e peers ih =>
    intro t ht
    rw [List.foldl_cons]
    apply ih fun e he => hpeers e (List.mem_cons_of_mem _ he)
    split
    · exact ht
    · have he := hpeers e List.mem_cons_self
      generalize e.2.longLivedSubnets = subnets
      induction subnets generalizing t with
      | nil => exact ht
      | cons subnet subnets ihs =>
        rw [List.foldl_cons]
        exact ihs _ (ht.addSubnet he subnet)

theorem All.removePeer {t : SubnetTables F} (h : t.All Q) (p : PeerId) :
    (t.removePeer p).All Q := by
  intro subnet peers hl
  unfold SubnetTables.removePeer at hl
  rw [Map.lookup_mapVal] at hl
  obtain ⟨peers', hl', rfl⟩ := Option.map_eq_some_iff.1 hl
  exact fun e he => h subnet peers' hl' e (List.mem_filter.1 he).1

end SubnetTables

variable {orders : PruneOrders F} {limits : PruneLimits}

/-! ## The rounds of the last phase -/

theorem pruneRound_forall {round : ℕ} {st st' : PruneState} {t t' : SubnetTables F}
    (hst : ∀ p ∈ st.peersToPrune, Q p) (ht : t.All Q)
    (h : pruneRound orders limits round st t = some (st', t')) :
    (∀ p ∈ st'.peersToPrune, Q p) ∧ t'.All Q := by
  unfold pruneRound at h
  split at h
  · next subnet peersOnSubnet hmax =>
    have hmem := List.mem_reverse.1 (List.argmax_mem hmax)
    rw [Shuffle.mem_run] at hmem
    have hon := ht subnet peersOnSubnet (Map.mem_entries_iff.1 hmem)
    split at h
    · cases h
    · simp only at h
      generalize hsorted : ((orders.onSubnet round).run peersOnSubnet).mergeSort _ = sorted at h
      have hsub : ∀ e ∈ sorted, Q e.1 := by
        intro e he
        rw [← hsorted, List.mem_mergeSort, Shuffle.mem_run] at he
        exact hon e he
      split at h
      · next candidate hfind =>
        cases h
        have hcand := hsub candidate (List.mem_of_find?_eq_some hfind)
        have ht' : SubnetTables.All Q
            { t with subnetToPeer := t.subnetToPeer.insert subnet sorted } :=
          SubnetTables.All.insert ht hsub
        refine ⟨fun p hp => ?_, ht'.removePeer _⟩
        rcases DistinctList.mem_insert.1 hp with rfl | hp
        · exact hcand
        · split at hp
          · exact hst p hp
          · exact hst p hp
      · cases h
        exact ⟨hst, SubnetTables.All.insert ht (by simp)⟩
  · cases h

theorem SubnetTables.entries_insert_add (t : SubnetTables F) (subnet : Subnet)
    (peers : List (Map.Entry PeerId (PeerInfo F))) :
    ({ t with subnetToPeer := t.subnetToPeer.insert subnet peers } : SubnetTables F).entries +
      t.subnetToPeer.weightAt (fun _ peers => peers.length) subnet =
        t.entries + peers.length :=
  Map.total_insert_add _ _ subnet peers

/-- A peer that is listed somewhere takes an entry with it. -/
theorem SubnetTables.entries_removePeer_lt {t : SubnetTables F} {subnet : Subnet}
    {peers : List (Map.Entry PeerId (PeerInfo F))}
    (hl : t.subnetToPeer.lookup subnet = some peers) {e : Map.Entry PeerId (PeerInfo F)}
    (he : e ∈ peers) : (t.removePeer e.1).entries < t.entries := by
  unfold SubnetTables.entries SubnetTables.removePeer
  rw [Map.total_mapVal]
  refine Map.total_lt_total (fun _ peers _ => List.length_filter_le _ peers) hl ?_
  rw [List.length_filter_lt_length_iff_exists]
  exact ⟨e, he, by simp⟩

theorem pruneRound_entries_lt {round : ℕ} {st st' : PruneState} {t t' : SubnetTables F}
    (h : pruneRound orders limits round st t = some (st', t')) : t'.entries < t.entries := by
  unfold pruneRound at h
  split at h
  · next subnet peersOnSubnet hmax =>
    have hmem := List.mem_reverse.1 (List.argmax_mem hmax)
    rw [Shuffle.mem_run] at hmem
    have hweight : t.subnetToPeer.weightAt (fun _ peers => peers.length) subnet =
        peersOnSubnet.length := Map.weightAt_of_lookup (Map.mem_entries_iff.1 hmem)
    split at h
    · cases h
    · next hne =>
      have hpos : 0 < peersOnSubnet.length := by
        rw [List.isEmpty_iff] at hne
        exact List.length_pos_of_ne_nil hne
      simp only at h
      generalize hsorted : ((orders.onSubnet round).run peersOnSubnet).mergeSort _ = sorted at h
      have hlength : sorted.length = peersOnSubnet.length := by
        rw [← hsorted, List.length_mergeSort]
        exact ((orders.onSubnet round).perm peersOnSubnet).length_eq
      split at h
      · next candidate hfind =>
        cases h
        have hsame := t.entries_insert_add subnet sorted
        have hlt := SubnetTables.entries_removePeer_lt
          (t := { t with subnetToPeer := t.subnetToPeer.insert subnet sorted })
          (AList.lookup_insert t.subnetToPeer) (List.mem_of_find?_eq_some hfind)
        omega
      · cases h
        have hempty := t.entries_insert_add subnet []
        rw [hweight, List.length_nil] at hempty
        omega
  · cases h

/-- **The loop of the last phase ends.** -/
theorem pruneLoop_isSome {fuel round : ℕ} {st : PruneState} {t : SubnetTables F}
    (h : t.entries < fuel) : (pruneLoop orders limits fuel round st t).isSome = true := by
  induction fuel generalizing round st t with
  | zero => exact absurd h (Nat.not_lt_zero _)
  | succ fuel ih =>
    rw [pruneLoop]
    split
    · rfl
    · split
      · next st' t' hround =>
        have hlt := pruneRound_entries_lt hround
        exact ih (by omega)
      · rfl

theorem pruneLoop_forall {fuel round : ℕ} {st st' : PruneState} {t : SubnetTables F}
    (hst : ∀ p ∈ st.peersToPrune, Q p) (ht : t.All Q)
    (h : pruneLoop orders limits fuel round st t = some st') :
    ∀ p ∈ st'.peersToPrune, Q p := by
  induction fuel generalizing round st t with
  | zero => cases h
  | succ fuel ih =>
    rw [pruneLoop] at h
    split at h
    · cases h
      exact hst
    · split at h
      · next st₁ t₁ hround =>
        obtain ⟨hst₁, ht₁⟩ := pruneRound_forall hst ht hround
        exact ih hst₁ ht₁ h
      · cases h
        exact hst

theorem lastPhase_forall (limits : PruneLimits)
    {peers : List (Map.Entry PeerId (PeerInfo F))} {st : PruneState}
    (hpeers : ∀ e ∈ peers, Q e.1) (hst : ∀ p ∈ st.peersToPrune, Q p) :
    ∀ p ∈ (if st.size < limits.excess then
        (pruneLoop orders limits ((SubnetTables.build st.peersToPrune peers).entries + 1) 0 st
          (SubnetTables.build st.peersToPrune peers)).getD st
      else st).peersToPrune, Q p := by
  split
  · cases hloop : pruneLoop orders limits
        ((SubnetTables.build st.peersToPrune peers).entries + 1) 0 st
        (SubnetTables.build st.peersToPrune peers) with
    | none => exact hst
    | some st' => exact pruneLoop_forall hst (SubnetTables.build_all hpeers) hloop
  · exact hst

variable [ScoreArith F]

/-- **Only connected peers are pruned.** -/
theorem excessPeers_isConnected {db : PeerDB F} {targetPeers targetOutboundPeers : ℕ}
    {clock : Clock} {orders : PruneOrders F} {p : PeerId}
    (hp : p ∈ excessPeers db targetPeers targetOutboundPeers clock orders) :
    db.isConnected p = true := by
  revert p
  change ∀ p ∈ excessPeers db targetPeers targetOutboundPeers clock orders, _
  have hconnected : ∀ e ∈ db.connectedPeers, db.isConnected e.1 = true := by
    intro e he
    rw [PeerDB.connectedPeers, PeerDB.select, List.mem_filter] at he
    obtain ⟨hentry, hconn⟩ := he
    unfold PeerDB.isConnected PeerDB.connectionStatus PeerDB.peerInfo
    rw [Map.mem_entries_iff.1 hentry, Option.map_some]
    unfold PeerInfo.isConnected at hconn
    cases hs : e.2.connectionStatus <;> simp [hs] at hconn ⊢
  have hworst : ∀ shuffle (f : Map.Entry PeerId (PeerInfo F) → Bool),
      ∀ e ∈ (db.worstConnectedPeers shuffle).filter f, db.isConnected e.1 = true := by
    intro shuffle f e he
    have hmem := (List.mem_filter.1 he).1
    rw [PeerDB.worstConnectedPeers, List.mem_mergeSort, Shuffle.mem_run] at hmem
    exact hconnected e hmem
  have hempty : ∀ p ∈ (⟨∅, 0⟩ : PruneState).peersToPrune, db.isConnected p = true := by
    intro p hp
    exact absurd hp (DistinctList.not_mem_empty p)
  unfold excessPeers
  simp only
  split
  · simp
  · intro p hp
    rw [Shuffle.mem_run, DistinctList.mem_toList] at hp
    refine lastPhase_forall (Q := fun p => db.isConnected p = true)
      ⟨db.connectedPeers.length - targetPeers, targetOutboundPeers,
        db.connectedOutboundOnlyPeers.length⟩ (fun e he => ?_) ?_ p hp
    · rw [Shuffle.mem_run] at he
      exact hconnected e he
    · split
      · exact prunePeers_forall (hworst _ _) (prunePeers_forall (hworst _ _) hempty)
      · exact prunePeers_forall (hworst _ _) hempty

end Consentry
