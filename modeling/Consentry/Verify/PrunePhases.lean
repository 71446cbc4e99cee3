import Consentry.Verify.Pruning

/-!
# The phases of `prune_excess_peers`

`excessPeers` goes through three states: `afterWorstScores`, `afterNoSubnet` and `afterSubnets`
(`excessPeers_eq`). `Rounds` are the states of the loop of the last phase before its rounds;
**`pruneRound_cases`** says all that a round can do, and `Rounds.exists_finish` that the loop ends
in one of these states, with enough peers pruned or with all lists empty. **`pruneLoop_ends`**: it
does so after no more iterations than there are entries in its lists, plus one.

The tables of the last phase are read through three functions (`peersOn`, `committeesOf`,
`countOf`). **`Describes`** says what they are about: the connected peers not pruned yet. It holds
of the tables as they are built, and every round keeps it.
-/

namespace Consentry

open Lib

variable {F : Type}

/-- The peer is on the sync committee by its long-lived subnets. -/
def PeerInfo.onSyncCommittee (info : PeerInfo F) (id : ℕ) : Bool :=
  info.longLivedSubnets.contains (.syncCommittee id)

namespace PeerDB

/-- The number of peers with a property that are not pruned. -/
def unpruned (db : PeerDB F) (pruned : List PeerId) (f : PeerInfo F → Bool) : ℕ :=
  db.peers.count fun p info => f info && decide (p ∉ pruned)

/-- The number of connected peers on a sync committee that are not pruned. -/
def committeePeers (db : PeerDB F) (pruned : List PeerId) (id : ℕ) : ℕ :=
  db.unpruned pruned fun info => info.isConnected && info.onSyncCommittee id

/-- The number of outbound-only peers that are not pruned. -/
def outboundLeft (db : PeerDB F) (pruned : List PeerId) : ℕ :=
  db.unpruned pruned (·.isOutboundOnly)

/-- The entry of a connected peer. -/
def IsPeer (db : PeerDB F) (e : Map.Entry PeerId (PeerInfo F)) : Prop :=
  db.peerInfo e.1 = some e.2 ∧ e.2.isConnected = true

theorem mem_connectedPeers {db : PeerDB F} {e : Map.Entry PeerId (PeerInfo F)} :
    e ∈ db.connectedPeers ↔ db.IsPeer e := by
  unfold connectedPeers select IsPeer
  rw [List.mem_filter]
  exact and_congr_left fun _ => Map.mem_entries_iff

theorem IsPeer.isConnected {db : PeerDB F} {e : Map.Entry PeerId (PeerInfo F)}
    (h : db.IsPeer e) : db.isConnected e.1 = true := by
  obtain ⟨hentry, hconn⟩ := h
  unfold PeerDB.isConnected connectionStatus
  rw [hentry, Option.map_some]
  unfold PeerInfo.isConnected at hconn
  cases hs : e.2.connectionStatus <;> simp [hs] at hconn ⊢

end PeerDB

/-! ## The phases -/

section

variable [ScoreArith F] (db : PeerDB F) (targetPeers targetOutboundPeers : ℕ) (clock : Clock)
  (orders : PruneOrders F)

/-- The quantities `prune_excess_peers` computes from the database. -/
def PeerDB.pruneLimits : PruneLimits where
  excess := db.connectedPeers.length - targetPeers
  targetOutboundPeers := targetOutboundPeers
  connectedOutboundPeerCount := db.connectedOutboundOnlyPeers.length

/-- The connected peers without a future duty that pass a filter, from the worst score on. -/
def PeerDB.eligible (shuffle : Shuffle (Map.Entry PeerId (PeerInfo F)))
    (filter : PeerInfo F → Bool) : List (Map.Entry PeerId (PeerInfo F)) :=
  (db.worstConnectedPeers shuffle).filter fun e =>
    !e.2.hasFutureDuty (clock e.1) && filter e.2

/-- After phase 1. -/
def afterWorstScores : PruneState :=
  prunePeers (db.pruneLimits targetPeers targetOutboundPeers)
    (db.eligible clock orders.worstScores fun info => decide (info.score.score < (0 : F)))
    ⟨∅, 0⟩

/-- After phase 2. -/
def afterNoSubnet : PruneState :=
  if (afterWorstScores db targetPeers targetOutboundPeers clock orders).size <
      (db.pruneLimits targetPeers targetOutboundPeers).excess then
    prunePeers (db.pruneLimits targetPeers targetOutboundPeers)
      (db.eligible clock orders.worstNoSubnet fun info => !info.hasLongLivedSubnet)
      (afterWorstScores db targetPeers targetOutboundPeers clock orders)
  else afterWorstScores db targetPeers targetOutboundPeers clock orders

/-- The tables the last phase starts with. -/
def subnetTables : SubnetTables F :=
  SubnetTables.build (afterNoSubnet db targetPeers targetOutboundPeers clock orders).peersToPrune
    (orders.connected.run db.connectedPeers)

/-- After phase 3. -/
def afterSubnets : PruneState :=
  if (afterNoSubnet db targetPeers targetOutboundPeers clock orders).size <
      (db.pruneLimits targetPeers targetOutboundPeers).excess then
    (pruneLoop orders (db.pruneLimits targetPeers targetOutboundPeers)
      ((subnetTables db targetPeers targetOutboundPeers clock orders).entries + 1) 0
      (afterNoSubnet db targetPeers targetOutboundPeers clock orders)
      (subnetTables db targetPeers targetOutboundPeers clock orders)).getD
        (afterNoSubnet db targetPeers targetOutboundPeers clock orders)
  else afterNoSubnet db targetPeers targetOutboundPeers clock orders

theorem excessPeers_eq : excessPeers db targetPeers targetOutboundPeers clock orders =
    if db.connectedPeers.length ≤ targetPeers then [] else
      orders.disconnects.run
        (afterSubnets db targetPeers targetOutboundPeers clock orders).peersToPrune.toList := rfl

variable {db clock}

theorem mem_eligible {shuffle : Shuffle (Map.Entry PeerId (PeerInfo F))}
    {filter : PeerInfo F → Bool} {e : Map.Entry PeerId (PeerInfo F)} :
    e ∈ db.eligible clock shuffle filter ↔
      db.IsPeer e ∧ e.2.hasFutureDuty (clock e.1) = false ∧ filter e.2 = true := by
  unfold PeerDB.eligible PeerDB.worstConnectedPeers
  rw [List.mem_filter, List.mem_mergeSort, Shuffle.mem_run, PeerDB.mem_connectedPeers,
    Bool.and_eq_true, Bool.not_eq_true']

end

/-! ## The rounds of the last phase -/

section

variable {orders : PruneOrders F} {limits : PruneLimits} {round : ℕ} {st st' : PruneState}
  {t t' : SubnetTables F}

/-- The peers of a subnet as a round looks through them. -/
def peersInOrder (orders : PruneOrders F) (round : ℕ)
    (peersOnSubnet : List (Map.Entry PeerId (PeerInfo F))) :
    List (Map.Entry PeerId (PeerInfo F)) :=
  ((orders.onSubnet round).run peersOnSubnet).mergeSort fun a b =>
    decide (a.2.longLivedSubnetCount ≤ b.2.longLivedSubnetCount)

@[simp] theorem mem_peersInOrder {peers : List (Map.Entry PeerId (PeerInfo F))}
    {e : Map.Entry PeerId (PeerInfo F)} : e ∈ peersInOrder orders round peers ↔ e ∈ peers := by
  unfold peersInOrder
  rw [List.mem_mergeSort, Shuffle.mem_run]

namespace SubnetTables

/-- The peers listed on a subnet. -/
def peersOn (t : SubnetTables F) (subnet : Subnet) : List (Map.Entry PeerId (PeerInfo F)) :=
  (t.subnetToPeer.lookup subnet).getD []

/-- The sync committees of a peer. -/
def committeesOf (t : SubnetTables F) (p : PeerId) : DistinctList ℕ :=
  (t.peerToSyncCommittee.lookup p).getD ∅

/-- The number of peers on a sync committee. -/
def countOf (t : SubnetTables F) (id : ℕ) : ℕ := (t.syncCommitteePeerCount.lookup id).getD 0

/-- The list of a subnet is replaced. -/
def setPeers (t : SubnetTables F) (subnet : Subnet)
    (peers : List (Map.Entry PeerId (PeerInfo F))) : SubnetTables F :=
  { t with subnetToPeer := t.subnetToPeer.insert subnet peers }

theorem peersOn_setPeers (t : SubnetTables F) (subnet s : Subnet)
    (peers : List (Map.Entry PeerId (PeerInfo F))) :
    (t.setPeers subnet peers).peersOn s = if s = subnet then peers else t.peersOn s := by
  unfold peersOn setPeers
  rw [Map.lookup_insert_eq]
  split <;> rfl

end SubnetTables

@[simp] theorem PruneState.peersToPrune_insert (st : PruneState) (outbound : Bool) (p : PeerId) :
    ((if outbound = true then st.countOutbound else st).insert p).peersToPrune =
      st.peersToPrune.insert p := by
  split <;> rfl

/-- What a round does: it prunes the first candidate, or empties a list without one. -/
inductive RoundStep (orders : PruneOrders F) (limits : PruneLimits) (round : ℕ) (st : PruneState)
    (t : SubnetTables F) : PruneState → SubnetTables F → Prop
  | prune {subnet : Subnet} {e : Map.Entry PeerId (PeerInfo F)} :
    e ∈ t.peersOn subnet → isCandidate limits st t e = true →
      RoundStep orders limits round st t
        ((if e.2.isOutboundOnly = true then st.countOutbound else st).insert e.1)
        ((t.setPeers subnet (peersInOrder orders round (t.peersOn subnet))).removePeer e.1)
  | clear {subnet : Subnet} : (∀ e ∈ t.peersOn subnet, isCandidate limits st t e = false) →
      RoundStep orders limits round st t st (t.setPeers subnet [])

theorem pruneRound_cases (h : pruneRound orders limits round st t = some (st', t')) :
    RoundStep orders limits round st t st' t' := by
  unfold pruneRound at h
  split at h
  · next subnet peersOnSubnet hmax =>
    have hmem := List.mem_reverse.1 (List.argmax_mem hmax)
    rw [Shuffle.mem_run] at hmem
    have hon : t.peersOn subnet = peersOnSubnet := by
      rw [SubnetTables.peersOn, Map.mem_entries_iff.1 hmem]
      rfl
    split at h
    · cases h
    · simp only at h
      split at h
      · next candidate hfind =>
        cases h
        subst hon
        exact .prune (mem_peersInOrder.1 (List.mem_of_find?_eq_some hfind))
          (List.find?_some hfind)
      · next hfind =>
        cases h
        subst hon
        refine .clear fun e he => ?_
        rw [← Bool.not_eq_true]
        exact List.find?_eq_none.1 hfind e (mem_peersInOrder.2 he)
  · cases h

/-- The states of the last loop before its rounds. -/
inductive Rounds (orders : PruneOrders F) (limits : PruneLimits) (st₀ : PruneState)
    (t₀ : SubnetTables F) : ℕ → PruneState → SubnetTables F → Prop
  | start : Rounds orders limits st₀ t₀ 0 st₀ t₀
  | next {round : ℕ} {st st' : PruneState} {t t' : SubnetTables F} :
    Rounds orders limits st₀ t₀ round st t → st.size < limits.excess →
      pruneRound orders limits round st t = some (st', t') →
        Rounds orders limits st₀ t₀ (round + 1) st' t'

variable {st₀ : PruneState} {t₀ : SubnetTables F}

theorem Rounds.entries_le (h : Rounds orders limits st₀ t₀ round st t) :
    round + t.entries ≤ t₀.entries := by
  induction h with
  | start => omega
  | next _ _ hround ih =>
    have hlt := pruneRound_entries_lt hround
    omega

theorem Rounds.pruneLoop_eq (h : Rounds orders limits st₀ t₀ round st t) (fuel : ℕ) :
    pruneLoop orders limits (fuel + round) 0 st₀ t₀ =
      pruneLoop orders limits fuel round st t := by
  induction h generalizing fuel with
  | start => rfl
  | next _ hsize hround ih =>
    rw [Nat.add_left_comm, Nat.add_comm, ih, pruneLoop, if_neg (Nat.not_le.2 hsize), hround]

/-- The loop ends in one of these states, with enough peers pruned or nobody left to prune. -/
theorem Rounds.exists_finish {fuel : ℕ} (h : Rounds orders limits st₀ t₀ round st t)
    (hfuel : t.entries < fuel) : ∃ round' st' t', Rounds orders limits st₀ t₀ round' st' t' ∧
      pruneLoop orders limits fuel round st t = some st' ∧
      (limits.excess ≤ st'.size ∨ pruneRound orders limits round' st' t' = none) := by
  induction fuel generalizing round st t with
  | zero => exact absurd hfuel (Nat.not_lt_zero _)
  | succ fuel ih =>
    rw [pruneLoop]
    split
    · next hsize => exact ⟨round, st, t, h, rfl, .inl hsize⟩
    · next hsize =>
      cases hround : pruneRound orders limits round st t with
      | none => exact ⟨round, st, t, h, rfl, .inr hround⟩
      | some r =>
        obtain ⟨st', t'⟩ := r
        have hlt := pruneRound_entries_lt hround
        exact ih (h.next (Nat.not_le.1 hsize) hround) (by omega)

/-- How the last loop ends, after a number of iterations: enough peers are pruned, or an iteration
finds nobody left to prune. -/
inductive LoopEnds (orders : PruneOrders F) (limits : PruneLimits) (st₀ : PruneState)
    (t₀ : SubnetTables F) : ℕ → PruneState → Prop
  | enough {round : ℕ} {st : PruneState} {t : SubnetTables F} :
    Rounds orders limits st₀ t₀ round st t → limits.excess ≤ st.size →
      LoopEnds orders limits st₀ t₀ round st
  | nobody {round : ℕ} {st : PruneState} {t : SubnetTables F} :
    Rounds orders limits st₀ t₀ round st t → st.size < limits.excess →
      pruneRound orders limits round st t = none →
        LoopEnds orders limits st₀ t₀ (round + 1) st

/-- **The last loop ends**, whatever state it starts in, after no more iterations than there are
entries in all the lists plus one; it is given as many. -/
theorem pruneLoop_ends (orders : PruneOrders F) (limits : PruneLimits) (st₀ : PruneState)
    (t₀ : SubnetTables F) :
    ∃ iterations ≤ t₀.entries + 1, ∃ st, LoopEnds orders limits st₀ t₀ iterations st ∧
      ∀ fuel, t₀.entries < fuel → pruneLoop orders limits fuel 0 st₀ t₀ = some st := by
  have hstart : Rounds orders limits st₀ t₀ 0 st₀ t₀ := .start
  obtain ⟨round, st, t, hrounds, -, hend⟩ := hstart.exists_finish (Nat.lt_succ_self t₀.entries)
  have hle := hrounds.entries_le
  -- What is left of the fuel after `round` iterations is enough for the last one.
  have hloop : ∀ fuel, t₀.entries < fuel →
      pruneLoop orders limits fuel 0 st₀ t₀ = some st := by
    intro fuel hfuel
    obtain ⟨rest, rfl⟩ : ∃ rest, fuel = rest + 1 + round := ⟨fuel - round - 1, by omega⟩
    rw [hrounds.pruneLoop_eq, pruneLoop]
    split
    · rfl
    · next hsize => rw [hend.resolve_left hsize]
  by_cases hsize : limits.excess ≤ st.size
  · exact ⟨round, by omega, st, .enough hrounds hsize, hloop⟩
  · exact ⟨round + 1, by omega, st,
      .nobody hrounds (Nat.not_le.1 hsize) (hend.resolve_left hsize), hloop⟩

end

/-! ## The tables -/

namespace SubnetTables

variable {t : SubnetTables F} {e : Map.Entry PeerId (PeerInfo F)}

/-! ### One subnet of one peer -/

theorem mem_peersOn_addSubnet {subnet s : Subnet} {e' : Map.Entry PeerId (PeerInfo F)} :
    e' ∈ (t.addSubnet e subnet).peersOn s ↔
      e' ∈ t.peersOn s ∨ (e' = e ∧ s = subnet ∧ ∃ id, s = .attestation id) := by
  unfold addSubnet peersOn
  cases subnet with
  | attestation id =>
    simp only
    rw [Map.lookup_insert_eq]
    by_cases hs : s = .attestation id
    · rw [if_pos hs, Option.getD_some, List.mem_append, List.mem_singleton, hs]
      simp
    · rw [if_neg hs]
      simp [hs]
  | syncCommittee id =>
    refine ⟨.inl, fun h => h.elim (fun h => h) ?_⟩
    rintro ⟨-, rfl, id', heq⟩
    cases heq

theorem mem_committeesOf_addSubnet {subnet : Subnet} {p : PeerId} {id : ℕ} :
    id ∈ (t.addSubnet e subnet).committeesOf p ↔
      id ∈ t.committeesOf p ∨ (p = e.1 ∧ subnet = .syncCommittee id) := by
  unfold addSubnet committeesOf
  cases subnet with
  | attestation id' => simp
  | syncCommittee id' =>
    simp only
    rw [Map.lookup_insert_eq]
    by_cases hp : p = e.1
    · rw [if_pos hp, Option.getD_some, DistinctList.mem_insert, hp]
      simp [or_comm, eq_comm]
    · rw [if_neg hp]
      simp [hp]

theorem countOf_addSubnet (t : SubnetTables F) (e : Map.Entry PeerId (PeerInfo F))
    (subnet : Subnet) (id : ℕ) : (t.addSubnet e subnet).countOf id =
      t.countOf id + if subnet = .syncCommittee id then 1 else 0 := by
  unfold addSubnet countOf
  cases subnet with
  | attestation id' => simp
  | syncCommittee id' =>
    simp only
    rw [Map.lookup_insert_eq]
    by_cases hid : id = id'
    · rw [if_pos hid, if_pos (congrArg _ hid.symm), hid]
      rfl
    · rw [if_neg hid, if_neg fun heq => hid (Subnet.syncCommittee.inj heq).symm]
      rfl

/-! ### All subnets of one peer -/

/-- The subnets of a peer are entered. -/
def addPeer (t : SubnetTables F) (e : Map.Entry PeerId (PeerInfo F)) (subnets : List Subnet) :
    SubnetTables F :=
  subnets.foldl (fun t subnet => t.addSubnet e subnet) t

theorem mem_peersOn_addPeer {subnets : List Subnet} {s : Subnet}
    {e' : Map.Entry PeerId (PeerInfo F)} : e' ∈ (t.addPeer e subnets).peersOn s ↔
      e' ∈ t.peersOn s ∨ (e' = e ∧ s ∈ subnets ∧ ∃ id, s = .attestation id) := by
  unfold addPeer
  induction subnets generalizing t with
  | nil => simp
  | cons subnet subnets ih =>
    rw [List.foldl_cons, ih, mem_peersOn_addSubnet, List.mem_cons]
    grind

theorem mem_committeesOf_addPeer {subnets : List Subnet} {p : PeerId} {id : ℕ} :
    id ∈ (t.addPeer e subnets).committeesOf p ↔
      id ∈ t.committeesOf p ∨ (p = e.1 ∧ .syncCommittee id ∈ subnets) := by
  unfold addPeer
  induction subnets generalizing t with
  | nil => simp
  | cons subnet subnets ih =>
    rw [List.foldl_cons, ih, mem_committeesOf_addSubnet, List.mem_cons]
    grind

theorem countOf_addPeer (t : SubnetTables F) (e : Map.Entry PeerId (PeerInfo F))
    (subnets : List Subnet) (id : ℕ) : (t.addPeer e subnets).countOf id =
      t.countOf id + subnets.count (.syncCommittee id) := by
  unfold addPeer
  induction subnets generalizing t with
  | nil => rfl
  | cons subnet subnets ih =>
    rw [List.foldl_cons, ih, countOf_addSubnet, List.count_cons, Nat.add_assoc]
    congr 1
    rw [Nat.add_comm]
    simp

/-! ### All peers -/

theorem build_snoc (pruned : DistinctList PeerId)
    (peers : List (Map.Entry PeerId (PeerInfo F))) (e : Map.Entry PeerId (PeerInfo F)) :
    build pruned (peers ++ [e]) = if e.1 ∈ pruned then build pruned peers
      else (build pruned peers).addPeer e e.2.longLivedSubnets := by
  unfold build addPeer
  rw [List.foldl_append]
  rfl

variable {pruned : DistinctList PeerId} {peers : List (Map.Entry PeerId (PeerInfo F))}

theorem mem_peersOn_build {s : Subnet} : e ∈ (build pruned peers).peersOn s ↔
    e ∈ peers ∧ e.1 ∉ pruned ∧ s ∈ e.2.longLivedSubnets ∧ ∃ id, s = .attestation id := by
  induction peers using List.reverseRecOn with
  | nil => simp [build, empty, peersOn]
  | append_singleton peers e' ih =>
    rw [build_snoc, List.mem_append, List.mem_singleton]
    split
    · next hpruned =>
      rw [ih]
      constructor
      · rintro ⟨he, hrest⟩
        exact ⟨.inl he, hrest⟩
      · rintro ⟨he | rfl, hnot, hrest⟩
        · exact ⟨he, hnot, hrest⟩
        · exact absurd hpruned hnot
    · next hpruned =>
      rw [mem_peersOn_addPeer, ih]
      constructor
      · rintro (⟨he, hrest⟩ | ⟨rfl, hrest⟩)
        · exact ⟨.inl he, hrest⟩
        · exact ⟨.inr rfl, hpruned, hrest⟩
      · rintro ⟨he | rfl, hnot, hrest⟩
        · exact .inl ⟨he, hnot, hrest⟩
        · exact .inr ⟨rfl, hrest⟩

theorem mem_committeesOf_build {p : PeerId} {id : ℕ} :
    id ∈ (build pruned peers).committeesOf p ↔
      ∃ e ∈ peers, e.1 = p ∧ e.1 ∉ pruned ∧ e.2.onSyncCommittee id = true := by
  induction peers using List.reverseRecOn with
  | nil => simp [build, empty, committeesOf]
  | append_singleton peers e' ih =>
    rw [build_snoc]
    simp only [List.mem_append, List.mem_singleton, or_and_right, exists_or, exists_eq_left]
    split
    · next hpruned =>
      rw [ih, or_iff_left fun h => h.2.1 hpruned]
    · next hpruned =>
      rw [mem_committeesOf_addPeer, ih, PeerInfo.onSyncCommittee, List.contains_iff_mem]
      refine or_congr_right ⟨?_, ?_⟩
      · rintro ⟨rfl, hon⟩
        exact ⟨rfl, hpruned, hon⟩
      · rintro ⟨rfl, -, hon⟩
        exact ⟨rfl, hon⟩

end SubnetTables

theorem Bitfield.setBits_nodup (b : Bitfield) : b.setBits.Nodup :=
  List.nodup_range.filter _

/-- A peer is on a subnet once. -/
theorem PeerInfo.longLivedSubnets_nodup (info : PeerInfo F) : info.longLivedSubnets.Nodup := by
  have happend : ∀ (attnets syncnets : Option Bitfield),
      (attnets.elim [] (fun a => a.setBits.map Subnet.attestation) ++
        syncnets.elim [] fun s => s.setBits.map Subnet.syncCommittee).Nodup := by
    intro attnets syncnets
    rw [List.nodup_append]
    refine ⟨?_, ?_, ?_⟩
    · cases attnets with
      | none => exact List.nodup_nil
      | some a => exact a.setBits_nodup.map fun _ _ heq => Subnet.attestation.inj heq
    · cases syncnets with
      | none => exact List.nodup_nil
      | some s => exact s.setBits_nodup.map fun _ _ heq => Subnet.syncCommittee.inj heq
    · intro s hs s' hs'
      cases attnets with
      | none => cases hs
      | some a =>
        cases syncnets with
        | none => cases hs'
        | some b =>
          obtain ⟨_, -, rfl⟩ := List.mem_map.1 hs
          obtain ⟨_, -, rfl⟩ := List.mem_map.1 hs'
          exact fun heq => by cases heq
  unfold longLivedSubnets
  cases info.metaData with
  | some metaData => exact happend (some metaData.attnets) metaData.syncnets
  | none =>
    cases info.enr with
    | none => exact List.nodup_nil
    | some enr => exact happend enr.attestationBitfield enr.syncCommitteeBitfield

namespace SubnetTables

variable {pruned : DistinctList PeerId}

theorem countOf_build (peers : List (Map.Entry PeerId (PeerInfo F))) (id : ℕ) :
    (build pruned peers).countOf id = peers.countP fun e =>
      e.2.onSyncCommittee id && decide (e.1 ∉ pruned.toList) := by
  induction peers using List.reverseRecOn with
  | nil => rfl
  | append_singleton peers e ih =>
    rw [build_snoc, List.countP_append, List.countP_singleton, ← ih]
    by_cases hpruned : e.1 ∈ pruned
    · rw [if_pos hpruned, if_neg (by simpa using fun _ => DistinctList.mem_toList.2 hpruned)]
      rfl
    · have hnot : decide (e.1 ∉ pruned.toList) = true := decide_eq_true hpruned
      rw [if_neg hpruned, countOf_addPeer, hnot, Bool.and_true]
      by_cases hon : e.2.onSyncCommittee id = true
      · rw [if_pos hon, List.count_eq_one_of_mem e.2.longLivedSubnets_nodup
          (List.contains_iff_mem.1 hon)]
      · rw [if_neg hon, List.count_eq_zero_of_not_mem fun hmem =>
          hon (List.contains_iff_mem.2 hmem)]

/-! ### A pruned peer is removed -/

variable {t : SubnetTables F} {p : PeerId}

theorem mem_peersOn_removePeer {s : Subnet} {e : Map.Entry PeerId (PeerInfo F)} :
    e ∈ (t.removePeer p).peersOn s ↔ e ∈ t.peersOn s ∧ e.1 ≠ p := by
  unfold removePeer peersOn
  rw [Map.lookup_mapVal]
  cases t.subnetToPeer.lookup s with
  | none => simp
  | some peers => simp

/-- One peer fewer on a sync committee. -/
def decrementCount (counts : Map ℕ ℕ) (id : ℕ) : Map ℕ ℕ :=
  match counts.lookup id with
  | some count => counts.insert id (count - 1)
  | none => counts

theorem lookup_foldl_decrementCount {ids : List ℕ} (hnodup : ids.Nodup) (counts : Map ℕ ℕ)
    (id : ℕ) : ((ids.foldl decrementCount counts).lookup id).getD 0 =
      (counts.lookup id).getD 0 - if id ∈ ids then 1 else 0 := by
  induction ids generalizing counts with
  | nil => rfl
  | cons id' ids ih =>
    obtain ⟨hfresh, hrest⟩ := List.nodup_cons.1 hnodup
    rw [List.foldl_cons, ih hrest]
    by_cases hid : id = id'
    · subst hid
      rw [if_neg hfresh, if_pos List.mem_cons_self, decrementCount]
      cases hl : counts.lookup id with
      | none => simp [hl]
      | some count => simp
    · have hmem : id ∈ id' :: ids ↔ id ∈ ids := by simp [hid]
      rw [if_congr hmem rfl rfl]
      congr 2
      unfold decrementCount
      split
      · rw [Map.lookup_insert_eq, if_neg hid]
      · rfl

theorem countOf_removePeer (t : SubnetTables F) (p : PeerId) (id : ℕ) :
    (t.removePeer p).countOf id = t.countOf id - if id ∈ t.committeesOf p then 1 else 0 := by
  have hids : (t.peerToSyncCommittee.lookup p).elim [] (·.toList) =
      (t.committeesOf p).toList := by
    unfold committeesOf
    cases t.peerToSyncCommittee.lookup p <;> rfl
  unfold countOf removePeer
  rw [hids]
  exact lookup_foldl_decrementCount (t.committeesOf p).nodup _ id

/-! ### Candidates -/

/-- The sync-committee test of a candidate. -/
theorem minSubnetCount_spares (hknown : ∀ id ∈ t.committeesOf p, 0 < t.countOf id) :
    ((t.minSubnetCount p).elim true fun count => decide (minSyncCommitteePeers < count)) = true ↔
      ∀ id ∈ t.committeesOf p, minSyncCommitteePeers < t.countOf id := by
  have hlookup : ∀ id ∈ t.committeesOf p,
      t.syncCommitteePeerCount.lookup id = some (t.countOf id) := by
    intro id hid
    have hpos := hknown id hid
    unfold countOf at hpos ⊢
    cases hl : t.syncCommitteePeerCount.lookup id with
    | none =>
      rw [hl] at hpos
      exact absurd hpos (Nat.lt_irrefl 0)
    | some count => rfl
  have hcounts : (t.committeesOf p).toList.filterMap (fun id => t.syncCommitteePeerCount.lookup id)
      = (t.committeesOf p).toList.map t.countOf := by
    rw [← List.filterMap_eq_map]
    exact List.filterMap_congr fun id hid => hlookup id hid
  have hmin : t.minSubnetCount p = ((t.committeesOf p).toList.map t.countOf).min? := by
    rw [← hcounts]
    unfold minSubnetCount committeesOf
    cases t.peerToSyncCommittee.lookup p <;> rfl
  rw [hmin]
  cases hm : ((t.committeesOf p).toList.map t.countOf).min? with
  | none =>
    rw [List.min?_eq_none_iff, List.map_eq_nil_iff] at hm
    refine iff_of_true rfl fun id hid => ?_
    rw [← DistinctList.mem_toList, hm] at hid
    cases hid
  | some count =>
    obtain ⟨hmem, hle⟩ := List.min?_eq_some_iff.1 hm
    rw [Option.elim_some, decide_eq_true_eq]
    constructor
    · intro hlt id hid
      exact hlt.trans_le (hle _ (List.mem_map_of_mem hid))
    · intro hall
      obtain ⟨id, hid, rfl⟩ := List.mem_map.1 hmem
      exact hall id hid

end SubnetTables

/-! ## What the tables describe -/

/-- The tables describe the connected peers that are not pruned. -/
structure Describes (db : PeerDB F) (pruned : DistinctList PeerId) (t : SubnetTables F) :
    Prop where
  listed : ∀ s, ∀ e ∈ t.peersOn s, db.IsPeer e ∧ e.1 ∉ pruned
  committees : ∀ e, db.IsPeer e → e.1 ∉ pruned →
    ∀ id, id ∈ t.committeesOf e.1 ↔ e.2.onSyncCommittee id = true
  counts : ∀ id, t.countOf id = db.committeePeers pruned.toList id

namespace Describes

variable {db : PeerDB F} {pruned : DistinctList PeerId} {t : SubnetTables F}

theorem build (pruned : DistinctList PeerId)
    (connected : Shuffle (Map.Entry PeerId (PeerInfo F))) :
    Describes db pruned (SubnetTables.build pruned (connected.run db.connectedPeers)) := by
  have hpeer : ∀ e, e ∈ connected.run db.connectedPeers ↔ db.IsPeer e := by
    intro e
    rw [Shuffle.mem_run, PeerDB.mem_connectedPeers]
  refine ⟨fun s e he => ?_, fun e he hnot id => ?_, fun id => ?_⟩
  · obtain ⟨hmem, hnot, -⟩ := SubnetTables.mem_peersOn_build.1 he
    exact ⟨(hpeer e).1 hmem, hnot⟩
  · rw [SubnetTables.mem_committeesOf_build]
    constructor
    · rintro ⟨e', he', hkey, -, hon⟩
      have hentry := ((hpeer e').1 he').1
      rw [hkey, he.1] at hentry
      rwa [Option.some.inj hentry]
    · exact fun hon => ⟨e, (hpeer e).2 he, rfl, hnot, hon⟩
  · rw [SubnetTables.countOf_build, (connected.perm _).countP_eq, PeerDB.connectedPeers,
      PeerDB.select, List.countP_filter, PeerDB.committeePeers, PeerDB.unpruned, Map.count]
    refine List.countP_congr fun e _ => ?_
    simp [and_comm, and_left_comm]

/-- The list of a subnet is emptied. -/
theorem clear (h : Describes db pruned t) (subnet : Subnet) :
    Describes db pruned (t.setPeers subnet []) := by
  refine ⟨fun s e he => ?_, h.committees, h.counts⟩
  rw [SubnetTables.peersOn_setPeers] at he
  split at he
  · cases he
  · exact h.listed s e he

end Describes

namespace PeerDB

variable {db : PeerDB F} {e : Map.Entry PeerId (PeerInfo F)} {pruned : DistinctList PeerId}

/-- One more peer is pruned. -/
theorem unpruned_insert (he : db.peerInfo e.1 = some e.2) (hnot : e.1 ∉ pruned)
    (f : PeerInfo F → Bool) :
    db.unpruned (pruned.insert e.1).toList f + (f e.2).toNat = db.unpruned pruned.toList f := by
  have hother : ∀ p (info : PeerInfo F), p ≠ e.1 → db.peers.lookup p = some info →
      (f info && decide (p ∉ (pruned.insert e.1).toList)) =
        (f info && decide (p ∉ pruned.toList)) := by
    intro p info hp _
    congr 2
    rw [DistinctList.mem_toList, DistinctList.mem_insert, or_iff_right hp]
    rfl
  have hadd := Map.count_add_of_lookup he hother
  have hin : decide (e.1 ∉ (pruned.insert e.1).toList) = false := by
    rw [decide_eq_false_iff_not, not_not]
    exact DistinctList.mem_insert.2 (.inl rfl)
  have hout : decide (e.1 ∉ pruned.toList) = true := decide_eq_true hnot
  rw [hin, hout, Bool.and_true, Bool.and_false, Bool.toNat_false, Nat.add_zero] at hadd
  exact hadd

theorem committeePeers_insert (he : db.IsPeer e) (hnot : e.1 ∉ pruned) (id : ℕ) :
    db.committeePeers (pruned.insert e.1).toList id + (e.2.onSyncCommittee id).toNat =
      db.committeePeers pruned.toList id := by
  have hinsert := unpruned_insert he.1 hnot
    fun info => info.isConnected && info.onSyncCommittee id
  rw [he.2, Bool.true_and] at hinsert
  exact hinsert

/-- The more peers are pruned, the fewer are left. -/
theorem unpruned_anti {pruned pruned' : List PeerId} (h : pruned ⊆ pruned')
    (f : PeerInfo F → Bool) : db.unpruned pruned' f ≤ db.unpruned pruned f := by
  refine Map.count_le_count fun p info _ hleft => ?_
  rw [Bool.and_eq_true, decide_eq_true_eq] at hleft ⊢
  exact ⟨hleft.1, fun hp => hleft.2 (h hp)⟩

theorem outboundLeft_nil (db : PeerDB F) :
    db.outboundLeft [] = db.connectedOutboundOnlyPeers.length := by
  unfold outboundLeft unpruned connectedOutboundOnlyPeers select Map.count
  rw [List.length_map, ← List.countP_eq_length_filter]
  simp

end PeerDB

namespace Describes

variable {db : PeerDB F} {pruned : DistinctList PeerId} {t : SubnetTables F}
  {orders : PruneOrders F} {limits : PruneLimits} {round : ℕ} {st st' : PruneState}
  {t' : SubnetTables F}

/-- A listed peer is pruned. -/
theorem prune (h : Describes db pruned t) {subnet : Subnet}
    {e : Map.Entry PeerId (PeerInfo F)} (he : e ∈ t.peersOn subnet) (orders : PruneOrders F)
    (round : ℕ) : Describes db (pruned.insert e.1)
      ((t.setPeers subnet (peersInOrder orders round (t.peersOn subnet))).removePeer e.1) := by
  obtain ⟨hpeer, hnot⟩ := h.listed subnet e he
  refine ⟨fun s e' he' => ?_, fun e' he' hnot' id => ?_, fun id => ?_⟩
  · obtain ⟨hmem, hne⟩ := SubnetTables.mem_peersOn_removePeer.1 he'
    have hold : e' ∈ t.peersOn s := by
      rw [SubnetTables.peersOn_setPeers] at hmem
      split at hmem
      · next hs =>
        rw [hs]
        exact mem_peersInOrder.1 hmem
      · exact hmem
    obtain ⟨hpeer', hnot'⟩ := h.listed s e' hold
    exact ⟨hpeer', fun hin => (DistinctList.mem_insert.1 hin).elim hne hnot'⟩
  · exact h.committees e' he' (fun hin => hnot' (DistinctList.mem_insert.2 (.inr hin))) id
  · have hfewer := db.committeePeers_insert hpeer hnot id
    rw [SubnetTables.countOf_removePeer]
    change t.countOf id - (if id ∈ t.committeesOf e.1 then 1 else 0) = _
    rw [h.counts, ← hfewer]
    by_cases hon : e.2.onSyncCommittee id = true
    · rw [if_pos ((h.committees e hpeer hnot id).2 hon), hon]
      rfl
    · rw [if_neg fun hin => hon ((h.committees e hpeer hnot id).1 hin)]
      rw [Bool.not_eq_true] at hon
      rw [hon]
      rfl

/-- **Every round keeps the description.** -/
theorem step (h : Describes db st.peersToPrune t)
    (hround : RoundStep orders limits round st t st' t') :
    Describes db st'.peersToPrune t' := by
  cases hround with
  | prune he _ =>
    rw [PruneState.peersToPrune_insert]
    exact h.prune he orders round
  | clear _ => exact h.clear _

theorem rounds {st₀ : PruneState} {t₀ : SubnetTables F} (h : Describes db st₀.peersToPrune t₀)
    (hrounds : Rounds orders limits st₀ t₀ round st t) : Describes db st.peersToPrune t := by
  induction hrounds with
  | start => exact h
  | next _ _ hround ih => exact ih.step (pruneRound_cases hround)

/-- A listed peer is a candidate when the outbound peers and its sync committees allow it. -/
theorem isCandidate_iff (h : Describes db st.peersToPrune t) {subnet : Subnet}
    {e : Map.Entry PeerId (PeerInfo F)} (he : e ∈ t.peersOn subnet) :
    isCandidate limits st t e = true ↔
      (e.2.isOutboundOnly = true → limits.targetOutboundPeers + st.outboundPeersPruned <
        limits.connectedOutboundPeerCount) ∧
      ∀ id, e.2.onSyncCommittee id = true →
        minSyncCommitteePeers < db.committeePeers st.peersToPrune.toList id := by
  obtain ⟨hpeer, hnot⟩ := h.listed subnet e he
  have hcommittees := h.committees e hpeer hnot
  have hknown : ∀ id ∈ t.committeesOf e.1, 0 < t.countOf id := by
    intro id hid
    rw [h.counts, PeerDB.committeePeers, PeerDB.unpruned, Map.count_pos_iff]
    refine ⟨e.1, e.2, hpeer.1, ?_⟩
    rw [hpeer.2, (hcommittees id).1 hid, Bool.true_and, Bool.true_and, decide_eq_true_eq]
    exact hnot
  unfold isCandidate
  rw [Bool.and_eq_true, SubnetTables.minSubnetCount_spares hknown]
  refine and_congr ?_ ?_
  · rw [Bool.not_eq_true', Bool.and_eq_false_imp, decide_eq_false_iff_not]
    refine forall_congr' fun _ => ?_
    omega
  · refine forall_congr' fun id => ?_
    rw [hcommittees, h.counts]

end Describes

section

variable [ScoreArith F] (db : PeerDB F) (targetPeers targetOutboundPeers : ℕ) (clock : Clock)
  (orders : PruneOrders F)

/-- **The last phase** ends before one of its rounds, with enough peers pruned or with nobody
left to prune. -/
theorem afterSubnets_finish : ∃ round t,
    Rounds orders (db.pruneLimits targetPeers targetOutboundPeers)
      (afterNoSubnet db targetPeers targetOutboundPeers clock orders)
      (subnetTables db targetPeers targetOutboundPeers clock orders) round
      (afterSubnets db targetPeers targetOutboundPeers clock orders) t ∧
    ((db.pruneLimits targetPeers targetOutboundPeers).excess ≤
        (afterSubnets db targetPeers targetOutboundPeers clock orders).size ∨
      pruneRound orders (db.pruneLimits targetPeers targetOutboundPeers) round
        (afterSubnets db targetPeers targetOutboundPeers clock orders) t = none) := by
  unfold afterSubnets
  split
  · have hstart : Rounds orders (db.pruneLimits targetPeers targetOutboundPeers)
        (afterNoSubnet db targetPeers targetOutboundPeers clock orders)
        (subnetTables db targetPeers targetOutboundPeers clock orders) 0
        (afterNoSubnet db targetPeers targetOutboundPeers clock orders)
        (subnetTables db targetPeers targetOutboundPeers clock orders) := .start
    obtain ⟨round, st, t, hrounds, hloop, hend⟩ := hstart.exists_finish (Nat.lt_succ_self _)
    rw [hloop]
    exact ⟨round, t, hrounds, hend⟩
  · next hsize => exact ⟨0, _, .start, .inl (Nat.le_of_not_lt hsize)⟩

theorem describes_subnetTables : Describes db
    (afterNoSubnet db targetPeers targetOutboundPeers clock orders).peersToPrune
    (subnetTables db targetPeers targetOutboundPeers clock orders) :=
  .build _ _

end

end Consentry
