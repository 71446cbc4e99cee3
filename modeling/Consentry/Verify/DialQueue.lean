import Mathlib.Data.Finset.Card
import Consentry.Network.Dialing
import Consentry.Lib.Run
import Consentry.Verify.Calls
import Consentry.Verify.Scores

/-!
# The queue of dials

**`System.dials_bounded`**: a result of discovery never commits the node to more connections than
`max_priority_peers`, and no peer is queued twice, in the runs in which no peer that waits in the
queue escapes the checks of `peers_discovered` (`PeerManager.Foreseen`). These checks count the
peers that the database shows as connected or dialing; a peer is shown as dialing when `poll` takes
it from the queue (`System.dials_bounded_fails`).
-/

namespace Consentry

open Lib

variable {F : Type}

/-! ## The peers that count -/

namespace PeerDB

variable {db : PeerDB F} {p q : PeerId}

theorem mem_connectedOrDialingPeers : p ∈ db.connectedOrDialingPeers ↔
    ∃ info, db.peerInfo p = some info ∧ (info.isConnected || info.isDialing) = true := by
  unfold connectedOrDialingPeers select
  rw [List.mem_map]
  constructor
  · rintro ⟨⟨q, info⟩, he, rfl⟩
    obtain ⟨hentry, hinfo⟩ := List.mem_filter.1 he
    exact ⟨info, Map.mem_entries_iff.1 hentry, hinfo⟩
  · rintro ⟨info, hentry, hinfo⟩
    exact ⟨⟨p, info⟩, List.mem_filter.2 ⟨Map.mem_entries_iff.2 hentry, hinfo⟩, rfl⟩

theorem connectedOrDialingPeers_nodup (db : PeerDB F) : db.connectedOrDialingPeers.Nodup := by
  have hkeys : (db.peers.entries.map (·.1)).Nodup := db.peers.nodupKeys
  exact hkeys.sublist (List.Sublist.map _ List.filter_sublist)

section

variable [ScoreArith F]

/-- The entry of a peer whose time is updated: nothing else in it changes, and a new entry is one
of a peer that is not known. -/
theorem peerInfo_updateMinTtl (db : PeerDB F) (q : PeerId) (minTtl now : Instant) (p : PeerId) :
    ∃ ttl, (db.updateMinTtl q minTtl now).peerInfo p =
      if p = q then some { (db.peerInfo q).getD (.defaultAt now) with minTtl := ttl }
      else db.peerInfo p := by
  unfold updateMinTtl
  dsimp only
  split
  · exact ⟨some minTtl, peerInfo_insert db q p _⟩
  · exact ⟨_, peerInfo_insert db q p _⟩

/-- The time until which a peer is needed says nothing about its connection and its score. -/
theorem shouldDial_updateMinTtl (q : PeerId) (minTtl now : Instant) (p : PeerId) :
    (db.updateMinTtl q minTtl now).shouldDial p = db.shouldDial p := by
  obtain ⟨ttl, hinfo⟩ := db.peerInfo_updateMinTtl q minTtl now p
  have hcount : (db.updateMinTtl q minTtl now).bannedPeersCount = db.bannedPeersCount := rfl
  unfold shouldDial connectionStatus scoreStateBannedOrDisconnected ipIsBanned
  rw [hinfo, hcount]
  by_cases hsame : p = q
  · rw [if_pos hsame, hsame]
    cases hq : db.peerInfo q with
    | some info => rfl
    | none =>
      have hhealthy : ({ (PeerInfo.defaultAt now : PeerInfo F) with minTtl := ttl }).scoreState =
          .healthy := Score.state_defaultAt now
      dsimp only [Option.getD_none, Option.map_some, Option.map_none]
      rw [hhealthy]
      rfl
  · rw [if_neg hsame]

theorem mem_connectedOrDialingPeers_updateMinTtl (q : PeerId) (minTtl now : Instant)
    (p : PeerId) : p ∈ (db.updateMinTtl q minTtl now).connectedOrDialingPeers ↔
      p ∈ db.connectedOrDialingPeers := by
  obtain ⟨ttl, hinfo⟩ := db.peerInfo_updateMinTtl q minTtl now p
  rw [mem_connectedOrDialingPeers, mem_connectedOrDialingPeers, hinfo]
  by_cases hsame : p = q
  · rw [if_pos hsame, hsame]
    cases hq : db.peerInfo q with
    | some info =>
      constructor
      · rintro ⟨info', hinfo', hstatus⟩
        obtain rfl := Option.some.inj hinfo'
        exact ⟨info, rfl, hstatus⟩
      · rintro ⟨info', hinfo', hstatus⟩
        obtain rfl := Option.some.inj hinfo'
        exact ⟨_, rfl, hstatus⟩
    | none =>
      constructor
      · rintro ⟨info', hinfo', hstatus⟩
        obtain rfl := Option.some.inj hinfo'
        cases hstatus
      · rintro ⟨info', hinfo', -⟩
        cases hinfo'
  · rw [if_neg hsame]

end

end PeerDB

/-! ## A result of discovery -/

namespace PeerManager

variable [ScoreArith F] {pm : PeerManager F}

omit [ScoreArith F] in
theorem maxPeers_le_maxPriorityPeers (pm : PeerManager F) :
    pm.maxPeers ≤ pm.maxPriorityPeers :=
  F32.ceil_mono (F32.mul_le_mul_left _ (by decide))

/-- The peers of a result that are to be dialed, were there room for all of them. -/
def eligible (pm : PeerManager F) (results : List (PeerId × Option Instant)) : List PeerId :=
  (results.map (·.1)).filter fun p => pm.peerdb.shouldDial p

/-- The peers that wait to be dialed. -/
def queued (pm : PeerManager F) : List PeerId := pm.peersToDial.map (·.1)

/-- The peers that are connected, dialing or waiting to be dialed. -/
def committed (pm : PeerManager F) : Finset PeerId :=
  pm.peerdb.connectedOrDialingPeers.toFinset ∪ pm.queued.toFinset

/-- What a function leaves that counts peers. -/
structure SameDials (pm pm' : PeerManager F) : Prop where
  shouldDial : ∀ p, pm'.peerdb.shouldDial p = pm.peerdb.shouldDial p
  connectedOrDialing : ∀ p, p ∈ pm'.peerdb.connectedOrDialingPeers ↔
    p ∈ pm.peerdb.connectedOrDialingPeers
  peersToDial : pm'.peersToDial = pm.peersToDial
  targetPeers : pm'.targetPeers = pm.targetPeers

theorem SameDials.refl (pm : PeerManager F) : pm.SameDials pm :=
  ⟨fun _ => rfl, fun _ => Iff.rfl, rfl, rfl⟩

theorem SameDials.trans {pm pm' pm'' : PeerManager F} (h : pm.SameDials pm')
    (k : pm'.SameDials pm'') : pm.SameDials pm'' :=
  ⟨fun p => (k.1 p).trans (h.1 p), fun p => (k.2 p).trans (h.2 p), k.3.trans h.3, k.4.trans h.4⟩

theorem SameDials.committed {pm pm' : PeerManager F} (h : pm.SameDials pm') :
    pm'.committed = pm.committed := by
  unfold PeerManager.committed queued
  rw [h.peersToDial]
  congr 1
  ext p
  rw [List.mem_toFinset, List.mem_toFinset, h.connectedOrDialing]

theorem SameDials.maxPriorityPeers {pm pm' : PeerManager F} (h : pm.SameDials pm') :
    pm'.maxPriorityPeers = pm.maxPriorityPeers := by
  unfold PeerManager.maxPriorityPeers
  rw [h.targetPeers]

theorem sameDials_updateMinTtl (pm : PeerManager F) (p : PeerId) (minTtl now : Instant) :
    pm.SameDials { pm with peerdb := pm.peerdb.updateMinTtl p minTtl now } :=
  ⟨PeerDB.shouldDial_updateMinTtl p minTtl now,
    PeerDB.mem_connectedOrDialingPeers_updateMinTtl p minTtl now, rfl, rfl⟩

theorem sameDials_maintainPeerCount (pm : PeerManager F) (dialingPeers : ℕ) :
    pm.SameDials (pm.maintainPeerCount dialingPeers) := by
  have hpush : ∀ event, pm.SameDials (pm.push event) :=
    fun _ => ⟨fun _ => rfl, fun _ => Iff.rfl, rfl, rfl⟩
  unfold maintainPeerCount
  split
  · exact iteInduction (motive := pm.SameDials) (fun _ => hpush _) fun _ => .refl pm
  · exact .refl pm

/-- What the loop of `peers_discovered` selects: some of the eligible peers, and no more than
there is room for beside those that are connected or dialing. -/
structure Selects (connectedOrDialing : ℕ) (pm : PeerManager F)
    (results : List (PeerId × Option Instant)) (toDialPeers : List PeerId)
    (r : PeerManager F × List PeerId) : Prop where
  same : pm.SameDials r.1
  chosen : ∃ chosen, r.2 = toDialPeers ++ chosen ∧ chosen.Sublist (pm.eligible results)
  bounded : connectedOrDialing + toDialPeers.length ≤ pm.maxPriorityPeers →
    connectedOrDialing + r.2.length ≤ pm.maxPriorityPeers

theorem eligible_congr {pm pm' : PeerManager F} (h : pm.SameDials pm')
    (results : List (PeerId × Option Instant)) : pm'.eligible results = pm.eligible results :=
  List.filter_congr fun p _ => h.shouldDial p

theorem selectToDial_selects (connectedOrDialing : ℕ) (now : Instant)
    (results : List (PeerId × Option Instant)) (pm : PeerManager F) (toDialPeers : List PeerId) :
    Selects connectedOrDialing pm results toDialPeers
      (selectToDial connectedOrDialing now results (pm, toDialPeers)) := by
  induction results generalizing pm toDialPeers with
  | nil => exact ⟨.refl pm, ⟨[], (List.append_nil _).symm, List.nil_sublist _⟩, fun h => h⟩
  | cons result results ih =>
    obtain ⟨peerId, minTtl⟩ := result
    unfold selectToDial
    split
    · next hselect =>
      obtain ⟨hroom, hdial⟩ := hselect
      have hround : ∀ pm', pm.SameDials pm' →
          Selects connectedOrDialing pm ((peerId, minTtl) :: results) toDialPeers
            (selectToDial connectedOrDialing now results (pm', toDialPeers ++ [peerId])) := by
        intro pm' hsame
        obtain ⟨hrest, ⟨chosen, hchosen, hsub⟩, hbounded⟩ := ih pm' (toDialPeers ++ [peerId])
        refine ⟨hsame.trans hrest, ⟨peerId :: chosen, ?_, ?_⟩, fun _ => ?_⟩
        · rw [hchosen, List.append_assoc, List.singleton_append]
        · rw [eligible_congr hsame] at hsub
          unfold eligible
          rw [List.map_cons, List.filter_cons_of_pos hdial]
          exact hsub.cons_cons peerId
        · rw [hsame.maxPriorityPeers] at hbounded
          apply hbounded
          have hle := pm.maxPeers_le_maxPriorityPeers
          rw [List.length_append, List.length_singleton]
          omega
      cases minTtl with
      | none => exact hround pm (.refl pm)
      | some minTtl => exact hround _ (sameDials_updateMinTtl pm peerId minTtl now)
    · obtain ⟨hrest, ⟨chosen, hchosen, hsub⟩, hbounded⟩ := ih pm toDialPeers
      refine ⟨hrest, ⟨chosen, hchosen, hsub.trans ?_⟩, hbounded⟩
      unfold eligible
      rw [List.map_cons]
      exact (List.sublist_cons_self _ _).filter _

theorem peersDiscovered_selects (pm : PeerManager F) (results : List (PeerId × Option Instant))
    (now : Instant) :
    Selects pm.peerdb.connectedOrDialingPeers.length pm results []
      (pm.peersDiscovered results now) := by
  obtain ⟨hsame, hchosen, hbounded⟩ :=
    selectToDial_selects pm.peerdb.connectedOrDialingPeers.length now results pm []
  exact ⟨hsame.trans (sameDials_maintainPeerCount _ _), hchosen, hbounded⟩

omit [ScoreArith F] in
theorem foldl_dialPeer (enrOfPeer : PeerId → Option Enr) (toDialPeers : List PeerId)
    (pm : PeerManager F) :
    toDialPeers.foldl (fun pm peerId => pm.dialPeer peerId (enrOfPeer peerId)) pm =
      { pm with
        peersToDial := pm.peersToDial ++ toDialPeers.map fun p => (p, enrOfPeer p, false) } := by
  induction toDialPeers generalizing pm with
  | nil => simp
  | cons p toDialPeers ih =>
    rw [List.foldl_cons, ih]
    simp [dialPeer]

/-- What a discovery event does: it queues what `peers_discovered` selects. -/
structure Queues (pm : PeerManager F) (results : List (PeerId × Option Instant))
    (chosen : List PeerId) (pm' : PeerManager F) : Prop where
  eligible : chosen.Sublist (pm.eligible results)
  queued : pm'.queued = pm.queued ++ chosen
  committed : pm'.committed = pm.committed ∪ chosen.toFinset
  bounded : pm.peerdb.connectedOrDialingPeers.length ≤ pm.maxPriorityPeers →
    pm.peerdb.connectedOrDialingPeers.length + chosen.length ≤ pm.maxPriorityPeers

theorem injectDiscoveryEvent_queues (pm : PeerManager F) (event : DiscoveredPeers)
    (enrOfPeer : PeerId → Option Enr) (now : Instant) :
    pm.Queues event.peers (pm.peersDiscovered event.peers now).2
      (pm.injectDiscoveryEvent event enrOfPeer now) := by
  obtain ⟨hsame, ⟨chosen, hchosen, hsub⟩, hbounded⟩ := pm.peersDiscovered_selects event.peers now
  unfold injectDiscoveryEvent
  generalize pm.peersDiscovered event.peers now = r at hsame hchosen hbounded ⊢
  obtain ⟨pm', toDialPeers⟩ := r
  obtain rfl : toDialPeers = chosen := hchosen
  dsimp only at hsame hbounded ⊢
  rw [foldl_dialPeer]
  have hqueued : pm'.queued = pm.queued := congrArg (List.map Prod.fst) hsame.peersToDial
  have hnew : (toDialPeers.map fun p => (p, enrOfPeer p, false)).map (·.1) = toDialPeers := by
    rw [List.map_map]
    exact List.map_id _
  refine ⟨hsub, ?_, ?_, hbounded⟩
  · rw [← hqueued]
    unfold queued
    rw [List.map_append, hnew]
  · rw [← hsame.committed]
    unfold committed queued
    rw [List.map_append, hnew, List.toFinset_append, Finset.union_assoc]

/-- The peers that wait do not escape the checks of `peers_discovered`: no eligible peer waits
already, and either all that wait are connected or dialing by now, or there is room for the
eligible peers beside them. -/
structure Foreseen (pm : PeerManager F) (results : List (PeerId × Option Instant)) : Prop where
  fresh : ∀ p ∈ pm.eligible results, p ∉ pm.queued
  room : pm.eligible results = [] ∨ (∀ p ∈ pm.queued, p ∈ pm.peerdb.connectedOrDialingPeers) ∨
    pm.committed.card + (pm.eligible results).length ≤ pm.maxPriorityPeers

instance (pm : PeerManager F) (results : List (PeerId × Option Instant)) :
    Decidable (pm.Foreseen results) :=
  decidable_of_iff (_ ∧ _) ⟨fun h => ⟨h.1, h.2⟩, fun h => ⟨h.1, h.2⟩⟩

variable {results : List (PeerId × Option Instant)} {chosen : List PeerId} {pm' : PeerManager F}

theorem committed_card_le (h : pm.Queues results chosen pm') :
    pm'.committed.card ≤ pm.committed.card + chosen.length := by
  rw [h.committed]
  exact (Finset.card_union_le _ _).trans (Nat.add_le_add_left (List.toFinset_card_le _) _)

omit [ScoreArith F] in
/-- When all that wait are connected or dialing, these are all that count. -/
theorem committed_card_of_seen (h : ∀ p ∈ pm.queued, p ∈ pm.peerdb.connectedOrDialingPeers) :
    pm.committed.card = pm.peerdb.connectedOrDialingPeers.length := by
  have hsub : pm.queued.toFinset ⊆ pm.peerdb.connectedOrDialingPeers.toFinset :=
    fun p hp => List.mem_toFinset.2 (h p (List.mem_toFinset.1 hp))
  unfold committed
  rw [Finset.union_eq_left.2 hsub,
    List.toFinset_card_of_nodup pm.peerdb.connectedOrDialingPeers_nodup]

theorem Queues.card_le (h : pm.Queues results chosen pm') (hforeseen : pm.Foreseen results)
    (hchosen : chosen ≠ [])
    (hroom : pm.peerdb.connectedOrDialingPeers.length ≤ pm.maxPriorityPeers) :
    pm'.committed.card ≤ pm.maxPriorityPeers := by
  have hcard := committed_card_le h
  have hlength := h.eligible.length_le
  rcases hforeseen.room with hnone | hseen | hfits
  · rw [hnone] at hlength
    exact absurd (List.length_eq_zero_iff.1 (Nat.le_zero.1 hlength)) hchosen
  · have hbounded := h.bounded hroom
    rw [committed_card_of_seen hseen] at hcard
    omega
  · omega

theorem Queues.nodup (h : pm.Queues results chosen pm') (hforeseen : pm.Foreseen results)
    (hdistinct : (results.map (·.1)).Nodup) (hqueue : pm.queued.Nodup) : pm'.queued.Nodup := by
  rw [h.queued]
  refine List.nodup_append.2 ⟨hqueue, (hdistinct.filter _).sublist h.eligible, ?_⟩
  rintro p hp q hq rfl
  exact hforeseen.fresh p (h.eligible.subset hq) hp

end PeerManager

/-! ## Runs -/

namespace System

variable [ScoreArith F]

/-- A discovery event that finds peers to dial does not commit to more connections than there may
be, if there were no more before. -/
def NeverOvercommits (s : System F) : DialOp F → Prop
  | .discovered event enrOfPeer now =>
    (s.pm.peersDiscovered event.peers now).2 ≠ [] →
      s.pm.peerdb.connectedOrDialingPeers.length ≤ s.pm.maxPriorityPeers →
        (s.pm.injectDiscoveryEvent event enrOfPeer now).committed.card ≤ s.pm.maxPriorityPeers
  | .call _ _ => True

/-- The peers that wait when a result of discovery comes do not escape its checks. -/
def Foresees (s : System F) : DialOp F → Prop
  | .discovered event _ _ => s.pm.Foreseen event.peers
  | .call _ _ => True

instance (s : System F) : ∀ op : DialOp F, Decidable (s.Foresees op)
  | .discovered event _ _ => inferInstanceAs (Decidable (s.pm.Foreseen event.peers))
  | .call _ _ => isTrue trivial

theorem neverOvercommits_of_foresees {s : System F} {op : DialOp F} (h : s.Foresees op) :
    s.NeverOvercommits op := by
  cases op with
  | discovered event enrOfPeer now =>
    exact fun hchosen hroom =>
      (s.pm.injectDiscoveryEvent_queues event enrOfPeer now).card_le h hchosen hroom
  | call op hop => trivial

theorem queued_nodup_step {s : System F} {op : DialOp F} (h : s.Foresees op)
    (hqueue : s.pm.queued.Nodup) : (s.dialStep op).pm.queued.Nodup := by
  cases op with
  | discovered event enrOfPeer now =>
    exact (s.pm.injectDiscoveryEvent_queues event enrOfPeer now).nodup h event.distinct hqueue
  | call op hop =>
    have hsuffix : (s.step op).pm.peersToDial <:+ s.pm.peersToDial := by
      cases op with
      | poll inp => exact s.peersToDial_suffix (.inr ⟨inp, rfl⟩)
      | dialPeer | dialTrustedPeer | peersDiscovered => cases hop
      | _ => exact s.peersToDial_suffix (.inl rfl)
    exact hqueue.sublist (hsuffix.sublist.map _)

/-- **Discovery never over-commits connections** in the runs in which no peer that waits to be
dialed escapes the checks of `peers_discovered`, and queues no peer twice. -/
theorem dials_bounded (targetPeers : ℕ) (discoveryEnabled : Bool) (ops : List (DialOp F))
    (hops : Along System.dialStep Foresees (System.new targetPeers discoveryEnabled) ops) :
    Along System.dialStep NeverOvercommits (System.new targetPeers discoveryEnabled) ops ∧
      Throughout System.dialStep (fun s => s.pm.queued.Nodup)
        (System.new targetPeers discoveryEnabled) ops :=
  ⟨hops.mono fun _ _ h => neverOvercommits_of_foresees h,
    throughout_of_along (P := fun s => s.pm.queued.Nodup)
      (fun _ _ hqueue h => queued_nodup_step h hqueue) List.nodup_nil hops⟩

/-- A result of discovery with two peers. -/
def twoPeers (p q : PeerId) (h : p ≠ q) : DiscoveredPeers :=
  ⟨[(p, none), (q, none)], by simpa using h⟩

/-- A peer is found, dialed, and found again with another one. -/
def foundTwice : List (DialOp ℚ) :=
  [.discovered ⟨[(⟨[1]⟩, some 5)], by simp⟩ (fun _ => none) 0,
    .call (.poll ⟨[], [], [], false, [], 0⟩) rfl,
    .discovered (twoPeers ⟨[1]⟩ ⟨[2]⟩ (by simp)) (fun _ => none) 0]

theorem dials_bounded_foundTwice :
    Along System.dialStep NeverOvercommits (System.new 1 false) foundTwice ∧
      Throughout System.dialStep (fun s => s.pm.queued.Nodup) (System.new 1 false) foundTwice :=
  dials_bounded 1 false foundTwice (by decide +kernel)

/-- Two results that share a peer come before the first dial. -/
def foundAtOnce : List (DialOp ℚ) :=
  [.discovered (twoPeers ⟨[1]⟩ ⟨[2]⟩ (by simp)) (fun _ => none) 0,
    .discovered (twoPeers ⟨[1]⟩ ⟨[3]⟩ (by simp)) (fun _ => none) 0]

theorem dials_bounded_fails :
    ¬ (∀ (targetPeers : ℕ) (discoveryEnabled : Bool) (ops : List (DialOp ℚ)),
      Along System.dialStep NeverOvercommits (System.new targetPeers discoveryEnabled) ops) ∧
    ¬ ∀ (targetPeers : ℕ) (discoveryEnabled : Bool) (ops : List (DialOp ℚ)),
      Throughout System.dialStep (fun s => s.pm.queued.Nodup)
        (System.new targetPeers discoveryEnabled) ops := by
  constructor
  · intro h
    obtain ⟨-, hsecond, -⟩ := h 1 false foundAtOnce
    have hover := hsecond (by decide +kernel) (by decide +kernel)
    revert hover
    decide +kernel
  · intro h
    have hlast := (h 1 false foundAtOnce).last
    revert hlast
    decide +kernel

end System

end Consentry
