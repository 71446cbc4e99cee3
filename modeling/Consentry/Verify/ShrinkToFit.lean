import Consentry.Lib.Oldest
import Consentry.Verify.BanCounters
import Consentry.Verify.DisconnectedCounter

/-!
# What `shrink_to_fit` evicts

`CountersExact` says that the counters are the numbers of entries they stand for. In a round of
either loop an oldest entry is removed and its counter lowered, which keeps them so
(`CountersExact.dropBanned`, `CountersExact.dropDisconnected`), so a loop is a series of removals
of oldest entries: `Unbans` for the banned peers, with what is returned for each of them, and
`Forgets` for the disconnected ones. **`shrinkToFit_evicts`**: as many entries go as there are in
excess of the limits, the oldest ones, everything else stays, and the counters are exact
afterwards. Whatever the counters are, both loops end.
-/

namespace Consentry

open Lib

variable {F : Type}

/-- Since when the peer is banned. -/
def PeerInfo.bannedAt (info : PeerInfo F) : Option Instant :=
  match info.connectionStatus with
  | .banned since => some since
  | _ => none

/-- Since when the peer is disconnected. -/
def PeerInfo.disconnectedAt (info : PeerInfo F) : Option Instant :=
  match info.connectionStatus with
  | .disconnected since => some since
  | _ => none

namespace PeerInfo

variable {info : PeerInfo F}

theorem bannedAt_eq_some {since : Instant} :
    info.bannedAt = some since ↔ info.connectionStatus = .banned since := by
  unfold bannedAt
  cases info.connectionStatus <;> simp

theorem disconnectedAt_eq_some {since : Instant} :
    info.disconnectedAt = some since ↔ info.connectionStatus = .disconnected since := by
  unfold disconnectedAt
  cases info.connectionStatus <;> simp

theorem isSome_disconnectedAt (info : PeerInfo F) :
    info.disconnectedAt.isSome = info.isDisconnected := by
  unfold disconnectedAt isDisconnected
  cases info.connectionStatus <;> rfl

theorem disconnectedAt_of_bannedAt {since : Instant} (h : info.bannedAt = some since) :
    info.disconnectedAt = none := by
  unfold disconnectedAt
  rw [bannedAt_eq_some.1 h]

end PeerInfo

namespace PeerDB

/-- The number of entries with status `Disconnected`. -/
def disconnectedEntries (db : PeerDB F) : ℕ := db.peers.count fun _ info => info.isDisconnected

/-- The counters are the numbers of entries they stand for. -/
structure CountersExact (db : PeerDB F) : Prop where
  banned : db.bannedPeersCount.bannedPeers.val = db.bannedEntries
  perIp : ∀ ip, db.bannedPeersCount.perIp ip = db.bannedSeen ip
  disconnected : db.disconnectedPeers.val = db.disconnectedEntries

/-- The entries of some peers are removed. -/
def without (db : PeerDB F) (ps : List PeerId) : PeerDB F :=
  { db with peers := ps.foldl (fun peers p => peers.erase p) db.peers }

/-- These are the `excess` entries with the earliest instants. -/
structure AreOldest (since : PeerInfo F → Option Instant) (db : PeerDB F) (ps : List PeerId)
    (excess : ℕ) : Prop where
  nodup : ps.Nodup
  length_eq : ps.length = excess
  aged : ∀ p ∈ ps, ((db.peerInfo p).bind since).isSome = true
  oldest : ∀ p ∈ ps, ∀ q ∉ ps, ∀ s s', (db.peerInfo p).bind since = some s →
    (db.peerInfo q).bind since = some s' → s ≤ s'

/-- What is returned for a banned peer that is removed after others: those of its seen IPs that
are not banned right after its removal. -/
def Unbanned (db : PeerDB F) (before : List PeerId) (p : PeerId) (ips : List IpAddr) : Prop :=
  ∃ info, db.peerInfo p = some info ∧ ips = info.seenIpAddresses.filter fun ip =>
    decide ((db.without (before ++ [p])).bannedSeen ip ≤ bannedPeersPerIpThreshold)

/-- The outcome of an eviction of the oldest entries in excess of the limits. -/
structure Evicts (db : PeerDB F) (out : PeerDB F × List (PeerId × List IpAddr))
    (purged forgotten : List PeerId) : Prop where
  banned : db.AreOldest PeerInfo.bannedAt purged (db.bannedEntries - maxBannedPeers)
  disconnected :
    db.AreOldest PeerInfo.disconnectedAt forgotten (db.disconnectedEntries - maxDcPeers)
  returned : out.2.map Prod.fst = purged
  unbannedIps : ∀ before p ips after, out.2 = before ++ (p, ips) :: after →
    db.Unbanned (before.map Prod.fst) p ips
  peerInfo : ∀ q, out.1.peerInfo q = if q ∈ purged ∨ q ∈ forgotten then none else db.peerInfo q
  exact : out.1.CountersExact

/-- The loops of `shrink_to_fit` end by their own conditions: with more rounds than they are given
here nothing changes, and neither counter exceeds its limit any more. -/
structure LoopsEnd (db : PeerDB F) (order : Shuffle (Map.Entry PeerId (PeerInfo F))) :
    Prop where
  banned : ∀ more,
    shrinkBanned order (db.bannedPeersCount.bannedPeers.val - maxBannedPeers + more) db [] =
      shrinkBanned order (db.bannedPeersCount.bannedPeers.val - maxBannedPeers) db []
  disconnected : ∀ db', (shrinkBanned order
      (db.bannedPeersCount.bannedPeers.val - maxBannedPeers) db []).1 = db' → ∀ more,
    shrinkDisconnected order (db'.disconnectedPeers.val - maxDcPeers + more) db' =
      (db.shrinkToFit order).1
  banned_le : (db.shrinkToFit order).1.bannedPeersCount.bannedPeers.val ≤ maxBannedPeers
  disconnected_le : (db.shrinkToFit order).1.disconnectedPeers.val ≤ maxDcPeers

variable {db db' : PeerDB F}

/-! ## One entry is removed -/

theorem CountersExact.dropBanned (h : db.CountersExact) {p : PeerId} {info : PeerInfo F}
    {since : Instant} (hinfo : db.peerInfo p = some info) (hs : info.bannedAt = some since) :
    CountersExact ⟨db.peers.erase p, db.disconnectedPeers,
      db.bannedPeersCount.removeBannedPeer info.seenIpAddresses⟩ := by
  have haddrs : db.bannedAddrs p = some info.seenIpAddresses := by
    rw [bannedAddrs, hinfo, Option.bind_some,
      PeerInfo.bannedAddrs_of_banned (PeerInfo.bannedAt_eq_some.1 hs)]
  have herase : ∀ q, bannedAddrs ⟨db.peers.erase p, db.disconnectedPeers,
      db.bannedPeersCount.removeBannedPeer info.seenIpAddresses⟩ q =
        if q = p then none else db.bannedAddrs q := bannedAddrs_erase rfl
  have hfewer := bannedEntries_of_change herase
  have hseen := bannedSeen_of_change herase
  simp only [haddrs, Option.elim_none, Option.elim_some, Nat.add_zero] at hfewer hseen
  have hbanned := h.banned
  refine ⟨?_, fun ip => ?_, ?_⟩
  · change db.bannedPeersCount.bannedPeers.val - 1 = _
    omega
  · change (db.bannedPeersCount.removeBannedPeer info.seenIpAddresses).perIp ip = _
    rw [BannedPeersCount.perIp_removeBannedPeer, h.perIp, ← hseen, Nat.add_sub_cancel]
  · have herase := Map.count_erase_of_lookup (fun _ info => info.isDisconnected) hinfo
    have hnot : info.isDisconnected = false := by
      rw [← PeerInfo.isSome_disconnectedAt, PeerInfo.disconnectedAt_of_bannedAt hs]
      rfl
    rw [hnot, Bool.toNat_false, Nat.add_zero] at herase
    exact h.disconnected.trans herase.symm

theorem CountersExact.dropDisconnected (h : db.CountersExact) {p : PeerId} {info : PeerInfo F}
    {since : Instant} (hinfo : db.peerInfo p = some info)
    (hs : info.disconnectedAt = some since) :
    CountersExact ⟨db.peers.erase p, db.disconnectedPeers.saturatingSub,
      db.bannedPeersCount⟩ := by
  have hnot : db.bannedAddrs p = none := by
    rw [← isBanned_eq_false_iff, isBanned, hinfo, Option.elim_some, PeerInfo.isBanned,
      PeerInfo.disconnectedAt_eq_some.1 hs]
  have hsame : ∀ q, bannedAddrs ⟨db.peers.erase p, db.disconnectedPeers.saturatingSub,
      db.bannedPeersCount⟩ q = db.bannedAddrs q := by
    intro q
    rw [bannedAddrs_erase rfl]
    split
    · next hq => rw [hq, hnot]
    · rfl
  have hdis : info.isDisconnected = true := by
    rw [← PeerInfo.isSome_disconnectedAt, hs]
    rfl
  have herase := Map.count_erase_of_lookup (fun _ info => info.isDisconnected) hinfo
  rw [hdis, Bool.toNat_true] at herase
  refine ⟨?_, fun ip => ?_, ?_⟩
  · rw [bannedEntries_of_same hsame]
    exact h.banned
  · rw [bannedSeen_of_same hsame]
    exact h.perIp ip
  · have hcount : db.disconnectedPeers.val = db.peers.count fun _ info => info.isDisconnected :=
      h.disconnected
    change db.disconnectedPeers.val - 1 =
      Map.count (fun _ info => info.isDisconnected) (db.peers.erase p)
    omega

theorem oldest_bannedSince {order : Shuffle (Map.Entry PeerId (PeerInfo F))}
    {e : Map.Entry PeerId (PeerInfo F)} {since : Instant}
    (h : (db.bannedSince order).argmin (·.2) = some (e, since)) :
    db.peerInfo e.1 = some e.2 ∧ e.2.bannedAt = some since ∧
      Oldest (fun _ info => info.bannedAt) db.peers e.1 := by
  obtain ⟨hinfo, hs⟩ := mem_bannedSince.1 (List.argmin_mem h)
  have hat := PeerInfo.bannedAt_eq_some.2 hs
  refine ⟨hinfo, hat, e.2, since, hinfo, hat, fun q info since' hq hs' => ?_⟩
  have hmem : ((⟨q, info⟩ : Map.Entry PeerId (PeerInfo F)), since') ∈ db.bannedSince order :=
    mem_bannedSince.2 ⟨hq, PeerInfo.bannedAt_eq_some.1 hs'⟩
  exact List.le_of_mem_argmin hmem h

theorem oldest_disconnectedSince {order : Shuffle (Map.Entry PeerId (PeerInfo F))} {p : PeerId}
    {since : Instant} (h : (db.disconnectedSince order).argmin (·.2) = some (p, since)) :
    (∃ info, db.peerInfo p = some info ∧ info.disconnectedAt = some since) ∧
      Oldest (fun _ info => info.disconnectedAt) db.peers p := by
  have hmem : (p, since) ∈ db.disconnectedSince order := List.argmin_mem h
  obtain ⟨info, hinfo, hs⟩ := Option.map_eq_some_iff.1 (mem_disconnectedSince.1 hmem)
  have hat := PeerInfo.disconnectedAt_eq_some.2 hs
  refine ⟨⟨info, hinfo, hat⟩, info, since, hinfo, hat, fun q info' since' hq hs' => ?_⟩
  have hother : (q, since') ∈ db.disconnectedSince order := by
    rw [mem_disconnectedSince, connectionStatus, peerInfo, hq, Option.map_some,
      PeerInfo.disconnectedAt_eq_some.1 hs']
  exact List.le_of_mem_argmin hother h

/-! ## The loops -/

/-- The loop over the banned peers has removed `out` and is in `db'`. -/
structure Unbans (db : PeerDB F) (out : List (PeerId × List IpAddr)) (db' : PeerDB F) :
    Prop where
  drops : Drops (fun _ info => info.bannedAt) db.peers (out.map Prod.fst) db'.peers
  disconnectedPeers : db'.disconnectedPeers = db.disconnectedPeers
  exact : db'.CountersExact
  unbannedIps : ∀ before p ips after, out = before ++ (p, ips) :: after →
    db.Unbanned (before.map Prod.fst) p ips

theorem Unbans.done (h : db.CountersExact) : Unbans db [] db where
  drops := .done db.peers
  disconnectedPeers := rfl
  exact := h
  unbannedIps before p ips after hout := by cases before <;> cases hout

/-- A round of the loop over the banned peers. -/
theorem Unbans.drop (h : db.CountersExact) {e : Map.Entry PeerId (PeerInfo F)} {since : Instant}
    {order : Shuffle (Map.Entry PeerId (PeerInfo F))} {out : List (PeerId × List IpAddr)}
    (harg : (db.bannedSince order).argmin (·.2) = some (e, since))
    (hrest : Unbans ⟨db.peers.erase e.1, db.disconnectedPeers,
      db.bannedPeersCount.removeBannedPeer e.2.seenIpAddresses⟩ out db') :
    Unbans db ((e.1, e.2.seenIpAddresses.filter fun ip =>
      !(db.bannedPeersCount.removeBannedPeer e.2.seenIpAddresses).ipIsBanned ip) :: out) db' := by
  obtain ⟨hinfo, hat, holdest⟩ := oldest_bannedSince harg
  have hexact := h.dropBanned hinfo hat
  refine ⟨.drop holdest hrest.drops, hrest.disconnectedPeers, hrest.exact, ?_⟩
  intro before p ips after hout
  cases before with
  | nil =>
    obtain ⟨hhead, -⟩ := List.cons.inj hout
    obtain ⟨rfl, rfl⟩ := Prod.mk.inj hhead
    refine ⟨e.2, hinfo, List.filter_congr fun ip _ => ?_⟩
    have hperIp := hexact.perIp ip
    change (db.bannedPeersCount.removeBannedPeer e.2.seenIpAddresses).perIp ip =
      (db.without [e.1]).bannedSeen ip at hperIp
    rw [BannedPeersCount.ipIsBanned_eq, hperIp, ← decide_not]
    exact decide_eq_decide.2 Nat.not_lt
  | cons first before =>
    obtain ⟨rfl, htail⟩ := List.cons.inj hout
    obtain ⟨info, hp, hips⟩ := hrest.unbannedIps before p ips after htail
    refine ⟨info, ?_, hips⟩
    unfold peerInfo at hp
    rw [Map.lookup_erase_eq] at hp
    split at hp
    · cases hp
    · exact hp

/-- **The loop over the banned peers** removes as many as there are in excess. -/
theorem shrinkBanned_unbans (order : Shuffle (Map.Entry PeerId (PeerInfo F))) {rounds : ℕ}
    (acc : List (PeerId × List IpAddr)) (h : db.CountersExact)
    (hrounds : db.bannedEntries - maxBannedPeers ≤ rounds) :
    ∃ out, (shrinkBanned order rounds db acc).2 = acc ++ out ∧
      out.length = db.bannedEntries - maxBannedPeers ∧
      Unbans db out (shrinkBanned order rounds db acc).1 := by
  induction rounds generalizing db acc with
  | zero => exact ⟨[], (List.append_nil acc).symm, by simp; omega, .done h⟩
  | succ rounds ih =>
    rw [shrinkBanned]
    have hbanned := h.banned
    split
    · next hmax =>
      split
      · next e since harg =>
        obtain ⟨hinfo, hat, -⟩ := oldest_bannedSince harg
        have hexact := h.dropBanned hinfo hat
        have hfewer := hexact.banned
        change db.bannedPeersCount.bannedPeers.val - 1 = _ at hfewer
        obtain ⟨out, hout, hlength, hrest⟩ := ih (acc ++ [(e.1, _)]) hexact (by omega)
        refine ⟨_ :: out, ?_, ?_, .drop h harg hrest⟩
        · exact hout.trans (List.append_assoc _ _ _)
        · rw [List.length_cons, hlength]
          omega
      · next harg =>
        have hnone := bannedAddrs_of_bannedSince_nil (List.argmin_eq_none.1 harg)
        rw [hbanned, bannedEntries_eq_zero hnone] at hmax
        exact absurd hmax (Nat.not_lt_zero _)
    · exact ⟨[], (List.append_nil acc).symm, by simp; omega, .done h⟩

/-- The loop over the disconnected peers has removed `ps` and is in `db'`. -/
structure Forgets (db : PeerDB F) (ps : List PeerId) (db' : PeerDB F) : Prop where
  drops : Drops (fun _ info => info.disconnectedAt) db.peers ps db'.peers
  exact : db'.CountersExact

/-- **The loop over the disconnected peers** removes as many as there are in excess. -/
theorem shrinkDisconnected_forgets (order : Shuffle (Map.Entry PeerId (PeerInfo F)))
    {rounds : ℕ} (h : db.CountersExact)
    (hrounds : db.disconnectedEntries - maxDcPeers ≤ rounds) :
    ∃ ps, ps.length = db.disconnectedEntries - maxDcPeers ∧
      Forgets db ps (shrinkDisconnected order rounds db) := by
  induction rounds generalizing db with
  | zero => exact ⟨[], by simp; omega, .done db.peers, h⟩
  | succ rounds ih =>
    rw [shrinkDisconnected]
    have hdisconnected := h.disconnected
    split
    · next hmax =>
      split
      · next p since harg =>
        obtain ⟨⟨info, hinfo, hat⟩, holdest⟩ := oldest_disconnectedSince harg
        have hexact := h.dropDisconnected hinfo hat
        have hfewer := hexact.disconnected
        change db.disconnectedPeers.val - 1 = _ at hfewer
        obtain ⟨ps, hlength, hrest⟩ := ih hexact (by omega)
        refine ⟨p :: ps, ?_, .drop holdest hrest.drops, hrest.exact⟩
        rw [List.length_cons, hlength]
        omega
      · next harg =>
        rw [hdisconnected] at hmax
        have hpos : 0 < db.peers.count fun _ info => info.isDisconnected :=
          Nat.zero_lt_of_lt hmax
        obtain ⟨p, info, hinfo, hdis⟩ := Map.count_pos_iff.1 hpos
        rw [← PeerInfo.isSome_disconnectedAt] at hdis
        obtain ⟨since, hs⟩ := Option.isSome_iff_exists.1 hdis
        have hmem : (p, since) ∈ db.disconnectedSince order := by
          rw [mem_disconnectedSince, connectionStatus, peerInfo, hinfo, Option.map_some,
            PeerInfo.disconnectedAt_eq_some.1 hs]
        rw [List.argmin_eq_none.1 harg] at hmem
        cases hmem
    · exact ⟨[], by simp; omega, .done db.peers, h⟩

/-! ## The loops end -/

theorem shrinkBanned_add (order : Shuffle (Map.Entry PeerId (PeerInfo F))) {rounds : ℕ}
    (acc : List (PeerId × List IpAddr))
    (h : db.bannedPeersCount.bannedPeers.val - maxBannedPeers ≤ rounds) (more : ℕ) :
    shrinkBanned order (rounds + more) db acc = shrinkBanned order rounds db acc := by
  induction rounds generalizing db acc with
  | zero =>
    cases more with
    | zero => rfl
    | succ more => rw [Nat.zero_add, shrinkBanned, shrinkBanned, if_neg (by omega)]
  | succ rounds ih =>
    rw [Nat.add_right_comm, shrinkBanned, shrinkBanned]
    split
    · split
      · apply ih
        change db.bannedPeersCount.bannedPeers.val - 1 - maxBannedPeers ≤ rounds
        omega
      · apply ih
        change 0 - maxBannedPeers ≤ rounds
        omega
    · rfl

theorem shrinkDisconnected_add (order : Shuffle (Map.Entry PeerId (PeerInfo F))) {rounds : ℕ}
    (h : db.disconnectedPeers.val - maxDcPeers ≤ rounds) (more : ℕ) :
    shrinkDisconnected order (rounds + more) db = shrinkDisconnected order rounds db := by
  induction rounds generalizing db with
  | zero =>
    cases more with
    | zero => rfl
    | succ more => rw [Nat.zero_add, shrinkDisconnected, shrinkDisconnected, if_neg (by omega)]
  | succ rounds ih =>
    rw [Nat.add_right_comm, shrinkDisconnected, shrinkDisconnected]
    split
    · apply ih
      have hlower : db.disconnectedPeers.val - 1 - maxDcPeers ≤ rounds := by omega
      split <;> exact hlower
    · rfl

theorem loopsEnd (db : PeerDB F) (order : Shuffle (Map.Entry PeerId (PeerInfo F))) :
    db.LoopsEnd order where
  banned more := shrinkBanned_add order [] (Nat.le_refl _) more
  disconnected := by
    rintro _ rfl more
    exact shrinkDisconnected_add order (Nat.le_refl _) more
  banned_le := (shrinkToFit_within db order).1
  disconnected_le := (shrinkToFit_within db order).2

/-! ## The eviction -/

/-- Removals of oldest entries remove the oldest entries. -/
theorem AreOldest.of_drops {since : PeerInfo F → Option Instant} {ps : List PeerId}
    (h : Drops (fun _ info => since info) db.peers ps db'.peers) :
    db.AreOldest since ps ps.length := by
  obtain ⟨hnodup, haged⟩ := h.aged
  refine ⟨hnodup, rfl, fun p hp => ?_, fun p hp q hq s s' hs hs' => ?_⟩
  · obtain ⟨info, s, hinfo, hs⟩ := haged p hp
    rw [peerInfo, hinfo, Option.bind_some, hs]
    rfl
  · obtain ⟨info, hinfo, hs⟩ := Option.bind_eq_some_iff.1 hs
    obtain ⟨info', hinfo', hs'⟩ := Option.bind_eq_some_iff.1 hs'
    exact h.oldest hp hinfo hs hq hinfo' hs'

theorem AreOldest.congr {since : PeerInfo F → Option Instant} {ps : List PeerId} {n : ℕ}
    (h : db.AreOldest since ps n)
    (hsame : ∀ p, (db'.peerInfo p).bind since = (db.peerInfo p).bind since) :
    db'.AreOldest since ps n := by
  refine ⟨h.nodup, h.length_eq, fun p hp => ?_, fun p hp q hq s s' hs hs' => ?_⟩
  · rw [hsame]
    exact h.aged p hp
  · rw [hsame] at hs hs'
    exact h.oldest p hp q hq s s' hs hs'

/-- The banned peers that are removed are not disconnected. -/
theorem Unbans.disconnectedAt {out : List (PeerId × List IpAddr)} (h : Unbans db out db')
    (q : PeerId) : (db'.peerInfo q).bind PeerInfo.disconnectedAt =
      (db.peerInfo q).bind PeerInfo.disconnectedAt := by
  unfold peerInfo
  rw [h.drops.lookup_eq]
  split
  · next hq =>
    obtain ⟨info, since, hinfo, hs⟩ := h.drops.aged.2 q hq
    rw [hinfo, Option.bind_some, PeerInfo.disconnectedAt_of_bannedAt hs]
    rfl
  · rfl

/-- The loop over the banned peers leaves as many disconnected ones as there were. -/
theorem Unbans.disconnectedEntries {out : List (PeerId × List IpAddr)} (h : Unbans db out db')
    (hexact : db.CountersExact) : db'.disconnectedEntries = db.disconnectedEntries := by
  rw [← h.exact.disconnected, h.disconnectedPeers, hexact.disconnected]

/-- Both loops one after the other evict. -/
theorem Evicts.of_loops {db₁ db₂ : PeerDB F} {out : List (PeerId × List IpAddr)}
    {ps : List PeerId} (hexact : db.CountersExact)
    (hlength : out.length = db.bannedEntries - maxBannedPeers) (hunbans : Unbans db out db₁)
    (hps : ps.length = db₁.disconnectedEntries - maxDcPeers) (hforgets : Forgets db₁ ps db₂) :
    db.Evicts (db₂, out) (out.map Prod.fst) ps where
  banned := by
    rw [← hlength, ← List.length_map]
    exact .of_drops hunbans.drops
  disconnected := by
    rw [← hunbans.disconnectedEntries hexact, ← hps]
    exact (AreOldest.of_drops hforgets.drops).congr fun q => (hunbans.disconnectedAt q).symm
  returned := rfl
  unbannedIps := hunbans.unbannedIps
  peerInfo q := by
    have hlookup := hforgets.drops.lookup_eq q
    rw [hunbans.drops.lookup_eq q] at hlookup
    refine hlookup.trans ?_
    by_cases hforgotten : q ∈ ps
    · rw [if_pos hforgotten, if_pos (.inr hforgotten)]
    · rw [if_neg hforgotten]
      by_cases hpurged : q ∈ out.map Prod.fst
      · rw [if_pos hpurged, if_pos (.inl hpurged)]
      · rw [if_neg hpurged, if_neg fun hor => hor.elim hpurged hforgotten]
        rfl
  exact := hforgets.exact

/-- **`shrink_to_fit` evicts the oldest entries in excess of the limits**, and no others, if the
counters are exact; it ends whatever they are. -/
theorem shrinkToFit_evicts (db : PeerDB F) (order : Shuffle (Map.Entry PeerId (PeerInfo F))) :
    (db.CountersExact → ∃ purged forgotten,
      db.Evicts (db.shrinkToFit order) purged forgotten) ∧ db.LoopsEnd order := by
  refine ⟨fun h => ?_, db.loopsEnd order⟩
  have hrounds : db.bannedEntries - maxBannedPeers ≤
      db.bannedPeersCount.bannedPeers.val - maxBannedPeers := by
    rw [h.banned]
  obtain ⟨out, hout, hlength, hunbans⟩ := shrinkBanned_unbans order [] h hrounds
  rw [List.nil_append] at hout
  have hrest : (shrinkBanned order (db.bannedPeersCount.bannedPeers.val - maxBannedPeers)
      db []).1.disconnectedEntries - maxDcPeers ≤ (shrinkBanned order
        (db.bannedPeersCount.bannedPeers.val - maxBannedPeers) db []).1.disconnectedPeers.val -
          maxDcPeers := by
    rw [hunbans.exact.disconnected]
  obtain ⟨ps, hps, hforgets⟩ := shrinkDisconnected_forgets order hunbans.exact hrest
  refine ⟨out.map Prod.fst, ps, ?_⟩
  rw [← hout] at hlength hunbans ⊢
  exact .of_loops h hlength hunbans hps hforgets

/-- Peers that have disconnected one after the other. -/
def idlePeers (n : ℕ) : PeerDB ℚ where
  peers :=
    { entries := (List.range n).map fun since => ⟨⟨List.replicate since 0⟩,
        { (PeerInfo.defaultAt 0 : PeerInfo ℚ) with connectionStatus := .disconnected since }⟩
      nodupKeys := by
        rw [List.NodupKeys, List.keys, List.map_map]
        refine List.Nodup.map (fun a b hab => ?_) List.nodup_range
        simpa using congrArg (List.length ∘ PeerId.multihash) hab }
  disconnectedPeers := ⟨n, false⟩
  bannedPeersCount := .empty

theorem CountersExact.idlePeers (n : ℕ) : (idlePeers n).CountersExact := by
  have hnone : ∀ p, (PeerDB.idlePeers n).bannedAddrs p = none := by
    intro p
    rw [← isBanned_eq_false_iff, ← Bool.not_eq_true]
    intro hb
    obtain ⟨since, hs⟩ := isBanned_iff.1 hb
    obtain ⟨info, hinfo, hs⟩ := Option.map_eq_some_iff.1 hs
    obtain ⟨since', -, heq⟩ := List.mem_map.1 (Map.mem_entries_iff.2 hinfo)
    cases heq
    cases hs
  refine ⟨(bannedEntries_eq_zero hnone).symm, fun ip => ?_, ?_⟩
  · rw [bannedSeen_eq_banTotal, banTotal_eq_zero _ hnone]
    rfl
  · have hall : (PeerDB.idlePeers n).disconnectedEntries =
        (PeerDB.idlePeers n).peers.entries.length := by
      refine List.countP_eq_length.2 fun e he => ?_
      obtain ⟨since, -, rfl⟩ := List.mem_map.1 he
      rfl
    rw [hall]
    simp [PeerDB.idlePeers]

/-- One disconnected peer too many. -/
theorem shrinkToFit_evicts_idlePeers :
    (∃ purged forgotten, (idlePeers (maxDcPeers + 1)).Evicts
      ((idlePeers (maxDcPeers + 1)).shrinkToFit default) purged forgotten) ∧
    (idlePeers (maxDcPeers + 1)).LoopsEnd default := by
  obtain ⟨hevicts, hend⟩ := shrinkToFit_evicts (idlePeers (maxDcPeers + 1)) default
  exact ⟨hevicts (.idlePeers _), hend⟩

end PeerDB

end Consentry
