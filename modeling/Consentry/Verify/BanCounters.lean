import Consentry.Lib.Run
import Consentry.Verify.BanSteps

/-!
# The counters of banned peers

`BansExact` relates `banned_peers_count` to the entries of the database. **`BansExact.step`**:
every operation keeps it, except a request to disconnect a banned peer, which always
breaks it: that arm of `update_connection_state` takes the peer out of the banned state
and leaves it counted.

The counter of an IP counts socket addresses. **`isIpBanned_iff`** compares it with the
number of distinct peers.
-/

namespace Consentry

open Lib

variable {F : Type}

namespace PeerDB

/-! ## What the counters stand for -/

/-- The number of entries with status `Banned`. -/
def bannedEntries (db : PeerDB F) : ℕ := db.peers.count fun _ info => info.isBanned

/-- The number of pairs of an entry with status `Banned` and a seen socket address of it
with the IP. -/
def bannedSeen (db : PeerDB F) (ip : IpAddr) : ℕ :=
  db.peers.total fun _ info =>
    if info.isBanned then (info.seenAddresses.toList.filter (·.ip = ip)).length else 0

/-- The number of distinct peers with status `Banned` that have been seen on the IP. -/
def bannedPeersOn (db : PeerDB F) (ip : IpAddr) : ℕ :=
  db.peers.count fun _ info => info.isBanned && info.seenIpAddresses.contains ip

/-- The counters of banned peers are exact, and none of them has ever saturated. -/
structure BansExact (db : PeerDB F) : Prop where
  banned : db.bannedPeersCount.bannedPeers.val = db.bannedEntries
  perIp : ∀ ip, db.bannedPeersCount.perIp ip = db.bannedSeen ip
  banned_unsaturated : db.bannedPeersCount.bannedPeers.saturated = false
  perIp_unsaturated : BannedPeersCount.Unsaturated db.bannedPeersCount.bannedPeersPerIp

/-! ## Totals over the banned peers -/

/-- The sum over the banned peers of a number computed from their addresses. -/
def banTotal (g : List IpAddr → ℕ) (db : PeerDB F) : ℕ :=
  db.peers.total fun _ info => info.bannedAddrs.elim 0 g

variable {db db' : PeerDB F} (g : List IpAddr → ℕ)

theorem weightAt_bannedAddrs (db : PeerDB F) (p : PeerId) :
    db.peers.weightAt (fun _ info => info.bannedAddrs.elim 0 g) p =
      (db.bannedAddrs p).elim 0 g := by
  unfold Map.weightAt PeerDB.bannedAddrs PeerDB.peerInfo
  cases db.peers.lookup p <;> rfl

theorem banTotal_of_same (h : ∀ p, db'.bannedAddrs p = db.bannedAddrs p) :
    db'.banTotal g = db.banTotal g := by
  apply Map.total_eq_of_weightAt
  intro p
  rw [weightAt_bannedAddrs, weightAt_bannedAddrs, h]

theorem banTotal_of_change {p : PeerId} {o : Option (List IpAddr)}
    (h : ∀ q, db'.bannedAddrs q = if q = p then o else db.bannedAddrs q) :
    db'.banTotal g + (db.bannedAddrs p).elim 0 g = db.banTotal g + o.elim 0 g := by
  have hother : ∀ q, q ≠ p →
      db'.peers.weightAt (fun _ info => info.bannedAddrs.elim 0 g) q =
        db.peers.weightAt (fun _ info => info.bannedAddrs.elim 0 g) q := by
    intro q hq
    rw [weightAt_bannedAddrs, weightAt_bannedAddrs, h, if_neg hq]
  have htotal := Map.total_add_weightAt hother
  rw [weightAt_bannedAddrs, weightAt_bannedAddrs, h, if_pos rfl] at htotal
  exact htotal

theorem banTotal_eq_zero (h : ∀ p, db.bannedAddrs p = none) : db.banTotal g = 0 := by
  have hempty : db.banTotal g = (⟨∅, db.disconnectedPeers, db.bannedPeersCount⟩ :
      PeerDB F).banTotal g := by
    apply banTotal_of_same
    intro p
    rw [h]
    rfl
  rw [hempty]
  rfl

theorem bannedEntries_eq_banTotal (db : PeerDB F) :
    db.bannedEntries = db.banTotal fun _ => 1 := by
  rw [bannedEntries, Map.count_eq_total]
  unfold banTotal PeerInfo.bannedAddrs
  apply Map.total_congr
  intro p info _
  cases info.isBanned <;> rfl

theorem bannedSeen_eq_banTotal (db : PeerDB F) (ip : IpAddr) :
    db.bannedSeen ip = db.banTotal fun ips => ips.count ip := by
  unfold bannedSeen banTotal PeerInfo.bannedAddrs PeerInfo.seenIpAddresses
  apply Map.total_congr
  intro p info _
  cases info.isBanned with
  | false => rfl
  | true =>
    simp only [if_true, Option.elim_some]
    rw [List.count, List.countP_map, List.countP_eq_length_filter]
    congr 1

theorem bannedEntries_of_same (h : ∀ p, db'.bannedAddrs p = db.bannedAddrs p) :
    db'.bannedEntries = db.bannedEntries := by
  rw [bannedEntries_eq_banTotal, bannedEntries_eq_banTotal, banTotal_of_same _ h]

theorem bannedSeen_of_same (h : ∀ p, db'.bannedAddrs p = db.bannedAddrs p) (ip : IpAddr) :
    db'.bannedSeen ip = db.bannedSeen ip := by
  rw [bannedSeen_eq_banTotal, bannedSeen_eq_banTotal, banTotal_of_same _ h]

/-- The entries with status `Banned` when the ban of one peer changes. -/
theorem bannedEntries_of_change {p : PeerId} {o : Option (List IpAddr)}
    (h : ∀ q, db'.bannedAddrs q = if q = p then o else db.bannedAddrs q) :
    db'.bannedEntries + (db.bannedAddrs p).elim 0 (fun _ => 1) =
      db.bannedEntries + o.elim 0 fun _ => 1 := by
  rw [bannedEntries_eq_banTotal, bannedEntries_eq_banTotal]
  exact banTotal_of_change _ h

theorem bannedSeen_of_change {p : PeerId} {o : Option (List IpAddr)}
    (h : ∀ q, db'.bannedAddrs q = if q = p then o else db.bannedAddrs q) (ip : IpAddr) :
    db'.bannedSeen ip + (db.bannedAddrs p).elim 0 (fun ips => ips.count ip) =
      db.bannedSeen ip + o.elim 0 fun ips => ips.count ip := by
  rw [bannedSeen_eq_banTotal, bannedSeen_eq_banTotal]
  exact banTotal_of_change _ h

theorem bannedEntries_eq_zero (h : ∀ p, db.bannedAddrs p = none) : db.bannedEntries = 0 := by
  rw [bannedEntries_eq_banTotal, banTotal_eq_zero _ h]

/-! ## The counters are exact -/

theorem BansExact.empty : (PeerDB.empty : PeerDB F).BansExact :=
  ⟨rfl, fun _ => rfl, rfl, BannedPeersCount.unsaturated_empty⟩

theorem BansExact.of_same (h : db.BansExact) (haddrs : ∀ p, db'.bannedAddrs p = db.bannedAddrs p)
    (hcount : db'.bannedPeersCount = db.bannedPeersCount) : db'.BansExact := by
  refine ⟨?_, fun ip => ?_, ?_, ?_⟩
  · rw [hcount, bannedEntries_of_same haddrs]
    exact h.banned
  · rw [hcount, bannedSeen_of_same haddrs]
    exact h.perIp ip
  · rw [hcount]
    exact h.banned_unsaturated
  · rw [hcount]
    exact h.perIp_unsaturated

/-- A ban that begins and is counted. -/
theorem BansExact.of_enter (h : db.BansExact) {p : PeerId} {ips : List IpAddr}
    (hs : db.bannedAddrs p = none)
    (hr : ∀ q, db'.bannedAddrs q = if q = p then some ips else db.bannedAddrs q)
    (hcount : db'.bannedPeersCount = db.bannedPeersCount.addBannedPeer ips) : db'.BansExact := by
  have hentries := bannedEntries_of_change hr
  have hseen := bannedSeen_of_change hr
  simp only [hs, Option.elim_none, Option.elim_some, Nat.add_zero] at hentries hseen
  refine ⟨?_, fun ip => ?_, ?_, ?_⟩
  · rw [hcount, BannedPeersCount.bannedPeers_addBannedPeer, Counter.add_val, h.banned, hentries]
  · rw [hcount, BannedPeersCount.perIp_addBannedPeer, h.perIp, hseen]
  · rw [hcount]
    exact h.banned_unsaturated
  · rw [hcount]
    exact h.perIp_unsaturated.addBannedPeer ips

/-- A ban that ends and is no longer counted. -/
theorem BansExact.of_leave (h : db.BansExact) {p : PeerId} {ips : List IpAddr}
    (hs : db.bannedAddrs p = some ips)
    (hr : ∀ q, db'.bannedAddrs q = if q = p then none else db.bannedAddrs q)
    (hcount : db'.bannedPeersCount = db.bannedPeersCount.removeBannedPeer ips) :
    db'.BansExact := by
  have hentries := bannedEntries_of_change hr
  have hseen := bannedSeen_of_change hr
  simp only [hs, Option.elim_none, Option.elim_some, Nat.add_zero] at hentries hseen
  have hbanned := h.banned
  refine ⟨?_, fun ip => ?_, ?_, ?_⟩
  · rw [hcount, BannedPeersCount.bannedPeers_removeBannedPeer, Counter.saturatingSub_val]
    omega
  · rw [hcount, BannedPeersCount.perIp_removeBannedPeer, h.perIp, ← hseen, Nat.add_sub_cancel]
  · rw [hcount, BannedPeersCount.bannedPeers_removeBannedPeer,
      Counter.saturatingSub_saturated (by omega)]
    exact h.banned_unsaturated
  · rw [hcount]
    refine h.perIp_unsaturated.removeBannedPeer fun ip => ?_
    rw [h.perIp, ← hseen]
    exact Nat.le_add_left _ _

/-- A move of the ledger that does not leak keeps the counters exact. -/
theorem BansExact.banStep {slips : Prop} {ns : List BanNotice} (h : db.BansExact)
    (k : BanStep slips False db ns db') : db'.BansExact := by
  cases k with
  | stay haddrs hcount _ => exact h.of_same haddrs hcount
  | enter p ips hs hr hcount _ => exact h.of_enter hs hr hcount
  | leave p ips hs hr hcount _ => exact h.of_leave hs hr hcount
  | slip _ p ips hs hr hcount _ => exact h.of_leave hs hr hcount
  | leak hfalse => exact hfalse.elim
  | reset hmax hs _ _ _ =>
    rw [h.banned, bannedEntries_eq_zero hs] at hmax
    exact absurd hmax (Nat.not_lt_zero _)

theorem BansExact.banSteps {slips : Prop} {ns : List BanNotice} (h : db.BansExact)
    (k : BanSteps slips False db ns db') : db'.BansExact := by
  induction k with
  | refl => exact h
  | tail _ k ih => exact ih.banStep k

variable [ScoreArith F]

/-- **Every operation keeps the counters exact**, but for a request to disconnect a
banned peer. -/
theorem BansExact.step (h : db.BansExact) {op : DbOp F} (hop : db.disconnectsBanned op = false) :
    (db.step op).BansExact :=
  have hsteps : BanSteps True False db (db.notices op) (db.step op) :=
    step_banSteps db op (fun _ => trivial) (by simp [hop])
  h.banSteps hsteps

/-- A banned peer that is told to disconnect stays counted. -/
theorem BansExact.not_step (h : db.BansExact) {op : DbOp F} (hop : db.disconnectsBanned op = true) :
    ¬ (db.step op).BansExact := by
  intro h'
  cases op with
  | notifyDisconnecting p toBan now =>
    have hbanned : db.isBanned p = true := hop
    obtain ⟨ips, hips⟩ : ∃ ips, db.bannedAddrs p = some ips := by
      rw [← Option.isSome_iff_exists, bannedAddrs_isSome]
      exact hbanned
    have hr : ∀ q, (db.step (.notifyDisconnecting p toBan now)).bannedAddrs q =
        if q = p then none else db.bannedAddrs q :=
      bannedAddrs_notifyDisconnecting db p toBan now
    have hcount : (db.step (.notifyDisconnecting p toBan now)).bannedPeersCount =
        db.bannedPeersCount := Arm.toDisconnecting_bannedPeersCount _ toBan
    have hfewer := bannedEntries_of_change hr
    rw [hips, Option.elim_some, Option.elim_none] at hfewer
    have hafter := h'.banned
    rw [hcount, h.banned] at hafter
    omega
  | _ => cases hop

/-- **The counters of banned peers are exact throughout the histories in which no banned
peer is told to disconnect, and only in those.** -/
theorem bansExact_iff (ops : List (DbOp F)) :
    Throughout PeerDB.step BansExact PeerDB.empty ops ↔
      Along PeerDB.step (fun db op => db.disconnectsBanned op = false) PeerDB.empty ops := by
  refine throughout_iff_along (P := BansExact) (D := fun _ _ => True) ?_ ?_ ?_ .empty ?_
  · intro db op h _ hop
    exact h.step hop
  · exact fun _ h => h
  · intro db op h _ hnext
    rw [← Bool.not_eq_true]
    intro hop
    exact h.not_step hop hnext
  · exact Along.of_forall (fun _ _ => trivial) ops _

/-- A peer that is banned and then asked to disconnect again. -/
theorem bansExact_fails :
    ¬ ∀ ops : List (DbOp ℚ), Throughout PeerDB.step BansExact PeerDB.empty ops := by
  intro h
  have hlast := (h [.connectIngoing ⟨[1]⟩ [.ip4 1, .tcp 9000] none 0,
    .reportPeer ⟨[1]⟩ .fatal 0, .injectDisconnect ⟨[1]⟩ 0 default,
    .notifyDisconnecting ⟨[1]⟩ false 0]).last.banned
  revert hlast
  decide +kernel

/-! ## Addresses and peers -/

omit [ScoreArith F] in
/-- A peer seen on an IP has been seen on a socket address with that IP. -/
theorem bannedPeersOn_le_bannedSeen (db : PeerDB F) (ip : IpAddr) :
    db.bannedPeersOn ip ≤ db.bannedSeen ip := by
  rw [bannedPeersOn, Map.count_eq_total]
  apply Map.total_le_total
  intro p info _
  cases info.isBanned with
  | false => simp
  | true =>
    simp only [Bool.true_and, if_true]
    split
    · next hseen =>
      rw [List.contains_iff_mem, PeerInfo.seenIpAddresses, List.mem_map] at hseen
      obtain ⟨a, ha, hip⟩ := hseen
      exact List.length_pos_of_mem (List.mem_filter.2 ⟨ha, by simpa using hip⟩)
    · exact Nat.zero_le _

omit [ScoreArith F] in
/-- An IP is banned when more than the threshold of socket addresses are counted on it. -/
theorem BansExact.isIpBanned_iff {db : PeerDB F} (h : db.BansExact) (ip : IpAddr) :
    db.isIpBanned ip = true ↔ bannedPeersPerIpThreshold < db.bannedSeen ip := by
  rw [isIpBanned, BannedPeersCount.ipIsBanned_eq, decide_eq_true_eq, h.perIp]

/-- The operation asks no banned peer to connect, to dial or to disconnect. -/
def respectsBans (db : PeerDB F) (op : DbOp F) : Bool :=
  !db.readmits op && !db.disconnectsBanned op

theorem bansExact_of_respectsBans {ops : List (DbOp F)}
    (h : Along PeerDB.step (fun db op => db.respectsBans op = true) PeerDB.empty ops) :
    Throughout PeerDB.step BansExact PeerDB.empty ops := by
  refine throughout_of_along (fun db op hexact hop => hexact.step ?_) .empty h
  rw [respectsBans, Bool.and_eq_true] at hop
  simpa using hop.2

/-- **Banned by distinct peers.** An IP is banned exactly when more than five distinct
banned peers have been seen on it, unless at most five of them account for more than
five socket addresses. -/
theorem isIpBanned_distinct_iff (ops : List (DbOp F))
    (h : Along PeerDB.step (fun db op => db.respectsBans op = true) PeerDB.empty ops) :
    Throughout PeerDB.step (fun db => ∀ ip,
      (db.isIpBanned ip = true ↔ bannedPeersPerIpThreshold < db.bannedPeersOn ip) ↔
        (db.bannedSeen ip ≤ bannedPeersPerIpThreshold ∨
          bannedPeersPerIpThreshold < db.bannedPeersOn ip)) PeerDB.empty ops := by
  refine (bansExact_of_respectsBans h).mono fun db hexact ip => ?_
  rw [hexact.isIpBanned_iff]
  have hle := db.bannedPeersOn_le_bannedSeen ip
  omega

/-- One peer that connects from six ports of an IP and is banned. -/
def sixPorts : List (DbOp ℚ) :=
  ((List.range 6).map fun port =>
    .connectIngoing ⟨[1]⟩ [.ip4 1, .tcp port.toUInt16] none 0) ++
    [.reportPeer ⟨[1]⟩ .fatal 0, .injectDisconnect ⟨[1]⟩ 0 default]

theorem isIpBanned_distinct_iff_sixPorts :
    ((sixPorts.foldl PeerDB.step PeerDB.empty).isIpBanned (.v4 1) = true ↔
        bannedPeersPerIpThreshold <
          (sixPorts.foldl PeerDB.step PeerDB.empty).bannedPeersOn (.v4 1)) ↔
      ((sixPorts.foldl PeerDB.step PeerDB.empty).bannedSeen (.v4 1) ≤
          bannedPeersPerIpThreshold ∨
        bannedPeersPerIpThreshold <
          (sixPorts.foldl PeerDB.step PeerDB.empty).bannedPeersOn (.v4 1)) :=
  (isIpBanned_distinct_iff sixPorts (by decide +kernel)).last (.v4 1)

theorem isIpBanned_distinct_fails :
    ¬ ∀ ops : List (DbOp ℚ),
      Along PeerDB.step (fun db op => db.respectsBans op = true) PeerDB.empty ops →
        Throughout PeerDB.step (fun db => ∀ ip,
          db.isIpBanned ip = true ↔ bannedPeersPerIpThreshold < db.bannedPeersOn ip)
          PeerDB.empty ops := by
  intro h
  have hlast := (h sixPorts (by decide +kernel)).last (.v4 1)
  revert hlast
  decide +kernel

end PeerDB

end Consentry
