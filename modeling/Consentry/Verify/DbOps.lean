import Consentry.PeerDB

/-!
# Operations of the peer database

`DbOp` lists the operations the rest of the program performs on a `PeerDB`, so that a
history of the database is a list of them. `updateConnectionState` is read through three
lemmas: it writes one entry (`updateConnectionState_peerInfo`), and **`Arm.step_cases`**
says all it can do to the bookkeeping of bans.
-/

namespace Consentry

open Lib

/-- The public operations of the peer database, and the updates of an entry through
`peer_info_mut`. -/
inductive DbOp (F : Type)
  | connectIngoing (peerId : PeerId) (seenAddress : Multiaddr) (enr : Option Enr)
      (now : Instant)
  | connectOutgoing (peerId : PeerId) (seenAddress : Multiaddr) (enr : Option Enr)
      (now : Instant)
  | dialingPeer (peerId : PeerId) (enr : Option Enr) (trusted : Bool) (now : Instant)
  | notifyDisconnecting (peerId : PeerId) (toBan : Bool) (now : Instant)
  | injectDisconnect (peerId : PeerId) (now : Instant)
      (order : Shuffle (Map.Entry PeerId (PeerInfo F)))
  | reportPeer (peerId : PeerId) (action : PeerAction) (now : Instant)
  | updateScores (clock : Clock) (order : Shuffle (Map.Entry PeerId (PeerInfo F)))
  | updateGossipsubScores (targetPeers : ℕ) (peerScore : PeerId → Option F) (clock : Clock)
      (order : Shuffle (Map.Entry PeerId (PeerInfo F)))
  | cleanupDialingPeers (clock : Clock) (order : Shuffle (Map.Entry PeerId (PeerInfo F)))
  | shrinkToFit (order : Shuffle (Map.Entry PeerId (PeerInfo F)))
  | updateMinTtl (peerId : PeerId) (minTtl : Instant) (now : Instant)
  | addSubscription (peerId : PeerId) (subnet : Subnet)
  | removeSubscription (peerId : PeerId) (subnet : Subnet)
  | extendPeersOnSubnet (subnet : Subnet) (minTtl : Instant)
  | updateSyncStatus (peerId : PeerId) (status : SyncStatus)
  | setMetaData (peerId : PeerId) (metaData : MetaData)
  | setUntrusted (peerId : PeerId)

variable {F : Type} [ScoreArith F]

def PeerDB.step (db : PeerDB F) : DbOp F → PeerDB F
  | .connectIngoing p address enr now => db.connectIngoing p address enr now
  | .connectOutgoing p address enr now => db.connectOutgoing p address enr now
  | .dialingPeer p enr trusted now => db.dialingPeer p enr trusted now
  | .notifyDisconnecting p toBan now => db.notifyDisconnecting p toBan now
  | .injectDisconnect p now order => (db.injectDisconnect p now order).1
  | .reportPeer p action now => (db.reportPeer p action now).1
  | .updateScores clock order => (db.updateScores clock order).1
  | .updateGossipsubScores target peerScore clock order =>
    (db.updateGossipsubScores target peerScore clock order).1
  | .cleanupDialingPeers clock order => db.cleanupDialingPeers clock order
  | .shrinkToFit order => (db.shrinkToFit order).1
  | .updateMinTtl p minTtl now => db.updateMinTtl p minTtl now
  | .addSubscription p subnet => db.addSubscription p subnet
  | .removeSubscription p subnet => db.removeSubscription p subnet
  | .extendPeersOnSubnet subnet minTtl => db.extendPeersOnSubnet subnet minTtl
  | .updateSyncStatus p status => (db.updateSyncStatus p status).1
  | .setMetaData p metaData => db.modifyPeer p (·.setMetaData metaData)
  | .setUntrusted p => db.modifyPeer p (·.setUntrusted)

/-! ## Single entries -/

namespace PeerDB

omit [ScoreArith F] in
theorem peerInfo_insert (db : PeerDB F) (p q : PeerId) (info : PeerInfo F) :
    ({ db with peers := db.peers.insert p info } : PeerDB F).peerInfo q =
      if q = p then some info else db.peerInfo q :=
  Map.lookup_insert_eq db.peers p q info

theorem updateConnectionState_peerInfo (db : PeerDB F) (p q : PeerId)
    (st : NewConnectionState) (now : Instant) :
    (db.updateConnectionState p st now).1.peerInfo q =
      if q = p then some ((db.arm (db.entryOrInsert p st now)).step st now).info
      else db.peerInfo q :=
  Map.lookup_insert_eq db.peers p q _

omit [ScoreArith F] in
theorem updateSyncStatus_eq (db : PeerDB F) (p : PeerId) (status : SyncStatus) :
    (db.updateSyncStatus p status).1 =
      db.modifyPeer p fun info => (info.updateSyncStatus status).1 := by
  unfold updateSyncStatus modifyPeer
  cases db.peerInfo p <;> rfl

omit [ScoreArith F] in
theorem modifyPeer_peerInfo (db : PeerDB F) (p q : PeerId) (f : PeerInfo F → PeerInfo F) :
    (db.modifyPeer p f).peerInfo q =
      if q = p then (db.peerInfo p).map f else db.peerInfo q := by
  unfold modifyPeer
  cases h : db.peerInfo p with
  | none =>
    by_cases hq : q = p
    · simp [hq, h]
    · simp [hq]
  | some info => exact peerInfo_insert db p q (f info)

theorem entryOrInsert_of_some {db : PeerDB F} {p : PeerId} {info : PeerInfo F}
    (h : db.peerInfo p = some info) (st : NewConnectionState) (now : Instant) :
    db.entryOrInsert p st now = info := by
  simp [entryOrInsert, h]

/-- A fresh entry knows neither a status nor an address. -/
theorem entryOrInsert_of_none {db : PeerDB F} {p : PeerId} (h : db.peerInfo p = none)
    (st : NewConnectionState) (now : Instant) :
    (db.entryOrInsert p st now).connectionStatus = .unknown ∧
      (db.entryOrInsert p st now).seenAddresses = ∅ := by
  unfold entryOrInsert
  rw [h]
  cases st with
  | dialing enr trusted => cases trusted <;> exact ⟨rfl, rfl⟩
  | _ => exact ⟨rfl, rfl⟩

end PeerDB

/-! ## Changes of scores only -/

/-- An entry without the value of its score; it keeps whether the score is `max`. -/
def PeerInfo.unscored (info : PeerInfo F) : PeerInfo F :=
  { info with score := info.score.mapReal fun _ => .defaultAt 0 }

section

variable (info : PeerInfo F)

private theorem unscored_mapReal (f : RealScore F → RealScore F) :
    ({ info with score := info.score.mapReal f } : PeerInfo F).unscored = info.unscored := by
  unfold PeerInfo.unscored
  cases info.score <;> rfl

@[simp] theorem PeerInfo.unscored_scoreUpdate (now : Instant) :
    (info.scoreUpdate now).unscored = info.unscored := by
  unfold PeerInfo.scoreUpdate
  split
  · exact unscored_mapReal info _
  · rfl

@[simp] theorem PeerInfo.unscored_applyPeerActionToScore (action : PeerAction) :
    (info.applyPeerActionToScore action).unscored = info.unscored := by
  unfold PeerInfo.applyPeerActionToScore
  split
  · exact unscored_mapReal info _
  · rfl

@[simp] theorem PeerInfo.unscored_updateGossipsubScore (newScore : F) (ignore : Bool)
    (now : Instant) : (info.updateGossipsubScore newScore ignore now).unscored = info.unscored :=
  unscored_mapReal info _

variable {info}

/-- Entries that differ in the value of the score only have the same status. -/
theorem PeerInfo.connectionStatus_of_unscored {info' : PeerInfo F}
    (h : info'.unscored = info.unscored) : info'.connectionStatus = info.connectionStatus := by
  have hs : info'.unscored.connectionStatus = info.unscored.connectionStatus := by rw [h]
  exact hs

theorem PeerInfo.isConnected_of_unscored {info' : PeerInfo F}
    (h : info'.unscored = info.unscored) : info'.isConnected = info.isConnected := by
  have hc : info'.unscored.isConnected = info.unscored.isConnected := by rw [h]
  exact hc

end

/-- The two databases differ in the values of scores only. -/
structure PeerDB.Rescored (db db' : PeerDB F) : Prop where
  entries : ∀ p, (db'.peerInfo p).map PeerInfo.unscored = (db.peerInfo p).map PeerInfo.unscored
  bannedPeersCount : db'.bannedPeersCount = db.bannedPeersCount
  disconnectedPeers : db'.disconnectedPeers = db.disconnectedPeers

namespace PeerDB

variable {db db' db'' : PeerDB F}

theorem Rescored.refl (db : PeerDB F) : db.Rescored db := ⟨fun _ => rfl, rfl, rfl⟩

theorem Rescored.trans (h : db.Rescored db') (k : db'.Rescored db'') : db.Rescored db'' :=
  ⟨fun p => (k.entries p).trans (h.entries p), k.bannedPeersCount.trans h.bannedPeersCount,
    k.disconnectedPeers.trans h.disconnectedPeers⟩

/-- The entry of a peer up to the value of its score. -/
theorem Rescored.exists_of_some (h : db.Rescored db') {p : PeerId} {info : PeerInfo F}
    (hp : db.peerInfo p = some info) :
    ∃ info', db'.peerInfo p = some info' ∧ info'.unscored = info.unscored := by
  have he := h.entries p
  rw [hp] at he
  obtain ⟨info', hp', heq⟩ := Option.map_eq_some_iff.1 he
  exact ⟨info', hp', heq⟩

theorem Rescored.insert {p : PeerId} {info info' : PeerInfo F} (hp : db.peerInfo p = some info)
    (h : info'.unscored = info.unscored) :
    db.Rescored { db with peers := db.peers.insert p info' } := by
  refine ⟨fun q => ?_, rfl, rfl⟩
  rw [peerInfo_insert]
  split
  · next hq => rw [hq, hp, Option.map_some, Option.map_some, h]
  · rfl

theorem Rescored.mapVal {f : PeerId → PeerInfo F → PeerInfo F}
    (h : ∀ p info, (f p info).unscored = info.unscored) (db : PeerDB F) :
    db.Rescored { db with peers := db.peers.mapVal f } := by
  refine ⟨fun q => ?_, rfl, rfl⟩
  change (((db.peers.mapVal f).lookup q).map PeerInfo.unscored) = _
  rw [Map.lookup_mapVal, Option.map_map]
  exact congrArg (fun g => (db.peers.lookup q).map g) (funext fun info => h q info)

/-- The loop over the gossipsub scores of listed entries changes scores only, and collects
an action for listed peers only. -/
theorem setGossipsubScores_of_listed (clock : Clock)
    (peers : List (Map.Entry PeerId (PeerInfo F) × F)) (toIgnore : ℕ) (db : PeerDB F)
    (hpeers : ∀ e ∈ peers, ∃ info, db.peerInfo e.1.1 = some info ∧
      info.unscored = e.1.2.unscored) :
    db.Rescored (setGossipsubScores clock peers toIgnore db).1 ∧
      ∀ a ∈ (setGossipsubScores clock peers toIgnore db).2, ∃ e ∈ peers, e.1.1 = a.1 := by
  induction peers generalizing toIgnore db with
  | nil => exact ⟨.refl db, by simp [setGossipsubScores]⟩
  | cons e peers ih =>
    obtain ⟨⟨p, snapshot⟩, score⟩ := e
    obtain ⟨info, hinfo, hsame⟩ := hpeers _ List.mem_cons_self
    simp only [setGossipsubScores]
    generalize (decide (score < 0) && decide (0 < toIgnore)) = ignore
    have hscored : (snapshot.updateGossipsubScore score ignore (clock p)).unscored =
        info.unscored := by
      rw [PeerInfo.unscored_updateGossipsubScore, hsame]
    have hins := Rescored.insert hinfo hscored
    obtain ⟨hrest, hactions⟩ := ih (if ignore = true then toIgnore - 1 else toIgnore) _ (by
      intro e he
      obtain ⟨i, hi, hiu⟩ := hpeers e (List.mem_cons_of_mem _ he)
      obtain ⟨i', hi', hiu'⟩ := hins.exists_of_some hi
      exact ⟨i', hi', hiu'.trans hiu⟩)
    refine ⟨hins.trans hrest, fun a ha => ?_⟩
    rcases List.mem_cons.1 ha with rfl | ha
    · exact ⟨_, List.mem_cons_self, rfl⟩
    · obtain ⟨e, he, hea⟩ := hactions a ha
      exact ⟨e, List.mem_cons_of_mem _ he, hea⟩

/-- The listed peers of `update_gossipsub_scores` are connected entries. -/
theorem mem_gossipsubPeers {db : PeerDB F} {peerScore : PeerId → Option F}
    {order : Shuffle (Map.Entry PeerId (PeerInfo F))}
    {e : Map.Entry PeerId (PeerInfo F) × F} :
    e ∈ db.gossipsubPeers peerScore order ↔
      db.peerInfo e.1.1 = some e.1.2 ∧ e.1.2.isConnected = true ∧
        peerScore e.1.1 = some e.2 := by
  unfold gossipsubPeers
  rw [List.mem_mergeSort, List.mem_filterMap]
  constructor
  · rintro ⟨a, ha, hae⟩
    obtain ⟨score, hscore, rfl⟩ := Option.map_eq_some_iff.1 hae
    rw [Shuffle.mem_run, connectedPeers, select, List.mem_filter] at ha
    exact ⟨Map.mem_entries_iff.1 ha.1, ha.2, hscore⟩
  · rintro ⟨hentry, hconn, hscore⟩
    refine ⟨e.1, ?_, by rw [hscore]; rfl⟩
    rw [Shuffle.mem_run, connectedPeers, select, List.mem_filter]
    exact ⟨Map.mem_entries_iff.2 hentry, hconn⟩

/-- The first loop of `update_gossipsub_scores` changes scores only. -/
theorem setGossipsubScores_rescored (db : PeerDB F) (peerScore : PeerId → Option F)
    (clock : Clock) (order : Shuffle (Map.Entry PeerId (PeerInfo F))) (toIgnore : ℕ) :
    db.Rescored
        (setGossipsubScores clock (db.gossipsubPeers peerScore order) toIgnore db).1 ∧
      ∀ a ∈ (setGossipsubScores clock (db.gossipsubPeers peerScore order) toIgnore db).2,
        ∃ e ∈ db.gossipsubPeers peerScore order, e.1.1 = a.1 :=
  setGossipsubScores_of_listed clock _ toIgnore db fun e he =>
    ⟨e.1.2, (mem_gossipsubPeers.1 he).1, rfl⟩

end PeerDB

/-! ## The bookkeeping of bans -/

/-- The addresses a banned peer counts on, none for a peer that is not banned. -/
def PeerInfo.bannedAddrs (info : PeerInfo F) : Option (List IpAddr) :=
  if info.isBanned then some info.seenIpAddresses else none

namespace PeerInfo

omit [ScoreArith F] in
theorem bannedAddrs_congr {a b : PeerInfo F} (hstatus : a.connectionStatus = b.connectionStatus)
    (hseen : a.seenAddresses = b.seenAddresses) : a.bannedAddrs = b.bannedAddrs := by
  unfold bannedAddrs isBanned seenIpAddresses
  rw [hstatus, hseen]

omit [ScoreArith F] in
theorem bannedAddrs_of_banned {info : PeerInfo F} {since : Instant}
    (h : info.connectionStatus = .banned since) :
    info.bannedAddrs = some info.seenIpAddresses := by
  simp [bannedAddrs, isBanned, h]

omit [ScoreArith F] in
theorem seenIpAddresses_of_bannedAddrs {info : PeerInfo F} {ips : List IpAddr}
    (h : info.bannedAddrs = some ips) : info.seenIpAddresses = ips := by
  unfold bannedAddrs at h
  split at h
  · exact Option.some.inj h
  · exact absurd h (by simp)

omit [ScoreArith F] in
theorem bannedAddrs_eq_none {info : PeerInfo F} (h : info.isBanned = false) :
    info.bannedAddrs = none := by
  simp [bannedAddrs, h]

end PeerInfo

namespace PeerDB

def bannedAddrs (db : PeerDB F) (peerId : PeerId) : Option (List IpAddr) :=
  (db.peerInfo peerId).bind PeerInfo.bannedAddrs

/-- The connection status of the peer is `Banned`. -/
def isBanned (db : PeerDB F) (peerId : PeerId) : Bool :=
  (db.peerInfo peerId).elim false (·.isBanned)

omit [ScoreArith F] in
theorem bannedAddrs_isSome (db : PeerDB F) (p : PeerId) :
    (db.bannedAddrs p).isSome = db.isBanned p := by
  unfold bannedAddrs isBanned
  cases db.peerInfo p with
  | none => rfl
  | some info =>
    simp only [Option.bind_some, Option.elim_some, PeerInfo.bannedAddrs]
    cases info.isBanned <;> rfl

omit [ScoreArith F] in
theorem isBanned_eq_false_iff {db : PeerDB F} {p : PeerId} :
    db.isBanned p = false ↔ db.bannedAddrs p = none := by
  rw [← bannedAddrs_isSome, Option.isSome_eq_false_iff, Option.isNone_iff_eq_none]

omit [ScoreArith F] in
theorem isBanned_iff {db : PeerDB F} {p : PeerId} :
    db.isBanned p = true ↔ ∃ since, db.connectionStatus p = some (.banned since) := by
  unfold isBanned connectionStatus PeerInfo.isBanned
  cases db.peerInfo p with
  | none => simp
  | some info => cases hs : info.connectionStatus <;> simp [hs]

theorem bannedAddrs_entryOrInsert (db : PeerDB F) (p : PeerId) (st : NewConnectionState)
    (now : Instant) : (db.entryOrInsert p st now).bannedAddrs = db.bannedAddrs p := by
  unfold bannedAddrs
  cases h : db.peerInfo p with
  | none =>
    have hfresh := (entryOrInsert_of_none h st now).1
    simp [PeerInfo.bannedAddrs, PeerInfo.isBanned, hfresh]
  | some info => rw [entryOrInsert_of_some h, Option.bind_some]

end PeerDB

namespace Arm

/-- The states that take a banned peer back into use. -/
def Readmits : NewConnectionState → Prop
  | .connected _ _ _ | .dialing _ _ | .unbanned => True
  | .disconnecting _ | .disconnected | .banned => False

/-- All that `update_connection_state` can do to the bookkeeping of bans: the ban of the
peer stays as it is; it begins and is counted; it ends and is no longer counted; or it
ends and stays counted, which happens to a banned peer that is told to disconnect. -/
inductive BanCases (s : Arm F) (st : NewConnectionState) (r : Arm F) : Prop
  | stay (haddrs : r.info.bannedAddrs = s.info.bannedAddrs)
      (hcount : r.bannedPeersCount = s.bannedPeersCount)
      (hop : ∀ ips, r.banOperation = some (.readyToBan ips) →
        r.info.bannedAddrs.isSome ∧ ∀ ip ∈ ips, r.bannedPeersCount.ipIsBanned ip = true)
  | enter (ips : List IpAddr) (hst : st = .disconnected ∨ st = .banned)
      (hs : s.info.bannedAddrs = none) (hr : r.info.bannedAddrs = some ips)
      (hcount : r.bannedPeersCount = s.bannedPeersCount.addBannedPeer ips)
      (hop : r.banOperation =
        some (.readyToBan (ips.filter r.bannedPeersCount.ipIsBanned)))
  | leave (ips : List IpAddr) (hst : Readmits st) (hs : s.info.bannedAddrs = some ips)
      (hr : r.info.bannedAddrs = none)
      (hcount : r.bannedPeersCount = s.bannedPeersCount.removeBannedPeer ips)
  | leak (ips : List IpAddr) (hst : ∃ toBan, st = .disconnecting toBan)
      (hs : s.info.bannedAddrs = some ips) (hr : r.info.bannedAddrs = none)
      (hcount : r.bannedPeersCount = s.bannedPeersCount)

@[simp] theorem banScore_status (s : Arm F) (st : NewConnectionState) :
    (s.banScore st).info.connectionStatus = s.info.connectionStatus := by
  unfold banScore PeerInfo.applyPeerActionToScore
  split
  · split
    · rfl
    · split <;> rfl
  · rfl

@[simp] theorem banScore_seenAddresses (s : Arm F) (st : NewConnectionState) :
    (s.banScore st).info.seenAddresses = s.info.seenAddresses := by
  unfold banScore PeerInfo.applyPeerActionToScore
  split
  · split
    · rfl
    · split <;> rfl
  · rfl

@[simp] theorem banScore_bannedAddrs (s : Arm F) (st : NewConnectionState) :
    (s.banScore st).info.bannedAddrs = s.info.bannedAddrs :=
  PeerInfo.bannedAddrs_congr (banScore_status s st) (banScore_seenAddresses s st)

@[simp] theorem banScore_bannedPeersCount (s : Arm F) (st : NewConnectionState) :
    (s.banScore st).bannedPeersCount = s.bannedPeersCount := by
  unfold banScore
  split
  · split <;> rfl
  · rfl

@[simp] theorem banScore_banOperation (s : Arm F) (st : NewConnectionState) :
    (s.banScore st).banOperation = s.banOperation := by
  unfold banScore
  split
  · split <;> rfl
  · rfl

omit [ScoreArith F]

@[simp] theorem updateEnr_status (s : Arm F) (enr : Option Enr) :
    (s.updateEnr enr).info.connectionStatus = s.info.connectionStatus := by
  cases enr <;> rfl

@[simp] theorem updateEnr_seenAddresses (s : Arm F) (enr : Option Enr) :
    (s.updateEnr enr).info.seenAddresses = s.info.seenAddresses := by
  cases enr <;> rfl

@[simp] theorem updateEnr_bannedPeersCount (s : Arm F) (enr : Option Enr) :
    (s.updateEnr enr).bannedPeersCount = s.bannedPeersCount := by
  cases enr <;> rfl

@[simp] theorem updateEnr_banOperation (s : Arm F) (enr : Option Enr) :
    (s.updateEnr enr).banOperation = s.banOperation := by
  cases enr <;> rfl

@[simp] theorem setDialingPeer_bannedPeersCount (s : Arm F) (now : Instant) :
    (s.setDialingPeer now).bannedPeersCount = s.bannedPeersCount := by
  unfold setDialingPeer
  split <;> rfl

@[simp] theorem setDialingPeer_banOperation (s : Arm F) (now : Instant) :
    (s.setDialingPeer now).banOperation = s.banOperation := by
  unfold setDialingPeer
  split <;> rfl

theorem readyToBan_banOperation (s : Arm F) :
    s.readyToBan.banOperation =
      some (.readyToBan (s.info.seenIpAddresses.filter s.bannedPeersCount.ipIsBanned)) := by
  simp only [readyToBan, BannedPeersCount.filter_bannedIps_contains]

theorem isBanned_connectIngoing (info : PeerInfo F) (a : Option SocketAddr) :
    (info.connectIngoing a).isBanned = false := by
  unfold PeerInfo.connectIngoing PeerInfo.insertSeenAddress
  cases a <;> cases info.connectionStatus <;> rfl

theorem isBanned_connectOutgoing (info : PeerInfo F) (a : Option SocketAddr) :
    (info.connectOutgoing a).isBanned = false := by
  unfold PeerInfo.connectOutgoing PeerInfo.insertSeenAddress
  cases a <;> cases info.connectionStatus <;> rfl

theorem isBanned_setDialingPeer (s : Arm F) (now : Instant) :
    (s.setDialingPeer now).info.isBanned = false := by
  unfold setDialingPeer PeerInfo.setDialingPeer
  cases h : s.info.connectionStatus <;>
    simp [h, PeerInfo.isBanned, PeerInfo.setConnectionStatus]

/-- An arm that leaves the counters alone and bans nobody. -/
theorem BanCases.quiet {s r : Arm F} {st : NewConnectionState}
    (hs : s.info.bannedAddrs = none) (hr : r.info.bannedAddrs = none)
    (hcount : r.bannedPeersCount = s.bannedPeersCount)
    (hop : ∀ ips, r.banOperation ≠ some (.readyToBan ips)) : BanCases s st r :=
  .stay (hr.trans hs.symm) hcount fun ips h => absurd h (hop ips)

theorem toConnected_cases {s : Arm F} (hnone : s.banOperation = none) (enr : Option Enr)
    (seenAddress : Multiaddr) (direction : ConnectionDirection) :
    BanCases s (.connected enr seenAddress direction)
      (s.toConnected enr seenAddress direction) := by
  have hr : (s.toConnected enr seenAddress direction).info.bannedAddrs = none := by
    apply PeerInfo.bannedAddrs_eq_none
    cases direction
    · exact isBanned_connectIngoing _ _
    · exact isBanned_connectOutgoing _ _
  cases hstatus : s.info.connectionStatus with
  | banned since =>
    refine .leave s.info.seenIpAddresses trivial (PeerInfo.bannedAddrs_of_banned hstatus) hr ?_
    unfold toConnected
    cases direction <;> simp [hstatus, removeBannedPeer, PeerInfo.seenIpAddresses]
  | _ =>
    refine .quiet (PeerInfo.bannedAddrs_eq_none (by simp [PeerInfo.isBanned, hstatus])) hr ?_ ?_
    · unfold toConnected
      cases direction <;> simp [hstatus, decrementDisconnected]
    · unfold toConnected
      cases direction <;> simp [hstatus, decrementDisconnected, hnone]

theorem toDialing_cases {s : Arm F} (hnone : s.banOperation = none) (enr : Option Enr)
    (trusted : Bool) (now : Instant) :
    BanCases s (.dialing enr trusted) (s.toDialing enr trusted now) := by
  have hr : (s.toDialing enr trusted now).info.bannedAddrs = none :=
    PeerInfo.bannedAddrs_eq_none (isBanned_setDialingPeer _ _)
  cases hstatus : s.info.connectionStatus with
  | banned since =>
    refine .leave s.info.seenIpAddresses trivial (PeerInfo.bannedAddrs_of_banned hstatus) hr ?_
    unfold toDialing
    cases trusted <;> simp [hstatus, removeBannedPeer]
  | _ =>
    refine .quiet (PeerInfo.bannedAddrs_eq_none (by simp [PeerInfo.isBanned, hstatus])) hr ?_ ?_
    · unfold toDialing
      cases trusted <;> simp [hstatus, decrementDisconnected]
    · unfold toDialing
      cases trusted <;> simp [hstatus, decrementDisconnected, hnone]

theorem toDisconnected_cases {s : Arm F} (hnone : s.banOperation = none) (now : Instant) :
    BanCases s .disconnected (s.toDisconnected now) := by
  cases hstatus : s.info.connectionStatus with
  | banned since =>
    refine .stay (PeerInfo.bannedAddrs_congr ?_ ?_) ?_ ?_ <;>
      simp [toDisconnected, PeerInfo.clearSubnets, hstatus, hnone]
  | disconnected since =>
    refine .stay (PeerInfo.bannedAddrs_congr ?_ ?_) ?_ ?_ <;>
      simp [toDisconnected, PeerInfo.clearSubnets, hstatus, hnone]
  | disconnecting toBan =>
    cases toBan with
    | true =>
      have hr : s.toDisconnected now =
          (({ s with info := s.info.clearSubnets }.setStatus
            (.banned now)).addBannedPeer.readyToBan) := by
        simp [toDisconnected, PeerInfo.clearSubnets, hstatus]
      rw [hr]
      refine .enter s.info.seenIpAddresses (.inl rfl)
        (PeerInfo.bannedAddrs_eq_none (by simp [PeerInfo.isBanned, hstatus])) ?_ rfl ?_
      · exact PeerInfo.bannedAddrs_of_banned rfl
      · exact readyToBan_banOperation _
    | false =>
      refine .quiet (PeerInfo.bannedAddrs_eq_none (by simp [PeerInfo.isBanned, hstatus]))
        (PeerInfo.bannedAddrs_eq_none ?_) ?_ ?_ <;>
      simp [toDisconnected, PeerInfo.clearSubnets, hstatus, hnone, setStatus,
        incrementDisconnected, PeerInfo.setConnectionStatus, PeerInfo.isBanned]
  | _ =>
    refine .quiet (PeerInfo.bannedAddrs_eq_none (by simp [PeerInfo.isBanned, hstatus]))
      (PeerInfo.bannedAddrs_eq_none ?_) ?_ ?_ <;>
    simp [toDisconnected, PeerInfo.clearSubnets, hstatus, hnone, setStatus,
      incrementDisconnected, PeerInfo.setConnectionStatus, PeerInfo.isBanned]

theorem isBanned_toDisconnecting (s : Arm F) (toBan : Bool) :
    (s.toDisconnecting toBan).info.isBanned = false := by
  unfold toDisconnecting
  split <;> rfl

theorem toDisconnecting_bannedPeersCount (s : Arm F) (toBan : Bool) :
    (s.toDisconnecting toBan).bannedPeersCount = s.bannedPeersCount := by
  unfold toDisconnecting
  split <;> rfl

theorem toDisconnecting_cases {s : Arm F} (hnone : s.banOperation = none) (toBan : Bool) :
    BanCases s (.disconnecting toBan) (s.toDisconnecting toBan) := by
  have hr := PeerInfo.bannedAddrs_eq_none (isBanned_toDisconnecting s toBan)
  have hcount := toDisconnecting_bannedPeersCount s toBan
  cases hstatus : s.info.connectionStatus with
  | banned since =>
    exact .leak s.info.seenIpAddresses ⟨toBan, rfl⟩ (PeerInfo.bannedAddrs_of_banned hstatus) hr
      hcount
  | _ =>
    refine .quiet (PeerInfo.bannedAddrs_eq_none (by simp [PeerInfo.isBanned, hstatus])) hr
      hcount ?_
    simp [toDisconnecting, hstatus, setStatus, decrementDisconnected, hnone]

theorem toBanned_cases {s : Arm F} (now : Instant) :
    BanCases s .banned (s.toBanned now) := by
  cases hstatus : s.info.connectionStatus with
  | banned since =>
    have hr : s.toBanned now = s.readyToBan := by simp [toBanned, hstatus]
    rw [hr]
    refine .stay rfl rfl fun ips hop => ⟨?_, ?_⟩
    · rw [readyToBan, PeerInfo.bannedAddrs_of_banned hstatus]; rfl
    · rw [readyToBan_banOperation] at hop
      intro ip hip
      cases hop
      exact (List.mem_filter.1 hip).2
  | disconnected since =>
    have hr : s.toBanned now =
        ((s.setStatus (.banned now)).addBannedPeer.decrementDisconnected).readyToBan := by
      simp [toBanned, hstatus]
    rw [hr]
    exact .enter s.info.seenIpAddresses (.inr rfl)
      (PeerInfo.bannedAddrs_eq_none (by simp [PeerInfo.isBanned, hstatus]))
      (PeerInfo.bannedAddrs_of_banned rfl) rfl (readyToBan_banOperation _)
  | unknown =>
    have hr : s.toBanned now = ((s.addBannedPeer).setStatus (.banned now)).readyToBan := by
      simp [toBanned, hstatus]
    rw [hr]
    exact .enter s.info.seenIpAddresses (.inr rfl)
      (PeerInfo.bannedAddrs_eq_none (by simp [PeerInfo.isBanned, hstatus]))
      (PeerInfo.bannedAddrs_of_banned rfl) rfl (readyToBan_banOperation _)
  | _ =>
    refine .quiet (PeerInfo.bannedAddrs_eq_none (by simp [PeerInfo.isBanned, hstatus]))
      (PeerInfo.bannedAddrs_eq_none ?_) ?_ ?_ <;>
    simp [toBanned, hstatus, setStatus, PeerInfo.setConnectionStatus, PeerInfo.isBanned]

theorem toUnbanned_cases {s : Arm F} (hnone : s.banOperation = none) :
    BanCases s .unbanned s.toUnbanned := by
  cases hstatus : s.info.connectionStatus with
  | banned since =>
    refine .leave s.info.seenIpAddresses trivial (PeerInfo.bannedAddrs_of_banned hstatus)
      (PeerInfo.bannedAddrs_eq_none ?_) ?_ <;>
    simp [toUnbanned, hstatus, setStatus, removeBannedPeer, incrementDisconnected,
      PeerInfo.setConnectionStatus, PeerInfo.isBanned, PeerInfo.seenIpAddresses]
  | _ =>
    have hr : s.toUnbanned = s := by simp [toUnbanned, hstatus]
    rw [hr]
    exact .stay rfl rfl (by simp [hnone])

theorem isBanned_toUnbanned (s : Arm F) : s.toUnbanned.info.isBanned = false := by
  cases hstatus : s.info.connectionStatus <;>
    simp [toUnbanned, hstatus, setStatus, removeBannedPeer, incrementDisconnected,
      PeerInfo.setConnectionStatus, PeerInfo.isBanned]

theorem toUnbanned_seenAddresses (s : Arm F) :
    s.toUnbanned.info.seenAddresses = s.info.seenAddresses := by
  unfold toUnbanned
  split <;> rfl

/-- **The bookkeeping of bans in `update_connection_state`.** -/
theorem step_cases [ScoreArith F] {s : Arm F} (hnone : s.banOperation = none)
    (st : NewConnectionState) (now : Instant) : BanCases s st (s.step st now) := by
  have hlift : ∀ {r : Arm F}, BanCases (s.banScore st) st r → BanCases s st r := by
    intro r h
    cases h with
    | stay haddrs hcount hop =>
      exact .stay (haddrs.trans (banScore_bannedAddrs s st))
        (hcount.trans (banScore_bannedPeersCount s st)) hop
    | enter ips hst hs hr hcount hop =>
      refine .enter ips hst ?_ hr ?_ hop
      · rwa [banScore_bannedAddrs] at hs
      · rwa [banScore_bannedPeersCount] at hcount
    | leave ips hst hs hr hcount =>
      refine .leave ips hst ?_ hr ?_
      · rwa [banScore_bannedAddrs] at hs
      · rwa [banScore_bannedPeersCount] at hcount
    | leak ips hst hs hr hcount =>
      refine .leak ips hst ?_ hr ?_
      · rwa [banScore_bannedAddrs] at hs
      · rwa [banScore_bannedPeersCount] at hcount
  have hnone' : (s.banScore st).banOperation = none := by simpa using hnone
  cases st with
  | connected enr seenAddress direction =>
    exact hlift (toConnected_cases hnone' enr seenAddress direction)
  | disconnecting toBan => exact hlift (toDisconnecting_cases hnone' toBan)
  | dialing enr trusted => exact hlift (toDialing_cases hnone' enr trusted now)
  | disconnected => exact hlift (toDisconnected_cases hnone' now)
  | banned => exact hlift (toBanned_cases now)
  | unbanned => exact hlift (toUnbanned_cases hnone')

end Arm

end Consentry
