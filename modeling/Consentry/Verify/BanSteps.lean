import Consentry.Lib.Run
import Consentry.Verify.Eviction
import Consentry.Verify.Status

/-!
# Bans as a ledger

What the peer database and the swarm share about bans: which peers are banned, on which
addresses they count (`PeerDB.bannedAddrs`), the counters, and the notices sent to the
swarm (`BanNotice`). `BanStep` lists the ways this ledger moves. **`PeerDB.step_banSteps`**:
every operation of the database is a sequence of such moves, and only a peer that is
banned and told to disconnect makes one that leaves the counters behind (`leak`).
-/

namespace Consentry

open Lib

/-- What the swarm is told about the bans of peers. -/
inductive BanNotice
  | banned (peerId : PeerId) (ips : List IpAddr)
  | unBanned (peerId : PeerId) (ips : List IpAddr)
  deriving DecidableEq, Repr

def BanOperation.notices (peerId : PeerId) : Option BanOperation → List BanNotice
  | some (.readyToBan ips) => [.banned peerId ips]
  | some .disconnectThePeer | some .peerDisconnecting | none => []

def ScoreUpdateResult.notices (peerId : PeerId) : ScoreUpdateResult → List BanNotice
  | .ban op => BanOperation.notices peerId (some op)
  | .unbanned ips => [.unBanned peerId ips]
  | .disconnect | .noAction => []

variable {F : Type} {slips leaks : Prop} {db db' db'' : PeerDB F}

/-- A notice that tells the swarm nothing new. -/
def PeerDB.Redundant (db : PeerDB F) : BanNotice → Prop
  | .banned p ips => (db.bannedAddrs p).isSome ∧ ∀ ip ∈ ips, db.isIpBanned ip = true
  | .unBanned p ips => db.bannedAddrs p = none ∧ ∀ ip ∈ ips, db.isIpBanned ip = false

/-- A move of the ledger. A ban ends with a notice (`leave`), or silently when the peer
is taken back into use (`slip`, possible under `slips`), or silently and without being
taken off the counters (`leak`, possible under `leaks`). -/
inductive BanStep (slips leaks : Prop) (db : PeerDB F) (ns : List BanNotice) (db' : PeerDB F) :
    Prop
  | stay (haddrs : ∀ p, db'.bannedAddrs p = db.bannedAddrs p)
      (hcount : db'.bannedPeersCount = db.bannedPeersCount)
      (hns : ∀ n ∈ ns, db'.Redundant n)
  | enter (p : PeerId) (ips : List IpAddr) (hs : db.bannedAddrs p = none)
      (hr : ∀ q, db'.bannedAddrs q = if q = p then some ips else db.bannedAddrs q)
      (hcount : db'.bannedPeersCount = db.bannedPeersCount.addBannedPeer ips)
      (hns : ns = [.banned p (ips.filter db'.isIpBanned)])
  | leave (p : PeerId) (ips : List IpAddr) (hs : db.bannedAddrs p = some ips)
      (hr : ∀ q, db'.bannedAddrs q = if q = p then none else db.bannedAddrs q)
      (hcount : db'.bannedPeersCount = db.bannedPeersCount.removeBannedPeer ips)
      (hns : ns = [.unBanned p (ips.filter fun ip => !db'.isIpBanned ip)])
  | slip (h : slips) (p : PeerId) (ips : List IpAddr) (hs : db.bannedAddrs p = some ips)
      (hr : ∀ q, db'.bannedAddrs q = if q = p then none else db.bannedAddrs q)
      (hcount : db'.bannedPeersCount = db.bannedPeersCount.removeBannedPeer ips)
      (hns : ns = [])
  | leak (h : leaks) (p : PeerId) (ips : List IpAddr) (hs : db.bannedAddrs p = some ips)
      (hr : ∀ q, db'.bannedAddrs q = if q = p then none else db.bannedAddrs q)
      (hcount : db'.bannedPeersCount = db.bannedPeersCount) (hns : ns = [])
  | reset (hmax : maxBannedPeers < db.bannedPeersCount.bannedPeers.val)
      (hs : ∀ p, db.bannedAddrs p = none) (hr : ∀ p, db'.bannedAddrs p = none)
      (hcount : db'.bannedPeersCount = .empty) (hns : ns = [])

/-- A sequence of moves with all their notices. -/
inductive BanSteps (slips leaks : Prop) : PeerDB F → List BanNotice → PeerDB F → Prop
  | refl (db : PeerDB F) : BanSteps slips leaks db [] db
  | tail {db db' db'' : PeerDB F} {ns ms : List BanNotice} (h : BanSteps slips leaks db ns db')
      (k : BanStep slips leaks db' ms db'') : BanSteps slips leaks db (ns ++ ms) db''

namespace BanSteps

variable {ns ms : List BanNotice}

theorem single (h : BanStep slips leaks db ns db') : BanSteps slips leaks db ns db' :=
  List.nil_append ns ▸ .tail (.refl db) h

theorem trans (h : BanSteps slips leaks db ns db') (k : BanSteps slips leaks db' ms db'') :
    BanSteps slips leaks db (ns ++ ms) db'' := by
  induction k with
  | refl => rwa [List.append_nil]
  | tail _ k ih =>
    rw [← List.append_assoc]
    exact .tail ih k

/-- Changes that touch neither a ban nor a counter. -/
theorem of_same (haddrs : ∀ p, db'.bannedAddrs p = db.bannedAddrs p)
    (hcount : db'.bannedPeersCount = db.bannedPeersCount) : BanSteps slips leaks db [] db' :=
  single (.stay haddrs hcount (by simp))

/-- A loop whose rounds append results that carry their notices. -/
theorem loop {α ρ : Type*} {f : PeerDB F × List ρ → α → PeerDB F × List ρ}
    {notices : ρ → List BanNotice} (I : PeerDB F → Prop) {as : List α}
    (hf : ∀ db acc, ∀ a ∈ as, I db → ∃ rs, (f (db, acc) a).2 = acc ++ rs ∧
      BanSteps slips leaks db (rs.flatMap notices) (f (db, acc) a).1 ∧ I (f (db, acc) a).1)
    (hdb : I db) :
    BanSteps slips leaks db ((as.foldl f (db, [])).2.flatMap notices)
      (as.foldl f (db, [])).1 := by
  obtain ⟨rs, hrs, hsteps⟩ :=
    foldl_collect (R := BanSteps slips leaks) notices .refl (fun _ _ _ _ _ h k => h.trans k) I
      hf hdb []
  rw [hrs, List.nil_append]
  exact hsteps

end BanSteps

/-! ## Changes of the connection state -/

namespace PeerDB

theorem bannedAddrs_updateConnectionState [ScoreArith F] (db : PeerDB F) (p q : PeerId)
    (st : NewConnectionState) (now : Instant) :
    (db.updateConnectionState p st now).1.bannedAddrs q =
      if q = p then ((db.arm (db.entryOrInsert p st now)).step st now).info.bannedAddrs
      else db.bannedAddrs q := by
  unfold bannedAddrs
  rw [updateConnectionState_peerInfo]
  split <;> rfl

section

variable [ScoreArith F] (db : PeerDB F) (p : PeerId) (st : NewConnectionState) (now : Instant)

/-- What a change of the connection state does to the bans. -/
theorem updateConnectionState_banCases :
    Arm.BanCases (db.arm (db.entryOrInsert p st now)) st
      ((db.arm (db.entryOrInsert p st now)).step st now) :=
  Arm.step_cases rfl st now

variable {db p st now}

/-- The entry an arm works on stands for the peer. -/
theorem arm_bannedAddrs {o : Option (List IpAddr)}
    (h : (db.arm (db.entryOrInsert p st now)).info.bannedAddrs = o) : db.bannedAddrs p = o :=
  (bannedAddrs_entryOrInsert db p st now).symm.trans h

/-- An arm that leaves the ban of its peer leaves all bans. -/
theorem bannedAddrs_of_stay
    (h : ((db.arm (db.entryOrInsert p st now)).step st now).info.bannedAddrs =
      (db.arm (db.entryOrInsert p st now)).info.bannedAddrs) (q : PeerId) :
    (db.updateConnectionState p st now).1.bannedAddrs q = db.bannedAddrs q := by
  rw [bannedAddrs_updateConnectionState, h, arm, bannedAddrs_entryOrInsert]
  split
  · next hq => rw [hq]
  · rfl

/-- An arm that changes the ban of its peer. -/
theorem bannedAddrs_of_change {o : Option (List IpAddr)}
    (h : ((db.arm (db.entryOrInsert p st now)).step st now).info.bannedAddrs = o) (q : PeerId) :
    (db.updateConnectionState p st now).1.bannedAddrs q =
      if q = p then o else db.bannedAddrs q := by
  rw [bannedAddrs_updateConnectionState, h]

/-- A ban, or the end of a connection. -/
theorem updateConnectionState_banStep (hst : st = .disconnected ∨ st = .banned) :
    BanStep slips leaks db (BanOperation.notices p (db.updateConnectionState p st now).2)
      (db.updateConnectionState p st now).1 := by
  cases updateConnectionState_banCases db p st now with
  | stay hr hcount hop =>
    have haddrs := bannedAddrs_of_stay hr
    refine .stay haddrs hcount fun n hn => ?_
    cases hb : (db.updateConnectionState p st now).2 with
    | none => simp [hb, BanOperation.notices] at hn
    | some op =>
      cases op with
      | readyToBan ips =>
        obtain ⟨hsome, hips⟩ := hop ips hb
        simp only [hb, BanOperation.notices, List.mem_singleton] at hn
        subst hn
        refine ⟨?_, hips⟩
        rw [haddrs, arm_bannedAddrs hr.symm]
        exact hsome
      | _ => simp [hb, BanOperation.notices] at hn
  | enter ips _ hs hr hcount hop =>
    refine .enter p ips (arm_bannedAddrs hs) (bannedAddrs_of_change hr) hcount ?_
    change BanOperation.notices p
      ((db.arm (db.entryOrInsert p st now)).step st now).banOperation = _
    rw [hop]
    rfl
  | leave ips hread _ _ _ => rcases hst with rfl | rfl <;> exact hread.elim
  | leak ips hleak _ _ _ =>
    obtain ⟨toBan, rfl⟩ := hleak
    rcases hst with hst | hst <;> cases hst

/-- A new connection or a dial: it ends a ban silently. -/
theorem readmit_banStep (hst : Arm.Readmits st) (hslip : db.isBanned p = true → slips) :
    BanStep slips leaks db [] (db.updateConnectionState p st now).1 := by
  cases updateConnectionState_banCases db p st now with
  | stay hr hcount _ => exact .stay (bannedAddrs_of_stay hr) hcount (by simp)
  | enter ips hst' _ _ _ _ => rcases hst' with rfl | rfl <;> exact hst.elim
  | leave ips _ hs hr hcount =>
    have hp := arm_bannedAddrs hs
    have hbanned : db.isBanned p = true := by
      rw [← bannedAddrs_isSome, hp]
      rfl
    exact .slip (hslip hbanned) p ips hp (bannedAddrs_of_change hr) hcount rfl
  | leak ips hleak _ _ _ =>
    obtain ⟨toBan, rfl⟩ := hleak
    exact hst.elim

/-- A request to disconnect: it ends a ban silently and leaves it counted. -/
theorem disconnecting_banStep {toBan : Bool} (hleak : db.isBanned p = true → leaks) :
    BanStep slips leaks db [] (db.updateConnectionState p (.disconnecting toBan) now).1 := by
  cases updateConnectionState_banCases db p (.disconnecting toBan) now with
  | stay hr hcount _ => exact .stay (bannedAddrs_of_stay hr) hcount (by simp)
  | enter ips hst' _ _ _ _ => rcases hst' with hst' | hst' <;> cases hst'
  | leave ips hread _ _ _ => exact hread.elim
  | leak ips _ hs hr hcount =>
    have hp := arm_bannedAddrs hs
    have hbanned : db.isBanned p = true := by
      rw [← bannedAddrs_isSome, hp]
      rfl
    exact .leak (hleak hbanned) p ips hp (bannedAddrs_of_change hr) hcount rfl

/-- A peer that is told to disconnect is not banned. -/
theorem bannedAddrs_notifyDisconnecting (db : PeerDB F) (p : PeerId) (toBan : Bool)
    (now : Instant) : ∀ q, (db.notifyDisconnecting p toBan now).bannedAddrs q =
      if q = p then none else db.bannedAddrs q :=
  bannedAddrs_of_change (PeerInfo.bannedAddrs_eq_none (Arm.isBanned_toDisconnecting _ toBan))

/-- The end of a ban by `unban_peer`: the swarm gets the addresses that are free again. -/
theorem unbanPeer_banStep :
    BanStep slips leaks db ((db.unbanPeer p now).2.notices p) (db.unbanPeer p now).1 := by
  have hr : ((db.arm (db.entryOrInsert p .unbanned now)).step .unbanned now).info.bannedAddrs =
      none := PeerInfo.bannedAddrs_eq_none (Arm.isBanned_toUnbanned _)
  have hips : (db.updateConnectionState p .unbanned now).1.unbannedIps p =
      (db.entryOrInsert p .unbanned now).seenIpAddresses.filter fun ip =>
        !(db.unbanPeer p now).1.isIpBanned ip := by
    have hseen : ((db.arm (db.entryOrInsert p .unbanned now)).step .unbanned
        now).info.seenIpAddresses = (db.entryOrInsert p .unbanned now).seenIpAddresses := by
      unfold PeerInfo.seenIpAddresses
      exact congrArg (fun l : DistinctList SocketAddr => l.toList.map (·.ip))
        (Arm.toUnbanned_seenAddresses _)
    unfold unbannedIps
    rw [updateConnectionState_peerInfo, if_pos rfl, Option.elim_some, hseen]
    rfl
  have hnotices : (db.unbanPeer p now).2.notices p =
      [.unBanned p ((db.updateConnectionState p .unbanned now).1.unbannedIps p)] := rfl
  rw [hnotices, hips]
  cases updateConnectionState_banCases db p .unbanned now with
  | stay hs hcount _ =>
    refine .stay (bannedAddrs_of_stay hs) hcount fun n hn => ?_
    rw [List.mem_singleton] at hn
    subst hn
    refine ⟨?_, fun ip hip => by simpa using (List.mem_filter.1 hip).2⟩
    exact (bannedAddrs_of_change hr p).trans (if_pos rfl)
  | enter ips hst' _ _ _ _ => rcases hst' with hst' | hst' <;> cases hst'
  | leave ips _ hs _ hcount =>
    refine .leave p ips (arm_bannedAddrs hs) (bannedAddrs_of_change hr) hcount ?_
    rw [show (db.entryOrInsert p .unbanned now).seenIpAddresses = ips from
      PeerInfo.seenIpAddresses_of_bannedAddrs hs]
  | leak ips hleak _ _ _ =>
    obtain ⟨toBan, hleak⟩ := hleak
    cases hleak

end

/-! ## Changes of scores and of other data -/

theorem Rescored.bannedAddrs [ScoreArith F] (h : db.Rescored db') (p : PeerId) :
    db'.bannedAddrs p = db.bannedAddrs p := by
  have hview : ∀ d : PeerDB F, d.bannedAddrs p =
      ((d.peerInfo p).map PeerInfo.unscored).bind PeerInfo.bannedAddrs := by
    intro d
    unfold PeerDB.bannedAddrs
    cases d.peerInfo p with
    | none => rfl
    | some info => exact PeerInfo.bannedAddrs_congr rfl rfl
  rw [hview, hview, h.entries]

theorem Rescored.banSteps [ScoreArith F] (h : db.Rescored db') :
    BanSteps slips leaks db [] db' :=
  .of_same h.bannedAddrs h.bannedPeersCount

theorem modifyPeer_banSteps {f : PeerInfo F → PeerInfo F}
    (hstatus : ∀ info, (f info).connectionStatus = info.connectionStatus)
    (hseen : ∀ info, (f info).seenAddresses = info.seenAddresses) (db : PeerDB F) (p : PeerId) :
    BanSteps slips leaks db [] (db.modifyPeer p f) := by
  refine .of_same (fun q => ?_) ?_
  · unfold PeerDB.bannedAddrs
    rw [modifyPeer_peerInfo]
    split
    · next hq =>
      subst hq
      cases db.peerInfo q with
      | none => rfl
      | some info => exact PeerInfo.bannedAddrs_congr (hstatus info) (hseen info)
    · rfl
  · unfold modifyPeer
    split <;> rfl

theorem updateMinTtl_banSteps [ScoreArith F] (db : PeerDB F) (p : PeerId)
    (minTtl now : Instant) : BanSteps slips leaks db [] (db.updateMinTtl p minTtl now) := by
  refine .of_same (fun q => ?_) rfl
  unfold updateMinTtl PeerDB.bannedAddrs
  rw [peerInfo_insert]
  split
  · next hq =>
    subst hq
    cases db.peerInfo q with
    | none => split <;> rfl
    | some info => split <;> rfl
  · rfl

theorem extendPeersOnSubnet_banSteps (db : PeerDB F) (subnet : Subnet) (minTtl : Instant) :
    BanSteps slips leaks db [] (db.extendPeersOnSubnet subnet minTtl) := by
  refine .of_same (fun q => ?_) rfl
  unfold extendPeersOnSubnet PeerDB.bannedAddrs peerInfo
  rw [Map.lookup_mapVal]
  cases db.peers.lookup q with
  | none => rfl
  | some info =>
    simp only [Option.map_some, Option.bind_some]
    split <;> rfl

/-! ## Reports and decay -/

section

variable [ScoreArith F]

omit [ScoreArith F] in
theorem isConnectedOrDialing_not_banned {info : PeerInfo F}
    (h : info.isConnectedOrDialing = true) : info.isBanned = false := by
  unfold PeerInfo.isConnectedOrDialing PeerInfo.isConnected PeerInfo.isDialing at h
  unfold PeerInfo.isBanned
  cases hs : info.connectionStatus <;> simp [hs] at h ⊢

/-- A peer is asked to disconnect for its score only while it is connected or dialing. -/
theorem handleScoreTransition_disconnected {previous : ScoreState} {info : PeerInfo F}
    (h : handleScoreTransition previous info = .disconnected) :
    info.isConnectedOrDialing = true := by
  unfold handleScoreTransition at h
  by_contra hc
  split at h <;> simp [hc] at h

theorem ofBanOperation_notices (p : PeerId) (op : Option BanOperation) :
    (ScoreUpdateResult.ofBanOperation op).notices p = BanOperation.notices p op := by
  cases op <;> rfl

theorem reportPeer_banSteps (db : PeerDB F) (p : PeerId) (action : PeerAction) (now : Instant) :
    BanSteps slips leaks db ((db.reportPeer p action now).2.notices p)
      (db.reportPeer p action now).1 := by
  unfold reportPeer
  cases hp : db.peerInfo p with
  | none => exact .refl db
  | some info =>
    have hscore : db.Rescored
        { db with peers := db.peers.insert p (info.applyPeerActionToScore action) } :=
      .insert hp (info.unscored_applyPeerActionToScore action)
    simp only
    cases ht : handleScoreTransition info.scoreState (info.applyPeerActionToScore action) with
    | banned =>
      simp only [ofBanOperation_notices]
      exact hscore.banSteps.trans (.single (updateConnectionState_banStep (.inr rfl)))
    | disconnected =>
      refine hscore.banSteps.trans (.single (disconnecting_banStep fun hbanned => ?_))
      have hnot := isConnectedOrDialing_not_banned (handleScoreTransition_disconnected ht)
      unfold isBanned at hbanned
      rw [peerInfo_insert, if_pos rfl, Option.elim_some, hnot] at hbanned
      cases hbanned
    | noAction => exact hscore.banSteps
    | unbanned => exact hscore.banSteps

theorem updateScores_banSteps (db : PeerDB F) (clock : Clock)
    (order : Shuffle (Map.Entry PeerId (PeerInfo F))) :
    BanSteps slips leaks db ((db.updateScores clock order).2.flatMap fun r => r.2.notices r.1)
      (db.updateScores clock order).1 := by
  unfold updateScores
  have hscore := Rescored.mapVal
    (fun p (info : PeerInfo F) => info.unscored_scoreUpdate (clock p)) db
  refine hscore.banSteps.trans (BanSteps.loop (fun _ => True) ?_ trivial)
  intro db acc p _ _
  exact ⟨_, rfl, by simpa using .single unbanPeer_banStep, trivial⟩

/-! ## Gossipsub scores and stale dials -/

/-- A change of the connection state of one peer keeps a condition on the statuses of
several peers when it establishes it for that peer. -/
theorem forall_status_updateConnectionState {P : PeerConnectionStatus → Prop}
    {ps : List PeerId} {p : PeerId} {st : NewConnectionState} {now : Instant} {db : PeerDB F}
    (h : ∀ q ∈ ps, ∃ status, db.connectionStatus q = some status ∧ P status)
    (hp : P ((db.arm (db.entryOrInsert p st now)).step st now).info.connectionStatus) :
    ∀ q ∈ ps, ∃ status,
      (db.updateConnectionState p st now).1.connectionStatus q = some status ∧ P status := by
  intro q hq
  unfold connectionStatus
  rw [updateConnectionState_peerInfo]
  split
  · exact ⟨_, rfl, hp⟩
  · exact h q hq

theorem entryOrInsert_status {db : PeerDB F} {p : PeerId} {status : PeerConnectionStatus}
    (h : db.connectionStatus p = some status) (st : NewConnectionState) (now : Instant) :
    (db.entryOrInsert p st now).connectionStatus = status := by
  obtain ⟨info, hinfo, hs⟩ := Option.map_eq_some_iff.1 h
  rw [entryOrInsert_of_some hinfo, hs]

/-- A peer whose connection is up, or is being closed. -/
def IsOpen : PeerConnectionStatus → Prop
  | .connected _ _ | .disconnecting _ => True
  | .disconnected _ | .banned _ | .dialing _ | .unknown => False

/-- The actions of `update_gossipsub_scores` leave a peer open. -/
theorem isOpen_step {s : Arm F} {st : NewConnectionState} (now : Instant)
    (hs : IsOpen s.info.connectionStatus)
    (hst : st = .banned ∨ st = .disconnecting false ∨ st = .unbanned) :
    IsOpen (s.step st now).info.connectionStatus := by
  rw [Arm.step_status]
  generalize s.info.connectionStatus = status at hs
  cases status with
  | connected nIn nOut => rcases hst with rfl | rfl | rfl <;> trivial
  | disconnecting toBan => rcases hst with rfl | rfl | rfl <;> trivial
  | _ => exact hs.elim

theorem gossipsubAction_banSteps {db : PeerDB F} {p : PeerId} {status : PeerConnectionStatus}
    (hp : db.connectionStatus p = some status) (hopen : IsOpen status)
    (action : ScoreTransitionResult) (now : Instant) :
    BanSteps slips leaks db ((db.gossipsubAction p action now).2.notices p)
      (db.gossipsubAction p action now).1 := by
  unfold gossipsubAction
  cases action with
  | banned =>
    simp only [ofBanOperation_notices]
    exact .single (updateConnectionState_banStep (.inr rfl))
  | disconnected =>
    refine .single (disconnecting_banStep fun hbanned => ?_)
    obtain ⟨since, hbanned⟩ := isBanned_iff.1 hbanned
    rw [hp] at hbanned
    cases hbanned
    exact hopen.elim
  | noAction => exact .refl db
  | unbanned => exact .single unbanPeer_banStep

theorem gossipsubAction_isOpen {ps : List PeerId} {db : PeerDB F}
    (h : ∀ q ∈ ps, ∃ status, db.connectionStatus q = some status ∧ IsOpen status)
    {p : PeerId} (hp : p ∈ ps) (action : ScoreTransitionResult) (now : Instant) :
    ∀ q ∈ ps, ∃ status,
      (db.gossipsubAction p action now).1.connectionStatus q = some status ∧ IsOpen status := by
  obtain ⟨status, hstatus, hopen⟩ := h p hp
  have hentry : ∀ st, IsOpen (db.arm (db.entryOrInsert p st now)).info.connectionStatus := by
    intro st
    rw [arm, entryOrInsert_status hstatus]
    exact hopen
  unfold gossipsubAction
  cases action with
  | banned => exact forall_status_updateConnectionState h (isOpen_step now (hentry _) (.inl rfl))
  | disconnected =>
    exact forall_status_updateConnectionState h (isOpen_step now (hentry _) (.inr (.inl rfl)))
  | noAction => exact h
  | unbanned =>
    exact forall_status_updateConnectionState h (isOpen_step now (hentry _) (.inr (.inr rfl)))

/-- The peers for which the first loop of `update_gossipsub_scores` collects an action are
connected after it. -/
theorem setGossipsubScores_isOpen (db : PeerDB F) (peerScore : PeerId → Option F)
    (clock : Clock) (order : Shuffle (Map.Entry PeerId (PeerInfo F))) (toIgnore : ℕ) :
    ∀ q ∈ (setGossipsubScores clock (db.gossipsubPeers peerScore order) toIgnore db).2.map (·.1),
      ∃ status, (setGossipsubScores clock (db.gossipsubPeers peerScore order) toIgnore
        db).1.connectionStatus q = some status ∧ IsOpen status := by
  obtain ⟨hscore, hactions⟩ := setGossipsubScores_rescored db peerScore clock order toIgnore
  intro q hq
  obtain ⟨a, ha, rfl⟩ := List.mem_map.1 hq
  obtain ⟨e, he, hea⟩ := hactions a ha
  obtain ⟨hentry, hconn, -⟩ := mem_gossipsubPeers.1 he
  obtain ⟨info, hinfo, hsame⟩ := hscore.exists_of_some hentry
  refine ⟨info.connectionStatus, ?_, ?_⟩
  · rw [connectionStatus, ← hea, hinfo]
    rfl
  · rw [PeerInfo.connectionStatus_of_unscored hsame]
    unfold PeerInfo.isConnected at hconn
    cases hc : e.1.2.connectionStatus <;> simp [hc] at hconn ⊢
    trivial

theorem updateGossipsubScores_banSteps (db : PeerDB F) (target : ℕ)
    (peerScore : PeerId → Option F) (clock : Clock)
    (order : Shuffle (Map.Entry PeerId (PeerInfo F))) :
    BanSteps slips leaks db
      ((db.updateGossipsubScores target peerScore clock order).2.flatMap fun r =>
        r.2.notices r.1)
      (db.updateGossipsubScores target peerScore clock order).1 := by
  unfold updateGossipsubScores
  generalize ((F32.ofNat target).mul allowedNegativeGossipsubFactor).ceil = toIgnore
  obtain ⟨hscore, -⟩ := setGossipsubScores_rescored db peerScore clock order toIgnore
  have hstart := setGossipsubScores_isOpen db peerScore clock order toIgnore
  simp only
  generalize setGossipsubScores clock (db.gossipsubPeers peerScore order) toIgnore db = r
    at hscore hstart
  refine hscore.banSteps.trans (BanSteps.loop (fun db => ∀ q ∈ r.2.map (·.1), ∃ status,
    db.connectionStatus q = some status ∧ IsOpen status) (fun db acc a ha hopen => ?_) hstart)
  have hmem : a.1 ∈ r.2.map (·.1) := List.mem_map_of_mem ha
  obtain ⟨status, hstatus, hstatusOpen⟩ := hopen a.1 hmem
  have hsteps : BanSteps slips leaks db
      ((db.gossipsubAction a.1 a.2 (clock a.1)).2.notices a.1)
      (db.gossipsubAction a.1 a.2 (clock a.1)).1 :=
    gossipsubAction_banSteps hstatus hstatusOpen a.2 (clock a.1)
  have hnext := gossipsubAction_isOpen hopen hmem a.2 (clock a.1)
  by_cases hno : (db.gossipsubAction a.1 a.2 (clock a.1)).2 = .noAction
  · refine ⟨[], ?_, ?_, hnext⟩
    · simp [hno]
    · rw [hno] at hsteps
      exact hsteps
  · refine ⟨[(a.1, (db.gossipsubAction a.1 a.2 (clock a.1)).2)], ?_, ?_, hnext⟩
    · simp [hno]
    · simpa using hsteps

/-- A dial that has timed out, or has been reverted already. -/
def IsStale : PeerConnectionStatus → Prop
  | .dialing _ | .disconnected _ => True
  | .connected _ _ | .disconnecting _ | .banned _ | .unknown => False

omit [ScoreArith F] in
theorem not_banned_of_isStale {info : PeerInfo F} (h : IsStale info.connectionStatus) :
    info.isBanned = false := by
  unfold PeerInfo.isBanned
  cases hs : info.connectionStatus <;> simp [hs, IsStale] at h ⊢

/-- Reverting a stale dial leaves it stale. -/
theorem isStale_step {s : Arm F} (now : Instant) (hs : IsStale s.info.connectionStatus) :
    IsStale (s.step .disconnected now).info.connectionStatus := by
  rw [Arm.step_status]
  generalize s.info.connectionStatus = status at hs
  cases status with
  | dialing since => trivial
  | disconnected since => trivial
  | _ => exact hs.elim

/-- **The loop of `cleanup_dialing_peers`** reverts stale dials only. -/
theorem cleanupDialingPeers_rel {R : PeerDB F → PeerDB F → Prop} (hrefl : ∀ db, R db db)
    (htrans : ∀ db db' db'', R db db' → R db' db'' → R db db'')
    (hround : ∀ db p now status, db.connectionStatus p = some status → IsStale status →
      R db (db.updateConnectionState p .disconnected now).1)
    (db : PeerDB F) (clock : Clock) (order : Shuffle (Map.Entry PeerId (PeerInfo F))) :
    R db (db.cleanupDialingPeers clock order) := by
  unfold cleanupDialingPeers
  generalize hps : (order.run db.peers.entries).filterMap _ = ps
  have hstale : ∀ q ∈ ps, ∃ status, db.connectionStatus q = some status ∧ IsStale status := by
    intro q hq
    subst hps
    rw [List.mem_filterMap] at hq
    obtain ⟨e, he, hdial⟩ := hq
    rw [Shuffle.mem_run] at he
    have hentry := Map.mem_entries_iff.1 he
    split at hdial
    · next since hs =>
      split at hdial
      · cases hdial
        exact ⟨.dialing since, by rw [connectionStatus, peerInfo, hentry, ← hs]; rfl, trivial⟩
      · cases hdial
    · cases hdial
  clear hps
  induction ps generalizing db with
  | nil => exact hrefl db
  | cons p ps ih =>
    obtain ⟨status, hstatus, hs⟩ := hstale p List.mem_cons_self
    refine htrans _ _ _ (hround db p (clock p) status hstatus hs) (ih _ fun q hq => ?_)
    have hentry := entryOrInsert_status hstatus .disconnected (clock p)
    refine forall_status_updateConnectionState hstale ?_ q (List.mem_cons_of_mem p hq)
    exact isStale_step (clock p) (by rw [arm, hentry]; exact hs)

theorem cleanupDialingPeers_banSteps (db : PeerDB F) (clock : Clock)
    (order : Shuffle (Map.Entry PeerId (PeerInfo F))) :
    BanSteps slips leaks db [] (db.cleanupDialingPeers clock order) := by
  refine cleanupDialingPeers_rel (R := fun db db' => BanSteps slips leaks db [] db') .refl
    (fun _ _ _ h k => h.trans k) ?_ db clock order
  intro db p now status hstatus hs
  have hstep : IsStale ((db.arm (db.entryOrInsert p .disconnected now)).step
      .disconnected now).info.connectionStatus :=
    isStale_step now (by rw [arm, entryOrInsert_status hstatus]; exact hs)
  have hr := PeerInfo.bannedAddrs_eq_none (not_banned_of_isStale hstep)
  cases updateConnectionState_banCases db p .disconnected now with
  | stay haddrs hcount _ => exact .of_same (bannedAddrs_of_stay haddrs) hcount
  | enter ips _ _ haddrs _ _ =>
    rw [hr] at haddrs
    cases haddrs
  | leave ips hread _ _ _ => exact hread.elim
  | leak ips hleak _ _ _ =>
    obtain ⟨toBan, hleak⟩ := hleak
    cases hleak

/-! ## Eviction -/

omit [ScoreArith F] in
theorem bannedAddrs_erase {db db' : PeerDB F} {p : PeerId}
    (h : db'.peers = db.peers.erase p) (q : PeerId) :
    db'.bannedAddrs q = if q = p then none else db.bannedAddrs q := by
  unfold PeerDB.bannedAddrs peerInfo
  rw [h, Map.lookup_erase_eq]
  split <;> rfl

omit [ScoreArith F] in
theorem bannedAddrs_of_bannedSince_nil {db : PeerDB F}
    {order : Shuffle (Map.Entry PeerId (PeerInfo F))} (h : db.bannedSince order = [])
    (p : PeerId) : db.bannedAddrs p = none := by
  rw [← isBanned_eq_false_iff, ← Bool.not_eq_true]
  intro hb
  obtain ⟨since, hs⟩ := isBanned_iff.1 hb
  obtain ⟨info, hinfo, hs⟩ := Option.map_eq_some_iff.1 hs
  have hmem : ((⟨p, info⟩ : Map.Entry PeerId (PeerInfo F)), since) ∈ db.bannedSince order :=
    mem_bannedSince.2 ⟨hinfo, hs⟩
  rw [h] at hmem
  cases hmem

/-- The notices of evicted peers. -/
def purgeNotices (purged : List (PeerId × List IpAddr)) : List BanNotice :=
  purged.map fun r => .unBanned r.1 r.2

omit [ScoreArith F] in
theorem shrinkBanned_banSteps (order : Shuffle (Map.Entry PeerId (PeerInfo F))) (rounds : ℕ)
    (db : PeerDB F) (acc : List (PeerId × List IpAddr)) :
    ∃ rs, (shrinkBanned order rounds db acc).2 = acc ++ rs ∧
      BanSteps slips leaks db (purgeNotices rs) (shrinkBanned order rounds db acc).1 := by
  induction rounds generalizing db acc with
  | zero => exact ⟨[], (List.append_nil acc).symm, .refl db⟩
  | succ rounds ih =>
    rw [shrinkBanned]
    split
    · next hmax =>
      split
      · next e since harg =>
        have hmem : (e, since) ∈ db.bannedSince order := List.argmin_mem harg
        obtain ⟨hentry, hs⟩ := mem_bannedSince.1 hmem
        have haddrs : db.bannedAddrs e.1 = some e.2.seenIpAddresses := by
          rw [PeerDB.bannedAddrs, hentry, Option.bind_some, PeerInfo.bannedAddrs_of_banned hs]
        simp only
        generalize hips : e.2.seenIpAddresses.filter _ = ips
        have hleave : BanSteps slips leaks db [.unBanned e.1 ips]
            ⟨db.peers.erase e.1, db.disconnectedPeers,
              db.bannedPeersCount.removeBannedPeer e.2.seenIpAddresses⟩ := by
          refine .single (.leave e.1 _ haddrs (bannedAddrs_erase rfl) rfl ?_)
          rw [← hips]
          rfl
        obtain ⟨rs, hrs, hrest⟩ := ih _ (acc ++ [(e.1, ips)])
        refine ⟨(e.1, ips) :: rs, ?_, hleave.trans hrest⟩
        rw [hrs, List.append_assoc]
        rfl
      · next harg =>
        have hnone := bannedAddrs_of_bannedSince_nil (List.argmin_eq_none.1 harg)
        have hreset : BanSteps slips leaks db [] { db with bannedPeersCount := .empty } :=
          .single (.reset hmax hnone hnone rfl rfl)
        obtain ⟨rs, hrs, hrest⟩ := ih { db with bannedPeersCount := .empty } acc
        exact ⟨rs, hrs, hreset.trans hrest⟩
    · exact ⟨[], (List.append_nil acc).symm, .refl db⟩

omit [ScoreArith F] in
theorem shrinkDisconnected_banSteps (order : Shuffle (Map.Entry PeerId (PeerInfo F)))
    (rounds : ℕ) (db : PeerDB F) :
    BanSteps slips leaks db [] (shrinkDisconnected order rounds db) := by
  induction rounds generalizing db with
  | zero => exact .refl db
  | succ rounds ih =>
    rw [shrinkDisconnected]
    split
    · refine (BanSteps.of_same ?_ ?_).trans (ih _)
      · intro q
        split
        · next p since harg =>
          have hmem : (p, since) ∈ db.disconnectedSince order := List.argmin_mem harg
          have hstatus := mem_disconnectedSince.1 hmem
          change PeerDB.bannedAddrs { db with peers := db.peers.erase p } q = _
          rw [bannedAddrs_erase rfl]
          split
          · next hq =>
            symm
            rw [← isBanned_eq_false_iff, ← Bool.not_eq_true, isBanned_iff, hq, hstatus]
            rintro ⟨since', h⟩
            cases h
          · rfl
        · rfl
      · split <;> rfl
    · exact .refl db

omit [ScoreArith F] in
theorem shrinkToFit_banSteps (db : PeerDB F) (order : Shuffle (Map.Entry PeerId (PeerInfo F))) :
    BanSteps slips leaks db (purgeNotices (db.shrinkToFit order).2) (db.shrinkToFit order).1 := by
  unfold shrinkToFit
  generalize db.bannedPeersCount.bannedPeers.val - maxBannedPeers = rounds
  obtain ⟨rs, hrs, hsteps⟩ : ∃ rs, (shrinkBanned order rounds db []).2 = [] ++ rs ∧
      BanSteps slips leaks db (purgeNotices rs) (shrinkBanned order rounds db []).1 :=
    shrinkBanned_banSteps order rounds db []
  have hrest : BanSteps slips leaks (shrinkBanned order rounds db []).1 []
      (shrinkDisconnected order
        ((shrinkBanned order rounds db []).1.disconnectedPeers.val - maxDcPeers)
        (shrinkBanned order rounds db []).1) := shrinkDisconnected_banSteps order _ _
  have hboth := hsteps.trans hrest
  rw [List.append_nil] at hboth
  simp only
  rw [hrs, List.nil_append]
  exact hboth

/-- The notices of the end of a connection: a ban that was due, and the evicted peers. -/
theorem injectDisconnect_banSteps (db : PeerDB F) (p : PeerId) (now : Instant)
    (order : Shuffle (Map.Entry PeerId (PeerInfo F))) :
    BanSteps slips leaks db
      (BanOperation.notices p (db.injectDisconnect p now order).2.1 ++
        purgeNotices (db.injectDisconnect p now order).2.2)
      (db.injectDisconnect p now order).1 := by
  have hclose : BanSteps slips leaks db
      (BanOperation.notices p (db.updateConnectionState p .disconnected now).2)
      (db.updateConnectionState p .disconnected now).1 :=
    .single (updateConnectionState_banStep (.inl rfl))
  unfold injectDisconnect
  simp only
  exact hclose.trans (shrinkToFit_banSteps _ order)

/-- The notices of an operation. -/
def notices (db : PeerDB F) : DbOp F → List BanNotice
  | .injectDisconnect p now order =>
    BanOperation.notices p (db.injectDisconnect p now order).2.1 ++
      purgeNotices (db.injectDisconnect p now order).2.2
  | .reportPeer p action now => (db.reportPeer p action now).2.notices p
  | .updateScores clock order =>
    (db.updateScores clock order).2.flatMap fun r => r.2.notices r.1
  | .updateGossipsubScores target peerScore clock order =>
    (db.updateGossipsubScores target peerScore clock order).2.flatMap fun r => r.2.notices r.1
  | .shrinkToFit order => purgeNotices (db.shrinkToFit order).2
  | _ => []

/-- The operation takes a banned peer back into use. -/
def readmits (db : PeerDB F) : DbOp F → Bool
  | .connectIngoing p _ _ _ | .connectOutgoing p _ _ _ | .dialingPeer p _ _ _ => db.isBanned p
  | _ => false

/-- The operation asks a banned peer to disconnect. -/
def disconnectsBanned (db : PeerDB F) : DbOp F → Bool
  | .notifyDisconnecting p _ _ => db.isBanned p
  | _ => false

/-- **Every operation of the database moves the ledger of bans.** -/
theorem step_banSteps (db : PeerDB F) (op : DbOp F) (hslip : db.readmits op = true → slips)
    (hleak : db.disconnectsBanned op = true → leaks) :
    BanSteps slips leaks db (db.notices op) (db.step op) := by
  cases op with
  | connectIngoing p address enr now => exact .single (readmit_banStep trivial hslip)
  | connectOutgoing p address enr now => exact .single (readmit_banStep trivial hslip)
  | dialingPeer p enr trusted now => exact .single (readmit_banStep trivial hslip)
  | notifyDisconnecting p toBan now => exact .single (disconnecting_banStep hleak)
  | injectDisconnect p now order => exact injectDisconnect_banSteps db p now order
  | reportPeer p action now => exact reportPeer_banSteps db p action now
  | updateScores clock order => exact updateScores_banSteps db clock order
  | updateGossipsubScores target peerScore clock order =>
    exact updateGossipsubScores_banSteps db target peerScore clock order
  | cleanupDialingPeers clock order => exact cleanupDialingPeers_banSteps db clock order
  | shrinkToFit order => exact shrinkToFit_banSteps db order
  | updateMinTtl p minTtl now => exact updateMinTtl_banSteps db p minTtl now
  | addSubscription p subnet => refine modifyPeer_banSteps ?_ ?_ db p <;> exact fun _ => rfl
  | removeSubscription p subnet => refine modifyPeer_banSteps ?_ ?_ db p <;> exact fun _ => rfl
  | extendPeersOnSubnet subnet minTtl => exact extendPeersOnSubnet_banSteps db subnet minTtl
  | updateSyncStatus p status =>
    rw [PeerDB.step, updateSyncStatus_eq]
    refine modifyPeer_banSteps ?_ ?_ db p <;> exact fun _ => rfl
  | setMetaData p metaData => refine modifyPeer_banSteps ?_ ?_ db p <;> exact fun _ => rfl
  | setUntrusted p => refine modifyPeer_banSteps ?_ ?_ db p <;> exact fun _ => rfl

end

end PeerDB

end Consentry
