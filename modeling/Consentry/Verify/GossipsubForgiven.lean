import Consentry.Verify.DisconnectRequests

/-!
# Which negative gossipsub scores are forgiven (`update_gossipsub_scores`)

The first loop goes through the rated peers from the best score on, so it forgives the first
negative ones (`forgivenPeers`), and it writes each listed entry once
(`setGossipsubScores_spec`). The second loop finds every listed peer connected, so a transition
moves its status and nothing else (`gossipsubAction_connected`, `gossipsubRounds_spec`).
`updateGossipsubScores_spec` puts the two together.

**`updateGossipsubScores_forgives`**: exactly the allowed number of negative scores is forgiven,
the best ones; every rated peer gets its score, with the flag accordingly, unless its record
refuses the update, and each result is the transition the peer's own update caused.
-/

namespace Consentry

open Lib

variable {F : Type} [ScoreArith F]

/-- The status of a connected peer after a score transition. -/
def ScoreTransitionResult.status (status : PeerConnectionStatus) :
    ScoreTransitionResult → PeerConnectionStatus
  | .banned => .disconnecting true
  | .disconnected => .disconnecting false
  | .unbanned | .noAction => status

/-- What is reported of a score transition of a connected peer. -/
def ScoreTransitionResult.result (unbannedIps : List IpAddr) :
    ScoreTransitionResult → ScoreUpdateResult
  | .banned => .ban .disconnectThePeer
  | .disconnected => .disconnect
  | .unbanned => .unbanned unbannedIps
  | .noAction => .noAction

/-- The transition that a gossipsub score causes. -/
def PeerInfo.gossipsubTransition (info : PeerInfo F) (newScore : F) (ignore : Bool)
    (now : Instant) : ScoreTransitionResult :=
  PeerDB.handleScoreTransition info.scoreState (info.updateGossipsubScore newScore ignore now)

namespace PeerDB

/-- How many negative gossipsub scores are ignored. -/
def negativesAllowed (targetPeers : ℕ) : ℕ :=
  ((F32.ofNat targetPeers).mul allowedNegativeGossipsubFactor).ceil

/-- A connected peer with a known gossipsub score. -/
structure Rated (db : PeerDB F) (peerScore : PeerId → Option F) (p : PeerId) (info : PeerInfo F)
    (score : F) : Prop where
  entry : db.peerInfo p = some info
  connected : info.isConnected = true
  known : peerScore p = some score

/-- The number of connected peers with a negative gossipsub score. -/
def negativePeers (db : PeerDB F) (peerScore : PeerId → Option F) : ℕ :=
  db.peers.count fun p info =>
    info.isConnected && (peerScore p).elim false fun score => decide (score < 0)

/-- The outcome of an update of the gossipsub scores that ignores those of `forgiven`. -/
structure Forgives (db : PeerDB F) (targetPeers : ℕ) (peerScore : PeerId → Option F)
    (clock : Clock) (out : PeerDB F × List (PeerId × ScoreUpdateResult))
    (forgiven : List PeerId) : Prop where
  nodup : forgiven.Nodup
  length_eq : forgiven.length = min (negativesAllowed targetPeers) (db.negativePeers peerScore)
  negative : ∀ p ∈ forgiven, ∃ info score, db.Rated peerScore p info score ∧ score < 0
  /-- No forgiven peer scores lower than an unforgiven negative one. -/
  best : ∀ p ∈ forgiven, ∀ q ∉ forgiven, ∀ info score info' score',
    db.Rated peerScore p info score → db.Rated peerScore q info' score' → score' < 0 →
      score' ≤ score
  entries : ∀ p info score, db.Rated peerScore p info score → out.1.peerInfo p =
    some { info.updateGossipsubScore score (decide (p ∈ forgiven)) (clock p) with
      connectionStatus := (info.gossipsubTransition score (decide (p ∈ forgiven))
        (clock p)).status info.connectionStatus }
  taken : ∀ p info score r, db.Rated peerScore p info score → info.score = .real r →
    r.lastUpdated ≤ clock p → ∃ info' r', out.1.peerInfo p = some info' ∧
      info'.score = .real r' ∧ r'.gossipsubScore = score ∧
        r'.ignoreNegativeGossipsubScore = decide (p ∈ forgiven)
  refused : ∀ p info score, db.Rated peerScore p info score →
    (∀ r, info.score = .real r → clock p < r.lastUpdated) → out.1.peerInfo p = some info
  others : ∀ p, (∀ info score, ¬ db.Rated peerScore p info score) →
    out.1.peerInfo p = db.peerInfo p
  results_nodup : (out.2.map Prod.fst).Nodup
  results : ∀ p result, (p, result) ∈ out.2 ↔ ∃ info score, db.Rated peerScore p info score ∧
    result = (info.gossipsubTransition score (decide (p ∈ forgiven)) (clock p)).result
      (db.unbannedIps p) ∧ result ≠ .noAction

variable {db : PeerDB F}

theorem rated_iff {peerScore : PeerId → Option F}
    {order : Shuffle (Map.Entry PeerId (PeerInfo F))} {p : PeerId} {info : PeerInfo F}
    {score : F} : ((⟨p, info⟩ : Map.Entry PeerId (PeerInfo F)), score) ∈
      db.gossipsubPeers peerScore order ↔ db.Rated peerScore p info score := by
  rw [mem_gossipsubPeers]
  constructor
  · rintro ⟨hentry, hconn, hscore⟩
    exact ⟨hentry, hconn, hscore⟩
  · rintro ⟨hentry, hconn, hscore⟩
    exact ⟨hentry, hconn, hscore⟩

/-! ## The forgiven peers -/

/-- The peers that the first loop forgives. -/
def forgivenPeers (peers : List (Map.Entry PeerId (PeerInfo F) × F)) (toIgnore : ℕ) :
    List PeerId :=
  ((peers.filter fun e => decide (e.2 < 0)).take toIgnore).map (·.1.1)

theorem forgivenPeers_cons (e : Map.Entry PeerId (PeerInfo F) × F)
    (peers : List (Map.Entry PeerId (PeerInfo F) × F)) (toIgnore : ℕ) :
    forgivenPeers (e :: peers) toIgnore =
      if (decide (e.2 < 0) && decide (0 < toIgnore)) = true then
        e.1.1 :: forgivenPeers peers (toIgnore - 1)
      else forgivenPeers peers toIgnore := by
  unfold forgivenPeers
  cases toIgnore with
  | zero => simp
  | succ n =>
    by_cases hneg : e.2 < 0
    · simp [hneg]
    · simp [hneg]

theorem forgivenPeers_subset (peers : List (Map.Entry PeerId (PeerInfo F) × F))
    (toIgnore : ℕ) : (forgivenPeers peers toIgnore).Sublist (peers.map (·.1.1)) :=
  ((List.take_sublist _ _).trans List.filter_sublist).map _

/-- The first peer is forgiven if its own update says so. -/
theorem mem_forgivenPeers_self {e : Map.Entry PeerId (PeerInfo F) × F}
    {peers : List (Map.Entry PeerId (PeerInfo F) × F)} (hfresh : e.1.1 ∉ peers.map (·.1.1))
    (toIgnore : ℕ) : decide (e.1.1 ∈ forgivenPeers (e :: peers) toIgnore) =
      (decide (e.2 < 0) && decide (0 < toIgnore)) := by
  have hnot : e.1.1 ∉ forgivenPeers peers toIgnore :=
    fun hmem => hfresh ((forgivenPeers_subset peers toIgnore).subset hmem)
  rw [forgivenPeers_cons]
  split
  · next hignore => rw [hignore, decide_eq_true List.mem_cons_self]
  · next hignore =>
    rw [Bool.not_eq_true] at hignore
    rw [hignore, decide_eq_false hnot]

/-- The others are forgiven as if the loop began with them, with what is left to ignore. -/
theorem mem_forgivenPeers_of_ne {e : Map.Entry PeerId (PeerInfo F) × F}
    (peers : List (Map.Entry PeerId (PeerInfo F) × F)) (toIgnore : ℕ) {p : PeerId}
    (hne : p ≠ e.1.1) : decide (p ∈ forgivenPeers (e :: peers) toIgnore) =
      decide (p ∈ forgivenPeers peers
        (if (decide (e.2 < 0) && decide (0 < toIgnore)) = true then toIgnore - 1
          else toIgnore)) := by
  rw [forgivenPeers_cons]
  split
  · rw [decide_eq_decide, List.mem_cons, or_iff_right hne]
  · rfl

theorem forgivenPeers_length (peers : List (Map.Entry PeerId (PeerInfo F) × F))
    (toIgnore : ℕ) : (forgivenPeers peers toIgnore).length =
      min toIgnore (peers.countP fun e => decide (e.2 < 0)) := by
  rw [forgivenPeers, List.length_map, List.length_take, ← List.countP_eq_length_filter]

theorem mem_of_mem_forgivenPeers {peers : List (Map.Entry PeerId (PeerInfo F) × F)}
    {toIgnore : ℕ} {p : PeerId} (hp : p ∈ forgivenPeers peers toIgnore) : ∃ info score,
      ((⟨p, info⟩ : Map.Entry PeerId (PeerInfo F)), score) ∈ peers ∧ score < 0 := by
  obtain ⟨⟨⟨q, info⟩, score⟩, he, rfl⟩ := List.mem_map.1 hp
  obtain ⟨hmem, hneg⟩ := List.mem_filter.1 (List.mem_of_mem_take he)
  exact ⟨info, score, hmem, of_decide_eq_true hneg⟩

/-- The best negative peers come first. -/
theorem forgivenPeers_best {peers : List (Map.Entry PeerId (PeerInfo F) × F)}
    (hsorted : peers.Pairwise fun a b => b.2 ≤ a.2) (toIgnore : ℕ)
    {a b : Map.Entry PeerId (PeerInfo F) × F} (ha : a ∈ peers)
    (hnodup : (peers.map (·.1.1)).Nodup)
    (hforgiven : a.1.1 ∈ forgivenPeers peers toIgnore) (hb : b ∈ peers)
    (hnot : b.1.1 ∉ forgivenPeers peers toIgnore) (hneg : b.2 < 0) : b.2 ≤ a.2 := by
  unfold forgivenPeers at hforgiven hnot
  obtain ⟨a', ha', hkey⟩ := List.mem_map.1 hforgiven
  have hsame : a' = a := by
    refine List.inj_on_of_nodup_map hnodup ?_ ha hkey
    exact (List.mem_filter.1 (List.mem_of_mem_take ha')).1
  subst hsame
  have hfilter := hsorted.filter fun e => decide (e.2 < 0)
  rw [← List.take_append_drop toIgnore (peers.filter _)] at hfilter
  refine (List.pairwise_append.1 hfilter).2.2 _ ha' b ?_
  have hmem : b ∈ peers.filter fun e => decide (e.2 < 0) :=
    List.mem_filter.2 ⟨hb, decide_eq_true hneg⟩
  rw [← List.take_append_drop toIgnore (peers.filter _)] at hmem
  rcases List.mem_append.1 hmem with htake | hdrop
  · exact absurd (List.mem_map_of_mem htake) hnot
  · exact hdrop

theorem gossipsubPeers_sorted (db : PeerDB F) (peerScore : PeerId → Option F)
    (order : Shuffle (Map.Entry PeerId (PeerInfo F))) :
    (db.gossipsubPeers peerScore order).Pairwise fun a b => b.2 ≤ a.2 := by
  unfold gossipsubPeers
  refine (List.pairwise_mergeSort ?_ ?_ _).imp ?_
  · intro a b c hab hbc
    rw [decide_eq_true_eq] at hab hbc ⊢
    exact hbc.trans hab
  · intro a b
    rw [Bool.or_eq_true, decide_eq_true_eq, decide_eq_true_eq]
    exact le_total b.2 a.2
  · intro a b hab
    exact of_decide_eq_true hab

theorem countP_gossipsubPeers (db : PeerDB F) (peerScore : PeerId → Option F)
    (order : Shuffle (Map.Entry PeerId (PeerInfo F))) :
    (db.gossipsubPeers peerScore order).countP (fun e => decide (e.2 < 0)) =
      db.negativePeers peerScore := by
  unfold gossipsubPeers negativePeers Map.count
  rw [(List.mergeSort_perm _ _).countP_eq, List.countP_filterMap, (order.perm _).countP_eq,
    connectedPeers, select, List.countP_filter]
  refine List.countP_congr fun e _ => ?_
  dsimp only
  cases peerScore e.1 with
  | none => simp
  | some score => simp [and_comm]

/-! ## The first loop -/

/-- **The first loop** writes each listed entry once. -/
theorem setGossipsubScores_spec (clock : Clock)
    {peers : List (Map.Entry PeerId (PeerInfo F) × F)} (hnodup : (peers.map (·.1.1)).Nodup)
    (toIgnore : ℕ) (db : PeerDB F) :
    (setGossipsubScores clock peers toIgnore db).2 = peers.map (fun e => (e.1.1,
        e.1.2.gossipsubTransition e.2 (decide (e.1.1 ∈ forgivenPeers peers toIgnore))
          (clock e.1.1))) ∧
      (∀ e ∈ peers, (setGossipsubScores clock peers toIgnore db).1.peerInfo e.1.1 =
        some (e.1.2.updateGossipsubScore e.2
          (decide (e.1.1 ∈ forgivenPeers peers toIgnore)) (clock e.1.1))) ∧
      ∀ p ∉ peers.map (·.1.1),
        (setGossipsubScores clock peers toIgnore db).1.peerInfo p = db.peerInfo p := by
  induction peers generalizing toIgnore db with
  | nil => exact ⟨rfl, by simp, fun _ _ => rfl⟩
  | cons e peers ih =>
    obtain ⟨hfresh, hpeers⟩ := List.nodup_cons.1 hnodup
    have hself := mem_forgivenPeers_self hfresh toIgnore
    have hrest : ∀ e' ∈ peers, decide (e'.1.1 ∈ forgivenPeers (e :: peers) toIgnore) =
        decide (e'.1.1 ∈ forgivenPeers peers
          (if (decide (e.2 < 0) && decide (0 < toIgnore)) = true then toIgnore - 1
            else toIgnore)) := fun e' he' =>
      mem_forgivenPeers_of_ne peers toIgnore fun heq => hfresh (List.mem_map.2 ⟨e', he', heq⟩)
    obtain ⟨⟨p, info⟩, score⟩ := e
    rw [setGossipsubScores]
    simp only at hself hrest hfresh ⊢
    obtain ⟨hactions, hentries, hothers⟩ := ih hpeers
      (if (decide (score < 0) && decide (0 < toIgnore)) = true then toIgnore - 1 else toIgnore)
      { db with peers := db.peers.insert p (info.updateGossipsubScore score
        (decide (score < 0) && decide (0 < toIgnore)) (clock p)) }
    refine ⟨?_, fun e' he' => ?_, fun q hq => ?_⟩
    · rw [hactions, List.map_cons, hself]
      refine congrArg (List.cons _) (List.map_congr_left fun e' he' => ?_)
      rw [hrest e' he']
    · rcases List.mem_cons.1 he' with rfl | he'
      · rw [hothers p hfresh, hself, peerInfo_insert, if_pos rfl]
      · rw [hentries e' he', hrest e' he']
    · rw [List.map_cons, List.mem_cons, not_or] at hq
      rw [hothers q hq.2, peerInfo_insert, if_neg hq.1]

/-! ## The second loop -/

omit [ScoreArith F] in
theorem unbannedIps_congr {db' : PeerDB F} {p : PeerId}
    (hseen : (db'.peerInfo p).map PeerInfo.seenIpAddresses =
      (db.peerInfo p).map PeerInfo.seenIpAddresses)
    (hcount : db'.bannedPeersCount = db.bannedPeersCount) :
    db'.unbannedIps p = db.unbannedIps p := by
  have hview : ∀ d : PeerDB F, d.unbannedIps p =
      ((d.peerInfo p).map PeerInfo.seenIpAddresses).elim [] fun ips =>
        ips.filter fun ip => !d.bannedPeersCount.ipIsBanned ip := by
    intro d
    unfold unbannedIps
    cases d.peerInfo p <;> rfl
  rw [hview, hview, hseen, hcount]

section Connected

variable {info : PeerInfo F} {nIn nOut : UInt8}

theorem step_banned_of_connected (db : PeerDB F)
    (hs : info.connectionStatus = .connected nIn nOut) (hban : info.scoreState = .banned)
    (now : Instant) : (db.arm info).step .banned now =
      { (db.arm info).setStatus (.disconnecting true) with
        banOperation := some .disconnectThePeer } := by
  have hscore : (db.arm info).banScore .banned = db.arm info := by
    unfold Arm.banScore arm
    simp only [hban]
  change ((db.arm info).banScore .banned).toBanned now = _
  rw [hscore]
  unfold Arm.toBanned arm
  simp only [hs]

theorem step_disconnecting_of_connected (db : PeerDB F)
    (hs : info.connectionStatus = .connected nIn nOut) (now : Instant) :
    (db.arm info).step (.disconnecting false) now =
      (db.arm info).setStatus (.disconnecting false) := by
  change (db.arm info).toDisconnecting false = _
  unfold Arm.toDisconnecting arm
  simp only [hs]

theorem step_unbanned_of_connected (db : PeerDB F)
    (hs : info.connectionStatus = .connected nIn nOut) (now : Instant) :
    (db.arm info).step .unbanned now = db.arm info := by
  change (db.arm info).toUnbanned = _
  unfold Arm.toUnbanned arm
  simp only [hs]

/-- **A transition of a connected peer** moves its status and nothing else. -/
theorem gossipsubAction_connected {p : PeerId} (hp : db.peerInfo p = some info)
    (hconn : info.isConnected = true) {action : ScoreTransitionResult}
    (hban : action = .banned → info.scoreState = .banned) (now : Instant) :
    (db.gossipsubAction p action now).2 = action.result (db.unbannedIps p) ∧
      (db.gossipsubAction p action now).1.bannedPeersCount = db.bannedPeersCount ∧
      ∀ q, (db.gossipsubAction p action now).1.peerInfo q = if q = p then
        some { info with connectionStatus := action.status info.connectionStatus }
        else db.peerInfo q := by
  obtain ⟨nIn, nOut, hs⟩ : ∃ nIn nOut, info.connectionStatus = .connected nIn nOut := by
    unfold PeerInfo.isConnected at hconn
    split at hconn
    · next nIn nOut hs => exact ⟨nIn, nOut, hs⟩
    · cases hconn
  -- What the step does to the arm, it does to the entry.
  have hstep : ∀ (st : NewConnectionState) (arm : Arm F), (db.arm info).step st now = arm →
      (db.arm (db.entryOrInsert p st now)).step st now = arm ∧
        ∀ q, (db.updateConnectionState p st now).1.peerInfo q =
          if q = p then some arm.info else db.peerInfo q := by
    rintro st _ rfl
    rw [entryOrInsert_of_some hp]
    refine ⟨rfl, fun q => ?_⟩
    rw [updateConnectionState_peerInfo, entryOrInsert_of_some hp]
  cases action with
  | banned =>
    obtain ⟨harm, hentries⟩ := hstep .banned _ (step_banned_of_connected db hs (hban rfl) now)
    refine ⟨?_, congrArg Arm.bannedPeersCount harm, hentries⟩
    exact congrArg (fun s : Arm F => ScoreUpdateResult.ofBanOperation s.banOperation) harm
  | disconnected =>
    obtain ⟨harm, hentries⟩ :=
      hstep (.disconnecting false) _ (step_disconnecting_of_connected db hs now)
    exact ⟨rfl, congrArg Arm.bannedPeersCount harm, hentries⟩
  | unbanned =>
    obtain ⟨harm, hentries⟩ := hstep .unbanned _ (step_unbanned_of_connected db hs now)
    have hcount : (db.gossipsubAction p .unbanned now).1.bannedPeersCount =
        db.bannedPeersCount := congrArg Arm.bannedPeersCount harm
    refine ⟨?_, hcount, hentries⟩
    refine congrArg ScoreUpdateResult.unbanned (unbannedIps_congr (congrArg _ ?_) hcount)
    exact (hentries p).trans ((if_pos rfl).trans hp.symm)
  | noAction =>
    refine ⟨rfl, rfl, fun q => ?_⟩
    split
    · next hq =>
      rw [hq]
      exact hp
    · rfl

end Connected

/-- **The second loop**: what it reports, and the entries it leaves. -/
theorem gossipsubRounds_spec (clock : Clock)
    {actions : List (PeerId × ScoreTransitionResult)} (hnodup : (actions.map (·.1)).Nodup)
    (hactions : ∀ a ∈ actions, ∃ info, db.peerInfo a.1 = some info ∧ info.isConnected = true ∧
      (a.2 = .banned → info.scoreState = .banned)) (acc : List (PeerId × ScoreUpdateResult)) :
    (actions.foldl (gossipsubRound clock) (db, acc)).2 = acc ++
        (actions.map fun a => (a.1, a.2.result (db.unbannedIps a.1))).filter
          (fun r => decide (r.2 ≠ .noAction)) ∧
      (∀ a ∈ actions, ∀ info, db.peerInfo a.1 = some info →
        (actions.foldl (gossipsubRound clock) (db, acc)).1.peerInfo a.1 =
          some { info with connectionStatus := a.2.status info.connectionStatus }) ∧
      ∀ q ∉ actions.map (·.1),
        (actions.foldl (gossipsubRound clock) (db, acc)).1.peerInfo q = db.peerInfo q := by
  induction actions generalizing db acc with
  | nil => exact ⟨(List.append_nil acc).symm, by simp, fun _ _ => rfl⟩
  | cons a actions ih =>
    obtain ⟨hfresh, hnodup⟩ := List.nodup_cons.1 hnodup
    obtain ⟨info, hp, hconn, hban⟩ := hactions a List.mem_cons_self
    obtain ⟨hresult, hcount, hentries⟩ := gossipsubAction_connected hp hconn hban (clock a.1)
    have hne : ∀ b ∈ actions, b.1 ≠ a.1 :=
      fun b hb heq => hfresh (List.mem_map.2 ⟨b, hb, heq⟩)
    have hsame : ∀ b ∈ actions, (db.gossipsubAction a.1 a.2 (clock a.1)).1.peerInfo b.1 =
        db.peerInfo b.1 := by
      intro b hb
      rw [hentries, if_neg (hne b hb)]
    have hrest : ∀ b ∈ actions, ∃ info,
        (db.gossipsubAction a.1 a.2 (clock a.1)).1.peerInfo b.1 = some info ∧
          info.isConnected = true ∧ (b.2 = .banned → info.scoreState = .banned) := by
      intro b hb
      rw [hsame b hb]
      exact hactions b (List.mem_cons_of_mem a hb)
    obtain ⟨hout, hstatus, hothers⟩ := ih hnodup hrest
      (if (db.gossipsubAction a.1 a.2 (clock a.1)).2 = .noAction then acc
        else acc ++ [(a.1, (db.gossipsubAction a.1 a.2 (clock a.1)).2)])
    rw [List.foldl_cons]
    refine ⟨?_, fun b hb info' hinfo' => ?_, fun q hq => ?_⟩
    · refine hout.trans ?_
      have hips : (actions.map fun b => (b.1, b.2.result
          ((db.gossipsubAction a.1 a.2 (clock a.1)).1.unbannedIps b.1))) =
            actions.map fun b => (b.1, b.2.result (db.unbannedIps b.1)) := by
        refine List.map_congr_left fun b hb => ?_
        rw [unbannedIps_congr (congrArg _ (hsame b hb)) hcount]
      rw [hips, hresult, List.map_cons]
      by_cases hno : a.2.result (db.unbannedIps a.1) = .noAction
      · rw [if_pos hno, List.filter_cons_of_neg (by simpa using hno)]
      · rw [if_neg hno, List.filter_cons_of_pos (by simpa using hno), List.append_assoc]
        rfl
    · rcases List.mem_cons.1 hb with rfl | hb
      · refine (hothers b.1 hfresh).trans ?_
        rw [hentries, if_pos rfl]
        rw [hp] at hinfo'
        obtain rfl := Option.some.inj hinfo'
        rfl
      · exact hstatus b hb info' ((hsame b hb).trans hinfo')
    · rw [List.map_cons, List.mem_cons, not_or] at hq
      refine (hothers q hq.2).trans ?_
      rw [hentries, if_neg hq.1]

/-! ## The update -/

omit [ScoreArith F] in
theorem mem_keys_iff {peers : List (Map.Entry PeerId (PeerInfo F) × F)} {p : PeerId} :
    p ∈ peers.map (·.1.1) ↔ ∃ info score,
      ((⟨p, info⟩ : Map.Entry PeerId (PeerInfo F)), score) ∈ peers := by
  rw [List.mem_map]
  constructor
  · rintro ⟨⟨⟨q, info⟩, score⟩, he, rfl⟩
    exact ⟨info, score, he⟩
  · rintro ⟨info, score, he⟩
    exact ⟨_, he, rfl⟩

/-- A record that takes a gossipsub score. -/
theorem updateGossipsubScore_taken {r : RealScore F} {now : Instant} (h : r.lastUpdated ≤ now)
    (score : F) (ignore : Bool) :
    (r.updateGossipsubScore score ignore now).gossipsubScore = score ∧
      (r.updateGossipsubScore score ignore now).ignoreNegativeGossipsubScore = ignore := by
  unfold RealScore.updateGossipsubScore
  rw [if_pos h]
  obtain ⟨t, ht⟩ := RealScore.updateState_eq
    { r with gossipsubScore := score, ignoreNegativeGossipsubScore := ignore }
  rw [ht]
  exact ⟨rfl, rfl⟩

/-- A record that refuses it. -/
theorem updateGossipsubScore_refused {info : PeerInfo F} {now : Instant}
    (h : ∀ r, info.score = .real r → now < r.lastUpdated) (score : F) (ignore : Bool) :
    info.updateGossipsubScore score ignore now = info := by
  have hsame : info.score.updateGossipsubScore score ignore now = info.score := by
    cases hscore : info.score with
    | max => rfl
    | real r =>
      have hsame : r.updateGossipsubScore score ignore now = r :=
        if_neg (Nat.not_le.2 (h r hscore))
      exact congrArg Score.real hsame
  unfold PeerInfo.updateGossipsubScore
  rw [hsame]

/-- **Both loops**, by the listed peers: the results they report, the entries they leave and the
peers that are not listed. -/
theorem updateGossipsubScores_spec (db : PeerDB F) (targetPeers : ℕ)
    (peerScore : PeerId → Option F) (clock : Clock)
    (order : Shuffle (Map.Entry PeerId (PeerInfo F))) {forgiven : List PeerId}
    (hforgiven : forgiven =
      forgivenPeers (db.gossipsubPeers peerScore order) (negativesAllowed targetPeers)) :
    (db.updateGossipsubScores targetPeers peerScore clock order).2 =
        ((db.gossipsubPeers peerScore order).map fun e => (e.1.1,
          (e.1.2.gossipsubTransition e.2 (decide (e.1.1 ∈ forgiven)) (clock e.1.1)).result
            (db.unbannedIps e.1.1))).filter (fun r => decide (r.2 ≠ .noAction)) ∧
      (∀ p info score, db.Rated peerScore p info score →
        (db.updateGossipsubScores targetPeers peerScore clock order).1.peerInfo p =
          some { info.updateGossipsubScore score (decide (p ∈ forgiven)) (clock p) with
            connectionStatus := (info.gossipsubTransition score (decide (p ∈ forgiven))
              (clock p)).status info.connectionStatus }) ∧
      ∀ p, (∀ info score, ¬ db.Rated peerScore p info score) →
        (db.updateGossipsubScores targetPeers peerScore clock order).1.peerInfo p =
          db.peerInfo p := by
  have hnodup := gossipsubPeers_nodup db peerScore order
  have hrescored :=
    (setGossipsubScores_rescored db peerScore clock order (negativesAllowed targetPeers)).1
  have hkeys := setGossipsubScores_keys clock (db.gossipsubPeers peerScore order)
    (negativesAllowed targetPeers) db
  obtain ⟨hactions, hfirst, hrest⟩ :=
    setGossipsubScores_spec clock hnodup (negativesAllowed targetPeers) db
  rw [← hforgiven] at hactions hfirst
  rw [updateGossipsubScores_eq, ← negativesAllowed]
  generalize setGossipsubScores clock (db.gossipsubPeers peerScore order)
    (negativesAllowed targetPeers) db = first at *
  obtain ⟨db₁, actions⟩ := first
  simp only at hactions hfirst hrest hkeys hrescored ⊢
  have hips : ∀ p, db₁.unbannedIps p = db.unbannedIps p := by
    intro p
    refine unbannedIps_congr ?_ hrescored.bannedPeersCount
    have hentries := congrArg (Option.map PeerInfo.seenIpAddresses) (hrescored.entries p)
    rw [Option.map_map, Option.map_map] at hentries
    exact hentries
  -- The first loop leaves every listed peer connected, which the second loop needs.
  have hconnected : ∀ a ∈ actions, ∃ info, db₁.peerInfo a.1 = some info ∧
      info.isConnected = true ∧ (a.2 = .banned → info.scoreState = .banned) := by
    intro a ha
    rw [hactions] at ha
    obtain ⟨⟨⟨p, info⟩, score⟩, he, rfl⟩ := List.mem_map.1 ha
    refine ⟨_, hfirst _ he, (rated_iff.1 he).connected, fun hban => ?_⟩
    exact (handleScoreTransition_eq_banned hban).1
  obtain ⟨hresults, hentries, hothers⟩ :=
    gossipsubRounds_spec clock (hkeys ▸ hnodup) hconnected []
  refine ⟨?_, fun p info score hp => ?_, fun p hp => ?_⟩
  · refine hresults.trans ?_
    rw [List.nil_append, hactions, List.map_map]
    refine congrArg (List.filter _) (List.map_congr_left fun e _ => ?_)
    exact congrArg (fun ips => (e.1.1, ScoreTransitionResult.result ips _)) (hips e.1.1)
  · have hmem : (p, info.gossipsubTransition score (decide (p ∈ forgiven)) (clock p)) ∈
        actions := by
      rw [hactions]
      exact List.mem_map.2 ⟨_, rated_iff.2 hp, rfl⟩
    exact hentries _ hmem _ (hfirst _ (rated_iff.2 hp))
  · have hnot : p ∉ (db.gossipsubPeers peerScore order).map (·.1.1) := by
      rw [mem_keys_iff]
      rintro ⟨info, score, he⟩
      exact hp info score (rated_iff.1 he)
    exact (hothers p (hkeys ▸ hnot)).trans (hrest p hnot)

/-- **`update_gossipsub_scores` forgives the best negative peers**, as many as are allowed. -/
theorem updateGossipsubScores_forgives (db : PeerDB F) (targetPeers : ℕ)
    (peerScore : PeerId → Option F) (clock : Clock)
    (order : Shuffle (Map.Entry PeerId (PeerInfo F))) :
    ∃ forgiven, db.Forgives targetPeers peerScore clock
      (db.updateGossipsubScores targetPeers peerScore clock order) forgiven := by
  have hnodup := gossipsubPeers_nodup db peerScore order
  obtain ⟨forgiven, hforgiven⟩ : ∃ forgiven, forgiven =
    forgivenPeers (db.gossipsubPeers peerScore order) (negativesAllowed targetPeers) := ⟨_, rfl⟩
  obtain ⟨hresults, hentry, hothers⟩ :=
    updateGossipsubScores_spec db targetPeers peerScore clock order hforgiven
  refine ⟨forgiven, ?_, ?_, ?_, ?_, hentry, ?_, ?_, hothers, ?_, ?_⟩
  · rw [hforgiven]
    exact (forgivenPeers_subset _ _).nodup hnodup
  · rw [hforgiven, forgivenPeers_length, countP_gossipsubPeers]
  · intro p hp
    obtain ⟨info, score, hmem, hneg⟩ := mem_of_mem_forgivenPeers (hforgiven ▸ hp)
    exact ⟨info, score, rated_iff.1 hmem, hneg⟩
  · intro p hp q hq info score info' score' hratedp hratedq hneg
    exact forgivenPeers_best (gossipsubPeers_sorted db peerScore order) _ (rated_iff.2 hratedp)
      hnodup (hforgiven ▸ hp) (rated_iff.2 hratedq) (hforgiven ▸ hq) hneg
  · intro p info score r hp hreal hnow
    refine ⟨_, r.updateGossipsubScore score (decide (p ∈ forgiven)) (clock p),
      hentry p info score hp, ?_, updateGossipsubScore_taken hnow score _⟩
    exact congrArg (fun s : Score F => s.updateGossipsubScore score _ (clock p)) hreal
  · intro p info score hp hrefused
    have hsame := updateGossipsubScore_refused hrefused score (decide (p ∈ forgiven))
    rw [hentry p info score hp, PeerInfo.gossipsubTransition, hsame, handleScoreTransition_self]
    rfl
  · rw [hresults]
    refine (List.filter_sublist.map Prod.fst).nodup ?_
    rw [List.map_map]
    exact hnodup
  · intro p result
    rw [hresults, List.mem_filter, decide_eq_true_eq, List.mem_map]
    constructor
    · rintro ⟨⟨⟨⟨q, info⟩, score⟩, he, hresult⟩, hno⟩
      obtain ⟨rfl, rfl⟩ := Prod.mk.inj hresult
      exact ⟨info, score, rated_iff.1 he, rfl, hno⟩
    · rintro ⟨info, score, hp, rfl, hno⟩
      exact ⟨⟨_, rated_iff.2 hp, rfl⟩, hno⟩

/-- A trusted peer that is connected, with the score `Max`. -/
def trustedConnected : PeerDB ℚ :=
  (PeerDB.empty.step (.dialingPeer ⟨[1]⟩ none true 0)).step
    (.connectOutgoing ⟨[1]⟩ [.ip4 1, .tcp 9000] none 0)

/-- The score `Max` of a forgiven peer has no flag. -/
theorem forgiven_flags_fail :
    ¬ ∀ (db : PeerDB ℚ) (targetPeers : ℕ) (peerScore : PeerId → Option ℚ) (clock : Clock)
      (order : Shuffle (Map.Entry PeerId (PeerInfo ℚ))),
      ∃ forgiven : List PeerId, forgiven.Nodup ∧
        forgiven.length = min (negativesAllowed targetPeers) (db.negativePeers peerScore) ∧
        ∀ p ∈ forgiven, ∃ info r, (db.updateGossipsubScores targetPeers peerScore clock
          order).1.peerInfo p = some info ∧ info.score = .real r ∧
            r.ignoreNegativeGossipsubScore = true := by
  intro h
  obtain ⟨forgiven, -, hlength, hflags⟩ :=
    h trustedConnected 1 (fun _ => some (-1)) (fun _ => 0) default
  have hmin : min (negativesAllowed 1)
      (trustedConnected.negativePeers fun _ => some (-1 : ℚ)) = 1 := by decide +kernel
  have hmax : ∀ e ∈ (trustedConnected.updateGossipsubScores 1 (fun _ => some (-1)) (fun _ => 0)
      default).1.peers.entries, e.2.score = .max := by decide +kernel
  obtain ⟨p, rfl⟩ := List.length_eq_one_iff.1 (hlength.trans hmin)
  obtain ⟨info, r, hinfo, hreal, -⟩ := hflags p List.mem_cons_self
  have hscore : info.score = .max := hmax ⟨p, info⟩ (Map.mem_entries_iff.2 hinfo)
  rw [hreal] at hscore
  cases hscore

end PeerDB

end Consentry
