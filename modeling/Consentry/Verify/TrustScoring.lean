import Consentry.Verify.Scores
import Consentry.Verify.Trust

/-!
# Scoring and trust

Which trusted peers are exempt from scoring (`PeerDB.Exempt`), and when the removal of
trust makes a peer accountable again. Both depend on whether the score is `max`, which is
decided when the entry of the peer is created and never changes.
-/

namespace Consentry

open Lib

variable {F : Type} [ScoreArith F]

/-- The result bans the peer or has it disconnected. -/
def ScoreUpdateResult.punishes : ScoreUpdateResult → Bool
  | .ban _ | .disconnect => true
  | .unbanned _ | .noAction => false

namespace PeerDB

/-! ## Score transitions -/

theorem handleScoreTransition_self (info : PeerInfo F) :
    handleScoreTransition info.scoreState info = .noAction := by
  unfold handleScoreTransition
  cases info.scoreState <;> rfl

theorem handleScoreTransition_banned {previous : ScoreState} {info : PeerInfo F}
    (h : info.scoreState = .banned) (hprevious : previous ≠ .banned) :
    handleScoreTransition previous info = .banned := by
  unfold handleScoreTransition
  rw [h]
  cases previous with
  | banned => exact absurd rfl hprevious
  | _ => rfl

theorem handleScoreTransition_eq_banned {previous : ScoreState} {info : PeerInfo F}
    (h : handleScoreTransition previous info = .banned) :
    info.scoreState = .banned ∧ previous ≠ .banned := by
  unfold handleScoreTransition at h
  cases hs : info.scoreState with
  | banned =>
    rw [hs] at h
    refine ⟨rfl, ?_⟩
    rintro rfl
    cases h
  | disconnected =>
    rw [hs] at h
    cases previous <;> simp at h <;> split at h <;> cases h
  | healthy =>
    rw [hs] at h
    cases previous <;> cases h

/-! ## The results of the three scoring operations -/

theorem reportPeer_of_trusted {db : PeerDB F} {p : PeerId} {info : PeerInfo F}
    (hp : db.peerInfo p = some info) (htrusted : info.isTrusted = true) (action : PeerAction)
    (now : Instant) : (db.reportPeer p action now).2 = .noAction := by
  have hsame : info.applyPeerActionToScore action = info := by
    simp [PeerInfo.applyPeerActionToScore, htrusted]
  unfold reportPeer
  rw [hp]
  simp only [hsame, handleScoreTransition_self]

theorem updateScores_unbans (db : PeerDB F) (clock : Clock)
    (order : Shuffle (Map.Entry PeerId (PeerInfo F))) :
    ∀ r ∈ (db.updateScores clock order).2, r.2.punishes = false := by
  unfold updateScores
  refine foldl_rel (R := fun r r' : PeerDB F × List (PeerId × ScoreUpdateResult) =>
    (∀ x ∈ r.2, x.2.punishes = false) → ∀ x ∈ r'.2, x.2.punishes = false)
    (fun _ h => h) (fun _ _ _ h k hr => k (h hr)) ?_ _ (_, []) (by simp)
  intro r p hr x hx
  rcases List.mem_append.1 hx with hx | hx
  · exact hr x hx
  · rw [List.mem_singleton] at hx
    subst hx
    rfl

/-- The actions collected by the first loop of `update_gossipsub_scores`. -/
theorem mem_setGossipsubScores {clock : Clock}
    {peers : List (Map.Entry PeerId (PeerInfo F) × F)} {toIgnore : ℕ} {db : PeerDB F}
    {a : PeerId × ScoreTransitionResult}
    (ha : a ∈ (setGossipsubScores clock peers toIgnore db).2) :
    ∃ e ∈ peers, ∃ ignore, a = (e.1.1, handleScoreTransition e.1.2.scoreState
      (e.1.2.updateGossipsubScore e.2 ignore (clock e.1.1))) := by
  induction peers generalizing toIgnore db with
  | nil => cases ha
  | cons e peers ih =>
    rw [setGossipsubScores] at ha
    rcases List.mem_cons.1 ha with rfl | ha
    · exact ⟨e, List.mem_cons_self, _, rfl⟩
    · obtain ⟨e', he', ignore, h⟩ := ih ha
      exact ⟨e', List.mem_cons_of_mem e he', ignore, h⟩

/-- A round of the second loop of `update_gossipsub_scores`. -/
def gossipsubRound (clock : Clock) (r : PeerDB F × List (PeerId × ScoreUpdateResult))
    (a : PeerId × ScoreTransitionResult) : PeerDB F × List (PeerId × ScoreUpdateResult) :=
  ((r.1.gossipsubAction a.1 a.2 (clock a.1)).1,
    if (r.1.gossipsubAction a.1 a.2 (clock a.1)).2 = .noAction then r.2
    else r.2 ++ [(a.1, (r.1.gossipsubAction a.1 a.2 (clock a.1)).2)])

theorem updateGossipsubScores_eq (db : PeerDB F) (target : ℕ) (peerScore : PeerId → Option F)
    (clock : Clock) (order : Shuffle (Map.Entry PeerId (PeerInfo F))) :
    db.updateGossipsubScores target peerScore clock order =
      (setGossipsubScores clock (db.gossipsubPeers peerScore order)
        ((F32.ofNat target).mul allowedNegativeGossipsubFactor).ceil db).2.foldl
          (gossipsubRound clock)
          ((setGossipsubScores clock (db.gossipsubPeers peerScore order)
            ((F32.ofNat target).mul allowedNegativeGossipsubFactor).ceil db).1, []) := rfl

theorem mem_gossipsubRounds {clock : Clock} {actions : List (PeerId × ScoreTransitionResult)}
    {r : PeerDB F × List (PeerId × ScoreUpdateResult)} {x : PeerId × ScoreUpdateResult}
    (hx : x ∈ (actions.foldl (gossipsubRound clock) r).2) :
    x ∈ r.2 ∨ ∃ a ∈ actions, a.1 = x.1 ∧ a.2 ≠ .noAction := by
  induction actions generalizing r with
  | nil => exact .inl hx
  | cons a actions ih =>
    rw [List.foldl_cons] at hx
    rcases ih hx with hx | ⟨b, hb, hbx⟩
    · unfold gossipsubRound at hx
      simp only at hx
      split at hx
      · exact .inl hx
      · next hno =>
        rcases List.mem_append.1 hx with hx | hx
        · exact .inl hx
        · rw [List.mem_singleton] at hx
          subst hx
          refine .inr ⟨a, List.mem_cons_self, rfl, fun ha => hno ?_⟩
          rw [ha]
          rfl
    · exact .inr ⟨b, List.mem_cons_of_mem a hb, hbx⟩

/-- The results of `update_gossipsub_scores` come from score transitions of connected
peers with a known gossipsub score. -/
theorem mem_updateGossipsubScores {db : PeerDB F} {target : ℕ} {peerScore : PeerId → Option F}
    {clock : Clock} {order : Shuffle (Map.Entry PeerId (PeerInfo F))}
    {x : PeerId × ScoreUpdateResult}
    (hx : x ∈ (db.updateGossipsubScores target peerScore clock order).2) :
    ∃ info g ignore, db.peerInfo x.1 = some info ∧ info.isConnected = true ∧
      handleScoreTransition info.scoreState (info.updateGossipsubScore g ignore (clock x.1)) ≠
        .noAction := by
  rw [updateGossipsubScores_eq] at hx
  rcases mem_gossipsubRounds hx with hx | ⟨a, ha, hax, hno⟩
  · cases hx
  · obtain ⟨e, he, ignore, rfl⟩ := mem_setGossipsubScores ha
    obtain ⟨hentry, hconn, -⟩ := mem_gossipsubPeers.1 he
    rw [← hax]
    exact ⟨e.1.2, e.2, ignore, hentry, hconn, hno⟩

/-- Results are never dropped. -/
theorem gossipsubRounds_keep (clock : Clock) (actions : List (PeerId × ScoreTransitionResult))
    (r : PeerDB F × List (PeerId × ScoreUpdateResult)) (x : PeerId × ScoreUpdateResult)
    (hx : x ∈ r.2) : x ∈ (actions.foldl (gossipsubRound clock) r).2 := by
  refine foldl_rel (R := fun r r' : PeerDB F × List (PeerId × ScoreUpdateResult) =>
    x ∈ r.2 → x ∈ r'.2) (fun _ h => h) (fun _ _ _ h k hr => k (h hr)) ?_ actions r hx
  intro r a hr
  unfold gossipsubRound
  simp only
  split
  · exact hr
  · exact List.mem_append_left _ hr

/-! ## Exemption -/

/-- No report, no decay and no gossipsub scores punish the peer, and it is not banned for
its score. -/
structure Exempt (db : PeerDB F) (peerId : PeerId) : Prop where
  report : ∀ action now, (db.reportPeer peerId action now).2.punishes = false
  decay : ∀ clock order result, (peerId, result) ∈ (db.updateScores clock order).2 →
    result.punishes = false
  gossipsub : ∀ target peerScore clock order result,
    (peerId, result) ∈ (db.updateGossipsubScores target peerScore clock order).2 →
      result.punishes = false
  notBanned : db.banStatus peerId ≠ .badScore

section

variable {db : PeerDB F} {p : PeerId} {info : PeerInfo F}

theorem banStatus_eq_badScore_iff (hp : db.peerInfo p = some info) :
    db.banStatus p = .badScore ↔ info.scoreState = .banned := by
  unfold banStatus
  rw [hp]
  simp only
  cases info.scoreState <;> simp <;> split <;> simp

/-- Banning a connected peer asks for its disconnection. -/
theorem updateConnectionState_banned_connected (hp : db.peerInfo p = some info)
    (hconn : info.isConnected = true) (now : Instant) :
    (db.updateConnectionState p .banned now).2 = some .disconnectThePeer := by
  change (((db.arm (db.entryOrInsert p .banned now)).banScore .banned).toBanned now).banOperation =
    _
  unfold Arm.toBanned
  rw [Arm.banScore_status, arm, entryOrInsert_of_some hp]
  unfold PeerInfo.isConnected at hconn
  cases hs : info.connectionStatus <;> simp [hs] at hconn ⊢

/-- The listed peers when the gossipsub score of one connected peer is known. -/
theorem gossipsubPeers_eq_cons (hp : db.peerInfo p = some info)
    (hconn : info.isConnected = true) (g : F) :
    ∃ peers, db.gossipsubPeers (fun q => if q = p then some g else none) default =
      (⟨p, info⟩, g) :: peers := by
  have hone : ∀ e ∈ db.gossipsubPeers (fun q => if q = p then some g else none) default,
      e = (⟨p, info⟩, g) := by
    rintro ⟨⟨q, i⟩, g'⟩ he
    obtain ⟨hentry, -, hscore⟩ := mem_gossipsubPeers.1 he
    simp only [Option.ite_none_right_eq_some, Option.some.injEq] at hscore
    obtain ⟨rfl, rfl⟩ := hscore
    rw [hp] at hentry
    cases hentry
    rfl
  have hmem : ((⟨p, info⟩ : Map.Entry PeerId (PeerInfo F)), g) ∈
      db.gossipsubPeers (fun q => if q = p then some g else none) default :=
    mem_gossipsubPeers.2 ⟨hp, hconn, if_pos rfl⟩
  cases hpeers : db.gossipsubPeers (fun q => if q = p then some g else none) default with
  | nil =>
    rw [hpeers] at hmem
    cases hmem
  | cons e peers =>
    rw [hone e (hpeers ▸ List.mem_cons_self)]
    exact ⟨peers, rfl⟩

/-- A gossipsub score that bans a connected peer asks for its disconnection. -/
theorem mem_updateGossipsubScores_of_ban (hp : db.peerInfo p = some info)
    (hconn : info.isConnected = true) {g : F} {clock : Clock}
    (hban : handleScoreTransition info.scoreState
      (info.updateGossipsubScore g false (clock p)) = .banned) :
    (p, ScoreUpdateResult.ban .disconnectThePeer) ∈
      (db.updateGossipsubScores 0 (fun q => if q = p then some g else none) clock default).2 := by
  obtain ⟨peers, hpeers⟩ := gossipsubPeers_eq_cons hp hconn g
  obtain ⟨info', hinfo', hsame⟩ := (setGossipsubScores_rescored db
    (fun q => if q = p then some g else none) clock default 0).1.exists_of_some hp
  rw [hpeers] at hinfo'
  have hconn' : info'.isConnected = true := by
    rwa [PeerInfo.isConnected_of_unscored hsame]
  have hactions : (setGossipsubScores clock ((⟨p, info⟩, g) :: peers) 0 db).2.head? =
      some (p, .banned) := by
    rw [setGossipsubScores]
    simp only [Nat.lt_irrefl, decide_false, Bool.and_false, hban, List.head?_cons]
  obtain ⟨rest, hrest⟩ := List.head?_eq_some_iff.1 hactions
  have hignore : ((F32.ofNat 0).mul allowedNegativeGossipsubFactor).ceil = 0 := by decide
  rw [updateGossipsubScores_eq, hignore, hpeers, hrest, List.foldl_cons]
  apply gossipsubRounds_keep
  unfold gossipsubRound gossipsubAction
  simp only
  rw [updateConnectionState_banned_connected hinfo' hconn']
  simp [ScoreUpdateResult.ofBanOperation]

/-- Gossipsub scores can ban a connected peer with a real score, trusted or not. -/
theorem exists_gossipsub_punishment (hp : db.peerInfo p = some info)
    (hconn : info.isConnected = true) {r : RealScore F} (hreal : info.score = .real r)
    (hnot : info.scoreState ≠ .banned) :
    ∃ peerScore clock, (p, ScoreUpdateResult.ban .disconnectThePeer) ∈
      (db.updateGossipsubScores 0 peerScore clock default).2 := by
  obtain ⟨g, hg⟩ := r.exists_gossipsub_ban
  have hban : handleScoreTransition info.scoreState
      (info.updateGossipsubScore g false r.lastUpdated) = .banned := by
    refine handleScoreTransition_banned (Score.state_eq_banned_iff.2 ?_) hnot
    refine ⟨r.updateGossipsubScore g false r.lastUpdated, ?_, hg⟩
    rw [PeerInfo.updateGossipsubScore, hreal]
    rfl
  exact ⟨_, fun _ => r.lastUpdated, mem_updateGossipsubScores_of_ban hp hconn hban⟩

/-- The score transition of a `max` score is no transition. -/
theorem gossipsub_max_noAction (hmax : info.score = .max) (g : F) (ignore : Bool)
    (now : Instant) :
    handleScoreTransition info.scoreState (info.updateGossipsubScore g ignore now) =
      .noAction := by
  have hsame : info.updateGossipsubScore g ignore now = info := by
    rw [PeerInfo.updateGossipsubScore, hmax]
    exact congrArg (fun s => { info with score := s }) hmax.symm
  rw [hsame, handleScoreTransition_self]

/-- **Which trusted peers are exempt from scoring**: those with the score `max`, and the
others as long as their score is not banned and they are not connected. -/
theorem exempt_iff (db : PeerDB F) (p : PeerId) (info : PeerInfo F)
    (hp : db.peerInfo p = some info) (htrusted : info.isTrusted = true) :
    db.Exempt p ↔
      info.score = .max ∨ (info.scoreState ≠ .banned ∧ info.isConnected = false) := by
  constructor
  · intro h
    cases hscore : info.score with
    | max => exact .inl rfl
    | real r =>
      have hnot : info.scoreState ≠ .banned := fun hb =>
        h.notBanned ((banStatus_eq_badScore_iff hp).2 hb)
      refine .inr ⟨hnot, ?_⟩
      rw [← Bool.not_eq_true]
      intro hconn
      obtain ⟨peerScore, clock, hmem⟩ := exists_gossipsub_punishment hp hconn hscore hnot
      have := h.gossipsub 0 peerScore clock default _ hmem
      cases this
  · intro h
    have hbanned : info.scoreState ≠ .banned := by
      rcases h with hmax | ⟨hnot, -⟩
      · rw [PeerInfo.scoreState, hmax, Score.state_max]
        simp
      · exact hnot
    refine ⟨fun action now => ?_, fun clock order result hmem => ?_,
      fun target peerScore clock order result hmem => ?_, fun hb => ?_⟩
    · rw [reportPeer_of_trusted hp htrusted]
      rfl
    · exact updateScores_unbans db clock order _ hmem
    · obtain ⟨info', g, ignore, hinfo', hconn, hno⟩ := mem_updateGossipsubScores hmem
      rw [hp] at hinfo'
      cases hinfo'
      rcases h with hmax | ⟨-, hdis⟩
      · exact absurd (gossipsub_max_noAction hmax g ignore _) hno
      · rw [hdis] at hconn
        cases hconn
    · exact hbanned ((banStatus_eq_badScore_iff hp).1 hb)

end

/-- A trusted dial to an unknown peer. -/
theorem exempt_iff_trustedDial :
    (PeerDB.empty.dialingPeer ⟨[1]⟩ none true 0 : PeerDB ℚ).Exempt ⟨[1]⟩ ↔
      (PeerInfo.trustedPeerInfo 0 : PeerInfo ℚ).score = .max ∨
        ((PeerInfo.trustedPeerInfo 0 : PeerInfo ℚ).scoreState ≠ .banned ∧
          (PeerInfo.trustedPeerInfo 0 : PeerInfo ℚ).isConnected = false) :=
  exempt_iff (PeerDB.empty.dialingPeer ⟨[1]⟩ none true 0) ⟨[1]⟩
    ((PeerInfo.trustedPeerInfo 0).setConnectionStatus (.dialing 0)) (by decide +kernel) rfl

/-- A connected peer that is banned for its score and then trusted. -/
theorem exempt_fails :
    ¬ ∀ (ops : List (DbOp ℚ)) (p : PeerId),
      (ops.foldl PeerDB.step PeerDB.empty).isTrusted p = true →
        (ops.foldl PeerDB.step PeerDB.empty).Exempt p := by
  intro h
  have hbanned := (h [.connectIngoing ⟨[1]⟩ [.ip4 1, .tcp 9000] none 0,
    .reportPeer ⟨[1]⟩ .fatal 0, .dialingPeer ⟨[1]⟩ none true 0] ⟨[1]⟩
      (by decide +kernel)).notBanned
  revert hbanned
  decide +kernel

/-! ## Removal of trust -/

section

variable {db : PeerDB F} {p : PeerId} {info : PeerInfo F}

/-- A report leaves the peer with the score its action gives. -/
theorem reportPeer_score (hp : db.peerInfo p = some info) (action : PeerAction)
    (now : Instant) :
    ((db.reportPeer p action now).1.peerInfo p).map (·.score) =
      some (info.applyPeerActionToScore action).score := by
  have hins : ∀ st, ((({ db with peers := db.peers.insert p (info.applyPeerActionToScore action) }
      : PeerDB F).entryOrInsert p st now)) = info.applyPeerActionToScore action := by
    intro st
    apply entryOrInsert_of_some
    rw [peerInfo_insert, if_pos rfl]
  unfold reportPeer
  rw [hp]
  simp only
  cases ht : handleScoreTransition info.scoreState (info.applyPeerActionToScore action) with
  | banned =>
    simp only
    rw [updateConnectionState_peerInfo, if_pos rfl, Option.map_some, Arm.score_step, arm, hins]
    right
    rw [arm, hins]
    exact (handleScoreTransition_eq_banned ht).1
  | disconnected =>
    simp only
    rw [updateConnectionState_peerInfo, if_pos rfl, Option.map_some,
      Arm.score_step _ _ _ (.inl (by simp)), arm, hins]
  | noAction =>
    simp only
    rw [peerInfo_insert, if_pos rfl, Option.map_some]
  | unbanned =>
    simp only
    rw [peerInfo_insert, if_pos rfl, Option.map_some]

/-- A `Fatal` report bans an untrusted peer exactly when its score is real. -/
theorem reportPeer_fatal_banned_iff (hp : db.peerInfo p = some info)
    (huntrusted : info.isTrusted = false) (now : Instant) :
    ((db.reportPeer p .fatal now).1.peerInfo p).map (·.scoreState) = some .banned ↔
      info.score ≠ .max := by
  have hscore : (info.applyPeerActionToScore .fatal).score =
      info.score.applyPeerAction .fatal := by
    simp [PeerInfo.applyPeerActionToScore, huntrusted]
  have hstate : ((db.reportPeer p .fatal now).1.peerInfo p).map (·.scoreState) =
      some (info.score.applyPeerAction .fatal).state := by
    have h := congrArg (Option.map Score.state) (reportPeer_score hp .fatal now)
    rw [Option.map_map, hscore] at h
    exact h
  rw [hstate, Option.some.injEq, Score.state_eq_banned_iff]
  cases hs : info.score with
  | max =>
    constructor
    · rintro ⟨r, hr, -⟩
      cases hr
    · intro h
      exact absurd rfl h
  | real r =>
    refine ⟨fun _ => by simp, fun _ => ⟨r.applyPeerAction .fatal, rfl, ?_⟩⟩
    rw [RealScore.fatal_score]
    unfold minScore minScoreBeforeBan
    linarith

/-- **When the removal of trust restores scoring.** After the removal, and whatever else
happens to a peer that stays in the database and is not trusted again, a `Fatal` report
bans the peer exactly when its score was not `max`. -/
theorem fatal_after_untrust_iff (db : PeerDB F) (p : PeerId) (info : PeerInfo F)
    (hp : db.peerInfo p = some info) (ops : List (DbOp F))
    (huntrusted : ∀ op ∈ ops, op.trusts p = false)
    (hkeep : Throughout PeerDB.step (fun db => (db.peerInfo p).isSome = true)
      (db.step (.setUntrusted p)) ops) (now : Instant) :
    (((ops.foldl PeerDB.step (db.step (.setUntrusted p))).reportPeer p .fatal now).1.peerInfo
        p).map (·.scoreState) = some .banned ↔ info.score ≠ .max := by
  have hstart : (db.step (.setUntrusted p)).standing p = some (false, info.score.isMax) := by
    rw [setUntrusted_standing, if_pos rfl, standing, hp]
    rfl
  have hend := run_standing_untrusted hstart huntrusted hkeep
  obtain ⟨info', hinfo', hst⟩ := Option.map_eq_some_iff.1 hend
  have htrust : info'.isTrusted = false := congrArg Prod.fst hst
  have hkind : info'.score.isMax = info.score.isMax := congrArg Prod.snd hst
  rw [reportPeer_fatal_banned_iff hinfo' htrust, ← Score.isMax_eq_false_iff, hkind,
    Score.isMax_eq_false_iff]

end

theorem fatal_after_untrust_iff_trustedDial :
    ((((PeerDB.empty.dialingPeer ⟨[1]⟩ none true 0 : PeerDB ℚ).step
        (.setUntrusted ⟨[1]⟩)).reportPeer ⟨[1]⟩ .fatal 0).1.peerInfo ⟨[1]⟩).map (·.scoreState) =
        some .banned ↔
      (PeerInfo.trustedPeerInfo 0 : PeerInfo ℚ).score ≠ .max :=
  fatal_after_untrust_iff (PeerDB.empty.dialingPeer ⟨[1]⟩ none true 0) ⟨[1]⟩
    ((PeerInfo.trustedPeerInfo 0).setConnectionStatus (.dialing 0)) (by decide +kernel) []
    (by simp) (by decide +kernel) 0

/-- A peer that was added as trusted before it was known. -/
theorem fatal_after_untrust_fails :
    ¬ ∀ (history ops : List (DbOp ℚ)) (p : PeerId) (now : Instant),
      ((history.foldl PeerDB.step PeerDB.empty).peerInfo p).isSome = true →
      (∀ op ∈ ops, op.trusts p = false) →
      Throughout PeerDB.step (fun db => (db.peerInfo p).isSome = true)
        ((history.foldl PeerDB.step PeerDB.empty).step (.setUntrusted p)) ops →
      (((ops.foldl PeerDB.step ((history.foldl PeerDB.step PeerDB.empty).step
        (.setUntrusted p))).reportPeer p .fatal now).1.peerInfo p).map (·.scoreState) =
          some .banned := by
  intro h
  have hbanned := h [.dialingPeer ⟨[1]⟩ none true 0] [] ⟨[1]⟩ 0 (by decide +kernel) (by simp)
    (by decide +kernel)
  revert hbanned
  decide +kernel

end PeerDB

end Consentry
