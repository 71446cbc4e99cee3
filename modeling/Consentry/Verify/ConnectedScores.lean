import Consentry.Verify.Calls
import Consentry.Verify.Entries
import Consentry.Verify.Status
import Consentry.Verify.TrustScoring

/-!
# No connected peer has a banning score

Between the change of a score and the answer to it, a connected peer can have a banning
score: `PeerDB.FitBut pending` says that this is so for `pending` peers only. A report
answers for the peer at once, `update_gossipsub_scores` collects the peers in its first
loop and answers for them in its second, decay never bans, and a peer that is banned for
its score is not let in again. Hence **`System.connected_not_banned`**: after every call
no connected peer has a banning score.
-/

namespace Consentry

open Lib

variable {F : Type} [ScoreArith F]

/-! ## The scores of single entries -/

namespace PeerInfo

variable {info : PeerInfo F}

theorem wf_applyPeerActionToScore (h : info.score.WF) (action : PeerAction) :
    (info.applyPeerActionToScore action).score.WF := by
  unfold applyPeerActionToScore
  split
  · exact h.mapReal fun r hr => hr.applyPeerAction action
  · exact h

theorem wf_updateGossipsubScore (h : info.score.WF) (newScore : F) (ignore : Bool)
    (now : Instant) : (info.updateGossipsubScore newScore ignore now).score.WF :=
  h.mapReal fun _ hr => hr.updateGossipsubScore newScore ignore now

theorem wf_scoreUpdate (h : info.score.WF) (now : Instant) : (info.scoreUpdate now).score.WF := by
  unfold scoreUpdate
  split
  · exact h.mapReal fun r hr => hr.updateAt now
  · exact h

/-- Decay never bans. -/
theorem not_banned_scoreUpdate (h : info.score.WF) (hnot : info.scoreState ≠ .banned)
    (now : Instant) : (info.scoreUpdate now).scoreState ≠ .banned := by
  unfold scoreUpdate
  split
  · unfold scoreState at hnot ⊢
    cases hs : info.score with
    | max =>
      rw [Score.updateAt, Score.mapReal, Score.state_max]
      simp
    | real r =>
      rw [hs] at h hnot
      intro hbanned
      obtain ⟨r', hr', hle⟩ := Score.state_eq_banned_iff.1 hbanned
      cases hr'
      have hr : minScoreBeforeBan < r.score := by
        rw [← not_le]
        exact fun hle => hnot (Score.state_eq_banned_iff.2 ⟨r, rfl, hle⟩)
      exact absurd hle (not_le.2 (RealScore.WF.updateAt_not_banned h now hr))
  · exact hnot

end PeerInfo

/-- A peer is connected after `update_connection_state` because it was before, or because
it has been connected; a banned one is not. -/
theorem PeerConnectionStatus.isConnected_next {now : Instant} {st : NewConnectionState}
    {status : PeerConnectionStatus} (h : (status.next now st).isConnected = true) :
    (∃ enr address direction, st = .connected enr address direction) ∨
      (status.isConnected = true ∧ st ≠ .banned) := by
  cases st with
  | connected enr address direction => exact .inl ⟨enr, address, direction, rfl⟩
  | disconnected =>
    cases status with
    | disconnecting toBan => cases toBan <;> cases h
    | _ => cases h
  | disconnecting toBan => cases h
  | banned => cases status <;> cases h
  | dialing enr trusted =>
    cases status with
    | connected nIn nOut => exact .inr ⟨rfl, by simp⟩
    | _ => cases h
  | unbanned =>
    cases status with
    | connected nIn nOut => exact .inr ⟨rfl, by simp⟩
    | _ => cases h

/-- The score of a ban is well formed. -/
theorem Arm.wf_step_banned (s : Arm F) (now : Instant) (h : s.info.score.WF) :
    (s.step .banned now).info.score.WF := by
  have hscore : (s.step .banned now).info.score = (s.banScore .banned).info.score :=
    congrArg Prod.snd (s.scoring_step now (by simp))
  rw [hscore]
  unfold banScore
  simp only
  split
  · exact h
  · exact PeerInfo.wf_applyPeerActionToScore h .fatal

/-! ## Databases -/

namespace PeerDB

/-- Every score is well formed, and the connected peers with a banning score are pending. -/
def FitBut (pending : PeerId → Prop) (db : PeerDB F) : Prop :=
  ∀ p info, db.peerInfo p = some info → info.score.WF ∧
    (info.isConnected = true → info.scoreState = .banned → pending p)

/-- No connected peer has a banning score. -/
abbrev Fit (db : PeerDB F) : Prop := db.FitBut fun _ => False

variable {db : PeerDB F} {pending pending' : PeerId → Prop}

theorem FitBut.mono (h : db.FitBut pending) (hsub : ∀ p, pending p → pending' p) :
    db.FitBut pending' := by
  intro p info hp
  obtain ⟨hwf, hconn⟩ := h p info hp
  exact ⟨hwf, fun hc hb => hsub p (hconn hc hb)⟩

/-- A new entry for a peer whose score is well formed. -/
theorem FitBut.insert (h : db.FitBut pending) {p : PeerId} {info : PeerInfo F}
    (hwf : info.score.WF) (hp : info.isConnected = true → info.scoreState = .banned → pending p) :
    ({ db with peers := db.peers.insert p info } : PeerDB F).FitBut pending :=
  Entries.insert h ⟨hwf, hp⟩

/-- The entry of a peer has a well-formed score, and one that `or_insert_with` creates is
not connected. -/
theorem FitBut.entryOrInsert (h : db.FitBut pending) (p : PeerId) (st : NewConnectionState)
    (now : Instant) : (db.entryOrInsert p st now).score.WF ∧
      ((db.entryOrInsert p st now).isConnected = true →
        (db.entryOrInsert p st now).scoreState = .banned → pending p) := by
  refine Entries.entryOrInsert h p st now fun hp => ⟨?_, fun hconn => ?_⟩
  · unfold PeerDB.entryOrInsert
    rw [hp]
    cases st with
    | dialing enr trusted => cases trusted <;> first | exact RealScore.WF.defaultAt now | trivial
    | _ => exact RealScore.WF.defaultAt now
  · have hfresh := (entryOrInsert_of_none hp st now).1
    simp [PeerInfo.isConnected, hfresh] at hconn

/-- A change of the connection state answers for a peer that it bans, and needs a score
that does not ban for one that it connects. -/
theorem FitBut.updateConnectionState (h : db.FitBut pending) (p : PeerId)
    (st : NewConnectionState) (now : Instant)
    (hst : ∀ enr address direction, st = .connected enr address direction →
      (db.entryOrInsert p st now).scoreState ≠ .banned) :
    (db.updateConnectionState p st now).1.FitBut fun q => pending q ∧ (st = .banned → q ≠ p) := by
  obtain ⟨hwf, hconn⟩ := h.entryOrInsert p st now
  refine Entries.updateConnectionState h ?_ fun q info hqp ⟨hwf, hconn⟩ =>
    ⟨hwf, fun hc hb => ⟨hconn hc hb, fun _ => hqp⟩⟩
  have hstatus := Arm.step_status (db.arm (db.entryOrInsert p st now)) st now
  by_cases hban : st = .banned
  · subst hban
    refine ⟨Arm.wf_step_banned _ now hwf, fun hc _ => ?_⟩
    rw [PeerInfo.isConnected_eq, hstatus] at hc
    rcases PeerConnectionStatus.isConnected_next hc with ⟨_, _, _, hst⟩ | ⟨-, hne⟩
    · cases hst
    · exact absurd rfl hne
  · have hscore := Arm.score_step (db.arm (db.entryOrInsert p st now)) st now (.inl hban)
    refine ⟨hscore ▸ hwf, fun hc hb => ⟨?_, fun h => absurd h hban⟩⟩
    rw [PeerInfo.scoreState, hscore] at hb
    rw [PeerInfo.isConnected_eq, hstatus] at hc
    rcases PeerConnectionStatus.isConnected_next hc with ⟨_, _, _, heq⟩ | ⟨hc, -⟩
    · exact absurd hb (hst _ _ _ heq)
    · exact hconn hc hb

/-- Other changes of the connection state keep what is pending. -/
theorem FitBut.updateConnectionState_same (h : db.FitBut pending) (p : PeerId)
    (st : NewConnectionState) (now : Instant)
    (hst : ∀ enr address direction, st ≠ .connected enr address direction) :
    (db.updateConnectionState p st now).1.FitBut pending :=
  (h.updateConnectionState p st now fun enr address direction heq =>
    absurd heq (hst enr address direction)).mono fun _ hq => hq.1

/-! ### Scoring operations -/

/-- A report answers at once for the peer it is about. -/
theorem Fit.reportPeer (h : db.Fit) (p : PeerId) (action : PeerAction) (now : Instant) :
    (db.reportPeer p action now).1.Fit := by
  unfold PeerDB.reportPeer
  cases hp : db.peerInfo p with
  | none => exact h
  | some info =>
    obtain ⟨hwf, hconn⟩ := h p info hp
    have hscored : ({ db with peers := db.peers.insert p (info.applyPeerActionToScore action) } :
        PeerDB F).FitBut fun q => q = p ∧
          handleScoreTransition info.scoreState (info.applyPeerActionToScore action) = .banned := by
      refine FitBut.insert (h.mono fun _ => False.elim)
        (PeerInfo.wf_applyPeerActionToScore hwf action) fun hc hb => ⟨rfl, ?_⟩
      refine handleScoreTransition_banned hb fun hprevious => hconn ?_ hprevious
      rwa [PeerInfo.isConnected_of_unscored (info.unscored_applyPeerActionToScore action)] at hc
    simp only
    split
    · next ht =>
      refine (hscored.updateConnectionState p .banned now (by simp)).mono ?_
      exact fun q ⟨⟨hq, _⟩, hne⟩ => hne rfl hq
    · next ht =>
      refine FitBut.updateConnectionState_same ?_ p (.disconnecting false) now (by simp)
      exact hscored.mono fun q ⟨_, hq⟩ => by rw [ht] at hq; cases hq
    · next ht => exact hscored.mono fun q ⟨_, hq⟩ => by rw [ht] at hq; cases hq
    · next ht => exact hscored.mono fun q ⟨_, hq⟩ => by rw [ht] at hq; cases hq

theorem Fit.updateScores (h : db.Fit) (clock : Clock)
    (order : Shuffle (Map.Entry PeerId (PeerInfo F))) : (db.updateScores clock order).1.Fit := by
  have hdecay : ({ db with peers := db.peers.mapVal fun id info => info.scoreUpdate (clock id) } :
      PeerDB F).Fit := by
    refine Entries.mapVal h fun p i ⟨hwf, hconn⟩ => ?_
    refine ⟨PeerInfo.wf_scoreUpdate hwf _, fun hc hb => ?_⟩
    rw [PeerInfo.isConnected_of_unscored (i.unscored_scoreUpdate (clock p))] at hc
    exact PeerInfo.not_banned_scoreUpdate hwf (hconn hc) _ hb
  unfold PeerDB.updateScores
  refine foldl_rel (R := fun r r' : PeerDB F × List (PeerId × ScoreUpdateResult) =>
    r.1.Fit → r'.1.Fit) (fun _ h => h) (fun _ _ _ h k hr => k (h hr)) ?_ _ (_, []) hdecay
  exact fun r p hr => hr.updateConnectionState_same p .unbanned (clock p) (by simp)

/-- The first loop of `update_gossipsub_scores` collects the peers that need an answer. -/
theorem FitBut.setGossipsubScores {clock : Clock}
    {peers : List (Map.Entry PeerId (PeerInfo F) × F)}
    (hpeers : ∀ e ∈ peers, e.1.2.score.WF ∧ e.1.2.scoreState ≠ .banned) {toIgnore : ℕ}
    (h : db.FitBut pending) :
    (PeerDB.setGossipsubScores clock peers toIgnore db).1.FitBut fun q => pending q ∨
      (q, .banned) ∈ (PeerDB.setGossipsubScores clock peers toIgnore db).2 := by
  induction peers generalizing toIgnore db pending with
  | nil => exact h.mono fun _ => .inl
  | cons e peers ih =>
    obtain ⟨⟨p, info⟩, score⟩ := e
    obtain ⟨hwf, hnot⟩ := hpeers _ List.mem_cons_self
    rw [PeerDB.setGossipsubScores]
    generalize (decide (score < 0) && decide (0 < toIgnore)) = ignore
    generalize hnew : info.updateGossipsubScore score ignore (clock p) = info'
    have hins : ({ db with peers := db.peers.insert p info' } : PeerDB F).FitBut fun q =>
        pending q ∨ (q, .banned) = (p, handleScoreTransition info.scoreState info') := by
      refine FitBut.insert (h.mono fun _ => .inl) ?_ fun _ hb => .inr ?_
      · rw [← hnew]
        exact PeerInfo.wf_updateGossipsubScore hwf score ignore _
      · rw [handleScoreTransition_banned hb hnot]
    refine (ih (fun e he => hpeers e (List.mem_cons_of_mem _ he)) hins).mono fun q hq => ?_
    rcases hq with (hq | hq) | hq
    · exact .inl hq
    · exact .inr (List.mem_cons.2 (.inl hq))
    · exact .inr (List.mem_cons_of_mem _ hq)

/-- The second loop answers for each of them. -/
theorem FitBut.gossipsubRounds {clock : Clock} {actions : List (PeerId × ScoreTransitionResult)}
    {r : PeerDB F × List (PeerId × ScoreUpdateResult)}
    (h : r.1.FitBut fun q => (q, .banned) ∈ actions) :
    (actions.foldl (gossipsubRound clock) r).1.Fit := by
  induction actions generalizing r with
  | nil => exact h.mono fun q hq => by cases hq
  | cons a actions ih =>
    obtain ⟨p, action⟩ := a
    refine ih ?_
    unfold gossipsubRound gossipsubAction
    have hrest : action ≠ .banned → r.1.FitBut fun q => (q, .banned) ∈ actions := by
      intro hne
      refine h.mono fun q hq => (List.mem_cons.1 hq).resolve_left ?_
      rintro ⟨⟩
      exact hne rfl
    cases action with
    | banned =>
      refine (h.updateConnectionState p .banned (clock p) (by simp)).mono ?_
      rintro q ⟨hq, hne⟩
      refine (List.mem_cons.1 hq).resolve_left ?_
      rintro ⟨⟩
      exact hne rfl rfl
    | disconnected =>
      exact (hrest (by simp)).updateConnectionState_same p (.disconnecting false) _ (by simp)
    | noAction => exact hrest (by simp)
    | unbanned => exact (hrest (by simp)).updateConnectionState_same p .unbanned _ (by simp)

theorem Fit.updateGossipsubScores (h : db.Fit) (target : ℕ) (peerScore : PeerId → Option F)
    (clock : Clock) (order : Shuffle (Map.Entry PeerId (PeerInfo F))) :
    (db.updateGossipsubScores target peerScore clock order).1.Fit := by
  rw [updateGossipsubScores_eq]
  generalize ((F32.ofNat target).mul allowedNegativeGossipsubFactor).ceil = toIgnore
  refine FitBut.gossipsubRounds ((FitBut.setGossipsubScores ?_ h).mono fun q hq =>
    hq.resolve_left id)
  intro e he
  obtain ⟨hentry, hconn, -⟩ := mem_gossipsubPeers.1 he
  obtain ⟨hwf, hnot⟩ := h _ _ hentry
  exact ⟨hwf, hnot hconn⟩

/-! ### The other operations -/

theorem Fit.cleanupDialingPeers (h : db.Fit) (clock : Clock)
    (order : Shuffle (Map.Entry PeerId (PeerInfo F))) :
    (db.cleanupDialingPeers clock order).Fit :=
  foldl_rel (R := fun db db' : PeerDB F => db.Fit → db'.Fit) (fun _ h => h)
    (fun _ _ _ h k hr => k (h hr))
    (fun _ p h => h.updateConnectionState_same p .disconnected (clock p) (by simp)) _ db h

end PeerDB

/-- The peer that an operation connects. -/
def DbOp.connects : DbOp F → Option PeerId
  | .connectIngoing p _ _ _ | .connectOutgoing p _ _ _ => some p
  | _ => none

namespace PeerDB

variable {db : PeerDB F}

/-- A peer is let in only with a score that does not ban. -/
theorem Fit.connect (h : db.Fit) {p : PeerId} (hp : db.banStatus p ≠ .badScore)
    (st : NewConnectionState) (now : Instant) : (db.updateConnectionState p st now).1.Fit := by
  refine (h.updateConnectionState p st now fun enr address direction heq => ?_).mono
    fun _ hq => hq.1
  subst heq
  cases hinfo : db.peerInfo p with
  | some info =>
    rw [entryOrInsert_of_some hinfo]
    rwa [Ne, banStatus_eq_badScore_iff hinfo] at hp
  | none =>
    unfold PeerDB.entryOrInsert
    rw [hinfo]
    simp [PeerInfo.scoreState, PeerInfo.defaultAt, Score.defaultAt, Score.state_eq_banned_iff,
      RealScore.defaultAt, defaultScore, minScoreBeforeBan]

/-- **What an operation does to scores and connections**: no connected peer has a banning
score afterwards. -/
theorem Fit.step (h : db.Fit) {op : DbOp F}
    (hop : ∀ p, op.connects = some p → db.banStatus p ≠ .badScore) : (db.step op).Fit := by
  have hroutine : op.isRoutine = true → (db.step op).Fit := by
    refine Entries.step_routine (fun p info info' hv ⟨hwf, hconn⟩ => ?_)
      (fun p now => ⟨RealScore.WF.defaultAt now, fun hc => by cases hc⟩) h
    obtain ⟨hscoring, hstatus⟩ := Prod.mk.inj hv
    have hscore : info'.score = info.score := congrArg Prod.snd hscoring
    rw [PeerInfo.isConnected_eq] at hconn ⊢
    rw [PeerInfo.scoreState, hscore, hstatus]
    exact ⟨hwf, hconn⟩
  cases op with
  | connectIngoing p address enr now => exact h.connect (hop p rfl) _ now
  | connectOutgoing p address enr now => exact h.connect (hop p rfl) _ now
  | dialingPeer p enr trusted now => exact h.updateConnectionState_same p _ now (by simp)
  | notifyDisconnecting p toBan now => exact h.updateConnectionState_same p _ now (by simp)
  | injectDisconnect p now order =>
    have hclosed := h.updateConnectionState_same p .disconnected now (by simp)
    change (db.injectDisconnect p now order).1.Fit
    rw [injectDisconnect_fst]
    exact Entries.shrinkToFit hclosed order
  | reportPeer p action now => exact Fit.reportPeer h p action now
  | updateScores clock order => exact Fit.updateScores h clock order
  | updateGossipsubScores target peerScore clock order =>
    exact Fit.updateGossipsubScores h target peerScore clock order
  | cleanupDialingPeers clock order => exact Fit.cleanupDialingPeers h clock order
  | setUntrusted p => exact Entries.modifyPeer h fun _ hinfo => hinfo
  | _ => exact hroutine rfl

end PeerDB

/-! ## Runs of the peer manager -/

/-- The database operations that connect no peer with a banning score. -/
theorem connects_permissive :
    Permissive (fun (db : PeerDB F) op => ∀ p, op.connects = some p → db.banStatus p ≠ .badScore)
      (fun _ => True) := by
  refine ⟨fun db op hop p hp => ?_, fun db q now _ p hp => (nomatch hp), fun _ _ => trivial⟩
  cases op <;> first | exact hop.elim | cases hp

namespace System

theorem fit_step {s : System F} (h : s.pm.peerdb.Fit) (op : PmOp F) :
    (s.step op).pm.peerdb.Fit := by
  obtain ⟨es, -, hcalls⟩ := step_calls connects_permissive s op (by
    cases op with
    | injectConnectionEstablished p endpoint other now =>
      intro hban
      have hp : s.pm.peerdb.banStatus p ≠ .badScore := by simp [hban]
      refine ⟨fun _ q hq => (nomatch hq), fun _ _ _ q hq => ?_, fun _ _ _ q hq => ?_, trivial,
        trivial⟩
      · cases hq
        exact hp
      · cases hq
        exact hp
    | injectConnectionClosed p remaining now order =>
      exact fun _ => ⟨fun q hq => (nomatch hq), fun _ => trivial⟩
    | injectDialFailure p now order => exact fun _ _ _ q hq => nomatch hq
    | disconnectPeer p reason now => exact fun q hq => nomatch hq
    | removeTrusted p => exact fun q hq => nomatch hq
    | poll inp => exact fun p enr trusted _ q hq => nomatch hq
    | _ => trivial)
  exact hcalls.invariant (fun db op hdb hop => hdb.step hop) h

/-- **No connected peer has a banning score**, in every state of every run. -/
theorem connected_not_banned (targetPeers : ℕ) (discoveryEnabled : Bool)
    (ops : List (PmOp F)) :
    Throughout System.step
      (fun s => ∀ p info, s.pm.peerdb.peerInfo p = some info → info.isConnected = true →
        info.scoreState ≠ .banned)
      (System.new targetPeers discoveryEnabled) ops := by
  have hfit : Throughout System.step (fun s => s.pm.peerdb.Fit)
      (System.new targetPeers discoveryEnabled) ops :=
    throughout_of_step (fun s op h => fit_step h op) ops fun p info hp => by cases hp
  exact hfit.mono fun s h p info hp hconn hban => (h p info hp).2 hconn hban

end System

end Consentry
