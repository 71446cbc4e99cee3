import Consentry.Verify.ConnectedScores

/-!
# Actions worsen a score and decay improves it

**`score_states_ordered`**: the lighthouse part of a score stays within its limits, a peer action
moves the state of a score to no better one and decay to no worse one, in every state of every
run of a score. In every database the transitions that `report_peer` and `update_scores` drop do
not occur.

Below a lighthouse threshold the gossipsub part of a score is ignored, so the score itself is not
monotone in the lighthouse part. Its state is (`RealScore.combined_le`), since a score below the
threshold bans.
-/

namespace Consentry

open Lib

variable {F : Type} [ScoreArith F]

/-! ## The order of the states -/

/-- How good a state is. -/
def ScoreState.rank : ScoreState → ℕ
  | .banned => 0
  | .disconnected => 1
  | .healthy => 2

/-- A banned score is the worst and a healthy one the best. -/
instance : LE ScoreState := ⟨fun a b => a.rank ≤ b.rank⟩

theorem ScoreState.le_refl (a : ScoreState) : a ≤ a := Nat.le_refl a.rank

theorem Score.state_real (r : RealScore F) :
    (Score.real r).state = if r.score ≤ minScoreBeforeBan then .banned
      else if r.score ≤ minScoreBeforeDisconnect then .disconnected else .healthy := by
  have hcoe : ∀ bound : F, (Score.real r).score ≤ (bound : F) ↔ r.score ≤ bound :=
    fun bound => WithTop.coe_le_coe
  unfold state
  simp only [hcoe]

/-- The state does not fall when the score does not, and a banned one cannot fall. -/
theorem Score.state_le_state {r r' : RealScore F}
    (h : r.score ≤ minScoreBeforeBan ∨ r.score ≤ r'.score) :
    (Score.real r).state ≤ (Score.real r').state := by
  rw [state_real, state_real]
  by_cases hban : r.score ≤ minScoreBeforeBan
  · rw [if_pos hban]
    exact Nat.zero_le _
  · have hle : r.score ≤ r'.score := h.resolve_left hban
    have hban' : ¬ r'.score ≤ minScoreBeforeBan := fun h' => hban (hle.trans h')
    rw [if_neg hban, if_neg hban']
    by_cases hdisconnected : r'.score ≤ minScoreBeforeDisconnect
    · rw [if_pos (hle.trans hdisconnected), if_pos hdisconnected]
      exact ScoreState.le_refl _
    · rw [if_neg hdisconnected]
      split
      · exact Nat.le_succ 1
      · exact Nat.le_refl 2

/-! ## Real scores -/

namespace RealScore

/-- The score is well formed and its lighthouse part is not below the limit. -/
structure Lawful (s : RealScore F) : Prop extends s.WF where
  min_le : minScore ≤ s.lighthouseScore

theorem Lawful.updateState {s : RealScore F} (hmin : minScore ≤ s.lighthouseScore)
    (hmax : s.lighthouseScore ≤ 0) : s.updateState.Lawful :=
  ⟨WF.updateState hmax, by rwa [updateState_lighthouseScore]⟩

theorem Lawful.defaultAt (now : Instant) : (RealScore.defaultAt now : RealScore F).Lawful := by
  refine ⟨WF.defaultAt now, ?_⟩
  simp only [RealScore.defaultAt, defaultScore, minScore]
  linarith

/-- An action lowers the lighthouse part, within its limits. -/
theorem Lawful.applyPeerAction_eq {s : RealScore F} (h : s.Lawful) (action : PeerAction) :
    ∃ lighthouse, minScore ≤ lighthouse ∧ lighthouse ≤ s.lighthouseScore ∧
      s.applyPeerAction action = s.setLighthouseScore lighthouse := by
  have hmin := h.min_le
  have hnonpos := h.lighthouse_nonpos
  have hadd : ∀ x : F, x ≤ 0 → ∃ lighthouse, minScore ≤ lighthouse ∧
      lighthouse ≤ s.lighthouseScore ∧ s.add x = s.setLighthouseScore lighthouse := by
    intro x hx
    have hmax : ¬ (maxScore < s.lighthouseScore + x) := by
      unfold maxScore
      linarith
    refine ⟨_, ?_, ?_, rfl⟩
    · rw [if_neg hmax]
      split
      · exact le_refl _
      · next hge => exact not_lt.1 hge
    · rw [if_neg hmax]
      split
      · exact hmin
      · exact add_le_of_nonpos_right hx
  cases action with
  | fatal => exact ⟨minScore, le_refl _, hmin, rfl⟩
  | _ =>
    apply hadd
    linarith

theorem Lawful.applyPeerAction {s : RealScore F} (h : s.Lawful) (action : PeerAction) :
    (s.applyPeerAction action).Lawful := by
  obtain ⟨lighthouse, hmin, hle, heq⟩ := h.applyPeerAction_eq action
  rw [heq]
  exact Lawful.updateState hmin (hle.trans h.lighthouse_nonpos)

theorem Lawful.updateAt {s : RealScore F} (h : s.Lawful) (now : Instant) :
    (s.updateAt now).Lawful := by
  unfold RealScore.updateAt
  split
  · exact Lawful.updateState (h.min_le.trans (h.le_decay _))
      (mul_nonpos_of_nonpos_of_nonneg h.lighthouse_nonpos (ScoreArith.decay_nonneg _))
  · exact h

theorem Lawful.updateGossipsubScore {s : RealScore F} (h : s.Lawful) (newScore : F)
    (ignore : Bool) (now : Instant) : (s.updateGossipsubScore newScore ignore now).Lawful := by
  unfold RealScore.updateGossipsubScore
  split
  · exact Lawful.updateState h.min_le h.lighthouse_nonpos
  · exact h

/-- **An action never improves the state.** -/
theorem Lawful.applyPeerAction_le {s : RealScore F} (h : s.Lawful) (action : PeerAction) :
    (Score.real (s.applyPeerAction action)).state ≤ (Score.real s).state := by
  obtain ⟨lighthouse, -, hle, heq⟩ := h.applyPeerAction_eq action
  apply Score.state_le_state
  rw [heq, setLighthouseScore, updateState_score, h.score_eq]
  exact combined_le (t := s.lastUpdated) hle

/-- **Decay never worsens the state.** -/
theorem Lawful.updateAt_le {s : RealScore F} (h : s.Lawful) (now : Instant) :
    (Score.real s).state ≤ (Score.real (s.updateAt now)).state := by
  unfold RealScore.updateAt
  split
  · apply Score.state_le_state
    rw [updateState_score, h.score_eq]
    exact combined_le (h.le_decay _)
  · exact ScoreState.le_refl _

end RealScore

/-! ### Runs -/

/-- What happens to a score. -/
inductive ScoreOp (F : Type)
  | applyPeerAction (action : PeerAction)
  | updateAt (now : Instant)
  | updateGossipsubScore (newScore : F) (ignore : Bool) (now : Instant)

def RealScore.step (s : RealScore F) : ScoreOp F → RealScore F
  | .applyPeerAction action => s.applyPeerAction action
  | .updateAt now => s.updateAt now
  | .updateGossipsubScore newScore ignore now => s.updateGossipsubScore newScore ignore now

theorem RealScore.Lawful.step {s : RealScore F} (h : s.Lawful) (op : ScoreOp F) :
    (s.step op).Lawful := by
  cases op with
  | applyPeerAction action => exact h.applyPeerAction action
  | updateAt now => exact h.updateAt now
  | updateGossipsubScore newScore ignore now => exact h.updateGossipsubScore newScore ignore now

/-! ## Scores of peers -/

namespace Score

/-- A real score is lawful. -/
def Lawful : Score F → Prop
  | max => True
  | real s => s.Lawful

theorem Lawful.mapReal {s : Score F} (h : s.Lawful) {f : RealScore F → RealScore F}
    (hf : ∀ r : RealScore F, r.Lawful → (f r).Lawful) : (s.mapReal f).Lawful := by
  cases s with
  | max => trivial
  | real r => exact hf r h

theorem Lawful.applyPeerAction_le {s : Score F} (h : s.Lawful) (action : PeerAction) :
    (s.applyPeerAction action).state ≤ s.state := by
  cases s with
  | max => exact ScoreState.le_refl _
  | real r => exact RealScore.Lawful.applyPeerAction_le h action

theorem Lawful.updateAt_le {s : Score F} (h : s.Lawful) (now : Instant) :
    s.state ≤ (s.updateAt now).state := by
  cases s with
  | max => exact ScoreState.le_refl _
  | real r => exact RealScore.Lawful.updateAt_le h now

end Score

namespace PeerInfo

variable {info : PeerInfo F}

theorem applyPeerActionToScore_le (h : info.score.Lawful) (action : PeerAction) :
    (info.applyPeerActionToScore action).scoreState ≤ info.scoreState := by
  unfold applyPeerActionToScore
  split
  · exact h.applyPeerAction_le action
  · exact ScoreState.le_refl _

theorem scoreUpdate_le (h : info.score.Lawful) (now : Instant) :
    info.scoreState ≤ (info.scoreUpdate now).scoreState := by
  unfold scoreUpdate
  split
  · exact h.updateAt_le now
  · exact ScoreState.le_refl _

end PeerInfo

/-! ## Databases -/

/-- A property that the first score of a peer has and that scoring keeps. -/
structure Score.Kept (K : Score F → Prop) : Prop where
  max : K .max
  fresh : ∀ now, K (.defaultAt now)
  applyPeerAction : ∀ {s : Score F} action, K s → K (s.applyPeerAction action)
  updateAt : ∀ {s : Score F} now, K s → K (s.updateAt now)
  updateGossipsubScore : ∀ {s : Score F} newScore ignore now, K s →
    K (s.updateGossipsubScore newScore ignore now)

theorem Score.lawful_kept : Score.Kept (Score.Lawful : Score F → Prop) where
  max := trivial
  fresh now := RealScore.Lawful.defaultAt now
  applyPeerAction action h := h.mapReal fun _ hr => hr.applyPeerAction action
  updateAt now h := h.mapReal fun _ hr => hr.updateAt now
  updateGossipsubScore newScore ignore now h :=
    h.mapReal fun _ hr => hr.updateGossipsubScore newScore ignore now

namespace PeerDB

variable {db : PeerDB F} {K : Score F → Prop}

/-- Every score in the database has the property. -/
abbrev Scores (K : Score F → Prop) (db : PeerDB F) : Prop := db.Entries fun _ info => K info.score

theorem kept_applyPeerActionToScore (hK : Score.Kept K) {info : PeerInfo F} (h : K info.score)
    (action : PeerAction) : K (info.applyPeerActionToScore action).score := by
  unfold PeerInfo.applyPeerActionToScore
  split
  · exact hK.applyPeerAction action h
  · exact h

/-- Of the changes of the connection state only a ban changes the score. -/
theorem Scores.updateConnectionState (hK : Score.Kept K) (h : db.Scores K) (p : PeerId)
    (st : NewConnectionState) (now : Instant) : (db.updateConnectionState p st now).1.Scores K := by
  have hentry : K (db.entryOrInsert p st now).score := by
    refine Entries.entryOrInsert h p st now fun hp => ?_
    unfold PeerDB.entryOrInsert
    rw [hp]
    cases st with
    | dialing enr trusted =>
      cases trusted with
      | true => exact hK.max
      | false => exact hK.fresh now
    | _ => exact hK.fresh now
  refine Entries.updateConnectionState h ?_ fun _ _ _ hinfo => hinfo
  by_cases hban : st = .banned
  · subst hban
    have hscore : ((db.arm (db.entryOrInsert p .banned now)).step .banned now).info.score =
        ((db.arm (db.entryOrInsert p .banned now)).banScore .banned).info.score :=
      congrArg Prod.snd (Arm.scoring_step _ now (by simp))
    rw [hscore]
    unfold Arm.banScore
    simp only
    split
    · exact hentry
    · exact kept_applyPeerActionToScore hK hentry .fatal
  · rw [Arm.score_step _ st now (.inl hban)]
    exact hentry

theorem Scores.reportPeer (hK : Score.Kept K) (h : db.Scores K) (p : PeerId)
    (action : PeerAction) (now : Instant) : (db.reportPeer p action now).1.Scores K := by
  unfold PeerDB.reportPeer
  cases hp : db.peerInfo p with
  | none => exact h
  | some info =>
    have hscored : ({ db with peers := db.peers.insert p (info.applyPeerActionToScore action) } :
        PeerDB F).Scores K :=
      Entries.insert h (kept_applyPeerActionToScore hK (h p info hp) action)
    simp only
    split
    · exact Scores.updateConnectionState hK hscored p .banned now
    · exact Scores.updateConnectionState hK hscored p (.disconnecting false) now
    · exact hscored
    · exact hscored

theorem Scores.updateScores (hK : Score.Kept K) (h : db.Scores K) (clock : Clock)
    (order : Shuffle (Map.Entry PeerId (PeerInfo F))) :
    (db.updateScores clock order).1.Scores K := by
  have hdecay : ({ db with peers := db.peers.mapVal fun id info => info.scoreUpdate (clock id) } :
      PeerDB F).Scores K := by
    refine Entries.mapVal h fun p info hinfo => ?_
    unfold PeerInfo.scoreUpdate
    split
    · exact hK.updateAt (clock p) hinfo
    · exact hinfo
  unfold PeerDB.updateScores
  refine foldl_rel (R := fun r r' : PeerDB F × List (PeerId × ScoreUpdateResult) =>
    r.1.Scores K → r'.1.Scores K) (fun _ h => h) (fun _ _ _ h k hr => k (h hr)) ?_ _ (_, []) hdecay
  exact fun r p hr => Scores.updateConnectionState hK hr p .unbanned (clock p)

theorem Scores.setGossipsubScores (hK : Score.Kept K) {clock : Clock}
    {peers : List (Map.Entry PeerId (PeerInfo F) × F)} (hpeers : ∀ e ∈ peers, K e.1.2.score)
    {toIgnore : ℕ} (h : db.Scores K) :
    (PeerDB.setGossipsubScores clock peers toIgnore db).1.Scores K := by
  induction peers generalizing toIgnore db with
  | nil => exact h
  | cons e peers ih =>
    obtain ⟨⟨p, info⟩, score⟩ := e
    rw [PeerDB.setGossipsubScores]
    exact ih (fun e he => hpeers e (List.mem_cons_of_mem _ he))
      (Entries.insert h (hK.updateGossipsubScore _ _ _ (hpeers _ List.mem_cons_self)))

theorem Scores.updateGossipsubScores (hK : Score.Kept K) (h : db.Scores K) (target : ℕ)
    (peerScore : PeerId → Option F) (clock : Clock)
    (order : Shuffle (Map.Entry PeerId (PeerInfo F))) :
    (db.updateGossipsubScores target peerScore clock order).1.Scores K := by
  rw [updateGossipsubScores_eq]
  generalize ((F32.ofNat target).mul allowedNegativeGossipsubFactor).ceil = toIgnore
  have hset : (PeerDB.setGossipsubScores clock (db.gossipsubPeers peerScore order) toIgnore
      db).1.Scores K :=
    Scores.setGossipsubScores hK (fun e he => h _ _ (mem_gossipsubPeers.1 he).1) h
  refine foldl_rel (R := fun r r' : PeerDB F × List (PeerId × ScoreUpdateResult) =>
    r.1.Scores K → r'.1.Scores K) (fun _ h => h) (fun _ _ _ h k hr => k (h hr)) ?_ _ (_, []) hset
  intro r a hr
  unfold gossipsubRound gossipsubAction
  cases a.2 with
  | banned => exact Scores.updateConnectionState hK hr a.1 .banned (clock a.1)
  | disconnected => exact Scores.updateConnectionState hK hr a.1 (.disconnecting false) (clock a.1)
  | noAction => exact hr
  | unbanned => exact Scores.updateConnectionState hK hr a.1 .unbanned (clock a.1)

/-- **What scoring keeps holds of every score in the database**, whatever is done to it. -/
theorem Scores.step (hK : Score.Kept K) (h : db.Scores K) (op : DbOp F) :
    (db.step op).Scores K := by
  have hroutine : op.isRoutine = true → (db.step op).Scores K := by
    refine Entries.step_routine (fun p info info' hv hinfo => ?_) (fun p now => hK.fresh now) h
    have hscore : info'.score = info.score := congrArg Prod.snd (Prod.mk.inj hv).1
    rwa [hscore]
  cases op with
  | connectIngoing p address enr now => exact Scores.updateConnectionState hK h p _ now
  | connectOutgoing p address enr now => exact Scores.updateConnectionState hK h p _ now
  | dialingPeer p enr trusted now => exact Scores.updateConnectionState hK h p _ now
  | notifyDisconnecting p toBan now => exact Scores.updateConnectionState hK h p _ now
  | injectDisconnect p now order =>
    have hclosed := Scores.updateConnectionState hK h p .disconnected now
    change (db.injectDisconnect p now order).1.Scores K
    rw [injectDisconnect_fst]
    exact Entries.shrinkToFit hclosed order
  | reportPeer p action now => exact Scores.reportPeer hK h p action now
  | updateScores clock order => exact Scores.updateScores hK h clock order
  | updateGossipsubScores target peerScore clock order =>
    exact Scores.updateGossipsubScores hK h target peerScore clock order
  | cleanupDialingPeers clock order =>
    exact foldl_rel (R := fun db db' : PeerDB F => db.Scores K → db'.Scores K) (fun _ h => h)
      (fun _ _ _ h k hr => k (h hr))
      (fun _ p h => Scores.updateConnectionState hK h p .disconnected (clock p)) _ db h
  | setUntrusted p => exact Entries.modifyPeer h fun _ hinfo => hinfo
  | _ => exact hroutine rfl

/-! ### Score transitions -/

/-- A peer whose score has not improved is not unbanned. -/
theorem handleScoreTransition_ne_unbanned {previous : ScoreState} {info : PeerInfo F}
    (h : info.scoreState ≤ previous) : handleScoreTransition previous info ≠ .unbanned := by
  unfold handleScoreTransition
  generalize info.scoreState = state at h
  cases state with
  | banned => cases previous <;> simp
  | disconnected =>
    cases previous with
    | banned => exact absurd h (by decide)
    | disconnected => simp
    | healthy => by_cases hconn : info.isConnectedOrDialing = true <;> simp [hconn]
  | healthy =>
    cases previous with
    | healthy => simp
    | banned | disconnected => exact absurd h (by decide)

/-- A peer whose score has not worsened is not banned, and not disconnected if its score was
healthy. -/
theorem handleScoreTransition_of_le {previous : ScoreState} {info : PeerInfo F}
    (h : previous ≤ info.scoreState) :
    handleScoreTransition previous info ≠ .banned ∧
      (previous = .healthy → handleScoreTransition previous info ≠ .disconnected) := by
  constructor
  · intro hban
    obtain ⟨hbanned, hprevious⟩ := handleScoreTransition_eq_banned hban
    rw [hbanned] at h
    cases previous with
    | banned => exact hprevious rfl
    | disconnected | healthy => exact absurd h (by decide)
  · rintro rfl
    unfold handleScoreTransition
    generalize info.scoreState = state at h
    cases state with
    | healthy => simp
    | banned | disconnected => exact absurd h (by decide)

/-- The transitions that `report_peer` and `update_scores` drop do not occur for a peer. -/
structure NoDroppedTransition (info : PeerInfo F) : Prop where
  report : ∀ action,
    handleScoreTransition info.scoreState (info.applyPeerActionToScore action) ≠ .unbanned
  decayBanned : ∀ now, handleScoreTransition info.scoreState (info.scoreUpdate now) ≠ .banned
  decayDisconnected : ∀ now, info.scoreState = .healthy →
    handleScoreTransition info.scoreState (info.scoreUpdate now) ≠ .disconnected

theorem noDroppedTransition {info : PeerInfo F} (h : info.score.Lawful) :
    NoDroppedTransition info where
  report action := handleScoreTransition_ne_unbanned (info.applyPeerActionToScore_le h action)
  decayBanned now := (handleScoreTransition_of_le (info.scoreUpdate_le h now)).1
  decayDisconnected now := (handleScoreTransition_of_le (info.scoreUpdate_le h now)).2

end PeerDB

/-- **Actions only worsen a score state and decay only improves it**, in every state of every run
of a score, and the transitions that are dropped do not occur in any database. -/
theorem score_states_ordered :
    (∀ (created : Instant) (ops : List (ScoreOp F)), Throughout RealScore.step
      (fun s => (minScore ≤ s.lighthouseScore ∧ s.lighthouseScore ≤ 0) ∧
        (∀ action, (Score.real (s.applyPeerAction action)).state ≤ (Score.real s).state) ∧
        ∀ now, (Score.real s).state ≤ (Score.real (s.updateAt now)).state)
      (RealScore.defaultAt created) ops) ∧
    ∀ ops : List (DbOp F), Throughout PeerDB.step
      (fun db => ∀ p info, db.peerInfo p = some info → PeerDB.NoDroppedTransition info)
      PeerDB.empty ops := by
  constructor
  · intro created ops
    have hlawful : Throughout RealScore.step RealScore.Lawful (RealScore.defaultAt created) ops :=
      throughout_of_step (fun s op h => h.step op) ops (RealScore.Lawful.defaultAt created)
    exact hlawful.mono fun s h => ⟨⟨h.min_le, h.lighthouse_nonpos⟩, h.applyPeerAction_le,
      h.updateAt_le⟩
  · intro ops
    have hscores : Throughout PeerDB.step (PeerDB.Scores Score.Lawful) PeerDB.empty ops :=
      throughout_of_step (fun db op h => PeerDB.Scores.step Score.lawful_kept h op) ops
        fun p info hp => by cases hp
    exact hscores.mono fun db h p info hp => PeerDB.noDroppedTransition (h p info hp)

end Consentry
