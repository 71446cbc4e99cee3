import Consentry.Verify.Calls
import Consentry.Verify.Status
import Consentry.Verify.TrustScoring

/-!
# Established connections

A new connection is accepted, refused because there are too many peers, or answered by a
report of a `Fatal` action when the score or an address of the peer is banned. The events
of the three cases are `events_of_notBanned` and `events_of_banned`.

* **`PeerManager.handled_iff`**: the connection is registered or torn down unless the
  report finds nothing to change (`PeerDB.overlooks`).
* **`System.established_handled_iff`**: so it is in every state of every run.
-/

namespace Consentry

open Lib

/-- The event that announces a connection. -/
def ConnectedPoint.announcement (peerId : PeerId) : ConnectedPoint → PeerManagerEvent
  | listener _ => .peerConnectedIncoming peerId
  | dialer _ => .peerConnectedOutgoing peerId

namespace PeerManagerEvent

/-- The event announces a connection of the peer. -/
def announces (peerId : PeerId) : PeerManagerEvent → Bool
  | peerConnectedIncoming p | peerConnectedOutgoing p => p = peerId
  | _ => false

/-- The event makes the swarm drop the connection of the peer. -/
def tearsDown (peerId : PeerId) : PeerManagerEvent → Bool
  | disconnectPeer p _ | banned p _ => p = peerId
  | _ => false

end PeerManagerEvent

variable {F : Type} [ScoreArith F]

namespace PeerManager

/-- The events pushed between two states. -/
def pushed (pm pm' : PeerManager F) : List PeerManagerEvent :=
  pm'.events.drop pm.events.length

omit [ScoreArith F] in
theorem pushed_eq {pm pm' : PeerManager F} {es : List PeerManagerEvent}
    (h : pm'.events = pm.events ++ es) : pushed pm pm' = es := by
  rw [pushed, h, List.drop_left]

/-- The request for metadata that goes with the first connection of a peer. -/
def greeting (peerId : PeerId) (otherEstablished : ℕ) : List PeerManagerEvent :=
  if otherEstablished = 0 then [.metaData peerId] else []

omit [ScoreArith F] in
theorem push_greeting (pm : PeerManager F) (p : PeerId) (other : ℕ) :
    (if other = 0 then pm.push (.metaData p) else pm) =
      { pm with events := pm.events ++ greeting p other } := by
  unfold greeting
  split
  · rfl
  · rw [List.append_nil]

/-- A connection of a peer that is not banned is accepted or refused. -/
theorem injectConnectionEstablished_notBanned {pm : PeerManager F} {p : PeerId}
    (hban : pm.peerdb.banStatus p = .notBanned) (endpoint : ConnectedPoint) (other : ℕ)
    (now : Instant) :
    pm.injectConnectionEstablished p endpoint other now =
      if pm.tooManyPeers p endpoint now then
        { pm with events := pm.events ++ greeting p other }.disconnectPeer p .tooManyPeers now
      else { pm with events := pm.events ++ greeting p other }.register p endpoint now := by
  unfold injectConnectionEstablished
  rw [push_greeting]
  simp only [hban]
  rfl

/-- A connection of a banned peer is answered by a report. -/
theorem injectConnectionEstablished_banned {pm : PeerManager F} {p : PeerId}
    (hban : pm.peerdb.banStatus p ≠ .notBanned) (endpoint : ConnectedPoint) (other : ℕ)
    (now : Instant) :
    ∃ reason, pm.injectConnectionEstablished p endpoint other now =
      { pm with events := pm.events ++ greeting p other }.reportPeer p .fatal
        (some reason) now := by
  unfold injectConnectionEstablished
  rw [push_greeting]
  cases hstatus : pm.peerdb.banStatus p with
  | badScore =>
    refine ⟨.banned, ?_⟩
    simp only [hstatus]
    rfl
  | bannedIp ip =>
    refine ⟨.bannedIP, ?_⟩
    simp only [hstatus]
    rfl
  | notBanned => exact absurd hstatus hban

/-- What the events of a connection say of a peer that is not banned. -/
theorem events_of_notBanned {pm : PeerManager F} {p : PeerId}
    (hban : pm.peerdb.banStatus p = .notBanned) (endpoint : ConnectedPoint) (other : ℕ)
    (now : Instant) :
    (pm.injectConnectionEstablished p endpoint other now).events =
      pm.events ++ (greeting p other ++ [if pm.tooManyPeers p endpoint now then
        .disconnectPeer p .tooManyPeers else endpoint.announcement p]) := by
  rw [injectConnectionEstablished_notBanned hban, ← List.append_assoc]
  split
  · rfl
  · cases endpoint <;> rfl

theorem events_of_banned {pm : PeerManager F} {p : PeerId}
    (hban : pm.peerdb.banStatus p ≠ .notBanned) (endpoint : ConnectedPoint) (other : ℕ)
    (now : Instant) :
    ∃ reason, (pm.injectConnectionEstablished p endpoint other now).events =
      pm.events ++ (greeting p other ++
        scoreActionEvents p (some reason) (pm.peerdb.reportPeer p .fatal now).2) := by
  obtain ⟨reason, heq⟩ := injectConnectionEstablished_banned hban endpoint other now
  refine ⟨reason, ?_⟩
  rw [heq, ← List.append_assoc]
  exact (handleScoreAction_effect _ p _ (some reason)).2.1

end PeerManager

/-! ## The report of a `Fatal` action -/

namespace PeerDB

variable {db : PeerDB F} {p : PeerId} {info : PeerInfo F}

/-- The report that answers a connection finds nothing to change: the score is banned
already, or is not affected by reports, or the peer is being disconnected. -/
def overlooks (db : PeerDB F) (peerId : PeerId) : Bool :=
  match db.banStatus peerId with
  | .badScore => true
  | .bannedIp _ => (db.peerInfo peerId).elim false fun info =>
      info.isTrusted || info.score.isMax || info.isDisconnecting
  | .notBanned => false

/-- Banning a peer leads to an operation; only for a peer that is being disconnected there
is nothing to tell the swarm. -/
theorem updateConnectionState_banned_op (db : PeerDB F) (p : PeerId) (now : Instant) :
    ∃ op, (db.updateConnectionState p .banned now).2 = some op ∧
      (op = .peerDisconnecting ↔ ∃ toBan, db.status p = .disconnecting toBan) := by
  have hstatus :
      ((db.arm (db.entryOrInsert p .banned now)).banScore .banned).info.connectionStatus =
        db.status p := by
    rw [Arm.banScore_status, arm, entryOrInsert_connectionStatus]
  change ∃ op, (((db.arm (db.entryOrInsert p .banned now)).banScore .banned).toBanned
    now).banOperation = some op ∧ _
  unfold Arm.toBanned
  rw [hstatus]
  cases db.status p with
  | disconnecting toBan => exact ⟨_, rfl, fun _ => ⟨toBan, rfl⟩, fun _ => rfl⟩
  | _ =>
    refine ⟨_, rfl, fun h => ?_, fun h => ?_⟩
    · cases h
    · obtain ⟨toBan, h⟩ := h
      cases h

theorem exists_of_banStatus (h : db.banStatus p ≠ .notBanned) :
    ∃ info, db.peerInfo p = some info := by
  unfold banStatus at h
  cases hp : db.peerInfo p with
  | some info => exact ⟨info, rfl⟩
  | none =>
    rw [hp] at h
    exact absurd rfl h

theorem reportPeer_fatal_noAction (hp : db.peerInfo p = some info)
    (h : info.scoreState = .banned ∨ info.isTrusted = true ∨ info.score = .max) (now : Instant) :
    (db.reportPeer p .fatal now).2 = .noAction := by
  have hsame : (info.applyPeerActionToScore .fatal).scoreState = info.scoreState := by
    unfold PeerInfo.applyPeerActionToScore
    split
    · rcases h with h | h | h
      · obtain ⟨r, hr, hle⟩ := Score.state_eq_banned_iff.1 h
        rw [h]
        refine Score.state_eq_banned_iff.2 ⟨r.applyPeerAction .fatal, ?_, ?_⟩
        · simp only [hr]
          rfl
        · rw [RealScore.fatal_score, minScore, minScoreBeforeBan]
          norm_num
      · next hnot => simp [h] at hnot
      · unfold PeerInfo.scoreState
        rw [h]
        rfl
    · rfl
  unfold reportPeer
  rw [hp]
  simp only
  rw [← hsame, handleScoreTransition_self]

theorem reportPeer_fatal_ban (hp : db.peerInfo p = some info) (hnot : info.scoreState ≠ .banned)
    (htrusted : info.isTrusted = false) (hmax : info.score ≠ .max) (now : Instant) :
    ∃ op, (db.reportPeer p .fatal now).2 = .ban op ∧
      (op = .peerDisconnecting ↔ info.isDisconnecting = true) := by
  obtain ⟨r, hr⟩ : ∃ r, info.score = .real r := by
    cases hs : info.score with
    | max => exact absurd hs hmax
    | real r => exact ⟨r, rfl⟩
  have hbanned : (info.applyPeerActionToScore .fatal).scoreState = .banned := by
    refine Score.state_eq_banned_iff.2 ⟨r.applyPeerAction .fatal, ?_, ?_⟩
    · simp only [PeerInfo.applyPeerActionToScore, htrusted, hr]
      rfl
    · rw [RealScore.fatal_score, minScore, minScoreBeforeBan]
      norm_num
  have htransition := handleScoreTransition_banned hbanned hnot
  obtain ⟨op, hop, hdis⟩ := updateConnectionState_banned_op
    { db with peers := db.peers.insert p (info.applyPeerActionToScore .fatal) } p now
  refine ⟨op, ?_, ?_⟩
  · unfold reportPeer
    rw [hp]
    simp only [htransition, hop]
    rfl
  · have hstatus : ({ db with peers := db.peers.insert p (info.applyPeerActionToScore .fatal) } :
        PeerDB F).status p = info.connectionStatus := by
      rw [status, connectionStatus, peerInfo_insert, if_pos rfl]
      exact PeerInfo.connectionStatus_of_unscored (info.unscored_applyPeerActionToScore .fatal)
    rw [hdis, hstatus, PeerInfo.isDisconnecting]
    cases info.connectionStatus <;> simp

end PeerDB

/-! ## Registered or torn down -/

/-- The result of a report makes the swarm drop the connection. -/
def ScoreUpdateResult.tearsDown : ScoreUpdateResult → Bool
  | .ban op => op ≠ .peerDisconnecting
  | .disconnect => true
  | .unbanned _ | .noAction => false

omit [ScoreArith F] in
theorem tearsDown_scoreActionEvents {p : PeerId} {reason : Option GoodbyeReason}
    {r : ScoreUpdateResult} :
    (∃ e ∈ scoreActionEvents p reason r, e.tearsDown p = true) ↔ r.tearsDown = true := by
  cases r with
  | ban op =>
    cases op <;> simp [scoreActionEvents, banOperationEvents, PeerManagerEvent.tearsDown,
      ScoreUpdateResult.tearsDown]
  | _ => simp [scoreActionEvents, PeerManagerEvent.tearsDown, ScoreUpdateResult.tearsDown]

namespace PeerManager

/-- The first connection of the peer is registered and announced once, or the swarm is
told to drop it. -/
def Handled (pm : PeerManager F) (peerId : PeerId) (endpoint : ConnectedPoint)
    (now : Instant) : Prop :=
  let pm' := pm.injectConnectionEstablished peerId endpoint 0 now
  (pm'.peerdb.isConnected peerId = true ∧
      (pushed pm pm').countP (PeerManagerEvent.announces peerId) = 1) ∨
    ∃ e ∈ pushed pm pm', e.tearsDown peerId = true

theorem handled_of_notBanned {pm : PeerManager F} {p : PeerId}
    (hban : pm.peerdb.banStatus p = .notBanned) (endpoint : ConnectedPoint) (now : Instant) :
    pm.Handled p endpoint now := by
  have hpushed := pushed_eq (events_of_notBanned hban endpoint 0 now)
  unfold Handled
  simp only [hpushed]
  by_cases hmany : pm.tooManyPeers p endpoint now = true
  · right
    refine ⟨.disconnectPeer p .tooManyPeers, ?_, ?_⟩
    · simp [hmany]
    · simp [PeerManagerEvent.tearsDown]
  · left
    constructor
    · rw [injectConnectionEstablished_notBanned hban, if_neg hmany]
      cases endpoint with
      | listener address =>
        rw [PeerDB.isConnected_eq]
        change ((pm.peerdb.updateConnectionState p (.connected none address .incoming)
          now).1.status p).isConnected = true
        rw [PeerDB.updateConnectionState_status]
        cases pm.peerdb.status p <;> rfl
      | dialer address =>
        rw [PeerDB.isConnected_eq]
        change ((pm.peerdb.updateConnectionState p (.connected none address .outgoing)
          now).1.status p).isConnected = true
        rw [PeerDB.updateConnectionState_status]
        cases pm.peerdb.status p <;> rfl
    · rw [if_neg hmany]
      cases endpoint <;>
        simp [greeting, ConnectedPoint.announcement, PeerManagerEvent.announces]

/-- A connection that is answered by a report is handled when the report tears it down. -/
theorem handled_banned_iff {pm : PeerManager F} {p : PeerId}
    (hban : pm.peerdb.banStatus p ≠ .notBanned) (endpoint : ConnectedPoint) (now : Instant) :
    pm.Handled p endpoint now ↔ (pm.peerdb.reportPeer p .fatal now).2.tearsDown = true := by
  obtain ⟨reason, hevents⟩ := events_of_banned hban endpoint 0 now
  have hpushed := pushed_eq hevents
  have hsilent : (greeting p 0 ++ scoreActionEvents p (some reason)
      (pm.peerdb.reportPeer p .fatal now).2).countP (PeerManagerEvent.announces p) = 0 := by
    rw [List.countP_eq_zero]
    intro e he hannounces
    rcases List.mem_append.1 he with he | he
    · simp only [greeting, if_pos, List.mem_singleton] at he
      subst he
      cases hannounces
    · have hconn := scoreActionEvents_isConnection e he
      cases e <;> simp [PeerManagerEvent.announces, PeerManagerEvent.isConnection]
        at hannounces hconn
  rw [← tearsDown_scoreActionEvents]
  unfold Handled
  simp only [hpushed]
  constructor
  · rintro (⟨-, hcount⟩ | ⟨e, he, hdown⟩)
    · rw [hsilent] at hcount
      cases hcount
    · rcases List.mem_append.1 he with he | he
      · simp only [greeting, if_pos, List.mem_singleton] at he
        subst he
        cases hdown
      · exact ⟨e, he, hdown⟩
  · rintro ⟨e, he, hdown⟩
    exact .inr ⟨e, List.mem_append_right _ he, hdown⟩

/-- **A first connection is registered or torn down** unless the report that answers it
finds nothing to change. -/
theorem handled_iff (pm : PeerManager F) (p : PeerId) (endpoint : ConnectedPoint)
    (now : Instant) : pm.Handled p endpoint now ↔ pm.peerdb.overlooks p = false := by
  unfold PeerDB.overlooks
  cases hban : pm.peerdb.banStatus p with
  | notBanned => exact iff_of_true (handled_of_notBanned hban endpoint now) rfl
  | badScore =>
    have hne : pm.peerdb.banStatus p ≠ .notBanned := by simp [hban]
    rw [handled_banned_iff hne]
    obtain ⟨info, hinfo⟩ := PeerDB.exists_of_banStatus hne
    have hbanned := (PeerDB.banStatus_eq_badScore_iff hinfo).1 hban
    rw [PeerDB.reportPeer_fatal_noAction hinfo (.inl hbanned)]
    simp [ScoreUpdateResult.tearsDown]
  | bannedIp ip =>
    have hne : pm.peerdb.banStatus p ≠ .notBanned := by simp [hban]
    rw [handled_banned_iff hne]
    obtain ⟨info, hinfo⟩ := PeerDB.exists_of_banStatus hne
    have hnot : info.scoreState ≠ .banned := by
      rw [Ne, ← PeerDB.banStatus_eq_badScore_iff hinfo, hban]
      simp
    rw [hinfo]
    by_cases hexempt : info.isTrusted = true ∨ info.score = .max
    · rw [PeerDB.reportPeer_fatal_noAction hinfo (.inr hexempt)]
      rcases hexempt with h | h <;> simp [ScoreUpdateResult.tearsDown, Score.isMax, h]
    · obtain ⟨htrusted, hmax⟩ := not_or.1 hexempt
      rw [Bool.not_eq_true] at htrusted
      obtain ⟨op, hop, hdis⟩ := PeerDB.reportPeer_fatal_ban hinfo hnot htrusted hmax now
      have hmax' := Score.isMax_eq_false_iff.2 hmax
      rw [hop]
      simp [ScoreUpdateResult.tearsDown, htrusted, hmax', hdis]

end PeerManager

/-! ## Runs -/

namespace System

/-- In every state of every run, a first connection is registered or torn down exactly
when the report that answers it has something to change. -/
theorem established_handled_iff (targetPeers : ℕ) (discoveryEnabled : Bool)
    (ops : List (PmOp F)) :
    Throughout System.step
      (fun s => ∀ p endpoint now, s.pm.Handled p endpoint now ↔ s.pm.peerdb.overlooks p = false)
      (System.new targetPeers discoveryEnabled) ops :=
  throughout_of_step (fun s op _ p endpoint now => (s.step op).pm.handled_iff p endpoint now) ops
    fun p endpoint now => (System.new targetPeers discoveryEnabled).pm.handled_iff p endpoint now

/-- A peer that connects again after it has been banned. -/
theorem established_handled_fails :
    ¬ ∀ (targetPeers : ℕ) (discoveryEnabled : Bool) (ops : List (PmOp ℚ)),
      Throughout System.step (fun s => ∀ p endpoint now, s.pm.Handled p endpoint now)
        (System.new targetPeers discoveryEnabled) ops := by
  intro h
  have hlast := (h 10 false
    [.injectConnectionEstablished ⟨[1]⟩ (.listener [.ip4 1, .tcp 9000]) 0 0,
      .reportPeer ⟨[1]⟩ .fatal none 0, .injectConnectionClosed ⟨[1]⟩ 0 0 default]).last
      ⟨[1]⟩ (.listener [.ip4 1, .tcp 9000]) 0
  rw [PeerManager.handled_iff] at hlast
  revert hlast
  decide +kernel

end System

end Consentry
