import Consentry.Sentry
import Consentry.Verify.ConnectedScores

/-!
# Bans that can be lifted

A ban is lifted when the score leaves the banned state, so a banned peer must have a
banning score. `PeerDB.LiftableBut pending` says this of all banned peers but the `pending`
ones, which decay has lifted out of the banned state and which are still to be unbanned.

A ban that waits for the end of a connection can lapse: the score may recover before the
connection ends, and the peer is banned all the same (`injectDisconnect_lapsed`).
**`System.bans_lift`**: this is the only way in which a ban becomes permanent.
-/

namespace Consentry

open Lib

variable {F : Type} [ScoreArith F]

/-! ## Single entries -/

/-- A status is banned after `update_connection_state` because the peer was banned, was to
be banned at the end of its connection, or is disconnected and banned now. -/
theorem PeerConnectionStatus.next_banned {now since : Instant} {st : NewConnectionState}
    {status : PeerConnectionStatus} (h : status.next now st = .banned since) :
    st = .banned ∨ (st = .disconnected ∧
      ((∃ t, status = .banned t) ∨ status = .disconnecting true)) := by
  cases st with
  | connected enr address direction => cases direction <;> cases status <;> cases h
  | dialing enr trusted => cases status <;> cases h
  | disconnected =>
    refine .inr ⟨rfl, ?_⟩
    cases status with
    | banned t => exact .inl ⟨t, rfl⟩
    | disconnecting toBan =>
      cases toBan with
      | true => exact .inr rfl
      | false => cases h
    | _ => cases h
  | disconnecting toBan => cases h
  | banned => exact .inl rfl
  | unbanned => cases status <;> cases h

namespace PeerInfo

omit [ScoreArith F] in
theorem isBanned_iff {info : PeerInfo F} :
    info.isBanned = true ↔ ∃ since, info.connectionStatus = .banned since := by
  unfold isBanned
  cases info.connectionStatus <;> simp

/-- An untrusted peer with a well-formed score, which bans if the peer is banned, or the
peer is `pending`. -/
structure Liftable (pending : Prop) (info : PeerInfo F) : Prop where
  wf : info.score.WF
  standing : info.standing = (false, false)
  lift : info.isBanned = true → info.scoreState = .banned ∨ pending

variable {info info' : PeerInfo F} {pending pending' : Prop}

theorem Liftable.mono (h : info.Liftable pending) (hsub : pending → pending') :
    info.Liftable pending' :=
  ⟨h.wf, h.standing, fun hban => (h.lift hban).imp_right hsub⟩

theorem Liftable.defaultAt (now : Instant) :
    (PeerInfo.defaultAt now : PeerInfo F).Liftable pending :=
  ⟨RealScore.WF.defaultAt now, rfl, fun h => by cases h⟩

/-- It depends on the vitals of the peer only. -/
theorem Liftable.congr (hv : info'.vitals = info.vitals) (h : info.Liftable pending) :
    info'.Liftable pending := by
  obtain ⟨hscoring, hstatus⟩ := Prod.mk.inj hv
  have hscore : info'.score = info.score := congrArg Prod.snd hscoring
  refine ⟨hscore ▸ h.wf, ?_, fun hban => ?_⟩
  · rw [standing_eq, hscoring, ← standing_eq]
    exact h.standing
  · rw [isBanned_iff, hstatus, ← isBanned_iff] at hban
    rw [scoreState, hscore]
    exact h.lift hban

/-- A change of the score only. -/
theorem Liftable.rescore (h : info.Liftable pending) (hu : info'.unscored = info.unscored)
    (hwf : info'.score.WF) (hlift : info.isBanned = true → info'.scoreState = .banned ∨ pending') :
    info'.Liftable pending' := by
  refine ⟨hwf, ?_, fun hban => ?_⟩
  · rw [← standing_unscored, hu, standing_unscored]
    exact h.standing
  · rw [isBanned_iff, connectionStatus_of_unscored hu, ← isBanned_iff] at hban
    exact hlift hban

theorem applyPeerActionToScore_banned (hwf : info.score.WF) (hban : info.scoreState = .banned)
    (action : PeerAction) : (info.applyPeerActionToScore action).scoreState = .banned := by
  unfold applyPeerActionToScore
  split
  · obtain ⟨r, hr, hle⟩ := Score.state_eq_banned_iff.1 hban
    rw [hr] at hwf
    refine Score.state_eq_banned_iff.2 ⟨r.applyPeerAction action, ?_, ?_⟩
    · change info.score.applyPeerAction action = _
      rw [hr]
      rfl
    · exact RealScore.WF.applyPeerAction_banned hwf hle action
  · exact hban

/-- A fatal action bans an untrusted peer. -/
theorem applyPeerActionToScore_fatal (h : info.standing = (false, false)) :
    (info.applyPeerActionToScore .fatal).scoreState = .banned := by
  obtain ⟨htrust, hmax⟩ := Prod.mk.inj h
  unfold applyPeerActionToScore
  rw [htrust]
  refine Score.state_eq_banned_iff.2 ?_
  cases hscore : info.score with
  | max =>
    rw [hscore] at hmax
    cases hmax
  | real r =>
    refine ⟨r.applyPeerAction .fatal, by simp [Score.applyPeerAction, Score.mapReal], ?_⟩
    rw [RealScore.fatal_score]
    unfold minScore minScoreBeforeBan
    linarith

end PeerInfo

/-- A ban leaves an untrusted peer with a banning score. -/
theorem Arm.scoreState_step_banned {s : Arm F} (h : s.info.standing = (false, false))
    (now : Instant) : (s.step .banned now).info.scoreState = .banned := by
  have hscore : (s.step .banned now).info.score = (s.banScore .banned).info.score :=
    congrArg Prod.snd (s.scoring_step now (by simp))
  rw [PeerInfo.scoreState, hscore]
  unfold banScore
  simp only
  split
  · next hban => exact hban
  · exact PeerInfo.applyPeerActionToScore_fatal h

namespace PeerDB

/-- The peer is to be banned at the end of its connection, and its score has recovered. -/
def banLapsed (db : PeerDB F) (peerId : PeerId) : Bool :=
  (db.peerInfo peerId).elim false fun info =>
    decide (info.connectionStatus = .disconnecting true) && decide (info.scoreState ≠ .banned)

theorem banLapsed_iff {db : PeerDB F} {p : PeerId} {info : PeerInfo F}
    (hp : db.peerInfo p = some info) :
    db.banLapsed p = true ↔
      info.connectionStatus = .disconnecting true ∧ info.scoreState ≠ .banned := by
  unfold banLapsed
  rw [hp, Option.elim_some, Bool.and_eq_true, decide_eq_true_iff, decide_eq_true_iff]

/-! ## Databases -/

/-- The banned peers have a banning score, apart from the pending ones. -/
def LiftableBut (pending : PeerId → Prop) : PeerDB F → Prop :=
  Entries fun p info => info.Liftable (pending p)

/-- Every banned peer has a banning score. -/
abbrev Liftable : PeerDB F → Prop := LiftableBut fun _ => False

variable {db : PeerDB F} {pending pending' : PeerId → Prop}

theorem LiftableBut.mono (h : db.LiftableBut pending) (hsub : ∀ p, pending p → pending' p) :
    db.LiftableBut pending' :=
  Entries.mono h fun p _ hinfo => hinfo.mono (hsub p)

theorem LiftableBut.entryOrInsert (h : db.LiftableBut pending) (p : PeerId)
    {st : NewConnectionState} (now : Instant) (hst : ∀ enr, st ≠ .dialing enr true) :
    (db.entryOrInsert p st now).Liftable (pending p) := by
  refine Entries.entryOrInsert h p st now fun hp => ?_
  unfold PeerDB.entryOrInsert
  rw [hp]
  cases st with
  | dialing enr trusted =>
    cases trusted with
    | true => exact absurd rfl (hst enr)
    | false => exact .defaultAt now
  | _ => exact .defaultAt now

/-- A change of the connection state resolves the peer that it unbans. It keeps the rest,
unless it ends a connection of a peer whose ban has lapsed. -/
theorem LiftableBut.updateConnectionState (h : db.LiftableBut pending) (p : PeerId)
    (st : NewConnectionState) (now : Instant) (hst : ∀ enr, st ≠ .dialing enr true)
    (hclose : st = .disconnected → db.banLapsed p = false) :
    (db.updateConnectionState p st now).1.LiftableBut
      fun q => pending q ∧ (st = .unbanned → q ≠ p) := by
  have hentry := h.entryOrInsert p now hst
  refine Entries.updateConnectionState h ?_ fun q info hqp hinfo =>
    hinfo.mono fun hq => ⟨hq, fun _ => hqp⟩
  have hstanding := Arm.standing_step (db.arm (db.entryOrInsert p st now)) now hst
  refine ⟨?_, hstanding.trans hentry.standing, fun hban => ?_⟩
  · by_cases hbanned : st = .banned
    · rw [hbanned] at hentry ⊢
      exact Arm.wf_step_banned _ now hentry.wf
    · rw [Arm.score_step _ st now (.inl hbanned)]
      exact hentry.wf
  · obtain ⟨since, hs⟩ := PeerInfo.isBanned_iff.1 hban
    rw [Arm.step_status] at hs
    rcases PeerConnectionStatus.next_banned hs with rfl | ⟨rfl, hs⟩
    · exact .inl (Arm.scoreState_step_banned hentry.standing now)
    · rw [PeerInfo.scoreState, Arm.score_step _ _ now (.inl (by simp))]
      rcases hs with ⟨t, ht⟩ | ht
      · refine (hentry.lift (PeerInfo.isBanned_iff.2 ⟨t, ht⟩)).imp_right fun hp => ⟨hp, ?_⟩
        intro heq
        cases heq
      · left
        have hlapsed := hclose rfl
        cases hp : db.peerInfo p with
        | none =>
          have hfresh := (entryOrInsert_of_none hp .disconnected now).1
          rw [arm, hfresh] at ht
          cases ht
        | some info =>
          rw [arm, entryOrInsert_of_some hp] at ht ⊢
          by_contra hscore
          rw [(banLapsed_iff hp).2 ⟨ht, hscore⟩] at hlapsed
          cases hlapsed

/-- The changes that end no connection. -/
theorem LiftableBut.updateConnectionState_same (h : db.LiftableBut pending) (p : PeerId)
    (st : NewConnectionState) (now : Instant) (hst : ∀ enr, st ≠ .dialing enr true)
    (hopen : st ≠ .disconnected) : (db.updateConnectionState p st now).1.LiftableBut pending :=
  (h.updateConnectionState p st now hst fun heq => absurd heq hopen).mono fun _ hq => hq.1

/-! ### Scoring operations -/

theorem Liftable.reportPeer (h : db.Liftable) (p : PeerId) (action : PeerAction) (now : Instant) :
    (db.reportPeer p action now).1.Liftable := by
  unfold PeerDB.reportPeer
  cases hp : db.peerInfo p with
  | none => exact h
  | some info =>
    have hinfo := h p info hp
    have hscored : ({ db with peers := db.peers.insert p (info.applyPeerActionToScore action) } :
        PeerDB F).Liftable := by
      refine Entries.insert h (hinfo.rescore (info.unscored_applyPeerActionToScore action)
        (PeerInfo.wf_applyPeerActionToScore hinfo.wf action) fun hban => .inl ?_)
      have hbanned := (hinfo.lift hban).resolve_right id
      exact PeerInfo.applyPeerActionToScore_banned hinfo.wf hbanned action
    simp only
    split
    · exact hscored.updateConnectionState_same p _ now (by simp) (by simp)
    · exact hscored.updateConnectionState_same p _ now (by simp) (by simp)
    · exact hscored
    · exact hscored

theorem handleScoreTransition_unbanned {info : PeerInfo F} (h : info.scoreState ≠ .banned)
    (hopen : info.isConnectedOrDialing = false) :
    handleScoreTransition .banned info = .unbanned := by
  unfold handleScoreTransition
  cases hs : info.scoreState with
  | banned => exact absurd hs h
  | disconnected => simp [hopen]
  | healthy => rfl

/-- Each round of the loop unbans the first of the pending peers. -/
theorem LiftableBut.unbanRounds {ps : List PeerId} (h : db.LiftableBut (· ∈ ps)) (clock : Clock)
    (acc : List (PeerId × ScoreUpdateResult)) :
    (ps.foldl (fun (r : PeerDB F × List (PeerId × ScoreUpdateResult)) p =>
      ((r.1.unbanPeer p (clock p)).1, r.2 ++ [(p, (r.1.unbanPeer p (clock p)).2)]))
      (db, acc)).1.Liftable := by
  induction ps generalizing db acc with
  | nil => exact h.mono fun q hq => by cases hq
  | cons p ps ih =>
    have hround := h.updateConnectionState p .unbanned (clock p) (by simp) (by simp)
    refine ih (hround.mono ?_) _
    exact fun q ⟨hq, hne⟩ => (List.mem_cons.1 hq).resolve_left (hne rfl)

/-- **Decay** unbans every banned peer whose score it lifts. -/
theorem Liftable.updateScores (h : db.Liftable) (clock : Clock)
    (order : Shuffle (Map.Entry PeerId (PeerInfo F))) :
    (db.updateScores clock order).1.Liftable := by
  unfold PeerDB.updateScores
  generalize hps : (order.run db.peers.entries).filterMap _ = ps
  have hdecay : ({ db with peers := db.peers.mapVal fun id info => info.scoreUpdate (clock id) } :
      PeerDB F).LiftableBut (· ∈ ps) := by
    refine Entries.mapVal (I := fun p info => db.peerInfo p = some info ∧ info.Liftable False)
      (fun p info hp => ⟨hp, h p info hp⟩) fun p info ⟨hp, hinfo⟩ => ?_
    refine hinfo.rescore (info.unscored_scoreUpdate (clock p))
      (PeerInfo.wf_scoreUpdate hinfo.wf _) fun hban => ?_
    by_cases hnew : (info.scoreUpdate (clock p)).scoreState = .banned
    · exact .inl hnew
    · right
      have hopen : (info.scoreUpdate (clock p)).isConnectedOrDialing = false := by
        obtain ⟨since, hs⟩ := PeerInfo.isBanned_iff.1 hban
        have hstatus := PeerInfo.connectionStatus_of_unscored (info.unscored_scoreUpdate (clock p))
        simp [PeerInfo.isConnectedOrDialing, PeerInfo.isConnected, PeerInfo.isDialing, hstatus, hs]
      rw [← hps]
      refine List.mem_filterMap.2 ⟨⟨p, info⟩, ?_, ?_⟩
      · rw [Shuffle.mem_run]
        exact Map.mem_entries_iff.2 hp
      · simp only
        rw [(hinfo.lift hban).resolve_right id, handleScoreTransition_unbanned hnew hopen]
  exact hdecay.unbanRounds clock []

theorem Liftable.setGossipsubScores {clock : Clock}
    {peers : List (Map.Entry PeerId (PeerInfo F) × F)}
    (hpeers : ∀ e ∈ peers, e.1.2.Liftable False ∧ e.1.2.isBanned = false) {toIgnore : ℕ}
    (h : db.Liftable) : (PeerDB.setGossipsubScores clock peers toIgnore db).1.Liftable := by
  induction peers generalizing toIgnore db with
  | nil => exact h
  | cons e peers ih =>
    obtain ⟨⟨p, info⟩, score⟩ := e
    obtain ⟨hinfo, hnot⟩ := hpeers _ List.mem_cons_self
    refine ih (fun e he => hpeers e (List.mem_cons_of_mem _ he)) (Entries.insert h ?_)
    refine hinfo.rescore (info.unscored_updateGossipsubScore _ _ _)
      (PeerInfo.wf_updateGossipsubScore hinfo.wf _ _ _) fun hban => ?_
    rw [hnot] at hban
    cases hban

theorem Liftable.updateGossipsubScores (h : db.Liftable) (target : ℕ)
    (peerScore : PeerId → Option F) (clock : Clock)
    (order : Shuffle (Map.Entry PeerId (PeerInfo F))) :
    (db.updateGossipsubScores target peerScore clock order).1.Liftable := by
  rw [updateGossipsubScores_eq]
  generalize ((F32.ofNat target).mul allowedNegativeGossipsubFactor).ceil = toIgnore
  have hpeers : ∀ e ∈ db.gossipsubPeers peerScore order,
      e.1.2.Liftable False ∧ e.1.2.isBanned = false := by
    intro e he
    obtain ⟨hentry, hconn, -⟩ := mem_gossipsubPeers.1 he
    refine ⟨h _ _ hentry, ?_⟩
    unfold PeerInfo.isConnected at hconn
    unfold PeerInfo.isBanned
    cases hs : e.1.2.connectionStatus <;> simp [hs] at hconn ⊢
  refine foldl_rel (R := fun r r' : PeerDB F × List (PeerId × ScoreUpdateResult) =>
    r.1.Liftable → r'.1.Liftable) (fun _ h => h) (fun _ _ _ h k hr => k (h hr)) ?_ _ (_, [])
    (Liftable.setGossipsubScores hpeers h)
  intro r a hr
  unfold gossipsubRound gossipsubAction
  cases a.2 with
  | noAction => exact hr
  | _ => exact hr.updateConnectionState_same a.1 _ _ (by simp) (by simp)

/-! ### The other operations -/

theorem Liftable.cleanupDialingPeers (h : db.Liftable) (clock : Clock)
    (order : Shuffle (Map.Entry PeerId (PeerInfo F))) :
    (db.cleanupDialingPeers clock order).Liftable := by
  refine cleanupDialingPeers_rel (R := fun db db' : PeerDB F => db.Liftable → db'.Liftable)
    (fun _ h => h) (fun _ _ _ h k hr => k (h hr)) ?_ db clock order h
  intro db p now status hstatus hs h
  refine (h.updateConnectionState p .disconnected now (by simp) fun _ => ?_).mono fun _ hq => hq.1
  unfold connectionStatus at hstatus
  cases hp : db.peerInfo p with
  | none =>
    rw [hp] at hstatus
    cases hstatus
  | some info =>
    rw [hp, Option.map_some, Option.some.injEq] at hstatus
    rw [← Bool.not_eq_true, banLapsed_iff hp]
    rintro ⟨heq, -⟩
    rw [← hstatus, heq] at hs
    exact hs

/-- The operations that ban nobody for good: no trusted dial, and no end of a connection of
a peer whose ban has lapsed. -/
def keepsBansLiftable (db : PeerDB F) : DbOp F → Bool
  | .dialingPeer _ _ trusted _ => !trusted
  | .injectDisconnect p _ _ => !db.banLapsed p
  | _ => true

/-- **What an operation does to banned peers**: they keep a banning score. -/
theorem Liftable.step (h : db.Liftable) {op : DbOp F} (hop : db.keepsBansLiftable op = true) :
    (db.step op).Liftable := by
  have hroutine : op.isRoutine = true → (db.step op).Liftable :=
    Entries.step_routine (fun _ _ _ hv hinfo => PeerInfo.Liftable.congr hv hinfo)
      (fun _ now => .defaultAt now) h
  cases op with
  | connectIngoing p address enr now =>
    exact h.updateConnectionState_same p _ now (by simp) (by simp)
  | connectOutgoing p address enr now =>
    exact h.updateConnectionState_same p _ now (by simp) (by simp)
  | dialingPeer p enr trusted now =>
    have htrust : trusted = false := by simpa [keepsBansLiftable] using hop
    subst htrust
    exact h.updateConnectionState_same p _ now (by simp) (by simp)
  | notifyDisconnecting p toBan now =>
    exact h.updateConnectionState_same p _ now (by simp) (by simp)
  | injectDisconnect p now order =>
    have hlapsed : db.banLapsed p = false := by simpa [keepsBansLiftable] using hop
    have hclosed := (h.updateConnectionState p .disconnected now (by simp)
      fun _ => hlapsed).mono fun _ hq => hq.1
    change (db.injectDisconnect p now order).1.Liftable
    rw [injectDisconnect_fst]
    exact Entries.shrinkToFit hclosed order
  | reportPeer p action now => exact h.reportPeer p action now
  | updateScores clock order => exact h.updateScores clock order
  | updateGossipsubScores target peerScore clock order =>
    exact h.updateGossipsubScores target peerScore clock order
  | cleanupDialingPeers clock order => exact h.cleanupDialingPeers clock order
  | setUntrusted p =>
    refine Entries.modifyPeer h fun info hinfo => ⟨hinfo.wf, ?_, hinfo.lift⟩
    have hmax : info.score.isMax = false := congrArg Prod.snd hinfo.standing
    exact congrArg (Prod.mk false) hmax
  | _ => exact hroutine rfl

/-- The end of a connection of a peer whose ban has lapsed bans the peer all the same,
unless the entry is evicted at once. -/
theorem injectDisconnect_lapsed {p : PeerId} (h : db.banLapsed p = true) (now : Instant)
    (order : Shuffle (Map.Entry PeerId (PeerInfo F))) :
    (db.injectDisconnect p now order).1.peerInfo p = none ∨
      ∃ info, (db.injectDisconnect p now order).1.peerInfo p = some info ∧
        info.isBanned = true ∧ info.scoreState ≠ .banned := by
  rw [injectDisconnect_fst]
  rcases shrinkToFit_peerInfo (db.updateConnectionState p .disconnected now).1 order p with
    hgone | hkept
  · exact .inl hgone
  · right
    rw [hkept, updateConnectionState_peerInfo, if_pos rfl]
    refine ⟨_, rfl, ?_⟩
    cases hp : db.peerInfo p with
    | none =>
      unfold banLapsed at h
      rw [hp] at h
      cases h
    | some info =>
      obtain ⟨hs, hscore⟩ := (banLapsed_iff hp).1 h
      rw [entryOrInsert_of_some hp]
      constructor
      · rw [PeerInfo.isBanned_iff, Arm.step_status, arm, hs]
        exact ⟨now, rfl⟩
      · rw [PeerInfo.scoreState, Arm.score_step _ _ now (.inl (by simp))]
        exact hscore

end PeerDB

/-! ## The clock -/

/-- The readings of the clock in a heartbeat. -/
def HeartbeatInput.readings (inp : HeartbeatInput F) : Set Instant :=
  Set.range inp.cleanupClock ∪ Set.range inp.scoresClock ∪ {inp.subnetsNow} ∪
    Set.range inp.pruneClock

namespace PmOp

/-- The readings of the clock in a call. -/
def readings : PmOp F → Set Instant
  | .injectConnectionEstablished _ _ _ now | .injectConnectionClosed _ _ now _
  | .injectDialFailure _ now _ | .reportPeer _ _ _ now | .goodbyePeer _ _ now
  | .peersDiscovered _ now | .disconnectPeer _ _ now => {now}
  | .updateGossipsubScores _ clock _ => Set.range clock
  | .heartbeat inp => inp.readings
  | .poll inp => {inp.now} ∪ {t | ∃ tick ∈ inp.ticks, t ∈ tick.readings}
  | _ => ∅

/-- The clock does not go back from one call to a later one. -/
def Chronological (ops : List (PmOp F)) : Prop :=
  ops.Pairwise fun op op' => ∀ t ∈ op.readings, ∀ t' ∈ op'.readings, t ≤ t'

end PmOp

/-! ## Runs of the peer manager -/

theorem keepsBansLiftable_permissive :
    Permissive (fun (db : PeerDB F) op => db.keepsBansLiftable op = true) (fun _ => True) := by
  refine ⟨fun db op hop => ?_, fun _ _ _ _ => rfl, fun _ _ => trivial⟩
  cases op <;> first | rfl | exact hop.elim

namespace System

/-- Every banned peer has a banning score. -/
def BansLift (s : System F) : Prop :=
  ∀ p info, s.pm.peerdb.peerInfo p = some info → info.isBanned = true → info.scoreState = .banned

/-- The call ends the last connection of a peer, or a dial to it, after its ban has lapsed. -/
def endsLapsed (s : System F) : PmOp F → Bool
  | .injectConnectionClosed p remaining _ _ => decide (remaining = 0) && s.pm.peerdb.banLapsed p
  | .injectDialFailure (some p) _ _ => s.pm.peerdb.banLapsed p
  | _ => false

/-- The banned peers have a banning score, and no queued dial is trusted. -/
structure Liftable (s : System F) : Prop where
  bans : s.pm.peerdb.Liftable
  queue : ∀ d ∈ s.pm.peersToDial, d.2.2 = false

/-- Without trust commands no trusted dial enters the queue. -/
theorem queue_step {s : System F} {op : PmOp F} (hcmd : op.isTrustCall = false)
    (h : ∀ d ∈ s.pm.peersToDial, d.2.2 = false) :
    ∀ d ∈ (s.step op).pm.peersToDial, d.2.2 = false := by
  cases op with
  | dialPeer p enr =>
    intro d hd
    rcases List.mem_append.1 hd with hd | hd
    · exact h d hd
    · rw [List.mem_singleton.1 hd]
  | dialTrustedPeer p enr => cases hcmd
  | poll inp => exact fun d hd => h d ((s.peersToDial_suffix (.inr ⟨inp, rfl⟩)).subset hd)
  | _ => exact fun d hd => h d ((s.peersToDial_suffix (.inl rfl)).subset hd)

theorem Liftable.step {s : System F} (h : s.Liftable) {op : PmOp F} (hcmd : op.isTrustCall = false)
    (hop : s.endsLapsed op = false) : (s.step op).Liftable := by
  refine ⟨?_, queue_step hcmd h.queue⟩
  obtain ⟨es, -, hcalls⟩ := step_calls keepsBansLiftable_permissive s op (by
    cases op with
    | injectConnectionEstablished p endpoint other now =>
      exact fun _ => ⟨fun _ => rfl, fun _ _ _ => rfl, fun _ _ _ => rfl, trivial, trivial⟩
    | injectConnectionClosed p remaining now order =>
      intro hzero
      refine ⟨?_, fun _ => trivial⟩
      simpa [endsLapsed, hzero, PeerDB.keepsBansLiftable] using hop
    | injectDialFailure peerId now order =>
      rintro p rfl -
      simpa [endsLapsed, PeerDB.keepsBansLiftable] using hop
    | disconnectPeer p reason now => exact rfl
    | removeTrusted p => exact rfl
    | poll inp =>
      intro p enr trusted hdial
      obtain ⟨-, rest, hrest⟩ := PeerManager.nextDial_eq_some hdial
      rw [(PeerManager.pollTimers_does keepsBansLiftable_permissive s.pm inp).peersToDial] at hrest
      have huntrusted : trusted = false :=
        h.queue (p, enr, trusted) (hrest ▸ List.mem_cons_self)
      rw [huntrusted]
      rfl
    | _ => trivial)
  exact hcalls.invariant (fun db op hdb hop => PeerDB.Liftable.step hdb hop) h.bans

/-- **Bans can be lifted** in every run without trust commands in which no connection ends
after the ban of its peer has lapsed. -/
theorem bans_lift (targetPeers : ℕ) (discoveryEnabled : Bool) (ops : List (PmOp F))
    (hcmd : Along System.step (fun _ op => op.isTrustCall = false)
      (System.new targetPeers discoveryEnabled) ops)
    (hops : Along System.step (fun s op => s.endsLapsed op = false)
      (System.new targetPeers discoveryEnabled) ops) :
    Throughout System.step BansLift (System.new targetPeers discoveryEnabled) ops := by
  have hempty : (System.new (F := F) targetPeers discoveryEnabled).Liftable :=
    { bans := by
        intro p info hp
        cases hp
      queue := by simp [System.new, PeerManager.new] }
  have hlift : Throughout System.step Liftable (System.new targetPeers discoveryEnabled) ops :=
    throughout_of_along (fun s op h hop => h.step hop.1 hop.2) hempty (hcmd.and hops)
  exact hlift.mono fun s h p info hp hban => ((h.bans p info hp).lift hban).resolve_right id

/-- A heartbeat at one reading of the clock. -/
def heartbeatAt (now : Instant) : PmOp ℚ :=
  .heartbeat ⟨fun _ => now, default, fun _ => now, default, now, default, fun _ => now, default⟩

/-- A peer that is banned, and whose connection closes at once. -/
def banAndClose : List (PmOp ℚ) :=
  [.injectConnectionEstablished ⟨[1]⟩ (.listener [.ip4 1, .tcp 9000]) 0 0,
    .reportPeer ⟨[1]⟩ .fatal none 0, .injectConnectionClosed ⟨[1]⟩ 0 1 default,
    heartbeatAt (bannedBeforeDecay + 1200 * 10 ^ 9)]

theorem bans_lift_banAndClose :
    Throughout System.step BansLift (System.new 10 false) banAndClose :=
  bans_lift 10 false banAndClose (by decide +kernel) (by decide +kernel)

/-- A peer that is banned, and whose connection closes after the twelve hours of the ban and
two half-lives of its score. -/
def banAndCloseLate : List (PmOp ℚ) :=
  [.injectConnectionEstablished ⟨[1]⟩ (.listener [.ip4 1, .tcp 9000]) 0 0,
    .reportPeer ⟨[1]⟩ .fatal none 0, heartbeatAt (bannedBeforeDecay + 1200 * 10 ^ 9),
    .injectConnectionClosed ⟨[1]⟩ 0 (bannedBeforeDecay + 1200 * 10 ^ 9) default]

theorem bans_lift_fails :
    ¬ ∀ (targetPeers : ℕ) (discoveryEnabled : Bool) (ops : List (PmOp ℚ)),
      PmOp.Chronological ops →
      Along System.step (fun _ op => op.isTrustCall = false)
        (System.new targetPeers discoveryEnabled) ops →
      Throughout System.step BansLift (System.new targetPeers discoveryEnabled) ops := by
  intro h
  have hchron : PmOp.Chronological banAndCloseLate := by
    unfold banAndCloseLate
    generalize bannedBeforeDecay + 1200 * 10 ^ 9 = now
    simp [PmOp.Chronological, PmOp.readings, heartbeatAt, HeartbeatInput.readings]
  have hlast := (h 10 false banAndCloseLate hchron (by decide +kernel)).last ⟨[1]⟩
  have hlapsed : ((banAndCloseLate.foldl System.step (System.new 10 false)).pm.peerdb.peerInfo
      ⟨[1]⟩).any (fun info => info.isBanned && decide (info.scoreState ≠ .banned)) = true := by
    decide +kernel
  obtain ⟨info, hinfo, hbad⟩ := (Option.any_eq_true _ _).1 hlapsed
  rw [Bool.and_eq_true, decide_eq_true_iff] at hbad
  exact hbad.2 (hlast info hinfo hbad.1)

end System

end Consentry
