import Consentry.Lib.Run
import Consentry.Verify.BanSteps

/-!
# Trusted peers

A peer is marked as trusted by a flag of its entry, and its score may be `max`, on which
no action and no decay has an effect. `PeerInfo.standing` is the pair of both.
**`keepsStanding_step`**: apart from a trusted dial, the removal of trust and evictions,
no operation touches it.
-/

namespace Consentry

open Lib

variable {F : Type}

def Score.isMax : Score F → Bool
  | .max => true
  | .real _ => false

theorem Score.isMax_eq_false_iff {s : Score F} : s.isMax = false ↔ s ≠ .max := by
  cases s <;> simp [isMax]

/-- Whether the peer is trusted, and whether its score is `max`. -/
def PeerInfo.standing (info : PeerInfo F) : Bool × Bool := (info.isTrusted, info.score.isMax)

/-- What the scoring of a peer depends on: the flag and the score. -/
def PeerInfo.scoring (info : PeerInfo F) : Bool × Score F := (info.isTrusted, info.score)

theorem PeerInfo.standing_eq (info : PeerInfo F) :
    info.standing = (info.scoring.1, info.scoring.2.isMax) := rfl

namespace PeerDB

def standing (db : PeerDB F) (p : PeerId) : Option (Bool × Bool) :=
  (db.peerInfo p).map PeerInfo.standing

/-- The peer is marked as trusted in the database. -/
def isTrusted (db : PeerDB F) (p : PeerId) : Bool :=
  (db.peerInfo p).elim false (·.isTrusted)

theorem isTrusted_eq (db : PeerDB F) (p : PeerId) :
    db.isTrusted p = (db.standing p).elim false (·.1) := by
  unfold isTrusted standing
  cases db.peerInfo p <;> rfl

/-- No standing has changed, and new entries are not trusted. -/
def KeepsStanding (db db' : PeerDB F) : Prop :=
  ∀ p, db'.standing p = db.standing p ∨
    (db.standing p = none ∧ db'.standing p = some (false, false))

variable {db db' db'' : PeerDB F}

theorem KeepsStanding.refl (db : PeerDB F) : db.KeepsStanding db := fun _ => .inl rfl

theorem KeepsStanding.trans (h : db.KeepsStanding db') (k : db'.KeepsStanding db'') :
    db.KeepsStanding db'' := by
  intro p
  rcases h p with h | ⟨h, h'⟩ <;> rcases k p with k | ⟨k, k'⟩
  · exact .inl (k.trans h)
  · exact .inr ⟨h.symm.trans k, k'⟩
  · exact .inr ⟨h, k.trans h'⟩
  · rw [h'] at k
    cases k

theorem KeepsStanding.isTrusted (h : db.KeepsStanding db') (p : PeerId) :
    db'.isTrusted p = db.isTrusted p := by
  rw [isTrusted_eq, isTrusted_eq]
  rcases h p with h | ⟨h, h'⟩
  · rw [h]
  · rw [h, h']
    rfl

theorem KeepsStanding.of_some (h : db.KeepsStanding db') {p : PeerId} {st : Bool × Bool}
    (hp : db.standing p = some st) : db'.standing p = some st := by
  rcases h p with h | ⟨h, -⟩
  · exact h.trans hp
  · rw [hp] at h
    cases h

end PeerDB

/-! ## What keeps a standing -/

section

variable [ScoreArith F]

theorem PeerInfo.standing_unscored (info : PeerInfo F) :
    info.unscored.standing = info.standing := by
  unfold PeerInfo.standing PeerInfo.unscored
  cases info.score <;> rfl

omit [ScoreArith F] in
@[simp] theorem PeerInfo.scoring_insertSeenAddress (info : PeerInfo F) (a : Option SocketAddr) :
    (info.insertSeenAddress a).scoring = info.scoring := by
  cases a <;> rfl

omit [ScoreArith F] in
@[simp] theorem PeerInfo.scoring_connectIngoing (info : PeerInfo F) (a : Option SocketAddr) :
    (info.connectIngoing a).scoring = info.scoring := by
  unfold connectIngoing
  rw [scoring_insertSeenAddress]
  split <;> rfl

omit [ScoreArith F] in
@[simp] theorem PeerInfo.scoring_connectOutgoing (info : PeerInfo F) (a : Option SocketAddr) :
    (info.connectOutgoing a).scoring = info.scoring := by
  unfold connectOutgoing
  rw [scoring_insertSeenAddress]
  split <;> rfl

namespace Arm

omit [ScoreArith F] in
@[simp] theorem scoring_setDialingPeer (s : Arm F) (now : Instant) :
    (s.setDialingPeer now).info.scoring = s.info.scoring := by
  unfold setDialingPeer PeerInfo.setDialingPeer
  cases s.info.connectionStatus <;> rfl

omit [ScoreArith F] in
@[simp] theorem scoring_updateEnr (s : Arm F) (enr : Option Enr) :
    (s.updateEnr enr).info.scoring = s.info.scoring := by
  cases enr <;> rfl

omit [ScoreArith F] in
theorem scoring_toConnected (s : Arm F) (enr : Option Enr) (seenAddress : Multiaddr)
    (direction : ConnectionDirection) :
    (s.toConnected enr seenAddress direction).info.scoring = s.info.scoring := by
  unfold toConnected
  cases hs : s.info.connectionStatus <;> cases direction <;>
    simp [hs, decrementDisconnected, removeBannedPeer]

omit [ScoreArith F] in
theorem scoring_toDialing (s : Arm F) (enr : Option Enr) (now : Instant) :
    (s.toDialing enr false now).info.scoring = s.info.scoring := by
  unfold toDialing
  cases hs : s.info.connectionStatus <;> simp [decrementDisconnected, removeBannedPeer]

omit [ScoreArith F] in
theorem score_toDialing_trusted (s : Arm F) (enr : Option Enr) (now : Instant) :
    (s.toDialing enr true now).info.score = s.info.score := by
  have hdial : ∀ s : Arm F, (s.setDialingPeer now).info.score = s.info.score :=
    fun s => congrArg Prod.snd (s.scoring_setDialingPeer now)
  have henr : ∀ s : Arm F, (s.updateEnr enr).info.setTrusted.score = s.info.score :=
    fun s => congrArg Prod.snd (s.scoring_updateEnr enr)
  unfold toDialing
  simp only [if_true]
  rw [hdial, henr]
  split <;> rfl

omit [ScoreArith F] in
theorem scoring_toDisconnected (s : Arm F) (now : Instant) :
    (s.toDisconnected now).info.scoring = s.info.scoring := by
  unfold toDisconnected
  simp only
  split <;> rfl

omit [ScoreArith F] in
theorem scoring_toDisconnecting (s : Arm F) (toBan : Bool) :
    (s.toDisconnecting toBan).info.scoring = s.info.scoring := by
  unfold toDisconnecting
  split <;> rfl

omit [ScoreArith F] in
theorem scoring_toBanned (s : Arm F) (now : Instant) :
    (s.toBanned now).info.scoring = s.info.scoring := by
  unfold toBanned
  split <;> rfl

omit [ScoreArith F] in
theorem scoring_toUnbanned (s : Arm F) : s.toUnbanned.info.scoring = s.info.scoring := by
  unfold toUnbanned
  split <;> rfl

/-- Apart from the score of a ban, only a trusted dial changes what scoring depends on. -/
theorem scoring_step (s : Arm F) {st : NewConnectionState} (now : Instant)
    (hst : ∀ enr, st ≠ .dialing enr true) :
    (s.step st now).info.scoring = (s.banScore st).info.scoring := by
  cases st with
  | connected enr seenAddress direction => exact scoring_toConnected _ enr seenAddress direction
  | dialing enr trusted =>
    cases trusted with
    | true => exact absurd rfl (hst enr)
    | false => exact scoring_toDialing _ enr now
  | disconnected => exact scoring_toDisconnected _ now
  | disconnecting toBan => exact scoring_toDisconnecting _ toBan
  | banned => exact scoring_toBanned _ now
  | unbanned => exact scoring_toUnbanned _

/-- No arm changes the score of a peer whose score is banned already, and only a ban
changes the score of another. -/
theorem score_step (s : Arm F) (st : NewConnectionState) (now : Instant)
    (h : st ≠ .banned ∨ s.info.scoreState = .banned) :
    (s.step st now).info.score = s.info.score := by
  have hban : (s.banScore st).info.score = s.info.score := by
    unfold banScore
    split
    · rcases h with h | h
      · exact absurd rfl h
      · rw [h]
    · rfl
  rw [← hban]
  cases st with
  | dialing enr trusted =>
    cases trusted with
    | true => exact score_toDialing_trusted _ enr now
    | false => exact congrArg Prod.snd (scoring_toDialing _ enr now)
  | _ => exact congrArg Prod.snd (scoring_step s now (by simp))

theorem standing_banScore (s : Arm F) (st : NewConnectionState) :
    (s.banScore st).info.standing = s.info.standing := by
  have hact : (s.info.applyPeerActionToScore .fatal).standing = s.info.standing := by
    rw [← PeerInfo.standing_unscored, PeerInfo.unscored_applyPeerActionToScore,
      PeerInfo.standing_unscored]
  unfold banScore
  split
  · split
    · rfl
    · exact hact
  · rfl

/-- Only a trusted dial changes the standing of the peer it is about. -/
theorem standing_step (s : Arm F) {st : NewConnectionState} (now : Instant)
    (hst : ∀ enr, st ≠ .dialing enr true) : (s.step st now).info.standing = s.info.standing := by
  rw [← standing_banScore s st, PeerInfo.standing_eq, scoring_step s now hst,
    ← PeerInfo.standing_eq]

end Arm

namespace PeerDB

variable {db db' : PeerDB F}

theorem Rescored.keepsStanding (h : db.Rescored db') : db.KeepsStanding db' := by
  intro p
  left
  have hview : ∀ d : PeerDB F, d.standing p =
      ((d.peerInfo p).map PeerInfo.unscored).map PeerInfo.standing := by
    intro d
    rw [standing, Option.map_map]
    exact congrArg (fun f => (d.peerInfo p).map f)
      (funext fun info => info.standing_unscored.symm)
  rw [hview, hview, h.entries]

theorem updateConnectionState_keepsStanding (db : PeerDB F) (p : PeerId)
    {st : NewConnectionState} (now : Instant) (hst : ∀ enr, st ≠ .dialing enr true) :
    db.KeepsStanding (db.updateConnectionState p st now).1 := by
  intro q
  unfold standing
  rw [updateConnectionState_peerInfo]
  by_cases hq : q = p
  · subst hq
    rw [if_pos rfl, Option.map_some, Arm.standing_step _ now hst, arm]
    cases hinfo : db.peerInfo q with
    | some info =>
      left
      rw [entryOrInsert_of_some hinfo, Option.map_some]
    | none =>
      right
      refine ⟨rfl, ?_⟩
      unfold entryOrInsert
      rw [hinfo]
      cases st with
      | dialing enr trusted =>
        cases trusted with
        | true => exact absurd rfl (hst enr)
        | false => rfl
      | _ => rfl
  · rw [if_neg hq]
    exact .inl rfl

omit [ScoreArith F] in
theorem modifyPeer_keepsStanding {f : PeerInfo F → PeerInfo F}
    (hf : ∀ info, (f info).standing = info.standing) (db : PeerDB F) (p : PeerId) :
    db.KeepsStanding (db.modifyPeer p f) := by
  intro q
  left
  unfold standing
  rw [modifyPeer_peerInfo]
  split
  · next hq =>
    rw [hq, Option.map_map]
    exact congrArg (fun g => (db.peerInfo p).map g) (funext hf)
  · rfl

theorem updateMinTtl_keepsStanding (db : PeerDB F) (p : PeerId) (minTtl now : Instant) :
    db.KeepsStanding (db.updateMinTtl p minTtl now) := by
  intro q
  unfold updateMinTtl standing
  rw [peerInfo_insert]
  split
  · next hq =>
    subst hq
    cases db.peerInfo q with
    | none => right; refine ⟨rfl, ?_⟩; split <;> rfl
    | some info => left; split <;> rfl
  · exact .inl rfl

omit [ScoreArith F] in
theorem extendPeersOnSubnet_keepsStanding (db : PeerDB F) (subnet : Subnet) (minTtl : Instant) :
    db.KeepsStanding (db.extendPeersOnSubnet subnet minTtl) := by
  intro q
  left
  unfold extendPeersOnSubnet standing peerInfo
  rw [Map.lookup_mapVal]
  cases db.peers.lookup q with
  | none => rfl
  | some info =>
    simp only [Option.map_some, Option.some.injEq]
    split <;> rfl

theorem reportPeer_keepsStanding (db : PeerDB F) (p : PeerId) (action : PeerAction)
    (now : Instant) : db.KeepsStanding (db.reportPeer p action now).1 := by
  unfold reportPeer
  cases hp : db.peerInfo p with
  | none => exact .refl db
  | some info =>
    have hscore := (Rescored.insert hp (info.unscored_applyPeerActionToScore action)).keepsStanding
    simp only
    split
    · exact hscore.trans (updateConnectionState_keepsStanding _ p now (by simp))
    · exact hscore.trans (updateConnectionState_keepsStanding _ p now (by simp))
    · exact hscore
    · exact hscore

theorem updateScores_keepsStanding (db : PeerDB F) (clock : Clock)
    (order : Shuffle (Map.Entry PeerId (PeerInfo F))) :
    db.KeepsStanding (db.updateScores clock order).1 := by
  have hscore := Rescored.mapVal
    (fun p (info : PeerInfo F) => info.unscored_scoreUpdate (clock p)) db
  unfold updateScores
  refine hscore.keepsStanding.trans ?_
  refine foldl_rel (R := fun r r' : PeerDB F × List (PeerId × ScoreUpdateResult) =>
    r.1.KeepsStanding r'.1) (fun r => .refl r.1) (fun _ _ _ h k => h.trans k) ?_ _ (_, [])
  exact fun r p => updateConnectionState_keepsStanding r.1 p (clock p) (by simp)

theorem gossipsubAction_keepsStanding (db : PeerDB F) (p : PeerId)
    (action : ScoreTransitionResult) (now : Instant) :
    db.KeepsStanding (db.gossipsubAction p action now).1 := by
  unfold gossipsubAction
  cases action with
  | noAction => exact .refl db
  | _ => exact updateConnectionState_keepsStanding db p now (by simp)

theorem updateGossipsubScores_keepsStanding (db : PeerDB F) (target : ℕ)
    (peerScore : PeerId → Option F) (clock : Clock)
    (order : Shuffle (Map.Entry PeerId (PeerInfo F))) :
    db.KeepsStanding (db.updateGossipsubScores target peerScore clock order).1 := by
  unfold updateGossipsubScores
  generalize ((F32.ofNat target).mul allowedNegativeGossipsubFactor).ceil = toIgnore
  obtain ⟨hscore, -⟩ := setGossipsubScores_rescored db peerScore clock order toIgnore
  refine hscore.keepsStanding.trans ?_
  refine foldl_rel (R := fun r r' : PeerDB F × List (PeerId × ScoreUpdateResult) =>
    r.1.KeepsStanding r'.1) (fun r => .refl r.1) (fun _ _ _ h k => h.trans k) ?_ _ (_, [])
  exact fun r a => gossipsubAction_keepsStanding r.1 a.1 a.2 (clock a.1)

theorem cleanupDialingPeers_keepsStanding (db : PeerDB F) (clock : Clock)
    (order : Shuffle (Map.Entry PeerId (PeerInfo F))) :
    db.KeepsStanding (db.cleanupDialingPeers clock order) :=
  foldl_rel KeepsStanding.refl (fun _ _ _ h k => h.trans k)
    (fun db p => updateConnectionState_keepsStanding db p (clock p) (by simp)) _ db

omit [ScoreArith F] in
theorem shrinkToFit_standing (db : PeerDB F) (order : Shuffle (Map.Entry PeerId (PeerInfo F)))
    (q : PeerId) : (db.shrinkToFit order).1.standing q = none ∨
      (db.shrinkToFit order).1.standing q = db.standing q := by
  unfold standing
  rcases shrinkToFit_peerInfo db order q with h | h
  · rw [h]
    exact .inl rfl
  · rw [h]
    exact .inr rfl

end PeerDB

/-- The operations that may change a standing: trusted dials, the removal of trust, and
those that evict entries. -/
def DbOp.changesStanding : DbOp F → Bool
  | .dialingPeer _ _ trusted _ => trusted
  | .injectDisconnect _ _ _ | .shrinkToFit _ | .setUntrusted _ => true
  | _ => false

/-- The operation marks the peer as trusted. -/
def DbOp.trusts (peerId : PeerId) : DbOp F → Bool
  | .dialingPeer p _ trusted _ => trusted && p = peerId
  | _ => false

namespace PeerDB

variable {db db' : PeerDB F}

theorem step_keepsStanding (db : PeerDB F) {op : DbOp F} (h : op.changesStanding = false) :
    db.KeepsStanding (db.step op) := by
  cases op with
  | connectIngoing p address enr now =>
    exact updateConnectionState_keepsStanding db p now (by simp)
  | connectOutgoing p address enr now =>
    exact updateConnectionState_keepsStanding db p now (by simp)
  | dialingPeer p enr trusted now =>
    cases (h : trusted = false)
    exact updateConnectionState_keepsStanding db p now (by simp)
  | notifyDisconnecting p toBan now =>
    exact updateConnectionState_keepsStanding db p now (by simp)
  | injectDisconnect p now order => cases h
  | reportPeer p action now => exact reportPeer_keepsStanding db p action now
  | updateScores clock order => exact updateScores_keepsStanding db clock order
  | updateGossipsubScores target peerScore clock order =>
    exact updateGossipsubScores_keepsStanding db target peerScore clock order
  | cleanupDialingPeers clock order => exact cleanupDialingPeers_keepsStanding db clock order
  | shrinkToFit order => cases h
  | updateMinTtl p minTtl now => exact updateMinTtl_keepsStanding db p minTtl now
  | addSubscription p subnet =>
    refine modifyPeer_keepsStanding ?_ db p
    exact fun _ => rfl
  | removeSubscription p subnet =>
    refine modifyPeer_keepsStanding ?_ db p
    exact fun _ => rfl
  | extendPeersOnSubnet subnet minTtl => exact extendPeersOnSubnet_keepsStanding db subnet minTtl
  | updateSyncStatus p status =>
    rw [PeerDB.step, updateSyncStatus_eq]
    refine modifyPeer_keepsStanding ?_ db p
    exact fun _ => rfl
  | setMetaData p metaData =>
    refine modifyPeer_keepsStanding ?_ db p
    exact fun _ => rfl
  | setUntrusted p => cases h

theorem setUntrusted_standing (db : PeerDB F) (p q : PeerId) :
    (db.step (.setUntrusted p)).standing q =
      if q = p then (db.standing p).map fun s => (false, s.2) else db.standing q := by
  change (db.modifyPeer p (·.setUntrusted)).standing q = _
  unfold standing
  rw [modifyPeer_peerInfo]
  split
  · rw [Option.map_map, Option.map_map]
    rfl
  · rfl

/-- An untrusted peer stays untrusted and keeps its kind of score until it is trusted or
evicted. -/
theorem step_standing_untrusted {p : PeerId} {m : Bool} {op : DbOp F}
    (hp : db.standing p = some (false, m)) (hop : op.trusts p = false) :
    (db.step op).standing p = none ∨ (db.step op).standing p = some (false, m) := by
  by_cases h : op.changesStanding = false
  · exact .inr ((step_keepsStanding db h).of_some hp)
  · cases op with
    | dialingPeer q enr trusted now =>
      have htrusted : trusted = true := by simpa [DbOp.changesStanding] using h
      subst htrusted
      have hq : p ≠ q := by
        intro hq
        simp [DbOp.trusts, hq] at hop
      right
      rw [← hp]
      unfold standing
      change ((db.updateConnectionState q (.dialing enr true) now).1.peerInfo p).map _ = _
      rw [updateConnectionState_peerInfo, if_neg hq]
    | injectDisconnect q now order =>
      have hclose : (db.updateConnectionState q .disconnected now).1.standing p =
          some (false, m) :=
        (updateConnectionState_keepsStanding db q now (by simp)).of_some hp
      change (db.injectDisconnect q now order).1.standing p = none ∨
        (db.injectDisconnect q now order).1.standing p = some (false, m)
      rw [injectDisconnect_fst]
      rcases shrinkToFit_standing (db.updateConnectionState q .disconnected now).1 order p
        with hgone | hkept
      · exact .inl hgone
      · exact .inr (hkept.trans hclose)
    | shrinkToFit order =>
      rcases shrinkToFit_standing db order p with hgone | hkept
      · exact .inl hgone
      · exact .inr (hkept.trans hp)
    | setUntrusted q =>
      right
      rw [setUntrusted_standing]
      split
      · next hq =>
        rw [← hq, hp]
        rfl
      · exact hp
    | _ => exact absurd rfl h

theorem run_standing_untrusted {p : PeerId} {m : Bool} {ops : List (DbOp F)}
    (hp : db.standing p = some (false, m)) (hops : ∀ op ∈ ops, op.trusts p = false)
    (hkeep : Throughout PeerDB.step (fun db => (db.peerInfo p).isSome = true) db ops) :
    (ops.foldl PeerDB.step db).standing p = some (false, m) := by
  induction ops generalizing db with
  | nil => exact hp
  | cons op ops ih =>
    rcases step_standing_untrusted hp (hops op List.mem_cons_self) with hgone | hkept
    · have hsome := hkeep.2.head
      rw [standing, Option.map_eq_none_iff] at hgone
      rw [hgone] at hsome
      cases hsome
    · exact ih hkept (fun op hop => hops op (List.mem_cons_of_mem _ hop)) hkeep.2

end PeerDB

end

end Consentry
