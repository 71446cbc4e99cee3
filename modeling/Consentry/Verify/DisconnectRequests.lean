import Consentry.Verify.Calls
import Consentry.Verify.Status
import Consentry.Verify.TrustScoring

/-!
# A disconnecting peer is asked to disconnect exactly once

`PeerDB.Balanced p db es db'`: the requests to disconnect `p` among the events `es` are as
many as the transitions of `p` into the disconnecting status. The equation adds up along
a sequence of database operations, so it holds of every call that neither connects nor
disconnects peers. A graceful disconnect pushes its request before it changes the status,
and pruning makes one for each pruned peer, all of them connected and distinct. Hence
**`System.disconnects_once`**.
-/

namespace Consentry

open Lib

namespace PeerConnectionStatus

def isDisconnecting : PeerConnectionStatus → Bool
  | disconnecting _ => true
  | _ => false

end PeerConnectionStatus

namespace PeerManagerEvent

/-- The event asks the swarm to disconnect the peer. -/
def disconnects (peerId : PeerId) : PeerManagerEvent → Bool
  | disconnectPeer p _ => p = peerId
  | _ => false

/-- The number of requests to disconnect the peer. -/
def requests (peerId : PeerId) (es : List PeerManagerEvent) : ℕ :=
  es.countP (·.disconnects peerId)

@[simp] theorem requests_nil (p : PeerId) : requests p [] = 0 := rfl

@[simp] theorem requests_append (p : PeerId) (es fs : List PeerManagerEvent) :
    requests p (es ++ fs) = requests p es + requests p fs :=
  List.countP_append

theorem requests_eq_zero {p : PeerId} {es : List PeerManagerEvent}
    (h : ∀ e ∈ es, e.disconnects p = false) : requests p es = 0 :=
  List.countP_eq_zero.2 fun e he => by simp [h e he]

theorem requests_disconnectPeer (p q : PeerId) (reason : GoodbyeReason) :
    requests p [.disconnectPeer q reason] = (decide (q = p)).toNat := by
  by_cases hq : q = p <;> simp [requests, disconnects, hq]

end PeerManagerEvent

open PeerManagerEvent

variable {F : Type}

namespace PeerDB

/-- The status of the peer is `Disconnecting`. -/
def isDisconnecting (db : PeerDB F) (p : PeerId) : Bool := (db.status p).isDisconnecting

/-- The requests to disconnect the peer are as many as its transitions into the
disconnecting status. -/
def Balanced (p : PeerId) (db : PeerDB F) (es : List PeerManagerEvent) (db' : PeerDB F) : Prop :=
  requests p es + (db.isDisconnecting p).toNat = (db'.isDisconnecting p).toNat

variable {db db' db'' : PeerDB F} {p q : PeerId} {es fs : List PeerManagerEvent}

theorem Balanced.trans (h : Balanced p db es db') (k : Balanced p db' fs db'') :
    Balanced p db (es ++ fs) db'' := by
  unfold Balanced at h k ⊢
  rw [requests_append]
  omega

/-- No request, and no transition. -/
theorem Balanced.quiet (hes : requests p es = 0)
    (hp : db'.isDisconnecting p = db.isDisconnecting p) : Balanced p db es db' := by
  unfold Balanced
  rw [hes, hp, Nat.zero_add]

theorem Balanced.refl (p : PeerId) (db : PeerDB F) : Balanced p db [] db := .quiet rfl rfl

theorem Balanced.of_status (hes : requests p es = 0) (hp : db'.status p = db.status p) :
    Balanced p db es db' :=
  .quiet hes (congrArg PeerConnectionStatus.isDisconnecting hp)

theorem status_congr {f : PeerInfo F → PeerInfo F}
    (hf : ∀ info, (f info).connectionStatus = info.connectionStatus)
    (h : db'.peerInfo p = (db.peerInfo p).map f) : db'.status p = db.status p := by
  unfold status connectionStatus
  rw [h]
  cases db.peerInfo p with
  | none => rfl
  | some info => exact hf info

/-! ## Changes of the connection state -/

section

variable [ScoreArith F]

theorem Rescored.status (h : db.Rescored db') (p : PeerId) : db'.status p = db.status p := by
  have hview : ∀ d : PeerDB F, d.status p =
      (((d.peerInfo p).map PeerInfo.unscored).map (·.connectionStatus)).getD .unknown := by
    intro d
    unfold PeerDB.status connectionStatus
    cases d.peerInfo p <;> rfl
  rw [hview, hview, h.entries]

theorem updateConnectionState_status_of_ne (db : PeerDB F) (h : q ≠ p) (st : NewConnectionState)
    (now : Instant) : (db.updateConnectionState p st now).1.status q = db.status q := by
  unfold status
  rw [updateConnectionState_connectionStatus, if_neg h]

/-- A change of the state of one peer, whose events concern this peer. -/
theorem Balanced.updateConnectionState {st : NewConnectionState} {now : Instant}
    (hes : p ≠ q → requests p es = 0)
    (hq : p = q → requests p es + (db.status p).isDisconnecting.toNat =
      ((db.status p).next now st).isDisconnecting.toNat) :
    Balanced p db es (db.updateConnectionState q st now).1 := by
  by_cases hpq : p = q
  · unfold Balanced isDisconnecting
    rw [hq hpq, hpq, updateConnectionState_status]
  · exact .of_status (hes hpq) (updateConnectionState_status_of_ne db hpq st now)

/-- A ban asks a peer to disconnect when it is connected or dialing. -/
theorem banned_balanced (db : PeerDB F) (p q : PeerId) (reason : Option GoodbyeReason)
    (now : Instant) : Balanced p db
      (banOperationEvents q reason (db.updateConnectionState q .banned now).2)
      (db.updateConnectionState q .banned now).1 := by
  have hop : (db.updateConnectionState q .banned now).2 =
      (((db.arm (db.entryOrInsert q .banned now)).banScore .banned).toBanned
        now).banOperation := rfl
  have hstatus : ((db.arm (db.entryOrInsert q .banned now)).banScore
      .banned).info.connectionStatus = db.status q := by
    rw [Arm.banScore_status, arm, entryOrInsert_connectionStatus]
  rw [hop]
  generalize (db.arm (db.entryOrInsert q .banned now)).banScore .banned = s at hstatus
  unfold Arm.toBanned
  refine .updateConnectionState (fun hpq => ?_) fun hpq => ?_
  · cases s.info.connectionStatus <;>
      simp [banOperationEvents, Arm.readyToBan, requests, disconnects, Ne.symm hpq]
  · rw [hpq, hstatus]
    cases db.status q <;>
      simp [banOperationEvents, Arm.readyToBan, requests, disconnects,
        PeerConnectionStatus.next, PeerConnectionStatus.isDisconnecting]

/-- A peer that is not disconnecting is asked to disconnect. -/
theorem disconnecting_balanced (hq : db.isDisconnecting q = false) (p : PeerId)
    (reason : GoodbyeReason) (toBan : Bool) (now : Instant) :
    Balanced p db [.disconnectPeer q reason]
      (db.updateConnectionState q (.disconnecting toBan) now).1 := by
  refine .updateConnectionState (fun hpq => ?_) fun hpq => ?_
  · rw [requests_disconnectPeer]
    simp [Ne.symm hpq]
  · rw [requests_disconnectPeer, hpq, show (db.status q).isDisconnecting = false from hq]
    simp [PeerConnectionStatus.next, PeerConnectionStatus.isDisconnecting]

theorem unbanPeer_balanced (db : PeerDB F) (p q : PeerId) (now : Instant) :
    Balanced p db (scoreActionEvents q none (db.unbanPeer q now).2) (db.unbanPeer q now).1 := by
  refine .updateConnectionState (fun _ => rfl) fun _ => ?_
  change 0 + _ = _
  rw [Nat.zero_add]
  cases db.status p <;> rfl

/-! ## Scoring operations -/

omit [ScoreArith F] in
theorem isDisconnecting_of_isConnectedOrDialing {info : PeerInfo F}
    (h : info.isConnectedOrDialing = true) :
    info.connectionStatus.isDisconnecting = false := by
  unfold PeerInfo.isConnectedOrDialing PeerInfo.isConnected PeerInfo.isDialing at h
  cases hs : info.connectionStatus <;> simp [hs, PeerConnectionStatus.isDisconnecting] at h ⊢

theorem scoreActionEvents_ofBanOperation (p : PeerId) (reason : Option GoodbyeReason)
    (op : Option BanOperation) :
    scoreActionEvents p reason (.ofBanOperation op) = banOperationEvents p reason op := by
  cases op <;> rfl

theorem reportPeer_balanced (db : PeerDB F) (p q : PeerId) (action : PeerAction)
    (reason : Option GoodbyeReason) (now : Instant) :
    Balanced p db (scoreActionEvents q reason (db.reportPeer q action now).2)
      (db.reportPeer q action now).1 := by
  unfold reportPeer
  cases hq : db.peerInfo q with
  | none => exact .refl p db
  | some info =>
    have hscore : Balanced p db []
        { db with peers := db.peers.insert q (info.applyPeerActionToScore action) } :=
      .of_status rfl
        ((Rescored.insert hq (info.unscored_applyPeerActionToScore action)).status p)
    simp only
    cases ht : handleScoreTransition info.scoreState (info.applyPeerActionToScore action) with
    | banned =>
      simp only [scoreActionEvents_ofBanOperation]
      exact hscore.trans (banned_balanced _ p q reason now)
    | disconnected =>
      refine hscore.trans (disconnecting_balanced ?_ p .badScore false now)
      have hopen := isDisconnecting_of_isConnectedOrDialing
        (handleScoreTransition_disconnected ht)
      unfold isDisconnecting status connectionStatus
      rw [peerInfo_insert, if_pos rfl]
      exact hopen
    | noAction => exact hscore
    | unbanned => exact hscore

theorem updateScores_balanced (db : PeerDB F) (p : PeerId) (clock : Clock)
    (order : Shuffle (Map.Entry PeerId (PeerInfo F))) :
    Balanced p db
      ((db.updateScores clock order).2.flatMap fun r => scoreActionEvents r.1 none r.2)
      (db.updateScores clock order).1 := by
  unfold updateScores
  have hdecay : Balanced p db []
      { db with peers := db.peers.mapVal fun id info => info.scoreUpdate (clock id) } :=
    .of_status rfl ((Rescored.mapVal
      (fun id (info : PeerInfo F) => info.unscored_scoreUpdate (clock id)) db).status p)
  obtain ⟨rs, hrs, hrounds⟩ := foldl_collect (R := Balanced p)
    (f := fun (r : PeerDB F × List (PeerId × ScoreUpdateResult)) q =>
      ((r.1.unbanPeer q (clock q)).1, r.2 ++ [(q, (r.1.unbanPeer q (clock q)).2)]))
    (fun r => scoreActionEvents r.1 none r.2) (.refl p)
    (fun _ _ _ _ _ h k => h.trans k) (fun _ => True)
    (fun db acc q _ _ => ⟨[(q, (db.unbanPeer q (clock q)).2)], rfl,
      by simpa using unbanPeer_balanced db p q (clock q), trivial⟩) trivial []
  have hboth := hdecay.trans hrounds
  rw [List.nil_append] at hboth hrs
  rw [← hrs] at hboth
  exact hboth

/-! ### Gossipsub scores -/

/-- The listed peers of `update_gossipsub_scores` are distinct. -/
theorem gossipsubPeers_nodup (db : PeerDB F) (peerScore : PeerId → Option F)
    (order : Shuffle (Map.Entry PeerId (PeerInfo F))) :
    ((db.gossipsubPeers peerScore order).map (·.1.1)).Nodup := by
  have hentries : db.peers.entries.Pairwise fun e e' => e.1 ≠ e'.1 :=
    List.nodupKeys_iff_pairwise.1 db.peers.nodupKeys
  have hconnected : (order.run db.connectedPeers).Pairwise fun e e' => e.1 ≠ e'.1 :=
    ((order.perm _).pairwise_iff Ne.symm).2 (hentries.filter _)
  unfold gossipsubPeers
  rw [List.Nodup, List.pairwise_map]
  refine ((List.mergeSort_perm _ _).pairwise_iff Ne.symm).2 (hconnected.filterMap _ ?_)
  intro e e' hne b hb b' hb'
  obtain ⟨score, -, rfl⟩ := Option.map_eq_some_iff.1 hb
  obtain ⟨score', -, rfl⟩ := Option.map_eq_some_iff.1 hb'
  exact hne

theorem setGossipsubScores_keys (clock : Clock)
    (peers : List (Map.Entry PeerId (PeerInfo F) × F)) (toIgnore : ℕ) (db : PeerDB F) :
    (setGossipsubScores clock peers toIgnore db).2.map (·.1) = peers.map (·.1.1) := by
  induction peers generalizing toIgnore db with
  | nil => rfl
  | cons e peers ih =>
    rw [setGossipsubScores, List.map_cons, List.map_cons, ih]

theorem gossipsubAction_balanced {db : PeerDB F} {q : PeerId}
    (hq : db.isDisconnecting q = false) (p : PeerId) (action : ScoreTransitionResult)
    (now : Instant) :
    Balanced p db (scoreActionEvents q none (db.gossipsubAction q action now).2)
      (db.gossipsubAction q action now).1 := by
  cases action with
  | banned =>
    simp only [gossipsubAction, scoreActionEvents_ofBanOperation]
    exact banned_balanced db p q none now
  | disconnected => exact disconnecting_balanced hq p .badScore false now
  | noAction => exact .refl p db
  | unbanned => exact unbanPeer_balanced db p q now

theorem gossipsubAction_status_of_ne (db : PeerDB F) {p q : PeerId} (h : q ≠ p)
    (action : ScoreTransitionResult) (now : Instant) :
    (db.gossipsubAction p action now).1.status q = db.status q := by
  cases action with
  | noAction => rfl
  | _ => exact updateConnectionState_status_of_ne db h _ now

/-- The second loop visits each peer once, in the state in which the first loop found it. -/
theorem gossipsubRounds_balanced (clock : Clock) (p : PeerId)
    {actions : List (PeerId × ScoreTransitionResult)} (hnodup : (actions.map (·.1)).Nodup)
    {db : PeerDB F} (hopen : ∀ a ∈ actions, db.isDisconnecting a.1 = false)
    (acc : List (PeerId × ScoreUpdateResult)) :
    ∃ rs, (actions.foldl (gossipsubRound clock) (db, acc)).2 = acc ++ rs ∧
      Balanced p db (rs.flatMap fun r => scoreActionEvents r.1 none r.2)
        (actions.foldl (gossipsubRound clock) (db, acc)).1 := by
  induction actions generalizing db acc with
  | nil => exact ⟨[], (List.append_nil acc).symm, .refl p db⟩
  | cons a actions ih =>
    obtain ⟨ha, hnodup⟩ := List.nodup_cons.1 hnodup
    have hround := gossipsubAction_balanced (hopen a List.mem_cons_self) p a.2 (clock a.1)
    have hrest : ∀ b ∈ actions,
        (db.gossipsubAction a.1 a.2 (clock a.1)).1.isDisconnecting b.1 = false := by
      intro b hb
      have hne : b.1 ≠ a.1 := by
        intro heq
        exact ha (List.mem_map.2 ⟨b, hb, heq⟩)
      unfold isDisconnecting
      rw [gossipsubAction_status_of_ne db hne]
      exact hopen b (List.mem_cons_of_mem a hb)
    rw [List.foldl_cons]
    unfold gossipsubRound at ih ⊢
    by_cases hno : (db.gossipsubAction a.1 a.2 (clock a.1)).2 = .noAction
    · obtain ⟨rs, hrs, hbal⟩ := ih hnodup hrest acc
      rw [hno] at hround
      rw [if_pos hno]
      exact ⟨rs, hrs, hround.trans hbal⟩
    · obtain ⟨rs, hrs, hbal⟩ := ih hnodup hrest
        (acc ++ [(a.1, (db.gossipsubAction a.1 a.2 (clock a.1)).2)])
      rw [if_neg hno]
      refine ⟨(a.1, (db.gossipsubAction a.1 a.2 (clock a.1)).2) :: rs, ?_, ?_⟩
      · rw [hrs, List.append_assoc]
        rfl
      · exact hround.trans hbal

theorem updateGossipsubScores_balanced (db : PeerDB F) (p : PeerId) (target : ℕ)
    (peerScore : PeerId → Option F) (clock : Clock)
    (order : Shuffle (Map.Entry PeerId (PeerInfo F))) :
    Balanced p db
      ((db.updateGossipsubScores target peerScore clock order).2.flatMap fun r =>
        scoreActionEvents r.1 none r.2)
      (db.updateGossipsubScores target peerScore clock order).1 := by
  rw [updateGossipsubScores_eq]
  generalize ((F32.ofNat target).mul allowedNegativeGossipsubFactor).ceil = toIgnore
  have hscore := (setGossipsubScores_rescored db peerScore clock order toIgnore).1
  have hkeys := setGossipsubScores_keys clock (db.gossipsubPeers peerScore order) toIgnore db
  generalize setGossipsubScores clock (db.gossipsubPeers peerScore order) toIgnore db = r
    at hscore hkeys
  have hopen : ∀ a ∈ r.2, r.1.isDisconnecting a.1 = false := by
    intro a ha
    have hmem : a.1 ∈ (db.gossipsubPeers peerScore order).map (·.1.1) :=
      hkeys ▸ List.mem_map_of_mem ha
    obtain ⟨e, he, hea⟩ := List.mem_map.1 hmem
    obtain ⟨hentry, hconn, -⟩ := mem_gossipsubPeers.1 he
    rw [isDisconnecting, hscore.status, ← hea, status, connectionStatus, hentry]
    exact isDisconnecting_of_isConnectedOrDialing (by simp [PeerInfo.isConnectedOrDialing, hconn])
  obtain ⟨rs, hrs, hrounds⟩ := gossipsubRounds_balanced clock p
    (hkeys ▸ gossipsubPeers_nodup db peerScore order) hopen []
  rw [hrs, List.nil_append]
  have hboth := (Balanced.of_status (requests_nil p) (hscore.status p)).trans hrounds
  rwa [List.nil_append] at hboth

/-! ## Operations that disconnect nobody on their own -/

theorem cleanupDialingPeers_balanced (db : PeerDB F) (p : PeerId) (clock : Clock)
    (order : Shuffle (Map.Entry PeerId (PeerInfo F))) :
    Balanced p db [] (db.cleanupDialingPeers clock order) := by
  refine cleanupDialingPeers_rel (R := fun db db' => Balanced p db [] db') (.refl p)
    (fun _ _ _ h k => h.trans k) ?_ db clock order
  intro db q now status hstatus hs
  refine .updateConnectionState (fun _ => rfl) fun hpq => ?_
  rw [hpq, PeerDB.status, hstatus]
  cases status with
  | dialing since => rfl
  | disconnected since => rfl
  | _ => exact hs.elim

omit [ScoreArith F] in
/-- An entry that keeps its connection status. -/
theorem modifyPeer_balanced (db : PeerDB F) (p q : PeerId) {f : PeerInfo F → PeerInfo F}
    (hf : ∀ info, (f info).connectionStatus = info.connectionStatus) :
    Balanced p db [] (db.modifyPeer q f) := by
  refine .of_status rfl ?_
  by_cases hpq : p = q
  · refine status_congr hf ?_
    rw [modifyPeer_peerInfo, if_pos hpq, hpq]
  · unfold status connectionStatus
    rw [modifyPeer_peerInfo, if_neg hpq]

theorem updateMinTtl_balanced (db : PeerDB F) (p q : PeerId) (minTtl now : Instant) :
    Balanced p db [] (db.updateMinTtl q minTtl now) := by
  refine .of_status rfl ?_
  unfold updateMinTtl status connectionStatus
  rw [peerInfo_insert]
  split
  · next hpq =>
    rw [hpq]
    cases db.peerInfo q with
    | none => split <;> rfl
    | some info => split <;> rfl
  · rfl

/-- **The operations that are always allowed keep the balance.** -/
theorem isFree_balanced {op : DbOp F} (hop : op.IsFree) (hes : Emitted db op es) (p : PeerId) :
    Balanced p db es (db.step op) := by
  cases op with
  | reportPeer q action now =>
    obtain ⟨reason, rfl⟩ := hes
    exact reportPeer_balanced db p q action reason now
  | updateScores clock order =>
    cases hes
    exact updateScores_balanced db p clock order
  | updateGossipsubScores target peerScore clock order =>
    cases hes
    exact updateGossipsubScores_balanced db p target peerScore clock order
  | cleanupDialingPeers clock order =>
    cases hes
    exact cleanupDialingPeers_balanced db p clock order
  | updateMinTtl q minTtl now =>
    cases hes
    exact updateMinTtl_balanced db p q minTtl now
  | addSubscription q subnet =>
    cases hes
    exact modifyPeer_balanced db p q fun _ => rfl
  | removeSubscription q subnet =>
    cases hes
    exact modifyPeer_balanced db p q fun _ => rfl
  | extendPeersOnSubnet subnet minTtl =>
    cases hes
    refine .of_status rfl (status_congr (fun info => ?_) (Map.lookup_mapVal _ _ p))
    split <;> rfl
  | updateSyncStatus q syncStatus =>
    cases hes
    rw [PeerDB.step, updateSyncStatus_eq]
    exact modifyPeer_balanced db p q fun _ => rfl
  | setMetaData q metaData =>
    cases hes
    exact modifyPeer_balanced db p q fun _ => rfl
  | _ => exact hop.elim

/-- Sequences of these operations, and of events that make no request. -/
theorem balanced_of_calls {G : PeerDB F → DbOp F → Prop} {E : PeerManagerEvent → Prop}
    (hG : ∀ db op, G db op → op.IsFree) (hE : ∀ e, E e → e.disconnects p = false)
    (h : Calls G E db es db') : Balanced p db es db' := by
  induction h with
  | refl => exact .refl p _
  | push _ e he ih =>
    refine ih.trans (.quiet (requests_eq_zero fun e' he' => ?_) rfl)
    rw [List.mem_singleton] at he'
    exact he' ▸ hE e he
  | call _ op hop hfs ih => exact ih.trans (isFree_balanced (hG _ op hop) hfs p)

/-- The end of a connection makes no request. -/
theorem injectDisconnect_quiet (db : PeerDB F) (p q : PeerId) (now : Instant)
    (order : Shuffle (Map.Entry PeerId (PeerInfo F))) :
    requests p (banOperationEvents q none (db.injectDisconnect q now order).2.1 ++
      (db.injectDisconnect q now order).2.2.map fun r => .unBanned r.1 r.2) = 0 := by
  have hop : requests p (banOperationEvents q none
      (db.updateConnectionState q .disconnected now).2) = 0 := by
    change requests p (banOperationEvents q none
      ((db.arm (db.entryOrInsert q .disconnected now)).toDisconnected now).banOperation) = 0
    have hnone : (db.arm (db.entryOrInsert q .disconnected now)).banOperation = none := rfl
    generalize db.arm (db.entryOrInsert q .disconnected now) = s at hnone
    unfold Arm.toDisconnected
    simp only [PeerInfo.clearSubnets]
    cases s.info.connectionStatus with
    | disconnecting toBan =>
      cases toBan with
      | true => rfl
      | false => simp [Arm.setStatus, Arm.incrementDisconnected, hnone, banOperationEvents]
    | _ => simp [Arm.setStatus, Arm.incrementDisconnected, hnone, banOperationEvents]
  rw [requests_append]
  have hpurged : requests p ((db.injectDisconnect q now order).2.2.map
      fun r => .unBanned r.1 r.2) = 0 := by
    refine requests_eq_zero fun e he => ?_
    obtain ⟨r, -, rfl⟩ := List.mem_map.1 he
    rfl
  rw [hpurged]
  exact hop

end

end PeerDB

/-! ## The peer manager -/

/-- The events pushed between the two states balance the transitions of the peer. -/
def PeerManager.Balanced (p : PeerId) (pm pm' : PeerManager F) : Prop :=
  ∃ es, pm'.events = pm.events ++ es ∧ PeerDB.Balanced p pm.peerdb es pm'.peerdb

namespace PeerManager

variable [ScoreArith F] {pm pm' pm'' : PeerManager F} {p q : PeerId}

omit [ScoreArith F] in
theorem Balanced.refl (p : PeerId) (pm : PeerManager F) : Balanced p pm pm :=
  ⟨[], (List.append_nil _).symm, .refl p _⟩

omit [ScoreArith F] in
theorem Balanced.trans (h : Balanced p pm pm') (k : Balanced p pm' pm'') :
    Balanced p pm pm'' := by
  obtain ⟨es, hes, hbal⟩ := h
  obtain ⟨fs, hfs, kbal⟩ := k
  refine ⟨es ++ fs, ?_, hbal.trans kbal⟩
  rw [hfs, hes, List.append_assoc]

omit [ScoreArith F] in
/-- The events and the database operations that are always allowed. -/
theorem lenient_free : Lenient (fun (_ : PeerDB F) op => op.IsFree)
    (fun e => ∀ p, e.disconnects p = false) := by
  refine ⟨fun _ _ h => h, fun e _ hne p => ?_⟩
  cases e with
  | disconnectPeer q reason => exact absurd rfl (hne q reason)
  | _ => rfl

/-- Sequences of these keep the balance. -/
theorem balanced_of_does
    (h : Does (fun _ op => op.IsFree) (fun e => ∀ p, e.disconnects p = false) pm pm')
    (p : PeerId) : Balanced p pm pm' := by
  obtain ⟨⟨es, hes, hcalls⟩, -⟩ := h
  exact ⟨es, hes, PeerDB.balanced_of_calls (fun _ _ h => h) (fun _ h => h p) hcalls⟩

/-- A graceful disconnect of a peer that is not disconnecting. -/
theorem disconnectPeer_balanced (hq : pm.peerdb.isDisconnecting q = false) (p : PeerId)
    (reason : GoodbyeReason) (now : Instant) : Balanced p pm (pm.disconnectPeer q reason now) :=
  ⟨[.disconnectPeer q reason], rfl,
    PeerDB.disconnecting_balanced hq p reason false now⟩

theorem disconnectPeer_status_of_ne (pm : PeerManager F) (h : p ≠ q) (reason : GoodbyeReason)
    (now : Instant) :
    (pm.disconnectPeer q reason now).peerdb.isDisconnecting p = pm.peerdb.isDisconnecting p :=
  congrArg PeerConnectionStatus.isDisconnecting
    (PeerDB.updateConnectionState_status_of_ne pm.peerdb h (.disconnecting false) now)

/-- A graceful disconnect of any peer, seen by one that is not disconnecting. -/
theorem refuse_balanced (hp : pm.peerdb.isDisconnecting p = false) (q : PeerId)
    (reason : GoodbyeReason) (now : Instant) : Balanced p pm (pm.disconnectPeer q reason now) := by
  by_cases hpq : p = q
  · exact disconnectPeer_balanced (hpq ▸ hp) p reason now
  · refine ⟨[.disconnectPeer q reason], rfl, .quiet ?_ ?_⟩
    · rw [requests_disconnectPeer]
      simp [Ne.symm hpq]
    · exact disconnectPeer_status_of_ne pm hpq reason now

theorem excessPeers_nodup (db : PeerDB F) (targetPeers targetOutboundPeers : ℕ) (clock : Clock)
    (orders : PruneOrders F) :
    (excessPeers db targetPeers targetOutboundPeers clock orders).Nodup := by
  unfold excessPeers
  simp only
  split
  · exact List.nodup_nil
  · exact (orders.disconnects.perm _).nodup_iff.2 (DistinctList.nodup _)

/-- **Pruning** disconnects distinct connected peers. -/
theorem pruneExcessPeers_balanced (pm : PeerManager F) (p : PeerId) (clock : Clock)
    (orders : PruneOrders F) : Balanced p pm (pm.pruneExcessPeers clock orders) := by
  unfold pruneExcessPeers
  have hnodup := excessPeers_nodup pm.peerdb pm.targetPeers pm.targetOutboundPeers clock orders
  have hopen : ∀ q ∈ excessPeers pm.peerdb pm.targetPeers pm.targetOutboundPeers clock orders,
      pm.peerdb.isDisconnecting q = false := by
    intro q hq
    have hconn := excessPeers_isConnected hq
    rw [PeerDB.isConnected_eq] at hconn
    unfold PeerDB.isDisconnecting
    cases hs : pm.peerdb.status q <;> simp [hs, PeerConnectionStatus.isConnected,
      PeerConnectionStatus.isDisconnecting] at hconn ⊢
  generalize excessPeers pm.peerdb pm.targetPeers pm.targetOutboundPeers clock orders = ps
    at hnodup hopen
  induction ps generalizing pm with
  | nil => exact .refl p pm
  | cons q ps ih =>
    obtain ⟨hq, hnodup⟩ := List.nodup_cons.1 hnodup
    refine (disconnectPeer_balanced (hopen q List.mem_cons_self) p .tooManyPeers (clock q)).trans
      (ih _ hnodup fun r hr => ?_)
    have hne : r ≠ q := fun heq => hq (heq ▸ hr)
    rw [disconnectPeer_status_of_ne pm hne]
    exact hopen r (List.mem_cons_of_mem q hr)

theorem heartbeat_balanced (pm : PeerManager F) (p : PeerId) (inp : HeartbeatInput F) :
    Balanced p pm (pm.heartbeat inp) := by
  rw [heartbeat_eq]
  exact (balanced_of_does (upkeep_does lenient_free pm inp) p).trans
    (pruneExcessPeers_balanced _ p inp.pruneClock inp.pruneOrders)

theorem pollTimers_balanced (pm : PeerManager F) (p : PeerId) (inp : PollInput F) :
    Balanced p pm (pm.pollTimers inp) := by
  rw [pollTimers_eq]
  exact (foldl_rel (.refl p) (fun _ _ _ h k => h.trans k)
    (fun pm tick => heartbeat_balanced pm p tick) inp.ticks pm).trans
    (balanced_of_does (timers_does lenient_free _ inp) p)

/-! ### Connections -/

omit [ScoreArith F] in
/-- A connection or the end of one makes no request, and leaves no peer disconnecting that
was not. -/
theorem Balanced.of_change {es : List PeerManagerEvent} (hevents : pm'.events = pm.events ++ es)
    (hes : requests p es = 0)
    (hp : pm.peerdb.isDisconnecting p = false → pm'.peerdb.isDisconnecting p = false)
    (h : pm.peerdb.isDisconnecting p = false) : Balanced p pm pm' :=
  ⟨es, hevents, .quiet hes ((hp h).trans h.symm)⟩

theorem isDisconnecting_updateConnectionState {db : PeerDB F} {st : NewConnectionState}
    {now : Instant} (hst : ∀ status : PeerConnectionStatus, status.isDisconnecting = false →
      (status.next now st).isDisconnecting = false)
    (h : db.isDisconnecting p = false) (q : PeerId) :
    (db.updateConnectionState q st now).1.isDisconnecting p = false := by
  unfold PeerDB.isDisconnecting at h ⊢
  by_cases hpq : p = q
  · rw [hpq] at h ⊢
    rw [PeerDB.updateConnectionState_status]
    exact hst _ h
  · rw [PeerDB.updateConnectionState_status_of_ne db hpq]
    exact h

theorem register_balanced (pm : PeerManager F) (h : pm.peerdb.isDisconnecting p = false)
    (q : PeerId) (endpoint : ConnectedPoint) (now : Instant) :
    Balanced p pm (pm.register q endpoint now) := by
  have hconnected : ∀ address direction,
      (pm.peerdb.updateConnectionState q (.connected none address direction)
        now).1.isDisconnecting p = false := by
    intro address direction
    refine isDisconnecting_updateConnectionState (fun status _ => ?_) h q
    cases direction <;> cases status <;> rfl
  cases endpoint with
  | listener address => exact .of_change rfl rfl (fun _ => hconnected address .incoming) h
  | dialer address => exact .of_change rfl rfl (fun _ => hconnected address .outgoing) h

theorem goodbyePeer_balanced (pm : PeerManager F) (p q : PeerId) (reason : GoodbyeReason)
    (now : Instant) : Balanced p pm (pm.goodbyePeer q reason now) :=
  balanced_of_does (goodbyePeer_does lenient_free pm q reason now) p

theorem injectConnectionEstablished_balanced (pm : PeerManager F)
    (h : pm.peerdb.isDisconnecting p = false) (q : PeerId) (endpoint : ConnectedPoint)
    (otherEstablished : ℕ) (now : Instant) :
    Balanced p pm (pm.injectConnectionEstablished q endpoint otherEstablished now) := by
  unfold injectConnectionEstablished
  generalize hpm' : (if otherEstablished = 0 then pm.push (.metaData q) else pm) = pm'
  have hdb : pm'.peerdb = pm.peerdb := by
    rw [← hpm']
    split <;> rfl
  have hgreeting : Balanced p pm pm' := by
    rw [← hpm']
    split
    · exact ⟨[.metaData q], rfl, .quiet rfl rfl⟩
    · exact .refl p pm
  rw [← hdb] at h
  refine hgreeting.trans ?_
  simp only
  split
  · exact goodbyePeer_balanced pm' p q .banned now
  · exact goodbyePeer_balanced pm' p q .bannedIP now
  · split
    · exact refuse_balanced h q .tooManyPeers now
    · exact register_balanced pm' h q endpoint now

theorem injectDisconnect_balanced (pm : PeerManager F)
    (h : pm.peerdb.isDisconnecting p = false) (q : PeerId) (now : Instant)
    (order : Shuffle (Map.Entry PeerId (PeerInfo F))) :
    Balanced p pm (pm.injectDisconnect q now order) := by
  obtain ⟨hdb, hevents, -⟩ := injectDisconnect_effect pm q now order
  refine .of_change hevents (PeerDB.injectDisconnect_quiet pm.peerdb p q now order) ?_ h
  intro _
  have hclosed : (pm.peerdb.updateConnectionState q .disconnected now).1.isDisconnecting p =
      false := by
    refine isDisconnecting_updateConnectionState (fun status hs => ?_) h q
    cases status with
    | disconnecting toBan => cases hs
    | _ => rfl
  rw [hdb, PeerDB.injectDisconnect_fst, PeerDB.isDisconnecting, PeerDB.status,
    PeerDB.connectionStatus]
  rcases PeerDB.shrinkToFit_peerInfo (pm.peerdb.updateConnectionState q .disconnected now).1
    order p with hgone | hkept
  · rw [hgone]
    rfl
  · rw [hkept]
    exact hclosed

theorem injectConnectionClosed_balanced (pm : PeerManager F)
    (h : pm.peerdb.isDisconnecting p = false) (q : PeerId) (remaining : ℕ) (now : Instant)
    (order : Shuffle (Map.Entry PeerId (PeerInfo F))) :
    Balanced p pm (pm.injectConnectionClosed q remaining now order) := by
  unfold injectConnectionClosed
  split
  · exact .refl p pm
  · split
    · have hpush : Balanced p pm (pm.push (.peerDisconnected q)) :=
        ⟨[.peerDisconnected q], rfl, .quiet rfl rfl⟩
      refine hpush.trans (injectDisconnect_balanced _ ?_ q now order)
      exact h
    · exact injectDisconnect_balanced pm h q now order

theorem injectDialFailure_balanced (pm : PeerManager F)
    (h : pm.peerdb.isDisconnecting p = false) (q : Option PeerId) (now : Instant)
    (order : Shuffle (Map.Entry PeerId (PeerInfo F))) :
    Balanced p pm (pm.injectDialFailure q now order) := by
  unfold injectDialFailure
  split
  · split
    · exact injectDisconnect_balanced pm h _ now order
    · exact .refl p pm
  · exact .refl p pm

/-- Dialing a disconnecting peer leaves it disconnecting. -/
theorem injectDialing_balanced (pm : PeerManager F) (p q : PeerId) (enr : Option Enr)
    (trusted : Bool) (now : Instant) : Balanced p pm (pm.injectDialing q enr trusted now) := by
  refine ⟨[], (List.append_nil _).symm, ?_⟩
  refine PeerDB.Balanced.updateConnectionState (fun _ => rfl) fun _ => ?_
  rw [requests_nil, Nat.zero_add]
  cases pm.peerdb.status p <;> rfl

omit [ScoreArith F] in
theorem removeTrusted_balanced (pm : PeerManager F) (p q : PeerId) :
    Balanced p pm (pm.removeTrusted q) := by
  refine ⟨[], (List.append_nil _).symm, .of_status rfl ?_⟩
  change (pm.peerdb.modifyPeer q (·.setUntrusted)).status p = _
  by_cases hpq : p = q
  · refine PeerDB.status_congr (f := (·.setUntrusted)) (fun _ => rfl) ?_
    rw [PeerDB.modifyPeer_peerInfo, if_pos hpq, hpq]
  · unfold PeerDB.status PeerDB.connectionStatus
    rw [PeerDB.modifyPeer_peerInfo, if_neg hpq]

/-- The calls that leave the queue of dials, on a peer that is not disconnecting. -/
theorem step_balanced {s : System F} {op : PmOp F} {p : PeerId}
    (hp : s.pm.peerdb.isDisconnecting p = false) (hqueue : op.queues = false) :
    Balanced p s.pm (s.step op).pm := by
  have hfree : ∀ op : DbOp F, op.IsFree → Emitted s.pm.peerdb op [] →
      Balanced p s.pm { s.pm with peerdb := s.pm.peerdb.step op } := by
    intro op hop hes
    exact ⟨[], (List.append_nil _).symm, PeerDB.isFree_balanced hop hes p⟩
  cases op with
  | injectConnectionEstablished q endpoint other now =>
    exact injectConnectionEstablished_balanced s.pm hp q endpoint other now
  | injectConnectionClosed q remaining now order =>
    exact injectConnectionClosed_balanced s.pm hp q remaining now order
  | injectDialFailure q now order => exact injectDialFailure_balanced s.pm hp q now order
  | reportPeer q action reason now =>
    exact balanced_of_does (reportPeer_does lenient_free s.pm q action reason now) p
  | goodbyePeer q reason now => exact goodbyePeer_balanced s.pm p q reason now
  | updateGossipsubScores peerScore clock order =>
    exact balanced_of_does (updateGossipsubScores_does lenient_free s.pm peerScore clock order) p
  | heartbeat inp => exact heartbeat_balanced s.pm p inp
  | peersDiscovered results now =>
    exact balanced_of_does (peersDiscovered_does lenient_free s.pm results now) p
  | dialPeer q enr => cases hqueue
  | dialTrustedPeer q enr => cases hqueue
  | removeTrusted q => exact removeTrusted_balanced s.pm p q
  | disconnectPeer q reason now => exact refuse_balanced hp q reason now
  | peerStatusd q => exact balanced_of_does (.of_same rfl rfl rfl) p
  | pingRequest q seq => exact balanced_of_does (pingRequest_does lenient_free s.pm q seq) p
  | pongResponse q seq => exact balanced_of_does (pongResponse_does lenient_free s.pm q seq) p
  | metaDataResponse q metaData => exact hfree (.setMetaData q metaData) trivial rfl
  | addSyncSubnet id minTtl => exact balanced_of_does (addSyncSubnet_does s.pm id minTtl) p
  | addSubscription q subnet => exact hfree (.addSubscription q subnet) trivial rfl
  | removeSubscription q subnet => exact hfree (.removeSubscription q subnet) trivial rfl
  | extendPeersOnSubnet subnet minTtl =>
    exact hfree (.extendPeersOnSubnet subnet minTtl) trivial rfl
  | updateSyncStatus q status => exact hfree (.updateSyncStatus q status) trivial rfl
  | poll inp => cases hqueue

end PeerManager

/-! ## Calls -/

namespace System

variable [ScoreArith F]

/-- The events pushed by a call. -/
def pushed (s : System F) (op : PmOp F) : List PeerManagerEvent :=
  (s.step op).log.drop s.log.length

theorem pushed_eq {s : System F} {op : PmOp F} {es : List PeerManagerEvent}
    (h : (s.step op).log = s.log ++ es) : s.pushed op = es := by
  rw [pushed, h, List.drop_left]

/-- A call that only changes the peer manager. -/
theorem pushed_of_balanced {s : System F} {op : PmOp F} {p : PeerId}
    (h : PeerManager.Balanced p s.pm (s.step op).pm) (hstep : s.step op = s.withPm (s.step op).pm) :
    PeerDB.Balanced p s.pm.peerdb (s.pushed op) (s.step op).pm.peerdb := by
  obtain ⟨es, hes, hbal⟩ := h
  have hlog : (s.step op).log = s.log ++ es := by
    rw [hstep]
    exact log_withPm hes
  rw [pushed_eq hlog]
  exact hbal

theorem poll_balanced (s : System F) (p : PeerId) (inp : PollInput F) :
    PeerDB.Balanced p s.pm.peerdb (s.pushed (.poll inp)) (s.step (.poll inp)).pm.peerdb := by
  obtain ⟨es, hes, hbal⟩ := PeerManager.pollTimers_balanced s.pm p inp
  have hlog : (s.step (.poll inp)).log = s.log ++ es := by
    simp only [step, PeerManager.poll_eq]
    generalize s.pm.pollTimers inp = pm at hes
    have hlog : s.emitted ++ pm.events = s.log ++ es := by
      rw [hes, log, List.append_assoc]
    rw [← hlog]
    cases hevents : pm.events with
    | cons e events => simp [log]
    | nil =>
      cases pm.peersToDial with
      | nil => simp [log, withPm, hevents]
      | cons d rest => simp [log, withPm, PeerManager.injectDialing]
  rw [pushed_eq hlog, step_poll_pm, PeerManager.poll_eq]
  generalize s.pm.pollTimers inp = pm at hbal
  cases pm.events with
  | cons e events => exact hbal
  | nil =>
    cases pm.peersToDial with
    | nil => exact hbal
    | cons d rest =>
      obtain ⟨fs, hfs, hdial⟩ := PeerManager.injectDialing_balanced
        { pm with peersToDial := rest } p d.1 d.2.1 d.2.2 inp.now
      have hnil : fs = [] := List.self_eq_append_right.1 hfs
      rw [hnil] at hdial
      have hboth := hbal.trans hdial
      rwa [List.append_nil] at hboth

/-- **A peer marked as disconnecting is asked to disconnect exactly once.** A call of the
peer manager makes one request to disconnect a peer that becomes disconnecting, and none
for one that does not. -/
theorem disconnects_once (s : System F) (op : PmOp F) (p : PeerId)
    (hp : s.pm.peerdb.isDisconnecting p = false) :
    requests p (s.pushed op) = if (s.step op).pm.peerdb.isDisconnecting p then 1 else 0 := by
  have hbal : PeerDB.Balanced p s.pm.peerdb (s.pushed op) (s.step op).pm.peerdb := by
    cases hqueue : op.queues with
    | false =>
      have hstep : s.step op = s.withPm (s.step op).pm := by
        cases op <;> first | rfl | cases hqueue
      exact pushed_of_balanced (PeerManager.step_balanced hp hqueue) hstep
    | true =>
      cases op with
      | dialPeer q enr => exact pushed_of_balanced (.refl p s.pm) rfl
      | dialTrustedPeer q enr => exact pushed_of_balanced (.refl p s.pm) rfl
      | poll inp => exact poll_balanced s p inp
      | _ => cases hqueue
  unfold PeerDB.Balanced at hbal
  rw [hp] at hbal
  cases hpost : (s.step op).pm.peerdb.isDisconnecting p with
  | false =>
    rw [hpost] at hbal
    exact hbal
  | true =>
    rw [hpost] at hbal
    exact hbal

/-- A fatal report of a connected peer bans it when its disconnection is complete. -/
theorem disconnects_once_fatal :
    requests ⟨[1]⟩ (((System.new (F := ℚ) 10 false).step (.injectConnectionEstablished ⟨[1]⟩
      (.listener [.ip4 1, .tcp 9000]) 0 0)).pushed (.reportPeer ⟨[1]⟩ .fatal none 0)) = 1 := by
  rw [disconnects_once _ _ ⟨[1]⟩ (by decide +kernel), if_pos (by decide +kernel)]

end System

end Consentry
