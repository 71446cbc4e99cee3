import Consentry.PeerManager.Basic
import Consentry.Verify.BanSteps
import Consentry.Verify.Pruning

/-!
# The peer manager as a client of the peer database

Every call of the peer manager is a sequence of database operations and of events pushed
in between (`Calls`). A result is followed from there by two parameters: `G`, which holds
of every database operation made, and `E`, which holds of every event pushed on its own;
the events that report the outcome of a database operation are `Emitted`.
**`System.step_calls`** is the decomposition for all calls of `PmOp`.
-/

namespace Consentry

open Lib

/-! ## Events -/

namespace PeerManagerEvent

/-- What an event says about bans. -/
def notice : PeerManagerEvent → Option BanNotice
  | .banned p ips => some (.banned p ips)
  | .unBanned p ips => some (.unBanned p ips)
  | _ => none

/-- The events that announce a connection or its end. -/
def isConnection : PeerManagerEvent → Bool
  | .peerConnectedIncoming _ | .peerConnectedOutgoing _ | .peerDisconnected _ => true
  | _ => false

/-- An event that says nothing about bans and connections. -/
def Ordinary (e : PeerManagerEvent) : Prop := e.notice = none ∧ e.isConnection = false

end PeerManagerEvent

/-- The events of a ban operation. -/
def banOperationEvents (peerId : PeerId) (reason : Option GoodbyeReason) :
    Option BanOperation → List PeerManagerEvent
  | some .disconnectThePeer => [.disconnectPeer peerId (reason.getD .badScore)]
  | some (.readyToBan ips) => [.banned peerId ips]
  | some .peerDisconnecting | none => []

/-- The events of the result of a scoring operation. -/
def scoreActionEvents (peerId : PeerId) (reason : Option GoodbyeReason) :
    ScoreUpdateResult → List PeerManagerEvent
  | .ban op => banOperationEvents peerId reason (some op)
  | .disconnect => [.disconnectPeer peerId .badScore]
  | .unbanned ips => [.unBanned peerId ips]
  | .noAction => []

variable {F : Type} [ScoreArith F]

/-- The events that report the outcome of a database operation. -/
def Emitted (db : PeerDB F) : DbOp F → List PeerManagerEvent → Prop
  | .injectDisconnect p now order, es =>
    es = banOperationEvents p none (db.injectDisconnect p now order).2.1 ++
      (db.injectDisconnect p now order).2.2.map fun r => .unBanned r.1 r.2
  | .reportPeer p action now, es =>
    ∃ reason, es = scoreActionEvents p reason (db.reportPeer p action now).2
  | .updateScores clock order, es =>
    es = (db.updateScores clock order).2.flatMap fun r => scoreActionEvents r.1 none r.2
  | .updateGossipsubScores target peerScore clock order, es =>
    es = (db.updateGossipsubScores target peerScore clock order).2.flatMap fun r =>
      scoreActionEvents r.1 none r.2
  | .shrinkToFit _, _ => False
  | _, es => es = []

section

variable {db : PeerDB F} {op : DbOp F} {es : List PeerManagerEvent}

omit [ScoreArith F] in
theorem notices_banOperationEvents (p : PeerId) (reason : Option GoodbyeReason)
    (op : Option BanOperation) :
    (banOperationEvents p reason op).filterMap PeerManagerEvent.notice =
      BanOperation.notices p op := by
  rcases op with - | op
  · rfl
  · cases op <;> rfl

omit [ScoreArith F] in
theorem notices_scoreActionEvents (p : PeerId) (reason : Option GoodbyeReason)
    (r : ScoreUpdateResult) :
    (scoreActionEvents p reason r).filterMap PeerManagerEvent.notice = r.notices p := by
  cases r with
  | ban op => exact notices_banOperationEvents p reason (some op)
  | _ => rfl

/-- The events of an operation carry its notices. -/
theorem Emitted.notices (h : Emitted db op es) :
    es.filterMap PeerManagerEvent.notice = db.notices op := by
  have hresults : ∀ rs : List (PeerId × ScoreUpdateResult),
      (rs.flatMap fun r => scoreActionEvents r.1 none r.2).filterMap PeerManagerEvent.notice =
        rs.flatMap fun r => r.2.notices r.1 := by
    intro rs
    rw [List.filterMap_flatMap]
    exact congrArg (fun f => rs.flatMap f)
      (funext fun r => notices_scoreActionEvents r.1 none r.2)
  cases op with
  | injectDisconnect p now order =>
    cases h
    rw [List.filterMap_append, notices_banOperationEvents, List.filterMap_map]
    congr 1
    exact congrFun (List.filterMap_eq_map
      (f := fun r : PeerId × List IpAddr => BanNotice.unBanned r.1 r.2)) _
  | reportPeer p action now =>
    obtain ⟨reason, rfl⟩ := h
    exact notices_scoreActionEvents p reason _
  | updateScores clock order =>
    cases h
    exact hresults _
  | updateGossipsubScores target peerScore clock order =>
    cases h
    exact hresults _
  | shrinkToFit order => exact h.elim
  | _ =>
    cases h
    rfl

omit [ScoreArith F] in
theorem scoreActionEvents_isConnection {p : PeerId} {reason : Option GoodbyeReason}
    {r : ScoreUpdateResult} : ∀ e ∈ scoreActionEvents p reason r, e.isConnection = false := by
  intro e he
  cases r with
  | ban op =>
    cases op <;> simp [scoreActionEvents, banOperationEvents] at he <;> rw [he] <;> rfl
  | noAction => cases he
  | _ =>
    simp only [scoreActionEvents, List.mem_singleton] at he
    rw [he]
    rfl

/-- No outcome of a database operation announces a connection. -/
theorem Emitted.isConnection (h : Emitted db op es) : ∀ e ∈ es, e.isConnection = false := by
  intro e he
  have hresults : ∀ rs : List (PeerId × ScoreUpdateResult),
      e ∈ (rs.flatMap fun r => scoreActionEvents r.1 none r.2) → e.isConnection = false := by
    intro rs hmem
    obtain ⟨r, -, hr⟩ := List.mem_flatMap.1 hmem
    exact scoreActionEvents_isConnection e hr
  cases op with
  | injectDisconnect p now order =>
    cases h
    rcases List.mem_append.1 he with he | he
    · cases hop : (db.injectDisconnect p now order).2.1 with
      | none => simp [hop, banOperationEvents] at he
      | some op =>
        rw [hop] at he
        exact scoreActionEvents_isConnection (r := .ban op) e he
    · obtain ⟨r, -, rfl⟩ := List.mem_map.1 he
      rfl
  | reportPeer p action now =>
    obtain ⟨reason, rfl⟩ := h
    exact scoreActionEvents_isConnection e he
  | updateScores clock order =>
    cases h
    exact hresults _ he
  | updateGossipsubScores target peerScore clock order =>
    cases h
    exact hresults _ he
  | shrinkToFit order => exact h.elim
  | _ =>
    cases h
    cases he

end

/-! ## Sequences of database operations -/

/-- A sequence of database operations that satisfy `G`, with the events pushed: those that
report outcomes, and others that satisfy `E`. -/
inductive Calls (G : PeerDB F → DbOp F → Prop) (E : PeerManagerEvent → Prop) :
    PeerDB F → List PeerManagerEvent → PeerDB F → Prop
  | refl (db : PeerDB F) : Calls G E db [] db
  | push {db db' : PeerDB F} {es : List PeerManagerEvent} (h : Calls G E db es db')
      (e : PeerManagerEvent) (he : E e) : Calls G E db (es ++ [e]) db'
  | call {db db' : PeerDB F} {es fs : List PeerManagerEvent} (h : Calls G E db es db')
      (op : DbOp F) (hop : G db' op) (hfs : Emitted db' op fs) :
      Calls G E db (es ++ fs) (db'.step op)

namespace Calls

variable {G : PeerDB F → DbOp F → Prop} {E : PeerManagerEvent → Prop}
  {db db' db'' : PeerDB F} {es fs : List PeerManagerEvent}

theorem trans (h : Calls G E db es db') (k : Calls G E db' fs db'') :
    Calls G E db (es ++ fs) db'' := by
  induction k with
  | refl => rwa [List.append_nil]
  | push _ e he ih =>
    rw [← List.append_assoc]
    exact .push ih e he
  | call _ op hop hfs ih =>
    rw [← List.append_assoc]
    exact .call ih op hop hfs

theorem single (op : DbOp F) (hop : G db op) (hes : Emitted db op es) :
    Calls G E db es (db.step op) :=
  List.nil_append es ▸ .call (.refl db) op hop hes

/-- **Invariant rule**: what every operation preserves, a sequence preserves. -/
theorem invariant {P : PeerDB F → Prop} (hP : ∀ db op, P db → G db op → P (db.step op))
    (h : Calls G E db es db') (hdb : P db) : P db' := by
  induction h with
  | refl => exact hdb
  | push _ e he ih => exact ih
  | call _ op hop hfs ih => exact hP _ op ih hop

end Calls

/-! ## The functions of the peer manager -/

/-- The state `pm'` comes from `pm` by database operations and pushed events. The queue
of dials is as before. -/
structure Does (G : PeerDB F → DbOp F → Prop) (E : PeerManagerEvent → Prop)
    (pm pm' : PeerManager F) : Prop where
  calls : ∃ es, pm'.events = pm.events ++ es ∧ Calls G E pm.peerdb es pm'.peerdb
  peersToDial : pm'.peersToDial = pm.peersToDial

/-- The operations that are always allowed: reports, scores, gossip, the reversion of
dials and the updates of other data. -/
def DbOp.IsFree : DbOp F → Prop
  | .reportPeer _ _ _ | .updateScores _ _ | .updateGossipsubScores _ _ _ _
  | .cleanupDialingPeers _ _ | .updateMinTtl _ _ _ | .addSubscription _ _
  | .removeSubscription _ _ | .extendPeersOnSubnet _ _ | .updateSyncStatus _ _
  | .setMetaData _ _ => True
  | _ => False

/-- What the parameters have to allow for the calls that disconnect nobody on their own. -/
structure Lenient (G : PeerDB F → DbOp F → Prop) (E : PeerManagerEvent → Prop) : Prop where
  free : ∀ db op, op.IsFree → G db op
  ordinary : ∀ e, e.Ordinary → (∀ p reason, e ≠ .disconnectPeer p reason) → E e

/-- What the parameters have to allow for every call of the peer manager. -/
structure Permissive (G : PeerDB F → DbOp F → Prop) (E : PeerManagerEvent → Prop) : Prop where
  free : ∀ db op, op.IsFree → G db op
  disconnect : ∀ db p now, db.isBanned p = false → G db (.notifyDisconnecting p false now)
  ordinary : ∀ e, e.Ordinary → E e

omit [ScoreArith F] in
theorem Permissive.lenient [ScoreArith F] {G : PeerDB F → DbOp F → Prop}
    {E : PeerManagerEvent → Prop} (h : Permissive G E) : Lenient G E :=
  ⟨h.free, fun e he _ => h.ordinary e he⟩

section

variable {G : PeerDB F → DbOp F → Prop} {E : PeerManagerEvent → Prop}
  {pm pm' pm'' : PeerManager F}

namespace Does

omit [ScoreArith F] in
theorem refl [ScoreArith F] (pm : PeerManager F) : Does G E pm pm :=
  ⟨⟨[], (List.append_nil _).symm, .refl _⟩, rfl⟩

theorem trans (h : Does G E pm pm') (k : Does G E pm' pm'') : Does G E pm pm'' := by
  obtain ⟨⟨es, hes, hcalls⟩, hdial⟩ := h
  obtain ⟨⟨fs, hfs, kcalls⟩, kdial⟩ := k
  refine ⟨⟨es ++ fs, ?_, hcalls.trans kcalls⟩, kdial.trans hdial⟩
  rw [hfs, hes, List.append_assoc]

/-- A change of the other fields. -/
theorem of_same (hdb : pm'.peerdb = pm.peerdb) (hevents : pm'.events = pm.events)
    (hdial : pm'.peersToDial = pm.peersToDial) : Does G E pm pm' := by
  refine ⟨⟨[], ?_, ?_⟩, hdial⟩
  · rw [hevents, List.append_nil]
  · rw [hdb]
    exact .refl _

theorem push (pm : PeerManager F) {e : PeerManagerEvent} (he : E e) : Does G E pm (pm.push e) :=
  ⟨⟨[e], rfl, .push (.refl _) e he⟩, rfl⟩

theorem ite {c : Prop} [Decidable c] (h : Does G E pm pm') (k : Does G E pm pm'') :
    Does G E pm (if c then pm' else pm'') := by
  split
  · exact h
  · exact k

/-- One database operation with the events that report its outcome. -/
theorem call {es : List PeerManagerEvent} (op : DbOp F) (hop : G pm.peerdb op)
    (hes : Emitted pm.peerdb op es) (hdb : pm'.peerdb = pm.peerdb.step op)
    (hevents : pm'.events = pm.events ++ es) (hdial : pm'.peersToDial = pm.peersToDial) :
    Does G E pm pm' := by
  refine ⟨⟨es, hevents, ?_⟩, hdial⟩
  rw [hdb]
  exact .single op hop hes

/-- A loop over the peer manager whose rounds keep `I`. -/
theorem loop {α : Type*} {f : PeerManager F → α → PeerManager F} (I : PeerManager F → Prop)
    {as : List α} (hf : ∀ pm, ∀ a ∈ as, I pm → Does G E pm (f pm a) ∧ I (f pm a))
    (hpm : I pm) : Does G E pm (as.foldl f pm) := by
  induction as generalizing pm with
  | nil => exact .refl pm
  | cons a as ih =>
    obtain ⟨hdoes, hI⟩ := hf pm a List.mem_cons_self hpm
    exact hdoes.trans (ih (fun pm b hb => hf pm b (List.mem_cons_of_mem a hb)) hI)

end Does

namespace PeerManager

/-! ### Score actions -/

omit [ScoreArith F] in
theorem handleBanOperation_eq (pm : PeerManager F) (p : PeerId) (op : BanOperation)
    (reason : Option GoodbyeReason) : pm.handleBanOperation p op reason =
      { pm with events := pm.events ++ banOperationEvents p reason (some op) } := by
  cases op with
  | peerDisconnecting =>
    simp only [handleBanOperation, banOperationEvents, List.append_nil]
  | _ => rfl

omit [ScoreArith F] in
/-- Of the fields an invariant can see, a score action changes the events only. -/
theorem handleScoreAction_effect (pm : PeerManager F) (p : PeerId) (r : ScoreUpdateResult)
    (reason : Option GoodbyeReason) :
    (pm.handleScoreAction p r reason).peerdb = pm.peerdb ∧
      (pm.handleScoreAction p r reason).events = pm.events ++ scoreActionEvents p reason r ∧
      (pm.handleScoreAction p r reason).peersToDial = pm.peersToDial := by
  cases r with
  | ban op =>
    have heq : pm.handleScoreAction p (.ban op) reason =
        { pm with events := pm.events ++ banOperationEvents p reason (some op) } :=
      handleBanOperation_eq pm p op reason
    rw [heq]
    exact ⟨rfl, rfl, rfl⟩
  | noAction => exact ⟨rfl, (List.append_nil _).symm, rfl⟩
  | _ => exact ⟨rfl, rfl, rfl⟩

omit [ScoreArith F] in
theorem handleScoreActions_effect (pm : PeerManager F)
    (actions : List (PeerId × ScoreUpdateResult)) :
    (pm.handleScoreActions actions).peerdb = pm.peerdb ∧
      (pm.handleScoreActions actions).events =
        pm.events ++ actions.flatMap (fun r => scoreActionEvents r.1 none r.2) ∧
      (pm.handleScoreActions actions).peersToDial = pm.peersToDial := by
  unfold handleScoreActions
  induction actions generalizing pm with
  | nil => exact ⟨rfl, (List.append_nil _).symm, rfl⟩
  | cons a actions ih =>
    obtain ⟨hdb, hevents, hdial⟩ := handleScoreAction_effect pm a.1 a.2 none
    obtain ⟨hdb', hevents', hdial'⟩ := ih (pm.handleScoreAction a.1 a.2 none)
    refine ⟨hdb'.trans hdb, ?_, hdial'.trans hdial⟩
    rw [List.flatMap_cons, ← List.append_assoc, ← hevents]
    exact hevents'

variable (h : Lenient G E)
include h

theorem reportPeer_does (pm : PeerManager F) (p : PeerId) (action : PeerAction)
    (reason : Option GoodbyeReason) (now : Instant) :
    Does G E pm (pm.reportPeer p action reason now) := by
  obtain ⟨hdb, hevents, hdial⟩ := handleScoreAction_effect
    { pm with peerdb := (pm.peerdb.reportPeer p action now).1 } p
    (pm.peerdb.reportPeer p action now).2 reason
  exact .call (.reportPeer p action now) (h.free _ _ trivial) ⟨reason, rfl⟩ hdb hevents hdial

theorem goodbyePeer_does (pm : PeerManager F) (p : PeerId) (reason : GoodbyeReason)
    (now : Instant) : Does G E pm (pm.goodbyePeer p reason now) := by
  unfold goodbyePeer
  refine Does.trans ?_ (reportPeer_does h _ p .fatal (some reason) now)
  split
  · exact .call (.updateSyncStatus p .irrelevantPeer) (h.free _ _ trivial) rfl rfl
      (List.append_nil _).symm rfl
  · exact .refl pm

theorem updateGossipsubScores_does (pm : PeerManager F) (peerScore : PeerId → Option F)
    (clock : Clock) (order : Shuffle (Map.Entry PeerId (PeerInfo F))) :
    Does G E pm (pm.updateGossipsubScores peerScore clock order) := by
  obtain ⟨hdb, hevents, hdial⟩ := handleScoreActions_effect
    { pm with peerdb := (pm.peerdb.updateGossipsubScores pm.targetPeers peerScore clock order).1 }
    (pm.peerdb.updateGossipsubScores pm.targetPeers peerScore clock order).2
  exact .call (.updateGossipsubScores pm.targetPeers peerScore clock order) (h.free _ _ trivial)
    rfl hdb hevents hdial

/-! ### Disconnections -/

omit h in
theorem injectDisconnect_effect (pm : PeerManager F) (p : PeerId) (now : Instant)
    (order : Shuffle (Map.Entry PeerId (PeerInfo F))) :
    (pm.injectDisconnect p now order).peerdb = (pm.peerdb.injectDisconnect p now order).1 ∧
      (pm.injectDisconnect p now order).events = pm.events ++
        (banOperationEvents p none (pm.peerdb.injectDisconnect p now order).2.1 ++
          (pm.peerdb.injectDisconnect p now order).2.2.map fun r => .unBanned r.1 r.2) ∧
      (pm.injectDisconnect p now order).peersToDial = pm.peersToDial := by
  unfold injectDisconnect
  simp only
  split
  · next op hb =>
    rw [handleBanOperation_eq, hb]
    exact ⟨rfl, List.append_assoc _ _ _, rfl⟩
  · next hb =>
    rw [hb]
    exact ⟨rfl, rfl, rfl⟩

omit h in
theorem injectDisconnect_does (pm : PeerManager F) (p : PeerId) (now : Instant)
    (order : Shuffle (Map.Entry PeerId (PeerInfo F)))
    (hop : G pm.peerdb (.injectDisconnect p now order)) :
    Does G E pm (pm.injectDisconnect p now order) := by
  obtain ⟨hdb, hevents, hdial⟩ := injectDisconnect_effect pm p now order
  exact .call (.injectDisconnect p now order) hop rfl hdb hevents hdial

omit h in
theorem disconnectPeer_does (h : Permissive G E) (pm : PeerManager F) (p : PeerId)
    (reason : GoodbyeReason) (now : Instant)
    (hop : G pm.peerdb (.notifyDisconnecting p false now)) :
    Does G E pm (pm.disconnectPeer p reason now) := by
  refine (Does.push pm (h.ordinary (.disconnectPeer p reason) ⟨rfl, rfl⟩)).trans ?_
  exact .call (.notifyDisconnecting p false now) hop rfl rfl (List.append_nil _).symm rfl

/-! ### Connections -/

/-- What an established connection may do: it is refused, or announced and registered. -/
structure PermitsConnection (G : PeerDB F → DbOp F → Prop) (E : PeerManagerEvent → Prop)
    (db : PeerDB F) (p : PeerId) : Prop where
  refuse : ∀ now, G db (.notifyDisconnecting p false now)
  connectIngoing : ∀ address enr now, G db (.connectIngoing p address enr now)
  connectOutgoing : ∀ address enr now, G db (.connectOutgoing p address enr now)
  incoming : E (.peerConnectedIncoming p)
  outgoing : E (.peerConnectedOutgoing p)

omit h in
theorem register_does (pm : PeerManager F) {p : PeerId} (hp : PermitsConnection G E pm.peerdb p)
    (endpoint : ConnectedPoint) (now : Instant) : Does G E pm (pm.register p endpoint now) := by
  cases endpoint with
  | listener address =>
    refine Does.trans ?_ (.push _ hp.incoming)
    exact .call (.connectIngoing p address none now) (hp.connectIngoing address none now) rfl rfl
      (List.append_nil _).symm rfl
  | dialer address =>
    refine Does.trans ?_ (.push _ hp.outgoing)
    exact .call (.connectOutgoing p address none now) (hp.connectOutgoing address none now) rfl rfl
      (List.append_nil _).symm rfl

omit h in
theorem injectConnectionEstablished_does (h : Permissive G E) (pm : PeerManager F) (p : PeerId)
    (endpoint : ConnectedPoint) (otherEstablished : ℕ) (now : Instant)
    (hp : pm.peerdb.banStatus p = .notBanned → PermitsConnection G E pm.peerdb p) :
    Does G E pm (pm.injectConnectionEstablished p endpoint otherEstablished now) := by
  unfold injectConnectionEstablished
  generalize hpm' : (if otherEstablished = 0 then pm.push (.metaData p) else pm) = pm'
  have hdb : pm'.peerdb = pm.peerdb := by
    rw [← hpm']
    split <;> rfl
  have hdoes : Does G E pm pm' := by
    rw [← hpm']
    split
    · exact .push pm (h.ordinary _ ⟨rfl, rfl⟩)
    · exact .refl pm
  refine hdoes.trans ?_
  simp only
  split
  · exact goodbyePeer_does h.lenient pm' p .banned now
  · exact goodbyePeer_does h.lenient pm' p .bannedIP now
  · next hban =>
    have hperm := hp (by rw [← hdb]; exact hban)
    rw [← hdb] at hperm
    split
    · exact disconnectPeer_does h pm' p .tooManyPeers now (hperm.refuse now)
    · exact register_does pm' hperm endpoint now

omit h in
theorem injectConnectionClosed_does (pm : PeerManager F) (p : PeerId) (remaining : ℕ)
    (now : Instant) (order : Shuffle (Map.Entry PeerId (PeerInfo F)))
    (hop : remaining = 0 → G pm.peerdb (.injectDisconnect p now order) ∧
      (pm.peerdb.isConnectedOrDisconnecting p = true → E (.peerDisconnected p))) :
    Does G E pm (pm.injectConnectionClosed p remaining now order) := by
  unfold injectConnectionClosed
  split
  · exact .refl pm
  · next hzero =>
    obtain ⟨hdis, hev⟩ := hop (Nat.eq_zero_of_not_pos hzero)
    split
    · next hconn =>
      exact (Does.push pm (hev hconn)).trans (injectDisconnect_does _ p now order hdis)
    · exact injectDisconnect_does pm p now order hdis

omit h in
theorem injectDialFailure_does (pm : PeerManager F) (peerId : Option PeerId) (now : Instant)
    (order : Shuffle (Map.Entry PeerId (PeerInfo F)))
    (hop : ∀ p, peerId = some p → pm.peerdb.isConnected p = false →
      G pm.peerdb (.injectDisconnect p now order)) :
    Does G E pm (pm.injectDialFailure peerId now order) := by
  unfold injectDialFailure
  split
  · next p =>
    split
    · next hconn => exact injectDisconnect_does pm p now order (hop p rfl (by simpa using hconn))
    · exact .refl pm
  · exact .refl pm

/-! ### Discovery and requests -/

theorem maintainPeerCount_does (pm : PeerManager F) (dialing : ℕ) :
    Does G E pm (pm.maintainPeerCount dialing) := by
  unfold maintainPeerCount
  split
  · exact .ite (.push pm (h.ordinary _ ⟨rfl, rfl⟩ (by simp))) (.refl pm)
  · exact .refl pm

theorem selectToDial_does (connectedOrDialing : ℕ) (now : Instant)
    (results : List (PeerId × Option Instant)) (pm : PeerManager F) (toDial : List PeerId) :
    Does G E pm (selectToDial connectedOrDialing now results (pm, toDial)).1 := by
  induction results generalizing pm toDial with
  | nil => exact .refl pm
  | cons r results ih =>
    obtain ⟨p, minTtl⟩ := r
    unfold selectToDial
    simp only
    split
    · refine Does.trans ?_ (ih _ _)
      cases minTtl with
      | none => exact .refl pm
      | some ttl =>
        exact .call (.updateMinTtl p ttl now) (h.free _ _ trivial) rfl rfl
          (List.append_nil _).symm rfl
    · exact ih pm toDial

theorem peersDiscovered_does (pm : PeerManager F) (results : List (PeerId × Option Instant))
    (now : Instant) : Does G E pm (pm.peersDiscovered results now).1 :=
  (selectToDial_does h _ now results pm []).trans (maintainPeerCount_does h _ _)

theorem requestMetaData_does (pm : PeerManager F) (p : PeerId) (info : PeerInfo F)
    (seq : UInt64) : Does G E pm (pm.requestMetaData p info seq) := by
  have hpush : Does G E pm (pm.push (.metaData p)) :=
    .push pm (h.ordinary _ ⟨rfl, rfl⟩ (by simp))
  unfold requestMetaData
  split
  · split
    · exact hpush
    · exact .refl pm
  · exact hpush

theorem pingRequest_does (pm : PeerManager F) (p : PeerId) (seq : UInt64) :
    Does G E pm (pm.pingRequest p seq) := by
  unfold pingRequest
  split
  · refine Does.trans ?_ (requestMetaData_does h _ p _ seq)
    split <;> exact .of_same rfl rfl rfl
  · exact .refl pm

theorem pongResponse_does (pm : PeerManager F) (p : PeerId) (seq : UInt64) :
    Does G E pm (pm.pongResponse p seq) := by
  unfold pongResponse
  split
  · exact requestMetaData_does h pm p _ seq
  · exact .refl pm

omit h in
theorem addSyncSubnet_does (pm : PeerManager F) (subnetId : ℕ) (minTtl : Instant) :
    Does G E pm (pm.addSyncSubnet subnetId minTtl) := by
  unfold addSyncSubnet
  split
  · exact .of_same rfl rfl rfl
  · split
    · exact .of_same rfl rfl rfl
    · exact .refl pm

/-! ### Heartbeats and polls -/

theorem maintainSyncCommitteePeers_does (pm : PeerManager F) (now : Instant)
    (order : Shuffle (Map.Entry ℕ Instant)) :
    Does G E pm (pm.maintainSyncCommitteePeers now order) := by
  unfold maintainSyncCommitteePeers
  simp only
  split
  · exact .of_same rfl rfl rfl
  · refine Does.trans ?_
      (Does.push _ (h.ordinary (.discoverSubnetPeers _) ⟨rfl, rfl⟩ (by simp)))
    exact .of_same rfl rfl rfl

omit h in
/-- Asking a peer to disconnect bans nobody. -/
theorem isBanned_notifyDisconnecting {db : PeerDB F} {p q : PeerId} {toBan : Bool}
    {now : Instant} (hq : db.isBanned q = false) :
    (db.step (.notifyDisconnecting p toBan now)).isBanned q = false := by
  rw [PeerDB.isBanned_eq_false_iff] at hq ⊢
  change (db.notifyDisconnecting p toBan now).bannedAddrs q = none
  rw [PeerDB.bannedAddrs_notifyDisconnecting]
  split
  · rfl
  · exact hq

omit [ScoreArith F] h in
theorem not_banned_of_isConnected {db : PeerDB F} {p : PeerId} (hp : db.isConnected p = true) :
    db.isBanned p = false := by
  rw [← Bool.not_eq_true, PeerDB.isBanned_iff]
  rintro ⟨since, hs⟩
  unfold PeerDB.isConnected at hp
  rw [hs] at hp
  cases hp

omit h in
theorem pruneExcessPeers_does (h : Permissive G E) (pm : PeerManager F) (clock : Clock)
    (orders : PruneOrders F) : Does G E pm (pm.pruneExcessPeers clock orders) := by
  unfold pruneExcessPeers
  generalize hps : excessPeers pm.peerdb pm.targetPeers pm.targetOutboundPeers clock orders = ps
  refine .loop (fun pm => ∀ q ∈ ps, pm.peerdb.isBanned q = false) ?_ ?_
  · intro pm p hp hnot
    refine ⟨disconnectPeer_does h pm p .tooManyPeers (clock p) (h.disconnect _ _ _ (hnot p hp)),
      fun q hq => ?_⟩
    exact isBanned_notifyDisconnecting (hnot q hq)
  · intro q hq
    rw [← hps] at hq
    exact not_banned_of_isConnected (excessPeers_isConnected hq)

theorem decayScores_does (pm : PeerManager F) (clock : Clock)
    (order : Shuffle (Map.Entry PeerId (PeerInfo F))) :
    Does G E pm ({ pm with peerdb := (pm.peerdb.updateScores clock order).1 }.handleScoreActions
      (pm.peerdb.updateScores clock order).2) := by
  obtain ⟨hdb, hevents, hdial⟩ := handleScoreActions_effect
    { pm with peerdb := (pm.peerdb.updateScores clock order).1 }
    (pm.peerdb.updateScores clock order).2
  exact .call (.updateScores clock order) (h.free _ _ trivial) rfl hdb hevents hdial

omit h in
/-- A heartbeat up to the pruning of excess peers. -/
def upkeep (pm : PeerManager F) (inp : HeartbeatInput F) : PeerManager F :=
  let pm := pm.maintainPeerCount 0
  let pm := { pm with
    peerdb := pm.peerdb.cleanupDialingPeers inp.cleanupClock inp.cleanupOrder }
  let (peerdb, actions) := pm.peerdb.updateScores inp.scoresClock inp.scoresOrder
  let pm := { pm with peerdb := peerdb }.handleScoreActions actions
  pm.maintainSyncCommitteePeers inp.subnetsNow inp.subnetsOrder

omit h in
theorem heartbeat_eq (pm : PeerManager F) (inp : HeartbeatInput F) :
    pm.heartbeat inp = (pm.upkeep inp).pruneExcessPeers inp.pruneClock inp.pruneOrders := rfl

theorem upkeep_does (pm : PeerManager F) (inp : HeartbeatInput F) :
    Does G E pm (pm.upkeep inp) := by
  have hcleanup : ∀ pm : PeerManager F, Does G E pm { pm with
      peerdb := pm.peerdb.cleanupDialingPeers inp.cleanupClock inp.cleanupOrder } := by
    intro pm
    exact .call (.cleanupDialingPeers inp.cleanupClock inp.cleanupOrder) (h.free _ _ trivial) rfl
      rfl (List.append_nil _).symm rfl
  unfold upkeep
  refine (maintainPeerCount_does h pm 0).trans ?_
  refine (hcleanup _).trans ?_
  refine (decayScores_does h _ inp.scoresClock inp.scoresOrder).trans ?_
  exact maintainSyncCommitteePeers_does h _ inp.subnetsNow inp.subnetsOrder

omit h in
theorem heartbeat_does (h : Permissive G E) (pm : PeerManager F) (inp : HeartbeatInput F) :
    Does G E pm (pm.heartbeat inp) := by
  rw [heartbeat_eq]
  exact (upkeep_does h.lenient pm inp).trans
    (pruneExcessPeers_does h _ inp.pruneClock inp.pruneOrders)

omit h in
/-- The timers of a call of `poll`. -/
def timers (pm : PeerManager F) (inp : PollInput F) : PeerManager F :=
  let pm := pm.fireTimers pm.inboundPingPeers .ping inp.inboundPings
  let pm := pm.fireTimers pm.outboundPingPeers .ping inp.outboundPings
  if inp.syncing then pm else pm.fireTimers pm.statusPeers .status inp.statuses

omit h in
/-- The part of `poll` before its result: the heartbeats that are due and the timers. -/
def pollTimers (pm : PeerManager F) (inp : PollInput F) : PeerManager F :=
  let pm := inp.ticks.foldl heartbeat pm
  let pm := pm.fireTimers pm.inboundPingPeers .ping inp.inboundPings
  let pm := pm.fireTimers pm.outboundPingPeers .ping inp.outboundPings
  if inp.syncing then pm else pm.fireTimers pm.statusPeers .status inp.statuses

omit h in
theorem pollTimers_eq (pm : PeerManager F) (inp : PollInput F) :
    pm.pollTimers inp = (inp.ticks.foldl heartbeat pm).timers inp := rfl

theorem fireTimers_does (pm : PeerManager F) (set : DistinctList PeerId)
    (event : PeerId → PeerManagerEvent)
    (hevent : ∀ p, (event p).Ordinary ∧ ∀ q reason, event p ≠ .disconnectPeer q reason)
    (due : List PeerId) : Does G E pm (pm.fireTimers set event due) := by
  have hpush : ∀ (es : List PeerManagerEvent) (pm : PeerManager F), (∀ e ∈ es, E e) →
      Does G E pm { pm with events := pm.events ++ es } := by
    intro es
    induction es with
    | nil => exact fun pm _ => .of_same rfl (List.append_nil _) rfl
    | cons e es ih =>
      intro pm hes
      have hrest := ih (pm.push e) fun e' he' => hes e' (List.mem_cons_of_mem e he')
      have hevents : (pm.push e).events ++ es = pm.events ++ e :: es := by
        rw [push, List.append_assoc]
        rfl
      rw [hevents] at hrest
      exact (Does.push pm (hes e List.mem_cons_self)).trans hrest
  refine hpush _ pm fun e he => ?_
  obtain ⟨p, -, rfl⟩ := List.mem_map.1 he
  exact h.ordinary _ (hevent p).1 (hevent p).2

theorem timers_does (pm : PeerManager F) (inp : PollInput F) : Does G E pm (pm.timers inp) := by
  have hping : ∀ p, (PeerManagerEvent.ping p).Ordinary ∧
      ∀ q reason, PeerManagerEvent.ping p ≠ .disconnectPeer q reason :=
    fun p => ⟨⟨rfl, rfl⟩, by simp⟩
  unfold timers
  dsimp only
  refine (fireTimers_does h pm pm.inboundPingPeers .ping hping inp.inboundPings).trans ?_
  generalize pm.fireTimers pm.inboundPingPeers .ping inp.inboundPings = pm
  refine (fireTimers_does h pm pm.outboundPingPeers .ping hping inp.outboundPings).trans ?_
  generalize pm.fireTimers pm.outboundPingPeers .ping inp.outboundPings = pm
  exact .ite (.refl pm) (fireTimers_does h pm pm.statusPeers .status
    (fun p => ⟨⟨rfl, rfl⟩, by simp⟩) inp.statuses)

omit h in
theorem pollTimers_does (h : Permissive G E) (pm : PeerManager F) (inp : PollInput F) :
    Does G E pm (pm.pollTimers inp) := by
  have hticks : Does G E pm (inp.ticks.foldl heartbeat pm) :=
    .loop (fun _ => True) (fun pm tick _ _ => ⟨heartbeat_does h pm tick, trivial⟩) trivial
  rw [pollTimers_eq]
  exact hticks.trans (timers_does h.lenient _ inp)

omit h in
theorem poll_eq (pm : PeerManager F) (inp : PollInput F) :
    pm.poll inp =
      match (pm.pollTimers inp).events with
      | event :: events => ({ pm.pollTimers inp with events := events }, .generateEvent event)
      | [] =>
        match (pm.pollTimers inp).peersToDial with
        | (p, enr, trusted) :: peersToDial =>
          (({ pm.pollTimers inp with peersToDial := peersToDial }).injectDialing p enr trusted
            inp.now, .dial p)
        | [] => (pm.pollTimers inp, .pending) := rfl

omit h in
/-- The dial that a call of `poll` pops from the queue. -/
def nextDial (pm : PeerManager F) (inp : PollInput F) : Option (PeerId × Option Enr × Bool) :=
  match (pm.pollTimers inp).events with
  | _ :: _ => none
  | [] => (pm.pollTimers inp).peersToDial.head?

omit h in
theorem nextDial_eq_some {pm : PeerManager F} {inp : PollInput F}
    {d : PeerId × Option Enr × Bool} (hd : pm.nextDial inp = some d) :
    (pm.pollTimers inp).events = [] ∧ ∃ rest, (pm.pollTimers inp).peersToDial = d :: rest := by
  unfold nextDial at hd
  split at hd
  · cases hd
  · next hevents => exact ⟨hevents, List.head?_eq_some_iff.1 hd⟩

omit h in
/-- A call of `poll` that pops a dial. -/
theorem poll_of_nextDial {pm : PeerManager F} {inp : PollInput F}
    {p : PeerId} {enr : Option Enr} {trusted : Bool} {rest : List (PeerId × Option Enr × Bool)}
    (hevents : (pm.pollTimers inp).events = [])
    (hqueue : (pm.pollTimers inp).peersToDial = (p, enr, trusted) :: rest) :
    pm.poll inp = (({ pm.pollTimers inp with peersToDial := rest }).injectDialing p enr trusted
      inp.now, .dial p) := by
  rw [poll_eq, hevents]
  simp only [hqueue]

end PeerManager

/-! ## The calls of a run -/

/-- What the parameters have to allow for a call besides what they always allow. -/
def Permits (G : PeerDB F → DbOp F → Prop) (E : PeerManagerEvent → Prop) (pm : PeerManager F) :
    PmOp F → Prop
  | .injectConnectionEstablished p _ _ _ =>
    pm.peerdb.banStatus p = .notBanned → PeerManager.PermitsConnection G E pm.peerdb p
  | .injectConnectionClosed p remaining now order => remaining = 0 →
    G pm.peerdb (.injectDisconnect p now order) ∧
      (pm.peerdb.isConnectedOrDisconnecting p = true → E (.peerDisconnected p))
  | .injectDialFailure peerId now order => ∀ p, peerId = some p →
    pm.peerdb.isConnected p = false → G pm.peerdb (.injectDisconnect p now order)
  | .disconnectPeer p _ now => G pm.peerdb (.notifyDisconnecting p false now)
  | .removeTrusted p => G pm.peerdb (.setUntrusted p)
  | .poll inp => ∀ p enr trusted, pm.nextDial inp = some (p, enr, trusted) →
    G (pm.pollTimers inp).peerdb (.dialingPeer p enr trusted inp.now)
  | _ => True

omit [ScoreArith F] in
theorem System.log_withPm {s : System F} {pm : PeerManager F} {es : List PeerManagerEvent}
    (h : pm.events = s.pm.events ++ es) : (s.withPm pm).log = s.log ++ es := by
  rw [log, log, List.append_assoc, ← h]
  rfl

theorem Does.system (s : System F) (pm : PeerManager F) (h : Does G E s.pm pm) :
    ∃ es, (s.withPm pm).log = s.log ++ es ∧ Calls G E s.pm.peerdb es (s.withPm pm).pm.peerdb := by
  obtain ⟨es, hes, hcalls⟩ := h.calls
  exact ⟨es, System.log_withPm hes, hcalls⟩

theorem System.step_poll_pm (s : System F) (inp : PollInput F) :
    (s.step (.poll inp)).pm = (s.pm.poll inp).1 := by
  simp only [System.step]
  split <;> rfl

/-- The call changes the queue of dials. -/
def PmOp.queues : PmOp F → Bool
  | .dialPeer _ _ | .dialTrustedPeer _ _ | .poll _ => true
  | _ => false

/-- The calls that leave the queue of dials. -/
theorem System.step_does (h : Permissive G E) (s : System F) (op : PmOp F)
    (hop : Permits G E s.pm op) (hqueue : op.queues = false) : Does G E s.pm (s.step op).pm := by
  have hfree : ∀ op : DbOp F, op.IsFree → Emitted s.pm.peerdb op [] →
      Does G E s.pm { s.pm with peerdb := s.pm.peerdb.step op } := fun op hop hes =>
    .call op (h.free _ _ hop) hes rfl (List.append_nil _).symm rfl
  cases op with
  | injectConnectionEstablished p endpoint other now =>
    exact PeerManager.injectConnectionEstablished_does h s.pm p endpoint other now hop
  | injectConnectionClosed p remaining now order =>
    exact PeerManager.injectConnectionClosed_does s.pm p remaining now order hop
  | injectDialFailure p now order =>
    exact PeerManager.injectDialFailure_does s.pm p now order hop
  | reportPeer p action reason now =>
    exact PeerManager.reportPeer_does h.lenient s.pm p action reason now
  | goodbyePeer p reason now => exact PeerManager.goodbyePeer_does h.lenient s.pm p reason now
  | updateGossipsubScores peerScore clock order =>
    exact PeerManager.updateGossipsubScores_does h.lenient s.pm peerScore clock order
  | heartbeat inp => exact PeerManager.heartbeat_does h s.pm inp
  | peersDiscovered results now => exact PeerManager.peersDiscovered_does h.lenient s.pm results now
  | dialPeer p enr => cases hqueue
  | dialTrustedPeer p enr => cases hqueue
  | removeTrusted p => exact .call (.setUntrusted p) hop rfl rfl (List.append_nil _).symm rfl
  | disconnectPeer p reason now =>
    exact PeerManager.disconnectPeer_does h s.pm p reason now hop
  | peerStatusd p => exact .of_same rfl rfl rfl
  | pingRequest p seq => exact PeerManager.pingRequest_does h.lenient s.pm p seq
  | pongResponse p seq => exact PeerManager.pongResponse_does h.lenient s.pm p seq
  | metaDataResponse p metaData => exact hfree (.setMetaData p metaData) trivial rfl
  | addSyncSubnet id minTtl => exact PeerManager.addSyncSubnet_does s.pm id minTtl
  | addSubscription p subnet => exact hfree (.addSubscription p subnet) trivial rfl
  | removeSubscription p subnet => exact hfree (.removeSubscription p subnet) trivial rfl
  | extendPeersOnSubnet subnet minTtl =>
    exact hfree (.extendPeersOnSubnet subnet minTtl) trivial rfl
  | updateSyncStatus p status => exact hfree (.updateSyncStatus p status) trivial rfl
  | poll inp => cases hqueue

/-- **Every call of the peer manager is a sequence of database operations and events.** -/
theorem System.step_calls (h : Permissive G E) (s : System F) (op : PmOp F)
    (hop : Permits G E s.pm op) :
    ∃ es, (s.step op).log = s.log ++ es ∧ Calls G E s.pm.peerdb es (s.step op).pm.peerdb := by
  cases hqueue : op.queues with
  | false =>
    have hstep : s.step op = s.withPm (s.step op).pm := by
      cases op <;> first | rfl | cases hqueue
    rw [hstep]
    exact (step_does h s op hop hqueue).system s _
  | true =>
    cases op with
    | dialPeer p enr => exact ⟨[], (List.append_nil _).symm, .refl _⟩
    | dialTrustedPeer p enr => exact ⟨[], (List.append_nil _).symm, .refl _⟩
    | poll inp =>
      obtain ⟨⟨es, hes, hcalls⟩, -⟩ := PeerManager.pollTimers_does h s.pm inp
      simp only [System.step, PeerManager.poll_eq]
      simp only [Permits, PeerManager.nextDial] at hop
      generalize s.pm.pollTimers inp = pm at hes hcalls hop
      have hlog : s.emitted ++ pm.events = s.log ++ es := by
        rw [hes, System.log, List.append_assoc]
      cases hevents : pm.events with
      | cons e events =>
        refine ⟨es, ?_, hcalls⟩
        rw [← hlog, hevents]
        simp [System.log]
      | nil =>
        rw [hevents] at hlog hop
        cases hqueue : pm.peersToDial with
        | nil =>
          refine ⟨es, ?_, hcalls⟩
          rw [← hlog]
          simp [System.log, System.withPm, hevents]
        | cons d rest =>
          obtain ⟨p, enr, trusted⟩ := d
          refine ⟨es ++ [], ?_, ?_⟩
          · rw [List.append_nil, ← hlog]
            simp [System.log, System.withPm, PeerManager.injectDialing]
          · refine .call hcalls (.dialingPeer p enr trusted inp.now) (hop p enr trusted ?_) rfl
            rw [hqueue]
            rfl
    | _ => cases hqueue

end

/-! ### The queue of dials -/

omit [ScoreArith F] in
theorem everything_permissive [ScoreArith F] :
    Permissive (fun (_ : PeerDB F) _ => True) (fun _ => True) :=
  ⟨fun _ _ _ => trivial, fun _ _ _ _ => trivial, fun _ _ => trivial⟩

theorem permits_everything (pm : PeerManager F) (op : PmOp F) :
    Permits (fun (_ : PeerDB F) _ => True) (fun _ => True) pm op := by
  cases op with
  | injectConnectionEstablished p endpoint other now =>
    exact fun _ => ⟨fun _ => trivial, fun _ _ _ => trivial, fun _ _ _ => trivial, trivial, trivial⟩
  | injectConnectionClosed p remaining now order => exact fun _ => ⟨trivial, fun _ => trivial⟩
  | injectDialFailure p now order => exact fun _ _ _ => trivial
  | poll inp => exact fun _ _ _ _ => trivial
  | _ => trivial

/-- **Only a poll pops a dial from the queue**, the first one, and only the dial calls put one
into it. -/
theorem System.peersToDial_suffix (s : System F) {op : PmOp F}
    (hop : op.queues = false ∨ ∃ inp, op = .poll inp) :
    (s.step op).pm.peersToDial <:+ s.pm.peersToDial := by
  rcases hop with hqueue | ⟨inp, rfl⟩
  · rw [(step_does everything_permissive s op (permits_everything s.pm op) hqueue).peersToDial]
  · rw [← (PeerManager.pollTimers_does everything_permissive s.pm inp).peersToDial,
      step_poll_pm, PeerManager.poll_eq]
    generalize s.pm.pollTimers inp = pm
    cases pm.events with
    | cons e events => exact List.suffix_rfl
    | nil =>
      cases hdials : pm.peersToDial with
      | nil =>
        show pm.peersToDial <:+ []
        rw [hdials]
      | cons d rest => exact List.suffix_cons d rest

end Consentry
