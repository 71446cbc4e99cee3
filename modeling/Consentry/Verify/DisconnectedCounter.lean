import Consentry.Lib.Run
import Consentry.Verify.Eviction
import Consentry.Verify.Status

/-!
# The counter of disconnected peers

`DisconnectedExact` relates `disconnected_peers` to the entries of the database.
**`Arm.step_disconnectedPeers`**: every arm of `update_connection_state` moves the counter
as the peer enters or leaves the disconnected state, an eviction removes a disconnected
entry for each decrement, and nothing else changes a status. Hence
**`PeerDB.disconnectedExact`**: the counter is exact after every operation.
-/

namespace Consentry

open Lib

variable {F : Type}

namespace PeerConnectionStatus

def isDisconnected : PeerConnectionStatus → Bool
  | disconnected _ => true
  | _ => false

end PeerConnectionStatus

theorem PeerInfo.isDisconnected_eq (info : PeerInfo F) :
    info.isDisconnected = info.connectionStatus.isDisconnected := by
  unfold isDisconnected
  cases info.connectionStatus <;> rfl

/-! ## The arms -/

namespace Arm

variable (s : Arm F)

@[simp] theorem updateEnr_disconnectedPeers (enr : Option Enr) :
    (s.updateEnr enr).disconnectedPeers = s.disconnectedPeers := by
  cases enr <;> rfl

@[simp] theorem setDialingPeer_disconnectedPeers (now : Instant) :
    (s.setDialingPeer now).disconnectedPeers = s.disconnectedPeers := by
  unfold setDialingPeer
  split <;> rfl

@[simp] theorem banScore_disconnectedPeers [ScoreArith F] (st : NewConnectionState) :
    (s.banScore st).disconnectedPeers = s.disconnectedPeers := by
  unfold banScore
  split
  · split <;> rfl
  · rfl

theorem toConnected_disconnectedPeers (enr : Option Enr) (address : Multiaddr)
    (direction : ConnectionDirection) (now : Instant) :
    (s.toConnected enr address direction).disconnectedPeers =
      s.disconnectedPeers.moved s.info.connectionStatus.isDisconnected
        (s.info.connectionStatus.next now (.connected enr address direction)).isDisconnected := by
  unfold toConnected
  cases hs : s.info.connectionStatus <;> cases direction <;>
    simp [hs, decrementDisconnected, removeBannedPeer, PeerConnectionStatus.next,
      PeerConnectionStatus.isDisconnected, Counter.moved]

theorem toDialing_disconnectedPeers (enr : Option Enr) (trusted : Bool) (now : Instant) :
    (s.toDialing enr trusted now).disconnectedPeers =
      s.disconnectedPeers.moved s.info.connectionStatus.isDisconnected
        (s.info.connectionStatus.next now (.dialing enr trusted)).isDisconnected := by
  unfold toDialing
  cases s.info.connectionStatus <;> cases trusted <;>
    simp [decrementDisconnected, removeBannedPeer, PeerConnectionStatus.next,
      PeerConnectionStatus.isDisconnected, Counter.moved]

theorem toDisconnected_disconnectedPeers (now : Instant) :
    (s.toDisconnected now).disconnectedPeers =
      s.disconnectedPeers.moved s.info.connectionStatus.isDisconnected
        (s.info.connectionStatus.next now .disconnected).isDisconnected := by
  unfold toDisconnected
  simp only [PeerInfo.clearSubnets]
  cases s.info.connectionStatus with
  | disconnecting toBan => cases toBan <;> rfl
  | _ => rfl

theorem toDisconnecting_disconnectedPeers (toBan : Bool) (now : Instant) :
    (s.toDisconnecting toBan).disconnectedPeers =
      s.disconnectedPeers.moved s.info.connectionStatus.isDisconnected
        (s.info.connectionStatus.next now (.disconnecting toBan)).isDisconnected := by
  unfold toDisconnecting
  cases s.info.connectionStatus <;> rfl

theorem toBanned_disconnectedPeers (now : Instant) :
    (s.toBanned now).disconnectedPeers =
      s.disconnectedPeers.moved s.info.connectionStatus.isDisconnected
        (s.info.connectionStatus.next now .banned).isDisconnected := by
  unfold toBanned
  cases s.info.connectionStatus <;> rfl

theorem toUnbanned_disconnectedPeers (now : Instant) :
    s.toUnbanned.disconnectedPeers =
      s.disconnectedPeers.moved s.info.connectionStatus.isDisconnected
        (s.info.connectionStatus.next now .unbanned).isDisconnected := by
  unfold toUnbanned
  cases s.info.connectionStatus <;> rfl

/-- **The counter in `update_connection_state`**: it moves with the status. -/
theorem step_disconnectedPeers [ScoreArith F] (st : NewConnectionState) (now : Instant) :
    (s.step st now).disconnectedPeers =
      s.disconnectedPeers.moved s.info.isDisconnected (s.step st now).info.isDisconnected := by
  rw [PeerInfo.isDisconnected_eq, PeerInfo.isDisconnected_eq, step_status,
    ← banScore_status s st, ← banScore_disconnectedPeers s st]
  cases st with
  | connected enr address direction =>
    exact toConnected_disconnectedPeers _ enr address direction now
  | dialing enr trusted => exact toDialing_disconnectedPeers _ enr trusted now
  | disconnected => exact toDisconnected_disconnectedPeers _ now
  | disconnecting toBan => exact toDisconnecting_disconnectedPeers _ toBan now
  | banned => exact toBanned_disconnectedPeers _ now
  | unbanned => exact toUnbanned_disconnectedPeers _ now

end Arm

/-! ## The database -/

namespace PeerDB

/-- The counter of disconnected peers is the number of entries with status `Disconnected`,
and it has never saturated. -/
def DisconnectedExact (db : PeerDB F) : Prop :=
  db.disconnectedPeers.Tracks (fun _ info => info.isDisconnected) db.peers

variable {db db' : PeerDB F}

/-- The peer has an entry with status `Disconnected`. -/
def isDisconnected (db : PeerDB F) (p : PeerId) : Bool :=
  (db.peerInfo p).elim false (·.isDisconnected)

theorem DisconnectedExact.of_same (h : db.DisconnectedExact)
    (hp : ∀ p, db'.isDisconnected p = db.isDisconnected p)
    (hcount : db'.disconnectedPeers = db.disconnectedPeers) : db'.DisconnectedExact := by
  unfold DisconnectedExact
  rw [hcount]
  exact Counter.Tracks.same h hp

theorem DisconnectedExact.empty : (PeerDB.empty : PeerDB F).DisconnectedExact :=
  Counter.Tracks.empty

/-- The removal of an entry. -/
theorem DisconnectedExact.erase (h : db.DisconnectedExact) {p : PeerId}
    (hpeers : db'.peers = db.peers.erase p)
    (hcount : db'.disconnectedPeers = db.disconnectedPeers.moved (db.isDisconnected p) false) :
    db'.DisconnectedExact := by
  have herase : ∀ q, db'.isDisconnected q = if q = p then false else db.isDisconnected q := by
    intro q
    unfold isDisconnected peerInfo
    rw [hpeers, Map.lookup_erase_eq]
    split <;> rfl
  refine Counter.Tracks.move (k := p) h (fun q hq => ?_) ?_
  · exact (herase q).trans (if_neg hq)
  · have hp : db'.isDisconnected p = false := (herase p).trans (if_pos rfl)
    rw [hcount, ← hp]
    rfl

section

variable [ScoreArith F]

theorem DisconnectedExact.updateConnectionState (h : db.DisconnectedExact) (p : PeerId)
    (st : NewConnectionState) (now : Instant) :
    (db.updateConnectionState p st now).1.DisconnectedExact := by
  have hentry : (db.entryOrInsert p st now).isDisconnected = db.isDisconnected p := by
    unfold isDisconnected
    cases hp : db.peerInfo p with
    | none =>
      have hfresh := (entryOrInsert_of_none hp st now).1
      simp [PeerInfo.isDisconnected, hfresh]
    | some info => rw [entryOrInsert_of_some hp, Option.elim_some]
  have hstep : ∀ q, (db.updateConnectionState p st now).1.isDisconnected q =
      if q = p then ((db.arm (db.entryOrInsert p st now)).step st now).info.isDisconnected
      else db.isDisconnected q := by
    intro q
    unfold isDisconnected
    rw [updateConnectionState_peerInfo]
    split <;> rfl
  refine Counter.Tracks.move (k := p) h (fun q hq => ?_) ?_
  · exact (hstep q).trans (if_neg hq)
  · have hmoved := Arm.step_disconnectedPeers (db.arm (db.entryOrInsert p st now)) st now
    have hp := (hstep p).trans (if_pos rfl)
    rw [← hp] at hmoved
    rw [arm, hentry] at hmoved
    exact hmoved

/-- Changes of scores. -/
theorem DisconnectedExact.rescored (h : db.DisconnectedExact) (hscore : db.Rescored db') :
    db'.DisconnectedExact := by
  refine h.of_same (fun p => ?_) hscore.disconnectedPeers
  have hview : ∀ d : PeerDB F, d.isDisconnected p =
      ((d.peerInfo p).map PeerInfo.unscored).elim false (·.isDisconnected) := by
    intro d
    unfold isDisconnected
    cases d.peerInfo p <;> rfl
  rw [hview, hview, hscore.entries]

end

theorem DisconnectedExact.modifyPeer (h : db.DisconnectedExact) {f : PeerInfo F → PeerInfo F}
    (hf : ∀ info, (f info).connectionStatus = info.connectionStatus) (p : PeerId) :
    (db.modifyPeer p f).DisconnectedExact := by
  refine h.of_same (fun q => ?_) ?_
  · unfold isDisconnected
    rw [modifyPeer_peerInfo]
    split
    · next hq =>
      rw [hq]
      cases db.peerInfo p with
      | none => rfl
      | some info =>
        simp only [Option.map_some, Option.elim_some, PeerInfo.isDisconnected_eq, hf]
    · rfl
  · unfold PeerDB.modifyPeer
    split <;> rfl

theorem DisconnectedExact.updateMinTtl [ScoreArith F] (h : db.DisconnectedExact) (p : PeerId)
    (minTtl now : Instant) : (db.updateMinTtl p minTtl now).DisconnectedExact := by
  refine h.of_same (fun q => ?_) rfl
  unfold PeerDB.updateMinTtl isDisconnected
  rw [peerInfo_insert]
  split
  · next hq =>
    rw [hq]
    cases db.peerInfo p with
    | none => split <;> rfl
    | some info => split <;> rfl
  · rfl

theorem DisconnectedExact.extendPeersOnSubnet (h : db.DisconnectedExact) (subnet : Subnet)
    (minTtl : Instant) : (db.extendPeersOnSubnet subnet minTtl).DisconnectedExact := by
  refine h.of_same (fun q => ?_) rfl
  unfold PeerDB.extendPeersOnSubnet isDisconnected peerInfo
  rw [Map.lookup_mapVal]
  cases db.peers.lookup q with
  | none => rfl
  | some info =>
    simp only [Option.map_some, Option.elim_some]
    split <;> rfl

/-! ### Eviction -/

theorem isDisconnected_iff {p : PeerId} :
    db.isDisconnected p = true ↔ ∃ since, db.connectionStatus p = some (.disconnected since) := by
  unfold isDisconnected connectionStatus PeerInfo.isDisconnected
  cases db.peerInfo p with
  | none => simp
  | some info => cases hs : info.connectionStatus <;> simp [hs]

/-- The removal of a banned entry. -/
theorem DisconnectedExact.shrinkBanned (order : Shuffle (Map.Entry PeerId (PeerInfo F)))
    {rounds : ℕ} (acc : List (PeerId × List IpAddr)) (h : db.DisconnectedExact) :
    (shrinkBanned order rounds db acc).1.DisconnectedExact := by
  induction rounds generalizing db acc with
  | zero => exact h
  | succ rounds ih =>
    rw [PeerDB.shrinkBanned]
    split
    · split
      · next e since harg =>
        refine ih _ (h.erase (p := e.1) rfl ?_)
        have hmem : (e, since) ∈ db.bannedSince order := List.argmin_mem harg
        obtain ⟨hentry, hs⟩ := mem_bannedSince.1 hmem
        have hnot : db.isDisconnected e.1 = false := by
          rw [isDisconnected, hentry, Option.elim_some, PeerInfo.isDisconnected_eq, hs]
          rfl
        rw [hnot]
        rfl
      · exact ih acc h
    · exact h

/-- The removal of a disconnected entry; there is one whenever the counter is not zero. -/
theorem DisconnectedExact.shrinkDisconnected
    (order : Shuffle (Map.Entry PeerId (PeerInfo F))) {rounds : ℕ} (h : db.DisconnectedExact) :
    (shrinkDisconnected order rounds db).DisconnectedExact := by
  induction rounds generalizing db with
  | zero => exact h
  | succ rounds ih =>
    rw [PeerDB.shrinkDisconnected]
    split
    · next hmax =>
      apply ih
      split
      · next p since harg =>
        have hmem : (p, since) ∈ db.disconnectedSince order := List.argmin_mem harg
        have hp : db.isDisconnected p = true :=
          isDisconnected_iff.2 ⟨since, mem_disconnectedSince.1 hmem⟩
        refine h.erase (p := p) rfl ?_
        rw [hp]
        rfl
      · next harg =>
        have hpos : 0 < db.peers.count fun _ info => info.isDisconnected :=
          h.val_eq ▸ Nat.zero_lt_of_lt hmax
        obtain ⟨e, he, hdis⟩ := List.countP_pos_iff.1 hpos
        have hp : db.isDisconnected e.1 = true := by
          rw [isDisconnected, peerInfo, Map.mem_entries_iff.1 he]
          exact hdis
        obtain ⟨since, hs⟩ := isDisconnected_iff.1 hp
        have hmem : (e.1, since) ∈ db.disconnectedSince order := mem_disconnectedSince.2 hs
        rw [List.argmin_eq_none.1 harg] at hmem
        cases hmem
    · exact h

theorem DisconnectedExact.shrinkToFit (h : db.DisconnectedExact)
    (order : Shuffle (Map.Entry PeerId (PeerInfo F))) :
    (db.shrinkToFit order).1.DisconnectedExact :=
  .shrinkDisconnected order (.shrinkBanned order [] h)

/-! ### Operations -/

variable [ScoreArith F]

theorem DisconnectedExact.unbanPeer (h : db.DisconnectedExact) (p : PeerId) (now : Instant) :
    (db.unbanPeer p now).1.DisconnectedExact :=
  h.updateConnectionState p .unbanned now

theorem DisconnectedExact.reportPeer (h : db.DisconnectedExact) (p : PeerId)
    (action : PeerAction) (now : Instant) : (db.reportPeer p action now).1.DisconnectedExact := by
  unfold PeerDB.reportPeer
  cases hp : db.peerInfo p with
  | none => exact h
  | some info =>
    have hscore := h.rescored (.insert hp (info.unscored_applyPeerActionToScore action))
    simp only
    split
    · exact hscore.updateConnectionState p .banned now
    · exact hscore.updateConnectionState p (.disconnecting false) now
    · exact hscore
    · exact hscore

theorem DisconnectedExact.updateScores (h : db.DisconnectedExact) (clock : Clock)
    (order : Shuffle (Map.Entry PeerId (PeerInfo F))) :
    (db.updateScores clock order).1.DisconnectedExact := by
  have hscore := h.rescored (.mapVal
    (fun p (info : PeerInfo F) => info.unscored_scoreUpdate (clock p)) db)
  unfold PeerDB.updateScores
  exact foldl_rel (R := fun r r' : PeerDB F × List (PeerId × ScoreUpdateResult) =>
    r.1.DisconnectedExact → r'.1.DisconnectedExact) (fun _ h => h)
    (fun _ _ _ h k hr => k (h hr)) (fun r p hr => hr.unbanPeer p (clock p)) _ (_, []) hscore

theorem DisconnectedExact.gossipsubAction (h : db.DisconnectedExact) (p : PeerId)
    (action : ScoreTransitionResult) (now : Instant) :
    (db.gossipsubAction p action now).1.DisconnectedExact := by
  cases action with
  | banned => exact h.updateConnectionState p .banned now
  | disconnected => exact h.updateConnectionState p (.disconnecting false) now
  | noAction => exact h
  | unbanned => exact h.unbanPeer p now

theorem DisconnectedExact.updateGossipsubScores (h : db.DisconnectedExact) (target : ℕ)
    (peerScore : PeerId → Option F) (clock : Clock)
    (order : Shuffle (Map.Entry PeerId (PeerInfo F))) :
    (db.updateGossipsubScores target peerScore clock order).1.DisconnectedExact := by
  unfold PeerDB.updateGossipsubScores
  generalize ((F32.ofNat target).mul allowedNegativeGossipsubFactor).ceil = toIgnore
  have hscore := h.rescored (setGossipsubScores_rescored db peerScore clock order toIgnore).1
  exact foldl_rel (R := fun r r' : PeerDB F × List (PeerId × ScoreUpdateResult) =>
    r.1.DisconnectedExact → r'.1.DisconnectedExact) (fun _ h => h)
    (fun _ _ _ h k hr => k (h hr)) (fun r a hr => hr.gossipsubAction a.1 a.2 (clock a.1)) _
    (_, []) hscore

theorem DisconnectedExact.cleanupDialingPeers (h : db.DisconnectedExact) (clock : Clock)
    (order : Shuffle (Map.Entry PeerId (PeerInfo F))) :
    (db.cleanupDialingPeers clock order).DisconnectedExact :=
  foldl_rel (R := fun db db' : PeerDB F => db.DisconnectedExact → db'.DisconnectedExact)
    (fun _ h => h) (fun _ _ _ h k hr => k (h hr))
    (fun _ p h => h.updateConnectionState p .disconnected (clock p)) _ db h

theorem DisconnectedExact.step (h : db.DisconnectedExact) (op : DbOp F) :
    (db.step op).DisconnectedExact := by
  cases op with
  | connectIngoing p address enr now => exact h.updateConnectionState p _ now
  | connectOutgoing p address enr now => exact h.updateConnectionState p _ now
  | dialingPeer p enr trusted now => exact h.updateConnectionState p _ now
  | notifyDisconnecting p toBan now => exact h.updateConnectionState p _ now
  | injectDisconnect p now order =>
    change (db.injectDisconnect p now order).1.DisconnectedExact
    rw [injectDisconnect_fst]
    exact (h.updateConnectionState p .disconnected now).shrinkToFit order
  | reportPeer p action now => exact h.reportPeer p action now
  | updateScores clock order => exact h.updateScores clock order
  | updateGossipsubScores target peerScore clock order =>
    exact h.updateGossipsubScores target peerScore clock order
  | cleanupDialingPeers clock order => exact h.cleanupDialingPeers clock order
  | shrinkToFit order => exact h.shrinkToFit order
  | updateMinTtl p minTtl now => exact h.updateMinTtl p minTtl now
  | addSubscription p subnet =>
    refine h.modifyPeer ?_ p
    exact fun _ => rfl
  | removeSubscription p subnet =>
    refine h.modifyPeer ?_ p
    exact fun _ => rfl
  | extendPeersOnSubnet subnet minTtl => exact h.extendPeersOnSubnet subnet minTtl
  | updateSyncStatus p status =>
    rw [PeerDB.step, updateSyncStatus_eq]
    refine h.modifyPeer ?_ p
    exact fun _ => rfl
  | setMetaData p metaData =>
    refine h.modifyPeer ?_ p
    exact fun _ => rfl
  | setUntrusted p =>
    refine h.modifyPeer ?_ p
    exact fun _ => rfl

/-- **The counter of disconnected peers is exact** after every operation. -/
theorem disconnectedExact (ops : List (DbOp F)) :
    Throughout PeerDB.step
      (fun db => db.disconnectedPeers.val = db.peers.count (fun _ info => info.isDisconnected) ∧
        db.disconnectedPeers.saturated = false) PeerDB.empty ops := by
  have hexact : Throughout PeerDB.step DisconnectedExact (PeerDB.empty : PeerDB F) ops :=
    throughout_of_step (fun _ op h => h.step op) ops .empty
  exact hexact.mono fun db h => ⟨h.val_eq, h.unsaturated⟩

end PeerDB

end Consentry
