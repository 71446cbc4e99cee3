import Consentry.Lib.Run
import Consentry.Verify.Admission
import Consentry.Verify.BanCounters

/-!
# The bans the swarm knows of

The swarm learns of bans from the events of the peer manager alone. `SwarmBans.after` is
what it makes of them: the banned peers and the banned addresses.

* **`swarmBans_agree_iff`**: the banned peers of the swarm are those of the database,
  throughout a run, exactly when no step takes a banned peer out of that state silently:
  a queued dial, a disconnection request or an accepted connection does.
* **`swarmIps_agree`**: the banned addresses of the swarm are those of the counters in
  every run in which the swarm honours bans.
-/

namespace Consentry

open Lib

/-- What the swarm takes to be banned. -/
structure SwarmBans where
  peers : Set PeerId
  ips : Set IpAddr

namespace SwarmBans

def empty : SwarmBans := ⟨∅, ∅⟩

def apply (b : SwarmBans) : BanNotice → SwarmBans
  | .banned p ips => ⟨{q | q = p ∨ q ∈ b.peers}, {ip | ip ∈ ips ∨ ip ∈ b.ips}⟩
  | .unBanned p ips => ⟨{q | q ≠ p ∧ q ∈ b.peers}, {ip | ip ∉ ips ∧ ip ∈ b.ips}⟩

/-- The bans after all the events of a log. -/
def after (log : List PeerManagerEvent) : SwarmBans :=
  (log.filterMap PeerManagerEvent.notice).foldl apply empty

theorem after_append (log es : List PeerManagerEvent) :
    after (log ++ es) = (es.filterMap PeerManagerEvent.notice).foldl apply (after log) := by
  rw [after, List.filterMap_append, List.foldl_append]
  rfl

/-- Events without a notice leave the bans of the swarm. -/
theorem after_append_of_quiet {log es : List PeerManagerEvent} (h : ∀ e ∈ es, e.notice = none) :
    after (log ++ es) = after log := by
  rw [after_append, List.filterMap_eq_nil_iff.2 h]
  rfl

end SwarmBans

variable {F : Type}

/-! ## The ledger and the swarm -/

/-- The swarm and the database agree on the banned peers. -/
def SwarmBans.PeersAgree (b : SwarmBans) (db : PeerDB F) : Prop :=
  ∀ p, p ∈ b.peers ↔ db.isBanned p = true

/-- The swarm and the counters agree on the banned addresses. -/
def SwarmBans.IpsAgree (b : SwarmBans) (db : PeerDB F) : Prop :=
  ∀ ip, ip ∈ b.ips ↔ db.isIpBanned ip = true

namespace PeerDB

variable {db db' : PeerDB F} {ns : List BanNotice} {b : SwarmBans}

theorem isBanned_of_same (h : ∀ p, db'.bannedAddrs p = db.bannedAddrs p) (p : PeerId) :
    db'.isBanned p = db.isBanned p := by
  rw [← bannedAddrs_isSome, ← bannedAddrs_isSome, h]

/-- Redundant notices leave what the swarm takes to be banned as it is. -/
theorem agree_of_redundant (hns : ∀ n ∈ ns, db.Redundant n) :
    (b.PeersAgree db → (ns.foldl SwarmBans.apply b).PeersAgree db) ∧
      (b.IpsAgree db → (ns.foldl SwarmBans.apply b).IpsAgree db) := by
  induction ns generalizing b with
  | nil => exact ⟨id, id⟩
  | cons n ns ih =>
    obtain ⟨hpeers, hips⟩ := ih (b := b.apply n) fun m hm => hns m (List.mem_cons_of_mem n hm)
    have hn := hns n List.mem_cons_self
    cases n with
    | banned p ips =>
      obtain ⟨hp, hbanned⟩ := hn
      rw [bannedAddrs_isSome] at hp
      refine ⟨fun hb => hpeers fun q => ?_, fun hb => hips fun ip => ?_⟩
      · constructor
        · rintro (rfl | hq)
          · exact hp
          · exact (hb q).1 hq
        · exact fun hq => .inr ((hb q).2 hq)
      · constructor
        · rintro (hip | hip)
          · exact hbanned ip hip
          · exact (hb ip).1 hip
        · exact fun hip => .inr ((hb ip).2 hip)
    | unBanned p ips =>
      obtain ⟨hp, hfree⟩ := hn
      rw [← isBanned_eq_false_iff] at hp
      refine ⟨fun hb => hpeers fun q => ?_, fun hb => hips fun ip => ?_⟩
      · constructor
        · exact fun hq => (hb q).1 hq.2
        · intro hq
          refine ⟨?_, (hb q).2 hq⟩
          rintro rfl
          rw [hp] at hq
          cases hq
      · constructor
        · exact fun hip => (hb ip).1 hip.2
        · intro hip
          refine ⟨fun hmem => ?_, (hb ip).2 hip⟩
          rw [hfree ip hmem] at hip
          cases hip

/-- The swarm follows the banned peers through a move that ends no ban silently. -/
theorem peersAgree_banStep (k : BanStep False False db ns db') (hb : b.PeersAgree db) :
    (ns.foldl SwarmBans.apply b).PeersAgree db' := by
  cases k with
  | stay haddrs hcount hns =>
    refine (agree_of_redundant hns).1 fun p => ?_
    rw [isBanned_of_same haddrs]
    exact hb p
  | enter p ips hs hr hcount hns =>
    subst hns
    intro q
    rw [← bannedAddrs_isSome, hr]
    by_cases hq : q = p
    · rw [if_pos hq]
      exact ⟨fun _ => rfl, fun _ => .inl hq⟩
    · rw [if_neg hq, bannedAddrs_isSome, ← hb q]
      exact ⟨fun h => h.resolve_left hq, .inr⟩
  | leave p ips hs hr hcount hns =>
    subst hns
    intro q
    rw [← bannedAddrs_isSome, hr]
    by_cases hq : q = p
    · rw [if_pos hq]
      exact ⟨fun h => absurd hq h.1, fun h => by cases h⟩
    · rw [if_neg hq, bannedAddrs_isSome, ← hb q]
      exact ⟨fun h => h.2, fun h => ⟨hq, h⟩⟩
  | slip hfalse => exact hfalse.elim
  | leak hfalse => exact hfalse.elim
  | reset hmax hs hr hcount hns =>
    subst hns
    intro q
    rw [isBanned_of_same fun p => (hr p).trans (hs p).symm]
    exact hb q

/-- The swarm follows the banned addresses through a move that ends no ban silently, when
the counters are exact. -/
theorem ipsAgree_banStep (k : BanStep False False db ns db') (hexact : db.BansExact)
    (hb : b.IpsAgree db) : (ns.foldl SwarmBans.apply b).IpsAgree db' := by
  cases k with
  | stay haddrs hcount hns =>
    refine (agree_of_redundant hns).2 fun ip => ?_
    rw [isIpBanned, hcount]
    exact hb ip
  | enter p ips hs hr hcount hns =>
    subst hns
    intro ip
    change (ip ∈ ips.filter db'.isIpBanned ∨ ip ∈ b.ips) ↔ _
    rw [List.mem_filter]
    constructor
    · rintro (hip | hip)
      · exact hip.2
      · rw [isIpBanned, hcount]
        exact BannedPeersCount.ipIsBanned_addBannedPeer_of_banned ((hb ip).1 hip)
    · intro hip
      by_cases hmem : ip ∈ ips
      · exact .inl ⟨hmem, hip⟩
      · right
        rw [isIpBanned, hcount,
          BannedPeersCount.ipIsBanned_addBannedPeer_of_not_mem hmem] at hip
        exact (hb ip).2 hip
  | leave p ips hs hr hcount hns =>
    subst hns
    intro ip
    change (ip ∉ ips.filter (fun ip => !db'.isIpBanned ip) ∧ ip ∈ b.ips) ↔ _
    rw [List.mem_filter]
    constructor
    · rintro ⟨hnot, hip⟩
      have hbefore := (hb ip).1 hip
      by_cases hmem : ip ∈ ips
      · by_contra hfree
        exact hnot ⟨hmem, by simpa using hfree⟩
      · rw [isIpBanned, hcount, BannedPeersCount.ipIsBanned_removeBannedPeer_of_not_mem hmem]
        exact hbefore
    · intro hip
      refine ⟨fun hmem => ?_, (hb ip).2 ?_⟩
      · simp [hip] at hmem
      · rw [isIpBanned, hcount] at hip
        exact BannedPeersCount.ipIsBanned_of_removeBannedPeer hip
  | slip hfalse => exact hfalse.elim
  | leak hfalse => exact hfalse.elim
  | reset hmax hs hr hcount hns =>
    rw [hexact.banned, bannedEntries_eq_zero hs] at hmax
    exact absurd hmax (Nat.not_lt_zero _)

/-- A run of moves. -/
theorem peersAgree_banSteps (k : BanSteps False False db ns db') (hb : b.PeersAgree db) :
    (ns.foldl SwarmBans.apply b).PeersAgree db' := by
  induction k with
  | refl => exact hb
  | tail _ k ih =>
    rw [List.foldl_append]
    exact peersAgree_banStep k ih

theorem ipsAgree_banSteps (k : BanSteps False False db ns db') (hexact : db.BansExact)
    (hb : b.IpsAgree db) : (ns.foldl SwarmBans.apply b).IpsAgree db' := by
  induction k with
  | refl => exact hb
  | tail h k ih =>
    rw [List.foldl_append]
    exact ipsAgree_banStep k (hexact.banSteps h) ih

end PeerDB

/-! ## The latest event of a peer -/

def BanNotice.peerId : BanNotice → PeerId
  | .banned p _ | .unBanned p _ => p

def BanNotice.isBan : BanNotice → Bool
  | .banned _ _ => true
  | .unBanned _ _ => false

/-- The latest of the events `Banned` and `UnBanned` of the peer is `Banned`. -/
def latestIsBan (log : List PeerManagerEvent) (p : PeerId) : Bool :=
  ((log.filterMap PeerManagerEvent.notice).reverse.find? fun n => n.peerId = p).elim false
    BanNotice.isBan

theorem mem_after_peers (log : List PeerManagerEvent) (p : PeerId) :
    p ∈ (SwarmBans.after log).peers ↔ latestIsBan log p = true := by
  unfold SwarmBans.after latestIsBan
  generalize log.filterMap PeerManagerEvent.notice = ns
  induction ns using List.reverseRecOn with
  | nil => simp [SwarmBans.empty]
  | append_singleton ns n ih =>
    rw [List.foldl_append, List.reverse_append, List.reverse_singleton, List.singleton_append,
      List.find?_cons]
    cases n with
    | banned q ips =>
      change (p = q ∨ p ∈ (ns.foldl SwarmBans.apply SwarmBans.empty).peers) ↔ _
      by_cases hq : q = p
      · simp [BanNotice.peerId, BanNotice.isBan, hq]
      · simp [BanNotice.peerId, hq, Ne.symm hq, ih]
    | unBanned q ips =>
      change (p ≠ q ∧ p ∈ (ns.foldl SwarmBans.apply SwarmBans.empty).peers) ↔ _
      by_cases hq : q = p
      · simp [BanNotice.peerId, BanNotice.isBan, hq]
      · simp [BanNotice.peerId, hq, Ne.symm hq, ih]

/-! ## Runs of the peer manager -/

variable [ScoreArith F]

namespace System

/-- The step takes no banned peer out of that state without an event: it dials no banned
peer, asks none to disconnect, and accepts no connection of one. -/
def keepsBans (s : System F) : PmOp F → Bool
  | .injectConnectionEstablished p _ _ _ =>
    !(decide (s.pm.peerdb.banStatus p = .notBanned) && s.pm.peerdb.isBanned p)
  | .disconnectPeer p _ _ => !s.pm.peerdb.isBanned p
  | .poll inp => (s.pm.nextDial inp).elim true fun d =>
    !(s.pm.pollTimers inp).peerdb.isBanned d.1
  | _ => true

/-- The swarm honours bans in the step: no banned peer is dialed, reported connected or
told to disconnect. -/
def honoursBans (s : System F) : PmOp F → Bool
  | .injectConnectionEstablished p _ _ _ => !s.pm.peerdb.isBanned p
  | .disconnectPeer p _ _ => !s.pm.peerdb.isBanned p
  | .poll inp => (s.pm.nextDial inp).elim true fun d =>
    !(s.pm.pollTimers inp).peerdb.isBanned d.1
  | _ => true

theorem keepsBans_of_honoursBans {s : System F} {op : PmOp F} (h : s.honoursBans op = true) :
    s.keepsBans op = true := by
  cases op with
  | injectConnectionEstablished p endpoint other now =>
    have hnot : s.pm.peerdb.isBanned p = false := by simpa [honoursBans] using h
    simp [keepsBans, hnot]
  | _ => exact h

omit [ScoreArith F] in
/-- The database operations that neither readmit nor disconnect a banned peer. -/
theorem respectsBans_permissive :
    Permissive (fun (db : PeerDB F) op => db.respectsBans op = true)
      (fun e => e.notice = none) := by
  refine ⟨fun db op hop => ?_, fun db p now hp => ?_, fun e he => he.1⟩
  · cases op <;> first | rfl | exact hop.elim
  · simp [PeerDB.respectsBans, PeerDB.readmits, PeerDB.disconnectsBanned, hp]

theorem calls_banSteps {db db' : PeerDB F} {es : List PeerManagerEvent}
    (h : Calls (fun (db : PeerDB F) op => db.respectsBans op = true) (fun e => e.notice = none)
      db es db') :
    BanSteps False False db (es.filterMap PeerManagerEvent.notice) db' := by
  induction h with
  | refl => exact .refl _
  | push _ e he ih =>
    rw [List.filterMap_append]
    simpa [he] using ih
  | call _ op hop hfs ih =>
    rw [List.filterMap_append, hfs.notices]
    rw [PeerDB.respectsBans, Bool.and_eq_true, Bool.not_eq_true', Bool.not_eq_true'] at hop
    obtain ⟨hread, hdis⟩ := hop
    refine ih.trans (PeerDB.step_banSteps _ op ?_ ?_)
    · simp [hread]
    · simp [hdis]

theorem permits_of_keepsBans {s : System F} {op : PmOp F} (h : s.keepsBans op = true) :
    Permits (fun (db : PeerDB F) op => db.respectsBans op = true) (fun e => e.notice = none)
      s.pm op := by
  cases op with
  | injectConnectionEstablished p endpoint other now =>
    intro hban
    have hp : s.pm.peerdb.isBanned p = false := by simpa [keepsBans, hban] using h
    constructor <;>
      simp [PeerDB.respectsBans, PeerDB.readmits, PeerDB.disconnectsBanned, hp,
        PeerManagerEvent.notice]
  | injectConnectionClosed p remaining now order => exact fun _ => ⟨rfl, fun _ => rfl⟩
  | injectDialFailure p now order => exact fun _ _ _ => rfl
  | disconnectPeer p reason now =>
    have hp : s.pm.peerdb.isBanned p = false := by simpa [keepsBans] using h
    simp [Permits, PeerDB.respectsBans, PeerDB.readmits, PeerDB.disconnectsBanned, hp]
  | removeTrusted p => exact rfl
  | poll inp =>
    intro p enr trusted hdial
    have hp : (s.pm.pollTimers inp).peerdb.isBanned p = false := by
      simpa [keepsBans, hdial] using h
    simp [PeerDB.respectsBans, PeerDB.readmits, PeerDB.disconnectsBanned, hp]
  | _ => trivial

/-- A step that keeps bans moves the ledger with its events. -/
theorem step_banSteps {s : System F} {op : PmOp F} (h : s.keepsBans op = true) :
    ∃ es, (s.step op).log = s.log ++ es ∧
      BanSteps False False s.pm.peerdb (es.filterMap PeerManagerEvent.notice)
        (s.step op).pm.peerdb := by
  obtain ⟨es, hes, hcalls⟩ := step_calls respectsBans_permissive s op (permits_of_keepsBans h)
  exact ⟨es, hes, calls_banSteps hcalls⟩

/-- The swarm and the database agree on the banned peers. -/
def BansAgree (s : System F) : Prop := (SwarmBans.after s.log).PeersAgree s.pm.peerdb

theorem BansAgree.step {s : System F} (h : s.BansAgree) {op : PmOp F}
    (hop : s.keepsBans op = true) : (s.step op).BansAgree := by
  obtain ⟨es, hes, hsteps⟩ := step_banSteps hop
  unfold BansAgree
  rw [hes, SwarmBans.after_append]
  exact PeerDB.peersAgree_banSteps hsteps h

/-! ### The steps that end a ban silently -/

/-- A peer is not banned once it has been dialed. -/
theorem isBanned_dialingPeer (db : PeerDB F) (p : PeerId) (enr : Option Enr) (trusted : Bool)
    (now : Instant) : (db.dialingPeer p enr trusted now).isBanned p = false := by
  unfold PeerDB.isBanned PeerDB.dialingPeer
  rw [PeerDB.updateConnectionState_peerInfo, if_pos rfl]
  exact Arm.isBanned_setDialingPeer _ now

theorem isBanned_connect (db : PeerDB F) (p : PeerId) (enr : Option Enr)
    (address : Multiaddr) (direction : ConnectionDirection) (now : Instant) :
    (db.updateConnectionState p (.connected enr address direction) now).1.isBanned p =
      false := by
  unfold PeerDB.isBanned
  rw [PeerDB.updateConnectionState_peerInfo, if_pos rfl]
  cases direction with
  | incoming => exact Arm.isBanned_connectIngoing _ _
  | outgoing => exact Arm.isBanned_connectOutgoing _ _

theorem isBanned_disconnectPeer (pm : PeerManager F) (p : PeerId) (reason : GoodbyeReason)
    (now : Instant) : (pm.disconnectPeer p reason now).peerdb.isBanned p = false := by
  rw [PeerDB.isBanned_eq_false_iff]
  change (pm.peerdb.notifyDisconnecting p false now).bannedAddrs p = none
  rw [PeerDB.bannedAddrs_notifyDisconnecting, if_pos rfl]

/-- An established connection of a peer without a ban of its score or its addresses. -/
theorem injectConnectionEstablished_quiet {pm : PeerManager F} {p : PeerId}
    (hban : pm.peerdb.banStatus p = .notBanned) (endpoint : ConnectedPoint) (other : ℕ)
    (now : Instant) :
    (∃ es, (pm.injectConnectionEstablished p endpoint other now).events = pm.events ++ es ∧
        ∀ e ∈ es, e.notice = none) ∧
      (pm.injectConnectionEstablished p endpoint other now).peerdb.isBanned p = false := by
  refine ⟨⟨_, PeerManager.events_of_notBanned hban endpoint other now, fun e he => ?_⟩, ?_⟩
  · rcases List.mem_append.1 he with he | he
    · unfold PeerManager.greeting at he
      split at he
      · rw [List.mem_singleton.1 he]
        rfl
      · cases he
    · rw [List.mem_singleton.1 he]
      split
      · rfl
      · cases endpoint <;> rfl
  · rw [PeerManager.injectConnectionEstablished_notBanned hban]
    split
    · exact isBanned_disconnectPeer _ p _ _
    · cases endpoint with
      | listener address => exact isBanned_connect _ p _ _ _ _
      | dialer address => exact isBanned_connect _ p _ _ _ _

omit [ScoreArith F] in
/-- Once a ban has ended silently, the swarm and the database disagree. -/
theorem not_bansAgree {s : System F} {p : PeerId} (hp : p ∈ (SwarmBans.after s.log).peers)
    (hnot : s.pm.peerdb.isBanned p = false) : ¬ s.BansAgree := by
  intro h
  have hbanned := (h p).1 hp
  rw [hnot] at hbanned
  cases hbanned

omit [ScoreArith F] in
/-- A call that ends a ban and pushes only events without a notice. -/
theorem BansAgree.not_withPm {s : System F} (h : s.BansAgree) {pm : PeerManager F}
    {es : List PeerManagerEvent} {p : PeerId} (hes : pm.events = s.pm.events ++ es)
    (hquiet : ∀ e ∈ es, e.notice = none) (hp : s.pm.peerdb.isBanned p = true)
    (hnot : pm.peerdb.isBanned p = false) : ¬ (s.withPm pm).BansAgree := by
  refine not_bansAgree (p := p) ?_ hnot
  rw [log_withPm hes, SwarmBans.after_append_of_quiet hquiet]
  exact (h p).2 hp

/-- The dial of a banned peer is popped. -/
theorem BansAgree.not_poll {s : System F} (h : s.BansAgree) {inp : PollInput F} {p : PeerId}
    {enr : Option Enr} {trusted : Bool} (hdial : s.pm.nextDial inp = some (p, enr, trusted))
    (hp : (s.pm.pollTimers inp).peerdb.isBanned p = true) : ¬ (s.step (.poll inp)).BansAgree := by
  obtain ⟨hevents, rest, hqueue⟩ := PeerManager.nextDial_eq_some hdial
  obtain ⟨⟨es, hes, hcalls⟩, -⟩ :=
    PeerManager.pollTimers_does respectsBans_permissive s.pm inp
  have hagree := PeerDB.peersAgree_banSteps (calls_banSteps hcalls) h
  rw [← SwarmBans.after_append] at hagree
  have hstep : s.step (.poll inp) = s.withPm
      (({ s.pm.pollTimers inp with peersToDial := rest }).injectDialing p enr trusted
        inp.now) := by
    simp only [System.step, PeerManager.poll_of_nextDial hevents hqueue]
  have hlog : (s.step (.poll inp)).log = s.log ++ es := by
    rw [hstep]
    exact log_withPm hes
  refine not_bansAgree (p := p) ?_ ?_
  · rw [hlog]
    exact (hagree p).2 hp
  · rw [hstep]
    exact isBanned_dialingPeer _ p enr trusted inp.now

theorem BansAgree.not_step {s : System F} (h : s.BansAgree) {op : PmOp F}
    (hop : s.keepsBans op = false) : ¬ (s.step op).BansAgree := by
  cases op with
  | injectConnectionEstablished p endpoint other now =>
    obtain ⟨hban, hp⟩ : s.pm.peerdb.banStatus p = .notBanned ∧
        s.pm.peerdb.isBanned p = true := by
      simpa [keepsBans] using hop
    obtain ⟨⟨es, hes, hquiet⟩, hnot⟩ :=
      injectConnectionEstablished_quiet hban endpoint other now
    exact h.not_withPm hes hquiet hp hnot
  | disconnectPeer p reason now =>
    have hp : s.pm.peerdb.isBanned p = true := by simpa [keepsBans] using hop
    have hes : (s.pm.disconnectPeer p reason now).events =
        s.pm.events ++ [.disconnectPeer p reason] := rfl
    exact h.not_withPm hes (by simp [PeerManagerEvent.notice]) hp
      (isBanned_disconnectPeer s.pm p reason now)
  | poll inp =>
    cases hd : s.pm.nextDial inp with
    | none => simp [keepsBans, hd] at hop
    | some d => exact h.not_poll hd (by simpa [keepsBans, hd] using hop)
  | _ => cases hop

/-- **The swarm and the database agree on the banned peers** throughout the runs in which
every step keeps bans, and only throughout those. -/
theorem swarmBans_agree_iff (targetPeers : ℕ) (discoveryEnabled : Bool)
    (ops : List (PmOp F)) :
    Throughout System.step
        (fun s => ∀ p, latestIsBan s.log p = true ↔
          ∃ since, s.pm.peerdb.connectionStatus p = some (.banned since))
        (System.new targetPeers discoveryEnabled) ops ↔
      Along System.step (fun s op => s.keepsBans op = true)
        (System.new targetPeers discoveryEnabled) ops := by
  have hQ : ∀ s : System F, (∀ p, latestIsBan s.log p = true ↔
      ∃ since, s.pm.peerdb.connectionStatus p = some (.banned since)) ↔ s.BansAgree := by
    intro s
    refine forall_congr' fun p => ?_
    rw [← mem_after_peers, PeerDB.isBanned_iff]
  simp only [hQ]
  refine throughout_iff_along (P := BansAgree) (D := fun _ _ => True) ?_ (fun _ h => h) ?_ ?_ ?_
  · intro s op h _ hop
    exact h.step hop
  · intro s op h _ hnext
    rw [← Bool.not_eq_false]
    intro hop
    exact h.not_step hop hnext
  · intro p
    exact ⟨fun h => h.elim, fun h => by cases h⟩
  · exact Along.of_forall (fun _ _ => trivial) ops _

/-- A poll at which no timer fires. -/
def quietPoll : PmOp ℚ := .poll ⟨[], [], [], false, [], 0⟩

/-- A peer is queued to be dialed, gets banned, and is dialed after the swarm has taken
the four events of the run. -/
def dialOfBannedPeer : List (PmOp ℚ) :=
  [.injectConnectionEstablished ⟨[1]⟩ (.listener [.ip4 1, .tcp 9000]) 0 0,
    .injectConnectionClosed ⟨[1]⟩ 0 0 default, .dialPeer ⟨[1]⟩ none,
    .reportPeer ⟨[1]⟩ .fatal none 0, quietPoll, quietPoll, quietPoll, quietPoll, quietPoll]

theorem swarmBans_agree_fails :
    ¬ ∀ (targetPeers : ℕ) (discoveryEnabled : Bool) (ops : List (PmOp ℚ)),
      Throughout System.step
        (fun s => ∀ p, latestIsBan s.log p = true ↔
          ∃ since, s.pm.peerdb.connectionStatus p = some (.banned since))
        (System.new targetPeers discoveryEnabled) ops := by
  intro h
  have hlast := (h 10 false dialOfBannedPeer).last ⟨[1]⟩
  rw [← PeerDB.isBanned_iff] at hlast
  revert hlast
  decide +kernel

/-! ### The banned addresses -/

/-- The swarm and the counters agree on the banned addresses, and the counters are exact. -/
structure IpsAgree (s : System F) : Prop where
  agree : (SwarmBans.after s.log).IpsAgree s.pm.peerdb
  exact : s.pm.peerdb.BansExact

theorem IpsAgree.step {s : System F} (h : s.IpsAgree) {op : PmOp F}
    (hop : s.keepsBans op = true) : (s.step op).IpsAgree := by
  obtain ⟨es, hes, hsteps⟩ := step_banSteps hop
  refine ⟨?_, h.exact.banSteps hsteps⟩
  rw [hes, SwarmBans.after_append]
  exact PeerDB.ipsAgree_banSteps hsteps h.exact h.agree

omit [ScoreArith F] in
theorem IpsAgree.new (targetPeers : ℕ) (discoveryEnabled : Bool) :
    (System.new targetPeers discoveryEnabled : System F).IpsAgree := by
  refine ⟨fun ip => ⟨fun h => h.elim, fun h => ?_⟩, .empty⟩
  have hfree : (PeerDB.empty : PeerDB F).isIpBanned ip = false := rfl
  exact absurd (hfree.symm.trans h) Bool.false_ne_true

/-- **The swarm and the counters agree on the banned addresses** in the runs in which the
swarm honours bans. -/
theorem swarmIps_agree (targetPeers : ℕ) (discoveryEnabled : Bool) (ops : List (PmOp F))
    (hops : Along System.step (fun s op => s.honoursBans op = true)
      (System.new targetPeers discoveryEnabled) ops) :
    Throughout System.step
      (fun s => (SwarmBans.after s.log).ips =
        {ip | s.pm.peerdb.bannedPeersCount.ipIsBanned ip = true})
      (System.new targetPeers discoveryEnabled) ops := by
  have hagree := throughout_of_along (P := IpsAgree)
    (fun s op h hop => h.step (keepsBans_of_honoursBans hop)) (.new _ _) hops
  exact hagree.mono fun s h => Set.ext h.agree

/-- A peer that connects from six ports of an IP and is banned when it disconnects. -/
def banOnSixPorts : List (PmOp ℚ) :=
  ((List.range 6).map fun port => .injectConnectionEstablished ⟨[1]⟩
    (.listener [.ip4 1, .tcp port.toUInt16]) port 0) ++
    [.reportPeer ⟨[1]⟩ .fatal none 0, .injectConnectionClosed ⟨[1]⟩ 0 0 default]

theorem swarmIps_agree_banOnSixPorts :
    IpAddr.v4 1 ∈ (SwarmBans.after (banOnSixPorts.foldl step (new 10 false)).log).ips := by
  rw [(swarmIps_agree 10 false banOnSixPorts (by decide +kernel)).last]
  have hbanned : (banOnSixPorts.foldl step (new 10 false)).pm.peerdb.isIpBanned (.v4 1) = true :=
    by decide +kernel
  exact hbanned

end System

end Consentry
