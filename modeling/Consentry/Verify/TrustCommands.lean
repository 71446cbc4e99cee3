import Consentry.Lib.Run
import Consentry.Sentry
import Consentry.Verify.Calls
import Consentry.Verify.Trust

/-!
# Trust commands

A peer is trusted by the database, or by a queued dial that will mark it when it is popped
(`PeerManager.trusts`). **`Commanded.trusted_iff`**: as long as every command takes effect
and no trusted peer is evicted, the peers trusted in one of these ways are those whose
last command is `AddTrusted`.
-/

namespace Consentry

open Lib

variable {F : Type} [ScoreArith F]

/-! ## What changes the flag -/

namespace PeerDB

variable {db : PeerDB F} {p q : PeerId}

/-- Eviction removes a trusted peer that is not excused. -/
def evictsTrusted (db : PeerDB F) (order : Shuffle (Map.Entry PeerId (PeerInfo F)))
    (excused : PeerId → Bool) : Bool :=
  db.peers.entries.any fun e =>
    e.2.isTrusted && !excused e.1 && ((db.shrinkToFit order).1.peerInfo e.1).isNone

omit [ScoreArith F] in
theorem shrinkToFit_isTrusted {order : Shuffle (Map.Entry PeerId (PeerInfo F))}
    {excused : PeerId → Bool} (h : db.evictsTrusted order excused = false)
    (hq : excused q = false) : (db.shrinkToFit order).1.isTrusted q = db.isTrusted q := by
  rcases shrinkToFit_peerInfo db order q with hgone | hkept
  · have hnot : db.isTrusted q = false := by
      unfold isTrusted
      cases hinfo : db.peerInfo q with
      | none => rfl
      | some info =>
        have hentry := List.any_eq_false.1 h ⟨q, info⟩ (Map.mem_entries_iff.2 hinfo)
        simpa [hq, hgone] using hentry
    rw [hnot, isTrusted, hgone]
    rfl
  · rw [isTrusted, hkept, isTrusted]

theorem dialingPeer_isTrusted (db : PeerDB F) (p : PeerId) (enr : Option Enr) (now : Instant) :
    (db.dialingPeer p enr true now).isTrusted p = true := by
  unfold dialingPeer isTrusted
  rw [updateConnectionState_peerInfo, if_pos rfl]
  exact congrArg Prod.fst (Arm.scoring_setDialingPeer _ now)

theorem dialingPeer_isTrusted_of_ne (db : PeerDB F) {p q : PeerId} (hq : q ≠ p)
    (enr : Option Enr) (trusted : Bool) (now : Instant) :
    (db.dialingPeer p enr trusted now).isTrusted q = db.isTrusted q := by
  unfold dialingPeer isTrusted
  rw [updateConnectionState_peerInfo, if_neg hq]

omit [ScoreArith F] in
theorem setUntrusted_isTrusted (db : PeerDB F) (p q : PeerId) :
    (db.modifyPeer p (·.setUntrusted)).isTrusted q = if q = p then false else db.isTrusted q := by
  unfold isTrusted
  rw [modifyPeer_peerInfo]
  split
  · cases db.peerInfo p <;> rfl
  · rfl

/-- The operation trusts nobody, and stops trusting only peers that are excused. -/
def keepsTrust (excused : PeerId → Bool) (db : PeerDB F) : DbOp F → Bool
  | .dialingPeer _ _ trusted _ => !trusted
  | .setUntrusted _ => false
  | .injectDisconnect p now order =>
    !(db.updateConnectionState p .disconnected now).1.evictsTrusted order excused
  | .shrinkToFit order => !db.evictsTrusted order excused
  | _ => true

theorem step_isTrusted {excused : PeerId → Bool} {op : DbOp F}
    (h : db.keepsTrust excused op = true) (hq : excused q = false) :
    (db.step op).isTrusted q = db.isTrusted q := by
  by_cases hop : op.changesStanding = false
  · exact (step_keepsStanding db hop).isTrusted q
  · cases op with
    | dialingPeer p enr trusted now =>
      have htrusted : trusted = true := by simpa [DbOp.changesStanding] using hop
      simp [keepsTrust, htrusted] at h
    | injectDisconnect p now order =>
      change (db.injectDisconnect p now order).1.isTrusted q = _
      rw [injectDisconnect_fst, shrinkToFit_isTrusted (by simpa [keepsTrust] using h) hq]
      exact (updateConnectionState_keepsStanding db p now (by simp)).isTrusted q
    | shrinkToFit order => exact shrinkToFit_isTrusted (by simpa [keepsTrust] using h) hq
    | setUntrusted p => cases h
    | _ => exact absurd rfl hop

end PeerDB

namespace PeerManager

/-- A trusted dial of the peer is queued. -/
def dialsTrusted (pm : PeerManager F) (peerId : PeerId) : Bool :=
  pm.peersToDial.any fun d => d.1 = peerId && d.2.2

/-- The peer is marked as trusted, or will be when its dial is popped. -/
def trusts (pm : PeerManager F) (peerId : PeerId) : Bool :=
  pm.dialsTrusted peerId || pm.peerdb.isTrusted peerId

/-- The call evicts a trusted peer of which no trusted dial is queued. -/
def evictsTrusted (pm : PeerManager F) : PmOp F → Bool
  | .injectConnectionClosed p remaining now order => remaining = 0 &&
    (pm.peerdb.updateConnectionState p .disconnected now).1.evictsTrusted order pm.dialsTrusted
  | .injectDialFailure (some p) now order => !pm.peerdb.isConnected p &&
    (pm.peerdb.updateConnectionState p .disconnected now).1.evictsTrusted order pm.dialsTrusted
  | _ => false

/-- Database operations that keep trust leave the trusted peers as they are. -/
theorem trusts_of_does {pm pm' : PeerManager F} {E : PeerManagerEvent → Prop}
    (h : Does (fun db op => db.keepsTrust pm.dialsTrusted op = true) E pm pm') (q : PeerId) :
    pm'.trusts q = pm.trusts q := by
  obtain ⟨⟨es, -, hcalls⟩, hdial⟩ := h
  have hqueue : pm'.dialsTrusted q = pm.dialsTrusted q := by
    unfold dialsTrusted
    rw [hdial]
  unfold trusts
  rw [hqueue]
  cases hq : pm.dialsTrusted q with
  | true => rfl
  | false =>
    refine hcalls.invariant (P := fun db => (false || db.isTrusted q) =
      (false || pm.peerdb.isTrusted q)) (fun db op hdb hop => ?_) rfl
    rw [PeerDB.step_isTrusted hop hq]
    exact hdb

end PeerManager

theorem keepsTrust_permissive (excused : PeerId → Bool) :
    Permissive (fun (db : PeerDB F) op => db.keepsTrust excused op = true) (fun _ => True) := by
  refine ⟨fun db op hop => ?_, fun _ _ _ _ => rfl, fun _ _ => trivial⟩
  cases op <;> first | rfl | exact hop.elim

namespace System

/-- Popping a dial turns the queued trust of its peer into a mark. -/
theorem trusts_pop (pm : PeerManager F) {p : PeerId} {enr : Option Enr} {trusted : Bool}
    {rest : List (PeerId × Option Enr × Bool)} (hqueue : pm.peersToDial = (p, enr, trusted) :: rest)
    (now : Instant) (q : PeerId) :
    (({ pm with peersToDial := rest } : PeerManager F).injectDialing p enr trusted now).trusts q =
      pm.trusts q := by
  change ((rest.any fun d => d.1 = q && d.2.2) ||
    (pm.peerdb.dialingPeer p enr trusted now).isTrusted q) = _
  unfold PeerManager.trusts PeerManager.dialsTrusted
  rw [hqueue, List.any_cons]
  by_cases hq : q = p
  · subst hq
    cases trusted with
    | true => simp [PeerDB.dialingPeer_isTrusted]
    | false =>
      have hkeep : (pm.peerdb.dialingPeer q enr false now).isTrusted q = pm.peerdb.isTrusted q :=
        (PeerDB.updateConnectionState_keepsStanding pm.peerdb q now (by simp)).isTrusted q
      simp [hkeep]
  · rw [PeerDB.dialingPeer_isTrusted_of_ne _ hq]
    simp [Ne.symm hq]

theorem trusts_poll (s : System F) (inp : PollInput F) (q : PeerId) :
    (s.step (.poll inp)).pm.trusts q = s.pm.trusts q := by
  rw [← PeerManager.trusts_of_does
    (PeerManager.pollTimers_does (keepsTrust_permissive s.pm.dialsTrusted) s.pm inp) q,
    step_poll_pm, PeerManager.poll_eq]
  generalize s.pm.pollTimers inp = pm
  cases hevents : pm.events with
  | cons e events => rfl
  | nil =>
    cases hqueue : pm.peersToDial with
    | nil => rfl
    | cons d rest => exact trusts_pop pm hqueue inp.now q

/-- **The network changes nobody's trust**, evictions apart. -/
theorem trusts_step {s : System F} {op : PmOp F} (hcmd : op.isTrustCall = false)
    (hop : s.pm.evictsTrusted op = false) (q : PeerId) :
    (s.step op).pm.trusts q = s.pm.trusts q := by
  have hkeep : Permits (fun db op => db.keepsTrust s.pm.dialsTrusted op = true) (fun _ => True)
      s.pm op → op.queues = false → (s.step op).pm.trusts q = s.pm.trusts q :=
    fun hpermits hqueue => PeerManager.trusts_of_does
      (step_does (keepsTrust_permissive _) s op hpermits hqueue) q
  cases op with
  | injectConnectionEstablished p endpoint other now =>
    exact hkeep (fun _ => ⟨fun _ => rfl, fun _ _ _ => rfl, fun _ _ _ => rfl, trivial, trivial⟩) rfl
  | injectConnectionClosed p remaining now order =>
    refine hkeep (fun hzero => ⟨?_, fun _ => trivial⟩) rfl
    simpa [PeerDB.keepsTrust, PeerManager.evictsTrusted, hzero] using hop
  | injectDialFailure peerId now order =>
    refine hkeep (fun p hp hconn => ?_) rfl
    subst hp
    simpa [PeerDB.keepsTrust, PeerManager.evictsTrusted, hconn] using hop
  | disconnectPeer p reason now => exact hkeep rfl rfl
  | dialPeer p enr =>
    change (s.pm.dialPeer p enr).trusts q = _
    simp [PeerManager.trusts, PeerManager.dialsTrusted, PeerManager.dialPeer]
  | dialTrustedPeer p enr => cases hcmd
  | removeTrusted p => cases hcmd
  | poll inp => exact trusts_poll s inp q
  | _ => exact hkeep trivial rfl

end System

/-! ## Runs of the sentry -/

/-- A sentry with the peers whose last command was `AddTrusted`. -/
structure Commanded (F : Type) where
  sentry : Sentry F
  wanted : PeerId → Bool

namespace Commanded

def new (maxPeers : ℕ) (discoveryEnabled : Bool) : Commanded F where
  sentry := .new maxPeers discoveryEnabled
  wanted := fun _ => false

def step (c : Commanded F) (op : SentryOp F) : Commanded F where
  sentry := c.sentry.step op
  wanted := match op with
    | .command (.addTrusted p _) => Function.update c.wanted p true
    | .command (.removeTrusted p) => Function.update c.wanted p false
    | .network _ _ => c.wanted

def pm (c : Commanded F) : PeerManager F := c.sentry.network.pm

/-- The command takes effect, or the event leaves trust alone: a peer is added while it is
not connected or trusted already, it is removed when no trusted dial of it is queued, and
no trusted peer is evicted. -/
def takesEffect (c : Commanded F) : SentryOp F → Bool
  | .command (.addTrusted p _) => !c.pm.peerdb.isConnected p || c.pm.trusts p
  | .command (.removeTrusted p) => !c.pm.dialsTrusted p
  | .network op _ => !c.pm.evictsTrusted op

/-- The peers that are trusted, or queued to be, are those that were added last; the
sentry lists all of them. -/
structure Follows (c : Commanded F) : Prop where
  trusts : ∀ p, c.pm.trusts p = c.wanted p
  listed : ∀ p, c.pm.trusts p = true → p ∈ c.sentry.trustedPeers

/-- A command about `p` that leaves it trusted as `b` says. -/
theorem Follows.command {c : Commanded F} (h : c.Follows) {cmd : SentryCommand} {p : PeerId}
    {b : Bool} (hwanted : (c.step (.command cmd)).wanted = Function.update c.wanted p b)
    (htrusts : ∀ q, (c.sentry.handle cmd).network.pm.trusts q =
      if q = p then b else c.pm.trusts q)
    (hlisted : ∀ q, (if q = p then b else c.pm.trusts q) = true →
      q ∈ (c.sentry.handle cmd).trustedPeers) : (c.step (.command cmd)).Follows := by
  refine ⟨fun q => ?_, fun q hq => hlisted q ((htrusts q).symm.trans hq)⟩
  rw [hwanted]
  refine (htrusts q).trans ?_
  by_cases hq : q = p
  · rw [if_pos hq, hq, Function.update_self]
  · rw [if_neg hq, Function.update_of_ne hq, h.trusts]

omit [ScoreArith F] in
theorem trusts_dialTrustedPeer (pm : PeerManager F) (p q : PeerId) (enr : Option Enr) :
    (pm.dialTrustedPeer p enr).trusts q = if q = p then true else pm.trusts q := by
  unfold PeerManager.trusts PeerManager.dialsTrusted PeerManager.dialTrustedPeer
  by_cases hq : q = p
  · simp [hq]
  · simp [hq, Ne.symm hq]

omit [ScoreArith F] in
theorem trusts_removeTrusted {pm : PeerManager F} {p : PeerId} (hp : pm.dialsTrusted p = false)
    (q : PeerId) : (pm.removeTrusted p).trusts q = if q = p then false else pm.trusts q := by
  change (pm.dialsTrusted q || (pm.peerdb.modifyPeer p (·.setUntrusted)).isTrusted q) = _
  rw [PeerDB.setUntrusted_isTrusted]
  by_cases hq : q = p
  · simp [hq, hp]
  · simp [hq, PeerManager.trusts]

theorem Follows.addTrusted {c : Commanded F} (h : c.Follows) (p : PeerId) (enr : Enr)
    (hop : c.takesEffect (.command (.addTrusted p enr)) = true) :
    (c.step (.command (.addTrusted p enr))).Follows := by
  have hkept : ¬ (!c.pm.peerdb.isConnected p) = true → c.pm.trusts p = true := by
    intro hconn
    simpa [takesEffect, hconn] using hop
  refine h.command (p := p) (b := true) rfl (fun q => ?_) fun q hq => ?_
  · simp only [Sentry.handle]
    split
    · exact trusts_dialTrustedPeer c.pm p q (some enr)
    · next hconn =>
      split
      · next hq =>
        rw [hq]
        exact hkept hconn
      · rfl
  · simp only [Sentry.handle]
    split
    · rw [DistinctList.mem_insert]
      by_cases hqp : q = p
      · exact .inl hqp
      · rw [if_neg hqp] at hq
        exact .inr (h.listed q hq)
    · next hconn =>
      split at hq
      · next hqp => exact h.listed q (hqp ▸ hkept hconn)
      · exact h.listed q hq

theorem Follows.removeTrusted {c : Commanded F} (h : c.Follows) (p : PeerId)
    (hop : c.takesEffect (.command (.removeTrusted p)) = true) :
    (c.step (.command (.removeTrusted p))).Follows := by
  have hqueue : c.pm.dialsTrusted p = false := by simpa [takesEffect] using hop
  refine h.command (p := p) (b := false) rfl (fun q => ?_) fun q hq => ?_
  · simp only [Sentry.handle]
    split
    · exact trusts_removeTrusted hqueue q
    · next hnot =>
      have hp : c.pm.trusts p = false := by
        rw [← Bool.not_eq_true]
        exact fun hp => hnot (h.listed p hp)
      split
      · next hq =>
        rw [hq]
        exact hp
      · rfl
  · split at hq
    · cases hq
    · next hqp =>
      simp only [Sentry.handle]
      split
      · exact DistinctList.mem_remove.2 ⟨hqp, h.listed q hq⟩
      · exact h.listed q hq

theorem Follows.step {c : Commanded F} (h : c.Follows) (op : SentryOp F)
    (hop : c.takesEffect op = true) : (c.step op).Follows := by
  cases op with
  | command cmd =>
    cases cmd with
    | addTrusted p enr => exact h.addTrusted p enr hop
    | removeTrusted p => exact h.removeTrusted p hop
  | network op hcmd =>
    have hsame : ∀ q, (c.step (.network op hcmd)).pm.trusts q = c.pm.trusts q :=
      System.trusts_step hcmd (by simpa [takesEffect, pm] using hop)
    exact ⟨fun q => (hsame q).trans (h.trusts q), fun q hq => h.listed q (hsame q ▸ hq)⟩

/-- **The trusted peers are those whose last command is `AddTrusted`**, whenever no dial is
queued, in the runs in which every command takes effect and no trusted peer is evicted. -/
theorem trusted_iff (maxPeers : ℕ) (discoveryEnabled : Bool) (ops : List (SentryOp F))
    (hops : Along Commanded.step (fun c op => c.takesEffect op = true)
      (Commanded.new maxPeers discoveryEnabled) ops) :
    Throughout Commanded.step
      (fun c => c.pm.peersToDial = [] →
        ∀ p, c.pm.peerdb.isTrusted p = true ↔ c.wanted p = true)
      (Commanded.new maxPeers discoveryEnabled) ops := by
  have hfollows := throughout_of_along (P := Follows) (fun c op h hop => h.step op hop)
    ⟨fun _ => rfl, fun _ hp => by cases hp⟩ hops
  refine hfollows.mono fun c h hqueue p => ?_
  rw [← h.trusts p, PeerManager.trusts, PeerManager.dialsTrusted, hqueue]
  rfl

/-- A peer is added, dialed, connected, disconnected, and removed. -/
def addDialRemove : List (SentryOp ℚ) :=
  [.command (.addTrusted ⟨[1]⟩ ⟨none, none⟩), .network (.poll ⟨[], [], [], false, [], 0⟩) rfl,
    .network (.injectConnectionEstablished ⟨[1]⟩ (.dialer [.ip4 1, .tcp 9000]) 0 1) rfl,
    .network (.injectConnectionClosed ⟨[1]⟩ 0 2 default) rfl,
    .command (.addTrusted ⟨[2]⟩ ⟨none, none⟩), .command (.removeTrusted ⟨[1]⟩)]

theorem trusted_iff_addDialRemove : Throughout Commanded.step
    (fun c => c.pm.peersToDial = [] →
      ∀ p, c.pm.peerdb.isTrusted p = true ↔ c.wanted p = true)
    (Commanded.new 10 false) addDialRemove :=
  trusted_iff 10 false addDialRemove (by decide +kernel)

/-- A peer that is added while it is connected. -/
theorem trusted_fails :
    ¬ ∀ (maxPeers : ℕ) (discoveryEnabled : Bool) (ops : List (SentryOp ℚ)),
      Throughout Commanded.step
        (fun c => c.pm.peersToDial = [] →
          ∀ p, c.pm.peerdb.isTrusted p = true ↔ c.wanted p = true)
        (Commanded.new maxPeers discoveryEnabled) ops := by
  intro h
  have hlast := (h 10 false
    [.network (.injectConnectionEstablished ⟨[1]⟩ (.listener [.ip4 1, .tcp 9000]) 0 0) rfl,
      .command (.addTrusted ⟨[1]⟩ ⟨none, none⟩)]).last (by decide +kernel) ⟨[1]⟩
  revert hlast
  decide +kernel

end Commanded

end Consentry
