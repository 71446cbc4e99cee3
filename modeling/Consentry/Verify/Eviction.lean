import Consentry.Verify.DbOps

/-!
# Eviction (`shrink_to_fit` of `peer_manager/peerdb.rs`)

Eviction removes entries and leaves the others as they are (`shrinkToFit_peerInfo`). Each
round of its loops lowers a counter, so the rounds they are given suffice:
**`shrinkToFit_within`**, afterwards neither counter exceeds its limit.
-/

namespace Consentry.PeerDB

open Lib

variable {F : Type}

/-! ## The peers to choose from -/

theorem mem_bannedSince {db : PeerDB F} {order : Shuffle (Map.Entry PeerId (PeerInfo F))}
    {e : Map.Entry PeerId (PeerInfo F)} {since : Instant} :
    (e, since) ∈ db.bannedSince order ↔
      db.peerInfo e.1 = some e.2 ∧ e.2.connectionStatus = .banned since := by
  unfold bannedSince
  rw [List.mem_filterMap]
  constructor
  · rintro ⟨e', he', hs⟩
    rw [Shuffle.mem_run] at he'
    split at hs
    · next since' hst =>
      cases hs
      exact ⟨Map.mem_entries_iff.1 he', hst⟩
    · cases hs
  · rintro ⟨he, hs⟩
    refine ⟨e, ?_, by rw [hs]⟩
    rw [Shuffle.mem_run]
    exact Map.mem_entries_iff.2 he

theorem mem_disconnectedSince {db : PeerDB F}
    {order : Shuffle (Map.Entry PeerId (PeerInfo F))} {p : PeerId} {since : Instant} :
    (p, since) ∈ db.disconnectedSince order ↔
      db.connectionStatus p = some (.disconnected since) := by
  unfold disconnectedSince connectionStatus peerInfo
  rw [List.mem_filterMap]
  constructor
  · rintro ⟨e, he, hs⟩
    rw [List.mem_filter, Shuffle.mem_run] at he
    split at hs
    · next since' hst =>
      cases hs
      rw [Map.mem_entries_iff.1 he.1, Option.map_some, hst]
    · cases hs
  · intro h
    obtain ⟨info, hinfo, hs⟩ := Option.map_eq_some_iff.1 h
    refine ⟨⟨p, info⟩, ?_, by rw [hs]⟩
    rw [List.mem_filter, Shuffle.mem_run]
    exact ⟨Map.mem_entries_iff.2 hinfo, by simp [PeerInfo.isDisconnected, hs]⟩

/-! ## The entries that stay -/

theorem shrinkBanned_peerInfo (order : Shuffle (Map.Entry PeerId (PeerInfo F))) (rounds : ℕ)
    (db : PeerDB F) (acc : List (PeerId × List IpAddr)) (q : PeerId) :
    (shrinkBanned order rounds db acc).1.peerInfo q = none ∨
      (shrinkBanned order rounds db acc).1.peerInfo q = db.peerInfo q := by
  induction rounds generalizing db acc with
  | zero => exact .inr rfl
  | succ rounds ih =>
    rw [shrinkBanned]
    split
    · split
      · next e since _ =>
        rcases ih ⟨db.peers.erase e.1, db.disconnectedPeers,
          db.bannedPeersCount.removeBannedPeer e.2.seenIpAddresses⟩ (acc ++ [(e.1, _)])
          with h | h
        · exact .inl h
        · have herase : (⟨db.peers.erase e.1, db.disconnectedPeers,
              db.bannedPeersCount.removeBannedPeer e.2.seenIpAddresses⟩ : PeerDB F).peerInfo q =
              if q = e.1 then none else db.peerInfo q := Map.lookup_erase_eq db.peers e.1 q
          rw [herase] at h
          split at h
          · exact .inl h
          · exact .inr h
      · exact ih { db with bannedPeersCount := .empty } acc
    · exact .inr rfl

theorem shrinkDisconnected_peerInfo (order : Shuffle (Map.Entry PeerId (PeerInfo F)))
    (rounds : ℕ) (db : PeerDB F) (q : PeerId) :
    (shrinkDisconnected order rounds db).peerInfo q = none ∨
      (shrinkDisconnected order rounds db).peerInfo q = db.peerInfo q := by
  induction rounds generalizing db with
  | zero => exact .inr rfl
  | succ rounds ih =>
    rw [shrinkDisconnected]
    split
    · split
      · next p since _ =>
        rcases ih ⟨db.peers.erase p, db.disconnectedPeers.saturatingSub, db.bannedPeersCount⟩
          with h | h
        · exact .inl h
        · have herase : (⟨db.peers.erase p, db.disconnectedPeers.saturatingSub,
              db.bannedPeersCount⟩ : PeerDB F).peerInfo q =
              if q = p then none else db.peerInfo q := Map.lookup_erase_eq db.peers p q
          rw [herase] at h
          split at h
          · exact .inl h
          · exact .inr h
      · exact ih { db with disconnectedPeers := db.disconnectedPeers.saturatingSub }
    · exact .inr rfl

/-- Eviction removes entries and leaves the others as they are. -/
theorem shrinkToFit_peerInfo (db : PeerDB F) (order : Shuffle (Map.Entry PeerId (PeerInfo F)))
    (q : PeerId) : (db.shrinkToFit order).1.peerInfo q = none ∨
      (db.shrinkToFit order).1.peerInfo q = db.peerInfo q := by
  unfold shrinkToFit
  generalize db.bannedPeersCount.bannedPeers.val - maxBannedPeers = rounds
  simp only
  generalize (shrinkBanned order rounds db []).1.disconnectedPeers.val - maxDcPeers = rounds'
  rcases shrinkDisconnected_peerInfo order rounds' (shrinkBanned order rounds db []).1 q
    with h | h
  · exact .inl h
  · rw [h]
    exact shrinkBanned_peerInfo order rounds db [] q

/-! ## The limits -/

theorem shrinkBanned_within (order : Shuffle (Map.Entry PeerId (PeerInfo F))) {rounds : ℕ}
    {db : PeerDB F} (acc : List (PeerId × List IpAddr))
    (h : db.bannedPeersCount.bannedPeers.val ≤ maxBannedPeers + rounds) :
    (shrinkBanned order rounds db acc).1.bannedPeersCount.bannedPeers.val ≤ maxBannedPeers := by
  induction rounds generalizing db acc with
  | zero => exact h
  | succ rounds ih =>
    rw [shrinkBanned]
    split
    · split
      · next e since _ =>
        apply ih
        change db.bannedPeersCount.bannedPeers.val - 1 ≤ maxBannedPeers + rounds
        omega
      · exact ih acc (Nat.zero_le _)
    · next hle => exact Nat.le_of_not_lt hle

theorem shrinkDisconnected_within (order : Shuffle (Map.Entry PeerId (PeerInfo F)))
    {rounds : ℕ} {db : PeerDB F} (h : db.disconnectedPeers.val ≤ maxDcPeers + rounds) :
    (shrinkDisconnected order rounds db).disconnectedPeers.val ≤ maxDcPeers := by
  induction rounds generalizing db with
  | zero => exact h
  | succ rounds ih =>
    rw [shrinkDisconnected]
    split
    · apply ih
      have hlower : db.disconnectedPeers.val - 1 ≤ maxDcPeers + rounds := by omega
      split <;> exact hlower
    · next hle => exact Nat.le_of_not_lt hle

theorem shrinkDisconnected_bannedPeersCount
    (order : Shuffle (Map.Entry PeerId (PeerInfo F))) (rounds : ℕ) (db : PeerDB F) :
    (shrinkDisconnected order rounds db).bannedPeersCount = db.bannedPeersCount := by
  induction rounds generalizing db with
  | zero => rfl
  | succ rounds ih =>
    rw [shrinkDisconnected]
    split
    · rw [ih]
      split <;> rfl
    · rfl

/-- **Both loops of `shrink_to_fit` run to their end.** -/
theorem shrinkToFit_within (db : PeerDB F) (order : Shuffle (Map.Entry PeerId (PeerInfo F))) :
    (db.shrinkToFit order).1.bannedPeersCount.bannedPeers.val ≤ maxBannedPeers ∧
      (db.shrinkToFit order).1.disconnectedPeers.val ≤ maxDcPeers := by
  unfold shrinkToFit
  constructor
  · rw [shrinkDisconnected_bannedPeersCount]
    exact shrinkBanned_within order [] (by omega)
  · exact shrinkDisconnected_within order (by omega)

variable [ScoreArith F]

theorem injectDisconnect_fst (db : PeerDB F) (p : PeerId) (now : Instant)
    (order : Shuffle (Map.Entry PeerId (PeerInfo F))) :
    (db.injectDisconnect p now order).1 =
      ((db.updateConnectionState p .disconnected now).1.shrinkToFit order).1 := by
  simp only [injectDisconnect]

end Consentry.PeerDB
