import Consentry.Verify.Trust

/-!
# Properties of every entry

`PeerDB.Entries I db` says that every entry of the database satisfies `I`. There is one
rule for each way in which the database changes an entry. **`Entries.step_routine`** covers
the operations that leave trust, scores and connections as they are.
-/

namespace Consentry

open Lib

variable {F : Type}

/-- What the scoring and the connections of a peer depend on. -/
def PeerInfo.vitals (info : PeerInfo F) : (Bool × Score F) × PeerConnectionStatus :=
  (info.scoring, info.connectionStatus)

/-- The operations that leave the vitals of every entry, or evict it. -/
def DbOp.isRoutine : DbOp F → Bool
  | .shrinkToFit _ | .updateMinTtl _ _ _ | .addSubscription _ _ | .removeSubscription _ _
  | .extendPeersOnSubnet _ _ | .updateSyncStatus _ _ | .setMetaData _ _ => true
  | _ => false

namespace PeerDB

/-- Every entry satisfies `I`. -/
def Entries (I : PeerId → PeerInfo F → Prop) (db : PeerDB F) : Prop :=
  ∀ p info, db.peerInfo p = some info → I p info

variable {db : PeerDB F} {I J : PeerId → PeerInfo F → Prop}

theorem Entries.mono (h : db.Entries I) (hIJ : ∀ p info, I p info → J p info) : db.Entries J :=
  fun p info hp => hIJ p info (h p info hp)

theorem Entries.insert (h : db.Entries I) {p : PeerId} {info : PeerInfo F} (hp : I p info) :
    ({ db with peers := db.peers.insert p info } : PeerDB F).Entries I := by
  intro q i hq
  rw [peerInfo_insert] at hq
  split at hq
  · next hqp =>
    cases hq
    rw [hqp]
    exact hp
  · exact h q i hq

theorem Entries.mapVal (h : db.Entries I) {f : PeerId → PeerInfo F → PeerInfo F}
    (hf : ∀ p info, I p info → J p (f p info)) :
    ({ db with peers := db.peers.mapVal f } : PeerDB F).Entries J := by
  intro p info hp
  change (db.peers.mapVal f).lookup p = some info at hp
  rw [Map.lookup_mapVal] at hp
  obtain ⟨i, hi, rfl⟩ := Option.map_eq_some_iff.1 hp
  exact hf p i (h p i hi)

theorem Entries.modifyPeer (h : db.Entries I) {p : PeerId} {f : PeerInfo F → PeerInfo F}
    (hf : ∀ info, I p info → I p (f info)) : (db.modifyPeer p f).Entries I := by
  unfold PeerDB.modifyPeer
  cases hp : db.peerInfo p with
  | none => exact h
  | some info => exact h.insert (hf info (h p info hp))

section

variable [ScoreArith F]

theorem Entries.entryOrInsert (h : db.Entries I) (p : PeerId) (st : NewConnectionState)
    (now : Instant) (hfresh : db.peerInfo p = none → I p (db.entryOrInsert p st now)) :
    I p (db.entryOrInsert p st now) := by
  cases hp : db.peerInfo p with
  | none => exact hfresh hp
  | some info =>
    rw [entryOrInsert_of_some hp]
    exact h p info hp

/-- A change of the connection state rewrites one entry. -/
theorem Entries.updateConnectionState (h : db.Entries I) {p : PeerId} {st : NewConnectionState}
    {now : Instant} (hp : J p ((db.arm (db.entryOrInsert p st now)).step st now).info)
    (hrest : ∀ q info, q ≠ p → I q info → J q info) :
    (db.updateConnectionState p st now).1.Entries J := by
  intro q info hq
  rw [updateConnectionState_peerInfo] at hq
  by_cases hqp : q = p
  · rw [if_pos hqp, Option.some.injEq] at hq
    rw [hqp, ← hq]
    exact hp
  · rw [if_neg hqp] at hq
    exact hrest q info hqp (h q info hq)

omit [ScoreArith F] in
theorem Entries.shrinkToFit (h : db.Entries I)
    (order : Shuffle (Map.Entry PeerId (PeerInfo F))) : (db.shrinkToFit order).1.Entries I := by
  intro p info hp
  rcases shrinkToFit_peerInfo db order p with hgone | hkept
  · rw [hgone] at hp
    cases hp
  · exact h p info (hkept ▸ hp)

/-- **The other operations** keep what depends on the vitals only. -/
theorem Entries.step_routine
    (hI : ∀ p {info info' : PeerInfo F}, info'.vitals = info.vitals → I p info → I p info')
    (hfresh : ∀ p now, I p (.defaultAt now)) (h : db.Entries I) {op : DbOp F}
    (hop : op.isRoutine = true) : (db.step op).Entries I := by
  have hmodify : ∀ p (f : PeerInfo F → PeerInfo F), (∀ info, (f info).vitals = info.vitals) →
      (db.modifyPeer p f).Entries I :=
    fun p f hf => h.modifyPeer fun info hinfo => hI p (hf info) hinfo
  cases op with
  | shrinkToFit order => exact h.shrinkToFit order
  | updateMinTtl p minTtl now =>
    have hp : I p ((db.peerInfo p).getD (.defaultAt now)) := by
      cases hinfo : db.peerInfo p with
      | none => exact hfresh p now
      | some info => exact h p info hinfo
    refine h.insert (hI p ?_ hp)
    split <;> rfl
  | addSubscription p subnet => exact hmodify p (·.insertSubnet subnet) fun _ => rfl
  | removeSubscription p subnet => exact hmodify p (·.removeSubnet subnet) fun _ => rfl
  | extendPeersOnSubnet subnet minTtl =>
    refine h.mapVal fun p info hinfo => hI p ?_ hinfo
    split <;> rfl
  | updateSyncStatus p status =>
    rw [PeerDB.step, updateSyncStatus_eq]
    exact hmodify p (fun info => (info.updateSyncStatus status).1) fun _ => rfl
  | setMetaData p metaData => exact hmodify p (·.setMetaData metaData) fun _ => rfl
  | _ => cases hop

end

end PeerDB

end Consentry
