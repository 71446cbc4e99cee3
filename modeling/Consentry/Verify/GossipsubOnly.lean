import Consentry.Verify.ScoreOrder

/-!
# Scores without peer actions

**`gossipsubOnly_healthy_iff`**: a score to which no peer action is applied stays healthy exactly
as long as every gossipsub score that takes effect and is not ignored weighs more than the score
at which a peer is disconnected.

The weight of a negative gossipsub score is derived from the greylist threshold, which is not the
lowest gossipsub score: below 20/19 of the threshold a peer is disconnected, and below 50/19 of it
banned, by its gossipsub score alone.
-/

namespace Consentry

open Lib

variable {F : Type} [ScoreArith F]

/-- The operations of a score other than peer actions. -/
def ScoreOp.Passive : ScoreOp F → Prop
  | .applyPeerAction _ => False
  | .updateAt _ => True
  | .updateGossipsubScore _ _ _ => True

namespace RealScore

/-- A gossipsub score does not weigh as much as a disconnect, unless it is ignored or refused. -/
def Harmless (s : RealScore F) : ScoreOp F → Prop
  | .applyPeerAction _ => True
  | .updateAt _ => True
  | .updateGossipsubScore newScore ignore now => s.lastUpdated ≤ now → ignore = false →
      minScoreBeforeDisconnect < newScore * gossipsubNegativeScoreWeight

theorem state_eq_healthy_iff {s : RealScore F} :
    (Score.real s).state = .healthy ↔ minScoreBeforeDisconnect < s.score := by
  have horder : (minScoreBeforeBan : F) ≤ minScoreBeforeDisconnect := by
    unfold minScoreBeforeBan minScoreBeforeDisconnect
    linarith
  rw [Score.state_real]
  constructor
  · intro h
    split at h
    · cases h
    · split at h
      · cases h
      · next hgt => exact not_le.1 hgt
  · intro h
    rw [if_neg (not_le.2 (horder.trans_lt h)), if_neg (not_le.2 h)]

/-- No action has moved the score. -/
structure Untouched (s : RealScore F) : Prop where
  lighthouse_eq : s.lighthouseScore = 0
  score_eq : s.score = s.combined

theorem Untouched.updateState {s : RealScore F} (h : s.lighthouseScore = 0) :
    s.updateState.Untouched :=
  ⟨by rw [updateState_lighthouseScore, h], by rw [updateState_score, updateState_combined]⟩

/-- The score is then the weighted gossipsub score. -/
theorem combined_of_lighthouse_zero {s : RealScore F} (h : s.lighthouseScore = 0) :
    s.combined = if s.gossipsubScore < 0 ∧ s.ignoreNegativeGossipsubScore = true then 0
      else s.gossipsubScore * gossipsubNegativeScoreWeight := by
  have hhigh : ¬ (0 : F) ≤ minLighthouseScoreBeforeBan := by
    unfold minLighthouseScoreBeforeBan
    linarith
  unfold combined recomputeScore
  simp only [h, if_neg hhigh, zero_add]
  by_cases hneg : s.gossipsubScore < 0
  · rw [if_neg (not_le.2 hneg)]
    cases s.ignoreNegativeGossipsubScore with
    | true => simp [hneg]
    | false => simp
  · rw [if_pos (not_lt.1 hneg), if_neg fun hand => hneg hand.1]
    rfl

/-! ## One step -/

theorem Untouched.updateAt {s : RealScore F} (h : s.Untouched) (now : Instant) :
    (s.updateAt now).Untouched ∧ (s.updateAt now).score = s.score := by
  unfold RealScore.updateAt
  split
  · have hzero : s.lighthouseScore *
        ScoreArith.decay ((now - s.lastUpdated) / 10 ^ 9) = 0 := by
      rw [h.lighthouse_eq, zero_mul]
    refine ⟨Untouched.updateState hzero, ?_⟩
    rw [updateState_score, combined_of_lighthouse_zero hzero, h.score_eq,
      combined_of_lighthouse_zero h.lighthouse_eq]
  · exact ⟨h, rfl⟩

theorem Untouched.updateGossipsubScore {s : RealScore F} (h : s.Untouched) (newScore : F)
    (ignore : Bool) (now : Instant) : (s.updateGossipsubScore newScore ignore now).Untouched := by
  unfold RealScore.updateGossipsubScore
  split
  · exact Untouched.updateState h.lighthouse_eq
  · exact h

theorem Untouched.step {s : RealScore F} (h : s.Untouched) {op : ScoreOp F} (hop : op.Passive) :
    (s.step op).Untouched := by
  cases op with
  | applyPeerAction action => exact absurd hop id
  | updateAt now => exact (h.updateAt now).1
  | updateGossipsubScore newScore ignore now => exact h.updateGossipsubScore newScore ignore now

/-- A gossipsub score that is not ignored decides the state. -/
theorem Untouched.gossipsub_healthy_iff {s : RealScore F} (h : s.Untouched)
    (hhealthy : (Score.real s).state = .healthy) (newScore : F) (ignore : Bool) (now : Instant) :
    (Score.real (s.updateGossipsubScore newScore ignore now)).state = .healthy ↔
      (s.lastUpdated ≤ now → ignore = false →
        minScoreBeforeDisconnect < newScore * gossipsubNegativeScoreWeight) := by
  have hset : ({ s with gossipsubScore := newScore, ignoreNegativeGossipsubScore := ignore } :
      RealScore F).lighthouseScore = 0 := h.lighthouse_eq
  have hzero : (minScoreBeforeDisconnect : F) < 0 := by
    unfold minScoreBeforeDisconnect
    linarith
  have hweight : (0 : F) < gossipsubNegativeScoreWeight := by
    unfold gossipsubNegativeScoreWeight minScoreBeforeDisconnect gossipsubGreylistThreshold
    norm_num
  unfold RealScore.updateGossipsubScore
  by_cases hnow : s.lastUpdated ≤ now
  · rw [if_pos hnow, state_eq_healthy_iff, updateState_score, combined_of_lighthouse_zero hset]
    simp only [hnow, true_implies]
    cases ignore with
    | false => simp
    | true =>
      refine iff_of_true ?_ fun hfalse => by cases hfalse
      split
      · exact hzero
      · next hpos =>
        have hnonneg : 0 ≤ newScore := not_lt.1 fun hneg => hpos ⟨hneg, rfl⟩
        exact hzero.trans_le (mul_nonneg hnonneg hweight.le)
  · rw [if_neg hnow]
    exact iff_of_true hhealthy fun hle => absurd hle hnow

theorem Untouched.step_healthy_iff {s : RealScore F} (h : s.Untouched)
    (hhealthy : (Score.real s).state = .healthy) {op : ScoreOp F} (hop : op.Passive) :
    (Score.real (s.step op)).state = .healthy ↔ s.Harmless op := by
  cases op with
  | applyPeerAction action => exact absurd hop id
  | updateAt now =>
    refine iff_of_true ?_ trivial
    change (Score.real (s.updateAt now)).state = .healthy
    rw [state_eq_healthy_iff, (h.updateAt now).2]
    exact state_eq_healthy_iff.1 hhealthy
  | updateGossipsubScore newScore ignore now =>
    exact h.gossipsub_healthy_iff hhealthy newScore ignore now

/-! ## Runs -/

/-- **Without peer actions a score stays healthy exactly as long as the gossipsub scores are
harmless.** -/
theorem gossipsubOnly_healthy_iff (created : Instant) (ops : List (ScoreOp F))
    (hops : ∀ op ∈ ops, op.Passive) :
    Throughout step (fun s => (Score.real s).state = .healthy) (defaultAt created) ops ↔
      Along step Harmless (defaultAt created : RealScore F) ops := by
  have hdefault : (defaultAt created : RealScore F).Untouched :=
    ⟨rfl, (WF.defaultAt created).score_eq⟩
  refine throughout_iff_along
    (P := fun s => s.Untouched ∧ (Score.real s).state = .healthy) (D := fun _ op => op.Passive)
    ?_ (fun s h => h.2) ?_ ⟨hdefault, Score.state_defaultAt created⟩ (Along.of_mem hops _)
  · rintro s op ⟨huntouched, hhealthy⟩ hop hharmless
    exact ⟨huntouched.step hop, (huntouched.step_healthy_iff hhealthy hop).2 hharmless⟩
  · rintro s op ⟨huntouched, hhealthy⟩ hop hstep
    exact (huntouched.step_healthy_iff hhealthy hop).1 hstep

/-- A greylisted peer is not disconnected by its gossipsub score. -/
theorem gossipsubOnly_greylisted :
    Throughout step (fun s => (Score.real s).state = .healthy) (defaultAt 0 : RealScore ℚ)
      [.updateGossipsubScore (-16000) false 0, .updateAt (10 ^ 9)] :=
  (gossipsubOnly_healthy_iff 0 _ (by simp [ScoreOp.Passive])).2
    ⟨fun _ _ => by norm_num [minScoreBeforeDisconnect, gossipsubNegativeScoreWeight,
      gossipsubGreylistThreshold], trivial, trivial⟩

/-- A gossipsub score below the greylist threshold disconnects. -/
theorem gossipsubOnly_disconnects :
    ¬ ∀ (created : Instant) (ops : List (ScoreOp ℚ)), (∀ op ∈ ops, op.Passive) →
      Throughout step (fun s => (Score.real s).state = .healthy)
        (defaultAt created : RealScore ℚ) ops := by
  intro h
  have hops : ∀ op ∈ [(.updateGossipsubScore (-17000) false 0 : ScoreOp ℚ)], op.Passive := by
    simp [ScoreOp.Passive]
  exact absurd (h 0 _ hops) (by decide +kernel)

end RealScore

end Consentry
