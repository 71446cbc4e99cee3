import Consentry.Score

/-!
# Facts on scores

The lighthouse part of a score never exceeds 0 and the stored score is the combination
of its parts (`RealScore.WF`). Hence **decay never bans** (`RealScore.WF.updateAt_not_banned`):
a score that is not banned stays so when time passes. A `Fatal` action always bans a real
score, and so does a gossipsub score that is low enough.
-/

namespace Consentry

variable {F : Type} [ScoreArith F]

namespace RealScore

/-! ## The stored score -/

@[simp] theorem recomputeScore_lighthouseScore (s : RealScore F) :
    s.recomputeScore.lighthouseScore = s.lighthouseScore := rfl

/-- The state is recomputed; a fresh ban only moves `lastUpdated`. -/
theorem updateState_eq (s : RealScore F) :
    ∃ t, s.updateState = { s.recomputeScore with lastUpdated := t } := by
  simp only [updateState]
  split
  · exact ⟨_, rfl⟩
  · exact ⟨s.lastUpdated, rfl⟩

/-- What the stored score has to be. -/
def combined (s : RealScore F) : F := s.recomputeScore.score

@[simp] theorem updateState_score (s : RealScore F) : s.updateState.score = s.combined := by
  obtain ⟨t, h⟩ := s.updateState_eq
  rw [h, combined]

@[simp] theorem updateState_lighthouseScore (s : RealScore F) :
    s.updateState.lighthouseScore = s.lighthouseScore := by
  obtain ⟨t, h⟩ := s.updateState_eq
  rw [h, recomputeScore_lighthouseScore]

@[simp] theorem updateState_combined (s : RealScore F) :
    s.updateState.combined = s.combined := by
  obtain ⟨t, h⟩ := s.updateState_eq
  rw [h]
  rfl

/-- A very low lighthouse score is the whole score. -/
theorem combined_of_low {s : RealScore F} (h : s.lighthouseScore ≤ minLighthouseScoreBeforeBan) :
    s.combined = s.lighthouseScore := by
  simp only [combined, recomputeScore]
  rw [if_pos h]

/-! ## Well-formed scores -/

structure WF (s : RealScore F) : Prop where
  lighthouse_nonpos : s.lighthouseScore ≤ 0
  score_eq : s.score = s.combined

theorem WF.updateState {s : RealScore F} (h : s.lighthouseScore ≤ 0) : s.updateState.WF :=
  ⟨by rwa [updateState_lighthouseScore], by rw [updateState_score, updateState_combined]⟩

theorem WF.defaultAt (now : Instant) : (RealScore.defaultAt now : RealScore F).WF := by
  refine ⟨le_refl _, ?_⟩
  simp [combined, recomputeScore, RealScore.defaultAt, defaultScore, minLighthouseScoreBeforeBan]

theorem WF.add {s : RealScore F} (h : s.WF) {score : F} (hscore : score ≤ 0) :
    (s.add score).WF := by
  have hsum : s.lighthouseScore + score ≤ 0 := add_nonpos h.lighthouse_nonpos hscore
  apply WF.updateState
  have hmax : ¬ (maxScore < s.lighthouseScore + score) := by
    unfold maxScore
    linarith
  simp only [if_neg hmax]
  split
  · unfold minScore
    linarith
  · exact hsum

theorem WF.applyPeerAction {s : RealScore F} (h : s.WF) (action : PeerAction) :
    (s.applyPeerAction action).WF := by
  cases action with
  | fatal =>
    apply WF.updateState
    simp only [minScore]
    linarith
  | _ =>
    apply h.add
    linarith

theorem WF.updateAt {s : RealScore F} (h : s.WF) (now : Instant) : (s.updateAt now).WF := by
  unfold RealScore.updateAt
  split
  · exact WF.updateState
      (mul_nonpos_of_nonpos_of_nonneg h.lighthouse_nonpos (ScoreArith.decay_nonneg _))
  · exact h

theorem WF.updateGossipsubScore {s : RealScore F} (h : s.WF) (newScore : F) (ignore : Bool)
    (now : Instant) : (s.updateGossipsubScore newScore ignore now).WF := by
  unfold RealScore.updateGossipsubScore
  split
  · exact WF.updateState h.lighthouse_nonpos
  · exact h

/-! ## Bans -/

/-- A higher lighthouse score does not lower the combination, except for one that bans. -/
theorem combined_le {s : RealScore F} {lighthouse : F} {t : Instant}
    (hle : s.lighthouseScore ≤ lighthouse) :
    s.combined ≤ minScoreBeforeBan ∨ s.combined ≤
      ({ s with lighthouseScore := lighthouse, lastUpdated := t } : RealScore F).combined := by
  by_cases hlow : s.lighthouseScore ≤ minLighthouseScoreBeforeBan
  · refine .inl ?_
    rw [combined_of_low hlow]
    unfold minLighthouseScoreBeforeBan at hlow
    unfold minScoreBeforeBan
    linarith
  · refine .inr ?_
    have hlow' : ¬ (lighthouse ≤ minLighthouseScoreBeforeBan) :=
      fun h => hlow (hle.trans h)
    simp only [combined, recomputeScore, if_neg hlow, if_neg hlow']
    split
    · linarith
    · split <;> linarith

/-- A higher lighthouse score does not ban. -/
theorem combined_mono {s : RealScore F} {lighthouse : F} {t : Instant}
    (hle : s.lighthouseScore ≤ lighthouse) (hnot : minScoreBeforeBan < s.combined) :
    minScoreBeforeBan <
      ({ s with lighthouseScore := lighthouse, lastUpdated := t } : RealScore F).combined := by
  rcases combined_le (t := t) hle with hban | hup
  · exact absurd hnot (not_lt.2 hban)
  · exact lt_of_lt_of_le hnot hup

theorem WF.le_decay {s : RealScore F} (h : s.WF) (secs : ℕ) :
    s.lighthouseScore ≤ s.lighthouseScore * ScoreArith.decay secs := by
  have hdecay := mul_le_mul_of_nonpos_left (ScoreArith.decay_le_one secs) h.lighthouse_nonpos
  rwa [mul_one] at hdecay

/-- **Decay never bans.** -/
theorem WF.updateAt_not_banned {s : RealScore F} (h : s.WF) (now : Instant)
    (hnot : minScoreBeforeBan < s.score) : minScoreBeforeBan < (s.updateAt now).score := by
  unfold RealScore.updateAt
  split
  · rw [updateState_score]
    apply combined_mono
    · exact h.le_decay _
    · rwa [← h.score_eq]
  · exact hnot

theorem fatal_score (s : RealScore F) : (s.applyPeerAction .fatal).score = minScore := by
  change ({ s with lighthouseScore := minScore } : RealScore F).updateState.score = _
  rw [updateState_score, combined_of_low]
  simp only [minScore, minLighthouseScoreBeforeBan]
  linarith

/-- **A penalty never lifts a ban.** -/
theorem WF.applyPeerAction_banned {s : RealScore F} (h : s.WF) (hban : s.score ≤ minScoreBeforeBan)
    (action : PeerAction) : (s.applyPeerAction action).score ≤ minScoreBeforeBan := by
  have hadd : ∀ x : F, x ≤ 0 → (s.add x).score ≤ minScoreBeforeBan := by
    intro x hx
    have hle : s.lighthouseScore + x ≤ s.lighthouseScore := add_le_of_nonpos_right hx
    have hmax : ¬ (maxScore < s.lighthouseScore + x) := by
      have hnonpos := h.lighthouse_nonpos
      unfold maxScore
      linarith
    unfold RealScore.add
    simp only [if_neg hmax]
    by_cases hmin : s.lighthouseScore + x < minScore
    · rw [if_pos hmin]
      have hfatal := s.fatal_score
      change (s.setLighthouseScore minScore).score = minScore at hfatal
      rw [hfatal]
      unfold minScore minScoreBeforeBan
      linarith
    · rw [if_neg hmin, setLighthouseScore, updateState_score]
      by_contra hnot
      have hup := combined_mono (t := s.lastUpdated) hle (not_le.1 hnot)
      rw [h.score_eq] at hban
      exact absurd hban (not_le.2 hup)
  cases action with
  | fatal =>
    rw [fatal_score]
    unfold minScore minScoreBeforeBan
    linarith
  | _ =>
    apply hadd
    linarith

/-- A gossipsub score that is low enough bans. -/
theorem exists_gossipsub_ban (s : RealScore F) :
    ∃ g : F, (s.updateGossipsubScore g false s.lastUpdated).score ≤ minScoreBeforeBan := by
  have hw : (0 : F) < gossipsubNegativeScoreWeight := by
    unfold gossipsubNegativeScoreWeight minScoreBeforeDisconnect gossipsubGreylistThreshold
    norm_num
  obtain ⟨g, hg, hsum⟩ : ∃ g : F, g < 0 ∧
      s.lighthouseScore + g * gossipsubNegativeScoreWeight ≤ minScoreBeforeBan := by
    refine ⟨-(|s.lighthouseScore| + 50) / gossipsubNegativeScoreWeight, ?_, ?_⟩
    · apply div_neg_of_neg_of_pos _ hw
      have := abs_nonneg s.lighthouseScore
      linarith
    · rw [div_mul_cancel₀ _ hw.ne']
      have := le_abs_self s.lighthouseScore
      unfold minScoreBeforeBan
      linarith
  refine ⟨g, ?_⟩
  unfold RealScore.updateGossipsubScore
  rw [if_pos (le_refl _), updateState_score]
  by_cases hlow : s.lighthouseScore ≤ minLighthouseScoreBeforeBan
  · rw [combined_of_low (by exact hlow)]
    unfold minLighthouseScoreBeforeBan at hlow
    simp only [minScoreBeforeBan]
    linarith
  · simp only [combined, recomputeScore, if_neg hlow, if_neg (not_le.2 hg)]
    exact hsum

end RealScore

namespace Score

/-- A real score is well formed. -/
def WF : Score F → Prop
  | max => True
  | real s => s.WF

theorem state_eq_banned_iff {s : Score F} :
    s.state = .banned ↔ ∃ r, s = .real r ∧ r.score ≤ minScoreBeforeBan := by
  cases s with
  | max => simp [state, score]
  | real r =>
    have hscore : (real r).score ≤ (minScoreBeforeBan : F) ↔ r.score ≤ minScoreBeforeBan :=
      WithTop.coe_le_coe
    unfold state
    by_cases h : r.score ≤ minScoreBeforeBan
    · rw [if_pos (hscore.2 h)]
      exact ⟨fun _ => ⟨r, rfl, h⟩, fun _ => rfl⟩
    · rw [if_neg fun hle => h (hscore.1 hle)]
      refine ⟨fun hstate => ?_, ?_⟩
      · split at hstate <;> cases hstate
      · rintro ⟨r', hr, hle⟩
        cases hr
        exact absurd hle h

theorem state_max : (max : Score F).state = .healthy := by
  simp [state, score]

theorem state_defaultAt (now : Instant) : (defaultAt now : Score F).state = .healthy := by
  have hban : ¬ ((defaultAt now : Score F).score ≤ (minScoreBeforeBan : F)) := by
    refine fun hle => absurd (WithTop.coe_le_coe.1 hle) ?_
    simp only [RealScore.defaultAt, defaultScore, minScoreBeforeBan]
    linarith
  have hdisconnect : ¬ ((defaultAt now : Score F).score ≤ (minScoreBeforeDisconnect : F)) := by
    refine fun hle => absurd (WithTop.coe_le_coe.1 hle) ?_
    simp only [RealScore.defaultAt, defaultScore, minScoreBeforeDisconnect]
    linarith
  unfold state
  rw [if_neg hban, if_neg hdisconnect]

theorem WF.mapReal {s : Score F} (h : s.WF) {f : RealScore F → RealScore F}
    (hf : ∀ r : RealScore F, r.WF → (f r).WF) : (s.mapReal f).WF := by
  cases s with
  | max => trivial
  | real r => exact hf r h

end Score

end Consentry
