import Consentry.Verify.Decay

/-!
# How long a ban lasts

**`ban_lasts_iff`**: a ban lasts `bannedBeforeDecay`, whatever is done to the score after it, if
and only if the score was up to date when it was banned, or the ban is so deep that the decay
missed until then cannot lift the lighthouse part above the threshold at which it decides alone.

A ban sets the reference time forward from where it was (`RealScore.lastUpdated_of_ban`), not from
the time of the ban. So a score that was last updated long before it is banned decays, and takes
new gossipsub scores, as much earlier.
-/

namespace Consentry

open Lib

/-- The time at which an operation is carried out, where it reads the clock. -/
def ScoreOp.clock {F : Type} : ScoreOp F → Option Instant
  | .applyPeerAction _ => none
  | .updateAt now => some now
  | .updateGossipsubScore _ _ now => some now

/-- By how much an action lowers the lighthouse part; `Fatal` lowers it to its limit. -/
def PeerAction.penalty (action : PeerAction) : ℕ :=
  if action = .fatal then 100
  else if action = .lowToleranceError then 10
  else if action = .midToleranceError then 5
  else 1

namespace RealScore

/-- The lighthouse part that an operation which bans leaves: an action lowers it within its limit,
a gossipsub score does not change it. -/
noncomputable def bannedLighthouse (s : RealScore ℝ) : ScoreOp ℝ → ℝ
  | .applyPeerAction action => max minScore (s.lighthouseScore - action.penalty)
  | .updateAt _ => s.lighthouseScore
  | .updateGossipsubScore _ _ _ => s.lighthouseScore

/-! ## The ban -/

theorem Lawful.applyPeerAction_lighthouseScore {s : RealScore ℝ} (h : s.Lawful)
    (action : PeerAction) : (s.applyPeerAction action).lighthouseScore =
      max minScore (s.lighthouseScore - action.penalty) := by
  have hmin := h.min_le
  have hnonpos := h.lighthouse_nonpos
  have hadd : ∀ x : ℝ, 0 ≤ x → (s.add (-x)).lighthouseScore =
      max minScore (s.lighthouseScore - x) := by
    intro x hx
    have hmax : ¬ (maxScore < s.lighthouseScore + -x) := by
      unfold maxScore
      linarith
    unfold add setLighthouseScore
    simp only [if_neg hmax]
    rw [updateState_lighthouseScore, ← sub_eq_add_neg]
    split
    · next hlt => exact (max_eq_left hlt.le).symm
    · next hge => exact (max_eq_right (not_lt.1 hge)).symm
  cases action with
  | fatal =>
    change ({ s with lighthouseScore := minScore } : RealScore ℝ).updateState.lighthouseScore = _
    rw [updateState_lighthouseScore, max_eq_left]
    norm_num [PeerAction.penalty, minScore]
    linarith
  | lowToleranceError =>
    simpa [RealScore.applyPeerAction, PeerAction.penalty] using hadd 10 (by norm_num)
  | midToleranceError =>
    simpa [RealScore.applyPeerAction, PeerAction.penalty] using hadd 5 (by norm_num)
  | highToleranceError =>
    simpa [RealScore.applyPeerAction, PeerAction.penalty] using hadd 1 (by norm_num)

/-- A recomputation that bans sets the reference time forward. -/
theorem updateState_lastUpdated_of_ban {s : RealScore ℝ} (hnot : minScoreBeforeBan < s.score)
    (hban : s.updateState.score ≤ minScoreBeforeBan) :
    s.updateState.lastUpdated = s.lastUpdated + bannedBeforeDecay := by
  rw [updateState_score] at hban
  have hscore : s.recomputeScore.score ≤ minScoreBeforeBan := hban
  unfold updateState
  simp only [hnot, hscore, decide_true, Bool.and_true, if_true]
  rfl

/-- **What a ban leaves**: the reference time moves forward from where it was. -/
theorem Lawful.step_of_ban {s : RealScore ℝ} (h : s.Lawful) {op : ScoreOp ℝ}
    (hnot : minScoreBeforeBan < s.score) (hban : (s.step op).score ≤ minScoreBeforeBan) :
    (s.step op).lighthouseScore = s.bannedLighthouse op ∧
      (s.step op).lastUpdated = s.lastUpdated + bannedBeforeDecay := by
  cases op with
  | applyPeerAction action =>
    refine ⟨h.applyPeerAction_lighthouseScore action, ?_⟩
    obtain ⟨lighthouse, -, -, heq⟩ := h.applyPeerAction_eq action
    change (s.applyPeerAction action).score ≤ minScoreBeforeBan at hban
    change (s.applyPeerAction action).lastUpdated = _
    rw [heq] at hban ⊢
    exact updateState_lastUpdated_of_ban (s := { s with lighthouseScore := lighthouse }) hnot hban
  | updateAt now =>
    exact absurd (h.updateAt_not_banned now hnot) (not_lt.2 hban)
  | updateGossipsubScore newScore ignore now =>
    change (s.updateGossipsubScore newScore ignore now).score ≤ minScoreBeforeBan at hban
    change (s.updateGossipsubScore newScore ignore now).lighthouseScore = s.lighthouseScore ∧
      (s.updateGossipsubScore newScore ignore now).lastUpdated = _
    unfold RealScore.updateGossipsubScore at hban ⊢
    by_cases hnow : s.lastUpdated ≤ now
    · rw [if_pos hnow] at hban ⊢
      exact ⟨updateState_lighthouseScore _, updateState_lastUpdated_of_ban
        (s := { s with gossipsubScore := newScore, ignoreNegativeGossipsubScore := ignore })
        hnot hban⟩
    · rw [if_neg hnow] at hban
      exact absurd hnot (not_lt.2 hban)

/-! ## Bans that last -/

/-- A banned score that nothing lifts up to the time `last`: nothing reaches it until then, or
even the decay until then leaves the lighthouse part so low that it decides alone. -/
structure BannedUntil (last : Instant) (s : RealScore ℝ) : Prop where
  lawful : s.Lawful
  banned : s.score ≤ minScoreBeforeBan
  deep : last < s.lastUpdated ∨
    s.lighthouseScore * ScoreArith.decay ((last - s.lastUpdated) / 10 ^ 9) ≤
      minLighthouseScoreBeforeBan

namespace BannedUntil

variable {last : Instant} {s : RealScore ℝ}

/-- When operations reach the score again, its lighthouse part is as low as `deep` says. -/
theorem lighthouse_decay_le (h : s.BannedUntil last) (hle : s.lastUpdated ≤ last) :
    s.lighthouseScore * ScoreArith.decay ((last - s.lastUpdated) / 10 ^ 9) ≤
      minLighthouseScoreBeforeBan :=
  h.deep.resolve_left (not_lt.2 hle)

theorem lighthouse_le (h : s.BannedUntil last) (hle : s.lastUpdated ≤ last) :
    s.lighthouseScore ≤ minLighthouseScoreBeforeBan :=
  (h.lawful.le_decay _).trans (h.lighthouse_decay_le hle)

/-- Actions only make the ban deeper. -/
theorem applyPeerAction (h : s.BannedUntil last) (action : PeerAction) :
    (s.applyPeerAction action).BannedUntil last := by
  obtain ⟨lighthouse, -, hle, heq⟩ := h.lawful.applyPeerAction_eq action
  refine ⟨h.lawful.applyPeerAction action,
    h.lawful.toWF.applyPeerAction_banned h.banned action, ?_⟩
  have htime : (s.setLighthouseScore lighthouse).lastUpdated = s.lastUpdated :=
    updateState_lastUpdated_of_banned (s := { s with lighthouseScore := lighthouse }) h.banned
  have hlower : (s.setLighthouseScore lighthouse).lighthouseScore ≤ s.lighthouseScore := by
    unfold setLighthouseScore
    rwa [updateState_lighthouseScore]
  rw [heq, htime]
  refine h.deep.imp_right fun hdeep => le_trans ?_ hdeep
  exact mul_le_mul_of_nonneg_right hlower (decay_pos _).le

/-- The decay so far and the decay that is still missed are no more than the decay from before. -/
theorem updateAt (h : s.BannedUntil last) {now : Instant} (hnow : now ≤ last) :
    (s.updateAt now).BannedUntil last := by
  by_cases hle : s.lastUpdated ≤ now
  · have hdeep := h.lighthouse_decay_le (hle.trans hnow)
    have hnonpos := h.lawful.lighthouse_nonpos
    have htime := h.lawful.toWF.updateAt_lastUpdated hle
    have hlight := updateAt_lighthouseScore hle
    have hlow : (s.updateAt now).lighthouseScore ≤ minLighthouseScoreBeforeBan := by
      rw [hlight]
      refine le_trans (mul_decay_mono hnonpos ?_) hdeep
      exact Nat.div_le_div_right (Nat.sub_le_sub_right hnow _)
    have hlawful := h.lawful.updateAt now
    refine ⟨hlawful, ?_, .inr ?_⟩
    · rw [hlawful.score_eq, combined_of_low hlow]
      unfold minLighthouseScoreBeforeBan at hlow
      unfold minScoreBeforeBan
      linarith
    · rw [hlight, htime, mul_assoc, ← decay_add]
      refine le_trans (mul_decay_mono hnonpos ?_) hdeep
      have hsplit : now - s.lastUpdated + (last - now) = last - s.lastUpdated := by
        rw [Nat.add_comm]
        exact tsub_add_tsub_cancel hnow hle
      rw [← hsplit]
      exact Nat.div_add_div_le_add_div
  · have hsame : s.updateAt now = s := by
      unfold RealScore.updateAt
      rw [if_neg hle]
    rwa [hsame]

/-- A gossipsub score does not count while the lighthouse part decides alone. -/
theorem updateGossipsubScore (h : s.BannedUntil last) (newScore : ℝ) (ignore : Bool)
    {now : Instant} (hnow : now ≤ last) :
    (s.updateGossipsubScore newScore ignore now).BannedUntil last := by
  have hlawful := h.lawful.updateGossipsubScore newScore ignore now
  by_cases hle : s.lastUpdated ≤ now
  · have hlow := h.lighthouse_le (hle.trans hnow)
    unfold RealScore.updateGossipsubScore at hlawful ⊢
    rw [if_pos hle] at hlawful ⊢
    refine ⟨hlawful, ?_, ?_⟩
    · rw [updateState_score, combined_of_low (by exact hlow)]
      have hban : s.lighthouseScore ≤ minScoreBeforeBan := by
        unfold minLighthouseScoreBeforeBan at hlow
        unfold minScoreBeforeBan
        linarith
      exact hban
    · rw [updateState_lighthouseScore, updateState_lastUpdated_of_banned (by exact h.banned)]
      exact h.deep
  · have hsame : s.updateGossipsubScore newScore ignore now = s := by
      unfold RealScore.updateGossipsubScore
      rw [if_neg hle]
    rwa [hsame]

theorem step (h : s.BannedUntil last) {op : ScoreOp ℝ} (hop : ∀ t ∈ op.clock, t ≤ last) :
    (s.step op).BannedUntil last := by
  cases op with
  | applyPeerAction action => exact h.applyPeerAction action
  | updateAt now => exact h.updateAt (hop now rfl)
  | updateGossipsubScore newScore ignore now =>
    exact h.updateGossipsubScore newScore ignore (hop now rfl)

theorem run (h : s.BannedUntil last) {ops : List (ScoreOp ℝ)}
    (hops : ∀ t ∈ ops.filterMap ScoreOp.clock, t ≤ last) :
    (ops.foldl RealScore.step s).BannedUntil last := by
  induction ops generalizing s with
  | nil => exact h
  | cons op ops ih =>
    have hhead : ∀ t ∈ op.clock, t ≤ last := fun t ht =>
      hops t (List.mem_filterMap.2 ⟨op, List.mem_cons_self, ht⟩)
    refine ih (h.step hhead) fun t ht => hops t ?_
    obtain ⟨op', hop', hclock⟩ := List.mem_filterMap.1 ht
    exact List.mem_filterMap.2 ⟨op', List.mem_cons_of_mem op hop', hclock⟩

end BannedUntil

/-! ## Bans that are lifted -/

/-- **Decay and a good gossipsub score lift a ban** that is not deep enough. -/
theorem Lawful.exists_lift {s : RealScore ℝ} (h : s.Lawful) {last : Instant}
    (hle : s.lastUpdated ≤ last)
    (hshallow : minLighthouseScoreBeforeBan <
      s.lighthouseScore * ScoreArith.decay ((last - s.lastUpdated) / 10 ^ 9)) :
    ∃ newScore, minScoreBeforeBan <
      ((s.updateAt last).updateGossipsubScore newScore false last).score := by
  have hweight : (0 : ℝ) < gossipsubPositiveScoreWeight := by
    unfold gossipsubPositiveScoreWeight gossipsubNegativeScoreWeight minScoreBeforeDisconnect
      gossipsubGreylistThreshold
    norm_num
  have hnonneg : 0 ≤ 10 / (gossipsubPositiveScoreWeight : ℝ) := (div_pos (by norm_num) hweight).le
  rw [← updateAt_lighthouseScore hle] at hshallow
  refine ⟨10 / gossipsubPositiveScoreWeight, ?_⟩
  unfold RealScore.updateGossipsubScore
  rw [if_pos (h.toWF.updateAt_lastUpdated hle).le, updateState_score]
  unfold combined recomputeScore
  simp only [if_neg (not_le.2 hshallow), if_pos hnonneg, div_mul_cancel₀ _ hweight.ne']
  unfold minLighthouseScoreBeforeBan at hshallow
  unfold minScoreBeforeBan
  linarith

/-- The last moment of a ban begun at `T` comes before a reference time moved forward by as much as
the ban lasts, if the reference time was not in the past. -/
theorem last_lt_iff {T t ban : ℕ} (hpos : 0 < ban) : T + ban - 1 < t + ban ↔ T ≤ t := by omega

theorem last_sub (T t ban : ℕ) : T + ban - 1 - (t + ban) = T - 1 - t := by omega

theorem Lawful.lasts_iff {s : RealScore ℝ} (h : s.Lawful) {op : ScoreOp ℝ} {T : Instant}
    (hnot : (Score.real s).state ≠ .banned)
    (hban : (Score.real (s.step op)).state = .banned) :
    (∀ later : List (ScoreOp ℝ), (later.filterMap ScoreOp.clock).Pairwise (· ≤ ·) →
      (∀ t ∈ later.filterMap ScoreOp.clock, T ≤ t ∧ t < T + bannedBeforeDecay) →
      (Score.real (later.foldl RealScore.step (s.step op))).state = .banned) ↔
    T ≤ s.lastUpdated ∨
      s.bannedLighthouse op * ScoreArith.decay ((T - 1 - s.lastUpdated) / 10 ^ 9) ≤
        minLighthouseScoreBeforeBan := by
  have hscore : minScoreBeforeBan < s.score :=
    not_le.1 fun hle => hnot (Score.state_eq_banned_iff.2 ⟨s, rfl, hle⟩)
  obtain ⟨r, hr, hbanned⟩ := Score.state_eq_banned_iff.1 hban
  cases hr
  obtain ⟨hlight, htime⟩ := h.step_of_ban hscore hbanned
  have hpos : 0 < bannedBeforeDecay := by decide
  have hle : T ≤ T + bannedBeforeDecay - 1 := Nat.le_sub_one_of_lt (Nat.lt_add_of_pos_right hpos)
  have hlt : T + bannedBeforeDecay - 1 < T + bannedBeforeDecay :=
    Nat.sub_lt (Nat.lt_of_lt_of_le hpos (Nat.le_add_left _ _)) Nat.one_pos
  -- the last moment at which the ban has to hold, and the decay missed by then
  have hdeep : (T ≤ s.lastUpdated ∨
      s.bannedLighthouse op * ScoreArith.decay ((T - 1 - s.lastUpdated) / 10 ^ 9) ≤
        minLighthouseScoreBeforeBan) ↔ (s.step op).BannedUntil (T + bannedBeforeDecay - 1) := by
    rw [← hlight, ← last_lt_iff hpos, ← last_sub T s.lastUpdated bannedBeforeDecay, ← htime]
    exact ⟨fun hdeep => ⟨h.step op, hbanned, hdeep⟩, fun huntil => huntil.deep⟩
  rw [hdeep]
  constructor
  · intro hlasts
    refine ⟨h.step op, hbanned, ?_⟩
    by_contra hnever
    obtain ⟨hlate, hshallow⟩ := not_or.1 hnever
    obtain ⟨newScore, hlifted⟩ := (h.step op).exists_lift (not_lt.1 hlate) (not_le.1 hshallow)
    have hstill := hlasts [.updateAt (T + bannedBeforeDecay - 1),
      .updateGossipsubScore newScore false (T + bannedBeforeDecay - 1)]
      (List.pairwise_pair.2 (le_refl _)) fun t ht => by
        have ht : t = T + bannedBeforeDecay - 1 := by simpa [ScoreOp.clock] using ht
        rw [ht]
        exact ⟨hle, hlt⟩
    obtain ⟨r, hr, hban⟩ := Score.state_eq_banned_iff.1 hstill
    cases hr
    exact absurd hban (not_le.2 hlifted)
  · intro huntil later _ htimes
    have hclocks : ∀ t ∈ later.filterMap ScoreOp.clock, t ≤ T + bannedBeforeDecay - 1 :=
      fun t ht => Nat.le_sub_one_of_lt (htimes t ht).2
    have hrun := huntil.run hclocks
    exact Score.state_eq_banned_iff.2 ⟨_, rfl, hrun.banned⟩

/-- **A ban that begins at `T` lasts exactly if** the score was up to date when it was banned, or
the ban is too deep for the decay that has been missed by then. -/
theorem ban_lasts_iff (created : Instant) (history : List (ScoreOp ℝ)) (op : ScoreOp ℝ)
    (T : Instant) (hnot : (Score.real (after created history)).state ≠ .banned)
    (hban : (Score.real ((after created history).step op)).state = .banned) :
    (∀ later : List (ScoreOp ℝ), (later.filterMap ScoreOp.clock).Pairwise (· ≤ ·) →
      (∀ t ∈ later.filterMap ScoreOp.clock, T ≤ t ∧ t < T + bannedBeforeDecay) →
      (Score.real (later.foldl step ((after created history).step op))).state = .banned) ↔
    T ≤ (after created history).lastUpdated ∨
      (after created history).bannedLighthouse op *
          ScoreArith.decay ((T - 1 - (after created history).lastUpdated) / 10 ^ 9) ≤
        minLighthouseScoreBeforeBan :=
  (lawful_after created history).lasts_iff hnot hban

/-- A new score that is banned at once. -/
theorem fatal_after_nil : (after 0 []).step (.applyPeerAction .fatal) =
    ⟨-100, 0, false, -100, bannedBeforeDecay⟩ := by
  norm_num [after, step, defaultAt, defaultScore, applyPeerAction, setLighthouseScore, updateState,
    recomputeScore, minScore, minScoreBeforeBan, minLighthouseScoreBeforeBan]

theorem fatal_after_nil_banned :
    (Score.real ((after 0 []).step (.applyPeerAction .fatal))).state = .banned := by
  rw [fatal_after_nil]
  exact Score.state_eq_banned_iff.2 ⟨_, rfl, by norm_num [minScoreBeforeBan]⟩

theorem after_nil_not_banned : (Score.real (after 0 [])).state ≠ .banned := by
  have hhealthy : (Score.real (after 0 [])).state = .healthy := Score.state_defaultAt 0
  rw [hhealthy]
  exact ScoreState.noConfusion

/-- A score banned when it is created stays so for six hours, however good its gossipsub score. -/
theorem ban_lasts_from_creation :
    (Score.real ([ScoreOp.updateGossipsubScore 1000000 false (6 * 3600 * 10 ^ 9)].foldl step
      ((after 0 []).step (.applyPeerAction .fatal)))).state = .banned :=
  (ban_lasts_iff 0 [] (.applyPeerAction .fatal) 0
    after_nil_not_banned fatal_after_nil_banned).2 (.inl (Nat.zero_le _)) _
    (by simp [ScoreOp.clock]) (by simp [ScoreOp.clock, bannedBeforeDecay])

/-- A ban twelve hours after the last update ends twenty minutes later. -/
theorem ban_ends_early :
    ¬ ∀ (created : Instant) (history : List (ScoreOp ℝ)) (op : ScoreOp ℝ) (T : Instant),
      (∀ t ∈ op.clock, t = T) → (Score.real (after created history)).state ≠ .banned →
      (Score.real ((after created history).step op)).state = .banned →
      ∀ later : List (ScoreOp ℝ), (later.filterMap ScoreOp.clock).Pairwise (· ≤ ·) →
        (∀ t ∈ later.filterMap ScoreOp.clock, T ≤ t ∧ t < T + bannedBeforeDecay) →
        (Score.real (later.foldl step ((after created history).step op))).state = .banned := by
  intro h
  have hwithin : bannedBeforeDecay ≤
      bannedBeforeDecay + (scoreHalflife + scoreHalflife) * 10 ^ 9 ∧
        bannedBeforeDecay + (scoreHalflife + scoreHalflife) * 10 ^ 9 <
          bannedBeforeDecay + bannedBeforeDecay := by
    decide
  have hstill := h 0 [] (.applyPeerAction .fatal) bannedBeforeDecay (fun t ht => by cases ht)
    after_nil_not_banned fatal_after_nil_banned
    [.updateAt (bannedBeforeDecay + (scoreHalflife + scoreHalflife) * 10 ^ 9)]
    (List.pairwise_singleton _ _) fun t ht => by
      rw [List.mem_singleton.1 ht]
      exact hwithin
  rw [fatal_after_nil, List.foldl_cons, List.foldl_nil] at hstill
  obtain ⟨r, hr, hle⟩ := Score.state_eq_banned_iff.1 hstill
  cases hr
  change (updateAt _ _).score ≤ _ at hle
  have hsecs : (bannedBeforeDecay + (scoreHalflife + scoreHalflife) * 10 ^ 9 -
      bannedBeforeDecay) / 10 ^ 9 = scoreHalflife + scoreHalflife := by decide
  unfold updateAt at hle
  simp only [Nat.le_add_right, if_true] at hle
  rw [hsecs, decay_add, decay_halflife, updateState_score] at hle
  norm_num [combined, recomputeScore, minScoreBeforeBan, minLighthouseScoreBeforeBan] at hle

end RealScore

end Consentry
