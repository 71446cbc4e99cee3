import Consentry.Verify.ScoreOrder

/-!
# The schedule of decay

**`decay_schedule_iff`**: any number of decays leaves the lighthouse part of a score that a single
one leaves, up to one second of decay, if and only if the fractions of a second that the decays
drop sum to less than two seconds, or there is nothing to decay.

A decay counts the whole seconds since the last one and moves the reference time to now, so every
call drops a fraction of a second (`WF.runDecay_lighthouseScore`, `countedSecs_add_lostNanos`), and
the fractions add up: decays every 0.9 seconds do nothing at all.
-/

namespace Consentry

open Lib

/-! ## The decay factors -/

section Factors

/-- The exponent of the decay for each second. -/
noncomputable def halflifeDecay : ℝ := Real.log (ScoreArith.decay 1)

theorem halflifeDecay_eq : halflifeDecay = -Real.log 2 / scoreHalflife := by
  have hone : (ScoreArith.decay 1 : ℝ) =
      Real.exp (-Real.log 2 / scoreHalflife * (1 : ℕ)) := rfl
  rw [halflifeDecay, hone, Real.log_exp, Nat.cast_one, mul_one]

theorem halflifeDecay_neg : halflifeDecay < 0 := by
  rw [halflifeDecay_eq]
  have hlog : 0 < Real.log 2 := Real.log_pos (by norm_num)
  apply div_neg_of_neg_of_pos
  · linarith
  · norm_num [scoreHalflife]

theorem decay_eq (secs : ℕ) :
    (ScoreArith.decay secs : ℝ) = Real.exp (halflifeDecay * secs) := by
  rw [halflifeDecay_eq]
  rfl

theorem decay_pos (secs : ℕ) : (0 : ℝ) < ScoreArith.decay secs := Real.exp_pos _

theorem decay_zero : (ScoreArith.decay 0 : ℝ) = 1 := by
  rw [decay_eq, Nat.cast_zero, mul_zero, Real.exp_zero]

theorem decay_add (m n : ℕ) :
    (ScoreArith.decay (m + n) : ℝ) = ScoreArith.decay m * ScoreArith.decay n := by
  rw [decay_eq, decay_eq, decay_eq, ← Real.exp_add, Nat.cast_add, mul_add]

theorem decay_strictAnti : StrictAnti (ScoreArith.decay : ℕ → ℝ) := by
  intro m n hlt
  rw [decay_eq, decay_eq]
  apply Real.exp_lt_exp.2
  exact mul_lt_mul_of_neg_left (Nat.cast_lt.2 hlt) halflifeDecay_neg

/-- A half-life halves. -/
theorem decay_halflife : (ScoreArith.decay scoreHalflife : ℝ) = 1 / 2 := by
  have hlife : (scoreHalflife : ℝ) ≠ 0 := by norm_num [scoreHalflife]
  rw [decay_eq, halflifeDecay_eq, div_mul_cancel₀ _ hlife, Real.exp_neg,
    Real.exp_log (by norm_num)]
  norm_num

/-- A nonpositive value only grows with more decay. -/
theorem mul_decay_mono {x : ℝ} (hx : x ≤ 0) {m n : ℕ} (hle : m ≤ n) :
    x * ScoreArith.decay m ≤ x * ScoreArith.decay n :=
  mul_le_mul_of_nonpos_left (decay_strictAnti.antitone hle) hx

/-- One of the values is the other after at most one second of decay. -/
def WithinOneSecond (x y : ℝ) : Prop :=
  ∃ d, ScoreArith.decay 1 ≤ d ∧ d ≤ 1 ∧ (y = x * d ∨ x = y * d)

/-- Values that have decayed for `m` and for `n` seconds, with `m` no larger. -/
theorem withinOneSecond_iff {x : ℝ} (hx : x ≠ 0) {m n : ℕ} (hle : m ≤ n) :
    WithinOneSecond (x * ScoreArith.decay m) (x * ScoreArith.decay n) ↔ n ≤ m + 1 := by
  obtain ⟨k, rfl⟩ := Nat.exists_eq_add_of_le hle
  have hm : x * ScoreArith.decay m ≠ 0 := mul_ne_zero hx (decay_pos m).ne'
  have hsplit : x * ScoreArith.decay (m + k) =
      x * ScoreArith.decay m * ScoreArith.decay k := by
    rw [decay_add, mul_assoc]
  rw [hsplit]
  constructor
  · rintro ⟨d, hd, hd1, heq⟩
    by_contra hlarge
    have hk : 1 < k := by omega
    have hsmall : (ScoreArith.decay k : ℝ) < ScoreArith.decay 1 := decay_strictAnti hk
    rcases heq with heq | heq
    · have hdk : ScoreArith.decay k = d := mul_left_cancel₀ hm heq
      rw [hdk] at hsmall
      exact absurd hd (not_le.2 hsmall)
    · rw [mul_assoc] at heq
      have hone : ScoreArith.decay k * d = 1 := (mul_right_eq_self₀.1 heq.symm).resolve_right hm
      have hd0 : 0 < d := lt_of_lt_of_le (decay_pos 1) hd
      have hlt : ScoreArith.decay k * d < 1 := by
        calc ScoreArith.decay k * d ≤ ScoreArith.decay k * 1 :=
              mul_le_mul_of_nonneg_left hd1 (decay_pos k).le
          _ < ScoreArith.decay 1 := by rwa [mul_one]
          _ ≤ 1 := ScoreArith.decay_le_one 1
      exact absurd hone hlt.ne
  · intro hclose
    exact ⟨ScoreArith.decay k, decay_strictAnti.antitone (by omega), ScoreArith.decay_le_one k,
      .inl rfl⟩

end Factors

/-! ## What a sequence of decays counts -/

/-- The whole seconds that decays at the times `ts` count, from `t0` on. -/
def countedSecs : Instant → List Instant → ℕ
  | _, [] => 0
  | t0, t :: ts => (t - t0) / 10 ^ 9 + countedSecs t ts

/-- The nanoseconds that they drop. -/
def lostNanos : Instant → List Instant → ℕ
  | _, [] => 0
  | t0, t :: ts => (t - t0) % 10 ^ 9 + lostNanos t ts

/-- What is counted and what is dropped make up the whole time. -/
theorem countedSecs_add_lostNanos {t0 tn : ℕ} {ts : List ℕ}
    (h : (t0 :: (ts ++ [tn])).Pairwise (· ≤ ·)) :
    countedSecs t0 (ts ++ [tn]) * 10 ^ 9 + lostNanos t0 (ts ++ [tn]) = tn - t0 := by
  induction ts generalizing t0 with
  | nil =>
    have hhead := Nat.div_add_mod' (tn - t0) (10 ^ 9)
    simp only [List.nil_append, countedSecs, lostNanos, Nat.add_zero]
    exact hhead
  | cons t ts ih =>
    obtain ⟨hfirst, hrest⟩ := List.pairwise_cons.1 h
    have ht0 : t0 ≤ t := hfirst t List.mem_cons_self
    have htn : t ≤ tn := (List.pairwise_cons.1 hrest).1 tn (by simp)
    have hlater := ih hrest
    have hhead := Nat.div_add_mod' (t - t0) (10 ^ 9)
    simp only [List.cons_append, countedSecs, lostNanos]
    rw [Nat.add_mul, Nat.add_add_add_comm, hhead, hlater, Nat.add_comm]
    exact tsub_add_tsub_cancel htn ht0

/-! ## Runs of decays -/

namespace RealScore

section Decays

variable {F : Type} [ScoreArith F]

/-- Recomputing a score that is not banned afterwards does not move `lastUpdated`. -/
theorem updateState_lastUpdated {s : RealScore F} (h : minScoreBeforeBan < s.combined) :
    s.updateState.lastUpdated = s.lastUpdated := by
  have hnot : ¬ s.recomputeScore.score ≤ minScoreBeforeBan := not_le.2 h
  unfold updateState
  simp only [hnot, decide_false, Bool.and_false]
  rfl

/-- Nor does recomputing one that was banned before. -/
theorem updateState_lastUpdated_of_banned {s : RealScore F} (h : s.score ≤ minScoreBeforeBan) :
    s.updateState.lastUpdated = s.lastUpdated := by
  have hnot : ¬ minScoreBeforeBan < s.score := not_lt.2 h
  unfold updateState
  simp only [hnot, decide_false, Bool.false_and]
  rfl

theorem updateAt_lighthouseScore {s : RealScore F} {now : Instant} (h : s.lastUpdated ≤ now) :
    (s.updateAt now).lighthouseScore =
      s.lighthouseScore * ScoreArith.decay ((now - s.lastUpdated) / 10 ^ 9) := by
  unfold updateAt
  rw [if_pos h, updateState_lighthouseScore]

/-- A decay that takes place moves the reference time to now. -/
theorem WF.updateAt_lastUpdated {s : RealScore F} (hs : s.WF) {now : Instant}
    (h : s.lastUpdated ≤ now) : (s.updateAt now).lastUpdated = now := by
  unfold RealScore.updateAt
  rw [if_pos h]
  by_cases hban : s.score ≤ minScoreBeforeBan
  · exact updateState_lastUpdated_of_banned hban
  · rw [updateState_lastUpdated]
    apply combined_mono
    · exact hs.le_decay _
    · rw [← hs.score_eq]
      exact not_le.1 hban

end Decays

/-- **What a run of decays leaves** of the lighthouse part. -/
theorem WF.runDecay_lighthouseScore {s : RealScore ℝ} (hs : s.WF) {ts : List Instant}
    (hts : (s.lastUpdated :: ts).Pairwise (· ≤ ·)) :
    (ts.foldl RealScore.updateAt s).lighthouseScore =
      s.lighthouseScore * ScoreArith.decay (countedSecs s.lastUpdated ts) := by
  induction ts generalizing s with
  | nil => rw [countedSecs, decay_zero, mul_one, List.foldl_nil]
  | cons t ts ih =>
    obtain ⟨hfirst, hrest⟩ := List.pairwise_cons.1 hts
    have ht : s.lastUpdated ≤ t := hfirst t List.mem_cons_self
    have hlast := hs.updateAt_lastUpdated ht
    rw [← hlast] at hrest
    have hrun := ih (hs.updateAt t) hrest
    rw [List.foldl_cons, hrun, updateAt_lighthouseScore ht, hlast, mul_assoc, ← decay_add]
    rfl

theorem WF.runDecay_withinOneSecond {s : RealScore ℝ} (hs : s.WF)
    {ts : List Instant} {tn : Instant}
    (hts : (s.lastUpdated :: (ts ++ [tn])).Pairwise (· ≤ ·)) :
    WithinOneSecond ((ts ++ [tn]).foldl RealScore.updateAt s).lighthouseScore
        (s.updateAt tn).lighthouseScore ↔
      s.lighthouseScore = 0 ∨ lostNanos s.lastUpdated (ts ++ [tn]) < 2 * 10 ^ 9 := by
  have htn : s.lastUpdated ≤ tn := (List.pairwise_cons.1 hts).1 tn (by simp)
  have htime := countedSecs_add_lostNanos hts
  have hle : countedSecs s.lastUpdated (ts ++ [tn]) ≤ (tn - s.lastUpdated) / 10 ^ 9 := by omega
  rw [hs.runDecay_lighthouseScore hts, updateAt_lighthouseScore htn]
  by_cases hzero : s.lighthouseScore = 0
  · have hsame : WithinOneSecond 0 0 :=
      ⟨1, ScoreArith.decay_le_one 1, le_refl _, .inl (zero_mul _).symm⟩
    rw [hzero, zero_mul, zero_mul]
    exact ⟨fun _ => .inl rfl, fun _ => hsame⟩
  · rw [withinOneSecond_iff hzero hle, or_iff_right hzero]
    omega

/-! ## Histories -/

/-- The score that a history leaves. -/
noncomputable def after (created : Instant) (history : List (ScoreOp ℝ)) : RealScore ℝ :=
  history.foldl step (defaultAt created)

theorem lawful_after (created : Instant) (history : List (ScoreOp ℝ)) :
    (after created history).Lawful :=
  (throughout_of_step (fun _ op h => h.step op) history (Lawful.defaultAt created)).last

/-- **A schedule of decays agrees with a single one** up to one second of decay, if and only if
less than two seconds are dropped or there is nothing to decay; banned or not. -/
theorem decay_schedule_iff (created : Instant) (history : List (ScoreOp ℝ)) (ts : List Instant)
    (tn : Instant)
    (hts : ((after created history).lastUpdated :: (ts ++ [tn])).Pairwise (· ≤ ·)) :
    WithinOneSecond ((ts ++ [tn]).foldl updateAt (after created history)).lighthouseScore
        ((after created history).updateAt tn).lighthouseScore ↔
      (after created history).lighthouseScore = 0 ∨
        lostNanos (after created history).lastUpdated (ts ++ [tn]) < 2 * 10 ^ 9 :=
  (lawful_after created history).toWF.runDecay_withinOneSecond hts

/-- A score after one error of medium tolerance. -/
theorem after_midToleranceError :
    after 0 [.applyPeerAction .midToleranceError] = ⟨-5, 0, false, -5, 0⟩ := by
  norm_num [after, step, defaultAt, defaultScore, applyPeerAction, add, setLighthouseScore,
    updateState, recomputeScore, maxScore, minScore, minScoreBeforeBan,
    minLighthouseScoreBeforeBan]

theorem after_midToleranceError_not_banned :
    (Score.real (after 0 [.applyPeerAction .midToleranceError])).state ≠ .banned := by
  rw [after_midToleranceError]
  intro hban
  obtain ⟨r, hr, hle⟩ := Score.state_eq_banned_iff.1 hban
  cases hr
  norm_num [minScoreBeforeBan] at hle

/-- Two decays within two seconds. -/
theorem decay_schedule_twice :
    WithinOneSecond
      ([900000000, 1800000000].foldl updateAt
        (after 0 [.applyPeerAction .midToleranceError])).lighthouseScore
      ((after 0 [.applyPeerAction .midToleranceError]).updateAt 1800000000).lighthouseScore :=
  (decay_schedule_iff 0 [.applyPeerAction .midToleranceError] [900000000] 1800000000
    (by rw [after_midToleranceError]; decide)).2
    (.inr (by rw [after_midToleranceError]; decide))

/-- Decays every 0.9 seconds leave a score as it is. -/
theorem decay_schedule_differs :
    ¬ ∀ (created : Instant) (history : List (ScoreOp ℝ)) (ts : List Instant) (tn : Instant),
      (Score.real (after created history)).state ≠ .banned →
      ((after created history).lastUpdated :: (ts ++ [tn])).Pairwise (· ≤ ·) →
      WithinOneSecond ((ts ++ [tn]).foldl updateAt (after created history)).lighthouseScore
        ((after created history).updateAt tn).lighthouseScore := by
  intro h
  have hts : ((after 0 [.applyPeerAction .midToleranceError]).lastUpdated ::
      ([900000000, 1800000000] ++ [2700000000])).Pairwise (· ≤ ·) := by
    rw [after_midToleranceError]
    decide
  have hclose := h 0 _ _ _ after_midToleranceError_not_banned hts
  rw [(lawful_after _ _).toWF.runDecay_withinOneSecond hts,
    after_midToleranceError] at hclose
  rcases hclose with hzero | hlost
  · norm_num at hzero
  · exact absurd hlost (by decide)

end RealScore

end Consentry
