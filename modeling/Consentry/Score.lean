import Mathlib.Algebra.Order.Field.Rat
import Mathlib.Analysis.SpecialFunctions.Log.Basic
import Mathlib.Data.Real.Basic
import Mathlib.Order.WithBot
import Mathlib.Tactic.Linarith

/-!
# Peer scores (`peer_manager/peerdb/score.rs`)

`RealScore` keeps a lighthouse part (moved by peer actions, decaying towards 0), a
gossipsub part, and their combination `score`, recomputed on every change. `Score`
is either a real score or the score `max` of a trusted peer.

Scores are elements of an ordered field with decay factors (`ScoreArith`); the
source computes them in `f64`. The factors of the source, `exp(-ln 2 / 600 * secs)`,
are the instance at `ℝ`. The instance at `ℚ` agrees with them at whole half-lives and
serves to run the model.
-/

namespace Consentry

/-- Readings of the monotonic clock, in nanoseconds. -/
abbrev Instant := ℕ

/-- The arithmetic of scores: an ordered field with the factor by which a score decays
in a number of seconds. -/
class ScoreArith (F : Type) extends Field F, LinearOrder F, IsStrictOrderedRing F where
  decay : ℕ → F
  decay_nonneg : ∀ secs, 0 ≤ decay secs
  decay_le_one : ∀ secs, decay secs ≤ 1

/-- The half-life of a score in seconds. -/
def scoreHalflife : ℕ := 600

noncomputable instance : ScoreArith ℝ where
  decay secs := Real.exp (-Real.log 2 / scoreHalflife * secs)
  decay_nonneg secs := (Real.exp_pos _).le
  decay_le_one secs := by
    rw [Real.exp_le_one_iff]
    have hlog : 0 ≤ Real.log 2 := Real.log_nonneg (by norm_num)
    have hdiv : -Real.log 2 / scoreHalflife ≤ 0 :=
      div_nonpos_of_nonpos_of_nonneg (by linarith) (Nat.cast_nonneg _)
    exact mul_nonpos_of_nonpos_of_nonneg hdiv (Nat.cast_nonneg _)

instance : ScoreArith ℚ where
  decay secs := (1 / 2) ^ (secs / scoreHalflife)
  decay_nonneg secs := by positivity
  decay_le_one secs := pow_le_one₀ (by norm_num) (by norm_num)

section Constants

variable {F : Type} [ScoreArith F]

/-- The default score for new peers. -/
def defaultScore : F := 0

/-- The score at which a peer is disconnected. -/
def minScoreBeforeDisconnect : F := -20

/-- The score at which a peer is banned. -/
def minScoreBeforeBan : F := -50

/-- A lighthouse score at which the peer is banned whatever the other parts are. -/
def minLighthouseScoreBeforeBan : F := -60

def maxScore : F := 100

def minScore : F := -100

/-- `GREYLIST_THRESHOLD` of the gossipsub scoring parameters. -/
def gossipsubGreylistThreshold : F := -16000

def gossipsubNegativeScoreWeight : F :=
  (minScoreBeforeDisconnect + 1) / gossipsubGreylistThreshold

def gossipsubPositiveScoreWeight : F := gossipsubNegativeScoreWeight

end Constants

/-- How long a ban lasts before the score begins to decay: 12 hours. -/
def bannedBeforeDecay : ℕ := 12 * 3600 * 10 ^ 9

inductive PeerAction
  | fatal
  | lowToleranceError
  | midToleranceError
  | highToleranceError
  deriving DecidableEq, Repr

/-- The expected state of a peer given its score. -/
inductive ScoreState
  | healthy
  | disconnected
  | banned
  deriving DecidableEq, Repr

structure RealScore (F : Type) where
  lighthouseScore : F
  gossipsubScore : F
  ignoreNegativeGossipsubScore : Bool
  score : F
  /-- Lies in the future while a ban is younger than `bannedBeforeDecay`. -/
  lastUpdated : Instant
  deriving DecidableEq

namespace RealScore

variable {F : Type} [ScoreArith F]

/-- `RealScore::default()`, created at `now`. -/
def defaultAt (now : Instant) : RealScore F where
  lighthouseScore := defaultScore
  gossipsubScore := defaultScore
  ignoreNegativeGossipsubScore := false
  score := defaultScore
  lastUpdated := now

def recomputeScore (s : RealScore F) : RealScore F :=
  { s with
    score :=
      if s.lighthouseScore ≤ minLighthouseScoreBeforeBan then
        -- all other parts are ignored
        s.lighthouseScore
      else if 0 ≤ s.gossipsubScore then
        s.lighthouseScore + s.gossipsubScore * gossipsubPositiveScoreWeight
      else if !s.ignoreNegativeGossipsubScore then
        s.lighthouseScore + s.gossipsubScore * gossipsubNegativeScoreWeight
      else s.lighthouseScore }

def updateState (s : RealScore F) : RealScore F :=
  let wasNotBanned := decide (minScoreBeforeBan < s.score)
  let s := s.recomputeScore
  if wasNotBanned && decide (s.score ≤ minScoreBeforeBan) then
    { s with lastUpdated := s.lastUpdated + bannedBeforeDecay }
  else s

def setLighthouseScore (s : RealScore F) (newScore : F) : RealScore F :=
  { s with lighthouseScore := newScore }.updateState

/-- Adds to the score within its limits. -/
def add (s : RealScore F) (score : F) : RealScore F :=
  let newScore := s.lighthouseScore + score
  let newScore := if maxScore < newScore then maxScore else newScore
  let newScore := if newScore < minScore then minScore else newScore
  s.setLighthouseScore newScore

def applyPeerAction (s : RealScore F) : PeerAction → RealScore F
  | .fatal => s.setLighthouseScore minScore
  | .lowToleranceError => s.add (-10)
  | .midToleranceError => s.add (-5)
  | .highToleranceError => s.add (-1)

/-- Decay of the lighthouse score. Nothing happens while `lastUpdated` is in the
future. -/
def updateAt (s : RealScore F) (now : Instant) : RealScore F :=
  if s.lastUpdated ≤ now then
    let secsSinceUpdate := (now - s.lastUpdated) / 10 ^ 9
    { s with
      lighthouseScore := s.lighthouseScore * ScoreArith.decay secsSinceUpdate
      lastUpdated := now }.updateState
  else s

def updateGossipsubScore (s : RealScore F) (newScore : F) (ignore : Bool) (now : Instant) :
    RealScore F :=
  if s.lastUpdated ≤ now then
    { s with gossipsubScore := newScore, ignoreNegativeGossipsubScore := ignore }.updateState
  else s

def isGoodGossipsubPeer (s : RealScore F) : Bool := decide (0 ≤ s.gossipsubScore)

end RealScore

/-- A score, or the score of a peer inserted as trusted. -/
inductive Score (F : Type)
  | max
  | real (score : RealScore F)
  deriving DecidableEq

namespace Score

variable {F : Type} [ScoreArith F]

def defaultAt (now : Instant) : Score F := real (.defaultAt now)

/-- `max` scores infinity. -/
def score : Score F → WithTop F
  | max => ⊤
  | real s => s.score

def state (s : Score F) : ScoreState :=
  if s.score ≤ (minScoreBeforeBan : F) then .banned
  else if s.score ≤ (minScoreBeforeDisconnect : F) then .disconnected
  else .healthy

/-- The `apply!` macro: a method of the real score, without effect on `max`. -/
def mapReal (f : RealScore F → RealScore F) : Score F → Score F
  | max => max
  | real s => real (f s)

def applyPeerAction (s : Score F) (action : PeerAction) : Score F :=
  s.mapReal (·.applyPeerAction action)

def updateAt (s : Score F) (now : Instant) : Score F :=
  s.mapReal (·.updateAt now)

def updateGossipsubScore (s : Score F) (newScore : F) (ignore : Bool) (now : Instant) :
    Score F :=
  s.mapReal (·.updateGossipsubScore newScore ignore now)

def isGoodGossipsubPeer : Score F → Bool
  | max => true
  | real s => s.isGoodGossipsubPeer

end Score

end Consentry
