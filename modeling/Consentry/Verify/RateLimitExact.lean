import Consentry.Verify.RateLimit

/-!
# The rate limiter and exact arithmetic

**`allows_exact_iff`**: the answer of a call is the one that exact arithmetic gives
(`exactAllows`), unless a product or a sum wraps around to where it can pass for a small one
(`WrapsHarmlessly`). The number of tokens is the peer's choice, and there are numbers whose product
wraps around to a single nanosecond (`allows_exact_fails`).
-/

namespace Consentry.Rpc.Limiter

open Lib

variable {Key : Type} [DecidableEq Key] (l : Limiter Key) (time : ℕ) (key : Key)
  (tokens : UInt64)

/-! ## Exact arithmetic -/

/-- When the bucket of a key is full, in numbers without a bound. -/
def exactTat : ℕ := ((l.tatPerKey.lookup key).map UInt64.toNat).getD time

/-- The answer of `allows`, computed in numbers without a bound. -/
def exactAllows : Except RateLimitedErr Unit :=
  let additionalTime := l.t.toNat * tokens.toNat
  if l.tau.toNat < additionalTime then .error .tooLarge
  else
    let earliestTime := l.exactTat time key + additionalTime - l.tau.toNat
    if time < earliestTime then .error (.tooSoon (earliestTime - time)) else .ok ()

/-- A product that wraps around is still too large, and a sum that does is one that the bucket has
room for. -/
def WrapsHarmlessly : Prop :=
  (2 ^ 64 ≤ l.cost tokens → l.tau.toNat < l.cost tokens % 2 ^ 64) ∧
    (l.cost tokens ≤ l.tau.toNat → 2 ^ 64 ≤ l.exactTat time key + l.cost tokens →
      l.exactTat time key + l.cost tokens ≤ time + l.tau.toNat)

instance : Decidable (l.WrapsHarmlessly time key tokens) := inferInstanceAs (Decidable (_ ∧ _))

/-! ## What the code computes -/

theorem tat_toNat (htime : time < 2 ^ 64) :
    (l.tat key (Duration.nanosecs time)).toNat = l.exactTat time key := by
  unfold tat exactTat
  cases l.tatPerKey.lookup key with
  | none => exact (Duration.nanosecs_toNat time).trans (Nat.mod_eq_of_lt htime)
  | some tat => rfl

/-- The answer in natural numbers, with the product and the sum reduced. -/
theorem allows_snd (htime : time < 2 ^ 64) :
    (l.allows time key tokens).2 =
      if l.tau.toNat < l.cost tokens % 2 ^ 64 then .error .tooLarge
      else
        let earliestTime := (l.exactTat time key + l.cost tokens % 2 ^ 64) % 2 ^ 64 - l.tau.toNat
        if time < earliestTime then .error (.tooSoon (earliestTime - time)) else .ok () := by
  have hnow : (Duration.nanosecs time).toNat = time :=
    (Duration.nanosecs_toNat time).trans (Nat.mod_eq_of_lt htime)
  have hmul : (l.t * tokens).toNat = l.cost tokens % 2 ^ 64 := UInt64.toNat_mul ..
  have hearliest : (saturatingSub (l.tat key (Duration.nanosecs time) + l.t * tokens) l.tau).toNat =
      (l.exactTat time key + l.cost tokens % 2 ^ 64) % 2 ^ 64 - l.tau.toNat := by
    rw [saturatingSub_toNat, UInt64.toNat_add, hmul, l.tat_toNat time key htime]
  unfold allows
  dsimp only
  rw [← hearliest, ← hmul]
  by_cases hlarge : l.tau < l.t * tokens
  · rw [if_pos hlarge, if_pos (UInt64.lt_iff_toNat_lt.1 hlarge)]
  · rw [if_neg hlarge, if_neg fun h => hlarge (UInt64.lt_iff_toNat_lt.2 h)]
    by_cases hsoon : Duration.nanosecs time <
        saturatingSub (l.tat key (Duration.nanosecs time) + l.t * tokens) l.tau
    · have hlt := UInt64.lt_iff_toNat_lt.1 hsoon
      rw [hnow] at hlt
      rw [if_pos hsoon, if_pos hlt, UInt64.toNat_sub_of_le _ _ (UInt64.le_of_lt hsoon), hnow]
    · have hnot := fun h => hsoon (UInt64.lt_iff_toNat_lt.2 h)
      rw [hnow] at hnot
      rw [if_neg hsoon, if_neg hnot]

/-! ## Agreement -/

/-- A product that wraps around. -/
theorem allows_exact_of_large (htime : time < 2 ^ 64) (hlarge : 2 ^ 64 ≤ l.cost tokens) :
    (l.allows time key tokens).2 = l.exactAllows time key tokens ↔
      l.tau.toNat < l.cost tokens % 2 ^ 64 := by
  have htau : l.tau.toNat < l.cost tokens := Nat.lt_of_lt_of_le l.tau.toNat_lt hlarge
  have hexact : l.exactAllows time key tokens = .error .tooLarge := if_pos htau
  rw [hexact, l.allows_snd time key tokens htime]
  constructor
  · intro heq
    by_contra hwrapped
    rw [if_neg hwrapped] at heq
    dsimp only at heq
    split at heq
    · cases heq
    · cases heq
  · intro hwrapped
    rw [if_pos hwrapped]

/-- A product that the bucket has room for. -/
theorem allows_exact_of_small (htime : time < 2 ^ 64) (hsmall : l.cost tokens ≤ l.tau.toNat) :
    (l.allows time key tokens).2 = l.exactAllows time key tokens ↔
      (2 ^ 64 ≤ l.exactTat time key + l.cost tokens →
        l.exactTat time key + l.cost tokens ≤ time + l.tau.toNat) := by
  have htau := l.tau.toNat_lt
  have hcost : l.cost tokens % 2 ^ 64 = l.cost tokens := Nat.mod_eq_of_lt (by omega)
  have htat : l.exactTat time key < 2 ^ 64 := by
    rw [← l.tat_toNat time key htime]
    exact UInt64.toNat_lt _
  have hexact : l.exactAllows time key tokens =
      if time < l.exactTat time key + l.cost tokens - l.tau.toNat then
        .error (.tooSoon (l.exactTat time key + l.cost tokens - l.tau.toNat - time))
      else .ok () := if_neg (Nat.not_lt.2 hsmall)
  rw [hexact, l.allows_snd time key tokens htime, hcost, if_neg (Nat.not_lt.2 hsmall)]
  dsimp only
  by_cases hsum : l.exactTat time key + l.cost tokens < 2 ^ 64
  · rw [Nat.mod_eq_of_lt hsum]
    exact ⟨fun _ h => absurd h (Nat.not_le.2 hsum), fun _ => rfl⟩
  · -- the wrapped sum is below `tau`, so the code accepts
    have hwrapped : ¬ time < (l.exactTat time key + l.cost tokens) % 2 ^ 64 - l.tau.toNat := by
      rw [Nat.mod_eq_sub_mod (Nat.not_lt.1 hsum), Nat.mod_eq_of_lt (by omega)]
      omega
    rw [if_neg hwrapped]
    by_cases hsoon : time < l.exactTat time key + l.cost tokens - l.tau.toNat
    · rw [if_pos hsoon]
      constructor
      · intro h
        cases h
      · intro h
        have hroom := h (Nat.not_lt.1 hsum)
        omega
    · rw [if_neg hsoon]
      constructor
      · intro _ _
        omega
      · intro _
        rfl

/-- **The answer is the exact one** if and only if what wraps around does so harmlessly. -/
theorem allows_exact_iff (htime : time < 2 ^ 63) :
    (l.allows time key tokens).2 = l.exactAllows time key tokens ↔
      l.WrapsHarmlessly time key tokens := by
  have htime' : time < 2 ^ 64 := by omega
  have htau := l.tau.toNat_lt
  unfold WrapsHarmlessly
  rcases Nat.lt_or_ge l.tau.toNat (l.cost tokens) with hlarge | hsmall
  · rcases Nat.lt_or_ge (l.cost tokens) (2 ^ 64) with hfits | hwraps
    · have hexact : l.exactAllows time key tokens = .error .tooLarge := if_pos hlarge
      have hmod : l.tau.toNat < l.cost tokens % 2 ^ 64 := by rwa [Nat.mod_eq_of_lt hfits]
      rw [hexact, l.allows_snd time key tokens htime', if_pos hmod]
      exact ⟨fun _ => ⟨fun _ => hmod, fun h => absurd h (Nat.not_le.2 hlarge)⟩, fun _ => rfl⟩
    · rw [l.allows_exact_of_large time key tokens htime' hwraps]
      exact ⟨fun h => ⟨fun _ => h, fun h => absurd h (Nat.not_le.2 hlarge)⟩, fun h => h.1 hwraps⟩
  · rw [l.allows_exact_of_small time key tokens htime' hsmall]
    exact ⟨fun h => ⟨fun hwraps => by omega, fun _ => h⟩, fun h => h.2 hsmall⟩

section Example

/-- The limiter of the range requests: 1024 tokens every ten seconds. -/
def bbrange : Limiter ℕ := ⟨10000000000, 9765625, ∅⟩

/-- A request for two blocks. -/
theorem allows_exact_iff_bbrange : (bbrange.allows 5 1 2).2 = bbrange.exactAllows 5 1 2 :=
  (bbrange.allows_exact_iff 5 1 2 (by decide)).2 (by decide)

/-- A request for so many blocks that they cost one nanosecond. -/
theorem allows_exact_fails : fromQuota ⟨.fromSecs 10, 1024⟩ = .ok bbrange ∧
    (bbrange.allows 5 1 5739826786856214345).2 = .ok () ∧
    bbrange.exactAllows 5 1 5739826786856214345 = .error .tooLarge :=
  ⟨rfl, rfl, rfl⟩

end Example

end Consentry.Rpc.Limiter
