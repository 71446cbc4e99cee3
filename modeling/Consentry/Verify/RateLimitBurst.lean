import Consentry.Verify.RateLimit

/-!
# The size of a burst

**`configuredBurst_iff`**: a limiter accepts bursts of exactly the tokens of its quota if and only
if what is left of the replenish time after `max_tokens` periods is less than one more period. The
period is rounded down, so that more tokens than the quota's can fit into the replenish time
(`configuredBurst_fails`); every one fits when it is rounded down to zero.
-/

namespace Consentry.Rpc.Limiter

open Lib

variable {Key : Type} [DecidableEq Key] {l : Limiter Key}

/-- The bucket of the key is full: the key is new, or fully replenished. -/
def Full (l : Limiter Key) (time : Duration) (key : Key) : Prop :=
  l.tat key time.nanosecs ≤ time.nanosecs

instance (l : Limiter Key) (time : Duration) (key : Key) : Decidable (l.Full time key) :=
  inferInstanceAs (Decidable (_ ≤ _))

/-- A request is accepted if it is for no more tokens than the quota has, and of requests for
single tokens, all at one time, as many are accepted as the quota has tokens. -/
def ConfiguredBurst (quota : Quota) (l : Limiter Key) (time : Duration) (key : Key) : Prop :=
  (∀ tokens, l.Fits (.allows time key tokens) →
    ((l.allows time key tokens).2 = .ok () ↔ tokens ≤ quota.maxTokens)) ∧
  ∀ count, Along step Fits l (.replicate count (.allows time key 1)) →
    (l.accepted key (.replicate count (.allows time key 1))).length =
      min count quota.maxTokens.toNat

/-! ## One request -/

/-- **A full bucket accepts what can be replenished in time.** -/
theorem allows_of_full {time : Duration} {key : Key} {tokens : UInt64} (hfull : l.Full time key)
    (hfit : l.Fits (.allows time key tokens)) :
    (l.allows time key tokens).2 = .ok () ↔ l.cost tokens ≤ l.tau.toNat := by
  have hle : (l.tat key time.nanosecs).toNat ≤ time.nanosecs.toNat := hfull
  rcases allows_cases hfit with ⟨hlarge, hcall⟩ | ⟨hsmall, hsoon, -⟩ | ⟨hsmall, -, tat, -, hcall⟩
  · rw [hcall]
    constructor
    · intro h
      cases h
    · intro hsmall
      omega
  · omega
  · rw [hcall]
    exact ⟨fun _ => hsmall, fun _ => rfl⟩

/-! ## Requests for single tokens -/

/-- After `used` tokens were taken at this time from a full bucket. -/
structure Used (l : Limiter Key) (time : Duration) (key : Key) (used : ℕ) : Prop where
  room : used * l.t.toNat ≤ l.tau.toNat
  tat : max time.nanosecs.toNat (l.tat key time.nanosecs).toNat =
    time.nanosecs.toNat + used * l.t.toNat

omit [DecidableEq Key] in
theorem cost_one (l : Limiter Key) : l.cost 1 = l.t.toNat :=
  Nat.mul_one l.t.toNat

theorem tat_setTat (l : Limiter Key) (key : Key) (tat now : UInt64) :
    (l.setTat key tat).tat key now = tat := by
  rw [Limiter.tat, setTat_lookup, if_pos rfl, Option.getD_some]

theorem used_zero {time : Duration} {key : Key} (hfull : l.Full time key) :
    l.Used time key 0 := by
  have hle : (l.tat key time.nanosecs).toNat ≤ time.nanosecs.toNat := hfull
  exact ⟨by rw [Nat.zero_mul]; exact Nat.zero_le _, by rw [Nat.zero_mul]; omega⟩

/-- **One more token** is granted exactly if there is room for it. -/
theorem Used.step {time : Duration} {key : Key} {used : ℕ} (h : l.Used time key used)
    (hfit : l.Fits (.allows time key 1)) (ht : l.t.toNat ≤ l.tau.toNat) :
    ((used + 1) * l.t.toNat ≤ l.tau.toNat ∧ l.grant key (.allows time key 1) = [(time, 1)] ∧
      (l.step (.allows time key 1)).Used time key (used + 1)) ∨
    (l.tau.toNat < (used + 1) * l.t.toNat ∧ l.grant key (.allows time key 1) = [] ∧
      (l.step (.allows time key 1)).Used time key used) := by
  have hsucc : (used + 1) * l.t.toNat = used * l.t.toNat + l.t.toNat := Nat.succ_mul ..
  have hroom := h.room
  have htat := h.tat
  rcases allows_cases hfit with
    ⟨hlarge, -⟩ | ⟨-, hsoon, hcall⟩ | ⟨-, hready, tat, hset, hcall⟩
  · rw [cost_one] at hlarge
    omega
  · right
    rw [cost_one] at hsoon
    refine ⟨by omega, by rw [grant, hcall], ?_⟩
    rw [Limiter.step, hcall]
    refine ⟨hroom, ?_⟩
    rw [tat_setTat]
    exact htat
  · left
    rw [cost_one] at hready hset
    have hmore : (used + 1) * l.t.toNat ≤ l.tau.toNat := by omega
    refine ⟨hmore, ?_, ?_⟩
    · rw [grant, hcall]
      exact if_pos rfl
    · rw [Limiter.step, hcall]
      refine ⟨hmore, ?_⟩
      rw [tat_setTat, hset]
      change max _ _ = _ + (used + 1) * l.t.toNat
      omega

/-- Of the requests that follow, those are accepted for which there is room. -/
theorem Used.accepted {time : Duration} {key : Key} {used count room : ℕ}
    (h : l.Used time key used) (ht : l.t.toNat ≤ l.tau.toNat) (hle : used ≤ room)
    (hfit : Along Limiter.step Fits l (.replicate count (.allows time key 1)))
    (hroom : ∀ j ≤ used + count, j * l.t.toNat ≤ l.tau.toNat ↔ j ≤ room) :
    (l.accepted key (.replicate count (.allows time key 1))).length = min count (room - used) := by
  induction count generalizing l used with
  | zero => exact (Nat.zero_min _).symm
  | succ count ih =>
    rw [List.replicate_succ] at hfit ⊢
    rw [Limiter.accepted, List.length_append]
    have ht' : (l.step (.allows time key 1)).t.toNat ≤
        (l.step (.allows time key 1)).tau.toNat := by rwa [step_t, step_tau]
    rcases h.step hfit.1 ht with ⟨hmore, hgrant, hnext⟩ | ⟨hless, hgrant, hnext⟩
    · have hused : used + 1 ≤ room := (hroom (used + 1) (by omega)).1 hmore
      rw [hgrant, ih hnext ht' hused hfit.2 fun j hj => by
        rw [step_t, step_tau]
        exact hroom j (by omega)]
      simp only [List.length_singleton]
      omega
    · have hfull : ¬ used + 1 ≤ room := fun hused =>
        absurd ((hroom (used + 1) (by omega)).2 hused) (Nat.not_le.2 hless)
      rw [hgrant, ih hnext ht' hle hfit.2 fun j hj => by
        rw [step_t, step_tau]
        exact hroom j (by omega)]
      simp only [List.length_nil]
      omega

/-! ## The quota -/

/-- The tokens of the quota fit into the replenish time, and one more does not. -/
theorem mul_le_iff_of_mod_lt {time tokens : ℕ} (h : time % tokens < time / tokens) (n : ℕ) :
    n * (time / tokens) ≤ time ↔ n ≤ tokens := by
  have hdiv : tokens * (time / tokens) + time % tokens = time := Nat.div_add_mod time tokens
  constructor
  · intro hn
    by_contra hmore
    have hsucc : (tokens + 1) * (time / tokens) ≤ n * (time / tokens) :=
      Nat.mul_le_mul_right _ (by omega)
    rw [Nat.succ_mul] at hsucc
    omega
  · intro hn
    have hle : n * (time / tokens) ≤ tokens * (time / tokens) := Nat.mul_le_mul_right _ hn
    omega

omit [DecidableEq Key] in
/-- What an accepted quota gives. -/
theorem fromQuota_ok {quota : Quota} (h : fromQuota quota = .ok l) :
    l.tau.toNat = quota.replenishAllEvery ∧
      l.t.toNat = quota.replenishAllEvery / quota.maxTokens.toNat ∧ l.tatPerKey = ∅ := by
  unfold fromQuota at h
  by_cases hmax : quota.maxTokens = 0
  · rw [if_pos hmax] at h
    cases h
  · rw [if_neg hmax] at h
    by_cases hreplenish : quota.replenishAllEvery = 0
    · rw [if_pos hreplenish] at h
      cases h
    · rw [if_neg hreplenish] at h
      unfold tryNanosecs at h
      by_cases ht : quota.replenishAllEvery / quota.maxTokens.toNat < 2 ^ 64
      · rw [if_pos ht] at h
        by_cases htau : quota.replenishAllEvery < 2 ^ 64
        · rw [if_pos htau] at h
          cases h
          exact ⟨UInt64.toNat_ofNat_of_lt' htau, UInt64.toNat_ofNat_of_lt' ht, rfl⟩
        · rw [if_neg htau] at h
          cases h
      · rw [if_neg ht] at h
        cases h

/-- At the time of the start nothing overflows as long as there is room. -/
theorem Used.fits {key : Key} {used count : ℕ} (h : l.Used 0 key used)
    (ht : l.t.toNat ≤ l.tau.toNat) (hroom : (used + count) * l.t.toNat ≤ l.tau.toNat) :
    Along Limiter.step Fits l (.replicate count (.allows 0 key 1)) := by
  induction count generalizing l used with
  | zero => trivial
  | succ count ih =>
    have htau := l.tau.toNat_lt
    have htat := h.tat
    have hone : (used + 1) * l.t.toNat ≤ l.tau.toNat :=
      Nat.le_trans (Nat.mul_le_mul_right _ (by omega)) hroom
    have hsucc : (used + 1) * l.t.toNat = used * l.t.toNat + l.t.toNat := Nat.succ_mul ..
    have hzero : (Duration.nanosecs 0).toNat = 0 := rfl
    rw [hzero] at htat
    have hfit : l.Fits (.allows 0 key 1) := by
      refine ⟨?_, fun _ => ⟨?_, fun _ => ?_⟩⟩
      · rw [cost_one]
        omega
      · rw [cost_one]
        omega
      · rw [cost_one, hzero]
        omega
    rw [List.replicate_succ]
    refine ⟨hfit, ?_⟩
    rcases h.step hfit ht with ⟨-, -, hnext⟩ | ⟨hless, -, -⟩
    · refine ih hnext (by rwa [step_t, step_tau]) ?_
      rw [step_t, step_tau, Nat.add_assoc, Nat.add_comm 1 count]
      exact hroom
    · omega

/-- As many tokens as there is room for are granted at the time of the start. -/
theorem Used.accepted_of_room {key : Key} {count : ℕ} (h : l.Used 0 key 0)
    (ht : l.t.toNat ≤ l.tau.toNat) (hroom : count * l.t.toNat ≤ l.tau.toNat) :
    Along Limiter.step Fits l (.replicate count (.allows 0 key 1)) ∧
      (l.accepted key (.replicate count (.allows 0 key 1))).length = count := by
  have hfits : Along Limiter.step Fits l (.replicate count (.allows 0 key 1)) :=
    h.fits ht (by rwa [Nat.zero_add])
  have hall : ∀ j ≤ 0 + count, j * l.t.toNat ≤ l.tau.toNat ↔ j ≤ count := by
    intro j hj
    have hle : j * l.t.toNat ≤ count * l.t.toNat := Nat.mul_le_mul_right _ (by omega)
    exact ⟨fun _ => by omega, fun _ => Nat.le_trans hle hroom⟩
  refine ⟨hfits, ?_⟩
  rw [h.accepted ht (Nat.zero_le count) hfits hall, Nat.sub_zero, Nat.min_self]

/-- **The burst is the configured one**, of every state of the limiter, if and only if the quota
leaves less than one period. -/
theorem configuredBurst_iff {quota : Quota} {l₀ : Limiter Key} (h : fromQuota quota = .ok l₀)
    (key : Key) :
    (∀ (l : Limiter Key) (time : Duration), l.tau = l₀.tau → l.t = l₀.t → l.Full time key →
      l.ConfiguredBurst quota time key) ↔
    quota.replenishAllEvery % quota.maxTokens.toNat <
      quota.replenishAllEvery / quota.maxTokens.toNat := by
  obtain ⟨htau, ht, hkeys⟩ := fromQuota_ok h
  have hle : l₀.t.toNat ≤ l₀.tau.toNat := by
    rw [htau, ht]
    exact Nat.div_le_self ..
  constructor
  · intro hburst
    by_contra hnot
    -- one more token than the quota has fits into the replenish time
    have hmore : (quota.maxTokens.toNat + 1) * l₀.t.toNat ≤ l₀.tau.toNat := by
      rw [htau, ht, Nat.succ_mul]
      have hdiv := Nat.div_add_mod quota.replenishAllEvery quota.maxTokens.toNat
      have hleft := Nat.not_lt.1 hnot
      omega
    have hfull : l₀.Full 0 key := by
      unfold Full tat
      rw [hkeys]
      exact UInt64.le_refl _
    have hused : l₀.Used 0 key 0 := used_zero hfull
    obtain ⟨hfits, haccepted⟩ := hused.accepted_of_room hle hmore
    have hquota := (hburst l₀ 0 rfl rfl hfull).2 _ hfits
    omega
  · intro hmod l time hltau hlt hfull
    have hroom : ∀ n, n * l.t.toNat ≤ l.tau.toNat ↔ n ≤ quota.maxTokens.toNat := by
      intro n
      rw [hltau, hlt, htau, ht]
      exact mul_le_iff_of_mod_lt hmod n
    constructor
    · intro tokens hfit
      rw [allows_of_full hfull hfit, cost, Nat.mul_comm, hroom]
      exact UInt64.le_iff_toNat_le.symm
    · intro count hfits
      exact (used_zero hfull).accepted (by rwa [hltau, hlt]) (Nat.zero_le _) hfits
        fun j _ => hroom j

section Example

/-- Four tokens every ten nanoseconds: the period is two, and not two and a half. -/
private def fourTokens : Limiter ℕ := ⟨10, 2, ∅⟩

theorem configuredBurst_fails :
    fromQuota ⟨10, 4⟩ = .ok fourTokens ∧ ¬ fourTokens.ConfiguredBurst ⟨10, 4⟩ 0 1 := by
  refine ⟨rfl, fun h => ?_⟩
  have hle := (h.1 5 (by decide)).1 rfl
  revert hle
  decide

/-- With three tokens every ten nanoseconds nothing more fits. -/
theorem configuredBurst_three : (⟨10, 3, ∅⟩ : Limiter ℕ).ConfiguredBurst ⟨10, 3⟩ 0 1 := by
  have hquota : fromQuota ⟨10, 3⟩ = .ok (⟨10, 3, ∅⟩ : Limiter ℕ) := rfl
  exact (configuredBurst_iff hquota 1).2 (by decide) _ 0 rfl rfl (by decide)

end Example

end Consentry.Rpc.Limiter
