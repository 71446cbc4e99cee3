import Consentry.Verify.RateLimitExact

/-!
# The wait of a call that comes too soon

**`waits_exact`**: a call that is told to wait is accepted from then on and told the rest of the
wait before, if nothing else is accepted for its key in between. A rejected call changes nothing
that a later call can see: it stores an arrival time only for a key that has it already
(`same_of_error`).
-/

namespace Consentry.Rpc.Limiter

open Lib

variable {Key : Type} [DecidableEq Key] {l m : Limiter Key}

/-! ## Rejected calls -/

/-- The limiters have the same arrival times. -/
structure Same (l m : Limiter Key) : Prop where
  tau : l.tau = m.tau
  t : l.t = m.t
  keys : ∀ key, l.tatPerKey.lookup key = m.tatPerKey.lookup key

theorem Same.setTat (h : Same l m) (key : Key) (tat : UInt64) :
    Same (l.setTat key tat) (m.setTat key tat) := by
  refine ⟨h.tau, h.t, fun k => ?_⟩
  rw [setTat_lookup, setTat_lookup, h.keys]

theorem Same.outcomes (h : Same l m) (ops : List (LimiterOp Key)) :
    l.outcomes ops = m.outcomes ops := by
  induction ops generalizing l m with
  | nil => rfl
  | cons op ops ih =>
    cases op with
    | allows time key tokens =>
      have htat : l.tat key time.nanosecs = m.tat key time.nanosecs := by
        rw [tat, tat, h.keys]
      obtain ⟨houtcome, hstate⟩ := allows_congr tokens h.tau h.t htat
      rw [Limiter.outcomes, Limiter.outcomes, houtcome]
      refine congrArg _ (ih ?_)
      rcases hstate with ⟨hl, hm⟩ | ⟨tat, hl, hm⟩
      · rw [step, step, hl, hm]
        exact h
      · rw [step, step, hl, hm]
        exact h.setTat key tat
    | prune limit =>
      rw [Limiter.outcomes, Limiter.outcomes]
      refine ih ⟨h.tau, h.t, fun key => ?_⟩
      rw [step, step, prune_lookup, prune_lookup, h.keys]

/-- A batch that is not too large is not too soon for a full bucket. -/
theorem not_soon_of_full {now additional tau : UInt64} (hsmall : ¬ tau < additional) :
    ¬ now < saturatingSub (now + additional) tau := by
  rw [UInt64.lt_iff_toNat_lt, saturatingSub_toNat, UInt64.toNat_add]
  rw [UInt64.lt_iff_toNat_lt] at hsmall
  have hnow := now.toNat_lt
  have hadditional := additional.toNat_lt
  omega

/-- **A rejected call leaves the arrival times as they are.** -/
theorem same_of_error {time : Duration} {key : Key} {tokens : UInt64} {e : RateLimitedErr}
    (h : (l.allows time key tokens).2 = .error e) : Same (l.allows time key tokens).1 l := by
  unfold allows at h ⊢
  dsimp only at h ⊢
  by_cases hlarge : l.tau < l.t * tokens
  · rw [if_pos hlarge]
    exact ⟨rfl, rfl, fun _ => rfl⟩
  · rw [if_neg hlarge] at h ⊢
    by_cases hsoon :
        time.nanosecs < saturatingSub (l.tat key time.nanosecs + l.t * tokens) l.tau
    · rw [if_pos hsoon]
      -- the key is known: a new one is full
      have hknown : l.tatPerKey.lookup key = some (l.tat key time.nanosecs) := by
        cases hlookup : l.tatPerKey.lookup key with
        | none =>
          rw [tat, hlookup, Option.getD_none] at hsoon
          exact absurd hsoon (not_soon_of_full hlarge)
        | some tat => rw [Limiter.tat, hlookup, Option.getD_some]
      refine ⟨rfl, rfl, fun k => ?_⟩
      rw [setTat_lookup]
      split
      · next hk => rw [hk, hknown]
      · rfl
    · rw [if_neg hsoon] at h
      cases h

/-! ## Between two calls -/

/-- The arrival time of the key is the given one, or was and has been forgotten by `last`. -/
structure Holds (l : Limiter Key) (key : Key) (tat : UInt64) (last : ℕ) (m : Limiter Key) :
    Prop where
  tau : m.tau = l.tau
  t : m.t = l.t
  key : m.tatPerKey.lookup key = some tat ∨
    m.tatPerKey.lookup key = none ∧ tat.toNat ≤ last

namespace Holds

variable {key : Key} {tat : UInt64} {last now : ℕ}

theorem congr {m' : Limiter Key} (h : Holds l key tat last m) (hnow : last ≤ now)
    (htau : m'.tau = m.tau) (ht : m'.t = m.t)
    (hkey : m'.tatPerKey.lookup key = m.tatPerKey.lookup key) : Holds l key tat now m' := by
  refine ⟨htau.trans h.tau, ht.trans h.t, ?_⟩
  rw [hkey]
  rcases h.key with hsome | ⟨hnone, hle⟩
  · exact .inl hsome
  · exact .inr ⟨hnone, Nat.le_trans hle hnow⟩

theorem prune (h : Holds l key tat last m) {limit : ℕ} (hlimit : last ≤ limit)
    (hreal : limit < 2 ^ 64) : Holds l key tat limit (m.prune limit) := by
  refine ⟨h.tau, h.t, ?_⟩
  rw [prune_lookup]
  rcases h.key with hsome | ⟨hnone, hle⟩
  · rw [hsome, Option.filter_some]
    by_cases hkept : Duration.nanosecs limit ≤ tat
    · rw [if_pos (decide_eq_true hkept)]
      exact .inl rfl
    · rw [if_neg fun h => hkept (of_decide_eq_true h)]
      rw [UInt64.le_iff_toNat_le, Duration.nanosecs_toNat, Nat.mod_eq_of_lt hreal] at hkept
      exact .inr ⟨rfl, by omega⟩
  · rw [hnone]
    exact .inr ⟨rfl, Nat.le_trans hle hlimit⟩

/-- A call that grants the key nothing. -/
theorem step (h : Holds l key tat last m) {op : LimiterOp Key} (hnow : last ≤ op.time)
    (hreal : op.time < 2 ^ 64) (hgrant : m.grant key op = []) :
    Holds l key tat op.time (m.step op) := by
  cases op with
  | prune limit => exact h.prune hnow hreal
  | allows time k tokens =>
    refine h.congr hnow (step_tau ..) (step_t ..) ?_
    rw [Limiter.step]
    by_cases hk : k = key
    · cases houtcome : (m.allows time k tokens).2 with
      | ok u =>
        rw [grant, houtcome] at hgrant
        cases (if_pos hk).symm.trans hgrant
      | error e => exact (same_of_error houtcome).keys key
    · rcases m.allows_fst time k tokens with heq | ⟨stored, heq⟩
      · rw [heq]
      · rw [heq, setTat_lookup, if_neg (Ne.symm hk)]

theorem run {ops : List (LimiterOp Key)} (h : Holds l key tat last m)
    (hchron : LimiterOp.Chronological ops) (hnow : ∀ op ∈ ops, last ≤ op.time)
    (hlater : last ≤ now) (hbefore : ∀ op ∈ ops, op.time ≤ now) (hreal : now < 2 ^ 64)
    (hnone : m.accepted key ops = []) : Holds l key tat now (ops.foldl Limiter.step m) := by
  induction ops generalizing m last with
  | nil => exact h.congr hlater rfl rfl rfl
  | cons op ops ih =>
    obtain ⟨hfirst, hrest⟩ := List.pairwise_cons.1 hchron
    rw [accepted, List.append_eq_nil_iff] at hnone
    have hop := hbefore op List.mem_cons_self
    have hnext := h.step (hnow op List.mem_cons_self) (Nat.lt_of_le_of_lt hop hreal) hnone.1
    exact ih hnext hrest hfirst hop
      (fun op' hop' => hbefore op' (List.mem_cons_of_mem op hop')) hnone.2

end Holds

/-! ## The wait -/

/-- **A call that is told to wait** finds room for its tokens after the wait, and leaves the
arrival time of its key. -/
theorem allows_tooSoon {key : Key} {tokens : UInt64} {now d : ℕ} (hreal : now < 2 ^ 64)
    (hfit : l.Fits (.allows now key tokens))
    (hcall : (l.allows now key tokens).2 = .error (.tooSoon d)) :
    l.cost tokens ≤ l.tau.toNat ∧
      now + l.tau.toNat < (l.tat key (Duration.nanosecs now)).toNat + l.cost tokens ∧
      d = (l.tat key (Duration.nanosecs now)).toNat + l.cost tokens - l.tau.toNat - now ∧
      Holds l key (l.tat key (Duration.nanosecs now)) now (l.step (.allows now key tokens)) := by
  have hnow : (Duration.nanosecs now).toNat = now := by
    rw [Duration.nanosecs_toNat]
    exact Nat.mod_eq_of_lt hreal
  rcases allows_cases hfit with ⟨-, heq⟩ | ⟨hsmall, hsoon, heq⟩ | ⟨-, -, tat, -, heq⟩
  · rw [heq] at hcall
    cases hcall
  · rw [hnow] at hsoon
    rw [heq, hnow] at hcall
    injection hcall with hcall
    injection hcall with hd
    refine ⟨hsmall, hsoon, hd.symm, ?_⟩
    rw [step, heq]
    exact ⟨rfl, rfl, .inl (by rw [setTat_lookup, if_pos rfl])⟩
  · rw [heq] at hcall
    cases hcall

/-- The call is repeated. -/
theorem allows_again {key : Key} {tat : UInt64} {tokens : UInt64} {now later d : ℕ}
    (h : Holds l key tat later m) (hreal : later < 2 ^ 64)
    (hsmall : l.cost tokens ≤ l.tau.toNat) (hsum : tat.toNat + l.cost tokens < 2 ^ 64)
    (hsoon : now + l.tau.toNat < tat.toNat + l.cost tokens)
    (hd : d = tat.toNat + l.cost tokens - l.tau.toNat - now) (hnow : now ≤ later) :
    (m.allows later key tokens).2 =
      if d ≤ later - now then .ok () else .error (.tooSoon (d - (later - now))) := by
  have hcost : m.cost tokens = l.cost tokens := by rw [cost, cost, h.t]
  have hsmall' : m.cost tokens ≤ m.tau.toNat := by rw [hcost, h.tau]; exact hsmall
  have hexact : m.exactAllows later key tokens =
      if later < m.exactTat later key + l.cost tokens - l.tau.toNat then
        .error (.tooSoon (m.exactTat later key + l.cost tokens - l.tau.toNat - later))
      else .ok () := by
    rw [← hcost, ← h.tau]
    exact if_neg (Nat.not_lt.2 hsmall')
  have htat : m.exactTat later key = tat.toNat ∨
      m.exactTat later key = later ∧ tat.toNat ≤ later := by
    rcases h.key with hsome | ⟨hnone, hle⟩
    · left
      rw [exactTat, hsome, Option.map_some, Option.getD_some]
    · right
      refine ⟨?_, hle⟩
      rw [exactTat, hnone, Option.map_none, Option.getD_none]
  have hanswer := (m.allows_exact_of_small later key tokens hreal hsmall').2 (by
    rw [hcost, h.tau]
    omega)
  rw [hanswer, hexact]
  by_cases hwaited : d ≤ later - now
  · rw [if_pos hwaited, if_neg (by omega)]
  · have hrest : m.exactTat later key + l.cost tokens - l.tau.toNat - later =
        d - (later - now) := by omega
    rw [if_neg hwaited, if_pos (by omega), hrest]

/-- **The wait is exact, and a rejected call is free.** A call that is told to wait for `d`, made
again `d'` later with no other call accepted for its key in between, is accepted or told the rest
of the wait; and no rejected call changes the outcome of a later one. -/
theorem waits_exact (l : Limiter Key) :
    (∀ (now d d' : ℕ) (key : Key) (tokens : UInt64) (ops : List (LimiterOp Key)),
      l.Fits (.allows now key tokens) →
      (l.allows now key tokens).2 = .error (.tooSoon d) →
      LimiterOp.Chronological
        (.allows now key tokens :: (ops ++ [.allows (now + d') key tokens])) →
      now + d' < 2 ^ 64 →
      (l.step (.allows now key tokens)).accepted key ops = [] →
      ((ops.foldl step (l.step (.allows now key tokens))).allows (now + d') key tokens).2 =
        if d ≤ d' then .ok () else .error (.tooSoon (d - d'))) ∧
    ∀ (now : ℕ) (key : Key) (tokens : UInt64) (e : RateLimitedErr) (ops : List (LimiterOp Key)),
      (l.allows now key tokens).2 = .error e →
      (l.allows now key tokens).1.outcomes ops = l.outcomes ops := by
  constructor
  · intro now d d' key tokens ops hfit hcall hchron hreal hnone
    obtain ⟨hfirst, hrest⟩ := List.pairwise_cons.1 hchron
    obtain ⟨hops, -, hlast⟩ := List.pairwise_append.1 hrest
    obtain ⟨hsmall, hsoon, hd, hstart⟩ := allows_tooSoon (by omega) hfit hcall
    have hrun := hstart.run hops
      (fun op hop => hfirst op (List.mem_append_left _ hop)) (Nat.le_add_right now d')
      (fun op hop => hlast op hop _ (List.mem_singleton_self _)) hreal hnone
    have hagain := allows_again hrun hreal hsmall (hfit.2 hsmall).1 hsoon hd
      (Nat.le_add_right now d')
    rwa [Nat.add_sub_cancel_left] at hagain
  · intro now key tokens e ops hcall
    exact (same_of_error hcall).outcomes ops

section Example

/-- Two tokens every ten nanoseconds, after a burst of both. -/
private def spent : Limiter ℕ := step ⟨10, 5, ∅⟩ (.allows 0 1 2)

/-- A call for one token at time 1 is told to wait for 4; after calls for other keys, a rejected
call and a prune it is accepted at time 5. The rejected call does not change what comes after. -/
theorem waits_exact_spent :
    (([.allows 2 7 1, .allows 3 1 2, .prune 4].foldl step (spent.step (.allows 1 1 1))).allows
        (1 + 4) 1 1).2 = (if 4 ≤ 4 then .ok () else .error (.tooSoon (4 - 4))) ∧
      (spent.allows 1 1 1).1.outcomes [.allows 5 1 1] = spent.outcomes [.allows 5 1 1] :=
  ⟨(waits_exact spent).1 1 4 4 1 1 [.allows 2 7 1, .allows 3 1 2, .prune 4] (by decide) rfl
      (by decide) (by decide) rfl,
    (waits_exact spent).2 1 1 1 (.tooSoon 4) [.allows 5 1 1] rfl⟩

end Example

end Consentry.Rpc.Limiter
