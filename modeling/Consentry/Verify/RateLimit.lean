import Consentry.Lib.Meter
import Consentry.Lib.Run
import Consentry.Rpc.RateLimiter

/-!
# The rate limiter keeps its quota

A limiter is followed through a sequence of calls (`LimiterOp`). **`Limiter.allows_cases`**
reads a call in natural numbers, when none of its sums and products overflows (`Fits`).

The arrival time of a key is that of a meter, measured in real time: **`window_bound`**
bounds the tokens accepted in any window. Forgetting a key whose bucket is full changes
nothing that can be seen: **`prune_invisible`**.
-/

namespace Consentry.Rpc

open Lib

/-- A call of a limiter, with the time since its start. -/
inductive LimiterOp (Key : Type)
  | allows (timeSinceStart : Duration) (key : Key) (tokens : UInt64)
  | prune (timeLimit : Duration)
  deriving DecidableEq

namespace LimiterOp

variable {Key : Type}

def time : LimiterOp Key → Duration
  | allows timeSinceStart _ _ => timeSinceStart
  | prune timeLimit => timeLimit

def isAllows : LimiterOp Key → Bool
  | allows _ _ _ => true
  | prune _ => false

/-- The calls come in the order of their times. -/
def Chronological (ops : List (LimiterOp Key)) : Prop :=
  ops.Pairwise fun op op' => op.time ≤ op'.time

instance (ops : List (LimiterOp Key)) : Decidable (Chronological ops) :=
  inferInstanceAs (Decidable (List.Pairwise _ _))

end LimiterOp

/-- The part of a duration that `nanosecs` drops. -/
def Duration.epoch (d : Duration) : ℕ := 2 ^ 64 * (d / 2 ^ 64)

theorem Duration.nanosecs_toNat (d : Duration) : d.nanosecs.toNat = d % 2 ^ 64 :=
  UInt64.toNat_ofNat' ..

theorem Duration.nanosecs_add_epoch (d : Duration) : d.nanosecs.toNat + d.epoch = d := by
  rw [nanosecs_toNat]
  exact Nat.mod_add_div d (2 ^ 64)

theorem Duration.epoch_mono {d d' : Duration} (h : d ≤ d') : d.epoch ≤ d'.epoch :=
  Nat.mul_le_mul_left _ (Nat.div_le_div_right h)

theorem UInt64.toNat_max (a b : UInt64) : (max a b).toNat = max a.toNat b.toNat := by
  change (if a ≤ b then b else a).toNat = _
  split
  · next h =>
    have hle : a.toNat ≤ b.toNat := h
    omega
  · next h =>
    have hlt : ¬ a.toNat ≤ b.toNat := h
    omega

theorem saturatingSub_toNat (a b : UInt64) : (saturatingSub a b).toNat = a.toNat - b.toNat := by
  unfold saturatingSub
  split
  · next h => exact UInt64.toNat_sub_of_le a b h
  · next h =>
    have hlt : ¬ b.toNat ≤ a.toNat := h
    change 0 = _
    omega

namespace Limiter

variable {Key : Type} [DecidableEq Key] {l : Limiter Key}

def step (l : Limiter Key) : LimiterOp Key → Limiter Key
  | .allows timeSinceStart key tokens => (l.allows timeSinceStart key tokens).1
  | .prune timeLimit => l.prune timeLimit

/-! ## Calls in natural numbers -/

/-- The time in which the tokens are replenished. -/
def cost (l : Limiter Key) (tokens : UInt64) : ℕ := l.t.toNat * tokens.toNat

/-- None of the sums and products that the call computes overflows. -/
def Fits (l : Limiter Key) : LimiterOp Key → Prop
  | .allows timeSinceStart key tokens =>
    let now := timeSinceStart.nanosecs
    l.cost tokens < 2 ^ 64 ∧ (l.cost tokens ≤ l.tau.toNat →
      (l.tat key now).toNat + l.cost tokens < 2 ^ 64 ∧
        ((l.tat key now).toNat + l.cost tokens ≤ now.toNat + l.tau.toNat →
          max now.toNat (l.tat key now).toNat + l.cost tokens < 2 ^ 64))
  | .prune _ => True

instance (l : Limiter Key) : ∀ op, Decidable (l.Fits op)
  | .allows _ _ _ => inferInstanceAs (Decidable (_ ∧ (_ → _ ∧ (_ → _))))
  | .prune _ => isTrue trivial

section

variable {time : Duration} {key : Key} {tokens : UInt64}

/-- **What a call of `allows` can do**, in natural numbers. -/
theorem allows_cases (hfit : l.Fits (.allows time key tokens)) :
    (l.tau.toNat < l.cost tokens ∧ l.allows time key tokens = (l, .error .tooLarge)) ∨
    (l.cost tokens ≤ l.tau.toNat ∧
      time.nanosecs.toNat + l.tau.toNat < (l.tat key time.nanosecs).toNat + l.cost tokens ∧
      l.allows time key tokens = (l.setTat key (l.tat key time.nanosecs),
        .error (.tooSoon ((l.tat key time.nanosecs).toNat + l.cost tokens - l.tau.toNat -
          time.nanosecs.toNat)))) ∨
    (l.cost tokens ≤ l.tau.toNat ∧
      (l.tat key time.nanosecs).toNat + l.cost tokens ≤ time.nanosecs.toNat + l.tau.toNat ∧
      ∃ tat : UInt64,
        tat.toNat = max time.nanosecs.toNat (l.tat key time.nanosecs).toNat + l.cost tokens ∧
        l.allows time key tokens = (l.setTat key tat, .ok ())) := by
  obtain ⟨hcost, hsums⟩ := hfit
  have hmul : (l.t * tokens).toNat = l.cost tokens := by
    rw [UInt64.toNat_mul]
    exact Nat.mod_eq_of_lt hcost
  unfold allows
  generalize l.cost tokens = cost at hcost hsums hmul ⊢
  simp only
  generalize l.t * tokens = additional at hmul ⊢
  generalize time.nanosecs = now at hsums ⊢
  generalize l.tat key now = tat at hsums ⊢
  by_cases hlarge : l.tau < additional
  · rw [if_pos hlarge]
    have hlt : l.tau.toNat < additional.toNat := hlarge
    exact .inl ⟨hmul ▸ hlt, rfl⟩
  · rw [if_neg hlarge]
    have hle : cost ≤ l.tau.toNat := by
      have hnot : ¬ l.tau.toNat < additional.toNat := hlarge
      omega
    obtain ⟨hsum, hmax⟩ := hsums hle
    have hadd : (tat + additional).toNat = tat.toNat + cost := by
      rw [UInt64.toNat_add, hmul, Nat.mod_eq_of_lt hsum]
    have hearliest : (saturatingSub (tat + additional) l.tau).toNat =
        tat.toNat + cost - l.tau.toNat := by
      rw [saturatingSub_toNat, hadd]
    by_cases hsoon : now < saturatingSub (tat + additional) l.tau
    · rw [if_pos hsoon]
      have hlt : now.toNat < (saturatingSub (tat + additional) l.tau).toNat := hsoon
      right
      left
      refine ⟨hle, by omega, ?_⟩
      rw [UInt64.toNat_sub_of_le _ _ (UInt64.le_of_lt hsoon), hearliest]
    · rw [if_neg hsoon]
      have hnot : ¬ now.toNat < (saturatingSub (tat + additional) l.tau).toNat := hsoon
      have hready : tat.toNat + cost ≤ now.toNat + l.tau.toNat := by omega
      right
      right
      refine ⟨hle, hready, max now tat + additional, ?_, rfl⟩
      rw [UInt64.toNat_add, UInt64.toNat_max, hmul, Nat.mod_eq_of_lt (hmax hready)]

end

theorem setTat_lookup (l : Limiter Key) (key k : Key) (tat : UInt64) :
    (l.setTat key tat).tatPerKey.lookup k =
      if k = key then some tat else l.tatPerKey.lookup k :=
  Map.lookup_insert_eq _ _ _ _

theorem prune_lookup (l : Limiter Key) (limit : Duration) (k : Key) :
    (l.prune limit).tatPerKey.lookup k =
      (l.tatPerKey.lookup k).filter fun tat => decide (limit.nanosecs ≤ tat) :=
  Map.lookup_retain _ _ _

theorem allows_fst (l : Limiter Key) (time : Duration) (key : Key) (tokens : UInt64) :
    (l.allows time key tokens).1 = l ∨
      ∃ tat, (l.allows time key tokens).1 = l.setTat key tat := by
  unfold allows
  simp only
  split
  · exact .inl rfl
  · split
    · exact .inr ⟨_, rfl⟩
    · exact .inr ⟨_, rfl⟩

@[simp] theorem step_tau (l : Limiter Key) (op : LimiterOp Key) : (l.step op).tau = l.tau := by
  cases op with
  | allows time key tokens =>
    rcases l.allows_fst time key tokens with h | ⟨tat, h⟩ <;> rw [step, h]
    rfl
  | prune limit => rfl

@[simp] theorem step_t (l : Limiter Key) (op : LimiterOp Key) : (l.step op).t = l.t := by
  cases op with
  | allows time key tokens =>
    rcases l.allows_fst time key tokens with h | ⟨tat, h⟩ <;> rw [step, h]
    rfl
  | prune limit => rfl

/-! ## The window -/

/-- What a call grants to a key: the time and the number of tokens. -/
def grant (key : Key) (l : Limiter Key) : LimiterOp Key → List (ℕ × ℕ)
  | .allows timeSinceStart k tokens =>
    match (l.allows timeSinceStart k tokens).2 with
    | .ok () => if k = key then [(timeSinceStart, tokens.toNat)] else []
    | .error _ => []
  | .prune _ => []

/-- The tokens that a sequence of calls accepts for a key. -/
def accepted (key : Key) : Limiter Key → List (LimiterOp Key) → List (ℕ × ℕ)
  | _, [] => []
  | l, op :: ops => l.grant key op ++ (l.step op).accepted key ops

/-- The arrival time of a key, in real time. -/
def arrival (l : Limiter Key) (key : Key) (now : Duration) : ℕ :=
  (l.tat key now.nanosecs).toNat + now.epoch

/-- From `last` on, the limiter never takes the arrival time of the key to lie before `a`. -/
def Lags (l : Limiter Key) (key : Key) (last a : ℕ) : Prop :=
  ∀ now : Duration, last ≤ now → a ≤ max now (l.arrival key now)

section

variable {key : Key} {last now a : ℕ}

theorem arrival_of_lookup {k : Key} {tat : UInt64} (h : l.tatPerKey.lookup k = some tat)
    (now : Duration) : l.arrival k now = tat.toNat + now.epoch := by
  rw [arrival, Limiter.tat, h, Option.getD_some]

theorem arrival_congr {l' : Limiter Key} (h : l'.tatPerKey.lookup key = l.tatPerKey.lookup key)
    (now : Duration) : l'.arrival key now = l.arrival key now := by
  rw [arrival, arrival, tat, tat, h]

theorem Lags.congr {l' : Limiter Key} (hlags : l.Lags key last a) (hnow : last ≤ now)
    (h : l'.tatPerKey.lookup key = l.tatPerKey.lookup key) : l'.Lags key now a := by
  intro later hlater
  rw [arrival_congr h]
  exact hlags later (hnow.trans hlater)

/-- An arrival time stored at `now`. -/
theorem Lags.setTat {time : Duration} {tat : UInt64}
    (h : a ≤ max time (tat.toNat + time.epoch)) : (l.setTat key tat).Lags key time a := by
  intro later hlater
  have hlookup : (l.setTat key tat).tatPerKey.lookup key = some tat := by
    rw [setTat_lookup, if_pos rfl]
  have hepoch := Duration.epoch_mono hlater
  rw [arrival_of_lookup hlookup]
  omega

/-- A pruned key is one whose arrival time has passed. -/
theorem Lags.prune {limit : Duration} (hlags : l.Lags key last a) (hlimit : last ≤ limit) :
    (l.prune limit).Lags key limit a := by
  cases hlookup : l.tatPerKey.lookup key with
  | none => exact hlags.congr hlimit (by rw [prune_lookup, hlookup]; rfl)
  | some tat =>
    by_cases hkept : limit.nanosecs ≤ tat
    · refine hlags.congr hlimit ?_
      rw [prune_lookup, hlookup, Option.filter_some, if_pos (decide_eq_true hkept)]
    · intro later hlater
      have hpast : tat.toNat < limit.nanosecs.toNat := by
        have hnot : ¬ limit.nanosecs.toNat ≤ tat.toNat := hkept
        omega
      have ha := hlags limit hlimit
      rw [arrival_of_lookup hlookup] at ha
      have hreal := Duration.nanosecs_add_epoch limit
      omega

/-- **A call charges the meter of the key** with what it grants, at most. -/
theorem step_metered {h : List (ℕ × ℕ)} {op : LimiterOp Key} (hnow : last ≤ op.time)
    (hfit : l.Fits op) (hm : Metered l.tau.toNat h last a) (hlags : l.Lags key last a) :
    ∃ a', Metered l.tau.toNat (h ++ (l.grant key op).map fun c => (c.1, l.t.toNat * c.2))
        op.time a' ∧ (l.step op).Lags key op.time a' := by
  cases op with
  | prune limit =>
    refine ⟨a, ?_, hlags.prune hnow⟩
    simpa only [grant, List.map_nil, List.append_nil] using hm.later hnow
  | allows time k tokens =>
    change last ≤ time at hnow
    simp only [LimiterOp.time]
    have hreal := Duration.nanosecs_add_epoch time
    have hkeep : l.Lags key time a := hlags.congr hnow rfl
    have ha := hlags time hnow
    rcases allows_cases hfit with ⟨-, hcall⟩ | ⟨-, -, hcall⟩ | ⟨hle, hready, tat, htat, hcall⟩
    · refine ⟨a, ?_, ?_⟩
      · simpa only [grant, hcall, List.map_nil, List.append_nil] using hm.later hnow
      · rw [step, hcall]
        exact hkeep
    · refine ⟨a, ?_, ?_⟩
      · simpa only [grant, hcall, List.map_nil, List.append_nil] using hm.later hnow
      · rw [step, hcall]
        by_cases hk : k = key
        · subst hk
          exact .setTat ha
        · exact hlags.congr hnow (by rw [setTat_lookup, if_neg (Ne.symm hk)])
    · by_cases hk : k = key
      · subst hk
        -- the arrival time of the limiter bounds the one of the meter
        have hlimiter : l.arrival k time = (l.tat k time.nanosecs).toNat + time.epoch := rfl
        refine ⟨max time a + l.cost tokens, ?_, ?_⟩
        · have hcharge : Metered l.tau.toNat (h ++ [(time, l.cost tokens)]) time
              (max time a + l.cost tokens) := hm.charge hnow (by omega)
          simpa only [grant, hcall, if_pos, List.map_cons, List.map_nil, cost] using hcharge
        · rw [step, hcall]
          refine .setTat ?_
          omega
      · refine ⟨a, ?_, ?_⟩
        · simpa only [grant, hcall, if_neg hk, List.map_nil, List.append_nil] using hm.later hnow
        · rw [step, hcall]
          exact hlags.congr hnow (by rw [setTat_lookup, if_neg (Ne.symm hk)])

theorem run_metered {ops : List (LimiterOp Key)} {h : List (ℕ × ℕ)}
    (hchron : LimiterOp.Chronological ops) (hnow : ∀ op ∈ ops, last ≤ op.time)
    (hfit : Along step Fits l ops) (hm : Metered l.tau.toNat h last a)
    (hlags : l.Lags key last a) :
    ∃ last' a', Metered l.tau.toNat
      (h ++ (l.accepted key ops).map fun c => (c.1, l.t.toNat * c.2)) last' a' := by
  induction ops generalizing l h last a with
  | nil => exact ⟨last, a, by simpa only [accepted, List.map_nil, List.append_nil] using hm⟩
  | cons op ops ih =>
    obtain ⟨hfirst, hrest⟩ := List.pairwise_cons.1 hchron
    obtain ⟨a', hm', hlags'⟩ :=
      step_metered (hnow op List.mem_cons_self) hfit.1 hm hlags
    obtain ⟨last', a'', hrun⟩ := ih hrest hfirst hfit.2 (by rwa [step_tau]) hlags'
    rw [step_tau, step_t] at hrun
    refine ⟨last', a'', ?_⟩
    rwa [accepted, List.map_append, ← List.append_assoc]

/-- **The window bound**: over a window from `a` to `b`, the tokens accepted for a key take
at most `tau` plus the length of the window to replenish, whatever other calls are made. -/
theorem window_bound (key : Key) {ops : List (LimiterOp Key)}
    (hchron : LimiterOp.Chronological ops) (hfit : Along step Fits l ops) (a b : ℕ) :
    l.t.toNat * charged a b (l.accepted key ops) ≤ l.tau.toNat + (b - a) := by
  have hlags : l.Lags key 0 0 := fun _ _ => Nat.zero_le _
  obtain ⟨last, arrival, hm⟩ :=
    run_metered hchron (fun _ _ => Nat.zero_le _) hfit (Metered.empty _ 0 0) hlags
  have hwithin := hm.within a b
  rwa [List.nil_append, charged_map_mul] at hwithin

end

section Example

/-- Two tokens every ten nanoseconds, as `fromQuota ⟨10, 2⟩` has it. -/
private def twoTokens : Limiter ℕ := ⟨10, 5, ∅⟩

private def burst : List (LimiterOp ℕ) :=
  [.allows 0 1 2, .allows 3 1 1, .allows 4 2 1, .prune 5, .allows 5 1 1, .prune 20,
    .allows 20 1 2]

theorem window_bound_burst :
    twoTokens.t.toNat * charged 0 5 (twoTokens.accepted 1 burst) ≤
      twoTokens.tau.toNat + (5 - 0) :=
  window_bound 1 (by decide) (by decide) 0 5

end Example

/-! ## Pruning -/

/-- The answers to the calls of `allows`. -/
def outcomes : Limiter Key → List (LimiterOp Key) → List (Except RateLimitedErr Unit)
  | _, [] => []
  | l, .allows timeSinceStart key tokens :: ops =>
    (l.allows timeSinceStart key tokens).2 ::
      outcomes (l.step (.allows timeSinceStart key tokens)) ops
  | l, .prune timeLimit :: ops => outcomes (l.step (.prune timeLimit)) ops

/-- The limiter has what `m` has, but for keys whose bucket was full by `last`. -/
structure Forgets (last : ℕ) (l m : Limiter Key) : Prop where
  tau : l.tau = m.tau
  t : l.t = m.t
  keys : ∀ key, l.tatPerKey.lookup key = m.tatPerKey.lookup key ∨
    l.tatPerKey.lookup key = none ∧
      ∃ tat, m.tatPerKey.lookup key = some tat ∧ tat.toNat ≤ last

namespace Forgets

variable {m : Limiter Key} {last now : ℕ}

theorem refl (last : ℕ) (l : Limiter Key) : Forgets last l l :=
  ⟨rfl, rfl, fun _ => .inl rfl⟩

theorem later (h : Forgets last l m) (hnow : last ≤ now) : Forgets now l m := by
  refine ⟨h.tau, h.t, fun key => ?_⟩
  rcases h.keys key with heq | ⟨hnone, tat, hsome, hle⟩
  · exact .inl heq
  · exact .inr ⟨hnone, tat, hsome, hle.trans hnow⟩

theorem setTat (h : Forgets last l m) (key : Key) (tat : UInt64) :
    Forgets last (l.setTat key tat) (m.setTat key tat) := by
  refine ⟨h.tau, h.t, fun k => ?_⟩
  rw [setTat_lookup, setTat_lookup]
  split
  · exact .inl rfl
  · exact h.keys k

theorem prune (h : Forgets last l m) {limit : Duration} (hlimit : last ≤ limit)
    (hreal : limit < 2 ^ 64) : Forgets limit (l.prune limit) m := by
  refine ⟨h.tau, h.t, fun key => ?_⟩
  rw [prune_lookup]
  rcases h.keys key with heq | ⟨hnone, tat, hsome, hle⟩
  · rw [heq]
    cases hm : m.tatPerKey.lookup key with
    | none => exact .inl rfl
    | some tat =>
      by_cases hkept : limit.nanosecs ≤ tat
      · rw [Option.filter_some, if_pos (decide_eq_true hkept)]
        exact .inl rfl
      · have hnot : ¬ limit.nanosecs.toNat ≤ tat.toNat := hkept
        rw [Duration.nanosecs_toNat, Nat.mod_eq_of_lt hreal] at hnot
        rw [Option.filter_some, if_neg (by simpa using hkept)]
        exact .inr ⟨rfl, tat, rfl, by omega⟩
  · rw [hnone]
    exact .inr ⟨rfl, tat, hsome, hle.trans hlimit⟩

/-- A forgotten key is taken to have been full just now. -/
theorem tat (h : Forgets last l m) {time : Duration} (hlast : last ≤ time)
    (hreal : time < 2 ^ 64) (key : Key) :
    l.tat key time.nanosecs = m.tat key time.nanosecs ∨
      l.tat key time.nanosecs = time.nanosecs ∧ m.tat key time.nanosecs ≤ time.nanosecs := by
  rcases h.keys key with heq | ⟨hnone, tat, hsome, hle⟩
  · left
    rw [Limiter.tat, Limiter.tat, heq]
  · right
    refine ⟨by rw [Limiter.tat, hnone, Option.getD_none], ?_⟩
    rw [Limiter.tat, hsome, Option.getD_some]
    change tat.toNat ≤ time.nanosecs.toNat
    rw [Duration.nanosecs_toNat, Nat.mod_eq_of_lt hreal]
    exact hle.trans hlast

end Forgets

/-- The limiters give a call the same answer and set the same arrival time. -/
def Agree (l m : Limiter Key) (time : Duration) (key : Key) (tokens : UInt64) : Prop :=
  (l.allows time key tokens).2 = (m.allows time key tokens).2 ∧
    ((l.allows time key tokens).1 = l ∧ (m.allows time key tokens).1 = m ∨
      ∃ tat, (l.allows time key tokens).1 = l.setTat key tat ∧
        (m.allows time key tokens).1 = m.setTat key tat)

/-- A call is decided by the arrival time of its key. -/
theorem allows_congr {m : Limiter Key} {time : Duration} {key : Key} (tokens : UInt64)
    (htau : l.tau = m.tau) (ht : l.t = m.t)
    (htat : l.tat key time.nanosecs = m.tat key time.nanosecs) :
    l.Agree m time key tokens := by
  unfold Agree allows
  simp only [htau, ht, htat]
  split
  · exact ⟨rfl, .inl ⟨rfl, rfl⟩⟩
  · split
    · exact ⟨rfl, .inr ⟨_, rfl, rfl⟩⟩
    · exact ⟨rfl, .inr ⟨_, rfl, rfl⟩⟩

/-- A key that is full now is accepted, and charged the same, whether it is known or not. -/
theorem allows_full {m : Limiter Key} {time : Duration} {key : Key} {tokens : UInt64}
    (htau : l.tau = m.tau) (ht : l.t = m.t) (hfit : l.Fits (.allows time key tokens))
    (hl : l.tat key time.nanosecs = time.nanosecs)
    (hm : m.tat key time.nanosecs ≤ time.nanosecs) :
    l.Agree m time key tokens := by
  have hle : (m.tat key time.nanosecs).toNat ≤ time.nanosecs.toNat := hm
  have hcost : m.cost tokens = l.cost tokens := by rw [cost, cost, ht]
  have hfitm : m.Fits (.allows time key tokens) := by
    obtain ⟨h, hsums⟩ := hfit
    rw [hl] at hsums
    refine ⟨by omega, fun hlarge => ?_⟩
    obtain ⟨hsum, hmax⟩ := hsums (by rw [htau]; omega)
    exact ⟨by omega, fun _ => by omega⟩
  rcases allows_cases hfit with ⟨hlarge, hcall⟩ | ⟨hsmall, hsoon, -⟩ | ⟨hsmall, -, tat, htat, hcall⟩
  · rcases allows_cases hfitm with ⟨-, hcall'⟩ | ⟨hsmall', -, -⟩ | ⟨hsmall', -, -⟩
    · rw [Agree, hcall, hcall']
      exact ⟨rfl, .inl ⟨rfl, rfl⟩⟩
    all_goals
      rw [← htau] at hsmall'
      omega
  · rw [hl] at hsoon
    omega
  · rw [hl] at htat
    rcases allows_cases hfitm with ⟨hlarge', -⟩ | ⟨-, hsoon', -⟩ | ⟨-, -, tat', htat', hcall'⟩
    · rw [← htau] at hlarge'
      omega
    · rw [← htau] at hsoon'
      omega
    · have heq : tat' = tat := UInt64.toNat_inj.1 (by omega)
      rw [Agree, hcall, hcall', heq]
      exact ⟨rfl, .inr ⟨tat, rfl, rfl⟩⟩

/-- **A call does not see what has been forgotten.** -/
theorem Forgets.allows {m : Limiter Key} {last : ℕ} {time : Duration} {key : Key}
    {tokens : UInt64} (h : Forgets last l m) (hlast : last ≤ time) (hreal : time < 2 ^ 64)
    (hfit : l.Fits (.allows time key tokens)) :
    (l.allows time key tokens).2 = (m.allows time key tokens).2 ∧
      Forgets time (l.step (.allows time key tokens)) (m.step (.allows time key tokens)) := by
  have hcall : l.Agree m time key tokens := by
    rcases h.tat hlast hreal key with heq | ⟨hl, hm⟩
    · exact allows_congr tokens h.tau h.t heq
    · exact allows_full h.tau h.t hfit hl hm
  obtain ⟨houtcome, hstate⟩ := hcall
  refine ⟨houtcome, ?_⟩
  rw [step, step]
  rcases hstate with ⟨hl, hm⟩ | ⟨tat, hl, hm⟩
  · rw [hl, hm]
    exact h.later hlast
  · rw [hl, hm]
    exact (h.later hlast).setTat key tat

theorem outcomes_of_forgets {m : Limiter Key} {last : ℕ} {ops : List (LimiterOp Key)}
    (h : Forgets last l m) (hchron : LimiterOp.Chronological ops)
    (hlast : ∀ op ∈ ops, last ≤ op.time) (hreal : ∀ op ∈ ops, op.time < 2 ^ 64)
    (hfit : Along step Fits l ops) :
    m.outcomes (ops.filter LimiterOp.isAllows) = l.outcomes ops := by
  induction ops generalizing l m last with
  | nil => rfl
  | cons op ops ih =>
    obtain ⟨hfirst, hrest⟩ := List.pairwise_cons.1 hchron
    have hnow := hlast op List.mem_cons_self
    have hop := hreal op List.mem_cons_self
    have hreal' := fun op' hop' => hreal op' (List.mem_cons_of_mem op hop')
    cases op with
    | allows time key tokens =>
      change last ≤ time at hnow
      change time < 2 ^ 64 at hop
      obtain ⟨houtcome, hnext⟩ := h.allows hnow hop hfit.1
      rw [List.filter_cons_of_pos rfl, outcomes, outcomes, houtcome,
        ih hnext hrest hfirst hreal' hfit.2]
    | prune limit =>
      rw [List.filter_cons_of_neg (by simp [LimiterOp.isAllows]), outcomes]
      exact ih (h.prune hnow hop) hrest hfirst hreal' hfit.2

/-- **Pruning is invisible**: a run without its prunes gives every call the same answer. -/
theorem prune_invisible {ops : List (LimiterOp Key)} (hchron : LimiterOp.Chronological ops)
    (hreal : ∀ op ∈ ops, op.time < 2 ^ 64) (hfit : Along step Fits l ops) :
    l.outcomes (ops.filter LimiterOp.isAllows) = l.outcomes ops :=
  outcomes_of_forgets (Forgets.refl 0 l) hchron (fun _ _ => Nat.zero_le _) hreal hfit

theorem prune_invisible_burst :
    twoTokens.outcomes (burst.filter LimiterOp.isAllows) = twoTokens.outcomes burst :=
  prune_invisible (by decide) (by decide) (by decide)

end Limiter

end Consentry.Rpc
