import Consentry.Rpc.Methods

/-!
# The rate limiter (`rpc/rate_limiter.rs`)

`Limiter` is the generic cell rate algorithm: it keeps one number for each key, the time at
which the bucket of the key is full again. Times are `u64` nanoseconds since the start of
the limiter, with the arithmetic of `u64`. `RPCRateLimiter` has one limiter for each
protocol.
-/

namespace Consentry.Rpc

open Lib

/-- A duration, in nanoseconds. -/
abbrev Duration := ℕ

def Duration.fromSecs (secs : ℕ) : Duration := secs * 10 ^ 9

/-- `as_nanos() as u64`, which keeps the low 64 bits. -/
def Duration.nanosecs (d : Duration) : UInt64 := .ofNat d

/-- `max_tokens` tokens every `replenish_all_every`. -/
structure Quota where
  replenishAllEvery : Duration
  maxTokens : UInt64

inductive RateLimitedErr
  | tooLarge
  | tooSoon (wait : Duration)
  deriving DecidableEq, Repr

/-- `u64::saturating_sub`. -/
def saturatingSub (a b : UInt64) : UInt64 := if b ≤ a then a - b else 0

structure Limiter (Key : Type) where
  /-- After how long a bucket is full again. -/
  tau : UInt64
  /-- How often one token is replenished. -/
  t : UInt64
  /-- When the bucket of each key will be full. -/
  tatPerKey : Map Key UInt64

namespace Limiter

variable {Key : Type} [DecidableEq Key]

/-- `try_into`, from `u128` to `u64`. -/
def tryNanosecs (n : ℕ) : Except String UInt64 :=
  if n < 2 ^ 64 then .ok (.ofNat n) else .error "total replenish time is too long"

def fromQuota (quota : Quota) : Except String (Limiter Key) :=
  if quota.maxTokens = 0 then .error "Max number of tokens should be positive"
  else if quota.replenishAllEvery = 0 then .error "Replenish time must be positive"
  else do
    let t ← tryNanosecs (quota.replenishAllEvery / quota.maxTokens.toNat)
    let tau ← tryNanosecs quota.replenishAllEvery
    return ⟨tau, t, ∅⟩

/-- The arrival time of a key, `now` for a new one: its bucket is full. -/
def tat (l : Limiter Key) (key : Key) (now : UInt64) : UInt64 :=
  (l.tatPerKey.lookup key).getD now

def setTat (l : Limiter Key) (key : Key) (tat : UInt64) : Limiter Key :=
  { l with tatPerKey := l.tatPerKey.insert key tat }

def allows (l : Limiter Key) (timeSinceStart : Duration) (key : Key) (tokens : UInt64) :
    Limiter Key × Except RateLimitedErr Unit :=
  let now := timeSinceStart.nanosecs
  let additionalTime := l.t * tokens
  -- this batch can never be processed
  if l.tau < additionalTime then (l, .error .tooLarge)
  else
    let tat := l.tat key now
    let earliestTime := saturatingSub (tat + additionalTime) l.tau
    if now < earliestTime then
      (l.setTat key tat, .error (.tooSoon (earliestTime - now).toNat))
    else (l.setTat key (max now tat + additionalTime), .ok ())

/-- Removes the keys whose bucket is full by the limit. -/
def prune (l : Limiter Key) (timeLimit : Duration) : Limiter Key :=
  { l with tatPerKey := l.tatPerKey.retain fun _ tat => decide (timeLimit.nanosecs ≤ tat) }

end Limiter

/-! ## One limiter for each protocol -/

structure RPCRateLimiter where
  goodbyeRl : Limiter PeerId
  pingRl : Limiter PeerId
  metadataRl : Limiter PeerId
  statusRl : Limiter PeerId
  bbrangeRl : Limiter PeerId
  bbrootsRl : Limiter PeerId

structure RPCRateLimiterBuilder where
  goodbyeQuota : Option Quota := none
  pingQuota : Option Quota := none
  metadataQuota : Option Quota := none
  statusQuota : Option Quota := none
  bbrangeQuota : Option Quota := none
  bbrootsQuota : Option Quota := none

namespace RPCRateLimiterBuilder

def new : RPCRateLimiterBuilder := {}

def setQuota (b : RPCRateLimiterBuilder) (protocol : Protocol) (quota : Quota) :
    RPCRateLimiterBuilder :=
  match protocol with
  | .ping => { b with pingQuota := some quota }
  | .status => { b with statusQuota := some quota }
  | .metaData => { b with metadataQuota := some quota }
  | .goodbye => { b with goodbyeQuota := some quota }
  | .blocksByRange => { b with bbrangeQuota := some quota }
  | .blocksByRoot => { b with bbrootsQuota := some quota }

/-- One token every `timePeriod`: a hard limit. -/
def oneEvery (b : RPCRateLimiterBuilder) (protocol : Protocol) (timePeriod : Duration) :
    RPCRateLimiterBuilder :=
  b.setQuota protocol ⟨timePeriod, 1⟩

def nEvery (b : RPCRateLimiterBuilder) (protocol : Protocol) (n : UInt64)
    (timePeriod : Duration) : RPCRateLimiterBuilder :=
  b.setQuota protocol ⟨timePeriod, n⟩

/-- `ok_or`. -/
def specified (quota : Option Quota) (err : String) : Except String Quota :=
  match quota with
  | some quota => .ok quota
  | none => .error err

def build (b : RPCRateLimiterBuilder) : Except String RPCRateLimiter := do
  let pingQuota ← specified b.pingQuota "Ping quota not specified"
  let metadataQuota ← specified b.metadataQuota "MetaData quota not specified"
  let statusQuota ← specified b.statusQuota "Status quota not specified"
  let goodbyeQuota ← specified b.goodbyeQuota "Goodbye quota not specified"
  let bbrootsQuota ← specified b.bbrootsQuota "BlocksByRoot quota not specified"
  let bbrangeQuota ← specified b.bbrangeQuota "BlocksByRange quota not specified"
  let pingRl ← Limiter.fromQuota pingQuota
  let metadataRl ← Limiter.fromQuota metadataQuota
  let statusRl ← Limiter.fromQuota statusQuota
  let goodbyeRl ← Limiter.fromQuota goodbyeQuota
  let bbrootsRl ← Limiter.fromQuota bbrootsQuota
  let bbrangeRl ← Limiter.fromQuota bbrangeQuota
  return { goodbyeRl, pingRl, metadataRl, statusRl, bbrangeRl, bbrootsRl }

end RPCRateLimiterBuilder

namespace RPCRateLimiter

/-- The limiter of `RPC::new`. -/
def default : Except String RPCRateLimiter :=
  RPCRateLimiterBuilder.new
    |>.nEvery .metaData 2 (.fromSecs 5)
    |>.nEvery .ping 2 (.fromSecs 10)
    |>.nEvery .status 5 (.fromSecs 15)
    |>.oneEvery .goodbye (.fromSecs 10)
    |>.nEvery .blocksByRange (.ofNat maxRequestBlocks) (.fromSecs 10)
    |>.nEvery .blocksByRoot 128 (.fromSecs 10)
    |>.build

def allows (rl : RPCRateLimiter) (timeSinceStart : Duration) (peerId : PeerId)
    (request : InboundRequest) : RPCRateLimiter × Except RateLimitedErr Unit :=
  let tokens := max request.expectedResponses 1
  match request.protocol with
  | .ping =>
    let (l, r) := rl.pingRl.allows timeSinceStart peerId tokens
    ({ rl with pingRl := l }, r)
  | .status =>
    let (l, r) := rl.statusRl.allows timeSinceStart peerId tokens
    ({ rl with statusRl := l }, r)
  | .metaData =>
    let (l, r) := rl.metadataRl.allows timeSinceStart peerId tokens
    ({ rl with metadataRl := l }, r)
  | .goodbye =>
    let (l, r) := rl.goodbyeRl.allows timeSinceStart peerId tokens
    ({ rl with goodbyeRl := l }, r)
  | .blocksByRange =>
    let (l, r) := rl.bbrangeRl.allows timeSinceStart peerId tokens
    ({ rl with bbrangeRl := l }, r)
  | .blocksByRoot =>
    let (l, r) := rl.bbrootsRl.allows timeSinceStart peerId tokens
    ({ rl with bbrootsRl := l }, r)

def prune (rl : RPCRateLimiter) (timeSinceStart : Duration) : RPCRateLimiter where
  pingRl := rl.pingRl.prune timeSinceStart
  statusRl := rl.statusRl.prune timeSinceStart
  metadataRl := rl.metadataRl.prune timeSinceStart
  goodbyeRl := rl.goodbyeRl.prune timeSinceStart
  bbrangeRl := rl.bbrangeRl.prune timeSinceStart
  bbrootsRl := rl.bbrootsRl.prune timeSinceStart

end RPCRateLimiter

end Consentry.Rpc
