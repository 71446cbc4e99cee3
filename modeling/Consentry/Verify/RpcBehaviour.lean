import Consentry.Rpc.Behaviour
import Consentry.Verify.RateLimitBurst
import Mathlib.Data.List.Flatten

/-!
# What the RPC behaviour lets through

The behaviour is followed through a sequence of calls. What it returns is what was queued, in
order (`returned_append_events`). A limiter is projected out of it: **`limiter_run`**. As long as
the clock is well below the range of `u64`, nothing that the limiter computes overflows, but for a
request whose number of tokens is not bounded (`fits_of_ahead`). **`requests_metered`**: the user
is handed the requests that were let through, in order, and of those of one peer no more than the
quota of their protocol.
-/

namespace Consentry.Rpc

open Lib

/-! ## Overflow -/

namespace Limiter

variable {Key : Type} [DecidableEq Key] {l : Limiter Key} {last : ℕ}

/-- No arrival time is further ahead than a burst. -/
def Ahead (l : Limiter Key) (last : ℕ) : Prop :=
  ∀ key tat, l.tatPerKey.lookup key = some tat → tat.toNat ≤ last + l.tau.toNat

theorem ahead_of_empty (h : l.tatPerKey = ∅) (last : ℕ) : l.Ahead last := by
  intro key tat hkey
  simp [h] at hkey

/-- The clock is far enough from its end. -/
def InTime (l : Limiter Key) (time : ℕ) : Prop := time + 2 * l.tau.toNat < 2 ^ 64

theorem Ahead.tat_le (h : l.Ahead last) {time : Duration} (hlast : last ≤ time)
    (htime : l.InTime time) (key : Key) :
    time.nanosecs.toNat = time ∧ (l.tat key time.nanosecs).toNat ≤ time + l.tau.toNat := by
  unfold InTime at htime
  have hnow : time.nanosecs.toNat = time := by
    rw [Duration.nanosecs_toNat, Nat.mod_eq_of_lt (by omega)]
  refine ⟨hnow, ?_⟩
  unfold tat
  cases hkey : l.tatPerKey.lookup key with
  | none =>
    rw [Option.getD_none]
    omega
  | some tat =>
    rw [Option.getD_some]
    have hle := h key tat hkey
    omega

/-- **A call does not overflow** in time, unless its cost does. -/
theorem fits_of_ahead (h : l.Ahead last) {time : Duration} (hlast : last ≤ time)
    (htime : l.InTime time) {key : Key} {tokens : UInt64} (hcost : l.cost tokens < 2 ^ 64) :
    l.Fits (.allows time key tokens) := by
  obtain ⟨hnow, htat⟩ := h.tat_le hlast htime key
  unfold InTime at htime
  refine ⟨hcost, fun hle => ⟨by omega, fun _ => ?_⟩⟩
  rw [hnow]
  omega

theorem Ahead.setTat (h : l.Ahead last) {time : Duration} (hlast : last ≤ time) {key : Key}
    {tat : UInt64} (htat : tat.toNat ≤ time + l.tau.toNat) : (l.setTat key tat).Ahead time := by
  intro k tat' hk
  rw [setTat_lookup] at hk
  split at hk
  · cases hk
    exact htat
  · have hle := h k tat' hk
    change tat'.toNat ≤ time + l.tau.toNat
    omega

theorem Ahead.step (h : l.Ahead last) {op : LimiterOp Key} (hlast : last ≤ op.time)
    (htime : l.InTime op.time) (hfit : l.Fits op) : (l.step op).Ahead op.time := by
  cases op with
  | prune limit =>
    intro key tat hkey
    change last ≤ limit at hlast
    rw [Limiter.step, prune_lookup] at hkey
    have hsome : l.tatPerKey.lookup key = some tat := by
      cases hl : l.tatPerKey.lookup key with
      | none => simp [hl] at hkey
      | some tat' =>
        rw [hl, Option.filter_some] at hkey
        split at hkey
        · exact hkey
        · cases hkey
    have hle := h key tat hsome
    change tat.toNat ≤ limit + l.tau.toNat
    omega
  | allows time key tokens =>
    change last ≤ time at hlast
    obtain ⟨hnow, htat⟩ := h.tat_le hlast htime key
    rw [Limiter.step]
    rcases allows_cases hfit with ⟨-, hcall⟩ | ⟨-, -, hcall⟩ | ⟨hle, hready, tat, hset, hcall⟩
    · rw [hcall]
      intro k tat hk
      have hle := h k tat hk
      change tat.toNat ≤ time + l.tau.toNat
      omega
    · rw [hcall]
      exact h.setTat hlast htat
    · rw [hcall]
      refine h.setTat hlast ?_
      rw [hset]
      omega

/-- **A run does not overflow** in time, unless a cost does. -/
theorem along_fits (h : l.Ahead last) {ops : List (LimiterOp Key)}
    (hchron : LimiterOp.Chronological ops) (hlast : ∀ op ∈ ops, last ≤ op.time)
    (htime : ∀ op ∈ ops, l.InTime op.time)
    (hcost : ∀ time key tokens, .allows time key tokens ∈ ops → l.cost tokens < 2 ^ 64) :
    Along Limiter.step Fits l ops := by
  induction ops generalizing l last with
  | nil => trivial
  | cons op ops ih =>
    obtain ⟨hfirst, hrest⟩ := List.pairwise_cons.1 hchron
    have hnow := hlast op List.mem_cons_self
    have hop := htime op List.mem_cons_self
    have hfit : l.Fits op := by
      cases op with
      | allows time key tokens =>
        exact fits_of_ahead h hnow hop (hcost time key tokens List.mem_cons_self)
      | prune limit => trivial
    refine ⟨hfit, ih (h.step hnow hop hfit) hrest hfirst ?_ ?_⟩
    · intro op' hop'
      unfold InTime
      rw [step_tau]
      exact htime op' (List.mem_cons_of_mem op hop')
    · intro time key tokens hmem
      unfold cost
      rw [step_t]
      exact hcost time key tokens (List.mem_cons_of_mem op hmem)

theorem accepted_append (key : Key) (l : Limiter Key) (ops ops' : List (LimiterOp Key)) :
    l.accepted key (ops ++ ops') =
      l.accepted key ops ++ (ops.foldl Limiter.step l).accepted key ops' := by
  induction ops generalizing l with
  | nil => rfl
  | cons op ops ih => rw [List.cons_append, accepted, accepted, ih, List.append_assoc]; rfl

theorem accepted_prunes (key : Key) (l : Limiter Key) (limits : List Duration) :
    l.accepted key (limits.map .prune) = [] := by
  induction limits generalizing l with
  | nil => rfl
  | cons limit limits ih => exact ih (l.step (.prune limit))

end Limiter

/-! ## The limiter of a protocol -/

namespace RPCRateLimiter

def limiter (rl : RPCRateLimiter) : Protocol → Limiter PeerId
  | .goodbye => rl.goodbyeRl
  | .ping => rl.pingRl
  | .metaData => rl.metadataRl
  | .status => rl.statusRl
  | .blocksByRange => rl.bbrangeRl
  | .blocksByRoot => rl.bbrootsRl

/-- The tokens that a request takes. -/
def tokens (req : InboundRequest) : UInt64 := max req.expectedResponses 1

theorem allows_limiter (rl : RPCRateLimiter) (time : Duration) (peerId : PeerId)
    (req : InboundRequest) :
    (rl.allows time peerId req).2 =
        ((rl.limiter req.protocol).allows time peerId (tokens req)).2 ∧
      ∀ p, (rl.allows time peerId req).1.limiter p =
        if p = req.protocol then ((rl.limiter p).allows time peerId (tokens req)).1
        else rl.limiter p := by
  unfold allows
  generalize req.protocol = protocol
  cases protocol <;> refine ⟨rfl, fun p => ?_⟩ <;> cases p <;> rfl

theorem prune_limiter (rl : RPCRateLimiter) (time : Duration) (p : Protocol) :
    (rl.prune time).limiter p = (rl.limiter p).prune time := by
  cases p <;> rfl

theorem prunes_limiter (rl : RPCRateLimiter) (times : List Duration) (p : Protocol) :
    (times.foldl (·.prune ·) rl).limiter p =
      (times.map .prune).foldl Limiter.step (rl.limiter p) := by
  induction times generalizing rl with
  | nil => rfl
  | cons time times ih =>
    rw [List.foldl_cons, ih, prune_limiter]
    rfl

end RPCRateLimiter

/-! ## The queue -/

/-- A request that has been let through. -/
structure Admission where
  timeSinceStart : Duration
  peerId : PeerId
  connId : ConnectionId
  id : SubstreamId
  req : InboundRequest

/-- The request that the user is handed. -/
def NetworkBehaviourAction.request? {Id : Type} {S : EthSpec} :
    NetworkBehaviourAction Id S → Option (PeerId × ConnectionId × SubstreamId × InboundRequest)
  | .generateEvent ⟨peerId, connId, .ok (.request id req)⟩ => some (peerId, connId, id, req)
  | _ => none

namespace RPC

variable {Id : Type} {S : EthSpec}

/-- The requests that a call lets through. -/
def admitted (rpc : RPC Id S) : RPCOp Id S → List Admission
  | .injectEvent time peerId connId (.ok (.request id req)) =>
    match (rpc.limiter.allows time peerId req).2 with
    | .ok () => [⟨time, peerId, connId, id, req⟩]
    | .error _ => []
  | _ => []

/-- The actions that a call queues. -/
def queued (rpc : RPC Id S) : RPCOp Id S → List (NetworkBehaviourAction Id S)
  | .sendResponse peerId id event => [.notifyHandler peerId (.one id.1) (.response id.2 event)]
  | .sendRequest peerId requestId event => [.notifyHandler peerId .any (.request requestId event)]
  | .shutdown peerId id reason => [.notifyHandler peerId .any (.shutdown id reason)]
  | .injectEvent time peerId connId (.ok (.request id req)) =>
    match (rpc.limiter.allows time peerId req).2 with
    | .ok () => [.generateEvent ⟨peerId, connId, .ok (.request id req)⟩]
    | .error err => [.notifyHandler peerId (.one connId) (.response id (rateLimited err))]
  | .injectEvent _ peerId connId event => [.generateEvent ⟨peerId, connId, event⟩]
  | .poll _ => []

/-- A request is let through or answered, as its limiter decides. -/
theorem request_cases (rpc : RPC Id S) (time : Duration) (peerId : PeerId) (connId : ConnectionId)
    (id : SubstreamId) (req : InboundRequest) :
    ((rpc.limiter.allows time peerId req).2 = .ok () ∧
      rpc.queued (.injectEvent time peerId connId (.ok (.request id req))) =
        [.generateEvent ⟨peerId, connId, .ok (.request id req)⟩] ∧
      rpc.admitted (.injectEvent time peerId connId (.ok (.request id req))) =
        [⟨time, peerId, connId, id, req⟩]) ∨
    ∃ err, (rpc.limiter.allows time peerId req).2 = .error err ∧
      rpc.queued (.injectEvent time peerId connId (.ok (.request id req))) =
        [.notifyHandler peerId (.one connId) (.response id (rateLimited err))] ∧
      rpc.admitted (.injectEvent time peerId connId (.ok (.request id req))) = [] := by
  dsimp only [queued, admitted]
  cases hresult : (rpc.limiter.allows time peerId req).2 with
  | ok u => exact .inl ⟨rfl, rfl, rfl⟩
  | error err => exact .inr ⟨err, rfl, rfl, rfl⟩

theorem injectEvent_events (rpc : RPC Id S) (time : Duration) (peerId : PeerId)
    (connId : ConnectionId) (event : HandlerEvent Id S) :
    (rpc.injectEvent time peerId connId event).events =
      rpc.events ++ rpc.queued (.injectEvent time peerId connId event) := by
  rcases event with err | ⟨id, req⟩ | ⟨id, resp⟩ | ⟨id, t⟩
  · rfl
  · unfold injectEvent queued
    dsimp only
    cases (rpc.limiter.allows time peerId req).2 with
    | ok u => rfl
    | error err => rfl
  · rfl
  · rfl

/-- **The queue of one call.** -/
theorem returned_queued (rpc : RPC Id S) (op : RPCOp Id S) :
    rpc.returned op ++ (rpc.step op).events = rpc.events ++ rpc.queued op := by
  cases op with
  | sendResponse peerId id event => rfl
  | sendRequest peerId requestId event => rfl
  | shutdown peerId id reason => rfl
  | injectEvent time peerId connId event => exact rpc.injectEvent_events time peerId connId event
  | poll prunes =>
    unfold step returned poll queued
    dsimp only
    cases rpc.events with
    | nil => rfl
    | cons action events =>
      rw [List.append_nil]
      rfl

/-- What is queued is returned in order. -/
theorem returned_append_events (ops : List (RPCOp Id S)) (rpc : RPC Id S) :
    outputs step returned rpc ops ++ (ops.foldl step rpc).events =
      rpc.events ++ outputs step queued rpc ops :=
  outputs_queue returned_queued ops rpc

/-- The user is handed the requests that are let through. -/
theorem queued_request? (rpc : RPC Id S) (op : RPCOp Id S) :
    (rpc.queued op).filterMap (·.request?) =
      (rpc.admitted op).map fun r => (r.peerId, r.connId, r.id, r.req) := by
  rcases op with ⟨-⟩ | ⟨-⟩ | ⟨-⟩ | ⟨time, peerId, connId, err | ⟨id, req⟩ | ⟨id, resp⟩ | ⟨id, t⟩⟩ |
    ⟨-⟩
  case injectEvent.ok.request =>
    rcases rpc.request_cases time peerId connId id req with
      ⟨-, hqueued, hadmitted⟩ | ⟨err, -, hqueued, hadmitted⟩
    · rw [hqueued, hadmitted]
      rfl
    · rw [hqueued, hadmitted]
      rfl
  all_goals rfl

end RPC

/-! ## The quotas -/

namespace RPCOp

variable {Id : Type} {S : EthSpec}

/-- The times at which a call asks the rate limiter. -/
def times : RPCOp Id S → List ℕ
  | .injectEvent time _ _ _ => [time]
  | .poll prunes => prunes
  | _ => []

/-- The calls come in the order of their times. -/
def Chronological (ops : List (RPCOp Id S)) : Prop := (ops.flatMap times).Pairwise (· ≤ ·)

instance (ops : List (RPCOp Id S)) : Decidable (Chronological ops) :=
  inferInstanceAs (Decidable (List.Pairwise _ _))

/-- What a call asks of the limiter of a protocol. -/
def limiterOps (p : Protocol) : RPCOp Id S → List (LimiterOp PeerId)
  | .injectEvent time peerId _ (.ok (.request _ req)) =>
    if p = req.protocol then [.allows time peerId (RPCRateLimiter.tokens req)] else []
  | .poll prunes => prunes.map .prune
  | _ => []

theorem limiterOps_request (p : Protocol) (time : Duration) (peerId : PeerId)
    (connId : ConnectionId) (id : SubstreamId) (req : InboundRequest) :
    (.injectEvent time peerId connId (.ok (.request id req)) : RPCOp Id S).limiterOps p =
      if p = req.protocol then [.allows time peerId (RPCRateLimiter.tokens req)] else [] :=
  rfl

theorem limiterOps_times (p : Protocol) (op : RPCOp Id S) :
    ((op.limiterOps p).map (·.time)).Sublist op.times := by
  rcases op with ⟨-⟩ | ⟨-⟩ | ⟨-⟩ | ⟨time, peerId, connId, err | ⟨id, req⟩ | ⟨id, resp⟩ | ⟨id, t⟩⟩ |
    ⟨prunes⟩
  case injectEvent.ok.request =>
    rw [limiterOps_request]
    split
    · exact List.Sublist.refl _
    · exact List.nil_sublist _
  case poll =>
    have hmap : ((.poll prunes : RPCOp Id S).limiterOps p).map (·.time) = prunes := by
      rw [limiterOps, List.map_map]
      exact List.map_id prunes
    rw [hmap]
    exact List.Sublist.refl _
  all_goals exact List.nil_sublist _

theorem limiterOps_sublist (ops : List (RPCOp Id S)) (p : Protocol) :
    ((ops.flatMap (limiterOps p)).map (·.time)).Sublist (ops.flatMap times) := by
  rw [List.map_flatMap]
  exact List.Sublist.flatMap_right ops fun op _ => limiterOps_times p op

theorem time_mem {ops : List (RPCOp Id S)} {p : Protocol} {op : LimiterOp PeerId}
    (h : op ∈ ops.flatMap (limiterOps p)) : op.time ∈ ops.flatMap times :=
  (limiterOps_sublist ops p).subset (List.mem_map_of_mem h)

theorem limiterOps_chronological {ops : List (RPCOp Id S)} (h : Chronological ops) (p : Protocol) :
    LimiterOp.Chronological (ops.flatMap (limiterOps p)) :=
  List.pairwise_map.1 (h.sublist (limiterOps_sublist ops p))

end RPCOp

/-- The time and the tokens of a request of the peer under the protocol. -/
def Admission.charge (peerId : PeerId) (p : Protocol) (r : Admission) : Option (ℕ × ℕ) :=
  if r.peerId = peerId ∧ p = r.req.protocol then
    some (r.timeSinceStart, (RPCRateLimiter.tokens r.req).toNat)
  else none

namespace RPC

variable {Id : Type} {S : EthSpec}

/-- **A call, as the limiter of a protocol sees it.** -/
theorem step_limiter (rpc : RPC Id S) (op : RPCOp Id S) (p : Protocol) :
    (rpc.step op).limiter.limiter p =
      (op.limiterOps p).foldl Limiter.step (rpc.limiter.limiter p) := by
  rcases op with ⟨-⟩ | ⟨-⟩ | ⟨-⟩ | ⟨time, peerId, connId, err | ⟨id, req⟩ | ⟨id, resp⟩ | ⟨id, t⟩⟩ |
    ⟨prunes⟩
  case injectEvent.ok.request =>
    have hlimiter : (rpc.injectEvent time peerId connId (.ok (.request id req))).limiter =
        (rpc.limiter.allows time peerId req).1 := by
      unfold injectEvent
      dsimp only
      cases (rpc.limiter.allows time peerId req).2 with
      | ok u => rfl
      | error err => rfl
    unfold step
    rw [hlimiter, (rpc.limiter.allows_limiter time peerId req).2 p, RPCOp.limiterOps_request]
    split
    · rfl
    · rfl
  case poll =>
    have hlimiter : (rpc.poll prunes).1.limiter = prunes.foldl (·.prune ·) rpc.limiter := by
      unfold poll
      dsimp only
      cases rpc.events with
      | nil => rfl
      | cons action events => rfl
    unfold step
    rw [hlimiter]
    exact rpc.limiter.prunes_limiter prunes p
  all_goals rfl

theorem admitted_charge (rpc : RPC Id S) (op : RPCOp Id S) (peerId : PeerId) (p : Protocol) :
    (rpc.admitted op).filterMap (·.charge peerId p) =
      (rpc.limiter.limiter p).accepted peerId (op.limiterOps p) := by
  rcases op with ⟨-⟩ | ⟨-⟩ | ⟨-⟩ | ⟨time, peer, connId, err | ⟨id, req⟩ | ⟨id, resp⟩ | ⟨id, t⟩⟩ |
    ⟨prunes⟩
  case injectEvent.ok.request =>
    have hdecided := (rpc.limiter.allows_limiter time peer req).1
    by_cases hp : p = req.protocol
    · subst hp
      rw [RPCOp.limiterOps_request, if_pos rfl, Limiter.accepted, Limiter.accepted, List.append_nil,
        Limiter.grant]
      rcases rpc.request_cases time peer connId id req with
        ⟨hresult, -, hadmitted⟩ | ⟨err, hresult, -, hadmitted⟩
      · rw [hadmitted, ← hdecided, hresult]
        by_cases hpeer : peer = peerId
        · simp [Admission.charge, hpeer]
        · simp [Admission.charge, hpeer]
      · rw [hadmitted, ← hdecided, hresult]
        rfl
    · rw [RPCOp.limiterOps_request, if_neg hp]
      rcases rpc.request_cases time peer connId id req with
        ⟨-, -, hadmitted⟩ | ⟨err, -, -, hadmitted⟩
      · rw [hadmitted]
        simp [Admission.charge, hp, Limiter.accepted]
      · rw [hadmitted]
        rfl
  case poll => exact (Limiter.accepted_prunes peerId _ prunes).symm
  all_goals rfl

/-- **A run, as the limiter of a protocol sees it.** -/
theorem limiter_run (ops : List (RPCOp Id S)) (rpc : RPC Id S) (peerId : PeerId) (p : Protocol) :
    (outputs step admitted rpc ops).filterMap (·.charge peerId p) =
      (rpc.limiter.limiter p).accepted peerId (ops.flatMap (RPCOp.limiterOps p)) := by
  induction ops generalizing rpc with
  | nil => rfl
  | cons op ops ih =>
    rw [outputs, List.filterMap_append, List.flatMap_cons, Limiter.accepted_append, ih,
      admitted_charge, step_limiter]

/-- The quotas that the behaviour is built with. -/
def quota : Protocol → Quota
  | .metaData => ⟨.fromSecs 5, 2⟩
  | .ping => ⟨.fromSecs 10, 2⟩
  | .status => ⟨.fromSecs 15, 5⟩
  | .goodbye => ⟨.fromSecs 10, 1⟩
  | .blocksByRange => ⟨.fromSecs 10, 1024⟩
  | .blocksByRoot => ⟨.fromSecs 10, 128⟩

/-- After how long all tokens of a protocol are replenished. -/
def replenish (p : Protocol) : ℕ := (quota p).replenishAllEvery

/-- How often one token of a protocol is replenished. -/
def period (p : Protocol) : ℕ := replenish p / (quota p).maxTokens.toNat

/-- The quotas are accepted. -/
theorem new_limiter {rpc : RPC Id S} (hnew : new = some rpc) (p : Protocol) :
    Limiter.fromQuota (quota p) = .ok (rpc.limiter.limiter p) ∧ rpc.events = [] := by
  cases hnew
  cases p <;> exact ⟨rfl, rfl⟩

theorem period_le (p : Protocol) : period p ≤ 10 ^ 10 := by
  cases p <;> decide

theorem replenish_le (p : Protocol) : replenish p ≤ 15 * 10 ^ 9 := by
  cases p <;> decide

/-- Only the number of blocks in a range is up to the peer. -/
theorem cost_lt {req : InboundRequest} (h : req.protocol ≠ .blocksByRange) :
    period req.protocol * (RPCRateLimiter.tokens req).toNat < 2 ^ 64 := by
  have hresponses : req.expectedResponses.toNat ≤ 1024 := by
    cases req with
    | status _ => exact (by decide : (1 : UInt64).toNat ≤ 1024)
    | goodbye _ => exact (by decide : (0 : UInt64).toNat ≤ 1024)
    | blocksByRange _ => exact absurd rfl h
    | blocksByRoot req =>
      calc
        (UInt64.ofNat req.blockRoots.length).toNat
          ≤ req.blockRoots.length := by
            rw [UInt64.toNat_ofNat']
            exact Nat.mod_le _ _
        _ ≤ 1024 := req.blockRoots.length_le
    | ping _ => exact (by decide : (1 : UInt64).toNat ≤ 1024)
    | metaData => exact (by decide : (1 : UInt64).toNat ≤ 1024)
  have htokens : (RPCRateLimiter.tokens req).toNat ≤ 1024 := by
    unfold RPCRateLimiter.tokens
    rw [UInt64.toNat_max]
    exact max_le hresponses (by decide)
  calc
    period req.protocol * (RPCRateLimiter.tokens req).toNat
      ≤ 10 ^ 10 * 1024 := Nat.mul_le_mul (period_le _) htokens
    _ < 2 ^ 64 := by decide

end RPC

namespace RPCOp

variable {Id : Type} {S : EthSpec}

/-- The time in which the blocks of a range are replenished can be computed. -/
def Affordable : RPCOp Id S → Prop
  | .injectEvent _ _ _ (.ok (.request _ (.blocksByRange req))) =>
    RPC.period .blocksByRange * (max req.count 1).toNat < 2 ^ 64
  | _ => True

theorem mem_limiterOps {op : RPCOp Id S} {p : Protocol} {time : Duration} {peerId : PeerId}
    {tokens : UInt64} (h : .allows time peerId tokens ∈ op.limiterOps p) :
    ∃ connId id req, op = .injectEvent time peerId connId (.ok (.request id req)) ∧
      p = req.protocol ∧ tokens = RPCRateLimiter.tokens req := by
  rcases op with _ | _ | _ | ⟨time', peer, connId, err | ⟨id, req⟩ | ⟨id, resp⟩ | ⟨id, t⟩⟩ | prunes
  case injectEvent.ok.request =>
    rw [limiterOps_request] at h
    split at h
    · next hp =>
      cases List.mem_singleton.1 h
      exact ⟨connId, id, req, rfl, hp, rfl⟩
    · cases h
  case poll =>
    obtain ⟨limit, -, hprune⟩ := List.mem_map.1 h
    cases hprune
  all_goals cases h

theorem cost_lt_of_mem {ops : List (RPCOp Id S)} {p : Protocol}
    (h : p = .blocksByRange → ∀ op ∈ ops, op.Affordable) {time : Duration} {peerId : PeerId}
    {tokens : UInt64} (hmem : .allows time peerId tokens ∈ ops.flatMap (limiterOps p)) :
    RPC.period p * tokens.toNat < 2 ^ 64 := by
  obtain ⟨op, hop, hasked⟩ := List.mem_flatMap.1 hmem
  obtain ⟨connId, id, req, rfl, rfl, rfl⟩ := mem_limiterOps hasked
  by_cases hrange : req.protocol = .blocksByRange
  · have hafford := h hrange _ hop
    cases req with
    | blocksByRange req => exact hafford
    | _ => cases hrange
  · exact RPC.cost_lt hrange

end RPCOp

namespace RPC

variable {Id : Type} {S : EthSpec}

/-- The user is handed the requests that were let through, in order. -/
theorem returned_requests {rpc : RPC Id S} (hnew : new = some rpc) (ops : List (RPCOp Id S)) :
    (outputs step returned rpc ops).filterMap (·.request?) <+:
      (outputs step admitted rpc ops).map fun r => (r.peerId, r.connId, r.id, r.req) := by
  have hqueue := congrArg (List.filterMap (·.request?)) (returned_append_events ops rpc)
  rw [(new_limiter hnew .ping).2, List.nil_append, List.filterMap_append,
    outputs_filterMap queued_request?] at hqueue
  rw [← hqueue]
  exact List.prefix_append _ _

/-- The quota of a peer under a protocol is kept in every window. -/
theorem admitted_within {rpc : RPC Id S} (hnew : new = some rpc) {ops : List (RPCOp Id S)}
    (hchron : RPCOp.Chronological ops) (htime : ∀ time ∈ ops.flatMap RPCOp.times, time < 2 ^ 63)
    (peerId : PeerId) {p : Protocol} (hafford : p = .blocksByRange → ∀ op ∈ ops, op.Affordable)
    (a b : ℕ) :
    period p * charged a b ((outputs step admitted rpc ops).filterMap (·.charge peerId p)) ≤
      replenish p + (b - a) := by
  obtain ⟨htau, ht, hempty⟩ := Limiter.fromQuota_ok (new_limiter hnew p).1
  have hops := RPCOp.limiterOps_chronological hchron p
  have hfits : Along Limiter.step Limiter.Fits (rpc.limiter.limiter p)
      (ops.flatMap (RPCOp.limiterOps p)) := by
    refine Limiter.along_fits (Limiter.ahead_of_empty hempty 0) hops (fun _ _ => Nat.zero_le _)
      ?_ ?_
    · intro op hop
      unfold Limiter.InTime
      rw [htau]
      have hroom : ∀ time : ℕ, time < 2 ^ 63 → time + 2 * replenish p < 2 ^ 64 := by
        have hquota := replenish_le p
        omega
      exact hroom op.time (htime op.time (RPCOp.time_mem hop))
    · intro time key tokens hmem
      unfold Limiter.cost
      rw [ht]
      exact RPCOp.cost_lt_of_mem hafford hmem
  have hlags : (rpc.limiter.limiter p).Lags peerId 0 0 := fun _ _ => Nat.zero_le _
  obtain ⟨last, arrival, hmetered⟩ := Limiter.run_metered hops (fun _ _ => Nat.zero_le _) hfits
    (Metered.empty _ 0 0) hlags
  have hwithin := hmetered.within a b
  rwa [List.nil_append, charged_map_mul, ← limiter_run, htau, ht] at hwithin

/-- **The user is handed no more than the quotas**: the requests that it is handed are those let
through, in order, and over a window from `a` to `b` the requests of a peer under a protocol take
at most the quota's time plus the length of the window to replenish, whatever else is called.
Of the blocks in a range this holds as long as their time can be computed. -/
theorem requests_metered {rpc : RPC Id S} (hnew : new = some rpc) {ops : List (RPCOp Id S)}
    (hchron : RPCOp.Chronological ops) (htime : ∀ time ∈ ops.flatMap RPCOp.times, time < 2 ^ 63) :
    (outputs step returned rpc ops).filterMap (·.request?) <+:
        (outputs step admitted rpc ops).map (fun r => (r.peerId, r.connId, r.id, r.req)) ∧
      ∀ peerId p, (p = .blocksByRange → ∀ op ∈ ops, op.Affordable) → ∀ a b,
        period p *
            charged a b ((outputs step admitted rpc ops).filterMap (·.charge peerId p)) ≤
          replenish p + (b - a) :=
  ⟨returned_requests hnew ops, fun peerId _ hafford => admitted_within hnew hchron htime peerId
    hafford⟩

section Example

private def started : RPC ℕ ⟨fun _ => Empty, Unit, Unit, ()⟩ := new.get rfl

/-- Three pings of a peer, of which the last one has to wait. -/
private def pings : List (RPCOp ℕ ⟨fun _ => Empty, Unit, Unit, ()⟩) :=
  [.injectEvent 0 ⟨[1]⟩ 7 (.ok (.request 0 (.ping ⟨5⟩))),
    .injectEvent 3 ⟨[1]⟩ 7 (.ok (.request 1 (.ping ⟨5⟩))), .poll [4],
    .injectEvent 4 ⟨[1]⟩ 7 (.ok (.request 2 (.ping ⟨6⟩))), .poll []]

theorem requests_metered_pings :
    (outputs step returned started pings).filterMap (·.request?) <+:
        (outputs step admitted started pings).map (fun r => (r.peerId, r.connId, r.id, r.req)) ∧
      period .ping *
          charged 0 9 ((outputs step admitted started pings).filterMap (·.charge ⟨[1]⟩ .ping)) ≤
        replenish .ping + (9 - 0) := by
  have hnew : new = some started := (Option.some_get rfl).symm
  have hchron : RPCOp.Chronological pings := by decide
  obtain ⟨hhanded, hmetered⟩ := requests_metered hnew hchron (by decide)
  exact ⟨hhanded, hmetered ⟨[1]⟩ .ping nofun 0 9⟩

end Example

end RPC

end Consentry.Rpc
