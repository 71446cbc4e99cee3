import Consentry.Verify.RpcBehaviour
import Consentry.Verify.SentryRun

/-!
# What a peer can ask for

The rate limiter of the RPC behaviour bounds what a node does for a peer, over all its connections.
The calls of a run come in the order of their times.

* **`Node.requests_limited`**: the requests of a peer that the service is handed under a protocol
  take at most the time of the quota and that of the window to replenish.
* **`Node.received_limited`**: so many of them at most are passed on to the application.
* **`SentryRun.statuses_limited`**: a sentry answers a peer at most five times, and once more for
  each three seconds.
-/

namespace Consentry

open Lib
open Rpc

variable {F A : Type} {S : EthSpec}

/-! ## Times -/

/-- The times at which a step asks the rate limiter. -/
def NodeOp.times : NodeOp F A S → List ℕ
  | .report _ timeSinceStart => [timeSinceStart]
  | .pollRpc prunes _ _ => prunes
  | _ => []

/-- The steps come in the order of their times, which are far from the end of the clock. -/
structure NodeOp.Timed (ops : List (NodeOp F A S)) : Prop where
  chronological : (ops.flatMap times).Pairwise (· ≤ ·)
  bound : ∀ time ∈ ops.flatMap times, time < 2 ^ 63

/-! ## Requests -/

/-- The request that a message hands over. -/
def Rpc.RPCMessage.request? {Id : Type} (message : RPCMessage Id S) :
    Option (PeerId × ConnectionId × SubstreamId × InboundRequest) :=
  match message.event with
  | .ok (.request id req) => some (message.peerId, message.connId, id, req)
  | _ => none

/-- The request that is let through. -/
def Rpc.Admission.request (r : Admission) :
    PeerId × ConnectionId × SubstreamId × InboundRequest := (r.peerId, r.connId, r.id, r.req)

/-- Whose request is let through, and under which protocol. -/
def Rpc.Admission.source (r : Admission) : PeerId × Protocol := (r.peerId, r.req.protocol)

/-- Whose request the application is handed, and under which protocol. -/
def NetworkEvent.source? : NetworkEvent A S → Option (PeerId × Protocol)
  | .requestReceived peerId _ request => some (peerId, request.toOutbound.protocol)
  | _ => none

theorem Surfaces.source {message : RPCMessage (RequestId A) S} {event : NetworkEvent A S}
    (h : Surfaces message event) {source : PeerId × Protocol}
    (hsource : event.source? = some source) :
    message.request?.map (fun r => (r.1, r.2.2.2.protocol)) = some source := by
  cases h with
  | request hevent hpass =>
    unfold Rpc.RPCMessage.request?
    rw [hevent]
    cases hpass with
    | status | blocksByRange | blocksByRoot => exact hsource
  | outcome houtcome =>
    generalize message.event = report at houtcome
    cases houtcome <;> cases hsource

namespace Rpc.Admission

theorem charge_isSome (r : Admission) (peerId : PeerId) (p : Protocol) :
    (r.charge peerId p).isSome ↔ r.source = (peerId, p) := by
  unfold charge source
  split
  · next h => exact iff_of_true rfl (Prod.ext h.1 h.2.symm)
  · next h =>
    refine iff_of_false Bool.false_ne_true fun heq => h ?_
    obtain ⟨hpeer, hproto⟩ := Prod.ext_iff.1 heq
    exact ⟨hpeer, hproto.symm⟩

/-- Each request takes a token. -/
theorem one_le_charge {r : Admission} {peerId : PeerId} {p : Protocol} {c : ℕ × ℕ}
    (h : r.charge peerId p = some c) : c.1 = r.timeSinceStart ∧ 1 ≤ c.2 := by
  unfold charge at h
  split at h
  · obtain rfl := Option.some.inj h
    refine ⟨rfl, ?_⟩
    show 1 ≤ (max r.req.expectedResponses 1).toNat
    rw [UInt64.toNat_max]
    exact le_max_right _ _
  · cases h

/-- There are no more requests than tokens. -/
theorem count_le_charged {admitted : List Admission} {a b : ℕ}
    (hwithin : ∀ r ∈ admitted, a ≤ r.timeSinceStart ∧ r.timeSinceStart ≤ b) (peerId : PeerId)
    (p : Protocol) : (admitted.map (·.source)).count (peerId, p) ≤
      charged a b (admitted.filterMap (·.charge peerId p)) := by
  have hcharge : ∀ c ∈ admitted.filterMap (·.charge peerId p), (a ≤ c.1 ∧ c.1 ≤ b) ∧ 1 ≤ c.2 := by
    intro c hc
    obtain ⟨r, hr, hcharge⟩ := List.mem_filterMap.1 hc
    obtain ⟨htime, htokens⟩ := one_le_charge hcharge
    exact ⟨htime ▸ hwithin r hr, htokens⟩
  have hcount : (admitted.map (·.source)).count (peerId, p) =
      ((admitted.filterMap (·.charge peerId p)).map (·.2)).length := by
    rw [List.length_map, List.length_filterMap_eq_countP, List.count, List.countP_map]
    exact List.countP_congr fun r _ => beq_iff_eq.trans (r.charge_isSome peerId p).symm
  rw [hcount, charged_eq_sum fun c hc => (hcharge c hc).1]
  refine List.length_le_sum_of_one_le _ fun tokens htokens => ?_
  obtain ⟨c, hc, rfl⟩ := List.mem_map.1 htokens
  exact (hcharge c hc).2

end Rpc.Admission

theorem Rpc.NetworkBehaviourAction.request?_eq {Id : Type} (action : NetworkBehaviourAction Id S) :
    action.request? = action.message?.bind (·.request?) := by
  rcases action with ⟨peerId, connId, err | ⟨id, req⟩ | ⟨id, resp⟩ | ⟨id, t⟩⟩ | ⟨-⟩ <;> rfl

theorem Rpc.RPC.mem_admitted {Id : Type} {rpc : RPC Id S} {op : RPCOp Id S} {r : Admission}
    (hr : r ∈ rpc.admitted op) :
    op = .injectEvent r.timeSinceStart r.peerId r.connId (.ok (.request r.id r.req)) := by
  rcases op with _ | _ | _ | ⟨time, peerId, connId, err | ⟨id, req⟩ | ⟨id, resp⟩ | ⟨id, t⟩⟩ | prunes
  case injectEvent.ok.request =>
    rcases rpc.request_cases time peerId connId id req with
      ⟨-, -, hadmitted⟩ | ⟨err, -, -, hadmitted⟩
    · rw [hadmitted] at hr
      rw [List.mem_singleton.1 hr]
    · rw [hadmitted] at hr
      cases hr
  all_goals cases hr

theorem Rpc.RPC.admitted_times {Id : Type} (rpc : RPC Id S) (op : RPCOp Id S) :
    ((rpc.admitted op).flatMap fun r => [r.timeSinceStart]).Sublist op.times := by
  rcases op with ⟨-⟩ | ⟨-⟩ | ⟨-⟩ | ⟨time, peerId, connId, err | ⟨id, req⟩ | ⟨id, resp⟩ | ⟨id, t⟩⟩ |
    ⟨prunes⟩
  case injectEvent.ok.request =>
    rcases rpc.request_cases time peerId connId id req with
      ⟨-, -, hadmitted⟩ | ⟨err, -, -, hadmitted⟩
    · rw [hadmitted]
      exact List.Sublist.refl _
    · rw [hadmitted]
      exact List.nil_sublist _
  all_goals exact List.nil_sublist _

/-! ## Runs -/

namespace Node

variable [ScoreArith F]

theorem rpcCalls_times (node : Node F A S) (op : NodeOp F A S) :
    ((node.rpcCalls op).flatMap RPCOp.times).Sublist op.times := by
  cases op with
  | report connection time =>
    unfold rpcCalls
    dsimp only
    cases node.links[connection]? with
    | none => exact List.nil_sublist _
    | some link =>
      rw [Option.toList_some, List.flatMap_singleton]
      cases link.connection.log[link.delivered]? with
      | none => exact List.nil_sublist _
      | some event => exact List.Sublist.refl _
  | pollRpc prunes any now =>
    have hanswers : ((node.network.eth2Rpc.poll prunes).2.toList.flatMap
        node.network.actionAnswers).flatMap RPCOp.times = [] := by
      refine List.flatMap_eq_nil_iff.2 fun call hcall => ?_
      obtain ⟨peerId, id, rfl | rfl⟩ := NetworkService.mem_actionAnswers hcall
      · rfl
      · rfl
    show (List.flatMap RPCOp.times (.poll prunes :: _)).Sublist prunes
    rw [List.flatMap_cons, hanswers, List.append_nil]
    exact List.Sublist.refl _
  | _ =>
    rw [List.flatMap_eq_nil_iff.2 fun call hcall => by cases rpcCalls_cases hcall <;> rfl]
    exact List.nil_sublist _

section Run

variable [DecidableEq A] (env : NodeEnv S) (pm : PeerManager F) (discovery : Discovery)
  (metadata : NodeMetadata S) (limiter : RPCRateLimiter) (ops : List (NodeOp F A S))

/-- What a run calls of the RPC behaviour. -/
def calls : List (RPCOp (RequestId A) S) :=
  outputs (step env) rpcCalls (new pm discovery metadata limiter) ops

/-- The requests that are let through in a run. -/
def admissions : List Admission :=
  outputs RPC.step RPC.admitted ⟨limiter, []⟩ (calls env pm discovery metadata limiter ops)

theorem messages_returned :
    (reached env pm discovery metadata limiter ops).messages =
      (outputs RPC.step RPC.returned ⟨limiter, []⟩
        (calls env pm discovery metadata limiter ops)).filterMap (·.message?) := by
  have hpopped := @outputs_part _ _ _ _ _ (step env) RPC.step
    (fun node : Node F A S => node.network.eth2Rpc) rpcCalls RPC.returned (eth2Rpc_step env) ops
    (new pm discovery metadata limiter)
  have hnew : (new pm discovery metadata limiter : Node F A S).messages =
      ([] : List (NetworkBehaviourAction (RequestId A) S)).filterMap (·.message?) := rfl
  have hmessages : (reached env pm discovery metadata limiter ops).messages =
      (outputs (step env) popped (new pm discovery metadata limiter) ops).filterMap
        (·.message?) :=
    outputs_induction (I := fun log (node : Node F A S) =>
      node.messages = List.filterMap NetworkBehaviourAction.message? log)
      (fun log node op h => by rw [messages_step, h, List.filterMap_append]) ops hnew
  exact hmessages.trans (congrArg _ hpopped.symm)

/-- The service is handed requests that were let through, in order. -/
theorem requests_admitted (hnew : RPC.new = some (⟨limiter, []⟩ : RPC (RequestId A) S)) :
    (reached env pm discovery metadata limiter ops).messages.filterMap (·.request?) <+:
      (admissions env pm discovery metadata limiter ops).map (·.request) := by
  have hreturned := RPC.returned_requests hnew (calls env pm discovery metadata limiter ops)
  rw [messages_returned, List.filterMap_filterMap]
  rwa [List.filterMap_congr fun action _ => action.request?_eq] at hreturned

theorem calls_times :
    ((calls env pm discovery metadata limiter ops).flatMap RPCOp.times).Sublist
      (ops.flatMap NodeOp.times) :=
  outputs_flatMap_sublist rpcCalls_times ops _

theorem admissions_times :
    ((admissions env pm discovery metadata limiter ops).map (·.timeSinceStart)).Sublist
      (ops.flatMap NodeOp.times) := by
  rw [List.map_eq_flatMap]
  exact (outputs_flatMap_sublist RPC.admitted_times _ _).trans (calls_times ..)

/-- The quota of a peer under a protocol is kept in every window. -/
theorem admissions_within (hnew : RPC.new = some (⟨limiter, []⟩ : RPC (RequestId A) S))
    (htimed : NodeOp.Timed ops) (peerId : PeerId) {p : Protocol}
    (hafford : p = .blocksByRange →
      ∀ call ∈ calls env pm discovery metadata limiter ops, call.Affordable) (a b : ℕ) :
    RPC.period p * charged a b ((admissions env pm discovery metadata limiter ops).filterMap
      (·.charge peerId p)) ≤ RPC.replenish p + (b - a) := by
  have htimes := calls_times env pm discovery metadata limiter ops
  exact RPC.admitted_within hnew (htimed.chronological.sublist htimes)
    (fun time htime => htimed.bound time (htimes.subset htime)) peerId hafford a b

/-- A request is let through when its handler's report of it reaches the behaviour. -/
theorem admission_reported :
    ∀ r ∈ admissions env pm discovery metadata limiter ops,
      .report r.connId r.timeSinceStart ∈ ops := by
  have hcall : ∀ call ∈ calls env pm discovery metadata limiter ops,
      ∀ time peerId connId event, call = .injectEvent time peerId connId event →
        .report connId time ∈ ops := by
    refine outputs_forall (fun op hop node call hcall time peerId connId event heq => ?_) _
    subst heq
    cases rpcCalls_cases hcall
    exact hop
  refine outputs_forall (fun call hmem rpc r hr => ?_) _
  exact hcall call hmem _ _ _ _ (RPC.mem_admitted hr)

/-- **A peer's requests are limited**, over all its connections. The service is handed requests that
their handlers reported, in the order of the times of these reports, and over a window from `a` to
`b` those of a peer under a protocol take at most the quota's time plus the length of the window to
replenish, whatever else happens. Of the blocks in a range this holds as long as their time can be
computed. -/
theorem requests_limited (hnew : RPC.new = some (⟨limiter, []⟩ : RPC (RequestId A) S))
    (htimed : NodeOp.Timed ops) :
    ∃ admitted : List Admission,
      (reached env pm discovery metadata limiter ops).messages.filterMap (·.request?) =
        admitted.map (·.request) ∧
      (∀ r ∈ admitted, .report r.connId r.timeSinceStart ∈ ops) ∧
      (admitted.map (·.timeSinceStart)).Pairwise (· ≤ ·) ∧
      ∀ peerId p, (p = .blocksByRange →
          ∀ call ∈ calls env pm discovery metadata limiter ops, call.Affordable) → ∀ a b,
        RPC.period p * charged a b (admitted.filterMap (·.charge peerId p)) ≤
          RPC.replenish p + (b - a) := by
  have hrequests := List.prefix_iff_eq_take.1
    (requests_admitted env pm discovery metadata limiter ops hnew)
  rw [← List.map_take] at hrequests
  have htaken := List.take_prefix
    ((reached env pm discovery metadata limiter ops).messages.filterMap (·.request?)).length
    (admissions env pm discovery metadata limiter ops)
  refine ⟨_, hrequests, fun r hr => ?_, ?_, fun peerId p hafford a b => ?_⟩
  · exact admission_reported env pm discovery metadata limiter ops r (htaken.subset hr)
  · have htimes := admissions_times env pm discovery metadata limiter ops
    exact htimed.chronological.sublist ((htaken.sublist.map _).trans htimes)
  · refine Nat.le_trans (Nat.mul_le_mul_left _ (charged_mono (htaken.filterMap _))) ?_
    exact admissions_within env pm discovery metadata limiter ops hnew htimed peerId hafford a b

section Example

set_option maxRecDepth 10000 in
theorem handshake_requests :
    (reached plainEnv (.new 16 false) (.new false false) plainMetadata plainLimiter
      handshake).messages.filterMap (·.request?) = [(⟨[1]⟩, 0, 0, .status plainStatus)] := rfl

theorem handshake_times : handshake.flatMap NodeOp.times = [0, 1] := rfl

theorem requests_limited_handshake :
    ∃ admitted : List Admission,
      [(⟨[1]⟩, 0, 0, .status plainStatus)] = admitted.map (·.request) ∧
      (∀ r ∈ admitted, .report r.connId r.timeSinceStart ∈ handshake) ∧
      (admitted.map (·.timeSinceStart)).Pairwise (· ≤ ·) ∧
      RPC.period .status * charged 0 9 (admitted.filterMap (·.charge ⟨[1]⟩ .status)) ≤
        RPC.replenish .status + (9 - 0) := by
  have htimed : NodeOp.Timed handshake := by
    constructor <;> rw [handshake_times] <;> decide
  obtain ⟨admitted, hrequests, hreported, hordered, hlimited⟩ := requests_limited plainEnv
    (.new 16 false) (.new false false) plainMetadata plainLimiter handshake rfl htimed
  rw [handshake_requests] at hrequests
  exact ⟨admitted, hrequests, hreported, hordered, hlimited ⟨[1]⟩ .status nofun 0 9⟩

end Example

/-- The application is handed requests that were let through, in order. -/
theorem sources_admitted (hnew : RPC.new = some (⟨limiter, []⟩ : RPC (RequestId A) S)) :
    ((reached env pm discovery metadata limiter ops).events.filterMap (·.source?)).Sublist
      ((admissions env pm discovery metadata limiter ops).map (·.source)) := by
  have htold : ((reached env pm discovery metadata limiter ops).events.filterMap
      (·.source?)).Sublist ((reached env pm discovery metadata limiter ops).messages.filterMap
        fun message => message.request?.map fun r => (r.1, r.2.2.2.protocol)) := by
    refine events_told env pm discovery metadata limiter ops (fun event hrpc => ?_)
      fun _ _ _ hsurfaces => hsurfaces.source
    cases event with
    | requestReceived => cases hrpc
    | _ => rfl
  have hrequests := requests_admitted env pm discovery metadata limiter ops hnew
  have hsources := hrequests.map fun r => (r.1, r.2.2.2.protocol)
  rw [List.map_filterMap, List.map_map] at hsources
  exact htold.trans hsources.sublist

/-- **The application is handed few requests of a peer**, in a run from `a` to `b`. -/
theorem received_limited (hnew : RPC.new = some (⟨limiter, []⟩ : RPC (RequestId A) S))
    (htimed : NodeOp.Timed ops) {a b : ℕ}
    (hwithin : ∀ time ∈ ops.flatMap NodeOp.times, a ≤ time ∧ time ≤ b) (peerId : PeerId)
    {p : Protocol} (hafford : p = .blocksByRange →
      ∀ call ∈ calls env pm discovery metadata limiter ops, call.Affordable) :
    RPC.period p * ((reached env pm discovery metadata limiter ops).events.filterMap
      (·.source?)).count (peerId, p) ≤ RPC.replenish p + (b - a) := by
  have htimes := admissions_times env pm discovery metadata limiter ops
  have hcount := (sources_admitted env pm discovery metadata limiter ops hnew).count_le (peerId, p)
  have hcharged := Admission.count_le_charged (fun r hr => hwithin r.timeSinceStart
    (htimes.subset (List.mem_map_of_mem hr))) peerId p
  exact (Nat.mul_le_mul_left _ (hcount.trans hcharged)).trans
    (admissions_within env pm discovery metadata limiter ops hnew htimed peerId hafford a b)

end Run

end Node

/-! ## The statuses of a sentry -/

theorem NetworkEvent.asksStatus_iff (event : NetworkEvent A S) (peerId : PeerId) :
    event.asksStatus (fun asker _ => asker = peerId) = true ↔
      event.source? = some (peerId, .status) := by
  cases event with
  | requestReceived asker id request =>
    cases request with
    | status msg =>
      refine decide_eq_true_iff.trans ⟨fun h => h ▸ rfl, fun h => ?_⟩
      exact congrArg Prod.fst (Option.some.inj h)
    | blocksByRange | blocksByRoot => exact ⟨nofun, nofun⟩
  | _ => exact ⟨nofun, nofun⟩

namespace SentryRun

variable [ScoreArith F] {G : GossipTypes} (r : SentryRun F S G)

/-- **A sentry answers a peer at most five times**, and once more for each three seconds of the run,
which goes from `a` to `b`. -/
theorem statuses_limited (hnew : RPC.new = some (⟨r.limiter, []⟩ : RPC (RequestId ℕ) S))
    (htimed : NodeOp.Timed r.nodeRun.ops) {a b : ℕ}
    (hwithin : ∀ time ∈ r.nodeRun.ops.flatMap NodeOp.times, a ≤ time ∧ time ≤ b)
    (peerId : PeerId) :
    r.nodeRun.ops.countP (·.responds fun asker _ => asker = peerId) ≤
      5 + (b - a) / (3 * 10 ^ 9) := by
  have hlimited : RPC.period .status * (r.nodeRun.node.events.filterMap
      (·.source?)).count (peerId, .status) ≤ RPC.replenish .status + (b - a) :=
    Node.received_limited _ _ _ _ _ _ hnew htimed hwithin peerId nofun
  have hasked : r.nodeRun.node.events.countP (·.asksStatus fun asker _ => asker = peerId) =
      (r.nodeRun.node.events.filterMap (·.source?)).count (peerId, .status) := by
    rw [List.count_filterMap]
    exact List.countP_congr fun event _ => (event.asksStatus_iff peerId).trans beq_iff_eq.symm
  have hperiod : RPC.period .status = 3 * 10 ^ 9 := rfl
  have hreplenish : RPC.replenish .status = 15 * 10 ^ 9 := rfl
  rw [hperiod, hreplenish] at hlimited
  rw [countP_responds, sentry_network, hasked]
  omega

section Example

set_option maxRecDepth 10000 in
theorem askedSentry_times : askedSentry.nodeRun.ops.flatMap NodeOp.times = [0] := rfl

theorem statuses_limited_asked :
    askedSentry.nodeRun.ops.countP (·.responds fun asker _ => asker = ⟨[1]⟩) ≤
      5 + (1 - 0) / (3 * 10 ^ 9) := by
  have htimed : NodeOp.Timed askedSentry.nodeRun.ops := by
    constructor <;> rw [askedSentry_times] <;> decide
  refine statuses_limited askedSentry rfl htimed ?_ ⟨[1]⟩
  rw [askedSentry_times]
  decide

end Example

end SentryRun

end Consentry
