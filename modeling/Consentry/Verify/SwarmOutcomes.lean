import Consentry.Lib.Spread
import Consentry.Verify.OutboundChunks
import Consentry.Verify.SwarmResponses

/-!
# Requests of the application

A request goes from the application to the queue of the RPC behaviour, and from there to the handler
of one connection to the peer. What comes of it is reported by this handler, and told to the
application.

* **`Node.requests_spread`**: the handlers of the connections to a peer are together asked to make
  the requests that the application makes of this peer, none of them twice.
* **`Node.responses_bounded`**: the application is told of no more responses than its requests of
  the peer expect.
-/

namespace Consentry

open Lib
open Rpc

variable {F A : Type} {S : EthSpec}

/-! ## Requests on their way -/

namespace Rpc

variable {Id : Type} [DecidableEq Id]

/-- The request under an id that an event brings to the handler. -/
def RPCSend.asked? (id : Id) : RPCSend Id S → Option OutboundRequest
  | .request id' req => if id' = id then some req else none
  | _ => none

def Call.asked? (id : Id) : Call Id S → Option OutboundRequest
  | .injectEvent event => event.asked? id
  | _ => none

/-- The request of a peer that an action carries. -/
def NetworkBehaviourAction.asked? (peerId : PeerId) (id : Id) :
    NetworkBehaviourAction Id S → Option OutboundRequest
  | .notifyHandler peerId' _ event => if peerId' = peerId then event.asked? id else none
  | .generateEvent _ => none

/-- The request of a peer that a call of the behaviour makes. -/
def RPCOp.asked? (peerId : PeerId) (id : Id) : RPCOp Id S → Option OutboundRequest
  | .sendRequest peerId' id' req => if peerId' = peerId ∧ id' = id then some req else none
  | _ => none

theorem Call.asked?_eq (id : Id) (call : Call Id S) :
    call.asked? id = call.event?.bind (·.asked? id) := by
  cases call <;> rfl

/-- **The requests that the behaviour queues** are those that it is asked to make. -/
theorem RPC.queued_requests (peerId : PeerId) (id : Id) (rpc : RPC Id S) (call : RPCOp Id S) :
    (rpc.queued call).filterMap (·.asked? peerId id) = [call].filterMap (·.asked? peerId id) := by
  cases call with
  | injectEvent time peerId' connId event =>
    rcases rpc.queued_injectEvent time peerId' connId event with hqueued | ⟨_, _, err, -, hqueued⟩
    · rw [hqueued]
      rfl
    · rw [hqueued]
      simp [NetworkBehaviourAction.asked?, RPCSend.asked?, RPCOp.asked?]
  | sendRequest peerId' id' req =>
    by_cases hpeer : peerId' = peerId
    · by_cases hid : id' = id
      · simp [RPC.queued, NetworkBehaviourAction.asked?, RPCSend.asked?, RPCOp.asked?, hpeer,
          hid]
      · simp [RPC.queued, NetworkBehaviourAction.asked?, RPCSend.asked?, RPCOp.asked?, hid]
    · simp [RPC.queued, NetworkBehaviourAction.asked?, RPCOp.asked?, hpeer]
  | sendResponse peerId' id' event =>
    simp [RPC.queued, NetworkBehaviourAction.asked?, RPCSend.asked?, RPCOp.asked?]
  | shutdown peerId' id' reason =>
    simp [RPC.queued, NetworkBehaviourAction.asked?, RPCSend.asked?, RPCOp.asked?]
  | poll prunes => rfl

theorem RPC.outputs_queued_requests (peerId : PeerId) (id : Id) (calls : List (RPCOp Id S))
    (rpc : RPC Id S) :
    (outputs RPC.step RPC.queued rpc calls).filterMap (·.asked? peerId id) =
      calls.filterMap (·.asked? peerId id) :=
  outputs_filterMap_of_along (fun rpc call _ => RPC.queued_requests peerId id rpc call)
    (Along.of_forall (fun _ _ => trivial) calls rpc)

end Rpc

/-- The request under an id that a step puts on its way to the handler. -/
def LinkOp.asked? [DecidableEq A] (id : RequestId A) : LinkOp A S → Option OutboundRequest
  | .send event => event.asked? id
  | _ => none

/-! ## Responses on their way -/

/-- What a response carries, if it is not the end of a stream. -/
def Rpc.Response.chunk? : Rpc.Response S → Option (RPCResponse S)
  | .status msg => some (.status msg)
  | .blocksByRange block => block.map .blocksByRange
  | .blocksByRoot block => block.map .blocksByRoot

/-- The response to a request of the application that it is told of. -/
def NetworkEvent.chunk? [DecidableEq A] (peerId : PeerId) (id : A) :
    NetworkEvent A S → Option (RPCResponse S)
  | .responseReceived peerId' id' response =>
    if peerId' = peerId ∧ id' = id then response.chunk? else none
  | _ => none

namespace Rpc

variable {Id : Type} [DecidableEq Id]

/-- The response to a request that a handler reports. -/
def HandlerEvent.chunk? (id : Id) : HandlerEvent Id S → Option (RPCResponse S)
  | .ok (.response id' response) => if id' = id then some response else none
  | _ => none

/-- The response of a peer in a message. -/
def RPCMessage.chunk? (peerId : PeerId) (id : Id) (message : RPCMessage Id S) :
    Option (RPCResponse S) :=
  if message.peerId = peerId then message.event.chunk? id else none

namespace Connection

/-- The responses under an id that have been reported. -/
theorem length_chunks (id : Id) (log : List (HandlerEvent Id S)) :
    (log.filterMap (·.chunk? id)).length = responses id log := by
  unfold responses
  induction log with
  | nil => rfl
  | cons event log ih =>
    rw [List.map_cons, List.sum_cons, ← ih]
    rcases event with _ | _ | ⟨id', response⟩ | _
    · exact (Nat.zero_add _).symm
    · exact (Nat.zero_add _).symm
    · by_cases hid : id' = id
      · simp [HandlerEvent.chunk?, RPCHandler.reported, hid, Nat.add_comm]
      · simp [HandlerEvent.chunk?, RPCHandler.reported, hid]
    · exact (Nat.zero_add _).symm

theorem sum_requested (id : Id) (calls : List (Call Id S)) :
    (calls.map (requested id)).sum =
      ((calls.filterMap (·.asked? id)).map (·.expectedResponses.toNat)).sum := by
  induction calls with
  | nil => rfl
  | cons call calls ih =>
    rw [List.map_cons, List.sum_cons, ih]
    rcases call with (⟨id', req⟩ | _ | _) | _ | _ | _ | _
    · by_cases hid : id' = id
      · simp [Call.asked?, RPCSend.asked?, requested, RPCHandler.expected, hid]
      · simp [Call.asked?, RPCSend.asked?, requested, RPCHandler.expected, hid]
    all_goals exact Nat.zero_add _

/-- The responses that a connection reports under an id are expected. -/
theorem chunks_le (errorText : ErrorType → String) (calls : List (Call Id S)) (id : Id) :
    ((calls.foldl (Connection.step errorText) new).log.filterMap (·.chunk? id)).length ≤
      ((calls.filterMap (·.asked? id)).map (·.expectedResponses.toNat)).sum := by
  have hnew : (new : Connection Id S).Entitled id 0 := ⟨nofun, Nat.le_refl 0⟩
  have hbounded := (hnew.run errorText calls).bounded
  rw [Nat.zero_add, sum_requested] at hbounded
  rw [length_chunks]
  refine Nat.le_trans ?_ hbounded
  unfold entitled
  omega

end Connection

end Rpc

theorem Outcome.chunk [DecidableEq A] {peerId peerId' : PeerId} {id : A}
    {report : HandlerEvent (RequestId A) S} {event : NetworkEvent A S}
    {response : RPCResponse S} (h : Outcome peerId' report event)
    (hchunk : event.chunk? peerId id = some response) :
    peerId' = peerId ∧ report.chunk? (.application id) = some response := by
  have hsplit : ∀ {id' : A} {res : Rpc.Response S} {chunk : RPCResponse S},
      (NetworkEvent.responseReceived peerId' id' res).chunk? peerId id = some response →
      res.chunk? = some chunk →
      peerId' = peerId ∧ HandlerEvent.chunk? (RequestId.application id)
        (.ok (.response (.application id') chunk)) = some response := by
    intro id' res chunk hsome hres
    dsimp only [NetworkEvent.chunk?] at hsome
    split at hsome
    · next hsame =>
      obtain ⟨rfl, rfl⟩ := hsame
      exact ⟨rfl, (if_pos rfl).trans (hres.symm.trans hsome)⟩
    · cases hsome
  cases h with
  | failed => cases hchunk
  | status id' msg => exact hsplit hchunk rfl
  | blocksByRange id' block => exact hsplit hchunk rfl
  | blocksByRoot id' block => exact hsplit hchunk rfl
  | endOfRange | endOfRoot =>
    dsimp only [NetworkEvent.chunk?] at hchunk
    split at hchunk <;> cases hchunk

theorem Surfaces.chunk [DecidableEq A] {peerId : PeerId} {id : A}
    {message : RPCMessage (RequestId A) S} {event : NetworkEvent A S} {response : RPCResponse S}
    (h : Surfaces message event) (hchunk : event.chunk? peerId id = some response) :
    message.chunk? peerId (.application id) = some response := by
  cases h with
  | request => cases hchunk
  | outcome houtcome =>
    obtain ⟨hpeer, hreport⟩ := houtcome.chunk hchunk
    exact (if_pos hpeer).trans hreport

/-- The request of a peer that the application makes. -/
def NodeOp.asked? [DecidableEq A] (peerId : PeerId) (id : A) :
    NodeOp F A S → Option OutboundRequest
  | .sendRequest peerId' id' request =>
    if peerId' = peerId ∧ id' = id then some request.toOutbound else none
  | _ => none

namespace Node

variable [ScoreArith F] [DecidableEq A] {issued : PeerId → RequestId A → Prop}
  {accepted : ConnectionId → InboundRequest → Prop} {node : Node F A S} {op : NodeOp F A S}
  {peerId : PeerId} {connections : List ConnectionId}

theorem rpcCalls_requests (node : Node F A S) (op : NodeOp F A S) (peerId : PeerId) (id : A) :
    (node.rpcCalls op).filterMap (·.asked? peerId (.application id)) =
      [op].filterMap (·.asked? peerId id) := by
  cases op with
  | sendRequest peerId' requestId request =>
    by_cases hsame : peerId' = peerId ∧ requestId = id
    · simp [rpcCalls, RPCOp.asked?, NodeOp.asked?, hsame]
    · have hother : ¬(peerId' = peerId ∧ RequestId.application requestId = .application id) :=
        fun h => hsame ⟨h.1, RequestId.application.inj h.2⟩
      simp only [rpcCalls, List.filterMap_cons, List.filterMap_nil, RPCOp.asked?, NodeOp.asked?,
        if_neg hsame, if_neg hother]
  | pollPm inp =>
    -- what the service sends by itself has another id
    refine List.filterMap_eq_nil_iff.2 fun call hcall => ?_
    cases rpcCalls_cases hcall with
    | ping | metaDataRequest => exact if_neg fun h => by cases h.2
    | shutdown => rfl
  | _ =>
    refine List.filterMap_eq_nil_iff.2 fun call hcall => ?_
    cases rpcCalls_cases hcall <;> rfl

theorem queued_requests (node : Node F A S) (op : NodeOp F A S) (peerId : PeerId) (id : A) :
    (node.queued op).filterMap (·.asked? peerId (.application id)) =
      [op].filterMap (·.asked? peerId id) :=
  (RPC.outputs_queued_requests peerId _ _ _).trans (node.rpcCalls_requests op peerId id)

theorem outputs_queued_requests (env : NodeEnv S) (peerId : PeerId) (id : A)
    (ops : List (NodeOp F A S)) (node : Node F A S) :
    (outputs (step env) queued node ops).filterMap (·.asked? peerId (.application id)) =
      ops.filterMap (·.asked? peerId id) :=
  outputs_filterMap_of_along (fun node op _ => node.queued_requests op peerId id)
    (Along.of_forall (fun _ _ => trivial) ops node)

omit [ScoreArith F] in
/-- Of the connections to the peer, only the one that the swarm picks gets the request. -/
theorem actionOps_asked {action : NetworkBehaviourAction (RequestId A) S}
    (haction : action.Addressed issued) (hnodup : connections.Nodup)
    (hpeer : ∀ c ∈ connections, ∀ p, node.links[c]?.map (·.peerId) = some p → p = peerId)
    (id : RequestId A) (any : ConnectionId) :
    (connections.flatMap fun c => (node.actionOps c any action).filterMap (·.asked? id)).Sublist
      ([action].filterMap (·.asked? peerId id)) := by
  have hnone : (∀ c ∈ connections, (node.actionOps c any action).filterMap (·.asked? id) = []) →
      (connections.flatMap fun c => (node.actionOps c any action).filterMap (·.asked? id)).Sublist
        ([action].filterMap (·.asked? peerId id)) := by
    intro hall
    rw [List.flatMap_eq_nil_iff.2 hall]
    exact List.nil_sublist _
  have hquiet : ∀ (p : Prop) [Decidable p] (linkOp : LinkOp A S), (p → linkOp.asked? id = none) →
      (if p then [linkOp] else []).filterMap (·.asked? id) = [] := by
    intro p _ linkOp hlinkOp
    split
    · rw [List.filterMap_cons, hlinkOp ‹p›]
      rfl
    · rfl
  cases haction with
  | event message => exact hnone fun _ _ => rfl
  | shutdown hid reason => exact hnone fun c _ => hquiet _ _ fun _ => rfl
  | response peerId' connection id' response => exact hnone fun c _ => hquiet _ _ fun _ => rfl
  | @request peerId' id' hid req =>
    by_cases hany : any ∈ connections
    · refine (flatMap_sublist_of_only hnodup any fun c _ hne => hquiet _ _ fun hto =>
        absurd hto.1.symm hne).trans ?_
      split
      · next hto =>
        rw [hpeer any hany peerId' hto.2]
        simp only [List.filterMap_cons, List.filterMap_nil, LinkOp.asked?,
          NetworkBehaviourAction.asked?, if_true]
        exact List.Sublist.refl _
      · exact List.nil_sublist _
    · exact hnone fun c hc => hquiet _ _ fun hto => absurd hc (hto.1 ▸ hany)

/-- **A request that is sent to a handler** has been taken from the queue of the behaviour, for the
peer of the connection, and is sent to no other connection. -/
theorem sentOn_asked (hactions : ∀ action ∈ node.network.eth2Rpc.events, action.Addressed issued)
    (hnodup : connections.Nodup)
    (hpeer : ∀ c ∈ connections, ∀ p, node.links[c]?.map (·.peerId) = some p → p = peerId)
    (id : RequestId A) (op : NodeOp F A S) :
    (connections.flatMap fun c => (node.sentOn c op).filterMap (·.asked? id)).Sublist
      ((node.popped op).filterMap (·.asked? peerId id)) := by
  have hsent : (connections.flatMap fun c => (node.sentOn c op).filterMap (·.asked? id)).Sublist
      (connections.flatMap fun c => (node.linkOps c op).filterMap (·.asked? id)) :=
    List.Sublist.flatMap_right _ fun c _ => sentOn_filterMap (·.asked? id) c node op
  refine hsent.trans ?_
  have hquiet : (∀ c ∈ connections, (node.linkOps c op).filterMap (·.asked? id) = []) →
      (connections.flatMap fun c => (node.linkOps c op).filterMap (·.asked? id)).Sublist
        ((node.popped op).filterMap (·.asked? peerId id)) := by
    intro hall
    rw [List.flatMap_eq_nil_iff.2 hall]
    exact List.nil_sublist _
  cases op with
  | pollRpc prunes any now =>
    rw [popped_pollRpc]
    unfold linkOps
    dsimp only
    rw [RPC.poll_action]
    cases haction : node.network.eth2Rpc.events.head? with
    | none => exact (List.flatMap_eq_nil_iff.2 fun _ _ => rfl) ▸ List.nil_sublist _
    | some action =>
      rw [Option.toList_some]
      simp only [List.flatMap_singleton]
      exact actionOps_asked (hactions action (List.mem_of_mem_head? haction)) hnodup hpeer id any
  | _ =>
    refine hquiet fun c _ => List.filterMap_eq_nil_iff.2 fun linkOp hlinkOp => ?_
    cases linkOps_mem hlinkOp <;> rfl

/-- A connection stays with its peer. -/
theorem peerId_run (env : NodeEnv S) {c : ConnectionId}
    (hpeer : node.links[c]?.map (·.peerId) = some peerId) (ops : List (NodeOp F A S)) :
    (ops.foldl (step env) node).links[c]?.map (·.peerId) = some peerId := by
  induction ops generalizing node with
  | nil => exact hpeer
  | cons op ops ih => exact ih (peerId_step env hpeer op)

/-- The requests that are sent to the handlers of connections to a peer. -/
theorem sent_asked (env : NodeEnv S) (hinternal : ∀ peerId, issued peerId .internal)
    (hnodup : connections.Nodup) (id : RequestId A) {ops : List (NodeOp F A S)}
    (hops : ∀ op ∈ ops, op.Allowed issued accepted) (hs : node.Sound issued accepted)
    (hpeer : ∀ c ∈ connections,
      (ops.foldl (step env) node).links[c]?.map (·.peerId) = some peerId) :
    (connections.flatMap fun c =>
      (outputs (step env) (sentOn c) node ops).filterMap (·.asked? id)).Subperm
      ((outputs (step env) popped node ops).filterMap (·.asked? peerId id)) := by
  induction ops generalizing node with
  | nil =>
    have hnone : (connections.flatMap fun c =>
        (outputs (step env) (sentOn c) node []).filterMap (·.asked? id)) = [] :=
      List.flatMap_eq_nil_iff.2 fun _ _ => rfl
    rw [hnone]
    exact List.nil_subperm
  | cons op ops ih =>
    have hnow : ∀ c ∈ connections, ∀ p, node.links[c]?.map (·.peerId) = some p → p = peerId := by
      intro c hc p hp
      exact Option.some.inj ((peerId_run env hp (op :: ops)).symm.trans (hpeer c hc))
    have hfirst := (sentOn_asked hs.actions hnodup hnow id op).subperm
    have hrest := ih (fun op' hop' => hops op' (List.mem_cons_of_mem op hop'))
      (hs.step env hinternal (hops op List.mem_cons_self)) hpeer
    simp only [outputs, List.filterMap_append]
    exact (List.flatMap_append_perm _ _ _).symm.subperm.trans (hfirst.append hrest)

/-! ### Responses -/

/-- The connections to a peer. -/
def connectionsTo (node : Node F A S) (peerId : PeerId) : List ConnectionId :=
  (List.range node.links.length).filter fun c => node.links[c]?.map (·.peerId) = some peerId

omit [ScoreArith F] [DecidableEq A] in
theorem mem_connectionsTo {c : ConnectionId} (hpeer : node.links[c]?.map (·.peerId) = some peerId) :
    c ∈ node.connectionsTo peerId := by
  refine List.mem_filter.2 ⟨List.mem_range.2 ?_, decide_eq_true hpeer⟩
  by_contra hge
  rw [List.getElem?_eq_none (Nat.le_of_not_lt hge)] at hpeer
  cases hpeer

omit [ScoreArith F] in
/-- What the service is told of a peer, by the connections to it. -/
theorem told_spread (hs : node.Sound issued accepted) (peerId : PeerId) (id : RequestId A) :
    (node.told.filterMap (·.chunk? peerId id)).Subperm
      ((node.connectionsTo peerId).flatMap fun c => (node.toldOn c).filterMap (·.chunk? id)) := by
  have hof : node.told.filterMap (·.chunk? peerId id) =
      (node.told.filter (·.peerId = peerId)).filterMap (·.event.chunk? id) := by
    rw [List.filterMap_filter]
    refine List.filterMap_congr fun message _ => ?_
    unfold RPCMessage.chunk?
    by_cases hpeer : message.peerId = peerId <;> simp [hpeer]
  have hmem : ∀ message ∈ node.told.filter (·.peerId = peerId),
      message.connId ∈ node.connectionsTo peerId := by
    intro message hmessage
    obtain ⟨htold, hpeer⟩ := List.mem_filter.1 hmessage
    exact mem_connectionsTo (of_decide_eq_true hpeer ▸ hs.peers message htold)
  have hparts := perm_flatMap_filter (fun message : RPCMessage (RequestId A) S => message.connId)
    (List.nodup_range.filter _) hmem
  rw [hof]
  refine (hparts.filterMap _).subperm.trans ?_
  rw [List.filterMap_flatMap]
  refine (List.Sublist.flatMap_right _ fun c _ => ?_).subperm
  unfold toldOn
  rw [List.filterMap_map]
  exact (List.filter_sublist.filter _).filterMap _

omit [ScoreArith F] [DecidableEq A] in
theorem reported_sublist_log (node : Node F A S) (c : ConnectionId) :
    (node.reported c).Sublist (Link.connection? node.links[c]?).log := by
  unfold reported
  cases node.links[c]? with
  | none => exact List.Sublist.refl []
  | some link => exact List.take_sublist _ _

section Run

variable (env : NodeEnv S) (peerManager : PeerManager F) (discovery : Discovery)
  (metadata : NodeMetadata S) (limiter : RPCRateLimiter) (ops : List (NodeOp F A S))

/-- **Requests are spread over the connections**: the handlers of the connections to a peer are
together asked to make the requests that the application makes of this peer, none of them twice. -/
theorem requests_spread (hnodup : connections.Nodup)
    (hpeer : ∀ c ∈ connections,
      (reached env peerManager discovery metadata limiter ops).links[c]?.map (·.peerId) =
        some peerId) (id : A) :
    (connections.flatMap fun c =>
      (outputs (step env) (callsOn c) (new peerManager discovery metadata limiter) ops).filterMap
        (·.asked? (.application id))).Subperm (ops.filterMap (·.asked? peerId id)) := by
  have hsound : (new peerManager discovery metadata limiter : Node F A S).Sound (issuedIn ops)
      (acceptedIn ops) := sound_new ..
  have hcalls : (connections.flatMap fun c =>
      (outputs (step env) (callsOn c) (new peerManager discovery metadata limiter) ops).filterMap
        (·.asked? (.application id))).Sublist (connections.flatMap fun c =>
      (outputs (step env) (sentOn c) (new peerManager discovery metadata limiter) ops).filterMap
        (·.asked? (.application id))) := by
    refine List.Sublist.flatMap_right _ fun c _ => ?_
    rw [Call.filterMap_event? (·.asked? (.application id)) (Call.asked?_eq _)]
    exact (calls_sent env (fun _ => trivial) (fun _ hop => allowed_of_mem hop) hsound c
      rfl).filterMap _
  rw [← outputs_queued_requests env peerId id ops (new peerManager discovery metadata limiter)]
  refine hcalls.subperm.trans ?_
  refine (sent_asked env (fun _ => trivial) hnodup _ (fun _ hop => allowed_of_mem hop) hsound
    hpeer).trans ?_
  exact ((popped_sublist_queued env rfl ops).filterMap _).subperm

/-- The connection that a run reaches is reached by the calls of its handler. -/
theorem reached_connection (c : ConnectionId) :
    Link.connection? (reached env peerManager discovery metadata limiter ops).links[c]? =
      (outputs (step env) (callsOn c) (new peerManager discovery metadata limiter) ops).foldl
        (Connection.step env.errorText) .new :=
  @foldl_part _ _ _ _ (step env) (Connection.step env.errorText)
    (fun node : Node F A S => Link.connection? node.links[c]?) (callsOn c)
    (connection_step env c) ops (new peerManager discovery metadata limiter)

/-- The responses that the application is told of are in the messages, each once and in order. -/
theorem chunks_told (peerId : PeerId) (id : A) :
    ((reached env peerManager discovery metadata limiter ops).events.filterMap
      (·.chunk? peerId id)).Sublist
      ((reached env peerManager discovery metadata limiter ops).told.filterMap
        (·.chunk? peerId (.application id))) := by
  refine (events_told env peerManager discovery metadata limiter ops (fun event hrpc => ?_)
    fun _ _ _ hsurfaces => hsurfaces.chunk).trans ((List.sublist_append_left _ _).filterMap _)
  cases event with
  | responseReceived => cases hrpc
  | _ => rfl

/-- What the service is told of a connection has been reported by its handler. -/
theorem toldOn_sublist_log (c : ConnectionId) :
    ((reached env peerManager discovery metadata limiter ops).toldOn c).Sublist
      ((outputs (step env) (callsOn c) (new peerManager discovery metadata limiter) ops).foldl
        (Connection.step env.errorText) .new).log := by
  rw [← reached_connection]
  exact ((settled_run env peerManager discovery metadata limiter ops).sound.inOrder c).trans
    (reported_sublist_log _ c)

/-- **No response without a request.** The application is told of no more responses of a peer under
an id than the requests expect that it has made of this peer under the id. -/
theorem responses_bounded (peerId : PeerId) (id : A) :
    ((reached env peerManager discovery metadata limiter ops).events.filterMap
      (·.chunk? peerId id)).length ≤
      ((ops.filterMap (·.asked? peerId id)).map (·.expectedResponses.toNat)).sum := by
  have hsound := (settled_run env peerManager discovery metadata limiter ops).sound
  have hpeer : ∀ c ∈ (reached env peerManager discovery metadata limiter ops).connectionsTo peerId,
      (reached env peerManager discovery metadata limiter ops).links[c]?.map (·.peerId) =
        some peerId := fun c hc => of_decide_eq_true (List.mem_filter.1 hc).2
  have hspread := requests_spread env peerManager discovery metadata limiter ops
    (List.nodup_range.filter _) hpeer id
  have htold := (told_spread hsound peerId (.application id)).length_le
  refine Nat.le_trans (Nat.le_trans (chunks_told ..).length_le htold) ?_
  refine Nat.le_trans ?_ (sum_map_le_of_subperm hspread (·.expectedResponses.toNat))
  rw [List.length_flatMap, sum_map_flatMap]
  refine List.sum_le_sum fun c _ => ?_
  have hlog := toldOn_sublist_log env peerManager discovery metadata limiter ops c
  exact (hlog.filterMap _).length_le.trans (Connection.chunks_le env.errorText _ _)

end Run

end Node

end Consentry
