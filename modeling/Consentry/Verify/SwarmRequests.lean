import Consentry.Verify.PlainWire
import Consentry.Verify.SwarmEvents

/-!
# Requests and their outcomes in the swarm

Peers make requests of a node, and the application of the node makes requests of peers.

* **`Node.reports_told`**: what the handlers report reaches the service, in order.
* **`Node.requests_settled`**: a request of a peer is answered by the service, handed to the
  application or neither, but never more than one of these, nor twice.
* **`Node.outcomes_solicited`**: what the application is told about requests of its own is about
  requests that it made.

The books (`Node.Settled`) compare the requests that were settled with those that wait in the queue
of the RPC behaviour and those that the handlers have reported.
-/

namespace Consentry

open Lib
open Rpc

variable {F A : Type} {S : EthSpec}

/-! ## What the application is told -/

/-- The request that the application is handed for one of a peer. -/
inductive Passes : InboundRequest → Rpc.Request → Prop
  | status (msg : StatusMessage) : Passes (.status msg) (.status msg)
  | blocksByRange (req : OldBlocksByRangeRequest) (hstep : req.step ≠ 0) :
    Passes (.blocksByRange req)
      (.blocksByRange ⟨req.startSlot, if 1 < req.step then 1 else req.count⟩)
  | blocksByRoot (req : BlocksByRootRequest) : Passes (.blocksByRoot req) (.blocksByRoot req)

/-- The application is told of an event of a handler about a request of its own. -/
inductive Outcome (peerId : PeerId) : HandlerEvent (RequestId A) S → NetworkEvent A S → Prop
  | failed (id : A) (proto : Protocol) (error : RPCError) :
    Outcome peerId (.error (.outbound (.application id) proto error)) (.rpcFailed peerId id)
  | status (id : A) (msg : StatusMessage) :
    Outcome peerId (.ok (.response (.application id) (.status msg)))
      (.responseReceived peerId id (.status msg))
  | blocksByRange (id : A) (block : SignedBeaconBlock S) :
    Outcome peerId (.ok (.response (.application id) (.blocksByRange block)))
      (.responseReceived peerId id (.blocksByRange (some block)))
  | blocksByRoot (id : A) (block : SignedBeaconBlock S) :
    Outcome peerId (.ok (.response (.application id) (.blocksByRoot block)))
      (.responseReceived peerId id (.blocksByRoot (some block)))
  | endOfRange (id : A) :
    Outcome peerId (.ok (.endOfStream (.application id) .blocksByRange))
      (.responseReceived peerId id (.blocksByRange none))
  | endOfRoot (id : A) :
    Outcome peerId (.ok (.endOfStream (.application id) .blocksByRoot))
      (.responseReceived peerId id (.blocksByRoot none))

/-- The application is told of a message. -/
inductive Surfaces (message : RPCMessage (RequestId A) S) : NetworkEvent A S → Prop
  | request {id : SubstreamId} {req : InboundRequest} {request : Rpc.Request}
    (hevent : message.event = .ok (.request id req)) (hpass : Passes req request) :
    Surfaces message (.requestReceived message.peerId (message.connId, id) request)
  | outcome {event : NetworkEvent A S} (houtcome : Outcome message.peerId message.event event) :
    Surfaces message event

namespace NetworkService

variable [ScoreArith F]

omit [ScoreArith F] in
theorem injectResponse_surfaces (bits : Bitfields S) (n : NetworkService F A S)
    {message : RPCMessage (RequestId A) S} {id : RequestId A} {resp : RPCResponse S}
    (hevent : message.event = .ok (.response id resp)) {event : NetworkEvent A S}
    (h : event ∈ (n.injectResponse bits message.peerId id resp).2) : Surfaces message event := by
  have houtcome : Outcome message.peerId (.ok (.response id resp)) event := by
    cases id with
    | internal => cases resp <;> cases h
    | application id =>
      cases resp with
      | pong | metaData => cases h
      | status msg => exact Option.some.inj h ▸ .status id msg
      | blocksByRange block => exact Option.some.inj h ▸ .blocksByRange id block
      | blocksByRoot block => exact Option.some.inj h ▸ .blocksByRoot id block
  rw [← hevent] at houtcome
  exact .outcome houtcome

theorem injectRequest_surfaces (n : NetworkService F A S) {message : RPCMessage (RequestId A) S}
    {id : SubstreamId} {req : InboundRequest} (hevent : message.event = .ok (.request id req))
    (now : Instant) {event : NetworkEvent A S}
    (h : event ∈ (n.injectRequest message.peerId (message.connId, id) req now).2) :
    Surfaces message event := by
  cases req with
  | ping | metaData | goodbye => cases h
  | status msg => exact Option.some.inj h ▸ .request hevent (.status msg)
  | blocksByRange req =>
    unfold injectRequest at h
    dsimp only at h
    split at h
    · cases h
    · next hstep => exact Option.some.inj h ▸ .request hevent (.blocksByRange req hstep)
  | blocksByRoot req => exact Option.some.inj h ▸ .request hevent (.blocksByRoot req)

/-- **What comes of a message.** -/
theorem injectRpcEvent_surfaces (bits : Bitfields S) (n : NetworkService F A S)
    (message : RPCMessage (RequestId A) S) (now : Instant) {event : NetworkEvent A S}
    (h : event ∈ (n.injectRpcEvent bits message now).2) : Surfaces message event := by
  unfold injectRpcEvent at h
  dsimp only at h
  split at h
  · cases h
  · split at h
    · cases h
    · next id proto error hevent =>
      cases id with
      | internal => cases h
      | application id =>
        obtain rfl := Option.some.inj h
        exact .outcome (hevent ▸ .failed id proto error)
    · next id request hevent => exact n.injectRequest_surfaces hevent now h
    · next id resp hevent => exact n.injectResponse_surfaces bits hevent h
    · next id termination hevent =>
      cases id with
      | internal => cases h
      | application id =>
        obtain rfl := Option.some.inj h
        cases termination with
        | blocksByRange => exact .outcome (hevent ▸ .endOfRange id)
        | blocksByRoot => exact .outcome (hevent ▸ .endOfRoot id)

/-- What the application is told when an action of the behaviour is returned. -/
def passedOn (bits : Bitfields S) (n : NetworkService F A S) (now : Instant) :
    NetworkBehaviourAction (RequestId A) S → List (NetworkEvent A S)
  | .generateEvent message => (n.injectRpcEvent bits message now).2.toList
  | .notifyHandler _ _ _ => []

end NetworkService

/-! ## Requests are settled once -/

/-- The request that an event hands to the application. -/
def NetworkEvent.received? : NetworkEvent A S → Option PeerRequestId
  | .requestReceived _ id _ => some id
  | _ => none

/-- The request of the application that an event is about. -/
def NetworkEvent.outcome? : NetworkEvent A S → Option (PeerId × A)
  | .responseReceived peerId id _ | .rpcFailed peerId id => some (peerId, id)
  | _ => none

/-- The event comes of a message. -/
def NetworkEvent.isRpc : NetworkEvent A S → Bool
  | .requestReceived _ _ _ | .responseReceived _ _ _ | .rpcFailed _ _ => true
  | _ => false

/-- The application answers a request. -/
def NodeOp.isResponse : NodeOp F A S → Bool
  | .sendResponse _ _ _ | .sendErrorReponse _ _ _ _ => true
  | _ => false

theorem Outcome.spec {peerId : PeerId} {report : HandlerEvent (RequestId A) S}
    {event : NetworkEvent A S} (h : Outcome peerId report event) :
    event.received? = none ∧ ∃ id, event.outcome? = some (peerId, id) ∧
      RPCHandler.outboundId report = some (.application id) := by
  cases h <;> exact ⟨rfl, _, rfl, rfl⟩

namespace Rpc

/-- The request that a message hands over. -/
def RPCMessage.requestId? {Id : Type} (message : RPCMessage Id S) : Option PeerRequestId :=
  (RPCHandler.receivedId message.event).map (message.connId, ·)

/-- The request that waits in the queue of the behaviour. -/
def NetworkBehaviourAction.waiting? {Id : Type} (action : NetworkBehaviourAction Id S) :
    Option PeerRequestId :=
  action.message?.bind (·.requestId?)

/-- The request that a call answers. -/
def RPCOp.answers? {Id : Type} : RPCOp Id S → Option PeerRequestId
  | .sendResponse _ id _ => some id
  | _ => none

theorem RPC.queued_answers {Id : Type} {op : RPCOp Id S} (hop : op.isSend = true)
    (rpc : RPC Id S) :
    (rpc.queued op).filterMap (·.reply?.map Prod.fst) = [op].filterMap (·.answers?) := by
  cases op with
  | injectEvent | poll => cases hop
  | _ => rfl

theorem RPC.outputs_queued_answers {Id : Type} {calls : List (RPCOp Id S)}
    (hcalls : ∀ call ∈ calls, call.isSend = true) (rpc : RPC Id S) :
    (outputs RPC.step RPC.queued rpc calls).filterMap (·.reply?.map Prod.fst) =
      calls.filterMap (·.answers?) :=
  outputs_filterMap_of_along (fun rpc _ hcall => RPC.queued_answers hcall rpc)
    (Along.of_mem hcalls rpc)

end Rpc

namespace NetworkService

variable [ScoreArith F]

/-- **A request that is handed over** is answered, passed on, or left. -/
theorem settled_action (bits : Bitfields S) (n : NetworkService F A S) (now : Instant)
    (action : NetworkBehaviourAction (RequestId A) S) :
    ((n.actionAnswers action).filterMap (·.answers?) ++
      (n.passedOn bits now action).filterMap (·.received?)).Sublist action.waiting?.toList := by
  cases action with
  | notifyHandler peerId handler event => exact List.Sublist.refl []
  | generateEvent message =>
    unfold actionAnswers answers passedOn injectRpcEvent
    dsimp only
    cases n.peerManager.peerdb.isConnected message.peerId with
    | false => exact List.nil_sublist _
    | true =>
      obtain ⟨peerId, connId, event⟩ := message
      rcases event with (_ | ⟨id, proto, error⟩) | ⟨id, request⟩ | ⟨id, resp⟩ | ⟨id, termination⟩
      · exact List.nil_sublist _
      · cases id <;> exact List.nil_sublist _
      · cases request with
        | ping | metaData | status | blocksByRoot => exact List.Sublist.refl _
        | goodbye => exact List.nil_sublist _
        | blocksByRange req =>
          show (List.filterMap _ (n.injectRequest _ _ (.blocksByRange req) now).2.toList).Sublist _
          unfold injectRequest
          dsimp only
          split
          · exact List.nil_sublist _
          · exact List.Sublist.refl _
      · cases id <;> cases resp <;> exact List.nil_sublist _
      · cases id <;> exact List.nil_sublist _

end NetworkService

namespace Node

/-- The requests that are queued for the service. -/
def waiting (node : Node F A S) : List PeerRequestId :=
  node.network.eth2Rpc.events.filterMap (·.waiting?)

variable [ScoreArith F]

/-- The responses that the service queues in a step, other than those of the application. -/
def answered (node : Node F A S) (op : NodeOp F A S) :
    List (PeerRequestId × RPCCodedResponse S) :=
  if op.isResponse then [] else (node.queued op).filterMap (·.reply?)

variable [DecidableEq A]

/-- What the application is told in a step. -/
def emitted (env : NodeEnv S) (node : Node F A S) (op : NodeOp F A S) : List (NetworkEvent A S) :=
  (node.step env op).events.drop node.events.length

/-- The requests that are answered or passed on in a step. -/
def settled (env : NodeEnv S) (node : Node F A S) (op : NodeOp F A S) : List PeerRequestId :=
  (node.answered op).map Prod.fst ++ (node.emitted env op).filterMap (·.received?)

variable {env : NodeEnv S} {node : Node F A S} {op : NodeOp F A S}

theorem pollRpc_events (env : NodeEnv S) (node : Node F A S) (prunes : List Duration)
    (any : ConnectionId) (now : Instant) :
    (node.step env (.pollRpc prunes any now)).events = node.events ++
      (node.network.eth2Rpc.poll prunes).2.toList.flatMap
        ((node.network.withRpc (node.network.eth2Rpc.poll prunes).1).passedOn env.bits now) := by
  show (node.pollRpc env prunes any now).events = _
  unfold pollRpc
  generalize node.network.eth2Rpc.poll prunes = polled
  obtain ⟨rpc, _ | ⟨message | ⟨peerId, handler, event⟩⟩⟩ := polled
  · exact (List.append_nil _).symm
  · dsimp only
    rw [Option.toList_some, List.flatMap_singleton]
    rfl
  · cases handler <;> exact (List.append_nil _).symm

/-- A step that does not poll the RPC behaviour tells nothing that comes of a message. -/
theorem events_of_ne (env : NodeEnv S) (node : Node F A S) (hpoll : op.isPollRpc = false) :
    ∃ new, (node.step env op).events = node.events ++ new ∧ ∀ e ∈ new, e.isRpc = false := by
  have hnone : (node.step env op).events = node.events →
      ∃ new, (node.step env op).events = node.events ++ new ∧ ∀ e ∈ new, e.isRpc = false :=
    fun h => ⟨[], h.trans (List.append_nil _).symm, List.forall_mem_nil _⟩
  cases op with
  | pollRpc prunes any now => cases hpoll
  | report connection time =>
    refine hnone ?_
    show (node.report connection time).events = node.events
    unfold report
    split
    · rfl
    · split <;> rfl
  | pollPm inp =>
    show ∃ new, (node.pollPm env inp).events = _ ∧ _
    unfold pollPm
    generalize node.network.peerManager.poll inp = polled
    obtain ⟨peerManager, result⟩ := polled
    cases result with
    | dial | pending => exact ⟨[], (List.append_nil _).symm, List.forall_mem_nil _⟩
    | generateEvent event =>
      refine ⟨_, rfl, fun e he => ?_⟩
      rw [Option.mem_toList] at he
      cases event with
      | discoverPeers | discoverSubnetPeers | ping | metaData | disconnectPeer => cases he
      | _ => exact Option.some.inj he ▸ rfl
  | _ => exact hnone rfl

theorem events_step (env : NodeEnv S) (node : Node F A S) (op : NodeOp F A S) :
    (node.step env op).events = node.events ++ node.emitted env op := by
  have hprefix : ∃ new, (node.step env op).events = node.events ++ new := by
    cases hpoll : op.isPollRpc with
    | false =>
      obtain ⟨new, hnew, -⟩ := node.events_of_ne env hpoll
      exact ⟨new, hnew⟩
    | true =>
      cases op with
      | pollRpc prunes any now => exact ⟨_, node.pollRpc_events env prunes any now⟩
      | _ => cases hpoll
  obtain ⟨new, hnew⟩ := hprefix
  unfold emitted
  rw [hnew, List.drop_left]

theorem emitted_pollRpc (env : NodeEnv S) (node : Node F A S) (prunes : List Duration)
    (any : ConnectionId) (now : Instant) :
    node.emitted env (.pollRpc prunes any now) =
      (node.network.eth2Rpc.poll prunes).2.toList.flatMap
        ((node.network.withRpc (node.network.eth2Rpc.poll prunes).1).passedOn env.bits now) := by
  unfold emitted
  rw [pollRpc_events, List.drop_left]

theorem emitted_of_ne (env : NodeEnv S) (node : Node F A S) (hpoll : op.isPollRpc = false) :
    ∀ e ∈ node.emitted env op, e.isRpc = false := by
  obtain ⟨new, hnew, hall⟩ := node.events_of_ne env hpoll
  unfold emitted
  rwa [hnew, List.drop_left]

omit [ScoreArith F] [DecidableEq A] in
theorem filterMap_toList_sublist {γ : Type} {f : NetworkEvent A S → Option γ}
    {g : RPCMessage (RequestId A) S → Option γ} {event : Option (NetworkEvent A S)}
    {message : RPCMessage (RequestId A) S}
    (h : ∀ e c, event = some e → f e = some c → g message = some c) :
    (event.toList.filterMap f).Sublist ([message].filterMap g) := by
  cases event with
  | none => exact List.nil_sublist _
  | some e =>
    rw [Option.toList_some, List.filterMap_cons]
    cases hc : f e with
    | none => exact List.nil_sublist _
    | some c =>
      rw [List.filterMap_cons, h e c rfl hc]
      exact List.Sublist.refl _

/-- **What the application is told** comes of messages, at most one event of each, in order. -/
theorem emitted_told {γ : Type} {f : NetworkEvent A S → Option γ}
    {g : RPCMessage (RequestId A) S → Option γ}
    (hrpc : ∀ event, event.isRpc = false → f event = none)
    (hsurfaces : ∀ message event c, Surfaces message event → f event = some c → g message = some c)
    (env : NodeEnv S) (node : Node F A S) (op : NodeOp F A S) :
    ((node.emitted env op).filterMap f).Sublist
      (((node.popped op).filterMap (·.message?)).filterMap g) := by
  cases hpoll : op.isPollRpc with
  | false =>
    rw [List.filterMap_eq_nil_iff.2 fun event hevent => hrpc event
      (node.emitted_of_ne env hpoll event hevent)]
    exact List.nil_sublist _
  | true =>
    cases op with
    | pollRpc prunes any now =>
      rw [emitted_pollRpc, popped_pollRpc]
      generalize (node.network.eth2Rpc.poll prunes).1 = rpc
      rcases (node.network.eth2Rpc.poll prunes).2 with _ | message | ⟨peerId, handler, event⟩
      · exact List.Sublist.refl []
      · rw [Option.toList_some, List.flatMap_singleton]
        exact filterMap_toList_sublist fun event c hevent =>
          hsurfaces message event c (NetworkService.injectRpcEvent_surfaces _ _ _ _ hevent)
      · exact List.Sublist.refl []
    | _ => cases hpoll

/-! ### The steps -/

theorem waiting_step (env : NodeEnv S) (node : Node F A S) (op : NodeOp F A S) :
    (node.popped op).filterMap (·.waiting?) ++ (node.step env op).waiting =
      node.waiting ++ (node.queued op).filterMap (·.waiting?) := by
  unfold waiting
  rw [← List.filterMap_append, ← List.filterMap_append, queue_step]

omit [DecidableEq A] in
theorem queued_waiting (node : Node F A S) (op : NodeOp F A S) :
    (node.queued op).filterMap (·.waiting?) =
      ((node.queued op).filterMap (·.message?)).filterMap (·.requestId?) :=
  (List.filterMap_filterMap ..).symm

omit [DecidableEq A] in
theorem answered_ids (node : Node F A S) (hop : op.isResponse = false) :
    (node.answered op).map Prod.fst = (node.queued op).filterMap (·.reply?.map Prod.fst) := by
  unfold answered
  rw [hop, if_neg Bool.false_ne_true, List.map_filterMap]

theorem settled_pollRpc (env : NodeEnv S) (node : Node F A S) (prunes : List Duration)
    (any : ConnectionId) (now : Instant) :
    (node.settled env (.pollRpc prunes any now)).Sublist
      ((node.popped (.pollRpc prunes any now)).filterMap (·.waiting?)) := by
  have hanswered : (node.answered (.pollRpc prunes any now)).map Prod.fst =
      ((node.network.eth2Rpc.poll prunes).2.toList.flatMap node.network.actionAnswers).filterMap
        (·.answers?) := by
    rw [answered_ids node rfl]
    exact RPC.outputs_queued_answers (node.network.actionAnswers_send _) _
  unfold settled
  rw [hanswered, emitted_pollRpc, popped_pollRpc]
  generalize node.network.eth2Rpc.poll prunes = polled
  obtain ⟨rpc, _ | action⟩ := polled
  · exact List.Sublist.refl []
  · dsimp only
    rw [Option.toList_some, List.flatMap_singleton, List.flatMap_singleton]
    refine ((node.network.withRpc rpc).settled_action env.bits now action).trans ?_
    rw [List.filterMap_cons]
    cases action.waiting? <;> exact List.Sublist.refl _

theorem emitted_received (env : NodeEnv S) (node : Node F A S) (hpoll : op.isPollRpc = false) :
    (node.emitted env op).filterMap (·.received?) = [] := by
  refine List.filterMap_eq_nil_iff.2 fun event hevent => ?_
  have hrpc := node.emitted_of_ne env hpoll event hevent
  cases event with
  | requestReceived => cases hrpc
  | _ => rfl

omit [DecidableEq A] in
theorem rpcCalls_answers (node : Node F A S) (hreport : op.isReport = false)
    (hpoll : op.isPollRpc = false) (hresponse : op.isResponse = false) :
    (node.rpcCalls op).filterMap (·.answers?) = [] := by
  refine List.filterMap_eq_nil_iff.2 fun call hcall => ?_
  cases rpcCalls_cases hcall with
  | report => cases hreport
  | poll | pong | metaData => cases hpoll
  | sendResponse | sendErrorReponse => cases hresponse
  | _ => rfl

/-- Other steps settle nothing. -/
theorem settled_of_ne (env : NodeEnv S) (node : Node F A S) (hreport : op.isReport = false)
    (hpoll : op.isPollRpc = false) : node.settled env op = [] := by
  unfold settled
  rw [emitted_received env node hpoll, List.append_nil]
  cases hresponse : op.isResponse with
  | true =>
    unfold answered
    rw [hresponse]
    rfl
  | false =>
    rw [answered_ids node hresponse]
    unfold queued
    rw [RPC.outputs_queued_answers (node.rpcCalls_send hreport hpoll),
      rpcCalls_answers node hreport hpoll hresponse]

/-- **A request that arrives** is refused or waits for the service. -/
theorem settled_report (env : NodeEnv S) (node : Node F A S) (connection : ConnectionId)
    (time : Duration) :
    node.settled env (.report connection time) ++
        (node.queued (.report connection time)).filterMap (·.waiting?) =
      ((node.arrived connection (.report connection time)).filterMap RPCHandler.receivedId).map
        (connection, ·) := by
  unfold settled
  rw [emitted_received env node rfl, List.append_nil, answered_ids node rfl]
  rcases node.queued_report connection time with
    ⟨link, event, -, harrived, hqueued⟩ | ⟨harrived, hqueued⟩
  · rw [harrived, hqueued]
    rcases node.network.eth2Rpc.queued_injectEvent time link.peerId connection event with
      hpass | ⟨id, req, err, rfl, hrefuse⟩
    · rw [hpass]
      rcases event with (_ | _) | _ | _ | _ <;> rfl
    · rw [hrefuse]
      rfl
  · rw [harrived, hqueued]
    rfl

variable {issued : PeerId → RequestId A → Prop} {accepted : ConnectionId → InboundRequest → Prop}
  {ids : List PeerRequestId}

omit [ScoreArith F] in
/-- The requests of a connection arrive under increasing ids. -/
theorem Sound.increasing (hs : node.Sound issued accepted) (c : ConnectionId) :
    ((node.reported c).filterMap RPCHandler.receivedId).Pairwise (· < ·) := by
  unfold reported Link.reported
  cases hlink : node.links[c]? with
  | none => exact List.Pairwise.nil
  | some link =>
    refine (hs.links c link hlink).truthful.increasing.sublist (List.Sublist.filterMap _ ?_)
    exact (List.take_sublist _ _).trans (List.sublist_append_left _ _)

/-- The books on the requests: of those that have reached the behaviour, none is settled twice, and
none that waits is settled. -/
structure Settled (issued : PeerId → RequestId A → Prop)
    (accepted : ConnectionId → InboundRequest → Prop) (ids : List PeerRequestId)
    (node : Node F A S) : Prop where
  sound : node.Sound issued accepted
  nodup : (ids ++ node.waiting).Nodup
  known : ∀ c id, (c, id) ∈ ids ++ node.waiting →
    id ∈ (node.reported c).filterMap RPCHandler.receivedId

/-- What is known of a connection stays known. -/
theorem receivedId_step (hs : node.Sound issued accepted) (env : NodeEnv S) {c : ConnectionId}
    {id : SubstreamId} (hid : id ∈ (node.reported c).filterMap RPCHandler.receivedId) :
    id ∈ ((node.step env op).reported c).filterMap RPCHandler.receivedId := by
  rw [reported_step env hs, List.filterMap_append]
  exact List.mem_append_left _ hid

/-- A request is settled from those that wait. -/
theorem Settled.step_of_ne (hs : node.Settled issued accepted ids) (env : NodeEnv S)
    (hinternal : ∀ peerId, issued peerId .internal) (hop : op.Allowed issued accepted)
    (hreport : op.isReport = false) :
    (node.step env op).Settled issued accepted (ids ++ node.settled env op) := by
  have hwaiting := node.waiting_step env op
  rw [queued_waiting, queued_of_ne node hreport, List.filterMap_nil, List.append_nil] at hwaiting
  have hsub : (ids ++ node.settled env op ++ (node.step env op).waiting).Sublist
      (ids ++ node.waiting) := by
    rw [List.append_assoc, ← hwaiting]
    refine (List.Sublist.refl ids).append (List.Sublist.append ?_ (List.Sublist.refl _))
    cases hpoll : op.isPollRpc with
    | false =>
      rw [settled_of_ne env node hreport hpoll]
      exact List.nil_sublist _
    | true =>
      cases op with
      | pollRpc prunes any now => exact settled_pollRpc env node prunes any now
      | _ => cases hpoll
  exact ⟨hs.sound.step env hinternal hop, hs.nodup.sublist hsub,
    fun c id hid => receivedId_step hs.sound env (hs.known c id (hsub.subset hid))⟩

/-- A request that reaches the behaviour is a new one. -/
theorem Settled.step_report (hs : node.Settled issued accepted ids) (env : NodeEnv S)
    {connection : ConnectionId} {time : Duration}
    (hsound : (node.step env (.report connection time)).Sound issued accepted) :
    (node.step env (.report connection time)).Settled issued accepted
      (ids ++ node.settled env (.report connection time)) := by
  have hwaiting := node.waiting_step env (.report connection time)
  rw [popped_of_ne node rfl, List.filterMap_nil, List.nil_append] at hwaiting
  have hfresh := node.settled_report env connection time
  have hperm : (ids ++ node.settled env (.report connection time) ++
      (node.step env (.report connection time)).waiting).Perm ((ids ++ node.waiting) ++
        ((node.arrived connection (.report connection time)).filterMap
          RPCHandler.receivedId).map (connection, ·)) := by
    rw [hwaiting, ← hfresh, List.append_assoc, List.append_assoc]
    refine List.Perm.append_left _ ?_
    rw [← List.append_assoc, ← List.append_assoc]
    exact List.perm_append_comm.append_right _
  have hincreasing := hsound.increasing connection
  rw [reported_step env hs.sound, List.filterMap_append, List.pairwise_append] at hincreasing
  obtain ⟨-, harrived, hlater⟩ := hincreasing
  refine ⟨hsound, hperm.nodup_iff.2 (List.nodup_append.2 ⟨hs.nodup, ?_, ?_⟩), ?_⟩
  · exact harrived.imp Nat.ne_of_lt |>.map _ fun _ _ hne hsame => hne (Prod.mk.inj hsame).2
  · intro request hold request' hnew hsame
    obtain ⟨id, hid, rfl⟩ := List.mem_map.1 hnew
    exact Nat.lt_irrefl id (hlater id (hs.known _ _ (hsame ▸ hold)) id hid)
  · intro c id hid
    rcases List.mem_append.1 (hperm.subset hid) with hold | hnew
    · exact receivedId_step hs.sound env (hs.known c id hold)
    · obtain ⟨id', hid', hsame⟩ := List.mem_map.1 hnew
      obtain ⟨rfl, rfl⟩ := Prod.mk.inj hsame
      rw [reported_step env hs.sound, List.filterMap_append]
      exact List.mem_append_right _ hid'

theorem Settled.step (hs : node.Settled issued accepted ids) (env : NodeEnv S)
    (hinternal : ∀ peerId, issued peerId .internal) (hop : op.Allowed issued accepted) :
    (node.step env op).Settled issued accepted (ids ++ node.settled env op) := by
  cases hreport : op.isReport with
  | false => exact hs.step_of_ne env hinternal hop hreport
  | true =>
    cases op with
    | report connection time => exact hs.step_report env (hs.sound.step env hinternal hop)
    | _ => cases hreport

/-! ### The run -/

/-- The application is told of messages, of each request at most once and in order. -/
structure Surfaced (node : Node F A S) : Prop where
  inOrder : (node.events.filterMap (·.received?)).Sublist (node.messages.filterMap (·.requestId?))
  source : ∀ event ∈ node.events, event.isRpc = true →
    ∃ message ∈ node.messages, Surfaces message event

theorem emitted_surfaces (env : NodeEnv S) (node : Node F A S) (op : NodeOp F A S) :
    ∀ event ∈ node.emitted env op, event.isRpc = true →
      ∃ message ∈ (node.popped op).filterMap (·.message?), Surfaces message event := by
  intro event hevent hrpc
  cases hpoll : op.isPollRpc with
  | false =>
    rw [node.emitted_of_ne env hpoll event hevent] at hrpc
    cases hrpc
  | true =>
    cases op with
    | pollRpc prunes any now =>
      rw [emitted_pollRpc] at hevent
      obtain ⟨action, haction, hevent⟩ := List.mem_flatMap.1 hevent
      rw [popped_pollRpc]
      cases action with
      | notifyHandler => cases hevent
      | generateEvent message =>
        exact ⟨message, List.mem_filterMap.2 ⟨_, haction, rfl⟩,
          NetworkService.injectRpcEvent_surfaces _ _ _ _ (Option.mem_toList.1 hevent)⟩
    | _ => cases hpoll

theorem Surfaced.step (hs : node.Surfaced) (env : NodeEnv S) (op : NodeOp F A S) :
    (node.step env op).Surfaced where
  inOrder := by
    rw [events_step, messages_step, List.filterMap_append, List.filterMap_append]
    refine hs.inOrder.append ?_
    rw [List.filterMap_filterMap]
    cases hpoll : op.isPollRpc with
    | false =>
      rw [emitted_received env node hpoll]
      exact List.nil_sublist _
    | true =>
      cases op with
      | pollRpc prunes any now =>
        exact (List.sublist_append_right _ _).trans (settled_pollRpc env node prunes any now)
      | _ => cases hpoll
  source event hevent hrpc := by
    rw [events_step] at hevent
    rw [messages_step]
    rcases List.mem_append.1 hevent with hold | hnew
    · obtain ⟨message, hmessage, hsurfaces⟩ := hs.source event hold hrpc
      exact ⟨message, List.mem_append_left _ hmessage, hsurfaces⟩
    · obtain ⟨message, hmessage, hsurfaces⟩ := node.emitted_surfaces env op event hnew hrpc
      exact ⟨message, List.mem_append_right _ hmessage, hsurfaces⟩

omit [ScoreArith F] [DecidableEq A] in
theorem settled_new [DecidableEq A] (issued : PeerId → RequestId A → Prop)
    (accepted : ConnectionId → InboundRequest → Prop) (peerManager : PeerManager F)
    (discovery : Discovery) (metadata : NodeMetadata S) (limiter : RPCRateLimiter) :
    (new peerManager discovery metadata limiter : Node F A S).Settled issued accepted [] where
  sound := sound_new issued accepted peerManager discovery metadata limiter
  nodup := List.nodup_nil
  known _ _ hid := absurd hid List.not_mem_nil

omit [ScoreArith F] [DecidableEq A] in
theorem surfaced_new (peerManager : PeerManager F) (discovery : Discovery)
    (metadata : NodeMetadata S) (limiter : RPCRateLimiter) :
    (new peerManager discovery metadata limiter : Node F A S).Surfaced where
  inOrder := List.Sublist.refl []
  source := List.forall_mem_nil _

/-- The service sends requests of its own, and those that the application asks for. -/
def issuedIn (ops : List (NodeOp F A S)) (peerId : PeerId) : RequestId A → Prop
  | .internal => True
  | .application id => ∃ request, .sendRequest peerId id request ∈ ops

/-- The peer has opened a substream with the request. -/
def acceptedIn (ops : List (NodeOp F A S)) (c : ConnectionId) (req : InboundRequest) : Prop :=
  ∃ substream preferred h, .call c (.injectFullyNegotiatedInbound req substream preferred) h ∈ ops

omit [ScoreArith F] [DecidableEq A] in
theorem allowed_of_mem {ops : List (NodeOp F A S)} (hop : op ∈ ops) :
    op.Allowed (issuedIn ops) (acceptedIn ops) := by
  cases op with
  | sendRequest peerId id request => exact ⟨request, hop⟩
  | call connection call h =>
    intro req hreq
    cases call with
    | injectFullyNegotiatedInbound req' substream preferred =>
      obtain rfl := Option.some.inj hreq
      exact ⟨substream, preferred, h, hop⟩
    | _ => cases hreq
  | _ => trivial

omit [ScoreArith F] [DecidableEq A] in
/-- The ids of the requests of one connection. -/
theorem requestIds_on (messages : List (RPCMessage (RequestId A) S)) (c : ConnectionId) :
    ((messages.filterMap (·.requestId?)).filter (·.1 = c)).map Prod.snd =
      ((messages.filter (·.connId = c)).map (·.event)).filterMap RPCHandler.receivedId := by
  rw [List.filter_filterMap, List.map_filterMap, List.filterMap_map, List.filterMap_filter]
  refine List.filterMap_congr fun message _ => ?_
  show ((RPCHandler.receivedId message.event).map (message.connId, ·) |>.filter (·.1 = c)).map
    Prod.snd = _
  cases hid : RPCHandler.receivedId message.event with
  | none => by_cases hc : message.connId = c <;> simp [hc, hid]
  | some id => by_cases hc : message.connId = c <;> simp [hc, hid, Option.filter]

/-- The node that a run reaches. -/
def reached (env : NodeEnv S) (peerManager : PeerManager F) (discovery : Discovery)
    (metadata : NodeMetadata S) (limiter : RPCRateLimiter) (ops : List (NodeOp F A S)) :
    Node F A S :=
  ops.foldl (step env) (new peerManager discovery metadata limiter)

section Run

variable (env : NodeEnv S) (peerManager : PeerManager F) (discovery : Discovery)
  (metadata : NodeMetadata S) (limiter : RPCRateLimiter) (ops : List (NodeOp F A S))

theorem settled_run : (reached env peerManager discovery metadata limiter ops).Settled
    (issuedIn ops) (acceptedIn ops)
    (outputs (step env) (settled env) (new peerManager discovery metadata limiter) ops) :=
  outputs_induction_of_mem
    (I := fun ids (node : Node F A S) => node.Settled (issuedIn ops) (acceptedIn ops) ids)
    (fun _ hop _ _ hs => hs.step env (fun _ => trivial) (allowed_of_mem hop))
    (settled_new ..)

theorem surfaced_run : (reached env peerManager discovery metadata limiter ops).Surfaced :=
  (throughout_of_step (P := Surfaced) (fun _ op hs => hs.step env op) ops
    (surfaced_new ..)).last

/-- **What the application has been told** comes of the messages, in order. -/
theorem events_told {γ : Type} {f : NetworkEvent A S → Option γ}
    {g : RPCMessage (RequestId A) S → Option γ}
    (hrpc : ∀ event, event.isRpc = false → f event = none)
    (hsurfaces : ∀ message event c, Surfaces message event → f event = some c →
      g message = some c) :
    ((reached env peerManager discovery metadata limiter ops).events.filterMap f).Sublist
      ((reached env peerManager discovery metadata limiter ops).messages.filterMap g) := by
  have hnew : ((new peerManager discovery metadata limiter : Node F A S).events.filterMap f).Sublist
      ((new peerManager discovery metadata limiter : Node F A S).messages.filterMap g) :=
    List.Sublist.refl []
  refine (throughout_of_step (P := fun node : Node F A S =>
    (node.events.filterMap f).Sublist (node.messages.filterMap g)) (fun node op hnode => ?_) ops
    hnew).last
  rw [events_step, messages_step, List.filterMap_append, List.filterMap_append]
  exact hnode.append (emitted_told hrpc hsurfaces env node op)

theorem reached_events :
    (reached env peerManager discovery metadata limiter ops).events =
      outputs (step env) (emitted env) (new peerManager discovery metadata limiter) ops :=
  outputs_induction (I := fun log (node : Node F A S) => node.events = log)
    (fun log node op hlog => by rw [events_step, hlog]) ops rfl

/-- What a node tells the application comes from a handler of the peer. -/
theorem reached_source {event : NetworkEvent A S}
    (hevent : event ∈ (reached env peerManager discovery metadata limiter ops).events)
    (hrpc : event.isRpc = true) :
    ∃ message link, Surfaces message event ∧
      (reached env peerManager discovery metadata limiter ops).links[message.connId]? = some link ∧
      link.peerId = message.peerId ∧ message.event ∈ link.connection.log := by
  have hsound := (settled_run env peerManager discovery metadata limiter ops).sound
  obtain ⟨message, hmessage, hsurfaces⟩ :=
    (surfaced_run env peerManager discovery metadata limiter ops).source event hevent hrpc
  generalize reached env peerManager discovery metadata limiter ops = node at *
  have htold : message ∈ node.told := List.mem_append_left _ hmessage
  obtain ⟨link, hlink, hpeer⟩ := Option.map_eq_some_iff.1 (hsound.peers message htold)
  have hon : message.event ∈ node.toldOn message.connId :=
    List.mem_map_of_mem (List.mem_filter.2 ⟨htold, decide_eq_true rfl⟩)
  have hreported := (hsound.inOrder message.connId).subset hon
  unfold reported at hreported
  rw [hlink] at hreported
  exact ⟨message, link, hsurfaces, hlink, hpeer, List.mem_of_mem_take hreported⟩

theorem settled_nodup :
    ((outputs (step env) answered (new peerManager discovery metadata limiter) ops).map Prod.fst ++
      (reached env peerManager discovery metadata limiter ops).events.filterMap
        (·.received?)).Nodup := by
  rw [reached_events, outputs_map, filterMap_outputs]
  exact (outputs_append_perm ..).nodup_iff.1
    (List.nodup_append.1 (settled_run env peerManager discovery metadata limiter ops).nodup).1

/-- **Requests are settled once.** No request of a peer is answered by the service twice, passed on
twice, or both answered by the service and passed on. The application is handed the requests of a
connection in the order in which they arrived, as the peer of that connection made them. -/
theorem requests_settled :
    ((outputs (step env) answered (new peerManager discovery metadata limiter) ops).map Prod.fst ++
      (reached env peerManager discovery metadata limiter ops).events.filterMap
        (·.received?)).Nodup ∧
    (∀ c, (((reached env peerManager discovery metadata limiter ops).events.filterMap
      (·.received?)).filter (·.1 = c)).Pairwise (·.2 < ·.2)) ∧
    ∀ peerId c id request, .requestReceived peerId (c, id) request ∈
        (reached env peerManager discovery metadata limiter ops).events →
      ∃ link req,
        (reached env peerManager discovery metadata limiter ops).links[c]? = some link ∧
        link.peerId = peerId ∧ Passes req request ∧
        .ok (.request id req) ∈ link.connection.log ∧ acceptedIn ops c req := by
  have hrun := settled_run env peerManager discovery metadata limiter ops
  have hsurfaced := surfaced_run env peerManager discovery metadata limiter ops
  refine ⟨settled_nodup env peerManager discovery metadata limiter ops, fun c => ?_,
    fun peerId c id request hevent => ?_⟩
  · have hsub := hsurfaced.inOrder.filter (·.1 = c)
    refine List.Pairwise.sublist hsub (List.pairwise_map.1 ?_)
    rw [requestIds_on]
    refine (hrun.sound.increasing c).sublist (List.Sublist.filterMap _ ?_)
    refine List.Sublist.trans ?_ (hrun.sound.inOrder c)
    exact ((List.sublist_append_left _ _).filter _).map _
  · obtain ⟨message, link, hsurfaces, hlink, hpeer, hlog⟩ :=
      reached_source env peerManager discovery metadata limiter ops hevent rfl
    cases hsurfaces with
    | outcome houtcome => cases houtcome.spec.1
    | @request _ req _ heq hpass =>
      rw [heq] at hlog
      exact ⟨link, req, hlink, hpeer, hpass, hlog,
        (hrun.sound.links _ link hlink).truthful.received _ req (List.mem_append_left _ hlog)⟩

/-- **Outcomes are solicited.** The application is told of a response or a failure only for a
request that it made of that peer, and as a handler of a connection to the peer has reported it. -/
theorem outcomes_solicited {event : NetworkEvent A S}
    (hevent : event ∈ (reached env peerManager discovery metadata limiter ops).events)
    {peerId : PeerId} {id : A} (houtcome : event.outcome? = some (peerId, id)) :
    (∃ request, .sendRequest peerId id request ∈ ops) ∧
    ∃ (c : ConnectionId) (link : Link A S) (report : HandlerEvent (RequestId A) S),
      (reached env peerManager discovery metadata limiter ops).links[c]? = some link ∧
      link.peerId = peerId ∧ report ∈ link.connection.log ∧ Outcome peerId report event := by
  have hrun := settled_run env peerManager discovery metadata limiter ops
  have hrpc : event.isRpc = true := by cases event <;> first | rfl | cases houtcome
  obtain ⟨message, link, hsurfaces, hlink, hpeer, hlog⟩ :=
    reached_source env peerManager discovery metadata limiter ops hevent hrpc
  cases hsurfaces with
  | request => cases houtcome
  | outcome hout =>
    obtain ⟨-, id', hid', hissued⟩ := hout.spec
    rw [houtcome] at hid'
    obtain ⟨rfl, rfl⟩ := Prod.mk.inj (Option.some.inj hid')
    refine ⟨?_, _, link, _, hlink, hpeer, hlog, hout⟩
    have hsolicited := (hrun.sound.links _ link hlink).truthful.solicited _
      (List.mem_append_left _ hlog) _ hissued
    rwa [hpeer] at hsolicited

end Run

section Example

def plainBits : Bitfields PlainWire.spec where
  attnets := ⟨fun _ => 0, fun _ _ => none, fun _ _ _ => none⟩
  syncnets := ⟨fun _ => 0, fun _ _ => none, fun _ _ _ => none⟩
  defaultAttnets := ()

def plainEnv : NodeEnv PlainWire.spec :=
  ⟨PlainWire.wire, plainBits, fun _ => none, fun _ => ""⟩

def plainMetadata : NodeMetadata PlainWire.spec := ⟨.v1 ⟨0, ()⟩, none, ⟨(), ()⟩⟩

def plainLimiter : RPCRateLimiter := RPCRateLimiter.default.toOption.get rfl

def plainStatus : StatusMessage := ⟨.replicate 4 0, .replicate 32 0, 0, .replicate 32 0, 0⟩

/-- A poll in which the outbound substreams receive a status. -/
def statusArrives : PollIo PlainWire.spec :=
  { (PollIo.quiet : PollIo PlainWire.spec) with
    outbound := fun _ => ⟨.ready (some (.ok (.success (.status plainStatus)))), .pending⟩ }

/-- A peer asks for the status of the node, and the node for that of the peer. -/
def handshake : List (NodeOp ℚ ℕ PlainWire.spec) :=
  [.peerManager (.injectConnectionEstablished ⟨[1]⟩ (.listener []) 0 0) rfl, .establish ⟨[1]⟩,
    .call 0 (.injectFullyNegotiatedInbound (.status plainStatus) ⟨[]⟩ 0) rfl,
    .call 0 (.poll .quiet) rfl, .report 0 0, .pollRpc [] 0 0,
    .sendResponse ⟨[1]⟩ (0, 0) (.status plainStatus), .pollRpc [] 0 0, .notify 0,
    .call 0 (.poll .quiet) rfl,
    .sendRequest ⟨[1]⟩ 7 (.status plainStatus), .pollRpc [] 0 0, .notify 0,
    .call 0 (.poll .quiet) rfl,
    .call 0 (.injectFullyNegotiatedOutbound (.application 7, .status plainStatus) 0) rfl,
    .call 0 (.poll statusArrives) rfl, .report 0 1, .pollRpc [] 0 0]

set_option maxRecDepth 10000 in
theorem handshake_events :
    (reached plainEnv (.new 16 false) (.new false false) plainMetadata plainLimiter
      handshake).events = [.requestReceived ⟨[1]⟩ (0, 0) (.status plainStatus),
        .responseReceived ⟨[1]⟩ 7 (.status plainStatus)] :=
  rfl

theorem outcomes_solicited_handshake :
    (∃ request, .sendRequest ⟨[1]⟩ 7 request ∈ handshake) ∧
    ∃ (c : ConnectionId) (link : Link ℕ PlainWire.spec)
      (report : HandlerEvent (RequestId ℕ) PlainWire.spec),
      (reached plainEnv (.new 16 false) (.new false false) plainMetadata plainLimiter
        handshake).links[c]? = some link ∧
      link.peerId = ⟨[1]⟩ ∧ report ∈ link.connection.log ∧
      Outcome ⟨[1]⟩ report (.responseReceived ⟨[1]⟩ 7 (.status plainStatus)) :=
  outcomes_solicited plainEnv (.new 16 false) (.new false false) plainMetadata plainLimiter
    handshake (handshake_events ▸ List.mem_cons_of_mem _ List.mem_cons_self) rfl

end Example

end Node

end Consentry
