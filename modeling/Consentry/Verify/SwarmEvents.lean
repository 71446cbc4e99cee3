import Consentry.Verify.ReportedEvents
import Consentry.Verify.SwarmParts

/-!
# What a node is told by its handlers

Events go from the handler of a connection to the RPC behaviour, and from there to the service;
requests and responses go the other way. **`Node.Sound`** says what holds of those that are on
their way: requests were issued for the peer of the connection that they go to, and of what the
handler of a connection has reported the service is told everything in order, but for requests
that are refused. Every step of the node keeps it (`Sound.step`).
-/

namespace Consentry

open Lib
open Rpc

variable {F A : Type} {S : EthSpec}

/-! ## The actions of the behaviour -/

namespace Rpc

/-- The message that an action hands to the service. -/
def NetworkBehaviourAction.message? {Id : Type} :
    NetworkBehaviourAction Id S → Option (RPCMessage Id S)
  | .generateEvent message => some message
  | .notifyHandler _ _ _ => none

/-- The response that an action hands to a connection. -/
def NetworkBehaviourAction.reply? {Id : Type} :
    NetworkBehaviourAction Id S → Option (PeerRequestId × RPCCodedResponse S)
  | .notifyHandler _ (.one connection) (.response id response) => some ((connection, id), response)
  | _ => none

/-- Requests go to the peer for which their id was issued, responses to one connection. -/
inductive NetworkBehaviourAction.Addressed (issued : PeerId → RequestId A → Prop) :
    NetworkBehaviourAction (RequestId A) S → Prop
  | event (message : RPCMessage (RequestId A) S) : Addressed issued (.generateEvent message)
  | request {peerId : PeerId} {id : RequestId A} (hid : issued peerId id) (req : OutboundRequest) :
    Addressed issued (.notifyHandler peerId .any (.request id req))
  | shutdown {peerId : PeerId} {id : RequestId A} (hid : issued peerId id)
    (reason : GoodbyeReason) : Addressed issued (.notifyHandler peerId .any (.shutdown id reason))
  | response (peerId : PeerId) (connection : ConnectionId) (id : SubstreamId)
    (response : RPCCodedResponse S) :
    Addressed issued (.notifyHandler peerId (.one connection) (.response id response))

/-- The id that a call makes a request under was issued for its peer. -/
def RPCOp.Issued (issued : PeerId → RequestId A → Prop) : RPCOp (RequestId A) S → Prop
  | .sendRequest peerId id _ => issued peerId id
  | .shutdown peerId id _ => issued peerId id
  | _ => True

/-- The calls of the user. -/
def RPCOp.isSend {Id : Type} : RPCOp Id S → Bool
  | .sendResponse _ _ _ | .sendRequest _ _ _ | .shutdown _ _ _ => true
  | .injectEvent _ _ _ _ | .poll _ => false

/-- An event of a handler is passed on, or it is a request that is refused. -/
theorem RPC.queued_injectEvent {Id : Type} (rpc : RPC Id S) (time : Duration) (peerId : PeerId)
    (connId : ConnectionId) (event : HandlerEvent Id S) :
    rpc.queued (.injectEvent time peerId connId event) =
      [.generateEvent ⟨peerId, connId, event⟩] ∨
    ∃ id req err, event = .ok (.request id req) ∧
      rpc.queued (.injectEvent time peerId connId event) =
        [.notifyHandler peerId (.one connId) (.response id (rateLimited err))] := by
  rcases event with err | ⟨id, req⟩ | ⟨id, resp⟩ | ⟨id, t⟩
  · exact .inl rfl
  · rcases rpc.request_cases time peerId connId id req with ⟨-, hqueued, -⟩ | ⟨err, -, hqueued, -⟩
    · exact .inl hqueued
    · exact .inr ⟨id, req, err, rfl, hqueued⟩
  · exact .inl rfl
  · exact .inl rfl

theorem RPC.queued_addressed {issued : PeerId → RequestId A → Prop}
    (rpc : RPC (RequestId A) S) {op : RPCOp (RequestId A) S} (hop : op.Issued issued) :
    ∀ action ∈ rpc.queued op, action.Addressed issued := by
  cases op with
  | sendResponse peerId id event => exact List.forall_mem_singleton.2 (.response ..)
  | sendRequest peerId id event => exact List.forall_mem_singleton.2 (.request hop event)
  | shutdown peerId id reason => exact List.forall_mem_singleton.2 (.shutdown hop reason)
  | injectEvent time peerId connId event =>
    rcases rpc.queued_injectEvent time peerId connId event with hqueued | ⟨id, req, err, -, hqueued⟩
    · rw [hqueued]
      exact List.forall_mem_singleton.2 (.event _)
    · rw [hqueued]
      exact List.forall_mem_singleton.2 (.response ..)
  | poll prunes => exact List.forall_mem_nil _

/-- Only events of handlers become messages. -/
theorem RPC.queued_send {Id : Type} {op : RPCOp Id S} (hop : op.isSend = true) (rpc : RPC Id S) :
    ∀ action ∈ rpc.queued op, action.message? = none := by
  cases op with
  | injectEvent | poll => cases hop
  | _ => exact List.forall_mem_singleton.2 rfl

theorem RPC.returned_send {Id : Type} {op : RPCOp Id S} (hop : op.isSend = true)
    (rpc : RPC Id S) : rpc.returned op = [] := by
  cases op with
  | injectEvent | poll => cases hop
  | _ => rfl

/-- Calls of the user take nothing from the queue, and queue no message. -/
theorem RPC.outputs_returned_send {Id : Type} {calls : List (RPCOp Id S)}
    (hcalls : ∀ call ∈ calls, call.isSend = true) (rpc : RPC Id S) :
    outputs RPC.step RPC.returned rpc calls = [] := by
  refine List.eq_nil_iff_forall_not_mem.2 (outputs_forall (fun call hcall rpc action haction => ?_)
    rpc)
  rw [RPC.returned_send (hcalls call hcall)] at haction
  cases haction

theorem RPC.outputs_queued_send {Id : Type} {calls : List (RPCOp Id S)}
    (hcalls : ∀ call ∈ calls, call.isSend = true) (rpc : RPC Id S) :
    (outputs RPC.step RPC.queued rpc calls).filterMap (·.message?) = [] :=
  List.filterMap_eq_nil_iff.2
    (outputs_forall (fun call hcall rpc => RPC.queued_send (hcalls call hcall) rpc) rpc)

theorem RPC.poll_action {Id : Type} (rpc : RPC Id S) (prunes : List Duration) :
    (rpc.poll prunes).2 = rpc.events.head? := by
  unfold RPC.poll
  dsimp only
  cases rpc.events <;> rfl

theorem RPC.addressed_poll {rpc : RPC (RequestId A) S} {issued : PeerId → RequestId A → Prop}
    (hactions : ∀ action ∈ rpc.events, action.Addressed issued) {prunes : List Duration}
    {action : NetworkBehaviourAction (RequestId A) S}
    (haction : (rpc.poll prunes).2 = some action) : action.Addressed issued := by
  rw [RPC.poll_action] at haction
  exact hactions action (List.mem_of_mem_head? haction)

end Rpc

/-! ## Connections -/

/-- What happens to a connection uses issued ids and brings accepted requests. -/
def LinkOp.Allowed (issued : PeerId → RequestId A → Prop) (accepted : InboundRequest → Prop)
    (peerId? : Option PeerId) : LinkOp A S → Prop
  | .send event =>
    ∀ peerId ∈ peerId?, ∀ id, (Call.injectEvent event).requestId = some id → issued peerId id
  | .call c => c.isInjectEvent = false ∧ ∀ req, c.received = some req → accepted req
  | _ => True

namespace Link

variable {issued : PeerId → RequestId A → Prop} {accepted : InboundRequest → Prop}
  {link : Link A S} {link? : Option (Link A S)}

/-- What the handler reports is true, and what is on its way to it was issued. -/
structure Sound (issued : PeerId → RequestId A → Prop) (accepted : InboundRequest → Prop)
    (link : Link A S) : Prop where
  truthful : link.connection.Truthful (issued link.peerId) accepted
  toHandler : ∀ event ∈ link.toHandler, ∀ id,
    (Call.injectEvent event).requestId = some id → issued link.peerId id
  delivered : link.delivered ≤ link.connection.log.length

theorem sound_new (issued : PeerId → RequestId A → Prop) (accepted : InboundRequest → Prop)
    (peerId : PeerId) : Sound issued accepted (new peerId : Link A S) :=
  ⟨Connection.truthful_new _ _, List.forall_mem_nil _, Nat.le_refl _⟩

/-- The events that have reached the behaviour. -/
def reports (link : Link A S) : List (HandlerEvent (RequestId A) S) :=
  link.connection.log.take link.delivered

def reported (link? : Option (Link A S)) : List (HandlerEvent (RequestId A) S) :=
  link?.elim [] reports

/-- The event that reaches the behaviour in a step. -/
def arrived (link? : Option (Link A S)) : LinkOp A S → List (HandlerEvent (RequestId A) S)
  | .report => link?.elim [] fun link => link.connection.log[link.delivered]?.toList
  | _ => []

variable [DecidableEq A]

theorem Sound.call (hl : link.Sound issued accepted) (errorText : ErrorType → String)
    {call : Call (RequestId A) S}
    (hcall : ∀ id, call.requestId = some id → issued link.peerId id)
    (hreceived : ∀ req, call.received = some req → accepted req) :
    (link.call errorText call).Sound issued accepted := by
  unfold Link.call
  split
  · refine ⟨hl.truthful.step errorText hcall hreceived, hl.toHandler, ?_⟩
    exact Nat.le_trans hl.delivered (link.connection.log_prefix_step errorText call).length_le
  · exact hl

theorem Sound.notify (hl : link.Sound issued accepted) (errorText : ErrorType → String) :
    (link.notify errorText).Sound issued accepted := by
  unfold Link.notify
  split
  · next event toHandler heq =>
    have hevents := hl.toHandler
    rw [heq] at hevents
    have hrest : ({ link with toHandler := toHandler } : Link A S).Sound issued accepted :=
      ⟨hl.truthful, fun e he => hevents e (List.mem_cons_of_mem event he), hl.delivered⟩
    exact hrest.call errorText (fun id hid => hevents event List.mem_cons_self id hid) nofun
  · exact hl

omit [DecidableEq A] in
theorem Sound.send (hl : link.Sound issued accepted) {event : RPCSend (RequestId A) S}
    (hevent : ∀ id, (Call.injectEvent event).requestId = some id → issued link.peerId id) :
    (link.send event).Sound issued accepted := by
  unfold Link.send
  split
  · refine ⟨hl.truthful, fun e he => ?_, hl.delivered⟩
    rcases List.mem_append.1 he with he | he
    · exact hl.toHandler e he
    · rwa [List.mem_singleton.1 he]
  · exact hl

theorem sound_step (errorText : ErrorType → String)
    (hl : ∀ link ∈ link?, link.Sound issued accepted) {op : LinkOp A S}
    (hop : op.Allowed issued accepted (link?.map (·.peerId))) :
    ∀ link ∈ step errorText link? op, link.Sound issued accepted := by
  cases link? with
  | none =>
    cases op with
    | establish peerId =>
      intro link hlink
      obtain rfl := Option.some.inj hlink
      exact sound_new issued accepted peerId
    | _ => exact nofun
  | some link =>
    have hlink := hl link rfl
    suffices hsuff : ∃ link', step errorText (some link) op = some link' ∧
        link'.Sound issued accepted by
      obtain ⟨link', hstep, hsound⟩ := hsuff
      rw [hstep]
      intro link'' hsame
      exact Option.some.inj hsame ▸ hsound
    cases op with
    | establish peerId => exact ⟨_, rfl, hlink⟩
    | close => exact ⟨_, rfl, hlink.truthful, hlink.toHandler, hlink.delivered⟩
    | call call =>
      refine ⟨_, rfl, hlink.call errorText (fun id hid => ?_) hop.2⟩
      cases call with
      | injectEvent event => cases hop.1
      | _ => cases hid
    | notify => exact ⟨_, rfl, hlink.notify errorText⟩
    | send event => exact ⟨_, rfl, hlink.send (hop link.peerId rfl)⟩
    | report =>
      by_cases hlt : link.delivered < link.connection.log.length
      · exact ⟨_, if_pos hlt, hlink.truthful, hlink.toHandler, hlt⟩
      · exact ⟨_, if_neg hlt, hlink⟩

theorem Sound.call_reports (hl : link.Sound issued accepted) (errorText : ErrorType → String)
    (call : Call (RequestId A) S) : (link.call errorText call).reports = link.reports := by
  unfold Link.call
  split
  · obtain ⟨new, hnew⟩ := link.connection.log_prefix_step errorText call
    show (link.connection.step errorText call).log.take _ = _
    rw [← hnew, List.take_append_of_le_length hl.delivered]
    rfl
  · rfl

theorem Sound.notify_reports (hl : link.Sound issued accepted) (errorText : ErrorType → String) :
    (link.notify errorText).reports = link.reports := by
  unfold Link.notify
  split
  · next event toHandler heq =>
    have hrest : ({ link with toHandler := toHandler } : Link A S).Sound issued accepted := by
      refine ⟨hl.truthful, fun e he => hl.toHandler e ?_, hl.delivered⟩
      rw [heq]
      exact List.mem_cons_of_mem event he
    exact hrest.call_reports errorText _
  · rfl

/-- **What has reached the behaviour**, after a step. -/
theorem reported_step (errorText : ErrorType → String)
    (hl : ∀ link ∈ link?, link.Sound issued accepted) (op : LinkOp A S) :
    reported (step errorText link? op) = reported link? ++ arrived link? op := by
  cases link? with
  | none => cases op <;> rfl
  | some link =>
    have hlink := hl link rfl
    cases op with
    | establish | close => exact (List.append_nil _).symm
    | call call => exact (hlink.call_reports errorText call).trans (List.append_nil _).symm
    | notify => exact (hlink.notify_reports errorText).trans (List.append_nil _).symm
    | send event =>
      refine Eq.trans ?_ (List.append_nil _).symm
      show (link.send event).reports = link.reports
      unfold Link.send
      split <;> rfl
    | report =>
      show reported (if link.delivered < link.connection.log.length then _ else _) =
        link.connection.log.take link.delivered ++ link.connection.log[link.delivered]?.toList
      rw [← List.take_add_one]
      split
      · rfl
      · next hge =>
        rw [List.take_of_length_le (Nat.le_succ_of_le (Nat.le_of_not_lt hge))]
        exact List.take_of_length_le (Nat.le_of_not_lt hge)

omit [DecidableEq A] in
theorem send_peerId (link : Link A S) (event : RPCSend (RequestId A) S) :
    (link.send event).peerId = link.peerId := by
  unfold Link.send
  split <;> rfl

theorem call_peerId (link : Link A S) (errorText : ErrorType → String)
    (call : Call (RequestId A) S) : (link.call errorText call).peerId = link.peerId := by
  unfold Link.call
  split <;> rfl

theorem notify_peerId (link : Link A S) (errorText : ErrorType → String) :
    (link.notify errorText).peerId = link.peerId := by
  unfold Link.notify
  split
  · exact call_peerId _ errorText _
  · rfl

/-- A connection stays with its peer. -/
theorem peerId_step (errorText : ErrorType → String) {peerId : PeerId}
    (hpeer : link?.map (·.peerId) = some peerId) (op : LinkOp A S) :
    (step errorText link? op).map (·.peerId) = some peerId := by
  cases link? with
  | none => cases hpeer
  | some link =>
    cases op with
    | establish | close => exact hpeer
    | call call => exact (congrArg some (link.call_peerId errorText call)).trans hpeer
    | notify => exact (congrArg some (link.notify_peerId errorText)).trans hpeer
    | send event => exact (congrArg some (link.send_peerId event)).trans hpeer
    | report =>
      show Option.map _ (if link.delivered < link.connection.log.length then _ else _) = _
      split <;> exact hpeer

end Link

/-! ## What the service is told -/

namespace NetworkService

theorem actionAnswers_send (n : NetworkService F A S)
    (actions : List (NetworkBehaviourAction (RequestId A) S)) :
    ∀ call ∈ actions.flatMap n.actionAnswers, call.isSend = true := by
  intro call hcall
  obtain ⟨peerId, id, rfl | rfl⟩ := mem_actionAnswers hcall
  · rfl
  · rfl

end NetworkService

/-- The next event of a handler reaches the behaviour. -/
def NodeOp.isReport : NodeOp F A S → Bool
  | .report _ _ => true
  | _ => false

def NodeOp.isPollRpc : NodeOp F A S → Bool
  | .pollRpc _ _ _ => true
  | _ => false

namespace Node

/-- What the service has been told and what is still queued for it. -/
def told (node : Node F A S) : List (RPCMessage (RequestId A) S) :=
  node.messages ++ node.network.eth2Rpc.events.filterMap (·.message?)

/-- What the service has been told of one connection. -/
def toldOn (node : Node F A S) (c : ConnectionId) : List (HandlerEvent (RequestId A) S) :=
  (node.told.filter (·.connId = c)).map (·.event)

/-- The events of a connection that have reached the behaviour. -/
def reported (node : Node F A S) (c : ConnectionId) : List (HandlerEvent (RequestId A) S) :=
  Link.reported node.links[c]?

/-- The event of a connection that reaches the behaviour in a step. -/
def arrived (c : ConnectionId) (node : Node F A S) (op : NodeOp F A S) :
    List (HandlerEvent (RequestId A) S) :=
  (node.linkOps c op).flatMap (Link.arrived node.links[c]?)

theorem arrived_of_ne (c : ConnectionId) (node : Node F A S) {op : NodeOp F A S}
    (hreport : op.isReport = false) : node.arrived c op = [] := by
  refine List.eq_nil_iff_forall_not_mem.2 fun event hevent => ?_
  obtain ⟨linkOp, hlinkOp, hevent⟩ := List.mem_flatMap.1 hevent
  cases linkOps_mem hlinkOp with
  | report => cases hreport
  | _ => cases hevent

variable [ScoreArith F]

/-- The actions that a step takes from the queue of the behaviour. -/
def popped (node : Node F A S) (op : NodeOp F A S) :
    List (NetworkBehaviourAction (RequestId A) S) :=
  outputs RPC.step RPC.returned node.network.eth2Rpc (node.rpcCalls op)

/-- The actions that a step adds to the queue of the behaviour. -/
def queued (node : Node F A S) (op : NodeOp F A S) :
    List (NetworkBehaviourAction (RequestId A) S) :=
  outputs RPC.step RPC.queued node.network.eth2Rpc (node.rpcCalls op)

theorem popped_pollRpc (node : Node F A S) (prunes : List Duration) (any : ConnectionId)
    (now : Instant) :
    node.popped (.pollRpc prunes any now) = (node.network.eth2Rpc.poll prunes).2.toList := by
  unfold popped rpcCalls
  rw [outputs, RPC.outputs_returned_send (node.network.actionAnswers_send _), List.append_nil]
  rfl

/-- The calls of a step that neither polls nor injects an event. -/
theorem rpcCalls_send (node : Node F A S) {op : NodeOp F A S}
    (hreport : op.isReport = false) (hpoll : op.isPollRpc = false) :
    ∀ call ∈ node.rpcCalls op, call.isSend = true := by
  intro call hcall
  cases rpcCalls_cases hcall with
  | report => cases hreport
  | poll | pong | metaData => cases hpoll
  | _ => rfl

/-- Only a poll takes an action from the queue. -/
theorem popped_of_ne (node : Node F A S) {op : NodeOp F A S}
    (hpoll : op.isPollRpc = false) : node.popped op = [] := by
  cases op with
  | report connection time =>
    refine List.eq_nil_iff_forall_not_mem.2 (outputs_forall (fun call hcall rpc action ha => ?_) _)
    cases rpcCalls_cases hcall
    cases ha
  | _ => exact RPC.outputs_returned_send (node.rpcCalls_send rfl hpoll) _

/-- Only an event of a handler becomes a message. -/
theorem queued_of_ne (node : Node F A S) {op : NodeOp F A S}
    (hreport : op.isReport = false) :
    (node.queued op).filterMap (·.message?) = [] := by
  cases op with
  | pollRpc prunes any now =>
    unfold queued rpcCalls
    rw [outputs]
    exact RPC.outputs_queued_send (node.network.actionAnswers_send _) _
  | _ => exact RPC.outputs_queued_send (node.rpcCalls_send hreport rfl) _

variable [DecidableEq A]

theorem queue_step (env : NodeEnv S) (node : Node F A S) (op : NodeOp F A S) :
    node.popped op ++ (node.step env op).network.eth2Rpc.events =
      node.network.eth2Rpc.events ++ node.queued op := by
  rw [eth2Rpc_step]
  exact RPC.returned_append_events _ _

theorem messages_step (env : NodeEnv S) (node : Node F A S) (op : NodeOp F A S) :
    (node.step env op).messages = node.messages ++ (node.popped op).filterMap (·.message?) := by
  cases op with
  | pollRpc prunes any now =>
    rw [popped_pollRpc]
    show (node.pollRpc env prunes any now).messages = _
    unfold pollRpc
    generalize node.network.eth2Rpc.poll prunes = polled
    obtain ⟨rpc, _ | ⟨message | ⟨peerId, handler, event⟩⟩⟩ := polled
    · exact (List.append_nil _).symm
    · rfl
    · cases handler <;> exact (List.append_nil _).symm
  | pollPm inp =>
    rw [popped_of_ne node rfl]
    refine Eq.trans ?_ (List.append_nil _).symm
    show (node.pollPm env inp).messages = _
    unfold pollPm
    generalize node.network.peerManager.poll inp = polled
    obtain ⟨peerManager, result⟩ := polled
    cases result <;> rfl
  | report connection time =>
    rw [popped_of_ne node rfl]
    refine Eq.trans ?_ (List.append_nil _).symm
    show (node.report connection time).messages = _
    unfold report
    split
    · rfl
    · split <;> rfl
  | _ =>
    rw [popped_of_ne node rfl]
    exact (List.append_nil _).symm

/-- **What the service is told** grows by the messages that are queued. -/
theorem told_step (env : NodeEnv S) (node : Node F A S) (op : NodeOp F A S) :
    (node.step env op).told = node.told ++ (node.queued op).filterMap (·.message?) := by
  unfold told
  rw [messages_step, List.append_assoc, ← List.filterMap_append, queue_step, List.filterMap_append,
    List.append_assoc]

end Node

/-! ## The books -/

/-- What the application asks for was issued, and what the connections bring was accepted. -/
def NodeOp.Allowed (issued : PeerId → RequestId A → Prop)
    (accepted : ConnectionId → InboundRequest → Prop) : NodeOp F A S → Prop
  | .sendRequest peerId id _ => issued peerId (.application id)
  | .call connection c _ => ∀ req, c.received = some req → accepted connection req
  | _ => True

namespace Node

/-- The events that do not hand over a request. -/
def isReply (event : HandlerEvent (RequestId A) S) : Bool := (RPCHandler.receivedId event).isNone

/-- The books of a node: what is on its way was issued, and of what a handler has reported the
service is told everything, in order, but for some of the requests. -/
structure Sound [DecidableEq A] (issued : PeerId → RequestId A → Prop)
    (accepted : ConnectionId → InboundRequest → Prop) (node : Node F A S) : Prop where
  actions : ∀ action ∈ node.network.eth2Rpc.events, action.Addressed issued
  links : ∀ c (link : Link A S), node.links[c]? = some link → link.Sound issued (accepted c)
  peers : ∀ message ∈ node.told, node.links[message.connId]?.map (·.peerId) = some message.peerId
  inOrder : ∀ c, (node.toldOn c).Sublist (node.reported c)
  complete : ∀ c, (node.toldOn c).filter isReply = (node.reported c).filter isReply

variable {issued : PeerId → RequestId A → Prop} {accepted : ConnectionId → InboundRequest → Prop}
  {node : Node F A S} {op : NodeOp F A S}

theorem linkOps_cases (c : ConnectionId) (node : Node F A S) (op : NodeOp F A S) :
    node.linkOps c op = [] ∨ ∃ linkOp, node.linkOps c op = [linkOp] := by
  have hif : ∀ (p : Prop) [Decidable p] (linkOp : LinkOp A S),
      (if p then [linkOp] else []) = [] ∨ ∃ o, (if p then [linkOp] else []) = [o] := by
    intro p _ linkOp
    split
    · exact .inr ⟨linkOp, rfl⟩
    · exact .inl rfl
  cases op with
  | establish | close | call | notify | report => exact hif _ _
  | pollRpc prunes any now =>
    unfold linkOps
    dsimp only
    rcases (node.network.eth2Rpc.poll prunes).2 with _ | action
    · exact .inl rfl
    · rw [Option.toList_some, List.flatMap_singleton]
      rcases action with message | ⟨peerId, connection | -, event⟩
      · exact .inl rfl
      · exact hif _ _
      · exact hif _ _
  | _ => exact .inl rfl

theorem linkOps_allowed [ScoreArith F]
    (hactions : ∀ action ∈ node.network.eth2Rpc.events, action.Addressed issued)
    (hop : op.Allowed issued accepted) (c : ConnectionId) :
    ∀ linkOp ∈ node.linkOps c op,
      linkOp.Allowed issued (accepted c) (node.links[c]?.map (·.peerId)) := by
  intro linkOp hlinkOp
  cases linkOps_mem hlinkOp with
  | call call hcall => exact ⟨hcall, hop⟩
  | send haction =>
    cases RPC.addressed_poll hactions haction
    intro peerId hpeer id hsame
    cases hsame
  | sendAny haction hto =>
    intro peerId hpeer id hsame
    rw [hto] at hpeer
    obtain rfl := Option.some.inj hpeer
    cases RPC.addressed_poll hactions haction with
    | request hid req => exact Option.some.inj hsame ▸ hid
    | shutdown hid reason => exact Option.some.inj hsame ▸ hid
  | _ => trivial

variable [ScoreArith F]

theorem rpcCalls_issued (hinternal : ∀ peerId, issued peerId .internal)
    (hop : op.Allowed issued accepted) : ∀ call ∈ node.rpcCalls op, call.Issued issued := by
  intro call hcall
  cases rpcCalls_cases hcall with
  | sendRequest => exact hop
  | ping | metaDataRequest | shutdown => exact hinternal _
  | _ => trivial

theorem queued_addressed (hinternal : ∀ peerId, issued peerId .internal)
    (hop : op.Allowed issued accepted) : ∀ action ∈ node.queued op, action.Addressed issued :=
  outputs_forall (fun call hcall rpc =>
    rpc.queued_addressed (rpcCalls_issued hinternal hop call hcall)) _

/-- **The event that reaches the behaviour** is queued for the service, or it is a request. -/
theorem queued_report (node : Node F A S) (connection : ConnectionId) (time : Duration) :
    (∃ link event, node.links[connection]? = some link ∧
      node.arrived connection (.report connection time) = [event] ∧
      node.queued (.report connection time) =
        node.network.eth2Rpc.queued (.injectEvent time link.peerId connection event)) ∨
    node.arrived connection (.report connection time) = [] ∧
      node.queued (.report connection time) = [] := by
  have harrived : node.arrived connection (.report connection time) =
      Link.arrived node.links[connection]? .report := by
    unfold arrived linkOps
    dsimp only
    rw [if_pos rfl, List.flatMap_singleton]
  rw [harrived]
  unfold queued rpcCalls
  dsimp only
  cases hlink : node.links[connection]? with
  | none => exact .inr ⟨rfl, rfl⟩
  | some link =>
    rw [Option.toList_some, List.flatMap_singleton]
    show (∃ link' event', some link = some link' ∧ link.connection.log[link.delivered]?.toList = _ ∧
      _) ∨ link.connection.log[link.delivered]?.toList = _ ∧ _
    cases link.connection.log[link.delivered]? with
    | none => exact .inr ⟨rfl, rfl⟩
    | some event => exact .inl ⟨link, event, rfl, rfl, List.append_nil _⟩

omit [ScoreArith F] in
theorem arrived_report_of_ne (node : Node F A S) {connection c : ConnectionId} (time : Duration)
    (hne : connection ≠ c) : node.arrived c (.report connection time) = [] := by
  unfold arrived linkOps
  dsimp only
  rw [if_neg hne]
  rfl

/-- The event that reaches the behaviour is a message of the peer, unless it is a request that is
refused. -/
theorem messages_report (node : Node F A S) (connection : ConnectionId) (time : Duration) :
    (∃ link event, node.links[connection]? = some link ∧
      node.arrived connection (.report connection time) = [event] ∧
      (node.queued (.report connection time)).filterMap (·.message?) =
        [⟨link.peerId, connection, event⟩]) ∨
    (node.arrived connection (.report connection time)).filter isReply = [] ∧
      (node.queued (.report connection time)).filterMap (·.message?) = [] := by
  rcases node.queued_report connection time with
    ⟨link, event, hlink, harrived, hqueued⟩ | ⟨harrived, hqueued⟩
  · rw [harrived, hqueued]
    rcases node.network.eth2Rpc.queued_injectEvent time link.peerId connection event with
      hpass | ⟨id, req, err, rfl, hrefuse⟩
    · rw [hpass]
      exact .inl ⟨link, event, hlink, rfl, rfl⟩
    · rw [hrefuse]
      exact .inr ⟨rfl, rfl⟩
  · rw [harrived, hqueued]
    exact .inr ⟨rfl, rfl⟩

/-- What a step queues for the service of one connection. -/
def newOn (c : ConnectionId) (node : Node F A S) (op : NodeOp F A S) :
    List (HandlerEvent (RequestId A) S) :=
  (((node.queued op).filterMap (·.message?)).filter (·.connId = c)).map (·.event)

/-- **What arrives of a connection** is queued for the service, but for a request. -/
theorem newOn_arrived (c : ConnectionId) (node : Node F A S) (op : NodeOp F A S) :
    (node.newOn c op).Sublist (node.arrived c op) ∧
      (node.newOn c op).filter isReply = (node.arrived c op).filter isReply := by
  unfold newOn
  cases hreport : op.isReport with
  | false =>
    rw [queued_of_ne node hreport, arrived_of_ne c node hreport]
    exact ⟨List.Sublist.refl [], rfl⟩
  | true =>
    cases op with
    | report connection time =>
      rcases node.messages_report connection time with
        ⟨link, event, -, harrived, hmessages⟩ | ⟨harrived, hmessages⟩
      · rw [hmessages]
        by_cases hc : connection = c
        · subst hc
          rw [harrived, List.filter_cons_of_pos (by simp)]
          exact ⟨List.Sublist.refl _, rfl⟩
        · rw [node.arrived_report_of_ne time hc, List.filter_cons_of_neg (by simpa using hc)]
          exact ⟨List.Sublist.refl [], rfl⟩
      · rw [hmessages]
        by_cases hc : connection = c
        · subst hc
          exact ⟨List.nil_sublist _, harrived.symm⟩
        · rw [node.arrived_report_of_ne time hc]
          exact ⟨List.Sublist.refl [], rfl⟩
    | _ => cases hreport

/-- A message names the peer of its connection. -/
theorem queued_peers (node : Node F A S) (op : NodeOp F A S) :
    ∀ message ∈ (node.queued op).filterMap (·.message?),
      node.links[message.connId]?.map (·.peerId) = some message.peerId := by
  cases hreport : op.isReport with
  | false =>
    rw [queued_of_ne node hreport]
    exact List.forall_mem_nil _
  | true =>
    cases op with
    | report connection time =>
      rcases node.messages_report connection time with
        ⟨link, event, hlink, -, hmessages⟩ | ⟨-, hmessages⟩
      · rw [hmessages]
        refine List.forall_mem_singleton.2 ?_
        dsimp only
        rw [hlink]
        rfl
      · rw [hmessages]
        exact List.forall_mem_nil _
    | _ => cases hreport

variable [DecidableEq A]

theorem toldOn_step (env : NodeEnv S) (c : ConnectionId) (node : Node F A S) (op : NodeOp F A S) :
    (node.step env op).toldOn c = node.toldOn c ++ node.newOn c op := by
  unfold toldOn newOn
  rw [told_step, List.filter_append, List.map_append]

theorem reported_step (env : NodeEnv S) (hs : node.Sound issued accepted) (c : ConnectionId)
    (op : NodeOp F A S) : (node.step env op).reported c = node.reported c ++ node.arrived c op := by
  unfold reported arrived
  rw [links_step]
  rcases linkOps_cases c node op with hnone | ⟨linkOp, hone⟩
  · rw [hnone]
    exact (List.append_nil _).symm
  · rw [hone, List.flatMap_singleton]
    exact Link.reported_step env.errorText (hs.links c) linkOp

theorem peerId_step (env : NodeEnv S) {c : ConnectionId} {peerId : PeerId}
    (hpeer : node.links[c]?.map (·.peerId) = some peerId) (op : NodeOp F A S) :
    (node.step env op).links[c]?.map (·.peerId) = some peerId := by
  rw [links_step]
  rcases linkOps_cases c node op with hnone | ⟨linkOp, hone⟩
  · rw [hnone]
    exact hpeer
  · rw [hone]
    exact Link.peerId_step env.errorText hpeer linkOp

omit [ScoreArith F] in
theorem sound_new (issued : PeerId → RequestId A → Prop)
    (accepted : ConnectionId → InboundRequest → Prop) (peerManager : PeerManager F)
    (discovery : Discovery) (metadata : NodeMetadata S) (limiter : RPCRateLimiter) :
    (new peerManager discovery metadata limiter : Node F A S).Sound issued accepted where
  actions := List.forall_mem_nil _
  links c link hlink := by cases hlink
  peers := List.forall_mem_nil _
  inOrder c := List.Sublist.refl []
  complete c := rfl

/-- **A step keeps the books.** -/
theorem Sound.step (hs : node.Sound issued accepted) (env : NodeEnv S)
    (hinternal : ∀ peerId, issued peerId .internal) (hop : op.Allowed issued accepted) :
    (node.step env op).Sound issued accepted where
  actions action haction := by
    have hmem : action ∈ node.network.eth2Rpc.events ++ node.queued op := by
      rw [← queue_step env]
      exact List.mem_append_right _ haction
    rcases List.mem_append.1 hmem with hold | hnew
    · exact hs.actions action hold
    · exact queued_addressed hinternal hop action hnew
  links c link hlink := by
    have hallowed := linkOps_allowed hs.actions hop c
    rw [links_step] at hlink
    rcases linkOps_cases c node op with hnone | ⟨linkOp, hone⟩
    · rw [hnone] at hlink
      exact hs.links c link hlink
    · rw [hone] at hlink hallowed
      exact Link.sound_step env.errorText (hs.links c) (hallowed linkOp List.mem_cons_self) link
        hlink
  peers message hmessage := by
    rw [told_step] at hmessage
    rcases List.mem_append.1 hmessage with hold | hnew
    · exact peerId_step env (hs.peers message hold) op
    · exact peerId_step env (node.queued_peers op message hnew) op
  inOrder c := by
    rw [toldOn_step, reported_step env hs]
    exact (hs.inOrder c).append (node.newOn_arrived c op).1
  complete c := by
    rw [toldOn_step, reported_step env hs, List.filter_append, List.filter_append, hs.complete c,
      (node.newOn_arrived c op).2]

end Node

end Consentry
