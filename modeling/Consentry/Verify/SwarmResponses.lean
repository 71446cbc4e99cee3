import Consentry.Verify.InboundChunks
import Consentry.Verify.SwarmRequests

/-!
# Responses to the requests of peers

A response goes from the application to the queue of the RPC behaviour, from there to the handler
of a connection, to the queue of a substream, and to the substream. **`Node.responses_belong`**:
nothing arrives at the substream of a request but what the application has sent for this request,
in the same order, and the notice of a timeout.
-/

namespace Consentry

open Lib
open Rpc

variable {F A : Type} {S : EthSpec}

/-! ## Connections -/

namespace Rpc

/-- The notice that a timeout queues. -/
def RPCCodedResponse.isTimeout : RPCCodedResponse S → Bool
  | .error .serverError reason => reason = .ofString "Request timed out"
  | _ => false

/-- The response to a request that an event brings to the handler. -/
def RPCSend.response? {Id : Type} (id : SubstreamId) : RPCSend Id S → Option (RPCCodedResponse S)
  | .response inboundId message => if inboundId = id then some message else none
  | _ => none

def Call.response? {Id : Type} (id : SubstreamId) : Call Id S → Option (RPCCodedResponse S)
  | .injectEvent event => event.response? id
  | _ => none

/-- The event that a call brings to the handler. -/
def Call.event? {Id : Type} : Call Id S → Option (RPCSend Id S)
  | .injectEvent event => some event
  | _ => none

theorem Call.filterMap_event? {Id β : Type} (f : RPCSend Id S → Option β) {g : Call Id S → Option β}
    (hg : ∀ call, g call = call.event?.bind f) (calls : List (Call Id S)) :
    calls.filterMap g = (calls.filterMap (·.event?)).filterMap f := by
  rw [List.filterMap_filterMap]
  exact List.filterMap_congr fun call _ => hg call

theorem Call.response?_eq {Id : Type} (id : SubstreamId) (call : Call Id S) :
    call.response? id = call.event?.bind (·.response? id) := by
  cases call <;> rfl

namespace Connection

open Traffic

variable {Id : Type} [DecidableEq Id]

theorem queuedOf_of_forall {id : SubstreamId} {p : RPCCodedResponse S → Bool}
    {log : List (Traffic S)}
    (hlog : ∀ t ∈ log, ∀ message, t = .queued id message → p message = false) :
    (queuedOf id log).filter p = [] := by
  refine List.filter_eq_nil_iff.2 fun message hmessage => ?_
  obtain ⟨t, ht, hsome⟩ := List.mem_filterMap.1 hmessage
  cases t with
  | accepted | handed => cases hsome
  | queued id' message' =>
    dsimp only at hsome
    split at hsome
    · next hid =>
      obtain rfl := Option.some.inj hsome
      rw [hlog _ ht _ (hid ▸ rfl)]
      exact Bool.false_ne_true
    · cases hsome

omit [DecidableEq Id] in
/-- What a poll queues are the notices of timeouts. -/
theorem pollTraffic_queued (io : PollIo S) (h : RPCHandler Id S) {id : SubstreamId}
    {message : RPCCodedResponse S} (hqueued : .queued id message ∈ h.pollTraffic io) :
    message.isTimeout = true := by
  unfold RPCHandler.pollTraffic at hqueued
  split at hqueued
  · rcases List.mem_append.1 hqueued with htimeout | hdrive
    · obtain ⟨r, -, ht⟩ := List.mem_flatMap.1 htimeout
      unfold RPCHandler.timeoutTraffic at ht
      split at ht
      · cases ht
      · split at ht
        · cases ht
        · split at ht
          · cases ht
          · obtain ⟨item, hitem, hsame⟩ := List.mem_map.1 ht
            obtain ⟨-, rfl⟩ := Traffic.queued.inj hsame
            unfold InboundInfo.timeoutItems at hitem
            split at hitem
            · rw [List.mem_singleton.1 hitem]
              exact decide_eq_true rfl
            · cases hitem
    · split at hdrive
      · obtain ⟨id', -, ht⟩ := List.mem_flatMap.1 hdrive
        unfold RPCHandler.driveTraffic at ht
        split at ht
        · cases ht
        · obtain ⟨item, -, hsame⟩ := List.mem_map.1 ht
          cases hsame
      · cases hdrive
  · cases hqueued

omit [DecidableEq Id] in
/-- **What a call queues** for a request is the response that it brings, or the notice of a
timeout. -/
theorem traffic_queued (c : Connection Id S) (id : SubstreamId) (call : Call Id S) :
    ((queuedOf id (c.traffic call)).filter fun m => !m.isTimeout).Sublist
      ([call].filterMap (·.response? id)) := by
  unfold traffic
  split
  · exact List.nil_sublist _
  · cases call with
    | injectEvent event =>
      cases event with
      | request | shutdown => exact List.nil_sublist _
      | response inboundId message =>
        refine List.filter_sublist.trans ?_
        dsimp only [RPCHandler.responseTraffic]
        split
        · by_cases hid : inboundId = id
          · simp [queuedOf, Call.response?, RPCSend.response?, hid]
          · simp [queuedOf, hid]
        · exact List.nil_sublist _
    | injectFullyNegotiatedInbound req substream preferred =>
      refine List.filter_sublist.trans ?_
      dsimp only [RPCHandler.requestTraffic]
      split <;> exact List.nil_sublist _
    | poll io =>
      dsimp only
      rw [queuedOf_of_forall fun t ht message hsame => by
        rw [pollTraffic_queued io c.handler (hsame ▸ ht), Bool.not_true]]
      exact List.nil_sublist _
    | _ => exact List.nil_sublist _

/-- What is queued for a request in a run are the responses that are brought, in order. -/
theorem run_queued (errorText : ErrorType → String) (id : SubstreamId) (calls : List (Call Id S))
    (c : Connection Id S) :
    ((queuedOf id (outputs (step errorText) traffic c calls)).filter fun m => !m.isTimeout).Sublist
      (calls.filterMap (·.response? id)) := by
  induction calls generalizing c with
  | nil => exact List.nil_sublist _
  | cons call calls ih =>
    rw [outputs, queuedOf_append, List.filter_append]
    have hsplit : (call :: calls).filterMap (·.response? id) =
        [call].filterMap (·.response? id) ++ calls.filterMap (·.response? id) :=
      List.filterMap_append (l := [call])
    rw [hsplit]
    exact (c.traffic_queued id call).append (ih _)

omit [DecidableEq Id] in
theorem requestTraffic_ids (h : RPCHandler Id S) (req : InboundRequest)
    (substream : InboundSubstream S) (preferred : ℕ) :
    acceptedIds (h.requestTraffic req substream preferred) = [] ∧
      (h.injectFullyNegotiatedInbound req substream preferred).currentInboundSubstreamId =
        h.currentInboundSubstreamId ∨
    acceptedIds (h.requestTraffic req substream preferred) = [h.currentInboundSubstreamId] ∧
      (h.injectFullyNegotiatedInbound req substream preferred).currentInboundSubstreamId =
        h.currentInboundSubstreamId + 1 := by
  have hreceived := RPCHandler.injectFullyNegotiatedInbound_received h req substream preferred
  generalize h.requestTraffic req substream preferred = log at hreceived ⊢
  generalize h.injectFullyNegotiatedInbound req substream preferred = h' at hreceived ⊢
  cases hreceived with
  | rejected hsame => exact .inl ⟨rfl, hsame.currentInboundSubstreamId⟩
  | accepted hcurrent => exact .inr ⟨rfl, hcurrent⟩

theorem answer_current {c : Connection Id S} (info : Id × OutboundRequest)
    {inject : RPCHandler Id S → RPCHandler Id S}
    (hcurrent : (inject c.handler).currentInboundSubstreamId =
      c.handler.currentInboundSubstreamId) :
    (c.answer info inject).handler.currentInboundSubstreamId =
      c.handler.currentInboundSubstreamId := by
  by_cases hopen : info ∈ c.opening
  · rw [answer_of_mem hopen]
    exact hcurrent
  · rw [answer_of_not_mem hopen]

/-- The ids of the substreams on which requests are received are given out in order. -/
theorem acceptedIds_step {log : List (Traffic S)} {c : Connection Id S} (hr : Recorded log c)
    (errorText : ErrorType → String) (call : Call Id S) :
    acceptedIds (c.traffic call) = [] ∧ (c.step errorText call).handler.currentInboundSubstreamId =
      c.handler.currentInboundSubstreamId ∨
    acceptedIds (c.traffic call) = [c.handler.currentInboundSubstreamId] ∧
      (c.step errorText call).handler.currentInboundSubstreamId =
        c.handler.currentInboundSubstreamId + 1 := by
  have hlive := hr.safe.live
  have hsafe := (hr.safe.step errorText call).1
  unfold traffic
  rw [if_neg (by simp [hlive])]
  rw [step_of_live hlive] at hsafe ⊢
  cases call with
  | injectEvent event =>
    cases event with
    | request id req =>
      exact .inl ⟨rfl, (RPCHandler.sendRequest_sameInbound _ id req).currentInboundSubstreamId⟩
    | response inboundId message =>
      exact .inl ⟨RPCHandler.acceptedIds_responseTraffic inboundId message,
        RPCHandler.sendResponse_current errorText c.handler inboundId message⟩
    | shutdown id reason =>
      exact .inl ⟨rfl, (RPCHandler.shutdown_sameInbound _ _).currentInboundSubstreamId⟩
  | injectFullyNegotiatedInbound req substream preferred =>
    exact requestTraffic_ids c.handler req substream preferred
  | injectFullyNegotiatedOutbound info preferred =>
    exact .inl ⟨rfl, answer_current info (RPCHandler.injectFullyNegotiatedOutbound_sameInbound
      c.handler info preferred).currentInboundSubstreamId⟩
  | injectDialUpgradeError info error =>
    exact .inl ⟨rfl, answer_current info (RPCHandler.injectDialUpgradeError_sameInbound c.handler
      info error).currentInboundSubstreamId⟩
  | poll io =>
    refine .inl ⟨RPCHandler.acceptedIds_pollTraffic io _, ?_⟩
    have hcurrent := RPCHandler.poll_acceptsNone errorText io c.handler
    dsimp only [handle] at hsafe ⊢
    generalize c.handler.poll errorText io = phase at hsafe hcurrent ⊢
    cases phase with
    | next h => exact hcurrent
    | panicked => cases hsafe.live
    | returned r =>
      obtain ⟨event, h⟩ := r
      cases event <;> exact hcurrent

/-- The books on the inbound requests, whose ids are given out in order. -/
structure Numbered (log : List (Traffic S)) (c : Connection Id S) : Prop where
  recorded : Recorded log c
  ids : acceptedIds log = List.range c.handler.currentInboundSubstreamId

theorem Numbered.step {log : List (Traffic S)} {c : Connection Id S} (hn : Numbered log c)
    (errorText : ErrorType → String) (call : Call Id S) :
    Numbered (log ++ c.traffic call) (c.step errorText call) := by
  refine ⟨hn.recorded.step errorText call, ?_⟩
  rw [acceptedIds_append, hn.ids]
  rcases acceptedIds_step hn.recorded errorText call with ⟨hnone, hsame⟩ | ⟨hone, hnext⟩
  · rw [hnone, hsame, List.append_nil]
  · rw [hone, hnext, List.range_succ]

/-- **What is handed to a substream** is a prefix of what is queued for it. -/
theorem handed_prefix (errorText : ErrorType → String) (calls : List (Call Id S))
    (id : SubstreamId) : handedOf id (outputs (step errorText) traffic new calls) <+:
      queuedOf id (outputs (step errorText) traffic new calls) := by
  have hrun : Numbered ([] ++ outputs (step errorText) traffic new calls)
      (calls.foldl (step errorText) new) :=
    outputs_induction (I := fun log (c : Connection Id S) => Numbered log c)
      (fun _ _ call hn => hn.step errorText call) calls ⟨recorded_new, rfl⟩
  rw [List.nil_append] at hrun
  generalize outputs (step errorText) traffic new calls = log at hrun
  generalize calls.foldl (step errorText) (new : Connection Id S) = c at hrun
  rcases Nat.lt_or_ge id c.handler.currentInboundSubstreamId with hlt | hge
  · have hmem : id ∈ acceptedIds log := hrun.ids ▸ List.mem_range.2 hlt
    obtain ⟨t, ht, hsome⟩ := List.mem_filterMap.1 hmem
    cases t with
    | queued | handed => cases hsome
    | accepted id' req substream =>
      obtain rfl := Option.some.inj hsome
      exact (hrun.recorded.known _ req substream ht).2.served.inOrder
  · rw [(hrun.recorded.ahead id hge).2.1]
    exact List.nil_prefix

end Connection

end Rpc

/-- The response to a request that a step puts on its way to the handler. -/
def LinkOp.response? (id : SubstreamId) : LinkOp A S → Option (RPCCodedResponse S)
  | .send event => event.response? id
  | _ => none

namespace Link

variable {link? : Option (Link A S)}

/-- The connection, and what it is before it is established. -/
def connection? (link? : Option (Link A S)) : Connection (RequestId A) S :=
  link?.elim .new (·.connection)

/-- What is on its way to the handler. -/
def pending (link? : Option (Link A S)) : List (RPCSend (RequestId A) S) :=
  link?.elim [] (·.toHandler)

/-- The call that the handler of an open connection receives. -/
def received (link : Link A S) (call : Call (RequestId A) S) : List (Call (RequestId A) S) :=
  if link.isOpen then [call] else []

/-- What the handler is called with in a step. -/
def calls : Option (Link A S) → LinkOp A S → List (Call (RequestId A) S)
  | some link, .call c => link.received c
  | some link, .notify => (link.toHandler.head?.toList.map .injectEvent).flatMap link.received
  | _, _ => []

/-- What is taken from the events that are on their way. -/
def notified : Option (Link A S) → LinkOp A S → List (RPCSend (RequestId A) S)
  | some link, .notify => link.toHandler.head?.toList
  | _, _ => []

/-- What is put on its way to the handler. -/
def sent : Option (Link A S) → LinkOp A S → List (RPCSend (RequestId A) S)
  | some link, .send event => if link.isOpen then [event] else []
  | _, _ => []

theorem sent_filterMap {β : Type} (f : LinkOp A S → Option β) (link? : Option (Link A S))
    (op : LinkOp A S) :
    ((sent link? op).filterMap fun event => f (.send event)).Sublist ([op].filterMap f) := by
  cases link? with
  | none => exact List.nil_sublist _
  | some link =>
    cases op with
    | send event =>
      dsimp only [sent]
      split
      · exact List.Sublist.refl _
      · exact List.nil_sublist _
    | _ => exact List.nil_sublist _

/-- What the handler is called with comes from the events on their way to it. -/
theorem calls_events (link? : Option (Link A S)) {op : LinkOp A S}
    (hop : ∀ c, op = .call c → c.isInjectEvent = false) :
    ((calls link? op).filterMap (·.event?)).Sublist (notified link? op) := by
  cases link? with
  | none => exact List.nil_sublist _
  | some link =>
    cases op with
    | call c =>
      dsimp only [calls, received]
      split
      · cases c with
        | injectEvent event => cases hop _ rfl
        | _ => exact List.nil_sublist _
      · exact List.nil_sublist _
    | notify =>
      dsimp only [calls, notified, received]
      cases link.toHandler.head? with
      | none => exact List.nil_sublist _
      | some event =>
        rw [Option.toList_some, List.map_singleton, List.flatMap_singleton]
        unfold received
        split
        · exact List.Sublist.refl _
        · exact List.nil_sublist _
    | _ => exact List.nil_sublist _

variable [DecidableEq A]

theorem call_connection (errorText : ErrorType → String) (link : Link A S)
    (c : Call (RequestId A) S) : (link.call errorText c).connection =
      (link.received c).foldl (Connection.step errorText) link.connection := by
  unfold Link.call received
  split <;> rfl

/-- **A step of a connection** calls its handler. -/
theorem connection_step (errorText : ErrorType → String) (link? : Option (Link A S))
    (op : LinkOp A S) : connection? (step errorText link? op) =
      (calls link? op).foldl (Connection.step errorText) (connection? link?) := by
  cases link? with
  | none => cases op <;> rfl
  | some link =>
    cases op with
    | call c => exact link.call_connection errorText c
    | notify =>
      show (link.notify errorText).connection = _
      unfold Link.notify calls
      dsimp only
      cases link.toHandler with
      | nil => rfl
      | cons event toHandler =>
        rw [List.head?_cons, Option.toList_some, List.map_singleton, List.flatMap_singleton]
        exact call_connection errorText _ _
    | send event =>
      show (link.send event).connection = link.connection
      unfold Link.send
      split <;> rfl
    | report =>
      show connection? (if link.delivered < link.connection.log.length then _ else _) = _
      split <;> rfl
    | _ => rfl

/-- The events on their way to a handler are a queue. -/
theorem pending_step (errorText : ErrorType → String) (link? : Option (Link A S))
    (op : LinkOp A S) :
    notified link? op ++ pending (step errorText link? op) = pending link? ++ sent link? op := by
  have hcall : ∀ (link : Link A S) (c : Call (RequestId A) S),
      (link.call errorText c).toHandler = link.toHandler := by
    intro link c
    unfold Link.call
    split <;> rfl
  cases link? with
  | none => cases op <;> rfl
  | some link =>
    cases op with
    | send event =>
      show (link.send event).toHandler = link.toHandler ++ if link.isOpen then [event] else []
      unfold Link.send
      split
      · rfl
      · exact (List.append_nil _).symm
    | call c => exact (hcall link c).trans (List.append_nil _).symm
    | notify =>
      refine Eq.trans ?_ (List.append_nil _).symm
      show link.toHandler.head?.toList ++ (link.notify errorText).toHandler = link.toHandler
      unfold Link.notify
      split
      · next event toHandler heq =>
        rw [hcall, heq]
        rfl
      · next heq =>
        rw [heq]
        rfl
    | report =>
      refine Eq.trans ?_ (List.append_nil _).symm
      show pending (if link.delivered < link.connection.log.length then _ else _) = link.toHandler
      split <;> rfl
    | establish | close => exact (List.append_nil _).symm

end Link

/-! ## The node -/

/-- The response to a request that an action carries. -/
def Rpc.NetworkBehaviourAction.replyTo {Id : Type} (request : PeerRequestId)
    (action : NetworkBehaviourAction Id S) : Option (RPCCodedResponse S) :=
  action.reply?.bind fun reply => if reply.1 = request then some reply.2 else none

/-- The response to a request that the application sends. -/
def NodeOp.responseTo (request : PeerRequestId) : NodeOp F A S → Option (RPCCodedResponse S)
  | .sendResponse _ id response => if id = request then some response.toCoded else none
  | .sendErrorReponse _ id error reason =>
    if id = request then some (.error error (.ofString reason)) else none
  | _ => none

namespace Node

variable [ScoreArith F] {issued : PeerId → RequestId A → Prop}
  {accepted : ConnectionId → InboundRequest → Prop} {node : Node F A S} {op : NodeOp F A S}

/-- What the handler of a connection is called with in a step. -/
def callsOn (c : ConnectionId) (node : Node F A S) (op : NodeOp F A S) :
    List (Call (RequestId A) S) :=
  (node.linkOps c op).flatMap (Link.calls node.links[c]?)

/-- What a step takes from the events that are on their way to a handler. -/
def notifiedOn (c : ConnectionId) (node : Node F A S) (op : NodeOp F A S) :
    List (RPCSend (RequestId A) S) :=
  (node.linkOps c op).flatMap (Link.notified node.links[c]?)

/-- What a step puts on its way to a handler. -/
def sentOn (c : ConnectionId) (node : Node F A S) (op : NodeOp F A S) :
    List (RPCSend (RequestId A) S) :=
  (node.linkOps c op).flatMap (Link.sent node.links[c]?)

theorem callsOn_events
    (hactions : ∀ action ∈ node.network.eth2Rpc.events, action.Addressed issued)
    (hop : op.Allowed issued accepted) (c : ConnectionId) :
    ((node.callsOn c op).filterMap (·.event?)).Sublist (node.notifiedOn c op) := by
  have hallowed := linkOps_allowed hactions hop c
  unfold callsOn notifiedOn
  rcases linkOps_cases c node op with hnone | ⟨linkOp, hone⟩
  · rw [hnone]
    exact List.nil_sublist _
  · rw [hone] at hallowed ⊢
    rw [List.flatMap_singleton, List.flatMap_singleton]
    refine Link.calls_events _ fun call hcall => ?_
    have hlinkOp := hallowed linkOp List.mem_cons_self
    rw [hcall] at hlinkOp
    exact hlinkOp.1

omit [ScoreArith F] in
theorem sentOn_filterMap {β : Type} (f : LinkOp A S → Option β) (c : ConnectionId)
    (node : Node F A S) (op : NodeOp F A S) :
    ((node.sentOn c op).filterMap fun event => f (.send event)).Sublist
      ((node.linkOps c op).filterMap f) := by
  unfold sentOn
  rcases linkOps_cases c node op with hnone | ⟨linkOp, hone⟩
  · rw [hnone]
    exact List.nil_sublist _
  · rw [hone, List.flatMap_singleton]
    exact Link.sent_filterMap f _ linkOp

/-- **A response on its way to a handler** has been taken from the queue of the behaviour. -/
theorem sentOn_popped (hactions : ∀ action ∈ node.network.eth2Rpc.events, action.Addressed issued)
    (c : ConnectionId) (id : SubstreamId) (op : NodeOp F A S) :
    ((node.sentOn c op).filterMap (·.response? id)).Sublist
      ((node.popped op).filterMap (·.replyTo (c, id))) := by
  refine (sentOn_filterMap (·.response? id) c node op).trans ?_
  rcases linkOps_cases c node op with hnone | ⟨linkOp, hone⟩
  · rw [hnone]
    exact List.nil_sublist _
  · rw [hone]
    cases linkOps_mem (hone ▸ List.mem_singleton_self linkOp) with
    | send haction =>
      rw [popped_pollRpc, haction]
      cases RPC.addressed_poll hactions haction with
      | response peerId connection id' response =>
        by_cases hid : id' = id
        · simp [LinkOp.response?, RPCSend.response?, NetworkBehaviourAction.replyTo,
            NetworkBehaviourAction.reply?, hid]
        · simp [LinkOp.response?, RPCSend.response?, hid]
    | sendAny haction hto =>
      cases RPC.addressed_poll hactions haction <;> exact List.nil_sublist _
    | _ => exact List.nil_sublist _

variable [DecidableEq A]

theorem connection_step (env : NodeEnv S) (c : ConnectionId) (node : Node F A S)
    (op : NodeOp F A S) : Link.connection? (node.step env op).links[c]? =
      (node.callsOn c op).foldl (Connection.step env.errorText)
        (Link.connection? node.links[c]?) := by
  unfold callsOn
  rw [links_step]
  rcases linkOps_cases c node op with hnone | ⟨linkOp, hone⟩
  · rw [hnone]
    rfl
  · rw [hone, List.flatMap_singleton]
    exact Link.connection_step env.errorText _ linkOp

theorem pending_step (env : NodeEnv S) (c : ConnectionId) (node : Node F A S)
    (op : NodeOp F A S) :
    node.notifiedOn c op ++ Link.pending (node.step env op).links[c]? =
      Link.pending node.links[c]? ++ node.sentOn c op := by
  unfold notifiedOn sentOn
  rw [links_step]
  rcases linkOps_cases c node op with hnone | ⟨linkOp, hone⟩
  · rw [hnone]
    exact (List.append_nil _).symm
  · rw [hone, List.flatMap_singleton, List.flatMap_singleton]
    exact Link.pending_step env.errorText _ linkOp

omit [DecidableEq A] in
/-- The responses to a request that the service does not answer are those of the application. -/
theorem queued_replies (node : Node F A S) (op : NodeOp F A S) {request : PeerRequestId}
    (hanswered : request ∉ (node.answered op).map Prod.fst) :
    (node.queued op).filterMap (·.replyTo request) = [op].filterMap (·.responseTo request) := by
  cases hresponse : op.isResponse with
  | true =>
    cases op with
    | sendResponse | sendErrorReponse => rfl
    | _ => cases hresponse
  | false =>
    have hnone : op.responseTo request = none := by
      cases op with
      | sendResponse | sendErrorReponse => cases hresponse
      | _ => rfl
    rw [List.filterMap_cons, hnone]
    refine List.filterMap_eq_nil_iff.2 fun action haction => ?_
    unfold NetworkBehaviourAction.replyTo
    cases hreply : action.reply? with
    | none => rfl
    | some reply =>
      refine if_neg fun hsame => hanswered ?_
      rw [answered_ids node hresponse, ← hsame]
      exact List.mem_filterMap.2 ⟨action, haction, by rw [hreply]; rfl⟩

theorem outputs_queued_replies (env : NodeEnv S) {request : PeerRequestId}
    (ops : List (NodeOp F A S)) {node : Node F A S}
    (hanswered : request ∉ (outputs (step env) answered node ops).map Prod.fst) :
    (outputs (step env) queued node ops).filterMap (·.replyTo request) =
      ops.filterMap (·.responseTo request) := by
  rw [outputs_map] at hanswered
  exact outputs_filterMap_of_along (fun node op h => queued_replies node op h)
    (along_of_not_mem_outputs hanswered)

/-- What goes through the inbound substreams of a connection in a step. -/
def traffic (env : NodeEnv S) (c : ConnectionId) (node : Node F A S) (op : NodeOp F A S) :
    List (Traffic S) :=
  outputs (Connection.step env.errorText) Connection.traffic (Link.connection? node.links[c]?)
    (node.callsOn c op)

/-- **The events that a handler is called with** are those that were sent to it, in order, up to
those that are still on their way. -/
theorem calls_sent (env : NodeEnv S) {ops : List (NodeOp F A S)} {start : Node F A S}
    (hinternal : ∀ peerId, issued peerId .internal)
    (hops : ∀ op ∈ ops, op.Allowed issued accepted) (hs : start.Sound issued accepted)
    (c : ConnectionId) (hpending : Link.pending start.links[c]? = []) :
    ((outputs (step env) (callsOn c) start ops).filterMap (·.event?)).Sublist
      (outputs (step env) (sentOn c) start ops) := by
  have hcalls : ((outputs (step env) (callsOn c) start ops).filterMap (·.event?)).Sublist
      (outputs (step env) (notifiedOn c) start ops) := by
    rw [filterMap_outputs]
    exact outputs_sublist (fun op hop node hs => ⟨hs.step env hinternal (hops op hop),
      callsOn_events hs.actions (hops op hop) c⟩) hs
  have hqueue := @outputs_queue _ _ (step env) _ (notifiedOn c)
    (fun node : Node F A S => Link.pending node.links[c]?) (sentOn c) (pending_step env c) ops start
  rw [hpending, List.nil_append] at hqueue
  refine hcalls.trans ?_
  rw [← hqueue]
  exact List.sublist_append_left _ _

/-- What is taken from the queue of the behaviour was put there. -/
theorem popped_sublist_queued (env : NodeEnv S) {start : Node F A S}
    (hevents : start.network.eth2Rpc.events = []) (ops : List (NodeOp F A S)) :
    (outputs (step env) popped start ops).Sublist (outputs (step env) queued start ops) := by
  have hqueue := @outputs_queue _ _ (step env) _ popped
    (fun node : Node F A S => node.network.eth2Rpc.events) queued (queue_step env) ops start
  rw [hevents, List.nil_append] at hqueue
  rw [← hqueue]
  exact List.sublist_append_left _ _

/-- The responses that the handler of a connection is called with come from the queue of the
behaviour. -/
theorem calls_replies (env : NodeEnv S) {ops : List (NodeOp F A S)} {start : Node F A S}
    (hinternal : ∀ peerId, issued peerId .internal)
    (hops : ∀ op ∈ ops, op.Allowed issued accepted) (hs : start.Sound issued accepted)
    (hevents : start.network.eth2Rpc.events = []) (c : ConnectionId)
    (hpending : Link.pending start.links[c]? = []) (id : SubstreamId) :
    ((outputs (step env) (callsOn c) start ops).filterMap (·.response? id)).Sublist
      ((outputs (step env) queued start ops).filterMap (·.replyTo (c, id))) := by
  have hsent : ((outputs (step env) (sentOn c) start ops).filterMap (·.response? id)).Sublist
      ((outputs (step env) popped start ops).filterMap (·.replyTo (c, id))) := by
    rw [filterMap_outputs, filterMap_outputs]
    exact outputs_sublist (fun op hop node hs => ⟨hs.step env hinternal (hops op hop),
      sentOn_popped hs.actions c id op⟩) hs
  rw [Call.filterMap_event? (·.response? id) (Call.response?_eq id)]
  refine ((calls_sent env hinternal hops hs c hpending).filterMap _).trans (hsent.trans ?_)
  exact (popped_sublist_queued env hevents ops).filterMap _

/-! ### The run -/

section Run

variable (env : NodeEnv S) (peerManager : PeerManager F) (discovery : Discovery)
  (metadata : NodeMetadata S) (limiter : RPCRateLimiter) (ops : List (NodeOp F A S))

/-- The service does not answer a request that was passed on. -/
theorem not_answered {peerId : PeerId} {c : ConnectionId} {id : SubstreamId}
    {request : Rpc.Request}
    (hevent : .requestReceived peerId (c, id) request ∈
      (reached env peerManager discovery metadata limiter ops).events) :
    (c, id) ∉ (outputs (step env) answered (new peerManager discovery metadata limiter) ops).map
      Prod.fst := by
  have hnodup := settled_nodup env peerManager discovery metadata limiter ops
  exact fun hmem => (List.nodup_append.1 hnodup).2.2 _ hmem _
    (List.mem_filterMap.2 ⟨_, hevent, rfl⟩) rfl

theorem handed_replies {c : ConnectionId} {id : SubstreamId}
    (hanswered : (c, id) ∉ (outputs (step env) answered
      (new peerManager discovery metadata limiter) ops).map Prod.fst) :
    ((Traffic.handedOf id (outputs (step env) (traffic env c)
      (new peerManager discovery metadata limiter) ops)).filter fun m => !m.isTimeout).Sublist
      (ops.filterMap (·.responseTo (c, id))) := by
  have htraffic :
      outputs (step env) (traffic env c) (new peerManager discovery metadata limiter) ops =
      outputs (Connection.step env.errorText) Connection.traffic .new
        (outputs (step env) (callsOn c) (new peerManager discovery metadata limiter) ops) :=
    (@outputs_part _ _ _ _ _ (step env) (Connection.step env.errorText)
      (fun node : Node F A S => Link.connection? node.links[c]?) (callsOn c) Connection.traffic
      (connection_step env c) ops (new peerManager discovery metadata limiter)).symm
  rw [htraffic, ← outputs_queued_replies env ops hanswered]
  refine ((Connection.handed_prefix env.errorText _ id).sublist.filter _).trans ?_
  refine (Connection.run_queued env.errorText id _ .new).trans ?_
  exact calls_replies env (fun _ => trivial) (fun _ hop => allowed_of_mem hop) (sound_new ..) rfl c
    rfl id

/-- **Responses go where they belong.** What is handed to the substream of a request that was passed
on are responses that the application has sent under the id of this request, in order, and the
notice that the request has timed out. -/
theorem responses_belong {peerId : PeerId} {c : ConnectionId} {id : SubstreamId}
    {request : Rpc.Request}
    (hevent : .requestReceived peerId (c, id) request ∈
      (reached env peerManager discovery metadata limiter ops).events) :
    ((Traffic.handedOf id (outputs (step env) (traffic env c)
      (new peerManager discovery metadata limiter) ops)).filter fun m => !m.isTimeout).Sublist
      (ops.filterMap (·.responseTo (c, id))) :=
  handed_replies env peerManager discovery metadata limiter ops
    (not_answered env peerManager discovery metadata limiter ops hevent)

end Run

theorem responses_belong_handshake :
    ((Traffic.handedOf 0 (outputs (step plainEnv) (traffic plainEnv 0)
      (new (.new 16 false) (.new false false) plainMetadata plainLimiter : Node ℚ ℕ PlainWire.spec)
      handshake)).filter fun m => !m.isTimeout).Sublist
      (handshake.filterMap (·.responseTo (0, 0))) :=
  responses_belong plainEnv (.new 16 false) (.new false false) plainMetadata plainLimiter handshake
    (handshake_events ▸ List.mem_cons_self)

end Node

end Consentry
