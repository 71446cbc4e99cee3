import Consentry.Network.Swarm
import Consentry.Verify.RpcBehaviour

/-!
# The parts of a node

A run of a node is a run of each of its parts.

* **`links_step`**: a connection moves by `Node.linkOps`.
* **`eth2Rpc_step`**: the RPC behaviour moves by `Node.rpcCalls`.
-/

namespace Consentry

open Lib
open Rpc

/-! ## Connections -/

/-- What happens to one connection. -/
inductive LinkOp (A : Type) (S : EthSpec)
  | establish (peerId : PeerId)
  | close
  | call (call : Call (RequestId A) S)
  | notify
  | send (event : RPCSend (RequestId A) S)
  | report

namespace Link

variable {A : Type} [DecidableEq A] {S : EthSpec}

/-- What becomes of a connection, before and after it is established. -/
def step (errorText : ErrorType → String) : Option (Link A S) → LinkOp A S → Option (Link A S)
  | none, .establish peerId => some (.new peerId)
  | none, _ => none
  | some link, .establish _ => some link
  | some link, .close => some { link with isOpen := false }
  | some link, .call call => some (link.call errorText call)
  | some link, .notify => some (link.notify errorText)
  | some link, .send event => some (link.send event)
  | some link, .report =>
    if link.delivered < link.connection.log.length then
      some { link with delivered := link.delivered + 1 }
    else some link

end Link

namespace Node

variable {F A : Type} [DecidableEq A] {S : EthSpec}

/-- What an action of the behaviour does to a connection. -/
def actionOps (node : Node F A S) (c any : ConnectionId) :
    NetworkBehaviourAction (RequestId A) S → List (LinkOp A S)
  | .generateEvent _ => []
  | .notifyHandler _ (.one connection) event => if connection = c then [.send event] else []
  | .notifyHandler peerId .any event =>
    if any = c ∧ (node.links[c]?.map (·.peerId)) = some peerId then [.send event] else []

/-- What a step does to a connection. -/
def linkOps (c : ConnectionId) (node : Node F A S) : NodeOp F A S → List (LinkOp A S)
  | .establish peerId => if node.links.length = c then [.establish peerId] else []
  | .close connection => if connection = c then [.close] else []
  | .call connection call _ => if connection = c then [.call call] else []
  | .notify connection => if connection = c then [.notify] else []
  | .report connection _ => if connection = c then [.report] else []
  | .pollRpc prunes any _ =>
    (node.network.eth2Rpc.poll prunes).2.toList.flatMap (node.actionOps c any)
  | _ => []

/-- What a step does to a connection, by the steps that do something. -/
inductive LinkCall (node : Node F A S) (c : ConnectionId) : NodeOp F A S → LinkOp A S → Prop
  | establish (peerId : PeerId) (hnew : node.links.length = c) :
    LinkCall node c (.establish peerId) (.establish peerId)
  | close : LinkCall node c (.close c) .close
  | call (call : Call (RequestId A) S) (h : call.isInjectEvent = false) :
    LinkCall node c (.call c call h) (.call call)
  | notify : LinkCall node c (.notify c) .notify
  | report (time : Duration) : LinkCall node c (.report c time) .report
  | send {prunes : List Duration} {any : ConnectionId} {now : Instant} {peerId : PeerId}
      {event : RPCSend (RequestId A) S}
      (haction : (node.network.eth2Rpc.poll prunes).2 =
        some (.notifyHandler peerId (.one c) event)) :
    LinkCall node c (.pollRpc prunes any now) (.send event)
  | sendAny {prunes : List Duration} {now : Instant} {peerId : PeerId}
      {event : RPCSend (RequestId A) S}
      (haction : (node.network.eth2Rpc.poll prunes).2 = some (.notifyHandler peerId .any event))
      (hpeer : node.links[c]?.map (·.peerId) = some peerId) :
    LinkCall node c (.pollRpc prunes c now) (.send event)

omit [DecidableEq A] in
theorem linkOps_mem {c : ConnectionId} {node : Node F A S} {op : NodeOp F A S} {linkOp : LinkOp A S}
    (hlinkOp : linkOp ∈ node.linkOps c op) : node.LinkCall c op linkOp := by
  have hif : ∀ (p : Prop) [Decidable p] {o : LinkOp A S}, linkOp ∈ (if p then [o] else []) →
      p ∧ linkOp = o := by
    intro p _ o ho
    split at ho
    · exact ⟨‹p›, List.mem_singleton.1 ho⟩
    · cases ho
  cases op with
  | establish peerId =>
    obtain ⟨hnew, rfl⟩ := hif _ hlinkOp
    exact .establish peerId hnew
  | close | call | notify | report =>
    obtain ⟨rfl, rfl⟩ := hif _ hlinkOp
    constructor
  | pollRpc prunes any now =>
    obtain ⟨action, haction, hlinkOp⟩ := List.mem_flatMap.1 hlinkOp
    rw [Option.mem_toList] at haction
    rcases action with message | ⟨peerId, connection | -, event⟩
    · cases hlinkOp
    · obtain ⟨rfl, rfl⟩ := hif _ hlinkOp
      exact .send haction
    · obtain ⟨⟨rfl, hpeer⟩, rfl⟩ := hif _ hlinkOp
      exact .sendAny haction hpeer
  | _ => cases hlinkOp

omit [DecidableEq A] in
theorem modifyLink_links (node : Node F A S) (connection c : ConnectionId)
    (f : Link A S → Link A S) : (node.modifyLink connection f).links[c]? =
      if connection = c then node.links[c]?.map f else node.links[c]? := by
  unfold modifyLink
  rw [List.getElem?_modify]
  split
  · rfl
  · exact Option.map_id'

/-- A change of one connection is a step of it. -/
theorem modifyLink_step {errorText : ErrorType → String} {node : Node F A S}
    {connection c : ConnectionId} {f : Link A S → Link A S} {op : LinkOp A S}
    (hnone : Link.step errorText none op = none)
    (hsome : ∀ link, Link.step errorText (some link) op = some (f link)) :
    (node.modifyLink connection f).links[c]? =
      (if connection = c then [op] else []).foldl (Link.step errorText) node.links[c]? := by
  rw [modifyLink_links]
  split
  · show node.links[c]?.map f = Link.step errorText node.links[c]? op
    cases node.links[c]? with
    | none => exact hnone.symm
    | some link => exact (hsome link).symm
  · rfl

theorem establish_links (errorText : ErrorType → String) (node : Node F A S) (peerId : PeerId)
    (c : ConnectionId) : (node.establish peerId).links[c]? =
      (node.linkOps c (.establish peerId)).foldl (Link.step errorText) node.links[c]? := by
  show (node.links ++ [.new peerId])[c]? =
    (if node.links.length = c then [.establish peerId] else []).foldl (Link.step errorText)
      node.links[c]?
  rcases Nat.lt_trichotomy c node.links.length with hlt | rfl | hgt
  · rw [if_neg (Nat.ne_of_gt hlt)]
    exact List.getElem?_append_left hlt
  · rw [if_pos rfl, List.getElem?_eq_none (Nat.le_refl _)]
    exact List.getElem?_concat_length
  · rw [if_neg (Nat.ne_of_lt hgt), List.getElem?_eq_none (Nat.le_of_lt hgt)]
    refine List.getElem?_eq_none ?_
    rw [List.length_append]
    exact hgt

theorem report_links (errorText : ErrorType → String) (node : Node F A S)
    (connection : ConnectionId) (timeSinceStart : Duration) (c : ConnectionId) :
    (node.report connection timeSinceStart).links[c]? =
      (node.linkOps c (.report connection timeSinceStart)).foldl (Link.step errorText)
        node.links[c]? := by
  show _ = (if connection = c then [.report] else []).foldl (Link.step errorText) node.links[c]?
  unfold report
  by_cases hc : connection = c
  · subst hc
    rw [if_pos rfl]
    cases hlink : node.links[connection]? with
    | none => exact hlink
    | some link =>
      show _ = if link.delivered < link.connection.log.length then _ else _
      dsimp only
      by_cases hlt : link.delivered < link.connection.log.length
      · rw [if_pos hlt, List.getElem?_eq_getElem hlt]
        dsimp only
        rw [modifyLink_links, if_pos rfl]
        exact congrArg _ hlink
      · rw [if_neg hlt, List.getElem?_eq_none (Nat.le_of_not_lt hlt)]
        exact hlink
  · rw [if_neg hc]
    split
    · rfl
    · split
      · rfl
      · rw [modifyLink_links, if_neg hc]
        rfl

variable [ScoreArith F]

theorem handleAction_links (env : NodeEnv S) (node : Node F A S) (any : ConnectionId)
    (now : Instant) (action : NetworkBehaviourAction (RequestId A) S) (c : ConnectionId) :
    (node.handleAction env any now action).links[c]? =
      (node.actionOps c any action).foldl (Link.step env.errorText) node.links[c]? := by
  cases action with
  | generateEvent message => rfl
  | notifyHandler peerId handler event =>
    cases handler with
    | one connection => exact modifyLink_step rfl fun _ => rfl
    | any =>
      dsimp only [handleAction, actionOps]
      rw [modifyLink_links]
      by_cases hany : any = c
      · rw [if_pos hany]
        cases node.links[c]? with
        | none => rw [if_neg fun h => by cases h.2]; rfl
        | some link =>
          dsimp only [Option.map_some]
          unfold Link.sendAny
          by_cases hpeer : link.peerId = peerId
          · rw [if_pos hpeer, if_pos ⟨hany, congrArg some hpeer⟩]
            rfl
          · rw [if_neg hpeer, if_neg fun h => hpeer (Option.some.inj h.2)]
            rfl
      · rw [if_neg hany, if_neg fun h => hany h.1]
        rfl

theorem pollRpc_links (env : NodeEnv S) (node : Node F A S) (prunes : List Duration)
    (any : ConnectionId) (now : Instant) (c : ConnectionId) :
    (node.pollRpc env prunes any now).links[c]? =
      (node.linkOps c (.pollRpc prunes any now)).foldl (Link.step env.errorText)
        node.links[c]? := by
  show _ = ((node.network.eth2Rpc.poll prunes).2.toList.flatMap (node.actionOps c any)).foldl
    (Link.step env.errorText) node.links[c]?
  unfold pollRpc
  generalize node.network.eth2Rpc.poll prunes = polled
  obtain ⟨rpc, action⟩ := polled
  cases action with
  | none => rfl
  | some action =>
    dsimp only
    rw [handleAction_links, Option.toList_some, List.flatMap_singleton]
    rfl

omit [DecidableEq A] in
theorem pollPm_links (env : NodeEnv S) (node : Node F A S) (inp : PollInput F) :
    (node.pollPm env inp).links = node.links := by
  unfold pollPm
  obtain ⟨peerManager, result⟩ := node.network.peerManager.poll inp
  cases result <;> rfl

/-- **A step, as a connection sees it.** -/
theorem links_step (env : NodeEnv S) (c : ConnectionId) (node : Node F A S) (op : NodeOp F A S) :
    (node.step env op).links[c]? =
      (node.linkOps c op).foldl (Link.step env.errorText) node.links[c]? := by
  cases op with
  | establish peerId => exact node.establish_links env.errorText peerId c
  | close connection => exact modifyLink_step rfl fun _ => rfl
  | call connection call _ => exact modifyLink_step rfl fun _ => rfl
  | notify connection => exact modifyLink_step rfl fun _ => rfl
  | report connection time => exact node.report_links env.errorText connection time c
  | pollRpc prunes any now => exact node.pollRpc_links env prunes any now c
  | pollPm inp => exact congrArg (·[c]?) (node.pollPm_links env inp)
  | _ => rfl

end Node

/-! ## The RPC behaviour -/

namespace NetworkService

variable {F A : Type} [ScoreArith F] {S : EthSpec}

/-- How the service answers a message itself. -/
def answers (n : NetworkService F A S) (message : RPCMessage (RequestId A) S) :
    List (RPCOp (RequestId A) S) :=
  if n.peerManager.peerdb.isConnected message.peerId then
    match message.event with
    | .ok (.request id (.ping _)) =>
      [.sendResponse message.peerId (message.connId, id)
        (.success (.pong ⟨n.localMetadata.seqNumber⟩))]
    | .ok (.request id .metaData) =>
      [.sendResponse message.peerId (message.connId, id) (.success (.metaData n.localMetadata))]
    | _ => []
  else []

/-- How the service answers an action of the behaviour itself. -/
def actionAnswers (n : NetworkService F A S) :
    NetworkBehaviourAction (RequestId A) S → List (RPCOp (RequestId A) S)
  | .generateEvent message => n.answers message
  | .notifyHandler _ _ _ => []

/-- What an event of the peer manager makes the service send. -/
def pmSends (n : NetworkService F A S) : PeerManagerEvent → List (RPCOp (RequestId A) S)
  | .ping peerId => [.sendRequest peerId .internal (.ping ⟨n.localMetadata.seqNumber⟩)]
  | .metaData peerId => [.sendRequest peerId .internal .metaData]
  | .disconnectPeer peerId reason => [.shutdown peerId .internal reason]
  | _ => []

omit [ScoreArith F] in
/-- The service answers a message with its metadata. -/
theorem mem_actionAnswers {n : NetworkService F A S}
    {actions : List (NetworkBehaviourAction (RequestId A) S)} {call : RPCOp (RequestId A) S}
    (hcall : call ∈ actions.flatMap n.actionAnswers) :
    ∃ peerId id, call = .sendResponse peerId id (.success (.pong ⟨n.localMetadata.seqNumber⟩)) ∨
      call = .sendResponse peerId id (.success (.metaData n.localMetadata)) := by
  obtain ⟨action, -, hcall⟩ := List.mem_flatMap.1 hcall
  cases action with
  | notifyHandler => cases hcall
  | generateEvent message =>
    unfold actionAnswers answers at hcall
    dsimp only at hcall
    split at hcall
    · split at hcall
      · exact ⟨_, _, .inl (List.mem_singleton.1 hcall)⟩
      · exact ⟨_, _, .inr (List.mem_singleton.1 hcall)⟩
      · cases hcall
    · cases hcall

theorem injectRpcEvent_rpc (bits : Bitfields S) (n : NetworkService F A S)
    (message : RPCMessage (RequestId A) S) (now : Instant) :
    (n.injectRpcEvent bits message now).1.eth2Rpc =
      (n.answers message).foldl RPC.step n.eth2Rpc := by
  unfold injectRpcEvent answers
  dsimp only
  cases n.peerManager.peerdb.isConnected message.peerId with
  | false => rfl
  | true =>
    rcases message.event with (_ | _) | ⟨id, request⟩ | ⟨id, response⟩ | ⟨id, termination⟩
    · rfl
    · rfl
    · cases request with
      | blocksByRange req =>
        show (n.injectRequest message.peerId (message.connId, id) (.blocksByRange req)
          now).1.eth2Rpc = n.eth2Rpc
        dsimp only [injectRequest]
        split <;> rfl
      | _ => rfl
    · cases response <;> rfl
    · rfl

theorem filterSubnet_rpc (findEnr : PeerId → Option Enr) (s : SubnetDiscovery)
    (acc : NetworkService F A S × List SubnetDiscovery) :
    (filterSubnet findEnr acc s).1.eth2Rpc = acc.1.eth2Rpc := by
  have hextend : (acc.1.extendMinTtl s).eth2Rpc = acc.1.eth2Rpc := by
    unfold extendMinTtl
    split
    · rfl
    · dsimp only
      split <;> rfl
  have hdial : ∀ n : NetworkService F A S,
      (n.dialCachedEnrsInSubnet findEnr s.subnet).eth2Rpc = n.eth2Rpc := by
    intro n
    unfold dialCachedEnrsInSubnet
    dsimp only
    refine foldl_keeps (g := fun n : NetworkService F A S => n.eth2Rpc) ?_ _ n
    exact fun _ _ => rfl
  unfold filterSubnet
  dsimp only
  split
  · exact hextend
  · exact (hdial _).trans hextend

theorem discoverSubnetPeers_rpc (n : NetworkService F A S) (findEnr : PeerId → Option Enr)
    (subnetsToDiscover : List SubnetDiscovery) :
    (n.discoverSubnetPeers findEnr subnetsToDiscover).eth2Rpc = n.eth2Rpc := by
  have hloop : (subnetsToDiscover.foldl (filterSubnet findEnr) (n, [])).1.eth2Rpc = n.eth2Rpc :=
    foldl_keeps (g := (·.1.eth2Rpc)) (fun acc s => filterSubnet_rpc findEnr s acc)
      subnetsToDiscover (n, [])
  unfold discoverSubnetPeers
  split
  · rfl
  · dsimp only
    split <;> exact hloop

theorem injectDiscoveryEvent_rpc (n : NetworkService F A S) (findEnr : PeerId → Option Enr)
    (results : List (PeerId × Option Instant)) (now : Instant) :
    (n.injectDiscoveryEvent findEnr results now).eth2Rpc = n.eth2Rpc := by
  unfold injectDiscoveryEvent
  dsimp only
  refine foldl_keeps (g := fun n : NetworkService F A S => n.eth2Rpc) ?_ _ _
  exact fun _ _ => rfl

theorem injectPmEvent_rpc (n : NetworkService F A S) (findEnr : PeerId → Option Enr)
    (event : PeerManagerEvent) :
    (n.injectPmEvent findEnr event).1.eth2Rpc = (n.pmSends event).foldl RPC.step n.eth2Rpc := by
  cases event with
  | discoverSubnetPeers subnets => exact n.discoverSubnetPeers_rpc findEnr subnets
  | _ => rfl

end NetworkService

namespace Node

variable {F A : Type} [ScoreArith F] [DecidableEq A] {S : EthSpec}

/-- What a step calls of the RPC behaviour. -/
def rpcCalls (node : Node F A S) : NodeOp F A S → List (RPCOp (RequestId A) S)
  | .sendRequest peerId requestId request =>
    [.sendRequest peerId (.application requestId) request.toOutbound]
  | .sendResponse peerId id response => [.sendResponse peerId id response.toCoded]
  | .sendErrorReponse peerId id error reason =>
    [.sendResponse peerId id (.error error (.ofString reason))]
  | .report connection time =>
    node.links[connection]?.toList.flatMap fun link =>
      link.connection.log[link.delivered]?.toList.map (.injectEvent time link.peerId connection)
  | .pollRpc prunes _ _ =>
    .poll prunes ::
      (node.network.eth2Rpc.poll prunes).2.toList.flatMap node.network.actionAnswers
  | .pollPm inp =>
    match (node.network.peerManager.poll inp).2 with
    | .generateEvent event => node.network.pmSends event
    | _ => []
  | _ => []

/-- A call of a step: what the application asks for, what a handler has reported, the poll, or what
the service sends by itself. -/
inductive RpcCall (node : Node F A S) : NodeOp F A S → RPCOp (RequestId A) S → Prop
  | sendRequest (peerId : PeerId) (id : A) (request : Rpc.Request) :
    RpcCall node (.sendRequest peerId id request)
      (.sendRequest peerId (.application id) request.toOutbound)
  | sendResponse (peerId : PeerId) (id : PeerRequestId) (response : Rpc.Response S) :
    RpcCall node (.sendResponse peerId id response) (.sendResponse peerId id response.toCoded)
  | sendErrorReponse (peerId : PeerId) (id : PeerRequestId) (error : RPCResponseErrorCode)
      (reason : String) :
    RpcCall node (.sendErrorReponse peerId id error reason)
      (.sendResponse peerId id (.error error (.ofString reason)))
  | report {connection : ConnectionId} {link : Link A S} {event : HandlerEvent (RequestId A) S}
      (time : Duration) (hlink : node.links[connection]? = some link)
      (hevent : link.connection.log[link.delivered]? = some event) :
    RpcCall node (.report connection time) (.injectEvent time link.peerId connection event)
  | poll (prunes : List Duration) (any : ConnectionId) (now : Instant) :
    RpcCall node (.pollRpc prunes any now) (.poll prunes)
  | pong (prunes : List Duration) (any : ConnectionId) (now : Instant) (peerId : PeerId)
      (id : PeerRequestId) :
    RpcCall node (.pollRpc prunes any now)
      (.sendResponse peerId id (.success (.pong ⟨node.network.localMetadata.seqNumber⟩)))
  | metaData (prunes : List Duration) (any : ConnectionId) (now : Instant) (peerId : PeerId)
      (id : PeerRequestId) :
    RpcCall node (.pollRpc prunes any now)
      (.sendResponse peerId id (.success (.metaData node.network.localMetadata)))
  | ping (inp : PollInput F) (peerId : PeerId) :
    RpcCall node (.pollPm inp)
      (.sendRequest peerId .internal (.ping ⟨node.network.localMetadata.seqNumber⟩))
  | metaDataRequest (inp : PollInput F) (peerId : PeerId) :
    RpcCall node (.pollPm inp) (.sendRequest peerId .internal .metaData)
  | shutdown (inp : PollInput F) (peerId : PeerId) (reason : GoodbyeReason) :
    RpcCall node (.pollPm inp) (.shutdown peerId .internal reason)

omit [DecidableEq A] in
/-- **The calls of a step**, all of them. -/
theorem rpcCalls_cases {node : Node F A S} {op : NodeOp F A S} {call : RPCOp (RequestId A) S}
    (hcall : call ∈ node.rpcCalls op) : node.RpcCall op call := by
  cases op with
  | sendRequest | sendResponse | sendErrorReponse =>
    rw [List.mem_singleton.1 hcall]
    constructor
  | report connection time =>
    obtain ⟨link, hlink, hcall⟩ := List.mem_flatMap.1 hcall
    obtain ⟨event, hevent, rfl⟩ := List.mem_map.1 hcall
    exact .report time (Option.mem_toList.1 hlink) (Option.mem_toList.1 hevent)
  | pollRpc prunes any now =>
    rcases List.mem_cons.1 hcall with rfl | hcall
    · constructor
    · obtain ⟨peerId, id, rfl | rfl⟩ := NetworkService.mem_actionAnswers hcall
      · constructor
      · constructor
  | pollPm inp =>
    unfold rpcCalls at hcall
    dsimp only at hcall
    split at hcall
    · next event _ =>
      cases event with
      | ping | metaData | disconnectPeer =>
        rw [List.mem_singleton.1 hcall]
        constructor
      | _ => cases hcall
    · cases hcall
  | _ => cases hcall

/-- **A step, as the RPC behaviour sees it.** -/
theorem eth2Rpc_step (env : NodeEnv S) (node : Node F A S) (op : NodeOp F A S) :
    (node.step env op).network.eth2Rpc =
      (node.rpcCalls op).foldl RPC.step node.network.eth2Rpc := by
  cases op with
  | discoverSubnetPeers subnets => exact node.network.discoverSubnetPeers_rpc env.findEnr subnets
  | discovered results now =>
    exact node.network.injectDiscoveryEvent_rpc env.findEnr results now
  | report connection time =>
    show (node.report connection time).network.eth2Rpc = _
    unfold report rpcCalls
    dsimp only
    cases node.links[connection]? with
    | none => rfl
    | some link =>
      dsimp only
      rw [Option.toList_some, List.flatMap_singleton]
      cases link.connection.log[link.delivered]? with
      | none => rfl
      | some event => rfl
  | pollRpc prunes any now =>
    show (node.pollRpc env prunes any now).network.eth2Rpc = _
    unfold pollRpc rpcCalls
    dsimp only
    rw [List.foldl_cons]
    show _ = List.foldl RPC.step (node.network.eth2Rpc.poll prunes).1 _
    generalize node.network.eth2Rpc.poll prunes = polled
    obtain ⟨rpc, _ | ⟨message | ⟨peerId, handler, event⟩⟩⟩ := polled
    · rfl
    · dsimp only
      rw [Option.toList_some, List.flatMap_singleton]
      exact NetworkService.injectRpcEvent_rpc env.bits (node.network.withRpc rpc) message now
    · cases handler <;> rfl
  | pollPm inp =>
    show (node.pollPm env inp).network.eth2Rpc = _
    unfold pollPm rpcCalls
    dsimp only
    generalize node.network.peerManager.poll inp = polled
    obtain ⟨peerManager, result⟩ := polled
    cases result with
    | generateEvent event =>
      exact (node.network.withPm peerManager).injectPmEvent_rpc env.findEnr event
    | _ => rfl
  | _ => rfl

end Node

end Consentry
