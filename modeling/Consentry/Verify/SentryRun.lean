import Consentry.SentryNode
import Consentry.Verify.HighestStatus
import Consentry.Verify.Pubsub
import Consentry.Verify.SwarmDelivery
import Consentry.Verify.SwarmPeers

/-!
# Runs of a sentry

A run of a sentry is a run of its node (`SentryRun.nodeRun`), so what holds of the runs of nodes
holds of it.

* **`SentryRun.statuses_announced`**: the statuses that the sentry announces are those of the blocks
  that it has received by then.
* **`SentryRun.requests_answered`**: a request for its status is answered with one status, and no
  other request is answered.
* **`SentryRun.status_delivered`**: a node that asks a sentry for its status is told nothing else.
* **`SentryRun.trust_followed`**: for its trusted peers, a run of a sentry is one of a `Sentry`.
-/

namespace Consentry

open Lib
open Rpc

variable {F : Type} {S : EthSpec} {G : GossipTypes}

/-! ## What the sentry asks of its node -/

/-- The status that a call announces. -/
def NodeOp.status? {A : Type} : NodeOp F A S → Option StatusMessage
  | .sendRequest _ _ (.status msg) | .sendResponse _ _ (.status msg) => some msg
  | _ => none

/-- The block that a message of gossipsub carries. -/
def SentryNodeOp.block? (env : SentryEnv S G) : SentryNodeOp F S → Option ReceivedBlock
  | .message _ topic data _ =>
    match PubsubMessage.decode env.pubsub topic data env.forkContext with
    | .ok (.beaconBlock block) => some (env.received block)
    | _ => none
  | _ => none

namespace SentryNode

/-- The calls for an event of the network. -/
def reactions (highest : StatusMessage) : NetworkEvent ℕ S → List (NodeOp F ℕ S)
  | .peerConnectedOutgoing peerId => [.sendRequest peerId 10 (.status highest)]
  | .requestReceived peerId id (.status _) => [.sendResponse peerId id (.status highest)]
  | _ => []

/-- All that an event makes the sentry call is to send its status. -/
theorem mem_reactions {highest : StatusMessage} {event : NetworkEvent ℕ S} {call : NodeOp F ℕ S}
    (hcall : call ∈ reactions highest event) :
    (∃ peerId, call = .sendRequest peerId 10 (.status highest)) ∨
      ∃ peerId id, call = .sendResponse peerId id (.status highest) := by
  cases event with
  | peerConnectedOutgoing peerId => exact .inl ⟨peerId, List.mem_singleton.1 hcall⟩
  | requestReceived peerId id request =>
    cases request with
    | status msg => exact .inr ⟨peerId, id, List.mem_singleton.1 hcall⟩
    | _ => cases hcall
  | _ => cases hcall

variable [ScoreArith F]

/-- The calls for a command. -/
def commandOps (s : SentryNode F S G) : SentryCommand → List (NodeOp F ℕ S)
  | .addTrusted peerId enr =>
    if !s.pm.peerdb.isConnected peerId then
      [.peerManager (.dialTrustedPeer peerId (some enr)) rfl]
    else []
  | .removeTrusted peerId =>
    if peerId ∈ s.trustedPeers then [.peerManager (.removeTrusted peerId) rfl] else []

omit [ScoreArith F] in
theorem mem_commandOps {s : SentryNode F S G} {cmd : SentryCommand} {call : NodeOp F ℕ S}
    (hcall : call ∈ s.commandOps cmd) : ∃ op h, call = .peerManager op h := by
  cases cmd with
  | addTrusted | removeTrusted =>
    unfold commandOps at hcall
    dsimp only at hcall
    split at hcall
    · exact ⟨_, _, List.mem_singleton.1 hcall⟩
    · cases hcall

/-- The steps of the node. -/
def nodeOps (env : SentryEnv S G) (s : SentryNode F S G) :
    SentryNodeOp F S → List (NodeOp F ℕ S)
  | .command cmd => s.commandOps cmd
  | .network op _ =>
    op :: (s.network.emitted env.node op).flatMap (reactions s.status.highestStatus)
  | .message _ _ _ _ => []

/-- What the network returns in a step. -/
def emitted (env : SentryEnv S G) (s : SentryNode F S G) :
    SentryNodeOp F S → List (NetworkEvent ℕ S)
  | .network op _ => s.network.emitted env.node op
  | _ => []

variable (env : SentryEnv S G) (s : SentryNode F S G)

theorem handleEvent_network (event : NetworkEvent ℕ S) :
    (s.handleEvent event).network =
      (reactions s.status.highestStatus event).foldl (Node.step env.node) s.network := by
  have hexplicit : ∀ (t : SentryNode F S G) peerId, (t.addExplicitPeer peerId).network =
      t.network := by
    intro t peerId
    unfold addExplicitPeer
    split <;> rfl
  cases event with
  | peerConnectedIncoming peerId => exact hexplicit s peerId
  | peerConnectedOutgoing peerId => exact hexplicit _ peerId
  | requestReceived peerId id request => cases request <;> rfl
  | _ => rfl

omit [ScoreArith F] in
/-- An event leaves the status, the trusted peers and the events alone. -/
theorem handleEvent_keeps (event : NetworkEvent ℕ S) :
    (s.handleEvent event).status = s.status ∧
      (s.handleEvent event).trustedPeers = s.trustedPeers ∧
      (s.handleEvent event).network.events = s.network.events := by
  have hexplicit : ∀ (t : SentryNode F S G) peerId,
      (t.addExplicitPeer peerId).status = t.status ∧
      (t.addExplicitPeer peerId).trustedPeers = t.trustedPeers ∧
      (t.addExplicitPeer peerId).network.events = t.network.events := by
    intro t peerId
    unfold addExplicitPeer
    split <;> exact ⟨rfl, rfl, rfl⟩
  cases event with
  | peerConnectedIncoming peerId => exact hexplicit s peerId
  | peerConnectedOutgoing peerId => exact hexplicit _ peerId
  | requestReceived peerId id request => cases request <;> exact ⟨rfl, rfl, rfl⟩
  | _ => exact ⟨rfl, rfl, rfl⟩

/-- The loop over the events that the network returns. -/
theorem handleEvents (events : List (NetworkEvent ℕ S)) :
    (events.foldl handleEvent s).network =
        (events.flatMap (reactions s.status.highestStatus)).foldl (Node.step env.node) s.network ∧
      (events.foldl handleEvent s).status = s.status ∧
      (events.foldl handleEvent s).trustedPeers = s.trustedPeers ∧
      (events.foldl handleEvent s).network.events = s.network.events := by
  induction events generalizing s with
  | nil => exact ⟨rfl, rfl, rfl, rfl⟩
  | cons event events ih =>
    obtain ⟨hnetwork, hstatus, htrusted, hevents⟩ := ih (s.handleEvent event)
    obtain ⟨hstatus', htrusted', hevents'⟩ := s.handleEvent_keeps event
    refine ⟨?_, hstatus.trans hstatus', htrusted.trans htrusted', hevents.trans hevents'⟩
    rw [List.foldl_cons, hnetwork, hstatus', handleEvent_network env, List.flatMap_cons,
      List.foldl_append]

theorem handleCommand_network (cmd : SentryCommand) :
    (s.handleCommand cmd).network = (s.commandOps cmd).foldl (Node.step env.node) s.network ∧
      (s.handleCommand cmd).status = s.status ∧
      (s.handleCommand cmd).network.events = s.network.events := by
  cases cmd with
  | addTrusted peerId enr =>
    unfold handleCommand commandOps
    dsimp only
    split <;> exact ⟨rfl, rfl, rfl⟩
  | removeTrusted peerId =>
    unfold handleCommand commandOps
    dsimp only
    split <;> exact ⟨rfl, rfl, rfl⟩

omit [ScoreArith F] in
theorem handleMessage_keeps (source : PeerId) (message : PubsubMessage S G)
    (order : Shuffle SocketAddr) :
    (s.handleMessage env source message order).network = s.network ∧
      (s.handleMessage env source message order).trustedPeers = s.trustedPeers ∧
      (s.handleMessage env source message order).explicitPeers = s.explicitPeers := by
  unfold handleMessage
  dsimp only
  cases message <;> (split <;> exact ⟨rfl, rfl, rfl⟩)

/-- **A step, as the node sees it.** -/
theorem network_step (op : SentryNodeOp F S) :
    (s.step env op).network = (s.nodeOps env op).foldl (Node.step env.node) s.network := by
  cases op with
  | command cmd => exact (s.handleCommand_network env cmd).1
  | network op h => exact (handleEvents env { s with network := s.network.step env.node op } _).1
  | message source topic data order =>
    show (s.step env (.message source topic data order)).network = s.network
    unfold step
    dsimp only
    split
    · next message _ => exact (s.handleMessage_keeps env source message order).1
    · rfl

theorem events_step (op : SentryNodeOp F S) :
    (s.step env op).network.events = s.network.events ++ s.emitted env op := by
  cases op with
  | command cmd =>
    exact (s.handleCommand_network env cmd).2.2.trans (List.append_nil _).symm
  | network op h =>
    refine (handleEvents env { s with network := s.network.step env.node op } _).2.2.2.trans ?_
    exact s.network.events_step env.node op
  | message source topic data order =>
    rw [network_step]
    exact (List.append_nil _).symm

theorem status_step (op : SentryNodeOp F S) :
    (s.step env op).status = (op.block? env).toList.foldl SentryStatus.handleBlock s.status := by
  cases op with
  | command cmd => exact (s.handleCommand_network env cmd).2.1
  | network op h => exact (handleEvents env { s with network := s.network.step env.node op } _).2.1
  | message source topic data order =>
    unfold step SentryNodeOp.block?
    dsimp only
    cases PubsubMessage.decode env.pubsub topic data env.forkContext with
    | error => rfl
    | ok message =>
      unfold handleMessage
      dsimp only
      cases message <;> (split <;> rfl)

end SentryNode

/-! ## Runs -/

/-- A sentry and all that happens to it. -/
structure SentryRun (F : Type) (S : EthSpec) (G : GossipTypes) where
  env : SentryEnv S G
  forkDigest : Vector UInt8 4
  peerManager : PeerManager F
  discovery : Discovery
  metadata : NodeMetadata S
  limiter : RPCRateLimiter
  ops : List (SentryNodeOp F S)

namespace SentryRun

variable [ScoreArith F]

def start (r : SentryRun F S G) : SentryNode F S G :=
  .new (.new r.peerManager r.discovery r.metadata r.limiter) r.forkDigest

/-- The sentry at the end. -/
def sentry (r : SentryRun F S G) : SentryNode F S G := r.ops.foldl (SentryNode.step r.env) r.start

/-- The run of its node. -/
def nodeRun (r : SentryRun F S G) : NodeRun F ℕ S :=
  ⟨r.env.node, r.peerManager, r.discovery, r.metadata, r.limiter,
    outputs (SentryNode.step r.env) (SentryNode.nodeOps r.env) r.start r.ops⟩

omit [ScoreArith F] in
/-- The blocks that the sentry receives. -/
def blocks (r : SentryRun F S G) : List ReceivedBlock := r.ops.filterMap (·.block? r.env)

/-- The status that the sentry announces after the first blocks. -/
def statusAfter (r : SentryRun F S G) (k : ℕ) : StatusMessage :=
  ((r.blocks.take k).foldl SentryStatus.handleBlock (.new r.forkDigest)).highestStatus

variable (r : SentryRun F S G)

/-- **A run of a sentry is a run of its node.** -/
theorem sentry_network : r.sentry.network = r.nodeRun.node :=
  @foldl_part _ _ _ _ (SentryNode.step r.env) (Node.step r.env.node) SentryNode.network
    (SentryNode.nodeOps r.env) (SentryNode.network_step r.env) r.ops r.start

end SentryRun

/-! ## The statuses -/

namespace SentryStatus

end SentryStatus

namespace SentryNode

variable [ScoreArith F]

/-- What a step announces is the status before it. -/
theorem nodeOps_status (env : SentryEnv S G) (s : SentryNode F S G) (op : SentryNodeOp F S) :
    ∀ msg ∈ (s.nodeOps env op).filterMap (·.status?), msg = s.status.highestStatus := by
  cases op with
  | command cmd =>
    intro msg hmsg
    obtain ⟨call, hcall, hstatus⟩ := List.mem_filterMap.1 hmsg
    obtain ⟨op, h, rfl⟩ := mem_commandOps hcall
    cases hstatus
  | message => exact List.forall_mem_nil _
  | network op happ =>
    have hop : op.status? = none := by
      cases op with
      | sendRequest | sendResponse => cases happ
      | _ => rfl
    show ∀ msg ∈ (op :: _).filterMap (·.status?), _
    rw [List.filterMap_cons_none hop]
    intro msg hmsg
    obtain ⟨call, hcall, hstatus⟩ := List.mem_filterMap.1 hmsg
    obtain ⟨event, -, hreaction⟩ := List.mem_flatMap.1 hcall
    rcases mem_reactions hreaction with ⟨peerId, rfl⟩ | ⟨peerId, id, rfl⟩
    · exact (Option.some.inj hstatus).symm
    · exact (Option.some.inj hstatus).symm

end SentryNode

namespace SentryRun

variable [ScoreArith F] (r : SentryRun F S G)

theorem statuses_counted : ∃ counts : List ℕ, counts.Pairwise (· ≤ ·) ∧
    (∀ k ∈ counts, k ≤ r.blocks.length) ∧
    r.nodeRun.ops.filterMap (·.status?) = counts.map r.statusAfter := by
  obtain ⟨counts, hsorted, hbound, hcounts⟩ := @outputs_snapshots _ _ _ _ _
    (SentryNode.step r.env) SentryStatus.handleBlock SentryNode.status
    (fun _ op => (op.block? r.env).toList) (fun s op => (s.nodeOps r.env op).filterMap (·.status?))
    (fun status msg => msg = status.highestStatus) (SentryNode.status_step r.env)
    (SentryNode.nodeOps_status r.env) r.ops r.start
  rw [outputs_toList] at hbound hcounts
  rw [← filterMap_outputs] at hcounts
  refine ⟨counts, hsorted, hbound, ?_⟩
  rw [← List.forall₂_eq_eq_eq, List.forall₂_map_right_iff]
  exact hcounts

end SentryRun

/-! ## The requests -/

/-- A peer asks for the status. -/
def NetworkEvent.asksStatus {A : Type} (q : PeerId → PeerRequestId → Bool) :
    NetworkEvent A S → Bool
  | .requestReceived peerId id (.status _) => q peerId id
  | _ => false

/-- The sentry responds to a peer. -/
def NodeOp.responds {A : Type} (q : PeerId → PeerRequestId → Bool) : NodeOp F A S → Bool
  | .sendResponse peerId id _ | .sendErrorReponse peerId id _ _ => q peerId id
  | _ => false

/-- The responses of the sentry are statuses that it announces. -/
def NodeOp.AnswersStatus (op : NodeOp F ℕ S) : Prop :=
  ∀ request message, op.responseTo request = some message →
    ∃ status, op.status? = some status ∧ message = .success (.status status)

theorem NodeOp.not_responds {op : NodeOp F ℕ S} (h : op.isApplication = false)
    (q : PeerId → PeerRequestId → Bool) : op.responds q = false := by
  cases op with
  | sendResponse | sendErrorReponse => cases h
  | _ => rfl

theorem NodeOp.responseTo_isSome (op : NodeOp F ℕ S) (request : PeerRequestId) :
    (op.responseTo request).isSome = op.responds fun _ id => id = request := by
  cases op with
  | sendResponse peerId id | sendErrorReponse peerId id =>
    unfold responseTo responds
    dsimp only
    split
    · next hid => exact (decide_eq_true hid).symm
    · next hid => exact (decide_eq_false hid).symm
  | _ => rfl

namespace SentryNode

theorem reactions_answers (highest : StatusMessage) (event : NetworkEvent ℕ S) :
    ∀ call ∈ (reactions highest event : List (NodeOp F ℕ S)), call.AnswersStatus := by
  intro call hcall request message h
  rcases mem_reactions hcall with ⟨peerId, rfl⟩ | ⟨peerId, id, rfl⟩
  · cases h
  · unfold NodeOp.responseTo at h
    dsimp only at h
    split at h
    · exact ⟨highest, rfl, (Option.some.inj h).symm⟩
    · cases h

/-- An event is answered if the peer asks for the status. -/
theorem reactions_responses (highest : StatusMessage) (q : PeerId → PeerRequestId → Bool)
    (event : NetworkEvent ℕ S) :
    (reactions highest event : List (NodeOp F ℕ S)).countP (·.responds q) =
      [event].countP (·.asksStatus q) := by
  cases event with
  | requestReceived peerId id asked =>
    cases asked with
    | status msg =>
      show List.countP (·.responds q) ([.sendResponse peerId id (.status highest)] :
        List (NodeOp F ℕ S)) = _
      rw [List.countP_singleton, List.countP_singleton]
      rfl
    | _ => rfl
  | _ => rfl

variable [ScoreArith F]

theorem nodeOps_answers (env : SentryEnv S G) (s : SentryNode F S G) (op : SentryNodeOp F S) :
    ∀ call ∈ s.nodeOps env op, call.AnswersStatus := by
  cases op with
  | command cmd =>
    intro call hcall request message h
    obtain ⟨op, hop, rfl⟩ := mem_commandOps hcall
    cases h
  | message => exact List.forall_mem_nil _
  | network op happ =>
    refine List.forall_mem_cons.2 ⟨fun request message h => ?_, fun call hcall => ?_⟩
    · have hsome := op.responseTo_isSome request
      rw [h, NodeOp.not_responds happ] at hsome
      cases hsome
    · obtain ⟨event, -, hreaction⟩ := List.mem_flatMap.1 hcall
      exact reactions_answers _ event call hreaction

/-- The responses of a step answer the requests for the status that the network returns. -/
theorem nodeOps_responses (env : SentryEnv S G) (s : SentryNode F S G) (op : SentryNodeOp F S)
    (q : PeerId → PeerRequestId → Bool) :
    (s.nodeOps env op).countP (·.responds q) = (s.emitted env op).countP (·.asksStatus q) := by
  cases op with
  | command cmd =>
    refine List.countP_eq_zero.2 fun call hcall => ?_
    obtain ⟨op, hop, rfl⟩ := mem_commandOps hcall
    exact Bool.false_ne_true
  | message => rfl
  | network op happ =>
    show List.countP (·.responds q) (op :: _) = (s.network.emitted env.node op).countP _
    rw [List.countP_cons, NodeOp.not_responds happ]
    generalize s.network.emitted env.node op = events
    induction events with
    | nil => rfl
    | cons event events ih =>
      rw [List.flatMap_cons, List.countP_append, Nat.add_assoc, ih, reactions_responses,
        ← List.countP_append, List.singleton_append]

end SentryNode

namespace SentryRun

variable [ScoreArith F] (r : SentryRun F S G)

/-- A sentry responds as often as it is asked for its status. -/
theorem countP_responds (q : PeerId → PeerRequestId → Bool) :
    r.nodeRun.ops.countP (·.responds q) = r.sentry.network.events.countP (·.asksStatus q) := by
  have hnew : ([] : List (NodeOp F ℕ S)).countP (·.responds q) =
      r.start.network.events.countP (·.asksStatus q) := rfl
  refine outputs_induction (I := fun (calls : List (NodeOp F ℕ S)) (s : SentryNode F S G) =>
    calls.countP (·.responds q) = s.network.events.countP (·.asksStatus q)) ?_ r.ops hnew
  intro calls s op h
  rw [List.countP_append, h, SentryNode.nodeOps_responses, SentryNode.events_step,
    List.countP_append]

theorem length_responses (request : PeerRequestId) :
    (r.nodeRun.ops.filterMap (·.responseTo request)).length =
      r.sentry.network.events.countP (·.asksStatus fun _ id => id = request) := by
  rw [List.length_filterMap_eq_countP, ← countP_responds]
  exact List.countP_congr fun op _ => by rw [op.responseTo_isSome]

/-- A request for the status is passed on once. -/
theorem countP_asksStatus_le (request : PeerRequestId) :
    r.sentry.network.events.countP (·.asksStatus fun _ id => id = request) ≤ 1 := by
  have hnodup := Node.settled_nodup r.nodeRun.env r.nodeRun.peerManager r.nodeRun.discovery
    r.nodeRun.metadata r.nodeRun.limiter r.nodeRun.ops
  have hreceived := (List.nodup_append.1 hnodup).2.1
  have hcount := List.nodup_iff_count_le_one.1 hreceived request
  rw [sentry_network]
  refine Nat.le_trans ?_ hcount
  unfold List.count
  rw [List.countP_filterMap]
  refine List.countP_mono_left fun event _ hasks => ?_
  cases event with
  | requestReceived peerId id asked =>
    cases asked with
    | status msg => simpa [NetworkEvent.asksStatus, NetworkEvent.received?] using hasks
    | _ => cases hasks
  | _ => cases hasks

theorem response_announced {request : PeerRequestId} {message : RPCCodedResponse S}
    (h : message ∈ r.nodeRun.ops.filterMap (·.responseTo request)) :
    ∃ k ≤ r.blocks.length, message = .success (.status (r.statusAfter k)) := by
  obtain ⟨call, hcall, hresponse⟩ := List.mem_filterMap.1 h
  obtain ⟨status, hstatus, rfl⟩ := outputs_forall
    (fun op _ s => SentryNode.nodeOps_answers r.env s op) r.start call hcall request message
      hresponse
  obtain ⟨counts, -, hbound, hcounts⟩ := r.statuses_counted
  have hmem := List.mem_filterMap.2 ⟨call, hcall, hstatus⟩
  rw [hcounts] at hmem
  obtain ⟨k, hk, rfl⟩ := List.mem_map.1 hmem
  exact ⟨k, hbound k hk, rfl⟩

/-- A request that asks for the status is answered with one status. -/
theorem responses_of_status {peerId : PeerId} {request : PeerRequestId} {msg : StatusMessage}
    (h : .requestReceived peerId request (.status msg) ∈ r.sentry.network.events) :
    ∃ k ≤ r.blocks.length, r.nodeRun.ops.filterMap (·.responseTo request) =
      [.success (.status (r.statusAfter k))] := by
  have hpos : 0 < r.sentry.network.events.countP (·.asksStatus fun _ id => id = request) :=
    List.countP_pos_iff.2 ⟨_, h, decide_eq_true rfl⟩
  have hone : (r.nodeRun.ops.filterMap (·.responseTo request)).length = 1 := by
    have hle := r.countP_asksStatus_le request
    rw [length_responses]
    omega
  obtain ⟨message, hmessage⟩ := List.length_eq_one_iff.1 hone
  obtain ⟨k, hk, rfl⟩ := r.response_announced (hmessage ▸ List.mem_singleton_self message)
  exact ⟨k, hk, hmessage⟩

/-- **Requests for the status are answered**, each with one status that the sentry had. No other
request is answered. -/
theorem requests_answered (request : PeerRequestId) :
    ((∃ peerId msg, .requestReceived peerId request (.status msg) ∈ r.sentry.network.events) →
      ∃ k ≤ r.blocks.length, r.nodeRun.ops.filterMap (·.responseTo request) =
        [.success (.status (r.statusAfter k))]) ∧
    ((¬ ∃ peerId msg, .requestReceived peerId request (.status msg) ∈ r.sentry.network.events) →
      r.nodeRun.ops.filterMap (·.responseTo request) = []) := by
  constructor
  · rintro ⟨peerId, msg, h⟩
    exact r.responses_of_status h
  · intro hnone
    refine List.eq_nil_of_length_eq_zero ?_
    rw [length_responses, List.countP_eq_zero]
    intro event hevent hasks
    cases event with
    | requestReceived peerId id asked =>
      cases asked with
      | status msg =>
        obtain rfl : id = request := of_decide_eq_true hasks
        exact hnone ⟨peerId, msg, hevent⟩
      | _ => cases hasks
    | _ => cases hasks

end SentryRun

/-! ## From a sentry to a node -/

theorem FollowedStatus.step_received (blocks : List ReceivedBlock) (f : FollowedStatus) :
    (blocks.foldl FollowedStatus.step f).received = f.received ++ blocks := by
  induction blocks generalizing f with
  | nil => exact (List.append_nil _).symm
  | cons block blocks ih =>
    rw [List.foldl_cons, ih]
    exact List.append_assoc f.received [block] blocks

namespace SentryRun

variable [ScoreArith F] (r : SentryRun F S G)

omit [ScoreArith F] in
/-- The blocks that a status names have been received, unless they are the default ones. -/
theorem statusAfter_received (k : ℕ) :
    FollowedStatus.HeadReceived (r.blocks.take k) (r.statusAfter k) ∧
      FollowedStatus.FinalizedReceived (r.blocks.take k) (r.statusAfter k) := by
  have hinvariant := (throughout_of_step (P := FollowedStatus.Invariant)
    (fun f block h => h.step block) (r.blocks.take k)
    (FollowedStatus.invariant_new r.forkDigest)).last
  have hreceived := FollowedStatus.step_received (r.blocks.take k) (.new r.forkDigest)
  have hsentry := FollowedStatus.step_sentry (r.blocks.take k) (.new r.forkDigest)
  have hstatus : (List.foldl FollowedStatus.step (.new r.forkDigest)
      (r.blocks.take k)).sentry.highestStatus = r.statusAfter k := by
    rw [hsentry]
    rfl
  have hhead := hinvariant.head
  have hfinalized := hinvariant.finalized
  rw [hreceived, hstatus] at hhead hfinalized
  exact ⟨hhead, hfinalized⟩

/-- **The status is delivered.** A node that asks a sentry for its status is told at most one, which
is one that the sentry had, with a head and a finalized block that the sentry had received by then
(or the default ones). -/
theorem status_delivered {H A : Type} [ScoreArith H] [DecidableEq A] (a : NodeRun H A S)
    (b : SentryRun F S G) {w : Wire S} {p : ProtocolId} {size : ℕ} {forkContext : ForkContext}
    (hlawful : forkContext.Lawful) {peerId peerId' : PeerId} {id : A} {c : ConnectionId}
    {request : PeerRequestId} {msg : StatusMessage}
    (honce : (a.ops.filterMap (·.asked? peerId id)).length ≤ 1)
    (hpeer : a.node.links[c]?.map (·.peerId) = some peerId)
    (hasked : (a.calls c).filterMap (·.asked? (.application id)) ≠ [])
    (hreceived : .requestReceived peerId' request (.status msg) ∈ b.sentry.network.events)
    (hcarried : Carried w p size forkContext (b.nodeRun.handed request) (a.taken c id)) :
    ∃ k ≤ b.blocks.length,
      (a.node.events.filterMap (·.chunk? peerId id)).Sublist [.status (b.statusAfter k)] ∧
      FollowedStatus.HeadReceived (b.blocks.take k) (b.statusAfter k) ∧
      FollowedStatus.FinalizedReceived (b.blocks.take k) (b.statusAfter k) := by
  obtain ⟨k, hk, hresponses⟩ := b.responses_of_status hreceived
  obtain ⟨hhead, hfinalized⟩ := b.statusAfter_received k
  rw [b.sentry_network] at hreceived
  refine ⟨k, hk, ?_, hhead, hfinalized⟩
  have htold := (NodeRun.told_of_carried a b.nodeRun hlawful honce hpeer hasked hreceived
    hcarried).trans (b.nodeRun.handed_chunks hreceived)
  rw [hresponses] at htold
  exact htold

section Example

open Node

def plainPubsub : PubsubLib PlainWire.spec PlainGossip.types where
  hex := plainHex
  ssz :=
    { PlainGossip.lib.ssz with
      signedBeaconBlock := fun _ => ⟨Empty.elim, fun _ => .error "absent", 4⟩ }
  snap := PlainGossip.snap
  debugTopicHash topic := topic

def plainSentryEnv : SentryEnv PlainWire.spec PlainGossip.types where
  node := plainEnv
  pubsub := plainPubsub
  forkContext := PlainWire.forkContext
  received block := Empty.elim block.block
  hasEvents := false

/-- A step of the network, if it is not one of the application. -/
def network? (op : NodeOp ℚ ℕ PlainWire.spec) : Option (SentryNodeOp ℚ PlainWire.spec) :=
  if h : op.isApplication = false then some (.network op h) else none

/-- A peer connects and asks a sentry for its status. -/
def askedSentry : SentryRun ℚ PlainWire.spec PlainGossip.types :=
  ⟨plainSentryEnv, .replicate 4 0, .new 16 false, .new false false, plainMetadata, plainLimiter,
    (handshake.take 10).filterMap network?⟩

/-- A poll in which the outbound substreams receive the status of the sentry. -/
def sentryAnswers : PollIo PlainWire.spec :=
  { (PollIo.quiet : PollIo PlainWire.spec) with
    outbound := fun _ =>
      ⟨.ready (some (.ok (.success (.status (askedSentry.statusAfter 0))))), .pending⟩ }

/-- The peer of the sentry. -/
def asker : NodeRun ℚ ℕ PlainWire.spec :=
  ⟨plainEnv, .new 16 false, .new false false, plainMetadata, plainLimiter,
    handshake.take 2 ++ (handshake.drop 10).take 5 ++
      [.call 0 (.poll sentryAnswers) rfl, .report 0 1, .pollRpc [] 0 0]⟩

set_option maxRecDepth 10000 in
theorem asker_taken :
    asker.taken 0 7 = [.success (.status (askedSentry.statusAfter 0))] := rfl

set_option maxRecDepth 10000 in
theorem askedSentry_handed : askedSentry.nodeRun.handed (0, 0) =
    [.success (.status (askedSentry.statusAfter 0))] := rfl

set_option maxRecDepth 10000 in
theorem askedSentry_events : askedSentry.sentry.network.events =
    [.requestReceived ⟨[1]⟩ (0, 0) (.status plainStatus)] := rfl

set_option maxRecDepth 10000 in
theorem asker_asked : (asker.calls 0).filterMap (·.asked? (.application 7)) =
    [.status plainStatus] := rfl

set_option maxRecDepth 10000 in
theorem asker_peer : asker.node.links[0]?.map (·.peerId) = some ⟨[1]⟩ := rfl

theorem asker_carried : Carried NodeRun.statusWire ⟨.status, .v1⟩ 1048576 PlainWire.forkContext
    (askedSentry.nodeRun.handed (0, 0)) (asker.taken 0 7) := by
  rw [asker_taken, askedSentry_handed]
  exact NodeRun.status_carried
    ⟨rfl, by decide, trivial, rfl, NodeRun.status_carries (by decide), by decide⟩ rfl

theorem status_delivered_asker :
    ∃ k ≤ askedSentry.blocks.length,
      (asker.node.events.filterMap (·.chunk? ⟨[1]⟩ 7)).Sublist
        [.status (askedSentry.statusAfter k)] ∧
      FollowedStatus.HeadReceived (askedSentry.blocks.take k) (askedSentry.statusAfter k) ∧
      FollowedStatus.FinalizedReceived (askedSentry.blocks.take k) (askedSentry.statusAfter k) :=
  status_delivered asker askedSentry forkContext_lawful (by decide) asker_peer
    (asker_asked ▸ List.cons_ne_nil _ _) (askedSentry_events ▸ List.mem_singleton_self _)
    asker_carried

end Example

end SentryRun

/-! ## Trust -/

theorem PmOp.isTrustCall_of_isService {op : PmOp F} (h : op.isService = true) :
    op.isTrustCall = false := by
  cases op with
  | dialTrustedPeer | removeTrusted => cases h
  | _ => rfl

namespace Node

variable {A : Type} [ScoreArith F]

/-- The calls of the trust commands are those of the application. -/
theorem pmCalls_isTrustCall (env : NodeEnv S) (node : Node F A S) {op : NodeOp F A S}
    (hop : op.isApplication = false) :
    ∀ call ∈ node.pmCalls env op, call.isTrustCall = false := by
  cases op with
  | discoverSubnetPeers => cases hop
  | discovered results now =>
    exact fun call hcall => PmOp.isTrustCall_of_isService
      ((node.network.injectDiscoveryEvent_makes env.findEnr results now).service call hcall)
  | pollRpc prunes any now =>
    exact fun call hcall => PmOp.isTrustCall_of_isService
      ((node.pollRpc_makes env prunes any now).service call hcall)
  | peerManager op h => exact List.forall_mem_singleton.2 hop
  | pollPm inp =>
    unfold pmCalls
    dsimp only
    refine List.forall_mem_cons.2 ⟨rfl, fun call hcall => ?_⟩
    split at hcall
    · next peerManager event _ =>
      exact PmOp.isTrustCall_of_isService
        (((node.network.withPm peerManager).injectPmEvent_pm env.findEnr event).2 call hcall)
    · cases hcall
  | _ => exact List.forall_mem_nil _

variable [DecidableEq A]

/-- Steps that do not call the peer manager. -/
theorem Follows.skip {s : System F} {node : Node F A S} (h : Follows s node) (env : NodeEnv S)
    {ops : List (NodeOp F A S)} (hops : ∀ op ∈ ops, ∀ node : Node F A S, node.pmCalls env op = []) :
    Follows s (ops.foldl (Node.step env) node) := by
  induction ops generalizing node with
  | nil => exact h
  | cons op ops ih =>
    have hstep := h.step env op
    rw [hops op List.mem_cons_self] at hstep
    exact ih hstep fun op' hop' => hops op' (List.mem_cons_of_mem op hop')

end Node

namespace Sentry

variable [ScoreArith F]

theorem network_run {calls : List (PmOp F)} (hcalls : ∀ call ∈ calls, call.isTrustCall = false)
    (t : Sentry F) : ∃ ops : List (SentryOp F),
      ops.foldl step t = { t with network := calls.foldl System.step t.network } := by
  induction calls generalizing t with
  | nil => exact ⟨[], rfl⟩
  | cons call calls ih =>
    obtain ⟨ops, hops⟩ := ih (fun c hc => hcalls c (List.mem_cons_of_mem call hc))
      { t with network := t.network.step call }
    exact ⟨.network call (hcalls call List.mem_cons_self) :: ops, hops⟩

end Sentry

namespace SentryNode

theorem reactions_pmCalls [ScoreArith F] (env : NodeEnv S) (highest : StatusMessage)
    (events : List (NetworkEvent ℕ S)) :
    ∀ op ∈ events.flatMap (reactions highest), ∀ node : Node F ℕ S, node.pmCalls env op = [] := by
  intro op hop
  obtain ⟨event, -, hop⟩ := List.mem_flatMap.1 hop
  rcases mem_reactions hop with ⟨peerId, rfl⟩ | ⟨peerId, id, rfl⟩
  · exact fun _ => rfl
  · exact fun _ => rfl

/-- The explicit peers are trusted. -/
def ExplicitTrusted (s : SentryNode F S G) : Prop := ∀ p ∈ s.explicitPeers, p ∈ s.trustedPeers

theorem ExplicitTrusted.addExplicitPeer {s : SentryNode F S G} (h : s.ExplicitTrusted)
    (peerId : PeerId) : (s.addExplicitPeer peerId).ExplicitTrusted := by
  unfold SentryNode.addExplicitPeer
  split
  · next htrusted =>
    intro p hp
    rcases DistinctList.mem_insert.1 hp with rfl | hp
    · exact htrusted
    · exact h p hp
  · exact h

theorem ExplicitTrusted.handleEvents (events : List (NetworkEvent ℕ S)) {s : SentryNode F S G}
    (h : s.ExplicitTrusted) : (events.foldl handleEvent s).ExplicitTrusted := by
  refine (throughout_of_step (P := ExplicitTrusted) (fun s event hs => ?_) events h).last
  cases event with
  | peerConnectedIncoming peerId => exact hs.addExplicitPeer peerId
  | peerConnectedOutgoing peerId =>
    have hsent : (s.withNetwork (s.network.network.sendRequest peerId 10
      (.status s.status.highestStatus))).ExplicitTrusted := hs
    exact hsent.addExplicitPeer peerId
  | requestReceived peerId id request => cases request <;> exact hs
  | _ => exact hs

variable [ScoreArith F]

/-- The sentry behaves as that of the trust commands. -/
structure Tracks (t : Sentry F) (s : SentryNode F S G) : Prop where
  follows : Node.Follows t.network s.network
  trusted : t.trustedPeers = s.trustedPeers
  explicit : s.ExplicitTrusted

variable {t : Sentry F} {s : SentryNode F S G}

theorem Tracks.handleCommand (h : Tracks t s) (cmd : SentryCommand) :
    Tracks (t.handle cmd) (s.handleCommand cmd) := by
  obtain ⟨⟨pm, emitted⟩, trustedPeers⟩ := t
  obtain ⟨hfollows, htrusted, hexplicit⟩ := h
  obtain rfl : pm = s.pm := hfollows.pm
  obtain rfl : trustedPeers = s.trustedPeers := htrusted
  have hcall : ∀ op : PmOp F, op.isPoll = false → _ := fun op hop => hfollows.peerManager hop
  cases cmd with
  | addTrusted peerId enr =>
    unfold Sentry.handle SentryNode.handleCommand
    dsimp only
    split
    · refine ⟨hcall (.dialTrustedPeer peerId (some enr)) rfl, rfl, ?_⟩
      exact fun p hp => DistinctList.mem_insert.2 (.inr (hexplicit p hp))
    · exact ⟨hfollows, rfl, hexplicit⟩
  | removeTrusted peerId =>
    unfold Sentry.handle SentryNode.handleCommand
    dsimp only
    split
    · refine ⟨hcall (.removeTrusted peerId) rfl, rfl, fun p hp => ?_⟩
      obtain ⟨hne, hp⟩ := DistinctList.mem_remove.1 hp
      exact DistinctList.mem_remove.2 ⟨hne, hexplicit p hp⟩
    · exact ⟨hfollows, rfl, hexplicit⟩

/-- **A step, as the sentry of the trust commands sees it.** -/
theorem Tracks.step (h : Tracks t s) (env : SentryEnv S G) (op : SentryNodeOp F S) :
    ∃ ops : List (SentryOp F), Tracks (ops.foldl Sentry.step t) (s.step env op) := by
  cases op with
  | command cmd => exact ⟨[.command cmd], h.handleCommand cmd⟩
  | message source topic data order =>
    refine ⟨[], ?_⟩
    unfold SentryNode.step
    dsimp only
    split
    · next message _ =>
      obtain ⟨hnetwork, htrusted, hexplicit⟩ := s.handleMessage_keeps env source message order
      refine ⟨?_, h.trusted.trans htrusted.symm, ?_⟩
      · rw [hnetwork]
        exact h.follows
      · unfold ExplicitTrusted
        rw [hexplicit, htrusted]
        exact h.explicit
    · exact h
  | network op happ =>
    obtain ⟨ops, hops⟩ := t.network_run (s.network.pmCalls_isTrustCall env.node happ)
    obtain ⟨hnetwork, -, htrusted, -⟩ := handleEvents env
      { s with network := s.network.step env.node op } (s.network.emitted env.node op)
    refine ⟨ops, hops ▸ ⟨?_, h.trusted.trans htrusted.symm, ?_⟩⟩
    · show Node.Follows _ (List.foldl handleEvent _ (s.network.emitted env.node op)).network
      rw [hnetwork]
      exact (h.follows.step env.node op).skip env.node (reactions_pmCalls env.node _ _)
    · have hstepped : ({ s with network := s.network.step env.node op } : SentryNode F S
        G).ExplicitTrusted := h.explicit
      exact hstepped.handleEvents _

end SentryNode

namespace SentryRun

variable [ScoreArith F]

/-- **The trusted peers** of a sentry, its peer manager and what it is told of its peers are those
of a run of the trust commands, and the explicit peers of gossipsub are trusted. -/
theorem trust_followed (env : SentryEnv S G) (forkDigest : Vector UInt8 4) (maxPeers : ℕ)
    (discoveryEnabled : Bool) (discovery : Discovery) (metadata : NodeMetadata S)
    (limiter : RPCRateLimiter) (ops : List (SentryNodeOp F S)) :
    ∃ ops' : List (SentryOp F), SentryNode.Tracks
      (ops'.foldl Sentry.step (.new maxPeers discoveryEnabled))
      (SentryRun.mk env forkDigest (.new maxPeers discoveryEnabled) discovery metadata limiter
        ops).sentry := by
  refine (throughout_of_step (P := fun s : SentryNode F S G => ∃ ops' : List (SentryOp F),
    SentryNode.Tracks (ops'.foldl Sentry.step (.new maxPeers discoveryEnabled)) s)
    (fun s op => ?_) ops ?_).last
  · rintro ⟨ops', h⟩
    obtain ⟨steps, hsteps⟩ := h.step env op
    refine ⟨ops' ++ steps, ?_⟩
    rw [List.foldl_append]
    exact hsteps
  · exact ⟨[], Node.follows_new .., rfl, fun _ hp => by cases hp⟩

end SentryRun

end Consentry
