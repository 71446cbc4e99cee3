import Consentry.Verify.SwarmBans
import Consentry.Verify.SwarmRequests

/-!
# The peer manager of a node

A node calls its peer manager as the swarm, the messages of peers and the results of discovery make
it, and handles the events that its polls return.

* **`Node.peers_followed`**: every run of a node is, for its peer manager, a run of a `System` over
  the calls `Node.pmCalls`. The events that the system emits are those that the application is told
  of, and the bans among them are those that the swarm is told of.
* **`Node.bans_followed`**: the peers that the swarm has banned are those of the database, but for
  the bans and unbans that wait in the queue, as long as no step ends a ban silently.
-/

namespace Consentry

open Lib
open Rpc

variable {F A : Type} {S : EthSpec}

/-! ## The calls of the service -/

namespace Discovery

/-- A record that is removed from the cache is looked up in the routing table. -/
theorem enrOfPeer_removeCachedEnr (d : Discovery) (findEnr : PeerId → Option Enr)
    (peerId : PeerId) : (d.removeCachedEnr peerId).enrOfPeer findEnr peerId =
      (d.removeCachedEnr peerId, findEnr peerId) := by
  have hnone : (d.removeCachedEnr peerId).cachedEnrs.find? (·.1 = peerId) = none := by
    refine List.find?_eq_none.2 fun e he => ?_
    have hne := (List.mem_filter.1 he).2
    simpa using hne
  unfold enrOfPeer
  rw [hnone]

/-- To look a record up does not change what is found. -/
theorem enrOfPeer_enrOfPeer (d : Discovery) (findEnr : PeerId → Option Enr)
    (peerId other : PeerId) :
    ((d.enrOfPeer findEnr peerId).1.enrOfPeer findEnr other).2 =
      (d.enrOfPeer findEnr other).2 := by
  cases hfound : d.cachedEnrs.find? (·.1 = peerId) with
  | none =>
    unfold enrOfPeer
    rw [hfound]
  | some e =>
    obtain ⟨key, enr⟩ := e
    have hkey : (d.enrOfPeer findEnr peerId).1.cachedEnrs =
        (peerId, enr) :: d.cachedEnrs.filter (·.1 ≠ peerId) := by
      unfold enrOfPeer
      rw [hfound]
    have hfind : ((d.enrOfPeer findEnr peerId).1.cachedEnrs.find? (·.1 = other)).map (·.2) =
        (d.cachedEnrs.find? (·.1 = other)).map (·.2) := by
      rw [hkey, List.find?_cons]
      by_cases hother : peerId = other
      · subst hother
        rw [decide_eq_true rfl, hfound]
        rfl
      · rw [decide_eq_false hother, List.find?_filter]
        congr 1
        refine congrArg (d.cachedEnrs.find? ·) (funext fun e => ?_)
        by_cases he : e.1 = other
        · have hne : e.1 ≠ peerId := fun h => hother (h.symm.trans he)
          simp [he, he ▸ hne]
        · simp [he]
    have hsnd : ∀ d : Discovery, (d.enrOfPeer findEnr other).2 =
        ((d.cachedEnrs.find? (·.1 = other)).map (·.2)).or (findEnr other) := by
      intro d
      unfold enrOfPeer
      cases d.cachedEnrs.find? (·.1 = other) <;> rfl
    rw [hsnd, hsnd, hfind]

end Discovery

/-- The calls that the service makes of its peer manager. -/
def PmOp.isService : PmOp F → Bool
  | .reportPeer _ _ _ _ | .peersDiscovered _ _ | .dialPeer _ _ | .peerStatusd _
  | .pingRequest _ _ | .pongResponse _ _ | .metaDataResponse _ _ | .addSyncSubnet _ _
  | .extendPeersOnSubnet _ _ => true
  | _ => false

namespace NetworkService

variable [ScoreArith F]

/-- The service makes calls of the peer manager. The swarm hears of no ban; the metadata stays. -/
structure Makes (n : NetworkService F A S) (calls : List (PmOp F)) (n' : NetworkService F A S) :
    Prop where
  pm : ∀ emitted, calls.foldl System.step ⟨n.peerManager, emitted⟩ = ⟨n'.peerManager, emitted⟩
  bannedPeers : n'.bannedPeers = n.bannedPeers
  metadata : n'.metadata = n.metadata
  service : ∀ call ∈ calls, call.isService = true

theorem Makes.refl (n : NetworkService F A S) : n.Makes [] n :=
  ⟨fun _ => rfl, rfl, rfl, List.forall_mem_nil _⟩

/-- A single call. -/
theorem Makes.call {n n' : NetworkService F A S} {op : PmOp F}
    (hpm : ∀ emitted, System.step ⟨n.peerManager, emitted⟩ op = ⟨n'.peerManager, emitted⟩)
    (hbanned : n'.bannedPeers = n.bannedPeers) (hmetadata : n'.metadata = n.metadata)
    (hservice : op.isService = true) : n.Makes [op] n' :=
  ⟨hpm, hbanned, hmetadata, List.forall_mem_singleton.2 hservice⟩

theorem Makes.trans {n n' n'' : NetworkService F A S} {calls calls' : List (PmOp F)}
    (h : n.Makes calls n') (h' : n'.Makes calls' n'') : n.Makes (calls ++ calls') n'' := by
  refine ⟨fun emitted => ?_, h'.bannedPeers.trans h.bannedPeers, h'.metadata.trans h.metadata,
    List.forall_mem_append.2 ⟨h.service, h'.service⟩⟩
  rw [List.foldl_append, h.pm, h'.pm]

/-- The rounds of a loop. -/
theorem Makes.loop {σ ι : Type} {service : σ → NetworkService F A S} {round : σ → ι → σ}
    {calls : σ → ι → List (PmOp F)}
    (hround : ∀ s i, (service s).Makes (calls s i) (service (round s i))) (is : List ι) (s : σ) :
    (service s).Makes (outputs round calls s is) (service (is.foldl round s)) := by
  induction is generalizing s with
  | nil => exact .refl _
  | cons i is ih => exact (hround s i).trans (ih (round s i))

/-- How an error is punished. -/
def errorCalls (peerId : PeerId) (protocol : Protocol) (err : RPCError)
    (direction : ConnectionDirection) (now : Instant) : List (PmOp F) :=
  (err.peerAction protocol direction).toList.map (.reportPeer peerId · none now)

/-- What a request calls of the peer manager. -/
def requestCalls (peerId : PeerId) (now : Instant) : InboundRequest → List (PmOp F)
  | .ping ping => [.pingRequest peerId ping.data]
  | .status _ => [.peerStatusd peerId]
  | .blocksByRange req =>
    if req.step = 0 then errorCalls peerId .blocksByRange
      (.invalidData "Blocks by range with 0 step parameter") .incoming now
    else []
  | .metaData | .goodbye _ | .blocksByRoot _ => []

/-- What a response calls of the peer manager. -/
def responseCalls (bits : Bitfields S) (peerId : PeerId) : RPCResponse S → List (PmOp F)
  | .pong ping => [.pongResponse peerId ping.data]
  | .metaData metaData => [.metaDataResponse peerId (bits.metaData metaData)]
  | .status _ => [.peerStatusd peerId]
  | .blocksByRange _ | .blocksByRoot _ => []

/-- What a message calls of the peer manager. -/
def messageCalls (bits : Bitfields S) (n : NetworkService F A S)
    (message : RPCMessage (RequestId A) S) (now : Instant) : List (PmOp F) :=
  if n.peerManager.peerdb.isConnected message.peerId then
    match message.event with
    | .error (.inbound _ proto error) => errorCalls message.peerId proto error .incoming now
    | .error (.outbound _ proto error) => errorCalls message.peerId proto error .outgoing now
    | .ok (.request _ request) => requestCalls message.peerId now request
    | .ok (.response _ resp) => responseCalls bits message.peerId resp
    | .ok (.endOfStream _ _) => []
  else []

/-- What an action of the RPC behaviour calls of the peer manager. -/
def actionCalls (bits : Bitfields S) (n : NetworkService F A S) (now : Instant) :
    NetworkBehaviourAction (RequestId A) S → List (PmOp F)
  | .generateEvent message => n.messageCalls bits message now
  | .notifyHandler _ _ _ => []

theorem handleRpcError_makes (n : NetworkService F A S) (peerId : PeerId) (protocol : Protocol)
    (err : RPCError) (direction : ConnectionDirection) (now : Instant) :
    n.Makes (errorCalls peerId protocol err direction now)
      (n.withPm (n.peerManager.handleRpcError peerId protocol err direction now)) := by
  unfold errorCalls PeerManager.handleRpcError
  cases err.peerAction protocol direction with
  | none => exact .refl n
  | some action => exact .call (fun _ => rfl) rfl rfl rfl

theorem injectRequest_makes (n : NetworkService F A S) (peerId : PeerId) (id : PeerRequestId)
    (request : InboundRequest) (now : Instant) :
    n.Makes (requestCalls peerId now request) (n.injectRequest peerId id request now).1 := by
  cases request with
  | blocksByRange req =>
    unfold requestCalls injectRequest
    dsimp only
    split
    · exact n.handleRpcError_makes ..
    · exact .refl n
  | ping | status => exact .call (fun _ => rfl) rfl rfl rfl
  | metaData | goodbye | blocksByRoot => exact ⟨fun _ => rfl, rfl, rfl, List.forall_mem_nil _⟩

theorem injectResponse_makes (bits : Bitfields S) (n : NetworkService F A S)
    (peerId : PeerId) (id : RequestId A) (resp : RPCResponse S) :
    n.Makes (responseCalls bits peerId resp) (n.injectResponse bits peerId id resp).1 := by
  cases resp with
  | pong | metaData | status => exact .call (fun _ => rfl) rfl rfl rfl
  | blocksByRange | blocksByRoot => exact .refl n

theorem injectRpcEvent_makes (bits : Bitfields S) (n : NetworkService F A S)
    (message : RPCMessage (RequestId A) S) (now : Instant) :
    n.Makes (n.messageCalls bits message now) (n.injectRpcEvent bits message now).1 := by
  unfold messageCalls injectRpcEvent
  dsimp only
  cases n.peerManager.peerdb.isConnected message.peerId with
  | false => exact .refl n
  | true =>
    rcases message.event with (_ | ⟨id, proto, error⟩) | ⟨id, request⟩ | ⟨id, resp⟩ | _
    · exact n.handleRpcError_makes ..
    · exact n.handleRpcError_makes ..
    · exact n.injectRequest_makes ..
    · exact n.injectResponse_makes bits ..
    · exact .refl n

/-! ### The calls of discovery -/

/-- What the extension of a time to live calls of the peer manager. -/
def ttlCalls (s : SubnetDiscovery) : List (PmOp F) :=
  match s.minTtl with
  | none => []
  | some minTtl =>
    .extendPeersOnSubnet s.subnet minTtl ::
      match s.subnet with
      | .syncCommittee syncSubnet => [.addSyncSubnet syncSubnet minTtl]
      | .attestation _ => []

/-- The cached peers on a subnet are dialed, with their records of the routing table. -/
def cachedCalls (n : NetworkService F A S) (findEnr : PeerId → Option Enr) (subnet : Subnet) :
    List (PmOp F) :=
  ((n.discovery.cachedEnrs.filter fun e =>
    subnetPredicate [subnet] e.2 && n.peerManager.peerdb.shouldDial e.1).map (·.1)).map
      fun peerId => .dialPeer peerId (findEnr peerId)

/-- What the filter of `discover_subnet_peers` calls of the peer manager. -/
def filterCalls (findEnr : PeerId → Option Enr) (acc : NetworkService F A S × List SubnetDiscovery)
    (s : SubnetDiscovery) : List (PmOp F) :=
  ttlCalls s ++
    if targetSubnetPeers ≤
        ((acc.1.extendMinTtl s).peerManager.peerdb.goodPeersOnSubnet s.subnet).length then []
    else (acc.1.extendMinTtl s).cachedCalls findEnr s.subnet

def subnetCalls (n : NetworkService F A S) (findEnr : PeerId → Option Enr)
    (subnetsToDiscover : List SubnetDiscovery) : List (PmOp F) :=
  if !n.discovery.started then []
  else outputs (filterSubnet findEnr) (filterCalls findEnr) (n, []) subnetsToDiscover

def discoveryCalls (n : NetworkService F A S) (findEnr : PeerId → Option Enr)
    (results : List (PeerId × Option Instant)) (now : Instant) : List (PmOp F) :=
  .peersDiscovered results now ::
    (n.peerManager.peersDiscovered results now).2.map fun peerId =>
      .dialPeer peerId (n.discovery.enrOfPeer findEnr peerId).2

/-- What an event of the peer manager makes the service call of it. -/
def eventCalls (n : NetworkService F A S) (findEnr : PeerId → Option Enr) :
    PeerManagerEvent → List (PmOp F)
  | .discoverSubnetPeers subnetsToDiscover => n.subnetCalls findEnr subnetsToDiscover
  | _ => []

theorem extendMinTtl_makes (n : NetworkService F A S) (s : SubnetDiscovery) :
    n.Makes (ttlCalls s) (n.extendMinTtl s) := by
  unfold ttlCalls extendMinTtl
  cases s.minTtl with
  | none => exact .refl n
  | some minTtl =>
    dsimp only
    cases s.subnet with
    | attestation id => exact .call (fun _ => rfl) rfl rfl rfl
    | syncCommittee id =>
      exact ⟨fun _ => rfl, rfl, rfl, List.forall_mem_cons.2 ⟨rfl, List.forall_mem_singleton.2 rfl⟩⟩

theorem dialCachedEnrsInSubnet_makes (n : NetworkService F A S) (findEnr : PeerId → Option Enr)
    (subnet : Subnet) :
    n.Makes (n.cachedCalls findEnr subnet) (n.dialCachedEnrsInSubnet findEnr subnet) := by
  unfold cachedCalls dialCachedEnrsInSubnet
  dsimp only
  generalize (n.discovery.cachedEnrs.filter fun e =>
    subnetPredicate [subnet] e.2 && n.peerManager.peerdb.shouldDial e.1).map (·.1) = peers
  induction peers generalizing n with
  | nil => exact .refl n
  | cons peerId peers ih =>
    have hdial : n.Makes [.dialPeer peerId (findEnr peerId)] { n with
        discovery := n.discovery.removeCachedEnr peerId
        peerManager := n.peerManager.dialPeer peerId (findEnr peerId) } :=
      .call (fun _ => rfl) rfl rfl rfl
    rw [List.map_cons, List.foldl_cons, Discovery.enrOfPeer_removeCachedEnr]
    exact hdial.trans (ih _)

theorem filterSubnet_makes (findEnr : PeerId → Option Enr)
    (acc : NetworkService F A S × List SubnetDiscovery) (s : SubnetDiscovery) :
    acc.1.Makes (filterCalls findEnr acc s) (filterSubnet findEnr acc s).1 := by
  refine (acc.1.extendMinTtl_makes s).trans ?_
  unfold filterSubnet
  dsimp only
  split
  · exact .refl _
  · exact (acc.1.extendMinTtl s).dialCachedEnrsInSubnet_makes findEnr s.subnet

theorem discoverSubnetPeers_makes (n : NetworkService F A S) (findEnr : PeerId → Option Enr)
    (subnetsToDiscover : List SubnetDiscovery) :
    n.Makes (n.subnetCalls findEnr subnetsToDiscover)
      (n.discoverSubnetPeers findEnr subnetsToDiscover) := by
  unfold subnetCalls discoverSubnetPeers
  split
  · exact .refl n
  · have hloop := @Makes.loop F A S _ _ _ Prod.fst _ _ (filterSubnet_makes findEnr)
      subnetsToDiscover (n, [])
    dsimp only
    split
    · exact hloop
    · exact ⟨hloop.pm, hloop.bannedPeers, hloop.metadata, hloop.service⟩

theorem injectDiscoveryEvent_makes (n : NetworkService F A S) (findEnr : PeerId → Option Enr)
    (results : List (PeerId × Option Instant)) (now : Instant) :
    n.Makes (n.discoveryCalls findEnr results now)
      (n.injectDiscoveryEvent findEnr results now) := by
  unfold discoveryCalls injectDiscoveryEvent
  dsimp only
  have hresults : n.Makes [.peersDiscovered results now]
      (n.withPm (n.peerManager.peersDiscovered results now).1) :=
    .call (fun _ => rfl) rfl rfl rfl
  refine hresults.trans ?_
  generalize (n.peerManager.peersDiscovered results now).2 = peers
  -- the cache changes from round to round, but not what is found
  have hfound : ∀ peerId, (n.discovery.enrOfPeer findEnr peerId).2 =
      ((n.withPm (n.peerManager.peersDiscovered results now).1).discovery.enrOfPeer findEnr
        peerId).2 := fun _ => rfl
  generalize n.withPm (n.peerManager.peersDiscovered results now).1 = n' at hfound ⊢
  induction peers generalizing n' with
  | nil => exact .refl n'
  | cons peerId peers ih =>
    have hdial : n'.Makes [.dialPeer peerId (n'.discovery.enrOfPeer findEnr peerId).2] { n' with
        discovery := (n'.discovery.enrOfPeer findEnr peerId).1
        peerManager := n'.peerManager.dialPeer peerId
          (n'.discovery.enrOfPeer findEnr peerId).2 } :=
      .call (fun _ => rfl) rfl rfl rfl
    rw [List.map_cons, List.foldl_cons, hfound peerId]
    refine hdial.trans (ih _ ?_)
    intro other
    rw [hfound other]
    exact (n'.discovery.enrOfPeer_enrOfPeer findEnr peerId other).symm

/-! ### The events of the peer manager -/

theorem injectPmEvent_pm (n : NetworkService F A S) (findEnr : PeerId → Option Enr)
    (event : PeerManagerEvent) :
    (∀ emitted, (n.eventCalls findEnr event).foldl System.step ⟨n.peerManager, emitted⟩ =
      ⟨(n.injectPmEvent findEnr event).1.peerManager, emitted⟩) ∧
    ∀ call ∈ n.eventCalls findEnr event, call.isService = true := by
  cases event with
  | discoverSubnetPeers subnets =>
    have hmakes := n.discoverSubnetPeers_makes findEnr subnets
    exact ⟨hmakes.pm, hmakes.service⟩
  | _ => exact ⟨fun _ => rfl, List.forall_mem_nil _⟩

/-- The swarm is told of the bans and unbans. -/
theorem injectPmEvent_bannedPeers (n : NetworkService F A S) (findEnr : PeerId → Option Enr)
    {emitted : List PeerManagerEvent}
    (hbans : ∀ p, p ∈ n.bannedPeers ↔ p ∈ (SwarmBans.after emitted).peers)
    (event : PeerManagerEvent) (p : PeerId) :
    p ∈ (n.injectPmEvent findEnr event).1.bannedPeers ↔
      p ∈ (SwarmBans.after (emitted ++ [event])).peers := by
  rw [SwarmBans.after_append]
  cases event with
  | banned peerId ips =>
    show p ∈ n.bannedPeers.insert peerId ↔ p = peerId ∨ p ∈ (SwarmBans.after emitted).peers
    rw [DistinctList.mem_insert, hbans]
  | unBanned peerId ips =>
    show p ∈ n.bannedPeers.remove peerId ↔ p ≠ peerId ∧ p ∈ (SwarmBans.after emitted).peers
    rw [DistinctList.mem_remove, hbans]
  | discoverSubnetPeers subnets =>
    show p ∈ (n.discoverSubnetPeers findEnr subnets).bannedPeers ↔ _
    rw [(n.discoverSubnetPeers_makes findEnr subnets).bannedPeers]
    exact hbans p
  | _ => exact hbans p

end NetworkService

/-- What the application is told of an event of the peer manager. -/
def PeerManagerEvent.networkEvent? : PeerManagerEvent → Option (NetworkEvent A S)
  | .peerConnectedIncoming peerId => some (.peerConnectedIncoming peerId)
  | .peerConnectedOutgoing peerId => some (.peerConnectedOutgoing peerId)
  | .peerDisconnected peerId => some (.peerDisconnected peerId)
  | .banned peerId _ => some (.peerBanned peerId)
  | .unBanned peerId _ => some (.peerUnbanned peerId)
  | .status peerId => some (.statusPeer peerId)
  | .ping _ | .metaData _ | .disconnectPeer _ _ | .discoverPeers _ | .discoverSubnetPeers _ => none

namespace NetworkService

variable [ScoreArith F]

theorem injectPmEvent_event (n : NetworkService F A S) (findEnr : PeerId → Option Enr)
    (event : PeerManagerEvent) :
    (n.injectPmEvent findEnr event).2.toList.filter (!·.isRpc) =
      [event].filterMap PeerManagerEvent.networkEvent? := by
  cases event <;> rfl

end NetworkService

theorem Outcome.isRpc {peerId : PeerId} {report : HandlerEvent (RequestId A) S}
    {event : NetworkEvent A S} (h : Outcome peerId report event) : event.isRpc = true := by
  cases h <;> rfl

theorem Surfaces.isRpc {message : RPCMessage (RequestId A) S} {event : NetworkEvent A S}
    (h : Surfaces message event) : event.isRpc = true := by
  cases h with
  | request => rfl
  | outcome houtcome => exact houtcome.isRpc

/-! ## Runs -/

/-- The event that a poll hands over. -/
def PollResult.event? : PollResult → Option PeerManagerEvent
  | .generateEvent event => some event
  | .dial _ | .pending => none

theorem System.step_poll [ScoreArith F] (s : System F) (inp : PollInput F) :
    s.step (.poll inp) = ⟨(s.pm.poll inp).1, s.emitted ++ (s.pm.poll inp).2.event?.toList⟩ := by
  unfold System.step
  dsimp only
  cases (s.pm.poll inp).2 with
  | generateEvent event => rfl
  | dial | pending =>
    rw [PollResult.event?, Option.toList_none, List.append_nil]
    rfl

namespace Node

variable [ScoreArith F]

/-- What a step calls of the peer manager. -/
def pmCalls (env : NodeEnv S) (node : Node F A S) : NodeOp F A S → List (PmOp F)
  | .discoverSubnetPeers subnetsToDiscover =>
    node.network.subnetCalls env.findEnr subnetsToDiscover
  | .pollRpc prunes _ now =>
    (node.network.eth2Rpc.poll prunes).2.toList.flatMap (node.network.actionCalls env.bits now)
  | .pollPm inp =>
    .poll inp :: match node.network.peerManager.poll inp with
      | (peerManager, .generateEvent event) =>
        (node.network.withPm peerManager).eventCalls env.findEnr event
      | _ => []
  | .peerManager op _ => [op]
  | .discovered results now => node.network.discoveryCalls env.findEnr results now
  | _ => []

/-- The node behaves as the system of its peer manager. -/
structure Follows (s : System F) (node : Node F A S) : Prop where
  pm : s.pm = node.network.peerManager
  bans : ∀ p, p ∈ node.network.bannedPeers ↔ p ∈ (SwarmBans.after s.emitted).peers
  events : node.events.filter (!·.isRpc) = s.emitted.filterMap PeerManagerEvent.networkEvent?

variable {s : System F} {node node' : Node F A S}

/-- A step in which the peer manager is not polled. -/
theorem Follows.makes (h : Follows s node) {calls : List (PmOp F)}
    (hmakes : node.network.Makes calls node'.network)
    (hevents : node'.events.filter (!·.isRpc) = node.events.filter (!·.isRpc)) :
    Follows (calls.foldl System.step s) node' := by
  obtain ⟨pm, emitted⟩ := s
  obtain ⟨hpm, hbans, hs⟩ := h
  obtain rfl : pm = node.network.peerManager := hpm
  rw [hmakes.pm]
  refine ⟨rfl, fun p => ?_, hevents.trans hs⟩
  rw [hmakes.bannedPeers]
  exact hbans p

/-- A call of another behaviour. -/
theorem Follows.peerManager (h : Follows s node) {op : PmOp F} (hop : op.isPoll = false) :
    Follows (s.step op) (node.withNetwork
      (node.network.withPm (System.step ⟨node.network.peerManager, []⟩ op).pm)) := by
  obtain ⟨pm, emitted⟩ := s
  obtain ⟨hpm, hbans, hs⟩ := h
  obtain rfl : pm = node.network.peerManager := hpm
  cases op with
  | poll => cases hop
  | _ => exact ⟨rfl, hbans, hs⟩

theorem Follows.pollPm (h : Follows s node) (env : NodeEnv S) (inp : PollInput F) :
    Follows ((node.pmCalls env (.pollPm inp)).foldl System.step s)
      (node.pollPm env inp) := by
  obtain ⟨pm, emitted⟩ := s
  obtain ⟨hpm, hbans, hs⟩ := h
  obtain rfl : pm = node.network.peerManager := hpm
  unfold pmCalls Node.pollPm
  dsimp only
  rw [List.foldl_cons, System.step_poll]
  generalize node.network.peerManager.poll inp = polled
  obtain ⟨peerManager, event | _ | _⟩ := polled
  · have hevent := (node.network.withPm peerManager).injectPmEvent_event env.findEnr event
    have hcalls := ((node.network.withPm peerManager).injectPmEvent_pm env.findEnr event).1
      (emitted ++ [event])
    refine hcalls ▸ ⟨rfl, ?_, ?_⟩
    · exact (node.network.withPm peerManager).injectPmEvent_bannedPeers env.findEnr hbans event
    · rw [List.filter_append, List.filterMap_append]
      exact congrArg₂ _ hs hevent
  · dsimp only [PollResult.event?]
    rw [Option.toList_none, List.append_nil]
    exact ⟨rfl, hbans, hs⟩
  · dsimp only [PollResult.event?]
    rw [Option.toList_none, List.append_nil]
    exact ⟨rfl, hbans, hs⟩

theorem pollRpc_makes (env : NodeEnv S) (node : Node F A S) (prunes : List Duration)
    (any : ConnectionId) (now : Instant) :
    node.network.Makes (node.pmCalls env (.pollRpc prunes any now))
      (node.pollRpc env prunes any now).network := by
  unfold pmCalls Node.pollRpc
  dsimp only
  generalize node.network.eth2Rpc.poll prunes = polled
  obtain ⟨rpc, _ | ⟨message | ⟨peerId, handler, event⟩⟩⟩ := polled
  · exact ⟨fun _ => rfl, rfl, rfl, List.forall_mem_nil _⟩
  · dsimp only
    rw [Option.toList_some, List.flatMap_singleton]
    have hmakes := (node.network.withRpc rpc).injectRpcEvent_makes env.bits message now
    exact ⟨hmakes.pm, hmakes.bannedPeers, hmakes.metadata, hmakes.service⟩
  · cases handler <;> exact ⟨fun _ => rfl, rfl, rfl, List.forall_mem_nil _⟩

theorem report_quiet (node : Node F A S) (connection : ConnectionId) (time : Duration) :
    node.network.Makes [] (node.report connection time).network ∧
      (node.report connection time).events = node.events := by
  unfold Node.report
  cases node.links[connection]? with
  | none => exact ⟨.refl _, rfl⟩
  | some link =>
    dsimp only
    cases link.connection.log[link.delivered]? with
    | none => exact ⟨.refl _, rfl⟩
    | some event => exact ⟨⟨fun _ => rfl, rfl, rfl, List.forall_mem_nil _⟩, rfl⟩

variable [DecidableEq A]

theorem pollRpc_quiet (env : NodeEnv S) (node : Node F A S) (prunes : List Duration)
    (any : ConnectionId) (now : Instant) :
    (node.pollRpc env prunes any now).events.filter (!·.isRpc) =
      node.events.filter (!·.isRpc) := by
  have hevents := node.pollRpc_events env prunes any now
  change (node.pollRpc env prunes any now).events = _ at hevents
  rw [hevents, List.filter_append]
  refine (congrArg _ (List.filter_eq_nil_iff.2 fun event hevent => ?_)).trans (List.append_nil _)
  obtain ⟨action, -, haction⟩ := List.mem_flatMap.1 hevent
  cases action with
  | notifyHandler => cases haction
  | generateEvent message =>
    have hsurfaces := NetworkService.injectRpcEvent_surfaces _ _ _ _ (Option.mem_toList.1 haction)
    rw [hsurfaces.isRpc]
    exact Bool.false_ne_true

/-- **A step, as the peer manager sees it.** -/
theorem Follows.step (h : Follows s node) (env : NodeEnv S) (op : NodeOp F A S) :
    Follows ((node.pmCalls env op).foldl System.step s) (node.step env op) := by
  cases op with
  | discoverSubnetPeers subnets =>
    exact h.makes (node.network.discoverSubnetPeers_makes env.findEnr subnets) rfl
  | discovered results now =>
    exact h.makes (node.network.injectDiscoveryEvent_makes env.findEnr results now) rfl
  | pollRpc prunes any now =>
    exact h.makes (node.pollRpc_makes env prunes any now) (node.pollRpc_quiet env prunes any now)
  | pollPm inp => exact h.pollPm env inp
  | peerManager op hop => exact h.peerManager hop
  | report connection time =>
    obtain ⟨hmakes, hevents⟩ := node.report_quiet connection time
    exact h.makes hmakes (congrArg _ hevents)
  | _ => exact ⟨h.pm, h.bans, h.events⟩

/-! ### Bans -/

/-- No step of the peer manager ends a ban without an event. -/
def keepsBans (node : Node F A S) : NodeOp F A S → Bool
  | .pollPm inp => System.keepsBans ⟨node.network.peerManager, []⟩ (.poll inp)
  | .peerManager op _ => System.keepsBans ⟨node.network.peerManager, []⟩ op
  | _ => true

end Node

namespace System

variable [ScoreArith F]

theorem keepsBans_pm (s : System F) (op : PmOp F) :
    s.keepsBans op = System.keepsBans ⟨s.pm, []⟩ op := by
  cases op <;> rfl

theorem keepsBans_of_isService {op : PmOp F} (h : op.isService = true) (s : System F) :
    s.keepsBans op = true := by
  cases op with
  | injectConnectionEstablished | disconnectPeer | poll => cases h
  | _ => rfl

theorem BansAgree.calls {s : System F} (h : s.BansAgree) {calls : List (PmOp F)}
    (hcalls : ∀ call ∈ calls, call.isService = true) :
    (calls.foldl System.step s).BansAgree :=
  (throughout_of_along (P := BansAgree)
    (fun s _ hs hcall => hs.step (keepsBans_of_isService hcall s)) h (Along.of_mem hcalls s)).last

end System

/-- The latest event of a peer is one of the last ones, or one of the others. -/
theorem latestIsBan_append (log es : List PeerManagerEvent) (p : PeerId) :
    latestIsBan (log ++ es) p = true ↔ latestIsBan es p = true ∨
      latestIsBan log p = true ∧ ∀ notice ∈ es.filterMap PeerManagerEvent.notice,
        notice.peerId ≠ p := by
  unfold latestIsBan
  rw [List.filterMap_append, List.reverse_append, List.find?_append]
  cases hfound : (es.filterMap PeerManagerEvent.notice).reverse.find? fun n => n.peerId = p with
  | some notice =>
    have hp : notice.peerId = p := by simpa using List.find?_some hfound
    have hmem := List.mem_reverse.1 (List.mem_of_find?_eq_some hfound)
    rw [Option.some_or, Option.elim_some]
    exact ⟨.inl, fun h => h.resolve_right fun hlog => hlog.2 notice hmem hp⟩
  | none =>
    have hnone : ∀ notice ∈ es.filterMap PeerManagerEvent.notice, notice.peerId ≠ p := by
      intro notice hmem
      simpa using List.find?_eq_none.1 hfound notice (List.mem_reverse.2 hmem)
    rw [Option.none_or, Option.elim_none]
    exact ⟨fun h => .inr ⟨h, hnone⟩, fun h => h.elim (fun h => by cases h) And.left⟩

namespace Node

variable [ScoreArith F]

/-- A step that keeps bans, as the peer manager sees it. -/
theorem Follows.bansAgree {s : System F} {node : Node F A S} (h : Follows s node)
    (env : NodeEnv S) {op : NodeOp F A S} (hop : node.keepsBans op = true) (hs : s.BansAgree) :
    ((node.pmCalls env op).foldl System.step s).BansAgree := by
  have hpm := h.pm
  cases op with
  | discoverSubnetPeers subnets =>
    exact hs.calls (node.network.discoverSubnetPeers_makes env.findEnr subnets).service
  | discovered results now =>
    exact hs.calls (node.network.injectDiscoveryEvent_makes env.findEnr results now).service
  | pollRpc prunes any now => exact hs.calls (node.pollRpc_makes env prunes any now).service
  | peerManager op _ =>
    have hcall : s.keepsBans op = true := by
      rw [System.keepsBans_pm, hpm]
      exact hop
    exact hs.step hcall
  | pollPm inp =>
    have hcall : s.keepsBans (.poll inp) = true := by
      rw [System.keepsBans_pm, hpm]
      exact hop
    have hpolled := hs.step hcall
    unfold pmCalls
    dsimp only
    rw [List.foldl_cons]
    split
    · next peerManager event _ =>
      exact hpolled.calls
        ((node.network.withPm peerManager).injectPmEvent_pm env.findEnr event).2
    · exact hpolled
  | _ => exact hs

section Run

variable [DecidableEq A] (env : NodeEnv S) (targetPeers : ℕ) (discoveryEnabled : Bool)
  (discovery : Discovery) (metadata : NodeMetadata S) (limiter : RPCRateLimiter)
  (ops : List (NodeOp F A S))

/-- The peer manager of a run, with the events that it has handed over. -/
def system : System F :=
  (outputs (step env) (pmCalls env)
    (new (.new targetPeers discoveryEnabled) discovery metadata limiter) ops).foldl System.step
      (.new targetPeers discoveryEnabled)

omit [ScoreArith F] [DecidableEq A] in
theorem follows_new : Follows (System.new targetPeers discoveryEnabled)
    (new (.new targetPeers discoveryEnabled) discovery metadata limiter : Node F A S) where
  pm := rfl
  bans p := iff_of_false (DistinctList.not_mem_empty p) (Set.notMem_empty p)
  events := rfl

theorem follows_run :
    Follows (system env targetPeers discoveryEnabled discovery metadata limiter ops)
      (reached env (.new targetPeers discoveryEnabled) discovery metadata limiter ops) := by
  have hnew : Follows (List.foldl System.step (.new targetPeers discoveryEnabled) [])
      (new (.new targetPeers discoveryEnabled) discovery metadata limiter : Node F A S) :=
    follows_new ..
  refine outputs_induction (I := fun calls (node : Node F A S) =>
    Follows (calls.foldl System.step (.new targetPeers discoveryEnabled)) node) ?_ ops hnew
  intro calls node op h
  rw [List.foldl_append]
  exact h.step env op

/-- **A run of a node is a run of its peer manager.** The application is told of the events that
the peer manager emits, and the swarm of the bans. -/
theorem peers_followed :
    (reached env (.new targetPeers discoveryEnabled) discovery metadata limiter
      ops).network.peerManager =
        (system env targetPeers discoveryEnabled discovery metadata limiter ops).pm ∧
    (reached env (.new targetPeers discoveryEnabled) discovery metadata limiter ops).events.filter
      (!·.isRpc) =
        (system env targetPeers discoveryEnabled discovery metadata limiter ops).emitted.filterMap
          PeerManagerEvent.networkEvent? ∧
    ∀ p, p ∈ (reached env (.new targetPeers discoveryEnabled) discovery metadata limiter
      ops).network.bannedPeers ↔
        latestIsBan
          (system env targetPeers discoveryEnabled discovery metadata limiter ops).emitted p =
            true := by
  have hfollows := follows_run env targetPeers discoveryEnabled discovery metadata limiter ops
  refine ⟨hfollows.pm.symm, hfollows.events, fun p => ?_⟩
  rw [hfollows.bans, mem_after_peers]

variable {env targetPeers discoveryEnabled discovery metadata limiter ops}

theorem bansAgree_run (hkeeps : Along (step env) (fun node op => node.keepsBans op = true)
    (new (.new targetPeers discoveryEnabled) discovery metadata limiter) ops) :
    (system env targetPeers discoveryEnabled discovery metadata limiter ops).BansAgree := by
  have hnew : Follows (List.foldl System.step (.new targetPeers discoveryEnabled) [])
        (new (.new targetPeers discoveryEnabled) discovery metadata limiter : Node F A S) ∧
      (List.foldl System.step (.new targetPeers discoveryEnabled) [] : System F).BansAgree :=
    ⟨follows_new .., fun p => iff_of_false (Set.notMem_empty p) Bool.false_ne_true⟩
  refine (outputs_induction_of_along (I := fun calls (node : Node F A S) =>
    Follows (calls.foldl System.step (.new targetPeers discoveryEnabled)) node ∧
      (calls.foldl System.step (.new targetPeers discoveryEnabled)).BansAgree) ?_ hnew hkeeps).2
  intro calls node op h hop
  rw [List.foldl_append]
  exact ⟨h.1.step env op, h.1.bansAgree env hop h.2⟩

/-- **The swarm has banned the peers that the database has**, but for the bans and unbans that are
still queued, as long as no step ends a ban without an event. -/
theorem bans_followed (hkeeps : Along (step env) (fun node op => node.keepsBans op = true)
    (new (.new targetPeers discoveryEnabled) discovery metadata limiter) ops) (p : PeerId) :
    (∃ since, (reached env (.new targetPeers discoveryEnabled) discovery metadata limiter
      ops).network.peerManager.peerdb.connectionStatus p = some (.banned since)) ↔
    latestIsBan (reached env (.new targetPeers discoveryEnabled) discovery metadata limiter
        ops).network.peerManager.events p = true ∨
      p ∈ (reached env (.new targetPeers discoveryEnabled) discovery metadata limiter
          ops).network.bannedPeers ∧
        ∀ notice ∈ (reached env (.new targetPeers discoveryEnabled) discovery metadata limiter
            ops).network.peerManager.events.filterMap PeerManagerEvent.notice,
          notice.peerId ≠ p := by
  have hagree := bansAgree_run hkeeps p
  have hfollows := follows_run env targetPeers discoveryEnabled discovery metadata limiter ops
  generalize system env targetPeers discoveryEnabled discovery metadata limiter ops = s at *
  generalize reached env (.new targetPeers discoveryEnabled) discovery metadata limiter ops = node
    at *
  rw [← PeerDB.isBanned_iff, ← hfollows.pm, ← hagree, mem_after_peers, System.log,
    latestIsBan_append, hfollows.bans, mem_after_peers]

section Example

/-- A peer is punished for a fatal error and closes the connection. The swarm takes two of the
events; the others wait. -/
def fatalRun : List (NodeOp ℚ ℕ PlainWire.spec) :=
  [.peerManager (.injectConnectionEstablished ⟨[1]⟩ (.listener [.ip4 1, .tcp 9000]) 0 0) rfl,
    .peerManager (.reportPeer ⟨[1]⟩ .fatal none 0) rfl,
    .peerManager (.injectConnectionClosed ⟨[1]⟩ 0 0 default) rfl,
    .pollPm ⟨[], [], [], false, [], 0⟩, .pollPm ⟨[], [], [], false, [], 0⟩]

theorem bans_followed_fatal :
    (∃ since, (reached plainEnv (.new 16 false) (.new false false) plainMetadata plainLimiter
      fatalRun).network.peerManager.peerdb.connectionStatus ⟨[1]⟩ = some (.banned since)) ↔
    latestIsBan (reached plainEnv (.new 16 false) (.new false false) plainMetadata plainLimiter
        fatalRun).network.peerManager.events ⟨[1]⟩ = true ∨
      ⟨[1]⟩ ∈ (reached plainEnv (.new 16 false) (.new false false) plainMetadata plainLimiter
          fatalRun).network.bannedPeers ∧
        ∀ notice ∈ (reached plainEnv (.new 16 false) (.new false false) plainMetadata plainLimiter
            fatalRun).network.peerManager.events.filterMap PeerManagerEvent.notice,
          notice.peerId ≠ ⟨[1]⟩ :=
  bans_followed (by decide +kernel) ⟨[1]⟩

end Example

end Run

end Node

end Consentry
