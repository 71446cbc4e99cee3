import Consentry.Verify.OutboundResponses
import Consentry.Verify.ResponseStream
import Consentry.Verify.SwarmOutcomes

/-!
# From one node to another

Two nodes are connected by a substream: what the handler of one node hands to the substream of a
request is encoded, and its bytes arrive at the other node in fragments, where they are decoded
(`Carried`). **`NodeRun.responses_delivered`**: of the responses to a request, the application of
the one node is told those that the application of the other has sent, each at most once and in
order.
-/

namespace Consentry

open Lib
open Rpc

variable {F G A B : Type} {S : EthSpec}

/-! ## What a stream carries -/

namespace Rpc

/-- The response in a message, if it is one. -/
def RPCCodedResponse.chunk? : RPCCodedResponse S → Option (RPCResponse S)
  | .success res => some res
  | _ => none

/-- Of what is handed to a substream the other side takes `taken`: messages are encoded, other than
the terminations, and not all of them may be; a part of the bytes arrives, is decoded, and part of
what is decoded is taken. -/
inductive Carried (w : Wire S) (p : ProtocolId) (size : ℕ) (forkContext : ForkContext)
    (handed : List (RPCCodedResponse S)) : List (RPCCodedResponse S) → Prop
  | intro {written : List (RPCCodedResponse S × Bytes)} {frags : List Bytes}
    {items taken : List (RPCCodedResponse S)} {codec : BaseOutboundCodec} {buf : Bytes}
    (hwritten : (written.map Prod.fst).Sublist (sentOf handed))
    (hsendable : ∀ item ∈ written, item.1.Sendable w (.new p size forkContext))
    (hencode : ∀ item ∈ written, ∃ dst, (BaseInboundCodec.mk (.new p size forkContext)).encode w
      item.1 dst = some (.ok (), item.2))
    (hfrags : frags.flatten <+: (written.map Prod.snd).flatten)
    (hdecode : Feeds (BaseOutboundCodec.decode w) (.new (.new p size forkContext)) [] frags items
      codec buf)
    (htaken : taken <+: items) : Carried w p size forkContext handed taken

variable {w : Wire S} {p : ProtocolId} {size : ℕ} {forkContext : ForkContext}
  {handed taken : List (RPCCodedResponse S)}

/-- **What is decoded** are the first of the messages that have been encoded. -/
theorem decodes_first (hlawful : forkContext.Lawful)
    {written : List (RPCCodedResponse S × Bytes)}
    (hsendable : ∀ item ∈ written, item.1.Sendable w (.new p size forkContext))
    (hencode : ∀ item ∈ written, ∃ dst, (BaseInboundCodec.mk (.new p size forkContext)).encode w
      item.1 dst = some (.ok (), item.2)) {frags : List Bytes}
    (hfrags : frags.flatten <+: (written.map Prod.snd).flatten)
    {items : List (RPCCodedResponse S)} {codec : BaseOutboundCodec} {buf : Bytes}
    (hdecode : Feeds (BaseOutboundCodec.decode w) (.new (.new p size forkContext)) [] frags items
      codec buf) : items <+: written.map fun item => item.1.toVersion p.version := by
  have hreads : ∀ c ∈ written.map fun item => (item.1.toVersion p.version, item.2),
      Reads (BaseOutboundCodec.decode w) (.new (.new p size forkContext)) c.1 c.2 := by
    intro c hc
    obtain ⟨item, hmem, rfl⟩ := List.mem_map.1 hc
    obtain ⟨dst, hdst⟩ := hencode item hmem
    exact reads_response hlawful (hsendable item hmem) hdst
  have hbytes : frags.flatten <+:
      bytesOf (written.map fun item => (item.1.toVersion p.version, item.2)) := by
    rw [bytesOf, List.map_map]
    exact hfrags
  have hfirst := Feeds.prefix_of_reads rfl hreads hbytes hdecode
  rwa [List.map_map] at hfirst

/-- **Responses are carried** in order, if they do not depend on the version. -/
theorem Carried.chunks (hlawful : forkContext.Lawful)
    (hcarried : Carried w p size forkContext handed taken)
    (hversion : ∀ message ∈ handed, ∀ res, message.chunk? = some res →
      res.toVersion p.version = res) :
    (taken.filterMap (·.chunk?)).Sublist (handed.filterMap (·.chunk?)) := by
  obtain ⟨hwritten, hsendable, hencode, hfrags, hdecode, htaken⟩ := hcarried
  have hfirst := htaken.trans (decodes_first hlawful hsendable hencode hfrags hdecode)
  have hsent := hwritten.trans List.filter_sublist
  refine (hfirst.sublist.filterMap (·.chunk?)).trans ?_
  refine List.Sublist.trans ?_ (hsent.filterMap (·.chunk?))
  rw [List.filterMap_map, List.filterMap_map]
  refine (List.filterMap_congr fun item hitem => ?_) ▸ List.Sublist.refl _
  obtain ⟨message, bytes⟩ := item
  cases message with
  | success res =>
    have hmem := hsent.subset (List.mem_map_of_mem hitem)
    exact (congrArg some (hversion _ hmem res rfl)).symm
  | _ => rfl

end Rpc

/-- The responses of the application are the same in all versions. -/
theorem NodeOp.responseTo_version {request : PeerRequestId} {op : NodeOp F A S}
    {message : RPCCodedResponse S} (hop : op.responseTo request = some message)
    {res : RPCResponse S} (hres : message.chunk? = some res) (version : Version) :
    res.toVersion version = res := by
  cases op with
  | sendResponse peerId id response =>
    dsimp only [responseTo] at hop
    split at hop
    · obtain rfl := Option.some.inj hop
      rcases response with msg | (_ | block) | (_ | block)
      · obtain rfl := Option.some.inj hres
        rfl
      · cases hres
      · obtain rfl := Option.some.inj hres
        rfl
      · cases hres
      · obtain rfl := Option.some.inj hres
        rfl
    · cases hop
  | sendErrorReponse peerId id error reason =>
    dsimp only [responseTo] at hop
    split at hop
    · obtain rfl := Option.some.inj hop
      cases hres
    · cases hop
  | _ => cases hop

/-! ## Runs -/

/-- A node and all that happens to it. -/
structure NodeRun (F A : Type) (S : EthSpec) where
  env : NodeEnv S
  peerManager : PeerManager F
  discovery : Discovery
  metadata : NodeMetadata S
  limiter : RPCRateLimiter
  ops : List (NodeOp F A S)

namespace NodeRun

variable [ScoreArith F] [DecidableEq A]

def start (r : NodeRun F A S) : Node F A S :=
  .new r.peerManager r.discovery r.metadata r.limiter

/-- The node at the end. -/
def node (r : NodeRun F A S) : Node F A S :=
  .reached r.env r.peerManager r.discovery r.metadata r.limiter r.ops

/-- What the handler of a connection is called with. -/
def calls (r : NodeRun F A S) (c : ConnectionId) : List (Call (RequestId A) S) :=
  outputs (Node.step r.env) (Node.callsOn c) r.start r.ops

/-- What is handed to the substream of a request of a peer. -/
def handed (r : NodeRun F A S) (request : PeerRequestId) : List (RPCCodedResponse S) :=
  Traffic.handedOf request.2
    (outputs (Node.step r.env) (Node.traffic r.env request.1) r.start r.ops)

/-- What is taken from the substream of a request of the application. -/
def taken (r : NodeRun F A S) (c : ConnectionId) (id : A) : List (RPCCodedResponse S) :=
  (outputs (Connection.step r.env.errorText) (Connection.taken r.env.errorText) .new
    (r.calls c)).filterMap fun t => if t.1 = .application id then some t.2 else none

variable {r : NodeRun F A S} {peerId : PeerId} {id : A} {c : ConnectionId}

/-- A request that is made once is made on one connection. -/
theorem not_asked_of_ne (honce : (r.ops.filterMap (·.asked? peerId id)).length ≤ 1)
    (hpeer : r.node.links[c]?.map (·.peerId) = some peerId)
    (hasked : (r.calls c).filterMap (·.asked? (.application id)) ≠ []) {k : ConnectionId}
    (hk : r.node.links[k]?.map (·.peerId) = some peerId) (hne : k ≠ c) :
    (r.calls k).filterMap (·.asked? (.application id)) = [] := by
  have hboth : ∀ c' ∈ [k, c], r.node.links[c']?.map (·.peerId) = some peerId :=
    List.forall_mem_cons.2 ⟨hk, List.forall_mem_singleton.2 hpeer⟩
  have hspread := (Node.requests_spread r.env r.peerManager r.discovery r.metadata r.limiter r.ops
    (List.nodup_cons.2 ⟨by simpa using hne, List.nodup_singleton c⟩) hboth id).length_le
  have hpos := List.length_pos_iff.2 hasked
  rw [List.flatMap_cons, List.flatMap_singleton, List.length_append] at hspread
  unfold calls at hpos ⊢
  unfold start at hpos ⊢
  refine List.eq_nil_of_length_eq_zero ?_
  omega

/-- The responses that the application is told are reported by the connection on which the request
was made. -/
theorem chunks_sublist_log (honce : (r.ops.filterMap (·.asked? peerId id)).length ≤ 1)
    (hpeer : r.node.links[c]?.map (·.peerId) = some peerId)
    (hasked : (r.calls c).filterMap (·.asked? (.application id)) ≠ []) :
    (r.node.events.filterMap (·.chunk? peerId id)).Sublist
      (((r.calls c).foldl (Connection.step r.env.errorText) .new).log.filterMap
        (·.chunk? (.application id))) := by
  have hlog : ∀ k, (r.node.toldOn k).Sublist
      ((r.calls k).foldl (Connection.step r.env.errorText) .new).log :=
    Node.toldOn_sublist_log r.env r.peerManager r.discovery r.metadata r.limiter r.ops
  have hpeers := (Node.settled_run r.env r.peerManager r.discovery r.metadata r.limiter
    r.ops).sound.peers
  refine (Node.chunks_told r.env r.peerManager r.discovery r.metadata r.limiter r.ops peerId
    id).trans ?_
  refine List.Sublist.trans ?_ ((hlog c).filterMap _)
  unfold Node.toldOn
  rw [List.filterMap_map, List.filterMap_filter]
  refine (List.filterMap_congr fun message hmessage => ?_) ▸ List.Sublist.refl _
  unfold RPCMessage.chunk?
  by_cases hc : message.connId = c
  · have hsame := hpeers message hmessage
    rw [hc] at hsame
    rw [if_pos (decide_eq_true hc), if_pos (Option.some.inj (hsame.symm.trans hpeer))]
    rfl
  · rw [if_neg (by simpa using hc)]
    by_cases hto : message.peerId = peerId
    · rw [if_pos hto]
      have hk := hpeers message hmessage
      rw [hto] at hk
      have hnone := not_asked_of_ne honce hpeer hasked hk hc
      have hle := Connection.chunks_le r.env.errorText (r.calls message.connId) (.application id)
      rw [hnone] at hle
      have hevents := List.eq_nil_of_length_eq_zero (Nat.le_zero.1 hle)
      refine (List.filterMap_eq_nil_iff.1 hevents message.event ((hlog _).subset ?_)).symm
      exact List.mem_map_of_mem (List.mem_filter.2 ⟨hmessage, decide_eq_true rfl⟩)
    · rw [if_neg hto]

/-- The responses under an id that a connection reports are those that have been taken. -/
theorem log_taken (r : NodeRun F A S) (c : ConnectionId) (id : A) :
    ((r.calls c).foldl (Connection.step r.env.errorText) .new).log.filterMap
      (·.chunk? (.application id)) = (r.taken c id).filterMap (·.chunk?) := by
  have htaken := Connection.responses_taken r.env.errorText (r.calls c)
  unfold taken
  generalize outputs (Connection.step r.env.errorText) (Connection.taken r.env.errorText) .new
    (r.calls c) = taken at htaken ⊢
  generalize ((r.calls c).foldl (Connection.step r.env.errorText) .new).log = log at htaken ⊢
  let pick : RequestId A × RPCResponse S → Option (RPCResponse S) :=
    fun t => if t.1 = .application id then some t.2 else none
  calc
    log.filterMap (·.chunk? (.application id))
      = (log.filterMap HandlerEvent.response?).filterMap pick := by
        rw [List.filterMap_filterMap]
        refine List.filterMap_congr fun event _ => ?_
        rcases event with _ | _ | _ | _ <;> rfl
    _ = (taken.filterMap responseRead).filterMap pick := by rw [htaken]
    _ = _ := by
        rw [List.filterMap_filterMap, List.filterMap_filterMap]
        refine List.filterMap_congr fun t _ => ?_
        obtain ⟨id', message⟩ := t
        by_cases hid : id' = .application id
        · cases message <;> simp [responseRead, pick, RPCCodedResponse.chunk?, hid]
        · cases message <;> simp [responseRead, pick, hid]

/-- The responses that are handed to the substream of a request that was passed on. -/
theorem handed_chunks (r : NodeRun F A S) {peerId : PeerId} {request : PeerRequestId}
    {req : Rpc.Request} (hreceived : .requestReceived peerId request req ∈ r.node.events) :
    ((r.handed request).filterMap (·.chunk?)).Sublist
      ((r.ops.filterMap (·.responseTo request)).filterMap (·.chunk?)) := by
  have hreplies := Node.handed_replies r.env r.peerManager r.discovery r.metadata r.limiter r.ops
    (Node.not_answered r.env r.peerManager r.discovery r.metadata r.limiter r.ops hreceived)
  refine List.Sublist.trans ?_ (hreplies.filterMap (·.chunk?))
  rw [List.filterMap_filter]
  refine (List.filterMap_congr fun message _ => ?_) ▸ List.Sublist.refl _
  cases message with
  | success res => rfl
  | streamTermination t => rfl
  | error code reason =>
    cases (RPCCodedResponse.error code reason : RPCCodedResponse S).isTimeout <;> rfl

/-- What is handed to the substream of a request that was passed on does not depend on the version
of the protocol. -/
theorem handed_version (r : NodeRun F A S) {peerId : PeerId} {request : PeerRequestId}
    {req : Rpc.Request} (hreceived : .requestReceived peerId request req ∈ r.node.events)
    {message : RPCCodedResponse S} (hmessage : message ∈ r.handed request) {res : RPCResponse S}
    (hres : message.chunk? = some res) (version : Version) : res.toVersion version = res := by
  obtain ⟨message', hmessage', hsame⟩ := List.mem_filterMap.1
    ((r.handed_chunks hreceived).subset (List.mem_filterMap.2 ⟨message, hmessage, hres⟩))
  obtain ⟨op, -, hop⟩ := List.mem_filterMap.1 hmessage'
  exact NodeOp.responseTo_version hop hsame version

/-- The responses that the application is told are handed over at the other end. -/
theorem told_of_carried [ScoreArith G] [DecidableEq B] (a : NodeRun F A S) (b : NodeRun G B S)
    {w : Wire S} {p : ProtocolId} {size : ℕ} {forkContext : ForkContext}
    (hlawful : forkContext.Lawful) {peerId peerId' : PeerId} {id : A} {c : ConnectionId}
    {request : PeerRequestId} {req : Rpc.Request}
    (honce : (a.ops.filterMap (·.asked? peerId id)).length ≤ 1)
    (hpeer : a.node.links[c]?.map (·.peerId) = some peerId)
    (hasked : (a.calls c).filterMap (·.asked? (.application id)) ≠ [])
    (hreceived : .requestReceived peerId' request req ∈ b.node.events)
    (hcarried : Carried w p size forkContext (b.handed request) (a.taken c id)) :
    (a.node.events.filterMap (·.chunk? peerId id)).Sublist
      ((b.handed request).filterMap (·.chunk?)) := by
  refine (chunks_sublist_log honce hpeer hasked).trans ?_
  rw [log_taken]
  exact hcarried.chunks hlawful fun _ hmessage _ hres =>
    b.handed_version hreceived hmessage hres p.version

section Example

open Node

/-- The parts of a status have fixed lengths. -/
def statusSsz : SszType StatusMessage where
  asSszBytes msg := msg.forkDigest.toList ++ (msg.finalizedRoot.toList ++
    (PlainWire.toLE 8 msg.finalizedEpoch.toNat ++ (msg.headRoot.toList ++
      PlainWire.toLE 8 msg.headSlot.toNat)))
  fromSszBytes bytes :=
    if bytes.length = 84 then
      .ok ⟨.ofFn fun i => bytes.getD i 0, .ofFn fun i => bytes.getD (4 + i) 0,
        .ofNat (PlainWire.fromLE ((bytes.drop 36).take 8)), .ofFn fun i => bytes.getD (44 + i) 0,
        .ofNat (PlainWire.fromLE (bytes.drop 76))⟩
    else .error "InvalidByteLength"
  sszFixedLen := 84

def statusWire : Wire PlainWire.spec :=
  { PlainWire.wire with ssz := { PlainWire.ssz with statusMessage := statusSsz } }

theorem status_carries {data : Bytes} (hlen : data.length ≤ 65536) : statusWire.Carries data := by
  have hplain := PlainWire.carries hlen
  exact ⟨hplain.awaits, hplain.length, hplain.frames⟩

/-- The codec that answers requests for the status. -/
def statuses : SSZSnappyInboundCodec := .new ⟨.status, .v1⟩ 1048576 PlainWire.forkContext

/-- A status as it is sent. -/
def statusBytes (msg : StatusMessage) : Bytes :=
  0 :: writeChunk statusWire (statusSsz.asSszBytes msg) []

theorem status_carried {msg : StatusMessage}
    (hsendable : RPCCodedResponse.Sendable statusWire statuses (.success (.status msg)))
    (hencode : (BaseInboundCodec.mk statuses).encode statusWire (.success (.status msg)) [] =
      some (.ok (), statusBytes msg)) :
    Carried statusWire ⟨.status, .v1⟩ 1048576 PlainWire.forkContext [.success (.status msg)]
      [.success (.status msg)] := by
  have hreads := reads_response forkContext_lawful hsendable hencode
  have hdecode : Feeds (BaseOutboundCodec.decode statusWire)
      (.new (.new ⟨.status, .v1⟩ 1048576 PlainWire.forkContext)) [] [statusBytes msg]
      ([(.success (.status msg), statusBytes msg)].map Prod.fst) _ [] :=
    Feeds.of_reads rfl (List.forall_mem_singleton.2 hreads) rfl
  exact @Carried.intro _ _ _ _ _ _ [(.success (.status msg), statusBytes msg)] [statusBytes msg]
    _ _ _ _ (List.Sublist.refl _) (List.forall_mem_singleton.2 hsendable)
    (List.forall_mem_singleton.2 ⟨[], hencode⟩) List.prefix_rfl hdecode List.prefix_rfl

end Example

end NodeRun

end Consentry
