import Consentry.Verify.PlainWire

/-!
# Requests on a stream

**`request_round_trip`**: a request that is encoded for a protocol it supports is decoded to
the request the peer should receive, with the last of its bytes and no earlier, however they
are cut. The bounds that only the decoder checks hold of what is encoded
(`decodes_request`).
-/

namespace Consentry.Rpc

open Lib

variable {S : EthSpec} {w : Wire S}

theorem le_maxRpcSize (forkContext : ForkContext) : 1048576 ≤ maxRpcSize forkContext := by
  unfold maxRpcSize
  cases forkContext.currentFork <;> decide

/-! ## What is sent -/

/-- The ssz library reads back a value of a type whose encodings all have `n` bytes. -/
structure SszType.FixedInverts {α : Type} (t : SszType α) (n : ℕ) (a : α) : Prop where
  inverts : t.Inverts a
  length : (t.asSszBytes a).length = n
  sszFixedLen : t.sszFixedLen = n

/-- The ssz library reads back what the request holds. The container of a ping is its only
field; a list of roots is their concatenation. -/
def OutboundRequest.SszInverts (w : Wire S) : OutboundRequest → Prop
  | .status req => w.ssz.statusMessage.FixedInverts 84 req
  | .goodbye reason => w.ssz.u64.FixedInverts 8 reason.toU64
  | .blocksByRange req => w.ssz.blocksByRange.FixedInverts 24 req
  | .blocksByRoot req => w.ssz.blockRoots.Inverts req.blockRoots ∧
      ∀ roots, (w.ssz.blockRoots.asSszBytes roots).length = 32 * roots.length
  | .ping req => w.ssz.u64.FixedInverts 8 req.data ∧ w.ssz.ping.sszFixedLen = 8 ∧
      w.ssz.ping.asSszBytes req = w.ssz.u64.asSszBytes req.data
  | .metaData => True

/-- A goodbye reason is read as its code. -/
theorem goodbyeReason_read {α : Type} (f : GoodbyeReason → α) (buf : Bytes) :
    w.ssz.goodbyeReason.read f buf = w.ssz.u64.read (fun id => f (.ofU64 id)) buf := by
  simp only [SszType.read, Ssz.goodbyeReason]
  cases w.ssz.u64.fromSszBytes buf <;> rfl

/-- The protocols that a request supports are those of its name. -/
theorem OutboundRequest.messageName_eq {req : OutboundRequest} {p : ProtocolId}
    (hp : p ∈ req.supportedProtocols) : p.messageName = req.protocol := by
  cases req with
  | blocksByRange | blocksByRoot | metaData =>
    rcases List.mem_cons.1 hp with rfl | hp
    · rfl
    · rw [List.mem_singleton.1 hp]
      rfl
  | _ =>
    rw [List.mem_singleton.1 hp]
    rfl

namespace SSZSnappyInboundCodec

/-- The codec decodes the data to the request. -/
structure Decodes (w : Wire S) (c : SSZSnappyInboundCodec) (data : Bytes)
    (req : InboundRequest) : Prop where
  bounds : c.outOfBounds w data.length = none
  request : c.handleRequest w data = .ok (some req)

theorem outOfBounds_eq_none {c : SSZSnappyInboundCodec} {length : ℕ}
    (hmin : (w.rpcRequestLimits c.protocol).min ≤ length)
    (hmax : length ≤ (w.rpcRequestLimits c.protocol).max) (hsize : length ≤ c.maxPacketSize) :
    c.outOfBounds w length = none := by
  unfold outOfBounds
  rw [RpcLimits.isOutOfBounds_eq_false hmin hmax hsize]
  rfl

/-- A message of fixed length is within its bounds. -/
theorem Decodes.of_fixed {α : Type} {t : SszType α} {n : ℕ} {a : α} {data : Bytes}
    {c : SSZSnappyInboundCodec} {req : InboundRequest} (h : t.FixedInverts n a)
    (hdata : t.asSszBytes a = data) (hlimits : w.rpcRequestLimits c.protocol = .fixed n)
    (hsize : n ≤ c.maxPacketSize) (f : α → InboundRequest)
    (hreq : c.handleRequest w data = t.read f data) (hf : f a = req) :
    Decodes w c data req := by
  have hlen : data.length = n := by rw [← hdata, h.length]
  refine ⟨outOfBounds_eq_none ?_ ?_ (hlen.le.trans hsize), ?_⟩
  · rw [hlimits, hlen]
    exact le_refl n
  · rw [hlimits, hlen]
    exact le_refl n
  · rw [hreq, ← hdata, h.inverts.read, hf]

/-- A list of roots is within its bounds. -/
theorem Decodes.of_roots {req : BlocksByRootRequest} {c : SSZSnappyInboundCodec}
    (hinverts : w.ssz.blockRoots.Inverts req.blockRoots)
    (hlength : ∀ roots, (w.ssz.blockRoots.asSszBytes roots).length = 32 * roots.length)
    (hname : c.protocol.messageName = .blocksByRoot)
    (hsize : 32 * maxRequestBlocks ≤ c.maxPacketSize) :
    Decodes w c (w.ssz.blockRoots.asSszBytes req.blockRoots) (.blocksByRoot req) := by
  have hle : req.blockRoots.length ≤ maxRequestBlocks := req.blockRoots.length_le
  have hlimits : w.rpcRequestLimits c.protocol =
      ⟨w.blocksByRootRequestMin, w.blocksByRootRequestMax⟩ := by
    unfold Wire.rpcRequestLimits
    rw [hname]
  have hmin : w.blocksByRootRequestMin = 0 := hlength _
  have hmax : w.blocksByRootRequestMax = 32 * maxRequestBlocks := by
    unfold Wire.blocksByRootRequestMax
    rw [hlength]
    simp [VariableList.ofList, VariableList.length]
  refine ⟨outOfBounds_eq_none ?_ ?_ ?_, ?_⟩
  · rw [hlimits, hmin]
    exact Nat.zero_le _
  · rw [hlimits, hmax, hlength]
    exact Nat.mul_le_mul_left 32 hle
  · rw [hlength]
    exact (Nat.mul_le_mul_left 32 hle).trans hsize
  · have hread := hinverts.read fun roots => InboundRequest.blocksByRoot ⟨roots⟩
    unfold handleRequest
    rw [hname]
    cases c.protocol.version <;> exact hread

/-- **What is encoded is decoded**, under each protocol that the request supports. -/
theorem decodes_request {req : OutboundRequest} {p : ProtocolId}
    (hp : p ∈ req.supportedProtocols) (hssz : req.SszInverts w) {data : Bytes}
    (hdata : SSZSnappyOutboundCodec.sszBytes w req = some data) (forkContext : ForkContext) :
    data.length ≤ 1048576 ∧
      Decodes w (new p (maxRpcSize forkContext) forkContext) data req.received := by
  have hmax := le_maxRpcSize forkContext
  cases req with
  | status req =>
    obtain rfl := Option.some.inj hdata
    obtain rfl := List.mem_singleton.1 hp
    exact ⟨hssz.length.le.trans (by decide), .of_fixed hssz rfl
      (by rw [← hssz.sszFixedLen]; rfl) (le_trans (by decide) hmax) .status rfl rfl⟩
  | goodbye reason =>
    obtain rfl := Option.some.inj hdata
    obtain rfl := List.mem_singleton.1 hp
    refine ⟨hssz.length.le.trans (by decide), .of_fixed hssz rfl
      (by rw [← hssz.sszFixedLen]; rfl) (le_trans (by decide) hmax)
      (fun id => .goodbye (.ofU64 id)) ?_ (by rw [GoodbyeReason.ofU64_toU64]; rfl)⟩
    exact goodbyeReason_read _ _
  | blocksByRange req =>
    obtain rfl := Option.some.inj hdata
    rcases List.mem_cons.1 hp with rfl | hp
    · exact ⟨hssz.length.le.trans (by decide), .of_fixed hssz rfl
        (by rw [← hssz.sszFixedLen]; rfl) (le_trans (by decide) hmax) .blocksByRange rfl rfl⟩
    · obtain rfl := List.mem_singleton.1 hp
      exact ⟨hssz.length.le.trans (by decide), .of_fixed hssz rfl
        (by rw [← hssz.sszFixedLen]; rfl) (le_trans (by decide) hmax) .blocksByRange rfl rfl⟩
  | blocksByRoot req =>
    obtain rfl := Option.some.inj hdata
    obtain ⟨hinverts, hlength⟩ := hssz
    have hle : req.blockRoots.length ≤ maxRequestBlocks := req.blockRoots.length_le
    refine ⟨?_, .of_roots hinverts hlength (OutboundRequest.messageName_eq hp)
      (le_trans (by decide) hmax)⟩
    rw [hlength]
    exact (Nat.mul_le_mul_left 32 hle).trans (by decide)
  | ping req =>
    obtain rfl := Option.some.inj hdata
    obtain rfl := List.mem_singleton.1 hp
    obtain ⟨hu64, hlen, hbytes⟩ := hssz
    rw [hbytes]
    exact ⟨hu64.length.le.trans (by decide), .of_fixed hu64 rfl (by rw [← hlen]; rfl)
      (le_trans (by decide) hmax) (fun data => .ping ⟨data⟩) rfl rfl⟩
  | metaData => cases hdata

/-- The codec of a protocol other than metadata reads a request from its chunk. -/
theorem Decodes.reads {c : SSZSnappyInboundCodec} {data : Bytes} {req : InboundRequest}
    (h : Decodes w c data req) (hc : c.len = none) (hname : c.protocol.messageName ≠ .metaData)
    (hdata : w.Carries data) : Reads (decode w) c req (writeChunk w data []) := by
  have hchunk : Expects (decode w) req c 0 { c with len := none } (writeChunk w data []) := by
    refine expects_chunk hdata h.bounds (Nat.zero_le 2) (fun len => { c with len := len })
      (fun c' buf => (c.handleRequest w buf, c')) (fun len src => ?_) ?_
    · unfold decode
      rw [if_neg hname]
      rfl
    · simp only [h.request, ← hc]
  have hready : ({ c with len := none } : SSZSnappyInboundCodec) = c := by
    rw [← hc]
  rw [hready] at hchunk
  have hreads := hchunk.reads hdata.writeChunk_ne_nil (Nat.zero_le _)
  rwa [guarded_zero] at hreads

end SSZSnappyInboundCodec

/-! ## The round trip -/

/-- A request that is encoded for a protocol is decoded with the last fragment of its bytes,
however they are cut; no earlier fragment yields a request or an error, and nothing is left. -/
def RequestArrives (w : Wire S) (req : OutboundRequest) (p : ProtocolId)
    (sender receiver : ForkContext) : Prop :=
  ∃ bytes, (SSZSnappyOutboundCodec.new p (maxRpcSize sender) sender).encode w req [] =
      (.ok (), bytes) ∧
    ∀ (frags : List Bytes) (last : Bytes), frags.flatten ++ last = bytes →
      (last = [] → frags = []) →
      ∃ c buf, Feeds (SSZSnappyInboundCodec.decode w)
          (.new p (maxRpcSize receiver) receiver) [] frags [] c buf ∧
        SSZSnappyInboundCodec.decode w c (buf ++ last) =
          (.ok (some req.received), .new p (maxRpcSize receiver) receiver, [])

/-- **Requests round-trip**, under each protocol that the request supports. -/
theorem request_round_trip {req : OutboundRequest} {p : ProtocolId}
    (hp : p ∈ req.supportedProtocols) (hssz : req.SszInverts w)
    (hcarries : ∀ data, SSZSnappyOutboundCodec.sszBytes w req = some data → w.Carries data)
    (sender receiver : ForkContext) : RequestArrives w req p sender receiver := by
  cases hdata : SSZSnappyOutboundCodec.sszBytes w req with
  | none =>
    obtain rfl : req = .metaData := by
      cases req <;> first | rfl | cases hdata
    have hname : p.messageName = .metaData := OutboundRequest.messageName_eq hp
    refine ⟨[], by simp only [SSZSnappyOutboundCodec.encode, hdata], ?_⟩
    intro frags last hbytes hlast
    obtain ⟨-, rfl⟩ := List.append_eq_nil_iff.1 hbytes
    obtain rfl := hlast rfl
    exact ⟨_, [], .nil _ _, if_pos hname⟩
  | some data =>
    obtain ⟨hlen, hdecodes⟩ :=
      SSZSnappyInboundCodec.decodes_request hp hssz hdata receiver
    have hname : p.messageName ≠ .metaData := by
      rw [OutboundRequest.messageName_eq hp]
      cases req with
      | metaData => cases hdata
      | _ => exact Protocol.noConfusion
    have hreads := hdecodes.reads rfl hname (hcarries data hdata)
    refine ⟨writeChunk w data [], ?_, ?_⟩
    · simp only [SSZSnappyOutboundCodec.encode, hdata]
      rw [if_neg (by have := le_maxRpcSize sender; simp only [SSZSnappyOutboundCodec.new]; omega)]
    · intro frags last hbytes hlast
      have hne : last ≠ [] := by
        intro hnil
        obtain rfl := hlast hnil
        subst hnil
        exact hreads.nonempty hbytes.symm
      exact hreads.last hbytes hne

theorem request_round_trip_ping :
    RequestArrives PlainWire.wire (.ping ⟨5⟩) ⟨.ping, .v1⟩ PlainWire.forkContext
      PlainWire.forkContext := by
  have hssz : (OutboundRequest.ping ⟨5⟩).SszInverts PlainWire.wire :=
    ⟨⟨PlainWire.u64_inverts 5, rfl, rfl⟩, rfl, rfl⟩
  refine request_round_trip (by decide) hssz ?_ _ _
  intro data hdata
  obtain rfl := Option.some.inj hdata
  exact PlainWire.carries (by decide)

end Consentry.Rpc
