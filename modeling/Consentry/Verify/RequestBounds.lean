import Consentry.Rpc.RateLimiter
import Consentry.Verify.RequestStream

/-!
# The bounds of decoded requests

**`decode_bounded_iff`**: a decoded request expects no more responses than can be asked for, unless
it is a range request for more blocks than that (`CarriesLargeRange`). The roots of a request are a
list of bounded length, and the other requests expect one response at most; the count of a range
request is any number (`decode_bounded_fails`).
-/

namespace Consentry.Rpc

variable {S : EthSpec} {w : Wire S}

/-- The request expects no more responses than can be asked for, and costs no more tokens. -/
structure InboundRequest.Bounded (request : InboundRequest) : Prop where
  responses : request.expectedResponses.toNat ≤ maxRequestBlocks
  tokens : (max request.expectedResponses 1).toNat ≤ maxRequestBlocks

theorem InboundRequest.bounded_iff (request : InboundRequest) :
    request.Bounded ↔ request.expectedResponses.toNat ≤ maxRequestBlocks := by
  constructor
  · intro h
    exact h.responses
  · intro h
    refine ⟨h, ?_⟩
    change (if request.expectedResponses ≤ 1 then 1 else request.expectedResponses).toNat ≤ _
    split
    · decide
    · exact h

/-- Only a range request is not bounded by its type. -/
theorem InboundRequest.bounded_or_range (request : InboundRequest) :
    request.Bounded ∨ ∃ req, request = .blocksByRange req := by
  cases request with
  | blocksByRange req => exact .inr ⟨req, rfl⟩
  | blocksByRoot req =>
    left
    rw [bounded_iff]
    have hle : req.blockRoots.length ≤ maxRequestBlocks := req.blockRoots.length_le
    have hlt : req.blockRoots.length < 2 ^ 64 := Nat.lt_of_le_of_lt hle (by decide)
    unfold expectedResponses
    rw [UInt64.toNat_ofNat_of_lt' hlt]
    exact hle
  | status req | goodbye reason | ping req | metaData =>
    left
    rw [bounded_iff]
    exact Nat.le_of_ble_eq_true rfl

namespace SSZSnappyInboundCodec

/-- The bytes carry a range request for more blocks than can be asked for. -/
def CarriesLargeRange (w : Wire S) (c : SSZSnappyInboundCodec) (src : Bytes) : Prop :=
  c.protocol.messageName = .blocksByRange ∧ ∃ data len rest req,
    readChunk w (c.outOfBounds w) c.len src = (.ok (some data), len, rest) ∧
      w.ssz.blocksByRange.fromSszBytes data = .ok req ∧ maxRequestBlocks < req.count.toNat

end SSZSnappyInboundCodec

/-- A chunk is read back. -/
theorem readChunk_writeChunk {data : Bytes} {outOfBounds : ℕ → Option RPCError}
    (hdata : w.Carries data) (hbounds : outOfBounds data.length = none) :
    readChunk w outOfBounds none (writeChunk w data []) = (.ok (some data), none, []) := by
  have hframes := readFrames_append hdata.frames []
  rw [List.append_nil] at hframes
  simp only [readChunk, handleLength, writeChunk, List.nil_append, hdata.length.read, hbounds,
    hframes]

/-- What is read is the value of an encoding. -/
theorem SszType.of_read {α β : Type} {t : SszType α} {f : α → β} {data : Bytes} {b : β}
    (h : t.read f data = .ok (some b)) : ∃ a, t.fromSszBytes data = .ok a ∧ f a = b := by
  unfold read at h
  cases hdata : t.fromSszBytes data with
  | error e =>
    rw [hdata] at h
    cases h
  | ok a =>
    rw [hdata] at h
    cases h
    exact ⟨a, rfl, rfl⟩

namespace SSZSnappyInboundCodec

variable {c : SSZSnappyInboundCodec}

/-- A value that is read is a request of the protocol of what is read. -/
theorem protocol_of_read {α : Type} {t : SszType α} {f : α → InboundRequest} {data : Bytes}
    {request : InboundRequest} {protocol : Protocol} (hf : ∀ a, (f a).protocol = protocol)
    (h : t.read f data = .ok (some request)) : request.protocol = protocol := by
  obtain ⟨a, -, rfl⟩ := SszType.of_read h
  exact hf a

/-- **A request is of the protocol of the stream.** -/
theorem handleRequest_protocol {data : Bytes} {request : InboundRequest}
    (h : c.handleRequest w data = .ok (some request)) :
    request.protocol = c.protocol.messageName := by
  unfold handleRequest at h
  cases hversion : c.protocol.version with
  | v1 =>
    rw [hversion] at h
    dsimp only at h
    unfold handleV1Request at h
    cases hname : c.protocol.messageName with
    | metaData =>
      rw [hname] at h
      dsimp only at h
      split at h
      · cases h
        rfl
      · cases h
    | _ =>
      rw [hname] at h
      exact protocol_of_read (fun _ => rfl) h
  | v2 =>
    rw [hversion] at h
    dsimp only at h
    unfold handleV2Request at h
    cases hname : c.protocol.messageName with
    | blocksByRange | blocksByRoot =>
      rw [hname] at h
      exact protocol_of_read (fun _ => rfl) h
    | metaData =>
      rw [hname] at h
      dsimp only at h
      split at h
      · cases h
        rfl
      · cases h
    | _ =>
      rw [hname] at h
      cases h

theorem handleRequest_eq_range (hname : c.protocol.messageName = .blocksByRange) (data : Bytes) :
    c.handleRequest w data = w.ssz.blocksByRange.read InboundRequest.blocksByRange data := by
  unfold handleRequest handleV1Request handleV2Request
  rw [hname]
  cases c.protocol.version <;> rfl

/-- A range request is read under its own protocol only. -/
theorem handleRequest_range {data : Bytes} {req : OldBlocksByRangeRequest} :
    c.handleRequest w data = .ok (some (.blocksByRange req)) ↔
      c.protocol.messageName = .blocksByRange ∧
        w.ssz.blocksByRange.fromSszBytes data = .ok req := by
  constructor
  · intro h
    have hname : c.protocol.messageName = .blocksByRange := (handleRequest_protocol h).symm
    rw [handleRequest_eq_range hname] at h
    obtain ⟨a, hdata, heq⟩ := SszType.of_read h
    cases heq
    exact ⟨hname, hdata⟩
  · rintro ⟨hname, hdata⟩
    rw [handleRequest_eq_range hname, SszType.read, hdata]

/-- A range request that the bytes carry is decoded. -/
theorem decode_range {src data rest : Bytes} {len : Option ℕ} {req : OldBlocksByRangeRequest}
    (hname : c.protocol.messageName = .blocksByRange)
    (hchunk : readChunk w (c.outOfBounds w) c.len src = (.ok (some data), len, rest))
    (hdata : w.ssz.blocksByRange.fromSszBytes data = .ok req) :
    decode w c src = (.ok (some (.blocksByRange req)), { c with len := len }, rest) := by
  unfold decode
  rw [if_neg (by rw [hname]; exact Protocol.noConfusion), hchunk]
  dsimp only
  rw [handleRequest_range.2 ⟨hname, hdata⟩]

/-- A range request is decoded from the bytes that carry it. -/
theorem carries_of_decode {src rest : Bytes} {c' : SSZSnappyInboundCodec}
    {req : OldBlocksByRangeRequest}
    (h : decode w c src = (.ok (some (.blocksByRange req)), c', rest)) :
    c.protocol.messageName = .blocksByRange ∧ ∃ data len rest,
      readChunk w (c.outOfBounds w) c.len src = (.ok (some data), len, rest) ∧
        w.ssz.blocksByRange.fromSszBytes data = .ok req := by
  unfold decode at h
  by_cases hmeta : c.protocol.messageName = .metaData
  · rw [if_pos hmeta] at h
    cases h
  · rw [if_neg hmeta] at h
    rcases hchunk : readChunk w (c.outOfBounds w) c.len src with ⟨_ | _ | data, len, rest⟩
    · rw [hchunk] at h
      cases h
    · rw [hchunk] at h
      cases h
    · rw [hchunk] at h
      obtain ⟨hname, hdata⟩ := handleRequest_range.1 (Prod.mk.inj h).1
      exact ⟨hname, data, len, rest, rfl, hdata⟩

/-- **A decoded request is bounded** if and only if the bytes do not carry a range request for too
many blocks. -/
theorem decode_bounded_iff (w : Wire S) (c : SSZSnappyInboundCodec) (src : Bytes) :
    (∀ request c' rest, decode w c src = (.ok (some request), c', rest) → request.Bounded) ↔
      ¬ c.CarriesLargeRange w src := by
  constructor
  · rintro hbounded ⟨hname, data, len, rest, req, hchunk, hdata, hlarge⟩
    have hle := (hbounded _ _ _ (decode_range hname hchunk hdata)).responses
    exact absurd hlarge (Nat.not_lt.2 hle)
  · intro hnot request c' rest hdecode
    rcases request.bounded_or_range with hbounded | ⟨req, rfl⟩
    · exact hbounded
    · rw [InboundRequest.bounded_iff]
      by_contra hlarge
      obtain ⟨hname, data, len, rest, hchunk, hdata⟩ := carries_of_decode hdecode
      exact hnot ⟨hname, data, len, rest, req, hchunk, hdata, Nat.not_le.1 hlarge⟩

/-- The chunk of a range request carries a large one if the request is. -/
theorem carriesLargeRange_iff {req : OldBlocksByRangeRequest}
    (hname : c.protocol.messageName = .blocksByRange) (hlen : c.len = none)
    (hinverts : w.ssz.blocksByRange.Inverts req)
    (hcarries : w.Carries (w.ssz.blocksByRange.asSszBytes req))
    (hbounds : c.outOfBounds w (w.ssz.blocksByRange.asSszBytes req).length = none) :
    c.CarriesLargeRange w (writeChunk w (w.ssz.blocksByRange.asSszBytes req) []) ↔
      maxRequestBlocks < req.count.toNat := by
  have hread : readChunk w (c.outOfBounds w) c.len
      (writeChunk w (w.ssz.blocksByRange.asSszBytes req) []) =
        (.ok (some (w.ssz.blocksByRange.asSszBytes req)), none, []) := by
    rw [hlen]
    exact readChunk_writeChunk hcarries hbounds
  constructor
  · rintro ⟨-, data, len, rest, other, hchunk, hdata, hlarge⟩
    rw [hread] at hchunk
    cases hchunk
    rw [hinverts] at hdata
    cases hdata
    exact hlarge
  · intro hlarge
    exact ⟨hname, _, _, _, req, hread, hinverts, hlarge⟩

end SSZSnappyInboundCodec

/-! ## A request for all blocks -/

namespace PlainWire

/-- Three numbers. -/
def blocksByRange : SszType OldBlocksByRangeRequest where
  asSszBytes req := toLE 8 req.startSlot.toNat ++ (toLE 8 req.count.toNat ++ toLE 8 req.step.toNat)
  fromSszBytes bytes :=
    if bytes.length = 24 then
      .ok ⟨.ofNat (fromLE (bytes.take 8)), .ofNat (fromLE ((bytes.drop 8).take 8)),
        .ofNat (fromLE ((bytes.drop 8).drop 8))⟩
    else .error "InvalidByteLength"
  sszFixedLen := 24

/-- The wire with range requests. -/
def rangeWire : Wire spec := { wire with ssz := { ssz with blocksByRange := blocksByRange } }

theorem blocksByRange_inverts (req : OldBlocksByRangeRequest) : blocksByRange.Inverts req := by
  unfold SszType.Inverts blocksByRange
  dsimp only
  rw [if_pos (by simp only [List.length_append, length_toLE]), List.take_left' (length_toLE 8 _),
    List.drop_left' (length_toLE 8 _), List.take_left' (length_toLE 8 _),
    List.drop_left' (length_toLE 8 _), ofNat_fromLE_toLE, ofNat_fromLE_toLE, ofNat_fromLE_toLE]

/-- The request for as many blocks as there are numbers. -/
def allBlocks : OldBlocksByRangeRequest := ⟨0, 18446744073709551615, 1⟩

end PlainWire

namespace SSZSnappyInboundCodec

open PlainWire

/-- The request is decoded, for more than 1024 blocks. -/
theorem decode_bounded_fails : ¬ ∀ request c' rest,
    decode rangeWire
      (new ⟨.blocksByRange, .v2⟩ (maxRpcSize PlainWire.forkContext) PlainWire.forkContext)
      (writeChunk rangeWire (blocksByRange.asSszBytes allBlocks) []) =
        (.ok (some request), c', rest) → request.Bounded := by
  intro h
  have hwire : wire.Carries (blocksByRange.asSszBytes allBlocks) := carries (by decide)
  have hcarries : rangeWire.Carries (blocksByRange.asSszBytes allBlocks) :=
    ⟨hwire.awaits, hwire.length, hwire.frames⟩
  have hread := decode_range
    (c := new ⟨.blocksByRange, .v2⟩ (maxRpcSize PlainWire.forkContext) PlainWire.forkContext) rfl
    (readChunk_writeChunk hcarries rfl) (blocksByRange_inverts allBlocks)
  have hresponses := (h _ _ _ hread).responses
  revert hresponses
  decide

end SSZSnappyInboundCodec

end Consentry.Rpc
