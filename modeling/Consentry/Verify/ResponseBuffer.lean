import Consentry.Verify.ResponseStream

/-!
# The buffer of the response decoder

**`buffer_bounded`**: whatever a sender sends, in whatever fragments, the decoder that awaits
more input holds fewer bytes than the largest response of its protocol can take when it is
compressed; and once a length is known, a buffer that holds what this length can take is never
held back.

A call that awaits more has stopped at the code, at the context bytes, at a varint of fewer
than ten bytes, or in frames it has read to the end of the buffer (`decode_await`). The length
of a response is only ever known behind its code and its context bytes (`Known`).
-/

namespace Consentry.Rpc

open Lib

variable {S : EthSpec} {w : Wire S}

/-- A varint is awaited for fewer than ten bytes, and frames end too early only when the whole
input has been read. -/
structure Wire.Bounded (w : Wire S) : Prop where
  varint : ∀ bytes, w.uvi.decode bytes = .ok none → bytes.length < 10
  frames : ∀ input n msg k,
    w.snappy.readExact input n = (.error ⟨.unexpectedEof, msg⟩, k) → k = input.length

/-! ## Chunks -/

section

variable {outOfBounds : ℕ → Option RPCError} {len len' : Option ℕ} {length : ℕ}
  {src src' : Bytes}

theorem handleError_await {α : Type} {e : IoError} {numBytes maxCompressedLen : ℕ}
    (h : handleError e numBytes maxCompressedLen = .ok (none : Option α)) :
    e.kind = .unexpectedEof ∧ numBytes < maxCompressedLen := by
  unfold handleError at h
  split at h
  · next hkind =>
    split at h
    · cases h
    · next hlt => exact ⟨hkind, not_le.1 hlt⟩
  · cases h

/-- Frames are awaited when the whole buffer has been read, and it is short. -/
theorem readFrames_await (hw : w.Bounded)
    (h : readFrames w.snappy length src = (.ok none, len', src')) :
    len' = some length ∧ src' = src ∧ src.length < maxCompressLen length := by
  unfold readFrames at h
  split at h
  · cases h
  · next e n hread =>
    obtain ⟨herr, hrest⟩ := Prod.mk.inj h
    obtain ⟨rfl, rfl⟩ := Prod.mk.inj hrest
    obtain ⟨hkind, hlt⟩ := handleError_await herr
    obtain ⟨kind, msg⟩ := e
    obtain rfl : kind = .unexpectedEof := hkind
    have hn := hw.frames _ _ _ _ hread
    rw [List.length_take] at hn
    exact ⟨rfl, rfl, by omega⟩

/-- The length is known or read, or its varint is awaited, or malformed. -/
theorem handleLength_cases (uvi : Uvi) (len : Option ℕ) (src : Bytes) :
    (∃ length rest, handleLength uvi len src = (.ok (some length), some length, rest)) ∨
      (handleLength uvi len src = (.ok none, none, src) ∧ uvi.decode src = .ok none) ∨
      ∃ e, handleLength uvi len src = (.error e, none, src) := by
  cases len with
  | some length => exact .inl ⟨length, src, rfl⟩
  | none =>
    unfold handleLength
    rcases hdecode : uvi.decode src with e | (_ | ⟨length, rest⟩)
    · exact .inr (.inr ⟨_, rfl⟩)
    · exact .inr (.inl ⟨rfl, rfl⟩)
    · exact .inl ⟨length, rest, rfl⟩

/-- A chunk is awaited at its length or in its frames. -/
theorem readChunk_await (hw : w.Bounded)
    (h : readChunk w outOfBounds len src = (.ok none, len', src')) :
    (len' = none ∧ src'.length < 10) ∨
      ∃ length, len' = some length ∧ outOfBounds length = none ∧
        src'.length < maxCompressLen length := by
  unfold readChunk at h
  rcases handleLength_cases w.uvi len src with ⟨length, rest, hlength⟩ | ⟨hlength, hvarint⟩ |
    ⟨e, hlength⟩
  · simp only [hlength] at h
    split at h
    · cases h
    · next hbounds =>
      obtain ⟨hlen', rfl, hlt⟩ := readFrames_await hw h
      exact .inr ⟨length, hlen', hbounds, hlt⟩
  · simp only [hlength] at h
    obtain ⟨-, hrest⟩ := Prod.mk.inj h
    obtain ⟨rfl, rfl⟩ := Prod.mk.inj hrest
    exact .inl ⟨rfl, hw.varint _ hvarint⟩
  · simp only [hlength] at h
    cases h

/-- A known length is not read again. -/
theorem readChunk_known (hw : w.Bounded) (hlong : maxCompressLen length ≤ src.length) :
    readChunk w outOfBounds (some length) src ≠ (.ok none, len', src') := by
  intro h
  simp only [readChunk, handleLength] at h
  split at h
  · cases h
  · obtain ⟨-, -, hlt⟩ := readFrames_await hw h
    omega

/-- With its data the length of a chunk is forgotten. -/
theorem readChunk_done {buf : Bytes}
    (h : readChunk w outOfBounds len src = (.ok (some buf), len', src')) : len' = none := by
  unfold readChunk at h
  rcases handleLength_cases w.uvi len src with ⟨length, rest, hlength⟩ | ⟨hlength, -⟩ |
    ⟨e, hlength⟩
  · simp only [hlength] at h
    split at h
    · cases h
    · unfold readFrames at h
      split at h
      · obtain ⟨-, hrest⟩ := Prod.mk.inj h
        exact (Prod.mk.inj hrest).1.symm
      · next e n _ =>
        obtain ⟨herr, -⟩ := Prod.mk.inj h
        unfold handleError at herr
        split at herr
        · split at herr <;> cases herr
        · cases herr
  · simp only [hlength] at h
    cases h
  · simp only [hlength] at h
    cases h

end

/-! ## Messages -/

theorem SszType.read_ne_none {α β : Type} (t : SszType α) (f : α → β) (buf : Bytes) :
    t.read f buf ≠ .ok none := by
  unfold read
  split <;> exact fun h => by cases h

namespace SSZSnappyOutboundCodec

variable {c c' : SSZSnappyOutboundCodec} {src src' : Bytes}

theorem handleResponse_ne_none (c : SSZSnappyOutboundCodec) (w : Wire S) (buf : Bytes) :
    (c.handleResponse w buf).1 ≠ .ok none := by
  obtain ⟨len, ⟨name, version⟩, size, forkName, forkContext⟩ := c
  cases version with
  | v1 =>
    cases name with
    | goodbye => exact fun h => by cases h
    | _ => exact SszType.read_ne_none _ _ _
  | v2 =>
    cases name with
    | metaData => exact SszType.read_ne_none _ _ _
    | blocksByRange | blocksByRoot =>
      cases forkName with
      | none => exact fun h => by cases h
      | some fork => exact SszType.read_ne_none _ _ _
    | _ => cases forkName <;> exact fun h => by cases h

/-- The codec was set up in the same way. -/
structure SameSetup (c c' : SSZSnappyOutboundCodec) : Prop where
  protocol : c'.protocol = c.protocol
  maxPacketSize : c'.maxPacketSize = c.maxPacketSize
  forkContext : c'.forkContext = c.forkContext

theorem handleResponse_setup (c : SSZSnappyOutboundCodec) (w : Wire S) (buf : Bytes) :
    SameSetup c (c.handleResponse w buf).2 ∧ (c.handleResponse w buf).2.len = c.len := by
  unfold handleResponse
  split <;> exact ⟨⟨rfl, rfl, rfl⟩, rfl⟩

/-- The length of a response is known behind its context bytes only. -/
def Known (c : SSZSnappyOutboundCodec) : Prop :=
  c.len ≠ none → c.protocol.hasContextBytes → c.forkName ≠ none

/-- Where the message of a response can stop. -/
theorem decodeMessage_cases (c : SSZSnappyOutboundCodec) (w : Wire S) (src : Bytes) :
    ∃ r len src', readChunk w (c.outOfBounds w) c.len src = (r, len, src') ∧
      ((∃ e, r = .error e ∧
          decodeMessage w c src = (.error e, { c with len := len }, src')) ∨
        (r = .ok none ∧ decodeMessage w c src = (.ok none, { c with len := len }, src')) ∨
        ∃ buf, r = .ok (some buf) ∧ len = none ∧ decodeMessage w c src =
          (({ c with len := none }.handleResponse w buf).1,
            ({ c with len := none }.handleResponse w buf).2, src')) := by
  rcases hchunk : readChunk w (c.outOfBounds w) c.len src with ⟨r, len, src'⟩
  refine ⟨r, len, src', rfl, ?_⟩
  unfold decodeMessage
  rw [hchunk]
  rcases r with e | (_ | buf)
  · exact .inl ⟨e, rfl, rfl⟩
  · exact .inr (.inl ⟨rfl, rfl⟩)
  · obtain rfl := readChunk_done hchunk
    exact .inr (.inr ⟨buf, rfl, rfl, rfl⟩)

theorem decodeMessage_await (hw : w.Bounded)
    (h : decodeMessage w c src = (.ok none, c', src')) :
    src'.length < 10 ∨ ∃ length, c'.len = some length ∧ c.outOfBounds w length = none ∧
      src'.length < maxCompressLen length := by
  obtain ⟨r, len, rest, hchunk, ⟨e, -, hcall⟩ | ⟨rfl, hcall⟩ | ⟨buf, -, -, hcall⟩⟩ :=
    decodeMessage_cases c w src
  · cases hcall.symm.trans h
  · obtain ⟨-, hrest⟩ := Prod.mk.inj (hcall.symm.trans h)
    obtain ⟨rfl, rfl⟩ := Prod.mk.inj hrest
    rcases readChunk_await hw hchunk with ⟨-, hlt⟩ | hframes
    · exact .inl hlt
    · exact .inr hframes
  · obtain ⟨hnone, -⟩ := Prod.mk.inj (hcall.symm.trans h)
    exact absurd hnone (handleResponse_ne_none _ w buf)

theorem decodeMessage_step {r : Except RPCError (Option (RPCResponse S))}
    (hfork : c.protocol.hasContextBytes → c.forkName ≠ none)
    (h : decodeMessage w c src = (r, c', src')) :
    SameSetup c c' ∧ Known c' ∧ ∀ res, r = .ok (some res) → c'.len = none := by
  obtain ⟨r', len, rest, -, ⟨e, -, hcall⟩ | ⟨-, hcall⟩ | ⟨buf, -, -, hcall⟩⟩ :=
    decodeMessage_cases c w src
  · obtain ⟨rfl, hrest⟩ := Prod.mk.inj (hcall.symm.trans h)
    obtain ⟨rfl, -⟩ := Prod.mk.inj hrest
    exact ⟨⟨rfl, rfl, rfl⟩, fun _ => hfork, fun res hres => by cases hres⟩
  · obtain ⟨rfl, hrest⟩ := Prod.mk.inj (hcall.symm.trans h)
    obtain ⟨rfl, -⟩ := Prod.mk.inj hrest
    exact ⟨⟨rfl, rfl, rfl⟩, fun _ => hfork, fun res hres => by cases hres⟩
  · obtain ⟨-, hrest⟩ := Prod.mk.inj (hcall.symm.trans h)
    obtain ⟨rfl, -⟩ := Prod.mk.inj hrest
    obtain ⟨hsetup, hlen⟩ := handleResponse_setup { c with len := none } w buf
    exact ⟨⟨hsetup.protocol, hsetup.maxPacketSize, hsetup.forkContext⟩,
      fun hne => absurd hlen hne, fun _ _ => hlen⟩

/-- Where a call for a response goes: it waits for the context bytes, or refuses them, or
decodes the message behind them. -/
theorem decode_cases (c : SSZSnappyOutboundCodec) (w : Wire S) (src : Bytes) :
    (decode w c src = (.ok none, c, src) ∧ src.length < 4 ∧ c.protocol.hasContextBytes ∧
        c.forkName = none) ∨
      (∃ e src', decode w c src = (.error e, c, src') ∧ c.forkName = none) ∨
      (∃ fork src', c.forkName = none ∧ c.protocol.hasContextBytes ∧
        decode w c src = decodeMessage w { c with forkName := some fork } src') ∨
      ((c.protocol.hasContextBytes → c.forkName ≠ none) ∧
        decode w c src = decodeMessage w c src) := by
  by_cases hcontext : c.protocol.hasContextBytes ∧ c.forkName = none
  · obtain ⟨hbytes, hfork⟩ := hcontext
    unfold decode
    rw [if_pos ⟨hbytes, hfork⟩]
    rcases hsplit : splitContextBytes src with _ | ⟨context, src'⟩
    · refine .inl ⟨rfl, ?_, hbytes, hfork⟩
      match src, hsplit with
      | [], _ | [_], _ | [_, _], _ | [_, _, _], _ => simp
    · rcases hread : c.forkContext.fromContextBytes context with _ | fork
      · right
        left
        simp only [hread]
        exact ⟨_, src', rfl, hfork⟩
      · right
        right
        left
        simp only [hread]
        exact ⟨fork, src', hfork, hbytes, rfl⟩
  · right
    right
    right
    exact ⟨fun hbytes hfork => hcontext ⟨hbytes, hfork⟩, decode_of_known hcontext src⟩

/-- **A response is awaited** at its context bytes, its length or in its frames. -/
theorem decode_await (hw : w.Bounded) (h : decode w c src = (.ok none, c', src')) :
    src'.length < 10 ∨ ∃ length, c'.len = some length ∧ c.outOfBounds w length = none ∧
      src'.length < maxCompressLen length := by
  rcases decode_cases c w src with ⟨hcall, hlt, -⟩ | ⟨e, rest, hcall, -⟩ |
    ⟨fork, rest, -, -, hcall⟩ | ⟨-, hcall⟩
  · obtain ⟨-, hrest⟩ := Prod.mk.inj (hcall.symm.trans h)
    obtain ⟨-, rfl⟩ := Prod.mk.inj hrest
    exact .inl (by omega)
  · cases hcall.symm.trans h
  · exact decodeMessage_await (c := { c with forkName := some fork }) hw (hcall.symm.trans h)
  · exact decodeMessage_await hw (hcall.symm.trans h)

theorem decode_step {r : Except RPCError (Option (RPCResponse S))} (hknown : c.Known)
    (h : decode w c src = (r, c', src')) :
    SameSetup c c' ∧ Known c' ∧ ∀ res, r = .ok (some res) → c'.len = none := by
  rcases decode_cases c w src with ⟨hcall, -, -⟩ | ⟨e, rest, hcall, -⟩ |
    ⟨fork, rest, -, -, hcall⟩ | ⟨hfork, hcall⟩
  · obtain ⟨rfl, hrest⟩ := Prod.mk.inj (hcall.symm.trans h)
    obtain ⟨rfl, -⟩ := Prod.mk.inj hrest
    exact ⟨⟨rfl, rfl, rfl⟩, hknown, fun res hres => by cases hres⟩
  · obtain ⟨rfl, hrest⟩ := Prod.mk.inj (hcall.symm.trans h)
    obtain ⟨rfl, -⟩ := Prod.mk.inj hrest
    exact ⟨⟨rfl, rfl, rfl⟩, hknown, fun res hres => by cases hres⟩
  · obtain ⟨hsetup, hknown', hdone⟩ := decodeMessage_step
      (c := { c with forkName := some fork }) (by simp) (hcall.symm.trans h)
    exact ⟨⟨hsetup.protocol, hsetup.maxPacketSize, hsetup.forkContext⟩, hknown', hdone⟩
  · exact decodeMessage_step hfork (hcall.symm.trans h)

/-- A response of known length is not awaited with a full buffer. -/
theorem decode_known (hw : w.Bounded) (hknown : c.Known) {length : ℕ}
    (hlen : c.len = some length) (hlong : maxCompressLen length ≤ src.length) :
    decode w c src ≠ (.ok none, c', src') := by
  intro h
  have hfork : c.protocol.hasContextBytes → c.forkName ≠ none :=
    hknown (by rw [hlen]; exact Option.some_ne_none length)
  rw [decode_of_known fun hcontext => hfork hcontext.1 hcontext.2] at h
  obtain ⟨r, len, rest, hchunk, ⟨e, -, hcall⟩ | ⟨rfl, -⟩ | ⟨buf, -, -, hcall⟩⟩ :=
    decodeMessage_cases c w src
  · cases hcall.symm.trans h
  · rw [hlen] at hchunk
    exact readChunk_known hw hlong hchunk
  · obtain ⟨hnone, -⟩ := Prod.mk.inj (hcall.symm.trans h)
    exact absurd hnone (handleResponse_ne_none _ w buf)

/-- Where an error response can stop. -/
theorem decodeError_cases (c : SSZSnappyOutboundCodec) (w : Wire S) (src : Bytes) :
    ∃ r len src', readChunk w (c.errorOutOfBounds w) c.len src = (r, len, src') ∧
      (decodeError w c src).2 = ({ c with len := len }, src') ∧
      ((decodeError w c src).1 = .ok none → r = .ok none) ∧
      ∀ err, (decodeError w c src).1 = .ok (some err) → len = none := by
  rcases hchunk : readChunk w (c.errorOutOfBounds w) c.len src with ⟨r, len, src'⟩
  refine ⟨r, len, src', rfl, ?_⟩
  unfold decodeError
  rw [hchunk]
  rcases r with e | (_ | buf)
  · exact ⟨rfl, (fun h => by cases h), fun err h => by cases h⟩
  · exact ⟨rfl, (fun _ => rfl), fun err h => by cases h⟩
  · exact ⟨rfl, fun h => absurd h (SszType.read_ne_none _ _ _), fun _ _ => readChunk_done hchunk⟩

end SSZSnappyOutboundCodec

/-! ## Runs -/

/-- The largest length that is admitted for a response of the protocol, or for an error. -/
def largestResponse (w : Wire S) (p : ProtocolId) (forkContext : ForkContext) : ℕ :=
  max (min (w.rpcResponseLimits p forkContext).max (maxRpcSize forkContext))
    (min w.errorTypeMax (maxRpcSize forkContext))

theorem maxRpcSize_le (forkContext : ForkContext) : maxRpcSize forkContext ≤ 10 * 1048576 := by
  unfold maxRpcSize
  cases forkContext.currentFork <;> decide

theorem maxCompressLen_le {n m : ℕ} (h : n ≤ m) (hm : m ≤ 10 * 1048576) :
    maxCompressLen n ≤ maxCompressLen m := by
  unfold maxCompressLen
  rw [if_pos (by omega), if_pos (by omega)]
  omega

theorem lt_maxCompressLen {n m : ℕ} (h : n < 32) (hm : m ≤ 10 * 1048576) :
    n < maxCompressLen m := by
  unfold maxCompressLen
  rw [if_pos (by omega)]
  omega

namespace BaseOutboundCodec

variable {p : ProtocolId} {forkContext : ForkContext} {c c' : BaseOutboundCodec}
  {src src' : Bytes}

theorem largestResponse_le (w : Wire S) (p : ProtocolId) (forkContext : ForkContext) :
    largestResponse w p forkContext ≤ 10 * 1048576 := by
  have hsize := maxRpcSize_le forkContext
  unfold largestResponse
  omega

/-- The codec of a protocol, as a run leaves it: a length is only known behind a code, and
behind the context bytes that a response has. -/
structure Reached (p : ProtocolId) (forkContext : ForkContext) (c : BaseOutboundCodec) :
    Prop where
  protocol : c.inner.protocol = p
  maxPacketSize : c.inner.maxPacketSize = maxRpcSize forkContext
  forkContext : c.inner.forkContext = forkContext
  code : c.inner.len ≠ none → c.currentResponseCode ≠ none
  known : ∀ code, c.currentResponseCode = some code → RPCCodedResponse.isResponse code →
    c.inner.Known

theorem Reached.new (p : ProtocolId) (forkContext : ForkContext) :
    Reached p forkContext (.new (.new p (maxRpcSize forkContext) forkContext)) :=
  ⟨rfl, rfl, rfl, fun h => absurd rfl h, fun _ h => by cases h⟩

theorem outOfBounds_le {length : ℕ} (hc : c.Reached p forkContext)
    (h : c.inner.outOfBounds w length = none) : length ≤ largestResponse w p forkContext := by
  unfold SSZSnappyOutboundCodec.outOfBounds at h
  rw [hc.protocol, hc.forkContext, hc.maxPacketSize] at h
  split at h
  · cases h
  · next hbounds =>
    have hle : ¬ min (w.rpcResponseLimits p forkContext).max (maxRpcSize forkContext) < length := by
      intro hlt
      refine hbounds ?_
      unfold RpcLimits.isOutOfBounds
      rw [decide_eq_true hlt, Bool.true_or]
    exact (not_lt.1 hle).trans (le_max_left _ _)

theorem errorOutOfBounds_le {length : ℕ} (hc : c.Reached p forkContext)
    (h : c.inner.errorOutOfBounds w length = none) :
    length ≤ largestResponse w p forkContext := by
  unfold SSZSnappyOutboundCodec.errorOutOfBounds at h
  rw [hc.maxPacketSize] at h
  split at h
  · cases h
  · unfold largestResponse
    omega

/-- A call that is not stopped at once decodes what is behind a code. -/
theorem decode_cases (c : BaseOutboundCodec) (w : Wire S) (src : Bytes) :
    (decode w c src = (.ok none, c, src) ∧ src.length ≤ 1) ∨
      ∃ code rest, (c.currentResponseCode = some code ∧ rest = src ∨
          c.currentResponseCode = none ∧ src = code :: rest) ∧
        decode w c src = decodeBody w c code rest := by
  by_cases hlen : src.length ≤ 1
  · exact .inl ⟨if_pos hlen, hlen⟩
  · right
    unfold decode
    rw [if_neg hlen]
    cases hcode : c.currentResponseCode with
    | some code =>
      refine ⟨code, src, .inl ⟨rfl, rfl⟩, ?_⟩
      simp only [decodeCoded, hcode]
    | none =>
      cases src with
      | nil => exact absurd (Nat.zero_le 1) hlen
      | cons code rest =>
        refine ⟨code, rest, .inr ⟨rfl, rfl⟩, ?_⟩
        simp only [decodeCoded, hcode]

/-- What a call leaves of the code and the length. -/
theorem decodeBody_step {code : UInt8} {r : Except RPCError (Option (RPCCodedResponse S))}
    (hknown : RPCCodedResponse.isResponse code → c.inner.Known)
    (h : decodeBody w c code src = (r, c', src')) :
    c.inner.SameSetup c'.inner ∧
      (c'.currentResponseCode = some code ∨
        c'.currentResponseCode = none ∧ c'.inner.len = none) ∧
      (RPCCodedResponse.isResponse code → c'.inner.Known) := by
  rw [decodeBody_eq] at h
  cases hcode : RPCCodedResponse.isResponse code with
  | true =>
    rw [hcode, if_pos rfl] at h
    rcases hcall : SSZSnappyOutboundCodec.decode w c.inner src with ⟨r', inner, rest⟩
    obtain ⟨hsetup, hinner, hdone⟩ := SSZSnappyOutboundCodec.decode_step (hknown hcode) hcall
    rw [hcall] at h
    rcases r' with e | (_ | res)
    · cases h
      exact ⟨hsetup, .inl rfl, fun _ => hinner⟩
    · cases h
      exact ⟨hsetup, .inl rfl, fun _ => hinner⟩
    · cases h
      exact ⟨hsetup, .inr ⟨rfl, hdone res rfl⟩, fun _ => hinner⟩
  | false =>
    rw [hcode, if_neg Bool.false_ne_true] at h
    obtain ⟨r'', len, rest, -, hstate, -, hdone⟩ :=
      SSZSnappyOutboundCodec.decodeError_cases c.inner w src
    rcases hcall : SSZSnappyOutboundCodec.decodeError w c.inner src with ⟨r', inner, rest'⟩
    rw [hcall] at h hstate hdone
    obtain ⟨rfl, rfl⟩ := Prod.mk.inj hstate
    rcases r' with e | (_ | err)
    · cases h
      exact ⟨⟨rfl, rfl, rfl⟩, .inl rfl, fun h => absurd h Bool.false_ne_true⟩
    · cases h
      exact ⟨⟨rfl, rfl, rfl⟩, .inl rfl, fun h => absurd h Bool.false_ne_true⟩
    · cases h
      exact ⟨⟨rfl, rfl, rfl⟩, .inr ⟨rfl, hdone err rfl⟩, fun h => absurd h Bool.false_ne_true⟩

theorem Reached.decode (hc : c.Reached p forkContext) (w : Wire S) (src : Bytes) :
    (decode w c src).2.1.Reached p forkContext := by
  rcases decode_cases c w src with ⟨hcall, -⟩ | ⟨code, rest, hcode, hcall⟩
  · rw [hcall]
    exact hc
  · rw [hcall]
    have hknown : RPCCodedResponse.isResponse code → c.inner.Known := by
      intro hresponse
      rcases hcode with ⟨hcode, -⟩ | ⟨hcode, -⟩
      · exact hc.known code hcode hresponse
      · intro hlen
        exact absurd hcode (hc.code hlen)
    rcases hbody : decodeBody w c code rest with ⟨r, c', src'⟩
    obtain ⟨hsetup, hleft, hknown'⟩ := decodeBody_step hknown hbody
    refine ⟨hsetup.protocol.trans hc.protocol, hsetup.maxPacketSize.trans hc.maxPacketSize,
      hsetup.forkContext.trans hc.forkContext, ?_, ?_⟩
    · intro hlen
      rcases hleft with hsome | ⟨-, hnone⟩
      · simp only [hsome]
        exact Option.some_ne_none code
      · exact absurd hnone hlen
    · intro code' hcode' hresponse
      rcases hleft with hsome | ⟨hnone, -⟩
      · obtain rfl := Option.some.inj (hsome.symm.trans hcode')
        exact hknown' hresponse
      · exact absurd (hnone.symm.trans hcode') (Option.some_ne_none code').symm

/-- **A call that awaits more holds little.** -/
theorem Reached.await_lt (hc : c.Reached p forkContext) (hw : w.Bounded)
    (h : BaseOutboundCodec.decode w c src = (.ok none, c', src')) :
    src'.length < maxCompressLen (largestResponse w p forkContext) := by
  have hlargest := largestResponse_le w p forkContext
  have hframes : ∀ length, length ≤ largestResponse w p forkContext →
      src'.length < maxCompressLen length →
        src'.length < maxCompressLen (largestResponse w p forkContext) :=
    fun length hle hlt => hlt.trans_le (maxCompressLen_le hle hlargest)
  rcases decode_cases c w src with ⟨hcall, hlt⟩ | ⟨code, rest, -, hcall⟩
  · obtain ⟨-, hrest⟩ := Prod.mk.inj (hcall.symm.trans h)
    obtain ⟨-, rfl⟩ := Prod.mk.inj hrest
    exact lt_maxCompressLen (by omega) hlargest
  · rw [hcall, decodeBody_eq] at h
    split at h
    · rcases hinner : SSZSnappyOutboundCodec.decode w c.inner rest with
        ⟨r | (_ | res), inner, rest'⟩
      all_goals
        rw [hinner] at h
        cases h
      rcases SSZSnappyOutboundCodec.decode_await hw hinner with hlt | ⟨length, -, hbounds, hlt⟩
      · exact lt_maxCompressLen (by omega) hlargest
      · exact hframes length (outOfBounds_le hc hbounds) hlt
    · obtain ⟨r', len, rest', hchunk, hstate, hnone, -⟩ :=
        SSZSnappyOutboundCodec.decodeError_cases c.inner w rest
      rcases hinner : SSZSnappyOutboundCodec.decodeError w c.inner rest with
        ⟨r | (_ | err), inner, rest''⟩
      all_goals
        rw [hinner] at h hstate hnone
        cases h
      obtain ⟨-, rfl⟩ := Prod.mk.inj hstate
      obtain rfl := hnone rfl
      rcases readChunk_await hw hchunk with ⟨-, hlt⟩ | ⟨length, -, hbounds, hlt⟩
      · exact lt_maxCompressLen (by omega) hlargest
      · exact hframes length (errorOutOfBounds_le hc hbounds) hlt

/-- **A known length is not awaited for ever.** -/
theorem Reached.known_ne (hc : c.Reached p forkContext) (hw : w.Bounded) {length : ℕ}
    (hlen : c.inner.len = some length) (hle : length ≤ largestResponse w p forkContext)
    (hlong : maxCompressLen length ≤ src.length) :
    BaseOutboundCodec.decode w c src ≠ (.ok none, c', src') := by
  intro h
  have hlargest := largestResponse_le w p forkContext
  have hsome : c.inner.len ≠ none := by
    rw [hlen]
    exact Option.some_ne_none length
  rcases decode_cases c w src with ⟨-, hshort⟩ | ⟨code, rest, hcode, hcall⟩
  · have hlt := lt_maxCompressLen (n := 1) (by decide) (hle.trans hlargest)
    omega
  · rcases hcode with ⟨hcode, rfl⟩ | ⟨hcode, -⟩
    · rw [hcall, decodeBody_eq] at h
      split at h
      · next hresponse =>
        rcases hinner : SSZSnappyOutboundCodec.decode w c.inner rest with
          ⟨r | (_ | res), inner, rest'⟩
        all_goals
          rw [hinner] at h
          cases h
        exact SSZSnappyOutboundCodec.decode_known hw (hc.known code hcode hresponse) hlen hlong
          hinner
      · obtain ⟨r', len, rest', hchunk, hstate, hnone, -⟩ :=
          SSZSnappyOutboundCodec.decodeError_cases c.inner w rest
        rcases hinner : SSZSnappyOutboundCodec.decodeError w c.inner rest with
          ⟨r | (_ | err), inner, rest''⟩
        all_goals
          rw [hinner] at h hnone
          cases h
        obtain rfl := hnone rfl
        rw [hlen] at hchunk
        exact readChunk_known hw hlong hchunk
    · exact absurd hcode (hc.code hsome)

/-- The decoder and its buffer after fragments that arrive one after another, with a call
after each. -/
def afterFragments (w : Wire S) (p : ProtocolId) (forkContext : ForkContext)
    (frags : List Bytes) : BaseOutboundCodec × Bytes :=
  frags.foldl (fun s frag => (BaseOutboundCodec.decode w s.1 (s.2 ++ frag)).2)
    (.new (.new p (maxRpcSize forkContext) forkContext), [])

theorem afterFragments_reached (w : Wire S) (p : ProtocolId) (forkContext : ForkContext)
    (frags : List Bytes) : (afterFragments w p forkContext frags).1.Reached p forkContext := by
  suffices hrun : ∀ s : BaseOutboundCodec × Bytes, s.1.Reached p forkContext →
      (frags.foldl (fun s frag => (BaseOutboundCodec.decode w s.1 (s.2 ++ frag)).2) s).1.Reached
        p forkContext from hrun _ (.new p forkContext)
  induction frags with
  | nil => exact fun _ hs => hs
  | cons frag frags ih => exact fun s hs => ih _ (hs.decode w (s.2 ++ frag))

/-- **The decoder does not buffer without bound**: after any fragments, a call that awaits
more leaves less than the largest response can take, and a call for a known length does not
await more with a buffer that holds what this length can take. -/
theorem buffer_bounded (hw : w.Bounded) (p : ProtocolId) (forkContext : ForkContext)
    (frags : List Bytes) (frag : Bytes) :
    let (c, buf) := afterFragments w p forkContext frags
    (∀ c' buf', BaseOutboundCodec.decode w c (buf ++ frag) = (.ok none, c', buf') →
        buf'.length < maxCompressLen (largestResponse w p forkContext)) ∧
      ∀ length, c.inner.len = some length → length ≤ largestResponse w p forkContext →
        maxCompressLen length ≤ (buf ++ frag).length →
          ∀ c' buf', BaseOutboundCodec.decode w c (buf ++ frag) ≠ (.ok none, c', buf') := by
  have hc := afterFragments_reached w p forkContext frags
  exact ⟨fun _ _ h => hc.await_lt hw h, fun _ hlen hle hlong _ _ => hc.known_ne hw hlen hle hlong⟩

theorem plainWire_bounded : PlainWire.wire.Bounded :=
  ⟨fun _ => PlainWire.fromVarint_short, fun _ _ _ _ => PlainWire.readExact_error⟩

/-- The code and the length of a pong have arrived, and a part of its frames. -/
theorem buffer_bounded_ping :
    let (c, buf) := afterFragments PlainWire.wire ⟨.ping, .v1⟩ PlainWire.forkContext
      [[0], [8, 0xff, 0x06]]
    (∀ c' buf', BaseOutboundCodec.decode PlainWire.wire c (buf ++ [0]) = (.ok none, c', buf') →
        buf'.length < maxCompressLen
          (largestResponse PlainWire.wire ⟨.ping, .v1⟩ PlainWire.forkContext)) ∧
      ∀ length, c.inner.len = some length →
        length ≤ largestResponse PlainWire.wire ⟨.ping, .v1⟩ PlainWire.forkContext →
        maxCompressLen length ≤ (buf ++ [0]).length →
          ∀ c' buf', BaseOutboundCodec.decode PlainWire.wire c (buf ++ [0]) ≠
            (.ok none, c', buf') :=
  buffer_bounded plainWire_bounded ⟨.ping, .v1⟩ PlainWire.forkContext [[0], [8, 0xff, 0x06]] [0]

end BaseOutboundCodec

end Consentry.Rpc
