import Consentry.Verify.PlainWire

/-!
# What encoding does to the buffer

An encoder should append to the buffer, and leave it alone where it fails (`Appends`). The encoder
of requests does (`BaseOutboundCodec.encode_appends`), and so does that of responses without their
codes (`SSZSnappyInboundCodec.encode_appends`). **`appends_iff`**: the encoder that puts the code in
front clears the buffer and writes to it before it can fail. So it does only with a response of
the right size and an empty buffer, or where the buffer was the code already (`appends_fails`).
-/

namespace Consentry.Rpc

variable {S : EthSpec} {w : Wire S}

/-- Where the encoder succeeds, the buffer is what it was, with what is written to an empty one
behind it; where it fails, the buffer is what it was. -/
structure Appends (encode : Bytes → Option (Except RPCError Unit × Bytes)) (dst : Bytes) :
    Prop where
  ok : ∀ buf, encode dst = some (.ok (), buf) →
    ∃ bytes, encode [] = some (.ok (), bytes) ∧ buf = dst ++ bytes
  error : ∀ e buf, encode dst = some (.error e, buf) → buf = dst

namespace Appends

variable {encode : Bytes → Option (Except RPCError Unit × Bytes)}

theorem iff_of_ok {dst buf : Bytes} (h : encode dst = some (.ok (), buf)) :
    Appends encode dst ↔ ∃ bytes, encode [] = some (.ok (), bytes) ∧ buf = dst ++ bytes := by
  constructor
  · intro happends
    exact happends.ok buf h
  · intro hbytes
    constructor
    · intro buf' hbuf
      rw [h] at hbuf
      cases hbuf
      exact hbytes
    · intro e buf' hbuf
      rw [h] at hbuf
      cases hbuf

theorem iff_of_error {dst buf : Bytes} {e : RPCError} (h : encode dst = some (.error e, buf)) :
    Appends encode dst ↔ buf = dst := by
  constructor
  · intro happends
    exact happends.error e buf h
  · intro heq
    constructor
    · intro buf' hbuf
      rw [h] at hbuf
      cases hbuf
    · intro e' buf' hbuf
      rw [h] at hbuf
      cases hbuf
      exact heq

theorem of_ok {bytes : Bytes} (h : ∀ dst, encode dst = some (.ok (), dst ++ bytes)) (dst : Bytes) :
    Appends encode dst :=
  (iff_of_ok (h dst)).2 ⟨bytes, h [], rfl⟩

theorem of_error {e : RPCError} (h : ∀ dst, encode dst = some (.error e, dst)) (dst : Bytes) :
    Appends encode dst :=
  (iff_of_error (h dst)).2 rfl

end Appends

/-! ## The encoders that append -/

/-- **Requests are appended.** -/
theorem BaseOutboundCodec.encode_appends (c : BaseOutboundCodec) (item : OutboundRequest)
    (dst : Bytes) : Appends (fun dst => some (c.encode w item dst)) dst := by
  unfold BaseOutboundCodec.encode SSZSnappyOutboundCodec.encode
  cases hbytes : SSZSnappyOutboundCodec.sszBytes w item with
  | none => exact .of_ok (fun dst => by rw [List.append_nil]) dst
  | some data =>
    by_cases hlarge : c.inner.maxPacketSize < data.length
    · simp only [if_pos hlarge]
      exact .of_error (fun _ => rfl) dst
    · simp only [if_neg hlarge]
      exact .of_ok (fun dst => by rw [writeChunk_append]) dst

namespace SSZSnappyInboundCodec

/-- The encoding of the response is within the size limit. -/
def Fits (c : SSZSnappyInboundCodec) (w : Wire S) : RPCCodedResponse S → Prop
  | .success res => (c.successBytes w res).length ≤ c.maxPacketSize
  | .error _ err => (w.ssz.errorType.asSszBytes err).length ≤ c.maxPacketSize
  | .streamTermination _ => True

instance (c : SSZSnappyInboundCodec) (w : Wire S) : ∀ item, Decidable (c.Fits w item)
  | .success _ => inferInstanceAs (Decidable (_ ≤ _))
  | .error _ _ => inferInstanceAs (Decidable (_ ≤ _))
  | .streamTermination _ => isTrue trivial

/-- **A response without its code** is appended if it fits, and fails if it does not. -/
theorem encode_cases (c : SSZSnappyInboundCodec) {item : RPCCodedResponse S} {code : UInt8}
    (hcode : item.asU8 = some code) :
    (c.Fits w item ∧ ∃ bytes, ∀ dst, c.encode w item dst = some (.ok (), dst ++ bytes)) ∨
    (¬ c.Fits w item ∧ ∃ e, ∀ dst, c.encode w item dst = some (.error e, dst)) := by
  have hwrite : ∀ data : Bytes, (∀ dst, c.encode w item dst = some
        (if c.maxPacketSize < data.length then
          (.error (.internalError "attempting to encode data > max_packet_size"), dst)
        else (.ok (), writeChunk w data (dst ++ (c.contextBytes item).elim [] Vector.toList)))) →
      (data.length ≤ c.maxPacketSize ∧
        ∃ bytes, ∀ dst, c.encode w item dst = some (.ok (), dst ++ bytes)) ∨
      (¬ data.length ≤ c.maxPacketSize ∧
        ∃ e, ∀ dst, c.encode w item dst = some (.error e, dst)) := by
    intro data hencode
    by_cases hlarge : c.maxPacketSize < data.length
    · simp only [if_pos hlarge] at hencode
      exact .inr ⟨Nat.not_le.2 hlarge, _, hencode⟩
    · simp only [if_neg hlarge] at hencode
      refine .inl ⟨Nat.not_lt.1 hlarge,
        (c.contextBytes item).elim [] Vector.toList ++ writeChunk w data [], fun dst => ?_⟩
      rw [hencode, writeChunk_append, List.append_assoc]
  cases item with
  | success res => exact hwrite (c.successBytes w res) fun _ => rfl
  | error kind err => exact hwrite (w.ssz.errorType.asSszBytes err) fun _ => rfl
  | streamTermination t => cases hcode

theorem encode_appends (c : SSZSnappyInboundCodec) {item : RPCCodedResponse S} {code : UInt8}
    (hcode : item.asU8 = some code) (dst : Bytes) : Appends (c.encode w item) dst := by
  rcases c.encode_cases (w := w) hcode with ⟨-, bytes, h⟩ | ⟨-, e, h⟩
  · exact .of_ok h dst
  · exact .of_error h dst

end SSZSnappyInboundCodec

/-! ## The encoder that does not -/

namespace BaseInboundCodec

theorem encode_eq (c : BaseInboundCodec) {item : RPCCodedResponse S} {code : UInt8}
    (hcode : item.asU8 = some code) (dst : Bytes) :
    c.encode w item dst = c.inner.encode w item [code] := by
  unfold encode
  rw [hcode]

/-- **A response is appended** to the buffer, and leaves it as it is where it fails, if and only if
it fits and the buffer is empty, or it does not fit and the buffer is its code. -/
theorem appends_iff (c : BaseInboundCodec) {item : RPCCodedResponse S} {code : UInt8}
    (hcode : item.asU8 = some code) (dst : Bytes) :
    Appends (c.encode w item) dst ↔
      (c.inner.Fits w item ∧ dst = []) ∨ (¬ c.inner.Fits w item ∧ dst = [code]) := by
  have hencode := c.encode_eq (w := w) hcode
  rcases c.inner.encode_cases (w := w) hcode with ⟨hfits, bytes, h⟩ | ⟨hlarge, e, h⟩
  · have hok : ∀ dst, c.encode w item dst = some (.ok (), [code] ++ bytes) := fun dst => by
      rw [hencode, h]
    rw [Appends.iff_of_ok (hok dst)]
    constructor
    · rintro ⟨written, hwritten, heq⟩
      rw [hok] at hwritten
      cases hwritten
      exact .inl ⟨hfits, List.self_eq_append_left.1 heq⟩
    · rintro (⟨-, rfl⟩ | ⟨hlarge, -⟩)
      · exact ⟨_, hok [], rfl⟩
      · exact absurd hfits hlarge
  · have herror : ∀ dst, c.encode w item dst = some (.error e, [code]) := fun dst => by
      rw [hencode, h]
    rw [Appends.iff_of_error (herror dst)]
    constructor
    · intro hcode
      exact .inr ⟨hlarge, hcode.symm⟩
    · rintro (⟨hfits, -⟩ | ⟨-, rfl⟩)
      · exact absurd hfits hlarge
      · rfl

section Example

open PlainWire

/-- The codec of pings, with a limit on the size of messages. -/
private def pings (maxPacketSize : ℕ) : BaseInboundCodec :=
  ⟨.new ⟨.ping, .v1⟩ maxPacketSize PlainWire.forkContext⟩

private def pong : RPCCodedResponse spec := .success (.pong ⟨5⟩)

/-- A response that fits is appended to the empty buffer. -/
theorem appends_iff_pong : Appends ((pings 64).encode wire pong) [] :=
  ((pings 64).appends_iff rfl []).2 (.inl ⟨by decide, rfl⟩)

/-- The chunk that was in the buffer is lost, and of a response that is too large the code stays. -/
theorem appends_fails : ¬ Appends ((pings 64).encode wire pong) [7] ∧
    ¬ Appends ((pings 4).encode wire pong) [] := by
  constructor
  · intro h
    obtain ⟨bytes, -, heq⟩ := h.ok _ rfl
    cases (List.cons.inj heq).1
  · intro h
    cases h.error _ _ rfl

end Example

end BaseInboundCodec

end Consentry.Rpc
