import Consentry.Verify.PlainWire

/-!
# Responses on a stream

**`responses_round_trip`**: the responses of a stream, encoded one by one, are decoded to the
list that was sent, in order, however the bytes are cut, and the decoder is left as it was at
the start. A response of metadata arrives in the negotiated version.

Each response is read in stages (`SSZSnappyOutboundCodec.expects_response`): context bytes
where the protocol has them, then a chunk. The buffer of one byte at which the decoder
returns early is never all that is missing of a response.
-/

namespace Consentry.Rpc

open Lib

variable {S : EthSpec} {w : Wire S}

/-! ## What is sent -/

/-- The fork context reads back the context bytes of the forks that it schedules. -/
structure ForkContext.Lawful (forkContext : ForkContext) : Prop where
  read : ∀ fork bytes, forkContext.toContextBytes fork = some bytes →
    forkContext.fromContextBytes bytes = some fork
  genesis : forkContext.fromContextBytes forkContext.genesisContextBytes = some .base

namespace RPCResponse

/-- The response as it arrives under a version. -/
def toVersion (res : RPCResponse S) (version : Version) : RPCResponse S :=
  match res with
  | metaData m => metaData (m.toVersion version)
  | res => res

/-- A block of the second version is of a scheduled fork, and one of the first version is a
base block. -/
def ForkScheduled (forkContext : ForkContext) (version : Version) : RPCResponse S → Prop
  | blocksByRange b | blocksByRoot b =>
    match version with
    | .v1 => b.fork = .base
    | .v2 => b.fork = .base ∨ (forkContext.toContextBytes b.fork).isSome
  | _ => True

/-- The ssz library reads back what the response holds. -/
def SszInverts (w : Wire S) (version : Version) : RPCResponse S → Prop
  | status res => w.ssz.statusMessage.Inverts res
  | blocksByRange b | blocksByRoot b => (w.ssz.signedBeaconBlock b.fork).Inverts b.block
  | pong res => w.ssz.u64.Inverts res.data
  | metaData m =>
    match m.toVersion version with
    | .v1 m => w.ssz.metaDataV1.Inverts m
    | .v2 m => w.ssz.metaDataV2.Inverts m

/-- A response that can be sent under a protocol, and whose encoding is within the bounds of
its type. The second version is not defined for status and ping. -/
structure Sendable (w : Wire S) (c : SSZSnappyInboundCodec) (res : RPCResponse S) : Prop where
  kind : res.protocol = c.protocol.messageName
  supported : c.protocol ≠ ⟨.status, .v2⟩ ∧ c.protocol ≠ ⟨.ping, .v2⟩
  fork : res.ForkScheduled c.forkContext c.protocol.version
  ssz : res.SszInverts w c.protocol.version
  carries : w.Carries (c.successBytes w res)
  limits : (w.rpcResponseLimits c.protocol c.forkContext).min ≤ (c.successBytes w res).length ∧
    (c.successBytes w res).length ≤ (w.rpcResponseLimits c.protocol c.forkContext).max

end RPCResponse

namespace RPCCodedResponse

def toVersion (item : RPCCodedResponse S) (version : Version) : RPCCodedResponse S :=
  match item with
  | success res => success (res.toVersion version)
  | item => item

/-- An error response that can be sent. -/
structure ErrorSendable (w : Wire S) (err : ErrorType) : Prop where
  ssz : w.ssz.errorType.Inverts err
  carries : w.Carries (w.ssz.errorType.asSszBytes err)
  limits : w.errorTypeMin ≤ (w.ssz.errorType.asSszBytes err).length ∧
    (w.ssz.errorType.asSszBytes err).length ≤ w.errorTypeMax

def Sendable (w : Wire S) (c : SSZSnappyInboundCodec) : RPCCodedResponse S → Prop
  | success res => res.Sendable w c
  | error _ err => ErrorSendable w err
  | streamTermination _ => False

end RPCCodedResponse

/-! ## Encodings -/

/-- What the encoder writes for a response: its code, the context bytes and the chunk. -/
theorem BaseInboundCodec.encode_success {c : SSZSnappyInboundCodec} {res : RPCResponse S}
    {dst bytes : Bytes}
    (h : (BaseInboundCodec.mk c).encode w (.success res) dst = some (.ok (), bytes)) :
    (c.successBytes w res).length ≤ c.maxPacketSize ∧
      bytes = 0 :: ((c.contextBytes (.success res)).elim [] Vector.toList ++
        writeChunk w (c.successBytes w res) []) := by
  simp only [BaseInboundCodec.encode, RPCCodedResponse.asU8, SSZSnappyInboundCodec.encode,
    Option.some.injEq] at h
  obtain ⟨hle, rfl⟩ := writeChunk_of_ok h
  exact ⟨hle, by simp⟩

theorem BaseInboundCodec.encode_error {c : SSZSnappyInboundCodec} {code : RPCResponseErrorCode}
    {err : ErrorType} {dst bytes : Bytes}
    (h : (BaseInboundCodec.mk c).encode w (.error code err) dst = some (.ok (), bytes)) :
    (w.ssz.errorType.asSszBytes err).length ≤ c.maxPacketSize ∧
      bytes = code.asU8 :: writeChunk w (w.ssz.errorType.asSszBytes err) [] := by
  have hcontext : c.contextBytes (.error code err : RPCCodedResponse S) = none := by
    unfold SSZSnappyInboundCodec.contextBytes
    split <;> rfl
  simp only [BaseInboundCodec.encode, RPCCodedResponse.asU8, SSZSnappyInboundCodec.encode,
    Option.some.injEq, hcontext] at h
  obtain ⟨hle, rfl⟩ := writeChunk_of_ok h
  exact ⟨hle, by simp⟩

/-! ## Stages of the decoder -/

theorem splitContextBytes_append (context : ContextBytes) (src : Bytes) :
    splitContextBytes (context.toList ++ src) = some (context, src) := by
  obtain ⟨⟨l⟩, hl⟩ := context
  match l, hl with
  | [a, b, c, d], _ => rfl

theorem splitContextBytes_short {context : ContextBytes} {pre post : Bytes}
    (h : context.toList = pre ++ post) (hpost : post ≠ []) : splitContextBytes pre = none := by
  have hlen : (pre ++ post).length = 4 := by rw [← h, Vector.length_toList]
  have hpos := List.length_pos_iff.2 hpost
  rw [List.length_append] at hlen
  match pre, hlen with
  | [], _ | [_], _ | [_, _], _ | [_, _, _], _ => rfl
  | _ :: _ :: _ :: _ :: pre, hlen =>
    simp only [List.length_cons] at hlen
    omega

namespace SSZSnappyOutboundCodec

variable {c : SSZSnappyOutboundCodec} {data : Bytes}

theorem outOfBounds_eq_none {length : ℕ}
    (hlimits : (w.rpcResponseLimits c.protocol c.forkContext).min ≤ length ∧
      length ≤ (w.rpcResponseLimits c.protocol c.forkContext).max)
    (hsize : length ≤ c.maxPacketSize) : c.outOfBounds w length = none := by
  unfold outOfBounds
  rw [RpcLimits.isOutOfBounds_eq_false hlimits.1 hlimits.2 hsize]
  rfl

theorem errorOutOfBounds_eq_none {length : ℕ}
    (hlimits : w.errorTypeMin ≤ length ∧ length ≤ w.errorTypeMax)
    (hsize : length ≤ c.maxPacketSize) : c.errorOutOfBounds w length = none := by
  unfold errorOutOfBounds
  exact if_neg (by omega)

theorem decode_of_known (hcontext : ¬ (c.protocol.hasContextBytes ∧ c.forkName = none))
    (src : Bytes) : decode w c src = decodeMessage w c src :=
  if_neg hcontext

/-- A chunk behind its context bytes, if any, is read to what `handleResponse` makes of it. -/
theorem expects_message {done : SSZSnappyOutboundCodec} {res : RPCResponse S}
    (hcontext : ¬ (c.protocol.hasContextBytes ∧ c.forkName = none)) (hlen : c.len = none)
    (hdata : w.Carries data) (hbounds : c.outOfBounds w data.length = none)
    (hres : c.handleResponse w data = (.ok (some res), done)) :
    Expects (decode w) res done 2 c (writeChunk w data []) := by
  have hchunk : Expects (decode w) res done 2 { c with len := none } (writeChunk w data []) := by
    refine expects_chunk hdata hbounds (le_refl 2) (fun len => { c with len := len })
      (fun c buf => c.handleResponse w buf) (fun len src => ?_) ?_
    · exact decode_of_known (c := { c with len := len }) hcontext src
    · simp only [← hlen, hres]
  rwa [← hlen] at hchunk

/-- Context bytes in front of a chunk. -/
theorem expects_context {done : SSZSnappyOutboundCodec} {res : RPCResponse S}
    {context : ContextBytes} {fork : ForkName} {p : Bytes}
    (hcontext : c.protocol.hasContextBytes) (hfork : c.forkName = none)
    (hread : c.forkContext.fromContextBytes context = some fork) (hp : 2 ≤ p.length)
    (h : Expects (decode w) res done 2 { c with forkName := some fork } p) :
    Expects (decode w) res done 2 c (context.toList ++ p) := by
  refine .header (fun pre post hpre hpost => ?_) (fun rest => ?_) (.inr hp) h
  · unfold decode
    rw [if_pos ⟨hcontext, hfork⟩, splitContextBytes_short hpre hpost]
  · rw [decode_of_known (c := { c with forkName := some fork }) (by simp)]
    unfold decode
    rw [if_pos ⟨hcontext, hfork⟩, splitContextBytes_append]
    simp only [hread]

/-- An error response is read from its chunk. -/
theorem expects_error {err : ErrorType} (hlen : c.len = none)
    (herr : RPCCodedResponse.ErrorSendable w err)
    (hsize : (w.ssz.errorType.asSszBytes err).length ≤ c.maxPacketSize) :
    Expects (decodeError w) err c 2 c (writeChunk w (w.ssz.errorType.asSszBytes err) []) := by
  have hbounds := errorOutOfBounds_eq_none (c := c) herr.limits hsize
  have hchunk : Expects (decodeError w) err c 2 { c with len := none }
      (writeChunk w (w.ssz.errorType.asSszBytes err) []) := by
    refine expects_chunk herr.carries hbounds (le_refl 2) (fun len => { c with len := len })
      (fun c buf => (w.ssz.errorType.read id buf, c)) (fun len src => ?_) ?_
    · rfl
    · simp only [herr.ssz.read, id, ← hlen]
  rwa [← hlen] at hchunk

/-! ## Responses -/

section

variable {p : ProtocolId} {size : ℕ} {forkContext : ForkContext} {res : RPCResponse S}

/-- A response without context bytes is what its data is decoded to. -/
theorem handleResponse_new (hcontext : p.hasContextBytes = false)
    (hres : res.Sendable w (.new p size forkContext)) :
    (new p size forkContext).handleResponse w
        ((SSZSnappyInboundCodec.new p size forkContext).successBytes w res) =
      (.ok (some (res.toVersion p.version)), new p size forkContext) := by
  obtain ⟨name, version⟩ := p
  obtain ⟨hkind, ⟨hstatus, hping⟩, hfork, hssz, -, -⟩ := hres
  cases version with
  | v1 =>
    cases res with
    | status res =>
      obtain rfl : Protocol.status = name := hkind
      exact congrArg (·, _) (hssz.read RPCResponse.status)
    | blocksByRange b =>
      obtain rfl : Protocol.blocksByRange = name := hkind
      obtain ⟨fork, block⟩ := b
      obtain rfl : fork = .base := hfork
      exact congrArg (·, _) (hssz.read fun b => RPCResponse.blocksByRange ⟨.base, b⟩)
    | blocksByRoot b =>
      obtain rfl : Protocol.blocksByRoot = name := hkind
      obtain ⟨fork, block⟩ := b
      obtain rfl : fork = .base := hfork
      exact congrArg (·, _) (hssz.read fun b => RPCResponse.blocksByRoot ⟨.base, b⟩)
    | pong res =>
      obtain rfl : Protocol.ping = name := hkind
      exact congrArg (·, _) (hssz.read fun data => RPCResponse.pong ⟨data⟩)
    | metaData m =>
      obtain rfl : Protocol.metaData = name := hkind
      exact congrArg (·, _) (hssz.read fun m => RPCResponse.metaData (.v1 m))
  | v2 =>
    cases res with
    | status res =>
      obtain rfl : Protocol.status = name := hkind
      exact absurd rfl hstatus
    | blocksByRange b =>
      obtain rfl : Protocol.blocksByRange = name := hkind
      cases hcontext
    | blocksByRoot b =>
      obtain rfl : Protocol.blocksByRoot = name := hkind
      cases hcontext
    | pong res =>
      obtain rfl : Protocol.ping = name := hkind
      exact absurd rfl hping
    | metaData m =>
      obtain rfl : Protocol.metaData = name := hkind
      cases m with
      | v1 m => exact congrArg (·, _) (hssz.read fun m => RPCResponse.metaData (.v2 m))
      | v2 m => exact congrArg (·, _) (hssz.read fun m => RPCResponse.metaData (.v2 m))

/-- The context bytes of a block of a scheduled fork are read back. -/
theorem contextBytes_block (hlawful : forkContext.Lawful) {c : SSZSnappyInboundCodec}
    (hforkContext : c.forkContext = forkContext) (hcontext : c.protocol.hasContextBytes)
    {b : SignedBeaconBlock S}
    (hfork : b.fork = .base ∨ (forkContext.toContextBytes b.fork).isSome)
    (hres : res = .blocksByRange b ∨ res = .blocksByRoot b) :
    ∃ context, c.contextBytes (.success res) = some context ∧
      forkContext.fromContextBytes context = some b.fork := by
  subst hforkContext
  obtain ⟨fork, block⟩ := b
  have hbytes : c.contextBytes (.success res) =
      match fork with
      | .base => some c.forkContext.genesisContextBytes
      | fork => c.forkContext.toContextBytes fork := by
    unfold SSZSnappyInboundCodec.contextBytes
    rw [if_pos hcontext]
    rcases hres with rfl | rfl <;> cases fork <;> rfl
  rw [hbytes]
  cases fork with
  | base => exact ⟨_, rfl, hlawful.genesis⟩
  | _ =>
    rcases hfork with hbase | hsome
    · cases hbase
    · obtain ⟨context, hsome⟩ := Option.isSome_iff_exists.1 hsome
      exact ⟨context, hsome, hlawful.read _ _ hsome⟩

theorem hasContextBytes_cases {p : ProtocolId} (h : p.hasContextBytes) :
    p = ⟨.blocksByRange, .v2⟩ ∨ p = ⟨.blocksByRoot, .v2⟩ := by
  obtain ⟨name, version⟩ := p
  revert h
  cases name <;> cases version <;> decide

/-- With context bytes a response is a block, whose data is decoded by the fork they name. -/
theorem handleResponse_block (hcontext : p.hasContextBytes)
    (hres : res.Sendable w (.new p size forkContext)) :
    ∃ b, (res = .blocksByRange b ∨ res = .blocksByRoot b) ∧
      (b.fork = .base ∨ (forkContext.toContextBytes b.fork).isSome) ∧
      0 < ((SSZSnappyInboundCodec.new p size forkContext).successBytes w res).length ∧
      ({ new p size forkContext with forkName := some b.fork }).handleResponse w
          ((SSZSnappyInboundCodec.new p size forkContext).successBytes w res) =
        (.ok (some (res.toVersion p.version)), new p size forkContext) := by
  obtain ⟨hkind, -, hfork, hssz, -, hmin, -⟩ := hres
  have hpos : ∀ fork, 0 < (w.rpcBlockLimitsByFork fork).min := by
    intro fork
    cases fork <;> exact w.blockSizes.baseMin_pos
  rcases hasContextBytes_cases hcontext with rfl | rfl
  · cases res with
    | blocksByRange b =>
      exact ⟨b, .inl rfl, hfork, (hpos _).trans_le hmin,
        congrArg (·, _) (hssz.read fun block => RPCResponse.blocksByRange ⟨b.fork, block⟩)⟩
    | _ => cases hkind
  · cases res with
    | blocksByRoot b =>
      exact ⟨b, .inr rfl, hfork, (hpos _).trans_le hmin,
        congrArg (·, _) (hssz.read fun block => RPCResponse.blocksByRoot ⟨b.fork, block⟩)⟩
    | _ => cases hkind

/-- **A response is read in stages**, its context bytes and its chunk. -/
theorem expects_response (hlawful : forkContext.Lawful)
    (hres : res.Sendable w (.new p size forkContext))
    (hsize : ((SSZSnappyInboundCodec.new p size forkContext).successBytes w res).length ≤ size) :
    Expects (decode w) (res.toVersion p.version) (new p size forkContext) 2
      (new p size forkContext)
      (((SSZSnappyInboundCodec.new p size forkContext).contextBytes (.success res)).elim []
          Vector.toList ++
        writeChunk w ((SSZSnappyInboundCodec.new p size forkContext).successBytes w res) []) := by
  have hbounds := outOfBounds_eq_none (c := new p size forkContext) hres.limits hsize
  by_cases hcontext : p.hasContextBytes
  · obtain ⟨b, hb, hfork, hpos, hhandle⟩ := handleResponse_block hcontext hres
    obtain ⟨context, hbytes, hread⟩ :=
      contextBytes_block hlawful (c := .new p size forkContext) rfl hcontext hfork hb
    rw [hbytes]
    refine expects_context hcontext rfl hread
      (hres.carries.two_le_writeChunk (List.length_pos_iff.1 hpos)) ?_
    exact expects_message (by simp) rfl hres.carries hbounds hhandle
  · have hcontext' : p.hasContextBytes = false := Bool.eq_false_iff.2 hcontext
    have hbytes : (SSZSnappyInboundCodec.new p size forkContext).contextBytes
        (.success res) = none := if_neg hcontext
    rw [hbytes]
    exact expects_message (fun h => hcontext h.1) rfl hres.carries hbounds
      (handleResponse_new hcontext' hres)

end

end SSZSnappyOutboundCodec

/-! ## Response codes -/

namespace BaseOutboundCodec

theorem decode_eq_guarded (w : Wire S) : decode w = guarded 2 (decodeCoded w) := by
  funext c src
  unfold decode guarded
  congr 1
  exact propext Nat.lt_succ_iff.symm

variable {item : RPCCodedResponse S} {inner done : SSZSnappyOutboundCodec} {code : UInt8}
  {p : Bytes}

/-- What `decodeBody` makes of the result of the inner codec. -/
def coded {α : Type} (code : UInt8) (f : α → RPCCodedResponse S) :
    Except RPCError (Option α) × SSZSnappyOutboundCodec × Bytes →
      Except RPCError (Option (RPCCodedResponse S)) × BaseOutboundCodec × Bytes
  | (.ok (some a), inner, src) => (.ok (some (f a)), ⟨inner, none⟩, src)
  | (.ok none, inner, src) => (.ok none, ⟨inner, some code⟩, src)
  | (.error e, inner, src) => (.error e, ⟨inner, some code⟩, src)

/-- Behind its code a response is decoded by the codec for it. -/
theorem decodeBody_eq (w : Wire S) (c : BaseOutboundCodec) (code : UInt8) (src : Bytes) :
    decodeBody w c code src =
      if RPCCodedResponse.isResponse code then
        coded code .success (SSZSnappyOutboundCodec.decode w c.inner src)
      else coded code (.fromError code) (SSZSnappyOutboundCodec.decodeError w c.inner src) := by
  cases hcode : RPCCodedResponse.isResponse code with
  | true =>
    simp only [decodeBody, hcode, if_true]
    rcases SSZSnappyOutboundCodec.decode w c.inner src with ⟨r | (_ | res), inner, src⟩ <;> rfl
  | false =>
    simp only [decodeBody, hcode, Bool.false_eq_true, if_false]
    rcases SSZSnappyOutboundCodec.decodeError w c.inner src with ⟨r | (_ | err), inner, src⟩ <;>
      rfl

theorem decodeCoded_success (c : SSZSnappyOutboundCodec) (src : Bytes) :
    decodeCoded w ⟨c, some 0⟩ src = coded 0 .success (SSZSnappyOutboundCodec.decode w c src) :=
  decodeBody_eq w ⟨c, some 0⟩ 0 src

theorem decodeCoded_error (c : SSZSnappyOutboundCodec) (errorCode : RPCResponseErrorCode)
    (src : Bytes) :
    decodeCoded w ⟨c, some errorCode.asU8⟩ src = coded errorCode.asU8
      (.fromError errorCode.asU8) (SSZSnappyOutboundCodec.decodeError w c src) := by
  have hbody := decodeBody_eq w ⟨c, some errorCode.asU8⟩ errorCode.asU8 src
  rwa [RPCCodedResponse.isResponse_asU8, if_neg Bool.false_ne_true] at hbody

/-- A success response is read behind its code. -/
theorem expects_success {res : RPCResponse S}
    (h : Expects (SSZSnappyOutboundCodec.decode w) res done 2 inner p) :
    Expects (decodeCoded w) (.success res) (.new done) 2 ⟨inner, some 0⟩ p :=
  h.map (fun c => ⟨c, some 0⟩) (coded 0 .success) decodeCoded_success (fun _ _ => rfl)
    fun _ => rfl

/-- An error response is read behind its code. -/
theorem expects_error {errorCode : RPCResponseErrorCode} {err : ErrorType}
    (h : Expects (SSZSnappyOutboundCodec.decodeError w) err done 2 inner p) :
    Expects (decodeCoded w) (.error errorCode err : RPCCodedResponse S) (.new done) 2
      ⟨inner, some errorCode.asU8⟩ p := by
  refine h.map (fun c => ⟨c, some errorCode.asU8⟩)
    (coded errorCode.asU8 (.fromError errorCode.asU8))
    (fun c src => decodeCoded_error c errorCode src) (fun _ _ => rfl) fun _ => ?_
  rw [coded, RPCCodedResponse.fromError_asU8]
  rfl

/-- What is read behind a code is read with it. One byte behind the code is all there is of
the response, as the buffer of one byte is not looked at. -/
theorem reads_of_expects (h : Expects (decodeCoded w) item (.new inner) 2 ⟨inner, some code⟩ p)
    (hp : p ≠ []) : Reads (decode w) (.new inner) item (code :: p) := by
  rw [decode_eq_guarded]
  have hcode : ∀ src, decodeCoded w (.new inner) ([code] ++ src) =
      decodeCoded w ⟨inner, some code⟩ src := fun src => rfl
  have hpos := List.length_pos_iff.2 hp
  by_cases hlong : 2 ≤ p.length
  · have hcoded : Expects (decodeCoded w) item (.new inner) 2 (.new inner) ([code] ++ p) := by
      refine .header (fun pre post hpre hpost => ?_) hcode (.inr hlong) h
      obtain ⟨rfl, -⟩ : pre = [] ∧ post = [code] := by
        rcases List.append_eq_singleton_iff.1 hpre.symm with hcut | ⟨-, hnil⟩
        · exact hcut
        · exact absurd hnil hpost
      rfl
    exact hcoded.reads (List.cons_ne_nil _ _) (by simp; omega)
  · refine .of_length_eq (List.cons_ne_nil _ _) (by simp; omega) fun rest => ?_
    exact (hcode (p ++ rest)).trans (h.full rest)

end BaseOutboundCodec

/-! ## The round trip -/

section

variable {p : ProtocolId} {size : ℕ} {forkContext : ForkContext}

/-- A response is read from what the encoder writes for it. -/
theorem reads_response (hlawful : forkContext.Lawful) {item : RPCCodedResponse S}
    {dst bytes : Bytes} (hitem : item.Sendable w (.new p size forkContext))
    (hencode : (BaseInboundCodec.mk (.new p size forkContext)).encode w item dst =
      some (.ok (), bytes)) :
    Reads (BaseOutboundCodec.decode w) (.new (.new p size forkContext))
      (item.toVersion p.version) bytes := by
  cases item with
  | success res =>
    obtain ⟨hsize, rfl⟩ := BaseInboundCodec.encode_success hencode
    refine BaseOutboundCodec.reads_of_expects (BaseOutboundCodec.expects_success
      (SSZSnappyOutboundCodec.expects_response hlawful hitem hsize)) ?_
    simp [hitem.carries.writeChunk_ne_nil]
  | error code err =>
    obtain ⟨hsize, rfl⟩ := BaseInboundCodec.encode_error hencode
    exact BaseOutboundCodec.reads_of_expects (BaseOutboundCodec.expects_error
      (SSZSnappyOutboundCodec.expects_error rfl hitem hsize)) hitem.carries.writeChunk_ne_nil
  | streamTermination t => cases hitem

/-- The second version of status and ping has no context bytes, without which its success
responses are refused. -/
theorem decode_second_version (hp : p = ⟨.status, .v2⟩ ∨ p = ⟨.ping, .v2⟩) {data : Bytes}
    (hdata : w.Carries data)
    (hbounds : (SSZSnappyOutboundCodec.new p size forkContext).outOfBounds w data.length = none) :
    BaseOutboundCodec.decode w (.new (.new p size forkContext)) (0 :: writeChunk w data []) =
      (.error (.errorResponse .invalidRequest
        s!"No context bytes provided for {p.messageName.display} response"),
        ⟨.new p size forkContext, some 0⟩, []) := by
  have hread := (readChunk_expects hdata hbounds (le_refl 2)).full []
  rw [List.append_nil] at hread
  have hlen : ¬ (0 :: writeChunk w data []).length ≤ 1 := by
    have hpos := List.length_pos_iff.2 hdata.writeChunk_ne_nil
    rw [List.length_cons]
    omega
  have hknown : ¬ (p.hasContextBytes ∧ (none : Option ForkName) = none) := by
    rcases hp with rfl | rfl <;> simp [ProtocolId.hasContextBytes]
  have hmessage : SSZSnappyOutboundCodec.decode w (.new p size forkContext)
      (writeChunk w data []) = (.error (.errorResponse .invalidRequest
        s!"No context bytes provided for {p.messageName.display} response"),
        .new p size forkContext, []) := by
    rw [SSZSnappyOutboundCodec.decode_of_known hknown]
    have hnew : (SSZSnappyOutboundCodec.new p size forkContext).len = none := rfl
    unfold SSZSnappyOutboundCodec.decodeMessage
    rw [hnew, hread]
    rcases hp with rfl | rfl <;> rfl
  have hcoded := BaseOutboundCodec.decodeCoded_success (w := w) (.new p size forkContext)
    (writeChunk w data [])
  rw [hmessage] at hcoded
  unfold BaseOutboundCodec.decode
  rw [if_neg hlen]
  exact hcoded

/-- From the bytes of the responses sent, cut into any fragments, the decoder yields exactly
these responses, in order, without an error, and is left with an empty buffer and no code,
length or fork name. -/
def ResponsesArrive (w : Wire S) (p : ProtocolId) (size : ℕ) (forkContext : ForkContext)
    (sent : List (RPCCodedResponse S × Bytes)) : Prop :=
  ∀ frags : List Bytes, frags.flatten = (sent.map Prod.snd).flatten → ∀ received c buf,
    Feeds (BaseOutboundCodec.decode w) (.new (.new p size forkContext)) [] frags received c buf ↔
      received = sent.map (fun item => item.1.toVersion p.version) ∧
        c = .new (.new p size forkContext) ∧ buf = []

/-- **Response streams round-trip**: the responses that can be sent under a protocol and are
encoded without an error arrive. -/
theorem responses_round_trip (hlawful : forkContext.Lawful)
    {sent : List (RPCCodedResponse S × Bytes)}
    (hsent : ∀ item ∈ sent, item.1.Sendable w (.new p size forkContext))
    (hencode : ∀ item ∈ sent, ∃ dst,
      (BaseInboundCodec.mk (.new p size forkContext)).encode w item.1 dst =
        some (.ok (), item.2)) : ResponsesArrive w p size forkContext sent := by
  intro frags hfrags received c buf
  have hreads : ∀ c ∈ sent.map fun item => (item.1.toVersion p.version, item.2),
      Reads (BaseOutboundCodec.decode w) (.new (.new p size forkContext)) c.1 c.2 := by
    intro c hc
    obtain ⟨item, hmem, rfl⟩ := List.mem_map.1 hc
    obtain ⟨dst, hdst⟩ := hencode item hmem
    exact reads_response hlawful (hsent item hmem) hdst
  have hbytes : frags.flatten =
      bytesOf (sent.map fun item => (item.1.toVersion p.version, item.2)) := by
    rw [hfrags, bytesOf, List.map_map]
    rfl
  have hfeeds := Feeds.of_reads rfl hreads hbytes
  rw [List.map_map] at hfeeds
  constructor
  · intro hreceived
    exact hreceived.unique hfeeds
  · rintro ⟨rfl, rfl, rfl⟩
    exact hfeeds

/-- Hence no encoding of such a response arrives. -/
theorem not_arrive_second_version (hp : p = ⟨.status, .v2⟩ ∨ p = ⟨.ping, .v2⟩) {data : Bytes}
    (hdata : w.Carries data)
    (hbounds : (SSZSnappyOutboundCodec.new p size forkContext).outOfBounds w data.length = none)
    (item : RPCCodedResponse S) :
    ¬ ResponsesArrive w p size forkContext [(item, 0 :: writeChunk w data [])] := by
  intro harrive
  have hcall := decode_second_version hp hdata hbounds
  rw [← List.nil_append (0 :: writeChunk w data [])] at hcall
  exact Feeds.not_error hcall
    ((harrive [0 :: writeChunk w data []] rfl _ _ _).2 ⟨rfl, rfl, rfl⟩)

end

section Example

theorem forkContext_lawful : PlainWire.forkContext.Lawful := by
  refine ⟨fun fork bytes h => ?_, rfl⟩
  cases fork <;> cases h
  rfl

/-- The codec that answers pings. -/
private def pings (version : Version) : SSZSnappyInboundCodec :=
  .new ⟨.ping, version⟩ 1048576 PlainWire.forkContext

private def pong : RPCResponse PlainWire.spec := .pong ⟨5⟩

private theorem pong_carries : PlainWire.wire.Carries (PlainWire.u64.asSszBytes 5) :=
  PlainWire.carries (by decide)

theorem responses_round_trip_ping :
    ResponsesArrive PlainWire.wire ⟨.ping, .v1⟩ 1048576 PlainWire.forkContext
      [(.success pong, 0 :: writeChunk PlainWire.wire (PlainWire.u64.asSszBytes 5) []),
        (.error .serverError ⟨[110, 111], by decide⟩,
          2 :: writeChunk PlainWire.wire [110, 111] [])] := by
  refine responses_round_trip forkContext_lawful ?_ ?_
  · rintro item hitem
    rcases List.mem_cons.1 hitem with rfl | hitem
    · exact ⟨rfl, by decide, trivial, PlainWire.u64_inverts 5, pong_carries, by decide⟩
    · obtain rfl := List.mem_singleton.1 hitem
      refine ⟨PlainWire.errorType_inverts _, PlainWire.carries (by decide), by decide, ?_⟩
      rw [PlainWire.errorTypeMax_wire]
      decide
  · rintro item hitem
    rcases List.mem_cons.1 hitem with rfl | hitem
    · exact ⟨[], rfl⟩
    · obtain rfl := List.mem_singleton.1 hitem
      exact ⟨[], rfl⟩

/-- A pong that is encoded under the second version of ping does not arrive. -/
theorem responses_round_trip_fails :
    pong.protocol = Protocol.ping ∧ pong.ForkScheduled PlainWire.forkContext .v2 ∧
      pong.SszInverts PlainWire.wire .v2 ∧ PlainWire.forkContext.Lawful ∧
      PlainWire.wire.Carries ((pings .v2).successBytes PlainWire.wire pong) ∧
      (PlainWire.wire.rpcResponseLimits ⟨.ping, .v2⟩ PlainWire.forkContext) = .fixed 8 ∧
      ((pings .v2).successBytes PlainWire.wire pong).length = 8 ∧
      (BaseInboundCodec.mk (pings .v2)).encode PlainWire.wire (.success pong) [] =
        some (.ok (), 0 :: writeChunk PlainWire.wire (PlainWire.u64.asSszBytes 5) []) ∧
      ¬ ResponsesArrive PlainWire.wire ⟨.ping, .v2⟩ 1048576 PlainWire.forkContext
        [(.success pong, 0 :: writeChunk PlainWire.wire (PlainWire.u64.asSszBytes 5) [])] :=
  ⟨rfl, trivial, PlainWire.u64_inverts 5, forkContext_lawful, pong_carries, rfl, rfl, rfl,
    not_arrive_second_version (.inr rfl) pong_carries rfl (.success pong)⟩

end Example

end Consentry.Rpc
