import Consentry.Rpc.Wire

/-!
# The codecs (`rpc/codec/base.rs`, `rpc/codec/ssz_snappy.rs`)

A request is a chunk; a response has its code in front and, for blocks of the second version,
the context bytes of the fork.

A call takes the codec and the buffer and returns the result, the codec and the buffer, also
where it fails: the source keeps what was consumed before an error.
-/

namespace Consentry.Rpc

open Lib

/-! ## Requests -/

section

variable {S : EthSpec}

def handleV1Request (w : Wire S) (protocol : Protocol) (buf : Bytes) :
    Except RPCError (Option InboundRequest) :=
  match protocol with
  | .status => w.ssz.statusMessage.read .status buf
  | .goodbye => w.ssz.goodbyeReason.read .goodbye buf
  | .blocksByRange => w.ssz.blocksByRange.read .blocksByRange buf
  | .blocksByRoot => w.ssz.blockRoots.read (fun roots => .blocksByRoot ⟨roots⟩) buf
  | .ping => w.ssz.u64.read (fun data => .ping ⟨data⟩) buf
  | .metaData =>
    if buf.isEmpty then .ok (some .metaData)
    else .error (.internalError "Metadata requests shouldn't reach decoder")

def handleV2Request (w : Wire S) (protocol : Protocol) (buf : Bytes) :
    Except RPCError (Option InboundRequest) :=
  match protocol with
  | .blocksByRange => w.ssz.blocksByRange.read .blocksByRange buf
  | .blocksByRoot => w.ssz.blockRoots.read (fun roots => .blocksByRoot ⟨roots⟩) buf
  | .metaData =>
    if buf.isEmpty then .ok (some .metaData) else .error (.invalidData "Metadata request")
  | _ => .error (.errorResponse .invalidRequest
      s!"{protocol.display} does not support version 2")

end

/-- Decodes requests and encodes responses. -/
structure SSZSnappyInboundCodec where
  protocol : ProtocolId
  len : Option ℕ
  maxPacketSize : ℕ
  forkContext : ForkContext

/-- Encodes requests and decodes responses. -/
structure SSZSnappyOutboundCodec where
  len : Option ℕ
  protocol : ProtocolId
  maxPacketSize : ℕ
  forkName : Option ForkName
  forkContext : ForkContext

namespace SSZSnappyInboundCodec

variable {S : EthSpec}

def new (protocol : ProtocolId) (maxPacketSize : ℕ) (forkContext : ForkContext) :
    SSZSnappyInboundCodec :=
  ⟨protocol, none, maxPacketSize, forkContext⟩

def outOfBounds (c : SSZSnappyInboundCodec) (w : Wire S) (length : ℕ) : Option RPCError :=
  if (w.rpcRequestLimits c.protocol).isOutOfBounds length c.maxPacketSize then
    some (.invalidData s!"RPC request length is out of bounds, length {length}")
  else none

def handleRequest (c : SSZSnappyInboundCodec) (w : Wire S) (buf : Bytes) :
    Except RPCError (Option InboundRequest) :=
  match c.protocol.version with
  | .v1 => handleV1Request w c.protocol.messageName buf
  | .v2 => handleV2Request w c.protocol.messageName buf

/-- Decodes a request. -/
def decode (w : Wire S) : Decoder SSZSnappyInboundCodec UInt8 RPCError InboundRequest :=
  fun c src =>
    if c.protocol.messageName = .metaData then (.ok (some .metaData), c, src)
    else
      match readChunk w (c.outOfBounds w) c.len src with
      | (.error e, len, src) => (.error e, { c with len := len }, src)
      | (.ok none, len, src) => (.ok none, { c with len := len }, src)
      | (.ok (some buf), len, src) => (c.handleRequest w buf, { c with len := len }, src)

end SSZSnappyInboundCodec

namespace SSZSnappyOutboundCodec

variable {S : EthSpec}

def new (protocol : ProtocolId) (maxPacketSize : ℕ) (forkContext : ForkContext) :
    SSZSnappyOutboundCodec :=
  ⟨none, protocol, maxPacketSize, none, forkContext⟩

/-- The ssz encoding of a request, none for the metadata request, which is empty. -/
def sszBytes (w : Wire S) : OutboundRequest → Option Bytes
  | .status req => some (w.ssz.statusMessage.asSszBytes req)
  | .goodbye req => some (w.ssz.goodbyeReason.asSszBytes req)
  | .blocksByRange req => some (w.ssz.blocksByRange.asSszBytes req)
  | .blocksByRoot req => some (w.ssz.blockRoots.asSszBytes req.blockRoots)
  | .ping req => some (w.ssz.ping.asSszBytes req)
  | .metaData => none

/-- Encodes a request. -/
def encode (c : SSZSnappyOutboundCodec) (w : Wire S) (item : OutboundRequest) (dst : Bytes) :
    Except RPCError Unit × Bytes :=
  match sszBytes w item with
  | none => (.ok (), dst)
  | some bytes =>
    if c.maxPacketSize < bytes.length then
      (.error (.internalError "attempting to encode data > max_packet_size"), dst)
    else (.ok (), writeChunk w bytes dst)

end SSZSnappyOutboundCodec

/-! ## Responses -/

namespace MetaData

variable {S : EthSpec}

def seqNumber : MetaData S → UInt64
  | v1 m => m.seqNumber
  | v2 m => m.seqNumber

def attnets : MetaData S → S.Attnets
  | v1 m => m.attnets
  | v2 m => m.attnets

/-- The metadata as it is sent under a version. -/
def toVersion (m : MetaData S) : Version → MetaData S
  | .v1 => .v1 ⟨m.seqNumber, m.attnets⟩
  | .v2 =>
    match m with
    | .v2 m => .v2 m
    | .v1 m => .v2 ⟨m.seqNumber, m.attnets, S.defaultSyncnets⟩

def asSszBytes (w : Wire S) : MetaData S → Bytes
  | v1 m => w.ssz.metaDataV1.asSszBytes m
  | v2 m => w.ssz.metaDataV2.asSszBytes m

end MetaData

def SignedBeaconBlock.asSszBytes {S : EthSpec} (w : Wire S) (b : SignedBeaconBlock S) : Bytes :=
  (w.ssz.signedBeaconBlock b.fork).asSszBytes b.block

namespace SSZSnappyInboundCodec

variable {S : EthSpec}

def successBytes (c : SSZSnappyInboundCodec) (w : Wire S) : RPCResponse S → Bytes
  | .status res => w.ssz.statusMessage.asSszBytes res
  | .blocksByRange res => res.asSszBytes w
  | .blocksByRoot res => res.asSszBytes w
  | .pong res => w.ssz.u64.asSszBytes res.data
  | .metaData res => (res.toVersion c.protocol.version).asSszBytes w

/-- The context bytes of a response, if it needs them and the fork is scheduled. -/
def contextBytes (c : SSZSnappyInboundCodec) (resp : RPCCodedResponse S) :
    Option ContextBytes :=
  if c.protocol.hasContextBytes then
    match resp with
    | .success (.blocksByRange b) | .success (.blocksByRoot b) =>
      match b.fork with
      | .capella => c.forkContext.toContextBytes .capella
      | .merge => c.forkContext.toContextBytes .merge
      | .altair => c.forkContext.toContextBytes .altair
      | .base => some c.forkContext.genesisContextBytes
    | _ => none
  else none

/-- Encodes a response behind its code. None where the source is `unreachable!()`. -/
def encode (c : SSZSnappyInboundCodec) (w : Wire S) (item : RPCCodedResponse S) (dst : Bytes) :
    Option (Except RPCError Unit × Bytes) :=
  let write (bytes : Bytes) : Except RPCError Unit × Bytes :=
    if c.maxPacketSize < bytes.length then
      (.error (.internalError "attempting to encode data > max_packet_size"), dst)
    else
      (.ok (), writeChunk w bytes
        (dst ++ (c.contextBytes item).elim [] Vector.toList))
  match item with
  | .success resp => some (write (c.successBytes w resp))
  | .error _ err => some (write (w.ssz.errorType.asSszBytes err))
  | .streamTermination _ => none

end SSZSnappyInboundCodec

section

variable {S : EthSpec}

def handleV1Response (w : Wire S) (protocol : Protocol) (buf : Bytes) :
    Except RPCError (Option (RPCResponse S)) :=
  match protocol with
  | .status => w.ssz.statusMessage.read .status buf
  | .goodbye => .error (.invalidData "Goodbye RPC message has no valid response")
  | .blocksByRange =>
    (w.ssz.signedBeaconBlock .base).read (fun b => .blocksByRange ⟨.base, b⟩) buf
  | .blocksByRoot =>
    (w.ssz.signedBeaconBlock .base).read (fun b => .blocksByRoot ⟨.base, b⟩) buf
  | .ping => w.ssz.u64.read (fun data => .pong ⟨data⟩) buf
  | .metaData => w.ssz.metaDataV1.read (fun m => .metaData (.v1 m)) buf

/-- The response and the fork name that is left, which a block takes. -/
def handleV2Response (w : Wire S) (protocol : Protocol) (buf : Bytes)
    (forkName : Option ForkName) :
    Except RPCError (Option (RPCResponse S)) × Option ForkName :=
  match protocol with
  | .metaData => (w.ssz.metaDataV2.read (fun m => .metaData (.v2 m)) buf, forkName)
  | _ =>
    match forkName with
    | none => (.error (.errorResponse .invalidRequest
        s!"No context bytes provided for {protocol.display} response"), none)
    | some fork =>
      match protocol with
      | .blocksByRange =>
        ((w.ssz.signedBeaconBlock fork).read (fun b => .blocksByRange ⟨fork, b⟩) buf, none)
      | .blocksByRoot =>
        ((w.ssz.signedBeaconBlock fork).read (fun b => .blocksByRoot ⟨fork, b⟩) buf, none)
      | _ => (.error (.errorResponse .invalidRequest "Invalid v2 request"), none)

/-- `split_to(CONTEXT_BYTES_LEN)`, if the buffer holds as much. -/
def splitContextBytes : Bytes → Option (ContextBytes × Bytes)
  | a :: b :: c :: d :: src => some (#v[a, b, c, d], src)
  | _ => none

end

namespace SSZSnappyOutboundCodec

variable {S : EthSpec}

def outOfBounds (c : SSZSnappyOutboundCodec) (w : Wire S) (length : ℕ) : Option RPCError :=
  if (w.rpcResponseLimits c.protocol c.forkContext).isOutOfBounds length c.maxPacketSize then
    some (.invalidData s!"RPC response length is out of bounds, length {length}")
  else none

def errorOutOfBounds (c : SSZSnappyOutboundCodec) (w : Wire S) (length : ℕ) : Option RPCError :=
  if c.maxPacketSize < length ∨ w.errorTypeMax < length ∨ length < w.errorTypeMin then
    some (.invalidData s!"RPC Error length is out of bounds, length {length}")
  else none

/-- The response in the decoded data. -/
def handleResponse (c : SSZSnappyOutboundCodec) (w : Wire S) (buf : Bytes) :
    Except RPCError (Option (RPCResponse S)) × SSZSnappyOutboundCodec :=
  match c.protocol.version with
  | .v1 => (handleV1Response w c.protocol.messageName buf, c)
  | .v2 =>
    let (r, forkName) := handleV2Response w c.protocol.messageName buf c.forkName
    (r, { c with forkName := forkName })

/-- Decodes a response behind its context bytes. -/
def decodeMessage (w : Wire S) : Decoder SSZSnappyOutboundCodec UInt8 RPCError (RPCResponse S) :=
  fun c src =>
    match readChunk w (c.outOfBounds w) c.len src with
    | (.error e, len, src) => (.error e, { c with len := len }, src)
    | (.ok none, len, src) => (.ok none, { c with len := len }, src)
    | (.ok (some buf), len, src) =>
      let (r, c) := { c with len := len }.handleResponse w buf
      (r, c, src)

/-- Decodes a response behind its code: the context bytes, if they are needed and not yet
known, and the message. -/
def decode (w : Wire S) : Decoder SSZSnappyOutboundCodec UInt8 RPCError (RPCResponse S) :=
  fun c src =>
    if c.protocol.hasContextBytes ∧ c.forkName = none then
      match splitContextBytes src with
      | none => (.ok none, c, src)
      | some (context, src) =>
        match c.forkContext.fromContextBytes context with
        | none => (.error (.errorResponse .invalidRequest
            "Context bytes does not correspond to a valid fork"), c, src)
        | some fork => decodeMessage w { c with forkName := some fork } src
    else decodeMessage w c src

/-- Decodes an error response behind its code. -/
def decodeError (w : Wire S) : Decoder SSZSnappyOutboundCodec UInt8 RPCError ErrorType :=
  fun c src =>
    match readChunk w (c.errorOutOfBounds w) c.len src with
    | (.error e, len, src) => (.error e, { c with len := len }, src)
    | (.ok none, len, src) => (.ok none, { c with len := len }, src)
    | (.ok (some buf), len, src) => (w.ssz.errorType.read id buf, { c with len := len }, src)

end SSZSnappyOutboundCodec

/-! ## Response codes -/

structure BaseInboundCodec where
  inner : SSZSnappyInboundCodec

namespace BaseInboundCodec

variable {S : EthSpec}

/-- Encodes a response. None where the source panics. -/
def encode (c : BaseInboundCodec) (w : Wire S) (item : RPCCodedResponse S) (_dst : Bytes) :
    Option (Except RPCError Unit × Bytes) :=
  -- the buffer is cleared
  match item.asU8 with
  | some code => c.inner.encode w item [code]
  | none => none

def decode (w : Wire S) : Decoder BaseInboundCodec UInt8 RPCError InboundRequest :=
  fun c src =>
    let (r, inner, src) := SSZSnappyInboundCodec.decode w c.inner src
    (r, ⟨inner⟩, src)

end BaseInboundCodec

structure BaseOutboundCodec where
  inner : SSZSnappyOutboundCodec
  /-- The code of the response that is being decoded. -/
  currentResponseCode : Option UInt8

namespace BaseOutboundCodec

variable {S : EthSpec}

def new (codec : SSZSnappyOutboundCodec) : BaseOutboundCodec := ⟨codec, none⟩

def encode (c : BaseOutboundCodec) (w : Wire S) (item : OutboundRequest) (dst : Bytes) :
    Except RPCError Unit × Bytes :=
  c.inner.encode w item dst

/-- Decodes what follows a response code. -/
def decodeBody (w : Wire S) (c : BaseOutboundCodec) (code : UInt8) (src : Bytes) :
    Except RPCError (Option (RPCCodedResponse S)) × BaseOutboundCodec × Bytes :=
  let (r, inner, src) : Except RPCError (Option (RPCCodedResponse S)) ×
      SSZSnappyOutboundCodec × Bytes :=
    if RPCCodedResponse.isResponse code then
      let (r, inner, src) := SSZSnappyOutboundCodec.decode w c.inner src
      (r.map (Option.map .success), inner, src)
    else
      let (r, inner, src) := SSZSnappyOutboundCodec.decodeError w c.inner src
      (r.map (Option.map (.fromError code)), inner, src)
  match r with
  | .ok (some _) => (r, ⟨inner, none⟩, src)
  | _ => (r, ⟨inner, some code⟩, src)

/-- Decodes a response whose code, unless it is known, is the first byte of the buffer. -/
def decodeCoded (w : Wire S) :
    Decoder BaseOutboundCodec UInt8 RPCError (RPCCodedResponse S) := fun c src =>
  match c.currentResponseCode with
  | some code => decodeBody w c code src
  | none =>
    match src with
    | code :: src => decodeBody w c code src
    | [] => (.ok none, c, [])

/-- Decodes a response. A buffer of one byte may hold no more than the code. -/
def decode (w : Wire S) : Decoder BaseOutboundCodec UInt8 RPCError (RPCCodedResponse S) :=
  fun c src => if src.length ≤ 1 then (.ok none, c, src) else decodeCoded w c src

end BaseOutboundCodec

end Consentry.Rpc
