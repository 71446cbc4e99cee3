import Consentry.Lib.StreamDecoder
import Consentry.Rpc.Methods

/-!
# The wire format (`rpc/protocol.rs`, `rpc/codec/ssz_snappy.rs`)

A message is its ssz encoding in snappy frames, behind the varint of its length: a chunk.
The ssz, varint and snappy libraries are parameters (`Wire`), and so is the fork context.
-/

namespace Consentry.Rpc

open Lib

/-! ## Libraries -/

/-- The `Encode` and `Decode` instances of a type. -/
structure SszType (α : Type) where
  asSszBytes : α → Bytes
  fromSszBytes : Bytes → Except DecodeError α
  sszFixedLen : ℕ

/-- `from_ssz_bytes(..)?`, put in a message. -/
def SszType.read {α β : Type} (t : SszType α) (f : α → β) (buf : Bytes) :
    Except RPCError (Option β) :=
  match t.fromSszBytes buf with
  | .ok a => .ok (some (f a))
  | .error e => .error (.sszDecodeError e)

structure Ssz (S : EthSpec) where
  u64 : SszType UInt64
  statusMessage : SszType StatusMessage
  ping : SszType Ping
  blocksByRange : SszType OldBlocksByRangeRequest
  blockRoots : SszType (VariableList Hash256 maxRequestBlocks)
  errorType : SszType ErrorType
  metaDataV1 : SszType (MetaDataV1 S)
  metaDataV2 : SszType (MetaDataV2 S)
  signedBeaconBlock (fork : ForkName) : SszType (S.Block fork)

/-- `Encode` and `Decode` for `GoodbyeReason`, which go through `u64`. -/
def Ssz.goodbyeReason {S : EthSpec} (ssz : Ssz S) : SszType GoodbyeReason where
  asSszBytes reason := ssz.u64.asSszBytes reason.toU64
  fromSszBytes buf := (ssz.u64.fromSszBytes buf).map .ofU64
  sszFixedLen := ssz.u64.sszFixedLen

/-- The lengths of encoded signed blocks, from the empty and the full block of each fork. An
empty block has at least its signature. -/
structure BlockSizes where
  baseMin : ℕ
  baseMax : ℕ
  altairMax : ℕ
  mergeMax : ℕ
  capellaMax : ℕ
  baseMin_pos : 0 < baseMin

/-- `unsigned_varint::codec::Uvi<usize>`. To decode yields the number and what follows it,
or none when more bytes are awaited. -/
structure Uvi where
  encode : ℕ → Bytes
  decode : Bytes → Except IoError (Option (ℕ × Bytes))

/-- `FrameEncoder` and `FrameDecoder`. `readExact input n` reads `n` bytes of data, and
yields them, or an error, with the position in the input. -/
structure Snappy where
  compress : Bytes → Bytes
  readExact : Bytes → ℕ → Except IoError Bytes × ℕ

/-- `snap::raw::max_compress_len`: zero beyond the sizes that can be compressed. -/
def maxCompressLen (inputLen : ℕ) : ℕ :=
  if 32 + inputLen + inputLen / 6 < 2 ^ 32 then 32 + inputLen + inputLen / 6 else 0

structure Wire (S : EthSpec) where
  ssz : Ssz S
  blockSizes : BlockSizes
  uvi : Uvi
  snappy : Snappy

abbrev ContextBytes := Vector UInt8 4

/-- `types::ForkContext`. -/
structure ForkContext where
  currentFork : ForkName
  toContextBytes : ForkName → Option ContextBytes
  fromContextBytes : ContextBytes → Option ForkName
  genesisContextBytes : ContextBytes

/-! ## Length bounds -/

/-- `max_rpc_size`: the maximum bytes that can be sent. -/
def maxRpcSize (forkContext : ForkContext) : ℕ :=
  match forkContext.currentFork with
  | .altair | .base => 1048576
  | .merge => 10 * 1048576
  | .capella => 10 * 1048576

structure RpcLimits where
  min : ℕ
  max : ℕ
  deriving DecidableEq, Repr

namespace RpcLimits

def isOutOfBounds (limits : RpcLimits) (length maxRpcSize : ℕ) : Bool :=
  decide (Min.min limits.max maxRpcSize < length) || decide (length < limits.min)

def fixed (length : ℕ) : RpcLimits := ⟨length, length⟩

end RpcLimits

namespace Wire

variable {S : EthSpec}

def blocksByRootRequestMin (w : Wire S) : ℕ := (w.ssz.blockRoots.asSszBytes (.ofList [])).length

def blocksByRootRequestMax (w : Wire S) : ℕ :=
  (w.ssz.blockRoots.asSszBytes
    (.ofList (.replicate maxRequestBlocks (.replicate 32 0)))).length

def errorTypeMin (w : Wire S) : ℕ := (w.ssz.errorType.asSszBytes (.ofList [])).length

def errorTypeMax (w : Wire S) : ℕ :=
  (w.ssz.errorType.asSszBytes (.ofList (.replicate maxErrorLen 0))).length

def rpcBlockLimitsByFork (w : Wire S) : ForkName → RpcLimits
  | .base => ⟨w.blockSizes.baseMin, w.blockSizes.baseMax⟩
  | .altair => ⟨w.blockSizes.baseMin, w.blockSizes.altairMax⟩
  | .merge => ⟨w.blockSizes.baseMin, w.blockSizes.mergeMax⟩
  | .capella => ⟨w.blockSizes.baseMin, w.blockSizes.capellaMax⟩

def rpcRequestLimits (w : Wire S) (p : ProtocolId) : RpcLimits :=
  match p.messageName with
  | .status => .fixed w.ssz.statusMessage.sszFixedLen
  | .goodbye => .fixed w.ssz.goodbyeReason.sszFixedLen
  | .blocksByRange => .fixed w.ssz.blocksByRange.sszFixedLen
  | .blocksByRoot => ⟨w.blocksByRootRequestMin, w.blocksByRootRequestMax⟩
  | .ping => .fixed w.ssz.ping.sszFixedLen
  | .metaData => .fixed 0

def rpcResponseLimits (w : Wire S) (p : ProtocolId) (forkContext : ForkContext) : RpcLimits :=
  match p.messageName with
  | .status => .fixed w.ssz.statusMessage.sszFixedLen
  | .goodbye => .fixed 0
  | .blocksByRange => w.rpcBlockLimitsByFork forkContext.currentFork
  | .blocksByRoot => w.rpcBlockLimitsByFork forkContext.currentFork
  | .ping => .fixed w.ssz.ping.sszFixedLen
  | .metaData => ⟨w.ssz.metaDataV1.sszFixedLen, w.ssz.metaDataV2.sszFixedLen⟩

end Wire

/-! ## Chunks -/

section

variable {S : EthSpec} {α : Type}

/-- An input that ended too early is awaited, unless as much has been read of it as a message
of this length can take. -/
def handleError (err : IoError) (numBytes maxCompressedLen : ℕ) : Except RPCError (Option α) :=
  match err.kind with
  | .unexpectedEof =>
    if maxCompressedLen ≤ numBytes then
      .error (.invalidData (s!"Received malicious snappy message, num_bytes {numBytes}, " ++
        s!"max_compressed_len {maxCompressedLen}"))
    else .ok none
  | .other => .error (.ofIo err)

/-- Decodes the length in front of a message, unless it is known. -/
def handleLength (uvi : Uvi) (len : Option ℕ) (bytes : Bytes) :
    Except RPCError (Option ℕ) × Option ℕ × Bytes :=
  match len with
  | some length => (.ok (some length), some length, bytes)
  | none =>
    match uvi.decode bytes with
    | .error e => (.error (.ofIo e), none, bytes)
    | .ok none => (.ok none, none, bytes)
    | .ok (some (length, rest)) => (.ok (some length), some length, rest)

/-- Reads data of a length from its snappy frames. -/
def readFrames (snappy : Snappy) (length : ℕ) (src : Bytes) :
    Except RPCError (Option Bytes) × Option ℕ × Bytes :=
  match snappy.readExact (src.take (maxCompressLen length)) length with
  | (.ok buf, n) => (.ok (some buf), none, src.drop n)
  | (.error e, n) => (handleError e n (maxCompressLen length), some length, src)

/-- What `decode` does for requests and for responses, and `decode_error`, up to the ssz
encoding: the length, which is checked, and the frames. The state is the length when it is
known. -/
def readChunk (w : Wire S) (outOfBounds : ℕ → Option RPCError) :
    Decoder (Option ℕ) UInt8 RPCError Bytes := fun len src =>
  match handleLength w.uvi len src with
  | (.error e, len, src) => (.error e, len, src)
  | (.ok none, len, src) => (.ok none, len, src)
  | (.ok (some length), len, src) =>
    match outOfBounds length with
    | some e => (.error e, len, src)
    | none => readFrames w.snappy length src

/-- Writes the length of the data and the data in snappy frames. -/
def writeChunk (w : Wire S) (bytes dst : Bytes) : Bytes :=
  dst ++ w.uvi.encode bytes.length ++ w.snappy.compress bytes

end

end Consentry.Rpc
