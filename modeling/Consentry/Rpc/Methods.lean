import Consentry.PeerManager.Basic

/-!
# Messages of the RPC protocols (`rpc/methods.rs`, `rpc/protocol.rs`, `rpc/outbound.rs`)

Requests, responses, the codes of responses and goodbyes, and the protocols under which
they are sent. The containers of the consensus specification come from another crate:
`EthSpec` names the types of blocks and of the two subnet bitfields.
-/

namespace Consentry

namespace GoodbyeReason

/-- `From<GoodbyeReason> for u64`. -/
def toU64 : GoodbyeReason → UInt64
  | clientShutdown => 1
  | irrelevantNetwork => 2
  | fault => 3
  | unableToVerifyNetwork => 128
  | tooManyPeers => 129
  | badScore => 250
  | banned => 251
  | bannedIP => 252
  | unknown => 0

/-- `From<u64> for GoodbyeReason`. -/
def ofU64 (id : UInt64) : GoodbyeReason :=
  if id = 1 then clientShutdown
  else if id = 2 then irrelevantNetwork
  else if id = 3 then fault
  else if id = 128 then unableToVerifyNetwork
  else if id = 129 then tooManyPeers
  else if id = 250 then badScore
  else if id = 251 then banned
  else if id = 252 then bannedIP
  else unknown

@[simp] theorem ofU64_toU64 (reason : GoodbyeReason) : ofU64 reason.toU64 = reason := by
  cases reason <;> rfl

end GoodbyeReason

namespace Rpc

abbrev Bytes := List UInt8

abbrev Hash256 := Vector UInt8 32

/-- `MAX_REQUEST_BLOCKS`, and the type-level `MaxRequestBlocks`. -/
def maxRequestBlocks : ℕ := 1024

/-- `MAX_ERROR_LEN`, and the type-level `MaxErrorLen`. -/
def maxErrorLen : ℕ := 256

/-- A list of at most `n` elements. -/
structure VariableList (α : Type) (n : ℕ) where
  toList : List α
  length_le : toList.length ≤ n
  deriving DecidableEq

namespace VariableList

variable {α : Type} {n : ℕ}

/-- `VariableList::from`, which truncates. -/
def ofList (l : List α) : VariableList α n := ⟨l.take n, List.length_take_le n l⟩

def length (l : VariableList α n) : ℕ := l.toList.length

end VariableList

inductive ForkName
  | base
  | altair
  | merge
  | capella
  deriving DecidableEq, Repr

/-- The types of a consensus specification: the signed blocks of each fork, and the subnet
bitfields of a node record. -/
structure EthSpec where
  Block : ForkName → Type
  Attnets : Type
  Syncnets : Type
  defaultSyncnets : Syncnets

/-! ## Protocols -/

inductive Protocol
  | status
  | goodbye
  | blocksByRange
  | blocksByRoot
  | ping
  | metaData
  deriving DecidableEq, Repr

/-- `Display for Protocol`. -/
def Protocol.display : Protocol → String
  | status => "status"
  | goodbye => "goodbye"
  | blocksByRange => "beacon_blocks_by_range"
  | blocksByRoot => "beacon_blocks_by_root"
  | ping => "ping"
  | metaData => "metadata"

inductive Version
  | v1
  | v2
  deriving DecidableEq, Repr

/-- A protocol id. The only encoding is `ssz_snappy`. -/
structure ProtocolId where
  messageName : Protocol
  version : Version
  deriving DecidableEq, Repr

/-- Whether context bytes are expected at the beginning of a response. -/
def ProtocolId.hasContextBytes (p : ProtocolId) : Bool :=
  if p.version = .v2 then
    match p.messageName with
    | .blocksByRange | .blocksByRoot => true
    | _ => false
  else false

/-! ## Requests -/

structure StatusMessage where
  forkDigest : Vector UInt8 4
  finalizedRoot : Hash256
  finalizedEpoch : UInt64
  headRoot : Hash256
  headSlot : UInt64
  deriving DecidableEq

structure Ping where
  data : UInt64
  deriving DecidableEq

structure OldBlocksByRangeRequest where
  startSlot : UInt64
  count : UInt64
  step : UInt64
  deriving DecidableEq

structure BlocksByRootRequest where
  blockRoots : VariableList Hash256 maxRequestBlocks
  deriving DecidableEq

/-- The response that a stream termination ends. -/
inductive ResponseTermination
  | blocksByRange
  | blocksByRoot
  deriving DecidableEq, Repr

inductive OutboundRequest
  | status (req : StatusMessage)
  | goodbye (reason : GoodbyeReason)
  | blocksByRange (req : OldBlocksByRangeRequest)
  | blocksByRoot (req : BlocksByRootRequest)
  | ping (req : Ping)
  | metaData
  deriving DecidableEq

namespace OutboundRequest

/-- In the order of preference. -/
def supportedProtocols : OutboundRequest → List ProtocolId
  | status _ => [⟨.status, .v1⟩]
  | goodbye _ => [⟨.goodbye, .v1⟩]
  | blocksByRange _ => [⟨.blocksByRange, .v2⟩, ⟨.blocksByRange, .v1⟩]
  | blocksByRoot _ => [⟨.blocksByRoot, .v2⟩, ⟨.blocksByRoot, .v1⟩]
  | ping _ => [⟨.ping, .v1⟩]
  | metaData => [⟨.metaData, .v2⟩, ⟨.metaData, .v1⟩]

/-- The number of responses expected for the request. -/
def expectedResponses : OutboundRequest → UInt64
  | status _ => 1
  | goodbye _ => 0
  | blocksByRange req => req.count
  | blocksByRoot req => .ofNat req.blockRoots.length
  | ping _ => 1
  | metaData => 1

def protocol : OutboundRequest → Protocol
  | status _ => .status
  | goodbye _ => .goodbye
  | blocksByRange _ => .blocksByRange
  | blocksByRoot _ => .blocksByRoot
  | ping _ => .ping
  | metaData => .metaData

/-- `none` where the source is `unreachable!()`. -/
def streamTermination : OutboundRequest → Option ResponseTermination
  | blocksByRange _ => some .blocksByRange
  | blocksByRoot _ => some .blocksByRoot
  | _ => none

end OutboundRequest

inductive InboundRequest
  | status (req : StatusMessage)
  | goodbye (reason : GoodbyeReason)
  | blocksByRange (req : OldBlocksByRangeRequest)
  | blocksByRoot (req : BlocksByRootRequest)
  | ping (req : Ping)
  | metaData
  deriving DecidableEq

namespace InboundRequest

/-- The number of responses expected for the request. -/
def expectedResponses : InboundRequest → UInt64
  | status _ => 1
  | goodbye _ => 0
  | blocksByRange req => req.count
  | blocksByRoot req => .ofNat req.blockRoots.length
  | ping _ => 1
  | metaData => 1

def protocol : InboundRequest → Protocol
  | status _ => .status
  | goodbye _ => .goodbye
  | blocksByRange _ => .blocksByRange
  | blocksByRoot _ => .blocksByRoot
  | ping _ => .ping
  | metaData => .metaData

end InboundRequest

/-- The request as the peer receives it. -/
def OutboundRequest.received : OutboundRequest → InboundRequest
  | status req => .status req
  | goodbye reason => .goodbye reason
  | blocksByRange req => .blocksByRange req
  | blocksByRoot req => .blocksByRoot req
  | ping req => .ping req
  | metaData => .metaData

/-! ## Responses -/

/-- The text of an error response, as bytes. -/
abbrev ErrorType := VariableList UInt8 maxErrorLen

/-- `From<&str> for ErrorType`. -/
def ErrorType.ofString (s : String) : ErrorType := .ofList s.toUTF8.toList

structure MetaDataV1 (S : EthSpec) where
  seqNumber : UInt64
  attnets : S.Attnets

structure MetaDataV2 (S : EthSpec) where
  seqNumber : UInt64
  attnets : S.Attnets
  syncnets : S.Syncnets

inductive MetaData (S : EthSpec)
  | v1 (metaData : MetaDataV1 S)
  | v2 (metaData : MetaDataV2 S)

/-- A signed block of some fork. -/
structure SignedBeaconBlock (S : EthSpec) where
  fork : ForkName
  block : S.Block fork

inductive RPCResponse (S : EthSpec)
  | status (res : StatusMessage)
  | blocksByRange (block : SignedBeaconBlock S)
  | blocksByRoot (block : SignedBeaconBlock S)
  | pong (res : Ping)
  | metaData (res : MetaData S)

def RPCResponse.protocol {S : EthSpec} : RPCResponse S → Protocol
  | status _ => .status
  | blocksByRange _ => .blocksByRange
  | blocksByRoot _ => .blocksByRoot
  | pong _ => .ping
  | metaData _ => .metaData

inductive RPCResponseErrorCode
  | rateLimited
  | invalidRequest
  | serverError
  | resourceUnavailable
  | unknown
  deriving DecidableEq, Repr

def RPCResponseErrorCode.asU8 : RPCResponseErrorCode → UInt8
  | invalidRequest => 1
  | serverError => 2
  | resourceUnavailable => 3
  | unknown => 255
  | rateLimited => 139

inductive RPCCodedResponse (S : EthSpec)
  | success (res : RPCResponse S)
  | error (code : RPCResponseErrorCode) (err : ErrorType)
  | streamTermination (t : ResponseTermination)

namespace RPCCodedResponse

variable {S : EthSpec}

/-- The response code, none for a stream termination, which is never encoded. -/
def asU8 : RPCCodedResponse S → Option UInt8
  | success _ => some 0
  | error code _ => some code.asU8
  | streamTermination _ => none

/-- Whether a code is that of a response or of an error. -/
def isResponse (responseCode : UInt8) : Bool := responseCode = 0

def fromError (responseCode : UInt8) (err : ErrorType) : RPCCodedResponse S :=
  .error
    (if responseCode = 1 then .invalidRequest
    else if responseCode = 2 then .serverError
    else if responseCode = 3 then .resourceUnavailable
    else if responseCode = 139 then .rateLimited
    else .unknown) err

/-- Whether the response always ends the stream. -/
def closeAfter : RPCCodedResponse S → Bool
  | success _ => false
  | _ => true

theorem fromError_asU8 (code : RPCResponseErrorCode) (err : ErrorType) :
    (fromError code.asU8 err : RPCCodedResponse S) = .error code err := by
  cases code <;> rfl

theorem isResponse_asU8 (code : RPCResponseErrorCode) : isResponse code.asU8 = false := by
  cases code <;> rfl

end RPCCodedResponse

/-! ## Errors -/

/-- `std::io::ErrorKind`: whether the input ended too early. -/
inductive ErrorKind
  | unexpectedEof
  | other
  deriving DecidableEq, Repr

/-- `std::io::Error`. -/
structure IoError where
  kind : ErrorKind
  message : String
  deriving DecidableEq, Repr

/-- An `ssz::DecodeError` is represented by its description. -/
abbrev DecodeError := String

inductive RPCError
  | sszDecodeError (err : DecodeError)
  | ioError (err : String)
  | errorResponse (code : RPCResponseErrorCode) (reason : String)
  | streamTimeout
  | unsupportedProtocol
  | incompleteStream
  | invalidData (reason : String)
  | internalError (reason : String)
  | negotiationTimeout
  | handlerRejected
  | disconnected
  deriving DecidableEq, Repr

/-- `From<io::Error> for RPCError`. -/
def RPCError.ofIo (err : IoError) : RPCError := .ioError err.message

end Rpc

end Consentry
