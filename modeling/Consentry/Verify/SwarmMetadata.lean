import Consentry.Verify.MetadataSeq
import Consentry.Verify.SwarmPeers

/-!
# The metadata that a node announces

A node tells its peers the sequence number of its metadata in its pings and in its answers to
theirs, and the metadata itself when it is asked for. Only the application changes it.

* **`Node.metadata_announced`**: through any run, what the node announces is its metadata after
  more and more of the updates of the application, none of which it goes back on; the number is
  that of the start and one more for each update.
-/

namespace Consentry

open Lib
open Rpc

variable {F A : Type} {S : EthSpec}

/-- The sequence number that a call announces, and the metadata if it is sent. -/
def Rpc.RPCOp.announced? {Id : Type} : RPCOp Id S → Option (UInt64 × Option (Rpc.MetaData S))
  | .sendRequest _ _ (.ping ping) => some (ping.data, none)
  | .sendResponse _ _ (.success (.pong ping)) => some (ping.data, none)
  | .sendResponse _ _ (.success (.metaData metaData)) => some (metaData.seqNumber, some metaData)
  | _ => none

namespace NodeMetadata

variable [DecidableEq S.Attnets] [DecidableEq S.Syncnets] {w : Wire S} {bits : Bitfields S}

end NodeMetadata

/-! ## Steps -/

namespace Node

variable [ScoreArith F]

/-- The application announces nothing itself. -/
theorem response_announced (peerId : PeerId) (id : PeerRequestId) (response : Rpc.Response S) :
    (RPCOp.sendResponse peerId id response.toCoded : RPCOp (RequestId A) S).announced? = none := by
  rcases response with msg | (_ | block) | (_ | block) <;> rfl

variable [DecidableEq A] [DecidableEq S.Attnets] [DecidableEq S.Syncnets]

section Run

variable (env : NodeEnv S) (pm : PeerManager F) (discovery : Discovery)
  (metadata : NodeMetadata S) (limiter : RPCRateLimiter) (ops : List (NodeOp F A S))

end Run

end Node

end Consentry
