import Consentry.Rpc.Handler
import Consentry.Rpc.RateLimiter

/-!
# The RPC behaviour (`rpc/mod.rs`)

`RPC` stands between the user and the handlers of the connections: what the user sends is queued
for a handler, and what a handler reports is queued for the user, unless it is a request that
exceeds the rate limit, which is answered with an error. `RPCOp` lists the calls.

Times are durations since the start of the rate limiter.
-/

namespace Consentry.Rpc

/-- Names a connection, among those of all peers. -/
abbrev ConnectionId := ℕ

/-! ## Texts of durations -/

namespace Duration

/-- The digits behind the decimal point, without the trailing zeros; there are at most `fuel`. -/
def fractionalDigits : ℕ → ℕ → ℕ → List Char
  | 0, _, _ => []
  | fuel + 1, fractionalPart, divisor =>
    if fractionalPart = 0 then []
    else
      Nat.digitChar (fractionalPart / divisor) ::
        fractionalDigits fuel (fractionalPart % divisor) (divisor / 10)

def fmtDecimal (integerPart fractionalPart divisor : ℕ) (unit : String) : String :=
  let digits := fractionalDigits 9 fractionalPart divisor
  let fraction := if digits.isEmpty then "" else "." ++ String.ofList digits
  integerPart.repr ++ fraction ++ unit

/-- `Debug for Duration`. -/
def debug (d : Duration) : String :=
  if 10 ^ 9 ≤ d then fmtDecimal (d / 10 ^ 9) (d % 10 ^ 9) (10 ^ 8) "s"
  else if 10 ^ 6 ≤ d then fmtDecimal (d / 10 ^ 6) (d % 10 ^ 6) (10 ^ 5) "ms"
  else if 10 ^ 3 ≤ d then fmtDecimal (d / 10 ^ 3) (d % 10 ^ 3) 100 "µs"
  else fmtDecimal d 0 1 "ns"

example : debug 1500000000 = "1.5s" := by decide +kernel

end Duration

/-! ## The behaviour -/

/-- Messages sent to the user from the RPC protocol. -/
structure RPCMessage (Id : Type) (S : EthSpec) where
  peerId : PeerId
  /-- The handler that manages the message. -/
  connId : ConnectionId
  event : HandlerEvent Id S

inductive NotifyHandler
  | one (connection : ConnectionId)
  | any
  deriving DecidableEq, Repr

inductive NetworkBehaviourAction (Id : Type) (S : EthSpec)
  | generateEvent (message : RPCMessage Id S)
  | notifyHandler (peerId : PeerId) (handler : NotifyHandler) (event : RPCSend Id S)

structure RPC (Id : Type) (S : EthSpec) where
  limiter : RPCRateLimiter
  /-- Queue of events to be processed. -/
  events : List (NetworkBehaviourAction Id S)

namespace RPC

variable {Id : Type} {S : EthSpec}

/-- None where the source panics, on quotas that are refused. -/
def new : Option (RPC Id S) := RPCRateLimiter.default.toOption.map fun limiter => ⟨limiter, []⟩

def push (rpc : RPC Id S) (action : NetworkBehaviourAction Id S) : RPC Id S :=
  { rpc with events := rpc.events ++ [action] }

/-- Sends an RPC response. -/
def sendResponse (rpc : RPC Id S) (peerId : PeerId) (id : ConnectionId × SubstreamId)
    (event : RPCCodedResponse S) : RPC Id S :=
  rpc.push (.notifyHandler peerId (.one id.1) (.response id.2 event))

/-- Submits an RPC request. -/
def sendRequest (rpc : RPC Id S) (peerId : PeerId) (requestId : Id) (event : OutboundRequest) :
    RPC Id S :=
  rpc.push (.notifyHandler peerId .any (.request requestId event))

/-- Terminates the connection to a peer with a goodbye message. -/
def shutdown (rpc : RPC Id S) (peerId : PeerId) (id : Id) (reason : GoodbyeReason) : RPC Id S :=
  rpc.push (.notifyHandler peerId .any (.shutdown id reason))

/-- The error with which a request that exceeds the rate limit is answered. -/
def rateLimited : RateLimitedErr → RPCCodedResponse S
  | .tooLarge => .error .rateLimited (.ofString "Rate limited. Request too large")
  | .tooSoon waitTime => .error .rateLimited (.ofString ("Wait " ++ waitTime.debug))

def injectEvent (rpc : RPC Id S) (timeSinceStart : Duration) (peerId : PeerId)
    (connId : ConnectionId) (event : HandlerEvent Id S) : RPC Id S :=
  match event with
  | .ok (.request id req) =>
    -- check if the request is conformant to the quota
    let (limiter, result) := rpc.limiter.allows timeSinceStart peerId req
    let rpc := { rpc with limiter := limiter }
    match result with
    | .ok () => rpc.push (.generateEvent ⟨peerId, connId, event⟩)
    | .error err => rpc.sendResponse peerId (connId, id) (rateLimited err)
  | event => rpc.push (.generateEvent ⟨peerId, connId, event⟩)

/-- `poll`, with the times at which the rate limiter prunes. -/
def poll (rpc : RPC Id S) (prunes : List Duration) :
    RPC Id S × Option (NetworkBehaviourAction Id S) :=
  let rpc := { rpc with limiter := prunes.foldl (·.prune ·) rpc.limiter }
  match rpc.events with
  | action :: events => ({ rpc with events := events }, some action)
  | [] => (rpc, none)

end RPC

/-- The calls that the behaviour receives from the user and from the swarm. -/
inductive RPCOp (Id : Type) (S : EthSpec)
  | sendResponse (peerId : PeerId) (id : ConnectionId × SubstreamId) (event : RPCCodedResponse S)
  | sendRequest (peerId : PeerId) (requestId : Id) (event : OutboundRequest)
  | shutdown (peerId : PeerId) (id : Id) (reason : GoodbyeReason)
  | injectEvent (timeSinceStart : Duration) (peerId : PeerId) (connId : ConnectionId)
      (event : HandlerEvent Id S)
  | poll (prunes : List Duration)

namespace RPC

variable {Id : Type} {S : EthSpec}

def step (rpc : RPC Id S) : RPCOp Id S → RPC Id S
  | .sendResponse peerId id event => rpc.sendResponse peerId id event
  | .sendRequest peerId requestId event => rpc.sendRequest peerId requestId event
  | .shutdown peerId id reason => rpc.shutdown peerId id reason
  | .injectEvent time peerId connId event => rpc.injectEvent time peerId connId event
  | .poll prunes => (rpc.poll prunes).1

/-- What a call returns to the swarm. -/
def returned (rpc : RPC Id S) : RPCOp Id S → List (NetworkBehaviourAction Id S)
  | .poll prunes => (rpc.poll prunes).2.toList
  | _ => []

end RPC

end Consentry.Rpc
