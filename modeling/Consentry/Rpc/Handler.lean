import Consentry.Lib.Flow
import Consentry.Rpc.Methods

/-!
# The connection handler (`rpc/handler.rs`)

What the source leaves to its environment is an input of a call: a `PollIo` holds what every
substream answers when it is polled, which timers have run out and the orders in which the
two maps of substreams are iterated. An insertion into a delay queue takes the key that it
prefers, if that key is free. `errorText` gives the text of an error response, from which the
source removes the control characters with a regular expression.

`poll` is a sequence of phases, each of which goes on, returns an event, or panics where the
source does. The waker, which only schedules the next poll, is left out.
-/

namespace Consentry.Rpc

open Lib

abbrev SubstreamId := ℕ

/-! ## Delay queues -/

/-- `DelayQueue`: the live keys with their values. The time at which a key expires is up to
the clock. -/
structure DelayQueue (α : Type) where
  live : Map ℕ α

namespace DelayQueue

variable {α : Type}

def new : DelayQueue α := ⟨∅⟩

/-- The key of the next insertion: the preferred one, unless it is live. -/
def freeKey (q : DelayQueue α) (preferred : ℕ) : ℕ :=
  if preferred ∈ q.live then q.live.keys.foldr max 0 + 1 else preferred

def insert (q : DelayQueue α) (preferred : ℕ) (value : α) : ℕ × DelayQueue α :=
  (q.freeKey preferred, ⟨q.live.insert (q.freeKey preferred) value⟩)

/-- None where the source panics, on a key that is not live. -/
def remove (q : DelayQueue α) (key : ℕ) : Option (DelayQueue α) :=
  if key ∈ q.live then some ⟨q.live.erase key⟩ else none

/-- None where the source panics, on a key that is not live. -/
def reset (q : DelayQueue α) (key : ℕ) : Option (DelayQueue α) :=
  if key ∈ q.live then some q else none

/-- The value of a key that expires, and the queue without it. -/
def expire (q : DelayQueue α) (key : ℕ) : Option (α × DelayQueue α) :=
  (q.live.lookup key).map fun value => (value, ⟨q.live.erase key⟩)

end DelayQueue

/-- One result of `poll_expired` that ends neither the loop nor the queue: a key that has
expired, or an error of the timer. -/
inductive Expiry
  | expired (key : ℕ)
  | failed
  deriving DecidableEq, Repr

/-! ## Events -/

inductive RPCSend (Id : Type) (S : EthSpec)
  | request (id : Id) (req : OutboundRequest)
  | response (inboundId : SubstreamId) (response : RPCCodedResponse S)
  | shutdown (id : Id) (reason : GoodbyeReason)

inductive RPCReceived (Id : Type) (S : EthSpec)
  | request (id : SubstreamId) (req : InboundRequest)
  | response (id : Id) (resp : RPCResponse S)
  /-- Marks a request as completed. -/
  | endOfStream (id : Id) (t : ResponseTermination)

inductive HandlerErr (Id : Type)
  | inbound (id : SubstreamId) (proto : Protocol) (error : RPCError)
  | outbound (id : Id) (proto : Protocol) (error : RPCError)

/-- Events the handler emits to the behaviour. -/
abbrev HandlerEvent (Id : Type) (S : EthSpec) := Except (HandlerErr Id) (RPCReceived Id S)

/-- What a poll returns when it is ready. -/
inductive ConnectionHandlerEvent (Id : Type) (S : EthSpec)
  | custom (event : HandlerEvent Id S)
  | close (error : RPCError)
  | outboundSubstreamRequest (info : Id × OutboundRequest)

inductive ProtocolError
  | ioError (err : IoError)
  | invalidMessage
  | invalidProtocol
  | tooManyProtocols
  deriving DecidableEq, Repr

inductive NegotiationError
  | protocolError (err : ProtocolError)
  | failed
  deriving DecidableEq, Repr

inductive UpgradeError
  | select (err : NegotiationError)
  | apply (err : RPCError)
  deriving DecidableEq, Repr

inductive ConnectionHandlerUpgrErr
  | timeout
  | timer
  | upgrade (err : UpgradeError)
  deriving DecidableEq, Repr

/-! ## Substreams -/

/-- The result of polling something that is done with an `α`. -/
inductive Poll (α : Type)
  | pending
  | ready (a : α)
  deriving DecidableEq, Repr

/-- What the sink of an inbound substream answers in one poll of a future. -/
structure SinkPoll where
  send : Poll (Except RPCError Unit)
  close : Poll (Except RPCError Unit)

def SinkPoll.pending : SinkPoll := ⟨.pending, .pending⟩

/-- What an outbound substream answers in one poll of the handler. -/
structure OutboundPoll (S : EthSpec) where
  next : Poll (Option (Except RPCError (RPCCodedResponse S)))
  close : Poll (Except RPCError Unit)

/-- An inbound substream, by the messages that have been handed to it. -/
structure InboundSubstream (S : EthSpec) where
  sent : List (RPCCodedResponse S)

/-- The future of `send_message_to_inbound_substream`, by the call it waits for. -/
inductive SendFuture (S : EthSpec)
  | terminating (substream : InboundSubstream S)
  | sending (substream : InboundSubstream S) (message : RPCCodedResponse S) (lastChunk : Bool)
  | closing (substream : InboundSubstream S) (sendResult : Except RPCError Unit)

/-- The result of a future: the substream, and whether it was closed. -/
abbrev SendResult (S : EthSpec) := Except RPCError (InboundSubstream S × Bool)

inductive InboundState (S : EthSpec)
  | idle (substream : InboundSubstream S)
  | busy (fut : SendFuture S)
  | poisoned

structure InboundInfo (S : EthSpec) where
  state : InboundState S
  pendingItems : List (RPCCodedResponse S)
  protocol : Protocol
  remainingChunks : UInt64
  delayKey : Option ℕ

inductive OutboundSubstreamState
  | requestPendingResponse (request : OutboundRequest)
  | closing
  | poisoned
  deriving DecidableEq

structure OutboundInfo (Id : Type) where
  state : OutboundSubstreamState
  delayKey : ℕ
  proto : Protocol
  remainingChunks : Option UInt64
  reqId : Id

/-! ### Sending a message -/

namespace SendFuture

variable {S : EthSpec}

def new (substream : InboundSubstream S) (message : RPCCodedResponse S) (lastChunk : Bool) :
    SendFuture S :=
  match message with
  | .streamTermination _ => terminating substream
  | message => sending ⟨substream.sent ++ [message]⟩ message lastChunk

/-- The `close` that ends a stream, after a `send` with the result `sendResult`. -/
def pollClose (io : SinkPoll) (substream : InboundSubstream S)
    (sendResult : Except RPCError Unit) : SendFuture S ⊕ SendResult S :=
  match io.close with
  | .pending => .inl (closing substream sendResult)
  | .ready closeResult =>
    match sendResult with
    | .error e => .inr (.error e)
    | .ok () => .inr (closeResult.map fun _ => (substream, true))

/-- A poll of the future: what it has become, or its result. -/
def poll (io : SinkPoll) : SendFuture S → SendFuture S ⊕ SendResult S
  | terminating substream =>
    match io.close with
    | .pending => .inl (terminating substream)
    | .ready res => .inr (res.map fun _ => (substream, true))
  | sending substream message lastChunk =>
    match io.send with
    | .pending => .inl (sending substream message lastChunk)
    | .ready sendResult =>
      let isError := match message with
        | .error _ _ => true
        | _ => false
      let isErr := match sendResult with
        | .error _ => true
        | .ok _ => false
      if lastChunk || isError || isErr then pollClose io substream sendResult
      else .inr (sendResult.map fun _ => (substream, false))
  | closing substream sendResult => pollClose io substream sendResult

end SendFuture

/-! ### Driving an inbound substream -/

/-- `saturating_sub(1)`. -/
def saturatingPred (n : UInt64) : UInt64 := if n = 0 then 0 else n - 1

/-- What the loop on an inbound substream leaves: its books, the timers, the errors to report
and whether it is to be removed. -/
structure InboundDrive (S : EthSpec) where
  info : InboundInfo S
  delay : DelayQueue SubstreamId
  errors : List RPCError
  remove : Bool

namespace InboundInfo

variable {S : EthSpec}

/-- The last item queued is one after which the stream goes on. -/
def endsOpen (info : InboundInfo S) : Bool :=
  info.pendingItems.getLast?.map (·.closeAfter) = some false

/-- Removal of the timer, if it is still in its queue. -/
def removeDelay (info : InboundInfo S) (delay : DelayQueue SubstreamId) :
    Option (DelayQueue SubstreamId) :=
  info.delayKey.elim (some delay) delay.remove

def resetDelay (info : InboundInfo S) (delay : DelayQueue SubstreamId) :
    Option (DelayQueue SubstreamId) :=
  info.delayKey.elim (some delay) delay.reset

/-- The loop moves on to the next substream. -/
def leave (info : InboundInfo S) (delay : DelayQueue SubstreamId) (state : InboundState S)
    (pendingItems : List (RPCCodedResponse S)) : InboundDrive S :=
  ⟨{ info with state := state, pendingItems := pendingItems }, delay, [], false⟩

/-- The substream is to be removed, and its timer is. -/
def finish (info : InboundInfo S) (delay : DelayQueue SubstreamId) (errors : List RPCError)
    (pendingItems : List (RPCCodedResponse S)) : Option (InboundDrive S) :=
  (info.removeDelay delay).map fun delay =>
    ⟨{ info with state := .poisoned, pendingItems := pendingItems }, delay, errors, true⟩

/-- The `Busy` arm of the loop and the turns behind it, with the items that are pending. -/
def driveBusy (deactivated : Bool) (info : InboundInfo S) (delay : DelayQueue SubstreamId)
    (fut : SendFuture S) (io : List SinkPoll) (pendingItems : List (RPCCodedResponse S)) :
    Option (InboundDrive S) :=
  match fut.poll (io.headD .pending), pendingItems with
  | .inl fut, pendingItems => some (info.leave delay (.busy fut) pendingItems)
  | .inr (.ok (substream, false)), [] =>
    (info.resetDelay delay).map fun delay =>
      { info with remainingChunks := saturatingPred info.remainingChunks }.leave delay
        (.idle substream) []
  | .inr (.ok (substream, false)), message :: pendingItems =>
    let info := { info with remainingChunks := saturatingPred info.remainingChunks }
    (info.resetDelay delay).bind fun delay =>
      if deactivated then some (info.leave delay (.idle substream) (message :: pendingItems))
      else
        driveBusy deactivated info delay
          (.new substream message (info.remainingChunks ≤ 1)) io.tail pendingItems
  | .inr (.ok (_, true)), pendingItems => info.finish delay [] pendingItems
  | .inr (.error error), pendingItems => info.finish delay [error] pendingItems

/-- The loop on one inbound substream, none where it panics. -/
def drive (deactivated : Bool) (info : InboundInfo S) (delay : DelayQueue SubstreamId)
    (io : List SinkPoll) : Option (InboundDrive S) :=
  match info.state with
  | .idle substream =>
    if !deactivated then
      match info.pendingItems with
      | message :: pendingItems =>
        driveBusy deactivated info delay
          (.new substream message (info.remainingChunks ≤ 1)) io pendingItems
      | [] => some (info.leave delay (.idle substream) [])
    else
      -- the handler is deactivated, so the stream is closed
      match (io.headD .pending).close with
      | .pending => some (info.leave delay (.idle substream) info.pendingItems)
      | .ready res =>
        let closeErr := match res with
          | .error error => [error]
          | .ok () => []
        let excess := if info.endsOpen then [.disconnected] else []
        info.finish delay (closeErr ++ excess) info.pendingItems
  | .busy fut => driveBusy deactivated info delay fut io info.pendingItems
  | .poisoned => none

end InboundInfo

/-! ## The handler -/

inductive HandlerState
  | active
  | shuttingDown
  | deactivated
  deriving DecidableEq, Repr

/-- `IO_ERROR_RETRIES`. -/
def ioErrorRetries : UInt8 := 3

/-- `MAX_INBOUND_SUBSTREAMS`. -/
def maxInboundSubstreams : ℕ := 32

structure RPCHandler (Id : Type) (S : EthSpec) where
  /-- Queue of events to produce in `poll`. -/
  eventsOut : List (HandlerEvent Id S)
  /-- Queue of outbound substreams to open. -/
  dialQueue : List (Id × OutboundRequest)
  /-- Current number of concurrent outbound substreams being opened. -/
  dialNegotiated : UInt32
  inboundSubstreams : Map SubstreamId (InboundInfo S)
  inboundSubstreamsDelay : DelayQueue SubstreamId
  outboundSubstreams : Map SubstreamId (OutboundInfo Id)
  outboundSubstreamsDelay : DelayQueue SubstreamId
  currentInboundSubstreamId : SubstreamId
  currentOutboundSubstreamId : SubstreamId
  /-- Maximum number of concurrent outbound substreams being opened. -/
  maxDialNegotiated : UInt32
  state : HandlerState
  /-- The number of attempts to negotiate that have failed with an IO error. -/
  outboundIoErrorRetries : UInt8

/-- What the environment answers in one poll. -/
structure PollIo (S : EthSpec) where
  /-- The shutdown timer has run out. -/
  shutdownTimer : Bool
  inboundTimers : List Expiry
  outboundTimers : List Expiry
  inboundOrder : Shuffle SubstreamId
  outboundOrder : Shuffle SubstreamId
  inbound : SubstreamId → List SinkPoll
  outbound : SubstreamId → OutboundPoll S

/-- Nothing is ready. -/
def PollIo.quiet {S : EthSpec} : PollIo S :=
  ⟨false, [], [], default, default, fun _ => [], fun _ => ⟨.pending, .pending⟩⟩

namespace RPCHandler

variable {Id : Type} {S : EthSpec}

def new : RPCHandler Id S where
  eventsOut := []
  dialQueue := []
  dialNegotiated := 0
  inboundSubstreams := ∅
  inboundSubstreamsDelay := .new
  outboundSubstreams := ∅
  outboundSubstreamsDelay := .new
  currentInboundSubstreamId := 0
  currentOutboundSubstreamId := 0
  maxDialNegotiated := 8
  state := .active
  outboundIoErrorRetries := 0

/-- Queues an event. -/
def push (h : RPCHandler Id S) (event : HandlerEvent Id S) : RPCHandler Id S :=
  { h with eventsOut := h.eventsOut ++ [event] }

/-- Initiates the shutdown, with an optional goodbye message to the peer. -/
def shutdown (h : RPCHandler Id S) (goodbyeReason : Option (Id × GoodbyeReason)) :
    RPCHandler Id S :=
  match h.state with
  | .active =>
    { h with
      -- the queue is emptied from its end
      eventsOut := h.eventsOut ++ h.dialQueue.reverse.map fun info =>
        .error (.outbound info.1 info.2.protocol .disconnected)
      dialQueue := goodbyeReason.toList.map fun goodbye => (goodbye.1, .goodbye goodbye.2)
      state := .shuttingDown }
  | _ => h

/-- Opens an outbound substream with a request. -/
def sendRequest (h : RPCHandler Id S) (id : Id) (req : OutboundRequest) : RPCHandler Id S :=
  match h.state with
  | .active => { h with dialQueue := h.dialQueue ++ [(id, req)] }
  | _ => h.push (.error (.outbound id req.protocol .disconnected))

/-- Sends a response to a peer's request. -/
def sendResponse (errorText : ErrorType → String) (h : RPCHandler Id S)
    (inboundId : SubstreamId) (response : RPCCodedResponse S) : RPCHandler Id S :=
  match h.inboundSubstreams.lookup inboundId with
  | none => h
  | some info =>
    let h := match response with
      | .error code reason =>
        h.push (.error (.inbound inboundId info.protocol (.errorResponse code (errorText reason))))
      | _ => h
    match h.state with
    | .deactivated => h
    | _ =>
      { h with
        inboundSubstreams := h.inboundSubstreams.insert inboundId
          { info with pendingItems := info.pendingItems ++ [response] } }

def injectEvent (errorText : ErrorType → String) (h : RPCHandler Id S) :
    RPCSend Id S → RPCHandler Id S
  | .request id req => h.sendRequest id req
  | .response inboundId response => h.sendResponse errorText inboundId response
  | .shutdown id reason => h.shutdown (some (id, reason))

/-- The event of a request that has been received, and the id of the next substream. -/
def receiveRequest (h : RPCHandler Id S) (req : InboundRequest) : RPCHandler Id S :=
  { h.push (.ok (.request h.currentInboundSubstreamId req)) with
    currentInboundSubstreamId := h.currentInboundSubstreamId + 1 }

/-- Stores the substream of a request that expects responses, none where there are too many.
`preferred` is the key that the delay queue prefers. -/
def storeInbound (h : RPCHandler Id S) (req : InboundRequest) (substream : InboundSubstream S)
    (preferred : ℕ) : Option (RPCHandler Id S) :=
  if 0 < req.expectedResponses then
    if h.inboundSubstreams.keys.length < maxInboundSubstreams then
      let (delayKey, delay) := h.inboundSubstreamsDelay.insert preferred h.currentInboundSubstreamId
      some { h with
        inboundSubstreamsDelay := delay
        inboundSubstreams := h.inboundSubstreams.insert h.currentInboundSubstreamId
          { state := .idle substream
            pendingItems := []
            protocol := req.protocol
            remainingChunks := req.expectedResponses
            delayKey := some delayKey } }
    else none
  else some h

def injectFullyNegotiatedInbound (h : RPCHandler Id S) (req : InboundRequest)
    (substream : InboundSubstream S) (preferred : ℕ) : RPCHandler Id S :=
  match h.state with
  | .active =>
    match h.storeInbound req substream preferred with
    | none =>
      (h.push (.error
        (.inbound h.currentInboundSubstreamId req.protocol .handlerRejected))).shutdown none
    | some h =>
      match req with
      | .goodbye _ => (h.shutdown none).receiveRequest req
      | _ => h.receiveRequest req
  | _ => h

/-- The subtraction wraps around, as that of a release build does. -/
def injectFullyNegotiatedOutbound (h : RPCHandler Id S) (info : Id × OutboundRequest)
    (preferred : ℕ) : RPCHandler Id S :=
  let (id, request) := info
  let h := { h with dialNegotiated := h.dialNegotiated - 1 }
  let h := match h.state with
    | .deactivated => h.push (.error (.outbound id request.protocol .disconnected))
    | _ => h
  if 0 < request.expectedResponses then
    let (delayKey, delay) :=
      h.outboundSubstreamsDelay.insert preferred h.currentOutboundSubstreamId
    { h with
      outboundSubstreamsDelay := delay
      outboundSubstreams := h.outboundSubstreams.insert h.currentOutboundSubstreamId
        { state := .requestPendingResponse request
          delayKey := delayKey
          proto := request.protocol
          remainingChunks :=
            if 1 < request.expectedResponses then some request.expectedResponses else none
          reqId := id }
      currentOutboundSubstreamId := h.currentOutboundSubstreamId + 1 }
  else h

/-- The error that a failed upgrade is reported with. -/
def mapUpgradeError : ConnectionHandlerUpgrErr → RPCError
  | .timer => .internalError "Timer failed"
  | .timeout => .negotiationTimeout
  | .upgrade (.apply e) => e
  | .upgrade (.select .failed) => .unsupportedProtocol
  | .upgrade (.select (.protocolError e)) =>
    match e with
    | .ioError err => .ioError err.message
    | .invalidProtocol => .internalError "Protocol was deemed invalid"
    | .invalidMessage | .tooManyProtocols =>
      .invalidData "Invalid message during negotiation"

/-- The dialing of a request has failed. -/
def failDial (h : RPCHandler Id S) (info : Id × OutboundRequest)
    (error : ConnectionHandlerUpgrErr) : RPCHandler Id S :=
  { h with
    dialNegotiated := h.dialNegotiated - 1
    outboundIoErrorRetries := 0 }.push
      (.error (.outbound info.1 info.2.protocol (mapUpgradeError error)))

def injectDialUpgradeError (h : RPCHandler Id S) (info : Id × OutboundRequest)
    (error : ConnectionHandlerUpgrErr) : RPCHandler Id S :=
  match error with
  | .upgrade (.apply (.ioError _)) =>
    let h := { h with outboundIoErrorRetries := h.outboundIoErrorRetries + 1 }
    if h.outboundIoErrorRetries < ioErrorRetries then h.sendRequest info.1 info.2
    else h.failDial info error
  | _ => h.failDial info error

/-- No request, substream or event is left, so the handler may shut down. -/
def isDone (h : RPCHandler Id S) : Bool :=
  h.dialQueue.isEmpty && h.outboundSubstreams.keys.isEmpty && h.inboundSubstreams.keys.isEmpty &&
    h.eventsOut.isEmpty && h.dialNegotiated == 0

inductive KeepAlive
  | yes
  | no
  deriving DecidableEq, Repr

def connectionKeepAlive (h : RPCHandler Id S) : KeepAlive :=
  let shouldShutdown := match h.state with
    | .shuttingDown => h.isDone
    | .deactivated => true
    | .active => false
  if shouldShutdown then .no else .yes

/-! ### The phases of a poll -/

/-- A phase of a poll: it goes on with the handler or returns an event. -/
abbrev Phase (Id : Type) (S : EthSpec) :=
  Flow (RPCHandler Id S) (ConnectionHandlerEvent Id S × RPCHandler Id S)

/-- Returns an event that is to be reported. -/
def report (h : RPCHandler Id S) : Phase Id S :=
  match h.eventsOut with
  | event :: eventsOut => .returned (.custom event, { h with eventsOut := eventsOut })
  | [] => .next h

/-- Deactivates a handler that is shutting down when its timer runs out. -/
def pollShutdown (timer : Bool) (h : RPCHandler Id S) : Phase Id S :=
  match h.state, timer with
  | .shuttingDown, true => .returned (.close .disconnected, { h with state := .deactivated })
  | _, _ => .next h

/-- One turn of the loop on the timers of the inbound substreams. -/
def expireInbound (expiry : Expiry) (h : RPCHandler Id S) : Phase Id S :=
  match expiry with
  | .failed =>
    .returned (.close (.internalError "Could not poll inbound stream timer"), h)
  | .expired key =>
    match h.inboundSubstreamsDelay.expire key with
    | none => .next h
    | some (inboundId, delay) =>
      let h := { h with inboundSubstreamsDelay := delay }
      match h.inboundSubstreams.lookup inboundId with
      | none => .next h
      | some info =>
        let pendingItems :=
          -- if the last chunk does not close the stream, append an error
          if info.endsOpen then
            info.pendingItems ++ [.error .serverError (.ofString "Request timed out")]
          else info.pendingItems
        .next ({ h with
          inboundSubstreams := h.inboundSubstreams.insert inboundId
            { info with delayKey := none, pendingItems := pendingItems } }.push
              (.error (.inbound inboundId info.protocol .streamTimeout)))

/-- One turn of the loop on the timers of the outbound substreams. -/
def expireOutbound (expiry : Expiry) (h : RPCHandler Id S) : Phase Id S :=
  match expiry with
  | .failed =>
    .returned (.close (.internalError "Could not poll outbound stream timer"), h)
  | .expired key =>
    match h.outboundSubstreamsDelay.expire key with
    | none => .next h
    | some (outboundId, delay) =>
      let h := { h with outboundSubstreamsDelay := delay }
      match h.outboundSubstreams.lookup outboundId with
      | none => .next h
      | some info =>
        .returned (.custom (.error (.outbound info.reqId info.proto .streamTimeout)),
          { h with outboundSubstreams := h.outboundSubstreams.erase outboundId })

def isDeactivated (h : RPCHandler Id S) : Bool := h.state = .deactivated

/-- One turn of the loop on the inbound substreams, with those that are to be removed. -/
def driveInbound (io : SubstreamId → List SinkPoll) (id : SubstreamId)
    (acc : RPCHandler Id S × List SubstreamId) :
    Flow (RPCHandler Id S × List SubstreamId) (ConnectionHandlerEvent Id S × RPCHandler Id S) :=
  match acc.1.inboundSubstreams.lookup id with
  | none => .next acc
  | some info =>
    (Flow.ofOption (info.drive acc.1.isDeactivated acc.1.inboundSubstreamsDelay (io id))).andThen
      fun d => .next
        ({ acc.1 with
          inboundSubstreams := acc.1.inboundSubstreams.insert id d.info
          inboundSubstreamsDelay := d.delay
          eventsOut := acc.1.eventsOut ++ d.errors.map fun error =>
            .error (.inbound id info.protocol error) },
          if d.remove then acc.2 ++ [id] else acc.2)

/-- Drives the inbound substreams and removes the closed ones. -/
def driveInbounds (io : PollIo S) (h : RPCHandler Id S) : Phase Id S :=
  (Flow.each (driveInbound io.inbound) (io.inboundOrder.run h.inboundSubstreams.keys)
    (h, [])).andThen fun (h, substreamsToRemove) => .next
      { h with
        inboundSubstreams := substreamsToRemove.foldl (fun m id => m.erase id)
          h.inboundSubstreams }

/-- What the application is told about a response. -/
def received (errorText : ErrorType → String) (id : Id) (proto : Protocol) :
    RPCCodedResponse S → HandlerEvent Id S
  | .streamTermination t => .ok (.endOfStream id t)
  | .success resp => .ok (.response id resp)
  | .error code r => .error (.outbound id proto (.errorResponse code (errorText r)))

/-- Removal of an outbound substream and of its timer. -/
def removeOutbound (h : RPCHandler Id S) (id : SubstreamId) (info : OutboundInfo Id) :
    Phase Id S :=
  (Flow.ofOption (h.outboundSubstreamsDelay.remove info.delayKey)).andThen fun delay => .next
    { h with
      outboundSubstreamsDelay := delay
      outboundSubstreams := h.outboundSubstreams.erase id }

/-- A response on a substream that awaits one. -/
def receiveResponse (errorText : ErrorType → String) (h : RPCHandler Id S) (id : SubstreamId)
    (info : OutboundInfo Id) (request : OutboundRequest) (response : RPCCodedResponse S) :
    Phase Id S :=
  let event := received errorText info.reqId info.proto response
  let closing := { h with
    outboundSubstreams := h.outboundSubstreams.insert id { info with state := .closing } }
  if 1 < request.expectedResponses && !response.closeAfter then
    -- chunks left after this one
    let remainingChunks := (info.remainingChunks.map saturatingPred).getD 0
    if remainingChunks = 0 then .returned (.custom event, closing)
    else
      (Flow.ofOption (h.outboundSubstreamsDelay.reset info.delayKey)).andThen fun delay =>
        .returned (.custom event,
          { h with
            outboundSubstreamsDelay := delay
            outboundSubstreams := h.outboundSubstreams.insert id
              { info with
                state := .requestPendingResponse request
                remainingChunks := some remainingChunks } })
  else .returned (.custom event, closing)

/-- The end of a stream on which a response was awaited. -/
def streamEnd (info : OutboundInfo Id) (request : OutboundRequest) :
    Option (HandlerEvent Id S) :=
  if 1 < request.expectedResponses then
    request.streamTermination.map fun t => .ok (.endOfStream info.reqId t)
  else some (.error (.outbound info.reqId request.protocol .incompleteStream))

/-- The stream termination that is reported when a substream has been closed. -/
def closeTermination : Protocol → Option ResponseTermination
  | .blocksByRange => some .blocksByRange
  | .blocksByRoot => some .blocksByRoot
  | _ => none

/-- One turn of the loop on the outbound substreams. -/
def driveOutbound (errorText : ErrorType → String) (io : SubstreamId → OutboundPoll S)
    (id : SubstreamId) (h : RPCHandler Id S) : Phase Id S :=
  match h.outboundSubstreams.lookup id with
  | none => .panicked
  | some info =>
    match info.state with
    | .requestPendingResponse request =>
      if h.isDeactivated then
        let h := h.push (.error (.outbound info.reqId info.proto .disconnected))
        .next { h with
          outboundSubstreams := h.outboundSubstreams.insert id { info with state := .closing } }
      else
        match (io id).next with
        | .pending => .next h
        | .ready (some (.ok response)) => h.receiveResponse errorText id info request response
        | .ready (some (.error e)) =>
          (h.removeOutbound id info).andThen fun h =>
            .returned (.custom (.error (.outbound info.reqId info.proto e)), h)
        | .ready none =>
          (h.removeOutbound id info).andThen fun h =>
            (Flow.ofOption (streamEnd info request)).andThen fun event =>
              .returned (.custom event, h)
    | .closing =>
      match (io id).close with
      | .pending => .next h
      | .ready _ =>
        (h.removeOutbound id info).andThen fun h =>
          match closeTermination info.proto with
          | some termination => .returned (.custom (.ok (.endOfStream info.reqId termination)), h)
          | none => .next h
    | .poisoned => .panicked

def driveOutbounds (errorText : ErrorType → String) (io : PollIo S) (h : RPCHandler Id S) :
    Phase Id S :=
  Flow.each (driveOutbound errorText io.outbound)
    (io.outboundOrder.run h.outboundSubstreams.keys) h

/-- Opens an outbound substream for the next request. -/
def establish (h : RPCHandler Id S) : Phase Id S :=
  match h.dialQueue with
  | info :: dialQueue =>
    if h.dialNegotiated < h.maxDialNegotiated then
      .returned (.outboundSubstreamRequest info,
        { h with dialNegotiated := h.dialNegotiated + 1, dialQueue := dialQueue })
    else .next h
  | [] => .next h

/-- Disconnects once the shutdown is complete. -/
def completeShutdown (h : RPCHandler Id S) : Phase Id S :=
  match h.state with
  | .shuttingDown => if h.isDone then .returned (.close .disconnected, h) else .next h
  | _ => .next h

/-- The part of a poll that reports events, follows the timers and drives the substreams. -/
def settle (errorText : ErrorType → String) (io : PollIo S) (h : RPCHandler Id S) : Phase Id S :=
  h.report.andThen fun h =>
  (h.pollShutdown io.shutdownTimer).andThen fun h =>
  (Flow.each expireInbound io.inboundTimers h).andThen fun h =>
  (Flow.each expireOutbound io.outboundTimers h).andThen fun h =>
  (h.driveInbounds io).andThen fun h =>
  h.driveOutbounds errorText io

/-- `poll`. It is pending where the phases go on to the end. -/
def poll (errorText : ErrorType → String) (io : PollIo S) (h : RPCHandler Id S) : Phase Id S :=
  (h.settle errorText io).andThen fun h =>
  h.establish.andThen fun h =>
  h.completeShutdown

end RPCHandler

/-! ## The connection -/

/-- A handler and the swarm that runs it: the substream requests that have not been answered
and the events that `poll` has returned. A panic ends the run. -/
structure Connection (Id : Type) (S : EthSpec) where
  handler : RPCHandler Id S
  opening : List (Id × OutboundRequest)
  log : List (HandlerEvent Id S)
  panicked : Bool

/-- What the swarm calls. -/
inductive Call (Id : Type) (S : EthSpec)
  | injectEvent (event : RPCSend Id S)
  | injectFullyNegotiatedInbound (req : InboundRequest) (substream : InboundSubstream S)
      (preferred : ℕ)
  | injectFullyNegotiatedOutbound (info : Id × OutboundRequest) (preferred : ℕ)
  | injectDialUpgradeError (info : Id × OutboundRequest) (error : ConnectionHandlerUpgrErr)
  | poll (io : PollIo S)

namespace Connection

variable {Id : Type} {S : EthSpec}

def new : Connection Id S := ⟨.new, [], [], false⟩

def withHandler (c : Connection Id S) (h : RPCHandler Id S) : Connection Id S :=
  { c with handler := h }

/-- The swarm keeps what a poll returns. -/
def keep (c : Connection Id S) : ConnectionHandlerEvent Id S → Connection Id S
  | .custom event => { c with log := c.log ++ [event] }
  | .close _ => c
  | .outboundSubstreamRequest info => { c with opening := c.opening ++ [info] }

def polled (c : Connection Id S) : RPCHandler.Phase Id S → Connection Id S
  | .next h => c.withHandler h
  | .returned (event, h) => (c.withHandler h).keep event
  | .panicked => { c with panicked := true }

variable [DecidableEq Id]

/-- The swarm answers a substream request that is open. -/
def answer (c : Connection Id S) (info : Id × OutboundRequest)
    (inject : RPCHandler Id S → RPCHandler Id S) : Connection Id S :=
  if info ∈ c.opening then
    { c.withHandler (inject c.handler) with opening := c.opening.erase info }
  else c

theorem answer_of_mem {c : Connection Id S} {info : Id × OutboundRequest}
    (hopen : info ∈ c.opening) (inject : RPCHandler Id S → RPCHandler Id S) :
    c.answer info inject =
      { c.withHandler (inject c.handler) with opening := c.opening.erase info } :=
  if_pos hopen

theorem answer_of_not_mem {c : Connection Id S} {info : Id × OutboundRequest}
    (hopen : info ∉ c.opening) (inject : RPCHandler Id S → RPCHandler Id S) :
    c.answer info inject = c :=
  if_neg hopen

def handle (errorText : ErrorType → String) (c : Connection Id S) : Call Id S → Connection Id S
  | .injectEvent event => c.withHandler (c.handler.injectEvent errorText event)
  | .injectFullyNegotiatedInbound req substream preferred =>
    c.withHandler (c.handler.injectFullyNegotiatedInbound req substream preferred)
  | .injectFullyNegotiatedOutbound info preferred =>
    c.answer info (·.injectFullyNegotiatedOutbound info preferred)
  | .injectDialUpgradeError info error => c.answer info (·.injectDialUpgradeError info error)
  | .poll io => c.polled (c.handler.poll errorText io)

def step (errorText : ErrorType → String) (c : Connection Id S) (call : Call Id S) :
    Connection Id S :=
  if c.panicked then c else c.handle errorText call

theorem step_of_live {c : Connection Id S} (hlive : c.panicked = false)
    (errorText : ErrorType → String) (call : Call Id S) :
    c.step errorText call = c.handle errorText call :=
  if_neg (by simp [hlive])

/-- A property of connections that the calls keep is kept by a step. -/
theorem step_induction {P : Connection Id S → Prop} {c : Connection Id S} (hc : P c)
    {errorText : ErrorType → String} {call : Call Id S}
    (hhandle : c.panicked = false → P (c.handle errorText call)) :
    P (c.step errorText call) := by
  cases hlive : c.panicked with
  | false =>
    rw [step_of_live hlive]
    exact hhandle hlive
  | true =>
    unfold step
    rwa [if_pos hlive]

end Connection

end Consentry.Rpc
