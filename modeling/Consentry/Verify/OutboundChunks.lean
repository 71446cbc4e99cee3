import Consentry.Lib.Assoc
import Consentry.Lib.Run
import Consentry.Verify.HandlerPhases

/-!
# Responses to outbound requests

**`Connection.responses_le`**: no more responses are reported under an id than the requests made
under it expect, whatever the remote sends.

Every place that a request goes through has an allowance: what the request expects while it waits
or is being negotiated, what is left of that while its substream awaits responses, and nothing
once the substream is closing. A response that is reported is paid for out of the allowance of
its substream (`OutboundInfo.Expecting.afterResponse`), and no other step raises the sum
(`RPCHandler.outstanding`).
-/

namespace Consentry.Rpc

open Lib

/-! ## What a substream may still report -/

namespace OutboundInfo

variable {Id : Type} {S : EthSpec} {info : OutboundInfo Id}

/-- The number of responses that a substream may still report. -/
def allowance (info : OutboundInfo Id) : ℕ :=
  match info.state with
  | .requestPendingResponse request =>
    if 1 < request.expectedResponses then (info.remainingChunks.getD 0).toNat else 1
  | .closing => 0
  | .poisoned => 0

/-- A substream of a request for several responses has some left to receive. -/
def Expecting (info : OutboundInfo Id) : Prop :=
  ∀ request, info.state = .requestPendingResponse request → 1 < request.expectedResponses →
    ∃ left, info.remainingChunks = some left ∧ left ≠ 0

theorem expecting_of_closing (hclosing : info.state = .closing) : info.Expecting := by
  intro request hstate
  rw [hclosing] at hstate
  cases hstate

/-- The number of responses in a message: one for a response, none for an error or an end. -/
def chunks : RPCCodedResponse S → ℕ
  | .success _ => 1
  | .error _ _ => 0
  | .streamTermination _ => 0

/-- A response is paid for out of the allowance of its substream. -/
theorem Expecting.afterResponse (h : info.Expecting) {request : OutboundRequest}
    (hstate : info.state = .requestPendingResponse request) (response : RPCCodedResponse S) :
    (info.afterResponse request response).Expecting ∧
      (info.afterResponse request response).allowance + chunks response ≤ info.allowance := by
  have hchunks : chunks response ≤ 1 := by cases response <;> simp [chunks]
  unfold OutboundInfo.afterResponse
  by_cases hmore : 1 < request.expectedResponses
  · obtain ⟨left, hleft, hpos⟩ := h request hstate hmore
    have hone : 1 ≤ left.toNat := Nat.one_le_iff_ne_zero.2 fun hn => hpos (UInt64.toNat_inj.1 hn)
    have hallowance : info.allowance = left.toNat := by
      unfold allowance
      rw [hstate]
      dsimp only
      rw [if_pos hmore, hleft]
      rfl
    have hpred := saturatingPred_toNat left
    rw [hallowance]
    split
    · dsimp only
      rw [hleft]
      dsimp only [Option.map_some, Option.getD_some]
      split
      · refine ⟨expecting_of_closing rfl, ?_⟩
        show 0 + _ ≤ _
        omega
      · next hrest =>
        refine ⟨fun _ _ _ => ⟨_, rfl, hrest⟩, ?_⟩
        unfold allowance
        dsimp only
        rw [if_pos hmore, Option.getD_some]
        omega
    · refine ⟨expecting_of_closing rfl, ?_⟩
      show 0 + _ ≤ _
      omega
  · have hallowance : info.allowance = 1 := by
      unfold allowance
      rw [hstate]
      exact if_neg hmore
    rw [if_neg (by simp [hmore]), hallowance]
    refine ⟨expecting_of_closing rfl, ?_⟩
    show 0 + _ ≤ _
    omega

end OutboundInfo

/-! ## What is outstanding -/

namespace RPCHandler

variable {Id : Type} {S : EthSpec} [DecidableEq Id] {h h' h'' : RPCHandler Id S} {id : Id}

/-- The number of responses that are reported under an id. -/
def reported (id : Id) : HandlerEvent Id S → ℕ
  | .ok (.response id' _) => if id' = id then 1 else 0
  | _ => 0

/-- What a request under the id expects. -/
def expected (id : Id) (info : Id × OutboundRequest) : ℕ :=
  if info.1 = id then info.2.expectedResponses.toNat else 0

/-- What the substream of such a request may still report. -/
def allowed (id : Id) (_ : SubstreamId) (info : OutboundInfo Id) : ℕ :=
  if info.reqId = id then info.allowance else 0

/-- What the handler may still report under an id. -/
def outstanding (id : Id) (h : RPCHandler Id S) : ℕ :=
  (h.eventsOut.map (reported id)).sum + (h.dialQueue.map (expected id)).sum +
    h.outboundSubstreams.total (allowed id)

/-- The counts of the chunks that are left are in order. -/
def AllExpecting (h : RPCHandler Id S) : Prop :=
  ∀ sid info, h.outboundSubstreams.lookup sid = some info → info.Expecting

/-- The event is what a poll returns, and what it is worth. -/
def worth (id : Id) : ConnectionHandlerEvent Id S → ℕ
  | .custom event => reported id event
  | .close _ => 0
  | .outboundSubstreamRequest info => expected id info

/-- Nothing is reported that was not outstanding. -/
structure Spends (id : Id) (h h' : RPCHandler Id S) : Prop where
  expecting : h'.AllExpecting
  outstanding : h'.outstanding id ≤ h.outstanding id

/-- A phase reports nothing that was not outstanding. -/
def KeepsAllowance (id : Id) (h : RPCHandler Id S) (phase : Phase Id S) : Prop :=
  phase.Meets (h.Spends id)
    (fun r => r.2.AllExpecting ∧ worth id r.1 + r.2.outstanding id ≤ h.outstanding id) True

theorem Spends.refl (hx : h.AllExpecting) : h.Spends id h := ⟨hx, Nat.le_refl _⟩

theorem Spends.trans (hl : h.Spends id h') (hr : h'.Spends id h'') : h.Spends id h'' :=
  ⟨hr.expecting, hr.outstanding.trans hl.outstanding⟩

theorem KeepsAllowance.of_spends {phase : Phase Id S} (hpast : h.Spends id h')
    (hphase : h'.KeepsAllowance id phase) : h.KeepsAllowance id phase :=
  hphase.mono (fun _ hnext => hpast.trans hnext)
    (fun _ hr => ⟨hr.1, hr.2.trans hpast.outstanding⟩) fun hn => hn

theorem KeepsAllowance.andThen {phase : Phase Id S} {k : RPCHandler Id S → Phase Id S}
    (hphase : h.KeepsAllowance id phase)
    (hk : ∀ h' : RPCHandler Id S, h'.AllExpecting → h'.KeepsAllowance id (k h')) :
    h.KeepsAllowance id (phase.andThen k) :=
  Flow.Meets.andThen hphase fun h' hpast => (hk h' hpast.expecting).of_spends hpast

theorem KeepsAllowance.each {ι : Type} {f : ι → RPCHandler Id S → Phase Id S}
    (hf : ∀ i (h' : RPCHandler Id S), h'.AllExpecting → h'.KeepsAllowance id (f i h'))
    (is : List ι) (hx : h.AllExpecting) : h.KeepsAllowance id (Flow.each f is h) :=
  Flow.Meets.each_of_step (fun i h' hpast => (hf i h' hpast.expecting).of_spends hpast) is
    (.refl hx)

/-! ### The phases of a poll -/

theorem reported_of_inward {event : HandlerEvent Id S} (habout : outboundId event = none) :
    reported id event = 0 := by
  unfold reported
  split
  · cases habout
  · rfl

theorem Inward.spends (hx : h.AllExpecting) (hstep : h.Inward h') : h.Spends id h' := by
  obtain ⟨inbound, delay, current, hevents⟩ := hstep
  refine ⟨hx, ?_⟩
  unfold RPCHandler.outstanding
  dsimp only
  rw [List.map_append, List.sum_append, List.map_congr_left fun e he =>
    reported_of_inward (hevents e he)]
  simp

theorem report_keepsAllowance (hx : h.AllExpecting) : h.KeepsAllowance id h.report := by
  refine h.report_cases.mono (fun h' hnext => ?_) (fun r hr => ?_) fun hn => hn
  · rw [hnext.1]
    exact .refl hx
  · obtain ⟨event, rest, hevents, rfl⟩ := hr
    refine ⟨hx, ?_⟩
    unfold outstanding worth
    dsimp only
    rw [hevents, List.map_cons, List.sum_cons]
    omega

theorem pollShutdown_keepsAllowance (timer : Bool) (hx : h.AllExpecting) :
    h.KeepsAllowance id (h.pollShutdown timer) := by
  refine (pollShutdown_cases timer h).mono (fun h' hnext => ?_) (fun r hr => ?_) fun hn => hn
  · rw [hnext.1]
    exact .refl hx
  · obtain ⟨-, rfl⟩ := hr
    exact ⟨hx, Nat.le_of_eq (Nat.zero_add _)⟩

/-- A substream is dropped. -/
theorem AllExpecting.drop (hx : h.AllExpecting) {sid : SubstreamId}
    (hevents : h'.eventsOut = h.eventsOut) (hqueue : h'.dialQueue = h.dialQueue)
    (hdrop : h'.outboundSubstreams = h.outboundSubstreams.erase sid) : h.Spends id h' := by
  have htotal := Map.total_erase_add (allowed id) h.outboundSubstreams sid
  refine ⟨fun sid' info hinfo => ?_, ?_⟩
  · rw [hdrop, Map.lookup_erase_eq] at hinfo
    split at hinfo
    · cases hinfo
    · exact hx sid' info hinfo
  · unfold outstanding
    rw [hevents, hqueue, hdrop]
    omega

omit [DecidableEq Id] in
/-- A substream is stored. -/
theorem AllExpecting.insert (hx : h.AllExpecting) {sid : SubstreamId} {info : OutboundInfo Id}
    (hinfo : info.Expecting)
    (hstore : h'.outboundSubstreams = h.outboundSubstreams.insert sid info) :
    h'.AllExpecting := by
  intro sid' info' hinfo'
  rw [hstore, Map.lookup_insert_eq] at hinfo'
  split at hinfo'
  · exact Option.some.inj hinfo' ▸ hinfo
  · exact hx sid' info' hinfo'

theorem expireOutbound_keepsAllowance (expiry : Expiry) (hx : h.AllExpecting) :
    h.KeepsAllowance id (h.expireOutbound expiry) := by
  have hexpiry := expireOutbound_expiry expiry h
  generalize h.expireOutbound expiry = phase at hexpiry
  cases hexpiry with
  | failed => exact ⟨hx, Nat.le_of_eq (Nat.zero_add _)⟩
  | dead key => exact Spends.refl hx
  | stray key => exact Spends.mk hx (Nat.le_refl _)
  | @timeout key sid info hkey hinfo =>
    have hdrop : h.Spends id { h with
        outboundSubstreamsDelay := ⟨h.outboundSubstreamsDelay.live.erase key⟩
        outboundSubstreams := h.outboundSubstreams.erase sid } := hx.drop rfl rfl rfl
    exact ⟨hdrop.expecting, (Nat.le_of_eq (Nat.zero_add _)).trans hdrop.outstanding⟩

theorem reported_received (errorText : ErrorType → String) (reqId : Id) (proto : Protocol)
    (response : RPCCodedResponse S) :
    reported id (received errorText reqId proto response) =
      if reqId = id then OutboundInfo.chunks response else 0 := by
  cases response with
  | success resp => rfl
  | error | streamTermination => exact (ite_self 0).symm

/-- What a substream reports is paid for out of what is outstanding. -/
theorem outstanding_insert (id : Id) {sid : SubstreamId} {info info' : OutboundInfo Id}
    (hinfo : h.outboundSubstreams.lookup sid = some info) (hid : info'.reqId = info.reqId) {n : ℕ}
    (hpaid : info'.allowance + n ≤ info.allowance) :
    Map.total (allowed id) (h.outboundSubstreams.insert sid info') +
      (if info.reqId = id then n else 0) ≤ h.outboundSubstreams.total (allowed id) := by
  have hinsert := Map.total_insert_add (allowed id) h.outboundSubstreams sid info'
  rw [Map.weightAt_of_lookup hinfo] at hinsert
  have hold : allowed id sid info = if info.reqId = id then info.allowance else 0 := rfl
  have hnew : allowed id sid info' = if info.reqId = id then info'.allowance else 0 := by
    unfold allowed
    rw [hid]
  rw [hold, hnew] at hinsert
  by_cases hsame : info.reqId = id
  · rw [if_pos hsame] at hinsert ⊢
    rw [if_pos hsame] at hinsert
    omega
  · rw [if_neg hsame] at hinsert ⊢
    rw [if_neg hsame] at hinsert
    omega

omit [DecidableEq Id] in
theorem afterResponse_reqId (info : OutboundInfo Id) (request : OutboundRequest)
    (response : RPCCodedResponse S) : (info.afterResponse request response).reqId = info.reqId := by
  unfold OutboundInfo.afterResponse
  split
  · dsimp only
    split <;> rfl
  · rfl

theorem driveOutbound_keepsAllowance (errorText : ErrorType → String)
    (io : SubstreamId → OutboundPoll S) (sid : SubstreamId) (hx : h.AllExpecting) :
    h.KeepsAllowance id (h.driveOutbound errorText io sid) := by
  cases hinfo : h.outboundSubstreams.lookup sid with
  | none =>
    unfold driveOutbound
    rw [hinfo]
    trivial
  | some info =>
    have hdrive : OutboundDrive errorText (io sid) h sid info (h.driveOutbound errorText io sid) :=
      driveOutbound_drive hinfo
    have hdropped : h.Spends id (h.without sid info.delayKey) := hx.drop rfl rfl rfl
    have hquiet : ∀ {event : HandlerEvent Id S}, reported id event = 0 →
        worth id (.custom event) + (h.without sid info.delayKey).outstanding id ≤
          h.outstanding id := fun hzero =>
      (Nat.le_of_eq ((congrArg (· + _) hzero).trans (Nat.zero_add _))).trans hdropped.outstanding
    generalize h.driveOutbound errorText io sid = phase at hdrive
    cases hdrive with
    | wait => exact Spends.refl hx
    | panic hbad => trivial
    | disconnect hstate hdeactivated =>
      have hclosing : ({ info with state := .closing } : OutboundInfo Id).allowance + 0 ≤
          info.allowance := Nat.zero_le _
      have hleft := outstanding_insert id hinfo (by rfl) hclosing
      refine ⟨hx.insert (OutboundInfo.expecting_of_closing rfl) rfl, ?_⟩
      unfold outstanding push
      dsimp only
      rw [List.map_append, List.sum_append]
      simp only [List.map_singleton, List.sum_singleton, reported]
      omega
    | @respond request hstate response hresponse =>
      obtain ⟨hexpecting, hpaid⟩ := (hx sid info hinfo).afterResponse hstate response
      have hleft := outstanding_insert id hinfo (afterResponse_reqId info request response) hpaid
      refine ⟨hx.insert hexpecting rfl, ?_⟩
      unfold outstanding worth
      dsimp only
      rw [reported_received]
      omega
    | fail | streamEnd | terminate => exact ⟨hdropped.expecting, hquiet rfl⟩
    | close hstate => exact hdropped

theorem establish_keepsAllowance (hx : h.AllExpecting) : h.KeepsAllowance id h.establish := by
  refine h.establish_cases.mono (fun h' hnext => ?_) (fun r hr => ?_) fun hn => hn
  · rw [hnext.1]
    exact .refl hx
  · obtain ⟨info, rest, hqueue, -, rfl⟩ := hr
    refine ⟨hx, ?_⟩
    unfold outstanding worth
    dsimp only
    rw [hqueue, List.map_cons, List.sum_cons]
    omega

theorem completeShutdown_keepsAllowance (hx : h.AllExpecting) :
    h.KeepsAllowance id h.completeShutdown := by
  refine h.completeShutdown_cases.mono (fun h' hnext => ?_) (fun r hr => ?_) fun hn => hn
  · rw [hnext.1]
    exact .refl hx
  · rw [hr]
    exact ⟨hx, Nat.le_of_eq (Nat.zero_add _)⟩

/-- **A poll reports nothing that was not outstanding.** -/
theorem poll_keepsAllowance (errorText : ErrorType → String) (io : PollIo S)
    (hx : h.AllExpecting) : h.KeepsAllowance id (h.poll errorText io) := by
  have hinward : ∀ {h h' : RPCHandler Id S}, h.AllExpecting → h.Inward h' → h.Spends id h' :=
    fun hx hstep => hstep.spends hx
  refine KeepsAllowance.andThen ?_ fun h hx => ?_
  · refine (report_keepsAllowance hx).andThen fun h hx => ?_
    refine (pollShutdown_keepsAllowance io.shutdownTimer hx).andThen fun h hx => ?_
    refine KeepsAllowance.andThen ?_ fun h hx => ?_
    · refine (expireInbounds_inward io.inboundTimers h).mono (fun _ hstep => hinward hx hstep)
        (fun r hr => ?_) fun hn => hn
      obtain ⟨⟨error, herror⟩, hstep⟩ := hr
      have hspends := hinward hx hstep
      rw [herror]
      exact ⟨hspends.expecting, (Nat.le_of_eq (Nat.zero_add _)).trans hspends.outstanding⟩
    refine (KeepsAllowance.each (fun expiry h hx => expireOutbound_keepsAllowance expiry hx)
      io.outboundTimers hx).andThen fun h hx => ?_
    refine KeepsAllowance.andThen ((driveInbounds_inward io h).mono
      (fun _ hstep => hinward hx hstep) (fun _ hr => hr.elim) fun hn => hn) fun h hx => ?_
    exact .each (fun sid h hx => driveOutbound_keepsAllowance errorText io.outbound sid hx) _ hx
  · exact (establish_keepsAllowance hx).andThen fun h hx => completeShutdown_keepsAllowance hx

/-! ### The other calls -/

theorem shutdown_spends (hx : h.AllExpecting) (goodbye : Option (Id × GoodbyeReason)) :
    h.Spends id (h.shutdown goodbye) := by
  unfold shutdown
  split
  · refine ⟨hx, ?_⟩
    have herrors : (h.dialQueue.reverse.map fun info => reported id
        (.error (.outbound info.1 info.2.protocol .disconnected) : HandlerEvent Id S)).sum = 0 := by
      simp [reported]
    have hgoodbye : (goodbye.toList.map fun goodbye => expected id
        (goodbye.1, .goodbye goodbye.2)).sum = 0 := by
      simp [expected, OutboundRequest.expectedResponses]
    unfold outstanding
    dsimp only
    rw [List.map_append, List.sum_append, List.map_map, List.map_map]
    unfold Function.comp
    rw [herrors, hgoodbye]
    omega
  · exact .refl hx

theorem sendRequest_outstanding (hx : h.AllExpecting) (reqId : Id) (req : OutboundRequest) :
    (h.sendRequest reqId req).AllExpecting ∧
      (h.sendRequest reqId req).outstanding id ≤ h.outstanding id + expected id (reqId, req) := by
  unfold sendRequest
  split
  · refine ⟨hx, ?_⟩
    unfold outstanding
    simp only [List.map_append, List.sum_append, List.map_singleton, List.sum_singleton]
    omega
  · refine ⟨hx, ?_⟩
    unfold outstanding push
    simp only [List.map_append, List.sum_append, List.map_singleton, List.sum_singleton, reported]
    omega

theorem injectFullyNegotiatedInbound_spends (hx : h.AllExpecting) (req : InboundRequest)
    (substream : InboundSubstream S) (preferred : ℕ) :
    h.Spends id (h.injectFullyNegotiatedInbound req substream preferred) := by
  unfold injectFullyNegotiatedInbound
  split
  · split
    · refine Spends.trans (Inward.spends hx (.push ?_)) (shutdown_spends ?_ none)
      · rfl
      · exact hx
    · next h' hstore =>
      have hpast : h.Spends id h' := (storeInbound_inward hstore).spends hx
      split
      · have hshut := hpast.trans (shutdown_spends hpast.expecting none)
        exact hshut.trans (Inward.spends hshut.expecting (receiveRequest_inward _ _))
      · exact hpast.trans (Inward.spends hpast.expecting (receiveRequest_inward _ _))
  · exact .refl hx

/-- A new substream may report what its request expects. -/
theorem store_outstanding (hx : h.AllExpecting) {info : Id × OutboundRequest} {sid : SubstreamId}
    {stored : OutboundInfo Id} (hid : stored.reqId = info.1)
    (hstate : stored.state = .requestPendingResponse info.2)
    (hsome : 0 < info.2.expectedResponses)
    (hchunks : stored.remainingChunks =
      if 1 < info.2.expectedResponses then some info.2.expectedResponses else none)
    (hevents : (h'.eventsOut.map (reported id)).sum = (h.eventsOut.map (reported id)).sum)
    (hqueue : h'.dialQueue = h.dialQueue)
    (hstore : h'.outboundSubstreams = h.outboundSubstreams.insert sid stored) :
    h'.AllExpecting ∧ h'.outstanding id ≤ h.outstanding id + expected id info := by
  have hpos : info.2.expectedResponses ≠ 0 := by
    intro hzero
    rw [hzero] at hsome
    exact UInt64.lt_irrefl 0 hsome
  constructor
  · refine hx.insert (fun request hpending hmore => ?_) hstore
    rw [hstate] at hpending
    obtain rfl := OutboundSubstreamState.requestPendingResponse.inj hpending
    exact ⟨_, hchunks.trans (if_pos hmore), hpos⟩
  · have hallowance : stored.allowance ≤ info.2.expectedResponses.toNat := by
      unfold OutboundInfo.allowance
      rw [hstate, hchunks]
      dsimp only
      split
      · exact Nat.le_refl _
      · exact Nat.one_le_iff_ne_zero.2 fun hzero => hpos (UInt64.toNat_inj.1 hzero)
    have hallowed : allowed id sid stored ≤ expected id info := by
      unfold allowed expected
      rw [hid]
      split
      · exact hallowance
      · exact Nat.le_refl 0
    have hinsert := Map.total_insert_add (allowed id) h.outboundSubstreams sid stored
    unfold outstanding
    rw [hevents, hqueue, hstore]
    omega

theorem injectFullyNegotiatedOutbound_outstanding (hx : h.AllExpecting)
    (info : Id × OutboundRequest) (preferred : ℕ) :
    (h.injectFullyNegotiatedOutbound info preferred).AllExpecting ∧
      (h.injectFullyNegotiatedOutbound info preferred).outstanding id ≤
        h.outstanding id + expected id info := by
  have herror : ((h.push (.error (.outbound info.1 info.2.protocol .disconnected))).eventsOut.map
      (reported id)).sum = (h.eventsOut.map (reported id)).sum := by
    simp [push, reported]
  unfold injectFullyNegotiatedOutbound
  dsimp only
  split
  · next hsome =>
    split
    · exact store_outstanding hx rfl rfl hsome rfl herror rfl rfl
    · exact store_outstanding hx rfl rfl hsome rfl rfl rfl rfl
  · split
    · refine ⟨hx, ?_⟩
      unfold outstanding
      dsimp only [push] at herror ⊢
      rw [herror]
      exact Nat.le_add_right _ _
    · exact ⟨hx, Nat.le_add_right _ _⟩

theorem injectDialUpgradeError_outstanding (hx : h.AllExpecting) (info : Id × OutboundRequest)
    (error : ConnectionHandlerUpgrErr) :
    (h.injectDialUpgradeError info error).AllExpecting ∧
      (h.injectDialUpgradeError info error).outstanding id ≤
        h.outstanding id + expected id info := by
  have hfail : (h.failDial info error).AllExpecting ∧
      (h.failDial info error).outstanding id ≤ h.outstanding id + expected id info := by
    refine ⟨hx, ?_⟩
    unfold outstanding failDial push
    simp only [List.map_append, List.sum_append, List.map_singleton, List.sum_singleton, reported]
    omega
  unfold injectDialUpgradeError
  split
  · dsimp only
    split
    · exact sendRequest_outstanding
        (h := { h with outboundIoErrorRetries := h.outboundIoErrorRetries + 1 }) hx info.1 info.2
    · exact hfail
  · exact hfail

end RPCHandler

/-! ## The run -/

namespace Connection

open RPCHandler

variable {Id : Type} {S : EthSpec} [DecidableEq Id] {c : Connection Id S} {id : Id}

/-- The number of responses that have been reported under an id. -/
def responses (id : Id) (log : List (HandlerEvent Id S)) : ℕ := (log.map (reported id)).sum

/-- What may have been reported in the end. -/
def entitled (id : Id) (c : Connection Id S) : ℕ :=
  responses id c.log + c.handler.outstanding id + (c.opening.map (expected id)).sum

/-- What the request of a call expects, if it is made under the id. -/
def requested (id : Id) : Call Id S → ℕ
  | .injectEvent (.request reqId req) => expected id (reqId, req)
  | _ => 0

/-- What a run keeps, `n` being what has been requested. -/
structure Entitled (id : Id) (n : ℕ) (c : Connection Id S) : Prop where
  expecting : c.handler.AllExpecting
  bounded : c.entitled id ≤ n

theorem Entitled.spends {n : ℕ} (hc : c.Entitled id n) {h : RPCHandler Id S}
    (hspends : c.handler.Spends id h) : (c.withHandler h).Entitled id n := by
  refine ⟨hspends.expecting, le_trans ?_ hc.bounded⟩
  have hle := hspends.outstanding
  unfold entitled withHandler
  dsimp only
  omega

theorem Entitled.answer {n : ℕ} (hc : c.Entitled id n) {info : Id × OutboundRequest}
    {inject : RPCHandler Id S → RPCHandler Id S}
    (hinject : (inject c.handler).AllExpecting ∧
      (inject c.handler).outstanding id ≤ c.handler.outstanding id + expected id info) :
    (c.answer info inject).Entitled id n := by
  by_cases hopen : info ∈ c.opening
  · rw [answer_of_mem hopen]
    obtain ⟨hexpecting, hle⟩ := hinject
    have hperm := ((List.perm_cons_erase hopen).map (expected id)).sum_eq
    rw [List.map_cons, List.sum_cons] at hperm
    refine ⟨hexpecting, le_trans ?_ hc.bounded⟩
    unfold entitled withHandler
    dsimp only
    omega
  · rwa [answer_of_not_mem hopen]

theorem Entitled.polled {n : ℕ} (hc : c.Entitled id n) {phase : RPCHandler.Phase Id S}
    (hphase : c.handler.KeepsAllowance id phase) : (c.polled phase).Entitled id n := by
  have hbounded := hc.bounded
  unfold entitled at hbounded
  cases phase with
  | next h => exact hc.spends hphase
  | panicked => exact ⟨hc.expecting, hc.bounded⟩
  | returned r =>
    obtain ⟨event, h⟩ := r
    obtain ⟨hexpecting, hle⟩ := hphase
    refine ⟨?_, ?_⟩
    · cases event <;> exact hexpecting
    · unfold worth at hle
      unfold entitled
      cases event with
      | custom event =>
        show responses id (c.log ++ [event]) + h.outstanding id +
          (c.opening.map (expected id)).sum ≤ n
        unfold responses at hbounded ⊢
        rw [List.map_append, List.sum_append, List.map_singleton, List.sum_singleton]
        dsimp only at hle ⊢
        omega
      | close error =>
        dsimp only at hle
        show responses id c.log + h.outstanding id + (c.opening.map (expected id)).sum ≤ n
        omega
      | outboundSubstreamRequest info =>
        dsimp only at hle
        show responses id c.log + h.outstanding id + ((c.opening ++ [info]).map _).sum ≤ n
        rw [List.map_append, List.sum_append, List.map_singleton, List.sum_singleton]
        omega

theorem Entitled.mono {n m : ℕ} (hc : c.Entitled id n) (hle : n ≤ m) : c.Entitled id m :=
  ⟨hc.expecting, hc.bounded.trans hle⟩

theorem Entitled.step {n : ℕ} (hc : c.Entitled id n) (errorText : ErrorType → String)
    (call : Call Id S) : (c.step errorText call).Entitled id (n + requested id call) := by
  refine step_induction (hc.mono (Nat.le_add_right _ _)) fun hlive => ?_
  have hx := hc.expecting
  cases call with
  | injectEvent event =>
    cases event with
    | request reqId req =>
      have hsent : (c.handler.sendRequest reqId req).AllExpecting ∧
          (c.handler.sendRequest reqId req).outstanding id ≤
            c.handler.outstanding id + expected id (reqId, req) :=
        sendRequest_outstanding hx reqId req
      obtain ⟨hexpecting, hle⟩ := hsent
      have hbounded := hc.bounded
      refine ⟨hexpecting, ?_⟩
      show responses id c.log + (c.handler.sendRequest reqId req).outstanding id +
        (c.opening.map (expected id)).sum ≤ n + expected id (reqId, req)
      unfold entitled at hbounded
      omega
    | response inboundId response =>
      exact hc.spends ((sendResponse_inward errorText _ inboundId response).spends hx)
    | shutdown reqId reason => exact hc.spends (shutdown_spends hx _)
  | injectFullyNegotiatedInbound req substream preferred =>
    exact hc.spends (injectFullyNegotiatedInbound_spends hx req substream preferred)
  | injectFullyNegotiatedOutbound info preferred =>
    dsimp only [handle]
    refine hc.answer ?_
    exact injectFullyNegotiatedOutbound_outstanding hx info preferred
  | injectDialUpgradeError info error =>
    dsimp only [handle]
    refine hc.answer ?_
    exact injectDialUpgradeError_outstanding hx info error
  | poll io => exact hc.polled (poll_keepsAllowance errorText io hx)

theorem Entitled.run {n : ℕ} (hc : c.Entitled id n) (errorText : ErrorType → String)
    (calls : List (Call Id S)) :
    (calls.foldl (Connection.step errorText) c).Entitled id
      (n + (calls.map (requested id)).sum) := by
  induction calls generalizing c n with
  | nil => exact hc
  | cons call calls ih =>
    rw [List.foldl_cons, List.map_cons, List.sum_cons, ← Nat.add_assoc]
    exact ih (hc.step errorText call)

/-- **No more responses are reported than are expected** by the requests that have been made under
the id. -/
theorem responses_le (errorText : ErrorType → String) (calls : List (Call Id S)) (id : Id) :
    responses id (calls.foldl (Connection.step errorText) new).log ≤
      (calls.map (requested id)).sum := by
  have hnew : (new : Connection Id S).Entitled id 0 := by
    refine ⟨fun sid info hinfo => ?_, Nat.le_refl 0⟩
    cases hinfo
  have hbounded := (hnew.run errorText calls).bounded
  unfold entitled at hbounded
  omega

end Connection

end Consentry.Rpc
