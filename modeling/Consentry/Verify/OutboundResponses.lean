import Consentry.Lib.Run
import Consentry.Verify.HandlerTimers
import Consentry.Verify.ReportedEvents

/-!
# What is read from outbound substreams

`RPCHandler.pollTaken` is what a poll takes from the outbound substreams. A response is never
queued: the poll that takes it returns it.

**`Connection.responses_taken`**: the responses that a handler reports are those that it has taken
from its outbound substreams, under the ids of their requests and in the same order.
-/

namespace Consentry.Rpc

open Lib

variable {Id : Type} {S : EthSpec}

/-- The response that an event reports, with the id of its request. -/
def HandlerEvent.response? : HandlerEvent Id S → Option (Id × RPCResponse S)
  | .ok (.response id resp) => some (id, resp)
  | _ => none

/-- The response in a message that is read under an id. -/
def responseRead : Id × RPCCodedResponse S → Option (Id × RPCResponse S)
  | (id, .success resp) => some (id, resp)
  | _ => none

namespace RPCHandler

/-- What the substream of a turn yields, with the id of its request. -/
def takenIn (io : SubstreamId → OutboundPoll S) (r : SubstreamId × RPCHandler Id S) :
    List (Id × RPCCodedResponse S) :=
  match r.2.outboundSubstreams.lookup r.1 with
  | none => []
  | some info =>
    match info.state, (io r.1).next with
    | .requestPendingResponse _, .ready (some (.ok response)) =>
      if r.2.isDeactivated then [] else [(info.reqId, response)]
    | _, _ => []

/-- What a poll takes from the outbound substreams. -/
def pollTaken (errorText : ErrorType → String) (io : PollIo S) (h : RPCHandler Id S) :
    List (Id × RPCCodedResponse S) :=
  match (h.beforeDrive io).andThen (·.driveInbounds io) with
  | .next h =>
    (Flow.rounds (driveOutbound errorText io.outbound)
      (io.outboundOrder.run h.outboundSubstreams.keys) h).flatMap (takenIn io.outbound)
  | _ => []

variable {h h' : RPCHandler Id S}

/-! ## Events that are queued -/

/-- No response is queued. -/
def Quiet (h : RPCHandler Id S) : Prop := ∀ e ∈ h.eventsOut, e.response? = none

theorem quiet_new : (new : RPCHandler Id S).Quiet := List.forall_mem_nil _

theorem Quiet.append (hq : h.Quiet) {events : List (HandlerEvent Id S)}
    (hevents : ∀ e ∈ events, e.response? = none) (heq : h'.eventsOut = h.eventsOut ++ events) :
    h'.Quiet := by
  intro e he
  rw [heq] at he
  exact (List.mem_append.1 he).elim (hq e) (hevents e)

theorem Quiet.push (hq : h.Quiet) {event : HandlerEvent Id S} (hevent : event.response? = none) :
    (h.push event).Quiet :=
  hq.append (List.forall_mem_singleton.2 hevent) rfl

theorem response?_of_inward {event : HandlerEvent Id S} (hevent : outboundId event = none) :
    event.response? = none := by
  rcases event with (_ | _) | _ | _ | _
  · rfl
  · cases hevent
  · rfl
  · cases hevent
  · rfl

theorem Quiet.inward (hq : h.Quiet) (hstep : h.Inward h') : h'.Quiet := by
  obtain ⟨inbound, delay, current, hevents⟩ := hstep
  exact hq.append (fun e he => response?_of_inward (hevents e he)) rfl

theorem Quiet.shutdown (hq : h.Quiet) (goodbye : Option (Id × GoodbyeReason)) :
    (h.shutdown goodbye).Quiet := by
  unfold RPCHandler.shutdown
  split
  · refine hq.append (fun e he => ?_) rfl
    obtain ⟨info, -, rfl⟩ := List.mem_map.1 he
    rfl
  · exact hq

theorem Quiet.sendRequest (hq : h.Quiet) (id : Id) (req : OutboundRequest) :
    (h.sendRequest id req).Quiet := by
  unfold RPCHandler.sendRequest
  split
  · exact hq
  · exact hq.push rfl

theorem Quiet.injectFullyNegotiatedInbound (hq : h.Quiet) (req : InboundRequest)
    (substream : InboundSubstream S) (preferred : ℕ) :
    (h.injectFullyNegotiatedInbound req substream preferred).Quiet := by
  unfold RPCHandler.injectFullyNegotiatedInbound
  split
  · split
    · exact (hq.push rfl).shutdown none
    · next h' hstore =>
      have hq' := hq.inward (storeInbound_inward hstore)
      split
      · exact (hq'.shutdown none).inward (receiveRequest_inward _ _)
      · exact hq'.inward (receiveRequest_inward _ _)
  · exact hq

theorem Quiet.injectFullyNegotiatedOutbound (hq : h.Quiet) (info : Id × OutboundRequest)
    (preferred : ℕ) : (h.injectFullyNegotiatedOutbound info preferred).Quiet := by
  have hopened : ∀ h₁ : RPCHandler Id S, h₁.Quiet →
      (if 0 < info.2.expectedResponses then
        { h₁ with
          outboundSubstreamsDelay := (h₁.outboundSubstreamsDelay.insert preferred
            h₁.currentOutboundSubstreamId).2
          outboundSubstreams := h₁.outboundSubstreams.insert h₁.currentOutboundSubstreamId
            { state := .requestPendingResponse info.2
              delayKey := (h₁.outboundSubstreamsDelay.insert preferred
                h₁.currentOutboundSubstreamId).1
              proto := info.2.protocol
              remainingChunks :=
                if 1 < info.2.expectedResponses then some info.2.expectedResponses else none
              reqId := info.1 }
          currentOutboundSubstreamId := h₁.currentOutboundSubstreamId + 1 }
      else h₁).Quiet := by
    intro h₁ hq₁
    split
    · exact hq₁
    · exact hq₁
  have hless : Quiet { h with dialNegotiated := h.dialNegotiated - 1 } := hq
  unfold RPCHandler.injectFullyNegotiatedOutbound
  refine hopened _ ?_
  split
  · exact hless.push rfl
  · exact hless

theorem Quiet.injectDialUpgradeError (hq : h.Quiet) (info : Id × OutboundRequest)
    (error : ConnectionHandlerUpgrErr) : (h.injectDialUpgradeError info error).Quiet := by
  have hfail : ∀ h₁ : RPCHandler Id S, h₁.Quiet → (h₁.failDial info error).Quiet :=
    fun h₁ hq₁ => hq₁.append (List.forall_mem_singleton.2 rfl) rfl
  unfold RPCHandler.injectDialUpgradeError
  split
  · dsimp only
    split
    · exact Quiet.sendRequest (h := { h with
        outboundIoErrorRetries := h.outboundIoErrorRetries + 1 }) hq info.1 info.2
    · exact hfail _ hq
  · exact hfail h hq

/-! ## A poll -/

/-- The response that a poll reports. -/
def told : ConnectionHandlerEvent Id S → List (Id × RPCResponse S)
  | .custom event => event.response?.toList
  | _ => []

/-- The phase reports the responses among what has been taken, and queues none. -/
def Tells (taken : List (Id × RPCCodedResponse S)) (phase : Phase Id S) : Prop :=
  phase.Meets (fun h => h.Quiet ∧ taken = [])
    (fun r => r.2.Quiet ∧ told r.1 = taken.filterMap responseRead) True

/-- The phase reports no response and queues none. -/
def Silent (phase : Phase Id S) : Prop :=
  phase.Meets Quiet (fun r => r.2.Quiet ∧ told r.1 = []) True

theorem Silent.andThen {phase : Phase Id S} {k : RPCHandler Id S → Phase Id S}
    (hphase : Silent phase) (hk : ∀ h : RPCHandler Id S, h.Quiet → Silent (k h)) :
    Silent (phase.andThen k) :=
  Flow.Meets.andThen hphase hk

theorem Tells.andThen {taken : List (Id × RPCCodedResponse S)} {phase : Phase Id S}
    {k : RPCHandler Id S → Phase Id S} (hphase : Tells taken phase)
    (hk : ∀ h : RPCHandler Id S, h.Quiet → Silent (k h)) : Tells taken (phase.andThen k) := by
  cases phase with
  | next h =>
    obtain ⟨hq, rfl⟩ := hphase
    exact (hk h hq).mono (fun _ hq' => ⟨hq', rfl⟩) (fun _ hr => hr) id
  | returned r => exact hphase
  | panicked => trivial

theorem report_silent (hq : h.Quiet) : Silent h.report := by
  refine h.report_cases.mono (fun h' hnext => ?_) (fun r hr => ?_) id
  · rw [hnext.1]
    exact hq
  · obtain ⟨event, rest, hevents, rfl⟩ := hr
    unfold Quiet at hq
    rw [hevents] at hq
    refine ⟨fun e he => hq e (List.mem_cons_of_mem event he), ?_⟩
    exact congrArg Option.toList (hq event List.mem_cons_self)

theorem pollShutdown_silent (hq : h.Quiet) (timer : Bool) : Silent (h.pollShutdown timer) := by
  refine (pollShutdown_cases timer h).mono (fun h' hnext => ?_) (fun r hr => ?_) id
  · rw [hnext.1]
    exact hq
  · obtain ⟨-, rfl⟩ := hr
    exact ⟨hq, rfl⟩

theorem expireOutbound_silent (hq : h.Quiet) (expiry : Expiry) :
    Silent (h.expireOutbound expiry) := by
  have hexpiry := expireOutbound_expiry expiry h
  generalize h.expireOutbound expiry = phase at hexpiry
  cases hexpiry with
  | failed | timeout => exact ⟨hq, rfl⟩
  | dead | stray => exact hq

/-- A phase on the inbound side. -/
theorem Silent.of_inward (hq : h.Quiet) {phase : Phase Id S} {Q : _ → Prop}
    (hphase : phase.Meets h.Inward Q True) (hQ : ∀ r, Q r → r.2.Quiet ∧ told r.1 = []) :
    Silent phase :=
  hphase.mono (fun _ hstep => hq.inward hstep) hQ id

/-- What comes before the outbound substreams reports no response. -/
theorem front_silent (io : PollIo S) (hq : h.Quiet) :
    Silent ((h.beforeDrive io).andThen (·.driveInbounds io)) := by
  unfold beforeDrive beforeTimers
  refine Silent.andThen (Silent.andThen (Silent.andThen (report_silent hq) fun h hq =>
    pollShutdown_silent hq io.shutdownTimer) fun h hq => ?_) fun h hq => ?_
  · refine Silent.andThen ?_ fun h hq => ?_
    · refine .of_inward hq (expireInbounds_inward io.inboundTimers h) fun r hr => ?_
      obtain ⟨⟨error, herror⟩, hstep⟩ := hr
      exact ⟨hq.inward hstep, by rw [herror]; rfl⟩
    · exact Flow.Meets.each_of_step (fun expiry h hq => expireOutbound_silent hq expiry)
        io.outboundTimers hq
  · exact .of_inward hq (driveInbounds_inward io h) fun _ hr => hr.elim

theorem establish_silent (hq : h.Quiet) : Silent h.establish := by
  refine h.establish_cases.mono (fun h' hnext => ?_) (fun r hr => ?_) id
  · rw [hnext.1]
    exact hq
  · obtain ⟨info, rest, -, -, rfl⟩ := hr
    exact ⟨hq, rfl⟩

theorem completeShutdown_silent (hq : h.Quiet) : Silent h.completeShutdown := by
  refine h.completeShutdown_cases.mono (fun h' hnext => ?_) (fun r hr => ?_) id
  · rw [hnext.1]
    exact hq
  · rw [hr]
    exact ⟨hq, rfl⟩

/-- **A response that is taken** is reported. -/
theorem receiveResponse_tells (errorText : ErrorType → String) (hq : h.Quiet) (id : SubstreamId)
    (info : OutboundInfo Id) (request : OutboundRequest) (response : RPCCodedResponse S) :
    Tells [(info.reqId, response)] (h.receiveResponse errorText id info request response) := by
  have htold : told (.custom (received errorText info.reqId info.proto response)) =
      [(info.reqId, response)].filterMap responseRead := by
    cases response <;> rfl
  unfold receiveResponse
  dsimp only
  split
  · split
    · exact ⟨hq, htold⟩
    · cases h.outboundSubstreamsDelay.reset info.delayKey with
      | none => trivial
      | some delay => exact ⟨hq, htold⟩
  · exact ⟨hq, htold⟩

theorem removeOutbound_tells (hq : h.Quiet) (id : SubstreamId) (info : OutboundInfo Id)
    {k : RPCHandler Id S → Phase Id S} (hk : ∀ h' : RPCHandler Id S, h'.Quiet → Tells [] (k h')) :
    Tells [] ((h.removeOutbound id info).andThen k) := by
  unfold removeOutbound
  cases h.outboundSubstreamsDelay.remove info.delayKey with
  | none => trivial
  | some delay => exact hk _ hq

/-- The end of a stream is no response. -/
theorem streamEnd_tells (hq : h.Quiet) (info : OutboundInfo Id) (request : OutboundRequest) :
    Tells [] ((Flow.ofOption (streamEnd info request)).andThen fun event =>
      .returned (.custom event, h) : Phase Id S) := by
  unfold streamEnd
  split
  · cases request.streamTermination with
    | none => trivial
    | some t => exact ⟨hq, rfl⟩
  · exact ⟨hq, rfl⟩

theorem driveOutbound_tells (errorText : ErrorType → String) (io : SubstreamId → OutboundPoll S)
    (id : SubstreamId) (hq : h.Quiet) :
    Tells (takenIn io (id, h)) (h.driveOutbound errorText io id) := by
  unfold driveOutbound takenIn
  dsimp only
  cases hinfo : h.outboundSubstreams.lookup id with
  | none => trivial
  | some info =>
    dsimp only
    cases hstate : info.state with
    | poisoned => trivial
    | closing =>
      dsimp only
      cases (io id).close with
      | pending => exact ⟨hq, rfl⟩
      | ready res =>
        refine removeOutbound_tells hq id info fun h' hq' => ?_
        split
        · exact ⟨hq', rfl⟩
        · exact ⟨hq', rfl⟩
    | requestPendingResponse request =>
      dsimp only
      cases hdeactivated : h.isDeactivated with
      | true =>
        rw [if_pos rfl]
        have hpushed : (h.push (.error (.outbound info.reqId info.proto .disconnected))).Quiet :=
          hq.push rfl
        cases (io id).next with
        | pending => exact ⟨hpushed, rfl⟩
        | ready result =>
          rcases result with _ | _ | response
          · exact ⟨hpushed, rfl⟩
          · exact ⟨hpushed, rfl⟩
          · exact ⟨hpushed, if_pos rfl⟩
      | false =>
        rw [if_neg Bool.false_ne_true]
        cases (io id).next with
        | pending => exact ⟨hq, rfl⟩
        | ready result =>
          rcases result with _ | e | response
          · exact removeOutbound_tells hq id info fun h' hq' => streamEnd_tells hq' info request
          · exact removeOutbound_tells hq id info fun h' hq' => ⟨hq', rfl⟩
          · exact receiveResponse_tells errorText hq id info request response

theorem driveOutbounds_tells (errorText : ErrorType → String) (io : PollIo S) (hq : h.Quiet) :
    Tells ((Flow.rounds (driveOutbound errorText io.outbound)
      (io.outboundOrder.run h.outboundSubstreams.keys) h).flatMap (takenIn io.outbound))
      (h.driveOutbounds errorText io) := by
  have hstart : h.Quiet ∧ ([] : List (Id × RPCCodedResponse S)) = [] := ⟨hq, rfl⟩
  refine Flow.Meets.each_log (I := fun log h => h.Quiet ∧ log = [])
    (Q := fun log (r : ConnectionHandlerEvent Id S × RPCHandler Id S) =>
      r.2.Quiet ∧ told r.1 = log.filterMap responseRead) (takenIn io.outbound)
    (fun log id h hlog => ?_) hstart
  obtain ⟨hq, rfl⟩ := hlog
  exact driveOutbound_tells errorText io.outbound id hq

/-- **A poll reports the response that it takes**, if it takes one. -/
theorem poll_tells (errorText : ErrorType → String) (io : PollIo S) (hq : h.Quiet) :
    Tells (h.pollTaken errorText io) (h.poll errorText io) := by
  have hfront := front_silent io hq
  unfold poll pollTaken
  rw [settle_eq]
  generalize (h.beforeDrive io).andThen (·.driveInbounds io) = front at hfront
  cases front with
  | next h =>
    refine (driveOutbounds_tells errorText io hfront).andThen fun h hq => ?_
    exact (establish_silent hq).andThen fun h hq => completeShutdown_silent hq
  | returned r => exact hfront
  | panicked => trivial

end RPCHandler

/-! ## Connections -/

namespace Connection

open RPCHandler

variable {Id : Type} {S : EthSpec} {c : Connection Id S}

/-- What a call takes from the outbound substreams. -/
def taken (errorText : ErrorType → String) (c : Connection Id S) :
    Call Id S → List (Id × RPCCodedResponse S)
  | .poll io => if c.panicked then [] else c.handler.pollTaken errorText io
  | _ => []

/-- The responses that have been reported are those in what has been taken. -/
structure Told (log : List (Id × RPCCodedResponse S)) (c : Connection Id S) : Prop where
  safe : c.Safe
  quiet : c.handler.Quiet
  reported : c.log.filterMap HandlerEvent.response? = log.filterMap responseRead

theorem told_new : Told [] (new : Connection Id S) := ⟨safe_new, quiet_new, rfl⟩

theorem polled_tells {taken : List (Id × RPCCodedResponse S)} {phase : Phase Id S}
    (htells : Tells taken phase) (hlive : (c.polled phase).panicked = false) :
    (c.polled phase).handler.Quiet ∧ (c.polled phase).log.filterMap HandlerEvent.response? =
      c.log.filterMap HandlerEvent.response? ++ taken.filterMap responseRead := by
  cases phase with
  | next h =>
    obtain ⟨hq, rfl⟩ := htells
    exact ⟨hq, (List.append_nil _).symm⟩
  | panicked => cases hlive
  | returned r =>
    obtain ⟨event, h⟩ := r
    obtain ⟨hq, htold⟩ := htells
    rw [← htold]
    cases event with
    | close error => exact ⟨hq, (List.append_nil _).symm⟩
    | outboundSubstreamRequest info => exact ⟨hq, (List.append_nil _).symm⟩
    | custom event =>
      refine ⟨hq, ?_⟩
      show (c.log ++ [event]).filterMap HandlerEvent.response? = _
      rw [List.filterMap_append]
      refine congrArg (c.log.filterMap HandlerEvent.response? ++ ·) ?_
      cases hevent : event.response? with
      | none => simp [told, hevent]
      | some response => simp [told, hevent]

variable [DecidableEq Id]

theorem Told.answer {log : List (Id × RPCCodedResponse S)} (ht : Told log c)
    (info : Id × OutboundRequest) {inject : RPCHandler Id S → RPCHandler Id S}
    (hinject : (inject c.handler).Quiet) :
    (c.answer info inject).handler.Quiet ∧ (c.answer info inject).log = c.log := by
  by_cases hopen : info ∈ c.opening
  · rw [answer_of_mem hopen]
    exact ⟨hinject, rfl⟩
  · rw [answer_of_not_mem hopen]
    exact ⟨ht.quiet, rfl⟩

/-- A call reports the responses that it takes. -/
theorem Told.step {log : List (Id × RPCCodedResponse S)} (ht : Told log c)
    (errorText : ErrorType → String) (call : Call Id S) :
    Told (log ++ taken errorText c call) (c.step errorText call) := by
  have hsafe := (ht.safe.step errorText call).1
  have hlive := hsafe.live
  rw [step_of_live ht.safe.live] at hsafe hlive ⊢
  suffices hstep : (c.handle errorText call).handler.Quiet ∧
      (c.handle errorText call).log.filterMap HandlerEvent.response? =
        c.log.filterMap HandlerEvent.response? ++ (taken errorText c call).filterMap responseRead by
    refine ⟨hsafe, hstep.1, ?_⟩
    rw [hstep.2, ht.reported, List.filterMap_append]
  -- a call that is no poll takes nothing
  have hquiet : ∀ c' : Connection Id S, c'.handler.Quiet ∧ c'.log = c.log →
      c'.handler.Quiet ∧ c'.log.filterMap HandlerEvent.response? =
        c.log.filterMap HandlerEvent.response? ++
          ([] : List (Id × RPCCodedResponse S)).filterMap responseRead := by
    rintro c' ⟨hq, hlog⟩
    rw [hlog]
    exact ⟨hq, (List.append_nil _).symm⟩
  cases call with
  | injectEvent event =>
    cases event with
    | request id req => exact hquiet _ ⟨ht.quiet.sendRequest id req, rfl⟩
    | response inboundId response =>
      exact hquiet _ ⟨ht.quiet.inward (sendResponse_inward errorText _ inboundId response), rfl⟩
    | shutdown id reason => exact hquiet _ ⟨ht.quiet.shutdown _, rfl⟩
  | injectFullyNegotiatedInbound req substream preferred =>
    exact hquiet _ ⟨ht.quiet.injectFullyNegotiatedInbound req substream preferred, rfl⟩
  | injectFullyNegotiatedOutbound info preferred =>
    exact hquiet _ (ht.answer info (ht.quiet.injectFullyNegotiatedOutbound info preferred))
  | injectDialUpgradeError info error =>
    exact hquiet _ (ht.answer info (ht.quiet.injectDialUpgradeError info error))
  | poll io =>
    have htells := poll_tells errorText io ht.quiet
    dsimp only [taken]
    rw [if_neg (by rw [ht.safe.live]; exact Bool.false_ne_true)]
    exact polled_tells htells hlive

/-- **The responses that a handler reports** are those that it has taken from its outbound
substreams, in the same order. -/
theorem responses_taken (errorText : ErrorType → String) (calls : List (Call Id S)) :
    (calls.foldl (step errorText) new).log.filterMap HandlerEvent.response? =
      (outputs (step errorText) (taken errorText) new calls).filterMap responseRead :=
  (outputs_induction (I := Told) (fun _ _ call ht => ht.step errorText call) calls
    told_new).reported

end Connection

end Consentry.Rpc
