import Consentry.Verify.HandlerTimers

/-!
# What the loop on an inbound substream does

`InboundInfo.handed` are the messages that the loop hands over to be sent. `DriveStable P` says
that the three things the loop does to a substream that stays open keep `P`, which may speak
about the messages handed over so far: it starts with the next item, it waits for the sink, and
it goes on when an item has been sent. `DriveStable.drive` is the rule for the whole loop.
-/

namespace Consentry.Rpc

open Lib

/-! ## A poll of the future -/

namespace SendFuture

variable {S : EthSpec} {io : SinkPoll} {fut : SendFuture S}

/-- The future closes the stream when it is done. -/
def closes : SendFuture S → Bool
  | terminating _ => true
  | sending _ message lastChunk =>
    lastChunk || match message with
      | .error _ _ => true
      | _ => false
  | closing _ _ => true

@[simp] theorem closes_new (substream : InboundSubstream S) (message : RPCCodedResponse S)
    (lastChunk : Bool) :
    (SendFuture.new substream message lastChunk).closes = (lastChunk || message.closeAfter) := by
  cases message with
  | streamTermination t => exact (Bool.or_true lastChunk).symm
  | success | error => rfl

/-- What a poll makes of a future. -/
inductive Polled : SendFuture S → SendFuture S ⊕ SendResult S → Prop
  | wait (fut : SendFuture S) : Polled fut (.inl fut)
  | close (substream : InboundSubstream S) (message : RPCCodedResponse S) (lastChunk : Bool)
      (sendResult : Except RPCError Unit) :
      Polled (sending substream message lastChunk) (.inl (closing substream sendResult))
  | sent {substream : InboundSubstream S} {message : RPCCodedResponse S} {lastChunk : Bool}
      (hopen : (sending substream message lastChunk).closes = false) :
      Polled (sending substream message lastChunk) (.inr (.ok (substream, false)))
  | closed (fut : SendFuture S) (substream : InboundSubstream S) :
      Polled fut (.inr (.ok (substream, true)))
  | failed (fut : SendFuture S) (error : RPCError) : Polled fut (.inr (.error error))

theorem pollClose_cases (io : SinkPoll) (substream : InboundSubstream S)
    (sendResult : Except RPCError Unit) :
    pollClose io substream sendResult = .inl (closing substream sendResult) ∨
      pollClose io substream sendResult = .inr (.ok (substream, true)) ∨
      ∃ error, pollClose io substream sendResult = .inr (.error error) := by
  unfold pollClose
  cases io.close with
  | pending => exact .inl rfl
  | ready closeResult =>
    cases sendResult with
    | error e => exact .inr (.inr ⟨e, rfl⟩)
    | ok =>
      cases closeResult with
      | error e => exact .inr (.inr ⟨e, rfl⟩)
      | ok => exact .inr (.inl rfl)

theorem poll_polled (io : SinkPoll) (fut : SendFuture S) : Polled fut (fut.poll io) := by
  unfold poll
  cases fut with
  | terminating substream =>
    dsimp only
    cases io.close with
    | pending => exact .wait _
    | ready res =>
      cases res with
      | error e => exact .failed _ e
      | ok => exact .closed _ substream
  | closing substream sendResult =>
    dsimp only
    rcases pollClose_cases io substream sendResult with hwait | hclosed | ⟨e, hfailed⟩
    · rw [hwait]
      exact .wait _
    · rw [hclosed]
      exact .closed _ substream
    · rw [hfailed]
      exact .failed _ e
  | sending substream message lastChunk =>
    dsimp only
    cases io.send with
    | pending => exact .wait _
    | ready sendResult =>
      refine iteInduction (fun _ => ?_) fun hopen => ?_
      · rcases pollClose_cases io substream sendResult with hwait | hclosed | ⟨e, hfailed⟩
        · rw [hwait]
          exact .close substream message lastChunk sendResult
        · rw [hclosed]
          exact .closed _ substream
        · rw [hfailed]
          exact .failed _ e
      · rw [Bool.or_eq_true, not_or] at hopen
        cases sendResult with
        | error e => exact .failed _ e
        | ok => exact .sent (Bool.eq_false_of_not_eq_true hopen.1)

/-- A future that ends with an open stream was not to close it. -/
theorem not_closes_of_open {substream : InboundSubstream S}
    (hpoll : fut.poll io = .inr (.ok (substream, false))) : fut.closes = false := by
  have hpolled := poll_polled io fut
  rw [hpoll] at hpolled
  cases hpolled with
  | sent hopen => exact hopen

/-- A future whose sink answers is done. -/
theorem poll_ne_inl (hready : io.send ≠ .pending ∧ io.close ≠ .pending) {fut' : SendFuture S} :
    fut.poll io ≠ .inl fut' := by
  obtain ⟨hsend, hclose⟩ := hready
  have hpollClose : ∀ substream sendResult,
      pollClose io substream sendResult ≠ (.inl fut' : SendFuture S ⊕ SendResult S) := by
    intro substream sendResult
    unfold pollClose
    split
    · next hpending => exact absurd hpending hclose
    · split <;> simp
  unfold poll
  cases fut with
  | terminating substream =>
    dsimp only
    split
    · next hpending => exact absurd hpending hclose
    · simp
  | closing substream sendResult => exact hpollClose substream sendResult
  | sending substream message lastChunk =>
    dsimp only
    split
    · next hpending => exact absurd hpending hsend
    · refine iteInduction (motive := (· ≠ Sum.inl fut')) (fun _ => hpollClose _ _) fun _ => ?_
      simp

end SendFuture

/-! ## The loop -/

namespace InboundInfo

variable {S : EthSpec}

/-- The messages that the `Busy` arm and the turns behind it hand over. -/
def handedBusy (deactivated : Bool) (remainingChunks : UInt64) (fut : SendFuture S)
    (io : List SinkPoll) (pendingItems : List (RPCCodedResponse S)) : List (RPCCodedResponse S) :=
  match pendingItems with
  | [] => []
  | message :: pendingItems =>
    match fut.poll (io.headD .pending) with
    | .inr (.ok (substream, false)) =>
      if deactivated then []
      else
        message :: handedBusy deactivated (saturatingPred remainingChunks)
          (.new substream message (saturatingPred remainingChunks ≤ 1)) io.tail pendingItems
    | _ => []

/-- Nothing more is handed over when the future does not end with a stream that is open. -/
theorem handedBusy_eq_nil {deactivated : Bool} {remainingChunks : UInt64} {fut : SendFuture S}
    {io : List SinkPoll} {pendingItems : List (RPCCodedResponse S)}
    (hpoll : ∀ substream, fut.poll (io.headD .pending) ≠ .inr (.ok (substream, false))) :
    handedBusy deactivated remainingChunks fut io pendingItems = [] := by
  unfold handedBusy
  split
  · rfl
  · split
    · next hopen => exact absurd hopen (hpoll _)
    · rfl

/-- The messages that the loop hands over to the substream. -/
def handed (deactivated : Bool) (info : InboundInfo S) (io : List SinkPoll) :
    List (RPCCodedResponse S) :=
  match info.state with
  | .idle substream =>
    if deactivated then []
    else
      match info.pendingItems with
      | message :: pendingItems =>
        message :: handedBusy deactivated info.remainingChunks
          (.new substream message (info.remainingChunks ≤ 1)) io pendingItems
      | [] => []
  | .busy fut => handedBusy deactivated info.remainingChunks fut io info.pendingItems
  | .poisoned => []

/-- What the loop does to a substream that stays open keeps `P`. -/
structure DriveStable (deactivated : Bool)
    (P : List (RPCCodedResponse S) → InboundInfo S → Prop) : Prop where
  start : ∀ {log info substream message pendingItems}, deactivated = false →
    info.state = .idle substream → info.pendingItems = message :: pendingItems → P log info →
      P (log ++ [message]) { info with
        state := .busy (.new substream message (info.remainingChunks ≤ 1))
        pendingItems := pendingItems }
  wait : ∀ {log info fut fut' io}, info.state = .busy fut → fut.poll io = .inl fut' →
    P log info → P log { info with state := .busy fut' }
  sent : ∀ {log info fut substream io}, info.state = .busy fut →
    fut.poll io = .inr (.ok (substream, false)) → P log info → P log { info with
      state := .idle substream
      remainingChunks := saturatingPred info.remainingChunks }

namespace DriveStable

variable {deactivated : Bool} {P : List (RPCCodedResponse S) → InboundInfo S → Prop}
  {info : InboundInfo S} {delay : DelayQueue SubstreamId} {io : List SinkPoll}
  {log : List (RPCCodedResponse S)} {d : InboundDrive S}

/-- The substream that is left is `last`, if it is not to be removed. -/
def Leaves (P : List (RPCCodedResponse S) → InboundInfo S → Prop)
    (log : List (RPCCodedResponse S)) (d : InboundDrive S) : Prop :=
  ∃ last, P log last ∧ (d.remove = false → d.info = last)

theorem leaves_finish {errors : List RPCError} {pendingItems : List (RPCCodedResponse S)}
    {last : InboundInfo S} (hlast : P log last)
    (hd : info.finish delay errors pendingItems = some d) : Leaves P log d := by
  obtain ⟨delay', -, rfl⟩ := Option.map_eq_some_iff.1 hd
  exact ⟨last, hlast, fun hkept => by cases hkept⟩

theorem driveBusy (hP : DriveStable deactivated P) {fut : SendFuture S}
    {pendingItems : List (RPCCodedResponse S)}
    (h : P log { info with state := .busy fut, pendingItems := pendingItems })
    (hd : info.driveBusy deactivated delay fut io pendingItems = some d) :
    Leaves P (log ++ handedBusy deactivated info.remainingChunks fut io pendingItems) d := by
  fun_induction InboundInfo.driveBusy deactivated info delay fut io pendingItems generalizing log
    with
  | case1 info delay fut io fut' pendingItems hpoll =>
    obtain rfl := Option.some.inj hd
    rw [handedBusy_eq_nil (fun _ => by rw [hpoll]; simp), List.append_nil]
    exact ⟨_, hP.wait rfl hpoll h, fun _ => rfl⟩
  | case2 info delay fut io substream hpoll =>
    obtain ⟨delay', -, rfl⟩ := Option.map_eq_some_iff.1 hd
    unfold handedBusy
    rw [List.append_nil]
    exact ⟨_, hP.sent rfl hpoll h, fun _ => rfl⟩
  | case3 info delay fut io substream message pendingItems hpoll info' =>
    rename_i ih
    obtain ⟨delay', -, hd⟩ := Option.bind_eq_some_iff.1 hd
    have hsent : P log { info' with
        state := .idle substream
        pendingItems := message :: pendingItems } := hP.sent rfl hpoll h
    unfold handedBusy
    rw [hpoll]
    dsimp only
    split at hd
    · next hdeactivated =>
      obtain rfl := Option.some.inj hd
      rw [if_pos hdeactivated, List.append_nil]
      exact ⟨_, hsent, fun _ => rfl⟩
    · next hactive =>
      have hstart := hP.start (Bool.eq_false_of_not_eq_true hactive) (by rfl) (by rfl) hsent
      rw [if_neg hactive, List.append_cons]
      exact ih delay' hstart hd
  | case4 info delay fut io substream pendingItems hpoll =>
    rw [handedBusy_eq_nil (fun _ => by rw [hpoll]; simp), List.append_nil]
    exact leaves_finish h hd
  | case5 info delay fut io error pendingItems hpoll =>
    rw [handedBusy_eq_nil (fun _ => by rw [hpoll]; simp), List.append_nil]
    exact leaves_finish h hd

/-- **The rule for the loop on a substream.** -/
theorem drive (hP : DriveStable deactivated P) (log : List (RPCCodedResponse S)) (h : P log info)
    (hd : info.drive deactivated delay io = some d) :
    Leaves P (log ++ info.handed deactivated io) d := by
  unfold InboundInfo.drive at hd
  unfold InboundInfo.handed
  cases hstate : info.state with
  | poisoned =>
    rw [hstate] at hd
    cases hd
  | busy fut =>
    rw [hstate] at hd
    refine hP.driveBusy ?_ hd
    rwa [← hstate]
  | idle substream =>
    rw [hstate] at hd
    dsimp only at hd ⊢
    have hsame : { info with state := .idle substream } = info := by rw [← hstate]
    cases deactivated with
    | false =>
      simp only [Bool.not_false, if_true, Bool.false_eq_true, if_false] at hd ⊢
      cases hpending : info.pendingItems with
      | cons message pendingItems =>
        rw [hpending] at hd
        rw [List.append_cons]
        exact hP.driveBusy (hP.start rfl hstate hpending h) hd
      | nil =>
        rw [hpending] at hd
        obtain rfl := Option.some.inj hd
        rw [List.append_nil]
        refine ⟨info, h, fun _ => ?_⟩
        unfold leave
        rw [← hpending, hsame]
    | true =>
      simp only [Bool.not_true, Bool.false_eq_true, if_false, if_true, List.append_nil] at hd ⊢
      split at hd
      · obtain rfl := Option.some.inj hd
        refine ⟨info, h, fun _ => ?_⟩
        unfold leave
        exact hsame
      · exact leaves_finish h hd

end DriveStable

end InboundInfo

/-! ## The phases around the loops -/

namespace RPCHandler

variable {Id : Type} {S : EthSpec} {h h' h'' : RPCHandler Id S}

/-- The inbound substreams and the id of the next one are as they were, and the handler is
deactivated if it was. -/
structure SameInbound (h h' : RPCHandler Id S) : Prop where
  inboundSubstreams : h'.inboundSubstreams = h.inboundSubstreams
  isDeactivated : h'.isDeactivated = h.isDeactivated
  currentInboundSubstreamId : h'.currentInboundSubstreamId = h.currentInboundSubstreamId

theorem SameInbound.refl (h : RPCHandler Id S) : h.SameInbound h := ⟨rfl, rfl, rfl⟩

theorem SameInbound.trans (hl : h.SameInbound h') (hr : h'.SameInbound h'') : h.SameInbound h'' :=
  ⟨hr.1.trans hl.1, hr.2.trans hl.2, hr.3.trans hl.3⟩

theorem shutdown_sameInbound (h : RPCHandler Id S) (goodbye : Option (Id × GoodbyeReason)) :
    h.SameInbound (h.shutdown goodbye) := by
  unfold shutdown
  split
  · next hstate =>
    refine ⟨rfl, ?_, rfl⟩
    unfold RPCHandler.isDeactivated
    rw [hstate]
    rfl
  · exact .refl h

theorem sendRequest_sameInbound (h : RPCHandler Id S) (id : Id) (req : OutboundRequest) :
    h.SameInbound (h.sendRequest id req) := by
  unfold sendRequest
  split <;> exact ⟨rfl, rfl, rfl⟩

theorem injectFullyNegotiatedOutbound_sameInbound (h : RPCHandler Id S)
    (info : Id × OutboundRequest) (preferred : ℕ) :
    h.SameInbound (h.injectFullyNegotiatedOutbound info preferred) := by
  unfold injectFullyNegotiatedOutbound
  dsimp only
  split <;> split <;> exact ⟨rfl, rfl, rfl⟩

theorem injectDialUpgradeError_sameInbound (h : RPCHandler Id S) (info : Id × OutboundRequest)
    (error : ConnectionHandlerUpgrErr) : h.SameInbound (h.injectDialUpgradeError info error) := by
  have hfail : h.SameInbound (h.failDial info error) := ⟨rfl, rfl, rfl⟩
  unfold injectDialUpgradeError
  split
  · dsimp only
    split
    · have hretry : h.SameInbound
          { h with outboundIoErrorRetries := h.outboundIoErrorRetries + 1 } := ⟨rfl, rfl, rfl⟩
      exact hretry.trans (sendRequest_sameInbound _ info.1 info.2)
    · exact hfail
  · exact hfail

/-- What `send_response` does: the response is queued where the substream is held and the
handler is not deactivated, and is dropped elsewhere. -/
theorem sendResponse_cases (errorText : ErrorType → String) (h : RPCHandler Id S)
    (inboundId : SubstreamId) (response : RPCCodedResponse S) :
    ((h.inboundSubstreams.lookup inboundId = none ∨ h.isDeactivated = true) ∧
      h.SameInbound (h.sendResponse errorText inboundId response)) ∨
    ∃ info, h.inboundSubstreams.lookup inboundId = some info ∧ h.isDeactivated = false ∧
      (h.sendResponse errorText inboundId response).inboundSubstreams =
        h.inboundSubstreams.insert inboundId
          { info with pendingItems := info.pendingItems ++ [response] } ∧
      (h.sendResponse errorText inboundId response).isDeactivated = h.isDeactivated ∧
      (h.sendResponse errorText inboundId response).currentInboundSubstreamId =
        h.currentInboundSubstreamId := by
  unfold RPCHandler.sendResponse
  cases hinfo : h.inboundSubstreams.lookup inboundId with
  | none => exact .inl ⟨.inl rfl, .refl h⟩
  | some info =>
    cases response with
    | error code reason =>
      dsimp only
      split
      · next hstate => exact .inl ⟨.inr (decide_eq_true hstate), ⟨rfl, rfl, rfl⟩⟩
      · next hlive => exact .inr ⟨info, rfl, decide_eq_false hlive, rfl, rfl, rfl⟩
    | success | streamTermination =>
      dsimp only
      split
      · next hstate => exact .inl ⟨.inr (decide_eq_true hstate), ⟨rfl, rfl, rfl⟩⟩
      · next hlive => exact .inr ⟨info, rfl, decide_eq_false hlive, rfl, rfl, rfl⟩

theorem sendResponse_current (errorText : ErrorType → String) (h : RPCHandler Id S)
    (inboundId : SubstreamId) (response : RPCCodedResponse S) :
    (h.sendResponse errorText inboundId response).currentInboundSubstreamId =
      h.currentInboundSubstreamId := by
  rcases sendResponse_cases errorText h inboundId response with
    ⟨-, hsame⟩ | ⟨-, -, -, -, -, hcurrent⟩
  · exact hsame.currentInboundSubstreamId
  · exact hcurrent

/-- The phase has nothing to do with the inbound substreams. -/
def KeepsInbound (h : RPCHandler Id S) (phase : Phase Id S) : Prop :=
  phase.Meets h.SameInbound (fun r => h.SameInbound r.2) True

theorem KeepsInbound.andThen {phase : Phase Id S} {k : RPCHandler Id S → Phase Id S}
    (hphase : h.KeepsInbound phase) (hk : ∀ h' : RPCHandler Id S, h'.KeepsInbound (k h')) :
    h.KeepsInbound (phase.andThen k) :=
  Flow.Meets.andThen hphase fun h' hpast =>
    (hk h').mono (fun _ hnext => hpast.trans hnext) (fun _ hr => hpast.trans hr) fun hn => hn

theorem KeepsInbound.each {ι : Type} {f : ι → RPCHandler Id S → Phase Id S}
    (hf : ∀ i (h' : RPCHandler Id S), h'.KeepsInbound (f i h')) (is : List ι)
    (h : RPCHandler Id S) : h.KeepsInbound (Flow.each f is h) :=
  Flow.Meets.each_of_step (fun i h' hpast => (hf i h').mono (fun _ hnext => hpast.trans hnext)
    (fun _ hr => hpast.trans hr) fun hn => hn) is (.refl h)

theorem report_keepsInbound (h : RPCHandler Id S) : h.KeepsInbound h.report := by
  refine h.report_cases.mono (fun h' hnext => ?_) (fun r hr => ?_) fun hn => hn
  · rw [hnext.1]
    exact .refl h
  · obtain ⟨event, rest, -, rfl⟩ := hr
    exact ⟨rfl, rfl, rfl⟩

theorem expireOutbounds_keepsInbound (timers : List Expiry) (h : RPCHandler Id S) :
    h.KeepsInbound (Flow.each expireOutbound timers h) := by
  refine KeepsInbound.each (fun expiry h' => ?_) timers h
  have hexpiry := expireOutbound_expiry expiry h'
  generalize h'.expireOutbound expiry = phase at hexpiry
  cases hexpiry <;> exact SameInbound.mk rfl rfl rfl

theorem driveOutbounds_keepsInbound (errorText : ErrorType → String) (io : PollIo S)
    (h : RPCHandler Id S) : h.KeepsInbound (h.driveOutbounds errorText io) := by
  refine KeepsInbound.each (fun id h' => ?_) _ h
  cases hinfo : h'.outboundSubstreams.lookup id with
  | none =>
    unfold driveOutbound
    rw [hinfo]
    trivial
  | some info =>
    have hturn : OutboundTurn errorText (io.outbound id) h' id info
        (h'.driveOutbound errorText io.outbound id) := driveOutbound_turn hinfo
    generalize h'.driveOutbound errorText io.outbound id = phase at hturn
    cases hturn with
    | panic => trivial
    | _ => exact SameInbound.mk rfl rfl rfl

/-- What a poll does once it has driven the inbound substreams. -/
def afterInbounds (errorText : ErrorType → String) (io : PollIo S) (h : RPCHandler Id S) :
    Phase Id S :=
  (h.driveOutbounds errorText io).andThen fun h =>
  h.establish.andThen fun h =>
  h.completeShutdown

theorem afterInbounds_keepsInbound (errorText : ErrorType → String) (io : PollIo S)
    (h : RPCHandler Id S) : h.KeepsInbound (h.afterInbounds errorText io) := by
  refine (driveOutbounds_keepsInbound errorText io h).andThen fun h => ?_
  refine KeepsInbound.andThen ?_ fun h => ?_
  · refine h.establish_cases.mono (fun h' hnext => ?_) (fun r hr => ?_) fun hn => hn
    · rw [hnext.1]
      exact .refl h
    · obtain ⟨info, rest, -, -, rfl⟩ := hr
      exact ⟨rfl, rfl, rfl⟩
  · refine h.completeShutdown_cases.mono (fun h' hnext => ?_) (fun r hr => ?_) fun hn => hn
    · rw [hnext.1]
      exact .refl h
    · rw [hr]
      exact .refl h

theorem beforeTimers_cases (io : PollIo S) (h : RPCHandler Id S) :
    (h.beforeTimers io).Meets (fun h' => h' = h)
      (fun r => r.2.inboundSubstreams = h.inboundSubstreams ∧
        r.2.currentInboundSubstreamId = h.currentInboundSubstreamId) True := by
  refine Flow.Meets.andThen (h.report_cases.mono (fun _ hnext => hnext.1) (fun r hr => ?_)
    fun hn => hn) fun h₁ hsame => ?_
  · obtain ⟨event, rest, -, rfl⟩ := hr
    exact ⟨rfl, rfl⟩
  · subst hsame
    refine (pollShutdown_cases io.shutdownTimer h₁).mono (fun _ hnext => hnext.1) (fun r hr => ?_)
      fun hn => hn
    obtain ⟨-, rfl⟩ := hr
    exact ⟨rfl, rfl⟩

/-- A poll follows the timers where no event is queued and the shutdown is not over. -/
theorem beforeTimers_eq_next {io : PollIo S} : h.beforeTimers io = .next h' ↔
    h = h' ∧ h.eventsOut = [] ∧ ¬(h.state = .shuttingDown ∧ io.shutdownTimer = true) := by
  unfold beforeTimers report pollShutdown
  constructor
  · intro hnext
    split at hnext
    · cases hnext
    · next hevents =>
      rw [Flow.next_andThen] at hnext
      split at hnext
      · cases hnext
      · next hother =>
        exact ⟨Flow.next.inj hnext, hevents, fun hdue => hother hdue.1 hdue.2⟩
  · rintro ⟨rfl, hevents, hdue⟩
    rw [hevents, Flow.next_andThen]
    split
    · next hstate htimer => exact absurd ⟨hstate, htimer⟩ hdue
    · rfl

theorem poll_eq (errorText : ErrorType → String) (io : PollIo S) (h : RPCHandler Id S) :
    h.poll errorText io =
      (h.beforeTimers io).andThen fun h =>
      (Flow.each expireInbound io.inboundTimers h).andThen fun h =>
      (Flow.each expireOutbound io.outboundTimers h).andThen fun h =>
      (h.driveInbounds io).andThen fun h =>
      h.afterInbounds errorText io := by
  unfold poll settle beforeTimers afterInbounds
  simp only [Flow.andThen_assoc]

/-- The phase accepts no request. -/
def AcceptsNone (h : RPCHandler Id S) (phase : Phase Id S) : Prop :=
  phase.Meets (fun h' => h'.currentInboundSubstreamId = h.currentInboundSubstreamId)
    (fun r => r.2.currentInboundSubstreamId = h.currentInboundSubstreamId) True

theorem AcceptsNone.andThen {phase : Phase Id S} {k : RPCHandler Id S → Phase Id S}
    (hphase : h.AcceptsNone phase) (hk : ∀ h' : RPCHandler Id S, h'.AcceptsNone (k h')) :
    h.AcceptsNone (phase.andThen k) :=
  Flow.Meets.andThen hphase fun h' hpast =>
    (hk h').mono (fun _ hnext => hnext.trans hpast) (fun _ hr => hr.trans hpast) id

theorem KeepsInbound.acceptsNone {phase : Phase Id S} (hphase : h.KeepsInbound phase) :
    h.AcceptsNone phase :=
  hphase.mono (fun _ hnext => hnext.currentInboundSubstreamId)
    (fun _ hr => hr.currentInboundSubstreamId) id

theorem expireInbounds_acceptsNone (timers : List Expiry) (h : RPCHandler Id S) :
    h.AcceptsNone (Flow.each expireInbound timers h) := by
  refine Flow.Meets.each_of_step (fun expiry h' hpast => ?_) timers rfl
  have hexpiry := expireInbound_expiry expiry h'
  generalize h'.expireInbound expiry = phase at hexpiry
  cases hexpiry <;> exact hpast

theorem driveInbounds_acceptsNone (io : PollIo S) (h : RPCHandler Id S) :
    h.AcceptsNone (h.driveInbounds io) := by
  have hloop : (Flow.each (driveInbound io.inbound)
      (io.inboundOrder.run h.inboundSubstreams.keys) (h, [])).Meets
        (fun acc => acc.1.currentInboundSubstreamId = h.currentInboundSubstreamId)
        (fun r => r.2.currentInboundSubstreamId = h.currentInboundSubstreamId) True := by
    refine Flow.Meets.each_of_step (fun id acc hpast => ?_) _ rfl
    unfold driveInbound
    split
    · exact hpast
    · exact Flow.Meets.andThen (.ofOption (fun _ _ => trivial) fun _ => trivial) fun _ _ => hpast
  exact hloop.andThen fun acc hpast => hpast

/-- **A poll accepts no request.** -/
theorem poll_acceptsNone (errorText : ErrorType → String) (io : PollIo S)
    (h : RPCHandler Id S) : h.AcceptsNone (h.poll errorText io) := by
  rw [poll_eq]
  refine AcceptsNone.andThen ((beforeTimers_cases io h).mono
    (fun _ hnext => congrArg currentInboundSubstreamId hnext) (fun _ hr => hr.2) id) fun h => ?_
  refine (expireInbounds_acceptsNone io.inboundTimers h).andThen fun h => ?_
  refine (expireOutbounds_keepsInbound io.outboundTimers h).acceptsNone.andThen fun h => ?_
  refine (driveInbounds_acceptsNone io h).andThen fun h => ?_
  exact (afterInbounds_keepsInbound errorText io h).acceptsNone

end RPCHandler

end Consentry.Rpc
