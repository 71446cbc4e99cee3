import Consentry.Verify.TerminalEvents

/-!
# What a handler reports

The events that a handler has reported and those that it has queued make up its trace
(`Connection.trace`), to which a call only adds.

* **`Reports h h'`**: a step that receives no request adds events about requests that were issued
  (`poll_reports`).
* **`Connection.Truthful`**: the requests that a connection has reported have increasing ids, and
  what it has reported otherwise is about requests that were issued. It is kept by every call
  (`Truthful.step`).
-/

namespace Consentry.Rpc

open Lib

namespace RPCHandler

variable {Id : Type} {S : EthSpec} {issued : Id → Prop} {h h' h'' : RPCHandler Id S}

/-- The id of the request that an event hands over. -/
def receivedId : HandlerEvent Id S → Option SubstreamId
  | .ok (.request id _) => some id
  | _ => none

/-- The event is about a request that was issued, if it is about one at all. -/
structure Solicited (issued : Id → Prop) (e : HandlerEvent Id S) : Prop where
  noRequest : receivedId e = none
  issued : ∀ id, outboundId e = some id → issued id

theorem solicited_inbound (issued : Id → Prop) (id : SubstreamId) (proto : Protocol)
    (error : RPCError) :
    Solicited issued (.error (.inbound id proto error) : HandlerEvent Id S) :=
  ⟨rfl, nofun⟩

theorem solicited_outbound {id : Id} (hid : issued id) (proto : Protocol) (error : RPCError) :
    Solicited issued (.error (.outbound id proto error) : HandlerEvent Id S) :=
  ⟨rfl, fun _ hk => Option.some.inj hk ▸ hid⟩

theorem solicited_endOfStream {id : Id} (hid : issued id) (t : ResponseTermination) :
    Solicited issued (.ok (.endOfStream id t) : HandlerEvent Id S) :=
  ⟨rfl, fun _ hk => Option.some.inj hk ▸ hid⟩

theorem solicited_received {id : Id} (hid : issued id) (errorText : ErrorType → String)
    (proto : Protocol) (response : RPCCodedResponse S) :
    Solicited issued (received errorText id proto response) := by
  cases response with
  | success resp => exact ⟨rfl, fun _ hk => Option.some.inj hk ▸ hid⟩
  | error code reason => exact solicited_outbound hid proto _
  | streamTermination t => exact solicited_endOfStream hid t

/-- The outbound requests of the handler were issued. -/
structure Owns (issued : Id → Prop) (h : RPCHandler Id S) : Prop where
  dials : ∀ info ∈ h.dialQueue, issued info.1
  substreams : ∀ id info, h.outboundSubstreams.lookup id = some info → issued info.reqId

theorem owns_new (issued : Id → Prop) : Owns issued (new : RPCHandler Id S) :=
  ⟨nofun, nofun⟩

theorem Owns.insert (ho : h.Owns issued) {id : SubstreamId} {info : OutboundInfo Id}
    (hid : issued info.reqId) :
    ∀ k info', (h.outboundSubstreams.insert id info).lookup k = some info' →
      issued info'.reqId := by
  intro k info' hk
  rw [Map.lookup_insert_eq] at hk
  split at hk
  · exact Option.some.inj hk ▸ hid
  · exact ho.substreams k info' hk

theorem Owns.erase (ho : h.Owns issued) (id : SubstreamId) :
    ∀ k info, (h.outboundSubstreams.erase id).lookup k = some info → issued info.reqId := by
  intro k info hk
  rw [Map.lookup_erase_eq] at hk
  split at hk
  · cases hk
  · exact ho.substreams k info hk

/-! ## Steps that receive no request -/

/-- A step receives no request and adds to the events. -/
structure Reports (issued : Id → Prop) (h h' : RPCHandler Id S) : Prop where
  owns : h'.Owns issued
  current : h'.currentInboundSubstreamId = h.currentInboundSubstreamId
  events : ∃ new, h'.eventsOut = h.eventsOut ++ new ∧ ∀ e ∈ new, Solicited issued e

theorem Reports.quiet (ho : h'.Owns issued)
    (hcurrent : h'.currentInboundSubstreamId = h.currentInboundSubstreamId)
    (hevents : h'.eventsOut = h.eventsOut) : h.Reports issued h' :=
  ⟨ho, hcurrent, [], by rw [hevents, List.append_nil], nofun⟩

theorem Reports.refl (ho : h.Owns issued) : h.Reports issued h := .quiet ho rfl rfl

theorem Reports.trans (hl : h.Reports issued h') (hr : h'.Reports issued h'') :
    h.Reports issued h'' := by
  obtain ⟨-, hcurrent, new, hnew, hall⟩ := hl
  obtain ⟨ho, hcurrent', new', hnew', hall'⟩ := hr
  refine ⟨ho, hcurrent'.trans hcurrent, new ++ new', ?_, fun e he => ?_⟩
  · rw [hnew', hnew, List.append_assoc]
  · exact (List.mem_append.1 he).elim (hall e) (hall' e)

theorem Reports.push {event : HandlerEvent Id S} (ho : h.Owns issued)
    (hevent : Solicited issued event) : h.Reports issued (h.push event) := by
  refine ⟨⟨ho.dials, ho.substreams⟩, rfl, [event], rfl, fun e he => ?_⟩
  rwa [List.mem_singleton.1 he]

/-- A phase returns an event, having received no request. -/
structure ReportsEvent (issued : Id → Prop) (h : RPCHandler Id S)
    (r : ConnectionHandlerEvent Id S × RPCHandler Id S) : Prop where
  reports : h.Reports issued r.2
  custom : ∀ e, r.1 = .custom e → Solicited issued e
  dialed : ∀ info, r.1 = .outboundSubstreamRequest info → issued info.1

theorem ReportsEvent.ofCustom {e : HandlerEvent Id S} (hreports : h.Reports issued h')
    (he : Solicited issued e) : h.ReportsEvent issued (.custom e, h') :=
  ⟨hreports, fun _ hsame => ConnectionHandlerEvent.custom.inj hsame ▸ he, nofun⟩

theorem ReportsEvent.ofClose {error : RPCError} (hreports : h.Reports issued h') :
    h.ReportsEvent issued (.close error, h') :=
  ⟨hreports, nofun, nofun⟩

/-- The phase receives no request. -/
def KeepsReports (issued : Id → Prop) (h : RPCHandler Id S) (phase : Phase Id S) : Prop :=
  phase.Meets (h.Reports issued) (h.ReportsEvent issued) True

theorem KeepsReports.of_reports {phase : Phase Id S} (hpast : h.Reports issued h')
    (hphase : h'.KeepsReports issued phase) : h.KeepsReports issued phase :=
  hphase.mono (fun _ hstep => hpast.trans hstep)
    (fun _ hr => ⟨hpast.trans hr.reports, hr.custom, hr.dialed⟩) fun hn => hn

theorem KeepsReports.andThen {phase : Phase Id S} {k : RPCHandler Id S → Phase Id S}
    (hphase : h.KeepsReports issued phase)
    (hk : ∀ h' : RPCHandler Id S, h'.Owns issued → h'.KeepsReports issued (k h')) :
    h.KeepsReports issued (phase.andThen k) :=
  Flow.Meets.andThen hphase fun h' hstep => (hk h' hstep.owns).of_reports hstep

theorem KeepsReports.each {ι : Type} {f : ι → RPCHandler Id S → Phase Id S} (ho : h.Owns issued)
    (hf : ∀ i (h' : RPCHandler Id S), h'.Owns issued → h'.KeepsReports issued (f i h'))
    (is : List ι) : h.KeepsReports issued (Flow.each f is h) :=
  Flow.Meets.each_of_step (fun i h' hpast => (hf i h' hpast.owns).of_reports hpast) is (.refl ho)

theorem pollShutdown_reports (ho : h.Owns issued) (timer : Bool) :
    h.KeepsReports issued (h.pollShutdown timer) := by
  refine (pollShutdown_cases timer h).mono (fun h' hnext => ?_) (fun r hr => ?_) fun hn => hn
  · rw [hnext.1]
    exact .refl ho
  · obtain ⟨-, rfl⟩ := hr
    exact .ofClose (.quiet ⟨ho.dials, ho.substreams⟩ rfl rfl)

theorem expireInbound_reports (expiry : Expiry) (ho : h.Owns issued) :
    h.KeepsReports issued (h.expireInbound expiry) := by
  have hexpiry := expireInbound_expiry expiry h
  generalize h.expireInbound expiry = phase at hexpiry
  cases hexpiry with
  | failed => exact .ofClose (.refl ho)
  | dead key hkey => exact Reports.refl ho
  | stray key hkey hinfo => exact Reports.quiet ⟨ho.dials, ho.substreams⟩ rfl rfl
  | timeout key hkey hinfo =>
    refine ⟨⟨ho.dials, ho.substreams⟩, rfl, [_], rfl, fun e he => ?_⟩
    rw [List.mem_singleton.1 he]
    exact solicited_inbound ..

theorem expireOutbound_reports (expiry : Expiry) (ho : h.Owns issued) :
    h.KeepsReports issued (h.expireOutbound expiry) := by
  have hexpiry := expireOutbound_expiry expiry h
  generalize h.expireOutbound expiry = phase at hexpiry
  cases hexpiry with
  | failed => exact .ofClose (.refl ho)
  | dead key => exact Reports.refl ho
  | stray key => exact Reports.quiet ⟨ho.dials, ho.substreams⟩ rfl rfl
  | timeout key hkey hinfo =>
    exact .ofCustom (.quiet ⟨ho.dials, ho.erase _⟩ rfl rfl)
      (solicited_outbound (ho.substreams _ _ hinfo) _ _)

theorem driveInbound_reports (io : SubstreamId → List SinkPoll) (id : SubstreamId)
    {acc : RPCHandler Id S × List SubstreamId} (ho : acc.1.Owns issued) :
    (driveInbound io id acc).Meets (fun acc' => acc.1.Reports issued acc'.1) (fun _ => False)
      True := by
  unfold driveInbound
  split
  · exact Reports.refl ho
  · next info hinfo =>
    refine (Flow.Meets.ofOption (P := fun _ => True) (fun _ _ => trivial)
      fun _ => trivial).andThen fun d _ => ?_
    refine ⟨⟨ho.dials, ho.substreams⟩, rfl, _, rfl, fun e he => ?_⟩
    obtain ⟨error, -, rfl⟩ := List.mem_map.1 he
    exact solicited_inbound ..

theorem driveInbounds_reports (io : PollIo S) (ho : h.Owns issued) :
    h.KeepsReports issued (h.driveInbounds io) := by
  have hloop := Flow.Meets.each_of_step (N := True)
    (Q := fun r : ConnectionHandlerEvent Id S × RPCHandler Id S => h.ReportsEvent issued r)
    (P := fun acc : RPCHandler Id S × List SubstreamId => h.Reports issued acc.1)
    (f := driveInbound io.inbound)
    (fun id acc hpast => (driveInbound_reports io.inbound id hpast.owns).mono
      (fun _ hstep => hpast.trans hstep) (fun _ hr => hr.elim) fun hn => hn)
    (io.inboundOrder.run h.inboundSubstreams.keys) (a := (h, [])) (.refl ho)
  refine hloop.andThen fun acc hacc => ?_
  exact Reports.trans hacc (.quiet ⟨hacc.owns.dials, hacc.owns.substreams⟩ rfl rfl)

theorem driveOutbound_reports (errorText : ErrorType → String) (io : SubstreamId → OutboundPoll S)
    (id : SubstreamId) (ho : h.Owns issued) :
    h.KeepsReports issued (h.driveOutbound errorText io id) := by
  cases hinfo : h.outboundSubstreams.lookup id with
  | none =>
    unfold driveOutbound
    rw [hinfo]
    trivial
  | some info =>
    have hid := ho.substreams id info hinfo
    have hturn : OutboundTurn errorText (io id) h id info (h.driveOutbound errorText io id) :=
      driveOutbound_turn hinfo
    generalize h.driveOutbound errorText io id = phase at hturn
    have herase : ∀ delay, h.Reports issued { h with
        outboundSubstreamsDelay := delay
        outboundSubstreams := h.outboundSubstreams.erase id } :=
      fun _ => .quiet ⟨ho.dials, ho.erase id⟩ rfl rfl
    cases hturn with
    | wait => exact Reports.refl ho
    | disconnect =>
      exact Reports.trans (.push ho (solicited_outbound hid _ _))
        (.quiet ⟨ho.dials, ho.insert hid⟩ rfl rfl)
    | respond hstate response =>
      exact .ofCustom (.quiet ⟨ho.dials, ho.insert hid⟩ rfl rfl)
        (solicited_received hid errorText _ response)
    | fail hstate proto error delay => exact .ofCustom (herase delay) (solicited_outbound hid _ _)
    | streamEnd hstate t delay => exact .ofCustom (herase delay) (solicited_endOfStream hid t)
    | close hstate delay => exact herase delay
    | terminate hstate hclose ht delay =>
      exact .ofCustom (herase delay) (solicited_endOfStream hid _)
    | panic => trivial

theorem establish_reports (ho : h.Owns issued) : h.KeepsReports issued h.establish := by
  refine h.establish_cases.mono (fun h' hnext => ?_) (fun r hr => ?_) fun hn => hn
  · rw [hnext.1]
    exact .refl ho
  · obtain ⟨info, rest, hqueue, -, rfl⟩ := hr
    have hdials := ho.dials
    rw [hqueue] at hdials
    refine ⟨.quiet ⟨fun i hi => hdials i (List.mem_cons_of_mem info hi), ho.substreams⟩ rfl rfl,
      nofun, fun info' hsame => ?_⟩
    rw [← ConnectionHandlerEvent.outboundSubstreamRequest.inj hsame]
    exact hdials info List.mem_cons_self

theorem completeShutdown_reports (ho : h.Owns issued) :
    h.KeepsReports issued h.completeShutdown := by
  refine h.completeShutdown_cases.mono (fun h' hnext => ?_) (fun r hr => ?_) fun hn => hn
  · rw [hnext.1]
    exact .refl ho
  · rw [hr]
    exact .ofClose (.refl ho)

/-- **A poll** returns the first event that is queued; where there is none it adds to the
events. -/
theorem poll_reports (errorText : ErrorType → String) (io : PollIo S) (ho : h.Owns issued) :
    (∃ event rest, h.eventsOut = event :: rest ∧
      h.poll errorText io = .returned (.custom event, { h with eventsOut := rest })) ∨
    h.eventsOut = [] ∧ h.KeepsReports issued (h.poll errorText io) := by
  cases hevents : h.eventsOut with
  | cons event rest =>
    refine .inl ⟨event, rest, rfl, ?_⟩
    unfold poll settle report
    rw [hevents]
    rfl
  | nil =>
    refine .inr ⟨rfl, ?_⟩
    have hreport : h.report = .next h := by
      unfold report
      rw [hevents]
    unfold poll settle
    rw [hreport, Flow.next_andThen]
    refine KeepsReports.andThen ?_ fun h ho =>
      (establish_reports ho).andThen fun h ho => completeShutdown_reports ho
    refine (pollShutdown_reports ho io.shutdownTimer).andThen fun h ho => ?_
    refine (KeepsReports.each ho (fun i h ho => expireInbound_reports i ho)
      io.inboundTimers).andThen fun h ho => ?_
    refine (KeepsReports.each ho (fun i h ho => expireOutbound_reports i ho)
      io.outboundTimers).andThen fun h ho => ?_
    refine (driveInbounds_reports io ho).andThen fun h ho => ?_
    exact .each ho (fun i h ho => driveOutbound_reports errorText io.outbound i ho) _

end RPCHandler

/-- The request that a call brings. -/
def Call.received {Id : Type} {S : EthSpec} : Call Id S → Option InboundRequest
  | .injectFullyNegotiatedInbound req _ _ => some req
  | _ => none

/-! ## Connections -/

namespace Connection

open RPCHandler

variable {Id : Type} {S : EthSpec} {issued : Id → Prop} {accepted : InboundRequest → Prop}
  {c : Connection Id S} {h h' : RPCHandler Id S}

/-- The events that have been reported, and those that are queued. -/
def trace (c : Connection Id S) : List (HandlerEvent Id S) := c.log ++ c.handler.eventsOut

/-- What a connection reports was received or asked for, and each request has a new id. -/
structure Truthful (issued : Id → Prop) (accepted : InboundRequest → Prop) (c : Connection Id S) :
    Prop where
  owns : c.handler.Owns issued
  opening : ∀ info ∈ c.opening, issued info.1
  solicited : ∀ e ∈ c.trace, ∀ id, outboundId e = some id → issued id
  received : ∀ id req, .ok (.request id req) ∈ c.trace → accepted req
  increasing : (c.trace.filterMap receivedId).Pairwise (· < ·)
  below : ∀ id ∈ c.trace.filterMap receivedId, id < c.handler.currentInboundSubstreamId

theorem truthful_new (issued : Id → Prop) (accepted : InboundRequest → Prop) :
    Truthful issued accepted (new : Connection Id S) where
  owns := owns_new issued
  opening := nofun
  solicited := nofun
  received := nofun
  increasing := List.Pairwise.nil
  below := nofun

theorem receivedId_of_solicited {events : List (HandlerEvent Id S)}
    (hall : ∀ e ∈ events, Solicited issued e) : events.filterMap receivedId = [] :=
  List.filterMap_eq_nil_iff.2 fun e he => (hall e he).noRequest

/-- Events about requests that were issued are added to the trace. -/
theorem Truthful.extend (hc : c.Truthful issued accepted) {c' : Connection Id S}
    {events : List (HandlerEvent Id S)} (ho : c'.handler.Owns issued)
    (hopening : ∀ info ∈ c'.opening, issued info.1) (htrace : c'.trace = c.trace ++ events)
    (hall : ∀ e ∈ events, Solicited issued e)
    (hcurrent : c'.handler.currentInboundSubstreamId = c.handler.currentInboundSubstreamId) :
    c'.Truthful issued accepted := by
  have hids : c'.trace.filterMap receivedId = c.trace.filterMap receivedId := by
    rw [htrace, List.filterMap_append, receivedId_of_solicited hall, List.append_nil]
  refine ⟨ho, hopening, fun e he id hid => ?_, fun id req he => ?_, ?_, ?_⟩
  · rw [htrace] at he
    rcases List.mem_append.1 he with he | he
    · exact hc.solicited e he id hid
    · exact (hall e he).issued id hid
  · rw [htrace] at he
    rcases List.mem_append.1 he with he | he
    · exact hc.received id req he
    · cases (hall _ he).noRequest
  · rw [hids]
    exact hc.increasing
  · rw [hids, hcurrent]
    exact hc.below

/-- A request is received under the next id. -/
theorem Truthful.receive (hc : c.Truthful issued accepted) {c' : Connection Id S}
    {req : InboundRequest} (hreq : accepted req) (ho : c'.handler.Owns issued)
    (hopening : ∀ info ∈ c'.opening, issued info.1)
    (htrace : c'.trace =
      c.trace ++ [.ok (.request c.handler.currentInboundSubstreamId req)])
    (hcurrent :
      c'.handler.currentInboundSubstreamId = c.handler.currentInboundSubstreamId + 1) :
    c'.Truthful issued accepted := by
  have hids : c'.trace.filterMap receivedId =
      c.trace.filterMap receivedId ++ [c.handler.currentInboundSubstreamId] := by
    rw [htrace, List.filterMap_append]
    rfl
  refine ⟨ho, hopening, fun e he id hid => ?_, fun id req' he => ?_, ?_, ?_⟩
  · rw [htrace] at he
    rcases List.mem_append.1 he with he | he
    · exact hc.solicited e he id hid
    · rw [List.mem_singleton.1 he] at hid
      cases hid
  · rw [htrace] at he
    rcases List.mem_append.1 he with he | he
    · exact hc.received id req' he
    · have hsame := List.mem_singleton.1 he
      cases hsame
      exact hreq
  · rw [hids]
    refine List.pairwise_append.2 ⟨hc.increasing, List.pairwise_singleton _ _, ?_⟩
    intro id hid id' hid'
    rw [List.mem_singleton.1 hid']
    exact hc.below id hid
  · rw [hids, hcurrent]
    intro id hid
    rcases List.mem_append.1 hid with hid | hid
    · exact Nat.lt_succ_of_lt (hc.below id hid)
    · rw [List.mem_singleton.1 hid]
      exact Nat.lt_succ_self _

/-- The handler takes a step that receives no request. -/
theorem Truthful.reports (hc : c.Truthful issued accepted) (hreports : c.handler.Reports issued h) :
    (c.withHandler h).Truthful issued accepted := by
  obtain ⟨ho, hcurrent, events, hevents, hall⟩ := hreports
  refine hc.extend ho hc.opening ?_ hall hcurrent
  unfold trace withHandler
  rw [hevents, List.append_assoc]

theorem shutdown_reports (ho : h.Owns issued) {goodbye : Option (Id × GoodbyeReason)}
    (hgoodbye : ∀ info, goodbye = some info → issued info.1) :
    h.Reports issued (h.shutdown goodbye) := by
  unfold RPCHandler.shutdown
  split
  · refine ⟨⟨fun info hinfo => ?_, ho.substreams⟩, rfl, _, rfl, fun e he => ?_⟩
    · obtain ⟨info', hinfo', rfl⟩ := List.mem_map.1 hinfo
      exact hgoodbye info' (Option.mem_toList.1 hinfo')
    · obtain ⟨info, hinfo, rfl⟩ := List.mem_map.1 he
      exact solicited_outbound (ho.dials info (List.mem_reverse.1 hinfo)) _ _
  · exact .refl ho

theorem sendRequest_reports (ho : h.Owns issued) {id : Id} (hid : issued id)
    (req : OutboundRequest) : h.Reports issued (h.sendRequest id req) := by
  unfold RPCHandler.sendRequest
  split
  · refine .quiet ⟨fun info hinfo => ?_, ho.substreams⟩ rfl rfl
    rcases List.mem_append.1 hinfo with hinfo | hinfo
    · exact ho.dials info hinfo
    · rw [List.mem_singleton.1 hinfo]
      exact hid
  · exact .push ho (solicited_outbound hid _ _)

theorem sendResponse_reports (ho : h.Owns issued) (errorText : ErrorType → String)
    (inboundId : SubstreamId) (response : RPCCodedResponse S) :
    h.Reports issued (h.sendResponse errorText inboundId response) := by
  unfold RPCHandler.sendResponse
  split
  · exact .refl ho
  · next info hinfo =>
    have hqueue : ∀ h' : RPCHandler Id S, h.Reports issued h' → h.Reports issued { h' with
        inboundSubstreams := h'.inboundSubstreams.insert inboundId
          { info with pendingItems := info.pendingItems ++ [response] } } :=
      fun h' hpast => hpast.trans (.quiet ⟨hpast.owns.dials, hpast.owns.substreams⟩ rfl rfl)
    cases response with
    | error code reason =>
      dsimp only
      split
      · exact .push ho (solicited_inbound ..)
      · exact hqueue _ (.push ho (solicited_inbound ..))
    | success | streamTermination =>
      dsimp only
      split
      · exact .refl ho
      · exact hqueue h (.refl ho)

theorem storeInbound_reports (ho : h.Owns issued) {req : InboundRequest}
    {substream : InboundSubstream S} {preferred : ℕ}
    (hstore : h.storeInbound req substream preferred = some h') : h.Reports issued h' := by
  unfold RPCHandler.storeInbound at hstore
  split at hstore
  · split at hstore
    · obtain rfl := Option.some.inj hstore
      exact .quiet ⟨ho.dials, ho.substreams⟩ rfl rfl
    · cases hstore
  · obtain rfl := Option.some.inj hstore
    exact .refl ho

theorem Truthful.receiveRequest (hc : c.Truthful issued accepted)
    (hreports : c.handler.Reports issued h)
    {req : InboundRequest} (hreq : accepted req) :
    (c.withHandler (h.receiveRequest req)).Truthful issued accepted := by
  have htrace : (c.withHandler (h.receiveRequest req)).trace = (c.withHandler h).trace ++
      [.ok (.request (c.withHandler h).handler.currentInboundSubstreamId req)] := by
    show c.log ++ (h.eventsOut ++ [_]) = c.log ++ h.eventsOut ++ [_]
    rw [List.append_assoc]
    rfl
  exact (hc.reports hreports).receive hreq ⟨hreports.owns.dials, hreports.owns.substreams⟩
    hc.opening htrace rfl

theorem Truthful.injectFullyNegotiatedInbound (hc : c.Truthful issued accepted)
    {req : InboundRequest} (hreq : accepted req) (substream : InboundSubstream S) (preferred : ℕ) :
    (c.withHandler (c.handler.injectFullyNegotiatedInbound req substream preferred)).Truthful
      issued accepted := by
  have ho := hc.owns
  unfold RPCHandler.injectFullyNegotiatedInbound
  split
  · split
    · next hfull =>
      have hpush := Reports.push ho (solicited_inbound issued
        c.handler.currentInboundSubstreamId req.protocol .handlerRejected)
      exact hc.reports (hpush.trans (shutdown_reports hpush.owns fun _ hnone => by cases hnone))
    · next h hstore =>
      have hreports := storeInbound_reports ho hstore
      split
      · exact hc.receiveRequest
          (hreports.trans (shutdown_reports hreports.owns fun _ hnone => by cases hnone)) hreq
      · exact hc.receiveRequest hreports hreq
  · exact hc.reports (.refl ho)

theorem injectFullyNegotiatedOutbound_reports (ho : h.Owns issued)
    {info : Id × OutboundRequest} (hinfo : issued info.1) (preferred : ℕ) :
    h.Reports issued (h.injectFullyNegotiatedOutbound info preferred) := by
  obtain ⟨id, request⟩ := info
  have hopened : ∀ h₁ : RPCHandler Id S, h.Reports issued h₁ →
      h.Reports issued (if 0 < request.expectedResponses then
        { h₁ with
          outboundSubstreamsDelay := (h₁.outboundSubstreamsDelay.insert preferred
            h₁.currentOutboundSubstreamId).2
          outboundSubstreams := h₁.outboundSubstreams.insert h₁.currentOutboundSubstreamId
            { state := .requestPendingResponse request
              delayKey := (h₁.outboundSubstreamsDelay.insert preferred
                h₁.currentOutboundSubstreamId).1
              proto := request.protocol
              remainingChunks :=
                if 1 < request.expectedResponses then some request.expectedResponses else none
              reqId := id }
          currentOutboundSubstreamId := h₁.currentOutboundSubstreamId + 1 }
      else h₁) := by
    intro h₁ hpast
    split
    · exact hpast.trans (.quiet ⟨hpast.owns.dials, hpast.owns.insert hinfo⟩ rfl rfl)
    · exact hpast
  unfold RPCHandler.injectFullyNegotiatedOutbound
  refine hopened _ ?_
  have hless : h.Reports issued { h with dialNegotiated := h.dialNegotiated - 1 } :=
    .quiet ⟨ho.dials, ho.substreams⟩ rfl rfl
  split
  · exact hless.trans (.push hless.owns (solicited_outbound hinfo _ _))
  · exact hless

theorem injectDialUpgradeError_reports (ho : h.Owns issued) {info : Id × OutboundRequest}
    (hinfo : issued info.1) (error : ConnectionHandlerUpgrErr) :
    h.Reports issued (h.injectDialUpgradeError info error) := by
  have hfail : ∀ h₁ : RPCHandler Id S, h₁.Owns issued →
      h₁.Reports issued (h₁.failDial info error) :=
    fun h₁ ho => ⟨⟨ho.dials, ho.substreams⟩, rfl, [_], rfl, fun e he => by
      rw [List.mem_singleton.1 he]
      exact solicited_outbound hinfo _ _⟩
  unfold RPCHandler.injectDialUpgradeError
  split
  · have hcounted : h.Reports issued
        { h with outboundIoErrorRetries := h.outboundIoErrorRetries + 1 } :=
      .quiet ⟨ho.dials, ho.substreams⟩ rfl rfl
    dsimp only
    split
    · exact hcounted.trans (sendRequest_reports hcounted.owns hinfo _)
    · exact hcounted.trans (hfail _ hcounted.owns)
  · exact hfail h ho

/-- A poll. -/
theorem Truthful.polled (hc : c.Truthful issued accepted) (errorText : ErrorType → String)
    (io : PollIo S) : (c.polled (c.handler.poll errorText io)).Truthful issued accepted := by
  rcases poll_reports errorText io hc.owns with
    ⟨event, rest, hevents, hpoll⟩ | ⟨hevents, hkeeps⟩
  · rw [hpoll]
    refine hc.extend ⟨hc.owns.dials, hc.owns.substreams⟩ hc.opening ?_ (List.forall_mem_nil _) rfl
    show c.log ++ [event] ++ rest = c.log ++ c.handler.eventsOut ++ []
    rw [hevents, List.append_nil, List.append_assoc]
    rfl
  · unfold KeepsReports at hkeeps
    generalize c.handler.poll errorText io = phase at hkeeps ⊢
    cases phase with
    | next h => exact hc.reports hkeeps
    | panicked => exact ⟨hc.owns, hc.opening, hc.solicited, hc.received, hc.increasing, hc.below⟩
    | returned r =>
      obtain ⟨event, h⟩ := r
      obtain ⟨hreports, hcustom, hdialed⟩ := hkeeps
      cases event with
      | close error => exact hc.reports hreports
      | outboundSubstreamRequest info =>
        have hafter := hc.reports hreports
        refine ⟨hafter.owns, fun info' hinfo' => ?_, hafter.solicited, hafter.received,
          hafter.increasing, hafter.below⟩
        rcases List.mem_append.1 hinfo' with hinfo' | hinfo'
        · exact hc.opening info' hinfo'
        · rw [List.mem_singleton.1 hinfo']
          exact hdialed info rfl
      | custom event =>
        obtain ⟨ho, hcurrent, new, hnew, hall⟩ := hreports
        have htrace : (c.polled (.returned (.custom event, h))).trace =
            c.trace ++ event :: new := by
          show c.log ++ [event] ++ h.eventsOut = c.log ++ c.handler.eventsOut ++ event :: new
          rw [hnew, hevents, List.append_nil, List.append_assoc]
          rfl
        refine hc.extend ho hc.opening htrace (fun e he => ?_) hcurrent
        rcases List.mem_cons.1 he with rfl | he
        · exact hcustom e rfl
        · exact hall e he

variable [DecidableEq Id]

/-- The swarm answers a substream request that was issued. -/
theorem Truthful.answer (hc : c.Truthful issued accepted) (info : Id × OutboundRequest)
    (inject : RPCHandler Id S → RPCHandler Id S)
    (hinject : issued info.1 → c.handler.Reports issued (inject c.handler)) :
    (c.answer info inject).Truthful issued accepted := by
  by_cases hopen : info ∈ c.opening
  · rw [answer_of_mem hopen]
    have hafter := hc.reports (hinject (hc.opening info hopen))
    exact ⟨hafter.owns, fun info' hinfo' => hc.opening info' (List.mem_of_mem_erase hinfo'),
      hafter.solicited, hafter.received, hafter.increasing, hafter.below⟩
  · rwa [answer_of_not_mem hopen]

/-- **A call keeps a connection truthful**, if the request that it makes was issued, and
the one that it brings was accepted. -/
theorem Truthful.step (hc : c.Truthful issued accepted) (errorText : ErrorType → String)
    {call : Call Id S} (hcall : ∀ id, call.requestId = some id → issued id)
    (hreceived : ∀ req, call.received = some req → accepted req) :
    (c.step errorText call).Truthful issued accepted := by
  refine step_induction hc fun _ => ?_
  cases call with
  | injectEvent event =>
    cases event with
    | request id req => exact hc.reports (sendRequest_reports hc.owns (hcall id rfl) req)
    | response inboundId response =>
      exact hc.reports (sendResponse_reports hc.owns errorText inboundId response)
    | shutdown id reason =>
      refine hc.reports (shutdown_reports hc.owns fun info hinfo => ?_)
      rw [← Option.some.inj hinfo]
      exact hcall id rfl
  | injectFullyNegotiatedInbound req substream preferred =>
    exact hc.injectFullyNegotiatedInbound (hreceived req rfl) substream preferred
  | injectFullyNegotiatedOutbound info preferred =>
    exact hc.answer info (·.injectFullyNegotiatedOutbound info preferred) fun hinfo =>
      injectFullyNegotiatedOutbound_reports hc.owns hinfo preferred
  | injectDialUpgradeError info error =>
    exact hc.answer info (·.injectDialUpgradeError info error) fun hinfo =>
      injectDialUpgradeError_reports hc.owns hinfo error
  | poll io => exact hc.polled errorText io

omit [DecidableEq Id] in
theorem log_prefix_polled (c : Connection Id S) (phase : Phase Id S) :
    c.log <+: (c.polled phase).log := by
  cases phase with
  | next h => exact List.prefix_rfl
  | panicked => exact List.prefix_rfl
  | returned r =>
    obtain ⟨event, h⟩ := r
    cases event with
    | custom event => exact List.prefix_append _ _
    | close error => exact List.prefix_rfl
    | outboundSubstreamRequest info => exact List.prefix_rfl

/-- What has been reported stays reported. -/
theorem log_prefix_step (c : Connection Id S) (errorText : ErrorType → String)
    (call : Call Id S) : c.log <+: (c.step errorText call).log := by
  have hanswer : ∀ (info : Id × OutboundRequest) (inject : RPCHandler Id S → RPCHandler Id S),
      c.log <+: (c.answer info inject).log := by
    intro info inject
    unfold Connection.answer
    split <;> exact List.prefix_rfl
  refine step_induction (P := fun c' => c.log <+: c'.log) List.prefix_rfl fun _ => ?_
  cases call with
  | injectEvent event => exact List.prefix_rfl
  | injectFullyNegotiatedInbound req substream preferred => exact List.prefix_rfl
  | injectFullyNegotiatedOutbound info preferred => exact hanswer info _
  | injectDialUpgradeError info error => exact hanswer info _
  | poll io => exact c.log_prefix_polled _

end Connection

end Consentry.Rpc
