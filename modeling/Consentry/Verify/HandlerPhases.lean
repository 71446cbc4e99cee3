import Consentry.Rpc.Handler

/-!
# What the phases of a poll do

* **`Inward h h'`**: what happens on the inbound side changes the inbound books and queues
  events about no outbound request (`expireInbounds_inward`, `driveInbounds_inward`).
* **`OutboundDrive`**: all that one turn of the loop on the outbound substreams can do
  (`driveOutbound_drive`); `OutboundTurn` says it without the timers, and `InboundExpiry` and
  `OutboundExpiry` say it of the loops on the timers.
* **`SameDial h h'`**: what the phases before the dialing leave unchanged (`front_sameDial`),
  and so what a poll does to the requests that are dialed (`poll_dials`).
-/

namespace Consentry.Rpc

open Lib

theorem DelayQueue.expire_eq_some {α : Type} {q q' : DelayQueue α} {key : ℕ} {value : α}
    (hexpire : q.expire key = some (value, q')) :
    q.live.lookup key = some value ∧ q' = ⟨q.live.erase key⟩ := by
  obtain ⟨value', hlookup, heq⟩ := Option.map_eq_some_iff.1 hexpire
  obtain ⟨rfl, rfl⟩ := Prod.mk.inj heq
  exact ⟨hlookup, rfl⟩

theorem DelayQueue.remove_eq_some {α : Type} {q q' : DelayQueue α} {key : ℕ}
    (hremove : q.remove key = some q') : q' = ⟨q.live.erase key⟩ := by
  unfold remove at hremove
  split at hremove
  · exact (Option.some.inj hremove).symm
  · cases hremove

theorem DelayQueue.remove_eq_none {α : Type} {q : DelayQueue α} {key : ℕ}
    (hremove : q.remove key = none) : q.live.lookup key = none := by
  unfold remove at hremove
  split at hremove
  · cases hremove
  · next hdead => exact AList.lookup_eq_none.2 hdead

theorem DelayQueue.reset_eq_some {α : Type} {q q' : DelayQueue α} {key : ℕ}
    (hreset : q.reset key = some q') : q' = q := by
  unfold reset at hreset
  split at hreset
  · exact (Option.some.inj hreset).symm
  · cases hreset

theorem DelayQueue.reset_eq_none {α : Type} {q : DelayQueue α} {key : ℕ}
    (hreset : q.reset key = none) : q.live.lookup key = none := by
  unfold reset at hreset
  split at hreset
  · cases hreset
  · next hdead => exact AList.lookup_eq_none.2 hdead

theorem saturatingPred_toNat (n : UInt64) : (saturatingPred n).toNat = n.toNat - 1 := by
  unfold saturatingPred
  split
  · next hzero => rw [hzero]; rfl
  · next hpos =>
    have hone : 1 ≤ n.toNat := Nat.one_le_iff_ne_zero.2 fun hn => hpos (UInt64.toNat_inj.1 hn)
    exact UInt64.toNat_sub_of_le _ _ (UInt64.le_iff_toNat_le.2 hone)

/-- A request that expects several responses has a stream that ends. -/
theorem OutboundRequest.streamTermination_of_expected (request : OutboundRequest)
    (hmore : 1 < request.expectedResponses) : ∃ t, request.streamTermination = some t := by
  cases request with
  | blocksByRange req | blocksByRoot req => exact ⟨_, rfl⟩
  | status msg | goodbye reason | ping data | metaData => simp [expectedResponses] at hmore

/-- The books on an outbound substream that has received a response. -/
def OutboundInfo.afterResponse {Id : Type} {S : EthSpec} (info : OutboundInfo Id)
    (request : OutboundRequest) (response : RPCCodedResponse S) : OutboundInfo Id :=
  if 1 < request.expectedResponses && !response.closeAfter then
    let remainingChunks := (info.remainingChunks.map saturatingPred).getD 0
    if remainingChunks = 0 then { info with state := .closing }
    else
      { info with
        state := .requestPendingResponse request
        remainingChunks := some remainingChunks }
  else { info with state := .closing }

/-- The substream after its timer has run out: an error is appended, if the last item that is
pending does not close the stream. -/
def InboundInfo.timedOut {S : EthSpec} (info : InboundInfo S) : InboundInfo S :=
  { info with
    delayKey := none
    pendingItems :=
      if info.endsOpen then
        info.pendingItems ++ [.error .serverError (.ofString "Request timed out")]
      else info.pendingItems }

namespace RPCHandler

variable {Id : Type} {S : EthSpec} {h h' h'' : RPCHandler Id S}

/-! ## The inbound side -/

/-- The outbound request that an event is about. -/
def outboundId : HandlerEvent Id S → Option Id
  | .error (.outbound id _ _) => some id
  | .ok (.endOfStream id _) => some id
  | .ok (.response id _) => some id
  | .error (.inbound _ _ _) => none
  | .ok (.request _ _) => none

/-- A step on the inbound side. -/
inductive Inward (h : RPCHandler Id S) : RPCHandler Id S → Prop
  | intro (inbound : Map SubstreamId (InboundInfo S)) (delay : DelayQueue SubstreamId)
      (current : SubstreamId) {events : List (HandlerEvent Id S)}
      (hevents : ∀ e ∈ events, outboundId e = none) :
      Inward h { h with
        inboundSubstreams := inbound
        inboundSubstreamsDelay := delay
        currentInboundSubstreamId := current
        eventsOut := h.eventsOut ++ events }

/-- No event is queued. -/
theorem Inward.quiet (inbound : Map SubstreamId (InboundInfo S))
    (delay : DelayQueue SubstreamId) :
    Inward h { h with inboundSubstreams := inbound, inboundSubstreamsDelay := delay } := by
  have hnone : ∀ e ∈ ([] : List (HandlerEvent Id S)), outboundId e = none := by simp
  have hintro := Inward.intro (h := h) inbound delay h.currentInboundSubstreamId hnone
  rwa [List.append_nil] at hintro

theorem Inward.refl (h : RPCHandler Id S) : h.Inward h :=
  .quiet h.inboundSubstreams h.inboundSubstreamsDelay

theorem Inward.trans (hl : h.Inward h') (hr : h'.Inward h'') : h.Inward h'' := by
  obtain ⟨inbound, delay, current, hevents⟩ := hl
  obtain ⟨inbound', delay', current', hevents'⟩ := hr
  have hintro := Inward.intro (h := h) inbound' delay' current'
    fun e he => (List.mem_append.1 he).elim (hevents e) (hevents' e)
  rwa [← List.append_assoc] at hintro

/-- An event about no outbound request is queued. -/
theorem Inward.push {event : HandlerEvent Id S} (hevent : outboundId event = none) :
    h.Inward (h.push event) := by
  refine .intro h.inboundSubstreams h.inboundSubstreamsDelay h.currentInboundSubstreamId ?_
  intro e he
  rwa [List.mem_singleton.1 he]

theorem sendResponse_inward (errorText : ErrorType → String) (h : RPCHandler Id S)
    (inboundId : SubstreamId) (response : RPCCodedResponse S) :
    h.Inward (h.sendResponse errorText inboundId response) := by
  unfold sendResponse
  split
  · exact .refl h
  · next info hinfo =>
    have hqueue : ∀ h' : RPCHandler Id S, h.Inward h' → h.Inward { h' with
        inboundSubstreams := h'.inboundSubstreams.insert inboundId
          { info with pendingItems := info.pendingItems ++ [response] } } :=
      fun h' hpast => hpast.trans (.quiet _ h'.inboundSubstreamsDelay)
    cases response with
    | error code reason =>
      dsimp only
      split
      · exact .push rfl
      · exact hqueue _ (.push rfl)
    | success | streamTermination =>
      dsimp only
      split
      · exact .refl h
      · exact hqueue h (.refl h)

theorem storeInbound_inward {req : InboundRequest} {substream : InboundSubstream S}
    {preferred : ℕ} (hstore : h.storeInbound req substream preferred = some h') :
    h.Inward h' := by
  unfold storeInbound at hstore
  split at hstore
  · split at hstore
    · obtain rfl := Option.some.inj hstore
      exact .quiet _ _
    · cases hstore
  · obtain rfl := Option.some.inj hstore
    exact .refl h

theorem receiveRequest_inward (h : RPCHandler Id S) (req : InboundRequest) :
    h.Inward (h.receiveRequest req) := by
  refine .intro h.inboundSubstreams h.inboundSubstreamsDelay (h.currentInboundSubstreamId + 1) ?_
  intro e he
  rw [List.mem_singleton.1 he]
  rfl

/-- A turn of the loop on the timers of the inbound substreams. -/
inductive InboundExpiry (h : RPCHandler Id S) : Expiry → Phase Id S → Prop
  | failed : InboundExpiry h .failed
      (.returned (.close (.internalError "Could not poll inbound stream timer"), h))
  | dead (key : ℕ) (hkey : h.inboundSubstreamsDelay.live.lookup key = none) :
      InboundExpiry h (.expired key) (.next h)
  | stray (key : ℕ) {id : SubstreamId}
      (hkey : h.inboundSubstreamsDelay.live.lookup key = some id)
      (hinfo : h.inboundSubstreams.lookup id = none) :
      InboundExpiry h (.expired key)
        (.next { h with inboundSubstreamsDelay := ⟨h.inboundSubstreamsDelay.live.erase key⟩ })
  | timeout (key : ℕ) {id : SubstreamId} {info : InboundInfo S}
      (hkey : h.inboundSubstreamsDelay.live.lookup key = some id)
      (hinfo : h.inboundSubstreams.lookup id = some info) :
      InboundExpiry h (.expired key)
        (.next ({ h with
          inboundSubstreamsDelay := ⟨h.inboundSubstreamsDelay.live.erase key⟩
          inboundSubstreams := h.inboundSubstreams.insert id info.timedOut }.push
            (.error (.inbound id info.protocol .streamTimeout))))

theorem expireInbound_expiry (expiry : Expiry) (h : RPCHandler Id S) :
    h.InboundExpiry expiry (h.expireInbound expiry) := by
  cases expiry with
  | failed => exact .failed
  | expired key =>
    unfold expireInbound
    dsimp only
    split
    · next hexpire => exact .dead key (Option.map_eq_none_iff.1 hexpire)
    · next id delay hexpire =>
      obtain ⟨hkey, rfl⟩ := DelayQueue.expire_eq_some hexpire
      split
      · next hinfo => exact .stray key hkey hinfo
      · next info hinfo => exact .timeout key hkey hinfo

theorem InboundExpiry.inward {expiry : Expiry} {phase : Phase Id S}
    (hexpiry : h.InboundExpiry expiry phase) :
    phase.Meets h.Inward (fun r => (∃ error, r.1 = .close error) ∧ h.Inward r.2) True := by
  cases hexpiry with
  | failed => exact ⟨⟨_, rfl⟩, .refl h⟩
  | dead key hkey => exact Inward.refl h
  | stray key hkey hinfo => exact Inward.quiet h.inboundSubstreams _
  | timeout key hkey hinfo => exact (Inward.quiet _ _).trans (.push rfl)

theorem expireInbound_inward (expiry : Expiry) (h : RPCHandler Id S) :
    (h.expireInbound expiry).Meets h.Inward
      (fun r => (∃ error, r.1 = .close error) ∧ h.Inward r.2) True :=
  (expireInbound_expiry expiry h).inward

theorem expireInbounds_inward (expiries : List Expiry) (h : RPCHandler Id S) :
    (Flow.each expireInbound expiries h).Meets h.Inward
      (fun r => (∃ error, r.1 = .close error) ∧ h.Inward r.2) True := by
  refine Flow.Meets.each_of_step (fun expiry h' hpast => ?_) expiries (.refl h)
  refine (expireInbound_inward expiry h').mono (fun _ hstep => hpast.trans hstep)
    (fun r hr => ?_) id
  exact ⟨hr.1, hpast.trans hr.2⟩

theorem driveInbound_inward (io : SubstreamId → List SinkPoll) (id : SubstreamId)
    (acc : RPCHandler Id S × List SubstreamId) :
    (driveInbound io id acc).Meets (fun acc' => acc.1.Inward acc'.1) (fun _ => False) True := by
  unfold driveInbound
  split
  · exact Inward.refl acc.1
  · next info hinfo =>
    refine (Flow.Meets.ofOption (P := fun _ => True) (fun _ _ => trivial)
      fun _ => trivial).andThen fun d _ => ?_
    refine Inward.intro (acc.1.inboundSubstreams.insert id d.info) d.delay
      acc.1.currentInboundSubstreamId fun e he => ?_
    obtain ⟨error, -, rfl⟩ := List.mem_map.1 he
    rfl

theorem driveInbounds_inward (io : PollIo S) (h : RPCHandler Id S) :
    (h.driveInbounds io).Meets h.Inward (fun _ => False) True := by
  have hloop := Flow.Meets.each_of_step (N := True) (Q := fun _ => False)
    (P := fun acc : RPCHandler Id S × List SubstreamId => h.Inward acc.1)
    (f := driveInbound io.inbound)
    (fun id acc hpast => (driveInbound_inward io.inbound id acc).mono
      (fun _ hstep => hpast.trans hstep) (fun _ hr => hr) fun hn => hn)
    (io.inboundOrder.run h.inboundSubstreams.keys) (a := (h, [])) (.refl h)
  refine hloop.andThen fun acc hacc => ?_
  exact Inward.trans hacc (.quiet _ acc.1.inboundSubstreamsDelay)

/-! ## The timers of the outbound side -/

/-- A turn of the loop on the timers of the outbound substreams. -/
inductive OutboundExpiry (h : RPCHandler Id S) : Expiry → Phase Id S → Prop
  | failed : OutboundExpiry h .failed
      (.returned (.close (.internalError "Could not poll outbound stream timer"), h))
  | dead (key : ℕ) : OutboundExpiry h (.expired key) (.next h)
  | stray (key : ℕ) : OutboundExpiry h (.expired key)
      (.next { h with
        outboundSubstreamsDelay := ⟨h.outboundSubstreamsDelay.live.erase key⟩ })
  | timeout (key : ℕ) {id : SubstreamId} {info : OutboundInfo Id}
      (hkey : h.outboundSubstreamsDelay.live.lookup key = some id)
      (hinfo : h.outboundSubstreams.lookup id = some info) :
      OutboundExpiry h (.expired key)
        (.returned (.custom (.error (.outbound info.reqId info.proto .streamTimeout)),
          { h with
            outboundSubstreamsDelay := ⟨h.outboundSubstreamsDelay.live.erase key⟩
            outboundSubstreams := h.outboundSubstreams.erase id }))

theorem expireOutbound_expiry (expiry : Expiry) (h : RPCHandler Id S) :
    h.OutboundExpiry expiry (h.expireOutbound expiry) := by
  cases expiry with
  | failed => exact .failed
  | expired key =>
    unfold expireOutbound
    dsimp only
    split
    · exact .dead key
    · next id delay hexpire =>
      obtain ⟨hkey, rfl⟩ := DelayQueue.expire_eq_some hexpire
      split
      · exact .stray key
      · next info hinfo => exact .timeout key hkey hinfo

/-! ## The outbound substreams -/

/-- The handler without an outbound substream and without its timer. -/
def without (h : RPCHandler Id S) (id : SubstreamId) (key : ℕ) : RPCHandler Id S :=
  { h with
    outboundSubstreamsDelay := ⟨h.outboundSubstreamsDelay.live.erase key⟩
    outboundSubstreams := h.outboundSubstreams.erase id }

/-- What the loop on the outbound substreams does with the substream `id`, its timer included. It
panics on a poisoned state and on a timer that is not live, and nowhere else. -/
inductive OutboundDrive (errorText : ErrorType → String) (io : OutboundPoll S)
    (h : RPCHandler Id S) (id : SubstreamId) (info : OutboundInfo Id) : Phase Id S → Prop
  | wait : OutboundDrive errorText io h id info (.next h)
  | disconnect {request : OutboundRequest} (hstate : info.state = .requestPendingResponse request)
      (hdeactivated : h.isDeactivated = true) :
      OutboundDrive errorText io h id info
        (.next { h.push (.error (.outbound info.reqId info.proto .disconnected)) with
          outboundSubstreams := h.outboundSubstreams.insert id { info with state := .closing } })
  | respond {request : OutboundRequest} (hstate : info.state = .requestPendingResponse request)
      (response : RPCCodedResponse S) (hresponse : io.next = .ready (some (.ok response))) :
      OutboundDrive errorText io h id info
        (.returned (.custom (received errorText info.reqId info.proto response),
          { h with
            outboundSubstreams :=
              h.outboundSubstreams.insert id (info.afterResponse request response) }))
  | fail {request : OutboundRequest} (hstate : info.state = .requestPendingResponse request)
      (proto : Protocol) (error : RPCError) :
      OutboundDrive errorText io h id info
        (.returned (.custom (.error (.outbound info.reqId proto error)),
          h.without id info.delayKey))
  | streamEnd {request : OutboundRequest} (hstate : info.state = .requestPendingResponse request)
      (t : ResponseTermination) :
      OutboundDrive errorText io h id info
        (.returned (.custom (.ok (.endOfStream info.reqId t)), h.without id info.delayKey))
  | close (hstate : info.state = .closing) :
      OutboundDrive errorText io h id info (.next (h.without id info.delayKey))
  | terminate (hstate : info.state = .closing) {res : Except RPCError Unit}
      (hclose : io.close = .ready res) {t : ResponseTermination}
      (ht : closeTermination info.proto = some t) :
      OutboundDrive errorText io h id info
        (.returned (.custom (.ok (.endOfStream info.reqId t)), h.without id info.delayKey))
  | panic (hbad : info.state = .poisoned ∨
      h.outboundSubstreamsDelay.live.lookup info.delayKey = none) :
      OutboundDrive errorText io h id info .panicked

variable {errorText : ErrorType → String} {io : SubstreamId → OutboundPoll S}
  {id : SubstreamId} {info : OutboundInfo Id}

theorem receiveResponse_drive {request : OutboundRequest}
    (hstate : info.state = .requestPendingResponse request) {response : RPCCodedResponse S}
    (hresponse : (io id).next = .ready (some (.ok response))) :
    OutboundDrive errorText (io id) h id info
      (h.receiveResponse errorText id info request response) := by
  have hrespond : OutboundDrive errorText (io id) h id info _ :=
    .respond hstate response hresponse
  unfold OutboundInfo.afterResponse at hrespond
  unfold receiveResponse
  split
  · next hmore =>
    rw [if_pos hmore] at hrespond
    dsimp only at hrespond ⊢
    split
    · next hzero => rwa [if_pos hzero] at hrespond
    · next hleft =>
      rw [if_neg hleft] at hrespond
      cases hreset : h.outboundSubstreamsDelay.reset info.delayKey with
      | none => exact .panic (.inr (DelayQueue.reset_eq_none hreset))
      | some delay =>
        obtain rfl := DelayQueue.reset_eq_some hreset
        exact hrespond
  · next hlast => rwa [if_neg hlast] at hrespond

theorem driveOutbound_drive (hinfo : h.outboundSubstreams.lookup id = some info) :
    OutboundDrive errorText (io id) h id info (h.driveOutbound errorText io id) := by
  -- the timer is removed, or the queue panics
  have hremove : ∀ {k : RPCHandler Id S → Phase Id S},
      OutboundDrive errorText (io id) h id info (k (h.without id info.delayKey)) →
        OutboundDrive errorText (io id) h id info ((h.removeOutbound id info).andThen k) := by
    intro k hk
    unfold removeOutbound
    cases hdelay : h.outboundSubstreamsDelay.remove info.delayKey with
    | none => exact .panic (.inr (DelayQueue.remove_eq_none hdelay))
    | some delay =>
      obtain rfl := DelayQueue.remove_eq_some hdelay
      exact hk
  unfold driveOutbound
  rw [hinfo]
  dsimp only
  cases hstate : info.state with
  | poisoned => exact .panic (.inl hstate)
  | closing =>
    dsimp only
    cases hclose : (io id).close with
    | pending => exact .wait
    | ready res =>
      refine hremove ?_
      cases ht : closeTermination info.proto with
      | none => exact .close hstate
      | some t => exact .terminate hstate hclose ht
  | requestPendingResponse request =>
    dsimp only
    by_cases hdeactivated : h.isDeactivated = true
    · rw [if_pos hdeactivated]
      exact .disconnect hstate hdeactivated
    · rw [if_neg hdeactivated]
      cases hnext : (io id).next with
      | pending => exact .wait
      | ready result =>
        cases result with
        | none =>
          refine hremove ?_
          unfold RPCHandler.streamEnd
          by_cases hmore : 1 < request.expectedResponses
          · rw [if_pos hmore]
            obtain ⟨t, ht⟩ := request.streamTermination_of_expected hmore
            rw [ht]
            exact .streamEnd hstate t
          · rw [if_neg hmore]
            exact .fail hstate _ _
        | some result =>
          cases result with
          | ok response => exact receiveResponse_drive hstate hnext
          | error e => exact hremove (.fail hstate _ _)

/-- A turn of the loop on the outbound substreams, for the substream `id`. -/
inductive OutboundTurn (errorText : ErrorType → String) (io : OutboundPoll S)
    (h : RPCHandler Id S) (id : SubstreamId) (info : OutboundInfo Id) : Phase Id S → Prop
  | wait : OutboundTurn errorText io h id info (.next h)
  | disconnect {request : OutboundRequest} (hstate : info.state = .requestPendingResponse request)
      (hdeactivated : h.isDeactivated = true) :
      OutboundTurn errorText io h id info
        (.next { h.push (.error (.outbound info.reqId info.proto .disconnected)) with
          outboundSubstreams := h.outboundSubstreams.insert id { info with state := .closing } })
  | respond {request : OutboundRequest} (hstate : info.state = .requestPendingResponse request)
      (response : RPCCodedResponse S) (hresponse : io.next = .ready (some (.ok response)))
      {state : OutboundSubstreamState}
      (hclosing : state = .closing ∨
        state = .requestPendingResponse request ∧ response.closeAfter = false)
      (remainingChunks : Option UInt64) (delay : DelayQueue SubstreamId) :
      OutboundTurn errorText io h id info
        (.returned (.custom (received errorText info.reqId info.proto response),
          { h with
            outboundSubstreamsDelay := delay
            outboundSubstreams := h.outboundSubstreams.insert id
              { info with state := state, remainingChunks := remainingChunks } }))
  | fail {request : OutboundRequest} (hstate : info.state = .requestPendingResponse request)
      (proto : Protocol) (error : RPCError) (delay : DelayQueue SubstreamId) :
      OutboundTurn errorText io h id info
        (.returned (.custom (.error (.outbound info.reqId proto error)),
          { h with
            outboundSubstreamsDelay := delay
            outboundSubstreams := h.outboundSubstreams.erase id }))
  | streamEnd {request : OutboundRequest} (hstate : info.state = .requestPendingResponse request)
      (t : ResponseTermination) (delay : DelayQueue SubstreamId) :
      OutboundTurn errorText io h id info
        (.returned (.custom (.ok (.endOfStream info.reqId t)),
          { h with
            outboundSubstreamsDelay := delay
            outboundSubstreams := h.outboundSubstreams.erase id }))
  | close (hstate : info.state = .closing) (delay : DelayQueue SubstreamId) :
      OutboundTurn errorText io h id info
        (.next { h with
          outboundSubstreamsDelay := delay
          outboundSubstreams := h.outboundSubstreams.erase id })
  | terminate (hstate : info.state = .closing) {res : Except RPCError Unit}
      (hclose : io.close = .ready res) {t : ResponseTermination}
      (ht : closeTermination info.proto = some t) (delay : DelayQueue SubstreamId) :
      OutboundTurn errorText io h id info
        (.returned (.custom (.ok (.endOfStream info.reqId t)),
          { h with
            outboundSubstreamsDelay := delay
            outboundSubstreams := h.outboundSubstreams.erase id }))
  | panic : OutboundTurn errorText io h id info .panicked

theorem OutboundDrive.turn {phase : Phase Id S}
    (hdrive : OutboundDrive errorText (io id) h id info phase) :
    OutboundTurn errorText (io id) h id info phase := by
  cases hdrive with
  | wait => exact .wait
  | disconnect hstate hdeactivated => exact .disconnect hstate hdeactivated
  | fail hstate proto error => exact .fail hstate proto error _
  | streamEnd hstate t => exact .streamEnd hstate t _
  | close hstate => exact .close hstate _
  | terminate hstate hclose ht => exact .terminate hstate hclose ht _
  | panic hbad => exact .panic
  | @respond request hstate response hresponse =>
    have hclosing : OutboundTurn errorText (io id) h id info
        (.returned (.custom (received errorText info.reqId info.proto response), { h with
          outboundSubstreams :=
            h.outboundSubstreams.insert id { info with state := .closing } })) :=
      .respond hstate response hresponse (.inl rfl) info.remainingChunks h.outboundSubstreamsDelay
    unfold OutboundInfo.afterResponse
    split
    · next hmore =>
      have hopen : response.closeAfter = false := by
        rw [Bool.and_eq_true, Bool.not_eq_true'] at hmore
        exact hmore.2
      dsimp only
      split
      · exact hclosing
      · exact .respond hstate response hresponse (.inr ⟨rfl, hopen⟩) _ h.outboundSubstreamsDelay
    · exact hclosing

theorem driveOutbound_turn (hinfo : h.outboundSubstreams.lookup id = some info) :
    OutboundTurn errorText (io id) h id info (h.driveOutbound errorText io id) :=
  (driveOutbound_drive hinfo).turn

/-! ## Events and the shutdown -/

theorem report_cases (h : RPCHandler Id S) {N : Prop} :
    h.report.Meets (fun h' => h' = h ∧ h.eventsOut = [])
      (fun r => ∃ event rest, h.eventsOut = event :: rest ∧
        r = (.custom event, { h with eventsOut := rest })) N := by
  unfold report
  split
  · next event rest hevents => exact ⟨event, rest, hevents, rfl⟩
  · next hevents => exact ⟨rfl, hevents⟩

theorem pollShutdown_cases (timer : Bool) (h : RPCHandler Id S) {N : Prop} :
    (h.pollShutdown timer).Meets (fun h' => h' = h ∧ ¬(h.state = .shuttingDown ∧ timer = true))
      (fun r => (h.state = .shuttingDown ∧ timer = true) ∧
        r = (.close .disconnected, { h with state := .deactivated })) N := by
  unfold pollShutdown
  split
  · next hstate => exact ⟨⟨hstate, rfl⟩, rfl⟩
  · next hother => exact ⟨rfl, fun hdue => hother hdue.1 hdue.2⟩

/-! ## Dialing -/

/-- The requests that wait to be dialed and the counts of the dialing are the same. -/
structure SameDial (h h' : RPCHandler Id S) : Prop where
  dialQueue : h'.dialQueue = h.dialQueue
  dialNegotiated : h'.dialNegotiated = h.dialNegotiated
  maxDialNegotiated : h'.maxDialNegotiated = h.maxDialNegotiated
  outboundIoErrorRetries : h'.outboundIoErrorRetries = h.outboundIoErrorRetries

theorem SameDial.refl (h : RPCHandler Id S) : h.SameDial h := ⟨rfl, rfl, rfl, rfl⟩

theorem SameDial.trans (hl : h.SameDial h') (hr : h'.SameDial h'') : h.SameDial h'' :=
  ⟨hr.1.trans hl.1, hr.2.trans hl.2, hr.3.trans hl.3, hr.4.trans hl.4⟩

theorem Inward.sameDial (hstep : h.Inward h') : h.SameDial h' := by
  obtain ⟨_, _, _, _⟩ := hstep
  exact ⟨rfl, rfl, rfl, rfl⟩

/-- The event is no substream request, and the dialing is unchanged. -/
def NotDialed (h : RPCHandler Id S) (r : ConnectionHandlerEvent Id S × RPCHandler Id S) : Prop :=
  (∀ info, r.1 ≠ .outboundSubstreamRequest info) ∧ h.SameDial r.2

/-- The phase has nothing to do with the dialing. -/
def KeepsDial (h : RPCHandler Id S) (phase : Phase Id S) : Prop :=
  phase.Meets h.SameDial h.NotDialed True

theorem KeepsDial.of_sameDial {phase : Phase Id S} (hpast : h.SameDial h')
    (hphase : h'.KeepsDial phase) : h.KeepsDial phase :=
  hphase.mono (fun _ hstep => hpast.trans hstep) (fun _ hr => ⟨hr.1, hpast.trans hr.2⟩)
    fun hn => hn

theorem KeepsDial.andThen {phase : Phase Id S} {k : RPCHandler Id S → Phase Id S}
    (hphase : h.KeepsDial phase) (hk : ∀ h' : RPCHandler Id S, h'.KeepsDial (k h')) :
    h.KeepsDial (phase.andThen k) :=
  Flow.Meets.andThen hphase fun h' hstep => (hk h').of_sameDial hstep

theorem KeepsDial.each {ι : Type} {f : ι → RPCHandler Id S → Phase Id S}
    (hf : ∀ i (h' : RPCHandler Id S), h'.KeepsDial (f i h')) (is : List ι) :
    h.KeepsDial (Flow.each f is h) :=
  Flow.Meets.each_of_step (fun i h' hpast => (hf i h').of_sameDial hpast) is (.refl h)

theorem report_keepsDial (h : RPCHandler Id S) : h.KeepsDial h.report := by
  refine h.report_cases.mono (fun h' hnext => ?_) (fun r hr => ?_) fun hn => hn
  · rw [hnext.1]
    exact .refl h
  · obtain ⟨event, rest, -, rfl⟩ := hr
    exact ⟨fun _ => by simp, ⟨rfl, rfl, rfl, rfl⟩⟩

theorem pollShutdown_keepsDial (timer : Bool) (h : RPCHandler Id S) :
    h.KeepsDial (h.pollShutdown timer) := by
  refine (pollShutdown_cases timer h).mono (fun h' hnext => ?_) (fun r hr => ?_) fun hn => hn
  · rw [hnext.1]
    exact .refl h
  · obtain ⟨-, rfl⟩ := hr
    exact ⟨fun _ => by simp, ⟨rfl, rfl, rfl, rfl⟩⟩

theorem expireInbound_keepsDial (expiry : Expiry) (h : RPCHandler Id S) :
    h.KeepsDial (h.expireInbound expiry) := by
  refine (expireInbound_inward expiry h).mono (fun _ hstep => hstep.sameDial)
    (fun r hr => ?_) fun hn => hn
  obtain ⟨⟨error, herror⟩, hstep⟩ := hr
  exact ⟨fun _ => by simp [herror], hstep.sameDial⟩

theorem OutboundExpiry.keepsDial {expiry : Expiry} {phase : Phase Id S}
    (hexpiry : h.OutboundExpiry expiry phase) : h.KeepsDial phase := by
  cases hexpiry with
  | failed => exact ⟨fun _ => by simp, .refl h⟩
  | dead key => exact SameDial.refl h
  | stray key => exact SameDial.mk rfl rfl rfl rfl
  | timeout key => exact ⟨fun _ => by simp, ⟨rfl, rfl, rfl, rfl⟩⟩

theorem driveInbounds_keepsDial (io : PollIo S) (h : RPCHandler Id S) :
    h.KeepsDial (h.driveInbounds io) :=
  (driveInbounds_inward io h).mono (fun _ hstep => hstep.sameDial) (fun _ hr => hr.elim)
    fun hn => hn

theorem OutboundTurn.keepsDial {phase : Phase Id S}
    (hturn : OutboundTurn errorText (io id) h id info phase) : h.KeepsDial phase := by
  cases hturn with
  | wait => exact SameDial.refl h
  | disconnect | close => exact SameDial.mk rfl rfl rfl rfl
  | respond | fail | streamEnd | terminate => exact ⟨fun _ => by simp, ⟨rfl, rfl, rfl, rfl⟩⟩
  | panic => trivial

theorem driveOutbound_keepsDial (errorText : ErrorType → String)
    (io : SubstreamId → OutboundPoll S) (id : SubstreamId) (h : RPCHandler Id S) :
    h.KeepsDial (h.driveOutbound errorText io id) := by
  cases hinfo : h.outboundSubstreams.lookup id with
  | none =>
    unfold driveOutbound
    rw [hinfo]
    trivial
  | some info => exact (driveOutbound_turn hinfo).keepsDial

/-- **The dialing is untouched** up to the phase that dials. -/
theorem settle_keepsDial (errorText : ErrorType → String) (io : PollIo S)
    (h : RPCHandler Id S) : h.KeepsDial (h.settle errorText io) := by
  refine h.report_keepsDial.andThen fun h => ?_
  refine (pollShutdown_keepsDial io.shutdownTimer h).andThen fun h => ?_
  refine (KeepsDial.each expireInbound_keepsDial io.inboundTimers).andThen fun h => ?_
  refine (KeepsDial.each (fun expiry h' => (expireOutbound_expiry expiry h').keepsDial)
    io.outboundTimers).andThen fun h => ?_
  refine (driveInbounds_keepsDial io h).andThen fun h => ?_
  exact .each (driveOutbound_keepsDial errorText io.outbound) _

/-- A request of the queue is dialed. -/
structure Dialed (h : RPCHandler Id S) (info : Id × OutboundRequest)
    (r : ConnectionHandlerEvent Id S × RPCHandler Id S) : Prop where
  event : r.1 = .outboundSubstreamRequest info
  dialQueue : h.dialQueue = info :: r.2.dialQueue
  lt : h.dialNegotiated < h.maxDialNegotiated
  dialNegotiated : r.2.dialNegotiated = h.dialNegotiated + 1
  maxDialNegotiated : r.2.maxDialNegotiated = h.maxDialNegotiated
  outboundIoErrorRetries : r.2.outboundIoErrorRetries = h.outboundIoErrorRetries

theorem establish_cases (h : RPCHandler Id S) {N : Prop} :
    h.establish.Meets
      (fun h' => h' = h ∧ (h.dialQueue = [] ∨ h.maxDialNegotiated ≤ h.dialNegotiated))
      (fun r => ∃ info rest, h.dialQueue = info :: rest ∧
        h.dialNegotiated < h.maxDialNegotiated ∧ r = (.outboundSubstreamRequest info,
          { h with dialNegotiated := h.dialNegotiated + 1, dialQueue := rest })) N := by
  unfold establish
  split
  · next info rest hqueue =>
    split
    · next hlt => exact ⟨info, rest, hqueue, hlt, rfl⟩
    · next hnot => exact ⟨rfl, .inr (UInt32.not_lt.1 hnot)⟩
  · next hqueue => exact ⟨rfl, .inl hqueue⟩

theorem completeShutdown_cases (h : RPCHandler Id S) {N : Prop} :
    h.completeShutdown.Meets (fun h' => h' = h ∧ ¬(h.state = .shuttingDown ∧ h.isDone = true))
      (fun r => r = (.close .disconnected, h)) N := by
  unfold completeShutdown
  split
  · next hstate =>
    split
    · exact rfl
    · next hnot => exact ⟨rfl, fun hdone => hnot hdone.2⟩
  · next hstate => exact ⟨rfl, fun hdone => hstate hdone.1⟩

theorem Dialed.of_sameDial {info : Id × OutboundRequest}
    {r : ConnectionHandlerEvent Id S × RPCHandler Id S} (hpast : h.SameDial h')
    (hr : h'.Dialed info r) : h.Dialed info r where
  event := hr.event
  dialQueue := hpast.dialQueue.symm.trans hr.dialQueue
  lt := by
    rw [← hpast.dialNegotiated, ← hpast.maxDialNegotiated]
    exact hr.lt
  dialNegotiated := hr.dialNegotiated.trans (congrArg (· + 1) hpast.dialNegotiated)
  maxDialNegotiated := hr.maxDialNegotiated.trans hpast.maxDialNegotiated
  outboundIoErrorRetries := hr.outboundIoErrorRetries.trans hpast.outboundIoErrorRetries

/-- **A poll dials the next request, or has nothing to do with the dialing.** It is not
pending while a request waits and there is room for it. -/
theorem poll_dials (errorText : ErrorType → String) (io : PollIo S) (h : RPCHandler Id S) :
    (h.poll errorText io).Meets
      (fun h' => h.SameDial h' ∧ (h.dialQueue = [] ∨ h.maxDialNegotiated ≤ h.dialNegotiated))
      (fun r => h.NotDialed r ∨ ∃ info, h.Dialed info r) True := by
  refine ((h.settle_keepsDial errorText io).mono (fun _ hstep => hstep)
    (fun _ hr => .inl hr) fun hn => hn).andThen fun h₁ hpast => ?_
  refine (h₁.establish_cases.mono (fun _ hnext => hnext) (fun r hr => ?_)
    fun hn => hn).andThen fun h₂ hnext => ?_
  · obtain ⟨info, rest, hqueue, hlt, rfl⟩ := hr
    have hdialed : h₁.Dialed info (.outboundSubstreamRequest info,
        { h₁ with dialNegotiated := h₁.dialNegotiated + 1, dialQueue := rest }) :=
      ⟨rfl, hqueue, hlt, rfl, rfl, rfl⟩
    exact .inr ⟨info, hdialed.of_sameDial hpast⟩
  · obtain ⟨rfl, hidle⟩ := hnext
    rw [hpast.dialQueue, hpast.maxDialNegotiated, hpast.dialNegotiated] at hidle
    refine h₂.completeShutdown_cases.mono (fun h' hnext => ?_) (fun r hr => ?_) fun hn => hn
    · rw [hnext.1]
      exact ⟨hpast, hidle⟩
    · rw [hr]
      exact .inl ⟨fun _ => by simp, hpast⟩

end RPCHandler

end Consentry.Rpc
