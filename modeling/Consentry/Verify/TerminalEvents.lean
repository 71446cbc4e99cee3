import Consentry.Lib.Assoc
import Consentry.Lib.Ledger
import Consentry.Lib.Run
import Consentry.Verify.HandlerPhases

/-!
# Terminal events of outbound requests

A request waits in the queue of those to be dialed, is being negotiated, or has a substream; a
terminal event about it is an error or the end of its stream.

**`Connection.ended_once`**: where the ids of the requests are distinct, no event about a
request follows its terminal event, and so no request has two, in every run whose calls leave
the requests alone that have had theirs (`LeavesEnded`). The substream of such a request may
still be closing. Its end is reported again when it belongs to a request for blocks and closes,
and when its timer runs out first; a substream that is negotiated by a deactivated handler is
kept after the error that is reported for it.

The proof keeps the requests as tickets of a ledger (`Connection.InOrder`).
-/

namespace Consentry.Rpc

open Lib

/-! ## The books on the requests -/

namespace RPCHandler

variable {Id : Type} {S : EthSpec}

/-- The event is the last one about its request. -/
def isTerminal : HandlerEvent Id S → Bool
  | .error (.outbound _ _ _) => true
  | .ok (.endOfStream _ _) => true
  | .error (.inbound _ _ _) => false
  | .ok (.request _ _) => false
  | .ok (.response _ _) => false

variable [DecidableEq Id] {dialQueue opening : List (Id × OutboundRequest)}
  {substreams : Map SubstreamId (OutboundInfo Id)} {sid : SubstreamId}
  {info info' : OutboundInfo Id}

def holds (id : Id) (_ : SubstreamId) (info : OutboundInfo Id) : ℕ :=
  if info.reqId = id then 1 else 0

/-- The number of places that hold a request. -/
def held (dialQueue opening : List (Id × OutboundRequest))
    (substreams : Map SubstreamId (OutboundInfo Id)) (id : Id) : ℕ :=
  (dialQueue.map Prod.fst).count id + (opening.map Prod.fst).count id +
    substreams.total (holds id)

omit [DecidableEq Id] in
/-- The request has still to end: no substream of it is closing. -/
def live (dialQueue opening : List (Id × OutboundRequest))
    (substreams : Map SubstreamId (OutboundInfo Id)) (id : Id) : Prop :=
  id ∈ dialQueue.map Prod.fst ∨ id ∈ opening.map Prod.fst ∨
    ∃ sid info, substreams.lookup sid = some info ∧ info.state ≠ .closing ∧ info.reqId = id

theorem held_of_lookup (hinfo : substreams.lookup sid = some info) (id : Id) :
    held dialQueue opening substreams id =
      held dialQueue opening (substreams.erase sid) id + holds id sid info := by
  have herase := Map.total_erase_add (holds id) substreams sid
  rw [Map.weightAt_of_lookup hinfo] at herase
  unfold held
  omega

theorem held_pos (hinfo : substreams.lookup sid = some info) :
    0 < held dialQueue opening substreams info.reqId := by
  rw [held_of_lookup hinfo, holds, if_pos rfl]
  exact Nat.succ_pos _

theorem held_erase_le (sid : SubstreamId) (id : Id) :
    held dialQueue opening (substreams.erase sid) id ≤ held dialQueue opening substreams id := by
  have herase := Map.total_erase_add (holds id) substreams sid
  unfold held
  omega

theorem held_insert (hinfo : substreams.lookup sid = some info)
    (hid : info'.reqId = info.reqId) (id : Id) :
    held dialQueue opening (substreams.insert sid info') id =
      held dialQueue opening substreams id := by
  have hinsert := Map.total_insert_add (holds id) substreams sid info'
  have hsame : holds id sid info' = holds id sid info := by
    unfold holds
    rw [hid]
  rw [Map.weightAt_of_lookup hinfo, hsame] at hinsert
  unfold held
  omega

theorem held_of_live {id : Id} (hlive : live dialQueue opening substreams id) :
    0 < held dialQueue opening substreams id := by
  rcases hlive with hqueue | hopening | ⟨sid, info, hinfo, -, rfl⟩
  · have hpos := List.count_pos_iff.2 hqueue
    unfold held
    omega
  · have hpos := List.count_pos_iff.2 hopening
    unfold held
    omega
  · exact held_pos hinfo

/-- The substream `sid` is the only place that holds the request. -/
structure Alone (dialQueue opening : List (Id × OutboundRequest))
    (substreams : Map SubstreamId (OutboundInfo Id)) (sid : SubstreamId) (id : Id) : Prop where
  dialQueue : id ∉ dialQueue.map Prod.fst
  opening : id ∉ opening.map Prod.fst
  other : ∀ sid' info', sid' ≠ sid → substreams.lookup sid' = some info' → info'.reqId ≠ id

theorem alone_of_held (hinfo : substreams.lookup sid = some info)
    (honce : held dialQueue opening substreams info.reqId ≤ 1) :
    Alone dialQueue opening substreams sid info.reqId := by
  rw [held_of_lookup hinfo, holds, if_pos rfl] at honce
  have hzero : held dialQueue opening (substreams.erase sid) info.reqId = 0 := by omega
  have hnone : ¬ live dialQueue opening (substreams.erase sid) info.reqId := by
    intro hlive
    have hpos := held_of_live hlive
    omega
  refine ⟨fun hqueue => hnone (.inl hqueue), fun hopening => hnone (.inr (.inl hopening)), ?_⟩
  intro sid' info' hne hinfo' hsame
  have hkept : (substreams.erase sid).lookup sid' = some info' := by
    rw [Map.lookup_erase_eq, if_neg hne]
    exact hinfo'
  have hpos : 0 < held dialQueue opening (substreams.erase sid) info'.reqId := held_pos hkept
  rw [hsame] at hpos
  omega

omit [DecidableEq Id] in
/-- What is live when the substream of a request is gone or closing. -/
theorem Alone.live_of_end {substreams' : Map SubstreamId (OutboundInfo Id)} {id j : Id}
    (halone : Alone dialQueue opening substreams sid id)
    (hother : ∀ sid', sid' ≠ sid → substreams'.lookup sid' = substreams.lookup sid')
    (hend : ∀ info, substreams'.lookup sid = some info → info.state = .closing)
    (hlive : live dialQueue opening substreams' j) :
    live dialQueue opening substreams j ∧ j ≠ id := by
  rcases hlive with hqueue | hopening | ⟨sid', info', hinfo', hstate, rfl⟩
  · exact ⟨.inl hqueue, fun hsame => halone.dialQueue (hsame ▸ hqueue)⟩
  · exact ⟨.inr (.inl hopening), fun hsame => halone.opening (hsame ▸ hopening)⟩
  · by_cases hsid : sid' = sid
    · subst hsid
      exact absurd (hend info' hinfo') hstate
    · rw [hother sid' hsid] at hinfo'
      exact ⟨.inr (.inr ⟨sid', info', hinfo', hstate, rfl⟩), halone.other sid' info' hsid hinfo'⟩

omit [DecidableEq Id] in
theorem Alone.live_erase {id j : Id} (halone : Alone dialQueue opening substreams sid id)
    (hlive : live dialQueue opening (substreams.erase sid) j) :
    live dialQueue opening substreams j ∧ j ≠ id := by
  refine halone.live_of_end (fun sid' hne => ?_) (fun info hinfo => ?_) hlive
  · rw [Map.lookup_erase_eq, if_neg hne]
  · rw [Map.lookup_erase_eq, if_pos rfl] at hinfo
    cases hinfo

omit [DecidableEq Id] in
theorem Alone.live_closing {id j : Id} (halone : Alone dialQueue opening substreams sid id)
    (hstate : info'.state = .closing)
    (hlive : live dialQueue opening (substreams.insert sid info') j) :
    live dialQueue opening substreams j ∧ j ≠ id := by
  refine halone.live_of_end (fun sid' hne => ?_) (fun info hinfo => ?_) hlive
  · rw [Map.lookup_insert_eq, if_neg hne]
  · rw [Map.lookup_insert_eq, if_pos rfl] at hinfo
    rw [← Option.some.inj hinfo]
    exact hstate

omit [DecidableEq Id] in
theorem live_insert {j : Id} (hinfo : substreams.lookup sid = some info)
    (hid : info'.reqId = info.reqId) (hstate : info.state ≠ .closing)
    (hlive : live dialQueue opening (substreams.insert sid info') j) :
    live dialQueue opening substreams j := by
  rcases hlive with hqueue | hopening | ⟨sid', info'', hinfo', hstate', rfl⟩
  · exact .inl hqueue
  · exact .inr (.inl hopening)
  · rw [Map.lookup_insert_eq] at hinfo'
    split at hinfo'
    · rw [← Option.some.inj hinfo', hid]
      exact .inr (.inr ⟨sid, info, hinfo, hstate, rfl⟩)
    · exact .inr (.inr ⟨sid', info'', hinfo', hstate', rfl⟩)

end RPCHandler

/-! ## The phases of a poll -/

namespace Connection

open RPCHandler

variable {Id : Type} {S : EthSpec} [DecidableEq Id] {issued : Id → Prop} {c : Connection Id S}
  {h h' : RPCHandler Id S} {errorText : ErrorType → String}

def books (c : Connection Id S) : Ledger Id (HandlerEvent Id S) where
  held := held c.handler.dialQueue c.opening c.handler.outboundSubstreams
  live := live c.handler.dialQueue c.opening c.handler.outboundSubstreams
  log := c.log
  queue := c.handler.eventsOut

/-- The books on the requests are in order, `issued` being those that have been made. -/
def InOrder (issued : Id → Prop) (c : Connection Id S) : Prop :=
  c.books.Sound outboundId isTerminal issued

omit [DecidableEq Id] in
/-- The terminal event of the request has been returned or is queued. -/
def Ended (c : Connection Id S) (id : Id) : Prop :=
  SettledIn outboundId isTerminal (c.log ++ c.handler.eventsOut) id

/-- The phase keeps the books in order, with the event that it returns. -/
def Keeps (issued : Id → Prop) (c : Connection Id S) (phase : Phase Id S) : Prop :=
  phase.Meets (fun h => (c.withHandler h).InOrder issued)
    (fun r => ((c.withHandler r.2).keep r.1).InOrder issued) True

theorem InOrder.inward (hc : (c.withHandler h).InOrder issued) (hstep : h.Inward h') :
    (c.withHandler h').InOrder issued := by
  obtain ⟨inbound, delay, current, hevents⟩ := hstep
  exact hc.quiet (fun _ => Nat.le_refl _) (fun _ hlive => hlive) hevents

theorem InOrder.report (hc : (c.withHandler h).InOrder issued) :
    h.report.Meets (fun h' => h' = h ∧ h.eventsOut = [])
      (fun r => ((c.withHandler r.2).keep r.1).InOrder issued) True := by
  refine h.report_cases.mono (fun _ hnext => hnext) (fun r hr => ?_) fun hn => hn
  obtain ⟨event, rest, hevents, rfl⟩ := hr
  unfold InOrder books at hc
  rw [show (c.withHandler h).handler.eventsOut = event :: rest from hevents] at hc
  exact hc.deliver

/-! ### The request of one substream -/

variable {id : SubstreamId} {info : OutboundInfo Id} {event : HandlerEvent Id S}

/-- A substream that awaits a response belongs to a request that has not ended. -/
theorem InOrder.not_ended (hc : (c.withHandler h).InOrder issued)
    (hinfo : h.outboundSubstreams.lookup id = some info) (hstate : info.state ≠ .closing) :
    ¬ (c.withHandler h).Ended info.reqId :=
  hc.unsettled _ (.inr (.inr ⟨id, info, hinfo, hstate, rfl⟩))

/-- A final event is returned, and the substream is gone. -/
theorem InOrder.endSubstream (hc : (c.withHandler h).InOrder issued)
    (hinfo : h.outboundSubstreams.lookup id = some info)
    (habout : outboundId event = some info.reqId)
    (hended : ¬ (c.withHandler h).Ended info.reqId) (delay : DelayQueue SubstreamId) :
    ((c.withHandler { h with
      outboundSubstreamsDelay := delay
      outboundSubstreams := h.outboundSubstreams.erase id }).keep (.custom event)).InOrder
        issued := by
  have halone := alone_of_held hinfo (hc.once info.reqId)
  refine Ledger.Sound.report hc habout hended (hc.issued_of_held _ (held_pos hinfo))
    (held_erase_le id) fun j hj => ?_
  exact ⟨(halone.live_erase hj).1, fun _ => (halone.live_erase hj).2⟩

/-- A response is returned, and the substream is closing unless it is to stay open. -/
theorem InOrder.respond (hc : (c.withHandler h).InOrder issued)
    (hinfo : h.outboundSubstreams.lookup id = some info) (hstate : info.state ≠ .closing)
    (response : RPCCodedResponse S) {info' : OutboundInfo Id} (hid : info'.reqId = info.reqId)
    (hclosing : info'.state = .closing ∨ response.closeAfter = false)
    (delay : DelayQueue SubstreamId) :
    ((c.withHandler { h with
      outboundSubstreamsDelay := delay
      outboundSubstreams := h.outboundSubstreams.insert id info' }).keep
        (.custom (received errorText info.reqId info.proto response))).InOrder issued := by
  have halone := alone_of_held hinfo (hc.once info.reqId)
  have habout : outboundId (received errorText info.reqId info.proto response) =
      some info.reqId := by
    cases response <;> rfl
  refine Ledger.Sound.report hc habout (hc.not_ended hinfo hstate)
    (hc.issued_of_held _ (held_pos hinfo)) (fun j => (held_insert hinfo hid j).le) fun j hj => ?_
  rcases hclosing with hclosing | hopen
  · exact ⟨(halone.live_closing hclosing hj).1, fun _ => (halone.live_closing hclosing hj).2⟩
  · refine ⟨live_insert hinfo hid hstate hj, fun hfinal => ?_⟩
    cases response with
    | success => cases hfinal
    | error | streamTermination => cases hopen

/-! ### The timers -/

/-- No timer that runs out belongs to a request that has ended. -/
def TimersSpare (c : Connection Id S) (expiries : List Expiry) (h : RPCHandler Id S) : Prop :=
  ∀ key sid info, .expired key ∈ expiries →
    h.outboundSubstreamsDelay.live.lookup key = some sid →
    h.outboundSubstreams.lookup sid = some info → ¬ (c.withHandler h).Ended info.reqId

theorem InOrder.expireOutbounds (hc : (c.withHandler h).InOrder issued) {expiries : List Expiry}
    (hspare : c.TimersSpare expiries h) :
    (Flow.each expireOutbound expiries h).Meets
      (fun h' => ∃ delay, h' = { h with outboundSubstreamsDelay := delay })
      (fun r => ((c.withHandler r.2).keep r.1).InOrder issued) True := by
  have hloop : (Flow.each expireOutbound expiries h).Meets
      (fun h' => (∃ delay, h' = { h with outboundSubstreamsDelay := delay }) ∧
        c.TimersSpare [] h')
      (fun r => ((c.withHandler r.2).keep r.1).InOrder issued) True := by
    refine Flow.Meets.each (I := fun rest h' =>
      (∃ delay, h' = { h with outboundSubstreamsDelay := delay }) ∧ c.TimersSpare rest h')
      (fun expiry rest h₁ hpast => ?_) ⟨⟨h.outboundSubstreamsDelay, rfl⟩, hspare⟩
    obtain ⟨⟨delay, rfl⟩, hspare⟩ := hpast
    have hrest : c.TimersSpare rest { h with outboundSubstreamsDelay := delay } :=
      fun key sid info hmem => hspare key sid info (List.mem_cons_of_mem expiry hmem)
    have hturn := expireOutbound_expiry expiry { h with outboundSubstreamsDelay := delay }
    generalize expireOutbound expiry { h with outboundSubstreamsDelay := delay } = phase at hturn
    cases hturn with
    | failed => exact hc
    | dead key => exact ⟨⟨delay, rfl⟩, hrest⟩
    | stray key =>
      refine ⟨⟨_, rfl⟩, fun key' sid info hmem hkey => hrest key' sid info hmem ?_⟩
      rw [Map.lookup_erase_eq] at hkey
      split at hkey
      · cases hkey
      · exact hkey
    | @timeout key id info hkey hinfo =>
      exact hc.endSubstream hinfo rfl (hspare key id info List.mem_cons_self hkey hinfo) _
  exact hloop.mono (fun _ hnext => hnext.1) (fun _ hr => hr) fun hn => hn

/-! ### The substreams -/

/-- The substream does not finish closing, if its end is reported and its request has ended. -/
def CloseSpares (c : Connection Id S) (io : SubstreamId → OutboundPoll S)
    (h : RPCHandler Id S) (sid : SubstreamId) : Prop :=
  ∀ info, h.outboundSubstreams.lookup sid = some info → closeTermination info.proto ≠ none →
    (io sid).close ≠ .pending → info.state = .closing → ¬ (c.withHandler h).Ended info.reqId

/-- What the loop on the outbound substreams keeps, `ids` being those it has still to drive. -/
structure Driving (issued : Id → Prop) (c : Connection Id S) (io : SubstreamId → OutboundPoll S)
    (ids : List SubstreamId) (h : RPCHandler Id S) : Prop where
  inOrder : (c.withHandler h).InOrder issued
  nodup : ids.Nodup
  closes : ∀ sid ∈ ids, c.CloseSpares io h sid

variable {io : SubstreamId → OutboundPoll S} {ids : List SubstreamId}

/-- A deactivated handler queues the error of a request and closes its substream. -/
theorem Driving.disconnect (hd : Driving issued c io (id :: ids) h)
    (hinfo : h.outboundSubstreams.lookup id = some info) (hstate : info.state ≠ .closing) :
    Driving issued c io ids
      { h.push (.error (.outbound info.reqId info.proto .disconnected)) with
        outboundSubstreams := h.outboundSubstreams.insert id { info with state := .closing } } := by
  have hc := hd.inOrder
  obtain ⟨hnew, hnodup⟩ := List.nodup_cons.1 hd.nodup
  have halone := alone_of_held hinfo (hc.once info.reqId)
  refine ⟨?_, hnodup, fun sid hmem info' hinfo' hproto hclose hclosing => ?_⟩
  · exact Ledger.Sound.queue hc rfl rfl (hc.not_ended hinfo hstate)
      (hc.issued_of_held _ (held_pos hinfo)) (fun j => (held_insert hinfo rfl j).le)
      fun j hj => halone.live_closing rfl hj
  · have hne : sid ≠ id := fun hsame => hnew (hsame ▸ hmem)
    have hkept : h.outboundSubstreams.lookup sid = some info' := by
      rwa [Map.lookup_insert_eq, if_neg hne] at hinfo'
    have hspare := hd.closes sid (List.mem_cons_of_mem id hmem) info' hkept hproto hclose hclosing
    -- the error is that of another request
    show ¬ SettledIn _ _ (c.log ++ (h.eventsOut ++ [_])) _
    rw [← List.append_assoc, settledIn_append]
    rintro (hsettled | ⟨event, hevent, habout, -⟩)
    · exact hspare hsettled
    · rw [List.mem_singleton.1 hevent] at habout
      exact halone.other sid info' hne hkept (Option.some.inj habout).symm

/-- A substream is closed, and nothing is reported. -/
theorem Driving.close (hd : Driving issued c io (id :: ids) h)
    (hinfo : h.outboundSubstreams.lookup id = some info) (delay : DelayQueue SubstreamId) :
    Driving issued c io ids { h with
      outboundSubstreamsDelay := delay
      outboundSubstreams := h.outboundSubstreams.erase id } := by
  have hc := hd.inOrder
  obtain ⟨hnew, hnodup⟩ := List.nodup_cons.1 hd.nodup
  have halone := alone_of_held hinfo (hc.once info.reqId)
  refine ⟨?_, hnodup, fun sid hmem info' hinfo' => ?_⟩
  · exact Ledger.Sound.move hc (held_erase_le id) fun j hj => (halone.live_erase hj).1
  · have hne : sid ≠ id := fun hsame => hnew (hsame ▸ hmem)
    rw [Map.lookup_erase_eq, if_neg hne] at hinfo'
    exact hd.closes sid (List.mem_cons_of_mem id hmem) info' hinfo'

theorem Driving.turn (hd : Driving issued c io (id :: ids) h)
    (hinfo : h.outboundSubstreams.lookup id = some info) {phase : Phase Id S}
    (hturn : OutboundTurn errorText (io id) h id info phase) :
    phase.Meets (Driving issued c io ids)
      (fun r => ((c.withHandler r.2).keep r.1).InOrder issued) True := by
  have hc := hd.inOrder
  cases hturn with
  | wait =>
    exact Driving.mk hc (List.nodup_cons.1 hd.nodup).2
      fun sid hmem => hd.closes sid (List.mem_cons_of_mem id hmem)
  | panic => trivial
  | disconnect hstate hdeactivated => exact hd.disconnect hinfo (by simp [hstate])
  | close hstate delay => exact hd.close hinfo delay
  | respond hstate response hresponse hclosing remainingChunks delay =>
    refine hc.respond hinfo (by simp [hstate]) response ?_ ?_ delay
    · rfl
    · exact hclosing.imp_right And.right
  | fail hstate proto error delay =>
    exact hc.endSubstream hinfo rfl (hc.not_ended hinfo (by simp [hstate])) delay
  | streamEnd hstate t delay =>
    exact hc.endSubstream hinfo rfl (hc.not_ended hinfo (by simp [hstate])) delay
  | terminate hstate hclose ht delay =>
    refine hc.endSubstream hinfo rfl (hd.closes id List.mem_cons_self info hinfo ?_ ?_ hstate) delay
    · simp [ht]
    · simp [hclose]

theorem InOrder.driveOutbounds (hc : (c.withHandler h).InOrder issued) {io : PollIo S}
    (hspare : ∀ sid, c.CloseSpares io.outbound h sid) :
    c.Keeps issued (h.driveOutbounds errorText io) := by
  have hkeys : (io.outboundOrder.run h.outboundSubstreams.keys).Nodup :=
    (io.outboundOrder.perm _).nodup_iff.2 h.outboundSubstreams.keys_nodup
  refine (Flow.Meets.each (I := Driving issued c io.outbound) (fun id rest h₁ hd => ?_)
    ⟨hc, hkeys, fun sid _ => hspare sid⟩).mono (fun _ hd => hd.inOrder) (fun _ hr => hr)
      fun hn => hn
  cases hinfo : h₁.outboundSubstreams.lookup id with
  | none =>
    unfold driveOutbound
    rw [hinfo]
    trivial
  | some info => exact hd.turn hinfo (driveOutbound_turn hinfo)

/-! ### The whole poll -/

omit [DecidableEq Id] in
theorem ended_inward (hstep : h.Inward h') (id : Id) :
    (c.withHandler h').Ended id ↔ (c.withHandler h).Ended id := by
  obtain ⟨inbound, delay, current, hevents⟩ := hstep
  show SettledIn _ _ (c.log ++ (h.eventsOut ++ _)) id ↔ SettledIn _ _ (c.log ++ h.eventsOut) id
  rw [← List.append_assoc, settledIn_append]
  refine ⟨fun hsettled => hsettled.resolve_right ?_, .inl⟩
  rintro ⟨event, hevent, habout, -⟩
  rw [hevents event hevent] at habout
  cases habout

omit [DecidableEq Id] in
theorem TimersSpare.inward {expiries : List Expiry} (hspare : c.TimersSpare expiries h)
    (hstep : h.Inward h') : c.TimersSpare expiries h' := by
  intro key sid info hmem hkey hinfo
  rw [ended_inward hstep]
  obtain ⟨_, _, _, _⟩ := hstep
  exact hspare key sid info hmem hkey hinfo

omit [DecidableEq Id] in
theorem CloseSpares.inward {io : SubstreamId → OutboundPoll S} {sid : SubstreamId}
    (hspare : c.CloseSpares io h sid) (hstep : h.Inward h') : c.CloseSpares io h' sid := by
  intro info hinfo hproto hclose hstate
  rw [ended_inward hstep]
  obtain ⟨_, _, _, _⟩ := hstep
  exact hspare info hinfo hproto hclose hstate

theorem InOrder.establish (hc : (c.withHandler h).InOrder issued) :
    h.establish.Meets (fun h' => h' = h)
      (fun r => ((c.withHandler r.2).keep r.1).InOrder issued) True := by
  refine h.establish_cases.mono (fun _ hnext => hnext.1) (fun r hr => ?_) fun hn => hn
  obtain ⟨info, rest, hqueue, -, rfl⟩ := hr
  have hdq : (c.withHandler h).handler.dialQueue = info :: rest := hqueue
  refine Ledger.Sound.move hc (fun k => ?_) fun k hlive => ?_
  · show held rest (c.opening ++ [info]) h.outboundSubstreams k ≤
      held h.dialQueue c.opening h.outboundSubstreams k
    unfold held
    rw [hqueue]
    simp only [List.map_append, List.map_cons, List.map_nil, List.count_append, List.count_cons,
      List.count_nil]
    omega
  · show live h.dialQueue c.opening h.outboundSubstreams k
    rw [hqueue]
    rcases hlive with hrest | hopening | hsub
    · exact .inl (List.mem_cons_of_mem _ hrest)
    · change k ∈ (c.opening ++ [info]).map Prod.fst at hopening
      rw [List.map_append, List.mem_append] at hopening
      rcases hopening with hopening | hnew
      · exact .inr (.inl hopening)
      · rw [List.map_singleton, List.mem_singleton] at hnew
        rw [hnew]
        exact .inl List.mem_cons_self
    · exact .inr (.inr hsub)

/-- What a poll does not touch. -/
structure PollSpares (c : Connection Id S) (io : PollIo S) : Prop where
  timers : c.TimersSpare io.outboundTimers c.handler
  closes : ∀ sid, c.CloseSpares io.outbound c.handler sid

theorem InOrder.settle (hc : c.InOrder issued) {io : PollIo S}
    (hspare : c.handler.eventsOut = [] →
      ¬(c.handler.state = .shuttingDown ∧ io.shutdownTimer = true) → c.PollSpares io) :
    c.Keeps issued (c.handler.settle errorText io) := by
  refine (InOrder.report (c := c) hc).andThen fun h₁ hfirst => ?_
  obtain ⟨rfl, hempty⟩ := hfirst
  refine ((pollShutdown_cases io.shutdownTimer c.handler).mono (fun _ hnext => hnext)
    (fun r hr => ?_) fun hn => hn).andThen fun h₂ hsecond => ?_
  · obtain ⟨-, rfl⟩ := hr
    exact hc
  obtain ⟨rfl, hactive⟩ := hsecond
  obtain ⟨htimers, hcloses⟩ := hspare hempty hactive
  refine ((expireInbounds_inward io.inboundTimers c.handler).mono (fun _ hstep => hstep)
    (fun r hr => ?_) fun hn => hn).andThen fun h₃ hstep => ?_
  · obtain ⟨⟨error, herror⟩, hstep⟩ := hr
    rw [herror]
    exact InOrder.inward (c := c) hc hstep
  have hc₃ : (c.withHandler h₃).InOrder issued := InOrder.inward (c := c) hc hstep
  refine (hc₃.expireOutbounds (htimers.inward hstep)).andThen fun h₄ hexpired => ?_
  obtain ⟨delay, rfl⟩ := hexpired
  have hcloses₃ : ∀ sid, c.CloseSpares io.outbound h₃ sid :=
    fun sid => (hcloses sid).inward hstep
  have hcloses₄ : ∀ sid, c.CloseSpares io.outbound
      { h₃ with outboundSubstreamsDelay := delay } sid := hcloses₃
  have hc₄ : (c.withHandler { h₃ with outboundSubstreamsDelay := delay }).InOrder issued := hc₃
  refine ((driveInbounds_inward io _).mono (fun _ hstep => hstep) (fun _ hr => hr.elim)
    fun hn => hn).andThen fun h₅ hstep₅ => ?_
  have hc₅ : (c.withHandler h₅).InOrder issued := hc₄.inward hstep₅
  exact hc₅.driveOutbounds fun sid => (hcloses₄ sid).inward hstep₅

theorem InOrder.polled (hc : c.InOrder issued) {io : PollIo S}
    (hspare : c.handler.eventsOut = [] →
      ¬(c.handler.state = .shuttingDown ∧ io.shutdownTimer = true) → c.PollSpares io) :
    (c.polled (c.handler.poll errorText io)).InOrder issued := by
  have hpoll : c.Keeps issued (c.handler.poll errorText io) := by
    refine (hc.settle hspare).andThen fun h₁ hc₁ => ?_
    refine (InOrder.establish hc₁).andThen fun h₂ hsame => ?_
    subst hsame
    refine h₂.completeShutdown_cases.mono (fun h' hnext => ?_) (fun r hr => ?_) fun hn => hn
    · rw [hnext.1]
      exact hc₁
    · rw [hr]
      exact hc₁
  cases hresult : c.handler.poll errorText io with
  | next h =>
    rw [hresult] at hpoll
    exact hpoll
  | returned r =>
    rw [hresult] at hpoll
    exact hpoll
  | panicked => exact hc

/-! ## The calls -/

/-- What a new request is held by. -/
theorem held_dialed (dialQueue opening : List (Id × OutboundRequest))
    (substreams : Map SubstreamId (OutboundInfo Id)) (info : Id × OutboundRequest) (k : Id) :
    held (dialQueue ++ [info]) opening substreams k =
      held dialQueue opening substreams k + if info.1 = k then 1 else 0 := by
  unfold held
  by_cases hk : info.1 = k
  · simp [hk]
    omega
  · simp [hk]

omit [DecidableEq Id] in
theorem live_dialed {dialQueue opening : List (Id × OutboundRequest)}
    {substreams : Map SubstreamId (OutboundInfo Id)} {info : Id × OutboundRequest} {k : Id}
    (hlive : live (dialQueue ++ [info]) opening substreams k) :
    live dialQueue opening substreams k ∨ k = info.1 := by
  rcases hlive with hqueue | hrest
  · rw [List.map_append, List.mem_append] at hqueue
    rcases hqueue with hqueue | hnew
    · exact .inl (.inl hqueue)
    · rw [List.map_singleton, List.mem_singleton] at hnew
      exact .inr hnew
  · exact .inl (.inr hrest)

/-- A request is made. -/
theorem InOrder.sendRequest (hc : (c.withHandler h).InOrder issued) {id : Id}
    (hnew : ¬ issued id) (req : OutboundRequest) :
    (c.withHandler (h.sendRequest id req)).InOrder (fun j => issued j ∨ j = id) := by
  have hissue := Ledger.Sound.issue hc hnew
  unfold RPCHandler.sendRequest
  split
  · refine hissue.move (fun k => ?_) fun k hlive => live_dialed hlive
    exact (held_dialed h.dialQueue c.opening h.outboundSubstreams (id, req) k).le
  · refine hissue.queue rfl rfl (hc.unsettled_of_not_issued hnew) (.inr rfl)
      (fun k => Nat.le_add_right _ _) fun k hlive => ⟨.inl hlive, ?_⟩
    rintro rfl
    exact hnew (hc.issued_of_held k (held_of_live hlive))

/-! ### The shutdown -/

/-- The last request of the queue is given up. -/
theorem InOrder.giveUpLast {rest : List (Id × OutboundRequest)} {last : Id × OutboundRequest}
    (hc : (c.withHandler h).InOrder issued) (hqueue : h.dialQueue = rest ++ [last]) :
    (c.withHandler { h with
      dialQueue := rest
      eventsOut := h.eventsOut ++ [.error (.outbound last.1 last.2.protocol .disconnected)] }
      ).InOrder issued := by
  have hheld : ∀ k, held h.dialQueue c.opening h.outboundSubstreams k =
      held rest c.opening h.outboundSubstreams k + if last.1 = k then 1 else 0 := by
    intro k
    rw [hqueue, held_dialed]
  have honce : held h.dialQueue c.opening h.outboundSubstreams last.1 ≤ 1 := hc.once last.1
  have hlive : live h.dialQueue c.opening h.outboundSubstreams last.1 := by
    rw [hqueue]
    exact .inl (by simp)
  refine Ledger.Sound.queue hc rfl rfl (hc.unsettled _ hlive)
    (hc.issued_of_held _ (held_of_live hlive)) (fun k => ?_) fun k hk => ⟨?_, ?_⟩
  · show held rest c.opening h.outboundSubstreams k ≤
      held h.dialQueue c.opening h.outboundSubstreams k
    rw [hheld]
    exact Nat.le_add_right _ _
  · show live h.dialQueue c.opening h.outboundSubstreams k
    rw [hqueue]
    refine hk.imp_left fun hk => ?_
    rw [List.map_append]
    exact List.mem_append_left _ hk
  · rintro rfl
    have hpos := held_of_live hk
    change 0 < held rest c.opening h.outboundSubstreams last.1 at hpos
    rw [hheld, if_pos rfl] at honce
    omega

/-- The requests of the queue are given up, from its end. -/
theorem InOrder.giveUp {rest : List (Id × OutboundRequest)}
    (hc : (c.withHandler h).InOrder issued) (hqueue : h.dialQueue = rest.reverse) :
    (c.withHandler { h with
      dialQueue := []
      eventsOut := h.eventsOut ++ rest.map fun info =>
        .error (.outbound info.1 info.2.protocol .disconnected) }).InOrder issued := by
  induction rest generalizing h with
  | nil =>
    rw [List.map_nil, List.append_nil]
    have hsame : { h with dialQueue := [], eventsOut := h.eventsOut } = h := by
      rw [← show h.dialQueue = [] from hqueue]
    rwa [hsame]
  | cons info rest ih =>
    rw [List.reverse_cons] at hqueue
    have hrest := ih (hc.giveUpLast hqueue) rfl
    rw [List.map_cons]
    simpa only [List.append_assoc, List.singleton_append] using hrest

theorem InOrder.shutdown (hc : (c.withHandler h).InOrder issued) :
    (c.withHandler (h.shutdown none)).InOrder issued := by
  unfold RPCHandler.shutdown
  split
  · exact hc.giveUp (List.reverse_reverse h.dialQueue).symm
  · exact hc

/-- A goodbye is a request, if it is sent. -/
theorem InOrder.shutdown_goodbye (hc : (c.withHandler h).InOrder issued) {id : Id}
    (hnew : ¬ issued id) (reason : GoodbyeReason) :
    (c.withHandler (h.shutdown (some (id, reason)))).InOrder (fun j => issued j ∨ j = id) := by
  unfold RPCHandler.shutdown
  split
  · have hgiven := hc.giveUp (List.reverse_reverse h.dialQueue).symm
    refine (Ledger.Sound.issue hgiven hnew).move (fun k => ?_) fun k hlive => ?_
    · exact (held_dialed [] c.opening h.outboundSubstreams (id, .goodbye reason) k).le
    · change live ([] ++ [(id, .goodbye reason)]) c.opening h.outboundSubstreams k at hlive
      exact live_dialed hlive
  · exact hc.mono fun k hk => .inl hk

theorem InOrder.injectFullyNegotiatedInbound (hc : c.InOrder issued) (req : InboundRequest)
    (substream : InboundSubstream S) (preferred : ℕ) :
    (c.withHandler (c.handler.injectFullyNegotiatedInbound req substream preferred)).InOrder
      issued := by
  unfold RPCHandler.injectFullyNegotiatedInbound
  split
  · split
    · exact (InOrder.inward (c := c) hc (.push rfl)).shutdown
    · next h' hstore =>
      have hc' := InOrder.inward (c := c) hc (storeInbound_inward hstore)
      split
      · exact hc'.shutdown.inward (receiveRequest_inward _ _)
      · exact hc'.inward (receiveRequest_inward _ _)
  · exact hc

/-! ### The answers -/

section Answers

variable {dialQueue opening : List (Id × OutboundRequest)}
  {substreams : Map SubstreamId (OutboundInfo Id)} {info : Id × OutboundRequest}

theorem held_answer (hopen : info ∈ opening) (k : Id) :
    held dialQueue opening substreams k =
      held dialQueue (opening.erase info) substreams k + if info.1 = k then 1 else 0 := by
  have hperm := ((List.perm_cons_erase hopen).map Prod.fst).count_eq k
  unfold held
  by_cases hk : info.1 = k
  · simp [hk] at hperm ⊢
    omega
  · simp [hk] at hperm ⊢
    omega

theorem live_answer (hopen : info ∈ opening) (honce : held dialQueue opening substreams info.1 ≤ 1)
    {k : Id} (hlive : live dialQueue (opening.erase info) substreams k) :
    live dialQueue opening substreams k ∧ k ≠ info.1 := by
  constructor
  · rcases hlive with hqueue | hopening | hsub
    · exact .inl hqueue
    · obtain ⟨info', hinfo', rfl⟩ := List.mem_map.1 hopening
      exact .inr (.inl (List.mem_map_of_mem (List.mem_of_mem_erase hinfo')))
    · exact .inr (.inr hsub)
  · rintro rfl
    have hpos := held_of_live hlive
    rw [held_answer hopen, if_pos rfl] at honce
    omega

omit [DecidableEq Id] in
theorem live_of_open (hopen : info ∈ opening) : live dialQueue opening substreams info.1 :=
  .inr (.inl (List.mem_map_of_mem hopen))

end Answers

variable {info : Id × OutboundRequest}

/-- The request of an answer ends. -/
theorem InOrder.endOpening (hc : c.InOrder issued) (hopen : info ∈ c.opening)
    {event : HandlerEvent Id S} (habout : outboundId event = some info.1)
    (hfinal : isTerminal event = true) {h : RPCHandler Id S}
    (hqueue : h.dialQueue = c.handler.dialQueue)
    (hsubstreams : h.outboundSubstreams = c.handler.outboundSubstreams)
    (hevents : h.eventsOut = c.handler.eventsOut ++ [event]) :
    ({ c.withHandler h with opening := c.opening.erase info }).InOrder issued := by
  have hlive : live c.handler.dialQueue c.opening c.handler.outboundSubstreams info.1 :=
    live_of_open hopen
  have hqueued : Ledger.Sound outboundId isTerminal issued
      ⟨held c.handler.dialQueue (c.opening.erase info) c.handler.outboundSubstreams,
        live c.handler.dialQueue (c.opening.erase info) c.handler.outboundSubstreams, c.log,
        c.handler.eventsOut ++ [event]⟩ := by
    refine Ledger.Sound.queue hc habout hfinal (hc.unsettled _ hlive)
      (hc.issued_of_held _ (held_of_live hlive)) (fun k => ?_)
      fun k hk => live_answer hopen (hc.once info.1) hk
    exact Nat.le.intro (held_answer hopen k).symm
  unfold InOrder books
  show Ledger.Sound _ _ _ ⟨held h.dialQueue _ h.outboundSubstreams,
    live h.dialQueue _ h.outboundSubstreams, _, h.eventsOut⟩
  rw [hqueue, hsubstreams, hevents]
  exact hqueued

/-- The request of an answer is held elsewhere, and nothing is reported. -/
theorem InOrder.moveOpening (hc : c.InOrder issued) {h : RPCHandler Id S}
    (hevents : h.eventsOut = c.handler.eventsOut)
    (hheld : ∀ k, held h.dialQueue (c.opening.erase info) h.outboundSubstreams k ≤
      held c.handler.dialQueue c.opening c.handler.outboundSubstreams k)
    (hlive : ∀ k, live h.dialQueue (c.opening.erase info) h.outboundSubstreams k →
      live c.handler.dialQueue c.opening c.handler.outboundSubstreams k) :
    ({ c.withHandler h with opening := c.opening.erase info }).InOrder issued := by
  have hmoved := Ledger.Sound.move hc hheld hlive
  rw [show c.books.queue = h.eventsOut from hevents.symm] at hmoved
  exact hmoved

/-- The substream of an answer is stored for its request. -/
theorem InOrder.storeOpening (hc : c.InOrder issued) (hopen : info ∈ c.opening)
    {h : RPCHandler Id S} {sid : SubstreamId} {stored : OutboundInfo Id}
    (hid : stored.reqId = info.1) (hqueue : h.dialQueue = c.handler.dialQueue)
    (hsubstreams : h.outboundSubstreams = c.handler.outboundSubstreams.insert sid stored)
    (hevents : h.eventsOut = c.handler.eventsOut) :
    ({ c.withHandler h with opening := c.opening.erase info }).InOrder issued := by
  refine hc.moveOpening hevents (fun k => ?_) fun k hk => ?_
  · have hinsert := Map.total_insert_add (holds k) c.handler.outboundSubstreams sid stored
    have hstored : holds k sid stored = if info.1 = k then 1 else 0 := by
      unfold holds
      rw [hid]
    rw [held_answer hopen, hqueue, hsubstreams]
    unfold held
    omega
  · rw [hqueue, hsubstreams] at hk
    rcases hk with hk | hk | ⟨sid', info', hinfo', hstate, rfl⟩
    · exact .inl hk
    · exact (live_answer hopen (hc.once info.1) (.inr (.inl hk))).1
    · rw [Map.lookup_insert_eq] at hinfo'
      split at hinfo'
      · rw [← Option.some.inj hinfo', hid]
        exact live_of_open hopen
      · exact .inr (.inr ⟨sid', info', hinfo', hstate, rfl⟩)

/-- The substream of an answer is dropped. -/
theorem InOrder.dropOpening (hc : c.InOrder issued) (hopen : info ∈ c.opening)
    {h : RPCHandler Id S} (hqueue : h.dialQueue = c.handler.dialQueue)
    (hsubstreams : h.outboundSubstreams = c.handler.outboundSubstreams)
    (hevents : h.eventsOut = c.handler.eventsOut) :
    ({ c.withHandler h with opening := c.opening.erase info }).InOrder issued := by
  refine hc.moveOpening hevents (fun k => ?_) fun k hk => ?_
  · rw [hqueue, hsubstreams]
    exact Nat.le.intro (held_answer hopen k).symm
  · rw [hqueue, hsubstreams] at hk
    exact (live_answer hopen (hc.once info.1) hk).1

/-- The request of an answer is dialed again. -/
theorem InOrder.redialOpening (hc : c.InOrder issued) (hopen : info ∈ c.opening)
    {h : RPCHandler Id S} (hqueue : h.dialQueue = c.handler.dialQueue ++ [info])
    (hsubstreams : h.outboundSubstreams = c.handler.outboundSubstreams)
    (hevents : h.eventsOut = c.handler.eventsOut) :
    ({ c.withHandler h with opening := c.opening.erase info }).InOrder issued := by
  refine hc.moveOpening hevents (fun k => ?_) fun k hk => ?_
  · rw [hqueue, hsubstreams, held_dialed, held_answer hopen]
  · rw [hqueue, hsubstreams] at hk
    rcases live_dialed hk with hk | rfl
    · exact (live_answer hopen (hc.once info.1) hk).1
    · exact live_of_open hopen

theorem InOrder.injectFullyNegotiatedOutbound (hc : c.InOrder issued)
    (hlate : info ∈ c.opening → c.handler.state = .deactivated → info.2.expectedResponses = 0)
    (preferred : ℕ) :
    (c.answer info (·.injectFullyNegotiatedOutbound info preferred)).InOrder issued := by
  by_cases hopen : info ∈ c.opening
  · rw [answer_of_mem hopen]
    dsimp only
    unfold RPCHandler.injectFullyNegotiatedOutbound
    dsimp only
    split
    · next hexpected =>
      split
      · next hdeactivated =>
        rw [hlate hopen hdeactivated] at hexpected
        exact absurd hexpected (by decide)
      · exact hc.storeOpening hopen rfl rfl rfl rfl
    · split
      · exact hc.endOpening hopen rfl rfl rfl rfl rfl
      · exact hc.dropOpening hopen rfl rfl rfl
  · rwa [answer_of_not_mem hopen]

theorem InOrder.injectDialUpgradeError (hc : c.InOrder issued)
    (error : ConnectionHandlerUpgrErr) :
    (c.answer info (·.injectDialUpgradeError info error)).InOrder issued := by
  by_cases hopen : info ∈ c.opening
  · rw [answer_of_mem hopen]
    dsimp only
    unfold RPCHandler.injectDialUpgradeError
    split
    · dsimp only
      split
      · unfold RPCHandler.sendRequest
        split
        · exact hc.redialOpening hopen rfl rfl rfl
        · exact hc.endOpening hopen rfl rfl rfl rfl rfl
      · exact hc.endOpening hopen rfl rfl rfl rfl rfl
    · exact hc.endOpening hopen rfl rfl rfl rfl rfl
  · rwa [answer_of_not_mem hopen]

/-! ## The run -/

end Connection

/-- The request that a call makes. -/
def Call.requestId {Id : Type} {S : EthSpec} : Call Id S → Option Id
  | .injectEvent (.request id _) => some id
  | .injectEvent (.shutdown id _) => some id
  | _ => none

namespace Connection

open RPCHandler

variable {Id : Type} {S : EthSpec} [DecidableEq Id] {issued : Id → Prop} {c : Connection Id S}
  {errorText : ErrorType → String}

/-- The call does not touch a request that has ended: no request that expects responses is
negotiated by a deactivated handler, and a poll that is not over with its queue or with the end
of the shutdown leaves the substreams alone whose request has ended. -/
def LeavesEnded (c : Connection Id S) : Call Id S → Prop
  | .injectFullyNegotiatedOutbound info _ =>
    c.panicked = false → info ∈ c.opening → c.handler.state = .deactivated →
      info.2.expectedResponses = 0
  | .poll io =>
    c.panicked = false → c.handler.eventsOut = [] →
      ¬(c.handler.state = .shuttingDown ∧ io.shutdownTimer = true) → c.PollSpares io
  | _ => True

theorem InOrder.step (hc : c.InOrder issued) {call : Call Id S} (hcall : c.LeavesEnded call)
    (hnew : ∀ id, call.requestId = some id → ¬ issued id) :
    (c.step errorText call).InOrder (fun j => issued j ∨ call.requestId = some j) := by
  have hmono : ∀ {c' : Connection Id S}, c'.InOrder issued →
      c'.InOrder (fun j => issued j ∨ call.requestId = some j) :=
    fun hc' => Ledger.Sound.mono hc' fun _ hk => .inl hk
  refine step_induction (hmono hc) fun hlive => ?_
  cases call with
  | injectEvent event =>
    cases event with
    | request id req =>
      refine Ledger.Sound.mono (InOrder.sendRequest (c := c) hc (hnew id rfl) req) fun k hk => ?_
      exact hk.imp (fun hk => hk) fun hk => congrArg some hk.symm
    | response inboundId response =>
      exact hmono (InOrder.inward (c := c) hc (sendResponse_inward errorText _ inboundId response))
    | shutdown id reason =>
      refine Ledger.Sound.mono (InOrder.shutdown_goodbye (c := c) hc (hnew id rfl) reason)
        fun k hk => ?_
      exact hk.imp (fun hk => hk) fun hk => congrArg some hk.symm
  | injectFullyNegotiatedInbound req substream preferred =>
    exact hmono (hc.injectFullyNegotiatedInbound req substream preferred)
  | injectFullyNegotiatedOutbound info preferred =>
    exact hmono (hc.injectFullyNegotiatedOutbound (hcall hlive) preferred)
  | injectDialUpgradeError info error => exact hmono (hc.injectDialUpgradeError error)
  | poll io => exact hmono (hc.polled (hcall hlive))

theorem inOrder_new : (new : Connection Id S).InOrder (fun _ => False) where
  once k := Nat.zero_le 1
  orderly := List.Pairwise.nil
  queued e he := by cases he
  unsettled k _ := by
    rintro ⟨e, he, -⟩
    cases he
  issued_of_held k hk := absurd hk (Nat.lt_irrefl 0)
  issued_of_about e he := by cases he

/-- No event about a request follows its terminal event, and no request has two. -/
structure EndedOnce (log : List (HandlerEvent Id S)) : Prop where
  orderly : Orderly outboundId isTerminal log
  once : ∀ id, log.countP (fun e => outboundId e = some id && isTerminal e) ≤ 1

theorem InOrder.endedOnce (hc : c.InOrder issued) : EndedOnce c.log := by
  have horderly : Orderly outboundId isTerminal c.log := (List.pairwise_append.1 hc.orderly).1
  exact ⟨horderly, horderly.countP_le_one⟩

/-- **A request ends at most once**, in every run whose calls leave the requests alone that have
ended. -/
theorem ended_once (errorText : ErrorType → String) (calls : List (Call Id S))
    (hdistinct : (calls.filterMap Call.requestId).Nodup)
    (hleaves : Along (step errorText) LeavesEnded new calls) :
    Throughout (step errorText) (fun c => EndedOnce c.log) new calls := by
  -- the requests that have been made are none of those to come
  refine throughout_of_ahead (P := fun c rest => ∃ issued, c.InOrder issued ∧
    (rest.filterMap Call.requestId).Nodup ∧
      ∀ id ∈ rest.filterMap Call.requestId, ¬ issued id) (fun c call rest hc hcall => ?_)
    (fun c rest hc => ?_) ⟨_, inOrder_new, hdistinct, fun _ _ hissued => hissued⟩ hleaves
  · obtain ⟨issued, hc, hdistinct, hnew⟩ := hc
    cases hid : call.requestId with
    | none =>
      rw [List.filterMap_cons_none hid] at hdistinct hnew
      refine ⟨_, hc.step hcall fun id hsome => ?_, hdistinct, fun id hmem => ?_⟩
      · rw [hid] at hsome
        cases hsome
      · rintro (hissued | hsome)
        · exact hnew id hmem hissued
        · rw [hid] at hsome
          cases hsome
    | some id =>
      rw [List.filterMap_cons_some hid] at hdistinct hnew
      obtain ⟨hfresh, hrest⟩ := List.nodup_cons.1 hdistinct
      refine ⟨_, hc.step hcall fun id' hsome => ?_, hrest, fun id' hmem => ?_⟩
      · rw [hid] at hsome
        rw [← Option.some.inj hsome]
        exact hnew id List.mem_cons_self
      · rintro (hissued | hsome)
        · exact hnew id' (List.mem_cons_of_mem id hmem) hissued
        · rw [hid] at hsome
          exact hfresh (Option.some.inj hsome ▸ hmem)
  · obtain ⟨issued, hc, -⟩ := hc
    exact hc.endedOnce

/-- A poll in which every outbound substream gives the same answer. -/
def answered (answer : OutboundPoll S) : Call Id S :=
  .poll { (PollIo.quiet : PollIo S) with outbound := fun _ => answer }

omit [DecidableEq Id] in
/-- No timer runs out, and no substream is closed. -/
theorem leavesEnded_answered (c : Connection Id S)
    (next : Poll (Option (Except RPCError (RPCCodedResponse S)))) :
    c.LeavesEnded (answered ⟨next, .pending⟩) := by
  intro _ _ _
  constructor
  · intro key sid info hmem
    cases hmem
  · intro sid info _ _ hready
    exact absurd rfl hready

/-- A request for blocks that is answered with an error, and a ping. -/
theorem ended_once_errorResponse :
    Throughout (step fun _ => "") (fun c => EndedOnce c.log)
      (new : Connection ℕ ⟨fun _ => Empty, Unit, Unit, ()⟩)
      [.injectEvent (.request 1 (.blocksByRange ⟨0, 2, 1⟩)), .poll .quiet,
        .injectFullyNegotiatedOutbound (1, .blocksByRange ⟨0, 2, 1⟩) 0,
        answered ⟨.ready (some (.ok (.error .serverError (.ofList [])))), .pending⟩,
        .injectEvent (.request 2 (.ping ⟨0⟩)), .poll .quiet] := by
  refine ended_once _ _ (by decide) ⟨trivial, leavesEnded_answered _ .pending,
    fun _ _ hdeactivated => ?_, leavesEnded_answered _ _, trivial,
    leavesEnded_answered _ .pending, trivial⟩
  cases hdeactivated

/-- A request for blocks that is answered with an error and whose substream is closed then. -/
theorem ended_once_fails :
    ¬ ∀ (S : EthSpec) (errorText : ErrorType → String) (calls : List (Call ℕ S)),
      (calls.filterMap Call.requestId).Nodup →
        Throughout (step errorText) (fun c => EndedOnce c.log) new calls := by
  intro h
  have hrun := h ⟨fun _ => Empty, Unit, Unit, ()⟩ (fun _ => "")
    [.injectEvent (.request 1 (.blocksByRange ⟨0, 2, 1⟩)), .poll .quiet,
      .injectFullyNegotiatedOutbound (1, .blocksByRange ⟨0, 2, 1⟩) 0,
      answered ⟨.ready (some (.ok (.error .serverError (.ofList [])))), .pending⟩,
      answered ⟨.pending, .ready (.ok ())⟩]
    (by decide)
  have honce := hrun.last.once 1
  revert honce
  decide

end Connection

end Consentry.Rpc
