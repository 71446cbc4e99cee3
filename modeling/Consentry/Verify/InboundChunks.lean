import Consentry.Verify.InboundDrive
import Consentry.Verify.OutboundChunks

/-!
# Responses to inbound requests

**`Connection.chunks_respected`**: a substream is handed a prefix of what is queued for it, no more
than its request expects and nothing after an item that closes the stream; no more responses to an
outbound request are reported than it expects.

The record of a run (`Traffic`) says which requests are received, what is queued for their
substreams and what is handed to them. The books on one substream (`Serving`) compare the record
with the queue, the count of the chunks that are left and what the substream has sent. They are
kept for as long as the substream is held (`Tracked`), by whatever is `Stable` under the two
things that happen to a substream: an item is queued, and the loop drives it.
-/

namespace Consentry.Rpc

open Lib

/-! ## What goes through a substream -/

/-- A record of what happens to the inbound requests. -/
inductive Traffic (S : EthSpec)
  /-- A request is received on a substream. -/
  | accepted (id : SubstreamId) (req : InboundRequest) (substream : InboundSubstream S)
  /-- An item is queued for a substream. -/
  | queued (id : SubstreamId) (message : RPCCodedResponse S)
  /-- A message is handed to a substream. -/
  | handed (id : SubstreamId) (message : RPCCodedResponse S)

namespace Traffic

variable {S : EthSpec}

/-- The items that are queued for a substream. -/
def queuedOf (id : SubstreamId) (log : List (Traffic S)) : List (RPCCodedResponse S) :=
  log.filterMap fun
    | queued id' message => if id' = id then some message else none
    | _ => none

/-- The substreams on which requests are received. -/
def acceptedIds (log : List (Traffic S)) : List SubstreamId :=
  log.filterMap fun
    | accepted id _ _ => some id
    | _ => none

/-- The messages that are handed to a substream. -/
def handedOf (id : SubstreamId) (log : List (Traffic S)) : List (RPCCodedResponse S) :=
  log.filterMap fun
    | handed id' message => if id' = id then some message else none
    | _ => none

@[simp] theorem queuedOf_append (id : SubstreamId) (log log' : List (Traffic S)) :
    queuedOf id (log ++ log') = queuedOf id log ++ queuedOf id log' :=
  List.filterMap_append

@[simp] theorem handedOf_append (id : SubstreamId) (log log' : List (Traffic S)) :
    handedOf id (log ++ log') = handedOf id log ++ handedOf id log' :=
  List.filterMap_append

@[simp] theorem acceptedIds_append (log log' : List (Traffic S)) :
    acceptedIds (log ++ log') = acceptedIds log ++ acceptedIds log' :=
  List.filterMap_append

theorem mem_acceptedIds {log : List (Traffic S)} {id : SubstreamId} {req : InboundRequest}
    {substream : InboundSubstream S} (hmem : .accepted id req substream ∈ log) :
    id ∈ acceptedIds log :=
  List.mem_filterMap.2 ⟨_, hmem, rfl⟩

theorem acceptedIds_flatMap {ι : Type} {f : ι → List (Traffic S)} (is : List ι)
    (hf : ∀ i, acceptedIds (f i) = []) : acceptedIds (is.flatMap f) = [] := by
  induction is with
  | nil => rfl
  | cons i is ih => rw [List.flatMap_cons, acceptedIds_append, hf, ih, List.append_nil]

@[simp] theorem acceptedIds_map_queued (id : SubstreamId) (ms : List (RPCCodedResponse S)) :
    acceptedIds (ms.map (queued id)) = [] := by
  unfold acceptedIds
  rw [List.filterMap_map]
  simp

@[simp] theorem acceptedIds_map_handed (id : SubstreamId) (ms : List (RPCCodedResponse S)) :
    acceptedIds (ms.map (handed id)) = [] := by
  unfold acceptedIds
  rw [List.filterMap_map]
  simp

@[simp] theorem queuedOf_map_queued (id id' : SubstreamId) (ms : List (RPCCodedResponse S)) :
    queuedOf id (ms.map (queued id')) = if id' = id then ms else [] := by
  unfold queuedOf
  rw [List.filterMap_map]
  split
  · next hsame => simp [hsame]
  · next hother => simp [hother]

@[simp] theorem queuedOf_map_handed (id id' : SubstreamId) (ms : List (RPCCodedResponse S)) :
    queuedOf id (ms.map (handed id')) = [] := by
  unfold queuedOf
  rw [List.filterMap_map]
  simp

@[simp] theorem handedOf_map_handed (id id' : SubstreamId) (ms : List (RPCCodedResponse S)) :
    handedOf id (ms.map (handed id')) = if id' = id then ms else [] := by
  unfold handedOf
  rw [List.filterMap_map]
  split
  · next hsame => simp [hsame]
  · next hother => simp [hother]

@[simp] theorem handedOf_map_queued (id id' : SubstreamId) (ms : List (RPCCodedResponse S)) :
    handedOf id (ms.map (queued id')) = [] := by
  unfold handedOf
  rw [List.filterMap_map]
  simp

end Traffic

/-- The item that a timeout queues, if the last one that is pending does not close the stream. -/
def InboundInfo.timeoutItems {S : EthSpec} (info : InboundInfo S) : List (RPCCodedResponse S) :=
  if info.endsOpen then [.error .serverError (.ofString "Request timed out")] else []

theorem InboundInfo.timedOut_pendingItems {S : EthSpec} (info : InboundInfo S) :
    info.timedOut.pendingItems = info.pendingItems ++ info.timeoutItems := by
  unfold timedOut timeoutItems
  dsimp only
  split
  · rfl
  · exact (List.append_nil _).symm

namespace RPCHandler

variable {Id : Type} {S : EthSpec} {h h' : RPCHandler Id S}

/-- What is queued when a timer runs out. -/
def timeoutTraffic (r : Expiry × RPCHandler Id S) : List (Traffic S) :=
  match r.1 with
  | .failed => []
  | .expired key =>
    match r.2.inboundSubstreamsDelay.live.lookup key with
    | none => []
    | some id =>
      match r.2.inboundSubstreams.lookup id with
      | none => []
      | some info => info.timeoutItems.map (.queued id)

/-- What is handed over when the loop drives one substream. -/
def driveTraffic (io : SubstreamId → List SinkPoll) (h : RPCHandler Id S) (id : SubstreamId) :
    List (Traffic S) :=
  match h.inboundSubstreams.lookup id with
  | none => []
  | some info => (info.handed h.isDeactivated (io id)).map (.handed id)

/-- What goes through the inbound substreams in a poll. -/
def pollTraffic (io : PollIo S) (h : RPCHandler Id S) : List (Traffic S) :=
  match h.beforeTimers io with
  | .next h₁ =>
    (Flow.rounds expireInbound io.inboundTimers h₁).flatMap timeoutTraffic ++
      match h.beforeDrive io with
      | .next h₂ =>
        (io.inboundOrder.run h₂.inboundSubstreams.keys).flatMap (driveTraffic io.inbound h₂)
      | _ => []
  | _ => []

end RPCHandler

/-! ## The books on one substream -/

section Serving

variable {S : EthSpec}

/-- The messages that are sent: a termination only closes the stream. -/
def sentOf (messages : List (RPCCodedResponse S)) : List (RPCCodedResponse S) :=
  messages.filter fun
    | .streamTermination _ => false
    | _ => true

/-- The substream that a future works on. -/
def SendFuture.substream : SendFuture S → InboundSubstream S
  | .terminating substream => substream
  | .sending substream _ _ => substream
  | .closing substream _ => substream

/-- The substream that is held. -/
def InboundInfo.substream (info : InboundInfo S) : Option (InboundSubstream S) :=
  match info.state with
  | .idle substream => some substream
  | .busy fut => some fut.substream
  | .poisoned => none

/-- What has been handed over of `queued`, for a request that expects `n` responses. -/
structure Served (n : ℕ) (queued handed : List (RPCCodedResponse S)) : Prop where
  inOrder : handed <+: queued
  bounded : handed.length ≤ n
  final : ∀ message ∈ handed.dropLast, message.closeAfter = false

/-- The substream is between two messages, or the last message of those that have been handed
over is being sent. -/
inductive Serving (n : ℕ) (start queued handed : List (RPCCodedResponse S))
    (info : InboundInfo S) : Prop
  | idle {substream : InboundSubstream S} (hstate : info.state = .idle substream)
      (hqueue : handed ++ info.pendingItems = queued)
      (hopen : ∀ message ∈ handed, message.closeAfter = false)
      (hsent : substream.sent = start ++ sentOf handed)
      (hleft : info.remainingChunks.toNat + handed.length = n) (hmore : handed.length < n)
  | busy {fut : SendFuture S} {before : List (RPCCodedResponse S)} {message : RPCCodedResponse S}
      (hstate : info.state = .busy fut) (hhanded : handed = before ++ [message])
      (hqueue : handed ++ info.pendingItems = queued)
      (hopen : ∀ message ∈ before, message.closeAfter = false)
      (hsent : fut.substream.sent = start ++ sentOf handed)
      (hleft : info.remainingChunks.toNat + before.length = n) (hmore : before.length < n)
      (hlast : fut.closes = false → message.closeAfter = false ∧ 1 < info.remainingChunks.toNat)

variable {n : ℕ} {start queued handed : List (RPCCodedResponse S)} {info : InboundInfo S}

theorem Serving.served (h : Serving n start queued handed info) : Served n queued handed := by
  cases h with
  | idle hstate hqueue hopen hsent hleft hmore =>
    exact ⟨⟨_, hqueue⟩, hmore.le, fun m hm => hopen m (List.mem_of_mem_dropLast hm)⟩
  | @busy fut before message hstate hhanded hqueue hopen hsent hleft hmore hlast =>
    refine ⟨⟨_, hqueue⟩, ?_, fun m hm => ?_⟩
    · rw [hhanded, List.length_append, List.length_singleton]
      exact hmore
    · rw [hhanded, List.dropLast_concat] at hm
      exact hopen m hm

/-- An item is queued. -/
theorem Serving.queue (h : Serving n start queued handed info) (items : List (RPCCodedResponse S))
    {info' : InboundInfo S} (hstate' : info'.state = info.state)
    (hpending : info'.pendingItems = info.pendingItems ++ items)
    (hremaining : info'.remainingChunks = info.remainingChunks) :
    Serving n start (queued ++ items) handed info' := by
  cases h with
  | idle hstate hqueue hopen hsent hleft hmore =>
    refine .idle (hstate'.trans hstate) ?_ hopen hsent (hremaining ▸ hleft) hmore
    rw [hpending, ← List.append_assoc, hqueue]
  | busy hstate hhanded hqueue hopen hsent hleft hmore hlast =>
    refine .busy (hstate'.trans hstate) hhanded ?_ hopen hsent (hremaining ▸ hleft) hmore
      (hremaining ▸ hlast)
    rw [hpending, ← List.append_assoc, hqueue]

theorem SendFuture.substream_new (substream : InboundSubstream S) (message : RPCCodedResponse S)
    (lastChunk : Bool) :
    (SendFuture.new substream message lastChunk).substream.sent =
      substream.sent ++ sentOf [message] := by
  cases message with
  | streamTermination t => exact (List.append_nil _).symm
  | success | error => rfl

/-- The next item is handed over. -/
theorem Serving.handOver (h : Serving n start queued handed info)
    {substream : InboundSubstream S} {message : RPCCodedResponse S}
    {pendingItems : List (RPCCodedResponse S)} (hidle : info.state = .idle substream)
    (hpending : info.pendingItems = message :: pendingItems) :
    Serving n start queued (handed ++ [message]) { info with
      state := .busy (.new substream message (info.remainingChunks ≤ 1))
      pendingItems := pendingItems } := by
  cases h with
  | busy hbusy =>
    rw [hidle] at hbusy
    cases hbusy
  | idle hstate hqueue hopen hsent hleft hmore =>
    rw [hidle] at hstate
    obtain rfl := InboundState.idle.inj hstate
    refine .busy rfl rfl ?_ hopen ?_ hleft hmore fun hcloses => ?_
    · rw [List.append_assoc, List.singleton_append, ← hpending]
      exact hqueue
    · rw [SendFuture.substream_new, hsent, List.append_assoc]
      unfold sentOf
      rw [← List.filter_append]
    · rw [SendFuture.closes_new, Bool.or_eq_false_iff] at hcloses
      refine ⟨hcloses.2, ?_⟩
      have hlt := UInt64.not_le.1 (of_decide_eq_false hcloses.1)
      exact UInt64.lt_iff_toNat_lt.1 hlt

/-- The future is not done yet. -/
theorem Serving.wait (h : Serving n start queued handed info) {fut fut' : SendFuture S}
    {io : SinkPoll} (hbusy : info.state = .busy fut) (hpoll : fut.poll io = .inl fut') :
    Serving n start queued handed { info with state := .busy fut' } := by
  cases h with
  | idle hidle =>
    rw [hbusy] at hidle
    cases hidle
  | busy hstate hhanded hqueue hopen hsent hleft hmore hlast =>
    rw [hbusy] at hstate
    obtain rfl := InboundState.busy.inj hstate
    have hpolled := SendFuture.poll_polled io fut
    rw [hpoll] at hpolled
    cases hpolled with
    | wait => exact .busy rfl hhanded hqueue hopen hsent hleft hmore hlast
    | close =>
      exact .busy rfl hhanded hqueue hopen hsent hleft hmore fun hcloses => by cases hcloses

/-- A message has been sent, and it was not the last one. -/
theorem Serving.sent (h : Serving n start queued handed info) {fut : SendFuture S}
    {substream : InboundSubstream S} {io : SinkPoll} (hbusy : info.state = .busy fut)
    (hpoll : fut.poll io = .inr (.ok (substream, false))) :
    Serving n start queued handed { info with
      state := .idle substream
      remainingChunks := saturatingPred info.remainingChunks } := by
  cases h with
  | idle hidle =>
    rw [hbusy] at hidle
    cases hidle
  | @busy _ before message hstate hhanded hqueue hopen hsent hleft hmore hlast =>
    rw [hbusy] at hstate
    obtain rfl := InboundState.busy.inj hstate
    obtain ⟨hmessage, hone⟩ := hlast (SendFuture.not_closes_of_open hpoll)
    have hpolled := SendFuture.poll_polled io fut
    rw [hpoll] at hpolled
    have hlength : handed.length = before.length + 1 := by simp [hhanded]
    have hpred := saturatingPred_toNat info.remainingChunks
    cases hpolled with
    | sent hfut =>
      refine .idle rfl hqueue (fun m hm => ?_) hsent ?_ ?_
      · rw [hhanded] at hm
        rcases List.mem_append.1 hm with hm | hm
        · exact hopen m hm
        · rwa [List.mem_singleton.1 hm]
      · dsimp only
        omega
      · omega

/-- **The loop on a substream** hands over the next item, and counts down when it has been sent. -/
theorem serving_stable (n : ℕ) (start queued : List (RPCCodedResponse S)) (deactivated : Bool) :
    InboundInfo.DriveStable deactivated (Serving n start queued) where
  start _ hidle hpending h := h.handOver hidle hpending
  wait hbusy hpoll h := h.wait hbusy hpoll
  sent hbusy hpoll h := h.sent hbusy hpoll

/-- The books on a substream, whether it is still held or not. -/
inductive Tracked (n : ℕ) (start queued handed : List (RPCCodedResponse S)) :
    Option (InboundInfo S) → Prop
  | gone (h : Served n queued handed) : Tracked n start queued handed none
  | held {info : InboundInfo S} (h : Serving n start queued handed info) :
      Tracked n start queued handed (some info)

theorem Tracked.served {place : Option (InboundInfo S)} (h : Tracked n start queued handed place) :
    Served n queued handed := by
  cases h with
  | gone h => exact h
  | held h => exact h.served

/-- A substream that is held has sent what has been handed over, and nothing else. -/
theorem Tracked.sent (h : Tracked n start queued handed (some info))
    {substream : InboundSubstream S} (hheld : info.substream = some substream) :
    substream.sent = start ++ sentOf handed := by
  unfold InboundInfo.substream at hheld
  cases h with
  | held h =>
    cases h with
    | idle hstate _ _ hsent =>
      rw [hstate] at hheld
      exact Option.some.inj hheld ▸ hsent
    | busy hstate _ _ _ hsent =>
      rw [hstate] at hheld
      exact Option.some.inj hheld ▸ hsent

/-- What happens to one substream keeps `R`, which speaks about what has been queued and handed
over for it. -/
structure Stable
    (R : List (RPCCodedResponse S) → List (RPCCodedResponse S) → Option (InboundInfo S) → Prop) :
    Prop where
  queue : ∀ {queued handed info info'} items, R queued handed (some info) →
    info'.state = info.state → info'.pendingItems = info.pendingItems ++ items →
      info'.remainingChunks = info.remainingChunks → R (queued ++ items) handed (some info')
  drive : ∀ {queued handed info deactivated delay io d}, R queued handed (some info) →
    info.drive deactivated delay io = some d →
      R queued (handed ++ info.handed deactivated io) (if d.remove then none else some d.info)

theorem tracked_stable (n : ℕ) (start : List (RPCCodedResponse S)) :
    Stable (Tracked n start) := by
  constructor
  · intro queued handed info info' items h hstate hpending hremaining
    cases h with
    | held h => exact .held (h.queue items hstate hpending hremaining)
  · intro queued handed info deactivated delay io d h hd
    cases h with
    | held h =>
      obtain ⟨last, hlast, hsame⟩ := (serving_stable n start queued deactivated).drive _ h hd
      cases hremove : d.remove with
      | true => exact .gone hlast.served
      | false =>
        rw [← hsame hremove] at hlast
        exact .held hlast

/-- Nothing goes through a substream that is not held. -/
theorem absent_stable :
    Stable fun (queued handed : List (RPCCodedResponse S)) place =>
      queued = [] ∧ handed = [] ∧ place = none := by
  constructor
  · rintro queued handed info info' items ⟨-, -, hplace⟩
    cases hplace
  · rintro queued handed info deactivated delay io d ⟨-, -, hplace⟩
    cases hplace

end Serving

/-! ## A poll -/

namespace RPCHandler

variable {Id : Type} {S : EthSpec} {h h' : RPCHandler Id S} {current id : SubstreamId}
  {R : List (RPCCodedResponse S) → List (RPCCodedResponse S) → Option (InboundInfo S) → Prop}
  {queued handed : List (RPCCodedResponse S)}

open Traffic

/-- The books on the substream `id` when the records `log` have been added to them. -/
def Books (R : List (RPCCodedResponse S) → List (RPCCodedResponse S) →
      Option (InboundInfo S) → Prop) (queued handed : List (RPCCodedResponse S))
    (id : SubstreamId) (log : List (Traffic S)) (h : RPCHandler Id S) : Prop :=
  R (queued ++ queuedOf id log) (handed ++ handedOf id log) (h.inboundSubstreams.lookup id)

theorem books_nil :
    Books R queued handed id [] h ↔ R queued handed (h.inboundSubstreams.lookup id) := by
  unfold Books queuedOf handedOf
  rw [List.filterMap_nil, List.filterMap_nil, List.append_nil, List.append_nil]

theorem Books.same {log : List (Traffic S)} (hb : Books R queued handed id log h)
    (hsame : h'.inboundSubstreams = h.inboundSubstreams) : Books R queued handed id log h' := by
  unfold Books at hb ⊢
  rwa [hsame]

/-- A turn of the loop on the timers. -/
theorem Books.expireInbound (hR : Stable R) {log : List (Traffic S)}
    (hb : Books R queued handed id log h') (expiry : Expiry) :
    (h'.expireInbound expiry).Meets
      (Books R queued handed id (log ++ timeoutTraffic (expiry, h')))
      (fun r => Books R queued handed id (log ++ timeoutTraffic (expiry, h')) r.2) True := by
  have hexpiry := expireInbound_expiry expiry h'
  have hquiet : timeoutTraffic (expiry, h') = [] →
      Books R queued handed id (log ++ timeoutTraffic (expiry, h')) h' := by
    intro hnone
    rwa [hnone, List.append_nil]
  generalize h'.expireInbound expiry = phase at hexpiry
  cases hexpiry with
  | failed => exact hquiet rfl
  | dead key hkey =>
    refine hquiet ?_
    unfold timeoutTraffic
    dsimp only
    rw [hkey]
  | @stray key id' hkey hinfo =>
    refine hquiet ?_
    unfold timeoutTraffic
    dsimp only
    rw [hkey]
    dsimp only
    rw [hinfo]
  | @timeout key id' info hkey hinfo =>
    have htraffic : timeoutTraffic (.expired key, h') = info.timeoutItems.map (.queued id') := by
      unfold timeoutTraffic
      dsimp only
      rw [hkey]
      dsimp only
      rw [hinfo]
    have hlookup := Map.lookup_insert_eq h'.inboundSubstreams id' id info.timedOut
    unfold Books at hb
    show R _ _ ((h'.inboundSubstreams.insert id' info.timedOut).lookup id)
    rw [htraffic, hlookup]
    simp only [queuedOf_append, handedOf_append, queuedOf_map_queued, handedOf_map_queued,
      List.append_nil]
    by_cases hsame : id = id'
    · subst hsame
      rw [hinfo] at hb
      rw [if_pos rfl, if_pos rfl, ← List.append_assoc]
      exact hR.queue _ hb rfl info.timedOut_pendingItems rfl
    · rwa [if_neg hsame, if_neg (Ne.symm hsame), List.append_nil]

theorem driveTraffic_of_ne (io : SubstreamId → List SinkPoll) (h : RPCHandler Id S)
    {id' : SubstreamId} (hne : id' ≠ id) :
    queuedOf id (driveTraffic io h id') = [] ∧ handedOf id (driveTraffic io h id') = [] := by
  unfold driveTraffic
  split
  · exact ⟨rfl, rfl⟩
  · rw [queuedOf_map_handed, handedOf_map_handed, if_neg hne]
    exact ⟨rfl, rfl⟩

/-- Of the traffic of the whole loop, a substream sees its own. -/
theorem driveTraffic_flatMap (io : SubstreamId → List SinkPoll) (h : RPCHandler Id S)
    (id : SubstreamId) {ids : List SubstreamId} (hnodup : ids.Nodup) :
    queuedOf id (ids.flatMap (driveTraffic io h)) = [] ∧
      handedOf id (ids.flatMap (driveTraffic io h)) =
        if id ∈ ids then handedOf id (driveTraffic io h id) else [] := by
  induction ids with
  | nil => exact ⟨rfl, rfl⟩
  | cons id' ids ih =>
    obtain ⟨hnew, hnodup⟩ := List.nodup_cons.1 hnodup
    obtain ⟨hqueued, hhanded⟩ := ih hnodup
    rw [List.flatMap_cons, queuedOf_append, handedOf_append, hqueued, hhanded]
    by_cases hsame : id' = id
    · subst hsame
      have hown : queuedOf id' (driveTraffic io h id') = [] := by
        unfold driveTraffic
        split
        · rfl
        · exact queuedOf_map_handed _ _ _
      rw [hown, if_neg hnew, if_pos List.mem_cons_self]
      exact ⟨rfl, List.append_nil _⟩
    · obtain ⟨hq, hh⟩ := driveTraffic_of_ne io h hsame
      rw [hq, hh]
      refine ⟨rfl, ?_⟩
      simp [Ne.symm hsame]

theorem Books.driveInbounds (hR : Stable R) {log : List (Traffic S)}
    (hb : Books R queued handed id log h) (io : PollIo S)
    (hdrives : DrivesInbounds io.inbound h h') :
    Books R queued handed id
      (log ++ (io.inboundOrder.run h.inboundSubstreams.keys).flatMap (driveTraffic io.inbound h))
      h' := by
  have hnodup : (io.inboundOrder.run h.inboundSubstreams.keys).Nodup :=
    (io.inboundOrder.perm _).nodup_iff.2 h.inboundSubstreams.keys_nodup
  have htraffic := driveTraffic_flatMap io.inbound h id hnodup
  have hsettles := hdrives.settles id
  have hmem : id ∈ io.inboundOrder.run h.inboundSubstreams.keys ↔
      (h.inboundSubstreams.lookup id).isSome := by
    rw [io.inboundOrder.mem_run, ← AList.mem_keys, ← AList.lookup_isSome]
  unfold Books at hb ⊢
  rw [queuedOf_append, handedOf_append, htraffic.1, htraffic.2, List.append_nil]
  unfold driveTraffic
  generalize h'.inboundSubstreams.lookup id = place' at hsettles ⊢
  generalize h.inboundSubstreams.lookup id = place at hb hsettles hmem ⊢
  cases hsettles with
  | absent =>
    have hno : id ∉ io.inboundOrder.run h.inboundSubstreams.keys := by simp [hmem]
    rwa [if_neg hno, List.append_nil]
  | driven hd =>
    dsimp only
    rw [if_pos (hmem.2 rfl), handedOf_map_handed, if_pos rfl, ← List.append_assoc]
    exact hR.drive hb hd

/-- What a poll does after its timers. -/
theorem Books.afterTimers (hs : h.SaneAt current) (hR : Stable R)
    {log : List (Traffic S)} (hb : Books R queued handed id log h) (errorText : ErrorType → String)
    (io : PollIo S) :
    ((h.driveInbounds io).andThen (·.afterInbounds errorText io)).Meets
      (Books R queued handed id (log ++
        (io.inboundOrder.run h.inboundSubstreams.keys).flatMap (driveTraffic io.inbound h)))
      (fun r => Books R queued handed id (log ++
        (io.inboundOrder.run h.inboundSubstreams.keys).flatMap (driveTraffic io.inbound h)) r.2)
      True := by
  refine (hs.driveInbounds io).mono (fun _ hnext => hb.driveInbounds hR io hnext.2)
    (fun _ hr => hr.elim) (fun hn => hn.elim) |>.andThen fun h₁ hb₁ => ?_
  exact (afterInbounds_keepsInbound errorText io h₁).mono (fun _ hnext => hb₁.same hnext.1)
    (fun _ hr => hb₁.same hr.1) fun hn => hn

/-- **A poll keeps the books on a substream**, with the traffic that it is said to have. -/
theorem Books.poll (hs : h.SaneAt current) (hR : Stable R)
    (hb : R queued handed (h.inboundSubstreams.lookup id)) (errorText : ErrorType → String)
    (io : PollIo S) :
    (h.poll errorText io).Meets (Books R queued handed id (h.pollTraffic io))
      (fun r => Books R queued handed id (h.pollTraffic io) r.2) True := by
  have hstart : Books R queued handed id [] h := books_nil.2 hb
  rw [poll_eq]
  unfold pollTraffic beforeDrive
  have hbefore := beforeTimers_cases io h
  cases hfirst : h.beforeTimers io with
  | panicked => trivial
  | returned r =>
    rw [hfirst] at hbefore
    exact hstart.same hbefore.1
  | next h₁ =>
    obtain ⟨rfl, -, -⟩ := beforeTimers_eq_next.1 hfirst
    dsimp only [Flow.andThen]
    have hexpired : (Flow.each RPCHandler.expireInbound io.inboundTimers h).Meets
        (Books R queued handed id ([] ++
          (Flow.rounds RPCHandler.expireInbound io.inboundTimers h).flatMap timeoutTraffic))
        (fun r => Books R queued handed id ([] ++
          (Flow.rounds RPCHandler.expireInbound io.inboundTimers h).flatMap timeoutTraffic) r.2)
        True :=
      Flow.Meets.each_log (I := Books R queued handed id)
        (Q := fun log (r : _ × RPCHandler Id S) =>
          Books R queued handed id log r.2) timeoutTraffic
        (fun log expiry h' hb => hb.expireInbound hR expiry) hstart
    rw [List.nil_append] at hexpired
    generalize
      (Flow.rounds RPCHandler.expireInbound io.inboundTimers h).flatMap timeoutTraffic = log
      at hexpired ⊢
    have hsane := hs.expireInbounds io.inboundTimers
    cases hsecond : Flow.each RPCHandler.expireInbound io.inboundTimers h with
    | panicked => trivial
    | returned r =>
      rw [hsecond] at hexpired
      dsimp only [Flow.andThen]
      rwa [List.append_nil]
    | next h₂ =>
      rw [hsecond] at hexpired hsane
      dsimp only [Flow.andThen]
      have hsame := expireOutbounds_keepsInbound io.outboundTimers h₂
      have hsane₂ := SaneAt.expireOutbounds hsane io.outboundTimers
      cases hthird : Flow.each RPCHandler.expireOutbound io.outboundTimers h₂ with
      | panicked => trivial
      | returned r =>
        rw [hthird] at hsame
        dsimp only [Flow.andThen]
        rw [List.append_nil]
        exact Books.same hexpired (SameInbound.inboundSubstreams hsame)
      | next h₃ =>
        rw [hthird] at hsame hsane₂
        exact (Books.same hexpired (SameInbound.inboundSubstreams hsame)).afterTimers hsane₂ hR
          errorText io

/-- A poll receives no request. -/
theorem acceptedIds_pollTraffic (io : PollIo S) (h : RPCHandler Id S) :
    acceptedIds (h.pollTraffic io) = [] := by
  unfold pollTraffic
  split
  · rw [acceptedIds_append, acceptedIds_flatMap, List.nil_append]
    · split
      · refine acceptedIds_flatMap _ fun id => ?_
        unfold driveTraffic
        split
        · rfl
        · exact acceptedIds_map_handed _ _
      · rfl
    · intro r
      unfold timeoutTraffic
      split
      · rfl
      · split
        · rfl
        · split
          · rfl
          · exact acceptedIds_map_queued _ _
  · rfl

/-! ## The other calls -/

/-- What `send_response` queues. -/
def responseTraffic (h : RPCHandler Id S) (inboundId : SubstreamId)
    (message : RPCCodedResponse S) : List (Traffic S) :=
  if h.isDeactivated = false ∧ inboundId ∈ h.inboundSubstreams then [.queued inboundId message]
  else []

theorem acceptedIds_responseTraffic (inboundId : SubstreamId) (message : RPCCodedResponse S) :
    acceptedIds (h.responseTraffic inboundId message) = [] := by
  unfold responseTraffic
  split <;> rfl

theorem Books.sendResponse (hR : Stable R)
    (hb : R queued handed (h.inboundSubstreams.lookup id)) (errorText : ErrorType → String)
    (inboundId : SubstreamId) (message : RPCCodedResponse S) :
    Books R queued handed id (h.responseTraffic inboundId message)
      (h.sendResponse errorText inboundId message) := by
  unfold responseTraffic
  rcases sendResponse_cases errorText h inboundId message with
    ⟨hdropped, hsame⟩ | ⟨info, hinfo, hlive, hstore, -, -⟩
  · rw [if_neg]
    · exact (books_nil.2 hb).same hsame.inboundSubstreams
    · rintro ⟨hlive, hmem⟩
      rcases hdropped with hnone | hdeactivated
      · exact AList.lookup_eq_none.1 hnone hmem
      · rw [hlive] at hdeactivated
        cases hdeactivated
  · have hmem : inboundId ∈ h.inboundSubstreams := AList.lookup_isSome.1 (by simp [hinfo])
    rw [if_pos ⟨hlive, hmem⟩]
    unfold Books
    have hqueued := queuedOf_map_queued id inboundId [message]
    have hhanded := handedOf_map_queued id inboundId [message]
    rw [List.map_singleton] at hqueued hhanded
    rw [hqueued, hhanded, hstore, Map.lookup_insert_eq, List.append_nil]
    by_cases hsame : id = inboundId
    · subst hsame
      rw [hinfo] at hb
      rw [if_pos rfl, if_pos rfl]
      exact hR.queue _ hb rfl rfl rfl
    · rwa [if_neg hsame, if_neg (Ne.symm hsame), List.append_nil]

/-- What is recorded of a request that is negotiated. -/
def requestTraffic (h : RPCHandler Id S) (req : InboundRequest) (substream : InboundSubstream S)
    (preferred : ℕ) : List (Traffic S) :=
  if h.state = .active ∧ (h.storeInbound req substream preferred).isSome then
    [.accepted h.currentInboundSubstreamId req substream]
  else []

/-- A substream whose request has just been received. -/
structure Opened (req : InboundRequest) (substream : InboundSubstream S) (info : InboundInfo S) :
    Prop where
  state : info.state = .idle substream
  pendingItems : info.pendingItems = []
  remainingChunks : info.remainingChunks = req.expectedResponses

/-- What becomes of a request that is negotiated: nothing is stored and no request is received, or
the request is received and its substream is stored if it expects responses. -/
inductive Received (h : RPCHandler Id S) (req : InboundRequest) (substream : InboundSubstream S) :
    List (Traffic S) → RPCHandler Id S → Prop
  | rejected {h' : RPCHandler Id S} (hsame : h.SameInbound h') : Received h req substream [] h'
  | accepted {h' : RPCHandler Id S}
      (hcurrent : h'.currentInboundSubstreamId = h.currentInboundSubstreamId + 1)
      (hnone : req.expectedResponses = 0 → h'.inboundSubstreams = h.inboundSubstreams)
      (hsome : 0 < req.expectedResponses → ∃ info, Opened req substream info ∧
        h'.inboundSubstreams = h.inboundSubstreams.insert h.currentInboundSubstreamId info) :
      Received h req substream [.accepted h.currentInboundSubstreamId req substream] h'

theorem storeInbound_some {req : InboundRequest} {substream : InboundSubstream S} {preferred : ℕ}
    (hstore : h.storeInbound req substream preferred = some h') :
    h'.currentInboundSubstreamId = h.currentInboundSubstreamId ∧
      (req.expectedResponses = 0 → h'.inboundSubstreams = h.inboundSubstreams) ∧
      (0 < req.expectedResponses → ∃ info, Opened req substream info ∧
        h'.inboundSubstreams = h.inboundSubstreams.insert h.currentInboundSubstreamId info) := by
  unfold RPCHandler.storeInbound at hstore
  split at hstore
  · next hmore =>
    split at hstore
    · obtain rfl := Option.some.inj hstore
      refine ⟨rfl, fun hzero => ?_, fun _ => ⟨_, ⟨rfl, rfl, rfl⟩, rfl⟩⟩
      rw [hzero] at hmore
      cases hmore
    · cases hstore
  · next hzero =>
    obtain rfl := Option.some.inj hstore
    exact ⟨rfl, fun _ => rfl, fun hmore => absurd hmore hzero⟩

theorem injectFullyNegotiatedInbound_received (h : RPCHandler Id S) (req : InboundRequest)
    (substream : InboundSubstream S) (preferred : ℕ) :
    Received h req substream (h.requestTraffic req substream preferred)
      (h.injectFullyNegotiatedInbound req substream preferred) := by
  unfold requestTraffic RPCHandler.injectFullyNegotiatedInbound
  cases hstate : h.state with
  | active =>
    dsimp only
    cases hstore : h.storeInbound req substream preferred with
    | none =>
      rw [if_neg (by simp)]
      have hpush : h.SameInbound (h.push (.error
          (.inbound h.currentInboundSubstreamId req.protocol .handlerRejected))) := ⟨rfl, rfl, rfl⟩
      exact .rejected (hpush.trans (shutdown_sameInbound _ none))
    | some h₁ =>
      rw [if_pos ⟨rfl, rfl⟩]
      obtain ⟨hcurrent, hnone, hsome⟩ := storeInbound_some hstore
      have hreceive : ∀ h₂ : RPCHandler Id S, h₁.SameInbound h₂ → Received h req substream
          [.accepted h.currentInboundSubstreamId req substream] (h₂.receiveRequest req) := by
        intro h₂ hsame
        refine .accepted ?_ (fun hzero => ?_) fun hmore => ?_
        · exact congrArg (· + 1) (hsame.currentInboundSubstreamId.trans hcurrent)
        · exact hsame.inboundSubstreams.trans (hnone hzero)
        · obtain ⟨info, hopened, hinsert⟩ := hsome hmore
          exact ⟨info, hopened, hsame.inboundSubstreams.trans hinsert⟩
      dsimp only
      split
      · exact hreceive _ (shutdown_sameInbound h₁ none)
      · exact hreceive _ (.refl h₁)
  | shuttingDown | deactivated =>
    rw [if_neg (by simp)]
    exact .rejected (.refl h)

end RPCHandler

/-! ## The run -/

namespace Connection

open RPCHandler Traffic

variable {Id : Type} {S : EthSpec} [DecidableEq Id] {c c' : Connection Id S}

/-- What a call makes of the inbound requests. -/
def traffic (c : Connection Id S) (call : Call Id S) : List (Traffic S) :=
  if c.panicked then []
  else
    match call with
    | .injectEvent (.response inboundId message) => c.handler.responseTraffic inboundId message
    | .injectFullyNegotiatedInbound req substream preferred =>
      c.handler.requestTraffic req substream preferred
    | .poll io => c.handler.pollTraffic io
    | _ => []

/-- The books of a run: nothing goes through the substreams that are still to come, and every
substream on which a request was received is tracked. -/
structure Recorded (log : List (Traffic S)) (c : Connection Id S) : Prop where
  safe : c.Safe
  ahead : ∀ id, c.handler.currentInboundSubstreamId ≤ id →
    queuedOf id log = [] ∧ handedOf id log = [] ∧ c.handler.inboundSubstreams.lookup id = none
  known : ∀ id req substream, .accepted id req substream ∈ log →
    id < c.handler.currentInboundSubstreamId ∧
      Tracked req.expectedResponses.toNat substream.sent (queuedOf id log) (handedOf id log)
        (c.handler.inboundSubstreams.lookup id)
  nodup : (acceptedIds log).Nodup

omit [DecidableEq Id] in
/-- A call that receives no request and keeps the books on every substream. -/
theorem Recorded.quiet {log new : List (Traffic S)} (hr : Recorded log c) (hsafe : c'.Safe)
    (hcurrent : c'.handler.currentInboundSubstreamId = c.handler.currentInboundSubstreamId)
    (hnone : acceptedIds new = [])
    (hbooks : ∀ id R queued handed, Stable R →
      R queued handed (c.handler.inboundSubstreams.lookup id) →
        Books R queued handed id new c'.handler) : Recorded (log ++ new) c' := by
  refine ⟨hsafe, fun id hid => ?_, fun id req substream hmem => ?_, ?_⟩
  · rw [hcurrent] at hid
    have hb := hbooks id _ _ _ absent_stable (hr.ahead id hid)
    unfold Books at hb
    rwa [queuedOf_append, handedOf_append]
  · rcases List.mem_append.1 hmem with hold | hnew
    · obtain ⟨hlt, htracked⟩ := hr.known id req substream hold
      have hb := hbooks id _ _ _ (tracked_stable _ _) htracked
      unfold Books at hb
      rw [queuedOf_append, handedOf_append, hcurrent]
      exact ⟨hlt, hb⟩
    · have hid := mem_acceptedIds hnew
      rw [hnone] at hid
      cases hid
  · rw [acceptedIds_append, hnone, List.append_nil]
    exact hr.nodup

omit [DecidableEq Id] in
/-- A call that has nothing to do with the inbound substreams. -/
theorem Recorded.same {log : List (Traffic S)} (hr : Recorded log c) (hsafe : c'.Safe)
    (hsame : c.handler.SameInbound c'.handler) : Recorded (log ++ []) c' :=
  hr.quiet hsafe hsame.currentInboundSubstreamId rfl fun _ _ _ _ _ hb =>
    (books_nil.2 hb).same hsame.inboundSubstreams

/-- What is tracked of a request that has just been received. -/
theorem tracked_opened {req : InboundRequest} {substream : InboundSubstream S}
    {stored : Option (InboundInfo S)} (hnone : req.expectedResponses = 0 → stored = none)
    (hsome : 0 < req.expectedResponses → ∃ info, stored = some info ∧ Opened req substream info) :
    Tracked req.expectedResponses.toNat substream.sent [] [] stored := by
  rcases Nat.eq_zero_or_pos req.expectedResponses.toNat with hzero | hmore
  · rw [hnone (UInt64.toNat_inj.1 hzero)]
    exact .gone ⟨List.prefix_rfl, Nat.zero_le _, fun m hm => by cases hm⟩
  · obtain ⟨info, rfl, hopened⟩ := hsome (UInt64.lt_iff_toNat_lt.2 hmore)
    refine .held (.idle hopened.state ?_ (fun m hm => by cases hm) ?_ ?_ hmore)
    · exact hopened.pendingItems
    · exact (List.append_nil _).symm
    · rw [hopened.remainingChunks]
      rfl

omit [DecidableEq Id] in
theorem Recorded.acceptedIds_lt {log : List (Traffic S)} (hr : Recorded log c) {id : ℕ}
    (hid : id ∈ acceptedIds log) : id < c.handler.currentInboundSubstreamId := by
  obtain ⟨t, ht, hsome⟩ := List.mem_filterMap.1 hid
  split at hsome
  · next id' req substream =>
    obtain rfl := Option.some.inj hsome
    exact (hr.known _ _ _ ht).1
  · cases hsome

omit [DecidableEq Id] in
/-- A request is received. -/
theorem Recorded.received {log new : List (Traffic S)} {req : InboundRequest}
    {substream : InboundSubstream S} (hr : Recorded log c) (hsafe : c'.Safe)
    (hreceived : Received c.handler req substream new c'.handler) : Recorded (log ++ new) c' := by
  obtain ⟨handler', hhandler⟩ : ∃ h, h = c'.handler := ⟨_, rfl⟩
  rw [← hhandler] at hreceived
  cases hreceived with
  | rejected hsame => exact hr.same hsafe (hhandler ▸ hsame)
  | accepted hcurrent hnone hsome =>
    rw [hhandler] at hcurrent hnone hsome
    have hqueued : ∀ id, queuedOf id (log ++ [.accepted c.handler.currentInboundSubstreamId req
        substream]) = queuedOf id log := fun id => by
      rw [queuedOf_append]
      exact List.append_nil _
    have hhanded : ∀ id, handedOf id (log ++ [.accepted c.handler.currentInboundSubstreamId req
        substream]) = handedOf id log := fun id => by
      rw [handedOf_append]
      exact List.append_nil _
    have hother : ∀ id, id ≠ c.handler.currentInboundSubstreamId →
        c'.handler.inboundSubstreams.lookup id = c.handler.inboundSubstreams.lookup id := by
      intro id hne
      rcases Nat.eq_zero_or_pos req.expectedResponses.toNat with hzero | hmore
      · rw [hnone (UInt64.toNat_inj.1 hzero)]
      · obtain ⟨info, -, hinsert⟩ := hsome (UInt64.lt_iff_toNat_lt.2 hmore)
        rw [hinsert, AList.lookup_insert_ne hne]
    obtain ⟨hnoQueue, hnoHand, habsent⟩ := hr.ahead _ (Nat.le_refl _)
    refine ⟨hsafe, fun id hid => ?_, fun id req' substream' hmem => ?_, ?_⟩
    · rw [hcurrent] at hid
      rw [hqueued, hhanded, hother id (Nat.ne_of_gt hid)]
      exact hr.ahead id (Nat.le_of_succ_le hid)
    · rw [hqueued, hhanded, hcurrent]
      rcases List.mem_append.1 hmem with hold | hnew
      · obtain ⟨hlt, htracked⟩ := hr.known id req' substream' hold
        rw [hother id (Nat.ne_of_lt hlt)]
        exact ⟨Nat.lt_succ_of_lt hlt, htracked⟩
      · obtain ⟨rfl, rfl, rfl⟩ := Traffic.accepted.inj (List.mem_singleton.1 hnew)
        rw [hnoQueue, hnoHand]
        refine ⟨Nat.lt_succ_self _, tracked_opened (fun hzero => ?_) fun hmore => ?_⟩
        · rw [hnone hzero, habsent]
        · obtain ⟨info, hopened, hinsert⟩ := hsome hmore
          exact ⟨info, by rw [hinsert, AList.lookup_insert], hopened⟩
    · rw [acceptedIds_append]
      refine List.nodup_append.2 ⟨hr.nodup, List.nodup_singleton _, fun id hid id' hid' => ?_⟩
      rw [List.mem_singleton.1 hid']
      exact Nat.ne_of_lt (hr.acceptedIds_lt hid)

/-- **A call keeps the books.** -/
theorem Recorded.step {log : List (Traffic S)} (hr : Recorded log c)
    (errorText : ErrorType → String) (call : Call Id S) :
    Recorded (log ++ c.traffic call) (c.step errorText call) := by
  have hsafe : (c.step errorText call).Safe := (hr.safe.step errorText call).1
  have hlive := hr.safe.live
  have hs : c.handler.SaneAt c.handler.currentOutboundSubstreamId := ⟨hr.safe.sane, rfl⟩
  unfold traffic
  rw [if_neg (by simp [hlive])]
  rw [step_of_live hlive] at hsafe ⊢
  cases call with
  | injectEvent event =>
    cases event with
    | request id req => exact hr.same hsafe (sendRequest_sameInbound _ id req)
    | response inboundId message =>
      exact hr.quiet hsafe (sendResponse_current errorText c.handler inboundId message)
        (acceptedIds_responseTraffic inboundId message) fun id R queued handed hR hb =>
          Books.sendResponse hR hb errorText inboundId message
    | shutdown id reason => exact hr.same hsafe (shutdown_sameInbound _ _)
  | injectFullyNegotiatedInbound req substream preferred =>
    exact hr.received hsafe (injectFullyNegotiatedInbound_received _ req substream preferred)
  | injectFullyNegotiatedOutbound info preferred =>
    dsimp only [handle] at hsafe ⊢
    by_cases hopen : info ∈ c.opening
    · rw [answer_of_mem hopen] at hsafe ⊢
      exact hr.same hsafe (injectFullyNegotiatedOutbound_sameInbound _ info preferred)
    · rw [answer_of_not_mem hopen] at hsafe ⊢
      exact hr.same hsafe (.refl _)
  | injectDialUpgradeError info error =>
    dsimp only [handle] at hsafe ⊢
    by_cases hopen : info ∈ c.opening
    · rw [answer_of_mem hopen] at hsafe ⊢
      exact hr.same hsafe (injectDialUpgradeError_sameInbound _ info error)
    · rw [answer_of_not_mem hopen] at hsafe ⊢
      exact hr.same hsafe (.refl _)
  | poll io =>
    have hcurrent := poll_acceptsNone errorText io c.handler
    have hbooks : ∀ id R queued handed, Stable R →
        R queued handed (c.handler.inboundSubstreams.lookup id) →
          (c.handler.poll errorText io).Meets
            (Books R queued handed id (c.handler.pollTraffic io))
            (fun r => Books R queued handed id (c.handler.pollTraffic io) r.2) True :=
      fun id R queued handed hR hb => Books.poll hs hR hb errorText io
    dsimp only [handle] at hsafe ⊢
    generalize c.handler.poll errorText io = phase at hsafe hcurrent hbooks ⊢
    cases phase with
    | next h =>
      exact hr.quiet hsafe hcurrent (acceptedIds_pollTraffic io _) hbooks
    | panicked => cases hsafe.live
    | returned r =>
      obtain ⟨event, h⟩ := r
      cases event <;> exact hr.quiet hsafe hcurrent (acceptedIds_pollTraffic io _) hbooks

omit [DecidableEq Id] in
theorem recorded_new : Recorded [] (new : Connection Id S) where
  safe := safe_new
  ahead id _ := ⟨rfl, rfl, rfl⟩
  known id req substream hmem := by cases hmem
  nodup := List.nodup_nil

/-- **Chunk counts and order are respected.** No more responses are reported under an id than
the requests made under it expect. On every substream on which a request is received, what is
handed over is a prefix of what is queued, no more than the request expects and nothing after an
item that closes the stream; and that is what the substream is sent. -/
theorem chunks_respected (errorText : ErrorType → String) (calls : List (Call Id S)) :
    (∀ id, responses id (calls.foldl (step errorText) new).log ≤
      (calls.map (requested id)).sum) ∧
    (acceptedIds (outputs (step errorText) traffic new calls)).Nodup ∧
    ∀ id req substream, .accepted id req substream ∈ outputs (step errorText) traffic new calls →
      Served req.expectedResponses.toNat
        (queuedOf id (outputs (step errorText) traffic new calls))
        (handedOf id (outputs (step errorText) traffic new calls)) ∧
      ∀ info, (calls.foldl (step errorText) new).handler.inboundSubstreams.lookup id = some info →
        ∀ held, info.substream = some held → held.sent =
          substream.sent ++ sentOf (handedOf id (outputs (step errorText) traffic new calls)) := by
  have hrun : Recorded ([] ++ outputs (step errorText) traffic new calls)
      (calls.foldl (step errorText) (new : Connection Id S)) :=
    outputs_induction (fun _ _ call hr => hr.step errorText call) calls recorded_new
  rw [List.nil_append] at hrun
  refine ⟨responses_le errorText calls, hrun.nodup, fun id req substream hmem => ?_⟩
  have htracked := (hrun.known id req substream hmem).2
  refine ⟨htracked.served, fun info hinfo held hheld => ?_⟩
  rw [hinfo] at htracked
  exact htracked.sent hheld

end Connection

end Consentry.Rpc
