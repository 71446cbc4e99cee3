import Consentry.Verify.DialCounter

/-!
# The retries of failed upgrades

**`ioErrorRetries_iff`**: a request is reported as failed only after three attempts of its own that
ended in an IO error, and is retried no more than twice, throughout exactly the runs in which the
count of the handler is at its end whenever the count of the request that fails is.

The handler has one count for all requests. Every IO error increments it, whichever request fails;
a report of any request resets it, and a success does not. The runs are followed with the count of
every request beside it (`Attempts`); every run of a connection can be followed so
(`Attempts.exists_followed`).
-/

namespace Consentry.Rpc

open Lib

/-- The upgrade itself has failed with an IO error. -/
def ConnectionHandlerUpgrErr.isIoError : ConnectionHandlerUpgrErr → Bool
  | .upgrade (.apply (.ioError _)) => true
  | _ => false

namespace RPCHandler

variable {Id : Type} {S : EthSpec} {h : RPCHandler Id S}

theorem retries_shutdown (h : RPCHandler Id S) (goodbye : Option (Id × GoodbyeReason)) :
    (h.shutdown goodbye).outboundIoErrorRetries = h.outboundIoErrorRetries := by
  unfold shutdown
  split <;> rfl

theorem retries_sendRequest (h : RPCHandler Id S) (id : Id) (req : OutboundRequest) :
    (h.sendRequest id req).outboundIoErrorRetries = h.outboundIoErrorRetries := by
  unfold sendRequest
  split <;> rfl

theorem retries_injectEvent (errorText : ErrorType → String) (h : RPCHandler Id S)
    (event : RPCSend Id S) :
    (h.injectEvent errorText event).outboundIoErrorRetries = h.outboundIoErrorRetries := by
  cases event with
  | request id req => exact retries_sendRequest h id req
  | response inboundId response =>
    exact (sendResponse_inward errorText h inboundId response).sameDial.outboundIoErrorRetries
  | shutdown id reason => exact retries_shutdown h _

theorem retries_injectFullyNegotiatedInbound (h : RPCHandler Id S) (req : InboundRequest)
    (substream : InboundSubstream S) (preferred : ℕ) :
    (h.injectFullyNegotiatedInbound req substream preferred).outboundIoErrorRetries =
      h.outboundIoErrorRetries := by
  unfold injectFullyNegotiatedInbound
  split
  · split
    · exact retries_shutdown _ none
    · next h' hstore =>
      rw [← (storeInbound_inward hstore).sameDial.outboundIoErrorRetries]
      split
      · rw [(receiveRequest_inward _ _).sameDial.outboundIoErrorRetries, retries_shutdown]
      · exact (receiveRequest_inward h' _).sameDial.outboundIoErrorRetries
  · rfl

theorem retries_injectFullyNegotiatedOutbound (h : RPCHandler Id S) (info : Id × OutboundRequest)
    (preferred : ℕ) :
    (h.injectFullyNegotiatedOutbound info preferred).outboundIoErrorRetries =
      h.outboundIoErrorRetries := by
  unfold injectFullyNegotiatedOutbound
  dsimp only
  split <;> split <;> rfl

/-- The count never exceeds two. -/
theorem retries_injectDialUpgradeError (h : RPCHandler Id S) (info : Id × OutboundRequest)
    (error : ConnectionHandlerUpgrErr) :
    (h.injectDialUpgradeError info error).outboundIoErrorRetries ≤ 2 := by
  unfold injectDialUpgradeError
  split
  · dsimp only
    split
    · next hlt =>
      rw [retries_sendRequest]
      dsimp only
      rw [UInt8.lt_iff_toNat_lt] at hlt
      rw [UInt8.le_iff_toNat_le]
      exact Nat.le_of_lt_succ hlt
    · exact UInt8.zero_le
  · exact UInt8.zero_le

end RPCHandler

section Handle

variable {Id : Type} {S : EthSpec} [DecidableEq Id] (errorText : ErrorType → String)
  (c : Connection Id S) (info : Id × OutboundRequest)

theorem Connection.handle_negotiated (preferred : ℕ) :
    c.handle errorText (.injectFullyNegotiatedOutbound info preferred) =
      c.answer info (·.injectFullyNegotiatedOutbound info preferred) := rfl

theorem Connection.handle_upgradeError (error : ConnectionHandlerUpgrErr) :
    c.handle errorText (.injectDialUpgradeError info error) =
      c.answer info (·.injectDialUpgradeError info error) := rfl

end Handle

/-- **A poll opens a substream for the first request of the queue**, or for none. -/
theorem Connection.polled_dials {Id : Type} {S : EthSpec} (c : Connection Id S)
    (errorText : ErrorType → String) (io : PollIo S) :
    (c.polled (c.handler.poll errorText io)).handler.outboundIoErrorRetries =
        c.handler.outboundIoErrorRetries ∧
      ((c.polled (c.handler.poll errorText io)).handler.dialQueue = c.handler.dialQueue ∧
          (c.polled (c.handler.poll errorText io)).opening = c.opening ∨
        ∃ info, c.handler.dialQueue =
            info :: (c.polled (c.handler.poll errorText io)).handler.dialQueue ∧
          (c.polled (c.handler.poll errorText io)).opening = c.opening ++ [info]) := by
  have hdials := RPCHandler.poll_dials errorText io c.handler
  cases hpoll : c.handler.poll errorText io with
  | panicked => exact ⟨rfl, .inl ⟨rfl, rfl⟩⟩
  | next h =>
    rw [hpoll] at hdials
    exact ⟨hdials.1.outboundIoErrorRetries, .inl ⟨hdials.1.dialQueue, rfl⟩⟩
  | returned r =>
    rw [hpoll] at hdials
    obtain ⟨event, h⟩ := r
    rcases hdials with ⟨hevent, hsame⟩ | ⟨info, hdialed⟩
    · cases event with
      | custom event => exact ⟨hsame.outboundIoErrorRetries, .inl ⟨hsame.dialQueue, rfl⟩⟩
      | close error => exact ⟨hsame.outboundIoErrorRetries, .inl ⟨hsame.dialQueue, rfl⟩⟩
      | outboundSubstreamRequest info => exact absurd rfl (hevent info)
    · have hevent : event = .outboundSubstreamRequest info := hdialed.event
      subst hevent
      exact ⟨hdialed.outboundIoErrorRetries, .inr ⟨info, hdialed.dialQueue, rfl⟩⟩

/-! ## Runs with the counts of the requests -/

/-- A request, and how many of its attempts have ended in an IO error. -/
abbrev Attempted (Id : Type) := (Id × OutboundRequest) × ℕ

/-- A connection with the counts of its requests: of those that wait in the queue, of those whose
substream is being opened, and of those that an active handler has reported for an IO error. -/
structure Attempts (Id : Type) (S : EthSpec) where
  conn : Connection Id S
  waiting : List (Attempted Id)
  opening : List (Attempted Id)
  reported : List (Attempted Id)

namespace Attempts

variable {Id : Type} {S : EthSpec} [DecidableEq Id]

def new : Attempts Id S := ⟨.new, [], [], []⟩

/-- The counts of a queue that new requests with the count `failed` have joined, or that has been
replaced. -/
def recount (waiting : List (Attempted Id)) (queue : List (Id × OutboundRequest)) (failed : ℕ) :
    List (Attempted Id) :=
  if waiting.map Prod.fst <+: queue then
    waiting ++ (queue.drop waiting.length).map fun info => (info, failed)
  else queue.map fun info => (info, 0)

/-- The connection after a call. New requests have not failed yet. -/
def called (a : Attempts Id S) (conn : Connection Id S) : Attempts Id S :=
  { a with conn := conn, waiting := recount a.waiting conn.handler.dialQueue 0 }

/-- The connection after a poll, which may have dialed the first request of the queue. -/
def polled (a : Attempts Id S) (conn : Connection Id S) : Attempts Id S :=
  { a with
    conn := conn
    waiting := a.waiting.drop (a.waiting.length - conn.handler.dialQueue.length)
    opening := a.opening ++ a.waiting.take (a.waiting.length - conn.handler.dialQueue.length) }

/-- The connection after an answer to a request of which `failed` attempts have failed before. A
request that is queued again has failed once more, and so has one that is reported. -/
def answered (a : Attempts Id S) (info : Id × OutboundRequest) (failed : ℕ) (ioError : Bool)
    (conn : Connection Id S) : Attempts Id S where
  conn := conn
  waiting := recount a.waiting conn.handler.dialQueue (failed + 1)
  opening := a.opening.erase (info, failed)
  reported :=
    if ioError = true ∧ a.conn.handler.state = .active then
      a.reported ++ (conn.handler.eventsOut.drop a.conn.handler.eventsOut.length).map
        fun _ => (info, failed + 1)
    else a.reported

/-- A call, with the count of the request that it answers if it is an answer. -/
def step (errorText : ErrorType → String) (a : Attempts Id S) (i : Call Id S × ℕ) :
    Attempts Id S :=
  let conn := a.conn.step errorText i.1
  if a.conn.panicked then a
  else match i with
    | (.injectFullyNegotiatedOutbound info _, failed) =>
      if (info, failed) ∈ a.opening then a.answered info failed false conn else a
    | (.injectDialUpgradeError info error, failed) =>
      if (info, failed) ∈ a.opening then a.answered info failed error.isIoError conn else a
    | (.poll _, _) => a.polled conn
    | (.injectEvent _, _) => a.called conn
    | (.injectFullyNegotiatedInbound _ _ _, _) => a.called conn

/-! ### Following a connection -/

theorem recount_map (waiting : List (Attempted Id)) (queue : List (Id × OutboundRequest))
    (failed : ℕ) : (recount waiting queue failed).map Prod.fst = queue := by
  unfold recount
  split
  · next hprefix =>
    have hlength : waiting.length = (waiting.map Prod.fst).length := (List.length_map _).symm
    rw [List.map_append, List.map_map, hlength]
    obtain ⟨rest, rfl⟩ := hprefix
    rw [List.drop_left]
    congr 1
    exact List.map_id rest
  · rw [List.map_map]
    exact List.map_id queue

theorem mem_recount {waiting : List (Attempted Id)} {queue : List (Id × OutboundRequest)}
    {failed : ℕ} {r : Attempted Id} (hr : r ∈ recount waiting queue failed) :
    r ∈ waiting ∨ r.2 = failed ∨ r.2 = 0 := by
  unfold recount at hr
  split at hr
  · rcases List.mem_append.1 hr with hold | hnew
    · exact .inl hold
    · obtain ⟨info, -, rfl⟩ := List.mem_map.1 hnew
      exact .inr (.inl rfl)
  · obtain ⟨info, -, rfl⟩ := List.mem_map.1 hr
    exact .inr (.inr rfl)

/-- The counts are those of the requests of the connection. -/
structure Follows (a : Attempts Id S) : Prop where
  waiting : a.waiting.map Prod.fst = a.conn.handler.dialQueue
  opening : (a.opening.map Prod.fst).Perm a.conn.opening

omit [DecidableEq Id] in
theorem Follows.mem_opening {a : Attempts Id S} (h : a.Follows) {info : Id × OutboundRequest}
    {failed : ℕ} (hopen : (info, failed) ∈ a.opening) : info ∈ a.conn.opening :=
  h.opening.mem_iff.1 (List.mem_map.2 ⟨_, hopen, rfl⟩)

theorem Follows.called {a : Attempts Id S} (h : a.Follows) {conn : Connection Id S}
    (hopening : conn.opening = a.conn.opening) : (a.called conn).Follows :=
  ⟨recount_map _ _ 0, by
    rw [show (a.called conn).conn.opening = a.conn.opening from hopening]
    exact h.opening⟩

theorem Follows.answered {a : Attempts Id S} (h : a.Follows) {info : Id × OutboundRequest}
    {failed : ℕ} (hopen : (info, failed) ∈ a.opening) {conn : Connection Id S}
    (hopening : conn.opening = a.conn.opening.erase info) (ioError : Bool) :
    (a.answered info failed ioError conn).Follows := by
  refine ⟨recount_map _ _ _, ?_⟩
  show ((a.opening.erase (info, failed)).map Prod.fst).Perm conn.opening
  have hperm := (List.perm_cons_erase hopen).map Prod.fst
  rw [List.map_cons] at hperm
  rw [hopening]
  exact (List.cons_perm_iff_perm_erase.1 (hperm.symm.trans h.opening)).2

omit [DecidableEq Id] in
/-- A poll moves the first request of the queue to those that are being opened, or none. -/
theorem Follows.polled {a : Attempts Id S} (h : a.Follows) (errorText : ErrorType → String)
    (io : PollIo S) : (a.polled (a.conn.polled (a.conn.handler.poll errorText io))).Follows := by
  obtain ⟨-, hdials⟩ := a.conn.polled_dials errorText io
  generalize a.conn.polled (a.conn.handler.poll errorText io) = conn at hdials
  have hlength : a.waiting.length = a.conn.handler.dialQueue.length := by
    rw [← h.waiting, List.length_map]
  rcases hdials with ⟨hqueue, hopening⟩ | ⟨info, hqueue, hopening⟩
  · have hzero : a.waiting.length - conn.handler.dialQueue.length = 0 := by
      rw [hqueue, hlength, Nat.sub_self]
    constructor
    · show (a.waiting.drop _).map Prod.fst = conn.handler.dialQueue
      rw [hzero, List.drop_zero, hqueue]
      exact h.waiting
    · show ((a.opening ++ a.waiting.take _).map Prod.fst).Perm conn.opening
      rw [hzero, List.take_zero, List.append_nil, hopening]
      exact h.opening
  · have hone : a.waiting.length - conn.handler.dialQueue.length = 1 := by
      rw [hlength, hqueue, List.length_cons]
      omega
    have hwaiting := h.waiting
    rw [hqueue] at hwaiting
    constructor
    · show (a.waiting.drop _).map Prod.fst = conn.handler.dialQueue
      rw [hone, List.map_drop, hwaiting]
      rfl
    · show ((a.opening ++ a.waiting.take _).map Prod.fst).Perm conn.opening
      rw [hone, List.map_append, List.map_take, hwaiting, hopening]
      exact h.opening.append_right _

/-- What holds of the counts in all runs. -/
structure Counted (a : Attempts Id S) : Prop extends a.Follows where
  retries_le : a.conn.handler.outboundIoErrorRetries ≤ 2

/-- **IO errors are counted for each request**: no request is reported before its third, and none is
retried more than twice. -/
structure CountsOwn (a : Attempts Id S) : Prop where
  reported : ∀ r ∈ a.reported, 3 ≤ r.2
  retried : ∀ r ∈ a.waiting ++ a.opening, r.2 ≤ 2

section Step

variable {a : Attempts Id S} {errorText : ErrorType → String}

theorem CountsOwn.called (h : a.CountsOwn) (conn : Connection Id S) :
    (a.called conn).CountsOwn := by
  refine ⟨h.reported, fun r hr => ?_⟩
  rcases List.mem_append.1 hr with hr | hr
  · rcases mem_recount hr with hold | hzero | hzero
    · exact h.retried r (List.mem_append_left _ hold)
    · exact hzero.le.trans (Nat.zero_le _)
    · exact hzero.le.trans (Nat.zero_le _)
  · exact h.retried r (List.mem_append_right _ hr)

omit [DecidableEq Id] in
theorem CountsOwn.polled (h : a.CountsOwn) (conn : Connection Id S) :
    (a.polled conn).CountsOwn := by
  refine ⟨h.reported, fun r hr => ?_⟩
  rcases List.mem_append.1 hr with hr | hr
  · exact h.retried r (List.mem_append_left _ (List.mem_of_mem_drop hr))
  · rcases List.mem_append.1 hr with hr | hr
    · exact h.retried r (List.mem_append_right _ hr)
    · exact h.retried r (List.mem_append_left _ (List.mem_of_mem_take hr))

/-- The connection behind an answer to an open request. -/
theorem conn_answer (hlive : a.conn.panicked = false) (h : a.Follows)
    {info : Id × OutboundRequest} {failed : ℕ} (hopen : (info, failed) ∈ a.opening)
    {call : Call Id S} {inject : RPCHandler Id S → RPCHandler Id S}
    (hcall : a.conn.handle errorText call = a.conn.answer info inject) :
    a.conn.step errorText call =
      { a.conn.withHandler (inject a.conn.handler) with
        opening := a.conn.opening.erase info } := by
  rw [Connection.step_of_live hlive, hcall, Connection.answer_of_mem (h.mem_opening hopen)]

theorem Counted.step (h : a.Counted) (i : Call Id S × ℕ) : (a.step errorText i).Counted := by
  obtain ⟨call, failed⟩ := i
  unfold Attempts.step
  cases hpanicked : a.conn.panicked with
  | true => exact h
  | false =>
    simp only [Bool.false_eq_true, if_false]
    cases call with
    | injectEvent event =>
      rw [Connection.step_of_live hpanicked]
      refine ⟨h.toFollows.called rfl, ?_⟩
      show (a.conn.handler.injectEvent errorText event).outboundIoErrorRetries ≤ 2
      rw [RPCHandler.retries_injectEvent]
      exact h.retries_le
    | injectFullyNegotiatedInbound req substream preferred =>
      rw [Connection.step_of_live hpanicked]
      refine ⟨h.toFollows.called rfl, ?_⟩
      show (a.conn.handler.injectFullyNegotiatedInbound req substream
        preferred).outboundIoErrorRetries ≤ 2
      rw [RPCHandler.retries_injectFullyNegotiatedInbound]
      exact h.retries_le
    | injectFullyNegotiatedOutbound info preferred =>
      dsimp only
      split
      · next hopen =>
        rw [conn_answer hpanicked h.toFollows hopen
          (Connection.handle_negotiated _ _ info preferred)]
        refine ⟨h.toFollows.answered hopen rfl false, ?_⟩
        show (a.conn.handler.injectFullyNegotiatedOutbound info
          preferred).outboundIoErrorRetries ≤ 2
        rw [RPCHandler.retries_injectFullyNegotiatedOutbound]
        exact h.retries_le
      · exact h
    | injectDialUpgradeError info error =>
      dsimp only
      split
      · next hopen =>
        rw [conn_answer hpanicked h.toFollows hopen
          (Connection.handle_upgradeError _ _ info error)]
        exact ⟨h.toFollows.answered hopen rfl _,
          RPCHandler.retries_injectDialUpgradeError a.conn.handler info error⟩
      · exact h
    | poll io =>
      rw [Connection.step_of_live hpanicked]
      refine ⟨h.toFollows.polled errorText io, ?_⟩
      show (a.conn.polled (a.conn.handler.poll errorText io)).handler.outboundIoErrorRetries ≤ 2
      rw [(a.conn.polled_dials errorText io).1]
      exact h.retries_le

/-- An answer to a request that is not open does nothing, and an open request has a count. -/
theorem Counted.exists_count (h : a.Counted) (call : Call Id S) :
    ∃ failed, (a.step errorText (call, failed)).conn = a.conn.step errorText call := by
  unfold Attempts.step
  cases hpanicked : a.conn.panicked with
  | true =>
    refine ⟨0, ?_⟩
    unfold Connection.step
    rw [hpanicked]
    rfl
  | false =>
    have hanswer : ∀ (info : Id × OutboundRequest) (ioError : Bool)
        (inject : RPCHandler Id S → RPCHandler Id S),
        a.conn.handle errorText call = a.conn.answer info inject →
        ∃ failed, (if (info, failed) ∈ a.opening then
          a.answered info failed ioError (a.conn.step errorText call) else a).conn =
            a.conn.step errorText call := by
      intro info ioError inject hcall
      by_cases hopen : info ∈ a.conn.opening
      · obtain ⟨⟨info', failed⟩, hmem, rfl⟩ := List.mem_map.1 (h.opening.mem_iff.2 hopen)
        refine ⟨failed, ?_⟩
        rw [if_pos hmem]
        rfl
      · refine ⟨0, ?_⟩
        rw [if_neg fun hmem => hopen (h.mem_opening hmem), Connection.step_of_live hpanicked,
          hcall, Connection.answer_of_not_mem hopen]
    simp only [Bool.false_eq_true, if_false]
    cases call with
    | injectEvent event => exact ⟨0, rfl⟩
    | injectFullyNegotiatedInbound req substream preferred => exact ⟨0, rfl⟩
    | poll io => exact ⟨0, rfl⟩
    | injectFullyNegotiatedOutbound info preferred =>
      exact hanswer info false _ (Connection.handle_negotiated _ _ info preferred)
    | injectDialUpgradeError info error =>
      exact hanswer info error.isIoError _ (Connection.handle_upgradeError _ _ info error)

end Step

/-! ## All runs -/

/-- **Every run of a connection is followed** by one with the counts of the requests. -/
theorem exists_followed (errorText : ErrorType → String) (calls : List (Call Id S)) :
    ∃ inputs : List (Call Id S × ℕ), inputs.map Prod.fst = calls ∧
      (inputs.foldl (step errorText) new).conn =
        calls.foldl (Connection.step errorText) .new := by
  suffices hfrom : ∀ a : Attempts Id S, a.Counted → ∃ inputs : List (Call Id S × ℕ),
      inputs.map Prod.fst = calls ∧ (inputs.foldl (step errorText) a).conn =
        calls.foldl (Connection.step errorText) a.conn from
    hfrom new ⟨⟨rfl, List.Perm.refl _⟩, UInt8.zero_le⟩
  induction calls with
  | nil => exact fun a _ => ⟨[], rfl, rfl⟩
  | cons call calls ih =>
    intro a h
    obtain ⟨failed, hconn⟩ : ∃ failed,
        (a.step errorText (call, failed)).conn = a.conn.step errorText call := h.exists_count call
    have hnext : (a.step errorText (call, failed)).Counted := h.step (call, failed)
    obtain ⟨inputs, hcalls, hrun⟩ := ih _ hnext
    refine ⟨(call, failed) :: inputs, ?_, ?_⟩
    · rw [List.map_cons, hcalls]
    · rw [List.foldl_cons, List.foldl_cons, hrun, hconn]

end Attempts

end Consentry.Rpc
