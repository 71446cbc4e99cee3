import Consentry.Lib.Run
import Consentry.Verify.HandlerPhases

/-!
# The counter of negotiations

**`dialExact_iff`**: `dial_negotiated` is the number of substream requests that have not been
answered throughout exactly the runs in which no failed upgrade is retried. The retry puts the
request back into the queue and returns before the counter is decremented, so that every retry
takes one of the eight places for good.

Where the counter is exact it never underflows and never exceeds its maximum, a poll is not
pending while a request waits and there is room for it, and a handler that is shutting down
with nothing left to do closes the connection with its next poll (`DialExact`).
-/

namespace Consentry.Rpc

open Lib

namespace RPCHandler

variable {Id : Type} {S : EthSpec} {h : RPCHandler Id S}

/-! ## The counter under the calls -/

/-- The counter and its maximum. -/
def dialCounts (h : RPCHandler Id S) : UInt32 × UInt32 := (h.dialNegotiated, h.maxDialNegotiated)

theorem SameDial.dialCounts {h' : RPCHandler Id S} (hsame : h.SameDial h') :
    h'.dialCounts = h.dialCounts :=
  Prod.ext hsame.dialNegotiated hsame.maxDialNegotiated

theorem dialCounts_shutdown (h : RPCHandler Id S) (goodbye : Option (Id × GoodbyeReason)) :
    (h.shutdown goodbye).dialCounts = h.dialCounts := by
  unfold shutdown
  split <;> rfl

theorem dialCounts_sendRequest (h : RPCHandler Id S) (id : Id) (req : OutboundRequest) :
    (h.sendRequest id req).dialCounts = h.dialCounts := by
  unfold sendRequest
  split <;> rfl

theorem dialCounts_injectEvent (errorText : ErrorType → String) (h : RPCHandler Id S)
    (event : RPCSend Id S) : (h.injectEvent errorText event).dialCounts = h.dialCounts := by
  cases event with
  | request id req => exact dialCounts_sendRequest h id req
  | response inboundId response =>
    exact (sendResponse_inward errorText h inboundId response).sameDial.dialCounts
  | shutdown id reason => exact dialCounts_shutdown h _

theorem dialCounts_injectFullyNegotiatedInbound (h : RPCHandler Id S) (req : InboundRequest)
    (substream : InboundSubstream S) (preferred : ℕ) :
    (h.injectFullyNegotiatedInbound req substream preferred).dialCounts = h.dialCounts := by
  unfold injectFullyNegotiatedInbound
  split
  · split
    · exact dialCounts_shutdown _ none
    · next h' hstore =>
      rw [← (storeInbound_inward hstore).sameDial.dialCounts]
      split
      · rw [(receiveRequest_inward _ _).sameDial.dialCounts, dialCounts_shutdown]
      · exact (receiveRequest_inward h' _).sameDial.dialCounts
  · rfl

theorem dialCounts_injectFullyNegotiatedOutbound (h : RPCHandler Id S)
    (info : Id × OutboundRequest) (preferred : ℕ) :
    (h.injectFullyNegotiatedOutbound info preferred).dialCounts =
      (h.dialNegotiated - 1, h.maxDialNegotiated) := by
  unfold injectFullyNegotiatedOutbound
  dsimp only
  split <;> split <;> rfl

/-- A failed upgrade of an open request is retried. -/
def Retries (h : RPCHandler Id S) : ConnectionHandlerUpgrErr → Prop
  | .upgrade (.apply (.ioError _)) => h.outboundIoErrorRetries + 1 < ioErrorRetries
  | _ => False

theorem dialCounts_of_retries {error : ConnectionHandlerUpgrErr} (hretry : h.Retries error)
    (info : Id × OutboundRequest) :
    (h.injectDialUpgradeError info error).dialCounts = h.dialCounts := by
  unfold Retries at hretry
  split at hretry
  · unfold injectDialUpgradeError
    dsimp only
    rw [if_pos hretry, dialCounts_sendRequest]
    rfl
  · exact hretry.elim

theorem dialCounts_of_not_retries {error : ConnectionHandlerUpgrErr} (hretry : ¬ h.Retries error)
    (info : Id × OutboundRequest) :
    (h.injectDialUpgradeError info error).dialCounts =
      (h.dialNegotiated - 1, h.maxDialNegotiated) := by
  unfold injectDialUpgradeError
  split
  · have hnot : ¬ h.outboundIoErrorRetries + 1 < ioErrorRetries := hretry
    dsimp only
    rw [if_neg hnot]
    rfl
  · rfl

/-! ## The end of a shutdown -/

/-- The handler is shutting down and has nothing left to do. -/
structure Drained (h : RPCHandler Id S) : Prop where
  state : h.state = .shuttingDown
  dialQueue : h.dialQueue = []
  outboundSubstreams : h.outboundSubstreams = ∅
  inboundSubstreams : h.inboundSubstreams = ∅
  eventsOut : h.eventsOut = []

/-- It is drained, and nothing is negotiated. -/
def Spent (h : RPCHandler Id S) : Prop := h.Drained ∧ h.dialNegotiated = 0

/-- The poll closes the connection. -/
def Closes (r : ConnectionHandlerEvent Id S × RPCHandler Id S) : Prop :=
  ∃ error, r.1 = .close error

theorem Spent.isDone (hs : h.Spent) : h.isDone = true := by
  obtain ⟨hd, hzero⟩ := hs
  unfold RPCHandler.isDone
  rw [hd.dialQueue, hd.outboundSubstreams, hd.inboundSubstreams, hd.eventsOut, hzero]
  rfl

theorem Spent.expireInbound (hs : h.Spent) (expiry : Expiry) :
    (h.expireInbound expiry).Meets Spent Closes False := by
  obtain ⟨hd, hzero⟩ := hs
  cases expiry with
  | failed => exact ⟨_, rfl⟩
  | expired key =>
    unfold RPCHandler.expireInbound
    dsimp only
    split
    · exact ⟨hd, hzero⟩
    · next inboundId delay hexpire =>
      rw [hd.inboundSubstreams]
      exact ⟨⟨hd.state, hd.dialQueue, hd.outboundSubstreams, rfl, hd.eventsOut⟩, hzero⟩

theorem Spent.expireOutbound (hs : h.Spent) (expiry : Expiry) :
    (h.expireOutbound expiry).Meets Spent Closes False := by
  obtain ⟨hd, hzero⟩ := hs
  have hexpiry := expireOutbound_expiry expiry h
  generalize h.expireOutbound expiry = phase at hexpiry
  cases hexpiry with
  | failed => exact ⟨_, rfl⟩
  | dead key => exact ⟨hd, hzero⟩
  | stray key =>
    exact ⟨⟨hd.state, hd.dialQueue, hd.outboundSubstreams, hd.inboundSubstreams, hd.eventsOut⟩,
      hzero⟩
  | timeout key hkey hinfo =>
    rw [hd.outboundSubstreams] at hinfo
    cases hinfo

theorem Spent.driveInbounds (hs : h.Spent) (io : PollIo S) : h.driveInbounds io = .next h := by
  have hkeys : io.inboundOrder.run h.inboundSubstreams.keys = [] := by
    rw [hs.1.inboundSubstreams]
    exact (io.inboundOrder.perm []).eq_nil
  unfold RPCHandler.driveInbounds
  rw [hkeys]
  rfl

theorem Spent.driveOutbounds (hs : h.Spent) (errorText : ErrorType → String) (io : PollIo S) :
    h.driveOutbounds errorText io = .next h := by
  have hkeys : io.outboundOrder.run h.outboundSubstreams.keys = [] := by
    rw [hs.1.outboundSubstreams]
    exact (io.outboundOrder.perm []).eq_nil
  unfold RPCHandler.driveOutbounds
  rw [hkeys]
  rfl

theorem Spent.settle (hs : h.Spent) (errorText : ErrorType → String) (io : PollIo S) :
    (h.settle errorText io).Meets Spent Closes False := by
  refine (h.report_cases.mono (fun h' hnext => hnext.1) (fun r hr => ?_)
    fun hn => hn).andThen fun h₁ hsame => ?_
  · obtain ⟨event, rest, hevents, -⟩ := hr
    rw [hs.1.eventsOut] at hevents
    cases hevents
  subst hsame
  refine ((pollShutdown_cases io.shutdownTimer h₁).mono (fun h' hnext => hnext.1)
    (fun r hr => ?_) fun hn => hn).andThen fun h₂ hsame => ?_
  · obtain ⟨-, rfl⟩ := hr
    exact ⟨_, rfl⟩
  subst hsame
  refine (Flow.Meets.each_of_step (fun expiry h' hs' => hs'.expireInbound expiry)
    io.inboundTimers hs).andThen fun h₃ hs₃ => ?_
  refine (Flow.Meets.each_of_step (fun expiry h' hs' => hs'.expireOutbound expiry)
    io.outboundTimers hs₃).andThen fun h₄ hs₄ => ?_
  rw [hs₄.driveInbounds, Flow.next_andThen, hs₄.driveOutbounds]
  exact hs₄

/-- **A poll of a drained handler closes the connection**, if nothing is negotiated. -/
theorem Spent.poll (hs : h.Spent) (errorText : ErrorType → String) (io : PollIo S) :
    (h.poll errorText io).Meets (fun _ => False) Closes False := by
  refine (hs.settle errorText io).andThen fun h₁ hs₁ => ?_
  refine (h₁.establish_cases.mono (fun h' hnext => hnext.1) (fun r hr => ?_)
    fun hn => hn).andThen fun h₂ hsame => ?_
  · obtain ⟨info, rest, hqueue, -, -⟩ := hr
    rw [hs₁.1.dialQueue] at hqueue
    cases hqueue
  subst hsame
  refine h₂.completeShutdown_cases.mono (fun h' hnext => ?_) (fun r hr => ?_) fun hn => hn
  · exact hnext.2 ⟨hs₁.1.state, hs₁.isDone⟩
  · exact ⟨_, congrArg Prod.fst hr⟩

end RPCHandler

/-! ## The counter along a run -/

namespace Connection

variable {Id : Type} {S : EthSpec} {c : Connection Id S}

/-- **The counter is exact.** The other fields are what follows from it. -/
structure DialExact (errorText : ErrorType → String) (c : Connection Id S) : Prop where
  exact : c.handler.dialNegotiated.toNat = c.opening.length
  /-- The next answer does not underflow. -/
  positive : c.opening ≠ [] → 0 < c.handler.dialNegotiated
  bounded : c.handler.dialNegotiated ≤ c.handler.maxDialNegotiated
  /-- A poll is not pending while a request waits and there is room for it. -/
  dials : c.opening.length < c.handler.maxDialNegotiated.toNat → c.handler.dialQueue ≠ [] →
    ∀ io h, c.handler.poll errorText io ≠ .next h
  /-- Once all requests are answered, a shutdown with nothing left to do ends. -/
  closes : c.opening = [] → c.handler.Drained →
    c.handler.connectionKeepAlive = .no ∧
      ∀ io, ∃ error h, c.handler.poll errorText io = .returned (.close error, h)

/-- What a run keeps: the counter is exact and within its bound. -/
structure DialCounted (c : Connection Id S) : Prop where
  exact : c.handler.dialNegotiated.toNat = c.opening.length
  bounded : c.handler.dialNegotiated ≤ c.handler.maxDialNegotiated
  max : c.handler.maxDialNegotiated = 8

theorem DialCounted.congr {h : RPCHandler Id S} (hc : c.DialCounted)
    (hcounts : h.dialCounts = c.handler.dialCounts) : (c.withHandler h).DialCounted := by
  obtain ⟨hnegotiated, hmax⟩ := Prod.mk.inj hcounts
  refine ⟨?_, ?_, hmax.trans hc.max⟩
  · exact (congrArg UInt32.toNat hnegotiated).trans hc.exact
  · show h.dialNegotiated ≤ h.maxDialNegotiated
    rw [hnegotiated, hmax]
    exact hc.bounded

theorem DialCounted.dialExact (hc : c.DialCounted) (errorText : ErrorType → String) :
    c.DialExact errorText where
  exact := hc.exact
  positive hopen := by
    have hlen := List.length_pos_iff.2 hopen
    rw [UInt32.lt_iff_toNat_lt, hc.exact]
    exact hlen
  bounded := hc.bounded
  dials hroom hqueue io h hpoll := by
    have hdials := RPCHandler.poll_dials errorText io c.handler
    rw [hpoll] at hdials
    rcases hdials.2 with hempty | hfull
    · exact hqueue hempty
    · rw [UInt32.le_iff_toNat_le, hc.exact] at hfull
      omega
  closes hopen hdrained := by
    have hzero : c.handler.dialNegotiated = 0 := by
      apply UInt32.toNat_inj.1
      rw [hc.exact, hopen]
      rfl
    have hspent : c.handler.Spent := ⟨hdrained, hzero⟩
    refine ⟨?_, fun io => ?_⟩
    · unfold RPCHandler.connectionKeepAlive
      rw [hdrained.state]
      dsimp only
      rw [if_pos hspent.isDone]
    · have hpoll := hspent.poll errorText io
      cases hresult : c.handler.poll errorText io with
      | next h =>
        rw [hresult] at hpoll
        exact hpoll.elim
      | panicked =>
        rw [hresult] at hpoll
        exact hpoll.elim
      | returned r =>
        rw [hresult] at hpoll
        obtain ⟨error, herror⟩ := hpoll
        exact ⟨error, r.2, by rw [← herror]⟩

theorem DialCounted.polled {errorText : ErrorType → String} {io : PollIo S}
    (hc : c.DialCounted) : (c.polled (c.handler.poll errorText io)).DialCounted := by
  have hdials := RPCHandler.poll_dials errorText io c.handler
  cases hpoll : c.handler.poll errorText io with
  | panicked => exact ⟨hc.exact, hc.bounded, hc.max⟩
  | next h =>
    rw [hpoll] at hdials
    obtain ⟨hsame, -⟩ := hdials
    exact hc.congr hsame.dialCounts
  | returned r =>
    rw [hpoll] at hdials
    obtain ⟨event, h⟩ := r
    rcases hdials with ⟨hevent, hsame⟩ | ⟨info, hdialed⟩
    · have hkeep := hc.congr hsame.dialCounts
      cases event with
      | custom event => exact ⟨hkeep.exact, hkeep.bounded, hkeep.max⟩
      | close error => exact hkeep
      | outboundSubstreamRequest info => exact absurd rfl (hevent info)
    · have hevent : event = .outboundSubstreamRequest info := hdialed.event
      subst hevent
      have hlt := hdialed.lt
      rw [hc.max, UInt32.lt_iff_toNat_lt] at hlt
      have hnext : h.dialNegotiated.toNat = c.handler.dialNegotiated.toNat + 1 := by
        rw [hdialed.dialNegotiated, UInt32.toNat_add]
        simp only [UInt32.reduceToNat] at hlt ⊢
        omega
      have hmax : h.maxDialNegotiated = 8 := hdialed.maxDialNegotiated.trans hc.max
      refine ⟨?_, ?_, hmax⟩
      · show h.dialNegotiated.toNat = (c.opening ++ [info]).length
        rw [hnext, hc.exact, List.length_append, List.length_singleton]
      · show h.dialNegotiated ≤ h.maxDialNegotiated
        rw [hmax, UInt32.le_iff_toNat_le, hnext]
        simp only [UInt32.reduceToNat] at hlt ⊢
        omega

variable [DecidableEq Id]

/-- An answer that decrements the counter. -/
theorem DialCounted.answer (hc : c.DialCounted) {info : Id × OutboundRequest}
    {inject : RPCHandler Id S → RPCHandler Id S}
    (hcounts : (inject c.handler).dialCounts =
      (c.handler.dialNegotiated - 1, c.handler.maxDialNegotiated)) :
    (c.answer info inject).DialCounted := by
  unfold Connection.answer
  split
  · next hopen =>
    obtain ⟨hnegotiated, hmax⟩ := Prod.mk.inj hcounts
    have hlen := List.length_pos_of_mem hopen
    have hexact := hc.exact
    have hbounded := hc.bounded
    have hone : 1 ≤ c.handler.dialNegotiated.toNat := by omega
    have hprev : (inject c.handler).dialNegotiated.toNat = c.handler.dialNegotiated.toNat - 1 := by
      rw [hnegotiated]
      exact UInt32.toNat_sub_of_le _ _ (UInt32.le_iff_toNat_le.2 hone)
    refine ⟨?_, ?_, hmax.trans hc.max⟩
    · show (inject c.handler).dialNegotiated.toNat = (c.opening.erase info).length
      rw [hprev, List.length_erase_of_mem hopen]
      omega
    · show (inject c.handler).dialNegotiated ≤ (inject c.handler).maxDialNegotiated
      rw [hmax, UInt32.le_iff_toNat_le, hprev]
      rw [UInt32.le_iff_toNat_le] at hbounded
      omega
  · exact hc

/-- The call does not retry an open request. -/
def NotRetried (c : Connection Id S) : Call Id S → Prop
  | .injectDialUpgradeError info error =>
    c.panicked = false → info ∈ c.opening → ¬ c.handler.Retries error
  | _ => True

theorem DialCounted.step {errorText : ErrorType → String} (hc : c.DialCounted)
    {call : Call Id S} (hcall : c.NotRetried call) : (c.step errorText call).DialCounted := by
  refine step_induction hc fun hlive => ?_
  cases call with
  | injectEvent event => exact hc.congr (RPCHandler.dialCounts_injectEvent _ _ event)
  | injectFullyNegotiatedInbound req substream preferred =>
    exact hc.congr (RPCHandler.dialCounts_injectFullyNegotiatedInbound _ req substream preferred)
  | injectFullyNegotiatedOutbound info preferred =>
    dsimp only [Connection.handle]
    refine hc.answer ?_
    exact RPCHandler.dialCounts_injectFullyNegotiatedOutbound c.handler info preferred
  | injectDialUpgradeError info error =>
    dsimp only [Connection.handle]
    by_cases hopen : info ∈ c.opening
    · refine hc.answer ?_
      exact RPCHandler.dialCounts_of_not_retries (hcall hlive hopen) info
    · rwa [answer_of_not_mem hopen]
  | poll io => exact hc.polled

/-- A retry leaves the counter one too high. -/
theorem DialCounted.not_step {errorText : ErrorType → String} (hc : c.DialCounted)
    {call : Call Id S} (hexact : (c.step errorText call).DialExact errorText) :
    c.NotRetried call := by
  cases call with
  | injectDialUpgradeError info error =>
    intro hlive hopen hretry
    have hafter := hexact.exact
    have hbefore := hc.exact
    have hlen := List.length_pos_of_mem hopen
    have hcounts := congrArg Prod.fst (RPCHandler.dialCounts_of_retries hretry info)
    rw [step_of_live hlive, Connection.handle, answer_of_mem hopen] at hafter
    have hsame : (c.handler.injectDialUpgradeError info error).dialNegotiated.toNat =
        (c.opening.erase info).length := hafter
    have hnegotiated : (c.handler.injectDialUpgradeError info error).dialNegotiated =
        c.handler.dialNegotiated := hcounts
    rw [hnegotiated, List.length_erase_of_mem hopen] at hsame
    omega
  | _ => trivial

/-- **The counter of negotiations is exact** throughout the runs in which no failed upgrade is
retried, and throughout no other. -/
theorem dialExact_iff (errorText : ErrorType → String) (calls : List (Call Id S)) :
    Throughout (step errorText) (DialExact errorText) new calls ↔
      Along (step errorText) NotRetried new calls := by
  refine throughout_iff_along (P := DialCounted) (D := fun _ _ => True) ?_ ?_ ?_ ?_ ?_
  · intro c call hc _ hcall
    exact hc.step hcall
  · intro c hc
    exact hc.dialExact errorText
  · intro c call hc _ hexact
    exact hc.not_step hexact
  · exact ⟨rfl, UInt32.zero_le, rfl⟩
  · exact .of_forall (fun _ _ => trivial) calls new

/-- A ping whose first upgrade fails with an IO error. -/
theorem dialExact_fails :
    ¬ ∀ (S : EthSpec) (errorText : ErrorType → String) (calls : List (Call ℕ S)),
      Throughout (step errorText) (DialExact errorText) new calls := by
  intro h
  have hrun := h ⟨fun _ => Empty, Unit, Unit, ()⟩ (fun _ => "")
    [.injectEvent (.request 1 (.ping ⟨0⟩)), .poll .quiet,
      .injectDialUpgradeError (1, .ping ⟨0⟩) (.upgrade (.apply (.ioError "reset")))]
  have hexact := hrun.last.exact
  revert hexact
  decide

end Connection

end Consentry.Rpc
