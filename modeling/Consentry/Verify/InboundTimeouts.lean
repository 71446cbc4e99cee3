import Consentry.Verify.InboundDrive

/-!
# Inbound requests whose timer runs out

**`Connection.timeouts_finish_iff`**: the timers that run out leave their substreams finished (they
are being closed, or the last item of their queue closes them) in exactly the runs in which each
of these substreams is being closed already or has an item queued; and in these runs no substream
is held for ever (`NoLeak`).

A substream that waits for its first response, or for the next one, has an empty queue. Its
timeout queues no error, and nothing is left that could remove it
(`Connection.timeouts_finish_fails`).
-/

namespace Consentry.Rpc

open Lib

/-! ## Substreams that are being closed -/

namespace InboundInfo

variable {S : EthSpec} {deactivated : Bool} {info : InboundInfo S}

/-- The substream is being closed: the message that is being sent ends the stream, or the handler
is deactivated and closes all of its streams. -/
def IsClosing (deactivated : Bool) (info : InboundInfo S) : Prop :=
  deactivated = true ∨ ∃ fut, info.state = .busy fut ∧ fut.closes = true

/-- An item is queued that closes the stream. -/
def ClosingQueued (info : InboundInfo S) : Prop :=
  ∃ item ∈ info.pendingItems, item.closeAfter = true

/-- The substream has a timer, is being closed, or will be when its queue has drained. -/
def Attended (deactivated : Bool) (info : InboundInfo S) : Prop :=
  info.delayKey.isSome = true ∨ info.IsClosing deactivated ∨ info.ClosingQueued

theorem attended_stable (deactivated : Bool) :
    DriveStable deactivated
      fun (_ : List (RPCCodedResponse S)) (info : InboundInfo S) => info.Attended deactivated := by
  refine ⟨?_, ?_, ?_⟩
  · intro _ info substream message pendingItems hactive hidle hpending h
    rcases h with htimed | hclosing | ⟨item, hitem, hcloses⟩
    · exact .inl htimed
    · rcases hclosing with hdeactivated | ⟨fut, hbusy, -⟩
      · exact .inr (.inl (.inl hdeactivated))
      · rw [hidle] at hbusy
        cases hbusy
    · rw [hpending] at hitem
      rcases List.mem_cons.1 hitem with rfl | hitem
      · refine .inr (.inl (.inr ⟨_, rfl, ?_⟩))
        rw [SendFuture.closes_new, hcloses, Bool.or_true]
      · exact .inr (.inr ⟨item, hitem, hcloses⟩)
  · intro _ info fut fut' io hbusy hpoll h
    rcases h with htimed | hclosing | hqueued
    · exact .inl htimed
    · rcases hclosing with hdeactivated | ⟨fut₀, hbusy₀, hcloses⟩
      · exact .inr (.inl (.inl hdeactivated))
      · rw [hbusy] at hbusy₀
        obtain rfl := InboundState.busy.inj hbusy₀
        refine .inr (.inl (.inr ⟨fut', rfl, ?_⟩))
        have hpolled := SendFuture.poll_polled io fut
        rw [hpoll] at hpolled
        cases hpolled with
        | wait => exact hcloses
        | close => rfl
    · exact .inr (.inr hqueued)
  · intro _ info fut substream io hbusy hpoll h
    rcases h with htimed | hclosing | hqueued
    · exact .inl htimed
    · rcases hclosing with hdeactivated | ⟨fut₀, hbusy₀, hcloses⟩
      · exact .inr (.inl (.inl hdeactivated))
      · rw [hbusy] at hbusy₀
        obtain rfl := InboundState.busy.inj hbusy₀
        rw [SendFuture.not_closes_of_open hpoll] at hcloses
        cases hcloses
    · exact .inr (.inr hqueued)

/-- The sink has an answer to every call of the next `n` polls and of one more. -/
def Answers (io : List SinkPoll) (n : ℕ) : Prop :=
  n < io.length ∧ ∀ p ∈ io, p.send ≠ .pending ∧ p.close ≠ .pending

theorem Answers.headD {io : List SinkPoll} {n : ℕ} (h : Answers io n) :
    (io.headD .pending).send ≠ .pending ∧ (io.headD .pending).close ≠ .pending := by
  obtain ⟨hlength, hready⟩ := h
  cases io with
  | nil => cases hlength
  | cons p io => exact hready p List.mem_cons_self

theorem Answers.tail {io : List SinkPoll} {n : ℕ} (h : Answers io (n + 1)) :
    Answers io.tail n := by
  obtain ⟨hlength, hready⟩ := h
  refine ⟨?_, fun p hp => hready p (List.mem_of_mem_tail hp)⟩
  rw [List.length_tail]
  omega

/-- A poll in which the sink answers removes the substream. -/
def Drains (info : InboundInfo S) : Prop :=
  ∀ delay io d, Answers io info.pendingItems.length → info.drive false delay io = some d →
    d.remove = true

theorem drains_busy {delay : DelayQueue SubstreamId} {fut : SendFuture S} {io : List SinkPoll}
    {pendingItems : List (RPCCodedResponse S)} {d : InboundDrive S}
    (hcloses : fut.closes = true ∨ ∃ item ∈ pendingItems, item.closeAfter = true)
    (hio : Answers io pendingItems.length)
    (hd : info.driveBusy false delay fut io pendingItems = some d) : d.remove = true := by
  fun_induction InboundInfo.driveBusy false info delay fut io pendingItems with
  | case1 info delay fut io fut' pendingItems hpoll =>
    exact absurd hpoll (SendFuture.poll_ne_inl hio.headD)
  | case2 info delay fut io substream hpoll =>
    rcases hcloses with hcloses | ⟨item, hitem, -⟩
    · rw [SendFuture.not_closes_of_open hpoll] at hcloses
      cases hcloses
    · cases hitem
  | case3 info delay fut io substream message pendingItems hpoll info' =>
    rename_i ih
    obtain ⟨delay', -, hd⟩ := Option.bind_eq_some_iff.1 hd
    refine ih delay' ?_ hio.tail hd
    rcases hcloses with hcloses | ⟨item, hitem, hcloses⟩
    · rw [SendFuture.not_closes_of_open hpoll] at hcloses
      cases hcloses
    · rcases List.mem_cons.1 hitem with rfl | hitem
      · refine .inl ?_
        rw [SendFuture.closes_new, hcloses, Bool.or_true]
      · exact .inr ⟨item, hitem, hcloses⟩
  | case4 info delay fut io substream pendingItems hpoll =>
    obtain ⟨delay', -, rfl⟩ := Option.map_eq_some_iff.1 hd
    rfl
  | case5 info delay fut io error pendingItems hpoll =>
    obtain ⟨delay', -, rfl⟩ := Option.map_eq_some_iff.1 hd
    rfl

/-- **A substream is released** by a poll in which its sink answers, if it is being closed or a
closing item is queued. -/
theorem drains (hcloses : info.IsClosing false ∨ info.ClosingQueued) : info.Drains := by
  intro delay io d hio hd
  unfold InboundInfo.drive at hd
  cases hstate : info.state with
  | poisoned =>
    rw [hstate] at hd
    cases hd
  | busy fut =>
    rw [hstate] at hd
    refine drains_busy ?_ hio hd
    refine hcloses.imp_left fun hclosing => ?_
    rcases hclosing with hnever | ⟨fut', hbusy, hfut⟩
    · cases hnever
    · rw [hstate] at hbusy
      exact InboundState.busy.inj hbusy ▸ hfut
  | idle substream =>
    rw [hstate] at hd
    rcases hcloses with hclosing | ⟨item, hitem, hcloses⟩
    · rcases hclosing with hnever | ⟨fut, hbusy, -⟩
      · cases hnever
      · rw [hstate] at hbusy
        cases hbusy
    · simp only [Bool.not_false, if_true] at hd
      split at hd
      · next message pendingItems hpending =>
        rw [hpending] at hio hitem
        have hrest : Answers io pendingItems.length := ⟨Nat.lt_of_succ_lt hio.1, hio.2⟩
        refine drains_busy ?_ hrest hd
        rcases List.mem_cons.1 hitem with rfl | hitem
        · refine .inl ?_
          rw [SendFuture.closes_new, hcloses, Bool.or_true]
        · exact .inr ⟨item, hitem, hcloses⟩
      · next hpending =>
        rw [hpending] at hitem
        cases hitem

/-- The last item that is queued closes the stream. -/
def EndsClosing (info : InboundInfo S) : Prop :=
  info.pendingItems.getLast?.map (·.closeAfter) = some true

/-- What a timeout is to leave: the substream is being closed, or the last item of its queue
closes it. -/
def Finished (deactivated : Bool) (info : InboundInfo S) : Prop :=
  info.IsClosing deactivated ∨ info.EndsClosing

theorem endsClosing_timedOut (info : InboundInfo S) :
    info.timedOut.EndsClosing ↔ info.pendingItems ≠ [] := by
  unfold EndsClosing timedOut endsOpen
  cases hlast : info.pendingItems.getLast? with
  | none => simpa [hlast] using List.getLast?_eq_none_iff.1 hlast
  | some item =>
    have hne : info.pendingItems ≠ [] := by
      intro hnil
      rw [hnil] at hlast
      cases hlast
    have herror : (RPCCodedResponse.error .serverError (.ofString "Request timed out") :
        RPCCodedResponse S).closeAfter = true := rfl
    cases hcloses : item.closeAfter with
    | true => simp [hlast, hcloses, hne]
    | false => simp [hcloses, herror, hne]

/-- **A timeout finishes a substream** that is being closed or has an item queued, and no
other. -/
theorem finished_timedOut (info : InboundInfo S) :
    info.timedOut.Finished deactivated ↔ info.IsClosing deactivated ∨ info.pendingItems ≠ [] :=
  or_congr Iff.rfl info.endsClosing_timedOut

theorem EndsClosing.queued (h : info.EndsClosing) : info.ClosingQueued := by
  obtain ⟨item, hlast, hcloses⟩ := Option.map_eq_some_iff.1 h
  exact ⟨item, List.mem_of_getLast? hlast, hcloses⟩

end InboundInfo

/-! ## The loop on the timers -/

namespace RPCHandler

variable {Id : Type} {S : EthSpec} {h h' : RPCHandler Id S}

/-- The timer of the substream `id` runs out in a turn of the loop. -/
def Fires (r : Expiry × RPCHandler Id S) (id : SubstreamId) (info : InboundInfo S) : Prop :=
  ∃ key, r.1 = .expired key ∧ r.2.inboundSubstreamsDelay.live.lookup key = some id ∧
    r.2.inboundSubstreams.lookup id = some info

/-- The substreams whose timers run out are gone, being closed, or have a closing item queued
last. -/
def FinishIn (timers : List Expiry) (h h' : RPCHandler Id S) : Prop :=
  ∀ r ∈ Flow.rounds expireInbound timers h, ∀ id info, Fires r id info →
    ∀ info', h'.inboundSubstreams.lookup id = some info' → info'.Finished h'.isDeactivated

/-- The processing of the timers, whether it goes on or ends the poll, leaves every substream
finished whose timer runs out in it. -/
def Finishes (timers : List Expiry) (h : RPCHandler Id S) : Prop :=
  (Flow.each expireInbound timers h).Meets (FinishIn timers h) (fun r => FinishIn timers h r.2) True

/-- The substreams whose timers run out are being closed or have an item queued. The loop ends
with the first error of the timers. -/
def FiresBusy (timers : List Expiry) (h : RPCHandler Id S) : Prop :=
  ∀ key id info, .expired key ∈ timers.takeWhile (· ≠ .failed) →
    h.inboundSubstreamsDelay.live.lookup key = some id → h.inboundSubstreams.lookup id = some info →
      info.IsClosing h.isDeactivated ∨ info.pendingItems ≠ []

/-- The same, in the states in which the timers run out. -/
def RoundsBusy (timers : List Expiry) (h : RPCHandler Id S) : Prop :=
  ∀ r ∈ Flow.rounds expireInbound timers h, ∀ id info, Fires r id info →
    info.IsClosing h.isDeactivated ∨ info.pendingItems ≠ []

/-- The substream `id` and the state of the handler are as they were. -/
def SameAt (id : SubstreamId) (h h' : RPCHandler Id S) : Prop :=
  h'.inboundSubstreams.lookup id = h.inboundSubstreams.lookup id ∧
    h'.isDeactivated = h.isDeactivated

/-- The loop leaves a substream alone that has no timer, and does not panic. -/
theorem expireInbounds_untimed {current id : SubstreamId} (hs : h.SaneAt current)
    (timers : List Expiry)
    (huntimed : ∀ key, h.inboundSubstreamsDelay.live.lookup key ≠ some id) :
    (Flow.each expireInbound timers h).Meets (SameAt id h) (fun r => SameAt id h r.2) False := by
  have hloop : (Flow.each expireInbound timers h).Meets
      (fun h' => h'.inboundSubstreams.lookup id = h.inboundSubstreams.lookup id ∧
        ∀ key, h'.inboundSubstreamsDelay.live.lookup key ≠ some id)
      (fun r => r.2.inboundSubstreams.lookup id = h.inboundSubstreams.lookup id) True := by
    refine Flow.Meets.each_of_step (fun expiry h₁ hpast => ?_) timers ⟨rfl, huntimed⟩
    obtain ⟨hsame, huntimed⟩ := hpast
    have herase : ∀ key key', (h₁.inboundSubstreamsDelay.live.erase key).lookup key' ≠ some id := by
      intro key key'
      rw [Map.lookup_erase_eq]
      split
      · simp
      · exact huntimed key'
    have hexpiry := expireInbound_expiry expiry h₁
    generalize h₁.expireInbound expiry = phase at hexpiry
    cases hexpiry with
    | failed => exact hsame
    | dead key hkey => exact ⟨hsame, huntimed⟩
    | stray key hkey hinfo => exact ⟨hsame, herase key⟩
    | @timeout key id' info hkey hinfo =>
      have hne : id ≠ id' := by
        rintro rfl
        exact huntimed key hkey
      refine ⟨?_, herase key⟩
      exact (Map.lookup_insert_eq _ _ _ _).trans ((if_neg hne).trans hsame)
  refine ((hloop.and (expireInbounds_inward timers h)).and (hs.expireInbounds timers)).mono
    (fun h' hnext => ?_) (fun r hr => ?_) And.right
  · exact ⟨hnext.1.1.1, hnext.1.2.isDeactivated⟩
  · exact ⟨hr.1.1, hr.1.2.2.isDeactivated⟩

theorem forall_fires_timeout {key : ℕ} {id : SubstreamId} {info : InboundInfo S}
    (hkey : h.inboundSubstreamsDelay.live.lookup key = some id)
    (hinfo : h.inboundSubstreams.lookup id = some info)
    {P : SubstreamId → InboundInfo S → Prop} :
    (∀ id info, Fires (.expired key, h) id info → P id info) ↔ P id info := by
  constructor
  · intro hall
    exact hall id info ⟨key, rfl, hkey, hinfo⟩
  · rintro hP id' info' ⟨key', hsame, hkey', hinfo'⟩
    obtain rfl := Expiry.expired.inj hsame
    rw [hkey] at hkey'
    obtain rfl := Option.some.inj hkey'
    rw [hinfo] at hinfo'
    rwa [← Option.some.inj hinfo']

theorem not_fires_failed (id : SubstreamId) (info : InboundInfo S) :
    ¬ Fires (.failed, h) id info := by
  rintro ⟨key, hsame, -⟩
  cases hsame

theorem not_fires_dead {key : ℕ} (hkey : h.inboundSubstreamsDelay.live.lookup key = none)
    (id : SubstreamId) (info : InboundInfo S) : ¬ Fires (.expired key, h) id info := by
  rintro ⟨key', hsame, hkey', -⟩
  obtain rfl := Expiry.expired.inj hsame
  rw [hkey] at hkey'
  cases hkey'

theorem firesBusy_dead {key : ℕ} (hkey : h.inboundSubstreamsDelay.live.lookup key = none)
    (timers : List Expiry) : FiresBusy (.expired key :: timers) h ↔ FiresBusy timers h := by
  have hhead : (Expiry.expired key :: timers).takeWhile (· ≠ .failed) =
      .expired key :: timers.takeWhile (· ≠ .failed) := by simp
  unfold FiresBusy
  rw [hhead]
  constructor
  · intro hall key' id info hmem
    exact hall key' id info (List.mem_cons_of_mem _ hmem)
  · intro hall key' id info hmem hkey'
    rcases List.mem_cons.1 hmem with hsame | hmem
    · obtain rfl := Expiry.expired.inj hsame
      rw [hkey] at hkey'
      cases hkey'
    · exact hall key' id info hmem hkey'

/-- What the timers that are left find, when that of the substream `id` has run out. -/
theorem firesBusy_timeout {current id : SubstreamId} {key : ℕ} {info : InboundInfo S}
    (hkey : h.inboundSubstreamsDelay.live.lookup key = some id)
    (hinfo : h.inboundSubstreams.lookup id = some info) (hs' : h'.SaneAt current)
    (hdelay : h'.inboundSubstreamsDelay.live = h.inboundSubstreamsDelay.live.erase key)
    (hstore : h'.inboundSubstreams = h.inboundSubstreams.insert id info.timedOut)
    (hdeactivated : h'.isDeactivated = h.isDeactivated) (timers : List Expiry) :
    FiresBusy (.expired key :: timers) h ↔
      (info.IsClosing h.isDeactivated ∨ info.pendingItems ≠ []) ∧ FiresBusy timers h' := by
  have hhead : (Expiry.expired key :: timers).takeWhile (· ≠ .failed) =
      .expired key :: timers.takeWhile (· ≠ .failed) := by simp
  have hstored : h'.inboundSubstreams.lookup id = some info.timedOut := by
    rw [hstore, Map.lookup_insert_eq, if_pos rfl]
  have huntimed : ∀ key', h'.inboundSubstreamsDelay.live.lookup key' ≠ some id :=
    fun key' => hs'.sane.inbound.untimed hstored rfl
  unfold FiresBusy
  rw [hhead]
  constructor
  · intro hall
    refine ⟨hall key id info List.mem_cons_self hkey hinfo, ?_⟩
    intro key' id' info' hmem hkey' hinfo'
    have hne : id' ≠ id := by
      rintro rfl
      exact huntimed key' hkey'
    rw [hstore, Map.lookup_insert_eq, if_neg hne] at hinfo'
    rw [hdelay, Map.lookup_erase_eq] at hkey'
    split at hkey'
    · cases hkey'
    · rw [hdeactivated]
      exact hall key' id' info' (List.mem_cons_of_mem _ hmem) hkey' hinfo'
  · rintro ⟨hone, hrest⟩ key' id' info' hmem hkey' hinfo'
    by_cases hid : id' = id
    · subst hid
      rw [hinfo] at hinfo'
      rwa [← Option.some.inj hinfo']
    · have hne : key' ≠ key := by
        rintro rfl
        rw [hkey] at hkey'
        exact hid (Option.some.inj hkey').symm
      rcases List.mem_cons.1 hmem with hsame | hmem
      · exact absurd (Expiry.expired.inj hsame) hne
      · rw [← hdeactivated]
        refine hrest key' id' info' hmem ?_ ?_
        · rwa [hdelay, Map.lookup_erase_eq, if_neg hne]
        · rwa [hstore, Map.lookup_insert_eq, if_neg hid]

theorem firesBusy_iff {current : SubstreamId} (hs : h.SaneAt current) (timers : List Expiry) :
    FiresBusy timers h ↔ RoundsBusy timers h := by
  induction timers generalizing h with
  | nil =>
    refine ⟨fun _ r hr => ?_, fun _ key id info hmem => ?_⟩
    · cases hr
    · cases hmem
  | cons expiry timers ih =>
    have hturn := expireInbound_expiry expiry h
    have hkeeps := hs.expireInbound hturn
    generalize hphase : h.expireInbound expiry = phase at hturn hkeeps
    unfold RoundsBusy
    cases hturn with
    | failed =>
      rw [Flow.rounds_of_returned hphase]
      simp [FiresBusy, not_fires_failed]
    | dead key hkey =>
      have hquiet : ∀ id info, Fires (.expired key, h) id info →
          info.IsClosing h.isDeactivated ∨ info.pendingItems ≠ [] :=
        fun id info hfires => absurd hfires (not_fires_dead hkey id info)
      rw [Flow.rounds_of_next hphase, firesBusy_dead hkey, List.forall_mem_cons,
        and_iff_right hquiet]
      exact ih hs
    | stray key hkey hinfo =>
      obtain ⟨info, hheld, -⟩ := hs.sane.inbound.holder hkey
      rw [hinfo] at hheld
      cases hheld
    | @timeout key id info hkey hinfo =>
      rw [Flow.rounds_of_next hphase]
      simp only [List.forall_mem_cons, forall_fires_timeout hkey hinfo]
      exact (firesBusy_timeout hkey hinfo hkeeps rfl rfl rfl timers).trans
        (and_congr_right' (ih hkeeps))

/-- The rest of the loop leaves a substream as its timeout has left it. -/
theorem finishes_timedOut {current id : SubstreamId} {info : InboundInfo S} {deactivated : Bool}
    (hs : h.SaneAt current) (hinfo : h.inboundSubstreams.lookup id = some info.timedOut)
    (hdeactivated : h.isDeactivated = deactivated) (timers : List Expiry)
    {P : RPCHandler Id S → Prop} :
    (Flow.each expireInbound timers h).Meets
        (fun h' => (∀ info', h'.inboundSubstreams.lookup id = some info' →
          info'.Finished h'.isDeactivated) ∧ P h')
        (fun r => (∀ info', r.2.inboundSubstreams.lookup id = some info' →
          info'.Finished r.2.isDeactivated) ∧ P r.2) True ↔
      (info.IsClosing deactivated ∨ info.pendingItems ≠ []) ∧
        (Flow.each expireInbound timers h).Meets P (fun r => P r.2) True := by
  have hend := expireInbounds_untimed hs timers fun key => hs.sane.inbound.untimed hinfo rfl
  have hfinished : ∀ h', SameAt id h h' →
      ((∀ info', h'.inboundSubstreams.lookup id = some info' → info'.Finished h'.isDeactivated) ↔
        info.IsClosing deactivated ∨ info.pendingItems ≠ []) := by
    intro h' hsame
    rw [hsame.1, hsame.2, hinfo, hdeactivated, ← info.finished_timedOut]
    exact ⟨fun hall => hall _ rfl, fun hone info' hinfo' => Option.some.inj hinfo' ▸ hone⟩
  exact hend.congr_and (fun h' hsame => and_congr_left' (hfinished h' hsame))
    fun r hsame => and_congr_left' (hfinished r.2 hsame)

/-- **The processing of the timers finishes exactly the substreams that are being closed or have
an item queued.** -/
theorem finishes_iff {current : SubstreamId} (hs : h.SaneAt current) (timers : List Expiry) :
    Finishes timers h ↔ RoundsBusy timers h := by
  induction timers generalizing h with
  | nil =>
    have hrounds : Flow.rounds expireInbound [] h = [] := rfl
    unfold RoundsBusy
    rw [hrounds]
    refine ⟨fun _ r hr => ?_, fun _ r hr => ?_⟩
    · cases hr
    · cases hr
  | cons expiry timers ih =>
    have hturn := expireInbound_expiry expiry h
    have hkeeps := hs.expireInbound hturn
    have heach : Flow.each expireInbound (expiry :: timers) h =
        (h.expireInbound expiry).andThen (Flow.each expireInbound timers) := rfl
    generalize hphase : h.expireInbound expiry = phase at hturn hkeeps heach
    unfold Finishes FinishIn RoundsBusy at ih ⊢
    rw [heach]
    cases hturn with
    | failed =>
      rw [Flow.rounds_of_returned hphase]
      simp [Flow.andThen, Flow.Meets, not_fires_failed]
    | dead key hkey =>
      rw [Flow.rounds_of_next hphase]
      simpa [not_fires_dead hkey] using ih hs
    | stray key hkey hinfo =>
      obtain ⟨info, hheld, -⟩ := hs.sane.inbound.holder hkey
      rw [hinfo] at hheld
      cases hheld
    | @timeout key id info hkey hinfo =>
      rw [Flow.rounds_of_next hphase]
      simp only [List.forall_mem_cons, forall_fires_timeout hkey hinfo]
      refine (finishes_timedOut hkeeps ?_ rfl timers).trans (and_congr_right' (ih hkeeps))
      exact (Map.lookup_insert_eq _ _ _ _).trans (if_pos rfl)

/-! ## The substreams of a handler -/

/-- Every inbound substream has a timer, is being closed, or has a closing item queued. -/
def AllAttended (h : RPCHandler Id S) : Prop :=
  ∀ id info, h.inboundSubstreams.lookup id = some info → info.Attended h.isDeactivated

theorem AllAttended.congr (ha : h.AllAttended)
    (hinbound : h'.inboundSubstreams = h.inboundSubstreams)
    (hdeactivated : h'.isDeactivated = h.isDeactivated) : h'.AllAttended := by
  intro id info hinfo
  rw [hinbound] at hinfo
  rw [hdeactivated]
  exact ha id info hinfo

theorem AllAttended.same (ha : h.AllAttended) (hsame : h.SameInbound h') : h'.AllAttended :=
  ha.congr hsame.inboundSubstreams hsame.isDeactivated

/-- One substream is stored. -/
theorem AllAttended.insert (ha : h.AllAttended) {id : SubstreamId} {info : InboundInfo S}
    (hinfo : info.Attended h.isDeactivated)
    (hstore : h'.inboundSubstreams = h.inboundSubstreams.insert id info)
    (hdeactivated : h'.isDeactivated = h.isDeactivated) : h'.AllAttended := by
  intro j info' hj
  rw [hstore, Map.lookup_insert_eq] at hj
  rw [hdeactivated]
  split at hj
  · exact Option.some.inj hj ▸ hinfo
  · exact ha j info' hj

theorem AllAttended.beforeTimers (ha : h.AllAttended) (io : PollIo S) :
    (h.beforeTimers io).Meets AllAttended (fun r => r.2.AllAttended) True := by
  refine Flow.Meets.andThen ((report_keepsInbound h).mono (fun _ hnext => ha.same hnext)
    (fun _ hr => ha.same hr) fun hn => hn) fun h₁ ha₁ => ?_
  refine (pollShutdown_cases io.shutdownTimer h₁).mono (fun h' hnext => ?_) (fun r hr => ?_)
    fun hn => hn
  · rw [hnext.1]
    exact ha₁
  · obtain ⟨-, rfl⟩ := hr
    exact fun _ _ _ => .inr (.inl (.inl rfl))

/-- Timers that run out for substreams that are being closed or have an item queued. -/
theorem AllAttended.expireInbounds (ha : h.AllAttended) {timers : List Expiry}
    (hbusy : RoundsBusy timers h) :
    (Flow.each RPCHandler.expireInbound timers h).Meets AllAttended (fun r => r.2.AllAttended)
      True := by
  have hloop : (Flow.each RPCHandler.expireInbound timers h).Meets
      (fun h' => h'.AllAttended ∧ h'.isDeactivated = h.isDeactivated)
      (fun r => r.2.AllAttended) True := by
    refine Flow.Meets.each_of_rounds (fun expiry h₁ hpast hround => ?_) ⟨ha, rfl⟩ hbusy
    obtain ⟨ha₁, hsame⟩ := hpast
    have hexpiry := expireInbound_expiry expiry h₁
    generalize h₁.expireInbound expiry = phase at hexpiry
    cases hexpiry with
    | failed => exact ha₁
    | dead key hkey => exact ⟨ha₁, hsame⟩
    | stray key hkey hinfo => exact ⟨ha₁, hsame⟩
    | @timeout key id info hkey hinfo =>
      have hfinished := info.finished_timedOut.2 (hround id info ⟨key, rfl, hkey, hinfo⟩)
      refine ⟨ha₁.insert ?_ rfl rfl, hsame⟩
      rw [hsame]
      exact .inr (hfinished.imp_right InboundInfo.EndsClosing.queued)
  exact hloop.mono (fun _ hnext => hnext.1) (fun _ hr => hr) fun hn => hn

theorem AllAttended.driveInbounds (ha : h.AllAttended) {io : SubstreamId → List SinkPoll}
    (hdrives : DrivesInbounds io h h') : h'.AllAttended := by
  intro id info' hinfo'
  have hsettles := hdrives.settles id
  rw [hdrives.inward.isDeactivated]
  generalize hinfo : h.inboundSubstreams.lookup id = place at hsettles
  generalize h'.inboundSubstreams.lookup id = place' at hsettles hinfo'
  cases hsettles with
  | absent => cases hinfo'
  | @driven info delay d hd =>
    split at hinfo'
    · cases hinfo'
    · next hkept =>
      obtain ⟨last, hlast, hsame⟩ :=
        (InboundInfo.attended_stable h.isDeactivated).drive [] (ha id info hinfo) hd
      obtain rfl := Option.some.inj hinfo'
      rwa [hsame (Bool.eq_false_of_not_eq_true hkept)]

/-- A poll whose timers run out for such substreams only. -/
theorem AllAttended.poll {current : SubstreamId} (ha : h.AllAttended) (hs : h.SaneAt current)
    (errorText : ErrorType → String) {io : PollIo S}
    (hbusy : ∀ h', h.beforeTimers io = .next h' → RoundsBusy io.inboundTimers h') :
    (h.poll errorText io).Meets AllAttended (fun r => r.2.AllAttended) True := by
  rw [poll_eq]
  refine (((Flow.Meets.self (h.beforeTimers io)).and (ha.beforeTimers io)).and
    (hs.beforeTimers io)).mono (fun _ hnext => hnext) (fun _ hr => hr.1.2) (fun hn => hn.2.elim)
      |>.andThen fun h₁ hnext => ?_
  obtain ⟨⟨hfirst, ha₁⟩, hs₁⟩ := hnext
  refine ((ha₁.expireInbounds (hbusy h₁ hfirst)).and (hs₁.expireInbounds io.inboundTimers)).mono
    (fun _ hnext => hnext) (fun _ hr => hr.1) (fun hn => hn.1) |>.andThen fun h₂ hnext => ?_
  obtain ⟨ha₂, hs₂⟩ := hnext
  refine ((expireOutbounds_keepsInbound io.outboundTimers h₂).and
    (hs₂.expireOutbounds io.outboundTimers)).mono (fun _ hnext => hnext)
      (fun _ hr => ha₂.same hr.1) (fun hn => hn.1) |>.andThen fun h₃ hnext => ?_
  obtain ⟨hsame, hs₃⟩ := hnext
  refine (hs₃.driveInbounds io).mono (fun _ hnext => hnext) (fun _ hr => hr.elim)
    (fun hn => hn.elim) |>.andThen fun h₄ hnext => ?_
  have ha₄ := (ha₂.same hsame).driveInbounds hnext.2
  exact (afterInbounds_keepsInbound errorText io h₄).mono (fun _ hnext => ha₄.same hnext)
    (fun _ hr => ha₄.same hr) fun hn => hn

/-! ### The other calls -/

theorem AllAttended.sendResponse (ha : h.AllAttended) (errorText : ErrorType → String)
    (inboundId : SubstreamId) (response : RPCCodedResponse S) :
    (h.sendResponse errorText inboundId response).AllAttended := by
  rcases sendResponse_cases errorText h inboundId response with
    ⟨-, hsame⟩ | ⟨info, hinfo, -, hstore, hdeactivated, -⟩
  · exact ha.same hsame
  · refine ha.insert ?_ hstore hdeactivated
    rcases ha inboundId info hinfo with htimed | hclosing | ⟨item, hitem, hcloses⟩
    · exact .inl htimed
    · exact .inr (.inl hclosing)
    · exact .inr (.inr ⟨item, List.mem_append_left _ hitem, hcloses⟩)

theorem AllAttended.storeInbound (ha : h.AllAttended) {req : InboundRequest}
    {substream : InboundSubstream S} {preferred : ℕ}
    (hstore : h.storeInbound req substream preferred = some h') : h'.AllAttended := by
  unfold RPCHandler.storeInbound at hstore
  split at hstore
  · split at hstore
    · obtain rfl := Option.some.inj hstore
      exact ha.insert (.inl rfl) rfl rfl
    · cases hstore
  · obtain rfl := Option.some.inj hstore
    exact ha

theorem AllAttended.injectFullyNegotiatedInbound (ha : h.AllAttended) (req : InboundRequest)
    (substream : InboundSubstream S) (preferred : ℕ) :
    (h.injectFullyNegotiatedInbound req substream preferred).AllAttended := by
  unfold RPCHandler.injectFullyNegotiatedInbound
  split
  · split
    · exact AllAttended.same (ha.congr rfl rfl : (h.push _).AllAttended)
        (shutdown_sameInbound _ none)
    · next h' hstore =>
      have ha' := ha.storeInbound hstore
      split
      · exact (ha'.same (shutdown_sameInbound h' none)).congr rfl rfl
      · exact ha'.congr rfl rfl
  · exact ha

end RPCHandler

/-! ## The run -/

namespace Connection

open RPCHandler

variable {Id : Type} {S : EthSpec} [DecidableEq Id] {c : Connection Id S}

/-- The timers that run out in a poll finish their substreams. -/
def TimeoutsFinish (c : Connection Id S) : Call Id S → Prop
  | .poll io => ∀ h, c.handler.beforeTimers io = .next h → Finishes io.inboundTimers h
  | _ => True

/-- The timers that run out in a poll, where it comes to that, belong to substreams that are being
closed or have an item queued. -/
def TimeoutsBusy (c : Connection Id S) : Call Id S → Prop
  | .poll io => c.handler.eventsOut = [] →
      ¬(c.handler.state = .shuttingDown ∧ io.shutdownTimer = true) →
        FiresBusy io.inboundTimers c.handler
  | _ => True

/-- What is said of a substream that is held: its timer is live, or it is being closed, or it
will be closed by an item that is queued. In the last two cases it is released as soon as its
sink answers. -/
structure Held (h : RPCHandler Id S) (id : SubstreamId) (info : InboundInfo S) : Prop where
  attended : (∃ key, info.delayKey = some key ∧
    h.inboundSubstreamsDelay.live.lookup key = some id) ∨
      info.IsClosing h.isDeactivated ∨ info.ClosingQueued
  drains : h.isDeactivated = false → info.IsClosing h.isDeactivated ∨ info.ClosingQueued →
    info.Drains

/-- Every inbound substream is held for a reason. -/
def NoLeak (c : Connection Id S) : Prop :=
  ∀ id info, c.handler.inboundSubstreams.lookup id = some info → Held c.handler id info

omit [DecidableEq Id] in
theorem timeoutsFinish_iff (hc : c.Safe) (call : Call Id S) :
    c.TimeoutsFinish call ↔ c.TimeoutsBusy call := by
  cases call with
  | poll io =>
    have hs : c.handler.SaneAt c.handler.currentOutboundSubstreamId := ⟨hc.sane, rfl⟩
    have hiff := (finishes_iff hs io.inboundTimers).trans (firesBusy_iff hs io.inboundTimers).symm
    constructor
    · intro hfinish hevents hdue
      exact hiff.1 (hfinish _ (beforeTimers_eq_next.2 ⟨rfl, hevents, hdue⟩))
    · intro hbusy h hnext
      obtain ⟨rfl, hevents, hdue⟩ := beforeTimers_eq_next.1 hnext
      exact hiff.2 (hbusy hevents hdue)
  | _ => exact Iff.rfl

omit [DecidableEq Id] in
theorem noLeak_of_attended (hc : c.Safe) (ha : c.handler.AllAttended) : c.NoLeak := by
  intro id info hinfo
  constructor
  · refine (ha id info hinfo).imp_left fun htimed => ?_
    obtain ⟨key, hkey⟩ := Option.isSome_iff_exists.1 htimed
    exact ⟨key, hkey, hc.sane.inbound.owner hinfo hkey⟩
  · intro hactive hcloses
    rw [hactive] at hcloses
    exact info.drains hcloses

theorem attended_step (hc : c.Safe) (ha : c.handler.AllAttended) (errorText : ErrorType → String)
    {call : Call Id S} (hbusy : c.TimeoutsBusy call) :
    (c.step errorText call).handler.AllAttended := by
  rw [step_of_live hc.live]
  cases call with
  | injectEvent event =>
    cases event with
    | request id req => exact ha.same (sendRequest_sameInbound _ id req)
    | response inboundId response => exact ha.sendResponse errorText inboundId response
    | shutdown id reason => exact ha.same (shutdown_sameInbound _ _)
  | injectFullyNegotiatedInbound req substream preferred =>
    exact ha.injectFullyNegotiatedInbound req substream preferred
  | injectFullyNegotiatedOutbound info preferred =>
    dsimp only [handle]
    by_cases hopen : info ∈ c.opening
    · rw [answer_of_mem hopen]
      exact ha.same (injectFullyNegotiatedOutbound_sameInbound _ info preferred)
    · rwa [answer_of_not_mem hopen]
  | injectDialUpgradeError info error =>
    dsimp only [handle]
    by_cases hopen : info ∈ c.opening
    · rw [answer_of_mem hopen]
      exact ha.same (injectDialUpgradeError_sameInbound _ info error)
    · rwa [answer_of_not_mem hopen]
  | poll io =>
    have hs : c.handler.SaneAt c.handler.currentOutboundSubstreamId := ⟨hc.sane, rfl⟩
    have hpoll := ha.poll hs errorText fun h hnext => by
      obtain ⟨rfl, hevents, hdue⟩ := beforeTimers_eq_next.1 hnext
      exact (firesBusy_iff hs io.inboundTimers).1 (hbusy hevents hdue)
    dsimp only [handle]
    generalize c.handler.poll errorText io = phase at hpoll
    cases phase with
    | next h => exact hpoll
    | panicked => exact ha
    | returned r =>
      obtain ⟨event, h⟩ := r
      cases event <;> exact hpoll

/-- **A timeout finishes its substream** in exactly the runs in which every timer that runs out
belongs to a substream that is being closed or has an item queued, and in these runs no inbound
substream is ever held without a live timer unless it is being closed or will be. -/
theorem timeouts_finish_iff (errorText : ErrorType → String) (calls : List (Call Id S)) :
    (Along (step errorText) TimeoutsFinish new calls ↔
      Along (step errorText) TimeoutsBusy new calls) ∧
    (Along (step errorText) TimeoutsBusy new calls →
      Throughout (step errorText) NoLeak new calls) := by
  constructor
  · exact along_congr (fun c call hc => (Safe.step hc errorText call).1)
      (fun c call hc => timeoutsFinish_iff hc call) calls safe_new
  · intro hbusy
    refine (throughout_of_along (P := fun c => c.Safe ∧ c.handler.AllAttended)
      (fun c call hc hcall => ?_) ⟨safe_new, fun id info hinfo => ?_⟩ hbusy).mono fun c hc => ?_
    · exact ⟨(hc.1.step errorText call).1, attended_step hc.1 hc.2 errorText hcall⟩
    · cases hinfo
    · exact noLeak_of_attended hc.1 hc.2

/-- A ping is received, and its timer runs out before it is answered. -/
def unanswered {S : EthSpec} : List (Call ℕ S) :=
  [.injectFullyNegotiatedInbound (.ping ⟨0⟩) ⟨[]⟩ 0, .poll .quiet,
    .poll { (PollIo.quiet : PollIo S) with inboundTimers := [.expired 0] }]

/-- The substream of an unanswered ping stays open, without a timer and with nothing to send. -/
theorem timeouts_finish_fails :
    ¬ (∀ (S : EthSpec) (errorText : ErrorType → String) (calls : List (Call ℕ S)),
      Along (step errorText) TimeoutsFinish new calls) ∧
    ¬ ∀ (S : EthSpec) (errorText : ErrorType → String) (calls : List (Call ℕ S)),
      Throughout (step errorText) NoLeak new calls := by
  constructor
  · intro h
    obtain ⟨-, -, hpoll, -⟩ := h ⟨fun _ => Empty, Unit, Unit, ()⟩ (fun _ => "") unanswered
    have hfinish := hpoll _ rfl (_, _) (List.mem_singleton.2 rfl) 0 _ ⟨0, rfl, rfl, rfl⟩ _ rfl
    rcases hfinish with hclosing | hends
    · rcases hclosing with hdeactivated | ⟨fut, hbusy, -⟩
      · cases hdeactivated
      · cases hbusy
    · cases hends
  · intro h
    have hleak := (h ⟨fun _ => Empty, Unit, Unit, ()⟩ (fun _ => "") unanswered).last
    rcases (hleak 0 _ rfl).attended with ⟨key, hkey, -⟩ | hclosing | ⟨item, hitem, -⟩
    · cases hkey
    · rcases hclosing with hdeactivated | ⟨fut, hbusy, -⟩
      · cases hdeactivated
      · cases hbusy
    · cases hitem

end Connection

end Consentry.Rpc
