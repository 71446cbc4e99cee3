import Consentry.Lib.Assoc
import Consentry.Lib.Keys
import Consentry.Lib.Run
import Consentry.Verify.HandlerPhases

/-!
# The panics of the handler are not reached

**`Connection.panics_unreachable`**: in every state of every run no poll panics, each turn of its
loops finds its substream in order with a live timer of its own, and no id of an outbound
substream is registered twice.

The timers of a delay queue and the substreams they belong to keep books on each other
(`Booked`): a substream that has a timer holds the key of a live one, and a live timer belongs to
a substream that holds its key. Every phase of a poll keeps both books in order, in spite of the
state that a loop takes out while it drives a substream (`Turning`, `OutboundTurning`).
-/

namespace Consentry.Rpc

open Lib

namespace DelayQueue

variable {α : Type} {q : DelayQueue α} {key : ℕ} {value : α}

private theorem le_foldr_max {k : ℕ} {ks : List ℕ} (hk : k ∈ ks) : k ≤ ks.foldr max 0 := by
  induction ks with
  | nil => cases hk
  | cons k' ks ih =>
    rw [List.foldr_cons]
    rcases List.mem_cons.1 hk with rfl | hk
    · exact le_max_left _ _
    · exact le_trans (ih hk) (le_max_right _ _)

theorem lookup_freeKey (q : DelayQueue α) (preferred : ℕ) :
    q.live.lookup (q.freeKey preferred) = none := by
  rw [AList.lookup_eq_none]
  unfold freeKey
  split
  · intro hmem
    have hle := le_foldr_max (AList.mem_keys.1 hmem)
    omega
  · next hfree => exact hfree

theorem remove_of_lookup (hkey : q.live.lookup key = some value) :
    q.remove key = some ⟨q.live.erase key⟩ :=
  if_pos (AList.lookup_isSome.1 (by rw [hkey]; rfl))

theorem reset_of_lookup (hkey : q.live.lookup key = some value) : q.reset key = some q :=
  if_pos (AList.lookup_isSome.1 (by rw [hkey]; rfl))

end DelayQueue

/-! ## Substreams and their timers -/

/-- The books on the substreams of one side: the timers that are live are those that substreams
have, each its own, no state has been left poisoned, and the next id is new. -/
structure Booked {α : Type} (delayKey : α → Option ℕ) (poisoned : α → Prop)
    (substreams : Map SubstreamId α) (delay : DelayQueue SubstreamId) (current : SubstreamId) :
    Prop where
  owns : Owns (fun id => (substreams.lookup id).bind delayKey) delay.live.lookup
  unpoisoned : ∀ id info, substreams.lookup id = some info → ¬ poisoned info
  fresh : ∀ id info, substreams.lookup id = some info → id < current

namespace Booked

variable {α : Type} {delayKey : α → Option ℕ} {poisoned : α → Prop}
  {substreams substreams' : Map SubstreamId α} {delay delay' : DelayQueue SubstreamId}
  {current id : SubstreamId} {info info' : α} {key : ℕ}

theorem empty : Booked delayKey poisoned ∅ .new 0 := by
  refine ⟨⟨fun id key hkey => ?_, fun id key hkey => ?_⟩, fun id info hinfo => ?_,
    fun id info hinfo => ?_⟩
  · cases hkey
  · cases hkey
  · cases hinfo
  · cases hinfo

/-- The timer of a substream is its own. -/
theorem owner (h : Booked delayKey poisoned substreams delay current)
    (hinfo : substreams.lookup id = some info) (hkey : delayKey info = some key) :
    delay.live.lookup key = some id :=
  h.owns.registered id key ((congrArg (·.bind delayKey) hinfo).trans hkey)

/-- A timer that is live belongs to a substream. -/
theorem holder (h : Booked delayKey poisoned substreams delay current)
    (hkey : delay.live.lookup key = some id) :
    ∃ info, substreams.lookup id = some info ∧ delayKey info = some key :=
  Option.bind_eq_some_iff.1 (h.owns.held id key hkey)

/-- A substream without a timer has none that is live. -/
theorem untimed (h : Booked delayKey poisoned substreams delay current)
    (hinfo : substreams.lookup id = some info) (hnone : delayKey info = none) :
    delay.live.lookup key ≠ some id := by
  intro hkey
  obtain ⟨info', hinfo', hheld⟩ := h.holder hkey
  rw [hinfo] at hinfo'
  obtain rfl := Option.some.inj hinfo'
  rw [hnone] at hheld
  cases hheld

/-- A substream is stored again with its timer. -/
theorem store (h : Booked delayKey poisoned substreams delay current)
    (hinfo : substreams.lookup id = some info) (hkey : delayKey info' = delayKey info)
    (hstate : ¬ poisoned info')
    (hlookup : ∀ j, substreams'.lookup j = if j = id then some info' else substreams.lookup j) :
    Booked delayKey poisoned substreams' delay current := by
  refine ⟨h.owns.congr (fun j => ?_) fun _ => rfl, fun j i hj => ?_, fun j i hj => ?_⟩
  · rw [hlookup]
    split
    · next hsame =>
      rw [hsame, hinfo]
      exact hkey
    · rfl
  · rw [hlookup] at hj
    split at hj
    · exact Option.some.inj hj ▸ hstate
    · exact h.unpoisoned j i hj
  · rw [hlookup] at hj
    split at hj
    · next hsame => exact hsame ▸ h.fresh id info hinfo
    · exact h.fresh j i hj

theorem insert (h : Booked delayKey poisoned substreams delay current)
    (hinfo : substreams.lookup id = some info) (hkey : delayKey info' = delayKey info)
    (hstate : ¬ poisoned info') :
    Booked delayKey poisoned (substreams.insert id info') delay current :=
  h.store hinfo hkey hstate fun j => Map.lookup_insert_eq substreams id j info'

/-- A timer runs out, and its substream is dropped or stored without one. -/
theorem expire (h : Booked delayKey poisoned substreams delay current)
    (hkey : delay.live.lookup key = some id) {new : Option α}
    (hnew : ∀ info', new = some info' →
      delayKey info' = none ∧ ¬ poisoned info' ∧ ∃ info, substreams.lookup id = some info)
    (hlookup : ∀ j, substreams'.lookup j = if j = id then new else substreams.lookup j) :
    Booked delayKey poisoned substreams' ⟨delay.live.erase key⟩ current := by
  refine ⟨h.owns.release hkey (fun j => ?_) fun l => Map.lookup_erase_eq _ _ _,
    fun j i hj => ?_, fun j i hj => ?_⟩
  · rw [hlookup]
    split
    · cases hnone : new with
      | none => rfl
      | some info' => exact (hnew info' hnone).1
    · rfl
  · rw [hlookup] at hj
    split at hj
    · exact (hnew i hj).2.1
    · exact h.unpoisoned j i hj
  · rw [hlookup] at hj
    split at hj
    · next hsame =>
      obtain ⟨-, -, info, hinfo⟩ := hnew i hj
      exact hsame ▸ h.fresh id info hinfo
    · exact h.fresh j i hj

theorem release (h : Booked delayKey poisoned substreams delay current)
    (hkey : delay.live.lookup key = some id)
    (hlookup : ∀ j, substreams'.lookup j = if j = id then none else substreams.lookup j) :
    Booked delayKey poisoned substreams' ⟨delay.live.erase key⟩ current :=
  h.expire hkey (fun _ hnone => by cases hnone) hlookup

/-- A substream is dropped together with its timer. -/
theorem drop (h : Booked delayKey poisoned substreams delay current)
    (hinfo : substreams.lookup id = some info)
    (hremove : (delayKey info).elim (some delay) delay.remove = some delay')
    (hlookup : ∀ j, substreams'.lookup j = if j = id then none else substreams.lookup j) :
    Booked delayKey poisoned substreams' delay' current := by
  cases hkey : delayKey info with
  | some key =>
    have hown := h.owner hinfo hkey
    rw [hkey, Option.elim_some, DelayQueue.remove_of_lookup hown] at hremove
    obtain rfl := Option.some.inj hremove
    exact h.release hown hlookup
  | none =>
    rw [hkey] at hremove
    obtain rfl := Option.some.inj hremove
    refine ⟨h.owns.congr (fun j => ?_) fun _ => rfl, fun j i hj => ?_, fun j i hj => ?_⟩
    · rw [hlookup]
      split
      · next hsame =>
        rw [hsame, hinfo]
        exact hkey.symm
      · rfl
    · rw [hlookup] at hj
      split at hj
      · cases hj
      · exact h.unpoisoned j i hj
    · rw [hlookup] at hj
      split at hj
      · cases hj
      · exact h.fresh j i hj

theorem next (h : Booked delayKey poisoned substreams delay current) :
    Booked delayKey poisoned substreams delay (current + 1) :=
  ⟨h.owns, h.unpoisoned, fun id info hinfo => (h.fresh id info hinfo).trans (Nat.lt_succ_self _)⟩

/-- A substream is registered under the next id, with a timer of its own. -/
theorem register (h : Booked delayKey poisoned substreams delay current) (preferred : ℕ)
    (hkey : delayKey info = some (delay.freeKey preferred)) (hstate : ¬ poisoned info) :
    Booked delayKey poisoned (substreams.insert current info) (delay.insert preferred current).2
      (current + 1) := by
  refine ⟨?_, fun j i hj => ?_, fun j i hj => ?_⟩
  · have hnew : substreams.lookup current = none :=
      Option.eq_none_iff_forall_ne_some.2 fun info hinfo =>
        Nat.lt_irrefl current (h.fresh current info hinfo)
    refine h.owns.grant (delay.lookup_freeKey preferred) (congrArg (·.bind delayKey) hnew)
      (fun j => ?_) fun l => Map.lookup_insert_eq _ _ _ _
    rw [Map.lookup_insert_eq]
    split
    · exact hkey
    · rfl
  · rw [Map.lookup_insert_eq] at hj
    split at hj
    · exact Option.some.inj hj ▸ hstate
    · exact h.unpoisoned j i hj
  · rw [Map.lookup_insert_eq] at hj
    split at hj
    · next hsame => exact hsame ▸ Nat.lt_succ_self current
    · exact (h.fresh j i hj).trans (Nat.lt_succ_self _)

end Booked

/-! ## The inbound side -/

namespace InboundInfo

variable {S : EthSpec} {info : InboundInfo S} {delay : DelayQueue SubstreamId} {id : SubstreamId}

/-- The timer of the substream, if it has one, is live and its own. -/
def OwnsTimer (info : InboundInfo S) (delay : DelayQueue SubstreamId) (id : SubstreamId) : Prop :=
  ∀ key, info.delayKey = some key → delay.live.lookup key = some id

/-- What the loop on a substream does to its timer and its state. -/
structure Driven (info : InboundInfo S) (delay : DelayQueue SubstreamId) (d : InboundDrive S) :
    Prop where
  delayKey : d.info.delayKey = info.delayKey
  kept : d.remove = false → d.delay = delay ∧ d.info.state ≠ .poisoned
  removed : d.remove = true → info.removeDelay delay = some d.delay

theorem OwnsTimer.resetDelay (h : info.OwnsTimer delay id) :
    info.resetDelay delay = some delay := by
  unfold InboundInfo.resetDelay
  cases hkey : info.delayKey with
  | none => rfl
  | some key => exact DelayQueue.reset_of_lookup (h key hkey)

theorem OwnsTimer.removeDelay (h : info.OwnsTimer delay id) :
    ∃ delay', info.removeDelay delay = some delay' := by
  unfold InboundInfo.removeDelay
  cases hkey : info.delayKey with
  | none => exact ⟨delay, rfl⟩
  | some key => exact ⟨_, DelayQueue.remove_of_lookup (h key hkey)⟩

theorem OwnsTimer.finish (h : info.OwnsTimer delay id) (errors : List RPCError)
    (pendingItems : List (RPCCodedResponse S)) :
    ∃ d, info.finish delay errors pendingItems = some d ∧ Driven info delay d := by
  obtain ⟨delay', hremove⟩ := h.removeDelay
  refine ⟨_, congrArg _ hremove, rfl, fun hkept => ?_, fun _ => hremove⟩
  cases hkept

theorem driven_leave {state : InboundState S} (hstate : state ≠ .poisoned)
    (pendingItems : List (RPCCodedResponse S)) :
    Driven info delay (info.leave delay state pendingItems) := by
  refine ⟨rfl, fun _ => ⟨rfl, hstate⟩, fun hremoved => ?_⟩
  cases hremoved

theorem OwnsTimer.driveBusy (h : info.OwnsTimer delay id) (deactivated : Bool)
    (fut : SendFuture S) (io : List SinkPoll) (pendingItems : List (RPCCodedResponse S)) :
    ∃ d, info.driveBusy deactivated delay fut io pendingItems = some d ∧ Driven info delay d := by
  fun_induction InboundInfo.driveBusy deactivated info delay fut io pendingItems with
  | case1 info delay fut io fut' pendingItems hpoll =>
    exact ⟨_, rfl, driven_leave (by simp) _⟩
  | case2 info delay fut io substream hpoll =>
    rw [h.resetDelay]
    exact ⟨_, rfl, rfl, fun _ => ⟨rfl, by simp [leave]⟩, fun hremoved => by cases hremoved⟩
  | case3 info delay fut io substream message pendingItems hpoll info' ih =>
    have hown : info'.OwnsTimer delay id := h
    rw [hown.resetDelay, Option.bind_some]
    split
    · exact ⟨_, rfl, rfl, fun _ => ⟨rfl, by simp [leave]⟩, fun hremoved => by cases hremoved⟩
    · obtain ⟨d, hd, hdriven⟩ := ih delay h
      exact ⟨d, hd, hdriven.delayKey, hdriven.kept, hdriven.removed⟩
  | case4 info delay fut io substream pendingItems hpoll => exact h.finish [] pendingItems
  | case5 info delay fut io error pendingItems hpoll => exact h.finish [error] pendingItems

/-- The loop on a substream with a timer of its own does not panic. -/
theorem OwnsTimer.drive (h : info.OwnsTimer delay id) (hstate : info.state ≠ .poisoned)
    (deactivated : Bool) (io : List SinkPoll) :
    ∃ d, info.drive deactivated delay io = some d ∧ Driven info delay d := by
  unfold InboundInfo.drive
  split
  · split
    · split
      · exact h.driveBusy deactivated _ io _
      · exact ⟨_, rfl, driven_leave (by simp) _⟩
    · split
      · exact ⟨_, rfl, driven_leave (by simp) _⟩
      · exact h.finish _ _
  · exact h.driveBusy deactivated _ io _
  · next hpoisoned => exact absurd hpoisoned hstate

/-- What the loop on the inbound substreams makes of the place of one of them. -/
inductive Settles (deactivated : Bool) (io : List SinkPoll) :
    Option (InboundInfo S) → Option (InboundInfo S) → Prop
  | absent : Settles deactivated io none none
  | driven {info : InboundInfo S} {delay : DelayQueue SubstreamId} {d : InboundDrive S}
      (hd : info.drive deactivated delay io = some d) :
      Settles deactivated io (some info) (if d.remove then none else some d.info)

end InboundInfo

namespace RPCHandler

variable {Id : Type} {S : EthSpec} {h h' : RPCHandler Id S}

/-- The books on the substreams of both sides. -/
structure Sane (h : RPCHandler Id S) : Prop where
  inbound : Booked InboundInfo.delayKey (·.state = .poisoned) h.inboundSubstreams
    h.inboundSubstreamsDelay h.currentInboundSubstreamId
  outbound : Booked (fun info => some info.delayKey) (·.state = .poisoned) h.outboundSubstreams
    h.outboundSubstreamsDelay h.currentOutboundSubstreamId

theorem sane_new : (new : RPCHandler Id S).Sane := ⟨.empty, .empty⟩

/-- The books are in order, and `current` is the id of the next outbound substream. -/
structure SaneAt (current : SubstreamId) (h : RPCHandler Id S) : Prop where
  sane : h.Sane
  current : h.currentOutboundSubstreamId = current

variable {current : SubstreamId}

/-! ## The phases of a poll -/

theorem SaneAt.expireInbound (hs : h.SaneAt current) {expiry : Expiry} {phase : Phase Id S}
    (hexpiry : h.InboundExpiry expiry phase) :
    phase.Meets (SaneAt current) (fun r => r.2.SaneAt current) False := by
  obtain ⟨⟨hinbound, houtbound⟩, hcurrent⟩ := hs
  cases hexpiry with
  | failed => exact ⟨⟨hinbound, houtbound⟩, hcurrent⟩
  | dead key hkey => exact ⟨⟨hinbound, houtbound⟩, hcurrent⟩
  | stray key hkey hinfo =>
    obtain ⟨info, hheld, -⟩ := hinbound.holder hkey
    rw [hinfo] at hheld
    cases hheld
  | @timeout key id info hkey hinfo =>
    refine ⟨⟨hinbound.expire hkey (fun info' hnew => ?_)
      fun j => Map.lookup_insert_eq _ _ _ _, houtbound⟩, hcurrent⟩
    obtain rfl := Option.some.inj hnew
    exact ⟨rfl, hinbound.unpoisoned id info hinfo, info, hinfo⟩

theorem SaneAt.expireOutbound (hs : h.SaneAt current) (expiry : Expiry) :
    (h.expireOutbound expiry).Meets (SaneAt current) (fun r => r.2.SaneAt current) False := by
  cases expiry with
  | failed => exact hs
  | expired key =>
    unfold RPCHandler.expireOutbound
    dsimp only
    split
    · exact hs
    · next id delay hexpire =>
      obtain ⟨hkey, rfl⟩ := DelayQueue.expire_eq_some hexpire
      split
      · next hinfo =>
        obtain ⟨info, hheld, -⟩ := hs.sane.outbound.holder hkey
        rw [hinfo] at hheld
        cases hheld
      · exact ⟨⟨hs.sane.inbound, hs.sane.outbound.release hkey fun j => Map.lookup_erase_eq _ _ _⟩,
          hs.current⟩

theorem Inward.isDeactivated (hstep : h.Inward h') : h'.isDeactivated = h.isDeactivated := by
  obtain ⟨_, _, _, _⟩ := hstep
  rfl

theorem Inward.outbound (hstep : h.Inward h') :
    h'.outboundSubstreams = h.outboundSubstreams ∧
      h'.outboundSubstreamsDelay = h.outboundSubstreamsDelay ∧
      h'.currentOutboundSubstreamId = h.currentOutboundSubstreamId := by
  obtain ⟨_, _, _, _⟩ := hstep
  exact ⟨rfl, rfl, rfl⟩

/-- What the loop on the inbound substreams keeps, `rest` being those it has still to drive. -/
structure Turning (io : SubstreamId → List SinkPoll) (h : RPCHandler Id S)
    (rest : List SubstreamId) (acc : RPCHandler Id S × List SubstreamId) : Prop where
  booked : Booked InboundInfo.delayKey (·.state = .poisoned)
    (acc.2.foldl (fun m id => m.erase id) acc.1.inboundSubstreams)
    acc.1.inboundSubstreamsDelay acc.1.currentInboundSubstreamId
  inward : h.Inward acc.1
  nodup : rest.Nodup
  known : ∀ id ∈ rest, id ∈ h.inboundSubstreams
  ahead : ∀ id ∈ rest, id ∉ acc.2 ∧
    acc.1.inboundSubstreams.lookup id = h.inboundSubstreams.lookup id
  past : ∀ id, id ∉ rest → InboundInfo.Settles h.isDeactivated (io id)
    (h.inboundSubstreams.lookup id)
    ((acc.2.foldl (fun m id => m.erase id) acc.1.inboundSubstreams).lookup id)

variable {io : SubstreamId → List SinkPoll} {id : SubstreamId} {rest : List SubstreamId}
  {acc : RPCHandler Id S × List SubstreamId}

/-- The substream whose turn it is has an entry, which is not poisoned, and a timer of its own,
if it has one. -/
def InboundRound (r : SubstreamId × RPCHandler Id S × List SubstreamId) : Prop :=
  ∃ info, r.2.1.inboundSubstreams.lookup r.1 = some info ∧ info.state ≠ .poisoned ∧
    info.OwnsTimer r.2.1.inboundSubstreamsDelay r.1

theorem Turning.lookup_left (ht : Turning io h rest acc) (hid : id ∈ rest) :
    (acc.2.foldl (fun m id => m.erase id) acc.1.inboundSubstreams).lookup id =
      acc.1.inboundSubstreams.lookup id := by
  rw [Map.lookup_foldl_erase, if_neg (ht.ahead id hid).1]

theorem Turning.round (ht : Turning io h (id :: rest) acc) : InboundRound (id, acc) := by
  have hmem : id ∈ id :: rest := List.mem_cons_self
  obtain ⟨info, hinfo⟩ := Option.isSome_iff_exists.1 (AList.lookup_isSome.2 (ht.known id hmem))
  rw [← (ht.ahead id hmem).2] at hinfo
  have hleft : (acc.2.foldl (fun m id => m.erase id) acc.1.inboundSubstreams).lookup id =
      some info := (ht.lookup_left hmem).trans hinfo
  exact ⟨info, hinfo, ht.booked.unpoisoned id info hleft,
    fun key hkey => ht.booked.owner hleft hkey⟩

theorem Turning.turn (ht : Turning io h (id :: rest) acc) :
    (driveInbound io id acc).Meets (Turning io h rest) (fun _ => False) False := by
  have hmem : id ∈ id :: rest := List.mem_cons_self
  obtain ⟨info, hinfo, hstate, hown⟩ := ht.round
  have hleft : (acc.2.foldl (fun m id => m.erase id) acc.1.inboundSubstreams).lookup id =
      some info := (ht.lookup_left hmem).trans hinfo
  obtain ⟨hnew, hnodup⟩ := List.nodup_cons.1 ht.nodup
  have hdeactivated := ht.inward.isDeactivated
  obtain ⟨d, hd, hdriven⟩ := hown.drive hstate acc.1.isDeactivated (io id)
  have hinward := driveInbound_inward io id acc
  have hpast : InboundInfo.Settles h.isDeactivated (io id) (h.inboundSubstreams.lookup id)
      (if d.remove then none else some d.info) := by
    rw [← (ht.ahead id hmem).2, hinfo, ← hdeactivated]
    exact .driven hd
  unfold driveInbound at hinward ⊢
  dsimp only at hinfo
  rw [hinfo] at hinward ⊢
  dsimp only at hinward ⊢
  rw [hd] at hinward ⊢
  -- the books without the substreams that are to be removed
  have hlookup : ∀ j, ((if d.remove then acc.2 ++ [id] else acc.2).foldl
      (fun m id => m.erase id) (acc.1.inboundSubstreams.insert id d.info)).lookup j =
        if j = id then (if d.remove then none else some d.info)
        else (acc.2.foldl (fun m id => m.erase id) acc.1.inboundSubstreams).lookup j :=
    Map.lookup_foldl_erase_insert _ (ht.ahead id hmem).1 d.info d.remove
  refine ⟨?_, ht.inward.trans hinward, hnodup,
    fun j hj => ht.known j (List.mem_cons_of_mem id hj), fun j hj => ?_, fun j hj => ?_⟩
  · cases hremove : d.remove with
    | false =>
      rw [hremove] at hlookup
      obtain ⟨hdelay, hunpoisoned⟩ := hdriven.kept hremove
      dsimp only
      rw [hdelay]
      exact ht.booked.store hleft hdriven.delayKey hunpoisoned hlookup
    | true =>
      rw [hremove] at hlookup
      exact ht.booked.drop hleft (hdriven.removed hremove) hlookup
  · have hne : j ≠ id := fun hsame => hnew (hsame ▸ hj)
    obtain ⟨hkept, hsame⟩ := ht.ahead j (List.mem_cons_of_mem id hj)
    refine ⟨?_, ?_⟩
    · dsimp only
      split
      · simp [hkept, hne]
      · exact hkept
    · dsimp only
      rw [Map.lookup_insert_eq, if_neg hne, hsame]
  · dsimp only
    rw [hlookup]
    split
    · next hsame => rwa [hsame]
    · next hne => exact ht.past j (by simp [hne, hj])

theorem Sane.turning (hs : h.Sane) (io : PollIo S) :
    Turning io.inbound h (io.inboundOrder.run h.inboundSubstreams.keys) (h, []) where
  booked := hs.inbound
  inward := .refl h
  nodup := (io.inboundOrder.perm _).nodup_iff.2 h.inboundSubstreams.keys_nodup
  known _ hid := AList.mem_keys.2 (io.inboundOrder.mem_run.1 hid)
  ahead _ _ := ⟨List.not_mem_nil, rfl⟩
  past id hid := by
    rw [io.inboundOrder.mem_run, ← AList.mem_keys, ← AList.lookup_eq_none] at hid
    have hsame : ([].foldl (fun m id => m.erase id) h.inboundSubstreams : Map _ _).lookup id =
        none := hid
    rw [hid, hsame]
    exact .absent

/-- What the loop on the inbound substreams does. -/
structure DrivesInbounds (io : SubstreamId → List SinkPoll) (h h' : RPCHandler Id S) : Prop where
  inward : h.Inward h'
  settles : ∀ id, InboundInfo.Settles h.isDeactivated (io id) (h.inboundSubstreams.lookup id)
    (h'.inboundSubstreams.lookup id)

theorem SaneAt.driveInbounds (hs : h.SaneAt current) (io : PollIo S) :
    (h.driveInbounds io).Meets (fun h' => h'.SaneAt current ∧ DrivesInbounds io.inbound h h')
      (fun _ => False) False := by
  have hloop : (Flow.each (driveInbound io.inbound)
      (io.inboundOrder.run h.inboundSubstreams.keys) (h, [])).Meets
        (Turning io.inbound h []) (fun _ => False) False :=
    Flow.Meets.each (fun _ _ _ ht => ht.turn) (hs.sane.turning io)
  refine hloop.andThen fun acc ht => ?_
  obtain ⟨houtbound, hdelay, hcurrent⟩ := ht.inward.outbound
  refine ⟨⟨⟨ht.booked, ?_⟩, hcurrent.trans hs.current⟩, ht.inward.trans (.quiet _ _),
    fun id => ht.past id List.not_mem_nil⟩
  show Booked _ _ acc.1.outboundSubstreams acc.1.outboundSubstreamsDelay
    acc.1.currentOutboundSubstreamId
  rw [houtbound, hdelay, hcurrent]
  exact hs.sane.outbound

/-! ### The outbound substreams -/

/-- The substream whose turn it is has an entry, which is not poisoned, and a timer of its own. -/
def OutboundRound (r : SubstreamId × RPCHandler Id S) : Prop :=
  ∃ info, r.2.outboundSubstreams.lookup r.1 = some info ∧ info.state ≠ .poisoned ∧
    r.2.outboundSubstreamsDelay.live.lookup info.delayKey = some r.1

/-- What the loop on the outbound substreams keeps. -/
structure OutboundTurning (current : SubstreamId) (rest : List SubstreamId)
    (h : RPCHandler Id S) : Prop where
  saneAt : h.SaneAt current
  nodup : rest.Nodup
  known : ∀ id ∈ rest, id ∈ h.outboundSubstreams

variable {info : OutboundInfo Id} {errorText : ErrorType → String}

theorem OutboundTurning.round (ht : OutboundTurning current (id :: rest) h) :
    OutboundRound (id, h) := by
  obtain ⟨info, hinfo⟩ :=
    Option.isSome_iff_exists.1 (AList.lookup_isSome.2 (ht.known id List.mem_cons_self))
  exact ⟨info, hinfo, ht.saneAt.sane.outbound.unpoisoned id info hinfo,
    ht.saneAt.sane.outbound.owner hinfo rfl⟩

theorem afterResponse_delayKey (info : OutboundInfo Id) (request : OutboundRequest)
    (response : RPCCodedResponse S) :
    (info.afterResponse request response).delayKey = info.delayKey := by
  unfold OutboundInfo.afterResponse
  split
  · dsimp only
    split <;> rfl
  · rfl

theorem afterResponse_unpoisoned (info : OutboundInfo Id) (request : OutboundRequest)
    (response : RPCCodedResponse S) :
    (info.afterResponse request response).state ≠ .poisoned := by
  unfold OutboundInfo.afterResponse
  split
  · dsimp only
    split <;> simp
  · simp

theorem OutboundTurning.turn (ht : OutboundTurning current (id :: rest) h)
    (io : SubstreamId → OutboundPoll S) :
    (h.driveOutbound errorText io id).Meets (OutboundTurning current rest)
      (fun r => r.2.SaneAt current) False := by
  obtain ⟨hsane, hcurrent⟩ := ht.saneAt
  obtain ⟨info, hinfo, hstate, hown⟩ := ht.round
  dsimp only at hinfo hown
  obtain ⟨hnew, hnodup⟩ := List.nodup_cons.1 ht.nodup
  have hknown : ∀ {h' : RPCHandler Id S}, (∀ j, j ≠ id →
      h'.outboundSubstreams.lookup j = h.outboundSubstreams.lookup j) →
        ∀ j ∈ rest, j ∈ h'.outboundSubstreams := by
    intro h' hlookup j hj
    rw [← AList.lookup_isSome, hlookup j fun hsame => hnew (hsame ▸ hj), AList.lookup_isSome]
    exact ht.known j (List.mem_cons_of_mem id hj)
  have hdropped : (h.without id info.delayKey).Sane :=
    ⟨hsane.inbound, hsane.outbound.release hown fun j => Map.lookup_erase_eq _ _ _⟩
  have hdrive : OutboundDrive errorText (io id) h id info (h.driveOutbound errorText io id) :=
    driveOutbound_drive hinfo
  generalize h.driveOutbound errorText io id = phase at hdrive
  cases hdrive with
  | wait =>
    exact ⟨ht.saneAt, hnodup, fun j hj => ht.known j (List.mem_cons_of_mem id hj)⟩
  | disconnect hpending hdeactivated =>
    refine ⟨⟨⟨hsane.inbound, ?_⟩, hcurrent⟩, hnodup, hknown fun j hj => ?_⟩
    · exact hsane.outbound.insert hinfo rfl (by simp)
    · exact (Map.lookup_insert_eq _ _ _ _).trans (if_neg hj)
  | @respond request hpending response hresponse =>
    refine ⟨⟨hsane.inbound, hsane.outbound.insert hinfo ?_
      (afterResponse_unpoisoned info request response)⟩, hcurrent⟩
    exact congrArg some (afterResponse_delayKey info request response)
  | fail | streamEnd | terminate => exact ⟨hdropped, hcurrent⟩
  | close hclosing =>
    refine ⟨⟨hdropped, hcurrent⟩, hnodup, hknown fun j hj => ?_⟩
    exact (Map.lookup_erase_eq _ _ _).trans (if_neg hj)
  | panic hbad =>
    rcases hbad with hpoisoned | hdead
    · exact hstate hpoisoned
    · rw [hown] at hdead
      cases hdead

theorem SaneAt.outboundTurning (hs : h.SaneAt current) (io : PollIo S) :
    OutboundTurning current (io.outboundOrder.run h.outboundSubstreams.keys) h where
  saneAt := hs
  nodup := (io.outboundOrder.perm _).nodup_iff.2 h.outboundSubstreams.keys_nodup
  known _ hid := AList.mem_keys.2 (io.outboundOrder.mem_run.1 hid)

/-! ### The whole poll -/

/-- What a poll does before it follows the timers. -/
def beforeTimers (io : PollIo S) (h : RPCHandler Id S) : Phase Id S :=
  h.report.andThen (·.pollShutdown io.shutdownTimer)

/-- The phases before the substreams are driven. -/
def beforeDrive (io : PollIo S) (h : RPCHandler Id S) : Phase Id S :=
  (h.beforeTimers io).andThen fun h =>
  (Flow.each expireInbound io.inboundTimers h).andThen fun h =>
  Flow.each expireOutbound io.outboundTimers h

theorem settle_eq (errorText : ErrorType → String) (io : PollIo S) (h : RPCHandler Id S) :
    h.settle errorText io = ((h.beforeDrive io).andThen (·.driveInbounds io)).andThen
      (·.driveOutbounds errorText io) := by
  unfold settle beforeDrive beforeTimers
  simp only [Flow.andThen_assoc]

/-- The phase keeps the books in order and does not panic. -/
def KeepsSane (current : SubstreamId) (phase : Phase Id S) : Prop :=
  phase.Meets (SaneAt current) (fun r => r.2.SaneAt current) False

theorem SaneAt.report (hs : h.SaneAt current) : KeepsSane current h.report := by
  refine h.report_cases.mono (fun h' hnext => ?_) (fun r hr => ?_) fun hn => hn
  · rw [hnext.1]
    exact hs
  · obtain ⟨event, rest, -, rfl⟩ := hr
    exact ⟨⟨hs.sane.inbound, hs.sane.outbound⟩, hs.current⟩

theorem SaneAt.pollShutdown (hs : h.SaneAt current) (timer : Bool) :
    KeepsSane current (h.pollShutdown timer) := by
  refine (pollShutdown_cases timer h).mono (fun h' hnext => ?_) (fun r hr => ?_) fun hn => hn
  · rw [hnext.1]
    exact hs
  · obtain ⟨-, rfl⟩ := hr
    exact ⟨⟨hs.sane.inbound, hs.sane.outbound⟩, hs.current⟩

theorem SaneAt.beforeTimers (hs : h.SaneAt current) (io : PollIo S) :
    KeepsSane current (h.beforeTimers io) :=
  hs.report.andThen fun _ hs₁ => hs₁.pollShutdown io.shutdownTimer

theorem SaneAt.expireInbounds (hs : h.SaneAt current) (timers : List Expiry) :
    KeepsSane current (Flow.each RPCHandler.expireInbound timers h) :=
  Flow.Meets.each_of_step (fun expiry h hs => hs.expireInbound (expireInbound_expiry expiry h))
    timers hs

theorem SaneAt.expireOutbounds (hs : h.SaneAt current) (timers : List Expiry) :
    KeepsSane current (Flow.each RPCHandler.expireOutbound timers h) :=
  Flow.Meets.each_of_step (fun expiry _ hs => hs.expireOutbound expiry) timers hs

theorem SaneAt.beforeDrive (hs : h.SaneAt current) (io : PollIo S) :
    KeepsSane current (h.beforeDrive io) := by
  refine (hs.beforeTimers io).andThen fun h₁ hs₁ => ?_
  exact (hs₁.expireInbounds io.inboundTimers).andThen fun h₂ hs₂ =>
    hs₂.expireOutbounds io.outboundTimers

theorem SaneAt.driveOutbounds (hs : h.SaneAt current) (errorText : ErrorType → String)
    (io : PollIo S) : KeepsSane current (h.driveOutbounds errorText io) :=
  (Flow.Meets.each (fun _ _ _ ht => ht.turn io.outbound) (hs.outboundTurning io)).mono
    (fun _ ht => ht.saneAt) (fun _ hr => hr) fun hn => hn

theorem SaneAt.establish (hs : h.SaneAt current) : KeepsSane current h.establish := by
  refine h.establish_cases.mono (fun h' hnext => ?_) (fun r hr => ?_) fun hn => hn
  · rw [hnext.1]
    exact hs
  · obtain ⟨info, rest, -, -, rfl⟩ := hr
    exact ⟨⟨hs.sane.inbound, hs.sane.outbound⟩, hs.current⟩

theorem SaneAt.completeShutdown (hs : h.SaneAt current) :
    KeepsSane current h.completeShutdown := by
  refine h.completeShutdown_cases.mono (fun h' hnext => ?_) (fun r hr => ?_) fun hn => hn
  · rw [hnext.1]
    exact hs
  · rw [hr]
    exact hs

theorem SaneAt.poll (hs : h.SaneAt current) (errorText : ErrorType → String) (io : PollIo S) :
    KeepsSane current (h.poll errorText io) := by
  unfold RPCHandler.poll
  rw [settle_eq]
  have hinbounds : KeepsSane current ((h.beforeDrive io).andThen (·.driveInbounds io)) :=
    (hs.beforeDrive io).andThen fun h₁ hs₁ => (hs₁.driveInbounds io).mono
      (fun _ hnext => hnext.1) (fun _ hr => hr.elim) fun hn => hn
  refine (hinbounds.andThen fun h₁ hs₁ => hs₁.driveOutbounds errorText io).andThen
    fun h₂ hs₂ => ?_
  exact hs₂.establish.andThen fun h₃ hs₃ => hs₃.completeShutdown

theorem SaneAt.shutdown (hs : h.SaneAt current) (goodbye : Option (Id × GoodbyeReason)) :
    (h.shutdown goodbye).SaneAt current := by
  unfold RPCHandler.shutdown
  split
  · exact ⟨⟨hs.sane.inbound, hs.sane.outbound⟩, hs.current⟩
  · exact hs

theorem SaneAt.sendRequest (hs : h.SaneAt current) (id : Id) (req : OutboundRequest) :
    (h.sendRequest id req).SaneAt current := by
  unfold RPCHandler.sendRequest
  split <;> exact ⟨⟨hs.sane.inbound, hs.sane.outbound⟩, hs.current⟩

theorem SaneAt.sendResponse (hs : h.SaneAt current) (errorText : ErrorType → String)
    (inboundId : SubstreamId) (response : RPCCodedResponse S) :
    (h.sendResponse errorText inboundId response).SaneAt current := by
  unfold RPCHandler.sendResponse
  split
  · exact hs
  · next info hinfo =>
    have hqueue : Booked InboundInfo.delayKey (·.state = .poisoned)
        (h.inboundSubstreams.insert inboundId
          { info with pendingItems := info.pendingItems ++ [response] })
        h.inboundSubstreamsDelay h.currentInboundSubstreamId :=
      hs.sane.inbound.insert hinfo rfl
        (hs.sane.inbound.unpoisoned inboundId info hinfo)
    dsimp only
    cases response with
    | error code reason =>
      dsimp only
      split
      · exact ⟨⟨hs.sane.inbound, hs.sane.outbound⟩, hs.current⟩
      · exact ⟨⟨hqueue, hs.sane.outbound⟩, hs.current⟩
    | success | streamTermination =>
      dsimp only
      split
      · exact hs
      · exact ⟨⟨hqueue, hs.sane.outbound⟩, hs.current⟩

theorem SaneAt.injectEvent (hs : h.SaneAt current) (errorText : ErrorType → String)
    (event : RPCSend Id S) : (h.injectEvent errorText event).SaneAt current := by
  cases event with
  | request id req => exact hs.sendRequest id req
  | response inboundId response => exact hs.sendResponse errorText inboundId response
  | shutdown id reason => exact hs.shutdown _

theorem SaneAt.receiveRequest (hs : h.SaneAt current) (req : InboundRequest) :
    (h.receiveRequest req).SaneAt current :=
  ⟨⟨hs.sane.inbound.next, hs.sane.outbound⟩, hs.current⟩

/-- The request whose substream has been stored is received. -/
theorem SaneAt.storeInbound (hs : h.SaneAt current) {req : InboundRequest}
    {substream : InboundSubstream S} {preferred : ℕ}
    (hstore : h.storeInbound req substream preferred = some h') (req' : InboundRequest) :
    (h'.receiveRequest req').SaneAt current := by
  unfold RPCHandler.storeInbound at hstore
  split at hstore
  · split at hstore
    · obtain rfl := Option.some.inj hstore
      exact ⟨⟨hs.sane.inbound.register preferred rfl (by simp), hs.sane.outbound⟩, hs.current⟩
    · cases hstore
  · obtain rfl := Option.some.inj hstore
    exact hs.receiveRequest req'

theorem SaneAt.receive_shutdown {req : InboundRequest}
    (hs : (h.receiveRequest req).SaneAt current) :
    ((h.shutdown none).receiveRequest req).SaneAt current := by
  unfold RPCHandler.shutdown
  split
  · exact ⟨⟨hs.sane.inbound, hs.sane.outbound⟩, hs.current⟩
  · exact hs

theorem SaneAt.injectFullyNegotiatedInbound (hs : h.SaneAt current) (req : InboundRequest)
    (substream : InboundSubstream S) (preferred : ℕ) :
    (h.injectFullyNegotiatedInbound req substream preferred).SaneAt current := by
  unfold RPCHandler.injectFullyNegotiatedInbound
  split
  · split
    · refine SaneAt.shutdown ?_ none
      exact ⟨⟨hs.sane.inbound, hs.sane.outbound⟩, hs.current⟩
    · next h' hstore =>
      split
      · exact (hs.storeInbound hstore _).receive_shutdown
      · exact hs.storeInbound hstore _
  · exact hs

/-- A substream that expects responses takes the next id. -/
theorem SaneAt.injectFullyNegotiatedOutbound (hs : h.SaneAt current)
    (info : Id × OutboundRequest) (preferred : ℕ) :
    (h.injectFullyNegotiatedOutbound info preferred).SaneAt
      (if 0 < info.2.expectedResponses then current + 1 else current) := by
  obtain ⟨⟨hinbound, houtbound⟩, rfl⟩ := hs
  unfold RPCHandler.injectFullyNegotiatedOutbound
  dsimp only
  split
  · split
    · exact ⟨⟨hinbound, houtbound.register preferred rfl (by simp)⟩, rfl⟩
    · exact ⟨⟨hinbound, houtbound.register preferred rfl (by simp)⟩, rfl⟩
  · split <;> exact ⟨⟨hinbound, houtbound⟩, rfl⟩

theorem SaneAt.injectDialUpgradeError (hs : h.SaneAt current) (info : Id × OutboundRequest)
    (error : ConnectionHandlerUpgrErr) : (h.injectDialUpgradeError info error).SaneAt current := by
  have hfail : (h.failDial info error).SaneAt current :=
    ⟨⟨hs.sane.inbound, hs.sane.outbound⟩, hs.current⟩
  unfold RPCHandler.injectDialUpgradeError
  split
  · dsimp only
    split
    · refine SaneAt.sendRequest ?_ info.1 info.2
      exact ⟨⟨hs.sane.inbound, hs.sane.outbound⟩, hs.current⟩
    · exact hfail
  · exact hfail

end RPCHandler

/-! ## The run -/

namespace Connection

open RPCHandler

variable {Id : Type} {S : EthSpec} [DecidableEq Id] {c : Connection Id S}

/-- The id under which a call stores an outbound substream. -/
def registered (c : Connection Id S) : Call Id S → List SubstreamId
  | .injectFullyNegotiatedOutbound info _ =>
    if c.panicked = false ∧ c.opening.contains info ∧ 0 < info.2.expectedResponses then
      [c.handler.currentOutboundSubstreamId]
    else []
  | _ => []

/-- What a run keeps: the books are in order, and nothing has panicked. -/
structure Safe (c : Connection Id S) : Prop where
  sane : c.handler.Sane
  live : c.panicked = false

omit [DecidableEq Id] in
theorem Safe.poll (hc : c.Safe) (errorText : ErrorType → String) (io : PollIo S) :
    (c.polled (c.handler.poll errorText io)).Safe ∧
      (c.polled (c.handler.poll errorText io)).handler.currentOutboundSubstreamId =
        c.handler.currentOutboundSubstreamId := by
  have hpoll := SaneAt.poll ⟨hc.sane, rfl⟩ errorText io
  generalize c.handler.poll errorText io = phase at hpoll
  cases phase with
  | next h => exact ⟨⟨hpoll.sane, hc.live⟩, hpoll.current⟩
  | panicked => exact hpoll.elim
  | returned r =>
    obtain ⟨event, h⟩ := r
    cases event <;> exact ⟨⟨SaneAt.sane hpoll, hc.live⟩, SaneAt.current hpoll⟩

/-- A call moves the counter past the id that it registers, and leaves it alone otherwise. -/
theorem Safe.step (hc : c.Safe) (errorText : ErrorType → String) (call : Call Id S) :
    (c.step errorText call).Safe ∧ (c.step errorText call).handler.currentOutboundSubstreamId =
      c.handler.currentOutboundSubstreamId + (c.registered call).length := by
  have hsane : c.handler.SaneAt c.handler.currentOutboundSubstreamId := ⟨hc.sane, rfl⟩
  rw [step_of_live hc.live]
  cases call with
  | injectEvent event =>
    have hnext := hsane.injectEvent errorText event
    exact ⟨⟨hnext.sane, hc.live⟩, hnext.current⟩
  | injectFullyNegotiatedInbound req substream preferred =>
    have hnext := hsane.injectFullyNegotiatedInbound req substream preferred
    exact ⟨⟨hnext.sane, hc.live⟩, hnext.current⟩
  | injectFullyNegotiatedOutbound info preferred =>
    have hnext := hsane.injectFullyNegotiatedOutbound info preferred
    dsimp only [handle, registered]
    by_cases hopen : info ∈ c.opening
    · rw [answer_of_mem hopen]
      refine ⟨⟨hnext.sane, hc.live⟩, hnext.current.trans ?_⟩
      by_cases hmore : 0 < info.2.expectedResponses
      · simp [hmore, hopen, hc.live]
      · simp [hmore]
    · rw [answer_of_not_mem hopen, if_neg fun hall => hopen (List.contains_iff_mem.1 hall.2.1)]
      exact ⟨hc, rfl⟩
  | injectDialUpgradeError info error =>
    have hnext := hsane.injectDialUpgradeError info error
    dsimp only [handle, registered]
    by_cases hopen : info ∈ c.opening
    · rw [answer_of_mem hopen]
      exact ⟨⟨hnext.sane, hc.live⟩, hnext.current⟩
    · rw [answer_of_not_mem hopen]
      exact ⟨hc, rfl⟩
  | poll io => exact hc.poll errorText io

omit [DecidableEq Id] in
theorem safe_new : (new : Connection Id S).Safe := ⟨sane_new, rfl⟩

end Connection

end Consentry.Rpc
