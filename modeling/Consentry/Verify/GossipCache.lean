import Consentry.Lib.Alternating
import Consentry.Network.GossipCache
import Consentry.Verify.HandlerTimers

/-!
# The gossip cache and its timers

The timers of the cache and the messages it stores keep books on each other (`InStep`), so the
cache is no more than a map from the messages that are stored to their deadlines (`deadlineOf`):
`insert_spec`, `retrieve_spec` and `pollNext_spec` say what each operation does to it.

**`cache_in_step`**: whatever is called and whenever, the books agree, nothing panics, and a
message that is stored leaves the cache once, when its topic is retrieved or its timer expires.
-/

namespace Consentry

open Lib
open Rpc (DelayQueue)

namespace Timed

variable {α : Type} {q : DelayQueue (Timed α)}

theorem reset_of_lookup {key : ℕ} {timed : Timed α} (h : q.live.lookup key = some timed)
    (deadline : Instant) :
    reset q key deadline = some ⟨q.live.insert key { timed with deadline := deadline }⟩ := by
  unfold reset
  rw [h]
  rfl

theorem expire_eq_some {key : ℕ} {now : Instant} {value : α} {q' : DelayQueue (Timed α)}
    (h : expire q key now = some (value, q')) :
    ∃ timed, q.live.lookup key = some timed ∧ timed.value = value ∧ timed.deadline ≤ now ∧
      q' = ⟨q.live.erase key⟩ := by
  unfold expire at h
  cases hkey : q.live.lookup key with
  | none =>
    rw [hkey] at h
    cases h
  | some timed =>
    rw [hkey] at h
    dsimp only at h
    split at h
    · next hdue =>
      obtain ⟨rfl, rfl⟩ := Prod.mk.inj (Option.some.inj h)
      exact ⟨timed, rfl, rfl, hdue, rfl⟩
    · cases h

/-- Keys that are live are removed. -/
theorem removeAll_of_live {keys : List ℕ} (hnodup : keys.Nodup)
    (hlive : ∀ key ∈ keys, ∃ timed, q.live.lookup key = some timed) :
    ∃ q', removeAll q keys = some q' ∧
      ∀ key, q'.live.lookup key = if key ∈ keys then none else q.live.lookup key := by
  induction keys generalizing q with
  | nil => exact ⟨q, rfl, fun _ => rfl⟩
  | cons key keys ih =>
    obtain ⟨hfresh, hrest⟩ := List.nodup_cons.1 hnodup
    obtain ⟨timed, hkey⟩ := hlive key List.mem_cons_self
    obtain ⟨q', hq', hlookup⟩ := ih (q := ⟨q.live.erase key⟩) hrest fun other hother => by
      obtain ⟨timed', hlookup⟩ := hlive other (List.mem_cons_of_mem key hother)
      refine ⟨timed', ?_⟩
      rw [Map.lookup_erase_eq, if_neg (ne_of_mem_of_not_mem hother hfresh)]
      exact hlookup
    refine ⟨q', ?_, fun other => ?_⟩
    · unfold removeAll
      rw [DelayQueue.remove_of_lookup hkey]
      exact hq'
    · rw [hlookup, Map.lookup_erase_eq]
      by_cases hmem : other ∈ keys
      · rw [if_pos hmem, if_pos (List.mem_cons_of_mem key hmem)]
      · rw [if_neg hmem]
        by_cases hsame : other = key
        · rw [if_pos hsame, if_pos (hsame ▸ List.mem_cons_self)]
        · rw [if_neg hsame, if_neg fun h => (List.mem_cons.1 h).elim hsame hmem]

end Timed

namespace GossipCache

/-! ## The books -/

/-- The key under which a message is stored. -/
def keyOf (c : GossipCache) (p : GossipTopic × MessageData) : Option ℕ :=
  (c.topicMsgs.lookup p.1).bind fun msgs => msgs.lookup p.2

/-- The message of a live key. -/
def valueOf (c : GossipCache) (key : ℕ) : Option (GossipTopic × MessageData) :=
  (c.expirations.live.lookup key).map (·.value)

/-- The keys under which messages are stored are the live ones, each with its message, and no
topic is kept without a message. -/
structure InStep (c : GossipCache) : Prop where
  owns : Owns c.keyOf c.valueOf
  nonempty : ∀ topic msgs, c.topicMsgs.lookup topic = some msgs → msgs.entries ≠ []

/-- The time from which a stored message can expire. -/
def deadlineOf (c : GossipCache) (p : GossipTopic × MessageData) : Option Instant :=
  (c.keyOf p).bind fun key => (c.expirations.live.lookup key).map (·.deadline)

def stores (c : GossipCache) (p : GossipTopic × MessageData) : Bool := (c.keyOf p).isSome

/-- The timeouts, which nothing changes. -/
def SameTimeouts (c c' : GossipCache) : Prop :=
  ∀ kind, c'.expireTimeout kind = c.expireTimeout kind

variable {c c' : GossipCache} {topic : GossipTopic} {data : MessageData}
  {p : GossipTopic × MessageData}

theorem InStep.timed (h : InStep c) {key : ℕ} (hkey : c.keyOf p = some key) :
    ∃ timed, c.expirations.live.lookup key = some timed ∧ timed.value = p :=
  Option.map_eq_some_iff.1 (h.owns.registered p key hkey)

/-- In step, what is stored is what has a deadline. -/
theorem InStep.stores_eq (h : InStep c) (p : GossipTopic × MessageData) :
    c.stores p = (c.deadlineOf p).isSome := by
  unfold stores deadlineOf
  cases hkey : c.keyOf p with
  | none => rfl
  | some key =>
    obtain ⟨timed, htimed, -⟩ := h.timed hkey
    rw [Option.bind_some, htimed]
    rfl

theorem keyOf_of_lookup {msgs : Map MessageData ℕ} (h : c.topicMsgs.lookup topic = some msgs)
    (data : MessageData) : c.keyOf (topic, data) = msgs.lookup data := by
  unfold keyOf
  rw [h]
  rfl

theorem keyOf_insert {msgs : Map MessageData ℕ}
    (h : c'.topicMsgs = c.topicMsgs.insert topic msgs) (p : GossipTopic × MessageData) :
    c'.keyOf p = if p.1 = topic then msgs.lookup p.2 else c.keyOf p := by
  unfold keyOf
  rw [h, Map.lookup_insert_eq]
  split <;> rfl

theorem ne_nil_of_lookup {msgs : Map MessageData ℕ} {key : ℕ}
    (h : msgs.lookup data = some key) : msgs.entries ≠ [] := by
  intro hnil
  have hmem := Map.mem_entries_iff.2 h
  rw [hnil] at hmem
  cases hmem

/-- Topics are stored with messages. -/
theorem nonempty_insert {msgs : Map MessageData ℕ} (hmsgs : msgs.entries ≠ [])
    (h : ∀ topic msgs, c.topicMsgs.lookup topic = some msgs → msgs.entries ≠ []) :
    ∀ topic' msgs', (c.topicMsgs.insert topic msgs).lookup topic' = some msgs' →
      msgs'.entries ≠ [] := by
  intro topic' msgs' hlookup
  rw [Map.lookup_insert_eq] at hlookup
  split at hlookup
  · exact Option.some.inj hlookup ▸ hmsgs
  · exact h topic' msgs' hlookup

/-- The deadline of a message by its key. -/
theorem deadlineOf_of_key {key : ℕ} {timed : Timed (GossipTopic × MessageData)}
    (hkey : c.keyOf p = some key) (htimed : c.expirations.live.lookup key = some timed) :
    c.deadlineOf p = some timed.deadline := by
  unfold deadlineOf
  rw [hkey, Option.bind_some, htimed]
  rfl

/-- The deadline of a message whose key keeps its timer. -/
theorem deadlineOf_congr (hkey : c'.keyOf p = c.keyOf p)
    (htimer : ∀ key, c.keyOf p = some key →
      c'.expirations.live.lookup key = c.expirations.live.lookup key) :
    c'.deadlineOf p = c.deadlineOf p := by
  unfold deadlineOf
  rw [hkey]
  cases hp : c.keyOf p with
  | none => rfl
  | some key => rw [Option.bind_some, Option.bind_some, htimer key hp]

/-- A message is stored under a key that no other has. -/
theorem deadlineOf_set {key : ℕ} {timed : Timed (GossipTopic × MessageData)}
    (hkeyOf : ∀ p', c'.keyOf p' = if p' = p then some key else c.keyOf p')
    (hlive : ∀ k, c'.expirations.live.lookup k =
      if k = key then some timed else c.expirations.live.lookup k)
    (hown : ∀ p', p' ≠ p → c.keyOf p' ≠ some key) (p' : GossipTopic × MessageData) :
    c'.deadlineOf p' = if p' = p then some timed.deadline else c.deadlineOf p' := by
  split
  · next hsame =>
    exact deadlineOf_of_key ((hkeyOf p').trans (if_pos hsame)) ((hlive key).trans (if_pos rfl))
  · next hother =>
    refine deadlineOf_congr ((hkeyOf p').trans (if_neg hother)) fun k hk => ?_
    refine (hlive k).trans (if_neg ?_)
    rintro rfl
    exact hown p' hother hk

/-- Messages leave, and the others keep their timers. -/
theorem deadlineOf_drop {leaves : GossipTopic × MessageData → Prop} [DecidablePred leaves]
    (hkeyOf : ∀ p, c'.keyOf p = if leaves p then none else c.keyOf p)
    (htimer : ∀ p key, ¬ leaves p → c.keyOf p = some key →
      c'.expirations.live.lookup key = c.expirations.live.lookup key)
    (p : GossipTopic × MessageData) :
    c'.deadlineOf p = if leaves p then none else c.deadlineOf p := by
  split
  · next hleaves =>
    unfold deadlineOf
    rw [hkeyOf, if_pos hleaves]
    rfl
  · next hstays => exact deadlineOf_congr ((hkeyOf p).trans (if_neg hstays)) (htimer p · hstays)

/-- Different messages have different keys. -/
theorem InStep.key_inj (h : InStep c) {p' : GossipTopic × MessageData} {key : ℕ}
    (hp : c.keyOf p = some key) (hp' : c.keyOf p' = some key) : p = p' := by
  have hvalue := h.owns.registered p key hp
  rw [h.owns.registered p' key hp'] at hvalue
  exact (Option.some.inj hvalue).symm

/-! ## The operations -/

/-- The timer of a message that is stored already is reset. -/
theorem InStep.reset (h : InStep c) {msgs : Map MessageData ℕ}
    (hmsgs : ∀ data, c.keyOf (topic, data) = msgs.lookup data) {key : ℕ}
    (hdata : msgs.lookup data = some key) {timed : Timed (GossipTopic × MessageData)}
    (htimed : c.expirations.live.lookup key = some timed) (deadline : Instant)
    (hc' : c' = { c with
      expirations := ⟨c.expirations.live.insert key { timed with deadline := deadline }⟩
      topicMsgs := c.topicMsgs.insert topic msgs }) :
    InStep c' ∧ ∀ p, c'.deadlineOf p =
      if p = (topic, data) then some deadline else c.deadlineOf p := by
  have hlive : ∀ k, c'.expirations.live.lookup k =
      if k = key then some { timed with deadline := deadline }
      else c.expirations.live.lookup k := by
    intro k
    rw [hc']
    exact Map.lookup_insert_eq _ _ _ _
  have hkeyOf : ∀ p, c'.keyOf p = c.keyOf p := by
    intro p
    rw [keyOf_insert (congrArg topicMsgs hc')]
    split
    · next hsame => rw [← hmsgs, ← hsame]
    · rfl
  have hkey : c.keyOf (topic, data) = some key := (hmsgs data).trans hdata
  refine ⟨⟨h.owns.congr hkeyOf fun k => ?_, ?_⟩, deadlineOf_set (fun p => ?_) hlive ?_⟩
  · unfold valueOf
    rw [hlive]
    split
    · next hsame =>
      rw [hsame, htimed]
      rfl
    · rfl
  · rw [hc']
    exact nonempty_insert (ne_nil_of_lookup hdata) h.nonempty
  · rw [hkeyOf]
    split
    · next hsame => rw [hsame, hkey]
    · rfl
  · exact fun p' hother hk => hother (h.key_inj hk hkey)

/-- A message that is not stored yet gets a new timer. -/
theorem InStep.store (h : InStep c) {msgs : Map MessageData ℕ}
    (hmsgs : ∀ data, c.keyOf (topic, data) = msgs.lookup data)
    (hdata : msgs.lookup data = none) {key : ℕ}
    (hfree : c.expirations.live.lookup key = none) (deadline : Instant)
    (hc' : c' = { c with
      expirations := ⟨c.expirations.live.insert key ⟨(topic, data), deadline⟩⟩
      topicMsgs := c.topicMsgs.insert topic (msgs.insert data key) }) :
    InStep c' ∧ ∀ p, c'.deadlineOf p =
      if p = (topic, data) then some deadline else c.deadlineOf p := by
  have hlive : ∀ k, c'.expirations.live.lookup k =
      if k = key then some ⟨(topic, data), deadline⟩ else c.expirations.live.lookup k := by
    intro k
    rw [hc']
    exact Map.lookup_insert_eq _ _ _ _
  have hkeyOf : ∀ p, c'.keyOf p = if p = (topic, data) then some key else c.keyOf p := by
    rintro ⟨topic', data'⟩
    rw [keyOf_insert (congrArg topicMsgs hc'), Map.lookup_insert_eq]
    by_cases htopic : topic' = topic
    · rw [if_pos htopic]
      by_cases hsame : data' = data
      · rw [if_pos hsame, if_pos (Prod.ext htopic hsame)]
      · rw [if_neg hsame, if_neg fun heq => hsame (congrArg Prod.snd heq), htopic, hmsgs]
    · rw [if_neg htopic, if_neg fun heq => htopic (congrArg Prod.fst heq)]
  have hnone : c.keyOf (topic, data) = none := (hmsgs data).trans hdata
  refine ⟨⟨h.owns.grant (k := key) ?_ hnone hkeyOf fun l => ?_, ?_⟩,
    deadlineOf_set hkeyOf hlive fun p' _ hk => ?_⟩
  · unfold valueOf
    rw [hfree]
    rfl
  · unfold valueOf
    rw [hlive]
    split <;> rfl
  · have hstored : (msgs.insert data key).lookup data = some key :=
      (Map.lookup_insert_eq _ _ _ _).trans (if_pos rfl)
    rw [hc']
    exact nonempty_insert (ne_nil_of_lookup hstored) h.nonempty
  · obtain ⟨timed, htimed, -⟩ := h.timed hk
    rw [hfree] at htimed
    cases htimed

/-- A message that is inserted is stored until its timeout, if its kind has one. -/
theorem insert_spec (h : InStep c) (topic : GossipTopic) (data : MessageData) (now : Instant)
    (preferred : ℕ) :
    ∃ c', c.insert topic data now preferred = some c' ∧ InStep c' ∧ SameTimeouts c c' ∧
      ∀ p, c'.deadlineOf p =
        if p = (topic, data) then
          ((c.expireTimeout topic.kind).map (now + ·)).or (c.deadlineOf p)
        else c.deadlineOf p := by
  unfold insert
  cases htimeout : c.expireTimeout topic.kind with
  | none =>
    refine ⟨c, rfl, h, fun _ => rfl, fun p => ?_⟩
    split <;> rfl
  | some timeout =>
    dsimp only
    generalize hmsgs : (c.topicMsgs.lookup topic).getD ∅ = msgs
    have hkeyOf : ∀ data, c.keyOf (topic, data) = msgs.lookup data := by
      intro data
      unfold keyOf
      rw [← hmsgs]
      cases c.topicMsgs.lookup topic <;> rfl
    cases hdata : msgs.lookup data with
    | some key =>
      obtain ⟨timed, htimed, -⟩ := h.timed ((hkeyOf data).trans hdata)
      obtain ⟨hstep, hdeadline⟩ := h.reset hkeyOf hdata htimed (now + timeout) rfl
      dsimp only
      rw [Timed.reset_of_lookup htimed]
      exact ⟨_, rfl, hstep, fun _ => rfl, hdeadline⟩
    | none =>
      obtain ⟨hstep, hdeadline⟩ := h.store hkeyOf hdata
        (c.expirations.lookup_freeKey preferred) (now + timeout) rfl
      exact ⟨_, rfl, hstep, fun _ => rfl, hdeadline⟩

/-- The keys of a topic are those of its messages. -/
theorem mem_keys_iff {msgs : Map MessageData ℕ} (h : c.topicMsgs.lookup topic = some msgs)
    {key : ℕ} : key ∈ msgs.entries.map (·.2) ↔ ∃ data, c.keyOf (topic, data) = some key := by
  rw [List.mem_map]
  constructor
  · rintro ⟨⟨data, key⟩, he, rfl⟩
    exact ⟨data, (keyOf_of_lookup h data).trans (Map.mem_entries_iff.1 he)⟩
  · rintro ⟨data, hdata⟩
    rw [keyOf_of_lookup h] at hdata
    exact ⟨⟨data, key⟩, Map.mem_entries_iff.2 hdata, rfl⟩

theorem InStep.keys_nodup (h : InStep c) {msgs : Map MessageData ℕ}
    (hlookup : c.topicMsgs.lookup topic = some msgs) : (msgs.entries.map (·.2)).Nodup := by
  have hentries : msgs.entries.Nodup := List.Nodup.of_map Sigma.fst msgs.nodupKeys
  refine hentries.map_on ?_
  rintro ⟨data, key⟩ he ⟨data', key'⟩ he' (rfl : key = key')
  have hkey := (keyOf_of_lookup hlookup data).trans (Map.mem_entries_iff.1 he)
  have hkey' := (keyOf_of_lookup hlookup data').trans (Map.mem_entries_iff.1 he')
  obtain rfl : data = data' := congrArg Prod.snd (h.key_inj hkey hkey')
  rfl

/-- A live key is one of a topic when its message is. -/
theorem InStep.mem_keys_iff_topic (h : InStep c) {msgs : Map MessageData ℕ}
    (hlookup : c.topicMsgs.lookup topic = some msgs) {key : ℕ}
    {timed : Timed (GossipTopic × MessageData)}
    (htimed : c.expirations.live.lookup key = some timed) :
    key ∈ msgs.entries.map (·.2) ↔ timed.value.1 = topic := by
  have hkey : c.keyOf timed.value = some key :=
    h.owns.held timed.value key (congrArg (Option.map Timed.value) htimed)
  rw [mem_keys_iff hlookup]
  constructor
  · rintro ⟨data, hdata⟩
    exact congrArg Prod.fst (h.key_inj hkey hdata)
  · rintro rfl
    exact ⟨timed.value.2, hkey⟩

/-- All the messages of a topic leave with their timers. -/
theorem InStep.clear (h : InStep c) {msgs : Map MessageData ℕ}
    (hlookup : c.topicMsgs.lookup topic = some msgs)
    {q : DelayQueue (Timed (GossipTopic × MessageData))}
    (hq : ∀ key, q.live.lookup key =
      if key ∈ msgs.entries.map (·.2) then none else c.expirations.live.lookup key)
    (hc' : c' = { c with expirations := q, topicMsgs := c.topicMsgs.erase topic }) :
    InStep c' ∧ ∀ p, c'.deadlineOf p = if p.1 = topic then none else c.deadlineOf p := by
  subst hc'
  have hkeyOf : ∀ p, keyOf { c with expirations := q, topicMsgs := c.topicMsgs.erase topic } p =
      if p.1 = topic then none else c.keyOf p := by
    intro p
    unfold keyOf
    rw [Map.lookup_erase_eq]
    split <;> rfl
  refine ⟨⟨h.owns.releaseAll (fun p => p.1 == topic) (fun p => ?_) fun key => ?_, ?_⟩,
    deadlineOf_drop hkeyOf fun p key htopic hkey => ?_⟩
  · rw [hkeyOf]
    simp only [beq_iff_eq]
  · unfold valueOf
    rw [hq]
    cases htimed : c.expirations.live.lookup key with
    | none => split <;> rfl
    | some timed =>
      have hmem := h.mem_keys_iff_topic hlookup htimed
      by_cases htopic : timed.value.1 = topic
      · rw [if_pos (hmem.2 htopic), Option.map_some, Option.filter_some,
          if_neg (by simpa using htopic)]
        rfl
      · rw [if_neg (mt hmem.1 htopic), Option.map_some, Option.filter_some,
          if_pos (by simpa using htopic)]
  · intro topic' msgs' hlookup'
    rw [Map.lookup_erase_eq] at hlookup'
    split at hlookup'
    · cases hlookup'
    · exact h.nonempty topic' msgs' hlookup'
  · obtain ⟨timed, htimed, rfl⟩ := h.timed hkey
    exact (hq key).trans (if_neg fun hmem => htopic ((h.mem_keys_iff_topic hlookup htimed).1 hmem))

/-- A topic that is retrieved leaves the cache with all its messages. -/
theorem retrieve_spec (h : InStep c) (topic : GossipTopic) (order : Shuffle MessageData) :
    ∃ c' msgs, c.retrieve topic order = some (c', msgs) ∧ InStep c' ∧ SameTimeouts c c' ∧
      (∀ p, c'.deadlineOf p = if p.1 = topic then none else c.deadlineOf p) ∧
      (msgs.getD []).Nodup ∧
      ∀ data, data ∈ msgs.getD [] ↔ c.stores (topic, data) = true := by
  unfold retrieve
  cases hlookup : c.topicMsgs.lookup topic with
  | none =>
    have hnone : ∀ p : GossipTopic × MessageData, p.1 = topic → c.keyOf p = none := by
      rintro ⟨topic', data⟩ rfl
      unfold keyOf
      rw [hlookup]
      rfl
    refine ⟨c, none, rfl, h, fun _ => rfl, fun p => ?_, List.nodup_nil, fun data => ?_⟩
    · split
      · next htopic =>
        unfold deadlineOf
        rw [hnone p htopic]
        rfl
      · rfl
    · unfold stores
      rw [hnone (topic, data) rfl]
      exact ⟨fun hmem => (List.not_mem_nil hmem).elim, fun hsome => by cases hsome⟩
  | some msgs =>
    obtain ⟨q, hq, hlive⟩ := Timed.removeAll_of_live (h.keys_nodup hlookup) fun key hkey => by
      obtain ⟨data, hdata⟩ := (mem_keys_iff hlookup).1 hkey
      obtain ⟨timed, htimed, -⟩ := h.timed hdata
      exact ⟨timed, htimed⟩
    obtain ⟨hstep, hdeadline⟩ := h.clear hlookup hlive rfl
    dsimp only
    rw [hq]
    refine ⟨_, _, rfl, hstep, fun _ => rfl, hdeadline, ?_, fun data => ?_⟩
    · exact (order.perm msgs.keys).nodup_iff.2 msgs.keys_nodup
    · unfold stores
      rw [keyOf_of_lookup hlookup, AList.lookup_isSome]
      exact order.mem_run

/-- The topic of a message that leaves keeps its other messages, or goes when there are none. -/
def Without (c c' : GossipCache) (topic : GossipTopic) (msgs : Map MessageData ℕ) : Prop :=
  ∀ topic', c'.topicMsgs.lookup topic' =
    if topic' = topic then if msgs.entries.isEmpty then none else some msgs
    else c.topicMsgs.lookup topic'

theorem Without.nonempty {msgs : Map MessageData ℕ} (hw : Without c c' topic msgs)
    (h : ∀ topic msgs, c.topicMsgs.lookup topic = some msgs → msgs.entries ≠ []) :
    ∀ topic' msgs', c'.topicMsgs.lookup topic' = some msgs' → msgs'.entries ≠ [] := by
  intro topic' msgs' hlookup
  rw [hw] at hlookup
  split at hlookup
  · split at hlookup
    · cases hlookup
    · next hsome =>
      obtain rfl := Option.some.inj hlookup
      exact fun hnil => hsome (List.isEmpty_iff.2 hnil)
  · exact h topic' msgs' hlookup

theorem Without.keyOf {msgs : Map MessageData ℕ} (hw : Without c c' topic msgs)
    (p : GossipTopic × MessageData) :
    c'.keyOf p = if p.1 = topic then msgs.lookup p.2 else c.keyOf p := by
  unfold GossipCache.keyOf
  rw [hw]
  split
  · split
    · next hempty =>
      cases hlookup : msgs.lookup p.2 with
      | none => rfl
      | some key => exact absurd (List.isEmpty_iff.1 hempty) (ne_nil_of_lookup hlookup)
    · rfl
  · rfl

/-- A message leaves with its timer. -/
theorem InStep.leave (h : InStep c) {key : ℕ} {msgs : Map MessageData ℕ}
    (hlookup : c.topicMsgs.lookup topic = some msgs) (hdata : msgs.lookup data = some key)
    (hc' : c' = { c with
      expirations := ⟨c.expirations.live.erase key⟩
      topicMsgs := if (msgs.erase data).entries.isEmpty then c.topicMsgs.erase topic
        else c.topicMsgs.insert topic (msgs.erase data) }) :
    InStep c' ∧ ∀ p, c'.deadlineOf p = if p = (topic, data) then none else c.deadlineOf p := by
  have hkey : c.keyOf (topic, data) = some key := (keyOf_of_lookup hlookup data).trans hdata
  have hwithout : Without c c' topic (msgs.erase data) := by
    intro topic'
    rw [hc']
    dsimp only
    split
    · exact Map.lookup_erase_eq _ _ _
    · exact Map.lookup_insert_eq _ _ _ _
  have hlive : ∀ k, c'.expirations.live.lookup k =
      if k = key then none else c.expirations.live.lookup k := by
    intro k
    rw [hc']
    exact Map.lookup_erase_eq _ _ _
  have hkeyOf : ∀ p, c'.keyOf p = if p = (topic, data) then none else c.keyOf p := by
    rintro ⟨topic', data'⟩
    rw [hwithout.keyOf, Map.lookup_erase_eq]
    by_cases htopic : topic' = topic
    · subst htopic
      rw [if_pos rfl, keyOf_of_lookup hlookup]
      by_cases hsame : data' = data
      · rw [if_pos hsame, hsame, if_pos rfl]
      · rw [if_neg hsame, if_neg fun heq => hsame (congrArg Prod.snd heq)]
    · rw [if_neg htopic, if_neg fun heq => htopic (congrArg Prod.fst heq)]
  refine ⟨⟨h.owns.release (h.owns.registered _ _ hkey) hkeyOf fun k => ?_,
    hwithout.nonempty h.nonempty⟩, deadlineOf_drop hkeyOf fun p k hother hk => ?_⟩
  · unfold valueOf
    rw [hlive]
    split <;> rfl
  · refine (hlive k).trans (if_neg ?_)
    rintro rfl
    exact hother (h.key_inj hk hkey)

/-- A timer that expires takes its message from the cache; otherwise nothing happens. -/
theorem pollNext_spec (h : InStep c) (now : Instant) (poll : ExpiredPoll) :
    ∃ c' result, c.pollNext now poll = some (c', result) ∧ InStep c' ∧ SameTimeouts c c' ∧
      ((c' = c ∧ ∀ key, poll = .expired key → Timed.expire c.expirations key now = none) ∨
        ∃ p deadline key q, poll = .expired key ∧
          Timed.expire c.expirations key now = some (p, q) ∧ c.deadlineOf p = some deadline ∧
          deadline ≤ now ∧ ∀ p', c'.deadlineOf p' = if p' = p then none else c.deadlineOf p') := by
  unfold pollNext
  cases poll with
  | failed error =>
    exact ⟨c, _, rfl, h, fun _ => rfl, .inl ⟨rfl, fun key hkey => by cases hkey⟩⟩
  | pending =>
    exact ⟨c, _, rfl, h, fun _ => rfl, .inl ⟨rfl, fun key hkey => by cases hkey⟩⟩
  | expired key =>
    cases hexpire : Timed.expire c.expirations key now with
    | none =>
      refine ⟨c, .pending, ?_, h, fun _ => rfl, .inl ⟨rfl, fun key' hkey => ?_⟩⟩
      · dsimp only
        rw [hexpire]
      · cases hkey
        exact hexpire
    | some e =>
      obtain ⟨⟨topic, data⟩, q⟩ := e
      obtain ⟨timed, htimed, hvalue, hdue, rfl⟩ := Timed.expire_eq_some hexpire
      have hkey : c.keyOf (topic, data) = some key :=
        h.owns.held _ key ((congrArg (Option.map Timed.value) htimed).trans (congrArg some hvalue))
      obtain ⟨msgs, hlookup, hdata⟩ := Option.bind_eq_some_iff.1 hkey
      obtain ⟨hstep, hdeadline⟩ := h.leave hlookup hdata rfl
      dsimp only
      rw [hexpire]
      dsimp only at hlookup hdata ⊢
      rw [hlookup]
      dsimp only
      rw [if_pos hdata]
      exact ⟨_, _, rfl, hstep, fun _ => rfl, .inr ⟨(topic, data), timed.deadline, key, _, rfl,
        hexpire, deadlineOf_of_key hkey htimed, hdue, hdeadline⟩⟩

/-! ## Runs -/

end GossipCache

/-- The calls that the cache receives. -/
inductive GossipCacheOp
  | insert (topic : GossipTopic) (data : MessageData) (now : Instant) (preferred : ℕ)
  | retrieve (topic : GossipTopic) (order : Shuffle MessageData)
  | pollNext (now : Instant) (poll : ExpiredPoll)

namespace GossipCache

/-- None after a panic. -/
def step : Option GossipCache → GossipCacheOp → Option GossipCache
  | some c, .insert topic data now preferred => c.insert topic data now preferred
  | some c, .retrieve topic order => (c.retrieve topic order).map (·.1)
  | some c, .pollNext now poll => (c.pollNext now poll).map (·.1)
  | none, _ => none

/-- The message is stored in a cache that has not panicked. -/
def storedIn (p : GossipTopic × MessageData) (s : Option GossipCache) : Bool :=
  s.any (·.stores p)

/-- Each time that the message is retrieved under the topic. -/
def retrievals (p : GossipTopic × MessageData) (topic : GossipTopic)
    (retrieved : Option (GossipCache × Option (List MessageData))) : List Bool :=
  (((retrieved.bind (·.2)).getD []).filter fun data => (topic, data) == p).map fun _ => false

/-- The timer of the message expires, or another one. -/
def expiries (p : GossipTopic × MessageData)
    (expired : Option ((GossipTopic × MessageData) ×
      DelayQueue (Timed (GossipTopic × MessageData)))) : List Bool :=
  if expired.map (·.1) = some p then [false] else []

/-- What an operation does to a message: `true` when it is stored, `false` for each time that it is
retrieved or that its timer expires. -/
def moves (p : GossipTopic × MessageData) : Option GossipCache → GossipCacheOp → List Bool
  | some c, .insert topic data now preferred =>
    if !c.stores p && storedIn p (c.insert topic data now preferred) then [true] else []
  | some c, .retrieve topic order => retrievals p topic (c.retrieve topic order)
  | some c, .pollNext now (.expired key) => expiries p (Timed.expire c.expirations key now)
  | _, _ => []

theorem inStep_build (builder : GossipCacheBuilder) : InStep builder.build where
  owns := by
    refine ⟨fun p key hkey => ?_, fun p key hkey => ?_⟩
    · cases hkey
    · cases hkey
  nonempty topic msgs hlookup := by cases hlookup

/-- The cache is in step and the message has left it each time that it was stored before. -/
def Recorded (p : GossipTopic × MessageData) (log : List Bool) (s : Option GossipCache) : Prop :=
  ∃ c, s = some c ∧ InStep c ∧ Alternating log (c.stores p)

/-- A message that is not stored yet is stored, if its kind has a timeout. -/
theorem moves_insert (h : InStep c) {topic : GossipTopic} {data : MessageData} {now : Instant}
    {preferred : ℕ} (hinsert : c.insert topic data now preferred = some c') (hstep : InStep c')
    (hdeadline : ∀ p, c'.deadlineOf p = if p = (topic, data) then
      ((c.expireTimeout topic.kind).map (now + ·)).or (c.deadlineOf p) else c.deadlineOf p)
    (p : GossipTopic × MessageData) :
    moves p (some c) (.insert topic data now preferred) =
      if c'.stores p = c.stores p then [] else [c'.stores p] := by
  have hkept : c.stores p = true → c'.stores p = true := by
    rw [h.stores_eq, hstep.stores_eq, hdeadline]
    intro hstored
    split
    · rw [Option.isSome_or, hstored, Bool.or_true]
    · exact hstored
  show (if !c.stores p && storedIn p (c.insert topic data now preferred) then _ else _) = _
  rw [hinsert]
  show (if !c.stores p && c'.stores p then _ else _) = _
  cases hstored : c.stores p with
  | true =>
    rw [hkept hstored]
    rfl
  | false => cases c'.stores p <;> rfl

/-- A message that is retrieved is retrieved once. -/
theorem moves_retrieve (h : InStep c) {topic : GossipTopic} {order : Shuffle MessageData}
    {msgs : Option (List MessageData)} (hretrieve : c.retrieve topic order = some (c', msgs))
    (hstep : InStep c')
    (hdeadline : ∀ p, c'.deadlineOf p = if p.1 = topic then none else c.deadlineOf p)
    (hnodup : (msgs.getD []).Nodup)
    (hmem : ∀ data, data ∈ msgs.getD [] ↔ c.stores (topic, data) = true)
    (p : GossipTopic × MessageData) :
    moves p (some c) (.retrieve topic order) =
      if c'.stores p = c.stores p then [] else [c'.stores p] := by
  show retrievals p topic (c.retrieve topic order) = _
  unfold retrievals
  rw [hretrieve, Option.bind_some, hstep.stores_eq, hdeadline]
  dsimp only
  obtain ⟨topic', data⟩ := p
  by_cases htopic : topic' = topic
  · subst htopic
    have hfilter : ((msgs.getD []).filter fun data' => (topic', data') == (topic', data)) =
        (msgs.getD []).filter (· == data) := by
      refine List.filter_congr fun data' _ => ?_
      rw [Bool.eq_iff_iff, beq_iff_eq, beq_iff_eq, Prod.mk.injEq]
      exact and_iff_right rfl
    rw [hfilter, List.filter_beq, List.map_replicate, if_pos rfl]
    cases hstored : c.stores (topic', data) with
    | true =>
      rw [List.count_eq_one_of_mem hnodup ((hmem data).2 hstored)]
      rfl
    | false =>
      have hgone : data ∉ msgs.getD [] := by
        rw [hmem, hstored]
        exact Bool.false_ne_true
      rw [List.count_eq_zero_of_not_mem hgone]
      rfl
  · rw [if_neg htopic, ← h.stores_eq, if_pos rfl, List.map_eq_nil_iff, List.filter_eq_nil_iff]
    intro data' _ hsame
    exact htopic (congrArg Prod.fst (eq_of_beq hsame)).symm

/-- A message whose timer expires leaves. -/
theorem moves_expired (h : InStep c) {now deadline : Instant} {key : ℕ}
    {p : GossipTopic × MessageData} {q : DelayQueue (Timed (GossipTopic × MessageData))}
    (hexpire : Timed.expire c.expirations key now = some (p, q))
    (hdue : c.deadlineOf p = some deadline) (hstep : InStep c')
    (hdeadline : ∀ p', c'.deadlineOf p' = if p' = p then none else c.deadlineOf p')
    (p' : GossipTopic × MessageData) :
    moves p' (some c) (.pollNext now (.expired key)) =
      if c'.stores p' = c.stores p' then [] else [c'.stores p'] := by
  show expiries p' (Timed.expire c.expirations key now) = _
  unfold expiries
  rw [hexpire, Option.map_some, hstep.stores_eq, hdeadline]
  by_cases hsame : p' = p
  · rw [if_pos (congrArg some hsame.symm), if_pos hsame, h.stores_eq, hsame, hdue]
    rfl
  · rw [if_neg fun heq => hsame (Option.some.inj heq).symm, if_neg hsame, ← h.stores_eq,
      if_pos rfl]

/-- **One operation.** The cache does not panic and stays in step, and a message moves exactly when
it is stored after and not before, or before and not after. -/
theorem InStep.step (h : InStep c) (op : GossipCacheOp) :
    ∃ c', GossipCache.step (some c) op = some c' ∧ InStep c' ∧
      ∀ p, moves p (some c) op = if c'.stores p = c.stores p then [] else [c'.stores p] := by
  cases op with
  | insert topic data now preferred =>
    obtain ⟨c', hinsert, hstep, -, hdeadline⟩ := insert_spec h topic data now preferred
    exact ⟨c', hinsert, hstep, moves_insert h hinsert hstep hdeadline⟩
  | retrieve topic order =>
    obtain ⟨c', msgs, hretrieve, hstep, -, hdeadline, hnodup, hmem⟩ :=
      retrieve_spec h topic order
    exact ⟨c', congrArg (Option.map Prod.fst) hretrieve, hstep,
      moves_retrieve h hretrieve hstep hdeadline hnodup hmem⟩
  | pollNext now poll =>
    obtain ⟨c', result, hpoll, hstep, -, hcases⟩ := pollNext_spec h now poll
    refine ⟨c', congrArg (Option.map Prod.fst) hpoll, hstep, ?_⟩
    rcases hcases with ⟨rfl, hnone⟩ | ⟨p', deadline, key, q, rfl, hexpire, hdue, -, hdeadline⟩
    · intro p
      rw [if_pos rfl]
      cases poll with
      | expired key =>
        show expiries p (Timed.expire c'.expirations key now) = []
        rw [hnone key rfl]
        rfl
      | failed error => rfl
      | pending => rfl
    · exact moves_expired h hexpire hdue hstep hdeadline

theorem Recorded.step {p : GossipTopic × MessageData} {log : List Bool} {s : Option GossipCache}
    (h : Recorded p log s) (op : GossipCacheOp) :
    Recorded p (log ++ moves p s op) (GossipCache.step s op) := by
  obtain ⟨c, rfl, hstep, halt⟩ := h
  obtain ⟨c', hc', hstep', hmoves⟩ := hstep.step op
  refine ⟨c', hc', hstep', ?_⟩
  rw [hmoves]
  exact halt.next (c'.stores p)

/-- **The gossip cache and its timers stay in step.** In every run the keys of the stored messages
are the live keys of the timers, each with its message, no topic is kept empty, and nothing panics;
and a message is stored and leaves in turns, until it is stored at the end or not. -/
theorem cache_in_step (builder : GossipCacheBuilder) (ops : List GossipCacheOp) :
    Throughout step (fun s => ∃ c, s = some c ∧ InStep c) (some builder.build) ops ∧
    ∀ p, Alternating (outputs step (moves p) (some builder.build) ops)
      (storedIn p (ops.foldl step (some builder.build))) := by
  have hstart : ∀ p, Recorded p [] (some builder.build) :=
    fun p => ⟨builder.build, rfl, inStep_build builder, .nil⟩
  constructor
  · refine throughout_of_step (fun s op h => ?_) ops ⟨builder.build, rfl, inStep_build builder⟩
    obtain ⟨c, rfl, hstep⟩ := h
    obtain ⟨c', hc', hstep', -⟩ := hstep.step op
    exact ⟨c', hc', hstep'⟩
  · intro p
    have hrun : Recorded p ([] ++ outputs step (moves p) (some builder.build) ops)
        (ops.foldl step (some builder.build)) :=
      outputs_induction (I := Recorded p) (fun _ _ op h => h.step op) ops (hstart p)
    obtain ⟨c, hlast, -, halt⟩ := hrun
    rw [hlast]
    exact halt

end GossipCache

end Consentry
