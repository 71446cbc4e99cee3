import Consentry.Lib.Run
import Consentry.Network.Subscriptions
import Consentry.Verify.Topics

/-!
# The recorded subscriptions

**`recorded_iff`**: throughout a run the record of the subscriptions is exactly what gossipsub is
subscribed to, when and only when no call that gossipsub rejects changes the record
(`SubscriptionOp.Kept`). The record is changed before gossipsub answers and is not changed back
(`recorded_fails`). The two calls over all topics are loops of the single ones
(`recorded_subscribe_foldl`, `recorded_unsubscribe_foldl`), which add or remove a set of topics
(`recorded_added`, `recorded_removed`).
-/

namespace Consentry

open Lib

/-- No topic changes in the record for a call that gossipsub rejects. -/
def SubscriptionOp.Kept (s : Subscriptions) : SubscriptionOp → Prop
  | .subscribe topic answer => topic ∈ s.gossipsubSubscriptions ∨ answer.isOk = true
  | .unsubscribe topic answer => topic ∈ s.gossipsubSubscriptions → answer.isOk = true
  | .subscribeNewForkTopics newForkDigest _ answer =>
    -- of the topics that differ in their digests only, one is accepted
    ∀ topic ∈ s.gossipsubSubscriptions,
      { topic with forkDigest := newForkDigest } ∈ s.gossipsubSubscriptions ∨
        ∃ other ∈ s.gossipsubSubscriptions, (answer other).isOk = true ∧
          ({ other with forkDigest := newForkDigest } : GossipTopic) =
            { topic with forkDigest := newForkDigest }
  | .unsubscribeFromForkTopicsExcept except _ answer =>
    ∀ topic ∈ s.gossipsubSubscriptions, topic.forkDigest ≠ except → (answer topic).isOk = true

namespace Subscriptions

variable {hex : Hex}

/-- The record lists the topics that gossipsub is subscribed to. -/
def Recorded (hex : Hex) (s : Subscriptions) : Prop :=
  ∀ hash, hash ∈ s.gossipsub ↔ ∃ topic ∈ s.gossipsubSubscriptions, topic.display hex = hash

theorem Recorded.mem_display {s : Subscriptions} (h : s.Recorded hex) (hhex : hex.Lawful)
    {topic : GossipTopic} :
    topic.display hex ∈ s.gossipsub ↔ topic ∈ s.gossipsubSubscriptions := by
  rw [h]
  constructor
  · rintro ⟨other, hother, heq⟩
    rwa [← GossipTopic.display_injective hhex heq]
  · intro htopic
    exact ⟨topic, htopic, rfl⟩

/-! ## Adding and removing topics -/

section

variable {s s' : Subscriptions} (asked accepted : GossipTopic → Prop)

/-- The topics asked for are added to the record, and those accepted to gossipsub's own. -/
theorem recorded_added (hhex : hex.Lawful) (hs : s.Recorded hex)
    (hasked : ∀ t, accepted t → asked t)
    (hrecord : ∀ t, t ∈ s'.gossipsubSubscriptions ↔ asked t ∨ t ∈ s.gossipsubSubscriptions)
    (hown : ∀ hash, hash ∈ s'.gossipsub ↔
      (∃ t, accepted t ∧ t.display hex = hash) ∨ hash ∈ s.gossipsub) :
    s'.Recorded hex ↔ ∀ t, asked t → t ∈ s.gossipsubSubscriptions ∨ accepted t := by
  constructor
  · intro h t ht
    have hmem : t.display hex ∈ s'.gossipsub := (h _).2 ⟨t, (hrecord t).2 (.inl ht), rfl⟩
    rcases (hown _).1 hmem with ⟨other, hother, heq⟩ | hmem
    · rw [GossipTopic.display_injective hhex heq] at hother
      exact .inr hother
    · exact .inl ((hs.mem_display hhex).1 hmem)
  · intro h hash
    rw [hown]
    constructor
    · rintro (⟨t, ht, heq⟩ | hmem)
      · exact ⟨t, (hrecord t).2 (.inl (hasked t ht)), heq⟩
      · obtain ⟨t, ht, heq⟩ := (hs hash).1 hmem
        exact ⟨t, (hrecord t).2 (.inr ht), heq⟩
    · rintro ⟨t, ht, heq⟩
      have hcases : t ∈ s.gossipsubSubscriptions ∨ accepted t := by
        rcases (hrecord t).1 ht with ht | ht
        · exact h t ht
        · exact .inl ht
      rcases hcases with ht | ht
      · exact .inr ((hs hash).2 ⟨t, ht, heq⟩)
      · exact .inl ⟨t, ht, heq⟩

/-- The topics asked for are removed from the record, and those accepted from gossipsub's own. -/
theorem recorded_removed (hhex : hex.Lawful) (hs : s.Recorded hex)
    (hasked : ∀ t, accepted t → asked t)
    (hrecord : ∀ t, t ∈ s'.gossipsubSubscriptions ↔ ¬ asked t ∧ t ∈ s.gossipsubSubscriptions)
    (hown : ∀ hash, hash ∈ s'.gossipsub ↔
      (¬ ∃ t, accepted t ∧ t.display hex = hash) ∧ hash ∈ s.gossipsub) :
    s'.Recorded hex ↔ ∀ t, asked t → t ∈ s.gossipsubSubscriptions → accepted t := by
  constructor
  · intro h t ht hmem
    by_contra hnot
    have hstays : t.display hex ∈ s'.gossipsub := by
      refine (hown _).2 ⟨?_, (hs.mem_display hhex).2 hmem⟩
      rintro ⟨other, hother, heq⟩
      rw [GossipTopic.display_injective hhex heq] at hother
      exact hnot hother
    exact ((hrecord t).1 ((h.mem_display hhex).1 hstays)).1 ht
  · intro h hash
    rw [hown]
    constructor
    · rintro ⟨hnot, hmem⟩
      obtain ⟨t, ht, heq⟩ := (hs hash).1 hmem
      exact ⟨t, (hrecord t).2 ⟨fun hask => hnot ⟨t, h t hask ht, heq⟩, ht⟩, heq⟩
    · rintro ⟨t, ht, heq⟩
      obtain ⟨hnot, hmem⟩ := (hrecord t).1 ht
      refine ⟨?_, (hs hash).2 ⟨t, hmem, heq⟩⟩
      rintro ⟨other, hother, hsame⟩
      rw [GossipTopic.display_injective hhex (hsame.trans heq.symm)] at hother
      exact hnot (hasked t hother)

end

/-! ## The calls -/

section

variable (hex) (s : Subscriptions) (topic : GossipTopic)

theorem mem_subscribe (answer : Except SubscriptionError Bool) (t : GossipTopic) :
    t ∈ (s.subscribe hex topic answer).1.gossipsubSubscriptions ↔
      topic = t ∨ t ∈ s.gossipsubSubscriptions := by
  cases answer <;> simp [subscribe, eq_comm]

theorem mem_subscribe_own (answer : Except SubscriptionError Bool) (hash : TopicHash) :
    hash ∈ (s.subscribe hex topic answer).1.gossipsub ↔
      (answer.isOk = true ∧ topic.display hex = hash) ∨ hash ∈ s.gossipsub := by
  cases answer <;> simp [subscribe, Except.isOk, Except.toBool, eq_comm]

theorem mem_unsubscribe (answer : Except PublishError Bool) (t : GossipTopic) :
    t ∈ (s.unsubscribe hex topic answer).1.gossipsubSubscriptions ↔
      ¬ topic = t ∧ t ∈ s.gossipsubSubscriptions := by
  cases answer <;> simp [unsubscribe, eq_comm]

theorem mem_unsubscribe_own (answer : Except PublishError Bool) (hash : TopicHash) :
    hash ∈ (s.unsubscribe hex topic answer).1.gossipsub ↔
      ¬ (answer.isOk = true ∧ topic.display hex = hash) ∧ hash ∈ s.gossipsub := by
  cases answer <;> simp [unsubscribe, Except.isOk, Except.toBool, eq_comm]

end

section

variable {s : Subscriptions} (snapshot : List GossipTopic)

/-- What is said of the hashes of the accepted topics of a loop, said of the topics. -/
theorem exists_hash {ok : GossipTopic → Prop} {topicOf : GossipTopic → GossipTopic}
    {hash : TopicHash} :
    (∃ r ∈ snapshot, ok r ∧ (topicOf r).display hex = hash) ↔
      ∃ t, (∃ r ∈ snapshot, ok r ∧ topicOf r = t) ∧ t.display hex = hash := by
  constructor
  · rintro ⟨r, hr, hok, heq⟩
    exact ⟨topicOf r, ⟨r, hr, hok, rfl⟩, heq⟩
  · rintro ⟨t, ⟨r, hr, hok, rfl⟩, heq⟩
    exact ⟨r, hr, hok, heq⟩

/-- A loop of subscriptions, one for each topic of a snapshot. -/
theorem recorded_subscribe_foldl (hhex : hex.Lawful) (hs : s.Recorded hex)
    (topicOf : GossipTopic → GossipTopic)
    (answer : GossipTopic → Except SubscriptionError Bool) :
    (snapshot.foldl (fun s r => (s.subscribe hex (topicOf r) (answer r)).1) s).Recorded hex ↔
      ∀ r ∈ snapshot, topicOf r ∈ s.gossipsubSubscriptions ∨
        ∃ other ∈ snapshot, (answer other).isOk = true ∧ topicOf other = topicOf r := by
  have hasked : ∀ t, (∃ r ∈ snapshot, (answer r).isOk = true ∧ topicOf r = t) →
      ∃ r ∈ snapshot, topicOf r = t := by
    rintro t ⟨r, hr, -, heq⟩
    exact ⟨r, hr, heq⟩
  have hadded := recorded_added (fun t => ∃ r ∈ snapshot, topicOf r = t)
    (fun t => ∃ r ∈ snapshot, (answer r).isOk = true ∧ topicOf r = t) hhex hs hasked
    (fun t => foldl_exists (P := fun s => t ∈ s.gossipsubSubscriptions)
      (fun s r => mem_subscribe hex s (topicOf r) (answer r) t) snapshot s)
    (fun hash => (foldl_exists (P := fun s => hash ∈ s.gossipsub)
      (fun s r => mem_subscribe_own hex s (topicOf r) (answer r) hash) snapshot s).trans
      (or_congr_left (exists_hash snapshot)))
  rw [hadded]
  constructor
  · intro h r hr
    exact h (topicOf r) ⟨r, hr, rfl⟩
  · rintro h t ⟨r, hr, rfl⟩
    exact h r hr

/-- A loop of calls of `unsubscribe`, one for each topic of a snapshot. -/
theorem recorded_unsubscribe_foldl (hhex : hex.Lawful) (hs : s.Recorded hex)
    (answer : GossipTopic → Except PublishError Bool) :
    (snapshot.foldl (fun s r => (s.unsubscribe hex r (answer r)).1) s).Recorded hex ↔
      ∀ r ∈ snapshot, r ∈ s.gossipsubSubscriptions → (answer r).isOk = true := by
  have hasked : ∀ t, (∃ r ∈ snapshot, (answer r).isOk = true ∧ r = t) → ∃ r ∈ snapshot, r = t := by
    rintro t ⟨r, hr, -, heq⟩
    exact ⟨r, hr, heq⟩
  have hremoved := recorded_removed (fun t => ∃ r ∈ snapshot, r = t)
    (fun t => ∃ r ∈ snapshot, (answer r).isOk = true ∧ r = t) hhex hs hasked
    (fun t => foldl_not_exists (P := fun s => t ∈ s.gossipsubSubscriptions)
      (fun s r => mem_unsubscribe hex s r (answer r) t) snapshot s)
    (fun hash => (foldl_not_exists (P := fun s => hash ∈ s.gossipsub)
      (fun s r => mem_unsubscribe_own hex s r (answer r) hash) snapshot s).trans
      (and_congr_left' (not_congr (exists_hash snapshot))))
  rw [hremoved]
  constructor
  · intro h r hr hmem
    obtain ⟨other, -, hok, rfl⟩ := h r ⟨r, hr, rfl⟩ hmem
    exact hok
  · rintro h t ⟨r, hr, rfl⟩ hmem
    exact ⟨r, hr, h r hr hmem, rfl⟩

end

/-! ## Runs -/

/-- **A call keeps the record exact if and only if nothing that it changes is rejected.** -/
theorem recorded_step (hhex : hex.Lawful) {s : Subscriptions} (hs : s.Recorded hex)
    (op : SubscriptionOp) : (s.step hex op).Recorded hex ↔ op.Kept s := by
  cases op with
  | subscribe topic answer =>
    refine (recorded_subscribe_foldl [topic] hhex hs id (fun _ => answer)).trans ?_
    simp [SubscriptionOp.Kept]
  | unsubscribe topic answer =>
    refine (recorded_unsubscribe_foldl [topic] hhex hs (fun _ => answer)).trans ?_
    simp [SubscriptionOp.Kept]
  | subscribeNewForkTopics newForkDigest order answer =>
    refine (recorded_subscribe_foldl _ hhex hs
      (fun topic => { topic with forkDigest := newForkDigest }) answer).trans ?_
    simp only [Shuffle.mem_run, DistinctList.mem_toList, SubscriptionOp.Kept]
  | unsubscribeFromForkTopicsExcept except order answer =>
    refine (recorded_unsubscribe_foldl _ hhex hs answer).trans ?_
    simp only [List.mem_filter, Shuffle.mem_run, DistinctList.mem_toList, decide_eq_true_eq,
      SubscriptionOp.Kept]
    exact ⟨fun h t ht hdigest => h t ⟨ht, hdigest⟩ ht, fun h t ht _ => h t ht.1 ht.2⟩

theorem recorded_new : new.Recorded hex := by
  intro hash
  constructor
  · intro h
    cases h
  · rintro ⟨t, ht, -⟩
    cases ht

/-- **The record is what gossipsub is subscribed to** after every call of a run, if and only if no
call changes the record for a topic that gossipsub rejects. -/
theorem recorded_iff (hhex : hex.Lawful) (ops : List SubscriptionOp) :
    Throughout (step hex) (Recorded hex) new ops ↔
      Along (step hex) (fun s op => op.Kept s) new ops :=
  throughout_iff_along (D := fun _ _ => True)
    (fun _ op h _ hkept => (recorded_step hhex h op).2 hkept) (fun _ h => h)
    (fun _ op h _ hnext => (recorded_step hhex h op).1 hnext) recorded_new
    (Along.of_forall (fun _ _ => trivial) ops new)

/-- The topic of the blocks of a fork. -/
def blockTopic : GossipTopic := ⟨.sszSnappy, #v[0, 0, 0, 0], .beaconBlock⟩

/-- A subscription and the renewal of its topic, both of which gossipsub accepts. -/
theorem recorded_iff_renewed :
    Throughout (step plainHex) (Recorded plainHex) new
      [.subscribe blockTopic (.ok true),
        .subscribeNewForkTopics #v[0, 0, 0, 1] default fun _ => .ok true] :=
  (recorded_iff plainHex_lawful _).2
    ⟨.inr rfl, fun topic htopic => .inr ⟨topic, htopic, rfl, rfl⟩, trivial⟩

/-- A topic that the subscription filter does not allow stays in the record. -/
theorem recorded_fails :
    ¬ Throughout (step plainHex) (Recorded plainHex) new
      [.subscribe blockTopic (.error .notAllowed)] := by
  rintro ⟨-, h⟩
  have hown : blockTopic.display plainHex ∈ new.gossipsub :=
    (h _).2 ⟨blockTopic, DistinctList.mem_insert.2 (.inl rfl), rfl⟩
  cases hown

end Subscriptions

end Consentry
