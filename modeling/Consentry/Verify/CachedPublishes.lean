import Consentry.Network.Publish
import Consentry.Verify.GossipCache

/-!
# Messages that wait in the gossip cache

A message that could not be published for want of peers is followed until its timeout
(`FailedPublish`). **`publishes_kept_iff`**: it stays in the cache or is published in exactly the
runs in which no message of a topic that a peer subscribes to fails again before its timeout. The
retry takes all the messages of the topic from the cache and does not put back those that fail,
while `publish` caches a message whenever it fails for want of peers (`publishes_kept_fails`).
-/

namespace Consentry

open Lib
open Rpc (Duration)

/-- The message was published, or had been already. -/
def published : PublishResult → Bool
  | .ok _ => true
  | .error .duplicate => true
  | .error _ => false

/-- A message that `publish` could not publish for want of peers, on a topic with a timeout. -/
structure FailedPublish where
  topic : GossipTopic
  data : MessageData
  deadline : Instant
  published : Bool
  deriving DecidableEq, Repr

namespace FailedPublish

/-- The failed message when gossipsub answers on a message under a topic. -/
def answered (topic : GossipTopic) (data : MessageData) (answer : PublishResult)
    (f : FailedPublish) : FailedPublish :=
  { f with published :=
      f.published || (f.topic == topic && f.data == data && Consentry.published answer) }

/-- The failed message when the cached messages of a topic are tried again. -/
def retried (topic : Option GossipTopic) (retries : List (MessageData × PublishResult))
    (f : FailedPublish) : FailedPublish :=
  { f with published := f.published ||
      (topic == some f.topic && retries.any fun e => e.1 == f.data && Consentry.published e.2) }

/-- The message was published since, or its timeout has passed, or it is in the cache. -/
def kept (n : Network) (f : FailedPublish) : Bool :=
  f.published || decide (f.deadline ≤ n.now) || n.gossipCache.stores (f.topic, f.data)

end FailedPublish

/-- The failure of a publication, if it is one for want of peers on a topic with a timeout. -/
def Network.failure (n : Network) (topic : GossipTopic) (data : MessageData)
    (answer : PublishResult) : List FailedPublish :=
  match answer, n.gossipCache.expireTimeout topic.kind with
  | .error .insufficientPeers, some timeout => [⟨topic, data, n.now + timeout, false⟩]
  | _, _ => []

/-- The network with the messages that failed so far. -/
structure TrackedNetwork where
  network : Network
  failures : List FailedPublish

namespace TrackedNetwork

def publishOn (publication : Publication) (t : TrackedNetwork) (topic : GossipTopic) :
    Option TrackedNetwork :=
  let data := publication.message.encode default
  let answer := publication.answer topic
  (t.network.publishOn publication topic).map fun network =>
    { network := network
      failures := t.failures.map (·.answered topic data answer) ++
        t.network.failure topic data answer }

def publishMessage (t : TrackedNetwork) (publication : Publication) : Option TrackedNetwork :=
  (publication.message.topics default t.network.forkDigest).foldlM (publishOn publication)
    { t with network := { t.network with now := t.network.now + publication.elapsed } }

/-- An operation on the network; the failures are followed through it. -/
def step (t : TrackedNetwork) : NetworkOp → Option TrackedNetwork
  | .publish publications => publications.foldlM publishMessage t
  | .subscribed topic order answer =>
    (t.network.injectSubscribed topic order answer).map fun r =>
      { network := r.1, failures := t.failures.map (·.retried topic r.2) }
  | .pollCache elapsed poll =>
    (t.network.pollCache elapsed poll).map fun network => { t with network := network }
  | .updateForkVersion forkDigest =>
    some { t with network := t.network.updateForkVersion forkDigest }

/-- Nothing has panicked, and every message that failed is kept. -/
def allKept (s : Option TrackedNetwork) : Bool :=
  s.any fun t => t.failures.all (·.kept t.network)

/-- When a peer subscribes to a topic, the messages under it that are still to be published before
their timeouts are published. -/
def RetriesSucceed (s : Option TrackedNetwork) : NetworkOp → Prop
  | .subscribed topic _ answer =>
    ∀ t, s = some t → ∀ f ∈ t.failures, some f.topic = topic → f.published = false →
      t.network.now < f.deadline → published (answer f.data) = true
  | .publish _ | .pollCache _ _ | .updateForkVersion _ => True

/-! ## What is followed is the network -/

theorem publishOn_network (publication : Publication) (t : TrackedNetwork) (topic : GossipTopic) :
    (t.publishOn publication topic).map (·.network) = t.network.publishOn publication topic := by
  unfold publishOn
  dsimp only
  cases t.network.publishOn publication topic <;> rfl

/-- The failures are only looked on at. -/
theorem step_network (t : TrackedNetwork) (op : NetworkOp) :
    (t.step op).map (·.network) = t.network.step op := by
  cases op with
  | publish publications =>
    refine foldlM_map (fun t publication => ?_) publications t
    exact foldlM_map (publishOn_network publication) _
      { t with network := { t.network with now := t.network.now + publication.elapsed } }
  | subscribed topic order answer =>
    unfold step Network.step
    dsimp only
    cases t.network.injectSubscribed topic order answer <;> rfl
  | pollCache elapsed poll =>
    unfold step Network.step
    dsimp only
    cases t.network.pollCache elapsed poll <;> rfl
  | updateForkVersion forkDigest => rfl

/-! ## Failures and deadlines -/

/-- The failed message is published, or over, or in the cache until its deadline at least. -/
structure Waits (n : Network) (f : FailedPublish) : Prop where
  timeout : ∃ timeout, n.gossipCache.expireTimeout f.topic.kind = some timeout ∧
    f.deadline ≤ n.now + timeout
  kept : f.published = true ∨ f.deadline ≤ n.now ∨
    ∃ deadline, n.gossipCache.deadlineOf (f.topic, f.data) = some deadline ∧ f.deadline ≤ deadline

structure Following (t : TrackedNetwork) : Prop where
  inStep : t.network.gossipCache.InStep
  waits : ∀ f ∈ t.failures, Waits t.network f

variable {n n' : Network} {f f' : FailedPublish} {t t' : TrackedNetwork}

/-- What can happen to a failed message without harm. -/
theorem Waits.next (h : Waits n f) (htopic : f'.topic = f.topic) (hdata : f'.data = f.data)
    (hdeadline : f'.deadline = f.deadline) (hpublished : f.published = true → f'.published = true)
    (htimeouts : n.gossipCache.SameTimeouts n'.gossipCache) (hnow : n.now ≤ n'.now)
    (hcache : ∀ deadline, n.gossipCache.deadlineOf (f.topic, f.data) = some deadline →
      f.deadline ≤ deadline → f'.published = true ∨ f.deadline ≤ n'.now ∨
        ∃ deadline', n'.gossipCache.deadlineOf (f.topic, f.data) = some deadline' ∧
          f.deadline ≤ deadline') : Waits n' f' := by
  obtain ⟨⟨timeout, htimeout, hbound⟩, hkept⟩ := h
  constructor
  · rw [htopic, hdeadline]
    exact ⟨timeout, (htimeouts _).trans htimeout, hbound.trans (Nat.add_le_add_right hnow timeout)⟩
  · rw [htopic, hdata, hdeadline]
    rcases hkept with hdone | hover | ⟨deadline, hstored, hle⟩
    · exact .inl (hpublished hdone)
    · exact .inr (.inl (hover.trans hnow))
    · exact hcache deadline hstored hle

/-- Nothing is lost while the cache is left alone. -/
theorem Waits.of_cache_eq (h : Waits n f) (htopic : f'.topic = f.topic) (hdata : f'.data = f.data)
    (hdeadline : f'.deadline = f.deadline) (hpublished : f.published = true → f'.published = true)
    (hcache : n'.gossipCache = n.gossipCache) (hnow : n.now ≤ n'.now) : Waits n' f' := by
  refine h.next htopic hdata hdeadline hpublished (fun kind => ?_) hnow
    fun deadline hstored hle => ?_
  · rw [hcache]
  · rw [hcache]
    exact .inr (.inr ⟨deadline, hstored, hle⟩)

theorem Following.tick (h : Following t) (elapsed : Duration) :
    Following { t with network := { t.network with now := t.network.now + elapsed } } where
  inStep := h.inStep
  waits f hf := (h.waits f hf).of_cache_eq rfl rfl rfl id rfl (Nat.le_add_right _ _)

theorem published_answered (topic : GossipTopic) (data : MessageData) (answer : PublishResult)
    (h : f.published = true) : (f.answered topic data answer).published = true := by
  unfold FailedPublish.answered
  dsimp only
  rw [h, Bool.true_or]

/-- Only a want of peers changes the cache. -/
theorem publishOn_of_ne {publication : Publication} {topic : GossipTopic}
    (h : publication.answer topic ≠ .error .insufficientPeers) (data : MessageData) :
    n.publishOn publication topic = some n ∧
      n.failure topic data (publication.answer topic) = [] := by
  unfold Network.publishOn Network.failure
  cases hanswer : publication.answer topic with
  | ok _ => exact ⟨rfl, rfl⟩
  | error e =>
    cases e with
    | insufficientPeers => exact absurd hanswer h
    | duplicate => exact ⟨rfl, rfl⟩
    | signingError => exact ⟨rfl, rfl⟩
    | messageTooLarge => exact ⟨rfl, rfl⟩
    | transformFailed => exact ⟨rfl, rfl⟩

theorem Following.publishOn (publication : Publication) (topic : GossipTopic) (h : Following t) :
    ∃ t', t.publishOn publication topic = some t' ∧ Following t' := by
  unfold TrackedNetwork.publishOn
  dsimp only
  generalize hdata : publication.message.encode default = data
  by_cases hpeers : publication.answer topic = .error .insufficientPeers
  · obtain ⟨c', hinsert, hstep, htimeouts, hdeadline⟩ :=
      GossipCache.insert_spec h.inStep topic data t.network.now publication.preferred
    have hpublish : t.network.publishOn publication topic =
        some { t.network with gossipCache := c' } := by
      unfold Network.publishOn
      rw [hpeers, hdata, hinsert]
      rfl
    rw [hpublish]
    refine ⟨_, rfl, hstep, fun f hf => ?_⟩
    rcases List.mem_append.1 hf with hf | hf
    · obtain ⟨f, hold, rfl⟩ := List.mem_map.1 hf
      refine (h.waits f hold).next rfl rfl rfl (published_answered topic data _) htimeouts
        (Nat.le_refl _) fun deadline hstored hle => .inr (.inr ?_)
      dsimp only
      rw [hdeadline]
      split
      · next hsame =>
        obtain ⟨timeout, htimeout, hbound⟩ := (h.waits f hold).timeout
        have htopic : f.topic = topic := congrArg Prod.fst hsame
        rw [htopic] at htimeout
        rw [htimeout]
        exact ⟨_, rfl, hbound⟩
      · exact ⟨deadline, hstored, hle⟩
    · unfold Network.failure at hf
      rw [hpeers] at hf
      cases htimeout : t.network.gossipCache.expireTimeout topic.kind with
      | none =>
        rw [htimeout] at hf
        cases hf
      | some timeout =>
        rw [htimeout] at hf
        obtain rfl := List.mem_singleton.1 hf
        refine ⟨⟨timeout, (htimeouts _).trans htimeout, Nat.le_refl _⟩, .inr (.inr ?_)⟩
        refine ⟨t.network.now + timeout, ?_, Nat.le_refl _⟩
        rw [hdeadline, if_pos rfl, htimeout]
        rfl
  · obtain ⟨hpublish, hfailure⟩ := publishOn_of_ne (n := t.network) hpeers data
    rw [hpublish, hfailure, List.append_nil]
    refine ⟨_, rfl, h.inStep, fun f hf => ?_⟩
    obtain ⟨f, hold, rfl⟩ := List.mem_map.1 hf
    exact (h.waits f hold).of_cache_eq rfl rfl rfl (published_answered topic data _) rfl
      (Nat.le_refl _)

theorem Following.publishMessage (publication : Publication) (h : Following t) :
    ∃ t', t.publishMessage publication = some t' ∧ Following t' :=
  foldlM_some (fun _ topic h => h.publishOn publication topic) _ (h.tick publication.elapsed)

theorem Following.pollCache (h : Following t) (elapsed : Duration) (poll : ExpiredPoll) :
    ∃ t', t.step (.pollCache elapsed poll) = some t' ∧ Following t' := by
  obtain ⟨c', result, hpoll, hstep, htimeouts, hcases⟩ :=
    GossipCache.pollNext_spec h.inStep (t.network.now + elapsed) poll
  have hnetwork : t.network.pollCache elapsed poll =
      some { t.network with gossipCache := c', now := t.network.now + elapsed } := by
    unfold Network.pollCache
    rw [hpoll]
    rfl
  unfold TrackedNetwork.step
  dsimp only
  rw [hnetwork]
  refine ⟨_, rfl, hstep, fun f hf => ?_⟩
  refine (h.waits f hf).next rfl rfl rfl id htimeouts (Nat.le_add_right _ _)
    fun deadline hstored hle => .inr ?_
  rcases hcases with ⟨rfl, -⟩ | ⟨p, due, key, q, -, -, hdue, hnow, hdeadline⟩
  · exact .inr ⟨deadline, hstored, hle⟩
  · by_cases hsame : (f.topic, f.data) = p
    · -- the message has expired, so its timeout has passed
      rw [hsame, hdue] at hstored
      obtain rfl := Option.some.inj hstored
      exact .inl (hle.trans hnow)
    · refine .inr ⟨deadline, ?_, hle⟩
      dsimp only
      rw [hdeadline, if_neg hsame]
      exact hstored

theorem Following.updateForkVersion (h : Following t) (forkDigest : Vector UInt8 4) :
    Following { t with network := t.network.updateForkVersion forkDigest } where
  inStep := h.inStep
  waits f hf := (h.waits f hf).of_cache_eq rfl rfl rfl id rfl (Nat.le_refl _)

/-! ## Retries -/

/-- A subscription empties its topic: each of its messages is sent, and none is stored again. -/
theorem injectSubscribed_spec (h : n.gossipCache.InStep) (topic : GossipTopic)
    (order : Shuffle MessageData) (answer : MessageData → PublishResult) :
    ∃ n' retries, n.injectSubscribed (some topic) order answer = some (n', retries) ∧
      n'.gossipCache.InStep ∧ n.gossipCache.SameTimeouts n'.gossipCache ∧ n'.now = n.now ∧
      (∀ p, n'.gossipCache.deadlineOf p =
        if p.1 = topic then none else n.gossipCache.deadlineOf p) ∧
      ∀ e, e ∈ retries ↔ n.gossipCache.stores (topic, e.1) = true ∧ answer e.1 = e.2 := by
  obtain ⟨c', msgs, hretrieve, hstep, htimeouts, hdeadline, -, hmem⟩ :=
    GossipCache.retrieve_spec h topic order
  refine ⟨{ n with gossipCache := c' }, (msgs.getD []).map fun data => (data, answer data), ?_,
    hstep, htimeouts, rfl, hdeadline, fun e => ?_⟩
  · unfold Network.injectSubscribed
    dsimp only
    rw [hretrieve]
    rfl
  · rw [List.mem_map]
    constructor
    · rintro ⟨data, hdata, rfl⟩
      exact ⟨(hmem data).1 hdata, rfl⟩
    · rintro ⟨hstored, hanswer⟩
      exact ⟨e.1, (hmem e.1).2 hstored, Prod.ext rfl hanswer⟩

/-- A message is published by the retries under its topic, or is not. -/
theorem published_retried (topic : Option GossipTopic)
    (retries : List (MessageData × PublishResult)) :
    (f.retried topic retries).published = true ↔ f.published = true ∨
      topic = some f.topic ∧ ∃ e ∈ retries, e.1 = f.data ∧ published e.2 = true := by
  unfold FailedPublish.retried
  simp only [Bool.or_eq_true, Bool.and_eq_true, beq_iff_eq, List.any_eq_true]

/-- A subscription whose retries succeed takes only messages from the cache that are published. -/
theorem Following.subscribed (h : Following t) {topic : Option GossipTopic}
    {order : Shuffle MessageData} {answer : MessageData → PublishResult}
    (hretries : RetriesSucceed (some t) (.subscribed topic order answer)) :
    ∃ t', t.step (.subscribed topic order answer) = some t' ∧ Following t' := by
  cases topic with
  | none =>
    refine ⟨_, rfl, h.inStep, fun f' hf' => ?_⟩
    obtain ⟨f, hf, rfl⟩ := List.mem_map.1 hf'
    exact (h.waits f hf).of_cache_eq rfl rfl rfl
      (fun hdone => (published_retried _ _).2 (.inl hdone)) rfl (Nat.le_refl _)
  | some topic =>
    obtain ⟨n', retries, hinject, hstep, htimeouts, hnow, hdeadline, hmem⟩ :=
      injectSubscribed_spec h.inStep topic order answer
    unfold TrackedNetwork.step
    dsimp only
    rw [hinject]
    refine ⟨_, rfl, hstep, fun f' hf' => ?_⟩
    obtain ⟨f, hf, rfl⟩ := List.mem_map.1 hf'
    refine (h.waits f hf).next rfl rfl rfl (fun hdone => (published_retried _ _).2 (.inl hdone))
      htimeouts (Nat.le_of_eq hnow.symm) fun deadline hstored hle => ?_
    by_cases htopic : f.topic = topic
    · have hsent : (f.data, answer f.data) ∈ retries := by
        refine (hmem _).2 ⟨?_, rfl⟩
        rw [h.inStep.stores_eq, ← htopic, hstored]
        rfl
      cases hdone : f.published with
      | true => exact .inl ((published_retried _ _).2 (.inl hdone))
      | false =>
        rcases Nat.lt_or_ge t.network.now f.deadline with hahead | hover
        · have hanswer : published (answer f.data) = true :=
            hretries t rfl f hf (congrArg some htopic) hdone hahead
          refine .inl ((published_retried _ _).2 (.inr ⟨congrArg some htopic.symm, ?_⟩))
          exact ⟨_, hsent, rfl, hanswer⟩
        · exact .inr (.inl (hnow ▸ hover))
    · refine .inr (.inr ⟨deadline, ?_, hle⟩)
      dsimp only
      rw [hdeadline, if_neg htopic]
      exact hstored

theorem kept_iff : f.kept n = true ↔
    f.published = true ∨ f.deadline ≤ n.now ∨ n.gossipCache.stores (f.topic, f.data) = true := by
  unfold FailedPublish.kept
  rw [Bool.or_eq_true, Bool.or_eq_true, decide_eq_true_iff, or_assoc]

/-- A retry that fails before the timeout loses the message. -/
theorem Following.retries_of_allKept (h : Following t) {topic : Option GossipTopic}
    {order : Shuffle MessageData} {answer : MessageData → PublishResult}
    (hkept : allKept (t.step (.subscribed topic order answer)) = true) :
    RetriesSucceed (some t) (.subscribed topic order answer) := by
  rintro t' ⟨⟩ f hf rfl hdone hahead
  obtain ⟨n', retries, hinject, hstep, -, hnow, hdeadline, hmem⟩ :=
    injectSubscribed_spec h.inStep f.topic order answer
  unfold TrackedNetwork.step at hkept
  dsimp only at hkept
  rw [hinject] at hkept
  rcases kept_iff.1 (List.all_eq_true.1 hkept _ (List.mem_map_of_mem hf)) with
    hdone' | hover | hstored
  · rcases (published_retried _ _).1 hdone' with hdone' | ⟨-, e, hsent, hdata, hpublished⟩
    · exact absurd (hdone.symm.trans hdone') Bool.false_ne_true
    · rw [← hdata, ((hmem e).1 hsent).2]
      exact hpublished
  · have hover' : f.deadline ≤ t.network.now := hnow ▸ hover
    exact absurd hahead (Nat.not_lt.2 hover')
  · rw [hstep.stores_eq, hdeadline] at hstored
    cases (if_pos rfl : (if f.topic = f.topic then none
      else t.network.gossipCache.deadlineOf (f.topic, f.data)) = none) ▸ hstored

/-! ## Runs -/

/-- A step on which nothing is lost: the network does not panic and follows on. -/
theorem Following.next (h : Following t) {op : NetworkOp} (hop : RetriesSucceed (some t) op) :
    ∃ t', t.step op = some t' ∧ Following t' := by
  cases op with
  | publish publications =>
    exact foldlM_some (fun _ publication h => h.publishMessage publication) publications h
  | subscribed topic order answer => exact h.subscribed hop
  | pollCache elapsed poll => exact h.pollCache elapsed poll
  | updateForkVersion forkDigest => exact ⟨_, rfl, h.updateForkVersion forkDigest⟩

theorem Following.allKept (h : Following t) : allKept (some t) = true := by
  refine List.all_eq_true.2 fun f hf => kept_iff.2 ?_
  rcases (h.waits f hf).kept with hdone | hover | ⟨deadline, hstored, -⟩
  · exact .inl hdone
  · exact .inr (.inl hover)
  · refine .inr (.inr ?_)
    rw [h.inStep.stores_eq, hstored]
    rfl

/-- The network that is built, before anything is published. -/
def built (builder : GossipCacheBuilder) (forkDigest : Vector UInt8 4) (now : Instant) :
    TrackedNetwork :=
  ⟨⟨builder.build, forkDigest, now⟩, []⟩

theorem following_built (builder : GossipCacheBuilder) (forkDigest : Vector UInt8 4)
    (now : Instant) : Following (built builder forkDigest now) :=
  ⟨GossipCache.inStep_build builder, fun _ hf => (List.not_mem_nil hf).elim⟩

/-- None after a panic. -/
def run (s : Option TrackedNetwork) (op : NetworkOp) : Option TrackedNetwork :=
  s.bind (·.step op)

/-- **A message that could not be published is kept until its timeout exactly when its retries
succeed.** In a run nothing panics, and each message that failed for want of peers is published,
or past its timeout, or in the cache, at all times, if and only if at each subscription to a topic
the messages under it that are still to be published before their timeouts are published. -/
theorem publishes_kept_iff (builder : GossipCacheBuilder) (forkDigest : Vector UInt8 4)
    (now : Instant) (ops : List NetworkOp) :
    Throughout run (fun s => allKept s = true) (some (built builder forkDigest now)) ops ↔
      Along run RetriesSucceed (some (built builder forkDigest now)) ops := by
  refine throughout_iff_along (P := fun s => ∃ t, s = some t ∧ Following t)
    (D := fun _ _ => True) ?_ ?_ ?_ ⟨_, rfl, following_built builder forkDigest now⟩
    (Along.of_forall (fun _ _ => trivial) ops _)
  · rintro s op ⟨t, rfl, h⟩ - hop
    exact h.next hop
  · rintro s ⟨t, rfl, h⟩
    exact h.allKept
  · rintro s op ⟨t, rfl, h⟩ - hkept
    cases op with
    | subscribed topic order answer => exact h.retries_of_allKept hkept
    | publish publications => trivial
    | pollCache elapsed poll => trivial
    | updateForkVersion forkDigest => trivial

/-- A block that finds no peers is cached for ten seconds. A peer subscribes, the block is tried
again and fails again, and it is in the cache no more. -/
theorem publishes_kept_fails :
    let builder : GossipCacheBuilder := { (default : GossipCacheBuilder) with
      beaconBlock := some 10 }
    let digest : Vector UInt8 4 := default
    let block : OutgoingMessage := ⟨.beaconBlock, [1]⟩
    let short : PublishResult := .error .insufficientPeers
    let ops : List NetworkOp := [.publish [⟨block, 0, fun _ => short, 0⟩],
      .subscribed (some ⟨default, digest, .beaconBlock⟩) default fun _ => short]
    let start := some (built builder digest 0)
    (ops.foldl run start).any (fun t => t.failures.any fun f => !f.kept t.network) = true ∧
      ¬ Throughout run (fun s => allKept s = true) start ops := by
  decide

end TrackedNetwork

end Consentry
