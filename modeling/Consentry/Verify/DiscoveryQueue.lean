import Consentry.Discovery
import Consentry.Lib.Run

/-!
# The queue of subnet queries

What the operations of discovery do to the queue and to the active queries, once for each of them:
`addSubnetQuery_cases`, `startSubnetQuery_cases`, `complete_cases`, and `processQueue_drains`, where
`Drains` is the loop of `process_queue` with one constructor for each group that it starts.

**`queue_invariants`**: in every run of a started discovery whose ENR has a fork id, no subnet is
queued twice, retries and active queries are bounded, and the flag of the peer query is exact; and
every call of `process_queue` passes the queries on in order, a group at a time, until it is at
capacity or the queue is empty.
-/

namespace Consentry

open Lib

def ActiveQuery.isFindPeers (a : ActiveQuery) : Bool :=
  match a.queryType with
  | .subnet _ => false
  | .findPeers => true

/-- The query searches for one of the subnets. -/
def ActiveQuery.searches (P : Subnet → Bool) (a : ActiveQuery) : Bool :=
  match a.queryType with
  | .subnet queries => queries.any fun q => P q.subnet
  | .findPeers => false

namespace Discovery

variable {d d' : Discovery}

/-! ## Adding a query -/

/-- The entry of a subnet after a query was merged into it. -/
def merged (query : SubnetQuery) (minTtl : Option Instant) (retries : ℕ) : SubnetQuery :=
  { query with
    minTtl := if minTtlLt query.minTtl minTtl then minTtl else query.minTtl
    retries := retries }

theorem mergeQuery_cases (subnet : Subnet) (minTtl : Option Instant) (retries : ℕ)
    (queue : List SubnetQuery) :
    (mergeQuery subnet minTtl retries queue = none ∧ ∀ q ∈ queue, q.subnet ≠ subnet) ∨
    ∃ front query back, queue = front ++ query :: back ∧ query.subnet = subnet ∧
      mergeQuery subnet minTtl retries queue =
        some (front ++ merged query minTtl retries :: back) := by
  induction queue with
  | nil => exact .inl ⟨rfl, fun q hq => by cases hq⟩
  | cons q queue ih =>
    unfold mergeQuery
    by_cases hsame : q.subnet = subnet
    · rw [if_pos hsame]
      exact .inr ⟨[], q, queue, rfl, hsame, rfl⟩
    · rw [if_neg hsame]
      rcases ih with ⟨hnone, hother⟩ | ⟨front, query, back, rfl, hquery, hsome⟩
      · rw [hnone]
        exact .inl ⟨rfl, List.forall_mem_cons.2 ⟨hsame, hother⟩⟩
      · rw [hsome]
        exact .inr ⟨q :: front, query, back, rfl, hquery, rfl⟩

/-- What `add_subnet_query` can do. -/
theorem addSubnetQuery_cases (d : Discovery) (subnet : Subnet) (minTtl : Option Instant)
    (retries : ℕ) :
    (maxDiscoveryRetry < retries ∧ d.addSubnetQuery subnet minTtl retries = d) ∨
    (retries ≤ maxDiscoveryRetry ∧ ∃ front query back,
      d.queuedQueries = front ++ query :: back ∧ query.subnet = subnet ∧
      d.addSubnetQuery subnet minTtl retries =
        { d with queuedQueries := front ++ merged query minTtl retries :: back }) ∨
    (retries ≤ maxDiscoveryRetry ∧ (∀ q ∈ d.queuedQueries, q.subnet ≠ subnet) ∧
      d.addSubnetQuery subnet minTtl retries =
        { d with queuedQueries := d.queuedQueries ++ [⟨subnet, minTtl, retries⟩] }) := by
  unfold addSubnetQuery
  by_cases hmax : maxDiscoveryRetry < retries
  · rw [if_pos hmax]
    exact .inl ⟨hmax, rfl⟩
  · rw [if_neg hmax]
    have hle : retries ≤ maxDiscoveryRetry := Nat.le_of_not_lt hmax
    rcases mergeQuery_cases subnet minTtl retries d.queuedQueries with
      ⟨hnone, hother⟩ | ⟨front, query, back, hqueue, hquery, hsome⟩
    · rw [hnone]
      exact .inr (.inr ⟨hle, hother, rfl⟩)
    · rw [hsome]
      exact .inr (.inl ⟨hle, front, query, back, hqueue, hquery, rfl⟩)

/-- Only the queue changes. -/
structure SameQueries (d d' : Discovery) : Prop where
  findPeerActive : d'.findPeerActive = d.findPeerActive
  activeQueries : d'.activeQueries = d.activeQueries
  startedQueries : d'.startedQueries = d.startedQueries
  started : d'.started = d.started
  hasForkId : d'.hasForkId = d.hasForkId

namespace SameQueries

theorem refl (d : Discovery) : SameQueries d d := ⟨rfl, rfl, rfl, rfl, rfl⟩

theorem trans {d'' : Discovery} (h : SameQueries d d') (k : SameQueries d' d'') :
    SameQueries d d'' where
  findPeerActive := k.findPeerActive.trans h.findPeerActive
  activeQueries := k.activeQueries.trans h.activeQueries
  startedQueries := k.startedQueries.trans h.startedQueries
  started := k.started.trans h.started
  hasForkId := k.hasForkId.trans h.hasForkId

end SameQueries

theorem addSubnetQuery_same (d : Discovery) (subnet : Subnet) (minTtl : Option Instant)
    (retries : ℕ) : SameQueries d (d.addSubnetQuery subnet minTtl retries) := by
  rcases d.addSubnetQuery_cases subnet minTtl retries with
    ⟨-, h⟩ | ⟨-, front, query, back, -, -, h⟩ | ⟨-, -, h⟩ <;> rw [h] <;>
    exact ⟨rfl, rfl, rfl, rfl, rfl⟩

/-! ## Starting queries -/

/-- A query that starts. -/
def withQuery (d : Discovery) (query : ActiveQuery) : Discovery :=
  { d with
    activeQueries := d.activeQueries.insert d.startedQueries query
    startedQueries := d.startedQueries + 1 }

theorem withQuery_lookup (d : Discovery) (query : ActiveQuery) (k : ℕ) :
    (d.withQuery query).activeQueries.lookup k =
      if k = d.startedQueries then some query else d.activeQueries.lookup k :=
  Map.lookup_insert_eq _ _ _ _

theorem withQuery_fresh {query : ActiveQuery}
    (h : ∀ k, d.startedQueries ≤ k → d.activeQueries.lookup k = none) {k : ℕ}
    (hk : (d.withQuery query).startedQueries ≤ k) :
    (d.withQuery query).activeQueries.lookup k = none := by
  have hlt : d.startedQueries < k := hk
  rw [withQuery_lookup, if_neg (by omega)]
  exact h k (by omega)

/-- What `discover_peers` can do. -/
theorem discoverPeers_cases (d : Discovery) (targetPeers : ℕ) :
    d.discoverPeers targetPeers = d ∨
    (d.findPeerActive = false ∧ d.hasForkId = false ∧
      d.discoverPeers targetPeers = { d with findPeerActive := true }) ∨
    (d.findPeerActive = false ∧ d.started = true ∧ d.hasForkId = true ∧
      d.discoverPeers targetPeers = { d with findPeerActive := true }.withQuery
        ⟨.findPeers, min findNodeQueryClosestPeers targetPeers⟩) := by
  unfold discoverPeers startQuery
  cases hstarted : d.started with
  | false => exact .inl rfl
  | true =>
    cases hactive : d.findPeerActive with
    | true => exact .inl rfl
    | false =>
      cases hfork : d.hasForkId with
      | false => exact .inr (.inl ⟨rfl, rfl, by simp⟩)
      | true => exact .inr (.inr ⟨rfl, rfl, rfl, by simp [withQuery]⟩)

/-- The queries of a group that are still necessary. -/
def necessary (goodPeers : Subnet → ℕ) (group : List SubnetQuery) : List SubnetQuery :=
  group.filter fun query => decide (goodPeers query.subnet < targetSubnetPeers)

/-- What `start_subnet_query` can do. -/
theorem startSubnetQuery_cases (d : Discovery) (goodPeers : Subnet → ℕ)
    (group : List SubnetQuery) :
    ((necessary goodPeers group = [] ∨ d.hasForkId = false) ∧
      d.startSubnetQuery goodPeers group = d) ∨
    (necessary goodPeers group ≠ [] ∧ d.hasForkId = true ∧
      d.startSubnetQuery goodPeers group =
        d.withQuery ⟨.subnet (necessary goodPeers group), targetPeersForGroupedQuery⟩) := by
  unfold startSubnetQuery
  rw [← necessary]
  cases hqueries : necessary goodPeers group with
  | nil => exact .inl ⟨.inl rfl, rfl⟩
  | cons query queries =>
    cases hfork : d.hasForkId with
    | false =>
      refine .inl ⟨.inr rfl, ?_⟩
      unfold startQuery
      rw [hfork]
      rfl
    | true =>
      refine .inr ⟨by simp, rfl, ?_⟩
      unfold startQuery withQuery
      rw [hfork]
      rfl

/-- The queue plays no part in starting a query. -/
theorem startSubnetQuery_queuedQueries (d : Discovery) (goodPeers : Subnet → ℕ)
    (group : List SubnetQuery) :
    (d.startSubnetQuery goodPeers group).queuedQueries = d.queuedQueries := by
  rcases d.startSubnetQuery_cases goodPeers group with ⟨-, h⟩ | ⟨-, -, h⟩ <;> rw [h]
  rfl

theorem startSubnetQuery_withQueue (d : Discovery) (goodPeers : Subnet → ℕ)
    (group queue : List SubnetQuery) :
    { d with queuedQueries := queue }.startSubnetQuery goodPeers group =
      { d.startSubnetQuery goodPeers group with queuedQueries := queue } := by
  unfold startSubnetQuery startQuery
  dsimp only
  split_ifs <;> rfl

/-! ### The loop of `process_queue` -/

/-- The rounds of `process_queue`, by the groups that they start. -/
inductive Drains (goodPeers : Subnet → ℕ) :
    Discovery → List (List SubnetQuery) → Discovery → Prop
  | done {d : Discovery} (h : d.atCapacity = true ∨ d.queuedQueries = []) :
      Drains goodPeers d [] d
  | group {d d' : Discovery} {group queue : List SubnetQuery} {groups : List (List SubnetQuery)}
      (hfree : d.atCapacity = false) (hqueue : d.queuedQueries = group ++ queue)
      (hpos : 1 ≤ group.length) (hmax : group.length ≤ maxSubnetsInQuery)
      (hrest : Drains goodPeers
        ({ d with queuedQueries := queue }.startSubnetQuery goodPeers group) groups d') :
      Drains goodPeers d (group :: groups) d'

/-- Between two starts the loop only moves queries from the queue to the group. -/
private theorem drainQueue_drains (goodPeers : Subnet → ℕ) (queue : List SubnetQuery) :
    ∀ (group : List SubnetQuery) (d : Discovery), group.length < maxSubnetsInQuery →
      (group ≠ [] → queue ≠ [] ∧ d.atCapacity = false) →
      Drains goodPeers { d with queuedQueries := group ++ queue }
        (drainQueue goodPeers queue group d).2 (drainQueue goodPeers queue group d).1 := by
  induction queue with
  | nil =>
    intro group d _ hgroup
    obtain rfl : group = [] := by
      by_contra hne
      exact (hgroup hne).1 rfl
    exact .done (.inr rfl)
  | cons query queue ih =>
    intro group d hlen hgroup
    unfold drainQueue
    cases hcap : d.atCapacity with
    | true =>
      obtain rfl : group = [] := by
        by_contra hne
        have hfree := (hgroup hne).2
        rw [hcap] at hfree
        cases hfree
      exact .done (.inl hcap)
    | false =>
      have hlen' : (group ++ [query]).length = group.length + 1 := by simp
      rw [if_neg Bool.false_ne_true]
      dsimp only
      split
      · have hrest := ih [] (d.startSubnetQuery goodPeers (group ++ [query])) (by decide)
          (fun hne => absurd rfl hne)
        rw [List.nil_append, ← startSubnetQuery_withQueue] at hrest
        have hqueue : group ++ query :: queue = (group ++ [query]) ++ queue := by
          rw [List.append_assoc, List.singleton_append]
        exact .group hcap hqueue (by omega) (by omega) hrest
      · next hmore =>
        push Not at hmore
        have hrest := ih (group ++ [query]) d (by omega) fun _ => ⟨?_, hcap⟩
        · rwa [List.append_assoc, List.singleton_append] at hrest
        · rintro rfl
          exact hmore.2 rfl

/-- A call of `process_queue` drains the sanitized queue. -/
theorem processQueue_drains (d : Discovery) (goodPeers : Subnet → ℕ) (clock : Subnet → Instant) :
    Drains goodPeers { d with queuedQueries := d.sanitizedQueue clock }
      (d.processQueue goodPeers clock).2 (d.processQueue goodPeers clock).1 :=
  drainQueue_drains goodPeers (d.sanitizedQueue clock) [] d (by decide) fun hne => absurd rfl hne

/-! ## Completed queries -/

/-- A query that completed goes back to the queue. -/
def requeue (d : Discovery) (query : SubnetQuery) : Discovery :=
  d.addSubnetQuery query.subnet query.minTtl (query.retries + 1)

theorem requeue_same (qs : List SubnetQuery) (d : Discovery) :
    SameQueries d (qs.foldl requeue d) :=
  foldl_rel .refl (fun _ _ _ h k => h.trans k)
    (fun d q => d.addSubnetQuery_same q.subnet q.minTtl (q.retries + 1)) qs d

theorem cacheEnrs_eq (r : List FoundEnr) (d : Discovery) :
    ∃ enrs, r.foldl cacheEnr d = { d with cachedEnrs := enrs } := by
  induction r generalizing d with
  | nil => exact ⟨d.cachedEnrs, rfl⟩
  | cons found r ih =>
    obtain ⟨enrs, h⟩ := ih (d.cacheEnr found)
    exact ⟨enrs, h⟩

theorem mapSubnetQuery_fst (r : List FoundEnr) (qs : List SubnetQuery)
    (s : Discovery × Map PeerId (Option Instant)) :
    (qs.foldl (mapSubnetQuery r) s).1 = qs.foldl requeue s.1 := by
  induction qs generalizing s with
  | nil => rfl
  | cons q qs ih => exact ih (mapSubnetQuery r s q)

/-- The state in which an active query has ended. -/
def withoutQuery (d : Discovery) (query : ℕ) : Discovery :=
  { d with activeQueries := d.activeQueries.erase query }

theorem withoutQuery_lookup {query k : ℕ} {a : ActiveQuery}
    (h : (d.withoutQuery query).activeQueries.lookup k = some a) :
    d.activeQueries.lookup k = some a := by
  have herase : (d.activeQueries.erase query).lookup k = some a := h
  rw [Map.lookup_erase_eq] at herase
  split at herase
  · cases herase
  · exact herase

/-- What the completion of an active query can do. -/
theorem complete_cases {query : ℕ} {active : ActiveQuery}
    (h : d.activeQueries.lookup query = some active) (result : QueryResult) :
    (active.queryType = .findPeers ∧ ∃ enrs,
      d.complete query result =
        { d.withoutQuery query with findPeerActive := false, cachedEnrs := enrs }) ∨
    ∃ queries, active.queryType = .subnet queries ∧
      ((∃ e, result = .error e ∧ d.complete query result = d.withoutQuery query) ∨
        ∃ r enrs, result = .ok r ∧ d.complete query result =
          queries.foldl requeue { d.withoutQuery query with cachedEnrs := enrs }) := by
  obtain ⟨queryType, targetPeers⟩ := active
  unfold complete
  rw [h]
  cases queryType with
  | findPeers =>
    refine .inl ⟨rfl, ?_⟩
    cases result with
    | error e => exact ⟨d.cachedEnrs, rfl⟩
    | ok r =>
      cases r with
      | nil => exact ⟨d.cachedEnrs, rfl⟩
      | cons found r =>
        exact cacheEnrs_eq (found :: r) { d.withoutQuery query with findPeerActive := false }
  | subnet queries =>
    refine .inr ⟨queries, rfl, ?_⟩
    cases result with
    | error e => exact .inl ⟨e, rfl, rfl⟩
    | ok r =>
      cases r with
      | nil => exact .inr ⟨[], d.cachedEnrs, rfl, rfl⟩
      | cons found r =>
        obtain ⟨enrs, hcache⟩ := cacheEnrs_eq (found :: r) (d.withoutQuery query)
        refine .inr ⟨found :: r, enrs, rfl, ?_⟩
        rw [← hcache]
        exact mapSubnetQuery_fst (found :: r) queries ((found :: r).foldl cacheEnr _, ∅)

theorem complete_of_lookup_none {query : ℕ} (h : d.activeQueries.lookup query = none)
    (result : QueryResult) : d.complete query result = d := by
  unfold complete
  rw [h]

/-! ## Well-formed queues -/

/-- No subnet is queued twice, or twice in one query; a subnet query searches for something; retries
are bounded; the numbers of the queries to come are free. -/
structure Wf (d : Discovery) : Prop where
  distinct : (d.queuedQueries.map (·.subnet)).Nodup
  queuedRetries : ∀ q ∈ d.queuedQueries, q.retries ≤ maxDiscoveryRetry
  activeNonempty : ∀ k targetPeers, d.activeQueries.lookup k ≠ some ⟨.subnet [], targetPeers⟩
  activeDistinct : ∀ k targetPeers queries,
    d.activeQueries.lookup k = some ⟨.subnet queries, targetPeers⟩ →
      (queries.map (·.subnet)).Nodup
  activeRetries : ∀ k targetPeers queries,
    d.activeQueries.lookup k = some ⟨.subnet queries, targetPeers⟩ →
      ∀ q ∈ queries, q.retries ≤ maxDiscoveryRetry
  fresh : ∀ k, d.startedQueries ≤ k → d.activeQueries.lookup k = none

namespace Wf

theorem new (started hasForkId : Bool) : Wf (.new started hasForkId) where
  distinct := List.nodup_nil
  queuedRetries _ h := by cases h
  activeNonempty _ _ h := by cases h
  activeDistinct _ _ _ h := by cases h
  activeRetries _ _ _ h := by cases h
  fresh _ _ := rfl

/-- The queue changes, and queries may end. -/
theorem queue (h : Wf d)
    (hdistinct : (d'.queuedQueries.map (·.subnet)).Nodup)
    (hretries : ∀ q ∈ d'.queuedQueries, q.retries ≤ maxDiscoveryRetry)
    (hactive : ∀ k a, d'.activeQueries.lookup k = some a → d.activeQueries.lookup k = some a)
    (hstarted : d'.startedQueries = d.startedQueries) : Wf d' where
  distinct := hdistinct
  queuedRetries := hretries
  activeNonempty k targetPeers hk := h.activeNonempty k targetPeers (hactive k _ hk)
  activeDistinct k targetPeers queries hk := h.activeDistinct k targetPeers queries (hactive k _ hk)
  activeRetries k targetPeers queries hk := h.activeRetries k targetPeers queries (hactive k _ hk)
  fresh k hk := by
    cases hlookup : d'.activeQueries.lookup k with
    | none => rfl
    | some a =>
      rw [hstarted] at hk
      have hnone := h.fresh k hk
      rw [hactive k a hlookup] at hnone
      cases hnone

theorem addSubnetQuery (h : Wf d) (subnet : Subnet) (minTtl : Option Instant) (retries : ℕ) :
    Wf (d.addSubnetQuery subnet minTtl retries) := by
  rcases d.addSubnetQuery_cases subnet minTtl retries with
    ⟨-, hadd⟩ | ⟨hle, front, query, back, hqueue, -, hadd⟩ | ⟨hle, hother, hadd⟩ <;> rw [hadd]
  · exact h
  · have hdistinct := h.distinct
    have hretries := h.queuedRetries
    rw [hqueue] at hdistinct hretries
    refine h.queue ?_ ?_ (fun _ _ => id) rfl
    · rw [List.map_append, List.map_cons] at hdistinct ⊢
      exact hdistinct
    · intro q hq
      rcases List.mem_append.1 hq with hq | hq
      · exact hretries q (List.mem_append_left _ hq)
      · rcases List.mem_cons.1 hq with rfl | hq
        · exact hle
        · exact hretries q (List.mem_append_right _ (List.mem_cons_of_mem _ hq))
  · refine h.queue ?_ ?_ (fun _ _ => id) rfl
    · rw [List.map_append, List.nodup_append]
      refine ⟨h.distinct, List.nodup_singleton _, fun s hs t ht => ?_⟩
      obtain ⟨q, hq, rfl⟩ := List.mem_map.1 hs
      rw [List.map_singleton, List.mem_singleton] at ht
      exact ht ▸ hother q hq
    · intro q hq
      rcases List.mem_append.1 hq with hq | hq
      · exact h.queuedRetries q hq
      · rw [List.mem_singleton.1 hq]
        exact hle

/-- A query starts with some of the queries of the queue, or none. -/
theorem withQuery (h : Wf d) {queries : List SubnetQuery} {targetPeers : ℕ} (hne : queries ≠ [])
    (hdistinct : (queries.map (·.subnet)).Nodup)
    (hretries : ∀ q ∈ queries, q.retries ≤ maxDiscoveryRetry) :
    Wf (d.withQuery ⟨.subnet queries, targetPeers⟩) where
  distinct := h.distinct
  queuedRetries := h.queuedRetries
  activeNonempty k targetPeers hk := by
    rw [withQuery_lookup] at hk
    split at hk
    · cases hk
      exact hne rfl
    · exact h.activeNonempty k targetPeers hk
  activeDistinct k targetPeers queries hk := by
    rw [withQuery_lookup] at hk
    split at hk
    · cases hk
      exact hdistinct
    · exact h.activeDistinct k targetPeers queries hk
  activeRetries k targetPeers queries hk := by
    rw [withQuery_lookup] at hk
    split at hk
    · cases hk
      exact hretries
    · exact h.activeRetries k targetPeers queries hk
  fresh k hk := withQuery_fresh h.fresh hk

theorem withFindPeers (h : Wf d) (targetPeers : ℕ) :
    Wf (d.withQuery ⟨.findPeers, targetPeers⟩) where
  distinct := h.distinct
  queuedRetries := h.queuedRetries
  activeNonempty k targetPeers hk := by
    rw [withQuery_lookup] at hk
    split at hk
    · cases hk
    · exact h.activeNonempty k targetPeers hk
  activeDistinct k targetPeers queries hk := by
    rw [withQuery_lookup] at hk
    split at hk
    · cases hk
    · exact h.activeDistinct k targetPeers queries hk
  activeRetries k targetPeers queries hk := by
    rw [withQuery_lookup] at hk
    split at hk
    · cases hk
    · exact h.activeRetries k targetPeers queries hk
  fresh k hk := withQuery_fresh h.fresh hk

/-- Queries leave the queue. -/
theorem shorten (h : Wf d) {queue : List SubnetQuery} (hqueue : queue.Sublist d.queuedQueries) :
    Wf { d with queuedQueries := queue } :=
  h.queue (h.distinct.sublist (hqueue.map _)) (fun q hq => h.queuedRetries q (hqueue.mem hq))
    (fun _ _ => id) rfl

/-- A group leaves the queue and starts. -/
theorem startSubnetQuery (h : Wf d) {group queue : List SubnetQuery}
    (hqueue : d.queuedQueries = group ++ queue) (goodPeers : Subnet → ℕ) :
    Wf ({ d with queuedQueries := queue }.startSubnetQuery goodPeers group) := by
  have hrest : Wf { d with queuedQueries := queue } :=
    h.shorten (hqueue ▸ List.sublist_append_right group queue)
  have hgroup : (necessary goodPeers group).Sublist d.queuedQueries :=
    List.filter_sublist.trans (hqueue ▸ List.sublist_append_left group queue)
  rcases startSubnetQuery_cases { d with queuedQueries := queue } goodPeers group with
    ⟨-, hstart⟩ | ⟨hne, -, hstart⟩ <;> rw [hstart]
  · exact hrest
  · exact hrest.withQuery hne (h.distinct.sublist (hgroup.map _))
      fun q hq => h.queuedRetries q (hgroup.mem hq)

theorem drains {goodPeers : Subnet → ℕ} {groups : List (List SubnetQuery)}
    (hdrains : Drains goodPeers d groups d') (h : Wf d) : Wf d' := by
  induction hdrains with
  | done _ => exact h
  | group _ hqueue _ _ _ ih => exact ih (h.startSubnetQuery hqueue goodPeers)

theorem sanitized (h : Wf d) (clock : Subnet → Instant) :
    Wf { d with queuedQueries := d.sanitizedQueue clock } :=
  h.shorten List.filter_sublist

theorem withoutQuery (h : Wf d) (query : ℕ) : Wf (d.withoutQuery query) :=
  h.queue h.distinct h.queuedRetries (fun _ _ => withoutQuery_lookup) rfl

theorem requeue (queries : List SubnetQuery) (h : Wf d) :
    Wf (queries.foldl Discovery.requeue d) := by
  induction queries generalizing d with
  | nil => exact h
  | cons q queries ih => exact ih (h.addSubnetQuery q.subnet q.minTtl (q.retries + 1))

theorem congr (h : Wf d) (hqueue : d'.queuedQueries = d.queuedQueries)
    (hactive : d'.activeQueries = d.activeQueries)
    (hstarted : d'.startedQueries = d.startedQueries) : Wf d' :=
  h.queue (hqueue ▸ h.distinct) (hqueue ▸ h.queuedRetries) (fun _ _ hk => hactive ▸ hk) hstarted

theorem discoverPeers (h : Wf d) (targetPeers : ℕ) : Wf (d.discoverPeers targetPeers) := by
  rcases d.discoverPeers_cases targetPeers with hpeers | ⟨-, -, hpeers⟩ | ⟨-, -, -, hpeers⟩ <;>
    rw [hpeers]
  · exact h
  · exact h.congr rfl rfl rfl
  · have hflag : Wf { d with findPeerActive := true } := h.congr rfl rfl rfl
    exact hflag.withFindPeers _

theorem discoverSubnetPeers (h : Wf d) (subnets : List SubnetDiscovery) :
    Wf (d.discoverSubnetPeers subnets) := by
  unfold Discovery.discoverSubnetPeers
  split
  · exact h
  · next hstarted =>
    clear hstarted
    induction subnets generalizing d with
    | nil => exact h
    | cons s subnets ih => exact ih (h.addSubnetQuery s.subnet s.minTtl 0)

theorem complete (h : Wf d) (query : ℕ) (result : QueryResult) :
    Wf (d.complete query result) := by
  cases hlookup : d.activeQueries.lookup query with
  | none => rwa [complete_of_lookup_none hlookup]
  | some active =>
    have hwithout := h.withoutQuery query
    rcases complete_cases hlookup result with
      ⟨-, enrs, hdone⟩ | ⟨queries, -, ⟨e, -, hdone⟩ | ⟨r, enrs, -, hdone⟩⟩ <;> rw [hdone]
    · exact hwithout.congr rfl rfl rfl
    · exact hwithout
    · exact Wf.requeue queries (hwithout.congr rfl rfl rfl)

theorem step (h : Wf d) (op : DiscoveryOp) : Wf (d.step op) := by
  cases op with
  | discoverPeers targetPeers => exact h.discoverPeers targetPeers
  | discoverSubnetPeers subnets => exact h.discoverSubnetPeers subnets
  | processQueue goodPeers clock =>
    exact (h.sanitized clock).drains (d.processQueue_drains goodPeers clock)
  | complete query result => exact h.complete query result

end Wf

/-! ## The number of active queries -/

/-- The queries that are active, when the local ENR has a fork id. -/
structure Bounded (d : Discovery) : Prop where
  forkId : d.hasForkId = true
  subnetQueries : d.activeQueries.count (fun _ a => !a.isFindPeers) ≤ maxConcurrentSubnetQueries
  findPeers : d.activeQueries.count (fun _ a => a.isFindPeers) = d.findPeerActive.toNat

/-- The capacity counts the subnet queries. -/
theorem atCapacity_iff
    (h : d.activeQueries.count (fun _ a => a.isFindPeers) = d.findPeerActive.toNat) :
    d.atCapacity = true ↔
      maxConcurrentSubnetQueries ≤ d.activeQueries.count fun _ a => !a.isFindPeers := by
  have hsum := Map.count_add_count_not (fun _ (a : ActiveQuery) => a.isFindPeers) d.activeQueries
  unfold atCapacity
  rw [decide_eq_true_iff, ← hsum, h, Nat.add_sub_cancel_left]

namespace Bounded

theorem new (started : Bool) : Bounded (.new started true) := ⟨rfl, Nat.zero_le _, rfl⟩

theorem congr (h : Bounded d) (hsame : SameQueries d d') : Bounded d' where
  forkId := hsame.hasForkId.trans h.forkId
  subnetQueries := hsame.activeQueries ▸ h.subnetQueries
  findPeers := by rw [hsame.activeQueries, hsame.findPeerActive, h.findPeers]

/-- A subnet query starts only below the capacity. -/
theorem startSubnetQuery (h : Bounded d) (hnone : d.activeQueries.lookup d.startedQueries = none)
    (hfree : d.atCapacity = false) (goodPeers : Subnet → ℕ) (group : List SubnetQuery) :
    Bounded (d.startSubnetQuery goodPeers group) := by
  rcases d.startSubnetQuery_cases goodPeers group with ⟨-, hstart⟩ | ⟨-, -, hstart⟩ <;> rw [hstart]
  · exact h
  · have hlt : ¬ maxConcurrentSubnetQueries ≤
        d.activeQueries.count fun _ a => !a.isFindPeers := by
      rw [← atCapacity_iff h.findPeers, hfree]
      exact Bool.false_ne_true
    refine ⟨h.forkId, ?_, ?_⟩
    · show Map.count _ (d.activeQueries.insert _ _) ≤ _
      rw [Map.count_insert_new _ _ hnone]
      have hone : Bool.toNat (!ActiveQuery.isFindPeers
          ⟨.subnet (necessary goodPeers group), targetPeersForGroupedQuery⟩) = 1 := rfl
      omega
    · show Map.count _ (d.activeQueries.insert _ _) = _
      rw [Map.count_insert_new _ _ hnone]
      exact h.findPeers

theorem drains {goodPeers : Subnet → ℕ} {groups : List (List SubnetQuery)}
    (hdrains : Drains goodPeers d groups d') (hwf : Wf d) (h : Bounded d) : Bounded d' := by
  induction hdrains with
  | done _ => exact h
  | @group d d' group queue groups hfree hqueue _ _ _ ih =>
    refine ih (hwf.startSubnetQuery hqueue goodPeers) ?_
    have hrest : Bounded { d with queuedQueries := queue } := h.congr ⟨rfl, rfl, rfl, rfl, rfl⟩
    exact hrest.startSubnetQuery (hwf.fresh _ (Nat.le_refl _)) hfree goodPeers group

theorem discoverPeers (hwf : Wf d) (h : Bounded d) (targetPeers : ℕ) :
    Bounded (d.discoverPeers targetPeers) := by
  rcases d.discoverPeers_cases targetPeers with
    hpeers | ⟨-, hfork, -⟩ | ⟨hactive, -, -, hpeers⟩
  · rwa [hpeers]
  · rw [h.forkId] at hfork
    cases hfork
  · rw [hpeers]
    have hnone : d.activeQueries.lookup d.startedQueries = none := hwf.fresh _ (Nat.le_refl _)
    have hcount := h.findPeers
    rw [hactive] at hcount
    refine ⟨h.forkId, ?_, ?_⟩
    · show Map.count _ (d.activeQueries.insert _ _) ≤ _
      rw [Map.count_insert_new _ _ hnone]
      exact h.subnetQueries
    · show Map.count _ (d.activeQueries.insert _ _) = _
      rw [Map.count_insert_new _ _ hnone, hcount]
      rfl

theorem discoverSubnetPeers (h : Bounded d) (subnets : List SubnetDiscovery) :
    Bounded (d.discoverSubnetPeers subnets) := by
  unfold Discovery.discoverSubnetPeers
  split
  · exact h
  · exact h.congr (foldl_rel .refl (fun _ _ _ h k => h.trans k)
      (fun d s => d.addSubnetQuery_same s.subnet s.minTtl 0) subnets d)

theorem complete (h : Bounded d) (query : ℕ) (result : QueryResult) :
    Bounded (d.complete query result) := by
  cases hlookup : d.activeQueries.lookup query with
  | none => rwa [complete_of_lookup_none hlookup]
  | some active =>
    have hsubnets := Map.count_erase_of_lookup (fun _ (a : ActiveQuery) => !a.isFindPeers) hlookup
    have hpeers := Map.count_erase_of_lookup (fun _ (a : ActiveQuery) => a.isFindPeers) hlookup
    have hmax := h.subnetQueries
    have hcount := h.findPeers
    rcases complete_cases hlookup result with
      ⟨htype, enrs, hdone⟩ | ⟨queries, htype, hdone⟩
    · have hfind : active.isFindPeers = true := by
        unfold ActiveQuery.isFindPeers
        rw [htype]
      rw [hdone]
      rw [hfind] at hsubnets hpeers
      have hflag := d.findPeerActive.toNat_le
      refine ⟨h.forkId, ?_, ?_⟩
      · show Map.count _ (d.activeQueries.erase query) ≤ _
        simp only [Bool.not_true, Bool.toNat_false] at hsubnets
        omega
      · show Map.count _ (d.activeQueries.erase query) = 0
        simp only [Bool.toNat_true] at hpeers
        omega
    · have hfind : active.isFindPeers = false := by
        unfold ActiveQuery.isFindPeers
        rw [htype]
      rw [hfind] at hsubnets hpeers
      have hwithout : Bounded (d.withoutQuery query) := by
        refine ⟨h.forkId, ?_, ?_⟩
        · show Map.count _ (d.activeQueries.erase query) ≤ _
          omega
        · show Map.count _ (d.activeQueries.erase query) = d.findPeerActive.toNat
          simp only [Bool.toNat_false] at hpeers
          omega
      rcases hdone with ⟨e, -, hdone⟩ | ⟨r, enrs, -, hdone⟩ <;> rw [hdone]
      · exact hwithout
      · have hcache : Bounded { d.withoutQuery query with cachedEnrs := enrs } :=
          hwithout.congr ⟨rfl, rfl, rfl, rfl, rfl⟩
        exact hcache.congr (requeue_same queries _)

theorem step (hwf : Wf d) (h : Bounded d) (op : DiscoveryOp) : Bounded (d.step op) := by
  cases op with
  | discoverPeers targetPeers => exact discoverPeers hwf h targetPeers
  | discoverSubnetPeers subnets => exact h.discoverSubnetPeers subnets
  | processQueue goodPeers clock =>
    exact drains (d.processQueue_drains goodPeers clock) (hwf.sanitized clock)
      (h.congr ⟨rfl, rfl, rfl, rfl, rfl⟩)
  | complete query result => exact h.complete query result

end Bounded

/-! ## The queue and the active queries along a run -/

/-- What holds of the queue and the active queries of a started discovery. -/
structure QueriesBounded (d : Discovery) : Prop where
  distinct : (d.queuedQueries.map (·.subnet)).Nodup
  queuedRetries : ∀ q ∈ d.queuedQueries, q.retries ≤ maxDiscoveryRetry
  activeRetries : ∀ k targetPeers queries,
    d.activeQueries.lookup k = some ⟨.subnet queries, targetPeers⟩ →
      ∀ q ∈ queries, q.retries ≤ maxDiscoveryRetry
  subnetQueries : d.activeQueries.count (fun _ a => !a.isFindPeers) ≤ maxConcurrentSubnetQueries
  findPeers : d.activeQueries.count (fun _ a => a.isFindPeers) ≤ 1
  flag : d.findPeerActive = true ↔
    ∃ k a, d.activeQueries.lookup k = some a ∧ a.isFindPeers = true

theorem Bounded.queriesBounded (hwf : Wf d) (h : Bounded d) : QueriesBounded d where
  distinct := hwf.distinct
  queuedRetries := hwf.queuedRetries
  activeRetries := hwf.activeRetries
  subnetQueries := h.subnetQueries
  findPeers := h.findPeers ▸ d.findPeerActive.toNat_le
  flag := by
    rw [← Map.count_pos_iff (p := fun _ (a : ActiveQuery) => a.isFindPeers), h.findPeers]
    cases d.findPeerActive <;> simp

/-- What a call of `process_queue` passes to `start_subnet_query`: the queries of the sanitized
queue, in order and in groups, until it is at capacity or the queue is empty. -/
structure PassesGroups (d : Discovery) (goodPeers : Subnet → ℕ) (queue : List SubnetQuery)
    (groups : List (List SubnetQuery)) (d' : Discovery) : Prop where
  inOrder : groups.flatten ++ d'.queuedQueries = queue
  sizes : ∀ group ∈ groups, 1 ≤ group.length ∧ group.length ≤ maxSubnetsInQuery
  started : d' = { groups.foldl (fun d group => d.startSubnetQuery goodPeers group) d with
    queuedQueries := d'.queuedQueries }
  ends : d'.atCapacity = true ∨ d'.queuedQueries = []

theorem startGroups_withQueue (goodPeers : Subnet → ℕ) (groups : List (List SubnetQuery))
    (d : Discovery) (queue : List SubnetQuery) :
    groups.foldl (fun d group => d.startSubnetQuery goodPeers group)
        { d with queuedQueries := queue } =
      { groups.foldl (fun d group => d.startSubnetQuery goodPeers group) d with
        queuedQueries := queue } := by
  induction groups generalizing d with
  | nil => rfl
  | cons group groups ih =>
    rw [List.foldl_cons, List.foldl_cons, startSubnetQuery_withQueue, ih]

theorem Drains.passesGroups {goodPeers : Subnet → ℕ} {groups : List (List SubnetQuery)}
    (h : Drains goodPeers d groups d') : PassesGroups d goodPeers d.queuedQueries groups d' := by
  induction h with
  | done h =>
    exact ⟨rfl, fun group hgroup => absurd hgroup List.not_mem_nil, rfl, h⟩
  | @group d d' group queue groups _ hqueue hpos hmax _ ih =>
    obtain ⟨horder, hsizes, hstarted, hends⟩ := ih
    rw [startSubnetQuery_queuedQueries] at horder
    refine ⟨?_, ?_, ?_, hends⟩
    · rw [List.flatten_cons, List.append_assoc, horder, hqueue]
    · intro group' hmem
      rcases List.mem_cons.1 hmem with rfl | hmem
      · exact ⟨hpos, hmax⟩
      · exact hsizes group' hmem
    · rw [startSubnetQuery_withQueue, startGroups_withQueue] at hstarted
      exact hstarted

theorem processQueue_passesGroups (d : Discovery) (goodPeers : Subnet → ℕ)
    (clock : Subnet → Instant) :
    PassesGroups d goodPeers (d.sanitizedQueue clock) (d.processQueue goodPeers clock).2
      (d.processQueue goodPeers clock).1 := by
  obtain ⟨horder, hsizes, hstarted, hends⟩ :=
    (d.processQueue_drains goodPeers clock).passesGroups
  rw [startGroups_withQueue] at hstarted
  exact ⟨horder, hsizes, hstarted, hends⟩

/-- **The queue of subnet queries.** In every run of a started discovery whose ENR has a fork id,
no subnet is queued twice, every retry count is at most `MAX_DISCOVERY_RETRY`, at most
`MAX_CONCURRENT_SUBNET_QUERIES` subnet queries and one peer query are active, and the flag of the
peer query is exact; every call of `process_queue` passes each query that it pops to
`start_subnet_query` once, in order, in groups of 1 to `MAX_SUBNETS_IN_QUERY`, and ends at capacity
or with an empty queue. -/
theorem queue_invariants (ops : List DiscoveryOp) :
    Throughout step QueriesBounded (.new true true) ops ∧
    ∀ (d : Discovery) (goodPeers : Subnet → ℕ) (clock : Subnet → Instant),
      PassesGroups d goodPeers (d.sanitizedQueue clock) (d.processQueue goodPeers clock).2
        (d.processQueue goodPeers clock).1 := by
  have hinv : Throughout step (fun d => Wf d ∧ Bounded d) (.new true true) ops :=
    throughout_of_step (fun d op h => ⟨h.1.step op, h.2.step h.1 op⟩) ops
      ⟨.new true true, .new true⟩
  exact ⟨hinv.mono fun d h => h.2.queriesBounded h.1, processQueue_passesGroups⟩

end Discovery

end Consentry
