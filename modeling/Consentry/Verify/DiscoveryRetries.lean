import Consentry.Verify.DiscoveryQueue

/-!
# Retries of subnet queries

**`retries_bounded`**: a subnet that was asked for `k` times is searched for by at most
`k * (MAX_DISCOVERY_RETRY + 1)` queries. The potential behind it, `pending`, counts the starts that
the queue and the active queries can still lead to: a queued query with `r` retries allows
`MAX_DISCOVERY_RETRY + 1 - r` of them and an active one `MAX_DISCOVERY_RETRY - r`. A merge only
replaces the starts of the entry by those of the query that is merged into it.
-/

namespace Consentry

open Lib

/-- The subnets that an operation asks for. -/
def DiscoveryOp.requested : DiscoveryOp → List Subnet
  | .discoverSubnetPeers subnetsToDiscover => subnetsToDiscover.map (·.subnet)
  | _ => []

namespace Discovery

/-- The queries that an operation starts. -/
def startedBy (d : Discovery) (op : DiscoveryOp) : List ActiveQuery :=
  ((d.step op).activeQueries.entries.filter fun e => decide (d.startedQueries ≤ e.1)).map (·.2)

variable {d d' : Discovery}

section

variable (P : Subnet → Bool)

/-! ## The starts to come -/

/-- The starts that a query with this number of retries in the queue can lead to. -/
def startsLeft (subnet : Subnet) (retries : ℕ) : ℕ :=
  if P subnet then maxDiscoveryRetry + 1 - retries else 0

/-- The starts that the queries of a list can lead to, once they are back in the queue. -/
def startsBack (queries : List SubnetQuery) : ℕ :=
  (queries.map fun q => startsLeft P q.subnet (q.retries + 1)).sum

/-- The starts that an active query can lead to. -/
def activeStarts (a : ActiveQuery) : ℕ :=
  match a.queryType with
  | .subnet queries => startsBack P queries
  | .findPeers => 0

/-- The starts that the queries of a queue can lead to. -/
def queueStarts (queue : List SubnetQuery) : ℕ :=
  (queue.map fun q => startsLeft P q.subnet q.retries).sum

/-- The starts that the state can lead to. -/
def pending (d : Discovery) : ℕ :=
  queueStarts P d.queuedQueries + d.activeQueries.total fun _ a => activeStarts P a

/-- The queries that search for one of the subnets among those started from number `n` on. -/
def startsSince (n : ℕ) (d : Discovery) : ℕ :=
  d.activeQueries.count fun k a => decide (n ≤ k) && a.searches P

theorem countP_startedBy (d : Discovery) (op : DiscoveryOp) :
    (d.startedBy op).countP (·.searches P) = startsSince P d.startedQueries (d.step op) := by
  unfold startedBy startsSince Map.count
  rw [List.countP_map, List.countP_filter]
  congr 1
  funext e
  exact Bool.and_comm _ _

theorem queueStarts_append (queue queue' : List SubnetQuery) :
    queueStarts P (queue ++ queue') = queueStarts P queue + queueStarts P queue' := by
  unfold queueStarts
  rw [List.map_append, List.sum_append]

theorem queueStarts_sublist {queue queue' : List SubnetQuery} (h : queue.Sublist queue') :
    queueStarts P queue ≤ queueStarts P queue' := by
  unfold queueStarts
  exact (h.map _).sum_le_sum fun _ _ => Nat.zero_le _

theorem queueStarts_cons (q : SubnetQuery) (queue : List SubnetQuery) :
    queueStarts P (q :: queue) = startsLeft P q.subnet q.retries + queueStarts P queue := rfl

/-- A query that is added brings the starts of its own. -/
theorem pending_addSubnetQuery (d : Discovery) (subnet : Subnet) (minTtl : Option Instant)
    (retries : ℕ) :
    pending P (d.addSubnetQuery subnet minTtl retries) ≤
      pending P d + startsLeft P subnet retries := by
  rcases d.addSubnetQuery_cases subnet minTtl retries with
    ⟨-, hadd⟩ | ⟨-, front, query, back, hqueue, hquery, hadd⟩ | ⟨-, -, hadd⟩ <;> rw [hadd]
  · exact Nat.le_add_right _ _
  · unfold pending
    have hmerged : startsLeft P (merged query minTtl retries).subnet
        (merged query minTtl retries).retries = startsLeft P subnet retries := hquery ▸ rfl
    rw [hqueue]
    simp only [queueStarts_append, queueStarts_cons, hmerged]
    omega
  · unfold pending
    have hsingle : queueStarts P [⟨subnet, minTtl, retries⟩] = startsLeft P subnet retries := rfl
    simp only [queueStarts_append, hsingle]
    omega

theorem pending_requeue (queries : List SubnetQuery) (d : Discovery) :
    pending P (queries.foldl requeue d) ≤ pending P d + startsBack P queries := by
  induction queries generalizing d with
  | nil => exact Nat.le_add_right _ _
  | cons q queries ih =>
    have hfirst := pending_addSubnetQuery P d q.subnet q.minTtl (q.retries + 1)
    have hrest := ih (d.requeue q)
    have hcons : startsBack P (q :: queries) =
        startsLeft P q.subnet (q.retries + 1) + startsBack P queries := rfl
    rw [List.foldl_cons, hcons]
    unfold requeue at hrest hfirst ⊢
    omega

theorem pending_shorten {queue : List SubnetQuery} (h : queue.Sublist d.queuedQueries) :
    pending P { d with queuedQueries := queue } ≤ pending P d :=
  Nat.add_le_add_right (queueStarts_sublist P h) _

/-! ## Starts -/

/-- A start uses up a start of each query in the group. -/
theorem startsBack_add_le {group : List SubnetQuery}
    (hretries : ∀ q ∈ group, q.retries ≤ maxDiscoveryRetry) :
    startsBack P group + group.countP (fun q => P q.subnet) ≤ queueStarts P group := by
  induction group with
  | nil => exact Nat.le_refl _
  | cons q group ih =>
    have hrest := ih fun q' hq' => hretries q' (List.mem_cons_of_mem q hq')
    have hq := hretries q List.mem_cons_self
    have hcons : startsBack P (q :: group) =
        startsLeft P q.subnet (q.retries + 1) + startsBack P group := rfl
    rw [hcons, queueStarts_cons, List.countP_cons]
    unfold startsLeft
    split <;> omega

/-- A group that leaves the queue pays for the query that it starts. -/
theorem pending_startSubnetQuery (hwf : Wf d) {n : ℕ} (hn : n ≤ d.startedQueries)
    {group queue : List SubnetQuery} (hqueue : d.queuedQueries = group ++ queue)
    (goodPeers : Subnet → ℕ) :
    startsSince P n ({ d with queuedQueries := queue }.startSubnetQuery goodPeers group) +
        pending P ({ d with queuedQueries := queue }.startSubnetQuery goodPeers group) ≤
      startsSince P n d + pending P d := by
  have hfree : d.activeQueries.lookup d.startedQueries = none := hwf.fresh _ (Nat.le_refl _)
  have hall : queueStarts P d.queuedQueries = queueStarts P group + queueStarts P queue := by
    rw [hqueue, queueStarts_append]
  rcases startSubnetQuery_cases { d with queuedQueries := queue } goodPeers group with
    ⟨-, hstart⟩ | ⟨-, -, hstart⟩ <;> rw [hstart]
  · have hstarts : startsSince P n { d with queuedQueries := queue } = startsSince P n d := rfl
    rw [hstarts]
    unfold pending
    dsimp only
    omega
  · have hpaid : startsBack P (necessary goodPeers group) +
        (necessary goodPeers group).countP (fun q => P q.subnet) ≤
          queueStarts P (necessary goodPeers group) := by
      apply startsBack_add_le
      intro q hq
      apply hwf.queuedRetries
      rw [hqueue]
      exact List.mem_append_left _ (List.mem_of_mem_filter hq)
    have hsome : queueStarts P (necessary goodPeers group) ≤ queueStarts P group :=
      queueStarts_sublist P List.filter_sublist
    have hany : ((necessary goodPeers group).any fun q => P q.subnet).toNat ≤
        (necessary goodPeers group).countP fun q => P q.subnet := by
      cases hany : (necessary goodPeers group).any fun q => P q.subnet with
      | false => exact Nat.zero_le _
      | true =>
        obtain ⟨q, hq, hPq⟩ := List.any_eq_true.1 hany
        exact List.countP_pos_iff.2 ⟨q, hq, hPq⟩
    unfold startsSince pending withQuery
    dsimp only
    rw [Map.count_insert_new _ _ hfree, Map.total_insert_new _ _ hfree, decide_eq_true hn]
    have hback : activeStarts P
        ⟨.subnet (necessary goodPeers group), targetPeersForGroupedQuery⟩ =
          startsBack P (necessary goodPeers group) := rfl
    have hsearch : ActiveQuery.searches P
        ⟨.subnet (necessary goodPeers group), targetPeersForGroupedQuery⟩ =
          (necessary goodPeers group).any fun q => P q.subnet := rfl
    rw [hback, hsearch, Bool.true_and]
    omega

theorem pending_drains {goodPeers : Subnet → ℕ} {groups : List (List SubnetQuery)} {n : ℕ}
    (h : Drains goodPeers d groups d') (hwf : Wf d) (hn : n ≤ d.startedQueries) :
    startsSince P n d' + pending P d' ≤ startsSince P n d + pending P d := by
  induction h with
  | done _ => exact Nat.le_refl _
  | @group d d' group queue groups _ hqueue _ _ _ ih =>
    have hmore : d.startedQueries ≤
        ({ d with queuedQueries := queue }.startSubnetQuery goodPeers group).startedQueries := by
      rcases startSubnetQuery_cases { d with queuedQueries := queue } goodPeers group with
        ⟨-, hstart⟩ | ⟨-, -, hstart⟩ <;> rw [hstart]
      exact Nat.le_succ _
    have hrest := ih (hwf.startSubnetQuery hqueue goodPeers) (hn.trans hmore)
    exact hrest.trans (pending_startSubnetQuery P hwf hn hqueue goodPeers)

/-! ## Steps -/

/-- Nothing has started yet. -/
theorem startsSince_self (hwf : Wf d) : startsSince P d.startedQueries d = 0 := by
  by_contra hne
  obtain ⟨k, a, hk, ha⟩ := Map.count_pos_iff.1 (Nat.pos_of_ne_zero hne)
  rw [Bool.and_eq_true, decide_eq_true_iff] at ha
  rw [hwf.fresh k ha.1] at hk
  cases hk

theorem startsSince_congr {n : ℕ} (h : SameQueries d d') :
    startsSince P n d' = startsSince P n d := by
  unfold startsSince
  rw [h.activeQueries]

theorem pending_discoverPeers (hwf : Wf d) (targetPeers : ℕ) (n : ℕ) :
    startsSince P n (d.discoverPeers targetPeers) + pending P (d.discoverPeers targetPeers) =
      startsSince P n d + pending P d := by
  rcases d.discoverPeers_cases targetPeers with hpeers | ⟨-, -, hpeers⟩ | ⟨-, -, -, hpeers⟩ <;>
    rw [hpeers]
  · rfl
  · have hfree : d.activeQueries.lookup d.startedQueries = none := hwf.fresh _ (Nat.le_refl _)
    unfold startsSince pending withQuery
    dsimp only
    rw [Map.count_insert_new _ _ hfree, Map.total_insert_new _ _ hfree]
    unfold ActiveQuery.searches activeStarts
    rw [Bool.and_false]
    rfl

theorem pending_discoverSubnetPeers (subnets : List SubnetDiscovery) (n : ℕ) (d : Discovery) :
    startsSince P n (d.discoverSubnetPeers subnets) + pending P (d.discoverSubnetPeers subnets) ≤
      startsSince P n d + pending P d +
        (maxDiscoveryRetry + 1) * (subnets.map (·.subnet)).countP P := by
  unfold discoverSubnetPeers
  split
  · exact Nat.le_add_right _ _
  · next hstarted =>
    clear hstarted
    induction subnets generalizing d with
    | nil => exact Nat.le_refl _
    | cons s subnets ih =>
      have hrest := ih (d.addSubnetQuery s.subnet s.minTtl 0)
      have hfirst := pending_addSubnetQuery P d s.subnet s.minTtl 0
      rw [startsSince_congr P (d.addSubnetQuery_same s.subnet s.minTtl 0)] at hrest
      have hgain : startsLeft P s.subnet 0 =
          (maxDiscoveryRetry + 1) * if P s.subnet then 1 else 0 := by
        unfold startsLeft
        split <;> rfl
      rw [List.foldl_cons, List.map_cons, List.countP_cons, Nat.mul_add, ← hgain]
      omega

theorem pending_complete (query : ℕ) (result : QueryResult) (n : ℕ) :
    startsSince P n (d.complete query result) + pending P (d.complete query result) ≤
      startsSince P n d + pending P d := by
  cases hlookup : d.activeQueries.lookup query with
  | none => rw [complete_of_lookup_none hlookup]
  | some active =>
    have hstarts : startsSince P n (d.withoutQuery query) ≤ startsSince P n d := by
      have herase := Map.count_erase_of_lookup
        (fun k (a : ActiveQuery) => decide (n ≤ k) && a.searches P) hlookup
      unfold startsSince withoutQuery
      dsimp only
      omega
    have htotal : pending P (d.withoutQuery query) + activeStarts P active = pending P d := by
      have herase := Map.total_erase_of_lookup
        (fun _ (a : ActiveQuery) => activeStarts P a) hlookup
      unfold pending withoutQuery
      dsimp only
      omega
    rcases complete_cases hlookup result with
      ⟨-, enrs, hdone⟩ | ⟨queries, htype, ⟨e, -, hdone⟩ | ⟨r, enrs, -, hdone⟩⟩ <;> rw [hdone]
    · have hsame : startsSince P n (d.withoutQuery query) + pending P (d.withoutQuery query) ≤
          startsSince P n d + pending P d := by omega
      exact hsame
    · omega
    · have hback := pending_requeue P queries { d.withoutQuery query with cachedEnrs := enrs }
      have hcache : pending P { d.withoutQuery query with cachedEnrs := enrs } =
          pending P (d.withoutQuery query) := rfl
      have hactive : activeStarts P active = startsBack P queries := by
        unfold activeStarts
        rw [htype]
      rw [startsSince_congr P (requeue_same queries _)]
      have hsince : startsSince P n { d.withoutQuery query with cachedEnrs := enrs } =
          startsSince P n (d.withoutQuery query) := rfl
      omega

/-- What an operation starts is paid from the starts to come and from what it asks for. -/
theorem pending_step (hwf : Wf d) (op : DiscoveryOp) :
    (d.startedBy op).countP (·.searches P) + pending P (d.step op) ≤
      pending P d + (maxDiscoveryRetry + 1) * op.requested.countP P := by
  rw [countP_startedBy]
  have hself := startsSince_self P hwf
  cases op with
  | discoverPeers targetPeers =>
    have hstep := pending_discoverPeers P hwf targetPeers d.startedQueries
    unfold step
    dsimp only
    omega
  | discoverSubnetPeers subnets =>
    have hstep := pending_discoverSubnetPeers P subnets d.startedQueries d
    unfold step DiscoveryOp.requested
    dsimp only
    omega
  | processQueue goodPeers clock =>
    have hstep := pending_drains P (n := d.startedQueries) (d.processQueue_drains goodPeers clock)
      (hwf.sanitized clock) (Nat.le_refl _)
    have hsanitized : pending P { d with queuedQueries := d.sanitizedQueue clock } ≤ pending P d :=
      pending_shorten P List.filter_sublist
    have hsame : startsSince P d.startedQueries
        { d with queuedQueries := d.sanitizedQueue clock } = 0 := hself
    unfold step
    dsimp only
    omega
  | complete query result =>
    have hstep := pending_complete P (d := d) query result d.startedQueries
    unfold step
    dsimp only
    omega

/-- The queries of a kind that are started in a run, if they all search for one of the subnets. -/
theorem countP_started_le {kind : ActiveQuery → Bool}
    (hkind : ∀ d op, Wf d →
      (d.startedBy op).countP kind ≤ (d.startedBy op).countP (·.searches P))
    (started hasForkId : Bool) (ops : List DiscoveryOp) :
    (outputs step startedBy (.new started hasForkId) ops).countP kind ≤
      (ops.flatMap (·.requested)).countP P * (maxDiscoveryRetry + 1) := by
  have hstep : ∀ d op, Wf d → Wf (step d op) ∧
      (startedBy d op).countP kind + pending P (step d op) ≤
        pending P d + (maxDiscoveryRetry + 1) * op.requested.countP P := by
    intro d op hwf
    have hpaid := pending_step P hwf op
    have hle := hkind d op hwf
    exact ⟨hwf.step op, by omega⟩
  have hpaid := outputs_countP_le hstep ops (Wf.new started hasForkId)
  have hstart : pending P (.new started hasForkId) = 0 := rfl
  rw [hstart, Nat.zero_add, List.sum_map_mul_left] at hpaid
  rw [List.countP_flatMap, Nat.mul_comm]
  exact hpaid

end

/-- Every subnet query that is started searches for a subnet. -/
theorem searches_of_mem_startedBy (hwf : Wf d) {op : DiscoveryOp} {a : ActiveQuery}
    (ha : a ∈ d.startedBy op) (hsubnet : a.isFindPeers = false) :
    a.searches (fun _ => true) = true := by
  unfold startedBy at ha
  obtain ⟨⟨k, a⟩, he, rfl⟩ := List.mem_map.1 ha
  have hlookup := Map.mem_entries_iff.1 (List.mem_of_mem_filter he)
  obtain ⟨queryType, targetPeers⟩ := a
  cases queryType with
  | findPeers => cases hsubnet
  | subnet queries =>
    cases queries with
    | nil => exact absurd hlookup ((hwf.step op).activeNonempty k targetPeers)
    | cons q queries => rfl

/-- **Retries are bounded.** However the queries end and are merged, a subnet that was asked for
`k` times is searched for by at most `k * (MAX_DISCOVERY_RETRY + 1)` queries, and so many subnet
queries are started for all the requests together. -/
theorem retries_bounded (started hasForkId : Bool) (ops : List DiscoveryOp) :
    (∀ subnet, (outputs step startedBy (.new started hasForkId) ops).countP
        (·.searches fun s => s == subnet) ≤
      (ops.flatMap (·.requested)).count subnet * (maxDiscoveryRetry + 1)) ∧
    (outputs step startedBy (.new started hasForkId) ops).countP (fun a => !a.isFindPeers) ≤
      (ops.flatMap (·.requested)).length * (maxDiscoveryRetry + 1) := by
  constructor
  · intro subnet
    exact countP_started_le (· == subnet) (fun _ _ _ => Nat.le_refl _) started hasForkId ops
  · rw [← List.countP_true]
    refine countP_started_le (fun _ => true) (fun d op hwf => ?_) started hasForkId ops
    refine List.countP_mono_left fun a ha hsubnet => ?_
    rw [Bool.not_eq_true'] at hsubnet
    exact searches_of_mem_startedBy hwf ha hsubnet

end Discovery

end Consentry
