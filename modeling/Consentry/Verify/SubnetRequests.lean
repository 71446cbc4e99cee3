import Consentry.Verify.DiscoveryQueue

/-!
# Subnet requests

Each request for a subnet is followed through the queue and the active queries (`Tracked`).
**`requests_kept`**: no request is lost in the runs whose steps are all `Lossless`. Requests are
lost (`requests_lost`) when a query with retries left fails, which does not put its subnets back;
when a request for as long as possible is merged with one until a time, which replaces it; when an
older query that ends overwrites the retries of a newer request; and when the ENR has no fork id.
-/

namespace Consentry

open Lib

/-! ## Requests -/

/-- Where a request is, or how it ended. -/
inductive Place
  | queued
  | active (query : ℕ)
  /-- Its entry in the queue was out-dated at this time. -/
  | expired (now : Instant)
  /-- Its entry was dropped because of so many good peers on the subnet. -/
  | satisfied (peers : ℕ)
  | gone
  deriving DecidableEq, Repr

/-- A subnet request that was accepted, and the number of queries for its subnet that were started
since. -/
structure Request where
  subnet : Subnet
  minTtl : Option Instant
  place : Place
  started : ℕ
  deriving DecidableEq, Repr

namespace Discovery

def isQueued (d : Discovery) (subnet : Subnet) : Bool :=
  d.queuedQueries.any fun q => q.subnet == subnet

/-- The queries for the subnet that are active in `d'` and were started since `d`. -/
def startedFor (d d' : Discovery) (subnet : Subnet) : List ℕ :=
  (d'.activeQueries.entries.filter fun e =>
    decide (d.startedQueries ≤ e.1) && e.2.searches (· == subnet)).map (·.1)

end Discovery

namespace Request

/-- A request that has just been accepted. -/
def new (s : SubnetDiscovery) : Request := ⟨s.subnet, s.minTtl, .queued, 0⟩

/-- The request is where it should be, or there is a reason why it is not any more. -/
def accounted (d : Discovery) (r : Request) : Bool :=
  decide (maxDiscoveryRetry + 1 ≤ r.started) ||
  match r.place with
  | .queued => d.isQueued r.subnet
  | .active query => (d.activeQueries.lookup query).any (·.searches (· == r.subnet))
  | .expired now => r.minTtl.any fun ttl => decide (ttl < now)
  | .satisfied peers => decide (targetSubnetPeers ≤ peers)
  | .gone => false

/-- The request after a call of `process_queue`. -/
def processed (d : Discovery) (goodPeers : Subnet → ℕ) (clock : Subnet → Instant) (r : Request) :
    Request :=
  let d' := (d.processQueue goodPeers clock).1
  let startedFor := d.startedFor d' r.subnet
  { r with
    started := r.started + startedFor.length
    place := match r.place with
      | .queued =>
        if d'.isQueued r.subnet then .queued
        else match startedFor with
          | query :: _ => .active query
          | [] =>
            if !(d.sanitizedQueue clock).any (fun q => q.subnet == r.subnet) then
              .expired (clock r.subnet)
            else if targetSubnetPeers ≤ goodPeers r.subnet then .satisfied (goodPeers r.subnet)
            else .gone
      | place => place }

/-- The request after a query has ended. -/
def completed (d : Discovery) (query : ℕ) (result : QueryResult) (r : Request) : Request :=
  if r.place = .active query then
    match result with
    | .ok _ =>
      { r with place := if (d.complete query result).isQueued r.subnet then .queued else .gone }
    | .error _ => { r with place := .gone }
  else r

/-- The request after an operation. -/
def after (d : Discovery) (op : DiscoveryOp) (r : Request) : Request :=
  match op with
  | .processQueue goodPeers clock => r.processed d goodPeers clock
  | .complete query result => r.completed d query result
  | .discoverPeers _ | .discoverSubnetPeers _ => r

end Request

/-- The requests that an operation makes. -/
def Discovery.accepted (d : Discovery) : DiscoveryOp → List Request
  | .discoverSubnetPeers subnetsToDiscover =>
    if d.started then subnetsToDiscover.map .new else []
  | _ => []

/-- Discovery with the requests that it has accepted. -/
structure Tracked where
  discovery : Discovery
  requests : List Request

def Tracked.step (t : Tracked) (op : DiscoveryOp) : Tracked where
  discovery := t.discovery.step op
  requests := t.requests.map (·.after t.discovery op) ++ t.discovery.accepted op

/-! ## Steps that lose no request -/

/-- A query that is added can be merged into this entry: both expire or neither does, and the
retries do not go up. -/
def SubnetQuery.MergesInto (query entry : SubnetQuery) : Prop :=
  query.minTtl.isSome = entry.minTtl.isSome ∧ query.retries ≤ entry.retries

instance (query entry : SubnetQuery) : Decidable (query.MergesInto entry) :=
  inferInstanceAs (Decidable (_ ∧ _))

namespace Discovery

/-- Queries that can be added one after the other, those with too many retries apart. -/
def Mergeable (d : Discovery) (queries : List SubnetQuery) : Prop :=
  (∀ q ∈ queries, q.retries ≤ maxDiscoveryRetry →
    ∀ entry ∈ d.queuedQueries, entry.subnet = q.subnet → q.MergesInto entry) ∧
  queries.Pairwise fun entry q =>
    q.retries ≤ maxDiscoveryRetry → entry.subnet = q.subnet → q.MergesInto entry

instance (d : Discovery) (queries : List SubnetQuery) : Decidable (d.Mergeable queries) :=
  inferInstanceAs (Decidable (_ ∧ _))

/-- The subnets that an active query searches for. -/
def group (d : Discovery) (query : ℕ) : List SubnetQuery :=
  match d.activeQueries.lookup query with
  | some ⟨.subnet queries, _⟩ => queries
  | _ => []

/-- A query for a request. -/
def requestQuery (s : SubnetDiscovery) : SubnetQuery := ⟨s.subnet, s.minTtl, 0⟩

/-- A query that is tried again. -/
def retried (q : SubnetQuery) : SubnetQuery := { q with retries := q.retries + 1 }

/-- The step loses no request: what it adds can be merged, nothing is taken from the queue to be
started without a fork id, and no query with retries left fails. -/
def Lossless (d : Discovery) : DiscoveryOp → Prop
  | .discoverPeers _ => True
  | .discoverSubnetPeers subnetsToDiscover =>
    d.started = true → d.Mergeable (subnetsToDiscover.map requestQuery)
  | .processQueue goodPeers clock =>
    d.hasForkId = true ∨ ∀ q ∈ d.sanitizedQueue clock, targetSubnetPeers ≤ goodPeers q.subnet
  | .complete query (.ok _) => d.Mergeable ((d.group query).map retried)
  | .complete query (.error _) => ∀ q ∈ d.group query, maxDiscoveryRetry ≤ q.retries

instance (d : Discovery) (op : DiscoveryOp) : Decidable (d.Lossless op) :=
  match op with
  | .discoverPeers _ => isTrue trivial
  | .discoverSubnetPeers _ => inferInstanceAs (Decidable (_ → _))
  | .processQueue _ _ => inferInstanceAs (Decidable (_ ∨ _))
  | .complete _ (.ok _) => inferInstanceAs (Decidable (d.Mergeable _))
  | .complete _ (.error _) => inferInstanceAs (Decidable (∀ q ∈ _, _))

/-! ## What an entry stands for -/

/-- An entry that lives this long expires no earlier than the request. -/
def Carries : Option Instant → Option Instant → Prop
  | none, none => True
  | some ttl, some entryTtl => ttl ≤ entryTtl
  | _, _ => False

namespace Carries

variable {ttl entryTtl minTtl : Option Instant}

theorem refl (ttl : Option Instant) : Carries ttl ttl := by
  cases ttl with
  | none => exact trivial
  | some t => exact Nat.le_refl t

theorem trans (h : Carries ttl minTtl) (k : Carries minTtl entryTtl) : Carries ttl entryTtl := by
  cases minTtl with
  | none =>
    cases ttl with
    | none => exact k
    | some t => exact h.elim
  | some t' =>
    cases entryTtl with
    | none => exact k.elim
    | some entryT =>
      cases ttl with
      | none => exact h.elim
      | some t => exact Nat.le_trans h k

/-- Of two times a merge keeps the later one. -/
theorem merge_some (t t' : Instant) :
    (if minTtlLt (some t) (some t') then some t' else some t) = some (max t t') := by
  have hiff : minTtlLt (some t) (some t') = true ↔ t < t' := decide_eq_true_iff
  rcases Nat.lt_or_ge t t' with hlt | hge
  · rw [if_pos (hiff.2 hlt), Nat.max_eq_right (Nat.le_of_lt hlt)]
  · rw [if_neg fun h => absurd (hiff.1 h) (Nat.not_lt.2 hge), Nat.max_eq_left hge]

/-- What the entry stood for before a merge. -/
theorem merge_left (h : Carries ttl entryTtl) (hsame : minTtl.isSome = entryTtl.isSome) :
    Carries ttl (if minTtlLt entryTtl minTtl then minTtl else entryTtl) := by
  cases entryTtl with
  | none =>
    cases minTtl with
    | none => exact h
    | some t' => cases hsame
  | some entryT =>
    cases minTtl with
    | none => cases hsame
    | some t' =>
      cases ttl with
      | none => exact h.elim
      | some t =>
        rw [merge_some]
        exact Nat.le_trans h (Nat.le_max_left entryT t')

/-- The request that is merged. -/
theorem merge_right (hsame : minTtl.isSome = entryTtl.isSome) :
    Carries minTtl (if minTtlLt entryTtl minTtl then minTtl else entryTtl) := by
  cases entryTtl with
  | none =>
    cases minTtl with
    | none => exact trivial
    | some t' => cases hsame
  | some entryT =>
    cases minTtl with
    | none => cases hsame
    | some t' =>
      rw [merge_some]
      exact Nat.le_max_right entryT t'

/-- An entry that is out-dated stands for requests that are. -/
theorem expired {q : SubnetQuery} {now : Instant} (h : Carries ttl q.minTtl)
    (hexpired : q.expired now = true) : ttl.any (fun t => decide (t < now)) = true := by
  unfold SubnetQuery.expired at hexpired
  cases hq : q.minTtl with
  | none =>
    rw [hq] at hexpired
    cases hexpired
  | some entryT =>
    rw [hq] at h hexpired
    cases ttl with
    | none => exact h.elim
    | some t =>
      have hle : t ≤ entryT := h
      have hlt : entryT < now := of_decide_eq_true hexpired
      exact decide_eq_true (Nat.lt_of_le_of_lt hle hlt)

end Carries

/-- The queue has an entry of the subnet that stands for a request and has no more than this number
of retries. -/
def Holds (queue : List SubnetQuery) (subnet : Subnet) (ttl : Option Instant)
    (retries : ℕ) : Prop :=
  ∃ q ∈ queue, q.subnet = subnet ∧ Carries ttl q.minTtl ∧ q.retries ≤ retries

variable {d d' : Discovery} {subnet : Subnet} {ttl : Option Instant} {retries : ℕ}

theorem isQueued_iff : d.isQueued subnet = true ↔ ∃ q ∈ d.queuedQueries, q.subnet = subnet := by
  unfold isQueued
  simp

theorem Holds.isQueued (h : Holds d.queuedQueries subnet ttl retries) :
    d.isQueued subnet = true := by
  obtain ⟨q, hq, hsubnet, -⟩ := h
  exact isQueued_iff.2 ⟨q, hq, hsubnet⟩

/-! ### Adding queries -/

/-- The queries are added one after the other. -/
def addQueries (d : Discovery) (queries : List SubnetQuery) : Discovery :=
  queries.foldl (fun d q => d.addSubnetQuery q.subnet q.minTtl q.retries) d

theorem discoverSubnetPeers_eq (hstarted : d.started = true) (subnets : List SubnetDiscovery) :
    d.discoverSubnetPeers subnets = d.addQueries (subnets.map requestQuery) := by
  unfold discoverSubnetPeers addQueries
  rw [hstarted, List.foldl_map]
  rfl

/-- A query that merges into the entry of its subnet takes nothing from what the queue holds. -/
theorem Holds.addSubnetQuery {q : SubnetQuery} (h : Holds d.queuedQueries subnet ttl retries)
    (hmerge : q.retries ≤ maxDiscoveryRetry →
      ∀ entry ∈ d.queuedQueries, entry.subnet = q.subnet → q.MergesInto entry) :
    Holds (d.addSubnetQuery q.subnet q.minTtl q.retries).queuedQueries subnet ttl retries := by
  obtain ⟨held, hheld, hsubnet, hcarries, hretries⟩ := h
  rcases d.addSubnetQuery_cases q.subnet q.minTtl q.retries with
    ⟨-, hadd⟩ | ⟨hle, front, entry, back, hqueue, hentry, hadd⟩ | ⟨-, -, hadd⟩ <;> rw [hadd]
  · exact ⟨held, hheld, hsubnet, hcarries, hretries⟩
  · have hmem : entry ∈ d.queuedQueries := by
      rw [hqueue]
      exact List.mem_append_right _ List.mem_cons_self
    obtain ⟨hsome, hless⟩ := hmerge hle entry hmem hentry
    rw [hqueue] at hheld
    rcases List.mem_append.1 hheld with hfront | hback
    · exact ⟨held, List.mem_append_left _ hfront, hsubnet, hcarries, hretries⟩
    · rcases List.mem_cons.1 hback with rfl | hback
      · exact ⟨merged held q.minTtl q.retries, List.mem_append_right _ List.mem_cons_self, hsubnet,
          hcarries.merge_left hsome, hless.trans hretries⟩
      · exact ⟨held, List.mem_append_right _ (List.mem_cons_of_mem _ hback), hsubnet, hcarries,
          hretries⟩
  · exact ⟨held, List.mem_append_left _ hheld, hsubnet, hcarries, hretries⟩

/-- The queue holds what is added. -/
theorem holds_addSubnetQuery {q : SubnetQuery} (hle : q.retries ≤ maxDiscoveryRetry)
    (hmerge : ∀ entry ∈ d.queuedQueries, entry.subnet = q.subnet → q.MergesInto entry) :
    Holds (d.addSubnetQuery q.subnet q.minTtl q.retries).queuedQueries q.subnet q.minTtl
      q.retries := by
  rcases d.addSubnetQuery_cases q.subnet q.minTtl q.retries with
    ⟨hlt, -⟩ | ⟨-, front, entry, back, hqueue, hentry, hadd⟩ | ⟨-, -, hadd⟩
  · omega
  · rw [hadd]
    have hmem : entry ∈ d.queuedQueries := by
      rw [hqueue]
      exact List.mem_append_right _ List.mem_cons_self
    exact ⟨merged entry q.minTtl q.retries, List.mem_append_right _ List.mem_cons_self, hentry,
      Carries.merge_right (hmerge entry hmem hentry).1, Nat.le_refl _⟩
  · rw [hadd]
    exact ⟨_, List.mem_append_right _ List.mem_cons_self, rfl, .refl _, Nat.le_refl _⟩

theorem Mergeable.tail {q : SubnetQuery} {queries : List SubnetQuery}
    (h : d.Mergeable (q :: queries)) :
    (d.addSubnetQuery q.subnet q.minTtl q.retries).Mergeable queries := by
  obtain ⟨hqueued, hlater⟩ := h
  obtain ⟨hfirst, hrest⟩ := List.pairwise_cons.1 hlater
  refine ⟨fun q' hq' hle' entry' hentry' hsubnet => ?_, hrest⟩
  have hold : ∀ entry ∈ d.queuedQueries, entry.subnet = q'.subnet → q'.MergesInto entry :=
    hqueued q' (List.mem_cons_of_mem q hq') hle'
  rcases d.addSubnetQuery_cases q.subnet q.minTtl q.retries with
    ⟨-, hadd⟩ | ⟨hle, front, entry, back, hqueue, hentry, hadd⟩ | ⟨-, -, hadd⟩ <;>
    rw [hadd] at hentry'
  · exact hold entry' hentry' hsubnet
  · rw [hqueue] at hold
    rcases List.mem_append.1 hentry' with hfront | hback
    · exact hold entry' (List.mem_append_left _ hfront) hsubnet
    · rcases List.mem_cons.1 hback with rfl | hback
      · -- the entry that `q` was merged into
        have hsame : q.subnet = q'.subnet := hentry.symm.trans hsubnet
        obtain ⟨hsome, hless⟩ := hfirst q' hq' hle' hsame
        have hentrySome := (hold entry (List.mem_append_right _ List.mem_cons_self) hsubnet).1
        refine ⟨?_, hless⟩
        unfold merged
        dsimp only
        split
        · exact hsome
        · exact hentrySome
      · exact hold entry' (List.mem_append_right _ (List.mem_cons_of_mem _ hback)) hsubnet
  · rcases List.mem_append.1 hentry' with hentry' | hentry'
    · exact hold entry' hentry' hsubnet
    · obtain rfl := List.mem_singleton.1 hentry'
      exact hfirst q' hq' hle' hsubnet

theorem Holds.addQueries {queries : List SubnetQuery} (hmerge : d.Mergeable queries)
    (h : Holds d.queuedQueries subnet ttl retries) :
    Holds (d.addQueries queries).queuedQueries subnet ttl retries := by
  induction queries generalizing d with
  | nil => exact h
  | cons q queries ih =>
    exact ih hmerge.tail (h.addSubnetQuery (hmerge.1 q List.mem_cons_self))

theorem holds_addQueries {queries : List SubnetQuery} (hmerge : d.Mergeable queries)
    {q : SubnetQuery} (hq : q ∈ queries) (hle : q.retries ≤ maxDiscoveryRetry) :
    Holds (d.addQueries queries).queuedQueries q.subnet q.minTtl q.retries := by
  induction queries generalizing d with
  | nil => cases hq
  | cons first queries ih =>
    rcases List.mem_cons.1 hq with rfl | hq
    · have hfirst := holds_addSubnetQuery hle (hmerge.1 q List.mem_cons_self hle)
      have hrest := Holds.addQueries hmerge.tail hfirst
      exact hrest
    · exact ih hmerge.tail hq

/-! ### The active queries -/

theorem group_of_lookup {query targetPeers : ℕ} {queries : List SubnetQuery}
    (h : d.activeQueries.lookup query = some ⟨.subnet queries, targetPeers⟩) :
    d.group query = queries := by
  unfold group
  rw [h]

theorem lookup_of_mem_group {query : ℕ} {q : SubnetQuery} (h : q ∈ d.group query) :
    ∃ targetPeers, d.activeQueries.lookup query = some ⟨.subnet (d.group query), targetPeers⟩ := by
  unfold group at h ⊢
  cases hlookup : d.activeQueries.lookup query with
  | none =>
    rw [hlookup] at h
    cases h
  | some a =>
    obtain ⟨queryType, targetPeers⟩ := a
    cases queryType with
    | subnet queries => exact ⟨targetPeers, rfl⟩
    | findPeers =>
      rw [hlookup] at h
      cases h

theorem group_congr {query : ℕ}
    (h : d'.activeQueries.lookup query = d.activeQueries.lookup query) :
    d'.group query = d.group query := by
  unfold group
  rw [h]

theorem mem_startedFor {query : ℕ} : query ∈ d.startedFor d' subnet ↔
    d.startedQueries ≤ query ∧ ∃ q ∈ d'.group query, q.subnet = subnet := by
  unfold startedFor
  rw [List.mem_map]
  constructor
  · rintro ⟨⟨k, a⟩, he, rfl⟩
    obtain ⟨hentry, hstarted⟩ := List.mem_filter.1 he
    rw [Bool.and_eq_true, decide_eq_true_iff] at hstarted
    obtain ⟨queryType, targetPeers⟩ := a
    cases queryType with
    | findPeers => cases hstarted.2
    | subnet queries =>
      obtain ⟨q, hq, hsame⟩ := List.any_eq_true.1 hstarted.2
      refine ⟨hstarted.1, q, ?_, eq_of_beq hsame⟩
      rwa [group_of_lookup (Map.mem_entries_iff.1 hentry)]
  · rintro ⟨hle, q, hq, rfl⟩
    obtain ⟨targetPeers, hlookup⟩ := lookup_of_mem_group hq
    refine ⟨⟨query, _⟩, List.mem_filter.2 ⟨Map.mem_entries_iff.2 hlookup, ?_⟩, rfl⟩
    rw [Bool.and_eq_true, decide_eq_true_iff]
    exact ⟨hle, List.any_eq_true.2 ⟨q, hq, beq_self_eq_true _⟩⟩

namespace Drains

variable {goodPeers : Subnet → ℕ} {groups : List (List SubnetQuery)}

/-- The queries that are active stay active. -/
theorem lookup_eq (h : Drains goodPeers d groups d') (hwf : Wf d) {k : ℕ}
    (hk : k < d.startedQueries) : d'.activeQueries.lookup k = d.activeQueries.lookup k := by
  induction h with
  | done _ => rfl
  | @group d d' group queue groups _ hqueue _ _ _ ih =>
    have hwf' := hwf.startSubnetQuery hqueue goodPeers
    rcases startSubnetQuery_cases { d with queuedQueries := queue } goodPeers group with
      ⟨-, hstart⟩ | ⟨-, -, hstart⟩ <;> rw [hstart] at ih hwf'
    · exact ih hwf' hk
    · rw [ih hwf' (Nat.lt_succ_of_lt hk), withQuery_lookup, if_neg (Nat.ne_of_lt hk)]

theorem queue_subset (h : Drains goodPeers d groups d') {q : SubnetQuery}
    (hq : q ∈ d'.queuedQueries) : q ∈ d.queuedQueries := by
  rw [← h.passesGroups.inOrder]
  exact List.mem_append_right _ hq

/-- Where an entry of the queue can be after the loop. -/
theorem follow (h : Drains goodPeers d groups d') (hwf : Wf d) {q : SubnetQuery}
    (hq : q ∈ d.queuedQueries) :
    q ∈ d'.queuedQueries ∨ (∃ k, d.startedQueries ≤ k ∧ q ∈ d'.group k) ∨
      targetSubnetPeers ≤ goodPeers q.subnet ∨ d.hasForkId = false := by
  induction h with
  | done _ => exact .inl hq
  | @group d d' group queue groups _ hqueue _ _ hrest ih =>
    have hwf' := hwf.startSubnetQuery hqueue goodPeers
    rw [hqueue] at hq
    rcases List.mem_append.1 hq with hq | hq
    · by_cases hpeers : targetSubnetPeers ≤ goodPeers q.subnet
      · exact .inr (.inr (.inl hpeers))
      · have hmem : q ∈ necessary goodPeers group :=
          List.mem_filter.2 ⟨hq, decide_eq_true (Nat.lt_of_not_le hpeers)⟩
        rcases startSubnetQuery_cases { d with queuedQueries := queue } goodPeers group with
          ⟨hnone | hfork, -⟩ | ⟨-, -, hstart⟩
        · rw [hnone] at hmem
          cases hmem
        · exact .inr (.inr (.inr hfork))
        · rw [hstart] at hrest hwf'
          have hlookup := hrest.lookup_eq hwf' (Nat.lt_succ_self _)
          rw [withQuery_lookup, if_pos rfl] at hlookup
          exact .inr (.inl ⟨d.startedQueries, Nat.le_refl _, by rwa [group_of_lookup hlookup]⟩)
    · have hfollow := ih hwf' (by rwa [startSubnetQuery_queuedQueries])
      rcases startSubnetQuery_cases { d with queuedQueries := queue } goodPeers group with
        ⟨-, hstart⟩ | ⟨-, -, hstart⟩ <;> rw [hstart] at hfollow
      · exact hfollow
      · rcases hfollow with hleft | ⟨k, hk, hgroup⟩ | hout
        · exact .inl hleft
        · exact .inr (.inl ⟨k, Nat.le_of_succ_le hk, hgroup⟩)
        · exact .inr (.inr hout)

/-- What the loop starts comes from the queue. -/
theorem origin (h : Drains goodPeers d groups d') (hwf : Wf d) {q : SubnetQuery} {k : ℕ}
    (hk : d.startedQueries ≤ k) (hq : q ∈ d'.group k) : q ∈ d.queuedQueries := by
  induction h with
  | @done d _ =>
    obtain ⟨targetPeers, hlookup⟩ := lookup_of_mem_group hq
    rw [hwf.fresh k hk] at hlookup
    cases hlookup
  | @group d d' group queue groups _ hqueue _ _ hrest ih =>
    have hwf' := hwf.startSubnetQuery hqueue goodPeers
    rw [startSubnetQuery_queuedQueries] at ih
    rw [hqueue]
    rcases startSubnetQuery_cases { d with queuedQueries := queue } goodPeers group with
      ⟨-, hstart⟩ | ⟨-, -, hstart⟩ <;> rw [hstart] at hrest hwf' ih
    · exact List.mem_append_right _ (ih hwf' hk hq)
    · rcases Nat.lt_or_eq_of_le hk with hlt | rfl
      · exact List.mem_append_right _ (ih hwf' hlt hq)
      · have hlookup := hrest.lookup_eq hwf' (Nat.lt_succ_self _)
        rw [withQuery_lookup, if_pos rfl] at hlookup
        rw [group_of_lookup hlookup] at hq
        exact List.mem_append_left _ (List.mem_of_mem_filter hq)

end Drains

end Discovery

/-! ## Requests that are kept -/

open Discovery

namespace Request

variable {d d' : Discovery} {r : Request}

/-- The entry or the query that stands for the request was started no less often since than it was
tried again. -/
def Kept (d : Discovery) (r : Request) : Prop :=
  maxDiscoveryRetry + 1 ≤ r.started ∨
  match r.place with
  | .queued => Holds d.queuedQueries r.subnet r.minTtl r.started
  | .active query => ∃ q ∈ d.group query,
      q.subnet = r.subnet ∧ Carries r.minTtl q.minTtl ∧ q.retries + 1 ≤ r.started
  | .expired now => r.minTtl.any (fun ttl => decide (ttl < now)) = true
  | .satisfied peers => targetSubnetPeers ≤ peers
  | .gone => False

theorem Kept.accounted (h : r.Kept d) : r.accounted d = true := by
  obtain ⟨subnet, minTtl, place, started⟩ := r
  unfold Request.accounted
  rw [Bool.or_eq_true, decide_eq_true_iff]
  rcases h with hstarted | h
  · exact .inl hstarted
  · refine .inr ?_
    cases place with
    | queued => exact h.isQueued
    | active query =>
      obtain ⟨q, hq, hsubnet, -⟩ := h
      obtain ⟨targetPeers, hlookup⟩ := lookup_of_mem_group hq
      dsimp only
      rw [hlookup]
      exact List.any_eq_true.2 ⟨q, hq, beq_iff_eq.2 hsubnet⟩
    | expired now => exact h
    | satisfied peers => exact decide_eq_true h
    | gone => exact h.elim

/-- Nothing happens to the queue's hold on the request, and the active queries stay. -/
theorem Kept.congr (h : r.Kept d)
    (hqueue : ∀ {subnet ttl retries}, Holds d.queuedQueries subnet ttl retries →
      Holds d'.queuedQueries subnet ttl retries)
    (hgroup : ∀ query, r.place = .active query → d'.group query = d.group query) : r.Kept d' := by
  obtain ⟨subnet, minTtl, place, started⟩ := r
  refine h.imp_right fun h => ?_
  cases place with
  | queued => exact hqueue h
  | active query =>
    dsimp only
    rw [hgroup query rfl]
    exact h
  | expired now => exact h
  | satisfied peers => exact h
  | gone => exact h

/-- Queries that can be merged are added. -/
theorem Kept.addQueries (h : r.Kept d) {queries : List SubnetQuery}
    (hmerge : d.Mergeable queries) : r.Kept (d.addQueries queries) := by
  refine h.congr (fun hold => hold.addQueries hmerge) fun query _ => group_congr ?_
  have hsame : SameQueries d (d.addQueries queries) :=
    foldl_rel .refl (fun _ _ _ h k => h.trans k)
      (fun d q => d.addSubnetQuery_same q.subnet q.minTtl q.retries) queries d
  rw [hsame.activeQueries]

theorem Kept.discoverPeers (hwf : Wf d) (h : r.Kept d) (targetPeers : ℕ) :
    r.Kept (d.discoverPeers targetPeers) := by
  rcases d.discoverPeers_cases targetPeers with hpeers | ⟨-, -, hpeers⟩ | ⟨-, -, -, hpeers⟩ <;>
    rw [hpeers]
  · exact h
  · exact h.congr id fun _ _ => rfl
  · refine h.congr id fun query _ => ?_
    unfold group
    rw [withQuery_lookup]
    by_cases hnew : query = d.startedQueries
    · rw [if_pos hnew, hnew, hwf.fresh d.startedQueries (Nat.le_refl _)]
    · rw [if_neg hnew]

/-! ### The queue is processed -/

theorem processed_cases (d : Discovery) (goodPeers : Subnet → ℕ) (clock : Subnet → Instant)
    (hplace : r.place = .queued) {d' : Discovery} (hd' : d' = (d.processQueue goodPeers clock).1) :
    (d'.isQueued r.subnet = true ∧ (r.processed d goodPeers clock).place = .queued) ∨
    (∃ query ∈ d.startedFor d' r.subnet,
      (r.processed d goodPeers clock).place = .active query) ∨
    (d'.isQueued r.subnet = false ∧ d.startedFor d' r.subnet = [] ∧
      ((∀ q ∈ d.sanitizedQueue clock, q.subnet ≠ r.subnet) ∧
        (r.processed d goodPeers clock).place = .expired (clock r.subnet) ∨
      targetSubnetPeers ≤ goodPeers r.subnet ∧
        (r.processed d goodPeers clock).place = .satisfied (goodPeers r.subnet) ∨
      (∃ q ∈ d.sanitizedQueue clock, q.subnet = r.subnet) ∧
        ¬ targetSubnetPeers ≤ goodPeers r.subnet)) := by
  obtain ⟨subnet, minTtl, place, started⟩ := r
  obtain rfl : place = .queued := hplace
  unfold processed
  dsimp only
  rw [← hd']
  cases hqueued : d'.isQueued subnet with
  | true => exact .inl ⟨rfl, rfl⟩
  | false =>
    cases hkeys : d.startedFor d' subnet with
    | cons query queries => exact .inr (.inl ⟨query, List.mem_cons_self, rfl⟩)
    | nil =>
      refine .inr (.inr ⟨rfl, rfl, ?_⟩)
      cases hany : (d.sanitizedQueue clock).any fun q => q.subnet == subnet with
      | false =>
        refine .inl ⟨fun q hq hsame => ?_, rfl⟩
        rw [List.any_eq_false] at hany
        exact hany q hq (beq_iff_eq.2 hsame)
      | true =>
        obtain ⟨q, hq, hsame⟩ := List.any_eq_true.1 hany
        by_cases hpeers : targetSubnetPeers ≤ goodPeers subnet
        · refine .inr (.inl ⟨hpeers, ?_⟩)
          rw [if_pos hpeers]
          rfl
        · exact .inr (.inr ⟨⟨q, hq, eq_of_beq hsame⟩, hpeers⟩)

/-- In a queue without duplicates the entry of a subnet is the one that stands for the request. -/
theorem entry_unique (hwf : Wf d) {q q' : SubnetQuery} (hq : q ∈ d.queuedQueries)
    (hq' : q' ∈ d.queuedQueries) (h : q.subnet = q'.subnet) : q = q' :=
  List.inj_on_of_nodup_map hwf.distinct hq hq' h

/-- An entry of the queue is passed on, or is out-dated, or is not needed. -/
theorem Kept.processed_queued (hwf : Wf d) {goodPeers : Subnet → ℕ} {clock : Subnet → Instant}
    (hlossless : d.Lossless (.processQueue goodPeers clock)) (hplace : r.place = .queued)
    (h : Holds d.queuedQueries r.subnet r.minTtl r.started) :
    (r.processed d goodPeers clock).Kept (d.processQueue goodPeers clock).1 := by
  have hdrains := d.processQueue_drains goodPeers clock
  have hwf' := hwf.sanitized clock
  have hcases := processed_cases d goodPeers clock hplace rfl
  generalize hd' : (d.processQueue goodPeers clock).1 = d' at hdrains hcases ⊢
  have hstarted : (r.processed d goodPeers clock).started =
      r.started + (d.startedFor d' r.subnet).length := hd' ▸ rfl
  obtain ⟨q, hq, hsubnet, hcarries, hretries⟩ := h
  have hsanitized : ∀ q' ∈ d.sanitizedQueue clock, q'.subnet = r.subnet → q' = q :=
    fun q' hq' hsame =>
      entry_unique hwf (List.mem_of_mem_filter hq') hq (hsame.trans hsubnet.symm)
  refine .inr ?_
  rcases hcases with ⟨hqueued, hplace'⟩ | ⟨query, hquery, hplace'⟩ |
    ⟨hnot, hnone, ⟨hout, hplace'⟩ | ⟨hpeers, hplace'⟩ | ⟨⟨q', hq', hsame⟩, hpeers⟩⟩
  · rw [hplace']
    obtain ⟨q', hq', hsame⟩ := isQueued_iff.1 hqueued
    obtain rfl := hsanitized q' (hdrains.queue_subset hq') hsame
    exact ⟨q', hq', hsubnet, hcarries, by omega⟩
  · rw [hplace']
    have hpos := List.length_pos_of_mem hquery
    obtain ⟨hle, q', hq', hsame⟩ := mem_startedFor.1 hquery
    obtain rfl := hsanitized q' (hdrains.origin hwf' hle hq') hsame
    exact ⟨q', hq', hsubnet, hcarries, by omega⟩
  · rw [hplace']
    refine hcarries.expired ?_
    by_contra hlives
    refine hout q (List.mem_filter.2 ⟨hq, ?_⟩) hsubnet
    rw [hsubnet, Bool.not_eq_true']
    exact Bool.eq_false_of_not_eq_true hlives
  · rw [hplace']
    exact hpeers
  · exfalso
    rcases hdrains.follow hwf' hq' with hleft | ⟨k, hk, hgroup⟩ | hgood | hfork
    · rw [isQueued_iff.2 ⟨q', hleft, hsame⟩] at hnot
      cases hnot
    · have hmem : k ∈ d.startedFor d' r.subnet := mem_startedFor.2 ⟨hk, q', hgroup, hsame⟩
      rw [hnone] at hmem
      cases hmem
    · exact hpeers (hsame ▸ hgood)
    · rcases hlossless with hsome | hall
      · have hnofork : d.hasForkId = false := hfork
        rw [hsome] at hnofork
        cases hnofork
      · exact hpeers (hsame ▸ hall q' hq')

theorem Kept.processed (hwf : Wf d) {goodPeers : Subnet → ℕ} {clock : Subnet → Instant}
    (hlossless : d.Lossless (.processQueue goodPeers clock)) (h : r.Kept d) :
    (r.processed d goodPeers clock).Kept (d.processQueue goodPeers clock).1 := by
  rcases h with hmax | h
  · exact .inl (hmax.trans (Nat.le_add_right _ _))
  · obtain ⟨subnet, minTtl, place, started⟩ := r
    cases place with
    | queued => exact Kept.processed_queued hwf hlossless rfl h
    | active query =>
      obtain ⟨q, hq, hsubnet, hcarries, hretries⟩ := h
      obtain ⟨targetPeers, hlookup⟩ := lookup_of_mem_group hq
      have hlt : query < d.startedQueries := by
        by_contra hge
        rw [hwf.fresh query (Nat.le_of_not_lt hge)] at hlookup
        cases hlookup
      have hgroup : (d.processQueue goodPeers clock).1.group query = d.group query :=
        group_congr ((d.processQueue_drains goodPeers clock).lookup_eq (hwf.sanitized clock) hlt)
      refine .inr ⟨q, ?_, hsubnet, hcarries, hretries.trans (Nat.le_add_right _ _)⟩
      rwa [hgroup]
    | expired now => exact .inr h
    | satisfied peers => exact .inr h
    | gone => exact h.elim

/-! ### A query ends -/

theorem requeue_eq_addQueries (queries : List SubnetQuery) (d : Discovery) :
    queries.foldl requeue d = d.addQueries (queries.map retried) := by
  unfold Discovery.addQueries
  rw [List.foldl_map]
  rfl

/-- A subnet query that succeeds puts its subnets back into the queue. -/
theorem complete_queuedQueries {query targetPeers : ℕ} {queries : List SubnetQuery}
    (hlookup : d.activeQueries.lookup query = some ⟨.subnet queries, targetPeers⟩)
    (r : List FoundEnr) :
    ∃ enrs, d.complete query (.ok r) =
      { d.withoutQuery query with cachedEnrs := enrs }.addQueries (queries.map retried) := by
  rcases complete_cases hlookup (.ok r) with
    ⟨htype, -⟩ | ⟨queries', htype, ⟨e, he, -⟩ | ⟨r', enrs, -, hdone⟩⟩
  · cases htype
  · cases he
  · obtain rfl := QueryType.subnet.inj htype
    exact ⟨enrs, by rw [hdone, requeue_eq_addQueries]⟩

/-- What the queue holds after a query has ended. -/
theorem complete_holds {query : ℕ} {result : QueryResult}
    (hlossless : d.Lossless (.complete query result)) {subnet : Subnet} {ttl : Option Instant}
    {retries : ℕ} (h : Holds d.queuedQueries subnet ttl retries) :
    Holds (d.complete query result).queuedQueries subnet ttl retries := by
  cases hlookup : d.activeQueries.lookup query with
  | none => rwa [complete_of_lookup_none hlookup]
  | some active =>
    rcases complete_cases hlookup result with
      ⟨-, enrs, hdone⟩ | ⟨queries, htype, ⟨e, -, hdone⟩ | ⟨r, enrs, rfl, -⟩⟩
    · rw [hdone]
      exact h
    · rw [hdone]
      exact h
    · obtain ⟨queryType, targetPeers⟩ := active
      obtain rfl : queryType = .subnet queries := htype
      have hmerge : d.Mergeable ((d.group query).map retried) := hlossless
      rw [group_of_lookup hlookup] at hmerge
      obtain ⟨enrs, hdone⟩ := complete_queuedQueries hlookup r
      rw [hdone]
      exact Holds.addQueries hmerge h

/-- The other queries stay active. -/
theorem complete_group {query k : ℕ} (hother : k ≠ query) (result : QueryResult) :
    (d.complete query result).group k = d.group k := by
  apply group_congr
  have hwithout : (d.withoutQuery query).activeQueries.lookup k = d.activeQueries.lookup k := by
    have herase := Map.lookup_erase_eq d.activeQueries query k
    rwa [if_neg hother] at herase
  cases hlookup : d.activeQueries.lookup query with
  | none => rw [complete_of_lookup_none hlookup]
  | some active =>
    rcases complete_cases hlookup result with
      ⟨-, enrs, hdone⟩ | ⟨queries, -, ⟨e, -, hdone⟩ | ⟨r, enrs, -, hdone⟩⟩ <;> rw [hdone]
    · exact hwithout
    · exact hwithout
    · rw [(requeue_same queries _).activeQueries]
      exact hwithout

theorem completed_of_ne {query : ℕ} (h : r.place ≠ .active query) (result : QueryResult) :
    r.completed d query result = r := if_neg h

/-- The query that stands for the request ends: the request is back in the queue, or enough
queries were started for it. -/
theorem Kept.completed_active {query : ℕ} {result : QueryResult}
    (hlossless : d.Lossless (.complete query result)) (hplace : r.place = .active query)
    {q : SubnetQuery} (hq : q ∈ d.group query) (hsubnet : q.subnet = r.subnet)
    (hcarries : Carries r.minTtl q.minTtl) (hretries : q.retries + 1 ≤ r.started) :
    (r.completed d query result).Kept (d.complete query result) := by
  unfold Request.completed
  rw [if_pos hplace]
  cases result with
  | error e =>
    have hmax : maxDiscoveryRetry ≤ q.retries := hlossless q hq
    exact .inl ((Nat.succ_le_succ hmax).trans hretries)
  | ok found =>
    dsimp only
    by_cases hmax : maxDiscoveryRetry ≤ q.retries
    · exact .inl ((Nat.succ_le_succ hmax).trans hretries)
    · obtain ⟨targetPeers, hlookup⟩ := lookup_of_mem_group hq
      obtain ⟨enrs, hdone⟩ := complete_queuedQueries hlookup found
      have hmerge : Mergeable { d.withoutQuery query with cachedEnrs := enrs }
          ((d.group query).map retried) := hlossless
      have hholds : Holds (d.complete query (.ok found)).queuedQueries q.subnet q.minTtl
          (q.retries + 1) := by
        rw [hdone]
        exact holds_addQueries hmerge (List.mem_map_of_mem hq) (Nat.succ_le_of_lt (by omega))
      rw [hsubnet] at hholds
      rw [if_pos hholds.isQueued]
      obtain ⟨entry, hentry, hsame, hlives, htries⟩ := hholds
      exact .inr ⟨entry, hentry, hsame, hcarries.trans hlives, htries.trans hretries⟩

theorem Kept.completed {query : ℕ} {result : QueryResult}
    (hlossless : d.Lossless (.complete query result)) (h : r.Kept d) :
    (r.completed d query result).Kept (d.complete query result) := by
  by_cases hplace : r.place = .active query
  · rcases h with hmax | h
    · refine .inl ?_
      unfold Request.completed
      rw [if_pos hplace]
      cases result <;> exact hmax
    · rw [hplace] at h
      obtain ⟨q, hq, hsubnet, hcarries, hretries⟩ := h
      exact Kept.completed_active hlossless hplace hq hsubnet hcarries hretries
  · rw [completed_of_ne hplace]
    refine h.congr (complete_holds hlossless) fun k hk => complete_group ?_ result
    rintro rfl
    exact hplace hk

/-! ### Subnet requests come in -/

/-- The requests so far are merged with the new ones. -/
theorem Kept.discoverSubnetPeers {subnets : List SubnetDiscovery}
    (hlossless : d.Lossless (.discoverSubnetPeers subnets)) (h : r.Kept d) :
    r.Kept (d.discoverSubnetPeers subnets) := by
  cases hstarted : d.started with
  | false =>
    have hsame : d.discoverSubnetPeers subnets = d := by
      unfold Discovery.discoverSubnetPeers
      rw [hstarted]
      rfl
    rwa [hsame]
  | true =>
    rw [discoverSubnetPeers_eq hstarted]
    exact h.addQueries (hlossless hstarted)

/-- A request that has been accepted is queued. -/
theorem kept_of_accepted {subnets : List SubnetDiscovery}
    (hlossless : d.Lossless (.discoverSubnetPeers subnets))
    (hnew : r ∈ d.accepted (.discoverSubnetPeers subnets)) :
    r.Kept (d.discoverSubnetPeers subnets) := by
  unfold accepted at hnew
  cases hstarted : d.started with
  | false =>
    rw [hstarted] at hnew
    cases hnew
  | true =>
    rw [hstarted] at hnew
    obtain ⟨s, hs, rfl⟩ := List.mem_map.1 hnew
    rw [discoverSubnetPeers_eq hstarted]
    exact .inr (holds_addQueries (hlossless hstarted) (List.mem_map_of_mem hs) (Nat.zero_le _))

end Request

/-! ## Runs -/

namespace Tracked

/-- The requests so far are kept. -/
structure Kept (t : Tracked) : Prop where
  wf : Wf t.discovery
  kept : ∀ r ∈ t.requests, r.Kept t.discovery

theorem Kept.step {t : Tracked} {op : DiscoveryOp} (h : t.Kept)
    (hlossless : t.discovery.Lossless op) : (t.step op).Kept := by
  refine ⟨h.wf.step op, fun r hr => ?_⟩
  have hcases : (∃ r' ∈ t.requests, r'.after t.discovery op = r) ∨
      r ∈ t.discovery.accepted op :=
    (List.mem_append.1 hr).imp_left List.mem_map.1
  show r.Kept (t.discovery.step op)
  cases op with
  | discoverPeers targetPeers =>
    rcases hcases with ⟨r, hold, rfl⟩ | hnew
    · exact (h.kept r hold).discoverPeers h.wf targetPeers
    · cases hnew
  | discoverSubnetPeers subnets =>
    rcases hcases with ⟨r, hold, rfl⟩ | hnew
    · exact (h.kept r hold).discoverSubnetPeers hlossless
    · exact Request.kept_of_accepted hlossless hnew
  | processQueue goodPeers clock =>
    rcases hcases with ⟨r, hold, rfl⟩ | hnew
    · exact (h.kept r hold).processed h.wf hlossless
    · cases hnew
  | complete query result =>
    rcases hcases with ⟨r, hold, rfl⟩ | hnew
    · exact (h.kept r hold).completed hlossless
    · cases hnew

/-- **No subnet request is lost** in a run whose steps are all lossless: each is queued or active
for its subnet, or has expired by its own time, or was dropped because of enough good peers on the
subnet, or `MAX_DISCOVERY_RETRY + 1` queries for the subnet were started since. -/
theorem requests_kept (started hasForkId : Bool) (ops : List DiscoveryOp)
    (h : Along step (fun t op => t.discovery.Lossless op) ⟨.new started hasForkId, []⟩ ops) :
    Throughout step (fun t => ∀ r ∈ t.requests, r.accounted t.discovery = true)
      ⟨.new started hasForkId, []⟩ ops := by
  have hstart : Kept ⟨.new started hasForkId, []⟩ :=
    ⟨.new started hasForkId, fun r hr => absurd hr List.not_mem_nil⟩
  have hkept : Throughout step Kept ⟨.new started hasForkId, []⟩ ops :=
    throughout_of_along (fun t op hkept hlossless => hkept.step hlossless) hstart h
  exact hkept.mono fun t hkept r hr => (hkept.kept r hr).accounted

/-- A request that is tried four times without a result. -/
theorem requests_kept_retries :
    Throughout step (fun t => ∀ r ∈ t.requests, r.accounted t.discovery = true)
      ⟨.new true true, []⟩
      [.discoverSubnetPeers [⟨.attestation 1, some 10⟩], .processQueue (fun _ => 0) (fun _ => 1),
        .complete 0 (.ok []), .processQueue (fun _ => 0) (fun _ => 2), .complete 1 (.ok []),
        .processQueue (fun _ => 0) (fun _ => 3), .complete 2 (.ok []),
        .processQueue (fun _ => 0) (fun _ => 4), .complete 3 (.error "timeout")] :=
  requests_kept true true _ (by decide)

/-- A request whose query fails is lost; so is a request for as long as possible that is merged with
one until a time, a request whose retries are overwritten by those of an older query, and a request
that is passed on when the ENR has no fork id. -/
theorem requests_lost :
    (¬ Throughout step (fun t => ∀ r ∈ t.requests, r.accounted t.discovery = true)
      ⟨.new true true, []⟩
      [.discoverSubnetPeers [⟨.attestation 1, none⟩], .processQueue (fun _ => 0) (fun _ => 1),
        .complete 0 (.error "timeout")]) ∧
    (¬ Throughout step (fun t => ∀ r ∈ t.requests, r.accounted t.discovery = true)
      ⟨.new true true, []⟩
      [.discoverSubnetPeers [⟨.attestation 1, none⟩, ⟨.attestation 1, some 5⟩],
        .processQueue (fun _ => 0) (fun _ => 10)]) ∧
    (¬ Throughout step (fun t => ∀ r ∈ t.requests, r.accounted t.discovery = true)
      ⟨.new true true, []⟩
      [.discoverSubnetPeers [⟨.attestation 1, none⟩], .processQueue (fun _ => 0) (fun _ => 1),
        .complete 0 (.ok []), .processQueue (fun _ => 0) (fun _ => 1), .complete 1 (.ok []),
        .processQueue (fun _ => 0) (fun _ => 1), .discoverSubnetPeers [⟨.attestation 1, none⟩],
        .complete 2 (.ok []), .processQueue (fun _ => 0) (fun _ => 1), .complete 3 (.ok [])]) ∧
    ¬ Throughout step (fun t => ∀ r ∈ t.requests, r.accounted t.discovery = true)
      ⟨.new true false, []⟩
      [.discoverSubnetPeers [⟨.attestation 1, none⟩], .processQueue (fun _ => 0) (fun _ => 1)] := by
  decide

end Tracked

end Consentry
