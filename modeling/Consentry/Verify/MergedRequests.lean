import Consentry.Verify.SubnetRequests

/-!
# How long a merged request lives

Requests for a subnet are merged into the first entry of the subnet in the queue. Its `min_ttl` is
the latest of theirs in the derived order of `Option` (`Discovery.entryOf_addQueries`), in which
`None` comes before every time, although a request without a time never expires.

**`addQueries_keepsWanted_iff`**: an entry lives as long as each of its requests exactly if either
all of them or none of them have a time.
-/

namespace Consentry

open Lib

/-- What is not after the earlier of two is not after the later one. -/
theorem minTtlLt_eq_false_of_lt {ttl later other : Option Instant}
    (hlater : minTtlLt ttl later = true) (hother : minTtlLt ttl other = false) :
    minTtlLt later other = false := by
  cases other with
  | none => cases later <;> rfl
  | some t =>
    cases ttl with
    | none => cases hother
    | some t₀ =>
      cases later with
      | none => cases hlater
      | some t₁ =>
        have hlt : t₀ < t₁ := of_decide_eq_true hlater
        have hle : t ≤ t₀ := Nat.not_lt.1 (of_decide_eq_false hother)
        exact decide_eq_false (Nat.not_lt.2 (hle.trans hlt.le))

theorem minTtlLt_self (ttl : Option Instant) : minTtlLt ttl ttl = false := by
  cases ttl with
  | none => rfl
  | some t => exact decide_eq_false (Nat.lt_irrefl t)

/-- One of the requests has this `min_ttl`, and none has a later one. -/
structure LatestTtl (requests : List SubnetQuery) (ttl : Option Instant) : Prop where
  mem : ∃ q ∈ requests, q.minTtl = ttl
  latest : ∀ q ∈ requests, minTtlLt ttl q.minTtl = false

namespace LatestTtl

variable {requests : List SubnetQuery} {ttl : Option Instant}

theorem single (q : SubnetQuery) : LatestTtl [q] q.minTtl := by
  refine ⟨⟨q, List.mem_singleton_self q, rfl⟩, fun q' hq' => ?_⟩
  rw [List.mem_singleton.1 hq']
  exact minTtlLt_self q.minTtl

/-- A merge keeps the later of the two. -/
theorem merge (h : LatestTtl requests ttl) (q : SubnetQuery) :
    LatestTtl (requests ++ [q]) (if minTtlLt ttl q.minTtl then q.minTtl else ttl) := by
  obtain ⟨⟨first, hfirst, hattained⟩, hlatest⟩ := h
  by_cases hlater : minTtlLt ttl q.minTtl = true
  · rw [if_pos hlater]
    refine ⟨⟨q, by simp, rfl⟩, fun q' hq' => ?_⟩
    rcases List.mem_append.1 hq' with hold | hnew
    · exact minTtlLt_eq_false_of_lt hlater (hlatest q' hold)
    · rw [List.mem_singleton.1 hnew]
      exact minTtlLt_self q.minTtl
  · rw [if_neg hlater]
    refine ⟨⟨first, List.mem_append_left _ hfirst, hattained⟩, fun q' hq' => ?_⟩
    rcases List.mem_append.1 hq' with hold | hnew
    · exact hlatest q' hold
    · rw [List.mem_singleton.1 hnew, ← Bool.not_eq_true]
      exact hlater

/-- Requests that all have a time have a latest one. -/
theorem exists_time (h : LatestTtl requests ttl) {q : SubnetQuery} (hq : q ∈ requests)
    (htime : q.minTtl ≠ none) : ∃ t, ttl = some t := by
  have hle := h.latest q hq
  cases ttl with
  | some t => exact ⟨t, rfl⟩
  | none =>
    cases hminTtl : q.minTtl with
    | none => exact absurd hminTtl htime
    | some t =>
      rw [hminTtl] at hle
      cases hle

end LatestTtl

namespace SubnetQuery

theorem expired_of_time {q : SubnetQuery} {t : Instant} (h : q.minTtl = some t) (now : Instant) :
    q.expired now = decide (t < now) := by
  unfold expired
  rw [h]

theorem expired_of_none {q : SubnetQuery} (h : q.minTtl = none) (now : Instant) :
    q.expired now = false := by
  unfold expired
  rw [h]

end SubnetQuery

namespace Discovery

/-- The entry that requests for the subnet are merged into. -/
def entryOf (d : Discovery) (subnet : Subnet) : Option SubnetQuery :=
  d.queuedQueries.find? fun q => decide (q.subnet = subnet)

/-- What the entry of the subnet stands for after more requests: what it was before, if there was
one, and these. -/
def mergedRequests (d : Discovery) (subnet : Subnet) (requests : List SubnetQuery) :
    List SubnetQuery :=
  (d.entryOf subnet).toList ++ requests

/-- Whenever one of the requests is not expired, neither is the entry, and `process_queue` keeps
it. -/
def KeepsWanted (d : Discovery) (subnet : Subnet) (requests : List SubnetQuery) : Prop :=
  ∀ clock : Subnet → Instant, (∃ q ∈ requests, q.expired (clock subnet) = false) →
    ∃ entry, d.entryOf subnet = some entry ∧ entry.expired (clock subnet) = false ∧
      entry ∈ d.sanitizedQueue clock

variable {d : Discovery} {subnet : Subnet} {requests : List SubnetQuery}

/-- What the queue has for the subnet of a request that is merged into it or appended. -/
theorem find?_mergeQuery (q : SubnetQuery) (queue : List SubnetQuery) :
    ((mergeQuery q.subnet q.minTtl q.retries queue).getD (queue ++ [q])).find?
        (fun q' => decide (q'.subnet = q.subnet)) =
      some ((queue.find? fun q' => decide (q'.subnet = q.subnet)).elim q
        fun entry => merged entry q.minTtl q.retries) := by
  induction queue with
  | nil => simp [mergeQuery]
  | cons first queue ih =>
    unfold mergeQuery
    by_cases hsame : first.subnet = q.subnet
    · simp [hsame, merged]
    · rw [if_neg hsame, List.find?_cons_of_neg (by simpa using hsame), ← ih]
      cases mergeQuery q.subnet q.minTtl q.retries queue <;> simp [hsame]

/-- One more request is merged into the entry, or becomes it. -/
theorem entryOf_addSubnetQuery (d : Discovery) {q : SubnetQuery} (hsubnet : q.subnet = subnet)
    (hretries : q.retries ≤ maxDiscoveryRetry) :
    (d.addSubnetQuery q.subnet q.minTtl q.retries).entryOf subnet =
      some ((d.entryOf subnet).elim q fun entry => merged entry q.minTtl q.retries) := by
  subst hsubnet
  unfold addSubnetQuery
  rw [if_neg (Nat.not_lt.2 hretries), entryOf, entryOf, ← find?_mergeQuery q d.queuedQueries]
  cases mergeQuery q.subnet q.minTtl q.retries d.queuedQueries <;> rfl

/-- The entry has the latest `min_ttl` of its requests, and there is none if there are no
requests. -/
def LatestEntry (d : Discovery) (subnet : Subnet) (requests : List SubnetQuery) : Prop :=
  (requests = [] ∧ d.entryOf subnet = none) ∨
    ∃ entry, d.entryOf subnet = some entry ∧ LatestTtl requests entry.minTtl

theorem LatestEntry.start (d : Discovery) (subnet : Subnet) :
    d.LatestEntry subnet (d.entryOf subnet).toList := by
  cases hentry : d.entryOf subnet with
  | none => exact .inl ⟨rfl, hentry⟩
  | some entry => exact .inr ⟨entry, hentry, .single entry⟩

theorem LatestEntry.addSubnetQuery (h : d.LatestEntry subnet requests) {q : SubnetQuery}
    (hsubnet : q.subnet = subnet) (hretries : q.retries ≤ maxDiscoveryRetry) :
    (d.addSubnetQuery q.subnet q.minTtl q.retries).LatestEntry subnet (requests ++ [q]) := by
  refine .inr ⟨_, entryOf_addSubnetQuery d hsubnet hretries, ?_⟩
  rcases h with ⟨rfl, hnone⟩ | ⟨entry, hentry, hlatest⟩
  · rw [hnone]
    exact .single q
  · rw [hentry]
    exact hlatest.merge q

/-- **The entry after a sequence of requests.** -/
theorem entryOf_addQueries (h : d.LatestEntry subnet requests) {queries : List SubnetQuery}
    (hqueries : ∀ q ∈ queries, q.subnet = subnet ∧ q.retries ≤ maxDiscoveryRetry) :
    (d.addQueries queries).LatestEntry subnet (requests ++ queries) := by
  induction queries generalizing d requests with
  | nil => rwa [List.append_nil]
  | cons q queries ih =>
    obtain ⟨hsubnet, hretries⟩ := hqueries q List.mem_cons_self
    have hrest := ih (h.addSubnetQuery hsubnet hretries) fun q' hq' =>
      hqueries q' (List.mem_cons_of_mem q hq')
    rwa [List.append_assoc] at hrest

/-- An entry that is not expired is not discarded. -/
theorem mem_sanitizedQueue {entry : SubnetQuery} (hentry : d.entryOf subnet = some entry)
    {clock : Subnet → Instant} (hexpired : entry.expired (clock subnet) = false) :
    entry ∈ d.sanitizedQueue clock := by
  unfold entryOf at hentry
  have hsubnet := List.find?_some hentry
  rw [decide_eq_true_eq] at hsubnet
  refine List.mem_filter.2 ⟨List.mem_of_find?_eq_some hentry, ?_⟩
  rw [hsubnet, hexpired]
  rfl

/-- **An entry lives as long as its requests** exactly if all of them or none of them have a
time. -/
theorem LatestEntry.keepsWanted_iff (h : d.LatestEntry subnet requests) :
    d.KeepsWanted subnet requests ↔
      (∀ q ∈ requests, q.minTtl = none) ∨ ∀ q ∈ requests, q.minTtl ≠ none := by
  rcases h with ⟨rfl, -⟩ | ⟨entry, hentry, hlatest⟩
  · refine iff_of_true ?_ (.inl fun q hq => absurd hq List.not_mem_nil)
    rintro clock ⟨q, hq, -⟩
    cases hq
  constructor
  · intro hkeeps
    by_contra hmixed
    rw [not_or, not_forall, not_forall] at hmixed
    obtain ⟨⟨timed, htimed⟩, forever, hforever⟩ := hmixed
    rw [Classical.not_imp] at htimed hforever
    obtain ⟨t, ht⟩ := hlatest.exists_time htimed.1 htimed.2
    -- Right after the time of the entry, the request without a time is still wanted.
    obtain ⟨entry', hentry', hexpired, -⟩ := hkeeps (fun _ => t + 1)
      ⟨forever, hforever.1, SubnetQuery.expired_of_none (not_not.1 hforever.2) _⟩
    obtain rfl := Option.some.inj (hentry.symm.trans hentry')
    rw [SubnetQuery.expired_of_time ht] at hexpired
    exact absurd (Nat.lt_succ_self t) (of_decide_eq_false hexpired)
  · rintro hsame clock ⟨q, hq, hwanted⟩
    have hexpired : entry.expired (clock subnet) = false := by
      rcases hsame with hnone | htimes
      · obtain ⟨first, hfirst, hattained⟩ := hlatest.mem
        exact SubnetQuery.expired_of_none (hattained.symm.trans (hnone first hfirst)) _
      · obtain ⟨t, ht⟩ := hlatest.exists_time hq (htimes q hq)
        obtain ⟨t', ht'⟩ := Option.ne_none_iff_exists'.1 (htimes q hq)
        have hle := hlatest.latest q hq
        rw [ht, ht'] at hle
        rw [SubnetQuery.expired_of_time ht'] at hwanted
        rw [SubnetQuery.expired_of_time ht]
        have hnow : clock subnet ≤ t' := Nat.not_lt.1 (of_decide_eq_false hwanted)
        have hbefore : t' ≤ t := Nat.not_lt.1 (of_decide_eq_false hle)
        exact decide_eq_false (Nat.not_lt.2 (hnow.trans hbefore))
    exact ⟨entry, hentry, hexpired, mem_sanitizedQueue hentry hexpired⟩

/-- **Merging keeps requests alive** exactly if those that are merged into one entry all have a
time, or none of them has one. -/
theorem addQueries_keepsWanted_iff (d : Discovery) (subnet : Subnet) {requests : List SubnetQuery}
    (hrequests : ∀ q ∈ requests, q.subnet = subnet ∧ q.retries ≤ maxDiscoveryRetry) :
    (d.addQueries requests).KeepsWanted subnet (d.mergedRequests subnet requests) ↔
      (∀ q ∈ d.mergedRequests subnet requests, q.minTtl = none) ∨
        ∀ q ∈ d.mergedRequests subnet requests, q.minTtl ≠ none :=
  (entryOf_addQueries (.start d subnet) hrequests).keepsWanted_iff

/-- Two requests with a time are merged. -/
theorem addQueries_keepsWanted_twoTimes :
    ((new true true).addQueries [⟨.attestation 1, some 5, 0⟩,
        ⟨.attestation 1, some 9, 0⟩]).KeepsWanted (.attestation 1)
      ((new true true).mergedRequests (.attestation 1) [⟨.attestation 1, some 5, 0⟩,
        ⟨.attestation 1, some 9, 0⟩]) :=
  (addQueries_keepsWanted_iff (new true true) (.attestation 1) (by decide)).2
    (.inr (by decide))

/-- A request for as long as possible is replaced by one until a time. -/
theorem addQueries_keepsWanted_fails :
    ¬ ∀ (d : Discovery) (subnet : Subnet) (requests : List SubnetQuery),
      (∀ q ∈ requests, q.subnet = subnet ∧ q.retries ≤ maxDiscoveryRetry) →
        (d.addQueries requests).KeepsWanted subnet (d.mergedRequests subnet requests) := by
  intro h
  obtain ⟨entry, hentry, hexpired, -⟩ := h (new true true) (.attestation 1)
    [⟨.attestation 1, none, 0⟩, ⟨.attestation 1, some 5, 0⟩] (by decide) (fun _ => 6)
    ⟨⟨.attestation 1, none, 0⟩, by decide, rfl⟩
  obtain rfl := Option.some.inj (hentry.symm.trans
    (show _ = some (⟨.attestation 1, some 5, 0⟩ : SubnetQuery) by decide))
  exact absurd hexpired (by decide)

end Discovery

end Consentry
