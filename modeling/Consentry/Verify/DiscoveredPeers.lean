import Consentry.Discovery
import Consentry.Lib.MaxUpTo

/-!
# The `min_ttl` of discovered peers

A peer that a grouped query finds is mapped to a `min_ttl` of the queries whose subnets it is on,
one after the other (`lookup_mapSubnetQuery`). Of two times the later one is kept only if it is more
than `DURATION_DIFFERENCE` later, so the kept one is the latest up to that difference.

**`processCompletedQueries_minTtl`**: the peers are those on the subnet of a query, and each gets
the right `min_ttl`.
-/

namespace Consentry

open Lib

/-- An ENR of the peer is among those found, and on the subnet of the query. -/
def SubnetQuery.finds (query : SubnetQuery) (r : List FoundEnr) (peerId : PeerId) : Bool :=
  r.any fun found => decide (found.peerId = peerId) && subnetPredicate [query.subnet] found.enr

/-- The `min_ttl` of a peer that queries with these find: none if they are all for as long as
possible, and else one of them that is the latest up to the tolerance. -/
structure RightTtl (queries : List SubnetQuery) (r : List FoundEnr) (peerId : PeerId)
    (ttl : Option Instant) : Prop where
  none_iff : ttl = none ↔ ∀ query ∈ queries, query.finds r peerId = true → query.minTtl = none
  mem : ∀ v, ttl = some v →
    ∃ query ∈ queries, query.finds r peerId = true ∧ query.minTtl = some v
  latest : ∀ v, ttl = some v → ∀ query ∈ queries, query.finds r peerId = true →
    ∀ v', query.minTtl = some v' → v' ≤ v + durationDifference

namespace Discovery

/-- Up to this time the kept `min_ttl` is not replaced. -/
def withinDifference (ttl : Instant) : Instant := ttl + durationDifference

theorem le_withinDifference (ttl : Instant) : ttl ≤ withinDifference ttl := Nat.le_add_right _ _

/-- The `min_ttl` of a peer after one more query. -/
def nextTtl (known : Option (Option Instant)) (minTtl : Option Instant) : Option Instant :=
  known.elim minTtl fun kept => keepNext withinDifference kept minTtl

theorem nextTtl_self (known : Option (Option Instant)) (minTtl : Option Instant) :
    nextTtl (some (nextTtl known minTtl)) minTtl = nextTtl known minTtl := by
  cases known with
  | none => exact keepNext_self le_withinDifference none minTtl
  | some kept => exact keepNext_self le_withinDifference kept minTtl

variable {mappedResults : Map PeerId (Option Instant)} {minTtl : Option Instant}

theorem lookup_mapMinTtl (mappedResults : Map PeerId (Option Instant)) (minTtl : Option Instant)
    (peerId p : PeerId) : (mapMinTtl mappedResults minTtl peerId).lookup p =
      if p = peerId then some (nextTtl (mappedResults.lookup peerId) minTtl)
      else mappedResults.lookup p := by
  have hkept : ∀ kept, mappedResults.lookup peerId = some kept →
      mappedResults.lookup p = if p = peerId then some kept else mappedResults.lookup p := by
    intro kept hkept
    split
    · next hp => rw [hp, hkept]
    · rfl
  unfold mapMinTtl nextTtl
  cases minTtl with
  | none =>
    cases hknown : mappedResults.lookup peerId with
    | none => exact Map.lookup_insert_eq _ _ _ _
    | some kept =>
      refine (hkept kept hknown).trans ?_
      cases kept <;> rfl
  | some minTtl =>
    cases hknown : mappedResults.lookup peerId with
    | none => exact Map.lookup_insert_eq _ _ _ _
    | some kept =>
      cases kept with
      | none => exact Map.lookup_insert_eq _ _ _ _
      | some other =>
        have hiff : durationDifference < minTtl - other ↔ withinDifference other < minTtl := by
          unfold withinDifference
          rw [lt_tsub_iff_left]
        rw [Option.elim_some, keepNext_some]
        dsimp only
        by_cases hlater : durationDifference < minTtl - other
        · rw [if_pos hlater, if_pos (hiff.1 hlater)]
          exact Map.lookup_insert_eq _ _ _ _
        · rw [if_neg hlater, if_neg fun h => hlater (hiff.2 h)]
          exact hkept _ hknown

/-- A peer may be found more than once. -/
theorem lookup_foldl_mapMinTtl (peers : List PeerId)
    (mappedResults : Map PeerId (Option Instant)) (minTtl : Option Instant) (p : PeerId) :
    (peers.foldl (fun mappedResults peerId => mapMinTtl mappedResults minTtl peerId)
      mappedResults).lookup p =
        if p ∈ peers then some (nextTtl (mappedResults.lookup p) minTtl)
        else mappedResults.lookup p := by
  induction peers generalizing mappedResults with
  | nil => rfl
  | cons peerId peers ih =>
    rw [List.foldl_cons, ih, lookup_mapMinTtl]
    by_cases hp : p = peerId
    · subst hp
      rw [if_pos rfl, if_pos List.mem_cons_self, nextTtl_self, ite_self]
    · rw [if_neg hp]
      by_cases hmem : p ∈ peers
      · rw [if_pos hmem, if_pos (List.mem_cons_of_mem _ hmem)]
      · rw [if_neg hmem, if_neg fun h => (List.mem_cons.1 h).elim hp hmem]

/-- **The round of one query.** -/
theorem lookup_mapSubnetQuery (r : List FoundEnr) (s : Discovery × Map PeerId (Option Instant))
    (query : SubnetQuery) (p : PeerId) : (mapSubnetQuery r s query).2.lookup p =
      if query.finds r p = true then some (nextTtl (s.2.lookup p) query.minTtl)
      else s.2.lookup p := by
  have hfinds : p ∈ (r.filter fun found => subnetPredicate [query.subnet] found.enr).map
      (·.peerId) ↔ query.finds r p = true := by
    unfold SubnetQuery.finds
    rw [List.mem_map, List.any_eq_true]
    constructor
    · rintro ⟨found, hfound, rfl⟩
      obtain ⟨hmem, hon⟩ := List.mem_filter.1 hfound
      exact ⟨found, hmem, by simp [hon]⟩
    · rintro ⟨found, hmem, hon⟩
      rw [Bool.and_eq_true, decide_eq_true_eq] at hon
      exact ⟨found, List.mem_filter.2 ⟨hmem, hon.2⟩, hon.1⟩
  rw [mapSubnetQuery]
  dsimp only
  rw [lookup_foldl_mapMinTtl]
  simp only [hfinds]

/-- The `min_ttl`s of the queries that find the peer. -/
def foundTtls (r : List FoundEnr) (queries : List SubnetQuery) (p : PeerId) :
    List (Option Instant) :=
  (queries.filter fun query => query.finds r p).map (·.minTtl)

theorem mem_foundTtls {r : List FoundEnr} {queries : List SubnetQuery} {p : PeerId}
    {ttl : Option Instant} : ttl ∈ foundTtls r queries p ↔
      ∃ query ∈ queries, query.finds r p = true ∧ query.minTtl = ttl := by
  unfold foundTtls
  simp only [List.mem_map, List.mem_filter, and_assoc]

theorem foundTtls_append (r : List FoundEnr) (queries : List SubnetQuery) (query : SubnetQuery)
    (p : PeerId) : foundTtls r (queries ++ [query]) p =
      if query.finds r p = true then foundTtls r queries p ++ [query.minTtl]
      else foundTtls r queries p := by
  unfold foundTtls
  rw [List.filter_append, List.map_append]
  cases hfinds : query.finds r p with
  | true => simp [hfinds]
  | false => simp [hfinds]

/-- What the results say of a peer after some queries. -/
inductive Mapped (r : List FoundEnr) (queries : List SubnetQuery) (p : PeerId) :
    Option (Option Instant) → Prop
  | unknown : foundTtls r queries p = [] → Mapped r queries p none
  | known {kept : Option Instant} : foundTtls r queries p ≠ [] →
    MaxUpTo withinDifference (foundTtls r queries p) kept → Mapped r queries p (some kept)

theorem Mapped.next {r : List FoundEnr} {queries : List SubnetQuery} {p : PeerId}
    {known : Option (Option Instant)} (h : Mapped r queries p known) (query : SubnetQuery) :
    Mapped r (queries ++ [query]) p
      (if query.finds r p = true then some (nextTtl known query.minTtl) else known) := by
  have hfound := foundTtls_append r queries query p
  split
  · next hfinds =>
    rw [if_pos hfinds] at hfound
    refine .known (by rw [hfound]; simp) ?_
    rw [hfound]
    cases h with
    | unknown hnone =>
      rw [hnone]
      exact .single le_withinDifference query.minTtl
    | known _ hmax => exact hmax.next le_withinDifference query.minTtl
  · next hfinds =>
    rw [if_neg hfinds] at hfound
    cases h with
    | unknown hnone => exact .unknown (hfound.trans hnone)
    | known hne hmax => exact .known (by rwa [hfound]) (by rwa [hfound])

/-- **The rounds of all queries.** -/
theorem Mapped.foldl {r : List FoundEnr} {queries done : List SubnetQuery} {p : PeerId}
    {s : Discovery × Map PeerId (Option Instant)} (h : Mapped r done p (s.2.lookup p)) :
    Mapped r (done ++ queries) p ((queries.foldl (mapSubnetQuery r) s).2.lookup p) := by
  induction queries generalizing done s with
  | nil => rwa [List.append_nil]
  | cons query queries ih =>
    have hnext := h.next query
    rw [← lookup_mapSubnetQuery] at hnext
    have hrest := ih hnext
    rwa [List.append_assoc] at hrest

theorem RightTtl.of_maxUpTo {queries : List SubnetQuery} {r : List FoundEnr} {p : PeerId}
    {ttl : Option Instant} (h : MaxUpTo withinDifference (foundTtls r queries p) ttl) :
    RightTtl queries r p ttl where
  none_iff := by
    rw [h.none_iff]
    constructor
    · intro hall query hquery hfinds
      exact hall _ (mem_foundTtls.2 ⟨query, hquery, hfinds, rfl⟩)
    · intro hall v hv
      obtain ⟨query, hquery, hfinds, rfl⟩ := mem_foundTtls.1 hv
      exact hall query hquery hfinds
  mem v hv := mem_foundTtls.1 (h.mem v hv)
  latest v hv query hquery hfinds v' hv' :=
    h.le_slack v hv v' (mem_foundTtls.2 ⟨query, hquery, hfinds, hv'⟩)

theorem Mapped.isSome_iff {r : List FoundEnr} {queries : List SubnetQuery} {p : PeerId}
    {known : Option (Option Instant)} (h : Mapped r queries p known) :
    known.isSome = true ↔ ∃ query ∈ queries, query.finds r p = true := by
  have hiff : foundTtls r queries p ≠ [] ↔ ∃ query ∈ queries, query.finds r p = true := by
    unfold foundTtls
    simp
  cases h with
  | unknown hnone => exact iff_of_false Bool.false_ne_true fun hfinds => hiff.2 hfinds hnone
  | known hne _ => exact iff_of_true rfl (hiff.1 hne)

/-- The results are the map after the rounds of all queries, unless it is empty. -/
theorem processCompletedQueries_mapped (d : Discovery) (queries : List SubnetQuery)
    (r : List FoundEnr) : ∃ mappedResults : Map PeerId (Option Instant),
      (∀ p, Mapped r queries p (mappedResults.lookup p)) ∧
      (d.processCompletedQueries (.subnet queries) (.ok r)).2 =
        if mappedResults.entries.isEmpty = true then none else some mappedResults := by
  cases r with
  | nil =>
    refine ⟨∅, fun p => .unknown ?_, rfl⟩
    unfold foundTtls
    simp [SubnetQuery.finds]
  | cons found r =>
    have hstart : ∀ p, Mapped (found :: r) [] p
        ((∅ : Map PeerId (Option Instant)).lookup p) := fun p => .unknown rfl
    refine ⟨(queries.foldl (mapSubnetQuery (found :: r))
      ((found :: r).foldl cacheEnr d, ∅)).2, fun p => ?_, rfl⟩
    rw [← List.nil_append queries]
    exact Mapped.foldl (hstart p)

/-- **A completed grouped query** finds the peers with an ENR on the subnet of one of its queries,
each with the right `min_ttl`. -/
theorem processCompletedQueries_minTtl (d : Discovery) (queries : List SubnetQuery)
    (r : List FoundEnr) :
    ((d.processCompletedQueries (.subnet queries) (.ok r)).2 = none ↔
      ∀ p, ∀ query ∈ queries, query.finds r p = false) ∧
    ∀ peers, (d.processCompletedQueries (.subnet queries) (.ok r)).2 = some peers → ∀ p,
      (p ∈ peers.keys ↔ ∃ query ∈ queries, query.finds r p = true) ∧
      ∀ ttl, peers.lookup p = some ttl → RightTtl queries r p ttl := by
  obtain ⟨mappedResults, hmapped, hresult⟩ := processCompletedQueries_mapped d queries r
  rw [hresult]
  constructor
  · have hfinds : ∀ p, (∀ query ∈ queries, query.finds r p = false) ↔
        mappedResults.lookup p = none := by
      intro p
      rw [← Option.not_isSome_iff_eq_none, (hmapped p).isSome_iff]
      simp
    rw [forall_congr' hfinds, ← Map.isEmpty_entries_iff, ite_eq_left_iff]
    exact ⟨fun hempty => by_contra fun hentries => Option.some_ne_none _ (hempty hentries),
      fun hempty hentries => absurd hempty hentries⟩
  · intro peers hpeers p
    split at hpeers
    · cases hpeers
    · obtain rfl := Option.some.inj hpeers
      refine ⟨?_, fun ttl httl => ?_⟩
      · rw [← AList.mem_keys, ← AList.lookup_isSome]
        exact (hmapped p).isSome_iff
      · have hknown := hmapped p
        rw [httl] at hknown
        cases hknown with
        | known _ hmax => exact RightTtl.of_maxUpTo hmax

end Discovery

end Consentry
