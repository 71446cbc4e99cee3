import Consentry.PeerManager.Basic

/-!
# Discovery (`discovery/mod.rs`, `discovery/subnet_predicate.rs`)

`Discovery` without the discv5 service, its events and the ENR file. What discv5 answers to a query
is an argument of the completion of the query, so the predicate that the query is started with is
not kept; nor is the local ENR, but for whether it has an `eth2` field. `DiscoveryOp` lists the
calls that concern queries and `Discovery.step` runs one of them.
-/

namespace Consentry

open Lib

/-- Target number of peers to search for given a grouped subnet query. -/
def targetPeersForGroupedQuery : ℕ := 6

/-- Number of times to attempt a discovery request. -/
def maxDiscoveryRetry : ℕ := 3

/-- The maximum number of concurrent subnet discovery queries. -/
def maxConcurrentSubnetQueries : ℕ := 2

/-- The max number of subnets to search for in a single subnet discovery query. -/
def maxSubnetsInQuery : ℕ := 3

/-- The number of closest peers to search for when doing a regular peer search. -/
def findNodeQueryClosestPeers : ℕ := 16

/-- The threshold for updating `min_ttl` on a connected peer, 1 ms. -/
def durationDifference : ℕ := 1000000

/-- The capacity of the cache of records. -/
def cachedEnrsCapacity : ℕ := 50

/-! ## Queries -/

structure SubnetQuery where
  subnet : Subnet
  minTtl : Option Instant
  retries : ℕ
  deriving DecidableEq, Repr

/-- Long lived requests do not expire. -/
def SubnetQuery.expired (query : SubnetQuery) (now : Instant) : Bool :=
  match query.minTtl with
  | some ttl => decide (ttl < now)
  | none => false

/-- `<` of the optional times: no time is before every time. -/
def minTtlLt : Option Instant → Option Instant → Bool
  | none, none => false
  | none, some _ => true
  | some _, none => false
  | some t, some t' => decide (t < t')

inductive QueryType
  | subnet (queries : List SubnetQuery)
  | findPeers
  deriving DecidableEq, Repr

/-- A query that runs, and the number of peers at which it ends. -/
structure ActiveQuery where
  queryType : QueryType
  targetPeers : ℕ
  deriving DecidableEq, Repr

/-- A record that a query found. -/
structure FoundEnr where
  peerId : PeerId
  enr : Enr
  deriving DecidableEq, Repr

abbrev QueryResult := Except String (List FoundEnr)

/-- The predicate for the given subnets. -/
def subnetPredicate (subnets : List Subnet) (enr : Enr) : Bool :=
  match enr.attestationBitfield with
  | none => false
  | some attestationBitfield => subnets.any fun subnet =>
    match subnet with
    | .attestation s => (attestationBitfield.get s).getD false
    | .syncCommittee s =>
      -- Pre-fork ENRs may not contain a syncnets field.
      match enr.syncCommitteeBitfield with
      | some syncCommitteeBitfield => (syncCommitteeBitfield.get s).getD false
      | none => false

/-! ## The state -/

structure Discovery where
  /-- The seen live ENRs, the most recent one first. -/
  cachedEnrs : List (PeerId × Enr)
  findPeerActive : Bool
  queuedQueries : List SubnetQuery
  /-- The running queries, by the order in which they were started. -/
  activeQueries : Map ℕ ActiveQuery
  /-- The number of queries started so far. -/
  startedQueries : ℕ
  started : Bool
  /-- The local ENR has an `eth2` field that decodes. -/
  hasForkId : Bool

namespace Discovery

/-- `Discovery::new`; `started` when discovery is not disabled. -/
def new (started hasForkId : Bool) : Discovery where
  cachedEnrs := []
  findPeerActive := false
  queuedQueries := []
  activeQueries := ∅
  startedQueries := 0
  started := started
  hasForkId := hasForkId

/-- `cached_enrs.put`. -/
def cacheEnr (d : Discovery) (found : FoundEnr) : Discovery :=
  { d with cachedEnrs := ((found.peerId, found.enr) ::
      d.cachedEnrs.filter fun e => e.1 ≠ found.peerId).take cachedEnrsCapacity }

/-! ## The queue -/

/-- The loop over the queue that merges a query into the first entry of its subnet, or `none`
when there is no such entry. -/
def mergeQuery (subnet : Subnet) (minTtl : Option Instant) (retries : ℕ) :
    List SubnetQuery → Option (List SubnetQuery)
  | [] => none
  | query :: queue =>
    if query.subnet = subnet then
      let minTtl := if minTtlLt query.minTtl minTtl then minTtl else query.minTtl
      some ({ query with minTtl := minTtl, retries := retries } :: queue)
    else (mergeQuery subnet minTtl retries queue).map (query :: ·)

/-- Adds a subnet query if one doesn't exist. If a subnet query already exists, this updates the
`min_ttl` field. -/
def addSubnetQuery (d : Discovery) (subnet : Subnet) (minTtl : Option Instant) (retries : ℕ) :
    Discovery :=
  if maxDiscoveryRetry < retries then d
  else
    match mergeQuery subnet minTtl retries d.queuedQueries with
    | some queue => { d with queuedQueries := queue }
    | none => { d with queuedQueries := d.queuedQueries ++ [⟨subnet, minTtl, retries⟩] }

/-- The maximum number of concurrent subnet queries is being processed. -/
def atCapacity (d : Discovery) : Bool :=
  decide (maxConcurrentSubnetQueries ≤ d.activeQueries.keys.length - d.findPeerActive.toNat)

/-- Starts a query, unless it has no subnets or the local ENR has no fork id. -/
def startQuery (d : Discovery) (query : QueryType) (targetPeers : ℕ) : Discovery :=
  let containsQueries := match query with
    | .subnet queries => !queries.isEmpty
    | .findPeers => true
  if !containsQueries then d
  else if !d.hasForkId then d
  else
    { d with
      activeQueries := d.activeQueries.insert d.startedQueries ⟨query, targetPeers⟩
      startedQueries := d.startedQueries + 1 }

/-- Runs a discovery request for a given group of subnets. `goodPeers` are the numbers of good
peers on the subnets. -/
def startSubnetQuery (d : Discovery) (goodPeers : Subnet → ℕ) (subnetQueries : List SubnetQuery) :
    Discovery :=
  let filteredSubnetQueries := subnetQueries.filter fun subnetQuery =>
    decide (goodPeers subnetQuery.subnet < targetSubnetPeers)
  if !filteredSubnetQueries.isEmpty then
    d.startQuery (.subnet filteredSubnetQueries) targetPeersForGroupedQuery
  else d

/-- The loop of `process_queue`: what is left of the queue, and the queries that are grouped so far.
It returns the groups that were passed to `start_subnet_query` with the state. -/
def drainQueue (goodPeers : Subnet → ℕ) :
    List SubnetQuery → List SubnetQuery → Discovery → Discovery × List (List SubnetQuery)
  | [], _, d => ({ d with queuedQueries := [] }, [])
  | subnetQuery :: queue, subnetQueries, d =>
    if d.atCapacity then ({ d with queuedQueries := subnetQuery :: queue }, [])
    else
      let subnetQueries := subnetQueries ++ [subnetQuery]
      if subnetQueries.length = maxSubnetsInQuery ∨ queue.isEmpty = true then
        let (d, groups) :=
          drainQueue goodPeers queue [] (d.startSubnetQuery goodPeers subnetQueries)
        (d, subnetQueries :: groups)
      else drainQueue goodPeers queue subnetQueries d

/-- The queue without the out-dated queries. `clock` are the times at which they are checked. -/
def sanitizedQueue (d : Discovery) (clock : Subnet → Instant) : List SubnetQuery :=
  d.queuedQueries.filter fun query => !query.expired (clock query.subnet)

/-- Consumes the discovery queue and initiates queries when applicable. The result of the source is
whether there are groups. -/
def processQueue (d : Discovery) (goodPeers : Subnet → ℕ) (clock : Subnet → Instant) :
    Discovery × List (List SubnetQuery) :=
  drainQueue goodPeers (d.sanitizedQueue clock) [] d

/-! ## Requests -/

/-- Starts a `FindPeers` query if there is none. -/
def discoverPeers (d : Discovery) (targetPeers : ℕ) : Discovery :=
  if !d.started || d.findPeerActive then d
  else
    { d with findPeerActive := true }.startQuery .findPeers
      (min findNodeQueryClosestPeers targetPeers)

/-- Processes a request to search for more peers on subnets. -/
def discoverSubnetPeers (d : Discovery) (subnetsToDiscover : List SubnetDiscovery) : Discovery :=
  if !d.started then d
  else subnetsToDiscover.foldl (fun d subnet => d.addSubnetQuery subnet.subnet subnet.minTtl 0) d

/-! ## Completed queries -/

/-- Maps a peer that a query found to the `min_ttl` furthest in the future. -/
def mapMinTtl (mappedResults : Map PeerId (Option Instant)) (minTtl : Option Instant)
    (peerId : PeerId) : Map PeerId (Option Instant) :=
  match minTtl, mappedResults.lookup peerId with
  | some minTtl, some (some otherMinTtl) =>
    if durationDifference < minTtl - otherMinTtl then mappedResults.insert peerId (some minTtl)
    else mappedResults
  | some minTtl, some none => mappedResults.insert peerId (some minTtl)
  | some minTtl, none => mappedResults.insert peerId (some minTtl)
  | none, none => mappedResults.insert peerId none
  | none, some _ => mappedResults

/-- The round of `process_completed_queries` for one query of the group: it goes back to the queue,
and the records on its subnet are mapped to its `min_ttl`. -/
def mapSubnetQuery (r : List FoundEnr) (s : Discovery × Map PeerId (Option Instant))
    (query : SubnetQuery) : Discovery × Map PeerId (Option Instant) :=
  (s.1.addSubnetQuery query.subnet query.minTtl (query.retries + 1),
    ((r.filter fun found => subnetPredicate [query.subnet] found.enr).map (·.peerId)).foldl
      (fun mappedResults peerId => mapMinTtl mappedResults query.minTtl peerId) s.2)

/-- Processes the completed query returned from discv5. -/
def processCompletedQueries (d : Discovery) (query : QueryType) (result : QueryResult) :
    Discovery × Option (Map PeerId (Option Instant)) :=
  match query with
  | .findPeers =>
    let d := { d with findPeerActive := false }
    match result with
    | .ok [] => (d, none)
    | .ok r =>
      (r.foldl cacheEnr d, some (r.foldl (fun results found => results.insert found.peerId none) ∅))
    | .error _ => (d, none)
  | .subnet queries =>
    match result with
    | .ok [] =>
      (queries.foldl (fun d query =>
        d.addSubnetQuery query.subnet query.minTtl (query.retries + 1)) d, none)
    | .ok r =>
      let (d, mappedResults) := queries.foldl (mapSubnetQuery r) (r.foldl cacheEnr d, ∅)
      (d, if mappedResults.entries.isEmpty then none else some mappedResults)
    | .error _ => (d, none)

/-! ## Steps -/

end Discovery

/-- The calls that discovery receives, with what they read from outside: the peers on the subnets,
the clock and the results of discv5. -/
inductive DiscoveryOp
  | discoverPeers (targetPeers : ℕ)
  | discoverSubnetPeers (subnetsToDiscover : List SubnetDiscovery)
  | processQueue (goodPeers : Subnet → ℕ) (clock : Subnet → Instant)
  | complete (query : ℕ) (result : QueryResult)

namespace Discovery

/-- An active query completes. -/
def complete (d : Discovery) (query : ℕ) (result : QueryResult) : Discovery :=
  match d.activeQueries.lookup query with
  | some active =>
    ({ d with activeQueries := d.activeQueries.erase query }.processCompletedQueries
      active.queryType result).1
  | none => d

def step (d : Discovery) : DiscoveryOp → Discovery
  | .discoverPeers targetPeers => d.discoverPeers targetPeers
  | .discoverSubnetPeers subnetsToDiscover => d.discoverSubnetPeers subnetsToDiscover
  | .processQueue goodPeers clock => (d.processQueue goodPeers clock).1
  | .complete query result => d.complete query result

end Discovery

end Consentry
