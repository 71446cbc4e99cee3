import Consentry.PeerInfo

/-!
# Counters of banned peers (`BannedPeersCount` of `peer_manager/peerdb.rs`)

The number of banned peers, and for every IP the number of seen socket addresses of
banned peers with that IP. The lemmas reduce both updates to `perIp`, the counter of
an IP with 0 for an absent one: they add and take away multiplicities of the list of
IPs they are given.
-/

namespace Consentry

open Lib

/-- An IP is banned when more than this many banned peers are counted on it. -/
def bannedPeersPerIpThreshold : ℕ := 5

structure BannedPeersCount where
  bannedPeers : Counter
  bannedPeersPerIp : Map IpAddr Counter

namespace BannedPeersCount

/-- `BannedPeersCount::default()`. -/
def empty : BannedPeersCount := ⟨.zero, ∅⟩

def decrementIp (m : Map IpAddr Counter) (address : IpAddr) : Map IpAddr Counter :=
  match m.lookup address with
  | some count => m.insert address count.saturatingSub
  | none => m

def incrementIp (m : Map IpAddr Counter) (address : IpAddr) : Map IpAddr Counter :=
  m.insert address (((m.lookup address).getD .zero).add 1)

def removeBannedPeer (c : BannedPeersCount) (ipAddresses : List IpAddr) : BannedPeersCount where
  bannedPeers := c.bannedPeers.saturatingSub
  bannedPeersPerIp := ipAddresses.foldl decrementIp c.bannedPeersPerIp

def addBannedPeer (c : BannedPeersCount) (ipAddresses : List IpAddr) : BannedPeersCount where
  bannedPeers := c.bannedPeers.add 1
  bannedPeersPerIp := ipAddresses.foldl incrementIp c.bannedPeersPerIp

def ipIsBanned (c : BannedPeersCount) (ip : IpAddr) : Bool :=
  (c.bannedPeersPerIp.lookup ip).elim false fun count =>
    decide (bannedPeersPerIpThreshold < count.val)

def bannedIps (c : BannedPeersCount) : List IpAddr :=
  (c.bannedPeersPerIp.entries.filter fun e =>
    decide (bannedPeersPerIpThreshold < e.2.val)).map (·.1)

theorem mem_bannedIps {c : BannedPeersCount} {ip : IpAddr} :
    ip ∈ c.bannedIps ↔ c.ipIsBanned ip = true := by
  unfold bannedIps ipIsBanned
  simp only [List.mem_map, List.mem_filter]
  constructor
  · rintro ⟨⟨a, n⟩, ⟨hmem, hn⟩, rfl⟩
    simpa [Map.mem_entries_iff.1 hmem] using hn
  · intro h
    cases hl : c.bannedPeersPerIp.lookup ip with
    | none => simp [hl] at h
    | some n => exact ⟨⟨ip, n⟩, ⟨Map.mem_entries_iff.2 hl, by simpa [hl] using h⟩, rfl⟩

/-- The banned ones among `ips`: what an event of a ban carries. -/
theorem filter_bannedIps_contains (c : BannedPeersCount) (ips : List IpAddr) :
    ips.filter (fun ip => c.bannedIps.contains ip) = ips.filter c.ipIsBanned := by
  refine List.filter_congr fun ip _ => ?_
  rw [Bool.eq_iff_iff, List.contains_iff_mem, mem_bannedIps]

/-! ## The counter of one IP -/

/-- The counter of an IP, 0 when it has none. -/
def perIp (c : BannedPeersCount) (ip : IpAddr) : ℕ :=
  (c.bannedPeersPerIp.lookup ip).elim 0 Counter.val

theorem ipIsBanned_eq (c : BannedPeersCount) (ip : IpAddr) :
    c.ipIsBanned ip = decide (bannedPeersPerIpThreshold < c.perIp ip) := by
  unfold ipIsBanned perIp
  cases c.bannedPeersPerIp.lookup ip with
  | none => rfl
  | some count => rfl

/-- No counter of the map has saturated. -/
def Unsaturated (m : Map IpAddr Counter) : Prop :=
  ∀ ip count, m.lookup ip = some count → count.saturated = false

private theorem lookup_decrementIp (m : Map IpAddr Counter) (a ip : IpAddr) :
    (decrementIp m a).lookup ip =
      if ip = a then (m.lookup ip).map Counter.saturatingSub else m.lookup ip := by
  unfold decrementIp
  by_cases h : ip = a
  · subst h
    cases hl : m.lookup ip with
    | none => simp [hl]
    | some n => simp
  · cases hl : m.lookup a <;> simp [h]

private theorem lookup_incrementIp (m : Map IpAddr Counter) (a ip : IpAddr) :
    (incrementIp m a).lookup ip =
      if ip = a then some (((m.lookup ip).getD .zero).add 1) else m.lookup ip := by
  unfold incrementIp
  by_cases h : ip = a
  · subst h; simp
  · simp [h]

private theorem foldl_incrementIp (ips : List IpAddr) (m : Map IpAddr Counter) (ip : IpAddr) :
    ((ips.foldl incrementIp m).lookup ip).elim 0 Counter.val =
      (m.lookup ip).elim 0 Counter.val + ips.count ip := by
  induction ips generalizing m with
  | nil => rfl
  | cons a ips ih =>
    rw [List.foldl_cons, ih, lookup_incrementIp]
    by_cases h : ip = a
    · subst h
      cases m.lookup ip with
      | none => simp; omega
      | some n => simp; omega
    · have hne : (a == ip) = false := by simpa using fun e => h e.symm
      simp [h, List.count_cons, hne]

private theorem foldl_decrementIp (ips : List IpAddr) (m : Map IpAddr Counter) (ip : IpAddr) :
    ((ips.foldl decrementIp m).lookup ip).elim 0 Counter.val =
      (m.lookup ip).elim 0 Counter.val - ips.count ip := by
  induction ips generalizing m with
  | nil => rfl
  | cons a ips ih =>
    rw [List.foldl_cons, ih, lookup_decrementIp]
    by_cases h : ip = a
    · subst h
      cases m.lookup ip with
      | none => simp
      | some n => simp; omega
    · have hne : (a == ip) = false := by simpa using fun e => h e.symm
      simp [h, List.count_cons, hne]

@[simp] theorem perIp_addBannedPeer (c : BannedPeersCount) (ips : List IpAddr) (ip : IpAddr) :
    (c.addBannedPeer ips).perIp ip = c.perIp ip + ips.count ip :=
  foldl_incrementIp ips c.bannedPeersPerIp ip

@[simp] theorem perIp_removeBannedPeer (c : BannedPeersCount) (ips : List IpAddr)
    (ip : IpAddr) : (c.removeBannedPeer ips).perIp ip = c.perIp ip - ips.count ip :=
  foldl_decrementIp ips c.bannedPeersPerIp ip

@[simp] theorem bannedPeers_addBannedPeer (c : BannedPeersCount) (ips : List IpAddr) :
    (c.addBannedPeer ips).bannedPeers = c.bannedPeers.add 1 := rfl

@[simp] theorem bannedPeers_removeBannedPeer (c : BannedPeersCount) (ips : List IpAddr) :
    (c.removeBannedPeer ips).bannedPeers = c.bannedPeers.saturatingSub := rfl

theorem ipIsBanned_addBannedPeer_of_not_mem {c : BannedPeersCount} {ips : List IpAddr}
    {ip : IpAddr} (h : ip ∉ ips) : (c.addBannedPeer ips).ipIsBanned ip = c.ipIsBanned ip := by
  simp [ipIsBanned_eq, List.count_eq_zero_of_not_mem h]

theorem ipIsBanned_removeBannedPeer_of_not_mem {c : BannedPeersCount} {ips : List IpAddr}
    {ip : IpAddr} (h : ip ∉ ips) :
    (c.removeBannedPeer ips).ipIsBanned ip = c.ipIsBanned ip := by
  simp [ipIsBanned_eq, List.count_eq_zero_of_not_mem h]

theorem ipIsBanned_addBannedPeer_of_banned {c : BannedPeersCount} {ips : List IpAddr}
    {ip : IpAddr} (h : c.ipIsBanned ip = true) :
    (c.addBannedPeer ips).ipIsBanned ip = true := by
  simp only [ipIsBanned_eq, decide_eq_true_eq, perIp_addBannedPeer] at h ⊢
  omega

theorem ipIsBanned_of_removeBannedPeer {c : BannedPeersCount} {ips : List IpAddr} {ip : IpAddr}
    (h : (c.removeBannedPeer ips).ipIsBanned ip = true) : c.ipIsBanned ip = true := by
  simp only [ipIsBanned_eq, decide_eq_true_eq, perIp_removeBannedPeer] at h ⊢
  omega

/-! ## Saturation -/

theorem unsaturated_empty : Unsaturated empty.bannedPeersPerIp := by
  intro ip count h
  simp [empty] at h

theorem Unsaturated.addBannedPeer {c : BannedPeersCount} (h : Unsaturated c.bannedPeersPerIp)
    (ips : List IpAddr) : Unsaturated (c.addBannedPeer ips).bannedPeersPerIp := by
  unfold BannedPeersCount.addBannedPeer
  simp only
  generalize c.bannedPeersPerIp = m at h
  induction ips generalizing m with
  | nil => exact h
  | cons a ips ih =>
    refine ih _ fun ip count hl => ?_
    rw [lookup_incrementIp] at hl
    split at hl
    · cases hm : m.lookup ip with
      | none => simp only [hm, Option.some.injEq] at hl; subst hl; rfl
      | some n =>
        simp only [hm, Option.some.injEq, Option.getD_some] at hl
        subst hl
        exact h ip n hm
    · exact h ip count hl

/-- Removing a peer saturates nothing when every IP it was seen on is counted at least
as often as it was seen on it. -/
theorem Unsaturated.removeBannedPeer {c : BannedPeersCount} (h : Unsaturated c.bannedPeersPerIp)
    {ips : List IpAddr} (hle : ∀ ip, ips.count ip ≤ c.perIp ip) :
    Unsaturated (c.removeBannedPeer ips).bannedPeersPerIp := by
  unfold BannedPeersCount.removeBannedPeer
  unfold perIp at hle
  simp only
  generalize c.bannedPeersPerIp = m at h hle
  induction ips generalizing m with
  | nil => exact h
  | cons a ips ih =>
    have hstep : ∀ ip, (m.lookup ip).elim 0 Counter.val - (if ip = a then 1 else 0) =
        ((decrementIp m a).lookup ip).elim 0 Counter.val := by
      intro ip
      rw [lookup_decrementIp]
      split <;> cases m.lookup ip <;> simp
    refine ih _ (fun ip count hl => ?_) fun ip => ?_
    · rw [lookup_decrementIp] at hl
      split at hl
      · next heq =>
        subst heq
        obtain ⟨n, hn, rfl⟩ := Option.map_eq_some_iff.1 hl
        have hpos : 0 < n.val := by
          have := hle ip
          simp only [List.count_cons_self, hn, Option.elim_some] at this
          omega
        rw [Counter.saturatingSub_saturated hpos]
        exact h ip n hn
      · exact h ip count hl
    · rw [← hstep ip]
      have := hle ip
      rw [List.count_cons] at this
      by_cases hia : ip = a
      · subst hia; simp at this ⊢; omega
      · have hne : (a == ip) = false := by simpa using fun e => hia e.symm
        simpa [hia, hne] using this

end BannedPeersCount

end Consentry
