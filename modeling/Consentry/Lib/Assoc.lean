import Mathlib.Data.List.AList
import Mathlib.Algebra.BigOperators.Group.Finset.Basic
import Mathlib.Algebra.Order.BigOperators.Group.List
import Mathlib.Algebra.Order.Ring.Nat

/-!
# Association maps, saturating counters and unspecified orders

* `Map κ ν` is a finite map without duplicate keys. `Map.total w m` adds up a weight
  over its entries; the lemmas give the effect of an insertion, an erasure and an
  update of all values on a total (`total_insert_add`, `total_erase_add`,
  `total_mapVal`), stated without subtraction.
* `Counter` is a natural number with a saturating subtraction that remembers whether
  it ever saturated. `Counter.Tracks c p m` says that it is the number of entries with
  a property, and `Counter.Tracks.move` what keeps it so when one entry changes.
* `Shuffle α` is an order in which a collection is iterated when its own order is not
  specified: any function that permutes every list.
* `DistinctList α` is a set kept as a list without duplicates.
-/

namespace Consentry.Lib

/-! ## Maps -/

/-- A finite map without duplicate keys. -/
abbrev Map (κ ν : Type*) := AList fun _ : κ => ν

namespace Map

section

variable {κ ν : Type*} [DecidableEq κ]

/-- An entry of the map, as iteration yields it. -/
abbrev Entry (κ ν : Type*) := Sigma fun _ : κ => ν

theorem mem_entries_iff {m : Map κ ν} {k : κ} {v : ν} :
    (⟨k, v⟩ : Entry κ ν) ∈ m.entries ↔ m.lookup k = some v :=
  AList.mem_lookup_iff.symm

theorem isEmpty_entries_iff {m : Map κ ν} :
    m.entries.isEmpty = true ↔ ∀ k, m.lookup k = none := by
  rw [List.isEmpty_iff, List.eq_nil_iff_forall_not_mem]
  constructor
  · intro hnone k
    rw [Option.eq_none_iff_forall_ne_some]
    intro v hv
    exact hnone ⟨k, v⟩ (mem_entries_iff.2 hv)
  · rintro hnone ⟨k, v⟩ he
    rw [mem_entries_iff, hnone] at he
    cases he

theorem lookup_insert_eq (m : Map κ ν) (k k' : κ) (v : ν) :
    (m.insert k v).lookup k' = if k' = k then some v else m.lookup k' := by
  by_cases h : k' = k
  · subst h; simp
  · simp [h]

theorem lookup_erase_eq (m : Map κ ν) (k k' : κ) :
    (m.erase k).lookup k' = if k' = k then none else m.lookup k' := by
  by_cases h : k' = k
  · subst h; simp
  · simp [h]

/-- The entries of several keys are erased. -/
theorem lookup_foldl_erase (ks : List κ) (m : Map κ ν) (k : κ) :
    (ks.foldl (fun m k => m.erase k) m).lookup k = if k ∈ ks then none else m.lookup k := by
  induction ks generalizing m with
  | nil => simp
  | cons k' ks ih =>
    rw [List.foldl_cons, ih, lookup_erase_eq]
    by_cases hks : k ∈ ks
    · rw [if_pos hks, if_pos (List.mem_cons_of_mem k' hks)]
    · rw [if_neg hks]
      by_cases hk : k = k'
      · rw [if_pos hk, if_pos (hk ▸ List.mem_cons_self)]
      · rw [if_neg hk, if_neg fun hmem => (List.mem_cons.1 hmem).elim hk hks]

/-- One more key is stored, and erased with the others if it is not to be kept. -/
theorem lookup_foldl_erase_insert {ks : List κ} (m : Map κ ν) {k : κ} (hk : k ∉ ks) (v : ν)
    (remove : Bool) (k' : κ) :
    ((if remove then ks ++ [k] else ks).foldl (fun m k => m.erase k) (m.insert k v)).lookup k' =
      if k' = k then (if remove then none else some v)
      else (ks.foldl (fun m k => m.erase k) m).lookup k' := by
  rw [lookup_foldl_erase, lookup_foldl_erase, lookup_insert_eq]
  by_cases hk' : k' = k
  · subst hk'
    cases remove <;> simp [hk]
  · cases remove <;> simp [hk']

/-- Update of every value in place. -/
def mapVal (f : κ → ν → ν) (m : Map κ ν) : Map κ ν where
  entries := m.entries.map fun e => ⟨e.1, f e.1 e.2⟩
  nodupKeys := by
    have hkeys : List.keys (m.entries.map fun e => (⟨e.1, f e.1 e.2⟩ : Entry κ ν)) =
        List.keys m.entries := by
      simp [List.keys, Function.comp_def]
    rw [List.NodupKeys, hkeys]
    exact m.nodupKeys

@[simp] theorem lookup_mapVal (f : κ → ν → ν) (m : Map κ ν) (k : κ) :
    (m.mapVal f).lookup k = (m.lookup k).map (f k) := by
  obtain ⟨l, hl⟩ := m
  simp only [AList.lookup, mapVal]
  clear hl
  induction l with
  | nil => rfl
  | cons e l ih =>
    obtain ⟨k', v⟩ := e
    rw [List.map_cons]
    by_cases h : k = k'
    · subst h; simp
    · rw [List.dlookup_cons_ne _ _ h, List.dlookup_cons_ne _ _ h, ih]

/-- Removal of the entries that fail `p` (`HashMap::retain`). -/
def retain (p : κ → ν → Bool) (m : Map κ ν) : Map κ ν where
  entries := m.entries.filter fun e => p e.1 e.2
  nodupKeys := m.nodupKeys.sublist List.filter_sublist

theorem lookup_retain (p : κ → ν → Bool) (m : Map κ ν) (k : κ) :
    (m.retain p).lookup k = (m.lookup k).filter (p k) := by
  ext v
  rw [Option.filter_eq_some_iff, ← mem_entries_iff, ← mem_entries_iff]
  exact List.mem_filter

/-! ### Totals -/

/-- The sum of the weights of the entries. -/
def total (w : κ → ν → ℕ) (m : Map κ ν) : ℕ :=
  (m.entries.map fun e => w e.1 e.2).sum

/-- The weight of the entry of `k`, 0 when there is none. -/
def weightAt (w : κ → ν → ℕ) (m : Map κ ν) (k : κ) : ℕ :=
  (m.lookup k).elim 0 (w k)

theorem weightAt_of_lookup {w : κ → ν → ℕ} {m : Map κ ν} {k : κ} {v : ν}
    (h : m.lookup k = some v) : m.weightAt w k = w k v := by
  simp [weightAt, h]

private theorem sum_kerase_add (w : κ → ν → ℕ) (k : κ) (l : List (Entry κ ν)) :
    ((List.kerase k l).map fun e => w e.1 e.2).sum + (List.dlookup k l).elim 0 (w k) =
      (l.map fun e => w e.1 e.2).sum := by
  induction l with
  | nil => rfl
  | cons e l ih =>
    obtain ⟨k', v⟩ := e
    by_cases h : k = k'
    · subst h
      simp [Nat.add_comm]
    · rw [List.kerase_cons_ne h, List.dlookup_cons_ne _ _ h]
      simp only [List.map_cons, List.sum_cons]
      omega

/-- What an erasure takes away. -/
theorem total_erase_add (w : κ → ν → ℕ) (m : Map κ ν) (k : κ) :
    total w (m.erase k) + m.weightAt w k = total w m :=
  sum_kerase_add w k m.entries

/-- What an insertion replaces and brings. -/
theorem total_insert_add (w : κ → ν → ℕ) (m : Map κ ν) (k : κ) (v : ν) :
    total w (m.insert k v) + m.weightAt w k = total w m + w k v := by
  have h := total_erase_add w m k
  have hins : total w (m.insert k v) = w k v + total w (m.erase k) := by
    have hentries : (m.erase k).entries = m.entries.kerase k := rfl
    rw [total, total, AList.entries_insert, hentries, List.map_cons, List.sum_cons]
  omega

omit [DecidableEq κ] in
theorem total_mapVal (w : κ → ν → ℕ) (f : κ → ν → ν) (m : Map κ ν) :
    total w (m.mapVal f) = total (fun k v => w k (f k v)) m := by
  simp [total, mapVal, Function.comp_def]

theorem total_congr {w w' : κ → ν → ℕ} {m : Map κ ν}
    (h : ∀ k v, m.lookup k = some v → w k v = w' k v) : total w m = total w' m := by
  unfold total
  congr 1
  exact List.map_congr_left fun e he => h e.1 e.2 (mem_entries_iff.1 he)

theorem total_le_total {w w' : κ → ν → ℕ} {m : Map κ ν}
    (h : ∀ k v, m.lookup k = some v → w k v ≤ w' k v) : total w m ≤ total w' m := by
  unfold total
  exact List.sum_le_sum fun e he => h e.1 e.2 (mem_entries_iff.1 he)

theorem total_lt_total {w w' : κ → ν → ℕ} {m : Map κ ν}
    (h : ∀ k v, m.lookup k = some v → w k v ≤ w' k v) {k : κ} {v : ν} (hk : m.lookup k = some v)
    (hlt : w k v < w' k v) : total w m < total w' m := by
  unfold total
  exact List.sum_lt_sum _ _ (fun e he => h e.1 e.2 (mem_entries_iff.1 he))
    ⟨⟨k, v⟩, mem_entries_iff.2 hk, hlt⟩

/-- A total is a sum over the keys. -/
private theorem total_eq_sum (w : κ → ν → ℕ) (m : Map κ ν) :
    total w m = ∑ k ∈ m.keys.toFinset, m.weightAt w k := by
  rw [List.sum_toFinset _ m.keys_nodup]
  unfold total AList.keys List.keys
  rw [List.map_map]
  congr 1
  exact List.map_congr_left fun e he => (weightAt_of_lookup (mem_entries_iff.1 he)).symm

private theorem weightAt_of_not_mem {w : κ → ν → ℕ} {m : Map κ ν} {k : κ}
    (h : k ∉ m.keys.toFinset) : m.weightAt w k = 0 := by
  have hk : k ∉ m := fun hmem => h (List.mem_toFinset.2 (AList.mem_keys.1 hmem))
  simp [weightAt, AList.lookup_eq_none.2 hk]

/-- Maps whose keys weigh the same have the same total. -/
theorem total_eq_of_weightAt {w w' : κ → ν → ℕ} {m m' : Map κ ν}
    (h : ∀ k, m'.weightAt w' k = m.weightAt w k) : total w' m' = total w m := by
  have hl : ∑ k ∈ m'.keys.toFinset, m'.weightAt w' k =
      ∑ k ∈ m.keys.toFinset ∪ m'.keys.toFinset, m'.weightAt w' k :=
    Finset.sum_subset Finset.subset_union_right fun k _ hk => weightAt_of_not_mem hk
  have hr : ∑ k ∈ m.keys.toFinset, m.weightAt w k =
      ∑ k ∈ m.keys.toFinset ∪ m'.keys.toFinset, m.weightAt w k :=
    Finset.sum_subset Finset.subset_union_left fun k _ hk => weightAt_of_not_mem hk
  rw [total_eq_sum, total_eq_sum, hl, hr]
  exact Finset.sum_congr rfl fun k _ => h k

/-- A change of the weight of one key changes the total by as much. -/
theorem total_add_weightAt {w : κ → ν → ℕ} {m m' : Map κ ν} {k : κ}
    (h : ∀ k', k' ≠ k → m'.weightAt w k' = m.weightAt w k') :
    total w m' + m.weightAt w k = total w m + m'.weightAt w k := by
  have herase : total w (m'.erase k) = total w (m.erase k) := by
    refine total_eq_of_weightAt fun k' => ?_
    unfold weightAt at h ⊢
    rw [lookup_erase_eq, lookup_erase_eq]
    split
    · rfl
    · next hne => exact h k' hne
  have hm := total_erase_add w m k
  have hm' := total_erase_add w m' k
  omega

/-- The number of entries that satisfy `p`. -/
def count (p : κ → ν → Bool) (m : Map κ ν) : ℕ :=
  m.entries.countP fun e => p e.1 e.2

omit [DecidableEq κ] in
theorem count_eq_total (p : κ → ν → Bool) (m : Map κ ν) :
    m.count p = total (fun k v => if p k v then 1 else 0) m := by
  unfold count total
  induction m.entries with
  | nil => rfl
  | cons e l ih => simp only [List.countP_cons, ih, List.map_cons, List.sum_cons, Nat.add_comm]

/-- What the insertion of a new key brings to a total. -/
theorem total_insert_new (w : κ → ν → ℕ) {m : Map κ ν} {k : κ} (v : ν) (h : m.lookup k = none) :
    total w (m.insert k v) = total w m + w k v := by
  have hadd := total_insert_add w m k v
  rwa [weightAt, h] at hadd

theorem total_erase_of_lookup (w : κ → ν → ℕ) {m : Map κ ν} {k : κ} {v : ν}
    (h : m.lookup k = some v) : total w (m.erase k) + w k v = total w m := by
  rw [← total_erase_add w m k, weightAt_of_lookup h]

theorem count_insert_new (p : κ → ν → Bool) {m : Map κ ν} {k : κ} (v : ν)
    (h : m.lookup k = none) : count p (m.insert k v) = m.count p + (p k v).toNat := by
  rw [count_eq_total, count_eq_total, total_insert_new _ v h]
  cases p k v <;> rfl

theorem count_erase_of_lookup (p : κ → ν → Bool) {m : Map κ ν} {k : κ} {v : ν}
    (h : m.lookup k = some v) : count p (m.erase k) + (p k v).toNat = m.count p := by
  rw [count_eq_total, count_eq_total, ← total_erase_of_lookup _ h]
  cases p k v <;> rfl

theorem count_congr {p p' : κ → ν → Bool} {m : Map κ ν}
    (h : ∀ k v, m.lookup k = some v → p k v = p' k v) : m.count p = m.count p' := by
  unfold count
  refine List.countP_congr fun e he => ?_
  rw [h e.1 e.2 (mem_entries_iff.1 he)]

/-- Two properties that differ in one entry. -/
theorem count_add_of_lookup {p p' : κ → ν → Bool} {m : Map κ ν} {k : κ} {v : ν}
    (h : m.lookup k = some v)
    (hother : ∀ k' v', k' ≠ k → m.lookup k' = some v' → p k' v' = p' k' v') :
    m.count p + (p' k v).toNat = m.count p' + (p k v).toNat := by
  have hp := count_erase_of_lookup p h
  have hp' := count_erase_of_lookup p' h
  have hsame : count p (m.erase k) = count p' (m.erase k) := by
    refine count_congr fun k' v' hk' => ?_
    rw [lookup_erase_eq] at hk'
    split at hk'
    · cases hk'
    · next hne => exact hother k' v' hne hk'
  omega

theorem count_le_count {p p' : κ → ν → Bool} {m : Map κ ν}
    (h : ∀ k v, m.lookup k = some v → p k v = true → p' k v = true) : m.count p ≤ m.count p' := by
  unfold count
  exact List.countP_mono_left fun e he => h e.1 e.2 (mem_entries_iff.1 he)

omit [DecidableEq κ] in
theorem count_add_count_not (p : κ → ν → Bool) (m : Map κ ν) :
    m.count p + m.count (fun k v => !p k v) = m.keys.length := by
  unfold count AList.keys List.keys
  rw [List.length_map, List.length_eq_countP_add_countP fun e : Entry κ ν => p e.1 e.2]
  simp

theorem count_pos_iff {p : κ → ν → Bool} {m : Map κ ν} :
    0 < m.count p ↔ ∃ k v, m.lookup k = some v ∧ p k v = true := by
  unfold count
  rw [List.countP_pos_iff]
  constructor
  · rintro ⟨⟨k, v⟩, he, hp⟩
    exact ⟨k, v, mem_entries_iff.1 he, hp⟩
  · rintro ⟨k, v, hk, hp⟩
    exact ⟨⟨k, v⟩, mem_entries_iff.2 hk, hp⟩

end

end Map

/-! ## Counters -/

/-- A counter with saturating subtraction. `saturated` is a ghost flag: it is set once
a subtraction has been asked to go below zero, and nothing computes with it. -/
structure Counter where
  val : ℕ
  saturated : Bool
  deriving DecidableEq, Repr

namespace Counter

def zero : Counter := ⟨0, false⟩

def add (c : Counter) (n : ℕ) : Counter := { c with val := c.val + n }

/-- `saturating_sub(1)`. -/
def saturatingSub (c : Counter) : Counter :=
  ⟨c.val - 1, c.saturated || c.val == 0⟩

@[simp] theorem zero_val : zero.val = 0 := rfl
@[simp] theorem add_val (c : Counter) (n : ℕ) : (c.add n).val = c.val + n := rfl
@[simp] theorem saturatingSub_val (c : Counter) : c.saturatingSub.val = c.val - 1 := rfl

theorem saturatingSub_saturated {c : Counter} (h : 0 < c.val) :
    c.saturatingSub.saturated = c.saturated := by
  simp [saturatingSub, Nat.pos_iff_ne_zero.1 h]

end Counter

/-! ### Counters of entries -/

section

variable {κ ν : Type*} [DecidableEq κ] {p : κ → ν → Bool}

/-- The key has an entry that satisfies `p`. -/
def Map.holdsAt (p : κ → ν → Bool) (m : Map κ ν) (k : κ) : Bool :=
  (m.lookup k).elim false (p k)

private theorem Map.weightAt_toNat (m : Map κ ν) (k : κ) :
    m.weightAt (fun k v => if p k v then 1 else 0) k = (m.holdsAt p k).toNat := by
  unfold weightAt holdsAt
  cases m.lookup k with
  | none => rfl
  | some v => cases hp : p k v <;> simp [hp]

theorem Map.count_add_holdsAt {m m' : Map κ ν} {k : κ}
    (h : ∀ k', k' ≠ k → m'.holdsAt p k' = m.holdsAt p k') :
    m'.count p + (m.holdsAt p k).toNat = m.count p + (m'.holdsAt p k).toNat := by
  rw [count_eq_total, count_eq_total, ← weightAt_toNat, ← weightAt_toNat]
  apply total_add_weightAt
  intro k' hne
  rw [weightAt_toNat, weightAt_toNat, h k' hne]

theorem Map.count_pos_of_holdsAt {m : Map κ ν} {k : κ} (h : m.holdsAt p k = true) :
    0 < m.count p := by
  unfold holdsAt at h
  cases hk : m.lookup k with
  | none => simp [hk] at h
  | some v =>
    rw [hk] at h
    exact List.countP_pos_iff.2 ⟨⟨k, v⟩, mem_entries_iff.2 hk, h⟩

namespace Counter

/-- A counter of the entries in a state, when one entry leaves or enters the state. -/
def moved (c : Counter) : Bool → Bool → Counter
  | true, false => c.saturatingSub
  | false, true => c.add 1
  | true, true | false, false => c

/-- The counter is the number of entries that satisfy `p`, and it has never saturated. -/
structure Tracks (c : Counter) (p : κ → ν → Bool) (m : Map κ ν) : Prop where
  val_eq : c.val = m.count p
  unsaturated : c.saturated = false

omit [DecidableEq κ] in
theorem Tracks.empty : Counter.zero.Tracks p (∅ : Map κ ν) := ⟨rfl, rfl⟩

variable {c c' : Counter} {m m' : Map κ ν}

/-- **One entry changes**: the counter has to move with it. -/
theorem Tracks.move (h : c.Tracks p m) {k : κ}
    (hother : ∀ k', k' ≠ k → m'.holdsAt p k' = m.holdsAt p k')
    (hc : c' = c.moved (m.holdsAt p k) (m'.holdsAt p k)) : c'.Tracks p m' := by
  have hcount := Map.count_add_holdsAt hother
  have hval := h.val_eq
  cases hk : m.holdsAt p k <;> cases hk' : m'.holdsAt p k <;>
    simp only [hk, hk', Bool.toNat_true, Bool.toNat_false, moved] at hcount hc <;> subst hc
  · exact ⟨by omega, h.unsaturated⟩
  · refine ⟨?_, h.unsaturated⟩
    rw [add_val]
    omega
  · have hpos : 0 < c.val := hval ▸ Map.count_pos_of_holdsAt hk
    refine ⟨?_, ?_⟩
    · rw [saturatingSub_val]
      omega
    · rw [saturatingSub_saturated hpos]
      exact h.unsaturated
  · exact ⟨by omega, h.unsaturated⟩

/-- No entry changes its state. -/
theorem Tracks.same (h : c.Tracks p m) (hp : ∀ k, m'.holdsAt p k = m.holdsAt p k) :
    c.Tracks p m' := by
  have hcount : m'.count p = m.count p := by
    rw [Map.count_eq_total, Map.count_eq_total]
    apply Map.total_eq_of_weightAt
    intro k
    rw [Map.weightAt_toNat, Map.weightAt_toNat, hp]
  exact ⟨h.val_eq.trans hcount.symm, h.unsaturated⟩

end Counter

end

/-! ## Unspecified orders -/

/-- An order of iteration or a random shuffle: it permutes every list. -/
structure Shuffle (α : Type*) where
  run : List α → List α
  perm : ∀ l, (run l).Perm l

namespace Shuffle

variable {α : Type*}

instance : Inhabited (Shuffle α) := ⟨⟨id, fun l => List.Perm.refl l⟩⟩

@[simp] theorem mem_run (o : Shuffle α) {l : List α} {a : α} : a ∈ o.run l ↔ a ∈ l :=
  (o.perm l).mem_iff

end Shuffle

/-! ## Sets kept as lists -/

/-- A set kept as a list without duplicates. -/
structure DistinctList (α : Type*) where
  toList : List α
  nodup : toList.Nodup
  deriving DecidableEq

namespace DistinctList

variable {α : Type*} [DecidableEq α]

instance : EmptyCollection (DistinctList α) := ⟨⟨[], List.nodup_nil⟩⟩

instance : Membership α (DistinctList α) := ⟨fun s a => a ∈ s.toList⟩

instance (a : α) (s : DistinctList α) : Decidable (a ∈ s) :=
  inferInstanceAs (Decidable (a ∈ s.toList))

def insert (s : DistinctList α) (a : α) : DistinctList α :=
  ⟨s.toList.insert a, s.nodup.insert⟩

def remove (s : DistinctList α) (a : α) : DistinctList α :=
  ⟨s.toList.erase a, s.nodup.erase a⟩

omit [DecidableEq α] in
theorem mem_toList {s : DistinctList α} {a : α} : a ∈ s.toList ↔ a ∈ s := Iff.rfl

omit [DecidableEq α] in
@[simp] theorem not_mem_empty (a : α) : a ∉ (∅ : DistinctList α) := List.not_mem_nil

@[simp] theorem mem_insert {s : DistinctList α} {a b : α} : b ∈ s.insert a ↔ b = a ∨ b ∈ s :=
  List.mem_insert_iff

@[simp] theorem mem_remove {s : DistinctList α} {a b : α} : b ∈ s.remove a ↔ b ≠ a ∧ b ∈ s :=
  s.nodup.mem_erase_iff

end DistinctList

end Consentry.Lib
