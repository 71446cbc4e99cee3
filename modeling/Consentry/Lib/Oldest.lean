import Consentry.Lib.Assoc

/-!
# Eviction of the oldest entries of a map

Some entries of a map have an age, any value of a linear order. `Drops age m ks m'` says that the
keys `ks` are removed from `m` one after the other, each of them one of the smallest age among the
entries that are left, ties in any order. The result does not depend on how the loop that does it
is written: what is removed has an age (`Drops.aged`), nothing that stays has a smaller one
(`Drops.oldest`), and the other entries are untouched (`Drops.lookup_eq`).
-/

namespace Consentry.Lib

section Oldest

variable {κ ν τ : Type*} [DecidableEq κ] [LinearOrder τ] (age : κ → ν → Option τ)

/-- An entry of the smallest age. -/
def Oldest (m : Map κ ν) (k : κ) : Prop :=
  ∃ v s, m.lookup k = some v ∧ age k v = some s ∧
    ∀ k' v' s', m.lookup k' = some v' → age k' v' = some s' → s ≤ s'

/-- The oldest entries are removed one by one. -/
inductive Drops : Map κ ν → List κ → Map κ ν → Prop
  | done (m : Map κ ν) : Drops m [] m
  | drop {m m' : Map κ ν} {k : κ} {ks : List κ} :
    Oldest age m k → Drops (m.erase k) ks m' → Drops m (k :: ks) m'

namespace Drops

variable {age} {m m' : Map κ ν} {ks : List κ}

theorem lookup_eq (h : Drops age m ks m') (k : κ) :
    m'.lookup k = if k ∈ ks then none else m.lookup k := by
  induction h with
  | done m => simp
  | drop hk hks ih =>
    rename_i k' ks
    rw [ih, Map.lookup_erase_eq]
    by_cases hmem : k ∈ ks
    · rw [if_pos hmem, if_pos (List.mem_cons_of_mem k' hmem)]
    · rw [if_neg hmem]
      by_cases hsame : k = k'
      · rw [if_pos hsame, if_pos (hsame ▸ List.mem_cons_self)]
      · rw [if_neg hsame, if_neg fun hcons => (List.mem_cons.1 hcons).elim hsame hmem]

/-- The keys removed are distinct and have an age. -/
theorem aged (h : Drops age m ks m') :
    ks.Nodup ∧ ∀ k ∈ ks, ∃ v s, m.lookup k = some v ∧ age k v = some s := by
  induction h with
  | done m => exact ⟨List.nodup_nil, fun k hk => by cases hk⟩
  | drop hk hks ih =>
    rename_i m m' k ks
    obtain ⟨hnodup, haged⟩ := ih
    have hbefore : ∀ k' ∈ ks, k' ≠ k ∧ ∃ v s, m.lookup k' = some v ∧ age k' v = some s := by
      intro k' hk'
      obtain ⟨v, s, hlookup, hage⟩ := haged k' hk'
      rw [Map.lookup_erase_eq] at hlookup
      split at hlookup
      · cases hlookup
      · next hne => exact ⟨hne, v, s, hlookup, hage⟩
    refine ⟨List.nodup_cons.2 ⟨fun hmem => (hbefore k hmem).1 rfl, hnodup⟩, fun k' hk' => ?_⟩
    rcases List.mem_cons.1 hk' with rfl | hk'
    · obtain ⟨v, s, hlookup, hage, -⟩ := hk
      exact ⟨v, s, hlookup, hage⟩
    · exact (hbefore k' hk').2

/-- **Nothing that stays is older** than what is removed. -/
theorem oldest (h : Drops age m ks m') {k k' : κ} {v v' : ν} {s s' : τ} (hk : k ∈ ks)
    (hv : m.lookup k = some v) (hs : age k v = some s) (hk' : k' ∉ ks)
    (hv' : m.lookup k' = some v') (hs' : age k' v' = some s') : s ≤ s' := by
  induction h with
  | done m => cases hk
  | drop hfirst hks ih =>
    rename_i m m' k₀ ks
    have hne : k' ≠ k₀ := fun hsame => hk' (hsame ▸ List.mem_cons_self)
    have hrest : k' ∉ ks := fun hmem => hk' (List.mem_cons_of_mem _ hmem)
    obtain ⟨v₀, s₀, hlookup, hage, hmin⟩ := hfirst
    by_cases hsame : k = k₀
    · subst hsame
      obtain rfl := Option.some.inj (hlookup.symm.trans hv)
      obtain rfl := Option.some.inj (hage.symm.trans hs)
      exact hmin k' v' s' hv' hs'
    · apply ih ((List.mem_cons.1 hk).resolve_left hsame) _ hrest
      · rwa [Map.lookup_erase_eq, if_neg hne]
      · rwa [Map.lookup_erase_eq, if_neg hsame]

end Drops

end Oldest

end Consentry.Lib
