import Mathlib.Data.Option.Basic

/-!
# Keys and their owners

Each of several owners may hold a key, and every key that is in use has one owner. `key i` is
the key that `i` holds and `owner k` the owner that the key is registered for.

**`Owns key owner`** says that the two agree: the keys that are held are those that are
registered, for their holders. It is kept when a free key is granted (`Owns.grant`) and when keys
are released together with their registration (`Owns.release`, `Owns.releaseAll`).
-/

namespace Consentry.Lib

variable {ι κ : Type*} {key key' : ι → Option κ} {owner owner' : κ → Option ι} {i : ι} {k : κ}

/-- The keys that are held are those that are registered. -/
structure Owns (key : ι → Option κ) (owner : κ → Option ι) : Prop where
  registered : ∀ i k, key i = some k → owner k = some i
  held : ∀ i k, owner k = some i → key i = some k

namespace Owns

theorem congr (h : Owns key owner) (hkey : ∀ i, key' i = key i)
    (howner : ∀ k, owner' k = owner k) : Owns key' owner' where
  registered i k hk := by
    rw [hkey] at hk
    rw [howner, h.registered i k hk]
  held i k hk := by
    rw [howner] at hk
    rw [hkey, h.held i k hk]

/-- All the keys of some owners are released. -/
theorem releaseAll (h : Owns key owner) (leaves : ι → Bool)
    (hkey : ∀ i, key' i = if leaves i then none else key i)
    (howner : ∀ k, owner' k = (owner k).filter fun i => !leaves i) : Owns key' owner' where
  registered i k hi := by
    rw [hkey] at hi
    split at hi
    · cases hi
    · next hstays =>
      rw [howner, h.registered i k hi, Option.filter_some, if_pos (by simpa using hstays)]
  held i k hk := by
    rw [howner, Option.filter_eq_some_iff] at hk
    rw [hkey, if_neg (by simpa using hk.2)]
    exact h.held i k hk.1

variable [DecidableEq ι] [DecidableEq κ]

/-- A key that is not registered is granted to an owner without one. -/
theorem grant (h : Owns key owner) (hfree : owner k = none) (hnone : key i = none)
    (hkey : ∀ j, key' j = if j = i then some k else key j)
    (howner : ∀ l, owner' l = if l = k then some i else owner l) : Owns key' owner' where
  registered j l hj := by
    rw [hkey] at hj
    rw [howner]
    split at hj
    · next hsame => rw [if_pos (Option.some.inj hj).symm, hsame]
    · have hl := h.registered j l hj
      have hne : l ≠ k := by
        rintro rfl
        rw [hfree] at hl
        cases hl
      rwa [if_neg hne]
  held j l hl := by
    rw [howner] at hl
    rw [hkey]
    split at hl
    · next hsame => rw [if_pos (Option.some.inj hl).symm, hsame]
    · have hj := h.held j l hl
      have hne : j ≠ i := by
        rintro rfl
        rw [hnone] at hj
        cases hj
      rwa [if_neg hne]

/-- A key is released by its owner, and its registration with it. -/
theorem release (h : Owns key owner) (hk : owner k = some i)
    (hkey : ∀ j, key' j = if j = i then none else key j)
    (howner : ∀ l, owner' l = if l = k then none else owner l) : Owns key' owner' where
  registered j l hj := by
    rw [hkey] at hj
    rw [howner]
    split at hj
    · cases hj
    · next hother =>
      have hl := h.registered j l hj
      have hne : l ≠ k := by
        rintro rfl
        rw [hk] at hl
        exact hother (Option.some.inj hl).symm
      rwa [if_neg hne]
  held j l hl := by
    rw [howner] at hl
    rw [hkey]
    split at hl
    · cases hl
    · next hother =>
      have hj := h.held j l hl
      have hne : j ≠ i := by
        rintro rfl
        rw [h.held j k hk] at hj
        exact hother (Option.some.inj hj).symm
      rwa [if_neg hne]

end Owns

end Consentry.Lib
