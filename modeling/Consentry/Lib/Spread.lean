import Mathlib.Algebra.Order.BigOperators.Group.List
import Mathlib.Algebra.Order.Ring.Nat
import Mathlib.Data.List.Perm.Subperm

/-!
# Lists that are spread over keys

* **`perm_flatMap_filter`**: a list whose elements have keys is made up of its parts under each key.
* `flatMap_sublist_of_only`: what is collected from keys of which only one has something.
* `sum_map_le_of_subperm`: weights of lists, up to their order.
-/

namespace Consentry.Lib

variable {α κ : Type*} [DecidableEq κ]

/-- **A list is made up of its parts** under each key. -/
theorem perm_flatMap_filter (key : α → κ) {keys : List κ} (hnodup : keys.Nodup) {l : List α}
    (hl : ∀ a ∈ l, key a ∈ keys) : l.Perm (keys.flatMap fun k => l.filter (key · = k)) := by
  induction keys generalizing l with
  | nil => exact (List.eq_nil_iff_forall_not_mem.2 fun a ha => nomatch hl a ha) ▸ List.Perm.refl _
  | cons k keys ih =>
    obtain ⟨hk, hnodup⟩ := List.nodup_cons.1 hnodup
    have hrest : ∀ a ∈ l.filter (fun a => !decide (key a = k)), key a ∈ keys := by
      intro a ha
      obtain ⟨hmem, hne⟩ := List.mem_filter.1 ha
      exact (List.mem_cons.1 (hl a hmem)).resolve_left (by simpa using hne)
    have hparts : (keys.flatMap fun k' =>
        (l.filter fun a => !decide (key a = k)).filter (key · = k')) =
        keys.flatMap fun k' => l.filter (key · = k') := by
      refine List.flatMap_congr fun k' hk' => ?_
      rw [List.filter_filter]
      refine List.filter_congr fun a _ => ?_
      by_cases hkey : key a = k'
      · have hne : k' ≠ k := fun heq => hk (heq ▸ hk')
        simp [hkey, hne]
      · simp [hkey]
    rw [List.flatMap_cons, ← hparts]
    exact (List.filter_append_perm (key · = k) l).symm.trans ((ih hnodup hrest).append_left _)

/-- Where only one key has something, it is all that is collected. -/
theorem flatMap_sublist_of_only {f : κ → List α} {keys : List κ} (hnodup : keys.Nodup) (k : κ)
    (honly : ∀ k' ∈ keys, k' ≠ k → f k' = []) : (keys.flatMap f).Sublist (f k) := by
  induction keys with
  | nil => exact List.nil_sublist _
  | cons k' keys ih =>
    obtain ⟨hk', hnodup⟩ := List.nodup_cons.1 hnodup
    have hrest : ∀ j ∈ keys, j ≠ k → f j = [] := fun j hj => honly j (List.mem_cons_of_mem k' hj)
    rw [List.flatMap_cons]
    by_cases hk : k' = k
    · subst hk
      have hnone : keys.flatMap f = [] :=
        List.flatMap_eq_nil_iff.2 fun j hj => hrest j hj fun heq => hk' (heq ▸ hj)
      rw [hnone, List.append_nil]
    · rw [honly k' List.mem_cons_self hk, List.nil_append]
      exact ih hnodup hrest

omit [DecidableEq κ] in
theorem sum_map_le_of_subperm {l l' : List α} (h : l.Subperm l') (weight : α → ℕ) :
    (l.map weight).sum ≤ (l'.map weight).sum := by
  obtain ⟨m, hperm, hsub⟩ := h
  rw [← (hperm.map weight).sum_eq]
  exact (hsub.map weight).sum_le_sum fun _ _ => Nat.zero_le _

omit [DecidableEq κ] in
theorem sum_map_flatMap (weight : α → ℕ) (f : κ → List α) (keys : List κ) :
    ((keys.flatMap f).map weight).sum = (keys.map fun k => ((f k).map weight).sum).sum := by
  induction keys with
  | nil => rfl
  | cons k keys ih => rw [List.flatMap_cons, List.map_append, List.sum_append, ih, List.map_cons,
      List.sum_cons]

end Consentry.Lib
