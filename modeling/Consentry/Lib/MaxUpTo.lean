import Mathlib.Order.Lattice

/-!
# A maximum up to a slack

Optional values are seen one after the other and one of them is kept. A value replaces the kept one
only if it is beyond the slack of it, and any value replaces none. The kept value is not the largest
one and depends on the order, but **`MaxUpTo.next`**: whatever the order, every value seen is within
the slack of it.
-/

namespace Consentry.Lib

variable {α : Type*} [LinearOrder α] {slack : α → α}

/-- The value that is kept of two. -/
def keepNext (slack : α → α) : Option α → Option α → Option α
  | none, v => v
  | some kept, none => some kept
  | some kept, some v => if slack kept < v then some v else some kept

theorem keepNext_some (slack : α → α) (kept v : α) :
    keepNext slack (some kept) (some v) = if slack kept < v then some v else some kept := rfl

/-- The kept value is none if all values seen are, and else one of them that is the largest up to
the slack. -/
structure MaxUpTo (slack : α → α) (seen : List (Option α)) (kept : Option α) : Prop where
  none_iff : kept = none ↔ ∀ v ∈ seen, v = none
  mem : ∀ v, kept = some v → some v ∈ seen
  le_slack : ∀ v, kept = some v → ∀ v', some v' ∈ seen → v' ≤ slack v

/-- A value that is seen again changes nothing. -/
theorem keepNext_self (hslack : ∀ a, a ≤ slack a) (kept v : Option α) :
    keepNext slack (keepNext slack kept v) v = keepNext slack kept v := by
  cases v with
  | none => cases kept <;> rfl
  | some v =>
    have hself : keepNext slack (some v) (some v) = some v := if_neg (not_lt.2 (hslack v))
    cases kept with
    | none => exact hself
    | some kept =>
      rw [keepNext_some]
      split
      · exact hself
      · next hlt => exact if_neg hlt

namespace MaxUpTo

variable {seen : List (Option α)} {kept : Option α}

theorem of_none (h : ∀ v ∈ seen, v = none) : MaxUpTo slack seen none where
  none_iff := iff_of_true rfl h
  mem v hv := by cases hv
  le_slack v hv := by cases hv

theorem of_mem {k : α} (hmem : some k ∈ seen) (hle : ∀ v, some v ∈ seen → v ≤ slack k) :
    MaxUpTo slack seen (some k) where
  none_iff := by
    refine iff_of_false nofun fun hnone => ?_
    cases hnone _ hmem
  mem v hv := by rwa [← hv]
  le_slack v hv w hw := by
    rw [← Option.some.inj hv]
    exact hle w hw

theorem single (hslack : ∀ a, a ≤ slack a) (v : Option α) : MaxUpTo slack [v] v := by
  cases v with
  | none => exact of_none fun v hv => List.mem_singleton.1 hv
  | some k =>
    refine of_mem (List.mem_singleton_self _) fun v hv => ?_
    rw [Option.some.inj (List.mem_singleton.1 hv)]
    exact hslack k

/-- One more value, which is none, changes nothing. -/
theorem append_none (h : MaxUpTo slack seen kept) : MaxUpTo slack (seen ++ [none]) kept := by
  cases kept with
  | none =>
    apply of_none
    rw [List.forall_mem_append, List.forall_mem_singleton]
    exact ⟨h.none_iff.1 rfl, rfl⟩
  | some k =>
    refine of_mem (List.mem_append_left _ (h.mem k rfl)) fun v hv => ?_
    rcases List.mem_append.1 hv with hold | hnew
    · exact h.le_slack k rfl v hold
    · cases List.mem_singleton.1 hnew

/-- One more value replaces the kept one if those seen are within the slack of it. -/
theorem append_some (hslack : ∀ a, a ≤ slack a) {v : α} (hle : ∀ w, some w ∈ seen → w ≤ slack v) :
    MaxUpTo slack (seen ++ [some v]) (some v) := by
  refine of_mem (List.mem_append_right _ (List.mem_singleton_self _)) fun w hw => ?_
  rcases List.mem_append.1 hw with hold | hnew
  · exact hle w hold
  · rw [Option.some.inj (List.mem_singleton.1 hnew)]
    exact hslack v

/-- **One more value.** -/
theorem next (hslack : ∀ a, a ≤ slack a) (h : MaxUpTo slack seen kept) (v : Option α) :
    MaxUpTo slack (seen ++ [v]) (keepNext slack kept v) := by
  cases v with
  | none =>
    have hkeep : keepNext slack kept none = kept := by cases kept <;> rfl
    rw [hkeep]
    exact h.append_none
  | some v =>
    cases kept with
    | none =>
      refine append_some hslack fun w hw => ?_
      cases h.none_iff.1 rfl _ hw
    | some k =>
      have hle := h.le_slack k rfl
      rw [keepNext_some]
      split
      · next hlt =>
        exact append_some hslack fun w hw => (hle w hw).trans (hlt.le.trans (hslack v))
      · next hlt =>
        refine of_mem (List.mem_append_left _ (h.mem k rfl)) fun w hw => ?_
        rcases List.mem_append.1 hw with hold | hnew
        · exact hle w hold
        · rw [Option.some.inj (List.mem_singleton.1 hnew)]
          exact not_lt.1 hlt

end MaxUpTo

end Consentry.Lib
