import Mathlib.Algebra.BigOperators.Ring.List
import Mathlib.Algebra.Ring.Nat

/-!
# Metered charges

A meter keeps the *arrival time* of a leaky bucket: each charge moves it forward by its
cost, from the present or from where it stood, and it may lie at most `tau` ahead of the
present. `Metered tau h last arrival` says that `h`, a history of charges until `last`, can
have led to this arrival time. **`Metered.within`**: in every window of time the charges of
such a history are at most `tau` plus the length of the window.
-/

namespace Consentry.Lib

/-- The total cost of the charges made in the window from `a` to `b`. -/
def charged (a b : ℕ) (h : List (ℕ × ℕ)) : ℕ :=
  ((h.filter fun c => decide (a ≤ c.1) && decide (c.1 ≤ b)).map (·.2)).sum

section

variable {a b now cost : ℕ} {h : List (ℕ × ℕ)}

theorem charged_append (a b : ℕ) (h g : List (ℕ × ℕ)) :
    charged a b (h ++ g) = charged a b h + charged a b g := by
  unfold charged
  rw [List.filter_append, List.map_append, List.sum_append]

theorem charged_single_of_mem (ha : a ≤ now) (hb : now ≤ b) : charged a b [(now, cost)] = cost := by
  simp [charged, ha, hb]

theorem charged_single_of_not_mem (hout : ¬ (a ≤ now ∧ now ≤ b)) :
    charged a b [(now, cost)] = 0 := by
  unfold charged
  rw [List.filter_cons_of_neg (by simpa using hout)]
  rfl

/-- Costs in multiples of a unit. -/
theorem charged_map_mul (unit a b : ℕ) (h : List (ℕ × ℕ)) :
    charged a b (h.map fun c => (c.1, unit * c.2)) = unit * charged a b h := by
  unfold charged
  rw [List.filter_map, List.map_map, ← List.sum_map_mul_left]
  rfl

/-- A window that extends beyond the last charge. -/
theorem charged_eq_of_le {last b' : ℕ} (hlast : ∀ c ∈ h, c.1 ≤ last) (hb : last ≤ b)
    (hb' : last ≤ b') : charged a b h = charged a b' h := by
  unfold charged
  congr 2
  refine List.filter_congr fun c hc => ?_
  have hle := hlast c hc
  rw [decide_eq_true (hle.trans hb), decide_eq_true (hle.trans hb')]

/-- Of fewer charges. -/
theorem charged_mono {g : List (ℕ × ℕ)} (hg : g <+: h) : charged a b g ≤ charged a b h := by
  obtain ⟨t, rfl⟩ := hg
  rw [charged_append]
  exact Nat.le_add_right _ _

/-- A window in which all charges are made. -/
theorem charged_eq_sum (hwithin : ∀ c ∈ h, a ≤ c.1 ∧ c.1 ≤ b) :
    charged a b h = (h.map (·.2)).sum := by
  unfold charged
  rw [List.filter_eq_self.2 fun c hc => by simpa using hwithin c hc]

end

/-- The charges `h` until `last` can have led to this arrival time. -/
structure Metered (tau : ℕ) (h : List (ℕ × ℕ)) (last arrival : ℕ) : Prop where
  times : ∀ c ∈ h, c.1 ≤ last
  since : ∀ a, a + charged a last h ≤ max a arrival
  within : ∀ a b, charged a b h ≤ tau + (b - a)

namespace Metered

variable {tau last now arrival cost : ℕ} {h : List (ℕ × ℕ)}

theorem empty (tau last arrival : ℕ) : Metered tau [] last arrival :=
  ⟨by simp, fun a => Nat.le_max_left a arrival, fun _ _ => Nat.zero_le _⟩

/-- Time passes without a charge. -/
theorem later (hm : Metered tau h last arrival) (hnow : last ≤ now) :
    Metered tau h now arrival := by
  refine ⟨fun c hc => (hm.times c hc).trans hnow, fun a => ?_, hm.within⟩
  rw [charged_eq_of_le hm.times hnow (le_refl last)]
  exact hm.since a

/-- A charge that leaves the arrival time at most `tau` ahead. -/
theorem charge (hm : Metered tau h last arrival) (hnow : last ≤ now)
    (hfit : max now arrival + cost ≤ now + tau) :
    Metered tau (h ++ [(now, cost)]) now (max now arrival + cost) := by
  have hpast := hm.later hnow
  refine ⟨fun c hc => ?_, fun a => ?_, fun a b => ?_⟩
  · rcases List.mem_append.1 hc with hc | hc
    · exact hpast.times c hc
    · rw [List.mem_singleton.1 hc]
  · have hsince := hpast.since a
    rw [charged_append]
    by_cases ha : a ≤ now
    · rw [charged_single_of_mem ha (le_refl now)]
      omega
    · rw [charged_single_of_not_mem fun h => ha h.1]
      omega
  · rw [charged_append]
    by_cases hin : a ≤ now ∧ now ≤ b
    · obtain ⟨ha, hb⟩ := hin
      -- every charge of the window has been made by now
      have hsince := hpast.since a
      rw [charged_eq_of_le hpast.times (le_refl now) hb] at hsince
      rw [charged_single_of_mem ha hb]
      omega
    · rw [charged_single_of_not_mem hin]
      exact hm.within a b

end Metered

end Consentry.Lib
