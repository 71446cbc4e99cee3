import Mathlib.Data.List.Chain

/-!
# Alternating histories

A history of something that goes up (`true`) and down (`false`): `Alternating es up` says
that `es` strictly alternates and begins with `true`, and that it is `up` at its end.
**`Alternating.append_iff`** says how it can go on.
-/

namespace Consentry.Lib

structure Alternating (es : List Bool) (up : Bool) : Prop where
  chain : es.IsChain (· ≠ ·)
  first : es.head? ≠ some false
  last : es.getLast? = some true ↔ up = true

namespace Alternating

variable {es : List Bool} {up up' : Bool}

theorem nil : Alternating [] false := ⟨.nil, by simp, by simp⟩

/-- The last event is the opposite of what comes next. -/
theorem getLast?_eq (h : Alternating es up) {e : Bool} (he : es.getLast? = some e) : e = up := by
  rw [Bool.eq_iff_iff, ← h.last, he, Option.some.injEq]

/-- Only a history that is down goes up, and only one that is up goes down. -/
theorem append_iff (e : Bool) : Alternating (es ++ [e]) up ↔ Alternating es (!e) ∧ up = e := by
  constructor
  · intro h
    have hup : e = up := h.getLast?_eq List.getLast?_concat
    obtain ⟨hchain, -, hne⟩ := List.isChain_append.1 h.chain
    refine ⟨⟨hchain, fun hhead => h.first ?_, ?_⟩, hup.symm⟩
    · rw [List.head?_append, hhead]
      rfl
    · cases hlast : es.getLast? with
      | some x =>
        have hx : x ≠ e := hne x hlast e rfl
        cases x <;> cases e <;> simp at hx ⊢
      | none =>
        rw [List.getLast?_eq_none_iff] at hlast
        subst hlast
        have hfirst := h.first
        cases e <;> simp at hfirst ⊢
  · rintro ⟨h, rfl⟩
    refine ⟨List.isChain_append.2 ⟨h.chain, .singleton up, ?_⟩, ?_, ?_⟩
    · intro x hx y hy
      have hxup : x = !up := h.getLast?_eq hx
      rw [List.head?_singleton, Option.mem_some_iff] at hy
      rw [hxup, ← hy]
      cases up <;> simp
    · cases es with
      | nil =>
        have hlast := h.last
        cases up <;> simp at hlast ⊢
      | cons x es => exact h.first
    · rw [List.getLast?_concat, Option.some.injEq]

/-- What goes up or down is written down, and nothing else is. -/
theorem next (h : Alternating es up) (up' : Bool) :
    Alternating (es ++ if up' = up then [] else [up']) up' := by
  split
  · next hsame =>
    rw [List.append_nil, hsame]
    exact h
  · next hother =>
    refine (append_iff up').2 ⟨?_, rfl⟩
    rw [Bool.eq_not.2 (Ne.symm hother)] at h
    exact h

end Alternating

end Consentry.Lib
