import Mathlib.Data.List.Basic

/-!
# Work in phases that may return early

`Flow α ρ` is the outcome of one phase of a function: it goes on with a value for the next
phase, returns early, or panics. `Flow.andThen` puts two phases after each other and
`Flow.each` is a loop of them.

`Flow.Meets P Q N` says what holds when a phase goes on, when it returns and when it panics;
with `N` true it is partial correctness, with `N` false there is no panic. Its rules are
`Meets.andThen` and, for loops, `Meets.each`, whose invariant speaks about what the loop has
still to do.
-/

namespace Consentry.Lib

inductive Flow (α ρ : Type*)
  | next (a : α)
  | returned (r : ρ)
  | panicked

namespace Flow

variable {α β ρ ι : Type*}

def andThen : Flow α ρ → (α → Flow β ρ) → Flow β ρ
  | next a, k => k a
  | returned r, _ => returned r
  | panicked, _ => panicked

/-- A loop that ends with its first return. -/
def each (f : ι → α → Flow α ρ) : List ι → α → Flow α ρ
  | [], a => next a
  | i :: is, a => (f i a).andThen (each f is)

/-- The rounds that a loop reaches, each with the value it starts from. -/
def rounds (f : ι → α → Flow α ρ) : List ι → α → List (ι × α)
  | [], _ => []
  | i :: is, a =>
    (i, a) :: match f i a with
      | next b => rounds f is b
      | returned _ => []
      | panicked => []

/-- A call that panics where it has no result. -/
def ofOption : Option α → Flow α ρ
  | some a => next a
  | none => panicked

@[simp] theorem next_andThen (a : α) (k : α → Flow β ρ) : (next a).andThen k = k a := rfl

theorem andThen_assoc {γ : Type*} (x : Flow α ρ) (k : α → Flow β ρ) (l : β → Flow γ ρ) :
    (x.andThen k).andThen l = x.andThen fun a => (k a).andThen l := by
  cases x <;> rfl

theorem rounds_of_next {f : ι → α → Flow α ρ} {i : ι} {a b : α} (hnext : f i a = next b)
    (is : List ι) : rounds f (i :: is) a = (i, a) :: rounds f is b := by
  simp only [rounds, hnext]

theorem rounds_of_returned {f : ι → α → Flow α ρ} {i : ι} {a : α} {r : ρ}
    (hreturned : f i a = returned r) (is : List ι) : rounds f (i :: is) a = [(i, a)] := by
  simp only [rounds, hreturned]

/-- `P` holds when the phase goes on, `Q` when it returns and `N` when it panics. -/
def Meets (P : α → Prop) (Q : ρ → Prop) (N : Prop) : Flow α ρ → Prop
  | next a => P a
  | returned r => Q r
  | panicked => N

variable {P P' : α → Prop} {Q Q' : ρ → Prop} {N N' : Prop} {x : Flow α ρ}

theorem Meets.mono (h : x.Meets P Q N) (hP : ∀ a, P a → P' a) (hQ : ∀ r, Q r → Q' r)
    (hN : N → N') : x.Meets P' Q' N' := by
  cases x with
  | next a => exact hP a h
  | returned r => exact hQ r h
  | panicked => exact hN h

/-- **Sequence rule.** -/
theorem Meets.andThen {R : β → Prop} {k : α → Flow β ρ} (h : x.Meets P Q N)
    (hk : ∀ a, P a → (k a).Meets R Q N) : (x.andThen k).Meets R Q N := by
  cases x with
  | next a => exact hk a h
  | returned r => exact h
  | panicked => exact h

/-- The outcome itself, for use with `Meets.and`. -/
theorem Meets.self (x : Flow α ρ) :
    x.Meets (fun a => x = next a) (fun r => x = returned r) (x = panicked) := by
  cases x <;> rfl

theorem Meets.and (h : x.Meets P Q N) (h' : x.Meets P' Q' N') :
    x.Meets (fun a => P a ∧ P' a) (fun r => Q r ∧ Q' r) (N ∧ N') := by
  cases x with
  | next a => exact ⟨h, h'⟩
  | returned r => exact ⟨h, h'⟩
  | panicked => exact ⟨h, h'⟩

/-- What is said of an outcome may be taken apart with the help of what is known about it. -/
theorem Meets.congr_and {c : Prop} {P₁ P₂ : α → Prop} {Q₁ Q₂ : ρ → Prop}
    (h : x.Meets P Q False) (hP : ∀ a, P a → (P₁ a ↔ c ∧ P₂ a))
    (hQ : ∀ r, Q r → (Q₁ r ↔ c ∧ Q₂ r)) : x.Meets P₁ Q₁ N ↔ c ∧ x.Meets P₂ Q₂ N := by
  cases x with
  | next a => exact hP a h
  | returned r => exact hQ r h
  | panicked => exact h.elim

theorem Meets.ofOption {o : Option α} (hsome : ∀ a, o = some a → P a) (hnone : o = none → N) :
    (Flow.ofOption o).Meets P Q N := by
  cases o with
  | none => exact hnone rfl
  | some a => exact hsome a rfl

/-- **Loop rule**: a round that starts with the invariant for the elements from its own on
ends with the invariant for those behind it. -/
theorem Meets.each {I : List ι → α → Prop} {f : ι → α → Flow α ρ}
    (hf : ∀ i is a, I (i :: is) a → (f i a).Meets (I is) Q N) {is : List ι} {a : α}
    (h : I is a) : (Flow.each f is a).Meets (I []) Q N := by
  induction is generalizing a with
  | nil => exact h
  | cons i is ih => exact (hf i is a h).andThen fun b hb => ih hb

/-- Every round that the loop reaches starts with the invariant. -/
theorem Meets.rounds {I : List ι → α → Prop} {f : ι → α → Flow α ρ}
    (hf : ∀ i is a, I (i :: is) a → (f i a).Meets (I is) Q N) {is : List ι} {a : α}
    (h : I is a) : ∀ r ∈ Flow.rounds f is a, ∃ rest, I (r.1 :: rest) r.2 := by
  induction is generalizing a with
  | nil =>
    intro r hr
    cases hr
  | cons i is ih =>
    intro r hr
    rcases List.mem_cons.1 hr with rfl | hr
    · exact ⟨is, h⟩
    · have hround := hf i is a h
      cases hnext : f i a with
      | next b =>
        rw [hnext] at hround hr
        exact ih hround r hr
      | returned b | panicked =>
        rw [hnext] at hr
        cases hr

/-- The loop rule where every round that is reached meets a condition. -/
theorem Meets.each_of_rounds {C : ι × α → Prop} {f : ι → α → Flow α ρ}
    (hf : ∀ i a, P a → C (i, a) → (f i a).Meets P Q N) {is : List ι} {a : α} (h : P a)
    (hC : ∀ r ∈ Flow.rounds f is a, C r) : (Flow.each f is a).Meets P Q N := by
  induction is generalizing a with
  | nil => exact h
  | cons i is ih =>
    have hround := hf i a h (hC _ List.mem_cons_self)
    unfold Flow.each
    cases hnext : f i a with
    | next b =>
      rw [hnext] at hround
      rw [rounds_of_next hnext] at hC
      exact ih hround fun r hr => hC r (List.mem_cons_of_mem _ hr)
    | returned r =>
      rw [hnext] at hround
      exact hround
    | panicked =>
      rw [hnext] at hround
      exact hround

/-- The loop rule for an invariant that speaks about a log of the rounds. -/
theorem Meets.each_log {γ : Type*} {I : List γ → α → Prop} {Q : List γ → ρ → Prop}
    {f : ι → α → Flow α ρ} (out : ι × α → List γ)
    (hf : ∀ log i a, I log a → (f i a).Meets (I (log ++ out (i, a))) (Q (log ++ out (i, a))) N)
    {is : List ι} {log : List γ} {a : α} (h : I log a) :
    (Flow.each f is a).Meets (I (log ++ (Flow.rounds f is a).flatMap out))
      (Q (log ++ (Flow.rounds f is a).flatMap out)) N := by
  induction is generalizing log a with
  | nil =>
    show I (log ++ []) a
    rwa [List.append_nil]
  | cons i is ih =>
    have hround := hf log i a h
    unfold Flow.each Flow.rounds
    cases hnext : f i a with
    | next b =>
      rw [hnext] at hround
      rw [List.flatMap_cons, ← List.append_assoc]
      exact ih hround
    | returned r =>
      rw [hnext] at hround
      rw [List.flatMap_cons, List.flatMap_nil, List.append_nil]
      exact hround
    | panicked =>
      rw [hnext] at hround
      exact hround

/-- The loop rule for an invariant that does not depend on what is left to do. -/
theorem Meets.each_of_step {f : ι → α → Flow α ρ} (hf : ∀ i a, P a → (f i a).Meets P Q N)
    (is : List ι) {a : α} (h : P a) : (Flow.each f is a).Meets P Q N :=
  Meets.each (I := fun _ => P) (fun i _ a ha => hf i a ha) h

end Flow

end Consentry.Lib
