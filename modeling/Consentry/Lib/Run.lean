import Mathlib.Algebra.Ring.Nat
import Mathlib.Data.List.Basic
import Mathlib.Data.List.Forall2

/-!
# Runs of a deterministic machine

`Throughout Q s is` says that `Q` holds in every state a run over the inputs `is`
passes through, the first and the last included; `Along C s is` says that every
input meets `C` in the state it is given to. The rules are `throughout_of_along`
(an invariant preserved by the steps that meet `C`), `throughout_of_ahead` (an
invariant that speaks of the inputs to come) and `throughout_iff_along` (where in
addition a step that does not meet `C` breaks `Q` at once).
`outputs` is what the steps of a run put out, and `outputs_countP_le` bounds it by a potential.
A run is followed in one part of a machine by `foldl_part`, and `outputs_snapshots` says what is
seen of the part along the way.
`foldl_rel`, `foldl_exists`, `foldl_not_exists`, `foldl_collect` and `foldlM_some` are the rules for
loops inside a step.
-/

namespace Consentry.Lib

/-! ## Runs -/

section Run

variable {σ ι : Type*} (step : σ → ι → σ)

/-- `Q` holds in every state of the run. -/
def Throughout (Q : σ → Prop) : σ → List ι → Prop
  | s, [] => Q s
  | s, i :: is => Q s ∧ Throughout Q (step s i) is

/-- Every input of the run meets `C` in the state it is given to. -/
def Along (C : σ → ι → Prop) : σ → List ι → Prop
  | _, [] => True
  | s, i :: is => C s i ∧ Along C (step s i) is

variable {step}

/-- `Throughout` quantifies over the prefixes of the input list. -/
theorem throughout_iff_forall {Q : σ → Prop} (is : List ι) (s : σ) :
    Throughout step Q s is ↔ ∀ pre, pre <+: is → Q (pre.foldl step s) := by
  induction is generalizing s with
  | nil => simp [Throughout]
  | cons i is ih =>
    simp only [Throughout, ih]
    constructor
    · rintro ⟨h0, h⟩ pre hpre
      rcases List.prefix_cons_iff.1 hpre with rfl | ⟨t, rfl, ht⟩
      · exact h0
      · exact h t ht
    · intro h
      exact ⟨h [] List.nil_prefix, fun pre hpre => h (i :: pre) (by simpa using hpre)⟩

theorem Throughout.head {Q : σ → Prop} {s : σ} {is : List ι} (h : Throughout step Q s is) :
    Q s := by
  cases is with
  | nil => exact h
  | cons i is => exact h.1

theorem Throughout.last {Q : σ → Prop} {is : List ι} {s : σ} (h : Throughout step Q s is) :
    Q (is.foldl step s) :=
  (throughout_iff_forall is s).1 h is List.prefix_rfl

theorem Throughout.mono {P Q : σ → Prop} (hPQ : ∀ s, P s → Q s) {is : List ι} {s : σ}
    (h : Throughout step P s is) : Throughout step Q s is := by
  induction is generalizing s with
  | nil => exact hPQ s h
  | cons i is ih => exact ⟨hPQ s h.1, ih h.2⟩

theorem Along.and {C D : σ → ι → Prop} {is : List ι} {s : σ} (h : Along step C s is)
    (k : Along step D s is) : Along step (fun s i => C s i ∧ D s i) s is := by
  induction is generalizing s with
  | nil => trivial
  | cons i is ih => exact ⟨⟨h.1, k.1⟩, ih h.2 k.2⟩

theorem Along.mono {C D : σ → ι → Prop} (hCD : ∀ s i, C s i → D s i) {is : List ι} {s : σ}
    (h : Along step C s is) : Along step D s is := by
  induction is generalizing s with
  | nil => trivial
  | cons i is ih => exact ⟨hCD s i h.1, ih h.2⟩

/-- A condition that no input can fail. -/
theorem Along.of_forall {C : σ → ι → Prop} (h : ∀ s i, C s i) (is : List ι) (s : σ) :
    Along step C s is := by
  induction is generalizing s with
  | nil => trivial
  | cons i is ih => exact ⟨h s i, ih _⟩

/-- A condition on the inputs alone. -/
theorem Along.of_mem {D : ι → Prop} {is : List ι} (h : ∀ i ∈ is, D i) (s : σ) :
    Along step (fun _ i => D i) s is := by
  induction is generalizing s with
  | nil => trivial
  | cons i is ih =>
    exact ⟨h i List.mem_cons_self, ih (fun j hj => h j (List.mem_cons_of_mem i hj)) _⟩

/-- Conditions that agree in the states that the run reaches. -/
theorem along_congr {P : σ → Prop} {C D : σ → ι → Prop} (hstep : ∀ s i, P s → P (step s i))
    (hiff : ∀ s i, P s → (C s i ↔ D s i)) (is : List ι) {s : σ} (h0 : P s) :
    Along step C s is ↔ Along step D s is := by
  induction is generalizing s with
  | nil => exact Iff.rfl
  | cons i is ih => exact and_congr (hiff s i h0) (ih (hstep s i h0))

/-- **Invariant rule**: `P` holds at the start and every step that meets `C`
preserves it. -/
theorem throughout_of_along {P : σ → Prop} {C : σ → ι → Prop}
    (hstep : ∀ s i, P s → C s i → P (step s i)) {is : List ι} {s : σ} (h0 : P s)
    (hC : Along step C s is) : Throughout step P s is := by
  induction is generalizing s with
  | nil => exact h0
  | cons i is ih => exact ⟨h0, ih (hstep s i h0 hC.1) hC.2⟩

/-- The invariant rule where the invariant speaks of the inputs that are still to come. -/
theorem throughout_of_ahead {P : σ → List ι → Prop} {Q : σ → Prop} {C : σ → ι → Prop}
    (hstep : ∀ s i is, P s (i :: is) → C s i → P (step s i) is) (hPQ : ∀ s is, P s is → Q s)
    {is : List ι} {s : σ} (h0 : P s is) (hC : Along step C s is) : Throughout step Q s is := by
  induction is generalizing s with
  | nil => exact hPQ s [] h0
  | cons i is ih => exact ⟨hPQ s (i :: is) h0, ih (hstep s i is h0 hC.1) hC.2⟩

/-- The invariant rule for inputs that are always allowed. -/
theorem throughout_of_step {P : σ → Prop} (hstep : ∀ s i, P s → P (step s i)) (is : List ι)
    {s : σ} (h0 : P s) : Throughout step P s is :=
  throughout_of_along (C := fun _ _ => True) (fun s i h _ => hstep s i h) h0
    (Along.of_forall (fun _ _ => trivial) is s)

/-- **Exactness rule**: under the discipline `D`, the invariant `P` survives the
steps that meet `C`, implies `Q`, and a step that does not meet `C` leaves `Q`
false. Then the runs throughout which `Q` holds are those whose steps all meet `C`. -/
theorem throughout_iff_along {P Q : σ → Prop} {C D : σ → ι → Prop}
    (hstep : ∀ s i, P s → D s i → C s i → P (step s i)) (hPQ : ∀ s, P s → Q s)
    (hbreak : ∀ s i, P s → D s i → Q (step s i) → C s i) {is : List ι} {s : σ} (h0 : P s)
    (hD : Along step D s is) : Throughout step Q s is ↔ Along step C s is := by
  induction is generalizing s with
  | nil => exact ⟨fun _ => trivial, fun _ => hPQ s h0⟩
  | cons i is ih =>
    constructor
    · rintro ⟨-, hrest⟩
      have hC := hbreak s i h0 hD.1 hrest.head
      exact ⟨hC, (ih (hstep s i h0 hD.1 hC) hD.2).1 hrest⟩
    · rintro ⟨hC, hrest⟩
      exact ⟨hPQ s h0, (ih (hstep s i h0 hD.1 hC) hD.2).2 hrest⟩

/-- A loop whose rounds are steps of a preorder is one as a whole. -/
theorem foldl_rel {R : σ → σ → Prop} (hrefl : ∀ s, R s s)
    (htrans : ∀ s t u, R s t → R t u → R s u) {f : σ → ι → σ} (hf : ∀ s i, R s (f s i))
    (is : List ι) (s : σ) : R s (is.foldl f s) := by
  induction is generalizing s with
  | nil => exact hrefl s
  | cons i is ih => exact htrans _ _ _ (hf s i) (ih (f s i))

/-- A loop whose rounds keep what `g` reads of the state. -/
theorem foldl_keeps {τ : Type*} {g : σ → τ} {f : σ → ι → σ} (hf : ∀ s i, g (f s i) = g s)
    (is : List ι) (s : σ) : g (is.foldl f s) = g s :=
  foldl_rel (R := fun s t => g t = g s) (fun _ => rfl) (fun _ _ _ hl hr => hr.trans hl) hf is s

/-- A loop whose rounds can each bring about `P`, and cannot undo it. -/
theorem foldl_exists {P : σ → Prop} {brings : ι → Prop} {f : σ → ι → σ}
    (hround : ∀ s i, P (f s i) ↔ brings i ∨ P s) (is : List ι) (s : σ) :
    P (is.foldl f s) ↔ (∃ i ∈ is, brings i) ∨ P s := by
  induction is generalizing s with
  | nil =>
    constructor
    · exact .inr
    · rintro (⟨i, hi, -⟩ | h)
      · cases hi
      · exact h
  | cons i is ih =>
    rw [List.foldl_cons, ih, hround, List.exists_mem_cons_iff, or_assoc, or_left_comm]

/-- A loop whose rounds can each undo `P`, and cannot bring it about. -/
theorem foldl_not_exists {P : σ → Prop} {undoes : ι → Prop} {f : σ → ι → σ}
    (hround : ∀ s i, P (f s i) ↔ ¬ undoes i ∧ P s) (is : List ι) (s : σ) :
    P (is.foldl f s) ↔ (¬ ∃ i ∈ is, undoes i) ∧ P s := by
  have hnot : ∀ s i, ¬ P (f s i) ↔ undoes i ∨ ¬ P s := by
    intro s i
    rw [hround, not_and_or, not_not]
  rw [← not_iff_not, foldl_exists (P := fun s => ¬ P s) hnot, not_and_or, not_not]

/-! ### What a run puts out -/

variable {β : Type*}

/-- What the steps of a run put out, in order. -/
def outputs (step : σ → ι → σ) (out : σ → ι → List β) : σ → List ι → List β
  | _, [] => []
  | s, i :: is => out s i ++ outputs step out (step s i) is

variable {out : σ → ι → List β}

/-- The invariant rule where the invariant speaks of what has been put out so far, for the steps
that meet `C`. -/
theorem outputs_induction_of_along {I : List β → σ → Prop} {C : σ → ι → Prop}
    (hstep : ∀ log s i, I log s → C s i → I (log ++ out s i) (step s i)) {is : List ι}
    {log : List β} {s : σ} (h : I log s) (hC : Along step C s is) :
    I (log ++ outputs step out s is) (is.foldl step s) := by
  induction is generalizing log s with
  | nil =>
    show I (log ++ []) s
    rwa [List.append_nil]
  | cons i is ih =>
    unfold outputs
    rw [← List.append_assoc]
    exact ih (hstep log s i h hC.1) hC.2

/-- The same for the inputs of the run. -/
theorem outputs_induction_of_mem {I : List β → σ → Prop} {is : List ι}
    (hstep : ∀ i ∈ is, ∀ log s, I log s → I (log ++ out s i) (step s i)) {log : List β} {s : σ}
    (h : I log s) : I (log ++ outputs step out s is) (is.foldl step s) :=
  outputs_induction_of_along (fun log s i h hi => hstep i hi log s h) h
    (Along.of_mem (fun _ hi => hi) s)

/-- The invariant rule where the invariant speaks of what has been put out so far. -/
theorem outputs_induction {I : List β → σ → Prop}
    (hstep : ∀ log s i, I log s → I (log ++ out s i) (step s i)) (is : List ι) {log : List β}
    {s : σ} (h : I log s) : I (log ++ outputs step out s is) (is.foldl step s) :=
  outputs_induction_of_mem (fun i _ log s => hstep log s i) h

/-- **Queue rule**: where each step takes what it puts out from the front of a queue and adds to its
end, a run puts out what was queued and what it added, in order, up to what is still queued. -/
theorem outputs_queue {queue : σ → List β} {added : σ → ι → List β}
    (hstep : ∀ s i, out s i ++ queue (step s i) = queue s ++ added s i) (is : List ι) (s : σ) :
    outputs step out s is ++ queue (is.foldl step s) = queue s ++ outputs step added s is := by
  induction is generalizing s with
  | nil => exact (List.append_nil (queue s)).symm
  | cons i is ih =>
    calc
      (out s i ++ outputs step out (step s i) is) ++ queue (is.foldl step (step s i))
        = out s i ++ (queue (step s i) ++ outputs step added (step s i) is) := by
          rw [List.append_assoc, ih]
      _ = queue s ++ (added s i ++ outputs step added (step s i) is) := by
          rw [← List.append_assoc, hstep, List.append_assoc]

theorem outputs_map {γ : Type*} (f : β → γ) (is : List ι) (s : σ) :
    (outputs step out s is).map f = outputs step (fun s i => (out s i).map f) s is := by
  induction is generalizing s with
  | nil => rfl
  | cons i is ih => rw [outputs, outputs, List.map_append, ih]

theorem filterMap_outputs {γ : Type*} (f : β → Option γ) (is : List ι) (s : σ) :
    (outputs step out s is).filterMap f = outputs step (fun s i => (out s i).filterMap f) s is := by
  induction is generalizing s with
  | nil => rfl
  | cons i is ih => rw [outputs, outputs, List.filterMap_append, ih]

/-- What is seen of one kind of output is what is seen of another, if it is so in each step. -/
theorem outputs_filterMap {γ δ : Type*} {f : β → Option γ} {g : δ → γ} {out' : σ → ι → List δ}
    (hstep : ∀ s i, (out s i).filterMap f = (out' s i).map g) (is : List ι) (s : σ) :
    (outputs step out s is).filterMap f = (outputs step out' s is).map g := by
  rw [filterMap_outputs, outputs_map]
  exact congrArg (outputs step · s is) (funext fun s => funext fun i => hstep s i)

/-- What is seen of the outputs of a run is what the inputs bring, if it is so in each step. -/
theorem outputs_filterMap_of_along {γ : Type*} {C : σ → ι → Prop} {f : β → Option γ}
    {g : ι → Option γ} (hstep : ∀ s i, C s i → (out s i).filterMap f = [i].filterMap g)
    {is : List ι} {s : σ} (hC : Along step C s is) :
    (outputs step out s is).filterMap f = is.filterMap g := by
  induction is generalizing s with
  | nil => rfl
  | cons i is ih =>
    rw [outputs, List.filterMap_append, hstep s i hC.1, ih hC.2, ← List.filterMap_append,
      List.singleton_append]

theorem along_of_not_mem_outputs {b : β} {is : List ι} {s : σ} (h : b ∉ outputs step out s is) :
    Along step (fun s i => b ∉ out s i) s is := by
  induction is generalizing s with
  | nil => trivial
  | cons i is ih =>
    rw [outputs, List.mem_append, not_or] at h
    exact ⟨h.1, ih h.2⟩

/-- What holds of all that the inputs make a machine put out holds of all that a run puts out. -/
theorem outputs_forall {P : β → Prop} {is : List ι} (hout : ∀ i ∈ is, ∀ s, ∀ b ∈ out s i, P b)
    (s : σ) : ∀ b ∈ outputs step out s is, P b := by
  induction is generalizing s with
  | nil => exact List.forall_mem_nil P
  | cons i is ih =>
    intro b hb
    rcases List.mem_append.1 hb with hb | hb
    · exact hout i List.mem_cons_self s b hb
    · exact ih (fun j hj => hout j (List.mem_cons_of_mem i hj)) (step s i) b hb

/-- What the inputs bring by themselves. -/
theorem outputs_toList (f : ι → Option β) (is : List ι) (s : σ) :
    outputs step (fun _ i => (f i).toList) s is = is.filterMap f := by
  induction is generalizing s with
  | nil => rfl
  | cons i is ih =>
    rw [outputs, ih, List.filterMap_cons]
    cases f i <;> rfl

theorem outputs_flatMap_sublist {γ : Type*} {f : β → List γ} {g : ι → List γ}
    (hstep : ∀ s i, ((out s i).flatMap f).Sublist (g i)) (is : List ι) (s : σ) :
    ((outputs step out s is).flatMap f).Sublist (is.flatMap g) := by
  induction is generalizing s with
  | nil => exact List.Sublist.refl []
  | cons i is ih =>
    rw [outputs, List.flatMap_append, List.flatMap_cons]
    exact (hstep s i).append (ih (step s i))

theorem outputs_append (is js : List ι) (s : σ) :
    outputs step out s (is ++ js) =
      outputs step out s is ++ outputs step out (is.foldl step s) js := by
  induction is generalizing s with
  | nil => rfl
  | cons i is ih => rw [List.cons_append, outputs, outputs, ih, List.append_assoc, List.foldl_cons]

/-- A run puts out no more than another kind of output, if it is so in each step. -/
theorem outputs_sublist {I : σ → Prop} {out' : σ → ι → List β} {is : List ι}
    (hstep : ∀ i ∈ is, ∀ s, I s → I (step s i) ∧ (out s i).Sublist (out' s i)) {s : σ} (hs : I s) :
    (outputs step out s is).Sublist (outputs step out' s is) := by
  induction is generalizing s with
  | nil => exact List.Sublist.refl []
  | cons i is ih =>
    obtain ⟨hnext, hsub⟩ := hstep i List.mem_cons_self s hs
    exact hsub.append (ih (fun j hj => hstep j (List.mem_cons_of_mem i hj)) hnext)

/-- Two kinds of output, put out together. -/
theorem outputs_append_perm {out' : σ → ι → List β} (is : List ι) (s : σ) :
    (outputs step (fun s i => out s i ++ out' s i) s is).Perm
      (outputs step out s is ++ outputs step out' s is) := by
  induction is generalizing s with
  | nil => exact List.Perm.refl []
  | cons i is ih =>
    unfold outputs
    refine ((ih (step s i)).append_left _).trans ?_
    rw [List.append_assoc, List.append_assoc]
    refine List.Perm.append_left _ ?_
    rw [← List.append_assoc, ← List.append_assoc]
    exact List.perm_append_comm.append_right _

/-- **Potential rule**: a step pays for what it puts out of one kind from the potential and from
what its input brings, so a run puts out no more than the start and the inputs bring. -/
theorem outputs_countP_le {I : σ → Prop} {kind : β → Bool} {potential : σ → ℕ} {gain : ι → ℕ}
    (hstep : ∀ s i, I s → I (step s i) ∧
      (out s i).countP kind + potential (step s i) ≤ potential s + gain i)
    (is : List ι) {s : σ} (hs : I s) :
    (outputs step out s is).countP kind ≤ potential s + (is.map gain).sum := by
  induction is generalizing s with
  | nil => exact Nat.zero_le _
  | cons i is ih =>
    obtain ⟨hnext, hpaid⟩ := hstep s i hs
    have hrest := ih hnext
    unfold outputs
    rw [List.countP_append, List.map_cons, List.sum_cons]
    omega

end Run

/-! ### The parts of a machine -/

section Part

variable {σ τ ι κ β : Type*} {step : σ → ι → σ} {step' : τ → κ → τ} {part : σ → τ}
  {given : σ → ι → List κ}

/-- **Projection rule**: where a part of a machine moves by what each step gives to it, a run of the
machine is, for this part, a run over all that is given to it. -/
theorem foldl_part (hstep : ∀ s i, part (step s i) = (given s i).foldl step' (part s))
    (is : List ι) (s : σ) :
    part (is.foldl step s) = (outputs step given s is).foldl step' (part s) := by
  induction is generalizing s with
  | nil => rfl
  | cons i is ih => rw [List.foldl_cons, ih, hstep, outputs, List.foldl_append]

/-- What a part puts out in a run of the machine. -/
theorem outputs_part {out : τ → κ → List β}
    (hstep : ∀ s i, part (step s i) = (given s i).foldl step' (part s)) (is : List ι) (s : σ) :
    outputs step' out (part s) (outputs step given s is) =
      outputs step (fun s i => outputs step' out (part s) (given s i)) s is := by
  induction is generalizing s with
  | nil => rfl
  | cons i is ih => rw [outputs, outputs_append, ← hstep, ih, outputs]

/-- **Snapshot rule**: where each step first puts out what a part of the machine allows, a run puts
out what the part allows after more and more of what is given to it. -/
theorem outputs_snapshots {out : σ → ι → List β} {allows : τ → β → Prop}
    (hstep : ∀ s i, part (step s i) = (given s i).foldl step' (part s))
    (hout : ∀ s i, ∀ b ∈ out s i, allows (part s) b) (is : List ι) (s : σ) :
    ∃ counts : List ℕ, counts.Pairwise (· ≤ ·) ∧
      (∀ k ∈ counts, k ≤ (outputs step given s is).length) ∧
      List.Forall₂ (fun b k => allows (((outputs step given s is).take k).foldl step' (part s)) b)
        (outputs step out s is) counts := by
  induction is generalizing s with
  | nil => exact ⟨[], List.Pairwise.nil, List.forall_mem_nil _, List.Forall₂.nil⟩
  | cons i is ih =>
    obtain ⟨counts, hsorted, hbound, hcounts⟩ := ih (step s i)
    have hzero : ∀ k ∈ (out s i).map fun _ => 0, k = 0 := by
      intro k hk
      obtain ⟨-, -, rfl⟩ := List.mem_map.1 hk
      rfl
    refine ⟨(out s i).map (fun _ => 0) ++ counts.map ((given s i).length + ·), ?_, ?_, ?_⟩
    · refine List.pairwise_append.2 ⟨?_, ?_, fun k hk _ _ => hzero k hk ▸ Nat.zero_le _⟩
      · exact List.pairwise_map.2 (List.pairwise_of_forall fun _ _ => Nat.le_refl 0)
      · exact List.pairwise_map.2 (hsorted.imp fun hle => Nat.add_le_add_left hle _)
    · intro k hk
      unfold outputs
      rw [List.length_append]
      rcases List.mem_append.1 hk with hk | hk
      · exact hzero k hk ▸ Nat.zero_le _
      · obtain ⟨j, hj, rfl⟩ := List.mem_map.1 hk
        exact Nat.add_le_add_left (hbound j hj) _
    · unfold outputs
      refine List.rel_append ?_ ?_
      · exact List.forall₂_map_right_iff.2 (List.forall₂_same.2 (hout s i))
      · refine List.forall₂_map_right_iff.2 (hcounts.imp fun b k hallows => ?_)
        rwa [List.take_length_add_append, List.foldl_append, ← hstep]

end Part

/-! ### Loops that collect results -/

section Collect

variable {σ α ρ ε : Type*} {R : σ → List ε → σ → Prop} {f : σ × List ρ → α → σ × List ρ}

/-- **A loop whose rounds append results**: what relates the states before and after a
round to the events of its results relates them for the loop, when it can be composed. -/
theorem foldl_collect (events : ρ → List ε) (hrefl : ∀ s, R s [] s)
    (htrans : ∀ s t u es fs, R s es t → R t fs u → R s (es ++ fs) u) (I : σ → Prop)
    {as : List α}
    (hf : ∀ s acc, ∀ a ∈ as, I s → ∃ rs, (f (s, acc) a).2 = acc ++ rs ∧
      R s (rs.flatMap events) (f (s, acc) a).1 ∧ I (f (s, acc) a).1)
    {s : σ} (hs : I s) (acc : List ρ) :
    ∃ rs, (as.foldl f (s, acc)).2 = acc ++ rs ∧
      R s (rs.flatMap events) (as.foldl f (s, acc)).1 := by
  induction as generalizing s acc with
  | nil => exact ⟨[], (List.append_nil acc).symm, hrefl s⟩
  | cons a as ih =>
    obtain ⟨rs, hrs, hround, hI⟩ := hf s acc a List.mem_cons_self hs
    obtain ⟨ts, hts, hrest⟩ :=
      ih (fun s acc b hb => hf s acc b (List.mem_cons_of_mem a hb)) hI (f (s, acc) a).2
    refine ⟨rs ++ ts, ?_, ?_⟩
    · rw [List.foldl_cons, hts, hrs, List.append_assoc]
    · rw [List.flatMap_append]
      exact htrans _ _ _ _ _ hround hrest

end Collect

/-! ### Loops that can panic -/

section Panic

variable {σ τ ι : Type*} {f : σ → ι → Option σ}

/-- A loop whose rounds keep an invariant and do not panic in states that meet it. -/
theorem foldlM_some {P : σ → Prop} (hround : ∀ s i, P s → ∃ s', f s i = some s' ∧ P s')
    (is : List ι) {s : σ} (hs : P s) : ∃ s', is.foldlM f s = some s' ∧ P s' := by
  induction is generalizing s with
  | nil => exact ⟨s, rfl, hs⟩
  | cons i is ih =>
    obtain ⟨s', hfirst, hs'⟩ := hround s i hs
    obtain ⟨s'', hrest, hs''⟩ := ih hs'
    refine ⟨s'', ?_, hs''⟩
    rw [List.foldlM_cons, hfirst]
    exact hrest

/-- A loop seen through a projection. -/
theorem foldlM_map {proj : σ → τ} {g : τ → ι → Option τ}
    (hround : ∀ s i, (f s i).map proj = g (proj s) i) (is : List ι) (s : σ) :
    (is.foldlM f s).map proj = is.foldlM g (proj s) := by
  induction is generalizing s with
  | nil => rfl
  | cons i is ih =>
    rw [List.foldlM_cons, List.foldlM_cons, ← hround s i]
    cases f s i with
    | none => rfl
    | some s' => exact ih s'

end Panic

/-! ### Decidability -/

section Decidable

variable {σ ι : Type*} {step : σ → ι → σ}

instance decidableThroughout {Q : σ → Prop} [DecidablePred Q] :
    ∀ s is, Decidable (Throughout step Q s is)
  | s, [] => inferInstanceAs (Decidable (Q s))
  | s, i :: is =>
    have : Decidable (Throughout step Q (step s i) is) := decidableThroughout (step s i) is
    inferInstanceAs (Decidable (Q s ∧ Throughout step Q (step s i) is))

instance decidableAlong {C : σ → ι → Prop} [∀ s i, Decidable (C s i)] :
    ∀ s is, Decidable (Along step C s is)
  | _, [] => isTrue trivial
  | s, i :: is =>
    have : Decidable (Along step C (step s i) is) := decidableAlong (step s i) is
    inferInstanceAs (Decidable (C s i ∧ Along step C (step s i) is))

end Decidable

end Consentry.Lib
