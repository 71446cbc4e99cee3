import Mathlib.Data.List.Basic
import Mathlib.Data.List.Count

/-!
# Tickets that are settled at most once

A ticket is issued once, is held in at most one place at a time, and events are reported about
it; a final event settles it. An event is queued, delivered from the queue, or reported at
once, past those that are queued.

* **`Orderly`**: no event about a ticket follows one that settles it, so that no ticket is
  settled twice (`Orderly.countP_le_one`).
* **`Ledger.Sound`**: the books on the tickets are in order. It is kept when nothing is reported
  (`Sound.quiet`), when an event is delivered (`Sound.deliver`), when one is queued
  (`Sound.queue`) or reported at once (`Sound.report`) about a ticket that is not settled, and
  when a ticket is issued (`Sound.issue`).
-/

namespace Consentry.Lib

variable {κ ε : Type*}

/-! ## Logs -/

section Orderly

variable (about : ε → Option κ) (final : ε → Bool)

/-- No event about a ticket follows one that settles it. -/
def Orderly (log : List ε) : Prop :=
  log.Pairwise fun e e' => ∀ k, about e = some k → final e = true → about e' ≠ some k

/-- The log has an event that settles the ticket. -/
def SettledIn (log : List ε) (k : κ) : Prop :=
  ∃ e ∈ log, about e = some k ∧ final e = true

variable {about final} {log log' queue : List ε} {e : ε} {k : κ}

theorem SettledIn.append_left (h : SettledIn about final log k) (log' : List ε) :
    SettledIn about final (log ++ log') k := by
  obtain ⟨e, he, hk⟩ := h
  exact ⟨e, List.mem_append_left _ he, hk⟩

theorem settledIn_append :
    SettledIn about final (log ++ log') k ↔
      SettledIn about final log k ∨ SettledIn about final log' k := by
  constructor
  · rintro ⟨e, he, hk⟩
    rcases List.mem_append.1 he with he | he
    · exact .inl ⟨e, he, hk⟩
    · exact .inr ⟨e, he, hk⟩
  · rintro (⟨e, he, hk⟩ | ⟨e, he, hk⟩)
    · exact ⟨e, List.mem_append_left _ he, hk⟩
    · exact ⟨e, List.mem_append_right _ he, hk⟩

/-- An event that is put between the log and the queue. -/
theorem Orderly.insert (h : Orderly about final (log ++ queue))
    (hpast : ∀ k, about e = some k → ¬ SettledIn about final log k)
    (hlater : ∀ k, about e = some k → final e = true → ∀ e' ∈ queue, about e' ≠ some k) :
    Orderly about final (log ++ e :: queue) := by
  obtain ⟨hlog, hqueue, hcross⟩ := List.pairwise_append.1 h
  refine List.pairwise_append.2 ⟨hlog, List.pairwise_cons.2 ⟨?_, hqueue⟩, ?_⟩
  · intro e' he' k hk hfinal
    exact hlater k hk hfinal e' he'
  · intro e₀ he₀ e' he' k hk hfinal
    rcases List.mem_cons.1 he' with rfl | he'
    · intro hsame
      exact hpast k hsame ⟨e₀, he₀, hk, hfinal⟩
    · exact hcross e₀ he₀ e' he' k hk hfinal

/-- **A ticket is settled at most once.** -/
theorem Orderly.countP_le_one [DecidableEq κ] (h : Orderly about final log) (k : κ) :
    log.countP (fun e => about e = some k && final e) ≤ 1 := by
  induction log with
  | nil => exact Nat.zero_le 1
  | cons e log ih =>
    obtain ⟨hfirst, hrest⟩ := List.pairwise_cons.1 h
    rw [List.countP_cons]
    split
    · next hsettles =>
      rw [Bool.and_eq_true, decide_eq_true_eq] at hsettles
      have hnone : log.countP (fun e => about e = some k && final e) = 0 := by
        rw [List.countP_eq_zero]
        intro e' he' hk
        rw [Bool.and_eq_true, decide_eq_true_eq] at hk
        exact hfirst e' he' k hsettles.1 hsettles.2 hk.1
      omega
    · exact ih hrest

end Orderly

/-! ## Ledgers -/

/-- Books on tickets: in how many places each is held, which may still be settled, and the
events that have been delivered and that are queued. -/
structure Ledger (κ ε : Type*) where
  held : κ → ℕ
  live : κ → Prop
  log : List ε
  queue : List ε

namespace Ledger

variable (about : ε → Option κ) (final : ε → Bool) in
/-- The books are in order. Only final events are queued, so that an event may be reported past
the queue. -/
structure Sound (issued : κ → Prop) (l : Ledger κ ε) : Prop where
  once : ∀ k, l.held k ≤ 1
  orderly : Orderly about final (l.log ++ l.queue)
  queued : ∀ e ∈ l.queue, ∀ k, about e = some k → final e = true
  unsettled : ∀ k, l.live k → ¬ SettledIn about final (l.log ++ l.queue) k
  issued_of_held : ∀ k, 0 < l.held k → issued k
  issued_of_about : ∀ e ∈ l.log ++ l.queue, ∀ k, about e = some k → issued k

namespace Sound

variable {about : ε → Option κ} {final : ε → Bool} {issued : κ → Prop} {l : Ledger κ ε}
  {held : κ → ℕ} {live : κ → Prop} {e : ε} {k : κ}

theorem unsettled_of_not_issued (h : l.Sound about final issued) (hk : ¬ issued k) :
    ¬ SettledIn about final (l.log ++ l.queue) k := by
  rintro ⟨e, he, habout, -⟩
  exact hk (h.issued_of_about e he k habout)

theorem mono {issued' : κ → Prop} (h : l.Sound about final issued)
    (hsub : ∀ k, issued k → issued' k) : l.Sound about final issued' :=
  { h with
    issued_of_held := fun k hk => hsub k (h.issued_of_held k hk)
    issued_of_about := fun e he k hk => hsub k (h.issued_of_about e he k hk) }

/-- Nothing is reported, events about no ticket apart. -/
theorem quiet (h : l.Sound about final issued) (hheld : ∀ k, held k ≤ l.held k)
    (hlive : ∀ k, live k → l.live k) {events : List ε}
    (hevents : ∀ e ∈ events, about e = none) :
    Sound about final issued ⟨held, live, l.log, l.queue ++ events⟩ := by
  have hmem : ∀ e ∈ l.log ++ (l.queue ++ events), ∀ k, about e = some k →
      e ∈ l.log ++ l.queue := by
    intro e he k hk
    rw [← List.append_assoc] at he
    rcases List.mem_append.1 he with he | he
    · exact he
    · rw [hevents e he] at hk
      cases hk
  refine ⟨fun k => Nat.le_trans (hheld k) (h.once k), ?_, ?_, ?_, ?_, ?_⟩
  · rw [Orderly, ← List.append_assoc]
    refine List.pairwise_append.2 ⟨h.orderly, ?_, ?_⟩
    · refine List.pairwise_iff_forall_sublist.2 fun {a b} hsub k hk => ?_
      rw [hevents a (hsub.subset List.mem_cons_self)] at hk
      cases hk
    · intro a _ b hb k _ _ hk
      rw [hevents b hb] at hk
      cases hk
  · intro e he k hk
    rcases List.mem_append.1 he with he | he
    · exact h.queued e he k hk
    · rw [hevents e he] at hk
      cases hk
  · rintro k hk ⟨e, he, hsettles⟩
    exact h.unsettled k (hlive k hk) ⟨e, hmem e he k hsettles.1, hsettles⟩
  · intro k hk
    exact h.issued_of_held k (Nat.lt_of_lt_of_le hk (hheld k))
  · intro e he k hk
    exact h.issued_of_about e (hmem e he k hk) k hk

/-- The places change, and nothing is reported. -/
theorem move (h : l.Sound about final issued) (hheld : ∀ k, held k ≤ l.held k)
    (hlive : ∀ k, live k → l.live k) :
    Sound about final issued ⟨held, live, l.log, l.queue⟩ := by
  have hquiet := h.quiet hheld hlive (List.forall_mem_nil _)
  rwa [List.append_nil] at hquiet

/-- The first event of the queue is delivered. -/
theorem deliver {log queue : List ε}
    (h : Sound about final issued ⟨held, live, log, e :: queue⟩) :
    Sound about final issued ⟨held, live, log ++ [e], queue⟩ := by
  have htrace : log ++ [e] ++ queue = log ++ e :: queue := by simp
  refine ⟨h.once, ?_, fun e' he' => h.queued e' (List.mem_cons_of_mem e he'), ?_,
    h.issued_of_held, ?_⟩
  · show Orderly about final (log ++ [e] ++ queue)
    rw [htrace]
    exact h.orderly
  · intro k hk
    show ¬ SettledIn about final (log ++ [e] ++ queue) k
    rw [htrace]
    exact h.unsettled k hk
  · intro e' he'
    rw [show log ++ [e] ++ queue = log ++ e :: queue from htrace] at he'
    exact h.issued_of_about e' he'

/-- A ticket is issued and held in one place. -/
theorem issue [DecidableEq κ] (h : l.Sound about final issued) (hk : ¬ issued k) :
    Sound about final (fun j => issued j ∨ j = k)
      ⟨fun j => l.held j + (if k = j then 1 else 0), fun j => l.live j ∨ j = k, l.log,
        l.queue⟩ := by
  have hfree : l.held k = 0 := by
    by_contra hne
    exact hk (h.issued_of_held k (Nat.pos_of_ne_zero hne))
  refine ⟨fun j => ?_, h.orderly, h.queued, ?_, ?_, ?_⟩
  · show l.held j + (if k = j then 1 else 0) ≤ 1
    have honce := h.once j
    split
    · next hsame =>
      subst hsame
      omega
    · omega
  · rintro j (hj | rfl)
    · exact h.unsettled j hj
    · exact h.unsettled_of_not_issued hk
  · intro j hj
    have hheld : 0 < l.held j + (if k = j then 1 else 0) := hj
    by_cases hsame : k = j
    · exact .inr hsame.symm
    · rw [if_neg hsame] at hheld
      exact .inl (h.issued_of_held j hheld)
  · intro e he j hj
    exact .inl (h.issued_of_about e he j hj)

/-- An event about a ticket that is not settled is put into the trace. -/
private theorem put (h : l.Sound about final issued) (habout : about e = some k)
    (hopen : ¬ SettledIn about final (l.log ++ l.queue) k) (hissued : issued k)
    (hheld : ∀ j, held j ≤ l.held j)
    (hlive : ∀ j, live j → l.live j ∧ (final e = true → j ≠ k)) {past later log queue : List ε}
    (hbefore : l.log ++ l.queue = past ++ later) (hafter : log ++ queue = past ++ e :: later)
    (hlater : ∀ e' ∈ later, about e' ≠ some k)
    (hqueued : ∀ e' ∈ queue, ∀ j, about e' = some j → final e' = true) :
    Sound about final issued ⟨held, live, log, queue⟩ := by
  have hone : ∀ j, about e = some j → j = k := by
    intro j hj
    exact Option.some.inj (hj.symm.trans habout)
  have hmem : ∀ e' ∈ log ++ queue, e' = e ∨ e' ∈ l.log ++ l.queue := by
    intro e' he'
    rw [hafter, List.mem_append, List.mem_cons] at he'
    rw [hbefore, List.mem_append]
    rcases he' with he' | he' | he'
    · exact .inr (.inl he')
    · exact .inl he'
    · exact .inr (.inr he')
  refine ⟨fun j => Nat.le_trans (hheld j) (h.once j), ?_, hqueued, ?_, ?_, ?_⟩
  · have horderly := h.orderly
    rw [hbefore] at horderly hopen
    show Orderly about final (log ++ queue)
    rw [hafter]
    refine horderly.insert ?_ ?_
    · intro j hj hsettled
      rw [hone j hj] at hsettled
      exact hopen (hsettled.append_left later)
    · intro j hj _ e' he'
      rw [hone j hj]
      exact hlater e' he'
  · rintro j hj ⟨e', he', hsettles⟩
    obtain ⟨hj, hne⟩ := hlive j hj
    rcases hmem e' he' with rfl | he'
    · exact hne hsettles.2 (hone j hsettles.1)
    · exact h.unsettled j hj ⟨e', he', hsettles⟩
  · intro j hj
    exact h.issued_of_held j (Nat.lt_of_lt_of_le hj (hheld j))
  · intro e' he' j hj
    rcases hmem e' he' with rfl | he'
    · rwa [hone j hj]
    · exact h.issued_of_about e' he' j hj

/-- **A final event is queued** about a ticket that is not settled. -/
theorem queue (h : l.Sound about final issued) (habout : about e = some k)
    (hfinal : final e = true) (hopen : ¬ SettledIn about final (l.log ++ l.queue) k)
    (hissued : issued k) (hheld : ∀ j, held j ≤ l.held j)
    (hlive : ∀ j, live j → l.live j ∧ j ≠ k) :
    Sound about final issued ⟨held, live, l.log, l.queue ++ [e]⟩ := by
  refine h.put habout hopen hissued hheld (fun j hj => ?_) (List.append_nil _).symm
    (List.append_assoc _ _ _).symm (fun e' he' => ?_) fun e' he' j hj => ?_
  · exact ⟨(hlive j hj).1, fun _ => (hlive j hj).2⟩
  · cases he'
  · rcases List.mem_append.1 he' with he' | he'
    · exact h.queued e' he' j hj
    · rwa [List.mem_singleton.1 he']

/-- **An event is reported at once** about a ticket that is not settled. -/
theorem report (h : l.Sound about final issued) (habout : about e = some k)
    (hopen : ¬ SettledIn about final (l.log ++ l.queue) k) (hissued : issued k)
    (hheld : ∀ j, held j ≤ l.held j)
    (hlive : ∀ j, live j → l.live j ∧ (final e = true → j ≠ k)) :
    Sound about final issued ⟨held, live, l.log ++ [e], l.queue⟩ := by
  refine h.put habout hopen hissued hheld hlive rfl (List.append_assoc _ _ _) (fun e' he' hk => ?_)
    h.queued
  exact hopen ⟨e', List.mem_append_right _ he', hk, h.queued e' he' k hk⟩

end Sound

end Ledger

end Consentry.Lib
