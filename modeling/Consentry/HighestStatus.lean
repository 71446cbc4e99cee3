import Consentry.Rpc.Methods

/-!
# The status of the sentry (`sentry.rs`)

The part of `Sentry::start` that derives the status it advertises from the blocks it receives over
gossip. The first block of each new epoch is kept, and when there are three the oldest is taken for
the finalized one.
-/

namespace Consentry

open Rpc (Hash256 StatusMessage)

/-- The slot and the canonical root of a block received over gossip. -/
structure ReceivedBlock where
  slot : UInt64
  root : Hash256
  deriving DecidableEq

/-- The local variables of `Sentry::start` that the blocks concern. -/
structure SentryStatus where
  highestStatus : StatusMessage
  /-- The oldest first. -/
  epochBlocks : List ReceivedBlock
  epochUpToDate : Bool
  lastEpoch : UInt64
  deriving DecidableEq

namespace SentryStatus

/-- A random default status (for now). -/
def defaultStatus (forkDigest : Vector UInt8 4) : StatusMessage where
  forkDigest := forkDigest
  finalizedRoot := #v[
    0xb6, 0xad, 0xca, 0x90, 0x4a, 0x06, 0x74, 0xb7, 0x26, 0x3f, 0x8f, 0x95, 0x18, 0xb2, 0xa0, 0xdf,
    0xf5, 0xee, 0x60, 0x89, 0xee, 0x92, 0x89, 0x0e, 0x74, 0x2d, 0x0a, 0x64, 0xa2, 0xcb, 0xbb, 0x43]
  finalizedEpoch := 194863
  headRoot := #v[
    0xb4, 0x1d, 0x25, 0xd1, 0x7e, 0xf9, 0x59, 0xd1, 0x5a, 0xab, 0xdc, 0x01, 0xdf, 0x99, 0xe2, 0xec,
    0x94, 0xdd, 0x60, 0x0a, 0x0a, 0xc2, 0x18, 0xd5, 0xb7, 0x9b, 0x2a, 0x95, 0xcb, 0x14, 0xac, 0xad]
  headSlot := 6235698

def new (forkDigest : Vector UInt8 4) : SentryStatus where
  highestStatus := defaultStatus forkDigest
  epochBlocks := []
  epochUpToDate := false
  lastEpoch := 0

/-- The block is at the start of an epoch that is bigger than the last one. -/
def StartsEpoch (s : SentryStatus) (block : ReceivedBlock) : Prop :=
  block.slot % 32 = 0 ∧ block.slot / 32 > s.lastEpoch

instance (s : SentryStatus) (block : ReceivedBlock) : Decidable (s.StartsEpoch block) :=
  inferInstanceAs (Decidable (_ ∧ _))

/-- The oldest of the epoch blocks is finalized. -/
def finalize (s : SentryStatus) : SentryStatus :=
  match s.epochBlocks with
  | finalized :: epochBlocks =>
    { s with
      epochBlocks := epochBlocks
      highestStatus := { s.highestStatus with
        finalizedRoot := finalized.root
        finalizedEpoch := finalized.slot / 32 }
      epochUpToDate := true }
  | [] => s

def handleEpoch (s : SentryStatus) (block : ReceivedBlock) : SentryStatus :=
  if s.StartsEpoch block then
    let s := { s with
      lastEpoch := block.slot / 32
      epochBlocks := s.epochBlocks ++ [block] }
    if s.epochBlocks.length > 2 then s.finalize else s
  else s

def handleHead (s : SentryStatus) (block : ReceivedBlock) : SentryStatus :=
  if s.epochUpToDate ∧ block.slot > s.highestStatus.headSlot then
    { s with highestStatus := { s.highestStatus with
        headRoot := block.root
        headSlot := block.slot } }
  else s

/-- A `PubsubMessage::BeaconBlock` is received. -/
def handleBlock (s : SentryStatus) (block : ReceivedBlock) : SentryStatus :=
  (s.handleEpoch block).handleHead block

end SentryStatus

end Consentry
