import Consentry.Network.Metadata
import Consentry.Verify.PlainWire

/-!
# The sequence number identifies the metadata

**`seqNumber_identifies`**: through any restarts and updates the sequence number never falls, and
metadata with the same number have the same bitfields. A step raises the number or keeps the
metadata (`seqLe_step`), so does the first start (`seqLe_start`), and the relation is transitive.
-/

namespace Consentry

open Rpc

/-- The metadata is read back; version 1 is not read as version 2, which is longer. -/
structure Rpc.Wire.MetaDataLawful {S : EthSpec} (w : Wire S) : Prop where
  v1 : ∀ m, w.ssz.metaDataV1.Inverts m
  v2 : ∀ m, w.ssz.metaDataV2.Inverts m
  v1_not_v2 : ∀ m, ∃ e, w.ssz.metaDataV2.fromSszBytes (w.ssz.metaDataV1.asSszBytes m) = .error e

/-- The sync committee bitfield, which version 1 does not have. -/
def Rpc.MetaData.syncnets {S : EthSpec} : Rpc.MetaData S → Option S.Syncnets
  | .v1 _ => none
  | .v2 m => some m.syncnets

namespace NodeMetadata

variable {S : EthSpec} {w : Wire S} {bits : Bitfields S}

/-- The later number is not smaller, and if it is the same, so are the bitfields. -/
def SeqLe (earlier later : Rpc.MetaData S) : Prop :=
  earlier.seqNumber ≤ later.seqNumber ∧ (earlier.seqNumber = later.seqNumber →
    earlier.attnets = later.attnets ∧ earlier.syncnets = later.syncnets)

theorem SeqLe.trans {a b c : Rpc.MetaData S} (hab : SeqLe a b) (hbc : SeqLe b c) : SeqLe a c := by
  refine ⟨UInt64.le_trans hab.1 hbc.1, fun hac => ?_⟩
  have heq : a.seqNumber = b.seqNumber :=
    UInt64.le_antisymm hab.1 (UInt64.le_trans hbc.1 (UInt64.le_of_eq hac.symm))
  obtain ⟨hattnets, hsyncnets⟩ := hab.2 heq
  obtain ⟨hattnets', hsyncnets'⟩ := hbc.2 (heq.symm.trans hac)
  exact ⟨hattnets.trans hattnets', hsyncnets.trans hsyncnets'⟩

instance : Trans (SeqLe (S := S)) (SeqLe (S := S)) (SeqLe (S := S)) := ⟨SeqLe.trans⟩

/-- The number is raised. -/
theorem SeqLe.of_succ {earlier later : Rpc.MetaData S}
    (hbound : earlier.seqNumber.toNat < 2 ^ 64 - 1)
    (h : later.seqNumber = earlier.seqNumber + 1) : SeqLe earlier later := by
  have hlt : earlier.seqNumber < later.seqNumber := by
    rw [h, UInt64.lt_iff_toNat_lt, UInt64.toNat_add, UInt64.toNat_one]
    omega
  refine ⟨UInt64.le_of_lt hlt, fun heq => ?_⟩
  rw [heq] at hlt
  exact absurd hlt (UInt64.lt_irrefl _)

theorem seqNumber_update (n : NodeMetadata S) :
    (n.updateMetadataBitfields w).localMetadata.seqNumber = n.localMetadata.seqNumber + 1 := by
  unfold updateMetadataBitfields saveMetadataToDisk
  cases n.localMetadata with
  | v1 m => rfl
  | v2 m => rfl

/-- The metadata is updated whether or not the record is. -/
theorem updateEnrSubnet_eq (w : Wire S) (bits : Bitfields S) (n : NodeMetadata S) (subnet : Subnet)
    (value : Bool) (inserted : Except String Unit) : ∃ localEnr,
      n.updateEnrSubnet w bits subnet value inserted =
        updateMetadataBitfields w { n with localEnr := localEnr } := by
  unfold updateEnrSubnet
  cases n.localEnr.updateBitfield bits subnet value inserted with
  | error e => exact ⟨n.localEnr, rfl⟩
  | ok localEnr => exact ⟨localEnr, rfl⟩

/-- The file holds the metadata. -/
def Saved (w : Wire S) (n : NodeMetadata S) : Prop :=
  n.file = some (n.localMetadata.asSszBytes w)

section

variable [DecidableEq S.Attnets] [DecidableEq S.Syncnets]

/-- Metadata that is loaded again in version 2. -/
theorem seqLe_load_v2 (h : w.MetaDataLawful) {m : MetaDataV2 S}
    (hbound : m.seqNumber.toNat < 2 ^ 64 - 1) :
    SeqLe (.v2 m) (loadOrBuildMetadata w bits (some (w.ssz.metaDataV2.asSszBytes m))) := by
  have hread : w.ssz.metaDataV2.fromSszBytes (w.ssz.metaDataV2.asSszBytes m) = .ok m := h.v2 m
  unfold loadOrBuildMetadata
  dsimp only
  rw [hread]
  dsimp only
  split
  · exact SeqLe.of_succ hbound rfl
  · next hsame =>
    -- nothing changes: the bitfields are default already
    rw [not_or, not_not, not_not] at hsame
    exact ⟨UInt64.le_refl _, fun _ => ⟨hsame.1, congrArg some hsame.2⟩⟩

/-- Metadata that is loaded in version 1 has a new number. -/
theorem seqNumber_load_v1 (h : w.MetaDataLawful) (m : MetaDataV1 S) :
    (loadOrBuildMetadata w bits (some (w.ssz.metaDataV1.asSszBytes m))).seqNumber =
      m.seqNumber + 1 := by
  have hread : w.ssz.metaDataV1.fromSszBytes (w.ssz.metaDataV1.asSszBytes m) = .ok m := h.v1 m
  obtain ⟨e, hnot⟩ := h.v1_not_v2 m
  unfold loadOrBuildMetadata
  dsimp only
  rw [hnot, hread]
  rfl

/-- The node is started on what was saved. -/
theorem seqLe_start (h : w.MetaDataLawful) {saved : Rpc.MetaData S}
    (hbound : saved.seqNumber.toNat < 2 ^ 64 - 1) (localEnr : LocalEnr S) :
    SeqLe saved (start w bits (some (saved.asSszBytes w)) localEnr).localMetadata := by
  cases saved with
  | v1 m => exact SeqLe.of_succ hbound (seqNumber_load_v1 h m)
  | v2 m => exact seqLe_load_v2 h hbound

theorem saved_step (n : NodeMetadata S) (op : MetadataOp S) : (n.step w bits op).Saved w := by
  cases op with
  | restart saved localEnr => rfl
  | updateEnrSubnet subnet value inserted =>
    obtain ⟨localEnr, heq⟩ := updateEnrSubnet_eq w bits n subnet value inserted
    change (n.updateEnrSubnet w bits subnet value inserted).Saved w
    rw [heq]
    rfl

/-- **A step raises the number, or keeps the metadata.** -/
theorem seqLe_step (h : w.MetaDataLawful) {n : NodeMetadata S} (hsaved : n.Saved w)
    (hbound : n.localMetadata.seqNumber.toNat < 2 ^ 64 - 1) (op : MetadataOp S) :
    SeqLe n.localMetadata (n.step w bits op).localMetadata := by
  cases op with
  | restart saved localEnr =>
    cases saved with
    | v1 =>
      exact SeqLe.of_succ hbound (seqNumber_load_v1 h _)
    | v2 =>
      change SeqLe _ (start w bits n.file localEnr).localMetadata
      rw [hsaved]
      exact seqLe_start h hbound localEnr
  | updateEnrSubnet subnet value inserted =>
    obtain ⟨localEnr, heq⟩ := updateEnrSubnet_eq w bits n subnet value inserted
    change SeqLe _ (n.updateEnrSubnet w bits subnet value inserted).localMetadata
    rw [heq]
    exact SeqLe.of_succ hbound (seqNumber_update { n with localEnr := localEnr })

theorem advertised_head (w : Wire S) (bits : Bitfields S) (n : NodeMetadata S)
    (ops : List (MetadataOp S)) :
    ∃ later, advertised w bits n ops = n.localMetadata :: later := by
  cases ops with
  | nil => exact ⟨[], rfl⟩
  | cons op ops => exact ⟨_, rfl⟩

theorem isChain_advertised (h : w.MetaDataLawful) (ops : List (MetadataOp S)) {n : NodeMetadata S}
    (hsaved : n.Saved w)
    (hbound : ∀ m ∈ advertised w bits n ops, m.seqNumber.toNat < 2 ^ 64 - 1) :
    (advertised w bits n ops).IsChain SeqLe := by
  induction ops generalizing n with
  | nil => exact .singleton _
  | cons op ops ih =>
    have hrest := ih (saved_step n op) fun m hm => hbound m (List.mem_cons_of_mem _ hm)
    have hfirst : SeqLe n.localMetadata (n.step w bits op).localMetadata :=
      seqLe_step h hsaved (hbound _ List.mem_cons_self) op
    unfold advertised
    obtain ⟨later, hlater⟩ := advertised_head w bits (n.step w bits op) ops
    rw [hlater] at hrest ⊢
    exact hrest.cons_cons hfirst

/-- **The sequence number identifies the metadata**: of any two moments of a run, the first of them
that of the last save of the run before, the later has no smaller number, and if the numbers are
the same, so are the bitfields. -/
theorem seqNumber_identifies (h : w.MetaDataLawful) (bits : Bitfields S)
    (saved : Option (Rpc.MetaData S)) (localEnr : LocalEnr S) (ops : List (MetadataOp S))
    (hbound : ∀ m ∈ saved.toList ++
        advertised w bits (start w bits (saved.map (·.asSszBytes w)) localEnr) ops,
      m.seqNumber.toNat < 2 ^ 64 - 1) :
    (saved.toList ++ advertised w bits
      (start w bits (saved.map (·.asSszBytes w)) localEnr) ops).Pairwise SeqLe := by
  rw [← List.isChain_iff_pairwise]
  have hrun := isChain_advertised h ops (n := start w bits (saved.map (·.asSszBytes w)) localEnr)
    rfl fun m hm => hbound m (List.mem_append_right _ hm)
  cases saved with
  | none => exact hrun
  | some m =>
    obtain ⟨later, hlater⟩ := advertised_head w bits
      (start w bits (some (m.asSszBytes w)) localEnr) ops
    rw [Option.map_some, hlater] at hrun
    rw [Option.map_some, hlater]
    exact hrun.cons_cons (seqLe_start h (hbound m List.mem_cons_self) localEnr)

end

end NodeMetadata

/-! ## Concrete metadata -/

namespace Rpc.PlainWire

/-- 64 attestation subnets and 4 of the sync committee; bit `i` is of value `2 ^ i`. -/
def bitSpec : EthSpec := ⟨fun _ => Empty, UInt64, Fin 16, 0⟩

def metaDataV1 : SszType (MetaDataV1 bitSpec) where
  asSszBytes m := toLE 8 m.seqNumber.toNat ++ toLE 8 (UInt64.toNat m.attnets)
  fromSszBytes bytes :=
    if bytes.length = 16 then
      .ok ⟨.ofNat (fromLE (bytes.take 8)), UInt64.ofNat (fromLE (bytes.drop 8))⟩
    else .error "InvalidByteLength"
  sszFixedLen := 16

def metaDataV2 : SszType (MetaDataV2 bitSpec) where
  asSszBytes m :=
    toLE 8 m.seqNumber.toNat ++ (toLE 8 (UInt64.toNat m.attnets) ++ toLE 1 (Fin.val m.syncnets))
  fromSszBytes bytes :=
    if bytes.length = 17 then
      if h : fromLE (bytes.drop 16) < 16 then
        .ok ⟨.ofNat (fromLE (bytes.take 8)), UInt64.ofNat (fromLE ((bytes.drop 8).take 8)), ⟨_, h⟩⟩
      else .error "ExcessBits"
    else .error "InvalidByteLength"
  sszFixedLen := 17

def bitWire : Wire bitSpec where
  ssz :=
    { u64 := u64
      statusMessage := absent StatusMessage 84
      ping := ssz.ping
      blocksByRange := absent OldBlocksByRangeRequest 24
      blockRoots := absent (VariableList Hash256 maxRequestBlocks) 4
      errorType := errorType
      metaDataV1 := metaDataV1
      metaDataV2 := metaDataV2
      signedBeaconBlock := fun _ => absent Empty 4 }
  blockSizes := wire.blockSizes
  uvi := uvi
  snappy := snappy

theorem metaDataV1_inverts (m : MetaDataV1 bitSpec) : metaDataV1.Inverts m := by
  obtain ⟨seqNumber, attnets⟩ := m
  have hattnets : UInt64.ofNat (fromLE (toLE 8 (UInt64.toNat attnets))) = attnets :=
    ofNat_fromLE_toLE attnets
  unfold SszType.Inverts metaDataV1
  dsimp only
  rw [if_pos (by rw [List.length_append, length_toLE, length_toLE]),
    List.take_left' (length_toLE 8 _), List.drop_left' (length_toLE 8 _), ofNat_fromLE_toLE,
    hattnets]

theorem metaDataV2_inverts (m : MetaDataV2 bitSpec) : metaDataV2.Inverts m := by
  obtain ⟨seqNumber, attnets, syncnets⟩ := m
  have hattnets : UInt64.ofNat (fromLE (toLE 8 (UInt64.toNat attnets))) = attnets :=
    ofNat_fromLE_toLE attnets
  have hsyncnets : fromLE (toLE 1 (Fin.val syncnets)) = Fin.val syncnets :=
    fromLE_toLE (by have := Fin.isLt syncnets; omega)
  have hdrop : (toLE 8 seqNumber.toNat ++
      (toLE 8 (UInt64.toNat attnets) ++ toLE 1 (Fin.val syncnets))).drop 16 =
        toLE 1 (Fin.val syncnets) := by
    rw [← List.append_assoc]
    exact List.drop_left' (by rw [List.length_append, length_toLE, length_toLE])
  unfold SszType.Inverts metaDataV2
  dsimp only
  rw [if_pos (by simp only [List.length_append, length_toLE]), hdrop, hsyncnets,
    dif_pos (Fin.isLt syncnets), List.take_left' (length_toLE 8 _),
    List.drop_left' (length_toLE 8 _), List.take_left' (length_toLE 8 _), ofNat_fromLE_toLE,
    hattnets]
  rfl

theorem metaDataV1_not_v2 (m : MetaDataV1 bitSpec) :
    metaDataV2.fromSszBytes (metaDataV1.asSszBytes m) = .error "InvalidByteLength" := by
  have hlength : (metaDataV1.asSszBytes m).length = 16 := by
    unfold metaDataV1
    rw [List.length_append, length_toLE, length_toLE]
  unfold metaDataV2
  dsimp only
  rw [hlength]
  rfl

theorem metaDataLawful_bitWire : bitWire.MetaDataLawful :=
  ⟨metaDataV1_inverts, metaDataV2_inverts, fun m => ⟨_, metaDataV1_not_v2 m⟩⟩

/-- The bits of a number. -/
def numberBits (len : ℕ) {α : Type} (toNat : α → ℕ) (ofNat : ℕ → α) : BitVectorType α where
  len _ := len
  get x i := if i < len then some ((toNat x).testBit i) else none
  set x i value :=
    if i < len then
      some (ofNat (if value then toNat x ||| 2 ^ i else toNat x - (toNat x &&& 2 ^ i)))
    else none

def bitfields : Bitfields bitSpec where
  attnets := numberBits 64 UInt64.toNat UInt64.ofNat
  syncnets := numberBits 4 Fin.val (Fin.ofNat 16)
  defaultAttnets := (0 : UInt64)

end Rpc.PlainWire

namespace NodeMetadata

open Rpc.PlainWire

instance : DecidableEq bitSpec.Attnets := inferInstanceAs (DecidableEq UInt64)
instance : DecidableEq bitSpec.Syncnets := inferInstanceAs (DecidableEq (Fin 16))

/-- The node has no bits set when it is started. -/
def zeroEnr : LocalEnr bitSpec := ⟨(0 : UInt64), (0 : Fin 16)⟩

/-- What an earlier run saved, in version 1. -/
def persisted : Rpc.MetaData bitSpec := .v1 ⟨5, (1 : UInt64)⟩

/-- The node is started on it, joins a subnet, and is restarted twice: the numbers are 5, 6, 7, 8
and 8. -/
theorem seqNumber_identifies_restarts :
    ((some persisted).toList ++ advertised bitWire bitfields
      (start bitWire bitfields ((some persisted).map (·.asSszBytes bitWire)) zeroEnr)
      [.updateEnrSubnet (.attestation 3) true (.ok ()), .restart .v2 zeroEnr,
        .restart .v2 zeroEnr]).Pairwise SeqLe :=
  seqNumber_identifies metaDataLawful_bitWire bitfields (some persisted) zeroEnr
    [.updateEnrSubnet (.attestation 3) true (.ok ()), .restart .v2 zeroEnr, .restart .v2 zeroEnr]
    (by decide)

example : (advertised bitWire bitfields
    (start bitWire bitfields ((some persisted).map (·.asSszBytes bitWire)) zeroEnr)
    [.updateEnrSubnet (.attestation 3) true (.ok ()), .restart .v2 zeroEnr,
      .restart .v2 zeroEnr]).map (·.seqNumber) = [6, 7, 8, 8] := by
  decide

end NodeMetadata

end Consentry
