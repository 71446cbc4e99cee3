import Consentry.Rpc.Codec

/-!
# The metadata of the node (`network/utils.rs`, `network/mod.rs`)

The metadata is loaded when the node starts, updated with the bitfields of the local node record,
and saved to disk each time. `MetadataOp` lists the restarts and the updates. The bitfields are a
parameter (`Bitfields`); what is saved is always written.
-/

namespace Consentry

open Rpc

/-- The accesses to a `BitVector`; none where the index is out of bounds. -/
structure BitVectorType (α : Type) where
  len : α → ℕ
  get : α → ℕ → Option Bool
  set : α → ℕ → Bool → Option α

/-- The bitfields of a node record, which are zero by default. -/
structure Bitfields (S : EthSpec) where
  attnets : BitVectorType S.Attnets
  syncnets : BitVectorType S.Syncnets
  defaultAttnets : S.Attnets

/-- The bitfields of the local node record; discovery is built with both. -/
structure LocalEnr (S : EthSpec) where
  attestationBitfield : S.Attnets
  syncCommitteeBitfield : S.Syncnets

/-! ## The node record -/

/-- A bitfield with the bit of a subnet; none when the bit is as required already. -/
def BitVectorType.update {α : Type} (t : BitVectorType α) (current : α) (id : ℕ) (value : Bool) :
    Except String (Option α) :=
  if t.len current ≤ id then
    .error s!"Subnet id: {id} is outside the ENR bitfield length: {t.len current}"
  else
    match t.get current id with
    | none => .error "Subnet ID out of bounds"
    | some bit =>
      if bit = value then .ok none
      else
        match t.set current id value with
        | none => .error "Subnet ID out of bounds, could not set subnet ID"
        | some bitfield => .ok (some bitfield)

/-- `update_enr_bitfield`; `inserted` is what `enr_insert` answers. -/
def LocalEnr.updateBitfield {S : EthSpec} (bits : Bitfields S) (enr : LocalEnr S) (subnet : Subnet)
    (value : Bool) (inserted : Except String Unit) : Except String (LocalEnr S) :=
  match subnet with
  | .attestation id =>
    match bits.attnets.update enr.attestationBitfield id value with
    | .error e => .error e
    | .ok none => .ok enr
    | .ok (some bitfield) => inserted.map fun _ => { enr with attestationBitfield := bitfield }
  | .syncCommittee id =>
    match bits.syncnets.update enr.syncCommitteeBitfield id value with
    | .error e => .error e
    | .ok none => .ok enr
    | .ok (some bitfield) => inserted.map fun _ => { enr with syncCommitteeBitfield := bitfield }

/-! ## The metadata -/

section

variable {S : EthSpec}

/-- Load metadata from the persisted file. Default metadata if loading fails. -/
def loadOrBuildMetadata [DecidableEq S.Attnets] [DecidableEq S.Syncnets] (w : Wire S)
    (bits : Bitfields S) (file : Option Bytes) : Rpc.MetaData S :=
  let metaData : MetaDataV2 S := ⟨0, bits.defaultAttnets, S.defaultSyncnets⟩
  match file with
  | none => .v2 metaData
  | some metadataSsz =>
    match w.ssz.metaDataV2.fromSszBytes metadataSsz with
    | .ok persisted =>
      -- the number counts a change only if what was persisted is not default
      if persisted.attnets ≠ metaData.attnets ∨ persisted.syncnets ≠ metaData.syncnets then
        .v2 { metaData with seqNumber := persisted.seqNumber + 1 }
      else
        .v2 { metaData with seqNumber := persisted.seqNumber }
    | .error _ =>
      match w.ssz.metaDataV1.fromSszBytes metadataSsz with
      -- the version of the metadata is updated
      | .ok persisted => .v2 { metaData with seqNumber := persisted.seqNumber + 1 }
      | .error _ => .v2 metaData

/-- The metadata of a node, the file that it was last saved to, and the node record. -/
structure NodeMetadata (S : EthSpec) where
  localMetadata : Rpc.MetaData S
  file : Option Bytes
  localEnr : LocalEnr S

namespace NodeMetadata

/-- Persist metadata to disk. -/
def saveMetadataToDisk (w : Wire S) (n : NodeMetadata S) : NodeMetadata S :=
  { n with file := some (n.localMetadata.asSszBytes w) }

/-- The node is started on a file. -/
def start [DecidableEq S.Attnets] [DecidableEq S.Syncnets] (w : Wire S) (bits : Bitfields S)
    (file : Option Bytes) (localEnr : LocalEnr S) : NodeMetadata S :=
  saveMetadataToDisk w ⟨loadOrBuildMetadata w bits file, file, localEnr⟩

/-- Updates the current metadata of the node to match the local node record. -/
def updateMetadataBitfields (w : Wire S) (n : NodeMetadata S) : NodeMetadata S :=
  let metaData : Rpc.MetaData S :=
    match n.localMetadata with
    | .v1 m => .v1 ⟨m.seqNumber + 1, n.localEnr.attestationBitfield⟩
    | .v2 m =>
      .v2 ⟨m.seqNumber + 1, n.localEnr.attestationBitfield, n.localEnr.syncCommitteeBitfield⟩
  saveMetadataToDisk w { n with localMetadata := metaData }

/-- Updates a subnet value in the bitfields of the node record. The metadata is updated also when
the record is not. -/
def updateEnrSubnet (w : Wire S) (bits : Bitfields S) (n : NodeMetadata S) (subnet : Subnet)
    (value : Bool) (inserted : Except String Unit) : NodeMetadata S :=
  match n.localEnr.updateBitfield bits subnet value inserted with
  | .ok localEnr => updateMetadataBitfields w { n with localEnr := localEnr }
  | .error _ => updateMetadataBitfields w n

end NodeMetadata

end

/-- A restart, with the version in which the metadata was last saved and the node record that
discovery is started with, or an update. -/
inductive MetadataOp (S : EthSpec)
  | restart (saved : Version) (localEnr : LocalEnr S)
  | updateEnrSubnet (subnet : Subnet) (value : Bool) (inserted : Except String Unit)

namespace NodeMetadata

variable {S : EthSpec} [DecidableEq S.Attnets] [DecidableEq S.Syncnets]

/-- The file that the node is restarted on; `save_metadata_to_disk` writes version 2. -/
def savedFile (w : Wire S) (n : NodeMetadata S) : Version → Option Bytes
  | .v1 => some ((n.localMetadata.toVersion .v1).asSszBytes w)
  | .v2 => n.file

def step (w : Wire S) (bits : Bitfields S) (n : NodeMetadata S) : MetadataOp S → NodeMetadata S
  | .restart saved localEnr => start w bits (n.savedFile w saved) localEnr
  | .updateEnrSubnet subnet value inserted => n.updateEnrSubnet w bits subnet value inserted

/-- The metadata at each moment of a run, which the peers may ask for. -/
def advertised (w : Wire S) (bits : Bitfields S) :
    NodeMetadata S → List (MetadataOp S) → List (Rpc.MetaData S)
  | n, [] => [n.localMetadata]
  | n, op :: ops => n.localMetadata :: advertised w bits (n.step w bits op) ops

end NodeMetadata

end Consentry
