import Consentry.Config
import Consentry.Network.Metadata

/-!
# The node record at start (`discovery/enr.rs`)

The record of the node is built from the configuration. If there is one on file, it is used when it
has the same configuration, and otherwise the new one is given the next sequence number. The `enr`
crate is a parameter (`EnrCrate`), and what the file system answers is an argument.
-/

namespace Consentry

open Rpc

/-! ## Keys (`discovery/enr_ext.rs`) -/

/-- `enr::CombinedKey`, for the types of its secrets. -/
inductive CombinedKey (SigningKey SecretKey : Type)
  | secp256k1 (secret : SigningKey)
  | ed25519 (secret : SecretKey)

/-- `libp2p::core::identity::Keypair`, whose secrets are valid ones. -/
inductive Keypair (SigningKey SecretKey : Type)
  | secp256k1 (secret : SigningKey)
  | ed25519 (secret : SecretKey)
  | ecdsa

/-- Converts a libp2p key into an ENR combined key. -/
def CombinedKey.fromLibp2p {SigningKey SecretKey : Type} :
    Keypair SigningKey SecretKey → Except String (CombinedKey SigningKey SecretKey)
  | .secp256k1 key => .ok (.secp256k1 key)
  | .ed25519 key => .ok (.ed25519 key)
  | .ecdsa => .error "Ecdsa keypairs not supported"

/-! ## Libraries -/

/-- `EnrBuilder`: the calls that are made on it. -/
inductive EnrBuilder
  | new (id : String)
  | ip (builder : EnrBuilder) (ip : IpAddr)
  | udp4 (builder : EnrBuilder) (udp : UInt16)
  | tcp4 (builder : EnrBuilder) (tcp : UInt16)
  | addValue (builder : EnrBuilder) (key : String) (value : Bytes)

/-- The `enr` crate. A record is signed with the key of the node, of which its id is made. -/
structure EnrCrate where
  SigningKey : Type
  SecretKey : Type
  Enr : Type
  NodeId : Type
  [decidableEqNodeId : DecidableEq NodeId]
  nodeId : Enr → NodeId
  seq : Enr → UInt64
  ip4 : Enr → Option UInt32
  ip6 : Enr → Option (BitVec 128)
  udp4 : Enr → Option UInt16
  tcp4 : Enr → Option UInt16
  get : Enr → String → Option Bytes
  build : EnrBuilder → CombinedKey SigningKey SecretKey → Except String Enr
  setSeq : Enr → UInt64 → CombinedKey SigningKey SecretKey → Except String Enr
  fromStr : String → Except String Enr
  toBase64 : Enr → String
  /-- `NodeId::from(key.public())` -/
  publicNodeId : CombinedKey SigningKey SecretKey → NodeId

attribute [instance] EnrCrate.decidableEqNodeId

/-- The values that a record has beside its addresses. -/
structure EnrSsz (S : EthSpec) where
  EnrForkId : Type
  enrForkId : SszType EnrForkId
  attnets : SszType S.Attnets
  syncnets : SszType S.Syncnets

structure EnrLib (S : EthSpec) where
  enr : EnrCrate
  ssz : EnrSsz S
  bits : Bitfields S

/-! ## Fields and files -/

/-- The ENR field specifying the fork id. -/
def eth2EnrKey : String := "eth2"
/-- The ENR field specifying the attestation subnet bitfield. -/
def attestationBitfieldEnrKey : String := "attnets"
/-- The ENR field specifying the sync committee subnet bitfield. -/
def syncCommitteeBitfieldEnrKey : String := "syncnets"

/-- What opening the file of the record answers, and what reading it does. -/
abbrev EnrFile := Except IoError (Except IoError String)

/-- `checked_add(1)` -/
def checkedSucc (n : UInt64) : Option UInt64 := if n.toNat + 1 < 2 ^ 64 then some (n + 1) else none

def createEnrBuilderFromConfig (config : NetworkConfig) (enableTcp : Bool) : EnrBuilder :=
  let builder := .new "v4"
  let builder := config.enrAddress.elim builder builder.ip
  let builder := config.enrUdpPort.elim builder builder.udp4
  -- we always give it our listening tcp port
  if enableTcp then builder.tcp4 (config.enrTcpPort.getD config.libp2pPort) else builder

namespace EnrLib

variable {S : EthSpec} (lib : EnrLib S)

abbrev Record : Type := lib.enr.Enr
abbrev Key : Type := CombinedKey lib.enr.SigningKey lib.enr.SecretKey
abbrev LibKey : Type := Keypair lib.enr.SigningKey lib.enr.SecretKey

/-! ## Reading a record -/

/-- A field of a record. -/
def field {α : Type} (enr : lib.Record) (key : String) (t : SszType α)
    (nonExistent undecodable : String) : Except String α :=
  match lib.enr.get enr key with
  | none => .error nonExistent
  | some bytes => (t.fromSszBytes bytes).mapError fun _ => undecodable

def attestationBitfield (enr : lib.Record) : Except String S.Attnets :=
  lib.field enr attestationBitfieldEnrKey lib.ssz.attnets "ENR attestation bitfield non-existent"
    "Could not decode the ENR attnets bitfield"

def syncCommitteeBitfield (enr : lib.Record) : Except String S.Syncnets :=
  lib.field enr syncCommitteeBitfieldEnrKey lib.ssz.syncnets
    "ENR sync committee bitfield non-existent" "Could not decode the ENR syncnets bitfield"

def eth2 (enr : lib.Record) : Except String lib.ssz.EnrForkId :=
  lib.field enr eth2EnrKey lib.ssz.enrForkId "ENR has no eth2 field" "Could not decode EnrForkId"

/-! ## Building a record -/

/-- Builds an ENR given a `NetworkConfig`. -/
def buildEnr (enrKey : lib.Key) (config : NetworkConfig) (enrForkId : lib.ssz.EnrForkId) :
    Except String lib.Record :=
  let builder := createEnrBuilderFromConfig config true
  let builder := builder.addValue eth2EnrKey (lib.ssz.enrForkId.asSszBytes enrForkId)
  let builder := builder.addValue attestationBitfieldEnrKey
    (lib.ssz.attnets.asSszBytes lib.bits.defaultAttnets)
  let builder := builder.addValue syncCommitteeBitfieldEnrKey
    (lib.ssz.syncnets.asSszBytes S.defaultSyncnets)
  (lib.enr.build builder enrKey).mapError ("Could not build Local ENR: " ++ ·)

/-! ## The record on file -/

/-- Defines the conditions under which we use the locally built ENR or the one stored on disk.
If this function returns true, we use the `diskEnr`. -/
def compareEnr (localEnr diskEnr : lib.Record) : Bool :=
  -- take preference over disk_enr address if one is not specified
  decide (lib.enr.ip4 localEnr = none ∨ lib.enr.ip4 localEnr = lib.enr.ip4 diskEnr) &&
  decide (lib.enr.tcp4 localEnr = lib.enr.tcp4 diskEnr) &&
  decide (lib.enr.get localEnr eth2EnrKey = lib.enr.get diskEnr eth2EnrKey) &&
  -- take preference over disk udp port if one is not specified
  decide (lib.enr.udp4 localEnr = none ∨ lib.enr.udp4 localEnr = lib.enr.udp4 diskEnr) &&
  decide (lib.enr.get localEnr attestationBitfieldEnrKey =
    lib.enr.get diskEnr attestationBitfieldEnrKey) &&
  decide (lib.enr.get localEnr syncCommitteeBitfieldEnrKey =
    lib.enr.get diskEnr syncCommitteeBitfieldEnrKey)

/-- Saves an ENR to disk: what is on file then, if it could be written. -/
def saveEnrToDisk (enr : lib.Record) (answer : Except IoError Unit) : Option String :=
  match answer with
  | .ok _ => some (lib.enr.toBase64 enr)
  | .error _ => none

/-- The record with a sequence number behind that of the one on file. -/
def nextSeq (enrKey : lib.Key) (localEnr diskEnr : lib.Record) : Except String lib.Record :=
  match checkedSucc (lib.enr.seq diskEnr) with
  | none =>
    .error "ENR sequence number on file is too large. Remove it to generate a new NodeId"
  | some newSeqNo =>
    (lib.enr.setSeq localEnr newSeqNo enrKey).mapError
      ("Could not update ENR sequence number: " ++ ·)

/-- The record on file, if there is one that can be read and decoded. -/
def enrOnFile (file : EnrFile) : Option lib.Record :=
  match file with
  | .ok (.ok enrString) => (lib.enr.fromStr enrString).toOption
  | _ => none

/-- Either use the given ENR or load an ENR from file if it exists and matches the current NodeId;
with what is written. -/
def useOrLoadEnr (enrKey : lib.Key) (localEnr : lib.Record) (file : EnrFile)
    (answer : Except IoError Unit) : Except String (lib.Record × Option String) :=
  match lib.enrOnFile file with
  | some diskEnr =>
    if lib.enr.nodeId localEnr = lib.enr.nodeId diskEnr then
      -- the stored ENR has the same configuration, use it
      if lib.compareEnr localEnr diskEnr then .ok (diskEnr, none)
      -- same node id, different configuration
      else (lib.nextSeq enrKey localEnr diskEnr).map fun localEnr =>
        (localEnr, lib.saveEnrToDisk localEnr answer)
    else .ok (localEnr, lib.saveEnrToDisk localEnr answer)
  | none => .ok (localEnr, lib.saveEnrToDisk localEnr answer)

/-- Loads an ENR from file if it exists and matches the current NodeId. If none exists, generates a
new one. -/
def buildOrLoadEnr (localKey : lib.LibKey) (config : NetworkConfig)
    (enrForkId : lib.ssz.EnrForkId) (file : EnrFile) (answer : Except IoError Unit) :
    Except String (lib.Record × Option String) := do
  let enrKey ← CombinedKey.fromLibp2p localKey
  let localEnr ← lib.buildEnr enrKey config enrForkId
  lib.useOrLoadEnr enrKey localEnr file answer

end EnrLib

end Consentry
