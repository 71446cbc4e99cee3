import Consentry.Discovery.Enr
import Consentry.Lib.Fallible
import Consentry.Verify.MetadataSeq
import Consentry.Verify.Pubsub

/-!
# The node record advertises the configuration

**`buildOrLoadEnr_advertises_iff`**: the record that is chosen at start has the address, the ports
and the fork id of the configuration, and a sequence number no smaller than that of the record on
file, exactly if the latter does not agree with the configuration in all but an IPv6 address:
`compareEnr` looks at no address but the IPv4 one. **`buildOrLoadEnr_restart`**: a record that was saved is used
when the node is started again.
-/

namespace Consentry

open Lib Rpc

/-! ## The library -/

namespace EnrBuilder

/-- The IPv4 address that a builder was given last. -/
def ip4 : EnrBuilder → Option UInt32
  | new _ => none
  | ip _ (.v4 octets) => some octets
  | ip builder (.v6 _) => builder.ip4
  | udp4 builder _ => builder.ip4
  | tcp4 builder _ => builder.ip4
  | addValue builder _ _ => builder.ip4

def ip6 : EnrBuilder → Option (BitVec 128)
  | new _ => none
  | ip builder (.v4 _) => builder.ip6
  | ip _ (.v6 octets) => some octets
  | udp4 builder _ => builder.ip6
  | tcp4 builder _ => builder.ip6
  | addValue builder _ _ => builder.ip6

def udpPort : EnrBuilder → Option UInt16
  | new _ => none
  | ip builder _ => builder.udpPort
  | udp4 _ port => some port
  | tcp4 builder _ => builder.udpPort
  | addValue builder _ _ => builder.udpPort

def tcpPort : EnrBuilder → Option UInt16
  | new _ => none
  | ip builder _ => builder.tcpPort
  | udp4 builder _ => builder.tcpPort
  | tcp4 _ port => some port
  | addValue builder _ _ => builder.tcpPort

def value (key : String) : EnrBuilder → Option Bytes
  | new _ => none
  | ip builder _ => builder.value key
  | udp4 builder _ => builder.value key
  | tcp4 builder _ => builder.value key
  | addValue builder key' bytes => if key' = key then some bytes else builder.value key

/-- The keys of the values. -/
def keys : EnrBuilder → List String
  | new _ => []
  | ip builder _ => builder.keys
  | udp4 builder _ => builder.keys
  | tcp4 builder _ => builder.keys
  | addValue builder key _ => key :: builder.keys

end EnrBuilder

def eth2EnrKeys : List String :=
  [eth2EnrKey, attestationBitfieldEnrKey, syncCommitteeBitfieldEnrKey]

namespace EnrCrate

/-- A record has what a builder was given. -/
structure Has (c : EnrCrate) (enr : c.Enr) (builder : EnrBuilder) : Prop where
  ip4 : c.ip4 enr = builder.ip4
  ip6 : c.ip6 enr = builder.ip6
  udp4 : c.udp4 enr = builder.udpPort
  tcp4 : c.tcp4 enr = builder.tcpPort
  get : ∀ key ∈ eth2EnrKeys, c.get enr key = builder.value key

/-- A record that is built, with values under keys that are not those of the crate, has what the
builder was given, and a new sequence number changes nothing else; both are signed with the key. -/
structure Lawful (c : EnrCrate) : Prop where
  build : ∀ builder key enr, (∀ k ∈ builder.keys, k ∈ eth2EnrKeys) → c.build builder key = .ok enr →
    c.Has enr builder ∧ c.nodeId enr = c.publicNodeId key
  setSeq : ∀ enr seq key enr', c.setSeq enr seq key = .ok enr' → c.seq enr' = seq ∧
    c.ip4 enr' = c.ip4 enr ∧ c.ip6 enr' = c.ip6 enr ∧ c.udp4 enr' = c.udp4 enr ∧
    c.tcp4 enr' = c.tcp4 enr ∧ (∀ k, c.get enr' k = c.get enr k) ∧
    c.nodeId enr' = c.publicNodeId key

end EnrCrate

/-! ## The record that is built -/

def IpAddr.v4? : IpAddr → Option UInt32
  | v4 octets => some octets
  | v6 _ => none

def IpAddr.v6? : IpAddr → Option (BitVec 128)
  | v4 _ => none
  | v6 octets => some octets

namespace EnrLib

variable {S : EthSpec} (lib : EnrLib S)

/-- A record of the node of the key with the configuration and no subnets. -/
structure Local (key : lib.Key) (config : NetworkConfig) (enrForkId : lib.ssz.EnrForkId)
    (enr : lib.Record) : Prop where
  nodeId : lib.enr.nodeId enr = lib.enr.publicNodeId key
  ip4 : lib.enr.ip4 enr = config.enrAddress.bind IpAddr.v4?
  ip6 : lib.enr.ip6 enr = config.enrAddress.bind IpAddr.v6?
  udp4 : lib.enr.udp4 enr = config.enrUdpPort
  tcp4 : lib.enr.tcp4 enr = some (config.enrTcpPort.getD config.libp2pPort)
  eth2 : lib.enr.get enr eth2EnrKey = some (lib.ssz.enrForkId.asSszBytes enrForkId)
  attnets : lib.enr.get enr attestationBitfieldEnrKey =
    some (lib.ssz.attnets.asSszBytes lib.bits.defaultAttnets)
  syncnets : lib.enr.get enr syncCommitteeBitfieldEnrKey =
    some (lib.ssz.syncnets.asSszBytes S.defaultSyncnets)

variable {lib} {key : lib.Key} {config : NetworkConfig} {enrForkId : lib.ssz.EnrForkId}
  {enr localEnr diskEnr : lib.Record}

/-- What the builder is given of the configuration. -/
theorem builder_facts (config : NetworkConfig) :
    let builder := createEnrBuilderFromConfig config true
    builder.ip4 = config.enrAddress.bind IpAddr.v4? ∧
      builder.ip6 = config.enrAddress.bind IpAddr.v6? ∧ builder.udpPort = config.enrUdpPort ∧
      builder.tcpPort = some (config.enrTcpPort.getD config.libp2pPort) ∧ builder.keys = [] := by
  obtain ⟨libp2pPort, enrAddress, enrUdpPort, enrTcpPort⟩ := config
  rcases enrAddress with _ | (_ | _) <;> cases enrUdpPort <;> exact ⟨rfl, rfl, rfl, rfl, rfl⟩

theorem buildEnr_local (h : lib.enr.Lawful)
    (hbuild : lib.buildEnr key config enrForkId = .ok enr) :
    lib.Local key config enrForkId enr := by
  obtain ⟨hip4, hip6, hudp, htcp, hkeys⟩ := builder_facts config
  unfold buildEnr at hbuild
  generalize createEnrBuilderFromConfig config true = builder at hip4 hip6 hudp htcp hkeys hbuild
  have hown : ∀ k ∈ syncCommitteeBitfieldEnrKey :: attestationBitfieldEnrKey :: eth2EnrKey ::
      builder.keys, k ∈ eth2EnrKeys := by
    rw [hkeys]
    decide
  have hbuilt := mapError_eq_ok.1 hbuild
  obtain ⟨hhas, hnode⟩ := h.build _ _ _ (by exact hown) hbuilt
  exact {
    nodeId := hnode
    ip4 := hhas.ip4.trans hip4
    ip6 := hhas.ip6.trans hip6
    udp4 := hhas.udp4.trans hudp
    tcp4 := hhas.tcp4.trans htcp
    eth2 := (hhas.get _ (by decide)).trans rfl
    attnets := (hhas.get _ (by decide)).trans rfl
    syncnets := (hhas.get _ (by decide)).trans rfl }

theorem Local.setSeq (h : lib.enr.Lawful) (hlocal : lib.Local key config enrForkId localEnr)
    {seq : UInt64} (hset : lib.enr.setSeq localEnr seq key = .ok enr) :
    lib.Local key config enrForkId enr ∧ lib.enr.seq enr = seq := by
  obtain ⟨hseq, hip4, hip6, hudp, htcp, hget, hnode⟩ := h.setSeq _ _ _ _ hset
  refine ⟨?_, hseq⟩
  exact {
    nodeId := hnode
    ip4 := hip4.trans hlocal.ip4
    ip6 := hip6.trans hlocal.ip6
    udp4 := hudp.trans hlocal.udp4
    tcp4 := htcp.trans hlocal.tcp4
    eth2 := (hget _).trans hlocal.eth2
    attnets := (hget _).trans hlocal.attnets
    syncnets := (hget _).trans hlocal.syncnets }

/-! ## The record on file -/

variable (lib) in
/-- A record has the IPv4 address and the ports of the configuration, as far as these are given,
and no subnets. -/
structure SameConfiguration (config : NetworkConfig) (enrForkId : lib.ssz.EnrForkId)
    (diskEnr : lib.Record) : Prop where
  ip4 : ∀ octets, config.enrAddress = some (.v4 octets) → lib.enr.ip4 diskEnr = some octets
  tcp4 : lib.enr.tcp4 diskEnr = some (config.enrTcpPort.getD config.libp2pPort)
  eth2 : lib.enr.get diskEnr eth2EnrKey = some (lib.ssz.enrForkId.asSszBytes enrForkId)
  udp4 : ∀ port, config.enrUdpPort = some port → lib.enr.udp4 diskEnr = some port
  attnets : lib.enr.get diskEnr attestationBitfieldEnrKey =
    some (lib.ssz.attnets.asSszBytes lib.bits.defaultAttnets)
  syncnets : lib.enr.get diskEnr syncCommitteeBitfieldEnrKey =
    some (lib.ssz.syncnets.asSszBytes S.defaultSyncnets)

theorem Local.sameConfiguration (hlocal : lib.Local key config enrForkId enr) :
    lib.SameConfiguration config enrForkId enr where
  ip4 octets haddress := by
    rw [hlocal.ip4, haddress]
    rfl
  tcp4 := hlocal.tcp4
  eth2 := hlocal.eth2
  udp4 port hport := hlocal.udp4.trans hport
  attnets := hlocal.attnets
  syncnets := hlocal.syncnets

/-- What is given is on file. -/
theorem eq_none_or_eq_iff {α : Type} (given onFile : Option α) :
    given = none ∨ given = onFile ↔ ∀ a, given = some a → onFile = some a := by
  cases given with
  | none => simp
  | some a => simp [eq_comm]

theorem bind_v4?_eq_some (address : Option IpAddr) (octets : UInt32) :
    address.bind IpAddr.v4? = some octets ↔ address = some (.v4 octets) := by
  rcases address with _ | (_ | _) <;> simp [IpAddr.v4?]

theorem compareEnr_iff (hlocal : lib.Local key config enrForkId localEnr) :
    lib.compareEnr localEnr diskEnr = true ↔ lib.SameConfiguration config enrForkId diskEnr := by
  unfold compareEnr
  simp only [Bool.and_eq_true, decide_eq_true_eq, eq_none_or_eq_iff, hlocal.ip4, hlocal.tcp4,
    hlocal.eth2, hlocal.udp4, hlocal.attnets, hlocal.syncnets, bind_v4?_eq_some]
  constructor
  · rintro ⟨⟨⟨⟨⟨hip4, htcp⟩, heth2⟩, hudp⟩, hattnets⟩, hsyncnets⟩
    exact ⟨hip4, htcp.symm, heth2.symm, hudp, hattnets.symm, hsyncnets.symm⟩
  · intro h
    exact ⟨⟨⟨⟨⟨h.ip4, h.tcp4.symm⟩, h.eth2.symm⟩, h.udp4⟩, h.attnets.symm⟩, h.syncnets.symm⟩

theorem checkedSucc_eq_some {n n' : UInt64} (h : checkedSucc n = some n') :
    n'.toNat = n.toNat + 1 := by
  unfold checkedSucc at h
  split at h
  · next hlt =>
    rw [← Option.some.inj h, UInt64.toNat_add]
    exact Nat.mod_eq_of_lt hlt
  · cases h

theorem nextSeq_ok (h : lib.enr.Lawful) (hlocal : lib.Local key config enrForkId localEnr)
    (hnext : lib.nextSeq key localEnr diskEnr = .ok enr) :
    lib.Local key config enrForkId enr ∧
      (lib.enr.seq enr).toNat = (lib.enr.seq diskEnr).toNat + 1 := by
  unfold nextSeq at hnext
  cases hsucc : checkedSucc (lib.enr.seq diskEnr) with
  | none =>
    rw [hsucc] at hnext
    cases hnext
  | some newSeqNo =>
    rw [hsucc] at hnext
    obtain ⟨hlocal', hseq⟩ := hlocal.setSeq h (mapError_eq_ok.1 hnext)
    exact ⟨hlocal', by rw [hseq, checkedSucc_eq_some hsucc]⟩

variable (lib) in
/-- The record on file is one of the node itself. -/
def OwnOnFile (localKey : lib.LibKey) (file : EnrFile) (diskEnr : lib.Record) : Prop :=
  lib.enrOnFile file = some diskEnr ∧ ∃ key, CombinedKey.fromLibp2p localKey = .ok key ∧
    lib.enr.nodeId diskEnr = lib.enr.publicNodeId key

variable {localKey : lib.LibKey} {file : EnrFile} {answer : Except IoError Unit}
  {written : Option String}

theorem OwnOnFile.nodeId_eq (hown : lib.OwnOnFile localKey file diskEnr)
    (hkey : CombinedKey.fromLibp2p localKey = .ok key) :
    lib.enr.nodeId diskEnr = lib.enr.publicNodeId key := by
  obtain ⟨-, key', hkey', hnode⟩ := hown
  rw [hkey] at hkey'
  rw [hnode, Except.ok.inj hkey']

theorem OwnOnFile.eq {diskEnr' : lib.Record} (hown : lib.OwnOnFile localKey file diskEnr)
    (hown' : lib.OwnOnFile localKey file diskEnr') : diskEnr = diskEnr' :=
  Option.some.inj (hown.1.symm.trans hown'.1)

variable (lib) in
/-- The two ways in which a record is chosen: the one on file is used, or a new one is saved, whose
sequence number is the next one if there is one on file. -/
inductive Chosen (localKey : lib.LibKey) (config : NetworkConfig)
    (enrForkId : lib.ssz.EnrForkId) (file : EnrFile) (answer : Except IoError Unit)
    (enr : lib.Record) (written : Option String) : Prop
  | onFile (own : lib.OwnOnFile localKey file enr)
      (same : lib.SameConfiguration config enrForkId enr) (kept : written = none)
  | new (key : lib.Key) (hkey : CombinedKey.fromLibp2p localKey = .ok key)
      (built : lib.Local key config enrForkId enr)
      (next : ∀ diskEnr, lib.OwnOnFile localKey file diskEnr →
        ¬ lib.SameConfiguration config enrForkId diskEnr ∧
          (lib.enr.seq enr).toNat = (lib.enr.seq diskEnr).toNat + 1)
      (saved : written = lib.saveEnrToDisk enr answer)

theorem useOrLoadEnr_chosen (h : lib.enr.Lawful)
    (hkey : CombinedKey.fromLibp2p localKey = .ok key)
    (hlocal : lib.Local key config enrForkId localEnr)
    (hchoose : lib.useOrLoadEnr key localEnr file answer = .ok (enr, written)) :
    lib.Chosen localKey config enrForkId file answer enr written := by
  unfold useOrLoadEnr at hchoose
  cases hfile : lib.enrOnFile file with
  | none =>
    rw [hfile] at hchoose
    cases hchoose
    refine .new key hkey hlocal (fun d hown => ?_) rfl
    rw [hown.1] at hfile
    cases hfile
  | some diskEnr =>
    rw [hfile] at hchoose
    dsimp only at hchoose
    split at hchoose
    · next hnode =>
      have hown : lib.OwnOnFile localKey file diskEnr :=
        ⟨hfile, key, hkey, hnode.symm.trans hlocal.nodeId⟩
      split at hchoose
      · next hcompare =>
        cases hchoose
        exact .onFile hown ((compareEnr_iff hlocal).1 hcompare) rfl
      · next hcompare =>
        obtain ⟨next, hnext, hchoose⟩ := map_eq_ok.1 hchoose
        cases hchoose
        obtain ⟨hlocal', hseq⟩ := nextSeq_ok h hlocal hnext
        refine .new key hkey hlocal' (fun d hown' => ?_) rfl
        rw [hown'.eq hown]
        exact ⟨fun hsame => hcompare ((compareEnr_iff hlocal).2 hsame), hseq⟩
    · next hnode =>
      cases hchoose
      refine .new key hkey hlocal (fun d hown => ?_) rfl
      have hd : d = diskEnr := Option.some.inj (hown.1.symm.trans hfile)
      rw [← hd, hown.nodeId_eq hkey] at hnode
      exact absurd hlocal.nodeId hnode

theorem buildOrLoadEnr_chosen (h : lib.enr.Lawful)
    (hok : lib.buildOrLoadEnr localKey config enrForkId file answer = .ok (enr, written)) :
    lib.Chosen localKey config enrForkId file answer enr written := by
  obtain ⟨key, hkey, hok⟩ := bind_eq_ok.1 hok
  obtain ⟨localEnr, hbuild, hok⟩ := bind_eq_ok.1 hok
  exact useOrLoadEnr_chosen h hkey (buildEnr_local h hbuild) hok

/-! ## What is advertised -/

variable (lib) in
/-- A record has what the configuration gives, and is no earlier one than the record on file. -/
structure Advertises (localKey : lib.LibKey) (config : NetworkConfig)
    (enrForkId : lib.ssz.EnrForkId) (file : EnrFile) (enr : lib.Record) : Prop where
  ip4 : ∀ octets, config.enrAddress = some (.v4 octets) → lib.enr.ip4 enr = some octets
  ip6 : ∀ octets, config.enrAddress = some (.v6 octets) → lib.enr.ip6 enr = some octets
  udp4 : ∀ port, config.enrUdpPort = some port → lib.enr.udp4 enr = some port
  tcp4 : lib.enr.tcp4 enr = some (config.enrTcpPort.getD config.libp2pPort)
  eth2 : lib.enr.get enr eth2EnrKey = some (lib.ssz.enrForkId.asSszBytes enrForkId)
  seq_le : ∀ diskEnr, lib.OwnOnFile localKey file diskEnr → lib.enr.seq diskEnr ≤ lib.enr.seq enr
  seq_eq : ∀ diskEnr, lib.OwnOnFile localKey file diskEnr → lib.enr.seq enr = lib.enr.seq diskEnr →
    enr = diskEnr

variable (lib) in
/-- The address of the configuration is an IPv6 one, and the record on file has another, while it
agrees with the rest of the configuration. -/
def StaleAddress (localKey : lib.LibKey) (config : NetworkConfig)
    (enrForkId : lib.ssz.EnrForkId) (file : EnrFile) : Prop :=
  ∃ octets diskEnr, config.enrAddress = some (.v6 octets) ∧ lib.OwnOnFile localKey file diskEnr ∧
    lib.SameConfiguration config enrForkId diskEnr ∧ lib.enr.ip6 diskEnr ≠ some octets

theorem Local.advertises (hlocal : lib.Local key config enrForkId enr)
    (hnext : ∀ diskEnr, lib.OwnOnFile localKey file diskEnr →
      (lib.enr.seq enr).toNat = (lib.enr.seq diskEnr).toNat + 1) :
    lib.Advertises localKey config enrForkId file enr where
  ip4 := hlocal.sameConfiguration.ip4
  ip6 octets haddress := by
    rw [hlocal.ip6, haddress]
    rfl
  udp4 := hlocal.sameConfiguration.udp4
  tcp4 := hlocal.tcp4
  eth2 := hlocal.eth2
  seq_le diskEnr hown := by
    rw [UInt64.le_iff_toNat_le, hnext diskEnr hown]
    omega
  seq_eq diskEnr hown heq := by
    have hseq := hnext diskEnr hown
    rw [heq] at hseq
    omega

/-- **The chosen record advertises the configuration** exactly if there is none on file that agrees
with it in all but an IPv6 address. -/
theorem buildOrLoadEnr_advertises_iff (h : lib.enr.Lawful)
    (hok : lib.buildOrLoadEnr localKey config enrForkId file answer = .ok (enr, written)) :
    lib.Advertises localKey config enrForkId file enr ↔
      ¬ lib.StaleAddress localKey config enrForkId file := by
  cases buildOrLoadEnr_chosen h hok with
  | onFile own same kept =>
    constructor
    · rintro hadvertises ⟨octets, diskEnr, haddress, hown, -, hstale⟩
      rw [hown.eq own] at hstale
      exact hstale (hadvertises.ip6 octets haddress)
    · intro hfresh
      exact {
        ip4 := same.ip4
        ip6 := fun octets haddress => by
          by_contra hstale
          exact hfresh ⟨octets, enr, haddress, own, same, hstale⟩
        udp4 := same.udp4
        tcp4 := same.tcp4
        eth2 := same.eth2
        seq_le := fun diskEnr hown => hown.eq own ▸ UInt64.le_refl _
        seq_eq := fun diskEnr hown _ => own.eq hown }
  | new key hkey built next saved =>
    refine iff_of_true (built.advertises fun diskEnr hown => (next diskEnr hown).2) ?_
    rintro ⟨octets, diskEnr, -, hown, hsame, -⟩
    exact (next diskEnr hown).1 hsame

/-! ## The fields of the chosen record -/

theorem Chosen.sameConfiguration
    (hchosen : lib.Chosen localKey config enrForkId file answer enr written) :
    lib.SameConfiguration config enrForkId enr := by
  cases hchosen with
  | onFile own same kept => exact same
  | new key hkey built next saved => exact built.sameConfiguration

theorem field_eq_ok {α : Type} {t : SszType α} {a : α} (ha : t.Inverts a) {k : String}
    (hget : lib.enr.get enr k = some (t.asSszBytes a)) (nonExistent undecodable : String) :
    lib.field enr k t nonExistent undecodable = .ok a := by
  unfold field
  rw [hget]
  dsimp only
  rw [ha]
  rfl

/-- The chosen record has the fork id, and it has no subnets even if it was on file. -/
theorem buildOrLoadEnr_fields (h : lib.enr.Lawful) (hfork : lib.ssz.enrForkId.Inverts enrForkId)
    (hattnets : lib.ssz.attnets.Inverts lib.bits.defaultAttnets)
    (hsyncnets : lib.ssz.syncnets.Inverts S.defaultSyncnets)
    (hok : lib.buildOrLoadEnr localKey config enrForkId file answer = .ok (enr, written)) :
    lib.eth2 enr = .ok enrForkId ∧ lib.attestationBitfield enr = .ok lib.bits.defaultAttnets ∧
      lib.syncCommitteeBitfield enr = .ok S.defaultSyncnets := by
  have hsame := (buildOrLoadEnr_chosen h hok).sameConfiguration
  exact ⟨field_eq_ok hfork hsame.eth2 _ _, field_eq_ok hattnets hsame.attnets _ _,
    field_eq_ok hsyncnets hsame.syncnets _ _⟩

/-! ## Later starts -/

theorem useOrLoadEnr_onFile (hlocal : lib.Local key config enrForkId localEnr)
    (hfile : lib.enrOnFile file = some diskEnr)
    (hnode : lib.enr.nodeId diskEnr = lib.enr.publicNodeId key)
    (hsame : lib.SameConfiguration config enrForkId diskEnr) (answer : Except IoError Unit) :
    lib.useOrLoadEnr key localEnr file answer = .ok (diskEnr, none) := by
  unfold useOrLoadEnr
  rw [hfile]
  dsimp only
  rw [if_pos (hlocal.nodeId.trans hnode.symm), if_pos ((compareEnr_iff hlocal).2 hsame)]

/-- **A record that was saved is used again**, with its sequence number, when the node is started
with the same configuration. -/
theorem buildOrLoadEnr_restart (h : lib.enr.Lawful)
    (hread : ∀ enr, lib.enr.fromStr (lib.enr.toBase64 enr) = .ok enr) {text : String}
    (hok : lib.buildOrLoadEnr localKey config enrForkId file answer = .ok (enr, some text))
    (answer' : Except IoError Unit) :
    lib.buildOrLoadEnr localKey config enrForkId (.ok (.ok text)) answer' = .ok (enr, none) := by
  cases buildOrLoadEnr_chosen h hok with
  | onFile own same kept => cases kept
  | new key hkey built next saved =>
    obtain ⟨key', hkey', hok⟩ := bind_eq_ok.1 hok
    obtain rfl : key = key' := Except.ok.inj (hkey.symm.trans hkey')
    obtain ⟨localEnr, hbuild, -⟩ := bind_eq_ok.1 hok
    have hfile : lib.enrOnFile (.ok (.ok text)) = some enr := by
      unfold saveEnrToDisk at saved
      split at saved
      · rw [Option.some.inj saved]
        exact congrArg Except.toOption (hread enr)
      · cases saved
    refine bind_eq_ok.2 ⟨key, hkey, bind_eq_ok.2 ⟨localEnr, hbuild, ?_⟩⟩
    exact useOrLoadEnr_onFile (buildEnr_local h hbuild) hfile built.nodeId
      built.sameConfiguration answer'

end EnrLib

/-! ## A concrete library -/

namespace PlainEnr

open Rpc.PlainWire

structure Record where
  nodeId : ℕ
  seq : UInt64
  ip4 : Option UInt32
  ip6 : Option (BitVec 128)
  udp4 : Option UInt16
  tcp4 : Option UInt16
  eth2 : Option Bytes
  attnets : Option Bytes
  syncnets : Option Bytes
  deriving DecidableEq

def secret : CombinedKey ℕ ℕ → ℕ
  | .secp256k1 secret => secret
  | .ed25519 secret => secret

/-- The id of a node is its secret. The texts of records are those that are listed. -/
def crate (texts : List (String × Record)) : EnrCrate where
  SigningKey := ℕ
  SecretKey := ℕ
  Enr := Record
  NodeId := ℕ
  nodeId := Record.nodeId
  seq := Record.seq
  ip4 := Record.ip4
  ip6 := Record.ip6
  udp4 := Record.udp4
  tcp4 := Record.tcp4
  get enr key :=
    if key = eth2EnrKey then enr.eth2
    else if key = attestationBitfieldEnrKey then enr.attnets
    else if key = syncCommitteeBitfieldEnrKey then enr.syncnets
    else none
  build builder key := .ok
    { nodeId := secret key
      seq := 1
      ip4 := builder.ip4
      ip6 := builder.ip6
      udp4 := builder.udpPort
      tcp4 := builder.tcpPort
      eth2 := builder.value eth2EnrKey
      attnets := builder.value attestationBitfieldEnrKey
      syncnets := builder.value syncCommitteeBitfieldEnrKey }
  setSeq enr seq key := .ok { enr with seq := seq, nodeId := secret key }
  fromStr text := (texts.lookup text).elim (.error "Invalid ENR") .ok
  toBase64 enr := ((texts.find? fun e => e.2 = enr).map (·.1)).getD "enr:"
  publicNodeId := secret

theorem crate_lawful (texts : List (String × Record)) : (crate texts).Lawful where
  build builder key enr _ hbuild := by
    cases hbuild
    refine ⟨⟨rfl, rfl, rfl, rfl, fun k hk => ?_⟩, rfl⟩
    simp only [eth2EnrKeys, List.mem_cons, List.not_mem_nil, or_false] at hk
    rcases hk with rfl | rfl | rfl <;> rfl
  setSeq enr seq key enr' hset := by
    cases hset
    exact ⟨rfl, rfl, rfl, rfl, rfl, fun _ => rfl, rfl⟩

def syncnets : SszType (Fin 16) where
  asSszBytes n := [.ofNat n]
  fromSszBytes
    | [b] => if h : b.toNat < 16 then .ok ⟨b.toNat, h⟩ else .error "ExcessBits"
    | _ => .error "InvalidByteLength"
  sszFixedLen := 1

def lib (texts : List (String × Record)) : EnrLib bitSpec where
  enr := crate texts
  ssz :=
    { EnrForkId := Bytes
      enrForkId := PlainGossip.bytes
      attnets := u64
      syncnets := syncnets }
  bits := bitfields

/-- The fork digest, the version and the epoch of the next fork. -/
def forkId : Bytes := [1, 1, 1, 1, 3, 0, 0, 0, 255, 255, 255, 255, 255, 255, 255, 255]

/-- What an earlier run saved for the node 3. -/
def saved : Record where
  nodeId := 3
  seq := 7
  ip4 := none
  ip6 := some 2
  udp4 := none
  tcp4 := some 9000
  eth2 := some forkId
  attnets := some [0, 0, 0, 0, 0, 0, 0, 0]
  syncnets := some [0]

def texts : List (String × Record) := [("enr:saved", saved)]

/-- A node that listens on a port of an IPv6 address. -/
def config (port : UInt16) (octets : BitVec 128) : NetworkConfig :=
  { libp2pPort := port, enrAddress := some (.v6 octets) }

end PlainEnr

namespace EnrLib

open PlainEnr Rpc.PlainWire

/-- The port is another than before, and so is the address. -/
theorem buildOrLoadEnr_advertises_port :
    (lib texts).Advertises (.secp256k1 (3 : ℕ)) (config 9001 1) forkId (.ok (.ok "enr:saved"))
      ({ saved with seq := 8, ip6 := some 1, tcp4 := some 9001 } : PlainEnr.Record) := by
  have hok : (lib texts).buildOrLoadEnr (.secp256k1 (3 : ℕ)) (config 9001 1) forkId
      (.ok (.ok "enr:saved")) (.ok ()) =
        .ok (({ saved with seq := 8, ip6 := some 1, tcp4 := some 9001 } : PlainEnr.Record),
          some "enr:") := by
    rfl
  refine (buildOrLoadEnr_advertises_iff (crate_lawful texts) hok).2 ?_
  rintro ⟨octets, diskEnr, -, ⟨hfile, -⟩, hsame, -⟩
  obtain rfl : saved = diskEnr := Option.some.inj hfile
  have hport := hsame.tcp4
  revert hport
  decide

/-- Only the address is another than before. -/
theorem buildOrLoadEnr_advertises_fails : (lib texts).enr.Lawful ∧
    ¬ ∀ (localKey : (lib texts).LibKey) (config : NetworkConfig)
        (enrForkId : (lib texts).ssz.EnrForkId) (file : EnrFile) (answer : Except IoError Unit)
        (enr : (lib texts).Record) (written : Option String),
      (lib texts).buildOrLoadEnr localKey config enrForkId file answer = .ok (enr, written) →
        (lib texts).Advertises localKey config enrForkId file enr := by
  refine ⟨crate_lawful texts, fun h => ?_⟩
  have hadvertises := h (.secp256k1 (3 : ℕ)) (config 9000 1) forkId (.ok (.ok "enr:saved"))
    (.ok ()) saved none rfl
  have haddress := hadvertises.ip6 1 rfl
  revert haddress
  decide

end EnrLib

end Consentry
