import Consentry.Lib.Fallible
import Consentry.Verify.Topics

/-!
# Topics that are printed as they were received

`decode` reads more topics than are printed: it looks at nothing before the first slash, takes hex
digits of either case, trims off the prefix of a subnet as often as it stands there, and parses a
number with a plus sign or zeros in front. **`display_iff_canonical`**: a topic that decodes is
printed as it was received exactly if it is canonical, that is if it has none of these, and no two
canonical topics decode alike.
-/

namespace Consentry

open Lib

/-- Digits of either case are read, those of lower case are written. -/
def Hex.LowerCase (hex : Hex) : Prop :=
  ∀ text bytes, hex.decode text = .ok bytes →
    (hex.encode bytes).toList = text.toList.map Char.toLower

/-! ## Names -/

def fixedTopics : List String :=
  [beaconBlockTopic, beaconAggregateAndProofTopic, signedContributionAndProofTopic,
    voluntaryExitTopic, proposerSlashingTopic, attesterSlashingTopic]

def subnetPrefixes : List String := [beaconAttestationPrefix, syncCommitteePrefixTopic]

/-- A fixed name, or the prefix of a subnet in front of a numeral. -/
def CanonicalName (name : List Char) : Prop :=
  (∃ fixed ∈ fixedTopics, name = fixed.toList) ∨
    ∃ pre ∈ subnetPrefixes, ∃ index, Text.IsNumeral index ∧ name = pre.toList ++ index

theorem canonicalName_topicName (kind : GossipKind) : CanonicalName kind.topicName.toList := by
  cases kind with
  | attestation index =>
    exact .inr ⟨_, List.mem_cons_self, _, Text.isNumeral_repr _, String.toList_append⟩
  | syncCommitteeMessage index =>
    exact .inr ⟨_, List.mem_cons_of_mem _ List.mem_cons_self, _, Text.isNumeral_repr _,
      String.toList_append⟩
  | _ => exact .inl ⟨_, by decide, rfl⟩

/-- A subnet that is read from a numeral is printed as that numeral. -/
theorem repr_ofNat_of_isNumeral {index : List Char} (hindex : Text.IsNumeral index) {n : ℕ}
    (hparse : Text.parseUnsigned (2 ^ 64) index = some n) :
    (UInt64.ofNat n).toNat.repr.toList = index := by
  have hlt : n < 2 ^ 64 := Text.lt_of_parseUnsigned hparse
  rw [UInt64.toNat_ofNat_of_lt' hlt]
  exact (Text.repr_eq_iff_isNumeral hparse).2 hindex

theorem CanonicalName.toList_topicName {name : List Char} (hname : CanonicalName name)
    {kind : GossipKind} (hkind : GossipKind.ofTopicName name = some kind) :
    kind.topicName.toList = name := by
  rcases hname with ⟨fixed, hfixed, rfl⟩ | ⟨pre, hpre, index, hindex, rfl⟩
  · have hread : ∀ fixed ∈ fixedTopics,
        (GossipKind.ofTopicName fixed.toList).map (·.topicName) = some fixed := by decide
    have hfixed := hread fixed hfixed
    rw [hkind] at hfixed
    exact congrArg String.toList (Option.some.inj hfixed)
  · rw [ofTopicName_of_isNumeral hindex] at hkind
    simp only [subnetPrefixes, List.mem_cons, List.not_mem_nil, or_false] at hpre
    rcases hpre with rfl | rfl
    · rw [committeeTopicIndex_attestation hindex, Option.map_map, Option.map_eq_some_iff] at hkind
      obtain ⟨n, hparse, rfl⟩ := hkind
      dsimp only [Function.comp_apply, GossipKind.ofSubnet, GossipKind.topicName]
      rw [String.toList_append, repr_ofNat_of_isNumeral hindex hparse]
    · rw [committeeTopicIndex_syncCommittee hindex, Option.map_map,
        Option.map_eq_some_iff] at hkind
      obtain ⟨n, hparse, rfl⟩ := hkind
      dsimp only [Function.comp_apply, GossipKind.ofSubnet, GossipKind.topicName]
      rw [String.toList_append, repr_ofNat_of_isNumeral hindex hparse]

/-- **The name of the kind that is read is the name**, exactly if this is canonical. -/
theorem toList_topicName_iff {name : List Char} {kind : GossipKind}
    (hkind : GossipKind.ofTopicName name = some kind) :
    kind.topicName.toList = name ↔ CanonicalName name := by
  constructor
  · intro hname
    rw [← hname]
    exact canonicalName_topicName kind
  · intro hname
    exact hname.toList_topicName hkind

/-! ## Topics -/

/-- Nothing stands before the first slash, no digit of the fork digest is upper case, and the name
is canonical. -/
def CanonicalTopic (topic : String) : Prop :=
  ∃ digest name, topic.toList.splitOn '/' =
      [[], topicPrefix.toList, digest, name, sszSnappyEncodingPostfix.toList] ∧
    (∀ c ∈ digest, c.isUpper = false) ∧ CanonicalName name

namespace GossipTopic

variable {hex : Hex} {s : String} {t : GossipTopic}

theorem forkDigestOf_ok {bytes : List UInt8} {digest : Vector UInt8 4}
    (h : forkDigestOf bytes = .ok digest) : digest.toList = bytes := by
  unfold forkDigestOf at h
  split at h
  · cases h
    rfl
  · cases h

/-- What a topic is decoded from. -/
theorem decode_ok (h : decode hex s = .ok t) :
    ∃ first digest name, s.toList.splitOn '/' =
        [first, topicPrefix.toList, digest, name, sszSnappyEncodingPostfix.toList] ∧
      hex.decode (.ofList digest) = .ok t.forkDigest.toList ∧
      GossipKind.ofTopicName name = some t.kind := by
  unfold decode at h
  split at h
  · next first pre digest name encoding hsplit =>
    split at h
    · next hpre =>
      obtain ⟨bytes, hbytes, h⟩ := bind_eq_ok.1 h
      obtain ⟨forkDigest, hdigest, h⟩ := bind_eq_ok.1 h
      split at h
      · next hencoding =>
        split at h
        · next kind hkind =>
          cases h
          subst hpre hencoding
          refine ⟨first, digest, name, hsplit, ?_, hkind⟩
          rw [mapError_eq_ok.1 hbytes, forkDigestOf_ok hdigest]
        · cases h
      · cases h
    · cases h
  · cases h

/-- A topic is the one that is printed if it has the same parts. -/
theorem display_eq_iff (h : hex.Lawful) :
    t.display hex = s ↔ t.parts hex = s.toList.splitOn '/' := by
  constructor
  · rintro rfl
    exact (splitOn_display h t).symm
  · intro hparts
    apply String.toList_injective
    rw [toList_display, hparts, List.intercalate_splitOn]

/-- A topic that decodes is printed as it was received exactly if it is canonical. -/
theorem display_eq_iff_canonical (h : hex.Lawful) (hcase : hex.LowerCase)
    (ht : decode hex s = .ok t) : t.display hex = s ↔ CanonicalTopic s := by
  obtain ⟨first, digest, name, hsplit, hdigest, hname⟩ := decode_ok ht
  have hencode : (hex.encode t.forkDigest.toList).toList = digest ↔
      ∀ c ∈ digest, c.isUpper = false := by
    rw [hcase _ _ hdigest, String.toList_ofList]
    exact Text.map_toLower_eq_self_iff
  have hpostfix : t.encoding.postfix = sszSnappyEncodingPostfix := by
    cases t.encoding
    rfl
  rw [display_eq_iff h, CanonicalTopic, hsplit, parts, hpostfix]
  simp only [List.cons.injEq, true_and, and_true, hencode, toList_topicName_iff hname]
  constructor
  · rintro ⟨rfl, hlower, hcanonical⟩
    exact ⟨digest, name, ⟨rfl, rfl, rfl⟩, hlower, hcanonical⟩
  · rintro ⟨digest', name', ⟨rfl, rfl, rfl⟩, hlower, hcanonical⟩
    exact ⟨rfl, hlower, hcanonical⟩

/-- **A topic is printed as it was received** exactly if it is canonical. Then a subscription is
recorded, and cached messages are retried, under the topic that the peer used; and topics that
decode alike are the same. -/
theorem display_iff_canonical (h : hex.Lawful) (hcase : hex.LowerCase) :
    (∀ s t, decode hex s = .ok t → (t.display hex = s ↔ CanonicalTopic s)) ∧
      ∀ s s' t, CanonicalTopic s → CanonicalTopic s' → decode hex s = .ok t →
        decode hex s' = .ok t → s = s' := by
  refine ⟨fun s t ht => display_eq_iff_canonical h hcase ht, ?_⟩
  intro s s' t hs hs' ht ht'
  rw [← (display_eq_iff_canonical h hcase ht).2 hs, (display_eq_iff_canonical h hcase ht').2 hs']

end GossipTopic

/-! ## Topics that are not -/

namespace PlainHex

theorem value_ofNat : ∀ k < 128, ∀ n ∈ value (.ofNat k),
    n < 16 ∧ Nat.digitChar n = (Char.ofNat k).toLower := by
  decide

theorem digitChar_of_value {c : Char} {n : ℕ} (h : value c = some n) :
    n < 16 ∧ Nat.digitChar n = c.toLower := by
  have hle : ∀ last : Char, last.toNat < 128 → c ≤ last → c.toNat < 128 := by
    intro last hlast hc
    exact (UInt32.le_iff_toNat_le.1 hc).trans_lt hlast
  have hlt : c.toNat < 128 := by
    unfold value at h
    split at h
    · next hdigit => exact (Char.isDigit_iff_toNat.1 hdigit).2.trans_lt (by decide)
    · split at h
      · next hlower => exact hle _ (by decide) hlower.2
      · split at h
        · next hupper => exact hle _ (by decide) hupper.2
        · cases h
  rw [← Char.ofNat_toNat c] at h ⊢
  exact value_ofNat _ hlt _ h

theorem flatMap_digits {text : List Char} {bytes : List UInt8}
    (h : decodeDigits text = .ok bytes) : bytes.flatMap digits = text.map Char.toLower := by
  induction text using decodeDigits.induct generalizing bytes with
  | case1 =>
    cases h
    rfl
  | case2 => cases h
  | case3 high low rest high' low' hlow hhigh ih =>
    obtain ⟨hhigh16, hhighChar⟩ := digitChar_of_value hhigh
    obtain ⟨hlow16, hlowChar⟩ := digitChar_of_value hlow
    rw [decodeDigits, hhigh, hlow] at h
    dsimp only at h
    cases hrest : decodeDigits rest with
    | error e =>
      rw [hrest] at h
      cases h
    | ok rest' =>
      rw [hrest] at h
      cases h
      have hlt : 16 * high' + low' < 256 := by omega
      have hbyte : (UInt8.ofNat (16 * high' + low')).toNat = 16 * high' + low' :=
        UInt8.toNat_ofNat_of_lt' hlt
      have hquotient : (16 * high' + low') / 16 = high' := by omega
      have hremainder : (16 * high' + low') % 16 = low' := by omega
      rw [List.flatMap_cons, ih hrest, digits, hbyte, hquotient, hremainder, hhighChar, hlowChar]
      rfl
  | case4 high low rest hnone =>
    rw [decodeDigits] at h
    split at h
    · next hhigh hlow => exact absurd hlow (hnone _ _ hhigh)
    · cases h

end PlainHex

theorem plainHex_lowerCase : plainHex.LowerCase := by
  intro text bytes h
  rw [plainHex, String.toList_ofList]
  exact PlainHex.flatMap_digits h

namespace GossipTopic

theorem display_iff_canonical_plainHex :
    (∀ s t, decode plainHex s = .ok t → (t.display plainHex = s ↔ CanonicalTopic s)) ∧
      ∀ s s' t, CanonicalTopic s → CanonicalTopic s' → decode plainHex s = .ok t →
        decode plainHex s' = .ok t → s = s' :=
  display_iff_canonical plainHex_lawful plainHex_lowerCase

/-- Something before the first slash, upper case digits, a prefix that is repeated, a plus sign and
zeros in front of the number: each is decoded as the topic of subnet 7. -/
example : ∀ s ∈ ["beacon/eth2/e1925f3b/beacon_attestation_7/ssz_snappy",
    "/eth2/E1925F3B/beacon_attestation_7/ssz_snappy",
    "/eth2/e1925f3b/beacon_attestation_beacon_attestation_7/ssz_snappy",
    "/eth2/e1925f3b/beacon_attestation_+7/ssz_snappy",
    "/eth2/e1925f3b/beacon_attestation_007/ssz_snappy"],
    decode plainHex s =
      .ok ⟨.sszSnappy, ⟨#[0xe1, 0x92, 0x5f, 0x3b], rfl⟩, .attestation 7⟩ := by
  decide +kernel

theorem display_eq_fails : plainHex.Lawful ∧ plainHex.LowerCase ∧
    (¬ ∀ s t, decode plainHex s = .ok t → t.display plainHex = s) ∧
    ¬ ∀ s s' t, decode plainHex s = .ok t → decode plainHex s' = .ok t → s = s' := by
  refine ⟨plainHex_lawful, plainHex_lowerCase, fun h => ?_, fun h => ?_⟩
  · have hprinted := h "/eth2/e1925f3b/beacon_attestation_007/ssz_snappy"
      ⟨.sszSnappy, ⟨#[0xe1, 0x92, 0x5f, 0x3b], rfl⟩, .attestation 7⟩ (by decide +kernel)
    revert hprinted
    decide +kernel
  · have hsame := h "/eth2/e1925f3b/beacon_attestation_007/ssz_snappy"
      "/eth2/e1925f3b/beacon_attestation_7/ssz_snappy"
      ⟨.sszSnappy, ⟨#[0xe1, 0x92, 0x5f, 0x3b], rfl⟩, .attestation 7⟩ (by decide +kernel)
      (by decide +kernel)
    revert hsame
    decide

end GossipTopic

end Consentry
