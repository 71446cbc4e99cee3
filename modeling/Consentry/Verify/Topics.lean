import Mathlib.Logic.Function.Basic
import Consentry.Types.Topics

/-!
# Topics are read back

**`topics_round_trip`**: a topic is decoded from the string that is printed for it, so topics that
differ are printed differently, and the name of no kind with a subnet is that of one without.
-/

namespace Consentry

open Lib

/-- The `hex` library writes lower case digits, which it reads back. -/
structure Hex.Lawful (hex : Hex) : Prop where
  digits : ∀ bytes, ∀ c ∈ (hex.encode bytes).toList, c ∈ "0123456789abcdef".toList
  decode_encode : ∀ bytes, hex.decode (hex.encode bytes) = .ok bytes

theorem Hex.Lawful.slash_not_mem {hex : Hex} (h : hex.Lawful) (bytes : List UInt8) :
    '/' ∉ (hex.encode bytes).toList := by
  intro hmem
  have hdigit := h.digits bytes _ hmem
  revert hdigit
  decide

/-! ## Names -/

/-- A subnet prefix in front of a numeral is trimmed off, and no more. -/
theorem trimStartMatches_subnet {c : Char} {pre index : List Char} (hc : c.isDigit = false)
    (hindex : Text.IsNumeral index) :
    Text.trimStartMatches (c :: pre) (c :: pre ++ index) = index :=
  Text.trimStartMatches_append (List.cons_ne_nil _ _)
    (Text.not_prefix_of_not_mem (hindex.not_mem hc))

theorem committeeTopicIndex_attestation {index : List Char} (hindex : Text.IsNumeral index) :
    committeeTopicIndex (beaconAttestationPrefix.toList ++ index) =
      (Text.parseUnsigned (2 ^ 64) index).map .attestation := by
  unfold committeeTopicIndex
  rw [if_pos (List.prefix_append _ _)]
  have htrim : Text.trimStartMatches beaconAttestationPrefix.toList
      (beaconAttestationPrefix.toList ++ index) = index :=
    trimStartMatches_subnet (c := 'b') (by decide) hindex
  rw [htrim]

theorem committeeTopicIndex_syncCommittee {index : List Char} (hindex : Text.IsNumeral index) :
    committeeTopicIndex (syncCommitteePrefixTopic.toList ++ index) =
      (Text.parseUnsigned (2 ^ 64) index).map .syncCommittee := by
  unfold committeeTopicIndex
  have hother : ¬ beaconAttestationPrefix.toList <+:
      syncCommitteePrefixTopic.toList ++ index := by
    rintro ⟨rest, hrest⟩
    cases List.cons.inj hrest |>.1
  rw [if_neg hother, if_pos (List.prefix_append _ _)]
  have htrim : Text.trimStartMatches syncCommitteePrefixTopic.toList
      (syncCommitteePrefixTopic.toList ++ index) = index :=
    trimStartMatches_subnet (c := 's') (by decide) hindex
  rw [htrim]

/-- A name that ends in a numeral is none of the fixed ones. -/
theorem ofTopicName_of_isNumeral {index : List Char} (hindex : Text.IsNumeral index)
    (pre : List Char) :
    GossipKind.ofTopicName (pre ++ index) = (committeeTopicIndex (pre ++ index)).map .ofSubnet := by
  have hfixed : ∀ fixed : String, fixed.toList.all (fun c => !c.isDigit) = true →
      pre ++ index ≠ fixed.toList := by
    intro fixed hall heq
    obtain ⟨c, hc⟩ := List.exists_mem_of_ne_nil _ hindex.1
    have hnot := List.all_eq_true.1 hall c (heq ▸ List.mem_append_right _ hc)
    rw [List.all_eq_true.1 hindex.2.1 c hc] at hnot
    cases hnot
  unfold GossipKind.ofTopicName
  rw [if_neg (hfixed _ (by decide)), if_neg (hfixed _ (by decide)), if_neg (hfixed _ (by decide)),
    if_neg (hfixed _ (by decide)), if_neg (hfixed _ (by decide)), if_neg (hfixed _ (by decide))]

/-- **The name of a kind is read as the kind.** -/
theorem GossipKind.ofTopicName_topicName (kind : GossipKind) :
    ofTopicName kind.topicName.toList = some kind := by
  cases kind with
  | attestation index =>
    have hindex := Text.isNumeral_repr index.toNat
    rw [topicName, String.toList_append, ofTopicName_of_isNumeral hindex,
      committeeTopicIndex_attestation hindex, Text.parseUnsigned_repr index.toNat_lt]
    exact congrArg (some ∘ attestation) UInt64.ofNat_toNat
  | syncCommitteeMessage index =>
    have hindex := Text.isNumeral_repr index.toNat
    rw [topicName, String.toList_append, ofTopicName_of_isNumeral hindex,
      committeeTopicIndex_syncCommittee hindex, Text.parseUnsigned_repr index.toNat_lt]
    exact congrArg (some ∘ syncCommitteeMessage) UInt64.ofNat_toNat
  | _ => decide

theorem GossipKind.slash_not_mem (kind : GossipKind) : '/' ∉ kind.topicName.toList := by
  have hsubnet : ∀ (pre : String) (n : ℕ), '/' ∉ pre.toList → '/' ∉ (pre ++ n.repr).toList := by
    intro pre n hpre hmem
    rw [String.toList_append] at hmem
    rcases List.mem_append.1 hmem with hmem | hmem
    · exact hpre hmem
    · exact Text.not_mem_repr (by decide) hmem
  cases kind with
  | attestation index => exact hsubnet _ _ (by decide)
  | syncCommitteeMessage index => exact hsubnet _ _ (by decide)
  | _ => decide

/-! ## Topics -/

namespace GossipTopic

/-- The parts of a printed topic. -/
def parts (hex : Hex) (t : GossipTopic) : List (List Char) :=
  [[], topicPrefix.toList, (hex.encode t.forkDigest.toList).toList, t.kind.topicName.toList,
    t.encoding.postfix.toList]

theorem toList_display (hex : Hex) (t : GossipTopic) :
    (t.display hex).toList = ['/'].intercalate (t.parts hex) := by
  unfold display parts
  simp only [String.toList_append, List.intercalate, List.intersperse, List.flatten_cons,
    List.flatten_nil, List.append_nil, List.nil_append, List.append_assoc]
  rfl

/-- A printed topic has five parts. -/
theorem splitOn_display {hex : Hex} (h : hex.Lawful) (t : GossipTopic) :
    (t.display hex).toList.splitOn '/' = t.parts hex := by
  rw [toList_display]
  refine List.splitOn_intercalate '/' ?_ (List.cons_ne_nil _ _)
  intro part hpart
  unfold parts at hpart
  simp only [List.mem_cons, List.not_mem_nil, or_false] at hpart
  rcases hpart with rfl | rfl | rfl | rfl | rfl
  · exact List.not_mem_nil
  · decide
  · exact h.slash_not_mem _
  · exact t.kind.slash_not_mem
  · cases t.encoding
    decide

theorem forkDigestOf_toList (digest : Vector UInt8 4) :
    forkDigestOf digest.toList = .ok digest := by
  unfold forkDigestOf
  rw [dif_pos digest.length_toList]
  rfl

/-- **A topic is decoded from what is printed for it.** -/
theorem decode_display {hex : Hex} (h : hex.Lawful) (t : GossipTopic) :
    decode hex (t.display hex) = .ok t := by
  unfold decode
  rw [splitOn_display h]
  unfold parts
  dsimp only
  rw [if_pos rfl, String.ofList_toList, h.decode_encode, GossipKind.ofTopicName_topicName]
  dsimp only [Except.mapError, bind, Except.bind]
  rw [forkDigestOf_toList]
  obtain ⟨encoding, digest, kind⟩ := t
  cases encoding
  exact if_pos rfl

theorem display_injective {hex : Hex} (h : hex.Lawful) : Function.Injective (display hex) := by
  intro t t' heq
  have hdecode := decode_display h t
  rw [heq, decode_display h t'] at hdecode
  exact (Except.ok.inj hdecode).symm

/-- **Topics round-trip**: every topic is decoded from the string that is printed for it. So
different topics are printed differently, and no name with a subnet is one of those without. -/
theorem topics_round_trip {hex : Hex} (h : hex.Lawful) :
    (∀ t : GossipTopic, decode hex (t.display hex) = .ok t) ∧
      Function.Injective (display hex) ∧
      ∀ fixed subnet : GossipTopic, fixed.subnetId = none → subnet.subnetId ≠ none →
        fixed.kind.topicName ≠ subnet.kind.topicName := by
  refine ⟨decode_display h, display_injective h, fun fixed subnet hfixed hsubnet hname => ?_⟩
  have hkind : some fixed.kind = some subnet.kind := by
    rw [← GossipKind.ofTopicName_topicName fixed.kind, hname, GossipKind.ofTopicName_topicName]
  unfold subnetId at hfixed hsubnet
  rw [Option.some.inj hkind] at hfixed
  exact hsubnet hfixed

end GossipTopic

/-! ## A concrete library -/

namespace PlainHex

def digits (b : UInt8) : List Char := [Nat.digitChar (b.toNat / 16), Nat.digitChar (b.toNat % 16)]

/-- The value of a digit of either case. -/
def value (c : Char) : Option ℕ :=
  if c.isDigit then some (c.toNat - '0'.toNat)
  else if 'a' ≤ c ∧ c ≤ 'f' then some (c.toNat - 'a'.toNat + 10)
  else if 'A' ≤ c ∧ c ≤ 'F' then some (c.toNat - 'A'.toNat + 10)
  else none

def decodeDigits : List Char → Except String (List UInt8)
  | [] => .ok []
  | [_] => .error "Odd number of digits"
  | high :: low :: rest =>
    match value high, value low with
    | some high, some low => (decodeDigits rest).map (UInt8.ofNat (16 * high + low) :: ·)
    | _, _ => .error "Invalid character"

end PlainHex

/-- Two digits for each byte. -/
def plainHex : Hex where
  encode bytes := .ofList (bytes.flatMap PlainHex.digits)
  decode text := PlainHex.decodeDigits text.toList

namespace PlainHex

theorem digits_of_lt : ∀ n < 16, Nat.digitChar n ∈ "0123456789abcdef".toList ∧
    value (Nat.digitChar n) = some n := by
  decide

theorem decodeDigits_flatMap (bytes : List UInt8) :
    decodeDigits (bytes.flatMap digits) = .ok bytes := by
  induction bytes with
  | nil => rfl
  | cons b bytes ih =>
    have hb : b.toNat < 256 := b.toNat_lt
    rw [List.flatMap_cons, digits, List.cons_append, List.cons_append, List.nil_append,
      decodeDigits, (digits_of_lt _ (by omega)).2, (digits_of_lt _ (by omega)).2]
    dsimp only
    rw [ih, Nat.div_add_mod, UInt8.ofNat_toNat]
    rfl

end PlainHex

theorem plainHex_lawful : plainHex.Lawful where
  digits bytes c hc := by
    rw [plainHex, String.toList_ofList] at hc
    obtain ⟨b, -, hmem⟩ := List.mem_flatMap.1 hc
    have hb : b.toNat < 256 := b.toNat_lt
    simp only [PlainHex.digits, List.mem_cons, List.not_mem_nil, or_false] at hmem
    rcases hmem with rfl | rfl
    · exact (PlainHex.digits_of_lt _ (by omega)).1
    · exact (PlainHex.digits_of_lt _ (by omega)).1
  decode_encode bytes := by
    rw [plainHex]
    dsimp only
    rw [String.toList_ofList]
    exact PlainHex.decodeDigits_flatMap bytes

namespace GossipTopic

theorem topics_round_trip_plainHex :
    (∀ t : GossipTopic, decode plainHex (t.display plainHex) = .ok t) ∧
      Function.Injective (display plainHex) ∧
      ∀ fixed subnet : GossipTopic, fixed.subnetId = none → subnet.subnetId ≠ none →
        fixed.kind.topicName ≠ subnet.kind.topicName :=
  topics_round_trip plainHex_lawful

end GossipTopic

end Consentry
