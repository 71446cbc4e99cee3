import Mathlib.Data.List.Basic

/-!
# Text as lists of characters

The operations of `str` that parsers of names use: `trimStartMatches` and `parseUnsigned`; a text
starts with what is its prefix. **`parseUnsigned_repr`**: a number below the bound is read back from
its decimal digits. **`repr_eq_iff_isNumeral`**: of the texts of a number, these digits are the one
that is a numeral.
-/

namespace Consentry.Lib

namespace Text

section

variable {α : Type*} [DecidableEq α]

def trimRounds (pre : List α) : ℕ → List α → List α
  | 0, s => s
  | fuel + 1, s => if pre <+: s then trimRounds pre fuel (s.drop pre.length) else s

/-- `trim_start_matches`: the text without the repetitions of a prefix in front. -/
def trimStartMatches (pre s : List α) : List α := trimRounds pre s.length s

theorem trimRounds_of_not_prefix {pre s : List α} (h : ¬ pre <+: s) (fuel : ℕ) :
    trimRounds pre fuel s = s := by
  cases fuel with
  | zero => rfl
  | succ fuel => rw [trimRounds, if_neg h]

/-- A prefix that stands in front once is removed. -/
theorem trimStartMatches_append {pre s : List α} (hne : pre ≠ []) (h : ¬ pre <+: s) :
    trimStartMatches pre (pre ++ s) = s := by
  obtain ⟨fuel, hfuel⟩ : ∃ fuel, (pre ++ s).length = fuel + 1 := by
    cases pre with
    | nil => exact absurd rfl hne
    | cons a pre => exact ⟨(pre ++ s).length, rfl⟩
  rw [trimStartMatches, hfuel, trimRounds, if_pos (List.prefix_append pre s), List.drop_left,
    trimRounds_of_not_prefix h]

omit [DecidableEq α] in
/-- A text begins with no prefix whose first element it does not have. -/
theorem not_prefix_of_not_mem {a : α} {pre s : List α} (h : a ∉ s) : ¬ a :: pre <+: s := by
  intro hstarts
  exact h (hstarts.subset List.mem_cons_self)

end

/-! ## Numbers -/

/-- The value of a text of decimal digits, if it is below the bound. -/
def parseDigits (bound : ℕ) (s : List Char) : Option ℕ :=
  if s ≠ [] ∧ s.all Char.isDigit = true then
    let value := Nat.ofDigitChars 10 s 0
    if value < bound then some value else none
  else none

/-- `parse` for an unsigned type: decimal digits, which may follow a plus sign. -/
def parseUnsigned (bound : ℕ) : List Char → Option ℕ
  | '+' :: s => parseDigits bound s
  | s => parseDigits bound s

theorem isDigit_of_mem_repr {n : ℕ} {c : Char} (h : c ∈ n.repr.toList) : c.isDigit = true := by
  rw [Nat.toList_repr] at h
  exact Nat.isDigit_of_mem_toDigits (by decide) (by decide) h

theorem not_mem_repr {n : ℕ} {c : Char} (h : c.isDigit = false) : c ∉ n.repr.toList := by
  intro hmem
  rw [isDigit_of_mem_repr hmem] at h
  cases h

theorem parseDigits_repr {bound n : ℕ} (h : n < bound) :
    parseDigits bound n.repr.toList = some n := by
  have hdigits : n.repr.toList ≠ [] ∧ n.repr.toList.all Char.isDigit = true := by
    refine ⟨?_, List.all_eq_true.2 fun c hc => isDigit_of_mem_repr hc⟩
    rw [Nat.toList_repr]
    exact Nat.toDigits_ne_nil
  rw [parseDigits, if_pos hdigits, Nat.toList_repr, Nat.ofDigitChars_ten_toDigits]
  exact if_pos h

theorem lt_of_parseUnsigned {bound n : ℕ} {s : List Char} (h : parseUnsigned bound s = some n) :
    n < bound := by
  have hlt : ∀ digits : List Char, parseDigits bound digits = some n → n < bound := by
    intro digits hdigits
    unfold parseDigits at hdigits
    split at hdigits
    · dsimp only at hdigits
      split at hdigits
      · next hvalue => exact Option.some.inj hdigits ▸ hvalue
      · cases hdigits
    · cases hdigits
  unfold parseUnsigned at h
  split at h
  · exact hlt _ h
  · exact hlt _ h

/-- **A number is read back from its digits.** -/
theorem parseUnsigned_repr {bound n : ℕ} (h : n < bound) :
    parseUnsigned bound n.repr.toList = some n := by
  have hplus : '+' ∉ n.repr.toList := not_mem_repr (by decide)
  have hparse := parseDigits_repr h
  generalize n.repr.toList = s at hplus hparse ⊢
  unfold parseUnsigned
  split
  · exact absurd List.mem_cons_self hplus
  · exact hparse

/-! ### Numerals -/

/-- Decimal digits, of which the first is no zero unless it is the only one. -/
def IsNumeral (s : List Char) : Prop :=
  s ≠ [] ∧ s.all Char.isDigit = true ∧ (s.head? = some '0' → s = ['0'])

instance (s : List Char) : Decidable (IsNumeral s) :=
  inferInstanceAs (Decidable (_ ∧ _ ∧ (_ → _)))

theorem IsNumeral.not_mem {s : List Char} (h : IsNumeral s) {c : Char} (hc : c.isDigit = false) :
    c ∉ s := by
  intro hmem
  rw [List.all_eq_true.1 h.2.1 c hmem] at hc
  cases hc

theorem digitChar_of_isDigit {c : Char} (hc : c.isDigit = true) :
    c.toNat - '0'.toNat < 10 ∧ Nat.digitChar (c.toNat - '0'.toNat) = c := by
  rw [Char.isDigit_iff_toNat] at hc
  have hzero : '0'.toNat = 48 := rfl
  have hnine : '9'.toNat = 57 := rfl
  rw [hzero, hnine] at hc
  rw [hzero]
  have hlt : c.toNat - 48 < 10 := by omega
  refine ⟨hlt, Char.toNat_inj.1 ?_⟩
  rw [Nat.toNat_digitChar_of_lt_ten hlt]
  omega

/-- Digits behind those of a number are the digits of the number that both make. -/
theorem toDigits_ofDigitChars {n : ℕ} (hn : 0 < n) {s : List Char}
    (hs : s.all Char.isDigit = true) :
    Nat.toDigits 10 (Nat.ofDigitChars 10 s n) = Nat.toDigits 10 n ++ s := by
  induction s generalizing n with
  | nil => rw [Nat.ofDigitChars_nil, List.append_nil]
  | cons c s ih =>
    rw [List.all_cons, Bool.and_eq_true] at hs
    obtain ⟨hlt, hchar⟩ := digitChar_of_isDigit hs.1
    have hlast := Nat.toDigits_append_toDigits (by decide) hn hlt
    rw [Nat.toDigits_of_lt_base hlt, hchar] at hlast
    rw [Nat.ofDigitChars_cons, ih (by omega) hs.2, ← hlast, List.append_assoc]
    rfl

theorem head?_toDigits {n : ℕ} (hn : 0 < n) : (Nat.toDigits 10 n).head? ≠ some '0' := by
  induction n using Nat.strongRecOn with
  | ind n ih =>
    rw [Nat.toDigits_eq_if (by decide)]
    split
    · rw [List.head?_cons, ne_eq, Option.some_inj, Nat.digitChar_eq_zero]
      omega
    · have hquotient : 0 < n / 10 := by omega
      rw [List.head?_append_of_ne_nil _ Nat.toDigits_ne_nil]
      exact ih (n / 10) (by omega) hquotient

theorem isNumeral_repr (n : ℕ) : IsNumeral n.repr.toList := by
  have hdigits : n.repr.toList.all Char.isDigit = true :=
    List.all_eq_true.2 fun c hc => isDigit_of_mem_repr hc
  rw [Nat.toList_repr] at hdigits ⊢
  refine ⟨Nat.toDigits_ne_nil, hdigits, fun hzero => ?_⟩
  rcases Nat.eq_zero_or_pos n with rfl | hn
  · rfl
  · exact absurd hzero (head?_toDigits hn)

theorem IsNumeral.repr_ofDigitChars {s : List Char} (h : IsNumeral s) :
    (Nat.ofDigitChars 10 s 0).repr.toList = s := by
  obtain ⟨hne, hdigits, hzero⟩ := h
  rw [Nat.toList_repr]
  cases s with
  | nil => exact absurd rfl hne
  | cons c s =>
    rw [List.all_cons, Bool.and_eq_true] at hdigits
    obtain ⟨hlt, hchar⟩ := digitChar_of_isDigit hdigits.1
    rw [Nat.ofDigitChars_cons, Nat.mul_zero, Nat.zero_add]
    rcases Nat.eq_zero_or_pos (c.toNat - '0'.toNat) with hvalue | hvalue
    · rw [hvalue] at hchar
      subst hchar
      obtain rfl : s = [] := List.cons_inj_right _ |>.1 (hzero rfl)
      rfl
    · rw [toDigits_ofDigitChars hvalue hdigits.2, Nat.toDigits_of_lt_base hlt, hchar]
      rfl

/-- **A number is printed as it was read** exactly if the text is a numeral. -/
theorem repr_eq_iff_isNumeral {bound n : ℕ} {s : List Char}
    (h : parseUnsigned bound s = some n) : n.repr.toList = s ↔ IsNumeral s := by
  constructor
  · intro hrepr
    rw [← hrepr]
    exact isNumeral_repr n
  · intro hnumeral
    have hplus : '+' ∉ s := hnumeral.not_mem (by decide)
    have hdigits : parseDigits bound s = some n := by
      unfold parseUnsigned at h
      split at h
      · exact absurd List.mem_cons_self hplus
      · exact h
    unfold parseDigits at hdigits
    rw [if_pos ⟨hnumeral.1, hnumeral.2.1⟩] at hdigits
    dsimp only at hdigits
    split at hdigits
    · rw [← Option.some.inj hdigits]
      exact hnumeral.repr_ofDigitChars
    · cases hdigits

/-! ### Lower case -/

theorem toLower_eq_self_iff {c : Char} : c.toLower = c ↔ c.isUpper = false := by
  unfold Char.toLower Char.isUpper
  split
  · next h => simpa [UInt32.le_iff_toNat_le, Char.ext_iff] using h
  · next h => simpa using h

/-- A text is its own lower case if it has no upper case letter. -/
theorem map_toLower_eq_self_iff {s : List Char} :
    s.map Char.toLower = s ↔ ∀ c ∈ s, c.isUpper = false := by
  have hmap : s.map Char.toLower = s ↔ ∀ c ∈ s, c.toLower = c := by
    induction s with
    | nil => simp
    | cons c s ih => simp [ih]
  rw [hmap]
  exact forall₂_congr fun c _ => toLower_eq_self_iff

end Text

end Consentry.Lib
