import Mathlib.Algebra.Order.Ring.Nat
import Mathlib.Data.Nat.Log

/-!
# The single-precision arithmetic of the peer limits

The limits of the peer manager are products of the target number of peers and a
constant, computed in `f32` and rounded up. All the values that occur are multiples of
`2^-27`, so a value is its number of such steps; every operation rounds to 24
significant bits, ties to even, and keeps the order (`F32.round24_mono`).
-/

namespace Consentry

/-- A nonnegative `f32`, in steps of `2^-27`. -/
structure F32 where
  steps : ℕ
  deriving DecidableEq, Repr

namespace F32

/-- Rounding to 24 significant bits, ties to even. -/
def round24 (x : ℕ) : ℕ :=
  let s := Nat.log2 x - 23
  let q := x / 2 ^ s
  let r := x % 2 ^ s
  if 2 * r < 2 ^ s ∨ (2 * r = 2 ^ s ∧ q % 2 = 0) then q * 2 ^ s else (q + 1) * 2 ^ s

/-- `n as f32`. -/
def ofNat (n : ℕ) : F32 := ⟨round24 (n * 2 ^ 27)⟩

def add (a b : F32) : F32 := ⟨round24 (a.steps + b.steps)⟩

/-- Every product of the source has a whole number as a factor, so the division is
exact. -/
def mul (a b : F32) : F32 := ⟨round24 (a.steps * b.steps / 2 ^ 27)⟩

/-- `x / 2.0`, for an even number of steps. -/
def half (a : F32) : F32 := ⟨a.steps / 2⟩

/-- `x.ceil() as usize`. -/
def ceil (a : F32) : ℕ := (a.steps + (2 ^ 27 - 1)) / 2 ^ 27

def one : F32 := ofNat 1

/-- The value nearest to 0.1. -/
def zeroPointOne : F32 := ⟨13421773⟩

/-- The value nearest to 0.2. -/
def zeroPointTwo : F32 := ⟨26843546⟩

/-- The value nearest to 0.3. -/
def zeroPointThree : F32 := ⟨40265320⟩

/-! ## Rounding keeps the order -/

theorem round24_of_lt {x : ℕ} (h : x < 2 ^ 24) : round24 x = x := by
  have hlog : Nat.log2 x - 23 = 0 := by
    rcases Nat.eq_zero_or_pos x with rfl | hpos
    · rfl
    · have hlt := (Nat.log2_lt hpos.ne').2 h
      omega
  unfold round24
  rw [hlog]
  simp [Nat.mod_one]

/-- Rounding goes to one of the two neighbours. -/
theorem round24_bounds (x : ℕ) :
    x / 2 ^ (Nat.log2 x - 23) * 2 ^ (Nat.log2 x - 23) ≤ round24 x ∧
      round24 x ≤ (x / 2 ^ (Nat.log2 x - 23) + 1) * 2 ^ (Nat.log2 x - 23) := by
  have hle : x / 2 ^ (Nat.log2 x - 23) * 2 ^ (Nat.log2 x - 23) ≤
      (x / 2 ^ (Nat.log2 x - 23) + 1) * 2 ^ (Nat.log2 x - 23) :=
    Nat.mul_le_mul_right _ (Nat.le_succ _)
  unfold round24
  dsimp only
  split
  · exact ⟨Nat.le_refl _, hle⟩
  · exact ⟨hle, Nat.le_refl _⟩

theorem round24_le_pow (x : ℕ) : round24 x ≤ 2 ^ (Nat.log2 x + 1) := by
  rcases Nat.lt_or_ge x (2 ^ 24) with hsmall | hlarge
  · rw [round24_of_lt hsmall]
    exact Nat.lt_log2_self.le
  · have hlog : 24 ≤ Nat.log2 x := (Nat.le_log2 (by omega)).2 hlarge
    have hsplit : 2 ^ (Nat.log2 x + 1) = 2 ^ (Nat.log2 x - 23) * 2 ^ 24 := by
      rw [← Nat.pow_add]
      congr 1
      omega
    have hq : x / 2 ^ (Nat.log2 x - 23) < 2 ^ 24 :=
      Nat.div_lt_of_lt_mul (hsplit ▸ Nat.lt_log2_self)
    refine (round24_bounds x).2.trans ?_
    rw [hsplit, Nat.mul_comm]
    exact Nat.mul_le_mul_left _ hq

theorem pow_le_round24 {x : ℕ} (hlarge : 2 ^ 24 ≤ x) : 2 ^ Nat.log2 x ≤ round24 x := by
  have hlog : 24 ≤ Nat.log2 x := (Nat.le_log2 (by omega)).2 hlarge
  have hsplit : 2 ^ Nat.log2 x = 2 ^ 23 * 2 ^ (Nat.log2 x - 23) := by
    rw [← Nat.pow_add]
    congr 1
    omega
  have hq : 2 ^ 23 ≤ x / 2 ^ (Nat.log2 x - 23) := by
    rw [Nat.le_div_iff_mul_le (Nat.two_pow_pos _), ← hsplit]
    exact Nat.log2_self_le (by omega)
  rw [hsplit]
  exact (Nat.mul_le_mul_right _ hq).trans (round24_bounds x).1

/-- Values of one magnitude are rounded in order. -/
theorem round24_mono_of_log2 {x y : ℕ} (h : x ≤ y) (hlog : Nat.log2 x = Nat.log2 y) :
    round24 x ≤ round24 y := by
  rcases Nat.lt_or_ge (x / 2 ^ (Nat.log2 x - 23)) (y / 2 ^ (Nat.log2 x - 23)) with hlt | hge
  · refine (round24_bounds x).2.trans (Nat.le_trans ?_ (round24_bounds y).1)
    rw [← hlog]
    exact Nat.mul_le_mul_right _ hlt
  · have hq : x / 2 ^ (Nat.log2 x - 23) = y / 2 ^ (Nat.log2 x - 23) :=
      Nat.le_antisymm (Nat.div_le_div_right h) hge
    have hr : x % 2 ^ (Nat.log2 x - 23) ≤ y % 2 ^ (Nat.log2 x - 23) := by
      have hx := Nat.div_add_mod x (2 ^ (Nat.log2 x - 23))
      have hy := Nat.div_add_mod y (2 ^ (Nat.log2 x - 23))
      rw [hq] at hx
      omega
    unfold round24
    dsimp only
    rw [← hlog, ← hq]
    generalize x % 2 ^ (Nat.log2 x - 23) = r at hr ⊢
    generalize y % 2 ^ (Nat.log2 x - 23) = r' at hr ⊢
    generalize x / 2 ^ (Nat.log2 x - 23) = q
    have hup : q * 2 ^ (Nat.log2 x - 23) ≤ (q + 1) * 2 ^ (Nat.log2 x - 23) :=
      Nat.mul_le_mul_right _ (Nat.le_succ q)
    split
    · split
      · exact Nat.le_refl _
      · exact hup
    · next hdown =>
      rw [if_neg]
      omega

theorem round24_mono {x y : ℕ} (h : x ≤ y) : round24 x ≤ round24 y := by
  rcases Nat.lt_or_ge y (2 ^ 24) with hsmall | hlarge
  · rw [round24_of_lt hsmall, round24_of_lt (Nat.lt_of_le_of_lt h hsmall)]
    exact h
  · rcases Nat.lt_or_ge (Nat.log2 x) (Nat.log2 y) with hlt | hge
    · exact (round24_le_pow x).trans
        ((Nat.pow_le_pow_right (by omega) hlt).trans (pow_le_round24 hlarge))
    · refine round24_mono_of_log2 h (Nat.le_antisymm ?_ hge)
      rcases Nat.eq_zero_or_pos x with rfl | hpos
      · exact Nat.zero_le _
      · exact (Nat.le_log2 (by omega)).2 ((Nat.log2_self_le hpos.ne').trans h)

/-! ## Exact products -/

theorem ceil_mono {a b : F32} (h : a.steps ≤ b.steps) : a.ceil ≤ b.ceil :=
  Nat.div_le_div_right (Nat.add_le_add_right h _)

theorem mul_le_mul_left (a : F32) {b c : F32} (h : b.steps ≤ c.steps) :
    (a.mul b).steps ≤ (a.mul c).steps :=
  round24_mono (Nat.div_le_div_right (Nat.mul_le_mul_left _ h))

end F32

end Consentry
