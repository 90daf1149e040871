import Mathlib.Algebra.Order.Floor.Ring
import Mathlib.Data.Rat.Floor
import Mathlib.Tactic.Linarith

/-!
# Rounding

Rounding to the nearest multiple of a power of ten, halves to the even multiple, in exact
arithmetic. It is monotone (`roundTo_mono`), so that whatever is between two numbers is still
between them once all three are rounded, and it leaves a rounded number as it is
(`roundTo_roundTo`). Rounding towards zero is monotone as well (`truncate_mono`).
-/

namespace Rounding

variable {K : Type*} [Field K] [LinearOrder K] [FloorRing K]

/-- The nearest integer, the even one of two. -/
def roundEven (x : K) : ℤ :=
  if Int.fract x < 1 / ((2 : ℕ) : K) then ⌊x⌋
  else if 1 / ((2 : ℕ) : K) < Int.fract x then ⌊x⌋ + 1
  else ⌊x⌋ + ⌊x⌋ % 2

/-- The number with `d` decimals. -/
def roundTo (d : ℕ) (x : K) : K :=
  (roundEven (x * ((10 : ℕ) : K) ^ d) : K) / ((10 : ℕ) : K) ^ d

/-- The integer part, towards zero. -/
def truncate (x : K) : ℤ := if 0 ≤ x then ⌊x⌋ else ⌈x⌉

/-- Rounding towards zero is monotone, also across zero. -/
theorem truncate_mono {x y : K} (hle : x ≤ y) : truncate x ≤ truncate y := by
  unfold truncate
  split_ifs with hx hy hy
  · exact Int.floor_mono hle
  · exact absurd (hx.trans hle) hy
  · have hfloor : 0 ≤ ⌊y⌋ := Int.floor_nonneg.mpr hy
    have hceil : ⌈x⌉ ≤ 0 := Int.ceil_le.mpr (by simpa using (not_le.mp hx).le)
    omega
  · exact Int.ceil_mono hle

theorem floor_le_roundEven (x : K) : ⌊x⌋ ≤ roundEven x := by
  rw [roundEven]
  split_ifs <;> omega

theorem roundEven_le_floor (x : K) : roundEven x ≤ ⌊x⌋ + 1 := by
  rw [roundEven]
  split_ifs <;> omega

variable [IsStrictOrderedRing K]

/-- Either the two have the same integer part, or an integer is between them. -/
theorem roundEven_mono {x y : K} (h : x ≤ y) : roundEven x ≤ roundEven y := by
  rcases (Int.floor_le_floor h).lt_or_eq with hlt | heq
  · -- between the two there is an integer
    calc roundEven x ≤ ⌊x⌋ + 1 := roundEven_le_floor x
      _ ≤ ⌊y⌋ := hlt
      _ ≤ roundEven y := floor_le_roundEven y
  · have hfract : Int.fract x ≤ Int.fract y := by
      rw [← Int.self_sub_floor, ← Int.self_sub_floor, heq]
      exact sub_le_sub_right h _
    rw [roundEven, roundEven, heq]
    split_ifs
    any_goals omega
    all_goals
      exfalso
      linarith

@[simp]
theorem truncate_intCast (n : ℤ) : truncate (n : K) = n := by
  unfold truncate
  split_ifs
  · exact Int.floor_intCast n
  · exact Int.ceil_intCast n

@[simp]
theorem roundEven_intCast (n : ℤ) : roundEven (n : K) = n := by
  simp [roundEven]

theorem roundTo_mono (d : ℕ) {x y : K} (h : x ≤ y) : roundTo d x ≤ roundTo d y := by
  have hpow : (0 : K) ≤ ((10 : ℕ) : K) ^ d := by positivity
  have hround := roundEven_mono (mul_le_mul_of_nonneg_right h hpow)
  exact div_le_div_of_nonneg_right (Int.cast_le.mpr hround) hpow

/-- The nearest integer is at most a half away. -/
theorem abs_roundEven_sub_le (x : K) : |(roundEven x : K) - x| ≤ 1 / 2 := by
  have hfract : (⌊x⌋ : K) + Int.fract x = x := Int.floor_add_fract x
  have hnonneg := Int.fract_nonneg x
  have hlt := Int.fract_lt_one x
  rw [roundEven, abs_le]
  split_ifs with hbelow habove
  · push_cast at hbelow ⊢
    constructor <;> linarith
  · push_cast at habove ⊢
    constructor <;> linarith
  · -- halfway, both neighbours are as near
    have hhalf : Int.fract x = 1 / 2 := by
      push_cast at hbelow habove
      linarith
    rcases Int.emod_two_eq_zero_or_one ⌊x⌋ with heven | hodd
    · rw [heven]
      push_cast
      constructor <;> linarith
    · rw [hodd]
      push_cast
      constructor <;> linarith

/-- Rounding changes a number by at most half a unit of the last decimal. -/
theorem abs_roundTo_sub_le (d : ℕ) (x : K) : |roundTo d x - x| ≤ 1 / 2 / ((10 : ℕ) : K) ^ d := by
  have hpow : (0 : K) < ((10 : ℕ) : K) ^ d := by positivity
  have hscaled : roundTo d x - x =
      ((roundEven (x * ((10 : ℕ) : K) ^ d) : K) - x * ((10 : ℕ) : K) ^ d) / ((10 : ℕ) : K) ^ d := by
    rw [roundTo, sub_div, mul_div_cancel_right₀ _ hpow.ne']
  rw [hscaled, abs_div, abs_of_pos hpow]
  exact div_le_div_of_nonneg_right (abs_roundEven_sub_le _) hpow.le

/-- A number with the decimals already stays as it is. -/
theorem roundTo_eq_self {d : ℕ} {x : K} {n : ℤ} (h : x * ((10 : ℕ) : K) ^ d = n) :
    roundTo d x = x := by
  have hpow : ((10 : ℕ) : K) ^ d ≠ 0 := by positivity
  rw [roundTo, h, roundEven_intCast, ← h, mul_div_cancel_right₀ _ hpow]

theorem roundTo_intCast (d : ℕ) (n : ℤ) : roundTo d (n : K) = n := by
  refine roundTo_eq_self (n := n * 10 ^ d) ?_
  push_cast
  rfl

/-- An integer that is an upper bound stays one. -/
theorem roundTo_le {d : ℕ} {x : K} {n : ℤ} (h : x ≤ n) : roundTo d x ≤ n := by
  rw [← roundTo_intCast (K := K) d n]
  exact roundTo_mono d h

/-- So does one that is a lower bound. -/
theorem le_roundTo {d : ℕ} {x : K} {n : ℤ} (h : n ≤ x) : n ≤ roundTo d x := by
  rw [← roundTo_intCast (K := K) d n]
  exact roundTo_mono d h

theorem roundTo_nonneg {d : ℕ} {x : K} (h : 0 ≤ x) : 0 ≤ roundTo d x := by
  rw [← Int.cast_zero (R := K)] at h ⊢
  exact le_roundTo h

theorem roundTo_nonpos {d : ℕ} {x : K} (h : x ≤ 0) : roundTo d x ≤ 0 := by
  rw [← Int.cast_zero (R := K)] at h ⊢
  exact roundTo_le h

@[simp]
theorem roundTo_roundTo (d : ℕ) (x : K) : roundTo d (roundTo d x) = roundTo d x := by
  have hpow : ((10 : ℕ) : K) ^ d ≠ 0 := by positivity
  exact roundTo_eq_self (div_mul_cancel₀ _ hpow)

end Rounding
