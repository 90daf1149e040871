import Mathlib.Algebra.Order.Field.Basic

/-!
# Numbers with the IEEE special values

An exact number field extended with the two infinities and NaN. The special values follow the
IEEE rules: NaN propagates through every arithmetic operation, the indeterminate forms
(`∞ - ∞`, `0 * ∞`, `∞ / ∞`, `0 / 0`) are NaN, and every comparison with NaN is false. Finite
results are exact, so overflow and the sign of zero are not represented.

Arithmetic and comparisons of finite values agree with those of the field (`fin_add_fin` and its
siblings); `not_lt_nan` and `not_nan_le` say that comparisons with NaN fail.
-/

/-- A finite value, an infinity (negative when the flag is set) or NaN. -/
inductive ExtNum (K : Type*) where
  | fin (q : K)
  | inf (negative : Bool)
  | nan
  deriving DecidableEq

namespace ExtNum

variable {K : Type*}

/-! ### Arithmetic -/

section Arithmetic

variable [Field K]

protected def add : ExtNum K → ExtNum K → ExtNum K
  | .fin p, .fin q => .fin (p + q)
  | .nan, _ => .nan
  | _, .nan => .nan
  | .inf s, .inf t => if s = t then .inf s else .nan
  | .inf s, .fin _ => .inf s
  | .fin _, .inf s => .inf s

protected def neg : ExtNum K → ExtNum K
  | .fin q => .fin (-q)
  | .inf s => .inf (!s)
  | .nan => .nan

instance : Zero (ExtNum K) := ⟨.fin 0⟩
instance : NatCast (ExtNum K) := ⟨fun n => .fin n⟩
instance : Add (ExtNum K) := ⟨ExtNum.add⟩
instance : Neg (ExtNum K) := ⟨ExtNum.neg⟩
instance : Sub (ExtNum K) := ⟨fun a b => a + -b⟩

theorem zero_eq : (0 : ExtNum K) = fin 0 := rfl

@[simp] theorem fin_add_fin (p q : K) : fin p + fin q = fin (p + q) := rfl

@[simp] theorem fin_sub_fin (p q : K) : fin p - fin q = fin (p - q) := by
  rw [sub_eq_add_neg]
  rfl

@[simp] theorem add_nan (a : ExtNum K) : a + nan = nan := by cases a <;> rfl

@[simp] theorem sub_nan (a : ExtNum K) : a - nan = nan := add_nan a

variable [LinearOrder K]

/-- The product of an infinity of sign `s` and the finite value `q`. -/
def infMul (s : Bool) (q : K) : ExtNum K :=
  if q = 0 then .nan else .inf (s ^^ decide (q < 0))

protected def mul : ExtNum K → ExtNum K → ExtNum K
  | .fin p, .fin q => .fin (p * q)
  | .nan, _ => .nan
  | _, .nan => .nan
  | .inf s, .inf t => .inf (s ^^ t)
  | .inf s, .fin q => infMul s q
  | .fin q, .inf s => infMul s q

protected def div : ExtNum K → ExtNum K → ExtNum K
  | .fin p, .fin q =>
      if q = 0 then (if p = 0 then .nan else .inf (decide (p < 0))) else .fin (p / q)
  | .nan, _ => .nan
  | _, .nan => .nan
  | .inf _, .inf _ => .nan
  | .inf s, .fin q => .inf (s ^^ decide (q < 0))
  | .fin _, .inf _ => .fin 0

instance : Mul (ExtNum K) := ⟨ExtNum.mul⟩
instance : Div (ExtNum K) := ⟨ExtNum.div⟩

@[simp] theorem fin_mul_fin (p q : K) : fin p * fin q = fin (p * q) := rfl

theorem fin_div_fin (p : K) {q : K} (hq : q ≠ 0) : fin p / fin q = fin (p / q) :=
  if_neg hq

@[simp] theorem mul_nan (a : ExtNum K) : a * nan = nan := by cases a <;> rfl

@[simp] theorem nan_mul (a : ExtNum K) : nan * a = nan := by cases a <;> rfl

/-- A positive finite value times an infinity is that infinity. -/
theorem fin_mul_inf {p : K} (hp : 0 < p) (s : Bool) : fin p * inf s = inf s := by
  have hmul : fin p * inf s = infMul s p := rfl
  rw [hmul, infMul, if_neg hp.ne', decide_eq_false hp.asymm, Bool.xor_false]

end Arithmetic

/-! ### Comparisons -/

section Comparisons

variable [LinearOrder K]

/-- Equality of values: NaN differs from everything, itself included. -/
protected def beq : ExtNum K → ExtNum K → Bool
  | .fin p, .fin q => decide (p = q)
  | .inf s, .inf t => s == t
  | _, _ => false

protected def ltb : ExtNum K → ExtNum K → Bool
  | .fin p, .fin q => decide (p < q)
  | .nan, _ => false
  | _, .nan => false
  | .inf s, .inf t => s && !t
  | .inf s, .fin _ => s
  | .fin _, .inf t => !t

protected def leb : ExtNum K → ExtNum K → Bool
  | .fin p, .fin q => decide (p ≤ q)
  | .nan, _ => false
  | _, .nan => false
  | .inf s, .inf t => s || !t
  | .inf s, .fin _ => s
  | .fin _, .inf t => !t

instance : BEq (ExtNum K) := ⟨ExtNum.beq⟩
instance : LT (ExtNum K) := ⟨fun a b => a.ltb b = true⟩
instance : LE (ExtNum K) := ⟨fun a b => a.leb b = true⟩
instance : DecidableLT (ExtNum K) := fun a b => inferInstanceAs (Decidable (a.ltb b = true))
instance : DecidableLE (ExtNum K) := fun a b => inferInstanceAs (Decidable (a.leb b = true))

@[simp] theorem fin_beq_fin (p q : K) : (fin p == fin q) = decide (p = q) := rfl

@[simp] theorem nan_beq (a : ExtNum K) : (nan == a) = false := by cases a <;> rfl

@[simp] theorem fin_lt_fin (p q : K) : fin p < fin q ↔ p < q := decide_eq_true_iff

@[simp] theorem fin_le_fin (p q : K) : fin p ≤ fin q ↔ p ≤ q := decide_eq_true_iff

/-- A finite value is below plus infinity only. -/
@[simp] theorem fin_lt_inf (q : K) (s : Bool) : fin q < inf s ↔ s = false := by
  cases s <;> simp [LT.lt, ExtNum.ltb]

/-- Minus infinity is at most every finite value and plus infinity at most none. -/
@[simp] theorem inf_le_fin (q : K) (s : Bool) : inf s ≤ fin q ↔ s = true := Iff.rfl

@[simp] theorem not_lt_nan (a : ExtNum K) : ¬ a < nan := by
  cases a <;> exact Bool.false_ne_true

@[simp] theorem not_nan_le (a : ExtNum K) : ¬ nan ≤ a := Bool.false_ne_true

end Comparisons

end ExtNum
