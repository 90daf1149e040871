import TradingSimulator.Library.Series
import Mathlib.Algebra.Order.Ring.Defs
import Mathlib.Data.List.Forall2

/-!
# Compounding

The running products of positive factors: they stay positive, and none of them becomes smaller when
the factors grow.
-/

namespace Series

@[simp]
theorem length_scan {α β : Type*} (step : β → α → β) (start : β) (xs : List α) :
    (scan step start xs).length = xs.length := by
  simp [scan]

section Products

variable {K : Type*} [Semiring K] [PartialOrder K] [IsStrictOrderedRing K]

/-- Positive factors keep a positive value positive. -/
theorem scan_mul_pos {start : K} (hstart : 0 < start) {xs : List K} (hpos : ∀ x ∈ xs, 0 < x) :
    ∀ y ∈ scan (· * ·) start xs, 0 < y := by
  induction xs generalizing start with
  | nil => simp [scan]
  | cons x xs ih =>
    rw [List.forall_mem_cons] at hpos
    have hnext : 0 < start * x := mul_pos hstart hpos.1
    rw [scan_cons, List.forall_mem_cons]
    exact ⟨hnext, ih hnext hpos.2⟩

theorem cumprod_pos {xs : List K} (hpos : ∀ x ∈ xs, 0 < x) : ∀ y ∈ cumprod xs, 0 < y :=
  scan_mul_pos zero_lt_one hpos

/-- With smaller factors and a smaller start, all values are smaller. -/
theorem scan_mul_le {α : Type*} {f g : α → K} {a b : K} (ha : 0 < a) (hab : a ≤ b) {xs : List α}
    (hfg : ∀ x ∈ xs, 0 < f x ∧ f x ≤ g x) :
    List.Forall₂ (· ≤ ·) (scan (· * ·) a (xs.map f)) (scan (· * ·) b (xs.map g)) := by
  induction xs generalizing a b with
  | nil => exact List.Forall₂.nil
  | cons x xs ih =>
    obtain ⟨⟨hf, hle⟩, hrest⟩ := List.forall_mem_cons.mp hfg
    have hnext : a * f x ≤ b * g x := mul_le_mul hab hle hf.le (ha.le.trans hab)
    rw [List.map_cons, List.map_cons, scan_cons, scan_cons]
    exact List.Forall₂.cons hnext (ih (mul_pos ha hf) hnext hrest)

theorem cumprod_le_cumprod {α : Type*} {f g : α → K} {xs : List α}
    (hfg : ∀ x ∈ xs, 0 < f x ∧ f x ≤ g x) :
    List.Forall₂ (· ≤ ·) (cumprod (xs.map f)) (cumprod (xs.map g)) :=
  scan_mul_le zero_lt_one le_rfl hfg

end Products

end Series
