import Mathlib.Algebra.BigOperators.Group.List.Basic
import Mathlib.Algebra.Field.Defs

/-!
# Numeric series

One-dimensional numeric arrays as lists, with the array operations that numeric programs build
their loops from: running sums and products, differences, elementwise operations and assignments to
a slice. An operation on two slices whose lengths do not fit together fails, except that an array
of length one is repeated to the length of the other.
-/

namespace Series

/-- Why an array operation fails. -/
inductive ArrayError where
  /-- The index is past the end of the array. -/
  | index
  /-- The shapes of the operands do not fit together. -/
  | broadcast
  deriving DecidableEq

variable {α β γ : Type*}

/-- A computation in two parts succeeds when both parts do. -/
theorem exists_ok_of_bind.{u} {ε : Type*} {α β : Type u} {r : Except ε α} {f : α → Except ε β}
    {b : β}
    (h : r >>= f = .ok b) : ∃ a, r = .ok a ∧ f a = .ok b := by
  cases r with
  | error e => cases h
  | ok a => exact ⟨a, rfl, h⟩

/-- The states of a loop over the entries: entry `i` is the state after the step `i`. -/
def scan (step : β → α → β) (start : β) (xs : List α) : List β := (xs.scanl step start).tail

/-- The elementwise operation on two arrays. -/
def elementwise (op : α → β → γ) (xs : List α) (ys : List β) : Except ArrayError (List γ) :=
  if xs.length = ys.length then .ok (List.zipWith op xs ys)
  else
    match xs, ys with
    | [x], ys => .ok (ys.map (op x))
    | xs, [y] => .ok (xs.map fun x => op x y)
    | _, _ => .error .broadcast

/-- Arrays of the same length are combined entry by entry. -/
theorem elementwise_of_length_eq (op : α → β → γ) {xs : List α} {ys : List β}
    (h : xs.length = ys.length) : elementwise op xs ys = .ok (List.zipWith op xs ys) := by
  unfold elementwise
  rw [if_pos h]

/-- The array `out` after the assignment of `values` to its entries from `start` on. -/
def assignFrom (out : List α) (start : ℕ) (values : List α) : Except ArrayError (List α) :=
  if values.length = out.length - start then .ok (out.take start ++ values)
  else
    match values with
    | [value] => .ok (out.take start ++ List.replicate (out.length - start) value)
    | _ => .error .broadcast

/-- Values that fill the slice replace it. -/
theorem assignFrom_of_length_eq {out : List α} {start : ℕ} {values : List α}
    (h : values.length = out.length - start) :
    assignFrom out start values = .ok (out.take start ++ values) := by
  unfold assignFrom
  rw [if_pos h]

/-- The array moved to the right by `k` entries, with the last ones in front. -/
def roll (xs : List α) (k : ℕ) : List α :=
  xs.drop (xs.length - k % xs.length) ++ xs.take (xs.length - k % xs.length)

@[simp]
theorem length_roll (xs : List α) (k : ℕ) : (roll xs k).length = xs.length := by
  simp [roll]

/-- Behind the entries that have come from the end, a rolled array is the shifted one. -/
theorem getElem?_roll {xs : List α} {k j : ℕ} (hk : k < xs.length) (hj : k ≤ j)
    (hlt : j < xs.length) : (roll xs k)[j]? = xs[j - k]? := by
  rw [roll, Nat.mod_eq_of_lt hk, List.getElem?_append_right (by simp; omega), List.length_drop,
    List.getElem?_take_of_lt (by omega)]
  congr 1
  omega

theorem scan_cons (step : β → α → β) (start : β) (x : α) (xs : List α) :
    scan step start (x :: xs) = step start x :: scan step (step start x) xs := by
  cases xs <;> simp [scan]

/-- What holds before a loop and is kept by its body holds of every state of it. -/
theorem forall_mem_scan {P : β → Prop} {step : β → α → β} {start : β} (hstart : P start)
    (hstep : ∀ b x, P b → P (step b x)) (xs : List α) : ∀ b ∈ scan step start xs, P b := by
  induction xs generalizing start with
  | nil => simp [scan]
  | cons x xs ih =>
    rw [scan_cons, List.forall_mem_cons]
    exact ⟨hstep start x hstart, ih (hstep start x hstart)⟩

/-- A loop that appends one entry in each step collects as many entries as it has steps, and what
holds of every appended entry holds of all of them. -/
theorem foldl_append_spec {P : α → Prop} {f : β → α × β} (hf : ∀ b, P (f b).1) (steps : List γ)
    (acc : List α × β) (hacc : ∀ a ∈ acc.1, P a) :
    let result := steps.foldl (fun acc _ => (acc.1 ++ [(f acc.2).1], (f acc.2).2)) acc
    result.1.length = acc.1.length + steps.length ∧ ∀ a ∈ result.1, P a := by
  induction steps generalizing acc with
  | nil => exact ⟨rfl, hacc⟩
  | cons _ steps ih =>
    have hnew : ∀ a ∈ acc.1 ++ [(f acc.2).1], P a := by
      rw [List.forall_mem_append]
      exact ⟨hacc, List.forall_mem_singleton.2 (hf acc.2)⟩
    obtain ⟨hcount, hall⟩ := ih (acc.1 ++ [(f acc.2).1], (f acc.2).2) hnew
    refine ⟨hcount.trans ?_, hall⟩
    rw [List.length_append, List.length_singleton, List.length_cons]
    omega

section Sums

variable {K : Type*}

/-- The sums of the first entries. -/
def cumsum [Add K] [Zero K] (xs : List K) : List K := scan (· + ·) 0 xs

/-- The products of the first entries. -/
def cumprod [Mul K] [One K] (xs : List K) : List K := scan (· * ·) 1 xs

/-- The differences of consecutive entries. -/
def diff [Sub K] (xs : List K) : List K := List.zipWith (fun next prev => next - prev) xs.tail xs

/-- The last running product is the product of all entries. -/
theorem getElem?_cumprod_last [Monoid K] {xs : List K} (hne : xs ≠ []) :
    (cumprod xs)[xs.length - 1]? = some xs.prod := by
  obtain ⟨x, xs, rfl⟩ := List.exists_cons_of_ne_nil hne
  rw [List.length_cons, Nat.add_sub_cancel, cumprod, scan, List.getElem?_tail,
    List.getElem?_scanl, if_pos (by simp), List.take_of_length_le (by simp), List.prod_eq_foldl]

/-- An entry of the running sums is the sum up to it. -/
theorem getElem?_cumsum [AddMonoid K] {xs : List K} {k : ℕ} (hk : k < xs.length) :
    (cumsum xs)[k]? = some (xs.take (k + 1)).sum := by
  rw [cumsum, scan, List.getElem?_tail, List.getElem?_scanl, if_pos (by omega), List.sum_eq_foldl]

@[simp]
theorem length_cumsum [Add K] [Zero K] (xs : List K) : (cumsum xs).length = xs.length := by
  simp [cumsum, scan]

/-- With a zero in front, entry `k` of the running sums is the sum of the first `k` entries. -/
theorem getElem?_cumsum_zero_cons [AddMonoid K] {xs : List K} {k : ℕ} (hk : k ≤ xs.length) :
    (cumsum (0 :: xs))[k]? = some (xs.take k).sum := by
  rw [getElem?_cumsum (by rw [List.length_cons]; omega), List.take_succ_cons, List.sum_cons,
    zero_add]

/-- The sum of a window is a difference of two running sums. -/
theorem sum_take_add_sub_sum_take [AddCommGroup K] (xs : List K) (i w : ℕ) :
    (xs.take (i + w)).sum - (xs.take i).sum = ((xs.drop i).take w).sum := by
  rw [List.take_add, List.sum_append, add_sub_cancel_left]

variable [Field K]

/-- The arithmetic mean. -/
def mean (xs : List K) : K := xs.sum / xs.length

/-- The means of the last `w` entries, which are missing where there are not that many yet. -/
def windowMeans (w : ℕ) (xs : List K) : List (Option K) :=
  (List.range xs.length).map fun i =>
    if i + 1 < w then none else some (mean ((xs.drop (i + 1 - w)).take w))

@[simp]
theorem length_windowMeans (w : ℕ) (xs : List K) : (windowMeans w xs).length = xs.length := by
  rw [windowMeans, List.length_map, List.length_range]

theorem getElem?_windowMeans {w i : ℕ} {xs : List K} (hi : i < xs.length) :
    (windowMeans w xs)[i]? =
      some (if i + 1 < w then none else some (mean ((xs.drop (i + 1 - w)).take w))) := by
  rw [windowMeans, List.getElem?_map, List.getElem?_range hi, Option.map_some]

/-- The standard deviation of a population. -/
def std (sqrt : K → K) (xs : List K) : K := sqrt (mean (xs.map fun x => (x - mean xs) ^ 2))

end Sums

end Series
