import TradingSimulator.Library.Series
import Mathlib.Tactic.Common

/-!
# Causal computations on series

A computation on series looks ahead when an entry of its result depends on later entries of its
input. `Agree n k` relates two series of the length `n` whose first `k` entries are the same; a
computation that takes related series to related series, with the same `k`, does not look ahead.
The rules below follow the array operations, and say how each of them moves the bound `k`: an
operation that drops the first `m` entries lowers it, an assignment behind them raises it again.

`AgreeOk` is the relation between computations that may fail: both succeed, with related results.
-/

namespace Series

universe u

variable {α β γ : Type u}

/-- Two series of the length `n` that agree on their first `k` entries. -/
structure Agree (n k : ℕ) (xs ys : List α) : Prop where
  left : xs.length = n
  right : ys.length = n
  take_eq : xs.take k = ys.take k

/-- Two computations that succeed with series that agree. -/
def AgreeOk {ε : Type*} (n k : ℕ) (r₁ r₂ : Except ε (List α)) : Prop :=
  ∃ xs ys, r₁ = .ok xs ∧ r₂ = .ok ys ∧ Agree n k xs ys

namespace Agree

variable {n k m : ℕ} {xs ys : List α}

theorem refl (xs : List α) (k : ℕ) : Agree xs.length k xs xs := ⟨rfl, rfl, rfl⟩

/-- Series that agree on more entries agree on fewer. -/
theorem mono (h : Agree n k xs ys) (hm : m ≤ k) : Agree n m xs ys := by
  refine ⟨h.left, h.right, ?_⟩
  have htake := congrArg (List.take m) h.take_eq
  rwa [List.take_take, List.take_take, Nat.min_eq_left hm] at htake

/-- Agreement is equality of the entries below the bound. -/
theorem iff_getElem? : Agree n k xs ys ↔
    xs.length = n ∧ ys.length = n ∧ ∀ i < k, xs[i]? = ys[i]? := by
  constructor
  · rintro ⟨hxs, hys, htake⟩
    refine ⟨hxs, hys, fun i hi => ?_⟩
    have hentry := congrArg (·[i]?) htake
    simpa only [List.getElem?_take_of_lt hi] using hentry
  · rintro ⟨hxs, hys, hentries⟩
    refine ⟨hxs, hys, List.ext_getElem? fun i => ?_⟩
    by_cases hi : i < k
    · rw [List.getElem?_take_of_lt hi, List.getElem?_take_of_lt hi, hentries i hi]
    · rw [List.getElem?_take_eq_none (by omega), List.getElem?_take_eq_none (by omega)]

/-- A prefix within the agreement is the same. -/
theorem take_eq_of_le (h : Agree n k xs ys) (hm : m ≤ k) : xs.take m = ys.take m :=
  (h.mono hm).take_eq

theorem map (f : α → β) (h : Agree n k xs ys) : Agree n k (xs.map f) (ys.map f) :=
  ⟨by simp [h.left], by simp [h.right], by rw [← List.map_take, ← List.map_take, h.take_eq]⟩

theorem zipWith (f : α → β → γ) {us vs : List β} (h : Agree n k xs ys) (h' : Agree n k us vs) :
    Agree n k (List.zipWith f xs us) (List.zipWith f ys vs) := by
  refine ⟨by simp [h.left, h'.left], by simp [h.right, h'.right], ?_⟩
  rw [List.take_zipWith, List.take_zipWith, h.take_eq, h'.take_eq]

theorem zip {us vs : List β} (h : Agree n k xs ys) (h' : Agree n k us vs) :
    Agree n k (xs.zip us) (ys.zip vs) := h.zipWith Prod.mk h'

/-- Dropping entries lowers the bound by their number. -/
theorem drop (m : ℕ) (h : Agree n k xs ys) : Agree (n - m) (k - m) (xs.drop m) (ys.drop m) := by
  refine ⟨by simp [h.left], by simp [h.right], ?_⟩
  rw [← List.drop_take, ← List.drop_take, h.take_eq]

theorem take (m : ℕ) (h : Agree n k xs ys) : Agree (min m n) k (xs.take m) (ys.take m) := by
  refine ⟨by simp [h.left], by simp [h.right], ?_⟩
  rw [List.take_take, List.take_take, Nat.min_comm, ← List.take_take, ← List.take_take, h.take_eq]

/-- A common first entry raises the bound by one. -/
theorem cons (x : α) (h : Agree n k xs ys) : Agree (n + 1) (k + 1) (x :: xs) (x :: ys) :=
  ⟨by simp [h.left], by simp [h.right], by simp [h.take_eq]⟩

/-- Series that agree on their first entry start with it. -/
theorem exists_cons (h : Agree (n + 1) (k + 1) xs ys) :
    ∃ x us vs, xs = x :: us ∧ ys = x :: vs ∧ Agree n k us vs := by
  obtain ⟨x, us, rfl⟩ := List.exists_cons_of_length_eq_add_one h.left
  obtain ⟨y, vs, rfl⟩ := List.exists_cons_of_length_eq_add_one h.right
  obtain ⟨rfl, htake⟩ := List.cons.inj h.take_eq
  exact ⟨x, us, vs, rfl, rfl, by simpa using h.left, by simpa using h.right, htake⟩

/-- Entries behind a common prefix: the bound is raised by the length of the prefix. -/
theorem append_left (pre : List α) (h : Agree n k xs ys) :
    Agree (pre.length + n) (pre.length + k) (pre ++ xs) (pre ++ ys) := by
  refine ⟨by simp [h.left], by simp [h.right], ?_⟩
  rw [List.take_length_add_append, List.take_length_add_append, h.take_eq]

/-- Whatever stands behind a prefix, the bound is its length. -/
theorem append_of_length_eq (pre : List α) (hxs : xs.length = n) (hys : ys.length = n) :
    Agree (pre.length + n) pre.length (pre ++ xs) (pre ++ ys) :=
  ⟨by simp [hxs], by simp [hys], by simp⟩

/-- The states of a loop depend on the entries it has read. -/
theorem scanl (step : β → α → β) (start : β) (h : Agree n k xs ys) :
    Agree (n + 1) (k + 1) (xs.scanl step start) (ys.scanl step start) := by
  refine ⟨by simp [h.left], by simp [h.right], ?_⟩
  rw [List.take_scanl, List.take_scanl, h.take_eq]

theorem scan (step : β → α → β) (start : β) (h : Agree n k xs ys) :
    Agree n k (Series.scan step start xs) (Series.scan step start ys) := by
  have hscanl := (h.scanl step start).drop 1
  simpa only [Series.scan, List.drop_one, Nat.add_sub_cancel] using hscanl

/-- The differences of a series behind a common first entry. -/
theorem diff [Sub α] (x : α) (h : Agree n k xs ys) :
    Agree n k (Series.diff (x :: xs)) (Series.diff (x :: ys)) := by
  have hcons : (x :: xs).take k = (x :: ys).take k := (h.cons x).take_eq_of_le (Nat.le_succ k)
  refine ⟨by simp [Series.diff, h.left], by simp [Series.diff, h.right], ?_⟩
  simp only [Series.diff, List.tail_cons, List.take_zipWith, h.take_eq, hcons]

/-- Series computed index by index agree where the computations do. -/
theorem map_range {f g : ℕ → β} (h : ∀ i < k, f i = g i) :
    Agree n k ((List.range n).map f) ((List.range n).map g) := by
  rw [iff_getElem?]
  refine ⟨by simp, by simp, fun i hi => ?_⟩
  by_cases hn : i < n
  · simp [List.getElem?_range hn, h i hi]
  · simp [List.getElem?_eq_none (show (List.range n).length ≤ i by simpa using hn)]

/-- A window that ends within the agreement is the same. -/
theorem window_eq (h : Agree n k xs ys) {start width : ℕ} (hend : start + width ≤ k) :
    (xs.drop start).take width = (ys.drop start).take width := by
  rw [List.take_drop, List.take_drop, h.take_eq_of_le hend]

/-- A quantity of the window that slides along the series and ends at the current entry. -/
theorem slidingWindow (g : List α → β) {start width : ℕ} (hstart : width ≤ start + 1)
    (h : Agree n k xs ys) :
    Agree n k
      ((List.range xs.length).map fun i =>
        if i < start then none else some (g ((xs.drop (i + 1 - width)).take width)))
      ((List.range ys.length).map fun i =>
        if i < start then none else some (g ((ys.drop (i + 1 - width)).take width))) := by
  rw [h.left, h.right]
  refine map_range fun i hi => ?_
  by_cases hi' : i < start
  · rw [if_pos hi', if_pos hi']
  · rw [if_neg hi', if_neg hi', h.window_eq (by omega)]

end Agree

namespace AgreeOk

variable {ε : Type*} {n k m : ℕ}

theorem ok {xs ys : List α} (h : Agree n k xs ys) :
    AgreeOk n k (.ok xs : Except ε (List α)) (.ok ys) :=
  ⟨xs, ys, rfl, rfl, h⟩

/-- Computations one after the other. -/
theorem bind {r₁ r₂ : Except ε (List α)} {f g : List α → Except ε (List β)} {n' k' : ℕ}
    (h : AgreeOk n k r₁ r₂) (hfg : ∀ xs ys, Agree n k xs ys → AgreeOk n' k' (f xs) (g ys)) :
    AgreeOk n' k' (r₁ >>= f) (r₂ >>= g) := by
  obtain ⟨xs, ys, rfl, rfl, hagree⟩ := h
  exact hfg xs ys hagree

theorem mono {r₁ r₂ : Except ε (List α)} (h : AgreeOk n k r₁ r₂) (hm : m ≤ k) :
    AgreeOk n m r₁ r₂ := by
  obtain ⟨xs, ys, hxs, hys, hagree⟩ := h
  exact ⟨xs, ys, hxs, hys, hagree.mono hm⟩

/-- Operating entry by entry reads no later entry. -/
theorem elementwise (op : α → β → γ) {xs ys : List α} {us vs : List β} (h : Agree n k xs ys)
    (h' : Agree n k us vs) :
    AgreeOk n k (Series.elementwise op xs us) (Series.elementwise op ys vs) := by
  rw [elementwise_of_length_eq op (h.left.trans h'.left.symm),
    elementwise_of_length_eq op (h.right.trans h'.right.symm)]
  exact ok (h.zipWith op h')

/-- The entries from `lag` on against those `lag` entries earlier. -/
theorem elementwise_lag (op : α → α → β) {xs ys : List α} (h : Agree n k xs ys) (lag : ℕ) :
    AgreeOk (n - lag) (k - lag) (Series.elementwise op (xs.drop lag) (xs.take (n - lag)))
      (Series.elementwise op (ys.drop lag) (ys.take (n - lag))) := by
  have hpast := (h.take (n - lag)).mono (Nat.sub_le k lag)
  rw [Nat.min_eq_left (Nat.sub_le n lag)] at hpast
  exact elementwise op (h.drop lag) hpast

/-- Assigning to the entries from `start` on raises the bound by `start`. -/
theorem assignFrom {out : List α} (hout : out.length = n) (start : ℕ) {xs ys : List α}
    (h : Agree (n - start) k xs ys) :
    AgreeOk n (start + k) (Series.assignFrom out start xs) (Series.assignFrom out start ys) := by
  subst hout
  rw [assignFrom_of_length_eq h.left, assignFrom_of_length_eq h.right]
  refine ok ?_
  by_cases hstart : start ≤ out.length
  · have hpre : (out.take start).length = start := by simp [hstart]
    have happend := h.append_left (out.take start)
    rwa [hpre, Nat.add_sub_cancel' hstart] at happend
  · -- the slice is empty
    have hempty : out.length - start = 0 := by omega
    obtain rfl : xs = [] := List.eq_nil_of_length_eq_zero (h.left.trans hempty)
    obtain rfl : ys = [] := List.eq_nil_of_length_eq_zero (h.right.trans hempty)
    rw [List.append_nil, List.take_of_length_le (by omega)]
    exact Agree.refl out _

end AgreeOk

end Series
