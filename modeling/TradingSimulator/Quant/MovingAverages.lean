import TradingSimulator.Quant.PredictorNoLookahead

/-!
# Moving averages

`_sma` of the backtester and of the return predictor take the difference of two slices of the
running sums of the prices, and write it behind the entries without a full window. The slices always
have the length of the space that is left, also for windows that are longer than the data, and the
result is the plain moving average (`sma_spec`).
-/

namespace TradingSimulator.ReturnPredictor

open Series

variable {K : Type} [Field K]

/-- The slices `c[w:]` and `c[:-w]` of the running sums are as long as what is left of the output
from `w - 1` on. -/
theorem length_slices {w : ℕ} (hw : 1 ≤ w) (x : List K) :
    ((cumsum (0 :: x)).drop w).length = x.length - (w - 1) ∧
      ((cumsum (0 :: x)).take ((cumsum (0 :: x)).length - w)).length = x.length - (w - 1) := by
  simp only [List.length_drop, List.length_take, length_cumsum, List.length_cons]
  omega

/-- An entry of the difference of the two slices is the sum of the window that starts there. -/
theorem getElem?_slices {w j : ℕ} (x : List K) (hj : j + w ≤ x.length) :
    (List.zipWith (fun upper lower => upper - lower) ((cumsum (0 :: x)).drop w)
      ((cumsum (0 :: x)).take ((cumsum (0 :: x)).length - w)))[j]? =
      some ((x.drop j).take w).sum := by
  have hupper : ((cumsum (0 :: x)).drop w)[j]? = some (x.take (j + w)).sum := by
    rw [List.getElem?_drop, Nat.add_comm w j]
    exact getElem?_cumsum_zero_cons hj
  have hlower : ((cumsum (0 :: x)).take ((cumsum (0 :: x)).length - w))[j]? =
      some (x.take j).sum := by
    rw [List.getElem?_take_of_lt (by rw [length_cumsum, List.length_cons]; omega)]
    exact getElem?_cumsum_zero_cons (by omega)
  -- the running sums up to the window telescope
  rw [List.getElem?_zipWith, hupper, hlower]
  exact congrArg some (sum_take_add_sub_sum_take x j w)

/-- The moving average from running sums is the plain one. -/
theorem sma_eq_windowMeans {w : ℕ} (hw : 1 ≤ w) (x : List K) :
    sma x w = .ok (windowMeans w x) := by
  obtain ⟨hupper, hlower⟩ := length_slices hw x
  rw [sma, elementwise_of_length_eq _ (hupper.trans hlower.symm)]
  show assignFrom _ _ _ = _
  rw [assignFrom_of_length_eq (by
    rw [List.length_map, List.length_zipWith, hupper, hlower, List.length_replicate,
      Nat.min_self]), List.take_replicate]
  congr 1
  apply List.ext_getElem?
  intro i
  by_cases hi : i < x.length
  · rw [getElem?_windowMeans hi]
    -- before the first full window, and from it on
    split_ifs with hbefore
    · rw [List.getElem?_append_left (by rw [List.length_replicate]; omega),
        List.getElem?_replicate, if_pos (by omega)]
    · have hstart : i - min (w - 1) x.length = i + 1 - w := by omega
      have hwidth : ((x.drop (i + 1 - w)).take w).length = w := by
        rw [List.length_take, List.length_drop]
        omega
      rw [List.getElem?_append_right (by rw [List.length_replicate]; omega),
        List.length_replicate, hstart, List.getElem?_map, getElem?_slices x (by omega),
        Option.map_some, mean, hwidth]
  · -- behind the last entry
    rw [List.getElem?_eq_none, List.getElem?_eq_none]
    · rw [length_windowMeans]
      exact not_lt.mp hi
    · rw [List.length_append, List.length_replicate, List.length_map, List.length_zipWith, hupper,
        hlower]
      omega

/-- Both moving averages are as long as the data, missing before the first full window, and from it
on the mean of the last `w` entries; no slice has another length than what it is combined with. -/
theorem sma_spec (x : List K) {w : ℕ} (hw : 1 ≤ w) :
    ((cumsum (0 :: x)).drop w).length =
        ((cumsum (0 :: x)).take ((cumsum (0 :: x)).length - w)).length ∧
      ((cumsum (0 :: x)).drop w).length = x.length - (w - 1) ∧
      ∃ out, Backtester.sma x w = .ok out ∧ sma x w = .ok out ∧ out.length = x.length ∧
        (∀ i < x.length, i < w - 1 → out[i]? = some none) ∧
        ∀ i < x.length, w - 1 ≤ i →
          out[i]? = some (some (mean ((x.drop (i + 1 - w)).take w))) := by
  obtain ⟨hupper, hlower⟩ := length_slices hw x
  refine ⟨hupper.trans hlower.symm, hupper, windowMeans w x, ?_, sma_eq_windowMeans hw x,
    length_windowMeans w x, ?_, ?_⟩
  · rw [← sma_eq hw, sma_eq_windowMeans hw]
  · intro i hi hbefore
    rw [getElem?_windowMeans hi, if_pos (by omega)]
  · intro i hi hfull
    rw [getElem?_windowMeans hi, if_neg (by omega)]

/-- Three prices and a window of two. -/
theorem sma_spec_threePrices :
    ((cumsum [(0 : ℚ), 3, 4, 8]).drop 2).length =
        ((cumsum [(0 : ℚ), 3, 4, 8]).take ((cumsum [(0 : ℚ), 3, 4, 8]).length - 2)).length ∧
      ((cumsum [(0 : ℚ), 3, 4, 8]).drop 2).length = 3 - (2 - 1) ∧
      ∃ out, Backtester.sma [(3 : ℚ), 4, 8] 2 = .ok out ∧ sma [(3 : ℚ), 4, 8] 2 = .ok out ∧
        out.length = 3 ∧ (∀ i < 3, i < 2 - 1 → out[i]? = some none) ∧
        ∀ i < 3, 2 - 1 ≤ i →
          out[i]? = some (some (mean (([(3 : ℚ), 4, 8].drop (i + 1 - 2)).take 2))) :=
  sma_spec [3, 4, 8] (by decide)

end TradingSimulator.ReturnPredictor
