import TradingSimulator.Library.Compounding
import TradingSimulator.Quant.TradeStatistics

/-!
# Bounds on the equity curve

`run_backtest` (`app/quant/backtester.py`) holds a position of zero or one and pays for every change
of it, so that its equity is compounded from one factor for every bar. As long as no bar loses more
than the cost of trading leaves, all factors are positive, and with them the equity; a higher cost
lowers the factors of the bars on which the position changes, and leaves the others alone.
-/

namespace TradingSimulator.Backtester

open Series

section Factors

variable {K : Type} [Field K] [LinearOrder K]

/-- The growth of the equity over a bar, from the position, its return and the position before. -/
def barFactor (cost : K) : K × K × K → K
  | (pos, ret, prev) => 1 + (pos * ret - cost * |pos - prev|)

/-- The positions with their returns and the positions before them. -/
def positionBars (pos ret : List K) : List (K × K × K) := pos.zip (ret.zip (0 :: pos))

/-- The growth of each bar is the factor of its position and its return. -/
theorem map_one_add_netReturns_eq (costBps : K) {pos ret : List K}
    (hlength : ret.length = pos.length) :
    (netReturns costBps pos ret).map (fun r => 1 + r) =
      (positionBars pos ret).map (barFactor (costBps / 10 ^ 4)) := by
  apply List.ext_getElem
  · simp [netReturns, positionBars, diff, hlength]
  · intro i hi hi'
    simp [netReturns, positionBars, diff, barFactor]

/-- The equity curve is compounded from the factors of the bars. -/
theorem equityCurve_eq (initial costBps : K) {pos ret : List K}
    (hlength : ret.length = pos.length) :
    equityCurve initial (netReturns costBps pos ret) =
      (cumprod ((positionBars pos ret).map (barFactor (costBps / 10 ^ 4)))).map
        fun growth => initial * growth := by
  rw [equityCurve, map_one_add_netReturns_eq costBps hlength]

omit [LinearOrder K] in
/-- What is zero or one for every position is so before it as well. -/
theorem of_mem_positionBars {pos ret : List K} (hpos : ∀ x ∈ pos, x = 0 ∨ x = 1) {p r prev : K}
    (hmem : (p, r, prev) ∈ positionBars pos ret) :
    (p = 0 ∨ p = 1) ∧ r ∈ ret ∧ (prev = 0 ∨ prev = 1) := by
  obtain ⟨hp, hmem⟩ := List.of_mem_zip hmem
  obtain ⟨hr, hprev⟩ := List.of_mem_zip hmem
  refine ⟨hpos p hp, hr, ?_⟩
  rcases List.mem_cons.mp hprev with hzero | hprev
  · exact Or.inl hzero
  · exact hpos prev hprev

omit [LinearOrder K] in
/-- There is a return for each price, the first of which is zero. -/
@[simp]
theorem length_barReturns {price : List K} (hne : price ≠ []) :
    (barReturns price).length = price.length := by
  have hn : 1 ≤ price.length := List.length_pos_iff.mpr hne
  simp only [barReturns, List.length_cons, List.length_map, List.length_zipWith, List.length_drop,
    List.length_take]
  omega

omit [LinearOrder K] in
/-- The return of a bar is zero or that of the price. -/
theorem of_mem_barReturns {price : List K} {r : K} (hr : r ∈ barReturns price) :
    r = 0 ∨ ∃ i, 1 ≤ i ∧ i < price.length ∧ r = barGrowth price i - 1 := by
  rcases List.mem_cons.mp hr with hzero | hr
  · exact Or.inl hzero
  · obtain ⟨ratio, hratio, rfl⟩ := List.mem_map.mp hr
    obtain ⟨i, hi, rfl⟩ := List.getElem_of_mem hratio
    simp only [List.length_zipWith, List.length_drop, List.length_take] at hi
    refine Or.inr ⟨i + 1, by omega, by omega, ?_⟩
    have hnow := List.getD_eq_getElem price 0 (show i + 1 < price.length by omega)
    have hpast := List.getD_eq_getElem price 0 (show i < price.length by omega)
    simp only [barGrowth, Nat.add_sub_cancel, hnow, hpast, List.getElem_zipWith,
      List.getElem_drop, List.getElem_take, Nat.add_comm 1 i]

variable [IsStrictOrderedRing K]

/-- A change of position moves by at most one. -/
theorem abs_sub_le_one {pos prev : K} (hpos : pos = 0 ∨ pos = 1) (hprev : prev = 0 ∨ prev = 1) :
    |pos - prev| ≤ 1 := by
  rcases hpos with rfl | rfl <;> rcases hprev with rfl | rfl <;> simp

/-- A bar that keeps more than the cost of trading keeps a part of the equity. -/
theorem barFactor_pos {cost pos ret prev : K} (hpos : pos = 0 ∨ pos = 1)
    (hprev : prev = 0 ∨ prev = 1) (hnonneg : 0 ≤ cost) (hlt : cost < 1) (hret : cost < 1 + ret) :
    0 < barFactor cost (pos, ret, prev) := by
  have hpaid : cost * |pos - prev| ≤ cost :=
    mul_le_of_le_one_right hnonneg (abs_sub_le_one hpos hprev)
  have hkept : cost < 1 + pos * ret := by
    rcases hpos with rfl | rfl
    · rwa [zero_mul, add_zero]
    · rwa [one_mul]
  unfold barFactor
  linarith

/-- A higher cost lowers the factor of a bar. -/
theorem barFactor_antitone {cost₁ cost₂ : K} (hle : cost₁ ≤ cost₂) (bar : K × K × K) :
    barFactor cost₂ bar ≤ barFactor cost₁ bar := by
  obtain ⟨pos, ret, prev⟩ := bar
  have hpaid : cost₁ * |pos - prev| ≤ cost₂ * |pos - prev| :=
    mul_le_mul_of_nonneg_right hle (abs_nonneg _)
  unfold barFactor
  linarith

/-- So does every bar of a price series on which it holds. -/
theorem barFactor_pos_of_mem {cost : K} {price pos : List K} (hpos : ∀ x ∈ pos, x = 0 ∨ x = 1)
    (hnonneg : 0 ≤ cost) (hlt : cost < 1)
    (hratio : ∀ i, 1 ≤ i → i < price.length → cost < barGrowth price i) :
    ∀ bar ∈ positionBars pos (barReturns price), 0 < barFactor cost bar := by
  rintro ⟨x, r, prev⟩ hbar
  obtain ⟨hx, hr, hprev⟩ := of_mem_positionBars hpos hbar
  have hkept : cost < 1 + r := by
    rcases of_mem_barReturns hr with rfl | ⟨i, hone, hi, rfl⟩
    · -- the first bar has no return
      rwa [add_zero]
    · rw [add_sub_cancel]
      exact hratio i hone hi
  exact barFactor_pos hx hprev hnonneg hlt hkept

/-- An account that never trades pays nothing. -/
theorem map_barFactor_of_flat {pos : List K} (hflat : ∀ x ∈ pos, x = 0) (cost₁ cost₂ : K)
    (ret : List K) :
    (positionBars pos ret).map (barFactor cost₁) =
      (positionBars pos ret).map (barFactor cost₂) := by
  refine List.map_congr_left ?_
  rintro ⟨x, r, prev⟩ hbar
  obtain ⟨hx, hbar⟩ := List.of_mem_zip hbar
  have hprev : prev = 0 := by
    rcases List.mem_cons.mp (List.of_mem_zip hbar).2 with hprev | hprev
    · exact hprev
    · exact hflat prev hprev
  simp [barFactor, hflat x hx, hprev]

/-- An amount that is compounded from positive factors stays positive. -/
theorem compounded_pos {initial : K} (hinitial : 0 < initial) {factors : List K}
    (hpos : ∀ x ∈ factors, 0 < x) :
    ∀ e ∈ (cumprod factors).map fun growth => initial * growth, 0 < e := by
  intro e he
  obtain ⟨growth, hgrowth, rfl⟩ := List.mem_map.mp he
  exact mul_pos hinitial (cumprod_pos hpos growth hgrowth)

end Factors

/-! ### The curves of a run -/

section Curves

variable {K : Type} [Field K] [LinearOrder K]

/-- With admitted parameters a run has its curves. -/
theorem exists_curves (sqrt : K → K) (strategy : Strategy) {p : Params K} (hp : p.Admitted)
    {price : List K} (hbars : 150 ≤ price.length) :
    ∃ pos : List K, pos.length = price.length ∧ (∀ x ∈ pos, x = 0 ∨ x = 1) ∧ pos.head? = some 0 ∧
      ∀ costBps initial, ∃ c, curves sqrt strategy p costBps initial price = .ok c ∧ c.pos = pos ∧
        c.ret = barReturns price ∧ c.net = netReturns costBps pos (barReturns price) ∧
        c.equity = equityCurve initial (netReturns costBps pos (barReturns price)) := by
  obtain ⟨rawSig, hsignal, hlength⟩ := exists_signal sqrt strategy hp hbars
  have hne : price ≠ [] := List.length_pos_iff.mp (by omega)
  refine ⟨0 :: rawSig.take (price.length - 1), ?_, ?_, rfl, fun costBps initial =>
    ⟨_, curves_of_signal sqrt costBps initial hsignal hlength hne, rfl, rfl, rfl, rfl⟩⟩
  · simp only [List.length_cons, List.length_take]
    omega
  · rw [List.forall_mem_cons]
    exact ⟨Or.inl rfl, fun x hx => signal_binary hsignal x (List.mem_of_mem_take hx)⟩

omit [Field K] [LinearOrder K] in
/-- A position that never changes is the one from the start. -/
theorem eq_of_constant {pos : List K} {x : K} (hhead : pos.head? = some x)
    (hconst : ∀ i, i + 1 < pos.length → pos[i + 1]? = pos[i]?) : ∀ y ∈ pos, y = x := by
  have hentry : ∀ i, i < pos.length → pos[i]? = some x := by
    intro i hi
    induction i with
    | zero => rw [← List.head?_eq_getElem?, hhead]
    | succ i ih => rw [hconst i hi, ih (by omega)]
  intro y hy
  obtain ⟨i, hi, rfl⟩ := List.getElem_of_mem hy
  exact Option.some.inj ((List.getElem?_eq_getElem hi).symm.trans (hentry i hi))

variable [IsStrictOrderedRing K]

/-- For every strategy and all admitted parameters, the position is zero or one on every bar. When
every bar keeps more than the cost of trading, the equity stays positive; at a lower cost it is
nowhere smaller, and the same when the position never changes. -/
theorem equity_pos_and_antitone (sqrt : K → K) (strategy : Strategy) (p : Params K)
    (hp : p.Admitted) (initial : K) (hinitial : 0 < initial) (price : PriceSeries K) (n : ℕ)
    (hn : price.prices.length = n) (hbars : 150 ≤ n) (costLow costHigh : K) (hnonneg : 0 ≤ costLow)
    (hle : costLow ≤ costHigh) (hmax : costHigh ≤ 100)
    (hratio : ∀ i, 1 ≤ i → i < n → costHigh / 10 ^ 4 < barGrowth price.prices i) :
    ∃ low high, curves sqrt strategy p costLow initial price.prices = .ok low ∧
      curves sqrt strategy p costHigh initial price.prices = .ok high ∧
      high.pos = low.pos ∧ high.pos.length = n ∧ (∀ x ∈ high.pos, x = 0 ∨ x = 1) ∧
      low.equity.length = n ∧ (∀ e ∈ low.equity, 0 < e) ∧ (∀ e ∈ high.equity, 0 < e) ∧
      List.Forall₂ (· ≤ ·) high.equity low.equity ∧
      ((∀ i, i + 1 < n → high.pos[i + 1]? = high.pos[i]?) → high.equity = low.equity) := by
  subst hn
  obtain ⟨pos, hlength, hbinary, hhead, hcurves⟩ := exists_curves sqrt strategy hp hbars
  obtain ⟨low, hlow, hlowPos, -, -, hlowEquity⟩ := hcurves costLow initial
  obtain ⟨high, hhigh, hhighPos, -, -, hhighEquity⟩ := hcurves costHigh initial
  have hne : price.prices ≠ [] := List.length_pos_iff.mp (by omega)
  have hreturns : (barReturns price.prices).length = pos.length :=
    (length_barReturns hne).trans hlength.symm
  rw [equityCurve_eq initial _ hreturns] at hlowEquity hhighEquity
  set bars := positionBars pos (barReturns price.prices) with hbarsdef
  have hcostLt : costHigh / 10 ^ 4 < 1 := by
    rw [div_lt_one (by positivity)]
    exact hmax.trans_lt (by norm_num)
  have hcostLe : costLow / 10 ^ 4 ≤ costHigh / 10 ^ 4 := by gcongr
  have hcostNonneg : 0 ≤ costLow / 10 ^ 4 := by positivity
  -- every bar multiplies the equity by a positive factor, and by a smaller one at a higher cost
  have hhighFactor : ∀ bar ∈ bars, 0 < barFactor (costHigh / 10 ^ 4) bar :=
    barFactor_pos_of_mem hbinary (hcostNonneg.trans hcostLe) hcostLt hratio
  have hfactor : ∀ bar ∈ bars, 0 < barFactor (costHigh / 10 ^ 4) bar ∧
      barFactor (costHigh / 10 ^ 4) bar ≤ barFactor (costLow / 10 ^ 4) bar :=
    fun bar hbar => ⟨hhighFactor bar hbar, barFactor_antitone hcostLe bar⟩
  have hlowFactor : ∀ bar ∈ bars, 0 < barFactor (costLow / 10 ^ 4) bar :=
    fun bar hbar => (hfactor bar hbar).1.trans_le (hfactor bar hbar).2
  refine ⟨low, high, hlow, hhigh, hhighPos.trans hlowPos.symm, hhighPos ▸ hlength,
    hhighPos ▸ hbinary, ?_, ?_, ?_, ?_, ?_⟩
  · simp [hlowEquity, cumprod, hbarsdef, positionBars, hlength, hreturns]
  · rw [hlowEquity]
    exact compounded_pos hinitial (List.forall_mem_map.mpr hlowFactor)
  · rw [hhighEquity]
    exact compounded_pos hinitial (List.forall_mem_map.mpr hhighFactor)
  · rw [hlowEquity, hhighEquity, List.forall₂_map_left_iff, List.forall₂_map_right_iff]
    exact (cumprod_le_cumprod hfactor).imp fun a b hab => mul_le_mul_of_nonneg_left hab hinitial.le
  · intro hconst
    rw [hhighPos] at hconst
    -- the position starts flat, so that one that never changes pays no costs
    have hflat : ∀ x ∈ pos, x = 0 := eq_of_constant hhead fun i hi => hconst i (hlength ▸ hi)
    rw [hlowEquity, hhighEquity, map_barFactor_of_flat hflat]

/-- At five basis points and at a hundred, over a position that is entered and left. -/
theorem equity_pos_and_antitone_twoRises :
    ∃ low high, curves id .sma ⟨20, 50, 14, 30, 55⟩ 5 100000 twoRises.prices = .ok low ∧
      curves id .sma ⟨20, 50, 14, 30, 55⟩ 100 100000 twoRises.prices = .ok high ∧
      high.pos = low.pos ∧ high.pos.length = 150 ∧ (∀ x ∈ high.pos, x = 0 ∨ x = 1) ∧
      low.equity.length = 150 ∧ (∀ e ∈ low.equity, 0 < e) ∧ (∀ e ∈ high.equity, 0 < e) ∧
      List.Forall₂ (· ≤ ·) high.equity low.equity ∧
      ((∀ i, i + 1 < 150 → high.pos[i + 1]? = high.pos[i]?) → high.equity = low.equity) := by
  have hrises : ∀ i < 150, 1 ≤ i → (100 : ℚ) / 10 ^ 4 < barGrowth twoRises.prices i := by
    decide +kernel
  exact equity_pos_and_antitone id .sma _ admitted_default 100000 (by norm_num) twoRises 150 rfl
    le_rfl 5 100 (by norm_num) (by norm_num) le_rfl fun i hone hi => hrises i hi hone

end Curves

end TradingSimulator.Backtester
