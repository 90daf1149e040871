import TradingSimulator.Quant.NoLookahead
import Mathlib.Data.List.GetD
import Mathlib.Tactic.FieldSimp
import Mathlib.Tactic.LinearCombination

/-!
# Trade statistics and the equity curve

Win rate, trade count and profit factor of `run_backtest` (`app/quant/backtester.py`) come from a
loop of their own over the positions. The loop fills a trade at the price of the bar on which the
position has changed, while the equity curve already earns the return of that bar, so the two
price every entry and every exit one bar apart. `tradeGrowth_eq_iff` says when they agree all the
same, and `openedBeforeJump_disagrees` shows a series on which they do not.
-/

namespace TradingSimulator.Backtester

open Series

/-- What `GET /backtest` admits as parameters of a strategy. -/
structure Params.Admitted {K : Type} [Field K] [LinearOrder K] (p : Params K) : Prop where
  fast : 2 ≤ p.fast ∧ p.fast ≤ 200
  slow : 3 ≤ p.slow ∧ p.slow ≤ 400
  rsiPeriod : 2 ≤ p.rsiPeriod ∧ p.rsiPeriod ≤ 60
  rsiBuy : 1 ≤ p.rsiBuy ∧ p.rsiBuy ≤ 99
  rsiSell : 1 ≤ p.rsiSell ∧ p.rsiSell ≤ 99

/-- The side of a marker on the chart. -/
inductive SignalType where
  | buy
  | sell
  deriving DecidableEq

/-- An entry of `signals`: the bar, the side and the price. -/
structure TradeSignal (K : Type) where
  bar : ℕ
  type : SignalType
  price : K

/-- The variables of the loop that extracts the trades. -/
structure TradeLog (K : Type) where
  trades : List K
  wins : ℕ
  grossWin : K
  grossLoss : K
  entry : Option ℕ
  signals : List (TradeSignal K)

/-- The metrics that `run_backtest` takes from the loop. -/
structure TradeMetrics (K : Type) where
  winRate : K
  trades : ℕ
  profitFactor : K

section Definitions

variable {K : Type} [Field K] [LinearOrder K]

/-- The position is taken at bar `i`: `pos[i] == 1.0 and pos[i - 1] == 0.0`. -/
def Enters (pos : List K) (i : ℕ) : Prop := pos.getD i 0 = 1 ∧ pos.getD (i - 1) 0 = 0

/-- The position is left at bar `i`: `pos[i] == 0.0 and pos[i - 1] == 1.0`. -/
def Leaves (pos : List K) (i : ℕ) : Prop := pos.getD i 0 = 0 ∧ pos.getD (i - 1) 0 = 1

instance (pos : List K) : DecidablePred (Enters pos) := fun _ => instDecidableAnd

instance (pos : List K) : DecidablePred (Leaves pos) := fun _ => instDecidableAnd

/-- The body of the loop at bar `i`. -/
def extractStep (price pos : List K) (log : TradeLog K) (i : ℕ) : TradeLog K :=
  if Enters pos i then
    { log with
      entry := some i
      signals := log.signals ++ [⟨i, .buy, price.getD i 0⟩] }
  else if Leaves pos i then
    match log.entry with
    | none => log
    | some entry =>
      let tr := price.getD i 0 / price.getD entry 0 - 1
      { trades := log.trades ++ [tr]
        wins := if 0 < tr then log.wins + 1 else log.wins
        grossWin := if 0 < tr then log.grossWin + tr else log.grossWin
        grossLoss := if 0 < tr then log.grossLoss else log.grossLoss + -tr
        entry := none
        signals := log.signals ++ [⟨i, .sell, price.getD i 0⟩] }
  else log

/-- The variables before the loop. -/
def noTrades : TradeLog K :=
  { trades := [], wins := 0, grossWin := 0, grossLoss := 0, entry := none, signals := [] }

/-- The loop over the bars `1` to `bars`. -/
def extractUpTo (price pos : List K) (bars : ℕ) : TradeLog K :=
  (List.range' 1 bars).foldl (extractStep price pos) noTrades

/-- The loop over all bars. -/
def extractTrades (price pos : List K) : TradeLog K := extractUpTo price pos (price.length - 1)

/-- The metrics of the extracted trades, rounded to the given number of decimals. -/
def tradeMetrics (round : K → ℕ → K) (log : TradeLog K) : TradeMetrics K where
  winRate := if log.trades.length = 0 then 0 else round ((100 : ℕ) * log.wins / log.trades.length) 1
  trades := log.trades.length
  profitFactor :=
    if 0 < log.grossLoss then round (log.grossWin / log.grossLoss) 2
    else if log.grossWin = 0 then 0
    else round log.grossWin 2

/-- The growth that the trades account for up to bar `last`: that of the closed trades, times that
of the trade that is still open. -/
def tradeGrowth (price : List K) (log : TradeLog K) (last : ℕ) : K :=
  (log.trades.map fun tr => 1 + tr).prod *
    match log.entry with
    | none => 1
    | some entry => price.getD last 0 / price.getD entry 0

/-- The growth of the price over bar `i`. -/
def barGrowth (price : List K) (i : ℕ) : K := price.getD i 0 / price.getD (i - 1) 0

/-- The growth of the price over those of the bars `1` to `bars` that satisfy `P`. -/
def growthOver (price : List K) (P : ℕ → Prop) [DecidablePred P] (bars : ℕ) : K :=
  ((List.range' 1 bars).map fun i => if P i then barGrowth price i else 1).prod

/-- The growth of an account that holds `pos` over the bars `1` to `bars`. -/
def positionGrowth (price pos : List K) (bars : ℕ) : K :=
  ((List.range' 1 bars).map fun i => 1 + pos.getD i 0 * (barGrowth price i - 1)).prod

end Definitions

/-! ### The loop -/

section Loop

variable {K : Type} [Field K] [LinearOrder K] {price pos : List K}

/-- One more bar in the log. -/
theorem extractUpTo_succ (price pos : List K) (bars : ℕ) :
    extractUpTo price pos (bars + 1) =
      extractStep price pos (extractUpTo price pos bars) (bars + 1) := by
  rw [extractUpTo, List.range'_1_concat, List.foldl_append, Nat.add_comm 1 bars]
  rfl

omit [LinearOrder K] in
/-- One more bar, if it is one of those. -/
theorem growthOver_succ (price : List K) (P : ℕ → Prop) [DecidablePred P] (bars : ℕ) :
    growthOver price P (bars + 1) =
      growthOver price P bars * if P (bars + 1) then barGrowth price (bars + 1) else 1 := by
  rw [growthOver, List.range'_1_concat, List.map_append, List.prod_append, Nat.add_comm 1 bars]
  simp [growthOver]

omit [LinearOrder K] in
/-- One more bar under the position. -/
theorem positionGrowth_succ (price pos : List K) (bars : ℕ) :
    positionGrowth price pos (bars + 1) = positionGrowth price pos bars *
      (1 + pos.getD (bars + 1) 0 * (barGrowth price (bars + 1) - 1)) := by
  rw [positionGrowth, List.range'_1_concat, List.map_append, List.prod_append, Nat.add_comm 1 bars]
  simp [positionGrowth]

/-- At an entry the bar is kept, and no trade is closed. -/
theorem extractStep_of_enters (price : List K) (log : TradeLog K) {i : ℕ} (h : Enters pos i) :
    (extractStep price pos log i).trades = log.trades ∧
      (extractStep price pos log i).entry = some i := by
  rw [extractStep, if_pos h]
  exact ⟨rfl, rfl⟩

/-- At an exit the open trade is closed at the price of the bar. -/
theorem extractStep_of_leaves (price : List K) {log : TradeLog K} {i entry : ℕ} (h : Leaves pos i)
    (hentry : log.entry = some entry) :
    (extractStep price pos log i).trades =
        log.trades ++ [price.getD i 0 / price.getD entry 0 - 1] ∧
      (extractStep price pos log i).entry = none := by
  have hnot : ¬ Enters pos i := fun h' => zero_ne_one (h.1.symm.trans h'.1)
  rw [extractStep, if_neg hnot, if_pos h]
  simp only [hentry, and_self]

omit [LinearOrder K] in
/-- A position that stays the same is neither entered nor left. -/
theorem not_enters_and_not_leaves {i : ℕ} (h : pos.getD i 0 = pos.getD (i - 1) 0) :
    ¬ Enters pos i ∧ ¬ Leaves pos i := by
  constructor
  · rintro ⟨hone, hzero⟩
    exact zero_ne_one (hzero.symm.trans (h.symm.trans hone))
  · rintro ⟨hzero, hone⟩
    exact zero_ne_one (hzero.symm.trans (h.trans hone))

theorem extractStep_of_same {log : TradeLog K} {i : ℕ}
    (h : pos.getD i 0 = pos.getD (i - 1) 0) : extractStep price pos log i = log := by
  obtain ⟨henters, hleaves⟩ := not_enters_and_not_leaves h
  exact (if_neg henters).trans (if_neg hleaves)

/-- A trade is open exactly over the bars on which the position is held. -/
def OpenWhileHeld (pos : List K) (log : TradeLog K) (bar : ℕ) : Prop :=
  (log.entry = none ∧ pos.getD bar 0 = 0) ∨
    ∃ entry ≤ bar, log.entry = some entry ∧ pos.getD bar 0 = 1

/-- One bar of the loop: a trade leaves out the bar on which it is entered and takes in the bar on
which it is left. -/
theorem extractStep_spec {log : TradeLog K} {bar : ℕ}
    (hprice : ∀ i ≤ bar + 1, price.getD i 0 ≠ 0)
    (hpos : pos.getD (bar + 1) 0 = 0 ∨ pos.getD (bar + 1) 0 = 1)
    (hopen : OpenWhileHeld pos log bar) :
    let next := extractStep price pos log (bar + 1)
    OpenWhileHeld pos next (bar + 1) ∧
      tradeGrowth price next (bar + 1) *
          (if Enters pos (bar + 1) then barGrowth price (bar + 1) else 1) =
        tradeGrowth price log bar * (1 + pos.getD (bar + 1) 0 * (barGrowth price (bar + 1) - 1)) *
          if Leaves pos (bar + 1) then barGrowth price (bar + 1) else 1 := by
  intro next
  have hnow := hprice (bar + 1) le_rfl
  have hpast := hprice bar (Nat.le_succ bar)
  rcases hopen with ⟨hentry, hflat⟩ | ⟨entry, hle, hentry, hheld⟩
  · rcases hpos with hnext | hnext
    · -- flat before and after
      have hsame : pos.getD (bar + 1) 0 = pos.getD bar 0 := hnext.trans hflat.symm
      have hnot := not_enters_and_not_leaves (i := bar + 1) hsame
      have hstep : next = log := extractStep_of_same hsame
      rw [hstep, if_neg hnot.1, if_neg hnot.2, hnext, tradeGrowth, tradeGrowth, hentry]
      exact ⟨Or.inl ⟨hentry, hnext⟩, by ring⟩
    · -- the position is entered, and the new trade has not grown yet
      have henters : Enters pos (bar + 1) := ⟨hnext, hflat⟩
      have hnot : ¬ Leaves pos (bar + 1) := fun h => one_ne_zero (hnext.symm.trans h.1)
      obtain ⟨htrades, hnew⟩ := extractStep_of_enters price log henters
      rw [if_pos henters, if_neg hnot, hnext, tradeGrowth, tradeGrowth, htrades, hnew, hentry]
      refine ⟨Or.inr ⟨bar + 1, le_rfl, hnew, hnext⟩, ?_⟩
      simp only [div_self hnow]
      ring
  · have hbase := hprice entry (by omega)
    rcases hpos with hnext | hnext
    · -- the position is left, and the trade is closed at the price of this bar
      have hleaves : Leaves pos (bar + 1) := ⟨hnext, hheld⟩
      have hnot : ¬ Enters pos (bar + 1) := fun h => zero_ne_one (hnext.symm.trans h.1)
      obtain ⟨htrades, hnew⟩ := extractStep_of_leaves price hleaves hentry
      rw [if_pos hleaves, if_neg hnot, hnext, tradeGrowth, tradeGrowth, htrades, hnew, hentry]
      refine ⟨Or.inl ⟨hnew, hnext⟩, ?_⟩
      simp only [barGrowth, Nat.add_sub_cancel, List.map_append, List.map_singleton,
        List.prod_append, List.prod_singleton]
      field_simp
      ring
    · -- held before and after
      have hsame : pos.getD (bar + 1) 0 = pos.getD bar 0 := hnext.trans hheld.symm
      have hnot := not_enters_and_not_leaves (i := bar + 1) hsame
      have hstep : next = log := extractStep_of_same hsame
      rw [hstep, if_neg hnot.1, if_neg hnot.2, hnext, tradeGrowth, tradeGrowth, hentry]
      refine ⟨Or.inr ⟨entry, by omega, hentry, hnext⟩, ?_⟩
      simp only [barGrowth, Nat.add_sub_cancel]
      field_simp
      ring

/-- The trades and the position pass over the same bars, except for those on which the position is
entered or left. -/
theorem tradeGrowth_extractUpTo (bars : ℕ) (hprice : ∀ i ≤ bars, price.getD i 0 ≠ 0)
    (hpos : ∀ i, pos.getD i 0 = 0 ∨ pos.getD i 0 = 1) (hfirst : pos.getD 0 0 = 0) :
    OpenWhileHeld pos (extractUpTo price pos bars) bars ∧
      tradeGrowth price (extractUpTo price pos bars) bars * growthOver price (Enters pos) bars =
        positionGrowth price pos bars * growthOver price (Leaves pos) bars := by
  induction bars with
  | zero =>
    refine ⟨Or.inl ⟨rfl, hfirst⟩, ?_⟩
    simp [extractUpTo, noTrades, tradeGrowth, growthOver, positionGrowth]
  | succ bars ih =>
    obtain ⟨hopen, hgrowth⟩ := ih fun i hi => hprice i (by omega)
    obtain ⟨hnext, hstep⟩ := extractStep_spec hprice (hpos (bars + 1)) hopen
    rw [extractUpTo_succ, growthOver_succ, growthOver_succ, positionGrowth_succ]
    refine ⟨hnext, ?_⟩
    -- the growth so far is carried along by both factors of this bar
    rw [mul_left_comm, hstep]
    linear_combination (1 + pos.getD (bars + 1) 0 * (barGrowth price (bars + 1) - 1)) *
      (if Leaves pos (bars + 1) then barGrowth price (bars + 1) else 1) * hgrowth

end Loop

/-! ### Signals and the equity curve -/

section Curves

variable {K : Type} [Field K] [LinearOrder K]

omit [LinearOrder K] in
/-- A signal that compares two series bar by bar. -/
theorem zipWith_binary {α β : Type} (c : α → β → Prop) [∀ x y, Decidable (c x y)] (xs : List α)
    (ys : List β) : ∀ value ∈ List.zipWith (fun x y => if c x y then (1 : K) else 0) xs ys,
      value = 0 ∨ value = 1 := by
  intro value hvalue
  rw [← List.map_uncurry_zip_eq_zipWith] at hvalue
  obtain ⟨⟨x, y⟩, -, rfl⟩ := List.mem_map.mp hvalue
  simp only [Function.uncurry]
  split_ifs <;> simp

omit [LinearOrder K] in
/-- A signal that is carried along in a loop. -/
theorem scan_binary {α : Type} (step : K → α → K) (xs : List α)
    (hstep : ∀ pos x, pos = 0 ∨ pos = 1 → step pos x = 0 ∨ step pos x = 1) :
    ∀ value ∈ scan step 0 xs, value = 0 ∨ value = 1 :=
  forall_mem_scan (P := fun pos => pos = 0 ∨ pos = 1) (Or.inl rfl) hstep xs

/-- The signal of a bar is zero or one. -/
theorem signal_binary {sqrt : K → K} {strategy : Strategy} {price rawSig : List K} {p : Params K}
    (h : signal sqrt strategy price p = .ok rawSig) : ∀ value ∈ rawSig, value = 0 ∨ value = 1 := by
  cases strategy with
  | sma =>
    obtain ⟨f, -, h⟩ := exists_ok_of_bind h
    obtain ⟨s, -, h⟩ := exists_ok_of_bind h
    exact Except.ok.inj h ▸ zipWith_binary (fun f s => above f s = true) f s
  | ema =>
    obtain ⟨f, -, h⟩ := exists_ok_of_bind h
    obtain ⟨s, -, h⟩ := exists_ok_of_bind h
    exact Except.ok.inj h ▸ zipWith_binary (fun f s => s < f) f s
  | momentum =>
    obtain ⟨ratios, -, h⟩ := exists_ok_of_bind h
    obtain ⟨roc, -, h⟩ := exists_ok_of_bind h
    obtain ⟨trend, -, h⟩ := exists_ok_of_bind h
    exact Except.ok.inj h ▸ zipWith_binary _ roc (price.zip trend)
  | rsi =>
    obtain ⟨values, -, h⟩ := exists_ok_of_bind h
    -- bought, sold, or left as it was
    refine Except.ok.inj h ▸ scan_binary _ values fun pos x hpos => ?_
    rw [rsiStep]
    split_ifs
    · exact Or.inr rfl
    · exact Or.inl rfl
    · exact hpos
  | bollinger =>
    obtain ⟨mid, -, h⟩ := exists_ok_of_bind h
    refine Except.ok.inj h ▸ scan_binary _ _ fun pos x hpos => ?_
    obtain ⟨price, _ | lower, mid⟩ := x
    · -- the loop passes over a bar whose band is NaN
      exact hpos
    · simp only [bollingerStep]
      split_ifs
      · exact Or.inr rfl
      · exact Or.inl rfl
      · exact hpos

/-- Without costs a bar multiplies the account by the growth of the price when the position is held,
and by one otherwise. The first bar has no return. -/
theorem map_one_add_netReturns {price pos : List K} (hne : price ≠ [])
    (hlength : pos.length = price.length) :
    (netReturns 0 pos (barReturns price)).map (fun r => 1 + r) =
      1 :: (List.range' 1 (price.length - 1)).map fun i =>
        1 + pos.getD i 0 * (barGrowth price i - 1) := by
  have hn : 1 ≤ price.length := List.length_pos_iff.mpr hne
  -- a trade costs nothing here
  have hcost : (diff (0 :: pos)).map (fun change => 0 / 10 ^ 4 * |change|) =
      List.replicate pos.length (0 : K) := by
    simp only [zero_div, zero_mul, List.map_const']
    simp [diff]
  rw [netReturns, hcost]
  -- both lists have one entry for each price
  apply List.ext_getElem
  · simp only [barReturns, List.length_map, List.length_zipWith, List.length_cons,
      List.length_drop, List.length_take, List.length_replicate, List.length_range']
    omega
  · intro i hi hi'
    simp only [List.length_cons, List.length_map, List.length_range'] at hi'
    have hin : i < pos.length := by omega
    have hget : pos[i] = pos.getD i 0 := (List.getD_eq_getElem pos 0 hin).symm
    simp only [List.getElem_map, List.getElem_zipWith, List.getElem_replicate, sub_zero, hget]
    -- the first bar has no return
    cases i with
    | zero => simp [barReturns]
    | succ i =>
      have hnow := List.getD_eq_getElem price 0 (show i + 1 < price.length by omega)
      have hpast := List.getD_eq_getElem price 0 (show i < price.length by omega)
      simp only [barReturns, barGrowth, List.getElem_cons_succ, List.getElem_map,
        List.getElem_zipWith, List.getElem_drop, List.getElem_take, List.getElem_range',
        Nat.add_sub_cancel, Nat.add_comm 1 i, one_mul, hnow, hpast]

/-- Without costs the equity curve ends with the growth over the bars on which the position is
held. -/
theorem equityCurve_last (initial : K) {price pos : List K} (hne : price ≠ [])
    (hlength : pos.length = price.length) :
    (equityCurve initial (netReturns 0 pos (barReturns price)))[price.length - 1]? =
      some (initial * positionGrowth price pos (price.length - 1)) := by
  have hnet := map_one_add_netReturns hne hlength
  have hne' : (netReturns 0 pos (barReturns price)).map (fun r => 1 + r) ≠ [] := by
    rw [hnet]
    exact List.cons_ne_nil _ _
  have hlast := getElem?_cumprod_last hne'
  rw [hnet, List.length_cons, List.length_map, List.length_range', Nat.add_sub_cancel,
    List.prod_cons, one_mul] at hlast
  rw [equityCurve, List.getElem?_map, hnet, hlast, Option.map_some, positionGrowth]

variable [IsStrictOrderedRing K]

omit [LinearOrder K] [IsStrictOrderedRing K] in
/-- Only the bars that are counted matter. -/
theorem growthOver_congr (price : List K) {P Q : ℕ → Prop} [DecidablePred P] [DecidablePred Q]
    {bars : ℕ} (h : ∀ i, i ≤ bars → (P i ↔ Q i)) :
    growthOver price P bars = growthOver price Q bars := by
  unfold growthOver
  congr 1
  refine List.map_congr_left fun i hi => ?_
  have hle : i ≤ bars := by
    have hrange := List.mem_range'_1.mp hi
    omega
  simp only [h i hle]

/-- Positive prices grow by a positive factor from bar to bar. -/
theorem barGrowth_pos {price : List K} {bars i : ℕ}
    (hprice : ∀ j ≤ bars, 0 < price.getD j 0) (hi : i ∈ List.range' 1 bars) :
    0 < barGrowth price i := by
  have hrange := List.mem_range'_1.mp hi
  exact div_pos (hprice i (by omega)) (hprice (i - 1) (by omega))

/-- Positive prices grow by a positive factor over any bars. -/
theorem growthOver_pos {price : List K} {P : ℕ → Prop} [DecidablePred P] {bars : ℕ}
    (hprice : ∀ j ≤ bars, 0 < price.getD j 0) : 0 < growthOver price P bars := by
  refine List.prod_pos fun growth hgrowth => ?_
  obtain ⟨i, hi, rfl⟩ := List.mem_map.mp hgrowth
  split_ifs
  · exact barGrowth_pos hprice hi
  · exact one_pos

/-- A position in a positive price keeps some of its worth. -/
theorem positionGrowth_pos {price pos : List K} {bars : ℕ}
    (hprice : ∀ j ≤ bars, 0 < price.getD j 0)
    (hpos : ∀ i, pos.getD i 0 = 0 ∨ pos.getD i 0 = 1) : 0 < positionGrowth price pos bars := by
  refine List.prod_pos fun growth hgrowth => ?_
  obtain ⟨i, hi, rfl⟩ := List.mem_map.mp hgrowth
  rcases hpos i with hflat | hheld
  · rw [hflat, zero_mul, add_zero]
    exact one_pos
  · rw [hheld, one_mul, add_sub_cancel]
    exact barGrowth_pos hprice hi

/-- The trades account for the growth over the position if and only if the bars of the entries and
those of the exits have the same growth. -/
theorem tradeGrowth_eq_positionGrowth_iff {price pos : List K} {bars : ℕ}
    (hprice : ∀ i ≤ bars, 0 < price.getD i 0) (hpos : ∀ i, pos.getD i 0 = 0 ∨ pos.getD i 0 = 1)
    (hflat : pos.getD 0 0 = 0) :
    tradeGrowth price (extractUpTo price pos bars) bars = positionGrowth price pos bars ↔
      growthOver price (Enters pos) bars = growthOver price (Leaves pos) bars := by
  obtain ⟨-, hgrowth⟩ :=
    tradeGrowth_extractUpTo bars (fun i hi => (hprice i hi).ne') hpos hflat
  have hEpos := positionGrowth_pos hprice hpos
  have hInpos := growthOver_pos (P := Enters pos) hprice
  -- cancel the growth over the position in one direction, that of the entries in the other
  constructor
  · intro heq
    rw [heq] at hgrowth
    exact mul_left_cancel₀ hEpos.ne' hgrowth
  · intro heq
    rw [← heq] at hgrowth
    exact mul_right_cancel₀ hInpos.ne' hgrowth

omit [IsStrictOrderedRing K] in
theorem PriceSeries.getD_pos (price : PriceSeries K) {i : ℕ} (hi : i < price.prices.length) :
    0 < price.prices.getD i 0 := by
  rw [List.getD_eq_getElem price.prices 0 hi]
  exact price.prices_pos _ (List.getElem_mem hi)

omit [IsStrictOrderedRing K] in
/-- The position is the signal one bar later, so it is zero or one as well. -/
theorem position_binary {sqrt : K → K} {strategy : Strategy} {price rawSig : List K} {p : Params K}
    (h : signal sqrt strategy price p = .ok rawSig) (bars i : ℕ) :
    (0 :: rawSig.take bars).getD i 0 = 0 ∨ (0 :: rawSig.take bars).getD i 0 = 1 := by
  rcases Nat.lt_or_ge i (0 :: rawSig.take bars).length with hin | hout
  · rw [List.getD_eq_getElem _ 0 hin]
    rcases List.mem_cons.mp (List.getElem_mem hin) with hzero | hmem
    · exact Or.inl hzero
    · exact signal_binary h _ (List.mem_of_mem_take hmem)
  · exact Or.inl (List.getD_eq_default _ 0 hout)

omit [LinearOrder K] [IsStrictOrderedRing K] in
/-- The position of a bar does not depend on the signals behind it. -/
theorem getD_position (rawSig : List K) {bars i : ℕ} (hi : i ≤ bars) :
    (0 :: rawSig).getD i 0 = (0 :: rawSig.take bars).getD i 0 := by
  cases i with
  | zero => rfl
  | succ i => simp [List.getD_eq_getElem?_getD, show i < bars by omega]

omit [IsStrictOrderedRing K] in
/-- With admitted parameters every strategy has a signal for every bar. -/
theorem exists_signal (sqrt : K → K) (strategy : Strategy) {p : Params K} (hp : p.Admitted)
    {price : List K} (hbars : 150 ≤ price.length) :
    ∃ rawSig, signal sqrt strategy price p = .ok rawSig ∧ rawSig.length = price.length := by
  obtain ⟨bars, hn⟩ : ∃ bars, price.length = bars + 1 := ⟨price.length - 1, by omega⟩
  have hagree : Agree (bars + 1) (0 + 1) price price := hn ▸ Agree.refl price 1
  have hperiod : max 2 p.rsiPeriod < (bars + 1 : ℕ) := by
    have hrsi := hp.rsiPeriod
    omega
  obtain ⟨rawSig, _, hsignal, _, hsame⟩ := signal_agree sqrt strategy hagree hperiod
  exact ⟨rawSig, hsignal, hsame.left.trans hn.symm⟩

/-- Without costs, the trades account for the growth of the equity if and only if the price has
grown as much over the bars on which the signal has just turned on as over those on which it has
just turned off. -/
theorem tradeGrowth_eq_iff (sqrt : K → K) (strategy : Strategy) (p : Params K) (hp : p.Admitted)
    (initial : K) (hinitial : 0 < initial) (price : PriceSeries K) (n : ℕ)
    (hn : price.prices.length = n) (hbars : 150 ≤ n) :
    ∃ rawSig c last, signal sqrt strategy price.prices p = .ok rawSig ∧
      curves sqrt strategy p 0 initial price.prices = .ok c ∧ c.equity[n - 1]? = some last ∧
      (tradeGrowth price.prices (extractTrades price.prices c.pos) (n - 1) = last / initial ↔
        growthOver price.prices (Enters (0 :: rawSig)) (n - 1) =
          growthOver price.prices (Leaves (0 :: rawSig)) (n - 1)) := by
  obtain ⟨bars, rfl⟩ : ∃ bars, n = bars + 1 := ⟨n - 1, by omega⟩
  have hne : price.prices ≠ [] := List.ne_nil_of_length_eq_add_one hn
  obtain ⟨rawSig, hsignal, hlength⟩ := exists_signal sqrt strategy hp (hbars.trans_eq hn.symm)
  have hcurves := curves_of_signal sqrt 0 initial hsignal hlength hne
  set pos := 0 :: rawSig.take (price.prices.length - 1) with hposdef
  have hposlength : pos.length = price.prices.length := by
    simp only [hposdef, List.length_cons, List.length_take]
    omega
  have hlast := equityCurve_last initial hne hposlength
  rw [hn, Nat.add_sub_cancel] at hlast
  refine ⟨rawSig, _, _, hsignal, hcurves, hlast, ?_⟩
  -- the entries and exits of the position are those of the signal, one bar later
  have hshift : ∀ i ≤ bars, (0 :: rawSig).getD i 0 = pos.getD i 0 := fun i hi => by
    rw [hposdef, hn, Nat.add_sub_cancel]
    exact getD_position rawSig hi
  have hin : growthOver price.prices (Enters (0 :: rawSig)) bars =
      growthOver price.prices (Enters pos) bars :=
    growthOver_congr _ fun i hi => by
      rw [Enters, Enters, hshift i hi, hshift (i - 1) (by omega)]
  have hout : growthOver price.prices (Leaves (0 :: rawSig)) bars =
      growthOver price.prices (Leaves pos) bars :=
    growthOver_congr _ fun i hi => by
      rw [Leaves, Leaves, hshift i hi, hshift (i - 1) (by omega)]
  rw [Nat.add_sub_cancel, extractTrades, hn, Nat.add_sub_cancel, hin, hout,
    mul_div_cancel_left₀ _ hinitial.ne']
  exact tradeGrowth_eq_positionGrowth_iff (fun i hi => price.getD_pos (by omega))
    (position_binary hsignal _) rfl

/-- The parameters that `GET /backtest` uses by default are admitted. -/
theorem admitted_default : Params.Admitted (K := K) ⟨20, 50, 14, 30, 55⟩ := by
  constructor <;> norm_num

/-- A price that rises twice. -/
def twoRises : PriceSeries ℚ where
  prices := List.replicate 80 1 ++ List.replicate 10 2 ++ List.replicate 60 3
  prices_pos := by decide +kernel

/-- The position is entered after the first rise, and left when the slow average has caught up. -/
example : signal id .sma twoRises.prices ⟨20, 50, 14, 30, 55⟩ =
    .ok (List.replicate 80 0 ++ List.replicate 59 1 ++ List.replicate 11 0) := by
  decide +kernel

/-- The crossing averages on a price that rises twice, up to the last bar. -/
theorem tradeGrowth_eq_iff_twoRises :
    ∃ rawSig c last,
      signal id .sma twoRises.prices ⟨20, 50, 14, 30, 55⟩ = .ok rawSig ∧
      curves id .sma ⟨20, 50, 14, 30, 55⟩ 0 100000 twoRises.prices = .ok c ∧
      c.equity[149]? = some last ∧
      (tradeGrowth twoRises.prices (extractTrades twoRises.prices c.pos) 149 = last / 100000 ↔
        growthOver twoRises.prices (Enters (0 :: rawSig)) 149 =
          growthOver twoRises.prices (Leaves (0 :: rawSig)) 149) :=
  tradeGrowth_eq_iff id .sma _ admitted_default 100000 (by norm_num) twoRises 150 rfl le_rfl

end Curves

/-- A price that doubles on two bars, the second of which is the first one that is held. -/
def openedBeforeJump : PriceSeries ℚ where
  prices := List.replicate 146 1 ++ [2, 4, 4, 4]
  prices_pos := by decide +kernel

/-- The equity has doubled over the bar on which the trade is entered, and the trade itself, entered
at the price of that bar, has not grown. -/
theorem openedBeforeJump_disagrees :
    Params.Admitted (K := ℚ) ⟨2, 3, 14, 30, 55⟩ ∧ openedBeforeJump.prices.length = 150 ∧
      ∃ c, curves id .sma ⟨2, 3, 14, 30, 55⟩ 0 100000 openedBeforeJump.prices = .ok c ∧
        c.equity[149]? = some 200000 ∧
        tradeGrowth openedBeforeJump.prices (extractTrades openedBeforeJump.prices c.pos) 149 = 1 ∧
        tradeGrowth openedBeforeJump.prices (extractTrades openedBeforeJump.prices c.pos) 149 ≠
          200000 / 100000 := by
  have hne : openedBeforeJump.prices ≠ [] := List.ne_nil_of_length_eq_add_one (n := 149) rfl
  have hsignal : signal id .sma openedBeforeJump.prices ⟨2, 3, 14, 30, 55⟩ =
      .ok (List.replicate 146 0 ++ [1, 1, 1, 0]) := by decide +kernel
  refine ⟨by constructor <;> norm_num, rfl, _, curves_of_signal id 0 100000 hsignal rfl hne, ?_, ?_,
    ?_⟩ <;> decide +kernel

end TradingSimulator.Backtester
