import TradingSimulator.Quant.NoLookahead
import TradingSimulator.Quant.ReturnPredictor
import Mathlib.Data.List.GetD

/-!
# The return predictor does not look ahead

Two histories that agree up to the first test row, or further, have the same valid rows, train the
same forest, and have the same predictions and positions for the test rows as far as they agree.

A row of the features reads the bars up to its own from row `20` on. The rows before it, into which
`np.roll` has moved the last returns, are masked by the NaN of the longest window, and the label of
the last training row is the return of the first test row.
-/

namespace TradingSimulator.ReturnPredictor

open Series

/-- A history of positive closes and volumes. -/
structure History (K : Type) [Zero K] [LT K] where
  close : List K
  vols : List K
  length_vols : vols.length = close.length
  close_pos : ∀ price ∈ close, 0 < price
  vols_pos : ∀ volume ∈ vols, 0 < volume

/-- The column has `n` entries, which are NaN before the entry `first` and nowhere else. -/
structure Starts {α : Type} (n first : ℕ) (column : List (Option α)) : Prop where
  length : column.length = n
  isSome_iff : ∀ j < n, (column.getD j none).isSome ↔ first ≤ j

/-- The same column of two histories: the NaN end at the same entry, at most `20`, and from there on
the entries below `k` are the same. -/
structure ColumnAgree {α : Type} (n k : ℕ) (column₁ column₂ : List (Option α)) : Prop where
  starts : ∃ first ≤ 20, Starts n first column₁ ∧ Starts n first column₂
  agree : ∀ j, 20 ≤ j → j < k → column₁.getD j none = column₂.getD j none

/-! ### Columns -/

section Columns

variable {α β γ : Type} {n k first : ℕ}

/-- A column that is computed index by index starts where its entries do. -/
theorem starts_map_range {entry : ℕ → Option α}
    (h : ∀ j < n, (entry j).isSome ↔ first ≤ j) : Starts n first ((List.range n).map entry) where
  length := by simp
  isSome_iff j hj := by
    rw [List.getD_eq_getElem _ _ (by simpa using hj), List.getElem_map, List.getElem_range]
    exact h j hj

/-- A column without NaN. -/
theorem starts_map_some {values : List α} (f : α → β) (hlength : values.length = n) :
    Starts n 0 (values.map fun value => some (f value)) where
  length := by simp [hlength]
  isSome_iff j hj := by
    rw [List.getD_eq_getElem _ _ (by simpa [hlength] using hj), List.getElem_map]
    simp

/-- Values behind NaN. -/
theorem starts_replicate_append {values : List α} (f : α → β)
    (hlength : first + values.length = n) :
    Starts n first (List.replicate first none ++ values.map fun value => some (f value)) where
  length := by simpa using hlength
  isSome_iff j hj := by
    by_cases hfirst : first ≤ j
    · rw [List.getD_append_right _ _ _ _ (by simpa using hfirst),
        List.getD_eq_getElem _ _ (by simp; omega), List.getElem_map]
      simpa using hfirst
    · rw [List.getD_append _ _ _ _ (by simpa using hfirst),
        List.getD_eq_getElem _ _ (by simpa using hfirst), List.getElem_replicate]
      simpa using hfirst

/-- An operation on an array and a column is NaN where the column is. -/
theorem Starts.zipWith {values : List α} {column : List (Option β)} (h : Starts n first column)
    (f : α → β → γ) (hlength : values.length = n) :
    Starts n first (List.zipWith (fun value entry => entry.map (f value)) values column) where
  length := by simp [hlength, h.length]
  isSome_iff j hj := by
    rw [← h.isSome_iff j hj, List.getD_eq_getElem _ _ (by simp [hlength, h.length, hj]),
      List.getD_eq_getElem _ _ (by simp [h.length, hj]), List.getElem_zipWith, Option.isSome_map]

/-- An operation on two columns is NaN where one of them is. -/
theorem Starts.map₂ {second : ℕ} {us : List (Option α)} {vs : List (Option β)}
    (hu : Starts n first us) (hv : Starts n second vs) (f : α → β → γ) :
    Starts n (max first second) (List.zipWith (Option.map₂ f) us vs) where
  length := by simp [hu.length, hv.length]
  isSome_iff j hj := by
    have hju : j < us.length := hu.length ▸ hj
    have hjv : j < vs.length := hv.length ▸ hj
    rw [max_le_iff, ← hu.isSome_iff j hj, ← hv.isSome_iff j hj,
      List.getD_eq_getElem _ _ (by simp [hju, hjv]), List.getD_eq_getElem _ _ hju,
      List.getD_eq_getElem _ _ hjv, List.getElem_zipWith]
    cases us[j] <;> cases vs[j] <;> simp

/-- Columns that begin in time and agree are alike in every valid row. -/
theorem ColumnAgree.of_agree {us vs : List (Option α)} (hfirst : first ≤ 20)
    (hu : Starts n first us) (hv : Starts n first vs) (h : Agree n k us vs) :
    ColumnAgree n k us vs where
  starts := ⟨first, hfirst, hu, hv⟩
  agree j _ hj := by
    simp only [List.getD_eq_getElem?_getD]
    rw [(Agree.iff_getElem?.mp h).2.2 j hj]

theorem ColumnAgree.map_some {us vs : List α} (f : α → β) (h : Agree n k us vs) :
    ColumnAgree n k (us.map fun value => some (f value)) (vs.map fun value => some (f value)) :=
  .of_agree (Nat.zero_le 20) (starts_map_some f h.left) (starts_map_some f h.right) (h.map _)

theorem ColumnAgree.full {us vs : List α} (h : Agree n k us vs) :
    ColumnAgree n k (us.map some) (vs.map some) := .map_some id h

/-- Behind the entries that have come from the end, a rolled column reads earlier entries. -/
theorem ColumnAgree.roll {us vs : List α} (lag : ℕ) (hlag : lag ≤ 20) (hn : 20 < n)
    (h : Agree n k us vs) :
    ColumnAgree n k ((Series.roll us lag).map some) ((Series.roll vs lag).map some) where
  starts := ⟨0, Nat.zero_le 20, starts_map_some id (by simp [h.left]),
    starts_map_some id (by simp [h.right])⟩
  agree j hj hk := by
    obtain ⟨hus, hvs, hentries⟩ := Agree.iff_getElem?.mp h
    by_cases hlt : j < n
    · rw [List.getD_eq_getElem?_getD, List.getD_eq_getElem?_getD, List.getElem?_map,
        List.getElem?_map, getElem?_roll (by omega) (by omega) (by omega),
        getElem?_roll (by omega) (by omega) (by omega), hentries (j - lag) (by omega)]
    · rw [List.getD_eq_default _ _ (by simp; omega), List.getD_eq_default _ _ (by simp; omega)]

/-- Columns that agree are the columns of matrices with `n` rows. -/
theorem columnStack_agree {us vs : List (List (Option α))}
    (h : List.Forall₂ (ColumnAgree n k) us vs) :
    columnStack us n = .ok ((List.range n).map fun j => us.map fun column => column.getD j none) ∧
      columnStack vs n =
        .ok ((List.range n).map fun j => vs.map fun column => column.getD j none) := by
  have hlength : (∀ column ∈ us, column.length = n) ∧ ∀ column ∈ vs, column.length = n := by
    induction h with
    | nil => simp
    | cons hhead _ ih =>
      obtain ⟨first, -, hu, hv⟩ := hhead.starts
      exact ⟨List.forall_mem_cons.mpr ⟨hu.length, ih.1⟩, List.forall_mem_cons.mpr ⟨hv.length, ih.2⟩⟩
  exact ⟨if_pos hlength.1, if_pos hlength.2⟩

/-- Every column starts within the first twenty bars. -/
theorem exists_starts_of_mem {us vs : List (List (Option α))}
    (h : List.Forall₂ (ColumnAgree n k) us vs) {column : List (Option α)} (hmem : column ∈ us) :
    ∃ first ≤ 20, Starts n first column := by
  induction h with
  | nil => cases hmem
  | cons hhead _ ih =>
    cases hmem with
    | head =>
      obtain ⟨first, hfirst, hu, -⟩ := hhead.starts
      exact ⟨first, hfirst, hu⟩
    | tail _ htail => exact ih htail

/-- The rows of columns that agree are valid together. -/
theorem isSome_row_eq {us vs : List (List (Option α))}
    (h : List.Forall₂ (ColumnAgree n k) us vs) {j : ℕ} (hj : j < n) :
    (us.map fun column => column.getD j none).all Option.isSome =
      (vs.map fun column => column.getD j none).all Option.isSome := by
  induction h with
  | nil => rfl
  | cons hhead _ ih =>
    obtain ⟨first, -, hu, hv⟩ := hhead.starts
    have hentry := (hu.isSome_iff j hj).trans (hv.isSome_iff j hj).symm
    rw [List.map_cons, List.map_cons, List.all_cons, List.all_cons, ih, Bool.eq_iff_iff.mpr hentry]

/-- From the twentieth row on the columns give the same features. -/
theorem row_eq {us vs : List (List (Option α))} (h : List.Forall₂ (ColumnAgree n k) us vs) {j : ℕ}
    (hj : 20 ≤ j) (hk : j < k) :
    (us.map fun column => column.getD j none) = vs.map fun column => column.getD j none := by
  induction h with
  | nil => rfl
  | cons hhead _ ih => rw [List.map_cons, List.map_cons, ih, hhead.agree j hj hk]

end Columns

/-! ### Training and test rows -/

namespace Features

section Rows

variable {σ K : Type} {i first : ℕ} {F₁ F₂ : Features K}

/-- The features of two histories as far as a row `i`: the same rows are valid, and valid rows are
the same, with their labels before the row. -/
structure RowsAgree (i : ℕ) (F₁ F₂ : Features K) : Prop where
  valid : F₁.valid = F₂.valid
  X : ∀ j ∈ F₁.vidx, j ≤ i → F₁.X[j]? = F₂.X[j]?
  y : ∀ j ∈ F₁.vidx, j < i → F₁.y[j]? = F₂.y[j]?

theorem mem_vidx {F : Features K} {j : ℕ} : j ∈ F.vidx ↔ F.valid.getD j false := by
  rw [vidx, List.mem_filter, List.mem_range, and_iff_right_iff_imp]
  intro hvalid
  by_contra hlt
  rw [List.getD_eq_default _ _ (by omega)] at hvalid
  cases hvalid

/-- The rows of the training set come before the first one of the test set. -/
theorem lt_of_mem_training {F : Features K} (hfirst : F.testRows.head? = some first) {j : ℕ}
    (hj : j ∈ F.vidx.take F.split) : j < first := by
  have hsorted : F.vidx.Pairwise (· < ·) := List.pairwise_lt_range.filter _
  rw [← List.take_append_drop F.split F.vidx, List.pairwise_append] at hsorted
  exact hsorted.2.2 j hj first (List.mem_of_head? hfirst)

theorem RowsAgree.vidx_eq (h : RowsAgree i F₁ F₂) : F₁.vidx = F₂.vidx := by
  unfold vidx
  rw [h.valid]

theorem RowsAgree.split_eq (h : RowsAgree i F₁ F₂) : F₁.split = F₂.split := by
  simp only [split, Xv, List.length_map, h.vidx_eq]

variable [Field K] [LinearOrder K]

/-- The training rows, and their labels, are before the first test row. -/
theorem RowsAgree.forest_eq (h : RowsAgree i F₁ F₂) (rng : Rng σ) (params : ForestParams)
    (hfirst : F₁.testRows.head? = some first) (hi : first ≤ i) :
    F₁.forest rng params = F₂.forest rng params := by
  -- all training rows come before the first test row, and so within the agreement
  have hX : F₁.Xv.take F₁.split = F₂.Xv.take F₂.split := by
    rw [Xv, Xv, ← h.vidx_eq, ← h.split_eq, ← List.map_take, ← List.map_take]
    refine List.map_congr_left fun j hj => ?_
    have hlt := lt_of_mem_training hfirst hj
    rw [List.getD_eq_getElem?_getD, List.getD_eq_getElem?_getD,
      h.X j (List.mem_of_mem_take hj) (by omega)]
  have hy : F₁.yv.take F₁.split = F₂.yv.take F₂.split := by
    rw [yv, yv, ← h.vidx_eq, ← h.split_eq, ← List.map_take, ← List.map_take]
    refine List.map_congr_left fun j hj => ?_
    have hlt := lt_of_mem_training hfirst hj
    rw [List.getD_eq_getElem?_getD, List.getD_eq_getElem?_getD,
      h.y j (List.mem_of_mem_take hj) (by omega)]
  rw [forest, forest, hX, hy]

/-- A test row within the agreement has the same prediction. -/
theorem RowsAgree.pred_eq (h : RowsAgree i F₁ F₂) (rng : Rng σ) (params : ForestParams)
    (hforest : F₁.forest rng params = F₂.forest rng params) {t row : ℕ}
    (hrow : F₁.testRows[t]? = some row) (hi : row ≤ i) :
    (F₁.pred rng params)[t]? = (F₂.pred rng params)[t]? := by
  have hmem : row ∈ F₁.vidx := List.mem_of_mem_drop (List.mem_of_getElem? hrow)
  have hrow₂ : F₂.testRows[t]? = some row := by
    rwa [testRows, ← h.vidx_eq, ← h.split_eq]
  unfold testRows at hrow hrow₂
  simp only [pred, predict, Xv, ← List.map_drop, List.getElem?_map, hrow, hrow₂, Option.map_some,
    hforest, List.getD_eq_getElem?_getD, h.X row hmem hi]

end Rows

end Features

/-! ### Features -/

section Features

variable {K : Type} [Field K] {n k : ℕ} {xs ys : List K}

/-- The rolling deviation begins behind the first full window. -/
theorem starts_rollingStd (sqrt : K → K) (w : ℕ) (hlength : xs.length = n) :
    Starts n w (rollingStd sqrt xs w) := by
  subst hlength
  refine starts_map_range fun j hj => ?_
  split_ifs with h
  · simp; omega
  · simp; omega

/-- A moving average is NaN before its first full window. -/
theorem starts_sma {w : ℕ} (hw : 1 ≤ w) (hn : w ≤ n) (hlength : xs.length = n)
    {out : List (Option K)} (h : sma xs w = .ok out) : Starts n (w - 1) out := by
  have hcount : (cumsum (0 :: xs)).length = n + 1 := by simp [cumsum, scan, hlength]
  obtain ⟨sums, hsums, h⟩ := exists_ok_of_bind h
  rw [elementwise_of_length_eq _ (by simp), Except.ok.injEq] at hsums
  have hwidth : sums.length = n + 1 - w := by simp [← hsums, hcount]
  rw [assignFrom_of_length_eq (by simp; omega), Except.ok.injEq, List.take_replicate,
    Nat.min_eq_left (by omega)] at h
  subst h
  exact starts_replicate_append _ (by omega)

/-- The ratio to an average begins with the first full window. -/
theorem starts_maRatio {w : ℕ} (hw : 1 ≤ w) (hn : w ≤ n) (hlength : xs.length = n)
    {out : List (Option K)} (h : maRatio xs w = .ok out) : Starts n (w - 1) out := by
  obtain ⟨means, hmeans, h⟩ := exists_ok_of_bind h
  have hstarts := starts_sma hw hn hlength hmeans
  rw [elementwise_of_length_eq _ (hlength.trans hstarts.length.symm), Except.ok.injEq] at h
  subst h
  exact hstarts.zipWith _ hlength

/-- The first window of the returns is the first that is full. -/
theorem starts_volZ (sqrt : K → K) {w : ℕ} (hw : 1 ≤ w) (hn : w ≤ n) (hlength : xs.length = n)
    {out : List (Option K)} (h : volZ sqrt xs w = .ok out) : Starts n w out := by
  obtain ⟨means, hmeans, h⟩ := exists_ok_of_bind h
  obtain ⟨deviation, hdeviation, h⟩ := exists_ok_of_bind h
  have hstarts := starts_sma hw hn hlength hmeans
  rw [elementwise_of_length_eq _ (hlength.trans hstarts.length.symm), Except.ok.injEq]
    at hdeviation
  have hdev : Starts n (w - 1) deviation := by
    rw [← hdeviation]
    exact hstarts.zipWith _ hlength
  have hsd := starts_rollingStd sqrt w hlength
  rw [elementwise_of_length_eq _ (hdev.length.trans hsd.length.symm), Except.ok.injEq] at h
  have hmap := hdev.map₂ hsd fun deviation sd => deviation / (sd + 1 / ((10 : ℕ) : K) ^ 9)
  rwa [h, Nat.max_eq_right (Nat.sub_le w 1)] at hmap

theorem rollingStd_agree (sqrt : K → K) (h : Agree n k xs ys) (w : ℕ) :
    Agree n k (rollingStd sqrt xs w) (rollingStd sqrt ys w) := by
  unfold rollingStd
  exact h.slidingWindow (std sqrt) (Nat.le_succ w)

/-- The moving average is the one of the backtester. -/
theorem sma_eq {w : ℕ} (hw : 1 ≤ w) (xs : List K) : sma xs w = Backtester.sma xs w := by
  have hmax : (max 1 (w : ℤ)).toNat = w := by omega
  simp only [sma, Backtester.sma, hmax]

/-- The ratio to an average reads no later row. -/
theorem maRatio_agree {w : ℕ} (hw : 1 ≤ w) (h : Agree n k xs ys) :
    AgreeOk n k (maRatio xs w) (maRatio ys w) := by
  unfold maRatio
  rw [sma_eq hw, sma_eq hw]
  exact (Backtester.sma_agree h w).bind fun _ _ hmean => AgreeOk.elementwise _ h hmean

/-- Nor does the z-score of the volume. -/
theorem volZ_agree (sqrt : K → K) {w : ℕ} (hw : 1 ≤ w) (h : Agree n k xs ys) :
    AgreeOk n k (volZ sqrt xs w) (volZ sqrt ys w) := by
  unfold volZ
  rw [sma_eq hw, sma_eq hw]
  refine (Backtester.sma_agree h w).bind fun _ _ hmean => ?_
  refine (AgreeOk.elementwise _ h hmean).bind fun _ _ hdeviation => ?_
  exact AgreeOk.elementwise _ hdeviation (rollingStd_agree sqrt h w)

/-- The ratios of a window to its average. -/
theorem exists_maRatio (w : ℕ) (hw : 1 ≤ w) (hw' : w ≤ 20) (hn : w ≤ n) (h : Agree n k xs ys) :
    ∃ us vs, maRatio xs w = .ok us ∧ maRatio ys w = .ok vs ∧ ColumnAgree n k us vs := by
  obtain ⟨us, vs, hus, hvs, hagree⟩ := maRatio_agree hw h
  exact ⟨us, vs, hus, hvs, .of_agree (by omega) (starts_maRatio hw hn h.left hus)
    (starts_maRatio hw hn h.right hvs) hagree⟩

/-- The deviations of a window from its average. -/
theorem exists_volZ (sqrt : K → K) (w : ℕ) (hw : 1 ≤ w) (hw' : w ≤ 20) (hn : w ≤ n)
    (h : Agree n k xs ys) :
    ∃ us vs, volZ sqrt xs w = .ok us ∧ volZ sqrt ys w = .ok vs ∧ ColumnAgree n k us vs := by
  obtain ⟨us, vs, hus, hvs, hagree⟩ := volZ_agree sqrt hw h
  exact ⟨us, vs, hus, hvs, .of_agree hw' (starts_volZ sqrt hw hn h.left hus)
    (starts_volZ sqrt hw hn h.right hvs) hagree⟩

theorem ColumnAgree.rollingStd (sqrt : K → K) (w : ℕ) (hw : w ≤ 20) (h : Agree n k xs ys) :
    ColumnAgree n k (rollingStd sqrt xs w) (rollingStd sqrt ys w) :=
  .of_agree hw (starts_rollingStd sqrt w h.left) (starts_rollingStd sqrt w h.right)
    (rollingStd_agree sqrt h w)

variable [LinearOrder K]

/-- The relative strength is the one of the backtester. -/
theorem rsi_eq {period : ℕ} (hperiod : 2 ≤ period) (xs : List K) :
    rsi xs period = Backtester.rsi xs period := by
  have hmax : (max 2 (period : ℤ)).toNat = period := by omega
  simp only [rsi, Backtester.rsi, hmax, Nat.cast_ofNat]

/-- Nor does the relative strength. -/
theorem rsi_agree (period : ℕ) (hperiod : 2 ≤ period) (hn : period < n)
    (h : Agree n (k + 1) xs ys) : AgreeOk n (k + 1) (rsi xs period) (rsi ys period) := by
  obtain ⟨n, rfl⟩ := Nat.exists_eq_succ_of_ne_zero (Nat.ne_zero_of_lt hn)
  rw [rsi_eq hperiod, rsi_eq hperiod]
  exact Backtester.rsi_agree h (by omega)

/-- The features with the given returns and columns. -/
def Features.ofColumns (n : ℕ) (ret : List K) (columns : List (List (Option K))) : Features K where
  X := (List.range n).map fun j => columns.map fun column => column.getD j none
  y := ret.drop 1 ++ [0]
  ret := ret
  valid := (((List.range n).map fun j => columns.map fun column => column.getD j none).map
    fun row => row.all Option.isSome).dropLast ++ [false]

/-- Features are those of their columns, among which is the deviation over twenty returns. -/
theorem exists_columns {sqrt : K → K} {F : Features K} (h : buildFeatures sqrt xs ys = .ok F) :
    ∃ ret columns, F = .ofColumns xs.length ret columns ∧ ret.length = xs.length ∧
      rollingStd sqrt ret 20 ∈ columns := by
  -- one step of the computation after the other
  obtain ⟨ratios, -, h⟩ := exists_ok_of_bind h
  obtain ⟨ret, -, h⟩ := exists_ok_of_bind h
  obtain ⟨ma5, -, h⟩ := exists_ok_of_bind h
  obtain ⟨ma10, -, h⟩ := exists_ok_of_bind h
  obtain ⟨ma20, -, h⟩ := exists_ok_of_bind h
  obtain ⟨changes, -, h⟩ := exists_ok_of_bind h
  obtain ⟨rsi14, -, h⟩ := exists_ok_of_bind h
  obtain ⟨volz10, -, h⟩ := exists_ok_of_bind h
  obtain ⟨X, hX, h⟩ := exists_ok_of_bind h
  unfold columnStack at hX
  split_ifs at hX with hlength
  cases hX
  cases h
  refine ⟨ret, _, rfl, ?_, ?_⟩
  · simpa using hlength ((roll ret 1).map some) (by simp)
  · simp

/-- The features of two histories agree column by column. -/
theorem buildFeatures_agree (sqrt : K → K) (hn : 20 < n) {us vs : List K}
    (h : Agree n (k + 1) xs ys) (hvols : Agree n (k + 1) us vs) :
    ∃ ret₁ ret₂ columns₁ columns₂,
      buildFeatures sqrt xs us = .ok (.ofColumns n ret₁ columns₁) ∧
      buildFeatures sqrt ys vs = .ok (.ofColumns n ret₂ columns₂) ∧
      Agree n (k + 1) ret₁ ret₂ ∧ List.Forall₂ (ColumnAgree n (k + 1)) columns₁ columns₂ := by
  -- the return of a bar reads its close and the one before
  obtain ⟨ratios₁, ratios₂, hratios₁, hratios₂, hratios⟩ :=
    AgreeOk.elementwise_lag (fun price past : K => price / past) h 1
  obtain ⟨ret₁, ret₂, hret₁, hret₂, hret⟩ :=
    AgreeOk.assignFrom (List.length_replicate (a := (0 : K))) 1
      (hratios.map fun ratio => ratio - 1)
  have hret := hret.mono (show k + 1 ≤ 1 + (k + 1 - 1) by omega)
  obtain ⟨ma5₁, ma5₂, hma5₁, hma5₂, hma5⟩ :=
    exists_maRatio 5 (by norm_num) (by norm_num) (by omega) h
  obtain ⟨ma10₁, ma10₂, hma10₁, hma10₂, hma10⟩ :=
    exists_maRatio 10 (by norm_num) (by norm_num) (by omega) h
  obtain ⟨ma20₁, ma20₂, hma20₁, hma20₂, hma20⟩ :=
    exists_maRatio 20 (by norm_num) le_rfl (by omega) h
  obtain ⟨changes₁, changes₂, hchanges₁, hchanges₂, hchanges⟩ :=
    AgreeOk.elementwise_lag (fun price past : K => price / past) h 10
  -- the rate of change over ten bars, behind ten zeros
  have hroc := (hchanges.map fun ratio => ratio - 1).append_left (List.replicate 10 (0 : K))
  rw [List.length_replicate, Nat.add_sub_cancel' (show 10 ≤ n by omega)] at hroc
  have hroc := hroc.mono (show k + 1 ≤ 10 + (k + 1 - 10) by omega)
  obtain ⟨rsi₁, rsi₂, hrsi₁, hrsi₂, hrsi⟩ :=
    rsi_agree 14 (by norm_num) (by omega) h
  obtain ⟨volz₁, volz₂, hvolz₁, hvolz₂, hvolz⟩ :=
    exists_volZ sqrt 10 (by norm_num) (by norm_num) (by omega) hvols
  -- in the order of the features
  have hcolumns : List.Forall₂ (ColumnAgree n (k + 1)) _ _ :=
    .cons (.roll 1 (by norm_num) hn hret) <| .cons (.roll 2 (by norm_num) hn hret) <|
    .cons (.roll 3 (by norm_num) hn hret) <| .cons (.roll 5 (by norm_num) hn hret) <|
    .cons hma5 <| .cons hma10 <| .cons hma20 <| .cons (.full hroc) <|
    .cons (.rollingStd sqrt 10 (by norm_num) hret) <| .cons (.rollingStd sqrt 20 le_rfl hret) <|
    .cons (.map_some (fun value => (value - ((50 : ℕ) : K)) / ((50 : ℕ) : K)) hrsi) <|
    .cons hvolz .nil
  obtain ⟨hX₁, hX₂⟩ := columnStack_agree hcolumns
  refine ⟨ret₁, ret₂, _, _, ?_, ?_, hret, hcolumns⟩
  · simp only [buildFeatures, h.left, hratios₁, hret₁, hma5₁, hma10₁, hma20₁, hchanges₁, hrsi₁,
      hvolz₁, bind, Except.bind, hX₁]
    rfl
  · simp only [buildFeatures, h.right, hratios₂, hret₂, hma5₂, hma10₂, hma20₂, hchanges₂, hrsi₂,
      hvolz₂, bind, Except.bind, hX₂]
    rfl

namespace Features

omit [LinearOrder K] in
/-- The last row is not valid, and the others are where no column is NaN. -/
theorem mem_vidx_ofColumns {ret : List K} {columns : List (List (Option K))} {j : ℕ} :
    j ∈ (ofColumns n ret columns).vidx ↔
      j + 1 < n ∧ ∀ column ∈ columns, (column.getD j none).isSome := by
  rw [mem_vidx]
  simp only [ofColumns]
  by_cases hj : j + 1 < n
  · rw [List.getD_append _ _ _ _ (by simp; omega), List.getD_eq_getElem _ _ (by simp; omega)]
    simp [List.getElem_dropLast, hj]
  · rw [List.getD_append_right _ _ _ _ (by simp; omega)]
    simp [hj]

/-- Valid rows have all their windows behind them, and a row after them. -/
theorem le_of_mem_vidx {sqrt : K → K} {F : Features K} (hF : buildFeatures sqrt xs ys = .ok F)
    {j : ℕ} (hj : j ∈ F.vidx) : 20 ≤ j ∧ j + 1 < xs.length := by
  obtain ⟨ret, columns, rfl, hret, hmem⟩ := exists_columns hF
  obtain ⟨hlt, hcolumns⟩ := mem_vidx_ofColumns.mp hj
  have hstarts := starts_rollingStd sqrt 20 hret
  exact ⟨(hstarts.isSome_iff j (by omega)).mp (hcolumns _ hmem), hlt⟩

omit [LinearOrder K] in
/-- Columns that agree make rows that agree. -/
theorem RowsAgree.ofColumns {ret₁ ret₂ : List K} {columns₁ columns₂ : List (List (Option K))}
    {i : ℕ} (hret : Agree n (i + 1) ret₁ ret₂)
    (hcolumns : List.Forall₂ (ColumnAgree n (i + 1)) columns₁ columns₂)
    (hwindow : ∀ j ∈ (ofColumns n ret₁ columns₁).vidx, 20 ≤ j ∧ j + 1 < n) :
    RowsAgree i (.ofColumns n ret₁ columns₁) (.ofColumns n ret₂ columns₂) where
  valid := by
    have hrows : ((List.range n).map fun j => columns₁.map fun column => column.getD j none).map
          (fun row => row.all Option.isSome) =
        ((List.range n).map fun j => columns₂.map fun column => column.getD j none).map
          fun row => row.all Option.isSome := by
      rw [List.map_map, List.map_map]
      exact List.map_congr_left fun j hj => isSome_row_eq hcolumns (List.mem_range.mp hj)
    simp only [Features.ofColumns, hrows]
  X j hj hi := by
    obtain ⟨hle, hlt⟩ := hwindow j hj
    have hrow := row_eq hcolumns hle (Nat.lt_succ_of_le hi)
    simp only [Features.ofColumns]
    rw [List.getElem?_map, List.getElem?_map, List.getElem?_range (by omega), Option.map_some,
      Option.map_some, hrow]
  -- the label of row `j` is the return of bar `j + 1`, which is within the agreement
  y j hj hi := by
    obtain ⟨hle, hlt⟩ := hwindow j hj
    obtain ⟨h₁, h₂, hentries⟩ := Agree.iff_getElem?.mp hret
    have hentry := hentries (1 + j) (by omega)
    simp only [Features.ofColumns]
    rw [List.getElem?_append_left (by simp; omega), List.getElem?_append_left (by simp; omega),
      List.getElem?_drop, List.getElem?_drop, hentry]

end Features

/-- The valid rows are those from the longest window on, except the last one. -/
theorem exists_vidx_eq (sqrt : K → K) (history : History K) (hn : 20 < history.close.length) :
    ∃ F, buildFeatures sqrt history.close history.vols = .ok F ∧
      F.vidx = List.range' 20 (history.close.length - 21) := by
  have hvols := Agree.refl history.vols (0 + 1)
  rw [history.length_vols] at hvols
  obtain ⟨_, _, _, _, hbuild, _, _, hcolumns⟩ :=
    buildFeatures_agree sqrt hn (Agree.refl history.close _) hvols
  refine ⟨_, hbuild, ?_⟩
  -- both lists are strictly increasing, so it is enough to compare their members
  refine List.Pairwise.eq_of_mem_iff (List.pairwise_lt_range.filter _) List.pairwise_lt_range' ?_
  intro j
  rw [List.mem_range'_1]
  constructor
  · intro hj
    have hwindow := Features.le_of_mem_vidx hbuild hj
    omega
  · rintro ⟨hle, hlt⟩
    refine Features.mem_vidx_ofColumns.mpr ⟨by omega, fun column hcolumn => ?_⟩
    obtain ⟨first, hfirst, hstarts⟩ := exists_starts_of_mem hcolumns hcolumn
    exact (hstarts.isSome_iff j (by omega)).mpr (hfirst.trans hle)

/-- Two histories of the same length that agree as far as a row `i` from the first test row on have
the same valid rows, the same valid rows of features as far as `i`, and the same forest; the
predictions and positions in the test rows as far as `i` are the same. -/
theorem predictor_no_lookahead {σ : Type} (sqrt : K → K) (rng : Rng σ) (params : ForestParams)
    (history₁ history₂ : History K) (i first : ℕ) (F₁ : Features K)
    (hlength : history₁.close.length = history₂.close.length)
    (hclose : ∀ j ≤ i, history₁.close[j]? = history₂.close[j]?)
    (hvols : ∀ j ≤ i, history₁.vols[j]? = history₂.vols[j]?)
    (hF₁ : buildFeatures sqrt history₁.close history₁.vols = .ok F₁)
    (hfirst : F₁.testRows.head? = some first) (hi : first ≤ i) :
    ∃ F₂, buildFeatures sqrt history₂.close history₂.vols = .ok F₂ ∧
      F₁.valid = F₂.valid ∧
      (∀ j ≤ i, F₁.valid[j]? = some true → F₁.X[j]? = F₂.X[j]?) ∧
      F₁.forest rng params = F₂.forest rng params ∧
      F₁.testRows = F₂.testRows ∧
      ∀ t row : ℕ, F₁.testRows[t]? = some row → row ≤ i →
        (F₁.pred rng params)[t]? = (F₂.pred rng params)[t]? ∧
        (F₁.pos rng params)[t]? = (F₂.pos rng params)[t]? := by
  -- a valid row needs more than twenty bars
  have hmem : first ∈ F₁.vidx := List.mem_of_mem_drop (List.mem_of_head? hfirst)
  have hn : 20 < history₁.close.length := by
    have hwindow := Features.le_of_mem_vidx hF₁ hmem
    omega
  have hcloses : Agree history₁.close.length (i + 1) history₁.close history₂.close :=
    Agree.iff_getElem?.mpr ⟨rfl, hlength.symm, fun j hj => hclose j (Nat.le_of_lt_succ hj)⟩
  have hvolumes : Agree history₁.close.length (i + 1) history₁.vols history₂.vols :=
    Agree.iff_getElem?.mpr ⟨history₁.length_vols, history₂.length_vols.trans hlength.symm,
      fun j hj => hvols j (Nat.le_of_lt_succ hj)⟩
  obtain ⟨ret₁, ret₂, columns₁, columns₂, hbuild₁, hbuild₂, hret, hcolumns⟩ :=
    buildFeatures_agree sqrt hn hcloses hvolumes
  obtain rfl : F₁ = .ofColumns _ ret₁ columns₁ := Except.ok.inj (hF₁.symm.trans hbuild₁)
  have hrows := Features.RowsAgree.ofColumns hret hcolumns fun j hj =>
    Features.le_of_mem_vidx hF₁ hj
  have hforest := hrows.forest_eq rng params hfirst hi
  refine ⟨_, hbuild₂, hrows.valid, fun j hj hvalid => ?_, hforest, ?_, fun t row hrow hle => ?_⟩
  · refine hrows.X j (Features.mem_vidx.mpr ?_) hj
    rw [List.getD_eq_getElem?_getD, hvalid, Option.getD_some]
  · unfold Features.testRows
    rw [hrows.vidx_eq, hrows.split_eq]
  · have hpred := hrows.pred_eq rng params hforest hrow hle
    refine ⟨hpred, ?_⟩
    simp only [Features.pos, positions, List.getElem?_map, hpred]

/-- A history of closes and volumes of one whose last bar may differ. -/
def lastBar [IsStrictOrderedRing K] (n : ℕ) (value : K) (hvalue : 0 < value) : History K where
  close := List.replicate n 1 ++ [value]
  vols := List.replicate n 1 ++ [value]
  length_vols := rfl
  close_pos price hprice := by
    rcases List.mem_append.mp hprice with hmem | hmem
    · exact List.eq_of_mem_replicate hmem ▸ one_pos
    · exact List.mem_singleton.mp hmem ▸ hvalue
  vols_pos volume hvolume := by
    rcases List.mem_append.mp hvolume with hmem | hmem
    · exact List.eq_of_mem_replicate hmem ▸ one_pos
    · exact List.mem_singleton.mp hmem ▸ hvalue

/-- A generator that draws the same rows and features for every tree. -/
def constRng : Rng Unit where
  defaultRng _ := ()
  integers _ _ size := (List.replicate size 0, ())
  choice _ _ size := (List.range size, ())

/-- The forest of `predict_returns` by default. -/
def defaultParams : ForestParams where
  nEstimators := 80
  maxDepth := 6
  seed := 42

/-- Two series that differ on the last bar only. -/
theorem predictor_no_lookahead_lastBar :
    ∃ F₁ F₂ : Features ℝ,
      buildFeatures Real.sqrt (List.replicate 29 1 ++ [1]) (List.replicate 29 1 ++ [1]) = .ok F₁ ∧
      buildFeatures Real.sqrt (List.replicate 29 1 ++ [2]) (List.replicate 29 1 ++ [2]) = .ok F₂ ∧
      F₁.testRows = [26, 27, 28] ∧ F₁.testRows = F₂.testRows ∧
      F₁.forest constRng defaultParams = F₂.forest constRng defaultParams ∧
      (F₁.pos constRng defaultParams)[2]? = (F₂.pos constRng defaultParams)[2]? := by
  obtain ⟨F₁, hF₁, hvidx⟩ := exists_vidx_eq Real.sqrt (lastBar 29 1 one_pos) (by simp [lastBar])
  have htest : F₁.testRows = [26, 27, 28] := by
    simp only [Features.testRows, Features.split, Features.Xv, hvidx, lastBar, List.length_map,
      List.length_append, List.length_replicate, List.length_range']
    rfl
  have hagree : ∀ j ≤ 28, (List.replicate 29 (1 : ℝ) ++ [1])[j]? =
      (List.replicate 29 (1 : ℝ) ++ [2])[j]? := fun j hj => by
    rw [List.getElem?_append_left (by simp; omega), List.getElem?_append_left (by simp; omega)]
  obtain ⟨F₂, hF₂, -, -, hforest, hrows, hpred⟩ :=
    predictor_no_lookahead Real.sqrt constRng defaultParams (lastBar 29 1 one_pos)
      (lastBar 29 2 two_pos) 28 26 F₁ rfl hagree hagree hF₁ (by rw [htest]; rfl) (by norm_num)
  have hlast : F₁.testRows[2]? = some 28 := by
    rw [htest]
    rfl
  exact ⟨F₁, F₂, hF₁, hF₂, htest, hrows, hforest, (hpred 2 28 hlast le_rfl).2⟩

end Features

end TradingSimulator.ReturnPredictor
