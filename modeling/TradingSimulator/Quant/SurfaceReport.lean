import TradingSimulator.Library.Clustering
import TradingSimulator.Library.Interpolation
import TradingSimulator.Library.Rounding
import TradingSimulator.Quant.VolForecast
import TradingSimulator.Quant.VolSurface
import Mathlib.Analysis.SpecialFunctions.Log.Basic
import Mathlib.Analysis.Real.Pi.Bounds

/-!
# The displayed surface and its forecast

`build_vol_surface` and `build_vol_forecast` (`app/quant/vol_surface.py`), in exact arithmetic, with
the elementary functions and the quote noise as parameters. The market prices are inverted by a
damped and clamped Newton iteration, smoothed, rounded and interpolated at the spot.

Whatever the noise and however far the iteration has come, every volatility that is shown is between
0.1 and 500 percent, the reported range is exact, and the values at the money lie in it
(`buildVolSurface_spec`). The forecast shows two such surfaces, unless the level it tends to is not
positive, and its bands contain what they are the bands of (`buildVolForecast_spec`).
-/

namespace TradingSimulator.VolSurface

open Interpolation Rounding

/-- The functions and the constant that are taken from numpy and `math`. -/
structure Functions (K : Type) where
  exp : K → K
  log : K → K
  sqrt : K → K
  pi : K

section Definitions

variable {K : Type} [Field K] [LinearOrder K] (fn : Functions K)

/-- A decimal literal: `digits` without the point, of which the last `d` are decimals. -/
def literal (digits : ℤ) (d : ℕ) : K := (digits : K) / ((10 : ℕ) : K) ^ d

/-- `_erf`. -/
def erf (x : K) : K :=
  let s : K := if 0 < x then 1 else if x < 0 then -1 else 0
  let a := |x|
  let t := 1 / (1 + literal 3275911 7 * a)
  let y := 1 - ((((literal 1061405429 9 * t - literal 1453152027 9) * t + literal 1421413741 9) * t
    - literal 284496736 9) * t + literal 254829592 9) * t * fn.exp (-a * a)
  s * y

/-- `_ncdf`. -/
def ncdf (x : K) : K := literal 5 1 * (1 + erf fn (x / fn.sqrt ((2 : ℕ) : K)))

/-- `_npdf`. -/
def npdf (x : K) : K :=
  1 / fn.sqrt (((2 : ℕ) : K) * fn.pi) * fn.exp (-literal 5 1 * x * x)

/-- `d1` of `_bs_call` and of `_vega`. -/
def d1 (S k T r sig : K) : K :=
  (fn.log (S / k) + (r + literal 5 1 * sig * sig) * T) / (sig * fn.sqrt T)

/-- `_bs_call`. -/
def bsCall (S k T r sig : K) : K :=
  S * ncdf fn (d1 fn S k T r sig) -
    k * fn.exp (-r * T) * ncdf fn (d1 fn S k T r sig - sig * fn.sqrt T)

/-- `_vega`. -/
def vega (S k T r sig : K) : K := S * npdf fn (d1 fn S k T r sig) * fn.sqrt T

/-- The parameters of `build_vol_surface`. -/
structure SurfaceParams (K : Type) where
  s : K
  r : K
  baseVol : K
  skew : K
  curv : K
  term : K
  width : K
  maxT : K

/-- The defaults of `build_vol_surface`. -/
def defaultParams : SurfaceParams K where
  s := (100 : ℕ)
  r := literal 4 2
  baseVol := literal 22 2
  skew := literal (-16) 2
  curv := literal 7 1
  term := literal 5 2
  width := literal 52 2
  maxT := (2 : ℕ)

variable {m n : ℕ}

/-- One pass of the loop in `_implied_vol`: the differences to the prices, and the volatilities
after a damped step. -/
def newtonPass (P : Matrix (Fin (m + 1)) (Fin (n + 1)) K) (S : K) (strikes : Fin (n + 1) → K)
    (expiries : Fin (m + 1) → K) (r : K) (sig : Matrix (Fin (m + 1)) (Fin (n + 1)) K) :
    Matrix (Fin (m + 1)) (Fin (n + 1)) K × Matrix (Fin (m + 1)) (Fin (n + 1)) K :=
  let diff := fun i j => bsCall fn S (strikes j) (expiries i) r (sig i j) - P i j
  let step := fun i j =>
    clip (diff i j / max (vega fn S (strikes j) (expiries i) r (sig i j)) (literal 1 8))
      (-literal 5 1) (literal 5 1)
  (diff, fun i j => clip (sig i j - step i j) (literal 1 3) ((5 : ℕ) : K))

/-- The loop in `_implied_vol`, which stops when every difference is small. -/
def newton (P : Matrix (Fin (m + 1)) (Fin (n + 1)) K) (S : K) (strikes : Fin (n + 1) → K)
    (expiries : Fin (m + 1) → K) (r : K) :
    ℕ → Matrix (Fin (m + 1)) (Fin (n + 1)) K → Matrix (Fin (m + 1)) (Fin (n + 1)) K
  | 0, sig => sig
  | iters + 1, sig =>
    let (diff, next) := newtonPass fn P S strikes expiries r sig
    if ∀ i j, |diff i j| < literal 1 9 then next else newton P S strikes expiries r iters next

/-- `_implied_vol`. -/
def impliedVol (P : Matrix (Fin (m + 1)) (Fin (n + 1)) K) (S : K) (strikes : Fin (n + 1) → K)
    (expiries : Fin (m + 1) → K) (r : K) : Matrix (Fin (m + 1)) (Fin (n + 1)) K :=
  newton fn P S strikes expiries r 60 fun _ _ => literal 2 1

/-! ### The surface -/

/-- `K`. -/
def strikes (p : SurfaceParams K) (j : Fin (n + 1)) : K :=
  p.s * linspace (1 - p.width) (1 + p.width) j

/-- `T`. -/
def expiries (p : SurfaceParams K) (i : Fin (m + 1)) : K :=
  linspace (1 / ((12 : ℕ) : K)) p.maxT i

/-- `true_iv`. -/
def trueIv (p : SurfaceParams K) (i : Fin (m + 1)) (j : Fin (n + 1)) : K :=
  let t := expiries p i
  let kk := fn.log (strikes p j / p.s)
  let atm := p.baseVol + p.term * (fn.sqrt t - 1)
  let skewT := p.skew / (1 + literal 15 1 * t)
  let curvT := p.curv / (1 + ((2 : ℕ) : K) * t)
  clip (atm + skewT * kk + curvT * kk * kk) (literal 3 2) (literal 25 1)

/-- `price`, where `noise` are the draws of `normal(0, 0.0042)`. -/
def quotedPrice (noise : Matrix (Fin (m + 1)) (Fin (n + 1)) K) (p : SurfaceParams K) :
    Matrix (Fin (m + 1)) (Fin (n + 1)) K := fun i j =>
  let price := bsCall fn p.s (strikes p j) (expiries p i) p.r (trueIv fn p i j) * (1 + noise i j)
  let intrinsic := max (p.s - strikes p j * fn.exp (-p.r * expiries p i)) 0
  clip price (intrinsic + literal 1 6) (p.s - literal 1 6)

/-- `implied`, after the smoothing. -/
def implied (noise : Matrix (Fin (m + 1)) (Fin (n + 1)) K) (p : SurfaceParams K) :
    Matrix (Fin (m + 1)) (Fin (n + 1)) K :=
  smooth (impliedVol fn (quotedPrice fn noise p) p.s (strikes p) (expiries p) p.r)

/-- `np.interp(x, K, row)`. -/
def interpAt (p : SurfaceParams K) (row : Fin (n + 1) → K) (x : K) : Option K :=
  interp x (List.ofFn fun j => (strikes p j, row j))

/-- `j1`, the row of the expiry that is nearest to a year. -/
def nearestYear (p : SurfaceParams K) : Fin (m + 1) :=
  ⟨Clustering.argmin (List.ofFn fun i : Fin (m + 1) => |expiries p i - 1|), by
    simpa using Clustering.argmin_lt
      (l := List.ofFn fun i : Fin (m + 1) => |expiries p i - 1|) (by simp)⟩

/-- An entry of `atm_term`. -/
structure AtmPoint (K : Type) where
  t : K
  iv : K

/-- What `build_vol_surface` answers. -/
structure Surface (m n : ℕ) (K : Type) where
  spot : K
  r : K
  strikes : Fin (n + 1) → K
  moneyness : Fin (n + 1) → K
  expiries : Fin (m + 1) → K
  iv : Matrix (Fin (m + 1)) (Fin (n + 1)) K
  zmin : K
  zmax : K
  atmVol : K
  skew1y : K
  atmTerm : List (AtmPoint K)

variable [FloorRing K]

/-- `iv_pct`. -/
def ivPct (noise : Matrix (Fin (m + 1)) (Fin (n + 1)) K) (p : SurfaceParams K) :
    Matrix (Fin (m + 1)) (Fin (n + 1)) K := fun i j =>
  roundTo 3 (implied fn noise p i j * (100 : ℕ))

/-- `grid.min()`. -/
def gridMin (grid : Matrix (Fin (m + 1)) (Fin (n + 1)) K) : K :=
  Finset.univ.inf' Finset.univ_nonempty fun ij : Fin (m + 1) × Fin (n + 1) => grid ij.1 ij.2

/-- `grid.max()`. -/
def gridMax (grid : Matrix (Fin (m + 1)) (Fin (n + 1)) K) : K :=
  Finset.univ.sup' Finset.univ_nonempty fun ij : Fin (m + 1) × Fin (n + 1) => grid ij.1 ij.2

/-- The entry of `atm_term` for an expiry. -/
def atmPoint (noise : Matrix (Fin (m + 1)) (Fin (n + 1)) K) (p : SurfaceParams K)
    (i : Fin (m + 1)) : Option (AtmPoint K) :=
  (interpAt p (implied fn noise p i) p.s).map fun ivAtm =>
    { t := roundTo 3 (expiries p i), iv := roundTo 3 (ivAtm * (100 : ℕ)) }

/-- `build_vol_surface`, `none` for `invalid_params`. -/
def buildVolSurface (noise : Matrix (Fin (m + 1)) (Fin (n + 1)) K) (p : SurfaceParams K) :
    Option (Surface m n K) :=
  if p.s ≤ 0 ∨ p.baseVol ≤ 0 then none
  else do
    let implied := implied fn noise p
    let iv := ivPct fn noise p
    let j1 := nearestYear p
    let atmTerm ← (List.finRange (m + 1)).mapM (atmPoint fn noise p)
    let ivLow ← interpAt p (implied j1) (literal 90 2 * p.s)
    let ivHigh ← interpAt p (implied j1) (literal 110 2 * p.s)
    let ivAtm ← interpAt p (implied j1) p.s
    some
      { spot := roundTo 2 p.s
        r := roundTo 4 p.r
        strikes := fun j => roundTo 2 (strikes p j)
        moneyness := fun j => roundTo 1 (strikes p j / p.s * (100 : ℕ))
        expiries := fun i => roundTo 3 (expiries p i)
        iv
        zmin := gridMin iv
        zmax := gridMax iv
        atmVol := roundTo 2 (ivAtm * (100 : ℕ))
        skew1y := roundTo 2 (ivLow * (100 : ℕ) - ivHigh * (100 : ℕ))
        atmTerm }

/-! ### The forecast -/

/-- An entry of `atm_term` in the forecast. -/
structure ForecastAtm (K : Type) where
  t : K
  current : K
  forecast : K
  lo : K
  hi : K

/-- An entry of `level_path`. -/
structure LevelPoint (K : Type) where
  day : ℕ
  level : K
  lo : K
  hi : K

/-- What `build_vol_forecast` answers. -/
structure SurfaceForecast (m n : ℕ) (K : Type) where
  horizon : ℕ
  spot : K
  strikes : Fin (n + 1) → K
  moneyness : Fin (n + 1) → K
  expiries : Fin (m + 1) → K
  zmin : K
  zmax : K
  currentIv : Matrix (Fin (m + 1)) (Fin (n + 1)) K
  forecastIv : Matrix (Fin (m + 1)) (Fin (n + 1)) K
  atmTerm : List (ForecastAtm K)
  levelPath : List (LevelPoint K)
  currentAtm : K
  forecastAtm : K
  band : K
  atmDelta : K
  skewDelta : K
  termDelta : K

/-- Why there is no forecast. -/
inductive ForecastError where
  /-- The status of the surface of today. -/
  | invalidParams
  /-- The surface of the forecast has a status only. -/
  | keyError
  /-- A path has no last day. -/
  | indexError
  deriving DecidableEq

/-- `horizon`, clamped. -/
def clampHorizon (horizon : ℤ) : ℕ := (max 1 (min horizon 30)).toNat

/-- The entry of `level_path` for a level with its band. -/
def levelPoint (day : ℕ) (level band : K) : LevelPoint K where
  day := day
  level := roundTo 3 (level * (100 : ℕ))
  lo := roundTo 3 ((level - band) * (100 : ℕ))
  hi := roundTo 3 ((level + band) * (100 : ℕ))

/-- The entry of `atm_term` for two entries of the surfaces. -/
def forecastAtm (bandVol : K) (c0 f0 : AtmPoint K) : ForecastAtm K where
  t := c0.t
  current := c0.iv
  forecast := f0.iv
  lo := roundTo 3 (f0.iv - bandVol)
  hi := roundTo 3 (f0.iv + bandVol)

/-- The surfaces of a forecast leave the grid at its defaults. -/
def onDefaultGrid (p : SurfaceParams K) : SurfaceParams K :=
  { p with width := defaultParams.width, maxT := defaultParams.maxT }

omit [LinearOrder K] [FloorRing K] in
@[simp] theorem onDefaultGrid_baseVol (p : SurfaceParams K) :
    (onDefaultGrid p).baseVol = p.baseVol := rfl

omit [LinearOrder K] [FloorRing K] in
@[simp] theorem onDefaultGrid_skew (p : SurfaceParams K) : (onDefaultGrid p).skew = p.skew := rfl

omit [LinearOrder K] [FloorRing K] in
@[simp] theorem onDefaultGrid_term (p : SurfaceParams K) : (onDefaultGrid p).term = p.term := rfl

/-- `build_vol_forecast`, where `normal seed sigma` are the draws of the histories. -/
def buildVolForecast (normal : ℕ → K → ℕ → K) (noise : Matrix (Fin (m + 1)) (Fin (n + 1)) K)
    (p : SurfaceParams K) (horizon : ℤ) : Except ForecastError (SurfaceForecast m n K) :=
  let horizon := clampHorizon horizon
  let p := onDefaultGrid p
  match buildVolSurface fn noise p with
  | none => .error .invalidParams
  | some cur =>
    let lvl := VolForecast.forecastFactor fn.sqrt normal p.baseVol (literal 20 2) (literal 12 3)
      horizon 11
    let skw := VolForecast.forecastFactor fn.sqrt normal p.skew (literal (-13) 2) (literal 10 3)
      horizon 22
    let trm := VolForecast.forecastFactor fn.sqrt normal p.term (literal 4 2) (literal 6 3)
      horizon 33
    match lvl.1.getLast?, skw.1.getLast?, trm.1.getLast?, lvl.2.getLast? with
    | some baseF, some skewF, some termF, some lastBand =>
      match buildVolSurface fn noise { p with baseVol := baseF, skew := skewF, term := termF } with
      | none => .error .keyError
      | some fc =>
        let bandVol := lastBand * (100 : ℕ)
        .ok
          { horizon
            spot := cur.spot
            strikes := cur.strikes
            moneyness := cur.moneyness
            expiries := cur.expiries
            zmin := min cur.zmin fc.zmin
            zmax := max cur.zmax fc.zmax
            currentIv := cur.iv
            forecastIv := fc.iv
            atmTerm := List.zipWith (forecastAtm bandVol) cur.atmTerm fc.atmTerm
            levelPath := levelPoint 0 p.baseVol 0 ::
              (lvl.1.zip lvl.2).mapIdx fun k factor => levelPoint (k + 1) factor.1 factor.2
            currentAtm := cur.atmVol
            forecastAtm := fc.atmVol
            band := roundTo 2 bandVol
            atmDelta := roundTo 2 (fc.atmVol - cur.atmVol)
            skewDelta := roundTo 2 (fc.skew1y - cur.skew1y)
            termDelta := roundTo 2 ((termF - p.term) * (100 : ℕ)) }
    | _, _, _, _ => .error .indexError

end Definitions

/-! ### Ranges -/

section Ranges

variable {K : Type} [Field K] [LinearOrder K] [IsStrictOrderedRing K] {fn : Functions K} {m n : ℕ}

/-- The volatilities that the iteration is clamped to. -/
def ivRange : Set K := Set.Icc (literal 1 3) ((5 : ℕ) : K)

omit [LinearOrder K] [IsStrictOrderedRing K] in
theorem literal_eq (digits : ℤ) (d : ℕ) : (literal digits d : K) = (digits : K) / 10 ^ d := by
  simp [literal]

/-- Every pass ends in the clamp. -/
theorem newtonPass_mem (fn : Functions K) (P : Matrix (Fin (m + 1)) (Fin (n + 1)) K) (S : K)
    (strikes : Fin (n + 1) → K) (expiries : Fin (m + 1) → K) (r : K)
    (sig : Matrix (Fin (m + 1)) (Fin (n + 1)) K)
    (i : Fin (m + 1)) (j : Fin (n + 1)) :
    (newtonPass fn P S strikes expiries r sig).2 i j ∈ (ivRange : Set K) :=
  clip_mem (by norm_num [literal_eq])

/-- However many passes there are and wherever they stop. -/
theorem newton_mem (P : Matrix (Fin (m + 1)) (Fin (n + 1)) K) (S : K) (strikes : Fin (n + 1) → K)
    (expiries : Fin (m + 1) → K) (r : K) (iters : ℕ)
    {sig : Matrix (Fin (m + 1)) (Fin (n + 1)) K} (hsig : ∀ i j, sig i j ∈ (ivRange : Set K))
    (i : Fin (m + 1)) (j : Fin (n + 1)) :
    newton fn P S strikes expiries r iters sig i j ∈ (ivRange : Set K) := by
  induction iters generalizing sig with
  | zero => exact hsig i j
  | succ iters ih =>
    have hnext := newtonPass_mem fn P S strikes expiries r sig
    rw [newton]
    dsimp only
    split_ifs
    · exact hnext i j
    · exact ih hnext

/-- A smoothed grid stays in the interval of the grid. -/
theorem smooth_mem {grid : Matrix (Fin (m + 1)) (Fin (n + 1)) K} {lo hi : K}
    (hgrid : ∀ i j, grid i j ∈ Set.Icc lo hi) (i : Fin (m + 1)) (j : Fin (n + 1)) :
    smooth grid i j ∈ Set.Icc lo hi := by
  obtain ⟨hle, hge⟩ := smooth_mem_range grid i j
  constructor
  · exact (Finset.le_inf' _ _ fun p _ => (hgrid p.1 p.2).1).trans hle
  · exact hge.trans (Finset.sup'_le _ _ fun p _ => (hgrid p.1 p.2).2)

theorem implied_mem (noise : Matrix (Fin (m + 1)) (Fin (n + 1)) K) (p : SurfaceParams K)
    (i : Fin (m + 1)) (j : Fin (n + 1)) : implied fn noise p i j ∈ (ivRange : Set K) := by
  refine smooth_mem (fun i j => newton_mem _ _ _ _ _ 60 (fun _ _ => ?_) i j) i j
  constructor <;> norm_num [literal_eq]

/-- What is read off a row is between two of its values. -/
theorem exists_interpAt (p : SurfaceParams K) {row : Fin (n + 1) → K} {lo hi : K}
    (hrow : ∀ j, row j ∈ Set.Icc lo hi) (x : K) :
    ∃ y, interpAt p row x = some y ∧ y ∈ Set.Icc lo hi := by
  refine exists_interp (by simp) fun point hpoint => ?_
  obtain ⟨j, rfl⟩ := (List.mem_ofFn' _ _).mp hpoint
  exact hrow j

variable [FloorRing K]

/-- A volatility in percent is between 0.1 and 500, however it is rounded. -/
theorem roundTo_percent_mem {d : ℕ} (hd : 1 ≤ d) {iv : K} (hiv : iv ∈ (ivRange : Set K)) :
    roundTo d (iv * (100 : ℕ)) ∈ Set.Icc (1 / 10 : K) 500 := by
  obtain ⟨e, rfl⟩ := Nat.exists_eq_add_of_le hd
  -- both ends have at most one decimal, so they are rounded numbers
  have hlo : roundTo (1 + e) (1 / 10 : K) = 1 / 10 := by
    refine roundTo_eq_self (n := 10 ^ e) ?_
    rw [pow_add]
    push_cast
    ring
  have hhi : roundTo (1 + e) (500 : K) = 500 := by
    refine roundTo_eq_self (n := 500 * 10 ^ (1 + e)) ?_
    push_cast
    ring
  obtain ⟨hge, hle⟩ := hiv
  rw [literal_eq] at hge
  constructor
  · rw [← hlo]
    apply roundTo_mono
    push_cast at hge ⊢
    linarith
  · rw [← hhi]
    apply roundTo_mono
    push_cast at hle ⊢
    linarith

omit [Field K] [IsStrictOrderedRing K] [FloorRing K] in
/-- `grid.min()` is one of the values, and the least. -/
theorem isLeast_gridMin (grid : Matrix (Fin (m + 1)) (Fin (n + 1)) K) :
    IsLeast (Set.range fun ij : Fin (m + 1) × Fin (n + 1) => grid ij.1 ij.2) (gridMin grid) := by
  obtain ⟨ij, -, hij⟩ := Finset.exists_mem_eq_inf' Finset.univ_nonempty
    fun ij : Fin (m + 1) × Fin (n + 1) => grid ij.1 ij.2
  refine ⟨⟨ij, hij.symm⟩, ?_⟩
  rintro _ ⟨kl, rfl⟩
  exact Finset.inf'_le _ (Finset.mem_univ kl)

omit [Field K] [IsStrictOrderedRing K] [FloorRing K] in
/-- `grid.max()` is one of the values, and the greatest. -/
theorem isGreatest_gridMax (grid : Matrix (Fin (m + 1)) (Fin (n + 1)) K) :
    IsGreatest (Set.range fun ij : Fin (m + 1) × Fin (n + 1) => grid ij.1 ij.2) (gridMax grid) := by
  obtain ⟨ij, -, hij⟩ := Finset.exists_mem_eq_sup' Finset.univ_nonempty
    fun ij : Fin (m + 1) × Fin (n + 1) => grid ij.1 ij.2
  refine ⟨⟨ij, hij.symm⟩, ?_⟩
  rintro _ ⟨kl, rfl⟩
  exact Finset.le_sup' (fun ij : Fin (m + 1) × Fin (n + 1) => grid ij.1 ij.2) (Finset.mem_univ kl)

/-- The entry of the term structure for an expiry lies in the reported range. -/
theorem exists_atmPoint (fn : Functions K) (noise : Matrix (Fin (m + 1)) (Fin (n + 1)) K)
    (p : SurfaceParams K) (i : Fin (m + 1)) :
    ∃ point, atmPoint fn noise p i = some point ∧ point.t = roundTo 3 (expiries p i) ∧
      roundTo 3 point.iv = point.iv ∧
      point.iv ∈ Set.Icc (gridMin (ivPct fn noise p)) (gridMax (ivPct fn noise p)) := by
  -- the row is between its least and its greatest value, and rounding is monotone
  obtain ⟨jlo, -, hlo⟩ := Finset.exists_mem_eq_inf' Finset.univ_nonempty (implied fn noise p i)
  obtain ⟨jhi, -, hhi⟩ := Finset.exists_mem_eq_sup' Finset.univ_nonempty (implied fn noise p i)
  have hrow : ∀ j, implied fn noise p i j ∈ Set.Icc (implied fn noise p i jlo)
      (implied fn noise p i jhi) := fun j =>
    ⟨hlo ▸ Finset.inf'_le (implied fn noise p i) (Finset.mem_univ j),
      hhi ▸ Finset.le_sup' (implied fn noise p i) (Finset.mem_univ j)⟩
  obtain ⟨y, hy, hge, hle⟩ := exists_interpAt p hrow p.s
  have hpoint : atmPoint fn noise p i =
      some { t := roundTo 3 (expiries p i), iv := roundTo 3 (y * (100 : ℕ)) } := by
    rw [atmPoint, hy, Option.map_some]
  refine ⟨_, hpoint, rfl, roundTo_roundTo 3 _, ?_, ?_⟩
  · refine ((isLeast_gridMin _).2 ⟨(i, jlo), rfl⟩).trans ?_
    exact roundTo_mono 3 (mul_le_mul_of_nonneg_right hge (Nat.cast_nonneg _))
  · refine le_trans ?_ ((isGreatest_gridMax _).2 ⟨(i, jhi), rfl⟩)
    exact roundTo_mono 3 (mul_le_mul_of_nonneg_right hle (Nat.cast_nonneg _))

end Ranges

/-! ### What is displayed -/

/-- A surface that can be displayed. -/
structure Surface.WellFormed {m n : ℕ} {K : Type} [Field K] [LinearOrder K] [FloorRing K]
    (surface : Surface m n K) : Prop where
  iv_mem : ∀ i j, surface.iv i j ∈ Set.Icc (1 / 10 : K) 500
  isLeast : IsLeast (Set.range fun ij : Fin (m + 1) × Fin (n + 1) => surface.iv ij.1 ij.2)
    surface.zmin
  isGreatest : IsGreatest (Set.range fun ij : Fin (m + 1) × Fin (n + 1) => surface.iv ij.1 ij.2)
    surface.zmax
  strikes_mono : Monotone surface.strikes
  expiries_mono : Monotone surface.expiries
  atmTerm_expiries : surface.atmTerm.map AtmPoint.t = List.ofFn surface.expiries
  atmTerm_mem : ∀ point ∈ surface.atmTerm,
    roundTo 3 point.iv = point.iv ∧ point.iv ∈ Set.Icc surface.zmin surface.zmax
  atmVol_mem : surface.atmVol ∈ Set.Icc (1 / 10 : K) 500

/-- A forecast that can be displayed: as many days as were asked for, at most thirty, both surfaces
in one range, and bands around what they are the bands of. -/
structure SurfaceForecast.WellFormed {m n : ℕ} {K : Type} [Field K] [LinearOrder K] (horizon : ℤ)
    (answer : SurfaceForecast m n K) : Prop where
  horizon_eq : (answer.horizon : ℤ) = max 1 (min horizon 30)
  range : 1 / 10 ≤ answer.zmin ∧ answer.zmax ≤ 500
  current_mem : ∀ i j, answer.currentIv i j ∈ Set.Icc answer.zmin answer.zmax
  forecast_mem : ∀ i j, answer.forecastIv i j ∈ Set.Icc answer.zmin answer.zmax
  atmTerm_expiries : answer.atmTerm.map ForecastAtm.t = List.ofFn answer.expiries
  atmTerm_mem : ∀ point ∈ answer.atmTerm, point.current ∈ Set.Icc answer.zmin answer.zmax ∧
    point.forecast ∈ Set.Icc answer.zmin answer.zmax ∧ point.forecast ∈ Set.Icc point.lo point.hi
  days : answer.levelPath.map LevelPoint.day = List.range (answer.horizon + 1)
  levels : ∀ point ∈ answer.levelPath, point.level ∈ Set.Icc point.lo point.hi

section Displayed

variable {K : Type} [Field K] [LinearOrder K] [IsStrictOrderedRing K] [FloorRing K]
  {fn : Functions K} {m n : ℕ}

/-- The entries of the term structure, one for every expiry. -/
theorem exists_atmTerm (fn : Functions K) (noise : Matrix (Fin (m + 1)) (Fin (n + 1)) K)
    (p : SurfaceParams K) (rows : List (Fin (m + 1))) :
    ∃ atmTerm, rows.mapM (atmPoint fn noise p) = some atmTerm ∧
      atmTerm.map AtmPoint.t = rows.map (fun i => roundTo 3 (expiries p i)) ∧
      ∀ point ∈ atmTerm, roundTo 3 point.iv = point.iv ∧
        point.iv ∈ Set.Icc (gridMin (ivPct fn noise p)) (gridMax (ivPct fn noise p)) := by
  induction rows with
  | nil => exact ⟨[], rfl, rfl, by simp⟩
  | cons i rows ih =>
    obtain ⟨atmTerm, hatmTerm, hexpiries, hmem⟩ := ih
    obtain ⟨point, hpoint, ht, hiv⟩ := exists_atmPoint fn noise p i
    refine ⟨point :: atmTerm, ?_, ?_, ?_⟩
    · rw [List.mapM_cons, hpoint, hatmTerm]
      rfl
    · rw [List.map_cons, List.map_cons, ht, hexpiries]
    · exact List.forall_mem_cons.mpr ⟨hiv, hmem⟩

omit [FloorRing K] in
/-- The logarithms are taken of positive numbers. -/
theorem strikes_pos {p : SurfaceParams K} (hs : 0 < p.s) (hwidth : 0 ≤ p.width)
    (hwidth' : p.width < 1) (j : Fin (n + 1)) : 0 < strikes p j := by
  have hmono : Monotone (linspace (1 - p.width) (1 + p.width) : Fin (n + 1) → K) :=
    linspace_mono (by linarith)
  have hle := hmono (Fin.zero_le j)
  rw [linspace_zero] at hle
  exact mul_pos hs ((sub_pos.mpr hwidth').trans_le hle)

omit [FloorRing K] in
/-- The square roots are taken of positive numbers. -/
theorem expiries_pos {p : SurfaceParams K} (hmaxT : 1 / ((12 : ℕ) : K) ≤ p.maxT)
    (i : Fin (m + 1)) : 0 < expiries p i := by
  have hle : linspace (1 / ((12 : ℕ) : K)) p.maxT 0 ≤ expiries p i :=
    linspace_mono hmaxT (Fin.zero_le i)
  rw [linspace_zero] at hle
  exact lt_of_lt_of_le (by norm_num) hle

/-- The surface of a positive spot and a positive volatility, on a grid that does not fall. -/
theorem exists_buildVolSurface (noise : Matrix (Fin (m + 1)) (Fin (n + 1)) K) {p : SurfaceParams K}
    (hs : 0 < p.s) (hbase : 0 < p.baseVol) (hwidth : 0 ≤ p.width)
    (hmaxT : 1 / ((12 : ℕ) : K) ≤ p.maxT) :
    ∃ surface, buildVolSurface fn noise p = some surface ∧ surface.WellFormed := by
  obtain ⟨atmTerm, hatmTerm, hexpiries, hmem⟩ :=
    exists_atmTerm fn noise p (List.finRange (m + 1))
  -- the row of the expiry nearest to one year, at three strikes
  have hrow : ∀ j, implied fn noise p (nearestYear p) j ∈ (ivRange : Set K) :=
    implied_mem noise p (nearestYear p)
  obtain ⟨ivLow, hlow, -⟩ := exists_interpAt p hrow (literal 90 2 * p.s)
  obtain ⟨ivHigh, hhigh, -⟩ := exists_interpAt p hrow (literal 110 2 * p.s)
  obtain ⟨ivAtm, hatm, hatmMem⟩ := exists_interpAt p hrow p.s
  have hrefused : ¬ (p.s ≤ 0 ∨ p.baseVol ≤ 0) := not_or.mpr ⟨hs.not_ge, hbase.not_ge⟩
  simp only [buildVolSurface, if_neg hrefused, hatmTerm, hlow, hhigh, hatm, Option.bind_eq_bind,
    Option.bind_some]
  refine ⟨_, rfl, ?_⟩
  exact
    { iv_mem := fun i j => roundTo_percent_mem (by decide) (implied_mem noise p i j)
      isLeast := isLeast_gridMin _
      isGreatest := isGreatest_gridMax _
      strikes_mono := fun j k hjk => roundTo_mono 2
        (mul_le_mul_of_nonneg_left (linspace_mono (by linarith) hjk) hs.le)
      expiries_mono := fun i k hik => roundTo_mono 3 (linspace_mono hmaxT hik)
      atmTerm_expiries := hexpiries.trans (List.ofFn_eq_map).symm
      atmTerm_mem := hmem
      atmVol_mem := roundTo_percent_mem (by decide) hatmMem }

/-- Whatever the noise, the surface of a positive spot and a positive volatility can be displayed.
The strikes and the expiries are positive, so that every elementary function has a value. -/
theorem buildVolSurface_spec (noise : Matrix (Fin (m + 1)) (Fin (n + 1)) K) {p : SurfaceParams K}
    (hs : 0 < p.s) (hbase : 0 < p.baseVol) (hwidth : 0 ≤ p.width) (hwidth' : p.width < 1)
    (hmaxT : 1 / ((12 : ℕ) : K) ≤ p.maxT) :
    (∀ j : Fin (n + 1), 0 < strikes p j) ∧ (∀ i : Fin (m + 1), 0 < expiries p i) ∧
      ∃ surface, buildVolSurface fn noise p = some surface ∧ surface.WellFormed :=
  ⟨strikes_pos hs hwidth hwidth', expiries_pos hmaxT,
    exists_buildVolSurface noise hs hbase hwidth hmaxT⟩

/-- The default surface without noise, at two strikes and two expiries. -/
theorem buildVolSurface_spec_default :
    (∀ j : Fin 2, 0 < strikes (defaultParams : SurfaceParams ℝ) j) ∧
      (∀ i : Fin 2, 0 < expiries (defaultParams : SurfaceParams ℝ) i) ∧
      ∃ surface : Surface 1 1 ℝ,
        buildVolSurface ⟨Real.exp, Real.log, Real.sqrt, Real.pi⟩ (fun _ _ => 0) defaultParams =
          some surface ∧ surface.WellFormed := by
  apply buildVolSurface_spec
  all_goals norm_num [defaultParams, literal_eq]

/-- A band of the level path is around its level. -/
theorem levelPoint_mem (day : ℕ) {level band : K} (hband : 0 ≤ band) :
    (levelPoint day level band).level ∈
      Set.Icc (levelPoint day level band).lo (levelPoint day level band).hi := by
  have hhundred : (0 : K) ≤ (100 : ℕ) := Nat.cast_nonneg _
  constructor
  · exact roundTo_mono 3 (mul_le_mul_of_nonneg_right (sub_le_self level hband) hhundred)
  · exact roundTo_mono 3 (mul_le_mul_of_nonneg_right (le_add_of_nonneg_right hband) hhundred)

/-- A band at the money is around a value that has its decimals. -/
theorem forecastAtm_mem {bandVol : K} (hband : 0 ≤ bandVol) (c0 : AtmPoint K) {f0 : AtmPoint K}
    (hrounded : roundTo 3 f0.iv = f0.iv) :
    (forecastAtm bandVol c0 f0).forecast ∈
      Set.Icc (forecastAtm bandVol c0 f0).lo (forecastAtm bandVol c0 f0).hi := by
  constructor
  · calc roundTo 3 (f0.iv - bandVol) ≤ roundTo 3 f0.iv := roundTo_mono 3 (sub_le_self _ hband)
      _ = f0.iv := hrounded
  · calc f0.iv = roundTo 3 f0.iv := hrounded.symm
      _ ≤ roundTo 3 (f0.iv + bandVol) := roundTo_mono 3 (le_add_of_nonneg_right hband)

theorem coe_clampHorizon (horizon : ℤ) : (clampHorizon horizon : ℤ) = max 1 (min horizon 30) := by
  rw [clampHorizon]
  omega

theorem one_le_clampHorizon (horizon : ℤ) : 1 ≤ clampHorizon horizon := by
  have hcoe := coe_clampHorizon horizon
  omega

/-- A forecast of a positive level that tends to a positive one is positive. -/
theorem forecast_pos {fit : VolForecast.Ar1 K} (hphi : 0 ≤ fit.phi ∧ fit.phi ≤ 1)
    (hmu : 0 < fit.mu) {current : K} (hcurrent : 0 < current) {horizon : ℕ} {level : K}
    (hlevel : level ∈ VolForecast.forecastMeans fit current horizon) : 0 < level := by
  obtain ⟨k, hk⟩ := List.mem_iff_getElem?.mp hlevel
  rw [VolForecast.getElem?_forecastMeans hk]
  have hpow : 0 ≤ fit.phi ^ (k + 1) := pow_nonneg hphi.1 _
  have hle : fit.phi ^ (k + 1) ≤ 1 := pow_le_one₀ hphi.1 hphi.2
  -- a mean of the two levels
  rcases hpow.lt_or_eq with hpow | hzero
  · nlinarith [mul_pos hcurrent hpow, mul_nonneg hmu.le (sub_nonneg.mpr hle)]
  · rw [← hzero]
    simpa using hmu

omit [IsStrictOrderedRing K] in
theorem Surface.WellFormed.le_zmin {surface : Surface m n K} (h : surface.WellFormed) :
    1 / 10 ≤ surface.zmin := by
  obtain ⟨ij, hij⟩ := h.isLeast.1
  exact hij ▸ (h.iv_mem ij.1 ij.2).1

omit [IsStrictOrderedRing K] in
theorem Surface.WellFormed.zmax_le {surface : Surface m n K} (h : surface.WellFormed) :
    surface.zmax ≤ 500 := by
  obtain ⟨ij, hij⟩ := h.isGreatest.1
  exact hij ▸ (h.iv_mem ij.1 ij.2).2

omit [IsStrictOrderedRing K] in
theorem Surface.WellFormed.iv_mem_range {surface : Surface m n K} (h : surface.WellFormed)
    (i : Fin (m + 1)) (j : Fin (n + 1)) : surface.iv i j ∈ Set.Icc surface.zmin surface.zmax :=
  ⟨h.isLeast.2 ⟨(i, j), rfl⟩, h.isGreatest.2 ⟨(i, j), rfl⟩⟩

omit [IsStrictOrderedRing K] in
theorem Surface.WellFormed.length_atmTerm {surface : Surface m n K} (h : surface.WellFormed) :
    surface.atmTerm.length = m + 1 := by
  simpa using congrArg List.length h.atmTerm_expiries

/-- The term structures of two surfaces, entry by entry. -/
theorem zipWith_forecastAtm {cur fc : Surface m n K} (hcur : cur.WellFormed) (hfc : fc.WellFormed)
    {bandVol : K} (hband : 0 ≤ bandVol) :
    (List.zipWith (forecastAtm bandVol) cur.atmTerm fc.atmTerm).map ForecastAtm.t =
        List.ofFn cur.expiries ∧
      ∀ point ∈ List.zipWith (forecastAtm bandVol) cur.atmTerm fc.atmTerm,
        point.current ∈ Set.Icc (min cur.zmin fc.zmin) (max cur.zmax fc.zmax) ∧
          point.forecast ∈ Set.Icc (min cur.zmin fc.zmin) (max cur.zmax fc.zmax) ∧
          point.forecast ∈ Set.Icc point.lo point.hi := by
  constructor
  · have hlength : cur.atmTerm.length ≤ fc.atmTerm.length := by
      rw [hcur.length_atmTerm, hfc.length_atmTerm]
    rw [← hcur.atmTerm_expiries, ← List.map_uncurry_zip_eq_zipWith, List.map_map]
    conv_rhs => rw [← List.map_fst_zip hlength, List.map_map]
    rfl
  · intro point hpoint
    rw [← List.map_uncurry_zip_eq_zipWith, List.mem_map] at hpoint
    obtain ⟨⟨c0, f0⟩, hmem, rfl⟩ := hpoint
    obtain ⟨hc0, hf0⟩ := List.of_mem_zip hmem
    obtain ⟨-, hclo, hchi⟩ := hcur.atmTerm_mem c0 hc0
    obtain ⟨hrounded, hflo, hfhi⟩ := hfc.atmTerm_mem f0 hf0
    exact ⟨⟨(min_le_left _ _).trans hclo, hchi.trans (le_max_left _ _)⟩,
      ⟨(min_le_right _ _).trans hflo, hfhi.trans (le_max_right _ _)⟩,
      forecastAtm_mem hband c0 hrounded⟩

/-- The path of the levels, with today in front. -/
theorem levelPath_spec (base : K) {means bands : List K} (hlength : means.length = bands.length)
    (hbands : ∀ band ∈ bands, 0 ≤ band) :
    (levelPoint 0 base 0 :: (means.zip bands).mapIdx fun k factor =>
        levelPoint (k + 1) factor.1 factor.2).map LevelPoint.day = List.range (means.length + 1) ∧
      ∀ point ∈ levelPoint 0 base 0 :: (means.zip bands).mapIdx fun k factor =>
        levelPoint (k + 1) factor.1 factor.2, point.level ∈ Set.Icc point.lo point.hi := by
  constructor
  · rw [List.map_cons, List.range_succ_eq_map]
    refine congrArg (0 :: ·) (List.ext_getElem (by simp [hlength]) fun k _ _ => ?_)
    simp [levelPoint]
  · refine List.forall_mem_cons.mpr ⟨levelPoint_mem 0 le_rfl, fun point hpoint => ?_⟩
    obtain ⟨k, hk, rfl⟩ := List.mem_mapIdx.mp hpoint
    exact levelPoint_mem _ (hbands _ (List.of_mem_zip (List.getElem_mem hk)).2)

/-- The line that is fitted to the history of the level. -/
def levelFit (fn : Functions K) (normal : ℕ → K → ℕ → K) (baseVol : K) : VolForecast.Ar1 K :=
  VolForecast.ar1Fit fn.sqrt (VolForecast.history
    ((List.range 120).map (normal 11 (literal 12 3))) baseVol (literal 20 2)
    (((9 : ℕ) : K) / ((10 : ℕ) : K)))

omit [Field K] [LinearOrder K] [IsStrictOrderedRing K] [FloorRing K] in
/-- A list with as many entries as a horizon has a last one. -/
theorem exists_getLast? {xs : List K} {horizon : ℤ} (hlength : xs.length = clampHorizon horizon) :
    ∃ last ∈ xs, xs.getLast? = some last := by
  have hne : xs ≠ [] := by
    rw [← List.length_pos_iff, hlength]
    exact one_le_clampHorizon horizon
  exact ⟨xs.getLast hne, List.getLast_mem hne, List.getLast?_eq_some_getLast hne⟩

/-- The forecast of a positive spot and a positive volatility can be displayed, unless the level it
tends to is not positive: there the surface of the forecast may be refused, which raises. -/
theorem buildVolForecast_spec (hsqrt : SampleMoments.IsSqrt fn.sqrt) (normal : ℕ → K → ℕ → K)
    (noise : Matrix (Fin (m + 1)) (Fin (n + 1)) K) {p : SurfaceParams K} (hs : 0 < p.s)
    (hbase : 0 < p.baseVol) (horizon : ℤ) :
    (∃ answer, buildVolForecast fn normal noise p horizon = .ok answer ∧
        answer.WellFormed horizon) ∨
      (buildVolForecast fn normal noise p horizon = .error .keyError ∧
        (levelFit fn normal p.baseVol).mu ≤ 0) := by
  have hwidth : 0 ≤ (onDefaultGrid p).width := by
    norm_num [onDefaultGrid, defaultParams, literal_eq]
  have hmaxT : 1 / ((12 : ℕ) : K) ≤ (onDefaultGrid p).maxT := by
    norm_num [onDefaultGrid, defaultParams]
  obtain ⟨cur, hcur, hcurOk⟩ :
      ∃ cur, buildVolSurface fn noise (onDefaultGrid p) = some cur ∧ cur.WellFormed :=
    exists_buildVolSurface noise hs hbase hwidth hmaxT
  -- each of the three factors is forecast by the process that is fitted to it
  have hpaths : ∀ current mbar sigma seed, VolForecast.Iterates _ current (clampHorizon horizon)
      (VolForecast.forecastFactor fn.sqrt normal current mbar sigma (clampHorizon horizon) seed) :=
    fun current mbar sigma seed =>
      VolForecast.iterates_forecast (VolForecast.ar1Phi_mem _) hsqrt current (clampHorizon horizon)
  have hlvl := hpaths p.baseVol (literal 20 2) (literal 12 3) 11
  have hskw := hpaths p.skew (literal (-13) 2) (literal 10 3) 22
  have htrm := hpaths p.term (literal 4 2) (literal 6 3) 33
  -- the code reads the last entry of each path
  obtain ⟨baseF, hbaseMem, hbaseF⟩ := exists_getLast? hlvl.length_means
  obtain ⟨skewF, -, hskewF⟩ := exists_getLast? hskw.length_means
  obtain ⟨termF, -, htermF⟩ := exists_getLast? htrm.length_means
  obtain ⟨lastBand, hbandMem, hlastBand⟩ := exists_getLast? hlvl.length_bands
  simp only [buildVolForecast, hcur, onDefaultGrid_baseVol, onDefaultGrid_skew, onDefaultGrid_term,
    hbaseF, hskewF, htermF, hlastBand]
  -- the surface of the forecast is refused unless its volatility is positive
  rcases lt_or_ge 0 baseF with hpos | hneg
  · left
    obtain ⟨fc, hfc, hfcOk⟩ : ∃ fc, buildVolSurface fn noise
        { onDefaultGrid p with baseVol := baseF, skew := skewF, term := termF } = some fc ∧
        fc.WellFormed :=
      exists_buildVolSurface noise hs hpos hwidth hmaxT
    -- both surfaces are on one grid, so their term structures have the same expiries
    have hband : 0 ≤ lastBand * ((100 : ℕ) : K) :=
      mul_nonneg (hlvl.band_nonneg lastBand hbandMem) (Nat.cast_nonneg _)
    obtain ⟨hexpiries, hatmTerm⟩ := zipWith_forecastAtm hcurOk hfcOk hband
    obtain ⟨hdays, hlevels⟩ := levelPath_spec p.baseVol
      (hlvl.length_means.trans hlvl.length_bands.symm) hlvl.band_nonneg
    simp only [hfc]
    refine ⟨_, rfl, ?_⟩
    exact
      { horizon_eq := coe_clampHorizon horizon
        range := ⟨le_min hcurOk.le_zmin hfcOk.le_zmin, max_le hcurOk.zmax_le hfcOk.zmax_le⟩
        current_mem := fun i j =>
          Set.Icc_subset_Icc (min_le_left _ _) (le_max_left _ _) (hcurOk.iv_mem_range i j)
        forecast_mem := fun i j =>
          Set.Icc_subset_Icc (min_le_right _ _) (le_max_right _ _) (hfcOk.iv_mem_range i j)
        atmTerm_expiries := hexpiries
        atmTerm_mem := hatmTerm
        days := by rw [hdays, hlvl.length_means]
        levels := hlevels }
  · right
    have hnone : buildVolSurface fn noise
        { onDefaultGrid p with baseVol := baseF, skew := skewF, term := termF } = none :=
      if_pos (.inr hneg)
    simp only [hnone, true_and]
    -- from a positive level the mean stays positive as long as the level it tends to is
    refine not_lt.mp fun hmu => hneg.not_gt ?_
    have hphi := VolForecast.ar1Phi_mem (VolForecast.history
      ((List.range 120).map (normal 11 (literal 12 3))) p.baseVol (literal 20 2)
      (((9 : ℕ) : K) / ((10 : ℕ) : K)))
    exact forecast_pos ⟨hphi.1, hphi.2.trans VolForecast.maxPhi_lt_one.le⟩ hmu hbase hbaseMem

/-- Five days from the default surface, without noise. -/
theorem buildVolForecast_spec_default :
    (∃ answer : SurfaceForecast 1 1 ℝ,
      buildVolForecast ⟨Real.exp, Real.log, Real.sqrt, Real.pi⟩ (fun _ _ _ => 0) (fun _ _ => 0)
        defaultParams 5 = .ok answer ∧ answer.WellFormed 5) ∨
      ((buildVolForecast ⟨Real.exp, Real.log, Real.sqrt, Real.pi⟩ (fun _ _ _ => 0)
        (fun (_ : Fin 2) (_ : Fin 2) => (0 : ℝ)) defaultParams 5 = .error .keyError) ∧
        (levelFit ⟨Real.exp, Real.log, Real.sqrt, Real.pi⟩ (fun _ _ _ => (0 : ℝ))
          (defaultParams : SurfaceParams ℝ).baseVol).mu ≤ 0) := by
  apply buildVolForecast_spec SampleMoments.isSqrt_real
  all_goals norm_num [defaultParams, literal_eq]

end Displayed

end TradingSimulator.VolSurface
