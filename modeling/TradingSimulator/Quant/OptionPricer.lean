import TradingSimulator.Library.SampleMoments
import Mathlib.Algebra.BigOperators.Ring.List
import Mathlib.Algebra.Order.Group.MinMax
import Mathlib.Data.List.Basic
import Mathlib.MeasureTheory.Integral.IntervalIntegral.Basic
import Mathlib.Analysis.SpecialFunctions.Log.Basic
import Mathlib.Analysis.Real.Pi.Bounds
import Mathlib.Tactic.FieldSimp
import Mathlib.Tactic.LinearCombination
import Mathlib.Tactic.Ring

/-!
# The option pricer

`black_scholes` and the Monte Carlo estimate of `price_option` (`app/quant/option_pricer.py`), in
exact arithmetic and with the elementary functions as parameters. Calls and puts have formulas of
their own for the price and for four of the Greeks; that they belong together is put-call parity
(`putCallParity`), for which the error function only has to be odd.
-/

namespace TradingSimulator.OptionPricer

open Series

/-- The functions and the constant that are taken from `math`. -/
structure Elementary (F : Type) where
  exp : F → F
  log : F → F
  sqrt : F → F
  erf : F → F
  pi : F

section Definitions

variable {F : Type} [Field F] (fn : Elementary F)

/-- The literal `0.5`. -/
def half : F := 1 / ((2 : ℕ) : F)

/-- `_norm_cdf`. -/
def normCdf (x : F) : F := half * (1 + fn.erf (x / fn.sqrt ((2 : ℕ) : F)))

/-- `_norm_pdf`. -/
def normPdf (x : F) : F := fn.exp (-half * x * x) / fn.sqrt (((2 : ℕ) : F) * fn.pi)

/-- What `black_scholes` returns. -/
structure BlackScholes (F : Type) where
  price : F
  delta : F
  gamma : F
  vega : F
  theta : F
  rho : F

variable [LinearOrder F]

/-- `black_scholes`. -/
def blackScholes (S K T r sigma : F) (kind : String) : BlackScholes F :=
  let kind := kind.toLower
  if T ≤ 0 ∨ sigma ≤ 0 then
    { price := if kind = "call" then max (S - K) 0 else max (K - S) 0
      delta := 0
      gamma := 0
      vega := 0
      theta := 0
      rho := 0 }
  else
    let d1 := (fn.log (S / K) + (r + half * sigma * sigma) * T) / (sigma * fn.sqrt T)
    let d2 := d1 - sigma * fn.sqrt T
    let disc := fn.exp (-r * T)
    let decay := -(S * normPdf fn d1 * sigma) / (((2 : ℕ) : F) * fn.sqrt T)
    let gamma := normPdf fn d1 / (S * sigma * fn.sqrt T)
    let vega := S * normPdf fn d1 * fn.sqrt T / ((100 : ℕ) : F)
    if kind = "call" then
      { price := S * normCdf fn d1 - K * disc * normCdf fn d2
        delta := normCdf fn d1
        gamma
        vega
        theta := (decay - r * K * disc * normCdf fn d2) / ((365 : ℕ) : F)
        rho := K * T * disc * normCdf fn d2 / ((100 : ℕ) : F) }
    else
      { price := K * disc * normCdf fn (-d2) - S * normCdf fn (-d1)
        delta := normCdf fn d1 - 1
        gamma
        vega
        theta := (decay + r * K * disc * normCdf fn (-d2)) / ((365 : ℕ) : F)
        rho := -K * T * disc * normCdf fn (-d2) / ((100 : ℕ) : F) }

/-! ### Monte Carlo -/

/-- The terminal prices `ST` for standard normal draws `Z`. -/
def terminalPrices (Z : List F) (S T r sigma : F) : List F :=
  Z.map fun z => S * fn.exp ((r - half * sigma * sigma) * T + sigma * fn.sqrt T * z)

/-- `payoffs`. -/
def payoffs (ST : List F) (K : F) (kind : String) : List F :=
  if kind = "call" then ST.map fun price => max (price - K) 0
  else ST.map fun price => max (K - price) 0

/-- `discounted`. -/
def discounted (Z : List F) (S K T r sigma : F) (kind : String) : List F :=
  (payoffs (terminalPrices fn Z S T r sigma) K kind).map fun payoff => fn.exp (-r * T) * payoff

/-- `mc_price`, before it is rounded. -/
def mcPrice (Z : List F) (S K T r sigma : F) (kind : String) : F :=
  mean (discounted fn Z S K T r sigma kind)

/-- `std_err`: `std(ddof=1)` over the square root of the number of paths. -/
def stdErr (xs : List F) : F :=
  fn.sqrt ((xs.map fun x => (x - mean xs) ^ 2).sum / ((xs.length : F) - 1)) /
    fn.sqrt (xs.length : F)

/-- The statuses of a refused request. -/
inductive Refusal where
  | invalidKind
  | invalidParams
  deriving DecidableEq

/-- The numbers that `price_option` reports. -/
structure OptionPrice (F : Type) where
  nPaths : ℕ
  mcPrice : F
  stdError : F
  ciLow : F
  ciHigh : F
  blackScholes : BlackScholes F
  probItm : F
  meanTerminal : F

def BlackScholes.map (f : F → F) (bs : BlackScholes F) : BlackScholes F where
  price := f bs.price
  delta := f bs.delta
  gamma := f bs.gamma
  vega := f bs.vega
  theta := f bs.theta
  rho := f bs.rho

def MAX_PATHS : ℤ := 100000

/-- `int(max(1000, min(n_paths, _MAX_PATHS)))`. -/
def pathCount (nPaths : ℤ) : ℕ := (max 1000 (min nPaths MAX_PATHS)).toNat

/-- `price_option`, where `standardNormal seed n` are `n` draws. -/
def priceOption (round : F → ℕ → F) (standardNormal : ℕ → ℕ → List F) (S K T r sigma : F)
    (kind : String := "call") (nPaths : ℤ := 20000) (seed : ℕ := 42) :
    Except Refusal (OptionPrice F) :=
  let kind := kind.toLower
  if kind ≠ "call" ∧ kind ≠ "put" then .error .invalidKind
  else if S ≤ 0 ∨ K ≤ 0 ∨ T ≤ 0 ∨ sigma ≤ 0 then .error .invalidParams
  else
    let n := pathCount nPaths
    let Z := standardNormal seed n
    let ST := terminalPrices fn Z S T r sigma
    let price := mcPrice fn Z S K T r sigma kind
    let se := stdErr fn (discounted fn Z S K T r sigma kind)
    let ci95 := ((196 : ℕ) : F) / ((100 : ℕ) : F) * se
    .ok
      { nPaths := n
        mcPrice := round price 4
        stdError := round se 4
        ciLow := round (price - ci95) 4
        ciHigh := round (price + ci95) 4
        blackScholes := (blackScholes fn S K T r sigma kind).map fun value => round value 4
        probItm := round (mean ((payoffs ST K kind).map fun payoff => if 0 < payoff then 1 else 0) *
          ((100 : ℕ) : F)) 2
        meanTerminal := round (mean ST) 2 }

end Definitions

/-! ### Parity -/

theorem toLower_call : "call".toLower = "call" := by
  decide +kernel

theorem toLower_put : "put".toLower = "put" := by
  decide +kernel

section Parity

variable {F : Type} [Field F] [LinearOrder F] [IsStrictOrderedRing F] {fn : Elementary F}

/-- The two tails of the normal distribution are one in sum. -/
theorem normCdf_add_normCdf_neg (hodd : ∀ x, fn.erf (-x) = -fn.erf x) (x : F) :
    normCdf fn x + normCdf fn (-x) = 1 := by
  rw [normCdf, normCdf, neg_div, hodd, half]
  push_cast
  field_simp
  ring

/-- A call and a put on the same option. -/
structure Parity (fn : Elementary F) (S K T r : F) (call put : BlackScholes F) : Prop where
  price : call.price - put.price = S - K * fn.exp (-r * T)
  delta : call.delta - put.delta = 1
  gamma : call.gamma = put.gamma
  vega : call.vega = put.vega
  rho : call.rho - put.rho = K * T * fn.exp (-r * T) / ((100 : ℕ) : F)
  theta : call.theta - put.theta = -r * K * fn.exp (-r * T) / ((365 : ℕ) : F)

/-- The closed formulas of a call and a put. -/
theorem parity_blackScholes (hodd : ∀ x, fn.erf (-x) = -fn.erf x) {S K T sigma : F} (hT : 0 < T)
    (hsigma : 0 < sigma) (r : F) :
    Parity fn S K T r (blackScholes fn S K T r sigma "call")
      (blackScholes fn S K T r sigma "put") := by
  have hproper : ¬(T ≤ 0 ∨ sigma ≤ 0) := not_or.2 ⟨not_le.2 hT, not_le.2 hsigma⟩
  rw [blackScholes, blackScholes, if_neg hproper, if_neg hproper, toLower_call, toLower_put,
    if_pos rfl, if_neg (by decide)]
  -- parity does not depend on what `d1` is, only on the normal distribution at `d1` and `-d1`
  generalize (fn.log (S / K) + (r + half * sigma * sigma) * T) / (sigma * fn.sqrt T) = d1
  have h1 := normCdf_add_normCdf_neg hodd d1
  have h2 := normCdf_add_normCdf_neg hodd (d1 - sigma * fn.sqrt T)
  constructor
  · linear_combination S * h1 - K * fn.exp (-r * T) * h2
  · exact sub_sub_cancel _ _
  · rfl
  · rfl
  · linear_combination K * T * fn.exp (-r * T) / ((100 : ℕ) : F) * h2
  · linear_combination -r * K * fn.exp (-r * T) / ((365 : ℕ) : F) * h2

/-- On every path, what a call pays more than a put is what the price is above the strike. -/
theorem mcPrice_call_sub_put {Z : List F} (hZ : Z ≠ []) (S K T r sigma : F) :
    mcPrice fn Z S K T r sigma "call" - mcPrice fn Z S K T r sigma "put" =
      fn.exp (-r * T) * (mean (terminalPrices fn Z S T r sigma) - K) := by
  have hlength : (Z.length : F) ≠ 0 := Nat.cast_ne_zero.2 (List.length_pos_of_ne_nil hZ).ne'
  have hpaths : ∀ ST : List F,
      ((ST.map fun price => max (price - K) 0).map fun payoff => fn.exp (-r * T) * payoff).sum -
        ((ST.map fun price => max (K - price) 0).map fun payoff => fn.exp (-r * T) * payoff).sum =
          fn.exp (-r * T) * (ST.sum - ST.length * K) := by
    intro ST
    induction ST with
    | nil => simp
    | cons price ST ih =>
      -- one of the two options is worth nothing at the end of a path
      have hpath := max_zero_sub_max_neg_zero_eq_self (price - K)
      rw [neg_sub] at hpath
      simp only [List.map_cons, List.sum_cons, List.length_cons, Nat.cast_succ]
      linear_combination ih + fn.exp (-r * T) * hpath
  have hcount : (terminalPrices fn Z S T r sigma).length = Z.length := by
    rw [terminalPrices, List.length_map]
  rw [mcPrice, mcPrice, discounted, discounted, payoffs, payoffs, if_pos rfl, if_neg (by decide),
    mean, mean, mean, List.length_map, List.length_map, List.length_map, List.length_map, hcount,
    ← sub_div, hpaths, hcount]
  field_simp

omit [IsStrictOrderedRing F] in
/-- For positive parameters `price_option` succeeds, with the Monte Carlo price of its draws. -/
theorem exists_priceOption (fn : Elementary F) (round : F → ℕ → F)
    (standardNormal : ℕ → ℕ → List F) {S K T sigma : F} (hS : 0 < S) (hK : 0 < K) (hT : 0 < T)
    (hsigma : 0 < sigma) (r : F) {kind : String} (hkind : kind.toLower = kind)
    (hkinds : kind = "call" ∨ kind = "put") (nPaths : ℤ) (seed : ℕ) :
    ∃ option, priceOption fn round standardNormal S K T r sigma kind nPaths seed = .ok option ∧
      option.mcPrice =
        round (mcPrice fn (standardNormal seed (pathCount nPaths)) S K T r sigma kind) 4 := by
  have hvalid : ¬(kind ≠ "call" ∧ kind ≠ "put") := by
    rw [not_and_or, not_not, not_not]
    exact hkinds
  have hparams : ¬(S ≤ 0 ∨ K ≤ 0 ∨ T ≤ 0 ∨ sigma ≤ 0) := by
    simp only [not_or, not_le]
    exact ⟨hS, hK, hT, hsigma⟩
  rw [priceOption, hkind, if_neg hvalid, if_neg hparams]
  exact ⟨_, rfl, rfl⟩

/-- Put-call parity: of the price and of every Greek of the closed formulas, and of the Monte Carlo
prices that `price_option` computes from the same draws, before they are rounded. -/
theorem putCallParity (hodd : ∀ x, fn.erf (-x) = -fn.erf x) {S K T sigma : F} (hS : 0 < S)
    (hK : 0 < K) (hT : 0 < T) (hsigma : 0 < sigma) (r : F) :
    Parity fn S K T r (blackScholes fn S K T r sigma "call")
        (blackScholes fn S K T r sigma "put") ∧
      ∀ (round : F → ℕ → F) (standardNormal : ℕ → ℕ → List F) (nPaths : ℤ) (seed : ℕ) (Z : List F),
        standardNormal seed (pathCount nPaths) = Z → Z ≠ [] →
          ∃ call put,
            priceOption fn round standardNormal S K T r sigma "call" nPaths seed = .ok call ∧
            priceOption fn round standardNormal S K T r sigma "put" nPaths seed = .ok put ∧
            call.mcPrice = round (mcPrice fn Z S K T r sigma "call") 4 ∧
            put.mcPrice = round (mcPrice fn Z S K T r sigma "put") 4 ∧
            mcPrice fn Z S K T r sigma "call" - mcPrice fn Z S K T r sigma "put" =
              fn.exp (-r * T) * (mean (terminalPrices fn Z S T r sigma) - K) := by
  refine ⟨parity_blackScholes hodd hT hsigma r, ?_⟩
  intro round standardNormal nPaths seed Z hdraws hZ
  obtain ⟨call, hcall, hcallPrice⟩ := exists_priceOption fn round standardNormal hS hK hT hsigma r
    toLower_call (Or.inl rfl) nPaths seed
  obtain ⟨put, hput, hputPrice⟩ := exists_priceOption fn round standardNormal hS hK hT hsigma r
    toLower_put (Or.inr rfl) nPaths seed
  rw [hdraws] at hcallPrice hputPrice
  exact ⟨call, put, hcall, hput, hcallPrice, hputPrice, mcPrice_call_sub_put hZ S K T r sigma⟩

end Parity

/-- The error function and the others over the real numbers. -/
noncomputable def realFunctions : Elementary ℝ where
  exp := Real.exp
  log := Real.log
  sqrt := Real.sqrt
  erf x := ((2 : ℕ) : ℝ) / Real.sqrt Real.pi * ∫ t in (0 : ℝ)..x, Real.exp (-t ^ 2)
  pi := Real.pi

/-- The error function is odd. -/
theorem realFunctions_erf_neg (x : ℝ) : realFunctions.erf (-x) = -realFunctions.erf x := by
  have hreflect := intervalIntegral.integral_comp_neg (a := 0) (b := x)
    fun t : ℝ => Real.exp (-t ^ 2)
  simp only [neg_sq, neg_zero] at hreflect
  show ((2 : ℕ) : ℝ) / Real.sqrt Real.pi * ∫ t in (0 : ℝ)..-x, Real.exp (-t ^ 2) = _
  rw [intervalIntegral.integral_symm, ← hreflect, mul_neg]
  rfl

/-- A call and a put at 95 on a spot of 100, a year before they expire. -/
theorem putCallParity_real :
    Parity realFunctions 100 95 1 (1 / 20)
        (blackScholes realFunctions 100 95 1 (1 / 20) (1 / 5) "call")
        (blackScholes realFunctions 100 95 1 (1 / 20) (1 / 5) "put") ∧
      ∀ (round : ℝ → ℕ → ℝ) (standardNormal : ℕ → ℕ → List ℝ) (nPaths : ℤ) (seed : ℕ) (Z : List ℝ),
        standardNormal seed (pathCount nPaths) = Z → Z ≠ [] →
          ∃ call put,
            priceOption realFunctions round standardNormal 100 95 1 (1 / 20) (1 / 5) "call" nPaths
              seed = .ok call ∧
            priceOption realFunctions round standardNormal 100 95 1 (1 / 20) (1 / 5) "put" nPaths
              seed = .ok put ∧
            call.mcPrice = round (mcPrice realFunctions Z 100 95 1 (1 / 20) (1 / 5) "call") 4 ∧
            put.mcPrice = round (mcPrice realFunctions Z 100 95 1 (1 / 20) (1 / 5) "put") 4 ∧
            mcPrice realFunctions Z 100 95 1 (1 / 20) (1 / 5) "call" -
                mcPrice realFunctions Z 100 95 1 (1 / 20) (1 / 5) "put" =
              realFunctions.exp (-(1 / 20) * 1) *
                (mean (terminalPrices realFunctions Z 100 1 (1 / 20) (1 / 5)) - 95) :=
  putCallParity realFunctions_erf_neg (by norm_num) (by norm_num) (by norm_num) (by norm_num) _

end TradingSimulator.OptionPricer
