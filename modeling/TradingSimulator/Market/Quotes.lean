import TradingSimulator.Api.Routes
import TradingSimulator.Library.Runs

/-!
# Where stored quotes come from

The two writers of the price dictionaries: `process_symbol` of the market feed
(`app/market/market_data_engine.py`) and the route `GET /market/{symbol}` (`app/api/routes.py`).
The data provider is an arbitrary function of symbol and time.

The feed stores what it has just read. The route may keep the cached price, and then stores it
again with the current time, so a price the provider no longer quotes looks fresh to the next
request. `always_quoted_iff` says when every stored pair is one the provider quoted.
-/

namespace TradingSimulator

/-- The last close the provider returns for a symbol at a time, `none` when it fails or returns no
rows. -/
abbrev Provider := String → ℚ → Option ℚ

/-- `extract_price`: only a positive price is taken. -/
def extractPrice (close : Option ℚ) : Option ℚ :=
  close.filter fun price => 0 < price

/-- `process_symbol` at the time `now`: the state it leaves and the price it reports. -/
def processSymbol (provider : Provider) (market : MarketState ℚ) (symbol : String) (now : ℚ) :
    MarketState ℚ × Option ℚ :=
  match extractPrice (provider symbol now) with
  | none => (market, none)
  | some price => (market.updatePrice symbol price now, some price)

/-- A quote is stale without a timestamp or more than five seconds after it. -/
def stateStale (timestamp : Option ℚ) (now : ℚ) : Bool :=
  match timestamp with
  | none => true
  | some timestamp => 5 < now - timestamp

/-- How far the cached price is from the provider's. -/
def divergence (price providerPrice : ℚ) : ℚ :=
  |price - providerPrice| / max providerPrice (1 / 1000000000)

/-- The price the route settles on when the provider answers. -/
def settledPrice (cached : Option ℚ × Option ℚ) (providerPrice now : ℚ) : ℚ :=
  match cached.1 with
  | none => providerPrice
  | some price =>
    -- a fresh price that is close enough is kept
    if stateStale cached.2 now ∨ 15 / 100 < divergence price providerPrice then providerPrice
    else price

/-- `GET /market/{symbol}` at the time `now`: the state it leaves and its answer. -/
def marketSymbol (upper : String → String) (provider : Provider) (market : MarketState ℚ)
    (symbol : String) (now : ℚ) : MarketState ℚ × Except HttpError (String × ℚ) :=
  let symbol := upper symbol
  let cached := market.getPriceWithTime symbol
  match provider symbol now with
  | some providerPrice =>
    let price := settledPrice cached providerPrice now
    -- also a price that was kept is stored under the current time
    (market.updatePrice symbol price now, .ok (symbol, price))
  | none =>
    match cached.1 with
    | none => (market, .error ⟨404, "Symbol not found"⟩)
    | some price => (market, .ok (symbol, price))

/-- A writer of the price dictionaries, at the time it runs. -/
inductive QuoteCall where
  | processSymbol (symbol : String) (now : ℚ)
  | marketSymbol (symbol : String) (now : ℚ)

/-- The state after a call. -/
def quoteStep (upper : String → String) (provider : Provider) (market : MarketState ℚ) :
    QuoteCall → MarketState ℚ
  | .processSymbol symbol now => (processSymbol provider market symbol now).1
  | .marketSymbol symbol now => (marketSymbol upper provider market symbol now).1

/-- Every stored price is what the provider quoted at the stored time. -/
def Quoted (provider : Provider) (market : MarketState ℚ) : Prop :=
  ∀ symbol price timestamp, market.getPriceWithTime symbol = (some price, some timestamp) →
    provider symbol timestamp = some price

/-- A route call that keeps a cached price, because it is at most five seconds old and at most 15%
off, finds the provider quoting that very price. -/
def KeptPriceCurrent (upper : String → String) (provider : Provider) (market : MarketState ℚ) :
    QuoteCall → Prop
  | .processSymbol _ _ => True
  | .marketSymbol symbol now => ∀ price timestamp providerPrice,
      market.getPriceWithTime (upper symbol) = (some price, some timestamp) →
      provider (upper symbol) now = some providerPrice →
      now - timestamp ≤ 5 → divergence price providerPrice ≤ 15 / 100 → price = providerPrice

section Quotes

variable {upper : String → String} {provider : Provider} {market : MarketState ℚ}

/-- Storing a price keeps all pairs quoted exactly when the provider quotes it now. -/
theorem quoted_updatePrice_iff (hquoted : Quoted provider market) (symbol : String)
    (price now : ℚ) :
    Quoted provider (market.updatePrice symbol price now) ↔ provider symbol now = some price := by
  constructor
  · intro h
    exact h symbol price now (market.getPriceWithTime_updatePrice_self symbol price now)
  · intro hnow other otherPrice timestamp hother
    by_cases hsame : other = symbol
    · subst hsame
      rw [MarketState.getPriceWithTime_updatePrice_self, Prod.mk.injEq, Option.some.injEq,
        Option.some.injEq] at hother
      rw [← hother.1, ← hother.2]
      exact hnow
    · rw [MarketState.getPriceWithTime_updatePrice_of_ne market hsame] at hother
      exact hquoted other otherPrice timestamp hother

/-- The route settles on another price than the provider's only when it keeps the cached one. -/
theorem settledPrice_eq_iff (cached : Option ℚ × Option ℚ) (providerPrice now : ℚ) :
    settledPrice cached providerPrice now = providerPrice ↔
      ∀ price timestamp, cached = (some price, some timestamp) → now - timestamp ≤ 5 →
        divergence price providerPrice ≤ 15 / 100 → price = providerPrice := by
  -- without a price or without a timestamp there is nothing to be kept
  obtain ⟨_ | price, _ | timestamp⟩ := cached
  · simp [settledPrice]
  · simp [settledPrice]
  · simp [settledPrice, stateStale]
  · simp only [settledPrice, stateStale, decide_eq_true_eq]
    split
    · next hreplaced =>
      refine iff_of_true rfl fun price' timestamp' hcached hfresh hclose => ?_
      simp only [Prod.mk.injEq, Option.some.injEq] at hcached
      obtain ⟨rfl, rfl⟩ := hcached
      rcases hreplaced with hstale | hfar
      · exact absurd hfresh (not_le.mpr hstale)
      · exact absurd hclose (not_le.mpr hfar)
    · next hkept =>
      obtain ⟨hfresh, hclose⟩ := not_or.mp hkept
      constructor
      · rintro hsame price' timestamp' hcached - -
        simp only [Prod.mk.injEq, Option.some.injEq] at hcached
        rw [← hcached.1]
        exact hsame
      · intro h
        exact h price timestamp rfl (not_lt.mp hfresh) (not_lt.mp hclose)

/-- One call keeps all stored pairs quoted exactly when it does not keep an outdated price. -/
theorem quoteStep_quoted_iff (hquoted : Quoted provider market) (call : QuoteCall) :
    Quoted provider (quoteStep upper provider market call) ↔
      KeptPriceCurrent upper provider market call := by
  cases call with
  | processSymbol symbol now =>
    refine iff_of_true ?_ trivial
    simp only [quoteStep, processSymbol]
    cases hprice : extractPrice (provider symbol now) with
    | none => exact hquoted
    | some price =>
      rw [extractPrice, Option.filter_eq_some_iff] at hprice
      exact (quoted_updatePrice_iff hquoted symbol price now).mpr hprice.1
  | marketSymbol symbol now =>
    simp only [quoteStep, marketSymbol, KeptPriceCurrent]
    cases hprovider : provider (upper symbol) now with
    | none =>
      -- without an answer of the provider the route stores nothing
      refine iff_of_true ?_ fun _ _ _ _ h => nomatch h
      cases (market.getPriceWithTime (upper symbol)).1 <;> exact hquoted
    | some providerPrice =>
      simp only [Option.some.injEq]
      rw [quoted_updatePrice_iff hquoted, hprovider, Option.some.injEq, eq_comm,
        settledPrice_eq_iff]
      constructor
      · rintro h price timestamp _ hcached rfl hfresh hclose
        exact h price timestamp hcached hfresh hclose
      · intro h price timestamp hcached hfresh hclose
        exact h price timestamp providerPrice hcached rfl hfresh hclose

/-- From an empty state, every stored pair is one the provider quoted, throughout a run, exactly
when no call of the route keeps a cached price that the provider does not quote any more. -/
theorem always_quoted_iff (upper : String → String) (provider : Provider)
    (calls : List QuoteCall) :
    Runs.Always (quoteStep upper provider) (Quoted provider) .empty calls ↔
      Runs.EveryStep (quoteStep upper provider) (KeptPriceCurrent upper provider) .empty calls := by
  have hempty : Quoted provider .empty := by
    intro symbol price timestamp h
    simp [MarketState.getPriceWithTime, MarketState.empty] at h
  have hiff : ∀ market call, True → True → Quoted provider market →
      (Quoted provider (quoteStep upper provider market call) ↔
        KeptPriceCurrent upper provider market call) :=
    fun market call _ _ hquoted => quoteStep_quoted_iff hquoted call
  exact Runs.always_iff_everyStep (fun _ _ _ _ => trivial) hiff trivial hempty fun _ _ => trivial

/-- A share that is quoted at 100 for three seconds and at 110 after that. -/
def jumpingProvider : Provider := fun _ now => some (if now < 3 then 100 else 110)

/-- The route stores the price of three seconds ago under the time at which the provider quotes
another one. -/
theorem keptPrice_not_quoted :
    ¬ Runs.Always (quoteStep String.toUpper jumpingProvider) (Quoted jumpingProvider) .empty
      [.processSymbol "AAPL" 0, .marketSymbol "AAPL" 3] := by
  intro h
  have hstored := h _ List.prefix_rfl "AAPL" 100 3 (by decide +kernel)
  norm_num [jumpingProvider] at hstored

end Quotes

end TradingSimulator
