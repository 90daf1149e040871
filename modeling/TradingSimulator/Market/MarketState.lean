import Mathlib.Logic.Function.Basic

/-!
# Latest quotes

The price part of `MarketState` (`app/market/market_state.py`): the last price stored for a
symbol and the time it was stored with. Both dictionaries are written by `update_price` alone.
-/

namespace TradingSimulator

variable {α : Type}

/-- The dictionaries `prices` and `price_timestamp`. -/
structure MarketState (α : Type) where
  prices : String → Option α
  priceTimestamp : String → Option α

namespace MarketState

/-- No symbol has been quoted yet. -/
def empty : MarketState α :=
  { prices := fun _ => none, priceTimestamp := fun _ => none }

/-- Store a price and its timestamp. -/
def updatePrice (market : MarketState α) (symbol : String) (price timestamp : α) :
    MarketState α where
  prices := Function.update market.prices symbol (some price)
  priceTimestamp := Function.update market.priceTimestamp symbol (some timestamp)

def getPrice (market : MarketState α) (symbol : String) : Option α :=
  market.prices symbol

def getPriceWithTime (market : MarketState α) (symbol : String) : Option α × Option α :=
  (market.prices symbol, market.priceTimestamp symbol)

def getAllPrices (market : MarketState α) : String → Option α :=
  market.prices

/-- An update is what its symbol has from then on. -/
@[simp]
theorem getPriceWithTime_updatePrice_self (market : MarketState α) (symbol : String)
    (price timestamp : α) :
    (market.updatePrice symbol price timestamp).getPriceWithTime symbol =
      (some price, some timestamp) := by
  simp [getPriceWithTime, updatePrice]

/-- An update leaves the other symbols as they are. -/
theorem getPriceWithTime_updatePrice_of_ne (market : MarketState α) {symbol other : String}
    (hne : other ≠ symbol) (price timestamp : α) :
    (market.updatePrice symbol price timestamp).getPriceWithTime other =
      market.getPriceWithTime other := by
  simp [getPriceWithTime, updatePrice, hne]

/-- The market quotes exactly the listed prices. -/
def ofQuotes (quotes : List (String × α)) : MarketState α :=
  { prices := fun symbol => List.lookup symbol quotes, priceTimestamp := fun _ => none }

end MarketState

end TradingSimulator
