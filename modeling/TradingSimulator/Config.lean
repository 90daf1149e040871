import Mathlib.Algebra.Field.Rat

/-!
# Settings

The settings (`app/core/config.py`) that the modelled services read, with their defaults.
-/

namespace TradingSimulator

/-- `Settings`. -/
structure Settings where
  defaultUserBalance : ℚ := 100000
  passwordMinLength : ℕ := 8
  jwtAccessTtlMinutes : ℕ := 15
  jwtRefreshDays : ℕ := 7
  jwtWsTtlSeconds : ℕ := 60
  jwtAudience : String := "hft-platform"

end TradingSimulator
