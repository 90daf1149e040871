import Mathlib.Algebra.Order.Field.Basic
import Mathlib.Tactic.FieldSimp
import Mathlib.Tactic.Ring

/-!
# Units held at average cost

A pool of interchangeable units bought at different prices, of which only the number of units and
the average price paid per unit are kept. Buying re-averages the unit cost, and removing units
leaves it alone. The book cost of the pool, `units * unitCost`, moves by exactly what is paid for
the units bought (`cost_add`) and by the average cost of the units removed (`cost_remove`).
-/

/-- A number of units and the average price paid for one of them. -/
structure CostPool (K : Type*) where
  units : K
  unitCost : K

namespace CostPool

variable {K : Type*} [Field K] (pool : CostPool K)

/-- The book cost of the whole pool. -/
def cost : K := pool.units * pool.unitCost

/-- Buy `units` at `price` each. -/
def add (units price : K) : CostPool K where
  units := pool.units + units
  unitCost := (pool.units * pool.unitCost + units * price) / (pool.units + units)

/-- Take out `units`. -/
def remove (units : K) : CostPool K where
  units := pool.units - units
  unitCost := pool.unitCost

/-- What selling `units` at `price` earns over their average cost. -/
def gain (units price : K) : K := (price - pool.unitCost) * units

/-- Buying adds to the book cost what is paid. -/
theorem cost_add {units : K} (price : K) (h : pool.units + units ≠ 0) :
    (pool.add units price).cost = pool.cost + units * price := by
  simp only [cost, add]
  field_simp

/-- Selling takes the proceeds less the gain out of the book cost. -/
theorem cost_remove (units price : K) :
    (pool.remove units).cost = pool.cost - (price * units - pool.gain units price) := by
  simp only [cost, remove, gain]
  ring

variable [LinearOrder K] [IsStrictOrderedRing K]

/-- Buying at a positive price keeps the average cost positive. -/
theorem unitCost_add_pos {units price : K} (hpool : 0 < pool.units) (hcost : 0 < pool.unitCost)
    (hunits : 0 < units) (hprice : 0 < price) : 0 < (pool.add units price).unitCost := by
  have hpaid : 0 < pool.units * pool.unitCost + units * price :=
    add_pos (mul_pos hpool hcost) (mul_pos hunits hprice)
  exact div_pos hpaid (add_pos hpool hunits)

end CostPool
