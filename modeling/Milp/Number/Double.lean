/-
Milp.Number.Double — double precision as the number type of a model.

The numbers a program reads and prints are IEEE doubles. The tolerance is
one millionth, and a sum starts from the negative zero: adding it changes
no double, the negative zero included.
-/
import Milp.Number.Scalar

namespace Milp

instance : Scalar Float where
  zero := 0.0
  one := 1.0
  tolerance := 1e-6
  emptySum := -0.0
  abs := Float.abs
  round := Float.round
  lt a b := decide (a < b)
  le a b := decide (a ≤ b)
  isFinite := Float.isFinite

instance : Unbounded Float where
  infinity := 1.0 / 0.0

end Milp
