/-
Milp.Number.Scalar — the numbers a model is written in.

A model is written once for every number type that has the operations of
`Scalar`. They are the operations of machine numbers: comparison is a
`Bool`, need not be total, and need not be reflexive, so a number type may
hold an undefined number; `emptySum` need not be `0`, because a machine
zero has a sign and a sum of no terms is the neutral one.

* `Scalar.compare` is the three-way comparison behind every check of a
  bound, a value or a side: numbers within `tolerance` are equal.
* `Scalar.isBetween` and `Scalar.isIntegral` are the two checks built on it.
-/

namespace Milp

/-- A number type for coefficients, bounds and values. -/
class Scalar (α : Type) extends Zero α, One α, Add α, Sub α, Mul α, Div α, Neg α, BEq α where
  /-- The absolute distance within which two numbers count as equal. -/
  tolerance : α
  /-- The sum of no terms, from which every other sum starts. -/
  emptySum : α
  /-- The magnitude of a number. -/
  abs : α → α
  /-- The nearest whole number, a half going away from zero. -/
  round : α → α
  /-- Strictly less; `false` where either side is undefined. -/
  lt : α → α → Bool
  /-- Less or equal; `false` where either side is undefined. -/
  le : α → α → Bool
  /-- Neither infinite nor undefined. -/
  isFinite : α → Bool

/-- A number type with a number above all others: the default upper bound. -/
class Unbounded (α : Type) where
  /-- The number above all others. -/
  infinity : α

namespace Scalar

variable {α : Type} [Scalar α]

/-- An undefined number is the one that differs from itself. -/
def isNaN (x : α) : Bool := !(x == x)

/-- The sum of a list, added from the left. -/
def sum (xs : List α) : α := xs.foldl (· + ·) emptySum

/-! ## Comparison within the tolerance -/

/-- Compares two numbers, those within the tolerance being equal. Equal
infinities are equal, and a pair that is not ordered at all is `gt`. -/
def compare (a b : α) : Ordering :=
  if a == b || le (abs (a - b)) tolerance then .eq
  else if lt a b then .lt
  else .gt

/-- Equality within the tolerance. -/
def approxEq (a b : α) : Bool := compare a b == .eq

/-- `lower ≤ value ≤ upper`, both ends included and within the tolerance. -/
def isBetween (value lower upper : α) : Bool :=
  compare value lower != .lt && compare value upper != .gt

/-- Finite, and within the tolerance of a whole number. -/
def isIntegral (x : α) : Bool :=
  isFinite x && le (abs (x - round x)) tolerance

end Scalar

end Milp
