/-
Milp.Number.Exact — exact arithmetic as the number type of a model.

Doubles round, so what a model computes with them depends on the order of
its sums. Exact numbers are the reading in which it does not: the rationals,
the two infinities, and one undefined number for what has no value, such as
the difference of two equal infinities. The operations are those of doubles
without the rounding; there is one zero, and it has no sign.

On finite numbers everything is rational arithmetic (`finite_add` and the
lemmas after it).
-/
import Milp.Number.Scalar

namespace Milp

/-- A rational number, an infinity, or no number at all. -/
inductive Exact where
  | finite (q : Rat)
  | infinite (negative : Bool)
  | undefined
  deriving DecidableEq, Repr

namespace Exact

/-! ## Operations -/

def add : Exact → Exact → Exact
  | finite a, finite b => finite (a + b)
  | finite _, infinite s => infinite s
  | infinite s, finite _ => infinite s
  | infinite s, infinite t => if s = t then infinite s else undefined
  | _, _ => undefined

def neg : Exact → Exact
  | finite a => finite (-a)
  | infinite s => infinite !s
  | undefined => undefined

/-- An infinity keeps or changes its sign; times zero it is undefined. -/
def scaleInfinite (s : Bool) (a : Rat) : Exact :=
  if a = 0 then undefined else infinite (s != decide (a < 0))

def mul : Exact → Exact → Exact
  | finite a, finite b => finite (a * b)
  | finite a, infinite s => scaleInfinite s a
  | infinite s, finite a => scaleInfinite s a
  | infinite s, infinite t => infinite (s != t)
  | _, _ => undefined

/-- The reciprocal; that of zero is the positive infinity. -/
def inv : Exact → Exact
  | finite a => if a = 0 then infinite false else finite (a⁻¹)
  | infinite _ => finite 0
  | undefined => undefined

def abs : Exact → Exact
  | finite a => finite (if a < 0 then -a else a)
  | infinite _ => infinite false
  | undefined => undefined

/-- The nearest whole number, a half going away from zero. -/
def roundRat (a : Rat) : Rat :=
  if a < 0 then -((-a + 1 / 2).floor : Int) else (a + 1 / 2).floor

def round : Exact → Exact
  | finite a => finite (roundRat a)
  | x => x

/-- Equality; an undefined number equals nothing. -/
def beq : Exact → Exact → Bool
  | finite a, finite b => decide (a = b)
  | infinite s, infinite t => s == t
  | _, _ => false

def lt : Exact → Exact → Bool
  | finite a, finite b => decide (a < b)
  | finite _, infinite s => !s
  | infinite s, finite _ => s
  | infinite s, infinite t => s && !t
  | _, _ => false

def le : Exact → Exact → Bool
  | finite a, finite b => decide (a ≤ b)
  | finite _, infinite s => !s
  | infinite s, finite _ => s
  | infinite s, infinite t => s || !t
  | _, _ => false

def isFinite : Exact → Bool
  | finite _ => true
  | _ => false

instance : Scalar Exact where
  zero := finite 0
  one := finite 1
  add := add
  sub a b := add a (neg b)
  mul := mul
  div a b := mul a (inv b)
  neg := neg
  beq := beq
  tolerance := finite (1 / 1000000)
  emptySum := finite 0
  abs := abs
  round := round
  lt := lt
  le := le
  isFinite := isFinite

instance : Unbounded Exact where
  infinity := infinite false

/-! ## Finite numbers -/

@[simp] theorem zero_eq : (0 : Exact) = finite 0 := rfl

@[simp] theorem one_eq : (1 : Exact) = finite 1 := rfl

@[simp] theorem emptySum_eq : (Scalar.emptySum : Exact) = finite 0 := rfl

@[simp] theorem tolerance_eq : (Scalar.tolerance : Exact) = finite (1 / 1000000) := rfl

@[simp] theorem finite_add (a b : Rat) : finite a + finite b = finite (a + b) := rfl

@[simp] theorem finite_neg (a : Rat) : -finite a = finite (-a) := rfl

@[simp] theorem finite_sub (a b : Rat) : finite a - finite b = finite (a - b) := by
  rw [Rat.sub_eq_add_neg]
  rfl

@[simp] theorem finite_mul (a b : Rat) : finite a * finite b = finite (a * b) := rfl

@[simp] theorem finite_beq (a b : Rat) : (finite a == finite b) = decide (a = b) := rfl

@[simp] theorem lt_finite (a b : Rat) : Scalar.lt (finite a) (finite b) = decide (a < b) := rfl

@[simp] theorem le_finite (a b : Rat) : Scalar.le (finite a) (finite b) = decide (a ≤ b) := rfl

@[simp] theorem round_finite (a : Rat) : Scalar.round (finite a) = finite (roundRat a) := rfl

@[simp] theorem isFinite_finite (a : Rat) : Scalar.isFinite (finite a) = true := rfl

end Exact

end Milp
