/-
Milp.Decimal.Shortest — the shortest decimal that reads back to a double.

A positive finite double is `significand · 2 ^ exponent`, and the reals
that round to it form an interval around it: half a gap to each side, the
ends included exactly when the significand is even. The shortest decimal is
found on the grids of 1, 2, … 17 significant digits: on each grid only the
two neighbours of the value can lie in the interval nearest to it, and the
first grid on which one of them does wins. Of two neighbours in the
interval the nearer is taken, and on an exact tie the upper one.

All arithmetic is on natural numbers: a value is a fraction, and the ends
of its interval are counted in quarters of its last binary place.
-/

namespace Milp

/-- A decimal: `coefficient · 10 ^ exponent`. -/
structure Decimal where
  coefficient : Nat
  exponent : Int
  deriving DecidableEq, Repr

namespace Decimal

/-- A positive finite double: `significand · 2 ^ exponent`. -/
structure Binary where
  significand : Nat
  exponent : Int
  /-- The double is a power of two, and the gap below it is half the gap above. -/
  narrow : Bool

/-- Decodes the magnitude bits of a finite double: eleven bits of exponent
over fifty-two bits of fraction. -/
def Binary.ofBits (bits : Nat) : Binary :=
  let hidden := Nat.pow 2 52
  let fraction := bits % hidden
  let biased := bits / hidden % Nat.pow 2 11
  if biased = 0 then ⟨fraction, -1074, false⟩
  else ⟨fraction + hidden, Int.ofNat biased - 1075, fraction = 0 && decide (1 < biased)⟩

/-- The same number without trailing zeros in the coefficient; the fuel is
the number of zeros that may go. -/
def strip : Nat → Decimal → Decimal
  | 0, d => d
  | fuel + 1, d =>
    if d.coefficient % 10 = 0 && d.coefficient != 0 then
      strip fuel ⟨d.coefficient / 10, d.exponent + 1⟩
    else d

/-- The least power of ten, as its exponent, that is above
`numerator / denominator`, for a fraction below one: the fuel is the number
of tenfold steps tried. -/
def leadingZeros : Nat → Nat → Nat → Nat
  | 0, _, _ => 0
  | fuel + 1, numerator, denominator =>
    if denominator ≤ numerator * 10 then 0
    else leadingZeros fuel (numerator * 10) denominator + 1

/-- The exponent `k` with `10 ^ (k - 1) ≤ numerator / denominator < 10 ^ k`. -/
def magnitude (numerator denominator : Nat) : Int :=
  if denominator ≤ numerator then
    Int.ofNat (Nat.toDigits 10 (numerator / denominator)).length
  else -Int.ofNat (leadingZeros 400 numerator denominator)

/-- `n · base ^ e` and the power that divides it, one of them being one. -/
def scaled (n base : Nat) (e : Int) : Nat × Nat :=
  if 0 ≤ e then (n * Nat.pow base e.toNat, 1) else (n, Nat.pow base (-e).toNat)

/-- The neighbour of a double on the grid of `10 ^ exponent` that reads back
to it, if one of the two does. -/
def Binary.onGrid (b : Binary) (exponent : Int) : Option Decimal :=
  -- a quarter of the last binary place, in units of the grid, is `unit / whole`
  let (binaryUp, binaryDown) := scaled 1 2 (b.exponent - 2)
  let (unit, decimalDown) := scaled binaryUp 10 (-exponent)
  let whole := binaryDown * decimalDown
  let value := 4 * b.significand * unit
  let low := (4 * b.significand - if b.narrow then 1 else 2) * unit
  let high := (4 * b.significand + 2) * unit
  let readsBack (n : Nat) : Bool :=
    if b.significand % 2 = 0 then low ≤ n * whole && n * whole ≤ high
    else low < n * whole && n * whole < high
  let below := value / whole
  let above := below + 1
  match readsBack below, readsBack above with
  | true, true =>
    if value - below * whole < above * whole - value then some ⟨below, exponent⟩
    else some ⟨above, exponent⟩
  | true, false => some ⟨below, exponent⟩
  | false, true => some ⟨above, exponent⟩
  | false, false => none

/-- The first hit on the grids of `digits`, `digits + 1`, … significant
digits, for a value below `10 ^ top`; the fuel is the number of grids. -/
def Binary.search (b : Binary) (top : Int) : Nat → Nat → Decimal
  | 0, _ => ⟨b.significand, b.exponent⟩
  | fuel + 1, digits =>
    match b.onGrid (top - Int.ofNat digits) with
    | some d => strip (digits + 1) d
    | none => b.search top fuel (digits + 1)

/-- The shortest decimal that reads back to the double. Seventeen digits
always suffice. -/
def Binary.shortest (b : Binary) : Decimal :=
  let (numerator, denominator) := scaled b.significand 2 b.exponent
  b.search (magnitude numerator denominator) 17 1

end Decimal

end Milp
