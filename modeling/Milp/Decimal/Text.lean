/-
Milp.Decimal.Text — the two ways a double is written.

`Style` holds the decisions of a number format over the shortest decimal of
a double: which magnitudes are written out in full, and whether a whole
number keeps a decimal point. `display` is the form of every answer and
message; `debug` is the form inside a record's full description.
-/
import Milp.Decimal.Shortest

namespace Milp

namespace Decimal

/-- A way to write numbers. The position of the decimal point of a number
`0.d₁d₂… · 10 ^ p` with `d₁ ≠ 0` is `p`. -/
structure Style where
  /-- The positions that are written without an exponent. -/
  isPositional : Int → Bool
  /-- Whether a whole number written without an exponent ends in `.0`. -/
  keepsPoint : Bool

/-- Every number is written out in full. -/
def display : Style where
  isPositional _ := true
  keepsPoint := false

/-- Numbers from `10 ^ -4` to below `10 ^ 16` are written out, always with a
point; the others have an exponent. -/
def debug : Style where
  isPositional p := decide (-3 ≤ p) && decide (p ≤ 16)
  keepsPoint := true

/-- `n` zeros. -/
def zeros (n : Int) : String := String.ofList (List.replicate n.toNat '0')

/-- Digits with the decimal point at position `p`. -/
def positional (style : Style) (digits : List Char) (p : Int) : String :=
  let count := Int.ofNat digits.length
  if p ≤ 0 then "0." ++ zeros (-p) ++ String.ofList digits
  else if count ≤ p then
    String.ofList digits ++ zeros (p - count) ++ (if style.keepsPoint then ".0" else "")
  else
    String.ofList (digits.take p.toNat) ++ "." ++ String.ofList (digits.drop p.toNat)

/-- Digits with the decimal point after the first of them, and an exponent. -/
def exponential (digits : List Char) (p : Int) : String :=
  let mantissa := match digits with
    | [] => ""
    | [d] => d.toString
    | d :: rest => d.toString ++ "." ++ String.ofList rest
  mantissa ++ "e" ++ toString (p - 1)

/-- A nonnegative decimal in a style. -/
def write (style : Style) (d : Decimal) : String :=
  if d.coefficient = 0 then (if style.keepsPoint then "0.0" else "0")
  else
    let digits := Nat.toDigits 10 d.coefficient
    let p := Int.ofNat digits.length + d.exponent
    if style.isPositional p then positional style digits p else exponential digits p

/-- A double in a style. An undefined number has no sign, and a zero keeps
its own. -/
def writeDouble (style : Style) (x : Float) : String :=
  if x.isNaN then "NaN"
  else
    let bits := x.toBits.toNat
    let signBit := Nat.pow 2 63
    let sign := if bits < signBit then "" else "-"
    if x.isInf then sign ++ "inf"
    else
      let b := Binary.ofBits (bits % signBit)
      sign ++ write style (if b.significand = 0 then ⟨0, 0⟩ else b.shortest)

end Decimal

/-- The text of a number in answers and messages. -/
def numberText (x : Float) : String := Decimal.writeDouble Decimal.display x

end Milp
