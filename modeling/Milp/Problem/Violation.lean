/-
Milp.Problem.Violation — what can be wrong with a problem before it is solved.

`Problem.violations` lists every defect once: the length of the objective,
then row by row, then column by column. A row is reported at most once for
a column that does not exist, however many of its terms name one.
-/
import Milp.Problem.Basic

namespace Milp

/-- One defect of a problem. -/
inductive Violation (α : Type) where
  /-- The objective has not one coefficient for each column. -/
  | coefficientCount (coefficients columns : Nat)
  /-- A row has a term on a column that does not exist. -/
  | unknownColumn (row : Nat) (name : String) (offset columns : Nat)
  /-- The bound of a row is undefined. -/
  | undefinedBound (row : Nat) (name : String)
  /-- The lower bound of a column is above its upper bound. -/
  | crossedBounds (column : Nat) (name : String) (lower upper : α)
  deriving DecidableEq, Repr

variable {α : Type} [Scalar α]

/-- The defects of the row with the given number in a problem of `columns`
columns. -/
def Row.violations (columns : Nat) (row : Row α) (number : Nat) : List (Violation α) :=
  (match row.terms.find? (fun term => decide (columns ≤ term.1)) with
    | some (offset, _) => [.unknownColumn number row.name offset columns]
    | none => [])
  ++ if Scalar.isNaN row.bound then [.undefinedBound number row.name] else []

/-- The defect of the column with the given number. -/
def Column.violations (column : Column α) (number : Nat) : List (Violation α) :=
  if Scalar.lt column.upper column.lower then
    [.crossedBounds number column.name.text column.lower column.upper]
  else []

/-- Every defect of a problem, in order. -/
def Problem.violations (p : Problem α) : List (Violation α) :=
  (if p.objective.coefficients.length = p.columns.length then []
    else [.coefficientCount p.objective.coefficients.length p.columns.length])
  ++ p.rows.zipIdx.flatMap (fun (row, number) => row.violations p.columns.length number)
  ++ p.columns.zipIdx.flatMap (fun (column, number) => column.violations number)

end Milp
