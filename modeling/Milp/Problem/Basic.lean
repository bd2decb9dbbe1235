/-
Milp.Problem.Basic — the flat problem that is handed to a backend.

A problem is a dense objective over numbered columns and sparse rows over
the same numbers. Values are lists by column number; a value that is not
there reads as `0`.

* `Row.activity` and `Row.isSatisfied` are what a row computes and asks.
* `Problem.accepts` is the check of a whole vector of values.
-/
import Milp.Number.Scalar
import Milp.Problem.Choice
import Milp.Variable.Name

namespace Milp

/-- One column of a problem: the solver's copy of a variable. -/
structure Column (α : Type) where
  name : VariableName
  kind : VariableKind
  lower : α
  upper : α
  deriving BEq, Repr

/-- A column that may take every nonnegative value. -/
def Column.nonnegative {α : Type} [Scalar α] [Unbounded α] (name : String) (kind : VariableKind) :
    Column α :=
  ⟨.given name, kind, 0, Unbounded.infinity⟩

/-- Whether a column takes whole values only. -/
def Column.isInteger {α : Type} (c : Column α) : Bool := c.kind == .integer

/-- What a problem drives to one end: a coefficient for every column. -/
structure CostVector (α : Type) where
  direction : Direction
  coefficients : List α
  constant : α
  deriving BEq, Repr

/-- A linear row over some of the columns. -/
structure Row (α : Type) where
  sense : Sense
  /-- Column numbers with their coefficients. -/
  terms : List (Nat × α)
  bound : α
  name : String
  deriving BEq, Repr

/-- How a backend is asked to solve. -/
structure Config (α : Type) where
  engine : Engine := .auto
  /-- Seconds of wall-clock time. -/
  timeLimit : Option α := none
  /-- Relative gap at which a search over whole values stops. -/
  gap : Option α := none
  verbose : Bool := false
  deriving BEq, Repr

/-- A whole problem, independent of the backend that solves it. -/
structure Problem (α : Type) where
  name : String
  objective : CostVector α
  columns : List (Column α)
  rows : List (Row α)
  config : Config α
  deriving BEq, Repr

variable {α : Type} [Scalar α]

/-- The value of the objective, its constant included. -/
def CostVector.evaluate (o : CostVector α) (values : List α) : α :=
  Scalar.sum (List.zipWith (· * ·) o.coefficients values) + o.constant

/-! ## Rows -/

/-- The left-hand side of a row at the given values. -/
def Row.activity (r : Row α) (values : List α) : α :=
  Scalar.sum (r.terms.map fun (offset, coefficient) => coefficient * values.getD offset 0)

/-- Whether the values satisfy the row up to `tolerance`. -/
def Row.isSatisfied (r : Row α) (values : List α) (tolerance : α) : Bool :=
  let activity := r.activity values
  match r.sense with
  | .atMost => Scalar.le activity (r.bound + tolerance)
  | .equal => Scalar.le (Scalar.abs (activity - r.bound)) tolerance
  | .atLeast => Scalar.le (r.bound - tolerance) activity

/-! ## Problems -/

/-- Whether one column takes a value: its bounds and, for an integer
column, the distance to a whole number. -/
def Column.accepts (c : Column α) (value tolerance : α) : Bool :=
  Scalar.le (c.lower - tolerance) value && Scalar.le value (c.upper + tolerance)
    && (!c.isInteger || Scalar.le (Scalar.abs (value - Scalar.round value)) tolerance)

namespace Problem

/-- How many columns take whole values only. -/
def integerCount (p : Problem α) : Nat := p.columns.countP Column.isInteger

/-- Whether some column takes whole values only. -/
def isMixedInteger (p : Problem α) : Bool := 0 < p.integerCount

/-- The status of a solve that ran to its normal end: a search over whole
values that a gap may have stopped has not proven its answer optimal. -/
def finishedStatus (p : Problem α) : Status :=
  match p.config.gap with
  | some gap => if Scalar.lt 0 gap && p.isMixedInteger then .feasible else .optimal
  | none => .optimal

/-- Whether the values, one for each column, respect every column and every
row up to `tolerance`. -/
def accepts (p : Problem α) (values : List α) (tolerance : α) : Bool :=
  values.length == p.columns.length
    && (p.columns.zip values).all (fun (column, value) => column.accepts value tolerance)
    && p.rows.all (fun row => row.isSatisfied values tolerance)

end Problem

end Milp
