/-
Milp.Problem.Solution — what a backend answers.

A solution lists values and reduced costs by column number and duals by row
number; a backend may leave out the last two, and what is left out reads as
`0`. A solve that ran out of time has a solution only if it kept values.
-/
import Milp.Problem.Basic

namespace Milp

/-- The size of a solved problem and the time it took. The counts are
32-bit words. -/
structure Statistics (α : Type) where
  milliseconds : α
  columns : UInt32
  rows : UInt32
  integers : UInt32
  deriving BEq, Repr

/-- The outcome of a solve. -/
structure Solution (α : Type) where
  status : Status
  /-- The objective value, constant included. -/
  objective : Option α
  values : List α
  reducedCosts : List α
  duals : List α
  message : String
  statistics : Statistics α
  deriving BEq, Repr

variable {α : Type} [Scalar α]

/-- No size and no time. -/
def Statistics.empty : Statistics α := ⟨0, 0, 0, 0⟩

/-- The size of `p` and a time. -/
def Statistics.ofProblem (p : Problem α) (milliseconds : α) : Statistics α :=
  ⟨milliseconds, p.columns.length.toUInt32, p.rows.length.toUInt32, p.integerCount.toUInt32⟩

namespace Solution

/-- An outcome without values. -/
def ofStatus (status : Status) (message : String) : Solution α :=
  ⟨status, none, [], [], [], message, Statistics.empty⟩

/-- An outcome with values, on whatever status the backend stopped. -/
def found (status : Status) (objective : α) (values : List α) : Solution α :=
  ⟨status, some objective, values, [], [], status.text ++ " solution found", Statistics.empty⟩

/-- Proven to be the best there is. -/
def isOptimal (s : Solution α) : Bool := s.status == .optimal

/-- Whether there are values to give to the variables. -/
def isFeasible (s : Solution α) : Bool :=
  match s.status with
  | .timeLimit => !s.values.isEmpty
  | status => status.hasSolution

/-- The reduced cost of a column. -/
def reducedCost (s : Solution α) (offset : Nat) : α := s.reducedCosts.getD offset 0

/-- The dual of a row. -/
def dual (s : Solution α) (row : Nat) : α := s.duals.getD row 0

end Solution

end Milp
