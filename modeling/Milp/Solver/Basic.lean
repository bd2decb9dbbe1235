/-
Milp.Solver.Basic — a model bound to a backend.

A solver keeps its own model, the problem it generated from it, and the
solution of its latest solve. The questions here are answered from what it
keeps; generating and solving are operations of a workspace.
-/
import Milp.Solver.Generated

namespace Milp

/-- What is known of a backend before it is asked to solve. -/
structure Backend where
  name : String
  /-- Whether it can solve problems with integer columns. -/
  takesIntegers : Bool
  deriving DecidableEq, Repr

/-- A model bound to a backend. -/
structure Solver (α : Type) where
  id : SolverId
  model : Model α
  backend : Backend
  config : Config α
  generated : Option (Generated α) := none
  solution : Option (Solution α) := none
  deriving Repr

namespace Solver

variable {α : Type}

/-- The variables in column order. -/
def vars (s : Solver α) : List VariableRef :=
  s.generated.elim [] Generated.vars

/-- The column of a variable. -/
def offset? (s : Solver α) (v : VariableRef) : Option Nat := s.generated.bind (·.offset? v)

/-- The generated problem, or the error that there is none. -/
def requireGenerated (s : Solver α) : Except (ModelError α) (Generated α) :=
  match s.generated with
  | some g => .ok g
  | none => .error (.notGenerated s.id)

/-- The row of a constraint. -/
def rowOf (s : Solver α) (c : Constraint α) : Except (ModelError α) Nat :=
  s.requireGenerated.bind fun g =>
    match g.row? c.id with
    | some row => .ok row
    | none => .error (.foreignConstraint c.name s.model.name)

variable [Scalar α]

/-- Whether the latest solve proved its answer to be the best. -/
def isProvenOptimal (s : Solver α) : Bool := s.solution.any Solution.isOptimal

/-- The solution of the latest solve, if it has values. -/
def solved (s : Solver α) : Except (ModelError α) (Solution α) :=
  match s.solution.filter Solution.isFeasible with
  | some solution => .ok solution
  | none => .error (.notSolved s.id s.model.name)

/-- The objective value of the solution. -/
def objectiveValue (s : Solver α) : Except (ModelError α) α :=
  s.solved.bind fun solution =>
    match solution.objective with
    | some value => .ok value
    | none => .error (.noObjective s.id s.model.name)

/-- The dual of a constraint in the solution. -/
def dual (s : Solver α) (c : Constraint α) : Except (ModelError α) α :=
  (s.rowOf c).bind fun row => s.solved.map fun solution => solution.dual row

/-- The left-hand side of a constraint's row at the solution. -/
def activity (s : Solver α) (c : Constraint α) : Except (ModelError α) α :=
  (s.rowOf c).bind fun number =>
    s.solved.bind fun solution =>
      s.requireGenerated.bind fun g =>
        match g.problem.rows[number]? with
        | some row => .ok (row.activity solution.values)
        | none => .error (.foreignConstraint c.name s.model.name)

end Solver

end Milp
