/-
Milp.Problem.Choice — the closed choices of the domain.

The kind of a variable, the sense of a constraint, the direction of an
objective, the status of a finished solve and the engine that a
configuration asks for, each with the text it has in answers.
-/

namespace Milp

/-- The values a variable may take. -/
inductive VariableKind where
  | continuous
  | integer
  deriving DecidableEq, Repr, Inhabited

/-- The name of a kind in texts. -/
def VariableKind.text : VariableKind → String
  | .continuous => "Continuous"
  | .integer => "Integer"

/-- How the two sides of a constraint compare. -/
inductive Sense where
  | atMost
  | equal
  | atLeast
  deriving DecidableEq, Repr

/-- The comparison sign of a sense. -/
def Sense.symbol : Sense → String
  | .atMost => "<="
  | .equal => "=="
  | .atLeast => ">="

/-- Which end of its range an objective is driven to. -/
inductive Direction where
  | minimize
  | maximize
  deriving DecidableEq, Repr, Inhabited

/-- The name of a direction in texts. -/
def Direction.text : Direction → String
  | .minimize => "Minimize"
  | .maximize => "Maximize"

/-- How a solve ended. -/
inductive Status where
  | optimal
  | feasible
  | infeasible
  | unbounded
  | timeLimit
  | error
  deriving DecidableEq, Repr

/-- The name of a status in texts. -/
def Status.text : Status → String
  | .optimal => "Optimal"
  | .feasible => "Feasible"
  | .infeasible => "Infeasible"
  | .unbounded => "Unbounded"
  | .timeLimit => "Time Limit Reached"
  | .error => "Error"

/-- The status alone says that there are values worth keeping. -/
def Status.hasSolution : Status → Bool
  | .optimal | .feasible => true
  | _ => false

/-- The numerical engine a configuration asks for; `auto` takes the first
one installed. -/
inductive Engine where
  | auto
  | cbc
  | highs
  deriving DecidableEq, Repr, Inhabited

/-- The name of an engine in texts. -/
def Engine.text : Engine → String
  | .auto => "Auto"
  | .cbc => "COIN-OR CBC"
  | .highs => "HiGHS"

end Milp
