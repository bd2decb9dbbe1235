/-
Milp.Session.Reply — what a session answers.

Every step of a session has a `Result`: what it answered, how the variable
it was about then stands, which notifications recorders took, which events
were recorded, and what a backend's own steps answered. A reply shows parts
of the workspace as they were at that moment, with names in the place of
references.
-/
import Milp.Number.Double
import Milp.Workspace.Operation
import Milp.Workspace.Family

namespace Milp.Session

/-- The kind of a failed step. -/
inductive FailureKind where
  /-- An operation of the model failed. -/
  | model (kind : ModelErrorKind)
  /-- A backend, or the search for one, failed on its own. -/
  | solver (kind : SolverErrorKind)
  /-- The step itself makes no sense: it names something unknown. -/
  | script
  deriving DecidableEq, Repr

/-- Why a step failed. -/
structure Failure where
  kind : FailureKind
  message : String
  deriving Repr

/-- A variable with its level as questions answer it. -/
structure VariableView where
  state : Variable Float
  value : Except Failure Float
  reducedCost : Except Failure Float

/-- An expression with its variables by name. -/
structure ExpressionView where
  constant : Float
  terms : List (String × Float)
  isConstant : Bool
  vars : List String
  text : String
  value : Except Failure Float

/-- A constraint with its variables by name. -/
structure ConstraintView where
  id : ConstraintId
  name : String
  sense : Sense
  lhs : String
  rhs : String
  text : String
  /-- The terms and the bound of the normalized constraint. -/
  terms : List (String × Float)
  bound : Float
  vars : List String
  isSatisfied : Except Failure Bool

/-- A model with its variables by name. -/
structure ModelView where
  name : String
  text : String
  vars : List String
  isMixedInteger : Bool
  direction : Direction
  objective : ExpressionView
  objectiveValue : Except Failure Float
  constraints : List String

/-- A solver with its variables by name. -/
structure SolverView where
  state : Solver Float
  vars : List String
  objectiveValue : Except Failure Float

/-- How a variable stands after a step about it. -/
structure Standing where
  text : String
  frozen : UInt32
  attached : List SolverId

/-- What a successful step answers; `ρ` is what a step of a nested script
results in. -/
inductive Reply (ρ : Type) where
  | none
  | flag (b : Bool)
  | count (n : Nat)
  | number (x : Float)
  | text (s : String)
  | texts (ss : List String)
  | ordering (o : Ordering)
  | status (s : Status)
  | offset (n : Option Nat)
  /-- A new variable. -/
  | made (x : Variable Float)
  /-- The members of a new family, by key. -/
  | family (members : List (String × Variable Float))
  | variable (view : VariableView)
  | expression (view : ExpressionView)
  | constraint (view : ConstraintView)
  | model (view : ModelView)
  | solver (view : SolverView)
  | columns (columns : Option (List (Column Float)))
  | handle (h : Handle) (isAlive : Bool)
  | config (c : Config Float)
  | problem (p : Problem Float)
  | row (r : Row Float) (activity : Float) (isSatisfied : Bool)
  | solution (s : Solution Float)
  /-- A reduced cost and a dual. -/
  | duals (reducedCost dual : Float)
  | entity (e : Entity Placement)
  | freeze (f : Freeze)
  /-- The text of a status, and whether it has a solution. -/
  | statusText (s : Status)
  /-- How a program ended: its exit code and what it wrote. -/
  | program (code : Nat) (stdout stderr : String)
  | results (rs : List ρ)

/-- A notification that a recorder took. -/
structure LogEntry (ρ : Type) where
  recorder : String
  change : Change Float
  /-- The variable as it was when the notification came. -/
  variableText : String
  during : List ρ
  refused : Option ModelErrorKind

/-- What a step results in. -/
inductive Result where
  | mk (reply : Except Failure (Reply Result)) (standing : Option Standing)
      (log : List (LogEntry Result)) (events : List (Event Float)) (during : List Result)

/-- The result of a step that never ran. -/
def Result.failed (failure : Failure) : Result := .mk (.error failure) none [] [] []

end Milp.Session
