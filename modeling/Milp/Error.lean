/-
Milp.Error — the ways an operation can fail, as causes.

A `SolverError` comes from a backend or from the search for one, a
`ModelError` from an operation on the model; the second includes the first.
Each cause belongs to one kind, and its message is the kind's opening
followed by the detail of the cause. `stated` is a failure whose words come
from outside: an observer's refusal, or a backend's own report.
-/
import Milp.Model.Constraint
import Milp.Problem.Violation

namespace Milp

/-! ## Kinds -/

/-- The kinds of a backend's failure. -/
inductive SolverErrorKind where
  | invalidProblem
  | notAvailable
  | executionFailed
  deriving DecidableEq, Repr

/-- The kinds of a model operation's failure. -/
inductive ModelErrorKind where
  | invalidState
  | invalidArgument
  | unsupported
  | solver (kind : SolverErrorKind)
  deriving DecidableEq, Repr

/-- How a message of the kind opens. -/
def SolverErrorKind.opening : SolverErrorKind → String
  | .invalidProblem => "Invalid problem: "
  | .notAvailable => "Solver not available: "
  | .executionFailed => "Solver execution failed: "

/-- How a message of the kind opens. -/
def ModelErrorKind.opening : ModelErrorKind → String
  | .invalidState => "Invalid state: "
  | .invalidArgument => "Invalid argument: "
  | .unsupported => "Unsupported operation: "
  | .solver kind => kind.opening

/-- The name of a kind. -/
def SolverErrorKind.name : SolverErrorKind → String
  | .invalidProblem => "InvalidProblem"
  | .notAvailable => "SolverNotAvailable"
  | .executionFailed => "ExecutionFailed"

/-- The full description of an error of the kind, `detail` in quotes being
its words. -/
def ModelErrorKind.describe (detail : String) : ModelErrorKind → String
  | .invalidState => s!"InvalidState({detail})"
  | .invalidArgument => s!"InvalidArgument({detail})"
  | .unsupported => s!"Unsupported({detail})"
  | .solver kind => s!"Solver({kind.name}({detail}))"

/-! ## Causes -/

/-- Why a backend did not solve a problem, or could not be had. -/
inductive SolverError (α : Type) where
  /-- The problem has defects. -/
  | violations (found : List (Violation α))
  /-- The backend cannot take whole values, and the problem asks for some. -/
  | integerColumns (backend : String)
  /-- The backend gave another number of values than there are columns. -/
  | valueCount (backend : String) (values columns : Nat)
  /-- The engine is not installed; for `auto`, none is. -/
  | notInstalled (engine : Engine)
  /-- A failure in words of its own. -/
  | stated (kind : SolverErrorKind) (detail : String)
  deriving DecidableEq, Repr

/-- A bound of a variable. -/
inductive Side where
  | lower
  | upper
  deriving DecidableEq, Repr

/-- The name of a bound in texts. -/
def Side.text : Side → String
  | .lower => "lower"
  | .upper => "upper"

/-- Why an operation on a model failed. -/
inductive ModelError (α : Type) where
  /-- No solver has given the variable a value. -/
  | unassigned (variableName : String)
  /-- The new bound is undefined. -/
  | undefinedBound (side : Side) (variableName : String)
  /-- The listener is in use and cannot be notified. -/
  | busy (listener : SolverId)
  /-- An expression was to be divided by zero. -/
  | zeroDivisor (dividend : Expression α)
  /-- Two sides were to be constrained to differ. -/
  | notEqual (lhs rhs : Expression α)
  /-- A solver's model does not use the variable. -/
  | foreignVariable (variableName model : String)
  /-- A solver's problem has no row for the constraint. -/
  | foreignConstraint (constraint model : String)
  /-- The reference names no solver. -/
  | noSolver
  /-- The solver has not generated its problem. -/
  | notGenerated (solver : SolverId)
  /-- The solver has no solution at hand. -/
  | notSolved (solver : SolverId) (model : String)
  /-- The solution has no objective value. -/
  | noObjective (solver : SolverId) (model : String)
  /-- A family of variables was asked for over no members. -/
  | noMembers (family : String)
  /-- A family of variables was asked for over members that repeat. -/
  | repeatedMember (family member : String)
  /-- The backend failed. -/
  | solver (cause : SolverError α)
  /-- A failure in words of its own. -/
  | stated (kind : ModelErrorKind) (detail : String)
  deriving DecidableEq, Repr

variable {α : Type}

/-- The kind of a cause. -/
def SolverError.kind : SolverError α → SolverErrorKind
  | .violations _ | .integerColumns _ => .invalidProblem
  | .valueCount .. => .executionFailed
  | .notInstalled _ => .notAvailable
  | .stated kind _ => kind

/-- Checks a problem before it is solved. -/
def Problem.validate [Scalar α] (p : Problem α) : Except (SolverError α) Unit :=
  if p.violations.isEmpty then .ok () else .error (.violations p.violations)

/-- The kind of a cause. -/
def ModelError.kind : ModelError α → ModelErrorKind
  | .unassigned _ | .busy _ | .foreignVariable .. | .noSolver | .notGenerated _ | .notSolved ..
  | .noObjective .. => .invalidState
  | .undefinedBound .. | .zeroDivisor _ | .foreignConstraint .. | .noMembers _
  | .repeatedMember .. => .invalidArgument
  | .notEqual .. => .unsupported
  | .solver cause => .solver cause.kind
  | .stated kind _ => kind

/-! ## Messages -/

/-- The words for one defect of a problem. -/
def Violation.text (number : α → String) : Violation α → String
  | .coefficientCount coefficients columns =>
    s!"Objective has {coefficients} coefficients but problem has {columns} columns"
  | .unknownColumn row name offset columns =>
    s!"Row {row} '{name}' references column {offset} but problem has {columns} columns"
  | .undefinedBound row name => s!"Row {row} '{name}' has a NaN bound"
  | .crossedBounds column name lower upper =>
    s!"Column {column} '{name}' has lower bound ({number lower}) > upper bound ({number upper})"

/-- What is said when an engine is not installed. -/
def Engine.missingText : Engine → String
  | .auto => "no backend compiled in; enable the `cbc` or `highs` feature"
  | .cbc => "COIN-OR CBC support requires the `cbc` feature"
  | .highs => "HiGHS support requires the `highs` feature"

/-- The words of a cause, without the opening of its kind. -/
def SolverError.detail (number : α → String) : SolverError α → String
  | .violations found => "; ".intercalate (found.map (Violation.text number))
  | .integerColumns backend => s!"backend {backend} cannot solve integer variables"
  | .valueCount backend values columns =>
    s!"backend {backend} returned {values} values for {columns} columns"
  | .notInstalled engine => engine.missingText
  | .stated _ detail => detail

/-- The message of a backend's failure. -/
def SolverError.message (number : α → String) (e : SolverError α) : String :=
  e.kind.opening ++ e.detail number

/-- The words of a cause, without the opening of its kind. -/
def ModelError.detail [Scalar α] (number : α → String) (name : VariableRef → String) :
    ModelError α → String
  | .unassigned v => s!"variable '{v}' has no value: it has not been assigned by a solver"
  | .undefinedBound side v => s!"{side.text} bound of variable '{v}' cannot be NaN"
  | .busy listener => s!"solver {listener} is busy and cannot be notified"
  | .zeroDivisor dividend => s!"cannot divide expression '{dividend.text number name}' by zero"
  | .notEqual lhs rhs =>
    s!"cannot use != between '{lhs.text number name}' and '{rhs.text number name}': "
      ++ "linear models have no not-equal constraint"
  | .foreignVariable v model => s!"variable '{v}' is not part of model '{model}'"
  | .foreignConstraint constraint model =>
    s!"constraint '{constraint}' is not part of model '{model}'"
  | .noSolver => "there is no such solver"
  | .notGenerated id => s!"solver {id} has not generated its problem"
  | .notSolved id model => s!"solver {id} has no solution for model '{model}'"
  | .noObjective id model => s!"solver {id} found no solution for model '{model}'"
  | .noMembers family => s!"{family} has no members to key variables by"
  | .repeatedMember family member => s!"{family} lists member '{member}' more than once"
  | .solver cause => cause.detail number
  | .stated _ detail => detail

/-- The message of a failure. -/
def ModelError.message [Scalar α] (number : α → String) (name : VariableRef → String)
    (e : ModelError α) : String :=
  e.kind.opening ++ e.detail number name

end Milp
