/-
Milp.Workspace.Event — the record of what happened.

Every operation that a listener hears of, and every step of a solver, is
recorded as an event. An event names its variable, model and solver as they
were called at that moment.
-/
import Milp.Problem.Solution
import Milp.Variable.Basic

namespace Milp

/-- A change of a variable, as its listeners hear of it. -/
inductive Change (α : Type) where
  | bound (side : Side) (value : α)
  /-- Both bounds in one step. -/
  | bounds (lower upper : α)
  | kind (kind : VariableKind)
  | name (name : String)
  deriving DecidableEq, Repr

/-- The operation in which a solver hears of a change. -/
def Change.operation {α : Type} : Change α → String
  | .bound side _ => "set_variable_" ++ side.text
  | .bounds .. => "set_variable_bounds"
  | .kind _ => "set_variable_type"
  | .name _ => "set_variable_name"

/-- An operation on a variable that its listeners hear of. -/
inductive Action where
  | setName
  | setBound (side : Side)
  | setKind
  | freeze
  | unfreeze
  deriving DecidableEq, Repr

/-- The name of an operation in events. -/
def Action.text : Action → String
  | .setName => "set_name"
  | .setBound side => "set_" ++ side.text
  | .setKind => "set_type"
  | .freeze => "freeze"
  | .unfreeze => "unfreeze"

/-- One thing that happened. -/
inductive Event (α : Type) where
  /-- A variable was given a level. -/
  | assigned (variableName : String) (level : Level α)
  /-- A listener was attached to a variable. -/
  | attached (variableName : String) (listener : SolverId)
  /-- A listener accepted the notification of a change. -/
  | notified (action : Action) (variableName : String) (listener : SolverId)
  /-- A new bound is held back until the variable is released. -/
  | held (action : Action) (variableName : String)
  /-- Handles of dead listeners were removed. -/
  | pruned (action : Action) (variableName : String) (count : Nat)
  /-- A solver generated its problem. -/
  | generated (solver : SolverId) (model : String) (columns rows integerColumns : Nat)
  /-- A solver is about to ask its backend. -/
  | solveStarted (solver : SolverId) (backend : String) (columns rows : Nat)
  /-- A backend answered, and its answer was taken over. -/
  | solved (solver : SolverId) (status : Status) (objective : Option α) (message : String)
  /-- A solver was told of a variable that it has no column for. -/
  | noColumn (operation : String) (solver : SolverId) (variableName : String)
  deriving DecidableEq, Repr

/-- How much an event matters. -/
inductive Severity where
  | trace
  | debug
  | info
  | warn
  deriving DecidableEq, Repr

/-- The name of a severity in the record. -/
def Severity.text : Severity → String
  | .trace => "TRACE"
  | .debug => "DEBUG"
  | .info => "INFO"
  | .warn => "WARN"

/-- One value of an event. -/
inductive FieldValue (α : Type) where
  | text (s : String)
  | count (n : Nat)
  | number (x : α)
  deriving DecidableEq, Repr

namespace Event

variable {α : Type}

/-- How much an event matters. -/
def severity : Event α → Severity
  | assigned .. => .trace
  | attached .. | notified .. | held .. | noColumn .. => .debug
  | generated .. | solveStarted .. | solved .. => .info
  | pruned .. => .warn

/-- The fields of an event, by name. A field without a value is left out. -/
def fields : Event α → List (String × FieldValue α)
  | assigned v level =>
    [("component", .text "variable"), ("operation", .text "assign"), ("variable", .text v),
      ("solver", .count level.placement.solver), ("offset", .count level.placement.offset),
      ("value", .number level.value), ("reduced_cost", .number level.reducedCost)]
  | attached v listener =>
    [("component", .text "variable"), ("operation", .text "attach"), ("variable", .text v),
      ("solver", .count listener)]
  | notified action v listener =>
    [("component", .text "variable"), ("operation", .text action.text), ("variable", .text v),
      ("solver", .count listener)]
  | held action v =>
    [("component", .text "variable"), ("operation", .text action.text), ("variable", .text v),
      ("message", .text "variable is frozen; bound change held until unfreeze")]
  | pruned action v count =>
    [("component", .text "variable"), ("operation", .text action.text), ("variable", .text v),
      ("dropped", .count count), ("message", .text "pruning handles of dropped solvers")]
  | generated solver model columns rows integerColumns =>
    [("component", .text "solver"), ("operation", .text "generate"), ("solver", .count solver),
      ("model", .text model), ("columns", .count columns), ("rows", .count rows),
      ("integer_columns", .count integerColumns)]
  | solveStarted solver backend columns rows =>
    [("component", .text "solver"), ("operation", .text "solve"), ("status", .text "start"),
      ("solver", .count solver), ("backend", .text backend), ("columns", .count columns),
      ("rows", .count rows)]
  | solved solver status objective message =>
    [("component", .text "solver"), ("operation", .text "solve"), ("status", .text status.text),
      ("solver", .count solver)]
    ++ (objective.elim [] fun x => [("objective", .number x)])
    ++ [("message", .text message)]
  | noColumn operation solver v =>
    [("component", .text "solver"), ("operation", .text operation), ("solver", .count solver),
      ("variable", .text v), ("message", .text "variable has no column in this solver")]

end Event

end Milp
