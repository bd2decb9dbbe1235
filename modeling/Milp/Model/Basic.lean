/-
Milp.Model.Basic — objectives and whole models.

A model is an objective and its constraints. It never lists its variables:
they are those its expressions use, each once, the objective's first and
then the constraints' in the order the constraints were added.
-/
import Milp.Model.Constraint

namespace Milp

/-- An expression to minimize or maximize. -/
structure Objective (α : Type) where
  direction : Direction
  expression : Expression α
  deriving Repr

/-- One objective and its constraints. -/
structure Model (α : Type) where
  name : String
  objective : Objective α
  constraints : List (Constraint α)
  deriving Repr

variable {α : Type} [Scalar α]

/-- `Minimize` or `Maximize`, and the expression. -/
def Objective.text (number : α → String) (name : VariableRef → String) (o : Objective α) :
    String :=
  o.direction.text ++ " " ++ o.expression.text number name

namespace Model

/-- A model that minimizes nothing under no constraint. -/
def empty (name : String) : Model α := ⟨name, ⟨.minimize, Expression.zero⟩, []⟩

/-- The model with a constraint added at the end. -/
def addConstraint (m : Model α) (c : Constraint α) : Model α :=
  { m with constraints := m.constraints ++ [c] }

/-- Every variable of the model, each once, in order of first appearance. -/
def vars (m : Model α) : List VariableRef :=
  (m.objective.expression.vars ++ m.constraints.flatMap Constraint.vars).eraseDups

/-- The whole model, a line for each part; `describe` writes a variable
with its kind and bounds. -/
def text (number : α → String) (name describe : VariableRef → String) (m : Model α) : String :=
  let lines := ["Model '" ++ m.name ++ "'", m.objective.text number name, "Subject to:"]
    ++ m.constraints.map (fun c => "  " ++ c.text number name)
    ++ ["Variables:"]
    ++ m.vars.map (fun v => "  " ++ describe v)
  String.join (lines.map (· ++ "\n"))

end Model

end Milp
