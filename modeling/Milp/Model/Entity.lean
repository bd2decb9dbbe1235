/-
Milp.Model.Entity — identity, name and placement of the things in a model.

Identities are numbers drawn from a counter and never given out twice.
An entity also remembers what the solver that assigned it last said of it:
at least its `Placement`, the offset it has there.
-/
import Milp.Variable.Name

namespace Milp

/-- The identity of a constraint. -/
abbrev ConstraintId := Nat

/-- The identity of a solver, or of another listener that stands for one. -/
abbrev SolverId := Nat

/-- Where an entity sits in the solver that assigned it last. -/
structure Placement where
  solver : SolverId
  offset : Nat
  deriving DecidableEq, Repr

/-- An identity with a name and, once a solver has assigned it, what the
last such solver said. -/
structure Entity (π : Type) where
  id : VariableId
  name : VariableName
  assigned : Option π := none
  deriving Repr

namespace Entity

variable {π : Type}

/-- The entity under the name it is given. -/
def rename (e : Entity π) (name : String) : Entity π := { e with name := .given name }

/-- The entity as the latest assignment leaves it. -/
def assign (e : Entity π) (p : π) : Entity π := { e with assigned := some p }

/-- The entity as if no solver had assigned it. -/
def clear (e : Entity π) : Entity π := { e with assigned := none }

/-- Whether some solver has assigned the entity. -/
def isAssigned (e : Entity π) : Bool := e.assigned.isSome

end Entity

end Milp
