/-
Milp.Model.Constraint — two expressions and how they compare.

* `Constraint.normalized` moves every variable to the left and every
  constant to the right: the merged terms of `lhs - rhs` against a bound.
* `Constraint.isSatisfied` compares the two sides as they were written, at
  the variables' current values.
-/
import Milp.Model.Entity
import Milp.Model.Expression
import Milp.Problem.Choice

namespace Milp

/-- `lhs sense rhs`, with an identity and a name. -/
structure Constraint (α : Type) where
  id : ConstraintId
  name : String
  lhs : Expression α
  sense : Sense
  rhs : Expression α
  deriving DecidableEq, Repr

/-- The three-way comparison of the sides that a sense asks for. -/
def Sense.holds : Sense → Ordering → Bool
  | .atMost, o => o != .gt
  | .equal, o => o == .eq
  | .atLeast, o => o != .lt

namespace Constraint

variable {α : Type} [Scalar α]

/-- The name of a constraint that was given none. -/
def defaultName (id : ConstraintId) : String := "Con_" ++ toString id

/-- The merged terms of `lhs - rhs`, and the bound they compare with. -/
def normalized (c : Constraint α) : List (VariableRef × α) × α :=
  let difference := (c.lhs.minus c.rhs).assemble
  (difference.terms, -difference.constant)

/-- The variables of both sides, each once, in order of first appearance. -/
def vars (c : Constraint α) : List VariableRef :=
  (c.lhs.vars ++ c.rhs.vars).eraseDups

/-- Whether the sides compare as they should, within the tolerance, where
`read` gives the value of a variable. -/
def isSatisfied {ε : Type} (read : VariableRef → Except ε α) (c : Constraint α) : Except ε Bool :=
  (c.lhs.value read).bind fun lhs =>
    (c.rhs.value read).map fun rhs => c.sense.holds (Scalar.compare lhs rhs)

/-- `name : lhs sense rhs`. -/
def text (number : α → String) (name : VariableRef → String) (c : Constraint α) : String :=
  c.name ++ " : " ++ c.lhs.text number name ++ " " ++ c.sense.symbol ++ " "
    ++ c.rhs.text number name

end Constraint

end Milp
