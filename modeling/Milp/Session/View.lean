/-
Milp.Session.View — parts of a session as its answers show them.

A view reads the workspace at one moment: names in the place of references,
values as they are now, and failures as kind and message.
-/
import Milp.Session.Desk

namespace Milp.Session

/-- The failure that an error of the model is, with its message. -/
def Failure.ofModelError (st : State) (e : ModelError Float) : Failure :=
  ⟨.model e.kind, e.message numberText st.nameOf⟩

/-- The failure that a backend's error on its own is. -/
def Failure.ofSolverError (e : SolverError Float) : Failure :=
  ⟨.solver e.kind, e.message numberText⟩

/-- The failure of a step that names something unknown. -/
def Failure.ofScript (message : String) : Failure := ⟨.script, message⟩

namespace State

variable (st : State)

/-- An answer of the model, with its failure as a message. -/
def answer {β : Type} (r : Except (ModelError Float) β) : Except Failure β :=
  r.mapError (Failure.ofModelError st)

/-- The value of a variable. -/
def valueOf (v : VariableRef) : Except (ModelError Float) Float := (st.variableAt v).value

/-- The text of a variable. -/
def variableText (v : VariableRef) : String := (st.variableAt v).text numberText

/-- A variable with its level. -/
def variableView (v : VariableRef) : VariableView :=
  let x := st.variableAt v
  ⟨x, st.answer x.value, st.answer x.reducedCost⟩

/-- How a variable stands. -/
def standing (v : VariableRef) : Standing :=
  let x := st.variableAt v
  ⟨x.text numberText, x.freeze.count, x.handles.map Handle.id⟩

/-- Terms with their variables by name. -/
def termsView (terms : List (VariableRef × Float)) : List (String × Float) :=
  terms.map fun (v, c) => (st.nameOf v, c)

/-- The text of an expression. -/
def expressionText (e : Expression Float) : String := e.text numberText st.nameOf

/-- The text of a constraint. -/
def constraintText (c : Constraint Float) : String := c.text numberText st.nameOf

/-- An expression with its variables by name. -/
def expressionView (e : Expression Float) : ExpressionView where
  constant := e.constant
  terms := st.termsView e.terms
  isConstant := e.isConstant
  vars := e.vars.map st.nameOf
  text := st.expressionText e
  value := st.answer (e.value st.valueOf)

/-- A constraint with its variables by name. -/
def constraintView (c : Constraint Float) : ConstraintView where
  id := c.id
  name := c.name
  sense := c.sense
  lhs := st.expressionText c.lhs
  rhs := st.expressionText c.rhs
  text := st.constraintText c
  terms := st.termsView c.normalized.1
  bound := c.normalized.2
  vars := c.vars.map st.nameOf
  isSatisfied := st.answer (c.isSatisfied st.valueOf)

/-- A model with its variables by name. -/
def modelView (m : Model Float) : ModelView where
  name := m.name
  text := m.text numberText st.nameOf st.variableText
  vars := m.vars.map st.nameOf
  isMixedInteger := m.vars.any fun v => (st.variableAt v).isInteger
  direction := m.objective.direction
  objective := st.expressionView m.objective.expression
  objectiveValue := st.answer (m.objective.expression.value st.valueOf)
  constraints := m.constraints.map st.constraintText

/-- A solver with its variables by name. -/
def solverView (s : Solver Float) : SolverView where
  state := s
  vars := s.vars.map st.nameOf
  objectiveValue := st.answer s.objectiveValue

end State

end Milp.Session
