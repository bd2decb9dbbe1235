/-
Milp.Session.Lookup — what the names of a script stand for.

A solver identity may be that of a solver, of an observer, or one drawn on
its own; a handle may be kept on its own, or be that of an observer or of a
solver. The first of these that has the name decides.
-/
import Milp.Session.View

namespace Milp.Session.State

variable (st : State)

/-- The failure that nothing of a sort has a name. -/
def unknown {β : Type} (what name : String) : Except Failure β :=
  .error (.ofScript s!"there is no {what} '{name}'")

/-- The first of several searches that succeeds. -/
def firstOf {β : Type} (what name : String) (searches : List (Option β)) : Except Failure β :=
  match searches.findSome? id with
  | some b => .ok b
  | none => unknown what name

/-- What a name stands for in one of the tables. -/
def find {β : Type} (table : Desk → Table β) (what name : String) : Except Failure β :=
  firstOf what name [(table st.memory).lookup name]

/-- A variable by name. -/
def findVariable (name : String) : Except Failure VariableRef :=
  st.find Desk.vars "variable" name

/-- An expression by name. -/
def findExpression (name : String) : Except Failure (Expression Float) :=
  st.find Desk.expressions "expression" name

/-- A solver by name. -/
def findSolver (name : String) : Except Failure (ListenerRef × Solver Float) :=
  firstOf "solver" name
    [(st.memory.solvers.lookup name).bind fun l => (st.solver? l).map fun s => (l, s)]

/-- A solver that is not in use, by name. -/
def findIdleSolver (name : String) : Except Failure (ListenerRef × Solver Float) := do
  let (l, s) ← st.findSolver name
  if (st.listener? l).any Listener.isBusy then
    .error (.ofScript s!"solver '{name}' is in use")
  else .ok (l, s)

/-- A listener by name. -/
def findListener (name : String) : Except Failure ListenerRef :=
  firstOf "listener" name [st.memory.observers.lookup name, st.memory.solvers.lookup name]

/-- A solver identity by name. -/
def findId (name : String) : Except Failure SolverId :=
  let identity (l : ListenerRef) : Option SolverId := (st.listener? l).map Listener.id
  firstOf "solver identity" name
    [(st.memory.solvers.lookup name).bind identity,
      (st.memory.observers.lookup name).bind identity,
      st.memory.ids.lookup name]

/-- A handle by name. -/
def findHandle (name : String) : Except Failure Handle :=
  firstOf "handle" name
    [st.memory.handles.lookup name,
      (st.memory.observers.lookup name).bind st.handleOf?,
      (st.memory.solvers.lookup name).bind st.handleOf?]

/-- The expression that a formula over names builds. -/
def build (e : NamedFormula) : Except Failure (Expression Float) := do
  let e ← e.resolve? st.findVariable st.findExpression
  st.answer e.build

end Milp.Session.State
