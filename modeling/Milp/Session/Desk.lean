/-
Milp.Session.Desk — what a session keeps by name.

The desk holds a table for each sort of thing, the recorders and scripted
backends behind the session's listeners, and what the step at hand has
gathered so far: notifications taken by recorders, and results of the steps
a backend ran.
-/
import Milp.Decimal.Text
import Milp.Session.Script

namespace Milp.Session

/-- Things by name; a name stands for the thing it was given last. -/
abbrev Table (β : Type) := List (String × β)

/-- The table without a name. -/
def Table.remove {β : Type} (t : Table β) (name : String) : Table β := t.filter (·.1 != name)

/-- The table with a name given to a thing. -/
def Table.put {β : Type} (t : Table β) (name : String) (b : β) : Table β :=
  (name, b) :: t.remove name

/-- An observer that records what it is told. -/
structure Recorder where
  label : String
  /-- The kind of error it refuses with, if it refuses. -/
  refusal : Option ModelErrorKind
  /-- What it does on every notification. -/
  reaction : Script

/-- What a session keeps. -/
structure Desk where
  vars : Table VariableRef := []
  expressions : Table (Expression Float) := []
  constraints : Table (Constraint Float) := []
  models : Table (Model Float) := []
  solvers : Table ListenerRef := []
  observers : Table ListenerRef := []
  ids : Table SolverId := []
  handles : Table Handle := []
  entities : Table (Entity Placement) := []
  problems : Table (Problem Float) := []
  solutions : Table (Solution Float) := []
  recorders : List (ListenerRef × Recorder) := []
  /-- The backends, with the number of answers they have given. -/
  backends : List (ListenerRef × ScriptedBackend Step × Nat) := []
  /-- The notifications of the step at hand, the latest first. -/
  log : List (LogEntry Result) := []
  /-- The results of the steps that a backend ran in the step at hand. -/
  during : List Result := []

/-- A workspace with the session's things. -/
abbrev State := Workspace Float Desk

/-- A session in which nothing has been made. -/
def State.initial : State := { memory := {} }

/-- Sets the default name of a variable apart from a name that a script writes.
A session shows identities as they count within it; a script that writes
`Var_0` has not seen the identity the variable was made under, and so has not
named its default name. -/
def State.setApart (st : State) (v : VariableRef) (name : String) : State :=
  st.updateVariable v fun x =>
    if x.name.given?.isNone && x.name.text == name then { x with name := .given "" } else x

/-- Changes what the session keeps. -/
def State.updateDesk (st : State) (f : Desk → Desk) : State := { st with memory := f st.memory }

end Milp.Session
