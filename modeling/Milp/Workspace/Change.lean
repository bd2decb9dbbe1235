/-
Milp.Workspace.Change — changing a variable.

Each operation stores the new state first and then tells the listeners, so
a listener reads the variable as it is after the change. A new value equal
to the old one is no change; for bounds, equal within the tolerance. While
a variable is frozen its solvers keep the pinned value: a new bound is
stored, and the listeners hear of it when the variable is released.
-/
import Milp.Workspace.Notify

namespace Milp.Workspace

variable {α μ : Type} [Scalar α]

/-- Gives a variable a name. Its default name is one that it has. -/
def setName (c : Conduct α μ) (v : VariableRef) (name : String) (ws : Workspace α μ) :
    Outcome α μ Unit :=
  if (ws.variableAt v).name.text = name then (ws, .ok ())
  else (ws.updateVariable v ({ · with name := .given name })).tellListeners c .setName v (.name name)

/-- Changes the kind of a variable. -/
def setKind (c : Conduct α μ) (v : VariableRef) (kind : VariableKind) (ws : Workspace α μ) :
    Outcome α μ Unit :=
  if (ws.variableAt v).kind = kind then (ws, .ok ())
  else (ws.updateVariable v ({ · with kind })).tellListeners c .setKind v (.kind kind)

/-- Changes one bound of a variable. -/
def setBound (c : Conduct α μ) (side : Side) (v : VariableRef) (b : α) (ws : Workspace α μ) :
    Outcome α μ Unit :=
  let x := ws.variableAt v
  if Scalar.isNaN b then (ws, .error (.undefinedBound side x.name.text))
  else if Scalar.approxEq (x.bound side) b then (ws, .ok ())
  else
    let ws := ws.updateVariable v (·.withBound side b)
    if x.freeze.isFrozen then (ws.emit (.held (.setBound side) x.name.text), .ok ())
    else ws.tellListeners c (.setBound side) v (.bound side b)

/-- Answers `true` once the listeners have been told. -/
def announce (c : Conduct α μ) (action : Action) (v : VariableRef) (bounds : α × α)
    (ws : Workspace α μ) : Outcome α μ Bool :=
  let (ws, answer) := ws.tellListeners c action v (.bounds bounds.1 bounds.2)
  (ws, answer.map fun _ => true)

/-- Freezes a variable once more. The first freeze pins the bounds its
solvers see to its value, and is answered with `true`. -/
def freeze (c : Conduct α μ) (v : VariableRef) (ws : Workspace α μ) : Outcome α μ Bool :=
  let x := ws.variableAt v
  let deeper := ws.updateVariable v fun x => { x with freeze := x.freeze.deepen }
  if x.freeze.isFrozen then (deeper, .ok false)
  else
    match x.value with
    | .error e => (ws, .error e)
    | .ok pinned => deeper.announce c .freeze v (pinned, pinned)

/-- Releases a variable once. The last release restores the bounds its
solvers see, and is answered with `true`. -/
def unfreeze (c : Conduct α μ) (v : VariableRef) (ws : Workspace α μ) : Outcome α μ Bool :=
  let x := ws.variableAt v
  let released := ws.updateVariable v fun x => { x with freeze := x.freeze.release }
  if x.freeze = .frozen 1 then released.announce c .unfreeze v (x.lower, x.upper)
  else (released, .ok false)

/-- Gives a variable the level a solver found for it. -/
def assign (ws : Workspace α μ) (v : VariableRef) (level : Level α) : Workspace α μ :=
  (ws.updateVariable v ({ · with assigned := some level })).emit
    (.assigned (ws.nameOf v) level)

end Milp.Workspace
