/-
Milp.Workspace.Basic — variables and the listeners attached to them.

A workspace holds the variables, the solvers and the observers that live
together, the counters their identities come from, and the record of
events. A listener lives while it is owned or in use; one that is in use
cannot be notified.

What observers and backends remember between calls is `memory`, of a type
of their own, and what they do is a `Conduct`: an observer's reaction to a
change, and a backend's answer to a problem. Both may act on the workspace.

A workspace is read through `Workspace.variableAt` and `Workspace.listener?`;
the lemmas beside the operations say what each of them does to the two.
-/
import Milp.Solver.Basic
import Milp.Workspace.Event

namespace Milp

/-- What a listener is. -/
inductive Role (α : Type) where
  | solver (s : Solver α)
  | observer (id : SolverId)
  deriving Repr

/-- A solver or an observer, with its standing. -/
structure Listener (α : Type) where
  role : Role α
  /-- Somebody other than its current users keeps it. -/
  owned : Bool := true
  /-- How many calls are using it at the moment. -/
  uses : Nat := 0
  deriving Repr

namespace Listener

variable {α : Type}

/-- The identity of a listener. -/
def id (l : Listener α) : SolverId :=
  match l.role with
  | .solver s => s.id
  | .observer id => id

/-- Whether handles still reach the listener. -/
def isAlive (l : Listener α) : Bool := l.owned || 0 < l.uses

/-- Whether the listener is in use and cannot be notified. -/
def isBusy (l : Listener α) : Bool := 0 < l.uses

/-- The solver a listener is, if it is one. -/
def solver? (l : Listener α) : Option (Solver α) :=
  match l.role with
  | .solver s => some s
  | .observer _ => none

/-- The listener with its solver changed, if it is one. -/
def mapSolver (f : Solver α → Solver α) (l : Listener α) : Listener α :=
  match l.role with
  | .solver s => { l with role := .solver (f s) }
  | .observer _ => l

end Listener

/-- Variables, listeners, counters and events, with what the clients keep. -/
structure Workspace (α μ : Type) where
  /-- The variables, by the index of their references. -/
  vars : List (Variable α) := []
  /-- The listeners, by the index of their references. -/
  listeners : List (Listener α) := []
  nextVariable : VariableId := 0
  nextConstraint : ConstraintId := 0
  nextSolver : SolverId := 0
  /-- The events, the latest first. -/
  events : List (Event α) := []
  memory : μ

/-- What an operation leaves and what it answers. -/
abbrev Outcome (α μ β : Type) := Workspace α μ × Except (ModelError α) β

/-- How the clients of a workspace behave. -/
structure Conduct (α μ : Type) where
  /-- An observer is told of a change of a variable. -/
  receive : ListenerRef → VariableRef → Change α → Workspace α μ → Outcome α μ Unit
  /-- The backend of a solver is given a problem. -/
  answer : ListenerRef → Problem α → Workspace α μ →
    Workspace α μ × Except (SolverError α) (Solution α)

namespace Workspace

variable {α μ : Type}

/-- Records an event. -/
def emit (ws : Workspace α μ) (event : Event α) : Workspace α μ :=
  { ws with events := event :: ws.events }

/-! ## Variables -/

/-- The variable of a reference. A reference from elsewhere reads as the
blank variable. -/
def variableAt [Scalar α] (ws : Workspace α μ) (v : VariableRef) : Variable α :=
  ws.vars.getD v.index .blank

/-- The name of a variable in texts. -/
def nameOf [Scalar α] (ws : Workspace α μ) (v : VariableRef) : String :=
  (ws.variableAt v).name.text

/-- Changes one variable. -/
def updateVariable (ws : Workspace α μ) (v : VariableRef) (f : Variable α → Variable α) :
    Workspace α μ :=
  { ws with vars := ws.vars.modify v.index f }

@[simp] theorem variableAt_emit [Scalar α] (ws : Workspace α μ) (event : Event α)
    (v : VariableRef) : (ws.emit event).variableAt v = ws.variableAt v := rfl

/-- A change of a variable is seen when it is looked up. -/
theorem variableAt_updateVariable_self [Scalar α] {ws : Workspace α μ} {v : VariableRef}
    (h : v.index < ws.vars.length) (f : Variable α → Variable α) :
    (ws.updateVariable v f).variableAt v = f (ws.variableAt v) := by
  simp [variableAt, updateVariable, List.getD_eq_getElem?_getD, h]

/-- No other variable changes with it. -/
theorem variableAt_updateVariable_of_ne [Scalar α] {v w : VariableRef} (h : w ≠ v)
    (ws : Workspace α μ) (f : Variable α → Variable α) :
    (ws.updateVariable v f).variableAt w = ws.variableAt w := by
  have indices : v.index ≠ w.index := fun same => h (by cases v; cases w; simp_all)
  simp [variableAt, updateVariable, List.getD_eq_getElem?_getD, indices]

/-- Takes a fresh variable identity. -/
def drawVariableId (ws : Workspace α μ) : Workspace α μ × VariableId :=
  ({ ws with nextVariable := ws.nextVariable + 1 }, ws.nextVariable)

/-- Makes a new variable. -/
def newVariable (ws : Workspace α μ) (spec : VariableSpec α) : Workspace α μ × VariableRef :=
  let (ws, id) := ws.drawVariableId
  ({ ws with vars := ws.vars ++ [.ofSpec id spec] }, ⟨ws.vars.length⟩)

/-! ## Constraints -/

/-- Makes a new constraint under its default name. -/
def newConstraint (ws : Workspace α μ) (lhs : Expression α) (sense : Sense)
    (rhs : Expression α) : Workspace α μ × Constraint α :=
  let id := ws.nextConstraint
  ({ ws with nextConstraint := id + 1 }, ⟨id, Constraint.defaultName id, lhs, sense, rhs⟩)

/-! ## Listeners -/

/-- The listener of a reference. -/
def listener? (ws : Workspace α μ) (l : ListenerRef) : Option (Listener α) :=
  ws.listeners[l.index]?

/-- The solver of a reference. -/
def solver? (ws : Workspace α μ) (l : ListenerRef) : Option (Solver α) :=
  (ws.listener? l).bind Listener.solver?

/-- Changes one listener. -/
def updateListener (ws : Workspace α μ) (l : ListenerRef) (f : Listener α → Listener α) :
    Workspace α μ :=
  { ws with listeners := ws.listeners.modify l.index f }

@[simp] theorem listener?_emit (ws : Workspace α μ) (event : Event α) (l : ListenerRef) :
    (ws.emit event).listener? l = ws.listener? l := rfl

@[simp] theorem listener?_updateVariable (ws : Workspace α μ) (v : VariableRef)
    (f : Variable α → Variable α) (l : ListenerRef) :
    (ws.updateVariable v f).listener? l = ws.listener? l := rfl

@[simp] theorem variableAt_updateListener [Scalar α] (ws : Workspace α μ) (l : ListenerRef)
    (f : Listener α → Listener α) (v : VariableRef) :
    (ws.updateListener l f).variableAt v = ws.variableAt v := rfl

/-- A change of a listener is seen when it is looked up. -/
@[simp] theorem listener?_updateListener_self (ws : Workspace α μ) (l : ListenerRef)
    (f : Listener α → Listener α) :
    (ws.updateListener l f).listener? l = (ws.listener? l).map f := by
  simp [listener?, updateListener]

/-- No other listener changes with it. -/
theorem listener?_updateListener_of_ne {k l : ListenerRef} (h : k ≠ l) (ws : Workspace α μ)
    (f : Listener α → Listener α) : (ws.updateListener l f).listener? k = ws.listener? k := by
  have indices : l.index ≠ k.index := fun same => h (by cases k; cases l; simp_all)
  simp [listener?, updateListener, indices]

/-- Changes one solver. -/
def updateSolver (ws : Workspace α μ) (l : ListenerRef) (f : Solver α → Solver α) :
    Workspace α μ :=
  ws.updateListener l (Listener.mapSolver f)

/-- Takes a fresh solver identity. -/
def drawSolverId (ws : Workspace α μ) : Workspace α μ × SolverId :=
  ({ ws with nextSolver := ws.nextSolver + 1 }, ws.nextSolver)

/-- Makes a new listener, which its maker owns. -/
def newListener (ws : Workspace α μ) (role : SolverId → Role α) :
    Workspace α μ × ListenerRef :=
  let (ws, id) := ws.drawSolverId
  ({ ws with listeners := ws.listeners ++ [{ role := role id }] }, ⟨ws.listeners.length⟩)

/-- Makes a new solver for a model. -/
def newSolver (ws : Workspace α μ) (model : Model α) (backend : Backend) (config : Config α) :
    Workspace α μ × ListenerRef :=
  ws.newListener fun id => .solver ⟨id, model, backend, config, none, none⟩

/-- Makes a new observer. -/
def newObserver (ws : Workspace α μ) : Workspace α μ × ListenerRef :=
  ws.newListener .observer

/-- The handle of a listener. -/
def handleOf? (ws : Workspace α μ) (l : ListenerRef) : Option Handle :=
  (ws.listener? l).map fun listener => ⟨listener.id, l⟩

/-- Whether a handle still reaches its listener. -/
def isAlive (ws : Workspace α μ) (h : Handle) : Bool :=
  (ws.listener? h.listener).any Listener.isAlive

/-! ## Attachment -/

/-- Attaches a listener to a variable. One that is attached already keeps
its place, and nothing is recorded. -/
def attach [Scalar α] (ws : Workspace α μ) (v : VariableRef) (h : Handle) : Workspace α μ :=
  let x := ws.variableAt v
  if x.isAttached h.id then ws
  else (ws.emit (.attached x.name.text h.id)).updateVariable v (·.attach h)

/-- Removes the handles of one identity from a variable. -/
def detach (ws : Workspace α μ) (v : VariableRef) (id : SolverId) : Workspace α μ :=
  ws.updateVariable v (·.detach [id])

/-- Removes the handles of one identity from several variables. -/
def detachAll (ws : Workspace α μ) (vs : List VariableRef) (id : SolverId) : Workspace α μ :=
  vs.foldl (fun ws v => ws.detach v id) ws

/-! ## The life of a listener -/

/-- What is left to do when a listener dies: a solver detaches itself from
the variables it generated columns for. -/
def retire (ws : Workspace α μ) (l : ListenerRef) : Workspace α μ :=
  match ws.solver? l with
  | some s => ws.detachAll s.vars s.id
  | none => ws

/-- Retires a listener that has just died. -/
def retireIfDead (ws : Workspace α μ) (l : ListenerRef) : Workspace α μ :=
  if (ws.listener? l).any Listener.isAlive then ws else ws.retire l

/-- Takes a listener into use. -/
def hold (ws : Workspace α μ) (l : ListenerRef) : Workspace α μ :=
  ws.updateListener l fun listener => { listener with uses := listener.uses + 1 }

/-- Ends one use of a listener. -/
def release (ws : Workspace α μ) (l : ListenerRef) : Workspace α μ :=
  (ws.updateListener l fun listener => { listener with uses := listener.uses - 1 }).retireIfDead l

/-- Gives a listener up. If it is in use it dies when that use ends. -/
def drop (ws : Workspace α μ) (l : ListenerRef) : Workspace α μ :=
  (ws.updateListener l fun listener => { listener with owned := false }).retireIfDead l

end Workspace

end Milp
