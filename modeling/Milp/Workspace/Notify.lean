/-
Milp.Workspace.Notify — telling the listeners of a variable.

`Workspace.tellListeners` tells the listeners that are attached when it starts, in
their order, and stops at the first that is busy or refuses. Listeners that
turn out to be dead are passed over; when all the others have accepted,
their handles are removed from the list as it then is.
-/
import Milp.Workspace.Basic

namespace Milp

/-- The column after a change of its variable. -/
def Column.apply {α : Type} (c : Column α) : Change α → Column α
  | .bound .lower b => { c with lower := b }
  | .bound .upper b => { c with upper := b }
  | .bounds lower upper => { c with lower, upper }
  | .kind kind => { c with kind }
  | .name name => { c with name := .given name }

/-- The generated problem with one column changed. -/
def Generated.updateColumn {α : Type} (g : Generated α) (offset : Nat) (change : Change α) :
    Generated α :=
  { g with problem.columns := g.problem.columns.modify offset (·.apply change) }

namespace Workspace

variable {α μ : Type} [Scalar α]

/-- Tells a solver of a change: it changes the variable's column, or
records that it has none. -/
def tellSolver (ws : Workspace α μ) (l : ListenerRef) (v : VariableRef) (change : Change α) :
    Workspace α μ :=
  match ws.solver? l with
  | none => ws
  | some s =>
    match s.offset? v with
    | some offset =>
      ws.updateSolver l fun s =>
        { s with generated := s.generated.map (·.updateColumn offset change) }
    | none => ws.emit (.noColumn change.operation s.id (ws.nameOf v))

/-- Tells the listener behind a handle of a change. The answer is `false`
when the listener is dead; a listener in use is not told at all. -/
def notify (c : Conduct α μ) (h : Handle) (v : VariableRef) (change : Change α)
    (ws : Workspace α μ) : Outcome α μ Bool :=
  match ws.listener? h.listener with
  | none => (ws, .ok false)
  | some listener =>
    if !listener.isAlive then (ws, .ok false)
    else if listener.isBusy then (ws, .error (.busy h.id))
    else match listener.role with
      | .solver _ => (ws.tellSolver h.listener v change, .ok true)
      | .observer _ =>
        let (ws, answer) := c.receive h.listener v change (ws.hold h.listener)
        (ws.release h.listener, answer.map fun _ => true)

/-- Tells the listeners behind the handles one after the other. The answer
lists the identities of those found dead. -/
def deliver (c : Conduct α μ) (action : Action) (v : VariableRef) (change : Change α) :
    List Handle → Workspace α μ → Outcome α μ (List SolverId)
  | [], ws => (ws, .ok [])
  | h :: rest, ws =>
    match notify c h v change ws with
    | (ws, .error e) => (ws, .error e)
    | (ws, .ok true) =>
      deliver c action v change rest (ws.emit (.notified action (ws.nameOf v) h.id))
    | (ws, .ok false) =>
      match deliver c action v change rest ws with
      | (ws, .error e) => (ws, .error e)
      | (ws, .ok dead) => (ws, .ok (h.id :: dead))

/-- Removes the handles of dead listeners from a variable. -/
def prune (ws : Workspace α μ) (action : Action) (v : VariableRef) (dead : List SolverId) :
    Workspace α μ :=
  if dead.isEmpty then ws
  else (ws.emit (.pruned action (ws.nameOf v) dead.length)).updateVariable v (·.detach dead)

/-- Tells every listener of a variable of a change. -/
def tellListeners (c : Conduct α μ) (action : Action) (v : VariableRef) (change : Change α)
    (ws : Workspace α μ) : Outcome α μ Unit :=
  match deliver c action v change (ws.variableAt v).handles ws with
  | (ws, .error e) => (ws, .error e)
  | (ws, .ok dead) => (ws.prune action v dead, .ok ())

end Workspace

end Milp
