/-
Milp.Workspace.Operation — the operations of a workspace as data.

An operation changes a variable, an attachment or a solver that is already
there. `Workspace.perform` carries one out.
-/
import Milp.Workspace.Solve

namespace Milp

/-- An operation on what a workspace holds. -/
inductive Operation (α : Type) where
  | setName (v : VariableRef) (name : String)
  | setBound (side : Side) (v : VariableRef) (b : α)
  | setKind (v : VariableRef) (kind : VariableKind)
  | freeze (v : VariableRef)
  | unfreeze (v : VariableRef)
  | assign (v : VariableRef) (level : Level α)
  | attach (v : VariableRef) (h : Handle)
  | detach (v : VariableRef) (id : SolverId)
  | generate (solver : ListenerRef)
  | solve (solver : ListenerRef)
  | tell (solver : ListenerRef) (v : VariableRef) (change : Change α)
  | drop (listener : ListenerRef)
  deriving DecidableEq, Repr

/-- What a successful operation answers. -/
inductive Answer where
  | done
  | flag (b : Bool)
  | status (s : Status)
  deriving DecidableEq, Repr

namespace Workspace

variable {α μ : Type} [Scalar α]

/-- An outcome with what it answers in the common form. -/
def answered {β : Type} (form : β → Answer) (outcome : Outcome α μ β) : Outcome α μ Answer :=
  (outcome.1, outcome.2.map form)

/-- Carries out an operation. -/
def perform (c : Conduct α μ) (op : Operation α) (ws : Workspace α μ) : Outcome α μ Answer :=
  match op with
  | .setName v name => answered (fun _ => .done) (ws.setName c v name)
  | .setBound side v b => answered (fun _ => .done) (ws.setBound c side v b)
  | .setKind v kind => answered (fun _ => .done) (ws.setKind c v kind)
  | .freeze v => answered .flag (ws.freeze c v)
  | .unfreeze v => answered .flag (ws.unfreeze c v)
  | .assign v level => (ws.assign v level, .ok .done)
  | .attach v h => (ws.attach v h, .ok .done)
  | .detach v id => (ws.detach v id, .ok .done)
  | .generate solver => answered (fun _ => .done) (ws.generate solver)
  | .solve solver => answered .status (ws.solve c solver)
  | .tell solver v change => (ws.tellSolver solver v change, .ok .done)
  | .drop listener => (ws.drop listener, .ok .done)

end Workspace

end Milp
