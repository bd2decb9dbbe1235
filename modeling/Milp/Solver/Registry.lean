/-
Milp.Solver.Registry — which engines can be had.

`installed` lists the engines that this library comes with, in order of
preference. It comes with none, so every request names what is missing.
-/
import Milp.Workspace.Basic

namespace Milp

namespace Registry

/-- The installed engines with their backends, the preferred one first. -/
def installed : List (Engine × Backend) := []

/-- The engines that can be had. -/
def available : List Engine := installed.map Prod.fst

/-- The backend for an engine. `auto` takes the first that is installed. -/
def backendFor {α : Type} (engine : Engine) : Except (SolverError α) Backend :=
  let found := match engine with
    | .auto => installed.head?.map Prod.snd
    | engine => installed.lookup engine
  match found with
  | some backend => .ok backend
  | none => .error (.notInstalled engine)

end Registry

/-- Makes a new solver for a model, with the engine that the configuration
asks for. -/
def Workspace.requestSolver {α μ : Type} (model : Model α) (config : Config α)
    (ws : Workspace α μ) : Outcome α μ ListenerRef :=
  match Registry.backendFor config.engine with
  | .error e => (ws, .error (.solver e))
  | .ok backend =>
    let (ws, l) := ws.newSolver model backend config
    (ws, .ok l)

end Milp
