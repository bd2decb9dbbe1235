/-
Milp.Workspace.Solve — generating and solving.

Generating builds a solver's problem anew and attaches the solver to every
variable it has a column for. Solving generates if need be, asks the
backend, and gives every variable its level. The solver is in use for the
whole solve. The previous solution is gone once a solve begins, and no
variable changes unless the answer is taken over.
-/
import Milp.Workspace.Change

namespace Milp.Workspace

variable {α μ : Type} [Scalar α]

/-- Attaches a handle to several variables. -/
def attachAll (ws : Workspace α μ) (vs : List VariableRef) (h : Handle) : Workspace α μ :=
  vs.foldl (fun ws v => ws.attach v h) ws

/-- Stores a generated problem in its solver, without a solution. -/
def install (ws : Workspace α μ) (l : ListenerRef) (id : SolverId) (g : Generated α) :
    Workspace α μ :=
  let ws := ws.attachAll g.vars ⟨id, l⟩
  let ws := ws.emit (.generated id g.problem.name g.problem.columns.length
    g.problem.rows.length g.problem.integerCount)
  ws.updateSolver l ({ · with generated := some g, solution := none })

/-- Builds a solver's problem from its model. A solver that had one detaches
itself from its variables first. -/
def generate (l : ListenerRef) (ws : Workspace α μ) : Outcome α μ Unit :=
  match ws.solver? l with
  | none => (ws, .error .noSolver)
  | some s =>
    let ws := (ws.detachAll s.vars s.id).updateSolver l ({ · with generated := none })
    match Generated.ofModel ws.variableAt s.config s.model with
    | .error e => (ws, .error e)
    | .ok g => (ws.install l s.id g, .ok ())

/-- Gives the variables of a solver their levels, by column. -/
def assignAll (ws : Workspace α μ) (id : SolverId) (vars : List VariableRef)
    (solution : Solution α) : Workspace α μ :=
  (vars.zip solution.values).zipIdx.foldl
    (fun ws ((v, value), offset) =>
      ws.assign v ⟨⟨id, offset⟩, value, solution.reducedCost offset⟩)
    ws

/-- Takes over what a backend answered. -/
def takeOver (ws : Workspace α μ) (l : ListenerRef) (s : Solver α) (g : Generated α)
    (solution : Solution α) : Outcome α μ Status :=
  if solution.isFeasible && solution.values.length != g.vars.length then
    (ws, .error (.solver (.valueCount s.backend.name solution.values.length
      g.vars.length)))
  else
    let ws := if solution.isFeasible then ws.assignAll s.id g.vars solution else ws
    let ws := ws.emit (.solved s.id solution.status solution.objective solution.message)
    (ws.updateSolver l ({ · with solution := some solution }), .ok solution.status)

/-- Asks the backend of a solver and takes over its answer. -/
def ask (c : Conduct α μ) (l : ListenerRef) (s : Solver α) (g : Generated α)
    (ws : Workspace α μ) : Outcome α μ Status :=
  if g.problem.isMixedInteger && !s.backend.takesIntegers then
    (ws, .error (.solver (.integerColumns s.backend.name)))
  else
    let ws := ws.emit (.solveStarted s.id s.backend.name g.problem.columns.length
      g.problem.rows.length)
    match c.answer l g.problem ws with
    | (ws, .error e) => (ws, .error (.solver e))
    | (ws, .ok solution) => ws.takeOver l s g solution

/-- Generates a solver's problem unless it has one. -/
def ensureGenerated (l : ListenerRef) (ws : Workspace α μ) : Outcome α μ Unit :=
  if (ws.solver? l).any (·.generated.isSome) then (ws, .ok ()) else ws.generate l

/-- A solve, while the solver is already in use. -/
def solveHeld (c : Conduct α μ) (l : ListenerRef) (ws : Workspace α μ) : Outcome α μ Status :=
  match ensureGenerated l (ws.updateSolver l ({ · with solution := none })) with
  | (ws, .error e) => (ws, .error e)
  | (ws, .ok ()) =>
    match ws.solver? l with
    | none => (ws, .error .noSolver)
    | some s =>
      match s.requireGenerated with
      | .error e => (ws, .error e)
      | .ok g => ws.ask c l s g

/-- Solves a solver's problem. -/
def solve (c : Conduct α μ) (l : ListenerRef) (ws : Workspace α μ) : Outcome α μ Status :=
  let (ws, answer) := (ws.hold l).solveHeld c l
  (ws.release l, answer)

end Milp.Workspace
