/-
Milp.Session.Run — running a script.

Every step is carried out in the state that the one before it left, also
when that one failed; a failed step keeps nothing under a new name. What a
step's nested scripts gather is shown in their own results and not in its.

Scripts nest deeper than they are written: a recorder's steps may change a
variable that notifies another recorder. A listener in use is not notified,
so a chain of notifications ends with the listeners there are, and
`depthBound` leaves room for those that nested steps make.
-/
import Milp.Session.Client
import Milp.Session.Lookup
import Milp.Solver.Registry
import Milp.Text.Quoted

namespace Milp.Session

/-- An action of a session: it may fail, and keeps its state if it does. -/
abbrev Act (β : Type) := ExceptT Failure (StateM State) β

namespace Act

variable {β : Type}

/-- Changes what the session keeps. -/
def updateDesk (f : Desk → Desk) : Act Unit := modify (·.updateDesk f)

/-- Makes something new. -/
def make (f : State → State × β) : Act β := modifyGet fun st => (f st).swap

/-- Asks the state a question. -/
def ask (f : State → Except Failure β) : Act β := do
  match f (← get) with
  | .ok b => return b
  | .error failure => throw failure

/-- Does something that may fail. -/
def attempt (f : State → Outcome Float Desk β) : Act β := do
  let r ← make f
  ask (·.answer r)

/-- Carries out an operation. -/
def operate (inner : Runner) (op : Operation Float) : Act (Reply Result) := do
  match ← attempt (Workspace.perform (conduct inner) op) with
  | .done => return .none
  | .flag b => return .flag b
  | .status s => return .status s

/-! ## Keeping things by name -/

/-- A new variable, kept under a name. -/
def keepVariable (as : String) (v : VariableRef) : Act Unit :=
  updateDesk fun desk => { desk with vars := desk.vars.put as v }

/-- The members of a new family, each kept under the family's name and its
key. -/
def keepFamily (as : String) (members : List (String × VariableRef)) : Act (Reply Result) := do
  for (key, v) in members do
    keepVariable (as ++ "." ++ key) v
  let st ← get
  return .family (members.map fun (key, v) => (key, st.variableAt v))

/-- A constraint, kept under a name. -/
def keepConstraint (as : String) (c : Constraint Float) : Act (Reply Result) := do
  updateDesk fun desk => { desk with constraints := desk.constraints.put as c }
  return .constraint ((← get).constraintView c)

/-- A model, kept under a name. -/
def keepModel (as : String) (m : Model Float) : Act Unit :=
  updateDesk fun desk => { desk with models := desk.models.put as m }

/-- Gives up a listener that no name stands for any more. -/
def giveUp (l : Option ListenerRef) : Act Unit := modify fun st => l.elim st st.drop

/-- A new solver, kept under a name in the place of the one that had it. -/
def keepSolver (as : String) (l : ListenerRef) : Act (Reply Result) := do
  let old := (← get).memory.solvers.lookup as
  updateDesk fun desk => { desk with solvers := desk.solvers.put as l }
  giveUp old
  return .count (((← get).listener? l).elim 0 Listener.id)

/-- A new observer, kept under a name in the place of the one that had it. -/
def keepObserver (as : String) (l : ListenerRef) : Act (Reply Result) := do
  let old := (← get).memory.observers.lookup as
  updateDesk fun desk => { desk with observers := desk.observers.put as l }
  giveUp old
  return .count (((← get).listener? l).elim 0 Listener.id)

/-- An entity, kept under a name. -/
def keepEntity (as : String) (e : Entity Placement) : Act (Reply Result) := do
  updateDesk fun desk => { desk with entities := desk.entities.put as e }
  return .entity e

/-- An entity, changed and kept under its name. -/
def changeEntity (name : String) (f : Entity Placement → Entity Placement) :
    Act (Reply Result) := do
  keepEntity name (f (← ask (·.find Desk.entities "entity" name)))

/-! ## Giving things up -/

/-- Takes a name away, and gives up the listener it stood for. A name that
stands for nothing may be taken away as well. -/
def dropSlot (kind : SlotKind) (name : String) : Act Unit := do
  let desk := (← get).memory
  match kind with
  | .variable => updateDesk ({ · with vars := desk.vars.remove name })
  | .expression => updateDesk ({ · with expressions := desk.expressions.remove name })
  | .constraint => updateDesk ({ · with constraints := desk.constraints.remove name })
  | .model => updateDesk ({ · with models := desk.models.remove name })
  | .handle => updateDesk ({ · with handles := desk.handles.remove name })
  | .solver =>
    updateDesk ({ · with solvers := desk.solvers.remove name })
    giveUp (desk.solvers.lookup name)
  | .observer =>
    updateDesk ({ · with observers := desk.observers.remove name })
    giveUp (desk.observers.lookup name)

end Act

open Act

/-! ## Commands -/

/-- Carries out one command; nested scripts run through `inner`. -/
def Command.run (inner : Runner) : Command Step → Act (Reply Result)
  | .known reply => ask fun _ => reply
  -- variables
  | .newVariable as spec => do
    let v ← make (·.newVariable spec)
    keepVariable as v
    return .made ((← get).variableAt v)
  | .alias as source => do
    keepVariable as (← ask (·.findVariable source))
    return .none
  | .showVariable v => do
    let v ← ask (·.findVariable v)
    return .variable ((← get).variableView v)
  | .debugVariable v => do
    let v ← ask (·.findVariable v)
    return .text (((← get).variableAt v).debugText (Decimal.writeDouble Decimal.debug) Text.quoted)
  | .setName v name => do
    let v ← ask (·.findVariable v)
    modify (·.setApart v name)
    operate inner (.setName v name)
  | .setBound side v b => do operate inner (.setBound side (← ask (·.findVariable v)) b)
  | .setKind v kind => do operate inner (.setKind (← ask (·.findVariable v)) kind)
  | .freeze v => do operate inner (.freeze (← ask (·.findVariable v)))
  | .unfreeze v => do operate inner (.unfreeze (← ask (·.findVariable v)))
  | .assign v solver offset value reducedCost => do
    let v ← ask (·.findVariable v)
    let id ← ask (·.findId solver)
    operate inner (.assign v ⟨⟨id, offset⟩, value, reducedCost⟩)
  | .attach v listener => do
    let v ← ask (·.findVariable v)
    operate inner (.attach v (← ask (·.findHandle listener)))
  | .detach v listener => do
    let v ← ask (·.findVariable v)
    operate inner (.detach v (← ask (·.findId listener)))
  | .isAttached v listener => do
    let v ← ask (·.findVariable v)
    let id ← ask (·.findId listener)
    return .flag (((← get).variableAt v).isAttached id)
  | .same v w => do
    let v ← ask (·.findVariable v)
    let w ← ask (·.findVariable w)
    return .flag (v == w)
  | .distinct vs => do
    let vs ← ask fun st => vs.mapM st.findVariable
    return .count vs.eraseDups.length
  -- families
  | .newArray as n family => do
    let vs ← make (·.newArray n family)
    keepFamily as (vs.zipIdx.map fun (v, i) => (toString i, v))
  | .newMap as keys family => do
    let members ← make (·.newMap keys family)
    keepFamily as (members.map fun (key, v) => (key.toText, v))
  | .newEnumeration as enumeration keys family => do
    let members ← attempt (·.newEnumeration enumeration keys family)
    keepFamily as (members.map fun (key, v) => (key.toText, v))
  -- expressions and constraints
  | .expression as e => do
    let e ← ask (·.build e)
    if let some as := as then
      updateDesk fun desk => { desk with expressions := desk.expressions.put as e }
    return .expression ((← get).expressionView e)
  | .newConstraint as lhs sense rhs name => do
    let lhs ← ask (·.build lhs)
    let rhs ← ask (·.build rhs)
    let c ← make (·.newConstraint lhs sense rhs)
    keepConstraint as { c with name := name.getD c.name }
  | .notEqual lhs rhs => do
    let lhs ← ask (·.build lhs)
    let rhs ← ask (·.build rhs)
    ask (·.answer (.error (.notEqual lhs rhs)))
  | .renameConstraint as source name => do
    let c ← ask (·.find Desk.constraints "constraint" source)
    keepConstraint as { c with name }
  | .showConstraint c => do
    let c ← ask (·.find Desk.constraints "constraint" c)
    return .constraint ((← get).constraintView c)
  -- models
  | .newModel as name => do
    keepModel as (Model.empty name)
    return .none
  | .setObjective m direction e => do
    let model ← ask (·.find Desk.models "model" m)
    let objective : Objective Float := ⟨direction, ← ask (·.build e)⟩
    keepModel m { model with objective }
    return .text (objective.text numberText (← get).nameOf)
  | .addConstraint m c => do
    let model ← ask (·.find Desk.models "model" m)
    let model := model.addConstraint (← ask (·.find Desk.constraints "constraint" c))
    keepModel m model
    return .count model.constraints.length
  | .copyModel as source => do
    keepModel as (← ask (·.find Desk.models "model" source))
    return .none
  | .showModel m => do
    let m ← ask (·.find Desk.models "model" m)
    return .model ((← get).modelView m)
  -- listeners
  | .newSolverId as => do
    let id ← make (·.drawSolverId)
    updateDesk fun desk => { desk with ids := desk.ids.put as id }
    return .count id
  | .newObserver as watched refusal reaction => do
    let vs ← ask fun st => watched.mapM st.findVariable
    let l ← make (·.newObserver)
    updateDesk fun desk => { desk with recorders := (l, ⟨as, refusal, reaction⟩) :: desk.recorders }
    if let some h := (← get).handleOf? l then
      modify (·.attachAll vs h)
    keepObserver as l
  | .setRefusal observer refusal => do
    let l ← ask (·.find Desk.observers "observer" observer)
    updateDesk fun desk => { desk with
      recorders := desk.recorders.map fun (k, r) => (k, if k = l then { r with refusal } else r) }
    return .none
  | .newHandle as listener => do
    let h ← ask (·.findHandle listener)
    updateDesk fun desk => { desk with handles := desk.handles.put as h }
    return .none
  | .showHandle h => do
    let h ← ask (·.find Desk.handles "handle" h)
    return .handle h ((← get).isAlive h)
  | .whileHeld listener script => do
    let l ← ask (·.findListener listener)
    let results ← make fun st => inner script (st.hold l)
    modify (·.release l)
    return .results results
  | .drop kind name => do
    dropSlot kind name
    return .none
  -- solvers
  | .newSolver as m config backend => do
    let m ← ask (·.find Desk.models "model" m)
    let l ← make (·.newSolver m backend.backend config)
    updateDesk fun desk => { desk with backends := (l, backend, 0) :: desk.backends }
    keepSolver as l
  | .requestSolver as m config => do
    let m ← ask (·.find Desk.models "model" m)
    keepSolver as (← attempt (·.requestSolver m config))
  | .generate s => do operate inner (.generate (← ask (·.findIdleSolver s)).1)
  | .solve s => do operate inner (.solve (← ask (·.findIdleSolver s)).1)
  | .objectiveValue s => do
    let (_, s) ← ask (·.findSolver s)
    return .number (← ask (·.answer s.objectiveValue))
  | .dual s c => do
    let (_, s) ← ask (·.findSolver s)
    let c ← ask (·.find Desk.constraints "constraint" c)
    return .number (← ask (·.answer (s.dual c)))
  | .activity s c => do
    let (_, s) ← ask (·.findSolver s)
    let c ← ask (·.find Desk.constraints "constraint" c)
    return .number (← ask (·.answer (s.activity c)))
  | .offsetOf s v => do
    let (_, s) ← ask (·.findSolver s)
    return .offset (s.offset? (← ask (·.findVariable v)))
  | .showSolver s => do
    let (_, s) ← ask (·.findSolver s)
    return .solver ((← get).solverView s)
  | .showColumns s => do
    let (_, s) ← ask (·.findSolver s)
    return .columns (s.generated.map (·.problem.columns))
  | .tell s v change => do
    let (l, _) ← ask (·.findIdleSolver s)
    operate inner (.tell l (← ask (·.findVariable v)) change)
  -- problems and solutions
  | .newProblem as p => do
    updateDesk fun desk => { desk with problems := desk.problems.put as p }
    return .problem p
  | .validate p => do
    let p ← ask (·.find Desk.problems "problem" p)
    match p.validate with
    | .ok () => return .none
    | .error e => throw (.ofSolverError e)
  | .accepts p values tolerance => do
    let p ← ask (·.find Desk.problems "problem" p)
    return .flag (p.accepts values tolerance)
  | .evaluate p values => do
    let p ← ask (·.find Desk.problems "problem" p)
    return .number (p.objective.evaluate values)
  | .sameProblem p q => do
    let p ← ask (·.find Desk.problems "problem" p)
    let q ← ask (·.find Desk.problems "problem" q)
    return .flag (p == q)
  | .newSolution as s p milliseconds => do
    let s ← match p with
      | none => pure s
      | some p => do
        let p ← ask (·.find Desk.problems "problem" p)
        pure { s with statistics := Statistics.ofProblem p milliseconds }
    updateDesk fun desk => { desk with solutions := desk.solutions.put as s }
    return .solution s
  | .sameSolution s t => do
    let s ← ask (·.find Desk.solutions "solution" s)
    let t ← ask (·.find Desk.solutions "solution" t)
    return .flag (s == t)
  | .dualsAt s i => do
    let s ← ask (·.find Desk.solutions "solution" s)
    return .duals (s.reducedCost i) (s.dual i)
  -- entities
  | .newEntity as name => do
    let id ← make (·.drawVariableId)
    keepEntity as ⟨id, .given name, none⟩
  | .showEntity e => return .entity (← ask (·.find Desk.entities "entity" e))
  | .assignEntity e solver offset => do
    let id ← ask (·.findId solver)
    changeEntity e (·.assign ⟨id, offset⟩)
  | .clearEntity e => changeEntity e (·.clear)
  | .renameEntity e name => changeEntity e (·.rename name)

/-! ## Steps and scripts -/

/-- The state with nothing gathered yet. -/
def State.fresh (st : State) : State :=
  State.updateDesk { st with events := [] } fun desk => { desk with log := [], during := [] }

/-- The state with what `earlier` had gathered. -/
def State.resume (st earlier : State) : State :=
  State.updateDesk { st with events := earlier.events } fun desk =>
    { desk with log := earlier.memory.log, during := earlier.memory.during }

/-- Takes one step: what it gathers goes into its result, and what its
surroundings have gathered stays theirs. -/
def Step.run (inner : Runner) (st : State) : Step → State × Result
  | .mk subject command =>
    let (reply, after) := (command.run inner).run.run st.fresh
    let about := subject.bind fun name => after.memory.vars.lookup name
    (after.resume st, .mk reply (about.map after.standing) after.memory.log.reverse
      after.events.reverse after.memory.during)

/-- Takes the steps of a script one after the other. -/
def Script.runWith (inner : Runner) : Script → State → State × List Result
  | [], st => (st, [])
  | step :: rest, st =>
    let (st, result) := step.run inner st
    let (st, results) := Script.runWith inner rest st
    (st, result :: results)

/-- Runs a script whose nested scripts go at most `depth` deep; steps below
that are refused. -/
def Script.runTo : Nat → Runner
  | 0 => fun script st =>
    (st, script.map fun _ => .failed (.ofScript "the scripts are nested too deeply"))
  | depth + 1 => Script.runWith (Script.runTo depth)

/-- How deep the scripts of a script may nest. -/
def Script.depthBound (script : Script) : Nat := Nat.pow (Script.size script + 1) 3

/-- The results of a script's steps in a session of its own. -/
def Script.results (script : Script) : List Result :=
  (Script.runTo script.depthBound script State.initial).2

end Milp.Session
