/-
Milp.Session.Client — recorders and scripted backends.

The observers and backends of a session behave as the script says. A
recorder runs its reaction, notes the notification, and then refuses if it
is told to. A backend looks for defects, runs its steps, and gives its next
answer. Both run their steps through `inner`.
-/
import Milp.Session.View

namespace Milp.Session

/-- How nested scripts run. -/
abbrev Runner := Script → State → State × List Result

/-! ## Recorders -/

/-- A recorder takes a notification. -/
def takeNotification (inner : Runner) (l : ListenerRef) (v : VariableRef)
    (change : Change Float) (st : State) : Outcome Float Desk Unit :=
  match st.memory.recorders.lookup l with
  | none => (st, .ok ())
  | some recorder =>
    let variableText := st.variableText v
    let (st, during) := inner recorder.reaction st
    let refused := (st.memory.recorders.lookup l).bind Recorder.refusal
    let entry := ⟨recorder.label, change, variableText, during, refused⟩
    let st := st.updateDesk fun desk => { desk with log := entry :: desk.log }
    match refused with
    | none => (st, .ok ())
    | some kind => (st, .error (.stated kind (recorder.label ++ " refused")))

/-! ## Scripted backends -/

/-- The answer of a backend that was given none: optimal, with `0` for
every column. -/
def ScriptedAnswer.plain {σ : Type} : ScriptedAnswer σ :=
  { status := some .optimal, values := some (.named []) }

/-- The answer after `given` others. -/
def ScriptedBackend.next {σ : Type} (b : ScriptedBackend σ) (given : Nat) : ScriptedAnswer σ :=
  (b.answers[given]?.or b.answers.getLast?).getD .plain

/-- The solution that an answer makes of a problem. A script knows columns by
the names they were given. -/
def ScriptedAnswer.solution {σ : Type} (a : ScriptedAnswer σ) (p : Problem Float) :
    Solution Float :=
  let names := p.columns.map fun column => column.name.given?
  let status := a.status.getD p.finishedStatus
  let outcome := match a.values with
    | none => Solution.ofStatus status (a.message.getD "scripted failure")
    | some values =>
      let values := values.forColumns names
      let found := Solution.found status (a.objective.getD (p.objective.evaluate values)) values
      { found with message := a.message.getD found.message }
  { outcome with
    reducedCosts := (a.reducedCosts.map (·.forColumns names)).getD outcome.reducedCosts
    duals := a.duals.getD outcome.duals
    statistics := Statistics.ofProblem p a.milliseconds }

/-- A backend answers a problem. -/
def answerProblem (inner : Runner) (l : ListenerRef) (p : Problem Float) (st : State) :
    State × Except (SolverError Float) (Solution Float) :=
  match st.memory.backends.lookup l with
  | none => (st, .error (.stated .executionFailed "the backend has no script"))
  | some (backend, given) =>
    match if backend.validates then p.validate else .ok () with
    | .error e => (st, .error e)
    | .ok () =>
      let answer := backend.next given
      let st := st.updateDesk fun desk =>
        { desk with backends := (l, backend, given + 1) :: desk.backends.filter (·.1 != l) }
      let (st, during) := inner answer.during st
      let st := st.updateDesk ({ · with during := during })
      match answer.failure with
      | some (kind, message) => (st, .error (.stated kind message))
      | none => (st, .ok (answer.solution p))

/-- How the clients of a session behave. -/
def conduct (inner : Runner) : Conduct Float Desk where
  receive := takeNotification inner
  answer := answerProblem inner

end Milp.Session
