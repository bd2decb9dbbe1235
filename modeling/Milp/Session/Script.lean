/-
Milp.Session.Script — the steps of a session.

A session is driven by a script: commands that make things under names,
change them and ask about them. Things of different sorts are named apart.
A script may hold scripts: what a recorder does when it is notified, what a
backend does before it answers, and what is done while a listener is held.
-/
import Milp.Model.Formula
import Milp.Session.Reply

namespace Milp.Session

/-- Values for the columns of a problem: in column order, or by the names
of columns, `0` for those not named. A column that goes by its number cannot
be named. -/
inductive Entries where
  | listed (values : List Float)
  | named (values : List (String × Float))
  deriving Repr

/-- The values for columns with the names they were given. -/
def Entries.forColumns (columns : List (Option String)) : Entries → List Float
  | .listed values => values
  | .named values => columns.map fun name => (name.bind (List.lookup · values)).getD 0

/-- What a scripted backend answers to one problem. -/
structure ScriptedAnswer (σ : Type) where
  /-- What it does first. -/
  during : List σ := []
  /-- The failure it reports, if it does. -/
  failure : Option (SolverErrorKind × String) := none
  /-- The status; without one, that of a search that ran to its end. -/
  status : Option Status := none
  values : Option Entries := none
  /-- The objective value; without one, the objective at the values. -/
  objective : Option Float := none
  message : Option String := none
  reducedCosts : Option Entries := none
  duals : Option (List Float) := none
  milliseconds : Float := 0

/-- A backend that answers as it was told to. -/
structure ScriptedBackend (σ : Type) where
  backend : Backend
  /-- Whether it looks for defects of a problem first. -/
  validates : Bool
  /-- Its answers in turn; the last one is repeated. -/
  answers : List (ScriptedAnswer σ)

/-- A formula over the names of variables and expressions. -/
abbrev NamedFormula := Formula Float String String

/-- The sorts of things that can be given up by name. -/
inductive SlotKind where
  | variable
  | expression
  | constraint
  | model
  | solver
  | observer
  | handle
  deriving DecidableEq, Repr

/-- One command; `σ` is a step of a nested script, and `as` the name that
the new thing gets. -/
inductive Command (σ : Type) where
  /-- A step whose answer does not depend on the session. -/
  | known (reply : Except Failure (Reply Result))
  /-- Makes a variable. -/
  | newVariable (as : String) (spec : VariableSpec Float)
  /-- Gives a variable another name to be called by. -/
  | alias (as source : String)
  | showVariable (v : String)
  | debugVariable (v : String)
  | setName (v name : String)
  | setBound (side : Side) (v : String) (b : Float)
  | setKind (v : String) (kind : VariableKind)
  | freeze (v : String)
  | unfreeze (v : String)
  | assign (v solver : String) (offset : Nat) (value reducedCost : Float)
  | attach (v listener : String)
  | detach (v listener : String)
  | isAttached (v listener : String)
  /-- Whether two names are the same variable. -/
  | same (v w : String)
  /-- How many variables the names stand for. -/
  | distinct (vs : List String)
  | newArray (as : String) (n : Nat) (family : FamilySpec Float)
  | newMap (as : String) (keys : List Key) (family : FamilySpec Float)
  | newEnumeration (as enumeration : String) (members : List Key) (family : FamilySpec Float)
  | expression (as : Option String) (e : NamedFormula)
  | newConstraint (as : String) (lhs : NamedFormula) (sense : Sense) (rhs : NamedFormula)
      (name : Option String)
  | notEqual (lhs rhs : NamedFormula)
  | renameConstraint (as source name : String)
  | showConstraint (c : String)
  | newModel (as name : String)
  | setObjective (m : String) (direction : Direction) (e : NamedFormula)
  | addConstraint (m c : String)
  | copyModel (as source : String)
  | showModel (m : String)
  | newSolverId (as : String)
  /-- Makes an observer that records what it is told, and attaches it. -/
  | newObserver (as : String) (attach : List String) (refusal : Option ModelErrorKind)
      (reaction : List σ)
  | setRefusal (observer : String) (refusal : Option ModelErrorKind)
  | newHandle (as listener : String)
  | showHandle (h : String)
  /-- Runs a script while a listener is in use. -/
  | whileHeld (listener : String) (script : List σ)
  | drop (kind : SlotKind) (name : String)
  | newSolver (as m : String) (config : Config Float) (backend : ScriptedBackend σ)
  /-- Makes a solver with the engine that the configuration asks for. -/
  | requestSolver (as m : String) (config : Config Float)
  | generate (s : String)
  | solve (s : String)
  | objectiveValue (s : String)
  | dual (s c : String)
  | activity (s c : String)
  | offsetOf (s v : String)
  | showSolver (s : String)
  | showColumns (s : String)
  | tell (s v : String) (change : Change Float)
  | newProblem (as : String) (p : Problem Float)
  | validate (p : String)
  | accepts (p : String) (values : List Float) (tolerance : Float)
  | evaluate (p : String) (values : List Float)
  | sameProblem (p q : String)
  /-- Keeps a solution, with the size of a problem if one is named. -/
  | newSolution (as : String) (s : Solution Float) (p : Option String) (milliseconds : Float)
  | sameSolution (s t : String)
  | dualsAt (s : String) (i : Nat)
  | newEntity (as name : String)
  | showEntity (e : String)
  | assignEntity (e solver : String) (offset : Nat)
  | clearEntity (e : String)
  | renameEntity (e name : String)

/-- A command, with the name of the variable it is about. -/
inductive Step where
  | mk (subject : Option String) (command : Command Step)

/-- Steps in the order they are taken. -/
abbrev Script := List Step

/-! ## Size -/

mutual

/-- How many steps a step holds, itself included. -/
def Step.size : Step → Nat
  | .mk _ (.newObserver _ _ _ reaction) => Script.size reaction + 1
  | .mk _ (.whileHeld _ script) => Script.size script + 1
  | .mk _ (.newSolver _ _ _ ⟨_, _, answers⟩) => Script.answersSize answers + 1
  | .mk _ _ => 1

/-- How many steps a script holds, nested ones included. -/
def Script.size : List Step → Nat
  | [] => 0
  | step :: rest => step.size + Script.size rest

/-- How many steps the answers of a backend hold. -/
def Script.answersSize : List (ScriptedAnswer Step) → Nat
  | [] => 0
  | answer :: rest => Script.answerSize answer + Script.answersSize rest

/-- How many steps an answer of a backend holds. -/
def Script.answerSize : ScriptedAnswer Step → Nat
  | ⟨during, _, _, _, _, _, _, _, _⟩ => Script.size during

end

end Milp.Session
