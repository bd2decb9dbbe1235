/-
Milp.Demo — a knapsack, as a first program.

Five items have a weight and a value each; as many of them go into the
knapsack as it can carry. The program builds the model and asks for
whichever engine is installed.
-/
import Milp.Decimal.Text
import Milp.Number.Double
import Milp.Solver.Registry
import Milp.Text.Quoted
import Milp.Workspace.Family

namespace Milp.Demo

/-- What a program leaves when it ends. -/
structure Ending where
  code : UInt32
  stdout : String
  stderr : String

/-- The ending of a program that an error stopped. -/
def Ending.ofError (st : Workspace Float Unit) (e : ModelError Float) : Ending where
  code := 1
  stdout := ""
  stderr := "Error: "
    ++ e.kind.describe (Text.quoted (e.detail numberText st.nameOf)) ++ "\n"

/-- The items with their weights and values. -/
def items : List (String × Float × Float) :=
  [("Tent", 7, 150), ("Stove", 3, 90), ("Food", 4, 120), ("Water", 5, 100), ("Camera", 2, 80)]

/-- What the knapsack can carry. -/
def capacity : Float := 15

/-- The sum of some of the items' numbers over the items taken. -/
def total (take : List (Key × VariableRef)) (number : Float × Float → Float) : Expression Float :=
  items.foldl
    (fun sum (name, numbers) =>
      match take.lookup (.text name) with
      | some v => sum.plus (.term (number numbers) v)
      | none => sum)
    .zero

/-- The model, over a fresh `0`-or-`1` variable for each item. -/
def knapsack (ws : Workspace Float Unit) : Workspace Float Unit × Model Float :=
  let (ws, take) := ws.newMap (items.map fun item => .text item.1) ⟨"take", 0, 1, .integer⟩
  let (ws, carried) := ws.newConstraint (total take Prod.fst) .atMost (.ofConstant capacity)
  let value : Objective Float := ⟨.maximize, total take Prod.snd⟩
  (ws, ⟨"knapsack", value, [{ carried with name := "capacity" }]⟩)

/-- How the program ends. -/
def ending : Ending :=
  let (ws, model) := knapsack { memory := () }
  match ws.requestSolver model {} with
  | (ws, .error e) => .ofError ws e
  | (ws, .ok l) =>
    ⟨0, "=== Knapsack (" ++ (ws.solver? l).elim "" (·.backend.name) ++ ") ===\n\n", ""⟩

end Milp.Demo
