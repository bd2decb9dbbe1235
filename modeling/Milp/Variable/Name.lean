/-
Milp.Variable.Name — what variables are called.

A variable that was given no name goes by the number it was made under. What
counts as its name is the text in either case: a default name and a given one
that is written like it are the same name.
-/

namespace Milp

/-- The identity of a variable. -/
abbrev VariableId := Nat

/-- What a variable is called. -/
inductive VariableName where
  /-- By a name it was given. -/
  | given (s : String)
  /-- By its number. -/
  | numbered (id : VariableId)
  deriving DecidableEq, Repr

namespace VariableName

/-- The name in texts. -/
def text : VariableName → String
  | given s => s
  | numbered id => "Var_" ++ toString id

/-- Names are compared by their texts. -/
instance : BEq VariableName where
  beq a b := a.text == b.text

/-- The name that was given, if one was. -/
def given? : VariableName → Option String
  | given s => some s
  | numbered _ => none

/-- The name of a new variable: the empty name is none. -/
def ofGiven (s : String) (id : VariableId) : VariableName :=
  if s.isEmpty then numbered id else given s

end VariableName

end Milp
