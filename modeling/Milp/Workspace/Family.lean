/-
Milp.Workspace.Family — many variables at once.

A family of variables shares bounds and kind. An array is numbered from
zero; a keyed family has one variable for every distinct key, made in the
order in which the keys first appear and listed in the order of the keys.
The name of a member is the family's base, an underscore and the key, or
the default name when the base is empty.
-/
import Milp.Workspace.Basic

namespace Milp

/-- What the members of a family share. -/
structure FamilySpec (α : Type) where
  /-- Empty for default names. -/
  base : String
  lower : α
  upper : α
  kind : VariableKind
  deriving Repr

/-- The key of a member. -/
inductive Key where
  | text (s : String)
  | int (i : Int)
  deriving DecidableEq, Repr

/-- The key as it stands in names. -/
def Key.toText : Key → String
  | .text s => s
  | .int i => toString i

/-- The order of keys: numbers by size and before texts, texts by their
characters. -/
def Key.le : Key → Key → Bool
  | .int i, .int j => i ≤ j
  | .int _, .text _ => true
  | .text _, .int _ => false
  | .text s, .text t => s ≤ t

/-- The first key that stands twice in a row. -/
def Key.repeated? : List Key → Option Key
  | a :: b :: rest => if a = b then some a else Key.repeated? (b :: rest)
  | _ => none

namespace FamilySpec

variable {α : Type}

/-- What the member of a key is made from. -/
def member (f : FamilySpec α) (key : String) : VariableSpec α where
  name := if f.base.isEmpty then "" else f.base ++ "_" ++ key
  lower := f.lower
  upper := f.upper
  kind := f.kind

end FamilySpec

namespace Workspace

variable {α μ : Type}

/-- Makes new variables, in order. -/
def newVariables (specs : List (VariableSpec α)) (ws : Workspace α μ) :
    Workspace α μ × List VariableRef :=
  match specs with
  | [] => (ws, [])
  | spec :: rest =>
    let (ws, v) := ws.newVariable spec
    let (ws, vs) := ws.newVariables rest
    (ws, v :: vs)

/-- Makes `n` numbered variables. -/
def newArray (n : Nat) (f : FamilySpec α) (ws : Workspace α μ) :
    Workspace α μ × List VariableRef :=
  ws.newVariables ((List.range n).map fun i => f.member (toString i))

/-- Makes one variable for each distinct key. -/
def newMap (keys : List Key) (f : FamilySpec α) (ws : Workspace α μ) :
    Workspace α μ × List (Key × VariableRef) :=
  let keys := keys.eraseDups
  let (ws, vs) := ws.newVariables (keys.map fun key => f.member key.toText)
  (ws, (keys.zip vs).mergeSort fun a b => a.1.le b.1)

/-- Makes one variable for each member of an enumeration, which must have
members and list none of them twice; `enumeration` is its name. -/
def newEnumeration (enumeration : String) (members : List Key) (f : FamilySpec α)
    (ws : Workspace α μ) : Outcome α μ (List (Key × VariableRef)) :=
  if members.isEmpty then (ws, .error (.noMembers enumeration))
  else
    match Key.repeated? (members.mergeSort Key.le) with
    | some key => (ws, .error (.repeatedMember enumeration key.toText))
    | none =>
      let (ws, vs) := ws.newMap members f
      (ws, .ok vs)

end Workspace

end Milp
