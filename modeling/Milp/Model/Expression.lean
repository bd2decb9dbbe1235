/-
Milp.Model.Expression — linear expressions over variables.

An expression is a constant and a list of terms. The terms keep the order
they were added in, and a variable may have several of them until
`Expression.assemble` merges them: then every variable stands once, where
it first appeared, with its coefficients added from the left, and those
that cancelled within the tolerance are gone.
-/
import Milp.Number.Scalar

namespace Milp

/-- A variable of a workspace. Two references are equal exactly when they
refer to the same variable. -/
structure VariableRef where
  index : Nat
  deriving DecidableEq, Repr

/-- `constant + Σ coefficient · variable`. -/
structure Expression (α : Type) where
  constant : α
  terms : List (VariableRef × α)
  deriving DecidableEq, Repr

namespace Expression

variable {α : Type} [Scalar α]

/-- The number `k`. -/
def ofConstant (k : α) : Expression α := ⟨k, []⟩

/-- The expression without terms and without a constant. -/
def zero : Expression α := ofConstant 0

/-- The single term `k · v`. -/
def term (k : α) (v : VariableRef) : Expression α := ⟨0, [(v, k)]⟩

/-- A variable on its own. -/
def ofVariable (v : VariableRef) : Expression α := term 1 v

/-- Whether there are no terms at all. -/
def isConstant (e : Expression α) : Bool := e.terms.isEmpty

/-! ## Arithmetic -/

/-- The sum, the terms of the second side after those of the first. -/
def plus (a b : Expression α) : Expression α :=
  ⟨a.constant + b.constant, a.terms ++ b.terms⟩

/-- Every number of the expression times `k`. -/
def times (e : Expression α) (k : α) : Expression α :=
  ⟨e.constant * k, e.terms.map fun (v, c) => (v, c * k)⟩

/-- The expression with every number's sign changed. -/
def negate (e : Expression α) : Expression α := e.times (-1)

/-- The difference, as the sum with the negated second side. -/
def minus (a b : Expression α) : Expression α := a.plus b.negate

/-- The expression divided by `k`; there is no quotient by zero. -/
def dividedBy? (e : Expression α) (k : α) : Option (Expression α) :=
  if k == 0 then none else some (e.times (1 / k))

@[simp] theorem constant_plus (a b : Expression α) :
    (a.plus b).constant = a.constant + b.constant := rfl

@[simp] theorem terms_plus (a b : Expression α) : (a.plus b).terms = a.terms ++ b.terms := rfl

@[simp] theorem constant_times (e : Expression α) (k : α) :
    (e.times k).constant = e.constant * k := rfl

@[simp] theorem terms_times (e : Expression α) (k : α) :
    (e.times k).terms = e.terms.map fun (v, c) => (v, c * k) := rfl

/-! ## Merging -/

/-- Adds a term to merged terms: to the variable's own term, or at the end. -/
def insertTerm : List (VariableRef × α) → VariableRef × α → List (VariableRef × α)
  | [], new => [new]
  | (v, c) :: rest, new =>
    if v = new.1 then (v, c + new.2) :: rest else (v, c) :: insertTerm rest new

/-- One term for each variable, in order of first appearance. -/
def mergeTerms (terms : List (VariableRef × α)) : List (VariableRef × α) :=
  terms.foldl insertTerm []

/-- The expression with its terms merged and those dropped whose
coefficient is zero within the tolerance. -/
def assemble (e : Expression α) : Expression α :=
  ⟨e.constant, (mergeTerms e.terms).filter fun term => !Scalar.approxEq term.2 0⟩

@[simp] theorem constant_assemble (e : Expression α) : e.assemble.constant = e.constant := rfl

/-- A term of a variable that has one already brings no new variable. -/
theorem map_fst_insertTerm_of_mem {terms : List (VariableRef × α)} {new : VariableRef × α}
    (h : new.1 ∈ terms.map Prod.fst) :
    (insertTerm terms new).map Prod.fst = terms.map Prod.fst := by
  induction terms with
  | nil => simp at h
  | cons term rest ih =>
    obtain ⟨v, c⟩ := term
    by_cases same : v = new.1
    · simp [insertTerm, same]
    · have later : new.1 ∈ rest.map Prod.fst := by
        simpa [Ne.symm same] using h
      simp [insertTerm, same, ih later]

/-- A term of a new variable goes to the end. -/
theorem insertTerm_of_not_mem {terms : List (VariableRef × α)} {new : VariableRef × α}
    (h : new.1 ∉ terms.map Prod.fst) : insertTerm terms new = terms ++ [new] := by
  induction terms with
  | nil => rfl
  | cons term rest ih =>
    obtain ⟨v, c⟩ := term
    rw [List.map_cons, List.mem_cons, not_or] at h
    simp [insertTerm, Ne.symm h.1, ih h.2]

/-! ## Variables and value -/

/-- The variables of the expression, each once, in order of first
appearance. -/
def vars (e : Expression α) : List VariableRef := (e.terms.map Prod.fst).eraseDups

/-- The value of the expression where `read` gives the value of a variable;
the first variable without one decides the error. -/
def value {ε : Type} (read : VariableRef → Except ε α) (e : Expression α) : Except ε α :=
  e.terms.foldlM (fun sum (v, c) => (read v).map (fun x => sum + c * x)) e.constant

/-! ## Text -/

/-- A term as it stands after `first = false` others, written with `number`
and `name`. -/
def termText (number : α → String) (name : VariableRef → String) (first : Bool)
    (term : VariableRef × α) : String :=
  let (v, c) := term
  if c == 1 then (if first then "" else " + ") ++ name v
  else if c == -1 then (if first then "-" else " - ") ++ name v
  else if first then number c ++ " " ++ name v
  else if Scalar.lt c 0 then " - " ++ number (-c) ++ " " ++ name v
  else " + " ++ number c ++ " " ++ name v

/-- The expression written with `number` for its numbers and `name` for its
variables: the terms with their signs between them, then the constant. The
constant is left out when it is zero, unless it stands alone. -/
def text (number : α → String) (name : VariableRef → String) (e : Expression α) : String :=
  match e.terms with
  | [] => number e.constant
  | first :: rest =>
    termText number name true first
      ++ String.join (rest.map (termText number name false))
      ++ if Scalar.lt 0 e.constant then " + " ++ number e.constant
        else if Scalar.lt e.constant 0 then " - " ++ number (-e.constant)
        else ""

end Expression

end Milp
