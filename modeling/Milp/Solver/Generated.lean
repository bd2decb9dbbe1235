/-
Milp.Solver.Generated — from a model to a flat problem.

`Generated.ofModel` gives every variable of the model a column and every
constraint a row. Columns stand in the order of the model's variables and
take their effective bounds; the objective is dense over them; each row has
the constraint's merged terms, its normalized bound, sense and name.

What is kept beside the problem is what leads back from it: the variables
in column order and the constraints' identities in row order. The row of a
constraint is looked up by identity (`getElem?_of_lastIndexOf?_eq_some`:
what is found does stand there; `getElem?_ne_of_lastIndexOf?_lt`: it does not
stand further on; `lastIndexOf?_eq_none_iff`: it is found if it is there).
-/
import Milp.Model.Basic
import Milp.Problem.Solution
import Milp.Variable.Basic

namespace Milp

/-- A generated problem and where its columns and rows came from. -/
structure Generated (α : Type) where
  problem : Problem α
  /-- The variables, by column number. -/
  vars : List VariableRef
  /-- The constraints, by row number. -/
  constraints : List ConstraintId
  deriving Repr

/-- The last place where `x` stands in a list. -/
def lastIndexOf? (x : Nat) : List Nat → Option Nat
  | [] => none
  | y :: rest =>
    match lastIndexOf? x rest with
    | some i => some (i + 1)
    | none => if y = x then some 0 else none

theorem lastIndexOf?_eq_none_iff {x : Nat} {l : List Nat} : lastIndexOf? x l = none ↔ x ∉ l := by
  induction l with
  | nil => simp [lastIndexOf?]
  | cons y rest ih =>
    cases found : lastIndexOf? x rest with
    | some i => simp_all [lastIndexOf?]
    | none =>
      have absent := ih.1 found
      by_cases same : y = x
      · simp [lastIndexOf?, found, same]
      · simp [lastIndexOf?, found, same, absent, Ne.symm same]

theorem getElem?_of_lastIndexOf?_eq_some {x i : Nat} {l : List Nat}
    (h : lastIndexOf? x l = some i) : l[i]? = some x := by
  induction l generalizing i with
  | nil => simp [lastIndexOf?] at h
  | cons y rest ih =>
    cases found : lastIndexOf? x rest with
    | some j =>
      simp only [lastIndexOf?, found, Option.some.injEq] at h
      subst h
      simpa using ih found
    | none =>
      simp only [lastIndexOf?, found] at h
      split at h
      · next same =>
        cases h
        simp [same]
      · simp at h

theorem getElem?_ne_of_lastIndexOf?_lt {x i j : Nat} {l : List Nat}
    (h : lastIndexOf? x l = some i) (hij : i < j) : l[j]? ≠ some x := by
  induction l generalizing i j with
  | nil => simp
  | cons y rest ih =>
    obtain ⟨k, rfl⟩ : ∃ k, j = k + 1 := ⟨j - 1, by omega⟩
    rw [List.getElem?_cons_succ]
    cases found : lastIndexOf? x rest with
    | some i' =>
      simp only [lastIndexOf?, found, Option.some.injEq] at h
      exact ih found (by omega)
    | none => exact fun hk => lastIndexOf?_eq_none_iff.1 found (List.mem_of_getElem? hk)

namespace Generated

variable {α : Type}

/-- The column of a variable. -/
def offset? (g : Generated α) (v : VariableRef) : Option Nat := g.vars.idxOf? v

/-- The row of a constraint; of constraints with one identity, the last. -/
def row? (g : Generated α) (id : ConstraintId) : Option Nat := lastIndexOf? id g.constraints

/-- The column of a variable as a solver should see it. -/
def columnOf (x : Variable α) : Column α :=
  let (lower, upper) := x.effectiveBounds
  ⟨x.name, x.kind, lower, upper⟩

variable [Scalar α]

/-- A coefficient for each of `count` columns: those of the terms, added to
`0`, and `0` where there is no term. -/
def coefficients {ε : Type} (offset : VariableRef → Except ε Nat) (count : Nat)
    (terms : List (VariableRef × α)) : Except ε (List α) :=
  terms.foldlM
    (fun dense (v, c) => (offset v).map fun i => dense.modify i (· + c))
    (List.replicate count 0)

/-- A term with its variable's column in the place of the variable. -/
def numberTerm {ε : Type} (offset : VariableRef → Except ε Nat) (term : VariableRef × α) :
    Except ε (Nat × α) :=
  (offset term.1).map fun i => (i, term.2)

/-- The row of a constraint over numbered columns. -/
def rowOf {ε : Type} (offset : VariableRef → Except ε Nat) (c : Constraint α) :
    Except ε (Row α) :=
  (c.normalized.1.mapM (numberTerm offset)).map fun terms =>
    ⟨c.sense, terms, c.normalized.2, c.name⟩

/-- The problem of a model over variables in the given state. -/
def ofModel (variableAt : VariableRef → Variable α) (config : Config α) (m : Model α) :
    Except (ModelError α) (Generated α) :=
  let vars := m.vars
  let offset (v : VariableRef) : Except (ModelError α) Nat :=
    match vars.idxOf? v with
    | some i => .ok i
    | none => .error (.foreignVariable (variableAt v).name.text m.name)
  let objective := m.objective.expression.assemble
  (coefficients offset vars.length objective.terms).bind fun coefficients =>
    (m.constraints.mapM (rowOf offset)).map fun rows =>
      { problem := {
          name := m.name
          objective := ⟨m.objective.direction, coefficients, objective.constant⟩
          columns := vars.map fun v => columnOf (variableAt v)
          rows := rows
          config := config }
        vars := vars
        constraints := m.constraints.map Constraint.id }

end Generated

end Milp
