/-
Milp.Proofs.MovedTerms — moving terms across a constraint.

The row of a constraint holds the merged terms of one side less those of the
other. The order in which they are merged, and with it the order of the row,
depends on how the constraint was written; what is left of a variable does
not. In exact arithmetic it is the difference of what the variable adds up to
on the two sides (`Expression.weight_minus`), dropped if it is within the
tolerance, and the row adds these up over any variables that include its own
(`Expression.dot_assemble_eq_sum`).

So terms added to both sides leave no trace, and exchanging the sides changes
the sign of the row and of its bound (`dot_assemble_of_weight`). The tests of a
row are symmetric under this change of sign (`isSatisfied_of_flipped`). Which
variables are dropped is the same each time, so nothing has to be asked of the
coefficients (`rows_of_moved_terms`).
-/
import Mathlib.Algebra.BigOperators.Ring.Finset
import Milp.Proofs.Assembly
import Milp.Proofs.Feasibility

namespace Milp

open Exact

/-! ## Weights -/

theorem Exact.toRat_neg (a : Exact) : (-a).toRat = -a.toRat := by
  cases a with
  | finite q => rfl
  | infinite s => exact neg_zero.symm
  | undefined => exact neg_zero.symm

namespace Expression

variable {x : VariableRef → ℚ}

theorem weight_plus (a b : Expression Exact) (v : VariableRef) :
    (a.plus b).weight v = a.weight v + b.weight v := by
  simp [weight, coefficientsOf]

theorem weight_negate (e : Expression Exact) (v : VariableRef) :
    e.negate.weight v = -e.weight v := by
  obtain ⟨constant, terms⟩ := e
  simp only [weight, negate, terms_times]
  induction terms with
  | nil => rfl
  | cons t rest ih =>
    obtain ⟨w, k⟩ := t
    by_cases h : w = v
    · simp only [coefficientsOf, List.map_cons, List.filter_cons, h, decide_true, if_true,
        List.sum_cons, mul_neg_one, toRat_neg, neg_add] at ih ⊢
      rw [ih]
    · simp only [coefficientsOf, List.map_cons, List.filter_cons, h, decide_false,
        Bool.false_eq_true, if_false] at ih ⊢
      exact ih

/-- What a variable adds up to in a difference. -/
theorem weight_minus (a b : Expression Exact) (v : VariableRef) :
    (a.minus b).weight v = a.weight v - b.weight v := by
  rw [minus, weight_plus, weight_negate, sub_eq_add_neg]

theorem weight_of_not_mem {e : Expression Exact} {v : VariableRef} (h : v ∉ e.vars) :
    e.weight v = 0 := by
  rw [mem_vars_iff] at h
  rw [weight, coefficientsOf_eq_nil_iff.mpr h]
  rfl

/-- What assembling leaves of a variable. -/
def kept (e : Expression Exact) (v : VariableRef) : ℚ :=
  if |e.weight v| ≤ 1 / 1000000 then 0 else e.weight v

theorem kept_of_not_mem {e : Expression Exact} {v : VariableRef} (h : v ∉ e.vars) :
    e.kept v = 0 := by
  rw [kept, weight_of_not_mem h, ite_self]

/-- Assembled terms add up what is left of each variable, over any variables
that include those of the expression. -/
theorem dot_assemble_eq_sum {e : Expression Exact} (he : e.HasFiniteTerms)
    {among : Finset VariableRef} (hamong : ∀ v ∈ e.vars, v ∈ among) :
    dot x e.assemble.terms = ∑ v ∈ among, e.kept v * x v := by
  have hterms : dot x e.assemble.terms = (e.vars.map fun v => e.kept v * x v).sum := by
    rw [terms_assemble, dot, List.map_map]
    induction e.vars with
    | nil => rfl
    | cons v rest ih =>
      rw [List.map_cons, List.sum_cons, ← ih, List.filter_cons]
      have hcoefficient := coefficient_eq_finite he v
      by_cases h : |e.weight v| ≤ 1 / 1000000
      · have happrox : Scalar.approxEq (e.coefficient v) 0 = true := by
          rw [hcoefficient, approxEq_zero_iff]
          exact h
        rw [happrox, kept, if_pos h, zero_mul, zero_add]
        rfl
      · have happrox : Scalar.approxEq (e.coefficient v) 0 = false := by
          rw [← Bool.not_eq_true, hcoefficient, approxEq_zero_iff]
          exact h
        rw [happrox, kept, if_neg h, Bool.not_false, if_pos rfl, List.map_cons, List.sum_cons,
          Function.comp_apply, hcoefficient, toRat_finite]
  have hvars : (e.vars.map fun v => e.kept v * x v).sum = ∑ v ∈ e.vars.toFinset, e.kept v * x v :=
    (List.sum_toFinset _ (nodup_eraseDups _)).symm
  rw [hterms, hvars]
  refine Finset.sum_subset (fun v hv => hamong v (List.mem_toFinset.mp hv)) fun v _ hv => ?_
  rw [kept_of_not_mem fun hmem => hv (List.mem_toFinset.mpr hmem), zero_mul]

/-- Expressions over the same weights, or over weights of the other sign,
assemble to the same value, or to that of the other sign. -/
theorem dot_assemble_of_weight (x : VariableRef → ℚ) {a b : Expression Exact}
    (ha : a.HasFiniteTerms) (hb : b.HasFiniteTerms) {sign : ℚ} (hsign : |sign| = 1)
    (h : ∀ v, a.weight v = sign * b.weight v) :
    dot x a.assemble.terms = sign * dot x b.assemble.terms := by
  have hkept : ∀ v, a.kept v = sign * b.kept v := by
    intro v
    have habs : |a.weight v| = |b.weight v| := by rw [h, abs_mul, hsign, one_mul]
    rw [kept, kept, habs]
    split
    · rw [mul_zero]
    · exact h v
  have hleft : ∀ v ∈ a.vars, v ∈ a.vars.toFinset ∪ b.vars.toFinset := fun v hv =>
    Finset.mem_union_left _ (List.mem_toFinset.mpr hv)
  have hright : ∀ v ∈ b.vars, v ∈ a.vars.toFinset ∪ b.vars.toFinset := fun v hv =>
    Finset.mem_union_right _ (List.mem_toFinset.mpr hv)
  rw [dot_assemble_eq_sum ha hleft, dot_assemble_eq_sum hb hright, Finset.mul_sum]
  refine Finset.sum_congr rfl fun v _ => ?_
  rw [hkept, mul_assoc]

/-- All numbers of an expression are finite. -/
structure IsFinite (e : Expression Exact) : Prop where
  constant : Scalar.isFinite e.constant = true
  terms : e.HasFiniteTerms

theorem IsFinite.plus {a b : Expression Exact} (ha : a.IsFinite) (hb : b.IsFinite) :
    (a.plus b).IsFinite where
  constant := by
    rw [constant_plus, eq_finite_of_isFinite ha.constant, eq_finite_of_isFinite hb.constant]
    rfl
  terms := fun t ht => (List.mem_append.mp ht).elim (ha.terms t) (hb.terms t)

theorem IsFinite.toRat_constant_plus {a b : Expression Exact} (ha : a.IsFinite)
    (hb : b.IsFinite) :
    (a.plus b).constant.toRat = a.constant.toRat + b.constant.toRat := by
  rw [constant_plus, eq_finite_of_isFinite ha.constant, eq_finite_of_isFinite hb.constant]
  rfl

end Expression

/-! ## Rows -/

/-- The sense of the same comparison read from the right. -/
def Sense.flipped : Sense → Sense
  | .atMost => .atLeast
  | .equal => .equal
  | .atLeast => .atMost

/-- The row of a constraint over numbered variables. -/
def Constraint.row {α : Type} [Scalar α] (number : VariableRef → Nat) (c : Constraint α) :
    Row α where
  sense := c.sense
  terms := c.normalized.1.map fun t => (number t.1, t.2)
  bound := c.normalized.2
  name := c.name

theorem rowOf_eq_row {α ε : Type} [Scalar α] (number : VariableRef → Nat) (c : Constraint α) :
    Generated.rowOf (ε := ε) (fun v => .ok (number v)) c = .ok (c.row number) := by
  have hterms : c.normalized.1.mapM (Generated.numberTerm (ε := ε) fun v => .ok (number v))
      = .ok (c.normalized.1.map fun t => (number t.1, t.2)) := mapM_eq_ok fun _ _ => rfl
  rw [Generated.rowOf, hterms]
  rfl

section

variable (number : VariableRef → Nat) {values : List Exact} {c : Constraint Exact}

/-- The value that a numbered variable has in a list of values, `0` past its
end. -/
def valueBy (number : VariableRef → Nat) (values : List Exact) (v : VariableRef) : ℚ :=
  (values.getD (number v) 0).toRat

theorem getD_eq_valueBy (hvalues : ∀ y ∈ values, Scalar.isFinite y = true) (v : VariableRef) :
    values.getD (number v) 0 = finite (valueBy number values v) := by
  refine eq_finite_of_isFinite ?_
  rw [List.getD_eq_getElem?_getD]
  cases h : values[number v]? with
  | none => rfl
  | some y => exact hvalues y (List.mem_of_getElem? h)

/-- A row adds up the assembled difference of the sides. -/
theorem activity_row (hlhs : c.lhs.IsFinite) (hrhs : c.rhs.IsFinite)
    (hvalues : ∀ y ∈ values, Scalar.isFinite y = true) :
    (c.row number).activity values
      = finite (Expression.dot (valueBy number values) (c.lhs.minus c.rhs).assemble.terms) := by
  have hfinite := Expression.hasFiniteTerms_assemble
    (Expression.hasFiniteTerms_minus hlhs.terms hrhs.terms)
  exact activity_eq_dot number rfl fun t ht => ⟨hfinite t ht, getD_eq_valueBy number hvalues t.1⟩

theorem bound_row (hlhs : c.lhs.IsFinite) (hrhs : c.rhs.IsFinite) :
    (c.row number).bound = finite (c.rhs.constant.toRat - c.lhs.constant.toRat) := by
  have hbound : (c.row number).bound = -(c.lhs.constant - c.rhs.constant) := bound_normalized c
  rw [hbound, eq_finite_of_isFinite hlhs.constant, eq_finite_of_isFinite hrhs.constant,
    finite_sub, finite_neg, neg_sub]
  rfl

end

/-- Moving a bound by a tolerance, seen with the other sign. -/
theorem le_neg_sub_neg (a b : ℚ) (t : Exact) :
    Scalar.le (finite (-b) - t) (finite (-a)) = Scalar.le (finite a) (finite b + t) := by
  cases t with
  | finite q =>
    rw [finite_sub, finite_add, le_finite, le_finite]
    refine decide_eq_decide.mpr ?_
    constructor <;> intro h <;> linarith
  | infinite s => cases s <;> rfl
  | undefined => rfl

/-- A row and the row of the other sense with the other sign ask for the same,
whatever the tolerance. -/
theorem isSatisfied_of_flipped {r r' : Row Exact} {values : List Exact} {a b : ℚ}
    (hsense : r'.sense = r.sense.flipped) (ha : r.activity values = finite a)
    (ha' : r'.activity values = finite (-a)) (hb : r.bound = finite b)
    (hb' : r'.bound = finite (-b)) (tolerance : Exact) :
    r'.isSatisfied values tolerance = r.isSatisfied values tolerance := by
  simp only [Row.isSatisfied, hsense, ha, ha', hb, hb']
  cases r.sense with
  | atMost => exact le_neg_sub_neg a b tolerance
  | equal =>
    have habs : |-a - -b| = |a - b| := by rw [neg_sub_neg, abs_sub_comm]
    simp only [Sense.flipped, finite_sub, abs_finite, habs]
  | atLeast =>
    have hflip := le_neg_sub_neg (-a) (-b) tolerance
    rw [neg_neg, neg_neg] at hflip
    exact hflip.symm

/-- In exact arithmetic, however the variables are numbered and whatever their
values and the tolerance are: the row of a constraint is satisfied exactly when
the row is that has an expression added to both sides, and exactly when the row
is that has the sides exchanged and the sense read from the right. -/
theorem rows_of_moved_terms (lhs rhs e : Expression Exact) (hlhs : lhs.IsFinite)
    (hrhs : rhs.IsFinite) (he : e.IsFinite) (sense : Sense) (number : VariableRef → Nat)
    (values : List Exact) (hvalues : ∀ y ∈ values, Scalar.isFinite y = true) (tolerance : Exact)
    {ε : Type} (id id' id'' : ConstraintId) (name name' name'' : String) :
    let rowOf := Generated.rowOf (α := Exact) (ε := ε) fun v => .ok (number v)
    ∃ row moved exchanged : Row Exact,
      rowOf ⟨id, name, lhs, sense, rhs⟩ = .ok row
      ∧ rowOf ⟨id', name', lhs.plus e, sense, rhs.plus e⟩ = .ok moved
      ∧ rowOf ⟨id'', name'', rhs, sense.flipped, lhs⟩ = .ok exchanged
      ∧ moved.isSatisfied values tolerance = row.isSatisfied values tolerance
      ∧ exchanged.isSatisfied values tolerance = row.isSatisfied values tolerance := by
  intro rowOf
  refine ⟨_, _, _, rowOf_eq_row number _, rowOf_eq_row number _, rowOf_eq_row number _, ?_, ?_⟩
  · have hsame := Expression.dot_assemble_of_weight (valueBy number values)
      (Expression.hasFiniteTerms_minus (hlhs.plus he).terms (hrhs.plus he).terms)
      (Expression.hasFiniteTerms_minus hlhs.terms hrhs.terms) abs_one fun v => by
        rw [Expression.weight_minus, Expression.weight_minus, Expression.weight_plus,
          Expression.weight_plus]
        ring
    have hactivity := activity_row number
      (c := ⟨id', name', lhs.plus e, sense, rhs.plus e⟩) (hlhs.plus he) (hrhs.plus he) hvalues
    have hbound := bound_row number
      (c := ⟨id', name', lhs.plus e, sense, rhs.plus e⟩) (hlhs.plus he) (hrhs.plus he)
    rw [hsame, one_mul] at hactivity
    rw [hlhs.toRat_constant_plus he, hrhs.toRat_constant_plus he, add_sub_add_right_eq_sub]
      at hbound
    simp only [Row.isSatisfied, hactivity, hbound,
      activity_row number (c := ⟨id, name, lhs, sense, rhs⟩) hlhs hrhs hvalues,
      bound_row number (c := ⟨id, name, lhs, sense, rhs⟩) hlhs hrhs]
    rfl
  · have hsame := Expression.dot_assemble_of_weight (valueBy number values)
      (Expression.hasFiniteTerms_minus hrhs.terms hlhs.terms)
      (Expression.hasFiniteTerms_minus hlhs.terms hrhs.terms)
      (show |(-1 : ℚ)| = 1 by rw [abs_neg, abs_one])
      fun v => by
        rw [Expression.weight_minus, Expression.weight_minus]
        ring
    rw [neg_one_mul] at hsame
    refine isSatisfied_of_flipped rfl
      (activity_row number (c := ⟨id, name, lhs, sense, rhs⟩) hlhs hrhs hvalues) ?_
      (bound_row number (c := ⟨id, name, lhs, sense, rhs⟩) hlhs hrhs) ?_ tolerance
    · rw [activity_row number (c := ⟨id'', name'', rhs, sense.flipped, lhs⟩) hrhs hlhs hvalues,
        hsame]
    · rw [bound_row number (c := ⟨id'', name'', rhs, sense.flipped, lhs⟩) hrhs hlhs, neg_sub]

/-! ## A residue that is moved -/

/-- `x / 2 + 3`, `x / 2 - y + z / 2000000` and `z - y`, over three variables. -/
def movingSides : Expression Exact × Expression Exact × Expression Exact :=
  (⟨finite 3, [(⟨0⟩, finite (1 / 2))]⟩,
    ⟨0, [(⟨0⟩, finite (1 / 2)), (⟨1⟩, finite (-1)), (⟨2⟩, finite (1 / 2000000))]⟩,
    ⟨0, [(⟨2⟩, 1), (⟨1⟩, finite (-1))]⟩)

/-- Moved and exchanged, the row takes values that it takes as it was written;
the values end before the third variable. -/
theorem rows_of_movingSides : ∃ moved exchanged : Row Exact,
    Generated.rowOf (ε := Unit) (fun v => .ok v.index)
        ⟨1, "moved", movingSides.1.plus movingSides.2.2, .atMost,
          movingSides.2.1.plus movingSides.2.2⟩ = .ok moved
      ∧ Generated.rowOf (ε := Unit) (fun v => .ok v.index)
        ⟨2, "exchanged", movingSides.2.1, .atLeast, movingSides.1⟩ = .ok exchanged
      ∧ moved.isSatisfied [finite 7, finite (-4)] Scalar.tolerance = true
      ∧ exchanged.isSatisfied [finite 7, finite (-4)] Scalar.tolerance = true := by
  obtain ⟨row, moved, exchanged, hrow, hmoved, hexchanged, hsame, hsame'⟩ :=
    rows_of_moved_terms (ε := Unit) movingSides.1 movingSides.2.1 movingSides.2.2
      ⟨rfl, by decide +kernel⟩ ⟨rfl, by decide +kernel⟩ ⟨rfl, by decide +kernel⟩ .atMost
      VariableRef.index [finite 7, finite (-4)] (by decide +kernel) Scalar.tolerance
      0 1 2 "as written" "moved" "exchanged"
  have hsatisfied : row.isSatisfied [finite 7, finite (-4)] Scalar.tolerance = true := by
    obtain rfl := Except.ok.inj ((rowOf_eq_row _ _).symm.trans hrow)
    decide +kernel
  exact ⟨moved, exchanged, hmoved, hexchanged, hsame.trans hsatisfied, hsame'.trans hsatisfied⟩

/-- Only the second variable is left of the difference, the third being dropped
for its residue. -/
example : (movingSides.1.minus movingSides.2.1).assemble.terms = [(⟨1⟩, 1)] := by decide +kernel

end Milp
