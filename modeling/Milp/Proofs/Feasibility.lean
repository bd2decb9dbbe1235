/-
Milp.Proofs.Feasibility — the two checks of feasibility agree.

A problem checks a vector of values by columns and merged rows
(`Problem.accepts`); a model checks the values its variables have, bounds
and both sides of each constraint as they were written
(`Variable.isFeasible`, `Constraint.isSatisfied`). The two are written
apart, and use the tolerance in different places: a row moves its bound by
it, a comparison of two sides asks for their distance first.

In exact arithmetic they answer the same (`accepts_iff_feasible`), for the
problem generated from variables that are not frozen, where no merged
coefficient was lost for being small.
-/
import Milp.Proofs.ExactValue
import Milp.Proofs.Generation

namespace Milp

open Exact

/-! ## Columns -/

/-- A bound moved down by the tolerance, and a comparison with it. -/
theorem le_sub_tolerance {b : Exact} (hb : Scalar.isNaN b = false) (q : ℚ) :
    Scalar.le (b - Scalar.tolerance) (finite q) = (Scalar.compare (finite q) b != .lt) := by
  cases b with
  | finite a =>
    rw [tolerance_eq, finite_sub, le_finite, Bool.eq_iff_iff, decide_eq_true_eq, bne_iff_ne]
    exact (compare_ne_lt_iff q a).symm
  | infinite s => cases s <;> rfl
  | undefined => cases hb

/-- A bound moved up by the tolerance, and a comparison with it. -/
theorem le_add_tolerance {b : Exact} (hb : Scalar.isNaN b = false) (q : ℚ) :
    Scalar.le (finite q) (b + Scalar.tolerance) = (Scalar.compare (finite q) b != .gt) := by
  cases b with
  | finite a =>
    rw [tolerance_eq, finite_add, le_finite, Bool.eq_iff_iff, decide_eq_true_eq, bne_iff_ne]
    exact (compare_ne_gt_iff q a).symm
  | infinite s => cases s <;> rfl
  | undefined => cases hb

/-- The column of a variable takes exactly the values the variable is
feasible at. -/
theorem accepts_columnOf {x : Variable Exact} {level : Level Exact} {q : ℚ}
    (hfreeze : x.freeze.isFrozen = false) (hlevel : x.assigned = some level)
    (hq : level.value = finite q) (hlower : Scalar.isNaN x.lower = false)
    (hupper : Scalar.isNaN x.upper = false) :
    (Generated.columnOf x).accepts (finite q) Scalar.tolerance = x.isFeasible := by
  have hbounds : x.effectiveBounds = (x.lower, x.upper) :=
    Variable.effectiveBounds_of_not_frozen hfreeze
  have hintegral : Scalar.isIntegral (finite q)
      = Scalar.le (Scalar.abs (finite q - Scalar.round (finite q))) Scalar.tolerance := by
    rw [Scalar.isIntegral, isFinite_finite, Bool.true_and]
  rw [Variable.isFeasible, hlevel]
  simp only [Column.accepts, Generated.columnOf, hbounds, hq, Scalar.isBetween, hintegral,
    le_sub_tolerance hlower, le_add_tolerance hupper]
  rfl

/-! ## Rows -/

/-- A row of numbered terms adds up the terms. -/
theorem activity_eq_dot (number : VariableRef → Nat) {r : Row Exact} {values : List Exact}
    {x : VariableRef → ℚ} {terms : List (VariableRef × Exact)}
    (hr : r.terms = terms.map fun t => (number t.1, t.2))
    (hterms : ∀ t ∈ terms, Scalar.isFinite t.2 = true ∧
      values.getD (number t.1) 0 = finite (x t.1)) :
    r.activity values = finite (Expression.dot x terms) := by
  have hproducts : r.terms.map (fun t => t.2 * values.getD t.1 0)
      = terms.map fun t => finite (t.2.toRat * x t.1) := by
    rw [hr, List.map_map]
    refine List.map_congr_left fun t ht => ?_
    obtain ⟨hfin, hval⟩ := hterms t ht
    have ht := eq_finite_of_isFinite hfin
    rw [Function.comp_apply, hval, ← finite_mul, ← ht]
  exact (congrArg Scalar.sum hproducts).trans (sum_eq_finite _ _)

/-- In exact arithmetic a row is at what the terms of the two sides differ by,
if no coefficient was lost in merging them. -/
theorem activity_eq_sub {vars : List VariableRef} {values : List Exact} {x : VariableRef → ℚ}
    {c : Constraint Exact} (hlhs : c.lhs.HasFiniteTerms) (hrhs : c.rhs.HasFiniteTerms)
    (hsmall : (c.lhs.minus c.rhs).NoSmallCoefficient)
    (hvalues : ∀ v ∈ c.vars, values.getD (vars.idxOf v) 0 = finite (x v)) :
    (Generated.compiledRow vars c).activity values
      = finite (Expression.dot x c.lhs.terms - Expression.dot x c.rhs.terms) := by
  have hminus := Expression.hasFiniteTerms_minus hlhs hrhs
  have hdot : Expression.dot x c.normalized.1
      = Expression.dot x c.lhs.terms - Expression.dot x c.rhs.terms := by
    rw [← Expression.dot_minus hrhs]
    exact Expression.dot_assemble hminus hsmall
  rw [← hdot]
  exact activity_eq_dot (vars.idxOf ·) rfl fun t ht =>
    ⟨Expression.hasFiniteTerms_assemble hminus t ht,
      hvalues t.1 (Constraint.mem_vars_of_mem_normalized ht)⟩

/-- The bound of a row is what the constants of the two sides differ by, with
the sign changed. -/
theorem bound_normalized (c : Constraint Exact) :
    c.normalized.2 = -(c.lhs.constant - c.rhs.constant) := by
  rw [← Expression.constant_minus]
  rfl

/-- A row with a finite activity and bound asks for what the two sides of
a constraint are asked for, as soon as the differences are equal. -/
theorem isSatisfied_eq_holds_of_finite {r : Row Exact} {values : List Exact} {a b lhs rhs : ℚ}
    (hactivity : r.activity values = finite a) (hbound : r.bound = finite b)
    (hdiff : a - b = lhs - rhs) :
    r.isSatisfied values Scalar.tolerance
      = r.sense.holds (Scalar.compare (finite lhs) (finite rhs)) := by
  rw [Row.isSatisfied, hactivity, hbound, Bool.eq_iff_iff]
  cases r.sense with
  | atMost =>
    simp only [Sense.holds, tolerance_eq, finite_add, le_finite, decide_eq_true_eq, bne_iff_ne,
      compare_ne_gt_iff]
    constructor <;> intro h <;> linarith
  | equal =>
    simp only [Sense.holds, tolerance_eq, finite_sub, abs_finite, le_finite, decide_eq_true_eq,
      beq_iff_eq, compare_eq_iff, hdiff]
  | atLeast =>
    simp only [Sense.holds, tolerance_eq, finite_sub, le_finite, decide_eq_true_eq, bne_iff_ne,
      compare_ne_lt_iff]
    constructor <;> intro h <;> linarith

/-- A row asks for what the two sides of a constraint are asked for: the
terms `p` and `q` of the sides are its activity, the constants `left` and
`right` its bound. An infinite constant decides both. -/
theorem isSatisfied_eq_holds {r : Row Exact} {values : List Exact} {p q : ℚ}
    {left right : Exact} (hactivity : r.activity values = finite (p - q))
    (hbound : r.bound = -(left - right)) (hdefined : Scalar.isNaN r.bound = false) :
    r.isSatisfied values Scalar.tolerance
      = r.sense.holds (Scalar.compare (left + finite p) (right + finite q)) := by
  cases left with
  | finite a =>
    cases right with
    | finite b =>
      rw [finite_sub, finite_neg] at hbound
      rw [finite_add, finite_add]
      exact isSatisfied_eq_holds_of_finite hactivity hbound (by ring)
    | infinite t =>
      rw [Row.isSatisfied, hactivity, hbound]
      cases t <;> cases r.sense <;> rfl
    | undefined =>
      rw [hbound] at hdefined
      cases hdefined
  | infinite s =>
    cases right with
    | finite b =>
      rw [Row.isSatisfied, hactivity, hbound]
      cases s <;> cases r.sense <;> rfl
    | infinite t =>
      rw [hbound] at hdefined
      rw [Row.isSatisfied, hactivity, hbound]
      -- two equal infinities have no difference, so no defined bound
      cases s <;> cases t
      · cases hdefined
      · cases r.sense <;> rfl
      · cases r.sense <;> rfl
      · cases hdefined
    | undefined =>
      rw [hbound] at hdefined
      cases hdefined
  | undefined =>
    rw [hbound] at hdefined
    cases right <;> cases hdefined

/-- The row of a constraint is satisfied exactly when its sides are. -/
theorem isSatisfied_compiledRow {ε : Type} {read : VariableRef → Except ε Exact}
    {vars : List VariableRef} {values : List Exact} {x : VariableRef → ℚ} {c : Constraint Exact}
    (hlhs : c.lhs.HasFiniteTerms) (hrhs : c.rhs.HasFiniteTerms)
    (hbound : Scalar.isNaN c.normalized.2 = false)
    (hsmall : (c.lhs.minus c.rhs).NoSmallCoefficient)
    (hvalues : ∀ v ∈ c.vars, values.getD (vars.idxOf v) 0 = finite (x v))
    (hread : ∀ v ∈ c.vars, read v = .ok (finite (x v))) :
    (Generated.compiledRow vars c).isSatisfied values Scalar.tolerance = true
      ↔ c.isSatisfied read = .ok true := by
  have hactivity := activity_eq_sub hlhs hrhs hsmall hvalues
  have hconstants : (Generated.compiledRow vars c).bound
      = -(c.lhs.constant - c.rhs.constant) := bound_normalized c
  have hleft := Expression.value_eq_ok hlhs fun v hv =>
    hread v (Constraint.mem_vars_iff.mpr (Or.inl hv))
  have hright := Expression.value_eq_ok hrhs fun v hv =>
    hread v (Constraint.mem_vars_iff.mpr (Or.inr hv))
  rw [isSatisfied_eq_holds hactivity hconstants hbound, Constraint.isSatisfied, hleft, hright]
  exact ⟨congrArg Except.ok, fun h => Except.ok.inj h⟩

/-! ## Whole problems -/

/-- The variables were assigned the finite values of a list, by their place
among `vars`. -/
structure AssignedByOffset (variableAt : VariableRef → Variable Exact) (vars : List VariableRef)
    (values : List Exact) : Prop where
  isFinite : ∀ y ∈ values, Scalar.isFinite y = true
  length : values.length = vars.length
  assigned : ∀ v (i : Nat), vars.idxOf? v = some i →
    (variableAt v).assigned.map Level.value = values[i]?

/-- The rational that a variable was assigned. -/
def assignedRat (variableAt : VariableRef → Variable Exact) (v : VariableRef) : ℚ :=
  (variableAt v).assigned.elim 0 fun level => level.value.toRat

namespace AssignedByOffset

variable {variableAt : VariableRef → Variable Exact} {vars : List VariableRef}
  {values : List Exact}

/-- A variable has a finite value, and it stands at the variable's place. -/
theorem exists_level (h : AssignedByOffset variableAt vars values) {v : VariableRef}
    (hv : v ∈ vars) : ∃ level, (variableAt v).assigned = some level
      ∧ level.value = finite (assignedRat variableAt v)
      ∧ values[vars.idxOf v]? = some (finite (assignedRat variableAt v)) := by
  have hplace := h.assigned v _ (idxOf?_of_mem hv)
  have hlt : vars.idxOf v < values.length := by
    rw [h.length]
    exact List.idxOf_lt_length_of_mem hv
  rw [List.getElem?_eq_getElem hlt] at hplace ⊢
  obtain ⟨level, hassign, hval⟩ := Option.map_eq_some_iff.mp hplace
  have hrat : level.value = finite (assignedRat variableAt v) := by
    rw [assignedRat, hassign, hval, Option.elim_some, hval]
    exact eq_finite_of_isFinite (h.isFinite _ (List.getElem_mem hlt))
  exact ⟨level, hassign, hrat, by rw [← hval, hrat]⟩

theorem getD_idxOf (h : AssignedByOffset variableAt vars values) {v : VariableRef}
    (hv : v ∈ vars) : values.getD (vars.idxOf v) 0 = finite (assignedRat variableAt v) := by
  obtain ⟨-, -, -, hval⟩ := h.exists_level hv
  rw [List.getD_eq_getElem?_getD, hval, Option.getD_some]

theorem value_eq_ok (h : AssignedByOffset variableAt vars values) {v : VariableRef}
    (hv : v ∈ vars) : (variableAt v).value = .ok (finite (assignedRat variableAt v)) := by
  obtain ⟨level, hassign, hrat, -⟩ := h.exists_level hv
  rw [Variable.value, Variable.level?, hassign, ← hrat]
  rfl

/-- The list of values is the list of what the variables were assigned. -/
theorem values_eq_map (h : AssignedByOffset variableAt vars values) (hvars : vars.Nodup) :
    values = vars.map fun v => finite (assignedRat variableAt v) := by
  refine List.ext_getElem (by simpa using h.length) fun i h1 h2 => ?_
  have hi : i < vars.length := by simpa using h2
  obtain ⟨-, -, -, hval⟩ := h.exists_level (List.getElem_mem hi)
  rw [hvars.idxOf_getElem i hi, List.getElem?_eq_getElem h1] at hval
  rw [List.getElem_map, Option.some.inj hval]

/-- Column by column, the values are accepted exactly when the variables
are feasible. -/
theorem columns_accept_iff (h : AssignedByOffset variableAt vars values) (hvars : vars.Nodup)
    (hbounds : ∀ v ∈ vars, Scalar.isNaN (variableAt v).lower = false
      ∧ Scalar.isNaN (variableAt v).upper = false)
    (hunfrozen : ∀ v ∈ vars, (variableAt v).freeze.isFrozen = false) :
    ((vars.map fun v => Generated.columnOf (variableAt v)).zip values).all
        (fun (column, value) => column.accepts value Scalar.tolerance) = true
      ↔ ∀ v ∈ vars, (variableAt v).isFeasible = true := by
  have hcolumn : ∀ v ∈ vars, (Generated.columnOf (variableAt v)).accepts
      (finite (assignedRat variableAt v)) Scalar.tolerance = (variableAt v).isFeasible := by
    intro v hv
    obtain ⟨level, hassign, hrat, -⟩ := h.exists_level hv
    exact accepts_columnOf (hunfrozen v hv) hassign hrat (hbounds v hv).1 (hbounds v hv).2
  rw [h.values_eq_map hvars, List.zip_map', List.all_map, List.all_eq_true]
  constructor
  · intro hall v hv
    rw [← hcolumn v hv]
    exact hall v hv
  · intro hall v hv
    exact (hcolumn v hv).trans (hall v hv)

/-- Row by row, the values are accepted exactly when the constraints are
satisfied. -/
theorem rows_satisfied_iff (h : AssignedByOffset variableAt vars values)
    {constraints : List (Constraint Exact)} (hmem : ∀ c ∈ constraints, ∀ v ∈ c.vars, v ∈ vars)
    (hfinite : ∀ c ∈ constraints, c.lhs.HasFiniteTerms ∧ c.rhs.HasFiniteTerms)
    (hdefined : ∀ c ∈ constraints, Scalar.isNaN c.normalized.2 = false)
    (hsmall : ∀ c ∈ constraints, (c.lhs.minus c.rhs).NoSmallCoefficient) :
    ((constraints.map (Generated.compiledRow vars)).all
        fun row => row.isSatisfied values Scalar.tolerance) = true
      ↔ ∀ c ∈ constraints, c.isSatisfied (fun v => (variableAt v).value) = .ok true := by
  have hrow : ∀ c ∈ constraints,
      (Generated.compiledRow vars c).isSatisfied values Scalar.tolerance = true
        ↔ c.isSatisfied (fun v => (variableAt v).value) = .ok true := fun c hc =>
    isSatisfied_compiledRow (hfinite c hc).1 (hfinite c hc).2 (hdefined c hc) (hsmall c hc)
      (fun v hv => h.getD_idxOf (hmem c hc v hv)) (fun v hv => h.value_eq_ok (hmem c hc v hv))
  rw [List.all_map, List.all_eq_true]
  constructor
  · intro hall c hc
    exact (hrow c hc).mp (hall c hc)
  · intro hall c hc
    exact (hrow c hc).mpr (hall c hc)

end AssignedByOffset

/-- Where the values are those the variables have, a problem accepts them
exactly when every variable is feasible and every constraint is satisfied. -/
theorem accepts_iff_feasible {variableAt : VariableRef → Variable Exact} {config : Config Exact}
    {m : Model Exact} {g : Generated Exact} {values : List Exact}
    (hfinite : ∀ c ∈ m.constraints, c.lhs.HasFiniteTerms ∧ c.rhs.HasFiniteTerms)
    (hdefined : ∀ c ∈ m.constraints, Scalar.isNaN c.normalized.2 = false)
    (hsmall : ∀ c ∈ m.constraints, (c.lhs.minus c.rhs).NoSmallCoefficient)
    (hbounds : ∀ v ∈ m.vars, Scalar.isNaN (variableAt v).lower = false
      ∧ Scalar.isNaN (variableAt v).upper = false)
    (hunfrozen : ∀ v ∈ m.vars, (variableAt v).freeze.isFrozen = false)
    (hsync : Generated.ofModel variableAt config m = .ok g)
    (hvalues : ∀ y ∈ values, Scalar.isFinite y = true)
    (hlength : values.length = g.problem.columns.length)
    (hassigned : ∀ v (i : Nat), g.offset? v = some i →
      (variableAt v).assigned.map Level.value = values[i]?) :
    g.problem.accepts values Scalar.tolerance = true ↔
      (∀ v ∈ m.vars, (variableAt v).isFeasible = true)
        ∧ ∀ c ∈ m.constraints, c.isSatisfied (fun v => (variableAt v).value) = .ok true := by
  rw [Generated.ofModel_eq_compiled] at hsync
  obtain rfl := Except.ok.inj hsync
  have hplaced : AssignedByOffset variableAt m.vars values := {
    isFinite := hvalues
    length := hlength.trans (Generated.faithful_compiled variableAt config m).columns_length
    assigned := hassigned }
  have hcolumns := hplaced.columns_accept_iff m.nodup_vars hbounds hunfrozen
  have hrows := hplaced.rows_satisfied_iff
    (fun c hc v hv => Model.mem_vars_iff.mpr (Or.inr ⟨c, hc, hv⟩)) hfinite hdefined hsmall
  have hsplit : (Generated.compiled variableAt config m).problem.accepts values Scalar.tolerance
      = (values.length == (Generated.compiled variableAt config m).problem.columns.length
        && ((m.vars.map fun v => Generated.columnOf (variableAt v)).zip values).all
          (fun (column, value) => column.accepts value Scalar.tolerance)
        && (m.constraints.map (Generated.compiledRow m.vars)).all
          fun row => row.isSatisfied values Scalar.tolerance) := rfl
  rw [hsplit, Bool.and_eq_true, Bool.and_eq_true, hcolumns, hrows, beq_iff_eq]
  exact ⟨fun h => ⟨h.1.2, h.2⟩, fun h => ⟨⟨hlength, h.1⟩, h.2⟩⟩

/-! ## A state of two variables -/

/-- `x` is a whole number without an upper bound and has the value `1`; `y`
has no bound below and the value `1 / 2`. -/
def mergingState : VariableRef → Variable Exact
  | ⟨0⟩ => {
      id := 0, name := .given "x", lower := 0, upper := .infinite false, kind := .integer
      assigned := some ⟨⟨0, 0⟩, 1, 0⟩ }
  | _ => {
      id := 1, name := .given "y", lower := .infinite true, upper := 1, kind := .continuous
      assigned := some ⟨⟨0, 1⟩, finite (1 / 2), 0⟩ }

/-- The merged problem accepts the values, because the model as it was
written does. -/
theorem accepts_mergingModel : ∃ g, Generated.ofModel mergingState {} mergingModel = .ok g ∧
    g.problem.accepts [1, finite (1 / 2)] Scalar.tolerance = true := by
  refine ⟨_, Generated.ofModel_eq_compiled mergingState {} mergingModel, ?_⟩
  refine (accepts_iff_feasible (by decide +kernel) (by decide +kernel)
    (by decide +kernel) ?_ ?_
    (Generated.ofModel_eq_compiled mergingState {} mergingModel) (by decide +kernel)
    (by decide +kernel) ?_).mpr ⟨?_, ?_⟩
  · rw [vars_mergingModel]
    decide +kernel
  · rw [vars_mergingModel]
    decide +kernel
  · intro v i hi
    rw [(Generated.faithful_compiled mergingState {} mergingModel).offset] at hi
    have hplace : [(⟨0⟩ : VariableRef), ⟨1⟩][i]? = some v := vars_mergingModel ▸ hi
    match i, hplace with
    | 0, h =>
        obtain rfl := Option.some.inj h
        rfl
    | 1, h =>
        obtain rfl := Option.some.inj h
        rfl
  · rw [vars_mergingModel]
    decide +kernel
  · decide +kernel

end Milp
