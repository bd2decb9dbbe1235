/-
Milp.Proofs.ReportedNumbers — what a solver reports is what the model says.

After a solve that found values there are two ways to the same numbers. The
generated problem is evaluated at the values of the solution: a dense vector of
costs for the objective, sparse rows over column numbers for the constraints.
And the expressions of the model, as they were written, are evaluated at the
levels that the solve gave to their variables.

In exact arithmetic the two agree (`numbers_agree`), unless a merged
coefficient was lost for being small (`Model.Lossless`). The dense costs add up
to the assembled terms, whatever their order (`sum_costs`). The values of the
solution are the levels of the variables, column by column, whatever the
backend does before it answers (`Prepared.assigned_of_verdict`).
-/
import Milp.Proofs.Feasibility
import Milp.Proofs.Reached

namespace Milp

open Exact

/-! ## Costs -/

/-- A cost is finite where the terms are. -/
theorem costFrom_eq_finite {terms : List (VariableRef × Exact)}
    (hterms : ∀ t ∈ terms, Scalar.isFinite t.2 = true) (v : VariableRef) :
    costFrom 0 terms v = finite (costFrom 0 terms v).toRat := by
  induction terms with
  | nil => rfl
  | cons t rest ih =>
    obtain ⟨w, k⟩ := t
    rw [costFrom_cons]
    split
    · have hk : k = finite k.toRat := eq_finite_of_isFinite (hterms (w, k) List.mem_cons_self)
      rw [hk]
      rfl
    · exact ih fun u hu => hterms u (List.mem_cons_of_mem _ hu)

/-- The costs of all columns times their values are the terms added up: each
variable has one column, and a column without a term adds nothing. -/
theorem sum_costs {x : VariableRef → ℚ} {vars : List VariableRef} (hvars : vars.Nodup)
    {terms : List (VariableRef × Exact)} (hterms : ∀ t ∈ terms, Scalar.isFinite t.2 = true)
    (hmem : ∀ t ∈ terms, t.1 ∈ vars) (hnodup : (terms.map Prod.fst).Nodup) :
    (vars.map fun v => (costFrom 0 terms v).toRat * x v).sum = Expression.dot x terms := by
  induction terms with
  | nil =>
    rw [Expression.dot_nil]
    refine List.sum_eq_zero fun y hy => ?_
    obtain ⟨v, -, rfl⟩ := List.mem_map.mp hy
    exact zero_mul _
  | cons t rest ih =>
    obtain ⟨v, k⟩ := t
    rw [List.map_cons, List.nodup_cons] at hnodup
    have hrest := ih (fun u hu => hterms u (List.mem_cons_of_mem _ hu))
      (fun u hu => hmem u (List.mem_cons_of_mem _ hu)) hnodup.2
    have hk : k = finite k.toRat := eq_finite_of_isFinite (hterms (v, k) List.mem_cons_self)
    have hnone : (costFrom (0 : Exact) rest v).toRat = 0 := by
      rw [costFrom_of_not_mem hnodup.1]
      rfl
    have hfirst : (0 + k : Exact).toRat = k.toRat := by
      rw [hk, zero_eq, finite_add, zero_add]
    have hcolumns : (vars.map fun w => (costFrom 0 ((v, k) :: rest) w).toRat * x w)
        = vars.map fun w => if w = v then k.toRat * x w else (costFrom 0 rest w).toRat * x w := by
      refine List.map_congr_left fun w _ => ?_
      rw [costFrom_cons]
      split
      · rw [hfirst]
      · rfl
    rw [hcolumns, List.sum_map_ite_eq, hrest, Expression.dot_cons, hnone,
      List.count_eq_one_of_mem hvars (hmem (v, k) List.mem_cons_self), one_nsmul, zero_mul,
      sub_zero]

theorem finite_add_comm (q : ℚ) (a : Exact) : finite q + a = a + finite q := by
  cases a with
  | finite r => rw [finite_add, finite_add, add_comm]
  | infinite s => rfl
  | undefined => rfl

/-- The objective of a problem is worth what the expression is. -/
theorem evaluate_costs {x : VariableRef → ℚ} {m : Model Exact} {o : CostVector Exact}
    (ho : o.coefficients = m.vars.map (costFrom 0 m.objective.expression.assemble.terms))
    (hconstant : o.constant = m.objective.expression.constant)
    (hterms : m.objective.expression.HasFiniteTerms)
    (hsmall : m.objective.expression.NoSmallCoefficient) :
    o.evaluate (m.vars.map fun v => finite (x v))
      = m.objective.expression.constant + finite (Expression.dot x m.objective.expression.terms) := by
  have hassembled := Expression.hasFiniteTerms_assemble hterms
  have hproducts : List.zipWith (· * ·) o.coefficients (m.vars.map fun v => finite (x v))
      = m.vars.map fun v => finite
          ((costFrom 0 m.objective.expression.assemble.terms v).toRat * x v) := by
    rw [ho, List.zipWith_map, List.zipWith_self]
    refine List.map_congr_left fun v _ => ?_
    rw [costFrom_eq_finite hassembled, finite_mul, toRat_finite]
  rw [CostVector.evaluate, hproducts, sum_eq_finite, hconstant, finite_add_comm,
    sum_costs m.nodup_vars hassembled (fun t ht => Model.mem_vars_of_mem_objective ht)
      (Expression.nodup_assemble _), Expression.dot_assemble hterms hsmall]

/-! ## Levels after a solve -/

namespace Workspace

variable {α μ : Type} [Scalar α] {ws : Workspace α μ} {c : Conduct α μ} {l : ListenerRef}
  {s : Solver α} {g : Generated α} {solution : Solution α}

/-- Whatever the backend does before it answers, a solve that takes over values
gives each variable the value of its column. -/
theorem Prepared.assigned_of_verdict (hp : Prepared ws l s g (prepare l ws))
    (hready : ensureGenerated l (ws.clear l) = (prepare l ws, .ok ()))
    (hnodup : g.vars.Nodup) (hverdict : ws.verdict c l = .ok solution)
    (hfeasible : solution.isFeasible = true) {v : VariableRef}
    (hkeeps : c.Keeps fun ws => v.index < ws.vars.length) (hlt : v.index < ws.vars.length)
    {i : Nat} (hi : g.vars[i]? = some v) :
    ((ws.solve c l).1.variableAt v).assigned.map Level.value = solution.values[i]? := by
  rw [hp.verdict_eq c] at hverdict
  have hlength := Solver.length_values_of_judge hverdict hfeasible
  have hplace : i < solution.values.length := by
    rw [hlength]
    exact (List.getElem?_eq_some_iff.mp hi).1
  have hthere : v.index < ((prepare l ws).asked
      { s with generated := some g, solution := none } g).vars.length := by
    change v.index < (prepare l ws).vars.length
    rw [hp.size]
    exact hlt
  have hleft := (hkeeps.answer l g.problem _ hthere).1
  rw [solve_eq_ask c hready hp.solver rfl]
  rcases ask_verdict c (prepare l ws) l { s with generated := some g, solution := none } g with
    ⟨e, hjudge, -⟩ | ⟨taken, hjudge, hask⟩
  · rw [hjudge] at hverdict
    cases hverdict
  · rw [hjudge] at hverdict
    obtain rfl := Except.ok.inj hverdict
    rw [hask, Variable.assigned_eq_of_bare (bare_variableAt_release _ l v), variableAt_settle,
      if_pos hfeasible, variableAt_assignAll hnodup hlength hi hleft
        (List.getElem?_eq_getElem hplace), List.getElem?_eq_getElem hplace]
    rfl

/-- A solver is judged only where there is one. -/
theorem exists_prepared_of_verdict (hverdict : ws.verdict c l = .ok solution) :
    ∃ s g, ws.solver? l = some s ∧ Prepared ws l s g (prepare l ws)
      ∧ ensureGenerated l (ws.clear l) = (prepare l ws, .ok ()) := by
  cases hs : ws.solver? l with
  | none =>
    rw [verdict_of_no_solver hs] at hverdict
    cases hverdict
  | some s =>
    obtain ⟨g, hp, hready⟩ := exists_prepared hs
    exact ⟨s, g, rfl, hp, hready⟩

theorem Prepared.vars_eq {ws' : Workspace α μ} (hp : Prepared ws l s g ws')
    (hwell : s.WellFormed ws.vars.length) : g.vars = s.model.vars := by
  rcases hp.problem with hg | ⟨-, hg⟩
  · exact hwell.vars g hg
  · rw [Generated.ofModel_eq_compiled] at hg
    rw [← Except.ok.inj hg]
    rfl

/-- A solver that keeps a solution with values after a solve, and no call on it
since, has a value for each column, and it is what the solve gave the variable;
its problem is that of its model. -/
theorem solved_of_reached (hreached : ws.Reached)
    (hfollows : c.Follows (Rule.calls (· ≠ l)) fun _ => True) {after : List (Turn α μ)}
    (hafter : ∀ t ∈ after, t.call? ≠ some l)
    (hs : (ws.course c (.operate (.solve l) :: after)).solver? l = some s)
    (hsolution : s.solution = some solution) (hfeasible : solution.isFeasible = true) :
    s.Sound ∧ ∀ v (i : Nat), s.model.vars[i]? = some v →
      ((ws.solve c l).1.variableAt v).assigned.map Level.value = solution.values[i]? := by
  have hkeeps : ∀ {P : Workspace α μ → Prop}, (Rule.calls (· ≠ l)).Preserves P → c.Keeps P :=
    fun hpreserves => hpreserves.keeps (fun _ => trivial) hfollows
  have hpreserves : (Rule.calls (fun _ => True) : Rule α μ).Preserves AllSound :=
    preserves_allSound fun _ _ => trivial
  obtain ⟨hsound, hevolved⟩ : (ws.course c (.operate (.solve l) :: after)).AllSound
      ∧ ws.Evolved (ws.course c (.operate (.solve l) :: after)) :=
    (hpreserves.evolved ws).course_of_keeps
      (Rule.Preserves.keeps_evolved (hkeeps (preserves_allSound fun _ _ => trivial)) ws)
      (Rule.allowsAll_calls (fun _ _ _ _ => trivial) ws) ⟨hreached.allSound, .refl ws⟩
  refine ⟨hsound l s hs, fun v i hi => ?_⟩
  have hlatest : LatestSolve c l (.operate (.solve l) :: after) ws ws :=
    ⟨[], after, rfl, hafter, rfl⟩
  have hverdict := hlatest.verdict_eq_ok (fun o => hkeeps (preserves_solution l o)) hs hsolution
  obtain ⟨s₀, g, hs₀, hp, hready⟩ := exists_prepared_of_verdict hverdict
  obtain ⟨s', hs', -, hmodel, -⟩ := hevolved.solver hs₀
  obtain rfl := Option.some.inj (hs'.symm.trans hs)
  have hwell := hreached.allWellFormed l s₀ hs₀
  have hvars := hp.vars_eq hwell
  rw [hmodel] at hi
  refine hp.assigned_of_verdict hready ?_ hverdict hfeasible
    (hkeeps (preserves_index_lt fun _ _ => trivial)) ?_ (hvars ▸ hi)
  · rw [hvars]
    exact s₀.model.nodup_vars
  · exact hwell.inRange v (List.mem_of_getElem? hi)

end Workspace

/-! ## The numbers of a model -/

/-- All numbers of a model are finite, no merged coefficient is lost for being
small, and constraints with one identity are copies of each other. -/
structure Model.Lossless (m : Model Exact) : Prop where
  costs : m.objective.expression.HasFiniteTerms
  noSmallCost : m.objective.expression.NoSmallCoefficient
  terms : ∀ k ∈ m.constraints, k.lhs.HasFiniteTerms ∧ k.rhs.HasFiniteTerms
  constants : ∀ k ∈ m.constraints,
    Scalar.isFinite k.lhs.constant = true ∧ Scalar.isFinite k.rhs.constant = true
  noSmallTerm : ∀ k ∈ m.constraints, (k.lhs.minus k.rhs).NoSmallCoefficient
  copies : ∀ k ∈ m.constraints, ∀ k' ∈ m.constraints, k.id = k'.id →
    k.lhs = k'.lhs ∧ k.rhs = k'.rhs

instance (m : Model Exact) : Decidable m.Lossless :=
  decidable_of_iff (m.objective.expression.HasFiniteTerms
      ∧ m.objective.expression.NoSmallCoefficient
      ∧ (∀ k ∈ m.constraints, k.lhs.HasFiniteTerms ∧ k.rhs.HasFiniteTerms)
      ∧ (∀ k ∈ m.constraints,
        Scalar.isFinite k.lhs.constant = true ∧ Scalar.isFinite k.rhs.constant = true)
      ∧ (∀ k ∈ m.constraints, (k.lhs.minus k.rhs).NoSmallCoefficient)
      ∧ ∀ k ∈ m.constraints, ∀ k' ∈ m.constraints, k.id = k'.id →
        k.lhs = k'.lhs ∧ k.rhs = k'.rhs)
    ⟨fun ⟨hcosts, hsmall, hterms, hconstants, hsmallTerms, hcopies⟩ =>
        ⟨hcosts, hsmall, hterms, hconstants, hsmallTerms, hcopies⟩,
      fun h => ⟨h.costs, h.noSmallCost, h.terms, h.constants, h.noSmallTerm, h.copies⟩⟩

namespace AssignedByOffset

variable {variableAt : VariableRef → Variable Exact} {m : Model Exact} {values : List Exact}

/-- The objective is worth at the values what it is worth at the levels. -/
theorem objective_value (h : AssignedByOffset variableAt m.vars values) (hm : m.Lossless)
    {g : Generated Exact} (hg : g.BuiltFrom m) :
    m.objective.expression.value (fun v => (variableAt v).value)
      = .ok (g.problem.objective.evaluate values) := by
  have hread : ∀ v ∈ m.objective.expression.vars,
      (variableAt v).value = .ok (finite (assignedRat variableAt v)) :=
    fun v hv => h.value_eq_ok (Model.mem_vars_iff.mpr (Or.inl hv))
  rw [Expression.value_eq_ok hm.costs hread, h.values_eq_map m.nodup_vars,
    evaluate_costs (congrArg CostVector.coefficients hg.objective)
      (congrArg CostVector.constant hg.objective) hm.costs hm.noSmallCost]

/-- Both sides of a constraint have a value. -/
theorem sides_value (h : AssignedByOffset variableAt m.vars values) (hm : m.Lossless)
    {k : Constraint Exact} (hk : k ∈ m.constraints) :
    k.lhs.value (fun v => (variableAt v).value)
        = .ok (k.lhs.constant + finite (Expression.dot (assignedRat variableAt) k.lhs.terms))
      ∧ k.rhs.value (fun v => (variableAt v).value)
        = .ok (k.rhs.constant + finite (Expression.dot (assignedRat variableAt) k.rhs.terms)) := by
  have hread : ∀ v ∈ k.vars, (variableAt v).value = .ok (finite (assignedRat variableAt v)) :=
    fun v hv => h.value_eq_ok (Model.mem_vars_iff.mpr (Or.inr ⟨k, hk, hv⟩))
  constructor
  · exact Expression.value_eq_ok (hm.terms k hk).1 fun v hv =>
      hread v (Constraint.mem_vars_iff.mpr (Or.inl hv))
  · exact Expression.value_eq_ok (hm.terms k hk).2 fun v hv =>
      hread v (Constraint.mem_vars_iff.mpr (Or.inr hv))

end AssignedByOffset

/-- The activity of a constraint is what the terms of its sides differ by. The
row that is read is that of the last copy of the constraint. -/
theorem Solver.Sound.activity_eq {s : Solver Exact} (h : s.Sound) (hm : s.model.Lossless)
    {solution : Solution Exact} (hsolution : s.solution = some solution)
    (hfeasible : solution.isFeasible = true) {variableAt : VariableRef → Variable Exact}
    (hplaced : AssignedByOffset variableAt s.model.vars solution.values) {k : Constraint Exact}
    (hk : k ∈ s.model.constraints) : s.activity k = .ok (finite
      (Expression.dot (assignedRat variableAt) k.lhs.terms
        - Expression.dot (assignedRat variableAt) k.rhs.terms)) := by
  obtain ⟨n, k', row, hreads⟩ := h.reads hsolution hfeasible hk
  have hk' : k' ∈ s.model.constraints := List.mem_of_getElem? hreads.last.place
  obtain ⟨hlhs, hrhs⟩ := hm.copies k' hk' k hk hreads.last.identity
  have hrow : row = Generated.compiledRow s.model.vars k' := by
    obtain ⟨g, hg, hstands, -⟩ := hreads.stands
    rw [(h.builtFrom hg).rows, List.getElem?_map, hreads.last.place] at hstands
    exact (Option.some.inj hstands).symm
  have hvalues : ∀ v ∈ k'.vars, solution.values.getD (s.model.vars.idxOf v) 0
      = finite (assignedRat variableAt v) :=
    fun v hv => hplaced.getD_idxOf (Model.mem_vars_iff.mpr (Or.inr ⟨k', hk', hv⟩))
  rw [hreads.activity, hrow, activity_eq_sub (hm.terms k' hk').1 (hm.terms k' hk').2
    (hm.noSmallTerm k' hk') hvalues, hlhs, hrhs]

/-- The terms of two sides differ by what the sides do, with the constants taken
back. -/
theorem sub_add_bound {left right : Exact} (hleft : Scalar.isFinite left = true)
    (hright : Scalar.isFinite right = true) (p q : ℚ) :
    left + finite p - (right + finite q) + -(left - right) = finite (p - q) := by
  rw [eq_finite_of_isFinite hleft, eq_finite_of_isFinite hright]
  simp only [finite_add, finite_sub, finite_neg]
  congr 1
  ring

namespace Workspace

variable {μ : Type} {ws : Workspace Exact μ} {c : Conduct Exact μ} {l : ListenerRef}
  {s : Solver Exact} {solution : Solution Exact}

/-- **Reported numbers agree with the model.** In every state that is reached,
let a solve leave a solution with finite values, whatever its backend does
before it answers and whatever is done after it, but for calls on the solver
and new levels of its variables. Then the generated objective is worth at the
solution what the objective of the model is worth, and the activity of each
constraint is what its two sides differ by, with its normalized bound added. -/
theorem numbers_agree (hreached : ws.Reached)
    (hfollows : c.Follows (Rule.calls (· ≠ l)) fun _ => True) {after : List (Turn Exact μ)}
    (hafter : ∀ t ∈ after, t.call? ≠ some l)
    (hs : (ws.course c (.operate (.solve l) :: after)).solver? l = some s)
    (hsolution : s.solution = some solution) (hfeasible : solution.isFeasible = true)
    (hvalues : ∀ y ∈ solution.values, Scalar.isFinite y = true)
    (hlevels : ∀ v ∈ s.model.vars,
      ((ws.course c (.operate (.solve l) :: after)).variableAt v).assigned
        = ((ws.solve c l).1.variableAt v).assigned)
    (hmodel : s.model.Lossless) : ∃ g, s.generated = some g
      ∧ s.model.objective.expression.value
          (fun v => ((ws.course c (.operate (.solve l) :: after)).variableAt v).value)
        = .ok (g.problem.objective.evaluate solution.values)
      ∧ ∀ k ∈ s.model.constraints, ∃ lhs rhs,
        k.lhs.value (fun v => ((ws.course c (.operate (.solve l) :: after)).variableAt v).value)
            = .ok lhs
          ∧ k.rhs.value (fun v => ((ws.course c (.operate (.solve l) :: after)).variableAt v).value)
            = .ok rhs
          ∧ s.activity k = .ok (lhs - rhs + k.normalized.2) := by
  obtain ⟨hsound, hgiven⟩ := solved_of_reached hreached hfollows hafter hs hsolution hfeasible
  have hplaced : AssignedByOffset (ws.course c (.operate (.solve l) :: after)).variableAt
      s.model.vars solution.values := {
    isFinite := hvalues
    length := hsound.values hsolution hfeasible
    assigned := by
      intro v i hi
      have hplace := (idxOf?_eq_some_iff_getElem? s.model.nodup_vars).mp hi
      rw [hlevels v (List.mem_of_getElem? hplace)]
      exact hgiven v i hplace }
  obtain ⟨g, hg⟩ := Option.isSome_iff_exists.mp (hsound.generated (by rw [hsolution]; rfl))
  refine ⟨g, hg, hplaced.objective_value hmodel (hsound.builtFrom hg), fun k hk => ?_⟩
  obtain ⟨hlhs, hrhs⟩ := hplaced.sides_value hmodel hk
  obtain ⟨hleft, hright⟩ := hmodel.constants k hk
  refine ⟨_, _, hlhs, hrhs, ?_⟩
  rw [hsound.activity_eq hmodel hsolution hfeasible hplaced hk, bound_normalized,
    sub_add_bound hleft hright]

end Workspace

/-! ## A model whose terms cancel -/

/-- The backend gives `x` the value `1` and `y` the value `1 / 2`. -/
def halfConduct : Conduct Exact Unit := .answering (.found .optimal 1 [1, .finite (1 / 2)])

/-- The model is solved, and then `y` gets another bound. -/
def solvedWorkspace : Workspace Exact Unit := mergingWorkspace.course halfConduct
  [.operate (.solve ⟨0⟩), .operate (.setBound .upper ⟨1⟩ (.finite 3))]

namespace Workspace

theorem reached_mergingWorkspace : mergingWorkspace.Reached :=
  ⟨halfConduct, [.move (.newVariable (.nonnegative "x" .integer)),
      .move (.newVariable ⟨"y", .infinite true, 1, .continuous⟩),
      .move (.newSolver mergingModel ⟨"exact", true⟩ {})], (),
    .quiet (fun _ _ _ ws => .refl ws) (fun _ _ ws => .refl ws),
    ⟨trivial, trivial, show ∀ v ∈ mergingModel.vars, v.index < 2 by decide +kernel, trivial⟩, rfl⟩

/-- The merged row is at `3`, since the sides are worth `9 / 2` and `11 / 2` and
the bound is `4`. -/
theorem activity_solvedWorkspace : ∃ s, solvedWorkspace.solver? ⟨0⟩ = some s
    ∧ ∀ k ∈ s.model.constraints, s.activity k = .ok (.finite 3) := by
  have hchecked : (solvedWorkspace.solver? ⟨0⟩).any (fun s =>
      s.solution.any (fun solution => solution.isFeasible && solution.values.all Scalar.isFinite)
      && decide (s.model.Lossless
        ∧ (∀ v ∈ s.model.vars, (solvedWorkspace.variableAt v).assigned
          = ((mergingWorkspace.solve halfConduct ⟨0⟩).1.variableAt v).assigned)
        ∧ ∀ k ∈ s.model.constraints, k.normalized.2 = .finite 4
          ∧ (k.lhs.value fun v => (solvedWorkspace.variableAt v).value).toOption
            = some (.finite (9 / 2))
          ∧ (k.rhs.value fun v => (solvedWorkspace.variableAt v).value).toOption
            = some (.finite (11 / 2)))) = true := by decide +kernel
  obtain ⟨s, hs, hholds⟩ := (Option.any_eq_true _ _).mp hchecked
  rw [Bool.and_eq_true, decide_eq_true_eq] at hholds
  obtain ⟨hsolved, hmodel, hlevels, hsides⟩ := hholds
  obtain ⟨solution, hsolution, hvalues⟩ := (Option.any_eq_true _ _).mp hsolved
  rw [Bool.and_eq_true, List.all_eq_true] at hvalues
  refine ⟨s, hs, fun k hk => ?_⟩
  obtain ⟨hbound, hleft, hright⟩ := hsides k hk
  unfold solvedWorkspace at hs hlevels hleft hright
  obtain ⟨g, -, -, hactivity⟩ := numbers_agree reached_mergingWorkspace
    (.quiet (fun _ _ _ ws => .refl ws) (fun _ _ ws => .refl ws))
    (fun t ht hcall => by
      rw [List.mem_singleton.mp ht] at hcall
      cases hcall) hs hsolution hvalues.1 hvalues.2 hlevels hmodel
  obtain ⟨lhs, rhs, hlhs, hrhs, hreported⟩ := hactivity k hk
  rw [hlhs] at hleft
  rw [hrhs] at hright
  rw [hreported, Option.some.inj hleft, Option.some.inj hright, hbound]
  decide +kernel

end Workspace

end Milp
