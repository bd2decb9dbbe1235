/-
Milp.Proofs.SolutionCycle — the life of a solution.

A solver keeps the solution of its latest solve. Generating takes it away,
and so does a solve as it begins, whether or not it succeeds; one that
succeeds leaves its own (`Workspace.verdict`). Nothing else touches it, be it
done to variables or to other solvers (`preserves_solution`).

Whatever is done, a solver is sound (`Solver.Sound`): what it generated is
built from its model, a solution is one of a problem that is there, and one
with values has a value for every column. So the questions about a row find
the row and the values they need (`Solver.Sound.reads`).
`solution_cycle` puts the two together over a whole course.
-/
import Milp.Proofs.Clients

namespace Milp

variable {α μ : Type} [Scalar α]

/-! ## Sound solvers -/

/-- A problem has the objective of a model, the columns of its variables and
the rows of its constraints, in order. -/
structure Generated.BuiltFrom (g : Generated α) (m : Model α) : Prop where
  vars : g.vars = m.vars
  objective : g.problem.objective = {
    direction := m.objective.direction
    coefficients := m.vars.map (costFrom 0 m.objective.expression.assemble.terms)
    constant := m.objective.expression.assemble.constant }
  constraints : g.constraints = m.constraints.map Constraint.id
  columns : g.problem.columns.length = m.vars.length
  rows : g.problem.rows = m.constraints.map (compiledRow m.vars)

/-- A row is told by the columns' variables and by how many there are. -/
theorem Generated.IsRowOf.congr {g g' : Generated α} {k : Constraint α} {row : Row α}
    (h : g.IsRowOf k row) (hvars : g'.vars = g.vars)
    (hcolumns : g'.problem.columns.length = g.problem.columns.length) : g'.IsRowOf k row where
  sense := h.sense
  name := h.name
  bound := h.bound
  terms := by
    unfold offset?
    rw [hvars]
    exact h.terms
  distinct := h.distinct
  offset_lt := by
    rw [hcolumns]
    exact h.offset_lt

theorem Generated.builtFrom_compiled (f : VariableRef → Variable α) (config : Config α)
    (m : Model α) : (compiled f config m).BuiltFrom m where
  vars := rfl
  objective := rfl
  constraints := rfl
  columns := (faithful_compiled f config m).columns_length
  rows := rfl

/-- Hearing of a change keeps everything but one column. -/
theorem Generated.BuiltFrom.hear {g : Generated α} {m : Model α} (h : g.BuiltFrom m)
    (v : VariableRef) (change : Change α) : (g.hear v change).BuiltFrom m := by
  unfold Generated.hear
  split
  · refine ⟨h.vars, h.objective, h.constraints, ?_, h.rows⟩
    rw [updateColumn, List.length_modify]
    exact h.columns
  · exact h

theorem Generated.BuiltFrom.isRowOf {g : Generated α} {m : Model α} (h : g.BuiltFrom m)
    {k : Constraint α} (hk : k ∈ m.constraints) : g.IsRowOf k (compiledRow m.vars k) := by
  have hcompiled : (compiled (fun _ => .blank) {} m).IsRowOf k (compiledRow m.vars k) :=
    isRowOf_compiledRow hk
  refine hcompiled.congr h.vars (h.columns.trans ?_)
  exact (builtFrom_compiled (fun _ => .blank) {} m).columns.symm

/-- The constraint `k` stands at the place `n` of a model, and no later one
has its identity. -/
structure Model.LastWith (m : Model α) (id : ConstraintId) (n : Nat) (k : Constraint α) : Prop where
  place : m.constraints[n]? = some k
  identity : k.id = id
  last : ∀ (j : Nat) k', n < j → m.constraints[j]? = some k' → k'.id ≠ id

omit [Scalar α] in
/-- With distinct identities it is the one that is meant. -/
theorem Model.LastWith.eq_of_nodup {m : Model α} {n : Nat} {k k' : Constraint α}
    (h : m.LastWith k.id n k') (hk : k ∈ m.constraints)
    (hids : (m.constraints.map Constraint.id).Nodup) : k' = k :=
  List.inj_on_of_nodup_map hids (List.mem_of_getElem? h.place) hk h.identity

/-- The row that is found for a constraint stands where the last constraint
with its identity does. -/
theorem Generated.BuiltFrom.lastWith {g : Generated α} {m : Model α} (h : g.BuiltFrom m)
    {id : ConstraintId} {n : Nat} (hn : g.row? id = some n) : ∃ k, m.LastWith id n k := by
  rw [row?, h.constraints] at hn
  have hplace := getElem?_of_lastIndexOf?_eq_some hn
  rw [List.getElem?_map] at hplace
  obtain ⟨k, hk, hid⟩ := Option.map_eq_some_iff.mp hplace
  refine ⟨k, hk, hid, fun j k' hj hk' hid' => ?_⟩
  refine getElem?_ne_of_lastIndexOf?_lt hn hj ?_
  rw [List.getElem?_map, hk', Option.map_some, hid']

theorem Generated.BuiltFrom.exists_row {g : Generated α} {m : Model α} (h : g.BuiltFrom m)
    {n : Nat} {k : Constraint α} (hk : m.constraints[n]? = some k) :
    ∃ row, g.problem.rows[n]? = some row ∧ g.IsRowOf k row := by
  refine ⟨compiledRow m.vars k, ?_, h.isRowOf (List.mem_of_getElem? hk)⟩
  rw [h.rows, List.getElem?_map, hk, Option.map_some]

theorem Generated.BuiltFrom.exists_row? {g : Generated α} {m : Model α} (h : g.BuiltFrom m)
    {k : Constraint α} (hk : k ∈ m.constraints) : ∃ n, g.row? k.id = some n := by
  rw [row?, h.constraints]
  cases hn : lastIndexOf? k.id (m.constraints.map Constraint.id) with
  | some n => exact ⟨n, rfl⟩
  | none => exact absurd (List.mem_map_of_mem hk) (lastIndexOf?_eq_none_iff.mp hn)

/-- What a solver keeps fits together. -/
structure Solver.Sound (s : Solver α) : Prop where
  builtFrom : ∀ {g}, s.generated = some g → g.BuiltFrom s.model
  generated : s.solution.isSome = true → s.generated.isSome = true
  /-- One value for every column. -/
  values : ∀ {solution}, s.solution = some solution → solution.isFeasible = true →
    solution.values.length = s.model.vars.length

theorem Solver.Sound.hear {s : Solver α} (h : s.Sound) (v : VariableRef) (change : Change α) :
    (s.hear v change).Sound where
  builtFrom := by
    intro g hg
    obtain ⟨g₀, hg₀, rfl⟩ := Option.map_eq_some_iff.mp hg
    exact (h.builtFrom hg₀).hear v change
  generated := by
    intro hsolution
    rw [Solver.hear, Option.isSome_map]
    exact h.generated hsolution
  values := h.values

/-- Without a solution there is only the problem to look at. -/
theorem Solver.Sound.of_no_solution {s : Solver α} (hnone : s.solution = none)
    (hbuilt : ∀ {g}, s.generated = some g → g.BuiltFrom s.model) : s.Sound where
  builtFrom := hbuilt
  generated := by
    rw [hnone]
    exact fun h => by cases h
  values := by
    rw [hnone]
    exact fun h => by cases h

/-! ## Questions about the solution -/

namespace Solver

variable {s : Solver α} {solution : Solution α} {g : Generated α} {k : Constraint α}

omit [Scalar α] in
theorem solved_of_feasible (hs : s.solution = some solution)
    (hfeasible : solution.isFeasible = true) : s.solved = .ok solution := by
  rw [solved, hs, Option.filter_some, if_pos hfeasible]

omit [Scalar α] in
theorem isOk_solved : s.solved.isOk = s.solution.any Solution.isFeasible := by
  rw [solved]
  cases s.solution with
  | none => rfl
  | some solution =>
    rw [Option.filter_some, Option.any_some]
    cases solution.isFeasible with
    | true => rfl
    | false => rfl

/-- The questions about `k` are answered from the row `n`, that of `k'`. -/
structure ReadsRow (s : Solver α) (solution : Solution α) (k : Constraint α) (n : Nat)
    (k' : Constraint α) (row : Row α) : Prop where
  last : s.model.LastWith k.id n k'
  /-- With distinct identities it is the row of `k`. -/
  own : (s.model.constraints.map Constraint.id).Nodup → k' = k
  stands : ∃ g, s.generated = some g ∧ g.problem.rows[n]? = some row ∧ g.IsRowOf k' row
  dual : s.dual k = .ok (solution.dual n)
  activity : s.activity k = .ok (row.activity solution.values)

/-- What a solver answers from its problem and its solution. -/
structure Readable (s : Solver α) : Prop where
  /-- A solution is one of a problem. -/
  generated : s.solution.isSome = true → s.generated.isSome = true
  /-- A solution with values has one for every column. -/
  values : ∀ solution g, s.solution = some solution → solution.isFeasible = true →
    s.generated = some g → solution.values.length = g.problem.columns.length
  /-- The row that is found for a constraint is there, and so are the values
  that it asks for. -/
  inRange : ∀ solution g k (n : Nat), s.solution = some solution → solution.isFeasible = true →
    s.generated = some g → s.rowOf k = .ok n →
    ∃ row, g.problem.rows[n]? = some row ∧ ∀ t ∈ row.terms, t.1 < solution.values.length
  /-- Questions about constraints of the model are answered exactly as long
  as there is a solution with values. -/
  answered : ∀ k ∈ s.model.constraints,
    (s.dual k).isOk = s.solution.any Solution.isFeasible
      ∧ (s.activity k).isOk = s.solution.any Solution.isFeasible
  /-- They are answered from the last row of a constraint with the identity. -/
  reads : ∀ solution, s.solution = some solution → solution.isFeasible = true →
    ∀ k ∈ s.model.constraints, ∃ n k' row, s.ReadsRow solution k n k' row

/-- Without values there is no answer. -/
theorem isOk_of_not_solved (h : s.solved.isOk = false) (k : Constraint α) :
    (s.dual k).isOk = false ∧ (s.activity k).isOk = false := by
  rw [dual, activity]
  cases hsolved : s.solved with
  | ok solution =>
    rw [hsolved] at h
    cases h
  | error e =>
    cases s.rowOf k with
    | ok n => exact ⟨rfl, rfl⟩
    | error e' => exact ⟨rfl, rfl⟩

omit [Scalar α] in
theorem rowOf_eq_ok_iff (hg : s.generated = some g) {n : Nat} :
    s.rowOf k = .ok n ↔ g.row? k.id = some n := by
  have hrequired : s.requireGenerated = .ok g := by rw [requireGenerated, hg]
  rw [rowOf, hrequired]
  simp only [Except.bind]
  split
  · next row hrow => rw [hrow, Except.ok.injEq, Option.some.injEq]
  · next hnone => rw [hnone]; simp

theorem Sound.length_values (h : s.Sound) (hs : s.solution = some solution)
    (hfeasible : solution.isFeasible = true) (hg : s.generated = some g) :
    solution.values.length = g.problem.columns.length :=
  (h.values hs hfeasible).trans (h.builtFrom hg).columns.symm

/-- The row is found, and the constraint that it is of. -/
theorem Sound.exists_row (h : s.Sound) (hg : s.generated = some g) {n : Nat}
    (hn : s.rowOf k = .ok n) : ∃ k' row, s.model.LastWith k.id n k'
      ∧ g.problem.rows[n]? = some row ∧ g.IsRowOf k' row := by
  obtain ⟨k', hlast⟩ := (h.builtFrom hg).lastWith ((rowOf_eq_ok_iff hg).mp hn)
  obtain ⟨row, hrow⟩ := (h.builtFrom hg).exists_row hlast.place
  exact ⟨k', row, hlast, hrow⟩

theorem Sound.reads (h : s.Sound) (hs : s.solution = some solution)
    (hfeasible : solution.isFeasible = true) (hk : k ∈ s.model.constraints) :
    ∃ n k' row, s.ReadsRow solution k n k' row := by
  obtain ⟨g, hg⟩ := Option.isSome_iff_exists.mp (h.generated (by rw [hs]; rfl))
  obtain ⟨n, hn⟩ := (h.builtFrom hg).exists_row? hk
  have hnumber := (rowOf_eq_ok_iff hg).mpr hn
  have hsolved := solved_of_feasible hs hfeasible
  obtain ⟨k', row, hlast, hrow, hof⟩ := h.exists_row hg hnumber
  exact ⟨n, k', row, {
    last := hlast
    own := hlast.eq_of_nodup hk
    stands := ⟨g, hg, hrow, hof⟩
    dual := by
      rw [dual, hnumber, hsolved]
      rfl
    activity := by
      rw [activity, hnumber, hsolved, requireGenerated, hg]
      simp only [Except.bind, hrow] }⟩

theorem Sound.readable (h : s.Sound) : s.Readable where
  generated := h.generated
  values := fun _ _ => h.length_values
  inRange := by
    intro solution g k n hs hfeasible hg hn
    obtain ⟨k', row, -, hrow, hof⟩ := h.exists_row hg hn
    refine ⟨row, hrow, ?_⟩
    rw [h.length_values hs hfeasible hg]
    exact hof.offset_lt
  answered := by
    intro k hk
    rw [← isOk_solved]
    cases hsolved : s.solved.isOk with
    | false => exact isOk_of_not_solved hsolved k
    | true =>
      rw [isOk_solved] at hsolved
      obtain ⟨solution, hs, hfeasible⟩ := (Option.any_eq_true _ _).mp hsolved
      obtain ⟨n, k', row, hreads⟩ := h.reads hs hfeasible hk
      rw [hreads.dual, hreads.activity]
      exact ⟨rfl, rfl⟩
  reads := fun _ hs hfeasible _ => h.reads hs hfeasible

end Solver

namespace Workspace

variable {ws ws' : Workspace α μ} {c : Conduct α μ} {l k : ListenerRef}

/-- Every solver is sound. -/
def AllSound (ws : Workspace α μ) : Prop := ∀ l s, ws.solver? l = some s → s.Sound

theorem AllSound.of_solver? (h : ws.AllSound) (hsame : ∀ l, ws'.solver? l = ws.solver? l) :
    ws'.AllSound :=
  fun l s hs => h l s ((hsame l).symm.trans hs)

/-- One solver changes into a sound one. -/
theorem AllSound.of_map (h : ws.AllSound) {f : Solver α → Solver α}
    (hsolver : ∀ k, ws'.solver? k = if k = l then (ws.solver? k).map f else ws.solver? k)
    (hf : ∀ s, ws.solver? l = some s → s.Sound → (f s).Sound) : ws'.AllSound := by
  intro k s hs
  rw [hsolver] at hs
  split at hs
  · next hk =>
    subst hk
    obtain ⟨s₀, hs₀, rfl⟩ := Option.map_eq_some_iff.mp hs
    exact hf s₀ hs₀ (h k s₀ hs₀)
  · exact h k s hs

theorem AllSound.newListener (h : ws.AllSound) {role : SolverId → Role α}
    (hrole : ∀ id s, role id = .solver s → s.Sound) : (ws.newListener role).1.AllSound := by
  intro k s hs
  rcases solver?_newListener_cases hs with hnew | hs
  · exact hrole _ s hnew
  · exact h k s hs

/-- Whatever is done, solvers stay sound. -/
theorem preserves_allSound {rule : Rule α μ} (htell : ∀ v change, rule.tell v change) :
    rule.Preserves AllSound where
  apart := fun hsame _ _ h => h.of_solver? hsame.solver?
  standing := fun hf _ h => h.of_solver? (solver?_updateStanding hf _ _)
  hold := fun _ h => h.of_solver? (solver?_hold _ _)
  write := fun _ _ _ h => ⟨h.of_solver? (sameListeners_updateVariable ..).solver?,
    fun _ change _ => htell _ change⟩
  tell := fun _ h => h.of_map (solver?_tellSolver _ _ _ _) fun s _ hs => hs.hear _ _
  assign := fun _ h => h.of_solver? (sameListeners_assign ..).solver?
  generate := fun _ h => h.of_map (solver?_generate_map _ _) fun s _ _ =>
    .of_no_solution rfl fun hg => by
      cases hg
      exact Generated.builtFrom_compiled ..
  forget := fun _ h => h.of_map (solver?_updateSolver _ _ · _) fun s _ hs =>
    .of_no_solution rfl hs.builtFrom
  settle := fun {asked ws l s g solution} _ hasked hs hg hlength h hgone _ => by
    refine h.of_map (solver?_settle_map _ _ _ _ _) fun s' hs' hsound => ?_
    obtain ⟨s₁, hs₁, -, hmodel, hproblem⟩ := hgone.solver hs
    obtain rfl := Option.some.inj (hs₁.symm.trans hs')
    refine ⟨hsound.builtFrom, fun _ => hproblem (by rw [hg]; rfl), fun hsolution hfeasible => ?_⟩
    obtain rfl := Option.some.inj hsolution
    rw [hlength hfeasible, ((hasked l s hs).builtFrom hg).vars, hmodel]
  newVariable := fun _ h => h
  newSolver := fun _ h => h.newListener fun id s hs => by
    cases hs
    exact .of_no_solution rfl fun hg => by cases hg
  newObserver := fun h => h.newListener fun id s hs => by cases hs

end Workspace

/-! ## Verdicts as answers -/

theorem isSome_toOption {ε β : Type} (x : Except ε β) : x.toOption.isSome = x.isOk := by
  cases x <;> rfl

omit [Scalar α] in
theorem Solution.any_isOptimal_toOption {ε : Type} (x : Except ε (Solution α)) :
    x.toOption.any isOptimal = true ↔ x.map status = .ok .optimal := by
  cases x with
  | ok solution =>
    constructor
    · exact fun h => congrArg Except.ok (eq_of_beq h)
    · exact fun h => beq_of_eq (Except.ok.inj h)
  | error e =>
    constructor
    · intro h
      cases h
    · intro h
      cases h

/-! ## Calls -/

/-- The solver that a turn generates or solves. -/
def Turn.call? : Turn α μ → Option ListenerRef
  | .move (.operate (.generate l)) => some l
  | .move (.operate (.solve l)) => some l
  | _ => none

omit [Scalar α] in
theorem Turn.eq_of_call? {t : Turn α μ} {l : ListenerRef} (h : t.call? = some l) :
    t = .operate (.generate l) ∨ t = .operate (.solve l) := by
  unfold call? at h
  split at h
  · exact Or.inl (by rw [Option.some.inj h])
  · exact Or.inr (by rw [Option.some.inj h])
  · cases h

/-- Only these solvers generate and solve. -/
def Rule.calls (p : ListenerRef → Prop) : Rule α μ where
  call := p

theorem Rule.allowsAll_calls {p : ListenerRef → Prop} {c : Conduct α μ} {turns : List (Turn α μ)}
    (h : ∀ t ∈ turns, ∀ l, t.call? = some l → p l) (ws : Workspace α μ) :
    (Rule.calls p).AllowsAll c turns ws := by
  induction turns generalizing ws with
  | nil => trivial
  | cons t rest ih =>
    refine ⟨?_, ih (fun u hu => h u (List.mem_cons_of_mem _ hu)) _⟩
    have ht := h t List.mem_cons_self
    -- of the nine kinds of turns only generating and solving ask for anything
    unfold Rule.Allows
    split
    · trivial
    · trivial
    · exact ht _ rfl
    · exact ⟨ht _ rfl, trivial, trivial⟩
    · exact fun _ => trivial
    · trivial
    · trivial
    · trivial
    · trivial

omit [Scalar α] in
/-- A course has no call on a solver, or a latest one. -/
theorem exists_latest_call (l : ListenerRef) (turns : List (Turn α μ)) :
    (∀ t ∈ turns, t.call? ≠ some l) ∨ ∃ before t after, turns = before ++ t :: after
      ∧ t.call? = some l ∧ ∀ u ∈ after, u.call? ≠ some l := by
  induction turns with
  | nil => exact Or.inl fun _ ht => absurd ht List.not_mem_nil
  | cons t rest ih =>
    rcases ih with hnone | ⟨before, u, after, hrest, hu, hafter⟩
    · by_cases ht : t.call? = some l
      · exact Or.inr ⟨[], t, rest, rfl, ht, hnone⟩
      · exact Or.inl (List.forall_mem_cons.mpr ⟨ht, hnone⟩)
    · exact Or.inr ⟨t :: before, u, after, by rw [hrest, List.cons_append], hu, hafter⟩

namespace Workspace

variable {ws ws' start : Workspace α μ} {c : Conduct α μ} {l : ListenerRef}
  {turns : List (Turn α μ)}

/-- The solution that a solver keeps. -/
def solution? (ws : Workspace α μ) (l : ListenerRef) : Option (Solution α) :=
  (ws.solver? l).bind Solver.solution

omit [Scalar α] in
theorem solution?_congr (h : ws'.solver? l = ws.solver? l) :
    ws'.solution? l = ws.solution? l := by
  rw [solution?, h, solution?]

omit [Scalar α] in
theorem solution?_of_map {k : ListenerRef} {f : Solver α → Solver α}
    (hsolver : ∀ l, ws'.solver? l = if l = k then (ws.solver? l).map f else ws.solver? l)
    (hf : l = k → ∀ s, (f s).solution = s.solution) : ws'.solution? l = ws.solution? l := by
  rw [solution?, hsolver, solution?]
  split
  · next hk =>
    cases ws.solver? l with
    | none => rfl
    | some s => exact hf hk s
  · rfl

omit [Scalar α] in
/-- A new solver has no solution. -/
theorem solution?_newListener {role : SolverId → Role α}
    (hrole : ∀ id s, role id = .solver s → s.solution = none) (l : ListenerRef) :
    (ws.newListener role).1.solution? l = ws.solution? l := by
  rw [solution?, solver?_newListener]
  split
  · next hfresh =>
    rw [solution?, solver?_eq_none_of_length_le (Nat.le_of_eq hfresh.symm), Listener.solver?]
    split
    · next s hs => exact hrole _ s hs
    · rfl
  · rfl

/-- A solution is kept by whatever is no call on its solver. -/
theorem preserves_solution (l : ListenerRef) (o : Option (Solution α)) :
    (Rule.calls (· ≠ l) : Rule α μ).Preserves fun ws => ws.solution? l = o where
  apart := fun hsame _ _ h => (solution?_congr (hsame.solver? l)).trans h
  standing := fun hf _ h => (solution?_congr (solver?_updateStanding hf _ _ l)).trans h
  hold := fun _ h => (solution?_congr (solver?_hold _ _ l)).trans h
  write := fun _ _ _ h => ⟨(solution?_congr ((sameListeners_updateVariable ..).solver? l)).trans h,
    fun _ _ _ => trivial⟩
  tell := fun _ h => (solution?_of_map (solver?_tellSolver _ _ _ _) fun _ _ => rfl).trans h
  assign := fun _ h => (solution?_congr ((sameListeners_assign ..).solver? l)).trans h
  generate := fun hcall h =>
    (solution?_of_map (solver?_generate_map _ _) fun hl => absurd hl.symm hcall).trans h
  forget := fun hcall h =>
    (solution?_of_map (solver?_updateSolver _ _ · _) fun hl => absurd hl.symm hcall).trans h
  settle := fun hcall _ _ _ _ h _ _ =>
    (solution?_of_map (solver?_settle_map _ _ _ _ _) fun hl => absurd hl.symm hcall).trans h
  newVariable := fun _ h => h
  newSolver := fun _ h => (solution?_newListener (fun _ s hs => by cases hs; rfl) l).trans h
  newObserver := fun h => (solution?_newListener (fun _ s hs => by cases hs) l).trans h

/-- Without a call on the solver its solution stays. -/
theorem solution?_course (hkeeps : ∀ o, c.Keeps fun ws => ws.solution? l = o)
    (hturns : ∀ t ∈ turns, t.call? ≠ some l) (ws : Workspace α μ) :
    (ws.course c turns).solution? l = ws.solution? l :=
  (preserves_solution l _).course_of_keeps (hkeeps _)
    (Rule.allowsAll_calls (fun t ht _ hk hkl => hturns t ht (hk.trans (congrArg some hkl))) ws) rfl

/-! ## The verdict of a solve -/

/-- What a solve of a solver comes to: the verdict on what the backend answers
to the problem that is there when it is asked. -/
def verdict (c : Conduct α μ) (l : ListenerRef) (ws : Workspace α μ) :
    Except (ModelError α) (Solution α) :=
  match (prepare l ws).solver? l with
  | none => .error .noSolver
  | some s => s.requireGenerated.bind fun g =>
    s.judge g (c.answer l g.problem ((prepare l ws).asked s g)).2

theorem solution?_generate (ws : Workspace α μ) (l : ListenerRef) :
    (ws.generate l).1.solution? l = none := by
  rw [solution?, solver?_generate_map, if_pos rfl]
  cases ws.solver? l with
  | none => rfl
  | some s => rfl

/-- The verdict on a solver that is prepared is on what its backend answers to
the problem `g`. -/
theorem Prepared.verdict_eq {s : Solver α} {g : Generated α}
    (hp : Prepared ws l s g (prepare l ws)) (c : Conduct α μ) : ws.verdict c l
      = Solver.judge { s with generated := some g, solution := none } g (c.answer l g.problem
        ((prepare l ws).asked { s with generated := some g, solution := none } g)).2 := by
  rw [verdict, hp.solver]
  rfl

theorem verdict_of_no_solver (hs : ws.solver? l = none) (c : Conduct α μ) :
    ws.verdict c l = .error .noSolver := by
  obtain ⟨hnone, hready⟩ := ensureGenerated_of_no_solver hs
  rw [verdict, prepare, hready, hnone]

/-- A solve answers its verdict, and the solution is the one it took over, if
any: the clients leave the solver without one while they are asked. -/
theorem solve_verdict (hkeeps : c.Keeps fun ws => ws.solution? l = none) (ws : Workspace α μ) :
    (ws.solve c l).2 = (ws.verdict c l).map Solution.status
      ∧ (ws.solve c l).1.solution? l = (ws.verdict c l).toOption := by
  cases hs : ws.solver? l with
  | none =>
    obtain ⟨hnone, -⟩ := ensureGenerated_of_no_solver hs
    rw [solve_eq_of_no_solver hs, verdict_of_no_solver hs, solution?, solver?_release, hnone]
    exact ⟨rfl, rfl⟩
  | some s =>
    obtain ⟨g, hp, hready⟩ := exists_prepared hs
    have hcleared : (prepare l ws).solution? l = none := by
      rw [solution?, hp.solver]
      rfl
    obtain ⟨hleft, hgone⟩ := hkeeps.answer l g.problem ((prepare l ws).asked
      { s with generated := some g, solution := none } g) hcleared
    rw [hp.verdict_eq c, solve_eq_ask c hready hp.solver rfl]
    rcases ask_verdict c (prepare l ws) l { s with generated := some g, solution := none } g with
      ⟨e, hjudge, hask | hask⟩ | ⟨solution, hjudge, hask⟩
    · rw [hask, hjudge, solution?_congr (solver?_release _ _ l)]
      exact ⟨rfl, hcleared⟩
    · rw [hask, hjudge, solution?_congr (solver?_release _ _ l)]
      exact ⟨rfl, hleft⟩
    · obtain ⟨s', hs', -⟩ := hgone.solver hp.solver
      rw [hask, hjudge, solution?_congr (solver?_release _ _ l), solution?, solver?_settle_map,
        if_pos rfl, hs']
      exact ⟨rfl, rfl⟩

/-! ## The life of a solution -/

/-- The latest call on a solver is a solve, made in the state `ws`. -/
def LatestSolve (c : Conduct α μ) (l : ListenerRef) (turns : List (Turn α μ))
    (start ws : Workspace α μ) : Prop :=
  ∃ before after, turns = before ++ .operate (.solve l) :: after
    ∧ (∀ t ∈ after, t.call? ≠ some l) ∧ start.course c before = ws

theorem LatestSolve.solution? (hkeeps : ∀ o, c.Keeps fun ws => ws.solution? l = o)
    (h : LatestSolve c l turns start ws) :
    (ws.solve c l).2 = (ws.verdict c l).map Solution.status
      ∧ (start.course c turns).solution? l = (ws.verdict c l).toOption := by
  obtain ⟨before, after, rfl, hafter, rfl⟩ := h
  obtain ⟨houtcome, hsolution⟩ := solve_verdict (hkeeps none) (start.course c before)
  rw [course_append, course, solution?_course hkeeps hafter]
  exact ⟨houtcome, hsolution⟩

/-- The solution that a solver has is the one that the verdict on the latest
solve was. -/
theorem LatestSolve.verdict_eq_ok (hkeeps : ∀ o, c.Keeps fun ws => ws.solution? l = o)
    (h : LatestSolve c l turns start ws) {s : Solver α} {solution : Solution α}
    (hs : (start.course c turns).solver? l = some s) (hsolution : s.solution = some solution) :
    ws.verdict c l = .ok solution := by
  have hkept := (h.solution? hkeeps).2
  rw [Workspace.solution?, hs, Option.bind_some, hsolution] at hkept
  cases hverdict : ws.verdict c l with
  | error e =>
    rw [hverdict] at hkept
    cases hkept
  | ok taken =>
    rw [hverdict] at hkept
    rw [Option.some.inj hkept]

/-- A solver that starts without a solution has one only if the latest call on
it was a solve. -/
theorem exists_latestSolve (hkeeps : ∀ o, c.Keeps fun ws => ws.solution? l = o)
    (hstart : start.solution? l = none)
    (h : ((start.course c turns).solution? l).isSome = true) :
    ∃ ws, LatestSolve c l turns start ws := by
  rcases exists_latest_call l turns with hnone | ⟨before, t, after, rfl, ht, hafter⟩
  · rw [solution?_course hkeeps hnone, hstart] at h
    cases h
  · rcases Turn.eq_of_call? ht with rfl | rfl
    · have hgenerated : (start.course c (before ++ .operate (.generate l) :: after)).solution? l
          = none := by
        rw [course_append, course, solution?_course hkeeps hafter]
        exact solution?_generate _ _
      rw [hgenerated] at h
      cases h
    · exact ⟨_, before, after, rfl, hafter, rfl⟩

/-- A solver has the solution of the latest call on it, if this was a solve
that succeeded, and none otherwise. -/
structure KeepsLatest (c : Conduct α μ) (l : ListenerRef) (turns : List (Turn α μ))
    (start : Workspace α μ) (s : Solver α) : Prop where
  stored : s.solution.isSome = true ↔
    ∃ ws, LatestSolve c l turns start ws ∧ (ws.solve c l).2.isOk = true
  taken : ∀ ws, LatestSolve c l turns start ws →
    (ws.solve c l).2 = (ws.verdict c l).map Solution.status
      ∧ s.solution = (ws.verdict c l).toOption
  optimal : s.isProvenOptimal = true ↔
    ∃ ws, LatestSolve c l turns start ws ∧ (ws.solve c l).2 = .ok .optimal

theorem keepsLatest_course (hkeeps : ∀ o, c.Keeps fun ws => ws.solution? l = o)
    (hstart : start.solution? l = none) {s : Solver α}
    (hs : (start.course c turns).solver? l = some s) : KeepsLatest c l turns start s := by
  have hsolution : (start.course c turns).solution? l = s.solution := by
    rw [solution?, hs]
    rfl
  have htaken : ∀ ws, LatestSolve c l turns start ws →
      (ws.solve c l).2 = (ws.verdict c l).map Solution.status
        ∧ s.solution = (ws.verdict c l).toOption := by
    intro ws hlatest
    rw [← hsolution]
    exact hlatest.solution? hkeeps
  have hexists : s.solution.isSome = true → ∃ ws, LatestSolve c l turns start ws := by
    rw [← hsolution]
    exact exists_latestSolve hkeeps hstart
  -- what the solver keeps and what the solve answered are told by one verdict
  have hstored : ∀ ws, LatestSolve c l turns start ws →
      s.solution.isSome = (ws.solve c l).2.isOk := by
    intro ws hlatest
    obtain ⟨hanswer, hkept⟩ := htaken ws hlatest
    rw [hkept, hanswer, isOk_map, isSome_toOption]
  have hoptimal : ∀ ws, LatestSolve c l turns start ws →
      (s.isProvenOptimal = true ↔ (ws.solve c l).2 = .ok .optimal) := by
    intro ws hlatest
    obtain ⟨hanswer, hkept⟩ := htaken ws hlatest
    rw [Solver.isProvenOptimal, hkept, hanswer, Solution.any_isOptimal_toOption]
  exact {
    stored := by
      constructor
      · intro hkept
        obtain ⟨ws, hlatest⟩ := hexists hkept
        exact ⟨ws, hlatest, (hstored ws hlatest).symm.trans hkept⟩
      · rintro ⟨ws, hlatest, hok⟩
        exact (hstored ws hlatest).trans hok
    taken := htaken
    optimal := by
      constructor
      · intro hproven
        obtain ⟨solution, hkept, -⟩ := (Option.any_eq_true _ _).mp hproven
        obtain ⟨ws, hlatest⟩ := hexists (by rw [hkept]; rfl)
        exact ⟨ws, hlatest, (hoptimal ws hlatest).mp hproven⟩
      · rintro ⟨ws, hlatest, houtcome⟩
        exact (hoptimal ws hlatest).mpr houtcome }

theorem allSound_empty (memory : μ) : AllSound ({ memory } : Workspace α μ) := by
  intro l s hs
  cases hs

/-- **The life of a solution.** After any course, with any answers of the
backends and clients that do anything but generate or solve this solver, it has
the solution of the latest call on it, if this was a solve that succeeded. The
solution goes with the problem, and the questions about constraints are answered
from it exactly as long as it has values. -/
theorem solution_cycle (hfollows : c.Follows (Rule.calls (· ≠ l)) fun _ => True) (memory : μ)
    (turns : List (Turn α μ)) {s : Solver α}
    (hs : (course c turns { memory }).solver? l = some s) :
    KeepsLatest c l turns { memory } s ∧ s.Readable := by
  have hkeeps : ∀ o, c.Keeps fun ws => ws.solution? l = o :=
    fun o => (preserves_solution l o).keeps (fun _ => trivial) hfollows
  have hsound : c.Keeps AllSound := by
    have hpreserves : (Rule.calls (· ≠ l) : Rule α μ).Preserves AllSound :=
      preserves_allSound fun _ _ => trivial
    exact hpreserves.keeps (fun _ => trivial) hfollows
  have hreached : AllSound (course c turns { memory }) := by
    have hpreserves : (Rule.calls (fun _ => True) : Rule α μ).Preserves AllSound :=
      preserves_allSound fun _ _ => trivial
    exact hpreserves.course_of_keeps hsound
      (Rule.allowsAll_calls (fun _ _ _ _ => trivial) _) (allSound_empty memory)
  exact ⟨keepsLatest_course hkeeps rfl hs, (hreached l s hs).readable⟩

end Workspace

/-! ## A repeated identity -/

/-- Maximize `x` subject to `x ≤ 1` and `2 x ≤ 5`, which have one identity. -/
def repeatedModel : Model Exact where
  name := "repeated"
  objective := ⟨.maximize, ⟨0, [(⟨0⟩, 1)]⟩⟩
  constraints := [
    { id := 0, name := "once", lhs := ⟨0, [(⟨0⟩, 1)]⟩, sense := .atMost, rhs := ⟨1, []⟩ },
    { id := 0, name := "twice", lhs := ⟨0, [(⟨0⟩, .finite 2)]⟩, sense := .atMost,
      rhs := ⟨.finite 5, []⟩ }]

/-- The model is generated and solved, and then its variable gets another
bound. -/
def repeatedTurns : List (Turn Exact Unit) :=
  [.move (.newVariable ⟨"x", 0, .finite 10, .continuous⟩),
    .move (.newSolver repeatedModel ⟨"exact", true⟩ {}), .operate (.generate ⟨0⟩),
    .operate (.solve ⟨0⟩), .operate (.setBound .upper ⟨0⟩ (.finite 5))]

namespace Workspace

/-- The optimum is there, and both constraints are read from the last row. -/
theorem solved_repeatedTurns : ∃ s,
    (course (.answering (.found .optimal 1 [1])) repeatedTurns { memory := () }).solver? ⟨0⟩
        = some s
      ∧ s.isProvenOptimal = true
      ∧ ∀ k ∈ s.model.constraints, ∃ solution k' row, s.ReadsRow solution k 1 k' row := by
  obtain ⟨s, hs⟩ := Option.isSome_iff_exists.mp (show ((course
    (.answering (.found .optimal 1 [1])) repeatedTurns { memory := () }).solver? ⟨0⟩).isSome = true
      by decide +kernel)
  have hids : s.model.constraints.map Constraint.id = [0, 0] := by
    have hmodel : ((course (.answering (.found .optimal 1 [1])) repeatedTurns
        { memory := () }).solver? ⟨0⟩).map (fun s => s.model.constraints.map Constraint.id)
          = some [0, 0] := by decide +kernel
    rw [hs] at hmodel
    exact Option.some.inj hmodel
  have hfeasible : s.solution.any Solution.isFeasible = true := by
    have hsolution : ((course (.answering (.found .optimal 1 [1])) repeatedTurns
        { memory := () }).solver? ⟨0⟩).all (fun s => s.solution.any Solution.isFeasible) = true := by
      decide +kernel
    rw [hs] at hsolution
    exact hsolution
  obtain ⟨solution, hsolution, hvalues⟩ := (Option.any_eq_true _ _).mp hfeasible
  obtain ⟨hlatest, hreadable⟩ := solution_cycle
    (.quiet (fun _ _ _ ws => .refl ws) (fun _ _ ws => .refl ws)) () repeatedTurns hs
  refine ⟨s, hs, hlatest.optimal.mpr ⟨_, ⟨repeatedTurns.take 3, [_], rfl, ?_, rfl⟩, ?_⟩, ?_⟩
  · intro t ht
    rw [List.mem_singleton.mp ht]
    exact fun h => by cases h
  · decide +kernel
  · intro k hk
    obtain ⟨n, k', row, hreads⟩ := hreadable.reads solution hsolution hvalues k hk
    have hid : k.id = 0 := by
      have hmem := List.mem_map_of_mem (f := Constraint.id) hk
      rw [hids] at hmem
      simpa using hmem
    have hplaces : ∀ j : Nat, (s.model.constraints[j]?).map Constraint.id
        = ([0, 0] : List Nat)[j]? := by
      intro j
      rw [← List.getElem?_map, hids]
    match n with
    | 0 =>
      obtain ⟨k'', hk'', hid''⟩ := Option.map_eq_some_iff.mp (hplaces 1)
      exact absurd (hid''.trans hid.symm) (hreads.last.last 1 k'' Nat.zero_lt_one hk'')
    | 1 => exact ⟨solution, k', row, hreads⟩
    | n + 2 =>
      have hnone := hplaces (n + 2)
      rw [hreads.last.place] at hnone
      cases hnone

end Workspace

end Milp
