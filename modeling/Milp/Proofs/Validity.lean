/-
Milp.Proofs.Validity — what can be wrong with a generated problem.

A problem is well-shaped if its objective has one coefficient for each column
and its rows name columns that exist. Of such a problem only undefined bounds
of rows and crossed bounds of columns are reported
(`Problem.violations_of_wellShaped`).

The problem of a model is well-shaped as it is generated, and stays so whatever
its solver is told, since that changes columns and neither adds nor removes any
(`Generated.wellShaped_hear`).
-/
import Milp.Proofs.Reached

namespace Milp

variable {α μ : Type} [Scalar α]

/-! ## Checking a problem -/

/-- Nothing is found in a numbered list where nothing is found in the list. -/
theorem filterMap_zipIdx_eq_nil_iff {β γ : Type} {f : β × Nat → Option γ} {q : β → Prop}
    (hf : ∀ b n, f (b, n) = none ↔ q b) {xs : List β} :
    xs.zipIdx.filterMap f = [] ↔ ∀ b ∈ xs, q b := by
  rw [List.filterMap_eq_nil_iff]
  constructor
  · intro h b hb
    obtain ⟨n, hn⟩ := List.mem_iff_getElem?.mp hb
    exact (hf b n).mp (h (b, n) (List.mk_mem_zipIdx_iff_getElem?.mpr hn))
  · rintro h ⟨b, n⟩ hmem
    exact (hf b n).mpr (h b (List.fst_mem_of_mem_zipIdx hmem))

/-- A row that names columns that exist can only have its bound undefined. -/
theorem Row.violations_of_offsets {row : Row α} {columns : Nat}
    (h : ∀ t ∈ row.terms, t.1 < columns) (number : Nat) : row.violations columns number
      = if Scalar.isNaN row.bound then [.undefinedBound number row.name] else [] := by
  have hnone : row.terms.find? (fun term => decide (columns ≤ term.1)) = none :=
    List.find?_eq_none.mpr fun t ht => by simpa using h t ht
  rw [violations, hnone, List.nil_append]

namespace Problem

/-- The objective has one coefficient for each column, and the rows name columns
that exist. -/
structure WellShaped (p : Problem α) : Prop where
  costs : p.objective.coefficients.length = p.columns.length
  offsets : ∀ row ∈ p.rows, ∀ t ∈ row.terms, t.1 < p.columns.length

/-- The rows with an undefined bound, in order. -/
def undefinedBounds (p : Problem α) : List (Violation α) :=
  p.rows.zipIdx.filterMap fun (row, number) =>
    if Scalar.isNaN row.bound then some (.undefinedBound number row.name) else none

/-- The columns whose lower bound is above the upper one, in order. -/
def crossedBounds (p : Problem α) : List (Violation α) :=
  p.columns.zipIdx.filterMap fun (column, number) =>
    if Scalar.lt column.upper column.lower then
      some (.crossedBounds number column.name.text column.lower column.upper)
    else none

variable {p : Problem α}

/-- Of a well-shaped problem, undefined bounds of rows and crossed bounds of
columns are reported, once each and in order, and nothing else. -/
theorem violations_of_wellShaped (h : p.WellShaped) :
    p.violations = p.undefinedBounds ++ p.crossedBounds := by
  have hrows : p.rows.zipIdx.flatMap (fun (row, number) => row.violations p.columns.length number)
      = p.undefinedBounds := by
    rw [undefinedBounds, List.filterMap_eq_flatMap_toList]
    refine List.flatMap_congr fun entry hentry => ?_
    have hrow : entry.1 ∈ p.rows := List.fst_mem_of_mem_zipIdx hentry
    simp only [Row.violations_of_offsets (h.offsets entry.1 hrow)]
    split <;> rfl
  have hcolumns : p.columns.zipIdx.flatMap (fun (column, number) => column.violations number)
      = p.crossedBounds := by
    rw [crossedBounds, List.filterMap_eq_flatMap_toList]
    refine List.flatMap_congr fun entry _ => ?_
    simp only [Column.violations]
    split <;> rfl
  rw [violations, if_pos h.costs, hrows, hcolumns, List.nil_append]

theorem undefinedBounds_eq_nil_iff :
    p.undefinedBounds = [] ↔ ∀ row ∈ p.rows, Scalar.isNaN row.bound = false :=
  filterMap_zipIdx_eq_nil_iff fun row number => by
    cases hbound : Scalar.isNaN row.bound <;> simp [hbound]

theorem crossedBounds_eq_nil_iff :
    p.crossedBounds = [] ↔ ∀ column ∈ p.columns, Scalar.lt column.upper column.lower = false :=
  filterMap_zipIdx_eq_nil_iff fun column number => by
    cases hcrossed : Scalar.lt column.upper column.lower <;> simp [hcrossed]

/-- A well-shaped problem passes where no row has an undefined bound and no
column crossed bounds; otherwise these are the errors. -/
theorem validate_of_wellShaped (h : p.WellShaped) :
    (p.validate = .ok () ↔ (∀ row ∈ p.rows, Scalar.isNaN row.bound = false)
      ∧ ∀ column ∈ p.columns, Scalar.lt column.upper column.lower = false)
    ∧ (p.validate ≠ .ok () →
      p.validate = .error (.violations (p.undefinedBounds ++ p.crossedBounds))) := by
  rw [validate, violations_of_wellShaped h, ← undefinedBounds_eq_nil_iff,
    ← crossedBounds_eq_nil_iff, ← List.append_eq_nil_iff]
  by_cases hnil : p.undefinedBounds ++ p.crossedBounds = []
  · rw [if_pos (List.isEmpty_iff.mpr hnil)]
    exact ⟨iff_of_true rfl hnil, fun h => absurd rfl h⟩
  · rw [if_neg fun hempty => hnil (List.isEmpty_iff.mp hempty)]
    exact ⟨iff_of_false (fun h => by cases h) hnil, fun _ => rfl⟩

end Problem

/-! ## Generated problems -/

namespace Generated

theorem wellShaped_compiled (variableAt : VariableRef → Variable α) (config : Config α)
    (m : Model α) : (compiled variableAt config m).problem.WellShaped := by
  have hfaithful := faithful_compiled variableAt config m
  refine ⟨hfaithful.costs_length, fun row hrow => ?_⟩
  obtain ⟨c, hc, rfl⟩ := List.mem_map.mp hrow
  exact (isRowOf_compiledRow hc).offset_lt

omit [Scalar α] in
/-- Being told of a change neither adds nor removes columns. -/
theorem wellShaped_hear {g : Generated α} (h : g.problem.WellShaped) (v : VariableRef)
    (change : Change α) : (g.hear v change).problem.WellShaped := by
  cases hv : g.offset? v with
  | none =>
    rw [hear_of_offset?_eq_none hv]
    exact h
  | some i =>
    have hlength : (g.problem.columns.modify i (·.apply change)).length
        = g.problem.columns.length := List.length_modify ..
    rw [hear_of_offset? hv]
    exact ⟨h.costs.trans hlength.symm, fun row hrow t ht =>
      Nat.lt_of_lt_of_eq (h.offsets row hrow t ht) hlength.symm⟩

end Generated

namespace Workspace

variable {ws ws' : Workspace α μ} {l : ListenerRef} {s : Solver α}

/-- Once a solver has generated, let it be told of any changes of any variables,
in any order. Its problem passes the check exactly if no row has an undefined
bound and no column crossed bounds; otherwise the errors are one for each such
row and then one for each such column, in their order. No error is about the
length of the objective or a column that does not exist. -/
theorem validate_of_told (c : Conduct α μ) (hs : ws.solver? l = some s)
    (tells : List (VariableRef × Change α)) : ∃ s' g,
      ((ws.generate l).1.run c (tells.map fun t => .operate (.tell l t.1 t.2))).solver? l = some s'
      ∧ s'.generated = some g
      ∧ (g.problem.validate = .ok ()
        ↔ (∀ row ∈ g.problem.rows, Scalar.isNaN row.bound = false)
          ∧ ∀ column ∈ g.problem.columns, Scalar.lt column.upper column.lower = false)
      ∧ (g.problem.validate ≠ .ok () → g.problem.validate
        = .error (.violations (g.problem.undefinedBounds ++ g.problem.crossedBounds))) := by
  have hstart : ∃ s' g, (ws.generate l).1.solver? l = some s' ∧ s'.generated = some g
      ∧ g.problem.WellShaped :=
    ⟨_, _, solver?_generate hs, rfl, Generated.wellShaped_compiled ws.variableAt s.config s.model⟩
  suffices hrun : ∀ ws₀ : Workspace α μ, (∃ s' g, ws₀.solver? l = some s' ∧ s'.generated = some g
      ∧ g.problem.WellShaped) → ∃ s' g,
      (ws₀.run c (tells.map fun t => .operate (.tell l t.1 t.2))).solver? l = some s'
      ∧ s'.generated = some g ∧ g.problem.WellShaped by
    obtain ⟨s', g, hs', hg, hshaped⟩ := hrun _ hstart
    exact ⟨s', g, hs', hg, Problem.validate_of_wellShaped hshaped⟩
  induction tells with
  | nil => exact fun _ h => h
  | cons t rest ih =>
    rintro ws₀ ⟨s', g, hs', hg, hshaped⟩
    refine ih _ ⟨s'.hear t.1 t.2, g.hear t.1 t.2, ?_, ?_, Generated.wellShaped_hear hshaped t.1 t.2⟩
    · have htold := solver?_tellSolver ws₀ l t.1 t.2 l
      rw [if_pos rfl, hs'] at htold
      exact htold
    · rw [Solver.hear, hg]
      rfl

/-! ## Reached states -/

/-- Every problem that a solver has generated is well-shaped. -/
def AllShaped (ws : Workspace α μ) : Prop :=
  ∀ l s, ws.solver? l = some s → ∀ g, s.generated = some g → g.problem.WellShaped

omit [Scalar α] in
theorem AllShaped.of_map {f : Solver α → Solver α} (h : ws.AllShaped)
    (hsolver : ∀ k, ws'.solver? k = if k = l then (ws.solver? k).map f else ws.solver? k)
    (hf : ∀ s, (∀ g, s.generated = some g → g.problem.WellShaped) →
      ∀ g, (f s).generated = some g → g.problem.WellShaped) : ws'.AllShaped := by
  intro k s hs
  rw [hsolver] at hs
  split at hs
  · obtain ⟨s₀, hs₀, rfl⟩ := Option.map_eq_some_iff.mp hs
    exact hf s₀ (h k s₀ hs₀)
  · exact h k s hs

omit [Scalar α] in
theorem AllShaped.of_solver? (h : ws.AllShaped) (hsolver : ∀ k, ws'.solver? k = ws.solver? k) :
    ws'.AllShaped :=
  fun k s hs => h k s ((hsolver k).symm.trans hs)

omit [Scalar α] in
theorem AllShaped.newListener (h : ws.AllShaped) {role : SolverId → Role α}
    (hrole : ∀ id s, role id = .solver s → s.generated = none) :
    (ws.newListener role).1.AllShaped := by
  intro k s hs
  rcases solver?_newListener_cases hs with hnew | hs
  · rw [hrole _ s hnew]
    exact fun g hg => by cases hg
  · exact h k s hs

/-- Whatever is done, generated problems are and stay well-shaped. -/
theorem preserves_allShaped {rule : Rule α μ} (htell : ∀ v change, rule.tell v change) :
    rule.Preserves AllShaped where
  apart := fun hsame _ _ h => h.of_solver? hsame.solver?
  standing := fun hf _ h => h.of_solver? (solver?_updateStanding hf _ _)
  hold := fun _ h => h.of_solver? (solver?_hold _ _)
  write := fun _ _ _ h => ⟨h.of_solver? (sameListeners_updateVariable ..).solver?,
    fun _ change _ => htell _ change⟩
  tell := fun {ws l v change} _ h => h.of_map (solver?_tellSolver ws l v change) fun s hs g hg => by
    obtain ⟨g₀, hg₀, rfl⟩ := Option.map_eq_some_iff.mp hg
    exact Generated.wellShaped_hear (hs g₀ hg₀) v change
  assign := fun _ h => h.of_solver? (sameListeners_assign ..).solver?
  generate := fun {ws l} _ h => h.of_map (solver?_generate_map ws l) fun s _ g hg => by
    obtain rfl := Option.some.inj hg
    exact Generated.wellShaped_compiled ws.variableAt s.config s.model
  forget := fun _ h => h.of_map (solver?_updateSolver _ _ · _) fun _ hs => hs
  settle := fun {_ ws l s g solution} _ _ _ _ _ h _ _ =>
    h.of_map (solver?_settle_map ws l s g solution) fun _ hs => hs
  newVariable := fun _ h => h
  newSolver := fun _ h => h.newListener fun id s hs => by
    cases hs
    rfl
  newObserver := fun h => h.newListener fun id s hs => by cases hs

/-- In every state that is reached, checking the problem of a solver finds
undefined bounds of rows and crossed bounds of columns, and nothing else. -/
theorem Reached.violations (hreached : ws.Reached) (hs : ws.solver? l = some s) {g : Generated α}
    (hg : s.generated = some g) :
    g.problem.violations = g.problem.undefinedBounds ++ g.problem.crossedBounds :=
  Problem.violations_of_wellShaped
    (hreached.induction (preserves_allShaped fun _ _ => trivial) (fun _ l s hs => by cases hs)
      l s hs g hg)

end Workspace

/-! ## A column with crossed bounds -/

/-- The first variable's bounds are crossed, and another model's variable is named. -/
def crossingTells : List (VariableRef × Change Exact) :=
  [(⟨0⟩, .bounds (.finite 5) (.finite 3)), (⟨7⟩, .name "w"), (⟨1⟩, .kind .integer)]

theorem Workspace.validate_crossingTells : ∃ s g,
    ((mergingWorkspace.generate ⟨0⟩).1.run idleConduct
      (crossingTells.map fun t => .operate (.tell ⟨0⟩ t.1 t.2))).solver? ⟨0⟩ = some s
    ∧ s.generated = some g
    ∧ g.problem.validate
      = .error (.violations [.crossedBounds 0 "x" (.finite 5) (.finite 3)]) := by
  obtain ⟨s, g, hs, hg, -, herror⟩ := validate_of_told idleConduct
    (show mergingWorkspace.solver? ⟨0⟩ = some mergingSolver from rfl) crossingTells
  have hfound : (((mergingWorkspace.generate ⟨0⟩).1.run idleConduct
      (crossingTells.map fun t => .operate (.tell ⟨0⟩ t.1 t.2))).solver? ⟨0⟩).all
      (fun s => s.generated.all fun g => !g.problem.validate.isOk
        && g.problem.undefinedBounds ++ g.problem.crossedBounds
          = [.crossedBounds 0 "x" (.finite 5) (.finite 3)]) = true := by decide +kernel
  rw [hs, Option.all_some, hg, Option.all_some, Bool.and_eq_true, decide_eq_true_eq] at hfound
  obtain ⟨hfails, hcrossed⟩ := hfound
  rw [← hcrossed]
  refine ⟨s, g, hs, hg, herror fun hok => ?_⟩
  rw [hok] at hfails
  exact absurd hfails (by decide)

end Milp
