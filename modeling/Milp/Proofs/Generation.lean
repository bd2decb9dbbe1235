/-
Milp.Proofs.Generation — what generating leaves behind.

Generating detaches a solver from its old variables, builds the problem of
its model and attaches the solver to the new ones. Apart from the handles
no variable changes, so the problem is the one of the state before as well
as of the state after (`compiled_congr_bare`). It is never refused, and
what it stores is faithful to the model (`generate_faithful`).

The three readings `listener?_generate`, `variableAt_generate` and
`size_generate` say everything else there is to say about it.
-/
import Milp.Number.Exact
import Milp.Proofs.Compilation
import Milp.Workspace.Lemmas

namespace Milp

variable {α μ : Type}

/-! ## Where the problem looks at the variables -/

theorem Generated.columnOf_bare (x : Variable α) : columnOf x.bare = columnOf x := rfl

variable [Scalar α]

/-- The problem depends on the variables through the columns alone. -/
theorem Generated.compiled_congr {f g : VariableRef → Variable α} {config : Config α}
    {m : Model α} (h : ∀ v ∈ m.vars, columnOf (f v) = columnOf (g v)) :
    compiled f config m = compiled g config m := by
  have hcolumns : (m.vars.map fun v => columnOf (f v)) = m.vars.map fun v => columnOf (g v) :=
    List.map_congr_left h
  simp only [compiled, hcolumns]

/-- Handles do not matter for the problem. -/
theorem Generated.compiled_congr_bare {f g : VariableRef → Variable α} {config : Config α}
    {m : Model α} (h : ∀ v, (f v).bare = (g v).bare) :
    compiled f config m = compiled g config m :=
  compiled_congr fun v _ => by rw [← columnOf_bare, h, columnOf_bare]

namespace Workspace

variable {ws : Workspace α μ} {l : ListenerRef} {s : Solver α}

/-! ## Generating -/

/-- Generating always installs the compiled problem. -/
theorem generate_eq_install (hs : ws.solver? l = some s) :
    ws.generate l = (((ws.detachAll s.vars s.id).updateSolver l
      ({ · with generated := none })).install l s.id
        (Generated.compiled ws.variableAt s.config s.model), .ok ()) := by
  have hbuilt : Generated.ofModel ((ws.detachAll s.vars s.id).updateSolver l
      ({ · with generated := none })).variableAt s.config s.model
        = .ok (Generated.compiled ws.variableAt s.config s.model) := by
    rw [Generated.ofModel_eq_compiled]
    exact congrArg Except.ok
      (Generated.compiled_congr_bare fun v => bare_variableAt_detachAll ws s.vars s.id v)
  rw [generate, hs]
  simp only [hbuilt]

theorem generate_eq_ok (hs : ws.solver? l = some s) : (ws.generate l).2 = .ok () := by
  rw [generate_eq_install hs]

theorem size_generate (hs : ws.solver? l = some s) :
    (ws.generate l).1.vars.length = ws.vars.length := by
  rw [generate_eq_install hs]
  exact (sameListeners_attachAll _ _ _).size.trans (sameListeners_detachAll ws _ _).size

theorem nextSolver_generate (hs : ws.solver? l = some s) :
    (ws.generate l).1.nextSolver = ws.nextSolver := by
  rw [generate_eq_install hs]
  exact (sameListeners_attachAll _ _ _).nextSolver.trans
    (sameListeners_detachAll ws _ _).nextSolver

theorem listener?_generate (hs : ws.solver? l = some s) (k : ListenerRef) :
    (ws.generate l).1.listener? k =
      if k = l then (ws.listener? k).map (Listener.mapSolver fun s' => { s' with
        generated := some (Generated.compiled ws.variableAt s.config s.model), solution := none })
      else ws.listener? k := by
  rw [generate_eq_install hs, install]
  simp only
  rw [listener?_updateSolver, listener?_emit, (sameListeners_attachAll _ _ _).listener?,
    listener?_updateSolver, (sameListeners_detachAll _ _ _).listener?]
  by_cases hk : k = l
  · simp [hk, Function.comp_def]
  · simp [hk]

theorem solver?_generate (hs : ws.solver? l = some s) :
    (ws.generate l).1.solver? l = some { s with
      generated := some (Generated.compiled ws.variableAt s.config s.model), solution := none } := by
  obtain ⟨a, ha, hrole⟩ := Option.bind_eq_some_iff.mp hs
  rw [solver?, listener?_generate hs, if_pos rfl, ha, Option.map_some, Option.bind_some,
    Listener.solver?_mapSolver, hrole, Option.map_some]

/-- Generating brings no listener to life, and ends none. -/
theorem isAlive_generate (ws : Workspace α μ) (l k : ListenerRef) :
    ((ws.generate l).1.listener? k).any Listener.isAlive
      = (ws.listener? k).any Listener.isAlive := by
  cases hs : ws.solver? l with
  | none => rw [Workspace.generate, hs]
  | some s =>
    rw [listener?_generate hs]
    split
    · cases ws.listener? k with
      | none => rfl
      | some a => exact Listener.isAlive_mapSolver _ a
    · rfl

/-- The variables of the old problem lose the solver's handle, and those of
the model get it. -/
theorem variableAt_generate (hs : ws.solver? l = some s) (v : VariableRef) :
    (ws.generate l).1.variableAt v =
      if v ∈ s.model.vars ∧ v.index < ws.vars.length
      then ((ws.detachAll s.vars s.id).variableAt v).attach ⟨s.id, l⟩
      else (ws.detachAll s.vars s.id).variableAt v := by
  rw [generate_eq_install hs, install]
  simp only [variableAt_updateSolver, variableAt_emit, variableAt_attachAll]
  have hsize : ((ws.detachAll s.vars s.id).updateSolver l
      ({ · with generated := none })).vars.length = ws.vars.length :=
    (sameListeners_detachAll ws s.vars s.id).size
  rw [hsize]
  rfl

theorem bare_variableAt_generate (hs : ws.solver? l = some s) (v : VariableRef) :
    ((ws.generate l).1.variableAt v).bare = (ws.variableAt v).bare := by
  rw [variableAt_generate hs]
  split
  · rw [Variable.bare_attach, bare_variableAt_detachAll]
  · rw [bare_variableAt_detachAll]

/-- Generating succeeds for every model and every state of the variables,
and changes no variable but for the handles. It stores the model's problem
over the variables as they are, without a solution, and attaches the solver
to each of them; the variables are numbered by their columns and back. -/
theorem generate_faithful (hs : ws.solver? l = some s) :
    (ws.generate l).2 = .ok ()
      ∧ (∀ v, ((ws.generate l).1.variableAt v).bare = (ws.variableAt v).bare)
      ∧ (∀ v ∈ s.model.vars, v.index < ws.vars.length →
          ((ws.generate l).1.variableAt v).isAttached s.id = true)
      ∧ ∃ g s', (ws.generate l).1.solver? l = some s'
        ∧ s' = { s with generated := some g, solution := none }
        ∧ g.Faithful (ws.generate l).1.variableAt s.config s.model
        ∧ s'.vars = s.model.vars
        ∧ ∀ v (i : Nat), s'.offset? v = some i ↔ s'.vars[i]? = some v := by
  have hcompiled : Generated.compiled ws.variableAt s.config s.model
      = Generated.compiled (ws.generate l).1.variableAt s.config s.model :=
    Generated.compiled_congr_bare fun v => (bare_variableAt_generate hs v).symm
  have hfaithful := Generated.faithful_compiled (ws.generate l).1.variableAt s.config s.model
  refine ⟨generate_eq_ok hs, bare_variableAt_generate hs, ?_,
    Generated.compiled ws.variableAt s.config s.model, _, solver?_generate hs, rfl, ?_, rfl,
    hfaithful.offset⟩
  · intro v hv hlt
    rw [variableAt_generate hs, if_pos ⟨hv, hlt⟩, Variable.isAttached_attach]
    simp
  · rw [hcompiled]
    exact hfaithful

end Workspace

/-! ## A model with terms to merge -/

/-- Maximize `x + 2 y - 2 y` subject to `1 + 2 x + y + x ≤ 5 + y`: in the
constraint `x` has two terms, and `y` cancels everywhere. -/
def mergingModel : Model Exact where
  name := "merging"
  objective := ⟨.maximize, ⟨0, [(⟨0⟩, 1), (⟨1⟩, .finite 2), (⟨1⟩, .finite (-2))]⟩⟩
  constraints := [{
    id := 0
    name := "limit"
    lhs := ⟨1, [(⟨0⟩, .finite 2), (⟨1⟩, 1), (⟨0⟩, 1)]⟩
    sense := .atMost
    rhs := ⟨.finite 5, [(⟨1⟩, 1)]⟩ }]

theorem vars_mergingModel : mergingModel.vars = [⟨0⟩, ⟨1⟩] := by decide +kernel

/-- A solver for the model that has not generated yet. -/
def mergingSolver : Solver Exact := ⟨0, mergingModel, ⟨"exact", true⟩, {}, none, none⟩

/-- The whole number `x`, the number `y`, and the solver. -/
def mergingWorkspace : Workspace Exact Unit where
  vars := [.ofSpec 0 (.nonnegative "x" .integer), .ofSpec 1 ⟨"y", .infinite true, 1, .continuous⟩]
  listeners := [{ role := .solver mergingSolver }]
  nextVariable := 2
  nextSolver := 1
  memory := ()

/-- The variable that cancels keeps its column, at no cost. -/
theorem Workspace.generate_mergingWorkspace : ∃ s g,
    (mergingWorkspace.generate ⟨0⟩).1.solver? ⟨0⟩ = some s ∧ s.generated = some g
      ∧ s.offset? ⟨1⟩ = some 1 ∧ g.problem.objective.coefficients[1]? = some 0 := by
  obtain ⟨-, -, -, g, s, hs, hshape, hg, hvars, hoffset⟩ :=
    generate_faithful (show mergingWorkspace.solver? ⟨0⟩ = some mergingSolver from rfl)
  have hplace : mergingSolver.model.vars[1]? = some ⟨1⟩ := by
    rw [mergingSolver, vars_mergingModel]
    rfl
  refine ⟨s, g, hs, by rw [hshape], ?_, ?_⟩
  · rw [hoffset, hvars]
    exact hplace
  · refine hg.no_cost ⟨1⟩ 1 ?_ (by decide +kernel)
    rw [hg.vars]
    exact hplace

end Milp
