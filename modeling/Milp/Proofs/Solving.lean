/-
Milp.Proofs.Solving — a solve is all or nothing.

Between the moment a solve clears the old solution and the moment it gives
levels to the variables it may end in four ways: the backend does not take
whole values, it fails, it answers with the wrong number of values, or its
answer has no values to give. `Solver.judge` is the verdict on what a
backend answered, and `ask_cases` says that the verdict alone decides what
is left: an error leaves the variables as they are, an answer is taken over
as a whole.

`solve_all_or_nothing` puts this together with generating before the
backend is asked and with the end of the solver's use after it. The backend
is arbitrary, but it does not act on the workspace (`QuietBackends`).
-/
import Milp.Proofs.Generation

namespace Milp

variable {α μ : Type}

/-- Backends answer without acting on variables or listeners. -/
def Conduct.QuietBackends (c : Conduct α μ) : Prop :=
  ∀ l p (ws : Workspace α μ), ws.SameState (c.answer l p ws).1

/-- What holds of every solver from the moment it is made among `size`
variables: its model is over these variables, and a generated problem is
over the variables of the model. -/
structure Solver.WellFormed (s : Solver α) (size : Nat) : Prop where
  inRange : ∀ v ∈ s.model.vars, v.index < size
  vars : ∀ g, s.generated = some g → g.vars = s.model.vars

/-- The verdict on a backend's answer: the solution that is taken over, or
why there is none. -/
def Solver.judge (s : Solver α) (g : Generated α)
    (answer : Except (SolverError α) (Solution α)) : Except (ModelError α) (Solution α) :=
  if g.problem.isMixedInteger && !s.backend.takesIntegers then
    .error (.solver (.integerColumns s.backend.name))
  else
    match answer with
    | .error e => .error (.solver e)
    | .ok solution =>
      if solution.isFeasible && solution.values.length != g.vars.length then
        .error (.solver (.valueCount s.backend.name solution.values.length g.vars.length))
      else .ok solution

theorem Solver.length_values_of_judge {s : Solver α} {g : Generated α}
    {answer : Except (SolverError α) (Solution α)} {solution : Solution α}
    (h : s.judge g answer = .ok solution) (hfeasible : solution.isFeasible = true) :
    solution.values.length = g.vars.length := by
  unfold judge at h
  split at h
  · cases h
  · split at h
    · cases h
    · split at h
      · cases h
      · next hcount =>
        obtain rfl := Except.ok.inj h
        simpa [hfeasible] using hcount

namespace Workspace

variable {ws : Workspace α μ} {l : ListenerRef} {s : Solver α} {g : Generated α}

/-- A solve begins with the solver in use and its old solution gone. -/
def clear (ws : Workspace α μ) (l : ListenerRef) : Workspace α μ :=
  (ws.hold l).updateSolver l ({ · with solution := none })

theorem solver?_clear (hs : ws.solver? l = some s) (k : ListenerRef) :
    (ws.clear l).solver? k = if k = l then some { s with solution := none } else ws.solver? k := by
  rw [clear, solver?_updateSolver, solver?_hold]
  by_cases hk : k = l
  · rw [if_pos hk, if_pos hk, hk, hs, Option.map_some]
  · rw [if_neg hk, if_neg hk]

variable [Scalar α]

/-! ## Giving levels -/

theorem variableAt_assign (ws : Workspace α μ) (v w : VariableRef) (level : Level α) :
    (ws.assign v level).variableAt w =
      if w = v ∧ w.index < ws.vars.length then { ws.variableAt w with assigned := some level }
      else ws.variableAt w :=
  variableAt_updateVariable ws v w _

/-- The levels of a list of variables, the first of them in column `n`. -/
def assignFrom (ws : Workspace α μ) (id : SolverId) (solution : Solution α) (n : Nat)
    (levels : List (VariableRef × α)) : Workspace α μ :=
  (levels.zipIdx n).foldl
    (fun ws ((v, value), offset) =>
      ws.assign v ⟨⟨id, offset⟩, value, solution.reducedCost offset⟩)
    ws

theorem variableAt_assignFrom_of_not_mem {v : VariableRef} (id : SolverId)
    (solution : Solution α) (levels : List (VariableRef × α)) (n : Nat) (ws : Workspace α μ)
    (hv : v ∉ levels.map Prod.fst) :
    (ws.assignFrom id solution n levels).variableAt v = ws.variableAt v := by
  induction levels generalizing n ws with
  | nil => rfl
  | cons level rest ih =>
    obtain ⟨w, value⟩ := level
    rw [List.map_cons, List.mem_cons, not_or] at hv
    have hrest := ih (n + 1) (ws.assign w ⟨⟨id, n⟩, value, solution.reducedCost n⟩) hv.2
    refine hrest.trans ?_
    rw [variableAt_assign, if_neg fun h => hv.1 h.1]

theorem variableAt_assignFrom {v : VariableRef} {value : α} (id : SolverId)
    (solution : Solution α) (levels : List (VariableRef × α)) (n i : Nat) (ws : Workspace α μ)
    (hnodup : (levels.map Prod.fst).Nodup) (hlt : v.index < ws.vars.length)
    (hi : levels[i]? = some (v, value)) :
    (ws.assignFrom id solution n levels).variableAt v = { ws.variableAt v with
      assigned := some ⟨⟨id, n + i⟩, value, solution.reducedCost (n + i)⟩ } := by
  induction levels generalizing n i ws with
  | nil => cases hi
  | cons level rest ih =>
    obtain ⟨w, x⟩ := level
    rw [List.map_cons, List.nodup_cons] at hnodup
    cases i with
    | zero =>
      obtain ⟨rfl, rfl⟩ := Prod.mk.inj (Option.some.inj hi)
      have hrest := variableAt_assignFrom_of_not_mem id solution rest (n + 1)
        (ws.assign w ⟨⟨id, n⟩, x, solution.reducedCost n⟩) hnodup.1
      refine hrest.trans ?_
      rw [variableAt_assign, if_pos ⟨rfl, hlt⟩]
      rfl
    | succ i =>
      rw [List.getElem?_cons_succ] at hi
      have hmem : v ∈ rest.map Prod.fst := List.mem_map_of_mem (List.mem_of_getElem? hi)
      have hne : v ≠ w := fun h => hnodup.1 (h ▸ hmem)
      have hsize : v.index < (ws.assign w ⟨⟨id, n⟩, x, solution.reducedCost n⟩).vars.length := by
        rw [(sameListeners_assign ws w _).size]
        exact hlt
      have hrest := ih (n + 1) i _ hnodup.2 hsize hi
      refine hrest.trans ?_
      rw [variableAt_assign, if_neg fun h => hne h.1, Nat.add_right_comm, Nat.add_assoc n i 1]

theorem variableAt_assignAll_of_not_mem {v : VariableRef} {vars : List VariableRef}
    (hv : v ∉ vars) (ws : Workspace α μ) (id : SolverId) (solution : Solution α) :
    (ws.assignAll id vars solution).variableAt v = ws.variableAt v := by
  refine variableAt_assignFrom_of_not_mem id solution _ 0 ws fun hmem => hv ?_
  obtain ⟨t, ht, rfl⟩ := List.mem_map.mp hmem
  exact (List.of_mem_zip ht).1

/-- Every variable gets the value and the reduced cost of its column. -/
theorem variableAt_assignAll {v : VariableRef} {vars : List VariableRef} (hvars : vars.Nodup)
    {solution : Solution α} (hlength : solution.values.length = vars.length) {i : Nat}
    (hv : vars[i]? = some v) (hlt : v.index < ws.vars.length) {value : α}
    (hvalue : solution.values[i]? = some value) (id : SolverId) :
    (ws.assignAll id vars solution).variableAt v = { ws.variableAt v with
      assigned := some ⟨⟨id, i⟩, value, solution.reducedCost i⟩ } := by
  have hnodup : ((vars.zip solution.values).map Prod.fst).Nodup := by
    rw [List.map_fst_zip (Nat.le_of_eq hlength.symm)]
    exact hvars
  have hi : (vars.zip solution.values)[i]? = some (v, value) :=
    List.getElem?_zip_eq_some.mpr ⟨hv, hvalue⟩
  have hfrom := variableAt_assignFrom id solution _ 0 i ws hnodup hlt hi
  rw [Nat.zero_add] at hfrom
  exact hfrom

/-- Giving levels changes nothing but levels. -/
theorem exists_variableAt_assignAll (ws : Workspace α μ) (id : SolverId)
    (vars : List VariableRef) (solution : Solution α) (v : VariableRef) :
    ∃ assigned, (ws.assignAll id vars solution).variableAt v
      = { ws.variableAt v with assigned := assigned } := by
  unfold assignAll
  generalize (vars.zip solution.values).zipIdx = levels
  induction levels generalizing ws with
  | nil => exact ⟨_, rfl⟩
  | cons level rest ih =>
    rw [List.foldl_cons]
    obtain ⟨assigned, hrest⟩ := ih (ws.assign level.1.1
      ⟨⟨id, level.2⟩, level.1.2, solution.reducedCost level.2⟩)
    refine ⟨assigned, hrest.trans ?_⟩
    rw [variableAt_assign]
    split <;> rfl

/-! ## Before the backend is asked -/

/-- The state in which a solve finds its solver: in use, without a solution
and with a problem. -/
def prepare (l : ListenerRef) (ws : Workspace α μ) : Workspace α μ :=
  (ensureGenerated l (ws.clear l)).1

/-- A solve prepares its solver by taking it into use and no more, or by
generating it as well. -/
theorem prepare_cases (l : ListenerRef) (ws : Workspace α μ) :
    prepare l ws = ws.clear l ∨ prepare l ws = ((ws.clear l).generate l).1 := by
  rw [prepare, ensureGenerated]
  split
  · exact Or.inl rfl
  · exact Or.inr rfl

/-- What a solve finds when it asks the backend for the problem `g`. -/
structure Prepared (ws : Workspace α μ) (l : ListenerRef) (s : Solver α) (g : Generated α)
    (ws' : Workspace α μ) : Prop where
  /-- The problem was there, or it is the model's. -/
  problem : s.generated = some g ∨
    s.generated = none ∧ Generated.ofModel ws.variableAt s.config s.model = .ok g
  solver : ws'.solver? l = some { s with generated := some g, solution := none }
  others : ∀ k, k ≠ l → ws'.solver? k = ws.solver? k
  size : ws'.vars.length = ws.vars.length
  bare : ∀ v, (ws'.variableAt v).bare = (ws.variableAt v).bare
  outside : ∀ v, v ∉ g.vars → ws'.variableAt v = ws.variableAt v

theorem Prepared.of_sameState {ws' quiet : Workspace α μ} (hp : Prepared ws l s g ws')
    (hsame : ws'.SameState quiet) : Prepared ws l s g quiet where
  problem := hp.problem
  solver := by
    rw [hsame.sameListeners.solver?]
    exact hp.solver
  others := by
    intro k hk
    rw [hsame.sameListeners.solver?]
    exact hp.others k hk
  size := hsame.sameListeners.size.trans hp.size
  bare := by
    intro v
    rw [hsame.variableAt]
    exact hp.bare v
  outside := by
    intro v hv
    rw [hsame.variableAt]
    exact hp.outside v hv

/-- A solver is always prepared: generating does not fail. -/
theorem exists_prepared (hs : ws.solver? l = some s) : ∃ g, Prepared ws l s g (prepare l ws)
    ∧ ensureGenerated l (ws.clear l) = (prepare l ws, .ok ()) := by
  have hclear := solver?_clear hs
  have hl := (hclear l).trans (if_pos rfl)
  cases hg : s.generated with
  | some g =>
    have hsome : ensureGenerated l (ws.clear l) = (ws.clear l, .ok ()) := by
      rw [ensureGenerated, hl, Option.any_some, hg]
      rfl
    have hprepare : prepare l ws = ws.clear l := by
      rw [prepare, hsome]
    refine ⟨g, ?_, by rw [hprepare, hsome]⟩
    rw [hprepare]
    exact {
      problem := Or.inl hg
      solver := by rw [hl, hg]
      others := fun k hk => (hclear k).trans (if_neg hk)
      size := rfl
      bare := fun _ => rfl
      outside := fun _ _ => rfl }
  | none =>
    have hnone : ensureGenerated l (ws.clear l) = (ws.clear l).generate l := by
      rw [ensureGenerated, hl, Option.any_some, hg]
      rfl
    have hprepare : prepare l ws = ((ws.clear l).generate l).1 := by
      rw [prepare, hnone]
    refine ⟨Generated.compiled ws.variableAt s.config s.model, ?_, ?_⟩
    · rw [hprepare]
      exact {
        problem := Or.inr ⟨hg, Generated.ofModel_eq_compiled _ _ _⟩
        solver := by
          have hgenerated := solver?_generate hl
          exact hgenerated
        others := by
          intro k hk
          rw [solver?, listener?_generate hl, if_neg hk]
          exact (hclear k).trans (if_neg hk)
        size := size_generate hl
        bare := bare_variableAt_generate hl
        outside := by
          intro v hv
          have hvars : { s with solution := none : Solver α }.vars = [] := by
            rw [Solver.vars, hg]
            rfl
          rw [variableAt_generate hl, if_neg fun h => hv h.1, hvars]
          rfl }
    · rw [hnone, hprepare, ← generate_eq_ok hl]

/-! ## Asking -/

/-- Takes over a solution that was judged good. -/
def settle (ws : Workspace α μ) (l : ListenerRef) (s : Solver α) (g : Generated α)
    (solution : Solution α) : Workspace α μ :=
  ((if solution.isFeasible then ws.assignAll s.id g.vars solution else ws).emit
    (.solved s.id solution.status solution.objective solution.message)).updateSolver l
      ({ · with solution := some solution })

/-- Without whole values to refuse, only the number of values is judged. -/
theorem takeOver_cases (hmixed : (g.problem.isMixedInteger && !s.backend.takesIntegers) = false)
    (ws : Workspace α μ) (l : ListenerRef) (solution : Solution α) :
    (∃ e, s.judge g (.ok solution) = .error e
        ∧ ws.takeOver l s g solution = (ws, .error e))
      ∨ (s.judge g (.ok solution) = .ok solution
        ∧ ws.takeOver l s g solution = (ws.settle l s g solution, .ok solution.status)) := by
  cases hcount : solution.isFeasible && solution.values.length != g.vars.length with
  | true =>
    refine Or.inl ⟨.solver (.valueCount s.backend.name solution.values.length
      g.vars.length), ?_, ?_⟩
    · simp only [Solver.judge, hmixed, hcount, Bool.false_eq_true, if_false, if_true]
    · simp only [takeOver, hcount, if_true]
  | false =>
    refine Or.inr ⟨?_, ?_⟩
    · simp only [Solver.judge, hmixed, hcount, Bool.false_eq_true, if_false]
    · simp only [takeOver, settle, hcount, Bool.false_eq_true, if_false]

/-- The state in which a backend is asked for the problem `g`. -/
def asked (ws : Workspace α μ) (s : Solver α) (g : Generated α) : Workspace α μ :=
  ws.emit (.solveStarted s.id s.backend.name g.problem.columns.length g.problem.rows.length)

/-- The verdict decides what asking comes to: an error leaves the state as it
was or as the backend left it, a solution is taken over. -/
theorem ask_verdict (c : Conduct α μ) (ws : Workspace α μ) (l : ListenerRef) (s : Solver α)
    (g : Generated α) :
    (∃ e, s.judge g (c.answer l g.problem (ws.asked s g)).2 = .error e
        ∧ (ws.ask c l s g = (ws, .error e)
          ∨ ws.ask c l s g = ((c.answer l g.problem (ws.asked s g)).1, .error e)))
      ∨ ∃ solution, s.judge g (c.answer l g.problem (ws.asked s g)).2 = .ok solution
        ∧ ws.ask c l s g = ((c.answer l g.problem (ws.asked s g)).1.settle l s g solution,
          .ok solution.status) := by
  cases hmixed : g.problem.isMixedInteger && !s.backend.takesIntegers with
  | true =>
    refine Or.inl ⟨.solver (.integerColumns s.backend.name), ?_, Or.inl ?_⟩
    · unfold Solver.judge
      rw [if_pos hmixed]
    · rw [ask, if_pos hmixed]
  | false =>
    cases hanswer : c.answer l g.problem (ws.asked s g) with
    | mk left answer =>
      unfold asked at hanswer
      cases answer with
      | error e =>
        refine Or.inl ⟨.solver e, ?_, Or.inr ?_⟩
        · simp only [Solver.judge, hmixed, Bool.false_eq_true, if_false]
        · simp only [ask, hmixed, Bool.false_eq_true, if_false, hanswer]
      | ok solution =>
        have hask : ws.ask c l s g = left.takeOver l s g solution := by
          simp only [ask, hmixed, Bool.false_eq_true, if_false, hanswer]
        rw [hask]
        rcases takeOver_cases hmixed left l solution with ⟨e, hjudge, hrefused⟩ | hok
        · exact Or.inl ⟨e, hjudge, Or.inr hrefused⟩
        · exact Or.inr ⟨solution, hok⟩

/-- The verdict decides what asking leaves, up to the record and what the
clients remember. -/
theorem ask_cases {c : Conduct α μ} (hquiet : c.QuietBackends) (ws : Workspace α μ)
    (l : ListenerRef) (s : Solver α) (g : Generated α) :
    ∃ asked quiet, ws.SameState quiet ∧
      ((∃ e, s.judge g (c.answer l g.problem asked).2 = .error e
          ∧ ws.ask c l s g = (quiet, .error e))
        ∨ ∃ solution, s.judge g (c.answer l g.problem asked).2 = .ok solution
          ∧ ws.ask c l s g = (quiet.settle l s g solution, .ok solution.status)) := by
  have hsame : ws.SameState (c.answer l g.problem (ws.asked s g)).1 :=
    (sameState_emit ws _).trans (hquiet l g.problem _)
  refine ⟨ws.asked s g, ?_⟩
  rcases ask_verdict c ws l s g with ⟨e, hjudge, hask | hask⟩ | ⟨solution, hjudge, hask⟩
  · exact ⟨ws, .refl ws, Or.inl ⟨e, hjudge, hask⟩⟩
  · exact ⟨_, hsame, Or.inl ⟨e, hjudge, hask⟩⟩
  · exact ⟨_, hsame, Or.inr ⟨solution, hjudge, hask⟩⟩

theorem sameListeners_settled (ws : Workspace α μ) (s : Solver α) (g : Generated α)
    (solution : Solution α) :
    ws.SameListeners ((if solution.isFeasible then ws.assignAll s.id g.vars solution else ws).emit
      (.solved s.id solution.status solution.objective solution.message)) := by
  refine SameListeners.trans ?_ (sameListeners_emit _ _)
  split
  · exact sameListeners_assignAll ..
  · exact .refl ws

/-- The solver whose solution is taken over has it, if there is one. -/
theorem solver?_settle_map (ws : Workspace α μ) (l : ListenerRef) (s : Solver α) (g : Generated α)
    (solution : Solution α) (k : ListenerRef) : (ws.settle l s g solution).solver? k =
      if k = l then (ws.solver? k).map ({ · with solution := some solution })
      else ws.solver? k := by
  rw [settle, solver?_updateSolver, (sameListeners_settled ws s g solution).solver?]

theorem solver?_settle (hs : ws.solver? l = some s) (s' : Solver α) (g : Generated α)
    (solution : Solution α) (k : ListenerRef) : (ws.settle l s' g solution).solver? k =
      if k = l then some { s with solution := some solution } else ws.solver? k := by
  rw [solver?_settle_map]
  by_cases hk : k = l
  · rw [if_pos hk, if_pos hk, hk, hs, Option.map_some]
  · rw [if_neg hk, if_neg hk]

theorem variableAt_settle (ws : Workspace α μ) (l : ListenerRef) (s : Solver α)
    (g : Generated α) (solution : Solution α) (v : VariableRef) :
    (ws.settle l s g solution).variableAt v =
      if solution.isFeasible then (ws.assignAll s.id g.vars solution).variableAt v
      else ws.variableAt v := by
  rw [settle, variableAt_updateSolver, variableAt_emit]
  split <;> rfl

/-! ## Solving -/

/-- What a solve of the problem `g` comes to under a verdict. An error, and
an answer without values, leave every variable as it was but for handles; an
answer with values reaches every variable that has a column, and no other. -/
structure AllOrNothing (ws : Workspace α μ) (l : ListenerRef) (s : Solver α) (g : Generated α)
    (verdict : Except (ModelError α) (Solution α)) (outcome : Outcome α μ Status) : Prop where
  answer : outcome.2 = verdict.map Solution.status
  /-- The solver keeps the solution it took over, and none after an error. -/
  solver : outcome.1.solver? l
    = some { s with generated := some g, solution := verdict.toOption }
  others : ∀ k, k ≠ l → outcome.1.solver? k = ws.solver? k
  refused : ∀ e, outcome.2 = .error e →
    ∀ v, (outcome.1.variableAt v).bare = (ws.variableAt v).bare
  valueless : ∀ solution, verdict = .ok solution → solution.isFeasible = false →
    ∀ v, (outcome.1.variableAt v).bare = (ws.variableAt v).bare
  /-- Only the level of a variable changes, to what its column says. -/
  assigned : ∀ solution, verdict = .ok solution → solution.isFeasible = true →
    ∀ v (i : Nat), g.vars[i]? = some v → ∃ value, solution.values[i]? = some value
      ∧ (outcome.1.variableAt v).bare = { (ws.variableAt v).bare with
          assigned := some ⟨⟨s.id, i⟩, value, solution.reducedCost i⟩ }
  outside : ∀ v, v ∉ g.vars → outcome.1.variableAt v = ws.variableAt v

/-- After an error the variables are as they were, but for handles. -/
theorem Prepared.allOrNothing_error {ws' : Workspace α μ} (hp : Prepared ws l s g ws')
    (e : ModelError α) :
    AllOrNothing ws l s g (.error e) (ws'.release l, .error e) where
  answer := rfl
  solver := by
    rw [solver?_release, hp.solver]
    rfl
  others := by
    intro k hk
    rw [solver?_release, hp.others k hk]
  refused := by
    intro _ _ v
    rw [bare_variableAt_release, hp.bare]
  valueless := fun _ h => by cases h
  assigned := fun _ h => by cases h
  outside := by
    intro v hv
    rw [variableAt_release_of_not_mem, hp.outside v hv]
    intro s' hs'
    rw [hp.solver] at hs'
    cases hs'
    exact hv

/-- A solution that was judged good reaches the variables of the problem, if
it has values. -/
theorem Prepared.allOrNothing_settle {ws' : Workspace α μ} (hp : Prepared ws l s g ws')
    (hnodup : g.vars.Nodup) (hrange : ∀ v ∈ g.vars, v.index < ws.vars.length)
    {solution : Solution α}
    (hlength : solution.isFeasible = true → solution.values.length = g.vars.length) :
    AllOrNothing ws l s g (.ok solution)
      ((ws'.settle l { s with generated := some g, solution := none } g solution).release l,
        .ok solution.status) := by
  have hsettled := solver?_settle hp.solver { s with generated := some g, solution := none } g
    solution
  exact {
    answer := rfl
    solver := by
      rw [solver?_release, hsettled l, if_pos rfl]
      rfl
    others := by
      intro k hk
      rw [solver?_release, hsettled k, if_neg hk, hp.others k hk]
    refused := fun _ h => by cases h
    valueless := by
      intro _ h hfeasible v
      cases h
      rw [bare_variableAt_release, variableAt_settle, hfeasible, if_neg Bool.false_ne_true,
        hp.bare]
    assigned := by
      intro _ h hfeasible v i hi
      cases h
      have hlt : i < solution.values.length := by
        rw [hlength hfeasible]
        exact (List.getElem?_eq_some_iff.mp hi).1
      have hplace : v.index < ws'.vars.length := by
        rw [hp.size]
        exact hrange v (List.mem_of_getElem? hi)
      refine ⟨solution.values[i], List.getElem?_eq_getElem hlt, ?_⟩
      rw [bare_variableAt_release, variableAt_settle, hfeasible, if_pos rfl,
        variableAt_assignAll hnodup (hlength hfeasible) hi hplace
          (List.getElem?_eq_getElem hlt), ← hp.bare]
      rfl
    outside := by
      intro v hv
      rw [variableAt_release_of_not_mem, variableAt_settle]
      · split
        · rw [variableAt_assignAll_of_not_mem hv, hp.outside v hv]
        · exact hp.outside v hv
      · intro s' hs'
        rw [hsettled l, if_pos rfl] at hs'
        cases hs'
        exact hv }

/-- A solve is asking in the prepared state, with the end of the use. -/
theorem solve_eq_ask (c : Conduct α μ)
    (hready : ensureGenerated l (ws.clear l) = (prepare l ws, .ok ()))
    (hs : (prepare l ws).solver? l = some s)
    (hg : s.generated = some g) : ws.solve c l =
      (((prepare l ws).ask c l s g).1.release l, ((prepare l ws).ask c l s g).2) := by
  have hheld : (ws.hold l).solveHeld c l = (prepare l ws).ask c l s g := by
    unfold clear at hready
    rw [solveHeld, hready]
    simp only [hs, Solver.requireGenerated, hg]
  rw [solve, hheld]

/-- A solver that has a problem asks its backend for this one and no other:
what the backend would say of other problems does not matter. -/
theorem solve_congr {c c' : Conduct α μ} (hs : ws.solver? l = some s)
    (hg : s.generated = some g)
    (hanswer : ∀ asked, c'.answer l g.problem asked = c.answer l g.problem asked) :
    ws.solve c' l = ws.solve c l := by
  obtain ⟨g', hp, hready⟩ := exists_prepared hs
  have hsame : g' = g := by
    rcases hp.problem with hg' | ⟨hnone, -⟩
    · exact Option.some.inj (hg'.symm.trans hg)
    · rw [hg] at hnone
      cases hnone
  subst hsame
  rw [solve_eq_ask c' hready hp.solver rfl, solve_eq_ask c hready hp.solver rfl]
  have hask : (prepare l ws).ask c' l { s with generated := some g', solution := none } g'
      = (prepare l ws).ask c l { s with generated := some g', solution := none } g' := by
    simp only [ask, hanswer]
  rw [hask]

/-- Whatever a quiet backend answers, a solve changes the variables
according to its verdict: all of the problem's, or none at all. -/
theorem solve_all_or_nothing {c : Conduct α μ} (hquiet : c.QuietBackends)
    (hs : ws.solver? l = some s) (hwell : s.WellFormed ws.vars.length) : ∃ g asked,
      (s.generated = some g ∨
        s.generated = none ∧ Generated.ofModel ws.variableAt s.config s.model = .ok g)
      ∧ AllOrNothing ws l s g (s.judge g (c.answer l g.problem asked).2) (ws.solve c l) := by
  obtain ⟨g, hp, hready⟩ := exists_prepared hs
  have hvars : g.vars = s.model.vars := by
    rcases hp.problem with hg | ⟨-, hg⟩
    · exact hwell.vars g hg
    · rw [Generated.ofModel_eq_compiled] at hg
      rw [← Except.ok.inj hg]
      rfl
  have hnodup : g.vars.Nodup := by
    rw [hvars]
    exact s.model.nodup_vars
  have hrange : ∀ v ∈ g.vars, v.index < ws.vars.length := by
    rw [hvars]
    exact hwell.inRange
  obtain ⟨asked, quiet, hsame, hcases⟩ := ask_cases hquiet (prepare l ws) l
    { s with generated := some g, solution := none } g
  refine ⟨g, asked, hp.problem, ?_⟩
  rw [solve_eq_ask c hready hp.solver rfl]
  rcases hcases with ⟨e, hverdict, hask⟩ | ⟨solution, hverdict, hask⟩
  · have hjudge : s.judge g (c.answer l g.problem asked).2 = .error e := hverdict
    rw [hask, hjudge]
    exact (hp.of_sameState hsame).allOrNothing_error e
  · have hjudge : s.judge g (c.answer l g.problem asked).2 = .ok solution := hverdict
    rw [hask, hjudge]
    exact (hp.of_sameState hsame).allOrNothing_settle hnodup hrange
      (Solver.length_values_of_judge hjudge)

end Workspace

/-! ## A backend with one answer -/

/-- Observers do nothing, and every problem has the one answer. -/
def Conduct.answering (solution : Solution α) : Conduct α μ where
  receive _ _ _ ws := (ws, .ok ())
  answer _ _ ws := (ws, .ok solution)

/-- The second variable gets the second value, and the reduced cost that was
not reported is zero. -/
theorem Workspace.solve_mergingWorkspace :
    ((mergingWorkspace.solve (.answering (.found .optimal 1 [1, .finite (1 / 2)]))
      ⟨0⟩).1.variableAt ⟨1⟩).assigned = some ⟨⟨0, 1⟩, .finite (1 / 2), 0⟩ := by
  have hvars := vars_mergingModel
  obtain ⟨g, _, hg, h⟩ := solve_all_or_nothing
    (c := .answering (.found .optimal 1 [1, .finite (1 / 2)])) (fun _ _ ws => .refl ws)
    (show mergingWorkspace.solver? ⟨0⟩ = some mergingSolver from rfl) {
      inRange := by
        rw [mergingSolver, hvars]
        decide
      vars := fun _ h => by cases h }
  have hplaces : g.vars = [⟨0⟩, ⟨1⟩] := by
    rcases hg with hg | ⟨-, hg⟩
    · cases hg
    · rw [Generated.ofModel_eq_compiled] at hg
      rw [← Except.ok.inj hg]
      exact hvars
  have hverdict : mergingSolver.judge g (.ok (.found .optimal 1 [1, .finite (1 / 2)]))
      = .ok (.found .optimal 1 [1, .finite (1 / 2)]) := by
    simp [Solver.judge, mergingSolver, hplaces, Solution.found]
  obtain ⟨value, hvalue, hbare⟩ := h.assigned _ hverdict rfl ⟨1⟩ 1 (by rw [hplaces]; rfl)
  obtain rfl := Option.some.inj hvalue
  exact congrArg (fun x => x.assigned) hbare

end Milp
