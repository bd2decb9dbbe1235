/-
Milp.Proofs.SharedVariables — solvers that share variables do not interfere.

Generating, solving and giving up a solver touches that solver, the handles
under its identity, and the levels of variables (`Workspace.Aside`). Another
solver keeps its problem, its solution and its attachments, and so every answer
it gives; the variables keep all that they are but for their levels.

Levels are the one thing that solvers do share, and there the latest wins: the
level of a variable is as a whole the one that was given by the latest solve
that succeeded with values and has a column for it (`Workspace.Reaches`), and
never put together from two of them. `solvers_do_not_interfere` says both.
-/
import Milp.Proofs.Reached

namespace Milp

variable {α μ : Type} [Scalar α]

/-- Models are over variables that are there, and nobody but solvers gives the
variable a level. -/
def Rule.solvesOnly (v : VariableRef) : Rule α μ :=
  { Rule.inRange with assign := fun w _ _ => w ≠ v }

/-- Besides, solves leave it the level. -/
def Rule.levelled (v : VariableRef) (assigned : Option (Level α)) : Rule α μ :=
  { Rule.solvesOnly v with outcome := fun f => (f v).assigned = assigned }

/-- The same backends, and observers that do nothing. -/
def Conduct.unheard (c : Conduct α μ) : Conduct α μ :=
  { c with receive := fun _ _ _ ws => (ws, .ok ()) }

namespace Workspace

variable {ws ws' : Workspace α μ} {c : Conduct α μ} {b l : ListenerRef} {v : VariableRef}

/-! ## What one solver leaves alone -/

/-- At most one listener, the handles under its identity, and the levels of
variables differ. -/
structure Aside (b : ListenerRef) (ws ws' : Workspace α μ) : Prop where
  others : ∀ k, k ≠ b → ws'.listener? k = ws.listener? k
  id? : ws'.id? b = ws.id? b
  attached : ∀ v id, ws.id? b ≠ some id →
    (ws'.variableAt v).isAttached id = (ws.variableAt v).isAttached id
  bare : ∀ v, ∃ assigned, ws'.bareAt v = { ws.bareAt v with assigned }

theorem Aside.trans {ws₁ ws₂ ws₃ : Workspace α μ} (h : Aside b ws₁ ws₂) (h' : Aside b ws₂ ws₃) :
    Aside b ws₁ ws₃ where
  others := fun k hk => (h'.others k hk).trans (h.others k hk)
  id? := h'.id?.trans h.id?
  attached := by
    intro v id hid
    rw [h'.attached v id (by rw [h.id?]; exact hid), h.attached v id hid]
  bare := by
    intro v
    obtain ⟨first, hfirst⟩ := h.bare v
    obtain ⟨second, hsecond⟩ := h'.bare v
    refine ⟨second, ?_⟩
    rw [hsecond, hfirst]

theorem Aside.refl (b : ListenerRef) (ws : Workspace α μ) : Aside b ws ws :=
  ⟨fun _ _ => rfl, rfl, fun _ _ _ => rfl, fun _ => ⟨_, rfl⟩⟩

theorem SameState.aside (b : ListenerRef) (h : ws.SameState ws') : Aside b ws ws' where
  others := fun k _ => h.sameListeners.listener? k
  id? := h.sameListeners.sameIds.id? b
  attached := fun v id _ => by rw [h.variableAt]
  bare := fun v => ⟨(ws.bareAt v).assigned, by rw [bareAt, h.variableAt]; rfl⟩

/-- The standing of the listener, and what its solver keeps. -/
theorem aside_updateListener {f : Listener α → Listener α} (hid : ∀ a, (f a).id = a.id)
    (ws : Workspace α μ) (b : ListenerRef) : Aside b ws (ws.updateListener b f) where
  others := fun _ hk => listener?_updateListener_of_ne hk ws f
  id? := (sameIds_updateListener hid ws b).id? b
  attached := fun _ _ _ => rfl
  bare := fun _ => ⟨_, rfl⟩

theorem aside_updateSolution (ws : Workspace α μ) (b : ListenerRef)
    (solution : Option (Solution α)) : Aside b ws (ws.updateSolver b ({ · with solution })) :=
  aside_updateListener (Listener.id_mapSolver (by intro s; rfl)) ws b

theorem aside_detachAll {s : Solver α} (hs : ws.id? b = some s.id) (vs : List VariableRef) :
    Aside b ws (ws.detachAll vs s.id) where
  others := fun k _ => (sameListeners_detachAll ws vs s.id).listener? k
  id? := (sameListeners_detachAll ws vs s.id).sameIds.id? b
  attached := by
    intro v id hid
    rw [hs] at hid
    exact isAttached_detachAll_of_ne (fun hsame => hid (congrArg some hsame.symm)) ws v
  bare := fun v => ⟨(ws.bareAt v).assigned, bare_variableAt_detachAll ws vs s.id v⟩

theorem aside_retireIfDead (ws : Workspace α μ) (b : ListenerRef) :
    Aside b ws (ws.retireIfDead b) := by
  unfold retireIfDead retire
  split
  · exact .refl b ws
  · split
    · next s hs => exact aside_detachAll (id?_of_solver? hs) s.vars
    · exact .refl b ws

theorem aside_release (ws : Workspace α μ) (b : ListenerRef) : Aside b ws (ws.release b) :=
  (aside_updateListener (by intro a; rfl) ws b).trans (aside_retireIfDead _ b)

theorem aside_drop (ws : Workspace α μ) (b : ListenerRef) : Aside b ws (ws.drop b) :=
  (aside_updateListener (by intro a; rfl) ws b).trans (aside_retireIfDead _ b)

theorem aside_generate (ws : Workspace α μ) (b : ListenerRef) :
    Aside b ws (ws.generate b).1 := by
  cases hs : ws.solver? b with
  | none =>
    rw [generate, hs]
    exact .refl b ws
  | some s =>
    exact {
      others := by
        intro k hk
        rw [listener?_generate hs, if_neg hk]
      id? := (sameIds_generate hs).id? b
      attached := by
        intro v id hid
        rw [id?_of_solver? hs] at hid
        exact isAttached_generate_of_ne hs (fun hsame => hid (congrArg some hsame.symm)) v
      bare := fun v => ⟨(ws.bareAt v).assigned, bare_variableAt_generate hs v⟩ }

theorem aside_settle (ws : Workspace α μ) (b : ListenerRef) (s : Solver α) (g : Generated α)
    (solution : Solution α) : Aside b ws (ws.settle b s g solution) := by
  have hassigned := sameListeners_settled ws s g solution
  refine Aside.trans ⟨fun k _ => hassigned.listener? k, hassigned.sameIds.id? b, fun v id _ => ?_,
    exists_bareAt_settle ws b s g solution⟩ (aside_updateSolution _ b (some solution))
  rw [variableAt_emit]
  split
  · obtain ⟨assigned, hv⟩ := exists_variableAt_assignAll ws s.id g.vars solution v
    rw [hv]
    rfl
  · rfl

theorem aside_prepare (ws : Workspace α μ) (b : ListenerRef) : Aside b ws (prepare b ws) := by
  have hcleared : Aside b ws (ws.clear b) :=
    (aside_updateListener (by intro a; rfl) ws b).trans (aside_updateSolution _ b none)
  rcases prepare_cases b ws with hprepare | hprepare
  · rw [hprepare]
    exact hcleared
  · rw [hprepare]
    exact hcleared.trans (aside_generate _ b)

theorem aside_solve (hquiet : c.QuietBackends) (ws : Workspace α μ) (b : ListenerRef) :
    Aside b ws (ws.solve c b).1 := by
  have hprepared := aside_prepare ws b
  cases hs : ws.solver? b with
  | none =>
    obtain ⟨-, hready⟩ := ensureGenerated_of_no_solver hs
    have hcleared : prepare b ws = ws.clear b := by rw [prepare, hready]
    rw [solve_of_no_solver hs, ← hcleared]
    exact hprepared.trans (aside_release _ b)
  | some s =>
    obtain ⟨g, hp, hready⟩ := exists_prepared hs
    rw [solve_eq_ask c hready hp.solver rfl]
    refine Aside.trans ?_ (aside_release _ b)
    obtain ⟨asked, quiet, hsame, ⟨e, -, hask⟩ | ⟨solution, -, hask⟩⟩ := ask_cases hquiet
      (prepare b ws) b { s with generated := some g, solution := none } g
    · rw [hask]
      exact hprepared.trans (hsame.aside b)
    · rw [hask]
      exact (hprepared.trans (hsame.aside b)).trans (aside_settle quiet b _ g solution)

/-- A turn that generates, solves or gives up the listener. -/
def IsAbout (b : ListenerRef) (t : Turn α μ) : Prop :=
  t = .operate (.generate b) ∨ t = .operate (.solve b) ∨ t = .operate (.drop b)

theorem aside_turn (hquiet : c.QuietBackends) {t : Turn α μ} (ht : IsAbout b t)
    (ws : Workspace α μ) : Aside b ws (ws.turn c t) := by
  rcases ht with rfl | rfl | rfl
  · exact aside_generate ws b
  · exact aside_solve hquiet ws b
  · exact aside_drop ws b

theorem aside_course (hquiet : c.QuietBackends) {turns : List (Turn α μ)}
    (hturns : ∀ t ∈ turns, IsAbout b t) (ws : Workspace α μ) :
    Aside b ws (ws.course c turns) := by
  induction turns generalizing ws with
  | nil => exact .refl b ws
  | cons t rest ih =>
    have hfirst := aside_turn hquiet (hturns t List.mem_cons_self) ws
    exact hfirst.trans (ih (fun u hu => hturns u (List.mem_cons_of_mem t hu)) _)

/-! ## Levels -/

/-- A variable is there, with this level or without one. -/
structure LevelledAt (v : VariableRef) (assigned : Option (Level α)) (ws : Workspace α μ) :
    Prop where
  index_lt : v.index < ws.vars.length
  level : (ws.variableAt v).assigned = assigned

/-- The level of a variable is kept by all that does not assign it. -/
theorem preserves_levelledAt (v : VariableRef) (assigned : Option (Level α)) :
    (Rule.levelled v assigned : Rule α μ).Preserves (LevelledAt v assigned) := by
  have hindex : (Rule.levelled v assigned : Rule α μ).Preserves fun ws =>
      v.index < ws.vars.length := preserves_index_lt fun _ _ => trivial
  have hlevel : ∀ {ws ws' : Workspace α μ}, ws'.bareAt v = ws.bareAt v →
      LevelledAt v assigned ws → (ws'.variableAt v).assigned = assigned :=
    fun hbare h => (Variable.assigned_eq_of_bare hbare).trans h.level
  exact {
    apart := fun hsame hnext hbare h => ⟨hindex.apart hsame hnext hbare h.index_lt,
      hlevel (congrFun hbare v) h⟩
    standing := fun _ _ h => ⟨h.index_lt, h.level⟩
    hold := fun _ h => ⟨h.index_lt, h.level⟩
    write := by
      intro ws op w e hop hrule hedit h
      obtain ⟨hlt, hnews⟩ := hindex.write hop hrule hedit h.index_lt
      refine ⟨⟨hlt, ?_⟩, hnews⟩
      rw [write, variableAt_updateVariable]
      split
      · rw [Variable.assigned_write]
        exact h.level
      · exact h.level
    tell := fun {ws l w change} htold h => ⟨hindex.tell htold h.index_lt,
      hlevel (congrFun (bareAt_of_vars (vars_tellSolver ws l w change)) v) h⟩
    assign := by
      intro ws w level hrule h
      refine ⟨hindex.assign hrule h.index_lt, ?_⟩
      rw [variableAt_assign, if_neg fun hboth => hrule hboth.1.symm]
      exact h.level
    generate := fun hcall h => ⟨hindex.generate hcall h.index_lt,
      hlevel (congrFun (bareAt_generate _ _) v) h⟩
    forget := fun _ h => ⟨h.index_lt, h.level⟩
    settle := by
      intro asked ws l s g solution hcall hasked hs hg hlength h hgone hrule
      have hassigned : ((ws.settle l s g solution).bareAt v).assigned = assigned := hrule
      exact ⟨hindex.settle hcall hasked.index_lt hs hg hlength h.index_lt hgone hrule, hassigned⟩
    newVariable := by
      intro ws spec hspec h
      refine ⟨hindex.newVariable hspec h.index_lt, ?_⟩
      rw [variableAt_newVariable, if_neg (Nat.ne_of_lt h.index_lt)]
      exact h.level
    newSolver := fun _ h => ⟨h.index_lt, h.level⟩
    newObserver := fun h => ⟨h.index_lt, h.level⟩ }

/-- No observer is called, or they do nothing. -/
def Unheard (c : Conduct α μ) (t : Turn α μ) : Prop := (∃ b, IsAbout b t) ∨ c.QuietObservers

/-- Where backends do not act and observers are not called, what a rule
preserves holds after a turn that heeds it. -/
theorem preserves_turn_unheard {rule : Rule α μ} {P : Workspace α μ → Prop}
    (h : rule.Preserves P) (hbackends : c.QuietBackends) {t : Turn α μ} (hunheard : Unheard c t)
    (hallowed : rule.Allows c t ws) (hP : P ws) : P (ws.turn c t) := by
  rcases hunheard with ⟨b, habout⟩ | hobservers
  · have hkeeps : c.unheard.Keeps P := h.keeps (fun _ => trivial)
      (.quiet (fun _ _ _ ws => .refl ws) hbackends : c.unheard.Follows rule fun _ => True)
    rcases habout with rfl | rfl | rfl
    · exact h.turn (t := .operate (.generate b)) hkeeps hallowed hP
    · exact h.turn (t := .operate (.solve b)) hkeeps hallowed hP
    · exact h.turn (t := .operate (.drop b)) hkeeps hallowed hP
  · have hkeeps : c.Keeps P := h.keeps (fun _ => trivial)
      (.quiet hobservers hbackends : c.Follows rule fun _ => True)
    exact h.turn hkeeps hallowed hP

/-- A turn that is no solve leaves the level. -/
theorem assigned_turn (hbackends : c.QuietBackends) {t : Turn α μ} (hunheard : Unheard c t)
    (hallowed : (Rule.solvesOnly v).Allows c t ws) (hsolve : ∀ l, t ≠ .operate (.solve l))
    (hlt : v.index < ws.vars.length) :
    ((ws.turn c t).variableAt v).assigned = (ws.variableAt v).assigned := by
  -- the two rules differ on solves only
  have hallowed' : (Rule.levelled v (ws.variableAt v).assigned).Allows c t ws := by
    unfold Rule.Allows at hallowed ⊢
    split at hallowed
    · exact hallowed
    · exact hallowed
    · exact hallowed
    · next l => exact absurd rfl (hsolve l)
    · exact hallowed
    · exact hallowed
    · exact hallowed
    · exact hallowed
    · trivial
  exact (preserves_turn_unheard (preserves_levelledAt v _) hbackends hunheard hallowed'
    ⟨hlt, rfl⟩).level

/-! ## The latest solve -/

/-- A solve succeeds with a feasible solution, and has a column for the
variable; `s` is the solver as the solve leaves it. -/
structure Reaches (c : Conduct α μ) (l : ListenerRef) (v : VariableRef) (ws : Workspace α μ)
    (s : Solver α) (solution : Solution α) : Prop where
  answer : (ws.solve c l).2 = .ok solution.status
  solver : (ws.solve c l).1.solver? l = some s
  stored : s.solution = some solution
  feasible : solution.isFeasible = true
  column : v ∈ s.vars

/-- The solve of `s` with this solution gave the variable its level, as a
whole. -/
def GivenBy (s : Solver α) (solution : Solution α) (v : VariableRef)
    (assigned : Option (Level α)) : Prop :=
  ∃ (i : Nat) (value : α), s.vars[i]? = some v ∧ solution.values[i]? = some value
    ∧ assigned = some ⟨⟨s.id, i⟩, value, solution.reducedCost i⟩

/-- Only a verdict with values reaches variables, and those of the problem. -/
theorem AllOrNothing.of_reaches {s s' : Solver α} {g : Generated α}
    {verdict : Except (ModelError α) (Solution α)} {solution : Solution α}
    (h : AllOrNothing ws l s g verdict (ws.solve c l)) (hreaches : Reaches c l v ws s' solution) :
    verdict = .ok solution ∧ v ∈ g.vars := by
  have hsolver := hreaches.solver
  rw [h.solver] at hsolver
  obtain rfl := Option.some.inj hsolver
  refine ⟨?_, hreaches.column⟩
  have hstored : verdict.toOption = some solution := hreaches.stored
  cases verdict with
  | error e => cases hstored
  | ok taken => rw [Option.some.inj hstored]

/-- A solve that reaches a variable gives it the level of its column, and
another one leaves it the level it has. -/
theorem assigned_solve (hbackends : c.QuietBackends) (hwell : ws.AllWellFormed)
    (l : ListenerRef) (v : VariableRef) :
    (∃ (s : Solver α) (solution : Solution α), Reaches c l v ws s solution
        ∧ GivenBy s solution v ((ws.solve c l).1.variableAt v).assigned)
      ∨ (∀ (s : Solver α) (solution : Solution α), ¬ Reaches c l v ws s solution)
        ∧ ((ws.solve c l).1.variableAt v).assigned = (ws.variableAt v).assigned := by
  have hkept : ((ws.solve c l).1.variableAt v).bare = (ws.variableAt v).bare →
      ((ws.solve c l).1.variableAt v).assigned = (ws.variableAt v).assigned :=
    Variable.assigned_eq_of_bare
  cases hs : ws.solver? l with
  | none =>
    have hfailed := congrArg Prod.snd (solve_eq_of_no_solver hs c)
    refine Or.inr ⟨fun s solution hreaches => ?_, hkept ?_⟩
    · have hanswer := hreaches.answer
      rw [hfailed] at hanswer
      cases hanswer
    · rw [solve_of_no_solver hs, bare_variableAt_release]
      rfl
  | some s =>
    obtain ⟨g, asked, -, h⟩ := solve_all_or_nothing hbackends hs (hwell l s hs)
    cases hverdict : s.judge g (c.answer l g.problem asked).2 with
    | error e =>
      rw [hverdict] at h
      refine Or.inr ⟨fun s' solution hreaches => ?_, hkept (h.refused e h.answer v)⟩
      cases (h.of_reaches hreaches).1
    | ok solution =>
      rw [hverdict] at h
      cases hfeasible : solution.isFeasible with
      | false =>
        refine Or.inr ⟨fun s' solution' hreaches => ?_,
          hkept (h.valueless solution rfl hfeasible v)⟩
        have hvalues := hreaches.feasible
        rw [← Except.ok.inj (h.of_reaches hreaches).1, hfeasible] at hvalues
        cases hvalues
      | true =>
        by_cases hv : v ∈ g.vars
        · obtain ⟨i, hi⟩ := List.mem_iff_getElem?.mp hv
          obtain ⟨value, hvalue, hbare⟩ := h.assigned solution rfl hfeasible v i hi
          exact Or.inl ⟨_, solution, ⟨h.answer, h.solver, rfl, hfeasible, hv⟩,
            ⟨i, value, hi, hvalue, congrArg (fun x => x.assigned) hbare⟩⟩
        · refine Or.inr ⟨fun s' solution' hreaches => hv (h.of_reaches hreaches).2, ?_⟩
          rw [h.outside v hv]

/-- No solve of a course reaches the variable. -/
def Unreached (c : Conduct α μ) (v : VariableRef) (turns : List (Turn α μ))
    (ws : Workspace α μ) : Prop :=
  ∀ before l after, turns = before ++ .operate (.solve l) :: after →
    ∀ s solution, ¬ Reaches c l v (ws.course c before) s solution

theorem Unreached.cons {t : Turn α μ} {rest : List (Turn α μ)}
    (hfirst : ∀ l, t = .operate (.solve l) → ∀ s solution, ¬ Reaches c l v ws s solution)
    (hrest : Unreached c v rest (ws.turn c t)) : Unreached c v (t :: rest) ws := by
  intro before l after hsplit
  cases before with
  | nil =>
    obtain ⟨ht, -⟩ := List.cons_eq_cons.mp hsplit
    exact hfirst l ht
  | cons u before =>
    obtain ⟨rfl, hrest'⟩ := List.cons_eq_cons.mp hsplit
    exact hrest before l after hrest'

/-- The level of a variable after a course: the one it had, if no solve
reached it, and else the one that the latest solve that did gave it. -/
inductive LatestLevel (c : Conduct α μ) (v : VariableRef) (turns : List (Turn α μ))
    (ws : Workspace α μ) (assigned : Option (Level α)) : Prop
  | kept (hunreached : Unreached c v turns ws) (hlevel : assigned = (ws.variableAt v).assigned)
  | given (before after : List (Turn α μ)) {l : ListenerRef} {s : Solver α}
    {solution : Solution α} (hsplit : turns = before ++ .operate (.solve l) :: after)
    (hreaches : Reaches c l v (ws.course c before) s solution)
    (hunreached : Unreached c v after ((ws.course c before).solve c l).1)
    (hlevel : GivenBy s solution v assigned)

/-- The first turn of a course, before the rest of it. -/
theorem LatestLevel.cons (hbackends : c.QuietBackends) (hwell : ws.AllWellFormed)
    (hlt : v.index < ws.vars.length) {t : Turn α μ} {rest : List (Turn α μ)}
    (hunheard : Unheard c t) (hallowed : (Rule.solvesOnly v).Allows c t ws)
    {assigned : Option (Level α)} (h : LatestLevel c v rest (ws.turn c t) assigned) :
    LatestLevel c v (t :: rest) ws assigned := by
  cases h with
  | given before after hsplit hreaches hunreached hlevel =>
    refine .given (t :: before) after ?_ hreaches hunreached hlevel
    rw [hsplit, List.cons_append]
  | kept hunreached hlevel =>
    by_cases hsolve : ∃ l, t = .operate (.solve l)
    · obtain ⟨l, rfl⟩ := hsolve
      rcases assigned_solve hbackends hwell l v with
        ⟨s, solution, hreaches, hgiven⟩ | ⟨hnone, hkept⟩
      · exact .given [] rest rfl hreaches hunreached (hlevel ▸ hgiven)
      · refine .kept (hunreached.cons fun k hk => ?_) (hlevel.trans hkept)
        obtain rfl : l = k := by cases hk; rfl
        exact hnone
    · have hne : ∀ l, t ≠ .operate (.solve l) := fun l hl => hsolve ⟨l, hl⟩
      exact .kept (hunreached.cons fun l hl => absurd hl (hne l))
        (hlevel.trans (assigned_turn hbackends hunheard hallowed hne hlt))

theorem latestLevel_course (hbackends : c.QuietBackends) {turns : List (Turn α μ)}
    (hunheard : ∀ t ∈ turns, Unheard c t) (hallowed : (Rule.solvesOnly v).AllowsAll c turns ws)
    (hwell : ws.AllWellFormed) (hlt : v.index < ws.vars.length) :
    LatestLevel c v turns ws ((ws.course c turns).variableAt v).assigned := by
  induction turns generalizing ws with
  | nil =>
    refine .kept (fun before l after hsplit => ?_) rfl
    cases before <;> cases hsplit
  | cons t rest ih =>
    have ht := hunheard t List.mem_cons_self
    have hwell' : (ws.turn c t).AllWellFormed :=
      preserves_turn_unheard (preserves_allWellFormed (fun _ _ => trivial) fun _ _ h => h)
        hbackends ht hallowed.1 hwell
    have hlt' : v.index < (ws.turn c t).vars.length :=
      preserves_turn_unheard (preserves_index_lt fun _ _ => trivial) hbackends ht hallowed.1 hlt
    have hrest := ih (fun u hu => hunheard u (List.mem_cons_of_mem t hu)) hallowed.2 hwell' hlt'
    exact hrest.cons hbackends hwell hlt ht hallowed.1

/-! ## Solvers that share variables -/

/-- **Solvers do not interfere.** In every state that is reached, however a
solver is generated, solved and given up there, with any answers of its
backend, another listener is left as it is, a solver with its problem and its
solution; it stays attached to the variables it was attached to, and no
variable changes but for its level. And after any course from there, of solves
of several solvers and of whatever else does not assign the variable, its level
is as a whole that of the latest solve that succeeded with values and has a
column for it. -/
theorem solvers_do_not_interfere (hbackends : c.QuietBackends) (hreached : ws.Reached) :
    (∀ (a b : ListenerRef) (turns : List (Turn α μ)), a ≠ b → (∀ t ∈ turns, IsAbout b t) →
      (ws.course c turns).listener? a = ws.listener? a
        ∧ (ws.course c turns).solver? a = ws.solver? a
        ∧ (∀ s, ws.solver? a = some s → ∀ v, ((ws.course c turns).variableAt v).isAttached s.id
            = (ws.variableAt v).isAttached s.id)
        ∧ ∀ v, ∃ assigned, (ws.course c turns).bareAt v = { ws.bareAt v with assigned })
    ∧ ∀ (v : VariableRef) (turns : List (Turn α μ)), v.index < ws.vars.length →
      (∀ t ∈ turns, Unheard c t) → (Rule.solvesOnly v).AllowsAll c turns ws →
        LatestLevel c v turns ws ((ws.course c turns).variableAt v).assigned := by
  refine ⟨fun a b turns hab hturns => ?_, fun v turns hlt hunheard hallowed =>
    latestLevel_course hbackends hunheard hallowed hreached.allWellFormed hlt⟩
  have haside := aside_course hbackends hturns ws
  have hlistener := haside.others a hab
  refine ⟨hlistener, by rw [solver?, hlistener, solver?], fun s hs v => ?_, haside.bare⟩
  refine haside.attached v s.id fun hb => hab ?_
  exact hreached.distinctIds.inj (id?_of_solver? hs) hb

end Workspace

/-! ## A solve that finds nothing -/

/-- The first solver finds values for its variables, and others find none. -/
def firstFindsConduct : Conduct Exact Unit where
  receive _ _ _ ws := (ws, .ok ())
  answer l _ ws := (ws, .ok (if l = ⟨0⟩ then .found .optimal 1 [1, .finite (1 / 2)]
    else .ofStatus .infeasible ""))

/-- Two solvers over the same variables, the first of which has generated. -/
def sharingTurns : List (Turn Exact Unit) :=
  [.move (.newVariable (.nonnegative "x" .integer)),
    .move (.newVariable ⟨"y", .infinite true, 1, .continuous⟩),
    .move (.newSolver mergingModel ⟨"exact", true⟩ {}),
    .move (.newSolver mergingModel ⟨"exact", true⟩ {}), .operate (.generate ⟨0⟩)]

namespace Workspace

theorem reached_sharingTurns : Reached (course firstFindsConduct sharingTurns { memory := () }) :=
  ⟨firstFindsConduct, sharingTurns, (), .quiet (fun _ _ _ ws => .refl ws) (fun _ _ ws => .refl ws),
    ⟨trivial, trivial, show ∀ v ∈ mergingModel.vars, v.index < 2 by decide +kernel,
      show ∀ v ∈ mergingModel.vars, v.index < 2 by decide +kernel, trivial, trivial⟩, rfl⟩

/-- The second solver leaves the first as it is, and what the first gave the
second variable stays when the second finds nothing. -/
theorem level_sharingTurns :
    ((course firstFindsConduct sharingTurns { memory := () }).course firstFindsConduct
        [.operate (.generate ⟨1⟩), .operate (.solve ⟨1⟩), .operate (.drop ⟨1⟩)]).solver? ⟨0⟩
      = (course firstFindsConduct sharingTurns { memory := () }).solver? ⟨0⟩
    ∧ ∃ s solution, GivenBy s solution ⟨1⟩
        (((course firstFindsConduct sharingTurns { memory := () }).course firstFindsConduct
          [.operate (.solve ⟨0⟩), .operate (.solve ⟨1⟩)]).variableAt ⟨1⟩).assigned := by
  obtain ⟨haside, hlatest⟩ := solvers_do_not_interfere
    (c := firstFindsConduct) (fun _ _ ws => .refl ws) reached_sharingTurns
  obtain ⟨-, hsolver, -⟩ := haside ⟨0⟩ ⟨1⟩
    [.operate (.generate ⟨1⟩), .operate (.solve ⟨1⟩), .operate (.drop ⟨1⟩)] (by decide) (by
      intro t ht
      simp only [List.mem_cons, List.not_mem_nil, or_false] at ht
      exact ht)
  refine ⟨hsolver, ?_⟩
  cases hlatest ⟨1⟩ [.operate (.solve ⟨0⟩), .operate (.solve ⟨1⟩)] (by decide +kernel)
      (fun _ _ => Or.inr fun _ _ _ ws => .refl ws)
      ⟨⟨trivial, trivial, trivial⟩, ⟨trivial, trivial, trivial⟩, trivial⟩ with
  | given _ _ _ _ _ hgiven => exact ⟨_, _, hgiven⟩
  | kept _ hkept =>
    have hnone : ((course firstFindsConduct sharingTurns { memory := () }).variableAt
        ⟨1⟩).assigned = none := by decide +kernel
    have hsome : (((course firstFindsConduct sharingTurns { memory := () }).course
        firstFindsConduct [.operate (.solve ⟨0⟩), .operate (.solve ⟨1⟩)]).variableAt
          ⟨1⟩).assigned.isSome = true := by decide +kernel
    rw [hkept, hnone] at hsome
    cases hsome

end Workspace

end Milp
