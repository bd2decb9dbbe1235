/-
Milp.Proofs.DefinedBounds — no undefined bound.

A bound that is undefined is refused where a bound is set, so a variable
that is made with bounds that are numbers keeps them numbers, whatever is
done (`preserves_ownDefined`). Solvers and observers see other bounds as
well: those of a freeze are the variable's value, and a value may be
anything that a backend answered. They see numbers as long as the values of
frozen variables are numbers (`definedPins`): then no listener is told of an
undefined bound and no backend is given one, whoever the listeners and the
backends are (`bounds_defined`). A value that is undefined is pinned like
any other (`undefined_pin`).
-/
import Milp.Proofs.Clients

namespace Milp

variable {α μ : Type} [Scalar α]

/-! ## Defined bounds -/

/-- Both bounds are numbers. -/
def Scalar.Defined (lower upper : α) : Prop :=
  Scalar.isNaN lower = false ∧ Scalar.isNaN upper = false

/-- Every bound that a change tells of is a number. -/
def Change.Defined : Change α → Prop
  | .bound _ b => Scalar.isNaN b = false
  | .bounds lower upper => Scalar.Defined lower upper
  | _ => True

theorem Column.defined_apply {column : Column α} {change : Change α}
    (h : Scalar.Defined column.lower column.upper) (hchange : change.Defined) :
    Scalar.Defined (column.apply change).lower (column.apply change).upper := by
  cases change with
  | bound side b =>
    cases side with
    | lower => exact ⟨hchange, h.2⟩
    | upper => exact ⟨h.1, hchange⟩
  | bounds lower upper => exact hchange
  | kind kind => exact h
  | name name => exact h

namespace EditCase

variable {op : Operation α} {v : VariableRef} {x : Variable α} {e : Edit α}

/-- What is stored by a change leaves bounds that are numbers. -/
theorem defined_store (hcase : EditCase x op e) (h : Scalar.Defined x.lower x.upper) :
    Scalar.Defined (x.write e.store).lower (x.write e.store).upper := by
  have hbound : ∀ side b, Scalar.isNaN b = false →
      Scalar.Defined (x.withBound side b).lower (x.withBound side b).upper := by
    intro side b hnumber
    cases side with
    | lower => exact ⟨hnumber, h.2⟩
    | upper => exact ⟨h.1, hnumber⟩
  cases hcase with
  | bound hnumber _ => exact hbound _ _ hnumber
  | held hnumber _ => exact hbound _ _ hnumber
  | _ => exact h

/-- Only a freeze makes a variable frozen. -/
theorem frozen_store (hcase : EditCase x op e)
    (hfrozen : (x.write e.store).freeze.isFrozen = true) :
    x.freeze.isFrozen = true ∨ ∃ v, op = .freeze v := by
  cases hcase with
  | name _ => exact Or.inl hfrozen
  | kind _ => exact Or.inl hfrozen
  | bound _ _ =>
    rw [Variable.write, Variable.freeze_withBound] at hfrozen
    exact Or.inl hfrozen
  | held _ hheld => exact Or.inl hheld
  | pin _ _ => exact Or.inr ⟨_, rfl⟩
  | nested hnested => exact Or.inl hnested
  | restore hlast =>
    rw [hlast]
    exact Or.inl rfl
  | release hmore =>
    rw [← Freeze.isFrozen_release_of_ne hmore]
    exact Or.inl hfrozen

/-- The news of a change tells of numbers, if a frozen variable's bounds are
numbers, and the value of one that is to be frozen. -/
theorem defined_news {action : Action} {change : Change α} (hcase : EditCase x op e)
    (hnews : e.news = some (action, change))
    (hown : x.freeze.isFrozen = true → Scalar.Defined x.lower x.upper)
    (hvalue : ∀ v level, op = .freeze v → x.assigned = some level →
      Scalar.isNaN level.value = false) : change.Defined := by
  cases hcase with
  | name _ =>
    cases hnews
    trivial
  | kind _ =>
    cases hnews
    trivial
  | bound hnumber _ =>
    cases hnews
    exact hnumber
  | pin _ hp =>
    cases hnews
    obtain ⟨level, hlevel, rfl⟩ := Variable.exists_level_of_value hp
    exact ⟨hvalue _ level rfl hlevel, hvalue _ level rfl hlevel⟩
  | restore hlast =>
    cases hnews
    exact hown (by rw [hlast]; rfl)
  | held _ _ => cases hnews
  | nested _ => cases hnews
  | release _ => cases hnews

end EditCase

namespace Workspace

variable {ws ws' : Workspace α μ} {l : ListenerRef} {v w : VariableRef}

/-! ## The bounds of the variables -/

/-- Every variable has bounds that are numbers. -/
def OwnDefined (ws : Workspace α μ) : Prop :=
  ∀ v, v.index < ws.vars.length → Scalar.Defined (ws.bareAt v).lower (ws.bareAt v).upper

theorem OwnDefined.of_bounds (h : ws.OwnDefined) (hsize : ws'.vars.length = ws.vars.length)
    (hbounds : ∀ v, (ws'.bareAt v).lower = (ws.bareAt v).lower
      ∧ (ws'.bareAt v).upper = (ws.bareAt v).upper) : ws'.OwnDefined := by
  intro v hv
  rw [(hbounds v).1, (hbounds v).2]
  exact h v (hsize ▸ hv)

theorem OwnDefined.of_bareAt (h : ws.OwnDefined) (hsize : ws'.vars.length = ws.vars.length)
    (hbare : ws'.bareAt = ws.bareAt) : ws'.OwnDefined :=
  h.of_bounds hsize fun v => ⟨by rw [hbare], by rw [hbare]⟩

theorem OwnDefined.write (h : ws.OwnDefined) {op : Operation α} {e : Edit α}
    (hedit : op.edit? (ws.variableAt v) = some e) : (ws.write v e.store).OwnDefined := by
  intro w hw
  rw [Workspace.write, (sameListeners_updateVariable ws v _).size] at hw
  by_cases hwv : w = v
  · subst hwv
    have hstored : (ws.write w e.store).variableAt w = (ws.variableAt w).write e.store :=
      variableAt_updateVariable_self hw _
    rw [bareAt, hstored]
    exact (Operation.editCase hedit).defined_store (h w hw)
  · rw [bareAt, Workspace.write, variableAt_updateVariable_of_ne hwv]
    exact h w hw

theorem OwnDefined.assign (h : ws.OwnDefined) (v : VariableRef) (level : Level α) :
    (ws.assign v level).OwnDefined := by
  refine h.of_bounds (sameListeners_assign ws v level).size fun w => ?_
  rw [bareAt, variableAt_assign]
  split
  · exact ⟨rfl, rfl⟩
  · exact ⟨rfl, rfl⟩

theorem OwnDefined.settle (h : ws.OwnDefined) (l : ListenerRef) (s : Solver α) (g : Generated α)
    (solution : Solution α) : (ws.settle l s g solution).OwnDefined := by
  have hsize : (ws.settle l s g solution).vars.length = ws.vars.length :=
    (sameListeners_settled ws s g solution).size
  refine h.of_bounds hsize fun v => ?_
  obtain ⟨assigned, hassigned⟩ := exists_bareAt_settle ws l s g solution v
  rw [hassigned]
  exact ⟨rfl, rfl⟩

theorem OwnDefined.newVariable (h : ws.OwnDefined) {spec : VariableSpec α}
    (hspec : Scalar.Defined spec.lower spec.upper) : (ws.newVariable spec).1.OwnDefined := by
  intro v hv
  rw [bareAt, variableAt_newVariable]
  split
  · exact hspec
  · next hne =>
    have hsize := size_newVariable ws spec
    exact h v (by omega)

end Workspace

open Workspace

/-- Variables are made with bounds that are numbers. -/
def definedSpecs : Rule α μ where
  spec spec := Scalar.Defined spec.lower spec.upper

/-- Bounds that are numbers stay numbers, whatever is done. -/
theorem preserves_ownDefined : (definedSpecs : Rule α μ).Preserves OwnDefined where
  apart := fun hsame _ hbare h => h.of_bareAt hsame.size hbare
  standing := fun _ _ h => h
  hold := fun _ h => h
  write := fun _ _ hedit h => ⟨h.write hedit, fun _ _ _ => trivial⟩
  tell := fun {ws l v change} _ h =>
    h.of_bareAt (congrArg List.length (vars_tellSolver ws l v change))
      (bareAt_of_vars (vars_tellSolver ws l v change))
  assign := fun _ h => h.assign _ _
  generate := fun _ h => h.of_bareAt (length_vars_generate ..) (bareAt_generate ..)
  forget := fun _ h => h
  settle := fun _ _ _ _ _ h _ _ => h.settle _ _ _ _
  newVariable := fun hspec h => h.newVariable hspec
  newSolver := fun _ h => h
  newObserver := fun h => h

namespace Workspace

variable {ws ws' : Workspace α μ} {l : ListenerRef} {v w : VariableRef}

/-! ## The bounds that are shown -/

/-- Every bound that a solver has, or would get by generating, is a number. -/
structure Clean (ws : Workspace α μ) : Prop where
  own : ws.OwnDefined
  pinned : ∀ {v level}, (ws.bareAt v).freeze.isFrozen = true →
    (ws.bareAt v).assigned = some level → Scalar.isNaN level.value = false
  inRange : ∀ {l s v}, ws.solver? l = some s → v ∈ s.model.vars → v.index < ws.vars.length
  column : ∀ {l s g column}, ws.solver? l = some s → s.generated = some g →
    column ∈ g.problem.columns → Scalar.Defined column.lower column.upper

theorem Clean.effectiveBounds (h : ws.Clean) (hv : v.index < ws.vars.length) :
    Scalar.Defined (ws.variableAt v).effectiveBounds.1 (ws.variableAt v).effectiveBounds.2 := by
  cases hfrozen : (ws.variableAt v).freeze.isFrozen with
  | false =>
    rw [Variable.effectiveBounds_of_not_frozen hfrozen]
    exact h.own v hv
  | true =>
    cases hassigned : (ws.variableAt v).assigned with
    | none =>
      have hbounds : (ws.variableAt v).effectiveBounds
          = ((ws.variableAt v).lower, (ws.variableAt v).upper) := by
        simp only [Variable.effectiveBounds, hassigned, hfrozen]
      rw [hbounds]
      exact h.own v hv
    | some level =>
      rw [Variable.effectiveBounds_of_frozen hfrozen hassigned]
      exact ⟨h.pinned hfrozen hassigned, h.pinned hfrozen hassigned⟩

end Workspace

/-- Variables have bounds that are numbers, models are over variables that
are there, and the value of a variable is a number when it is frozen and as
long as it is. Solvers hear of bounds from the variables, or of numbers. -/
def definedPins : Rule α μ where
  edit op ws := ∀ v level, op = .freeze v → (ws.variableAt v).assigned = some level →
    Scalar.isNaN level.value = false
  tell _ change := change.Defined
  assign v level ws := (ws.variableAt v).freeze.isFrozen = true →
    Scalar.isNaN level.value = false
  outcome vars := ∀ v level, (vars v).freeze.isFrozen = true → (vars v).assigned = some level →
    Scalar.isNaN level.value = false
  spec spec := Scalar.Defined spec.lower spec.upper
  model model ws := ∀ v ∈ model.vars, v.index < ws.vars.length

namespace Workspace

variable {ws ws' : Workspace α μ} {l : ListenerRef} {v w : VariableRef}

/-- Solvers keep their models and their problems. -/
theorem Clean.of_solvers (h : ws.Clean) (hown : ws'.OwnDefined)
    (hpinned : ∀ v level, (ws'.bareAt v).freeze.isFrozen = true →
      (ws'.bareAt v).assigned = some level → Scalar.isNaN level.value = false)
    (hsize : ws'.vars.length = ws.vars.length)
    (hsolver : ∀ l s', ws'.solver? l = some s' →
      ∃ s, ws.solver? l = some s ∧ s'.model = s.model ∧ s'.generated = s.generated) :
    ws'.Clean where
  own := hown
  pinned := hpinned _ _
  inRange := by
    intro l s' v hs' hv
    obtain ⟨s, hs, hmodel, -⟩ := hsolver l s' hs'
    rw [hsize]
    exact h.inRange hs (hmodel ▸ hv)
  column := by
    intro l s' g column hs' hg
    obtain ⟨s, hs, -, hsame⟩ := hsolver l s' hs'
    exact h.column hs (hsame ▸ hg)

/-- Nothing happens to a solver. -/
theorem Clean.of_sameListeners (h : ws.Clean) (hsame : ws.SameListeners ws')
    (hown : ws'.OwnDefined) (hpinned : ∀ v level, (ws'.bareAt v).freeze.isFrozen = true →
      (ws'.bareAt v).assigned = some level → Scalar.isNaN level.value = false) : ws'.Clean :=
  h.of_solvers hown hpinned hsame.size fun l s hs =>
    ⟨s, (hsame.solver? l).symm.trans hs, rfl, rfl⟩

/-- Nothing happens to a variable. -/
theorem Clean.of_vars (h : ws.Clean) (hvars : ws'.vars = ws.vars)
    (hsolver : ∀ l s', ws'.solver? l = some s' →
      ∃ s, ws.solver? l = some s ∧ s'.model = s.model ∧ s'.generated = s.generated) :
    ws'.Clean := by
  have hbare := bareAt_of_vars hvars
  have hsize : ws'.vars.length = ws.vars.length := congrArg List.length hvars
  refine h.of_solvers (h.own.of_bareAt hsize hbare) (fun v level => ?_) hsize hsolver
  rw [hbare]
  exact h.pinned

theorem Clean.write (h : ws.Clean) {op : Operation α} {e : Edit α}
    (hedit : op.edit? (ws.variableAt v) = some e)
    (hrule : ∀ w level, op = .freeze w → (ws.variableAt w).assigned = some level →
      Scalar.isNaN level.value = false)
    (hop : op.target? = some v) : (ws.write v e.store).Clean := by
  refine h.of_sameListeners (sameListeners_updateVariable ws v _) (h.own.write hedit) ?_
  intro w level hfrozen hassigned
  by_cases hwv : w = v
  · subst hwv
    by_cases hrange : w.index < ws.vars.length
    · have hstored : (ws.write w e.store).variableAt w = (ws.variableAt w).write e.store :=
        variableAt_updateVariable_self hrange _
      rw [bareAt, hstored] at hfrozen hassigned
      have hbefore : (ws.variableAt w).assigned = some level :=
        (Variable.assigned_write _ e.store).symm.trans hassigned
      rcases (Operation.editCase hedit).frozen_store hfrozen with hfrozen | ⟨w', rfl⟩
      · exact h.pinned hfrozen hbefore
      · obtain rfl := Option.some.inj hop
        exact hrule _ level rfl hbefore
    · rw [bareAt, Workspace.write, variableAt_updateVariable, if_neg fun hw => hrange hw.2]
        at hfrozen hassigned
      exact h.pinned hfrozen hassigned
  · rw [bareAt, Workspace.write, variableAt_updateVariable_of_ne hwv] at hfrozen hassigned
    exact h.pinned hfrozen hassigned

/-- A frozen variable is there, and its bounds are numbers. -/
theorem Clean.defined_of_frozen (h : ws.Clean)
    (hfrozen : (ws.variableAt v).freeze.isFrozen = true) :
    Scalar.Defined (ws.variableAt v).lower (ws.variableAt v).upper := by
  refine h.own v ?_
  by_contra hge
  rw [variableAt_of_length_le (Nat.le_of_not_lt hge)] at hfrozen
  cases hfrozen

omit [Scalar α] in
/-- A column after a change is an old one, or one that heard of it. -/
theorem mem_columns_hear {g : Generated α} {change : Change α} {column : Column α}
    (hcolumn : column ∈ (g.hear v change).problem.columns) :
    column ∈ g.problem.columns ∨ ∃ old ∈ g.problem.columns, column = old.apply change := by
  unfold Generated.hear at hcolumn
  split at hcolumn
  · next i _ =>
    obtain ⟨j, hj⟩ := List.mem_iff_getElem?.mp hcolumn
    rw [Generated.updateColumn, List.getElem?_modify] at hj
    obtain ⟨old, hold, hsame⟩ := Option.map_eq_some_iff.mp hj
    by_cases hij : i = j
    · refine Or.inr ⟨old, List.mem_of_getElem? hold, ?_⟩
      rw [← hsame, if_pos hij]
    · rw [if_neg hij] at hsame
      exact Or.inl (hsame ▸ List.mem_of_getElem? hold)
  · exact Or.inl hcolumn

theorem Clean.tell (h : ws.Clean) {change : Change α} (hchange : change.Defined) :
    (ws.tellSolver l v change).Clean := by
  have hbare := bareAt_of_vars (vars_tellSolver ws l v change)
  have hsize : (ws.tellSolver l v change).vars.length = ws.vars.length :=
    congrArg List.length (vars_tellSolver ws l v change)
  refine ⟨h.own.of_bareAt hsize hbare, ?_, ?_, ?_⟩
  · rw [hbare]
    exact h.pinned
  · intro k s w hs hw
    rw [hsize]
    rw [solver?_tellSolver] at hs
    split at hs
    · obtain ⟨s₀, hs₀, rfl⟩ := Option.map_eq_some_iff.mp hs
      exact h.inRange hs₀ hw
    · exact h.inRange hs hw
  · intro k s g column hs hg hcolumn
    rw [solver?_tellSolver] at hs
    split at hs
    · obtain ⟨s₀, hs₀, rfl⟩ := Option.map_eq_some_iff.mp hs
      obtain ⟨g₀, hg₀, rfl⟩ := Option.map_eq_some_iff.mp hg
      rcases mem_columns_hear hcolumn with hold | ⟨old, hold, rfl⟩
      · exact h.column hs₀ hg₀ hold
      · exact Column.defined_apply (h.column hs₀ hg₀ hold) hchange
    · exact h.column hs hg hcolumn

theorem Clean.assign (h : ws.Clean) {level : Level α}
    (hlevel : (ws.variableAt v).freeze.isFrozen = true → Scalar.isNaN level.value = false) :
    (ws.assign v level).Clean := by
  refine h.of_sameListeners (sameListeners_assign ws v level) (h.own.assign v level) ?_
  intro w level' hfrozen hassigned
  rw [bareAt, variableAt_assign] at hfrozen hassigned
  split at hfrozen
  · next hw =>
    rw [if_pos hw] at hassigned
    obtain rfl := Option.some.inj hassigned
    exact hlevel (hw.1 ▸ hfrozen)
  · next hw =>
    rw [if_neg hw] at hassigned
    exact h.pinned hfrozen hassigned

/-- A solver that generates gets the effective bounds. -/
theorem Clean.generate (h : ws.Clean) (l : ListenerRef) : (ws.generate l).1.Clean := by
  have hbare := bareAt_generate ws l
  have hsize := length_vars_generate ws l
  refine ⟨h.own.of_bareAt hsize hbare, ?_, ?_, ?_⟩
  · rw [hbare]
    exact h.pinned
  · intro k s v hs hv
    rw [hsize]
    rw [solver?_generate_map] at hs
    split at hs
    · obtain ⟨s₀, hs₀, rfl⟩ := Option.map_eq_some_iff.mp hs
      exact h.inRange hs₀ hv
    · exact h.inRange hs hv
  · intro k s g column hs hg hcolumn
    rw [solver?_generate_map] at hs
    split at hs
    · obtain ⟨s₀, hs₀, rfl⟩ := Option.map_eq_some_iff.mp hs
      obtain rfl := Option.some.inj hg
      obtain ⟨v, hv, rfl⟩ := List.mem_map.mp hcolumn
      exact h.effectiveBounds (h.inRange hs₀ hv)
    · exact h.column hs hg hcolumn

theorem Clean.settle (h : ws.Clean) {s : Solver α} {g : Generated α} {solution : Solution α}
    (houtcome : ∀ v level, ((ws.settle l s g solution).bareAt v).freeze.isFrozen = true →
      ((ws.settle l s g solution).bareAt v).assigned = some level →
      Scalar.isNaN level.value = false) : (ws.settle l s g solution).Clean := by
  refine h.of_solvers (h.own.settle l s g solution) houtcome
    (sameListeners_settled ws s g solution).size fun k s' hs' => ?_
  rw [solver?_settle_map] at hs'
  split at hs'
  · obtain ⟨s₀, hs₀, rfl⟩ := Option.map_eq_some_iff.mp hs'
    exact ⟨s₀, hs₀, rfl, rfl⟩
  · exact ⟨s', hs', rfl, rfl⟩

theorem Clean.newVariable (h : ws.Clean) {spec : VariableSpec α}
    (hspec : Scalar.Defined spec.lower spec.upper) : (ws.newVariable spec).1.Clean where
  own := h.own.newVariable hspec
  pinned := by
    intro v level hfrozen hassigned
    rw [bareAt, variableAt_newVariable] at hfrozen hassigned
    split at hfrozen
    · cases hfrozen
    · next hne =>
      rw [if_neg hne] at hassigned
      exact h.pinned hfrozen hassigned
  inRange := by
    intro l s v hs hv
    have hsize := size_newVariable ws spec
    have hold := h.inRange (l := l) hs hv
    omega
  column := fun hs => h.column (l := _) hs

/-- A new solver has no problem. -/
theorem Clean.newListener (h : ws.Clean) {role : SolverId → Role α}
    (hrole : ∀ id s, role id = .solver s →
      s.generated = none ∧ ∀ v ∈ s.model.vars, v.index < ws.vars.length) :
    (ws.newListener role).1.Clean where
  own := h.own
  pinned := h.pinned
  inRange := by
    intro k s v hs hv
    rcases solver?_newListener_cases hs with hnew | hs
    · exact (hrole _ s hnew).2 v hv
    · exact h.inRange hs hv
  column := by
    intro k s g column hs hg
    rcases solver?_newListener_cases hs with hnew | hs
    · rw [(hrole _ s hnew).1] at hg
      cases hg
    · exact h.column hs hg

/-- Under the rule every bound that is shown stays a number. -/
theorem preserves_clean : (definedPins : Rule α μ).Preserves Clean where
  apart := fun hsame _ hbare h => by
    refine h.of_sameListeners hsame (h.own.of_bareAt hsame.size hbare) fun v level => ?_
    rw [hbare]
    exact h.pinned
  standing := fun hf _ h => h.of_vars rfl fun k s hs =>
    ⟨s, (solver?_updateStanding hf _ _ k).symm.trans hs, rfl, rfl⟩
  hold := fun _ h => h.of_vars rfl fun k s hs =>
    ⟨s, (solver?_hold _ _ k).symm.trans hs, rfl, rfl⟩
  write := fun hop hrule hedit h => ⟨h.write hedit hrule hop, fun _ _ hnews =>
    (Operation.editCase hedit).defined_news hnews h.defined_of_frozen fun v level hfreeze => by
      subst hfreeze
      obtain rfl := Option.some.inj hop
      exact hrule _ level rfl⟩
  tell := fun hchange h => h.tell hchange
  assign := fun hlevel h => h.assign hlevel
  generate := fun _ h => h.generate _
  forget := fun {ws l} _ h => h.of_vars rfl fun k s hs => by
    rw [solver?_updateSolver] at hs
    split at hs
    · obtain ⟨s₀, hs₀, rfl⟩ := Option.map_eq_some_iff.mp hs
      exact ⟨s₀, hs₀, rfl, rfl⟩
    · exact ⟨s, hs, rfl, rfl⟩
  settle := fun _ _ _ _ _ h _ houtcome => h.settle houtcome
  newVariable := fun hspec h => h.newVariable hspec
  newSolver := fun hmodel h => h.newListener fun id s hs => by
    cases hs
    exact ⟨rfl, hmodel⟩
  newObserver := fun h => h.newListener fun id s hs => by cases hs

/-! ## What listeners and backends see -/

variable {c c' : Conduct α μ}

/-- A turn calls clients with bounds that are numbers, and with no others. -/
theorem Clean.turn_congr (h : ws.Clean)
    (hreceive : ∀ l v change asked, change.Defined →
      c'.receive l v change asked = c.receive l v change asked)
    (hanswer : ∀ l (p : Problem α) asked,
      (∀ column ∈ p.columns, Scalar.Defined column.lower column.upper) →
      c'.answer l p asked = c.answer l p asked)
    {t : Turn α μ} (hallowed : definedPins.Allows c t ws) : ws.turn c' t = ws.turn c t := by
  have hedit : ∀ {op : Operation α} {v : VariableRef}, op.target? = some v →
      definedPins.edit op ws → ws.perform c' op = ws.perform c op := by
    intro op v hop hrule
    refine perform_congr hop fun store action change hedit => ?_
    have hdefined : change.Defined :=
      (preserves_clean.write hop hrule hedit h).2 action change rfl
    exact tellListeners_congr (fun l asked => hreceive l v change asked hdefined) action _
  cases t with
  | move m =>
    cases m with
    | operate op =>
      cases op with
      | setName v name => exact congrArg Prod.fst (hedit rfl (hallowed rfl))
      | setBound side v b => exact congrArg Prod.fst (hedit rfl (hallowed rfl))
      | setKind v kind => exact congrArg Prod.fst (hedit rfl (hallowed rfl))
      | freeze v => exact congrArg Prod.fst (hedit rfl (hallowed rfl))
      | unfreeze v => exact congrArg Prod.fst (hedit rfl (hallowed rfl))
      | solve l =>
        refine fst_solve_congr fun s g hs hg asked => hanswer l g.problem asked fun column => ?_
        exact (preserves_clean.prepare trivial trivial h).column hs hg
      | _ => rfl
    | _ => rfl
  | _ => rfl

/-- A course calls clients with bounds that are numbers, and with no others. -/
theorem Clean.course_congr (hkeeps : c.Keeps Clean) (h : ws.Clean)
    (hreceive : ∀ l v change asked, change.Defined →
      c'.receive l v change asked = c.receive l v change asked)
    (hanswer : ∀ l (p : Problem α) asked,
      (∀ column ∈ p.columns, Scalar.Defined column.lower column.upper) →
      c'.answer l p asked = c.answer l p asked)
    {turns : List (Turn α μ)} (hallowed : definedPins.AllowsAll c turns ws) :
    ws.course c' turns = ws.course c turns := by
  induction turns generalizing ws with
  | nil => rfl
  | cons t rest ih =>
    have hfirst := preserves_clean.turn hkeeps hallowed.1 h
    rw [course, course, h.turn_congr hreceive hanswer hallowed.1]
    exact ih hfirst hallowed.2

theorem clean_empty (memory : μ) : Clean ({ memory } : Workspace α μ) where
  own := fun v hv => absurd hv (Nat.not_lt_zero _)
  pinned := fun hfrozen => by cases hfrozen
  inRange := fun hs => by cases hs
  column := fun hs => by cases hs

/-- Variables that are made with bounds that are numbers keep such bounds,
whatever is done. If moreover values are numbers where variables are frozen,
then no listener is told of an undefined bound and no backend is given one:
clients that would do anything else if they were would make no difference. -/
theorem bounds_defined (hspecs : c.Follows definedSpecs OwnDefined) (hclean : ws.Clean)
    {turns : List (Turn α μ)} (hmade : definedSpecs.AllowsAll c turns ws) :
    (∀ v, v.index < (ws.course c turns).vars.length →
      Scalar.Defined ((ws.course c turns).variableAt v).lower
        ((ws.course c turns).variableAt v).upper)
    ∧ (c.Follows definedPins Clean → definedPins.AllowsAll c turns ws →
      (∀ l s g, (ws.course c turns).solver? l = some s → s.generated = some g →
        ∀ column ∈ g.problem.columns, Scalar.Defined column.lower column.upper)
      ∧ ∀ c' : Conduct α μ,
        (∀ l v change asked, change.Defined →
          c'.receive l v change asked = c.receive l v change asked) →
        (∀ l (p : Problem α) asked,
          (∀ column ∈ p.columns, Scalar.Defined column.lower column.upper) →
          c'.answer l p asked = c.answer l p asked) →
        ws.course c' turns = ws.course c turns) := by
  have hown : (ws.course c turns).OwnDefined :=
    preserves_ownDefined.course id hspecs hmade hclean.own
  refine ⟨hown, fun hpins hallowed => ⟨fun l s g hs hg column => ?_, fun c' hreceive hanswer => ?_⟩⟩
  · exact (preserves_clean.course id hpins hallowed hclean).column hs hg
  · exact hclean.course_congr (preserves_clean.keeps id hpins) hreceive hanswer hallowed

end Workspace

/-! ## Clients that note what they see -/

/-- Observers and backends note the pairs of bounds they are told and given. -/
def notingConduct : Conduct Exact (List (Exact × Exact)) where
  receive _ _ change ws :=
    match change with
    | .bounds lower upper => ({ ws with memory := (lower, upper) :: ws.memory }, .ok ())
    | _ => (ws, .ok ())
  answer _ p ws :=
    ({ ws with memory := p.columns.map (fun column => (column.lower, column.upper)) ++ ws.memory },
      .ok (.ofStatus .infeasible ""))

/-- A variable with a solver and an observer gets an undefined bound, which is
refused, and a value; then it is frozen, and the solver solves. -/
def frozenTurns (value : Exact) : List (Turn Exact (List (Exact × Exact))) :=
  [.move (.newVariable ⟨"x", 0, .finite 10, .continuous⟩),
    .move (.newSolver pointModel ⟨"exact", true⟩ {}), .move .newObserver, .operate (.generate ⟨0⟩),
    .operate (.attach ⟨0⟩ ⟨1, ⟨1⟩⟩), .operate (.setBound .upper ⟨0⟩ .undefined),
    .operate (.assign ⟨0⟩ ⟨⟨0, 0⟩, value, 0⟩), .operate (.freeze ⟨0⟩), .operate (.solve ⟨0⟩)]

namespace Workspace

theorem quietObservers_notingConduct : notingConduct.QuietObservers := by
  intro l v change ws
  cases change with
  | bounds lower upper => exact ⟨_, _, rfl⟩
  | bound side b => exact .refl ws
  | kind kind => exact .refl ws
  | name name => exact .refl ws

theorem quietBackends_notingConduct : notingConduct.QuietBackends := fun _ _ _ => ⟨_, _, rfl⟩

theorem allowsAll_frozenTurns (value : Exact) :
    definedSpecs.AllowsAll notingConduct (frozenTurns value) { memory := [] } :=
  ⟨⟨by decide +kernel, by decide +kernel⟩, trivial, trivial, trivial, fun _ => trivial,
    fun _ => trivial, trivial, fun _ => trivial, ⟨trivial, trivial, trivial⟩, trivial⟩

theorem allowsAll_frozenTurns_one :
    definedPins.AllowsAll notingConduct (frozenTurns 1) { memory := [] } := by
  have hfreeze : ∀ v level, Operation.freeze ⟨0⟩ = (.freeze v : Operation Exact) →
      (Workspace.variableAt (course notingConduct ((frozenTurns 1).take 7) { memory := [] })
        v).assigned = some level → Scalar.isNaN level.value = false := by
    intro v level hop hassigned
    cases hop
    have hlevel : (Workspace.variableAt (course notingConduct ((frozenTurns 1).take 7)
        { memory := [] }) ⟨0⟩).assigned = some ⟨⟨0, 0⟩, 1, 0⟩ := by decide +kernel
    obtain rfl := Option.some.inj (hlevel.symm.trans hassigned)
    decide +kernel
  have houtcome : ∀ v level, ((course notingConduct (frozenTurns 1) { memory := [] }).bareAt
        v).freeze.isFrozen = true →
      ((course notingConduct (frozenTurns 1) { memory := [] }).bareAt v).assigned = some level →
      Scalar.isNaN level.value = false := by
    intro v level hfrozen hassigned
    have hsize : (course notingConduct (frozenTurns 1) { memory := [] }).vars.length = 1 := by
      decide +kernel
    obtain ⟨_ | i⟩ := v
    · have hlevel : (Workspace.bareAt (course notingConduct (frozenTurns 1) { memory := [] })
          ⟨0⟩).assigned = some ⟨⟨0, 0⟩, 1, 0⟩ := by decide +kernel
      obtain rfl := Option.some.inj (hlevel.symm.trans hassigned)
      decide +kernel
    · rw [bareAt, variableAt_of_length_le (by rw [hsize]; exact Nat.le_add_left 1 i)] at hassigned
      cases hassigned
  exact ⟨⟨by decide +kernel, by decide +kernel⟩,
    show ∀ v ∈ pointModel.vars, v.index < 1 by decide +kernel, trivial, trivial,
    (fun h => by cases h), (fun _ v level h => by cases h), (fun _ => by decide +kernel),
    fun _ => hfreeze, ⟨trivial, trivial, houtcome⟩, trivial⟩

/-- With the value `1`, nobody sees an undefined bound. -/
theorem defined_frozenTurns : (∀ l s g,
    (course notingConduct (frozenTurns 1) { memory := [] }).solver? l = some s →
    s.generated = some g →
    ∀ column ∈ g.problem.columns, Scalar.Defined column.lower column.upper)
    ∧ (course notingConduct (frozenTurns 1) { memory := [] }).memory = [(1, 1), (1, 1)] := by
  have hfollows : ∀ rule C, notingConduct.Follows rule C := fun rule C =>
    .quiet quietObservers_notingConduct quietBackends_notingConduct
  have hbounds := bounds_defined (hfollows _ _) (clean_empty []) (allowsAll_frozenTurns 1)
  exact ⟨(hbounds.2 (hfollows _ _) allowsAll_frozenTurns_one).1, by decide +kernel⟩

/-- With an undefined value, the observer is told of undefined bounds and the
backend is given a column that has them. -/
theorem undefined_pin : definedSpecs.AllowsAll notingConduct (frozenTurns .undefined) { memory := [] }
    ∧ (course notingConduct (frozenTurns .undefined) { memory := [] }).memory
      = [(.undefined, .undefined), (.undefined, .undefined)] :=
  ⟨allowsAll_frozenTurns .undefined, by decide +kernel⟩

end Workspace

end Milp
