/-
Milp.Proofs.RequestedColumns — the columns of solvers follow what is asked for.

While a variable is frozen its solvers keep the pinned value, and a bound that is
set is held back; the last release tells of both bounds at once. So a solver that
hears of everything has the variable's own bounds in its column whenever the
variable is not frozen (`FitsAt.perform`), whatever was set, frozen, released or
assigned in between.

A bound itself is within the tolerance of what was last asked for, and so is the
column (`bound_requests_reach_columns`): steps that are each too small to be told
do not add up.
-/
import Milp.Proofs.BoundRequests
import Milp.Proofs.DefinedBounds
import Milp.Proofs.FreezeProtocol

namespace Milp

variable {α μ : Type}

/-! ## Columns that fit -/

/-- One of the two bounds of a new variable. -/
def VariableSpec.bound (spec : VariableSpec α) : Side → α
  | .lower => spec.lower
  | .upper => spec.upper

/-- One of the two bounds of a column. -/
def Column.bound (column : Column α) : Side → α
  | .lower => column.lower
  | .upper => column.upper

/-- A column has the bounds of a variable, unless the variable is frozen. -/
def Column.Fits (column : Column α) (x : Variable α) : Prop :=
  x.freeze.isFrozen = false → ∀ side, column.bound side = x.bound side

theorem Column.fits_columnOf (x : Variable α) : (Generated.columnOf x).Fits x := by
  intro hfree side
  rw [Generated.columnOf, Variable.effectiveBounds_of_not_frozen hfree]
  cases side <;> rfl

/-- Whether a column fits a variable is not seen in its handles. -/
theorem Column.Fits.of_bare {column : Column α} {x y : Variable α} (h : column.Fits x)
    (hbare : y.bare = x.bare) : column.Fits y := by
  intro hfree side
  rw [Variable.freeze_eq_of_bare hbare] at hfree
  rw [h hfree side, ← Variable.bound_bare x, ← hbare, Variable.bound_bare]

namespace EditCase

variable [Scalar α] {op : Operation α} {x : Variable α} {e : Edit α} {column : Column α}

/-- What is stored and not told leaves a column fitting: a bound is held back only
while the variable is frozen. -/
theorem fits_of_untold (hcase : EditCase x op e) (hnews : e.news = none) (h : column.Fits x) :
    column.Fits (x.write e.store) := by
  cases hcase with
  | name _ | kind _ | bound _ _ | pin _ _ | restore _ => cases hnews
  | held hnumber hfrozen =>
    intro hfree
    rw [Variable.write, Variable.freeze_withBound, hfrozen] at hfree
    cases hfree
  | nested hfrozen =>
    intro hfree
    rw [Variable.write, Freeze.isFrozen_deepen] at hfree
    cases hfree
  | release hmore =>
    intro hfree
    rw [Variable.write, Freeze.isFrozen_release_of_ne hmore] at hfree
    exact fun side => h hfree side

/-- What is told makes a column fit again. -/
theorem fits_of_told {action : Action} {change : Change α} (hcase : EditCase x op e)
    (hnews : e.news = some (action, change)) (h : column.Fits x) :
    (column.apply change).Fits (x.write e.store) := by
  cases hcase with
  | held _ _ | nested _ | release _ => cases hnews
  | name _ | kind _ =>
    cases hnews
    intro hfree side
    have hside := h hfree side
    cases side <;> exact hside
  | @bound s w b _ hfree =>
    cases hnews
    intro _ side
    have hside := h hfree side
    cases s <;> cases side <;> first | rfl | exact hside
  | pin hfree hvalue =>
    cases hnews
    intro hreleased
    rw [Variable.write, Freeze.isFrozen_deepen] at hreleased
    cases hreleased
  | restore hlast =>
    cases hnews
    exact fun _ side => by cases side <;> rfl

end EditCase

/-! ## Solvers that hear of everything -/

variable [Scalar α]

namespace Workspace

variable {ws ws' : Workspace α μ} {v : VariableRef} {l : ListenerRef} {c : Conduct α μ}
  {op : Operation α} {column : Column α}

omit [Scalar α] in
theorem SameListeners.liveColumn (h : SameListeners ws ws') (hcolumn : ws.LiveColumn v l column) :
    ws'.LiveColumn v l column := by
  refine ⟨?_, ?_⟩
  · rw [h.listener?]
    exact hcolumn.alive
  · rw [h.solver?]
    exact hcolumn.column

/-- A solver is alive, and its column for a variable fits. -/
def FitsAt (v : VariableRef) (l : ListenerRef) (ws : Workspace α μ) : Prop :=
  ∃ column, ws.LiveColumn v l column ∧ column.Fits (ws.variableAt v)

/-- An operation on a variable while a solver stays attached to it, and no listener
that is told refuses or is in use. -/
structure StaysTold (c : Conduct α μ) (v : VariableRef) (l : ListenerRef) (op : Operation α)
    (ws : Workspace α μ) : Prop where
  subject : op.subject? = some v
  heard : op.tells ws = true → (ws.perform c op).2.isOk = true
  attached : l ∈ (ws.variableAt v).handles.map Handle.listener

instance [DecidableEq α] (c : Conduct α μ) (v : VariableRef) (l : ListenerRef)
    (op : Operation α) (ws : Workspace α μ) : Decidable (StaysTold c v l op ws) :=
  decidable_of_iff (op.subject? = some v
      ∧ (op.tells ws = true → (ws.perform c op).2.isOk = true)
      ∧ l ∈ (ws.variableAt v).handles.map Handle.listener)
    ⟨fun ⟨hsubject, hheard, hattached⟩ => ⟨hsubject, hheard, hattached⟩,
      fun h => ⟨h.subject, h.heard, h.attached⟩⟩

omit [Scalar α] in
/-- A live solver that is told of a change changes its column. -/
theorem Told.liveColumn {change : Change α} {hs : List Handle} (htold : Told v change hs ws ws')
    (hl : l ∈ hs.map Handle.listener) (h : ws.LiveColumn v l column) :
    ws'.LiveColumn v l (column.apply change) := by
  have halive : ws'.isAlive ⟨0, l⟩ = true := (htold.isAlive ⟨0, l⟩).trans h.alive
  refine ⟨halive, ?_⟩
  obtain ⟨s, hs, hcolumn⟩ := Option.bind_eq_some_iff.mp h.column
  rw [htold.solver? h.alive, if_pos hl, hs, Option.map_some, Option.bind_some,
    Solver.column?_hear, hcolumn, Option.map_some]

/-- Where a change is stored and told, the column of a solver that is told fits
again. -/
theorem FitsAt.tell {store : Write α} {action : Action} {change : Change α}
    (hquiet : c.QuietObservers) (hrange : v.index < ws.vars.length)
    (hcase : EditCase (ws.variableAt v) op ⟨store, some (action, change)⟩)
    (hok : ((ws.write v store).tellListeners c action v change).2.isOk = true)
    (hattached : l ∈ (ws.variableAt v).handles.map Handle.listener) (h : FitsAt v l ws) :
    FitsAt v l ((ws.write v store).tellListeners c action v change).1 := by
  obtain ⟨column, hlive, hfits⟩ := h
  cases htell : (ws.write v store).tellListeners c action v change with
  | mk left answer =>
    rw [htell] at hok
    cases answer with
    | error e => cases hok
    | ok u =>
      obtain ⟨told, dead, htold, -, rfl⟩ := tellListeners_ok hquiet htell
      rw [handles_variableAt_write] at htold
      have hheard : told.LiveColumn v l (column.apply change) :=
        htold.liveColumn hattached
          ((sameListeners_updateVariable ws v _).liveColumn hlive)
      have hbare : (told.prune action v dead).bareAt v = ((ws.variableAt v).write store).bare := by
        rw [bareAt_prune, bareAt_of_vars htold.vars, bareAt, Workspace.write,
          variableAt_updateVariable_self hrange]
      refine ⟨column.apply change, (sameListeners_prune told action v dead).liveColumn hheard, ?_⟩
      exact (hcase.fits_of_told rfl hfits).of_bare hbare

/-- A course of operations is a run of them. -/
theorem course_operate (c : Conduct α μ) (ops : List (Operation α)) (ws : Workspace α μ) :
    ws.course c (ops.map .operate) = ws.run c (ops.map .operate) := by
  induction ops generalizing ws with
  | nil => rfl
  | cons op rest ih => exact ih _

/-- A solver whose column fits keeps one that fits. -/
theorem FitsAt.perform (hquiet : c.QuietObservers) (hop : StaysTold c v l op ws)
    (h : FitsAt v l ws) : FitsAt v l (ws.perform c op).1 := by
  obtain ⟨handle, hhandle, -⟩ := List.mem_map.mp hop.attached
  have hrange : v.index < ws.vars.length := index_lt_of_mem_handles hhandle
  rcases Operation.of_subject? hop.subject with htarget | ⟨level, rfl⟩
  · rcases perform_cases htarget ws with ⟨-, answer, hperform⟩
        | ⟨store, hedit, ws', answer, hsame, hperform⟩
        | ⟨store, action, change, hedit, answer, hperform⟩
    · rw [hperform]
      exact h
    · obtain ⟨column, hlive, hfits⟩ := h
      have hsilent : SameListeners ws ws' :=
        (sameListeners_updateVariable ws v _).trans hsame.sameListeners
      have hvariable : ws'.variableAt v = (ws.variableAt v).write store := by
        rw [hsame.variableAt]
        exact variableAt_updateVariable_self hrange _
      rw [hperform]
      refine ⟨column, hsilent.liveColumn hlive, ?_⟩
      rw [hvariable]
      exact (Operation.editCase hedit).fits_of_untold rfl hfits
    · have hok := hop.heard (by rw [Operation.tells_eq htarget, hedit]; rfl)
      rw [hperform, answered, isOk_map] at hok
      rw [hperform]
      exact h.tell hquiet hrange (Operation.editCase hedit) hok hop.attached
  · obtain ⟨column, hlive, hfits⟩ := h
    refine ⟨column, (sameListeners_assign ws v level).liveColumn hlive, ?_⟩
    rw [Workspace.perform, variableAt_assign, if_pos ⟨rfl, hrange⟩]
    exact hfits

end Workspace

/-! ## What was asked for -/

open Workspace

/-- A new variable has the bounds it is made with. -/
theorem hasBound_newVariable {ws₀ : Workspace α μ} {spec : VariableSpec α}
    (hspec : Scalar.Defined spec.lower spec.upper) (side : Side) :
    HasBound side (ws₀.newVariable spec).2 (spec.bound side) (ws₀.newVariable spec).1 := by
  have hindex : (ws₀.newVariable spec).2.index = ws₀.vars.length := rfl
  refine ⟨?_, ?_⟩
  · rw [size_newVariable, hindex]
    exact Nat.lt_succ_self _
  · rw [variableAt_newVariable, if_pos hindex]
    cases side with
    | lower => exact Scalar.approxEq_self hspec.1
    | upper => exact Scalar.approxEq_self hspec.2

/-- A variable that is made with bounds that are numbers has, after any course and
whatever its clients do by turns of their own, each bound within the tolerance of
what it was last asked to be. Where observers do not act, a solver that is alive
and has a column as the variable is, and from then on stays attached while the
variable is changed, frozen, released and assigned and nobody refuses or is in use,
has the variable's own bounds in its column whenever the variable is not frozen; so
these are within the tolerance of what was last asked for as well. -/
theorem bound_requests_reach_columns {ws₀ ws : Workspace α μ} {spec : VariableSpec α}
    {v : VariableRef} (hspec : Scalar.Defined spec.lower spec.upper)
    (hnew : ws₀.newVariable spec = (ws, v)) (c : Conduct α μ) (turns : List (Turn α μ)) :
    (∀ side, (c.Heeds (fun _ _ => True) → ∃ requests, Requests side v c turns ws requests)
      ∧ ∀ requests, Requests side v c turns ws requests →
        Scalar.approxEq (((ws.course c turns).variableAt v).bound side)
          (requests.getLastD (spec.bound side)) = true)
    ∧ ∀ before ops, turns = before ++ ops.map .operate → c.QuietObservers → ∀ l column,
        (ws.course c before).LiveColumn v l column →
        column = Generated.columnOf ((ws.course c before).variableAt v) →
        Throughout c (StaysTold c v l) ops (ws.course c before) →
        ((ws.course c turns).variableAt v).freeze.isFrozen = false →
        ∃ column', (ws.course c turns).LiveColumn v l column' ∧ ∀ side,
          column'.bound side = ((ws.course c turns).variableAt v).bound side
          ∧ ∀ requests, Requests side v c turns ws requests →
            Scalar.approxEq (column'.bound side) (requests.getLastD (spec.bound side)) = true := by
  have hnear : ∀ side requests, Requests side v c turns ws requests →
      Scalar.approxEq (((ws.course c turns).variableAt v).bound side)
        (requests.getLastD (spec.bound side)) = true := by
    intro side requests hrequests
    have hstart : HasBound side (ws₀.newVariable spec).2 (spec.bound side)
        (ws₀.newVariable spec).1 := hasBound_newVariable hspec side
    rw [hnew] at hstart
    exact (hrequests.hasBound hstart).near
  refine ⟨fun side => ⟨fun hheeds => hheeds.exists_requests turns ws, hnear side⟩, ?_⟩
  rintro before ops rfl hquiet l column hlive hsync hstays hfree
  have hfits : FitsAt v l (ws.course c (before ++ ops.map .operate)) := by
    rw [course_append, course_operate]
    exact hstays.invariant (fun hop h => h.perform hquiet hop)
      ⟨column, hlive, hsync ▸ Column.fits_columnOf _⟩
  obtain ⟨column', hlive', hfits⟩ := hfits
  refine ⟨column', hlive', fun side => ⟨hfits hfree side, fun requests hrequests => ?_⟩⟩
  rw [hfits hfree side]
  exact hnear side requests hrequests

/-! ## Small steps, and a client that insists -/

theorem Workspace.visits_singleton (c : Conduct α μ) (action : Action) (v : VariableRef)
    (change : Change α) (h : Handle) (ws : Workspace α μ) :
    visits c action v change [h] ws = [⟨h, ws⟩] := by
  rw [visits]
  split <;> rfl

/-- The variable that is made. -/
def steppedSpec : VariableSpec Exact := ⟨"x", 0, .finite 10, .continuous⟩

/-- Steps that are too small to be stored, until they come to more than the
tolerance; then bounds that are held back during a freeze. -/
def smallSteps : List (Operation Exact) :=
  [.setBound .upper ⟨0⟩ (.finite (10 + 6 / 10000000)),
    .setBound .upper ⟨0⟩ (.finite (10 + 12 / 10000000)), .setBound .upper ⟨0⟩ .undefined,
    .assign ⟨0⟩ ⟨⟨0, 0⟩, .finite 4, 0⟩, .freeze ⟨0⟩, .setBound .lower ⟨0⟩ 1,
    .setBound .upper ⟨0⟩ (.infinite false), .setBound .upper ⟨0⟩ (.finite 7), .unfreeze ⟨0⟩,
    .setBound .upper ⟨0⟩ (.finite (7 + 9 / 10000000))]

/-- A solver generates before the steps. -/
def generatingTurns : List (Turn Exact Unit) :=
  [.move (.newSolver pointModel ⟨"exact", true⟩ {}), .operate (.generate ⟨0⟩)]

/-- The workspace with the variable. -/
def steppedWorkspace : Workspace Exact Unit :=
  (Workspace.newVariable { memory := () } steppedSpec).1

theorem inSync_generatingTurns :
    InSync (steppedWorkspace.course idleConduct generatingTurns) := by
  have hcalm : CalmRun idleConduct [.newVariable steppedSpec,
      .newSolver pointModel ⟨"exact", true⟩ {}, .operate (.generate ⟨0⟩)] { memory := () } :=
    ⟨trivial, show ∀ v ∈ pointModel.vars, v.index < 1 by decide +kernel,
      ⟨by decide +kernel, trivial⟩, trivial⟩
  exact inSync_run (fun _ _ _ ws => .refl ws) (fun _ _ ws => .refl ws) hcalm (inSync_empty ())

theorem staysTold_smallSteps : Throughout idleConduct (StaysTold idleConduct ⟨0⟩ ⟨0⟩) smallSteps
    (steppedWorkspace.course idleConduct generatingTurns) := by
  decide +kernel

/-- An observer that asks for the upper bound `3` whenever it is told of a change. -/
def insistentConduct : Conduct Exact Unit :=
  { idleConduct with receive := fun _ _ _ ws =>
      (ws.course idleConduct [.operate (.setBound .upper ⟨0⟩ (.finite 3))], .ok ()) }

/-- The observer is attached and is told that the upper bound is `5`. -/
def insistentTurns : List (Turn Exact Unit) :=
  [.move .newObserver, .operate (.attach ⟨0⟩ ⟨0, ⟨0⟩⟩),
    .operate (.setBound .upper ⟨0⟩ (.finite 5))]

/-- The state in which the upper bound is stored that the observer is told of. -/
def insistentWorkspace : Workspace Exact Unit :=
  (steppedWorkspace.course insistentConduct (insistentTurns.take 2)).write ⟨0⟩
    (.bound .upper (.finite 5))

theorem calls_insistentTurns :
    Turn.calls insistentConduct
        (steppedWorkspace.course insistentConduct (insistentTurns.take 2))
        (.operate (.setBound .upper ⟨0⟩ (.finite 5)))
      = [⟨insistentWorkspace.hold ⟨0⟩, (insistentWorkspace.hold ⟨0⟩).course idleConduct
          [.operate (.setBound .upper ⟨0⟩ (.finite 3))]⟩] := by
  have hedit : Operation.edit?
      ((steppedWorkspace.course insistentConduct (insistentTurns.take 2)).variableAt ⟨0⟩)
      (.setBound .upper ⟨0⟩ (.finite 5)) = some ⟨.bound .upper (.finite 5),
        some (.setBound .upper, .bound .upper (.finite 5))⟩ := by
    rw [Operation.edit?, if_neg (by decide +kernel), if_neg (by decide +kernel)]
  have hhandles : ((steppedWorkspace.course insistentConduct
      (insistentTurns.take 2)).variableAt ⟨0⟩).handles = [⟨0, ⟨0⟩⟩] := by decide +kernel
  have hcalled : Visit.calls ⟨⟨0, ⟨0⟩⟩, insistentWorkspace⟩ = true := by decide +kernel
  unfold insistentWorkspace at hcalled
  simp only [Turn.calls, Operation.target?, Option.elim_some, editCalls, hedit, hhandles,
    observerCalls, visits_singleton, List.filter_cons_of_pos hcalled]
  rfl

/-- What the observer asks for comes after what it is told of. -/
theorem requests_insistentTurns : Requests .upper ⟨0⟩ insistentConduct insistentTurns
    steppedWorkspace [.finite 5, .finite 3] := by
  have hinner : Requests .upper ⟨0⟩ idleConduct [.operate (.setBound .upper ⟨0⟩ (.finite 3))]
      (insistentWorkspace.hold ⟨0⟩) [.finite 3] :=
    requests_of_quiet (fun _ _ _ ws => .refl ws) (fun _ _ ws => .refl ws) _ _
  have hcalled : CallRequests .upper ⟨0⟩ (Turn.calls insistentConduct
      (steppedWorkspace.course insistentConduct (insistentTurns.take 2))
      (.operate (.setBound .upper ⟨0⟩ (.finite 5)))) ([.finite 3] ++ []) := by
    rw [calls_insistentTurns]
    exact .cons rfl hinner .nil
  have htold : Requests .upper ⟨0⟩ insistentConduct
      [.operate (.setBound .upper ⟨0⟩ (.finite 5))] _
      ([.finite 5] ++ ([.finite 3] ++ []) ++ []) := .cons hcalled .nil
  have hattached : Requests .upper ⟨0⟩ insistentConduct [.operate (.attach ⟨0⟩ ⟨0, ⟨0⟩⟩),
      .operate (.setBound .upper ⟨0⟩ (.finite 5))] _ ([] ++ [] ++ [.finite 5, .finite 3]) :=
    .cons .nil htold
  have hmade : Requests .upper ⟨0⟩ insistentConduct insistentTurns steppedWorkspace
      ([] ++ [] ++ [.finite 5, .finite 3]) := .cons .nil hattached
  exact hmade

/-- With the observer that insists, the upper bound is what it asked for. After the
small steps and the freeze, the column has the bounds that were set within the
freeze, and the last step is too small to be stored. -/
theorem columns_smallSteps :
    Scalar.approxEq (((steppedWorkspace.course insistentConduct insistentTurns).variableAt
      ⟨0⟩).bound .upper) (.finite 3) = true
    ∧ ∃ column, (steppedWorkspace.course idleConduct
        (generatingTurns ++ smallSteps.map .operate)).LiveColumn ⟨0⟩ ⟨0⟩ column
      ∧ column.lower = 1 ∧ column.upper = .finite 7
      ∧ Scalar.approxEq column.upper (.finite (7 + 9 / 10000000)) = true := by
  have hspec : Scalar.Defined steppedSpec.lower steppedSpec.upper :=
    ⟨by decide +kernel, by decide +kernel⟩
  obtain ⟨hinsistent, -⟩ := @bound_requests_reach_columns Exact Unit _ { memory := () }
    steppedWorkspace steppedSpec ⟨0⟩ hspec rfl insistentConduct insistentTurns
  obtain ⟨-, hcolumns⟩ := @bound_requests_reach_columns Exact Unit _ { memory := () }
    steppedWorkspace steppedSpec ⟨0⟩ hspec rfl idleConduct
    (generatingTurns ++ smallSteps.map .operate)
  refine ⟨(hinsistent .upper).2 _ requests_insistentTurns, ?_⟩
  obtain ⟨generated, hgenerated⟩ := Option.isSome_iff_exists.mp (show
    (((steppedWorkspace.course idleConduct generatingTurns).solver? ⟨0⟩).bind
      (·.column? ⟨0⟩)).isSome = true by decide +kernel)
  have hlive : (steppedWorkspace.course idleConduct generatingTurns).LiveColumn ⟨0⟩ ⟨0⟩
      generated := ⟨by decide +kernel, hgenerated⟩
  obtain ⟨column, hlive', hbounds⟩ := hcolumns generatingTurns smallSteps rfl
    (fun _ _ _ ws => .refl ws) ⟨0⟩ generated hlive
    (inSync_generatingTurns.of_liveColumn hlive).1 staysTold_smallSteps (by decide +kernel)
  refine ⟨column, hlive', (hbounds .lower).1.trans ?_, (hbounds .upper).1.trans ?_, ?_⟩
  · decide +kernel
  · decide +kernel
  · have hrequests : (generatingTurns ++ smallSteps.map Turn.operate).filterMap
        (Turn.request? .upper ⟨0⟩) = [.finite (10 + 6 / 10000000), .finite (10 + 12 / 10000000),
          .infinite false, .finite 7, .finite (7 + 9 / 10000000)] := by decide +kernel
    have hlast := (hbounds .upper).2 _ (requests_of_quiet (fun _ _ _ ws => .refl ws)
      (fun _ _ ws => .refl ws) _ _)
    rw [hrequests] at hlast
    exact hlast

end Milp
