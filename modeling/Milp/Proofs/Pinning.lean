/-
Milp.Proofs.Pinning — the bounds of a frozen variable.

A freeze pins the bounds that solvers see to the value the variable has
then. The value is not kept anywhere: solvers are told of it once, and
whoever asks later, a solver that generates included, reads the value the
variable has by then (`Variable.effectiveBounds`). So the pin holds as long
as that value does.

`pinRule` says what a freeze window is: the variable is not released for
the last time, nobody gives it another value, by hand or by a solve, and
solvers hear of its bounds from the variable alone. Under this rule the
effective bounds and the columns of all live solvers are at the pinned value
(`bounds_of_frozen`), whoever generates or solves, whatever is changed, and
whether or not notifications fail. Two solvers that give the variable
different values break the pin (`moved_pin`).
-/
import Milp.Proofs.Clients

namespace Milp

variable {α μ : Type}

/-- A change of a variable that its bounds do not show. -/
def Change.SparesBounds (change : Change α) : Prop :=
  ∀ column : Column α, (column.apply change).lower = column.lower
    ∧ (column.apply change).upper = column.upper

variable [Scalar α]

namespace Workspace

variable {ws ws' : Workspace α μ} {c : Conduct α μ} {l : ListenerRef} {v w : VariableRef} {p : α}
  {stale : List ListenerRef}

/-- A variable is frozen and has the value `p`. -/
structure FrozenAt (v : VariableRef) (p : α) (ws : Workspace α μ) : Prop where
  frozen : (ws.bareAt v).freeze.isFrozen = true
  value : (ws.bareAt v).assigned.map Level.value = some p

theorem FrozenAt.of_bareAt (h : ws.FrozenAt v p) (hbare : ws'.bareAt v = ws.bareAt v) :
    ws'.FrozenAt v p where
  frozen := by
    rw [hbare]
    exact h.frozen
  value := by
    rw [hbare]
    exact h.value

theorem FrozenAt.effectiveBounds (h : ws.FrozenAt v p) :
    (ws.variableAt v).effectiveBounds = (p, p) := by
  obtain ⟨level, hlevel, rfl⟩ := Option.map_eq_some_iff.mp h.value
  exact Variable.effectiveBounds_of_frozen h.frozen hlevel

/-- The blank variable is not frozen. -/
theorem FrozenAt.index_lt (h : ws.FrozenAt v p) : v.index < ws.vars.length := by
  by_contra hge
  have hfrozen := h.frozen
  rw [bareAt, variableAt_of_length_le (Nat.le_of_not_lt hge)] at hfrozen
  cases hfrozen

/-- A variable is frozen at `p`, and so are the columns that live solvers
have for it, but for some solvers that have not been told. -/
structure PinnedBut (v : VariableRef) (p : α) (stale : List ListenerRef) (ws : Workspace α μ) :
    Prop extends FrozenAt v p ws where
  column : ∀ {l s column}, l ∉ stale → (ws.listener? l).any Listener.isAlive = true →
    ws.solver? l = some s → s.column? v = some column → column.lower = p ∧ column.upper = p

/-- Solvers that are not more alive than they were, with the columns they
had. -/
theorem PinnedBut.of_columns (h : ws.PinnedBut v p stale) (hfrozen : ws'.FrozenAt v p)
    (halive : ∀ l, (ws'.listener? l).any Listener.isAlive = true →
      (ws.listener? l).any Listener.isAlive = true)
    (hcolumn : ∀ l s column, ws'.solver? l = some s → s.column? v = some column →
      ∃ s₀ column₀, ws.solver? l = some s₀ ∧ s₀.column? v = some column₀
        ∧ column.lower = column₀.lower ∧ column.upper = column₀.upper) :
    ws'.PinnedBut v p stale where
  toFrozenAt := hfrozen
  column := by
    intro l s column hl hlive hs hc
    obtain ⟨s₀, column₀, hs₀, hc₀, hlower, hupper⟩ := hcolumn l s column hs hc
    rw [hlower, hupper]
    exact h.column hl (halive l hlive) hs₀ hc₀

/-- Solvers are as they were. -/
theorem PinnedBut.of_sameListeners (h : ws.PinnedBut v p stale) (hsame : ws.SameListeners ws')
    (hfrozen : ws'.FrozenAt v p) : ws'.PinnedBut v p stale :=
  h.of_columns hfrozen (fun l => by rw [hsame.listener?]; exact id) fun l s column hs hc =>
    ⟨s, column, (hsame.solver? l).symm.trans hs, hc, rfl, rfl⟩

end Workspace

/-! ## A freeze window -/

/-- What a window in which a variable is pinned to `p` is made of. -/
def pinRule (v : VariableRef) (p : α) : Rule α μ where
  edit op ws := op = .unfreeze v → (ws.variableAt v).freeze ≠ .frozen 1
  tell w change := w = v → change.SparesBounds
  assign w level _ := w = v → level.value = p
  hold l ws := (ws.listener? l).any Listener.isAlive = true
  outcome vars := (vars v).assigned.map Level.value = some p

namespace Workspace

variable {ws ws' : Workspace α μ} {c : Conduct α μ} {l : ListenerRef} {v w : VariableRef} {p : α}
  {stale : List ListenerRef}

/-- Storing something in the variable keeps it frozen at its value, if it
stays frozen. -/
theorem FrozenAt.write_self (h : ws.FrozenAt v p) {store : Write α}
    (hfrozen : ((ws.variableAt v).write store).freeze.isFrozen = true) :
    (ws.write v store).FrozenAt v p := by
  have hstored : (ws.write v store).variableAt v = (ws.variableAt v).write store :=
    variableAt_updateVariable_self h.index_lt _
  refine ⟨?_, ?_⟩
  · rw [bareAt, hstored]
    exact hfrozen
  · have hvalue : ((ws.variableAt v).write store).assigned.map Level.value = some p := by
      rw [Variable.assigned_write]
      exact h.value
    rw [bareAt, hstored]
    exact hvalue

theorem FrozenAt.write_of_ne (h : ws.FrozenAt v p) (hne : v ≠ w) (store : Write α) :
    (ws.write w store).FrozenAt v p := by
  refine h.of_bareAt ?_
  rw [bareAt, write, variableAt_updateVariable_of_ne hne, bareAt]

/-- A change of the pinned variable leaves it frozen, and there is no news of
its bounds. -/
theorem FrozenAt.edit (h : ws.FrozenAt v p) {op : Operation α} {e : Edit α}
    (hop : op.target? = some v) (hwindow : op = .unfreeze v → (ws.variableAt v).freeze ≠ .frozen 1)
    (hedit : op.edit? (ws.variableAt v) = some e) :
    ((ws.variableAt v).write e.store).freeze.isFrozen = true
      ∧ ∀ action change, e.news = some (action, change) → change.SparesBounds := by
  have hfrozen : (ws.variableAt v).freeze.isFrozen = true := h.frozen
  have hthawed : ¬(ws.variableAt v).freeze.isFrozen = false := by
    rw [hfrozen]
    exact Bool.noConfusion
  cases Operation.editCase hedit with
  | name _ =>
    refine ⟨hfrozen, fun action change hnews => ?_⟩
    cases hnews
    exact fun _ => ⟨rfl, rfl⟩
  | kind _ =>
    refine ⟨hfrozen, fun action change hnews => ?_⟩
    cases hnews
    exact fun _ => ⟨rfl, rfl⟩
  | held _ _ =>
    refine ⟨?_, fun action change hnews => by cases hnews⟩
    rw [Variable.write, Variable.freeze_withBound]
    exact hfrozen
  | nested _ => exact ⟨Freeze.isFrozen_deepen _, fun action change hnews => by cases hnews⟩
  | release hmore =>
    refine ⟨?_, fun action change hnews => by cases hnews⟩
    exact (Freeze.isFrozen_release_of_ne hmore).trans hfrozen
  | bound _ hfree => exact absurd hfree hthawed
  | pin hfree _ => exact absurd hfree hthawed
  | restore hlast =>
    obtain rfl := Option.some.inj hop
    exact absurd hlast (hwindow rfl)

omit [Scalar α] in
/-- The columns of a solver that hears of a change, where its bounds are not
concerned. -/
theorem column?_hear_spares {s : Solver α} {change : Change α} {column : Column α}
    (hspares : w = v → change.SparesBounds) (hc : (s.hear w change).column? v = some column) :
    ∃ column₀, s.column? v = some column₀ ∧ column.lower = column₀.lower
      ∧ column.upper = column₀.upper := by
  by_cases hw : v = w
  · subst hw
    rw [Solver.column?_hear] at hc
    obtain ⟨column₀, hc₀, rfl⟩ := Option.map_eq_some_iff.mp hc
    exact ⟨column₀, hc₀, hspares rfl column₀⟩
  · rw [Solver.column?_hear_of_ne hw] at hc
    exact ⟨column, hc, rfl, rfl⟩

/-- A solver that changes in other ways than its columns. -/
theorem PinnedBut.updateSolver (h : ws.PinnedBut v p stale) {f : Solver α → Solver α}
    (hf : ∀ s, (f s).generated = s.generated) : (ws.updateSolver l f).PinnedBut v p stale := by
  refine h.of_columns (h.toFrozenAt.of_bareAt rfl) (fun k => ?_) fun k s column hs hc => ?_
  · rw [listener?_updateSolver]
    split
    · cases ws.listener? k with
      | none => exact id
      | some a =>
        rw [Option.map_some, Option.any_some, Listener.isAlive_mapSolver]
        exact id
    · exact id
  · rw [solver?_updateSolver] at hs
    split at hs
    · obtain ⟨s₀, hs₀, rfl⟩ := Option.map_eq_some_iff.mp hs
      rw [Solver.column?, hf] at hc
      exact ⟨s₀, column, hs₀, hc, rfl, rfl⟩
    · exact ⟨s, column, hs, hc, rfl, rfl⟩

/-- A solver that generates has the variable as it is. -/
theorem PinnedBut.generate (h : ws.PinnedBut v p stale) (l : ListenerRef) :
    (ws.generate l).1.PinnedBut v p stale := by
  refine ⟨h.toFrozenAt.of_bareAt (congrFun (bareAt_generate ws l) v), ?_⟩
  intro k s column hk halive hs hc
  rw [isAlive_generate] at halive
  rw [solver?_generate_map] at hs
  split at hs
  · obtain ⟨s₀, -, rfl⟩ := Option.map_eq_some_iff.mp hs
    rw [Solver.column?_of_compiled rfl hc, Generated.columnOf, h.effectiveBounds]
    exact ⟨rfl, rfl⟩
  · exact h.column hk halive hs hc

/-- A solver that has not generated has no column. -/
theorem PinnedBut.newListener (h : ws.PinnedBut v p stale) {role : SolverId → Role α}
    (hrole : ∀ id s, role id = .solver s → s.generated = none) :
    (ws.newListener role).1.PinnedBut v p stale := by
  refine ⟨h.toFrozenAt.of_bareAt rfl, fun {k s column} hk halive hs hc => ?_⟩
  rw [listener?_newListener] at halive
  rw [solver?_newListener] at hs
  split at hs
  · have hnone : s.generated = none := by
      refine hrole ws.nextSolver s ?_
      rw [Listener.solver?] at hs
      split at hs
      · next s' hs' => exact hs'.trans (congrArg Role.solver (Option.some.inj hs))
      · cases hs
    rw [Solver.column?, hnone] at hc
    cases hc
  · next hne =>
    rw [if_neg hne] at halive
    exact h.column hk halive hs hc

theorem isAlive_tellSolver (ws : Workspace α μ) (l : ListenerRef) (w : VariableRef)
    (change : Change α) (k : ListenerRef) :
    ((ws.tellSolver l w change).listener? k).any Listener.isAlive
      = (ws.listener? k).any Listener.isAlive := by
  cases hs : ws.solver? l with
  | none =>
    have hsame : ws.tellSolver l w change = ws := by rw [tellSolver, hs]
    rw [hsame]
  | some s =>
    rw [listener?_tellSolver hs]
    split
    · cases ws.listener? k with
      | none => rfl
      | some a => exact Listener.isAlive_hear w change a
    · rfl

/-- A solver is told of something else than the bounds of the variable. -/
theorem PinnedBut.tell (h : ws.PinnedBut v p stale) {change : Change α}
    (hspares : w = v → change.SparesBounds) : (ws.tellSolver l w change).PinnedBut v p stale := by
  have hbare := congrFun (bareAt_of_vars (vars_tellSolver ws l w change)) v
  refine h.of_columns (h.toFrozenAt.of_bareAt hbare) (fun k => ?_) fun k s column hs hc => ?_
  · rw [isAlive_tellSolver]
    exact id
  · rw [solver?_tellSolver] at hs
    split at hs
    · obtain ⟨s₀, hs₀, rfl⟩ := Option.map_eq_some_iff.mp hs
      obtain ⟨column₀, hc₀, hbounds⟩ := column?_hear_spares hspares hc
      exact ⟨s₀, column₀, hs₀, hc₀, hbounds⟩
    · exact ⟨s, column, hs, hc, rfl, rfl⟩

/-- The variable is given the value it has. -/
theorem FrozenAt.assign (h : ws.FrozenAt v p) {level : Level α}
    (hlevel : w = v → level.value = p) : (ws.assign w level).FrozenAt v p := by
  by_cases hw : v = w
  · subst hw
    have hassigned : (ws.assign v level).variableAt v
        = { ws.variableAt v with assigned := some level } := by
      rw [variableAt_assign, if_pos ⟨rfl, h.index_lt⟩]
    refine ⟨?_, ?_⟩
    · rw [bareAt, hassigned]
      exact h.frozen
    · rw [bareAt, hassigned]
      exact congrArg some (hlevel rfl)
  · refine h.of_bareAt ?_
    rw [bareAt, variableAt_assign, if_neg fun hvw => hw hvw.1, bareAt]

/-- A solve leaves the variable the value it has. -/
theorem PinnedBut.settle (h : ws.PinnedBut v p stale) {s : Solver α} {g : Generated α}
    {solution : Solution α}
    (hvalue : ((ws.settle l s g solution).bareAt v).assigned.map Level.value = some p) :
    (ws.settle l s g solution).PinnedBut v p stale := by
  refine PinnedBut.updateSolver (h.of_sameListeners (sameListeners_settled ws s g solution)
    ⟨?_, hvalue⟩) fun _ => rfl
  obtain ⟨assigned, hassigned⟩ := exists_bareAt_settle ws l s g solution v
  exact (congrArg (fun x => x.freeze.isFrozen) hassigned).trans h.frozen

theorem PinnedBut.newVariable (h : ws.PinnedBut v p stale) (spec : VariableSpec α) :
    (ws.newVariable spec).1.PinnedBut v p stale := by
  have hbare : (ws.newVariable spec).1.bareAt v = ws.bareAt v := by
    rw [bareAt, variableAt_newVariable, if_neg (Nat.ne_of_lt h.index_lt), bareAt]
  exact ⟨h.toFrozenAt.of_bareAt hbare, h.column⟩

/-- Nothing in a window moves the pin. -/
theorem preserves_pinnedBut (v : VariableRef) (p : α) (stale : List ListenerRef) :
    (pinRule v p : Rule α μ).Preserves (PinnedBut v p stale) where
  apart := fun hsame _ hbare h =>
    h.of_sameListeners hsame (h.toFrozenAt.of_bareAt (congrFun hbare v))
  standing := fun {ws l f} hf hlife h => by
    refine h.of_columns (h.toFrozenAt.of_bareAt rfl) (alive_updateListener hlife) ?_
    intro k s column hs hc
    rw [solver?_updateStanding hf] at hs
    exact ⟨s, column, hs, hc, rfl, rfl⟩
  hold := fun {ws l} halive h => by
    refine h.of_columns (h.toFrozenAt.of_bareAt rfl) (alive_updateListener fun a ha _ => ?_) ?_
    · have hlive : (ws.listener? l).any Listener.isAlive = true := halive
      rw [ha] at hlive
      exact hlive
    · intro k s column hs hc
      rw [solver?_hold] at hs
      exact ⟨s, column, hs, hc, rfl, rfl⟩
  write := fun {ws op w e} hop hwindow hedit h => by
    by_cases hw : v = w
    · subst hw
      obtain ⟨hfrozen, hnews⟩ := h.toFrozenAt.edit hop hwindow hedit
      exact ⟨h.of_sameListeners (sameListeners_updateVariable ..) (h.toFrozenAt.write_self hfrozen),
        fun action change hsome _ => hnews action change hsome⟩
    · exact ⟨h.of_sameListeners (sameListeners_updateVariable ..) (h.toFrozenAt.write_of_ne hw _),
        fun _ _ _ hwv => absurd hwv.symm hw⟩
  tell := fun hspares h => h.tell hspares
  assign := fun hlevel h =>
    h.of_sameListeners (sameListeners_assign ..) (h.toFrozenAt.assign hlevel)
  generate := fun _ h => h.generate _
  forget := fun _ h => h.updateSolver fun _ => rfl
  settle := fun _ _ _ _ _ h _ houtcome => h.settle houtcome
  newVariable := fun _ h => h.newVariable _
  newSolver := fun _ h => h.newListener fun id s hs => by
    cases hs
    rfl
  newObserver := fun h => h.newListener fun id s hs => by cases hs

/-! ## The first freeze -/

/-- A listener that shows no column away from `p` has nothing to be told. -/
theorem PinnedBut.tail {rest : List ListenerRef} (h : ws.PinnedBut v p (l :: rest))
    (hl : ∀ s column, (ws.listener? l).any Listener.isAlive = true → ws.solver? l = some s →
      s.column? v = some column → column.lower = p ∧ column.upper = p) :
    ws.PinnedBut v p rest where
  toFrozenAt := h.toFrozenAt
  column := by
    intro k s column hk halive hs hc
    by_cases hkl : k = l
    · subst hkl
      exact hl s column halive hs hc
    · refine h.column (fun hmem => ?_) halive hs hc
      rcases List.mem_cons.mp hmem with hkl' | hrest
      · exact hkl hkl'
      · exact hk hrest

/-- A solver that is told of the pin. -/
theorem PinnedBut.tell_pin {rest : List ListenerRef} (h : ws.PinnedBut v p (l :: rest)) :
    (ws.tellSolver l v (.bounds p p)).PinnedBut v p rest := by
  have hbare := congrFun (bareAt_of_vars (vars_tellSolver ws l v (.bounds p p))) v
  refine ⟨h.toFrozenAt.of_bareAt hbare, fun {k s column} hk halive hs hc => ?_⟩
  rw [isAlive_tellSolver] at halive
  rw [solver?_tellSolver] at hs
  split at hs
  · obtain ⟨s₀, -, rfl⟩ := Option.map_eq_some_iff.mp hs
    rw [Solver.column?_hear] at hc
    obtain ⟨column₀, -, rfl⟩ := Option.map_eq_some_iff.mp hc
    exact ⟨rfl, rfl⟩
  · next hkl =>
    refine h.column (fun hmem => ?_) halive hs hc
    rcases List.mem_cons.mp hmem with hkl' | hrest
    · exact hkl hkl'
    · exact hk hrest

/-- Telling one listener of the pin leaves one fewer to tell. -/
theorem PinnedBut.notify {k : Handle} {rest : List Handle}
    (hc : c.Keeps (PinnedBut v p (rest.map Handle.listener)))
    (h : ws.PinnedBut v p ((k :: rest).map Handle.listener))
    (hok : (Workspace.notify c k v (.bounds p p) ws).2.isOk = true) :
    (Workspace.notify c k v (.bounds p p) ws).1.PinnedBut v p (rest.map Handle.listener) := by
  have hkeeps := preserves_pinnedBut v p (rest.map Handle.listener) (μ := μ)
  rw [List.map_cons] at h
  rcases notify_cases c k v (.bounds p p) ws with
    ⟨hdead, hleft⟩ | ⟨halive, hleft | ⟨s, -, hleft⟩ | ⟨hs, hleft⟩⟩
  · rw [hleft]
    refine h.tail fun s column halive _ _ => ?_
    rw [hdead] at halive
    cases halive
  · rw [hleft] at hok
    cases hok
  · rw [hleft]
    exact h.tell_pin
  · rw [hleft]
    have hskip : ws.PinnedBut v p (rest.map Handle.listener) := by
      refine h.tail fun s column _ hsome _ => ?_
      rw [hs] at hsome
      cases hsome
    have hheld := hkeeps.hold_of_alive halive hskip
    exact hkeeps.release (hc.receive k.listener v (.bounds p p) _ hheld).1

/-- A freeze that is the first one tells every listener of the pin. -/
theorem freeze_first (hvalue : (ws.variableAt v).value = .ok p)
    (hfirst : (ws.freeze c v).2 = .ok true) :
    ((ws.write v (.freeze (ws.variableAt v).freeze.deepen)).tellListeners c .freeze v
        (.bounds p p)).2.isOk = true
      ∧ (ws.freeze c v).1 = ((ws.write v (.freeze (ws.variableAt v).freeze.deepen)).tellListeners c
        .freeze v (.bounds p p)).1 := by
  obtain ⟨level, hlevel, rfl⟩ := Variable.exists_level_of_value hvalue
  rcases freeze_cases c v ws with ⟨-, hcall⟩ | ⟨hfree, ⟨hnone, -⟩ | ⟨level', hlevel', hcall⟩⟩
  · rw [hcall] at hfirst
    cases hfirst
  · rw [hnone] at hlevel
    cases hlevel
  · obtain rfl := Option.some.inj (hlevel.symm.trans hlevel')
    rw [hcall] at hfirst ⊢
    rw [hfree]
    refine ⟨?_, rfl⟩
    rw [← isOk_map fun _ => true]
    exact congrArg Except.isOk hfirst

/-- A first freeze pins the columns of all live solvers, if every solver that
has one is attached. -/
theorem pinnedBut_freeze (hfollows : c.Follows (pinRule v p) (FrozenAt v p))
    (hattached : ∀ l column, ws.LiveColumn v l column →
      l ∈ (ws.variableAt v).handles.map Handle.listener)
    (hvalue : (ws.variableAt v).value = .ok p) (hfirst : (ws.freeze c v).2 = .ok true) :
    (ws.freeze c v).1.PinnedBut v p [] := by
  have hkeeps : ∀ stale, c.Keeps (PinnedBut v p stale) := fun stale =>
    (preserves_pinnedBut v p stale).keeps (fun h => h.toFrozenAt) hfollows
  obtain ⟨hok, hleft⟩ := freeze_first hvalue hfirst
  obtain ⟨level, hlevel, rfl⟩ := Variable.exists_level_of_value hvalue
  have hrange : v.index < ws.vars.length := by
    by_contra hge
    rw [variableAt_of_length_le (Nat.le_of_not_lt hge)] at hlevel
    cases hlevel
  have hstored : (ws.write v (.freeze (ws.variableAt v).freeze.deepen)).variableAt v
      = { ws.variableAt v with freeze := (ws.variableAt v).freeze.deepen } :=
    variableAt_updateVariable_self hrange _
  -- nobody has been told yet, and everybody with a column is on the list
  have hstale : (ws.write v (.freeze (ws.variableAt v).freeze.deepen)).PinnedBut v level.value
      ((ws.variableAt v).handles.map Handle.listener) := by
    refine ⟨⟨?_, ?_⟩, fun {l s column} hl halive hs hc => absurd (hattached l column ⟨halive, ?_⟩) hl⟩
    · rw [bareAt, hstored]
      exact Freeze.isFrozen_deepen _
    · rw [bareAt, hstored]
      exact congrArg (Option.map Level.value) hlevel
    · exact Option.bind_eq_some_iff.mpr ⟨s, hs, hc⟩
  have hhandles : ((ws.write v (.freeze (ws.variableAt v).freeze.deepen)).variableAt v).handles
      = (ws.variableAt v).handles := by rw [hstored]
  have hdelivered := deliver_induction (E := fun _ => True) (c := c) (v := v)
    (I := fun hs => PinnedBut v level.value (hs.map Handle.listener))
    (fun event h => (preserves_pinnedBut ..).of_sameState (sameState_emit _ event) h)
    (fun h hok => h.notify (hkeeps _) hok) (fun _ _ => trivial) .freeze (ws.variableAt v).handles
    hstale
  rw [hleft]
  unfold Workspace.tellListeners at hok ⊢
  rw [hhandles] at hok ⊢
  rcases hdelivered with ⟨-, hpinned⟩ | ⟨herror, -⟩
  · split
    · next hdeliver =>
      rw [hdeliver] at hpinned
      exact hpinned
    · next hdeliver =>
      rw [hdeliver] at hpinned
      exact (preserves_pinnedBut ..).prune hpinned
  · split at hok
    · cases hok
    · next hdeliver =>
      rw [hdeliver] at herror
      cases herror

/-- **The pin holds in its window.** After a first freeze at the value `p`,
and any course in which the variable keeps that value and is not released
for the last time, the effective bounds of the variable are `p` twice, and
so are the bounds of every column that a live solver has for it. -/
theorem bounds_of_frozen (hfollows : c.Follows (pinRule v p) (FrozenAt v p))
    (hattached : ∀ l column, ws.LiveColumn v l column →
      l ∈ (ws.variableAt v).handles.map Handle.listener)
    (hvalue : (ws.variableAt v).value = .ok p) (hfirst : (ws.freeze c v).2 = .ok true)
    {turns : List (Turn α μ)}
    (hwindow : (pinRule v p).AllowsAll c turns (ws.freeze c v).1) :
    (((ws.freeze c v).1.course c turns).variableAt v).effectiveBounds = (p, p)
      ∧ ∀ l column, ((ws.freeze c v).1.course c turns).LiveColumn v l column →
        column.lower = p ∧ column.upper = p := by
  have hpinned := (preserves_pinnedBut v p []).course (fun h => h.toFrozenAt) hfollows hwindow
    (pinnedBut_freeze hfollows hattached hvalue hfirst)
  refine ⟨hpinned.effectiveBounds, fun l column hc => ?_⟩
  obtain ⟨s, hs, hcolumn⟩ := Option.bind_eq_some_iff.mp hc.column
  exact hpinned.column List.not_mem_nil hc.alive hs hcolumn

end Workspace

/-! ## Two solvers and one pin -/

/-- Two solvers over one variable; the first has generated, and given it the
value `1`. -/
def levelledRun : List (Move Exact) :=
  [.newVariable ⟨"x", 0, .finite 10, .continuous⟩, .newSolver pointModel ⟨"exact", true⟩ {},
    .newSolver pointModel ⟨"exact", true⟩ {}, .operate (.generate ⟨0⟩),
    .operate (.assign ⟨0⟩ ⟨⟨0, 0⟩, 1, 0⟩)]

namespace Workspace

/-- The variable has its value, and one of the solvers a column for it. -/
def levelledWorkspace : Workspace Exact Unit := run idleConduct levelledRun { memory := () }

theorem inSync_levelledWorkspace : InSync levelledWorkspace := by
  refine inSync_run (fun _ _ _ ws => .refl ws) (fun _ _ ws => .refl ws) ?_ (inSync_empty ())
  exact ⟨trivial, show ∀ v ∈ pointModel.vars, v.index < 1 by decide +kernel,
    show ∀ v ∈ pointModel.vars, v.index < 1 by decide +kernel, ⟨by decide +kernel, trivial⟩,
    ⟨by decide +kernel, fun h => absurd h (by decide +kernel)⟩, trivial⟩

/-- A bound is held back, the other solver generates, and there is a freeze
within the freeze. -/
def windowTurns : List (Turn Exact Unit) :=
  [.operate (.setBound .lower ⟨0⟩ (.finite 3)), .operate (.generate ⟨1⟩), .operate (.freeze ⟨0⟩),
    .operate (.unfreeze ⟨0⟩), .operate (.solve ⟨0⟩)]

/-- The solver that generated late has the pin as well. -/
theorem pinned_windowTurns : ∃ column,
    ((levelledWorkspace.freeze idleConduct ⟨0⟩).1.course idleConduct windowTurns).LiveColumn
      ⟨0⟩ ⟨1⟩ column ∧ column.lower = 1 ∧ column.upper = 1 := by
  obtain ⟨column, hcolumn⟩ := Option.isSome_iff_exists.mp (show
    ((((levelledWorkspace.freeze idleConduct ⟨0⟩).1.course idleConduct windowTurns).solver?
      ⟨1⟩).bind (·.column? ⟨0⟩)).isSome = true by decide +kernel)
  have hwindow : (pinRule ⟨0⟩ 1).AllowsAll idleConduct windowTurns
      (levelledWorkspace.freeze idleConduct ⟨0⟩).1 := by
    have hmore : (Workspace.variableAt (levelledWorkspace.freeze idleConduct ⟨0⟩
        |>.1.course idleConduct (windowTurns.take 3)) ⟨0⟩).freeze ≠ .frozen 1 := by decide +kernel
    refine ⟨fun _ h => ?_, trivial, fun _ h => ?_, fun _ _ => hmore, ⟨trivial, ?_, ?_⟩, trivial⟩
    · cases h
    · cases h
    · show (Workspace.listener? _ ⟨0⟩).any Listener.isAlive = true
      decide +kernel
    · show (Workspace.bareAt _ ⟨0⟩).assigned.map Level.value = some 1
      decide +kernel
  have hpinned := bounds_of_frozen (.quiet (fun _ _ _ ws => .refl ws) (fun _ _ ws => .refl ws))
    (fun l column hc => (inSync_levelledWorkspace.of_liveColumn hc).2)
    (show (levelledWorkspace.variableAt ⟨0⟩).value = .ok 1 by decide +kernel)
    (show (levelledWorkspace.freeze idleConduct ⟨0⟩).2 = .ok true by decide +kernel) hwindow
  have hlive : ((levelledWorkspace.freeze idleConduct ⟨0⟩).1.course idleConduct
      windowTurns).LiveColumn ⟨0⟩ ⟨1⟩ column := ⟨by decide +kernel, hcolumn⟩
  exact ⟨column, hlive, hpinned.2 ⟨1⟩ column hlive⟩

/-- Another solver gives the frozen variable another value, and generates. -/
def movingTurns : List (Turn Exact Unit) :=
  [.operate (.assign ⟨0⟩ ⟨⟨1, 0⟩, .finite 2, 0⟩), .operate (.generate ⟨1⟩)]

/-- The effective bounds leave the value of the first freeze, the variable
still frozen, and the two solvers have it at different values. -/
theorem moved_pin : (levelledWorkspace.variableAt ⟨0⟩).value = .ok 1
    ∧ (levelledWorkspace.freeze idleConduct ⟨0⟩).2 = .ok true
    ∧ ∃ moved, moved = (levelledWorkspace.freeze idleConduct ⟨0⟩).1.course idleConduct movingTurns
      ∧ (moved.variableAt ⟨0⟩).freeze = .frozen 1
      ∧ (moved.variableAt ⟨0⟩).effectiveBounds = (.finite 2, .finite 2)
      ∧ (∃ column, moved.LiveColumn ⟨0⟩ ⟨0⟩ column ∧ column.upper = 1)
      ∧ ∃ column, moved.LiveColumn ⟨0⟩ ⟨1⟩ column ∧ column.upper = .finite 2 := by
  have hcolumn : ∀ l x, (((((levelledWorkspace.freeze idleConduct ⟨0⟩).1.course idleConduct
      movingTurns).solver? l).bind (·.column? ⟨0⟩)).any fun column => decide (column.upper = x))
        = true → ∃ column, (((levelledWorkspace.freeze idleConduct ⟨0⟩).1.course idleConduct
          movingTurns).solver? l).bind (·.column? ⟨0⟩) = some column ∧ column.upper = x := by
    intro l x h
    obtain ⟨column, hc, hupper⟩ := (Option.any_eq_true _ _).mp h
    exact ⟨column, hc, of_decide_eq_true hupper⟩
  obtain ⟨early, hearly, hone⟩ := hcolumn ⟨0⟩ 1 (by decide +kernel)
  obtain ⟨late, hlate, htwo⟩ := hcolumn ⟨1⟩ (.finite 2) (by decide +kernel)
  exact ⟨by decide +kernel, by decide +kernel, _, rfl, by decide +kernel, by decide +kernel,
    ⟨early, ⟨by decide +kernel, hearly⟩, hone⟩, ⟨late, ⟨by decide +kernel, hlate⟩, htwo⟩⟩

end Workspace

end Milp
