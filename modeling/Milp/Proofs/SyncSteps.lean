/-
Milp.Proofs.SyncSteps — every operation keeps a workspace in sync.

One lemma for each operation. A change that is told is a `tell` as soon as
no listener refused it; a change that is not told is one that no column
shows, because the variable is frozen or because it is only a freeze within
a freeze. A solve is made of steps that each keep the workspace in sync, if
the levels it gives leave frozen variables where they are.

`Operation.tells` says when an operation gets as far as telling listeners.
-/
import Milp.Proofs.Sync
import Milp.Workspace.Operation

namespace Milp

variable {α μ : Type}

/-! ## Columns of changed variables -/

namespace Generated

theorem columnOf_withBound_of_frozen {x : Variable α} (hfrozen : x.freeze.isFrozen = true)
    (hassigned : x.assigned.isSome = true) (side : Side) (b : α) :
    columnOf (x.withBound side b) = columnOf x := by
  obtain ⟨level, hlevel⟩ := Option.isSome_iff_exists.mp hassigned
  have hbounds := Variable.effectiveBounds_of_frozen hfrozen hlevel
  cases side with
  | lower =>
    have hnew : (x.withBound .lower b).effectiveBounds = (level.value, level.value) :=
      Variable.effectiveBounds_of_frozen hfrozen hlevel
    simp only [columnOf, hbounds, hnew]
    rfl
  | upper =>
    have hnew : (x.withBound .upper b).effectiveBounds = (level.value, level.value) :=
      Variable.effectiveBounds_of_frozen hfrozen hlevel
    simp only [columnOf, hbounds, hnew]
    rfl

theorem columnOf_withBound {x : Variable α} (hfree : x.freeze.isFrozen = false) (side : Side)
    (b : α) : columnOf (x.withBound side b)
      = (columnOf x).apply (.bound side b) := by
  have hbounds := Variable.effectiveBounds_of_not_frozen hfree
  cases side with
  | lower =>
    have hnew : (x.withBound .lower b).effectiveBounds = (b, x.upper) :=
      Variable.effectiveBounds_of_not_frozen hfree
    simp only [columnOf, hbounds, hnew]
    rfl
  | upper =>
    have hnew : (x.withBound .upper b).effectiveBounds = (x.lower, b) :=
      Variable.effectiveBounds_of_not_frozen hfree
    simp only [columnOf, hbounds, hnew]
    rfl

/-- A column shows whether its variable is frozen, not how often. -/
theorem columnOf_freeze {x : Variable α} {f : Freeze} (h : f.isFrozen = x.freeze.isFrozen) :
    columnOf { x with freeze := f } = columnOf x := by
  simp only [columnOf, Variable.effectiveBounds, h]

theorem columnOf_first_freeze {x : Variable α} {p : α} (hfree : x.freeze.isFrozen = false)
    (hp : x.value = .ok p) :
    columnOf { x with freeze := x.freeze.deepen } = (columnOf x).apply (.bounds p p) := by
  obtain ⟨level, hlevel, rfl⟩ := Variable.exists_level_of_value hp
  have hold := Variable.effectiveBounds_of_not_frozen hfree
  have hnew : { x with freeze := x.freeze.deepen }.effectiveBounds
      = (level.value, level.value) :=
    Variable.effectiveBounds_of_frozen (Freeze.isFrozen_deepen x.freeze) hlevel
  simp only [columnOf, hold, hnew]
  rfl

theorem columnOf_last_release {x : Variable α} (h : x.freeze = .frozen 1) :
    columnOf { x with freeze := x.freeze.release }
      = (columnOf x).apply (.bounds x.lower x.upper) := by
  rw [h]
  rfl

end Generated

variable [Scalar α]

/-- Whether an operation gets to tell the listeners of its variable: the
variable changes, and no freeze holds the change back. -/
def Operation.tells (op : Operation α) (ws : Workspace α μ) : Bool :=
  match op with
  | .setName v name => decide ((ws.variableAt v).name.text ≠ name)
  | .setKind v kind => decide ((ws.variableAt v).kind ≠ kind)
  | .setBound side v b =>
    !Scalar.isNaN b && !Scalar.approxEq ((ws.variableAt v).bound side) b
      && !(ws.variableAt v).freeze.isFrozen
  | .freeze v => !(ws.variableAt v).freeze.isFrozen && (ws.variableAt v).assigned.isSome
  | .unfreeze v => decide ((ws.variableAt v).freeze = .frozen 1)
  | _ => false

namespace Workspace

variable {ws : Workspace α μ} {l : ListenerRef} {v : VariableRef} {c : Conduct α μ}

/-! ## Changes of one variable -/

/-- A change of one variable that its column does not show. -/
theorem InSync.updateVariable (h : InSync ws) {f : Variable α → Variable α}
    (hcolumn : Generated.columnOf (f (ws.variableAt v)) = Generated.columnOf (ws.variableAt v))
    (hhandles : (f (ws.variableAt v)).handles = (ws.variableAt v).handles)
    (hpinned : (f (ws.variableAt v)).freeze.isFrozen = true →
      (f (ws.variableAt v)).assigned.isSome = true) : InSync (ws.updateVariable v f) := by
  refine h.of_sameHandles (sameListeners_updateVariable ws v f) ?_ ?_ ?_
  · intro w
    rw [variableAt_updateVariable]
    split
    · next hw => rw [hw.1, hcolumn]
    · rfl
  · intro w
    rw [variableAt_updateVariable]
    split
    · next hw => rw [hw.1, hhandles]
    · rfl
  · intro w hw
    rw [variableAt_updateVariable] at hw ⊢
    split at hw
    · next hwv =>
      rw [if_pos hwv, hwv.1]
      rw [hwv.1] at hw
      exact hpinned hw
    · next hwv =>
      rw [if_neg hwv]
      exact h.pinned hw

/-- A change of one variable that its listeners are told of, none of them
refusing. -/
theorem InSync.tellUpdate (hquiet : c.QuietObservers) (h : InSync ws)
    {f : Variable α → Variable α} {change : Change α} {action : Action}
    (hcolumn : Generated.columnOf (f (ws.variableAt v))
      = (Generated.columnOf (ws.variableAt v)).apply change)
    (hhandles : (f (ws.variableAt v)).handles = (ws.variableAt v).handles)
    (hpinned : (f (ws.variableAt v)).freeze.isFrozen = true →
      (f (ws.variableAt v)).assigned.isSome = true)
    (hok : ∀ e, ((ws.updateVariable v f).tellListeners c action v change).2 ≠ .error e) :
    InSync ((ws.updateVariable v f).tellListeners c action v change).1 := by
  have hdone : (ws.updateVariable v f).tellListeners c action v change
      = (((ws.updateVariable v f).tellListeners c action v change).1, .ok ()) := by
    cases hanswer : ((ws.updateVariable v f).tellListeners c action v change).2 with
    | error e => exact absurd hanswer (hok e)
    | ok u => rw [← hanswer]
  have hself := variableAt_updateVariable ws v v f
  refine h.tell hquiet (sameListeners_updateVariable ws v f)
    (fun w hw => variableAt_updateVariable_of_ne hw ws f) ?_ ?_ ?_ hdone
  · intro hlt
    rw [hself, if_pos ⟨rfl, hlt⟩, hcolumn]
  · rw [hself]
    split
    · exact hhandles
    · rfl
  · rw [hself]
    split
    · exact hpinned
    · exact h.pinned

theorem InSync.setName (hquiet : c.QuietObservers) (h : InSync ws) {name : String}
    (hok : ∀ e, (ws.setName c v name).2 = .error e → (Operation.setName v name).tells ws = false) :
    InSync (ws.setName c v name).1 := by
  unfold Workspace.setName at hok ⊢
  split at hok
  · next hsame =>
    rw [if_pos hsame]
    exact h
  · next hne =>
    rw [if_neg hne]
    refine h.tellUpdate hquiet rfl rfl h.pinned fun e he => ?_
    have htells := hok e he
    rw [Operation.tells, decide_eq_false_iff_not] at htells
    exact htells hne

theorem InSync.setKind (hquiet : c.QuietObservers) (h : InSync ws) {kind : VariableKind}
    (hok : ∀ e, (ws.setKind c v kind).2 = .error e → (Operation.setKind v kind).tells ws = false) :
    InSync (ws.setKind c v kind).1 := by
  unfold Workspace.setKind at hok ⊢
  split at hok
  · next hsame =>
    rw [if_pos hsame]
    exact h
  · next hne =>
    rw [if_neg hne]
    refine h.tellUpdate hquiet rfl rfl h.pinned fun e he => ?_
    have htells := hok e he
    rw [Operation.tells, decide_eq_false_iff_not] at htells
    exact htells hne

theorem InSync.setBound (hquiet : c.QuietObservers) (h : InSync ws) {side : Side} {b : α}
    (hok : ∀ e, (ws.setBound c side v b).2 = .error e →
      (Operation.setBound side v b).tells ws = false) : InSync (ws.setBound c side v b).1 := by
  unfold Workspace.setBound at hok ⊢
  dsimp only at hok ⊢
  split at hok
  · next hnan =>
    rw [if_pos hnan]
    exact h
  · next hnan =>
    rw [if_neg hnan]
    split at hok
    · next hsame =>
      rw [if_pos hsame]
      exact h
    · next hne =>
      rw [if_neg hne]
      have hpinned : ((ws.variableAt v).withBound side b).freeze.isFrozen = true →
          ((ws.variableAt v).withBound side b).assigned.isSome = true := by
        rw [Variable.freeze_withBound, Variable.assigned_withBound]
        exact h.pinned
      split at hok
      · next hfrozen =>
        rw [if_pos hfrozen]
        have hheld := h.updateVariable (f := (·.withBound side b))
          (Generated.columnOf_withBound_of_frozen hfrozen (h.pinned hfrozen) side b)
          (Variable.handles_withBound _ side b) hpinned
        exact hheld.of_sameState (sameState_emit _ _)
      · next hfree =>
        rw [if_neg hfree]
        refine h.tellUpdate hquiet
          (Generated.columnOf_withBound (Bool.not_eq_true _ ▸ hfree) side b)
          (Variable.handles_withBound _ side b) hpinned fun e he => ?_
        have htells := hok e he
        simp [Operation.tells, hnan, hne, hfree] at htells

/-! ## Freezing -/

/-- A freeze or a release fails where telling the listeners fails. -/
theorem snd_announce_of_error {action : Action} {bounds : α × α} {e : ModelError α}
    (h : (ws.tellListeners c action v (.bounds bounds.1 bounds.2)).2 = .error e) :
    (ws.announce c action v bounds).2 = .error e :=
  congrArg (Except.map fun _ => true) h

theorem InSync.freeze (hquiet : c.QuietObservers) (h : InSync ws)
    (hok : ∀ e, (ws.freeze c v).2 = .error e → (Operation.freeze v).tells ws = false) :
    InSync (ws.freeze c v).1 := by
  unfold Workspace.freeze at hok ⊢
  dsimp only at hok ⊢
  split at hok
  · next hfrozen =>
    rw [if_pos hfrozen]
    refine h.updateVariable (Generated.columnOf_freeze ?_) rfl fun _ => h.pinned hfrozen
    rw [Freeze.isFrozen_deepen, hfrozen]
  · next hfree =>
    rw [if_neg hfree]
    split at hok
    · next e hvalue =>
      exact h
    · next p hvalue =>
      obtain ⟨level, hlevel, -⟩ := Variable.exists_level_of_value hvalue
      have hassigned : (ws.variableAt v).assigned.isSome = true := by
        rw [hlevel]
        rfl
      refine h.tellUpdate hquiet
        (Generated.columnOf_first_freeze (Bool.not_eq_true _ ▸ hfree) hvalue) rfl
        (fun _ => hassigned) fun e he => ?_
      have htells := hok e (snd_announce_of_error he)
      simp [Operation.tells, hfree, hassigned] at htells

theorem InSync.unfreeze (hquiet : c.QuietObservers) (h : InSync ws)
    (hok : ∀ e, (ws.unfreeze c v).2 = .error e → (Operation.unfreeze v).tells ws = false) :
    InSync (ws.unfreeze c v).1 := by
  unfold Workspace.unfreeze at hok ⊢
  dsimp only at hok ⊢
  split at hok
  · next hlast =>
    rw [if_pos hlast]
    refine h.tellUpdate hquiet (Generated.columnOf_last_release hlast) rfl ?_ fun e he => ?_
    · intro hfrozen
      rw [hlast] at hfrozen
      cases hfrozen
    · have htells := hok e (snd_announce_of_error he)
      simp [Operation.tells, hlast] at htells
  · next hmore =>
    rw [if_neg hmore]
    have hsame := Freeze.isFrozen_release_of_ne hmore
    refine h.updateVariable (Generated.columnOf_freeze hsame) rfl fun hfrozen => h.pinned ?_
    rw [← hsame]
    exact hfrozen

/-! ## Levels and attachments -/

theorem InSync.assign (h : InSync ws) {level : Level α}
    (hpins : ∀ w, (ws.variableAt w).freeze.isFrozen = true →
      ((ws.assign v level).variableAt w).assigned.map Level.value
        = (ws.variableAt w).assigned.map Level.value) : InSync (ws.assign v level) := by
  refine h.assigned (sameListeners_assign ws v level) (fun w => ?_) hpins
  rw [variableAt_assign]
  split
  · exact ⟨some level, rfl⟩
  · exact ⟨_, rfl⟩

theorem InSync.attach (h : InSync ws) {k : Handle} (hk : ws.handleOf? k.listener = some k) :
    InSync (ws.attach v k) := by
  refine h.of_sameBare (sameListeners_attach ws v k) (fun w => ?_) ?_ ?_
  · rw [variableAt_attach]
    split
    · exact Variable.bare_attach _ k
    · rfl
  · intro w k' hk'
    rw [variableAt_attach] at hk'
    split at hk'
    · rcases Variable.mem_handles_attach hk' with hold | rfl
      · exact h.handle hold
      · exact hk
    · exact h.handle hk'
  · intro l s g w hlive hw
    have hattached := h.attached hlive hw
    rw [variableAt_attach]
    split
    · rw [Variable.isAttached_attach, hattached, Bool.true_or]
    · exact hattached

/-- Detaching an identity from a variable its solver has no column for. -/
theorem InSync.detach (h : InSync ws) {id : SolverId}
    (hforeign : ∀ l s, ws.solver? l = some s → s.id = id → v ∉ s.vars) :
    InSync (ws.detach v id) := by
  refine h.of_sameBare (sameListeners_updateVariable ws v _) (fun w => ?_) ?_ ?_
  · rw [variableAt_detach]
    split
    · exact Variable.bare_detach _ [id]
    · rfl
  · intro w k hk
    rw [variableAt_detach] at hk
    split at hk
    · exact h.handle (Variable.mem_handles_detach.mp hk).1
    · exact h.handle hk
  · intro l s g w hlive hw
    have hattached := h.attached hlive hw
    rw [variableAt_detach]
    split
    · next hwv =>
      have hne : s.id ≠ id := by
        intro hid
        refine hforeign l s hlive.solver hid ?_
        rw [Solver.vars, hlive.generated]
        exact hwv ▸ hw
      rw [Variable.isAttached_detach, hattached]
      simpa using hne
    · exact hattached

/-! ## Solving -/

theorem InSync.ensureGenerated (h : InSync ws) (l : ListenerRef) :
    InSync (ws.ensureGenerated l).1 := by
  unfold Workspace.ensureGenerated
  split
  · exact h
  · exact h.generate l

/-- Where there is no solver, there is nothing to prepare. -/
theorem ensureGenerated_of_no_solver (hs : ws.solver? l = none) :
    (ws.clear l).solver? l = none
      ∧ Workspace.ensureGenerated l (ws.clear l) = (ws.clear l, .error .noSolver) := by
  have hnone : (ws.clear l).solver? l = none := by
    rw [clear, solver?_updateSolver, if_pos rfl, solver?_hold, hs, Option.map_none]
  refine ⟨hnone, ?_⟩
  rw [Workspace.ensureGenerated, hnone, Option.any_none, if_neg Bool.false_ne_true,
    Workspace.generate, hnone]

/-- Where there is no solver, nothing is generated and nobody is asked. -/
theorem solve_eq_of_no_solver (hs : ws.solver? l = none) (c : Conduct α μ) :
    ws.solve c l = ((ws.clear l).release l, .error .noSolver) := by
  obtain ⟨-, hready⟩ := ensureGenerated_of_no_solver hs
  have hheld : (ws.hold l).solveHeld c l = (ws.clear l, .error .noSolver) := by
    unfold clear at hready
    rw [solveHeld, hready]
    rfl
  rw [Workspace.solve, hheld]

theorem solve_of_no_solver (hs : ws.solver? l = none) (c : Conduct α μ) :
    (ws.solve c l).1 = (ws.clear l).release l := by
  rw [solve_eq_of_no_solver hs]

/-- A solve on a solver that is alive, which leaves frozen variables at
their values. -/
theorem InSync.solve (hquiet : c.QuietBackends) (h : InSync ws)
    (halive : (ws.listener? l).any Listener.isAlive = true)
    (hpins : ∀ v, (ws.variableAt v).freeze.isFrozen = true →
      ((ws.solve c l).1.variableAt v).assigned.map Level.value
        = (ws.variableAt v).assigned.map Level.value) : InSync (ws.solve c l).1 := by
  have hcleared : InSync (ws.clear l) := (h.hold halive).updateSolution none
  cases hs : ws.solver? l with
  | none =>
    rw [solve_of_no_solver hs]
    exact hcleared.release l
  | some s =>
    obtain ⟨g, hp, hready⟩ := exists_prepared hs
    obtain ⟨asked, quiet, hsame, hcases⟩ := ask_cases hquiet (prepare l ws) l
      { s with generated := some g, solution := none } g
    have hsync : InSync quiet := (hcleared.ensureGenerated l).of_sameState hsame
    have hsolve := solve_eq_ask c hready hp.solver rfl
    rcases hcases with ⟨e, -, hask⟩ | ⟨solution, -, hask⟩
    · rw [hsolve, hask]
      exact hsync.release l
    · rw [hsolve, hask] at hpins ⊢
      have hbare := (hp.of_sameState hsame).bare
      have hsettled : InSync (quiet.settle l { s with generated := some g, solution := none } g
          solution) := by
        refine InSync.updateSolution (InSync.of_sameState ?_ (sameState_emit _ _)) (some solution)
        split
        · next hfeasible =>
          refine hsync.assigned (sameListeners_assignAll ..)
            (exists_variableAt_assignAll quiet _ _ solution) fun v hv => ?_
          have hfreeze : (quiet.variableAt v).freeze = (ws.variableAt v).freeze :=
            Variable.freeze_eq_of_bare (hbare v)
          have hbefore : (quiet.variableAt v).assigned = (ws.variableAt v).assigned :=
            Variable.assigned_eq_of_bare (hbare v)
          have hafter := Variable.assigned_eq_of_bare (bare_variableAt_release
            (quiet.settle l { s with generated := some g, solution := none } g solution) l v)
          rw [variableAt_settle, if_pos hfeasible] at hafter
          rw [hbefore, ← hpins v (hfreeze ▸ hv)]
          exact congrArg (Option.map Level.value) hafter.symm
        · exact hsync
      exact hsettled.release l

end Workspace

end Milp
