/-
Milp.Proofs.FreezeWindow — freezing variables for a while leaves no trace.

`Workspace.Thaws` relates a workspace to the same one with every freeze
lifted: the variables are not frozen, and the column that a solver has for a
frozen variable has the bounds that the variable stores. Of two runs, one
with freezes and one without, every state of the first thaws to the state of
the second: a freeze or a release is not seen once all is thawed
(`Thaws.perform_freezing`), and any other operation does to the thawed
workspace what it does to the workspace (`Thaws.perform`). In particular a
bound that is held back changes the thawed column at once, as it does where
nothing is frozen.

Where no variable is frozen there is nothing left to thaw, so the two runs
end in the same state (`run_without_freezing`).

A freeze finds the column of its variable at the stored bounds because the
thawed workspace is in sync. It stays so because in it no variable is ever
frozen, whatever is assigned in between. Being in sync is more than having the
problems of the models: without the identities of handles, or without the
solvers at their variables, a freeze can be seen in the end (`windows_seen`).
-/
import Milp.Proofs.Acceptance

namespace Milp

variable {α μ : Type}

/-! ## Thawing -/

/-- The variable, released from every freeze. -/
def Variable.thawed (x : Variable α) : Variable α := { x with freeze := .unfrozen }

/-- The column of a variable, with the bounds that a freeze keeps from it. -/
def Column.thawed (x : Variable α) (column : Column α) : Column α :=
  if x.freeze.isFrozen then { column with lower := x.lower, upper := x.upper } else column

/-- The problem with every column thawed. -/
def Generated.thawed (f : VariableRef → Variable α) (g : Generated α) : Generated α :=
  { g with problem.columns := g.problem.columns.mapIdx fun i column =>
      g.vars[i]?.elim column fun v => column.thawed (f v) }

/-- The solver with its problem thawed. -/
def Solver.thawed (f : VariableRef → Variable α) (s : Solver α) : Solver α :=
  { s with generated := s.generated.map (·.thawed f) }

@[simp] theorem Solver.id_thawed (f : VariableRef → Variable α) (s : Solver α) :
    (s.thawed f).id = s.id := rfl

@[simp] theorem Solver.model_thawed (f : VariableRef → Variable α) (s : Solver α) :
    (s.thawed f).model = s.model := rfl

@[simp] theorem Solver.vars_thawed (f : VariableRef → Variable α) (s : Solver α) :
    (s.thawed f).vars = s.vars := by
  simp only [vars, thawed]
  cases s.generated <;> rfl

/-- The listener with its problem thawed. One that is dead hears of nothing,
and has nothing to thaw. -/
def Listener.thawed (f : VariableRef → Variable α) (a : Listener α) : Listener α :=
  if a.isAlive then a.mapSolver (Solver.thawed f) else a

namespace Generated

variable {f f' : VariableRef → Variable α} {g : Generated α}

theorem getElem?_columns_thawed (f : VariableRef → Variable α) (g : Generated α) (i : Nat) :
    (g.thawed f).problem.columns[i]? = g.problem.columns[i]?.map fun column =>
      g.vars[i]?.elim column fun v => column.thawed (f v) := by
  simp [thawed]

/-- Thawing reads the variables of the problem only. -/
theorem thawed_congr (h : ∀ v ∈ g.vars, Column.thawed (f' v) = Column.thawed (f v)) :
    g.thawed f' = g.thawed f := by
  have hcolumns : (g.thawed f').problem.columns = (g.thawed f).problem.columns := by
    refine List.ext_getElem? fun i => ?_
    rw [getElem?_columns_thawed, getElem?_columns_thawed]
    cases hv : g.vars[i]? with
    | none => rfl
    | some v =>
      have hsame := h v (List.mem_of_getElem? hv)
      simp only [Option.elim_some, hsame]
  exact congrArg (fun columns => { g with problem.columns := columns }) hcolumns

/-- Where no variable is frozen, there is nothing to thaw. -/
theorem thawed_of_not_frozen (h : ∀ v, (f v).freeze.isFrozen = false) : g.thawed f = g := by
  have hcolumns : (g.thawed f).problem.columns = g.problem.columns := by
    refine List.ext_getElem? fun i => ?_
    rw [getElem?_columns_thawed]
    cases g.vars[i]? with
    | none => exact Option.map_id'
    | some v =>
      have hsame : (fun column : Column α => column.thawed (f v)) = id :=
        funext fun column => by rw [Column.thawed, h v, if_neg Bool.false_ne_true, id]
      simp only [Option.elim_some]
      rw [hsame, Option.map_id]
      rfl
  exact congrArg (fun columns => { g with problem.columns := columns }) hcolumns

/-- A problem that is generated in a freeze thaws to the one that would be
generated without it. -/
theorem thawed_compiled [Scalar α] (f : VariableRef → Variable α) (config : Config α)
    (m : Model α) :
    (compiled f config m).thawed f = compiled (fun v => (f v).thawed) config m := by
  have hcolumn : ∀ x : Variable α, (columnOf x).thawed x = columnOf x.thawed := by
    intro x
    unfold Column.thawed
    cases hfrozen : x.freeze.isFrozen with
    | true => rfl
    | false =>
      have hbounds := Variable.effectiveBounds_of_not_frozen hfrozen
      simp only [columnOf, hbounds]
      rfl
  have hcolumns : ((compiled f config m).thawed f).problem.columns
      = m.vars.map fun v => columnOf (f v).thawed := by
    refine List.ext_getElem? fun i => ?_
    rw [getElem?_columns_thawed]
    simp only [compiled, List.getElem?_map, Option.map_map]
    cases m.vars[i]? with
    | none => rfl
    | some v => exact congrArg some (hcolumn (f v))
  exact congrArg (fun columns => { compiled f config m with problem.columns := columns }) hcolumns

end Generated

/-- Thawing after news of one variable, where it comes to news of the thawed
variable in the one column concerned. -/
theorem Generated.thawed_follow {f f' : VariableRef → Variable α} {g : Generated α}
    (hg : g.vars.Nodup) {v : VariableRef} (hothers : ∀ w, w ≠ v → f' w = f w)
    {news news' : Option (Change α)}
    (hcolumn : ∀ (i : Nat) (column : Column α), g.vars[i]? = some v →
      g.problem.columns[i]? = some column →
      (column.follow news).thawed (f' v) = (column.thawed (f v)).follow news') :
    (g.follow v news).thawed f' = (g.thawed f).follow v news' := by
  have hrest : ∀ (news : Option (Change α)) (g : Generated α), g.follow v news
      = { g with problem.columns := (g.follow v news).problem.columns } := by
    intro news g
    cases news with
    | none => rfl
    | some change =>
      simp only [follow, Option.elim_some, hear]
      split <;> rfl
  have hcolumns : ((g.follow v news).thawed f').problem.columns
      = ((g.thawed f).follow v news').problem.columns := by
    have hg' : (g.thawed f).vars.Nodup := hg
    refine List.ext_getElem? fun i => ?_
    rw [getElem?_columns_thawed, getElem?_columns_follow hg, getElem?_columns_follow hg',
      getElem?_columns_thawed, vars_follow, Option.map_map, Option.map_map]
    refine Option.map_congr fun column hi => ?_
    simp only [Function.comp_apply]
    change _ = if g.vars[i]? = some v then _ else _
    cases hw : g.vars[i]? with
    | none => rfl
    | some w =>
      by_cases hwv : w = v
      · subst hwv
        simpa using hcolumn i column hw hi
      · simp [hwv, hothers w hwv]
  rw [hrest news' (g.thawed f), ← hcolumns]
  rw [hrest news g]
  rfl

namespace Listener

variable {f f' : VariableRef → Variable α}

@[simp] theorem isAlive_thawed (f : VariableRef → Variable α) (a : Listener α) :
    (a.thawed f).isAlive = a.isAlive := by
  unfold thawed
  split
  · exact isAlive_mapSolver _ a
  · rfl

theorem thawed_of_dead {a : Listener α} (h : a.isAlive = false) : a.thawed f = a := by
  rw [thawed, h, if_neg Bool.false_ne_true]

theorem solver?_thawed {a : Listener α} (h : a.isAlive = true) :
    (a.thawed f).solver? = a.solver?.map (Solver.thawed f) := by
  rw [thawed, if_pos h]
  exact solver?_mapSolver _ a

theorem thawed_congr (h : ∀ v, Column.thawed (f' v) = Column.thawed (f v)) (a : Listener α) :
    a.thawed f' = a.thawed f := by
  have hsolver : Solver.thawed f' = Solver.thawed f := by
    funext s
    have hg : Generated.thawed f' = Generated.thawed f :=
      funext fun g => Generated.thawed_congr fun v _ => h v
    rw [Solver.thawed, hg, Solver.thawed]
  rw [thawed, hsolver, thawed]

theorem thawed_of_not_frozen (h : ∀ v, (f v).freeze.isFrozen = false) (a : Listener α) :
    a.thawed f = a := by
  unfold thawed
  split
  · refine mapSolver_eq_self fun s _ => ?_
    have hg : Generated.thawed f = fun g => g :=
      funext fun g => Generated.thawed_of_not_frozen h
    rw [Solver.thawed, hg, Option.map_id']
  · rfl

theorem thawed_mapSolver {a : Listener α} {t t' : Solver α → Solver α}
    (halive : a.isAlive = true) (h : ∀ s, a.solver? = some s → (t s).thawed f' = t' (s.thawed f)) :
    (a.mapSolver t).thawed f' = (a.thawed f).mapSolver t' := by
  rw [thawed, isAlive_mapSolver, thawed, if_pos halive, if_pos halive, mapSolver_mapSolver,
    mapSolver_mapSolver]
  exact mapSolver_congr h

/-- Thawing after news of a variable, where it comes to news after thawing
for the problem that the listener has. -/
theorem thawed_follow {a : Listener α} (halive : a.isAlive = true) {v : VariableRef}
    {news news' : Option (Change α)} (h : ∀ s g, a.solver? = some s → s.generated = some g →
      (g.follow v news).thawed f' = (g.thawed f).follow v news') :
    (a.follow v news).thawed f' = (a.thawed f).follow v news' := by
  rw [follow_eq_mapSolver, follow_eq_mapSolver]
  refine thawed_mapSolver halive fun s hs => ?_
  simp only [Solver.thawed]
  cases hg : s.generated with
  | none => rfl
  | some g => simp only [Option.map_some, h s g hs hg]

theorem standing_thawed (f : VariableRef → Variable α) (a : Listener α) :
    (a.thawed f).standing = a.standing := by
  unfold thawed
  split
  · exact standing_mapSolver (by intro s; rfl) a
  · rfl

end Listener

/-! ## Edits of a thawed variable -/

namespace Variable

@[simp] theorem handles_thawed (x : Variable α) : x.thawed.handles = x.handles := rfl

theorem thawed_of_not_frozen {x : Variable α} (h : x.freeze.isFrozen = false) : x.thawed = x := by
  cases hx : x.freeze with
  | unfrozen => rw [thawed, ← hx]
  | frozen n =>
    rw [hx] at h
    cases h

theorem thawed_attach (x : Variable α) (h : Handle) : (x.attach h).thawed = x.thawed.attach h := by
  unfold attach
  have hsame : x.thawed.isAttached h.id = x.isAttached h.id := rfl
  rw [hsame]
  split <;> rfl

theorem thawed_detach (x : Variable α) (ids : List SolverId) :
    (x.detach ids).thawed = x.thawed.detach ids := rfl

end Variable

/-- Whether an operation freezes or releases a variable. -/
def Operation.isFreezing : Operation α → Bool
  | .freeze _ | .unfreeze _ => true
  | _ => false

variable [Scalar α]

/-- A change other than a freeze or a release stores in the thawed variable
what it stores in the variable. The thawed column follows the news of it,
whether or not the freeze keeps them from the column. -/
theorem Operation.edit?_thawed {op : Operation α} (hop : op.isFreezing = false) {x : Variable α}
    {e : Edit α} (hedit : op.edit? x = some e) : ∃ e', op.edit? x.thawed = some e'
      ∧ (x.write e.store).thawed = x.thawed.write e'.store
      ∧ ∀ column : Column α, (column.follow e.change?).thawed (x.write e.store)
          = (column.thawed x).follow e'.change? := by
  cases op with
  | setName v name =>
    refine ⟨e, hedit, ?_⟩
    cases editCase hedit with
    | name hnew =>
      refine ⟨rfl, fun column => ?_⟩
      cases hfreeze : x.freeze.isFrozen <;>
        simp only [Column.thawed, Variable.write, hfreeze] <;> rfl
  | setKind v kind =>
    refine ⟨e, hedit, ?_⟩
    cases editCase hedit with
    | kind hnew =>
      refine ⟨rfl, fun column => ?_⟩
      cases hfreeze : x.freeze.isFrozen <;>
        simp only [Column.thawed, Variable.write, hfreeze] <;> rfl
  | setBound side v b =>
    have hthawed : (Operation.setBound side v b).edit? x.thawed
        = some ⟨.bound side b, some (.setBound side, .bound side b)⟩ := by
      have hbound : x.thawed.bound side = x.bound side := by cases side <;> rfl
      simp only [edit?] at hedit ⊢
      rw [hbound]
      split at hedit
      · cases hedit
      · next hnew => exact if_neg hnew
    have hwrite : (x.withBound side b).thawed = x.thawed.withBound side b := by
      cases side <;> rfl
    refine ⟨_, hthawed, ?_⟩
    cases editCase hedit with
    | bound _ hfree =>
      have hfree' : (x.withBound side b).freeze.isFrozen = false :=
        (congrArg Freeze.isFrozen (Variable.freeze_withBound x side b)).trans hfree
      refine ⟨hwrite, fun column => ?_⟩
      simp only [Column.thawed, Variable.write, hfree, hfree']
      rfl
    | held _ hfrozen =>
      have hfrozen' : (x.withBound side b).freeze.isFrozen = true :=
        (congrArg Freeze.isFrozen (Variable.freeze_withBound x side b)).trans hfrozen
      refine ⟨hwrite, fun column => ?_⟩
      simp only [Column.thawed, Variable.write, hfrozen, hfrozen', if_true]
      cases side <;> rfl
  | freeze v => cases hop
  | unfreeze v => cases hop
  | _ => cases hedit

/-- What is refused in the variable is refused in the thawed one. -/
theorem Operation.edit?_thawed_eq_none {op : Operation α} (hop : op.isFreezing = false)
    {x : Variable α} (hedit : op.edit? x = none) : op.edit? x.thawed = none := by
  cases op with
  | setBound side v b =>
    have hbound : x.thawed.bound side = x.bound side := by cases side <;> rfl
    simp only [edit?] at hedit ⊢
    rw [hbound]
    split at hedit
    · next hnew => exact if_pos hnew
    · cases hedit
  | freeze v => cases hop
  | unfreeze v => cases hop
  | _ => exact hedit

/-- A freeze or a release is not seen in the thawed variable, nor in a
thawed column that has the variable's own bounds while it is not frozen. -/
theorem Operation.thawed_freezing {op : Operation α} (hop : op.isFreezing = true)
    {x : Variable α} {e : Edit α} (hedit : op.edit? x = some e) :
    (x.write e.store).thawed = x.thawed
      ∧ ∀ column : Column α, (x.freeze.isFrozen = false → column.lower = x.lower
          ∧ column.upper = x.upper) →
        (column.follow e.change?).thawed (x.write e.store) = column.thawed x := by
  have hkept : ∀ f : Freeze, f.isFrozen = x.freeze.isFrozen → ∀ column : Column α,
      column.thawed (x.write (.freeze f)) = column.thawed x := by
    intro f hf column
    simp only [Column.thawed, Variable.write, hf]
  cases editCase hedit with
  | pin hfree hvalue =>
    refine ⟨rfl, fun column hcolumn => ?_⟩
    obtain ⟨hlower, hupper⟩ := hcolumn hfree
    simp only [Column.thawed, Variable.write, Freeze.isFrozen_deepen, hfree]
    rw [← hlower, ← hupper]
    rfl
  | nested hfrozen =>
    refine ⟨rfl, fun column _ => hkept _ ?_ column⟩
    rw [Freeze.isFrozen_deepen, hfrozen]
  | restore hlast =>
    refine ⟨rfl, fun column _ => ?_⟩
    simp only [Column.thawed, Variable.write, hlast]
    rfl
  | release hmore =>
    refine ⟨rfl, fun column _ => hkept _ ?_ column⟩
    exact Freeze.isFrozen_release_of_ne hmore
  | _ => cases hop

namespace Workspace

variable {ws ws' ws₁ : Workspace α μ} {c : Conduct α μ} {v : VariableRef} {k l : ListenerRef}

/-! ## The workspace without freezes -/

/-- The second workspace is the first with every freeze lifted. It is in
sync, which the first need not be: an assignment may have moved a frozen
variable away from where it is pinned. -/
structure Thaws (ws ws' : Workspace α μ) : Prop where
  size : ws'.vars.length = ws.vars.length
  variableAt : ∀ v, ws'.variableAt v = (ws.variableAt v).thawed
  listener : ∀ k, ws'.listener? k = (ws.listener? k).map (Listener.thawed ws.variableAt)
  inSync : ws'.InSync

theorem Thaws.sameStanding (h : Thaws ws ws') : SameStanding ws ws' := by
  intro k
  rw [h.listener, Option.map_map]
  exact Option.map_congr fun a _ => Listener.standing_thawed _ a

theorem Thaws.attentive (h : Thaws ws ws') (hready : ws.Attentive) : ws'.Attentive := by
  intro v k hk
  rw [h.variableAt] at hk
  exact h.sameStanding.ready (hready v k hk)

/-- In a workspace in sync that is not frozen anywhere there is nothing to
thaw. -/
theorem InSync.thaws (h : ws.InSync) (hfree : ∀ v, (ws.variableAt v).freeze.isFrozen = false) :
    Thaws ws ws where
  size := rfl
  variableAt := fun v => (Variable.thawed_of_not_frozen (hfree v)).symm
  listener := by
    intro k
    have hsame : Listener.thawed ws.variableAt = id :=
      funext fun a => Listener.thawed_of_not_frozen hfree a
    rw [hsame, Option.map_id]
    rfl
  inSync := h

/-- A solver that is alive has the variables of its model, and its thawed
problem is the one that is generated without freezes. -/
theorem Thaws.live (h : Thaws ws ws') {a : Listener α} (ha : ws.listener? k = some a)
    (halive : a.isAlive = true) {s : Solver α} (hs : a.solver? = some s) {g : Generated α}
    (hg : s.generated = some g) :
    ws'.Live k (s.thawed ws.variableAt) (g.thawed ws.variableAt) := by
  have hlistener : ws'.listener? k = some (a.thawed ws.variableAt) := by
    rw [h.listener, ha, Option.map_some]
  refine ⟨?_, ?_, ?_⟩
  · rw [hlistener, Option.any_some, Listener.isAlive_thawed, halive]
  · rw [solver?, hlistener, Option.bind_some, Listener.solver?_thawed halive, hs, Option.map_some]
  · rw [Solver.thawed, hg, Option.map_some]

/-- A column of a variable that is not frozen has its bounds. -/
theorem Thaws.bounds_column (h : Thaws ws ws') {s : Solver α} {g : Generated α}
    (hlive : ws'.Live k s (g.thawed ws.variableAt)) {i : Nat} (hv : g.vars[i]? = some v)
    {column : Column α} (hcolumn : g.problem.columns[i]? = some column)
    (hfree : (ws.variableAt v).freeze.isFrozen = false) :
    column.lower = (ws.variableAt v).lower ∧ column.upper = (ws.variableAt v).upper := by
  have hthawed : (g.thawed ws.variableAt).problem.columns[i]? = some column := by
    rw [Generated.getElem?_columns_thawed, hcolumn, hv, Option.map_some, Option.elim_some,
      Column.thawed, hfree, if_neg Bool.false_ne_true]
  have hfaithful := Generated.faithful_compiled ws'.variableAt s.config s.model
  rw [← h.inSync.problem hlive] at hfaithful
  have hplace := hfaithful.column v i hv
  rw [hthawed, h.variableAt] at hplace
  rw [Option.some.inj hplace]
  exact ⟨rfl, rfl⟩

/-- What the listeners have heard of an edit thaws to what they hear of it in
the thawed workspace, if that is so for a column of the variable. -/
theorem Thaws.listener_followed (h : Thaws ws ws') {e : Edit α} (hfollowed : Followed v e ws ws₁)
    (news : Option (Change α)) (hcolumn : ∀ column : Column α,
      ((ws.variableAt v).freeze.isFrozen = false → column.lower = (ws.variableAt v).lower
        ∧ column.upper = (ws.variableAt v).upper) →
      (column.follow e.change?).thawed ((ws.variableAt v).write e.store)
        = (column.thawed (ws.variableAt v)).follow news) (k : ListenerRef) :
    (ws₁.listener? k).map (Listener.thawed ws₁.variableAt) = (ws'.listener? k).map fun a =>
      if a.isAlive = true ∧ k ∈ (ws'.variableAt v).handles.map Handle.listener
      then a.follow v news else a := by
  have hothers : ∀ w, w ≠ v → ws₁.variableAt w = ws.variableAt w := by
    intro w hw
    rw [hfollowed.variableAt, if_neg fun hboth => hw hboth.1]
  rw [hfollowed.listener, h.listener, Option.map_map, Option.map_map]
  refine Option.map_congr fun a ha => ?_
  simp only [Function.comp_apply, Listener.isAlive_thawed, h.variableAt, Variable.handles_thawed]
  cases halive : a.isAlive with
  | false => simp [Listener.thawed_of_dead halive]
  | true =>
    by_cases hk : k ∈ (ws.variableAt v).handles.map Handle.listener
    · rw [if_pos ⟨rfl, hk⟩, if_pos ⟨rfl, hk⟩]
      refine Listener.thawed_follow halive fun s g hs hg => ?_
      have hlive := h.live ha halive hs hg
      have hnodup : g.vars.Nodup := h.inSync.vars_eq hlive ▸ Model.nodup_vars _
      refine Generated.thawed_follow hnodup hothers fun i column hv hi => ?_
      have hrange : v.index < ws.vars.length :=
        h.size ▸ h.inSync.index_lt hlive (List.mem_of_getElem? hv)
      rw [hfollowed.variableAt, if_pos ⟨rfl, hrange⟩]
      exact hcolumn column (h.bounds_column hlive hv hi)
    · -- a solver that is alive and not attached has no column for the variable
      rw [if_neg fun hboth => hk hboth.2, if_neg fun hboth => hk hboth.2]
      change (a.follow v none).thawed ws₁.variableAt = (a.thawed ws.variableAt).follow v none
      refine Listener.thawed_follow halive fun s g hs hg => ?_
      have hlive := h.live ha halive hs hg
      refine Generated.thawed_congr fun w hw => ?_
      rw [hothers w]
      rintro rfl
      obtain ⟨handle, hhandle, -, rfl⟩ := h.inSync.exists_handle hlive hw
      rw [h.variableAt] at hhandle
      exact hk (List.mem_map_of_mem hhandle)

/-! ## The operations of both runs -/

/-- A freeze or a release leaves the thawed workspace as it is. -/
theorem Thaws.perform_freezing (hc : c.Accepting) (h : Thaws ws ws') (hready : ws.Attentive)
    {op : Operation α} (hop : op.isFreezing = true) : Thaws (ws.perform c op).1 ws' := by
  obtain ⟨v, hv⟩ : ∃ v, op.target? = some v := by
    cases op with
    | freeze v => exact ⟨v, rfl⟩
    | unfreeze v => exact ⟨v, rfl⟩
    | _ => cases hop
  obtain ⟨-, hrefused, hdone⟩ := perform_followed hc (hready v) hv
  cases hedit : op.edit? (ws.variableAt v) with
  | none =>
    rw [hrefused hedit]
    exact h
  | some e =>
    have hfollowed := hdone e hedit
    obtain ⟨hwrite, hcolumn⟩ := Operation.thawed_freezing hop hedit
    refine ⟨h.size.trans hfollowed.size.symm, fun w => ?_, fun k => ?_, h.inSync⟩
    · rw [h.variableAt, hfollowed.variableAt]
      split
      · next hw => rw [hw.1, hwrite]
      · rfl
    · rw [h.listener_followed hfollowed none hcolumn]
      simp only [Listener.follow, Option.elim_none, ite_self]
      exact Option.map_id'.symm

/-- Any other change of a variable changes the thawed workspace alike. -/
theorem Thaws.perform_edit (hc : c.Accepting) (h : Thaws ws ws') (hready : ws.Attentive)
    {op : Operation α} (hv : op.target? = some v) (hop : op.isFreezing = false) :
    Thaws (ws.perform c op).1 (ws'.perform c op).1 := by
  have hquiet : c.QuietObservers := fun l v change ws => (hc l v change ws).1
  obtain ⟨-, hrefused, hdone⟩ := perform_followed hc (hready v) hv
  obtain ⟨hheard, hrefused', hdone'⟩ := perform_followed hc (h.attentive hready v) hv
  have hsync : (ws'.perform c op).1.InSync := by
    refine h.inSync.perform hquiet (fun l hl => ?_) ⟨hheard, ?_⟩
    · rw [hl] at hv
      cases hv
    · cases op <;> trivial
  rw [h.variableAt] at hrefused' hdone'
  cases hedit : op.edit? (ws.variableAt v) with
  | none =>
    rw [hrefused hedit, hrefused' (Operation.edit?_thawed_eq_none hop hedit)]
    exact h
  | some e =>
    obtain ⟨e', hedit', hwrite, hcolumn⟩ := Operation.edit?_thawed hop hedit
    have hfollowed := hdone e hedit
    have hfollowed' := hdone' e' hedit'
    refine ⟨?_, fun w => ?_, fun k => ?_, hsync⟩
    · rw [hfollowed'.size, hfollowed.size, h.size]
    · rw [hfollowed'.variableAt, hfollowed.variableAt, h.variableAt, h.size]
      split
      · next hw => rw [hw.1, hwrite]
      · rfl
    · rw [hfollowed'.listener, h.listener_followed hfollowed e'.change?
        fun column _ => hcolumn column]

/-- Generating gives a solver the problem without freezes, once thawed. -/
theorem Thaws.generate (h : Thaws ws ws') (hl : ws.Ready l) :
    Thaws (ws.generate l).1 (ws'.generate l).1 := by
  have hsync := h.inSync.generate l
  obtain ⟨a, ha, halive, -⟩ := hl
  have hlistener : ws'.listener? l = some (a.thawed ws.variableAt) := by
    rw [h.listener, ha, Option.map_some]
  have hs : ws.solver? l = a.solver? := by rw [solver?, ha, Option.bind_some]
  have hs' : ws'.solver? l = a.solver?.map (Solver.thawed ws.variableAt) := by
    rw [solver?, hlistener, Option.bind_some, Listener.solver?_thawed halive]
  cases hrole : a.solver? with
  | none =>
    rw [hrole] at hs hs'
    rw [Workspace.generate, Workspace.generate, hs, hs']
    exact h
  | some s =>
    rw [hrole] at hs
    rw [hrole, Option.map_some] at hs'
    have hthawed : ∀ v, Column.thawed ((ws.generate l).1.variableAt v)
        = Column.thawed (ws.variableAt v) := by
      intro v
      have hbare : ∀ x : Variable α, Column.thawed x.bare = Column.thawed x := fun x => rfl
      rw [← hbare, bare_variableAt_generate hs, hbare]
    have hproblem : (Generated.compiled ws.variableAt s.config s.model).thawed
          (ws.generate l).1.variableAt
        = Generated.compiled ws'.variableAt s.config s.model := by
      rw [Generated.thawed_congr fun v _ => hthawed v, Generated.thawed_compiled]
      exact Generated.compiled_congr fun v _ => by rw [h.variableAt]
    refine ⟨?_, fun v => ?_, fun k => ?_, hsync⟩
    · rw [size_generate hs', size_generate hs, h.size]
    · have hdetached : (ws'.detachAll s.vars s.id).variableAt v
          = ((ws.detachAll s.vars s.id).variableAt v).thawed := by
        rw [variableAt_detachAll, variableAt_detachAll, h.variableAt]
        split
        · exact (Variable.thawed_detach _ _).symm
        · rfl
      rw [variableAt_generate hs', variableAt_generate hs, h.size]
      simp only [Solver.vars_thawed, Solver.model_thawed, Solver.id_thawed, hdetached]
      by_cases hv : v ∈ s.model.vars ∧ v.index < ws.vars.length
      · rw [if_pos hv, if_pos hv, Variable.thawed_attach]
      · rw [if_neg hv, if_neg hv]
    · rw [listener?_generate hs', listener?_generate hs, h.listener]
      by_cases hk : k = l
      · subst hk
        rw [if_pos rfl, if_pos rfl, ha, Option.map_some, Option.map_some, Option.map_some]
        refine congrArg some (Listener.thawed_mapSolver halive fun s₀ hs₀ => ?_).symm
        simp only [Solver.thawed, Option.map_some, hproblem]
      · rw [if_neg hk, if_neg hk]
        exact Option.map_congr fun b _ => (Listener.thawed_congr hthawed b).symm

/-- A change of variables that thawing does not see in a column. -/
theorem Thaws.of_sameListeners {ws₁' : Workspace α μ} (h : Thaws ws ws')
    (hsame : SameListeners ws ws₁) (hsame' : SameListeners ws' ws₁')
    (hcolumn : ∀ v, Column.thawed (ws₁.variableAt v) = Column.thawed (ws.variableAt v))
    (hthawed : ∀ v, ws₁'.variableAt v = (ws₁.variableAt v).thawed) (hsync : ws₁'.InSync) :
    Thaws ws₁ ws₁' := by
  refine ⟨?_, hthawed, fun k => ?_, hsync⟩
  · rw [hsame'.size, hsame.size, h.size]
  · rw [hsame'.listener?, hsame.listener?, h.listener]
    exact Option.map_congr fun a _ => (Listener.thawed_congr hcolumn a).symm

/-- No variable of the thawed workspace is frozen, so any of them can be given
any level. -/
theorem Thaws.assign (h : Thaws ws ws') (v : VariableRef) (level : Level α) :
    Thaws (ws.assign v level) (ws'.assign v level) := by
  have hsync : (ws'.assign v level).InSync := by
    refine h.inSync.assign fun w hw => ?_
    rw [h.variableAt] at hw
    cases hw
  refine h.of_sameListeners (sameListeners_assign ws v level) (sameListeners_assign ws' v level)
    (fun w => ?_) (fun w => ?_) hsync
  · rw [variableAt_assign]
    split <;> rfl
  · rw [variableAt_assign, variableAt_assign, h.variableAt, h.size]
    split <;> rfl

theorem Thaws.attach (h : Thaws ws ws') (v : VariableRef) {k : Handle}
    (hk : ws.handleOf? k.listener = some k) : Thaws (ws.attach v k) (ws'.attach v k) := by
  have hsync : (ws'.attach v k).InSync :=
    h.inSync.attach ((h.sameStanding.handleOf? k.listener).trans hk)
  refine h.of_sameListeners (sameListeners_attach ws v k) (sameListeners_attach ws' v k)
    (fun w => ?_) (fun w => ?_) hsync
  · have hbare : ∀ x : Variable α, Column.thawed x.bare = Column.thawed x := fun x => rfl
    rw [variableAt_attach]
    split
    · rw [← hbare, Variable.bare_attach, hbare]
    · rfl
  · rw [variableAt_attach, variableAt_attach, h.variableAt, h.size]
    by_cases hw : w = v ∧ w.index < ws.vars.length
    · rw [if_pos hw, if_pos hw, Variable.thawed_attach]
    · rw [if_neg hw, if_neg hw]

/-- An operation that leaves listeners alive and attached, and that attaches
those only that are ready. -/
def Undisturbed (ws : Workspace α μ) : Operation α → Prop
  | .attach _ h => ws.handleOf? h.listener = some h ∧ ws.Ready h.listener
  | .generate l => ws.Ready l
  | .detach .. | .solve _ | .tell .. | .drop _ => False
  | _ => True

instance (ws : Workspace α μ) (op : Operation α) : Decidable (ws.Undisturbed op) :=
  match op with
  | .attach _ h =>
    inferInstanceAs (Decidable (ws.handleOf? h.listener = some h ∧ ws.Ready h.listener))
  | .generate l => inferInstanceAs (Decidable (ws.Ready l))
  | .detach .. | .solve _ | .tell .. | .drop _ => .isFalse id
  | .setName .. | .setBound .. | .setKind .. | .freeze _ | .unfreeze _ | .assign .. =>
    .isTrue trivial

omit [Scalar α] in
theorem SameStanding.undisturbed (h : SameStanding ws ws') {op : Operation α}
    (hop : ws.Undisturbed op) : ws'.Undisturbed op := by
  cases op with
  | attach v k => exact ⟨(h.handleOf? k.listener).trans hop.1, h.ready hop.2⟩
  | generate l => exact h.ready hop
  | _ => exact hop

/-- Listeners stay ready where none changes its standing and no other listener
is attached. -/
theorem Attentive.of_sameStanding (hready : ws.Attentive) {ws₁ : Workspace α μ}
    (hstanding : SameStanding ws ws₁) (hhandles : ∀ v, ∀ h ∈ (ws₁.variableAt v).handles,
      h ∈ (ws.variableAt v).handles ∨ ws.Ready h.listener) : ws₁.Attentive := by
  intro v h hh
  refine hstanding.ready ?_
  exact (hhandles v h hh).elim (hready v h) id

theorem Attentive.assign (hready : ws.Attentive) (v : VariableRef) (level : Level α) :
    SameStanding ws (ws.assign v level) ∧ (ws.assign v level).Attentive := by
  have hstanding := (sameListeners_assign ws v level).sameStanding
  refine ⟨hstanding, hready.of_sameStanding hstanding fun w h hh => Or.inl ?_⟩
  rw [variableAt_assign] at hh
  split at hh <;> exact hh

theorem Attentive.attach (hready : ws.Attentive) (v : VariableRef) {k : Handle}
    (hk : ws.Ready k.listener) :
    SameStanding ws (ws.attach v k) ∧ (ws.attach v k).Attentive := by
  have hstanding := (sameListeners_attach ws v k).sameStanding
  refine ⟨hstanding, hready.of_sameStanding hstanding fun w h hh => ?_⟩
  rw [variableAt_attach] at hh
  split at hh
  · rcases Variable.mem_handles_attach hh with hold | rfl
    · exact Or.inl hold
    · exact Or.inr hk
  · exact Or.inl hh

theorem Attentive.generate (hready : ws.Attentive) {l : ListenerRef} (hl : ws.Ready l) :
    SameStanding ws (ws.generate l).1 ∧ (ws.generate l).1.Attentive := by
  cases hs : ws.solver? l with
  | none =>
    rw [Workspace.generate, hs]
    exact ⟨fun k => rfl, hready⟩
  | some s =>
    have hstanding : SameStanding ws (ws.generate l).1 := by
      intro k
      rw [listener?_generate hs]
      split
      · rw [Option.map_map]
        exact Option.map_congr fun a _ => Listener.standing_mapSolver (by intro s; rfl) a
      · rfl
    refine ⟨hstanding, hready.of_sameStanding hstanding fun v h hh => ?_⟩
    rcases mem_handles_generate hs hh with hold | rfl
    · exact Or.inl hold
    · exact Or.inr hl

/-- An undisturbed operation leaves the listeners ready that are attached. -/
theorem Attentive.perform (hc : c.Accepting) (hready : ws.Attentive) {op : Operation α}
    (hop : ws.Undisturbed op) :
    SameStanding ws (ws.perform c op).1 ∧ (ws.perform c op).1.Attentive := by
  cases hv : op.target? with
  | some v =>
    obtain ⟨-, hrefused, hdone⟩ := perform_followed hc (hready v) hv
    cases hedit : op.edit? (ws.variableAt v) with
    | none =>
      rw [hrefused hedit]
      exact ⟨fun k => rfl, hready⟩
    | some e =>
      have hfollowed := hdone e hedit
      refine ⟨hfollowed.sameStanding, hready.of_sameStanding hfollowed.sameStanding
        fun w h hh => Or.inl ?_⟩
      rw [hfollowed.handles] at hh
      exact hh
  | none =>
    cases op with
    | assign v level => exact hready.assign v level
    | attach v k => exact hready.attach v hop.2
    | generate l => exact hready.generate hop
    | setName v name => cases hv
    | setBound side v b => cases hv
    | setKind v kind => cases hv
    | freeze v => cases hv
    | unfreeze v => cases hv
    | _ => exact hop.elim

/-- Every other operation does to the thawed workspace what it does to the
workspace. -/
theorem Thaws.perform (hc : c.Accepting) (h : Thaws ws ws') (hready : ws.Attentive)
    {op : Operation α} (hop : ws.Undisturbed op) (hother : op.isFreezing = false) :
    Thaws (ws.perform c op).1 (ws'.perform c op).1 := by
  cases hv : op.target? with
  | some v => exact h.perform_edit hc hready hv hother
  | none =>
    cases op with
    | assign v level => exact h.assign v level
    | attach v k => exact h.attach v hop.1
    | generate l => exact h.generate hop
    | setName v name => cases hv
    | setBound side v b => cases hv
    | setKind v kind => cases hv
    | freeze v => cases hv
    | unfreeze v => cases hv
    | _ => exact hop.elim

/-! ## The two runs -/

/-- A run thaws to the same run without freezes and releases. -/
theorem Thaws.run (hc : c.Accepting) {ops : List (Operation α)} (h : Thaws ws ws')
    (hready : ws.Attentive) (hops : ∀ op ∈ ops, ws.Undisturbed op) :
    Thaws (ws.run c (ops.map .operate))
      (ws'.run c ((ops.filter fun op => !op.isFreezing).map .operate)) := by
  induction ops generalizing ws ws' with
  | nil => exact h
  | cons op rest ih =>
    have hop := hops op List.mem_cons_self
    obtain ⟨hstanding, hready₁⟩ := hready.perform hc hop
    have hrest : ∀ later ∈ rest, (ws.perform c op).1.Undisturbed later :=
      fun later hlater => hstanding.undisturbed (hops later (List.mem_cons_of_mem op hlater))
    cases hfreezing : op.isFreezing with
    | true =>
      rw [List.filter_cons_of_neg (by simp [hfreezing])]
      exact ih (h.perform_freezing hc hready hfreezing) hready₁ hrest
    | false =>
      rw [List.filter_cons_of_pos (by simp [hfreezing])]
      exact ih (h.perform hc hready hop hfreezing) hready₁ hrest

/-- Where nothing is frozen, a workspace is its own thawed one. -/
theorem Thaws.eq (h : Thaws ws ws') (hfree : ∀ v, (ws.variableAt v).freeze.isFrozen = false) :
    ws'.vars = ws.vars ∧ ws'.listeners = ws.listeners := by
  constructor
  · refine List.ext_getElem h.size fun i hi hi' => ?_
    have hv := h.variableAt ⟨i⟩
    rw [Variable.thawed_of_not_frozen (hfree ⟨i⟩)] at hv
    simpa [Workspace.variableAt, List.getD_eq_getElem?_getD, hi, hi'] using hv
  · refine List.ext_getElem? fun i => ?_
    have hk := h.listener ⟨i⟩
    have hsame : Listener.thawed ws.variableAt = id :=
      funext fun a => Listener.thawed_of_not_frozen hfree a
    rw [hsame, Option.map_id] at hk
    exact hk

/-- From a workspace in sync without frozen variables, let variables be
changed, assigned, frozen and released, listeners attached and solvers
generate, in any order, with no listener that refuses, acts, dies or is in
use. If no variable is frozen in the end, the run without its freezes and
releases ends in the same state: the variables with their levels and
handles, and the listeners with the problems of the solvers. -/
theorem run_without_freezing (hc : c.Accepting) (hsync : ws.InSync) (hready : ws.Attentive)
    (hfree : ∀ v, (ws.variableAt v).freeze.isFrozen = false) {ops : List (Operation α)}
    (hops : ∀ op ∈ ops, ws.Undisturbed op)
    (hend : ∀ v, ((ws.run c (ops.map .operate)).variableAt v).freeze.isFrozen = false) :
    (ws.run c ((ops.filter fun op => !op.isFreezing).map .operate)).vars
        = (ws.run c (ops.map .operate)).vars
      ∧ (ws.run c ((ops.filter fun op => !op.isFreezing).map .operate)).listeners
        = (ws.run c (ops.map .operate)).listeners := by
  have hstart : Thaws ws ws := hsync.thaws hfree
  have hthaws := hstart.run hc hready hops
  exact hthaws.eq hend

end Workspace

/-! ## A window of two freezes -/

/-- Two variables in one solver, with an observer on the second, which has a
value; the other solver has not generated yet. -/
def windowStart : Workspace Exact Unit := .run idleConduct (sharedRun.take 9) { memory := () }

/-- The second variable is frozen twice over. In the meantime its bounds and
its name change, it is given another value, and a solver generates. -/
def windowRun : List (Operation Exact) :=
  [.freeze ⟨1⟩, .setBound .upper ⟨1⟩ (.finite 3), .freeze ⟨1⟩,
    .assign ⟨1⟩ ⟨⟨0, 1⟩, .finite (1 / 4), 0⟩, .generate ⟨1⟩, .setName ⟨1⟩ "z", .unfreeze ⟨1⟩,
    .setBound .lower ⟨1⟩ 0, .unfreeze ⟨1⟩]

theorem inSync_windowStart : windowStart.InSync := by
  obtain ⟨h₁, h₂, h₃, h₄, h₅, h₆, h₇, h₈, h₉, -⟩ := Workspace.calmRun_sharedRun
  exact Workspace.inSync_run (fun _ _ _ ws => .refl ws) (fun _ _ ws => .refl ws)
    (show Workspace.CalmRun idleConduct (sharedRun.take 9) { memory := () } from
      ⟨h₁, h₂, h₃, h₄, h₅, h₆, h₇, h₈, h₉, trivial⟩) (Workspace.inSync_empty ())

/-- The window moves the pinned column on to the bounds that were set in it. -/
theorem Workspace.windowRun_without_freezing :
    (windowStart.run idleConduct ((windowRun.filter fun op => !op.isFreezing).map .operate)).vars
        = (windowStart.run idleConduct (windowRun.map .operate)).vars
      ∧ (windowStart.run idleConduct
          ((windowRun.filter fun op => !op.isFreezing).map .operate)).listeners
        = (windowStart.run idleConduct (windowRun.map .operate)).listeners := by
  have hstart : ∀ v, (windowStart.variableAt v).freeze.isFrozen = false :=
    forall_variableAt (p := fun x => x.freeze.isFrozen = false) rfl (by decide +kernel)
  have hend : ∀ v, ((windowStart.run idleConduct (windowRun.map .operate)).variableAt
      v).freeze.isFrozen = false :=
    forall_variableAt (p := fun x => x.freeze.isFrozen = false) rfl (by decide +kernel)
  exact run_without_freezing (fun _ _ _ ws => ⟨.refl ws, rfl⟩) inSync_windowStart
    (attentive_of_vars (by decide +kernel)) hstart (by decide +kernel) hend

/-! ## Windows that leave a trace -/

/-- What a run with freezes heeds, short of the identities that handles carry and
of who is attached at the start: the problems are those of the models, and
listeners are alive and not in use. -/
structure Workspace.Window (ws : Workspace Exact Unit) (ops : List (Operation Exact)) :
    Prop where
  problem : ∀ l s g, ws.Live l s g → g = Generated.compiled ws.variableAt s.config s.model
  ready : ws.Attentive
  free : ∀ v, (ws.variableAt v).freeze.isFrozen = false
  calm : ∀ op ∈ ops, ws.Undisturbed op ∨ ∃ v h, op = .attach v h ∧ ws.Ready h.listener
  ended : ∀ v, ((ws.run idleConduct (ops.map .operate)).variableAt v).freeze.isFrozen = false

/-- The bounds of the columns that a solver has. -/
def Workspace.columnBounds (ws : Workspace Exact Unit) (l : ListenerRef) :
    Option (List (Exact × Exact)) :=
  ((ws.solver? l).bind Solver.generated).map fun g =>
    g.problem.columns.map fun column => (column.lower, column.upper)

/-- A solver that has not generated, and an observer. -/
def lentStart : Workspace Exact Unit :=
  .run idleConduct [.newVariable ⟨"x", 0, .finite 10, .continuous⟩,
    .newSolver pointModel ⟨"exact", true⟩ {}, .newObserver] { memory := () }

/-- The observer is attached under the identity of the solver, which generates
while the variable is frozen: it finds itself attached. -/
def lentRun : List (Operation Exact) :=
  [.attach ⟨0⟩ ⟨0, ⟨1⟩⟩, .assign ⟨0⟩ ⟨⟨0, 0⟩, 1, 0⟩, .freeze ⟨0⟩, .generate ⟨0⟩, .unfreeze ⟨0⟩]

/-- A solver that has generated. -/
def joinedStart : Workspace Exact Unit :=
  .run idleConduct [.newVariable ⟨"x", 0, .finite 10, .continuous⟩,
    .newSolver pointModel ⟨"exact", true⟩ {}, .operate (.generate ⟨0⟩)] { memory := () }

/-- The solver is detached by hand. -/
def leftStart : Workspace Exact Unit := joinedStart.detach ⟨0⟩ 0

/-- The solver is attached again while a bound is held back. -/
def leftRun : List (Operation Exact) :=
  [.assign ⟨0⟩ ⟨⟨0, 0⟩, 1, 0⟩, .freeze ⟨0⟩, .setBound .upper ⟨0⟩ (.finite 5),
    .attach ⟨0⟩ ⟨0, ⟨0⟩⟩, .unfreeze ⟨0⟩]

namespace Workspace

theorem inSync_lentStart : lentStart.InSync :=
  inSync_run (fun _ _ _ ws => .refl ws) (fun _ _ ws => .refl ws)
    ⟨trivial, show ∀ v ∈ pointModel.vars, v.index < 1 by decide +kernel, trivial, trivial⟩
    (inSync_empty ())

theorem window_lentRun : lentStart.Window lentRun where
  problem := fun _ _ _ hlive => inSync_lentStart.problem hlive
  ready := attentive_of_vars (by decide +kernel)
  free := forall_variableAt (p := fun x => x.freeze.isFrozen = false) rfl (by decide +kernel)
  calm := by
    have hrest : ∀ op ∈ lentRun.tail, lentStart.Undisturbed op := by decide +kernel
    exact List.forall_mem_cons.mpr
      ⟨Or.inr ⟨⟨0⟩, ⟨0, ⟨1⟩⟩, rfl, by decide +kernel⟩, fun op hop => Or.inl (hrest op hop)⟩
  ended := forall_variableAt (p := fun x => x.freeze.isFrozen = false) rfl (by decide +kernel)

theorem inSync_joinedStart : joinedStart.InSync :=
  inSync_run (fun _ _ _ ws => .refl ws) (fun _ _ ws => .refl ws)
    ⟨trivial, show ∀ v ∈ pointModel.vars, v.index < 1 by decide +kernel,
      ⟨by decide +kernel, trivial⟩, trivial⟩ (inSync_empty ())

/-- No column shows that the solver is detached. -/
theorem window_leftRun : leftStart.Window leftRun where
  problem := by
    intro l s g hlive
    have hsame : joinedStart.SameListeners leftStart := sameListeners_updateVariable ..
    rw [inSync_joinedStart.problem (hsame.live hlive)]
    refine Generated.compiled_congr fun v _ => ?_
    rw [leftStart, variableAt_detach]
    split <;> rfl
  ready := attentive_of_vars (by decide +kernel)
  free := forall_variableAt (p := fun x => x.freeze.isFrozen = false) rfl (by decide +kernel)
  calm := by
    have hops : ∀ op ∈ leftRun, leftStart.Undisturbed op := by decide +kernel
    exact fun op hop => Or.inl (hops op hop)
  ended := forall_variableAt (p := fun x => x.freeze.isFrozen = false) rfl (by decide +kernel)

/-- With a handle that carries another's identity, or a solver that was not
attached, the freezes of a run are seen in what it leaves: the release does not
reach the column that the freeze has pinned, or tells a solver of a bound that it
would not have heard of. -/
theorem windows_seen :
    (lentStart.Window lentRun
      ∧ (lentStart.run idleConduct (lentRun.map .operate)).columnBounds ⟨0⟩ = some [(1, 1)]
      ∧ (lentStart.run idleConduct
          ((lentRun.filter fun op => !op.isFreezing).map .operate)).columnBounds ⟨0⟩
        = some [(0, .finite 10)])
    ∧ leftStart.Window leftRun
      ∧ (leftStart.run idleConduct (leftRun.map .operate)).columnBounds ⟨0⟩
        = some [(0, .finite 5)]
      ∧ (leftStart.run idleConduct
          ((leftRun.filter fun op => !op.isFreezing).map .operate)).columnBounds ⟨0⟩
        = some [(0, .finite 10)] := by
  refine ⟨⟨window_lentRun, ?_, ?_⟩, window_leftRun, ?_, ?_⟩
  · decide +kernel
  · decide +kernel
  · decide +kernel
  · decide +kernel

end Workspace

end Milp
