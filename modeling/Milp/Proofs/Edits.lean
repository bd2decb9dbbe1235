/-
Milp.Proofs.Edits — what the changes of a variable have in common.

Naming, bounding, retyping, freezing and releasing a variable all go the
same way: something is stored in the variable, and its listeners may be
told of one change. `Operation.edit?` says what is stored and what is told,
for a variable as it is (`EditCase` has the cases), and `perform_cases` that
carrying the operation out is no more than that. What holds of every change
of a variable is proved from these and does not open an operation again; what
a freeze and a release answer is in `freeze_cases` and `unfreeze_cases`.

What is told brings a column of the variable up to date with what was
stored (`EditCase.columnOf_store`). The columns themselves are read by variable:
`Solver.column?` is what a solver has for one, if it has anything.
-/
import Milp.Proofs.SyncSteps

namespace Milp

variable {α μ : Type}

/-! ## The column of a variable -/

/-- The column a solver has for a variable. -/
def Solver.column? (s : Solver α) (v : VariableRef) : Option (Column α) :=
  s.generated.bind fun g => (g.offset? v).bind fun i => g.problem.columns[i]?

/-- A solver that hears of a change of a variable changes its column. -/
theorem Solver.column?_hear (s : Solver α) (v : VariableRef) (change : Change α) :
    (s.hear v change).column? v = (s.column? v).map (·.apply change) := by
  cases hg : s.generated with
  | none => simp only [column?, hear, hg, Option.map_none, Option.bind_none]
  | some g =>
    simp only [column?, hear, hg, Option.map_some, Option.bind_some, Generated.offset?_hear]
    cases hi : g.offset? v with
    | none => simp only [Option.bind_none, Option.map_none]
    | some i =>
      rw [Generated.hear_of_offset? hi]
      simp [Generated.updateColumn]

/-- The columns of other variables stay as they are. -/
theorem Solver.column?_hear_of_ne {v w : VariableRef} (hne : w ≠ v) (s : Solver α)
    (change : Change α) : (s.hear v change).column? w = s.column? w := by
  cases hg : s.generated with
  | none => simp only [column?, hear, hg, Option.map_none, Option.bind_none]
  | some g =>
    simp only [column?, hear, hg, Option.map_some, Option.bind_some, Generated.offset?_hear]
    cases hi : g.offset? v with
    | none => rw [Generated.hear_of_offset?_eq_none hi]
    | some i =>
      rw [Generated.hear_of_offset? hi]
      cases hj : g.offset? w with
      | none => rfl
      | some j =>
        have hij : i ≠ j := Generated.offset?_ne hne.symm hi hj
        simp [Generated.updateColumn, List.getElem?_modify, hij]

/-- A solver that has just generated has the column of every variable as it
should see it. -/
theorem Solver.column?_of_compiled [Scalar α] {s : Solver α} {f : VariableRef → Variable α}
    {config : Config α} {m : Model α} {v : VariableRef} {column : Column α}
    (hg : s.generated = some (Generated.compiled f config m)) (h : s.column? v = some column) :
    column = Generated.columnOf (f v) := by
  rw [column?, hg, Option.bind_some] at h
  obtain ⟨i, hi, hcolumn⟩ := Option.bind_eq_some_iff.mp h
  have hfaithful := Generated.faithful_compiled f config m
  have hplace := hfaithful.column v i ((hfaithful.offset v i).mp hi)
  exact Option.some.inj (hcolumn.symm.trans hplace)

/-- A solver that is alive has a column for a variable. -/
structure Workspace.LiveColumn (ws : Workspace α μ) (v : VariableRef) (l : ListenerRef)
    (column : Column α) : Prop where
  alive : (ws.listener? l).any Listener.isAlive = true
  column : (ws.solver? l).bind (·.column? v) = some column

/-- In a workspace in sync the column is as the variable is, and the solver
is attached to it. -/
theorem Workspace.InSync.of_liveColumn [Scalar α] {ws : Workspace α μ} {v : VariableRef}
    {l : ListenerRef} {column : Column α} (h : ws.InSync) (hc : ws.LiveColumn v l column) :
    column = Generated.columnOf (ws.variableAt v)
      ∧ l ∈ (ws.variableAt v).handles.map Handle.listener := by
  obtain ⟨s, hs, hcolumn⟩ := Option.bind_eq_some_iff.mp hc.column
  obtain ⟨g, hg, hplace⟩ := Option.bind_eq_some_iff.mp hcolumn
  obtain ⟨i, hi, -⟩ := Option.bind_eq_some_iff.mp hplace
  have hlive : ws.Live l s g := ⟨hc.alive, hs, hg⟩
  have hproblem := h.problem hlive
  refine ⟨Solver.column?_of_compiled (hg.trans (congrArg some hproblem)) hcolumn, ?_⟩
  have hv : v ∈ g.vars := by
    rw [Generated.offset?] at hi
    by_contra hnot
    rw [List.idxOf?_eq_none_iff.mpr hnot] at hi
    cases hi
  obtain ⟨k, hk, -, rfl⟩ := h.exists_handle hlive hv
  exact List.mem_map_of_mem hk

/-! ## Edits -/

/-- What is stored in a variable by one change of it. -/
inductive Write (α : Type) where
  | name (name : String)
  | kind (kind : VariableKind)
  | bound (side : Side) (b : α)
  | freeze (freeze : Freeze)

/-- The variable with something stored. -/
def Variable.write (x : Variable α) : Write α → Variable α
  | .name name => { x with name := .given name }
  | .kind kind => { x with kind }
  | .bound side b => x.withBound side b
  | .freeze freeze => { x with freeze }

/-- No change of a variable attaches or detaches a listener. -/
@[simp] theorem Variable.handles_write (x : Variable α) (w : Write α) :
    (x.write w).handles = x.handles := by
  cases w with
  | bound side b => exact handles_withBound x side b
  | _ => rfl

/-- No change of a variable gives it another level. -/
@[simp] theorem Variable.assigned_write (x : Variable α) (w : Write α) :
    (x.write w).assigned = x.assigned := by
  cases w with
  | bound side b => exact assigned_withBound x side b
  | _ => rfl

/-- What a change of a variable stores, and what its listeners are told of
it, if they are told. -/
structure Edit (α : Type) where
  store : Write α
  news : Option (Action × Change α)

/-- The variable that an operation changes, telling its listeners. -/
def Operation.target? : Operation α → Option VariableRef
  | .setName v _ | .setBound _ v _ | .setKind v _ | .freeze v | .unfreeze v => some v
  | _ => none

variable [Scalar α]

/-- What an operation comes to for its variable: nothing where it is refused,
or where the variable is already so. -/
def Operation.edit? (x : Variable α) : Operation α → Option (Edit α)
  | .setName _ name =>
    if x.name.text = name then none else some ⟨.name name, some (.setName, .name name)⟩
  | .setKind _ kind =>
    if x.kind = kind then none else some ⟨.kind kind, some (.setKind, .kind kind)⟩
  | .setBound side _ b =>
    if Scalar.isNaN b || Scalar.approxEq (x.bound side) b then none
    else some ⟨.bound side b,
      if x.freeze.isFrozen then none else some (.setBound side, .bound side b)⟩
  | .freeze _ =>
    if x.freeze.isFrozen then some ⟨.freeze x.freeze.deepen, none⟩
    else
      match x.value with
      | .error _ => none
      | .ok pinned => some ⟨.freeze x.freeze.deepen, some (.freeze, .bounds pinned pinned)⟩
  | .unfreeze _ => some ⟨.freeze x.freeze.release,
      if x.freeze = .frozen 1 then some (.unfreeze, .bounds x.lower x.upper) else none⟩
  | _ => none

/-- The changes of a variable one by one. -/
inductive EditCase (x : Variable α) : Operation α → Edit α → Prop where
  | name {v : VariableRef} {name : String} (hnew : x.name.text ≠ name) :
    EditCase x (.setName v name) ⟨.name name, some (.setName, .name name)⟩
  | kind {v : VariableRef} {kind : VariableKind} (hnew : x.kind ≠ kind) :
    EditCase x (.setKind v kind) ⟨.kind kind, some (.setKind, .kind kind)⟩
  | bound {side : Side} {v : VariableRef} {b : α} (hnumber : Scalar.isNaN b = false)
    (hfree : x.freeze.isFrozen = false) :
    EditCase x (.setBound side v b) ⟨.bound side b, some (.setBound side, .bound side b)⟩
  /-- A bound that is held back. -/
  | held {side : Side} {v : VariableRef} {b : α} (hnumber : Scalar.isNaN b = false)
    (hfrozen : x.freeze.isFrozen = true) : EditCase x (.setBound side v b) ⟨.bound side b, none⟩
  /-- The first freeze. -/
  | pin {v : VariableRef} {p : α} (hfree : x.freeze.isFrozen = false) (hvalue : x.value = .ok p) :
    EditCase x (.freeze v) ⟨.freeze x.freeze.deepen, some (.freeze, .bounds p p)⟩
  | nested {v : VariableRef} (hfrozen : x.freeze.isFrozen = true) :
    EditCase x (.freeze v) ⟨.freeze x.freeze.deepen, none⟩
  /-- The last release. -/
  | restore {v : VariableRef} (hlast : x.freeze = .frozen 1) :
    EditCase x (.unfreeze v) ⟨.freeze x.freeze.release, some (.unfreeze, .bounds x.lower x.upper)⟩
  | release {v : VariableRef} (hmore : x.freeze ≠ .frozen 1) :
    EditCase x (.unfreeze v) ⟨.freeze x.freeze.release, none⟩

/-- What an operation comes to is one of the cases. -/
theorem Operation.editCase {op : Operation α} {x : Variable α} {e : Edit α}
    (h : op.edit? x = some e) : EditCase x op e := by
  cases op with
  | setName v name =>
    simp only [edit?] at h
    split at h
    · cases h
    · next hnew =>
      cases h
      exact .name hnew
  | setKind v kind =>
    simp only [edit?] at h
    split at h
    · cases h
    · next hnew =>
      cases h
      exact .kind hnew
  | setBound side v b =>
    simp only [edit?] at h
    split at h
    · cases h
    · next hnew =>
      rw [Bool.or_eq_true, not_or, Bool.not_eq_true] at hnew
      cases hfrozen : x.freeze.isFrozen with
      | true =>
        rw [hfrozen] at h
        cases h
        exact .held hnew.1 hfrozen
      | false =>
        rw [hfrozen] at h
        cases h
        exact .bound hnew.1 hfrozen
  | freeze v =>
    simp only [edit?] at h
    split at h
    · next hfrozen =>
      cases h
      exact .nested hfrozen
    · next hfree =>
      split at h
      · cases h
      · next p hvalue =>
        cases h
        exact .pin (Bool.not_eq_true _ ▸ hfree) hvalue
  | unfreeze v =>
    simp only [edit?] at h
    by_cases hlast : x.freeze = .frozen 1
    · rw [if_pos hlast] at h
      cases h
      exact .restore hlast
    · rw [if_neg hlast] at h
      cases h
      exact .release hlast
  | _ => cases h

/-- What is told makes a column of the variable as it was one of the variable
as it is. -/
theorem EditCase.columnOf_store {op : Operation α} {x : Variable α} {e : Edit α} {action : Action}
    {change : Change α} (h : EditCase x op e) (hnews : e.news = some (action, change)) :
    Generated.columnOf (x.write e.store) = (Generated.columnOf x).apply change := by
  cases h with
  | name _ =>
    cases hnews
    rfl
  | kind _ =>
    cases hnews
    rfl
  | bound _ hfree =>
    cases hnews
    exact Generated.columnOf_withBound hfree _ _
  | pin hfree hvalue =>
    cases hnews
    exact Generated.columnOf_first_freeze hfree hvalue
  | restore hlast =>
    cases hnews
    exact Generated.columnOf_last_release hlast
  | held _ _ => cases hnews
  | nested _ => cases hnews
  | release _ => cases hnews

/-- An operation tells listeners where there is news of what it stores. -/
theorem Operation.tells_eq {op : Operation α} {v : VariableRef} (hop : op.target? = some v)
    (ws : Workspace α μ) :
    op.tells ws = ((op.edit? (ws.variableAt v)).bind Edit.news).isSome := by
  cases op with
  | setName w name =>
    obtain rfl := Option.some.inj hop
    by_cases hsame : (ws.variableAt w).name.text = name <;> simp [tells, edit?, hsame]
  | setKind w kind =>
    obtain rfl := Option.some.inj hop
    by_cases hsame : (ws.variableAt w).kind = kind <;> simp [tells, edit?, hsame]
  | setBound side w b =>
    obtain rfl := Option.some.inj hop
    cases hnan : Scalar.isNaN b <;>
      cases hsame : Scalar.approxEq ((ws.variableAt w).bound side) b <;>
        cases hfrozen : (ws.variableAt w).freeze.isFrozen <;> simp [tells, edit?, *]
  | freeze w =>
    obtain rfl := Option.some.inj hop
    cases hfrozen : (ws.variableAt w).freeze.isFrozen <;>
      cases hassigned : (ws.variableAt w).assigned <;>
        simp [tells, edit?, Variable.value, Variable.level?, Except.map, *]
  | unfreeze w =>
    obtain rfl := Option.some.inj hop
    by_cases hlast : (ws.variableAt w).freeze = .frozen 1 <;> simp [tells, edit?, hlast]
  | _ => cases hop

/-! ## Carrying out -/

theorem isOk_map {ε β γ : Type} (f : β → γ) (x : Except ε β) : (x.map f).isOk = x.isOk := by
  cases x <;> rfl

namespace Workspace

variable {ws : Workspace α μ} {v : VariableRef} {c : Conduct α μ}

/-- Stores something in a variable. -/
def write (ws : Workspace α μ) (v : VariableRef) (w : Write α) : Workspace α μ :=
  ws.updateVariable v (·.write w)

/-- Only what is made of the variable as it is matters. -/
theorem updateVariable_congr {f g : Variable α → Variable α}
    (h : f (ws.variableAt v) = g (ws.variableAt v)) :
    ws.updateVariable v f = ws.updateVariable v g := by
  rw [variableAt, List.getD_eq_getElem?_getD] at h
  have hvars : ws.vars.modify v.index f = ws.vars.modify v.index g := by
    refine List.ext_getElem? fun i => ?_
    rw [List.getElem?_modify, List.getElem?_modify]
    by_cases hi : v.index = i
    · subst hi
      cases hx : ws.vars[v.index]? with
      | none => rfl
      | some x =>
        rw [hx, Option.getD_some] at h
        simp [h]
    · simp [hi]
  rw [updateVariable, hvars, updateVariable]

/-- Freezing and releasing tell of bounds, and answer that it was done. -/
theorem answered_announce (c : Conduct α μ) (action : Action) (v : VariableRef) (bounds : α × α)
    (ws : Workspace α μ) : answered Answer.flag (ws.announce c action v bounds)
      = answered (fun _ => .flag true)
        (ws.tellListeners c action v (.bounds bounds.1 bounds.2)) := by
  rw [answered, announce, answered]
  cases ws.tellListeners c action v (.bounds bounds.1 bounds.2) with
  | mk left answer => cases answer <;> rfl

/-- The ways a freeze can go: it is one within a freeze, or the variable has no
value, or the new state is stored and then the listeners are told. -/
theorem freeze_cases (c : Conduct α μ) (v : VariableRef) (ws : Workspace α μ) :
    ((ws.variableAt v).freeze.isFrozen = true
      ∧ ws.freeze c v = (ws.write v (.freeze (ws.variableAt v).freeze.deepen), .ok false))
    ∨ (ws.variableAt v).freeze = .unfrozen
      ∧ (((ws.variableAt v).assigned = none
          ∧ ws.freeze c v = (ws, .error (.unassigned (ws.nameOf v))))
        ∨ ∃ level, (ws.variableAt v).assigned = some level
          ∧ ws.freeze c v = ((ws.write v (.freeze (.frozen 1))).announce c .freeze v
              (level.value, level.value))) := by
  have hstore : (ws.updateVariable v fun x => { x with freeze := x.freeze.deepen })
      = ws.write v (.freeze (ws.variableAt v).freeze.deepen) := updateVariable_congr rfl
  simp only [freeze, hstore]
  cases hfreeze : (ws.variableAt v).freeze with
  | frozen n => exact Or.inl ⟨rfl, rfl⟩
  | unfrozen =>
    refine Or.inr ⟨rfl, ?_⟩
    simp only [Variable.value, Variable.level?]
    cases (ws.variableAt v).assigned with
    | none => exact Or.inl ⟨rfl, rfl⟩
    | some level => exact Or.inr ⟨level, rfl, rfl⟩

/-- The ways a release can go: it is not the last, or the new state is stored
and then the listeners are told. -/
theorem unfreeze_cases (c : Conduct α μ) (v : VariableRef) (ws : Workspace α μ) :
    ((ws.variableAt v).freeze ≠ .frozen 1
      ∧ ws.unfreeze c v = (ws.write v (.freeze (ws.variableAt v).freeze.release), .ok false))
    ∨ (ws.variableAt v).freeze = .frozen 1
      ∧ ws.unfreeze c v = ((ws.write v (.freeze .unfrozen)).announce c .unfreeze v
          ((ws.variableAt v).lower, (ws.variableAt v).upper)) := by
  have hstore : (ws.updateVariable v fun x => { x with freeze := x.freeze.release })
      = ws.write v (.freeze (ws.variableAt v).freeze.release) := updateVariable_congr rfl
  simp only [unfreeze, hstore]
  by_cases hlast : (ws.variableAt v).freeze = .frozen 1
  · rw [if_pos hlast, hlast]
    exact Or.inr ⟨rfl, rfl⟩
  · rw [if_neg hlast]
    exact Or.inl ⟨hlast, rfl⟩

/-- Carrying out a change of a variable: nothing is done, or something is
stored and nobody told, or something is stored and the listeners are told.
Which of them it is does not depend on the clients. -/
theorem perform_cases {op : Operation α} (hop : op.target? = some v) (ws : Workspace α μ) :
    (op.edit? (ws.variableAt v) = none ∧ ∃ answer, ∀ c : Conduct α μ,
        ws.perform c op = (ws, answer))
    ∨ (∃ store, op.edit? (ws.variableAt v) = some ⟨store, none⟩ ∧ ∃ ws' answer,
        (ws.write v store).SameState ws' ∧ ∀ c : Conduct α μ, ws.perform c op = (ws', .ok answer))
    ∨ ∃ store action change, op.edit? (ws.variableAt v) = some ⟨store, some (action, change)⟩
        ∧ ∃ answer, ∀ c : Conduct α μ, ws.perform c op
          = answered (fun _ => answer) ((ws.write v store).tellListeners c action v change) := by
  cases op with
  | setName w name =>
    obtain rfl := Option.some.inj hop
    by_cases hsame : (ws.variableAt w).name.text = name
    · refine Or.inl ⟨if_pos hsame, .ok .done, fun c => ?_⟩
      simp only [perform, answered, setName, if_pos hsame]
      rfl
    · refine Or.inr (Or.inr ⟨_, _, _, if_neg hsame, .done, fun c => ?_⟩)
      simp only [perform, setName, if_neg hsame]
      rfl
  | setKind w kind =>
    obtain rfl := Option.some.inj hop
    by_cases hsame : (ws.variableAt w).kind = kind
    · refine Or.inl ⟨if_pos hsame, .ok .done, fun c => ?_⟩
      simp only [perform, answered, setKind, if_pos hsame]
      rfl
    · refine Or.inr (Or.inr ⟨_, _, _, if_neg hsame, .done, fun c => ?_⟩)
      simp only [perform, setKind, if_neg hsame]
      rfl
  | setBound side w b =>
    obtain rfl := Option.some.inj hop
    simp only [Operation.edit?, perform, setBound]
    cases Scalar.isNaN b with
    | true => exact Or.inl ⟨rfl, _, fun _ => rfl⟩
    | false =>
      cases Scalar.approxEq ((ws.variableAt w).bound side) b with
      | true => exact Or.inl ⟨rfl, _, fun _ => rfl⟩
      | false =>
        cases (ws.variableAt w).freeze.isFrozen with
        | true => exact Or.inr (Or.inl ⟨_, rfl, _, .done, sameState_emit _ _, fun _ => rfl⟩)
        | false => exact Or.inr (Or.inr ⟨_, _, _, rfl, .done, fun _ => rfl⟩)
  | freeze w =>
    obtain rfl := Option.some.inj hop
    have hstore : (ws.updateVariable w fun x => { x with freeze := x.freeze.deepen })
        = ws.write w (.freeze (ws.variableAt w).freeze.deepen) := updateVariable_congr rfl
    simp only [Operation.edit?, perform, freeze, hstore]
    cases (ws.variableAt w).freeze.isFrozen with
    | true => exact Or.inr (Or.inl ⟨_, rfl, _, .flag false, .refl _, fun _ => rfl⟩)
    | false =>
      cases (ws.variableAt w).value with
      | error e => exact Or.inl ⟨rfl, _, fun _ => rfl⟩
      | ok p => exact Or.inr (Or.inr ⟨_, _, _, rfl, .flag true,
          fun c => answered_announce c .freeze w (p, p) _⟩)
  | unfreeze w =>
    obtain rfl := Option.some.inj hop
    have hstore : (ws.updateVariable w fun x => { x with freeze := x.freeze.release })
        = ws.write w (.freeze (ws.variableAt w).freeze.release) := updateVariable_congr rfl
    simp only [Operation.edit?, perform, unfreeze, hstore]
    by_cases hlast : (ws.variableAt w).freeze = .frozen 1
    · simp only [if_pos hlast]
      exact Or.inr (Or.inr ⟨_, _, _, rfl, .flag true, fun c => answered_announce c .unfreeze w
        ((ws.variableAt w).lower, (ws.variableAt w).upper) _⟩)
    · simp only [if_neg hlast]
      exact Or.inr (Or.inl ⟨_, rfl, _, .flag false, .refl _, fun _ => rfl⟩)
  | _ => cases hop

/-- An operation is carried out alike where the listeners are told alike. -/
theorem perform_congr {op : Operation α} (hop : op.target? = some v) {c c' : Conduct α μ}
    (htell : ∀ store action change,
      op.edit? (ws.variableAt v) = some ⟨store, some (action, change)⟩ →
      (ws.write v store).tellListeners c' action v change
        = (ws.write v store).tellListeners c action v change) :
    ws.perform c' op = ws.perform c op := by
  rcases perform_cases hop ws with ⟨-, answer, hperform⟩ | ⟨store, -, ws', answer, -, hperform⟩
      | ⟨store, action, change, hedit, answer, hperform⟩
  · rw [hperform, hperform]
  · rw [hperform, hperform]
  · rw [hperform, hperform, htell store action change hedit]

end Workspace

/-! ## A model of one variable -/

/-- Minimize the one variable. -/
def pointModel : Model Exact where
  name := "point"
  objective := ⟨.minimize, ⟨0, [(⟨0⟩, 1)]⟩⟩
  constraints := []

end Milp
