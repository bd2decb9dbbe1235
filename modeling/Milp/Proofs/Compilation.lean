/-
Milp.Proofs.Compilation — what the generated problem of a model is.

`Generated.compiled` writes the problem of a model down column by column
and row by row, without a failure: the cost of a column is looked up in the
assembled objective, the row of a constraint numbers its normalized terms.
`ofModel_eq_compiled` says that generating builds exactly this, so the
error for a variable outside the model is never met; only the columns
depend on the state of the variables.

`Generated.Faithful` is the same said part by part, of any problem.
-/
import Mathlib.Data.List.Forall2
import Milp.Proofs.Merging
import Milp.Workspace.Solve

namespace Milp

variable {α : Type}

/-! ## Lists with an entry for each variable -/

/-- Changing the entry at a variable's place changes the entry of that
variable. -/
theorem modify_idxOf_map {β : Type} {vars : List VariableRef} (hvars : vars.Nodup)
    {v : VariableRef} (hv : v ∈ vars) (entry : VariableRef → β) (f : β → β) :
    (vars.map entry).modify (vars.idxOf v) f
      = vars.map fun w => if w = v then f (entry w) else entry w := by
  have hlt : vars.idxOf v < vars.length := List.idxOf_lt_length_of_mem hv
  apply List.ext_getElem
  · simp
  · intro i h1 h2
    have hi : i < vars.length := by simpa using h2
    have hplace : vars.idxOf v = i ↔ vars[i] = v := by
      constructor
      · intro h
        subst h
        exact List.getElem_idxOf hlt
      · intro h
        rw [← h]
        exact hvars.idxOf_getElem i hi
    rw [List.getElem_modify]
    by_cases h : vars[i] = v
    · simp [h, hplace.mpr h]
    · have hne : ¬ vars.idxOf v = i := fun he => h (hplace.mp he)
      simp [h, hne]

theorem idxOf?_of_mem {vars : List VariableRef} {v : VariableRef} (hv : v ∈ vars) :
    vars.idxOf? v = some (vars.idxOf v) := by
  obtain ⟨i, hi⟩ := Option.isSome_iff_exists.mp (List.isSome_idxOf?.mpr hv)
  rw [List.idxOf_eq_getD_idxOf?, hi, Option.getD_some]

/-- The place of a variable and the variable at a place are inverse. -/
theorem idxOf?_eq_some_iff_getElem? {vars : List VariableRef} (hvars : vars.Nodup)
    {v : VariableRef} {i : Nat} : vars.idxOf? v = some i ↔ vars[i]? = some v := by
  constructor
  · intro h
    obtain ⟨hi, hv, -⟩ := List.idxOf?_eq_some_iff.mp h
    simp [hi, hv]
  · intro h
    obtain ⟨hi, hv⟩ := List.getElem?_eq_some_iff.mp h
    subst hv
    rw [idxOf?_of_mem (List.getElem_mem hi), hvars.idxOf_getElem i hi]

/-- Where every element is mapped without an error, so is the list. -/
theorem mapM_eq_ok {ε β γ : Type} {f : β → Except ε γ} {g : β → γ} {l : List β}
    (h : ∀ x ∈ l, f x = .ok (g x)) : l.mapM f = .ok (l.map g) := by
  induction l with
  | nil => rfl
  | cons x rest ih =>
    have hrest := ih fun y hy => h y (List.mem_cons_of_mem _ hy)
    rw [List.mapM_cons, h x List.mem_cons_self, hrest]
    rfl

variable [Scalar α]

/-! ## Costs -/

/-- The number of a variable in merged terms, added to `start`. -/
def costFrom (start : α) (terms : List (VariableRef × α)) (v : VariableRef) : α :=
  match terms.lookup v with
  | some k => start + k
  | none => start

theorem costFrom_cons {v : VariableRef} {k : α}
    {rest : List (VariableRef × α)} (start : α) (w : VariableRef) :
    costFrom start ((v, k) :: rest) w = if w = v then start + k else costFrom start rest w := by
  by_cases hw : w = v
  · simp [costFrom, hw]
  · have hne : (w == v) = false := by simpa using hw
    simp [costFrom, hw, List.lookup_cons, hne]

theorem costFrom_of_mem {terms : List (VariableRef × α)} (hnodup : (terms.map Prod.fst).Nodup)
    {v : VariableRef} {k : α} (h : (v, k) ∈ terms) (start : α) :
    costFrom start terms v = start + k := by
  obtain ⟨before, after, rfl⟩ := List.append_of_mem h
  rw [List.map_append, List.map_cons, List.nodup_append] at hnodup
  have hfound : (before ++ (v, k) :: after).lookup v = some k := by
    refine List.lookup_eq_some_iff.mpr ⟨before, after, rfl, fun t ht => ?_⟩
    have hne : t.1 ≠ v := hnodup.2.2 t.1 (List.mem_map_of_mem ht) v List.mem_cons_self
    simpa using Ne.symm hne
  rw [costFrom, hfound]

theorem costFrom_of_not_mem {terms : List (VariableRef × α)} {v : VariableRef}
    (h : v ∉ terms.map Prod.fst) (start : α) : costFrom start terms v = start := by
  have hnone : terms.lookup v = none := by
    rw [List.lookup_eq_none_iff]
    intro t ht
    have hne : t.1 ≠ v := fun he => h (he ▸ List.mem_map_of_mem ht)
    simpa using Ne.symm hne
  rw [costFrom, hnone]

/-- Adding the terms up column by column gives each column the number of
its variable. -/
theorem foldlM_modify_eq_ok {ε : Type} {offset : VariableRef → Except ε Nat}
    {vars : List VariableRef} (hvars : vars.Nodup)
    (hoffset : ∀ v ∈ vars, offset v = .ok (vars.idxOf v))
    {terms : List (VariableRef × α)} (start : VariableRef → α)
    (hmem : ∀ t ∈ terms, t.1 ∈ vars) (hnodup : (terms.map Prod.fst).Nodup) :
    terms.foldlM (fun dense (v, c) => (offset v).map fun i => dense.modify i (· + c))
        (vars.map start)
      = .ok (vars.map fun v => costFrom (start v) terms v) := by
  induction terms generalizing start with
  | nil => rfl
  | cons t rest ih =>
    obtain ⟨v, c⟩ := t
    rw [List.map_cons, List.nodup_cons] at hnodup
    have hv : v ∈ vars := hmem (v, c) List.mem_cons_self
    have hstep : ((offset v).map fun i => (vars.map start).modify i (· + c))
        = .ok (vars.map fun w => if w = v then start w + c else start w) := by
      rw [hoffset v hv]
      exact congrArg Except.ok (modify_idxOf_map hvars hv start (· + c))
    rw [List.foldlM_cons]
    simp only [hstep]
    refine (ih _ (fun t ht => hmem t (List.mem_cons_of_mem _ ht)) hnodup.2).trans ?_
    refine congrArg Except.ok (List.map_congr_left fun w _ => ?_)
    rw [costFrom_cons]
    by_cases hw : w = v
    · -- `v` has no later term, so its entry stays as the first one left it
      subst hw
      rw [costFrom_of_not_mem hnodup.1, if_pos rfl, if_pos rfl]
    · rw [if_neg hw, if_neg hw]

/-! ## The problem of a model -/

namespace Generated

/-- The row of a constraint over the columns of the given variables. -/
def compiledRow (vars : List VariableRef) (c : Constraint α) : Row α where
  sense := c.sense
  terms := c.normalized.1.map fun t => (vars.idxOf t.1, t.2)
  bound := c.normalized.2
  name := c.name

/-- The problem of a model over variables in the given state. -/
def compiled (variableAt : VariableRef → Variable α) (config : Config α) (m : Model α) :
    Generated α where
  problem := {
    name := m.name
    objective := {
      direction := m.objective.direction
      coefficients := m.vars.map (costFrom 0 m.objective.expression.assemble.terms)
      constant := m.objective.expression.assemble.constant }
    columns := m.vars.map fun v => columnOf (variableAt v)
    rows := m.constraints.map (compiledRow m.vars)
    config := config }
  vars := m.vars
  constraints := m.constraints.map Constraint.id

theorem rowOf_eq_ok {ε : Type} {offset : VariableRef → Except ε Nat} {vars : List VariableRef}
    (hoffset : ∀ v ∈ vars, offset v = .ok (vars.idxOf v)) {c : Constraint α}
    (hc : ∀ t ∈ c.normalized.1, t.1 ∈ vars) : rowOf offset c = .ok (compiledRow vars c) := by
  have hterms : c.normalized.1.mapM (numberTerm offset)
      = .ok (c.normalized.1.map fun t => (vars.idxOf t.1, t.2)) := by
    refine mapM_eq_ok fun t ht => ?_
    rw [numberTerm, hoffset t.1 (hc t ht)]
    rfl
  rw [rowOf, hterms]
  rfl

theorem coefficients_eq_ok {ε : Type} {offset : VariableRef → Except ε Nat}
    {vars : List VariableRef} (hvars : vars.Nodup)
    (hoffset : ∀ v ∈ vars, offset v = .ok (vars.idxOf v)) {terms : List (VariableRef × α)}
    (hmem : ∀ t ∈ terms, t.1 ∈ vars) (hnodup : (terms.map Prod.fst).Nodup) :
    coefficients offset vars.length terms = .ok (vars.map (costFrom 0 terms)) := by
  have hstart : List.replicate vars.length (0 : α) = vars.map fun _ => 0 := by simp
  rw [coefficients, hstart]
  exact foldlM_modify_eq_ok hvars hoffset (fun _ => 0) hmem hnodup

/-- Generating never fails, and builds the compiled problem. -/
theorem ofModel_eq_compiled (variableAt : VariableRef → Variable α) (config : Config α)
    (m : Model α) : ofModel variableAt config m = .ok (compiled variableAt config m) := by
  unfold ofModel
  extract_lets vars offset objective
  have hoffset : ∀ v ∈ m.vars, offset v = .ok (m.vars.idxOf v) := by
    intro v hv
    simp only [offset, vars, idxOf?_of_mem hv]
  have hcosts : coefficients offset vars.length objective.terms
      = .ok (m.vars.map (costFrom 0 objective.terms)) :=
    coefficients_eq_ok m.nodup_vars hoffset (fun t ht => Model.mem_vars_of_mem_objective ht)
      (Expression.nodup_assemble m.objective.expression)
  have hrows : m.constraints.mapM (rowOf offset)
      = .ok (m.constraints.map (compiledRow m.vars)) :=
    mapM_eq_ok fun c hc =>
      rowOf_eq_ok hoffset fun t ht => Model.mem_vars_of_mem_normalized hc ht
  rw [hcosts, hrows]
  rfl

/-- A row is a constraint's over the columns of a generated problem. -/
structure IsRowOf (g : Generated α) (c : Constraint α) (row : Row α) : Prop where
  sense : row.sense = c.sense
  name : row.name = c.name
  bound : row.bound = c.normalized.2
  /-- The normalized terms in order, each variable replaced by its column. -/
  terms : List.Forall₂ (fun numbered t => g.offset? t.1 = some numbered.1 ∧ numbered.2 = t.2)
    row.terms c.normalized.1
  distinct : (row.terms.map Prod.fst).Nodup
  offset_lt : ∀ t ∈ row.terms, t.1 < g.problem.columns.length

/-- A generated problem is a model's over variables in the given state. -/
structure Faithful (g : Generated α) (variableAt : VariableRef → Variable α) (config : Config α)
    (m : Model α) : Prop where
  name : g.problem.name = m.name
  config : g.problem.config = config
  vars : g.vars = m.vars
  /-- The column of a variable and the variable of a column are inverse. -/
  offset : ∀ v (i : Nat), g.offset? v = some i ↔ g.vars[i]? = some v
  columns_length : g.problem.columns.length = g.vars.length
  /-- A column has its variable's name, kind and effective bounds. -/
  column : ∀ v (i : Nat), g.vars[i]? = some v → g.problem.columns[i]? = some {
    name := (variableAt v).name
    kind := (variableAt v).kind
    lower := (variableAt v).effectiveBounds.1
    upper := (variableAt v).effectiveBounds.2 : Column α }
  direction : g.problem.objective.direction = m.objective.direction
  constant : g.problem.objective.constant = m.objective.expression.assemble.constant
  costs_length : g.problem.objective.coefficients.length = g.problem.columns.length
  /-- The cost of a variable in the assembled objective. -/
  cost : ∀ v (i : Nat) k, g.vars[i]? = some v → (v, k) ∈ m.objective.expression.assemble.terms →
    g.problem.objective.coefficients[i]? = some (0 + k)
  /-- The cost of a variable that was merged away, or never occurred. -/
  no_cost : ∀ v (i : Nat), g.vars[i]? = some v →
    v ∉ m.objective.expression.assemble.terms.map Prod.fst →
    g.problem.objective.coefficients[i]? = some 0
  rows_length : g.problem.rows.length = m.constraints.length
  row : ∀ (n : Nat) c, m.constraints[n]? = some c → ∃ r, g.problem.rows[n]? = some r ∧ g.IsRowOf c r
  constraints : g.constraints = m.constraints.map Constraint.id

theorem offset?_compiled_of_mem {variableAt : VariableRef → Variable α} {config : Config α}
    {m : Model α} {v : VariableRef} (hv : v ∈ m.vars) :
    (compiled variableAt config m).offset? v = some (m.vars.idxOf v) :=
  idxOf?_of_mem hv

theorem isRowOf_compiledRow {variableAt : VariableRef → Variable α} {config : Config α}
    {m : Model α} {c : Constraint α} (hc : c ∈ m.constraints) :
    (compiled variableAt config m).IsRowOf c (compiledRow m.vars c) where
  sense := rfl
  name := rfl
  bound := rfl
  terms := by
    refine List.forall₂_map_left_iff.mpr (List.forall₂_same.mpr fun t ht => ⟨?_, rfl⟩)
    exact offset?_compiled_of_mem (Model.mem_vars_of_mem_normalized hc ht)
  distinct := by
    have hplaces : (compiledRow m.vars c).terms.map Prod.fst
        = (c.normalized.1.map Prod.fst).map m.vars.idxOf := by
      simp [compiledRow]
    rw [hplaces]
    refine List.Nodup.map_on ?_ c.nodup_normalized
    intro v hv w _ hvw
    obtain ⟨t, ht, rfl⟩ := List.mem_map.mp hv
    exact (List.idxOf_inj (Model.mem_vars_of_mem_normalized hc ht)).mp hvw
  offset_lt := by
    intro t ht
    obtain ⟨u, hu, rfl⟩ := List.mem_map.mp ht
    have hlt := List.idxOf_lt_length_of_mem (Model.mem_vars_of_mem_normalized hc hu)
    simpa [compiled] using hlt

theorem faithful_compiled (variableAt : VariableRef → Variable α) (config : Config α)
    (m : Model α) : (compiled variableAt config m).Faithful variableAt config m where
  name := rfl
  config := rfl
  vars := rfl
  offset := fun _ _ => idxOf?_eq_some_iff_getElem? m.nodup_vars
  columns_length := by simp [compiled]
  column := by
    intro v i hv
    have hv' : m.vars[i]? = some v := hv
    simp [compiled, hv', columnOf]
  direction := rfl
  constant := rfl
  costs_length := by simp [compiled]
  cost := by
    intro v i k hv hk
    have hv' : m.vars[i]? = some v := hv
    have hcost := costFrom_of_mem (Expression.nodup_assemble m.objective.expression) hk 0
    simp [compiled, hv', hcost]
  no_cost := by
    intro v i hv hk
    have hv' : m.vars[i]? = some v := hv
    simp [compiled, hv', costFrom_of_not_mem hk]
  rows_length := by simp [compiled]
  row := by
    intro n c hc
    refine ⟨compiledRow m.vars c, ?_, isRowOf_compiledRow (List.mem_of_getElem? hc)⟩
    simp [compiled, hc]
  constraints := rfl

end Generated

end Milp
