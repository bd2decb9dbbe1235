/-
Milp.Proofs.IndependentChanges — changes of different fields commute.

A name, a kind or a bound is set in one field of one variable. Whether the
change is refused, taken for none, held back or told is decided by that
field, and by whether the variable is frozen, which no such change alters
(`Operation.edit?_write`). What is stored goes into that field
(`Variable.write_comm`), and what is told changes that field of that column
(`Listener.follow_comm`). So two changes of different fields come to the
same in either order (`Workspace.effect_comm`).

Of a list of changes it only matters, then, in which order each field is
set: `foldl_eq_of_filter_eq` moves the changes of one list into the order of
the other, one by one and never past a change of the same field, and
`changes_commute` says it of runs.
-/
import Milp.Proofs.FreezeWindow

namespace Milp

variable {α μ : Type}

/-! ## Steps that commute -/

/-- A step moves to the front past steps that it commutes with. -/
theorem foldl_step_comm {σ β : Type} {step : σ → β → σ} {b : β} {before : List β}
    (hcomm : ∀ a ∈ before, ∀ s, step (step s a) b = step (step s b) a) (s : σ) :
    step (before.foldl step s) b = before.foldl step (step s b) := by
  induction before generalizing s with
  | nil => rfl
  | cons a rest ih =>
    have hrest := ih (fun a' ha' => hcomm a' (List.mem_cons_of_mem a ha')) (step s a)
    rw [List.foldl_cons, hrest, hcomm a List.mem_cons_self, List.foldl_cons]

/-- Where steps of different keys commute, only the order of the steps of each
key matters. -/
theorem foldl_eq_of_filter_eq {σ β κ : Type} [DecidableEq κ] {step : σ → β → σ} (key : β → κ)
    {p : β → Prop}
    (hcomm : ∀ a b, p a → p b → key a ≠ key b → ∀ s, step (step s a) b = step (step s b) a)
    {l l' : List β} (hl : ∀ b ∈ l, p b) (hl' : ∀ b ∈ l', p b)
    (hsame : ∀ k, l.filter (key · = k) = l'.filter (key · = k)) (s : σ) :
    l.foldl step s = l'.foldl step s := by
  induction l generalizing l' s with
  | nil =>
    have hnil : l' = [] := by
      refine List.eq_nil_iff_forall_not_mem.mpr fun b hb => ?_
      have hmem : b ∈ l'.filter (key · = key b) := List.mem_filter.mpr ⟨hb, by simp⟩
      rw [← hsame] at hmem
      cases hmem
    rw [hnil]
  | cons a rest ih =>
    -- the first step of `a`'s key in the other list is `a` as well
    have hfirst : l'.filter (key · = key a) = a :: rest.filter (key · = key a) := by
      rw [← hsame, List.filter_cons_of_pos (by simp)]
    obtain ⟨before, after, rfl, hbefore, -, hafter⟩ := List.filter_eq_cons_iff.mp hfirst
    have hother : ∀ b ∈ before, key b ≠ key a := fun b hb => by simpa using hbefore b hb
    have ha : p a := hl a List.mem_cons_self
    have hmoved : step (before.foldl step s) a = before.foldl step (step s a) :=
      foldl_step_comm (fun b hb => hcomm b a (hl' b (List.mem_append_left _ hb)) ha (hother b hb)) s
    have hrest : rest.foldl step (step s a) = (before ++ after).foldl step (step s a) := by
      refine ih (fun b hb => hl b (List.mem_cons_of_mem a hb)) (fun b hb => ?_) (fun k => ?_) _
      · refine hl' b ?_
        rcases List.mem_append.mp hb with hb | hb
        · exact List.mem_append_left _ hb
        · exact List.mem_append_right _ (List.mem_cons_of_mem a hb)
      · have hk := hsame k
        rw [List.filter_append] at hk ⊢
        by_cases hak : key a = k
        · subst hak
          have hnone : before.filter (key · = key a) = [] :=
            List.filter_eq_nil_iff.mpr fun b hb => by simpa using hother b hb
          rw [hnone, List.nil_append, hafter]
        · rw [List.filter_cons_of_neg (by simpa using hak),
            List.filter_cons_of_neg (by simpa using hak)] at hk
          exact hk
    rw [List.foldl_cons, hrest, List.foldl_append, List.foldl_append, List.foldl_cons, hmoved]

/-! ## Fields -/

/-- What is set of a variable. -/
inductive Field where
  | name
  | kind
  | bound (side : Side)
  deriving DecidableEq, Repr

/-- The field that an operation sets, and of which variable. -/
def Operation.field? : Operation α → Option (VariableRef × Field)
  | .setName v _ => some (v, .name)
  | .setKind v _ => some (v, .kind)
  | .setBound side v _ => some (v, .bound side)
  | _ => none

/-- The field that is stored. -/
def Write.field? : Write α → Option Field
  | .name _ => some .name
  | .kind _ => some .kind
  | .bound side _ => some (.bound side)
  | .freeze _ => none

/-- The field that a change is of. -/
def Change.field? : Change α → Option Field
  | .name _ => some .name
  | .kind _ => some .kind
  | .bound side _ => some (.bound side)
  | .bounds .. => none

theorem Operation.target?_of_field? {op : Operation α} {v : VariableRef} {f : Field}
    (h : op.field? = some (v, f)) : op.target? = some v := by
  cases op <;> cases h <;> rfl

/-- What is stored in different fields can be stored in either order. -/
theorem Variable.write_comm {a b : Write α} {f g : Field} (ha : a.field? = some f)
    (hb : b.field? = some g) (hne : f ≠ g) (x : Variable α) :
    (x.write a).write b = (x.write b).write a := by
  rcases a with _ | _ | ⟨_ | _, _⟩ | _ <;> rcases b with _ | _ | ⟨_ | _, _⟩ | _ <;>
    first
    | rfl
    | exact absurd (Option.some.inj (ha.symm.trans hb)) hne

/-- A column can hear of different fields in either order. -/
theorem Column.apply_comm {a b : Change α} {f g : Field} (ha : a.field? = some f)
    (hb : b.field? = some g) (hne : f ≠ g) (column : Column α) :
    (column.apply a).apply b = (column.apply b).apply a := by
  rcases a with ⟨_ | _, _⟩ | _ | _ | _ <;> rcases b with ⟨_ | _, _⟩ | _ | _ | _ <;>
    first
    | rfl
    | exact absurd (Option.some.inj (ha.symm.trans hb)) hne
    | exact absurd ha (Option.some_ne_none f).symm
    | exact absurd hb (Option.some_ne_none g).symm

/-- A problem can hear of different variables, or of different fields of one, in
either order. -/
theorem Generated.hear_comm {v w : VariableRef} {a b : Change α} {f g : Field}
    (ha : a.field? = some f) (hb : b.field? = some g) (hne : (v, f) ≠ (w, g))
    (p : Generated α) : (p.hear v a).hear w b = (p.hear w b).hear v a := by
  have hv' := offset?_hear w v b p
  have hw' := offset?_hear v w a p
  cases hv : p.offset? v with
  | none => rw [hear_of_offset?_eq_none hv, hear_of_offset?_eq_none (hv'.trans hv)]
  | some i =>
    cases hw : p.offset? w with
    | none => rw [hear_of_offset?_eq_none hw, hear_of_offset?_eq_none (hw'.trans hw)]
    | some j =>
      rw [hear_of_offset? (hw'.trans hw), hear_of_offset? hv, hear_of_offset? (hv'.trans hv),
        hear_of_offset? hw]
      have hcolumns : (p.problem.columns.modify i (Column.apply · a)).modify j (Column.apply · b)
          = (p.problem.columns.modify j (Column.apply · b)).modify i (Column.apply · a) := by
        by_cases hvw : v = w
        · subst hvw
          obtain rfl : i = j := Option.some.inj (hv.symm.trans hw)
          have hfields : (Column.apply · b) ∘ (Column.apply · a)
              = (Column.apply · a) ∘ (Column.apply · b) :=
            funext (Column.apply_comm ha hb fun h => hne (by rw [h]))
          rw [List.modify_modify_eq, List.modify_modify_eq, hfields]
        · exact List.modify_modify_ne _ _ _ (offset?_ne hvw hv hw)
      simp only [updateColumn, hcolumns]

/-- A listener can have news of different variables, or of different fields of
one, in either order. -/
theorem Listener.follow_comm {v w : VariableRef} {a b : Option (Change α)} {f g : Field}
    (ha : ∀ change, a = some change → change.field? = some f)
    (hb : ∀ change, b = some change → change.field? = some g) (hne : (v, f) ≠ (w, g))
    (x : Listener α) : (x.follow v a).follow w b = (x.follow w b).follow v a := by
  cases a with
  | none => rfl
  | some a =>
    cases b with
    | none => rfl
    | some b =>
      simp only [follow, Option.elim_some, hear, mapSolver_mapSolver]
      refine mapSolver_congr fun s _ => ?_
      have hproblem : Generated.hear w b ∘ Generated.hear v a
          = Generated.hear v a ∘ Generated.hear w b :=
        funext (Generated.hear_comm (ha a rfl) (hb b rfl) hne)
      simp only [Solver.hear, Option.map_map, hproblem]

variable [Scalar α]

/-- What is stored and told of a change is of the field that is set. -/
theorem EditCase.field? {op : Operation α} {x : Variable α} {e : Edit α} (h : EditCase x op e)
    {v : VariableRef} {f : Field} (hop : op.field? = some (v, f)) :
    e.store.field? = some f ∧ ∀ change, e.change? = some change → change.field? = some f := by
  cases h <;> cases hop
  all_goals
    refine ⟨rfl, fun change hchange => ?_⟩
    cases hchange
  all_goals rfl

/-- Whether a change is one, and is told, does not depend on other fields. -/
theorem Operation.edit?_write {op : Operation α} {v : VariableRef} {f g : Field} {store : Write α}
    (hop : op.field? = some (v, f)) (hstore : store.field? = some g) (hne : f ≠ g)
    (x : Variable α) : op.edit? (x.write store) = op.edit? x := by
  have hsame : ∀ field, f = field → store.field? ≠ some field :=
    fun field hfield hg => hne (hfield.trans (Option.some.inj (hg.symm.trans hstore)))
  cases op with
  | setName w name =>
    obtain ⟨rfl, rfl⟩ : v = w ∧ f = .name := by cases hop; exact ⟨rfl, rfl⟩
    rcases store with _ | _ | ⟨_ | _, _⟩ | _ <;> first | rfl | exact absurd rfl (hsame _ rfl)
  | setKind w kind =>
    obtain ⟨rfl, rfl⟩ : v = w ∧ f = .kind := by cases hop; exact ⟨rfl, rfl⟩
    rcases store with _ | _ | ⟨_ | _, _⟩ | _ <;> first | rfl | exact absurd rfl (hsame _ rfl)
  | setBound side w b =>
    obtain ⟨rfl, rfl⟩ : v = w ∧ f = .bound side := by cases hop; exact ⟨rfl, rfl⟩
    cases store with
    | name name => rfl
    | kind kind => rfl
    | bound other b' =>
      cases side <;> cases other <;> first | rfl | exact absurd rfl (hsame _ rfl)
    | freeze freeze => cases hstore
  | _ => cases hop

namespace Workspace

variable {ws ws' : Workspace α μ} {c : Conduct α μ} {v w : VariableRef}

/-! ## What a change comes to -/

/-- The workspace after an edit of a variable that its listeners follow. -/
def follow (v : VariableRef) (e : Edit α) (ws : Workspace α μ) : Workspace α μ :=
  { ws with
    vars := ws.vars.modify v.index (·.write e.store)
    listeners := ws.listeners.mapIdx fun k a =>
      if a.isAlive = true ∧ ⟨k⟩ ∈ (ws.variableAt v).handles.map Handle.listener
      then a.follow v e.change? else a }

/-- The workspace after an operation on a variable that its listeners follow. -/
def effect (ws : Workspace α μ) (op : Operation α) : Workspace α μ :=
  op.target?.elim ws fun v => (op.edit? (ws.variableAt v)).elim ws fun e => ws.follow v e

theorem followed_follow (v : VariableRef) (e : Edit α) (ws : Workspace α μ) :
    Followed v e ws (ws.follow v e) where
  size := List.length_modify ..
  variableAt := fun w => variableAt_updateVariable ws v w (·.write e.store)
  listener := fun _ => List.getElem?_mapIdx

/-- Other fields' edits do not matter to what a change comes to. -/
theorem edit?_variableAt_follow {op : Operation α} {f g : Field} {e : Edit α}
    (hop : op.field? = some (v, f)) (he : e.store.field? = some g) (hne : (v, f) ≠ (w, g)) :
    op.edit? ((ws.follow w e).variableAt v) = op.edit? (ws.variableAt v) := by
  rw [(followed_follow w e ws).variableAt]
  split
  · next hvw =>
    obtain ⟨rfl, -⟩ := hvw
    exact Operation.edit?_write hop he (fun h => hne (by rw [h])) _
  · rfl

/-- Edits of different variables, or of different fields of one, can be followed
in either order. -/
theorem follow_comm {a b : Edit α} {f g : Field} (ha : a.store.field? = some f)
    (hanews : ∀ change, a.change? = some change → change.field? = some f)
    (hb : b.store.field? = some g)
    (hbnews : ∀ change, b.change? = some change → change.field? = some g)
    (hne : (v, f) ≠ (w, g)) (ws : Workspace α μ) :
    (ws.follow v a).follow w b = (ws.follow w b).follow v a := by
  have hvars : ((ws.follow v a).follow w b).vars = ((ws.follow w b).follow v a).vars := by
    by_cases hvw : v = w
    · subst hvw
      have hfields : (Variable.write · b.store) ∘ (Variable.write · a.store)
          = (Variable.write · a.store) ∘ (Variable.write · b.store) :=
        funext (Variable.write_comm ha hb fun h => hne (by rw [h]))
      simp only [follow, List.modify_modify_eq, hfields]
    · have hindices : v.index ≠ w.index := fun h => hvw (congrArg VariableRef.mk h)
      exact List.modify_modify_ne _ _ _ hindices
  have hlisteners : ((ws.follow v a).follow w b).listeners
      = ((ws.follow w b).follow v a).listeners := by
    refine List.ext_getElem? fun i => ?_
    have hleft := (followed_follow w b (ws.follow v a)).listener ⟨i⟩
    have hright := (followed_follow v a (ws.follow w b)).listener ⟨i⟩
    rw [(followed_follow v a ws).listener, (followed_follow v a ws).handles,
      Option.map_map] at hleft
    rw [(followed_follow w b ws).listener, (followed_follow w b ws).handles,
      Option.map_map] at hright
    refine hleft.trans (Eq.trans ?_ hright.symm)
    refine Option.map_congr fun x _ => ?_
    simp only [Function.comp_apply, apply_ite Listener.isAlive, Listener.isAlive_follow, ite_self]
    split <;> split <;> first | rfl | exact Listener.follow_comm hanews hbnews hne x
  calc (ws.follow v a).follow w b
      = { ws with
          vars := ((ws.follow v a).follow w b).vars
          listeners := ((ws.follow v a).follow w b).listeners } := rfl
    _ = { ws with
          vars := ((ws.follow w b).follow v a).vars
          listeners := ((ws.follow w b).follow v a).listeners } := by rw [hvars, hlisteners]
    _ = (ws.follow w b).follow v a := rfl

/-- Changes of different variables, or of different fields of one, come to the
same in either order. -/
theorem effect_comm {a b : Operation α} {p q : VariableRef × Field} (ha : a.field? = some p)
    (hb : b.field? = some q) (hne : p ≠ q) (ws : Workspace α μ) :
    (ws.effect a).effect b = (ws.effect b).effect a := by
  obtain ⟨v, f⟩ := p
  obtain ⟨w, g⟩ := q
  have heffect : ∀ ws : Workspace α μ,
      ws.effect a = (a.edit? (ws.variableAt v)).elim ws fun e => ws.follow v e := fun ws => by
    rw [effect, Operation.target?_of_field? ha, Option.elim_some]
  have heffect' : ∀ ws : Workspace α μ,
      ws.effect b = (b.edit? (ws.variableAt w)).elim ws fun e => ws.follow w e := fun ws => by
    rw [effect, Operation.target?_of_field? hb, Option.elim_some]
  cases hx : a.edit? (ws.variableAt v) with
  | none =>
    have hsame : ws.effect a = ws := by rw [heffect, hx, Option.elim_none]
    rw [hsame, heffect' ws]
    cases hy : b.edit? (ws.variableAt w) with
    | none => rw [Option.elim_none, hsame]
    | some e' =>
      have hefield := (Operation.editCase hy).field? hb
      rw [Option.elim_some, heffect, edit?_variableAt_follow ha hefield.1 hne, hx, Option.elim_none]
  | some e =>
    have hefield := (Operation.editCase hx).field? ha
    have hfollow : ws.effect a = ws.follow v e := by rw [heffect, hx, Option.elim_some]
    rw [hfollow, heffect', edit?_variableAt_follow hb hefield.1 hne.symm, heffect' ws]
    cases hy : b.edit? (ws.variableAt w) with
    | none => rw [Option.elim_none, Option.elim_none, hfollow]
    | some e' =>
      have hefield' := (Operation.editCase hy).field? hb
      rw [Option.elim_some, Option.elim_some, heffect,
        edit?_variableAt_follow ha hefield'.1 hne, hx, Option.elim_some]
      exact follow_comm hefield.1 hefield.2 hefield'.1 hefield'.2 hne ws

/-! ## Runs -/

/-- Two workspaces with the same variables and the same listeners. -/
def SameHoldings (ws ws' : Workspace α μ) : Prop :=
  ws'.vars = ws.vars ∧ ws'.listeners = ws.listeners

theorem Followed.holdings_eq {e : Edit α} {ws₁ ws₂ : Workspace α μ} (h₁ : Followed v e ws ws₁)
    (h₂ : Followed v e ws ws₂) : SameHoldings ws₁ ws₂ := by
  constructor
  · refine List.ext_getElem (h₂.size.trans h₁.size.symm) fun i hi hi' => ?_
    have hv := (h₂.variableAt ⟨i⟩).trans (h₁.variableAt ⟨i⟩).symm
    simpa [Workspace.variableAt, List.getD_eq_getElem?_getD, hi, hi'] using hv
  · exact List.ext_getElem? fun i => (h₂.listener ⟨i⟩).trans (h₁.listener ⟨i⟩).symm

omit [Scalar α] in
theorem SameHoldings.trans {ws'' : Workspace α μ} (h : SameHoldings ws ws')
    (h' : SameHoldings ws' ws'') : SameHoldings ws ws'' :=
  ⟨h'.1.trans h.1, h'.2.trans h.2⟩

/-- An operation has the same effect on the same variables and listeners. -/
theorem SameHoldings.effect (h : SameHoldings ws ws') (op : Operation α) :
    SameHoldings (ws.effect op) (ws'.effect op) := by
  obtain ⟨hvars, hlisteners⟩ := h
  have hread : ws'.variableAt = ws.variableAt := by
    funext v
    rw [Workspace.variableAt, hvars, Workspace.variableAt]
  simp only [Workspace.effect, hread]
  cases op.target? with
  | none => exact ⟨hvars, hlisteners⟩
  | some v =>
    simp only [Option.elim_some]
    cases op.edit? (ws.variableAt v) with
    | none => exact ⟨hvars, hlisteners⟩
    | some e =>
      simp only [SameHoldings, Option.elim_some, follow, hvars, hlisteners, hread, and_self]

/-- Where listeners are ready and accept, carrying out a change has its effect
and no other. -/
theorem perform_effect (hc : c.Accepting) (hready : ws.Attentive) {op : Operation α}
    (hop : op.target? = some v) : SameHoldings (ws.effect op) (ws.perform c op).1 := by
  obtain ⟨-, hnone, hsome⟩ := perform_followed hc (hready v) hop
  rw [effect, hop, Option.elim_some]
  cases he : op.edit? (ws.variableAt v) with
  | none =>
    rw [hnone he]
    exact ⟨rfl, rfl⟩
  | some e => exact (followed_follow v e ws).holdings_eq (hsome e he)

/-- A run of changes has their effects one after the other. -/
theorem run_effects (hc : c.Accepting) {ops : List (Operation α)}
    (hset : ∀ op ∈ ops, op.field?.isSome) (hready : ws.Attentive) :
    SameHoldings (ops.foldl effect ws) (ws.run c (ops.map .operate)) := by
  suffices h : ∀ pure : Workspace α μ, SameHoldings pure ws →
      SameHoldings (ops.foldl effect pure) (ws.run c (ops.map .operate)) from h ws ⟨rfl, rfl⟩
  induction ops generalizing ws with
  | nil => exact fun _ h => h
  | cons op rest ih =>
    intro pure h
    obtain ⟨⟨v, f⟩, hop⟩ := Option.isSome_iff_exists.mp (hset op List.mem_cons_self)
    have htarget := Operation.target?_of_field? hop
    have hstep : SameHoldings (pure.effect op) (ws.perform c op).1 :=
      (h.effect op).trans (perform_effect hc hready htarget)
    have hundisturbed : ws.Undisturbed op := by
      cases op <;> trivial
    exact ih (fun op' hop' => hset op' (List.mem_cons_of_mem op hop'))
      (hready.perform hc hundisturbed).2 _ hstep

/-- Where no listener that is attached refuses, acts, is dead or in use, let
names, kinds and bounds of variables be set, whether the variables are frozen
or not and whatever they are set to. Two runs that set each field of each
variable in the same order end with the same variables and the same listeners,
with the problems of the solvers, however their changes of different fields
are interleaved. -/
theorem changes_commute (hc : c.Accepting) (hready : ws.Attentive) {ops ops' : List (Operation α)}
    (hset : ∀ op ∈ ops ++ ops', op.field?.isSome)
    (hsame : ∀ place, ops.filter (·.field? = some place) = ops'.filter (·.field? = some place)) :
    (ws.run c (ops'.map .operate)).vars = (ws.run c (ops.map .operate)).vars
      ∧ (ws.run c (ops'.map .operate)).listeners = (ws.run c (ops.map .operate)).listeners := by
  have hops : ∀ op ∈ ops, op.field?.isSome := fun op h => hset op (List.mem_append_left _ h)
  have hops' : ∀ op ∈ ops', op.field?.isSome := fun op h => hset op (List.mem_append_right _ h)
  have hfold : ops.foldl effect ws = ops'.foldl effect ws := by
    refine foldl_eq_of_filter_eq Operation.field? ?_ hops hops' (fun place => ?_) ws
    · intro a b ha hb hne ws
      obtain ⟨p, hp⟩ := Option.isSome_iff_exists.mp ha
      obtain ⟨q, hq⟩ := Option.isSome_iff_exists.mp hb
      exact effect_comm hp hq (fun h => hne (by rw [hp, hq, h])) ws
    · cases place with
      | some place => exact hsame place
      | none =>
        have hnone : ∀ ops : List (Operation α), (∀ op ∈ ops, op.field?.isSome) →
            ops.filter (·.field? = none) = [] := fun ops h => List.filter_eq_nil_iff.mpr
          fun op hop => by simpa [Option.isSome_iff_ne_none] using h op hop
        rw [hnone ops hops, hnone ops' hops']
  have hrun := run_effects hc hops hready
  have hrun' := run_effects hc hops' hready
  rw [hfold] at hrun
  exact ⟨hrun'.1.trans hrun.1.symm, hrun'.2.trans hrun.2.symm⟩

end Workspace

/-! ## Two interleavings -/

omit [Scalar α] in
/-- Only places that are set have to be compared. -/
theorem Operation.filter_field?_eq {ops ops' : List (Operation α)}
    (h : ∀ op ∈ ops ++ ops', ops.filter (·.field? = op.field?) = ops'.filter (·.field? = op.field?))
    (place : VariableRef × Field) :
    ops.filter (·.field? = some place) = ops'.filter (·.field? = some place) := by
  by_cases hplace : ∃ op ∈ ops ++ ops', op.field? = some place
  · obtain ⟨op, hop, hfield⟩ := hplace
    rw [← hfield]
    exact h op hop
  · have hnone : ∀ op ∈ ops ++ ops', ¬ decide (op.field? = some place) = true :=
      fun op hop hfield => hplace ⟨op, hop, of_decide_eq_true hfield⟩
    rw [List.filter_eq_nil_iff.mpr fun op hop => hnone op (List.mem_append_left _ hop),
      List.filter_eq_nil_iff.mpr fun op hop => hnone op (List.mem_append_right _ hop)]

/-- The second variable is frozen; two clients set fields of both. -/
def crossingStart : Workspace Exact Unit := (windowStart.perform idleConduct (.freeze ⟨1⟩)).1

/-- The upper bound of the first variable is set twice, the second time to less. -/
def crossingRun : List (Operation Exact) :=
  [.setBound .upper ⟨0⟩ (.finite 8), .setBound .upper ⟨0⟩ (.finite 3), .setName ⟨0⟩ "a",
    .setBound .lower ⟨1⟩ .undefined, .setBound .lower ⟨1⟩ (.finite 1), .setKind ⟨1⟩ .integer]

/-- The same changes, those of the second variable first. -/
def crossedRun : List (Operation Exact) :=
  [.setKind ⟨1⟩ .integer, .setBound .lower ⟨1⟩ .undefined, .setName ⟨0⟩ "a",
    .setBound .upper ⟨0⟩ (.finite 8), .setBound .lower ⟨1⟩ (.finite 1),
    .setBound .upper ⟨0⟩ (.finite 3)]

theorem Workspace.crossedRun_commutes :
    (crossingStart.run idleConduct (crossedRun.map .operate)).vars
        = (crossingStart.run idleConduct (crossingRun.map .operate)).vars
      ∧ (crossingStart.run idleConduct (crossedRun.map .operate)).listeners
        = (crossingStart.run idleConduct (crossingRun.map .operate)).listeners :=
  changes_commute (fun _ _ _ ws => ⟨.refl ws, rfl⟩) (attentive_of_vars (by decide +kernel))
    (by decide +kernel) (Operation.filter_field?_eq (by decide +kernel))

end Milp
