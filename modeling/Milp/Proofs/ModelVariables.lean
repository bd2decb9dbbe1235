/-
Milp.Proofs.ModelVariables — the variables of a model are those written down in
it, each where it stands first.

An expression, a constraint and a model each leave out repeats of their own.
Leaving them out on the way changes nothing: the variables of a model are the
first occurrences among all variables of its terms as they were written
(`Model.vars_eq_eraseDups`, `eraseDups_eq_firstOccurrences`). Nothing is looked
at but the variables, so terms that cancel count as well.

Repeats can be told by the identity of a variable instead of by the variable
(`distinctBy`). That comes to the same wherever different variables have
different identities (`Model.varsBy_eq_vars`). They do in every state that comes
about, whatever the clients do and whatever else identities are drawn for:
identities are given out in order, and none of them twice (`NumberedOnce`).
-/
import Milp.Proofs.Reached

namespace Milp

/-! ## First occurrences -/

section

variable {β κ : Type} [DecidableEq β] [DecidableEq κ]

/-- The elements of a list that do not stand in it further to the front. -/
def firstOccurrences (l : List β) : List β :=
  (l.zipIdx.filter fun (b, i) => b ∉ l.take i).map Prod.fst

theorem firstOccurrences_concat (l : List β) (b : β) : firstOccurrences (l ++ [b]) =
    if b ∈ l then firstOccurrences l else firstOccurrences l ++ [b] := by
  have hfront : l.zipIdx.filter (fun (a, i) => a ∉ (l ++ [b]).take i)
      = l.zipIdx.filter fun (a, i) => a ∉ l.take i := by
    refine List.filter_congr fun (a, i) hentry => ?_
    have hlt : i < l.length := List.snd_lt_of_mem_zipIdx hentry
    simp only [List.take_append_of_le_length (Nat.le_of_lt hlt)]
  rw [firstOccurrences, List.zipIdx_append, List.filter_append, hfront, List.map_append]
  by_cases hb : b ∈ l
  · simp [firstOccurrences, hb]
  · simp [firstOccurrences, hb]

theorem eraseDups_concat (l : List β) (b : β) :
    (l ++ [b]).eraseDups = if b ∈ l then l.eraseDups else l.eraseDups ++ [b] := by
  rw [List.eraseDups_append]
  by_cases hb : b ∈ l
  · simp [List.removeAll, hb]
  · simp [List.removeAll, hb, List.eraseDups_cons]

theorem eraseDups_eq_firstOccurrences (l : List β) : l.eraseDups = firstOccurrences l := by
  induction l using List.reverseRecOn with
  | nil => rfl
  | append_singleton l b ih => rw [eraseDups_concat, firstOccurrences_concat, ih]

/-! ### Repeats left out on the way -/

theorem eraseDups_eraseDups_append (l r : List β) :
    (l.eraseDups ++ r).eraseDups = (l ++ r).eraseDups := by
  induction r using List.reverseRecOn with
  | nil =>
    rw [List.append_nil, List.append_nil]
    induction l using List.reverseRecOn with
    | nil => rfl
    | append_singleton l b ih =>
      rw [eraseDups_concat]
      by_cases hb : b ∈ l
      · rw [if_pos hb, ih]
      · rw [if_neg hb, eraseDups_concat, if_neg (by rwa [List.mem_eraseDups]), ih]
  | append_singleton r b ih =>
    rw [← List.append_assoc, ← List.append_assoc, eraseDups_concat, eraseDups_concat, ih]
    simp only [List.mem_append, List.mem_eraseDups]

theorem eraseDups_append_eraseDups (l r : List β) :
    (l ++ r.eraseDups).eraseDups = (l ++ r).eraseDups := by
  induction r using List.reverseRecOn with
  | nil => rfl
  | append_singleton r b ih =>
    rw [← List.append_assoc, eraseDups_concat (l ++ r), eraseDups_concat r]
    by_cases hb : b ∈ r
    · rw [if_pos hb, if_pos (List.mem_append_right l hb), ih]
    · rw [if_neg hb, ← List.append_assoc, eraseDups_concat, ih]
      simp only [List.mem_append, List.mem_eraseDups]

/-- What stands behind depends on what stands in front through its first
occurrences. -/
theorem eraseDups_append_congr {l l' : List β} (h : l.eraseDups = l'.eraseDups) (r : List β) :
    (l ++ r).eraseDups = (l' ++ r).eraseDups := by
  rw [← eraseDups_eraseDups_append, h, eraseDups_eraseDups_append]

theorem eraseDups_append_flatMap {γ : Type} (f : γ → List β) (xs : List γ) (l : List β) :
    (l ++ xs.flatMap fun x => (f x).eraseDups).eraseDups = (l ++ xs.flatMap f).eraseDups := by
  induction xs generalizing l with
  | nil => rfl
  | cons x rest ih =>
    rw [List.flatMap_cons, List.flatMap_cons, ← List.append_assoc, ← List.append_assoc, ih]
    exact eraseDups_append_congr (eraseDups_append_eraseDups l (f x)) _

/-! ### Repeats told by a key -/

/-- The elements of a list whose key is not among those seen so far. -/
def distinctBy (key : β → κ) : List κ → List β → List β
  | _, [] => []
  | seen, b :: rest =>
    if key b ∈ seen then distinctBy key seen rest
    else b :: distinctBy key (key b :: seen) rest

/-- With the keys of some elements seen, a key that tells elements apart leaves
out these elements and repeats. -/
theorem distinctBy_map_eq (key : β → κ) (seen l : List β)
    (hkey : ∀ a ∈ seen ++ l, ∀ b ∈ seen ++ l, key a = key b → a = b) :
    distinctBy key (seen.map key) l = (l.filter (· ∉ seen)).eraseDups := by
  induction l generalizing seen with
  | nil => rfl
  | cons b rest ih =>
    have hmem : ∀ {a}, a ∈ b :: (seen ++ rest) → a ∈ seen ++ b :: rest :=
      List.perm_middle.mem_iff.mpr
    have hseen : key b ∈ seen.map key ↔ b ∈ seen := by
      refine ⟨fun hb => ?_, List.mem_map_of_mem⟩
      obtain ⟨a, ha, hab⟩ := List.mem_map.mp hb
      rw [← hkey a (List.mem_append_left _ ha) b (hmem List.mem_cons_self) hab]
      exact ha
    by_cases hb : b ∈ seen
    · rw [distinctBy, if_pos (hseen.mpr hb), List.filter_cons_of_neg (by simpa using hb)]
      exact ih seen fun a ha c hc =>
        hkey a (hmem (List.mem_cons_of_mem b ha)) c (hmem (List.mem_cons_of_mem b hc))
    · have hrest := ih (b :: seen) fun a ha c hc => hkey a (hmem ha) c (hmem hc)
      rw [distinctBy, if_neg (hseen.not.mpr hb), List.filter_cons_of_pos (by simpa using hb),
        List.eraseDups_cons, List.filter_filter]
      refine congrArg (b :: ·) (hrest.trans (congrArg List.eraseDups ?_))
      refine List.filter_congr fun a _ => ?_
      by_cases hab : a = b <;> simp [hab]

theorem distinctBy_eq_eraseDups (key : β → κ) (l : List β)
    (hkey : ∀ a ∈ l, ∀ b ∈ l, key a = key b → a = b) : distinctBy key [] l = l.eraseDups := by
  have h := distinctBy_map_eq key [] l hkey
  simpa using h

/-- The elements of `l`, and behind them those of `r` that are not there yet. -/
def pushMissing (l r : List β) : List β := r.foldl (fun l b => if b ∈ l then l else l ++ [b]) l

theorem pushMissing_eq_eraseDups (l r : List β) :
    pushMissing l.eraseDups r = (l ++ r).eraseDups := by
  induction r generalizing l with
  | nil => rw [List.append_nil]; rfl
  | cons b rest ih =>
    have hfirst : (if b ∈ l.eraseDups then l.eraseDups else l.eraseDups ++ [b])
        = (l ++ [b]).eraseDups := by
      rw [eraseDups_concat]
      simp only [List.mem_eraseDups]
    have hrest : pushMissing (l ++ [b]).eraseDups rest = (l ++ b :: rest).eraseDups := by
      rw [ih, List.append_assoc]
      rfl
    rw [pushMissing, List.foldl_cons, hfirst]
    exact hrest

end

/-! ## Variables as they are written -/

section

variable {α : Type}

/-- The variables of all terms, as they stand, with their repeats. -/
def Expression.written (e : Expression α) : List VariableRef := e.terms.map Prod.fst

/-- The variables of the left side and then of the right side. -/
def Constraint.written (c : Constraint α) : List VariableRef := c.lhs.written ++ c.rhs.written

/-- The variables of the objective and then of the constraints. -/
def Model.written (m : Model α) : List VariableRef :=
  m.objective.expression.written ++ m.constraints.flatMap Constraint.written

theorem Constraint.vars_eq_eraseDups (c : Constraint α) : c.vars = c.written.eraseDups := by
  rw [vars, Expression.vars, Expression.vars, eraseDups_eraseDups_append,
    eraseDups_append_eraseDups]
  rfl

/-- Repeats that are left out within the objective, a side or a constraint are
repeats of the model. -/
theorem Model.vars_eq_eraseDups (m : Model α) : m.vars = m.written.eraseDups := by
  have hconstraints : m.constraints.flatMap Constraint.vars
      = m.constraints.flatMap fun c => c.written.eraseDups :=
    List.flatMap_congr fun c _ => c.vars_eq_eraseDups
  rw [vars, Expression.vars, eraseDups_eraseDups_append, hconstraints, eraseDups_append_flatMap]
  rfl

/-! ## Variables told by their identities -/

/-- The variables of an expression, told by a key. -/
def Expression.varsBy (key : VariableRef → VariableId) (e : Expression α) : List VariableRef :=
  distinctBy key [] e.written

/-- The variables of a constraint: those of the left side, told by a key, and
those of the right side that are other variables. -/
def Constraint.varsBy (key : VariableRef → VariableId) (c : Constraint α) : List VariableRef :=
  pushMissing (c.lhs.varsBy key) (c.rhs.varsBy key)

/-- The variables of a model, told by a key. -/
def Model.varsBy (key : VariableRef → VariableId) (m : Model α) : List VariableRef :=
  distinctBy key [] (m.objective.expression.varsBy key
    ++ m.constraints.flatMap (Constraint.varsBy key))

variable {key : VariableRef → VariableId}

theorem Expression.varsBy_eq_vars {e : Expression α}
    (hkey : ∀ v ∈ e.written, ∀ w ∈ e.written, key v = key w → v = w) : e.varsBy key = e.vars :=
  distinctBy_eq_eraseDups key e.written hkey

theorem Constraint.varsBy_eq_vars {c : Constraint α}
    (hkey : ∀ v ∈ c.written, ∀ w ∈ c.written, key v = key w → v = w) : c.varsBy key = c.vars := by
  have hlhs : c.lhs.varsBy key = c.lhs.vars := Expression.varsBy_eq_vars fun v hv w hw =>
    hkey v (List.mem_append_left _ hv) w (List.mem_append_left _ hw)
  have hrhs : c.rhs.varsBy key = c.rhs.vars := Expression.varsBy_eq_vars fun v hv w hw =>
    hkey v (List.mem_append_right _ hv) w (List.mem_append_right _ hw)
  rw [varsBy, hlhs, hrhs, vars, Expression.vars, pushMissing_eq_eraseDups,
    eraseDups_eraseDups_append]

/-- A key that tells the variables of a model apart tells the repeats. -/
theorem Model.varsBy_eq_vars {m : Model α}
    (hkey : ∀ v ∈ m.written, ∀ w ∈ m.written, key v = key w → v = w) : m.varsBy key = m.vars := by
  have hobjective : m.objective.expression.varsBy key = m.objective.expression.vars :=
    Expression.varsBy_eq_vars fun v hv w hw =>
      hkey v (List.mem_append_left _ hv) w (List.mem_append_left _ hw)
  have hconstraints : m.constraints.flatMap (Constraint.varsBy key)
      = m.constraints.flatMap Constraint.vars := by
    refine List.flatMap_congr fun c hc => Constraint.varsBy_eq_vars fun v hv w hw => ?_
    have hmem : ∀ u ∈ c.written, u ∈ m.written := fun u hu =>
      List.mem_append_right _ (List.mem_flatMap.mpr ⟨c, hc, hu⟩)
    exact hkey v (hmem v hv) w (hmem w hw)
  have hwritten : ∀ v, v ∈ m.objective.expression.vars ++ m.constraints.flatMap Constraint.vars →
      v ∈ m.written := fun v hv => by
    rw [← List.mem_eraseDups, ← vars_eq_eraseDups, vars, List.mem_eraseDups]
    exact hv
  rw [varsBy, hobjective, hconstraints]
  exact distinctBy_eq_eraseDups key _ fun v hv w hw => hkey v (hwritten v hv) w (hwritten w hw)

end

namespace Workspace

variable {α μ : Type} [Scalar α] {ws ws' : Workspace α μ} {v : VariableRef}

/-! ## Identities of variables -/

/-- Identities are given out in order, and every variable has one of its own. -/
structure NumberedOnce (ws : Workspace α μ) : Prop where
  lt {v : VariableRef} (hv : v.index < ws.vars.length) : (ws.bareAt v).id < ws.nextVariable
  inj {v w : VariableRef} (hv : v.index < ws.vars.length) (hw : w.index < ws.vars.length)
    (h : (ws.bareAt v).id = (ws.bareAt w).id) : v = w

theorem NumberedOnce.of_ids (h : ws.NumberedOnce) (hsize : ws'.vars.length = ws.vars.length)
    (hnext : ws'.nextVariable = ws.nextVariable)
    (hids : ∀ v, (ws'.bareAt v).id = (ws.bareAt v).id) : ws'.NumberedOnce where
  lt {v} hv := by
    rw [hids, hnext]
    exact h.lt (hsize ▸ hv)
  inj {v w} hv hw hid := by
    rw [hids, hids] at hid
    exact h.inj (hsize ▸ hv) (hsize ▸ hw) hid

theorem NumberedOnce.of_bareAt (h : ws.NumberedOnce) (hsize : ws'.vars.length = ws.vars.length)
    (hnext : ws'.nextVariable = ws.nextVariable) (hbare : ws'.bareAt = ws.bareAt) :
    ws'.NumberedOnce :=
  h.of_ids hsize hnext fun v => by rw [hbare]

theorem id_bareAt_updateVariable {f : Variable α → Variable α} (hf : ∀ x, (f x).id = x.id)
    (ws : Workspace α μ) (v w : VariableRef) :
    ((ws.updateVariable v f).bareAt w).id = (ws.bareAt w).id := by
  rw [bareAt, variableAt_updateVariable]
  split
  · exact hf _
  · rfl

/-- Another variable takes the next identity, which no variable has. -/
theorem NumberedOnce.newVariable (h : ws.NumberedOnce) (spec : VariableSpec α) :
    (ws.newVariable spec).1.NumberedOnce := by
  have hsize := size_newVariable ws spec
  have hnext : (ws.newVariable spec).1.nextVariable = ws.nextVariable + 1 := rfl
  have hnew : ∀ {v : VariableRef}, v.index = ws.vars.length →
      ((ws.newVariable spec).1.bareAt v).id = ws.nextVariable := by
    intro v hv
    rw [bareAt, variableAt_newVariable, if_pos hv]
    rfl
  have hold : ∀ {v : VariableRef}, v.index ≠ ws.vars.length →
      ((ws.newVariable spec).1.bareAt v).id = (ws.bareAt v).id := by
    intro v hv
    rw [bareAt, variableAt_newVariable, if_neg hv, bareAt]
  have hfresh : ∀ {v w : VariableRef}, v.index = ws.vars.length → w.index < ws.vars.length →
      ((ws.newVariable spec).1.bareAt v).id ≠ ((ws.newVariable spec).1.bareAt w).id := by
    intro v w hv hw
    rw [hnew hv, hold (Nat.ne_of_lt hw)]
    exact (Nat.ne_of_lt (h.lt hw)).symm
  refine ⟨fun {v} hv => ?_, fun {v w} hv hw hid => ?_⟩
  · rw [hnext]
    by_cases hlast : v.index = ws.vars.length
    · rw [hnew hlast]
      exact Nat.lt_succ_self _
    · rw [hold hlast]
      exact Nat.lt_succ_of_lt (h.lt (by omega))
  · by_cases hlast : v.index = ws.vars.length <;> by_cases hlast' : w.index = ws.vars.length
    · exact congrArg VariableRef.mk (hlast.trans hlast'.symm)
    · exact absurd hid (hfresh hlast (by omega))
    · exact absurd hid.symm (hfresh hlast' (by omega))
    · rw [hold hlast, hold hlast'] at hid
      exact h.inj (by omega) (by omega) hid

/-- An identity that is drawn for something else is not given to a variable
either. -/
theorem NumberedOnce.drawVariableId (h : ws.NumberedOnce) : ws.drawVariableId.1.NumberedOnce :=
  ⟨fun hv => Nat.lt_succ_of_lt (h.lt hv), h.inj⟩

theorem nextVariable_tellSolver (ws : Workspace α μ) (l : ListenerRef) (v : VariableRef)
    (change : Change α) : (ws.tellSolver l v change).nextVariable = ws.nextVariable := by
  unfold tellSolver
  split
  · rfl
  · split <;> rfl

theorem nextVariable_generate (ws : Workspace α μ) (l : ListenerRef) :
    (ws.generate l).1.nextVariable = ws.nextVariable := by
  cases hs : ws.solver? l with
  | none => rw [generate, hs]
  | some s =>
    rw [generate_eq_install hs]
    exact (nextVariable_foldl (fun _ _ => nextVariable_attach ..) _ _).trans
      (nextVariable_detachAll ws _ _)

theorem nextVariable_settle (ws : Workspace α μ) (l : ListenerRef) (s : Solver α)
    (g : Generated α) (solution : Solution α) :
    (ws.settle l s g solution).nextVariable = ws.nextVariable := by
  unfold settle
  split
  · exact nextVariable_foldl (by intro ws level; rfl) _ ws
  · rfl

theorem preserves_numberedOnce {rule : Rule α μ} (htell : ∀ v change, rule.tell v change) :
    rule.Preserves NumberedOnce where
  apart := fun hsame hnext hbare h => h.of_bareAt hsame.size hnext hbare
  standing := fun _ _ h => h.of_bareAt rfl rfl rfl
  hold := fun _ h => h.of_bareAt rfl rfl rfl
  write := fun {ws op v e} _ _ _ h => by
    refine ⟨h.of_ids (sameListeners_updateVariable ..).size rfl fun w => ?_,
      fun _ change _ => htell _ change⟩
    refine id_bareAt_updateVariable (fun x => ?_) ws v w
    cases e.store with
    | bound side b => cases side <;> rfl
    | _ => rfl
  tell := fun {ws l v change} _ h =>
    h.of_bareAt (congrArg List.length (vars_tellSolver ws l v change))
      (nextVariable_tellSolver ws l v change) (bareAt_of_vars (vars_tellSolver ws l v change))
  assign := fun {ws v level} _ h => h.of_ids (sameListeners_assign ..).size rfl fun w =>
    id_bareAt_updateVariable (by intro x; rfl) ws v w
  generate := fun _ h =>
    h.of_bareAt (length_vars_generate ..) (nextVariable_generate ..) (bareAt_generate ..)
  forget := fun _ h => h.of_bareAt rfl rfl rfl
  settle := fun {_ ws l s g solution} _ _ _ _ _ h _ _ =>
    h.of_ids (sameListeners_settled ws s g solution).size (nextVariable_settle ws l s g solution)
      fun v => by
        obtain ⟨assigned, hassigned⟩ := exists_bareAt_settle ws l s g solution v
        rw [hassigned]
  newVariable := fun _ h => h.newVariable _
  newSolver := fun _ h => h.of_bareAt rfl rfl rfl
  newObserver := fun h => h.of_bareAt rfl rfl rfl

/-! ## The variables of a model -/

/-- A state that comes about: from the empty workspace, by courses of any clients
whose models are over variables that are there, and by drawing identities of
variables for something else. -/
inductive Arises : Workspace α μ → Prop
  | empty (memory : μ) : Arises { memory }
  | course {ws : Workspace α μ} (hws : Arises ws) {c : Conduct α μ} {turns : List (Turn α μ)}
    (hfollows : c.Follows Rule.inRange fun _ => True)
    (hallowed : Rule.inRange.AllowsAll c turns ws) : Arises (ws.course c turns)
  | drawVariableId {ws : Workspace α μ} (hws : Arises ws) : Arises ws.drawVariableId.1

theorem Arises.numberedOnce (hws : ws.Arises) : ws.NumberedOnce := by
  induction hws with
  | empty memory =>
    exact ⟨fun hv => absurd hv (Nat.not_lt_zero _), fun hv => absurd hv (Nat.not_lt_zero _)⟩
  | course _ hfollows hallowed ih =>
    exact (preserves_numberedOnce fun _ _ => trivial).course (fun _ => trivial) hfollows hallowed ih
  | drawVariableId _ ih => exact ih.drawVariableId

/-- The variables of a model are the first occurrences among the variables of
its terms as they were written. None is there twice, and each is there that
stands in a term, whatever cancels. They are the same when repeats are told by
identity, because two variables have the same identity only if they are one. -/
theorem vars_by_first_appearance (hws : ws.Arises) (m : Model α)
    (hm : ∀ v ∈ m.written, v.index < ws.vars.length) :
    m.vars = firstOccurrences m.written
      ∧ m.vars.Nodup ∧ (∀ v, v ∈ m.vars ↔ v ∈ m.written)
      ∧ (m.varsBy fun v => (ws.variableAt v).id) = m.vars
      ∧ ∀ v w : VariableRef, v.index < ws.vars.length → w.index < ws.vars.length →
        ((ws.variableAt v).id = (ws.variableAt w).id ↔ v = w) := by
  have hinj : ∀ v w : VariableRef, v.index < ws.vars.length → w.index < ws.vars.length →
      ((ws.variableAt v).id = (ws.variableAt w).id ↔ v = w) := fun v w hv hw =>
    ⟨hws.numberedOnce.inj hv hw, congrArg fun v => (ws.variableAt v).id⟩
  refine ⟨?_, m.nodup_vars, fun v => ?_, ?_, hinj⟩
  · rw [m.vars_eq_eraseDups, eraseDups_eq_firstOccurrences]
  · rw [m.vars_eq_eraseDups, List.mem_eraseDups]
  · exact Model.varsBy_eq_vars fun v hv w hw => (hinj v w (hm v hv) (hm w hw)).mp

/-! ## Cancelling variables -/

/-- `z - z` is minimized where `y - y ≤ x + z`, over the variables `x`, `y` and
`z` in this order. -/
def scatteredModel : Model Exact where
  name := "scattered"
  objective := ⟨.minimize, ⟨0, [(⟨2⟩, 1), (⟨2⟩, .finite (-1))]⟩⟩
  constraints := [{
    id := 0
    name := "limit"
    lhs := ⟨0, [(⟨1⟩, 1), (⟨1⟩, .finite (-1))]⟩
    sense := .atMost
    rhs := ⟨0, [(⟨0⟩, 1), (⟨2⟩, 1)]⟩ }]

/-- An identity is drawn between the variables, so theirs are `0`, `2` and `3`. -/
def scatteredWorkspace : Workspace Exact Unit :=
  (Workspace.drawVariableId
      (course idleConduct [.move (.newVariable (.binary "x"))] { memory := () })).1.course
    idleConduct [.move (.newVariable (.binary "y")), .move (.newVariable (.binary "z"))]

theorem arises_scatteredWorkspace : scatteredWorkspace.Arises := by
  have hquiet : idleConduct.Follows Rule.inRange fun _ => True :=
    .quiet (fun _ _ _ ws => .refl ws) (fun _ _ ws => .refl ws)
  have hfirst : Arises (course idleConduct [.move (.newVariable (.binary "x"))] { memory := () }) :=
    (Arises.empty ()).course hquiet ⟨trivial, trivial⟩
  exact hfirst.drawVariableId.course hquiet ⟨trivial, trivial, trivial⟩

/-- All three variables are there, in the order in which they stand first, and
are told by their identities. -/
theorem vars_scatteredModel : scatteredModel.vars = [⟨2⟩, ⟨1⟩, ⟨0⟩]
    ∧ (scatteredModel.varsBy fun v => (scatteredWorkspace.variableAt v).id) = [⟨2⟩, ⟨1⟩, ⟨0⟩]
    ∧ (scatteredWorkspace.variableAt ⟨1⟩).id ≠ (scatteredWorkspace.variableAt ⟨2⟩).id := by
  obtain ⟨hfirst, -, -, hids, hinj⟩ :=
    vars_by_first_appearance arises_scatteredWorkspace scatteredModel (by decide +kernel)
  have hvars : scatteredModel.vars = [⟨2⟩, ⟨1⟩, ⟨0⟩] := by
    rw [hfirst]
    decide +kernel
  refine ⟨hvars, hids.trans hvars, fun hsame => ?_⟩
  have h := (hinj ⟨1⟩ ⟨2⟩ (by decide +kernel) (by decide +kernel)).mp hsame
  cases h

end Workspace

end Milp
