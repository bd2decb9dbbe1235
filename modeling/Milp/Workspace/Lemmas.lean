/-
Milp.Workspace.Lemmas — reading a workspace after an operation.

Two readings say all that later operations see: `variableAt` for the
variables and `listener?` for the listeners. For each operation there is
one equation for the reading it changes, and a `SameListeners` or a simp
lemma for the reading it leaves.

`Variable.bare` is a variable apart from its handles: attaching, detaching
and generating change nothing of it.
-/
import Milp.Workspace.Solve

namespace Milp

variable {α μ : Type}

/-! ## Variables and handles -/

/-- The variable apart from the listeners attached to it. -/
def Variable.bare (x : Variable α) : Variable α := { x with handles := [] }

@[simp] theorem Variable.bare_attach (x : Variable α) (h : Handle) :
    (x.attach h).bare = x.bare := by
  unfold attach
  split <;> rfl

@[simp] theorem Variable.bare_detach (x : Variable α) (ids : List SolverId) :
    (x.detach ids).bare = x.bare := rfl

theorem Variable.freeze_eq_of_bare {x y : Variable α} (h : x.bare = y.bare) :
    x.freeze = y.freeze :=
  congrArg (fun z => z.freeze) h

theorem Variable.assigned_eq_of_bare {x y : Variable α} (h : x.bare = y.bare) :
    x.assigned = y.assigned :=
  congrArg (fun z => z.assigned) h

theorem Variable.mem_handles_detach {x : Variable α} {ids : List SolverId} {h : Handle} :
    h ∈ (x.detach ids).handles ↔ h ∈ x.handles ∧ h.id ∉ ids := by
  simp [detach]

theorem Variable.mem_handles_attach {x : Variable α} {h k : Handle}
    (hk : k ∈ (x.attach h).handles) : k ∈ x.handles ∨ k = h := by
  unfold attach at hk
  split at hk
  · exact Or.inl hk
  · simpa using hk

theorem Variable.detach_detach (x : Variable α) (ids : List SolverId) :
    (x.detach ids).detach ids = x.detach ids := by
  simp [detach]

theorem Variable.detach_nil (x : Variable α) : x.detach [] = x := by
  have hall : (x.handles.filter fun h => !([] : List SolverId).contains h.id) = x.handles :=
    List.filter_eq_self.mpr fun _ _ => rfl
  rw [detach, hall]

theorem Variable.attach_attach (x : Variable α) (h : Handle) :
    (x.attach h).attach h = x.attach h := by
  rw [attach, if_pos (by simp)]

/-! ## Solvers of a listener -/

namespace Listener

/-- The end of a use brings no listener to life. -/
theorem isAlive_of_released {a : Listener α}
    (h : ({ a with uses := a.uses - 1 } : Listener α).isAlive = true) : a.isAlive = true := by
  simp only [isAlive, Bool.or_eq_true, decide_eq_true_eq] at h ⊢
  exact h.imp_right fun hused => by omega

/-- Giving a listener up does not bring it to life. -/
theorem isAlive_of_dropped {a : Listener α}
    (h : ({ a with owned := false } : Listener α).isAlive = true) : a.isAlive = true := by
  simp only [isAlive, Bool.false_or] at h
  rw [isAlive, h, Bool.or_true]

@[simp] theorem isAlive_mapSolver (f : Solver α → Solver α) (a : Listener α) :
    (a.mapSolver f).isAlive = a.isAlive := by
  unfold mapSolver
  split <;> rfl

@[simp] theorem solver?_mapSolver (f : Solver α → Solver α) (a : Listener α) :
    (a.mapSolver f).solver? = a.solver?.map f := by
  obtain ⟨role, owned, uses⟩ := a
  cases role <;> rfl

@[simp] theorem mapSolver_mapSolver (f g : Solver α → Solver α) (a : Listener α) :
    (a.mapSolver f).mapSolver g = a.mapSolver fun s => g (f s) := by
  obtain ⟨role, owned, uses⟩ := a
  cases role <;> rfl

theorem id_mapSolver {f : Solver α → Solver α} (hf : ∀ s, (f s).id = s.id) (a : Listener α) :
    (a.mapSolver f).id = a.id := by
  obtain ⟨role, owned, uses⟩ := a
  cases role with
  | solver s => exact hf s
  | observer id => rfl

theorem id_of_solver? {a : Listener α} {s : Solver α} (h : a.solver? = some s) : a.id = s.id := by
  obtain ⟨role, owned, uses⟩ := a
  cases role with
  | solver s' =>
    cases h
    rfl
  | observer id => cases h

end Listener

namespace Workspace

/-! ## What stays -/

/-- At most the record and what clients keep differ. -/
def SameState (ws ws' : Workspace α μ) : Prop :=
  ∃ events memory, ws' = { ws with events, memory }

theorem SameState.refl (ws : Workspace α μ) : SameState ws ws := ⟨_, _, rfl⟩

theorem SameState.trans {ws₁ ws₂ ws₃ : Workspace α μ} (h : SameState ws₁ ws₂)
    (h' : SameState ws₂ ws₃) : SameState ws₁ ws₃ := by
  obtain ⟨_, _, rfl⟩ := h
  obtain ⟨events, memory, rfl⟩ := h'
  exact ⟨events, memory, rfl⟩

theorem sameState_emit (ws : Workspace α μ) (event : Event α) : SameState ws (ws.emit event) :=
  ⟨_, _, rfl⟩

theorem SameState.variableAt [Scalar α] {ws ws' : Workspace α μ} (h : SameState ws ws')
    (v : VariableRef) : ws'.variableAt v = ws.variableAt v := by
  obtain ⟨_, _, rfl⟩ := h
  rfl

/-- At most variables, the record and what clients keep differ. -/
structure SameListeners (ws ws' : Workspace α μ) : Prop where
  listeners : ws'.listeners = ws.listeners
  size : ws'.vars.length = ws.vars.length
  nextSolver : ws'.nextSolver = ws.nextSolver

theorem SameListeners.refl (ws : Workspace α μ) : SameListeners ws ws := ⟨rfl, rfl, rfl⟩

theorem SameListeners.trans {ws₁ ws₂ ws₃ : Workspace α μ} (h : SameListeners ws₁ ws₂)
    (h' : SameListeners ws₂ ws₃) : SameListeners ws₁ ws₃ :=
  ⟨h'.listeners.trans h.listeners, h'.size.trans h.size, h'.nextSolver.trans h.nextSolver⟩

theorem SameState.sameListeners {ws ws' : Workspace α μ} (h : SameState ws ws') :
    SameListeners ws ws' := by
  obtain ⟨_, _, rfl⟩ := h
  exact ⟨rfl, rfl, rfl⟩

theorem SameListeners.listener? {ws ws' : Workspace α μ} (h : SameListeners ws ws')
    (l : ListenerRef) : ws'.listener? l = ws.listener? l := by
  rw [Workspace.listener?, h.listeners]
  rfl

theorem SameListeners.solver? {ws ws' : Workspace α μ} (h : SameListeners ws ws')
    (l : ListenerRef) : ws'.solver? l = ws.solver? l := by
  rw [Workspace.solver?, h.listener?]
  rfl

theorem sameListeners_updateVariable (ws : Workspace α μ) (v : VariableRef)
    (f : Variable α → Variable α) : SameListeners ws (ws.updateVariable v f) :=
  ⟨rfl, by simp [updateVariable], rfl⟩

theorem sameListeners_emit (ws : Workspace α μ) (event : Event α) :
    SameListeners ws (ws.emit event) :=
  (sameState_emit ws event).sameListeners

/-- What holds of one step holds of a run of steps over a list. -/
theorem SameListeners.foldl {β : Type} {f : Workspace α μ → β → Workspace α μ}
    (hf : ∀ ws x, SameListeners ws (f ws x)) (xs : List β) (ws : Workspace α μ) :
    SameListeners ws (xs.foldl f ws) := by
  induction xs generalizing ws with
  | nil => exact .refl ws
  | cons x rest ih => exact (hf ws x).trans (ih (f ws x))

theorem sameListeners_detachAll (ws : Workspace α μ) (vs : List VariableRef) (id : SolverId) :
    SameListeners ws (ws.detachAll vs id) :=
  SameListeners.foldl (fun ws v => sameListeners_updateVariable ws v _) vs ws

theorem sameListeners_retire (ws : Workspace α μ) (l : ListenerRef) :
    SameListeners ws (ws.retire l) := by
  unfold retire
  split
  · exact sameListeners_detachAll ..
  · exact .refl ws

theorem sameListeners_retireIfDead (ws : Workspace α μ) (l : ListenerRef) :
    SameListeners ws (ws.retireIfDead l) := by
  unfold retireIfDead
  split
  · exact .refl ws
  · exact sameListeners_retire ws l

/-! ## The counter of variables -/

theorem nextVariable_foldl {β : Type} {f : Workspace α μ → β → Workspace α μ}
    (hf : ∀ ws x, (f ws x).nextVariable = ws.nextVariable) (xs : List β) (ws : Workspace α μ) :
    (xs.foldl f ws).nextVariable = ws.nextVariable := by
  induction xs generalizing ws with
  | nil => rfl
  | cons x rest ih => exact (ih (f ws x)).trans (hf ws x)

theorem nextVariable_detachAll (ws : Workspace α μ) (vs : List VariableRef) (id : SolverId) :
    (ws.detachAll vs id).nextVariable = ws.nextVariable :=
  nextVariable_foldl (by intro ws v; rfl) vs ws

theorem nextVariable_retireIfDead (ws : Workspace α μ) (l : ListenerRef) :
    (ws.retireIfDead l).nextVariable = ws.nextVariable := by
  unfold retireIfDead retire
  split
  · rfl
  · split
    · exact nextVariable_detachAll ..
    · rfl

/-! ## One solver changed -/

theorem listener?_updateSolver (ws : Workspace α μ) (l k : ListenerRef)
    (f : Solver α → Solver α) : (ws.updateSolver l f).listener? k =
      if k = l then (ws.listener? k).map (Listener.mapSolver f) else ws.listener? k := by
  by_cases hk : k = l
  · subst hk
    rw [updateSolver, listener?_updateListener_self, if_pos rfl]
  · rw [updateSolver, listener?_updateListener_of_ne hk, if_neg hk]

theorem solver?_updateSolver (ws : Workspace α μ) (l k : ListenerRef)
    (f : Solver α → Solver α) : (ws.updateSolver l f).solver? k =
      if k = l then (ws.solver? k).map f else ws.solver? k := by
  rw [solver?, listener?_updateSolver]
  by_cases hk : k = l
  · rw [if_pos hk, if_pos hk, solver?]
    cases ws.listener? k with
    | none => rfl
    | some a => exact Listener.solver?_mapSolver f a
  · rw [if_neg hk, if_neg hk, solver?]

/-! ## Things made -/

/-- A new listener stands behind the one new reference. -/
theorem listener?_newListener (ws : Workspace α μ) (role : SolverId → Role α)
    (k : ListenerRef) : (ws.newListener role).1.listener? k =
      if k.index = ws.listeners.length then some { role := role ws.nextSolver }
      else ws.listener? k := by
  change (ws.listeners ++ [({ role := role ws.nextSolver } : Listener α)])[k.index]? = _
  by_cases hk : k.index = ws.listeners.length
  · rw [if_pos hk, hk, List.getElem?_concat_length]
  · rw [if_neg hk, listener?]
    rcases Nat.lt_or_gt_of_ne hk with hlt | hgt
    · rw [List.getElem?_append_left hlt]
    · rw [List.getElem?_eq_none (by simp; omega), List.getElem?_eq_none (by omega)]

theorem size_newVariable (ws : Workspace α μ) (spec : VariableSpec α) :
    (ws.newVariable spec).1.vars.length = ws.vars.length + 1 :=
  List.length_append.trans rfl

/-- A new variable stands behind the one new reference. -/
theorem variableAt_newVariable [Scalar α] (ws : Workspace α μ) (spec : VariableSpec α)
    (w : VariableRef) : (ws.newVariable spec).1.variableAt w =
      if w.index = ws.vars.length then .ofSpec ws.nextVariable spec else ws.variableAt w := by
  change (ws.vars ++ [Variable.ofSpec ws.nextVariable spec]).getD w.index .blank = _
  rw [List.getD_eq_getElem?_getD]
  by_cases hw : w.index = ws.vars.length
  · rw [if_pos hw, hw, List.getElem?_concat_length, Option.getD_some]
  · rw [if_neg hw, variableAt, List.getD_eq_getElem?_getD]
    rcases Nat.lt_or_gt_of_ne hw with hlt | hgt
    · rw [List.getElem?_append_left hlt]
    · rw [List.getElem?_eq_none (by simp; omega), List.getElem?_eq_none (by omega)]

/-! ## Uses and deaths -/

/-- The uses of a listener are not seen in its solver. -/
theorem solver?_updateListener {f : Listener α → Listener α} (hf : ∀ a, (f a).solver? = a.solver?)
    (ws : Workspace α μ) (l k : ListenerRef) :
    (ws.updateListener l f).solver? k = ws.solver? k := by
  by_cases hk : k = l
  · subst hk
    rw [solver?, listener?_updateListener_self, solver?]
    cases ws.listener? k with
    | none => rfl
    | some a => exact hf a
  · rw [solver?, listener?_updateListener_of_ne hk, solver?]

theorem solver?_hold (ws : Workspace α μ) (l k : ListenerRef) :
    (ws.hold l).solver? k = ws.solver? k :=
  solver?_updateListener (by intro a; rfl) ws l k

theorem solver?_release (ws : Workspace α μ) (l k : ListenerRef) :
    (ws.release l).solver? k = ws.solver? k := by
  rw [release, (sameListeners_retireIfDead _ l).solver?]
  exact solver?_updateListener (by intro a; rfl) ws l k

/-- A listener that is alive was so before, if the change brings none to life. -/
theorem alive_updateListener {ws : Workspace α μ} {l : ListenerRef} {f : Listener α → Listener α}
    (hlife : ∀ a, ws.listener? l = some a → (f a).isAlive = true → a.isAlive = true)
    (k : ListenerRef) (halive : ((ws.updateListener l f).listener? k).any Listener.isAlive = true) :
    (ws.listener? k).any Listener.isAlive = true := by
  by_cases hk : k = l
  · subst hk
    rw [listener?_updateListener_self] at halive
    obtain ⟨b, hb, hbalive⟩ := (Option.any_eq_true _ _).mp halive
    obtain ⟨a, ha, rfl⟩ := Option.map_eq_some_iff.mp hb
    exact (Option.any_eq_true _ _).mpr ⟨a, ha, hlife a ha hbalive⟩
  · rw [listener?_updateListener_of_ne hk] at halive
    exact halive

@[simp] theorem variableAt_updateSolver [Scalar α] (ws : Workspace α μ) (l : ListenerRef)
    (f : Solver α → Solver α) (v : VariableRef) :
    (ws.updateSolver l f).variableAt v = ws.variableAt v := rfl

variable [Scalar α]

theorem sameListeners_attach (ws : Workspace α μ) (v : VariableRef) (h : Handle) :
    SameListeners ws (ws.attach v h) := by
  unfold attach
  extract_lets x
  split
  · exact .refl ws
  · exact (sameListeners_emit ws _).trans (sameListeners_updateVariable _ v _)

theorem nextVariable_attach (ws : Workspace α μ) (v : VariableRef) (h : Handle) :
    (ws.attach v h).nextVariable = ws.nextVariable := by
  unfold attach
  extract_lets x
  split <;> rfl

theorem sameListeners_attachAll (ws : Workspace α μ) (vs : List VariableRef) (h : Handle) :
    SameListeners ws (ws.attachAll vs h) :=
  SameListeners.foldl (fun ws v => sameListeners_attach ws v h) vs ws

theorem sameListeners_assign (ws : Workspace α μ) (v : VariableRef) (level : Level α) :
    SameListeners ws (ws.assign v level) :=
  (sameListeners_updateVariable ws v _).trans (sameListeners_emit _ _)

theorem sameListeners_assignAll (ws : Workspace α μ) (id : SolverId) (vs : List VariableRef)
    (solution : Solution α) : SameListeners ws (ws.assignAll id vs solution) :=
  SameListeners.foldl (fun ws _ => sameListeners_assign ws _ _) _ ws

/-! ## What a variable reads as -/

theorem variableAt_of_length_le {ws : Workspace α μ} {v : VariableRef}
    (h : ws.vars.length ≤ v.index) : ws.variableAt v = .blank := by
  simp [variableAt, List.getD_eq_getElem?_getD, h]

theorem variableAt_updateVariable (ws : Workspace α μ) (v w : VariableRef)
    (f : Variable α → Variable α) : (ws.updateVariable v f).variableAt w =
      if w = v ∧ w.index < ws.vars.length then f (ws.variableAt w) else ws.variableAt w := by
  by_cases hw : w = v
  · subst hw
    by_cases hlt : w.index < ws.vars.length
    · rw [variableAt_updateVariable_self hlt, if_pos ⟨rfl, hlt⟩]
    · have hle : ws.vars.length ≤ w.index := Nat.le_of_not_lt hlt
      have hle' : (ws.updateVariable w f).vars.length ≤ w.index := by
        rw [(sameListeners_updateVariable ws w f).size]
        exact hle
      rw [if_neg (fun h => hlt h.2), variableAt_of_length_le hle, variableAt_of_length_le hle']
  · rw [variableAt_updateVariable_of_ne hw, if_neg (fun h => hw h.1)]

/-- Detaching changes the blank variable nowhere, so references from
elsewhere need no case of their own. -/
theorem variableAt_updateVariable_detach (ws : Workspace α μ) (v w : VariableRef)
    (ids : List SolverId) : (ws.updateVariable v (·.detach ids)).variableAt w =
      if w = v then (ws.variableAt w).detach ids else ws.variableAt w := by
  rw [variableAt_updateVariable]
  by_cases hw : w = v
  · by_cases hlt : w.index < ws.vars.length
    · simp [hw, hw ▸ hlt]
    · rw [if_neg (fun h => hlt h.2), variableAt_of_length_le (Nat.le_of_not_lt hlt), if_pos hw]
      rfl
  · simp [hw]

theorem variableAt_detach (ws : Workspace α μ) (v w : VariableRef) (id : SolverId) :
    (ws.detach v id).variableAt w =
      if w = v then (ws.variableAt w).detach [id] else ws.variableAt w :=
  variableAt_updateVariable_detach ws v w [id]

theorem variableAt_detachAll (w : VariableRef) (id : SolverId) (vs : List VariableRef)
    (ws : Workspace α μ) : (ws.detachAll vs id).variableAt w =
      if w ∈ vs then (ws.variableAt w).detach [id] else ws.variableAt w := by
  induction vs generalizing ws with
  | nil => rfl
  | cons v rest ih =>
    have hrest := ih (ws.detach v id)
    rw [detachAll, List.foldl_cons]
    refine hrest.trans ?_
    rw [variableAt_detach]
    by_cases hr : w ∈ rest
    · by_cases hv : w = v
      · rw [if_pos hr, if_pos hv, if_pos (List.mem_cons_of_mem v hr), Variable.detach_detach]
      · rw [if_pos hr, if_neg hv, if_pos (List.mem_cons_of_mem v hr)]
    · simp [hr]

theorem bare_variableAt_detachAll (ws : Workspace α μ) (vs : List VariableRef) (id : SolverId)
    (v : VariableRef) : ((ws.detachAll vs id).variableAt v).bare = (ws.variableAt v).bare := by
  rw [variableAt_detachAll]
  split <;> simp

/-- Retiring a listener changes handles only. -/
theorem bare_variableAt_retireIfDead (ws : Workspace α μ) (l : ListenerRef) (v : VariableRef) :
    ((ws.retireIfDead l).variableAt v).bare = (ws.variableAt v).bare := by
  unfold retireIfDead retire
  split
  · rfl
  · split
    · exact bare_variableAt_detachAll ..
    · rfl

/-- Retiring a listener changes variables with a column only. -/
theorem variableAt_retireIfDead_of_not_mem {ws : Workspace α μ} {l : ListenerRef}
    {v : VariableRef} (h : ∀ s, ws.solver? l = some s → v ∉ s.vars) :
    (ws.retireIfDead l).variableAt v = ws.variableAt v := by
  unfold retireIfDead retire
  split
  · rfl
  · split
    · next s hs => rw [variableAt_detachAll, if_neg (h s hs)]
    · rfl

theorem bare_variableAt_release (ws : Workspace α μ) (l : ListenerRef) (v : VariableRef) :
    ((ws.release l).variableAt v).bare = (ws.variableAt v).bare :=
  bare_variableAt_retireIfDead _ l v

theorem variableAt_release_of_not_mem {ws : Workspace α μ} {l : ListenerRef} {v : VariableRef}
    (h : ∀ s, ws.solver? l = some s → v ∉ s.vars) :
    (ws.release l).variableAt v = ws.variableAt v := by
  refine variableAt_retireIfDead_of_not_mem fun s hs => h s ?_
  rw [← hs]
  exact (solver?_updateListener (by intro a; rfl) ws l l).symm

theorem variableAt_attach (ws : Workspace α μ) (v w : VariableRef) (h : Handle) :
    (ws.attach v h).variableAt w =
      if w = v ∧ w.index < ws.vars.length then (ws.variableAt w).attach h
      else ws.variableAt w := by
  unfold attach
  extract_lets x
  split
  · next hatt =>
    by_cases hw : w = v
    · subst hw
      have hsame : (ws.variableAt w).attach h = ws.variableAt w := if_pos hatt
      simp [hsame]
    · simp [hw]
  · exact variableAt_updateVariable _ v w _

theorem variableAt_attachAll (w : VariableRef) (h : Handle) (vs : List VariableRef)
    (ws : Workspace α μ) : (ws.attachAll vs h).variableAt w =
      if w ∈ vs ∧ w.index < ws.vars.length then (ws.variableAt w).attach h
      else ws.variableAt w := by
  induction vs generalizing ws with
  | nil => simp [attachAll]
  | cons v rest ih =>
    have hrest := ih (ws.attach v h)
    rw [attachAll, List.foldl_cons]
    refine hrest.trans ?_
    rw [(sameListeners_attach ws v h).size, variableAt_attach]
    by_cases hlt : w.index < ws.vars.length
    · by_cases hr : w ∈ rest
      · by_cases hv : w = v
        · subst hv
          simp [hlt, hr, Variable.attach_attach]
        · simp [hlt, hr, hv]
      · simp [hlt, hr]
    · simp [hlt]

end Workspace

end Milp
