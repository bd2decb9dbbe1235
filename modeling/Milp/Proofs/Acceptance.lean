/-
Milp.Proofs.Acceptance — changes that every listener hears of.

Where observers accept whatever they are told (`Conduct.Accepting`) and the
listeners attached to a variable are alive and not in use (`Ready`), telling
them never fails: each is told, and no handle is removed
(`told_of_ready`). An operation on a variable is then its edit stored and its
news heard, and no more (`perform_followed`).

News may be absent, as an edit is stored without being told: `follow` does
nothing then. `Listener.standing` is what says whether a listener is ready;
no news changes it.
-/
import Milp.Proofs.Retry

namespace Milp

variable {α μ : Type}

/-! ## News -/

/-- What the listeners are told of an edit. -/
def Edit.change? (e : Edit α) : Option (Change α) := e.news.map Prod.snd

/-- The column after news of its variable, if there are any. -/
def Column.follow (column : Column α) (news : Option (Change α)) : Column α :=
  news.elim column column.apply

/-- The problem after news of a variable. -/
def Generated.follow (v : VariableRef) (news : Option (Change α)) (g : Generated α) :
    Generated α :=
  news.elim g fun change => g.hear v change

/-- The listener after news of a variable. -/
def Listener.follow (v : VariableRef) (news : Option (Change α)) (a : Listener α) : Listener α :=
  news.elim a fun change => a.hear v change

theorem Generated.getElem?_columns_follow {g : Generated α} (hg : g.vars.Nodup) (v : VariableRef)
    (news : Option (Change α)) (i : Nat) : (g.follow v news).problem.columns[i]?
      = g.problem.columns[i]?.map fun column =>
        if g.vars[i]? = some v then column.follow news else column := by
  cases news with
  | none =>
    simp only [follow, Column.follow, Option.elim_none, ite_self]
    exact Option.map_id'.symm
  | some change =>
    simp only [follow, Column.follow, Option.elim_some]
    by_cases hi : g.vars[i]? = some v
    · have hv : g.offset? v = some i := (idxOf?_eq_some_iff_getElem? hg).mpr hi
      rw [hear_of_offset? hv]
      simp [updateColumn, hi]
    · cases hv : g.offset? v with
      | none =>
        rw [hear_of_offset?_eq_none hv]
        simp [hi]
      | some j =>
        have hj : g.vars[j]? = some v := (idxOf?_eq_some_iff_getElem? hg).mp hv
        have hji : j ≠ i := fun h => hi (h ▸ hj)
        rw [hear_of_offset? hv]
        simp [updateColumn, hi, hji]

@[simp] theorem Generated.vars_follow (v : VariableRef) (news : Option (Change α))
    (g : Generated α) : (g.follow v news).vars = g.vars := by
  cases news with
  | none => rfl
  | some change => exact vars_hear v change g

namespace Listener

theorem follow_eq_mapSolver (v : VariableRef) (news : Option (Change α)) (a : Listener α) :
    a.follow v news
      = a.mapSolver fun s => { s with generated := s.generated.map (·.follow v news) } := by
  cases news with
  | some change => rfl
  | none =>
    refine (mapSolver_eq_self fun s _ => ?_).symm
    simp only [Generated.follow, Option.elim_none, Option.map_id']

@[simp] theorem isAlive_follow (v : VariableRef) (news : Option (Change α)) (a : Listener α) :
    (a.follow v news).isAlive = a.isAlive := by
  rw [follow_eq_mapSolver]
  exact isAlive_mapSolver _ a

/-- Who a listener is, and what keeps it alive and busy. -/
def standing (a : Listener α) : SolverId × Bool × Nat := (a.id, a.owned, a.uses)

theorem standing_mapSolver {t : Solver α → Solver α} (ht : ∀ s, (t s).id = s.id)
    (a : Listener α) : (a.mapSolver t).standing = a.standing := by
  obtain ⟨role, owned, uses⟩ := a
  cases role with
  | solver s => exact congrArg (·, owned, uses) (ht s)
  | observer id => rfl

theorem standing_follow (v : VariableRef) (news : Option (Change α)) (a : Listener α) :
    (a.follow v news).standing = a.standing := by
  cases news with
  | none => rfl
  | some change => exact standing_mapSolver (by intro s; rfl) a

end Listener

variable [Scalar α]

/-! ## Listeners that are ready -/

/-- Observers accept every change, and do nothing about it. -/
def Conduct.Accepting (c : Conduct α μ) : Prop :=
  ∀ l v change (ws : Workspace α μ), ws.SameState (c.receive l v change ws).1
    ∧ (c.receive l v change ws).2 = .ok ()

namespace Workspace

variable {ws ws' ws₁ : Workspace α μ} {c : Conduct α μ} {v : VariableRef} {k l : ListenerRef}

/-- A listener is alive and not in use. -/
def Ready (ws : Workspace α μ) (k : ListenerRef) : Prop :=
  ∃ a, ws.listener? k = some a ∧ a.isAlive = true ∧ a.isBusy = false

/-- Every listener that is attached to a variable is ready. -/
def Attentive (ws : Workspace α μ) : Prop :=
  ∀ v, ∀ h ∈ (ws.variableAt v).handles, ws.Ready h.listener

omit [Scalar α] in
theorem ready_iff : ws.Ready k ↔ (ws.listener? k).any (fun a => a.isAlive && !a.isBusy) = true := by
  simp [Ready, Option.any_eq_true]

instance (ws : Workspace α μ) (k : ListenerRef) : Decidable (ws.Ready k) :=
  decidable_of_iff _ ready_iff.symm

/-- What holds of the blank variable and of every variable there is holds of
whatever is looked up. -/
theorem forall_variableAt {p : Variable α → Prop} (hblank : p .blank)
    (h : ∀ x ∈ ws.vars, p x) (v : VariableRef) : p (ws.variableAt v) := by
  rw [variableAt, List.getD_eq_getElem?_getD]
  cases hx : ws.vars[v.index]? with
  | none => exact hblank
  | some x => exact h x (List.mem_of_getElem? hx)

theorem attentive_of_vars (h : ∀ x ∈ ws.vars, ∀ k ∈ x.handles, ws.Ready k.listener) :
    ws.Attentive :=
  forall_variableAt (p := fun x => ∀ k ∈ x.handles, ws.Ready k.listener)
    (fun k hk => by cases hk) h

/-- The listeners are the same, as alive and as busy. -/
def SameStanding (ws ws' : Workspace α μ) : Prop :=
  ∀ k, (ws'.listener? k).map Listener.standing = (ws.listener? k).map Listener.standing

omit [Scalar α] in
theorem SameStanding.ready (h : SameStanding ws ws') (hk : ws.Ready k) : ws'.Ready k := by
  obtain ⟨a, ha, halive, hidle⟩ := hk
  have hstanding := h k
  rw [ha, Option.map_some] at hstanding
  obtain ⟨b, hb, hsame⟩ := Option.map_eq_some_iff.mp hstanding
  obtain ⟨-, howned, huses⟩ : b.id = a.id ∧ b.owned = a.owned ∧ b.uses = a.uses := by
    simpa [Listener.standing] using hsame
  refine ⟨b, hb, ?_, ?_⟩
  · rw [Listener.isAlive, howned, huses]
    exact halive
  · rw [Listener.isBusy, huses]
    exact hidle

omit [Scalar α] in
theorem SameStanding.handleOf? (h : SameStanding ws ws') (k : ListenerRef) :
    ws'.handleOf? k = ws.handleOf? k := by
  have hshape : ∀ ws : Workspace α μ, ws.handleOf? k
      = ((ws.listener? k).map Listener.standing).map fun standing => ⟨standing.1, k⟩ := by
    intro ws
    rw [Workspace.handleOf?, Option.map_map]
    rfl
  rw [hshape, hshape, h]

omit [Scalar α] in
theorem SameListeners.sameStanding (h : SameListeners ws ws') : SameStanding ws ws' :=
  fun k => by rw [h.listener?]

omit [Scalar α] in
theorem Told.sameStanding {change : Change α} {hs : List Handle} (h : Told v change hs ws ws') :
    SameStanding ws ws' := by
  intro k
  rw [h.listener, Option.map_map]
  refine Option.map_congr fun a _ => ?_
  rw [Function.comp_apply]
  split
  · exact Listener.standing_mapSolver (by intro s; rfl) a
  · rfl

theorem notify_of_ready (hc : c.Accepting) {h : Handle} (hready : ws.Ready h.listener)
    (change : Change α) : (notify c h v change ws).2 = .ok true := by
  obtain ⟨a, ha, halive, hidle⟩ := hready
  rw [notify, ha]
  simp only [halive, hidle, Bool.not_true, Bool.false_eq_true, if_false]
  cases a.role with
  | solver s => rfl
  | observer id =>
    have haccepted := (hc h.listener v change (ws.hold h.listener)).2
    simp only [haccepted]
    rfl

theorem deliver_of_ready (hc : c.Accepting) {hs : List Handle}
    (hready : ∀ h ∈ hs, ws.Ready h.listener) (action : Action) (change : Change α) :
    ∃ dead, (deliver c action v change hs ws).2 = .ok dead := by
  have hquiet : c.QuietObservers := fun l v change ws => (hc l v change ws).1
  induction hs generalizing ws with
  | nil => exact ⟨[], rfl⟩
  | cons h rest ih =>
    have htold := notify_of_ready (v := v) hc (hready h List.mem_cons_self) change
    cases hnotify : notify c h v change ws with
    | mk ws₁ answer =>
      rw [hnotify] at htold
      obtain rfl : answer = .ok true := htold
      have hsame := (told_notify hquiet hnotify).1.sameStanding
      rw [deliver, hnotify]
      exact ih fun k hk => hsame.ready (hready k (List.mem_cons_of_mem h hk))

/-- Where all listeners of a variable are ready and accept, each of them is
told, and no handle is removed. -/
theorem told_of_ready (hc : c.Accepting)
    (hready : ∀ h ∈ (ws.variableAt v).handles, ws.Ready h.listener) (action : Action)
    (change : Change α) : ∃ told, tellListeners c action v change ws = (told, .ok ())
      ∧ Told v change (ws.variableAt v).handles ws told := by
  have hquiet : c.QuietObservers := fun l v change ws => (hc l v change ws).1
  obtain ⟨dead, hdead⟩ := deliver_of_ready (v := v) hc hready action change
  cases hdeliver : deliver c action v change (ws.variableAt v).handles ws with
  | mk told answer =>
    rw [hdeliver] at hdead
    obtain rfl : answer = .ok dead := hdead
    obtain ⟨htold, hids⟩ := told_deliver hquiet hdeliver
    have hnone : dead = [] := by
      refine List.eq_nil_iff_forall_not_mem.mpr fun id hid => ?_
      obtain ⟨h, hh, -, hdead⟩ := hids id hid
      obtain ⟨a, ha, halive, -⟩ := hready h hh
      rw [isAlive_of_listener? ha, halive] at hdead
      cases hdead
    refine ⟨told, ?_, htold⟩
    rw [tellListeners, hdeliver, hnone]
    rfl

/-! ## Following an edit -/

/-- An edit is stored in a variable, and the listeners attached to it that
are alive have heard its news. -/
structure Followed (v : VariableRef) (e : Edit α) (ws ws₁ : Workspace α μ) : Prop where
  size : ws₁.vars.length = ws.vars.length
  variableAt : ∀ w, ws₁.variableAt w = if w = v ∧ w.index < ws.vars.length
    then (ws.variableAt w).write e.store else ws.variableAt w
  listener : ∀ k, ws₁.listener? k = (ws.listener? k).map fun a =>
    if a.isAlive = true ∧ k ∈ (ws.variableAt v).handles.map Handle.listener
    then a.follow v e.change? else a

/-- Where the listeners of its variable are ready and accept, an operation
that changes a variable is followed by them, and is not refused once it
gets to tell them. -/
theorem perform_followed (hc : c.Accepting)
    (hready : ∀ h ∈ (ws.variableAt v).handles, ws.Ready h.listener) {op : Operation α}
    (hop : op.target? = some v) :
    (op.tells ws = true → (ws.perform c op).2.isOk = true)
      ∧ (op.edit? (ws.variableAt v) = none → (ws.perform c op).1 = ws)
      ∧ ∀ e, op.edit? (ws.variableAt v) = some e → Followed v e ws (ws.perform c op).1 := by
  rw [Operation.tells_eq hop]
  rcases perform_cases hop ws with ⟨hedit, answer, hperform⟩
      | ⟨store, hedit, ws₁, answer, hsame, hperform⟩
      | ⟨store, action, change, hedit, answer, hperform⟩
  · rw [hedit, hperform c]
    exact ⟨fun htells => (by cases htells), fun _ => rfl, fun e he => (by cases he)⟩
  · rw [hedit, hperform c]
    refine ⟨fun htells => (by cases htells), fun h => (by cases h), fun e he => ?_⟩
    obtain rfl := Option.some.inj he
    have hstored := sameListeners_updateVariable ws v (·.write store)
    refine ⟨hsame.sameListeners.size.trans hstored.size, fun w => ?_, fun k => ?_⟩
    · rw [hsame.variableAt]
      exact variableAt_updateVariable ws v w _
    · rw [(hstored.trans hsame.sameListeners).listener?]
      simp only [Listener.follow, Edit.change?, Option.map_none, Option.elim_none, ite_self]
      exact Option.map_id'.symm
  · have hhandles : ((ws.write v store).variableAt v).handles = (ws.variableAt v).handles :=
      handles_variableAt_write ws v v store
    have hstored : SameListeners ws (ws.write v store) :=
      sameListeners_updateVariable ws v (·.write store)
    have hready' : ∀ h ∈ ((ws.write v store).variableAt v).handles,
        (ws.write v store).Ready h.listener :=
      fun h hh => hstored.sameStanding.ready (hready h (hhandles ▸ hh))
    obtain ⟨told, htell, htold⟩ := told_of_ready hc hready' action change
    have hdone : ws.perform c op = (told, .ok answer) := by
      rw [hperform c, answered, htell]
      rfl
    rw [hedit, hdone]
    refine ⟨fun _ => rfl, fun h => (by cases h), fun e he => ?_⟩
    obtain rfl := Option.some.inj he
    refine ⟨(congrArg List.length htold.vars).trans hstored.size, fun w => ?_, fun k => ?_⟩
    · rw [Workspace.variableAt, htold.vars]
      exact variableAt_updateVariable ws v w _
    · rw [htold.listener, hstored.listener?, hhandles]
      rfl

theorem Followed.sameStanding {e : Edit α} (h : Followed v e ws ws₁) :
    SameStanding ws ws₁ := by
  intro k
  rw [h.listener, Option.map_map]
  refine Option.map_congr fun a _ => ?_
  rw [Function.comp_apply]
  split
  · exact Listener.standing_follow v e.change? a
  · rfl

theorem Followed.handles {e : Edit α} (h : Followed v e ws ws₁) (w : VariableRef) :
    (ws₁.variableAt w).handles = (ws.variableAt w).handles := by
  rw [h.variableAt]
  split
  · exact Variable.handles_write _ e.store
  · rfl

end Workspace

end Milp
