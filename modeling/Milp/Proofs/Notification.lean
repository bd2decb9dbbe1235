/-
Milp.Proofs.Notification — what telling the listeners of a variable leaves.

A solver that hears of a change of a variable changes the one column it has
for it, if it has one (`Solver.hear`). Hearing twice is hearing once, so it
does not matter how many handles lead to a solver (`Generated.hear_hear`).

When no listener refuses and none is busy, telling the handles of a
variable changes exactly the listeners that are alive behind them, each by
hearing of the change, and then only handles of dead listeners go
(`tellListeners_ok`). Observers do not act on the workspace
(`QuietObservers`).
-/
import Milp.Proofs.Solving

namespace Milp

variable {α μ : Type}

/-! ## Hearing of a change -/

theorem Column.apply_apply (x : Column α) (change : Change α) :
    (x.apply change).apply change = x.apply change := by
  cases change with
  | bound side value => cases side <;> rfl
  | bounds lower upper => rfl
  | kind kind => rfl
  | name name => rfl

/-- The problem of a solver that has heard of a change. -/
def Generated.hear (v : VariableRef) (change : Change α) (g : Generated α) : Generated α :=
  match g.offset? v with
  | some offset => g.updateColumn offset change
  | none => g

@[simp] theorem Generated.vars_hear (v : VariableRef) (change : Change α) (g : Generated α) :
    (g.hear v change).vars = g.vars := by
  unfold hear
  split <;> rfl

@[simp] theorem Generated.offset?_hear (v w : VariableRef) (change : Change α)
    (g : Generated α) : (g.hear v change).offset? w = g.offset? w := by
  rw [offset?, vars_hear, offset?]

theorem Generated.hear_of_offset? {v : VariableRef} {g : Generated α} {i : Nat}
    (h : g.offset? v = some i) (change : Change α) : g.hear v change = g.updateColumn i change := by
  rw [hear, h]

theorem Generated.hear_of_offset?_eq_none {v : VariableRef} {g : Generated α}
    (h : g.offset? v = none) (change : Change α) : g.hear v change = g := by
  rw [hear, h]

theorem Generated.hear_of_not_mem {v : VariableRef} {g : Generated α} (hv : v ∉ g.vars)
    (change : Change α) : g.hear v change = g :=
  hear_of_offset?_eq_none (List.idxOf?_eq_none_iff.mpr hv) change

/-- One column holds one variable. -/
theorem Generated.offset?_ne {v w : VariableRef} (hne : v ≠ w) {g : Generated α} {i j : Nat}
    (hv : g.offset? v = some i) (hw : g.offset? w = some j) : i ≠ j := by
  rintro rfl
  obtain ⟨_, hv, -⟩ := List.idxOf?_eq_some_iff.mp hv
  obtain ⟨_, hw, -⟩ := List.idxOf?_eq_some_iff.mp hw
  exact hne (hv.symm.trans hw)

theorem Generated.hear_hear (v : VariableRef) (change : Change α) (g : Generated α) :
    (g.hear v change).hear v change = g.hear v change := by
  cases hv : g.offset? v with
  | none => rw [hear_of_offset?_eq_none hv, hear_of_offset?_eq_none hv]
  | some i =>
    have htwice : (g.updateColumn i change).updateColumn i change = g.updateColumn i change := by
      have hcolumn : (fun x : Column α => x.apply change) ∘ (fun x : Column α => x.apply change)
          = fun x : Column α => x.apply change := funext fun x => Column.apply_apply x change
      simp only [updateColumn, List.modify_modify_eq, hcolumn]
    rw [hear_of_offset? ((offset?_hear v v change g).trans hv), hear_of_offset? hv, htwice]

/-- Hearing of a change brings the problem of a model up to date with it. -/
theorem Generated.hear_compiled [Scalar α] {f f' : VariableRef → Variable α} {config : Config α}
    {m : Model α} {v : VariableRef} {change : Change α}
    (hothers : ∀ w ∈ m.vars, w ≠ v → columnOf (f' w) = columnOf (f w))
    (hchanged : v ∈ m.vars → columnOf (f' v) = (columnOf (f v)).apply change) :
    (compiled f config m).hear v change = compiled f' config m := by
  by_cases hv : v ∈ m.vars
  · have hcolumns : (m.vars.map fun w => columnOf (f w)).modify (m.vars.idxOf v)
        (fun x : Column α => x.apply change) = m.vars.map fun w => columnOf (f' w) := by
      rw [modify_idxOf_map m.nodup_vars hv]
      refine List.map_congr_left fun w hw => ?_
      by_cases hwv : w = v
      · subst hwv
        rw [if_pos rfl, hchanged hw]
      · rw [if_neg hwv, hothers w hw hwv]
    rw [hear, offset?_compiled_of_mem hv]
    simp only [updateColumn, compiled, hcolumns]
  · rw [hear_of_not_mem hv]
    refine compiled_congr fun w hw => (hothers w hw ?_).symm
    rintro rfl
    exact hv hw

/-- A solver that has heard of a change. -/
def Solver.hear (v : VariableRef) (change : Change α) (s : Solver α) : Solver α :=
  { s with generated := s.generated.map (·.hear v change) }

theorem Solver.hear_of_offset? {s : Solver α} {v : VariableRef} {i : Nat}
    (h : s.offset? v = some i) (change : Change α) : s.hear v change =
      { s with generated := s.generated.map (·.updateColumn i change) } := by
  obtain ⟨g, hg, hi⟩ := Option.bind_eq_some_iff.mp h
  rw [hear, hg, Option.map_some, Option.map_some, Generated.hear_of_offset? hi]

theorem Solver.hear_of_offset?_eq_none {s : Solver α} {v : VariableRef} (h : s.offset? v = none)
    (change : Change α) : s.hear v change = s := by
  cases hg : s.generated with
  | none =>
    rw [hear, hg, Option.map_none, ← hg]
  | some g =>
    rw [offset?, hg, Option.bind_some] at h
    rw [hear, hg, Option.map_some, Generated.hear_of_offset?_eq_none h, ← hg]

/-- A listener that has heard of a change; an observer keeps nothing. -/
def Listener.hear (v : VariableRef) (change : Change α) (a : Listener α) : Listener α :=
  a.mapSolver (Solver.hear v change)

namespace Listener

theorem mapSolver_eq_self {f : Solver α → Solver α} {a : Listener α}
    (h : ∀ s, a.solver? = some s → f s = s) : a.mapSolver f = a := by
  obtain ⟨role, owned, uses⟩ := a
  cases role with
  | solver s => exact congrArg (fun t => Listener.mk (.solver t) owned uses) (h s rfl)
  | observer id => rfl

theorem mapSolver_congr {f g : Solver α → Solver α} {a : Listener α}
    (h : ∀ s, a.solver? = some s → f s = g s) : a.mapSolver f = a.mapSolver g := by
  obtain ⟨role, owned, uses⟩ := a
  cases role with
  | solver s => exact congrArg (fun t => Listener.mk (.solver t) owned uses) (h s rfl)
  | observer id => rfl

@[simp] theorem isAlive_hear (v : VariableRef) (change : Change α) (a : Listener α) :
    (a.hear v change).isAlive = a.isAlive := isAlive_mapSolver _ a

@[simp] theorem id_hear (v : VariableRef) (change : Change α) (a : Listener α) :
    (a.hear v change).id = a.id := id_mapSolver (by intro s; rfl) a

theorem hear_of_observer {a : Listener α} {id : SolverId} (h : a.role = .observer id)
    (v : VariableRef) (change : Change α) : a.hear v change = a := by
  refine mapSolver_eq_self fun s hs => ?_
  rw [solver?, h] at hs
  cases hs

theorem solver?_hear (v : VariableRef) (change : Change α) (a : Listener α) :
    (a.hear v change).solver? = a.solver?.map (Solver.hear v change) := solver?_mapSolver _ a

theorem hear_hear (v : VariableRef) (change : Change α) (a : Listener α) :
    (a.hear v change).hear v change = a.hear v change := by
  have htwice : ∀ s : Solver α, (s.hear v change).hear v change = s.hear v change := by
    intro s
    have hcomp : Generated.hear v change ∘ Generated.hear v change = Generated.hear v change :=
      funext fun g => g.hear_hear v change
    simp only [Solver.hear, Option.map_map, hcomp]
  rw [hear, hear, mapSolver_mapSolver]
  exact mapSolver_congr fun s _ => htwice s

end Listener

/-- Observers remember what they hear and do nothing about it. -/
def Conduct.QuietObservers (c : Conduct α μ) : Prop :=
  ∀ l v change (ws : Workspace α μ), ws.SameState (c.receive l v change ws).1

namespace Workspace

/-! ## One handle after the other -/

/-- Of the listeners, those alive behind the handles heard of the change,
and nothing else happened but events. -/
structure Told (v : VariableRef) (change : Change α) (hs : List Handle)
    (ws ws' : Workspace α μ) : Prop where
  vars : ws'.vars = ws.vars
  nextSolver : ws'.nextSolver = ws.nextSolver
  listener : ∀ k, ws'.listener? k = (ws.listener? k).map fun a =>
    if a.isAlive = true ∧ k ∈ hs.map Handle.listener then a.hear v change else a

variable {v : VariableRef} {change : Change α} {ws ws' : Workspace α μ}

theorem Told.of_sameState (h : SameState ws ws') : Told v change [] ws ws' := by
  obtain ⟨events, memory, rfl⟩ := h
  refine ⟨rfl, rfl, fun k => ?_⟩
  simp only [List.map_nil, List.not_mem_nil, and_false, if_false, Option.map_id']
  rfl

theorem Told.append {ws'' : Workspace α μ} {hs hs' : List Handle} (h : Told v change hs ws ws')
    (h' : Told v change hs' ws' ws'') : Told v change (hs ++ hs') ws ws'' := by
  refine ⟨h'.vars.trans h.vars, h'.nextSolver.trans h.nextSolver, fun k => ?_⟩
  rw [h'.listener, h.listener, Option.map_map]
  refine Option.map_congr fun a _ => ?_
  simp only [Function.comp_apply, List.map_append, List.mem_append]
  by_cases ha : a.isAlive = true
  · by_cases hk : k ∈ hs.map Handle.listener
    · by_cases hk' : k ∈ hs'.map Handle.listener
      · simp only [ha, hk, hk', and_self, true_or, if_true, Listener.isAlive_hear,
          Listener.hear_hear]
      · simp only [ha, hk, hk', and_self, true_or, if_true, and_false, if_false]
    · simp only [ha, hk, and_false, if_false, false_or]
  · simp [ha]

theorem Told.single {h : Handle} {a : Listener α} (ha : ws.listener? h.listener = some a)
    (halive : a.isAlive = true) (hvars : ws'.vars = ws.vars)
    (hnext : ws'.nextSolver = ws.nextSolver)
    (hlistener : ∀ k, ws'.listener? k = if k = h.listener
      then (ws.listener? k).map (Listener.hear v change) else ws.listener? k) :
    Told v change [h] ws ws' := by
  refine ⟨hvars, hnext, fun k => ?_⟩
  rw [hlistener]
  by_cases hk : k = h.listener
  · subst hk
    simp [ha, halive]
  · simp [hk]

theorem Told.of_observer {h : Handle} {a : Listener α} {id : SolverId}
    (ha : ws.listener? h.listener = some a) (halive : a.isAlive = true)
    (hrole : a.role = .observer id) (hsame : SameState ws ws') : Told v change [h] ws ws' := by
  refine .single ha halive ?_ hsame.sameListeners.nextSolver fun k => ?_
  · obtain ⟨_, _, rfl⟩ := hsame
    rfl
  · rw [hsame.sameListeners.listener?]
    by_cases hk : k = h.listener
    · rw [if_pos hk, hk, ha, Option.map_some, Listener.hear_of_observer hrole]
    · rw [if_neg hk]

theorem isAlive_of_listener? {h : Handle} {a : Listener α}
    (ha : ws.listener? h.listener = some a) : ws.isAlive h = a.isAlive := by
  rw [isAlive, ha, Option.any_some]

theorem Told.of_dead {h : Handle} (hdead : ws.isAlive h = false) : Told v change [h] ws ws := by
  refine ⟨rfl, rfl, fun k => ?_⟩
  cases ha : ws.listener? k with
  | none => rfl
  | some a =>
    by_cases hk : k = h.listener
    · have hnot : a.isAlive = false := by
        rw [isAlive, ← hk, ha, Option.any_some] at hdead
        exact hdead
      simp [hnot]
    · simp [hk]

theorem Told.isAlive {hs : List Handle} (h : Told v change hs ws ws') (k : Handle) :
    ws'.isAlive k = ws.isAlive k := by
  rw [Workspace.isAlive, Workspace.isAlive, h.listener]
  cases ws.listener? k.listener with
  | none => rfl
  | some a =>
    rw [Option.map_some, Option.any_some, Option.any_some]
    split
    · exact Listener.isAlive_hear v change a
    · rfl

/-- An observer that is done is as it was before it was told. -/
theorem sameState_release {l : ListenerRef} (h : (ws.hold l).SameState ws')
    (halive : (ws.listener? l).any Listener.isAlive = true) : ws.SameState (ws'.release l) := by
  obtain ⟨events, memory, rfl⟩ := h
  have hlisteners : (ws.listeners.modify l.index fun a => { a with uses := a.uses + 1 }).modify
      l.index (fun a => { a with uses := a.uses - 1 }) = ws.listeners := by
    rw [List.modify_modify_eq]
    exact List.modify_id _ _
  have hreleased : ({ ws.hold l with events, memory }.updateListener l
      fun a => { a with uses := a.uses - 1 }) = { ws with events, memory } := by
    simp only [hold, updateListener, hlisteners]
  have halive' : (({ ws with events, memory } : Workspace α μ).listener? l).any Listener.isAlive
      = true := halive
  rw [release, hreleased, retireIfDead, if_pos halive']
  exact ⟨events, memory, rfl⟩

variable [Scalar α]

/-- A solver that is told hears of the change. -/
theorem listener?_tellSolver {l : ListenerRef} {s : Solver α} (hs : ws.solver? l = some s)
    (v : VariableRef) (change : Change α) (k : ListenerRef) :
    (ws.tellSolver l v change).listener? k =
      if k = l then (ws.listener? k).map (Listener.hear v change) else ws.listener? k := by
  have honly : ∀ a s', ws.listener? l = some a → a.solver? = some s' → s' = s := by
    intro a s' ha hs'
    rw [solver?, ha, Option.bind_some, hs'] at hs
    exact Option.some.inj hs
  rw [tellSolver, hs]
  cases hi : s.offset? v with
  | some i =>
    simp only [hi]
    rw [listener?_updateSolver]
    by_cases hk : k = l
    · subst hk
      rw [if_pos rfl, if_pos rfl]
      refine Option.map_congr fun a ha => Listener.mapSolver_congr fun s' hs' => ?_
      rw [honly a s' ha hs', Solver.hear_of_offset? hi]
    · rw [if_neg hk, if_neg hk]
  | none =>
    simp only [hi]
    rw [listener?_emit]
    by_cases hk : k = l
    · subst hk
      rw [if_pos rfl]
      cases ha : ws.listener? k with
      | none => rfl
      | some a =>
        have hsame : a.hear v change = a := Listener.mapSolver_eq_self fun s' hs' => by
          rw [honly a s' ha hs', Solver.hear_of_offset?_eq_none hi]
        rw [Option.map_some, hsame]
    · rw [if_neg hk]

theorem vars_tellSolver (ws : Workspace α μ) (l : ListenerRef) (v : VariableRef)
    (change : Change α) : (ws.tellSolver l v change).vars = ws.vars := by
  unfold tellSolver
  split
  · rfl
  · split <;> rfl

theorem nextSolver_tellSolver (ws : Workspace α μ) (l : ListenerRef) (v : VariableRef)
    (change : Change α) : (ws.tellSolver l v change).nextSolver = ws.nextSolver := by
  unfold tellSolver
  split
  · rfl
  · split <;> rfl

/-- Telling one handle. A handle that is not told leads to a dead listener. -/
theorem told_notify {c : Conduct α μ} (hquiet : c.QuietObservers) {h : Handle} {told : Bool}
    (hok : notify c h v change ws = (ws', .ok told)) :
    Told v change [h] ws ws' ∧ (told = false → ws.isAlive h = false) := by
  unfold notify at hok
  cases ha : ws.listener? h.listener with
  | none =>
    rw [ha] at hok
    obtain ⟨rfl, -⟩ := Prod.mk.inj hok
    have hdead : ws.isAlive h = false := by
      rw [isAlive, ha]
      rfl
    exact ⟨.of_dead hdead, fun _ => hdead⟩
  | some a =>
    simp only [ha] at hok
    cases halive : a.isAlive with
    | false =>
      rw [halive] at hok
      obtain ⟨rfl, -⟩ := Prod.mk.inj hok
      have hdead := (isAlive_of_listener? ha).trans halive
      exact ⟨.of_dead hdead, fun _ => hdead⟩
    | true =>
      rw [halive, Bool.not_true, if_neg Bool.false_ne_true] at hok
      split at hok
      · cases (Prod.mk.inj hok).2
      · cases hrole : a.role with
        | solver s =>
          simp only [hrole] at hok
          obtain ⟨rfl, htold⟩ := Prod.mk.inj hok
          have hs : ws.solver? h.listener = some s := by
            rw [solver?, ha, Option.bind_some, Listener.solver?, hrole]
          refine ⟨.single ha halive (vars_tellSolver ..) (nextSolver_tellSolver ..)
            (listener?_tellSolver hs v change), fun hfalse => ?_⟩
          rw [hfalse] at htold
          cases htold
        | observer id =>
          simp only [hrole] at hok
          obtain ⟨rfl, htold⟩ := Prod.mk.inj hok
          have hsame := sameState_release (hquiet h.listener v change (ws.hold h.listener))
            (by rw [ha]; exact halive)
          refine ⟨.of_observer ha halive hrole hsame, fun hfalse => ?_⟩
          rw [hfalse] at htold
          cases hanswer : (c.receive h.listener v change (ws.hold h.listener)).2 with
          | error e =>
            rw [hanswer] at htold
            cases htold
          | ok u =>
            rw [hanswer] at htold
            cases htold

/-- Telling the handles in order. The identities that are answered belong to
handles of dead listeners. -/
theorem told_deliver {c : Conduct α μ} (hquiet : c.QuietObservers) {action : Action}
    {hs : List Handle} {dead : List SolverId}
    (hok : deliver c action v change hs ws = (ws', .ok dead)) :
    Told v change hs ws ws' ∧ ∀ id ∈ dead, ∃ h ∈ hs, h.id = id ∧ ws.isAlive h = false := by
  induction hs generalizing ws ws' dead with
  | nil =>
    obtain ⟨rfl, hdead⟩ := Prod.mk.inj hok
    obtain rfl := Except.ok.inj hdead
    exact ⟨.of_sameState (.refl ws), fun id hid => by cases hid⟩
  | cons h rest ih =>
    unfold deliver at hok
    split at hok
    · cases (Prod.mk.inj hok).2
    · next ws₁ hnotify =>
      obtain ⟨hfirst, -⟩ := told_notify hquiet hnotify
      obtain ⟨hrest, hdead⟩ := ih hok
      have hnoted : Told v change [h] ws
          (ws₁.emit (.notified action (ws₁.nameOf v) h.id)) :=
        hfirst.append (.of_sameState (sameState_emit ws₁ _))
      refine ⟨hnoted.append hrest, fun id hid => ?_⟩
      obtain ⟨k, hk, hkid, hkdead⟩ := hdead id hid
      exact ⟨k, List.mem_cons_of_mem h hk, hkid, (hnoted.isAlive k).symm.trans hkdead⟩
    · next ws₁ hnotify =>
      obtain ⟨hfirst, hfirstdead⟩ := told_notify hquiet hnotify
      split at hok
      · cases (Prod.mk.inj hok).2
      · next ws₂ dead₂ hdeliver =>
        obtain ⟨hrest, hdead⟩ := ih hdeliver
        obtain ⟨rfl, hids⟩ := Prod.mk.inj hok
        obtain rfl := Except.ok.inj hids
        refine ⟨hfirst.append hrest, fun id hid => ?_⟩
        rcases List.mem_cons.mp hid with rfl | hid
        · exact ⟨h, List.mem_cons_self, rfl, hfirstdead rfl⟩
        · obtain ⟨k, hk, hkid, hkdead⟩ := hdead id hid
          exact ⟨k, List.mem_cons_of_mem h hk, hkid, (hfirst.isAlive k).symm.trans hkdead⟩

/-! ## All handles of a variable -/

theorem variableAt_prune (ws : Workspace α μ) (action : Action) (v w : VariableRef)
    (dead : List SolverId) : (ws.prune action v dead).variableAt w =
      if w = v then (ws.variableAt w).detach dead else ws.variableAt w := by
  unfold prune
  split
  · next hempty =>
    rw [List.isEmpty_iff.mp hempty, Variable.detach_nil, ite_self]
  · exact variableAt_updateVariable_detach _ v w dead

theorem sameListeners_prune (ws : Workspace α μ) (action : Action) (v : VariableRef)
    (dead : List SolverId) : SameListeners ws (ws.prune action v dead) := by
  unfold prune
  split
  · exact .refl ws
  · exact (sameListeners_emit ws _).trans (sameListeners_updateVariable _ v _)

/-- Where nobody refuses and nobody is busy, telling the listeners of a
variable reaches those that are alive, and drops handles of dead ones. -/
theorem tellListeners_ok {c : Conduct α μ} (hquiet : c.QuietObservers) {action : Action}
    (hok : tellListeners c action v change ws = (ws', .ok ())) : ∃ told dead,
      Told v change (ws.variableAt v).handles ws told
      ∧ (∀ id ∈ dead, ∃ h ∈ (ws.variableAt v).handles, h.id = id ∧ ws.isAlive h = false)
      ∧ ws' = told.prune action v dead := by
  unfold tellListeners at hok
  split at hok
  · cases (Prod.mk.inj hok).2
  · next told dead hdeliver =>
    obtain ⟨htold, hdead⟩ := told_deliver hquiet hdeliver
    exact ⟨told, dead, htold, hdead, (Prod.mk.inj hok).1.symm⟩

end Workspace

end Milp
