/-
Milp.Proofs.Attachment — who is attached to what.

No variable has two handles under one identity, whatever is done to a
workspace (`preserves_distinctHandles`): attaching looks for the identity
first, and everything else takes handles away.

Solvers attach themselves and need no help with it. Where nobody attaches or
detaches a solver by hand (`handsOff`), a solver is attached to exactly the
variables it has columns for, while it is alive (`Matched`). Four places keep
this up: a generating solver leaves its old variables and joins the new ones,
one that dies leaves its variables, a handle under a solver's identity leads to
this solver (`Admits`), so pruning takes it if the solver is dead only, and a
fresh identity is attached nowhere. `Onward` is what makes a handle that was
found dead while listeners were told still dead when it is pruned.

`attachment_matches` says this of every state that is reached, with the order
in which generating and dying leave the handles of a variable.
-/
import Milp.Proofs.Guards

namespace Milp

variable {α μ : Type}

/-! ## One handle for each identity -/

/-- No two handles of the variable have one identity. -/
def Variable.DistinctHandles (x : Variable α) : Prop := (x.handles.map Handle.id).Nodup

namespace Variable

theorem isAttached_iff {x : Variable α} {id : SolverId} :
    x.isAttached id = true ↔ ∃ h ∈ x.handles, h.id = id := by
  simp [isAttached, List.any_eq_true]

theorem DistinctHandles.attach {x : Variable α} (hx : x.DistinctHandles) (h : Handle) :
    (x.attach h).DistinctHandles := by
  unfold Variable.attach
  split
  · exact hx
  · next hnew =>
    have hfresh : h.id ∉ x.handles.map Handle.id := by
      intro hmem
      obtain ⟨k, hk, hid⟩ := List.mem_map.mp hmem
      exact hnew (isAttached_iff.mpr ⟨k, hk, hid⟩)
    have happend : ((x.handles ++ [h]).map Handle.id).Nodup := by
      rw [List.map_append, List.nodup_append]
      refine ⟨hx, List.nodup_singleton _, fun id hid id' hid' => ?_⟩
      obtain rfl := List.mem_singleton.mp hid'
      rintro rfl
      exact hfresh hid
    exact happend

theorem DistinctHandles.detach {x : Variable α} (hx : x.DistinctHandles) (ids : List SolverId) :
    (x.detach ids).DistinctHandles :=
  List.Nodup.sublist (List.Sublist.map Handle.id (List.filter_sublist ..)) hx

end Variable

variable [Scalar α]

/-- No variable has two handles under one identity. -/
def Workspace.DistinctHandles (ws : Workspace α μ) : Prop :=
  ∀ v, (ws.variableAt v).DistinctHandles

namespace Workspace

variable {ws ws' : Workspace α μ} {l : ListenerRef}

theorem DistinctHandles.of_sameHandles (h : ws.DistinctHandles)
    (hsame : ∀ v, (ws'.variableAt v).handles = (ws.variableAt v).handles) :
    ws'.DistinctHandles := by
  intro v
  rw [Variable.DistinctHandles, hsame]
  exact h v

theorem DistinctHandles.detachAll (h : ws.DistinctHandles) (vs : List VariableRef)
    (id : SolverId) : (ws.detachAll vs id).DistinctHandles := by
  intro v
  rw [variableAt_detachAll]
  split
  · exact (h v).detach [id]
  · exact h v

theorem DistinctHandles.retireIfDead (h : ws.DistinctHandles) (l : ListenerRef) :
    (ws.retireIfDead l).DistinctHandles := by
  unfold Workspace.retireIfDead retire
  split
  · exact h
  · split
    · exact h.detachAll _ _
    · exact h

theorem DistinctHandles.generate (h : ws.DistinctHandles) (l : ListenerRef) :
    (ws.generate l).1.DistinctHandles := by
  cases hs : ws.solver? l with
  | none =>
    rw [Workspace.generate, hs]
    exact h
  | some s =>
    intro v
    rw [variableAt_generate hs]
    split
    · exact (h.detachAll s.vars s.id v).attach ⟨s.id, l⟩
    · exact h.detachAll s.vars s.id v

end Workspace

open Workspace

/-- Nothing that is done to a workspace attaches an identity twice. -/
theorem preserves_distinctHandles :
    Guard.Preserves (fun _ _ => True) (DistinctHandles (α := α) (μ := μ)) fun _ _ => True where
  refl := fun _ => trivial
  trans := fun _ _ => trivial
  same := fun hsame h => ⟨h.of_sameHandles hsame.handles, trivial⟩
  attach := by
    intro ws v k _ h
    refine ⟨fun w => ?_, trivial⟩
    rw [variableAt_attach]
    split
    · exact (h w).attach k
    · exact h w
  detach := by
    intro ws v id _ h
    refine ⟨fun w => ?_, trivial⟩
    rw [variableAt_detach]
    split
    · exact (h w).detach [id]
    · exact h w
  prune := by
    intro before ws action v dead _ _ _ h
    refine ⟨fun w => ?_, trivial⟩
    rw [variableAt_prune]
    split
    · exact (h w).detach dead
    · exact h w
  leave := by
    intro ws l f _ _ h
    have hkept : (ws.updateListener l f).DistinctHandles := h
    exact ⟨hkept.retireIfDead l, trivial⟩
  hold := fun _ h => ⟨h, trivial⟩
  generate := fun _ h => ⟨h.generate _, trivial⟩
  prepare := by
    intro ws l _ h
    have hcleared : (ws.clear l).DistinctHandles := h
    rcases prepare_cases l ws with hprepare | hprepare
    · rw [hprepare]
      exact ⟨hcleared, trivial⟩
    · rw [hprepare]
      exact ⟨hcleared.generate l, trivial⟩
  newVariable := by
    intro ws spec h
    refine ⟨fun w => ?_, trivial⟩
    rw [variableAt_newVariable]
    split
    · exact List.nodup_nil
    · exact h w
  newSolver := fun _ h => ⟨h, trivial⟩
  newObserver := fun h => ⟨h, trivial⟩

/-! ## Solvers attached to their variables -/

/-- Nobody attaches or detaches a solver by hand: handles are attached under
identities that have been drawn, of which none is a solver's. Who generates,
solves or holds a listener has one that is alive, and a model is over variables
that are there. -/
def handsOff : Guard α μ := fun t ws =>
  match t with
  | .move (.operate (.attach _ k)) =>
    k.id < ws.nextSolver ∧ ∀ l s, ws.solver? l = some s → s.id ≠ k.id
  | .move (.operate (.detach _ id)) => ∀ l s, ws.solver? l = some s → s.id ≠ id
  | .move (.operate (.generate l)) | .move (.operate (.solve l)) | .hold l =>
    (ws.listener? l).any Listener.isAlive = true
  | .move (.newSolver model _ _) => ∀ v ∈ model.vars, v.index < ws.vars.length
  | _ => True

namespace Workspace

/-- The identity of a handle has been drawn, and if it is that of a solver the
handle leads to this solver. -/
structure Admits (ws : Workspace α μ) (k : Handle) : Prop where
  drawn : k.id < ws.nextSolver
  own : ∀ {l s}, ws.solver? l = some s → s.id = k.id → k.listener = l

/-- The solvers that are alive are attached to the variables they have
columns for, and to no others; those that are dead to none. -/
structure Matched (ws : Workspace α μ) : Prop where
  ids : ws.DistinctIds
  inRange : ∀ {l s}, ws.solver? l = some s →
    ∀ v, v ∈ s.vars ∨ v ∈ s.model.vars → v.index < ws.vars.length
  handle : ∀ {v k}, k ∈ (ws.variableAt v).handles → ws.Admits k
  attached : ∀ {l s}, ws.solver? l = some s → ∀ v, (ws.variableAt v).isAttached s.id = true
    ↔ (ws.listener? l).any Listener.isAlive = true ∧ v ∈ s.vars

/-- Listeners stay who they are, and those that are dead stay dead. Solvers under
identities that had been drawn are not new. -/
structure Onward (ws ws' : Workspace α μ) : Prop where
  nextSolver : ws.nextSolver ≤ ws'.nextSolver
  id? : ∀ {l id}, ws.id? l = some id → ws'.id? l = some id
  dead : ∀ {l id}, ws.id? l = some id → (ws.listener? l).any Listener.isAlive = false →
    (ws'.listener? l).any Listener.isAlive = false
  old : ∀ {l s'}, ws'.solver? l = some s' → s'.id < ws.nextSolver →
    ∃ s, ws.solver? l = some s ∧ s.id = s'.id

variable {ws ws' : Workspace α μ} {l : ListenerRef} {v : VariableRef} {s : Solver α}

/-- Every solver was there before, under its identity. -/
def OldSolvers (ws ws' : Workspace α μ) : Prop :=
  ∀ ⦃l s'⦄, ws'.solver? l = some s' → ∃ s, ws.solver? l = some s ∧ s.id = s'.id

omit [Scalar α] in
theorem OldSolvers.of_solver? (h : ∀ l, ws'.solver? l = ws.solver? l) : ws.OldSolvers ws' :=
  fun l s hs => ⟨s, (h l).symm.trans hs, rfl⟩

theorem SameAttachment.oldSolvers (h : ws.SameAttachment ws') : ws.OldSolvers ws' := by
  intro l s' hs
  obtain ⟨s, hs₀, hid, -, -⟩ := h.solver hs
  exact ⟨s, hs₀, hid.symm⟩

theorem oldSolvers_generate (ws : Workspace α μ) (l : ListenerRef) :
    ws.OldSolvers (ws.generate l).1 := by
  intro k s' hs
  rw [solver?_generate_map] at hs
  split at hs
  · obtain ⟨s, hs₀, rfl⟩ := Option.map_eq_some_iff.mp hs
    exact ⟨s, hs₀, rfl⟩
  · exact ⟨s', hs, rfl⟩

omit [Scalar α] in
theorem Onward.refl (ws : Workspace α μ) : ws.Onward ws :=
  ⟨Nat.le_refl _, id, fun _ hdead => hdead, fun hs _ => ⟨_, hs, rfl⟩⟩

omit [Scalar α] in
theorem Onward.trans {ws₁ ws₂ ws₃ : Workspace α μ} (h : ws₁.Onward ws₂) (h' : ws₂.Onward ws₃) :
    ws₁.Onward ws₃ where
  nextSolver := Nat.le_trans h.nextSolver h'.nextSolver
  id? := fun hid => h'.id? (h.id? hid)
  dead := fun hid hdead => h'.dead (h.id? hid) (h.dead hid hdead)
  old := fun hs hlt => by
    obtain ⟨s₂, hs₂, hid₂⟩ := h'.old hs (Nat.lt_of_lt_of_le hlt h.nextSolver)
    obtain ⟨s₁, hs₁, hid₁⟩ := h.old hs₂ (hid₂ ▸ hlt)
    exact ⟨s₁, hs₁, hid₁.trans hid₂⟩

omit [Scalar α] in
theorem Onward.of_same (hids : ws.SameIds ws')
    (halive : ∀ l, (ws'.listener? l).any Listener.isAlive = true →
      (ws.listener? l).any Listener.isAlive = true)
    (hold : ws.OldSolvers ws') : ws.Onward ws' := by
  refine ⟨Nat.le_of_eq hids.nextSolver.symm, fun hid => (hids.id? _).trans hid,
    fun {l id} _ hdead => ?_, fun hs _ => hold hs⟩
  rw [← Bool.not_eq_true] at hdead ⊢
  exact fun hlive => hdead (halive l hlive)

omit [Scalar α] in
theorem SameListeners.onward (h : ws.SameListeners ws') : ws.Onward ws' := by
  refine .of_same h.sameIds (fun l hlive => ?_) (.of_solver? h.solver?)
  rw [h.listener?] at hlive
  exact hlive

theorem SameAttachment.onward (h : ws.SameAttachment ws') : ws.Onward ws' :=
  .of_same h.sameIds (fun l hlive => (h.alive l).symm.trans hlive) h.oldSolvers

omit [Scalar α] in
/-- A handle is admitted as long as no identity is drawn. -/
theorem Admits.of_oldSolvers {k : Handle} (h : ws.Admits k)
    (hnext : ws'.nextSolver = ws.nextSolver) (hold : ws.OldSolvers ws') : ws'.Admits k where
  drawn := hnext ▸ h.drawn
  own := fun hs hid => by
    obtain ⟨s, hs₀, hsame⟩ := hold hs
    exact h.own hs₀ (hsame.trans hid)

theorem Matched.of_sameAttachment (h : ws.Matched) (hsame : ws.SameAttachment ws') :
    ws'.Matched where
  ids := h.ids.of_sameIds hsame.sameIds
  inRange := by
    intro l s' hs' v hv
    obtain ⟨s, hs, -, hmodel, hvars⟩ := hsame.solver hs'
    rw [hsame.size]
    rw [hmodel, hvars] at hv
    exact h.inRange hs v hv
  handle := by
    intro v k hk
    rw [hsame.handles] at hk
    exact (h.handle hk).of_oldSolvers hsame.nextSolver hsame.oldSolvers
  attached := by
    intro l s' hs' v
    obtain ⟨s, hs, hid, -, hvars⟩ := hsame.solver hs'
    rw [Variable.isAttached, hsame.handles, hid, hsame.alive, hvars]
    exact h.attached hs v

/-- Handles come and go, but none of a solver. -/
theorem Matched.of_sameListeners (h : ws.Matched) (hsame : ws.SameListeners ws')
    (hhandle : ∀ v, ∀ k ∈ (ws'.variableAt v).handles, ws.Admits k)
    (hattached : ∀ l s, ws.solver? l = some s → ∀ v,
      (ws'.variableAt v).isAttached s.id = (ws.variableAt v).isAttached s.id) : ws'.Matched where
  ids := h.ids.of_sameIds hsame.sameIds
  inRange := by
    intro l s hs v hv
    rw [hsame.solver?] at hs
    rw [hsame.size]
    exact h.inRange hs v hv
  handle := fun {v k} hk =>
    (hhandle v k hk).of_oldSolvers hsame.nextSolver (.of_solver? hsame.solver?)
  attached := by
    intro l s hs v
    rw [hsame.solver?] at hs
    rw [hattached l s hs, hsame.listener?]
    exact h.attached hs v

theorem Matched.attach (h : ws.Matched) {k : Handle} (hdrawn : k.id < ws.nextSolver)
    (hforeign : ∀ l s, ws.solver? l = some s → s.id ≠ k.id) : (ws.attach v k).Matched := by
  refine h.of_sameListeners (sameListeners_attach ws v k) (fun w k' hk' => ?_)
    (fun l s hs w => ?_)
  · rw [variableAt_attach] at hk'
    split at hk'
    · rcases Variable.mem_handles_attach hk' with hold | rfl
      · exact h.handle hold
      · exact ⟨hdrawn, fun hs hid => absurd hid (hforeign _ _ hs)⟩
    · exact h.handle hk'
  · have hne : (k.id == s.id) = false := beq_eq_false_iff_ne.mpr (hforeign l s hs).symm
    rw [variableAt_attach]
    split
    · rw [Variable.isAttached_attach, hne, Bool.or_false]
    · rfl

theorem Matched.detach (h : ws.Matched) {id : SolverId}
    (hforeign : ∀ l s, ws.solver? l = some s → s.id ≠ id) : (ws.detach v id).Matched := by
  refine h.of_sameListeners (sameListeners_updateVariable ws v _) (fun w k hk => ?_)
    (fun l s hs w => ?_)
  · rw [variableAt_detach] at hk
    split at hk
    · exact h.handle (Variable.mem_handles_detach.mp hk).1
    · exact h.handle hk
  · rw [variableAt_detach]
    split
    · rw [Variable.isAttached_detach]
      simp [hforeign l s hs]
    · rfl

/-- Handles that were found dead belong to no solver that is alive, so
pruning detaches none that is attached. -/
theorem Matched.prune {before : Workspace α μ} {action : Action} {dead : List SolverId}
    (h : ws.Matched) (hbefore : before.Matched)
    (hfound : FoundDead Onward before ws (before.variableAt v).handles dead) :
    (ws.prune action v dead).Matched := by
  refine h.of_sameListeners (sameListeners_prune ws action v dead) (fun w k hk => ?_)
    (fun l s hs w => ?_)
  · rw [variableAt_prune] at hk
    split at hk
    · exact h.handle (Variable.mem_handles_detach.mp hk).1
    · exact h.handle hk
  · rw [variableAt_prune]
    split
    · rw [Variable.isAttached_detach]
      by_cases hmem : s.id ∈ dead
      · obtain ⟨k, hk, hid, found, hto, hgone, hfrom⟩ := hfound s.id hmem
        -- the solver was there when the handle was attached, so the handle leads to it
        have hadmits := hbefore.handle hk
        obtain ⟨s₀, hs₀, hid₀⟩ := (hto.trans hfrom).old hs (hid ▸ hadmits.drawn)
        have hl : k.listener = l := hadmits.own hs₀ (hid₀.trans hid.symm)
        have hdead := hfrom.dead (hto.id? (id?_of_solver? hs₀)) (hl ▸ hgone)
        have hnot : (ws.variableAt w).isAttached s.id = false := by
          rw [← Bool.not_eq_true, h.attached hs, hdead]
          exact fun hboth => Bool.false_ne_true hboth.1
        rw [hnot, Bool.false_and]
      · simp [hmem]
    · rfl

/-- What is left of the handles once a solver has left its variables. -/
theorem Matched.handles_detachAll (h : ws.Matched) (hs : ws.solver? l = some s)
    (v : VariableRef) : ((ws.detachAll s.vars s.id).variableAt v).handles
      = (ws.variableAt v).handles.filter fun k => k.id != s.id := by
  rw [variableAt_detachAll]
  split
  · refine List.filter_congr fun k _ => ?_
    by_cases hid : k.id = s.id <;> simp [hid]
  · next hv =>
    refine (List.filter_eq_self.mpr fun k hk => ?_).symm
    have hnot : ¬ (ws.variableAt v).isAttached s.id = true := by
      rw [h.attached hs]
      exact fun hboth => hv hboth.2
    rw [bne_iff_ne]
    exact fun hid => hnot (Variable.isAttached_iff.mpr ⟨k, hk, hid⟩)

/-- Generating moves the solver to the end of the handles of its variables,
and takes it out of all others. -/
theorem Matched.handles_generate (h : ws.Matched) (hs : ws.solver? l = some s)
    (v : VariableRef) : ((ws.generate l).1.variableAt v).handles
      = ((ws.variableAt v).handles.filter fun k => k.id != s.id)
        ++ if v ∈ s.model.vars then [⟨s.id, l⟩] else [] := by
  have hleft := h.handles_detachAll hs v
  rw [variableAt_generate hs]
  by_cases hv : v ∈ s.model.vars
  · have hgone : ¬ ((ws.detachAll s.vars s.id).variableAt v).isAttached s.id = true := by
      intro hattached
      obtain ⟨k, hk, hid⟩ := Variable.isAttached_iff.mp hattached
      rw [hleft, List.mem_filter, bne_iff_ne] at hk
      exact hk.2 hid
    rw [if_pos ⟨hv, h.inRange hs v (Or.inr hv)⟩, if_pos hv, Variable.attach, if_neg hgone, ← hleft]
  · rw [if_neg fun hboth => hv hboth.1, if_neg hv, List.append_nil, hleft]

/-- A solver that has left its variables is attached to none. -/
theorem Matched.isAttached_detachAll (h : ws.Matched) (hs : ws.solver? l = some s)
    (v : VariableRef) : ((ws.detachAll s.vars s.id).variableAt v).isAttached s.id = false := by
  rw [Variable.isAttached, h.handles_detachAll hs]
  simp

/-- A solver that generates is attached to the variables of its model. -/
theorem Matched.isAttached_generate (h : ws.Matched) (hs : ws.solver? l = some s)
    (v : VariableRef) :
    ((ws.generate l).1.variableAt v).isAttached s.id = decide (v ∈ s.model.vars) := by
  rw [Variable.isAttached, h.handles_generate hs]
  by_cases hv : v ∈ s.model.vars <;> simp [hv]

/-- One listener is dead now, and attached to nothing if it is a solver. -/
theorem Matched.of_dead (h : ws.Matched) (hids : ws.SameIds ws')
    (hsize : ws'.vars.length = ws.vars.length) (hsolver : ∀ k, ws'.solver? k = ws.solver? k)
    (hdead : (ws'.listener? l).any Listener.isAlive = false)
    (hothers : ∀ k, k ≠ l → (ws'.listener? k).any Listener.isAlive
      = (ws.listener? k).any Listener.isAlive)
    (hhandles : ∀ v, ∀ k ∈ (ws'.variableAt v).handles, k ∈ (ws.variableAt v).handles)
    (hattached : ∀ k s, ws.solver? k = some s → ∀ v, (ws'.variableAt v).isAttached s.id
      = (decide (k ≠ l) && (ws.variableAt v).isAttached s.id)) : ws'.Matched where
  ids := h.ids.of_sameIds hids
  inRange := by
    intro k s hs v hv
    rw [hsolver] at hs
    rw [hsize]
    exact h.inRange hs v hv
  handle := fun {v k} hk =>
    (h.handle (hhandles v k hk)).of_oldSolvers hids.nextSolver (.of_solver? hsolver)
  attached := by
    intro k s hs v
    rw [hsolver] at hs
    rw [hattached k s hs, Bool.and_eq_true, decide_eq_true_eq, h.attached hs]
    by_cases hk : k = l
    · rw [hk, hdead]
      simp
    · rw [hothers k hk]
      simp [hk]

/-- A listener that comes out of use or is given up leaves its variables if it
dies of it. -/
theorem Matched.leave (h : ws.Matched) {f : Listener α → Listener α}
    (hrole : ∀ a, (f a).role = a.role) (hlife : ∀ a, (f a).isAlive = true → a.isAlive = true) :
    ((ws.updateListener l f).retireIfDead l).Matched
      ∧ ws.Onward ((ws.updateListener l f).retireIfDead l) := by
  have hid : ∀ a, (f a).id = a.id := fun a => by rw [Listener.id, hrole, Listener.id]
  have hids := sameIds_updateListener hid ws l
  have hretired := sameListeners_retireIfDead (ws.updateListener l f) l
  have hsolver := solver?_updateStanding hrole ws l
  have honward : ws.Onward ((ws.updateListener l f).retireIfDead l) :=
    (Onward.of_same hids (alive_updateListener fun a _ => hlife a)
      (.of_solver? hsolver)).trans hretired.onward
  refine ⟨?_, honward⟩
  cases halive : ((ws.updateListener l f).listener? l).any Listener.isAlive with
  | true =>
    rw [Workspace.retireIfDead, if_pos halive]
    refine h.of_sameAttachment (sameAttachment_updateListener fun a ha => ?_)
    rw [listener?_updateListener_self, ha, Option.map_some, Option.any_some] at halive
    rw [Listener.badge, Listener.badge, hid, halive, hlife a halive, Listener.solver?, hrole]
    rfl
  | false =>
    refine h.of_dead (l := l) (hids.trans hretired.sameIds) hretired.size
      (fun k => (hretired.solver? k).trans (hsolver k)) ?_ (fun k hk => ?_) ?_ ?_
    · rw [hretired.listener?, halive]
    · rw [hretired.listener?, listener?_updateListener_of_ne hk]
    · intro v k hk
      rw [Workspace.retireIfDead, halive, if_neg Bool.false_ne_true, retire] at hk
      split at hk
      · have hkept := mem_handles_of_mem_detachAll hk
        exact hkept
      · exact hk
    · intro k s hs v
      rw [Workspace.retireIfDead, halive, if_neg Bool.false_ne_true, retire, hsolver]
      by_cases hk : k = l
      · subst hk
        simp only [hs, ne_eq, not_true_eq_false, decide_false, Bool.false_and]
        have hleft := h.isAttached_detachAll hs v
        rw [variableAt_detachAll] at hleft ⊢
        exact hleft
      · simp only [ne_eq, hk, not_false_eq_true, decide_true, Bool.true_and]
        split
        · next s' hs' =>
          rw [isAttached_detachAll_of_ne (h.ids.ne_of_ne hs' hs hk), variableAt_updateListener]
        · rfl

/-- A solver that generates leaves its old variables and joins those of its
model. -/
theorem Matched.generate (h : ws.Matched)
    (halive : (ws.listener? l).any Listener.isAlive = true) :
    (ws.generate l).1.Matched ∧ ws.Onward (ws.generate l).1 := by
  cases hs : ws.solver? l with
  | none =>
    rw [Workspace.generate, hs]
    exact ⟨h, .refl ws⟩
  | some s =>
    have hids := sameIds_generate hs
    have hold := oldSolvers_generate ws l
    refine ⟨?_, .of_same hids (fun k hk => (isAlive_generate ws l k).symm.trans hk) hold⟩
    exact {
      ids := h.ids.of_sameIds hids
      inRange := by
        intro k s' hs' v hv
        rw [size_generate hs]
        rw [solver?_generate_map] at hs'
        split at hs'
        · next hk =>
          rw [hk, hs] at hs'
          obtain rfl := Option.some.inj hs'
          exact h.inRange hs v (Or.inr (hv.elim id id))
        · exact h.inRange hs' v hv
      handle := by
        intro v k hk
        refine Admits.of_oldSolvers ?_ hids.nextSolver hold
        rcases mem_handles_generate hs hk with hk | rfl
        · exact h.handle hk
        · exact ⟨h.ids.lt (id?_of_solver? hs), fun hs' hid =>
            h.ids.inj (id?_of_solver? hs) ((id?_of_solver? hs').trans (congrArg some hid))⟩
      attached := by
        intro k s' hs' v
        rw [isAlive_generate]
        rw [solver?_generate_map] at hs'
        split at hs'
        · next hk =>
          subst hk
          rw [hs] at hs'
          obtain rfl := Option.some.inj hs'
          change ((ws.generate k).1.variableAt v).isAttached s.id = true
            ↔ _ ∧ v ∈ s.model.vars
          rw [h.isAttached_generate hs, halive]
          simp
        · next hk =>
          rw [isAttached_generate_of_ne hs (h.ids.ne_of_ne hs hs' hk)]
          exact h.attached hs' v }

theorem Matched.newVariable (h : ws.Matched) (spec : VariableSpec α) :
    (ws.newVariable spec).1.Matched where
  ids := ⟨h.ids.lt, h.ids.inj⟩
  inRange := by
    intro l s hs v hv
    have hold := h.inRange (show ws.solver? l = some s from hs) v hv
    rw [size_newVariable]
    exact Nat.lt_succ_of_lt hold
  handle := by
    intro v k hk
    rw [variableAt_newVariable] at hk
    split at hk
    · cases hk
    · have hadmits := h.handle hk
      exact ⟨hadmits.drawn, hadmits.own⟩
  attached := by
    intro l s hs v
    have hs : ws.solver? l = some s := hs
    rw [variableAt_newVariable]
    split
    · next hv =>
      have hnot : v ∉ s.vars := fun hmem =>
        absurd (h.inRange hs v (Or.inl hmem)) (hv ▸ Nat.lt_irrefl _)
      exact ⟨fun hattached => (by cases hattached), fun hboth => absurd hboth.2 hnot⟩
    · exact h.attached hs v

/-- A new listener has an identity that is attached nowhere. -/
theorem Matched.newListener (h : ws.Matched) {role : SolverId → Role α}
    (hid : ∀ id, Listener.id { role := role id } = id)
    (hnew : ∀ id s, Listener.solver? { role := role id } = some s →
      s.vars = [] ∧ ∀ v ∈ s.model.vars, v.index < ws.vars.length) :
    (ws.newListener role).1.Matched ∧ ws.Onward (ws.newListener role).1 := by
  have hold : ∀ {k id}, ws.id? k = some id → k.index ≠ ws.listeners.length := by
    intro k id hk
    obtain ⟨a, ha, -⟩ := Option.map_eq_some_iff.mp hk
    exact Nat.ne_of_lt (List.getElem?_eq_some_iff.mp ha).1
  have hsame : ∀ {k id}, ws.id? k = some id →
      (ws.newListener role).1.listener? k = ws.listener? k := by
    intro k id hk
    rw [listener?_newListener, if_neg (hold hk)]
  have hfresh : ∀ {k s}, (ws.newListener role).1.solver? k = some s →
      s.id = ws.nextSolver ∨ ws.solver? k = some s := by
    intro k s hs
    rw [solver?_newListener] at hs
    split at hs
    · exact Or.inl ((Listener.id_of_solver? hs).symm.trans (hid _))
    · exact Or.inr hs
  refine ⟨?_, Nat.le_succ _, fun {l id} hk => ?_, fun {l id} hk hdead => ?_,
    fun {k s} hs hlt => ?_⟩
  · exact {
      ids := h.ids.newListener hid
      inRange := by
        intro k s hs v hv
        rw [solver?_newListener] at hs
        split at hs
        · obtain ⟨hnone, hmodel⟩ := hnew _ s hs
          rw [hnone] at hv
          exact hmodel v (hv.resolve_left (by simp))
        · exact h.inRange hs v hv
      handle := by
        intro v k hk
        have hadmits := h.handle hk
        refine ⟨Nat.lt_succ_of_lt hadmits.drawn, fun hs hsid => ?_⟩
        rcases hfresh hs with hnew | hs
        · exact absurd (hsid.symm.trans hnew) (Nat.ne_of_lt hadmits.drawn)
        · exact hadmits.own hs hsid
      attached := by
        intro k s hs v
        change (ws.variableAt v).isAttached s.id = true ↔ _
        by_cases hk : k.index = ws.listeners.length
        · rw [solver?_newListener, if_pos hk] at hs
          have hsid : s.id = ws.nextSolver := (Listener.id_of_solver? hs).symm.trans (hid _)
          rw [(hnew _ s hs).1, hsid]
          refine ⟨fun hattached => ?_, fun hboth => absurd hboth.2 (by simp)⟩
          obtain ⟨k', hk', hid'⟩ := Variable.isAttached_iff.mp hattached
          exact absurd hid' (Nat.ne_of_lt (h.handle hk').drawn)
        · rw [solver?_newListener, if_neg hk] at hs
          rw [listener?_newListener, if_neg hk]
          exact h.attached hs v }
  · rw [Workspace.id?, hsame hk]
    exact hk
  · rw [hsame hk]
    exact hdead
  · rcases hfresh hs with hnew | hs
    · exact absurd hnew (Nat.ne_of_lt hlt)
    · exact ⟨s, hs, rfl⟩

/-! ## The order of the handles -/

/-- A solver that comes out of use or is given up leaves the handles of all
variables if it dies of it, and else stays where it is. -/
theorem Matched.handles_leave (h : ws.Matched) {f : Listener α → Listener α}
    (hrole : ∀ a, (f a).role = a.role) (hs : ws.solver? l = some s) (v : VariableRef) :
    (((ws.updateListener l f).retireIfDead l).variableAt v).handles
      = if (((ws.updateListener l f).retireIfDead l).listener? l).any Listener.isAlive = true
        then (ws.variableAt v).handles
        else (ws.variableAt v).handles.filter fun k => k.id != s.id := by
  rw [(sameListeners_retireIfDead _ l).listener?]
  cases halive : ((ws.updateListener l f).listener? l).any Listener.isAlive with
  | true => rw [Workspace.retireIfDead, if_pos halive, if_pos rfl, variableAt_updateListener]
  | false =>
    have hs' : (ws.updateListener l f).solver? l = some s :=
      (solver?_updateStanding hrole ws l l).trans hs
    have hsame : ((ws.updateListener l f).detachAll s.vars s.id).variableAt v
        = (ws.detachAll s.vars s.id).variableAt v := by
      rw [variableAt_detachAll, variableAt_detachAll, variableAt_updateListener]
    rw [Workspace.retireIfDead, halive, if_neg Bool.false_ne_true, if_neg Bool.false_ne_true,
      retire, hs', hsame]
    exact h.handles_detachAll hs v

end Workspace

/-! ## Every state that is reached -/

/-- Turns that attach and detach no solver by hand keep solvers attached to
their variables. -/
theorem preserves_matched :
    Guard.Preserves (handsOff (α := α) (μ := μ)) Matched Onward where
  refl := Onward.refl
  trans := Onward.trans
  same := fun hsame h => ⟨h.of_sameAttachment hsame, hsame.onward⟩
  attach := fun hguard h => ⟨h.attach hguard.1 hguard.2, (sameListeners_attach ..).onward⟩
  detach := fun hguard h => ⟨h.detach hguard, (sameListeners_updateVariable ..).onward⟩
  prune := fun hbefore _ hfound h => ⟨h.prune hbefore hfound, (sameListeners_prune ..).onward⟩
  leave := fun hrole hlife h => h.leave hrole hlife
  hold := fun hguard h => ⟨h.of_sameAttachment (sameAttachment_hold hguard),
    (sameAttachment_hold hguard).onward⟩
  generate := fun hguard h => h.generate hguard
  prepare := by
    intro ws l hguard h
    have hcleared : ws.SameAttachment (ws.clear l) :=
      (sameAttachment_hold hguard).trans (sameAttachment_updateSolution _ l none)
    have hmatched := h.of_sameAttachment hcleared
    rcases prepare_cases l ws with hprepare | hprepare
    · rw [hprepare]
      exact ⟨hmatched, hcleared.onward⟩
    · rw [hprepare]
      obtain ⟨hdone, honward⟩ := hmatched.generate ((hcleared.alive l).trans hguard)
      exact ⟨hdone, hcleared.onward.trans honward⟩
  newVariable := fun h => ⟨h.newVariable _, Nat.le_refl _, fun hid => hid,
    fun _ hdead => hdead, fun hs _ => ⟨_, hs, rfl⟩⟩
  newSolver := fun hguard h => h.newListener (fun _ => rfl) fun id s hs => by
    obtain rfl := Option.some.inj hs
    exact ⟨rfl, hguard⟩
  newObserver := fun h => h.newListener (fun _ => rfl) fun id s hs => by cases hs

theorem matched_empty (memory : μ) : Matched ({ memory } : Workspace α μ) where
  ids := ⟨(fun hid => by cases hid), (fun hid => by cases hid)⟩
  inRange := fun hs => by cases hs
  handle := fun hk => by cases hk
  attached := fun hs => by cases hs

theorem Workspace.heeded_of_forall {guard : Guard α μ} (hguard : ∀ t ws, guard t ws)
    (c : Conduct α μ) (turns : List (Turn α μ)) (ws : Workspace α μ) :
    ws.Heeded guard c turns := by
  induction turns generalizing ws with
  | nil => trivial
  | cons t rest ih => exact ⟨hguard t ws, ih _⟩

/-- In every state that is reached, whatever is done and whatever clients do
when they are called, no variable has two handles under one identity. Where
nobody attaches or detaches a solver by hand, a solver is attached to a
variable exactly if it is alive, has generated, and has a column for it.
Generating it then, or giving it up, leaves the other handles of every
variable in their order: a solver that generates stands last at its
variables and nowhere else, and one that is given up or comes out of use
stands nowhere if it dies of it. -/
theorem attachment_matches {c : Conduct α μ} {memory : μ} {turns : List (Turn α μ)} :
    (c.Heeds (fun _ _ => True) →
      ∀ v, (((course c turns { memory }).variableAt v).handles.map Handle.id).Nodup)
    ∧ (c.Heeds handsOff → Heeded handsOff c turns { memory } →
      ∀ l s, (course c turns { memory }).solver? l = some s →
        (∀ v, ((course c turns { memory }).variableAt v).isAttached s.id = true
          ↔ ((course c turns { memory }).listener? l).any Listener.isAlive = true
            ∧ s.generated.isSome = true ∧ v ∈ s.vars)
        ∧ (∀ v, (((course c turns { memory }).generate l).1.variableAt v).handles
            = (((course c turns { memory }).variableAt v).handles.filter fun k => k.id != s.id)
              ++ if v ∈ s.model.vars then [⟨s.id, l⟩] else [])
        ∧ ∀ left, left = (course c turns { memory }).drop l
            ∨ left = (course c turns { memory }).release l → ∀ v,
          (left.variableAt v).handles
            = if (left.listener? l).any Listener.isAlive = true
              then ((course c turns { memory }).variableAt v).handles
              else ((course c turns { memory }).variableAt v).handles.filter
                fun k => k.id != s.id) := by
  constructor
  · intro hheeds
    have hempty : DistinctHandles ({ memory } : Workspace α μ) := fun v => List.nodup_nil
    exact preserves_distinctHandles.course hheeds
      (heeded_of_forall (fun _ _ => trivial) c turns _) hempty
  · intro hheeds hheeded l s hs
    have hmatched := preserves_matched.course hheeds hheeded (matched_empty memory)
    refine ⟨fun v => ?_, hmatched.handles_generate hs, fun left hleft v => ?_⟩
    · rw [hmatched.attached hs]
      refine and_congr_right fun _ => ⟨fun hv => ⟨?_, hv⟩, fun hboth => hboth.2⟩
      cases hg : s.generated with
      | none =>
        rw [Solver.vars, hg] at hv
        cases hv
      | some g => rfl
    · rcases hleft with rfl | rfl
      · exact hmatched.handles_leave (by intro a; rfl) hs v
      · exact hmatched.handles_leave (by intro a; rfl) hs v

/-! ## A solver given up in the middle of a solve -/

omit [Scalar α] in
theorem Workspace.forall_solver? {ws : Workspace α μ} {p : Solver α → Prop}
    (h : ∀ a ∈ ws.listeners, ∀ s ∈ a.solver?, p s) (l : ListenerRef) (s : Solver α)
    (hs : ws.solver? l = some s) : p s := by
  obtain ⟨a, ha, has⟩ := Option.bind_eq_some_iff.mp hs
  exact h a (List.mem_of_getElem? ha) s has

/-- A backend that gives up the second solver when it is asked. -/
def droppingConduct : Conduct Exact Unit :=
  { idleConduct with answer := fun _ _ ws => (ws.drop ⟨1⟩, .ok (.ofStatus .infeasible "")) }

theorem heeds_droppingConduct (guard : Guard Exact Unit)
    (hdrop : ∀ l ws, guard (.operate (.drop l)) ws) : droppingConduct.Heeds guard :=
  .acting idleConduct (.quiet (fun _ _ _ ws => .refl ws) (fun _ _ ws => .refl ws))
    (fun _ _ _ _ => ⟨[], trivial, rfl⟩)
    (fun _ _ ws => ⟨[.operate (.drop ⟨1⟩)], ⟨hdrop ⟨1⟩ ws, trivial⟩, rfl⟩)

/-- Both solvers generate, an observer is attached between them under its own
identity and under that of another observer, and the first solver is solved. -/
def droppingTurns : List (Turn Exact Unit) :=
  [.move (.newVariable (.nonnegative "x" .integer)),
    .move (.newVariable ⟨"y", .infinite true, 1, .continuous⟩),
    .move (.newSolver mergingModel ⟨"exact", true⟩ {}),
    .move (.newSolver mergingModel ⟨"exact", true⟩ {}), .move .newObserver,
    .move .newObserver, .operate (.generate ⟨0⟩), .operate (.attach ⟨1⟩ ⟨2, ⟨2⟩⟩),
    .operate (.attach ⟨1⟩ ⟨3, ⟨2⟩⟩), .operate (.generate ⟨1⟩),
    .operate (.setBound .upper ⟨1⟩ (.finite 3)), .operate (.solve ⟨0⟩)]

theorem heeded_droppingTurns :
    Workspace.Heeded handsOff droppingConduct droppingTurns { memory := () } :=
  ⟨trivial, trivial, show ∀ v ∈ mergingModel.vars, v.index < 2 by decide +kernel,
    show ∀ v ∈ mergingModel.vars, v.index < 2 by decide +kernel, trivial, trivial,
    show Option.any _ _ = true by decide +kernel,
    ⟨by decide +kernel, forall_solver? (by decide +kernel)⟩,
    ⟨by decide +kernel, forall_solver? (by decide +kernel)⟩,
    show Option.any _ _ = true by decide +kernel, trivial,
    show Option.any _ _ = true by decide +kernel, trivial⟩

/-- The solver that was given up had generated, and is attached nowhere. -/
theorem detached_droppingTurns :
    (∀ v, (((course droppingConduct droppingTurns { memory := () }).variableAt v).handles.map
      Handle.id).Nodup)
    ∧ ∃ s, (course droppingConduct droppingTurns { memory := () }).solver? ⟨1⟩ = some s
      ∧ s.vars = [⟨0⟩, ⟨1⟩]
      ∧ ∀ v, ((course droppingConduct droppingTurns { memory := () }).variableAt v).isAttached s.id
        = false := by
  obtain ⟨hdistinct, hmatched⟩ :=
    @attachment_matches Exact Unit _ droppingConduct () droppingTurns
  refine ⟨hdistinct (heeds_droppingConduct _ fun _ _ => trivial), ?_⟩
  obtain ⟨s, hs, hvars⟩ := (Option.any_eq_true _ _).mp (show
    ((course droppingConduct droppingTurns { memory := () }).solver? ⟨1⟩).any
      (fun s => decide (s.vars = [⟨0⟩, ⟨1⟩])) = true by decide +kernel)
  obtain ⟨hattached, -⟩ := hmatched (heeds_droppingConduct _ fun _ _ => trivial)
    heeded_droppingTurns ⟨1⟩ s hs
  refine ⟨s, hs, of_decide_eq_true hvars, fun v => ?_⟩
  have hdead : ((course droppingConduct droppingTurns { memory := () }).listener? ⟨1⟩).any
      Listener.isAlive = false := by decide +kernel
  rw [← Bool.not_eq_true, hattached v, hdead]
  exact fun hboth => Bool.false_ne_true hboth.1

end Milp
