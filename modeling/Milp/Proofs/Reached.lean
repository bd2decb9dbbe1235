/-
Milp.Proofs.Reached — what holds in every state that is reached.

Whatever is done to a workspace, and whatever clients do when they are called,
identities are drawn once (`DistinctIds`), variables are never taken away, and
solvers are sound. Where models are over variables that are there when their
solvers are made, they stay so (`AllWellFormed`). A state is reached
(`Reached`) if some course with such models leads to it.
-/
import Milp.Proofs.Guards
import Milp.Proofs.SolutionCycle

namespace Milp

variable {α μ : Type} [Scalar α]

/-- Models are over variables that are there. -/
def Rule.inRange : Rule α μ where
  model := fun m ws => ∀ v ∈ m.vars, v.index < ws.vars.length

namespace Workspace

variable {ws ws' : Workspace α μ} {l : ListenerRef} {v : VariableRef}

/-! ## Well-formed solvers -/

/-- Every model is over variables that are there, and every problem over the
variables of its model. -/
def AllWellFormed (ws : Workspace α μ) : Prop :=
  ∀ l s, ws.solver? l = some s → s.WellFormed ws.vars.length

omit [Scalar α] in
theorem AllWellFormed.of_map {f : Solver α → Solver α} (h : ws.AllWellFormed)
    (hsolver : ∀ k, ws'.solver? k = if k = l then (ws.solver? k).map f else ws.solver? k)
    (hsize : ws'.vars.length = ws.vars.length)
    (hf : ∀ s, s.WellFormed ws.vars.length → (f s).WellFormed ws.vars.length) :
    ws'.AllWellFormed := by
  intro k s hs
  rw [hsize]
  rw [hsolver] at hs
  split at hs
  · obtain ⟨s₀, hs₀, rfl⟩ := Option.map_eq_some_iff.mp hs
    exact hf s₀ (h k s₀ hs₀)
  · exact h k s hs

omit [Scalar α] in
theorem AllWellFormed.of_solver? (h : ws.AllWellFormed)
    (hsolver : ∀ k, ws'.solver? k = ws.solver? k) (hsize : ws'.vars.length = ws.vars.length) :
    ws'.AllWellFormed := by
  intro k s hs
  rw [hsize]
  exact h k s ((hsolver k).symm.trans hs)

omit [Scalar α] in
theorem AllWellFormed.newListener (h : ws.AllWellFormed) {role : SolverId → Role α}
    (hrole : ∀ id s, role id = .solver s → s.WellFormed ws.vars.length) :
    (ws.newListener role).1.AllWellFormed := by
  intro k s hs
  rcases solver?_newListener_cases hs with hnew | hs
  · exact hrole _ s hnew
  · exact h k s hs

/-- Solvers stay well-formed where models are over variables that are there. -/
theorem preserves_allWellFormed {rule : Rule α μ} (htell : ∀ v change, rule.tell v change)
    (hmodel : ∀ m ws, rule.model m ws → ∀ v ∈ m.vars, v.index < ws.vars.length) :
    rule.Preserves AllWellFormed where
  apart := fun hsame _ _ h => h.of_solver? hsame.solver? hsame.size
  standing := fun hf _ h => h.of_solver? (solver?_updateStanding hf _ _) rfl
  hold := fun _ h => h.of_solver? (solver?_hold _ _) rfl
  write := fun _ _ _ h => ⟨h.of_solver? (sameListeners_updateVariable ..).solver?
    (sameListeners_updateVariable ..).size, fun _ change _ => htell _ change⟩
  tell := fun {ws l v change} _ h => h.of_map (solver?_tellSolver ws l v change)
    (congrArg List.length (vars_tellSolver ws l v change)) fun s hs => ⟨hs.inRange, fun g hg => by
      obtain ⟨g₀, hg₀, rfl⟩ := Option.map_eq_some_iff.mp hg
      rw [Generated.vars_hear]
      exact hs.vars g₀ hg₀⟩
  assign := fun _ h => h.of_solver? (sameListeners_assign ..).solver? (sameListeners_assign ..).size
  generate := fun {ws l} _ h => h.of_map (solver?_generate_map ws l) (length_vars_generate ws l)
    fun s hs => ⟨hs.inRange, fun g hg => by
      obtain rfl := Option.some.inj hg
      rfl⟩
  forget := fun _ h => h.of_map (solver?_updateSolver _ _ · _) rfl fun s hs => ⟨hs.inRange, hs.vars⟩
  settle := fun {_ ws l s g solution} _ _ _ _ _ h _ _ =>
    h.of_map (solver?_settle_map ws l s g solution) (sameListeners_settled ws s g solution).size
      fun s hs => ⟨hs.inRange, hs.vars⟩
  newVariable := fun _ h l s hs => by
    have hwell := h l s hs
    rw [size_newVariable]
    exact ⟨fun v hv => Nat.lt_succ_of_lt (hwell.inRange v hv), hwell.vars⟩
  newSolver := fun hrule h => h.newListener fun id s hs => by
    cases hs
    exact ⟨hmodel _ _ hrule, fun g hg => by cases hg⟩
  newObserver := fun h => h.newListener fun id s hs => by cases hs

/-! ## Identities and variables -/

theorem preserves_distinctIds {rule : Rule α μ} (htell : ∀ v change, rule.tell v change) :
    rule.Preserves DistinctIds where
  apart := fun hsame _ _ h => h.of_sameIds hsame.sameIds
  standing := fun hf _ h => h.of_sameIds
    (sameIds_updateListener (fun a => by rw [Listener.id, hf, Listener.id]) _ _)
  hold := fun _ h => h.of_sameIds (sameIds_updateListener (by intro a; rfl) _ _)
  write := fun _ _ _ h => ⟨h.of_sameIds (sameListeners_updateVariable ..).sameIds,
    fun _ change _ => htell _ change⟩
  tell := fun _ h => h.of_sameIds (sameAttachment_tellSolver ..).sameIds
  assign := fun _ h => h.of_sameIds (sameListeners_assign ..).sameIds
  generate := fun {ws l} _ h => by
    cases hs : ws.solver? l with
    | none =>
      rw [Workspace.generate, hs]
      exact h
    | some s => exact h.of_sameIds (sameIds_generate hs)
  forget := fun _ h => h.of_sameIds
    (sameIds_updateListener (Listener.id_mapSolver (by intro s; rfl)) _ _)
  settle := fun {_ ws l s g solution} _ _ _ _ _ h _ _ =>
    (h.of_sameIds (sameListeners_settled ws s g solution).sameIds).of_sameIds
      (sameIds_updateListener (Listener.id_mapSolver (by intro s; rfl)) _ l)
  newVariable := fun _ h => ⟨h.lt, h.inj⟩
  newSolver := fun _ h => h.newListener fun _ => rfl
  newObserver := fun h => h.newListener fun _ => rfl

/-- Variables are never taken away. -/
theorem preserves_index_lt {rule : Rule α μ} (htell : ∀ w change, rule.tell w change) :
    rule.Preserves fun ws => v.index < ws.vars.length := by
  have hkept : ∀ {ws ws' : Workspace α μ}, ws'.vars.length = ws.vars.length →
      v.index < ws.vars.length → v.index < ws'.vars.length := fun hsize h => hsize ▸ h
  exact {
    apart := fun hsame _ _ h => hkept hsame.size h
    standing := fun _ _ h => h
    hold := fun _ h => h
    write := fun _ _ _ h => ⟨hkept (sameListeners_updateVariable ..).size h,
      fun _ change _ => htell _ change⟩
    tell := fun {ws l w change} _ h =>
      hkept (congrArg List.length (vars_tellSolver ws l w change)) h
    assign := fun _ h => hkept (sameListeners_assign ..).size h
    generate := fun {ws l} _ h => hkept (length_vars_generate ws l) h
    forget := fun _ h => h
    settle := fun {_ ws _ s g solution} _ _ _ _ _ h _ _ =>
      hkept (sameListeners_settled ws s g solution).size h
    newVariable := fun _ h => by
      rw [size_newVariable]
      exact Nat.lt_succ_of_lt h
    newSolver := fun _ h => h
    newObserver := fun h => h }

/-! ## Reached states -/

/-- A state that is reached from the empty workspace, whatever the clients did
on the way. -/
def Reached (ws : Workspace α μ) : Prop :=
  ∃ (c : Conduct α μ) (turns : List (Turn α μ)) (memory : μ),
    c.Follows Rule.inRange (fun _ => True) ∧ Rule.inRange.AllowsAll c turns { memory }
      ∧ ws = course c turns { memory }

/-- What is so in the empty workspace and is preserved holds in every state
that is reached. -/
theorem Reached.induction {P : Workspace α μ → Prop} (h : Rule.inRange.Preserves P)
    (hempty : ∀ memory, P { memory }) (hreached : ws.Reached) : P ws := by
  obtain ⟨c, turns, memory, hfollows, hallowed, rfl⟩ := hreached
  exact h.course (fun _ => trivial) hfollows hallowed (hempty memory)

theorem Reached.distinctIds (hreached : ws.Reached) : ws.DistinctIds :=
  hreached.induction (preserves_distinctIds fun _ _ => trivial) fun _ =>
    ⟨(fun hid => by cases hid), (fun hid => by cases hid)⟩

theorem Reached.allWellFormed (hreached : ws.Reached) : ws.AllWellFormed :=
  hreached.induction (preserves_allWellFormed (fun _ _ => trivial) fun _ _ h => h)
    fun _ l s hs => by cases hs

theorem Reached.allSound (hreached : ws.Reached) : ws.AllSound :=
  hreached.induction (preserves_allSound fun _ _ => trivial) allSound_empty

end Workspace

end Milp
