/-
Milp.Proofs.Run — runs of operations, and what holds in every state they
reach.

A run starts in the empty workspace; its moves make variables, solvers and
observers and carry out operations, in any order and any number. A run is
calm when no listener refuses or is busy, handles carry the identity of
their own listener and no solver loses one of its variables by hand, and
frozen variables keep the value they were frozen at (`Operation.Calm`).

In every state of a calm run each solver that is alive has the problem that
generating would give it there (`problem_eq_regenerated`): the changes it
heard of one by one come to the same as starting anew.
-/
import Milp.Proofs.SyncSteps

namespace Milp

variable {α μ : Type} [Scalar α]

/-! ## Moves -/

/-- One move of a run. -/
inductive Move (α : Type) where
  | operate (op : Operation α)
  | newVariable (spec : VariableSpec α)
  | newSolver (model : Model α) (backend : Backend) (config : Config α)
  | newObserver

/-- What an operation must heed for solvers to stay in step. -/
def Operation.Proper (c : Conduct α μ) (op : Operation α) (ws : Workspace α μ) : Prop :=
  match op with
  | .assign v level => (ws.variableAt v).freeze.isFrozen = true →
      (ws.variableAt v).assigned.map Level.value = some level.value
  | .attach _ h => ws.handleOf? h.listener = some h
  | .detach v id => ∀ l s, ws.solver? l = some s → s.id = id → v ∉ s.vars
  | .solve l => (ws.listener? l).any Listener.isAlive = true
      ∧ ∀ v, (ws.variableAt v).freeze.isFrozen = true →
        ((ws.solve c l).1.variableAt v).assigned.map Level.value
          = (ws.variableAt v).assigned.map Level.value
  | .tell .. => False
  | _ => True

/-- An operation that heeds it, and of which no listener that is told is
busy or refuses. -/
structure Operation.Calm (c : Conduct α μ) (op : Operation α) (ws : Workspace α μ) : Prop where
  heard : op.tells ws = true → (ws.perform c op).2.isOk = true
  proper : op.Proper c ws

/-- A model is over variables that are there. -/
def Move.Calm (c : Conduct α μ) (move : Move α) (ws : Workspace α μ) : Prop :=
  match move with
  | .operate op => op.Calm c ws
  | .newSolver model _ _ => ∀ v ∈ model.vars, v.index < ws.vars.length
  | _ => True

namespace Workspace

/-- The state after a move. -/
def advance (c : Conduct α μ) (move : Move α) (ws : Workspace α μ) : Workspace α μ :=
  match move with
  | .operate op => (ws.perform c op).1
  | .newVariable spec => (ws.newVariable spec).1
  | .newSolver model backend config => (ws.newSolver model backend config).1
  | .newObserver => ws.newObserver.1

/-- The state after a list of moves. -/
def run (c : Conduct α μ) : List (Move α) → Workspace α μ → Workspace α μ
  | [], ws => ws
  | move :: rest, ws => run c rest (ws.advance c move)

/-- Every move of a run is calm in the state it is made in. -/
def CalmRun (c : Conduct α μ) : List (Move α) → Workspace α μ → Prop
  | [], _ => True
  | move :: rest, ws => move.Calm c ws ∧ CalmRun c rest (ws.advance c move)

variable {c : Conduct α μ} {ws : Workspace α μ}

/-! ## The invariant along a run -/

theorem inSync_empty (memory : μ) : InSync ({ memory } : Workspace α μ) where
  ids := ⟨(fun hid => by cases hid), (fun hid => by cases hid)⟩
  wellFormed := fun hs => by cases hs
  handle := fun hk => by cases hk
  attached := fun hlive => by cases hlive.solver
  pinned := fun hv => by cases hv
  problem := fun hlive => by cases hlive.solver

/-- Where an operation that fails has told nobody, calm ones keep the
workspace in sync. Only a solve asks a backend. -/
theorem InSync.perform (hobservers : c.QuietObservers) {op : Operation α}
    (hbackends : ∀ l, op = .solve l → c.QuietBackends) (h : InSync ws) (hcalm : op.Calm c ws) :
    InSync (ws.perform c op).1 := by
  have hsilent : ∀ e, (ws.perform c op).2 = .error e → op.tells ws = false := by
    intro e he
    cases htells : op.tells ws with
    | false => rfl
    | true =>
      have hheard := hcalm.heard htells
      rw [he] at hheard
      cases hheard
  have hproper := hcalm.proper
  cases op with
  | setName v name =>
    exact h.setName hobservers fun e he => hsilent e (congrArg (Except.map _) he)
  | setBound side v b =>
    exact h.setBound hobservers fun e he => hsilent e (congrArg (Except.map _) he)
  | setKind v kind =>
    exact h.setKind hobservers fun e he => hsilent e (congrArg (Except.map _) he)
  | freeze v => exact h.freeze hobservers fun e he => hsilent e (congrArg (Except.map _) he)
  | unfreeze v => exact h.unfreeze hobservers fun e he => hsilent e (congrArg (Except.map _) he)
  | assign v level =>
    refine h.assign fun w hw => ?_
    rw [variableAt_assign]
    split
    · next hwv =>
      rw [hwv.1] at hw ⊢
      exact (hproper hw).symm
    · rfl
  | attach v k => exact h.attach hproper
  | detach v id => exact h.detach hproper
  | generate l => exact h.generate l
  | solve l => exact h.solve (hbackends l rfl) hproper.1 hproper.2
  | tell l v change => exact hproper.elim
  | drop l => exact h.drop l

theorem InSync.advance (hobservers : c.QuietObservers) (hbackends : c.QuietBackends)
    (h : InSync ws) {move : Move α} (hcalm : move.Calm c ws) : InSync (ws.advance c move) := by
  cases move with
  | operate op => exact h.perform hobservers (fun _ _ => hbackends) hcalm
  | newVariable spec => exact h.newVariable spec
  | newSolver model backend config =>
    refine h.newListener (fun _ => rfl) fun id s hs => ?_
    obtain rfl := Option.some.inj hs
    exact ⟨rfl, hcalm⟩
  | newObserver => exact h.newListener (fun _ => rfl) fun id s hs => by cases hs

/-- What calm moves preserve holds after a calm run. -/
theorem inSync_run (hobservers : c.QuietObservers) (hbackends : c.QuietBackends)
    {moves : List (Move α)} (hcalm : CalmRun c moves ws) (h : InSync ws) :
    InSync (ws.run c moves) := by
  induction moves generalizing ws with
  | nil => exact h
  | cons move rest ih =>
    have hfirst := h.advance hobservers hbackends hcalm.1
    exact ih hcalm.2 hfirst

/-- In every state of a calm run, every solver that is alive and has
generated has the problem that generating would give it there; so its
column for a variable is as the variable is, and its backend is asked for
this problem and no other. -/
theorem problem_eq_regenerated (hobservers : c.QuietObservers) (hbackends : c.QuietBackends)
    {memory : μ} {moves : List (Move α)} (hcalm : CalmRun c moves { memory })
    {l : ListenerRef} {s : Solver α} {g : Generated α}
    (hlive : (run c moves { memory }).Live l s g) :
    Generated.ofModel (run c moves { memory }).variableAt s.config s.model = .ok g
      ∧ ((run c moves { memory }).generate l).2 = .ok ()
      ∧ ((run c moves { memory }).generate l).1.solver? l
          = some { s with generated := some g, solution := none }
      ∧ (∀ v (i : Nat), s.offset? v = some i → g.problem.columns[i]? = some {
          name := ((run c moves { memory }).variableAt v).name
          kind := ((run c moves { memory }).variableAt v).kind
          lower := ((run c moves { memory }).variableAt v).effectiveBounds.1
          upper := ((run c moves { memory }).variableAt v).effectiveBounds.2 })
      ∧ ∀ c' : Conduct α μ,
          (∀ asked, c'.answer l g.problem asked = c.answer l g.problem asked) →
          (run c moves { memory }).solve c' l = (run c moves { memory }).solve c l := by
  have hsync := inSync_run hobservers hbackends hcalm (inSync_empty memory)
  have hproblem := hsync.problem hlive
  have hfaithful := Generated.faithful_compiled (run c moves { memory }).variableAt s.config
    s.model
  rw [← hproblem] at hfaithful
  refine ⟨?_, generate_eq_ok hlive.solver, ?_, ?_, ?_⟩
  · rw [Generated.ofModel_eq_compiled, hproblem]
  · rw [solver?_generate hlive.solver, ← hproblem]
  · intro v i hi
    rw [Solver.offset?, hlive.generated, Option.bind_some, hfaithful.offset] at hi
    exact hfaithful.column v i hi
  · intro c' hanswer
    exact solve_congr hlive.solver hlive.generated hanswer

end Workspace

/-! ## A run of two solvers over the same variables -/

/-- Both solvers generate; the second variable is given a value and frozen
at it, a new bound is held back, and the other solver is dropped. -/
def sharedRun : List (Move Exact) :=
  [.newVariable (.nonnegative "x" .integer), .newVariable ⟨"y", .infinite true, 1, .continuous⟩,
    .newSolver mergingModel ⟨"exact", true⟩ {}, .newSolver mergingModel ⟨"exact", true⟩ {},
    .newObserver, .operate (.generate ⟨0⟩), .operate (.generate ⟨1⟩),
    .operate (.attach ⟨1⟩ ⟨2, ⟨2⟩⟩), .operate (.assign ⟨1⟩ ⟨⟨0, 1⟩, .finite (1 / 2), 0⟩),
    .operate (.freeze ⟨1⟩), .operate (.setBound .upper ⟨1⟩ (.finite 3)),
    .operate (.setName ⟨1⟩ "z"), .operate (.drop ⟨1⟩)]

/-- A backend that finds nothing, and observers that do nothing. -/
def idleConduct : Conduct Exact Unit := .answering (.ofStatus .infeasible "")

theorem Workspace.calmRun_sharedRun : CalmRun idleConduct sharedRun { memory := () } :=
  ⟨trivial, trivial,
    show ∀ v ∈ mergingModel.vars, v.index < 2 by decide +kernel,
    show ∀ v ∈ mergingModel.vars, v.index < 2 by decide +kernel,
    trivial, ⟨by decide +kernel, trivial⟩, ⟨by decide +kernel, trivial⟩,
    ⟨by decide +kernel, show Workspace.handleOf? _ ⟨2⟩ = some ⟨2, ⟨2⟩⟩ by decide +kernel⟩,
    ⟨by decide +kernel, fun h => absurd h (by decide +kernel)⟩,
    ⟨by decide +kernel, trivial⟩, ⟨by decide +kernel, trivial⟩,
    ⟨by decide +kernel, trivial⟩, ⟨by decide +kernel, trivial⟩, trivial⟩

/-- The solver that is left has its column for the frozen variable at the
value it is frozen at, under the new name. -/
theorem Workspace.problem_sharedRun : ∃ s g,
    (run idleConduct sharedRun { memory := () }).Live ⟨0⟩ s g
      ∧ g.problem.columns[1]? = some {
          name := .given "z", kind := .continuous, lower := .finite (1 / 2)
          upper := .finite (1 / 2) } := by
  obtain ⟨s, hs, hchecked⟩ := (Option.any_eq_true _ _).mp (show
    ((run idleConduct sharedRun { memory := () }).solver? ⟨0⟩).any
      (fun s => s.generated.isSome && s.offset? ⟨1⟩ == some 1) = true by decide +kernel)
  rw [Bool.and_eq_true, beq_iff_eq] at hchecked
  obtain ⟨g, hg⟩ := Option.isSome_iff_exists.mp hchecked.1
  have hlive : (run idleConduct sharedRun { memory := () }).Live ⟨0⟩ s g :=
    ⟨by decide +kernel, hs, hg⟩
  obtain ⟨-, -, -, hcolumn, -⟩ := problem_eq_regenerated (fun _ _ _ ws => .refl ws)
    (fun _ _ ws => .refl ws) calmRun_sharedRun hlive
  have hname : ((run idleConduct sharedRun { memory := () }).variableAt ⟨1⟩).name
      = .given "z" := by decide +kernel
  have hkind : ((run idleConduct sharedRun { memory := () }).variableAt ⟨1⟩).kind
      = .continuous := by decide +kernel
  have hbounds : ((run idleConduct sharedRun { memory := () }).variableAt ⟨1⟩).effectiveBounds
      = (.finite (1 / 2), .finite (1 / 2)) := by decide +kernel
  refine ⟨s, g, hlive, ?_⟩
  rw [hcolumn ⟨1⟩ 1 hchecked.2, hname, hkind, hbounds]

end Milp
