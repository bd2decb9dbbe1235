/-
Milp.Proofs.Clients — what holds whatever the clients of a workspace do.

An observer that is told of a change, and a backend that is asked for an
answer, may act on the workspace before it returns: it makes moves of its
own, and their notifications reach other clients, which act in their turn.
A `Turn` is anything that is done to a workspace, by its users or by a
client, and a course is a list of turns.

A `Rule` says which turns a statement is about, and `Conduct.Follows` that
the clients heed it as well, to any depth of calls within calls. What is
kept by the handful of writes that turns are made of (`Rule.Preserves`) is
kept by clients that follow the rule (`Rule.Preserves.keeps`) and so by
every course that heeds it (`Rule.Preserves.course`).
-/
import Milp.Proofs.Edits
import Milp.Proofs.Run

namespace Milp

variable {α μ : Type}

/-! ## Solvers go on -/

namespace Workspace

variable {ws ws' : Workspace α μ} {l : ListenerRef}

/-- Solvers stay the solvers they are, and none loses its problem. -/
structure Evolved (ws ws' : Workspace α μ) : Prop where
  solver : ∀ {l s}, ws.solver? l = some s → ∃ s', ws'.solver? l = some s' ∧ s'.id = s.id
    ∧ s'.model = s.model ∧ (s.generated.isSome = true → s'.generated.isSome = true)

theorem Evolved.of_solver? (h : ∀ l, ws'.solver? l = ws.solver? l) : ws.Evolved ws' :=
  ⟨fun hs => ⟨_, (h _).trans hs, rfl, rfl, id⟩⟩

theorem Evolved.refl (ws : Workspace α μ) : ws.Evolved ws := .of_solver? fun _ => rfl

theorem Evolved.trans {ws₁ ws₂ ws₃ : Workspace α μ} (h : ws₁.Evolved ws₂) (h' : ws₂.Evolved ws₃) :
    ws₁.Evolved ws₃ := by
  refine ⟨fun hs => ?_⟩
  obtain ⟨s₂, hs₂, hid, hmodel, hproblem⟩ := h.solver hs
  obtain ⟨s₃, hs₃, hid', hmodel', hproblem'⟩ := h'.solver hs₂
  exact ⟨s₃, hs₃, hid'.trans hid, hmodel'.trans hmodel, hproblem' ∘ hproblem⟩

theorem SameListeners.evolved (h : ws.SameListeners ws') : ws.Evolved ws' := .of_solver? h.solver?

/-- Changing one solver within what it is. -/
theorem Evolved.of_map {f : Solver α → Solver α}
    (hsolver : ∀ k, ws'.solver? k = if k = l then (ws.solver? k).map f else ws.solver? k)
    (hid : ∀ s, (f s).id = s.id) (hmodel : ∀ s, (f s).model = s.model)
    (hproblem : ∀ s, s.generated.isSome = true → (f s).generated.isSome = true) :
    ws.Evolved ws' := by
  refine ⟨fun {k s} hs => ?_⟩
  rw [hsolver, hs]
  by_cases hk : k = l
  · rw [if_pos hk]
    exact ⟨f s, rfl, hid s, hmodel s, hproblem s⟩
  · rw [if_neg hk]
    exact ⟨s, rfl, rfl, rfl, id⟩

/-- The standing of a listener is not seen in its solver. -/
theorem solver?_updateStanding {f : Listener α → Listener α} (hf : ∀ a, (f a).role = a.role)
    (ws : Workspace α μ) (l k : ListenerRef) : (ws.updateListener l f).solver? k = ws.solver? k :=
  solver?_updateListener (fun a => by rw [Listener.solver?, hf, Listener.solver?]) ws l k

theorem solver?_eq_none_of_length_le (h : ws.listeners.length ≤ l.index) :
    ws.solver? l = none := by
  rw [solver?, listener?, List.getElem?_eq_none h]
  rfl

/-- A new listener is the solver behind the one new reference, if it is one. -/
theorem solver?_newListener (ws : Workspace α μ) (role : SolverId → Role α) (k : ListenerRef) :
    (ws.newListener role).1.solver? k = if k.index = ws.listeners.length
      then ({ role := role ws.nextSolver } : Listener α).solver? else ws.solver? k := by
  rw [solver?, listener?_newListener]
  split <;> rfl

theorem solver?_newListener_cases {role : SolverId → Role α} {k : ListenerRef} {s : Solver α}
    (h : (ws.newListener role).1.solver? k = some s) :
    role ws.nextSolver = .solver s ∨ ws.solver? k = some s := by
  rw [solver?_newListener] at h
  split at h
  · rw [Listener.solver?] at h
    split at h
    · next s' hs' => exact Or.inl (hs'.trans (congrArg Role.solver (Option.some.inj h)))
    · cases h
  · exact Or.inr h

theorem evolved_newListener (ws : Workspace α μ) (role : SolverId → Role α) :
    ws.Evolved (ws.newListener role).1 := by
  refine ⟨fun {k s} hs => ⟨s, ?_, rfl, rfl, id⟩⟩
  rw [solver?_newListener, if_neg, hs]
  intro hk
  rw [solver?_eq_none_of_length_le (Nat.le_of_eq hk.symm)] at hs
  cases hs

variable [Scalar α]

/-- The solver that is told hears of the change, if there is one. -/
theorem solver?_tellSolver (ws : Workspace α μ) (l : ListenerRef) (v : VariableRef)
    (change : Change α) (k : ListenerRef) : (ws.tellSolver l v change).solver? k =
      if k = l then (ws.solver? k).map (Solver.hear v change) else ws.solver? k := by
  cases hs : ws.solver? l with
  | none =>
    have hsame : ws.tellSolver l v change = ws := by rw [tellSolver, hs]
    rw [hsame]
    split
    · next hk => rw [hk, hs, Option.map_none]
    · rfl
  | some s =>
    rw [solver?, listener?_tellSolver hs, solver?]
    split
    · cases ws.listener? k with
      | none => rfl
      | some a => exact Listener.solver?_hear v change a
    · rfl

theorem evolved_tellSolver (ws : Workspace α μ) (l : ListenerRef) (v : VariableRef)
    (change : Change α) : ws.Evolved (ws.tellSolver l v change) :=
  .of_map (solver?_tellSolver ws l v change) (fun _ => rfl) (fun _ => rfl) fun s hs => by
    rw [Solver.hear, Option.isSome_map]
    exact hs

/-- The solver that generates has the problem of its model, if there is one. -/
theorem solver?_generate_map (ws : Workspace α μ) (l k : ListenerRef) :
    (ws.generate l).1.solver? k = if k = l then (ws.solver? k).map fun s => { s with
      generated := some (Generated.compiled ws.variableAt s.config s.model), solution := none }
    else ws.solver? k := by
  cases hs : ws.solver? l with
  | none =>
    have hsame : (ws.generate l).1 = ws := by rw [generate, hs]
    rw [hsame]
    split
    · next hk => rw [hk, hs, Option.map_none]
    · rfl
  | some s =>
    by_cases hk : k = l
    · subst hk
      rw [if_pos rfl, solver?_generate hs, hs, Option.map_some]
    · rw [if_neg hk, solver?, listener?_generate hs, if_neg hk, solver?]

theorem evolved_generate (ws : Workspace α μ) (l : ListenerRef) : ws.Evolved (ws.generate l).1 :=
  .of_map (solver?_generate_map ws l) (fun _ => rfl) (fun _ => rfl) fun _ _ => rfl

theorem evolved_settle (ws : Workspace α μ) (l : ListenerRef) (s : Solver α) (g : Generated α)
    (solution : Solution α) : ws.Evolved (ws.settle l s g solution) :=
  .of_map (solver?_settle_map ws l s g solution) (fun _ => rfl) (fun _ => rfl) fun _ => id

end Workspace

variable [Scalar α]

/-! ## Courses -/

/-- One turn in the use of a workspace. -/
inductive Turn (α μ : Type) where
  | move (m : Move α)
  /-- A listener is taken into use, and cannot be notified meanwhile. -/
  | hold (l : ListenerRef)
  | release (l : ListenerRef)
  /-- A client remembers something, or adds to the record. -/
  | note (events : List (Event α)) (memory : μ)

/-- An operation as a turn. -/
abbrev Turn.operate (op : Operation α) : Turn α μ := .move (.operate op)

namespace Workspace

/-- The state after a turn. -/
def turn (c : Conduct α μ) (t : Turn α μ) (ws : Workspace α μ) : Workspace α μ :=
  match t with
  | .move m => ws.advance c m
  | .hold l => ws.hold l
  | .release l => ws.release l
  | .note events memory => { ws with events, memory }

/-- The state after a list of turns. -/
def course (c : Conduct α μ) : List (Turn α μ) → Workspace α μ → Workspace α μ
  | [], ws => ws
  | t :: rest, ws => course c rest (ws.turn c t)

theorem course_append (c : Conduct α μ) (before after : List (Turn α μ)) (ws : Workspace α μ) :
    ws.course c (before ++ after) = (ws.course c before).course c after := by
  induction before generalizing ws with
  | nil => rfl
  | cons t rest ih => exact ih _

end Workspace

/-! ## Rules -/

/-- What the turns of a course must heed, kind by kind. -/
structure Rule (α μ : Type) where
  /-- Changing a variable and telling its listeners. -/
  edit : Operation α → Workspace α μ → Prop := fun _ _ => True
  /-- What solvers may be told of a variable. -/
  tell : VariableRef → Change α → Prop := fun _ _ => True
  assign : VariableRef → Level α → Workspace α μ → Prop := fun _ _ _ => True
  /-- The solvers that may generate and solve. -/
  call : ListenerRef → Prop := fun _ => True
  /-- The listeners that may be taken into use. -/
  hold : ListenerRef → Workspace α μ → Prop := fun _ _ => True
  /-- The variables that a solve may leave, but for their handles. -/
  outcome : (VariableRef → Variable α) → Prop := fun _ => True
  spec : VariableSpec α → Prop := fun _ => True
  model : Model α → Workspace α μ → Prop := fun _ _ => True

namespace Workspace

/-- The variables apart from their handles. -/
def bareAt (ws : Workspace α μ) (v : VariableRef) : Variable α := (ws.variableAt v).bare

theorem bareAt_release (ws : Workspace α μ) (l : ListenerRef) : (ws.release l).bareAt = ws.bareAt :=
  funext (bare_variableAt_release ws l)

theorem bareAt_of_vars {ws ws' : Workspace α μ} (h : ws'.vars = ws.vars) : ws'.bareAt = ws.bareAt :=
  funext fun v => by rw [bareAt, variableAt, h, bareAt, variableAt]

theorem bareAt_generate (ws : Workspace α μ) (l : ListenerRef) :
    (ws.generate l).1.bareAt = ws.bareAt := by
  cases hs : ws.solver? l with
  | none => rw [generate, hs]
  | some s => exact funext (bare_variableAt_generate hs)

theorem bareAt_attach (ws : Workspace α μ) (v : VariableRef) (k : Handle) :
    (ws.attach v k).bareAt = ws.bareAt := by
  funext w
  rw [bareAt, variableAt_attach]
  split
  · exact Variable.bare_attach _ k
  · rfl

theorem bareAt_detach (ws : Workspace α μ) (v : VariableRef) (id : SolverId) :
    (ws.detach v id).bareAt = ws.bareAt := by
  funext w
  rw [bareAt, variableAt_detach]
  split
  · exact Variable.bare_detach _ [id]
  · rfl

theorem bareAt_prune (ws : Workspace α μ) (action : Action) (v : VariableRef)
    (dead : List SolverId) : (ws.prune action v dead).bareAt = ws.bareAt := by
  funext w
  rw [bareAt, variableAt_prune]
  split
  · exact Variable.bare_detach _ dead
  · rfl

theorem nextVariable_prune (ws : Workspace α μ) (action : Action) (v : VariableRef)
    (dead : List SolverId) : (ws.prune action v dead).nextVariable = ws.nextVariable := by
  unfold prune
  split <;> rfl

theorem length_vars_generate (ws : Workspace α μ) (l : ListenerRef) :
    (ws.generate l).1.vars.length = ws.vars.length := by
  cases hs : ws.solver? l with
  | none => rw [generate, hs]
  | some s => exact size_generate hs

/-- Taking over a solution changes levels and no more of the variables. -/
theorem exists_bareAt_settle (ws : Workspace α μ) (l : ListenerRef) (s : Solver α)
    (g : Generated α) (solution : Solution α) (v : VariableRef) :
    ∃ assigned, (ws.settle l s g solution).bareAt v = { ws.bareAt v with assigned } := by
  obtain ⟨assigned, hassigned⟩ := exists_variableAt_assignAll ws s.id g.vars solution v
  rw [bareAt, variableAt_settle]
  split
  · exact ⟨assigned, congrArg Variable.bare hassigned⟩
  · exact ⟨_, rfl⟩

end Workspace

namespace Rule

/-- A turn heeds a rule in the state it is taken in. -/
def Allows (rule : Rule α μ) (c : Conduct α μ) (t : Turn α μ) (ws : Workspace α μ) : Prop :=
  match t with
  | .move (.operate (.assign v level)) => rule.assign v level ws
  | .move (.operate (.tell _ v change)) => rule.tell v change
  | .move (.operate (.generate l)) => rule.call l
  | .move (.operate (.solve l)) =>
    rule.call l ∧ rule.hold l ws ∧ rule.outcome (ws.solve c l).1.bareAt
  | .move (.operate op) => op.target?.isSome = true → rule.edit op ws
  | .move (.newVariable spec) => rule.spec spec
  | .move (.newSolver model _ _) => rule.model model ws
  | .hold l => rule.hold l ws
  | _ => True

/-- Every turn of a course heeds a rule in the state it is taken in. -/
def AllowsAll (rule : Rule α μ) (c : Conduct α μ) : List (Turn α μ) → Workspace α μ → Prop
  | [], _ => True
  | t :: rest, ws => rule.Allows c t ws ∧ rule.AllowsAll c rest (ws.turn c t)

end Rule

/-- Clients that do nothing but remember, or that act by turns that heed a
rule wherever `C` holds; those they reach by acting follow it as well. -/
inductive Conduct.Follows (rule : Rule α μ) (C : Workspace α μ → Prop) : Conduct α μ → Prop
  | quiet {c : Conduct α μ} (hobservers : c.QuietObservers) (hbackends : c.QuietBackends) :
    Follows rule C c
  | acting {c : Conduct α μ} (inner : Conduct α μ) (hinner : Follows rule C inner)
    (hreceive : ∀ l v change ws, C ws → ∃ turns, rule.AllowsAll inner turns ws
      ∧ (c.receive l v change ws).1 = ws.course inner turns)
    (hanswer : ∀ l p ws, C ws → ∃ turns, rule.AllowsAll inner turns ws
      ∧ (c.answer l p ws).1 = ws.course inner turns) :
    Follows rule C c

/-- Clients keep a property, and solvers go on. -/
structure Conduct.Keeps (c : Conduct α μ) (P : Workspace α μ → Prop) : Prop where
  receive : ∀ l v change ws, P ws →
    P (c.receive l v change ws).1 ∧ ws.Evolved (c.receive l v change ws).1
  answer : ∀ l p ws, P ws → P (c.answer l p ws).1 ∧ ws.Evolved (c.answer l p ws).1

/-! ## What has to be shown -/

/-- A property is kept by everything that turns under a rule are made of. -/
structure Rule.Preserves (rule : Rule α μ) (P : Workspace α μ → Prop) : Prop where
  /-- Handles, the record, the counter of constraints and what clients remember. -/
  apart : ∀ {ws ws'}, ws.SameListeners ws' → ws'.nextVariable = ws.nextVariable →
    ws'.bareAt = ws.bareAt → P ws → P ws'
  /-- A listener comes out of use or dies. -/
  standing : ∀ {ws l} {f : Listener α → Listener α}, (∀ a, (f a).role = a.role) →
    (∀ a, ws.listener? l = some a → (f a).isAlive = true → a.isAlive = true) → P ws →
    P (ws.updateListener l f)
  hold : ∀ {ws l}, rule.hold l ws → P ws → P (ws.hold l)
  /-- Something is stored in a variable, and its news may be told. -/
  write : ∀ {ws op v} {e : Edit α}, op.target? = some v → rule.edit op ws →
    op.edit? (ws.variableAt v) = some e → P ws → P (ws.write v e.store)
      ∧ ∀ action change, e.news = some (action, change) → rule.tell v change
  tell : ∀ {ws l v change}, rule.tell v change → P ws → P (ws.tellSolver l v change)
  assign : ∀ {ws v level}, rule.assign v level ws → P ws → P (ws.assign v level)
  generate : ∀ {ws l}, rule.call l → P ws → P (ws.generate l).1
  /-- A solve begins with the old solution gone. -/
  forget : ∀ {ws l}, rule.call l → P ws → P (ws.updateSolver l ({ · with solution := none }))
  /-- A solution is taken over that a backend gave for the problem `g`. -/
  settle : ∀ {asked ws l s g} {solution : Solution α}, rule.call l → P asked →
    asked.solver? l = some s → s.generated = some g →
    (solution.isFeasible = true → solution.values.length = g.vars.length) →
    P ws → asked.Evolved ws → rule.outcome (ws.settle l s g solution).bareAt →
    P (ws.settle l s g solution)
  newVariable : ∀ {ws spec}, rule.spec spec → P ws → P (ws.newVariable spec).1
  newSolver : ∀ {ws model backend config}, rule.model model ws → P ws →
    P (ws.newSolver model backend config).1
  newObserver : ∀ {ws}, P ws → P ws.newObserver.1

/-! ## Telling one handle after the other -/

/-- Telling one handle: its listener is gone, or in use, or a solver that
hears of the change, or an observer that is called. -/
theorem Workspace.notify_cases (c : Conduct α μ) (k : Handle) (v : VariableRef)
    (change : Change α) (ws : Workspace α μ) :
    ((ws.listener? k.listener).any Listener.isAlive = false
        ∧ notify c k v change ws = (ws, .ok false))
      ∨ (ws.listener? k.listener).any Listener.isAlive = true
        ∧ (notify c k v change ws = (ws, .error (.busy k.id))
          ∨ (∃ s, ws.solver? k.listener = some s
            ∧ notify c k v change ws = (ws.tellSolver k.listener v change, .ok true))
          ∨ (ws.solver? k.listener = none ∧ notify c k v change ws
            = ((c.receive k.listener v change (ws.hold k.listener)).1.release k.listener,
              (c.receive k.listener v change (ws.hold k.listener)).2.map fun _ => true))) := by
  unfold notify
  split
  · next hnone =>
    rw [hnone]
    exact Or.inl ⟨rfl, rfl⟩
  · next a ha =>
    rw [ha, Option.any_some]
    split
    · next hdead => exact Or.inl ⟨by simpa using hdead, rfl⟩
    · next hlive =>
      refine Or.inr ⟨by simpa using hlive, ?_⟩
      split
      · exact Or.inl rfl
      · split
        · next s hrole =>
          refine Or.inr (Or.inl ⟨s, ?_, rfl⟩)
          rw [solver?, ha, Option.bind_some, Listener.solver?, hrole]
        · next id hrole =>
          refine Or.inr (Or.inr ⟨?_, rfl⟩)
          rw [solver?, ha, Option.bind_some, Listener.solver?, hrole]

/-- Telling the handles of a list in order: `I` holds with the handles that
are still to be told, and `E` where telling one of them fails. -/
theorem Workspace.deliver_induction {c : Conduct α μ} {v : VariableRef} {change : Change α}
    {I : List Handle → Workspace α μ → Prop} {E : Workspace α μ → Prop}
    (hemit : ∀ {hs ws} event, I hs ws → I hs (ws.emit event))
    (hok : ∀ {h rest ws}, I (h :: rest) ws → (notify c h v change ws).2.isOk = true →
      I rest (notify c h v change ws).1)
    (herror : ∀ {h rest ws}, I (h :: rest) ws → (notify c h v change ws).2.isOk = false →
      E (notify c h v change ws).1)
    (action : Action) (hs : List Handle) {ws : Workspace α μ} (h : I hs ws) :
    ((deliver c action v change hs ws).2.isOk = true ∧ I [] (deliver c action v change hs ws).1)
      ∨ ((deliver c action v change hs ws).2.isOk = false
        ∧ E (deliver c action v change hs ws).1) := by
  induction hs generalizing ws with
  | nil => exact Or.inl ⟨rfl, h⟩
  | cons k rest ih =>
    have hfirst := hok h
    have hfailed := herror h
    unfold deliver
    split
    · next ws₁ e hnotify =>
      rw [hnotify] at hfailed
      exact Or.inr ⟨rfl, hfailed rfl⟩
    · next ws₁ hnotify =>
      rw [hnotify] at hfirst
      exact ih (hemit _ (hfirst rfl))
    · next ws₁ hnotify =>
      rw [hnotify] at hfirst
      have hrest := ih (hfirst rfl)
      split
      · next ws₂ e hdeliver =>
        rw [hdeliver] at hrest
        exact hrest
      · next ws₂ dead hdeliver =>
        rw [hdeliver] at hrest
        exact hrest

/-! ## Clients that agree -/

namespace Workspace

variable {c c' : Conduct α μ} {v : VariableRef} {change : Change α}

theorem notify_congr (h : ∀ l ws, c'.receive l v change ws = c.receive l v change ws)
    (k : Handle) (ws : Workspace α μ) : notify c' k v change ws = notify c k v change ws := by
  simp only [notify, h]

/-- Telling depends on the observers only as far as they are told this very
change. -/
theorem tellListeners_congr (h : ∀ l ws, c'.receive l v change ws = c.receive l v change ws)
    (action : Action) (ws : Workspace α μ) :
    tellListeners c' action v change ws = tellListeners c action v change ws := by
  have hdeliver : ∀ hs ws,
      deliver c' action v change hs ws = deliver c action v change hs ws := by
    intro hs
    induction hs with
    | nil => exact fun _ => rfl
    | cons k rest ih =>
      intro ws
      simp only [deliver, notify_congr h, ih]
  rw [tellListeners, hdeliver, tellListeners]

/-- A solve depends on the backend only as far as it is given the problem that
is there when it is asked. -/
theorem fst_solve_congr {l : ListenerRef} {ws : Workspace α μ}
    (h : ∀ s g, (prepare l ws).solver? l = some s → s.generated = some g →
      ∀ asked, c'.answer l g.problem asked = c.answer l g.problem asked) :
    (ws.solve c' l).1 = (ws.solve c l).1 := by
  cases hs : ws.solver? l with
  | none => rw [solve_of_no_solver hs, solve_of_no_solver hs]
  | some s =>
    obtain ⟨g, hp, hready⟩ := exists_prepared hs
    rw [solve_eq_ask c' hready hp.solver rfl, solve_eq_ask c hready hp.solver rfl]
    simp only [ask, h _ g hp.solver rfl]

end Workspace

/-! ## What is kept by a turn -/

open Workspace

namespace Rule.Preserves

variable {rule : Rule α μ} {P : Workspace α μ → Prop} {c : Conduct α μ} {ws : Workspace α μ}
  {l : ListenerRef} {v : VariableRef} {change : Change α}

/-- With a property that is kept, solvers go on. -/
theorem evolved (h : rule.Preserves P) (ws₀ : Workspace α μ) :
    rule.Preserves fun ws => P ws ∧ ws₀.Evolved ws where
  apart := fun hsame hnext hbare hP =>
    ⟨h.apart hsame hnext hbare hP.1, hP.2.trans hsame.evolved⟩
  standing := fun hf hlife hP => ⟨h.standing hf hlife hP.1,
    hP.2.trans (.of_solver? (Workspace.solver?_updateStanding hf _ _))⟩
  hold := fun hhold hP => ⟨h.hold hhold hP.1,
    hP.2.trans (.of_solver? (Workspace.solver?_hold _ _))⟩
  write := fun hop hrule hedit hP => by
    obtain ⟨hwritten, hnews⟩ := h.write hop hrule hedit hP.1
    exact ⟨⟨hwritten, hP.2.trans (Workspace.sameListeners_updateVariable ..).evolved⟩, hnews⟩
  tell := fun htell hP => ⟨h.tell htell hP.1, hP.2.trans (Workspace.evolved_tellSolver ..)⟩
  assign := fun hassign hP => ⟨h.assign hassign hP.1,
    hP.2.trans (Workspace.sameListeners_assign ..).evolved⟩
  generate := fun hcall hP => ⟨h.generate hcall hP.1, hP.2.trans (Workspace.evolved_generate ..)⟩
  forget := fun hcall hP => ⟨h.forget hcall hP.1, hP.2.trans
    (.of_map (Workspace.solver?_updateSolver _ _ · _) (fun _ => rfl) (fun _ => rfl) fun _ => id)⟩
  settle := fun hcall hasked hs hg hlength hP hgone houtcome =>
    ⟨h.settle hcall hasked.1 hs hg hlength hP.1 hgone houtcome,
      hP.2.trans (Workspace.evolved_settle ..)⟩
  newVariable := fun hspec hP => ⟨h.newVariable hspec hP.1, hP.2.trans (.of_solver? fun _ => rfl)⟩
  newSolver := fun hmodel hP => ⟨h.newSolver hmodel hP.1,
    hP.2.trans (Workspace.evolved_newListener ..)⟩
  newObserver := fun hP => ⟨h.newObserver hP.1, hP.2.trans (Workspace.evolved_newListener ..)⟩

theorem of_sameState (h : rule.Preserves P) {ws' : Workspace α μ} (hsame : ws.SameState ws')
    (hP : P ws) : P ws' := by
  have hvars : ws'.vars = ws.vars ∧ ws'.nextVariable = ws.nextVariable := by
    obtain ⟨_, _, rfl⟩ := hsame
    exact ⟨rfl, rfl⟩
  exact h.apart hsame.sameListeners hvars.2 (Workspace.bareAt_of_vars hvars.1) hP

theorem retireIfDead (h : rule.Preserves P) (hP : P ws) : P (ws.retireIfDead l) :=
  h.apart (Workspace.sameListeners_retireIfDead ws l) (Workspace.nextVariable_retireIfDead ws l)
    (funext (Workspace.bare_variableAt_retireIfDead ws l)) hP

theorem release (h : rule.Preserves P) (hP : P ws) : P (ws.release l) :=
  h.retireIfDead (h.standing (fun _ => rfl) (fun _ _ => Listener.isAlive_of_released) hP)

theorem drop (h : rule.Preserves P) (hP : P ws) : P (ws.drop l) :=
  h.retireIfDead (h.standing (fun _ => rfl) (fun _ _ => Listener.isAlive_of_dropped) hP)

theorem attach (h : rule.Preserves P) {k : Handle} (hP : P ws) : P (ws.attach v k) :=
  h.apart (Workspace.sameListeners_attach ws v k) (Workspace.nextVariable_attach ws v k)
    (Workspace.bareAt_attach ws v k) hP

theorem detach (h : rule.Preserves P) {id : SolverId} (hP : P ws) : P (ws.detach v id) :=
  h.apart (Workspace.sameListeners_updateVariable ws v _) rfl (Workspace.bareAt_detach ws v id) hP

theorem prune (h : rule.Preserves P) {action : Action} {dead : List SolverId} (hP : P ws) :
    P (ws.prune action v dead) :=
  h.apart (Workspace.sameListeners_prune ws action v dead)
    (Workspace.nextVariable_prune ws action v dead) (Workspace.bareAt_prune ws action v dead) hP

/-- A listener that is alive is taken into use. -/
theorem hold_of_alive (h : rule.Preserves P)
    (halive : (ws.listener? l).any Listener.isAlive = true) (hP : P ws) : P (ws.hold l) := by
  refine h.standing (fun _ => rfl) (fun a ha _ => ?_) hP
  rw [ha] at halive
  exact halive

theorem notify (h : rule.Preserves P) (hc : c.Keeps P) (htell : rule.tell v change) {k : Handle}
    (hP : P ws) : P (ws.notify c k v change).1 := by
  rcases notify_cases c k v change ws with
    ⟨-, hleft⟩ | ⟨halive, hleft | ⟨s, -, hleft⟩ | ⟨-, hleft⟩⟩
  · rw [hleft]
    exact hP
  · rw [hleft]
    exact hP
  · rw [hleft]
    exact h.tell htell hP
  · rw [hleft]
    have hheld := h.hold_of_alive halive hP
    exact h.release (hc.receive k.listener v change _ hheld).1

theorem tellListeners (h : rule.Preserves P) (hc : c.Keeps P) (htell : rule.tell v change)
    {action : Action} (hP : P ws) : P (ws.tellListeners c action v change).1 := by
  have hdelivered : P (deliver c action v change (ws.variableAt v).handles ws).1 := by
    rcases deliver_induction (I := fun _ => P) (E := P) (fun _ => h.of_sameState ⟨_, _, rfl⟩)
      (fun hP _ => h.notify hc htell hP) (fun hP _ => h.notify hc htell hP)
      action (ws.variableAt v).handles hP with ⟨-, hleft⟩ | ⟨-, hleft⟩
    · exact hleft
    · exact hleft
  unfold Workspace.tellListeners
  split
  · next hdeliver =>
    rw [hdeliver] at hdelivered
    exact hdelivered
  · next hdeliver =>
    rw [hdeliver] at hdelivered
    exact h.prune hdelivered

/-- Changing a variable stores something and tells listeners of it, or less. -/
theorem edit (h : rule.Preserves P) (hc : c.Keeps P) {op : Operation α} (hop : op.target? = some v)
    (hrule : rule.edit op ws) (hP : P ws) : P (ws.perform c op).1 := by
  rcases perform_cases hop ws with ⟨-, answer, hperform⟩
      | ⟨store, hedit, ws', answer, hsame, hperform⟩
      | ⟨store, action, change, hedit, answer, hperform⟩
  · rw [hperform]
    exact hP
  · rw [hperform]
    exact h.of_sameState hsame (h.write hop hrule hedit hP).1
  · obtain ⟨hwritten, hnews⟩ := h.write hop hrule hedit hP
    rw [hperform]
    exact h.tellListeners hc (hnews action change rfl) hwritten

/-! ### Solving -/

theorem clear (h : rule.Preserves P) (hcall : rule.call l) (hhold : rule.hold l ws) (hP : P ws) :
    P (ws.clear l) :=
  h.forget hcall (h.hold hhold hP)

theorem prepare (h : rule.Preserves P) (hcall : rule.call l) (hhold : rule.hold l ws)
    (hP : P ws) : P (prepare l ws) := by
  have hcleared := h.clear hcall hhold hP
  rcases prepare_cases l ws with hprepare | hprepare
  · rw [hprepare]
    exact hcleared
  · rw [hprepare]
    exact h.generate hcall hcleared

theorem ask (h : rule.Preserves P) (hc : c.Keeps P) (hcall : rule.call l) {s : Solver α}
    {g : Generated α} (hs : ws.solver? l = some s) (hg : s.generated = some g)
    (houtcome : rule.outcome (ws.ask c l s g).1.bareAt) (hP : P ws) : P (ws.ask c l s g).1 := by
  have hstarted := sameState_emit ws (.solveStarted s.id s.backend.name
    g.problem.columns.length g.problem.rows.length)
  obtain ⟨hanswered, hgone⟩ := hc.answer l g.problem _ (h.of_sameState hstarted hP)
  rcases ask_verdict c ws l s g with ⟨e, -, hask | hask⟩ | ⟨solution, hjudge, hask⟩
  · rw [hask]
    exact hP
  · rw [hask]
    exact hanswered
  · rw [hask] at houtcome ⊢
    exact h.settle hcall hP hs hg (Solver.length_values_of_judge hjudge) hanswered
      (hstarted.sameListeners.evolved.trans hgone) houtcome

theorem solve (h : rule.Preserves P) (hc : c.Keeps P) (hcall : rule.call l)
    (hhold : rule.hold l ws) (houtcome : rule.outcome (ws.solve c l).1.bareAt) (hP : P ws) :
    P (ws.solve c l).1 := by
  cases hs : ws.solver? l with
  | none =>
    rw [solve_of_no_solver hs]
    exact h.release (h.clear hcall hhold hP)
  | some s =>
    obtain ⟨g, hp, hready⟩ := exists_prepared hs
    rw [solve_eq_ask c hready hp.solver rfl] at houtcome ⊢
    refine h.release (h.ask hc hcall hp.solver rfl ?_ (h.prepare hcall hhold hP))
    rw [← bareAt_release _ l]
    exact houtcome

/-! ### Turns and courses -/

theorem turn (h : rule.Preserves P) (hc : c.Keeps P) {t : Turn α μ} (hallowed : rule.Allows c t ws)
    (hP : P ws) : P (ws.turn c t) := by
  cases t with
  | move m =>
    cases m with
    | operate op =>
      cases op with
      | setName v name => exact h.edit hc rfl (hallowed rfl) hP
      | setBound side v b => exact h.edit hc rfl (hallowed rfl) hP
      | setKind v kind => exact h.edit hc rfl (hallowed rfl) hP
      | freeze v => exact h.edit hc rfl (hallowed rfl) hP
      | unfreeze v => exact h.edit hc rfl (hallowed rfl) hP
      | assign v level => exact h.assign hallowed hP
      | attach v k => exact h.attach hP
      | detach v id => exact h.detach hP
      | generate l => exact h.generate hallowed hP
      | solve l => exact h.solve hc hallowed.1 hallowed.2.1 hallowed.2.2 hP
      | tell l v change => exact h.tell hallowed hP
      | drop l => exact h.drop hP
    | newVariable spec => exact h.newVariable hallowed hP
    | newSolver model backend config => exact h.newSolver hallowed hP
    | newObserver => exact h.newObserver hP
  | hold l => exact h.hold hallowed hP
  | release l => exact h.release hP
  | note events memory => exact h.of_sameState ⟨_, _, rfl⟩ hP

/-- What clients keep and a rule preserves is kept by courses that heed it. -/
theorem course_of_keeps (h : rule.Preserves P) (hc : c.Keeps P) {turns : List (Turn α μ)}
    (hallowed : rule.AllowsAll c turns ws) (hP : P ws) : P (ws.course c turns) := by
  induction turns generalizing ws with
  | nil => exact hP
  | cons t rest ih =>
    have hfirst := h.turn hc hallowed.1 hP
    exact ih hallowed.2 hfirst

omit [Scalar α] in
/-- Clients that keep a property go on with solvers as well. -/
theorem keeps_evolved (hc : c.Keeps P) (ws₀ : Workspace α μ) :
    c.Keeps fun ws => P ws ∧ ws₀.Evolved ws where
  receive := by
    intro l v change ws hP
    obtain ⟨hleft, hgone⟩ := hc.receive l v change ws hP.1
    exact ⟨⟨hleft, hP.2.trans hgone⟩, hgone⟩
  answer := by
    intro l p ws hP
    obtain ⟨hleft, hgone⟩ := hc.answer l p ws hP.1
    exact ⟨⟨hleft, hP.2.trans hgone⟩, hgone⟩

/-- Clients that follow a rule keep what it preserves. -/
theorem keeps (h : rule.Preserves P) {C : Workspace α μ → Prop} (hC : ∀ {ws}, P ws → C ws)
    (hfollows : c.Follows rule C) : c.Keeps P := by
  induction hfollows with
  | quiet hobservers hbackends =>
    exact {
      receive := fun l v change ws hP => ⟨h.of_sameState (hobservers l v change ws) hP,
        (hobservers l v change ws).sameListeners.evolved⟩
      answer := fun l p ws hP => ⟨h.of_sameState (hbackends l p ws) hP,
        (hbackends l p ws).sameListeners.evolved⟩ }
  | acting inner _ hreceive hanswer ih =>
    have hcourse : ∀ {turns ws}, rule.AllowsAll inner turns ws → P ws →
        P (ws.course inner turns) ∧ ws.Evolved (ws.course inner turns) :=
      fun hallowed hP => (h.evolved _).course_of_keeps (keeps_evolved ih _) hallowed
        ⟨hP, .refl _⟩
    exact {
      receive := by
        intro l v change ws hP
        obtain ⟨turns, hallowed, hleft⟩ := hreceive l v change ws (hC hP)
        rw [hleft]
        exact hcourse hallowed hP
      answer := by
        intro l p ws hP
        obtain ⟨turns, hallowed, hleft⟩ := hanswer l p ws (hC hP)
        rw [hleft]
        exact hcourse hallowed hP }

/-- What a rule preserves is kept by every course that heeds it, if the
clients follow it. -/
theorem course (h : rule.Preserves P) {C : Workspace α μ → Prop} (hC : ∀ {ws}, P ws → C ws)
    (hfollows : c.Follows rule C) {turns : List (Turn α μ)}
    (hallowed : rule.AllowsAll c turns ws) (hP : P ws) : P (ws.course c turns) :=
  h.course_of_keeps (h.keeps hC hfollows) hallowed hP

end Rule.Preserves

end Milp
