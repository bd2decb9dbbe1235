/-
Milp.Proofs.Guards — what holds of attachments whatever the clients do.

A `Guard` says of each turn what it must heed in the state it is taken in,
attaching and detaching included. `Conduct.Heeds` says that the clients of a
workspace act by turns that heed the guard, to any depth of calls within
calls.

Most of what a turn is made of leaves alone who is attached to what
(`SameAttachment`). `Guard.Preserves` lists the rest, for a property of
states and a relation between a state and a later one; the relation is there
for what is found out in the middle of an operation and used at its end, as
handles of dead listeners are. What is preserved so is preserved by every
course that heeds the guard (`Guard.Preserves.course`).
-/
import Milp.Proofs.Clients
import Milp.Proofs.Retry

namespace Milp

variable {α μ : Type}

/-! ## What attachments depend on -/

/-- The identity of a listener, whether it is alive, and if it is a solver
its model and the variables it has generated for. -/
def Listener.badge (a : Listener α) :
    SolverId × Bool × Option (Model α × Option (List VariableRef)) :=
  (a.id, a.isAlive, a.solver?.map fun s => (s.model, s.generated.map Generated.vars))

theorem Listener.badge_mapSolver {f : Solver α → Solver α} (hid : ∀ s, (f s).id = s.id)
    (hmodel : ∀ s, (f s).model = s.model)
    (hvars : ∀ s, (f s).generated.map Generated.vars = s.generated.map Generated.vars)
    (a : Listener α) : (a.mapSolver f).badge = a.badge := by
  have hplan : (fun s : Solver α => ((f s).model, (f s).generated.map Generated.vars))
      = fun s => (s.model, s.generated.map Generated.vars) :=
    funext fun s => by rw [hmodel, hvars]
  rw [badge, id_mapSolver hid, isAlive_mapSolver, solver?_mapSolver, Option.map_map, badge]
  exact congrArg (fun plan => (a.id, a.isAlive, a.solver?.map plan)) hplan

/-- Handles are the same, and the listeners as far as attachments depend on
them. -/
structure Workspace.SameAttachment [Scalar α] (ws ws' : Workspace α μ) : Prop where
  size : ws'.vars.length = ws.vars.length
  handles : ∀ v, (ws'.variableAt v).handles = (ws.variableAt v).handles
  nextSolver : ws'.nextSolver = ws.nextSolver
  badge : ∀ k, (ws'.listener? k).map Listener.badge = (ws.listener? k).map Listener.badge

variable [Scalar α]

namespace Workspace

variable {ws ws' : Workspace α μ} {l : ListenerRef} {v : VariableRef}

theorem SameAttachment.refl (ws : Workspace α μ) : ws.SameAttachment ws :=
  ⟨rfl, fun _ => rfl, rfl, fun _ => rfl⟩

theorem SameAttachment.trans {ws₁ ws₂ ws₃ : Workspace α μ} (h : ws₁.SameAttachment ws₂)
    (h' : ws₂.SameAttachment ws₃) : ws₁.SameAttachment ws₃ :=
  ⟨h'.size.trans h.size, fun v => (h'.handles v).trans (h.handles v),
    h'.nextSolver.trans h.nextSolver, fun k => (h'.badge k).trans (h.badge k)⟩

theorem SameListeners.sameAttachment (h : ws.SameListeners ws')
    (hhandles : ∀ v, (ws'.variableAt v).handles = (ws.variableAt v).handles) :
    ws.SameAttachment ws' :=
  ⟨h.size, hhandles, h.nextSolver, fun k => by rw [h.listener?]⟩

theorem SameState.sameAttachment (h : ws.SameState ws') : ws.SameAttachment ws' :=
  h.sameListeners.sameAttachment fun v => by rw [h.variableAt]

/-- A change of one listener that attachments do not depend on. -/
theorem sameAttachment_updateListener {f : Listener α → Listener α}
    (hf : ∀ a, ws.listener? l = some a → (f a).badge = a.badge) :
    ws.SameAttachment (ws.updateListener l f) := by
  refine ⟨rfl, fun v => rfl, rfl, fun k => ?_⟩
  by_cases hk : k = l
  · subst hk
    rw [listener?_updateListener_self, Option.map_map]
    exact Option.map_congr hf
  · rw [listener?_updateListener_of_ne hk]

theorem sameAttachment_hold (halive : (ws.listener? l).any Listener.isAlive = true) :
    ws.SameAttachment (ws.hold l) := by
  refine sameAttachment_updateListener fun a ha => ?_
  rw [ha, Option.any_some] at halive
  have hused : ({ a with uses := a.uses + 1 } : Listener α).isAlive = a.isAlive := by
    rw [halive]
    simp [Listener.isAlive]
  rw [Listener.badge, hused]
  rfl

theorem sameAttachment_updateSolution (ws : Workspace α μ) (l : ListenerRef)
    (solution : Option (Solution α)) :
    ws.SameAttachment (ws.updateSolver l ({ · with solution })) :=
  sameAttachment_updateListener fun a _ => Listener.badge_mapSolver (by intro s; rfl)
    (by intro s; rfl) (by intro s; rfl) a

theorem sameAttachment_tellSolver (ws : Workspace α μ) (l : ListenerRef) (v : VariableRef)
    (change : Change α) : ws.SameAttachment (ws.tellSolver l v change) := by
  unfold tellSolver
  split
  · exact .refl ws
  · split
    · refine sameAttachment_updateListener fun a _ => Listener.badge_mapSolver (by intro s; rfl)
        (by intro s; rfl) (fun s => ?_) a
      simp only [Option.map_map]
      rfl
    · exact (sameState_emit ws _).sameAttachment

theorem sameAttachment_write (ws : Workspace α μ) (v : VariableRef) (store : Write α) :
    ws.SameAttachment (ws.write v store) :=
  (sameListeners_updateVariable ws v _).sameAttachment fun w =>
    handles_variableAt_write ws v w store

theorem sameAttachment_assign (ws : Workspace α μ) (v : VariableRef) (level : Level α) :
    ws.SameAttachment (ws.assign v level) := by
  refine (sameListeners_assign ws v level).sameAttachment fun w => ?_
  rw [variableAt_assign]
  split <;> rfl

theorem sameAttachment_settle (ws : Workspace α μ) (l : ListenerRef) (s : Solver α)
    (g : Generated α) (solution : Solution α) :
    ws.SameAttachment (ws.settle l s g solution) := by
  refine SameAttachment.trans ((sameListeners_settled ws s g solution).sameAttachment fun v => ?_)
    (sameAttachment_updateSolution _ l (some solution))
  rw [variableAt_emit]
  split
  · obtain ⟨assigned, hv⟩ := exists_variableAt_assignAll ws s.id g.vars solution v
    rw [hv]
  · rfl

/-- A solver is the same as far as attachments depend on it. -/
theorem SameAttachment.solver (h : ws.SameAttachment ws') {s' : Solver α}
    (hs : ws'.solver? l = some s') : ∃ s, ws.solver? l = some s ∧ s'.id = s.id
      ∧ s'.model = s.model ∧ s'.vars = s.vars := by
  obtain ⟨b, hb, hbs⟩ := Option.bind_eq_some_iff.mp hs
  have hbadge := h.badge l
  rw [hb, Option.map_some] at hbadge
  obtain ⟨a, ha, hab⟩ := Option.map_eq_some_iff.mp hbadge.symm
  obtain ⟨hid, hab⟩ := Prod.mk.inj hab
  obtain ⟨-, hplan⟩ := Prod.mk.inj hab
  rw [hbs, Option.map_some] at hplan
  obtain ⟨s, has, hsame⟩ := Option.map_eq_some_iff.mp hplan
  obtain ⟨hmodel, hvars⟩ := Prod.mk.inj hsame
  refine ⟨s, by rw [solver?, ha]; exact has, ?_, hmodel.symm, ?_⟩
  · rw [← Listener.id_of_solver? hbs, ← hid, Listener.id_of_solver? has]
  · have hshape : ∀ s : Solver α, s.vars = (s.generated.map Generated.vars).elim [] id := by
      intro s
      rw [Solver.vars]
      cases s.generated <;> rfl
    rw [hshape, hshape, hvars]

theorem SameAttachment.alive (h : ws.SameAttachment ws') (l : ListenerRef) :
    (ws'.listener? l).any Listener.isAlive = (ws.listener? l).any Listener.isAlive := by
  have hshape : ∀ ws : Workspace α μ, (ws.listener? l).any Listener.isAlive
      = ((ws.listener? l).map Listener.badge).any (·.2.1) := by
    intro ws
    rw [Option.any_map]
    rfl
  rw [hshape, hshape, h.badge]

theorem SameAttachment.sameIds (h : ws.SameAttachment ws') : ws.SameIds ws' := by
  refine ⟨h.nextSolver, fun l => ?_⟩
  have hshape : ∀ ws : Workspace α μ, ws.id? l
      = ((ws.listener? l).map Listener.badge).map (·.1) := by
    intro ws
    rw [Option.map_map]
    rfl
  rw [hshape, hshape, h.badge]

end Workspace

/-! ## Guards -/

/-- What a turn must heed in the state it is taken in. -/
abbrev Guard (α μ : Type) := Turn α μ → Workspace α μ → Prop

/-- Every turn of a course heeds a guard. -/
def Workspace.Heeded (guard : Guard α μ) (c : Conduct α μ) :
    List (Turn α μ) → Workspace α μ → Prop
  | [], _ => True
  | t :: rest, ws => guard t ws ∧ Heeded guard c rest (ws.turn c t)

/-- Clients that do nothing but remember, or that act by turns that heed a
guard; those they reach by acting heed it as well. -/
inductive Conduct.Heeds (guard : Guard α μ) : Conduct α μ → Prop
  | quiet {c : Conduct α μ} (hobservers : c.QuietObservers) (hbackends : c.QuietBackends) :
    Heeds guard c
  | acting {c : Conduct α μ} (inner : Conduct α μ) (hinner : Heeds guard inner)
    (hreceive : ∀ l v change ws, ∃ turns, ws.Heeded guard inner turns
      ∧ (c.receive l v change ws).1 = ws.course inner turns)
    (hanswer : ∀ l p ws, ∃ turns, ws.Heeded guard inner turns
      ∧ (c.answer l p ws).1 = ws.course inner turns) :
    Heeds guard c

/-- Clients keep a property and go from a state to a related one. -/
structure Conduct.Leads (c : Conduct α μ) (P : Workspace α μ → Prop)
    (R : Workspace α μ → Workspace α μ → Prop) : Prop where
  receive : ∀ l v change ws, P ws →
    P (c.receive l v change ws).1 ∧ R ws (c.receive l v change ws).1
  answer : ∀ l p ws, P ws → P (c.answer l p ws).1 ∧ R ws (c.answer l p ws).1

/-- The identities belong to handles that were found to lead to a dead
listener, or to none, at some time between two states. -/
def FoundDead (R : Workspace α μ → Workspace α μ → Prop) (ws ws' : Workspace α μ)
    (hs : List Handle) (dead : List SolverId) : Prop :=
  ∀ id ∈ dead, ∃ k ∈ hs, k.id = id ∧ ∃ found, R ws found ∧ found.isAlive k = false ∧ R found ws'

/-- A property is kept, and a relation goes from each state to the later ones,
by everything that turns under a guard are made of. -/
structure Guard.Preserves (guard : Guard α μ) (P : Workspace α μ → Prop)
    (R : Workspace α μ → Workspace α μ → Prop) : Prop where
  refl : ∀ ws, R ws ws
  trans : ∀ {ws₁ ws₂ ws₃}, R ws₁ ws₂ → R ws₂ ws₃ → R ws₁ ws₃
  same : ∀ {ws ws'}, ws.SameAttachment ws' → P ws → P ws' ∧ R ws ws'
  attach : ∀ {ws v k}, guard (.operate (.attach v k)) ws → P ws →
    P (ws.attach v k) ∧ R ws (ws.attach v k)
  detach : ∀ {ws v id}, guard (.operate (.detach v id)) ws → P ws →
    P (ws.detach v id) ∧ R ws (ws.detach v id)
  /-- Handles go that were there before and were found dead since. -/
  prune : ∀ {before ws action v dead}, P before → R before ws →
    FoundDead R before ws (before.variableAt v).handles dead → P ws →
    P (ws.prune action v dead) ∧ R ws (ws.prune action v dead)
  /-- A listener comes out of use or is given up. -/
  leave : ∀ {ws l} {f : Listener α → Listener α}, (∀ a, (f a).role = a.role) →
    (∀ a, (f a).isAlive = true → a.isAlive = true) → P ws →
    P ((ws.updateListener l f).retireIfDead l)
      ∧ R ws ((ws.updateListener l f).retireIfDead l)
  hold : ∀ {ws l}, guard (.hold l) ws → P ws → P (ws.hold l) ∧ R ws (ws.hold l)
  /-- Only solvers that may be generated or solved are used. -/
  generate : ∀ {ws l}, guard (.operate (.generate l)) ws → P ws →
    P (ws.generate l).1 ∧ R ws (ws.generate l).1
  /-- A solve begins with the solver in use, and generates it if need be. -/
  prepare : ∀ {ws l}, guard (.operate (.solve l)) ws → P ws →
    P (Workspace.prepare l ws) ∧ R ws (Workspace.prepare l ws)
  newVariable : ∀ {ws spec}, P ws → P (ws.newVariable spec).1 ∧ R ws (ws.newVariable spec).1
  newSolver : ∀ {ws model backend config}, guard (.move (.newSolver model backend config)) ws →
    P ws → P (ws.newSolver model backend config).1 ∧ R ws (ws.newSolver model backend config).1
  newObserver : ∀ {ws}, P ws → P ws.newObserver.1 ∧ R ws ws.newObserver.1

/-! ## What is preserved by a turn -/

open Workspace

/-- Telling a handle answers that its listener is dead only if it is, and then
nothing was done. -/
theorem Workspace.notify_eq_false {c : Conduct α μ} {k : Handle} {v : VariableRef}
    {change : Change α} {ws ws' : Workspace α μ}
    (h : notify c k v change ws = (ws', .ok false)) : ws.isAlive k = false ∧ ws' = ws := by
  rcases notify_cases c k v change ws with
    ⟨hdead, hleft⟩ | ⟨-, hleft | ⟨s, -, hleft⟩ | ⟨-, hleft⟩⟩
  · rw [hleft] at h
    exact ⟨hdead, (Prod.mk.inj h).1.symm⟩
  · rw [hleft] at h
    cases (Prod.mk.inj h).2
  · rw [hleft] at h
    cases (Prod.mk.inj h).2
  · rw [hleft] at h
    obtain ⟨-, hanswer⟩ := Prod.mk.inj h
    cases hreceived : (c.receive k.listener v change (ws.hold k.listener)).2 with
    | error e =>
      rw [hreceived] at hanswer
      cases hanswer
    | ok u =>
      rw [hreceived] at hanswer
      cases hanswer

namespace Guard.Preserves

variable {guard : Guard α μ} {P : Workspace α μ → Prop}
  {R : Workspace α μ → Workspace α μ → Prop} {c : Conduct α μ} {ws : Workspace α μ}
  {l : ListenerRef} {v : VariableRef}

/-- One step after another. -/
theorem step (h : guard.Preserves P R) {ws₁ ws₂ ws₃ : Workspace α μ} (hfirst : P ws₂ ∧ R ws₁ ws₂)
    (hnext : P ws₂ → P ws₃ ∧ R ws₂ ws₃) : P ws₃ ∧ R ws₁ ws₃ := by
  obtain ⟨hP, hR⟩ := hnext hfirst.1
  exact ⟨hP, h.trans hfirst.2 hR⟩

theorem release (h : guard.Preserves P R) (hP : P ws) : P (ws.release l) ∧ R ws (ws.release l) :=
  h.leave (fun _ => rfl) (fun _ => Listener.isAlive_of_released) hP

theorem drop (h : guard.Preserves P R) (hP : P ws) : P (ws.drop l) ∧ R ws (ws.drop l) :=
  h.leave (fun _ => rfl) (fun _ => Listener.isAlive_of_dropped) hP

/-! ### Telling -/

theorem notify (h : guard.Preserves P R) (hc : c.Leads P R) (k : Handle) (v : VariableRef)
    (change : Change α) (hP : P ws) :
    P (ws.notify c k v change).1 ∧ R ws (ws.notify c k v change).1 := by
  rcases notify_cases c k v change ws with
    ⟨-, hleft⟩ | ⟨halive, hleft | ⟨s, -, hleft⟩ | ⟨-, hleft⟩⟩
  · rw [hleft]
    exact ⟨hP, h.refl ws⟩
  · rw [hleft]
    exact ⟨hP, h.refl ws⟩
  · rw [hleft]
    exact h.same (sameAttachment_tellSolver ws _ v change) hP
  · rw [hleft]
    have hheld := h.same (sameAttachment_hold halive) hP
    have hacted := h.step hheld fun hP => hc.receive k.listener v change _ hP
    exact h.step hacted fun hP => h.release hP

/-- Telling the handles of a list in order. The identities that are answered
were found dead on the way. -/
theorem deliver (h : guard.Preserves P R) (hc : c.Leads P R) (action : Action) (v : VariableRef)
    (change : Change α) (hs : List Handle) (hP : P ws) :
    (P (deliver c action v change hs ws).1 ∧ R ws (deliver c action v change hs ws).1)
      ∧ ∀ dead, (deliver c action v change hs ws).2 = .ok dead →
        FoundDead R ws (deliver c action v change hs ws).1 hs dead := by
  induction hs generalizing ws with
  | nil =>
    refine ⟨⟨hP, h.refl ws⟩, fun dead hdead id hid => ?_⟩
    obtain rfl := Except.ok.inj hdead
    cases hid
  | cons k rest ih =>
    have hfirst := h.notify hc k v change hP
    unfold Workspace.deliver
    split
    · next ws₁ e hnotify =>
      rw [hnotify] at hfirst
      exact ⟨hfirst, fun dead hdead => by cases hdead⟩
    · next ws₁ hnotify =>
      rw [hnotify] at hfirst
      have hnoted := h.step hfirst fun hP => h.same (sameState_emit ws₁
        (.notified action (ws₁.nameOf v) k.id)).sameAttachment hP
      obtain ⟨hrest, hfound⟩ := ih hnoted.1
      refine ⟨h.step hnoted fun _ => hrest, fun dead hdead id hid => ?_⟩
      obtain ⟨k', hk', hid', found, hto, hgone, hfrom⟩ := hfound dead hdead id hid
      exact ⟨k', List.mem_cons_of_mem k hk', hid', found, h.trans hnoted.2 hto, hgone, hfrom⟩
    · next ws₁ hnotify =>
      obtain ⟨hdead, rfl⟩ := notify_eq_false hnotify
      obtain ⟨hrest, hfound⟩ := ih hP
      split
      · next ws₂ e hdeliver =>
        rw [hdeliver] at hrest
        exact ⟨hrest, fun dead hdead => by cases hdead⟩
      · next ws₂ others hdeliver =>
        rw [hdeliver] at hrest hfound
        refine ⟨hrest, fun dead hdead' id hid => ?_⟩
        obtain rfl := Except.ok.inj hdead'
        rcases List.mem_cons.mp hid with rfl | hid
        · exact ⟨k, List.mem_cons_self, rfl, ws₁, h.refl ws₁, hdead, hrest.2⟩
        · obtain ⟨k', hk', hid', hmore⟩ := hfound others rfl id hid
          exact ⟨k', List.mem_cons_of_mem k hk', hid', hmore⟩

theorem tellListeners (h : guard.Preserves P R) (hc : c.Leads P R) (action : Action)
    (v : VariableRef) (change : Change α) (hP : P ws) :
    P (ws.tellListeners c action v change).1 ∧ R ws (ws.tellListeners c action v change).1 := by
  obtain ⟨hdelivered, hfound⟩ := h.deliver hc action v change (ws.variableAt v).handles hP
  unfold Workspace.tellListeners
  split
  · next hdeliver =>
    rw [hdeliver] at hdelivered
    exact hdelivered
  · next hdeliver =>
    rw [hdeliver] at hdelivered hfound
    exact h.step hdelivered fun hP' => h.prune hP hdelivered.2 (hfound _ rfl) hP'

/-- Changing a variable stores something and tells listeners of it, or less. -/
theorem edit (h : guard.Preserves P R) (hc : c.Leads P R) {op : Operation α}
    (hop : op.target? = some v) (hP : P ws) : P (ws.perform c op).1 ∧ R ws (ws.perform c op).1 := by
  rcases perform_cases hop ws with ⟨-, answer, hperform⟩
      | ⟨store, -, ws', answer, hsame, hperform⟩
      | ⟨store, action, change, -, answer, hperform⟩
  · rw [hperform]
    exact ⟨hP, h.refl ws⟩
  · rw [hperform]
    exact h.same ((sameAttachment_write ws v store).trans hsame.sameAttachment) hP
  · rw [hperform]
    have hwritten := h.same (sameAttachment_write ws v store) hP
    exact h.step hwritten fun hP => h.tellListeners hc action v change hP

/-! ### Solving -/

theorem ask (h : guard.Preserves P R) (hc : c.Leads P R) (l : ListenerRef) (s : Solver α)
    (g : Generated α) (hP : P ws) : P (ws.ask c l s g).1 ∧ R ws (ws.ask c l s g).1 := by
  have hstarted := h.same (sameState_emit ws (.solveStarted s.id s.backend.name
    g.problem.columns.length g.problem.rows.length)).sameAttachment hP
  have hanswered := h.step hstarted fun hP => hc.answer l g.problem _ hP
  rcases ask_verdict c ws l s g with ⟨e, -, hask | hask⟩ | ⟨solution, -, hask⟩
  · rw [hask]
    exact ⟨hP, h.refl ws⟩
  · rw [hask]
    exact hanswered
  · rw [hask]
    exact h.step hanswered fun hP => h.same (sameAttachment_settle _ l s g solution) hP

theorem solve (h : guard.Preserves P R) (hc : c.Leads P R)
    (hguard : guard (.operate (.solve l)) ws) (hP : P ws) :
    P (ws.solve c l).1 ∧ R ws (ws.solve c l).1 := by
  have hprepared := h.prepare hguard hP
  cases hs : ws.solver? l with
  | none =>
    obtain ⟨-, hready⟩ := ensureGenerated_of_no_solver hs
    have hcleared : Workspace.prepare l ws = ws.clear l := by rw [Workspace.prepare, hready]
    rw [solve_of_no_solver hs, ← hcleared]
    exact h.step hprepared fun hP => h.release hP
  | some s =>
    obtain ⟨g, hp, hready⟩ := exists_prepared hs
    rw [solve_eq_ask c hready hp.solver rfl]
    have hasked := h.step hprepared fun hP =>
      h.ask hc l { s with generated := some g, solution := none } g hP
    exact h.step hasked fun hP => h.release hP

/-! ### Turns and courses -/

theorem turn (h : guard.Preserves P R) (hc : c.Leads P R) {t : Turn α μ} (hguard : guard t ws)
    (hP : P ws) : P (ws.turn c t) ∧ R ws (ws.turn c t) := by
  cases t with
  | move m =>
    cases m with
    | operate op =>
      cases op with
      | setName v name => exact h.edit hc rfl hP
      | setBound side v b => exact h.edit hc rfl hP
      | setKind v kind => exact h.edit hc rfl hP
      | freeze v => exact h.edit hc rfl hP
      | unfreeze v => exact h.edit hc rfl hP
      | assign v level => exact h.same (sameAttachment_assign ws v level) hP
      | attach v k => exact h.attach hguard hP
      | detach v id => exact h.detach hguard hP
      | generate l => exact h.generate hguard hP
      | solve l => exact h.solve hc hguard hP
      | tell l v change => exact h.same (sameAttachment_tellSolver ws l v change) hP
      | drop l => exact h.drop hP
    | newVariable spec => exact h.newVariable hP
    | newSolver model backend config => exact h.newSolver hguard hP
    | newObserver => exact h.newObserver hP
  | hold l => exact h.hold hguard hP
  | release l => exact h.release hP
  | note events memory => exact h.same (SameState.sameAttachment ⟨events, memory, rfl⟩) hP

/-- What clients lead to and a guard preserves, courses that heed it lead to. -/
theorem course_of_leads (h : guard.Preserves P R) (hc : c.Leads P R) {turns : List (Turn α μ)}
    (hheeded : ws.Heeded guard c turns) (hP : P ws) :
    P (ws.course c turns) ∧ R ws (ws.course c turns) := by
  induction turns generalizing ws with
  | nil => exact ⟨hP, h.refl ws⟩
  | cons t rest ih =>
    have hfirst := h.turn hc hheeded.1 hP
    exact h.step hfirst fun hP => ih hheeded.2 hP

/-- Clients that heed a guard keep what it preserves. -/
theorem leads (h : guard.Preserves P R) (hheeds : c.Heeds guard) : c.Leads P R := by
  induction hheeds with
  | quiet hobservers hbackends =>
    exact {
      receive := fun l v change ws hP => h.same (hobservers l v change ws).sameAttachment hP
      answer := fun l p ws hP => h.same (hbackends l p ws).sameAttachment hP }
  | acting inner _ hreceive hanswer ih =>
    exact {
      receive := by
        intro l v change ws hP
        obtain ⟨turns, hheeded, hleft⟩ := hreceive l v change ws
        rw [hleft]
        exact h.course_of_leads ih hheeded hP
      answer := by
        intro l p ws hP
        obtain ⟨turns, hheeded, hleft⟩ := hanswer l p ws
        rw [hleft]
        exact h.course_of_leads ih hheeded hP }

/-- What a guard preserves is kept by every course that heeds it, if the
clients heed it. -/
theorem course (h : guard.Preserves P R) (hheeds : c.Heeds guard) {turns : List (Turn α μ)}
    (hheeded : ws.Heeded guard c turns) (hP : P ws) : P (ws.course c turns) :=
  (h.course_of_leads (h.leads hheeds) hheeded hP).1

end Guard.Preserves

end Milp
