/-
Milp.Proofs.Sync — solvers that are in step with their variables.

A workspace is in sync (`InSync`) when the problem of every solver that is
alive is the one its model would give now. What carries this along is in
the other fields: the solver is attached to each of its variables, so a
change of one reaches it; every handle leads to the listener it is named
after, and no two listeners share an identity, so telling the handles of a
variable reaches that solver and pruning takes no handle of it; and a frozen
variable has a value, so its column stays where the freeze put it.

Each theorem here says of one kind of change that it keeps the workspace in
sync: a change of variables that no column shows (`of_sameListeners`), one
that is told (`tell`), a change of levels (`assigned`), generating, and the
uses and ends of listeners.
-/
import Milp.Proofs.Notification

namespace Milp

variable {α μ : Type}

namespace Workspace

/-! ## Identities -/

/-- The identity of the listener behind a reference. -/
def id? (ws : Workspace α μ) (l : ListenerRef) : Option SolverId :=
  (ws.listener? l).map Listener.id

/-- The listeners and their identities are the same; what they keep may
differ. -/
structure SameIds (ws ws' : Workspace α μ) : Prop where
  nextSolver : ws'.nextSolver = ws.nextSolver
  id? : ∀ l, ws'.id? l = ws.id? l

variable {ws ws' : Workspace α μ} {l : ListenerRef} {s : Solver α} {g : Generated α}
  {v : VariableRef}

theorem SameListeners.sameIds (h : SameListeners ws ws') : SameIds ws ws' :=
  ⟨h.nextSolver, fun l => by rw [Workspace.id?, h.listener?, Workspace.id?]⟩

theorem SameIds.trans {ws'' : Workspace α μ} (h : SameIds ws ws') (h' : SameIds ws' ws'') :
    SameIds ws ws'' :=
  ⟨h'.nextSolver.trans h.nextSolver, fun l => (h'.id? l).trans (h.id? l)⟩

theorem SameIds.handleOf? (h : SameIds ws ws') (l : ListenerRef) :
    ws'.handleOf? l = ws.handleOf? l := by
  have hshape : ∀ ws : Workspace α μ, ws.handleOf? l = (ws.id? l).map fun id => ⟨id, l⟩ := by
    intro ws
    rw [Workspace.handleOf?, Workspace.id?, Option.map_map]
    rfl
  rw [hshape, hshape, h.id?]

theorem sameIds_updateListener {f : Listener α → Listener α} (hf : ∀ a, (f a).id = a.id)
    (ws : Workspace α μ) (l : ListenerRef) : SameIds ws (ws.updateListener l f) := by
  refine ⟨rfl, fun k => ?_⟩
  by_cases hk : k = l
  · subst hk
    rw [id?, listener?_updateListener_self, Option.map_map, id?]
    exact Option.map_congr fun a _ => hf a
  · rw [id?, listener?_updateListener_of_ne hk, id?]

theorem Told.sameIds {change : Change α} {hs : List Handle} (h : Told v change hs ws ws') :
    SameIds ws ws' := by
  refine ⟨h.nextSolver, fun k => ?_⟩
  rw [id?, h.listener, Option.map_map, id?]
  refine Option.map_congr fun a _ => ?_
  rw [Function.comp_apply]
  split
  · exact Listener.id_hear v change a
  · rfl

/-- Identities are drawn once and never twice. -/
structure DistinctIds (ws : Workspace α μ) : Prop where
  lt : ∀ {l id}, ws.id? l = some id → id < ws.nextSolver
  inj : ∀ {l k id}, ws.id? l = some id → ws.id? k = some id → l = k

theorem DistinctIds.of_sameIds (h : DistinctIds ws) (hsame : SameIds ws ws') :
    DistinctIds ws' where
  lt := by
    intro l id hid
    rw [hsame.id?] at hid
    rw [hsame.nextSolver]
    exact h.lt hid
  inj := by
    intro l k id hl hk
    rw [hsame.id?] at hl hk
    exact h.inj hl hk

theorem id?_newListener {role : SolverId → Role α}
    (hid : ∀ id, Listener.id { role := role id } = id) (k : ListenerRef) :
    (ws.newListener role).1.id? k =
      if k.index = ws.listeners.length then some ws.nextSolver else ws.id? k := by
  rw [id?, listener?_newListener ws role]
  split
  · rw [Option.map_some, hid]
  · rfl

/-- A new listener has a fresh identity. -/
theorem DistinctIds.newListener (h : DistinctIds ws) {role : SolverId → Role α}
    (hid : ∀ id, Listener.id { role := role id } = id) :
    DistinctIds (ws.newListener role).1 where
  lt := by
    intro k id hk
    rw [id?_newListener hid] at hk
    change id < ws.nextSolver + 1
    split at hk
    · rw [← Option.some.inj hk]
      exact Nat.lt_succ_self _
    · exact Nat.lt_succ_of_lt (h.lt hk)
  inj := by
    intro l k id hl hk
    rw [id?_newListener hid] at hl hk
    split at hl
    · next hnewl =>
      split at hk
      · next hnewk =>
        obtain ⟨i⟩ := l
        obtain ⟨j⟩ := k
        simp only at hnewl hnewk
        rw [hnewl, hnewk]
      · have hlt := h.lt hk
        rw [← Option.some.inj hl] at hlt
        exact absurd hlt (Nat.lt_irrefl _)
    · split at hk
      · have hlt := h.lt hl
        rw [← Option.some.inj hk] at hlt
        exact absurd hlt (Nat.lt_irrefl _)
      · exact h.inj hl hk

theorem id?_of_solver? (h : ws.solver? l = some s) : ws.id? l = some s.id := by
  obtain ⟨a, ha, hs⟩ := Option.bind_eq_some_iff.mp h
  rw [id?, ha, Option.map_some, Listener.id_of_solver? hs]

theorem handleOf?_of_solver? (h : ws.solver? l = some s) : ws.handleOf? l = some ⟨s.id, l⟩ := by
  obtain ⟨a, ha, hs⟩ := Option.bind_eq_some_iff.mp h
  rw [handleOf?, ha, Option.map_some, Listener.id_of_solver? hs]

theorem id?_of_handleOf? {h : Handle} (hh : ws.handleOf? h.listener = some h) :
    ws.id? h.listener = some h.id := by
  obtain ⟨a, ha, hshape⟩ := Option.map_eq_some_iff.mp hh
  rw [id?, ha, ← hshape, Option.map_some]

/-! ## The invariant -/

/-- A solver that is alive, and the problem it has generated. -/
structure Live (ws : Workspace α μ) (l : ListenerRef) (s : Solver α) (g : Generated α) : Prop where
  alive : (ws.listener? l).any Listener.isAlive = true
  solver : ws.solver? l = some s
  generated : s.generated = some g

theorem SameListeners.live (h : SameListeners ws ws') (hlive : ws'.Live l s g) : ws.Live l s g :=
  ⟨by rw [← h.listener?]; exact hlive.alive, by rw [← h.solver?]; exact hlive.solver,
    hlive.generated⟩

/-- A level is not shown in a column, unless the variable is frozen; then
only the value is. -/
theorem columnOf_assigned {x : Variable α} {assigned : Option (Level α)}
    (h : x.freeze.isFrozen = true → assigned.map Level.value = x.assigned.map Level.value) :
    Generated.columnOf { x with assigned := assigned } = Generated.columnOf x := by
  have hbounds : { x with assigned := assigned : Variable α }.effectiveBounds
      = x.effectiveBounds := by
    cases hf : x.freeze.isFrozen with
    | false =>
      rw [Variable.effectiveBounds_of_not_frozen (x := x) hf]
      exact Variable.effectiveBounds_of_not_frozen hf
    | true =>
      have hvalue := h hf
      cases hx : x.assigned with
      | none =>
        rw [hx, Option.map_none, Option.map_eq_none_iff] at hvalue
        simp only [Variable.effectiveBounds, hx, hvalue]
      | some level =>
        rw [hx, Option.map_some] at hvalue
        obtain ⟨level', hlevel', hsame⟩ := Option.map_eq_some_iff.mp hvalue
        rw [Variable.effectiveBounds_of_frozen hf hx,
          Variable.effectiveBounds_of_frozen (x := { x with assigned := assigned }) hf hlevel',
          hsame]
  simp only [Generated.columnOf, hbounds]

/-- Every solver that is alive has the problem its model would give now. -/
structure InSync [Scalar α] (ws : Workspace α μ) : Prop where
  ids : ws.DistinctIds
  wellFormed : ∀ {l s}, ws.solver? l = some s → s.WellFormed ws.vars.length
  /-- A handle is attached under the identity of its listener. -/
  handle : ∀ {v h}, h ∈ (ws.variableAt v).handles → ws.handleOf? h.listener = some h
  attached : ∀ {l s g v}, ws.Live l s g → v ∈ g.vars → (ws.variableAt v).isAttached s.id = true
  /-- A frozen variable has the value it is pinned to. -/
  pinned : ∀ {v}, (ws.variableAt v).freeze.isFrozen = true →
    (ws.variableAt v).assigned.isSome = true
  problem : ∀ {l s g}, ws.Live l s g → g = Generated.compiled ws.variableAt s.config s.model

variable [Scalar α]

theorem InSync.vars_eq (h : InSync ws) (hlive : ws.Live l s g) : g.vars = s.model.vars :=
  (h.wellFormed hlive.solver).vars g hlive.generated

theorem InSync.index_lt (h : InSync ws) (hlive : ws.Live l s g) (hv : v ∈ g.vars) :
    v.index < ws.vars.length :=
  (h.wellFormed hlive.solver).inRange v (h.vars_eq hlive ▸ hv)

/-- The solver attached under an identity is the one behind the handle. -/
theorem InSync.exists_handle (h : InSync ws) (hlive : ws.Live l s g) (hv : v ∈ g.vars) :
    ∃ k ∈ (ws.variableAt v).handles, k.id = s.id ∧ k.listener = l := by
  obtain ⟨k, hk, hid⟩ := List.any_eq_true.mp (h.attached hlive hv)
  have hkid : k.id = s.id := by simpa using hid
  refine ⟨k, hk, hkid, h.ids.inj (id?_of_handleOf? (h.handle hk)) ?_⟩
  rw [hkid]
  exact id?_of_solver? hlive.solver

/-! ## Changes of variables -/

/-- A change that no column shows, and that takes no handle of a solver from
its variables. -/
theorem InSync.of_sameListeners (h : InSync ws) (hsame : SameListeners ws ws')
    (hcolumn : ∀ v, Generated.columnOf (ws'.variableAt v) = Generated.columnOf (ws.variableAt v))
    (hhandle : ∀ {v k}, k ∈ (ws'.variableAt v).handles → ws.handleOf? k.listener = some k)
    (hattached : ∀ {l s g v}, ws.Live l s g → v ∈ g.vars →
      (ws'.variableAt v).isAttached s.id = true)
    (hpinned : ∀ {v}, (ws'.variableAt v).freeze.isFrozen = true →
      (ws'.variableAt v).assigned.isSome = true) : InSync ws' where
  ids := h.ids.of_sameIds hsame.sameIds
  wellFormed := by
    intro l s hs
    rw [hsame.solver?] at hs
    rw [hsame.size]
    exact h.wellFormed hs
  handle := by
    intro v k hk
    rw [hsame.sameIds.handleOf?]
    exact hhandle hk
  attached := fun hlive hv => hattached (hsame.live hlive) hv
  pinned := hpinned
  problem := by
    intro l s g hlive
    rw [h.problem (hsame.live hlive)]
    exact Generated.compiled_congr fun v _ => (hcolumn v).symm

/-- A change that no column shows, and that leaves the handles alone. -/
theorem InSync.of_sameHandles (h : InSync ws) (hsame : SameListeners ws ws')
    (hcolumn : ∀ v, Generated.columnOf (ws'.variableAt v) = Generated.columnOf (ws.variableAt v))
    (hhandles : ∀ v, (ws'.variableAt v).handles = (ws.variableAt v).handles)
    (hpinned : ∀ {v}, (ws'.variableAt v).freeze.isFrozen = true →
      (ws'.variableAt v).assigned.isSome = true) : InSync ws' := by
  refine h.of_sameListeners hsame hcolumn ?_ ?_ hpinned
  · intro v k hk
    rw [hhandles] at hk
    exact h.handle hk
  · intro l s g v hlive hv
    rw [Variable.isAttached, hhandles]
    exact h.attached hlive hv

theorem InSync.of_sameState (h : InSync ws) (hsame : SameState ws ws') : InSync ws' :=
  h.of_sameHandles hsame.sameListeners (fun v => by rw [hsame.variableAt])
    (fun v => by rw [hsame.variableAt]) (fun {v} hv => by
      rw [hsame.variableAt] at hv ⊢
      exact h.pinned hv)

/-- New levels, with the same values for the frozen variables. -/
theorem InSync.assigned (h : InSync ws) (hsame : SameListeners ws ws')
    (hlevels : ∀ v, ∃ assigned, ws'.variableAt v = { ws.variableAt v with assigned := assigned })
    (hpins : ∀ v, (ws.variableAt v).freeze.isFrozen = true →
      (ws'.variableAt v).assigned.map Level.value
        = (ws.variableAt v).assigned.map Level.value) : InSync ws' := by
  refine h.of_sameHandles hsame ?_ ?_ ?_
  · intro v
    obtain ⟨assigned, hv⟩ := hlevels v
    have hpin := hpins v
    rw [hv] at hpin ⊢
    exact columnOf_assigned hpin
  · intro v
    obtain ⟨assigned, hv⟩ := hlevels v
    rw [hv]
  · intro v hfrozen
    obtain ⟨assigned, hv⟩ := hlevels v
    have hfrozen' : (ws.variableAt v).freeze.isFrozen = true := by
      rw [hv] at hfrozen
      exact hfrozen
    rw [← Option.isSome_map (f := Level.value), hpins v hfrozen', Option.isSome_map]
    exact h.pinned hfrozen'

/-! ## A change that is told -/

/-- Of a solver that is alive, telling leaves what it is when it has heard of
the change: it is attached to the variable, or has no column for it. -/
theorem InSync.exists_live_of_told (h : InSync ws) {change : Change α}
    (htold : ∀ k, ws'.listener? k = (ws.listener? k).map fun a =>
      if a.isAlive = true ∧ k ∈ (ws.variableAt v).handles.map Handle.listener
      then a.hear v change else a) (hlive : ws'.Live l s g) :
    ∃ s₀ g₀, ws.Live l s₀ g₀ ∧ s.id = s₀.id ∧ s.model = s₀.model ∧ s.config = s₀.config
      ∧ g = g₀.hear v change := by
  obtain ⟨b, hb, hs⟩ := Option.bind_eq_some_iff.mp hlive.solver
  have hlistener := htold l
  rw [hb] at hlistener
  obtain ⟨a, ha, hab⟩ := Option.map_eq_some_iff.mp hlistener.symm
  have halive : a.isAlive = true := by
    have hbalive := hlive.alive
    rw [hb, Option.any_some, ← hab] at hbalive
    split at hbalive
    · rw [← Listener.isAlive_hear v change a]
      exact hbalive
    · exact hbalive
  have hwsalive : (ws.listener? l).any Listener.isAlive = true := by
    rw [ha]
    exact halive
  by_cases hmem : l ∈ (ws.variableAt v).handles.map Handle.listener
  · rw [if_pos ⟨halive, hmem⟩] at hab
    rw [← hab, Listener.solver?_hear] at hs
    obtain ⟨s₀, hs₀, rfl⟩ := Option.map_eq_some_iff.mp hs
    obtain ⟨g₀, hg₀, rfl⟩ := Option.map_eq_some_iff.mp hlive.generated
    exact ⟨s₀, g₀, ⟨hwsalive, by rw [solver?, ha]; exact hs₀, hg₀⟩, rfl, rfl, rfl, rfl⟩
  · rw [if_neg fun hboth => hmem hboth.2] at hab
    subst hab
    have hlive₀ : ws.Live l s g := ⟨hwsalive, by rw [solver?, ha]; exact hs, hlive.generated⟩
    refine ⟨s, g, hlive₀, rfl, rfl, rfl, (Generated.hear_of_not_mem (fun hv => ?_) change).symm⟩
    obtain ⟨k, hk, -, hkl⟩ := h.exists_handle hlive₀ hv
    exact hmem (List.mem_map.mpr ⟨k, hk, hkl⟩)

/-- What is told changes no more of a solver than columns. -/
theorem InSync.wellFormed_of_told (h : InSync ws) {change : Change α} {hs : List Handle}
    (htold : ∀ k, ws'.listener? k = (ws.listener? k).map fun a =>
      if a.isAlive = true ∧ k ∈ hs.map Handle.listener then a.hear v change else a)
    (hsolver : ws'.solver? l = some s) : s.WellFormed ws.vars.length := by
  obtain ⟨b, hb, hbs⟩ := Option.bind_eq_some_iff.mp hsolver
  have hlistener := htold l
  rw [hb] at hlistener
  obtain ⟨a, ha, hab⟩ := Option.map_eq_some_iff.mp hlistener.symm
  split at hab
  · rw [← hab, Listener.solver?_hear] at hbs
    obtain ⟨s₀, hs₀, rfl⟩ := Option.map_eq_some_iff.mp hbs
    have hwell := h.wellFormed (show ws.solver? l = some s₀ by rw [solver?, ha]; exact hs₀)
    refine ⟨hwell.inRange, fun g hg => ?_⟩
    obtain ⟨g₀, hg₀, rfl⟩ := Option.map_eq_some_iff.mp hg
    rw [Generated.vars_hear]
    exact hwell.vars g₀ hg₀
  · subst hab
    exact h.wellFormed (by rw [solver?, ha]; exact hbs)

/-- A handle under the identity of a solver leads to this solver, so those
of dead listeners have other identities. -/
theorem InSync.id_not_mem_dead (h : InSync ws) (hlive : ws.Live l s g) {dead : List SolverId}
    (hdead : ∀ id ∈ dead, ∃ k ∈ (ws.variableAt v).handles, k.id = id ∧ ws.isAlive k = false) :
    s.id ∉ dead := by
  intro hmem
  obtain ⟨k, hk, hkid, hkdead⟩ := hdead s.id hmem
  have hkl : k.listener = l := by
    refine h.ids.inj (id?_of_handleOf? (h.handle hk)) ?_
    rw [hkid]
    exact id?_of_solver? hlive.solver
  rw [isAlive, hkl, hlive.alive] at hkdead
  cases hkdead

/-- A variable changes, and its listeners are told. -/
theorem InSync.tell {c : Conduct α μ} (hquiet : c.QuietObservers) (h : InSync ws)
    {ws₁ : Workspace α μ} (hsame : SameListeners ws ws₁)
    (hothers : ∀ w, w ≠ v → ws₁.variableAt w = ws.variableAt w) {change : Change α}
    (hcolumn : v.index < ws.vars.length → Generated.columnOf (ws₁.variableAt v)
      = (Generated.columnOf (ws.variableAt v)).apply change)
    (hhandles : (ws₁.variableAt v).handles = (ws.variableAt v).handles)
    (hpinned : (ws₁.variableAt v).freeze.isFrozen = true →
      (ws₁.variableAt v).assigned.isSome = true) {action : Action}
    (hok : ws₁.tellListeners c action v change = (ws', .ok ())) : InSync ws' := by
  obtain ⟨told, dead, htold, hdead, rfl⟩ := tellListeners_ok hquiet hok
  have hlistener : ∀ k, told.listener? k = (ws.listener? k).map fun a =>
      if a.isAlive = true ∧ k ∈ (ws.variableAt v).handles.map Handle.listener
      then a.hear v change else a := by
    intro k
    rw [htold.listener, hsame.listener?, hhandles]
  have hdead' : ∀ id ∈ dead, ∃ k ∈ (ws.variableAt v).handles,
      k.id = id ∧ ws.isAlive k = false := by
    intro id hid
    obtain ⟨k, hk, hkid, hkdead⟩ := hdead id hid
    rw [isAlive, hsame.listener?] at hkdead
    exact ⟨k, hhandles ▸ hk, hkid, hkdead⟩
  have hprune := sameListeners_prune told action v dead
  have hids : SameIds ws (told.prune action v dead) :=
    hsame.sameIds.trans (htold.sameIds.trans hprune.sameIds)
  have hsize : (told.prune action v dead).vars.length = ws.vars.length :=
    hprune.size.trans ((congrArg List.length htold.vars).trans hsame.size)
  have hself : (told.prune action v dead).variableAt v = (ws₁.variableAt v).detach dead := by
    rw [variableAt_prune, if_pos rfl, variableAt, htold.vars]
    rfl
  have hrest : ∀ w, w ≠ v → (told.prune action v dead).variableAt w = ws.variableAt w := by
    intro w hw
    rw [variableAt_prune, if_neg hw, ← hothers w hw, variableAt, htold.vars]
    rfl
  exact {
    ids := h.ids.of_sameIds hids
    wellFormed := by
      intro l s hs
      rw [hprune.solver?] at hs
      rw [hsize]
      exact h.wellFormed_of_told hlistener hs
    handle := by
      intro w k hk
      rw [hids.handleOf?]
      by_cases hw : w = v
      · rw [hw, hself, Variable.mem_handles_detach, hhandles] at hk
        exact h.handle hk.1
      · rw [hrest w hw] at hk
        exact h.handle hk
    attached := by
      intro l s g w hlive hw
      obtain ⟨s₀, g₀, hlive₀, hid, -, -, rfl⟩ := h.exists_live_of_told hlistener
        (hprune.live hlive)
      rw [Generated.vars_hear] at hw
      rw [hid]
      have hattached := h.attached hlive₀ hw
      by_cases hwv : w = v
      · subst hwv
        rw [hself, Variable.isAttached_detach, Variable.isAttached, hhandles]
        have hsurvives : s₀.id ∉ dead := h.id_not_mem_dead hlive₀ hdead'
        rw [Variable.isAttached] at hattached
        rw [hattached]
        simpa using hsurvives
      · rw [hrest w hwv]
        exact hattached
    pinned := by
      intro w hw
      by_cases hwv : w = v
      · rw [hwv, hself] at hw ⊢
        exact hpinned hw
      · rw [hrest w hwv] at hw ⊢
        exact h.pinned hw
    problem := by
      intro l s g hlive
      obtain ⟨s₀, g₀, hlive₀, -, hmodel, hconfig, rfl⟩ := h.exists_live_of_told hlistener
        (hprune.live hlive)
      rw [hmodel, hconfig, h.problem hlive₀]
      refine Generated.hear_compiled ?_ ?_
      · intro w _ hwv
        rw [hrest w hwv]
      · intro hv
        rw [hself]
        exact hcolumn ((h.wellFormed hlive₀.solver).inRange v hv) }

/-! ## Changes of listeners -/

/-- A change of a listener that neither brings it to life nor concerns its
problem. -/
theorem InSync.updateListener (h : InSync ws) {f : Listener α → Listener α}
    (hid : ∀ a, (f a).id = a.id)
    (halive : ∀ a, ws.listener? l = some a → (f a).isAlive = true → a.isAlive = true)
    (hsolver : ∀ a s, (f a).solver? = some s → ∃ s₀, a.solver? = some s₀ ∧ s.id = s₀.id
      ∧ s.model = s₀.model ∧ s.config = s₀.config ∧ s.generated = s₀.generated) :
    InSync (ws.updateListener l f) := by
  have hids := sameIds_updateListener hid ws l
  have hback : ∀ {k s}, (ws.updateListener l f).solver? k = some s → ∃ s₀,
      ws.solver? k = some s₀ ∧ s.id = s₀.id ∧ s.model = s₀.model ∧ s.config = s₀.config
        ∧ s.generated = s₀.generated := by
    intro k s hs
    by_cases hk : k = l
    · subst hk
      rw [solver?, listener?_updateListener_self] at hs
      obtain ⟨b, hb, hs⟩ := Option.bind_eq_some_iff.mp hs
      obtain ⟨a, ha, rfl⟩ := Option.map_eq_some_iff.mp hb
      obtain ⟨s₀, hs₀, hsame⟩ := hsolver a s hs
      exact ⟨s₀, by rw [solver?, ha]; exact hs₀, hsame⟩
    · rw [solver?, listener?_updateListener_of_ne hk] at hs
      exact ⟨s, hs, rfl, rfl, rfl, rfl⟩
  have hlive : ∀ {k s g}, (ws.updateListener l f).Live k s g → ∃ s₀, ws.Live k s₀ g
      ∧ s.id = s₀.id ∧ s.model = s₀.model ∧ s.config = s₀.config := by
    intro k s g hkl
    obtain ⟨s₀, hs₀, hid, hmodel, hconfig, hg⟩ := hback hkl.solver
    refine ⟨s₀, ⟨?_, hs₀, hg ▸ hkl.generated⟩, hid, hmodel, hconfig⟩
    have hkalive := hkl.alive
    by_cases hk : k = l
    · subst hk
      rw [listener?_updateListener_self] at hkalive
      cases ha : ws.listener? k with
      | none =>
        rw [ha] at hkalive
        cases hkalive
      | some a =>
        rw [ha] at hkalive
        exact halive a ha hkalive
    · rw [listener?_updateListener_of_ne hk] at hkalive
      exact hkalive
  exact {
    ids := h.ids.of_sameIds hids
    wellFormed := by
      intro k s hs
      obtain ⟨s₀, hs₀, -, hmodel, -, hg⟩ := hback hs
      have hwell := h.wellFormed hs₀
      refine ⟨hmodel ▸ hwell.inRange, fun g hsg => ?_⟩
      rw [hmodel]
      exact hwell.vars g (hg ▸ hsg)
    handle := by
      intro v k hk
      rw [hids.handleOf?]
      exact h.handle hk
    attached := by
      intro k s g v hkl hv
      obtain ⟨s₀, hlive₀, hid, -, -⟩ := hlive hkl
      rw [hid]
      exact h.attached hlive₀ hv
    pinned := fun hv => h.pinned hv
    problem := by
      intro k s g hkl
      obtain ⟨s₀, hlive₀, -, hmodel, hconfig⟩ := hlive hkl
      rw [hmodel, hconfig]
      exact h.problem hlive₀ }

/-- The uses and the owner of a listener, where it is not brought to life. -/
theorem InSync.updateStanding (h : InSync ws) {f : Listener α → Listener α}
    (hrole : ∀ a, (f a).role = a.role)
    (halive : ∀ a, ws.listener? l = some a → (f a).isAlive = true → a.isAlive = true) :
    InSync (ws.updateListener l f) := by
  refine h.updateListener (fun a => ?_) halive fun a s hs => ⟨s, ?_, rfl, rfl, rfl, rfl⟩
  · rw [Listener.id, hrole, Listener.id]
  · rw [Listener.solver?, hrole] at hs
    exact hs

/-- The solution of a solver. -/
theorem InSync.updateSolution (h : InSync ws) (solution : Option (Solution α)) :
    InSync (ws.updateSolver l ({ · with solution })) := by
  refine h.updateListener (Listener.id_mapSolver fun _ => rfl) ?_ ?_
  · intro a _ ha
    rw [Listener.isAlive_mapSolver] at ha
    exact ha
  · intro a s hs
    rw [Listener.solver?_mapSolver] at hs
    obtain ⟨s₀, hs₀, rfl⟩ := Option.map_eq_some_iff.mp hs
    exact ⟨s₀, hs₀, rfl, rfl, rfl, rfl⟩

theorem InSync.hold (h : InSync ws) (halive : (ws.listener? l).any Listener.isAlive = true) :
    InSync (ws.hold l) := by
  refine h.updateStanding (fun _ => rfl) fun a ha _ => ?_
  rw [ha] at halive
  exact halive

omit [Scalar α] in
/-- Two solvers under one identity are one. -/
theorem DistinctIds.ne_of_ne (h : DistinctIds ws) {k : ListenerRef} {s' : Solver α}
    (hs : ws.solver? l = some s) (hs' : ws.solver? k = some s') (hne : k ≠ l) : s'.id ≠ s.id := by
  intro hid
  refine hne (h.inj (id?_of_solver? hs') ?_)
  rw [hid]
  exact id?_of_solver? hs

theorem isAttached_detachAll_of_ne {vs : List VariableRef} {id id' : SolverId} (hne : id' ≠ id)
    (ws : Workspace α μ) (v : VariableRef) :
    ((ws.detachAll vs id).variableAt v).isAttached id' = (ws.variableAt v).isAttached id' := by
  rw [variableAt_detachAll]
  split
  · rw [Variable.isAttached_detach]
    simp [hne]
  · rfl

theorem mem_handles_of_mem_detachAll {vs : List VariableRef} {id : SolverId} {k : Handle}
    (hk : k ∈ ((ws.detachAll vs id).variableAt v).handles) : k ∈ (ws.variableAt v).handles := by
  rw [variableAt_detachAll] at hk
  split at hk
  · exact (Variable.mem_handles_detach.mp hk).1
  · exact hk

/-- What columns and pins read of a variable is in its bare part. -/
theorem InSync.of_sameBare (h : InSync ws) (hsame : SameListeners ws ws')
    (hbare : ∀ v, (ws'.variableAt v).bare = (ws.variableAt v).bare)
    (hhandle : ∀ {v k}, k ∈ (ws'.variableAt v).handles → ws.handleOf? k.listener = some k)
    (hattached : ∀ {l s g v}, ws.Live l s g → v ∈ g.vars →
      (ws'.variableAt v).isAttached s.id = true) : InSync ws' := by
  refine h.of_sameListeners hsame (fun v => ?_) hhandle hattached fun {v} hv => ?_
  · rw [← Generated.columnOf_bare, hbare, Generated.columnOf_bare]
  · have hfreeze : (ws'.variableAt v).freeze = (ws.variableAt v).freeze :=
      Variable.freeze_eq_of_bare (hbare v)
    have hassigned : (ws'.variableAt v).assigned = (ws.variableAt v).assigned :=
      Variable.assigned_eq_of_bare (hbare v)
    rw [hassigned]
    exact h.pinned (hfreeze ▸ hv)

/-- A solver that has died takes its own handles along, and no other. -/
theorem InSync.retireIfDead (h : InSync ws) (l : ListenerRef) : InSync (ws.retireIfDead l) := by
  cases halive : (ws.listener? l).any Listener.isAlive with
  | true =>
    rw [Workspace.retireIfDead, if_pos halive]
    exact h
  | false =>
    rw [Workspace.retireIfDead, if_neg (by rw [halive]; exact Bool.false_ne_true)]
    unfold retire
    split
    · next s hs =>
      refine h.of_sameBare (sameListeners_detachAll ..) (bare_variableAt_detachAll ws s.vars s.id)
        ?_ ?_
      · intro v k hk
        exact h.handle (mem_handles_of_mem_detachAll hk)
      · intro k s' g v hlive hv
        have hkl : k ≠ l := by
          rintro rfl
          rw [hlive.alive] at halive
          cases halive
        rw [isAttached_detachAll_of_ne (h.ids.ne_of_ne hs hlive.solver hkl)]
        exact h.attached hlive hv
    · exact h

theorem InSync.release (h : InSync ws) (l : ListenerRef) : InSync (ws.release l) :=
  .retireIfDead (h.updateStanding (by intro a; rfl) fun _ _ => Listener.isAlive_of_released) l

theorem InSync.drop (h : InSync ws) (l : ListenerRef) : InSync (ws.drop l) :=
  .retireIfDead (h.updateStanding (by intro a; rfl) fun _ _ => Listener.isAlive_of_dropped) l

/-! ## Generating -/

theorem sameIds_generate (hs : ws.solver? l = some s) : SameIds ws (ws.generate l).1 := by
  refine ⟨nextSolver_generate hs, fun k => ?_⟩
  rw [id?, listener?_generate hs, id?]
  split
  · rw [Option.map_map]
    exact Option.map_congr fun a _ => Listener.id_mapSolver (by intro s; rfl) a
  · rfl

/-- Generating attaches nothing but the solver itself. -/
theorem mem_handles_generate (hs : ws.solver? l = some s) {k : Handle}
    (hk : k ∈ ((ws.generate l).1.variableAt v).handles) :
    k ∈ (ws.variableAt v).handles ∨ k = ⟨s.id, l⟩ := by
  rw [variableAt_generate hs] at hk
  split at hk
  · exact (Variable.mem_handles_attach hk).imp_left mem_handles_of_mem_detachAll
  · exact Or.inl (mem_handles_of_mem_detachAll hk)

/-- Generating attaches and detaches no other solver. -/
theorem isAttached_generate_of_ne (hs : ws.solver? l = some s) {id : SolverId} (hne : id ≠ s.id)
    (v : VariableRef) :
    ((ws.generate l).1.variableAt v).isAttached id = (ws.variableAt v).isAttached id := by
  have hkept : ((ws.detachAll s.vars s.id).variableAt v).isAttached id
      = (ws.variableAt v).isAttached id := isAttached_detachAll_of_ne hne ws v
  rw [variableAt_generate hs]
  split
  · rw [Variable.isAttached_attach, hkept, beq_eq_false_iff_ne.mpr (Ne.symm hne), Bool.or_false]
  · exact hkept

/-- Generating brings one solver in step and leaves the others so. -/
theorem InSync.generate (h : InSync ws) (l : ListenerRef) : InSync (ws.generate l).1 := by
  cases hs : ws.solver? l with
  | none =>
    rw [Workspace.generate, hs]
    exact h
  | some s =>
    have hids := sameIds_generate hs
    have hbare := bare_variableAt_generate hs
    have hsolver : ∀ k, k ≠ l → (ws.generate l).1.solver? k = ws.solver? k := by
      intro k hk
      rw [solver?, listener?_generate hs, if_neg hk, solver?]
    have hlive : ∀ {k s' g}, k ≠ l → (ws.generate l).1.Live k s' g → ws.Live k s' g := by
      intro k s' g hk hlive
      refine ⟨?_, hsolver k hk ▸ hlive.solver, hlive.generated⟩
      rw [← hlive.alive, listener?_generate hs, if_neg hk]
    have hself : ∀ {s' g}, (ws.generate l).1.Live l s' g → s'.id = s.id ∧ s'.model = s.model
        ∧ s'.config = s.config ∧ g = Generated.compiled ws.variableAt s.config s.model := by
      intro s' g hlive
      have hs' := hlive.solver
      rw [solver?_generate hs] at hs'
      obtain rfl := Option.some.inj hs'
      exact ⟨rfl, rfl, rfl, (Option.some.inj hlive.generated).symm⟩
    exact {
      ids := h.ids.of_sameIds hids
      wellFormed := by
        intro k s' hs'
        rw [size_generate hs]
        by_cases hk : k = l
        · subst hk
          rw [solver?_generate hs] at hs'
          obtain rfl := Option.some.inj hs'
          refine ⟨(h.wellFormed hs).inRange, fun g hg => ?_⟩
          rw [← Option.some.inj hg]
          rfl
        · exact h.wellFormed (hsolver k hk ▸ hs')
      handle := by
        intro v k hk
        rw [hids.handleOf?]
        rcases mem_handles_generate hs hk with hk | rfl
        · exact h.handle hk
        · exact handleOf?_of_solver? hs
      attached := by
        intro k s' g v hkl hv
        by_cases hk : k = l
        · subst hk
          obtain ⟨hid, -, -, rfl⟩ := hself hkl
          have hmem : v ∈ s.model.vars := hv
          rw [variableAt_generate hs, if_pos ⟨hmem, (h.wellFormed hs).inRange v hmem⟩,
            Variable.isAttached_attach, hid]
          simp
        · have hlive₀ := hlive hk hkl
          rw [isAttached_generate_of_ne hs (h.ids.ne_of_ne hs hlive₀.solver hk)]
          exact h.attached hlive₀ hv
      pinned := by
        intro v hv
        have hfreeze : ((ws.generate l).1.variableAt v).freeze = (ws.variableAt v).freeze :=
          Variable.freeze_eq_of_bare (hbare v)
        have hassigned : ((ws.generate l).1.variableAt v).assigned = (ws.variableAt v).assigned :=
          Variable.assigned_eq_of_bare (hbare v)
        rw [hassigned]
        exact h.pinned (hfreeze ▸ hv)
      problem := by
        intro k s' g hkl
        by_cases hk : k = l
        · subst hk
          obtain ⟨-, hmodel, hconfig, rfl⟩ := hself hkl
          rw [hmodel, hconfig]
          exact Generated.compiled_congr_bare fun v => (hbare v).symm
        · rw [h.problem (hlive hk hkl)]
          exact Generated.compiled_congr_bare fun v => (hbare v).symm }

/-! ## Making things -/

theorem InSync.newVariable (h : InSync ws) (spec : VariableSpec α) :
    InSync (ws.newVariable spec).1 := by
  have hsize := size_newVariable ws spec
  have hold : ∀ v : VariableRef, v.index < ws.vars.length →
      (ws.newVariable spec).1.variableAt v = ws.variableAt v := by
    intro v hv
    rw [variableAt_newVariable, if_neg (Nat.ne_of_lt hv)]
  have hlive : ∀ {l s g}, (ws.newVariable spec).1.Live l s g → ws.Live l s g :=
    fun hlive => ⟨hlive.alive, hlive.solver, hlive.generated⟩
  exact {
    ids := ⟨h.ids.lt, h.ids.inj⟩
    wellFormed := by
      intro l s hs
      have hwell := h.wellFormed (show ws.solver? l = some s from hs)
      rw [hsize]
      exact ⟨fun v hv => Nat.lt_succ_of_lt (hwell.inRange v hv), hwell.vars⟩
    handle := by
      intro v k hk
      rw [variableAt_newVariable] at hk
      split at hk
      · cases hk
      · exact h.handle hk
    attached := by
      intro l s g v hl hv
      rw [hold v (h.index_lt (hlive hl) hv)]
      exact h.attached (hlive hl) hv
    pinned := by
      intro v hv
      rw [variableAt_newVariable] at hv ⊢
      split at hv
      · cases hv
      · next hne =>
        rw [if_neg hne]
        exact h.pinned hv
    problem := by
      intro l s g hl
      rw [h.problem (hlive hl)]
      refine Generated.compiled_congr fun v hv => ?_
      rw [hold v ((h.wellFormed (hlive hl).solver).inRange v hv)] }

/-- A new listener hears of nothing yet, and has nothing to be in step with. -/
theorem InSync.newListener (h : InSync ws) {role : SolverId → Role α}
    (hid : ∀ id, Listener.id { role := role id } = id)
    (hnew : ∀ id s, Listener.solver? { role := role id } = some s →
      s.generated = none ∧ ∀ v ∈ s.model.vars, v.index < ws.vars.length) :
    InSync (ws.newListener role).1 := by
  have hlistener := listener?_newListener ws role
  have hold : ∀ {k a}, ws.listener? k = some a → k.index ≠ ws.listeners.length := by
    intro k a hk
    exact Nat.ne_of_lt (List.getElem?_eq_some_iff.mp hk).1
  have hsolver : ∀ {k s}, (ws.newListener role).1.solver? k = some s → ws.solver? k = some s
      ∨ s.generated = none ∧ ∀ v ∈ s.model.vars, v.index < ws.vars.length := by
    intro k s hs
    rw [solver?, hlistener] at hs
    split at hs
    · exact Or.inr (hnew _ s hs)
    · exact Or.inl hs
  have hlive : ∀ {k s g}, (ws.newListener role).1.Live k s g → ws.Live k s g := by
    intro k s g hlive
    have hs := hlive.solver
    have halive := hlive.alive
    rw [solver?, hlistener] at hs
    rw [hlistener] at halive
    split at hs
    · have hnone := (hnew _ s hs).1
      rw [hlive.generated] at hnone
      cases hnone
    · next hne =>
      rw [if_neg hne] at halive
      exact ⟨halive, hs, hlive.generated⟩
  exact {
    ids := h.ids.newListener hid
    wellFormed := by
      intro k s hs
      rcases hsolver hs with hs | ⟨hnone, hrange⟩
      · exact h.wellFormed hs
      · refine ⟨hrange, fun g hg => ?_⟩
        rw [hnone] at hg
        cases hg
    handle := by
      intro v k hk
      have hk' : ws.handleOf? k.listener = some k := h.handle hk
      obtain ⟨a, ha, -⟩ := Option.map_eq_some_iff.mp hk'
      rw [handleOf?, hlistener, if_neg (hold ha)]
      exact hk'
    attached := fun hl hv => h.attached (hlive hl) hv
    pinned := fun hv => h.pinned hv
    problem := fun hl => h.problem (hlive hl) }

end Workspace

end Milp
