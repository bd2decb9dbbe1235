/-
Milp.Proofs.Delivery — who is told of a change, and how often.

Observers that attach and detach handles and do nothing else
(`Conduct.OnlyAttaches`) change the handles of a variable while its listeners
are told, not who is told: the handles are those of the start, and listeners
stay as alive and as busy as they were. `Delivered` says which listeners have
heard of a change and which observers have been called for it, by any log that
they keep.

`fan_out_exact` has the two ways it can go: all handles are told and those of
dead listeners go (`ToldAll`), or telling stops and no handle goes
(`ToldUntil`).
-/
import Milp.Proofs.Retry
import Milp.Proofs.Visits

namespace Milp

variable {α μ : Type} {c : Conduct α μ} {v : VariableRef} {change : Change α}

open Workspace

/-! ## Calls and releases -/

/-- Observers keep a log of what they are told. -/
def Conduct.Logs (c : Conduct α μ) (log : μ → List (ListenerRef × VariableRef × Change α)) :
    Prop :=
  ∀ l v change ws, log (c.receive l v change ws).1.memory = log ws.memory ++ [(l, v, change)]

namespace Visit

/-- The handles whose listeners accept a change. -/
def accepted (c : Conduct α μ) (v : VariableRef) (change : Change α)
    (turns : List (Visit α μ)) : List Handle :=
  (turns.filter fun t => (t.reception c v change).isHeard).map Visit.handle

/-- The handles whose listeners are called. -/
def called (turns : List (Visit α μ)) : List Handle := (turns.filter calls).map Visit.handle

theorem accepted_append (turns turns' : List (Visit α μ)) : accepted c v change (turns ++ turns')
    = accepted c v change turns ++ accepted c v change turns' := by
  rw [accepted, List.filter_append, List.map_append, accepted, accepted]

theorem called_append (turns turns' : List (Visit α μ)) :
    called (turns ++ turns') = called turns ++ called turns' := by
  rw [called, List.filter_append, List.map_append, called, called]

theorem accepted_singleton (t : Visit α μ) : accepted c v change [t]
    = if (t.reception c v change).isHeard then [t.handle] else [] := by
  rw [accepted, List.filter_singleton]
  cases (t.reception c v change).isHeard <;> rfl

theorem called_singleton (t : Visit α μ) : called [t] = if t.calls then [t.handle] else [] := by
  rw [called, List.filter_singleton]
  cases t.calls <;> rfl

end Visit

namespace Workspace

variable {ws ws' : Workspace α μ} {l : ListenerRef}

theorem memory_release (ws : Workspace α μ) (l : ListenerRef) :
    (ws.release l).memory = ws.memory := by
  have hdetached : ∀ (vs : List VariableRef) (id : SolverId) (ws : Workspace α μ),
      (ws.detachAll vs id).memory = ws.memory := by
    intro vs id
    induction vs with
    | nil => exact fun _ => rfl
    | cons w rest ih => exact fun ws => ih (ws.detach w id)
  unfold release retireIfDead retire
  split
  · rfl
  · split
    · exact hdetached _ _ _
    · rfl

/-- An observer that is done leaves the listeners as they were before. -/
theorem SameListeners.release (h : SameListeners (ws.hold l) ws') :
    SameListeners ws (ws'.release l) := by
  have hlisteners : (ws'.updateListener l fun a => { a with uses := a.uses - 1 }).listeners
      = ws.listeners := by
    simp only [updateListener, h.listeners, hold, List.modify_modify_eq]
    exact List.modify_id _ _
  exact SameListeners.trans ⟨hlisteners, h.size, h.nextSolver⟩ (sameListeners_retireIfDead _ l)

/-- An observer, as against a solver. -/
def isObserver (ws : Workspace α μ) (h : Handle) : Bool :=
  (ws.listener? h.listener).any fun a => a.solver?.isNone

theorem SameSeats.isObserver (h : SameSeats ws ws') (k : Handle) :
    ws'.isObserver k = ws.isObserver k :=
  h.any k.listener (q := fun seat => seat.1) fun _ => rfl

end Workspace

variable [Scalar α]

/-! ## Observers that attach and detach -/

/-- At most handles, the record and what clients keep differ. -/
structure Workspace.SameButHandles (ws ws' : Workspace α μ) : Prop where
  listeners : ws.SameListeners ws'
  bare : ws'.bareAt = ws.bareAt

theorem Workspace.SameButHandles.trans {ws₁ ws₂ ws₃ : Workspace α μ}
    (h : ws₁.SameButHandles ws₂) (h' : ws₂.SameButHandles ws₃) : ws₁.SameButHandles ws₃ :=
  ⟨h.listeners.trans h'.listeners, h'.bare.trans h.bare⟩

theorem Workspace.sameButHandles_attach (ws : Workspace α μ) (v : VariableRef) (k : Handle) :
    ws.SameButHandles (ws.attach v k) :=
  ⟨sameListeners_attach ws v k, bareAt_attach ws v k⟩

theorem Workspace.sameButHandles_detach (ws : Workspace α μ) (v : VariableRef) (id : SolverId) :
    ws.SameButHandles (ws.detach v id) :=
  ⟨sameListeners_updateVariable ws v _, bareAt_detach ws v id⟩

/-- Observers attach and detach handles, and do nothing else to the workspace. -/
def Conduct.OnlyAttaches (c : Conduct α μ) : Prop :=
  ∀ l v change (ws : Workspace α μ), ws.SameButHandles (c.receive l v change ws).1

namespace Workspace

variable {ws ws' : Workspace α μ} {l : ListenerRef} {turns : List (Visit α μ)}
  {action : Action} {hs : List Handle}

theorem memory_prune (ws : Workspace α μ) (action : Action) (v : VariableRef)
    (dead : List SolverId) : (ws.prune action v dead).memory = ws.memory := by
  unfold prune
  split <;> rfl

theorem memory_tellSolver (ws : Workspace α μ) (l : ListenerRef) (v : VariableRef)
    (change : Change α) : (ws.tellSolver l v change).memory = ws.memory := by
  unfold tellSolver
  split
  · rfl
  · split <;> rfl

/-! ### What is logged -/

section

variable {β : Type} {log : μ → List β} {entry : ListenerRef → β}

/-- One visit adds to a log what the observer adds that it calls. -/
theorem log_notify (hlog : ∀ l (ws : Workspace α μ),
      log (c.receive l v change ws).1.memory = log ws.memory ++ [entry l]) (t : Visit α μ) :
    log (notify c t.handle v change t.found).1.memory
      = log t.found.memory ++ (Visit.called [t]).map fun h => entry h.listener := by
  obtain ⟨calls, reception, left, hcase, hcalls, -, hnotify⟩ := Visit.exists_case c v change t
  rw [hnotify, Visit.called_singleton, hcalls]
  have hcalled : log ((t.call c v change).1.release t.handle.listener).memory
      = log t.found.memory ++ [entry t.handle.listener] := by
    rw [memory_release]
    exact hlog t.handle.listener (t.found.hold t.handle.listener)
  cases hcase with
  | gone _ => exact (List.append_nil _).symm
  | inUse _ _ _ => exact (List.append_nil _).symm
  | solver _ _ _ _ =>
    rw [memory_tellSolver]
    exact (List.append_nil _).symm
  | observer _ _ _ _ _ => exact hcalled
  | refused _ _ _ _ _ => exact hcalled

/-- All visits. -/
theorem log_deliver (hlog : ∀ l (ws : Workspace α μ),
      log (c.receive l v change ws).1.memory = log ws.memory ++ [entry l]) (action : Action)
    (hs : List Handle) (ws : Workspace α μ) : log (deliver c action v change hs ws).1.memory
      = log ws.memory
        ++ (Visit.called (visits c action v change hs ws)).map fun h => entry h.listener := by
  have hcons : ∀ (t : Visit α μ) turns, Visit.called (t :: turns)
      = Visit.called [t] ++ Visit.called turns := fun t turns => Visit.called_append [t] turns
  induction hs generalizing ws with
  | nil => exact (List.append_nil _).symm
  | cons h rest ih =>
    have hfirst := log_notify hlog ⟨h, ws⟩
    unfold deliver
    split
    · next ws₁ e hnotify =>
      rw [hnotify] at hfirst
      rw [visits_cons_of_error hnotify]
      exact hfirst
    · next ws₁ hnotify =>
      rw [hnotify] at hfirst
      rw [visits_cons_of_told hnotify, hcons, List.map_append, ← List.append_assoc, ← hfirst]
      exact ih _
    · next ws₁ hnotify =>
      rw [hnotify] at hfirst
      rw [visits_cons_of_gone hnotify, hcons, List.map_append, ← List.append_assoc, ← hfirst]
      have hrest := ih ws₁
      split
      · next hdeliver =>
        rw [hdeliver] at hrest
        exact hrest
      · next hdeliver =>
        rw [hdeliver] at hrest
        exact hrest

end

/-! ### What is left -/

/-- What telling leaves: nothing of a variable but its handles is changed, the
listeners behind `heard` have heard of the change, and the observers behind
`called` have been called, in this order and each as often as it is there. -/
structure Delivered (c : Conduct α μ) (v : VariableRef) (change : Change α)
    (heard called : List Handle) (ws ws' : Workspace α μ) : Prop where
  bare : ws'.bareAt = ws.bareAt
  listener : ∀ k, ws'.listener? k = (ws.listener? k).map fun a =>
    if k ∈ heard.map Handle.listener then a.hear v change else a
  log : ∀ log, c.Logs log →
    log ws'.memory = log ws.memory ++ called.map fun h => (h.listener, v, change)

/-- Telling has left what the visits say. -/
def DeliveredBy (c : Conduct α μ) (v : VariableRef) (change : Change α)
    (turns : List (Visit α μ)) : Workspace α μ → Workspace α μ → Prop :=
  Delivered c v change (Visit.accepted c v change turns) (Visit.called turns)

theorem Delivered.refl (ws : Workspace α μ) : Delivered c v change [] [] ws ws where
  bare := rfl
  listener := fun _ => Option.map_id'.symm
  log := fun _ _ => (List.append_nil _).symm

/-- Events and handles may change besides. -/
theorem Delivered.trans_sameListeners {ws'' : Workspace α μ} {heard called : List Handle}
    (h : Delivered c v change heard called ws ws') (hsame : SameListeners ws' ws'')
    (hbare : ws''.bareAt = ws'.bareAt) (hmemory : ws''.memory = ws'.memory) :
    Delivered c v change heard called ws ws'' where
  bare := hbare.trans h.bare
  listener := fun k => (hsame.listener? k).trans (h.listener k)
  log := fun log hlog => (congrArg log hmemory).trans (h.log log hlog)

theorem Delivered.append {ws'' : Workspace α μ} {heard heard' called called' : List Handle}
    (h : Delivered c v change heard called ws ws')
    (h' : Delivered c v change heard' called' ws' ws'') :
    Delivered c v change (heard ++ heard') (called ++ called') ws ws'' where
  bare := h'.bare.trans h.bare
  listener := fun k => by
    rw [h'.listener, h.listener, Option.map_map]
    refine Option.map_congr fun a _ => ?_
    rw [Function.comp_apply, List.map_append]
    by_cases hk : k ∈ heard.map Handle.listener
    · rw [if_pos hk, if_pos (List.mem_append_left _ hk), Listener.hear_hear, ite_self]
    · simp only [hk, if_false, List.mem_append, false_or]
  log := fun log hlog => by
    rw [h'.log log hlog, h.log log hlog, List.append_assoc, List.map_append]

theorem DeliveredBy.append {ws'' : Workspace α μ} {turns' : List (Visit α μ)}
    (h : DeliveredBy c v change turns ws ws') (h' : DeliveredBy c v change turns' ws' ws'') :
    DeliveredBy c v change (turns ++ turns') ws ws'' := by
  rw [DeliveredBy, Visit.accepted_append, Visit.called_append]
  exact Delivered.append h h'

/-- One visit. -/
theorem deliveredBy_visit (hc : c.OnlyAttaches) (v : VariableRef) (change : Change α)
    (t : Visit α μ) :
    DeliveredBy c v change [t] t.found (notify c t.handle v change t.found).1 := by
  have hlog : ∀ log, c.Logs log → log (notify c t.handle v change t.found).1.memory
      = log t.found.memory ++ (Visit.called [t]).map fun h => (h.listener, v, change) :=
    fun log hlog => log_notify (fun l ws => hlog l v change ws) t
  obtain ⟨calls, reception, left, hcase, hcalls, hreception, hnotify⟩ :=
    Visit.exists_case c v change t
  rw [Visit.called_singleton, hcalls, hnotify] at hlog
  rw [DeliveredBy, Visit.accepted_singleton, Visit.called_singleton, hcalls, hreception, hnotify]
  have hcall := hc t.handle.listener v change (t.found.hold t.handle.listener)
  have hbare : ((t.call c v change).1.release t.handle.listener).bareAt = t.found.bareAt :=
    (bareAt_release _ _).trans hcall.bare
  have hreleased : SameListeners t.found ((t.call c v change).1.release t.handle.listener) :=
    hcall.listeners.release
  cases hcase with
  | gone hdead => exact .refl t.found
  | inUse ha halive hbusy => exact .refl t.found
  | solver ha halive hidle hrole =>
    refine ⟨bareAt_of_vars (vars_tellSolver ..), fun k => ?_, hlog⟩
    obtain ⟨s, hs⟩ : ∃ s, t.found.solver? t.handle.listener = some s :=
      ⟨_, by rw [solver?, ha, Option.bind_some, Listener.solver?, hrole]⟩
    rw [listener?_tellSolver hs]
    simp only [Reception.isHeard, if_true, List.map_cons, List.map_nil, List.mem_singleton]
    split
    · rfl
    · exact Option.map_id'.symm
  | observer ha halive hidle hrole hanswer =>
    refine ⟨hbare, fun k => ?_, hlog⟩
    rw [hreleased.listener?]
    refine (Eq.trans (Option.map_congr fun b hb => ?_) Option.map_id').symm
    simp only [Reception.isHeard, if_true, List.map_cons, List.map_nil, List.mem_singleton]
    split
    · next hk =>
      subst hk
      obtain rfl := Option.some.inj (ha.symm.trans hb)
      exact Listener.hear_of_observer hrole v change
    · rfl
  | refused ha halive hidle hrole hanswer =>
    refine ⟨hbare, fun k => ?_, hlog⟩
    rw [hreleased.listener?]
    exact Option.map_id'.symm

/-- All visits. -/
theorem deliveredBy_visits (hc : c.OnlyAttaches) (action : Action) (v : VariableRef)
    (change : Change α) (hs : List Handle) (ws : Workspace α μ) :
    DeliveredBy c v change (visits c action v change hs ws) ws
      (deliver c action v change hs ws).1 := by
  induction hs generalizing ws with
  | nil => exact .refl ws
  | cons h rest ih =>
    have hfirst := deliveredBy_visit hc v change ⟨h, ws⟩
    unfold deliver
    split
    · next ws₁ e hnotify =>
      rw [hnotify] at hfirst
      rw [visits_cons_of_error hnotify]
      exact hfirst
    · next ws₁ hnotify =>
      rw [hnotify] at hfirst
      rw [visits_cons_of_told hnotify]
      have hnoted := hfirst.trans_sameListeners
        (sameListeners_emit ws₁ (.notified action (ws₁.nameOf v) h.id)) rfl rfl
      exact DeliveredBy.append hnoted (ih _)
    · next ws₁ hnotify =>
      rw [hnotify] at hfirst
      rw [visits_cons_of_gone hnotify]
      have hrest := ih ws₁
      split
      · next ws₂ e hdeliver =>
        rw [hdeliver] at hrest
        exact hfirst.append hrest
      · next ws₂ dead hdeliver =>
        rw [hdeliver] at hrest
        exact hfirst.append hrest

end Workspace

/-- Where telling goes on, a listener that is alive has heard of the change, and
has been called if it is an observer. -/
theorem Visit.of_passes {t : Visit α μ} (h : (t.reception c v change).passes = true) :
    (t.reception c v change).isHeard = t.found.isAlive t.handle
      ∧ t.calls = (t.found.isAlive t.handle && t.found.isObserver t.handle) := by
  obtain ⟨calls, reception, left, hcase, hcalls, hreception, -⟩ := Visit.exists_case c v change t
  rw [hreception] at h ⊢
  rw [hcalls]
  cases hcase with
  | gone hdead =>
    rw [hdead]
    exact ⟨rfl, rfl⟩
  | inUse ha halive hbusy => cases h
  | solver ha halive hidle hrole =>
    rw [isAlive_of_listener? ha, halive, isObserver, ha, Option.any_some, Listener.solver?, hrole]
    exact ⟨rfl, rfl⟩
  | observer ha halive hidle hrole hanswer =>
    rw [isAlive_of_listener? ha, halive, isObserver, ha, Option.any_some, Listener.solver?, hrole]
    exact ⟨rfl, rfl⟩
  | refused ha halive hidle hrole hanswer => cases h

/-- Listeners are as alive and as busy at every visit as at the start. -/
theorem Conduct.OnlyAttaches.sameSeats (hc : c.OnlyAttaches) {action : Action} {hs : List Handle}
    {ws : Workspace α μ} {t : Visit α μ} (ht : t ∈ visits c action v change hs ws) :
    SameSeats ws t.found :=
  visits_related (fun ws => .refl ws) (fun h h' => h.trans h')
    (fun ws event => (sameListeners_emit ws event).sameSeats)
    (sameSeats_notify fun l v change ws => (hc l v change ws).listeners.sameSeats) ht

namespace Workspace

variable {ws ws' : Workspace α μ} {turns : List (Visit α μ)} {action : Action}
  {hs : List Handle}

/-- Of handles that are passed, those alive accept, and of these the observers
are called. -/
theorem accepted_of_passes (hpasses : ∀ t ∈ turns, (t.reception c v change).passes = true)
    (hseats : ∀ t ∈ turns, SameSeats ws t.found) :
    Visit.accepted c v change turns = (turns.map Visit.handle).filter ws.isAlive
      ∧ Visit.called turns
        = ((turns.map Visit.handle).filter ws.isAlive).filter ws.isObserver := by
  constructor
  · rw [Visit.accepted, List.filter_map]
    refine congrArg _ (List.filter_congr fun t ht => ?_)
    rw [(Visit.of_passes (hpasses t ht)).1, (hseats t ht).isAlive]
    rfl
  · rw [Visit.called, List.filter_map, List.filter_map, List.filter_filter]
    refine congrArg _ (List.filter_congr fun t ht => ?_)
    rw [(Visit.of_passes (hpasses t ht)).2, (hseats t ht).isAlive, (hseats t ht).isObserver,
      Bool.and_comm]
    rfl

/-- Of all handles, those alive have heard of the change; handles of those found
dead are gone. -/
structure ToldAll (c : Conduct α μ) (v : VariableRef) (change : Change α) (handles : List Handle)
    (turns : List (Visit α μ)) (start told : Workspace α μ) (outcome : Outcome α μ Answer) :
    Prop where
  visited : turns.map Visit.handle = handles
  passed : ∀ t ∈ turns, (t.reception c v change).passes = true
  answer : outcome.2.isOk = true
  delivered : Delivered c v change (handles.filter start.isAlive)
    ((handles.filter start.isAlive).filter start.isObserver) start outcome.1
  /-- The handles are those of the time when all have been told. -/
  pruned : (outcome.1.variableAt v).handles = (told.variableAt v).handles.filter
    fun h => h.id ∉ (handles.filter fun h => !start.isAlive h).map Handle.id

/-- Of the handles before that of `last`, those alive have heard of the change;
the listener of `last` is in use or refuses, and no handle is told after it. -/
structure ToldUntil (c : Conduct α μ) (v : VariableRef) (change : Change α) (handles : List Handle)
    (turns : List (Visit α μ)) (start : Workspace α μ) (outcome : Outcome α μ Answer)
    (before : List (Visit α μ)) (last : Visit α μ) : Prop where
  visited : turns = before ++ [last]
  split : ∃ rest, handles = before.map Visit.handle ++ last.handle :: rest
  passed : ∀ t ∈ before, (t.reception c v change).passes = true
  /-- Nothing follows the last visit: no handle is removed. -/
  left : outcome.1 = (notify c last.handle v change last.found).1
  failed : (last.reception c v change = .inUse
      ∧ outcome.2 = .error (.busy last.handle.id)
      ∧ (ModelError.busy last.handle.id : ModelError α).kind = .invalidState
      ∧ Delivered c v change ((before.map Visit.handle).filter start.isAlive)
        (((before.map Visit.handle).filter start.isAlive).filter start.isObserver)
        start outcome.1)
    ∨ ∃ e, last.reception c v change = .refused e
      ∧ outcome.2 = .error e
      ∧ Delivered c v change ((before.map Visit.handle).filter start.isAlive)
        (((before.map Visit.handle).filter start.isAlive).filter start.isObserver
          ++ [last.handle])
        start outcome.1

/-- Where telling gets through, all are told. -/
theorem toldAll_of_ok (hc : c.OnlyAttaches) {start told : Workspace α μ} {dead : List SolverId}
    (hok : deliver c action v change hs start = (told, .ok dead)) (answer : Answer) :
    ToldAll c v change hs (visits c action v change hs start) start told
      (told.prune action v dead, .ok answer) := by
  have hdelivered := deliveredBy_visits hc action v change hs start
  obtain ⟨hpassed, hvisited, hdead⟩ := visits_of_ok hok
  have hseats : ∀ t ∈ visits c action v change hs start, SameSeats start t.found :=
    fun t ht => hc.sameSeats ht
  obtain ⟨haccepted, hcalled⟩ := accepted_of_passes hpassed hseats
  rw [hvisited] at haccepted hcalled
  rw [hok, DeliveredBy, haccepted, hcalled] at hdelivered
  have hids : dead = (hs.filter fun h => !start.isAlive h).map Handle.id := by
    have hfound : (visits c action v change hs start).filter (fun t => !t.found.isAlive t.handle)
        = (visits c action v change hs start).filter ((fun h => !start.isAlive h) ∘ Visit.handle) :=
      List.filter_congr fun t ht => by rw [(hseats t ht).isAlive, Function.comp_apply]
    calc dead
        = ((visits c action v change hs start).filter
            ((fun h => !start.isAlive h) ∘ Visit.handle)).map (·.handle.id) := by
          rw [hdead, hfound]
      _ = (((visits c action v change hs start).map Visit.handle).filter
            fun h => !start.isAlive h).map Handle.id := by
          rw [List.filter_map, List.map_map]
          rfl
      _ = (hs.filter fun h => !start.isAlive h).map Handle.id := by rw [hvisited]
  refine ⟨hvisited, hpassed, rfl, ?_, ?_⟩
  · exact hdelivered.trans_sameListeners (sameListeners_prune ..) (bareAt_prune ..)
      (memory_prune ..)
  · rw [variableAt_prune, if_pos rfl, hids, Variable.detach]
    exact List.filter_congr fun h _ => by rw [List.contains_eq_mem, decide_not]

/-- Where telling fails, it was told until then. -/
theorem exists_toldUntil_of_error (hc : c.OnlyAttaches) {start left : Workspace α μ}
    {e : ModelError α} (herror : deliver c action v change hs start = (left, .error e)) :
    ∃ before last, ToldUntil c v change hs (visits c action v change hs start) start
      (left, .error e) before last := by
  have hdelivered := deliveredBy_visits hc action v change hs start
  obtain ⟨before, last, rest, hvisited, hsplit, hpassed, hanswer, hleft⟩ := visits_of_error herror
  have hseats : ∀ t ∈ before, SameSeats start t.found := fun t ht =>
    hc.sameSeats (hvisited ▸ List.mem_append_left [last] ht)
  obtain ⟨haccepted, hcalled⟩ := accepted_of_passes hpassed hseats
  refine ⟨before, last, hvisited, ⟨rest, hsplit⟩, hpassed, hleft, ?_⟩
  obtain ⟨calls, reception, _, hcase, hcalls, hreception, -⟩ := Visit.exists_case c v change last
  rw [hreception] at hanswer ⊢
  rw [herror, hvisited, DeliveredBy, Visit.accepted_append, Visit.called_append, haccepted, hcalled,
    Visit.accepted_singleton, Visit.called_singleton, hcalls, hreception] at hdelivered
  cases hcase with
  | gone hdead => cases hanswer
  | inUse ha halive hbusy =>
    obtain rfl := Except.error.inj hanswer
    simp only [Reception.isHeard, Bool.false_eq_true, if_false, List.append_nil] at hdelivered
    exact Or.inl ⟨rfl, rfl, rfl, hdelivered⟩
  | solver ha halive hidle hrole => cases hanswer
  | observer ha halive hidle hrole _ => cases hanswer
  | refused ha halive hidle hrole _ =>
    obtain rfl := Except.error.inj hanswer
    simp only [Reception.isHeard, Bool.false_eq_true, if_false, if_true, List.append_nil]
      at hdelivered
    exact Or.inr ⟨_, rfl, rfl, hdelivered⟩

/-- Only observers that attach and detach are called while the listeners of a
variable are told of a change. Those told are the listeners behind the handles
that are attached at the start, in that order.

If none of those alive is in use or refuses when it is its turn, each of them
hears of the change, the observers among them by one call each; the operation
succeeds, and of the handles that are attached by then those of the identities
found dead go. Otherwise telling stops at the first that is in use, which is not
called, or refuses, which is called once; those alive before it have heard, no
other has, the operation fails for this reason, and no handle goes. Either way
the variable is as it was set. -/
theorem fan_out_exact (hc : c.OnlyAttaches) {op : Operation α} (hop : op.target? = some v)
    (hv : v.index < ws.vars.length) {store : Write α}
    (hedit : op.edit? (ws.variableAt v) = some ⟨store, some (action, change)⟩) :
    let start := ws.write v store
    let handles := (ws.variableAt v).handles
    let turns := visits c action v change handles start
    (ws.perform c op).1.bareAt v = ((ws.variableAt v).write store).bare
    ∧ (ToldAll c v change handles turns start (deliver c action v change handles start).1
        (ws.perform c op)
      ∨ ∃ before last,
        ToldUntil c v change handles turns start (ws.perform c op) before last) := by
  extract_lets start handles turns
  have hattached : (start.variableAt v).handles = handles := handles_variableAt_write ws v v store
  have hstored : start.bareAt v = ((ws.variableAt v).write store).bare :=
    congrArg Variable.bare (variableAt_updateVariable_self hv _)
  rcases perform_cases hop ws with ⟨hnone, -⟩ | ⟨_, hsome, -⟩
      | ⟨store', action', change', hsome, answer, hperform⟩
  · rw [hnone] at hedit
    cases hedit
  · rw [hsome] at hedit
    cases hedit
  · obtain ⟨rfl, rfl, rfl⟩ : store' = store ∧ action' = action ∧ change' = change := by
      rw [hsome] at hedit
      cases hedit
      exact ⟨rfl, rfl, rfl⟩
    rw [hperform, answered, tellListeners, hattached]
    cases hdeliver : deliver c action' v change' handles start with
    | mk told result =>
      cases result with
      | ok dead =>
        have htold := toldAll_of_ok hc hdeliver answer
        exact ⟨(congrFun htold.delivered.bare v).trans hstored, Or.inl htold⟩
      | error e =>
        obtain ⟨before, last, htold⟩ := exists_toldUntil_of_error hc hdeliver
        refine ⟨?_, Or.inr ⟨before, last, htold⟩⟩
        rcases htold.failed with ⟨-, -, -, hdelivered⟩ | ⟨_, -, -, hdelivered⟩
        · exact (congrFun hdelivered.bare v).trans hstored
        · exact (congrFun hdelivered.bare v).trans hstored

end Workspace

/-! ## A mixed list of handles -/

/-- Observers keep a log. The third listener detaches the solver and attaches
the fifth listener, the fourth refuses. -/
def mixedConduct : Conduct Exact (List (ListenerRef × VariableRef × Change Exact)) where
  receive l v change ws :=
    let noted := { ws with memory := ws.memory ++ [(l, v, change)] }
    if l = ⟨3⟩ then (noted, .error (.stated .invalidState "refused"))
    else ((noted.detach v 0).attach v ⟨4, ⟨4⟩⟩, .ok ())
  answer _ _ ws := (ws, .ok (.ofStatus .infeasible ""))

theorem onlyAttaches_mixedConduct : mixedConduct.OnlyAttaches := by
  intro l v change ws
  have hnoted : ws.SameButHandles { ws with memory := ws.memory ++ [(l, v, change)] } :=
    ⟨⟨rfl, rfl, rfl⟩, rfl⟩
  unfold mixedConduct
  dsimp only
  split
  · exact hnoted
  · exact hnoted.trans ((sameButHandles_detach _ v 0).trans (sameButHandles_attach _ v _))

/-- A solver and four observers on one variable; the first observer is dead. -/
def mixedStart : Workspace Exact (List (ListenerRef × VariableRef × Change Exact)) :=
  .run mixedConduct
    [.newVariable (.nonnegative "x" .continuous), .newSolver pointModel ⟨"exact", true⟩ {},
      .newObserver, .newObserver, .newObserver, .newObserver, .operate (.generate ⟨0⟩),
      .operate (.attach ⟨0⟩ ⟨1, ⟨1⟩⟩), .operate (.attach ⟨0⟩ ⟨2, ⟨2⟩⟩),
      .operate (.attach ⟨0⟩ ⟨3, ⟨3⟩⟩), .operate (.drop ⟨1⟩)] { memory := [] }

theorem Workspace.fan_out_mixedStart :
    let start := mixedStart.write ⟨0⟩ (.name "y")
    let handles := [⟨0, ⟨0⟩⟩, ⟨1, ⟨1⟩⟩, ⟨2, ⟨2⟩⟩, ⟨3, ⟨3⟩⟩]
    let turns := visits mixedConduct .setName ⟨0⟩ (.name "y") handles start
    ∃ before last, ToldUntil mixedConduct ⟨0⟩ (.name "y") handles turns start
      (mixedStart.perform mixedConduct (.setName ⟨0⟩ "y")) before last := by
  extract_lets start handles turns
  have hhandles : (mixedStart.variableAt ⟨0⟩).handles = handles := by decide +kernel
  have hrange : (⟨0⟩ : VariableRef).index < mixedStart.vars.length := by decide +kernel
  have hnew : (mixedStart.variableAt ⟨0⟩).name.text ≠ "y" := by decide +kernel
  have hedit : Operation.edit? (mixedStart.variableAt ⟨0⟩) (.setName ⟨0⟩ "y")
      = some ⟨.name "y", some (.setName, .name "y")⟩ := if_neg hnew
  obtain ⟨-, hall | huntil⟩ := fan_out_exact onlyAttaches_mixedConduct
    (show Operation.target? (.setName ⟨0⟩ "y") = some ⟨0⟩ from rfl) hrange hedit
  · exact absurd hall.answer (by decide +kernel)
  · rw [hhandles] at huntil
    exact huntil

/-- Of the observers, one is dead, one accepts, one refuses and one is attached
too late. -/
example : (mixedStart.perform mixedConduct (.setName ⟨0⟩ "y")).1.memory
    = [(⟨2⟩, ⟨0⟩, .name "y"), (⟨3⟩, ⟨0⟩, .name "y")] := by decide +kernel

end Milp
