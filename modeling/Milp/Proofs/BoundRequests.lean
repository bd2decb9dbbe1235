/-
Milp.Proofs.BoundRequests — the bound that was asked for last is the bound that
is there.

A bound is asked for by a turn, or by a client that is called while a turn is
taken: an observer that is told of a change, or a backend that is given a problem.
Clients act by turns as well, so these ask for bounds in the same way, to any
depth. `Requests` lists what one bound of a variable is asked to be, in the order
in which it is asked; undefined numbers are refused and do not count.

A request is compared with the bound that is stored, and stored itself unless the
two are within the tolerance. It is stored before anybody is told, so whether
somebody refuses makes no difference, and nothing else stores a bound: apart from
what a turn asks for, a bound changes in the calls of clients only
(`HasBound.turn`). So it is always within the tolerance of the last request
(`Requests.hasBound`), however many requests in between were too small to be
stored.
-/
import Milp.Proofs.Guards
import Milp.Proofs.Retry
import Milp.Proofs.Visits

namespace Milp

variable {α μ : Type}

/-! ## Calls -/

/-- The state in which a client is called, and the state it leaves. -/
structure ClientCall (α μ : Type) where
  found : Workspace α μ
  left : Workspace α μ

/-- The bounds of a variable are not seen in its handles. -/
theorem Variable.bound_bare (x : Variable α) (side : Side) : x.bare.bound side = x.bound side := by
  cases side <;> rfl

variable [Scalar α]

/-- What an observer that is called finds and leaves. -/
def Visit.clientCall (c : Conduct α μ) (v : VariableRef) (change : Change α) (t : Visit α μ) :
    ClientCall α μ :=
  ⟨t.found.hold t.handle.listener, (t.call c v change).1⟩

namespace Workspace

/-- The calls of observers while the listeners behind the handles are told. -/
def observerCalls (c : Conduct α μ) (action : Action) (v : VariableRef) (change : Change α)
    (hs : List Handle) (ws : Workspace α μ) : List (ClientCall α μ) :=
  ((visits c action v change hs ws).filter Visit.calls).map (Visit.clientCall c v change)

/-- The call of a backend for a problem, unless the problem is not for it. -/
def askCalls (c : Conduct α μ) (l : ListenerRef) (s : Solver α) (g : Generated α)
    (ws : Workspace α μ) : List (ClientCall α μ) :=
  if g.problem.isMixedInteger && !s.backend.takesIntegers then []
  else [⟨ws.asked s g, (c.answer l g.problem (ws.asked s g)).1⟩]

/-- The call of the backend in a solve. -/
def solveCalls (c : Conduct α μ) (l : ListenerRef) (ws : Workspace α μ) :
    List (ClientCall α μ) :=
  match (prepare l ws).solver? l with
  | none => []
  | some s => s.generated.elim [] fun g => askCalls c l s g (prepare l ws)

/-- The calls of observers while an operation is carried out. -/
def editCalls (c : Conduct α μ) (op : Operation α) (v : VariableRef) (ws : Workspace α μ) :
    List (ClientCall α μ) :=
  match op.edit? (ws.variableAt v) with
  | some ⟨store, some (action, change)⟩ =>
    observerCalls c action v change (ws.variableAt v).handles (ws.write v store)
  | _ => []

end Workspace

open Workspace

/-- The calls of clients while a turn is taken, in order. -/
def Turn.calls (c : Conduct α μ) (ws : Workspace α μ) : Turn α μ → List (ClientCall α μ)
  | .move (.operate (.solve l)) => solveCalls c l ws
  | .move (.operate op) => op.target?.elim [] fun v => editCalls c op v ws
  | _ => []

/-! ## Requests -/

/-- The number that an operation asks one bound of a variable to be. -/
def Operation.request? (side : Side) (v : VariableRef) : Operation α → Option α
  | .setBound s w b => if s = side ∧ w = v ∧ Scalar.isNaN b = false then some b else none
  | _ => none

/-- The number that a turn itself asks one bound of a variable to be. -/
def Turn.request? (side : Side) (v : VariableRef) : Turn α μ → Option α
  | .move (.operate op) => op.request? side v
  | _ => none

mutual

/-- What one bound of a variable is asked to be in a course, in the order in
which it is asked: by each turn itself, and then by the clients that are called
while it is taken. -/
inductive Requests (side : Side) (v : VariableRef) :
    Conduct α μ → List (Turn α μ) → Workspace α μ → List α → Prop
  | nil {c : Conduct α μ} {ws : Workspace α μ} : Requests side v c [] ws []
  | cons {c : Conduct α μ} {t : Turn α μ} {rest : List (Turn α μ)} {ws : Workspace α μ}
    {during later : List α} (hduring : CallRequests side v (t.calls c ws) during)
    (hlater : Requests side v c rest (ws.turn c t) later) :
    Requests side v c (t :: rest) ws ((t.request? side v).toList ++ during ++ later)

/-- What one bound of a variable is asked to be by clients that are called one
after the other, and act by turns. -/
inductive CallRequests (side : Side) (v : VariableRef) : List (ClientCall α μ) → List α → Prop
  | nil : CallRequests side v [] []
  | cons {call : ClientCall α μ} {rest : List (ClientCall α μ)} {inner : Conduct α μ}
    {turns : List (Turn α μ)} {during later : List α}
    (hleft : call.left = call.found.course inner turns)
    (hduring : Requests side v inner turns call.found during)
    (hlater : CallRequests side v rest later) :
    CallRequests side v (call :: rest) (during ++ later)

end

/-! ## Where a bound changes -/

namespace Workspace

variable {ws ws' ws₁ ws₂ : Workspace α μ} {side : Side} {v w : VariableRef} {l : ListenerRef}
  {c : Conduct α μ} {change : Change α}

/-- A variable that is there keeps its bound. -/
def KeepsBound (side : Side) (v : VariableRef) (ws ws' : Workspace α μ) : Prop :=
  v.index < ws.vars.length →
    v.index < ws'.vars.length ∧ (ws'.variableAt v).bound side = (ws.variableAt v).bound side

theorem KeepsBound.refl (ws : Workspace α μ) : KeepsBound side v ws ws := fun h => ⟨h, rfl⟩

theorem KeepsBound.trans {ws₁ ws₂ ws₃ : Workspace α μ} (h : KeepsBound side v ws₁ ws₂)
    (h' : KeepsBound side v ws₂ ws₃) : KeepsBound side v ws₁ ws₃ := fun hv =>
  have hnext := h' (h hv).1
  ⟨hnext.1, hnext.2.trans (h hv).2⟩

theorem KeepsBound.of_bareAt (hsize : ws'.vars.length = ws.vars.length)
    (hbare : (ws'.bareAt v).bound side = (ws.bareAt v).bound side) : KeepsBound side v ws ws' := by
  intro hv
  refine ⟨hsize ▸ hv, ?_⟩
  rw [← Variable.bound_bare, ← Variable.bound_bare (ws.variableAt v)]
  exact hbare

theorem KeepsBound.of_vars (h : ws'.vars = ws.vars) : KeepsBound side v ws ws' :=
  .of_bareAt (congrArg List.length h) (by rw [bareAt_of_vars h])

theorem keepsBound_tellSolver (ws : Workspace α μ) (l : ListenerRef) (w : VariableRef)
    (change : Change α) : KeepsBound side v ws (ws.tellSolver l w change) :=
  .of_vars (vars_tellSolver ws l w change)

theorem keepsBound_release (ws : Workspace α μ) (l : ListenerRef) :
    KeepsBound side v ws (ws.release l) :=
  .of_bareAt (sameListeners_retireIfDead ..).size (by rw [bareAt_release])

/-- From a state to another one, a bound changes at most while clients are
called. -/
def ChangesIn (side : Side) (v : VariableRef) :
    Workspace α μ → List (ClientCall α μ) → Workspace α μ → Prop
  | ws, [], ws' => KeepsBound side v ws ws'
  | ws, call :: rest, ws' => KeepsBound side v ws call.found ∧ ChangesIn side v call.left rest ws'

variable {calls : List (ClientCall α μ)}

theorem ChangesIn.after (h : ChangesIn side v ws₁ calls ws') (hkept : KeepsBound side v ws ws₁) :
    ChangesIn side v ws calls ws' := by
  cases calls with
  | nil => exact hkept.trans h
  | cons call rest => exact ⟨hkept.trans h.1, h.2⟩

theorem ChangesIn.before (h : ChangesIn side v ws calls ws₁) (hkept : KeepsBound side v ws₁ ws') :
    ChangesIn side v ws calls ws' := by
  induction calls generalizing ws with
  | nil => exact KeepsBound.trans h hkept
  | cons call rest ih => exact ⟨h.1, ih h.2⟩

theorem keepsBound_emit (ws : Workspace α μ) (event : Event α) :
    KeepsBound side v ws (ws.emit event) :=
  .of_vars rfl

/-- While listeners are told, a bound changes in the calls of observers only. -/
theorem changesIn_deliver (action : Action) (hs : List Handle) (ws : Workspace α μ) :
    ChangesIn side v ws (observerCalls c action w change hs ws)
      (deliver c action w change hs ws).1 := by
  induction hs generalizing ws with
  | nil => exact .refl ws
  | cons h rest ih =>
    obtain ⟨_, _, left, hcase, hcalls, -, hnotify⟩ := Visit.exists_case c w change ⟨h, ws⟩
    have hheld : KeepsBound side v ws (ws.hold h.listener) := .of_vars rfl
    cases hcase with
    | gone hdead =>
      have hleft : (deliver c action w change (h :: rest) ws).1
          = (deliver c action w change rest ws).1 := by
        rw [deliver, hnotify]
        simp only [Reception.answer]
        cases deliver c action w change rest ws with
        | mk left answer => cases answer <;> rfl
      rw [observerCalls, visits_cons_of_gone hnotify, List.filter_cons_of_neg (by simp [hcalls]),
        hleft]
      exact ih ws
    | inUse ha halive hbusy =>
      have hleft : (deliver c action w change (h :: rest) ws).1 = ws := by
        rw [deliver, hnotify]
        rfl
      rw [observerCalls, visits_cons_of_error hnotify, List.filter_cons_of_neg (by simp [hcalls]),
        hleft]
      exact .refl ws
    | solver ha halive hidle hrole =>
      rw [observerCalls, visits_cons_of_told hnotify, List.filter_cons_of_neg (by simp [hcalls]),
        deliver, hnotify]
      exact (ih _).after ((keepsBound_tellSolver ws h.listener w change).trans
        (keepsBound_emit _ _))
    | observer ha halive hidle hrole hanswer =>
      rw [observerCalls, visits_cons_of_told hnotify, List.filter_cons_of_pos hcalls,
        List.map_cons, deliver, hnotify]
      exact ⟨hheld, (ih _).after ((keepsBound_release _ h.listener).trans (keepsBound_emit _ _))⟩
    | refused ha halive hidle hrole hanswer =>
      rw [observerCalls, visits_cons_of_error hnotify, List.filter_cons_of_pos hcalls,
        List.map_cons, deliver, hnotify]
      exact ⟨hheld, keepsBound_release _ h.listener⟩

theorem keepsBound_prune (ws : Workspace α μ) (action : Action) (w : VariableRef)
    (dead : List SolverId) : KeepsBound side v ws (ws.prune action w dead) :=
  .of_bareAt (sameListeners_prune ws action w dead).size (by rw [bareAt_prune])

theorem changesIn_tellListeners (action : Action) (ws : Workspace α μ) :
    ChangesIn side v ws (observerCalls c action w change (ws.variableAt w).handles ws)
      (ws.tellListeners c action w change).1 := by
  have hdelivered : ChangesIn side v ws
      (observerCalls c action w change (ws.variableAt w).handles ws)
      (deliver c action w change (ws.variableAt w).handles ws).1 := changesIn_deliver action _ ws
  unfold tellListeners
  split
  · next hdeliver =>
    rw [hdeliver] at hdelivered
    exact hdelivered
  · next left dead hdeliver =>
    rw [hdeliver] at hdelivered
    exact hdelivered.before (keepsBound_prune left action w dead)

theorem keepsBound_generate (ws : Workspace α μ) (l : ListenerRef) :
    KeepsBound side v ws (ws.generate l).1 :=
  .of_bareAt (length_vars_generate ws l) (by rw [bareAt_generate])

theorem keepsBound_prepare (l : ListenerRef) (ws : Workspace α μ) :
    KeepsBound side v ws (prepare l ws) := by
  have hcleared : KeepsBound side v ws (ws.clear l) := .of_vars rfl
  rcases prepare_cases l ws with hprepare | hprepare
  · rw [hprepare]
    exact hcleared
  · rw [hprepare]
    exact hcleared.trans (keepsBound_generate _ l)

theorem keepsBound_settle (ws : Workspace α μ) (l : ListenerRef) (s : Solver α) (g : Generated α)
    (solution : Solution α) : KeepsBound side v ws (ws.settle l s g solution) := by
  obtain ⟨assigned, hassigned⟩ := exists_bareAt_settle ws l s g solution v
  refine .of_bareAt (sameListeners_settled ws s g solution).size ?_
  rw [hassigned]
  cases side <;> rfl

/-- What is taken over from an answer is no bound. -/
theorem keepsBound_takeOver (ws : Workspace α μ) (l : ListenerRef) (s : Solver α)
    (g : Generated α) (solution : Solution α) :
    KeepsBound side v ws (ws.takeOver l s g solution).1 := by
  unfold takeOver
  split
  · exact .refl ws
  · exact keepsBound_settle ws l s g solution

theorem changesIn_ask (l : ListenerRef) (s : Solver α) (g : Generated α) (ws : Workspace α μ) :
    ChangesIn side v ws (askCalls c l s g ws) (ws.ask c l s g).1 := by
  rw [askCalls]
  split
  · next hmixed =>
    rw [ask, if_pos hmixed]
    exact .refl ws
  · next hmixed =>
    refine ⟨.of_vars rfl, ?_⟩
    cases hanswer : c.answer l g.problem (ws.asked s g) with
    | mk left answer =>
      unfold asked at hanswer
      rw [ask, if_neg hmixed]
      simp only [hanswer]
      cases answer with
      | error e => exact .refl left
      | ok solution => exact keepsBound_takeOver left l s g solution

/-- While a problem is solved, a bound changes in the call of the backend only. -/
theorem changesIn_solve (l : ListenerRef) (ws : Workspace α μ) :
    ChangesIn side v ws (solveCalls c l ws) (ws.solve c l).1 := by
  have hprepared : KeepsBound side v ws (prepare l ws) := keepsBound_prepare l ws
  cases hs : ws.solver? l with
  | none =>
    obtain ⟨-, hready⟩ := ensureGenerated_of_no_solver hs
    have hcleared : prepare l ws = ws.clear l := by rw [prepare, hready]
    have hnone : (prepare l ws).solver? l = none := by
      rw [hcleared, clear, solver?_updateSolver, if_pos rfl, solver?_hold, hs, Option.map_none]
    rw [solveCalls, hnone, solve_of_no_solver hs, ← hcleared]
    exact hprepared.trans (keepsBound_release _ l)
  | some s =>
    obtain ⟨g, hp, hready⟩ := exists_prepared hs
    rw [solveCalls, hp.solver, solve_eq_ask c hready hp.solver rfl]
    have hasked : ChangesIn side v (prepare l ws) _ ((prepare l ws).ask c l
      { s with generated := some g, solution := none } g).1 := changesIn_ask l _ g _
    exact (hasked.after hprepared).before (keepsBound_release _ l)

end Workspace

/-! ## Near a number -/

/-- What a store puts in the place of one bound. -/
def Write.bound? (side : Side) : Write α → Option α
  | .bound s b => if s = side then some b else none
  | _ => none

omit [Scalar α] in
theorem Variable.bound_write (x : Variable α) (w : Write α) (side : Side) :
    (x.write w).bound side = (w.bound? side).getD (x.bound side) := by
  cases w with
  | bound s b => cases s <;> cases side <;> rfl
  | _ => cases side <;> rfl

/-- What an operation asks of a bound is a number, and is what it stores there. -/
theorem EditCase.request?_eq {x : Variable α} {op : Operation α} {e : Edit α} {w : VariableRef}
    (h : EditCase x op e) (hop : op.target? = some w) (side : Side) (v : VariableRef) :
    op.request? side v = if w = v then e.store.bound? side else none := by
  cases h with
  | bound hnumber _ | held hnumber _ =>
    have hw := Option.some.inj hop
    simp only [Operation.request?, hnumber, and_true, Write.bound?, hw]
    by_cases hwv : w = v
    · simp only [hwv, and_true, if_true]
    · simp only [hwv, and_false, if_false]
  | _ => exact (ite_self _).symm

theorem EditCase.isNaN_bound? {x : Variable α} {op : Operation α} {e : Edit α} {side : Side}
    {b : α} (h : EditCase x op e) (hb : e.store.bound? side = some b) :
    Scalar.isNaN b = false := by
  cases h with
  | bound hnumber _ | held hnumber _ =>
    obtain ⟨-, hb⟩ := Option.ite_none_right_eq_some.mp hb
    obtain rfl := Option.some.inj hb
    exact hnumber
  | _ => cases hb

namespace Workspace

variable {ws ws' : Workspace α μ} {side : Side} {v w : VariableRef} {b : α} {c : Conduct α μ}
  {op : Operation α}

/-- A variable is there, and its bound is within the tolerance of a number. -/
structure HasBound (side : Side) (v : VariableRef) (b : α) (ws : Workspace α μ) : Prop where
  index_lt : v.index < ws.vars.length
  near : Scalar.approxEq ((ws.variableAt v).bound side) b = true

theorem HasBound.kept (h : HasBound side v b ws) (hkept : KeepsBound side v ws ws') :
    HasBound side v b ws' := by
  obtain ⟨hlt, hbound⟩ := hkept h.index_lt
  exact ⟨hlt, hbound ▸ h.near⟩

/-- Where nothing is stored, the bound is near what is asked for already. -/
theorem HasBound.of_edit?_eq_none (h : HasBound side v b ws) (hop : op.target? = some w)
    (hedit : op.edit? (ws.variableAt w) = none) :
    HasBound side v ((op.request? side v).getD b) ws := by
  cases hrequest : op.request? side v with
  | none => exact h
  | some b' =>
    refine ⟨h.index_lt, ?_⟩
    cases op with
    | setBound s u b'' =>
      obtain ⟨⟨rfl, rfl, hnumber⟩, hb⟩ := Option.ite_none_right_eq_some.mp hrequest
      obtain rfl := Option.some.inj hb
      obtain rfl := Option.some.inj hop
      simpa [Operation.edit?, hnumber] using hedit
    | _ => cases hrequest

/-- What is stored is what is asked for. -/
theorem HasBound.write {e : Edit α} (h : HasBound side v b ws)
    (hop : op.target? = some w) (hedit : op.edit? (ws.variableAt w) = some e) :
    HasBound side v ((op.request? side v).getD b) (ws.write w e.store) := by
  have hcase := Operation.editCase hedit
  have hlt : v.index < (ws.write w e.store).vars.length := by
    rw [Workspace.write, (sameListeners_updateVariable ws w _).size]
    exact h.index_lt
  refine ⟨hlt, ?_⟩
  rw [hcase.request?_eq hop, Workspace.write, variableAt_updateVariable]
  by_cases hwv : w = v
  · subst hwv
    rw [if_pos rfl, if_pos ⟨rfl, h.index_lt⟩, Variable.bound_write]
    cases hb : e.store.bound? side with
    | none => exact h.near
    | some b' => exact Scalar.approxEq_self (hcase.isNaN_bound? hb)
  · rw [if_neg hwv, if_neg fun hvw => hwv hvw.1.symm]
    exact h.near

theorem keepsBound_assign (ws : Workspace α μ) (w : VariableRef) (level : Level α) :
    KeepsBound side v ws (ws.assign w level) := by
  refine .of_bareAt (sameListeners_assign ws w level).size ?_
  rw [bareAt, variableAt_assign]
  split
  · cases side <;> rfl
  · rfl

theorem keepsBound_drop (ws : Workspace α μ) (l : ListenerRef) :
    KeepsBound side v ws (ws.drop l) :=
  .of_bareAt (sameListeners_retireIfDead ..).size
    (congrArg (·.bound side) (bare_variableAt_retireIfDead _ l v))

theorem keepsBound_newVariable (ws : Workspace α μ) (spec : VariableSpec α) :
    KeepsBound side v ws (ws.newVariable spec).1 := by
  intro hv
  rw [size_newVariable, variableAt_newVariable, if_neg (Nat.ne_of_lt hv)]
  exact ⟨Nat.lt_succ_of_lt hv, rfl⟩

/-- A change of a variable stores what it asks for, and then a bound changes in
the calls of observers only. -/
theorem HasBound.edit (h : HasBound side v b ws) (op : Operation α) (hop : op.target? = some w)
    (c : Conduct α μ) :
    ∃ ws₁, HasBound side v ((op.request? side v).getD b) ws₁
      ∧ ChangesIn side v ws₁ (editCalls c op w ws) (ws.perform c op).1 := by
  rcases perform_cases hop ws with ⟨hedit, answer, hperform⟩
      | ⟨store, hedit, ws', answer, hsame, hperform⟩
      | ⟨store, action, change, hedit, answer, hperform⟩
  · refine ⟨ws, h.of_edit?_eq_none hop hedit, ?_⟩
    rw [hperform, editCalls, hedit]
    exact .refl ws
  · refine ⟨ws.write w store, h.write hop hedit, ?_⟩
    rw [hperform, editCalls, hedit]
    obtain ⟨_, _, rfl⟩ := hsame
    exact .of_vars rfl
  · refine ⟨ws.write w store, h.write hop hedit, ?_⟩
    rw [hperform, editCalls, hedit]
    have htold : ChangesIn side v (ws.write w store) _
      ((ws.write w store).tellListeners c action w change).1 := changesIn_tellListeners action _
    rw [handles_variableAt_write] at htold
    exact htold

/-- A turn stores what it asks for, and then a bound changes in the calls of
clients only. -/
theorem HasBound.turn (h : HasBound side v b ws) (c : Conduct α μ) (t : Turn α μ) :
    ∃ ws₁, HasBound side v ((t.request? side v).getD b) ws₁
      ∧ ChangesIn side v ws₁ (t.calls c ws) (ws.turn c t) := by
  have hkept : ∀ {ws'}, KeepsBound side v ws ws' → ∃ ws₁, HasBound side v b ws₁
      ∧ ChangesIn side v ws₁ [] ws' := fun hkept => ⟨ws, h, hkept⟩
  cases t with
  | move m =>
    cases m with
    | operate op =>
      cases op with
      | setName w name => exact h.edit (.setName w name) rfl c
      | setBound s w b' => exact h.edit (.setBound s w b') rfl c
      | setKind w kind => exact h.edit (.setKind w kind) rfl c
      | freeze w => exact h.edit (.freeze w) rfl c
      | unfreeze w => exact h.edit (.unfreeze w) rfl c
      | assign w level => exact hkept (keepsBound_assign ws w level)
      | attach w k =>
        exact hkept (.of_bareAt (sameListeners_attach ws w k).size
          (congrArg (·.bound side) (congrFun (bareAt_attach ws w k) v)))
      | detach w id =>
        exact hkept (.of_bareAt (sameListeners_updateVariable ws w _).size
          (congrArg (·.bound side) (congrFun (bareAt_detach ws w id) v)))
      | generate l => exact hkept (keepsBound_generate ws l)
      | solve l => exact ⟨ws, h, changesIn_solve l ws⟩
      | tell l w change => exact hkept (keepsBound_tellSolver ws l w change)
      | drop l => exact hkept (keepsBound_drop ws l)
    | newVariable spec => exact hkept (keepsBound_newVariable ws spec)
    | newSolver model backend config => exact hkept (.of_vars rfl)
    | newObserver => exact hkept (.of_vars rfl)
  | hold l => exact hkept (.of_vars rfl)
  | release l => exact hkept (keepsBound_release ws l)
  | note events memory => exact hkept (.of_vars rfl)

end Workspace

/-! ## The last request -/

open Workspace

omit [Scalar α] in
theorem getLastD_append (first later : List α) (b : α) :
    (first ++ later).getLastD b = later.getLastD (first.getLastD b) := by
  simp only [List.getLastD_eq_getLast?, List.getLast?_append]
  cases later.getLast? <;> rfl

omit [Scalar α] in
theorem getLastD_toList (request : Option α) (b : α) :
    request.toList.getLastD b = request.getD b := by
  cases request <;> rfl

variable {side : Side} {v : VariableRef}

mutual

/-- After a course a bound is within the tolerance of the last request, or of
what it was near to before, if it was not asked for. -/
theorem Requests.hasBound : ∀ {c : Conduct α μ} {turns : List (Turn α μ)} {ws : Workspace α μ}
    {requests : List α}, Requests side v c turns ws requests → ∀ {b : α}, HasBound side v b ws →
    HasBound side v (requests.getLastD b) (ws.course c turns)
  | _, _, _, _, .nil, _, hb => hb
  | c, t :: _, _, _, .cons hduring hlater, b, hb => by
    obtain ⟨ws₁, hstored, hchanges⟩ := hb.turn c t
    have hcalled := hduring.hasBound hchanges hstored
    have hrest := hlater.hasBound hcalled
    rw [getLastD_append, getLastD_append, getLastD_toList]
    exact hrest

/-- After the calls of clients a bound is within the tolerance of the last of
their requests. -/
theorem CallRequests.hasBound : ∀ {calls : List (ClientCall α μ)} {requests : List α},
    CallRequests side v calls requests → ∀ {ws ws' : Workspace α μ} {b : α},
    ChangesIn side v ws calls ws' → HasBound side v b ws →
    HasBound side v (requests.getLastD b) ws'
  | _, _, .nil, _, _, _, hchanges, hb => hb.kept hchanges
  | _, _, .cons hleft hduring hlater, _, _, b, hchanges, hb => by
    have hacted := hduring.hasBound (hb.kept hchanges.1)
    rw [← hleft] at hacted
    have hrest := hlater.hasBound hchanges.2 hacted
    rw [getLastD_append]
    exact hrest

end

/-! ## Clients that act by turns -/

/-- What is done in a call is the reaction of an observer, or of a backend. -/
def ClientCall.IsOf (c : Conduct α μ) (call : ClientCall α μ) : Prop :=
  (∃ l w change, call.left = (c.receive l w change call.found).1)
    ∨ ∃ l p, call.left = (c.answer l p call.found).1

variable {c : Conduct α μ} {ws : Workspace α μ} {call : ClientCall α μ}

theorem isOf_of_mem_editCalls {op : Operation α} {w : VariableRef}
    (h : call ∈ editCalls c op w ws) : call.IsOf c := by
  unfold editCalls at h
  split at h
  · obtain ⟨visit, -, rfl⟩ := List.mem_map.mp h
    exact Or.inl ⟨_, _, _, rfl⟩
  · cases h

theorem isOf_of_mem_solveCalls {l : ListenerRef} (h : call ∈ solveCalls c l ws) :
    call.IsOf c := by
  unfold solveCalls at h
  split at h
  · cases h
  · next s _ =>
    cases hg : s.generated with
    | none =>
      rw [hg] at h
      cases h
    | some g =>
      rw [hg, Option.elim_some, askCalls] at h
      split at h
      · cases h
      · obtain rfl := List.mem_singleton.mp h
        exact Or.inr ⟨_, _, rfl⟩

theorem isOf_of_mem_calls {t : Turn α μ} (h : call ∈ t.calls c ws) : call.IsOf c := by
  cases t with
  | move m =>
    cases m with
    | operate op =>
      cases op with
      | setName w name => exact isOf_of_mem_editCalls h
      | setBound s w b => exact isOf_of_mem_editCalls h
      | setKind w kind => exact isOf_of_mem_editCalls h
      | freeze w => exact isOf_of_mem_editCalls h
      | unfreeze w => exact isOf_of_mem_editCalls h
      | solve l => exact isOf_of_mem_solveCalls h
      | _ => cases h
    | _ => cases h
  | _ => cases h

/-- What is done in a call is a course, with a list of what it asks. -/
def ClientCall.Acts (side : Side) (v : VariableRef) (call : ClientCall α μ) : Prop :=
  ∃ inner turns during, call.left = call.found.course inner turns
    ∧ Requests side v inner turns call.found during

theorem exists_callRequests {calls : List (ClientCall α μ)}
    (hacts : ∀ call ∈ calls, call.Acts side v) :
    ∃ requests, CallRequests side v calls requests := by
  induction calls with
  | nil => exact ⟨[], .nil⟩
  | cons call rest ih =>
    obtain ⟨hfirst, hrest⟩ := List.forall_mem_cons.mp hacts
    obtain ⟨inner, turns, during, hleft, hduring⟩ := hfirst
    obtain ⟨later, hlater⟩ := ih hrest
    exact ⟨during ++ later, .cons hleft hduring hlater⟩

theorem exists_requests_of_acts (hacts : ∀ call : ClientCall α μ, call.IsOf c → call.Acts side v)
    (turns : List (Turn α μ)) (ws : Workspace α μ) :
    ∃ requests, Requests side v c turns ws requests := by
  induction turns generalizing ws with
  | nil => exact ⟨[], .nil⟩
  | cons t rest ih =>
    obtain ⟨during, hduring⟩ : ∃ during, CallRequests side v (t.calls c ws) during :=
      exists_callRequests fun call hcall => hacts call (isOf_of_mem_calls hcall)
    obtain ⟨later, hlater⟩ := ih (ws.turn c t)
    exact ⟨_, .cons hduring hlater⟩

/-- Remembering something is a turn that asks for nothing. -/
theorem exists_notes (c : Conduct α μ) (h : call.found.SameState call.left) : ∃ notes,
    call.left = call.found.course c notes ∧ Requests side v c notes call.found [] := by
  obtain ⟨events, memory, hleft⟩ := h
  have hnothing : Requests side v c [.note events memory] call.found ([] ++ [] ++ []) :=
    .cons .nil .nil
  exact ⟨[.note events memory], hleft, hnothing⟩

omit [Scalar α] in
/-- Quiet clients only remember. -/
theorem ClientCall.IsOf.sameState (hcall : call.IsOf c) (hobservers : c.QuietObservers)
    (hbackends : c.QuietBackends) : call.found.SameState call.left := by
  rcases hcall with ⟨l, w, change, hleft⟩ | ⟨l, p, hleft⟩
  · exact hleft ▸ hobservers l w change call.found
  · exact hleft ▸ hbackends l p call.found

/-- Where clients act by turns, what is asked of a bound can be listed. -/
theorem Conduct.Heeds.exists_requests {guard : Guard α μ} (h : c.Heeds guard)
    (turns : List (Turn α μ)) (ws : Workspace α μ) :
    ∃ requests, Requests side v c turns ws requests := by
  induction h generalizing turns ws with
  | @quiet c hobservers hbackends =>
    refine exists_requests_of_acts (fun call hcall => ?_) turns ws
    obtain ⟨notes, hleft, hnothing⟩ := exists_notes c (hcall.sameState hobservers hbackends)
    exact ⟨c, notes, [], hleft, hnothing⟩
  | @acting c inner _ hreceive hanswer ih =>
    refine exists_requests_of_acts (fun call hcall => ?_) turns ws
    obtain ⟨found, left⟩ := call
    rcases hcall with ⟨l, w, change, hleft⟩ | ⟨l, p, hleft⟩
    · obtain ⟨acted, -, hcourse⟩ := hreceive l w change found
      obtain ⟨during, hduring⟩ := ih acted found
      exact ⟨inner, acted, during, hleft.trans hcourse, hduring⟩
    · obtain ⟨acted, -, hcourse⟩ := hanswer l p found
      obtain ⟨during, hduring⟩ := ih acted found
      exact ⟨inner, acted, during, hleft.trans hcourse, hduring⟩

/-- Where clients do nothing but remember, only the turns ask for anything. -/
theorem requests_of_quiet (hobservers : c.QuietObservers) (hbackends : c.QuietBackends)
    (turns : List (Turn α μ)) (ws : Workspace α μ) :
    Requests side v c turns ws (turns.filterMap (Turn.request? side v)) := by
  have hnothing : ∀ calls : List (ClientCall α μ), (∀ call ∈ calls, call.IsOf c) →
      CallRequests side v calls [] := by
    intro calls hcalls
    induction calls with
    | nil => exact .nil
    | cons call rest ih =>
      obtain ⟨hfirst, hrest⟩ := List.forall_mem_cons.mp hcalls
      obtain ⟨notes, hleft, hnotes⟩ := exists_notes c (hfirst.sameState hobservers hbackends)
      exact .cons hleft hnotes (ih hrest)
  induction turns generalizing ws with
  | nil => exact .nil
  | cons t rest ih =>
    have hcalls := hnothing (t.calls c ws) fun call => isOf_of_mem_calls
    have hturns := Requests.cons hcalls (ih (ws.turn c t))
    have hrequests : (t :: rest).filterMap (Turn.request? side v)
        = (t.request? side v).toList ++ [] ++ rest.filterMap (Turn.request? side v) := by
      rw [List.append_nil, List.filterMap_cons]
      cases t.request? side v <;> rfl
    rw [hrequests]
    exact hturns

end Milp
