/-
Milp.Proofs.Reentrance — observers that change variables while they are told.

An observer that is told of a change may change variables itself, and the
listeners of those are told before it is done: its `Reaction`. What such
observers do is a conduct in which each reacts over the conduct of all
(`Reaction.step`). That there is exactly one, `Reaction.conduct`, does not go
without saying: handles lead from observer to variable to observer in circles.

It is the seats that settle it. An observer is held while it is told, and
whatever it does meanwhile leaves the seats as they are
(`Reaction.keepsSeats_step`). So each notification within another finds fewer
observers idle (`Reaction.Nests.spec`), and an observer that is being told
already is found in use (`Workspace.perform_of_busy`).
-/
import Milp.Proofs.Retry
import Milp.Proofs.Visits

namespace Milp

variable {α μ : Type}

/-! ## Idle observers -/

/-- Making an element fail a test lowers the count of those that pass. -/
theorem countP_modify_lt {β : Type} {p : β → Bool} {f : β → β} {l : List β} {i : Nat} {b : β}
    (hb : l[i]? = some b) (hp : p b = true) (hf : p (f b) = false) :
    (l.modify i f).countP p < l.countP p := by
  induction l generalizing i with
  | nil => cases hb
  | cons a rest ih =>
    cases i with
    | zero =>
      obtain rfl := Option.some.inj hb
      rw [List.modify_zero_cons, List.countP_cons_of_pos hp, List.countP_cons_of_neg (by simp [hf])]
      exact Nat.lt_succ_self _
    | succ i =>
      rw [List.modify_succ_cons, List.countP_cons, List.countP_cons]
      exact Nat.add_lt_add_right (ih hb) _

namespace Workspace

variable {ws ws' : Workspace α μ} {l k : ListenerRef}

/-- How many observers there are. -/
def observers (ws : Workspace α μ) : Nat := ws.listeners.countP fun a => a.solver?.isNone

/-- How many observers are not in use. -/
def idleObservers (ws : Workspace α μ) : Nat :=
  ws.listeners.countP fun a => a.solver?.isNone && !a.isBusy

/-- A listener is in use. -/
def Busy (ws : Workspace α μ) (k : ListenerRef) : Prop :=
  (ws.listener? k).any Listener.isBusy = true

theorem idleObservers_le (ws : Workspace α μ) : ws.idleObservers ≤ ws.observers :=
  List.countP_mono_left fun _ _ ha => ((Bool.and_eq_true _ _).mp ha).1

theorem SameSeats.idleObservers (h : SameSeats ws ws') :
    ws'.idleObservers = ws.idleObservers := by
  have hseats : ws'.listeners.map Listener.seat = ws.listeners.map Listener.seat := by
    refine List.ext_getElem? fun i => ?_
    rw [List.getElem?_map, List.getElem?_map]
    exact h ⟨i⟩
  have hcount : ∀ ws : Workspace α μ, ws.idleObservers = (ws.listeners.map Listener.seat).countP
      fun seat => seat.1 && !decide (0 < seat.2.2) := by
    intro ws
    rw [List.countP_map]
    rfl
  rw [hcount, hseats, hcount]

theorem SameSeats.busy (h : SameSeats ws ws') : ws'.Busy k ↔ ws.Busy k := by
  rw [Busy, h.isBusy, Busy]

theorem busy_hold_self {a : Listener α} (ha : ws.listener? k = some a) : (ws.hold k).Busy k := by
  rw [Busy, hold, listener?_updateListener_self, ha]
  simp [Listener.isBusy]

/-- Who is in use stays so when another is taken into use. -/
theorem Busy.hold (h : ws.Busy k) (l : ListenerRef) : (ws.hold l).Busy k := by
  obtain ⟨a, ha, hbusy⟩ := (Option.any_eq_true _ _).mp h
  by_cases hk : k = l
  · subst hk
    exact busy_hold_self ha
  · rw [Busy, Workspace.hold, listener?_updateListener_of_ne hk]
    exact h

end Workspace

/-- A listener in use is not called, and stops telling. -/
theorem Visit.reception_of_busy {t : Visit α μ} (h : t.found.Busy t.handle.listener)
    (c : Conduct α μ) (v : VariableRef) (change : Change α) :
    t.calls = false ∧ t.reception c v change = .inUse := by
  obtain ⟨a, ha, hbusy⟩ := (Option.any_eq_true _ _).mp h
  have halive : a.isAlive = true := by
    rw [Listener.isAlive, Bool.or_eq_true]
    exact Or.inr hbusy
  constructor
  · rw [Visit.calls, ha, Option.any_some, halive, hbusy]
    rfl
  · simp only [Visit.reception, ha, halive, hbusy, Bool.not_true, Bool.false_eq_true, if_false,
      if_true]

variable [Scalar α]

/-! ## Operations on variables -/

/-- Changing a variable, or what is attached to it. -/
def Operation.onVariable : Operation α → Bool
  | .setName .. | .setBound .. | .setKind .. | .freeze _ | .unfreeze _ | .attach .. | .detach .. =>
    true
  | _ => false

omit [Scalar α] in
theorem Operation.onVariable_cases {op : Operation α} (h : op.onVariable = true) :
    (∃ v, op.target? = some v) ∨ (∃ v k, op = .attach v k) ∨ ∃ v id, op = .detach v id := by
  cases op with
  | attach v k => exact Or.inr (Or.inl ⟨v, k, rfl⟩)
  | detach v id => exact Or.inr (Or.inr ⟨v, id, rfl⟩)
  | setName v name => exact Or.inl ⟨v, rfl⟩
  | setKind v kind => exact Or.inl ⟨v, rfl⟩
  | setBound side v b => exact Or.inl ⟨v, rfl⟩
  | freeze v => exact Or.inl ⟨v, rfl⟩
  | unfreeze v => exact Or.inl ⟨v, rfl⟩
  | _ => cases h

/-- Observers leave every seat as it is. -/
def Conduct.KeepsSeats (c : Conduct α μ) : Prop :=
  ∀ l v change (ws : Workspace α μ), ws.SameSeats (c.receive l v change ws).1

/-- An observer is told of a change, in the workspace as it is then. -/
structure Notice (α μ : Type) where
  listener : ListenerRef
  subject : VariableRef
  change : Change α
  found : Workspace α μ

/-- What comes of telling an observer. -/
def Conduct.heeds (c : Conduct α μ) (n : Notice α μ) : Outcome α μ Unit :=
  c.receive n.listener n.subject n.change n.found

omit [Scalar α] in
theorem Conduct.eq_of_heeds {c c' : Conduct α μ} (h : ∀ n, c'.heeds n = c.heeds n)
    (hanswer : c'.answer = c.answer) : c' = c := by
  have hreceive : c'.receive = c.receive := by
    funext l v change ws
    exact h ⟨l, v, change, ws⟩
  cases c
  cases c'
  exact Conduct.mk.injEq .. ▸ ⟨hreceive, hanswer⟩

namespace Workspace

variable {ws ws' : Workspace α μ} {c c' : Conduct α μ} {v : VariableRef} {change : Change α}
  {action : Action} {hs : List Handle} {op : Operation α}

/-- Carrying out an operation tells a change of a variable, and gets to a handle. -/
def Visits (c : Conduct α μ) (op : Operation α) (ws : Workspace α μ) (v : VariableRef)
    (change : Change α) (t : Visit α μ) : Prop :=
  op.target? = some v ∧ ∃ store action,
    op.edit? (ws.variableAt v) = some ⟨store, some (action, change)⟩
    ∧ t ∈ visits c action v change (ws.variableAt v).handles (ws.write v store)

/-- Carrying out an operation tells an observer. -/
def Calls (c : Conduct α μ) (op : Operation α) (ws : Workspace α μ) (n : Notice α μ) : Prop :=
  ∃ t, Visits c op ws n.subject n.change t ∧ t.calls = true
    ∧ n.listener = t.handle.listener ∧ n.found = t.found.hold t.handle.listener

/-! ## Seats are kept -/

theorem sameSeats_deliver (hc : c.KeepsSeats) (action : Action) (v : VariableRef)
    (change : Change α) (hs : List Handle) (ws : Workspace α μ) :
    SameSeats ws (deliver c action v change hs ws).1 := by
  have hstep : ∀ {ws₁ : Workspace α μ} (h : Handle), SameSeats ws ws₁ →
      SameSeats ws (notify c h v change ws₁).1 := fun h hseats =>
    hseats.trans (sameSeats_notify hc h _)
  rcases deliver_induction (I := fun _ => SameSeats ws) (E := SameSeats ws)
    (fun event h => h.trans (sameListeners_emit _ event).sameSeats)
    (fun h _ => hstep _ h) (fun h _ => hstep _ h) action hs (.refl ws) with ⟨-, h⟩ | ⟨-, h⟩
  · exact h
  · exact h

theorem sameSeats_tellListeners (hc : c.KeepsSeats) (action : Action) (v : VariableRef)
    (change : Change α) (ws : Workspace α μ) :
    SameSeats ws (ws.tellListeners c action v change).1 := by
  have hdelivered := sameSeats_deliver hc action v change (ws.variableAt v).handles ws
  unfold tellListeners
  split
  · next hdeliver =>
    rw [hdeliver] at hdelivered
    exact hdelivered
  · next hdeliver =>
    rw [hdeliver] at hdelivered
    exact hdelivered.trans (sameListeners_prune ..).sameSeats

omit [Scalar α] in
theorem sameSeats_write (ws : Workspace α μ) (v : VariableRef) (store : Write α) :
    SameSeats ws (ws.write v store) :=
  (sameListeners_updateVariable ws v _).sameSeats

theorem sameSeats_perform (hc : c.KeepsSeats) (hop : op.onVariable = true) (ws : Workspace α μ) :
    SameSeats ws (ws.perform c op).1 := by
  rcases Operation.onVariable_cases hop with ⟨v, hv⟩ | ⟨v, k, rfl⟩ | ⟨v, id, rfl⟩
  · rcases perform_cases hv ws with ⟨-, answer, hperform⟩ | ⟨store, -, ws', answer, hsame, hperform⟩
        | ⟨store, action, change, -, answer, hperform⟩
    · rw [hperform]
      exact .refl ws
    · rw [hperform]
      exact (sameSeats_write ws v store).trans hsame.sameListeners.sameSeats
    · rw [hperform]
      exact (sameSeats_write ws v store).trans (sameSeats_tellListeners hc action v change _)
  · exact (sameListeners_attach ws v k).sameSeats
  · exact (sameListeners_updateVariable ws v _).sameSeats

theorem sameSeats_visit (hc : c.KeepsSeats) {t : Visit α μ} (ht : Visits c op ws v change t) :
    SameSeats ws t.found := by
  obtain ⟨-, store, action, -, ht⟩ := ht
  exact (sameSeats_write ws v store).trans (visits_related (fun ws => .refl ws)
    (fun h h' => h.trans h') (fun ws event => (sameListeners_emit ws event).sameSeats)
    (sameSeats_notify hc) ht)

/-! ## What calls depend on -/

theorem notify_congr_of_calls {t : Visit α μ} (h : t.calls = true →
    t.call c' v change = t.call c v change) :
    notify c' t.handle v change t.found = notify c t.handle v change t.found := by
  cases ha : t.found.listener? t.handle.listener with
  | none => simp only [notify, ha]
  | some a =>
    cases halive : a.isAlive with
    | false => simp only [notify, ha, halive, Bool.not_false, if_true]
    | true =>
      cases hbusy : a.isBusy with
      | true => simp only [notify, ha, halive, hbusy, Bool.not_true, Bool.false_eq_true, if_true]
      | false =>
        cases hrole : a.role with
        | solver s => simp only [notify, ha, halive, hbusy, hrole]
        | observer id =>
          have hcalls : t.calls = true := by
            rw [Visit.calls, ha, Option.any_some, halive, hbusy, Listener.solver?, hrole]
            rfl
          have hcall := h hcalls
          simp only [Visit.call] at hcall
          simp only [notify, ha, halive, hbusy, hrole, hcall]

theorem deliver_congr_of_calls
    (h : ∀ t ∈ visits c action v change hs ws, t.calls = true →
      t.call c' v change = t.call c v change) :
    deliver c' action v change hs ws = deliver c action v change hs ws := by
  induction hs generalizing ws with
  | nil => rfl
  | cons k rest ih =>
    unfold visits at h
    obtain ⟨hfirst, hrest⟩ := List.forall_mem_cons.mp h
    have hnotify : notify c' k v change ws = notify c k v change ws :=
      notify_congr_of_calls (t := ⟨k, ws⟩) hfirst
    rw [deliver, hnotify, deliver]
    cases hnotified : notify c k v change ws with
    | mk ws₁ answer =>
      simp only [hnotified] at hrest
      cases answer with
      | error e => rfl
      | ok told =>
        cases told with
        | true => exact ih hrest
        | false => simp only [ih hrest]

/-- Carrying out an operation depends on the observers only as far as it calls
them. -/
theorem perform_congr_of_calls (hop : op.onVariable = true)
    (h : ∀ n, Calls c op ws n → c'.heeds n = c.heeds n) :
    ws.perform c' op = ws.perform c op := by
  rcases Operation.onVariable_cases hop with ⟨v, hv⟩ | ⟨v, k, rfl⟩ | ⟨v, id, rfl⟩
  · refine perform_congr hv fun store action change hedit => ?_
    have hdeliver : ∀ t ∈ visits c action v change (ws.variableAt v).handles (ws.write v store),
        t.calls = true → t.call c' v change = t.call c v change := fun t ht hcalls =>
      h ⟨t.handle.listener, v, change, t.found.hold t.handle.listener⟩
        ⟨t, ⟨hv, store, action, hedit, ht⟩, hcalls, rfl, rfl⟩
    rw [tellListeners, tellListeners, handles_variableAt_write, deliver_congr_of_calls hdeliver]
  · rfl
  · rfl

/-- Who is called was idle, and is held. -/
theorem Calls.spec (hc : c.KeepsSeats) {n : Notice α μ} (h : Calls c op ws n) :
    n.found.idleObservers < ws.idleObservers ∧ n.found.Busy n.listener ∧ ¬ ws.Busy n.listener
      ∧ ∀ k, ws.Busy k → n.found.Busy k := by
  obtain ⟨t, ht, hcalls, hlistener, hfound⟩ := h
  have hseats := sameSeats_visit hc ht
  obtain ⟨a, ha, hidle⟩ := (Option.any_eq_true _ _).mp hcalls
  simp only [Bool.and_eq_true, Bool.not_eq_true'] at hidle
  obtain ⟨⟨-, hbusy⟩, hrole⟩ := hidle
  rw [hfound, hlistener]
  refine ⟨?_, busy_hold_self ha, ?_, fun k hk => (hseats.busy.mpr hk).hold _⟩
  · have hlt : (t.found.hold t.handle.listener).idleObservers < t.found.idleObservers :=
      countP_modify_lt ha (by simp [hrole, hbusy]) (by simp [Listener.isBusy])
    rw [hseats.idleObservers] at hlt
    exact hlt
  · rw [← hseats.busy, Busy, ha, Option.any_some, hbusy]
    exact Bool.false_ne_true

/-! ## Carrying out a list of operations -/

/-- Carries out operations one after the other, whatever they answer. -/
def performAll (c : Conduct α μ) (ops : List (Operation α)) (ws : Workspace α μ) :
    Workspace α μ × List (Except (ModelError α) Answer) :=
  match ops with
  | [] => (ws, [])
  | op :: rest =>
    let (left, answer) := ws.perform c op
    let (last, answers) := left.performAll c rest
    (last, answer :: answers)

theorem sameSeats_performAll (hc : c.KeepsSeats) {ops : List (Operation α)}
    (hops : ∀ op ∈ ops, op.onVariable = true) (ws : Workspace α μ) :
    SameSeats ws (performAll c ops ws).1 := by
  induction ops generalizing ws with
  | nil => exact .refl ws
  | cons op rest ih =>
    obtain ⟨hop, hrest⟩ := List.forall_mem_cons.mp hops
    exact (sameSeats_perform hc hop ws).trans (ih hrest _)

/-- Clients that agree where fewer observers are idle do the same. -/
theorem performAll_congr (hc : c.KeepsSeats) {ops : List (Operation α)}
    (hops : ∀ op ∈ ops, op.onVariable = true) {idle : Nat}
    (h : ∀ n : Notice α μ, n.found.idleObservers < idle → c'.heeds n = c.heeds n)
    (hidle : ws.idleObservers ≤ idle) : performAll c' ops ws = performAll c ops ws := by
  induction ops generalizing ws with
  | nil => rfl
  | cons op rest ih =>
    obtain ⟨hop, hrest⟩ := List.forall_mem_cons.mp hops
    have hfirst : ws.perform c' op = ws.perform c op :=
      perform_congr_of_calls hop fun n hn =>
        h n (Nat.lt_of_lt_of_le (hn.spec hc).1 hidle)
    have hleft : (ws.perform c op).1.idleObservers ≤ idle := by
      rw [(sameSeats_perform hc hop ws).idleObservers]
      exact hidle
    simp only [performAll, hfirst, ih hrest hleft]

/-! ## Listeners in use -/

/-- Carrying out an operation fails where it gets to a listener in use. -/
theorem perform_of_busy (hc : c.KeepsSeats) {t : Visit α μ} (ht : Visits c op ws v change t)
    (hbusy : ws.Busy t.handle.listener) :
    t.calls = false ∧ (ws.perform c op).2 = .error (.busy t.handle.id) := by
  have hfound : t.found.Busy t.handle.listener := (sameSeats_visit hc ht).busy.mpr hbusy
  obtain ⟨hcalls, hreception⟩ := Visit.reception_of_busy hfound c v change
  refine ⟨hcalls, ?_⟩
  obtain ⟨hop, store, action, hedit, hvisit⟩ := ht
  have hstops : ¬ (t.reception c v change).passes = true := by
    rw [hreception]
    exact Bool.false_ne_true
  rcases perform_cases hop ws with ⟨hnone, -⟩ | ⟨_, hsome, -⟩
      | ⟨store', action', change', hsome, answer, hperform⟩
  · rw [hnone] at hedit
    cases hedit
  · rw [hsome] at hedit
    cases hedit
  · rw [hsome] at hedit
    cases hedit
    rw [hperform, answered, tellListeners, handles_variableAt_write]
    cases hdeliver : deliver c action v change (ws.variableAt v).handles (ws.write v store) with
    | mk left result =>
      cases result with
      | ok dead => exact absurd ((visits_of_ok hdeliver).1 t hvisit) hstops
      | error e =>
        obtain ⟨before, last, rest, hvisits, -, hpassed, hanswer, -⟩ := visits_of_error hdeliver
        rw [hvisits] at hvisit
        rcases List.mem_append.mp hvisit with hbefore | hlast
        · exact absurd (hpassed t hbefore) hstops
        · obtain rfl := List.mem_singleton.mp hlast
          rw [hreception] at hanswer
          obtain rfl := Except.error.inj hanswer
          rfl

end Workspace

open Workspace

/-! ## Reactions -/

/-- How observers react to what they are told: by operations on variables, one
after the other, and then by an answer. -/
structure Reaction (α μ : Type) [Scalar α] where
  ops : ListenerRef → VariableRef → Change α → Workspace α μ → List (Operation α)
  onVariable : ∀ {l v change ws}, ∀ op ∈ ops l v change ws, op.onVariable = true
  /-- What is remembered and answered, after the operations and their answers. -/
  verdict : ListenerRef → VariableRef → Change α → Workspace α μ →
    List (Except (ModelError α) Answer) → μ × Except (ModelError α) Unit
  /-- What backends do. -/
  answer : ListenerRef → Problem α → Workspace α μ →
    Workspace α μ × Except (SolverError α) (Solution α)

namespace Reaction

variable {r : Reaction α μ} {c c' : Conduct α μ} {ws : Workspace α μ} {op : Operation α}
  {n n' : Notice α μ}

/-- One observer reacts, where all observers do as `c` says. -/
def react (r : Reaction α μ) (c : Conduct α μ) (l : ListenerRef) (v : VariableRef)
    (change : Change α) (ws : Workspace α μ) : Outcome α μ Unit :=
  let (left, answers) := performAll c (r.ops l v change ws) ws
  let (memory, answer) := r.verdict l v change left answers
  ({ left with memory }, answer)

/-- Every observer reacts, where all observers do as `c` says meanwhile. -/
def step (r : Reaction α μ) (c : Conduct α μ) : Conduct α μ where
  receive := r.react c
  answer := r.answer

/-- Observers react to a depth of reactions within reactions; below it they do
as `bottom` says. -/
def upTo (r : Reaction α μ) (bottom : Conduct α μ) : Nat → Conduct α μ
  | 0 => bottom
  | depth + 1 => r.step (r.upTo bottom depth)

/-- Observers do nothing. -/
def still (r : Reaction α μ) : Conduct α μ where
  receive _ _ _ ws := (ws, .ok ())
  answer := r.answer

/-- Observers react, to the depth that is needed where they are told. -/
def conduct (r : Reaction α μ) : Conduct α μ where
  receive l v change ws := (r.upTo r.still (ws.idleObservers + 1)).receive l v change ws
  answer := r.answer

theorem receive_conduct : r.conduct.receive = fun l v change ws =>
    (r.upTo r.still (ws.idleObservers + 1)).receive l v change ws := rfl

theorem heeds_conduct (n : Notice α μ) :
    r.conduct.heeds n = (r.upTo r.still (n.found.idleObservers + 1)).heeds n := by
  rw [Conduct.heeds, receive_conduct, Conduct.heeds]

theorem keepsSeats_step (hc : c.KeepsSeats) : (r.step c).KeepsSeats :=
  fun _ _ _ ws => sameSeats_performAll hc r.onVariable ws

theorem keepsSeats_upTo (hc : c.KeepsSeats) (depth : Nat) : (r.upTo c depth).KeepsSeats := by
  induction depth with
  | zero => exact hc
  | succ depth ih => exact keepsSeats_step ih

theorem keepsSeats_still : r.still.KeepsSeats := fun _ _ _ ws => .refl ws

theorem keepsSeats_conduct : r.conduct.KeepsSeats :=
  fun l v change ws => keepsSeats_upTo keepsSeats_still (ws.idleObservers + 1) l v change ws

/-- A reaction depends on what observers do where fewer are idle. -/
theorem heeds_step_congr (hc : c.KeepsSeats)
    (h : ∀ n' : Notice α μ, n'.found.idleObservers < n.found.idleObservers →
      c'.heeds n' = c.heeds n') : (r.step c').heeds n = (r.step c).heeds n := by
  have hsame : n.found.performAll c' (r.ops n.listener n.subject n.change n.found)
      = n.found.performAll c (r.ops n.listener n.subject n.change n.found) :=
    performAll_congr hc r.onVariable h (Nat.le_refl _)
  simp only [Conduct.heeds, step, react, hsame]

/-- Deeper than observers are idle, the depth does not matter. -/
theorem heeds_upTo_eq {bottom : Conduct α μ} {depth depth' : Nat}
    (h : n.found.idleObservers < depth) (h' : n.found.idleObservers < depth') :
    (r.upTo bottom depth).heeds n = (r.upTo r.still depth').heeds n := by
  induction depth generalizing depth' n with
  | zero => exact absurd h (Nat.not_lt_zero _)
  | succ depth ih =>
    cases depth' with
    | zero => exact absurd h' (Nat.not_lt_zero _)
    | succ depth' =>
      refine heeds_step_congr (keepsSeats_upTo keepsSeats_still depth') fun n' hn' => ?_
      exact ih (Nat.lt_of_lt_of_le hn' (Nat.le_of_lt_succ h))
        (Nat.lt_of_lt_of_le hn' (Nat.le_of_lt_succ h'))

theorem heeds_upTo {bottom : Conduct α μ} {depth : Nat} (h : n.found.idleObservers < depth) :
    (r.upTo bottom depth).heeds n = r.conduct.heeds n := by
  rw [heeds_conduct]
  exact heeds_upTo_eq h (Nat.lt_succ_self _)

/-- In the conduct of all, each reacts over the conduct of all. -/
theorem step_conduct : r.step r.conduct = r.conduct := by
  refine Conduct.eq_of_heeds (fun n => ?_) rfl
  calc (r.step r.conduct).heeds n
      = (r.upTo r.still (n.found.idleObservers + 1)).heeds n :=
        (heeds_step_congr keepsSeats_conduct fun n' hn' => heeds_upTo hn').symm
    _ = r.conduct.heeds n := (heeds_conduct n).symm

/-- There is one conduct in which each reacts over the conduct of all. -/
theorem eq_step_iff : c = r.step c ↔ c = r.conduct := by
  constructor
  · intro hc
    have hanswer : c.answer = r.answer := by
      rw [hc]
      rfl
    refine Conduct.eq_of_heeds (fun n => ?_) hanswer
    induction hidle : n.found.idleObservers using Nat.strongRecOn generalizing n with
    | ind idle ih =>
      calc c.heeds n = (r.step c).heeds n := by rw [← hc]
        _ = (r.step r.conduct).heeds n := heeds_step_congr keepsSeats_conduct fun n' hn' =>
          ih n'.found.idleObservers (hidle ▸ hn') n' rfl
        _ = r.conduct.heeds n := by rw [step_conduct]
  · rintro rfl
    exact step_conduct.symm

/-! ## Notifications within notifications -/

/-- While an observer reacts to a notice, an operation is carried out in the
workspace as it is then. -/
def CarriesOut (r : Reaction α μ) (n : Notice α μ) (op : Operation α) (ws : Workspace α μ) :
    Prop :=
  ∃ before after, r.ops n.listener n.subject n.change n.found = before ++ op :: after
    ∧ ws = (n.found.performAll r.conduct before).1

/-- While an observer reacts to a notice, another is told. -/
def Nests (r : Reaction α μ) (n n' : Notice α μ) : Prop :=
  ∃ op ws, r.CarriesOut n op ws ∧ ws.Calls r.conduct op n'

/-- The first operation finds what the observer has been told in. -/
theorem carriesOut_first {rest : List (Operation α)}
    (hops : r.ops n.listener n.subject n.change n.found = op :: rest) :
    r.CarriesOut n op n.found :=
  ⟨[], rest, hops, rfl⟩

theorem CarriesOut.sameSeats (h : r.CarriesOut n op ws) : SameSeats n.found ws := by
  obtain ⟨before, after, hops, rfl⟩ := h
  refine sameSeats_performAll keepsSeats_conduct (fun op hop => ?_) n.found
  exact r.onVariable op (hops ▸ List.mem_append_left _ hop)

/-- Who is told within another's reaction was idle then, and those in use before
are still in use. -/
theorem Nests.spec (h : r.Nests n n') :
    n'.found.idleObservers < n.found.idleObservers ∧ n'.found.Busy n'.listener
      ∧ ¬ n.found.Busy n'.listener ∧ ∀ k, n.found.Busy k → n'.found.Busy k := by
  obtain ⟨op, ws, hcarries, hcalls⟩ := h
  obtain ⟨hidle, hheld, hwas, hstay⟩ := hcalls.spec keepsSeats_conduct
  have hseats := hcarries.sameSeats
  rw [hseats.idleObservers] at hidle
  rw [hseats.busy] at hwas
  exact ⟨hidle, hheld, hwas, fun k hk => hstay k (hseats.busy.mpr hk)⟩

/-- There is no end to notifications that are nested in one another. -/
theorem wellFounded_nests (r : Reaction α μ) :
    WellFounded fun n' n : Notice α μ => r.Nests n n' :=
  Subrelation.wf (fun h => h.spec.1) (measure fun n : Notice α μ => n.found.idleObservers).wf

/-- Along nested notifications, those told before are in use, and others are told. -/
theorem chain_spec {rest : List (Notice α μ)} (h : List.IsChain r.Nests (n :: rest)) :
    (∀ k, n.found.Busy k → k ∉ rest.map Notice.listener
      ∧ ((n :: rest).getLast (List.cons_ne_nil n rest)).found.Busy k)
    ∧ rest.length + ((n :: rest).getLast (List.cons_ne_nil n rest)).found.idleObservers
      ≤ n.found.idleObservers := by
  induction rest generalizing n with
  | nil => exact ⟨fun k hk => ⟨List.not_mem_nil, hk⟩, Nat.le_of_eq (Nat.zero_add _)⟩
  | cons n' rest ih =>
    obtain ⟨hnests, hrest⟩ := List.isChain_cons_cons.mp h
    obtain ⟨hidle, -, hwas, hstay⟩ := hnests.spec
    obtain ⟨hbusy, hlength⟩ := ih hrest
    rw [List.getLast_cons (List.cons_ne_nil n' rest)]
    refine ⟨fun k hk => ?_, ?_⟩
    · obtain ⟨hnot, hlast⟩ := hbusy k (hstay k hk)
      refine ⟨?_, hlast⟩
      rw [List.map_cons, List.mem_cons, not_or]
      exact ⟨fun hsame => hwas (hsame ▸ hk), hnot⟩
    · rw [List.length_cons]
      omega

/-- Those who are told in nested notifications are different, and in use when
the last of them is told. -/
theorem nodup_chain {rest : List (Notice α μ)} (hn : n.found.Busy n.listener)
    (h : List.IsChain r.Nests (n :: rest)) : ((n :: rest).map Notice.listener).Nodup
      ∧ ∀ k ∈ (n :: rest).map Notice.listener,
        ((n :: rest).getLast (List.cons_ne_nil n rest)).found.Busy k := by
  induction rest generalizing n with
  | nil => exact ⟨List.nodup_singleton _, fun k hk => (List.mem_singleton.mp hk) ▸ hn⟩
  | cons n' rest ih =>
    obtain ⟨hnests, hrest⟩ := List.isChain_cons_cons.mp h
    obtain ⟨hnodup, hbusy⟩ := ih hnests.spec.2.1 hrest
    obtain ⟨hnot, hlast⟩ := (chain_spec h).1 n.listener hn
    refine ⟨List.nodup_cons.mpr ⟨hnot, hnodup⟩, fun k hk => ?_⟩
    rcases List.mem_cons.mp hk with rfl | hk
    · exact hlast
    · rw [List.getLast_cons (List.cons_ne_nil n' rest)]
      exact hbusy k hk

/-- Let every observer react to what it is told by any list of operations on
variables, while it is held, and let handles lead from any observer to any
variable, in circles or not.

There is one conduct of the observers in which each reacts over the conduct of
all, there is no end of notifications within notifications, and as many levels
of them as there are observers are enough to carry out an operation, whatever
would be done below. Observers that are told one within the reaction of the
other are different, so they are not more than there are; and where an operation
that the last of them carries out gets to one of them again, that one is not
called and the operation fails. -/
theorem reentrant_notification (r : Reaction α μ) :
    (∀ c : Conduct α μ, c = r.step c ↔ c = r.conduct)
    ∧ (WellFounded fun n' n : Notice α μ => r.Nests n n')
    ∧ (∀ (bottom : Conduct α μ) (depth : Nat) (ws : Workspace α μ) (op : Operation α),
      op.onVariable = true → ws.observers ≤ depth →
      ws.perform (r.upTo bottom depth) op = ws.perform r.conduct op)
    ∧ ∀ (ws : Workspace α μ) (op : Operation α) (n : Notice α μ) (rest : List (Notice α μ)),
      ws.Calls r.conduct op n → List.IsChain r.Nests (n :: rest) →
      ((n :: rest).map Notice.listener).Nodup
      ∧ (n :: rest).length ≤ ws.observers
      ∧ ∀ (op' : Operation α) (left : Workspace α μ) (v : VariableRef) (change : Change α)
          (t : Visit α μ),
        r.CarriesOut ((n :: rest).getLast (List.cons_ne_nil n rest)) op' left →
        left.Visits r.conduct op' v change t →
        t.handle.listener ∈ (n :: rest).map Notice.listener →
        t.calls = false ∧ (left.perform r.conduct op').2 = .error (.busy t.handle.id)
          ∧ (ModelError.busy t.handle.id : ModelError α).kind = .invalidState := by
  refine ⟨fun c => eq_step_iff, wellFounded_nests r, fun bottom depth ws op hop hdepth => ?_,
    fun ws op n rest hcalls hchain => ?_⟩
  · refine perform_congr_of_calls hop fun n hn => heeds_upTo ?_
    have hidle := (hn.spec keepsSeats_conduct).1
    have hle := ws.idleObservers_le
    omega
  · obtain ⟨hidle, hheld, -, -⟩ := hcalls.spec keepsSeats_conduct
    obtain ⟨hnodup, hbusy⟩ := nodup_chain hheld hchain
    refine ⟨hnodup, ?_, fun op' left v change t hcarries ht hmem => ?_⟩
    · have hlength := (chain_spec hchain).2
      have hle := ws.idleObservers_le
      rw [List.length_cons]
      omega
    · have hused : left.Busy t.handle.listener := hcarries.sameSeats.busy.mpr (hbusy _ hmem)
      obtain ⟨hnot, hanswer⟩ := perform_of_busy keepsSeats_conduct ht hused
      exact ⟨hnot, hanswer, rfl⟩

end Reaction

/-! ## A circle of two observers -/

/-- The observer of each of two variables names the other variable. -/
def circle : Reaction Exact (List (Except (ModelError Exact) Answer)) where
  ops l _ _ _ := if l = ⟨0⟩ then [.setName ⟨1⟩ "there"] else [.setName ⟨0⟩ "back"]
  onVariable := by
    intro l v change ws op hop
    split at hop <;> (obtain rfl := List.mem_singleton.mp hop; rfl)
  verdict _ _ _ left answers := (left.memory ++ answers, .ok ())
  answer _ _ ws := (ws, .ok (.ofStatus .infeasible ""))

/-- Each variable has one of the observers. -/
def circleStart : Workspace Exact (List (Except (ModelError Exact) Answer)) :=
  .run circle.conduct
    [.newVariable (.nonnegative "x" .continuous), .newVariable (.nonnegative "y" .continuous),
      .newObserver, .newObserver, .operate (.attach ⟨0⟩ ⟨0, ⟨0⟩⟩),
      .operate (.attach ⟨1⟩ ⟨1, ⟨1⟩⟩)] { memory := [] }

/-- The first observer is told of the name of its variable. -/
def circleNotice : Notice Exact (List (Except (ModelError Exact) Answer)) :=
  ⟨⟨0⟩, ⟨0⟩, .name "start", (circleStart.write ⟨0⟩ (.name "start")).hold ⟨0⟩⟩

/-- The second observer is told of the name that the first gives to the other. -/
def circleNested : Notice Exact (List (Except (ModelError Exact) Answer)) :=
  ⟨⟨1⟩, ⟨1⟩, .name "there", (circleNotice.found.write ⟨1⟩ (.name "there")).hold ⟨1⟩⟩

namespace Reaction

/-- A new name is told to the first handle. -/
theorem visits_setName {ws : Workspace α μ} {c : Conduct α μ} {v : VariableRef} {name : String}
    {h : Handle} {rest : List Handle} (hhandles : (ws.variableAt v).handles = h :: rest)
    (hnew : (ws.variableAt v).name.text ≠ name) : ws.Visits c (.setName v name) v (.name name)
      ⟨h, ws.write v (.name name)⟩ := by
  refine ⟨rfl, .name name, .setName, if_neg hnew, ?_⟩
  rw [hhandles]
  exact List.mem_cons_self

/-- The second observer cannot give the first variable its name back. -/
theorem reentrant_circle :
    [circleNotice.listener, circleNested.listener].Nodup
    ∧ 2 ≤ circleStart.observers
    ∧ (circleNested.found.perform circle.conduct (.setName ⟨0⟩ "back")).2 = .error (.busy 0)
    ∧ circleStart.perform (circle.upTo circle.still 2) (.setName ⟨0⟩ "start")
      = circleStart.perform circle.conduct (.setName ⟨0⟩ "start") := by
  obtain ⟨-, -, hdepth, hchains⟩ := reentrant_notification circle
  have hfirst : (circleStart.variableAt ⟨0⟩).handles = [⟨0, ⟨0⟩⟩] := by decide +kernel
  have hsecond : (circleNotice.found.variableAt ⟨1⟩).handles = [⟨1, ⟨1⟩⟩] := by decide +kernel
  have hagain : (circleNested.found.variableAt ⟨0⟩).handles = [⟨0, ⟨0⟩⟩] := by decide +kernel
  have hcalls : circleStart.Calls circle.conduct (.setName ⟨0⟩ "start") circleNotice :=
    ⟨_, visits_setName hfirst (by decide +kernel), by decide +kernel, rfl, rfl⟩
  have hnests : circle.Nests circleNotice circleNested :=
    ⟨.setName ⟨1⟩ "there", circleNotice.found, carriesOut_first rfl,
      ⟨_, visits_setName hsecond (by decide +kernel), by decide +kernel, rfl, rfl⟩⟩
  have hchain : List.IsChain circle.Nests [circleNotice, circleNested] :=
    List.isChain_cons_cons.mpr ⟨hnests, .singleton _⟩
  obtain ⟨hnodup, hlength, hrefused⟩ := hchains _ _ _ _ hcalls hchain
  obtain ⟨-, hanswer, -⟩ := hrefused (.setName ⟨0⟩ "back") circleNested.found ⟨0⟩ (.name "back") _
    (carriesOut_first rfl) (visits_setName hagain (by decide +kernel)) (by decide +kernel)
  exact ⟨hnodup, hlength, hanswer, hdepth _ 2 _ _ rfl (by decide +kernel)⟩

end Reaction

end Milp
