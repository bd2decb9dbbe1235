/-
Milp.Proofs.Retry — making a failed change again.

A change is stored before anybody is told of it, and the telling stops at
the first listener that is in use or refuses. The listeners before it have
heard of the change, the others have not (`tellListeners_error`).

Making the same change again does not reach them: the variable is already
as it should be, so a name, a kind or a bound is no change, another freeze
is one within a freeze, and another release is one too many
(`perform_again`). So the second call succeeds and tells nobody, whoever
would accept by then: the columns before the listener that failed are those
of the variable as it is, the others those of the variable as it was
(`columns_after_retry`), until another change is told or a solver generates.
-/
import Milp.Proofs.Edits
import Milp.Proofs.Run

namespace Milp

variable {α μ : Type} [Scalar α]

/-- A number that is one equals itself within the tolerance. -/
theorem Scalar.approxEq_self {b : α} (h : Scalar.isNaN b = false) : Scalar.approxEq b b = true := by
  rw [isNaN, Bool.not_eq_false'] at h
  rw [approxEq, compare, h]
  rfl

namespace Workspace

variable {ws ws' : Workspace α μ} {c : Conduct α μ} {v : VariableRef}

/-! ## Where telling stops -/

/-- A listener that refuses, or is in use, leaves everything as it was. -/
theorem sameState_notify_error (hquiet : c.QuietObservers) {h : Handle} {change : Change α}
    {e : ModelError α} (herror : notify c h v change ws = (ws', .error e)) :
    ws.SameState ws' := by
  unfold notify at herror
  split at herror
  · cases (Prod.mk.inj herror).2
  · next a ha =>
    split at herror
    · cases (Prod.mk.inj herror).2
    · next halive =>
      split at herror
      · obtain ⟨rfl, -⟩ := Prod.mk.inj herror
        exact .refl ws
      · split at herror
        · cases (Prod.mk.inj herror).2
        · obtain ⟨rfl, -⟩ := Prod.mk.inj herror
          refine sameState_release (hquiet h.listener v change (ws.hold h.listener)) ?_
          rw [ha, Option.any_some]
          simpa using halive

/-- Telling stops at one of the handles: those before it were told, it
failed, and those behind it were not reached. -/
theorem deliver_error (hquiet : c.QuietObservers) {action : Action} {change : Change α}
    {hs : List Handle} {e : ModelError α}
    (herror : deliver c action v change hs ws = (ws', .error e)) :
    ∃ before h after told, hs = before ++ h :: after ∧ Told v change before ws told
      ∧ (notify c h v change told).2 = .error e ∧ told.SameState ws' := by
  induction hs generalizing ws with
  | nil => cases (Prod.mk.inj herror).2
  | cons h rest ih =>
    unfold deliver at herror
    split at herror
    · next ws₁ e₁ hnotify =>
      obtain ⟨rfl, he⟩ := Prod.mk.inj herror
      obtain rfl := Except.error.inj he
      exact ⟨[], h, rest, ws, rfl, .of_sameState (.refl ws), congrArg Prod.snd hnotify,
        sameState_notify_error hquiet hnotify⟩
    · next ws₁ hnotify =>
      obtain ⟨hfirst, -⟩ := told_notify hquiet hnotify
      obtain ⟨before, k, after, told, rfl, htold, hfail, hsame⟩ := ih herror
      have hnoted : Told v change [h] ws (ws₁.emit (.notified action (ws₁.nameOf v) h.id)) :=
        hfirst.append (.of_sameState (sameState_emit ws₁ _))
      exact ⟨h :: before, k, after, told, rfl, hnoted.append htold, hfail, hsame⟩
    · next ws₁ hnotify =>
      obtain ⟨hfirst, -⟩ := told_notify hquiet hnotify
      split at herror
      · next ws₂ e₂ hdeliver =>
        obtain ⟨rfl, he⟩ := Prod.mk.inj herror
        obtain rfl := Except.error.inj he
        obtain ⟨before, k, after, told, rfl, htold, hfail, hsame⟩ := ih hdeliver
        exact ⟨h :: before, k, after, told, rfl, hfirst.append htold, hfail, hsame⟩
      · cases (Prod.mk.inj herror).2

/-- Telling the listeners of a variable fails at one of its handles, and
removes none of them. -/
theorem tellListeners_error (hquiet : c.QuietObservers) {action : Action} {change : Change α}
    (herror : (tellListeners c action v change ws).2.isOk = false) :
    ∃ before h after told e, (ws.variableAt v).handles = before ++ h :: after
      ∧ Told v change before ws told ∧ (notify c h v change told).2 = .error e
      ∧ told.SameState (tellListeners c action v change ws).1 := by
  unfold tellListeners at herror ⊢
  split at herror
  · next ws' e hdeliver =>
    obtain ⟨before, h, after, told, hsplit, htold, hfail, hsame⟩ := deliver_error hquiet hdeliver
    exact ⟨before, h, after, told, e, hsplit, htold, hfail, hsame⟩
  · cases herror

/-! ## Where a change stops -/

/-- Carrying out an operation, the listeners behind the handles in `before`
are told of the change, and the one behind `h` refuses or is in use. -/
def StopsAt (c : Conduct α μ) (op : Operation α) (v : VariableRef) (ws : Workspace α μ)
    (before : List Handle) (h : Handle) : Prop :=
  ∃ store action change told e, op.edit? (ws.variableAt v) = some ⟨store, some (action, change)⟩
    ∧ Told v change before (ws.write v store) told
    ∧ (notify c h v change told).2 = .error e
    ∧ told.SameState (ws.perform c op).1

/-- Storing something in a variable attaches and detaches nobody. -/
theorem handles_variableAt_write (ws : Workspace α μ) (v w : VariableRef) (store : Write α) :
    ((ws.write v store).variableAt w).handles = (ws.variableAt w).handles := by
  rw [write, variableAt_updateVariable]
  split
  · exact Variable.handles_write _ store
  · rfl

/-- A change that fails when its listeners are told stops at one of them. -/
theorem exists_stopsAt (hquiet : c.QuietObservers) {op : Operation α} (hop : op.target? = some v)
    (htells : op.tells ws = true) {e : ModelError α} (herror : (ws.perform c op).2 = .error e) :
    ∃ before h after, (ws.variableAt v).handles = before ++ h :: after
      ∧ StopsAt c op v ws before h := by
  have hfailed : (ws.perform c op).2.isOk = false := by rw [herror]; rfl
  rw [Operation.tells_eq hop] at htells
  rcases perform_cases hop ws with ⟨hnone, -⟩ | ⟨store, hedit, -⟩
      | ⟨store, action, change, hedit, answer, hperform⟩
  · rw [hnone] at htells
    cases htells
  · rw [hedit] at htells
    cases htells
  · rw [hperform, answered, isOk_map] at hfailed
    obtain ⟨before, h, after, told, e', hsplit, htold, hfail, hsame⟩ :=
      tellListeners_error hquiet hfailed
    rw [handles_variableAt_write] at hsplit
    refine ⟨before, h, after, hsplit, store, action, change, told, e', hedit, htold, hfail, ?_⟩
    rw [hperform]
    exact hsame

/-- A live solver that is attached to a variable has a column for it. -/
structure Shows (ws : Workspace α μ) (v : VariableRef) (l : ListenerRef) (column : Column α) :
    Prop extends LiveColumn ws v l column where
  attached : l ∈ (ws.variableAt v).handles.map Handle.listener

/-- A variable with a listener is one of the workspace. -/
theorem index_lt_of_mem_handles {h : Handle} (hh : h ∈ (ws.variableAt v).handles) :
    v.index < ws.vars.length := by
  by_contra hge
  rw [variableAt_of_length_le (Nat.le_of_not_lt hge)] at hh
  cases hh

omit [Scalar α] in
theorem Told.alive {change : Change α} {hs : List Handle} {told : Workspace α μ}
    (htold : Told v change hs ws told) {l : ListenerRef}
    (halive : (told.listener? l).any Listener.isAlive = true) :
    (ws.listener? l).any Listener.isAlive = true := by
  rw [htold.listener, Option.any_map] at halive
  obtain ⟨a, ha, halive⟩ := (Option.any_eq_true _ _).mp halive
  rw [ha, Option.any_some]
  split at halive
  · rwa [Listener.isAlive_hear] at halive
  · exact halive

omit [Scalar α] in
/-- A live solver heard of the change if it was told. -/
theorem Told.solver? {change : Change α} {hs : List Handle} {told : Workspace α μ}
    (htold : Told v change hs ws told) {l : ListenerRef}
    (halive : (ws.listener? l).any Listener.isAlive = true) : told.solver? l =
      if l ∈ hs.map Handle.listener then (ws.solver? l).map (Solver.hear v change)
      else ws.solver? l := by
  obtain ⟨a, ha, halive⟩ := (Option.any_eq_true _ _).mp halive
  rw [Workspace.solver?, htold.listener, Workspace.solver?, ha, Option.map_some, Option.bind_some,
    Option.bind_some]
  by_cases hl : l ∈ hs.map Handle.listener
  · rw [if_pos ⟨halive, hl⟩, if_pos hl, Listener.solver?_hear]
  · rw [if_neg fun h => hl h.2, if_neg hl]

/-- What was stored before listeners were told is still there. -/
theorem Told.variableAt_write {change : Change α} {hs : List Handle} {store : Write α}
    {told : Workspace α μ} (htold : Told v change hs (ws.write v store) told)
    (hsame : told.SameState ws') (hrange : v.index < ws.vars.length) :
    ws'.variableAt v = (ws.variableAt v).write store := by
  rw [hsame.variableAt, Workspace.variableAt, htold.vars]
  exact variableAt_updateVariable_self hrange _

/-- After a change that stopped, the columns of those told are up to date
with it and the columns of all others are the old ones. -/
theorem StopsAt.column {op : Operation α} {before : List Handle} {h : Handle}
    (hstop : StopsAt c op v ws before h) (hrange : v.index < ws.vars.length)
    (hsync : ∀ l column, ws.Shows v l column → column = Generated.columnOf (ws.variableAt v))
    {l : ListenerRef} {column : Column α} (hshows : (ws.perform c op).1.Shows v l column) :
    column = Generated.columnOf (if l ∈ before.map Handle.listener
      then (ws.perform c op).1.variableAt v else ws.variableAt v) := by
  obtain ⟨store, action, change, told, -, hedit, htold, -, hsame⟩ := hstop
  have hleft := htold.variableAt_write hsame hrange
  have hattached : l ∈ (ws.variableAt v).handles.map Handle.listener := by
    have hhandles := hshows.attached
    rw [hleft, Variable.handles_write] at hhandles
    exact hhandles
  have htoldalive : (told.listener? l).any Listener.isAlive = true := by
    rw [← hsame.sameListeners.listener?]
    exact hshows.alive
  have halive : (ws.listener? l).any Listener.isAlive = true := htold.alive htoldalive
  have hold : ∀ old, (ws.solver? l).bind (·.column? v) = some old →
      old = Generated.columnOf (ws.variableAt v) :=
    fun old hcolumn => hsync l old ⟨⟨halive, hcolumn⟩, hattached⟩
  have hcolumn : ((if l ∈ before.map Handle.listener then (ws.solver? l).map (Solver.hear v change)
      else ws.solver? l).bind (·.column? v)) = some column := by
    have hsolver := htold.solver? halive
    rw [← hsame.sameListeners.solver?] at hsolver
    exact (congrArg (Option.bind · (·.column? v)) hsolver).symm.trans hshows.column
  by_cases hl : l ∈ before.map Handle.listener
  · rw [if_pos hl] at hcolumn ⊢
    obtain ⟨s', hs', hcolumn⟩ := Option.bind_eq_some_iff.mp hcolumn
    obtain ⟨s, hs, rfl⟩ := Option.map_eq_some_iff.mp hs'
    rw [Solver.column?_hear] at hcolumn
    obtain ⟨old, holdcolumn, rfl⟩ := Option.map_eq_some_iff.mp hcolumn
    rw [hold old (by rw [hs]; exact holdcolumn), hleft,
      (Operation.editCase hedit).columnOf_store rfl]
  · rw [if_neg hl] at hcolumn ⊢
    exact hold column hcolumn

/-! ## Making the change again -/

/-- What may happen to a variable and its listeners between two calls:
listeners come out of use or die, and levels change that no column shows. -/
structure Waited (v : VariableRef) (ws ws' : Workspace α μ) : Prop where
  variableAt : ∃ assigned, ws'.variableAt v = { ws.variableAt v with assigned }
  bounds : (ws'.variableAt v).effectiveBounds = (ws.variableAt v).effectiveBounds
  column : ∀ l, (ws'.solver? l).bind (·.column? v) = (ws.solver? l).bind (·.column? v)
  alive : ∀ l, (ws'.listener? l).any Listener.isAlive = true →
    (ws.listener? l).any Listener.isAlive = true

/-- A change that was stored and told does no more when it is made again:
the variable is already so, or the freeze is counted once more. -/
theorem perform_again {op : Operation α} (hop : op.target? = some v) {x : Variable α}
    {store : Write α} {news : Action × Change α} (hedit : op.edit? x = some ⟨store, some news⟩)
    (hstored : ∃ assigned, ws.variableAt v = { x.write store with assigned })
    (c : Conduct α μ) : (ws.perform c op).2.isOk = true
      ∧ ((ws.perform c op).1 = ws ∨ ∃ freeze, (ws.perform c op).1 = ws.write v (.freeze freeze)
        ∧ freeze.isFrozen = (ws.variableAt v).freeze.isFrozen) := by
  obtain ⟨assigned, hstored⟩ := hstored
  have hcase := Operation.editCase hedit
  generalize hnews : (some news : Option (Action × Change α)) = told at hcase
  cases hcase with
  | @name w name _ =>
    obtain rfl := Option.some.inj hop
    have hsame : (ws.variableAt w).name.text = name := by rw [hstored]; rfl
    have hagain : ws.setName c w name = (ws, .ok ()) := if_pos hsame
    rw [perform, hagain]
    exact ⟨rfl, Or.inl rfl⟩
  | @kind w kind _ =>
    obtain rfl := Option.some.inj hop
    have hsame : (ws.variableAt w).kind = kind := by rw [hstored]; rfl
    have hagain : ws.setKind c w kind = (ws, .ok ()) := if_pos hsame
    rw [perform, hagain]
    exact ⟨rfl, Or.inl rfl⟩
  | @bound side w b hnumber _ =>
    obtain rfl := Option.some.inj hop
    have hsame : Scalar.approxEq ((ws.variableAt w).bound side) b = true := by
      have hbound : (ws.variableAt w).bound side = b := by
        rw [hstored]
        cases side <;> rfl
      rw [hbound]
      exact Scalar.approxEq_self hnumber
    have hagain : ws.setBound c side w b = (ws, .ok ()) := by
      rw [setBound, hnumber, hsame]
      rfl
    rw [perform, hagain]
    exact ⟨rfl, Or.inl rfl⟩
  | @pin w p _ _ =>
    obtain rfl := Option.some.inj hop
    have hfrozen : (ws.variableAt w).freeze.isFrozen = true := by
      rw [hstored]
      exact Freeze.isFrozen_deepen x.freeze
    have hcounted : (ws.updateVariable w fun x => { x with freeze := x.freeze.deepen })
        = ws.write w (.freeze (ws.variableAt w).freeze.deepen) := updateVariable_congr rfl
    simp only [perform, answered, freeze, if_pos hfrozen, hcounted]
    refine ⟨rfl, Or.inr ⟨_, rfl, ?_⟩⟩
    rw [hfrozen, Freeze.isFrozen_deepen]
  | @restore w hlast =>
    obtain rfl := Option.some.inj hop
    have hfree : (ws.variableAt w).freeze = .unfrozen := by
      rw [hstored]
      change x.freeze.release = _
      rw [hlast]
      rfl
    have hcounted : (ws.updateVariable w fun x => { x with freeze := x.freeze.release })
        = ws.write w (.freeze (ws.variableAt w).freeze.release) := updateVariable_congr rfl
    have hnotlast : ¬(ws.variableAt w).freeze = .frozen 1 := by
      rw [hfree]
      exact Freeze.noConfusion
    simp only [perform, answered, unfreeze, if_neg hnotlast, hcounted]
    exact ⟨rfl, Or.inr ⟨_, rfl, Freeze.isFrozen_release_of_ne hnotlast⟩⟩
  | held _ _ => cases hnews
  | nested _ => cases hnews
  | release _ => cases hnews

/-- Counting a freeze once more or once less shows in no column. -/
theorem columnOf_write_freeze {freeze : Freeze}
    (hsame : freeze.isFrozen = (ws.variableAt v).freeze.isFrozen) :
    Generated.columnOf ((ws.write v (.freeze freeze)).variableAt v)
      = Generated.columnOf (ws.variableAt v) := by
  rw [write, variableAt_updateVariable]
  split
  · exact Generated.columnOf_freeze hsame
  · rfl

/-- After waiting, a column is as it was. -/
theorem Waited.columnOf (h : Waited v ws ws') :
    Generated.columnOf (ws'.variableAt v) = Generated.columnOf (ws.variableAt v) := by
  obtain ⟨assigned, hvariable⟩ := h.variableAt
  have hbounds := h.bounds
  rw [hvariable] at hbounds ⊢
  simp only [Generated.columnOf, hbounds]

/-- After waiting, a solver shows the column it showed. -/
theorem Waited.shows (h : Waited v ws ws') {l : ListenerRef} {column : Column α}
    (hshows : ws'.Shows v l column) : ws.Shows v l column where
  attached := by
    obtain ⟨assigned, hvariable⟩ := h.variableAt
    have hattached := hshows.attached
    rw [hvariable] at hattached
    exact hattached
  alive := h.alive l hshows.alive
  column := by
    rw [← h.column l]
    exact hshows.column

/-- A change that failed because a listener refused or was in use, made
again however much later: it succeeds, nobody is told, and the columns are
those of the variable as it is for listeners before the one that failed, and
those of the variable as it was for all others. -/
theorem columns_after_retry (hquiet : c.QuietObservers) {op : Operation α}
    (hop : op.target? = some v)
    (hsync : ∀ l column, ws.Shows v l column → column = Generated.columnOf (ws.variableAt v))
    (htells : op.tells ws = true) {e : ModelError α} (herror : (ws.perform c op).2 = .error e) :
    ∃ before h after, (ws.variableAt v).handles = before ++ h :: after
      ∧ StopsAt c op v ws before h
      ∧ ∀ (c' : Conduct α μ) later, Waited v (ws.perform c op).1 later →
        (later.perform c' op).2.isOk = true
        ∧ (later.perform c' op).1.listeners = later.listeners
        ∧ (later.perform c' op).1.memory = later.memory
        ∧ ∀ l column, (later.perform c' op).1.Shows v l column →
          column = Generated.columnOf (if l ∈ before.map Handle.listener
            then (later.perform c' op).1.variableAt v else ws.variableAt v) := by
  obtain ⟨before, h, after, hsplit, hstop⟩ := exists_stopsAt hquiet hop htells herror
  refine ⟨before, h, after, hsplit, hstop, fun c' later hwait => ?_⟩
  obtain ⟨store, action, change, told, e', hedit, htold, -, hsame⟩ := id hstop
  have hrange : v.index < ws.vars.length :=
    index_lt_of_mem_handles (by rw [hsplit]; exact List.mem_append_right _ List.mem_cons_self)
  have hstored : ∃ assigned, later.variableAt v
      = { (ws.variableAt v).write store with assigned } := by
    rw [← htold.variableAt_write hsame hrange]
    exact hwait.variableAt
  obtain ⟨hok, hagain⟩ := perform_again hop hedit hstored c'
  refine ⟨hok, ?_, ?_, fun l column hshows => ?_⟩
  · rcases hagain with hagain | ⟨freeze, hagain, -⟩ <;> rw [hagain]
    rfl
  · rcases hagain with hagain | ⟨freeze, hagain, -⟩ <;> rw [hagain]
    rfl
  · have hcolumn : Generated.columnOf ((later.perform c' op).1.variableAt v)
        = Generated.columnOf ((ws.perform c op).1.variableAt v) := by
      rw [← hwait.columnOf]
      rcases hagain with hagain | ⟨freeze, hagain, hfrozen⟩
      · rw [hagain]
      · rw [hagain, columnOf_write_freeze hfrozen]
    have hlater : later.Shows v l column := by
      rcases hagain with hagain | ⟨freeze, hagain, -⟩
      · rw [hagain] at hshows
        exact hshows
      · rw [hagain] at hshows
        refine ⟨⟨hshows.alive, hshows.column⟩, ?_⟩
        rw [← handles_variableAt_write later v v (.freeze freeze)]
        exact hshows.attached
    have hthere := hstop.column hrange hsync (hwait.shows hlater)
    rw [hthere]
    split
    · exact hcolumn.symm
    · rfl

end Workspace

/-! ## An observer that refuses for a while -/

/-- A variable with an observer, and a solver that generates after it. -/
def observedRun : List (Move Exact) :=
  [.newVariable ⟨"x", 0, .finite 10, .continuous⟩, .newSolver pointModel ⟨"exact", true⟩ {},
    .newObserver, .operate (.attach ⟨0⟩ ⟨1, ⟨1⟩⟩), .operate (.generate ⟨0⟩)]

/-- Observers refuse as long as the clients remember to. -/
def reluctantConduct : Conduct Exact Bool where
  receive _ _ _ ws := (ws, if ws.memory then .error (.stated .invalidState "refused") else .ok ())
  answer _ _ ws := (ws, .ok (.ofStatus .infeasible ""))

/-- The change that the observer refuses. -/
def refusedChange : Operation Exact := .setBound .upper ⟨0⟩ (.finite 5)

namespace Workspace

/-- The state in which the observer refuses. -/
def reluctantWorkspace : Workspace Exact Bool :=
  run reluctantConduct observedRun { memory := true }

/-- The state after the refusal, when the observer accepts again. -/
def acceptingWorkspace : Workspace Exact Bool :=
  { (reluctantWorkspace.perform reluctantConduct refusedChange).1 with memory := false }

theorem calmRun_observedRun : CalmRun reluctantConduct observedRun { memory := true } :=
  ⟨trivial, show ∀ v ∈ pointModel.vars, v.index < 1 by decide +kernel, trivial,
    ⟨by decide +kernel, show Workspace.handleOf? _ ⟨1⟩ = some ⟨1, ⟨1⟩⟩ by decide +kernel⟩,
    ⟨by decide +kernel, trivial⟩, trivial⟩

theorem inSync_reluctantWorkspace : InSync reluctantWorkspace :=
  inSync_run (fun _ _ _ ws => .refl ws) (fun _ _ ws => .refl ws) calmRun_observedRun
    (inSync_empty true)

/-- The bound that is refused is stored, and made again it is no change. -/
theorem retry_acceptingWorkspace :
    ∃ before h after, (reluctantWorkspace.variableAt ⟨0⟩).handles = before ++ h :: after
      ∧ StopsAt reluctantConduct refusedChange ⟨0⟩ reluctantWorkspace before h
      ∧ (acceptingWorkspace.perform reluctantConduct refusedChange).2.isOk = true := by
  have hrefused : (reluctantWorkspace.perform reluctantConduct refusedChange).2
      = .error (.stated .invalidState "refused") := by decide +kernel
  obtain ⟨before, h, after, hsplit, hstop, hagain⟩ := columns_after_retry
    (fun _ _ _ ws => .refl ws) rfl (fun _ _ h => (inSync_reluctantWorkspace.of_liveColumn h.toLiveColumn).1)
    (by decide +kernel) hrefused
  have hwait : Waited ⟨0⟩ (reluctantWorkspace.perform reluctantConduct refusedChange).1
      acceptingWorkspace := ⟨⟨_, rfl⟩, rfl, fun _ => rfl, fun _ => id⟩
  exact ⟨before, h, after, hsplit, hstop, (hagain reluctantConduct _ hwait).1⟩

/-- In sync before the observer refuses a bound, the solver behind it still
has the old bound after the same bound was set again with success. -/
theorem stale_after_retry : InSync reluctantWorkspace
    ∧ (reluctantWorkspace.perform reluctantConduct refusedChange).2.isOk = false
    ∧ (∀ l v change, (reluctantConduct.receive l v change acceptingWorkspace).2 = .ok ())
    ∧ (acceptingWorkspace.perform reluctantConduct refusedChange).2 = .ok .done
    ∧ ∃ column, (acceptingWorkspace.perform reluctantConduct refusedChange).1.Shows ⟨0⟩ ⟨0⟩ column
      ∧ column.upper = .finite 10
      ∧ ((acceptingWorkspace.perform reluctantConduct refusedChange).1.variableAt
          ⟨0⟩).effectiveBounds = (.finite 0, .finite 5) := by
  obtain ⟨column, hcolumn, hupper⟩ := (Option.any_eq_true _ _).mp (show
    (((acceptingWorkspace.perform reluctantConduct refusedChange).1.solver? ⟨0⟩).bind
      (·.column? ⟨0⟩)).any (fun column => decide (column.upper = .finite 10)) = true
    by decide +kernel)
  have hshows : (acceptingWorkspace.perform reluctantConduct refusedChange).1.Shows ⟨0⟩ ⟨0⟩
      column := ⟨⟨by decide +kernel, hcolumn⟩, by decide +kernel⟩
  exact ⟨inSync_reluctantWorkspace, by decide +kernel, fun _ _ _ => rfl, by decide +kernel,
    column, hshows, of_decide_eq_true hupper, by decide +kernel⟩

end Workspace

end Milp
